import NodeTelemetry.Program

namespace NodeTelemetry

def machineFor (args : List String) : IO Machine := do
  let mut m := Machine.bare
  for path in args do
    let content? ← (some <$> IO.FS.readBinFile path) <|> pure none
    if let some content := content? then
      m := m.addFile path content.data.toList
  pure m

end NodeTelemetry

open NodeTelemetry in
def main (args : List String) : IO UInt32 := do
  match Program.run (← machineFor args) args with
  | .ended code stdout stderr =>
    IO.print stdout
    IO.eprint stderr
    pure (UInt32.ofNat code)
  | .usage .help => pure 0
  | .usage _ => pure 2
  | .serving _ => pure 0
