import NodeTelemetry.Client
import NodeTelemetry.Machine
import NodeTelemetry.Settings.Reader

/-! The program: an agent that samples, or a client of one. -/

namespace NodeTelemetry

namespace Program

def name : String := "nodestat"

def version : String := "0.3.1-alpha.0"

def grammar : CommandLine.Grammar where
  longNames := [("help", .help), ("version", .version), ("verbose", .counter)]
  shortNames := [('h', .help), ('V', .version), ('v', .counter)]
  positionals := [fun path => !path.isEmpty]
  commands := ["ctl", "help"]

inductive Task
  | agent (path : String) (verbosity : Nat)
  | client (r : ClientRequest)
  deriving DecidableEq, Repr

def helpTopics : List (List String) := [[], ["ctl"], ["help"]]

def task (args : List String) : Except CommandFault Task := do
  let usage {α : Type} (r : Except UsageError α) : Except CommandFault α := r.mapError .usage
  let (s, command?) ← usage (CommandLine.scan grammar {} args)
  match command? with
  | some ("help", rest) =>
    throw (.usage (if helpTopics.contains rest then .help else .unknownCommand))
  | some (_, rest) =>
    match Client.parse rest with
    | .error (.usage e) => throw (.usage e)
    | parsed =>
      let _ ← usage (CommandLine.finish grammar s)
      match parsed with
      | .ok r => pure (.client r)
      | .error (.badAttribute name) => throw (.badAttribute name)
      | .error (.usage e) => throw (.usage e)
  | none =>
    let given ← usage (CommandLine.finish grammar s)
    match given.positionals with
    | path :: _ => pure (.agent path given.count)
    | [] => throw (.usage .missingArgument)

inductive Outcome
  | usage (e : UsageError)
  | ended (code : Nat) (stdout stderr : String)
  | serving (settings : Settings)
  deriving DecidableEq, Repr

def bindMessage (addr : Net.SocketAddr) : String :=
  "failed to bind control listener on " ++ addr.render

def runAgent (m : Machine) (s : Settings) : StateM Site (Except (List String) Settings) := do
  match ← Engine.build Provider.all s m.online m.nodes 0 with
  | .error e => pure (.error (e.message :: e.causes))
  | .ok p =>
    let p ← if s.autostart then p.setOn true else pure p
    match m.cannotListen? s.listen with
    | none => pure (.ok s)
    | some e =>
      let _ ← p.shutdown
      pure (.error [bindMessage s.listen, e.message])

def failed (errors : List String) : Outcome :=
  .ended 1 "" ("error: " ++ ": ".intercalate errors ++ "\n")

def run (m : Machine) (args : List String) : Outcome :=
  match task args with
  | .error (.usage .version) => .ended 0 (name ++ " " ++ version ++ "\n") ""
  | .error (.usage e) => .usage e
  | .error (.badAttribute attr) => .ended 1 "" (badAttributeMessage attr ++ "\n")
  | .ok (.client r) => failed [(ClientError.unreachable r.addr).message, "connection refused"]
  | .ok (.agent path _) =>
    match Settings.load (m.files.find m.directory path) with
    | .error e => failed ["failed to load config " ++ path, e.message]
    | .ok s =>
      match (runAgent m s (m.site s #[Clock.still])).1 with
      | .ok s => .serving s
      | .error errors => failed errors

end Program

end NodeTelemetry
