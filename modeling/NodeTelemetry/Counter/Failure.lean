import NodeTelemetry.OsError

namespace NodeTelemetry

inductive CounterError
  | cannotOpen (path : String) (cause : OsError)
  | noEvents (event : String) (cpus : Nat)
  | noProcessors
  | unsupported (what : String)
  deriving DecidableEq, Repr

namespace CounterError

def message : CounterError → String
  | .cannotOpen path cause => "failed to open " ++ path ++ ": " ++ cause.message
  | .noEvents event cpus =>
    "no perf event for " ++ event ++ " could be created on any of " ++ toString cpus ++
      " processors"
  | .noProcessors => "no processors to sample"
  | .unsupported what => what ++ " is not supported on this platform"

def causes : CounterError → List String
  | .cannotOpen _ cause => [cause.message]
  | _ => []

end CounterError

end NodeTelemetry
