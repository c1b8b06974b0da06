import NodeTelemetry.Worker

namespace NodeTelemetry

inductive SamplerState
  | stopped (registry : Registry)
  | running (worker : Worker)
  | lost
  deriving DecidableEq, Repr

structure Sampler where
  name : String
  pin : Option Nat := none
  state : SamplerState
  deriving DecidableEq, Repr

inductive StartError
  | nothingLeft (name : String)
  | noThread (cause : OsError)
  deriving DecidableEq, Repr

def StartError.message : StartError → String
  | .nothingLeft name => name ++ " has no counters left to sample"
  | .noThread cause => cause.message

namespace Sampler

def start (s : Sampler) : StateM Site (Option StartError × Sampler) :=
  match s.state with
  | .running _ => pure (none, s)
  | .lost => pure (some (.nothingLeft s.name), s)
  | .stopped r => do
    -- The thread is only asked for after this, so a registry is reset even if it is lost then.
    let r ← r.reset
    if ← Site.spawn then pure (none, { s with state := .running (.working r .checking) })
    else
      Site.note r.place .notStarted
      let _ ← r.deactivate
      pure (some (.noThread .tryAgain), { s with state := .lost })

def stop (pace : Pace) (s : Sampler) (h : History) : StateM Site (Sampler × History) :=
  match s.state with
  | .running w => do
    let (w, h) ← w.join pace h
    match w with
    | .stopped r => pure ({ s with state := .stopped r }, h)
    | _ => pure ({ s with state := .lost }, h)
  | _ => pure (s, h)

def discard (pace : Pace) (s : Sampler) (h : History) : StateM Site History := do
  let (s, h) ← s.stop pace h
  match s.state with
  | .stopped r =>
    let _ ← r.deactivate
    pure h
  | _ => pure h

def onWorker (act : Worker → History → StateM Site (Worker × History)) (s : Sampler)
    (h : History) : StateM Site (Sampler × History) :=
  match s.state with
  | .running w => do
    let (w, h) ← act w h
    pure ({ s with state := .running w }, h)
  | _ => pure (s, h)

def step (pace : Pace) : Sampler → History → StateM Site (Sampler × History) :=
  onWorker (Worker.step pace false)

def crash : Sampler → History → StateM Site (Sampler × History) :=
  onWorker fun w h => do pure (← w.crash, h)

def settle (pace : Pace) : Sampler → History → StateM Site (Sampler × History) :=
  onWorker (Worker.settle pace)

def isRunning (s : Sampler) : Bool :=
  match s.state with
  | .running _ => true
  | _ => false

end Sampler

end NodeTelemetry
