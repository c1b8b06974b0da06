import NodeTelemetry.History
import NodeTelemetry.Pacing
import NodeTelemetry.Registry

namespace NodeTelemetry

structure Pace where
  period : UInt64
  clock : Nat
  deriving DecidableEq, Repr, Inhabited

inductive Phase
  | checking
  | ticking
  | ticked (budget : UInt64)
  | sleeping (budget : UInt64)
  deriving DecidableEq, Repr

inductive Worker
  | working (registry : Registry) (phase : Phase)
  | stopped (registry : Registry)
  | broken
  deriving DecidableEq, Repr

namespace Worker

def tick (pace : Pace) (r : Registry) (h : History) :
    StateM Site (Option UInt64 × Registry × History) := do
  let (sample?, r) ← r.sample
  match sample? with
  | none => pure (none, r, h)
  | some sample =>
    match ← h.push? sample with
    -- The counters have been sampled by now, so they keep the values that are lost here.
    | none =>
      Site.note r.place .overran
      pure (none, r, h)
    | some h =>
      Site.note r.place (.push sample)
      Site.count fun m => { m with ticks := m.ticks + 1 }
      let now ← Site.readClock pace.clock
      let overhead := satSub now (sample.headD 0)
      pure (some (sleepBudget (satMul pace.period nanosPerMilli) overhead), r, h)

def crash : Worker → StateM Site Worker
  | .working r _ => do
    Site.note r.place .brokeDown
    let _ ← r.deactivate
    pure .broken
  | w => pure w

def step (pace : Pace) (stop : Bool) : Worker → History → StateM Site (Worker × History)
  | .working r .checking, h => pure (if stop then .stopped r else .working r .ticking, h)
  | .working r .ticking, h => do
    let (budget?, r, h) ← tick pace r h
    match budget? with
    | some budget => pure (.working r (.ticked budget), h)
    | none => do pure (← crash (.working r .ticking), h)
  | .working r (.ticked budget), h =>
    let next := if budget = 0 then .checking else .sleeping budget
    pure (if stop then .stopped r else .working r next, h)
  | .working r (.sleeping _), h => pure (.working r .checking, h)
  | w, h => pure (w, h)

def steps (pace : Pace) (stop : StateM Site Bool) :
    Nat → Worker → History → StateM Site (Worker × History)
  | 0, w, h => pure (w, h)
  | n + 1, w, h => do
    let (w, h) ← w.step pace (← stop) h
    steps pace stop n w h

/-- What becomes of a worker that has been told to stop. From wherever it stands, two steps end
it. -/
def join (pace : Pace) : Worker → History → StateM Site (Worker × History) :=
  steps pace (pure true) 2

def settle (pace : Pace) (w : Worker) (h : History) : StateM Site (Worker × History) :=
  match w with
  | .working _ .checking => w.steps pace (pure false) 3 h
  | _ => pure (w, h)

/-- Runs until the stopping probes have been restarted `restarts` times. A round takes at most four
steps and restarts them, and one more step finds the stop. -/
def runUntil (pace : Pace) (restarts : Nat) (r : Registry) (h : History) :
    StateM Site (Worker × History) := do
  modify fun s => { s with switch := .after restarts }
  steps pace (do pure (← get).switch.stopped) (4 * restarts + 1) (.working r .checking) h

end Worker

end NodeTelemetry
