import NodeTelemetry.Saturating
import NodeTelemetry.Site

namespace NodeTelemetry

structure Tracer where
  clock : Nat := 0
  previous : UInt64 := 0
  current : UInt64 := 0
  deriving DecidableEq, Repr, Inhabited

structure Scene where
  tracer : Tracer
  site : Site

namespace Scene

def onSite {α : Type} (act : StateM Site α) : StateM Scene α := fun s =>
  let (a, site) := act s.site
  (a, { s with site })

end Scene

namespace Tracer

def tick : StateM Scene UInt64 := do
  let now ← Scene.onSite (Site.readClock (← get).tracer.clock)
  modify fun s =>
    { s with tracer := { s.tracer with previous := s.tracer.current, current := now } }
  pure now

def interval (t : Tracer) : UInt64 := satSub t.current t.previous

def overhead : StateM Scene UInt64 := do
  let now ← Scene.onSite (Site.readClock (← get).tracer.clock)
  pure (satSub now (← get).tracer.current)

def rebase : StateM Scene Unit := do
  let now ← Scene.onSite (Site.readClock (← get).tracer.clock)
  modify fun s => { s with tracer := { s.tracer with previous := now, current := now } }

end Tracer

inductive Timing
  | timestamp
  | interval
  | overhead
  deriving DecidableEq, Repr

namespace Timing

def name : Timing → String
  | .timestamp => "ts"
  | .interval => "intv"
  | .overhead => "oh"

def ofName? : String → Option Timing
  | "ts" => some .timestamp
  | "intv" => some .interval
  | "oh" => some .overhead
  | _ => none

def restart : Timing → StateM Scene UInt64
  | .timestamp => Tracer.tick
  | .interval => do pure (← get).tracer.interval
  | .overhead => Tracer.overhead

def reset : Timing → StateM Scene Unit
  | .timestamp => Tracer.rebase
  | _ => pure ()

theorem ofName?_eq_some_iff {s : String} {t : Timing} : ofName? s = some t ↔ s = t.name := by
  constructor
  · intro h
    unfold ofName? at h
    split at h <;> simp_all [name] <;> (subst h; rfl)
  · rintro rfl
    cases t <;> rfl

end Timing

end NodeTelemetry
