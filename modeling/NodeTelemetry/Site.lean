import NodeTelemetry.Clock
import NodeTelemetry.Device.Hardware
import NodeTelemetry.Metrics

namespace NodeTelemetry

inductive LifecycleEvent
  | init (name : String)
  | reset (name : String)
  | exit (name : String)
  deriving DecidableEq, Repr

def LifecycleEvent.message : LifecycleEvent → String
  | .init name => "init " ++ name
  | .reset name => "reset " ++ name
  | .exit name => "exit " ++ name

inductive Act
  | init (taken : Bool)
  | reset
  | restart (last : UInt64) (value : Option UInt64)
  | exit
  deriving DecidableEq, Repr

inductive Deed
  | call (counter : String) (act : Act)
  | push (sample : List UInt64)
  /-- A sample of it finds no room in the array of the history. -/
  | overran
  | brokeDown
  | notStarted
  deriving DecidableEq, Repr

inductive Happening
  | step (place : Nat)
  | crash (place : Nat)
  deriving DecidableEq, Repr

structure StopSwitch where
  stopped : Bool := false
  remaining : Nat := 0
  deriving DecidableEq, Repr, Inhabited

def StopSwitch.after (n : Nat) : StopSwitch := ⟨n == 0, n⟩

def StopSwitch.count (s : StopSwitch) : StopSwitch :=
  match s.remaining with
  | 0 => s
  | 1 => ⟨true, 0⟩
  | n + 2 => ⟨s.stopped, n + 1⟩

structure Site where
  clocks : Array Clock := #[]
  hardware : Hardware := {}
  metrics : Metrics := {}
  journal : List LifecycleEvent := []
  /-- What has been done with the registries at their places, the latest first. -/
  log : List (Nat × Deed) := []
  switch : StopSwitch := {}
  /-- Whether the next threads can be started; once there are no more, every one can. -/
  threads : List Bool := []
  /-- Whether the next counters to be restarted break down; once there are no more, only those do
  that break down by themselves. -/
  breakdowns : List Bool := []
  /-- What happens on the threads of samplers between one action of the control plane and the next,
  action by action; once there is no more, nothing does. -/
  meanwhile : List (List Happening) := []

namespace Site

def clock (s : Site) (k : Nat) : Clock := s.clocks[k]?.getD Clock.still

def setClock (s : Site) (k : Nat) (c : Clock) : Site :=
  { s with clocks := s.clocks.setIfInBounds k c }

def readClock (k : Nat) : StateM Site UInt64 := do
  let s ← get
  let (t, c) := (s.clock k).read
  set (s.setClock k c)
  pure t

def count (change : Metrics → Metrics) : StateM Site Unit :=
  modify fun s => { s with metrics := change s.metrics }

def report (e : LifecycleEvent) : StateM Site Unit :=
  modify fun s => { s with journal := s.journal ++ [e] }

def note (place : Nat) (d : Deed) : StateM Site Unit :=
  modify fun s => { s with log := (place, d) :: s.log }

def spawn : StateM Site Bool := do
  let s ← get
  match s.threads with
  | [] => pure true
  | started :: threads =>
    set { s with threads }
    pure started

def breaksDown : StateM Site Bool := do
  let s ← get
  match s.breakdowns with
  | [] => pure false
  | broken :: breakdowns =>
    set { s with breakdowns }
    pure broken

def pause : StateM Site (List Happening) := do
  let s ← get
  match s.meanwhile with
  | [] => pure []
  | happenings :: meanwhile =>
    set { s with meanwhile }
    pure happenings

def onHardware {α : Type} (use : Hardware → α × Hardware) : StateM Site α := do
  let s ← get
  let (a, h) := use s.hardware
  set { s with hardware := h }
  pure a

end Site

end NodeTelemetry
