import NodeTelemetry.Counter.Failure
import NodeTelemetry.Record
import NodeTelemetry.Site

namespace NodeTelemetry

structure BitField where
  name : String
  shift : UInt64
  mask : UInt64
  deriving DecidableEq, Repr

def bitFields (parts : List BitField) (value : UInt64) : List Field :=
  parts.map fun p => .number p.name ((value >>> p.shift) &&& p.mask)

structure Probe where
  name : String
  step : UInt64 := 1
  failsInit : Bool := false
  stops : Bool := false
  breaksAt : Option Nat := none
  parts : Option (List BitField) := none
  restarts : Nat := 0
  deriving DecidableEq, Repr

namespace Probe

def init (p : Probe) : StateM Site (Option CounterError) := do
  Site.report (.init p.name)
  pure (if p.failsInit then some (.unsupported "fake") else none)

def restart (p : Probe) (last : UInt64) : StateM Site (Option UInt64 × Probe) := do
  let p := { p with restarts := p.restarts + 1 }
  if p.breaksAt = some p.restarts then pure (none, p)
  else
    if p.stops then modify fun s => { s with switch := s.switch.count }
    pure (some (last + p.step), p)

def reset (p : Probe) : StateM Site Unit := Site.report (.reset p.name)

def exit (p : Probe) : StateM Site Unit := Site.report (.exit p.name)

end Probe

end NodeTelemetry
