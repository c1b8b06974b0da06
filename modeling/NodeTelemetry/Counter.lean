import NodeTelemetry.Counter.Event
import NodeTelemetry.Counter.Probe
import NodeTelemetry.Counter.Register
import NodeTelemetry.Counter.Sensor
import NodeTelemetry.Counter.Timing

namespace NodeTelemetry

inductive Counter
  | timing (t : Timing)
  | event (c : EventCounter)
  | register (c : RegisterCounter)
  | sensors (c : SensorCounter)
  | probe (p : Probe)
  deriving DecidableEq, Repr

inductive Format
  | temperature (detail : Bool)
  | sensors (group : List Sensor)
  | bits (parts : List BitField)
  deriving DecidableEq, Repr

def Format.fields : Format → UInt64 → List Field
  | .temperature detail => temperatureFields detail
  | .sensors group => sensorFields group
  | .bits parts => bitFields parts

def Format.fields? (m : Arithmetic) : Format → UInt64 → Option (List Field)
  | .sensors group, value => sensorFields? m group value
  | f, value => some (f.fields value)

theorem Format.fields?_wrapping (f : Format) (value : UInt64) :
    f.fields? .wrapping value = some (f.fields value) := by
  cases f
  case sensors group => exact sensorFields?_wrapping group value
  all_goals rfl

namespace Counter

def name : Counter → String
  | .timing t => t.name
  | .event c => c.name
  | .register c => c.register.name
  | .sensors c => c.name
  | .probe p => p.name

def format? : Counter → Option Format
  | .register ⟨.temperature, _, detail, _⟩ => some (.temperature detail)
  | .sensors c => some (.sensors c.sensors)
  | .probe p => p.parts.map .bits
  | _ => none

def init : Counter → StateM Scene (Option CounterError × Counter)
  | .event c => do
    let (e, c) ← Scene.onSite c.init
    pure (e, .event c)
  | .register c => do
    let (e, c) ← Scene.onSite c.init
    pure (e, .register c)
  | .sensors c => do
    let (e, c) ← Scene.onSite c.init
    pure (e, .sensors c)
  | .probe p => do pure (← Scene.onSite p.init, .probe p)
  | .timing t => pure (none, .timing t)

def restart (last : UInt64) : Counter → StateM Scene (Option UInt64 × Counter)
  | .timing t => do pure (some (← t.restart), .timing t)
  | .event c => do
    let (v, c) ← Scene.onSite c.restart
    pure (some v, .event c)
  | .register c => do pure (some (← Scene.onSite c.restart), .register c)
  | .sensors c => do
    let (v, c) ← Scene.onSite c.restart
    pure (some v, .sensors c)
  | .probe p => do
    let (v, p) ← Scene.onSite (p.restart last)
    pure (v, .probe p)

def reset : Counter → StateM Scene Counter
  | .timing t => do
    t.reset
    pure (.timing t)
  | .event c => do pure (.event (← Scene.onSite c.reset))
  | .register c => pure (.register c)
  | .sensors c => do pure (.sensors (← Scene.onSite c.reset))
  | .probe p => do
    Scene.onSite p.reset
    pure (.probe p)

def exit : Counter → StateM Scene Counter
  | .event c => pure (.event c.exit)
  | .register c => pure (.register c.exit)
  | .sensors c => pure (.sensors c.exit)
  | .probe p => do
    Scene.onSite p.exit
    pure (.probe p)
  | .timing t => pure (.timing t)

end Counter

end NodeTelemetry
