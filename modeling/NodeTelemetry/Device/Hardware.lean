import NodeTelemetry.Device.SensorBus
import NodeTelemetry.OsError

namespace NodeTelemetry

structure Reading where
  value : UInt64
  enabled : UInt64
  running : UInt64
  deriving DecidableEq, Repr, Inhabited

def Reading.zero : Reading := ⟨0, 0, 0⟩

/-- The readings of one register that are still to come; `none` is a read that fails. -/
abbrev RegisterFile := Keyed UInt64 (List (Option UInt64))

structure Hardware where
  events : Keyed (UInt64 × Nat) (List (Option Reading)) := []
  registers : Keyed Nat RegisterFile := []
  buses : Keyed String SensorBus := []
  refusal : String → OsError := fun _ => .entityNotFound

namespace Hardware

def hasEvent (h : Hardware) (config : UInt64) (cpu : Nat) : Bool :=
  (h.events.find? (config, cpu)).isSome

def readEvent (h : Hardware) (config : UInt64) (cpu : Nat) : Option Reading × Hardware :=
  match h.events.find? (config, cpu) with
  | some (r :: rest) => (r, { h with events := h.events.put (config, cpu) rest })
  | _ => (none, h)

def pushEvent (h : Hardware) (config : UInt64) (cpu : Nat) (rs : List (Option Reading)) :
    Hardware :=
  let known := (h.events.find? (config, cpu)).getD []
  { h with events := h.events.put (config, cpu) (known ++ rs) }

def hasRegisters (h : Hardware) (cpu : Nat) : Bool := (h.registers.find? cpu).isSome

def readRegister (h : Hardware) (cpu : Nat) (address : UInt64) : Option UInt64 × Hardware :=
  match h.registers.find? cpu with
  | none => (none, h)
  | some file =>
    match file.find? address with
    | some (v :: rest) => (v, { h with registers := h.registers.put cpu (file.put address rest) })
    | _ => (none, h)

def addRegisters (h : Hardware) (cpu : Nat) : Hardware :=
  { h with registers := h.registers.put cpu ((h.registers.find? cpu).getD []) }

def pushRegister (h : Hardware) (cpu : Nat) (address : UInt64) (vs : List (Option UInt64)) :
    Hardware :=
  let file := (h.registers.find? cpu).getD []
  let known := (file.find? address).getD []
  { h with registers := h.registers.put cpu (file.put address (known ++ vs)) }

def modifyBus (h : Hardware) (path : String) (change : SensorBus → SensorBus) : Hardware :=
  { h with buses := h.buses.put path (change ((h.buses.find? path).getD {})) }

def request (h : Hardware) (path : String) (sensor : UInt8) (correlation : UInt64) :
    Bool × Hardware :=
  match h.buses.find? path with
  | none => (false, h)
  | some bus =>
    let (taken, bus) := bus.request sensor correlation
    (taken, { h with buses := h.buses.put path bus })

def poll (h : Hardware) (path : String) : Option Delivery × Hardware :=
  match h.buses.find? path with
  | none => (none, h)
  | some bus =>
    let (found, bus) := bus.poll
    (found, { h with buses := h.buses.put path bus })

def takeRequests (h : Hardware) (path : String) : List (UInt8 × UInt64) × Hardware :=
  match h.buses.find? path with
  | none => ([], h)
  | some bus => (bus.requests, { h with buses := h.buses.put path { bus with requests := [] } })

end Hardware

end NodeTelemetry
