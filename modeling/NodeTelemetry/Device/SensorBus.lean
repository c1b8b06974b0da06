import NodeTelemetry.Keyed

namespace NodeTelemetry

structure Response where
  correlation : UInt64
  reading : Option UInt8
  deriving DecidableEq, Repr

inductive Delivery
  | response (r : Response)
  | failure
  deriving DecidableEq, Repr

structure SensorBus where
  readings : Keyed UInt8 (Option UInt8) := []
  pending : List Delivery := []
  requests : List (UInt8 × UInt64) := []
  failing : List UInt8 := []
  refusals : List Bool := []
  silent : Bool := false
  refusing : Bool := false
  deriving DecidableEq, Repr

namespace SensorBus

def request (b : SensorBus) (sensor : UInt8) (correlation : UInt64) : Bool × SensorBus :=
  let refused := b.refusing || b.failing.contains sensor || b.refusals.headD false
  let b := { b with requests := b.requests ++ [(sensor, correlation)], refusals := b.refusals.tail }
  if refused then (false, b)
  else if b.silent then (true, b)
  else
    let answer := .response ⟨correlation, (b.readings.find? sensor).join⟩
    (true, { b with pending := b.pending ++ [answer] })

def poll (b : SensorBus) : Option Delivery × SensorBus :=
  if b.refusing then (some .failure, b)
  else match b.pending with
    | [] => (none, b)
    | d :: pending => (some d, { b with pending })

def deliver (b : SensorBus) (d : Delivery) : SensorBus := { b with pending := b.pending ++ [d] }

def setReading (b : SensorBus) (sensor : UInt8) (reading : Option UInt8) : SensorBus :=
  { b with readings := b.readings.put sensor reading }

def setFailing (b : SensorBus) (sensor : UInt8) (on : Bool) : SensorBus :=
  let others := b.failing.filter (· != sensor)
  { b with failing := if on then sensor :: others else others }

end SensorBus

end NodeTelemetry
