import NodeTelemetry.Arithmetic
import NodeTelemetry.Counter.Failure
import NodeTelemetry.Record
import NodeTelemetry.Site

namespace NodeTelemetry

structure Sensor where
  name : String
  number : UInt8
  factor : UInt64
  deriving DecidableEq, Repr

def maxSensors : Nat := 8

structure SensorCounter where
  name : String
  device : String
  sensors : List Sensor
  opened : Bool := false
  readings : List UInt8
  sequence : UInt64 := 0
  deriving DecidableEq, Repr

def byteAt (value : UInt64) (i : Nat) : UInt64 := (value >>> UInt64.ofNat (8 * i)) &&& 0xff

def packBytes : Nat → List UInt8 → UInt64
  | _, [] => 0
  | i, b :: bs => (b.toUInt64 <<< UInt64.ofNat (8 * i)) ||| packBytes (i + 1) bs

def sensorFields (sensors : List Sensor) (value : UInt64) : List Field :=
  sensors.zipIdx.map fun (s, i) => .number s.name (byteAt value i * s.factor)

def sensorFields? (m : Arithmetic) (sensors : List Sensor) (value : UInt64) :
    Option (List Field) :=
  sensors.zipIdx.mapM fun (s, i) => (m.mul? (byteAt value i) s.factor).map (.number s.name)

theorem sensorFields?_wrapping (sensors : List Sensor) (value : UInt64) :
    sensorFields? .wrapping sensors value = some (sensorFields sensors value) :=
  List.mapM_pure

namespace SensorCounter

def new (name device : String) (sensors : List Sensor) : SensorCounter :=
  { name, device, sensors := sensors.take maxSensors, readings := List.replicate maxSensors 0 }

/-- The number of a request: a running number above the sensor's index. -/
def correlation (sequence : UInt64) (index : Nat) : UInt64 :=
  (sequence <<< 3) ||| UInt64.ofNat index

def accept (c : SensorCounter) (r : Response) : SensorCounter :=
  let index := (r.correlation &&& 7).toNat
  if c.sensors.length ≤ index then c
  else match r.reading with
    | none => c
    | some b => { c with readings := c.readings.set index b }

def collectUpTo : Nat → SensorCounter → StateM Site SensorCounter
  | 0, c => pure c
  | fuel + 1, c => do
    match ← Site.onHardware (·.poll c.device) with
    | none => pure c
    | some .failure =>
      Site.count fun m => { m with sensorFailures := m.sensorFailures + 1 }
      pure c
    | some (.response r) => collectUpTo fuel (c.accept r)

/-- Polls once more than there are deliveries, so that the fuel does not run out. -/
def collect (c : SensorCounter) : StateM Site SensorCounter := do
  if !c.opened then pure c
  else
    let pending := match (← get).hardware.buses.find? c.device with
      | none => 0
      | some bus => bus.pending.length
    collectUpTo (pending + 1) c

def requestFrom (device : String) (sequence : UInt64) (index : Nat) :
    List Sensor → StateM Site UInt64
  | [] => pure sequence
  | s :: sensors => do
    let taken ← Site.onHardware (·.request device s.number (correlation sequence index))
    -- A request that is refused uses up its number all the same.
    if !taken then Site.count fun m => { m with sensorFailures := m.sensorFailures + 1 }
    requestFrom device (sequence + 1) (index + 1) sensors

def request (c : SensorCounter) : StateM Site SensorCounter := do
  if !c.opened then pure c
  else pure { c with sequence := ← requestFrom c.device c.sequence 0 c.sensors }

def packed (c : SensorCounter) : UInt64 := packBytes 0 (c.readings.take c.sensors.length)

def init (c : SensorCounter) : StateM Site (Option CounterError × SensorCounter) := do
  let h := (← get).hardware
  if (h.buses.find? c.device).isSome then pure (none, { c with opened := true })
  else pure (some (.cannotOpen c.device (h.refusal c.device)), c)

def restart (c : SensorCounter) : StateM Site (UInt64 × SensorCounter) := do
  let c ← (← c.collect).request
  pure (c.packed, c)

def reset (c : SensorCounter) : StateM Site SensorCounter := c.collect

def exit (c : SensorCounter) : SensorCounter := { c with opened := false }

end SensorCounter

end NodeTelemetry
