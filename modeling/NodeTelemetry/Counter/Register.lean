import NodeTelemetry.Counter.Failure
import NodeTelemetry.Record
import NodeTelemetry.Saturating
import NodeTelemetry.Site

namespace NodeTelemetry

inductive Register
  | temperature
  | energy
  | energyUnit
  deriving DecidableEq, Repr

namespace Register

def name : Register → String
  | .temperature => "temp"
  | .energy => "energy"
  | .energyUnit => "eunit"

def ofName? : String → Option Register
  | "temp" => some .temperature
  | "energy" => some .energy
  | "eunit" => some .energyUnit
  | _ => none

def thermalStatus : UInt64 := 0x1b1
def temperatureTarget : UInt64 := 0x1a2
def powerUnit : UInt64 := 0x606
def energyStatus : UInt64 := 0x611

theorem ofName?_eq_some_iff {s : String} {r : Register} : ofName? s = some r ↔ s = r.name := by
  constructor
  · intro h
    unfold ofName? at h
    split at h <;> simp_all [name] <;> (subst h; rfl)
  · rintro rfl
    cases r <;> rfl

end Register

/-- The limit temperature, the throttling temperature and the temperature of the package, a byte for
each. The thermal status gives the distance below the limit, and the target register the limit and
the distance of the throttling temperature. -/
def packTemperature (status target : UInt64) : UInt64 :=
  let tjmax := (target >>> 16) &&& 0xff
  let offset := (target >>> 8) &&& 0xff
  let readout := (status >>> 16) &&& 0x7f
  let tmax := satSub tjmax offset
  let tpkg := satSub tjmax readout
  (tjmax <<< 24) ||| (tmax <<< 16) ||| tpkg

def temperatureFields (detail : Bool) (value : UInt64) : List Field :=
  let limits :=
    if detail then
      [.number "tjmax" ((value >>> 24) &&& 0xff), .number "tmax" ((value >>> 16) &&& 0xff)]
    else []
  limits ++ [.number "tpkg" (value &&& 0xff)]

structure RegisterCounter where
  register : Register
  cpu : Nat
  detail : Bool
  opened : Bool := false
  deriving DecidableEq, Repr

namespace RegisterCounter

def path (cpu : Nat) : String := "/dev/cpu/" ++ toString cpu ++ "/msr"

def init (c : RegisterCounter) : StateM Site (Option CounterError × RegisterCounter) := do
  let h := (← get).hardware
  if h.hasRegisters c.cpu then pure (none, { c with opened := true })
  else pure (some (.cannotOpen (path c.cpu) (h.refusal (path c.cpu))), c)

def read (c : RegisterCounter) : StateM Site (Option UInt64) := do
  let register (address : UInt64) : StateM Site (Option UInt64) :=
    Site.onHardware (·.readRegister c.cpu address)
  match c.register with
  | .energy => register Register.energyStatus
  | .energyUnit => register Register.powerUnit
  | .temperature =>
    match ← register Register.thermalStatus with
    | none => pure none
    | some status => do
      match ← register Register.temperatureTarget with
      | none => pure none
      | some target => pure (some (packTemperature status target))

def restart (c : RegisterCounter) : StateM Site UInt64 := do
  if !c.opened then pure 0
  else match ← c.read with
    | some v => pure v
    | none =>
      Site.count fun m => { m with rawReadFailures := m.rawReadFailures + 1 }
      pure 0

def exit (c : RegisterCounter) : RegisterCounter := { c with opened := false }

end RegisterCounter

end NodeTelemetry
