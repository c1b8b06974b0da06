import NodeTelemetry.Counter.Failure
import NodeTelemetry.Saturating
import NodeTelemetry.Site

namespace NodeTelemetry

inductive Scaled
  | delta (d : UInt64)
  | nonMonotonic
  | overflow (d : UInt64)
  deriving DecidableEq, Repr

def overflowThreshold : Nat := 2000000000000

/-- The change from one reading to the next, scaled from the time that the event ran to the time
that it was enabled, to the nearest integer, halves upward. -/
def scale (prev now : Reading) : Scaled :=
  if now.value < prev.value ∨ now.enabled < prev.enabled ∨ now.running ≤ prev.running then
    .nonMonotonic
  else
    let raw := (now.value - prev.value).toNat
    let enabled := (now.enabled - prev.enabled).toNat
    let running := (now.running - prev.running).toNat
    let d := (raw * enabled + running / 2) / running
    if d ≤ overflowThreshold then .delta (UInt64.ofNat d)
    else if d < UInt64.size then .overflow (UInt64.ofNat d)
    else .overflow (UInt64.ofNat (UInt64.size - 1))

structure EventSlot where
  cpu : Nat
  present : Bool
  prev : Reading
  deriving DecidableEq, Repr

structure EventCounter where
  name : String
  config : UInt64
  cpus : List Nat
  slots : List EventSlot := []
  deriving DecidableEq, Repr

namespace EventSlot

def openOn (config : UInt64) (h : Hardware) (cpu : Nat) : EventSlot :=
  ⟨cpu, h.hasEvent config cpu, Reading.zero⟩

def read (config : UInt64) (slot : EventSlot) : StateM Site (Option Reading) :=
  if slot.present then Site.onHardware (·.readEvent config slot.cpu) else pure none

/-- What the slot adds to the total. A discarded reading adds nothing and is the next one's
baseline all the same; a failed read changes nothing. -/
def restart (config : UInt64) (slot : EventSlot) : StateM Site (UInt64 × EventSlot) := do
  match ← slot.read config with
  | none => pure (0, slot)
  | some now =>
    let slot' := { slot with prev := now }
    match scale slot.prev now with
    | .delta d => pure (d, slot')
    | .nonMonotonic | .overflow _ =>
      Site.count fun m => { m with perfDiscarded := m.perfDiscarded + 1 }
      pure (0, slot')

def reset (config : UInt64) (slot : EventSlot) : StateM Site EventSlot := do
  match ← slot.read config with
  | none => pure slot
  | some now => pure { slot with prev := now }

def restartAll (config : UInt64) (total : UInt64) :
    List EventSlot → StateM Site (UInt64 × List EventSlot)
  | [] => pure (total, [])
  | slot :: slots => do
    let (d, slot) ← slot.restart config
    let (total, slots) ← restartAll config (satAdd total d) slots
    pure (total, slot :: slots)

end EventSlot

namespace EventCounter

def init (c : EventCounter) : StateM Site (Option CounterError × EventCounter) := do
  if c.cpus.isEmpty then pure (some .noProcessors, c)
  else
    let h := (← get).hardware
    let slots := c.cpus.map (EventSlot.openOn c.config h)
    if slots.any (·.present) then pure (none, { c with slots })
    else pure (some (.noEvents c.name c.cpus.length), { c with slots := [] })

def restart (c : EventCounter) : StateM Site (UInt64 × EventCounter) := do
  let (total, slots) ← EventSlot.restartAll c.config 0 c.slots
  pure (total, { c with slots })

def reset (c : EventCounter) : StateM Site EventCounter := do
  pure { c with slots := ← c.slots.mapM (EventSlot.reset c.config) }

def exit (c : EventCounter) : EventCounter := { c with slots := [] }

def named : List (String × UInt64) :=
  [("cyc", 0x003c), ("inst", 0x00c0), ("llcref", 0x4f2e), ("llcmiss", 0x412e), ("br", 0x00c4),
    ("brmiss", 0x00c5), ("l2lin", 0x07f4)]

end EventCounter

end NodeTelemetry
