import NodeTelemetry.Schema
import NodeTelemetry.Text.Quoted

namespace NodeTelemetry

def maxNameLength : Nat := 15

inductive RegistryError
  | tooShort (count : Nat)
  | misplaced (slot : Nat) (expected found : String)
  | duplicate (name : String)
  | nameTooLong (name : String)
  | emptyName
  | unknown (name : String)
  | notInitialized (name : String) (cause : CounterError)
  deriving DecidableEq, Repr

namespace RegistryError

def message : RegistryError → String
  | .tooShort count =>
    "a registry needs at least ts and intv, got " ++ toString count ++ " counters"
  | .misplaced slot expected found =>
    "slot " ++ toString slot ++ " must be " ++ expected ++ ", found " ++ found
  | .duplicate name => "counter " ++ name ++ " appears more than once"
  | .nameTooLong name =>
    "counter name " ++ Text.quoted name ++ " is longer than " ++ toString maxNameLength ++ " bytes"
  | .emptyName => "counter names must not be empty"
  | .unknown name => "no counter is named " ++ name
  | .notInitialized name cause => "failed to initialize " ++ name ++ ": " ++ cause.message

def causes : RegistryError → List String
  | .notInitialized _ cause => cause.message :: cause.causes
  | _ => []

end RegistryError

structure Slot where
  counter : Counter
  last : UInt64 := 0
  deriving DecidableEq, Repr

structure Registry where
  slots : List Slot
  schema : Schema
  active : Bool := false
  tracer : Tracer
  place : Nat := 0
  node : Option Nat := none
  deriving DecidableEq, Repr

namespace Registry

def layout : List String := ["ts", "intv"]

def firstMisplaced? : Nat → List String → List String → Option RegistryError
  | i, expected :: layout, found :: names =>
    if found = expected then firstMisplaced? (i + 1) layout names
    else some (.misplaced i expected found)
  | _, _, _ => none

def firstBadName? : List String → List String → Option RegistryError
  | _, [] => none
  | seen, name :: names =>
    if name.isEmpty then some .emptyName
    else if maxNameLength < name.utf8ByteSize then some (.nameTooLong name)
    else if name ∈ seen then some (.duplicate name)
    else firstBadName? (name :: seen) names

def fault? (names : List String) : Option RegistryError :=
  if names.length < layout.length then some (.tooShort names.length)
  else (firstMisplaced? 0 layout names).or (firstBadName? [] names)

def new (tracer : Tracer) (counters : List Counter) : Except RegistryError Registry :=
  match fault? (counters.map Counter.name) with
  | some e => .error e
  | none =>
    .ok { slots := counters.map fun c => { counter := c }
          schema := counters.map Column.ofCounter
          tracer }

def length (r : Registry) : Nat := r.slots.length

def lastSample (r : Registry) : List UInt64 := r.slots.map Slot.last

def onScene {α : Type} (r : Registry) (act : StateM Scene α) : StateM Site (α × Tracer) :=
  fun site =>
  let (a, scene) := act ⟨r.tracer, site⟩
  ((a, scene.tracer), scene.site)

def note (place : Nat) (c : Counter) (act : Act) : StateM Scene Unit :=
  Scene.onSite (Site.note place (.call c.name act))

def callAll (place : Nat) (act : Act) (change : Counter → StateM Scene Counter) :
    List Slot → StateM Scene (List Slot)
  | [] => pure []
  | s :: slots => do
    let c ← change s.counter
    note place c act
    let slots ← callAll place act change slots
    pure ({ s with counter := c } :: slots)

def exitAll (place : Nat) : List Slot → StateM Scene (List Slot) := callAll place .exit Counter.exit

def resetAll (place : Nat) : List Slot → StateM Scene (List Slot) :=
  callAll place .reset Counter.reset

/-- Takes counters on in order. If one fails, those before it are let go in reverse order; `done`
holds these, the latest first. -/
def initAll (place : Nat) :
    List Slot → List Slot → StateM Scene (Option RegistryError × List Slot)
  | done, [] => pure (none, done.reverse)
  | done, s :: slots => do
    let (e, c) ← s.counter.init
    note place c (.init e.isNone)
    match e with
    | none => initAll place ({ s with counter := c } :: done) slots
    | some e =>
      let done ← exitAll place done
      pure (some (.notInitialized c.name e), done.reverse ++ { s with counter := c } :: slots)

def activate (r : Registry) : StateM Site (Option RegistryError × Registry) := do
  if r.active then pure (none, r)
  else
    let ((e, slots), tracer) ← r.onScene (initAll r.place [] r.slots)
    pure (e, { r with slots, tracer, active := e.isNone })

def deactivate (r : Registry) : StateM Site Registry := do
  if r.active then
    let (slots, tracer) ← r.onScene (exitAll r.place r.slots)
    pure { r with slots, tracer, active := false }
  else pure r

def reset (r : Registry) : StateM Site Registry := do
  let (slots, tracer) ← r.onScene (resetAll r.place r.slots)
  pure { r with slots, tracer }

def restart (place : Nat) (s : Slot) : StateM Scene (Option UInt64 × Counter) := do
  let (v, c) ← s.counter.restart s.last
  -- Any counter can break down, whatever it has read.
  let broken ← Scene.onSite Site.breaksDown
  let v := if broken then none else v
  note place c (.restart s.last v)
  pure (v, c)

/-- Restarts counters in order. After one that breaks down no further one is restarted; the answer
tells whether none did. -/
def restartAll (place : Nat) : List Slot → StateM Scene (Bool × List Slot)
  | [] => pure (true, [])
  | s :: slots => do
    let (v, c) ← restart place s
    match v with
    | none => pure (false, { s with counter := c } :: slots)
    | some v =>
      let (whole, slots) ← restartAll place slots
      pure (whole, ⟨c, v⟩ :: slots)

def sample (r : Registry) : StateM Site (Option (List UInt64) × Registry) := do
  let ((whole, slots), tracer) ← r.onScene (restartAll r.place r.slots)
  let r := { r with slots, tracer }
  pure (if whole then some r.lastSample else none, r)

end Registry

end NodeTelemetry
