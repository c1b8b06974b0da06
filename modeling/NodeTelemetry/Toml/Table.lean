import NodeTelemetry.Keyed

namespace NodeTelemetry.Toml

inductive Origin
  | header
  | implied
  | dotted
  | inline
  deriving DecidableEq, Repr

inductive Value
  | text (s : String)
  | integer (n : Int)
  | real
  | boolean (b : Bool)
  | moment
  | array (items : List Value)
  | table (origin : Origin) (entries : List (String × Value))
  | tables (elements : List (List (String × Value)))
  deriving Repr

abbrev Entries := Keyed String Value

namespace Entries

/-- Changes the table at the end of a path, making the tables on the way that are not there yet. A
path leads into the last of several tables, but not into a table in braces. A path of a dotted key
makes dotted tables, and does not lead through tables that have a header. `act` is told whether the
table is a dotted one. -/
def modifyAt (byKey : Bool) (act : Bool → Entries → Option Entries) :
    List String → Bool → Entries → Option Entries
  | [], isDotted, t => act isDotted t
  | k :: path, _, t =>
    match t.find? k with
    | none => do
      let origin := if byKey then .dotted else .implied
      let inner ← modifyAt byKey act path byKey []
      pure (t.put k (.table origin inner))
    | some (.table origin inner) =>
      if origin = .inline ∨ byKey ∧ origin = .header then none
      else do
        let inner ← modifyAt byKey act path (origin = .dotted) inner
        pure (t.put k (.table origin inner))
    | some (.tables elements) =>
      match elements.getLast? with
      | none => none
      | some last => do
        let last ← modifyAt byKey act path false last
        pure (t.put k (.tables (elements.dropLast ++ [last])))
    | some _ => none

def insert? (key : String) (v : Value) (hasPath isDotted : Bool) (t : Entries) : Option Entries :=
  if hasPath ≠ isDotted ∨ (t.find? key).isSome then none else some (t ++ [(key, v)])

def insertAt? (path : List String) (key : String) (v : Value) (t : Entries) : Option Entries :=
  modifyAt true (insert? key v !path.isEmpty) path false t

def openTable? (key : String) (t : Entries) : Option Entries :=
  match t.find? key with
  | none => some (t.put key (.table .header []))
  | some (.table .implied inner) => some (t.put key (.table .header inner))
  | some _ => none

def openElement? (key : String) (t : Entries) : Option Entries :=
  match t.find? key with
  | none => some (t.put key (.tables [[]]))
  | some (.tables elements) => some (t.put key (.tables (elements ++ [[]])))
  | some _ => none

end Entries

end NodeTelemetry.Toml
