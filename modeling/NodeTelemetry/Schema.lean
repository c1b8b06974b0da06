import NodeTelemetry.Counter

namespace NodeTelemetry

structure Column where
  name : String
  format : Option Format := none
  deriving DecidableEq, Repr

namespace Column

def ofCounter (c : Counter) : Column := ⟨c.name, c.format?⟩

def fields (c : Column) (value : UInt64) : List Field :=
  match c.format with
  | some f => f.fields value
  | none => [.number c.name value]

def fields? (m : Arithmetic) (c : Column) (value : UInt64) : Option (List Field) :=
  match c.format with
  | some f => f.fields? m value
  | none => some [.number c.name value]

theorem fields?_wrapping (c : Column) (value : UInt64) :
    c.fields? .wrapping value = some (c.fields value) := by
  unfold fields? fields
  cases c.format with
  | none => rfl
  | some f => exact f.fields?_wrapping value

end Column

abbrev Schema := List Column

namespace Schema

def width (s : Schema) : Nat := s.length

def fields (s : Schema) (sample : List UInt64) : List Field :=
  (s.zip sample).flatMap fun (c, v) => c.fields v

def render (s : Schema) (sample : List UInt64) : String := Record.render (s.fields sample)

def fields? (m : Arithmetic) (s : Schema) (sample : List UInt64) : Option (List Field) :=
  ((s.zip sample).mapM fun p : Column × UInt64 => p.1.fields? m p.2).map List.flatten

def render? (m : Arithmetic) (s : Schema) (sample : List UInt64) : Option String :=
  (s.fields? m sample).map Record.render

theorem fields?_wrapping (s : Schema) (sample : List UInt64) :
    s.fields? .wrapping sample = some (s.fields sample) := by
  simp only [fields?, Column.fields?_wrapping, fields, List.flatMap_def]
  exact congrArg (Option.map List.flatten) List.mapM_pure

theorem render?_wrapping (s : Schema) (sample : List UInt64) :
    s.render? .wrapping sample = some (s.render sample) := by
  simp only [render?, fields?_wrapping, render, Option.map_some]

end Schema

end NodeTelemetry
