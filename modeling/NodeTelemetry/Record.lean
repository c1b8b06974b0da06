namespace NodeTelemetry

structure Field where
  name : String
  value : String
  deriving DecidableEq, Repr

namespace Field

def number (name : String) (value : UInt64) : Field := ⟨name, toString value.toNat⟩

def render (f : Field) : String := "\"" ++ f.name ++ "\":" ++ f.value

end Field

namespace Record

def render (fields : List Field) : String :=
  "\x7b" ++ ",".intercalate (fields.map Field.render) ++ "\x7d\n"

end Record

end NodeTelemetry
