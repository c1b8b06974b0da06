namespace NodeTelemetry

/-- What a build makes of a product that is too large for a word: it wraps it, or breaks down. -/
inductive Arithmetic
  | wrapping
  | checked
  deriving DecidableEq, Repr

namespace Arithmetic

def mul? : Arithmetic → UInt64 → UInt64 → Option UInt64
  | .wrapping, a, b => some (a * b)
  | .checked, a, b => if a.toNat * b.toNat < UInt64.size then some (a * b) else none

theorem mul?_of_lt {a b : UInt64} (m : Arithmetic) (h : a.toNat * b.toNat < UInt64.size) :
    m.mul? a b = some (a * b) := by
  cases m
  · rfl
  · exact if_pos h

theorem mul?_checked_eq_none_iff {a b : UInt64} :
    checked.mul? a b = none ↔ UInt64.size ≤ a.toNat * b.toNat := by
  simp [mul?]

end Arithmetic

end NodeTelemetry
