namespace NodeTelemetry

/-! Arithmetic on 64-bit words that stops at the ends of their range instead of wrapping. -/

def satSub (a b : UInt64) : UInt64 := if b ≤ a then a - b else 0

def satAdd (a b : UInt64) : UInt64 :=
  if a.toNat + b.toNat < UInt64.size then a + b else UInt64.ofNat (UInt64.size - 1)

def satMul (a b : UInt64) : UInt64 :=
  if a.toNat * b.toNat < UInt64.size then a * b else UInt64.ofNat (UInt64.size - 1)

theorem toNat_satSub (a b : UInt64) : (satSub a b).toNat = a.toNat - b.toNat := by
  unfold satSub
  split
  case isTrue h => exact UInt64.toNat_sub_of_le _ _ h
  case isFalse h =>
    rw [UInt64.le_iff_toNat_le] at h
    have : (0 : UInt64).toNat = 0 := rfl
    omega

theorem toNat_satAdd (a b : UInt64) :
    (satAdd a b).toNat = min (a.toNat + b.toNat) (UInt64.size - 1) := by
  unfold satAdd
  simp only [UInt64.size]
  split
  case isTrue h => rw [UInt64.toNat_add]; omega
  case isFalse h => simp; omega

theorem toNat_satMul (a b : UInt64) :
    (satMul a b).toNat = min (a.toNat * b.toNat) (UInt64.size - 1) := by
  unfold satMul
  simp only [UInt64.size]
  split
  case isTrue h => rw [UInt64.toNat_mul, Nat.mod_eq_of_lt h]; omega
  case isFalse h => simp; omega

theorem le_satMul (a : UInt64) {n : UInt64} (hn : 0 < n.toNat) : a ≤ satMul a n := by
  have hword : a.toNat < UInt64.size := a.toNat_lt
  have hmul : a.toNat ≤ a.toNat * n.toNat := Nat.le_mul_of_pos_right _ hn
  rw [UInt64.le_iff_toNat_le, toNat_satMul]
  omega

end NodeTelemetry
