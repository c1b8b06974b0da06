import Mathlib
import NodeTelemetry.Pacing

namespace NodeTelemetry

def sub? (a b : UInt64) : Option UInt64 := if b ≤ a then some (a - b) else none

def sleepBudget? (period overhead : UInt64) : Option UInt64 :=
  if period ≤ satMul overhead 5 then some (satMul overhead 4) else sub? period overhead

variable {period overhead : UInt64}

theorem overhead_le_of_not_le (h : ¬ period ≤ satMul overhead 5) : overhead ≤ period := by
  apply UInt64.le_of_lt
  apply UInt64.lt_of_le_of_lt (le_satMul overhead (n := 5) (by decide))
  exact UInt64.not_le.mp h

theorem sleepBudget?_eq (period overhead : UInt64) :
    sleepBudget? period overhead = some (sleepBudget period overhead) := by
  unfold sleepBudget? sleepBudget
  by_cases h : period ≤ satMul overhead 5
  · rw [if_pos h, if_pos h]
  · rw [if_neg h, if_neg h]
    exact if_pos (overhead_le_of_not_le h)

theorem toNat_nanos {ms : UInt64} (h : ms.toNat * 10 ^ 6 < 2 ^ 64) :
    (satMul ms nanosPerMilli).toNat = ms.toNat * 10 ^ 6 := by
  have hnanos : nanosPerMilli.toNat = 10 ^ 6 := rfl
  rw [toNat_satMul, hnanos, UInt64.size]
  omega

theorem toNat_sleepBudget (period overhead : UInt64) : (sleepBudget period overhead).toNat =
    if period.toNat ≤ min (overhead.toNat * 5) (2 ^ 64 - 1) then
      min (overhead.toNat * 4) (2 ^ 64 - 1)
    else period.toNat - overhead.toNat := by
  have hfive : (satMul overhead 5).toNat = min (overhead.toNat * 5) (2 ^ 64 - 1) :=
    toNat_satMul overhead 5
  have hfour : (satMul overhead 4).toNat = min (overhead.toNat * 4) (2 ^ 64 - 1) :=
    toNat_satMul overhead 4
  have hiff : period ≤ satMul overhead 5 ↔
      period.toNat ≤ min (overhead.toNat * 5) (2 ^ 64 - 1) := by
    rw [UInt64.le_iff_toNat_le, hfive]
  unfold sleepBudget
  by_cases h : period ≤ satMul overhead 5
  · rw [if_pos h, hfour, if_pos (hiff.mp h)]
  · rw [if_neg h, if_neg (mt hiff.mpr h), UInt64.toNat_sub_of_le _ _ (overhead_le_of_not_le h)]

theorem add_sleepBudget (h : overhead.toNat < 2 ^ 62) :
    overhead.toNat + (sleepBudget period overhead).toNat =
      max period.toNat (5 * overhead.toNat) := by
  have hperiod : period.toNat < 2 ^ 64 := period.toNat_lt
  rw [toNat_sleepBudget]
  split <;> omega

theorem toNat_sleepBudget_of_le (h : 2 ^ 62 ≤ overhead.toNat) :
    (sleepBudget period overhead).toNat = 2 ^ 64 - 1 := by
  have hperiod : period.toNat < 2 ^ 64 := period.toNat_lt
  have hshort : period.toNat ≤ min (overhead.toNat * 5) (2 ^ 64 - 1) := by omega
  rw [toNat_sleepBudget, if_pos hshort]
  omega

theorem le_sleepBudget (period overhead : UInt64) :
    4 * period.toNat ≤ 5 * (sleepBudget period overhead).toNat := by
  have hperiod : period.toNat < 2 ^ 64 := period.toNat_lt
  rw [toNat_sleepBudget]
  split <;> omega

theorem sleepBudget_eq_zero_iff : sleepBudget period overhead = 0 ↔ period = 0 ∧ overhead = 0 := by
  constructor
  · intro hzero
    have hnone : (sleepBudget period overhead).toNat = 0 := congrArg UInt64.toNat hzero
    have hfifths := le_sleepBudget period overhead
    have hperiod : period.toNat = 0 := by omega
    -- A budget at the end of the words is not zero, so that the tick was short.
    have hshort : overhead.toNat < 2 ^ 62 := by
      apply Nat.lt_of_not_le
      intro hlong
      rw [toNat_sleepBudget_of_le hlong] at hnone
      cases hnone
    have hadd : overhead.toNat + (sleepBudget period overhead).toNat =
        max period.toNat (5 * overhead.toNat) := add_sleepBudget hshort
    have hoverhead : overhead.toNat = 0 := by omega
    exact ⟨UInt64.toNat_inj.mp hperiod, UInt64.toNat_inj.mp hoverhead⟩
  · rintro ⟨rfl, rfl⟩
    rfl

/-- A tick and its sleep last a period or five times the tick, whichever is longer, or else the
sleep is the longest that a word holds. -/
theorem sleep_fills_period (period overhead : UInt64) :
    let b := sleepBudget period overhead
    sleepBudget? period overhead = some b ∧
      (4 * overhead.toNat < 2 ^ 64 →
        overhead.toNat + b.toNat = max period.toNat (5 * overhead.toNat)) ∧
      (¬ 4 * overhead.toNat < 2 ^ 64 → b.toNat = 2 ^ 64 - 1) ∧
      4 * period.toNat ≤ 5 * b.toNat ∧
      (b = 0 ↔ period = 0 ∧ overhead = 0) := by
  intro b
  refine ⟨sleepBudget?_eq period overhead, fun hshort => ?_, fun hlong => ?_,
    le_sleepBudget period overhead, sleepBudget_eq_zero_iff⟩
  · exact add_sleepBudget (by omega)
  · exact toNat_sleepBudget_of_le (by omega)

theorem longest_budgets :
    let longest : UInt64 := 18446744073709551615
    let last : UInt64 := 4611686018427387903
    let next : UInt64 := 4611686018427387904
    (4 * last.toNat < 2 ^ 64 ∧
      last.toNat + (sleepBudget longest last).toNat = 5 * last.toNat) ∧
    ¬ 4 * next.toNat < 2 ^ 64 ∧ (sleepBudget longest next).toNat = 2 ^ 64 - 1 := by
  intro longest last next
  have hlast : 4 * last.toNat < 2 ^ 64 := by decide
  have hnext : ¬ 4 * next.toNat < 2 ^ 64 := by decide
  obtain ⟨-, hadd, -⟩ := sleep_fills_period longest last
  obtain ⟨-, -, hend, -⟩ := sleep_fills_period longest next
  have hmax : max longest.toNat (5 * last.toNat) = 5 * last.toNat := by decide
  exact ⟨⟨hlast, (hadd hlast).trans hmax⟩, hnext, hend hnext⟩

end NodeTelemetry
