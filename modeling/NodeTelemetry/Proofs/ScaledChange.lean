import Mathlib
import NodeTelemetry.Counter.Event

namespace NodeTelemetry

/-! Arithmetic on words of 128 bits that has no result where a word cannot hold it. -/

namespace Wide

def ofWord (w : UInt64) : BitVec 128 := w.toBitVec.setWidth 128

def add? (a b : BitVec 128) : Option (BitVec 128) :=
  if a.toNat + b.toNat < 2 ^ 128 then some (a + b) else none

def mul? (a b : BitVec 128) : Option (BitVec 128) :=
  if a.toNat * b.toNat < 2 ^ 128 then some (a * b) else none

def div? (a b : BitVec 128) : Option (BitVec 128) :=
  if b = 0 then none else some (a / b)

variable {a b : BitVec 128}

@[simp] theorem toNat_ofWord (w : UInt64) : (ofWord w).toNat = w.toNat := by
  rw [ofWord, BitVec.toNat_setWidth, UInt64.toNat_toBitVec]
  exact Nat.mod_eq_of_lt (Nat.lt_trans w.toNat_lt (by decide))

theorem add?_eq (h : a.toNat + b.toNat < 2 ^ 128) :
    ∃ c, add? a b = some c ∧ c.toNat = a.toNat + b.toNat := by
  refine ⟨a + b, if_pos h, ?_⟩
  rw [BitVec.toNat_add, Nat.mod_eq_of_lt h]

theorem mul?_eq (h : a.toNat * b.toNat < 2 ^ 128) :
    ∃ c, mul? a b = some c ∧ c.toNat = a.toNat * b.toNat := by
  refine ⟨a * b, if_pos h, ?_⟩
  rw [BitVec.toNat_mul, Nat.mod_eq_of_lt h]

theorem div?_eq (h : 0 < b.toNat) : ∃ c, div? a b = some c ∧ c.toNat = a.toNat / b.toNat := by
  refine ⟨a / b, if_neg ?_, BitVec.toNat_udiv⟩
  rintro rfl
  exact absurd h (by decide)

def rescale? (raw enabled running : UInt64) : Option (BitVec 128) := do
  let product ← mul? (ofWord raw) (ofWord enabled)
  let half ← div? (ofWord running) 2
  let dividend ← add? product half
  div? dividend (ofWord running)

theorem rescale?_eq (raw enabled : UInt64) {running : UInt64} (h : 0 < running.toNat) :
    ∃ d, rescale? raw enabled running = some d ∧
      d.toNat = (raw.toNat * enabled.toNat + running.toNat / 2) / running.toNat := by
  have hsquare : raw.toNat * enabled.toNat ≤ (2 ^ 64 - 1) * (2 ^ 64 - 1) :=
    Nat.mul_le_mul (Nat.le_pred_of_lt raw.toNat_lt) (Nat.le_pred_of_lt enabled.toNat_lt)
  have hrunning : running.toNat < 2 ^ 64 := running.toNat_lt
  obtain ⟨product, hproduct, hpn⟩ := mul?_eq (a := ofWord raw) (b := ofWord enabled)
    (by rw [toNat_ofWord, toNat_ofWord]; omega)
  rw [toNat_ofWord, toNat_ofWord] at hpn
  obtain ⟨half, hhalf, hhn⟩ := div?_eq (a := ofWord running) (b := 2) (by decide)
  rw [toNat_ofWord, show (2 : BitVec 128).toNat = 2 from rfl] at hhn
  obtain ⟨dividend, hdividend, hdn⟩ := add?_eq (a := product) (b := half) (by omega)
  obtain ⟨d, hd, hn⟩ := div?_eq (a := dividend) (b := ofWord running) (by rwa [toNat_ofWord])
  refine ⟨d, ?_, by rw [hn, hdn, hpn, hhn, toNat_ofWord]⟩
  simp only [rescale?, hproduct, hhalf, hdividend, hd, Option.bind_eq_bind, Option.bind_some]

end Wide

theorem div_nearest (n : Nat) {q : Nat} (hq : 0 < q) :
    2 * ((n + q / 2) / q) * q ≤ 2 * n + q ∧ 2 * n + q < 2 * ((n + q / 2) / q + 1) * q := by
  have hle : (n + q / 2) / q * q ≤ n + q / 2 := Nat.div_mul_le_self _ _
  have hlt : n + q / 2 < ((n + q / 2) / q + 1) * q := by
    rw [← Nat.div_lt_iff_lt_mul hq]
    exact Nat.lt_succ_self _
  rw [Nat.mul_assoc, Nat.mul_assoc]
  omega

def rescaled? (prev now : Reading) : Option (BitVec 128) :=
  Wide.rescale? (now.value - prev.value) (now.enabled - prev.enabled) (now.running - prev.running)

structure Reading.Advances (prev now : Reading) : Prop where
  value : prev.value ≤ now.value
  enabled : prev.enabled ≤ now.enabled
  running : prev.running < now.running

variable {prev now : Reading} {d : BitVec 128} {w : UInt64}

theorem advances_iff : prev.Advances now ↔
    ¬ (now.value < prev.value ∨ now.enabled < prev.enabled ∨ now.running ≤ prev.running) := by
  simp only [not_or, UInt64.not_lt, UInt64.not_le]
  exact ⟨fun h => ⟨h.value, h.enabled, h.running⟩, fun ⟨hv, he, hr⟩ => ⟨hv, he, hr⟩⟩

namespace Reading.Advances

theorem running_pos (h : prev.Advances now) : 0 < now.running.toNat - prev.running.toNat :=
  Nat.sub_pos_of_lt (UInt64.lt_iff_toNat_lt.mp h.running)

theorem rescaled?_eq (h : prev.Advances now) :
    ∃ d, rescaled? prev now = some d ∧
      d.toNat = ((now.value - prev.value).toNat * (now.enabled - prev.enabled).toNat +
        (now.running - prev.running).toNat / 2) / (now.running - prev.running).toNat := by
  apply Wide.rescale?_eq
  rw [UInt64.toNat_sub_of_le _ _ (UInt64.le_of_lt h.running)]
  exact h.running_pos

theorem rescaled?_nearest (h : prev.Advances now) (hd : rescaled? prev now = some d) :
    let raw := now.value.toNat - prev.value.toNat
    let enabled := now.enabled.toNat - prev.enabled.toNat
    let running := now.running.toNat - prev.running.toNat
    2 * d.toNat * running ≤ 2 * (raw * enabled) + running ∧
      2 * (raw * enabled) + running < 2 * (d.toNat + 1) * running := by
  obtain ⟨d', hd', hn⟩ := h.rescaled?_eq
  cases hd.symm.trans hd'
  rw [UInt64.toNat_sub_of_le _ _ h.value, UInt64.toNat_sub_of_le _ _ h.enabled,
    UInt64.toNat_sub_of_le _ _ (UInt64.le_of_lt h.running)] at hn
  rw [hn]
  exact div_nearest _ h.running_pos

theorem scale_eq (h : prev.Advances now) (hd : rescaled? prev now = some d) :
    scale prev now =
      if d.toNat ≤ 2 * 10 ^ 12 then .delta (UInt64.ofNat d.toNat)
      else if d.toNat < UInt64.size then .overflow (UInt64.ofNat d.toNat)
      else .overflow (UInt64.ofNat (UInt64.size - 1)) := by
  obtain ⟨d', hd', hn⟩ := h.rescaled?_eq
  cases hd.symm.trans hd'
  unfold scale
  rw [if_neg (advances_iff.mp h), hn]
  rfl

theorem scale_eq_delta_iff (h : prev.Advances now) (hd : rescaled? prev now = some d) :
    scale prev now = .delta w ↔ d.toNat ≤ 2 * 10 ^ 12 ∧ w.toNat = d.toNat := by
  rw [h.scale_eq hd]
  constructor
  · intro hw
    split at hw
    case isTrue hle =>
      cases hw
      refine ⟨hle, UInt64.toNat_ofNat_of_lt' ?_⟩
      simp only [UInt64.size]
      omega
    case isFalse => split at hw <;> cases hw
  · rintro ⟨hle, hw⟩
    rw [if_pos hle, ← hw, UInt64.ofNat_toNat]

theorem scale_eq_overflow_iff (h : prev.Advances now) (hd : rescaled? prev now = some d) :
    scale prev now = .overflow w ↔
      2 * 10 ^ 12 < d.toNat ∧ w.toNat = min d.toNat (2 ^ 64 - 1) := by
  rw [h.scale_eq hd]
  simp only [UInt64.size]
  constructor
  · intro hw
    split at hw
    case isTrue => cases hw
    case isFalse hlt =>
      split at hw
      case isTrue hword =>
        cases hw
        rw [UInt64.toNat_ofNat_of_lt' hword]
        omega
      case isFalse hword =>
        cases hw
        rw [UInt64.toNat_ofNat_of_lt' (by decide)]
        omega
  · rintro ⟨hlt, hw⟩
    rw [if_neg (by omega)]
    split
    case isTrue hword => rw [show d.toNat = w.toNat by omega, UInt64.ofNat_toNat]
    case isFalse hword =>
      rw [show 18446744073709551616 - 1 = w.toNat by omega, UInt64.ofNat_toNat]

end Reading.Advances

theorem scale_eq_nonMonotonic_iff : scale prev now = .nonMonotonic ↔ ¬ prev.Advances now := by
  constructor
  · intro hs h
    obtain ⟨d, hd, -⟩ := h.rescaled?_eq
    rw [h.scale_eq hd] at hs
    split at hs
    · cases hs
    · split at hs <;> cases hs
  · intro h
    exact if_pos (not_not.mp (advances_iff.not.mp h))

/-- The change between two readings is their quotient to the nearest integer, halves upward, and no
step of its computation leaves 128 bits. -/
theorem scale_to_nearest (prev now : Reading) :
    (scale prev now = .nonMonotonic ↔
      now.value < prev.value ∨ now.enabled < prev.enabled ∨ now.running ≤ prev.running) ∧
    (¬ (now.value < prev.value ∨ now.enabled < prev.enabled ∨ now.running ≤ prev.running) →
      ∃ d : BitVec 128, rescaled? prev now = some d ∧
        (let r : Int := now.value.toNat - prev.value.toNat
        let e : Int := now.enabled.toNat - prev.enabled.toNat
        let q : Int := now.running.toNat - prev.running.toNat
        2 * d.toNat * q ≤ 2 * (r * e) + q ∧ 2 * (r * e) + q < 2 * (d.toNat + 1) * q) ∧
        (∀ w, scale prev now = .delta w ↔ d.toNat ≤ 2 * 10 ^ 12 ∧ w.toNat = d.toNat) ∧
        ∀ w, scale prev now = .overflow w ↔
          2 * 10 ^ 12 < d.toNat ∧ w.toNat = min d.toNat (2 ^ 64 - 1)) := by
  refine ⟨?_, fun hsteps => ?_⟩
  · rw [scale_eq_nonMonotonic_iff, advances_iff, not_not]
  · have h : prev.Advances now := advances_iff.mpr hsteps
    obtain ⟨d, hd, -⟩ := h.rescaled?_eq
    refine ⟨d, hd, ?_, fun w => h.scale_eq_delta_iff hd, fun w => h.scale_eq_overflow_iff hd⟩
    intro r e q
    have hr : r = ((now.value.toNat - prev.value.toNat : Nat) : Int) :=
      (Nat.cast_sub (UInt64.le_iff_toNat_le.mp h.value)).symm
    have he : e = ((now.enabled.toNat - prev.enabled.toNat : Nat) : Int) :=
      (Nat.cast_sub (UInt64.le_iff_toNat_le.mp h.enabled)).symm
    have hq : q = ((now.running.toNat - prev.running.toNat : Nat) : Int) :=
      (Nat.cast_sub (UInt64.le_iff_toNat_le.mp (UInt64.le_of_lt h.running))).symm
    rw [hr, he, hq]
    exact_mod_cast h.rescaled?_nearest hd

theorem ties_go_up :
    let prev : Reading := ⟨5, 0, 1⟩
    let now : Reading := ⟨14, 1, 7⟩
    ¬ (now.value < prev.value ∨ now.enabled < prev.enabled ∨ now.running ≤ prev.running) ∧
      rescaled? prev now = some 2 ∧ scale prev now = .delta 2 := by
  intro prev now
  have hsteps : ¬ (now.value < prev.value ∨ now.enabled < prev.enabled ∨
      now.running ≤ prev.running) := by decide
  obtain ⟨d, hd, -, hdelta, -⟩ := (scale_to_nearest prev now).2 hsteps
  have htwo : rescaled? prev now = some 2 := by decide
  cases hd.symm.trans htwo
  exact ⟨hsteps, htwo, (hdelta 2).mpr ⟨by decide, by decide⟩⟩

end NodeTelemetry
