import Mathlib
import NodeTelemetry.History.Ring

namespace NodeTelemetry.Ring

structure Holds (r : Ring) (width capacity : Nat) (samples : List (List UInt64)) : Prop where
  width_eq : r.width = width
  capacity_eq : r.capacity = capacity
  data_size : r.data.size = capacity * width
  base_lt : r.base < capacity
  size_eq : r.size = samples.length
  size_le : r.size ≤ capacity
  next_eq : r.next = (r.base + r.size) % capacity
  slot_eq : ∀ k (hk : k < samples.length), r.slot ((r.base + k) % capacity) = samples[k]

variable {r : Ring} {width capacity : Nat} {samples : List (List UInt64)}

theorem allocation_eq (h : capacity * width < 2 ^ 64) :
    allocation width capacity = capacity * width := by
  simp only [allocation, UInt64.toNat_mul, UInt64.toNat_ofNat', ← Nat.mul_mod]
  exact Nat.mod_eq_of_lt h

theorem getElem?_write (data : Array UInt64) (start i : Nat) (vs : List UInt64)
    (hs : start + vs.length ≤ data.size) :
    (write data start vs)[i]? =
      if start ≤ i ∧ i < start + vs.length then vs[i - start]? else data[i]? := by
  induction vs generalizing data start with
  | nil =>
    rw [if_neg (by simp)]
    rfl
  | cons v vs ih =>
    simp only [List.length_cons] at hs ⊢
    rw [write, ih _ _ (by simp; omega), Array.getElem?_setIfInBounds]
    rcases Nat.lt_trichotomy i start with hlt | heq | hgt
    · rw [if_neg (by omega), if_neg (by omega), if_neg (by omega)]
    · subst heq
      rw [if_neg (by omega), if_pos rfl, if_pos (by omega), if_pos (by omega)]
      simp
    · rw [if_neg (show ¬ start = i by omega)]
      have hi : i - start = i - (start + 1) + 1 := by omega
      by_cases h : i < start + 1 + vs.length
      · rw [if_pos (by omega), if_pos (by omega), hi, List.getElem?_cons_succ]
      · rw [if_neg (by omega), if_neg (by omega)]

theorem slot_getElem? (r : Ring) (i k : Nat) :
    (r.slot i)[k]? = if k < r.width then r.data[r.start i + k]? else none := by
  simp only [slot, Array.toList_extract, List.extract_eq_take_drop, List.getElem?_take,
    List.getElem?_drop, Nat.add_sub_cancel_left, Array.getElem?_toList]

theorem slot_write_self {i : Nat} {vs : List UInt64} (hv : vs.length = r.width)
    (hi : r.start i + r.width ≤ r.data.size) :
    slot { r with data := write r.data (r.start i) vs } i = vs := by
  apply List.ext_getElem?
  intro k
  rw [slot_getElem?]
  by_cases hk : k < r.width
  · rw [if_pos hk]
    change (write r.data (r.start i) vs)[r.start i + k]? = vs[k]?
    rw [getElem?_write _ _ _ _ (by omega), if_pos (by omega), Nat.add_sub_cancel_left]
  · rw [if_neg hk, List.getElem?_eq_none (by omega)]

theorem slot_write_of_ne {i j : Nat} {vs : List UInt64} (hv : vs.length = r.width)
    (hi : r.start i + r.width ≤ r.data.size) (hij : j ≠ i) :
    slot { r with data := write r.data (r.start i) vs } j = r.slot j := by
  apply List.ext_getElem?
  intro k
  rw [slot_getElem?, slot_getElem?]
  by_cases hk : k < r.width
  · have hout : ¬ (r.start i ≤ r.start j + k ∧ r.start j + k < r.start i + vs.length) := by
      simp only [start, hv]
      rcases Nat.lt_or_gt_of_ne hij with h | h
      · have := Nat.mul_le_mul_right r.width (show j + 1 ≤ i from h)
        rw [Nat.add_mul] at this
        omega
      · have := Nat.mul_le_mul_right r.width (show i + 1 ≤ j from h)
        rw [Nat.add_mul] at this
        omega
    rw [if_pos hk, if_pos hk]
    change (write r.data (r.start i) vs)[r.start j + k]? = _
    rw [getElem?_write _ _ _ _ (by omega), if_neg hout]
  · rw [if_neg hk, if_neg hk]

theorem mod_ne_of_lt {a b c : Nat} (hab : a < b) (hbc : b < a + c) : a % c ≠ b % c := by
  intro h
  have hd : c ∣ b - a := (Nat.modEq_iff_dvd' hab.le).mp h
  have := Nat.le_of_dvd (by omega) hd
  omega

namespace Holds

theorem slot_within (h : r.Holds width capacity samples) {i : Nat} (hi : i < capacity) :
    r.start i + r.width ≤ r.data.size := by
  have := Nat.mul_le_mul_right width (show i + 1 ≤ capacity from hi)
  rw [Nat.add_mul] at this
  rw [h.data_size, start, h.width_eq]
  omega

theorem next_lt (h : r.Holds width capacity samples) : r.next < capacity := by
  rw [h.next_eq]
  exact Nat.mod_lt _ (Nat.zero_lt_of_lt h.base_lt)

theorem hasRoom (h : r.Holds width capacity samples) : r.HasRoom := h.slot_within h.next_lt

theorem toList_eq (h : r.Holds width capacity samples) : r.toList = samples := by
  apply List.ext_getElem
  · rw [length_toList, h.size_eq]
  · intro k _ hk
    simp only [toList, List.getElem_map, List.getElem_range, h.capacity_eq]
    exact h.slot_eq k hk

theorem base_add_size_lt (h : r.Holds width capacity samples) (hw : 2 ≤ width)
    (hfit : capacity * width < 2 ^ 64) : r.base + r.size < 2 ^ 64 := by
  have := Nat.mul_le_mul_left capacity hw
  have hb := h.base_lt
  have hs := h.size_le
  omega

end Holds

theorem holds_new (width capacity : Nat) (hfit : max capacity 1 * width < 2 ^ 64) :
    (new width capacity).Holds width (max capacity 1) [] where
  width_eq := rfl
  capacity_eq := rfl
  data_size := by simp [new, allocation_eq hfit]
  base_lt := by simp [new]
  size_eq := rfl
  size_le := Nat.zero_le _
  next_eq := by simp [new]
  slot_eq := by simp

def appendTo (capacity : Nat) (samples : List (List UInt64)) (sample : List UInt64) :
    List (List UInt64) :=
  (if samples.length < capacity then samples else samples.tail) ++ [sample]

theorem Holds.push_of_lt (h : r.Holds width capacity samples) (sample : List UInt64)
    (hlt : samples.length < capacity) :
    (r.push sample).2.Holds width capacity (samples ++ [fit width sample]) := by
  have hw : (fit r.width sample).length = r.width := length_fit _ _
  have hn := h.hasRoom
  have hr : (r.push sample).2 = { r with
      data := write r.data (r.start r.next) (fit r.width sample)
      next := (r.next + 1) % r.capacity, size := r.size + 1 } := by
    rw [push, if_pos (by rw [h.size_eq, h.capacity_eq]; exact hlt)]
  rw [hr]
  refine ⟨h.width_eq, h.capacity_eq, ?_, h.base_lt, ?_, ?_, ?_, ?_⟩
  · rw [size_write, h.data_size]
  · simp [h.size_eq]
  · have := h.size_eq
    change r.size + 1 ≤ capacity
    omega
  · change (r.next + 1) % r.capacity = (r.base + (r.size + 1)) % capacity
    rw [h.next_eq, h.capacity_eq, Nat.mod_add_mod, Nat.add_assoc]
  · intro k hk
    rw [List.length_append, List.length_singleton] at hk
    rcases Nat.lt_or_ge k samples.length with hlt' | hge
    · have hne : (r.base + k) % capacity ≠ r.next := by
        rw [h.next_eq, h.size_eq]
        exact mod_ne_of_lt (by omega) (by omega)
      rw [List.getElem_append_left hlt', ← h.slot_eq k hlt']
      exact slot_write_of_ne hw hn hne
    · have hlast : k = samples.length := by omega
      have he : (r.base + k) % capacity = r.next := by rw [h.next_eq, h.size_eq, hlast]
      simp only [hlast, List.getElem_concat_length, ← h.width_eq]
      rw [← hlast, he]
      exact slot_write_self hw hn

theorem Holds.push_of_full (h : r.Holds width capacity samples) (sample : List UInt64)
    (hfull : samples.length = capacity) :
    (r.push sample).2.Holds width capacity (samples.tail ++ [fit width sample]) := by
  have hpos : 0 < capacity := Nat.zero_lt_of_lt h.base_lt
  have hw : (fit r.width sample).length = r.width := length_fit _ _
  have hn := h.hasRoom
  -- The next slot of a full ring is the oldest, and the ring then begins one slot later.
  have hnext : r.next = r.base := by
    rw [h.next_eq, h.size_eq, hfull, Nat.add_mod_right, Nat.mod_eq_of_lt h.base_lt]
  have hr : (r.push sample).2 = { r with
      data := write r.data (r.start r.next) (fit r.width sample)
      next := (r.next + 1) % r.capacity, base := (r.base + 1) % r.capacity } := by
    rw [push, if_neg (by rw [h.size_eq, h.capacity_eq]; omega)]
  have hlen : (samples.tail ++ [fit width sample]).length = capacity := by
    simp
    omega
  rw [hr]
  refine ⟨h.width_eq, h.capacity_eq, ?_, ?_, ?_, h.size_le, ?_, ?_⟩
  · rw [size_write, h.data_size]
  · change (r.base + 1) % r.capacity < capacity
    rw [h.capacity_eq]
    exact Nat.mod_lt _ hpos
  · change r.size = _
    rw [hlen, h.size_eq, hfull]
  · change (r.next + 1) % r.capacity = ((r.base + 1) % r.capacity + r.size) % capacity
    rw [hnext, h.capacity_eq, h.size_eq, hfull, Nat.add_mod_right, Nat.mod_mod]
  · intro k hk
    rw [hlen] at hk
    have hi : ((r.base + 1) % r.capacity + k) % capacity = (r.base + 1 + k) % capacity := by
      rw [h.capacity_eq, Nat.mod_add_mod]
    change slot { r with data := write r.data (r.start r.next) (fit r.width sample) }
      (((r.base + 1) % r.capacity + k) % capacity) = _
    rw [hi]
    rcases Nat.lt_or_ge (k + 1) capacity with hlt | hge
    · have hk' : k + 1 < samples.length := by omega
      have hne : (r.base + 1 + k) % capacity ≠ r.next := by
        rw [hnext]
        intro he
        have hb : r.base % capacity = (r.base + 1 + k) % capacity := by
          rw [he, Nat.mod_eq_of_lt h.base_lt]
        exact mod_ne_of_lt (by omega) (by omega) hb
      rw [slot_write_of_ne hw hn hne, List.getElem_append_left (by simp; omega), List.getElem_tail,
        ← h.slot_eq (k + 1) hk', Nat.add_assoc, Nat.add_comm 1 k]
    · have he : (r.base + 1 + k) % capacity = r.next := by
        rw [hnext, show r.base + 1 + k = r.base + capacity by omega, Nat.add_mod_right,
          Nat.mod_eq_of_lt h.base_lt]
      rw [he, slot_write_self hw hn, List.getElem_append_right (by simp; omega), h.width_eq]
      simp

theorem Holds.push (h : r.Holds width capacity samples) (sample : List UInt64) :
    (r.push sample).2.Holds width capacity (appendTo capacity samples (fit width sample)) := by
  rw [appendTo]
  by_cases hlt : samples.length < capacity
  · rw [if_pos hlt]
    exact h.push_of_lt sample hlt
  · have hs := h.size_eq
    have hle := h.size_le
    rw [if_neg hlt]
    exact h.push_of_full sample (by omega)

theorem Holds.pop {sample : List UInt64} (h : r.Holds width capacity (sample :: samples)) :
    r.pop.Holds width capacity samples := by
  have hpos : 0 < capacity := Nat.zero_lt_of_lt h.base_lt
  have hs : r.size = samples.length + 1 := h.size_eq
  have hle := h.size_le
  refine ⟨h.width_eq, h.capacity_eq, h.data_size, ?_, ?_, ?_, ?_, ?_⟩
  · change (r.base + 1) % r.capacity < capacity
    rw [h.capacity_eq]
    exact Nat.mod_lt _ hpos
  · change r.size - 1 = _
    omega
  · change r.size - 1 ≤ _
    omega
  · change r.next = ((r.base + 1) % r.capacity + (r.size - 1)) % capacity
    rw [h.next_eq, h.capacity_eq, Nat.mod_add_mod]
    congr 1
    omega
  · intro k hk
    change r.slot (((r.base + 1) % r.capacity + k) % capacity) = _
    have := h.slot_eq (k + 1) (by simpa using hk)
    rw [h.capacity_eq, Nat.mod_add_mod, Nat.add_assoc, Nat.add_comm 1 k, this]
    rfl

theorem Holds.clear (h : r.Holds width capacity samples) : r.clear.Holds width capacity [] where
  width_eq := h.width_eq
  capacity_eq := h.capacity_eq
  data_size := h.data_size
  base_lt := h.base_lt
  size_eq := rfl
  size_le := Nat.zero_le _
  next_eq := (Nat.mod_eq_of_lt h.base_lt).symm
  slot_eq := by simp

theorem Holds.oldest?_eq (h : r.Holds width capacity samples) : r.oldest? = samples.head? := by
  have hs := h.size_eq
  cases samples with
  | nil => simp_all [oldest?]
  | cons sample samples =>
    have := h.slot_eq 0 (by simp)
    rw [Nat.add_zero, Nat.mod_eq_of_lt h.base_lt] at this
    rw [oldest?, if_neg (by simp at hs; omega), this]
    rfl

theorem Holds.newest?_eq (h : r.Holds width capacity samples) :
    r.newest? = samples.getLast? := by
  have hs := h.size_eq
  rcases Nat.eq_zero_or_pos samples.length with h0 | hpos
  · rw [List.length_eq_zero_iff.mp h0] at hs ⊢
    simp_all [newest?]
  · have := h.slot_eq (samples.length - 1) (by omega)
    rw [newest?, if_neg (by omega), h.capacity_eq, h.size_eq, Nat.add_sub_assoc hpos, this,
      List.getLast?_eq_getElem?, List.getElem?_eq_getElem]

end NodeTelemetry.Ring
