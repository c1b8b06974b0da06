import Mathlib
import NodeTelemetry.Proofs.HistoryQueue

namespace NodeTelemetry

namespace Ring

variable {r : Ring}

theorem next_mod_add_mod (i k n : Nat) : ((i + 1) % n + k) % n = (i + (k + 1)) % n := by
  rw [Nat.mod_add_mod, Nat.add_assoc, Nat.add_comm 1 k]

theorem toList_eq_cons (hb : r.base < r.capacity) (hs : 0 < r.size) :
    r.toList = r.slot r.base :: r.pop.toList := by
  obtain ⟨size, hsize⟩ : ∃ size, r.size = size + 1 := ⟨r.size - 1, by omega⟩
  have hpop : r.pop.toList =
      (List.range size).map fun k => r.slot ((r.base + (k + 1)) % r.capacity) := by
    change (List.range (r.size - 1)).map
      (fun k => r.slot (((r.base + 1) % r.capacity + k) % r.capacity)) = _
    simp only [hsize, Nat.add_sub_cancel, next_mod_add_mod]
  rw [hpop, toList, hsize, List.range_succ_eq_map, List.map_cons, List.map_map, Nat.add_zero,
    Nat.mod_eq_of_lt hb]
  rfl

theorem base_lt_of_pos (hpos : 0 < r.capacity) : (r.base + 1) % r.capacity < r.capacity :=
  Nat.mod_lt _ hpos

theorem base_lt_push (hb : r.base < r.capacity) (sample : List UInt64) :
    (r.push sample).2.base < (r.push sample).2.capacity := by
  unfold push
  split
  · exact hb
  · exact base_lt_of_pos (Nat.zero_lt_of_lt hb)

end Ring

namespace History

structure ShapedBy (h : History) (schema : Schema) : Prop where
  schema_eq : h.schema = schema
  base_lt : h.ring.base < h.ring.capacity

structure Takes (h : History) (taken : List (List UInt64)) (text : String) (h' : History) :
    Prop where
  toList_eq : h.toList = taken ++ h'.toList
  text_eq : text = String.join (taken.map h.schema.render)

variable {h : History} {schema : Schema} {sample : List UInt64}

theorem shapedBy_new (schema : Schema) (capacity : Nat) : (new schema capacity).ShapedBy schema where
  schema_eq := rfl
  base_lt := by simp [new, Ring.new]

namespace ShapedBy

theorem push (hh : h.ShapedBy schema) (sample : List UInt64) (site : Site) :
    (h.push sample site).1.ShapedBy schema := by
  rw [push_ring]
  exact ⟨hh.schema_eq, Ring.base_lt_push hh.base_lt sample⟩

theorem pop (hh : h.ShapedBy schema) : ShapedBy { h with ring := h.ring.pop } schema :=
  ⟨hh.schema_eq, Ring.base_lt_of_pos (Nat.zero_lt_of_lt hh.base_lt)⟩

theorem clear (hh : h.ShapedBy schema) : h.clear.ShapedBy schema := ⟨hh.schema_eq, hh.base_lt⟩

theorem toList_eq_cons (hh : h.ShapedBy schema) (hs : h.ring.oldest? = some sample) :
    h.toList = sample :: History.toList { h with ring := h.ring.pop } := by
  unfold Ring.oldest? at hs
  split_ifs at hs with hsize
  cases hs
  exact Ring.toList_eq_cons hh.base_lt (Nat.pos_of_ne_zero hsize)

end ShapedBy

theorem drainUpTo_taking (hh : h.ShapedBy schema) (limit fuel : Nat) (text : String) :
    (drainUpTo limit fuel text h).2.ShapedBy schema ∧
      ∃ taken, h.toList = taken ++ (drainUpTo limit fuel text h).2.toList ∧
        (drainUpTo limit fuel text h).1 = text ++ String.join (taken.map schema.render) := by
  have stays : h.ShapedBy schema ∧ ∃ taken, h.toList = taken ++ h.toList ∧
      text = text ++ String.join (taken.map schema.render) := ⟨hh, [], rfl, by simp⟩
  induction fuel generalizing h text with
  | zero => exact stays
  | succ fuel ih =>
    unfold drainUpTo
    cases hs : h.ring.oldest? with
    | none => exact stays
    | some sample =>
      dsimp only
      split_ifs with hstop
      · exact stays
      · have hpop := hh.pop
        obtain ⟨hshape, taken, htaken, htext⟩ :=
          ih hpop (text ++ h.schema.render sample) ⟨hpop, [], rfl, by simp⟩
        refine ⟨hshape, sample :: taken, ?_, ?_⟩
        · rw [hh.toList_eq_cons hs, htaken]
          rfl
        · rw [htext, List.map_cons, String.join_cons, String.append_assoc, hh.schema_eq]

theorem drain_takes (hh : h.ShapedBy schema) (limit : Nat) :
    ∃ taken, h.Takes taken (h.drain limit).1 (h.drain limit).2 := by
  obtain ⟨-, taken, htaken, htext⟩ := drainUpTo_taking hh limit h.ring.size ""
  rw [String.empty_append, ← hh.schema_eq] at htext
  exact ⟨taken, htaken, htext⟩

theorem ShapedBy.drain (hh : h.ShapedBy schema) (limit : Nat) : (h.drain limit).2.ShapedBy schema :=
  (drainUpTo_taking hh limit h.ring.size "").1

theorem drain_of_fits (hh : h.ShapedBy schema) (hs : h.ring.oldest? = some sample) {limit : Nat}
    (hpos : 0 < limit) (hfits : (schema.render sample).utf8ByteSize ≤ limit) :
    ∃ taken, h.Takes (sample :: taken) (h.drain limit).1 (h.drain limit).2 := by
  obtain ⟨size, hsize⟩ : ∃ size, h.ring.size = size + 1 := by
    unfold Ring.oldest? at hs
    split_ifs at hs with hsize
    exact ⟨h.ring.size - 1, by omega⟩
  have hgoes : h.drain limit =
      drainUpTo limit size (schema.render sample) { h with ring := h.ring.pop } := by
    -- Before the first record nothing of the limit is used up, so its own length alone decides.
    have hstop : ¬ (limit - "".utf8ByteSize ≤ limit / 2 ∨
        limit - "".utf8ByteSize < (h.schema.render sample).utf8ByteSize) := by
      rw [hh.schema_eq, String.utf8ByteSize_empty, Nat.sub_zero]
      omega
    rw [History.drain, hsize, drainUpTo, hs]
    dsimp only
    rw [if_neg hstop, String.empty_append, hh.schema_eq]
  obtain ⟨-, taken, htaken, htext⟩ := drainUpTo_taking hh.pop limit size (schema.render sample)
  rw [← hgoes] at htaken htext
  refine ⟨taken, ?_, ?_⟩
  · rw [hh.toList_eq_cons hs, htaken]
    rfl
  · rw [htext, List.map_cons, String.join_cons, hh.schema_eq]

theorem drain_of_long (hh : h.ShapedBy schema) (hs : h.ring.oldest? = some sample) {limit : Nat}
    (hlong : limit < (schema.render sample).utf8ByteSize) : h.drain limit = ("", h) := by
  have hstop : limit - "".utf8ByteSize ≤ limit / 2 ∨
      limit - "".utf8ByteSize < (h.schema.render sample).utf8ByteSize := by
    rw [hh.schema_eq, String.utf8ByteSize_empty, Nat.sub_zero]
    exact .inr hlong
  rw [drain]
  cases h.ring.size with
  | zero => rfl
  | succ size =>
    rw [drainUpTo, hs]
    dsimp only
    rw [if_pos hstop]

theorem ShapedBy.perform (hh : h.ShapedBy schema) (op : Op) (site : Site) :
    (perform op h site).1.2.ShapedBy schema := by
  cases op with
  | push sample => exact hh.push sample site
  | drain limit => exact hh.drain limit
  | last => exact hh
  | clear => exact hh.clear

theorem ShapedBy.performAll (hh : h.ShapedBy schema) (ops : List Op) (site : Site) :
    (performAll ops h site).1.2.ShapedBy schema := by
  induction ops generalizing h site with
  | nil => exact hh
  | cons op ops ih =>
    rw [performAll_cons]
    exact ih (hh.perform op site) _

end History

end NodeTelemetry
