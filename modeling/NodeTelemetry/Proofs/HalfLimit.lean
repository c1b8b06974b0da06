import Mathlib
import NodeTelemetry.Proofs.DrainExtent

namespace NodeTelemetry

theorem Record.size_render_pos (fields : List Field) : 0 < (Record.render fields).utf8ByteSize := by
  rw [Record.render, String.utf8ByteSize_append, String.utf8ByteSize_append]
  have hbrace : "\x7b".utf8ByteSize = 1 := by decide
  omega

namespace History

def EndsBelowHalf (limit : Nat) (text : String) (rest : History) : Prop :=
  ∀ sample ∈ rest.toList.head?,
    2 * (limit - text.utf8ByteSize) < limit ∨
      limit - text.utf8ByteSize < (rest.schema.render sample).utf8ByteSize

variable {limit k : Nat} {sizes : List Nat} {h : History} {schema : Schema}

theorem sum_take_add_le {j size : Nat} (hk : sizes[k]? = some size) (hj : k < j) :
    (sizes.take k).sum + size ≤ (sizes.take j).sum := by
  obtain ⟨hlt, rfl⟩ := List.getElem?_eq_some_iff.mp hk
  rw [← List.sum_take_succ sizes k hlt]
  have hsub : (sizes.take (k + 1)).Sublist (sizes.take j) := List.take_sublist_take_left hj
  exact hsub.sum_le_sum fun _ _ => Nat.zero_le _

theorem stop_of_half {j size : Nat} (hpos : ∀ size ∈ sizes, 0 < size)
    (hk : IsLeast {k | StopsAt limit 0 sizes k} k) (hj : sizes[j]? = some size)
    (hhalf : 2 * (sizes.take j).sum = limit) : k = j := by
  have hstop : StopsAt limit 0 sizes j := .inr (.inl (by omega))
  rcases Nat.lt_or_eq_of_le (hk.2 hstop) with hlt | heq
  · -- Before `j` there is more than half of the limit left, and each record fits into that.
    have hlength : j < sizes.length := (List.getElem?_eq_some_iff.mp hj).1
    have hnext := List.getElem?_eq_getElem (hlt.trans hlength)
    have hsum := sum_take_add_le hnext hlt
    have hsize := hpos _ (List.mem_of_getElem? hnext)
    rcases hk.1 with hend | hless | ⟨size', hsize', hlong⟩
    · omega
    · omega
    · rw [hnext] at hsize'
      cases hsize'
      omega
  · exact heq

theorem StopsAt.half_or_long {size : Nat} (hk : StopsAt limit 0 sizes k)
    (hsize : sizes[k]? = some size) :
    2 * (limit - (sizes.take k).sum) ≤ limit ∨ limit < (sizes.take k).sum + size := by
  rcases hk with hend | hhalf | ⟨size', hsize', hlong⟩
  · rw [hend, List.getElem?_eq_none le_rfl] at hsize
    cases hsize
  · exact .inl (by omega)
  · rw [hsize'] at hsize
    cases hsize
    exact .inr (by omega)

theorem below_half_iff (hpos : ∀ size ∈ sizes, 0 < size)
    (hk : IsLeast {k | StopsAt limit 0 sizes k} k) (hbound : (sizes.take k).sum ≤ limit) :
    (∀ size ∈ sizes[k]?, 2 * (limit - (sizes.take k).sum) < limit ∨
      limit - (sizes.take k).sum < size) ↔
    ∀ j size, sizes[j]? = some size → 2 * (sizes.take j).sum = limit → limit < 2 * size := by
  constructor
  · intro hrule j size hj hhalf
    obtain rfl := stop_of_half hpos hk hj hhalf
    have hleft := hrule size hj
    omega
  · intro hnone size hsize
    have hat := hnone k size hsize
    have hstop := StopsAt.half_or_long hk.1 hsize
    omega

theorem recordSizes_pos (h : History) : ∀ size ∈ h.recordSizes, 0 < size := by
  intro size hsize
  obtain ⟨sample, -, rfl⟩ := List.mem_map.mp hsize
  exact Record.size_render_pos _

theorem size_join (texts : List String) :
    (String.join texts).utf8ByteSize = (texts.map String.utf8ByteSize).sum := by
  induction texts with
  | nil => rfl
  | cons text texts ih =>
    rw [String.join_cons, String.utf8ByteSize_append, ih, List.map_cons, List.sum_cons]

theorem Moved.size_eq {text : String} {rest : History} (hmoved : h.Moved "" k text rest) :
    text.utf8ByteSize = (h.recordSizes.take k).sum := by
  rw [hmoved.text_eq, String.empty_append, size_join, List.map_map, History.recordSizes,
    List.map_take]
  rfl

theorem Moved.head?_size {text : String} {rest : History} (hmoved : h.Moved "" k text rest)
    (hschema : rest.schema = h.schema) :
    rest.toList.head?.map (fun sample => (rest.schema.render sample).utf8ByteSize) =
      h.recordSizes[k]? := by
  rw [hmoved.toList_eq, hschema, List.head?_drop, History.recordSizes,
    List.getElem?_map]

theorem Moved.endsBelowHalf_iff {text : String} {rest : History}
    (hmoved : h.Moved "" k text rest) (hschema : rest.schema = h.schema) :
    EndsBelowHalf limit text rest ↔
      ∀ size ∈ h.recordSizes[k]?, 2 * (limit - (h.recordSizes.take k).sum) < limit ∨
        limit - (h.recordSizes.take k).sum < size := by
  rw [← hmoved.head?_size hschema, ← hmoved.size_eq]
  simp only [EndsBelowHalf, Option.mem_map, forall_exists_index, and_imp, forall_apply_eq_imp_iff₂]

theorem drain_half (hh : h.ShapedBy schema) (limit : Nat) :
    (∀ sample ∈ (h.drain limit).2.toList.head?,
      2 * (limit - (h.drain limit).1.utf8ByteSize) ≤ limit ∨
        limit - (h.drain limit).1.utf8ByteSize <
          ((h.drain limit).2.schema.render sample).utf8ByteSize) ∧
    (EndsBelowHalf limit (h.drain limit).1 (h.drain limit).2 ↔
      ∀ k size, h.recordSizes[k]? = some size → 2 * (h.recordSizes.take k).sum = limit →
        limit < 2 * size) := by
  obtain ⟨k, hleast, hmoved, hbound⟩ := drain_moved hh limit
  have hschema : (h.drain limit).2.schema = h.schema := by
    rw [(hh.drain limit).schema_eq, hh.schema_eq]
  have hsize := hmoved.size_eq
  constructor
  · intro sample hsample
    have hnext := hmoved.head?_size hschema
    rw [Option.mem_def.mp hsample, Option.map_some] at hnext
    have hstop := StopsAt.half_or_long hleast.1 hnext.symm
    rw [← hsize] at hstop
    omega
  · rw [hmoved.endsBelowHalf_iff hschema]
    exact below_half_iff h.recordSizes_pos hleast (hsize ▸ hbound)

/-- A read ends with no more than half of the limit left, or before a record that does not fit. With
less than half left, or before such a record, it ends exactly if there are no records that come to
half of the limit before one that would fit into the other half. -/
theorem ends_below_half_iff (schema : Schema) (capacity : Nat) (ops : List Op) (site : Site)
    {done : (List (Op × String) × History) × Site}
    (hdone : performAllWithin? ops (new schema capacity) site = some done) (limit : Nat) :
    let h := done.1.2
    let sizes := (h.toList.map schema.render).map String.utf8ByteSize
    ∃ text rest, performWithin? (.drain limit) h done.2 = some ((text, rest), done.2) ∧
      (∀ sample ∈ rest.toList.head?, 2 * (limit - text.utf8ByteSize) ≤ limit ∨
        limit - text.utf8ByteSize < (rest.schema.render sample).utf8ByteSize) ∧
      (EndsBelowHalf limit text rest ↔
        ∀ k size, sizes[k]? = some size → 2 * (sizes.take k).sum = limit → limit < 2 * size) := by
  intro h sizes
  obtain ⟨hshape, hsound⟩ := sound_of_performAllWithin? (shapedBy_new schema capacity)
    (Ring.sound_new schema.width capacity) hdone
  have hsizes : h.recordSizes = sizes := by
    rw [recordSizes, hshape.schema_eq]
    simp only [sizes, List.map_map]
    rfl
  obtain ⟨hends, hrule⟩ := drain_half hshape limit
  rw [hsizes] at hrule
  exact ⟨_, _, performWithin?_drain hsound limit done.2, hends, hrule⟩

theorem two_of_three_are_read :
    let schema : Schema := [⟨"ts", none⟩, ⟨"intv", none⟩]
    let ops : List Op := [.push [1, 1], .push [2, 2], .push [3, 3]]
    let done := performAll ops (new schema 4) {}
    performAllWithin? ops (new schema 4) {} = some done ∧
      ((done.1.2.toList.map schema.render).map String.utf8ByteSize) = [18, 18, 18] ∧
      ∃ text rest, performWithin? (.drain 37) done.1.2 done.2 = some ((text, rest), done.2) ∧
        text.utf8ByteSize = 36 ∧ rest.toList = [[3, 3]] ∧ EndsBelowHalf 37 text rest := by
  intro schema ops done
  have hdone : performAllWithin? ops (new schema 4) {} = some done :=
    (performAll_refines ops (represents_new schema 4 (by decide)) {}).1
  have hsizes : (done.1.2.toList.map schema.render).map String.utf8ByteSize = [18, 18, 18] := by
    decide +kernel
  have hread : ((performWithin? (.drain 37) done.1.2 done.2).map fun read =>
      (read.1.1.utf8ByteSize, read.1.2.toList)) = some (36, [[3, 3]]) := by decide +kernel
  obtain ⟨text, rest, hdrain, -, hrule⟩ := ends_below_half_iff schema 4 ops {} hdone 37
  rw [hdrain, Option.map_some, Option.some.injEq, Prod.mk.injEq] at hread
  refine ⟨hdone, hsizes, text, rest, hdrain, hread.1, hread.2, hrule.mpr ?_⟩
  intro k size _ hhalf
  omega

/-- With exactly half of the limit left a record stays behind that would fit. -/
theorem stays_behind_at_half :
    let schema : Schema := [⟨"ts", none⟩, ⟨"intv", none⟩]
    let ops : List Op := [.push [1, 1], .push [2, 2]]
    let done := performAll ops (new schema 4) {}
    performAllWithin? ops (new schema 4) {} = some done ∧
      ∃ text rest, performWithin? (.drain 36) done.1.2 done.2 = some ((text, rest), done.2) ∧
        text = schema.render [1, 1] ∧ rest.toList = [[2, 2]] ∧
        2 * (36 - text.utf8ByteSize) = 36 ∧
        (schema.render [2, 2]).utf8ByteSize ≤ 36 - text.utf8ByteSize ∧
        ¬ EndsBelowHalf 36 text rest := by
  intro schema ops done
  have hdone : performAllWithin? ops (new schema 4) {} = some done :=
    (performAll_refines ops (represents_new schema 4 (by decide)) {}).1
  obtain ⟨-, hsound⟩ := sound_of_performAllWithin? (shapedBy_new schema 4)
    (Ring.sound_new schema.width 4) hdone
  have hread : ((done.1.2.drain 36).1, (done.1.2.drain 36).2.toList,
      (done.1.2.drain 36).2.schema) = (schema.render [1, 1], [[2, 2]], schema) := by decide +kernel
  have hdrain := performWithin?_drain hsound 36 done.2
  have hsize : (schema.render [1, 1]).utf8ByteSize = 18 := by decide +kernel
  have hnext : (schema.render [2, 2]).utf8ByteSize = 18 := by decide +kernel
  rcases hd : done.1.2.drain 36 with ⟨text, rest⟩
  rw [hd] at hread hdrain
  simp only [Prod.mk.injEq] at hread
  obtain ⟨rfl, hrest, hschema⟩ := hread
  refine ⟨hdone, _, rest, hdrain, rfl, hrest, ?_, ?_, ?_⟩
  · rw [hsize]
  · rw [hsize, hnext]
  · intro hrule
    have hleft := hrule [2, 2] (by rw [hrest]; rfl)
    rw [hschema, hsize, hnext] at hleft
    omega

end History

end NodeTelemetry
