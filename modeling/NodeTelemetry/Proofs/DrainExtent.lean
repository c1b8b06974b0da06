import Mathlib
import NodeTelemetry.Proofs.HistoryReads

namespace NodeTelemetry

namespace Ring

structure Sound (r : Ring) : Prop where
  base_lt : r.base < r.capacity
  size_le : r.size ≤ r.capacity
  next_eq : r.next = (r.base + r.size) % r.capacity
  within : ∀ k < r.size, r.start ((r.base + k) % r.capacity) + r.width ≤ r.data.size

variable {r : Ring}

theorem sound_new (width capacity : Nat) : (new width capacity).Sound := by
  have hpos : 0 < max capacity 1 := by omega
  constructor
  · exact hpos
  · exact Nat.zero_le _
  · exact (Nat.zero_mod _).symm
  · intro k hk
    exact absurd hk (Nat.not_lt_zero k)

namespace Sound

theorem push (h : r.Sound) (hnext : r.start r.next + r.width ≤ r.data.size)
    (sample : List UInt64) : (r.push sample).2.Sound := by
  have hpos : 0 < r.capacity := Nat.zero_lt_of_lt h.base_lt
  have hbase := h.base_lt
  have hsize := h.size_le
  unfold Ring.push
  split
  case isTrue hless =>
    constructor
    · exact h.base_lt
    · exact hless
    · change (r.next + 1) % r.capacity = (r.base + (r.size + 1)) % r.capacity
      rw [h.next_eq, Nat.mod_add_mod, Nat.add_assoc]
    · intro k hk
      rw [size_write]
      change r.start ((r.base + k) % r.capacity) + r.width ≤ r.data.size
      rcases Nat.lt_succ_iff_lt_or_eq.mp hk with hold | rfl
      · exact h.within k hold
      · rw [← h.next_eq]
        exact hnext
  case isFalse hfull =>
    have hsame : r.size = r.capacity := by omega
    -- In a full ring the slot that is written is the oldest one, which becomes the newest.
    constructor
    · exact Nat.mod_lt _ hpos
    · exact h.size_le
    · change (r.next + 1) % r.capacity = ((r.base + 1) % r.capacity + r.size) % r.capacity
      rw [next_mod_add_mod, h.next_eq, Nat.mod_add_mod, Nat.add_assoc]
    · intro k hk
      rw [size_write]
      change r.start (((r.base + 1) % r.capacity + k) % r.capacity) + r.width ≤ r.data.size
      rw [next_mod_add_mod]
      rcases Nat.lt_or_eq_of_le (show k + 1 ≤ r.size from hk) with hold | hlast
      · exact h.within (k + 1) hold
      · rw [hlast, ← h.next_eq]
        exact hnext

theorem pop (h : r.Sound) (hpos : 0 < r.size) : r.pop.Sound := by
  have hsize := h.size_le
  constructor
  · exact Nat.mod_lt _ (Nat.zero_lt_of_lt h.base_lt)
  · change r.size - 1 ≤ r.capacity
    omega
  · change r.next = ((r.base + 1) % r.capacity + (r.size - 1)) % r.capacity
    rw [next_mod_add_mod, h.next_eq, Nat.sub_add_cancel hpos]
  · intro k hk
    change r.start (((r.base + 1) % r.capacity + k) % r.capacity) + r.width ≤ r.data.size
    rw [next_mod_add_mod]
    apply h.within
    change k < r.size - 1 at hk
    omega

theorem clear (h : r.Sound) : r.clear.Sound := by
  constructor
  · exact h.base_lt
  · exact Nat.zero_le _
  · exact (Nat.mod_eq_of_lt h.base_lt).symm
  · intro k hk
    exact absurd hk (Nat.not_lt_zero k)

theorem slotWithin?_base (h : r.Sound) (hpos : 0 < r.size) :
    r.slotWithin? r.base = some (r.slot r.base) := by
  have holdest := h.within 0 hpos
  rw [Nat.add_zero, Nat.mod_eq_of_lt h.base_lt] at holdest
  exact if_pos holdest

end Sound

end Ring

namespace History

/-- A drain that has written `used` bytes goes no further than the first `k` of records of these
sizes: no more are left, or no more than half of the limit is, or the next one is too long. -/
def StopsAt (limit used : Nat) (sizes : List Nat) (k : Nat) : Prop :=
  k = sizes.length ∨ limit ≤ used + (sizes.take k).sum + limit / 2 ∨
    ∃ size, sizes[k]? = some size ∧ limit < used + (sizes.take k).sum + size

variable {limit used : Nat} {size : Nat} {sizes : List Nat}

theorem stopsAt_nil : StopsAt limit used [] 0 := .inl rfl

theorem stopsAt_zero_iff : StopsAt limit used (size :: sizes) 0 ↔
    limit ≤ used + limit / 2 ∨ limit < used + size := by
  simp [StopsAt]

theorem stopsAt_succ_iff {k : Nat} : StopsAt limit used (size :: sizes) (k + 1) ↔
    StopsAt limit (used + size) sizes k := by
  simp only [StopsAt, List.length_cons, List.take_succ_cons, List.sum_cons,
    List.getElem?_cons_succ, Nat.add_right_cancel_iff, Nat.add_assoc]

theorem isLeast_stopsAt_zero (h : StopsAt limit used sizes 0) :
    IsLeast {k | StopsAt limit used sizes k} 0 := ⟨h, fun k _ => Nat.zero_le k⟩

theorem isLeast_stopsAt_succ {k : Nat} (hgoes : ¬ StopsAt limit used (size :: sizes) 0)
    (h : IsLeast {k | StopsAt limit (used + size) sizes k} k) :
    IsLeast {k | StopsAt limit used (size :: sizes) k} (k + 1) := by
  constructor
  · exact stopsAt_succ_iff.mpr h.1
  · intro j hj
    cases j with
    | zero => exact absurd hj hgoes
    | succ j => exact Nat.succ_le_succ (h.2 (stopsAt_succ_iff.mp hj))

def recordSizes (h : History) : List Nat :=
  h.toList.map fun sample => (h.schema.render sample).utf8ByteSize

variable {h : History} {schema : Schema} {site : Site}

theorem recordSizes_of_toList {sample : List UInt64}
    (hlist : h.toList = sample :: History.toList { h with ring := h.ring.pop }) :
    h.recordSizes =
      (h.schema.render sample).utf8ByteSize :: recordSizes { h with ring := h.ring.pop } := by
  rw [recordSizes, hlist, List.map_cons]
  rfl

structure Moved (h : History) (text : String) (k : Nat) (text' : String) (h' : History) :
    Prop where
  text_eq : text' = text ++ String.join ((h.toList.take k).map h.schema.render)
  toList_eq : h'.toList = h.toList.drop k

theorem moved_none (h : History) (text : String) : h.Moved text 0 text h :=
  ⟨by simp, rfl⟩

theorem Moved.cons {sample : List UInt64} {text text' : String} {h' : History} {k : Nat}
    (hlist : h.toList = sample :: History.toList { h with ring := h.ring.pop })
    (hmoved : Moved { h with ring := h.ring.pop } (text ++ h.schema.render sample) k text' h') :
    h.Moved text (k + 1) text' h' := by
  constructor
  · rw [hmoved.text_eq, hlist, List.take_succ_cons, List.map_cons, String.join_cons,
      String.append_assoc]
  · rw [hmoved.toList_eq, hlist, List.drop_succ_cons]

theorem drainUpTo_moved (hh : h.ShapedBy schema) {fuel : Nat} (hfuel : h.ring.size = fuel)
    (text : String) (htext : text.utf8ByteSize ≤ limit) :
    ∃ k, IsLeast {k | StopsAt limit text.utf8ByteSize h.recordSizes k} k ∧
      h.Moved text k (drainUpTo limit fuel text h).1 (drainUpTo limit fuel text h).2 ∧
      (drainUpTo limit fuel text h).1.utf8ByteSize ≤ limit := by
  -- Each round takes the oldest record off the sizes that are left and adds it to the bytes used.
  induction fuel generalizing h text with
  | zero =>
    have hnone : h.toList = [] := List.length_eq_zero_iff.mp (h.ring.length_toList.trans hfuel)
    have hsizes : h.recordSizes = [] := by rw [recordSizes, hnone, List.map_nil]
    rw [hsizes]
    exact ⟨0, isLeast_stopsAt_zero stopsAt_nil, h.moved_none text, htext⟩
  | succ fuel ih =>
    obtain ⟨sample, hs⟩ : ∃ sample, h.ring.oldest? = some sample := by
      rw [Ring.oldest?, if_neg (by omega)]
      exact ⟨_, rfl⟩
    have hlist := hh.toList_eq_cons hs
    have hstop : StopsAt limit text.utf8ByteSize h.recordSizes 0 ↔
        limit - text.utf8ByteSize ≤ limit / 2 ∨
          limit - text.utf8ByteSize < (h.schema.render sample).utf8ByteSize := by
      rw [recordSizes_of_toList hlist, stopsAt_zero_iff]
      omega
    rw [drainUpTo, hs]
    dsimp only
    by_cases hends : StopsAt limit text.utf8ByteSize h.recordSizes 0
    · rw [if_pos (hstop.mp hends)]
      exact ⟨0, isLeast_stopsAt_zero hends, h.moved_none text, htext⟩
    · have hfits := mt hstop.mpr hends
      rw [if_neg hfits]
      have hpop : h.ring.pop.size = fuel := by
        change h.ring.size - 1 = fuel
        omega
      have hlonger : (text ++ h.schema.render sample).utf8ByteSize ≤ limit := by
        rw [String.utf8ByteSize_append]
        omega
      obtain ⟨k, hleast, hmoved, hsize⟩ := ih hh.pop hpop _ hlonger
      rw [recordSizes_of_toList hlist] at hends ⊢
      rw [String.utf8ByteSize_append] at hleast
      exact ⟨k + 1, isLeast_stopsAt_succ hends hleast, hmoved.cons hlist, hsize⟩

theorem drain_moved (hh : h.ShapedBy schema) (limit : Nat) :
    ∃ k, IsLeast {k | StopsAt limit 0 h.recordSizes k} k ∧
      h.Moved "" k (h.drain limit).1 (h.drain limit).2 ∧ (h.drain limit).1.utf8ByteSize ≤ limit :=
  drainUpTo_moved hh rfl "" (Nat.zero_le limit)

/-! Reads one after another. -/

theorem takes_one {k : Nat} (hpos : 0 < limit) (hfits : ∀ size ∈ sizes, size ≤ limit)
    (hne : sizes ≠ []) (hk : StopsAt limit 0 sizes k) : 0 < k := by
  obtain ⟨size, rest, rfl⟩ := List.exists_cons_of_ne_nil hne
  apply Nat.pos_of_ne_zero
  rintro rfl
  have hsize := hfits size List.mem_cons_self
  rcases stopsAt_zero_iff.mp hk with hhalf | hlong <;> omega

theorem Moved.recordSizes {text text' : String} {h' : History} {k : Nat}
    (hmoved : h.Moved text k text' h') (hschema : h'.schema = h.schema) :
    h'.recordSizes = h.recordSizes.drop k := by
  rw [History.recordSizes, History.recordSizes, hmoved.toList_eq, hschema, List.map_drop]

theorem performAll_drain_succ (n limit : Nat) (h : History) (site : Site) :
    performAll (List.replicate (n + 1) (.drain limit)) h site =
      let later := performAll (List.replicate n (.drain limit)) (h.drain limit).2 site
      (((.drain limit, (h.drain limit).1) :: later.1.1, later.1.2), later.2) := rfl

theorem drains_take_all (hh : h.ShapedBy schema) (hpos : 0 < limit)
    (hfits : ∀ size ∈ h.recordSizes, size ≤ limit) {n : Nat} (hn : h.toList.length ≤ n)
    (site : Site) :
    let done := performAll (List.replicate n (.drain limit)) h site
    done.2 = site ∧ done.1.2.toList = [] ∧
      String.join (done.1.1.map Prod.snd) = String.join (h.toList.map schema.render) := by
  -- As long as there are records each read takes one at least, so that one fewer is left for the
  -- reads that follow.
  induction n generalizing h with
  | zero =>
    have hnone : h.toList = [] := List.length_eq_zero_iff.mp (Nat.le_zero.mp hn)
    refine ⟨rfl, hnone, ?_⟩
    rw [hnone]
    rfl
  | succ n ih =>
    obtain ⟨k, hleast, hmoved, -⟩ := drain_moved hh limit
    have hshape := hh.drain limit
    have hschema : (h.drain limit).2.schema = h.schema := by
      rw [hshape.schema_eq, hh.schema_eq]
    have hrest : ∀ size ∈ (h.drain limit).2.recordSizes, size ≤ limit := by
      intro size hsize
      rw [hmoved.recordSizes hschema] at hsize
      exact hfits size (List.mem_of_mem_drop hsize)
    have hfewer : (h.drain limit).2.toList.length ≤ n := by
      rw [hmoved.toList_eq, List.length_drop]
      by_cases hnone : h.toList = []
      · simp [hnone]
      · have hne : h.recordSizes ≠ [] := by
          intro hnil
          exact hnone (List.map_eq_nil_iff.mp hnil)
        have hk := takes_one hpos hfits hne hleast.1
        omega
    obtain ⟨hsite, hempty, htext⟩ := ih hshape hrest hfewer
    rw [performAll_drain_succ]
    refine ⟨hsite, hempty, ?_⟩
    rw [List.map_cons, String.join_cons, htext, hmoved.text_eq, hmoved.toList_eq, hh.schema_eq,
      String.empty_append, ← String.join_append, ← List.map_append, List.take_append_drop]

/-! Reads of a ring that is sound stay inside its array. -/

theorem drainUpToWithin?_eq (hr : h.ring.Sound) (limit fuel : Nat) (text : String) :
    drainUpToWithin? limit fuel text h = some (drainUpTo limit fuel text h) := by
  induction fuel generalizing h text with
  | zero => rfl
  | succ fuel ih =>
    rw [drainUpToWithin?, drainUpTo]
    by_cases hsize : h.ring.size = 0
    · rw [if_pos (.inl hsize), Ring.oldest?, if_pos hsize]
    · have hpos : 0 < h.ring.size := Nat.pos_of_ne_zero hsize
      rw [Ring.oldest?, if_neg hsize]
      dsimp only
      by_cases hhalf : limit - text.utf8ByteSize ≤ limit / 2
      · rw [if_pos (.inr hhalf), if_pos (.inl hhalf)]
      · rw [if_neg (not_or.mpr ⟨hsize, hhalf⟩), hr.slotWithin?_base hpos]
        simp only [Option.bind_eq_bind, Option.bind_some, hhalf, false_or]
        split
        · rfl
        · exact ih (hr.pop hpos) _

theorem performWithin?_drain (hr : h.ring.Sound) (limit : Nat) (site : Site) :
    performWithin? (.drain limit) h site = some (h.drain limit, site) := by
  rw [performWithin?, drainUpToWithin?_eq hr]
  rfl

theorem sound_drainUpTo (hr : h.ring.Sound) (limit fuel : Nat) (text : String) :
    (drainUpTo limit fuel text h).2.ring.Sound := by
  induction fuel generalizing h text with
  | zero => exact hr
  | succ fuel ih =>
    unfold drainUpTo
    cases hs : h.ring.oldest? with
    | none => exact hr
    | some sample =>
      have hpos : 0 < h.ring.size := by
        unfold Ring.oldest? at hs
        split_ifs at hs with hsize
        exact Nat.pos_of_ne_zero hsize
      dsimp only
      split
      · exact hr
      · exact ih (hr.pop hpos) _

theorem performAllWithin?_drains (hr : h.ring.Sound) (limit n : Nat) (site : Site) :
    performAllWithin? (List.replicate n (.drain limit)) h site =
      some (performAll (List.replicate n (.drain limit)) h site) := by
  induction n generalizing h with
  | zero => rfl
  | succ n ih =>
    have hrest := ih (sound_drainUpTo hr limit h.ring.size "")
    rw [List.replicate_succ, performAllWithin?, performWithin?_drain hr]
    simp only [Option.bind_eq_bind, Option.bind_some]
    change (performAllWithin? _ (h.drain limit).2 site >>= _) = _
    rw [show performAllWithin? _ (h.drain limit).2 site = _ from hrest]
    rfl

theorem sound_of_performWithin? (hh : h.ShapedBy schema) (hr : h.ring.Sound) {op : Op}
    {done : (String × History) × Site} (hdone : performWithin? op h site = some done) :
    done.1.2.ShapedBy schema ∧ done.1.2.ring.Sound := by
  cases op with
  | push sample =>
    obtain ⟨slot, hslot, hpush⟩ := Option.bind_eq_some_iff.mp hdone
    have hnext : h.ring.start h.ring.next + h.ring.width ≤ h.ring.data.size := by
      unfold Ring.slotWithin? at hslot
      split_ifs at hslot with hwithin
      exact hwithin
    cases hpush
    refine ⟨hh.push sample site, ?_⟩
    have hring : (perform (.push sample) h site).1.2.ring = (h.ring.push sample).2 :=
      congrArg History.ring (push_ring h sample site)
    rw [hring]
    exact hr.push hnext sample
  | drain limit =>
    rw [performWithin?_drain hr] at hdone
    cases hdone
    exact ⟨hh.drain limit, sound_drainUpTo hr limit _ _⟩
  | last =>
    rw [performWithin?] at hdone
    split_ifs at hdone with hsize
    · cases hdone
      exact ⟨hh, hr⟩
    · obtain ⟨sample, -, hlast⟩ := Option.bind_eq_some_iff.mp hdone
      cases hlast
      exact ⟨hh, hr⟩
  | clear =>
    cases hdone
    exact ⟨hh.clear, hr.clear⟩

theorem sound_of_performAllWithin? (hh : h.ShapedBy schema) (hr : h.ring.Sound) {ops : List Op}
    {done : (List (Op × String) × History) × Site}
    (hdone : performAllWithin? ops h site = some done) :
    done.1.2.ShapedBy schema ∧ done.1.2.ring.Sound := by
  induction ops generalizing h site done with
  | nil =>
    cases hdone
    exact ⟨hh, hr⟩
  | cons op ops ih =>
    obtain ⟨now, hnow, hlater⟩ := Option.bind_eq_some_iff.mp hdone
    obtain ⟨later, hrest, hlog⟩ := Option.bind_eq_some_iff.mp hlater
    cases hlog
    obtain ⟨hshape, hsound⟩ := sound_of_performWithin? hh hr hnow
    have hfinal := ih hshape hsound hrest
    exact hfinal

/-- A read takes records up to the first at which it has to stop, and writes no more than its limit.
Where every record fits, as many reads as there are records take them all, each once and in order. -/
theorem drain_takes_up_to_stop (schema : Schema) (capacity : Nat) (ops : List Op) (site : Site)
    {done : (List (Op × String) × History) × Site}
    (hdone : performAllWithin? ops (new schema capacity) site = some done) (limit : Nat) :
    let h := done.1.2
    let records := h.toList.map schema.render
    let sizes := records.map String.utf8ByteSize
    (∃ k text rest, IsLeast {k | StopsAt limit 0 sizes k} k ∧
      performWithin? (.drain limit) h done.2 = some ((text, rest), done.2) ∧
      text = String.join (records.take k) ∧ rest.toList = h.toList.drop k ∧
      text.utf8ByteSize ≤ limit) ∧
    (1 ≤ limit → (∀ size ∈ sizes, size ≤ limit) →
      ∃ log rest, performAllWithin? (List.replicate records.length (.drain limit)) h done.2 =
          some ((log, rest), done.2) ∧
        rest.toList = [] ∧ String.join (log.map Prod.snd) = String.join records) := by
  intro h records sizes
  obtain ⟨hshape, hsound⟩ := sound_of_performAllWithin? (shapedBy_new schema capacity)
    (Ring.sound_new schema.width capacity) hdone
  have hsizes : h.recordSizes = sizes := by
    rw [recordSizes, hshape.schema_eq]
    simp only [sizes, records, List.map_map]
    rfl
  constructor
  · obtain ⟨k, hleast, hmoved, hbound⟩ := drain_moved hshape limit
    rw [hsizes] at hleast
    have htext := hmoved.text_eq
    rw [hshape.schema_eq, String.empty_append, List.map_take] at htext
    exact ⟨k, _, _, hleast, performWithin?_drain hsound limit done.2, htext, hmoved.toList_eq, hbound⟩
  · intro hpos hfits
    rw [← hsizes] at hfits
    have hlength : h.toList.length ≤ records.length := (List.length_map _).ge
    obtain ⟨hsite, hempty, htext⟩ := drains_take_all hshape hpos hfits hlength done.2
    refine ⟨_, _, ?_, hempty, htext⟩
    rw [performAllWithin?_drains hsound]
    refine congrArg some ?_
    exact Prod.ext rfl hsite

theorem four_records_are_read :
    let schema : Schema := [⟨"ts", none⟩, ⟨"v", none⟩]
    let ops : List Op := [.push [1, 1], .push [2, 22], .push [3, 333], .push [4, 4], .push [5, 5]]
    let h := (performAll ops (new schema 4) {}).1.2
    let site := (performAll ops (new schema 4) {}).2
    let records := h.toList.map schema.render
    performAllWithin? ops (new schema 4) {} = some (performAll ops (new schema 4) {}) ∧
      records.map String.utf8ByteSize = [16, 17, 15, 15] ∧
      (∃ text rest, IsLeast {k | StopsAt 32 0 [16, 17, 15, 15] k} 1 ∧
        performWithin? (.drain 32) h site = some ((text, rest), site) ∧
        rest.toList = [[3, 333], [4, 4], [5, 5]] ∧ text.utf8ByteSize ≤ 32) ∧
      ∃ log rest, performAllWithin? (List.replicate 4 (.drain 32)) h site = some ((log, rest), site) ∧
        rest.toList = [] ∧ String.join (log.map Prod.snd) = String.join records := by
  intro schema ops h site records
  have hdone : performAllWithin? ops (new schema 4) {} = some (performAll ops (new schema 4) {}) :=
    (performAll_refines ops (represents_new schema 4 (by decide)) {}).1
  have hlist : h.toList = [[2, 22], [3, 333], [4, 4], [5, 5]] := by decide +kernel
  have hsizes : records.map String.utf8ByteSize = [16, 17, 15, 15] := by decide +kernel
  have hone : IsLeast {k | StopsAt 32 0 [16, 17, 15, 15] k} 1 := by
    apply isLeast_stopsAt_succ
    · rw [stopsAt_zero_iff]
      decide
    · apply isLeast_stopsAt_zero
      rw [stopsAt_zero_iff]
      decide
  obtain ⟨⟨k, text, rest, hleast, hdrain, -, hrest, hbound⟩, hall⟩ :=
    drain_takes_up_to_stop schema 4 ops {} hdone 32
  have hk : k = 1 := by
    change IsLeast {k | StopsAt 32 0 (records.map String.utf8ByteSize) k} k at hleast
    rw [hsizes] at hleast
    exact hleast.unique hone
  have hfits : ∀ size ∈ records.map String.utf8ByteSize, size ≤ 32 := by
    rw [hsizes]
    decide
  refine ⟨hdone, hsizes, ⟨text, rest, hone, hdrain, ?_, hbound⟩, hall (by decide) hfits⟩
  rw [hrest, hk]
  change h.toList.drop 1 = _
  rw [hlist]
  rfl

end History

end NodeTelemetry
