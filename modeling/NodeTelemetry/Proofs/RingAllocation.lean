import Mathlib
import NodeTelemetry.Proofs.EngineHistories
import NodeTelemetry.Proofs.RecordLength

namespace NodeTelemetry

namespace Ring

variable {width capacity : Nat}

def Roomy (r : Ring) : Prop := ∀ i < r.capacity, r.start i + r.width ≤ r.data.size

theorem capacity_new (hpos : 0 < capacity) : (new width capacity).capacity = capacity :=
  Nat.max_eq_left hpos

theorem size_data_new (hpos : 0 < capacity) :
    (new width capacity).data.size = capacity * width % 2 ^ 64 := by
  have hmax : max capacity 1 = capacity := Nat.max_eq_left hpos
  simp only [new, hmax, Array.size_replicate, allocation, UInt64.toNat_mul, UInt64.toNat_ofNat',
    ← Nat.mul_mod]

theorem roomy_new_iff (hpos : 0 < capacity) :
    (new width capacity).Roomy ↔ capacity * width < 2 ^ 64 := by
  have hcapacity : (new width capacity).capacity = capacity := capacity_new hpos
  constructor
  · intro hroomy
    have hlast := hroomy (capacity - 1) (by omega)
    have hend : (capacity - 1) * width + width = capacity * width := by
      rw [← Nat.succ_mul, Nat.succ_eq_add_one, Nat.sub_add_cancel hpos]
    rw [size_data_new hpos] at hlast
    have hmod : capacity * width % 2 ^ 64 < 2 ^ 64 := Nat.mod_lt _ (by decide)
    change (capacity - 1) * width + width ≤ _ at hlast
    omega
  · intro hfit i hi
    have hmax : max capacity 1 = capacity := Nat.max_eq_left hpos
    have hholds := holds_new width capacity (by rwa [hmax])
    apply hholds.slot_within
    rw [hmax]
    rwa [hcapacity] at hi

theorem size_data_push (r : Ring) (sample : List UInt64) :
    (r.push sample).2.data.size = r.data.size := by
  unfold push
  split <;> exact size_write _ _ _

theorem width_push (r : Ring) (sample : List UInt64) : (r.push sample).2.width = r.width := by
  unfold push
  split <;> rfl

theorem capacity_push (r : Ring) (sample : List UInt64) :
    (r.push sample).2.capacity = r.capacity := by
  unfold push
  split <;> rfl

theorem next_push (r : Ring) (sample : List UInt64) :
    (r.push sample).2.next = (r.next + 1) % r.capacity := by
  unfold push
  split <;> rfl

end Ring

namespace History

variable {h : History}

theorem performAllWithin?_push_of_room (sample : List UInt64) (ops : List Op) (site : Site)
    (hroom : h.ring.start h.ring.next + h.ring.width ≤ h.ring.data.size) :
    performAllWithin? (.push sample :: ops) h site =
      let pushed := perform (.push sample) h site
      (performAllWithin? ops pushed.1.2 pushed.2).map fun done =>
        (((.push sample, pushed.1.1) :: done.1.1, done.1.2), done.2) := by
  have hslot : h.ring.slotWithin? h.ring.next = some (h.ring.slot h.ring.next) := if_pos hroom
  simp only [performAllWithin?, performWithin?, hslot, Option.bind_eq_bind, Option.bind_some]
  cases performAllWithin? ops (perform (.push sample) h site).1.2
    (perform (.push sample) h site).2 <;> rfl

theorem performAllWithin?_push_of_no_room (sample : List UInt64) (ops : List Op) (site : Site)
    (hroom : ¬ h.ring.start h.ring.next + h.ring.width ≤ h.ring.data.size) :
    performAllWithin? (.push sample :: ops) h site = none := by
  have hslot : h.ring.slotWithin? h.ring.next = none := if_neg hroom
  simp only [performAllWithin?, performWithin?, hslot, Option.bind_eq_bind, Option.bind_none]

theorem pushes_of_short (hwidth : 0 < h.ring.width)
    (hshort : h.ring.data.size < h.ring.capacity * h.ring.width)
    (hnext : h.ring.next ≤ h.ring.data.size / h.ring.width) (samples : List (List UInt64))
    (site : Site) :
    performAllWithin? (samples.map .push) h site =
      if h.ring.next + samples.length ≤ h.ring.data.size / h.ring.width then
        some (performAll (samples.map .push) h site)
      else none := by
  -- The words run out before the ring comes round, so that `next` counts the samples so far.
  induction samples generalizing h site with
  | nil =>
    rw [List.length_nil, Nat.add_zero, if_pos hnext]
    rfl
  | cons sample samples ih =>
    have hslot : h.ring.start h.ring.next + h.ring.width ≤ h.ring.data.size ↔
        h.ring.next + 1 ≤ h.ring.data.size / h.ring.width := by
      rw [Nat.le_div_iff_mul_le hwidth, Nat.succ_mul]
      rfl
    rw [List.map_cons, List.length_cons]
    by_cases hroom : h.ring.next + 1 ≤ h.ring.data.size / h.ring.width
    · have hlast : h.ring.data.size / h.ring.width < h.ring.capacity :=
        (Nat.div_lt_iff_lt_mul hwidth).mpr hshort
      have hpushed : (perform (.push sample) h site).1.2.ring = (h.ring.push sample).2 :=
        congrArg History.ring (push_ring h sample site)
      have hafter : (h.ring.push sample).2.next = h.ring.next + 1 := by
        rw [Ring.next_push, Nat.mod_eq_of_lt (hroom.trans_lt hlast)]
      have hrest := ih (h := (perform (.push sample) h site).1.2)
        (by rwa [hpushed, Ring.width_push])
        (by rwa [hpushed, Ring.width_push, Ring.capacity_push, Ring.size_data_push])
        (by rwa [hpushed, Ring.width_push, Ring.size_data_push, hafter])
        (perform (.push sample) h site).2
      rw [hpushed, Ring.width_push, Ring.size_data_push, hafter, Nat.add_right_comm] at hrest
      rw [performAllWithin?_push_of_room sample _ site (hslot.mpr hroom)]
      dsimp only
      rw [hrest]
      by_cases hall : h.ring.next + (samples.length + 1) ≤ h.ring.data.size / h.ring.width
      · rw [if_pos hall, if_pos (by omega), performAll_cons]
        rfl
      · rw [if_neg hall, if_neg (by omega)]
        rfl
    · rw [performAllWithin?_push_of_no_room sample _ site (mt hslot.mp hroom), if_neg (by omega)]

theorem pushes_new_of_long {schema : Schema} {capacity : Nat} (hpos : 0 < capacity)
    (hlong : 2 ^ 64 ≤ capacity * schema.width) (samples : List (List UInt64)) (site : Site) :
    performAllWithin? (samples.map .push) (new schema capacity) site =
      if samples.length ≤ capacity * schema.width % 2 ^ 64 / schema.width then
        some (performAll (samples.map .push) (new schema capacity) site)
      else none := by
  have hcapacity : (new schema capacity).ring.capacity = capacity := Ring.capacity_new hpos
  have hwords : (new schema capacity).ring.data.size = capacity * schema.width % 2 ^ 64 :=
    Ring.size_data_new hpos
  have hmod : capacity * schema.width % 2 ^ 64 < 2 ^ 64 := Nat.mod_lt _ (by decide)
  have hwidth : 0 < schema.width := by
    by_contra hzero
    have hnone : capacity * schema.width = 0 := by
      rw [Nat.eq_zero_of_not_pos hzero, Nat.mul_zero]
    omega
  have hshort : (new schema capacity).ring.data.size <
      (new schema capacity).ring.capacity * (new schema capacity).ring.width := by
    rw [hwords, hcapacity]
    exact hmod.trans_le hlong
  have hpushes := pushes_of_short hwidth hshort (Nat.zero_le _) samples site
  have hnext : (new schema capacity).ring.next = 0 := rfl
  have hwide : (new schema capacity).ring.width = schema.width := rfl
  rwa [hwords, hnext, hwide, Nat.zero_add] at hpushes

end History

namespace Settings

variable {s : Settings} {text : String}

theorem capacity_pos_of_check (h : s.check = .ok ()) : 0 < s.capacity := by
  apply Nat.pos_of_ne_zero
  intro hzero
  rw [check, if_pos hzero] at h
  cases h

open History

/-- The histories of accepted settings hold what they are made for exactly if their words can be
counted in 64 bits. Otherwise the array is what is left of the product, and the samples that no
longer fit into it fall outside. -/
theorem capacity_fits_iff (hs : Settings.parse text = .ok s) :
    (∀ schema : Schema,
      let h := History.new schema s.capacity
      let words := s.capacity * schema.width
      h.ring.capacity = s.capacity ∧
      h.ring.data.size = words % 2 ^ 64 ∧
      (h.ring.data.size = words ↔ words < 2 ^ 64) ∧
      (h.ring.Roomy ↔ words < 2 ^ 64) ∧
      (words < 2 ^ 64 → ∀ ops site,
        performAllWithin? ops h site = some (performAll ops h site)) ∧
      (2 ^ 64 ≤ words → ∀ (samples : List (List UInt64)) site,
        performAllWithin? (samples.map .push) h site =
          if samples.length ≤ words % 2 ^ 64 / schema.width then
            some (performAll (samples.map .push) h site)
          else none)) ∧
    ∀ providers online nodes clock site p,
      (Engine.build providers s online nodes clock site).1 = .ok p →
        ∀ (i : Nat) (n : Node), p.nodes[i]? = some n →
          n.history = History.new n.history.schema s.capacity ∧
          n.history.schema.width = s.enabled.length + 3 := by
  have hpos : 0 < s.capacity := capacity_pos_of_check (check_of_parse hs)
  constructor
  · intro schema h words
    have hwords : h.ring.data.size = words % 2 ^ 64 := Ring.size_data_new hpos
    refine ⟨Ring.capacity_new hpos, hwords, ?_, Ring.roomy_new_iff hpos, ?_, ?_⟩
    · rw [hwords]
      exact Nat.mod_eq_iff_lt (by decide : 2 ^ 64 ≠ 0)
    · intro hfit ops site
      have hmax : max s.capacity 1 = s.capacity := Nat.max_eq_left hpos
      have hrepresents := represents_new schema s.capacity (by rwa [hmax])
      exact (performAll_refines ops hrepresents site).1
    · exact fun hlong => pushes_new_of_long hpos hlong
  · intro providers online nodes clock site p hp i n hn
    obtain ⟨gs, hgs, rfl⟩ := Engine.shapes_of_assemble hp
    rw [ControlPlane.new_node] at hn
    obtain ⟨g, hg, rfl⟩ := Option.map_eq_some_iff.mp hn
    obtain ⟨cpus, r, hr, hschema⟩ := hgs g (List.mem_of_getElem? hg)
    have hlength := Registry.length_schema_of_resolve hr
    refine ⟨rfl, ?_⟩
    change g.registry.schema.length = _
    rw [← hschema]
    exact hlength

theorem two_samples_fit :
    let text := "[general]\ncapacity = 2\n[counters]\nenabled = []"
    let schema : Schema := [⟨"ts", none⟩, ⟨"intv", none⟩, ⟨"oh", none⟩]
    let ops : List Op := [.push [1, 2, 3], .push [4, 5, 6], .push [7, 8, 9], .drain 4096, .last]
    ∃ s, Settings.parse text = .ok s ∧ s.capacity * schema.width < 2 ^ 64 ∧
      (History.new schema s.capacity).ring.data.size = 6 ∧
      (History.new schema s.capacity).ring.Roomy ∧
      performAllWithin? ops (History.new schema s.capacity) {} =
        some (performAll ops (History.new schema s.capacity) {}) := by
  intro text schema ops
  have hs : Settings.parse text = .ok ({ capacity := 2, enabled := [] } : Settings) :=
    Settings.ok_of_toOption (by decide +kernel)
  have hfit : 2 * schema.width < 2 ^ 64 := by decide
  obtain ⟨hall, -⟩ := capacity_fits_iff hs
  obtain ⟨-, -, hsize, hroomy, hwithin, -⟩ := hall schema
  exact ⟨_, hs, hfit, hsize.mpr hfit, hroomy.mpr hfit, hwithin hfit ops {}⟩

/-- A capacity is accepted whose words come to 2 modulo 64 bits. The plane is built, and its first
sample falls outside the array. -/
theorem first_sample_outside :
    let text := "[general]\ncapacity = 6148914691236517206\n[counters]\nenabled = []"
    ∃ s p n, Settings.parse text = .ok s ∧ s.capacity = 6148914691236517206 ∧
      (Engine.build Provider.all s (.ok [0]) (.ok []) 0 {}).1 = .ok p ∧ p.nodes[0]? = some n ∧
      n.history.schema.width = 3 ∧ n.history.ring.data.size = 2 ∧
      n.history.ring.data.size ≠ s.capacity * n.history.schema.width ∧
      ¬ n.history.ring.start 0 + n.history.ring.width ≤ n.history.ring.data.size ∧
      performAllWithin? [.push [0, 0, 0]] n.history {} = none := by
  intro text
  let s : Settings := { capacity := 6148914691236517206, enabled := [] }
  have hs : Settings.parse text = .ok s := Settings.ok_of_toOption (by decide +kernel)
  have hrun : ((Engine.build Provider.all s (.ok [0]) (.ok []) 0 {}).1.toOption.bind fun p =>
      p.nodes[0]?.map fun n =>
        (n.history.schema.width, n.history.ring.width, n.history.ring.data.size,
          (performAllWithin? [.push [0, 0, 0]] n.history {}).isNone)) =
      some (3, 3, 2, true) := by decide +kernel
  obtain ⟨p, hp, hnode⟩ := Option.bind_eq_some_iff.mp hrun
  obtain ⟨n, hn, hshown⟩ := Option.map_eq_some_iff.mp hnode
  simp only [Prod.mk.injEq, Option.isNone_iff_eq_none] at hshown
  obtain ⟨hschema, hwidth, hsize, hpush⟩ := hshown
  refine ⟨s, p, n, hs, rfl, Settings.ok_of_toOption hp, hn, hschema, hsize, ?_, ?_, hpush⟩
  · rw [hsize, hschema]
    decide
  · rw [Ring.start, hwidth, hsize]
    decide

end Settings

end NodeTelemetry
