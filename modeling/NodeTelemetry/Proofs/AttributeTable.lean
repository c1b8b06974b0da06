import Mathlib
import NodeTelemetry.Proofs.SampleAccounts

namespace NodeTelemetry

namespace ControlPlane

def table (p : ControlPlane) : List (String × Attribute) :=
  [("ctrl", .power), ("period", .period)] ++
    (p.nodes.mapIdx fun i n => perNode.map fun entry => (entry.1 ++ n.suffix, entry.2 i)).flatten

variable {p : ControlPlane} {nodes : List Node} {name : String} {a : Attribute} {i : Nat} {n : Node}

theorem mem_perNode {entry : String × (Nat → Attribute)} : entry ∈ perNode ↔
    entry = ("clear", .clear) ∨ entry = ("stat", .history) ∨ entry = ("last", .last) := by
  simp only [perNode, List.mem_cons, List.not_mem_nil, or_false]

theorem names_table (p : ControlPlane) : p.table.map Prod.fst = p.attributes := by
  have hrows : (p.nodes.mapIdx fun i n => perNode.map fun entry =>
      (entry.1 ++ n.suffix, entry.2 i)).map (List.map Prod.fst) =
      p.nodes.map fun n => perNode.map fun entry => entry.1 ++ n.suffix := by
    apply List.ext_getElem?
    intro i
    rw [List.getElem?_map, List.getElem?_mapIdx, List.getElem?_map, Option.map_map]
    rfl
  rw [table, attributes, List.map_append, List.map_flatten, hrows, ← List.flatMap_def]
  rfl

theorem mem_table : (name, a) ∈ p.table ↔
    name = "ctrl" ∧ a = .power ∨ name = "period" ∧ a = .period ∨
      ∃ i n, p.nodes[i]? = some n ∧ ∃ entry ∈ perNode, name = entry.1 ++ n.suffix ∧ a = entry.2 i := by
  have hnode : (name, a) ∈ (p.nodes.mapIdx fun i n =>
      perNode.map fun entry => (entry.1 ++ n.suffix, entry.2 i)).flatten ↔
      ∃ i n, p.nodes[i]? = some n ∧
        ∃ entry ∈ perNode, name = entry.1 ++ n.suffix ∧ a = entry.2 i := by
    simp only [List.mem_flatten, List.mem_mapIdx, List.getElem?_eq_some_iff]
    constructor
    · rintro ⟨row, ⟨i, hi, rfl⟩, hmem⟩
      obtain ⟨entry, hentry, he⟩ := List.mem_map.mp hmem
      obtain ⟨rfl, rfl⟩ := Prod.mk.inj he
      exact ⟨i, p.nodes[i], ⟨hi, rfl⟩, entry, hentry, rfl, rfl⟩
    · rintro ⟨i, n, ⟨hi, rfl⟩, entry, hentry, rfl, rfl⟩
      exact ⟨_, ⟨i, hi, rfl⟩, List.mem_map.mpr ⟨entry, hentry, rfl⟩⟩
  rw [table, List.mem_append, hnode]
  simp [or_assoc]

theorem mem_of_nodeAttribute? {bases : List (String × (Nat → Attribute))}
    (h : nodeAttribute? nodes name bases = some a) :
    ∃ i n, nodes[i]? = some n ∧ ∃ entry ∈ bases, name = entry.1 ++ n.suffix ∧ a = entry.2 i := by
  induction bases with
  | nil => cases h
  | cons entry bases ih =>
    obtain ⟨base, ofNode⟩ := entry
    cases hrest : Text.afterPrefix? base.toList name.toList with
    | none =>
      simp only [nodeAttribute?, hrest] at h
      obtain ⟨i, n, hn, entry, hentry, he⟩ := ih h
      exact ⟨i, n, hn, entry, List.mem_cons_of_mem _ hentry, he⟩
    | some suffix =>
      simp only [nodeAttribute?, hrest] at h
      obtain ⟨i, hi, rfl⟩ := Option.map_eq_some_iff.mp h
      obtain ⟨hlt, hsuffix, -⟩ := List.findIdx?_eq_some_iff_getElem.mp hi
      refine ⟨i, nodes[i], List.getElem?_eq_getElem hlt, _, List.mem_cons_self, ?_, rfl⟩
      apply String.toList_injective
      rw [String.toList_append, eq_of_beq hsuffix]
      exact Text.afterPrefix?_eq_some_iff.mp hrest

theorem attribute?_eq_some_iff (hids : (p.nodes.map Node.id).Nodup) :
    p.attribute? name = some a ↔ (name, a) ∈ p.table := by
  rw [mem_table]
  constructor
  · intro h
    unfold attribute? at h
    split_ifs at h with hctrl hperiod
    · exact .inl ⟨hctrl, (Option.some.inj h).symm⟩
    · exact .inr (.inl ⟨hperiod, (Option.some.inj h).symm⟩)
    · exact .inr (.inr (mem_of_nodeAttribute? h))
  · rintro (⟨rfl, rfl⟩ | ⟨rfl, rfl⟩ | ⟨i, n, hn, entry, hentry, rfl, rfl⟩)
    · rfl
    · rfl
    · exact attribute?_of_distinct hids hn entry hentry

theorem isSome_attribute?_iff (hids : (p.nodes.map Node.id).Nodup) :
    (p.attribute? name).isSome ↔ name ∈ p.attributes := by
  rw [← names_table, Option.isSome_iff_exists]
  simp only [attribute?_eq_some_iff hids, List.mem_map, Prod.exists, exists_and_right, exists_eq_right]

theorem attribute?_eq_none_iff (hids : (p.nodes.map Node.id).Nodup) :
    p.attribute? name = none ↔ name ∉ p.attributes := by
  rw [← isSome_attribute?_iff hids, Option.not_isSome_iff_eq_none]

theorem attributes_of_table_nodup (p : ControlPlane) : (p.table.map Prod.snd).Nodup := by
  have hrows : (p.nodes.mapIdx fun i n => perNode.map fun entry =>
      (entry.1 ++ n.suffix, entry.2 i)).map (List.map Prod.snd) =
      p.nodes.mapIdx fun i _ => [.clear i, .history i, .last i] := by
    apply List.ext_getElem?
    intro i
    rw [List.getElem?_map, List.getElem?_mapIdx, List.getElem?_mapIdx, Option.map_map]
    rfl
  rw [table, List.map_append, List.map_flatten, hrows, List.nodup_append', List.nodup_flatten]
  refine ⟨by decide, ⟨?_, ?_⟩, ?_⟩
  · intro row hrow
    obtain ⟨i, -, rfl⟩ := List.mem_mapIdx.mp hrow
    simp
  · rw [List.pairwise_iff_getElem]
    intro i j hi hj hlt
    rw [List.getElem_mapIdx, List.getElem_mapIdx]
    have hne : i ≠ j := hlt.ne
    simp [List.Disjoint, hne]
  · intro a ha hmem
    obtain ⟨row, hrow, hmem⟩ := List.mem_flatten.mp hmem
    obtain ⟨i, -, rfl⟩ := List.mem_mapIdx.mp hrow
    simp only [List.map_cons, List.map_nil, List.mem_cons, List.not_mem_nil, or_false] at ha hmem
    rcases ha with rfl | rfl <;> simp at hmem

theorem attributes_nodup (hids : (p.nodes.map Node.id).Nodup) : p.attributes.Nodup := by
  rw [← names_table]
  -- A name that stood twice would be looked up as two attributes, as each of these stands once.
  refine (List.Nodup.of_map Prod.snd p.attributes_of_table_nodup).map_on ?_
  rintro ⟨name, a⟩ ha ⟨name', b⟩ hb (rfl : name = name')
  have hname := (attribute?_eq_some_iff hids).mpr ha
  rw [(attribute?_eq_some_iff hids).mpr hb] at hname
  rw [Option.some.inj hname]

section

variable (hids : (p.nodes.map Node.id).Nodup)

include hids

theorem attribute?_ofNode_iff (entry : String × (Nat → Attribute)) (hentry : entry ∈ perNode) :
    p.attribute? name = some (entry.2 i) ↔ ∃ n, p.nodes[i]? = some n ∧ name = entry.1 ++ n.suffix := by
  rw [attribute?_eq_some_iff hids, mem_table]
  constructor
  · rintro (⟨-, h⟩ | ⟨-, h⟩ | ⟨j, n, hn, other, hother, rfl, h⟩)
    · rcases mem_perNode.mp hentry with rfl | rfl | rfl <;> cases h
    · rcases mem_perNode.mp hentry with rfl | rfl | rfl <;> cases h
    · rcases mem_perNode.mp hentry with rfl | rfl | rfl <;>
        rcases mem_perNode.mp hother with rfl | rfl | rfl <;> cases h <;>
          exact ⟨n, hn, rfl⟩
  · rintro ⟨n, hn, rfl⟩
    exact .inr (.inr ⟨i, n, hn, entry, hentry, rfl, rfl⟩)

theorem attribute?_clear_iff :
    p.attribute? name = some (.clear i) ↔ ∃ n, p.nodes[i]? = some n ∧ name = "clear" ++ n.suffix :=
  attribute?_ofNode_iff hids ("clear", .clear) (mem_perNode.mpr (.inl rfl))

theorem attribute?_history_iff :
    p.attribute? name = some (.history i) ↔ ∃ n, p.nodes[i]? = some n ∧ name = "stat" ++ n.suffix :=
  attribute?_ofNode_iff hids ("stat", .history) (mem_perNode.mpr (.inr (.inl rfl)))

theorem attribute?_last_iff :
    p.attribute? name = some (.last i) ↔ ∃ n, p.nodes[i]? = some n ∧ name = "last" ++ n.suffix :=
  attribute?_ofNode_iff hids ("last", .last) (mem_perNode.mpr (.inr (.inr rfl)))

end

end ControlPlane

end NodeTelemetry
