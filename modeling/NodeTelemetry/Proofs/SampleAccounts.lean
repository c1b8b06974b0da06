import Mathlib
import NodeTelemetry.Proofs.Traffic

namespace NodeTelemetry

open Log Node ControlPlane History Traffic

namespace Ledger

def total (count : Nat) (size : Ledger → Nat) (ledger : Nat → Ledger) : Nat :=
  ∑ i ∈ Finset.range count, size (ledger i)

theorem total_update {count i : Nat} (hi : i < count) (size : Ledger → Nat)
    (ledger : Nat → Ledger) (l : Ledger) :
    total count size (Function.update ledger i l) + size (ledger i) =
      total count size ledger + size l := by
  have hmem : i ∈ Finset.range count := Finset.mem_range.mpr hi
  have hrest : ∀ j ∈ (Finset.range count).erase i,
      size (Function.update ledger i l j) = size (ledger j) := by
    intro j hj
    rw [Function.update_of_ne (Finset.ne_of_mem_erase hj)]
  have hbefore := Finset.add_sum_erase (Finset.range count) (fun j => size (ledger j)) hmem
  have hafter := Finset.add_sum_erase (Finset.range count)
    (fun j => size (Function.update ledger i l j)) hmem
  rw [Finset.sum_congr rfl hrest, Function.update_self] at hafter
  rw [total, total]
  omega

end Ledger

structure Accounts (groups : List Group) (capacity : Nat) (start : Site) (trace : List Entry)
    (nodes : List Node) (site : Site) (ledger : Nat → Ledger) : Prop where
  placed : AllPlaced nodes
  ids : nodes.map Node.id = groups.map fun g => g.registry.node
  logged : Logged start.log site.log trace
  run : ∀ (i : Nat) (g : Group), groups[i]? = some g →
    Ledger.Run g.registry.schema (max capacity 1) (entriesAt trace i) (ledger i)
  represents : ∀ (i : Nat) (g : Group) (n : Node), groups[i]? = some g → nodes[i]? = some n →
    n.history.Represents g.registry.schema (max capacity 1) (Ledger.samples (ledger i).held)
  ticks : site.metrics.ticks =
    start.metrics.ticks + Ledger.total groups.length (·.pushed.length) ledger
  overwritten : site.metrics.overwritten =
    start.metrics.overwritten + Ledger.total groups.length (·.overwritten.length) ledger

variable {groups : List Group} {capacity : Nat} {start site site' : Site}
  {trace entries : List Entry} {nodes nodes' : List Node} {ledger : Nat → Ledger}

namespace Accounts

theorem length_eq (h : Accounts groups capacity start trace nodes site ledger) :
    nodes.length = groups.length := by
  have hids := congrArg List.length h.ids
  rwa [List.length_map, List.length_map] at hids

theorem idle (h : Accounts groups capacity start trace nodes site ledger)
    (hplaced : AllPlaced nodes') (hids : nodes'.map Node.id = nodes.map Node.id)
    (hh : nodes'.map Node.history = nodes.map Node.history)
    (hlogged : Logged site.log site'.log []) (htally : site'.tally = site.tally) :
    Accounts groups capacity start (trace ++ []) nodes' site' ledger where
  placed := hplaced
  ids := hids.trans h.ids
  logged := h.logged.trans hlogged
  run i g hg := by
    rw [List.append_nil]
    exact h.run i g hg
  represents i g n' hg hn' := by
    have hhistory : nodes[i]?.map Node.history = some n'.history := by
      rw [← List.getElem?_map, ← hh, List.getElem?_map, hn']
      rfl
    obtain ⟨n, hn, he⟩ := Option.map_eq_some_iff.mp hhistory
    rw [← he]
    exact h.represents i g n hg hn
  ticks := (congrArg Tally.ticks htally).trans h.ticks
  overwritten := (congrArg Tally.overwritten htally).trans h.overwritten

theorem act (h : Accounts groups capacity start trace nodes site ledger) {i : Nat} {n n' : Node}
    (op : Op) (hn : nodes[i]? = some n) (hh : n'.history = (History.act op n.history).2)
    (hplaced : AllPlaced (nodes.set i n')) (hids : (nodes.set i n').map Node.id = nodes.map Node.id)
    (hlogged : Logged site.log site'.log [(i, (op, (History.act op n.history).1))])
    (htally : site'.tally = site.tally.after op n.history) :
    ∃ ledger', Accounts groups capacity start
      (trace ++ [(i, (op, (History.act op n.history).1))]) (nodes.set i n') site' ledger' := by
  have hi : i < groups.length := by
    rw [← h.length_eq]
    exact (List.getElem?_eq_some_iff.mp hn).1
  have hg := List.getElem?_eq_getElem hi
  obtain ⟨l', hstep, hr, hlost⟩ := Ledger.act_step (h.represents i _ n hg hn) op
  have hpushed := hstep.length_pushed
  have hticks : site'.metrics.ticks = site.metrics.ticks + taken op :=
    congrArg Tally.ticks htally
  have hoverwritten : site'.metrics.overwritten = site.metrics.overwritten + lost op n.history :=
    congrArg Tally.overwritten htally
  refine ⟨Function.update ledger i l', hplaced, hids.trans h.ids, h.logged.trans hlogged, ?_, ?_, ?_,
    ?_⟩
  · intro j g hj
    rw [entriesAt_append]
    rcases eq_or_ne j i with rfl | hne
    · rw [hg] at hj
      cases hj
      rw [entriesAt_self, Function.update_self]
      exact (h.run j _ hg).snoc hstep
    · rw [entriesAt_of_ne hne, List.append_nil, Function.update_of_ne hne]
      exact h.run j g hj
  · intro j g m hj hm
    rcases eq_or_ne j i with rfl | hne
    · rw [hg] at hj
      cases hj
      rw [List.getElem?_set_self', hn] at hm
      cases hm
      rw [Function.update_self, Function.const_apply, hh]
      exact hr
    · rw [List.getElem?_set_ne hne.symm] at hm
      rw [Function.update_of_ne hne]
      exact h.represents j g m hj hm
  · have htotal := Ledger.total_update hi (·.pushed.length) ledger l'
    have hbefore := h.ticks
    omega
  · have htotal := Ledger.total_update hi (·.overwritten.length) ledger l'
    have hbefore := h.overwritten
    omega

theorem sound (h : Accounts groups capacity start trace nodes site ledger)
    (hs : Sound nodes site entries nodes' site') :
    ∃ ledger', Accounts groups capacity start (trace ++ entries) nodes' site' ledger' := by
  obtain ⟨hplaced, hids, hlogged, heffect⟩ := hs
  generalize htally : site'.tally = tally' at heffect
  cases heffect with
  | nothing hh => exact ⟨ledger, h.idle hplaced hids hh hlogged htally⟩
  | acts op hn hh => exact h.act op hn hh hplaced hids hlogged htally

theorem play {t : Traffic} (moves : List Move)
    (h : Accounts groups capacity start trace t.plane.nodes site ledger) :
    ∃ ledger', Accounts groups capacity start (trace ++ (Traffic.play moves t site).1.1)
      (Traffic.play moves t site).1.2.plane.nodes (Traffic.play moves t site).2 ledger' := by
  induction moves generalizing t site trace ledger with
  | nil =>
    refine ⟨ledger, ?_⟩
    change Accounts groups capacity start (trace ++ []) t.plane.nodes site ledger
    rwa [List.append_nil]
  | cons m moves ih =>
    obtain ⟨middle, hmiddle⟩ := h.sound (step_sound h.placed m site)
    obtain ⟨ledger', hledger'⟩ := ih hmiddle
    rw [List.append_assoc] at hledger'
    exact ⟨ledger', hledger'⟩

theorem new (hfit : ∀ g ∈ groups, max capacity 1 * g.registry.schema.width < 2 ^ 64) (pace : Pace)
    (limit : Nat) (site : Site) :
    Accounts groups capacity site [] (ControlPlane.new groups capacity pace limit).nodes site
      fun _ => {} where
  placed i n hn := by
    rw [new_node] at hn
    obtain ⟨g, -, rfl⟩ := Option.map_eq_some_iff.mp hn
    rintro s ⟨⟩
    rfl
  ids := by
    apply List.ext_getElem?
    intro i
    rw [List.getElem?_map, new_node, Option.map_map, List.getElem?_map]
    rfl
  logged i := (List.append_nil _).symm
  run i g hg := .nil
  represents i g n hg hn := by
    rw [new_node, hg] at hn
    cases hn
    exact represents_new g.registry.schema capacity (hfit g (List.mem_of_getElem? hg))
  ticks := by simp [Ledger.total]
  overwritten := by simp [Ledger.total]

end Accounts

theorem suffix_injective {m n : Node} (h : m.suffix = n.suffix) : m.id = n.id := by
  have hne (k : Nat) : toString k ≠ "" := by
    intro hk
    have hlength := @Nat.length_repr_pos k
    rw [show k.repr = "" from hk] at hlength
    exact absurd hlength (by decide)
  unfold suffix at h
  cases hm : m.id with
  | none =>
    cases hn : n.id with
    | none => rfl
    | some k =>
      rw [hm, hn] at h
      exact absurd h.symm (hne k)
  | some j =>
    cases hn : n.id with
    | none =>
      rw [hm, hn] at h
      exact absurd h (hne j)
    | some k =>
      rw [hm, hn] at h
      exact congrArg some (Nat.repr_inj.mp h)

theorem findIdx?_suffix (hids : (nodes.map Node.id).Nodup) {i : Nat} {n : Node}
    (hn : nodes[i]? = some n) :
    (nodes.findIdx? fun m => m.suffix.toList == n.suffix.toList) = some i := by
  obtain ⟨hi, rfl⟩ := List.getElem?_eq_some_iff.mp hn
  rw [List.findIdx?_eq_some_iff_getElem]
  refine ⟨hi, beq_self_eq_true _, ?_⟩
  intro j hj he
  have hsuffix : nodes[j].suffix = nodes[i].suffix := String.toList_injective (eq_of_beq he)
  have hid : (nodes.map Node.id)[j]? = (nodes.map Node.id)[i]? := by
    rw [List.getElem?_map, List.getElem?_map, hn, List.getElem?_eq_getElem (hj.trans hi)]
    exact congrArg some (suffix_injective hsuffix)
  have hlen : j < (nodes.map Node.id).length := by
    rw [List.length_map]
    exact hj.trans hi
  exact absurd ((List.getElem?_inj hlen hids).mp hid) hj.ne

theorem nodeAttribute?_head {bases : List (String × (Nat → Attribute))} {base : String}
    {ofNode : Nat → Attribute} (hids : (nodes.map Node.id).Nodup) {i : Nat} {n : Node}
    (hn : nodes[i]? = some n) :
    nodeAttribute? nodes (base ++ n.suffix) ((base, ofNode) :: bases) = some (ofNode i) := by
  have hrest : Text.afterPrefix? base.toList (base ++ n.suffix).toList = some n.suffix.toList :=
    Text.afterPrefix?_eq_some_iff.mpr String.toList_append
  simp only [nodeAttribute?, hrest, findIdx?_suffix hids hn, Option.map_some]

theorem nodeAttribute?_tail {bases : List (String × (Nat → Attribute))} {base other : String}
    {ofNode : Nat → Attribute} {suffix : String}
    (h : ∀ cs, Text.afterPrefix? other.toList (base.toList ++ cs) = none) :
    nodeAttribute? nodes (base ++ suffix) ((other, ofNode) :: bases) =
      nodeAttribute? nodes (base ++ suffix) bases := by
  simp only [nodeAttribute?, String.toList_append, h]

theorem attribute?_of_distinct {p : ControlPlane} (hids : (p.nodes.map Node.id).Nodup) {i : Nat}
    {n : Node} (hn : p.nodes[i]? = some n) :
    ∀ entry ∈ perNode, p.attribute? (entry.1 ++ n.suffix) = some (entry.2 i) := by
  have hne {base word : String} (h : ¬ base.toList <+: word.toList) : base ++ n.suffix ≠ word := by
    rintro rfl
    exact h ⟨n.suffix.toList, String.toList_append.symm⟩
  intro entry hentry
  simp only [perNode, List.mem_cons, List.not_mem_nil, or_false] at hentry
  rcases hentry with rfl | rfl | rfl
  · rw [attribute?, if_neg (hne (by decide)), if_neg (hne (by decide))]
    exact nodeAttribute?_head hids hn
  · rw [attribute?, if_neg (hne (by decide)), if_neg (hne (by decide)), perNode,
      nodeAttribute?_tail fun _ => rfl]
    exact nodeAttribute?_head hids hn
  · rw [attribute?, if_neg (hne (by decide)), if_neg (hne (by decide)), perNode,
      nodeAttribute?_tail fun _ => rfl, nodeAttribute?_tail fun _ => rfl]
    exact nodeAttribute?_head hids hn

structure Accounted (schema : Schema) (capacity : Nat) (entries : List (Op × String)) (l : Ledger)
    (n : Node) : Prop where
  run : Ledger.Run schema capacity entries l
  pushed : l.pushed = (Ledger.pushes entries).map (Ring.fit schema.width)
  balanced : l.Balanced
  held : Ledger.samples l.held = n.history.toList
  readText : Ledger.readText entries = Ledger.renderAll schema l.returned

theorem Accounts.accounted (h : Accounts groups capacity start trace nodes site ledger) {i : Nat}
    {g : Group} {n : Node} (hg : groups[i]? = some g) (hn : nodes[i]? = some n) :
    Accounted g.registry.schema (max capacity 1) (entriesAt trace i) (ledger i) n where
  run := h.run i g hg
  pushed := (h.run i g hg).pushed_eq
  balanced := (h.run i g hg).balanced
  held := (h.represents i g n hg hn).holds.toList_eq.symm
  readText := (h.run i g hg).readText_eq

theorem every_sample_is_accounted_for (groups : List Group) (capacity : Nat)
    (hids : (groups.map fun g => g.registry.node).Nodup)
    (hfit : ∀ g ∈ groups, max capacity 1 * g.registry.schema.width < 2 ^ 64) (pace : Pace)
    (limit : Nat) (moves : List Move) (start : Site) :
    let done := Traffic.play moves { plane := ControlPlane.new groups capacity pace limit } start
    ∃ ledger : Nat → Ledger,
      (∀ (i : Nat) (g : Group), groups[i]? = some g →
        ∃ n, done.1.2.plane.nodes[i]? = some n ∧
          (∀ entry ∈ perNode, done.1.2.plane.attribute? (entry.1 ++ n.suffix) = some (entry.2 i)) ∧
          Accounted g.registry.schema (max capacity 1) (entriesAt done.1.1 i) (ledger i) n) ∧
      Logged start.log done.2.log done.1.1 ∧
      done.2.metrics.ticks =
        start.metrics.ticks + Ledger.total groups.length (·.pushed.length) ledger ∧
      done.2.metrics.overwritten =
        start.metrics.overwritten + Ledger.total groups.length (·.overwritten.length) ledger := by
  intro done
  let t : Traffic := { plane := ControlPlane.new groups capacity pace limit }
  have hnew : Accounts groups capacity start [] t.plane.nodes start fun _ => {} :=
    Accounts.new hfit pace limit start
  obtain ⟨ledger, h⟩ := hnew.play moves
  refine ⟨ledger, ?_, h.logged, h.ticks, h.overwritten⟩
  intro i g hg
  have hlt : i < done.1.2.plane.nodes.length := by
    rw [h.length_eq]
    exact (List.getElem?_eq_some_iff.mp hg).1
  have hn := List.getElem?_eq_getElem hlt
  refine ⟨_, hn, attribute?_of_distinct ?_ hn, h.accounted hg hn⟩
  rw [h.ids]
  exact hids

theorem two_nodes_are_accounted_for :
    let schema : Schema := [⟨"ts", none⟩, ⟨"intv", none⟩]
    let slots : List Slot := [⟨.timing .timestamp, 0⟩, ⟨.timing .interval, 0⟩]
    let group (k : Nat) : Group := ⟨{ slots, schema, tracer := { clock := 0 }, node := some k }, none⟩
    let groups := [group 0, group 1]
    let tick (i : Nat) : List Move := [.thread (.step i), .thread (.step i)]
    let moves := [.write "ctrl" "on", .proceed, .proceed, .proceed] ++ tick 0 ++ tick 1 ++ tick 0 ++
      tick 0 ++ [.read "stat0", .write "clear1" "1"]
    let start : Site := { clocks := #[{ now := 5, step := 7 }] }
    let done := Traffic.play moves { plane := ControlPlane.new groups 1 ⟨100, 0⟩ 4096 } start
    (groups.map fun g => g.registry.node).Nodup ∧
      (∀ g ∈ groups, max 1 1 * g.registry.schema.width < 2 ^ 64) ∧
      done.1.1.map Prod.fst = [0, 1, 0, 0, 1] ∧
      ∃ ledger : Nat → Ledger,
        (∀ (i : Nat) (g : Group), groups[i]? = some g →
          ∃ n, done.1.2.plane.nodes[i]? = some n ∧
            (∀ entry ∈ perNode,
              done.1.2.plane.attribute? (entry.1 ++ n.suffix) = some (entry.2 i)) ∧
            Accounted g.registry.schema (max 1 1) (entriesAt done.1.1 i) (ledger i) n) ∧
        Logged start.log done.2.log done.1.1 ∧
        done.2.metrics.ticks =
          start.metrics.ticks + Ledger.total groups.length (·.pushed.length) ledger ∧
        done.2.metrics.overwritten =
          start.metrics.overwritten + Ledger.total groups.length (·.overwritten.length) ledger := by
  refine ⟨by decide, by decide, by decide +kernel, ?_⟩
  exact every_sample_is_accounted_for _ 1 (by decide) (by decide) ⟨100, 0⟩ 4096 _ _

end NodeTelemetry
