import Mathlib
import NodeTelemetry.Proofs.CounterNames
import NodeTelemetry.Proofs.Traversals
import NodeTelemetry.Topology

namespace NodeTelemetry

namespace CpuList

theorem eraseReps_loop (a : Nat) (ns acc : List Nat) :
    List.eraseRepsBy.loop (· == ·) a ns acc =
      acc.reverse ++ List.eraseRepsBy.loop (· == ·) a ns [] := by
  induction ns generalizing a acc with
  | nil => simp [List.eraseRepsBy.loop]
  | cons b ns ih =>
    by_cases hab : a = b
    · simp only [List.eraseRepsBy.loop, hab, beq_self_eq_true]
      exact ih b acc
    · simp only [List.eraseRepsBy.loop, beq_eq_false_iff_ne.mpr hab]
      rw [ih b (a :: acc), ih b [a]]
      simp

theorem eraseReps_cons_cons (a b : Nat) (ns : List Nat) :
    (a :: b :: ns).eraseReps =
      if a = b then (b :: ns).eraseReps else a :: (b :: ns).eraseReps := by
  change List.eraseRepsBy.loop (· == ·) a (b :: ns) [] = _
  by_cases hab : a = b
  · rw [if_pos hab, hab]
    simp only [List.eraseRepsBy.loop, beq_self_eq_true]
    rfl
  · rw [if_neg hab]
    simp only [List.eraseRepsBy.loop, beq_eq_false_iff_ne.mpr hab]
    exact eraseReps_loop b ns [a]

theorem eraseReps_of_sorted : ∀ {ns : List Nat}, ns.Pairwise (· ≤ ·) →
    ns.eraseReps.Pairwise (· < ·) ∧ ∀ n, n ∈ ns.eraseReps ↔ n ∈ ns
  | [], _ => ⟨.nil, fun _ => Iff.rfl⟩
  | [a], _ => ⟨List.pairwise_singleton _ a, fun _ => Iff.rfl⟩
  | a :: b :: ns, h => by
    obtain ⟨hfirst, hrest⟩ := List.pairwise_cons.mp h
    obtain ⟨hsorted, hmem⟩ := eraseReps_of_sorted hrest
    rw [eraseReps_cons_cons]
    by_cases hab : a = b
    · rw [if_pos hab]
      refine ⟨hsorted, ?_⟩
      intro n
      rw [hmem, hab]
      simp
    · rw [if_neg hab]
      constructor
      · apply List.pairwise_cons.mpr
        refine ⟨?_, hsorted⟩
        intro n hn
        have hle : a ≤ b := hfirst b List.mem_cons_self
        rcases List.mem_cons.mp ((hmem n).mp hn) with rfl | hn
        · omega
        · have hnext : b ≤ n := List.rel_of_pairwise_cons hrest hn
          omega
      · intro n
        rw [List.mem_cons, hmem, List.mem_cons (a := n) (b := a)]

theorem normalize_sorted (ns : List Nat) :
    (normalize ns).Pairwise (· < ·) ∧ ∀ n, n ∈ normalize ns ↔ n ∈ ns := by
  have hsort : ns.mergeSort.Pairwise (· ≤ ·) := List.pairwise_mergeSort' (· ≤ ·) ns
  obtain ⟨hsorted, hmem⟩ := eraseReps_of_sorted hsort
  refine ⟨hsorted, ?_⟩
  intro n
  exact (hmem n).trans (List.mergeSort_perm ns _).mem_iff

theorem sorted_of_parse? {list : String} {cpus : List Nat} (h : parse? list = some cpus) :
    cpus.Pairwise (· < ·) := by
  obtain ⟨ns, -, rfl⟩ := parse_eq_ok_iff.mp (parse?_eq_some_iff.mp h)
  exact (normalize_sorted ns).1

end CpuList

theorem Keyed.find?_eq_some_iff {α β : Type} [DecidableEq α] {m : Keyed α β} {k : α} {v : β}
    (h : (m.map Prod.fst).Nodup) : m.find? k = some v ↔ (k, v) ∈ m := by
  induction m with
  | nil => simp [find?]
  | cons entry m ih =>
    rw [List.map_cons, List.nodup_cons] at h
    rw [find?, List.mem_cons]
    by_cases hk : entry.1 = k
    · have hother : (k, v) ∉ m := by
        intro hmem
        apply h.1
        rw [hk]
        exact List.mem_map_of_mem hmem
      rw [if_pos hk, or_iff_left hother, Option.some.injEq, Prod.ext_iff]
      exact ⟨fun hv => ⟨hk.symm, hv.symm⟩, fun he => he.2.symm⟩
    · have hself : (k, v) ≠ entry := by
        rintro rfl
        exact hk rfl
      rw [if_neg hk, ih h.2, or_iff_right hself]

namespace FileTree

/-- The same files, but the entries of a directory may come in another order. -/
structure Relists (t t' : FileTree) : Prop where
  entry?_eq : ∀ place, t'.entry? place = t.entry? place
  names_perm : ∀ place, (t'.names place).Perm (t.names place)

variable {t t' : FileTree}

theorem relists_of_perm (h : t'.entries.Perm t.entries) (hkeys : (t.entries.map Prod.fst).Nodup) :
    t.Relists t' := by
  constructor
  · intro place
    have hkeys' : (t'.entries.map Prod.fst).Nodup := (h.map Prod.fst).nodup_iff.mpr hkeys
    have hfind : t'.entries.find? place = t.entries.find? place := by
      apply Option.ext
      intro e
      rw [Keyed.find?_eq_some_iff hkeys', Keyed.find?_eq_some_iff hkeys, h.mem_iff]
    unfold entry?
    rw [hfind]
  · intro place
    exact h.filterMap _

theorem Relists.follow_eq (h : t.Relists t') (links : Nat) (place names : List String) :
    t'.follow links place names = t.follow links place names := by
  fun_induction FileTree.follow t links place names <;> rw [follow] <;> simp_all [h.entry?_eq]

theorem Relists.place_eq (h : t.Relists t') (directory : List String) (path : String) :
    t'.place directory path = t.place directory path := by
  simp only [place, h.follow_eq]

theorem Relists.find_eq (h : t.Relists t') (directory : List String) (path : String) :
    t'.find directory path = t.find directory path := by
  simp only [find, h.place_eq, h.entry?_eq]

def descends (t : FileTree) (place : List String) : List String → Bool
  | [] => true
  | name :: names =>
    t.entry? place = some .directory && name ∉ ["", ".", ".."] && name.utf8ByteSize ≤ maxName &&
      (t.entry? (place ++ [name])).any (fun e => e matches .directory | .file _) &&
      t.descends (place ++ [name]) names

theorem follow_of_descends {place names : List String} (h : t.descends place names) (links : Nat) :
    t.follow links place names = .ok (place ++ names) := by
  induction names generalizing place with
  | nil =>
    rw [follow, List.append_nil]
  | cons name names ih =>
    simp only [descends, Bool.and_eq_true, decide_eq_true_eq] at h
    obtain ⟨⟨⟨⟨hdir, hname⟩, hlength⟩, hnext⟩, hrest⟩ := h
    have hthere := ih hrest
    rw [List.append_assoc] at hthere
    simp only [List.mem_cons, List.not_mem_nil, or_false, not_or] at hname
    rw [follow, if_neg (not_not.mpr hdir), if_neg (not_or.mpr ⟨hname.1, hname.2.1⟩),
      if_neg hname.2.2, if_neg (Nat.not_lt.mpr hlength)]
    cases he : t.entry? (place ++ [name]) with
    | none =>
      rw [he] at hnext
      cases hnext
    | some e =>
      rw [he] at hnext
      cases e with
      | directory => exact hthere
      | file content => exact hthere
      | link target => cases hnext

theorem place_of_descends {directory : List String} {path : String}
    (hpath : path.toList.contains '\x00' = false ∧ path ≠ "" ∧ path.utf8ByteSize ≤ maxPath ∧
      path.toList.head? ≠ some '/') (h : t.descends directory (parts path)) :
    t.place directory path = .ok (directory ++ parts path) := by
  obtain ⟨hnul, hempty, hlength, hrelative⟩ := hpath
  rw [place, hnul, if_neg Bool.false_ne_true, if_neg hempty, if_neg (Nat.not_lt.mpr hlength),
    origin, if_neg hrelative]
  exact follow_of_descends h maxLinks

theorem find_of_place {directory place : List String} {path : String} {content : List UInt8}
    (h : t.place directory path = .ok place) (he : t.entry? place = some (.file content)) :
    t.find directory path = .ok (.file content) := by
  rw [find, h]
  simp only [bind, Except.bind, he]
  rfl

end FileTree

namespace Topology

def node? (entry : NodeEntry) : Option NumaNode :=
  match nodeOf entry with
  | .ok n? => n?
  | .error _ => none

def sorted (ns : List NumaNode) : List NumaNode := ns.mergeSort fun a b => a.id ≤ b.id

variable {entries entries' : List NodeEntry} {ns ns' : List NumaNode}

theorem nodes_of_ok (h : ∀ entry ∈ entries, ∃ n?, nodeOf entry = .ok n?) :
    nodes entries = .ok (sorted (entries.filterMap node?)) := by
  have hfound : entries.mapM nodeOf = .ok (entries.map node?) := by
    apply mapM_of_ok
    intro entry hentry
    obtain ⟨n?, hn⟩ := h entry hentry
    rw [node?, hn]
  have hkept : (entries.map node?).filterMap id = entries.filterMap node? := by
    rw [List.filterMap_map]
    rfl
  rw [nodes, hfound, ← hkept]
  rfl

theorem nodes_of_error {entry : NodeEntry} {e : TopologyError} (hentry : entry ∈ entries)
    (h : nodeOf entry = .error e) : ∃ e, nodes entries = .error e := by
  obtain ⟨e, he⟩ := mapM_of_error hentry h
  refine ⟨e, ?_⟩
  rw [nodes, he]
  rfl

theorem pairwise_sorted (hids : (ns.map NumaNode.id).Nodup) :
    (sorted ns).Pairwise fun a b => a.id < b.id := by
  have hle : (sorted ns).Pairwise fun a b => a.id ≤ b.id :=
    List.pairwise_mergeSort' (fun a b : NumaNode => a.id ≤ b.id) ns
  have hsame : ((sorted ns).map NumaNode.id).Nodup :=
    ((List.mergeSort_perm ns _).map NumaNode.id).nodup_iff.mpr hids
  have hne : (sorted ns).Pairwise fun a b => a.id ≠ b.id := List.pairwise_map.mp hsame
  refine (hle.and hne).imp ?_
  rintro a b ⟨hab, hab'⟩
  exact lt_of_le_of_ne hab hab'

theorem sorted_eq_of_perm (hp : ns'.Perm ns) (hids : (ns.map NumaNode.id).Nodup) :
    sorted ns' = sorted ns := by
  have hids' : (ns'.map NumaNode.id).Nodup := (hp.map NumaNode.id).nodup_iff.mpr hids
  have hsorted : (sorted ns').Perm (sorted ns) :=
    ((List.mergeSort_perm ns' _).trans hp).trans (List.mergeSort_perm ns _).symm
  refine List.Perm.eq_of_pairwise ?_ (pairwise_sorted hids') (pairwise_sorted hids) hsorted
  intro a b _ _ hab hba
  omega

variable {t t' : FileTree} {directory place : List String} {name : String} {n : NumaNode}

def list? (t : FileTree) (directory : List String) (name : String) :
    Option (Except OsError String) :=
  match t.find directory ("node/" ++ name ++ "/cpulist") with
  | .error _ => none
  | .ok found => some found.text

theorem nodeEntry_cases (t : FileTree) (directory place : List String) (name : String) :
    (∃ cause, nodeEntry t directory place name = .broken cause) ∨
      nodeEntry t directory place name = .found name (list? t directory name) := by
  unfold nodeEntry list?
  cases t.place directory ("node/" ++ name) with
  | error e => exact .inl ⟨_, rfl⟩
  | ok target =>
    dsimp only
    split_ifs
    · exact .inl ⟨none, rfl⟩
    · right
      cases t.find directory ("node/" ++ name ++ "/cpulist") <;> rfl

theorem nodeEntry_found_iff :
    nodeEntry t directory place name = .found name (list? t directory name) ↔
      ∃ target, t.place directory ("node/" ++ name) = .ok target ∧
      ((∃ link, t.entry? (place ++ [name]) = some (.link link)) → target ≠ place) := by
  unfold nodeEntry list?
  cases hplace : t.place directory ("node/" ++ name) with
  | error e => simp
  | ok target =>
    dsimp only
    cases t.entry? (place ++ [name]) with
    | none => cases t.find directory ("node/" ++ name ++ "/cpulist") <;> simp
    | some e =>
      by_cases htarget : target = place <;> cases e <;>
        cases t.find directory ("node/" ++ name ++ "/cpulist") <;> simp [htarget]

inductive Stands (t : FileTree) (directory place : List String) (name : String) : NodeEntry → Prop
  | nowhere {e : OsError} (h : t.place directory ("node/" ++ name) = .error e) :
      Stands t directory place name (.broken (some e))
  | back {target : String} (h : t.place directory ("node/" ++ name) = .ok place)
      (hlink : t.entry? (place ++ [name]) = some (.link target)) :
      Stands t directory place name (.broken none)
  | found {there : List String} (h : t.place directory ("node/" ++ name) = .ok there)
      (hforth : ∀ target, t.entry? (place ++ [name]) = some (.link target) → there ≠ place) :
      Stands t directory place name (.found name (list? t directory name))

/-- What is documented of a walk that goes one level down and follows links. -/
structure Walk.Documented (walk : Walk) : Prop where
  no_place : ∀ {t directory e}, t.place directory "node" = .error e →
    walk t directory = .error (.notListed (some e))
  no_directory : ∀ {t directory place}, t.place directory "node" = .ok place →
    t.entry? place ≠ some .directory → walk t directory = .ok []
  lists : ∀ {t directory place}, t.place directory "node" = .ok place →
    t.entry? place = some .directory → ∃ entries, walk t directory = .ok entries ∧
      List.Forall₂ (Stands t directory place) (t.names place) entries

theorem stands_nodeEntry (t : FileTree) (directory place : List String) (name : String) :
    Stands t directory place name (nodeEntry t directory place name) := by
  cases hplace : t.place directory ("node/" ++ name) with
  | error e =>
    simp only [nodeEntry, hplace]
    exact .nowhere hplace
  | ok there =>
    by_cases hback : (∃ link, t.entry? (place ++ [name]) = some (.link link)) ∧ there = place
    · obtain ⟨⟨link, hlink⟩, rfl⟩ := hback
      have hbroken : nodeEntry t directory there name = .broken none := by
        simp [nodeEntry, hplace, hlink]
      rw [hbroken]
      exact .back hplace hlink
    · have hforth : ∀ link, t.entry? (place ++ [name]) = some (.link link) → there ≠ place :=
        fun link hlink heq => hback ⟨⟨link, hlink⟩, heq⟩
      rw [nodeEntry_found_iff.mpr ⟨there, hplace, fun ⟨link, hlink⟩ => hforth link hlink⟩]
      exact .found hplace hforth

theorem Stands.eq {entry : NodeEntry} (h : Stands t directory place name entry) :
    entry = nodeEntry t directory place name := by
  cases h with
  | nowhere h => simp only [nodeEntry, h]
  | back h hlink => simp [nodeEntry, h, hlink]
  | found h hforth =>
    exact (nodeEntry_found_iff.mpr ⟨_, h, fun ⟨target, hlink⟩ => hforth target hlink⟩).symm

theorem documented_nodeEntries : Walk.Documented nodeEntries where
  no_place h := by rw [nodeEntries, h]
  no_directory h hdir := by simp only [nodeEntries, h, if_neg hdir]
  lists {t directory place} h hdir := by
    refine ⟨(t.names place).map (nodeEntry t directory place), ?_, ?_⟩
    · simp only [nodeEntries, h, if_pos hdir]
    · rw [List.forall₂_map_right_iff, List.forall₂_same]
      exact fun name _ => stands_nodeEntry t directory place name

theorem Walk.Documented.eq {walk : Walk} (h : walk.Documented) : walk = nodeEntries := by
  funext t directory
  cases hplace : t.place directory "node" with
  | error e => rw [h.no_place hplace, documented_nodeEntries.no_place hplace]
  | ok place =>
    by_cases hdir : t.entry? place = some .directory
    · obtain ⟨entries, hwalk, hentries⟩ := h.lists hplace hdir
      have heq : entries = (t.names place).map (nodeEntry t directory place) := by
        rw [← List.forall₂_eq_eq_eq, List.forall₂_map_right_iff]
        exact (hentries.imp fun _ _ hstands => hstands.eq).flip
      simp only [hwalk, heq, nodeEntries, hplace, if_pos hdir]
    · rw [h.no_directory hplace hdir, documented_nodeEntries.no_directory hplace hdir]

theorem node?_found {list : Option (Except OsError String)} :
    node? (.found name list) = some n ↔
      nodeId? name = some n.id ∧ ∃ l, list = some l ∧ readList l = .ok n.cpus := by
  cases hid : nodeId? name with
  | none => simp [node?, nodeOf, hid, pure, Except.pure]
  | some id =>
    cases list with
    | none => simp [node?, nodeOf, hid, pure, Except.pure]
    | some l =>
      cases hl : readList l with
      | error e => simp [node?, nodeOf, hid, hl, bind, Except.bind]
      | ok cpus =>
        have hnode : node? (.found name (some l)) = some ⟨id, cpus⟩ := by
          simp [node?, nodeOf, hid, hl, bind, Except.bind, pure, Except.pure]
        rw [hnode]
        constructor
        · rintro ⟨⟩
          exact ⟨rfl, l, rfl, hl⟩
        · rintro ⟨hn, l', ⟨⟩, hcpus⟩
          rw [hl] at hcpus
          cases hn
          cases hcpus
          rfl

def Listed (t : FileTree) (directory : List String) (name : String) : Prop :=
  ∃ place, t.place directory "node" = .ok place ∧ t.entry? place = some .directory ∧
    name ∈ t.names place

structure Shows (t : FileTree) (directory : List String) (n : NumaNode) (name : String) : Prop where
  listed : Listed t directory name
  id_eq : nodeId? name = some n.id
  cpus_eq : ∃ found list, t.find directory ("node/" ++ name ++ "/cpulist") = .ok found ∧
    found.text = .ok list ∧ CpuList.parse? list = some n.cpus

theorem readList_eq_ok {l : Except OsError String} {cpus : List Nat} :
    readList l = .ok cpus ↔ ∃ list, l = .ok list ∧ CpuList.parse? list = some cpus := by
  cases l with
  | error e => simp [readList]
  | ok list => simp [readList, parseList_eq_ok_iff]

structure Sound (t : FileTree) (directory place : List String) (name : String) : Prop where
  leads : ∃ target, t.place directory ("node/" ++ name) = .ok target ∧
    ((∃ link, t.entry? (place ++ [name]) = some (.link link)) → target ≠ place)
  reads : ∀ id found, nodeId? name = some id →
    t.find directory ("node/" ++ name ++ "/cpulist") = .ok found →
      ∃ list cpus, found.text = .ok list ∧ CpuList.parse? list = some cpus

theorem nodeOf_found_iff {list : Option (Except OsError String)} :
    (∃ n?, nodeOf (.found name list) = .ok n?) ↔
      ∀ id l, nodeId? name = some id → list = some l → ∃ cpus, readList l = .ok cpus := by
  cases hid : nodeId? name with
  | none => simp [nodeOf, hid, pure, Except.pure]
  | some id =>
    cases list with
    | none => simp [nodeOf, hid, pure, Except.pure]
    | some l =>
      cases hl : readList l with
      | error e => simp [nodeOf, hid, hl, bind, Except.bind]
      | ok cpus => simp [nodeOf, hid, hl, bind, Except.bind, pure, Except.pure]

theorem list?_eq_some {l : Except OsError String} : list? t directory name = some l ↔
    ∃ found, t.find directory ("node/" ++ name ++ "/cpulist") = .ok found ∧ found.text = l := by
  unfold list?
  cases t.find directory ("node/" ++ name ++ "/cpulist") <;> simp

theorem sound_iff : (∃ n?, nodeOf (nodeEntry t directory place name) = .ok n?) ↔
    Sound t directory place name := by
  rcases nodeEntry_cases t directory place name with ⟨cause, he⟩ | he
  · rw [he]
    constructor
    · rintro ⟨n?, hn⟩
      cases hn
    · intro hsound
      rw [nodeEntry_found_iff.mpr hsound.leads] at he
      cases he
  · have hleads := nodeEntry_found_iff.mp he
    rw [he, nodeOf_found_iff]
    constructor
    · intro hok
      refine ⟨hleads, ?_⟩
      intro id found hid hfound
      obtain ⟨cpus, hcpus⟩ := hok id found.text hid (list?_eq_some.mpr ⟨found, hfound, rfl⟩)
      obtain ⟨list, htext, hparse⟩ := readList_eq_ok.mp hcpus
      exact ⟨list, cpus, htext, hparse⟩
    · intro hsound id l hid hl
      obtain ⟨found, hfound, rfl⟩ := list?_eq_some.mp hl
      obtain ⟨list, cpus, htext, hparse⟩ := hsound.reads id found hid hfound
      exact ⟨cpus, readList_eq_ok.mpr ⟨list, htext, hparse⟩⟩

def Readable (t : FileTree) (directory : List String) : Prop :=
  ∃ place, t.place directory "node" = .ok place ∧
    (t.entry? place = some .directory → ∀ name ∈ t.names place, Sound t directory place name)

theorem node?_nodeEntry (h : node? (nodeEntry t directory place name) = some n) :
    nodeId? name = some n.id ∧ ∃ found list,
      t.find directory ("node/" ++ name ++ "/cpulist") = .ok found ∧ found.text = .ok list ∧
        CpuList.parse? list = some n.cpus := by
  rcases nodeEntry_cases t directory place name with ⟨cause, he⟩ | he
  · rw [he] at h
    cases h
  · rw [he, node?_found] at h
    obtain ⟨hid, l, hl, hcpus⟩ := h
    obtain ⟨list, rfl, hparse⟩ := readList_eq_ok.mp hcpus
    obtain ⟨found, hfound, htext⟩ := list?_eq_some.mp hl
    exact ⟨hid, found, list, hfound, htext, hparse⟩

theorem sublist_filterMap {α β : Type} {f g : α → Option β} (h : ∀ x b, f x = some b → g x = some b)
    (xs : List α) : (xs.filterMap f).Sublist (xs.filterMap g) := by
  induction xs with
  | nil => exact .slnil
  | cons x xs ih =>
    cases hf : f x with
    | none =>
      rw [List.filterMap_cons_none hf, List.filterMap_cons]
      split
      · exact ih
      · exact ih.cons _
    | some b =>
      rw [List.filterMap_cons_some hf, List.filterMap_cons_some (h x b hf)]
      exact ih.cons_cons b

theorem ids_nodup (directory : List String)
    (hnumbers : ((t.names place).filterMap nodeId?).Nodup) :
    ((((t.names place).map (nodeEntry t directory place)).filterMap node?).map
      NumaNode.id).Nodup := by
  rw [List.filterMap_map, List.map_filterMap]
  refine hnumbers.sublist (sublist_filterMap ?_ _)
  intro name id h
  obtain ⟨n, hn, rfl⟩ := Option.map_eq_some_iff.mp h
  exact (node?_nodeEntry hn).1

theorem mem_nodes_iff (hplace : t.place directory "node" = .ok place)
    (hdir : t.entry? place = some .directory)
    (hok : ∀ entry ∈ (t.names place).map (nodeEntry t directory place), ∃ n?, nodeOf entry = .ok n?) :
    n ∈ sorted (((t.names place).map (nodeEntry t directory place)).filterMap node?) ↔
      ∃ name, Shows t directory n name := by
  have hmem : n ∈ sorted (((t.names place).map (nodeEntry t directory place)).filterMap node?) ↔
      ∃ name ∈ t.names place, node? (nodeEntry t directory place name) = some n := by
    rw [sorted, (List.mergeSort_perm _ _).mem_iff, List.mem_filterMap]
    simp only [List.mem_map, exists_exists_and_eq_and]
  rw [hmem]
  constructor
  · rintro ⟨name, hname, hn⟩
    obtain ⟨hid, hcpus⟩ := node?_nodeEntry hn
    exact ⟨name, ⟨place, hplace, hdir, hname⟩, hid, hcpus⟩
  · rintro ⟨name, ⟨place', hplace', -, hname⟩, hid, found, list, hfound, htext, hcpus⟩
    rw [hplace] at hplace'
    cases hplace'
    refine ⟨name, hname, ?_⟩
    obtain ⟨n?, hn⟩ := hok _ (List.mem_map_of_mem hname)
    rcases nodeEntry_cases t directory place name with ⟨cause, he⟩ | he
    · rw [he] at hn
      cases hn
    · rw [he, node?_found]
      exact ⟨hid, _, list?_eq_some.mpr ⟨found, hfound, htext⟩,
        readList_eq_ok.mpr ⟨list, rfl, hcpus⟩⟩

theorem numaNodes_of_place (hplace : t.place directory "node" = .ok place) :
    numaNodes t directory =
      if t.entry? place = some .directory then
        nodes ((t.names place).map (nodeEntry t directory place))
      else .ok [] := by
  rw [numaNodes, nodeEntries, hplace]
  dsimp only
  split
  · rfl
  · change nodes [] = .ok []
    rw [nodes_of_ok (by simp)]
    simp [sorted]

def NumbersApart (t : FileTree) (directory : List String) : Prop :=
  ∀ place, t.place directory "node" = .ok place → ((t.names place).filterMap nodeId?).Nodup

structure Numbered (t : FileTree) (directory : List String) (name : String) : Prop where
  listed : Listed t directory name
  isSome_id : (nodeId? name).isSome
  has_list : ∃ found, t.find directory ("node/" ++ name ++ "/cpulist") = .ok found

structure AreShown (t : FileTree) (directory : List String) (ns : List NumaNode) : Prop where
  ascending : ns.Pairwise fun a b => a.id < b.id
  one_entry : ∀ n ∈ ns, ∃! name, Shows t directory n name
  one_node : ∀ name, Numbered t directory name → ∃! n, n ∈ ns ∧ Shows t directory n name

theorem Shows.node_eq (h : Shows t directory n name) {n' : NumaNode}
    (h' : Shows t directory n' name) : n = n' := by
  obtain ⟨found, list, hfound, htext, hcpus⟩ := h.cpus_eq
  obtain ⟨found', list', hfound', htext', hcpus'⟩ := h'.cpus_eq
  have hid : n.id = n'.id := Option.some.inj (h.id_eq.symm.trans h'.id_eq)
  rw [hfound] at hfound'
  cases hfound'
  rw [htext] at htext'
  cases htext'
  rw [hcpus] at hcpus'
  cases n
  cases n'
  cases hcpus'
  cases hid
  rfl

theorem Shows.name_eq (h : Shows t directory n name) {name' : String}
    (h' : Shows t directory n name') (hnumbers : NumbersApart t directory) : name' = name := by
  obtain ⟨place, hplace, -, hname⟩ := h.listed
  obtain ⟨place', hplace', -, hname'⟩ := h'.listed
  rw [hplace] at hplace'
  cases hplace'
  have hapart : (t.names place).Pairwise fun a b =>
      ∀ id, nodeId? a = some id → nodeId? b ≠ some id := by
    refine (List.pairwise_filterMap.mp (hnumbers place hplace)).imp ?_
    intro a b hab id ha hb
    exact hab id ha id hb rfl
  have hsymm : Std.Symm fun a b => ∀ id, nodeId? a = some id → nodeId? b ≠ some id :=
    ⟨fun a b hab id hb ha => hab id ha hb⟩
  by_contra hne
  exact hapart.forall hname' hname hne n.id h'.id_eq h.id_eq

theorem Numbered.shows (h : Numbered t directory name) (hreadable : Readable t directory) :
    ∃ n, Shows t directory n name := by
  obtain ⟨place, hplace, hsound⟩ := hreadable
  obtain ⟨place', hplace', hdir, hname⟩ := h.listed
  rw [hplace] at hplace'
  cases hplace'
  obtain ⟨id, hid⟩ := Option.isSome_iff_exists.mp h.isSome_id
  obtain ⟨found, hfound⟩ := h.has_list
  obtain ⟨list, cpus, htext, hparse⟩ := (hsound hdir name hname).reads id found hid hfound
  exact ⟨⟨id, cpus⟩, h.listed, hid, found, list, hfound, htext, hparse⟩

theorem areShown_of_mem_iff (hnumbers : NumbersApart t directory)
    (hreadable : Readable t directory)
    (hsorted : ns.Pairwise fun a b => a.id < b.id)
    (hmem : ∀ n, n ∈ ns ↔ ∃ name, Shows t directory n name) : AreShown t directory ns := by
  refine ⟨hsorted, ?_, ?_⟩
  · intro n hn
    obtain ⟨name, hname⟩ := (hmem n).mp hn
    exact ⟨name, hname, fun name' hname' => hname.name_eq hname' hnumbers⟩
  · intro name hname
    obtain ⟨n, hn⟩ := hname.shows hreadable
    exact ⟨n, ⟨(hmem n).mpr ⟨name, hn⟩, hn⟩, fun n' hn' => hn'.2.node_eq hn⟩

theorem nodeEntry_of_relists (h : t.Relists t') : nodeEntry t' = nodeEntry t := by
  funext directory place name
  simp only [nodeEntry, h.place_eq, h.find_eq, h.entry?_eq]

theorem numaNodes_of_readable (h : t.Relists t') (hnumbers : NumbersApart t directory)
    (hreadable : Readable t directory) :
    ∃ ns, numaNodes t directory = .ok ns ∧ numaNodes t' directory = .ok ns ∧
      AreShown t directory ns := by
  obtain ⟨place, hplace, hsound⟩ := hreadable
  have hplace' : t'.place directory "node" = .ok place := by rw [h.place_eq, hplace]
  rw [numaNodes_of_place hplace, numaNodes_of_place hplace', h.entry?_eq, nodeEntry_of_relists h]
  by_cases hdir : t.entry? place = some .directory
  · -- Entries of the two listings are a permutation of each other, of which the sort shows nothing.
    have hperm := (h.names_perm place).map (nodeEntry t directory place)
    have hok : ∀ entry ∈ (t.names place).map (nodeEntry t directory place),
        ∃ n?, nodeOf entry = .ok n? := by
      intro entry hmem
      obtain ⟨name, hname, rfl⟩ := List.mem_map.mp hmem
      exact sound_iff.mpr (hsound hdir name hname)
    have hok' : ∀ entry ∈ (t'.names place).map (nodeEntry t directory place),
        ∃ n?, nodeOf entry = .ok n? := fun entry hmem => hok entry (hperm.mem_iff.mp hmem)
    have hids := ids_nodup directory (hnumbers place hplace)
    have hsame := sorted_eq_of_perm (hperm.filterMap node?) hids
    rw [if_pos hdir, if_pos hdir, nodes_of_ok hok, nodes_of_ok hok', hsame]
    refine ⟨_, rfl, rfl, ?_⟩
    apply areShown_of_mem_iff hnumbers ⟨place, hplace, hsound⟩ (pairwise_sorted hids)
    exact fun n => mem_nodes_iff hplace hdir hok
  · rw [if_neg hdir, if_neg hdir]
    refine ⟨[], rfl, rfl, areShown_of_mem_iff hnumbers ⟨place, hplace, hsound⟩ .nil ?_⟩
    intro n
    constructor
    · intro hmem
      cases hmem
    · rintro ⟨name, ⟨place', hplace', hdir', -⟩, -⟩
      rw [hplace] at hplace'
      cases hplace'
      exact absurd hdir' hdir

theorem numaNodes_of_unreadable (h : t.Relists t') (hunreadable : ¬ Readable t directory) :
    (∃ e, numaNodes t directory = .error e) ∧ ∃ e, numaNodes t' directory = .error e := by
  cases hplace : t.place directory "node" with
  | error e =>
    have hplace' : t'.place directory "node" = .error e := by rw [h.place_eq, hplace]
    rw [numaNodes, numaNodes, nodeEntries, nodeEntries, hplace, hplace']
    exact ⟨⟨_, rfl⟩, ⟨_, rfl⟩⟩
  | ok place =>
    have hplace' : t'.place directory "node" = .ok place := by rw [h.place_eq, hplace]
    simp only [Readable, hplace, Except.ok.injEq, exists_eq_left', not_forall] at hunreadable
    obtain ⟨hdir, name, hname, hbad⟩ := hunreadable
    rw [← sound_iff] at hbad
    have hname' : name ∈ t'.names place := (h.names_perm place).mem_iff.mpr hname
    rw [numaNodes_of_place hplace, numaNodes_of_place hplace', h.entry?_eq,
      nodeEntry_of_relists h, if_pos hdir, if_pos hdir]
    cases hn : nodeOf (nodeEntry t directory place name) with
    | ok n? => exact absurd ⟨n?, hn⟩ hbad
    | error e =>
      exact ⟨nodes_of_error (List.mem_map_of_mem hname) hn,
        nodes_of_error (List.mem_map_of_mem hname') hn⟩

end Topology

end NodeTelemetry
