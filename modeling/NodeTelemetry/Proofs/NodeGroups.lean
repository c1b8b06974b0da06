import Mathlib
import NodeTelemetry.Proofs.EngineHistories
import NodeTelemetry.Proofs.ListingOrder

namespace NodeTelemetry

open Registry

theorem ControlPlane.nodeAt_of_place {g : Group} {i : Nat} (h : g.registry.place = i)
    (capacity : Nat) : nodeAt capacity i g = Node.ofGroup capacity g := by
  subst h
  rfl

namespace Engine

variable {supply : Supply} {clock : Nat} {scopes : List Scope} {g : Group}

theorem groups_cases (supply : Supply) (clock : Nat) (scopes : List Scope) (site : Site) :
    let grouped := groups supply clock [] scopes site
    (∃ gs, grouped.1 = .ok gs ∧ AreGroups supply 0 scopes gs) ∨
    ∃ scope ∈ scopes, ∃ e, grouped.1 = .error (.registry scope.node e) ∧
      ((supply scope.cpus >>= Registry.new { clock }) = .error e ∨
        ∃ i name, (i, .call name (.init false)) ∈ grouped.2.log) := by
  intro grouped
  rcases groups_spec supply clock scopes site (.nil 0) with ⟨gs, hok, hgs, -⟩ |
    ⟨before, scope, after, e, ds, -, rfl, herror, href, -, hlog⟩
  · exact .inl ⟨gs, hok, hgs⟩
  · refine .inr ⟨scope, List.mem_append_right _ List.mem_cons_self, e, herror, ?_⟩
    cases href with
    | unsupplied he => exact .inl he
    | @notInitialized taken rest name cause hsplit hnodup =>
      -- The failure stands between what has been taken on before it and what is let go after it.
      have hmem : (([] : List Scope).length + before.length, Deed.call name (.init false)) ∈
          grouped.2.log.reverse := by
        rw [hlog]
        apply List.mem_append_left
        apply List.mem_append_right
        apply List.mem_map_of_mem
        rw [initFailure]
        exact List.mem_append_right _ List.mem_cons_self
      exact .inr ⟨_, name, List.mem_reverse.mp hmem⟩

def busy (ns : List NumaNode) : List NumaNode := ns.filter (!·.cpus.isEmpty)

variable {s : Settings} {online : Except TopologyError (List Nat)} {ns : List NumaNode}

theorem busy_eq_nil_iff : busy ns = [] ↔ ∀ n ∈ ns, n.cpus = [] := by
  simp [busy, List.filter_eq_nil_iff]

def scopeOf (n : NumaNode) : Scope := ⟨some n.id, n.cpus⟩

theorem scopesOf_perNode (hmode : s.mode = .perNode) (online : Except TopologyError (List Nat))
    (ns : List NumaNode) : scopesOf s.mode online (.ok ns) =
      if busy ns = [] then .error .noNodes else .ok ((busy ns).map scopeOf) := by
  rw [hmode]
  cases hbusy : busy ns with
  | nil =>
    unfold busy at hbusy
    simp only [scopesOf, Except.mapError, bind, Except.bind, hbusy]
    rfl
  | cons n rest =>
    unfold busy at hbusy
    simp only [scopesOf, Except.mapError, bind, Except.bind, hbusy]
    rfl

structure Awaits (providers : List Provider) (s : Settings) (clock place : Nat) (n : NumaNode)
    (node : Node) (r : Registry) (pin : Nat) : Prop where
  node_eq : node = {
    id := some n.id
    history := .new r.schema s.capacity
    sampler := some ⟨"node" ++ toString n.id, some pin, .stopped r⟩ }
  pin_mem : pin ∈ n.cpus
  pin_least : ∀ c ∈ n.cpus, pin ≤ c
  active : r.active = true
  place_eq : r.place = place
  resolved : ∃ fresh before,
    resolve providers s n.cpus { clock } s.counterNames = .ok fresh ∧
      (Registry.activate { fresh with place, node := some n.id } before).1 = (none, r)

variable {providers : List Provider} {n : NumaNode}

theorem Made.awaits {place : Nat} (h : Made (Engine.supply providers s) clock place (scopeOf n) g)
    (hg : IsGroup (Engine.supply providers s) (scopeOf n) place g)
    (hsorted : n.cpus.Pairwise (· < ·)) (hcpus : n.cpus ≠ []) :
    ∃ r pin, Awaits providers s clock place n (ControlPlane.nodeAt s.capacity place g) r pin := by
  have hnode : g.registry.node = some n.id := h.node_eq
  obtain ⟨fresh, before, hfresh, hactivate, hpin⟩ := h
  obtain ⟨pin, rest, hsplit⟩ := List.exists_cons_of_ne_nil hcpus
  have hfirst : g.pin = some pin := by
    change g.pin = n.cpus.head? at hpin
    rw [hpin, hsplit]
    rfl
  refine ⟨g.registry, pin, ?_, ?_, ?_, hg.active, hg.place_eq, fresh, before, hfresh, hactivate⟩
  · rw [ControlPlane.nodeAt_of_place hg.place_eq]
    simp only [Node.ofGroup, hnode, hfirst]
  · rw [hsplit]
    exact List.mem_cons_self
  · intro c hc
    rw [hsplit] at hc hsorted
    rcases List.mem_cons.mp hc with rfl | hc
    · exact le_rfl
    · exact (List.rel_of_pairwise_cons hsorted hc).le

theorem awaits_of_groups {site : Site} {gs : List Group}
    (hok : (groups (Engine.supply providers s) clock [] ((busy ns).map scopeOf) site).1 = .ok gs)
    (hgs : AreGroups (Engine.supply providers s) 0 ((busy ns).map scopeOf) gs)
    (hsorted : ∀ n ∈ ns, n.cpus.Pairwise (· < ·)) :
    gs.length = (busy ns).length ∧ ∀ (i : Nat) (n : NumaNode), (busy ns)[i]? = some n →
      ∃ g r pin, gs[i]? = some g ∧
        Awaits providers s clock i n (ControlPlane.nodeAt s.capacity i g) r pin := by
  obtain ⟨made, he, hlength, hmade⟩ := made_of_groups hok
  rw [List.nil_append] at he
  subst he
  rw [List.length_map] at hlength
  refine ⟨hlength, ?_⟩
  intro i n hi
  have hscope : ((busy ns).map scopeOf)[i]? = some (scopeOf n) := by
    rw [List.getElem?_map, hi]
    rfl
  obtain ⟨g, hg, hplace⟩ := hmade i (scopeOf n) hscope
  obtain ⟨g', hg', hgroup⟩ := hgs.get hscope
  rw [hg] at hg'
  cases hg'
  rw [List.length_nil, Nat.zero_add] at hplace
  rw [Nat.zero_add] at hgroup
  obtain ⟨hn, hcpus⟩ := List.mem_filter.mp (List.mem_of_getElem? hi)
  obtain ⟨r, pin, hawaits⟩ := hplace.awaits hgroup (hsorted n hn) (by simpa using hcpus)
  exact ⟨g, r, pin, hg, hawaits⟩

theorem build_of_idle (hmode : s.mode = .perNode) (hidle : busy ns = []) (site : Site) :
    build providers s online (.ok ns) clock site = (.error .noNodes, site) := by
  apply assemble_of_error
  rw [scopesOf_perNode hmode, if_pos hidle]

theorem build_of_busy (hmode : s.mode = .perNode) (hbusy : busy ns ≠ [])
    (hsorted : ∀ n ∈ ns, n.cpus.Pairwise (· < ·)) (site : Site) :
    let built := build providers s online (.ok ns) clock site
    (∃ p, built.1 = .ok p ∧ p.nodes.length = (busy ns).length ∧
      ∀ (i : Nat) (n : NumaNode), (busy ns)[i]? = some n → ∃ node r pin,
        p.nodes[i]? = some node ∧ Awaits providers s clock i n node r pin) ∨
    ∃ n ∈ busy ns, ∃ e, built.1 = .error (.registry (some n.id) e) ∧
      (resolve providers s n.cpus { clock } s.counterNames = .error e ∨
        ∃ i name, (i, .call name (.init false)) ∈ built.2.log) := by
  intro built
  have hscopes := scopesOf_perNode hmode online ns
  rw [if_neg hbusy] at hscopes
  have hbuilt : built = _ := assemble_of_ok hscopes (Engine.supply providers s) clock site
  rcases groups_cases (Engine.supply providers s) clock ((busy ns).map scopeOf) site with
    ⟨gs, hok, hgs⟩ | ⟨scope, hscope, e, herror, hcause⟩
  · rw [hok] at hbuilt
    obtain ⟨hlength, hawaits⟩ := awaits_of_groups hok hgs hsorted
    refine .inl ⟨_, congrArg Prod.fst hbuilt, List.length_mapIdx.trans hlength, ?_⟩
    intro i n hi
    obtain ⟨g, r, pin, hg, hn⟩ := hawaits i n hi
    refine ⟨_, r, pin, ?_, hn⟩
    rw [ControlPlane.new_node, hg]
    rfl
  · obtain ⟨n, hn, rfl⟩ := List.mem_map.mp hscope
    rw [herror] at hbuilt
    refine .inr ⟨n, hn, e, congrArg Prod.fst hbuilt, ?_⟩
    rw [hbuilt]
    exact hcause

end Engine

open NodeTelemetry.Topology

variable {t t' : FileTree} {directory : List String}

theorem Topology.AreShown.sorted_cpus {ns : List NumaNode} (h : AreShown t directory ns) :
    ∀ n ∈ ns, n.cpus.Pairwise (· < ·) := by
  intro n hn
  obtain ⟨name, hname, -⟩ := h.one_entry n hn
  obtain ⟨found, list, -, -, hcpus⟩ := hname.cpus_eq
  exact CpuList.sorted_of_parse? hcpus

/-- In whatever order a directory of nodes is listed, the same nodes are found, or none can be, and
those with processors are what is sampled. -/
theorem Engine.build_in_any_order {walk : Walk} (hwalk : walk.Documented) {s : Settings}
    (h : t.Relists t') (hnumbers : NumbersApart t directory) (hmode : s.mode = .perNode)
    (providers : List Provider) (online : Except TopologyError (List Nat)) (clock : Nat)
    (site : Site) :
    let built := build providers s online (numaNodes t' directory walk) clock site
    (¬ Readable t directory →
      (∃ e, numaNodes t directory walk = .error e) ∧ ∃ e, numaNodes t' directory walk = .error e) ∧
    (Readable t directory → ∃ ns, numaNodes t directory walk = .ok ns ∧
      numaNodes t' directory walk = .ok ns ∧ AreShown t directory ns ∧
      (built.1 = .error .noNodes ↔ ∀ n ∈ ns, n.cpus = []) ∧
      ((∃ n ∈ ns, n.cpus ≠ []) →
        (∀ n ∈ busy ns, ∃ r, resolve providers s n.cpus { clock } s.counterNames = .ok r) →
        (∀ i name, (i, .call name (.init false)) ∉ built.2.log) →
        ∃ p, built.1 = .ok p ∧ p.nodes.length = (busy ns).length ∧
          ∀ (i : Nat) (n : NumaNode), (busy ns)[i]? = some n → ∃ node r pin,
            p.nodes[i]? = some node ∧ Awaits providers s clock i n node r pin)) := by
  obtain rfl := hwalk.eq
  intro built
  refine ⟨numaNodes_of_unreadable h, ?_⟩
  intro hreadable
  obtain ⟨ns, hns, hns', hshown⟩ := numaNodes_of_readable h hnumbers hreadable
  refine ⟨ns, hns, hns', hshown, ?_⟩
  have hbuilt : built = build providers s online (.ok ns) clock site := by
    rw [← hns']
  rw [hbuilt, ← busy_eq_nil_iff]
  by_cases hidle : busy ns = []
  · rw [build_of_idle hmode hidle]
    refine ⟨⟨fun _ => hidle, fun _ => rfl⟩, ?_⟩
    rintro ⟨n, hn, hcpus⟩
    exact absurd (busy_eq_nil_iff.mp hidle n hn) hcpus
  · rcases build_of_busy hmode hidle hshown.sorted_cpus site with
      ⟨p, hp, hnodes⟩ | ⟨n, hn, e, he, hcause⟩
    · rw [hp]
      exact ⟨⟨nofun, fun hnil => absurd hnil hidle⟩, fun _ _ _ => ⟨p, rfl, hnodes⟩⟩
    · rw [he]
      refine ⟨⟨nofun, fun hnil => absurd hnil hidle⟩, ?_⟩
      intro _ hresolve hinit
      rcases hcause with hunsupplied | ⟨i, name, hfailed⟩
      · obtain ⟨r, hr⟩ := hresolve n hn
        rw [hunsupplied] at hr
        cases hr
      · exact absurd hfailed (hinit i name)

theorem Engine.second_node_alone :
    let t : FileTree := ⟨[(["node"], .directory), (["node", "node1"], .directory),
      (["node", "node1", "cpulist"], .file [49, 10]), (["node", "node0"], .directory),
      (["node", "node0", "cpulist"], .file [10])]⟩
    let t' : FileTree := ⟨t.entries.reverse⟩
    let s : Settings := { mode := .perNode, enabled := [] }
    let ns : List NumaNode := [⟨0, []⟩, ⟨1, [1]⟩]
    numaNodes t [] = .ok ns ∧ numaNodes t' [] = .ok ns ∧ ∃ p node r,
      (build Provider.all s (.ok []) (numaNodes t' []) 0 {}).1 = .ok p ∧ p.nodes = [node] ∧
        Awaits Provider.all s 0 0 ⟨1, [1]⟩ node r 1 := by
  intro t t' s ns
  have hnode : t.place [] "node" = .ok ["node"] :=
    FileTree.place_of_descends (by decide) (by decide)
  have hone : t.place [] "node/node1" = .ok ["node", "node1"] :=
    FileTree.place_of_descends (by decide) (by decide)
  have hzero : t.place [] "node/node0" = .ok ["node", "node0"] :=
    FileTree.place_of_descends (by decide) (by decide)
  have hlistOne : t.find [] "node/node1/cpulist" = .ok (.file [49, 10]) :=
    FileTree.find_of_place (FileTree.place_of_descends (by decide) (by decide)) (by decide)
  have hlistZero : t.find [] "node/node0/cpulist" = .ok (.file [10]) :=
    FileTree.find_of_place (FileTree.place_of_descends (by decide) (by decide)) (by decide)
  have hnames : t.names ["node"] = ["node1", "node0"] := by decide
  have hfirst : nodeOf (nodeEntry t [] ["node"] "node1") = .ok (some ⟨1, [1]⟩) := by
    have hentry : nodeEntry t [] ["node"] "node1" = .found "node1" (list? t [] "node1") :=
      nodeEntry_found_iff.mpr ⟨_, hone, fun _ => by decide⟩
    have hlist : list? t [] "node1" = some (.ok "1\n") := list?_eq_some.mpr ⟨_, hlistOne, by cbv⟩
    rw [hentry, hlist]
    cbv
  have hsecond : nodeOf (nodeEntry t [] ["node"] "node0") = .ok (some ⟨0, []⟩) := by
    have hentry : nodeEntry t [] ["node"] "node0" = .found "node0" (list? t [] "node0") :=
      nodeEntry_found_iff.mpr ⟨_, hzero, fun _ => by decide⟩
    have hlist : list? t [] "node0" = some (.ok "\n") := list?_eq_some.mpr ⟨_, hlistZero, by cbv⟩
    rw [hentry, hlist]
    cbv
  have hns : numaNodes t [] = .ok ns := by
    rw [numaNodes_of_place hnode, if_pos (by decide), hnames, nodes]
    simp only [List.map_cons, List.map_nil, List.mapM_cons, List.mapM_nil, hfirst, hsecond]
    change Except.ok (sorted [⟨1, [1]⟩, ⟨0, []⟩]) = Except.ok ns
    simp [ns, sorted, List.mergeSort, List.MergeSort.Internal.splitInTwo]
  have hrelists : t.Relists t' :=
    FileTree.relists_of_perm (List.reverse_perm t.entries) (by decide)
  have hnumbers : NumbersApart t [] := by
    intro place hplace
    rw [hnode] at hplace
    cases hplace
    decide
  obtain ⟨hunreadable, hreadable⟩ :=
    build_in_any_order documented_nodeEntries (s := s) hrelists hnumbers rfl Provider.all (.ok []) 0
      {}
  have hr : Readable t [] := by
    by_contra hr
    obtain ⟨⟨e, he⟩, -⟩ := hunreadable hr
    rw [hns] at he
    cases he
  obtain ⟨ns', he, hns', -, -, hbuilt⟩ := hreadable hr
  rw [hns] at he
  cases he
  have hbusy : busy ns = [⟨1, [1]⟩] := rfl
  have hlog : (build Provider.all s (.ok []) (.ok ns) 0 {}).2.log =
      [(0, .call "oh" (.init true)), (0, .call "intv" (.init true)),
        (0, .call "ts" (.init true))] := rfl
  rw [hns', hbusy] at hbuilt
  have hresolve : ∀ n ∈ [(⟨1, [1]⟩ : NumaNode)],
      ∃ r, resolve Provider.all s n.cpus { clock := 0 } s.counterNames = .ok r := by
    intro n hn
    exact ⟨_, rfl⟩
  obtain ⟨p, hp, hlength, hnodes⟩ :=
    hbuilt ⟨⟨1, [1]⟩, by simp [ns], by simp⟩ hresolve (by simp [hlog])
  obtain ⟨node, r, pin, hnode, hawaits⟩ := hnodes 0 ⟨1, [1]⟩ rfl
  have hpin : pin = 1 := List.mem_singleton.mp hawaits.pin_mem
  refine ⟨hns, hns', p, node, r, ?_, ?_, hpin ▸ hawaits⟩
  · rw [hns']
    exact hp
  · obtain ⟨only, honly⟩ := List.length_eq_one_iff.mp hlength
    rw [honly] at hnode ⊢
    cases hnode
    rfl

end NodeTelemetry
