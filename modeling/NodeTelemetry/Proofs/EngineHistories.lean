import Mathlib
import NodeTelemetry.Proofs.EngineLife
import NodeTelemetry.Proofs.HistoryReads

namespace NodeTelemetry

open Node

namespace History

variable {h h' : History} {schema : Schema}

theorem ShapedBy.pushAll (hh : h.ShapedBy schema) (samples : List (List UInt64)) :
    (h.pushAll samples).ShapedBy schema := by
  induction samples generalizing h with
  | nil => exact hh
  | cons sample samples ih =>
    exact ih ⟨hh.schema_eq, Ring.base_lt_push hh.base_lt sample⟩

theorem Consumed.shapedBy (hc : h.Consumed h') (hh : h.ShapedBy schema) : h'.ShapedBy schema := by
  cases hc with
  | cleared => exact hh.clear
  | drained limit => exact hh.drain limit

end History

theorem Worker.Works.shapedBy {w w' : Worker} {h h' : History} {ds : List Deed} {schema : Schema}
    (hw : Works w h ds w' h') (hh : h.ShapedBy schema) : h'.ShapedBy schema := by
  cases hw with
  | rests => exact hh
  | goesOn samples => exact hh.pushAll samples
  | leaves samples => exact hh.pushAll samples
  | breaksDown samples => exact hh.pushAll samples

theorem Regime.Lasting.shapedBy (schema : Nat → Schema) :
    Lasting fun i h _ => h.ShapedBy (schema i) where
  read hh hc := hc.shapedBy hh
  worked hh hw := hw.shapedBy hh
  acted hh _ := hh

namespace ControlPlane

variable {p p' : ControlPlane} {site : Site}

theorem Rests.limit_eq (h : Rests p p') : p'.limit = p.limit := by cases h <;> rfl

theorem limit_perform (e : Event) (p : ControlPlane) (site : Site) :
    (e.perform p site).1.limit = p.limit := by
  rcases perform_cases e p site with ⟨on, -, he⟩ | rfl | ⟨happening, rfl⟩ | ⟨-, p', hr, he⟩
  · obtain ⟨nodes, turned, hp⟩ := setOn_eq on p site
    rw [he, hp]
  · exact congrArg (fun q => q.1.limit) (shutdown_eq p site)
  · rfl
  · rw [he]
    exact hr.limit_eq

theorem limit_performAll (events : List Event) (p : ControlPlane) (site : Site) :
    (performAll events p site).1.limit = p.limit := by
  induction events generalizing p site with
  | nil => rfl
  | cons e events ih => rw [performAll_cons, ih, limit_perform]

theorem readHistory_of_some {i : Nat} {n : Node} (hn : p.nodes[i]? = some n) :
    p.readHistory i = ((n.history.drain p.limit).1,
      { p with nodes := p.nodes.set i { n with history := (n.history.drain p.limit).2 } }) := by
  rw [← modifyHistory_of_some hn fun _ => (n.history.drain p.limit).2]
  simp only [readHistory, hn]

end ControlPlane

namespace Engine

variable {supply : Supply} {clock : Nat} {g : Group} {site : Site}

theorem schema_activate (r : Registry) (site : Site) : (r.activate site).1.2.schema = r.schema := by
  unfold Registry.activate
  split
  · rfl
  · rfl

theorem node_activate (r : Registry) (site : Site) : (r.activate site).1.2.node = r.node := by
  unfold Registry.activate
  split
  · rfl
  · rfl

def Supply.Shapes (supply : Supply) (clock : Nat) (schema : Schema) : Prop :=
  ∃ cpus r, (supply cpus >>= Registry.new { clock }) = .ok r ∧ r.schema = schema

def Made (supply : Supply) (clock place : Nat) (scope : Scope) (g : Group) : Prop :=
  ∃ r before, (supply scope.cpus >>= Registry.new { clock }) = .ok r ∧
    (Registry.activate { r with place, node := scope.node } before).1 = (none, g.registry) ∧
    g.pin = if scope.node.isSome then scope.cpus.head? else none

theorem made_of_groupAt {place : Nat} {scope : Scope}
    (h : (groupAt supply clock place scope site).1 = .ok g) : Made supply clock place scope g := by
  cases hr : supply scope.cpus >>= Registry.new { clock } with
  | error e =>
    simp only [groupAt, hr] at h
    cases h
  | ok r =>
    rcases hact : Registry.activate { r with place, node := scope.node } site with
      ⟨⟨e?, r'⟩, site'⟩
    simp only [groupAt, hr] at h
    simp only [bind, StateT.bind, hact] at h
    cases e? with
    | some e => cases h
    | none =>
      cases h
      exact ⟨r, site, hr, congrArg Prod.fst hact, rfl⟩

theorem made_of_groups {done gs : List Group} {scopes : List Scope}
    (h : (groups supply clock done scopes site).1 = .ok gs) :
    ∃ made, gs = done ++ made ∧ made.length = scopes.length ∧
      ∀ j scope, scopes[j]? = some scope →
        ∃ g, made[j]? = some g ∧ Made supply clock (done.length + j) scope g := by
  induction scopes generalizing done site with
  | nil =>
    cases h
    exact ⟨[], (List.append_nil _).symm, rfl, nofun⟩
  | cons scope scopes ih =>
    rcases hat : groupAt supply clock done.length scope site with ⟨result, site'⟩
    cases result with
    | error e =>
      rw [groups_cons_error hat] at h
      cases h
    | ok g =>
      rw [groups_cons_ok hat] at h
      obtain ⟨made, rfl, hlength, hmade⟩ := ih h
      refine ⟨g :: made, by simp, by rw [List.length_cons, List.length_cons, hlength], ?_⟩
      intro j scope' hj
      cases j with
      | zero =>
        cases hj
        exact ⟨g, rfl, made_of_groupAt (congrArg Prod.fst hat)⟩
      | succ j =>
        obtain ⟨g', hg', hplace⟩ := hmade j scope' hj
        rw [List.length_append, List.length_singleton, Nat.add_assoc, Nat.add_comm 1 j] at hplace
        exact ⟨g', hg', hplace⟩

theorem Made.node_eq {place : Nat} {scope : Scope} (h : Made supply clock place scope g) :
    g.registry.node = scope.node := by
  obtain ⟨r, before, -, hactivate, -⟩ := h
  have hnode := node_activate { r with place, node := scope.node } before
  rwa [hactivate] at hnode

theorem Made.shapes {place : Nat} {scope : Scope} (h : Made supply clock place scope g) :
    supply.Shapes clock g.registry.schema := by
  obtain ⟨r, before, hr, hactivate, -⟩ := h
  have hschema := schema_activate { r with place, node := scope.node } before
  rw [hactivate] at hschema
  exact ⟨scope.cpus, r, hr, hschema.symm⟩

variable {s : Settings} {online : Except TopologyError (List Nat)}
  {nodes : Except TopologyError (List NumaNode)} {p : ControlPlane}

theorem new_of_assemble (h : (assemble supply s online nodes clock site).1 = .ok p) :
    ∃ scopes gs, scopesOf s.mode online nodes = .ok scopes ∧ gs.length = scopes.length ∧
      (∀ j scope, scopes[j]? = some scope →
        ∃ g, gs[j]? = some g ∧ Made supply clock j scope g) ∧
      p = .new gs s.capacity ⟨s.period, clock⟩ pageSize := by
  cases hscopes : scopesOf s.mode online nodes with
  | error e =>
    rw [assemble_of_error hscopes] at h
    cases h
  | ok scopes =>
    rw [assemble_of_ok hscopes] at h
    cases hgroups : (groups supply clock [] scopes site).1 with
    | error e =>
      rw [hgroups] at h
      cases h
    | ok gs =>
      rw [hgroups] at h
      cases h
      obtain ⟨made, hgs, hlength, hmade⟩ := made_of_groups hgroups
      rw [List.nil_append] at hgs
      subst hgs
      refine ⟨scopes, gs, rfl, hlength, ?_, rfl⟩
      intro j scope hj
      have hplace := hmade j scope hj
      rwa [List.length_nil, Nat.zero_add] at hplace

theorem shapes_of_assemble (h : (assemble supply s online nodes clock site).1 = .ok p) :
    ∃ gs, (∀ g ∈ gs, supply.Shapes clock g.registry.schema) ∧
      p = .new gs s.capacity ⟨s.period, clock⟩ pageSize := by
  obtain ⟨scopes, gs, -, hlength, hmade, rfl⟩ := new_of_assemble h
  refine ⟨gs, ?_, rfl⟩
  intro g hg
  obtain ⟨j, hj, rfl⟩ := List.getElem_of_mem hg
  obtain ⟨g', hg', hplace⟩ := hmade j scopes[j] (List.getElem?_eq_getElem (hlength ▸ hj))
  rw [List.getElem?_eq_getElem hj] at hg'
  cases hg'
  exact hplace.shapes

theorem histories_of_assembled (h : (assemble supply s online nodes clock site).1 = .ok p)
    (events : List ControlPlane.Event) (start : Site) :
    (ControlPlane.performAll events p start).1.limit = pageSize ∧
      ∀ (i : Nat) (n : Node), (ControlPlane.performAll events p start).1.nodes[i]? = some n →
        ∃ schema, supply.Shapes clock schema ∧ n.history.ShapedBy schema := by
  obtain ⟨gs, hgs, rfl⟩ := shapes_of_assemble h
  have hnew : (Regime.lasting _ (.shapedBy fun i =>
      (gs[i]?.map fun g => g.registry.schema).getD [])).Holds
      (.new gs s.capacity ⟨s.period, clock⟩ pageSize) start.log := by
    refine Regime.holds_new fun i g _ hg _ => ?_
    change History.ShapedBy _ ((gs[i]?.map fun g => g.registry.schema).getD [])
    rw [hg]
    exact History.shapedBy_new g.registry.schema s.capacity
  obtain ⟨hholds, hlength⟩ := hnew.performAll events
  refine ⟨ControlPlane.limit_performAll events _ start, ?_⟩
  intro i n hn
  have hi : i < gs.length := by
    have hlt := (List.getElem?_eq_some_iff.mp hn).1
    rw [hlength] at hlt
    exact hlt.trans_eq List.length_mapIdx
  have hshaped := hholds.of_lasting hn
  rw [List.getElem?_eq_getElem hi] at hshaped
  exact ⟨_, hgs gs[i] (List.getElem_mem hi), hshaped⟩

end Engine

end NodeTelemetry
