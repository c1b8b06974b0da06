import Mathlib
import NodeTelemetry.Engine
import NodeTelemetry.Proofs.CounterLife

namespace NodeTelemetry

open Log Registry

namespace Log

def inTurn : Nat → List (List Deed) → List (Nat × Deed)
  | _, [] => []
  | i, ds :: rest => ds.map (fun d => (i, d)) ++ inTurn (i + 1) rest

def deedsIn (entries : List (Nat × Deed)) (i : Nat) : List Deed :=
  (entries.filter fun entry => entry.1 = i).map Prod.snd

theorem deeds_eq (log : Log) (i : Nat) : deeds log i = deedsIn log.reverse i := by
  rw [deeds, deedsIn, List.filter_reverse, List.map_reverse]

theorem deedsIn_append (xs ys : List (Nat × Deed)) (i : Nat) :
    deedsIn (xs ++ ys) i = deedsIn xs i ++ deedsIn ys i := by
  rw [deedsIn, List.filter_append, List.map_append]
  rfl

theorem deedsIn_place (ds : List Deed) (i j : Nat) :
    deedsIn (ds.map fun d => (i, d)) j = if i = j then ds else [] := by
  by_cases hj : i = j
  · simp [deedsIn, List.filter_map, Function.comp_def, hj]
  · simp [deedsIn, List.filter_map, Function.comp_def, hj]

theorem deedsIn_inTurn (dss : List (List Deed)) (k i : Nat) :
    deedsIn (inTurn k dss) i = if i < k then [] else (dss[i - k]?).getD [] := by
  induction dss generalizing k with
  | nil => simp [inTurn, deedsIn]
  | cons ds dss ih =>
    rw [inTurn, deedsIn_append, deedsIn_place, ih]
    by_cases hk : i < k
    · rw [if_neg (by omega), if_pos (by omega), if_pos hk]
      rfl
    · by_cases he : k = i
      · subst he
        simp
      · obtain ⟨j, hj⟩ : ∃ j, i - k = j + 1 := ⟨i - k - 1, by omega⟩
        rw [if_neg he, if_neg (by omega), if_neg hk, hj, show i - (k + 1) = j by omega]
        rfl

theorem Adds.reverse {i : Nat} {ds : List Deed} {before after : Log} (h : Adds i ds before after) :
    after.reverse = before.reverse ++ ds.map fun d => (i, d) := by
  rw [Adds] at h
  rw [h, List.reverse_append, List.reverse_reverse]

end Log

namespace Registry

theorem nodup_of_firstBadName? {seen names : List String} (h : firstBadName? seen names = none) :
    names.Nodup ∧ ∀ name ∈ names, name ∉ seen := by
  induction names generalizing seen with
  | nil => exact ⟨.nil, by simp⟩
  | cons name names ih =>
    rw [firstBadName?] at h
    split_ifs at h with hempty hlong hseen
    obtain ⟨hnodup, hfresh⟩ := ih h
    refine ⟨List.nodup_cons.mpr ⟨fun hmem => hfresh name hmem List.mem_cons_self, hnodup⟩, ?_⟩
    intro other ho
    rcases List.mem_cons.mp ho with rfl | ho
    · exact hseen
    · exact fun hmem => hfresh other ho (List.mem_cons_of_mem _ hmem)

theorem new_ok {tracer : Tracer} {counters : List Counter} {r : Registry}
    (h : Registry.new tracer counters = .ok r) :
    r.names = counters.map Counter.name ∧ r.names.Nodup ∧ r.active = false ∧
      r.lastSample = List.replicate r.names.length 0 := by
  unfold Registry.new at h
  cases hf : fault? (counters.map Counter.name) with
  | some e =>
    rw [hf] at h
    cases h
  | none =>
    rw [hf] at h
    cases h
    have hnames : (counters.map fun c => ({ counter := c } : Slot)).map Slot.name =
        counters.map Counter.name := by
      rw [List.map_map]
      rfl
    refine ⟨hnames, ?_, rfl, ?_⟩
    · rw [names, hnames]
      rw [fault?] at hf
      split_ifs at hf
      exact (nodup_of_firstBadName? (Option.or_eq_none_iff.mp hf).2).1
    · rw [lastSample, names, hnames, List.map_map, List.length_map]
      exact List.map_const'

end Registry

namespace Engine

def Supply.names (supply : Supply) (scope : Scope) : List String :=
  match supply scope.cpus with
  | .ok counters => counters.map Counter.name
  | .error _ => []

def callsInTurn (supply : Supply) (act : Act) (i : Nat) (scopes : List Scope) :
    List (Nat × Deed) :=
  inTurn i (scopes.map fun scope => calls act (supply.names scope))

theorem callsInTurn_nil (supply : Supply) (act : Act) (i : Nat) :
    callsInTurn supply act i [] = [] := rfl

structure IsGroup (supply : Supply) (scope : Scope) (i : Nat) (g : Group) : Prop where
  active : g.registry.active = true
  names_eq : g.registry.names = supply.names scope
  nodup : (supply.names scope).Nodup
  place_eq : g.registry.place = i
  fresh : g.registry.lastSample = List.replicate (supply.names scope).length 0

inductive AreGroups (supply : Supply) : Nat → List Scope → List Group → Prop
  | nil (i : Nat) : AreGroups supply i [] []
  | cons {i : Nat} {scope : Scope} {scopes : List Scope} {g : Group} {gs : List Group}
      (hg : IsGroup supply scope i g) (hgs : AreGroups supply (i + 1) scopes gs) :
      AreGroups supply i (scope :: scopes) (g :: gs)

inductive Refused (supply : Supply) (clock : Nat) (scope : Scope) :
    RegistryError → List Deed → Prop
  | unsupplied {e : RegistryError} (he : (supply scope.cpus >>= Registry.new { clock }) = .error e) :
      Refused supply clock scope e []
  | notInitialized {taken rest : List String} {name : String} (cause : CounterError)
      (hsplit : supply.names scope = taken ++ name :: rest) (hnodup : (supply.names scope).Nodup) :
      Refused supply clock scope (.notInitialized name cause) (initFailure taken [] name)

variable {supply : Supply} {i : Nat} {scopes earlier : List Scope} {gs done : List Group}

theorem AreGroups.snoc {scope : Scope} {g : Group} (h : AreGroups supply i scopes gs)
    (hg : IsGroup supply scope (i + gs.length) g) :
    AreGroups supply i (scopes ++ [scope]) (gs ++ [g]) := by
  induction h with
  | nil => exact .cons hg (.nil _)
  | @cons i _ _ _ gs hg' _ ih =>
    refine .cons hg' (ih ?_)
    rwa [List.length_cons, show i + (gs.length + 1) = i + 1 + gs.length by omega] at hg

theorem AreGroups.length_eq (h : AreGroups supply i scopes gs) : gs.length = scopes.length := by
  induction h with
  | nil => rfl
  | cons _ _ ih => rw [List.length_cons, List.length_cons, ih]

theorem AreGroups.get {j : Nat} {scope : Scope} (h : AreGroups supply i scopes gs)
    (hj : scopes[j]? = some scope) : ∃ g, gs[j]? = some g ∧ IsGroup supply scope (i + j) g := by
  induction h generalizing j with
  | nil => cases hj
  | @cons i _ _ g _ hg _ ih =>
    cases j with
    | zero =>
      cases hj
      exact ⟨g, rfl, hg⟩
    | succ j =>
      obtain ⟨g', hg', hgroup⟩ := ih hj
      exact ⟨g', hg', by rwa [show i + (j + 1) = i + 1 + j by omega]⟩

theorem names_of_new {scope : Scope} {clock : Nat} {r : Registry}
    (h : (supply scope.cpus >>= Registry.new { clock }) = .ok r) :
    r.names = supply.names scope ∧ r.names.Nodup ∧ r.active = false ∧
      r.lastSample = List.replicate r.names.length 0 := by
  unfold Supply.names
  cases hs : supply scope.cpus with
  | error e =>
    rw [hs] at h
    cases h
  | ok counters =>
    rw [hs] at h
    exact new_ok h

theorem groupAt_spec (supply : Supply) (clock place : Nat) (scope : Scope) (site : Site) :
    (∃ g, (groupAt supply clock place scope site).1 = .ok g ∧ IsGroup supply scope place g ∧
        Adds place (calls (.init true) (supply.names scope)) site.log
          (groupAt supply clock place scope site).2.log) ∨
      ∃ e ds, (groupAt supply clock place scope site).1 = .error (.registry scope.node e) ∧
        Refused supply clock scope e ds ∧
        Adds place ds site.log (groupAt supply clock place scope site).2.log := by
  cases hr : supply scope.cpus >>= Registry.new { clock } with
  | error e =>
    have he : groupAt supply clock place scope site = (.error (.registry scope.node e), site) := by
      simp only [groupAt, hr]
      rfl
    rw [he]
    exact .inr ⟨e, [], rfl, .unsupplied hr, .nil rfl⟩
  | ok r =>
    obtain ⟨hnames, hnodup, hinactive, hfresh⟩ := names_of_new hr
    obtain ⟨hc, hl, ha, hdone⟩ :=
      activate_spec (r := { r with place, node := scope.node }) hinactive site
    rcases hact : Registry.activate { r with place, node := scope.node } site with
      ⟨⟨e?, r'⟩, site'⟩
    rw [hact] at hc hl ha hdone
    have hfresh' : r'.lastSample = List.replicate (supply.names scope).length 0 :=
      hl.trans (hnames ▸ hfresh)
    have hnames' : r'.names = supply.names scope := hc.names_eq.trans hnames
    have hnodup' : (supply.names scope).Nodup := hnames ▸ hnodup
    rcases hdone with ⟨rfl, hadds⟩ | ⟨taken, name, rest, cause, hsplit, rfl, hadds⟩
    · refine .inl ⟨{ registry := r', pin := if scope.node.isSome then scope.cpus.head? else none },
        ?_⟩
      have he : groupAt supply clock place scope site =
          (.ok { registry := r', pin := if scope.node.isSome then scope.cpus.head? else none },
            site') := by
        simp only [groupAt, hr]
        simp only [bind, StateT.bind, hact]
        rfl
      rw [he]
      exact ⟨rfl, ⟨ha, hnames', hnodup', hc.place_eq, hfresh'⟩, hnames ▸ hadds⟩
    · have hdrop : r'.deactivate site' = (r', site') := deactivate_of_inactive ha site'
      have he : groupAt supply clock place scope site =
          (.error (.registry scope.node (.notInitialized name cause)), site') := by
        simp only [groupAt, hr]
        simp only [bind, StateT.bind, hact, hdrop]
        rfl
      rw [he]
      exact .inr ⟨_, _, rfl, .notInitialized cause (hnames ▸ hsplit) hnodup', hadds⟩

theorem forM_deactivate (h : AreGroups supply i scopes gs) (site : Site) :
    (gs.forM (fun g => discard g.registry.deactivate) site).2.log.reverse =
      site.log.reverse ++ callsInTurn supply .exit i scopes := by
  induction h generalizing site with
  | nil =>
    rw [callsInTurn_nil, List.append_nil]
    rfl
  | cons hg _ ih =>
    have hadds := (deactivate_of_active hg.active site).2.2
    rw [hg.place_eq, hg.names_eq] at hadds
    rw [callsInTurn, List.map_cons, inTurn, ← List.append_assoc, ← hadds.reverse]
    exact ih _

theorem groups_cons_ok {clock : Nat} {scope : Scope} {g : Group} {site site' : Site}
    (h : groupAt supply clock done.length scope site = (.ok g, site')) :
    groups supply clock done (scope :: scopes) site =
      groups supply clock (done ++ [g]) scopes site' := by
  simp only [groups, bind, StateT.bind, h]

theorem groups_cons_error {clock : Nat} {scope : Scope} {e : EngineError} {site site' : Site}
    (h : groupAt supply clock done.length scope site = (.error e, site')) :
    groups supply clock done (scope :: scopes) site =
      (.error e, (done.forM (fun g => discard g.registry.deactivate) site').2) := by
  simp only [groups, bind, StateT.bind, h]
  rfl

theorem groups_spec (supply : Supply) (clock : Nat) (scopes : List Scope) (site : Site)
    (hdone : AreGroups supply 0 earlier done) :
    (∃ gs, (groups supply clock done scopes site).1 = .ok gs ∧
        AreGroups supply 0 (earlier ++ scopes) gs ∧
        (groups supply clock done scopes site).2.log.reverse =
          site.log.reverse ++ callsInTurn supply (.init true) earlier.length scopes) ∨
      ∃ before scope after e ds gs, scopes = before ++ scope :: after ∧
        (groups supply clock done scopes site).1 = .error (.registry scope.node e) ∧
        Refused supply clock scope e ds ∧ AreGroups supply 0 (earlier ++ before) gs ∧
        (groups supply clock done scopes site).2.log.reverse =
          site.log.reverse ++ callsInTurn supply (.init true) earlier.length before ++
            ds.map (fun d => (earlier.length + before.length, d)) ++
            callsInTurn supply .exit 0 (earlier ++ before) := by
  -- `done` are the groups of `earlier`, from which the next place and the registries to be let go
  -- are known; the log is only said to go on.
  induction scopes generalizing earlier done site with
  | nil =>
    refine .inl ⟨done, rfl, by rwa [List.append_nil], ?_⟩
    rw [callsInTurn_nil, List.append_nil]
    rfl
  | cons scope scopes ih =>
    have hlen := hdone.length_eq
    rcases groupAt_spec supply clock done.length scope site with
      ⟨g, hok, hg, hadds⟩ | ⟨e, ds, herror, href, hadds⟩
    all_goals
      rcases hat : groupAt supply clock done.length scope site with ⟨result, site'⟩
      rw [hat] at hadds
    · rw [hat] at hok
      dsimp only at hok
      subst hok
      rw [groups_cons_ok hat]
      have hsnoc : AreGroups supply 0 (earlier ++ [scope]) (done ++ [g]) :=
        hdone.snoc (by rwa [Nat.zero_add])
      have hlog : ∀ rest, site'.log.reverse ++
          callsInTurn supply (.init true) (earlier ++ [scope]).length rest =
            site.log.reverse ++ callsInTurn supply (.init true) earlier.length (scope :: rest) := by
        intro rest
        rw [hadds.reverse, hlen, List.append_assoc, List.length_append]
        rfl
      rcases ih site' hsnoc with ⟨gs, hres, hgs, hrest⟩ |
        ⟨before, bad, after, e, ds, gs, rfl, hres, href, hgs, hrest⟩
      · refine .inl ⟨gs, hres, ?_, ?_⟩
        · rwa [List.append_assoc] at hgs
        · rw [hrest, hlog]
      · refine .inr ⟨scope :: before, bad, after, e, ds, gs, rfl, hres, href, ?_, ?_⟩
        · rwa [List.append_assoc] at hgs
        · have hplace : (earlier ++ [scope]).length + before.length =
              earlier.length + (scope :: before).length := by
            simp only [List.length_append, List.length_cons, List.length_nil]
            omega
          rw [hrest, hlog, hplace, List.append_assoc earlier]
          rfl
    · rw [hat] at herror
      dsimp only at herror
      subst herror
      rw [groups_cons_error hat]
      refine .inr ⟨[], scope, scopes, e, ds, done, rfl, rfl, href, by rwa [List.append_nil], ?_⟩
      rw [forM_deactivate hdone, hadds.reverse, hlen, callsInTurn_nil, List.append_nil,
        List.append_nil]
      rfl

theorem deedsIn_callsInTurn (supply : Supply) (act : Act) (scopes : List Scope) (i : Nat) :
    deedsIn (callsInTurn supply act 0 scopes) i =
      (scopes[i]?.map fun scope => calls act (supply.names scope)).getD [] := by
  rw [callsInTurn, deedsIn_inTurn, if_neg (Nat.not_lt_zero i), Nat.sub_zero, List.getElem?_map]

theorem Refused.life {clock : Nat} {scope : Scope} {e : RegistryError} {ds : List Deed}
    (h : Refused supply clock scope e ds) (name : String) : Life true (acts name ds) := by
  cases h with
  | unsupplied => exact .untaken
  | notInitialized cause hsplit hnodup => exact life_of_initFailure (hsplit ▸ hnodup) name

theorem life_of_refused {clock : Nat} {scope : Scope} {e : RegistryError} {ds : List Deed}
    {log : Log} (hgs : AreGroups supply 0 earlier gs) (href : Refused supply clock scope e ds)
    (hlog : log.reverse = callsInTurn supply (.init true) 0 earlier ++
      ds.map (fun d => (earlier.length, d)) ++ callsInTurn supply .exit 0 earlier)
    (i : Nat) (name : String) : Life true (acts name (deeds log i)) := by
  rw [deeds_eq, hlog, deedsIn_append, deedsIn_append, deedsIn_place, deedsIn_callsInTurn,
    deedsIn_callsInTurn]
  cases hi : earlier[i]? with
  | some scope =>
    obtain ⟨g, -, hg⟩ := hgs.get hi
    have hne : earlier.length ≠ i := Nat.ne_of_gt (List.getElem?_eq_some_iff.mp hi).1
    rw [if_neg hne, List.append_nil]
    have hreleased : Released (supply.names scope)
        (calls (.init true) (supply.names scope) ++ calls .exit (supply.names scope)) :=
      ⟨[], by simp, by simp⟩
    exact hreleased.life hg.nodup name
  | none =>
    by_cases hat : earlier.length = i
    · rw [if_pos hat]
      simpa using href.life name
    · rw [if_neg hat]
      exact .untaken

section

variable {s : Settings} {online : Except TopologyError (List Nat)}
  {nodes : Except TopologyError (List NumaNode)}

theorem assemble_of_error {e : EngineError} (h : scopesOf s.mode online nodes = .error e)
    (supply : Supply) (clock : Nat) (site : Site) :
    assemble supply s online nodes clock site = (.error e, site) := by
  simp only [assemble, h]
  rfl

theorem assemble_of_ok (h : scopesOf s.mode online nodes = .ok scopes) (supply : Supply)
    (clock : Nat) (site : Site) :
    assemble supply s online nodes clock site =
      ((groups supply clock [] scopes site).1.map fun gs =>
        ControlPlane.new gs s.capacity ⟨s.period, clock⟩ pageSize,
        (groups supply clock [] scopes site).2) := by
  rcases hgroups : groups supply clock [] scopes site with ⟨result, site'⟩
  simp only [assemble, h, bind, StateT.bind, hgroups]
  cases result <;> rfl

end

theorem assemble_spec (supply : Supply) (s : Settings)
    (online : Except TopologyError (List Nat)) (nodes : Except TopologyError (List NumaNode))
    (clock : Nat) (site : Site) :
    let built := assemble supply s online nodes clock { site with log := [] }
    (∃ e, built.1 = .error e ∧ built.2.log = []) ∨
    (∃ scopes gs, scopesOf s.mode online nodes = .ok scopes ∧ AreGroups supply 0 scopes gs ∧
      built.1 = .ok (.new gs s.capacity ⟨s.period, clock⟩ pageSize) ∧
      built.2.log.reverse = callsInTurn supply (.init true) 0 scopes) ∨
    ∃ before scope after e ds gs, scopesOf s.mode online nodes = .ok (before ++ scope :: after) ∧
      built.1 = .error (.registry scope.node e) ∧ Refused supply clock scope e ds ∧
      AreGroups supply 0 before gs ∧
      built.2.log.reverse = callsInTurn supply (.init true) 0 before ++
        ds.map (fun d => (before.length, d)) ++ callsInTurn supply .exit 0 before := by
  intro built
  cases hscopes : scopesOf s.mode online nodes with
  | error e =>
    have hbuilt : built = (.error e, { site with log := [] }) :=
      assemble_of_error hscopes supply clock _
    rw [hbuilt]
    exact .inl ⟨e, rfl, rfl⟩
  | ok scopes =>
    have hspec := groups_spec supply clock scopes { site with log := [] } (.nil 0)
    rcases hgrouped : groups supply clock [] scopes { site with log := [] } with ⟨result, site'⟩
    rw [hgrouped] at hspec
    have hbuilt : built = (result.map fun gs =>
        ControlPlane.new gs s.capacity ⟨s.period, clock⟩ pageSize, site') := by
      have hassemble := assemble_of_ok hscopes supply clock { site with log := [] }
      rwa [hgrouped] at hassemble
    rw [hbuilt]
    rcases hspec with ⟨gs, hok, hgs, hlog⟩ |
      ⟨before, scope, after, e, ds, gs, rfl, herror, href, hgs, hlog⟩
    · dsimp only at hok
      subst hok
      exact .inr (.inl ⟨scopes, gs, rfl, hgs, rfl, hlog⟩)
    · dsimp only at herror
      subst herror
      simp only [List.length_nil, Nat.zero_add, List.reverse_nil, List.nil_append] at hlog
      exact .inr (.inr ⟨before, scope, after, e, ds, gs, rfl, rfl, href, hgs, hlog⟩)

theorem lives_assembled (hgs : AreGroups supply 0 scopes gs) {log : Log}
    (hlog : log.reverse = callsInTurn supply (.init true) 0 scopes) (capacity : Nat) (pace : Pace)
    (limit : Nat) :
    (Regime.lives fun i => (scopes[i]?.map supply.names).getD []).Holds
      (ControlPlane.new gs capacity pace limit) log := by
  refine Regime.holds_new fun i g s hg hs => ?_
  have hi : i < scopes.length := by
    rw [← hgs.length_eq]
    exact (List.getElem?_eq_some_iff.mp hg).1
  have hscope := List.getElem?_eq_getElem hi
  obtain ⟨g', hg', hgroup⟩ := hgs.get hscope
  rw [hg] at hg'
  cases hg'
  have hdeeds : deeds log i = calls (.init true) (supply.names scopes[i]) := by
    rw [deeds_eq, hlog, deedsIn_callsInTurn, hscope]
    rfl
  change s.state.Lives ((scopes[i]?.map supply.names).getD []) (deeds log i)
  rw [hs, hdeeds, hscope]
  exact ⟨hgroup.active, hgroup.names_eq, [], by simp, by simp⟩

end Engine

namespace Node

variable {nodes : List Node} {site : Site} {ds : List Deed}

def exits (n : Node) : List Deed :=
  match n.sampler with
  | some s =>
    match s.state with
    | .stopped r => r.exits
    | _ => []
  | none => []

def Rests : PlaceProp := fun i n _ =>
  n.Placed i ∧ ∀ s w, n.sampler = some s → s.state ≠ .running w

theorem happen_rests (h : Each Rests nodes site.log) (pace : Pace) (e : Happening) :
    (happen pace nodes e site).1 = nodes ∧ (happen pace nodes e site).2.log = site.log := by
  -- That each node keeps a property says too little: the order over all places is at stake.
  have keep {i : Nat} {act : Node → StateM Site Node}
      (hact : ∀ n site, n.Placed i → ∃ ds, Drifts n ds (act n site).1 ∧
        Adds i ds site.log (act n site).2.log) :
      (visit i act nodes site).1 = nodes ∧ (visit i act nodes site).2.log = site.log := by
    cases hn : nodes[i]? with
    | none =>
      rw [visit_none hn]
      exact ⟨rfl, rfl⟩
    | some n =>
      obtain ⟨hp, hrest⟩ := h i n hn
      obtain ⟨ds, hd, hadds⟩ := hact n site hp
      obtain ⟨hsame, rfl⟩ := hd.of_not_running hrest
      rw [visit_some hn, hsame]
      obtain ⟨hlt, rfl⟩ := List.getElem?_eq_some_iff.mp hn
      exact ⟨List.set_getElem_self hlt, hadds⟩
  cases e with
  | step i => exact keep fun n site hn => step_drifts pace hn site
  | crash i => exact keep fun n site hn => crash_drifts hn site

theorem meanwhile_rests (h : Each Rests nodes site.log) (pace : Pace) :
    (meanwhile pace nodes site).1 = nodes ∧ (meanwhile pace nodes site).2.log = site.log := by
  have all (es : List Happening) (site : Site) (h : Each Rests nodes site.log) :
      (es.foldlM (happen pace) nodes site).1 = nodes ∧
        (es.foldlM (happen pace) nodes site).2.log = site.log := by
    induction es generalizing site with
    | nil => exact ⟨rfl, rfl⟩
    | cons e es ih =>
      obtain ⟨hnodes, hlog⟩ := happen_rests h pace e
      have hrest := ih (happen pace nodes e site).2 (by rwa [hlog])
      rw [hlog] at hrest
      rw [List.foldlM_cons]
      change (es.foldlM (happen pace) (happen pace nodes e site).1 _).1 = nodes ∧
        (es.foldlM (happen pace) (happen pace nodes e site).1 _).2.log = site.log
      rwa [hnodes]
  have hlog := Site.keeps_pause site
  rw [← hlog] at h ⊢
  exact all _ _ h

theorem discard_rests {i : Nat} {n : Node} (h : Rests i n ds) (pace : Pace) (site : Site) :
    (n.discard pace site).1.sampler = none ∧
      Adds i n.exits site.log (n.discard pace site).2.log := by
  cases hs : n.sampler with
  | none =>
    rw [discard_none pace hs, exits, hs]
    exact ⟨rfl, .nil rfl⟩
  | some s =>
    cases hst : s.state with
    | running w => exact absurd hst (h.2 s w hs)
    | stopped r =>
      obtain ⟨he, hadds⟩ := discard_stopped pace hs hst (h.1.of_state hs hst) site
      rw [he]
      simp only [exits, hs, hst]
      exact ⟨trivial, hadds⟩
    | lost =>
      rw [discard_lost pace hs hst]
      simp only [exits, hs, hst]
      exact ⟨trivial, .nil rfl⟩

theorem sweep_discard (pace : Pace) (count i : Nat) (hcount : nodes.length = i + count)
    (h : Each Rests nodes site.log) :
    (sweep pace (discard pace) i count nodes site).2.log.reverse =
      site.log.reverse ++ inTurn i ((nodes.drop i).map exits) := by
  induction count generalizing i nodes site with
  | zero =>
    rw [List.drop_of_length_le (by omega), List.map_nil, inTurn, List.append_nil]
    rfl
  | succ count ih =>
    obtain ⟨hnow, hlog⟩ := meanwhile_rests h pace
    have hlt : i < nodes.length := by omega
    have hn := List.getElem?_eq_getElem hlt
    rw [sweep_succ]
    dsimp only
    rw [hnow, visit_some hn]
    obtain ⟨hnone, hadds⟩ := discard_rests (h i _ hn) pace (meanwhile pace nodes site).2
    generalize nodes[i].discard pace (meanwhile pace nodes site).2 = done at hnone hadds ⊢
    have hrests : Each Rests (nodes.set i done.1) done.2.log := by
      rw [← hlog] at h
      refine h.set hadds ⟨?_, ?_⟩ fun _ _ _ _ hj => hj
      · intro s hs
        rw [hnone] at hs
        cases hs
      · intro s w hs
        rw [hnone] at hs
        cases hs
    have hset : (nodes.set i done.1).length = i + 1 + count := by
      rw [List.length_set]
      omega
    have hdrop : (nodes.set i done.1).drop (i + 1) = nodes.drop (i + 1) :=
      List.drop_set_of_lt (by omega)
    rw [ih (i + 1) hset hrests, hdrop, hadds.reverse, hlog, List.drop_eq_getElem_cons hlt,
      List.map_cons, inTurn, List.append_assoc]

end Node

namespace Engine

open ControlPlane

variable {supply : Supply}

theorem shutdown_exits_in_turn {R : Regime} {p : ControlPlane} {site : Site}
    (h : R.Holds p site.log) :
    (p.shutdown site).2.log.reverse = (Node.stopAll p.pace p.nodes site).2.log.reverse ++
      inTurn 0 ((Node.stopAll p.pace p.nodes site).1.map Node.exits) := by
  have hrests : Node.Each Node.Rests (Node.stopAll p.pace p.nodes site).1
      (Node.stopAll p.pace p.nodes site).2.log := by
    exact h.stopAll.1.mono fun i n ds _ hn =>
      ⟨(Regime.stable _ _).placed hn, Regime.not_running hn⟩
  exact Node.sweep_discard p.pace _ 0 (by omega) hrests

theorem mem_callsInTurn {act : Act} {i place : Nat} {scopes : List Scope} {d : Deed}
    (h : (place, d) ∈ callsInTurn supply act i scopes) : ∃ name, d = .call name act := by
  induction scopes generalizing i with
  | nil => cases h
  | cons scope scopes ih =>
    rcases List.mem_append.mp h with h | h
    · obtain ⟨d', hd', he⟩ := List.mem_map.mp h
      cases he
      obtain ⟨name, -, rfl⟩ := List.mem_map.mp hd'
      exact ⟨name, rfl⟩
    · exact ih h

theorem mem_initFailure {taken : List String} {failed name : String}
    (h : .call name (.init false) ∈ initFailure taken [] failed) : name = failed := by
  rcases List.mem_append.mp h with h | h
  · obtain ⟨other, -, he⟩ := List.mem_map.mp h
    cases he
  · rcases List.mem_cons.mp h with he | h
    · cases he
      rfl
    · obtain ⟨other, -, he⟩ := List.mem_map.mp h
      cases he

theorem refused_of_init_false {clock : Nat} {scope : Scope} {earlier : List Scope}
    {e : RegistryError} {ds : List Deed} {log : Log} {place : Nat} {name : String}
    (href : Refused supply clock scope e ds)
    (hlog : log.reverse = callsInTurn supply (.init true) 0 earlier ++
      ds.map (fun d => (earlier.length, d)) ++ callsInTurn supply .exit 0 earlier)
    (hmem : (place, .call name (.init false)) ∈ log) :
    place = earlier.length ∧ ∃ taken rest cause, supply.names scope = taken ++ name :: rest ∧
      e = .notInitialized name cause ∧ ds = initFailure taken [] name := by
  rw [← List.mem_reverse, hlog, List.mem_append, List.mem_append] at hmem
  rcases hmem with (hinit | hfailed) | hexit
  · obtain ⟨other, he⟩ := mem_callsInTurn hinit
    cases he
  · obtain ⟨d, hd, he⟩ := List.mem_map.mp hfailed
    cases he
    refine ⟨rfl, ?_⟩
    cases href with
    | unsupplied => cases hd
    | @notInitialized taken rest failed cause hsplit =>
      obtain rfl := mem_initFailure hd
      exact ⟨taken, rest, cause, hsplit, rfl, rfl⟩
  · obtain ⟨other, he⟩ := mem_callsInTurn hexit
    cases he

/-- From the moment its groups are there until it is dropped, a plane lets each counter go once. -/
theorem lives_until_shutdown {scopes : List Scope} {gs : List Group} {site : Site}
    (hgs : AreGroups supply 0 scopes gs)
    (hlog : site.log.reverse = callsInTurn supply (.init true) 0 scopes) (capacity : Nat)
    (pace : Pace) (limit : Nat) (events : List Event) :
    let run := performAll events (.new gs capacity pace limit) site
    let stopped := Node.stopAll run.1.pace run.1.nodes run.2
    let dropped := run.1.shutdown run.2
    dropped.2.log.reverse = stopped.2.log.reverse ++ inTurn 0 (stopped.1.map Node.exits) ∧
    ∀ i scope, scopes[i]? = some scope →
      Released (supply.names scope) (deeds dropped.2.log i) ∧
      ∀ name, Life true (acts name (deeds dropped.2.log i)) ∧
        ∃ ended, Life ended (acts name (deeds run.2.log i)) := by
  intro run stopped dropped
  have hlives := lives_assembled hgs hlog capacity pace limit
  have hlen : (ControlPlane.new gs capacity pace limit).nodes.length = scopes.length :=
    List.length_mapIdx.trans hgs.length_eq
  obtain ⟨hrun, hlen₁⟩ := hlives.performAll events
  obtain ⟨hdropped, hlen₂⟩ := hrun.shutdown
  rw [hlen] at hlen₁
  refine ⟨shutdown_exits_in_turn hrun, ?_⟩
  intro i scope hi
  obtain ⟨g, -, hg⟩ := hgs.get hi
  have hlt : i < scopes.length := (List.getElem?_eq_some_iff.mp hi).1
  have hlt₁ : i < run.1.nodes.length := hlt.trans_eq hlen₁.symm
  have hlt₂ : i < dropped.1.nodes.length := hlt₁.trans_eq hlen₂.symm
  have hreleased : Released (supply.names scope) (deeds dropped.2.log i) := by
    have hgone := (hdropped.without rfl (List.getElem?_eq_getElem hlt₂)).2
    change Released ((scopes[i]?.map supply.names).getD []) _ at hgone
    rwa [hi] at hgone
  refine ⟨hreleased, fun name => ⟨hreleased.life hg.nodup name, ?_⟩⟩
  refine hrun.life hlt₁ ?_ name
  rw [hi]
  exact hg.nodup

/-- Whatever fails while a control plane is assembled, and whatever happens to it afterwards, each
counter that has been taken on is let go exactly once, in the order of its registry, and used only in
between. A counter that cannot be taken on ends the assembly: those before it in its registry are let
go in reverse order, and then the registries before. -/
theorem counters_are_let_go_once (supply : Supply) (s : Settings)
    (online : Except TopologyError (List Nat)) (nodes : Except TopologyError (List NumaNode))
    (clock : Nat) (site : Site) :
    let built := assemble supply s online nodes clock { site with log := [] }
    (∀ e, built.1 = .error e → ∀ i name, Life true (acts name (deeds built.2.log i))) ∧
    (∀ p, built.1 = .ok p → ∃ scopes, scopesOf s.mode online nodes = .ok scopes ∧
      p.nodes.length = scopes.length ∧ ∀ events,
        let run := performAll events p built.2
        let stopped := Node.stopAll run.1.pace run.1.nodes run.2
        let dropped := run.1.shutdown run.2
        dropped.2.log.reverse =
          stopped.2.log.reverse ++ inTurn 0 (stopped.1.map Node.exits) ∧
        ∀ i scope, scopes[i]? = some scope →
          Released (supply.names scope) (deeds dropped.2.log i) ∧
          ∀ name, Life true (acts name (deeds dropped.2.log i)) ∧
            ∃ ended, Life ended (acts name (deeds run.2.log i))) ∧
    ∀ place name, (place, .call name (.init false)) ∈ built.2.log →
      ∃ before scope after taken rest cause,
        scopesOf s.mode online nodes = .ok (before ++ scope :: after) ∧ place = before.length ∧
        supply.names scope = taken ++ name :: rest ∧
        built.1 = .error (.registry scope.node (.notInitialized name cause)) ∧
        built.2.log.reverse = callsInTurn supply (.init true) 0 before ++
          (initFailure taken [] name).map (fun d => (place, d)) ++
          callsInTurn supply .exit 0 before := by
  intro built
  rcases assemble_spec supply s online nodes clock site with ⟨e, herror, hlog⟩ |
    ⟨scopes, gs, hscopes, hgs, hok, hlog⟩ |
    ⟨before, scope, after, e, ds, gs, hscopes, herror, href, hgs, hlog⟩
  · rw [show built.1 = .error e from herror, show built.2.log = [] from hlog]
    refine ⟨fun _ _ i name => .untaken, ?_, ?_⟩
    · rintro p ⟨⟩
    · rintro place name ⟨⟩
  · rw [show built.1 = .ok _ from hok]
    refine ⟨?_, ?_, ?_⟩
    · rintro e ⟨⟩
    · rintro p ⟨⟩
      exact ⟨scopes, hscopes, List.length_mapIdx.trans hgs.length_eq,
        lives_until_shutdown hgs hlog s.capacity ⟨s.period, clock⟩ pageSize⟩
    · intro place name hmem
      rw [← List.mem_reverse, hlog] at hmem
      obtain ⟨other, he⟩ := mem_callsInTurn hmem
      cases he
  · rw [show built.1 = .error _ from herror]
    refine ⟨fun _ _ i name => life_of_refused hgs href hlog i name, ?_, ?_⟩
    · rintro p ⟨⟩
    · intro place name hmem
      obtain ⟨rfl, taken, rest, cause, hnames, rfl, rfl⟩ := refused_of_init_false href hlog hmem
      exact ⟨before, scope, after, taken, rest, cause, hscopes, rfl, hnames, rfl, hlog⟩

end Engine

end NodeTelemetry
