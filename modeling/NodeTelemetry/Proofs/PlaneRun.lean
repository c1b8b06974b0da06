import Mathlib
import NodeTelemetry.Proofs.SamplerRules

namespace NodeTelemetry

open Log

namespace ControlPlane

inductive Event
  | setOn (on : Bool)
  | setPeriod (ms : UInt64)
  | clear (node : Nat)
  | readHistory (node : Nat)
  | readLast (node : Nat)
  | read (name : String)
  | write (name input : String)
  | shutdown
  | thread (happening : Happening)
  deriving DecidableEq, Repr

namespace Event

def perform : Event → ControlPlane → StateM Site ControlPlane
  | .setOn on, p => p.setOn on
  | .setPeriod ms, p => pure (p.setPeriod ms).2
  | .clear i, p => pure (p.clear i)
  | .readHistory i, p => pure (p.readHistory i).2
  | .readLast _, p => pure p
  | .read name, p => pure (p.read name).2
  | .write name input, p => do pure (← p.write name input).2
  | .shutdown, p => p.shutdown
  | .thread h, p => do pure { p with nodes := ← Node.happen p.pace p.nodes h }

def switch? : Event → Option Bool
  | .setOn on => some on
  | .write name input =>
    if name ≠ "ctrl" then none
    else if begins input.toList "on" then some true
    else if begins input.toList "off" then some false
    else none
  | _ => none

end Event

def performAll (events : List Event) (p : ControlPlane) : StateM Site ControlPlane :=
  events.foldlM (fun p e => e.perform p) p

inductive Rests : ControlPlane → ControlPlane → Prop
  | same (p : ControlPlane) : Rests p p
  | paced (p : ControlPlane) (pace : Pace) : Rests p { p with pace }
  | consumed (p : ControlPlane) {i : Nat} {n : Node} {h : History} (hn : p.nodes[i]? = some n)
      (hc : n.history.Consumed h) :
      Rests p { p with nodes := p.nodes.set i { n with history := h } }

variable {p : ControlPlane} {site : Site} {e : Event}

theorem performAll_cons (e : Event) (events : List Event) (p : ControlPlane) (site : Site) :
    performAll (e :: events) p site =
      performAll events (e.perform p site).1 (e.perform p site).2 := rfl

theorem modifyHistory_of_none {i : Nat} (hn : p.nodes[i]? = none) (change : History → History) :
    p.modifyHistory i change = p := by
  rw [modifyHistory, List.modify_eq_self (List.getElem?_eq_none_iff.mp hn)]

theorem modifyHistory_of_some {i : Nat} {n : Node} (hn : p.nodes[i]? = some n)
    (change : History → History) :
    p.modifyHistory i change =
      { p with nodes := p.nodes.set i { n with history := change n.history } } := by
  have hset : (p.nodes.modify i fun n => { n with history := change n.history }) =
      p.nodes.set i { n with history := change n.history } := by
    apply List.ext_getElem?
    intro j
    rw [List.getElem?_modify, List.getElem?_set]
    by_cases hj : i = j
    · subst hj
      obtain ⟨hlt, hget⟩ := List.getElem?_eq_some_iff.mp hn
      simp [hlt, hget]
    · simp [hj]
  rw [modifyHistory, hset]

theorem modifyHistory_rests (i : Nat) {change : History → History} (p : ControlPlane)
    (hc : ∀ n, p.nodes[i]? = some n → n.history.Consumed (change n.history)) :
    Rests p (p.modifyHistory i change) := by
  cases hn : p.nodes[i]? with
  | none =>
    rw [modifyHistory_of_none hn]
    exact .same p
  | some n =>
    rw [modifyHistory_of_some hn]
    exact .consumed p hn (hc n hn)

theorem clear_rests (i : Nat) (p : ControlPlane) : Rests p (p.clear i) :=
  modifyHistory_rests i p fun n _ => .cleared n.history

theorem readHistory_rests (i : Nat) (p : ControlPlane) : Rests p (p.readHistory i).2 := by
  cases hn : p.nodes[i]? with
  | none =>
    simp only [readHistory, hn]
    exact .same p
  | some n =>
    simp only [readHistory, hn]
    refine modifyHistory_rests i p fun m hm => ?_
    rw [hn] at hm
    cases hm
    exact .drained n.history p.limit

theorem setPeriod_rests (ms : UInt64) (p : ControlPlane) : Rests p (p.setPeriod ms).2 := by
  unfold setPeriod
  by_cases hms : periodInRange ms = true
  · rw [if_pos hms]
    exact .paced p _
  · rw [if_neg hms]
    exact .same p

theorem read_rests (name : String) (p : ControlPlane) : Rests p (p.read name).2 := by
  unfold read
  rcases p.attribute? name with _ | _ | _ | i | i | i
  case some.history => exact readHistory_rests i p
  all_goals exact .same p

theorem nodeAttribute?_ne_power (nodes : List Node) (name : String) :
    nodeAttribute? nodes name perNode ≠ some .power := by
  simp only [nodeAttribute?, perNode]
  repeat' split
  all_goals simp

theorem attribute?_power {name : String} (h : p.attribute? name = some .power) : name = "ctrl" := by
  by_contra hn
  rw [attribute?, if_neg hn] at h
  split at h
  · simp at h
  · exact nodeAttribute?_ne_power p.nodes name h

theorem attribute?_ctrl (p : ControlPlane) : p.attribute? "ctrl" = some .power := if_pos rfl

theorem write_cases (name input : String) (p : ControlPlane) (site : Site) :
    (∃ on, (Event.write name input).switch? = some on ∧
        (Event.write name input).perform p site = p.setOn on site) ∨
      (Event.write name input).switch? = none ∧
        ∃ p', Rests p p' ∧ (Event.write name input).perform p site = (p', site) := by
  by_cases hname : name = "ctrl"
  · subst hname
    simp only [Event.switch?, ne_eq, not_true_eq_false, if_false]
    by_cases hon : begins input.toList "on" = true
    · refine .inl ⟨true, if_pos hon, ?_⟩
      simp only [Event.perform, write, attribute?_ctrl, hon, if_true, bind, StateT.bind]
      rfl
    · by_cases hoff : begins input.toList "off" = true
      · refine .inl ⟨false, by rw [if_neg hon, if_pos hoff], ?_⟩
        simp only [Event.perform, write, attribute?_ctrl, hon, hoff, if_true, bind, StateT.bind]
        rfl
      · refine .inr ⟨by rw [if_neg hon, if_neg hoff], p, .same p, ?_⟩
        simp only [Event.perform, write, attribute?_ctrl, hon, hoff, bind, StateT.bind]
        rfl
  · refine .inr ⟨by rw [Event.switch?, if_pos hname], ?_⟩
    rcases ha : p.attribute? name with _ | _ | _ | i | i | i
    case some.power => exact absurd (attribute?_power ha) hname
    case some.period =>
      simp only [Event.perform, write, ha]
      cases hms : parsePeriod input with
      | none => exact ⟨p, .same p, rfl⟩
      | some ms => exact ⟨_, setPeriod_rests ms p, rfl⟩
    case some.clear =>
      simp only [Event.perform, write, ha]
      by_cases hword : Text.trim input.toList = ['o', 'n'] ∨ Text.trim input.toList = ['1']
      · rw [if_pos hword]
        exact ⟨_, clear_rests i p, rfl⟩
      · rw [if_neg hword]
        exact ⟨p, .same p, rfl⟩
    all_goals
      simp only [Event.perform, write, ha]
      exact ⟨p, .same p, rfl⟩

theorem perform_cases (e : Event) (p : ControlPlane) (site : Site) :
    (∃ on, e.switch? = some on ∧ e.perform p site = p.setOn on site) ∨
      e = .shutdown ∨ (∃ h, e = .thread h) ∨
      e.switch? = none ∧ ∃ p', Rests p p' ∧ e.perform p site = (p', site) := by
  cases e with
  | setOn on => exact .inl ⟨on, rfl, rfl⟩
  | shutdown => exact .inr (.inl rfl)
  | thread h => exact .inr (.inr (.inl ⟨h, rfl⟩))
  | write name input =>
    rcases write_cases name input p site with h | h
    · exact .inl h
    · exact .inr (.inr (.inr h))
  | setPeriod ms => exact .inr (.inr (.inr ⟨rfl, _, setPeriod_rests ms p, rfl⟩))
  | clear i => exact .inr (.inr (.inr ⟨rfl, _, clear_rests i p, rfl⟩))
  | readHistory i => exact .inr (.inr (.inr ⟨rfl, _, readHistory_rests i p, rfl⟩))
  | readLast i => exact .inr (.inr (.inr ⟨rfl, _, .same p, rfl⟩))
  | read name => exact .inr (.inr (.inr ⟨rfl, _, read_rests name p, rfl⟩))

theorem same_or_turned (p : ControlPlane) (on : Bool) :
    (p.closed = true ∨ p.on = on) ∨ p.closed = false ∧ p.on = !on := by
  cases p.closed <;> cases p.on <;> cases on <;> simp

theorem setOn_same {on : Bool} (h : p.closed = true ∨ p.on = on) (site : Site) :
    p.setOn on site = (p, site) := by
  rw [setOn, if_pos (by simpa using h)]
  rfl

theorem setOn_true (hopen : p.closed = false) (hoff : p.on = false) (site : Site) :
    p.setOn true site =
      let started := Node.startAll p.pace p.nodes site
      ({ p with nodes := started.1.2, on := started.1.1.isNone }, started.2) := by
  rw [setOn, if_neg (by simp [hopen, hoff]), if_pos rfl]
  rfl

theorem setOn_false (hopen : p.closed = false) (hon : p.on = true) (site : Site) :
    p.setOn false site =
      let stopped := Node.stopAll p.pace p.nodes site
      ({ p with nodes := stopped.1, on := false }, stopped.2) := by
  rw [setOn, if_neg (by simp [hopen, hon]), if_neg Bool.false_ne_true]
  rfl

theorem setOn_eq (on : Bool) (p : ControlPlane) (site : Site) :
    ∃ nodes turned, (p.setOn on site).1 = { p with nodes := nodes, on := turned } := by
  rcases same_or_turned p on with hsame | ⟨hopen, hne⟩
  · rw [setOn_same hsame]
    exact ⟨p.nodes, p.on, rfl⟩
  · cases on with
    | true =>
      rw [setOn_true hopen hne]
      exact ⟨_, _, rfl⟩
    | false =>
      rw [setOn_false hopen hne]
      exact ⟨_, _, rfl⟩

theorem shutdown_eq (p : ControlPlane) (site : Site) :
    p.shutdown site =
      let stopped := Node.stopAll p.pace p.nodes site
      let discarded := Node.discardAll p.pace stopped.1 stopped.2
      ({ p with nodes := discarded.1, on := false, closed := true }, discarded.2) := rfl

def nodeAt (capacity i : Nat) (g : Group) : Node :=
  Node.ofGroup capacity { g with registry := { g.registry with place := i } }

theorem new_node (groups : List Group) (capacity : Nat) (pace : Pace) (limit i : Nat) :
    (new groups capacity pace limit).nodes[i]? = groups[i]?.map (nodeAt capacity i) :=
  List.getElem?_mapIdx

end ControlPlane

open ControlPlane Node

namespace ControlPlane.Rests

variable {p p' : ControlPlane}

theorem same_switch (h : Rests p p') : p'.on = p.on ∧ p'.closed = p.closed := by
  cases h <;> exact ⟨rfl, rfl⟩

theorem length_eq (h : Rests p p') : p'.nodes.length = p.nodes.length := by
  cases h with
  | same => rfl
  | paced => rfl
  | consumed => exact List.length_set

theorem each {P : PlaceProp} {log : Log} (hr : Rests p p') (hP : Stable P)
    (h : Each P p.nodes log) : Each P p'.nodes log := by
  cases hr with
  | same => exact h
  | paced => exact h
  | @consumed i n history hn hc =>
    refine h.set (Adds.nil rfl : Adds i [] log log) ?_ fun _ _ _ _ hj => hj
    rw [List.append_nil]
    exact hP.consume (h i n hn) hc

end ControlPlane.Rests

/-- Properties of samplers while their plane is off, while it is on and once it is closed, such that
no event disturbs them. -/
structure Regime where
  rest : SamplerProp
  run : SamplerProp
  ended : EndProp
  rest_readable : Readable rest
  run_readable : Readable run
  ended_readable : ∀ {i h h' ds}, ended i h ds → h.Consumed h' → ended i h' ds
  works : Working run
  starts : Starting rest run rest
  stops : Stopping run rest
  discards : Discarding rest ended

namespace Regime

variable (R : Regime)

def of (closed on : Bool) : PlaceProp :=
  if closed then Without R.ended else if on then With true R.run else With false R.rest

structure Holds (p : ControlPlane) (log : Log) : Prop where
  off_of_closed : p.closed = true → p.on = false
  each : Each (R.of p.closed p.on) p.nodes log

variable {R} {p : ControlPlane} {site : Site}

theorem of_open (on : Bool) : R.of false on = With on (if on then R.run else R.rest) := by
  cases on <;> rfl

theorem stable_rest : Stable (With false R.rest) := stable_resting R.rest_readable

theorem stable_run : Stable (With true R.run) := stable_running R.run_readable R.works

theorem stable_ended : Stable (Without R.ended) := stable_without R.ended_readable

theorem stable (closed on : Bool) : Stable (R.of closed on) := by
  cases closed with
  | true => exact stable_ended
  | false =>
    cases on with
    | true => exact stable_run
    | false => exact stable_rest

theorem not_running {closed : Bool} {i : Nat} {n : Node} {ds : List Deed}
    (h : R.of closed false i n ds) (s : Sampler) (w : Worker) (hs : n.sampler = some s) :
    s.state ≠ .running w := by
  cases closed with
  | true => exact Without.not_running h s w hs
  | false => exact With.not_running h s w hs

theorem Holds.resting {log : Log} (h : R.Holds p log) (hopen : p.closed = false)
    (hoff : p.on = false) {i : Nat} {n : Node} (hn : p.nodes[i]? = some n) :
    With false R.rest i n (deeds log i) := by
  have hi := h.each i n hn
  rwa [hopen, hoff] at hi

theorem Holds.has_sampler {log : Log} (h : R.Holds p log) (hopen : p.closed = false) {i : Nat}
    {n : Node} (hn : p.nodes[i]? = some n) :
    With p.on (if p.on then R.run else R.rest) i n (deeds log i) := by
  have hi := h.each i n hn
  rwa [hopen, of_open] at hi

theorem Holds.open_of_on {log : Log} (h : R.Holds p log) (hon : p.on = true) :
    p.closed = false := by
  by_contra hc
  rw [h.off_of_closed (by simpa using hc)] at hon
  cases hon

theorem Holds.running {log : Log} (h : R.Holds p log) (hon : p.on = true) {i : Nat} {n : Node}
    (hn : p.nodes[i]? = some n) : With true R.run i n (deeds log i) := by
  have hi := h.each i n hn
  rwa [h.open_of_on hon, hon] at hi

theorem Holds.without {log : Log} (h : R.Holds p log) (hc : p.closed = true) {i : Nat} {n : Node}
    (hn : p.nodes[i]? = some n) : Without R.ended i n (deeds log i) := by
  have hi := h.each i n hn
  rwa [hc] at hi

theorem Holds.stopAll (h : R.Holds p site.log) :
    Each (R.of p.closed false) (Node.stopAll p.pace p.nodes site).1
        (Node.stopAll p.pace p.nodes site).2.log ∧
      (Node.stopAll p.pace p.nodes site).1.length = p.nodes.length := by
  have heach := h.each
  cases hon : p.on with
  | false =>
    rw [hon] at heach
    exact sweepAll_each p.pace (stable _ _) (stable _ _)
      (fun i => turns_stop_resting p.pace i not_running) heach
  | true =>
    rw [h.open_of_on hon, hon] at heach
    rw [h.open_of_on hon]
    exact sweepAll_each p.pace stable_run stable_rest (R.stops.turns p.pace) heach

theorem Holds.setOn (h : R.Holds p site.log) (on : Bool) :
    R.Holds (p.setOn on site).1 (p.setOn on site).2.log ∧
      (p.setOn on site).1.nodes.length = p.nodes.length := by
  rcases same_or_turned p on with hsame | ⟨hopen, hne⟩
  · rw [setOn_same hsame]
    exact ⟨h, rfl⟩
  · have heach := h.each
    rw [hopen, hne] at heach
    cases on with
    | true =>
      obtain ⟨hlen, hdone⟩ := startAll_each p.pace stable_rest stable_run stable_rest
        stable_rest R.starts.starts (R.stops.turns p.pace) heach
      rw [setOn_true hopen hne]
      refine ⟨⟨fun hc => absurd hc (by simp [hopen]), ?_⟩, hlen⟩
      dsimp only
      rw [hopen]
      rcases hdone with ⟨he, hruns⟩ | ⟨e, k, -, he, hhalted⟩
      · rw [he]
        exact hruns
      -- Where the start has halted does not matter here: all nodes rest again.
      · rw [he]
        refine hhalted.mono fun j n ds _ hj => ?_
        unfold Halted at hj
        rwa [ite_self, ite_self] at hj
    | false =>
      obtain ⟨hidle, hlen⟩ := h.stopAll
      rw [setOn_false hopen hne]
      exact ⟨⟨fun _ => rfl, hidle⟩, hlen⟩

theorem turns_discard (closed : Bool) (pace : Pace) (i : Nat) :
    Turns (discard pace) i (R.of closed false) (Without R.ended) := by
  cases closed with
  | true => exact turns_discard_without pace i
  | false => exact R.discards.turns pace i

theorem Holds.shutdown (h : R.Holds p site.log) :
    R.Holds (p.shutdown site).1 (p.shutdown site).2.log ∧
      (p.shutdown site).1.nodes.length = p.nodes.length := by
  obtain ⟨hstopped, hlen⟩ := h.stopAll
  obtain ⟨hended, hlen'⟩ := sweepAll_each p.pace (stable p.closed false) stable_ended
    (turns_discard p.closed p.pace) hstopped
  rw [shutdown_eq]
  exact ⟨⟨fun _ => rfl, hended⟩, hlen'.trans hlen⟩

theorem Holds.thread (h : R.Holds p site.log) (e : Happening) :
    R.Holds ((Event.thread e).perform p site).1 ((Event.thread e).perform p site).2.log ∧
      ((Event.thread e).perform p site).1.nodes.length = p.nodes.length :=
  ⟨⟨h.off_of_closed, happen_each (stable _ _) h.each p.pace e⟩, length_happen p.pace e⟩

theorem Holds.rests {p' : ControlPlane} {log : Log} (h : R.Holds p log) (hr : Rests p p') :
    R.Holds p' log ∧ p'.nodes.length = p.nodes.length := by
  obtain ⟨hon, hclosed⟩ := hr.same_switch
  refine ⟨⟨?_, ?_⟩, hr.length_eq⟩
  · rw [hon, hclosed]
    exact h.off_of_closed
  · rw [hon, hclosed]
    exact hr.each (stable _ _) h.each

theorem Holds.perform (h : R.Holds p site.log) (e : Event) :
    R.Holds (e.perform p site).1 (e.perform p site).2.log ∧
      (e.perform p site).1.nodes.length = p.nodes.length := by
  rcases perform_cases e p site with ⟨on, -, he⟩ | rfl | ⟨happening, rfl⟩ | ⟨-, p', hr, he⟩
  · rw [he]
    exact h.setOn on
  · exact h.shutdown
  · exact h.thread happening
  · rw [he]
    exact h.rests hr

theorem Holds.performAll (events : List Event) (h : R.Holds p site.log) :
    R.Holds (performAll events p site).1 (performAll events p site).2.log ∧
      (performAll events p site).1.nodes.length = p.nodes.length := by
  induction events generalizing p site with
  | nil => exact ⟨h, rfl⟩
  | cons e events ih =>
    obtain ⟨hnow, hlen⟩ := h.perform e
    obtain ⟨hlater, hlen'⟩ := ih hnow
    rw [performAll_cons]
    exact ⟨hlater, hlen'.trans hlen⟩

theorem nodeAt_with {A : SamplerProp} {capacity i : Nat} {g : Group} {ds : List Deed}
    (h : ∀ s, s.state = .stopped { g.registry with place := i } →
      A i s (History.new g.registry.schema capacity) ds) :
    With false A i (nodeAt capacity i g) ds := by
  refine ⟨?_, _, rfl, rfl, h _ rfl⟩
  rintro s ⟨⟩
  rfl

theorem holds_new {groups : List Group} {capacity limit : Nat} {pace : Pace} {log : Log}
    (h : ∀ i g s, groups[i]? = some g → s.state = .stopped { g.registry with place := i } →
      R.rest i s (History.new g.registry.schema capacity) (deeds log i)) :
    R.Holds (ControlPlane.new groups capacity pace limit) log := by
  refine ⟨fun _ => rfl, ?_⟩
  intro i n hn
  rw [new_node] at hn
  obtain ⟨g, hg, rfl⟩ := Option.map_eq_some_iff.mp hn
  exact nodeAt_with fun s hs => h i g s hg hs

/-- A property of a history and of what has been done at its place that lasts whatever becomes of the
sampler. -/
structure Lasting (Q : EndProp) : Prop where
  read : ∀ {i h h' ds}, Q i h ds → h.Consumed h' → Q i h' ds
  worked : ∀ {i w w' h h' ds es}, Q i h ds → Worker.Works w h es w' h' → Q i h' (ds ++ es)
  acted : ∀ {i h ds es}, Q i h ds → (∀ d ∈ es, d = .notStarted ∨ ∃ name act, d = .call name act) →
    Q i h (ds ++ es)

theorem acted_calls (act : Act) (names : List String) :
    ∀ d ∈ Registry.calls act names, d = .notStarted ∨ ∃ name act, d = .call name act := by
  intro d hd
  obtain ⟨name, -, rfl⟩ := List.mem_map.mp hd
  exact .inr ⟨name, act, rfl⟩

theorem acted_exits (r : Registry) :
    ∀ d ∈ r.exits, d = .notStarted ∨ ∃ name act, d = .call name act := by
  unfold Registry.exits
  split_ifs
  · exact acted_calls .exit r.names
  · exact nofun

def lasting (Q : EndProp) (hQ : Lasting Q) : Regime where
  rest i _ h ds := Q i h ds
  run i _ h ds := Q i h ds
  ended i h ds := Q i h ds
  rest_readable := ⟨hQ.read⟩
  run_readable := ⟨hQ.read⟩
  ended_readable := hQ.read
  works := ⟨fun h _ hw => hQ.worked h hw⟩
  starts := {
    started := fun h _ _ _ _ => hQ.acted h (acted_calls _ _)
    failed := fun h _ => hQ.acted h (List.forall_mem_append.mpr
      ⟨acted_calls _ _, List.forall_mem_cons.mpr ⟨.inl rfl, acted_exits _⟩⟩)
    lost := fun h _ => h }
  stops := ⟨fun h _ hw _ => hQ.worked h hw⟩
  discards := ⟨fun h _ => hQ.acted h (acted_exits _), fun h _ => h⟩

theorem Holds.to_lasting {Q : EndProp} {log : Log} (h : R.Holds p log) (hQ : Lasting Q)
    (hq : ∀ i n, p.nodes[i]? = some n → Q i n.history (deeds log i)) :
    (lasting Q hQ).Holds p log := by
  refine ⟨h.off_of_closed, ?_⟩
  intro i n hn
  cases hc : p.closed with
  | true => exact ⟨(h.without hc hn).1, hq i n hn⟩
  | false =>
    obtain ⟨hp, s, hs, hrun, -⟩ := h.has_sampler hc hn
    rw [Regime.of_open]
    refine ⟨hp, s, hs, hrun, ?_⟩
    cases p.on <;> exact hq i n hn

theorem Holds.of_lasting {Q : EndProp} {hQ : Lasting Q} {log : Log}
    (h : (lasting Q hQ).Holds p log) {i : Nat} {n : Node} (hn : p.nodes[i]? = some n) :
    Q i n.history (deeds log i) := by
  cases hc : p.closed with
  | true => exact (h.without hc hn).2
  | false =>
    obtain ⟨-, s, -, -, hq⟩ := h.has_sampler hc hn
    cases hon : p.on <;> rwa [hon] at hq

end Regime

end NodeTelemetry
