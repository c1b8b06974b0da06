import Mathlib
import NodeTelemetry.Proofs.PlaneRun

namespace NodeTelemetry

open Log ControlPlane Node

def Sampler.IsStopped (s : Sampler) : Prop := ∃ r, s.state = .stopped r

def Sampler.IsLost (s : Sampler) : Prop := s.state = .lost

def Node.samplerAt? (nodes : List Node) (i : Nat) : Option Sampler := nodes[i]?.bind Node.sampler

def Log.Notes (before after : Log) (i : Nat) (d : Deed) : Prop :=
  ∃ es, deeds after i = deeds before i ++ es ∧ d ∈ es

/-- All samplers were to be started, and the one at place `i` could not be: those before it have been
started and stopped again, unless their threads broke down meanwhile, and those after it are as they
were. -/
structure StartFails (i : Nat) (before after : List Sampler) (log log' : Log) : Prop where
  failing : ∃ s s', before[i]? = some s ∧ after[i]? = some s' ∧ s'.IsLost ∧
    (s.IsLost ∨ s.IsStopped ∧ log.Notes log' i .notStarted)
  earlier : ∀ j < i, ∃ s s', before[j]? = some s ∧ after[j]? = some s' ∧ s.IsStopped ∧
    (s'.IsStopped ∨ s'.IsLost ∧ log.Notes log' j .brokeDown)
  later : ∀ j, i < j → after[j]? = before[j]?

namespace ControlPlane

def lastSwitch (events : List Event) : Bool := (events.filterMap Event.switch?).getLastD false

theorem mem_samplers {p : ControlPlane} {s : Sampler} :
    s ∈ p.samplers ↔ ∃ i, samplerAt? p.nodes i = some s := by
  rw [samplers, List.mem_filterMap]
  constructor
  · rintro ⟨n, hn, hs⟩
    obtain ⟨i, hi⟩ := List.mem_iff_getElem?.mp hn
    exact ⟨i, Option.bind_eq_some_iff.mpr ⟨n, hi, hs⟩⟩
  · rintro ⟨i, hi⟩
    obtain ⟨n, hn, hs⟩ := Option.bind_eq_some_iff.mp hi
    exact ⟨n, List.mem_iff_getElem?.mpr ⟨i, hn⟩, hs⟩

theorem filterMap_sampler_getElem? {nodes : List Node} (h : ∀ n ∈ nodes, ∃ s, n.sampler = some s)
    (i : Nat) : (nodes.filterMap Node.sampler)[i]? = samplerAt? nodes i := by
  induction nodes generalizing i with
  | nil => rfl
  | cons n nodes ih =>
    obtain ⟨s, hs⟩ := h n List.mem_cons_self
    rw [List.filterMap_cons_some hs]
    cases i with
    | zero => exact hs.symm
    | succ i => exact ih (fun m hm => h m (List.mem_cons_of_mem _ hm)) i

end ControlPlane

namespace Node

theorem broken_of_works {w w' : Worker} {h h' : History} {ds : List Deed}
    (hw : Worker.Works w h ds w' h') (hb : w' = .broken) : w = .broken ∨ .brokeDown ∈ ds := by
  cases hw with
  | rests => exact .inl hb
  | goesOn => cases hb
  | leaves => cases hb
  | breaksDown => exact .inr (by simp)

variable (nodes₀ : List Node) (log₀ : Log)

def Waits : SamplerProp := fun i s _ ds => samplerAt? nodes₀ i = some s ∧ ds = deeds log₀ i

def WasStopped (i : Nat) : Prop := ∃ s, samplerAt? nodes₀ i = some s ∧ s.IsStopped

def HasStarted : SamplerProp := fun i s _ ds => WasStopped nodes₀ i ∧
  ∃ es, ds = deeds log₀ i ++ es ∧ (s.state = .running .broken → .brokeDown ∈ es)

def HasFailed : SamplerProp := fun i s _ ds => s.IsLost ∧ ∃ s₀, samplerAt? nodes₀ i = some s₀ ∧
  (s₀.IsLost ∨ s₀.IsStopped ∧ ∃ es, ds = deeds log₀ i ++ es ∧ .notStarted ∈ es)

def HasReturned : SamplerProp := fun i s _ ds => WasStopped nodes₀ i ∧
  (s.IsStopped ∨ s.IsLost ∧ ∃ es, ds = deeds log₀ i ++ es ∧ .brokeDown ∈ es)

variable {nodes₀ log₀}

theorem working_started : Working (HasStarted nodes₀ log₀) where
  worked := by
    rintro i s w w' h h' ds es' ⟨hwas, es, rfl, hbroken⟩ hst hw
    refine ⟨hwas, es ++ es', List.append_assoc _ _ _, fun hb => ?_⟩
    rw [List.mem_append]
    refine (broken_of_works hw (SamplerState.running.inj hb)).imp_left ?_
    rintro rfl
    exact hbroken hst

theorem starting_waits :
    Starting (Waits nodes₀ log₀) (HasStarted nodes₀ log₀) (HasFailed nodes₀ log₀) where
  started := by
    rintro i s r r' h ds ⟨hs, rfl⟩ hst - - -
    exact ⟨⟨s, hs, r, hst⟩, _, rfl, by simp⟩
  failed := by
    rintro i s r h ds ⟨hs, rfl⟩ hst
    exact ⟨rfl, s, hs, .inr ⟨⟨r, hst⟩, _, rfl, by simp⟩⟩
  lost := by
    rintro i s h ds ⟨hs, -⟩ hst
    exact ⟨hst, s, hs, .inl hst⟩

theorem stopping_started : Stopping (HasStarted nodes₀ log₀) (HasReturned nodes₀ log₀) where
  stopped := by
    rintro i s w w' h h' ds es' ⟨hwas, es, rfl, hbroken⟩ hst hw hended
    refine ⟨hwas, ?_⟩
    cases w' with
    | working r p => exact absurd rfl (hended r p)
    | stopped r => exact .inl ⟨r, rfl⟩
    | broken =>
      refine .inr ⟨rfl, es ++ es', List.append_assoc _ _ _, ?_⟩
      rw [List.mem_append]
      refine (broken_of_works hw rfl).imp_left ?_
      rintro rfl
      exact hbroken hst

end Node

namespace ControlPlane

variable {p : ControlPlane} {site : Site} {log : Log}

def agreement (lost : Nat → Prop) : Regime where
  rest i s _ _ := lost i → s.IsLost
  run i _ _ _ := ¬ lost i
  ended _ _ _ := True
  rest_readable := ⟨fun hl _ => hl⟩
  run_readable := ⟨fun hl _ => hl⟩
  ended_readable := fun h _ => h
  works := ⟨fun hl _ _ => hl⟩
  starts := {
    started := by
      intro i s r r' h ds hl hst _ _ _ hi
      rw [hl hi] at hst
      cases hst
    failed := fun _ _ _ => rfl
    lost := fun hl _ => hl }
  stops := ⟨fun hl _ _ _ hi => absurd hi hl⟩
  discards := ⟨fun _ _ => trivial, fun _ _ => trivial⟩

def Agrees (p : ControlPlane) (log : Log) : Prop := (agreement fun _ => False).Holds p log

theorem agrees_new (groups : List Group) (capacity : Nat) (pace : Pace) (limit : Nat) (log : Log) :
    Agrees (new groups capacity pace limit) log := Regime.holds_new fun _ _ _ _ _ => False.elim

theorem Agrees.not_running (h : Agrees p log) (hoff : p.on = false) {s : Sampler}
    (hs : s ∈ p.samplers) : s.isRunning = false := by
  obtain ⟨i, hi⟩ := mem_samplers.mp hs
  obtain ⟨n, hn, hns⟩ := Option.bind_eq_some_iff.mp hi
  cases hc : p.closed with
  | true =>
    rw [(h.without hc hn).1] at hns
    cases hns
  | false =>
    obtain ⟨-, s', hs', hidle, -⟩ := h.resting hc hoff hn
    rw [hns] at hs'
    cases hs'
    exact hidle

theorem Agrees.all_running (h : Agrees p log) (hon : p.on = true) {s : Sampler}
    (hs : s ∈ p.samplers) : s.isRunning = true := by
  obtain ⟨i, hi⟩ := mem_samplers.mp hs
  obtain ⟨n, hn, hns⟩ := Option.bind_eq_some_iff.mp hi
  obtain ⟨-, s', hs', hrun, -⟩ := h.running hon hn
  rw [hns] at hs'
  cases hs'
  exact hrun

theorem Agrees.has_sampler (h : Agrees p log) (hopen : p.closed = false) (n : Node)
    (hn : n ∈ p.nodes) : ∃ s, n.sampler = some s := by
  obtain ⟨i, hi⟩ := List.mem_iff_getElem?.mp hn
  obtain ⟨-, s, hs, -⟩ := Regime.Holds.has_sampler h hopen hi
  exact ⟨s, hs⟩

theorem Agrees.samplers_getElem? (h : Agrees p log) (hopen : p.closed = false) (i : Nat) :
    p.samplers[i]? = samplerAt? p.nodes i :=
  filterMap_sampler_getElem? (h.has_sampler hopen) i

theorem Agrees.length_samplers (h : Agrees p log) (hopen : p.closed = false) :
    p.samplers.length = p.nodes.length := by
  rw [samplers, List.length_filterMap_eq_countP, List.countP_eq_length]
  intro n hn
  obtain ⟨s, hs⟩ := h.has_sampler hopen n hn
  rw [hs]
  rfl

theorem Agrees.samplers_nil (h : Agrees p log) (hc : p.closed = true) :
    p.samplers = [] := by
  refine List.filterMap_eq_nil_iff.mpr fun n hn => ?_
  obtain ⟨i, hi⟩ := List.mem_iff_getElem?.mp hn
  exact (h.without hc hi).1

theorem perform_closed (e : Event) (hc : p.closed = true) :
    (e.perform p site).1.closed = true := by
  rcases perform_cases e p site with ⟨on, -, he⟩ | rfl | ⟨happening, rfl⟩ | ⟨-, p', hr, he⟩
  · rw [he, setOn_same (.inl hc)]
    exact hc
  · rfl
  · exact hc
  · rw [he]
    cases hr <;> exact hc

theorem performAll_closed (events : List Event) (hc : p.closed = true) :
    (performAll events p site).1.closed = true := by
  induction events generalizing p site with
  | nil => exact hc
  | cons e events ih =>
    rw [performAll_cons]
    exact ih (perform_closed e hc)

theorem Agrees.lost_stays (h : Agrees p site.log) (hopen : p.closed = false) (hoff : p.on = false)
    {k : Nat} {s : Sampler} (hs : samplerAt? p.nodes k = some s) (hlost : s.IsLost)
    (events : List Event) :
    (performAll events p site).1.on = false ∧ ((performAll events p site).1.closed = true ∨
      ∃ s', samplerAt? (performAll events p site).1.nodes k = some s' ∧ s'.IsLost) := by
  obtain ⟨n, hn, hns⟩ := Option.bind_eq_some_iff.mp hs
  -- Place `k` is lost now, and in this regime a plane with a lost place is never on.
  have hstuck : (agreement (· = k)).Holds p site.log := by
    refine ⟨h.off_of_closed, ?_⟩
    rw [hopen, hoff]
    intro i m hm
    obtain ⟨hp, s', hs', hidle, -⟩ := h.resting hopen hoff hm
    refine ⟨hp, s', hs', hidle, ?_⟩
    rintro rfl
    rw [hn] at hm
    cases hm
    rw [hns] at hs'
    cases hs'
    exact hlost
  obtain ⟨hafter, hlen⟩ := hstuck.performAll events
  generalize performAll events p site = after at hafter hlen ⊢
  have hk : k < after.1.nodes.length := by
    rw [hlen]
    exact (List.getElem?_eq_some_iff.mp hn).1
  have hn' := List.getElem?_eq_getElem hk
  cases hon : after.1.on with
  | true =>
    obtain ⟨-, _, -, -, hne⟩ := hafter.running hon hn'
    exact absurd rfl hne
  | false =>
    refine ⟨rfl, ?_⟩
    cases hc : after.1.closed with
    | true => exact .inl rfl
    | false =>
      obtain ⟨-, s', hs', -, hl⟩ := hafter.resting hc hon hn'
      refine .inr ⟨s', ?_, hl rfl⟩
      rw [samplerAt?, hn']
      exact hs'

theorem startFails_of_halted {q : ControlPlane} {log' : Log} {k : Nat} (h : Agrees p log)
    (hopen : p.closed = false) (hq : Agrees q log') (hopen' : q.closed = false)
    (hlen : q.nodes.length = p.nodes.length) (hk : k < p.nodes.length)
    (heach : Each (Halted k (With false (Waits p.nodes log)) (With false (HasFailed p.nodes log))
      (With false (HasReturned p.nodes log))) q.nodes log') :
    StartFails k p.samplers q.samplers log log' := by
  have hnode (j : Nat) (hj : j < p.nodes.length) : ∃ n, q.nodes[j]? = some n :=
    ⟨_, List.getElem?_eq_getElem (by omega)⟩
  have hat {j : Nat} {n : Node} {s : Sampler} (hn : q.nodes[j]? = some n)
      (hs : n.sampler = some s) : q.samplers[j]? = some s := by
    rw [hq.samplers_getElem? hopen', samplerAt?, hn]
    exact hs
  refine ⟨?_, ?_, ?_⟩
  · obtain ⟨n, hn⟩ := hnode k hk
    have hf := heach k n hn
    rw [Halted, if_neg (lt_irrefl k), if_pos rfl] at hf
    obtain ⟨-, s', hs', -, hlost, s, hs, hcause⟩ := hf
    exact ⟨s, s', (h.samplers_getElem? hopen k).trans hs, hat hn hs', hlost, hcause⟩
  · intro j hj
    obtain ⟨n, hn⟩ := hnode j (by omega)
    have hr := heach j n hn
    rw [Halted, if_pos hj] at hr
    obtain ⟨-, s', hs', -, ⟨s, hs, hstopped⟩, hend⟩ := hr
    exact ⟨s, s', (h.samplers_getElem? hopen j).trans hs, hat hn hs', hstopped, hend⟩
  · intro j hj
    rw [h.samplers_getElem? hopen]
    cases hn : q.nodes[j]? with
    | none =>
      have hge := List.getElem?_eq_none_iff.mp hn
      rw [hq.samplers_getElem? hopen', samplerAt?, samplerAt?, hn,
        List.getElem?_eq_none (by omega)]
    | some n =>
      have hw := heach j n hn
      rw [Halted, if_neg (by omega), if_neg (by omega)] at hw
      obtain ⟨-, s, hs, -, hbefore, -⟩ := hw
      rw [hat hn hs, hbefore]

theorem Agrees.start_fails (h : Agrees p site.log) (hopen : p.closed = false)
    (hoff : p.on = false) (hfail : (p.setOn true site).1.on = false) :
    ∃ i, StartFails i p.samplers (p.setOn true site).1.samplers site.log
      (p.setOn true site).2.log := by
  have hwaits : Each (With false (Waits p.nodes site.log)) p.nodes site.log := by
    intro i n hn
    obtain ⟨hp, s, hs, hidle, -⟩ := h.resting hopen hoff hn
    refine ⟨hp, s, hs, hidle, ?_, rfl⟩
    rw [samplerAt?, hn]
    exact hs
  obtain ⟨hafter, hlen⟩ := h.setOn true
  obtain ⟨-, ⟨he, -⟩ | ⟨e, k, hk, -, hhalted⟩⟩ := startAll_each p.pace
    (stable_resting ⟨fun hw _ => hw⟩) (stable_running ⟨fun hw _ => hw⟩ working_started)
    (stable_resting ⟨fun hw _ => hw⟩) (stable_resting ⟨fun hw _ => hw⟩) starting_waits.starts
    (stopping_started.turns p.pace) hwaits
  · rw [setOn_true hopen hoff] at hfail
    dsimp only at hfail
    rw [he] at hfail
    cases hfail
  · rw [setOn_true hopen hoff] at hafter hlen ⊢
    exact ⟨k, startFails_of_halted h hopen hafter hopen hlen hk hhalted⟩

def Obeys (asked : Bool) (p : ControlPlane) : Prop :=
  p.closed = true ∨ p.on = asked ∨
    p.on = false ∧ ∃ k s, samplerAt? p.nodes k = some s ∧ s.IsLost

theorem Agrees.obeys_setOn (h : Agrees p site.log) (on : Bool) :
    Obeys on (p.setOn on site).1 := by
  rcases same_or_turned p on with hsame | ⟨hopen, hne⟩
  · rw [setOn_same hsame]
    exact hsame.imp_right .inl
  · cases on with
    | false =>
      rw [setOn_false hopen hne]
      exact .inr (.inl rfl)
    | true =>
      cases hdone : (p.setOn true site).1.on with
      | true => exact .inr (.inl hdone)
      | false =>
        obtain ⟨k, hfail⟩ := h.start_fails hopen hne hdone
        obtain ⟨-, s, -, hs, hlost, -⟩ := hfail.failing
        obtain ⟨i, hi⟩ := mem_samplers.mp (List.mem_of_getElem? hs)
        exact .inr (.inr ⟨hdone, i, s, hi, hlost⟩)

theorem Agrees.obeys_perform {asked : Bool} (h : Agrees p site.log) (ho : Obeys asked p)
    (e : Event) : Obeys (e.switch?.getD asked) (e.perform p site).1 := by
  rcases ho with hc | hon | ⟨hoff, k, s, hs, hlost⟩
  · exact .inl (perform_closed e hc)
  · rcases perform_cases e p site with ⟨on, hs, he⟩ | rfl | ⟨happening, rfl⟩ | ⟨hs, p', hr, he⟩
    · rw [he, hs]
      exact h.obeys_setOn on
    · exact .inl rfl
    · exact .inr (.inl hon)
    · rw [he, hs]
      refine .inr (.inl ?_)
      cases hr <;> exact hon
  · cases hclosed : p.closed with
    | true => exact .inl (perform_closed e hclosed)
    | false =>
      obtain ⟨hoff', hc | ⟨s', hs', hlost'⟩⟩ := h.lost_stays hclosed hoff hs hlost [e]
      · exact .inl hc
      · exact .inr (.inr ⟨hoff', k, s', hs', hlost'⟩)

theorem Agrees.obeys_performAll {asked : Bool} (events : List Event) (h : Agrees p site.log)
    (ho : Obeys asked p) :
    Obeys ((events.filterMap Event.switch?).getLastD asked) (performAll events p site).1 := by
  induction events generalizing p site asked with
  | nil => exact ho
  | cons e events ih =>
    have hlater := ih (h.perform e).1 (h.obeys_perform ho e)
    rw [performAll_cons, List.filterMap_cons]
    cases hs : e.switch? with
    | none =>
      rw [hs] at hlater
      exact hlater
    | some on =>
      rw [hs] at hlater
      rw [List.getLastD_cons]
      exact hlater

/-- Whatever is asked of a plane in any order, and whatever fails meanwhile, no sampler runs while it
is off and all run while it is on; it stays off and without samplers once it is closed, and off once
it has lost one; otherwise the switch is where it was last asked to be. -/
theorem switch_agrees_with_samplers (groups : List Group) (capacity : Nat) (pace : Pace)
    (limit : Nat) (site : Site) (events : List Event) :
    let run := performAll events (new groups capacity pace limit) site
    let p := run.1
    (p.closed = false → p.samplers.length = groups.length) ∧
    (p.on = false → ∀ s ∈ p.samplers, s.IsStopped ∨ s.IsLost) ∧
    (p.on = true → ∀ s ∈ p.samplers, s.isRunning = true) ∧
    (p.closed = true → ∀ later, let q := (performAll later p run.2).1
      q.closed = true ∧ q.on = false ∧ q.samplers = []) ∧
    (p.closed = false → p.on = false → (p.setOn true run.2).1.on = false →
      (∀ s ∈ (p.setOn true run.2).1.samplers, s.isRunning = false) ∧
        ∃ i, StartFails i p.samplers (p.setOn true run.2).1.samplers run.2.log
          (p.setOn true run.2).2.log) ∧
    ((∃ s ∈ p.samplers, s.IsLost) → p.on = false →
      ∀ later, (performAll later p run.2).1.on = false) ∧
    (p.closed = false → (∀ s ∈ p.samplers, ¬ s.IsLost) → p.on = lastSwitch events) := by
  intro run p
  have hnew := agrees_new groups capacity pace limit site.log
  obtain ⟨h, hlen⟩ : Agrees p run.2.log ∧
      p.nodes.length = (new groups capacity pace limit).nodes.length := hnew.performAll events
  refine ⟨?_, ?_, ?_, ?_, ?_, ?_, ?_⟩
  · intro hopen
    rw [h.length_samplers hopen, hlen]
    exact List.length_mapIdx
  · intro hoff s hs
    exact Sampler.isRunning_false.mp (h.not_running hoff hs)
  · intro hon s hs
    exact h.all_running hon hs
  · intro hc later q
    have hq : Agrees q (performAll later p run.2).2.log := (h.performAll later).1
    have hqc : q.closed = true := performAll_closed later hc
    exact ⟨hqc, hq.off_of_closed hqc, hq.samplers_nil hqc⟩
  · intro hopen hoff hfail
    have hafter : Agrees (p.setOn true run.2).1 (p.setOn true run.2).2.log := (h.setOn true).1
    exact ⟨fun s hs => hafter.not_running hfail hs, h.start_fails hopen hoff hfail⟩
  · rintro ⟨s, hs, hlost⟩ hoff later
    obtain ⟨i, hi⟩ := mem_samplers.mp hs
    have hopen : p.closed = false := by
      by_contra hc
      rw [h.samplers_nil (by simpa using hc)] at hs
      cases hs
    exact (h.lost_stays hopen hoff hi hlost later).1
  · intro hopen hfound
    have ho : Obeys false (new groups capacity pace limit) := .inr (.inl rfl)
    rcases hnew.obeys_performAll events ho with hc | hon | ⟨-, k, s, hs, hlost⟩
    · rw [hc] at hopen
      cases hopen
    · exact hon
    · exact absurd hlost (hfound s (mem_samplers.mpr ⟨k, hs⟩))

end ControlPlane

end NodeTelemetry
