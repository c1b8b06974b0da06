import Mathlib
import NodeTelemetry.Proofs.PlaneRules

namespace NodeTelemetry

open Log Registry Worker

theorem Worker.placed_working {i : Nat} {r : Registry} {p : Phase} (h : r.place = i) :
    (Worker.working r p).Placed i := by
  refine ⟨?_, by simp⟩
  rintro r p ⟨⟩
  exact h

theorem SamplerState.ofEnded_placed {i : Nat} {w : Worker} (h : w.Placed i) :
    (ofEnded w).Placed i := by
  cases w with
  | working r p => trivial
  | stopped r => exact h.2 r rfl
  | broken => trivial

namespace Sampler

theorem isRunning_true {s : Sampler} : s.isRunning = true ↔ ∃ w, s.state = .running w := by
  unfold isRunning
  cases s.state <;> simp

theorem isRunning_false {s : Sampler} :
    s.isRunning = false ↔ (∃ r, s.state = .stopped r) ∨ s.state = .lost := by
  unfold isRunning
  cases s.state <;> simp

end Sampler

namespace Node

abbrev SamplerProp := Nat → Sampler → History → List Deed → Prop

def With (running : Bool) (A : SamplerProp) : PlaceProp := fun i n ds =>
  n.Placed i ∧ ∃ s, n.sampler = some s ∧ s.isRunning = running ∧ A i s n.history ds

abbrev EndProp := Nat → History → List Deed → Prop

def Without (E : EndProp) : PlaceProp := fun i n ds => n.sampler = none ∧ E i n.history ds

structure Readable (A : SamplerProp) : Prop where
  read : ∀ {i s h h' ds}, A i s h ds → h.Consumed h' → A i s h' ds

structure Working (A : SamplerProp) : Prop where
  worked : ∀ {i s w w' h h' ds es}, A i s h ds → s.state = .running w → Works w h es w' h' →
    A i { s with state := .running w' } h' (ds ++ es)

structure Starting (A B C : SamplerProp) : Prop where
  started : ∀ {i s r r' h ds}, A i s h ds → s.state = .stopped r → r.Continues r' →
    r'.active = r.active → r'.lastSample = r.lastSample →
      B i { s with state := .running (.working r' .checking) } h (ds ++ calls .reset r.names)
  failed : ∀ {i s r h ds}, A i s h ds → s.state = .stopped r →
    C i { s with state := .lost } h (ds ++ (calls .reset r.names ++ .notStarted :: r.exits))
  lost : ∀ {i s h ds}, A i s h ds → s.state = .lost → C i s h ds

structure Stopping (A B : SamplerProp) : Prop where
  stopped : ∀ {i s w w' h h' ds es}, A i s h ds → s.state = .running w → Works w h es w' h' →
    (∀ r p, w' ≠ .working r p) → B i { s with state := .ofEnded w' } h' (ds ++ es)

structure Discarding (A : SamplerProp) (E : EndProp) : Prop where
  released : ∀ {i s r h ds}, A i s h ds → s.state = .stopped r → E i h (ds ++ r.exits)
  lost : ∀ {i s h ds}, A i s h ds → s.state = .lost → E i h ds

variable {n n' : Node} {s : Sampler} {state : SamplerState} {i : Nat} {ds : List Deed}
  {A B C : SamplerProp} {E : EndProp}

@[simp]
theorem withState_placed : (n.withState s state).Placed i ↔ state.Placed i := by
  simp [Placed, withState]

theorem placed_history {h : History} : Placed i { n with history := h } ↔ n.Placed i := Iff.rfl

theorem Placed.of_state (hp : n.Placed i) (hs : n.sampler = some s) (hst : s.state = state) :
    state.Placed i := hst ▸ hp s hs

theorem Drifts.placed (hd : Drifts n ds n') (hp : n.Placed i) : n'.Placed i := by
  cases hd with
  | rests => exact hp
  | works hs hw hd =>
    rw [placed_history, withState_placed]
    exact hd.placed (hp.of_state hs hw)

theorem With.not_running (h : With false A i n ds) (s : Sampler) (w : Worker)
    (hs : n.sampler = some s) : s.state ≠ .running w := by
  obtain ⟨-, s', hs', hidle, -⟩ := h
  rw [hs] at hs'
  cases hs'
  intro hw
  rw [Sampler.isRunning_true.mpr ⟨w, hw⟩] at hidle
  cases hidle

theorem Without.not_running (h : Without E i n ds) (s : Sampler) (w : Worker)
    (hs : n.sampler = some s) : s.state ≠ .running w := by
  rw [h.1] at hs
  cases hs

theorem Drifts.of_not_running (hd : Drifts n ds n')
    (hn : ∀ s w, n.sampler = some s → s.state ≠ .running w) : n' = n ∧ ds = [] := by
  cases hd with
  | rests => exact ⟨rfl, rfl⟩
  | works hs hw => exact absurd hw (hn _ _ hs)

theorem stable_resting (hA : Readable A) : Stable (With false A) where
  placed := And.left
  drift h hd := by
    obtain ⟨rfl, rfl⟩ := hd.of_not_running h.not_running
    rwa [List.append_nil]
  consume := fun ⟨hp, s, hs, hidle, hm⟩ hc => ⟨hp, s, hs, hidle, hA.read hm hc⟩

theorem stable_running (hA : Readable A) (hworks : Working A) : Stable (With true A) where
  placed := And.left
  drift := by
    rintro i n n' ds es ⟨hp, s, hs, hrun, hm⟩ hd
    refine ⟨hd.placed hp, ?_⟩
    cases hd with
    | rests =>
      rw [List.append_nil]
      exact ⟨s, hs, hrun, hm⟩
    | works hs' hst hw =>
      rw [hs] at hs'
      cases hs'
      exact ⟨_, rfl, rfl, hworks.worked hm hst hw⟩
  consume := fun ⟨hp, s, hs, hrun, hm⟩ hc => ⟨hp, s, hs, hrun, hA.read hm hc⟩

theorem stable_without (hE : ∀ {i h h' ds}, E i h ds → h.Consumed h' → E i h' ds) :
    Stable (Without E) where
  placed := by
    rintro i n ds ⟨hn, -⟩ s hs
    rw [hn] at hs
    cases hs
  drift h hd := by
    obtain ⟨rfl, rfl⟩ := hd.of_not_running h.not_running
    rwa [List.append_nil]
  consume := fun ⟨hs, h⟩ hc => ⟨hs, hE h hc⟩

theorem Starting.starts (h : Starting A B C) : Starts (With false A) (With true B) (With false C) := by
  rintro i n site ⟨hp, s, hs, hidle, hm⟩
  rcases Sampler.isRunning_false.mp hidle with ⟨r, hst⟩ | hst
  · have hr : r.place = i := hp.of_state hs hst
    rcases start_stopped hs hst hr site with ⟨r', hc, ha, hl, he, hadds⟩ | ⟨he, hadds⟩
    all_goals rw [he]
    · exact ⟨_, hadds, .inl ⟨rfl, withState_placed.mpr (placed_working (hc.place_eq.trans hr)),
        _, rfl, rfl, h.started hm hst hc ha hl⟩⟩
    · exact ⟨_, hadds, .inr ⟨rfl, withState_placed.mpr trivial, _, rfl, rfl, h.failed hm hst⟩⟩
  · rw [start_lost hs hst]
    refine ⟨[], .nil rfl, .inr ⟨rfl, hp, s, hs, hidle, ?_⟩⟩
    rw [List.append_nil]
    exact h.lost hm hst

theorem Stopping.turns (h : Stopping A B) (pace : Pace) (i : Nat) :
    Turns (stop pace) i (With true A) (With false B) := by
  rintro n site ⟨hp, s, hs, hrun, hm⟩
  obtain ⟨w, hst⟩ := Sampler.isRunning_true.mp hrun
  have hw : w.Placed i := hp.of_state hs hst
  obtain ⟨ds, w', h', hd, hended, he, hadds⟩ := stop_running pace hs hst hw site
  rw [he]
  refine ⟨ds, hadds, ?_, _, rfl, ?_, h.stopped hm hst hd hended⟩
  · rw [placed_history, withState_placed]
    exact SamplerState.ofEnded_placed (hd.placed hw)
  · cases w' <;> rfl

theorem Discarding.turns (h : Discarding A E) (pace : Pace) (i : Nat) :
    Turns (discard pace) i (With false A) (Without E) := by
  rintro n site ⟨hp, s, hs, hidle, hm⟩
  rcases Sampler.isRunning_false.mp hidle with ⟨r, hst⟩ | hst
  · obtain ⟨he, hadds⟩ := discard_stopped pace hs hst (hp.of_state hs hst) site
    rw [he]
    exact ⟨_, hadds, rfl, h.released hm hst⟩
  · rw [discard_lost pace hs hst]
    refine ⟨[], .nil rfl, rfl, ?_⟩
    rw [List.append_nil]
    exact h.lost hm hst

theorem turns_stop_resting {P : PlaceProp} (pace : Pace) (i : Nat)
    (hP : ∀ {n ds}, P i n ds → ∀ s w, n.sampler = some s → s.state ≠ .running w) :
    Turns (stop pace) i P P := by
  intro n site hn
  rw [stop_idle pace (hP hn)]
  exact ⟨[], .nil rfl, by rwa [List.append_nil]⟩

theorem turns_discard_without (pace : Pace) (i : Nat) :
    Turns (discard pace) i (Without E) (Without E) := by
  intro n site hn
  rw [discard_none pace hn.1]
  exact ⟨[], .nil rfl, by rwa [List.append_nil]⟩

end Node

end NodeTelemetry
