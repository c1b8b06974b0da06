import Mathlib
import NodeTelemetry.ControlPlane
import NodeTelemetry.Proofs.WorkerDeeds

namespace NodeTelemetry

open Log Registry Worker

namespace SamplerState

def Placed (i : Nat) : SamplerState → Prop
  | .stopped r => r.place = i
  | .running w => w.Placed i
  | .lost => True

def ofEnded : Worker → SamplerState
  | .stopped r => .stopped r
  | _ => .lost

end SamplerState

theorem Sampler.stop_eq (pace : Pace) {s : Sampler} {w : Worker} (hst : s.state = .running w)
    (h : History) (site : Site) :
    s.stop pace h site =
      let done := w.join pace h site
      (({ s with state := .ofEnded done.1.1 }, done.1.2), done.2) := by
  rcases hj : w.join pace h site with ⟨⟨w', h'⟩, site'⟩
  simp only [Sampler.stop, hst, bind, StateT.bind, hj]
  cases w' <;> rfl

namespace Node

def withState (n : Node) (s : Sampler) (state : SamplerState) : Node :=
  { n with sampler := some { s with state } }

def Placed (i : Nat) (n : Node) : Prop := ∀ s, n.sampler = some s → s.state.Placed i

inductive Drifts : Node → List Deed → Node → Prop
  | rests {n : Node} (hn : ∀ s w, n.sampler = some s → s.state ≠ .running w) : Drifts n [] n
  | works {n : Node} {s : Sampler} {w w' : Worker} {h' : History} {ds : List Deed}
      (hs : n.sampler = some s) (hw : s.state = .running w) (hd : Works w n.history ds w' h') :
      Drifts n ds { n.withState s (.running w') with history := h' }

variable {n : Node} {i : Nat}

theorem onSampler_eq {s : Sampler} (hs : n.sampler = some s)
    (act : Sampler → History → StateM Site (Sampler × History)) (site : Site) :
    n.onSampler act site =
      let done := act s n.history site
      ({ n with sampler := some done.1.1, history := done.1.2 }, done.2) := by
  simp only [onSampler, hs]
  rfl

theorem onSampler_none (hs : n.sampler = none)
    (act : Sampler → History → StateM Site (Sampler × History)) (site : Site) :
    n.onSampler act site = (n, site) := by
  simp only [onSampler, hs]
  rfl

theorem eta_sampler {s : Sampler} (hs : n.sampler = some s) :
    { n with sampler := some s, history := n.history } = n := by
  rw [← hs]

theorem onWorker_of_idle {s : Sampler} (hs : ∀ w, s.state ≠ .running w)
    (act : Worker → History → StateM Site (Worker × History)) (h : History) (site : Site) :
    Sampler.onWorker act s h site = ((s, h), site) := by
  cases hst : s.state with
  | running w => exact absurd hst (hs w)
  | stopped r =>
    simp only [Sampler.onWorker, hst]
    rfl
  | lost =>
    simp only [Sampler.onWorker, hst]
    rfl

theorem onWorker_of_running {s : Sampler} {w : Worker} (hs : s.state = .running w)
    (act : Worker → History → StateM Site (Worker × History)) (h : History) (site : Site) :
    Sampler.onWorker act s h site =
      let done := act w h site
      (({ s with state := .running done.1.1 }, done.1.2), done.2) := by
  simp only [Sampler.onWorker, hs]
  rfl

theorem onWorker_drifts {act : Worker → History → StateM Site (Worker × History)}
    (hp : n.Placed i)
    (hact : ∀ w h site, w.Placed i → ∃ ds, Works w h ds (act w h site).1.1 (act w h site).1.2 ∧
      Adds i ds site.log (act w h site).2.log) (site : Site) :
    ∃ ds, Drifts n ds (n.onSampler (Sampler.onWorker act) site).1 ∧
      Adds i ds site.log (n.onSampler (Sampler.onWorker act) site).2.log := by
  cases hs : n.sampler with
  | none =>
    rw [onSampler_none hs]
    exact ⟨[], .rests (by simp [hs]), .nil rfl⟩
  | some s =>
    rw [onSampler_eq hs]
    by_cases hrun : ∃ w, s.state = .running w
    · obtain ⟨w, hst⟩ := hrun
      have hw : w.Placed i := by
        have hplaced := hp s hs
        rwa [hst] at hplaced
      obtain ⟨ds, hd, hadds⟩ := hact w n.history site hw
      rw [onWorker_of_running hst]
      exact ⟨ds, .works hs hst hd, hadds⟩
    · rw [not_exists] at hrun
      rw [onWorker_of_idle hrun]
      dsimp only
      rw [eta_sampler hs]
      refine ⟨[], .rests ?_, .nil rfl⟩
      intro s' w hs' hw
      rw [hs] at hs'
      cases hs'
      exact hrun w hw

theorem step_drifts (pace : Pace) (hp : n.Placed i) (site : Site) :
    ∃ ds, Drifts n ds (n.onSampler (Sampler.step pace) site).1 ∧
      Adds i ds site.log (n.onSampler (Sampler.step pace) site).2.log :=
  onWorker_drifts hp (fun _ h site hw => step_works pace false hw h site) site

theorem crash_drifts (hp : n.Placed i) (site : Site) :
    ∃ ds, Drifts n ds (n.onSampler Sampler.crash site).1 ∧
      Adds i ds site.log (n.onSampler Sampler.crash site).2.log :=
  onWorker_drifts hp (fun _ h site hw => crash_works hw h site) site

theorem start_eq {s : Sampler} (hs : n.sampler = some s) (site : Site) :
    n.start site =
      let done := s.start site
      ((done.1.1, { n with sampler := some done.1.2 }), done.2) := by
  simp only [start, hs]
  rfl

theorem start_lost {s : Sampler} (hs : n.sampler = some s) (hst : s.state = .lost)
    (site : Site) : n.start site = ((some (.nothingLeft s.name), n), site) := by
  have he : s.start site = ((some (.nothingLeft s.name), s), site) := by
    simp only [Sampler.start, hst]
    rfl
  rw [start_eq hs, he]
  dsimp only
  rw [← hs]

theorem start_stopped {s : Sampler} {r : Registry} (hs : n.sampler = some s)
    (hst : s.state = .stopped r) (hp : r.place = i) (site : Site) :
    (∃ r', r.Continues r' ∧ r'.active = r.active ∧ r'.lastSample = r.lastSample ∧
        (n.start site).1 = (none, n.withState s (.running (.working r' .checking))) ∧
        Adds i (calls .reset r.names) site.log (n.start site).2.log) ∨
      (n.start site).1 = (some (.noThread .tryAgain), n.withState s .lost) ∧
        Adds i (calls .reset r.names ++ .notStarted :: r.exits) site.log
          (n.start site).2.log := by
  obtain ⟨hc, ha, hl, hadds⟩ := r.reset_spec site
  rw [hp] at hadds
  have hlog := Site.keeps_spawn.log (r.reset site).2
  rcases hr : r.reset site with ⟨r', site₁⟩
  rw [hr] at hc ha hl hadds hlog
  dsimp only at hc ha hl hadds hlog
  rcases hsp : Site.spawn site₁ with ⟨_ | _, site₂⟩
  all_goals
    rw [hsp] at hlog
    dsimp only at hlog
    rw [← hlog] at hadds
  · right
    have he : s.start site = ((some (.noThread .tryAgain), { s with state := .lost }),
        (r'.deactivate (Site.note r'.place .notStarted site₂).2).2) := by
      simp only [Sampler.start, hst, bind, StateT.bind, hr, hsp]
      rfl
    have hplace : r'.place = i := hc.place_eq.trans hp
    have hexit := (Adds.one r'.place .notStarted site₂.log).trans
      (r'.adds_deactivate (Site.note r'.place .notStarted site₂).2)
    rw [hc.exits_eq ha] at hexit
    nth_rewrite 1 [hplace] at hexit
    rw [start_eq hs, he]
    exact ⟨rfl, hadds.trans hexit⟩
  · left
    have he : s.start site =
        ((none, { s with state := .running (.working r' .checking) }), site₂) := by
      simp only [Sampler.start, hst, bind, StateT.bind, hr, hsp]
      rfl
    rw [start_eq hs, he]
    exact ⟨r', hc, ha, hl, rfl, hadds⟩

theorem stop_idle (pace : Pace) (hn : ∀ s w, n.sampler = some s → s.state ≠ .running w)
    (site : Site) : n.stop pace site = (n, site) := by
  cases hs : n.sampler with
  | none => exact onSampler_none hs _ _
  | some s =>
    have he : s.stop pace n.history site = ((s, n.history), site) := by
      cases hst : s.state with
      | running w => exact absurd hst (hn s w hs)
      | stopped r =>
        simp only [Sampler.stop, hst]
        rfl
      | lost =>
        simp only [Sampler.stop, hst]
        rfl
    rw [stop, onSampler_eq hs, he]
    dsimp only
    rw [eta_sampler hs]

theorem stop_eq (pace : Pace) {s : Sampler} {w : Worker} (hs : n.sampler = some s)
    (hst : s.state = .running w) (site : Site) :
    n.stop pace site =
      let done := w.join pace n.history site
      ({ n.withState s (.ofEnded done.1.1) with history := done.1.2 }, done.2) := by
  rw [stop, onSampler_eq hs, s.stop_eq pace hst]
  rfl

theorem stop_running (pace : Pace) {s : Sampler} {w : Worker} (hs : n.sampler = some s)
    (hst : s.state = .running w) (hp : w.Placed i) (site : Site) :
    ∃ ds w' h', Works w n.history ds w' h' ∧ (∀ r p, w' ≠ .working r p) ∧
      (n.stop pace site).1 = { n.withState s (.ofEnded w') with history := h' } ∧
      Adds i ds site.log (n.stop pace site).2.log := by
  obtain ⟨ds, hw, hadds⟩ := w.join_works pace hp n.history site
  have hended := w.join_ended pace n.history site
  rw [stop_eq pace hs hst]
  exact ⟨ds, _, _, hw, hended, rfl, hadds⟩

theorem discard_none (pace : Pace) (hs : n.sampler = none) (site : Site) :
    n.discard pace site = (n, site) := by
  simp only [discard, hs]
  rfl

theorem discard_stopped (pace : Pace) {s : Sampler} {r : Registry} (hs : n.sampler = some s)
    (hst : s.state = .stopped r) (hp : r.place = i) (site : Site) :
    (n.discard pace site).1 = { n with sampler := none } ∧
      Adds i r.exits site.log (n.discard pace site).2.log := by
  have he : s.discard pace n.history site = (n.history, (r.deactivate site).2) := by
    simp only [Sampler.discard, Sampler.stop, hst, bind, StateT.bind, pure, StateT.pure]
    rfl
  have hd : n.discard pace site = ({ n with sampler := none }, (r.deactivate site).2) := by
    simp only [discard, hs, bind, StateT.bind, he]
    rfl
  rw [hd, ← hp]
  exact ⟨rfl, r.adds_deactivate site⟩

theorem discard_lost (pace : Pace) {s : Sampler} (hs : n.sampler = some s)
    (hst : s.state = .lost) (site : Site) :
    n.discard pace site = ({ n with sampler := none }, site) := by
  have he : s.discard pace n.history site = (n.history, site) := by
    simp only [Sampler.discard, Sampler.stop, hst, bind, StateT.bind, pure, StateT.pure]
  simp only [discard, hs, bind, StateT.bind, he]
  rfl

end Node

end NodeTelemetry
