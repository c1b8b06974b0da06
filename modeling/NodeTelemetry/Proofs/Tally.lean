import Mathlib
import NodeTelemetry.Proofs.Ledger
import NodeTelemetry.Proofs.SamplerRules

namespace NodeTelemetry

open Log Registry History

structure Tally where
  ticks : Nat
  overwritten : Nat
  meanwhile : List (List Happening)

def Site.tally (s : Site) : Tally := ⟨s.metrics.ticks, s.metrics.overwritten, s.meanwhile⟩

def Tally.after (t : Tally) (op : Op) (h : History) : Tally :=
  { t with ticks := t.ticks + taken op, overwritten := t.overwritten + lost op h }

def Scene.tally (s : Scene) : Tally := s.site.tally

theorem Keeps.tally {α : Type} {act : StateM Site α} (h : Keeps Site.books act) :
    Keeps Site.tally act := fun s =>
  congrArg (fun b => (⟨b.ticks, b.overwritten, b.meanwhile⟩ : Tally)) (h s)

theorem Keeps.scene_tally {α : Type} {act : StateM Scene α} (h : Keeps Scene.books act) :
    Keeps Scene.tally act := fun s =>
  congrArg (fun b => (⟨b.ticks, b.overwritten, b.meanwhile⟩ : Tally)) (h s)

def pushesOf (ds : List Deed) : List (List UInt64) :=
  ds.filterMap fun d => match d with
    | .push sample => some sample
    | _ => none

theorem pushesOf_append (ds es : List Deed) : pushesOf (ds ++ es) = pushesOf ds ++ pushesOf es :=
  List.filterMap_append

theorem pushesOf_eq_nil {ds : List Deed} (h : ∀ d ∈ ds, ∀ sample, d ≠ .push sample) :
    pushesOf ds = [] := by
  apply List.filterMap_eq_nil_iff.mpr
  intro d hd
  cases d with
  | push sample => exact absurd rfl (h _ hd sample)
  | _ => rfl

namespace Registry

variable {place : Nat} {names : List String}

theorem pushesOf_calls (act : Act) (names : List String) : pushesOf (calls act names) = [] := by
  apply pushesOf_eq_nil
  intro d hd sample
  obtain ⟨name, -, rfl⟩ := List.mem_map.mp hd
  exact nofun

theorem pushesOf_uses {ds : List Deed} (h : ∀ d ∈ ds, IsUse names d ∨ d = .overran) :
    pushesOf ds = [] := by
  apply pushesOf_eq_nil
  intro d hd sample
  rcases h d hd with ⟨name, -, rfl | ⟨last, value, rfl⟩⟩ | rfl <;> exact nofun

theorem pushesOf_sampleCalls (names : List String) (last values : List UInt64) :
    pushesOf (sampleCalls names last values) = [] :=
  pushesOf_uses fun d hd => .inl (isUse_sampleCalls names last values d hd)

theorem pushesOf_exits (r : Registry) : pushesOf r.exits = [] := by
  unfold exits
  split_ifs
  · exact pushesOf_calls _ _
  · rfl

theorem tally_note (place : Nat) (c : Counter) (act : Act) :
    Keeps Scene.tally (note place c act) := fun _ => rfl

theorem tally_callAll (act : Act) {change : Counter → StateM Scene Counter}
    (hc : ∀ c, Keeps Scene.books (change c)) (slots : List Slot) :
    Keeps Scene.tally (callAll place act change slots) := by
  induction slots with
  | nil => exact .pure _
  | cons slot slots ih =>
    apply (hc slot.counter).scene_tally.bind
    intro c
    apply (tally_note place c act).bind
    intro _
    exact ih.bind fun _ => .pure _

theorem tally_restart (slot : Slot) : Keeps Scene.tally (restart place slot) := by
  apply (slot.counter.keeps_restart slot.last).scene_tally.bind
  intro a
  apply (Scene.keeps_onSite Site.keeps_breaksDown).scene_tally.bind
  intro broken
  exact (tally_note _ _ _).bind fun _ => .pure _

theorem tally_restartAll (slots : List Slot) : Keeps Scene.tally (restartAll place slots) := by
  induction slots with
  | nil => exact .pure _
  | cons slot slots ih =>
    apply (tally_restart slot).bind
    rintro ⟨_ | v, c⟩
    · exact .pure _
    · exact ih.bind fun _ => .pure _

theorem tally_reset (r : Registry) : Keeps Site.tally r.reset := fun site =>
  tally_callAll .reset Counter.keeps_reset r.slots ⟨r.tracer, site⟩

theorem tally_sample (r : Registry) : Keeps Site.tally r.sample := fun site =>
  tally_restartAll r.slots ⟨r.tracer, site⟩

theorem tally_deactivate (r : Registry) : Keeps Site.tally r.deactivate := by
  intro site
  by_cases ha : r.active = true
  · rw [deactivate, if_pos ha]
    exact tally_callAll .exit Counter.keeps_exit r.slots ⟨r.tracer, site⟩
  · rw [deactivate, if_neg ha]
    rfl

end Registry

theorem Site.tally_note (place : Nat) (d : Deed) : Keeps Site.tally (Site.note place d) :=
  fun _ => rfl

theorem History.tally_push (h : History) (sample : List UInt64) (site : Site) :
    (h.push sample site).2.tally =
      { site.tally with overwritten := site.tally.overwritten + lost (.push sample) h } := by
  simp only [History.push, lost]
  rcases h.ring.push sample with ⟨_ | _, ring⟩ <;> rfl

namespace Worker

theorem tally_crash (w : Worker) : Keeps Site.tally w.crash := by
  cases w with
  | working r p =>
    apply (Site.tally_note r.place .brokeDown).bind
    intro _
    exact r.tally_deactivate.bind fun _ => .pure _
  | stopped r => exact .pure _
  | broken => exact .pure _

theorem tally_tick (pace : Pace) (r : Registry) (h : History) (site : Site) :
    let t := tick pace r h site
    t.2.tally =
      if t.1.1.isSome then site.tally.after (.push t.1.2.1.lastSample) h else site.tally := by
  obtain ⟨-, -, hs⟩ := r.sample_spec site
  have htally := r.tally_sample site
  rcases hr : r.sample site with ⟨⟨sample?, r'⟩, site'⟩
  rw [hr] at hs htally
  dsimp only at hs htally
  rcases hs with ⟨rfl, -⟩ | ⟨rfl, -⟩
  · by_cases hroom : h.ring.HasRoom
    · have hpush := h.tally_push r'.lastSample site'
      rw [htally] at hpush
      rw [tick_of_sample hroom hr]
      exact congrArg (fun t : Tally => { t with ticks := t.ticks + 1 }) hpush
    · rw [tick_of_overrun pace hroom hr]
      exact (Site.tally_note r'.place .overran site').trans htally
  · rw [tick_of_broken h hr]
    exact htally

inductive Brings (h : History) (t : Tally) : List (List UInt64) → History → Tally → Prop
  | nothing : Brings h t [] h t
  | sample (v : List UInt64) : Brings h t [v] (act (.push v) h).2 (t.after (.push v) h)

variable {w : Worker} {i : Nat}

theorem tick_brings (pace : Pace) (r : Registry) (h : History) (site : Site) :
    let t := tick pace r h site
    ∃ ds, Adds r.place ds site.log t.2.log ∧ t.1.2.1.place = r.place ∧
      Brings h site.tally (pushesOf ds) t.1.2.2 t.2.tally := by
  obtain ⟨hc, -, ht⟩ := tick_spec pace r h site
  have htally := tally_tick pace r h site
  dsimp only at htally
  rcases ht with ⟨budget, hb, hh, hadds⟩ | ⟨hb, hh, uses, hu, -, hadds⟩
  · refine ⟨_, hadds, hc.place_eq, ?_⟩
    rw [hb] at htally
    rw [htally, hh, sampling, pushesOf_append, pushesOf_sampleCalls]
    exact .sample _
  · refine ⟨_, hadds, hc.place_eq, ?_⟩
    rw [hb] at htally
    rw [htally, hh, pushesOf_uses hu]
    exact .nothing

theorem crash_brings (hp : w.Placed i) (site : Site) :
    ∃ ds, Adds i ds site.log (w.crash site).2.log ∧ pushesOf ds = [] ∧
      (w.crash site).2.tally = site.tally := by
  cases w with
  | working r p =>
    have hr : r.place = i := hp.1 r p rfl
    have hadds := adds_crash r p site
    rw [hr] at hadds
    exact ⟨_, hadds, pushesOf_exits r, tally_crash _ site⟩
  | stopped r => exact ⟨[], .nil rfl, rfl, rfl⟩
  | broken => exact ⟨[], .nil rfl, rfl, rfl⟩

theorem step_brings (pace : Pace) (stop : Bool) (hp : w.Placed i) (h : History) (site : Site) :
    ∃ ds, Adds i ds site.log (step pace stop w h site).2.log ∧
      Brings h site.tally (pushesOf ds) (step pace stop w h site).1.2
        (step pace stop w h site).2.tally := by
  cases w with
  | working r p =>
    have hr : r.place = i := hp.1 r p rfl
    cases p with
    | ticking =>
      obtain ⟨ds, hadds, hplace, hbrings⟩ := tick_brings pace r h site
      rw [hr] at hadds
      rcases ht : tick pace r h site with ⟨⟨_ | budget, r', h'⟩, site'⟩
      all_goals
        rw [ht] at hadds hplace hbrings
        dsimp only at hadds hplace hbrings
      · have hs : step pace stop (.working r .ticking) h site =
            ((.broken, h'), (crash (.working r' .ticking) site').2) := by
          simp only [step, bind, StateT.bind, ht]
          rfl
        have hp' : (working r' .ticking).Placed i := by
          constructor
          · rintro _ _ ⟨⟩
            exact hplace.trans hr
          · rintro _ ⟨⟩
        obtain ⟨es, hadds', hnone, htally⟩ := crash_brings hp' site'
        rw [hs, htally]
        refine ⟨ds ++ es, hadds.trans hadds', ?_⟩
        rw [pushesOf_append, hnone, List.append_nil]
        exact hbrings
      · have hs : step pace stop (.working r .ticking) h site =
            ((.working r' (.ticked budget), h'), site') := by
          simp only [step, bind, StateT.bind, ht]
          rfl
        rw [hs]
        exact ⟨ds, hadds, hbrings⟩
    | checking => exact ⟨[], .nil rfl, .nothing⟩
    | ticked budget => exact ⟨[], .nil rfl, .nothing⟩
    | sleeping budget => exact ⟨[], .nil rfl, .nothing⟩
  | stopped r => exact ⟨[], .nil rfl, .nothing⟩
  | broken => exact ⟨[], .nil rfl, .nothing⟩

end Worker

namespace Node

open Worker

variable {n : Node} {i : Nat}

theorem onWorker_brings {act : Worker → History → StateM Site (Worker × History)}
    (hp : n.Placed i)
    (hact : ∀ w h site, w.Placed i → ∃ ds, Adds i ds site.log (act w h site).2.log ∧
      Brings h site.tally (pushesOf ds) (act w h site).1.2 (act w h site).2.tally) (site : Site) :
    ∃ ds, Adds i ds site.log (n.onSampler (Sampler.onWorker act) site).2.log ∧
      Brings n.history site.tally (pushesOf ds) (n.onSampler (Sampler.onWorker act) site).1.history
        (n.onSampler (Sampler.onWorker act) site).2.tally := by
  cases hs : n.sampler with
  | none =>
    rw [onSampler_none hs]
    exact ⟨[], .nil rfl, .nothing⟩
  | some s =>
    rw [onSampler_eq hs]
    by_cases hrun : ∃ w, s.state = .running w
    · obtain ⟨w, hst⟩ := hrun
      have hw : w.Placed i := by
        have hplaced := hp s hs
        rwa [hst] at hplaced
      rw [onWorker_of_running hst]
      exact hact w n.history site hw
    · rw [not_exists] at hrun
      rw [onWorker_of_idle hrun]
      exact ⟨[], .nil rfl, .nothing⟩

theorem step_brings (pace : Pace) (stop : Bool) (hp : n.Placed i) (site : Site) :
    ∃ ds, Adds i ds site.log
        (n.onSampler (Sampler.onWorker (Worker.step pace stop)) site).2.log ∧
      Brings n.history site.tally (pushesOf ds)
        (n.onSampler (Sampler.onWorker (Worker.step pace stop)) site).1.history
        (n.onSampler (Sampler.onWorker (Worker.step pace stop)) site).2.tally :=
  onWorker_brings hp (fun _ h site hw => Worker.step_brings pace stop hw h site) site

theorem crash_brings (hp : n.Placed i) (site : Site) :
    ∃ ds, Adds i ds site.log (n.onSampler Sampler.crash site).2.log ∧
      Brings n.history site.tally (pushesOf ds) (n.onSampler Sampler.crash site).1.history
        (n.onSampler Sampler.crash site).2.tally := by
  apply onWorker_brings hp
  intro w h site hw
  obtain ⟨ds, hadds, hnone, htally⟩ := Worker.crash_brings hw site
  refine ⟨ds, hadds, ?_⟩
  change Brings h site.tally (pushesOf ds) h (w.crash site).2.tally
  rw [hnone, htally]
  exact .nothing

theorem tally_start (n : Node) : Keeps Site.tally n.start := by
  unfold start
  split
  · exact .pure _
  · rename_i s _
    have hstart : Keeps Site.tally s.start := by
      unfold Sampler.start
      split
      · exact .pure _
      · exact .pure _
      · rename_i r _
        apply r.tally_reset.bind
        intro r
        apply Site.keeps_spawn.tally.bind
        intro spawned
        split
        · exact .pure _
        · apply (Site.tally_note _ _).bind
          intro _
          exact r.tally_deactivate.bind fun _ => .pure _
    exact hstart.bind fun _ => .pure _

theorem start_brings_nothing (hp : n.Placed i) (site : Site) :
    (n.start site).1.2.Placed i ∧ (n.start site).1.2.history = n.history ∧
      ∃ ds, Adds i ds site.log (n.start site).2.log ∧ pushesOf ds = [] := by
  cases hs : n.sampler with
  | none =>
    have he : n.start site = ((none, n), site) := by
      simp only [start, hs]
      rfl
    rw [he]
    exact ⟨hp, rfl, [], .nil rfl, rfl⟩
  | some s =>
    cases hst : s.state with
    | running w =>
      have he : n.start site = ((none, { n with sampler := some s }), site) := by
        rw [start_eq hs, Sampler.start, hst]
        rfl
      rw [he]
      refine ⟨?_, rfl, [], .nil rfl, rfl⟩
      rintro _ ⟨⟩
      exact hp s hs
    | lost =>
      rw [start_lost hs hst]
      exact ⟨hp, rfl, [], .nil rfl, rfl⟩
    | stopped r =>
      have hr : r.place = i := hp.of_state hs hst
      rcases start_stopped hs hst hr site with ⟨r', hc, -, -, he, hadds⟩ | ⟨he, hadds⟩
      all_goals rw [he]
      · refine ⟨?_, rfl, _, hadds, pushesOf_calls _ _⟩
        rw [withState_placed]
        exact placed_working (hc.place_eq.trans hr)
      · refine ⟨withState_placed.mpr trivial, rfl, _, hadds, ?_⟩
        rw [pushesOf_append, pushesOf_calls]
        exact pushesOf_exits r

end Node

end NodeTelemetry
