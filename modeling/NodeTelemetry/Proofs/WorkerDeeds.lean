import Mathlib
import NodeTelemetry.Proofs.HistoryQueue
import NodeTelemetry.Proofs.RegistryDeeds
import NodeTelemetry.Worker

namespace NodeTelemetry

open Log Registry

namespace History

def pushAll (h : History) (samples : List (List UInt64)) : History :=
  samples.foldl (fun h sample => { h with ring := (h.ring.push sample).2 }) h

theorem pushAll_append (h : History) (xs ys : List (List UInt64)) :
    h.pushAll (xs ++ ys) = (h.pushAll xs).pushAll ys := List.foldl_append

theorem keeps_push {β : Type} {view : Site → β} (hv : ∀ change, Keeps view (Site.count change))
    (h : History) (sample : List UInt64) : Keeps view (h.push sample) := by
  unfold push
  rcases h.ring.push sample with ⟨_ | _, ring⟩
  · exact .pure _
  · exact (hv _).bind fun _ => .pure _

end History

namespace Registry

def exits (r : Registry) : List Deed := if r.active then calls .exit r.names else []

theorem Continues.exits_eq {r r' : Registry} (h : r.Continues r') (ha : r'.active = r.active) :
    r'.exits = r.exits := by rw [exits, exits, ha, h.names_eq]

theorem Continues.length_lastSample {r r' : Registry} (h : r.Continues r') :
    r'.lastSample.length = r.names.length := by
  rw [← h.names_eq, lastSample, names, List.length_map, List.length_map]

theorem adds_deactivate (r : Registry) (s : Site) :
    Adds r.place r.exits s.log (r.deactivate s).2.log := by
  cases ha : r.active with
  | true =>
    rw [exits, if_pos ha]
    exact (deactivate_of_active ha s).2.2
  | false =>
    rw [exits, if_neg (by simp [ha]), deactivate_of_inactive ha]
    exact .nil rfl

def sampling (names : List String) : List UInt64 → List (List UInt64) → List Deed
  | _, [] => []
  | last, v :: samples => sampleCalls names last v ++ .push v :: sampling names v samples

theorem sampling_append (names : List String) (last : List UInt64) (xs ys : List (List UInt64)) :
    sampling names last (xs ++ ys) =
      sampling names last xs ++ sampling names (xs.getLastD last) ys := by
  induction xs generalizing last with
  | nil => rfl
  | cons v xs ih =>
    simp only [List.cons_append, sampling, ih, List.append_assoc]
    rw [List.getLastD_cons]

end Registry

namespace Worker

/-- What a worker does in any number of steps, with its registry and for its history. -/
inductive Works : Worker → History → List Deed → Worker → History → Prop
  | rests {w : Worker} {h : History} (hw : ∀ r p, w ≠ .working r p) : Works w h [] w h
  | goesOn {r r' : Registry} {p p' : Phase} {h : History} (samples : List (List UInt64))
      (hw : ∀ v ∈ samples, v.length = r.names.length) (hc : r.Continues r')
      (ha : r'.active = r.active) (hl : r'.lastSample = samples.getLastD r.lastSample) :
      Works (.working r p) h (sampling r.names r.lastSample samples) (.working r' p')
        (h.pushAll samples)
  | leaves {r r' : Registry} {p : Phase} {h : History} (samples : List (List UInt64))
      (hw : ∀ v ∈ samples, v.length = r.names.length) (hc : r.Continues r')
      (ha : r'.active = r.active) (hl : r'.lastSample = samples.getLastD r.lastSample) :
      Works (.working r p) h (sampling r.names r.lastSample samples) (.stopped r')
        (h.pushAll samples)
  | breaksDown {r : Registry} {p : Phase} {h : History} (samples : List (List UInt64))
      (uses : List Deed) (hu : ∀ d ∈ uses, IsUse r.names d ∨ d = .overran)
      (hroom : .overran ∈ uses → ¬ (h.pushAll samples).ring.HasRoom) :
      Works (.working r p) h
        (sampling r.names r.lastSample samples ++ (uses ++ .brokeDown :: r.exits)) .broken
        (h.pushAll samples)

theorem Works.refl (w : Worker) (h : History) : Works w h [] w h := by
  cases w with
  | working r p => exact .goesOn [] (by simp) (.refl r) rfl rfl
  | stopped r => exact .rests (by simp)
  | broken => exact .rests (by simp)

theorem Works.trans {w w' w'' : Worker} {h h' h'' : History} {ds es : List Deed}
    (hw : Works w h ds w' h') (hw' : Works w' h' es w'' h'') : Works w h (ds ++ es) w'' h'' := by
  cases hw with
  | rests => exact hw'
  | goesOn samples hs hc ha hl =>
    cases hw' with
    | rests hn => exact absurd rfl (hn _ _)
    | goesOn more hs' hc' ha' hl' =>
      rw [hc.names_eq] at hs'
      rw [hc.names_eq, hl, ← sampling_append, ← History.pushAll_append]
      refine .goesOn _ (List.forall_mem_append.mpr ⟨hs, hs'⟩) (hc.trans hc') (ha'.trans ha) ?_
      rw [hl', hl]
      simp
    | leaves more hs' hc' ha' hl' =>
      rw [hc.names_eq] at hs'
      rw [hc.names_eq, hl, ← sampling_append, ← History.pushAll_append]
      refine .leaves _ (List.forall_mem_append.mpr ⟨hs, hs'⟩) (hc.trans hc') (ha'.trans ha) ?_
      rw [hl', hl]
      simp
    | breaksDown more uses hu hroom =>
      rw [hc.names_eq] at hu ⊢
      rw [← History.pushAll_append] at hroom
      rw [hc.exits_eq ha, hl, ← List.append_assoc, ← sampling_append, ← History.pushAll_append]
      exact .breaksDown _ uses hu hroom
  | leaves samples hs hc ha hl =>
    cases hw' with
    | rests => rw [List.append_nil]; exact .leaves samples hs hc ha hl
  | breaksDown samples uses hu hroom =>
    cases hw' with
    | rests => rw [List.append_nil]; exact .breaksDown samples uses hu hroom

def Placed (i : Nat) (w : Worker) : Prop :=
  (∀ r p, w = .working r p → r.place = i) ∧ ∀ r, w = .stopped r → r.place = i

theorem tick_of_sample {pace : Pace} {r r' : Registry} {h : History} {sample : List UInt64}
    {s s' : Site} (hroom : h.ring.HasRoom) (hr : r.sample s = ((some sample, r'), s')) :
    tick pace r h s =
      let h' := h.push sample s'
      let noted := (Site.note r'.place (.push sample) h'.2).2
      let counted := (Site.count (fun m => { m with ticks := m.ticks + 1 }) noted).2
      let now := Site.readClock pace.clock counted
      ((some (sleepBudget (satMul pace.period nanosPerMilli) (satSub now.1 (sample.headD 0))), r',
        h'.1), now.2) := by
  simp only [tick, bind, StateT.bind, hr, History.push?_of_room hroom]
  rfl

theorem tick_of_overrun {r r' : Registry} {h : History} {sample : List UInt64} {s s' : Site}
    (pace : Pace) (hroom : ¬ h.ring.HasRoom) (hr : r.sample s = ((some sample, r'), s')) :
    tick pace r h s = ((none, r', h), (Site.note r'.place .overran s').2) := by
  simp only [tick, bind, StateT.bind, hr, History.push?_of_no_room hroom]
  rfl

theorem tick_of_broken {pace : Pace} {r r' : Registry} {s s' : Site} (h : History)
    (hr : r.sample s = ((none, r'), s')) : tick pace r h s = ((none, r', h), s') := by
  simp only [tick, bind, StateT.bind, hr]
  rfl

theorem tick_spec (pace : Pace) (r : Registry) (h : History) (s : Site) :
    let t := tick pace r h s
    r.Continues t.1.2.1 ∧ t.1.2.1.active = r.active ∧
      ((∃ budget, t.1.1 = some budget ∧ t.1.2.2 = h.pushAll [t.1.2.1.lastSample] ∧
          Adds r.place (sampling r.names r.lastSample [t.1.2.1.lastSample]) s.log t.2.log) ∨
        t.1.1 = none ∧ t.1.2.2 = h ∧
          ∃ uses, (∀ d ∈ uses, IsUse r.names d ∨ d = .overran) ∧
            (.overran ∈ uses → ¬ h.ring.HasRoom) ∧ Adds r.place uses s.log t.2.log) := by
  obtain ⟨hc, ha, hs⟩ := r.sample_spec s
  rcases hr : r.sample s with ⟨⟨sample?, r'⟩, s'⟩
  rw [hr] at hc ha hs
  dsimp only at hc ha hs
  rcases hs with ⟨rfl, hadds⟩ | ⟨rfl, uses, hu, hadds⟩
  · by_cases hroom : h.ring.HasRoom
    · have hlog : (h.push r'.lastSample s').2.log = s'.log :=
        h.keeps_push (fun _ _ => rfl) r'.lastSample s'
      have hpush : Adds r.place [.push r'.lastSample] s'.log
          (Site.note r'.place (.push r'.lastSample) (h.push r'.lastSample s').2).2.log := by
        rw [← hlog, ← hc.place_eq]
        exact .one _ _ _
      rw [tick_of_sample hroom hr]
      exact ⟨hc, ha, .inl ⟨_, rfl, History.push_ring h r'.lastSample s', hadds.trans hpush⟩⟩
    · have hover : Adds r.place [.overran] s'.log (Site.note r'.place .overran s').2.log := by
        rw [← hc.place_eq]
        exact .one _ _ _
      rw [tick_of_overrun pace hroom hr]
      refine ⟨hc, ha, .inr ⟨rfl, rfl, _, ?_, fun _ => hroom, hadds.trans hover⟩⟩
      intro d hd
      rcases List.mem_append.mp hd with hd | hd
      · exact .inl (isUse_sampleCalls _ _ _ d hd)
      · exact .inr (List.mem_singleton.mp hd)
  · rw [tick_of_broken h hr]
    exact ⟨hc, ha, .inr ⟨rfl, rfl, uses, fun d hd => .inl (hu d hd),
      fun hover => absurd (hu _ hover) not_isUse_overran, hadds⟩⟩

theorem adds_crash (r : Registry) (p : Phase) (s : Site) :
    Adds r.place (.brokeDown :: r.exits) s.log (crash (.working r p) s).2.log :=
  (Adds.one r.place .brokeDown s.log).trans (r.adds_deactivate (Site.note r.place .brokeDown s).2)

variable {i : Nat} {w : Worker}

theorem crash_works (hp : w.Placed i) (h : History) (s : Site) :
    ∃ ds, Works w h ds (w.crash s).1 h ∧ Adds i ds s.log (w.crash s).2.log := by
  cases w with
  | working r p =>
    rw [← hp.1 r p rfl]
    exact ⟨_, .breaksDown [] [] (by simp) (by simp), adds_crash r p s⟩
  | stopped r => exact ⟨[], .refl _ _, .nil rfl⟩
  | broken => exact ⟨[], .refl _ _, .nil rfl⟩

theorem step_works (pace : Pace) (stop : Bool) (hp : w.Placed i) (h : History) (s : Site) :
    ∃ ds, Works w h ds (step pace stop w h s).1.1 (step pace stop w h s).1.2 ∧
      Adds i ds s.log (step pace stop w h s).2.log := by
  cases w with
  | working r p =>
    have hi := hp.1 r p rfl
    cases p with
    | checking =>
      cases stop with
      | true => exact ⟨[], .leaves [] (by simp) (.refl r) rfl rfl, .nil rfl⟩
      | false => exact ⟨[], .goesOn [] (by simp) (.refl r) rfl rfl, .nil rfl⟩
    | ticking =>
      obtain ⟨hc, ha, ht⟩ := tick_spec pace r h s
      rcases hr : tick pace r h s with ⟨⟨budget?, r', h'⟩, s'⟩
      rw [hr] at hc ha ht
      dsimp only at hc ha ht
      rw [hi] at ht
      rcases ht with ⟨budget, rfl, rfl, hadds⟩ | ⟨rfl, rfl, uses, hu, hroom, hadds⟩
      · have hs : step pace stop (.working r .ticking) h s =
            ((.working r' (.ticked budget), h.pushAll [r'.lastSample]), s') := by
          simp only [step, bind, StateT.bind, hr]
          rfl
        rw [hs]
        exact ⟨_, .goesOn [r'.lastSample] (by simpa using hc.length_lastSample) hc ha rfl, hadds⟩
      · have hs : step pace stop (.working r .ticking) h' s =
            ((.broken, h'), (crash (.working r' .ticking) s').2) := by
          simp only [step, bind, StateT.bind, hr]
          rfl
        have hcrash := adds_crash r' .ticking s'
        rw [hc.place_eq, hi, hc.exits_eq ha] at hcrash
        rw [hs]
        exact ⟨_, .breaksDown [] uses hu hroom, hadds.trans hcrash⟩
    | ticked budget =>
      cases stop with
      | true => exact ⟨[], .leaves [] (by simp) (.refl r) rfl rfl, .nil rfl⟩
      | false => exact ⟨[], .goesOn [] (by simp) (.refl r) rfl rfl, .nil rfl⟩
    | sleeping budget => exact ⟨[], .goesOn [] (by simp) (.refl r) rfl rfl, .nil rfl⟩
  | stopped r => exact ⟨[], .refl _ _, .nil rfl⟩
  | broken => exact ⟨[], .refl _ _, .nil rfl⟩

theorem Works.placed {w' : Worker} {h h' : History} {ds : List Deed} (hw : Works w h ds w' h')
    (hp : w.Placed i) : w'.Placed i := by
  cases hw with
  | rests => exact hp
  | goesOn samples hs hc =>
    refine ⟨?_, by simp⟩
    rintro r p ⟨⟩
    exact hc.place_eq.trans (hp.1 _ _ rfl)
  | leaves samples hs hc =>
    refine ⟨by simp, ?_⟩
    rintro r ⟨⟩
    exact hc.place_eq.trans (hp.1 _ _ rfl)
  | breaksDown => exact ⟨by simp, by simp⟩

theorem join_works (pace : Pace) (hp : w.Placed i) (h : History) (s : Site) :
    ∃ ds, Works w h ds (w.join pace h s).1.1 (w.join pace h s).1.2 ∧
      Adds i ds s.log (w.join pace h s).2.log := by
  obtain ⟨ds, hw, hadds⟩ := step_works pace true hp h s
  obtain ⟨es, hw', hadds'⟩ := step_works pace true (hw.placed hp)
    (step pace true w h s).1.2 (step pace true w h s).2
  exact ⟨ds ++ es, hw.trans hw', hadds.trans hadds'⟩

def Looks : Phase → Prop
  | .checking => True
  | .ticked _ => True
  | _ => False

theorem looks_of_step {pace : Pace} {h : History} {s : Site} {r : Registry} {p : Phase}
    (hs : (step pace true w h s).1.1 = .working r p) : Looks p := by
  cases w with
  | working r₀ p₀ =>
    cases p₀ with
    | checking => cases hs
    | ticked budget => cases hs
    | sleeping budget =>
      cases hs
      trivial
    | ticking =>
      simp only [step, bind, StateT.bind] at hs
      rcases htick : tick pace r₀ h s with ⟨⟨_ | budget, r₁, h₁⟩, s₁⟩
      all_goals rw [htick] at hs
      · cases hs
      · cases hs
        trivial
  | stopped r₀ => cases hs
  | broken => cases hs

theorem step_of_looks {r : Registry} {p : Phase} (hp : Looks p) (pace : Pace) (h : History)
    (s : Site) : step pace true (.working r p) h s = ((.stopped r, h), s) := by
  cases p with
  | checking => rfl
  | ticked budget => rfl
  | ticking => exact hp.elim
  | sleeping budget => exact hp.elim

theorem join_ended (pace : Pace) (w : Worker) (h : History) (s : Site) (r : Registry)
    (p : Phase) : (w.join pace h s).1.1 ≠ .working r p := by
  -- The first step brings the worker to where it looks for the stop, unless it ends it already.
  change (step pace true (step pace true w h s).1.1 (step pace true w h s).1.2
    (step pace true w h s).2).1.1 ≠ .working r p
  cases hw : (step pace true w h s).1.1 with
  | working r₁ p₁ =>
    rw [step_of_looks (looks_of_step hw)]
    exact nofun
  | stopped r₁ => exact nofun
  | broken => exact nofun

end Worker

end NodeTelemetry
