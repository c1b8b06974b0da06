import Mathlib
import NodeTelemetry.Proofs.PlaneRun

namespace NodeTelemetry

open Log ControlPlane Node Registry

def acts (name : String) (ds : List Deed) : List Act :=
  ds.filterMap fun d => match d with
    | .call counter act => if counter = name then some act else none
    | _ => none

def Act.IsUse : Act → Prop
  | .reset => True
  | .restart _ _ => True
  | _ => False

/-- What is done with a counter in its life, and whether that is over. -/
inductive Life : Bool → List Act → Prop
  | untaken : Life true []
  | refused : Life true [.init false]
  | held (uses : List Act) (hu : ∀ a ∈ uses, a.IsUse) : Life false (.init true :: uses)
  | exited (uses : List Act) (hu : ∀ a ∈ uses, a.IsUse) : Life true (.init true :: (uses ++ [.exit]))

namespace Registry

def IsOngoing (names : List String) (d : Deed) : Prop :=
  IsUse names d ∨ (∃ sample, d = .push sample) ∨ d = .overran ∨ d = .brokeDown ∨ d = .notStarted

def Held (names : List String) (ds : List Deed) : Prop :=
  ∃ ongoing, (∀ d ∈ ongoing, IsOngoing names d) ∧ ds = calls (.init true) names ++ ongoing

def Released (names : List String) (ds : List Deed) : Prop :=
  ∃ ongoing, (∀ d ∈ ongoing, IsOngoing names d) ∧
    ds = calls (.init true) names ++ ongoing ++ calls .exit names

def Has (names : List String) (ds : List Deed) (r : Registry) : Prop :=
  r.active = true ∧ r.names = names ∧ Held names ds

variable {names : List String} {ds es : List Deed} {r r' : Registry} {name : String}

theorem Held.append (h : Held names ds) (hes : ∀ d ∈ es, IsOngoing names d) :
    Held names (ds ++ es) := by
  obtain ⟨ongoing, ho, rfl⟩ := h
  refine ⟨ongoing ++ es, fun d hd => ?_, List.append_assoc _ _ _⟩
  exact (List.mem_append.mp hd).elim (ho d) (hes d)

theorem Held.release (h : Held names ds) : Released names (ds ++ calls .exit names) := by
  obtain ⟨ongoing, ho, rfl⟩ := h
  exact ⟨ongoing, ho, rfl⟩

theorem ongoing_resets (names : List String) : ∀ d ∈ calls .reset names, IsOngoing names d := by
  intro d hd
  obtain ⟨name, hn, rfl⟩ := List.mem_map.mp hd
  exact .inl ⟨name, hn, .inl rfl⟩

theorem ongoing_sampling (names : List String) (last : List UInt64)
    (samples : List (List UInt64)) : ∀ d ∈ sampling names last samples, IsOngoing names d := by
  induction samples generalizing last with
  | nil => simp [sampling]
  | cons v samples ih =>
    intro d hd
    rcases List.mem_append.mp hd with hd | hd
    · exact .inl (isUse_sampleCalls names last v d hd)
    · rcases List.mem_cons.mp hd with rfl | hd
      · exact .inr (.inl ⟨v, rfl⟩)
      · exact ih v d hd

theorem Has.exits_eq (h : r.Has names ds) : r.exits = calls .exit names := by
  rw [exits, if_pos h.1, h.2.1]

theorem Has.continues (h : r.Has names ds) (hc : r.Continues r') (ha : r'.active = r.active)
    (hes : ∀ d ∈ es, IsOngoing names d) : r'.Has names (ds ++ es) :=
  ⟨ha.trans h.1, hc.names_eq.trans h.2.1, h.2.2.append hes⟩

theorem Has.resets (h : r.Has names ds) : ∀ d ∈ calls .reset r.names, IsOngoing names d := by
  rw [h.2.1]
  exact ongoing_resets names

theorem Has.samples (h : r.Has names ds) (last : List UInt64) (samples : List (List UInt64)) :
    ∀ d ∈ sampling r.names last samples, IsOngoing names d := by
  rw [h.2.1]
  exact ongoing_sampling names last samples

theorem Has.release (h : r.Has names ds) : Released names (ds ++ r.exits) := by
  rw [h.exits_eq]
  exact h.2.2.release

theorem Has.not_started (h : r.Has names ds) :
    Released names (ds ++ (calls .reset r.names ++ .notStarted :: r.exits)) := by
  have hheld : r.Has names (ds ++ (calls .reset r.names ++ [.notStarted])) := by
    refine h.continues (.refl r) rfl fun d hd => ?_
    rcases List.mem_append.mp hd with hd | hd
    · exact h.resets d hd
    · exact .inr (.inr (.inr (.inr (List.mem_singleton.mp hd))))
  have hds : ds ++ (calls .reset r.names ++ .notStarted :: r.exits) =
      ds ++ (calls .reset r.names ++ [.notStarted]) ++ r.exits := by simp
  rw [hds]
  exact hheld.release

theorem Has.broke_down (h : r.Has names ds) {uses : List Deed} (samples : List (List UInt64))
    (hu : ∀ d ∈ uses, IsUse r.names d ∨ d = .overran) :
    Released names (ds ++ (sampling r.names r.lastSample samples ++
      (uses ++ .brokeDown :: r.exits))) := by
  have hheld : r.Has names (ds ++ (sampling r.names r.lastSample samples ++
      (uses ++ [.brokeDown]))) := by
    refine h.continues (.refl r) rfl fun d hd => ?_
    rcases List.mem_append.mp hd with hd | hd
    · exact h.samples _ _ d hd
    · rcases List.mem_append.mp hd with hd | hd
      · rw [← h.2.1]
        exact (hu d hd).imp_right fun hover => .inr (.inl hover)
      · exact .inr (.inr (.inr (.inl (List.mem_singleton.mp hd))))
  have hds : ds ++ (sampling r.names r.lastSample samples ++ (uses ++ .brokeDown :: r.exits)) =
      ds ++ (sampling r.names r.lastSample samples ++ (uses ++ [.brokeDown])) ++ r.exits := by simp
  rw [hds]
  exact hheld.release

theorem acts_append (name : String) (ds es : List Deed) :
    acts name (ds ++ es) = acts name ds ++ acts name es := List.filterMap_append

theorem acts_calls_of_notMem (act : Act) (hn : name ∉ names) : acts name (calls act names) = [] := by
  refine List.filterMap_eq_nil_iff.mpr fun d hd => ?_
  obtain ⟨other, ho, rfl⟩ := List.mem_map.mp hd
  refine if_neg ?_
  rintro rfl
  exact hn ho

theorem acts_calls_of_mem (act : Act) (hnodup : names.Nodup) (hn : name ∈ names) :
    acts name (calls act names) = [act] := by
  induction names with
  | nil => cases hn
  | cons other names ih =>
    obtain ⟨hother, hnodup⟩ := List.nodup_cons.mp hnodup
    have hcons : calls act (other :: names) = [.call other act] ++ calls act names := rfl
    rw [hcons, acts_append]
    rcases List.mem_cons.mp hn with rfl | hn
    · rw [acts_calls_of_notMem act hother]
      simp [acts]
    · have hne : other ≠ name := fun he => hother (he ▸ hn)
      rw [ih hnodup hn]
      simp [acts, hne]

theorem isUse_of_ongoing (ho : ∀ d ∈ ds, IsOngoing names d) : ∀ a ∈ acts name ds, a.IsUse := by
  intro a ha
  obtain ⟨d, hd, hda⟩ := List.mem_filterMap.mp ha
  rcases ho d hd with ⟨other, -, rfl | ⟨last, value, rfl⟩⟩ | ⟨sample, rfl⟩ | rfl | rfl | rfl
  · simp only [Option.ite_none_right_eq_some, Option.some.injEq] at hda
    rw [← hda.2]
    trivial
  · simp only [Option.ite_none_right_eq_some, Option.some.injEq] at hda
    rw [← hda.2]
    trivial
  all_goals cases hda

theorem acts_of_ongoing (ho : ∀ d ∈ ds, IsOngoing names d) (hn : name ∉ names) :
    acts name ds = [] := by
  refine List.filterMap_eq_nil_iff.mpr fun d hd => ?_
  rcases ho d hd with ⟨other, hother, rfl | ⟨last, value, rfl⟩⟩ | ⟨sample, rfl⟩ | rfl | rfl | rfl
  case inr.inl | inr.inr.inl | inr.inr.inr.inl | inr.inr.inr.inr => rfl
  all_goals
    refine if_neg ?_
    rintro rfl
    exact hn hother

theorem Held.life (h : Held names ds) (hnodup : names.Nodup) (name : String) :
    ∃ ended, Life ended (acts name ds) := by
  obtain ⟨ongoing, ho, rfl⟩ := h
  rw [acts_append]
  by_cases hn : name ∈ names
  · rw [acts_calls_of_mem _ hnodup hn]
    exact ⟨false, .held _ (isUse_of_ongoing ho)⟩
  · rw [acts_calls_of_notMem _ hn, acts_of_ongoing ho hn]
    exact ⟨true, .untaken⟩

theorem Released.life (h : Released names ds) (hnodup : names.Nodup) (name : String) :
    Life true (acts name ds) := by
  obtain ⟨ongoing, ho, rfl⟩ := h
  rw [acts_append, acts_append]
  by_cases hn : name ∈ names
  · rw [acts_calls_of_mem _ hnodup hn, acts_calls_of_mem _ hnodup hn]
    exact .exited _ (isUse_of_ongoing ho)
  · rw [acts_calls_of_notMem _ hn, acts_calls_of_notMem _ hn, acts_of_ongoing ho hn]
    exact .untaken

theorem life_of_initFailure {taken rest : List String} {failed : String}
    (hnodup : (taken ++ failed :: rest).Nodup) (name : String) :
    Life true (acts name (initFailure taken [] failed)) := by
  obtain ⟨htaken, hrest, hdisjoint⟩ := List.nodup_append.mp hnodup
  have hsplit : initFailure taken [] failed =
      calls (.init true) taken ++ ([.call failed (.init false)] ++ calls .exit taken.reverse) := by
    rw [initFailure, List.append_nil]
    rfl
  rw [hsplit, acts_append, acts_append]
  by_cases hn : name ∈ taken
  · have hne : failed ≠ name := fun he =>
      hdisjoint name hn failed List.mem_cons_self he.symm
    rw [acts_calls_of_mem _ htaken hn,
      acts_calls_of_mem _ (List.nodup_reverse.mpr htaken) (List.mem_reverse.mpr hn)]
    have hnone : acts name [.call failed (.init false)] = [] := by simp [acts, hne]
    rw [hnone]
    exact .exited [] (by simp)
  · rw [acts_calls_of_notMem _ hn, acts_calls_of_notMem _ fun hr => hn (List.mem_reverse.mp hr)]
    by_cases hne : failed = name
    · have hone : acts name [.call failed (.init false)] = [.init false] := by simp [acts, hne]
      rw [hone]
      exact .refused
    · have hnone : acts name [.call failed (.init false)] = [] := by simp [acts, hne]
      rw [hnone]
      exact .untaken

end Registry

def Worker.Lives (names : List String) (ds : List Deed) : Worker → Prop
  | .working r _ => r.Has names ds
  | .stopped r => r.Has names ds
  | .broken => Released names ds

def SamplerState.Lives (names : List String) (ds : List Deed) : SamplerState → Prop
  | .stopped r => r.Has names ds
  | .running w => w.Lives names ds
  | .lost => Released names ds

variable {names : List String} {ds es : List Deed}

theorem Worker.Works.lives {w w' : Worker} {h h' : History} (hw : Works w h es w' h')
    (hl : w.Lives names ds) : w'.Lives names (ds ++ es) := by
  cases hw with
  | rests =>
    rw [List.append_nil]
    exact hl
  | goesOn samples _ hc ha => exact Has.continues hl hc ha (Has.samples hl _ samples)
  | leaves samples _ hc ha => exact Has.continues hl hc ha (Has.samples hl _ samples)
  | breaksDown samples uses hu => exact Has.broke_down hl samples hu

theorem SamplerState.lives_ofEnded {w : Worker} (hl : w.Lives names ds)
    (hended : ∀ r p, w ≠ .working r p) : (ofEnded w).Lives names ds := by
  cases w with
  | working r p => exact absurd rfl (hended r p)
  | stopped r => exact hl
  | broken => exact hl

theorem SamplerState.Lives.life {state : SamplerState} (h : state.Lives names ds)
    (hnodup : names.Nodup) (name : String) : ∃ ended, Life ended (acts name ds) := by
  cases state with
  | stopped r => exact Held.life h.2.2 hnodup name
  | lost => exact ⟨true, Released.life h hnodup name⟩
  | running w =>
    cases w with
    | working r p => exact Held.life h.2.2 hnodup name
    | stopped r => exact Held.life h.2.2 hnodup name
    | broken => exact ⟨true, Released.life h hnodup name⟩

def Regime.lives (names : Nat → List String) : Regime where
  rest i s _ ds := s.state.Lives (names i) ds
  run i s _ ds := s.state.Lives (names i) ds
  ended i _ ds := Released (names i) ds
  rest_readable := ⟨fun hl _ => hl⟩
  run_readable := ⟨fun hl _ => hl⟩
  ended_readable := fun h _ => h
  works := by
    refine ⟨fun hl hst hw => ?_⟩
    rw [hst] at hl
    exact hw.lives hl
  starts := {
    started := by
      intro i s r r' h ds hl hst hc ha _
      rw [hst] at hl
      exact Has.continues hl hc ha hl.resets
    failed := by
      intro i s r h ds hl hst
      rw [hst] at hl
      exact hl.not_started
    lost := fun hl _ => hl }
  stops := by
    refine ⟨fun hl hst hw hended => ?_⟩
    rw [hst] at hl
    exact SamplerState.lives_ofEnded (hw.lives hl) hended
  discards := {
    released := by
      intro i s r h ds hl hst
      rw [hst] at hl
      exact hl.release
    lost := by
      intro i s h ds hl hst
      rw [hst] at hl
      exact hl }

theorem Regime.Holds.life {names : Nat → List String} {p : ControlPlane} {log : Log}
    (h : (Regime.lives names).Holds p log) {i : Nat} (hi : i < p.nodes.length)
    (hnodup : (names i).Nodup) (name : String) :
    ∃ ended, Life ended (acts name (deeds log i)) := by
  have hn := List.getElem?_eq_getElem hi
  cases hc : p.closed with
  | true => exact ⟨true, Released.life (h.without hc hn).2 hnodup name⟩
  | false =>
    obtain ⟨-, s, -, -, hl⟩ := h.has_sampler hc hn
    have hlives : s.state.Lives (names i) (deeds log i) := by cases hon : p.on <;> rwa [hon] at hl
    exact hlives.life hnodup name

end NodeTelemetry
