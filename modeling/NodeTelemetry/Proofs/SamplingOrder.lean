import Mathlib
import NodeTelemetry.Proofs.EngineLife
import NodeTelemetry.Proofs.HistoryRoom
import NodeTelemetry.Proofs.PowerSwitch

namespace NodeTelemetry

open Log Registry ControlPlane Node

inductive History.Fed : History → List (List UInt64) → History → Prop
  | same (h : History) : Fed h [] h
  | pushed {h h' : History} {samples : List (List UInt64)} (hf : Fed h samples h')
      (sample : List UInt64) (site : Site) : Fed h (samples ++ [sample]) (h'.push sample site).1
  | consumed {h h' h'' : History} {samples : List (List UInt64)} (hf : Fed h samples h')
      (hc : h'.Consumed h'') : Fed h samples h''

namespace History

variable {h h' h'' : History} {xs ys : List (List UInt64)}

theorem Fed.trans (hf : Fed h xs h') (hf' : Fed h' ys h'') : Fed h (xs ++ ys) h'' := by
  induction hf' with
  | same => rwa [List.append_nil]
  | pushed _ sample site ih =>
    rw [← List.append_assoc]
    exact ih.pushed sample site
  | consumed _ hc ih => exact ih.consumed hc

theorem fed_pushAll (h : History) (samples : List (List UInt64)) :
    Fed h samples (h.pushAll samples) := by
  induction samples using List.reverseRecOn with
  | nil => exact .same h
  | append_singleton samples sample ih =>
    rw [pushAll_append]
    have hpush := ih.pushed sample {}
    rw [push_ring] at hpush
    exact hpush

end History

/-- What becomes of the switch of a plane in one event, and whether sampling ends for good. -/
structure Moment where
  wasOn : Bool
  isOn : Bool
  ends : Bool
  deriving DecidableEq, Repr

namespace Moment

def opening (m : Moment) (names : List String) : List Deed :=
  if m.wasOn then [] else if m.isOn then calls .reset names else []

/-- What a sequential machine does in a moment: it resets the registry if it is turned on, then takes
samples, and lets the registry go at the end. -/
def deeds (m : Moment) (names : List String) (last : List UInt64)
    (samples : List (List UInt64)) : List Deed :=
  m.opening names ++ sampling names last samples ++ if m.ends then calls .exit names else []

structure Allows (m : Moment) (names : List String) (samples : List (List UInt64)) : Prop where
  rests : m.wasOn = false → m.isOn = false → samples = []
  whole : ∀ v ∈ samples, v.length = names.length

def replay (names : List String) : List UInt64 → List (Moment × List (List UInt64)) → List Deed
  | _, [] => []
  | last, (m, samples) :: turns =>
    m.deeds names last samples ++ replay names (samples.getLastD last) turns

end Moment

namespace ControlPlane

def moment (p q : ControlPlane) : Moment := ⟨p.on, q.on, !p.closed && q.closed⟩

def moments : List Event → ControlPlane → Site → List Moment
  | [], _, _ => []
  | e :: events, p, site =>
    let done := e.perform p site
    moment p done.1 :: moments events done.1 done.2

end ControlPlane

def SamplerState.held : SamplerState → Option Registry
  | .stopped r => some r
  | .running (.working r _) => some r
  | .running (.stopped r) => some r
  | _ => none

def Upset (ds : List Deed) : Prop := .brokeDown ∈ ds ∨ .notStarted ∈ ds

theorem Upset.append {ds : List Deed} (h : Upset ds) (es : List Deed) : Upset (ds ++ es) :=
  h.imp (List.mem_append_left es) (List.mem_append_left es)

structure Comes (m : Moment) (r₁ : Registry) (h₁ : History) (ds₁ : List Deed)
    (samples : List (List UInt64)) (r : Registry) (h : History) (ds : List Deed) : Prop where
  continues : r₁.Continues r
  active_eq : r.active = r₁.active
  last_eq : r.lastSample = samples.getLastD r₁.lastSample
  allowed : m.Allows r₁.names samples
  fed : h₁.Fed samples h
  deeds_eq : ds = ds₁ ++ (m.opening r₁.names ++ sampling r₁.names r₁.lastSample samples)

namespace Comes

variable {m : Moment} {r₁ r r' : Registry} {h₁ h h' : History} {ds₁ ds : List Deed}
  {samples more : List (List UInt64)}

theorem refl (hm : m.wasOn = true ∨ m.isOn = false) (r : Registry) (h : History)
    (ds : List Deed) : Comes m r h ds [] r h ds where
  continues := .refl r
  active_eq := rfl
  last_eq := rfl
  allowed := ⟨fun _ _ => rfl, by simp⟩
  fed := .same h
  deeds_eq := by
    have hopening : m.opening r.names = [] := by
      rcases hm with hm | hm <;> simp [Moment.opening, hm]
    rw [hopening]
    simp [sampling]

theorem consumed (hcomes : Comes m r₁ h₁ ds₁ samples r h ds) (hc : h.Consumed h') :
    Comes m r₁ h₁ ds₁ samples r h' ds :=
  { hcomes with fed := hcomes.fed.consumed hc }

theorem sampled (hcomes : Comes m r₁ h₁ ds₁ samples r h ds) (hm : m.wasOn = true ∨ m.isOn = true)
    (hw : ∀ v ∈ more, v.length = r.names.length) (hc : r.Continues r')
    (ha : r'.active = r.active) (hl : r'.lastSample = more.getLastD r.lastSample) :
    Comes m r₁ h₁ ds₁ (samples ++ more) r' (h.pushAll more)
      (ds ++ sampling r.names r.lastSample more) where
  continues := hcomes.continues.trans hc
  active_eq := ha.trans hcomes.active_eq
  last_eq := by
    rw [hl, hcomes.last_eq]
    simp
  allowed := by
    constructor
    · intro hwas his
      rcases hm with hm | hm
      · rw [hwas] at hm
        cases hm
      · rw [his] at hm
        cases hm
    · rw [hcomes.continues.names_eq] at hw
      exact List.forall_mem_append.mpr ⟨hcomes.allowed.whole, hw⟩
  fed := hcomes.fed.trans (History.fed_pushAll h more)
  deeds_eq := by
    rw [hcomes.deeds_eq, hcomes.continues.names_eq, hcomes.last_eq, sampling_append]
    simp only [List.append_assoc]

theorem started (hcomes : Comes ⟨false, false, false⟩ r₁ h₁ ds₁ samples r h ds)
    (hc : r.Continues r') (ha : r'.active = r.active) (hl : r'.lastSample = r.lastSample) :
    Comes ⟨false, true, false⟩ r₁ h₁ ds₁ [] r' h (ds ++ calls .reset r.names) := by
  obtain rfl : samples = [] := hcomes.allowed.rests rfl rfl
  refine ⟨hcomes.continues.trans hc, ha.trans hcomes.active_eq, hl.trans hcomes.last_eq,
    ⟨fun _ _ => rfl, by simp⟩, hcomes.fed, ?_⟩
  rw [hcomes.deeds_eq, hcomes.continues.names_eq]
  simp [Moment.opening, sampling]

end Comes

namespace Node

variable (nodes₁ : List Node) (log₁ : Log)

def Since (m : Moment) : SamplerProp := fun i s h ds =>
  Upset ds ∨ ∃ n₁ s₁ r₁ samples r, nodes₁[i]? = some n₁ ∧ n₁.sampler = some s₁ ∧
    s₁.state.held = some r₁ ∧ s.state.held = some r ∧
    Comes m r₁ n₁.history (deeds log₁ i) samples r h ds

def Ended (m : Moment) : EndProp := fun i h ds =>
  Upset ds ∨ ∃ n₁ s₁ r₁ samples r ds', nodes₁[i]? = some n₁ ∧ n₁.sampler = some s₁ ∧
    s₁.state.held = some r₁ ∧ Comes m r₁ n₁.history (deeds log₁ i) samples r h ds' ∧
    ds = ds' ++ r₁.exits

def Still : EndProp := fun i h ds =>
  ∃ n₁, nodes₁[i]? = some n₁ ∧ n₁.sampler = none ∧ n₁.history.Fed [] h ∧ ds = deeds log₁ i

variable {nodes₁ log₁} {m : Moment}

theorem readable_since : Readable (Since nodes₁ log₁ m) where
  read := by
    rintro i s h h' ds (hu | ⟨n₁, s₁, r₁, samples, r, hn, hs, hr₁, hr, hcomes⟩) hc
    · exact .inl hu
    · exact .inr ⟨n₁, s₁, r₁, samples, r, hn, hs, hr₁, hr, hcomes.consumed hc⟩

theorem Since.works {i : Nat} {s s' : Sampler} {w w' : Worker} {h h' : History}
    {ds es : List Deed} (hs : Since nodes₁ log₁ m i s h ds) (hm : m.wasOn = true ∨ m.isOn = true)
    (hst : s.state = .running w) (hw : Worker.Works w h es w' h')
    (hkeeps : ∀ r, (SamplerState.running w').held = some r → s'.state.held = some r) :
    Since nodes₁ log₁ m i s' h' (ds ++ es) := by
  rcases hs with hu | ⟨n₁, s₁, r₁, samples, r, hn, hs₁, hr₁, hr, hcomes⟩
  · exact .inl (hu.append es)
  rw [hst] at hr
  cases hw with
  | rests =>
    rw [List.append_nil]
    exact .inr ⟨n₁, s₁, r₁, samples, r, hn, hs₁, hr₁, hkeeps r hr, hcomes⟩
  | goesOn more hv hc ha hl =>
    cases hr
    exact .inr ⟨n₁, s₁, r₁, _, _, hn, hs₁, hr₁, hkeeps _ rfl, hcomes.sampled hm hv hc ha hl⟩
  | leaves more hv hc ha hl =>
    cases hr
    exact .inr ⟨n₁, s₁, r₁, _, _, hn, hs₁, hr₁, hkeeps _ rfl, hcomes.sampled hm hv hc ha hl⟩
  | breaksDown => exact .inl (.inl (by simp))

theorem working_since (hm : m.wasOn = true ∨ m.isOn = true) : Working (Since nodes₁ log₁ m) where
  worked hs hst hw := hs.works hm hst hw fun _ hr => hr

theorem stopping_since (hm : m.wasOn = true ∨ m.isOn = true) :
    Stopping (Since nodes₁ log₁ m) (Since nodes₁ log₁ m) where
  stopped := by
    intro i s w w' h h' ds es hs hst hw hended
    refine hs.works hm hst hw fun r hr => ?_
    cases w' with
    | working r' p => exact absurd rfl (hended r' p)
    | stopped r' => exact hr
    | broken => cases hr

theorem starting_since :
    Starting (Since nodes₁ log₁ ⟨false, false, false⟩) (Since nodes₁ log₁ ⟨false, true, false⟩)
      fun _ _ _ ds => Upset ds where
  started := by
    rintro i s r r' h ds (hu | ⟨n₁, s₁, r₁, samples, r₂, hn, hs, hr₁, hr, hcomes⟩) hst hc ha hl
    · exact .inl (hu.append _)
    · rw [hst] at hr
      cases hr
      exact .inr ⟨n₁, s₁, r₁, [], r', hn, hs, hr₁, rfl, hcomes.started hc ha hl⟩
  failed _ _ := .inr (by simp)
  lost := by
    rintro i s h ds (hu | ⟨n₁, s₁, r₁, samples, r, -, -, -, hr, -⟩) hst
    · exact hu
    · rw [hst] at hr
      cases hr

theorem discarding_since : Discarding (Since nodes₁ log₁ m) (Ended nodes₁ log₁ m) where
  released := by
    rintro i s r h ds (hu | ⟨n₁, s₁, r₁, samples, r₂, hn, hs, hr₁, hr, hcomes⟩) hst
    · exact .inl (hu.append _)
    · rw [hst] at hr
      cases hr
      refine .inr ⟨n₁, s₁, r₁, samples, r, ds, hn, hs, hr₁, hcomes, ?_⟩
      rw [hcomes.continues.exits_eq hcomes.active_eq]
  lost := by
    rintro i s h ds (hu | ⟨n₁, s₁, r₁, samples, r, -, -, -, hr, -⟩) hst
    · exact .inl hu
    · rw [hst] at hr
      cases hr

theorem stable_ended : Stable (Without (Ended nodes₁ log₁ m)) := by
  refine stable_without ?_
  rintro i h h' ds (hu | ⟨n₁, s₁, r₁, samples, r, ds', hn, hs, hr₁, hcomes, hds⟩) hc
  · exact .inl hu
  · exact .inr ⟨n₁, s₁, r₁, samples, r, ds', hn, hs, hr₁, hcomes.consumed hc, hds⟩

theorem stable_still : Stable (Without (Still nodes₁ log₁)) :=
  stable_without fun ⟨n₁, hn, hs, hf, hds⟩ hc => ⟨n₁, hn, hs, hf.consumed hc, hds⟩

def Tells (n : Node) (names : List String) (last : List UInt64) : Prop :=
  ∀ s, n.sampler = some s → ∃ r, s.state.held = some r ∧ r.active = true ∧
    r.names = names ∧ r.lastSample = last

def Follows (m : Moment) (n n' : Node) (ds ds' : List Deed) : Prop :=
  ∀ names last, n.Tells names last → ∃ samples, m.Allows names samples ∧
    n'.Tells names (samples.getLastD last) ∧ n.history.Fed samples n'.history ∧
    ds' = ds ++ m.deeds names last samples

variable {i : Nat} {n n' : Node} {ds : List Deed}

theorem tells_none (hs : n.sampler = none) (names : List String) (last : List UInt64) :
    n.Tells names last := by
  intro s hs'
  rw [hs] at hs'
  cases hs'

theorem follows_of_since {running : Bool} (h : With running (Since nodes₁ log₁ m) i n' ds)
    (hn : nodes₁[i]? = some n) (hends : m.ends = false) (hcalm : ¬ Upset ds) :
    Follows m n n' (deeds log₁ i) ds := by
  obtain ⟨-, s', hs', -, hu | ⟨n₁, s₁, r₁, samples, r, hn₁, hs₁, hr₁, hr, hcomes⟩⟩ := h
  · exact absurd hu hcalm
  rw [hn] at hn₁
  cases hn₁
  intro names last htells
  obtain ⟨r₂, hr₂, hactive, rfl, rfl⟩ := htells s₁ hs₁
  rw [hr₁] at hr₂
  cases hr₂
  refine ⟨samples, hcomes.allowed, ?_, hcomes.fed, ?_⟩
  · intro s hs
    rw [hs'] at hs
    cases hs
    exact ⟨r, hr, hcomes.active_eq.trans hactive, hcomes.continues.names_eq, hcomes.last_eq⟩
  · rw [hcomes.deeds_eq, Moment.deeds, hends]
    simp

theorem follows_of_ended {on : Bool} (h : Without (Ended nodes₁ log₁ ⟨on, false, false⟩) i n' ds)
    (hn : nodes₁[i]? = some n) (hcalm : ¬ Upset ds) :
    Follows ⟨on, false, true⟩ n n' (deeds log₁ i) ds := by
  obtain ⟨hnone, hu | ⟨n₁, s₁, r₁, samples, r, ds', hn₁, hs₁, hr₁, hcomes, hds⟩⟩ := h
  · exact absurd hu hcalm
  rw [hn] at hn₁
  cases hn₁
  intro names last htells
  obtain ⟨r₂, hr₂, hactive, rfl, rfl⟩ := htells s₁ hs₁
  rw [hr₁] at hr₂
  cases hr₂
  refine ⟨samples, ⟨hcomes.allowed.rests, hcomes.allowed.whole⟩, tells_none hnone _ _,
    hcomes.fed, ?_⟩
  rw [hds, hcomes.deeds_eq, Registry.exits, if_pos hactive, Moment.deeds]
  simp only [Moment.opening, List.append_assoc, if_true]

theorem follows_of_still (h : Without (Still nodes₁ log₁) i n' ds) (hn : nodes₁[i]? = some n) :
    Follows ⟨false, false, false⟩ n n' (deeds log₁ i) ds := by
  obtain ⟨hnone, n₁, hn₁, -, hf, hds⟩ := h
  rw [hn] at hn₁
  cases hn₁
  intro names last _
  refine ⟨[], ⟨fun _ _ => rfl, by simp⟩, tells_none hnone _ _, hf, ?_⟩
  rw [hds]
  simp [Moment.deeds, Moment.opening, sampling]

end Node

namespace ControlPlane

variable {p : ControlPlane} {site : Site} {log : Log}

def Intact (p : ControlPlane) : Prop :=
  ∀ (i : Nat) (n : Node), p.nodes[i]? = some n → ∃ names last, n.Tells names last

theorem since_start (h : Agrees p log) (hi : Intact p) (hopen : p.closed = false) {m : Moment}
    (hm : m.wasOn = true ∨ m.isOn = false) :
    Each (With p.on (Since p.nodes log m)) p.nodes log := by
  intro i n hn
  obtain ⟨hp, s, hs, hrun, -⟩ := Regime.Holds.has_sampler h hopen hn
  obtain ⟨names, last, htells⟩ := hi i n hn
  obtain ⟨r, hr, -⟩ := htells s hs
  exact ⟨hp, s, hs, hrun, .inr ⟨n, s, r, [], r, hn, hs, hr, hr, .refl hm _ _ _⟩⟩

theorem still_start (h : Agrees p log) (hc : p.closed = true) :
    Each (Without (Still p.nodes log)) p.nodes log := by
  intro i n hn
  have hnone := (h.without hc hn).1
  exact ⟨hnone, n, hn, hnone, .same _, rfl⟩

def kept (p : ControlPlane) (log : Log) : PlaceProp :=
  if p.closed then Without (Still p.nodes log)
  else With p.on (Since p.nodes log ⟨p.on, p.on, false⟩)

theorem stable_kept (p : ControlPlane) (log : Log) : Stable (kept p log) := by
  unfold kept
  cases p.closed with
  | true => exact stable_still
  | false =>
    cases p.on with
    | true => exact stable_running readable_since (working_since (.inl rfl))
    | false => exact stable_resting readable_since

theorem kept_start (h : Agrees p log) (hi : Intact p) : Each (kept p log) p.nodes log := by
  unfold kept
  cases hc : p.closed with
  | true => exact still_start h hc
  | false =>
    refine since_start h hi hc ?_
    cases p.on with
    | true => exact .inl rfl
    | false => exact .inr rfl

def EachFollows (p : ControlPlane) (log : Log) (q : ControlPlane) (log' : Log) : Prop :=
  ∀ i n n', p.nodes[i]? = some n → q.nodes[i]? = some n' → ¬ Upset (deeds log' i) →
    Follows (moment p q) n n' (deeds log i) (deeds log' i)

theorem follows_of_kept {q : ControlPlane} {log' : Log} (h : Agrees p log) (hon : q.on = p.on)
    (hclosed : q.closed = p.closed) (hkept : Each (kept p log) q.nodes log') :
    EachFollows p log q log' := by
  intro i n n' hn hn' hcalm
  have hm : moment p q = ⟨p.on, p.on, false⟩ := by
    rw [moment, hon, hclosed]
    cases p.closed <;> rfl
  have hi := hkept i n' hn'
  rw [hm]
  unfold kept at hi
  cases hc : p.closed with
  | true =>
    rw [hc] at hi
    rw [h.off_of_closed hc]
    exact follows_of_still hi hn
  | false =>
    rw [hc] at hi
    exact follows_of_since hi hn rfl hcalm

theorem start_follows (h : Agrees p site.log) (hi : Intact p) (hopen : p.closed = false)
    (hoff : p.on = false)
    (hcalm : ∀ i < p.nodes.length, ¬ Upset (deeds (p.setOn true site).2.log i)) :
    EachFollows p site.log (p.setOn true site).1 (p.setOn true site).2.log := by
  have hstart := since_start h hi hopen (m := ⟨false, false, false⟩) (.inr rfl)
  rw [hoff] at hstart
  obtain ⟨hlen, hdone⟩ := startAll_each p.pace (stable_resting readable_since)
    (stable_running readable_since (working_since (.inr rfl))) (stable_resting ⟨fun hu _ => hu⟩)
    (stable_resting readable_since) starting_since.starts
    ((stopping_since (.inr rfl)).turns p.pace) hstart
  rw [setOn_true hopen hoff] at hcalm ⊢
  rcases hdone with ⟨he, hruns⟩ | ⟨e, k, hk, -, hhalted⟩
  · intro i n n' hn hn' hcalm'
    have hm : moment p { p with
        nodes := (Node.startAll p.pace p.nodes site).1.2
        on := (Node.startAll p.pace p.nodes site).1.1.isNone } = ⟨false, true, false⟩ := by
      rw [moment, hoff, hopen, he]
      rfl
    rw [hm]
    exact follows_of_since (hruns i n' hn') hn rfl hcalm'
  · have hat := hhalted k _ (List.getElem?_eq_getElem (by omega))
    rw [Halted, if_neg (lt_irrefl k), if_pos rfl] at hat
    obtain ⟨-, s, -, -, hupset⟩ := hat
    exact absurd hupset (hcalm k hk)

theorem stopAll_since (h : Agrees p site.log) (hi : Intact p) (hopen : p.closed = false) :
    Each (With false (Since p.nodes site.log ⟨p.on, false, false⟩))
      (Node.stopAll p.pace p.nodes site).1 (Node.stopAll p.pace p.nodes site).2.log := by
  have hstart := since_start h hi hopen (m := ⟨p.on, false, false⟩) (.inr rfl)
  cases hon : p.on with
  | true =>
    rw [hon] at hstart
    exact (sweepAll_each p.pace (stable_running readable_since (working_since (.inl rfl)))
      (stable_resting readable_since) ((stopping_since (.inl rfl)).turns p.pace) hstart).1
  | false =>
    rw [hon] at hstart
    exact (sweepAll_each p.pace (stable_resting readable_since) (stable_resting readable_since)
      (fun i => turns_stop_resting p.pace i With.not_running) hstart).1

theorem stop_follows (h : Agrees p site.log) (hi : Intact p) (hopen : p.closed = false)
    (hon : p.on = true) :
    EachFollows p site.log (p.setOn false site).1 (p.setOn false site).2.log := by
  have hstopped := stopAll_since h hi hopen
  rw [hon] at hstopped
  rw [setOn_false hopen hon]
  intro i n n' hn hn' hcalm
  have hm : moment p { p with nodes := (Node.stopAll p.pace p.nodes site).1, on := false } =
      ⟨true, false, false⟩ := by
    rw [moment, hon, hopen]
    rfl
  rw [hm]
  exact follows_of_since (hstopped i n' hn') hn rfl hcalm

theorem setOn_follows (h : Agrees p site.log) (hi : Intact p) (on : Bool)
    (hcalm : ∀ i < p.nodes.length, ¬ Upset (deeds (p.setOn on site).2.log i)) :
    EachFollows p site.log (p.setOn on site).1 (p.setOn on site).2.log := by
  rcases same_or_turned p on with hsame | ⟨hopen, hne⟩
  · rw [setOn_same hsame]
    exact follows_of_kept h rfl rfl (kept_start h hi)
  · cases on with
    | true => exact start_follows h hi hopen hne hcalm
    | false => exact stop_follows h hi hopen hne

theorem shutdown_follows (h : Agrees p site.log) (hi : Intact p) :
    EachFollows p site.log (p.shutdown site).1 (p.shutdown site).2.log := by
  rw [shutdown_eq]
  cases hc : p.closed with
  | true =>
    have hstopped := (sweepAll_each p.pace stable_still stable_still
      (fun i => turns_stop_resting p.pace i Without.not_running) (still_start h hc)).1
    have hended := (sweepAll_each p.pace stable_still stable_still
      (turns_discard_without p.pace) hstopped).1
    refine follows_of_kept h (h.off_of_closed hc).symm hc.symm ?_
    rw [kept, hc, if_pos rfl]
    exact hended
  | false =>
    have hended := (sweepAll_each p.pace (stable_resting readable_since) stable_ended
      (discarding_since.turns p.pace) (stopAll_since h hi hc)).1
    intro i n n' hn hn' hcalm
    have hm (nodes : List Node) : moment p { p with nodes, on := false, closed := true } =
        ⟨p.on, false, true⟩ := by
      rw [moment, hc]
      rfl
    rw [hm]
    exact follows_of_ended (hended i n' hn') hn hcalm

theorem perform_follows (h : Agrees p site.log) (hi : Intact p) (e : Event)
    (hcalm : ∀ i < p.nodes.length, ¬ Upset (deeds (e.perform p site).2.log i)) :
    EachFollows p site.log (e.perform p site).1 (e.perform p site).2.log := by
  rcases perform_cases e p site with ⟨on, -, he⟩ | rfl | ⟨happening, rfl⟩ | ⟨-, p', hr, he⟩
  · rw [he] at hcalm ⊢
    exact setOn_follows h hi on hcalm
  · exact shutdown_follows h hi
  · exact follows_of_kept h rfl rfl
      (happen_each (stable_kept p site.log) (kept_start h hi) p.pace happening)
  · rw [he]
    obtain ⟨hon, hclosed⟩ := hr.same_switch
    exact follows_of_kept h hon hclosed (hr.each (stable_kept p site.log) (kept_start h hi))

theorem lasting_growth (before : Log) : Regime.Lasting fun i _ ds => deeds before i <+: ds where
  read h _ := h
  worked h _ := h.trans (List.prefix_append _ _)
  acted h _ := h.trans (List.prefix_append _ _)

theorem deeds_prefix (h : Agrees p site.log) (events : List Event) {i : Nat}
    (hi : i < p.nodes.length) :
    deeds site.log i <+: deeds (performAll events p site).2.log i := by
  obtain ⟨hafter, hlen⟩ :=
    (h.to_lasting (lasting_growth site.log) fun _ _ _ => List.prefix_rfl).performAll events
  rw [← hlen] at hi
  exact hafter.of_lasting (List.getElem?_eq_getElem hi)

theorem calm_before (h : Agrees p site.log) (events : List Event)
    (hcalm : ∀ i < p.nodes.length, ¬ Upset (deeds (performAll events p site).2.log i)) :
    ∀ i < p.nodes.length, ¬ Upset (deeds site.log i) := by
  intro i hi hupset
  obtain ⟨es, he⟩ := deeds_prefix h events hi
  exact hcalm i hi (he ▸ hupset.append es)

theorem performAll_follows (events : List Event) (h : Agrees p site.log) (hi : Intact p)
    (hcalm : ∀ i < p.nodes.length, ¬ Upset (deeds (performAll events p site).2.log i)) {i : Nat}
    {n : Node} {names : List String} {last : List UInt64} (hn : p.nodes[i]? = some n)
    (htells : n.Tells names last) :
    ∃ n' turns, (performAll events p site).1.nodes[i]? = some n' ∧
      turns.map Prod.fst = moments events p site ∧ (∀ t ∈ turns, t.1.Allows names t.2) ∧
      n.history.Fed (turns.flatMap Prod.snd) n'.history ∧
      deeds (performAll events p site).2.log i =
        deeds site.log i ++ Moment.replay names last turns := by
  -- The latest sample is handed on from moment to moment, whatever the switch does in between.
  induction events generalizing p site n last with
  | nil => exact ⟨n, [], hn, rfl, by simp, .same _, (List.append_nil _).symm⟩
  | cons e events ih =>
    rw [performAll_cons] at hcalm ⊢
    obtain ⟨hnow, hlen⟩ := h.perform e
    -- What goes wrong is never forgotten, so nothing has gone wrong in the first event either.
    have hcalm' := calm_before hnow events (by rwa [hlen])
    rw [hlen] at hcalm'
    have hfollows := perform_follows h hi e hcalm'
    have hnode (j : Nat) (m : Node) (hm : (e.perform p site).1.nodes[j]? = some m) :
        ∃ m₀, p.nodes[j]? = some m₀ ∧ Follows (moment p (e.perform p site).1) m₀ m
          (deeds site.log j) (deeds (e.perform p site).2.log j) := by
      have hj : j < p.nodes.length := hlen ▸ (List.getElem?_eq_some_iff.mp hm).1
      have hm₀ := List.getElem?_eq_getElem hj
      exact ⟨_, hm₀, hfollows j _ m hm₀ hm (hcalm' j hj)⟩
    have hintact : Intact (e.perform p site).1 := by
      intro j m hm
      obtain ⟨m₀, hm₀, hf⟩ := hnode j m hm
      obtain ⟨names₀, last₀, htells₀⟩ := hi j m₀ hm₀
      obtain ⟨samples, -, htells', -⟩ := hf names₀ last₀ htells₀
      exact ⟨_, _, htells'⟩
    have hlt : i < (e.perform p site).1.nodes.length := by
      rw [hlen]
      exact (List.getElem?_eq_some_iff.mp hn).1
    have hn' := List.getElem?_eq_getElem hlt
    obtain ⟨n₀, hn₀, hf⟩ := hnode i _ hn'
    rw [hn] at hn₀
    cases hn₀
    obtain ⟨samples, hallows, htells', hfed, hdeeds⟩ := hf names last htells
    obtain ⟨n'', turns, hn'', hturns, hall, hfed', hdeeds'⟩ :=
      ih hnow hintact (by rwa [hlen]) hn' htells'
    refine ⟨n'', (moment p (e.perform p site).1, samples) :: turns, hn'', ?_, ?_, ?_, ?_⟩
    · rw [List.map_cons, hturns]
      rfl
    · exact List.forall_mem_cons.mpr ⟨hallows, hall⟩
    · exact hfed.trans hfed'
    · rw [hdeeds', hdeeds, List.append_assoc]
      rfl

end ControlPlane

namespace Engine

theorem new_tells {supply : Supply} {scopes : List Scope} {gs : List Group}
    (hgs : AreGroups supply 0 scopes gs) (capacity : Nat) (pace : Pace) (limit : Nat) {i : Nat}
    {scope : Scope} (hi : scopes[i]? = some scope) :
    ∃ n, (ControlPlane.new gs capacity pace limit).nodes[i]? = some n ∧
      n.Tells (supply.names scope) (List.replicate (supply.names scope).length 0) := by
  obtain ⟨g, hg, hgroup⟩ := hgs.get hi
  refine ⟨nodeAt capacity i g, ?_, ?_⟩
  · rw [new_node, hg]
    rfl
  · rintro s ⟨⟩
    exact ⟨_, rfl, hgroup.active, hgroup.names_eq, hgroup.fresh⟩

theorem new_intact {supply : Supply} {scopes : List Scope} {gs : List Group}
    (hgs : AreGroups supply 0 scopes gs) (capacity : Nat) (pace : Pace) (limit : Nat) :
    Intact (.new gs capacity pace limit) := by
  intro i n hn
  have hi : i < scopes.length := by
    have hlt := (List.getElem?_eq_some_iff.mp hn).1
    rwa [show (ControlPlane.new gs capacity pace limit).nodes.length = scopes.length from
      List.length_mapIdx.trans hgs.length_eq] at hlt
  obtain ⟨n', hn', htells⟩ := new_tells hgs capacity pace limit (List.getElem?_eq_getElem hi)
  rw [hn] at hn'
  cases hn'
  exact ⟨_, _, htells⟩

theorem new_laid {supply : Supply} {scopes : List Scope} {gs : List Group} {capacity : Nat}
    {pace : Pace} {limit : Nat} {log : Log}
    (hlog : log.reverse = callsInTurn supply (.init true) 0 scopes)
    (hfit : ∀ n ∈ (ControlPlane.new gs capacity pace limit).nodes,
      max capacity 1 * n.history.schema.width < 2 ^ 64) (i : Nat) (n : Node)
    (hn : (ControlPlane.new gs capacity pace limit).nodes[i]? = some n) :
    n.history.Laid ∧ .overran ∉ deeds log i := by
  have hwidth := hfit n (List.mem_of_getElem? hn)
  rw [new_node] at hn
  obtain ⟨g, -, rfl⟩ := Option.map_eq_some_iff.mp hn
  refine ⟨History.laid_new hwidth, ?_⟩
  rw [deeds_eq, hlog, deedsIn_callsInTurn]
  cases scopes[i]? with
  | none => exact List.not_mem_nil
  | some scope => simp [calls]

/-- What is done with the registry of each scope after its counters have been taken on is what the
sequential machine does, which is told only when the switch is turned and when sampling ends, and the
history is given what it samples. -/
def FollowsMachine (supply : Supply) (scopes : List Scope) (p : ControlPlane) (start : Site)
    (events : List Event) : Prop :=
  ∀ i scope, scopes[i]? = some scope → ∃ n n' turns, p.nodes[i]? = some n ∧
    (performAll events p start).1.nodes[i]? = some n' ∧
    turns.map Prod.fst = moments events p start ∧
    (∀ t ∈ turns, t.1.Allows (supply.names scope) t.2) ∧
    deeds (performAll events p start).2.log i = calls (.init true) (supply.names scope) ++
      Moment.replay (supply.names scope) (List.replicate (supply.names scope).length 0) turns ∧
    n.history.Fed (turns.flatMap Prod.snd) n'.history

/-- Every thread could be started, and none broke down but for want of room in its history. -/
def Calm (ds : List Deed) : Prop := .notStarted ∉ ds ∧ (.brokeDown ∈ ds → .overran ∈ ds)

theorem Calm.not_upset {ds : List Deed} (h : Calm ds) (hover : .overran ∉ ds) : ¬ Upset ds
  | .inl hbroken => hover (h.2 hbroken)
  | .inr hfailed => h.1 hfailed

/-- As long as the words of every history can be counted, no counter breaks down and every thread can
be started, the registries follow the sequential machine. -/
theorem registries_follow_machine (supply : Supply) (s : Settings)
    (online : Except TopologyError (List Nat)) (nodes : Except TopologyError (List NumaNode))
    (clock : Nat) (site start : Site) (p : ControlPlane) (events : List Event)
    (hbuilt : assemble supply s online nodes clock { site with log := [] } = (.ok p, start))
    (hfit : ∀ n ∈ p.nodes, max s.capacity 1 * n.history.schema.width < 2 ^ 64)
    (hcalm : ∀ i, Calm (deeds (performAll events p start).2.log i)) :
    ∃ scopes, scopesOf s.mode online nodes = .ok scopes ∧ p.nodes.length = scopes.length ∧
      FollowsMachine supply scopes p start events := by
  rcases assemble_spec supply s online nodes clock site with ⟨e, herror, -⟩ |
    ⟨scopes, gs, hscopes, hgs, hok, hlog⟩ | ⟨before, scope, after, e, ds, gs, -, herror, -⟩
  · rw [hbuilt] at herror
    cases herror
  · rw [hbuilt] at hok hlog
    cases hok
    have hagrees := agrees_new gs s.capacity ⟨s.period, clock⟩ pageSize start.log
    have hlaid := new_laid hlog hfit
    refine ⟨scopes, hscopes, List.length_mapIdx.trans hgs.length_eq, ?_⟩
    intro i scope hi
    obtain ⟨n, hn, htells⟩ := new_tells hgs s.capacity ⟨s.period, clock⟩ pageSize hi
    obtain ⟨n', turns, hn', hturns, hall, hfed, hdeeds⟩ := performAll_follows events hagrees
      (new_intact hgs s.capacity ⟨s.period, clock⟩ pageSize)
      (fun i hlt => (hcalm i).not_upset (never_overruns hagrees hlaid events hlt)) hn htells
    refine ⟨n, n', turns, hn, hn', hturns, hall, ?_, hfed⟩
    rw [hdeeds, deeds_eq start.log, hlog, deedsIn_callsInTurn, hi]
    rfl
  · rw [hbuilt] at herror
    cases herror

theorem calm_of_log {log : Log}
    (h : log.all fun entry => entry.2 != .brokeDown && entry.2 != .notStarted) (i : Nat) :
    Calm (deeds log i) := by
  have hne : ∀ d ∈ deeds log i, d ≠ .brokeDown ∧ d ≠ .notStarted := by
    intro d hd
    obtain ⟨entry, hentry, rfl⟩ := List.mem_map.mp (List.mem_reverse.mp hd)
    simpa using List.all_eq_true.mp h entry (List.mem_filter.mp hentry).1
  exact ⟨fun hd => (hne _ hd).2 rfl, fun hd => absurd rfl (hne _ hd).1⟩

theorem two_cycles_follow_machine :
    let supply : Supply := fun _ =>
      .ok [.timing .timestamp, .timing .interval, .probe { name := "work" }]
    let s : Settings := { capacity := 2 }
    let site : Site := { clocks := #[{ now := 5, step := 7 }] }
    let cycle : List Event := [.setOn true, .thread (.step 0), .thread (.step 0), .setOn false]
    let events := cycle ++ cycle ++ [.shutdown]
    ∃ p start, assemble supply s (.ok [0]) (.ok []) 0 { site with log := [] } = (.ok p, start) ∧
      (∀ n ∈ p.nodes, max s.capacity 1 * n.history.schema.width < 2 ^ 64) ∧
      (∀ i, Calm (deeds (performAll events p start).2.log i)) ∧
      ∃ scopes, scopesOf s.mode (.ok [0]) (.ok []) = .ok scopes ∧
        p.nodes.length = scopes.length ∧ FollowsMachine supply scopes p start events := by
  intro supply s site cycle events
  have hrun : (assemble supply s (.ok [0]) (.ok []) 0 { site with log := [] }).1.toOption.any
      (fun p => p.nodes.all (fun n => max s.capacity 1 * n.history.schema.width < 2 ^ 64) &&
        (performAll events p
          (assemble supply s (.ok [0]) (.ok []) 0 { site with log := [] }).2).2.log.all
            fun entry => entry.2 != .brokeDown && entry.2 != .notStarted) = true := by
    decide +kernel
  rcases hbuilt : assemble supply s (.ok [0]) (.ok []) 0 { site with log := [] } with ⟨_ | p, start⟩
  · rw [hbuilt] at hrun
    cases hrun
  · simp only [hbuilt, Except.toOption, Option.any_some, Bool.and_eq_true] at hrun
    have hfit : ∀ n ∈ p.nodes, max s.capacity 1 * n.history.schema.width < 2 ^ 64 :=
      fun n hn => of_decide_eq_true (List.all_eq_true.mp hrun.1 n hn)
    have hcalm : ∀ i, Calm (deeds (performAll events p start).2.log i) := calm_of_log hrun.2
    exact ⟨p, start, rfl, hfit, hcalm, registries_follow_machine supply s (.ok [0]) (.ok []) 0 site
      start p events hbuilt hfit hcalm⟩

end Engine

end NodeTelemetry
