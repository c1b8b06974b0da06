import Mathlib
import NodeTelemetry.Proofs.Handshake

namespace NodeTelemetry

open Thread

namespace Handshake

variable {trace after : List Event} {e x : Event} {e? : Option Event} {i j : Nat} {s : Spawned}
  {p : Handshake} {sign? : Option Sign} {t : Thread}

def SinceTold (count : Nat) (trace : List Event) : Prop :=
  ∀ i after, .told i :: after <:+ trace → (∀ j, .started j ∉ after) →
    i + 1 = count ∧ samples after = samplesOf i after

def SinceReturned (done : Prop) (trace : List Event) : Prop :=
  ∀ i after, .returned i :: after <:+ trace → (∀ j, .started j ∉ after) → samples after = [] ∧ done

theorem SinceTold.append {count : Nat} (h : SinceTold count trace)
    (ht : ∀ i, e? = some (.told i) → i + 1 = count)
    (hs : ∀ i, i + 1 = count → samples e?.toList = samplesOf i e?.toList) :
    SinceTold count (trace ++ e?.toList) := by
  intro i after ha hno
  rcases cons_suffix_append ha with ⟨he, rfl⟩ | ⟨rest, rfl, hrest⟩
  · exact ⟨ht i he, rfl⟩
  · obtain ⟨hlast, hsame⟩ := h i rest hrest fun k hk => hno k (List.mem_append_left _ hk)
    rw [samples_append, samplesOf_append, hsame, hs i hlast]
    exact ⟨hlast, rfl⟩

theorem SinceReturned.append {done done' : Prop} (h : SinceReturned done trace)
    (hr : ∀ i, e? = some (.returned i) → done') (hd : done → samples e?.toList = [] ∧ done') :
    SinceReturned done' (trace ++ e?.toList) := by
  intro i after ha hno
  rcases cons_suffix_append ha with ⟨he, rfl⟩ | ⟨rest, rfl, hrest⟩
  · exact ⟨rfl, hr i he⟩
  · obtain ⟨hquiet, hdone⟩ := h i rest hrest fun k hk => hno k (List.mem_append_left _ hk)
    obtain ⟨hnone, hdone'⟩ := hd hdone
    rw [samples_append, hquiet, hnone]
    exact ⟨rfl, hdone'⟩

def InHand (p : Handshake) (i : Nat) : Prop := p.stance = .runs i ∨ p.stance = .joins i

def Done (p : Handshake) : Prop :=
  ∀ (i : Nat) (s : Spawned), p.spawned[i]? = some s → ¬ s.thread.Live

/-- What holds after any moves, from a sampler on that holds a registry and has started nothing. -/
structure Orderly (r : Registry) (h : History) (trace : List Event) (p : Handshake) : Prop where
  known : ∀ i, p.spawned.length ≤ i → ∀ e ∈ trace, e.Foreign i
  obeys : ∀ (i : Nat) (s : Spawned), p.spawned[i]? = some s → Obeys i trace s
  latest : ∀ i, p.InHand i → i + 1 = p.spawned.length
  live : ∀ (i : Nat) (s : Spawned), p.spawned[i]? = some s → s.thread.Live → p.InHand i
  sinceTold : SinceTold p.spawned.length trace
  sinceReturned : SinceReturned p.Done trace
  held : ∀ r', p.stance = .holds r' → r'.lastSample = (samples trace).getLastD r.lastSample
  inHand : ∀ (i : Nat) (s : Spawned), p.InHand i → p.spawned[i]? = some s →
    s.thread.Follows ((samples trace).getLastD r.lastSample)
  history : p.history = trace.foldl Event.change h

theorem orderly_new (name : String) (r : Registry) (h : History) (pace : Pace) :
    Orderly r h [] { name, stance := .holds r, history := h, pace } where
  known i hi e he := absurd he List.not_mem_nil
  obeys i s hs := by cases hs
  latest i hi := by rcases hi with hi | hi <;> cases hi
  live i s hs := by cases hs
  sinceTold i after ha := absurd (ha.mem List.mem_cons_self) List.not_mem_nil
  sinceReturned i after ha := absurd (ha.mem List.mem_cons_self) List.not_mem_nil
  held r' hr := by
    cases hr
    rfl
  inHand i s hi := by rcases hi with hi | hi <;> cases hi
  history := rfl

variable {r : Registry} {h : History}

theorem getElem?_set_cases {l : List Spawned} {s₁ s₂ : Spawned} (hs : l[i]? = some s)
    (hj : (l.set i s₁)[j]? = some s₂) : i = j ∧ s₂ = s₁ ∨ i ≠ j ∧ l[j]? = some s₂ := by
  by_cases hij : i = j
  · subst hij
    rw [List.getElem?_set_self (List.getElem?_eq_some_iff.mp hs).1] at hj
    exact .inl ⟨rfl, (Option.some.inj hj).symm⟩
  · rw [List.getElem?_set_ne hij] at hj
    exact .inr ⟨hij, hj⟩

theorem getElem?_concat_cases {l : List Spawned} {s₁ s₂ : Spawned} (hj : (l ++ [s₁])[j]? = some s₂) :
    l[j]? = some s₂ ∨ j = l.length ∧ s₂ = s₁ := by
  rw [List.getElem?_append] at hj
  by_cases hlt : j < l.length
  · rw [if_pos hlt] at hj
    exact .inl hj
  · rw [if_neg hlt, List.getElem?_singleton] at hj
    obtain ⟨hz, he⟩ := Option.ite_none_right_eq_some.mp hj
    exact .inr ⟨by omega, (Option.some.inj he).symm⟩

theorem did_ne (hne : ∀ sign, x ≠ .did i sign) : sign?.map (Event.did i) ≠ some x := by
  intro he
  obtain ⟨sign, -, hx⟩ := Option.map_eq_some_iff.mp he
  exact hne sign hx.symm

theorem not_inHand_of_holds (hst : p.stance = .holds r) (i : Nat) : ¬ p.InHand i := by
  rintro (hi | hi) <;> cases hst.symm.trans hi

namespace Orderly

theorem unique (ho : Orderly r h trace p) (hi : p.InHand i) (hj : p.InHand j) : i = j := by
  have hlatest := ho.latest i hi
  have hlatest' := ho.latest j hj
  omega

theorem done (ho : Orderly r h trace p) (hidle : ∀ i, ¬ p.InHand i) : p.Done :=
  fun i s hs hl => hidle i (ho.live i s hs hl)

theorem known_append (ho : Orderly r h trace p) {count : Nat} (hlen : p.spawned.length ≤ count)
    (he : ∀ i, count ≤ i → ∀ e, e? = some e → e.Foreign i) :
    ∀ i, count ≤ i → ∀ e ∈ trace ++ e?.toList, e.Foreign i := by
  intro i hi e hmem
  rcases mem_append_toList hmem with hmem | hmem
  · exact ho.known i (hlen.trans hi) e hmem
  · exact he i hi e hmem

theorem goes (ho : Orderly r h trace p) (hs : p.spawned[i]? = some s)
    (hg : Goes s.token s.thread sign? t) :
    Orderly r h (trace ++ (sign?.map (.did i)).toList)
      { p with
        spawned := p.spawned.set i { s with thread := t }
        history := p.history.pushAll (pushedBy sign?) } := by
  have hlen : (p.spawned.set i { s with thread := t }).length = p.spawned.length := List.length_set
  have hi : i < p.spawned.length := (List.getElem?_eq_some_iff.mp hs).1
  have hforeign {j : Nat} (hj : i ≠ j) : ∀ e, sign?.map (Event.did i) = some e → e.Foreign j := by
    intro e he
    obtain ⟨sign, -, rfl⟩ := Option.map_eq_some_iff.mp he
    exact hj
  -- Only the thread in hand does anything that is seen.
  have hsilent (hn : ¬ p.InHand i) : sign? = none := by
    cases sign? with
    | none => rfl
    | some sign => exact absurd (ho.live i s hs hg.live_of_sign) hn
  constructor
  case known =>
    rw [hlen]
    exact ho.known_append (Nat.le_refl _) fun j hj => hforeign (by omega)
  case obeys =>
    intro j s' hj
    rcases getElem?_set_cases hs hj with ⟨rfl, rfl⟩ | ⟨hne, hj⟩
    · exact (ho.obeys i s hs).goes hg
    · exact (ho.obeys j s' hj).foreign (hforeign hne)
  case latest =>
    rw [hlen]
    exact ho.latest
  case live =>
    intro j s' hj hl
    rcases getElem?_set_cases hs hj with ⟨rfl, rfl⟩ | ⟨-, hj⟩
    · exact ho.live i s hs (hg.live hl)
    · exact ho.live j s' hj hl
  case sinceTold =>
    rw [hlen]
    apply ho.sinceTold.append
    · intro j he
      exact absurd he (did_ne nofun)
    · intro j hj
      by_cases hij : i = j
      · rw [← hij, samples_did, samplesOf_did]
      · have hn : ¬ p.InHand i := by
          intro hhand
          have hlatest := ho.latest i hhand
          omega
        rw [hsilent hn]
        rfl
  case sinceReturned =>
    apply ho.sinceReturned.append
    · intro j he
      exact absurd he (did_ne nofun)
    · intro hdone
      have hdead : ¬ s.thread.Live := hdone i s hs
      constructor
      · rw [samples_did]
        cases sign? with
        | none => rfl
        | some sign => exact absurd hg.live_of_sign hdead
      · intro k s' hk hl
        rcases getElem?_set_cases hs hk with ⟨rfl, rfl⟩ | ⟨-, hk⟩
        · exact hdead (hg.live hl)
        · exact hdone k s' hk hl
  case held =>
    intro r' hr
    rw [hsilent (not_inHand_of_holds (p := p) hr i), Option.map_none, Option.toList_none,
      List.append_nil]
    exact ho.held r' hr
  case inHand =>
    intro j s' hj hs'
    rw [samples_append, samples_did, getLastD_append]
    rcases getElem?_set_cases hs hs' with ⟨rfl, rfl⟩ | ⟨hne, hs'⟩
    · exact hg.follows (ho.inHand i s hj hs)
    · rw [hsilent fun hhand => hne (ho.unique hhand hj)]
      exact ho.inHand j s' hj hs'
  case history =>
    rw [List.foldl_append, ← ho.history]
    cases sign? <;> rfl

theorem launch (ho : Orderly r h trace p) {r₁ r₂ : Registry} (hst : p.stance = .holds r₁)
    (hlast : r₂.lastSample = r₁.lastSample) :
    Orderly r h (trace ++ (some (Event.started p.spawned.length)).toList)
      { p with
        spawned := p.spawned ++ [{ thread := .inLoop r₂ .head }]
        stance := .runs p.spawned.length } := by
  have hforeign (i : Nat) : ∀ e, some (Event.started p.spawned.length) = some e → e.Foreign i := by
    rintro _ ⟨⟩
    trivial
  have hnone : samples (some (Event.started p.spawned.length)).toList = [] := rfl
  -- No stop is pending any more: whatever has come since the last one ends with this start.
  have hstarted (x : Event) (after : List Event) (hx : x ≠ .started p.spawned.length)
      (ha : x :: after <:+ trace ++ (some (Event.started p.spawned.length)).toList) :
      .started p.spawned.length ∈ after := by
    rcases cons_suffix_append ha with ⟨he, -⟩ | ⟨rest, rfl, -⟩
    · exact absurd (Option.some.inj he).symm hx
    · exact List.mem_append_right _ List.mem_cons_self
  constructor
  case known =>
    apply ho.known_append
    · rw [List.length_append]
      exact Nat.le_add_right _ _
    · exact fun i _ => hforeign i
  case obeys =>
    intro j s hs
    rcases getElem?_concat_cases hs with hs | ⟨rfl, rfl⟩
    · exact (ho.obeys j s hs).foreign (hforeign j)
    · exact .new r₂ (ho.known_append (Nat.le_refl _) (fun i _ => hforeign i) _ (Nat.le_refl _))
  case latest =>
    rintro i (hi | hi) <;> cases hi
    rw [List.length_append]
    rfl
  case live =>
    intro j s hs hl
    rcases getElem?_concat_cases hs with hs | ⟨rfl, rfl⟩
    · exact absurd hl (ho.done (not_inHand_of_holds hst) j s hs)
    · exact .inl rfl
  case sinceTold =>
    intro i after ha hno
    exact absurd (hstarted (.told i) after nofun ha) (hno _)
  case sinceReturned =>
    intro i after ha hno
    exact absurd (hstarted (.returned i) after nofun ha) (hno _)
  case held =>
    intro r' hr
    cases hr
  case inHand =>
    rintro j s (hj | hj) hs <;> cases hj
    rcases getElem?_concat_cases hs with hs | ⟨-, rfl⟩
    · have hlt := (List.getElem?_eq_some_iff.mp hs).1
      omega
    · rw [samples_append, hnone, List.append_nil]
      exact hlast.trans (ho.held r₁ hst)
  case history =>
    rw [List.foldl_append, ← ho.history]
    rfl

theorem tell (ho : Orderly r h trace p) (hst : p.stance = .runs i) (hs : p.spawned[i]? = some s) :
    Orderly r h (trace ++ (some (Event.told i)).toList)
      { p with spawned := p.spawned.set i { s with token := true }, stance := .joins i } := by
  have hlen : (p.spawned.set i { s with token := true }).length = p.spawned.length :=
    List.length_set
  have hhand : p.InHand i := .inl hst
  have hlatest := ho.latest i hhand
  have hnone : samples (some (Event.told i)).toList = [] := rfl
  have hforeign {j : Nat} (hj : i ≠ j) : ∀ e, some (Event.told i) = some e → e.Foreign j := by
    rintro _ ⟨⟩
    exact hj
  have hstill {j : Nat} {s' : Spawned}
      (hj : (p.spawned.set i { s with token := true })[j]? = some s') :
      ∃ s'', p.spawned[j]? = some s'' ∧ s''.thread = s'.thread := by
    rcases getElem?_set_cases hs hj with ⟨rfl, rfl⟩ | ⟨-, hj⟩
    · exact ⟨s, hs, rfl⟩
    · exact ⟨s', hj, rfl⟩
  constructor
  case known =>
    rw [hlen]
    exact ho.known_append (Nat.le_refl _) fun j hj => hforeign (by omega)
  case obeys =>
    intro j s' hj
    rcases getElem?_set_cases hs hj with ⟨rfl, rfl⟩ | ⟨hne, hj⟩
    · exact (ho.obeys i s hs).tell
    · exact (ho.obeys j s' hj).foreign (hforeign hne)
  case latest =>
    rintro j (hj | hj) <;> cases hj
    rw [hlen]
    exact hlatest
  case live =>
    intro j s' hj hl
    obtain ⟨s'', hj, he⟩ := hstill hj
    rw [← he] at hl
    cases ho.unique hhand (ho.live j s'' hj hl)
    exact .inr rfl
  case sinceTold =>
    rw [hlen]
    apply ho.sinceTold.append
    · rintro j ⟨⟩
      exact hlatest
    · intro j hj
      rfl
  case sinceReturned =>
    apply ho.sinceReturned.append
    · rintro j ⟨⟩
    · intro hdone
      refine ⟨hnone, ?_⟩
      intro k s' hk hl
      obtain ⟨s'', hk, he⟩ := hstill hk
      rw [← he] at hl
      exact hdone k s'' hk hl
  case held =>
    intro r' hr
    cases hr
  case inHand =>
    rintro j s' (hj | hj) hs' <;> cases hj
    obtain ⟨s'', hj, he⟩ := hstill hs'
    rw [samples_append, hnone, List.append_nil, ← he]
    exact ho.inHand i s'' hhand hj
  case history =>
    rw [List.foldl_append, ← ho.history]
    rfl

theorem aside (ho : Orderly r h trace p) {p' : Handshake} (hsp : p'.spawned = p.spawned)
    (hforeign : ∀ e, e? = some e → ∀ i, e.Foreign i)
    (hreturned : ∀ i, e? = some (.returned i) → p.Done)
    (hhand : ∀ i, p'.InHand i → p.InHand i) (hlive : p.Done ∨ ∀ i, p.InHand i → p'.InHand i)
    (hheld : ∀ r', p'.stance = .holds r' → r'.lastSample = (samples trace).getLastD r.lastSample)
    (hhistory : p'.history = e?.toList.foldl Event.change p.history) :
    Orderly r h (trace ++ e?.toList) p' := by
  have hnone := samples_foreign hforeign
  have hdone : p.Done → p'.Done := by
    intro hd
    rw [Done, hsp]
    exact hd
  constructor
  case known =>
    rw [hsp]
    exact ho.known_append (Nat.le_refl _) fun j _ e he => hforeign e he j
  case obeys =>
    intro j s hs
    rw [hsp] at hs
    exact (ho.obeys j s hs).foreign fun e he => hforeign e he j
  case latest =>
    intro j hj
    rw [hsp]
    exact ho.latest j (hhand j hj)
  case live =>
    intro j s hs hl
    rw [hsp] at hs
    rcases hlive with hd | hlive
    · exact absurd hl (hd j s hs)
    · exact hlive j (ho.live j s hs hl)
  case sinceTold =>
    rw [hsp]
    apply ho.sinceTold.append
    · intro j he
      exact absurd rfl (hforeign _ he j)
    · intro j hj
      rw [hnone, samplesOf_foreign fun e he => hforeign e he j]
  case sinceReturned =>
    apply ho.sinceReturned.append
    · exact fun j he => hdone (hreturned j he)
    · exact fun hd => ⟨hnone, hdone hd⟩
  case held =>
    intro r' hr
    rw [samples_append, hnone, List.append_nil]
    exact hheld r' hr
  case inHand =>
    intro j s hj hs
    rw [hsp] at hs
    rw [samples_append, hnone, List.append_nil]
    exact ho.inHand j s (hhand j hj) hs
  case history =>
    rw [List.foldl_append, ← ho.history]
    exact hhistory

theorem settle (ho : Orderly r h trace p) (hst : p.stance = .joins i) (hs : p.spawned[i]? = some s)
    (hdead : ¬ s.thread.Live) {stance : Stance}
    (hidle : ∀ j, ¬ ({ p with stance } : Handshake).InHand j)
    (hback : ∀ r', stance = .holds r' → s.thread = .ended r') :
    Orderly r h (trace ++ (some (Event.returned i)).toList) { p with stance } := by
  have hdone : p.Done := by
    intro j s' hj hl
    cases ho.unique (.inr hst) (ho.live j s' hj hl)
    cases hs.symm.trans hj
    exact hdead hl
  apply ho.aside
  · rfl
  · rintro e ⟨⟩ j
    trivial
  · exact fun _ _ => hdone
  · exact fun j hj => absurd hj (hidle j)
  · exact .inl hdone
  · intro r' hr
    have hfollows := ho.inHand i s (.inr hst) hs
    rw [hback r' hr] at hfollows
    exact hfollows
  · rfl

end Orderly

theorem onThread_none {act : Spawned → History → StateM Site (Option Sign × Thread × History)}
    (hs : p.spawned[i]? = none) (site : Site) : p.onThread i act site = ((none, p), site) := by
  simp only [onThread, hs]
  rfl

theorem onThread_some {act : Spawned → History → StateM Site (Option Sign × Thread × History)}
    (hs : p.spawned[i]? = some s) (site : Site) :
    p.onThread i act site =
      let done := act s p.history site
      ((done.1.1.map (.did i),
        { p with
          spawned := p.spawned.set i { s with thread := done.1.2.1 }
          history := done.1.2.2 }), done.2) := by
  simp only [onThread, hs]
  rfl

theorem start_cases (name : String) (r : Registry) (site : Site) :
    let s := (Sampler.start { name, state := .stopped r } site).1.2
    (∃ r', r'.lastSample = r.lastSample ∧ s.state = .running (.working r' .checking)) ∨
      s.state = .lost := by
  have hlast := (r.reset_spec site).2.2.1
  rcases hr : r.reset site with ⟨r', site'⟩
  rw [hr] at hlast
  rcases hsp : Site.spawn site' with ⟨_ | _, site''⟩
  · right
    simp only [Sampler.start, bind, StateT.bind, hr, hsp]
    rfl
  · left
    refine ⟨r', hlast, ?_⟩
    simp only [Sampler.start, bind, StateT.bind, hr, hsp]
    rfl

theorem start_inHand (hi : p.InHand i) (site : Site) :
    p.step .start site = ((none, p), site) := by
  rcases hi with hi | hi
  · simp only [step, start, hi]
    rfl
  · simp only [step, start, hi]
    rfl

theorem tell_runs (hst : p.stance = .runs i) (hs : p.spawned[i]? = some s) :
    p.tell = (some (.told i),
      { p with spawned := p.spawned.set i { s with token := true }, stance := .joins i }) := by
  have hset : p.spawned.modify i (fun s => { s with token := true }) =
      p.spawned.set i { s with token := true } := by
    rw [List.modify_eq_set_getElem?, hs]
    rfl
  simp only [tell, hst, hset]

theorem tell_other (hst : ∀ i, p.stance ≠ .runs i) : p.tell = (none, p) := by
  cases hs : p.stance with
  | runs i => exact absurd hs (hst i)
  | _ => simp only [tell, hs]

namespace Orderly

theorem still (ho : Orderly r h trace p) : Orderly r h (trace ++ (none : Option Event).toList) p := by
  rw [Option.toList_none, List.append_nil]
  exact ho

theorem start (ho : Orderly r h trace p) (site : Site) :
    Orderly r h (trace ++ (p.start site).1.1.toList) (p.start site).1.2 := by
  cases hst : p.stance with
  | holds r₁ =>
    have hstart : p.start site =
        let done := Sampler.start { name := p.name, state := .stopped r₁ } site
        (p.afterStart done.1.2.state, done.2) := by
      simp only [Handshake.start, hst]
      rfl
    rw [hstart]
    rcases start_cases p.name r₁ site with ⟨r₂, hlast, hrun⟩ | hlost
    · dsimp only
      rw [hrun]
      exact ho.launch hst hlast
    · dsimp only
      rw [hlost]
      apply ho.aside
      · rfl
      · exact nofun
      · exact nofun
      · rintro i (hi | hi) <;> cases hi
      · exact .inl (ho.done (not_inHand_of_holds hst))
      · exact nofun
      · rfl
  | _ =>
    simp only [Handshake.start, hst]
    exact ho.still

theorem tells (ho : Orderly r h trace p) : Orderly r h (trace ++ p.tell.1.toList) p.tell.2 := by
  by_cases hst : ∃ i, p.stance = .runs i
  · obtain ⟨i, hst⟩ := hst
    have hlatest := ho.latest i (.inl hst)
    have hs := List.getElem?_eq_getElem (show i < p.spawned.length by omega)
    rw [tell_runs hst hs]
    exact ho.tell hst hs
  · rw [tell_other fun i hi => hst ⟨i, hi⟩]
    exact ho.still

theorem join (ho : Orderly r h trace p) : Orderly r h (trace ++ p.join.1.toList) p.join.2 := by
  cases hst : p.stance with
  | joins i =>
    cases hs : p.spawned[i]? with
    | none =>
      simp only [Handshake.join, hst, hs]
      exact ho.still
    | some s =>
      cases ht : s.thread with
      | inLoop r₁ stand =>
        simp only [Handshake.join, hst, hs, Option.map_some, ht]
        exact ho.still
      | ended r₁ =>
        simp only [Handshake.join, hst, hs, Option.map_some, ht]
        apply ho.settle hst hs
        · rw [ht]
          exact id
        · exact not_inHand_of_holds rfl
        · rintro r' ⟨⟩
          exact ht
      | broken =>
        simp only [Handshake.join, hst, hs, Option.map_some, ht]
        apply ho.settle hst hs
        · rw [ht]
          exact id
        · rintro j (hj | hj) <;> cases hj
        · exact nofun
  | _ =>
    simp only [Handshake.join, hst]
    exact ho.still

theorem quiet (ho : Orderly r h trace p) (pace : Pace) : Orderly r h trace { p with pace } :=
  { ho with }

theorem consumes (ho : Orderly r h trace p) (he : ∀ i, e.Foreign i) (hne : ∀ i, e ≠ .returned i) :
    Orderly r h (trace ++ (some e).toList) { p with history := e.change p.history } := by
  apply ho.aside
  · rfl
  · rintro e ⟨⟩
    exact he
  · rintro i hi
    exact absurd (Option.some.inj hi) (hne i)
  · exact fun _ hi => hi
  · exact .inr fun _ hi => hi
  · exact ho.held
  · rfl

theorem step (ho : Orderly r h trace p) (m : Move) (site : Site) :
    Orderly r h (trace ++ (p.step m site).1.1.toList) (p.step m site).1.2 := by
  cases m with
  | thread i =>
    cases hs : p.spawned[i]? with
    | none =>
      rw [Handshake.step, onThread_none hs]
      exact ho.still
    | some s =>
      have hgoes := ho.goes hs (s.thread.step_goes p.pace s.token p.history site)
      rw [← history_step] at hgoes
      rw [Handshake.step, onThread_some hs]
      exact hgoes
  | crash i =>
    cases hs : p.spawned[i]? with
    | none =>
      rw [Handshake.step, onThread_none hs]
      exact ho.still
    | some s =>
      rw [Handshake.step, onThread_some hs]
      exact ho.goes hs (s.thread.crash_goes s.token site)
  | start => exact ho.start site
  | tell => exact ho.tells
  | join => exact ho.join
  | drain limit => exact ho.consumes (fun _ => trivial) nofun
  | clear => exact ho.consumes (fun _ => trivial) nofun
  | setPace pace => exact (ho.quiet pace).still
  | elsewhere site' => exact ho.still

theorem play (moves : List Move) (site : Site) (ho : Orderly r h trace p) :
    Orderly r h (trace ++ (Handshake.play moves p site).1.1) (Handshake.play moves p site).1.2 := by
  induction moves generalizing p site trace with
  | nil =>
    change Orderly r h (trace ++ []) p
    rw [List.append_nil]
    exact ho
  | cons m moves ih =>
    have hrest := ih (p.step m site).2 (ho.step m site)
    rw [List.append_assoc] at hrest
    exact hrest

theorem spawned_of_mem (ho : Orderly r h trace p) (he : e ∈ trace) (hi : ¬ e.Foreign i) :
    ∃ s, p.spawned[i]? = some s := by
  have hlt : i < p.spawned.length := by
    by_contra hle
    exact hi (ho.known i (Nat.le_of_not_lt hle) e he)
  exact ⟨_, List.getElem?_eq_getElem hlt⟩

theorem pushes_at_most_one (ho : Orderly r h trace p) (ha : .told i :: after <:+ trace) :
    (samplesOf i after).length ≤ 1 ∧
      ((∀ j, .started j ∉ after) → (samples after).length ≤ 1) := by
  obtain ⟨s, hs⟩ := ho.spawned_of_mem (ha.mem List.mem_cons_self) fun hf => hf rfl
  have hone := (ho.obeys i s hs).due after ha
  have hle : (samplesOf i after).length ≤ 1 := by omega
  refine ⟨hle, ?_⟩
  intro hno
  rw [(ho.sinceTold i after ha hno).2]
  exact hle

theorem begins_nothing (ho : Orderly r h trace p) {sign : Sign}
    (ha : .did i sign :: after <:+ trace) (hf : sign.Finds) :
    .did i .began ∉ after ∧ .did i .slept ∉ after ∧ ∀ v, .did i (.pushed v) ∉ after := by
  obtain ⟨s, hs⟩ := ho.spawned_of_mem (ha.mem List.mem_cons_self) fun hd => hd rfl
  have hsilent := (ho.obeys i s hs).silent sign after ha hf
  refine ⟨?_, ?_, ?_⟩
  · intro hd
    cases hsilent .began hd
  · intro hd
    cases hsilent .slept hd
  · intro v hd
    cases hsilent (.pushed v) hd

theorem hands_back (ho : Orderly r h trace p) {r' : Registry} (hs : p.spawned[i]? = some s)
    (ht : s.thread = .ended r') {v : List UInt64} (hv : (samplesOf i trace).getLast? = some v) :
    r'.lastSample = v := by
  obtain ⟨last, hl⟩ := (ho.obeys i s hs).follows
  rw [ht, List.getLastD_eq_getLast?, hv] at hl
  exact hl

end Orderly

/-- Whatever is done in whatever order, a thread that has been told to stop pushes one more sample at
most and, once it finds that it is to stop, begins nothing any more. -/
theorem stop_is_obeyed (name : String) (r : Registry) (h : History) (pace : Pace)
    (moves : List Move) (site : Site) :
    let done := play moves { name, stance := .holds r, history := h, pace } site
    let trace := done.1.1
    let p := done.1.2
    (∀ i after, .told i :: after <:+ trace → (samplesOf i after).length ≤ 1 ∧
      ((∀ j, .started j ∉ after) → (samples after).length ≤ 1)) ∧
    (∀ i sign after, .did i sign :: after <:+ trace → sign.Finds →
      .did i .began ∉ after ∧ .did i .slept ∉ after ∧ ∀ v, .did i (.pushed v) ∉ after) ∧
    (∀ i after, .returned i :: after <:+ trace → (∀ j, .started j ∉ after) → samples after = []) ∧
    (∀ (i : Nat) (s : Spawned) (r' : Registry), p.spawned[i]? = some s → s.thread = .ended r' →
      ∀ v, (samplesOf i trace).getLast? = some v → r'.lastSample = v) ∧
    (∀ r', p.stance = .holds r' → r'.lastSample = (samples trace).getLastD r.lastSample) ∧
    (∀ (i : Nat) (s : Spawned), p.spawned[i]? = some s → s.thread.Live → p.InHand i) ∧
    (∀ (i j : Nat) (s s' : Spawned), p.spawned[i]? = some s → p.spawned[j]? = some s' →
      s.thread.Live → s'.thread.Live → i = j) ∧
    (∀ i, p.InHand i → ∀ now, p.step .start now = ((none, p), now)) ∧
    p.history = trace.foldl Event.change h := by
  intro done trace p
  have ho : Orderly r h trace p := (orderly_new name r h pace).play moves site
  refine ⟨?_, ?_, ?_, ?_, ho.held, ho.live, ?_, ?_, ho.history⟩
  · intro i after ha
    exact ho.pushes_at_most_one ha
  · intro i sign after ha hf
    exact ho.begins_nothing ha hf
  · intro i after ha hno
    exact (ho.sinceReturned i after ha hno).1
  · intro i s r' hs ht v hv
    exact ho.hands_back hs ht hv
  · intro i j s s' hs hs' hl hl'
    exact ho.unique (ho.live i s hs hl) (ho.live j s' hs' hl')
  · intro i hi now
    exact start_inHand hi now

example :
    let slots : List Slot := [⟨.timing .timestamp, 0⟩, ⟨.timing .interval, 0⟩]
    let schema : Schema := [⟨"ts", none⟩, ⟨"intv", none⟩]
    let p : Handshake :=
      { name := "global", stance := .holds { slots, schema, tracer := { clock := 0 } },
        history := .new schema 2, pace := ⟨100, 0⟩ }
    let site : Site := { clocks := #[{ now := 5, step := 7 }] }
    let moves : List Move :=
      [.start, .thread 0, .thread 0, .tell] ++ List.replicate 4 (.thread 0) ++ [.join]
    (play moves p site).1.1 =
      [.started 0, .did 0 (.looked false), .did 0 .began, .told 0, .did 0 (.pushed [12, 7]),
        .did 0 (.looked true), .returned 0] := by
  decide +kernel

end Handshake

end NodeTelemetry
