import Mathlib
import NodeTelemetry.Proofs.WorkerDeeds

namespace NodeTelemetry

inductive Stand
  | head
  | begun
  | sampled (sample : List UInt64)
  | pushed (sample : List UInt64)
  | counted (sample : List UInt64)
  | ticked (budget : UInt64)
  | resting (budget : UInt64)
  | asleep (budget : UInt64)

/-- A worker whose tick takes several steps, so that others act in the midst of it. -/
inductive Thread
  | inLoop (registry : Registry) (stand : Stand)
  | ended (registry : Registry)
  | broken

inductive Sign
  | looked (told : Bool)
  | began
  | pushed (sample : List UInt64)
  | slept
  | woke (told : Bool)
  deriving DecidableEq

namespace Sign

def sample? : Sign → Option (List UInt64)
  | .pushed sample => some sample
  | _ => none

def Finds : Sign → Prop
  | .looked told => told = true
  | .woke told => told = true
  | _ => False

end Sign

namespace Thread

open Stand

def step (pace : Pace) (told : Bool) : Thread → History → StateM Site (Option Sign × Thread × History)
  | .inLoop r .head, h =>
    pure (some (.looked told), if told then .ended r else .inLoop r .begun, h)
  | .inLoop r .begun, h => do
    let (sample?, r) ← r.sample
    match sample? with
    | some sample => pure (some .began, .inLoop r (.sampled sample), h)
    | none => do
      let _ ← Worker.crash (.working r .ticking)
      pure (some .began, .broken, h)
  | .inLoop r (.sampled sample), h => do
    match ← h.push? sample with
    | none => do
      Site.note r.place .overran
      let _ ← Worker.crash (.working r .ticking)
      pure (none, .broken, h)
    | some h => do
      Site.note r.place (.push sample)
      pure (some (.pushed sample), .inLoop r (.pushed sample), h)
  | .inLoop r (.pushed sample), h => do
    Site.count fun m => { m with ticks := m.ticks + 1 }
    pure (none, .inLoop r (.counted sample), h)
  | .inLoop r (.counted sample), h => do
    let now ← Site.readClock pace.clock
    let overhead := satSub now (sample.headD 0)
    let budget := sleepBudget (satMul pace.period nanosPerMilli) overhead
    pure (none, .inLoop r (.ticked budget), h)
  | .inLoop r (.ticked budget), h =>
    pure (some (.looked told), if told then .ended r else .inLoop r (.resting budget), h)
  | .inLoop r (.resting budget), h =>
    if budget = 0 then pure (none, .inLoop r .head, h)
    else if told then pure (some (.looked true), .inLoop r .head, h)
    else pure (some .slept, .inLoop r (.asleep budget), h)
  | .inLoop r (.asleep _), h => pure (some (.woke told), .inLoop r .head, h)
  | t, h => pure (none, t, h)

def crash : Thread → StateM Site Thread
  | .inLoop r _ => do
    let _ ← Worker.crash (.working r .ticking)
    pure .broken
  | t => pure t

def steps (pace : Pace) (told : Bool) :
    Nat → Thread → History → StateM Site (List Sign × Thread × History)
  | 0, t, h => pure ([], t, h)
  | n + 1, t, h => do
    let (sign?, t, h) ← t.step pace told h
    let (signs, t, h) ← steps pace told n t h
    pure (sign?.toList ++ signs, t, h)

def ofWorker : Worker → Thread
  | .working r .checking => .inLoop r .head
  | .working r .ticking => .inLoop r .begun
  | .working r (.ticked budget) => .inLoop r (.ticked budget)
  | .working r (.sleeping budget) => .inLoop r (.asleep budget)
  | .stopped r => .ended r
  | .broken => .broken

def Live : Thread → Prop
  | .inLoop _ _ => True
  | _ => False

/-- All that a step of a thread can do, or its breaking down. -/
inductive Goes : Bool → Thread → Option Sign → Thread → Prop
  | leavesHead (r : Registry) : Goes true (.inLoop r .head) (some (.looked true)) (.ended r)
  | begins (r : Registry) : Goes false (.inLoop r .head) (some (.looked false)) (.inLoop r .begun)
  | samples (told : Bool) (r r' : Registry) :
      Goes told (.inLoop r .begun) (some .began) (.inLoop r' (.sampled r'.lastSample))
  | breaksDown (told : Bool) (r : Registry) : Goes told (.inLoop r .begun) (some .began) .broken
  | pushes (told : Bool) (r : Registry) (v : List UInt64) :
      Goes told (.inLoop r (.sampled v)) (some (.pushed v)) (.inLoop r (.pushed v))
  | counts (told : Bool) (r : Registry) (v : List UInt64) :
      Goes told (.inLoop r (.pushed v)) none (.inLoop r (.counted v))
  | measures (told : Bool) (r : Registry) (v : List UInt64) (budget : UInt64) :
      Goes told (.inLoop r (.counted v)) none (.inLoop r (.ticked budget))
  | leaves (r : Registry) (budget : UInt64) :
      Goes true (.inLoop r (.ticked budget)) (some (.looked true)) (.ended r)
  | stays (r : Registry) (budget : UInt64) :
      Goes false (.inLoop r (.ticked budget)) (some (.looked false)) (.inLoop r (.resting budget))
  | yields (told : Bool) (r : Registry) : Goes told (.inLoop r (.resting 0)) none (.inLoop r .head)
  | staysAwake (r : Registry) (budget : UInt64) :
      Goes true (.inLoop r (.resting budget)) (some (.looked true)) (.inLoop r .head)
  | fallsAsleep (r : Registry) (budget : UInt64) :
      Goes false (.inLoop r (.resting budget)) (some .slept) (.inLoop r (.asleep budget))
  | wakes (told : Bool) (r : Registry) (budget : UInt64) :
      Goes told (.inLoop r (.asleep budget)) (some (.woke told)) (.inLoop r .head)
  | crashes (told : Bool) (r : Registry) (stand : Stand) : Goes told (.inLoop r stand) none .broken
  | rests (told : Bool) {t : Thread} (ht : ¬ t.Live) : Goes told t none t

def due : Thread → Nat
  | .inLoop _ .begun => 1
  | .inLoop _ (.sampled _) => 1
  | _ => 0

def Leaving : Thread → Prop
  | .inLoop _ stand => stand = .head
  | _ => True

def Follows (last : List UInt64) : Thread → Prop
  | .inLoop r (.sampled v) => r.lastSample = v
  | .inLoop r _ => r.lastSample = last
  | .ended r => r.lastSample = last
  | .broken => True

variable {told : Bool} {t t' : Thread} {sign? : Option Sign}

theorem step_of_room {h : History} (hroom : h.ring.HasRoom) (pace : Pace) (told : Bool)
    (r : Registry) (v : List UInt64) (site : Site) :
    step pace told (.inLoop r (.sampled v)) h site =
      ((some (.pushed v), .inLoop r (.pushed v), (h.push v site).1),
        (Site.note r.place (.push v) (h.push v site).2).2) := by
  simp only [step, bind, StateT.bind, History.push?_of_room hroom]
  rfl

theorem step_of_no_room {h : History} (hroom : ¬ h.ring.HasRoom) (pace : Pace) (told : Bool)
    (r : Registry) (v : List UInt64) (site : Site) :
    step pace told (.inLoop r (.sampled v)) h site =
      ((none, .broken, h),
        (Worker.crash (.working r .ticking) (Site.note r.place .overran site).2).2) := by
  simp only [step, bind, StateT.bind, History.push?_of_no_room hroom]
  rfl

theorem step_goes (pace : Pace) (told : Bool) (t : Thread) (h : History) (site : Site) :
    Goes told t (t.step pace told h site).1.1 (t.step pace told h site).1.2.1 := by
  cases t with
  | inLoop r stand =>
    cases stand with
    | head => cases told with
      | true => exact .leavesHead r
      | false => exact .begins r
    | begun =>
      obtain ⟨-, -, hs⟩ := r.sample_spec site
      rcases hr : r.sample site with ⟨⟨sample?, r'⟩, site'⟩
      rw [hr] at hs
      dsimp only at hs
      rcases hs with ⟨rfl, -⟩ | ⟨rfl, -⟩
      · simp only [step, bind, StateT.bind, hr]
        exact .samples told r r'
      · simp only [step, bind, StateT.bind, hr]
        exact .breaksDown told r
    | sampled v =>
      by_cases hroom : h.ring.HasRoom
      · rw [step_of_room hroom]
        exact .pushes told r v
      · rw [step_of_no_room hroom]
        exact .crashes told r (.sampled v)
    | pushed v => exact .counts told r v
    | counted v => exact .measures told r v _
    | ticked budget => cases told with
      | true => exact .leaves r budget
      | false => exact .stays r budget
    | resting budget =>
      by_cases hb : budget = 0
      · rw [hb]
        exact .yields told r
      · cases told with
        | true =>
          simp only [step, if_neg hb]
          exact .staysAwake r budget
        | false =>
          simp only [step, if_neg hb]
          exact .fallsAsleep r budget
    | asleep budget => exact .wakes told r budget
  | ended r => exact .rests told id
  | broken => exact .rests told id

theorem crash_goes (told : Bool) (t : Thread) (site : Site) :
    Goes told t none (t.crash site).1 := by
  cases t with
  | inLoop r stand => exact .crashes told r stand
  | ended r => exact .rests told id
  | broken => exact .rests told id

def pushedBy (sign? : Option Sign) : List (List UInt64) := (sign?.bind Sign.sample?).toList

theorem history_step (pace : Pace) (told : Bool) (t : Thread) (h : History) (site : Site) :
    (t.step pace told h site).1.2.2 = h.pushAll (pushedBy (t.step pace told h site).1.1) := by
  cases t with
  | inLoop r stand =>
    cases stand with
    | begun =>
      rcases hr : r.sample site with ⟨⟨_ | sample, r'⟩, site'⟩
      · simp only [step, bind, StateT.bind, hr]
        rfl
      · simp only [step, bind, StateT.bind, hr]
        rfl
    | sampled v =>
      by_cases hroom : h.ring.HasRoom
      · rw [step_of_room hroom]
        exact History.push_ring h v site
      · rw [step_of_no_room hroom]
        rfl
    | resting budget =>
      by_cases hb : budget = 0
      · simp only [step, if_pos hb]
        rfl
      · cases told with
        | true =>
          simp only [step, if_neg hb]
          rfl
        | false =>
          simp only [step, if_neg hb]
          rfl
    | _ => rfl
  | _ => rfl

variable {sign : Sign} {last : List UInt64}

theorem Goes.live (hg : Goes told t sign? t') (hl : t'.Live) : t.Live := by
  cases hg with
  | rests => exact hl
  | _ => trivial

theorem Goes.live_of_sign (hg : Goes told t (some sign) t') : t.Live := by
  cases hg <;> trivial

theorem Goes.due_le (hg : Goes true t sign? t') : (pushedBy sign?).length + t'.due ≤ t.due := by
  cases hg with
  | crashes => exact Nat.zero_le _
  | rests => exact Nat.le_of_eq (Nat.zero_add _)
  | _ => simp [pushedBy, Sign.sample?, due]

theorem due_le_one (t : Thread) : t.due ≤ 1 := by
  unfold due
  split <;> decide

theorem Goes.told_of_finds (hg : Goes told t (some sign) t') (hs : sign.Finds) :
    told = true ∧ t'.Leaving := by
  cases hg with
  | leavesHead => exact ⟨rfl, trivial⟩
  | leaves => exact ⟨rfl, trivial⟩
  | staysAwake => exact ⟨rfl, rfl⟩
  | wakes => exact ⟨hs, rfl⟩
  | begins => cases hs
  | stays => cases hs
  | _ => exact hs.elim

theorem Goes.leaving (hg : Goes true t sign? t') (hl : t.Leaving) :
    t'.Leaving ∧ ∀ sign, sign? = some sign → sign = .looked true := by
  cases hg with
  | leavesHead => exact ⟨trivial, fun _ he => (Option.some.inj he).symm⟩
  | crashes => exact ⟨trivial, nofun⟩
  | rests => exact ⟨hl, nofun⟩
  | _ => cases hl

theorem Goes.follows (hg : Goes told t sign? t') (hf : t.Follows last) :
    t'.Follows ((pushedBy sign?).getLastD last) := by
  cases hg with
  | samples => rfl
  | breaksDown => trivial
  | crashes => trivial
  | _ => exact hf

def left : Thread → Nat
  | .inLoop _ .head => 1
  | .inLoop _ .begun => 5
  | .inLoop _ (.sampled _) => 4
  | .inLoop _ (.pushed _) => 3
  | .inLoop _ (.counted _) => 2
  | .inLoop _ (.ticked _) => 1
  | .inLoop _ (.resting _) => 2
  | .inLoop _ (.asleep _) => 2
  | _ => 0

theorem left_of_not_live (ht : ¬ t.Live) : t.left = 0 := by
  cases t with
  | inLoop r stand => exact absurd trivial ht
  | _ => rfl

theorem Goes.left_le (hg : Goes true t sign? t') : t'.left ≤ t.left - 1 := by
  cases hg with
  | crashes => exact Nat.zero_le _
  | rests _ ht => rw [left_of_not_live ht]
  | _ => simp [left]

theorem left_le_five (t : Thread) : t.left ≤ 5 := by
  unfold left
  split <;> decide

theorem not_live_of_left (ht : t.left = 0) : ¬ t.Live := by
  intro hl
  cases t with
  | inLoop r stand => cases stand <;> cases ht
  | _ => exact hl

theorem ends_when_told (pace : Pace) (t : Thread) (h : History) (site : Site) :
    ¬ (steps pace true 5 t h site).1.2.1.Live := by
  have hleft (n : Nat) (t : Thread) (h : History) (site : Site) :
      (steps pace true n t h site).1.2.1.left ≤ t.left - n := by
    induction n generalizing t h site with
    | zero => exact Nat.le_refl _
    | succ n ih =>
      have hstep := (t.step_goes pace true h site).left_le
      have hrest := ih (t.step pace true h site).1.2.1 (t.step pace true h site).1.2.2
        (t.step pace true h site).2
      refine hrest.trans ?_
      omega
  have hfive := t.left_le_five
  have hdone := hleft 5 t h site
  apply not_live_of_left
  omega

theorem steps_ofWorker (pace : Pace) (told : Bool) (w : Worker) (h : History) (site : Site) :
    let done := Worker.step pace told w h site
    ∃ n, (steps pace told n (ofWorker w) h site).1.2 = (ofWorker done.1.1, done.1.2) ∧
      (steps pace told n (ofWorker w) h site).2 = done.2 := by
  cases w with
  | working r phase =>
    cases phase with
    | checking =>
      refine ⟨1, ?_⟩
      cases told with
      | true => exact ⟨rfl, rfl⟩
      | false => exact ⟨rfl, rfl⟩
    | ticking =>
      obtain ⟨-, -, hs⟩ := r.sample_spec site
      rcases hr : r.sample site with ⟨⟨_ | sample, r'⟩, site'⟩
      · refine ⟨1, ?_⟩
        have htick := @Worker.tick_of_broken pace _ _ _ _ h hr
        simp only [steps, ofWorker, step, Worker.step, bind, StateT.bind, hr, htick]
        exact ⟨rfl, rfl⟩
      · have hbegun : step pace told (.inLoop r .begun) h site =
            ((some .began, .inLoop r' (.sampled sample), h), site') := by
          simp only [step, bind, StateT.bind, hr]
          rfl
        by_cases hroom : h.ring.HasRoom
        · refine ⟨4, ?_⟩
          have htick := @Worker.tick_of_sample pace _ _ _ _ _ _ hroom hr
          simp only [steps, ofWorker, hbegun, step_of_room hroom, Worker.step, bind, StateT.bind,
            htick]
          exact ⟨rfl, rfl⟩
        · refine ⟨2, ?_⟩
          have htick := Worker.tick_of_overrun pace hroom hr
          simp only [steps, ofWorker, hbegun, step_of_no_room hroom, Worker.step, bind,
            StateT.bind, htick]
          exact ⟨rfl, rfl⟩
    | ticked budget =>
      cases told with
      | true => exact ⟨1, rfl, rfl⟩
      | false =>
        refine ⟨2, ?_⟩
        by_cases hb : budget = 0
        · subst hb
          exact ⟨rfl, rfl⟩
        · have hsleep : step pace false (.inLoop r (.resting budget)) h site =
              ((some .slept, .inLoop r (.asleep budget), h), site) := by
            simp only [step, if_neg hb]
            rfl
          have hworker : Worker.step pace false (.working r (.ticked budget)) h site =
              ((.working r (.sleeping budget), h), site) := by
            simp only [Worker.step, if_neg hb]
            rfl
          have htwo : steps pace false 2 (.inLoop r (.ticked budget)) h site =
              let second := step pace false (.inLoop r (.resting budget)) h site
              ((.looked false :: second.1.1.toList ++ [], second.1.2), second.2) := rfl
          rw [hworker, ofWorker, htwo, hsleep]
          exact ⟨rfl, rfl⟩
    | sleeping budget => exact ⟨1, rfl, rfl⟩
  | stopped r => exact ⟨0, rfl, rfl⟩
  | broken => exact ⟨0, rfl, rfl⟩

theorem steps_succ (pace : Pace) (told : Bool) (n : Nat) (t : Thread) (h : History)
    (site : Site) :
    steps pace told (n + 1) t h site =
      let first := t.step pace told h site
      let rest := steps pace told n first.1.2.1 first.1.2.2 first.2
      ((first.1.1.toList ++ rest.1.1, rest.1.2), rest.2) := rfl

theorem steps_add (pace : Pace) (told : Bool) (n m : Nat) (t : Thread) (h : History)
    (site : Site) :
    let first := steps pace told n t h site
    let second := steps pace told m first.1.2.1 first.1.2.2 first.2
    steps pace told (n + m) t h site = ((first.1.1 ++ second.1.1, second.1.2), second.2) := by
  induction n generalizing t h site with
  | zero =>
    rw [Nat.zero_add]
    rfl
  | succ n ih =>
    have hrest := ih (t.step pace told h site).1.2.1 (t.step pace told h site).1.2.2
      (t.step pace told h site).2
    dsimp only at hrest ⊢
    rw [Nat.add_right_comm, steps_succ, steps_succ]
    dsimp only
    rw [hrest, List.append_assoc]

theorem steps_join (pace : Pace) (w : Worker) (h : History) (site : Site) :
    let done := w.join pace h site
    ∃ n, (steps pace true n (ofWorker w) h site).1.2 = (ofWorker done.1.1, done.1.2) ∧
      (steps pace true n (ofWorker w) h site).2 = done.2 := by
  let first := Worker.step pace true w h site
  obtain ⟨n, hn, hsite⟩ := steps_ofWorker pace true w h site
  obtain ⟨m, hm, hsite'⟩ := steps_ofWorker pace true first.1.1 first.1.2 first.2
  refine ⟨n + m, ?_⟩
  rw [steps_add, hn, hsite]
  exact ⟨hm, hsite'⟩

end Thread

end NodeTelemetry
