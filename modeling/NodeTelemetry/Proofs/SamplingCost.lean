import Mathlib
import NodeTelemetry.Proofs.ClockReadings
import NodeTelemetry.Proofs.SleepBudget
import NodeTelemetry.Proofs.WorkerDeeds

namespace NodeTelemetry

structure Tick where
  sample : List UInt64
  overhead : UInt64
  period : UInt64
  deriving DecidableEq

namespace Tick

def timestamp (t : Tick) : UInt64 := t.sample.headD 0

def budget (t : Tick) : UInt64 := sleepBudget (satMul t.period nanosPerMilli) t.overhead

def Small (t : Tick) : Prop := t.overhead.toNat < 2 ^ 62 ∧ t.period.toNat * 10 ^ 6 < 2 ^ 64

def due (t : Tick) : Nat :=
  t.timestamp.toNat + max (t.period.toNat * 10 ^ 6) (5 * t.overhead.toNat)

theorem Small.due_eq {t : Tick} (h : t.Small) :
    t.due = t.timestamp.toNat + t.overhead.toNat + t.budget.toNat := by
  rw [due, ← toNat_nanos h.2, ← add_sleepBudget h.1, Nat.add_assoc]
  rfl

def Spread (ticks : List Tick) : Prop :=
  ∀ i t t', ticks[i]? = some t → ticks[i + 1]? = some t' → t.due ≤ t'.timestamp.toNat

theorem Spread.append {ticks : List Tick} {t : Tick} (h : Spread ticks)
    (ht : ∀ last ∈ ticks.getLast?, last.due ≤ t.timestamp.toNat) : Spread (ticks ++ [t]) := by
  intro i t₁ t₂ h₁ h₂
  by_cases hi : i + 1 < ticks.length
  · rw [List.getElem?_append_left (by omega)] at h₁ h₂
    exact h i t₁ t₂ h₁ h₂
  · have hlength : i + 1 < (ticks ++ [t]).length := (List.getElem?_eq_some_iff.mp h₂).1
    rw [List.length_append, List.length_singleton] at hlength
    have hlast : i + 1 = ticks.length := by omega
    rw [hlast, List.getElem?_concat_length] at h₂
    rw [List.getElem?_append_left (by omega)] at h₁
    cases h₂
    apply ht
    rw [List.getLast?_eq_getElem?, ← hlast]
    exact h₁

def overheads (ticks : List Tick) : Nat := (ticks.map fun t => t.overhead.toNat).sum

theorem Spread.overheads_le {ticks : List Tick} (h : Spread ticks) {i n : Nat} {t t' : Tick}
    (ht : ticks[i]? = some t) (ht' : ticks[i + n]? = some t') :
    t.timestamp.toNat + 5 * overheads ((ticks.drop i).take n) ≤ t'.timestamp.toNat := by
  induction n generalizing t' with
  | zero =>
    rw [Nat.add_zero, ht] at ht'
    cases ht'
    exact Nat.le_refl _
  | succ n ih =>
    have hn : i + n < ticks.length := by
      have hlength := (List.getElem?_eq_some_iff.mp ht').1
      omega
    have hmid : ticks[i + n]? = some ticks[i + n] := List.getElem?_eq_getElem hn
    have hnext : ticks[i + n].due ≤ t'.timestamp.toNat := h (i + n) _ _ hmid ht'
    have htake : (ticks.drop i).take (n + 1) = (ticks.drop i).take n ++ [ticks[i + n]] := by
      rw [List.take_add_one, List.getElem?_drop, hmid]
      rfl
    have hbefore := ih hmid
    rw [htake, overheads, List.map_append, List.sum_append]
    rw [overheads] at hbefore
    simp only [List.map_cons, List.map_nil, List.sum_singleton]
    simp only [due] at hnext
    omega

end Tick

namespace Worker

def tickAt (pace : Pace) (r : Registry) (h : History) (site : Site) : Option Tick :=
  if h.ring.HasRoom then
    let sampled := r.sample site
    sampled.1.1.map fun sample =>
      let now := (sampled.2.clock pace.clock).read.1
      { sample, overhead := satSub now (sample.headD 0), period := pace.period }
  else none

variable {pace : Pace} {r : Registry} {h : History} {site : Site} {t : Tick}

theorem tickAt_eq_some (ht : tickAt pace r h site = some t) :
    h.ring.HasRoom ∧ (r.sample site).1.1 = some t.sample ∧ t.period = pace.period ∧
      t.overhead = satSub ((r.sample site).2.clock pace.clock).read.1 t.timestamp := by
  by_cases hroom : h.ring.HasRoom
  · rw [tickAt, if_pos hroom, Option.map_eq_some_iff] at ht
    obtain ⟨sample, hsample, rfl⟩ := ht
    exact ⟨hroom, hsample, rfl, rfl⟩
  · rw [tickAt, if_neg hroom] at ht
    cases ht

theorem clock_push (h : History) (sample : List UInt64) (site : Site) (k : Nat) :
    (h.push sample site).2.clock k = site.clock k := by
  have hclocks : Keeps Site.clocks (h.push sample) := h.keeps_push (fun _ _ => rfl) sample
  rw [Site.clock, hclocks site, Site.clock]

theorem tick_eq (pace : Pace) (r : Registry) (h : History) (site : Site) :
    (tick pace r h site).1 =
      ((tickAt pace r h site).map Tick.budget, (r.sample site).1.2,
        h.pushAll ((tickAt pace r h site).map Tick.sample).toList) := by
  by_cases hroom : h.ring.HasRoom
  · rw [tickAt, if_pos hroom]
    rcases hs : r.sample site with ⟨⟨_ | sample, r'⟩, after⟩
    · rw [tick_of_broken h hs]
      rfl
    · have hring := h.push_ring sample after
      have hnow := clock_push h sample after pace.clock
      rw [tick_of_sample hroom hs]
      dsimp only [Option.map_some, Option.toList_some]
      rw [hring, ← hnow]
      rfl
  · rw [tickAt, if_neg hroom]
    rcases hs : r.sample site with ⟨⟨_ | sample, r'⟩, after⟩
    · rw [tick_of_broken h hs]
      rfl
    · rw [tick_of_overrun pace hroom hs]
      rfl

theorem clock_tick (ht : tickAt pace r h site = some t) :
    (tick pace r h site).2.clock pace.clock = ((r.sample site).2.clock pace.clock).read.2 := by
  obtain ⟨hroom, hsample, -⟩ := tickAt_eq_some ht
  rcases hs : r.sample site with ⟨⟨sample?, r'⟩, after⟩
  rw [hs] at hsample
  dsimp only at hsample
  subst hsample
  rw [tick_of_sample hroom hs]
  dsimp only
  rw [Site.clock_readClock, if_pos rfl, ← clock_push h t.sample after pace.clock]
  rfl

theorem timestamp_of_tickAt (hr : r.StampedBy pace.clock) (ht : tickAt pace r h site = some t) :
    t.timestamp = (site.clock pace.clock).read.1 :=
  hr.sample_begins (tickAt_eq_some ht).2.1

theorem timestamp_add_overhead_le (hr : r.StampedBy pace.clock)
    (hc : (site.clock pace.clock).Steady) (ht : tickAt pace r h site = some t) :
    t.timestamp.toNat + t.overhead.toNat ≤
      ((tick pace r h site).2.clock pace.clock).read.1.toNat := by
  have hread := r.reads_sample site pace.clock
  have hbefore := hread.le hc
  have hafter := (hread.steady hc).le_read
  obtain ⟨-, -, -, hover⟩ := tickAt_eq_some ht
  rw [← timestamp_of_tickAt hr ht] at hbefore
  rw [UInt64.le_iff_toNat_le] at hbefore hafter
  rw [clock_tick ht, hover, toNat_satSub]
  omega

theorem step_ticking (ht : tickAt pace r h site = some t) (told : Bool) :
    step pace told (.working r .ticking) h site =
      ((.working (r.sample site).1.2 (.ticked t.budget), h.pushAll [t.sample]),
        (tick pace r h site).2) := by
  have htick := tick_eq pace r h site
  rw [ht] at htick
  rcases hr : tick pace r h site with ⟨⟨budget?, r', h'⟩, after⟩
  rw [hr] at htick
  cases htick
  simp only [step, bind, StateT.bind, hr]
  rfl

theorem step_ticking_of_broken (ht : tickAt pace r h site = none) (told : Bool) :
    (step pace told (.working r .ticking) h site).1.1 = .broken := by
  have htick := tick_eq pace r h site
  rw [ht] at htick
  rcases hr : tick pace r h site with ⟨⟨budget?, r', h'⟩, after⟩
  rw [hr] at htick
  cases htick
  simp only [step, bind, StateT.bind, hr]
  rfl

end Worker

/-- A worker in its loop, and what it goes by. -/
structure Stint where
  worker : Worker
  history : History
  site : Site
  pace : Pace
  told : Bool := false
  since : Nat := 0

namespace Stint

open Worker

def time (s : Stint) : Nat := (s.site.clock s.pace.clock).read.1.toNat

def asleep? (s : Stint) : Option UInt64 :=
  match s.worker with
  | .working _ (.sleeping budget) => some budget
  | _ => none

def Rested (s : Stint) : Prop :=
  ∀ budget ∈ s.asleep?, s.told = true ∨ s.since + budget.toNat ≤ s.time

instance (s : Stint) : Decidable s.Rested :=
  Option.decidableForallMem s.asleep?

def tick? (s : Stint) : Option Tick :=
  match s.worker with
  | .working r .ticking => tickAt s.pace r s.history s.site
  | _ => none

def step (s : Stint) : Stint :=
  let after := s.worker.step s.pace s.told s.history s.site
  { s with
    worker := after.1.1
    history := after.1.2
    site := after.2
    since := match s.worker with
      | .working _ (.ticked _) => s.time
      | _ => s.since }

/-- All that can come next: the worker takes a step, or it is elsewhere that something happens and
time goes by. -/
inductive Goes : Stint → Option Tick → Stint → Prop
  | works (s : Stint) (hr : s.Rested) : Goes s s.tick? s.step
  | passes (s : Stint) (history : History) (site : Site)
      (hc : (site.clock s.pace.clock).Steady)
      (ht : s.time ≤ (site.clock s.pace.clock).read.1.toNat) :
      Goes s none { s with history, site }
  | setPeriod (s : Stint) (ms : UInt64) :
      Goes s none { s with pace := { s.pace with period := ms } }
  | tell (s : Stint) : Goes s none { s with told := true }

inductive Run (s : Stint) : List Tick → Stint → Prop
  | start : Run s [] s
  | goesOn {ticks : List Tick} {s' s'' : Stint} {t? : Option Tick} (h : Run s ticks s')
      (hg : Goes s' t? s'') : Run s (ticks ++ t?.toList) s''

def Awaits (due : Nat) (s : Stint) : Phase → Prop
  | .checking => s.told = true ∨ due ≤ s.time
  | .ticking => due ≤ s.time
  | .ticked budget => due ≤ s.time + budget.toNat
  | .sleeping budget => s.told = true ∨ due ≤ s.since + budget.toNat

def Ready (due : Nat) (s : Stint) : Prop :=
  ∀ r p, s.worker = .working r p →
    r.StampedBy s.pace.clock ∧ (s.site.clock s.pace.clock).Steady ∧ s.Awaits due p

variable {s s' : Stint} {due : Nat} {r : Registry}

theorem ready_of_checking (h : s.Ready due) (hw : s.worker = .working r .checking) :
    s.step.Ready due := by
  obtain ⟨hstamped, hc, hawaits⟩ := h r .checking hw
  rcases s with ⟨worker, history, site, pace, told, since⟩
  cases hw
  cases told with
  | true => exact nofun
  | false =>
    rintro _ _ ⟨⟩
    refine ⟨hstamped, hc, ?_⟩
    rcases hawaits with htold | hdue
    · cases htold
    · exact hdue

theorem ready_of_ticked {budget : UInt64} (h : s.Ready due)
    (hw : s.worker = .working r (.ticked budget)) : s.step.Ready due := by
  obtain ⟨hstamped, hc, hawaits⟩ := h r (.ticked budget) hw
  rcases s with ⟨worker, history, site, pace, told, since⟩
  cases hw
  cases told with
  | true => exact nofun
  | false =>
    rintro _ _ ⟨⟩
    refine ⟨hstamped, hc, ?_⟩
    by_cases hzero : budget = 0
    · subst hzero
      exact .inr hawaits
    · rw [if_neg hzero]
      exact .inr hawaits

theorem ready_of_sleeping {budget : UInt64} (h : s.Ready due)
    (hw : s.worker = .working r (.sleeping budget)) (hr : s.Rested) : s.step.Ready due := by
  obtain ⟨hstamped, hc, hawaits⟩ := h r (.sleeping budget) hw
  have hrested := hr budget (by rw [asleep?, hw]; rfl)
  rcases s with ⟨worker, history, site, pace, told, since⟩
  cases hw
  rintro _ _ ⟨⟩
  refine ⟨hstamped, hc, ?_⟩
  rcases hawaits with htold | hdue
  · exact .inl htold
  · rcases hrested with htold | hlong
    · exact .inl htold
    · exact .inr (hdue.trans hlong)

theorem ready_of_ticking {t : Tick} (h : s.Ready due) (hw : s.worker = .working r .ticking)
    (ht : tickAt s.pace r s.history s.site = some t) (hsmall : t.Small) : s.step.Ready t.due := by
  obtain ⟨hstamped, hc, -⟩ := h r .ticking hw
  have hend := timestamp_add_overhead_le hstamped hc ht
  have hclock := clock_tick ht
  have hread := r.reads_sample s.site s.pace.clock
  rcases s with ⟨worker, history, site, pace, told, since⟩
  cases hw
  intro r' p' hw
  dsimp only [step] at hw hend hclock ⊢
  rw [step_ticking ht] at hw ⊢
  cases hw
  refine ⟨hstamped.sample site, ?_, ?_⟩
  · rw [hclock]
    exact (hread.steady hc).read
  · change t.due ≤ _
    rw [hsmall.due_eq]
    exact Nat.add_le_add_right hend _

theorem ready_of_broken (hw : s.worker = .working r .ticking)
    (ht : tickAt s.pace r s.history s.site = none) : s.step.Ready due := by
  have hbroken : s.step.worker = .broken := by
    rw [step, hw]
    exact step_ticking_of_broken ht s.told
  intro r' p' hw'
  rw [hbroken] at hw'
  cases hw'

theorem ready_step (h : s.Ready due) (hr : s.Rested) (hsmall : ∀ t ∈ s.tick?, t.Small) :
    s.step.Ready ((s.tick?.map Tick.due).getD due) := by
  cases hw : s.worker with
  | working r p =>
    cases p with
    | checking =>
      have htick : s.tick? = none := by rw [tick?, hw]
      rw [htick, Option.map_none, Option.getD_none]
      exact ready_of_checking h hw
    | ticking =>
      have htick : s.tick? = tickAt s.pace r s.history s.site := by rw [tick?, hw]
      rw [htick] at hsmall ⊢
      cases ht : tickAt s.pace r s.history s.site with
      | none =>
        rw [Option.map_none, Option.getD_none]
        exact ready_of_broken hw ht
      | some t =>
        rw [Option.map_some, Option.getD_some]
        exact ready_of_ticking h hw ht (hsmall t ht)
    | ticked budget =>
      have htick : s.tick? = none := by rw [tick?, hw]
      rw [htick, Option.map_none, Option.getD_none]
      exact ready_of_ticked h hw
    | sleeping budget =>
      have htick : s.tick? = none := by rw [tick?, hw]
      rw [htick, Option.map_none, Option.getD_none]
      exact ready_of_sleeping h hw hr
  | stopped r =>
    intro r' p' hw'
    rw [step, hw] at hw'
    cases hw'
  | broken =>
    intro r' p' hw'
    rw [step, hw] at hw'
    cases hw'

theorem Ready.due_le (h : s.Ready due) {t : Tick} (ht : s.tick? = some t) :
    due ≤ t.timestamp.toNat := by
  unfold tick? at ht
  split at ht
  case h_1 r hw =>
    obtain ⟨hstamped, -, hawaits⟩ := h r .ticking hw
    rw [timestamp_of_tickAt hstamped ht]
    exact hawaits
  case h_2 => cases ht

theorem Ready.passes (h : s.Ready due) {history : History} {site : Site}
    (hc : (site.clock s.pace.clock).Steady)
    (ht : s.time ≤ (site.clock s.pace.clock).read.1.toNat) :
    Ready due { s with history, site } := by
  intro r p hw
  obtain ⟨hstamped, -, hawaits⟩ := h r p hw
  refine ⟨hstamped, hc, ?_⟩
  cases p with
  | checking => exact hawaits.imp_right fun hdue => hdue.trans ht
  | ticking => exact Nat.le_trans hawaits ht
  | ticked budget => exact Nat.le_trans hawaits (Nat.add_le_add_right ht _)
  | sleeping budget => exact hawaits

theorem Ready.tell (h : s.Ready due) : Ready due { s with told := true } := by
  intro r p hw
  obtain ⟨hstamped, hc, hawaits⟩ := h r p hw
  refine ⟨hstamped, hc, ?_⟩
  cases p with
  | checking => exact .inl rfl
  | ticking => exact hawaits
  | ticked budget => exact hawaits
  | sleeping budget => exact .inl rfl

theorem Run.works {ticks ticks' : List Tick} (h : Run s ticks s') (hr : s'.Rested)
    (ht : ticks' = ticks ++ s'.tick?.toList) : Run s ticks' s'.step := by
  rw [ht]
  exact h.goesOn (.works s' hr)

theorem Run.passes {ticks : List Tick} (h : Run s ticks s') (site : Site)
    (hc : (site.clock s'.pace.clock).Steady)
    (ht : s'.time ≤ (site.clock s'.pace.clock).read.1.toNat) : Run s ticks { s' with site } := by
  rw [← ticks.append_nil]
  exact h.goesOn (.passes s' s'.history site hc ht)

theorem Goes.ready {t? : Option Tick} (hg : Goes s t? s') (h : s.Ready due)
    (hsmall : ∀ t ∈ t?, t.Small) :
    s'.Ready ((t?.map Tick.due).getD due) ∧ ∀ t ∈ t?, due ≤ t.timestamp.toNat := by
  cases hg with
  | works hr => exact ⟨ready_step h hr hsmall, fun t ht => h.due_le ht⟩
  | passes history site hc ht => exact ⟨h.passes hc ht, nofun⟩
  | setPeriod ms => exact ⟨h, nofun⟩
  | tell => exact ⟨h.tell, nofun⟩

theorem Run.spread {ticks : List Tick} (hrun : Run s ticks s') (h : s.Ready 0)
    (hsmall : ∀ t ∈ ticks, t.Small) :
    s'.Ready ((ticks.getLast?.map Tick.due).getD 0) ∧ Tick.Spread ticks := by
  -- What carries over to the next tick is only when the last one lets it begin.
  induction hrun with
  | start => exact ⟨h, nofun⟩
  | @goesOn ticks s' s'' t? hrun hg ih =>
    obtain ⟨hready, hspread⟩ := ih fun t ht => hsmall t (List.mem_append_left _ ht)
    have hnew := hg.ready hready fun t ht =>
      hsmall t (List.mem_append_right _ (Option.mem_toList.mpr ht))
    cases t? with
    | none =>
      rw [Option.map_none, Option.getD_none] at hnew
      rw [Option.toList_none, List.append_nil]
      exact ⟨hnew.1, hspread⟩
    | some t =>
      rw [Option.map_some, Option.getD_some] at hnew
      rw [Option.toList_some, List.getLast?_concat, Option.map_some, Option.getD_some]
      refine ⟨hnew.1, hspread.append ?_⟩
      intro last hlast
      have hdue := hnew.2 t rfl
      rw [hlast, Option.map_some, Option.getD_some] at hdue
      exact hdue

/-- However the period is set while a worker runs, its ticks are a period apart and take at most a
fifth of the time. -/
theorem ticks_take_a_fifth {s s' : Stint} {ticks : List Tick} {r : Registry}
    (hrun : Run s ticks s') (hw : s.worker = .working r .checking)
    (hr : r.StampedBy s.pace.clock) (hc : (s.site.clock s.pace.clock).Steady)
    (hsmall : ∀ t ∈ ticks, t.overhead.toNat < 2 ^ 62 ∧ t.period.toNat * 10 ^ 6 < 2 ^ 64) :
    (∀ i t t', ticks[i]? = some t → ticks[i + 1]? = some t' →
      t.timestamp.toNat + t.period.toNat * 10 ^ 6 ≤ t'.timestamp.toNat) ∧
    ∀ i n t t', ticks[i]? = some t → ticks[i + n]? = some t' →
      t.timestamp.toNat + 5 * (((ticks.drop i).take n).map fun t => t.overhead.toNat).sum ≤
        t'.timestamp.toNat := by
  have hready : s.Ready 0 := by
    intro r' p hw'
    rw [hw] at hw'
    cases hw'
    exact ⟨hr, hc, .inr (Nat.zero_le _)⟩
  have hspread := (hrun.spread hready hsmall).2
  constructor
  · intro i t t' ht ht'
    have hdue := hspread i t t' ht ht'
    rw [Tick.due] at hdue
    omega
  · intro i n t t' ht ht'
    exact hspread.overheads_le ht ht'

theorem two_ticks_a_period_apart :
    ∃ s s' t t', Run s [t, t'] s' ∧ t.timestamp = 100 ∧ t.overhead = 200 ∧ t.period = 1 ∧
      t'.timestamp = 1000100 ∧
      t.timestamp.toNat + t.period.toNat * 10 ^ 6 ≤ t'.timestamp.toNat ∧
      t.timestamp.toNat + 5 * (([t, t'].take 1).map fun t => t.overhead.toNat).sum ≤
        t'.timestamp.toNat := by
  let r : Registry :=
    { slots := [⟨.timing .timestamp, 0⟩, ⟨.timing .interval, 0⟩]
      schema := []
      tracer := {} }
  let s : Stint :=
    { worker := .working r .checking
      history := History.new r.schema 4
      site := { clocks := #[{ queue := [100, 300], now := 300 }] }
      pace := { period := 1, clock := 0 } }
  let later : Stint := { s.step.step.step with site := { clocks := #[{ now := 1000100 }] } }
  have hasleep : Run s [⟨[100, 100], 200, 1⟩] s.step.step.step := by
    have hbegun : Run s [] s.step := Run.start.works (by decide +kernel) (by decide +kernel)
    have hticked : Run s [⟨[100, 100], 200, 1⟩] s.step.step :=
      hbegun.works (by decide +kernel) (by decide +kernel)
    exact hticked.works (by decide +kernel) (by decide +kernel)
  have hlater : Run s [⟨[100, 100], 200, 1⟩] later := by
    have hsteady : ({ queue := [], now := 1000100 } : Clock).Steady :=
      Clock.steady_of_queue (by decide)
    exact hasleep.passes later.site hsteady (by decide +kernel)
  have hrun : Run s [⟨[100, 100], 200, 1⟩, ⟨[1000100, 1000000], 0, 1⟩]
      later.step.step.step := by
    have hwoken : Run s [⟨[100, 100], 200, 1⟩] later.step :=
      hlater.works (by decide +kernel) (by decide +kernel)
    have hbegun : Run s [⟨[100, 100], 200, 1⟩] later.step.step :=
      hwoken.works (by decide +kernel) (by decide +kernel)
    exact hbegun.works (by decide +kernel) (by decide +kernel)
  have hsteady : (s.site.clock s.pace.clock).Steady := Clock.steady_of_queue (by decide)
  obtain ⟨hapart, hfifth⟩ := ticks_take_a_fifth hrun rfl ⟨rfl, rfl⟩ hsteady (by decide)
  exact ⟨s, _, _, _, hrun, rfl, rfl, rfl, rfl, hapart 0 _ _ rfl rfl, hfifth 0 1 _ _ rfl rfl⟩

end Stint

end NodeTelemetry
