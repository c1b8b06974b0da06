import Mathlib
import NodeTelemetry.Proofs.ProviderOrder

namespace NodeTelemetry

namespace Clock

def Steady (c : Clock) : Prop := ∀ n, (c.readings n).Pairwise (· ≤ ·)

inductive ReadOn : Clock → Clock → Prop
  | refl (c : Clock) : ReadOn c c
  | read {c c' : Clock} (h : ReadOn c.read.2 c') : ReadOn c c'

variable {c c' c'' : Clock}

theorem ReadOn.trans (h : ReadOn c c') (h' : ReadOn c' c'') : ReadOn c c'' := by
  induction h with
  | refl => exact h'
  | read _ ih =>
    apply ReadOn.read
    exact ih h'

theorem ReadOn.one (c : Clock) : ReadOn c c.read.2 := .read (.refl _)

theorem Steady.read (h : c.Steady) : c.read.2.Steady := by
  intro n
  have hnext := h (n + 1)
  rw [readings, List.pairwise_cons] at hnext
  exact hnext.2

theorem Steady.le_read (h : c.Steady) : c.read.1 ≤ c.read.2.read.1 := by
  have htwo := h 2
  simp only [readings, List.pairwise_cons] at htwo
  apply htwo.1
  exact List.mem_cons_self

theorem ReadOn.steady (h : ReadOn c c') (hc : c.Steady) : c'.Steady := by
  induction h with
  | refl => exact hc
  | read _ ih =>
    apply ih
    exact hc.read

theorem ReadOn.le (h : ReadOn c c') (hc : c.Steady) : c.read.1 ≤ c'.read.1 := by
  induction h with
  | refl => exact UInt64.le_refl _
  | read _ ih => exact UInt64.le_trans hc.le_read (ih hc.read)

theorem steady_of_queue {queue : List UInt64} {now : UInt64}
    (h : (queue ++ [now]).Pairwise (· ≤ ·)) : Steady { queue, now } := by
  have hstill : ∀ n, readings { queue := [], now } n = List.replicate n now := by
    intro n
    induction n with
    | zero => rfl
    | succ n ih =>
      have hread : read { queue := [], now } = (now, { queue := [], now }) := by simp [read]
      rw [readings, hread, ih]
      rfl
  intro n
  induction queue generalizing n with
  | nil =>
    rw [hstill]
    exact List.pairwise_replicate.mpr (.inr (UInt64.le_refl now))
  | cons t queue ih =>
    rw [List.cons_append, List.pairwise_cons] at h
    cases n with
    | zero => exact .nil
    | succ n =>
      have hmem : ∀ (rest : List UInt64) n, ∀ v ∈ readings { queue := rest, now } n,
          v ∈ rest ++ [now] := by
        intro rest
        induction rest with
        | nil =>
          intro n v hv
          rw [hstill] at hv
          rw [List.eq_of_mem_replicate hv]
          exact List.mem_singleton_self now
        | cons t rest ih =>
          intro n v hv
          cases n with
          | zero => cases hv
          | succ n =>
            rcases List.mem_cons.mp hv with rfl | hv
            · exact List.mem_cons_self
            · exact List.mem_cons_of_mem _ (ih n v hv)
      apply List.pairwise_cons.mpr
      refine ⟨?_, ih h.2 n⟩
      intro v hv
      exact h.1 v (hmem queue n v hv)

end Clock

/-- All that the action does to clocks is to read them. -/
def Reads {σ α : Type} (clockAt : σ → Nat → Clock) (act : StateM σ α) : Prop :=
  ∀ s k, (clockAt s k).ReadOn (clockAt (act s).2 k)

namespace Reads

variable {σ α γ : Type} {clockAt : σ → Nat → Clock}

theorem pure (a : α) : Reads clockAt (Pure.pure a : StateM σ α) := fun _ _ => .refl _

theorem bind {act : StateM σ α} {next : α → StateM σ γ} (ha : Reads clockAt act)
    (hn : ∀ a, Reads clockAt (next a)) : Reads clockAt (act >>= next) := fun s k =>
  (ha s k).trans (hn (act s).1 (act s).2 k)

end Reads

namespace Site

theorem clock_readClock (s : Site) (j k : Nat) :
    (readClock j s).2.clock k = if j = k then (s.clock k).read.2 else s.clock k := by
  change ((s.clocks.setIfInBounds j (s.clock j).read.2)[k]?).getD Clock.still = _
  rw [Array.getElem?_setIfInBounds]
  by_cases hjk : j = k
  · subst hjk
    rw [if_pos rfl, if_pos rfl]
    by_cases hj : j < s.clocks.size
    · rw [if_pos hj]
      rfl
    · have hstill : s.clock j = Clock.still := by
        rw [clock, Array.getElem?_eq_none (Nat.le_of_not_lt hj)]
        rfl
      rw [if_neg hj, hstill, Clock.read_still]
      rfl
  · rw [if_neg hjk, if_neg hjk]
    rfl

theorem reads_readClock (j : Nat) : Reads clock (readClock j) := by
  intro s k
  rw [clock_readClock]
  split
  · exact .one _
  · exact .refl _

theorem reads_of_keeps {α : Type} {act : StateM Site α} (h : Keeps clocks act) :
    Reads clock act := by
  intro s k
  have hsame : (act s).2.clock k = s.clock k := by rw [clock, clock, h s]
  rw [hsame]
  exact .refl _

theorem keeps_breaksDown_clocks : Keeps clocks breaksDown := by
  rintro ⟨clocks, hardware, metrics, journal, log, switch, threads, breakdowns, meanwhile⟩
  cases breakdowns <;> rfl

end Site

namespace Scene

def clockAt (s : Scene) (k : Nat) : Clock := s.site.clock k

theorem reads_onSite {α : Type} {act : StateM Site α} (h : Reads Site.clock act) :
    Reads clockAt (onSite act) := fun s => h s.site

theorem reads_of_keeps {α : Type} {act : StateM Site α} (h : Keeps Site.clocks act) :
    Reads clockAt (onSite act) := reads_onSite (Site.reads_of_keeps h)

end Scene

open Scene

theorem Timing.reads_restart (t : Timing) : Reads clockAt t.restart := by
  cases t with
  | timestamp => exact fun s => Site.reads_readClock s.tracer.clock s.site
  | interval => exact fun _ _ => .refl _
  | overhead => exact fun s => Site.reads_readClock s.tracer.clock s.site

theorem Counter.reads_restart (last : UInt64) (c : Counter) :
    Reads clockAt (c.restart last) := by
  cases c with
  | timing t =>
    apply t.reads_restart.bind
    intro v
    exact .pure _
  | event c =>
    apply (reads_of_keeps (c.keeps_restart Site.aside_clocks)).bind
    intro v
    exact .pure _
  | register c =>
    apply (reads_of_keeps (c.keeps_restart Site.aside_clocks)).bind
    intro v
    exact .pure _
  | sensors c =>
    apply (reads_of_keeps (c.keeps_restart Site.aside_clocks)).bind
    intro v
    exact .pure _
  | probe p =>
    apply (reads_of_keeps (p.keeps_restart Site.aside_clocks last)).bind
    intro v
    exact .pure _

namespace Registry

variable {place : Nat}

theorem reads_restart (slot : Slot) : Reads clockAt (restart place slot) := by
  apply (slot.counter.reads_restart slot.last).bind
  intro a
  apply (reads_of_keeps Site.keeps_breaksDown_clocks).bind
  intro broken
  have hnote : Reads clockAt (note place a.2 (.restart slot.last (if broken then none else a.1))) :=
    fun _ _ => .refl _
  apply hnote.bind
  intro _
  exact .pure _

theorem reads_restartAll (slots : List Slot) : Reads clockAt (restartAll place slots) := by
  induction slots with
  | nil => exact .pure _
  | cons slot slots ih =>
    apply (reads_restart slot).bind
    rintro ⟨_ | v, c⟩
    · exact .pure _
    · apply ih.bind
      intro _
      exact .pure _

theorem reads_sample (r : Registry) : Reads Site.clock r.sample := fun site =>
  reads_restartAll r.slots ⟨r.tracer, site⟩

structure StampedBy (clock : Nat) (r : Registry) : Prop where
  timestamp : r.slots[0]?.map Slot.counter = some (.timing .timestamp)
  clock_eq : r.tracer.clock = clock

variable {r : Registry} {clock : Nat}

theorem StampedBy.sample (h : r.StampedBy clock) (site : Site) :
    (r.sample site).1.2.StampedBy clock := by
  have htimings := timings_use .sample r site
  have hclock := clock_use .sample r site
  have hat := congrArg (·[0]?) htimings
  dsimp only [timings] at hat
  rw [List.getElem?_map, List.getElem?_map] at hat
  constructor
  · apply timing_slot_iff.mpr
    exact hat.trans (timing_slot_iff.mp h.timestamp)
  · exact hclock.trans h.clock_eq

theorem StampedBy.sample_begins (h : r.StampedBy clock) {site : Site} {values : List UInt64}
    (hv : (r.sample site).1.1 = some values) :
    values.headD 0 = (site.clock clock).read.1 := by
  have hhead := Registry.sample_begins h.timestamp hv
  rw [h.clock_eq] at hhead
  rw [List.headD_eq_head?_getD, hhead]
  rfl

end Registry

end NodeTelemetry
