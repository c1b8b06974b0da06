import Mathlib
import NodeTelemetry.Proofs.ClockReadings
import NodeTelemetry.Proofs.EngineLife

namespace NodeTelemetry

theorem Clock.readings_prefix (c : Clock) (n k : Nat) : c.readings n <+: c.readings (n + k) := by
  induction n generalizing c with
  | zero => exact List.nil_prefix
  | succ n ih =>
    rw [Nat.succ_add]
    exact (List.prefix_cons_inj _).mpr (ih _)

namespace Scene

def timekeeping (s : Scene) : Tracer × Array Clock := (s.tracer, s.site.clocks)

def time (s : Scene) : Clock := s.site.clock s.tracer.clock

theorem keeps_timekeeping {α : Type} {act : StateM Site α} (h : Keeps Site.clocks act) :
    Keeps timekeeping (onSite act) := fun s => congrArg (Prod.mk s.tracer) (h s.site)

theorem time_eq {s s' : Scene} (h : s'.timekeeping = s.timekeeping) :
    s'.tracer = s.tracer ∧ s'.site.clocks = s.site.clocks ∧ s'.time = s.time := by
  obtain ⟨htracer, hclocks⟩ := Prod.mk.inj h
  refine ⟨htracer, hclocks, ?_⟩
  rw [time, time, Site.clock, Site.clock, htracer, hclocks]

end Scene

open Scene

namespace Counter

variable {c : Counter}

theorem init_keeps_time (c : Counter) : Keeps timekeeping c.init := by
  cases c with
  | timing t => exact .pure _
  | event c => exact (keeps_timekeeping c.keeps_init).bind fun _ => .pure _
  | register c => exact (keeps_timekeeping c.keeps_init).bind fun _ => .pure _
  | sensors c => exact (keeps_timekeeping c.keeps_init).bind fun _ => .pure _
  | probe p => exact (keeps_timekeeping (p.keeps_init Site.aside_clocks)).bind fun _ => .pure _

theorem exit_keeps_time (c : Counter) : Keeps timekeeping c.exit := by
  cases c with
  | probe p => exact (keeps_timekeeping (Site.aside_clocks.report _)).bind fun _ => .pure _
  | _ => exact .pure _

theorem reset_keeps_time (hc : c.timing? ≠ some .timestamp) : Keeps timekeeping c.reset := by
  cases c with
  | timing t =>
    cases t with
    | timestamp => exact absurd rfl hc
    | interval => exact fun _ => rfl
    | overhead => exact fun _ => rfl
  | event c =>
    exact (keeps_timekeeping (c.keeps_reset Site.aside_clocks)).bind fun _ => .pure _
  | register c => exact .pure _
  | sensors c =>
    exact (keeps_timekeeping (c.keeps_collect Site.aside_clocks)).bind fun _ => .pure _
  | probe p => exact (keeps_timekeeping (Site.aside_clocks.report _)).bind fun _ => .pure _

theorem restart_keeps_time (hc : c.timing? = none) (last : UInt64) :
    Keeps timekeeping (c.restart last) := by
  cases c with
  | timing t => cases hc
  | event c =>
    exact (keeps_timekeeping (c.keeps_restart Site.aside_clocks)).bind fun _ => .pure _
  | register c =>
    exact (keeps_timekeeping (c.keeps_restart Site.aside_clocks)).bind fun _ => .pure _
  | sensors c =>
    exact (keeps_timekeeping (c.keeps_restart Site.aside_clocks)).bind fun _ => .pure _
  | probe p =>
    exact (keeps_timekeeping (p.keeps_restart Site.aside_clocks last)).bind fun _ => .pure _

end Counter

namespace Registry

variable {place : Nat}

theorem note_keeps_time (place : Nat) (c : Counter) (act : Act) :
    Keeps timekeeping (note place c act) := fun _ => rfl

theorem callAll_keeps_time {change : Counter → StateM Scene Counter} (act : Act) (slots : List Slot)
    (hc : ∀ slot ∈ slots, Keeps timekeeping (change slot.counter)) :
    Keeps timekeeping (callAll place act change slots) := by
  induction slots with
  | nil => exact .pure _
  | cons slot slots ih =>
    have hrest : ∀ slot ∈ slots, Keeps timekeeping (change slot.counter) := fun slot hs =>
      hc slot (List.mem_cons_of_mem _ hs)
    apply (hc slot List.mem_cons_self).bind
    intro c
    apply (note_keeps_time place c act).bind
    intro _
    exact (ih hrest).bind fun _ => .pure _

theorem initAll_keeps_time (done slots : List Slot) :
    Keeps timekeeping (initAll place done slots) := by
  induction slots generalizing done with
  | nil => exact .pure _
  | cons slot slots ih =>
    apply slot.counter.init_keeps_time.bind
    rintro ⟨_ | e, c⟩
    · exact (note_keeps_time _ _ _).bind fun _ => ih _
    · apply (note_keeps_time _ _ _).bind
      intro _
      apply (callAll_keeps_time .exit done fun slot _ => slot.counter.exit_keeps_time).bind
      intro _
      exact .pure _

theorem restart_eq_some {slot : Slot} {scene scene' : Scene} {v : UInt64} {c : Counter}
    (h : restart place slot scene = ((some v, c), scene')) :
    (slot.counter.restart slot.last scene).1.1 = some v ∧
      scene'.timekeeping = (slot.counter.restart slot.last scene).2.timekeeping := by
  have hvalue : (restart place slot scene).1.1 =
      if (onSite Site.breaksDown (slot.counter.restart slot.last scene).2).1 = true then none
      else (slot.counter.restart slot.last scene).1.1 := rfl
  have hscene : (restart place slot scene).2.timekeeping =
      (onSite Site.breaksDown (slot.counter.restart slot.last scene).2).2.timekeeping := rfl
  have hbreaks : Keeps timekeeping (onSite Site.breaksDown) :=
    keeps_timekeeping Site.keeps_breaksDown_clocks
  rw [h] at hvalue hscene
  constructor
  · split_ifs at hvalue
    exact hvalue.symm
  · exact hscene.trans (hbreaks _)

theorem time_readClock (scene : Scene) :
    (onSite (Site.readClock scene.tracer.clock) scene).2.time = scene.time.read.2 := by
  change (Site.readClock scene.tracer.clock scene.site).2.clock scene.tracer.clock = _
  rw [Site.clock_readClock, if_pos rfl]
  rfl

theorem restart_timestamp_eq {slot : Slot} {scene scene' : Scene} {v : UInt64} {c : Counter}
    (hs : slot.counter = .timing .timestamp)
    (h : restart place slot scene = ((some v, c), scene')) :
    v = scene.time.read.1 ∧ scene'.time = scene.time.read.2 ∧
      scene'.tracer.current = v ∧ scene'.tracer.previous = scene.tracer.current := by
  obtain ⟨hvalue, hscene⟩ := restart_eq_some h
  rw [hs] at hvalue hscene
  have hv : scene.time.read.1 = v := Option.some.inj hvalue
  obtain ⟨htracer, -, htime⟩ := time_eq hscene
  refine ⟨hv.symm, htime.trans (time_readClock scene), ?_, ?_⟩
  · rw [htracer, ← hv]
    rfl
  · rw [htracer]
    rfl

theorem restart_interval_eq {slot : Slot} {scene scene' : Scene} {v : UInt64} {c : Counter}
    (hs : slot.counter = .timing .interval)
    (h : restart place slot scene = ((some v, c), scene')) :
    v = satSub scene.tracer.current scene.tracer.previous ∧
      scene'.timekeeping = scene.timekeeping := by
  obtain ⟨hvalue, hscene⟩ := restart_eq_some h
  rw [hs] at hvalue hscene
  exact ⟨(Option.some.inj hvalue).symm, hscene⟩

theorem restart_overhead_eq {slot : Slot} {scene scene' : Scene} {v : UInt64} {c : Counter}
    (hs : slot.counter = .timing .overhead)
    (h : restart place slot scene = ((some v, c), scene')) :
    v = satSub scene.time.read.1 scene.tracer.current ∧ scene'.time = scene.time.read.2 ∧
      scene'.tracer = scene.tracer := by
  obtain ⟨hvalue, hscene⟩ := restart_eq_some h
  rw [hs] at hvalue hscene
  obtain ⟨htracer, -, htime⟩ := time_eq hscene
  exact ⟨(Option.some.inj hvalue).symm, htime.trans (time_readClock scene), htracer⟩

theorem restart_other_eq {slot : Slot} {scene scene' : Scene} {v : UInt64} {c : Counter}
    (hs : slot.counter.timing? = none)
    (h : restart place slot scene = ((some v, c), scene')) :
    scene'.timekeeping = scene.timekeeping := by
  obtain ⟨-, hscene⟩ := restart_eq_some h
  exact hscene.trans (Counter.restart_keeps_time hs slot.last scene)

theorem restartAll_cons_whole {slot : Slot} {slots done : List Slot} {scene scene' : Scene}
    (h : restartAll place (slot :: slots) scene = ((true, done), scene')) :
    ∃ v c middle later, restart place slot scene = ((some v, c), middle) ∧
      restartAll place slots middle = ((true, later), scene') ∧ done = ⟨c, v⟩ :: later := by
  rcases hr : restart place slot scene with ⟨⟨_ | v, c⟩, middle⟩
  · rw [restartAll_cons_none slots hr] at h
    cases h
  · rw [restartAll_cons_some slots hr] at h
    rcases hl : restartAll place slots middle with ⟨⟨whole, later⟩, last⟩
    rw [hl] at h
    cases h
    exact ⟨v, c, middle, later, rfl, hl, rfl⟩

theorem restartAll_to_overhead {slots : List Slot} (hs : ∀ slot ∈ slots, slot.counter.timing? = none)
    {last : Slot} (hlast : last.counter = .timing .overhead) {scene scene' : Scene}
    {done : List Slot} (h : restartAll place (slots ++ [last]) scene = ((true, done), scene')) :
    (done.map Slot.last).getLast? = some (satSub scene.time.read.1 scene.tracer.current) ∧
      scene'.time = scene.time.read.2 ∧ scene'.tracer = scene.tracer := by
  induction slots generalizing scene done with
  | nil =>
    obtain ⟨v, c, middle, later, hr, hl, rfl⟩ := restartAll_cons_whole h
    cases hl
    obtain ⟨rfl, htime, htracer⟩ := restart_overhead_eq hlast hr
    exact ⟨rfl, htime, htracer⟩
  | cons slot slots ih =>
    obtain ⟨v, c, middle, later, hr, hl, rfl⟩ := restartAll_cons_whole h
    obtain ⟨hslot, hslots⟩ := List.forall_mem_cons.mp hs
    obtain ⟨htracer, -, htime⟩ := time_eq (restart_other_eq hslot hr)
    obtain ⟨hvalue, htime', htracer'⟩ := ih hslots hl
    rw [htime, htracer] at hvalue
    refine ⟨?_, htime'.trans (congrArg (·.read.2) htime), htracer'.trans htracer⟩
    rw [List.map_cons, List.getLast?_cons, hvalue]
    rfl

def IsTimed (slots : List Slot) : Prop :=
  ∃ n, timings slots = some .timestamp :: some .interval :: (List.replicate n none ++ [some .overhead])

theorem IsTimed.slots_eq {slots : List Slot} (h : IsTimed slots) :
    ∃ first second middle last, slots = first :: second :: (middle ++ [last]) ∧
      first.counter = .timing .timestamp ∧ second.counter = .timing .interval ∧
      (∀ slot ∈ middle, slot.counter.timing? = none) ∧ last.counter = .timing .overhead := by
  obtain ⟨n, hn⟩ := h
  obtain ⟨first, rest, rfl, hfirst, hn⟩ := List.map_eq_cons_iff.mp hn
  obtain ⟨second, rest, rfl, hsecond, hn⟩ := List.map_eq_cons_iff.mp hn
  obtain ⟨middle, ends, rfl, hmiddle, hends⟩ := List.map_eq_append_iff.mp hn
  obtain ⟨last, rfl, hlast⟩ := List.map_eq_singleton_iff.mp hends
  refine ⟨first, second, middle, last, rfl, Counter.timing?_eq_some_iff.mp hfirst,
    Counter.timing?_eq_some_iff.mp hsecond, ?_, Counter.timing?_eq_some_iff.mp hlast⟩
  intro slot hs
  apply List.eq_of_mem_replicate (n := n)
  rw [← hmiddle]
  exact List.mem_map_of_mem hs

/-- A sample's values of the timing counters, `last` being the reading from which its interval
counts, `now` that of its timestamp and `finish` that of its overhead. -/
structure Timed (width : Nat) (last now finish : UInt64) (values : List UInt64) : Prop where
  length_eq : values.length = width
  timestamp : values[0]? = some now
  interval : ∃ v, values[1]? = some v ∧ v.toNat = now.toNat - last.toNat
  overhead : ∃ v, values.getLast? = some v ∧ v.toNat = finish.toNat - now.toNat

theorem length_eq_of_timings {slots slots' : List Slot} (h : timings slots = timings slots') :
    slots.length = slots'.length := by
  have hlength := congrArg List.length h
  rwa [timings, timings, List.length_map, List.length_map] at hlength

theorem restartAll_timed {slots done : List Slot} {scene scene' : Scene} (ht : IsTimed slots)
    (h : restartAll place slots scene = ((true, done), scene')) :
    Timed slots.length scene.tracer.current scene.time.read.1 scene.time.read.2.read.1
        (done.map Slot.last) ∧
      scene'.tracer.current = scene.time.read.1 ∧ scene'.time = scene.time.read.2.read.2 := by
  have hlength : done.length = slots.length := by
    have hyields : Yields (restartAll place slots) _ := timings_restartAll slots
    have hsame := hyields scene
    rw [h] at hsame
    exact length_eq_of_timings hsame
  obtain ⟨first, second, middle, last, rfl, hfirst, hsecond, hmiddle, hlast⟩ := ht.slots_eq
  obtain ⟨now, c, scene₁, done₁, hr₁, hrest₁, rfl⟩ := restartAll_cons_whole h
  obtain ⟨intv, c', scene₂, done₂, hr₂, hrest₂, rfl⟩ := restartAll_cons_whole hrest₁
  obtain ⟨hnow, htime₁, hcurrent, hprevious⟩ := restart_timestamp_eq hfirst hr₁
  obtain ⟨hintv, hkept⟩ := restart_interval_eq hsecond hr₂
  obtain ⟨htracer, -, htime₂⟩ := time_eq hkept
  obtain ⟨hoh, hfinish, htracer'⟩ := restartAll_to_overhead hmiddle hlast hrest₂
  have hread : scene₂.time = scene.time.read.2 := htime₂.trans htime₁
  have hlast' : ((⟨c, now⟩ :: ⟨c', intv⟩ :: done₂ : List Slot).map Slot.last).getLast? =
      some (satSub scene₂.time.read.1 scene₂.tracer.current) := by
    rw [List.map_cons, List.getLast?_cons, List.map_cons, List.getLast?_cons, hoh]
    rfl
  refine ⟨⟨?_, ?_, ⟨intv, rfl, ?_⟩, ⟨_, hlast', ?_⟩⟩, ?_, ?_⟩
  · rw [List.length_map]
    exact hlength
  · rw [← hnow]
    rfl
  · rw [hintv, toNat_satSub, hcurrent, hprevious, hnow]
  · rw [toNat_satSub, hread, htracer, hcurrent, hnow]
  · rw [htracer', htracer, hcurrent, hnow]
  · rw [hfinish, hread]

theorem resetAll_timed {slots : List Slot} (ht : IsTimed slots) (scene : Scene) :
    let after := (resetAll place slots scene).2
    after.tracer.current = scene.time.read.1 ∧ after.time = scene.time.read.2 := by
  intro after
  obtain ⟨first, second, middle, last, rfl, hfirst, hsecond, hmiddle, hlast⟩ := ht.slots_eq
  have hrest : ∀ slot ∈ second :: (middle ++ [last]), Keeps timekeeping slot.counter.reset := by
    intro slot hs
    apply Counter.reset_keeps_time
    rcases List.mem_cons.mp hs with rfl | hs
    · simp [hsecond, Counter.timing?]
    · rcases List.mem_append.mp hs with hs | hs
      · simp [hmiddle slot hs]
      · rw [List.mem_singleton.mp hs]
        simp [hlast, Counter.timing?]
  have hafter : after.timekeeping = (first.counter.reset scene).2.timekeeping :=
    callAll_keeps_time .reset _ hrest
      (note place (first.counter.reset scene).1 .reset (first.counter.reset scene).2).2
  rw [hfirst] at hafter
  obtain ⟨htracer, -, htime⟩ := time_eq hafter
  constructor
  · rw [htracer]
    rfl
  · exact htime.trans (time_readClock scene)

def time (r : Registry) (site : Site) : Clock := site.clock r.tracer.clock

variable {r r' : Registry} {site site' : Site}

theorem sample_eq (r : Registry) (site : Site) :
    r.sample site =
      let done := restartAll r.place r.slots ⟨r.tracer, site⟩
      let r' := { r with slots := done.1.2, tracer := done.2.tracer }
      ((if done.1.1 = true then some r'.lastSample else none, r'), done.2.site) := rfl

theorem sample_timed (ht : IsTimed r.slots) {values : List UInt64}
    (h : r.sample site = ((some values, r'), site')) :
    Timed r.slots.length r.tracer.current (r.time site).read.1 (r.time site).read.2.read.1 values ∧
      r'.tracer.current = (r.time site).read.1 ∧ r'.time site' = (r.time site).read.2.read.2 := by
  rw [sample_eq] at h
  rcases hr : restartAll r.place r.slots ⟨r.tracer, site⟩ with ⟨⟨_ | _, done⟩, scene⟩
  · rw [hr] at h
    cases h
  · rw [hr] at h
    cases h
    exact restartAll_timed ht hr

theorem reset_timed (ht : IsTimed r.slots) (site : Site) :
    (r.reset site).1.tracer.current = (r.time site).read.1 ∧
      (r.reset site).1.time (r.reset site).2 = (r.time site).read.2 :=
  resetAll_timed ht ⟨r.tracer, site⟩

theorem activate_keeps_time (r : Registry) (site : Site) :
    (r.activate site).1.2.tracer = r.tracer ∧ (r.activate site).2.clocks = site.clocks := by
  unfold activate
  split
  · exact ⟨rfl, rfl⟩
  · exact Prod.mk.inj (initAll_keeps_time [] r.slots ⟨r.tracer, site⟩)

theorem deactivate_keeps_time (r : Registry) (site : Site) :
    (r.deactivate site).1.tracer = r.tracer ∧ (r.deactivate site).2.clocks = site.clocks := by
  unfold deactivate
  split
  · exact Prod.mk.inj
      (callAll_keeps_time .exit r.slots (fun slot _ => slot.counter.exit_keeps_time) ⟨r.tracer, site⟩)
  · exact ⟨rfl, rfl⟩

theorem IsTimed.use (ht : IsTimed r.slots) (u : Use) (site : Site) :
    IsTimed (use u r site).1.slots := by
  obtain ⟨n, hn⟩ := ht
  exact ⟨n, (timings_use u r site).trans hn⟩

theorem length_use (u : Use) (r : Registry) (site : Site) :
    (use u r site).1.slots.length = r.slots.length := length_eq_of_timings (timings_use u r site)

/-! Runs of a registry on a machine. -/

inductive Event
  | use (u : Use)
  | meanwhile (change : Site → Site)

inductive Mark
  | reset (now : UInt64)
  | sample (now finish : UInt64) (values : List UInt64)
  deriving DecidableEq

namespace Mark

def now : Mark → UInt64
  | .reset now => now
  | .sample now _ _ => now

def readings : Mark → List UInt64
  | .reset now => [now]
  | .sample now finish _ => [now, finish]

def values : Mark → List UInt64
  | .reset _ => []
  | .sample _ _ values => values

def timestamp? (m : Mark) : Option UInt64 := m.values.head?

def interval (m : Mark) : Nat := (m.values.getD 1 0).toNat

end Mark

def marks : List Event → Registry → Site → List Mark
  | [], _, _ => []
  | .meanwhile change :: events, r, site => marks events r (change site)
  | .use .reset :: events, r, site =>
    .reset (r.time site).read.1 :: marks events (r.reset site).1 (r.reset site).2
  | .use .sample :: events, r, site =>
    match r.sample site with
    | ((none, _), _) => []
    | ((some values, r'), site') =>
      .sample (r.time site).read.1 (r.time site).read.2.read.1 values :: marks events r' site'
  | .use .activate :: events, r, site => marks events (r.activate site).1.2 (r.activate site).2
  | .use .deactivate :: events, r, site =>
    marks events (r.deactivate site).1 (r.deactivate site).2

inductive Paced (width : Nat) : UInt64 → List Mark → Prop
  | nil (last : UInt64) : Paced width last []
  | reset {last now : UInt64} {ms : List Mark} (h : Paced width now ms) :
      Paced width last (.reset now :: ms)
  | sample {last now finish : UInt64} {values : List UInt64} {ms : List Mark}
      (hv : Timed width last now finish values) (h : Paced width now ms) :
      Paced width last (.sample now finish values :: ms)

theorem paced_marks (ht : IsTimed r.slots) (events : List Event) (site : Site) :
    Paced r.slots.length r.tracer.current (marks events r site) := by
  induction events generalizing r site with
  | nil => exact .nil _
  | cons event events ih =>
    cases event with
    | meanwhile change => exact ih ht (change site)
    | use u =>
      have hlater := ih (ht.use u site) (use u r site).2
      rw [length_use] at hlater
      cases u with
      | activate =>
        obtain ⟨htracer, -⟩ := activate_keeps_time r site
        change Paced _ (r.activate site).1.2.tracer.current _ at hlater
        rw [htracer] at hlater
        exact hlater
      | deactivate =>
        obtain ⟨htracer, -⟩ := deactivate_keeps_time r site
        change Paced _ (r.deactivate site).1.tracer.current _ at hlater
        rw [htracer] at hlater
        exact hlater
      | reset =>
        obtain ⟨hcurrent, -⟩ := reset_timed ht site
        change Paced _ (r.reset site).1.tracer.current _ at hlater
        rw [hcurrent] at hlater
        exact .reset hlater
      | sample =>
        rw [marks]
        rcases hs : r.sample site with ⟨⟨_ | values, r'⟩, site'⟩
        · exact .nil _
        · obtain ⟨htimed, hcurrent, -⟩ := sample_timed ht hs
          change Paced _ (r.sample site).1.2.tracer.current
            (marks events (r.sample site).1.2 (r.sample site).2) at hlater
          rw [hs, hcurrent] at hlater
          exact .sample htimed hlater

namespace Paced

variable {width : Nat} {last : UInt64} {ms : List Mark}

theorem split {before after : List Mark} (h : Paced width last (before ++ after)) :
    Paced width last before ∧ Paced width ((before.map Mark.now).getLastD last) after := by
  induction before generalizing last with
  | nil => exact ⟨.nil last, h⟩
  | cons m before ih =>
    rw [List.map_cons, List.getLastD_cons]
    cases h with
    | reset h => exact ⟨.reset (ih h).1, (ih h).2⟩
    | sample hv h => exact ⟨.sample hv (ih h).1, (ih h).2⟩

theorem sum_intervals (h : Paced width last ms) (hs : ∀ m ∈ ms, ∀ t, m ≠ .reset t)
    (hle : (last :: ms.map Mark.now).Pairwise (· ≤ ·)) :
    (ms.map Mark.interval).sum + last.toNat = ((ms.map Mark.now).getLastD last).toNat := by
  induction h with
  | nil => exact Nat.zero_add _
  | reset h ih => exact absurd rfl (hs _ List.mem_cons_self _)
  | @sample last now finish values ms hv h ih =>
    rw [List.map_cons, List.pairwise_cons] at hle
    have hrest := ih (fun m hm => hs m (List.mem_cons_of_mem _ hm)) hle.2
    have hnow : last.toNat ≤ now.toNat := UInt64.le_iff_toNat_le.mp (hle.1 now List.mem_cons_self)
    obtain ⟨v, hv, hinterval⟩ := hv.interval
    have hmark : Mark.interval (.sample now finish values) = now.toNat - last.toNat := by
      rw [← hinterval, Mark.interval, Mark.values, List.getD_eq_getElem?_getD, hv]
      rfl
    rw [List.map_cons, List.sum_cons, List.map_cons, List.getLastD_cons, hmark]
    change _ = ((ms.map Mark.now).getLastD now).toNat
    rw [← hrest]
    omega

theorem timestamps_sublist (h : Paced width last ms) :
    (ms.filterMap Mark.timestamp?).Sublist (ms.flatMap Mark.readings) := by
  induction h with
  | nil => exact .slnil
  | reset h ih => exact ih.cons _
  | @sample last now finish values ms hv h ih =>
    have hhead : (Mark.sample now finish values).timestamp? = some now :=
      List.head?_eq_getElem?.trans hv.timestamp
    rw [List.filterMap_cons_some hhead]
    exact (ih.cons finish).cons_cons now

end Paced

theorem nows_sublist (ms : List Mark) : (ms.map Mark.now).Sublist (ms.flatMap Mark.readings) := by
  induction ms with
  | nil => exact .slnil
  | cons m ms ih =>
    cases m with
    | reset now => exact ih.cons_cons now
    | sample now finish values => exact (ih.cons finish).cons_cons now

theorem time_of_keeps (htracer : r'.tracer = r.tracer) (hclocks : site'.clocks = site.clocks) :
    r'.time site' = r.time site := by
  rw [time, time, Site.clock, Site.clock, htracer, hclocks]

theorem readings_prefix (ht : IsTimed r.slots) (uses : List Use) (site : Site) :
    (marks (uses.map .use) r site).flatMap Mark.readings <+:
      (r.time site).readings (2 * uses.length) := by
  induction uses generalizing r site with
  | nil => exact List.nil_prefix
  | cons u uses ih =>
    have hlater := ih (ht.use u site) (use u r site).2
    rw [List.length_cons, Nat.mul_succ]
    cases u with
    | activate =>
      obtain ⟨htracer, hclocks⟩ := activate_keeps_time r site
      change _ <+: ((r.activate site).1.2.time (r.activate site).2).readings _ at hlater
      rw [time_of_keeps htracer hclocks] at hlater
      exact hlater.trans (Clock.readings_prefix _ _ 2)
    | deactivate =>
      obtain ⟨htracer, hclocks⟩ := deactivate_keeps_time r site
      change _ <+: ((r.deactivate site).1.time (r.deactivate site).2).readings _ at hlater
      rw [time_of_keeps htracer hclocks] at hlater
      exact hlater.trans (Clock.readings_prefix _ _ 2)
    | reset =>
      obtain ⟨-, htime⟩ := reset_timed ht site
      change _ <+: ((r.reset site).1.time (r.reset site).2).readings _ at hlater
      rw [htime] at hlater
      exact List.prefix_cons_inj _ |>.mpr (hlater.trans (Clock.readings_prefix _ _ 1))
    | sample =>
      rw [List.map_cons, marks]
      rcases hs : r.sample site with ⟨⟨_ | values, r'⟩, site'⟩
      · exact List.nil_prefix
      · obtain ⟨-, -, htime⟩ := sample_timed ht hs
        change marks _ (r.sample site).1.2 (r.sample site).2 |>.flatMap Mark.readings
          |> (· <+: ((r.sample site).1.2.time (r.sample site).2).readings _) at hlater
        rw [hs, htime] at hlater
        exact List.prefix_cons_inj _ |>.mpr (List.prefix_cons_inj _ |>.mpr hlater)

theorem slots_of_new {tracer : Tracer} {counters : List Counter}
    (hr : Registry.new tracer counters = .ok r) :
    r.slots.map Slot.counter = counters ∧ r.tracer = tracer := by
  unfold Registry.new at hr
  split at hr
  · cases hr
  · cases hr
    rw [List.map_map]
    exact ⟨List.map_id _, rfl⟩

theorem isTimed_of_new {tracer : Tracer} {middle : List Counter}
    (hr : Registry.new tracer
      (.timing .timestamp :: .timing .interval :: (middle ++ [.timing .overhead])) = .ok r) :
    IsTimed r.slots ∧ r.slots.length = middle.length + 3 ∧ r.tracer = tracer := by
  obtain ⟨hslots, htracer⟩ := slots_of_new hr
  obtain ⟨hnames, hnodup, -⟩ := new_ok hr
  have hlength := congrArg List.length hslots
  rw [List.length_map] at hlength
  rw [hnames, List.map_cons, List.map_cons, List.map_append, List.nodup_cons, List.nodup_cons,
    List.nodup_append] at hnodup
  obtain ⟨hts, hintv, -, -, hoh⟩ := hnodup
  -- The names of the timing counters are taken, so that there are none in the middle.
  have hmiddle : ∀ c ∈ middle, c.timing? = none := by
    intro c hc
    have hname : c.name ∈ middle.map Counter.name := List.mem_map_of_mem hc
    cases c with
    | timing t =>
      cases t with
      | timestamp => exact absurd (List.mem_cons_of_mem _ (List.mem_append_left _ hname)) hts
      | interval => exact absurd (List.mem_append_left _ hname) hintv
      | overhead => exact absurd rfl (hoh _ hname _ (List.mem_singleton_self _))
    | _ => rfl
  refine ⟨⟨middle.length, ?_⟩, ?_, htracer⟩
  · have htimings : timings r.slots = (r.slots.map Slot.counter).map Counter.timing? := by
      rw [List.map_map]
      rfl
    have hnone : middle.map Counter.timing? = List.replicate middle.length none :=
      List.eq_replicate_iff.mpr ⟨List.length_map _, List.forall_mem_map.mpr hmiddle⟩
    rw [htimings, hslots, List.map_cons, List.map_cons, List.map_append, hnone]
    rfl
  · rw [hlength]
    simp

/-- What the timing counters of a registry tell. Whatever happens between its samples, a sample's
interval counts from the sample or the reset before it, so that on a clock that never goes back the
intervals since a reset add up to the time since then. -/
theorem samples_keep_time {clock : Nat} {middle : List Counter}
    (hr : Registry.new { clock }
      (.timing .timestamp :: .timing .interval :: (middle ++ [.timing .overhead])) = .ok r)
    (events : List Event) (site : Site) :
    let ms := marks events r site
    (∀ before now finish values after, ms = before ++ .sample now finish values :: after →
      Timed (middle.length + 3) ((before.map Mark.now).getLastD 0) now finish values) ∧
    ((ms.flatMap Mark.readings).Pairwise (· ≤ ·) →
      (ms.filterMap Mark.timestamp?).Pairwise (· ≤ ·) ∧
      ∀ before start samples after, ms = before ++ .reset start :: (samples ++ after) →
        (∀ m ∈ samples, ∀ t, m ≠ .reset t) →
          (samples.map Mark.interval).sum =
            ((samples.map Mark.now).getLastD start).toNat - start.toNat) ∧
    ∀ uses : List Use, (marks (uses.map .use) r site).flatMap Mark.readings <+:
      (site.clock clock).readings (2 * uses.length) := by
  intro ms
  obtain ⟨htimed, hlength, htracer⟩ := isTimed_of_new hr
  have hpaced : Paced (middle.length + 3) 0 ms := by
    have h := paced_marks htimed events site
    rwa [hlength, htracer] at h
  refine ⟨?_, ?_, ?_⟩
  · intro before now finish values after hms
    rw [hms] at hpaced
    cases hpaced.split.2 with
    | sample hv _ => exact hv
  · intro hclock
    refine ⟨hclock.sublist hpaced.timestamps_sublist, ?_⟩
    intro before start samples after hms hs
    rw [hms] at hpaced hclock
    cases hpaced.split.2 with
    | reset hlater =>
      have hsub : (Mark.reset start :: samples).Sublist
          (before ++ .reset start :: (samples ++ after)) :=
        ((List.sublist_append_left samples after).cons_cons _).trans
          (List.sublist_append_right before _)
      have hle : (start :: samples.map Mark.now).Pairwise (· ≤ ·) :=
        hclock.sublist ((nows_sublist _).trans (hsub.flatMap _))
      have hsum := hlater.split.1.sum_intervals hs hle
      omega
  · intro uses
    have hprefix := readings_prefix htimed uses site
    rwa [time, htracer] at hprefix

theorem interval_after_pause :
    let counters : List Counter :=
      [.timing .timestamp, .timing .interval, .probe { name := "v" }, .timing .overhead]
    let r : Registry :=
      { slots := counters.map fun c => { counter := c }, schema := counters.map Column.ofCounter
        tracer := {} }
    let queue : List UInt64 := [100, 150, 160, 260, 265, 9000, 9250, 9251, 9300, 9300]
    let events : List Event :=
      [.use .reset, .use .sample, .use .sample, .use .reset, .use .sample, .use .sample]
    let ms := marks events r { clocks := #[{ queue }] }
    Registry.new {} counters = .ok r ∧
      ms = [.reset 100, .sample 150 160 [150, 50, 1, 10], .sample 260 265 [260, 110, 2, 5],
        .reset 9000, .sample 9250 9251 [9250, 250, 3, 1], .sample 9300 9300 [9300, 50, 4, 0]] ∧
      Timed 4 9000 9250 9251 [9250, 250, 3, 1] ∧
      (ms.flatMap Mark.readings).Pairwise (· ≤ ·) ∧
      (ms.filterMap Mark.timestamp?).Pairwise (· ≤ ·) ∧
      ([.sample 9250 9251 [9250, 250, 3, 1], .sample 9300 9300 [9300, 50, 4, 0]].map
        Mark.interval).sum = 9300 - 9000 := by
  intro counters r queue events ms
  have hr : Registry.new {} counters = .ok r := rfl
  have hms : ms = [.reset 100, .sample 150 160 [150, 50, 1, 10],
      .sample 260 265 [260, 110, 2, 5], .reset 9000, .sample 9250 9251 [9250, 250, 3, 1],
      .sample 9300 9300 [9300, 50, 4, 0]] := by decide +kernel
  have hclock : (ms.flatMap Mark.readings).Pairwise (· ≤ ·) := by
    rw [hms]
    decide
  obtain ⟨htimed, hsteady, -⟩ := @samples_keep_time _ 0 [.probe { name := "v" }] hr
    events { clocks := #[{ queue }] }
  obtain ⟨hstamps, hsum⟩ := hsteady hclock
  refine ⟨hr, hms, ?_, hclock, hstamps, ?_⟩
  · exact htimed [.reset 100, .sample 150 160 [150, 50, 1, 10], .sample 260 265 [260, 110, 2, 5],
      .reset 9000] 9250 9251 _ _ hms
  · refine hsum [.reset 100, .sample 150 160 [150, 50, 1, 10], .sample 260 265 [260, 110, 2, 5]] 9000
      _ [] hms ?_
    intro m hm t
    rcases List.mem_pair.mp hm with rfl | rfl <;> exact Mark.noConfusion

end Registry

end NodeTelemetry
