import Mathlib
import NodeTelemetry.Proofs.CounterNames
import NodeTelemetry.Proofs.RegistryDeeds

namespace NodeTelemetry

namespace Provider

def Contested (s : Settings) (name : String) : Prop :=
  ∃ p q : Provider, p ≠ q ∧ p.Knows s name ∧ q.Knows s name

def ofCounter? : Counter → Option Provider
  | .timing _ => some .timing
  | .event _ => some .events
  | .register _ => some .registers
  | .sensors _ => some .sensors
  | .probe _ => none

variable {p : Provider} {order : List Provider} {s : Settings} {cpus : List Nat} {name : String}

theorem ofCounter?_of_counter? {c : Counter} (h : p.counter? s cpus name = some c) :
    ofCounter? c = some p := by
  cases p <;> obtain ⟨x, -, rfl⟩ := Option.map_eq_some_iff.mp h <;> rfl

theorem knows_of_counter? {c : Counter} (h : p.counter? s cpus name = some c) : p.Knows s name := by
  apply (isSome_counter?_iff cpus).mp
  rw [h]
  rfl

theorem build_of_uncontested (hp : order.Perm all) (h : ¬ Contested s name) (hk : p.Knows s name) :
    build order s cpus name = p.counter? s cpus name := by
  have hsome : (build order s cpus name).isSome := (isSome_build_iff cpus hp).mpr ⟨p, hk⟩
  obtain ⟨c, hc⟩ := Option.isSome_iff_exists.mp hsome
  obtain ⟨q, -, hq⟩ := List.exists_of_findSome?_eq_some hc
  have hqp : q = p := by
    by_contra hne
    exact h ⟨q, p, hne, knows_of_counter? hq, hk⟩
  rw [hc, ← hqp, hq]

theorem build_of_unknown (hp : order.Perm all) (h : ¬ Known s name) :
    build order s cpus name = none := by
  rwa [← Option.not_isSome_iff_eq_none, isSome_build_iff cpus hp]

theorem build_same_order (hp : order.Perm all) (h : ¬ Contested s name) :
    build order s cpus name = build all s cpus name := by
  by_cases hk : Known s name
  · obtain ⟨p, hk⟩ := hk
    rw [build_of_uncontested hp h hk, build_of_uncontested (.refl all) h hk]
  · rw [build_of_unknown hp hk, build_of_unknown (.refl all) hk]

theorem exists_order_of_knows (cpus : List Nat) (hk : p.Knows s name) :
    ∃ order, order.Perm all ∧ (build order s cpus name).bind ofCounter? = some p := by
  have hsome : (p.counter? s cpus name).isSome := (isSome_counter?_iff cpus).mpr hk
  obtain ⟨c, hc⟩ := Option.isSome_iff_exists.mp hsome
  refine ⟨p :: all.erase p, (List.perm_cons_erase (mem_all p)).symm, ?_⟩
  rw [build, List.findSome?_cons, hc]
  exact ofCounter?_of_counter? hc

theorem same_counter_iff (s : Settings) (cpus : List Nat) (name : String) :
    (∀ order, order.Perm all → build order s cpus name = build all s cpus name) ↔
      ¬ Contested s name := by
  constructor
  · rintro h ⟨p, q, hne, hp, hq⟩
    obtain ⟨order, horder, hbuild⟩ := exists_order_of_knows cpus hp
    obtain ⟨order', horder', hbuild'⟩ := exists_order_of_knows cpus hq
    rw [h order horder] at hbuild
    rw [h order' horder', hbuild] at hbuild'
    exact hne (Option.some.inj hbuild')
  · intro h order horder
    exact build_same_order horder h

theorem contested_iff :
    Contested s name ↔
      name ∈ s.rawEvents.map RawEvent.name ∧ (Knows s name .timing ∨ Knows s name .registers) ∨
        name ∈ s.sensorGroups.map SensorGroup.name ∧
          (Knows s name .timing ∨ Knows s name .events ∨ Knows s name .registers) := by
  have htiming : ∀ n ∈ ["ts", "intv", "oh"],
      n ∉ ["cyc", "inst", "llcref", "llcmiss", "br", "brmiss", "l2lin"] ∧
        n ∉ ["temp", "energy", "eunit"] := by decide
  have hregisters : ∀ n ∈ ["temp", "energy", "eunit"],
      n ∉ ["cyc", "inst", "llcref", "llcmiss", "br", "brmiss", "l2lin"] := by decide
  specialize htiming name
  specialize hregisters name
  constructor
  · rintro ⟨p, q, hne, hp, hq⟩
    cases p <;> cases q <;> simp only [Knows] at hp hq ⊢ <;> tauto
  · rintro (⟨hraw, h | h⟩ | ⟨hgroup, h | h | h⟩)
    · exact ⟨.events, .timing, by decide, .inl hraw, h⟩
    · exact ⟨.events, .registers, by decide, .inl hraw, h⟩
    · exact ⟨.sensors, .timing, by decide, hgroup, h⟩
    · exact ⟨.sensors, .events, by decide, hgroup, h⟩
    · exact ⟨.sensors, .registers, by decide, hgroup, h⟩

theorem build_timing (s : Settings) (cpus : List Nat) (t : Timing) :
    build all s cpus t.name = some (.timing t) := by
  cases t <;> rfl

end Provider

namespace Counter

def timing? : Counter → Option Timing
  | .timing t => some t
  | _ => none

theorem timing?_eq_some_iff {c : Counter} {t : Timing} : c.timing? = some t ↔ c = .timing t := by
  cases c <;> simp [timing?]

theorem timing?_init (c : Counter) : Yields c.init (·.2.timing? = c.timing?) := by
  cases c <;> exact fun _ => rfl

theorem timing?_reset (c : Counter) : Yields c.reset (·.timing? = c.timing?) := by
  cases c <;> exact fun _ => rfl

theorem timing?_restart (last : UInt64) (c : Counter) :
    Yields (c.restart last) (·.2.timing? = c.timing?) := by
  cases c <;> exact fun _ => rfl

theorem timing?_exit (c : Counter) : Yields c.exit (·.timing? = c.timing?) := by
  cases c <;> exact fun _ => rfl

end Counter

namespace Scene

def clock (s : Scene) : Nat := s.tracer.clock

theorem clock_init (c : Counter) : Keeps clock c.init := by
  cases c <;> exact fun _ => rfl

theorem clock_reset (c : Counter) : Keeps clock c.reset := by
  cases c with
  | timing t => cases t <;> exact fun _ => rfl
  | _ => exact fun _ => rfl

theorem clock_restart (last : UInt64) (c : Counter) : Keeps clock (c.restart last) := by
  cases c with
  | timing t => cases t <;> exact fun _ => rfl
  | _ => exact fun _ => rfl

theorem clock_exit (c : Counter) : Keeps clock c.exit := by
  cases c <;> exact fun _ => rfl

theorem clock_note (place : Nat) (c : Counter) (act : Act) : Keeps clock (Registry.note place c act) :=
  fun _ => rfl

end Scene

namespace Registry

open Scene

def timings (slots : List Slot) : List (Option Timing) := slots.map fun slot => slot.counter.timing?

variable {place : Nat} {change : Counter → StateM Scene Counter}

theorem timings_callAll (act : Act) (hc : ∀ c, Yields (change c) (·.timing? = c.timing?))
    (slots : List Slot) : Yields (callAll place act change slots) (timings · = timings slots) := by
  induction slots with
  | nil => exact .pure rfl
  | cons slot slots ih =>
    refine (hc slot.counter).bind_of fun c hc => ?_
    apply Yields.bind
    intro _
    refine ih.bind_of fun slots' hs => ?_
    exact .pure (congrArg₂ List.cons hc hs)

theorem clock_callAll (act : Act) (hc : ∀ c, Keeps clock (change c)) (slots : List Slot) :
    Keeps clock (callAll place act change slots) := by
  induction slots with
  | nil => exact .pure _
  | cons slot slots ih =>
    apply (hc slot.counter).bind
    intro c
    apply (clock_note place c act).bind
    intro _
    exact ih.bind fun _ => .pure _

theorem timings_restart (slot : Slot) :
    Yields (restart place slot) (·.2.timing? = slot.counter.timing?) := by
  refine (slot.counter.timing?_restart slot.last).bind_of fun a ha => ?_
  exact .bind fun _ => .bind fun _ => .pure ha

theorem clock_restart (slot : Slot) : Keeps clock (restart place slot) := by
  apply (Scene.clock_restart slot.last slot.counter).bind
  intro a
  have hbreaks : Keeps clock (onSite Site.breaksDown) := fun _ => rfl
  apply hbreaks.bind
  intro broken
  exact (clock_note _ _ _).bind fun _ => .pure _

theorem timings_restartAll (slots : List Slot) :
    Yields (restartAll place slots) (timings ·.2 = timings slots) := by
  induction slots with
  | nil => exact .pure rfl
  | cons slot slots ih =>
    refine (timings_restart slot).bind_of ?_
    rintro ⟨_ | v, c⟩ hc
    · exact .pure (congrArg (· :: timings slots) hc)
    · refine ih.bind_of fun done hs => ?_
      exact .pure (congrArg₂ List.cons hc hs)

theorem clock_restartAll (slots : List Slot) : Keeps clock (restartAll place slots) := by
  induction slots with
  | nil => exact .pure _
  | cons slot slots ih =>
    apply (clock_restart slot).bind
    rintro ⟨_ | v, c⟩
    · exact .pure _
    · exact ih.bind fun _ => .pure _

theorem timings_initAll (done slots : List Slot) :
    Yields (initAll place done slots) (timings ·.2 = timings (done.reverse ++ slots)) := by
  induction slots generalizing done with
  | nil =>
    apply Yields.pure
    rw [List.append_nil]
  | cons slot slots ih =>
    refine slot.counter.timing?_init.bind_of ?_
    rintro ⟨_ | e, c⟩ hc
    · apply Yields.bind
      intro _ s
      have hrest := ih ({ slot with counter := c } :: done) s
      rw [List.reverse_cons, List.append_assoc] at hrest
      refine hrest.trans ?_
      simp [timings, hc]
    · apply Yields.bind
      intro _
      refine (timings_callAll .exit Counter.timing?_exit done).bind_of fun exited he => ?_
      apply Yields.pure
      simp only [timings, List.map_append, List.map_reverse, List.map_cons] at he ⊢
      rw [he, hc]

theorem clock_initAll (done slots : List Slot) : Keeps clock (initAll place done slots) := by
  induction slots generalizing done with
  | nil => exact .pure _
  | cons slot slots ih =>
    apply (clock_init slot.counter).bind
    rintro ⟨_ | e, c⟩
    · exact (clock_note _ _ _).bind fun _ => ih _
    · apply (clock_note _ _ _).bind
      intro _
      exact (clock_callAll .exit clock_exit done).bind fun _ => .pure _

inductive Use
  | activate
  | reset
  | sample
  | deactivate

def use : Use → Registry → StateM Site Registry
  | .activate, r => do pure (← r.activate).2
  | .reset, r => r.reset
  | .sample, r => do pure (← r.sample).2
  | .deactivate, r => r.deactivate

inductive Reached (r : Registry) : Registry → Prop
  | refl : Reached r r
  | used {r' : Registry} (h : Reached r r') (u : Use) (site : Site) : Reached r (use u r' site).1

theorem timings_use (u : Use) (r : Registry) (site : Site) :
    timings (use u r site).1.slots = timings r.slots := by
  cases u with
  | activate =>
    by_cases ha : r.active = true
    · simp only [use, activate, if_pos ha]
      rfl
    · simp only [use, activate, if_neg ha]
      exact timings_initAll [] r.slots ⟨r.tracer, site⟩
  | reset => exact timings_callAll .reset Counter.timing?_reset r.slots ⟨r.tracer, site⟩
  | sample => exact timings_restartAll r.slots ⟨r.tracer, site⟩
  | deactivate =>
    by_cases ha : r.active = true
    · simp only [use, deactivate, if_pos ha]
      exact timings_callAll .exit Counter.timing?_exit r.slots ⟨r.tracer, site⟩
    · simp only [use, deactivate, if_neg ha]
      rfl

theorem clock_use (u : Use) (r : Registry) (site : Site) :
    (use u r site).1.tracer.clock = r.tracer.clock := by
  cases u with
  | activate =>
    by_cases ha : r.active = true
    · simp only [use, activate, if_pos ha]
      rfl
    · simp only [use, activate, if_neg ha]
      exact clock_initAll [] r.slots ⟨r.tracer, site⟩
  | reset => exact clock_callAll .reset clock_reset r.slots ⟨r.tracer, site⟩
  | sample => exact clock_restartAll r.slots ⟨r.tracer, site⟩
  | deactivate =>
    by_cases ha : r.active = true
    · simp only [use, deactivate, if_pos ha]
      exact clock_callAll .exit clock_exit r.slots ⟨r.tracer, site⟩
    · simp only [use, deactivate, if_neg ha]
      rfl

structure TimedBy (clock : Nat) (r : Registry) : Prop where
  timestamp : r.slots[0]?.map Slot.counter = some (.timing .timestamp)
  interval : r.slots[1]?.map Slot.counter = some (.timing .interval)
  overhead : r.slots.getLast?.map Slot.counter = some (.timing .overhead)
  clock_eq : r.tracer.clock = clock

variable {r r' : Registry} {clock : Nat}

theorem timing_slot_iff {slot? : Option Slot} {t : Timing} :
    slot?.map Slot.counter = some (.timing t) ↔
      slot?.map (fun slot => slot.counter.timing?) = some (some t) := by
  cases slot? with
  | none => simp
  | some slot => simp [Counter.timing?_eq_some_iff]

theorem TimedBy.of_timings (h : r.TimedBy clock) (hs : timings r'.slots = timings r.slots)
    (hclock : r'.tracer.clock = r.tracer.clock) : r'.TimedBy clock := by
  have hat : ∀ i : Nat, r'.slots[i]?.map (fun slot => slot.counter.timing?) =
      r.slots[i]?.map fun slot => slot.counter.timing? := by
    intro i
    rw [← List.getElem?_map, ← List.getElem?_map]
    exact congrArg (·[i]?) hs
  have hlast : r'.slots.getLast?.map (fun slot => slot.counter.timing?) =
      r.slots.getLast?.map fun slot => slot.counter.timing? := by
    rw [← List.getLast?_map, ← List.getLast?_map]
    exact congrArg List.getLast? hs
  constructor
  · rw [timing_slot_iff, hat]
    exact timing_slot_iff.mp h.timestamp
  · rw [timing_slot_iff, hat]
    exact timing_slot_iff.mp h.interval
  · rw [timing_slot_iff, hlast]
    exact timing_slot_iff.mp h.overhead
  · exact hclock.trans h.clock_eq

theorem TimedBy.reached (h : r.TimedBy clock) (hr : Reached r r') : r'.TimedBy clock := by
  induction hr with
  | refl => exact h
  | @used r' _ u site ih => exact ih.of_timings (timings_use u r' site) (clock_use u r' site)

theorem restart_timestamp {slot : Slot} {scene scene' : Scene} {v : UInt64} {c : Counter}
    (hs : slot.counter = .timing .timestamp)
    (h : restart place slot scene = ((some v, c), scene')) :
    v = (scene.site.clock scene.tracer.clock).read.1 := by
  have hvalue : (restart place slot scene).1.1 =
      if (onSite Site.breaksDown (slot.counter.restart slot.last scene).2).1 = true then none
      else (slot.counter.restart slot.last scene).1.1 := rfl
  have hread : (Counter.restart slot.last (.timing .timestamp) scene).1.1 =
      some (scene.site.clock scene.tracer.clock).read.1 := rfl
  rw [h, hs, hread] at hvalue
  split_ifs at hvalue
  exact Option.some.inj hvalue

theorem sample_begins (hfirst : r.slots[0]?.map Slot.counter = some (.timing .timestamp))
    {site : Site} {values : List UInt64} (hv : (r.sample site).1.1 = some values) :
    values.head? = some (site.clock r.tracer.clock).read.1 := by
  obtain ⟨slot, slots, hslots, hcounter⟩ :
      ∃ slot slots, r.slots = slot :: slots ∧ slot.counter = .timing .timestamp := by
    cases hs : r.slots with
    | nil => simp [hs] at hfirst
    | cons slot slots => exact ⟨slot, slots, rfl, by simpa [hs] using hfirst⟩
  have hsample : (r.sample site).1.1 =
      let done := restartAll r.place r.slots ⟨r.tracer, site⟩
      if done.1.1 = true then some (done.1.2.map Slot.last) else none := rfl
  rw [hsample, hslots] at hv
  rcases hr : restart r.place slot ⟨r.tracer, site⟩ with ⟨⟨_ | v, c⟩, scene⟩
  · rw [restartAll_cons_none slots hr] at hv
    cases hv
  · have hvalue := restart_timestamp hcounter hr
    rw [restartAll_cons_some slots hr] at hv
    dsimp only at hv hvalue
    split_ifs at hv
    cases hv
    rw [hvalue]
    rfl

theorem TimedBy.sample_begins (h : r.TimedBy clock) {site : Site} {values : List UInt64}
    (hv : (r.sample site).1.1 = some values) :
    values.head? = some (site.clock clock).read.1 := by
  rw [← h.clock_eq]
  exact Registry.sample_begins h.timestamp hv

open Provider

variable {order : List Provider} {s : Settings} {cpus : List Nat} {tracer : Tracer}

theorem Supplied.map_eq {names : List String} {cs : List Counter}
    (h : Supplied order s cpus names cs) : cs.map some = names.map (build order s cpus) := by
  induction h with
  | nil => rfl
  | cons hc _ ih => rw [List.map_cons, List.map_cons, ih, hc]

theorem supplied_of_resolve {names : List String} (hp : order.Perm all)
    (hr : resolve order s cpus tracer names = .ok r) :
    ∃ cs, Supplied order s cpus names cs ∧ r.slots.map Slot.counter = cs ∧ r.tracer = tracer := by
  rcases all_known_or_firstUnknown s names with hknown | ⟨name, hname⟩
  · obtain ⟨cs, hcs, hnew⟩ := resolve_of_known cpus tracer hp hknown
    refine ⟨cs, hcs, ?_⟩
    rw [hr, Registry.new] at hnew
    split at hnew
    · cases hnew
    · cases hnew
      rw [List.map_map]
      exact ⟨List.map_id cs, rfl⟩
  · rw [resolve_of_firstUnknown hp hname] at hr
    cases hr

theorem build_timing_in_any_order {t : Timing} (hp : order.Perm all) (h : ¬ Contested s t.name) :
    build order s cpus t.name = some (.timing t) :=
  (build_same_order hp h).trans (build_timing s cpus t)

theorem timedBy_of_resolve (hp : order.Perm all) (h : ∀ t : Timing, ¬ Contested s t.name)
    (hr : resolve order s cpus tracer s.counterNames = .ok r) : r.TimedBy tracer.clock := by
  obtain ⟨cs, hcs, hslots, htracer⟩ := supplied_of_resolve hp hr
  have hbuild : ∀ t : Timing, build order s cpus t.name = some (.timing t) := fun t =>
    build_timing_in_any_order hp (h t)
  have htimed : ∀ {c? : Option Counter} {name? : Option String} {t : Timing},
      c?.map some = name?.map (build order s cpus) → name? = some t.name →
        c? = some (.timing t) := by
    intro c? name? t hc hname
    rw [hname, Option.map_some, hbuild t] at hc
    simpa using hc
  have hat : ∀ i : Nat, cs[i]?.map some = s.counterNames[i]?.map (build order s cpus) := by
    intro i
    rw [← List.getElem?_map, ← List.getElem?_map, hcs.map_eq]
  have hlast : cs.getLast?.map some = s.counterNames.getLast?.map (build order s cpus) := by
    rw [← List.getLast?_map, ← List.getLast?_map, hcs.map_eq]
  constructor
  · rw [← List.getElem?_map, hslots]
    exact htimed (hat 0) rfl
  · rw [← List.getElem?_map, hslots]
    exact htimed (hat 1) rfl
  · rw [← List.getLast?_map, hslots]
    apply htimed hlast
    rw [Settings.counterNames, List.getLast?_concat]
    rfl
  · rw [htracer]

/-- Providers may be asked in any order where no name is contested, and only there. A name that is
the timing counters' alone stands for them in any order, so that samples begin with the time. -/
theorem resolve_in_any_order (s : Settings) (cpus : List Nat) (tracer : Tracer) :
    (∀ name, (∀ order, order.Perm all → build order s cpus name = build all s cpus name) ↔
      ¬ Contested s name) ∧
    (∀ t : Timing, (∀ order, order.Perm all →
      build order s cpus t.name = some (.timing t)) ↔ ¬ Contested s t.name) ∧
    ((∀ t : Timing, ¬ Contested s t.name) → ∀ order r, order.Perm all →
      resolve order s cpus tracer s.counterNames = .ok r → ∀ r', Reached r r' →
        r'.TimedBy tracer.clock ∧ ∀ site values, (r'.sample site).1.1 = some values →
          values.head? = some (site.clock tracer.clock).read.1) := by
  refine ⟨same_counter_iff s cpus, ?_, ?_⟩
  · intro t
    rw [← same_counter_iff s cpus, build_timing]
  · intro h order r hp hr r' hreached
    have htimed : r'.TimedBy tracer.clock := (timedBy_of_resolve hp h hr).reached hreached
    exact ⟨htimed, fun site values hv => htimed.sample_begins hv⟩

theorem default_names_in_any_order :
    ∃ r, resolve [.sensors, .registers, .events, .timing] {} [0] {} ({} : Settings).counterNames =
        .ok r ∧ r.TimedBy 0 := by
  have huncontested : ∀ t : Timing, ¬ Contested {} t.name := by
    intro t
    rw [contested_iff]
    simp
  have horder : [Provider.sensors, .registers, .events, .timing].Perm all := by decide
  obtain ⟨r, hr⟩ : ∃ r, resolve [.sensors, .registers, .events, .timing] {} [0] {}
      ({} : Settings).counterNames = .ok r := ⟨_, rfl⟩
  obtain ⟨-, -, htimed⟩ := resolve_in_any_order {} [0] {}
  exact ⟨r, hr, (htimed huncontested _ r horder hr r .refl).1⟩

/-- An event that the settings name like the timestamp is accepted, and which of the two stands in
the first slot depends on the order of the providers. -/
theorem named_like_timestamp :
    ∃ s r r', Settings.parse "[[perf.raw]]\nname = 'ts'\nconfig = 1\n[counters]\nenabled = []" =
        .ok s ∧
      resolve all s [0] {} s.counterNames = .ok r ∧
      [Provider.events, .timing, .registers, .sensors].Perm all ∧
      resolve [.events, .timing, .registers, .sensors] s [0] {} s.counterNames = .ok r' ∧
      r.slots.head?.map Slot.counter = some (.timing .timestamp) ∧
      r'.slots.head?.map Slot.counter = some (.event { name := "ts", config := 1, cpus := [0] }) := by
  have hs := Settings.ok_of_toOption
    (a := { rawEvents := [⟨"ts", 1⟩], enabled := [] })
    (x := Settings.parse "[[perf.raw]]\nname = 'ts'\nconfig = 1\n[counters]\nenabled = []")
    (by decide +kernel)
  exact ⟨_, _, _, hs, rfl, by decide, rfl, rfl, rfl⟩

end Registry

end NodeTelemetry
