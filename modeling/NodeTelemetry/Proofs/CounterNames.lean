import Mathlib
import NodeTelemetry.Provider
import NodeTelemetry.Settings.Reader

namespace NodeTelemetry

namespace Settings

section

variable {α β ε : Type} {x : Except ε α} {f : α → Except ε β} {b : β}

theorem bind_eq_ok : (x >>= f) = .ok b ↔ ∃ a, x = .ok a ∧ f a = .ok b := by
  cases x <;> simp [bind, Except.bind]

theorem forM_eq_ok {check : α → Except ε Unit} {xs : List α} :
    xs.forM check = .ok () ↔ ∀ x ∈ xs, check x = .ok () := by
  induction xs with
  | nil => simp [pure, Except.pure]
  | cons x xs ih =>
    rw [List.forM_eq_forM] at ih ⊢
    rw [List.forM_cons, bind_eq_ok, List.forall_mem_cons, ih]
    exact ⟨fun ⟨_, hx, hxs⟩ => ⟨hx, hxs⟩, fun ⟨hx, hxs⟩ => ⟨(), hx, hxs⟩⟩

theorem ok_of_toOption {a : α} (h : x.toOption = some a) : x = .ok a := by
  cases x with
  | error e => cases h
  | ok b => exact congrArg Except.ok (Option.some.inj h)

end

variable {s : Settings} {text : String} {kind : NameKind} {name : String} {g : SensorGroup}

theorem check_of_parse (h : parse text = .ok s) : s.check = .ok () := by
  unfold parse at h
  split at h
  · cases h
  · obtain ⟨u, hu, hs⟩ := bind_eq_ok.mp h
    cases hs
    exact hu

theorem check_eq_ok (h : s.check = .ok ()) :
    (∀ name ∈ s.namedCounters, checkName .counter name = .ok ()) ∧
      ∀ g ∈ s.sensorGroups, checkGroup g = .ok () := by
  unfold check at h
  by_cases hcapacity : s.capacity = 0
  · rw [if_pos hcapacity] at h
    cases h
  by_cases hperiod : periodInRange s.period = true
  · rw [if_neg hcapacity, hperiod] at h
    obtain ⟨u, hu, hgroups⟩ := bind_eq_ok.mp h
    exact ⟨forM_eq_ok.mp hu, forM_eq_ok.mp hgroups⟩
  · rw [if_neg hcapacity, Bool.not_eq_true _ |>.mp hperiod] at h
    cases h

theorem checkName_eq_ok (h : checkName kind name = .ok ()) :
    name.isEmpty = false ∧ name.utf8ByteSize ≤ maxNameLength := by
  unfold checkName at h
  split_ifs at h with hlength
  simpa using hlength

theorem checkGroup_eq_ok (h : checkGroup g = .ok ()) : g.sensors.length ≤ maxSensors := by
  unfold checkGroup at h
  split_ifs at h with hcount
  · obtain ⟨u, hu, -⟩ := bind_eq_ok.mp h
    cases hu
  · simp only [Bool.or_eq_true, decide_eq_true_eq, not_or, not_lt] at hcount
    exact hcount.2

theorem length_of_mem_counterNames (h : s.check = .ok ()) (hn : name ∈ s.counterNames) :
    name.isEmpty = false ∧ name.utf8ByteSize ≤ maxNameLength := by
  simp only [counterNames, List.cons_append, List.nil_append, List.mem_cons, List.mem_append,
    List.not_mem_nil, or_false] at hn
  rcases hn with rfl | rfl | hn | rfl
  · decide +kernel
  · decide +kernel
  · refine checkName_eq_ok ((check_eq_ok h).1 name ?_)
    exact List.mem_append_right _ hn
  · decide +kernel

end Settings

namespace Provider

def Knows (s : Settings) (name : String) : Provider → Prop
  | .timing => name ∈ ["ts", "intv", "oh"]
  | .events =>
    name ∈ s.rawEvents.map RawEvent.name ∨
      name ∈ ["cyc", "inst", "llcref", "llcmiss", "br", "brmiss", "l2lin"]
  | .registers => name ∈ ["temp", "energy", "eunit"]
  | .sensors => name ∈ s.sensorGroups.map SensorGroup.name

variable {p : Provider} {providers : List Provider} {s : Settings} {name : String}

instance (s : Settings) (name : String) (p : Provider) : Decidable (p.Knows s name) := by
  cases p <;> unfold Knows <;> infer_instance

theorem isSome_find?_iff {α : Type} {xs : List α} {key : α → String} :
    (xs.find? (key · = name)).isSome ↔ name ∈ xs.map key := by
  rw [List.find?_isSome, List.mem_map]
  simp only [decide_eq_true_eq]

theorem isSome_keyed_iff {α : Type} {m : Keyed String α} :
    (m.find? name).isSome ↔ name ∈ m.map Prod.fst := by
  induction m with
  | nil => simp [Keyed.find?]
  | cons entry m ih =>
    obtain ⟨key, value⟩ := entry
    by_cases hk : key = name
    · simp [Keyed.find?, hk]
    · simp [Keyed.find?, hk, ih, Ne.symm hk]

theorem isSome_counter?_iff (cpus : List Nat) :
    (p.counter? s cpus name).isSome ↔ p.Knows s name := by
  cases p with
  | timing =>
    rw [counter?, Option.isSome_map, Option.isSome_iff_exists]
    simp only [Timing.ofName?_eq_some_iff]
    constructor
    · rintro ⟨t, rfl⟩
      cases t <;> simp [Knows, Timing.name]
    · intro h
      simp only [Knows, List.mem_cons, List.not_mem_nil, or_false] at h
      rcases h with rfl | rfl | rfl
      · exact ⟨.timestamp, rfl⟩
      · exact ⟨.interval, rfl⟩
      · exact ⟨.overhead, rfl⟩
  | events =>
    rw [counter?, Option.isSome_map, eventCode?, Option.isSome_or, Option.isSome_map,
      Bool.or_eq_true, isSome_find?_iff, isSome_keyed_iff]
    rfl
  | registers =>
    rw [counter?, Option.isSome_map, Option.isSome_iff_exists]
    simp only [Register.ofName?_eq_some_iff]
    constructor
    · rintro ⟨r, rfl⟩
      cases r <;> simp [Knows, Register.name]
    · intro h
      simp only [Knows, List.mem_cons, List.not_mem_nil, or_false] at h
      rcases h with rfl | rfl | rfl
      · exact ⟨.temperature, rfl⟩
      · exact ⟨.energy, rfl⟩
      · exact ⟨.energyUnit, rfl⟩
  | sensors =>
    rw [counter?, Option.isSome_map]
    exact isSome_find?_iff

def Known (s : Settings) (name : String) : Prop := ∃ p : Provider, p.Knows s name

theorem mem_all (p : Provider) : p ∈ all := by cases p <;> simp [all]

theorem isSome_build_iff (cpus : List Nat) (hp : providers.Perm all) :
    (build providers s cpus name).isSome ↔ Known s name := by
  rw [build, List.findSome?_isSome_iff]
  constructor
  · rintro ⟨p, -, h⟩
    exact ⟨p, (isSome_counter?_iff cpus).mp h⟩
  · rintro ⟨p, h⟩
    exact ⟨p, hp.mem_iff.mpr (mem_all p), (isSome_counter?_iff cpus).mpr h⟩

theorem name_of_build {cpus : List Nat} {c : Counter} (h : build providers s cpus name = some c) :
    c.name = name := by
  obtain ⟨p, -, hp⟩ := List.exists_of_findSome?_eq_some h
  exact name_of_counter? hp

end Provider

namespace Registry

open Provider

variable {providers : List Provider} {s : Settings} {cpus : List Nat} {tracer : Tracer}
  {names before after seen : List String} {name : String}

def Supplied (providers : List Provider) (s : Settings) (cpus : List Nat) :
    List String → List Counter → Prop :=
  List.Forall₂ fun name c => build providers s cpus name = some c

theorem Supplied.names_eq {cs : List Counter} (h : Supplied providers s cpus names cs) :
    cs.map Counter.name = names := by
  induction h with
  | nil => rfl
  | cons hc _ ih => rw [List.map_cons, ih, name_of_build hc]

theorem counters_of_known (h : ∀ n ∈ names, (build providers s cpus n).isSome) :
    ∃ cs, Supplied providers s cpus names cs ∧ counters providers s cpus names = .ok cs := by
  induction names with
  | nil => exact ⟨[], .nil, rfl⟩
  | cons name names ih =>
    obtain ⟨hname, hnames⟩ := List.forall_mem_cons.mp h
    obtain ⟨c, hc⟩ := Option.isSome_iff_exists.mp hname
    obtain ⟨cs, hcs, hok⟩ := ih hnames
    refine ⟨c :: cs, .cons hc hcs, ?_⟩
    rw [counters] at hok ⊢
    rw [List.mapM_cons, hok, hc]
    rfl

theorem counters_of_unknown (hbefore : ∀ n ∈ before, (build providers s cpus n).isSome)
    (hname : build providers s cpus name = none) :
    counters providers s cpus (before ++ name :: after) = .error (.unknown name) := by
  obtain ⟨cs, -, hok⟩ := counters_of_known hbefore
  rw [counters] at hok ⊢
  rw [List.mapM_append, hok, List.mapM_cons, hname]
  rfl

def FirstUnknown (s : Settings) (names : List String) (name : String) : Prop :=
  ∃ before after, names = before ++ name :: after ∧ (∀ n ∈ before, Known s n) ∧ ¬ Known s name

def FirstRepeated (names : List String) (name : String) : Prop :=
  ∃ before after, names = before ++ name :: after ∧ before.Nodup ∧ name ∈ before

theorem all_known_or_firstUnknown (s : Settings) (names : List String) :
    (∀ n ∈ names, Known s n) ∨ ∃ name, FirstUnknown s names name := by
  induction names with
  | nil => exact .inl (by simp)
  | cons name names ih =>
    by_cases hname : Known s name
    · rcases ih with hall | ⟨other, before, after, rfl, hbefore, hother⟩
      · exact .inl (List.forall_mem_cons.mpr ⟨hname, hall⟩)
      · exact .inr ⟨other, name :: before, after, rfl, List.forall_mem_cons.mpr ⟨hname, hbefore⟩,
          hother⟩
    · exact .inr ⟨name, [], names, rfl, by simp, hname⟩

theorem nodup_or_firstRepeated (names : List String) :
    names.Nodup ∨ ∃ name, FirstRepeated names name := by
  induction names using List.reverseRecOn with
  | nil => exact .inl .nil
  | append_singleton names name ih =>
    rcases ih with hnodup | ⟨other, before, after, rfl, hbefore, hother⟩
    · by_cases hname : name ∈ names
      · exact .inr ⟨name, names, [], rfl, hnodup, hname⟩
      · exact .inl (List.nodup_append.mpr ⟨hnodup, List.nodup_singleton name, by grind⟩)
    · exact .inr ⟨other, before, after ++ [name], by simp, hbefore, hother⟩

theorem firstBadName?_append (after : List String) (hnames : ∀ n ∈ before, n.isEmpty = false ∧
    n.utf8ByteSize ≤ maxNameLength) (hnodup : before.Nodup) (hfresh : ∀ n ∈ before, n ∉ seen) :
    firstBadName? seen (before ++ after) = firstBadName? (before.reverse ++ seen) after := by
  induction before generalizing seen with
  | nil => rfl
  | cons name before ih =>
    obtain ⟨⟨hempty, hlong⟩, hnames⟩ := List.forall_mem_cons.mp hnames
    obtain ⟨hname, hnodup⟩ := List.nodup_cons.mp hnodup
    obtain ⟨hseen, hfresh⟩ := List.forall_mem_cons.mp hfresh
    rw [List.cons_append, firstBadName?, hempty, if_neg Bool.false_ne_true,
      if_neg (Nat.not_lt.mpr hlong), if_neg hseen, ih hnames hnodup, List.reverse_cons]
    · simp
    · intro n hn hmem
      rcases List.mem_cons.mp hmem with rfl | hmem
      · exact hname hn
      · exact hfresh n hn hmem

theorem fault?_counterNames (s : Settings) :
    fault? s.counterNames = firstBadName? [] s.counterNames := by
  simp [fault?, Settings.counterNames, layout, firstMisplaced?]

theorem fault?_of_nodup (hs : s.check = .ok ()) (hnodup : s.counterNames.Nodup) :
    fault? s.counterNames = none := by
  rw [fault?_counterNames]
  have hnone := firstBadName?_append [] (fun n hn => Settings.length_of_mem_counterNames hs hn)
    hnodup fun n _ => List.not_mem_nil
  rwa [List.append_nil] at hnone

theorem fault?_of_firstRepeated (hs : s.check = .ok ())
    (hname : FirstRepeated s.counterNames name) :
    fault? s.counterNames = some (.duplicate name) := by
  obtain ⟨before, after, hsplit, hnodup, hmem⟩ := hname
  have hlength : ∀ n ∈ before, n.isEmpty = false ∧ n.utf8ByteSize ≤ maxNameLength := by
    intro n hn
    refine Settings.length_of_mem_counterNames hs ?_
    rw [hsplit]
    exact List.mem_append_left _ hn
  obtain ⟨hempty, hlong⟩ := hlength name hmem
  rw [fault?_counterNames, hsplit, firstBadName?_append _ hlength hnodup (by simp), firstBadName?,
    hempty, if_neg Bool.false_ne_true, if_neg (Nat.not_lt.mpr hlong), if_pos (by simpa using hmem)]

theorem resolve_of_firstUnknown (hp : providers.Perm all) (hname : FirstUnknown s names name) :
    resolve providers s cpus tracer names = .error (.unknown name) := by
  obtain ⟨before, after, rfl, hbefore, hunknown⟩ := hname
  have hnone : build providers s cpus name = none := by
    rw [← Option.not_isSome_iff_eq_none, isSome_build_iff cpus hp]
    exact hunknown
  have hsome : ∀ n ∈ before, (build providers s cpus n).isSome := by
    intro n hn
    rw [isSome_build_iff cpus hp]
    exact hbefore n hn
  rw [resolve, counters_of_unknown hsome hnone]
  rfl

theorem resolve_of_known (cpus : List Nat) (tracer : Tracer) (hp : providers.Perm all)
    (hknown : ∀ n ∈ names, Known s n) :
    ∃ cs, Supplied providers s cpus names cs ∧
      resolve providers s cpus tracer names = Registry.new tracer cs := by
  have hsome : ∀ n ∈ names, (build providers s cpus n).isSome := by
    intro n hn
    rw [isSome_build_iff cpus hp]
    exact hknown n hn
  obtain ⟨cs, hcs, hok⟩ := counters_of_known hsome
  refine ⟨cs, hcs, ?_⟩
  rw [resolve, hok]
  rfl

theorem resolve_of_firstRepeated (hs : s.check = .ok ()) (hp : providers.Perm all)
    (hknown : ∀ n ∈ s.counterNames, Known s n) (hname : FirstRepeated s.counterNames name) :
    resolve providers s cpus tracer s.counterNames = .error (.duplicate name) := by
  obtain ⟨cs, hcs, hr⟩ := resolve_of_known cpus tracer hp hknown
  rw [hr, Registry.new, hcs.names_eq, fault?_of_firstRepeated hs hname]

def HasColumns (names : List String) (r : Registry) : Prop :=
  r.schema.map Column.name = names ∧ (r.slots.map fun slot => slot.counter.name) = names

theorem resolve_of_nodup (cpus : List Nat) (tracer : Tracer) (hs : s.check = .ok ())
    (hp : providers.Perm all)
    (hknown : ∀ n ∈ s.counterNames, Known s n) (hnodup : s.counterNames.Nodup) :
    ∃ r, resolve providers s cpus tracer s.counterNames = .ok r ∧ r.HasColumns s.counterNames := by
  obtain ⟨cs, hcs, hr⟩ := resolve_of_known cpus tracer hp hknown
  rw [Registry.new, hcs.names_eq, fault?_of_nodup hs hnodup] at hr
  refine ⟨_, hr, ?_, ?_⟩
  · rw [List.map_map]
    exact hcs.names_eq
  · rw [List.map_map]
    exact hcs.names_eq

theorem resolve_cases (hs : s.check = .ok ()) (hp : providers.Perm all) (cpus : List Nat)
    (tracer : Tracer) :
    (∃ name, FirstUnknown s s.counterNames name ∧
      resolve providers s cpus tracer s.counterNames = .error (.unknown name)) ∨
    (∀ n ∈ s.counterNames, Known s n) ∧
      ((∃ name, FirstRepeated s.counterNames name ∧
        resolve providers s cpus tracer s.counterNames = .error (.duplicate name)) ∨
      s.counterNames.Nodup ∧ ∃ r, resolve providers s cpus tracer s.counterNames = .ok r ∧
        r.HasColumns s.counterNames) := by
  rcases all_known_or_firstUnknown s s.counterNames with hknown | ⟨name, hname⟩
  · refine .inr ⟨hknown, ?_⟩
    rcases nodup_or_firstRepeated s.counterNames with hnodup | ⟨name, hname⟩
    · exact .inr ⟨hnodup, resolve_of_nodup cpus tracer hs hp hknown hnodup⟩
    · exact .inl ⟨name, hname, resolve_of_firstRepeated hs hp hknown hname⟩
  · exact .inl ⟨name, hname, resolve_of_firstUnknown hp hname⟩

/-- The check of the settings and the check of the registry agree: what the first lets through, the
second refuses for an unknown name or for a repeated one only. -/
theorem resolve_counterNames {text : String} (hs : Settings.parse text = .ok s)
    (hp : providers.Perm all) (cpus : List Nat) (tracer : Tracer) :
    (∀ name, resolve providers s cpus tracer s.counterNames = .error (.unknown name) ↔
      FirstUnknown s s.counterNames name) ∧
    (∀ name, resolve providers s cpus tracer s.counterNames = .error (.duplicate name) ↔
      (∀ n ∈ s.counterNames, Known s n) ∧ FirstRepeated s.counterNames name) ∧
    ((∃ r, resolve providers s cpus tracer s.counterNames = .ok r) ↔
      (∀ n ∈ s.counterNames, Known s n) ∧ s.counterNames.Nodup) ∧
    (∀ e, resolve providers s cpus tracer s.counterNames = .error e →
      (∃ name, e = .unknown name) ∨ ∃ name, e = .duplicate name) ∧
    (∀ r, resolve providers s cpus tracer s.counterNames = .ok r → r.HasColumns s.counterNames) ∧
    (∀ (p : Provider) name c, p.counter? s cpus name = some c → c.name = name) ∧
    (∀ g ∈ s.sensorGroups, (SensorCounter.new g.name s.sensorDevice g.sensors).sensors =
      g.sensors) := by
  have hcheck := Settings.check_of_parse hs
  have hcases := resolve_cases hcheck hp cpus tracer
  -- An answer fits one of the three outcomes only, and that one says what has to be shown.
  refine ⟨?_, ?_, ?_, ?_, ?_, ?_, ?_⟩
  · intro name
    constructor
    · intro h
      rw [h] at hcases
      rcases hcases with ⟨other, hother, he⟩ | ⟨-, ⟨other, -, he⟩ | ⟨-, r, he, -⟩⟩ <;> cases he
      exact hother
    · exact resolve_of_firstUnknown hp
  · intro name
    constructor
    · intro h
      rw [h] at hcases
      rcases hcases with ⟨other, -, he⟩ | ⟨hknown, ⟨other, hother, he⟩ | ⟨-, r, he, -⟩⟩ <;> cases he
      exact ⟨hknown, hother⟩
    · rintro ⟨hknown, hname⟩
      exact resolve_of_firstRepeated hcheck hp hknown hname
  · constructor
    · rintro ⟨r, h⟩
      rw [h] at hcases
      rcases hcases with ⟨other, -, he⟩ | ⟨hknown, ⟨other, -, he⟩ | ⟨hnodup, -⟩⟩
      · cases he
      · cases he
      · exact ⟨hknown, hnodup⟩
    · rintro ⟨hknown, hnodup⟩
      obtain ⟨r, hr, -⟩ := resolve_of_nodup cpus tracer hcheck hp hknown hnodup
      exact ⟨r, hr⟩
  · intro e h
    rw [h] at hcases
    rcases hcases with ⟨other, -, he⟩ | ⟨-, ⟨other, -, he⟩ | ⟨-, r, he, -⟩⟩ <;> cases he
    · exact .inl ⟨other, rfl⟩
    · exact .inr ⟨other, rfl⟩
  · intro r h
    rw [h] at hcases
    rcases hcases with ⟨other, -, he⟩ | ⟨-, ⟨other, -, he⟩ | ⟨-, r', he, hr⟩⟩ <;> cases he
    exact hr
  · intro p name c h
    exact name_of_counter? h
  · intro g hg
    have hlength := Settings.checkGroup_eq_ok ((Settings.check_eq_ok hcheck).2 g hg)
    exact List.take_of_length_le hlength

theorem repeated_name_is_reported :
    let text := "[[perf.raw]]\nname = 'io'\nconfig = 1\n[counters]\nenabled = ['io', 'temp', 'io']"
    let s : Settings := { rawEvents := [⟨"io", 1⟩], enabled := ["io", "temp", "io"] }
    Settings.parse text = .ok s ∧ all.Perm all ∧
      resolve all s [0] {} s.counterNames = .error (.duplicate "io") := by
  intro text s
  have hs : Settings.parse text = .ok s := Settings.ok_of_toOption (by decide +kernel)
  refine ⟨hs, .refl all, ((resolve_counterNames hs (.refl all) [0] {}).2.1 "io").mpr ⟨?_, ?_⟩⟩
  · have hknown : ∀ n ∈ s.counterNames, ∃ p ∈ all, p.Knows s n := by decide
    intro n hn
    obtain ⟨p, -, h⟩ := hknown n hn
    exact ⟨p, h⟩
  · exact ⟨["ts", "intv", "io", "temp"], ["oh"], rfl, by decide, by decide⟩

end Registry

end NodeTelemetry
