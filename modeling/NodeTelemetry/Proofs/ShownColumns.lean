import Mathlib
import NodeTelemetry.Proofs.CounterNames

namespace NodeTelemetry

def Field.Decimal (f : Field) : Prop := ∃ v : UInt64, f = .number f.name v

namespace Format

def names : Format → List String
  | .temperature detail => (if detail then ["tjmax", "tmax"] else []) ++ ["tpkg"]
  | .sensors group => group.map Sensor.name
  | .bits parts => parts.map BitField.name

theorem names_fields (f : Format) (value : UInt64) : (f.fields value).map Field.name = f.names := by
  cases f with
  | temperature detail => cases detail <;> rfl
  | sensors group =>
    change ((group.zipIdx.map fun p => Field.number p.1.name _).map Field.name) = _
    rw [List.map_map]
    change (group.zipIdx.map (Sensor.name ∘ Prod.fst)) = _
    rw [← List.map_map, List.zipIdx_map_fst]
    rfl
  | bits parts =>
    change ((parts.map fun p => Field.number p.name _).map Field.name) = _
    rw [List.map_map]
    rfl

theorem decimal_fields (f : Format) (value : UInt64) : ∀ g ∈ f.fields value, g.Decimal := by
  have numbers {α : Type} (xs : List α) (name : α → String) (v : α → UInt64) :
      ∀ g ∈ xs.map fun x => Field.number (name x) (v x), g.Decimal := by
    intro g hg
    obtain ⟨x, -, rfl⟩ := List.mem_map.mp hg
    exact ⟨v x, rfl⟩
  cases f with
  | temperature detail =>
    intro g hg
    cases detail
    · exact numbers [("tpkg", value &&& 0xff)] Prod.fst Prod.snd g hg
    · exact numbers [("tjmax", (value >>> 24) &&& 0xff), ("tmax", (value >>> 16) &&& 0xff),
        ("tpkg", value &&& 0xff)] Prod.fst Prod.snd g hg
  | sensors group => exact numbers group.zipIdx _ _
  | bits parts => exact numbers parts _ _

end Format

namespace Column

def names (c : Column) : List String :=
  match c.format with
  | some f => f.names
  | none => [c.name]

theorem names_fields (c : Column) (value : UInt64) : (c.fields value).map Field.name = c.names := by
  unfold fields names
  cases c.format with
  | none => rfl
  | some f => exact f.names_fields value

theorem decimal_fields (c : Column) (value : UInt64) : ∀ f ∈ c.fields value, f.Decimal := by
  unfold fields
  cases c.format with
  | none =>
    intro f hf
    rw [List.mem_singleton.mp hf]
    exact ⟨value, rfl⟩
  | some format => exact format.decimal_fields value

end Column

namespace Schema

def names (s : Schema) : List String := s.flatMap Column.names

theorem fields_cons (c : Column) (s : Schema) (v : UInt64) (sample : List UInt64) :
    Schema.fields (c :: s) (v :: sample) = c.fields v ++ s.fields sample := rfl

theorem names_fields (s : Schema) (sample : List UInt64) :
    (s.fields sample).map Field.name = Schema.names (s.take sample.length) := by
  induction s generalizing sample with
  | nil =>
    rw [List.take_nil]
    rfl
  | cons c s ih =>
    cases sample with
    | nil => rfl
    | cons v sample =>
      rw [fields_cons, List.map_append, c.names_fields, ih]
      rfl

theorem decimal_fields (s : Schema) (sample : List UInt64) : ∀ f ∈ s.fields sample, f.Decimal := by
  intro f hf
  obtain ⟨⟨c, v⟩, -, hf⟩ := List.mem_flatMap.mp hf
  exact c.decimal_fields v f hf

end Schema

namespace Settings

structure IsName (name : String) : Prop where
  nonempty : name.isEmpty = false
  short : name.utf8ByteSize ≤ maxNameLength
  plain : ∀ c ∈ name.toList, inName c = true

inductive Shows (s : Settings) : Column → Prop
  | plain {name : String} (hn : name ∈ s.counterNames) : Shows s ⟨name, none⟩
  | temperature (hn : "temp" ∈ s.counterNames) :
      Shows s ⟨"temp", some (.temperature s.temperatureDetail)⟩
  | sensors {g : SensorGroup} (hg : g ∈ s.sensorGroups) (hn : g.name ∈ s.counterNames) :
      Shows s ⟨g.name, some (.sensors g.sensors)⟩

variable {s : Settings} {kind : NameKind} {name : String} {g : SensorGroup} {c : Column}

theorem isName_of_check (h : checkName kind name = .ok ()) : IsName name := by
  obtain ⟨hempty, hshort⟩ := checkName_eq_ok h
  refine ⟨hempty, hshort, ?_⟩
  unfold checkName at h
  split_ifs at h with hlength hplain
  simpa using hplain

theorem check_of_mem_group (h : checkGroup g = .ok ()) :
    g.sensors ≠ [] ∧ ∀ sensor ∈ g.sensors, IsName sensor.name := by
  unfold checkGroup at h
  split_ifs at h with hcount
  · obtain ⟨u, hu, -⟩ := bind_eq_ok.mp h
    cases hu
  · refine ⟨?_, fun sensor hs => isName_of_check (forM_eq_ok.mp h sensor hs)⟩
    intro hnil
    simp [hnil] at hcount

theorem isName_of_counterNames (h : s.check = .ok ()) (hn : name ∈ s.counterNames) :
    IsName name := by
  simp only [counterNames, List.cons_append, List.nil_append, List.mem_cons, List.mem_append,
    List.not_mem_nil, or_false] at hn
  have builtin {word : String} (hw : checkName .counter word = .ok ()) : IsName word :=
    isName_of_check hw
  rcases hn with rfl | rfl | hn | rfl
  · exact builtin (by decide +kernel)
  · exact builtin (by decide +kernel)
  · exact isName_of_check ((check_eq_ok h).1 name (List.mem_append_right _ hn))
  · exact builtin (by decide +kernel)

theorem Shows.isName (h : s.check = .ok ()) (hc : s.Shows c) : ∀ n ∈ c.names, IsName n := by
  cases hc with
  | plain hn =>
    intro n hmem
    rw [List.mem_singleton.mp hmem]
    exact isName_of_counterNames h hn
  | temperature hn =>
    have hall : ∀ n ∈ ["tjmax", "tmax", "tpkg"], checkName .counter n = .ok () := by decide +kernel
    intro n hmem
    refine isName_of_check (hall n ?_)
    cases hd : s.temperatureDetail <;> simp_all [Column.names, Format.names]
  | sensors hg hn =>
    intro n hmem
    obtain ⟨sensor, hs, rfl⟩ := List.mem_map.mp hmem
    exact (check_of_mem_group ((check_eq_ok h).2 _ hg)).2 sensor hs

end Settings

namespace Registry

open Provider Settings

variable {providers : List Provider} {s : Settings} {cpus : List Nat} {tracer : Tracer}
  {names : List String} {r : Registry}

theorem supplied_of_counters {cs : List Counter} (h : counters providers s cpus names = .ok cs) :
    Supplied providers s cpus names cs := by
  induction names generalizing cs with
  | nil =>
    cases h
    exact .nil
  | cons name names ih =>
    rw [counters, List.mapM_cons] at h
    obtain ⟨c, hc, h⟩ := bind_eq_ok.mp h
    obtain ⟨cs, hcs, h⟩ := bind_eq_ok.mp h
    cases h
    refine .cons ?_ (ih hcs)
    cases hb : build providers s cpus name with
    | none =>
      rw [hb] at hc
      cases hc
    | some c' =>
      rw [hb] at hc
      cases hc
      rfl

theorem schema_of_new {cs : List Counter} (h : Registry.new tracer cs = .ok r) :
    r.schema = cs.map Column.ofCounter := by
  unfold Registry.new at h
  split at h
  · cases h
  · cases h
    rfl

theorem schema_of_resolve (h : resolve providers s cpus tracer names = .ok r) :
    ∃ cs, Supplied providers s cpus names cs ∧ r.schema = cs.map Column.ofCounter := by
  obtain ⟨cs, hcs, hnew⟩ := bind_eq_ok.mp h
  exact ⟨cs, supplied_of_counters hcs, schema_of_new hnew⟩

theorem columns_of_resolve (h : resolve providers s cpus tracer names = .ok r) :
    r.schema.map Column.name = names := by
  obtain ⟨cs, hcs, hschema⟩ := schema_of_resolve h
  rw [hschema, List.map_map]
  exact hcs.names_eq

theorem shows_of_build {name : String} {c : Counter} (hs : s.check = .ok ())
    (hn : name ∈ s.counterNames) (hc : build providers s cpus name = some c) :
    s.Shows (Column.ofCounter c) := by
  obtain ⟨p, -, hp⟩ := List.exists_of_findSome?_eq_some hc
  cases p with
  | timing =>
    obtain ⟨t, ht, rfl⟩ := Option.map_eq_some_iff.mp hp
    obtain rfl := Timing.ofName?_eq_some_iff.mp ht
    exact .plain hn
  | events =>
    obtain ⟨config, -, rfl⟩ := Option.map_eq_some_iff.mp hp
    exact .plain hn
  | registers =>
    obtain ⟨register, hr, rfl⟩ := Option.map_eq_some_iff.mp hp
    obtain rfl := Register.ofName?_eq_some_iff.mp hr
    cases register with
    | temperature => exact .temperature hn
    | energy => exact .plain hn
    | energyUnit => exact .plain hn
  | sensors =>
    obtain ⟨g, hg, rfl⟩ := Option.map_eq_some_iff.mp hp
    obtain rfl : g.name = name := by simpa using List.find?_some hg
    have hmem : g ∈ s.sensorGroups := List.mem_of_find?_eq_some hg
    -- A counter takes eight sensors at most, and no more can be in a group that has been checked.
    have htake : (SensorCounter.new g.name s.sensorDevice g.sensors).sensors = g.sensors :=
      List.take_of_length_le (checkGroup_eq_ok ((check_eq_ok hs).2 g hmem))
    rw [show Column.ofCounter (.sensors (.new g.name s.sensorDevice g.sensors)) =
      ⟨g.name, some (.sensors (SensorCounter.new g.name s.sensorDevice g.sensors).sensors)⟩ from rfl,
      htake]
    exact .sensors hmem hn

theorem Supplied.mem {cs : List Counter} (h : Supplied providers s cpus names cs) {c : Counter}
    (hc : c ∈ cs) : ∃ name ∈ names, build providers s cpus name = some c := by
  induction h with
  | nil => cases hc
  | @cons name _ _ _ hbuild _ ih =>
    rcases List.mem_cons.mp hc with rfl | hc
    · exact ⟨name, List.mem_cons_self, hbuild⟩
    · obtain ⟨name', hmem, hbuild'⟩ := ih hc
      exact ⟨name', List.mem_cons_of_mem _ hmem, hbuild'⟩

theorem shows_of_resolve (hs : s.check = .ok ())
    (h : resolve providers s cpus tracer s.counterNames = .ok r) : ∀ c ∈ r.schema, s.Shows c := by
  obtain ⟨cs, hcs, hschema⟩ := schema_of_resolve h
  intro c hc
  rw [hschema] at hc
  obtain ⟨counter, hmem, rfl⟩ := List.mem_map.mp hc
  obtain ⟨name, hn, hbuild⟩ := hcs.mem hmem
  exact shows_of_build hs hn hbuild

theorem isName_of_resolve (hs : s.check = .ok ())
    (h : resolve providers s cpus tracer s.counterNames = .ok r) :
    ∀ n ∈ r.schema.names, IsName n := by
  intro n hn
  obtain ⟨c, hc, hn⟩ := List.mem_flatMap.mp hn
  exact (shows_of_resolve hs h c hc).isName hs n hn

end Registry

end NodeTelemetry
