import Mathlib
import NodeTelemetry.Proofs.RecordText

namespace NodeTelemetry

namespace Keyed

variable {β : Type} {m : Keyed String β} {k : String}

theorem keys_put (m : Keyed String β) (k : String) (v : β) :
    (m.put k v).map Prod.fst =
      if k ∈ m.map Prod.fst then m.map Prod.fst else m.map Prod.fst ++ [k] := by
  induction m with
  | nil => rfl
  | cons entry m ih =>
    obtain ⟨key, value⟩ := entry
    by_cases hk : key = k
    · simp [put, hk]
    · by_cases hmem : k ∈ m.map Prod.fst
      · simp [put, hk, ih, hmem]
      · simp [put, hk, ih, hmem, Ne.symm hk]

theorem nodup_put (h : (m.map Prod.fst).Nodup) (k : String) (v : β) :
    ((m.put k v).map Prod.fst).Nodup := by
  rw [keys_put]
  split_ifs with hmem
  · exact h
  · exact List.nodup_append.mpr ⟨h, List.nodup_singleton k, by grind⟩

theorem put_of_not_mem (h : k ∉ m.map Prod.fst) (v : β) : m.put k v = m ++ [(k, v)] := by
  induction m with
  | nil => rfl
  | cons entry m ih =>
    obtain ⟨hk, hmem⟩ := List.ne_and_not_mem_of_not_mem_cons h
    rw [put, if_neg (Ne.symm hk), ih hmem, List.cons_append]

end Keyed

namespace Record

def object (fields : List Field) : Keyed String String :=
  fields.foldl (fun m f => m.put f.name f.value) []

def readObject? (text : String) : Option (Keyed String String) :=
  match decode? text with
  | some [fields] => some (object fields)
  | _ => none

theorem keys_object_nodup (fields : List Field) : ((object fields).map Prod.fst).Nodup := by
  have h (m : Keyed String String) (hm : (m.map Prod.fst).Nodup) :
      ((fields.foldl (fun m f => m.put f.name f.value) m).map Prod.fst).Nodup := by
    induction fields generalizing m with
    | nil => exact hm
    | cons f fields ih => exact ih _ (Keyed.nodup_put hm f.name f.value)
  exact h [] List.nodup_nil

theorem object_of_nodup {fields : List Field} (h : (fields.map Field.name).Nodup) :
    object fields = fields.map fun f => (f.name, f.value) := by
  have hfold (m : Keyed String String) (hm : (m.map Prod.fst ++ fields.map Field.name).Nodup) :
      fields.foldl (fun m f => m.put f.name f.value) m =
        m ++ fields.map fun f => (f.name, f.value) := by
    induction fields generalizing m with
    | nil => simp
    | cons f fields ih =>
      have hf : f.name ∉ m.map Prod.fst := by
        intro hmem
        exact List.disjoint_of_nodup_append hm hmem List.mem_cons_self
      have hnext : ((m ++ [(f.name, f.value)]).map Prod.fst ++ fields.map Field.name).Nodup := by
        simpa using hm
      rw [List.foldl_cons, Keyed.put_of_not_mem hf, ih (List.nodup_cons.mp h).2 _ hnext,
        List.map_cons, List.append_assoc, List.singleton_append]
  exact hfold [] h

theorem object_eq_iff (fields : List Field) :
    object fields = fields.map (fun f => (f.name, f.value)) ↔ (fields.map Field.name).Nodup := by
  constructor
  · intro h
    have hkeys := keys_object_nodup fields
    rw [h, List.map_map] at hkeys
    exact hkeys
  · exact object_of_nodup

end Record

namespace Schema

def ownNames (s : Schema) : List String := (s.filter fun c => c.format.isNone).map Column.name

def partNames (s : Schema) : List String := (s.filterMap Column.format).flatMap Format.names

theorem names_perm (s : Schema) : s.names.Perm (s.ownNames ++ s.partNames) := by
  induction s with
  | nil => exact .nil
  | cons c s ih =>
    obtain ⟨name, format⟩ := c
    cases format with
    | none => exact ih.cons name
    | some f =>
      have hswap : (f.names ++ (ownNames s ++ partNames s)).Perm
          (ownNames s ++ (f.names ++ partNames s)) := by
        rw [← List.append_assoc, ← List.append_assoc]
        exact List.perm_append_comm.append_right _
      exact (ih.append_left f.names).trans hswap

theorem names_nodup_iff {s : Schema} (h : (s.map Column.name).Nodup) :
    s.names.Nodup ↔ s.partNames.Nodup ∧ s.ownNames.Disjoint s.partNames := by
  have hown : s.ownNames.Nodup := h.sublist (List.filter_sublist.map Column.name)
  rw [s.names_perm.nodup_iff, List.nodup_append']
  exact ⟨fun hall => hall.2, fun hall => ⟨hown, hall⟩⟩

end Schema

namespace Settings

def sensorNames (s : Settings) : List String :=
  s.sensorGroups.flatMap fun g => g.sensors.map Sensor.name

def NamesApart (s : Settings) : Prop :=
  (s.counterNames ++ (["tjmax", "tmax", "tpkg"] ++ s.sensorNames)).Nodup

variable {s : Settings} {c d : Column}

theorem Shows.mem_counterNames (h : s.Shows c) : c.name ∈ s.counterNames := by
  cases h <;> assumption

theorem Shows.names_of_format (h : s.Shows c) {f : Format} (hf : c.format = some f) :
    (c.name = "temp" ∧ f.names.Sublist ["tjmax", "tmax", "tpkg"]) ∨
      ∃ g ∈ s.sensorGroups, g.name = c.name ∧ f.names = g.sensors.map Sensor.name := by
  cases h with
  | plain hn => cases hf
  | temperature hn =>
    cases hf
    refine .inl ⟨rfl, ?_⟩
    cases s.temperatureDetail <;> decide
  | sensors hg hn =>
    cases hf
    exact .inr ⟨_, hg, rfl, rfl⟩

theorem NamesApart.disjoint (h : s.NamesApart) :
    s.counterNames.Disjoint (["tjmax", "tmax", "tpkg"] ++ s.sensorNames) :=
  List.disjoint_of_nodup_append h

theorem NamesApart.names_nodup (h : s.NamesApart) (hc : s.Shows c) {f : Format}
    (hf : c.format = some f) : f.names.Nodup := by
  obtain ⟨-, htail, -⟩ := List.nodup_append'.mp h
  obtain ⟨htemperature, hsensors, -⟩ := List.nodup_append'.mp htail
  rcases hc.names_of_format hf with ⟨-, hsub⟩ | ⟨g, hg, -, hnames⟩
  · exact htemperature.sublist hsub
  · rw [hnames]
    exact (List.nodup_flatMap.mp hsensors).1 g hg

theorem NamesApart.names_disjoint (h : s.NamesApart) (hc : s.Shows c) (hd : s.Shows d)
    (hne : c.name ≠ d.name) {f g : Format} (hf : c.format = some f) (hg : d.format = some g) :
    f.names.Disjoint g.names := by
  obtain ⟨-, htail, -⟩ := List.nodup_append'.mp h
  obtain ⟨-, hsensors, hapart⟩ := List.nodup_append'.mp htail
  have hmem {group : SensorGroup} (hgroup : group ∈ s.sensorGroups) {name : String}
      (hname : name ∈ group.sensors.map Sensor.name) : name ∈ s.sensorNames :=
    List.mem_flatMap.mpr ⟨group, hgroup, hname⟩
  rcases hc.names_of_format hf with ⟨hctemp, hcsub⟩ | ⟨G, hG, hGname, hGnames⟩ <;>
    rcases hd.names_of_format hg with ⟨hdtemp, hdsub⟩ | ⟨H, hH, hHname, hHnames⟩
  · exact absurd (hctemp.trans hdtemp.symm) hne
  · intro name hname hname'
    rw [hHnames] at hname'
    exact hapart (hcsub.subset hname) (hmem hH hname')
  · intro name hname hname'
    rw [hGnames] at hname
    exact hapart (hdsub.subset hname') (hmem hG hname)
  -- Two groups are one if they name one column, and sensors of different groups are apart.
  · have hGH : G ≠ H := by
      rintro rfl
      exact hne (hGname.symm.trans hHname)
    have hsymm : Std.Symm (Function.onFun List.Disjoint
        fun g : SensorGroup => g.sensors.map Sensor.name) := ⟨fun _ _ hdisjoint => hdisjoint.symm⟩
    rw [hGnames, hHnames]
    exact (List.nodup_flatMap.mp hsensors).2.forall hG hH hGH

end Settings

namespace Registry

open Settings

variable {providers : List Provider} {s : Settings} {cpus : List Nat} {tracer : Tracer}
  {r : Registry}

theorem nodup_of_resolve (hs : s.check = .ok ())
    (h : resolve providers s cpus tracer s.counterNames = .ok r) : s.counterNames.Nodup := by
  rcases nodup_or_firstRepeated s.counterNames with hnodup | ⟨name, hname⟩
  · exact hnodup
  · obtain ⟨cs, hcs, hnew⟩ := bind_eq_ok.mp h
    have hfault := fault?_of_firstRepeated hs hname
    rw [Registry.new, (supplied_of_counters hcs).names_eq, hfault] at hnew
    cases hnew

theorem names_nodup_of_apart (hs : s.check = .ok ())
    (h : resolve providers s cpus tracer s.counterNames = .ok r) (hapart : s.NamesApart) :
    r.schema.names.Nodup := by
  have hshows := shows_of_resolve hs h
  have hcolumns : (r.schema.map Column.name).Nodup := by
    rw [columns_of_resolve h]
    exact nodup_of_resolve hs h
  refine (Schema.names_nodup_iff hcolumns).mpr ⟨List.nodup_flatMap.mpr ⟨?_, ?_⟩, ?_⟩
  · intro f hf
    obtain ⟨c, hc, hformat⟩ := List.mem_filterMap.mp hf
    exact hapart.names_nodup (hshows c hc) hformat
  · rw [List.pairwise_filterMap]
    refine (List.pairwise_map.mp hcolumns).imp_of_mem ?_
    intro c d hc hd hne f hf g hg
    exact hapart.names_disjoint (hshows c hc) (hshows d hd) hne hf hg
  -- A column that is shown as it is has a name of its own, which no part of a format may have.
  · intro name hown hpart
    obtain ⟨c, hc, rfl⟩ := List.mem_map.mp hown
    obtain ⟨f, hf, hname⟩ := List.mem_flatMap.mp hpart
    obtain ⟨d, hd, hformat⟩ := List.mem_filterMap.mp hf
    refine hapart.disjoint (hshows c (List.mem_of_mem_filter hc)).mem_counterNames ?_
    rcases (hshows d hd).names_of_format hformat with ⟨-, hsub⟩ | ⟨g, hg, -, hnames⟩
    · exact List.mem_append_left _ (hsub.subset hname)
    · rw [hnames] at hname
      exact List.mem_append_right _ (List.mem_flatMap.mpr ⟨g, hg, hname⟩)

/-- Columns that are shown as they are have different names. The names that formats show are not
compared with them or with each other: a record has each of its names once exactly if these are apart
as well, and then a reader who takes it for an object sees every value. -/
theorem record_names_nodup_iff {text : String} (hs : Settings.parse text = .ok s)
    (h : resolve providers s cpus tracer s.counterNames = .ok r) :
    r.schema.ownNames.Nodup ∧ (s.NamesApart → r.schema.names.Nodup) ∧
      ∀ sample, sample.length = r.schema.width →
        (r.schema.fields sample).map Field.name = r.schema.names ∧
        (r.schema.names.Nodup ↔
          r.schema.partNames.Nodup ∧ r.schema.ownNames.Disjoint r.schema.partNames) ∧
        ∃ seen, Record.readObject? (r.schema.render sample) = some seen ∧
          (seen = (r.schema.fields sample).map (fun f => (f.name, f.value)) ↔
            r.schema.names.Nodup) := by
  have hcheck := check_of_parse hs
  have hcolumns : (r.schema.map Column.name).Nodup := by
    rw [columns_of_resolve h]
    exact nodup_of_resolve hcheck h
  refine ⟨?_, names_nodup_of_apart hcheck h, ?_⟩
  · exact hcolumns.sublist (List.filter_sublist.map Column.name)
  · intro sample hwidth
    have hnames : (r.schema.fields sample).map Field.name = r.schema.names := by
      rw [Schema.names_fields, hwidth]
      exact congrArg Schema.names (List.take_length)
    have hdecode : Record.decode? (r.schema.render sample) = some [r.schema.fields sample] := by
      have hlegible : ∀ fs ∈ [r.schema.fields sample], ∀ f ∈ fs, f.Legible := by
        simpa using Record.legible_of_isName (isName_of_resolve hcheck h) sample
      have hjoin := Record.decode?_join hlegible
      simpa [Schema.render] using hjoin
    refine ⟨hnames, Schema.names_nodup_iff hcolumns, Record.object (r.schema.fields sample), ?_, ?_⟩
    · rw [Record.readObject?, hdecode]
    · rw [Record.object_eq_iff, hnames]

theorem default_names_nodup :
    ∃ s r, Settings.parse "" = .ok s ∧ resolve Provider.all s [0] {} s.counterNames = .ok r ∧
      r.schema.ownNames.Nodup ∧ s.NamesApart ∧ r.schema.names.Nodup := by
  have hs : Settings.parse "" = .ok ({} : Settings) := Settings.ok_of_toOption (by decide +kernel)
  obtain ⟨r, hr⟩ : ∃ r, resolve Provider.all {} [0] {} ({} : Settings).counterNames = .ok r :=
    ⟨_, rfl⟩
  have hapart : ({} : Settings).NamesApart := by
    unfold NamesApart
    decide +kernel
  obtain ⟨hown, hnames, -⟩ := record_names_nodup_iff hs hr
  exact ⟨{}, r, hs, hr, hown, hapart, hnames hapart⟩

/-- Two sensors of a group may have one name, and then a record has the name twice: who takes it for
an object sees the second value only. -/
theorem sensors_named_alike :
    let text := "[[ipmi.group]]\nname = 'g'\nsensors = [['a', 1], ['a', 2]]\n" ++
      "[counters]\nenabled = ['g']"
    ∃ s r, Settings.parse text = .ok s ∧
      resolve Provider.all s [0] {} s.counterNames = .ok r ∧
      r.schema.render [1, 2, 513, 3] =
        "\x7b\"ts\":1,\"intv\":2,\"a\":1,\"a\":2,\"oh\":3\x7d\n" ∧
      ¬ ((r.schema.fields [1, 2, 513, 3]).map Field.name).Nodup ∧
      Record.readObject? (r.schema.render [1, 2, 513, 3]) =
        some [("ts", "1"), ("intv", "2"), ("a", "2"), ("oh", "3")] := by
  intro text
  let s : Settings := { enabled := ["g"], sensorGroups := [⟨"g", [⟨"a", 1, 1⟩, ⟨"a", 2, 1⟩]⟩] }
  have hs : Settings.parse text = .ok s := Settings.ok_of_toOption (by decide +kernel)
  exact ⟨s, _, hs, rfl, by decide +kernel, by decide +kernel, by decide +kernel⟩

end Registry

end NodeTelemetry
