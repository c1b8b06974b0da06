import Mathlib
import NodeTelemetry.Proofs.SensorHistory
import NodeTelemetry.Proofs.Traversals

namespace NodeTelemetry

namespace Schema

variable {s t : Schema} {v w : List UInt64} {m : Arithmetic}

theorem fields?_append (h : s.length = v.length) : Schema.fields? m (s ++ t) (v ++ w) =
    (s.fields? m v).bind fun before => (t.fields? m w).map (before ++ ·) := by
  simp only [fields?, List.zip_append h, List.mapM_append]
  cases (s.zip v).mapM fun p : Column × UInt64 => p.1.fields? m p.2 with
  | none => rfl
  | some before =>
    cases (t.zip w).mapM fun p : Column × UInt64 => p.1.fields? m p.2 with
    | none => rfl
    | some after => exact congrArg some List.flatten_append

theorem fields?_cons (c : Column) (value : UInt64) : Schema.fields? m (c :: s) (value :: v) =
    (c.fields? m value).bind fun own => (s.fields? m v).map (own ++ ·) := by
  simp only [fields?, List.zip_cons_cons, List.mapM_cons]
  cases c.fields? m value with
  | none => rfl
  | some own =>
    cases (s.zip v).mapM fun p : Column × UInt64 => p.1.fields? m p.2 with
    | none => rfl
    | some after => rfl

theorem fields?_eq_of_getElem? {sample : List UInt64} {k : Nat} {c : Column} {value : UInt64}
    (hc : s[k]? = some c) (hv : sample[k]? = some value) : s.fields? m sample =
      (Schema.fields? m (s.take k) (sample.take k)).bind fun before =>
        (c.fields? m value).bind fun own =>
          (Schema.fields? m (s.drop (k + 1)) (sample.drop (k + 1))).map fun after =>
            before ++ (own ++ after) := by
  obtain ⟨hk, rfl⟩ := List.getElem?_eq_some_iff.mp hc
  obtain ⟨hk', rfl⟩ := List.getElem?_eq_some_iff.mp hv
  have hlength : (s.take k).length = (sample.take k).length := by
    rw [List.length_take_of_le hk.le, List.length_take_of_le hk'.le]
  have hsplit := fields?_append (m := m) (t := s.drop k) (w := sample.drop k) hlength
  rw [List.take_append_drop, List.take_append_drop] at hsplit
  rw [hsplit, List.drop_eq_getElem_cons hk, List.drop_eq_getElem_cons hk', fields?_cons]
  simp only [Option.map_bind, Function.comp_def, Option.map_map]

end Schema

namespace Sensor

def products (sensors : List Sensor) (reading : Nat → UInt8) : List (String × Nat) :=
  sensors.zipIdx.map fun p => (p.1.name, (reading p.2).toNat * p.1.factor.toNat)

variable {sensors : List Sensor} {reading : Nat → UInt8}

theorem product_mem {i : Nat} (hi : i < sensors.length) :
    (sensors[i].name, (reading i).toNat * sensors[i].factor.toNat) ∈ products sensors reading := by
  apply List.mem_map.mpr
  exact ⟨(sensors[i], i), List.mem_zipIdx_iff_getElem?.mpr (List.getElem?_eq_getElem hi), rfl⟩

theorem product_le {p : String × Nat} (hp : p ∈ products sensors reading) :
    ∃ s ∈ sensors, p.2 ≤ 255 * s.factor.toNat := by
  obtain ⟨⟨s, i⟩, hs, rfl⟩ := List.mem_map.mp hp
  have hbyte : (reading i).toNat ≤ 255 := Nat.le_of_lt_succ (UInt8.toNat_lt _)
  exact ⟨s, List.fst_mem_of_mem_zipIdx hs, Nat.mul_le_mul_right _ hbyte⟩

theorem toNat_byteAt {word : UInt64} {s : Sensor} {i : Nat}
    (hword : ∀ i < sensors.length, byteAt word i = (reading i).toUInt64)
    (hs : (s, i) ∈ sensors.zipIdx) : (byteAt word i).toNat = (reading i).toNat := by
  obtain ⟨hi, -⟩ := List.getElem?_eq_some_iff.mp (List.mem_zipIdx_iff_getElem?.mp hs)
  rw [hword i hi, UInt8.toNat_toUInt64]

theorem sensorFields_eq {word : UInt64}
    (hword : ∀ i < sensors.length, byteAt word i = (reading i).toUInt64) :
    sensorFields sensors word =
      (products sensors reading).map fun p => ⟨p.1, toString (p.2 % 2 ^ 64)⟩ := by
  rw [sensorFields, products, List.map_map]
  apply List.map_congr_left
  rintro ⟨s, i⟩ hs
  have hproduct : (byteAt word i * s.factor).toNat =
      (reading i).toNat * s.factor.toNat % 2 ^ 64 := by
    rw [UInt64.toNat_mul, toNat_byteAt hword hs]
  change Field.number s.name (byteAt word i * s.factor) = _
  rw [Field.number, hproduct]
  rfl

theorem sensorFields?_of_fits {word : UInt64}
    (hword : ∀ i < sensors.length, byteAt word i = (reading i).toUInt64)
    (hfits : ∀ p ∈ products sensors reading, p.2 < 2 ^ 64) (m : Arithmetic) :
    sensorFields? m sensors word = some (sensorFields sensors word) := by
  rw [← sensorFields?_wrapping]
  apply mapM_congr_mem
  rintro ⟨s, i⟩ hs
  have hproduct : (byteAt word i).toNat * s.factor.toNat < 2 ^ 64 := by
    rw [toNat_byteAt hword hs]
    exact hfits _ (List.mem_map_of_mem hs)
  simp only [Arithmetic.mul?_of_lt _ hproduct]

theorem sensorFields?_of_not_fits {word : UInt64}
    (hword : ∀ i < sensors.length, byteAt word i = (reading i).toUInt64)
    (hfits : ¬ ∀ p ∈ products sensors reading, p.2 < 2 ^ 64) :
    sensorFields? .checked sensors word = none := by
  simp only [products, List.forall_mem_map, not_forall] at hfits
  obtain ⟨⟨s, i⟩, hs, hlarge⟩ := hfits
  refine mapM_eq_none_of_mem hs ?_
  rw [Option.map_eq_none_iff, Arithmetic.mul?_checked_eq_none_iff, toNat_byteAt hword hs]
  exact Nat.le_of_not_lt hlarge

theorem shown_exactly_iff (ps : List (String × Nat)) :
    (ps.map fun p => (⟨p.1, toString (p.2 % 2 ^ 64)⟩ : Field)) =
        (ps.map fun p => ⟨p.1, toString p.2⟩) ↔
      ∀ p ∈ ps, p.2 < 2 ^ 64 := by
  rw [List.map_inj_left]
  apply forall₂_congr
  intro p _
  constructor
  · intro h
    have hsame : p.2 % 2 ^ 64 = p.2 := Nat.repr_inj.mp (congrArg Field.value h)
    rw [← hsame]
    exact Nat.mod_lt _ (Nat.two_pow_pos 64)
  · intro h
    rw [Nat.mod_eq_of_lt h]

end Sensor

namespace SensorCounter

def wordAfter (events : List Event) (c : SensorCounter) (site : Site) : UInt64 :=
  let run := performAll events c site
  (run.1.restart run.2).1.1

def readingAfter (events : List Event) (c : SensorCounter) (site : Site) (i : Nat) : UInt8 :=
  latestReading (taken (events ++ [.call .restart]) c site) i

theorem exists_readingAfter (name device : String) (sensors : List Sensor) {i : Nat} (hi : i < 8)
    (byte : UInt8) : ∃ events site, readingAfter events (new name device sensors) site i = byte := by
  let r : Response := ⟨UInt64.ofNat i, some byte⟩
  let b : SensorBus := { pending := [.response r] }
  let site : Site := { hardware := { buses := [(device, b)] } }
  have hbus : site.bus? device = some b := by
    change Keyed.find? [(device, b)] device = some b
    simp [Keyed.find?]
  have hrun : performAll [.call .init] (new name device sensors) site =
      ({ new name device sensors with opened := true }, site) := perform_init_of_bus hbus
  refine ⟨[.call .init], site, ?_⟩
  have htaken : taken ([.call .init] ++ [.call .restart]) (new name device sensors) site = [r] := by
    rw [taken_concat, hrun]
    exact foundOn_of_bus (c := { new name device sensors with opened := true }) rfl hbus
  have hindex : r.correlation.toNat % 8 = i := by
    rw [UInt64.toNat_ofNat_of_lt' (by simp only [UInt64.size]; omega), Nat.mod_eq_of_lt hi]
  rw [readingAfter, htaken]
  change latestReading ([] ++ [r]) i = byte
  rw [latestReading_concat, if_pos hindex]
  rfl

theorem byteAt_wordAfter (name device : String) {sensors : List Sensor}
    (hn : sensors.length ≤ maxSensors) (events : List Event) (site : Site) {i : Nat}
    (hi : i < sensors.length) :
    byteAt (wordAfter events (new name device sensors) site) i =
      (readingAfter events (new name device sensors) site i).toUInt64 := by
  have hgroup : (new name device sensors).sensors = sensors := List.take_of_length_le hn
  rw [← hgroup] at hi hn
  have hkept := (kept_new name device sensors).performAll hn events site
  rw [readingAfter, taken_concat]
  exact hkept.byteAt_restart hn (performAll events (new name device sensors) site).2 hi

open Sensor in
/-- A record shows each sensor of a group with its own reading times its factor exactly if all these
products fit a word, which no check of the settings sees to. Otherwise a build that checks its
products breaks down at the record, and one that does not shows them modulo `2 ^ 64`. It never comes
to that exactly if the greatest reading times each factor fits. -/
theorem products_shown_iff_fit {text : String} {s : Settings}
    (hs : Settings.parse text = .ok s) {g : SensorGroup} (hg : g ∈ s.sensorGroups) :
    let fresh := new g.name s.sensorDevice g.sensors
    let column := Column.ofCounter (.sensors fresh)
    let exact events site := products g.sensors (readingAfter events fresh site)
    let fit events site := ∀ p ∈ exact events site, p.2 < 2 ^ 64
    let exactly events site : List Field := (exact events site).map fun p => ⟨p.1, toString p.2⟩
    let shown m events site := column.fields? m (wordAfter events fresh site)
    (∀ m events site, shown m events site = some (exactly events site) ↔ fit events site) ∧
    (∀ events site, ¬ fit events site → shown .checked events site = none) ∧
    (∀ events site, shown .wrapping events site =
      some ((exact events site).map fun p => ⟨p.1, toString (p.2 % 2 ^ 64)⟩)) ∧
    (∀ m events site (schema : Schema) (sample : List UInt64) (k : Nat),
      schema[k]? = some column → sample[k]? = some (wordAfter events fresh site) →
      schema.render? m sample =
        ((Schema.fields? m (schema.take k) (sample.take k)).bind fun before =>
          (shown m events site).bind fun own =>
            (Schema.fields? m (schema.drop (k + 1)) (sample.drop (k + 1))).map fun after =>
              before ++ (own ++ after)).map Record.render) ∧
    ∀ m, (∀ events site, shown m events site = some (exactly events site)) ↔
      ∀ sensor ∈ g.sensors, 255 * sensor.factor.toNat < 2 ^ 64 := by
  intro fresh column exact fit exactly shown
  have hcheck := (Settings.check_eq_ok (Settings.check_of_parse hs)).2 g hg
  have hn : g.sensors.length ≤ maxSensors := Settings.checkGroup_eq_ok hcheck
  have hgroup : fresh.sensors = g.sensors := List.take_of_length_le hn
  have hword events site : ∀ i < g.sensors.length, byteAt (wordAfter events fresh site) i =
      (readingAfter events fresh site i).toUInt64 :=
    fun i hi => byteAt_wordAfter g.name s.sensorDevice hn events site hi
  have hshown m events site :
      shown m events site = sensorFields? m g.sensors (wordAfter events fresh site) := by
    change sensorFields? m fresh.sensors _ = _
    rw [hgroup]
  have hwrapping events site : shown .wrapping events site =
      some ((exact events site).map fun p => ⟨p.1, toString (p.2 % 2 ^ 64)⟩) := by
    rw [hshown, sensorFields?_wrapping, sensorFields_eq (hword events site)]
  have hchecked events site (hfit : ¬ fit events site) : shown .checked events site = none := by
    rw [hshown]
    exact sensorFields?_of_not_fits (hword events site) hfit
  have hexact m events site : shown m events site = some (exactly events site) ↔
      fit events site := by
    constructor
    · intro hsome
      by_contra hfit
      cases m with
      | wrapping =>
        rw [hwrapping, Option.some.injEq] at hsome
        exact hfit ((shown_exactly_iff _).mp hsome)
      | checked =>
        rw [hchecked events site hfit] at hsome
        cases hsome
    · intro hfit
      rw [hshown, sensorFields?_of_fits (hword events site) hfit, sensorFields_eq (hword events site)]
      exact congrArg some ((shown_exactly_iff _).mpr hfit)
  refine ⟨hexact, hchecked, hwrapping, ?_, fun m => ⟨?_, ?_⟩⟩
  · intro m events site schema sample k hcolumn hvalue
    rw [Schema.render?, Schema.fields?_eq_of_getElem? hcolumn hvalue]
  · intro hall sensor hsensor
    obtain ⟨i, hi, rfl⟩ := List.getElem_of_mem hsensor
    -- The greatest reading can be answered for any one sensor of the group.
    obtain ⟨events, site, hreading⟩ :=
      exists_readingAfter g.name s.sensorDevice g.sensors (Nat.lt_of_lt_of_le hi hn) 255
    have hfits := (hexact m events site).mp (hall events site) _ (product_mem hi)
    rw [hreading] at hfits
    exact hfits
  · intro hfactors events site
    apply (hexact m events site).mpr
    intro p hp
    obtain ⟨sensor, hsensor, hle⟩ := product_le hp
    exact Nat.lt_of_le_of_lt hle (hfactors sensor hsensor)

theorem fan_and_inlet_are_shown :
    let text := "[[ipmi.group]]\nname = 'board'\nsensors = [['FAN1', 65, 100], ['INLET', 4]]"
    let g : SensorGroup := ⟨"board", [⟨"FAN1", 65, 100⟩, ⟨"INLET", 4, 1⟩]⟩
    let s : Settings := { sensorGroups := [g] }
    let bus : SensorBus := { pending := [.response ⟨1, some 31⟩, .response ⟨0, some 255⟩] }
    let site : Site := { hardware := { buses := [("/dev/ipmi0", bus)] } }
    let word := wordAfter [.call .init] (new "board" "/dev/ipmi0" g.sensors) site
    let column : Column := ⟨"board", some (.sensors g.sensors)⟩
    Settings.parse text = .ok s ∧ g ∈ s.sensorGroups ∧
      Schema.render? .checked [⟨"ts", none⟩, column, ⟨"oh", none⟩] [7, word, 9] =
        some "\x7b\"ts\":7,\"FAN1\":25500,\"INLET\":31,\"oh\":9\x7d\n" ∧
      column.fields? .checked word = some [⟨"FAN1", "25500"⟩, ⟨"INLET", "31"⟩] := by
  intro text g s bus site word column
  have hs : Settings.parse text = .ok s := Settings.ok_of_toOption (by decide +kernel)
  have hg : g ∈ s.sensorGroups := List.mem_singleton_self g
  obtain ⟨-, -, -, hrender, hfits⟩ := products_shown_iff_fit hs hg
  refine ⟨hs, hg, ?_, ?_⟩
  · have hrecord := hrender .checked [.call .init] site [⟨"ts", none⟩, column, ⟨"oh", none⟩]
      [7, word, 9] 1 rfl rfl
    exact hrecord.trans (by decide +kernel)
  · have hshown := (hfits .checked).mpr (by decide) [.call .init] site
    exact hshown.trans (by decide +kernel)

/-- Three times a third of `2 ^ 64`, rounded up, is no word: it breaks a build down that checks its
products, and is shown as 2 by one that does not. -/
theorem product_beyond_a_word :
    let text := "[[ipmi.group]]\nname = 'fans'\nsensors = [['FAN1', 65, 6148914691236517206]]\n" ++
      "[counters]\nenabled = ['fans']"
    let g : SensorGroup := ⟨"fans", [⟨"FAN1", 65, 6148914691236517206⟩]⟩
    let s : Settings := { enabled := ["fans"], sensorGroups := [g] }
    let bus : SensorBus := { pending := [.response ⟨0, some 3⟩] }
    let site : Site := { hardware := { buses := [("/dev/ipmi0", bus)] } }
    let fresh := new "fans" "/dev/ipmi0" g.sensors
    let word := wordAfter [.call .init] fresh site
    let column := Column.ofCounter (.sensors fresh)
    Settings.parse text = .ok s ∧ g ∈ s.sensorGroups ∧
      readingAfter [.call .init] fresh site 0 = 3 ∧ 3 * 6148914691236517206 = 18446744073709551618 ∧
      column.fields? .checked word = none ∧
      Schema.render? .checked [⟨"ts", none⟩, column] [1, word] = none ∧
      column.fields? .wrapping word = some [⟨"FAN1", "2"⟩] := by
  intro text g s bus site fresh word column
  have hs : Settings.parse text = .ok s := Settings.ok_of_toOption (by decide +kernel)
  exact ⟨hs, List.mem_singleton_self g, by decide, by decide, by decide +kernel,
    by decide +kernel, by decide +kernel⟩

end SensorCounter

end NodeTelemetry
