import Mathlib
import NodeTelemetry.Proofs.ShownColumns

namespace NodeTelemetry

theorem utf8ByteSize_of_digits {cs : List Char} (h : ∀ c ∈ cs, c.isDigit) :
    (String.ofList cs).utf8ByteSize = cs.length := by
  induction cs with
  | nil => rfl
  | cons c cs ih =>
    obtain ⟨hc, hcs⟩ := List.forall_mem_cons.mp h
    have hsize : c.utf8Size = 1 := by
      simp only [Char.isDigit, Bool.and_eq_true, decide_eq_true_eq] at hc
      have hlow : c.val ≤ 0x7f := UInt32.le_trans hc.2 (by decide)
      exact if_pos hlow
    have hrest := ih hcs
    rw [String.utf8ByteSize_ofList] at hrest ⊢
    rw [String.utf8Len_cons, hrest, hsize, List.length_cons]

namespace Field

def size (f : Field) : Nat := f.name.utf8ByteSize + f.value.utf8ByteSize + 4

theorem size_number (name : String) (v : UInt64) :
    (number name v).size = name.utf8ByteSize + (Nat.toDigits 10 v.toNat).length + 4 := by
  have hdigits : (toString v.toNat).utf8ByteSize = (Nat.toDigits 10 v.toNat).length := by
    rw [Nat.toString_eq_ofList_toDigits]
    exact utf8ByteSize_of_digits fun c hc =>
      Nat.isDigit_of_mem_toDigits (by decide) (by decide) hc
  rw [← hdigits]
  rfl

theorem size_number_le {v w : UInt64} (name : String) (h : v ≤ w) :
    (number name v).size ≤ (number name w).size := by
  have hlength : (Nat.toDigits 10 v.toNat).length ≤ (Nat.toDigits 10 w.toNat).length := by
    rw [Nat.length_toDigits_le_iff (by decide) Nat.length_toDigits_pos]
    refine lt_of_le_of_lt (UInt64.le_iff_toNat_le.mp h) ?_
    exact (Nat.length_toDigits_le_iff (by decide) Nat.length_toDigits_pos).mp le_rfl
  rw [size_number, size_number]
  omega

theorem size_le_of_decimal {f : Field} (hname : Settings.IsName f.name) (hvalue : f.Decimal) :
    f.size ≤ 39 := by
  obtain ⟨v, hv⟩ := hvalue
  have hdigits : (Nat.toDigits 10 v.toNat).length ≤ 20 :=
    (Nat.length_toDigits_le_iff (by decide) (by decide)).mpr (lt_trans v.toNat_lt (by decide))
  have hshort : f.name.utf8ByteSize ≤ 15 := hname.short
  rw [hv, size_number]
  omega

end Field

namespace Record

theorem size_render {fields : List Field} (h : fields ≠ []) :
    (render fields).utf8ByteSize = (fields.map Field.size).sum + 2 := by
  have hbody (f : Field) (fields : List Field) :
      (",".intercalate ((f :: fields).map Field.render)).utf8ByteSize + 1 =
        ((f :: fields).map Field.size).sum := by
    induction fields generalizing f with
    | nil =>
      simp only [List.map_cons, List.map_nil, String.intercalate_singleton, List.sum_singleton,
        Field.render, Field.size, String.utf8ByteSize_append]
      have hquote : "\"".utf8ByteSize + "\":".utf8ByteSize = 3 := by decide
      omega
    | cons g fields ih =>
      have hg := ih g
      have hquote : "\"".utf8ByteSize + "\":".utf8ByteSize + ",".utf8ByteSize = 4 := by decide
      rw [List.map_cons] at hg ⊢
      rw [List.map_cons, String.intercalate_cons_cons, List.map_cons, List.sum_cons, ← hg,
        String.utf8ByteSize_append, String.utf8ByteSize_append, Field.size, Field.render,
        String.utf8ByteSize_append, String.utf8ByteSize_append, String.utf8ByteSize_append]
      omega
  obtain ⟨f, fields, rfl⟩ := List.exists_cons_of_ne_nil h
  have hends : "\x7b".utf8ByteSize + "\x7d\n".utf8ByteSize = 3 := by decide
  rw [render, String.utf8ByteSize_append, String.utf8ByteSize_append, ← hbody f fields]
  omega

end Record

namespace Sensor

def readings (s : Sensor) : List Nat :=
  (List.range 256).map fun b => (UInt64.ofNat b * s.factor).toNat

theorem readings_ne_nil (s : Sensor) : s.readings ≠ [] := by simp [readings]

def greatest (s : Sensor) : UInt64 := UInt64.ofNat (s.readings.max s.readings_ne_nil)

theorem exists_greatest (s : Sensor) : ∃ b < 256, UInt64.ofNat b * s.factor = s.greatest := by
  obtain ⟨b, hb, he⟩ := List.mem_map.mp (List.max_mem s.readings_ne_nil)
  refine ⟨b, List.mem_range.mp hb, ?_⟩
  rw [greatest, ← he, UInt64.ofNat_toNat]

theorem le_greatest (s : Sensor) {byte : UInt64} (h : byte.toNat < 256) :
    byte * s.factor ≤ s.greatest := by
  have hmem : (byte * s.factor).toNat ∈ s.readings := by
    refine List.mem_map.mpr ⟨byte.toNat, List.mem_range.mpr h, ?_⟩
    rw [UInt64.ofNat_toNat]
  have hmax : s.greatest.toNat = s.readings.max s.readings_ne_nil := by
    obtain ⟨b, -, he⟩ := List.mem_map.mp (List.max_mem s.readings_ne_nil)
    rw [greatest, ← he, UInt64.ofNat_toNat]
  rw [UInt64.le_iff_toNat_le, hmax]
  exact List.le_max_of_mem hmem

end Sensor

theorem byteAt_lt (value : UInt64) (i : Nat) : (byteAt value i).toNat < 256 := by
  rw [byteAt, UInt64.toNat_and]
  exact Nat.lt_of_le_of_lt Nat.and_le_right (by decide)

theorem byteAt_ofDigits {bytes : List Nat} (hb : ∀ b ∈ bytes, b < 256) (hlen : bytes.length ≤ 8)
    {i : Nat} (hi : i < bytes.length) :
    byteAt (UInt64.ofNat (Nat.ofDigits 256 bytes)) i = UInt64.ofNat bytes[i] := by
  have hword : Nat.ofDigits 256 bytes < 2 ^ 64 :=
    calc Nat.ofDigits 256 bytes < 256 ^ bytes.length := Nat.ofDigits_lt_base_pow_length (by decide) hb
      _ ≤ 256 ^ 8 := Nat.pow_le_pow_right (by decide) hlen
      _ = 2 ^ 64 := by decide
  have hshift : (UInt64.ofNat (8 * i)).toNat % 64 = 8 * i := by
    rw [UInt64.toNat_ofNat_of_lt' (by simp only [UInt64.size]; omega)]
    omega
  have hbyte : Nat.ofDigits 256 bytes / 256 ^ i % 256 = bytes[i] := by
    rw [Nat.ofDigits_div_pow_eq_ofDigits_drop i (by decide) bytes hb,
      List.drop_eq_getElem_cons hi, Nat.ofDigits_cons, Nat.add_mul_mod_self_left,
      Nat.mod_eq_of_lt (hb _ (List.getElem_mem hi))]
  apply UInt64.toNat_inj.mp
  have hmask : (0xff : UInt64).toNat = 2 ^ 8 - 1 := by decide
  rw [byteAt, UInt64.toNat_and, UInt64.toNat_shiftRight, hshift, hmask, Nat.and_two_pow_sub_one_eq_mod,
    UInt64.toNat_ofNat_of_lt' (by simpa [UInt64.size] using hword), Nat.shiftRight_eq_div_pow,
    Nat.pow_mul, show 2 ^ 8 = 256 from rfl, hbyte]
  have hsmall : bytes[i] < 256 := hb _ (List.getElem_mem hi)
  exact (UInt64.toNat_ofNat_of_lt' (by simp only [UInt64.size]; omega)).symm

def NoLonger : List Field → List Field → Prop :=
  List.Forall₂ fun f g => f.name = g.name ∧ f.size ≤ g.size

theorem NoLonger.sum_le {fs gs : List Field} (h : NoLonger fs gs) :
    (fs.map Field.size).sum ≤ (gs.map Field.size).sum := by
  induction h with
  | nil => exact le_rfl
  | cons hfg _ ih =>
    rw [List.map_cons, List.map_cons, List.sum_cons, List.sum_cons]
    exact Nat.add_le_add hfg.2 ih

theorem NoLonger.names_eq {fs gs : List Field} (h : NoLonger fs gs) :
    fs.map Field.name = gs.map Field.name := by
  induction h with
  | nil => rfl
  | cons hfg _ ih => rw [List.map_cons, List.map_cons, hfg.1, ih]

theorem noLonger_numbers {α : Type} {xs : List α} (name : α → String) {v w : α → UInt64}
    (h : ∀ x ∈ xs, v x ≤ w x) :
    NoLonger (xs.map fun x => .number (name x) (v x)) (xs.map fun x => .number (name x) (w x)) := by
  induction xs with
  | nil => exact .nil
  | cons x xs ih =>
    obtain ⟨hx, hxs⟩ := List.forall_mem_cons.mp h
    exact .cons ⟨rfl, Field.size_number_le _ hx⟩ (ih hxs)

namespace Format

def widest : Format → List Field
  | .temperature detail => temperatureFields detail 0xffffffff
  | .sensors group => group.map fun s => .number s.name s.greatest
  | .bits parts => parts.map fun p => .number p.name p.mask

theorem fields_noLonger (f : Format) (value : UInt64) : NoLonger (f.fields value) f.widest := by
  have hmask (v m : UInt64) : v &&& m ≤ m := by
    rw [UInt64.le_iff_toNat_le, UInt64.toNat_and]
    exact Nat.and_le_right
  cases f with
  | temperature detail =>
    have hbytes : ∀ p ∈ [("tjmax", (value >>> 24) &&& 0xff), ("tmax", (value >>> 16) &&& 0xff),
        ("tpkg", value &&& 0xff)], p.2 ≤ (0xff : UInt64) := by
      simp [hmask]
    cases detail
    · exact noLonger_numbers Prod.fst fun p hp => hbytes p (List.mem_of_mem_drop (i := 2) hp)
    · exact noLonger_numbers Prod.fst hbytes
  | sensors group =>
    have hwidest : widest (.sensors group) =
        group.zipIdx.map fun p => .number p.1.name p.1.greatest := by
      change (group.map ((fun s => Field.number s.name s.greatest))) =
        group.zipIdx.map ((fun s => Field.number s.name s.greatest) ∘ Prod.fst)
      rw [← List.map_map, List.zipIdx_map_fst]
    rw [hwidest]
    exact noLonger_numbers _ fun p _ => p.1.le_greatest (byteAt_lt value p.2)
  | bits parts => exact noLonger_numbers _ fun p _ => hmask _ _

theorem decimal_widest (f : Format) : ∀ g ∈ f.widest, g.Decimal := by
  cases f with
  | temperature detail => exact decimal_fields (.temperature detail) _
  | sensors group =>
    intro g hg
    obtain ⟨s, -, rfl⟩ := List.mem_map.mp hg
    exact ⟨_, rfl⟩
  | bits parts =>
    intro g hg
    obtain ⟨p, -, rfl⟩ := List.mem_map.mp hg
    exact ⟨_, rfl⟩

theorem exists_widest {f : Format} (h : ∀ parts, f ≠ .bits parts)
    (hgroup : ∀ group, f = .sensors group → group.length ≤ maxSensors) :
    ∃ value, f.fields value = f.widest := by
  cases f with
  | temperature detail => exact ⟨0xffffffff, rfl⟩
  | sensors group =>
    -- Each sensor has a byte of its own, so one word can hold the byte of each that reads greatest.
    choose byte hlt hgreatest using Sensor.exists_greatest
    refine ⟨UInt64.ofNat (Nat.ofDigits 256 (group.map byte)), ?_⟩
    change (group.zipIdx.map fun p => Field.number p.1.name (byteAt _ p.2 * p.1.factor)) = _
    apply List.ext_getElem
    · simp [widest]
    · intro i hi hi'
      have hlen : (group.map byte).length ≤ 8 := by
        rw [List.length_map]
        exact hgroup group rfl
      have hbytes : ∀ b ∈ group.map byte, b < 256 := by
        simpa using fun s _ => hlt s
      have hig : i < (group.map byte).length := by simpa [widest] using hi'
      simp only [widest, List.getElem_map, List.getElem_zipIdx, Nat.zero_add]
      rw [byteAt_ofDigits hbytes hlen hig, List.getElem_map, hgreatest]
  | bits parts => exact absurd rfl (h parts)

end Format

namespace Column

def widest (c : Column) : List Field :=
  match c.format with
  | some f => f.widest
  | none => [.number c.name (UInt64.ofNat (UInt64.size - 1))]

theorem fields_noLonger (c : Column) (value : UInt64) : NoLonger (c.fields value) c.widest := by
  unfold fields widest
  cases c.format with
  | none =>
    have hmax : value ≤ UInt64.ofNat (UInt64.size - 1) := by
      rw [UInt64.le_iff_toNat_le]
      have hlt := value.toNat_lt
      change value.toNat ≤ 2 ^ 64 - 1
      omega
    exact .cons ⟨rfl, Field.size_number_le _ hmax⟩ .nil
  | some f => exact f.fields_noLonger value

theorem decimal_widest (c : Column) : ∀ f ∈ c.widest, f.Decimal := by
  unfold widest
  cases c.format with
  | none =>
    intro f hf
    rw [List.mem_singleton.mp hf]
    exact ⟨_, rfl⟩
  | some format => exact format.decimal_widest

theorem names_widest (c : Column) : c.widest.map Field.name = c.names := by
  rw [← (c.fields_noLonger 0).names_eq, names_fields]

end Column

namespace Schema

variable {s : Schema}

def widest (s : Schema) : List Field := s.flatMap Column.widest

def longest (s : Schema) : Nat := (s.widest.map Field.size).sum + 2

theorem names_widest (s : Schema) : s.widest.map Field.name = s.names := by
  rw [widest, List.map_flatMap]
  exact congrArg (List.flatMap · s) (funext Column.names_widest)

theorem widest_ne_nil (h : s.names ≠ []) : s.widest ≠ [] := by
  intro hnil
  rw [← names_widest, hnil] at h
  exact h rfl

theorem sum_fields_le (s : Schema) (sample : List UInt64) :
    ((s.fields sample).map Field.size).sum ≤ (s.widest.map Field.size).sum := by
  unfold widest
  induction s generalizing sample with
  | nil => exact le_rfl
  | cons c s ih =>
    cases sample with
    | nil => exact Nat.zero_le _
    | cons v sample =>
      have hc := (c.fields_noLonger v).sum_le
      have hs := ih sample
      rw [fields_cons, List.map_append, List.sum_append, List.flatMap_cons, List.map_append,
        List.sum_append]
      omega

theorem size_render_le (h : s.names ≠ []) (sample : List UInt64) :
    (s.render sample).utf8ByteSize ≤ s.longest := by
  by_cases hfields : s.fields sample = []
  · have hempty : (Record.render []).utf8ByteSize = 3 := by decide
    obtain ⟨f, fs, hwidest⟩ := List.exists_cons_of_ne_nil (widest_ne_nil h)
    have hsize : 4 ≤ f.size := Nat.le_add_left 4 _
    rw [render, hfields, hempty, longest, hwidest, List.map_cons, List.sum_cons]
    omega
  · rw [render, Record.size_render hfields]
    exact Nat.add_le_add_right (s.sum_fields_le sample) 2

theorem exists_longest (hnames : s.names ≠ []) (h : ∀ c ∈ s, ∃ v, c.fields v = c.widest) :
    ∃ sample, sample.length = s.width ∧ (s.render sample).utf8ByteSize = s.longest := by
  have hfields : ∃ sample, sample.length = s.width ∧ s.fields sample = s.widest := by
    clear hnames
    induction s with
    | nil => exact ⟨[], rfl, rfl⟩
    | cons c s ih =>
      obtain ⟨⟨v, hv⟩, hs⟩ := List.forall_mem_cons.mp h
      obtain ⟨sample, hwidth, hsample⟩ := ih hs
      refine ⟨v :: sample, congrArg (· + 1) hwidth, ?_⟩
      rw [fields_cons, hv, hsample]
      rfl
  obtain ⟨sample, hwidth, hsample⟩ := hfields
  refine ⟨sample, hwidth, ?_⟩
  rw [render, hsample, Record.size_render (widest_ne_nil hnames)]
  rfl

theorem longest_le (h : ∀ n ∈ s.names, Settings.IsName n) :
    s.longest ≤ 39 * s.names.length + 2 := by
  have hwide : ∀ size ∈ s.widest.map Field.size, size ≤ 39 := by
    intro size hsize
    obtain ⟨f, hf, rfl⟩ := List.mem_map.mp hsize
    refine Field.size_le_of_decimal (h f.name ?_) ?_
    · rw [← names_widest]
      exact List.mem_map_of_mem hf
    · obtain ⟨c, -, hfc⟩ := List.mem_flatMap.mp hf
      exact c.decimal_widest f hfc
  have hsum := List.sum_le_card_nsmul _ 39 hwide
  rw [longest, ← names_widest]
  simp only [List.length_map, smul_eq_mul] at hsum ⊢
  omega

end Schema

namespace Settings

variable {s : Settings} {c : Column}

theorem Shows.length_names (h : s.check = .ok ()) (hc : s.Shows c) :
    0 < c.names.length ∧ c.names.length ≤ maxSensors := by
  cases hc with
  | plain hn => exact ⟨Nat.one_pos, (by decide : 1 ≤ maxSensors)⟩
  | temperature hn => cases hd : s.temperatureDetail <;> decide
  | @sensors g hg hn =>
    have hcheck := (check_eq_ok h).2 g hg
    have hlength : (Column.names ⟨g.name, some (.sensors g.sensors)⟩).length = g.sensors.length :=
      List.length_map _
    rw [hlength]
    exact ⟨List.length_pos_of_ne_nil (check_of_mem_group hcheck).1, checkGroup_eq_ok hcheck⟩

theorem Shows.exists_widest (h : s.check = .ok ()) (hc : s.Shows c) :
    ∃ v, c.fields v = c.widest := by
  cases hc with
  | plain hn => exact ⟨_, rfl⟩
  | temperature hn =>
    exact Format.exists_widest (f := .temperature s.temperatureDetail) nofun nofun
  | @sensors g hg hn =>
    refine Format.exists_widest (f := .sensors g.sensors) nofun ?_
    rintro group ⟨⟩
    exact checkGroup_eq_ok ((check_eq_ok h).2 g hg)

end Settings

namespace Registry

open Settings

variable {providers : List Provider} {s : Settings} {cpus : List Nat} {tracer : Tracer}
  {r : Registry}

theorem length_schema_of_resolve (h : resolve providers s cpus tracer s.counterNames = .ok r) :
    r.schema.length = s.enabled.length + 3 := by
  have hlength := congrArg List.length (columns_of_resolve h)
  rw [List.length_map] at hlength
  rw [hlength]
  simp [counterNames]

theorem length_names_of_resolve (hs : s.check = .ok ())
    (h : resolve providers s cpus tracer s.counterNames = .ok r) :
    r.schema.names ≠ [] ∧ r.schema.names.length ≤ maxSensors * (s.enabled.length + 3) := by
  have hshows := shows_of_resolve hs h
  rw [← length_schema_of_resolve h]
  constructor
  · have hlength := length_schema_of_resolve h
    obtain ⟨c, hc⟩ := List.exists_mem_of_length_pos (l := r.schema) (by omega)
    obtain ⟨n, hn⟩ := List.exists_mem_of_length_pos ((hshows c hc).length_names hs).1
    exact List.ne_nil_of_mem (List.mem_flatMap.mpr ⟨c, hc, hn⟩)
  · have hcolumns : ∀ size ∈ r.schema.map fun c => c.names.length, size ≤ maxSensors := by
      intro size hsize
      obtain ⟨c, hc, rfl⟩ := List.mem_map.mp hsize
      exact ((hshows c hc).length_names hs).2
    have hsum := List.sum_le_card_nsmul _ maxSensors hcolumns
    rw [List.length_map, smul_eq_mul, Nat.mul_comm] at hsum
    rw [Schema.names, List.length_flatMap]
    exact hsum

end Registry

end NodeTelemetry
