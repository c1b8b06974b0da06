import Mathlib
import NodeTelemetry.Text.Percent

namespace NodeTelemetry.Text

theorem bytes_ofList (cs : List Char) :
    bytes (String.ofList cs) = cs.flatMap String.utf8EncodeChar := by
  have hbytes : (String.ofList cs).toByteArray = (cs.flatMap String.utf8EncodeChar).toByteArray :=
    String.toByteArray_ofList
  rw [bytes, String.toUTF8_eq_toByteArray, hbytes, List.data_toByteArray]

theorem bytes_eq_flatMap (s : String) : bytes s = s.toList.flatMap String.utf8EncodeChar := by
  rw [← bytes_ofList, String.ofList_toList]

theorem eq_bytes_of_ofBytes? {bs : List UInt8} {s : String} (h : ofBytes? bs = some s) :
    bs = bytes s := by
  unfold ofBytes? String.fromUTF8? at h
  split at h
  · cases h
    rfl
  · cases h

theorem toNat_eq_of_mem_utf8EncodeChar {b : UInt8} {c : Char} (hb : b.toNat < 128)
    (h : b ∈ String.utf8EncodeChar c) : c.toNat = b.toNat := by
  have hval : c.toNat = c.val.toNat := rfl
  unfold String.utf8EncodeChar at h
  dsimp only at h
  split_ifs at h with h₁ h₂ h₃
  · rw [List.mem_singleton] at h
    rw [hval, h, UInt8.toNat_ofNat']
    omega
  all_goals
    simp only [List.mem_cons, List.not_mem_nil, or_false] at h
    rcases h with rfl | rfl | rfl | rfl
    all_goals
      rw [UInt8.toNat_ofNat'] at hb
      omega

theorem utf8EncodeChar_ofNat {b : UInt8} (hb : b.toNat < 128) :
    String.utf8EncodeChar (Char.ofNat b.toNat) = [b] := by
  have hall : ∀ n : Fin 128, String.utf8EncodeChar (Char.ofNat n) = [UInt8.ofNat n] := by
    decide +kernel
  have hn := hall ⟨b.toNat, hb⟩
  rwa [UInt8.ofNat_toNat] at hn

theorem bytes_of_ascii {bs : List UInt8} (h : ∀ b ∈ bs, b.toNat < 128) :
    bytes (String.ofList (bs.map fun b => Char.ofNat b.toNat)) = bs := by
  rw [bytes_ofList]
  induction bs with
  | nil => rfl
  | cons b bs ih =>
    rw [List.forall_mem_cons] at h
    rw [List.map_cons, List.flatMap_cons, ih h.2, utf8EncodeChar_ofNat h.1]
    rfl

namespace Percent

def isHex (b : UInt8) : Bool := (hexValue? b).isSome

def HexFirst : List UInt8 → Prop
  | h :: l :: _ => isHex h ∧ isHex l
  | _ => False

def Escapes : List UInt8 → Prop
  | [] => False
  | b :: bs => b = percentSign ∧ HexFirst bs ∨ Escapes bs

theorem decode_escape {h l : UInt8} (hh : isHex h) (hl : isHex l) :
    ∃ b, ∀ bs, decode (percentSign :: h :: l :: bs) = b :: decode bs := by
  obtain ⟨hi, hhi⟩ := Option.isSome_iff_exists.mp hh
  obtain ⟨lo, hlo⟩ := Option.isSome_iff_exists.mp hl
  exact ⟨16 * hi + lo, fun bs => by simp [decode, hhi, hlo]⟩

theorem decode_cons_of_not_hexFirst {bs : List UInt8} (h : ¬ HexFirst bs) (b : UInt8) :
    decode (b :: bs) = b :: decode bs := by
  match bs with
  | [] => rfl
  | [_] => rfl
  | h' :: l :: rest =>
    rw [decode]
    split
    · split
      case h_1 hi lo hhi hlo =>
        have hhex : isHex h' := by rw [isHex, hhi]; rfl
        have hlex : isHex l := by rw [isHex, hlo]; rfl
        exact absurd ⟨hhex, hlex⟩ h
      case h_2 => rfl
    · rfl

/-- To take a text of bytes apart the way it is decoded. -/
theorem induction_on_codes {P : List UInt8 → Prop} (nil : P [])
    (escape : ∀ h l bs, isHex h → isHex l → P bs → P (percentSign :: h :: l :: bs))
    (plain : ∀ b bs, ¬ (b = percentSign ∧ HexFirst bs) → P bs → P (b :: bs)) :
    ∀ bs, P bs
  | [] => nil
  | [b] => plain b [] (fun h => h.2) nil
  | [b, c] => plain b [c] (fun h => h.2) (plain c [] (fun h => h.2) nil)
  | b :: h :: l :: bs => by
    by_cases hb : b = percentSign ∧ HexFirst (h :: l :: bs)
    · obtain ⟨rfl, hh, hl⟩ := hb
      exact escape h l bs hh hl (induction_on_codes nil escape plain bs)
    · exact plain b _ hb (induction_on_codes nil escape plain (h :: l :: bs))

variable {stands : UInt8 → Bool} {bs : List UInt8}

theorem decode_plain {b : UInt8} (h : ¬ (b = percentSign ∧ HexFirst bs)) :
    decode (b :: bs) = b :: decode bs := by
  by_cases hb : b = percentSign
  · exact decode_cons_of_not_hexFirst (fun hbs => h ⟨hb, hbs⟩) b
  · exact decode_cons_of_ne hb bs

theorem length_decode (bs : List UInt8) :
    ¬ Escapes bs ∧ decode bs = bs ∨ Escapes bs ∧ (decode bs).length < bs.length := by
  induction bs using induction_on_codes with
  | nil => exact .inl ⟨id, rfl⟩
  | escape h l bs hh hl ih =>
    obtain ⟨b, hb⟩ := decode_escape hh hl
    have hle : (decode bs).length ≤ bs.length := by
      rcases ih with ⟨-, heq⟩ | ⟨-, hlt⟩
      · rw [heq]
      · exact hlt.le
    right
    refine ⟨.inl ⟨rfl, hh, hl⟩, ?_⟩
    simp only [hb, List.length_cons]
    omega
  | plain b bs hb ih =>
    rw [decode_plain hb]
    rcases ih with ⟨hnone, heq⟩ | ⟨hsome, hlt⟩
    · left
      rw [heq]
      exact ⟨fun h => h.elim hb hnone, rfl⟩
    · right
      exact ⟨.inr hsome, Nat.succ_lt_succ hlt⟩

theorem encode_eq_cons {h : UInt8} {rest : List UInt8} (he : encode stands bs = h :: rest)
    (hh : isHex h) : ∃ bs', bs = h :: bs' ∧ encode stands bs' = rest := by
  cases bs with
  | nil => cases he
  | cons b bs =>
    rw [encode] at he
    split at he
    · cases he
      exact ⟨bs, rfl, rfl⟩
    · have hsign : percentSign = h := (List.cons.inj he).1
      subst hsign
      exact absurd hh (by decide)

theorem hexFirst_of_encode (h : HexFirst (encode stands bs)) : HexFirst bs := by
  unfold HexFirst at h
  split at h
  case h_1 d e rest he =>
    obtain ⟨bs', rfl, he'⟩ := encode_eq_cons he h.1
    obtain ⟨bs'', rfl, -⟩ := encode_eq_cons he' h.2
    exact h
  case h_2 => exact h.elim

theorem decode_encode_of_stands (hsign : stands percentSign) (hhex : ∀ b, isHex b → stands b)
    (bs : List UInt8) : decode (encode stands bs) = decode bs := by
  induction bs using induction_on_codes with
  | nil => rfl
  | escape h l bs hh hl ih =>
    obtain ⟨b, hb⟩ := decode_escape hh hl
    have hencode : encode stands (percentSign :: h :: l :: bs) =
        percentSign :: h :: l :: encode stands bs := by
      simp [encode, hsign, hhex h hh, hhex l hl]
    rw [hencode, hb, hb, ih]
  | plain b bs hb ih =>
    rw [decode_plain hb, encode]
    split
    · have hcode : ¬ (b = percentSign ∧ HexFirst (encode stands bs)) :=
        fun h => hb ⟨h.1, hexFirst_of_encode h.2⟩
      rw [List.singleton_append, decode_plain hcode, ih]
    · rw [decode_encodeByte, ih]

theorem mem_encode {b : UInt8} (h : b ∈ encode stands bs) :
    b ∈ bs ∧ stands b ∨ ∃ c ∈ bs, b ∈ encodeByte c := by
  induction bs with
  | nil => cases h
  | cons c bs ih =>
    rw [encode, List.mem_append] at h
    rcases h with h | h
    · split at h
      case isTrue hc =>
        rw [List.mem_singleton] at h
        subst h
        exact .inl ⟨List.mem_cons_self, hc⟩
      case isFalse => exact .inr ⟨c, List.mem_cons_self, h⟩
    · rcases ih h with ⟨hb, hstands⟩ | ⟨d, hd, hbyte⟩
      · exact .inl ⟨List.mem_cons_of_mem c hb, hstands⟩
      · exact .inr ⟨d, List.mem_cons_of_mem c hd, hbyte⟩

theorem hexDigit_ascii {n : UInt8} (h : n < 16) :
    (hexDigit n).toNat < 128 ∧ hexDigit n ≠ 0x2F := by
  have hall : ∀ n : Fin 16, (hexDigit (UInt8.ofNat n)).toNat < 128 ∧
      hexDigit (UInt8.ofNat n) ≠ 0x2F := by decide +kernel
  have hn := hall ⟨n.toNat, UInt8.lt_iff_toNat_lt.mp h⟩
  simpa only [UInt8.ofNat_toNat] using hn

theorem mem_encodeByte {b c : UInt8} (h : b ∈ encodeByte c) : b.toNat < 128 ∧ b ≠ 0x2F := by
  simp only [encodeByte, List.mem_cons, List.not_mem_nil, or_false] at h
  rcases h with rfl | rfl | rfl
  · decide
  · apply hexDigit_ascii
    rw [UInt8.lt_iff_toNat_lt, UInt8.toNat_div]
    exact Nat.div_lt_of_lt_mul c.toNat_lt
  · apply hexDigit_ascii
    rw [UInt8.lt_iff_toNat_lt, UInt8.toNat_mod]
    exact Nat.mod_lt _ (by decide)

end Percent

end NodeTelemetry.Text
