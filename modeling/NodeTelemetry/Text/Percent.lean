import NodeTelemetry.Text.Digits
import NodeTelemetry.Text.Utf8

/-!
Bytes written as a percent sign and two hexadecimal digits. What is encoded reads back, provided the
percent sign itself is not among the bytes that stand for themselves.
-/

namespace NodeTelemetry.Text.Percent

def hexValue? (b : UInt8) : Option UInt8 := (digit? 16 (Char.ofNat b.toNat)).map UInt8.ofNat

def percentSign : UInt8 := 0x25

def decode : List UInt8 → List UInt8
  | b :: h :: l :: rest =>
    if b = percentSign then
      match hexValue? h, hexValue? l with
      | some hi, some lo => (16 * hi + lo) :: decode rest
      | _, _ => b :: decode (h :: l :: rest)
    else b :: decode (h :: l :: rest)
  | bs => bs

def hexDigit (n : UInt8) : UInt8 := if n < 10 then 0x30 + n else 0x37 + n

def encodeByte (b : UInt8) : List UInt8 := [percentSign, hexDigit (b / 16), hexDigit (b % 16)]

def encode (stands : UInt8 → Bool) : List UInt8 → List UInt8
  | [] => []
  | b :: bs => (if stands b then [b] else encodeByte b) ++ encode stands bs

theorem decode_cons_of_ne {b : UInt8} (h : b ≠ percentSign) (bs : List UInt8) :
    decode (b :: bs) = b :: decode bs := by
  match bs with
  | [] => rfl
  | [_] => rfl
  | _ :: _ :: _ => simp [decode, h]

theorem decode_encodeByte (b : UInt8) (bs : List UInt8) :
    decode (encodeByte b ++ bs) = b :: decode bs := by
  have key : ∀ n : Fin 256,
      hexValue? (hexDigit (UInt8.ofNat n / 16)) = some (UInt8.ofNat n / 16) ∧
        hexValue? (hexDigit (UInt8.ofNat n % 16)) = some (UInt8.ofNat n % 16) ∧
        16 * (UInt8.ofNat n / 16) + UInt8.ofNat n % 16 = UInt8.ofNat n := by decide +kernel
  obtain ⟨hi, lo, sum⟩ := key ⟨b.toNat, b.toNat_lt⟩
  simp only [UInt8.ofNat_toNat] at hi lo sum
  simp [encodeByte, decode, hi, lo, sum]

theorem decode_encode {stands : UInt8 → Bool} (h : stands percentSign = false) (bs : List UInt8) :
    decode (encode stands bs) = bs := by
  induction bs with
  | nil => rfl
  | cons b bs ih =>
    unfold encode
    split
    case isTrue hb =>
      have : b ≠ percentSign := by rintro rfl; simp [h] at hb
      simp [decode_cons_of_ne this, ih]
    case isFalse => rw [decode_encodeByte, ih]

end NodeTelemetry.Text.Percent
