import Mathlib
import NodeTelemetry.Text.Blank
import NodeTelemetry.Text.Digits

namespace NodeTelemetry.Text

variable {base bound n d : Nat} {c : Char} {cs core : List Char}

def smallDigits : List Char := "0123456789abcdefghijklmnopqrstuvwxyz".toList

def capitalDigits : List Char := "0123456789ABCDEFGHIJKLMNOPQRSTUVWXYZ".toList

def DigitOf (base : Nat) (c : Char) (d : Nat) : Prop :=
  d < base ∧ (smallDigits[d]? = some c ∨ capitalDigits[d]? = some c)

instance : Decidable (DigitOf base c d) := inferInstanceAs (Decidable (_ ∧ _))

inductive Numeral (base : Nat) : List Char → Nat → Prop
  | digit {c : Char} {d : Nat} (h : DigitOf base c d) : Numeral base [c] d
  | append {cs : List Char} {c : Char} {n d : Nat} (hn : Numeral base cs n) (h : DigitOf base c d) :
      Numeral base (cs ++ [c]) (n * base + d)

def Writes (base : Nat) (cs : List Char) (n : Nat) : Prop :=
  ∃ digits, Numeral base digits n ∧ (cs = digits ∨ cs = '+' :: digits)

def Padded (cs core : List Char) : Prop :=
  ∃ before after, (∀ c ∈ before, isBlank c) ∧ (∀ c ∈ after, isBlank c) ∧
    cs = before ++ core ++ after

theorem toNat_smallDigits : smallDigits.map Char.toNat =
    (List.range 36).map fun d => if d < 10 then 48 + d else 87 + d := by decide

theorem toNat_capitalDigits : capitalDigits.map Char.toNat =
    (List.range 36).map fun d => if d < 10 then 48 + d else 55 + d := by decide

theorem getElem?_eq_some_iff_toNat {digits : List Char} {value : Nat → Nat}
    (h : digits.map Char.toNat = (List.range 36).map value) :
    digits[d]? = some c ↔ d < 36 ∧ c.toNat = value d := by
  have hplace : digits[d]?.map Char.toNat = (List.range 36)[d]?.map value := by
    rw [← List.getElem?_map, ← List.getElem?_map, h]
  have hlength : digits.length = 36 := by simpa using congrArg List.length h
  by_cases hd : d < 36
  · have hc : digits[d]? = some digits[d] := List.getElem?_eq_getElem (hlength ▸ hd)
    have hvalue : digits[d].toNat = value d := by simpa [hc, hd] using hplace
    rw [hc, Option.some_inj, ← Char.toNat_inj, hvalue]
    exact ⟨fun h => ⟨hd, h.symm⟩, fun h => h.2.symm⟩
  · simp [List.getElem?_eq_none (hlength ▸ Nat.le_of_not_lt hd), hd]

theorem digit?_eq_some_iff : digit? base c = some d ↔ DigitOf base c d := by
  rw [DigitOf, getElem?_eq_some_iff_toNat toNat_smallDigits,
    getElem?_eq_some_iff_toNat toNat_capitalDigits]
  simp only [digit?, Option.filter_eq_some_iff, decide_eq_true_eq]
  grind

theorem digitsFrom?_append (acc : Nat) (xs ys : List Char) :
    digitsFrom? base acc (xs ++ ys) =
      (digitsFrom? base acc xs).bind fun n => digitsFrom? base n ys := by
  induction xs generalizing acc with
  | nil => rfl
  | cons x xs ih =>
    rw [List.cons_append, digitsFrom?, digitsFrom?]
    cases digit? base x with
    | none => rfl
    | some d => exact ih (acc * base + d)

theorem digits?_singleton : digits? base [c] = digit? base c := by
  cases h : digit? base c <;> simp [digits?, digitsFrom?, h]

theorem digits?_concat (hne : cs ≠ []) :
    digits? base (cs ++ [c]) =
      (digits? base cs).bind fun n => (digit? base c).map fun d => n * base + d := by
  have hfrom (n : Nat) : digitsFrom? base n [c] = (digit? base c).map fun d => n * base + d := by
    cases h : digit? base c <;> simp [digitsFrom?, h]
  simp [digits?, hne, digitsFrom?_append, hfrom]

theorem Numeral.ne_nil (h : Numeral base cs n) : cs ≠ [] := by
  cases h <;> simp

theorem digits?_eq_some_iff : digits? base cs = some n ↔ Numeral base cs n := by
  -- Digits are read from the left, but a numeral grows on the right, where the induction takes
  -- them off.
  constructor
  · induction cs using List.reverseRecOn generalizing n with
    | nil => simp [digits?]
    | append_singleton cs c ih =>
      intro h
      by_cases hne : cs = []
      · subst hne
        exact .digit (digit?_eq_some_iff.mp (digits?_singleton ▸ h))
      · rw [digits?_concat hne] at h
        simp only [Option.bind_eq_some_iff, Option.map_eq_some_iff] at h
        obtain ⟨m, hm, d, hd, rfl⟩ := h
        exact .append (ih hm) (digit?_eq_some_iff.mp hd)
  · intro h
    induction h with
    | digit hd => rw [digits?_singleton, digit?_eq_some_iff.mpr hd]
    | append hn hd ih => simp [digits?_concat hn.ne_nil, ih, digit?_eq_some_iff.mpr hd]

theorem DigitOf.toNat (h : DigitOf base c d) :
    48 ≤ c.toNat ∧ c.toNat ≤ 57 ∨ 65 ≤ c.toNat ∧ c.toNat ≤ 90 ∨ 97 ≤ c.toNat ∧ c.toNat ≤ 122 := by
  have h := digit?_eq_some_iff.mpr h
  simp only [digit?, Option.filter_eq_some_iff] at h
  grind

theorem DigitOf.plain (h : DigitOf base c d) : c ≠ '+' ∧ c ≠ '-' ∧ c ≠ ',' ∧ isBlank c = false := by
  have hrange := h.toNat
  refine ⟨?_, ?_, ?_, ?_⟩
  case refine_4 =>
    simp only [isBlank, Bool.or_eq_false_iff, Bool.and_eq_false_iff, decide_eq_false_iff_not,
      beq_eq_false_iff_ne]
    omega
  all_goals
    rintro rfl
    simp at hrange

theorem Numeral.digitOf_of_mem (h : Numeral base cs n) (hc : c ∈ cs) : ∃ d, DigitOf base c d := by
  induction h with
  | digit hd => exact ⟨_, List.mem_singleton.mp hc ▸ hd⟩
  | append hn hd ih =>
    rcases List.mem_append.mp hc with hc | hc
    · exact ih hc
    · exact ⟨_, List.mem_singleton.mp hc ▸ hd⟩

theorem Writes.plus_or_digit (h : Writes base cs n) (hc : c ∈ cs) :
    c = '+' ∨ ∃ d, DigitOf base c d := by
  obtain ⟨digits, hdigits, rfl | rfl⟩ := h
  · exact .inr (hdigits.digitOf_of_mem hc)
  · rcases List.mem_cons.mp hc with rfl | hc
    · exact .inl rfl
    · exact .inr (hdigits.digitOf_of_mem hc)

theorem Writes.plain (h : Writes base cs n) (hc : c ∈ cs) :
    c ≠ '-' ∧ c ≠ ',' ∧ isBlank c = false := by
  rcases h.plus_or_digit hc with rfl | ⟨d, hd⟩
  · decide
  · exact hd.plain.2

theorem Writes.ne_nil (h : Writes base cs n) : cs ≠ [] := by
  obtain ⟨digits, hdigits, rfl | rfl⟩ := h
  · exact hdigits.ne_nil
  · simp

theorem writes_plus : Writes base ('+' :: cs) n ↔ Numeral base cs n := by
  constructor
  · rintro ⟨digits, hdigits, rfl | h⟩
    · obtain ⟨d, hd⟩ := hdigits.digitOf_of_mem List.mem_cons_self
      exact absurd rfl hd.plain.1
    · exact (List.cons.inj h).2 ▸ hdigits
  · exact fun h => ⟨cs, h, .inr rfl⟩

theorem numeral_toDigits (n : Nat) : Numeral 10 (Nat.toDigits 10 n) n := by
  have hdigit : ∀ d < 10, DigitOf 10 (Nat.digitChar d) d := by decide
  induction n using Nat.strongRecOn with
  | ind n ih =>
    by_cases hn : n < 10
    · rw [Nat.toDigits_of_lt_base hn]
      exact .digit (hdigit n hn)
    · have h := Numeral.append (ih (n / 10) (by omega)) (hdigit (n % 10) (Nat.mod_lt n (by decide)))
      rwa [Nat.div_add_mod', ← Nat.toDigits_of_base_le (by decide) (by omega)] at h

theorem writes_toDigits (n : Nat) : Writes 10 (Nat.toDigits 10 n) n :=
  ⟨_, numeral_toDigits n, .inl rfl⟩

theorem natural?_eq_some_iff : natural? base bound cs = some n ↔ Writes base cs n ∧ n < bound := by
  simp only [natural?, Option.filter_eq_some_iff, digits?_eq_some_iff, decide_eq_true_eq]
  split
  case h_1 rest => rw [writes_plus]
  case h_2 hplus =>
    have hwrites : Writes base cs n ↔ Numeral base cs n :=
      ⟨fun ⟨digits, hdigits, h⟩ => h.elim (· ▸ hdigits) fun h => absurd h (hplus digits),
        fun h => ⟨cs, h, .inl rfl⟩⟩
    rw [hwrites]

/-! ### Blanks around a text -/

theorem padded_trim (cs : List Char) : Padded cs (trim cs) := by
  refine ⟨cs.takeWhile isBlank, ((trimLeft cs).reverse.takeWhile isBlank).reverse,
    fun c hc => List.mem_takeWhile_imp hc, fun c hc => ?_, ?_⟩
  · exact List.mem_takeWhile_imp (List.mem_reverse.mp hc)
  · rw [List.append_assoc, trim, trimRight, ← List.reverse_append, List.takeWhile_append_dropWhile,
      List.reverse_reverse, trimLeft, List.takeWhile_append_dropWhile]

theorem dropWhile_append_plain {blanks rest : List Char} (hblanks : ∀ c ∈ blanks, isBlank c)
    (hrest : ∀ c ∈ rest.head?, isBlank c = false) :
    (blanks ++ rest).dropWhile isBlank = rest := by
  rw [List.dropWhile_append_of_pos hblanks]
  cases rest with
  | nil => rfl
  | cons c rest => exact List.dropWhile_cons_of_neg (by simp [hrest c rfl])

theorem trim_eq_of_padded (h : Padded cs core) (hhead : ∀ c ∈ core.head?, isBlank c = false)
    (hlast : ∀ c ∈ core.getLast?, isBlank c = false) : trim cs = core := by
  obtain ⟨before, after, hbefore, hafter, rfl⟩ := h
  cases core with
  | nil =>
    have hblank : ∀ c ∈ before ++ [] ++ after, isBlank c := by
      simpa [or_imp, forall_and] using ⟨hbefore, hafter⟩
    rw [trim, trimLeft, List.dropWhile_eq_nil_iff.mpr hblank]
    rfl
  | cons c core =>
    rw [trim, trimLeft, List.append_assoc, dropWhile_append_plain hbefore (by simpa using hhead),
      trimRight, List.reverse_append, dropWhile_append_plain (by simpa using hafter)
        (by rwa [List.head?_reverse]), List.reverse_reverse]

theorem trim_eq_of_plain (h : Padded cs core) (hplain : ∀ c ∈ core, isBlank c = false) :
    trim cs = core :=
  trim_eq_of_padded h (fun c hc => hplain c (List.mem_of_mem_head? hc))
    fun c hc => hplain c (List.mem_of_mem_getLast? hc)

theorem exists_padded_iff {P : List Char → Prop}
    (hplain : ∀ core, P core → ∀ c ∈ core, isBlank c = false) :
    (∃ core, Padded cs core ∧ P core) ↔ P (trim cs) := by
  constructor
  · rintro ⟨core, hcore, h⟩
    rwa [trim_eq_of_plain hcore (hplain core h)]
  · exact fun h => ⟨_, padded_trim cs, h⟩

theorem natural?_trim_eq_some_iff : natural? base bound (trim cs) = some n ↔
    (∃ core, Padded cs core ∧ Writes base core n) ∧ n < bound := by
  rw [natural?_eq_some_iff, exists_padded_iff fun _ h _ hc => (h.plain hc).2.2]

end NodeTelemetry.Text
