import Mathlib
import NodeTelemetry.Proofs.ListingOrder
import NodeTelemetry.Proofs.Numerals

namespace NodeTelemetry

namespace CpuList

def Names (cs : List Char) (n : Nat) : Prop :=
  (∃ core, Text.Padded cs core ∧ Text.Writes 10 core n) ∧ n < 2 ^ 64

inductive Spans : List Char → Nat → Nat → Prop
  | one {cs : List Char} {n : Nat} (h : Names cs n) : Spans cs n n
  | range {first last : List Char} {a b : Nat} (hfirst : Names first a) (hlast : Names last b)
      (hle : a ≤ b) : Spans (first ++ '-' :: last) a b

def WellFormed (list : String) : Prop :=
  ∀ part ∈ Text.splitOn ',' (Text.trim list.toList), part ≠ [] → ∃ a b, Spans part a b

def Lists (list : String) (n : Nat) : Prop :=
  ∃ part ∈ Text.splitOn ',' (Text.trim list.toList), ∃ a b, Spans part a b ∧ a ≤ n ∧ n ≤ b

def size (r : Nat × Nat) : Nat := r.2 + 1 - r.1

def listed (parts : List (List Char)) : Nat := ((parts.filterMap span?).map size).sum

/-- The vector that takes the numbers up need not grow beyond what can be allocated, even if it grows
to twice their number. -/
def Fits (list : String) : Prop := listed (parts list) < 2 ^ 59

variable {a b n : Nat} {c : Char} {cs part : List Char} {list : String} {cpus ns out : List Nat}

theorem decimal64?_trim_eq_some_iff : Text.decimal64? (Text.trim cs) = some n ↔ Names cs n :=
  Text.natural?_trim_eq_some_iff

theorem Names.dash_not_mem (h : Names cs n) : '-' ∉ cs := by
  obtain ⟨⟨core, ⟨before, after, hbefore, hafter, rfl⟩, hcore⟩, -⟩ := h
  intro hdash
  rcases List.mem_append.mp hdash with hdash | hdash
  · rcases List.mem_append.mp hdash with hdash | hdash
    · exact absurd (hbefore _ hdash) (by decide)
    · exact (hcore.plain hdash).1 rfl
  · exact absurd (hafter _ hdash) (by decide)

theorem Names.ne_nil (h : Names cs n) : cs ≠ [] := by
  obtain ⟨⟨core, ⟨before, after, -, -, rfl⟩, hcore⟩, -⟩ := h
  simp [hcore.ne_nil]

theorem Spans.ne_nil (h : Spans part a b) : part ≠ [] := by
  cases h with
  | one h => exact h.ne_nil
  | range => simp

theorem span?_eq_some_iff : span? part = some (a, b) ↔ Spans part a b := by
  constructor
  · intro h
    unfold span? at h
    split at h
    case h_1 first last hsplit =>
      obtain ⟨rfl, -⟩ := Text.splitAtFirst?_eq_some hsplit
      simp only [Option.bind_eq_bind, Option.bind_eq_some_iff, decimal64?_trim_eq_some_iff] at h
      obtain ⟨a', hfirst, b', hlast, h⟩ := h
      split at h
      case isTrue => cases h
      case isFalse hle =>
        cases h
        exact .range hfirst hlast (Nat.le_of_not_lt hle)
    case h_2 hsplit =>
      simp only [Option.bind_eq_bind, Option.bind_eq_some_iff, decimal64?_trim_eq_some_iff] at h
      obtain ⟨n, hn, h⟩ := h
      cases h
      exact .one hn
  · intro h
    cases h with
    | one h =>
      have hsplit := Text.splitAtFirst?_eq_none_iff.mpr h.dash_not_mem
      simp [span?, hsplit, decimal64?_trim_eq_some_iff.mpr h]
    | @range first last a b hfirst hlast hle =>
      have hsplit : Text.splitAtFirst? '-' (first ++ '-' :: last) = some (first, last) :=
        Text.splitAtFirst?_append_cons hfirst.dash_not_mem
      simp [span?, hsplit, decimal64?_trim_eq_some_iff.mpr hfirst,
        decimal64?_trim_eq_some_iff.mpr hlast, hle]

theorem mem_numbers : n ∈ numbers a b ↔ a ≤ n ∧ n ≤ b := by
  rw [numbers, List.mem_range'_1]
  omega

theorem hasRoom_iff {room : Nat} : 8 * room < UInt64.size / 2 ↔ room < 2 ^ 60 := by
  unfold UInt64.size
  omega

theorem grow?_of_lt {room needed : Nat} (h : needed < 2 ^ 59) :
    ∃ room', grow? room needed = some room' := by
  unfold grow?
  split
  · exact ⟨room, rfl⟩
  · refine ⟨_, if_pos (hasRoom_iff.mpr ?_)⟩
    omega

theorem grow?_lt {room needed room' : Nat} (hroom : room < 2 ^ 60)
    (h : grow? room needed = some room') : room' < 2 ^ 60 := by
  unfold grow? at h
  split at h
  · cases h
    exact hroom
  · dsimp only at h
    split at h
    case isTrue hlt =>
      cases h
      exact hasRoom_iff.mp hlt
    case isFalse => cases h

theorem grow?_of_le {room needed : Nat} (hroom : room < 2 ^ 60) (h : 2 ^ 60 ≤ needed) :
    grow? room needed = none := by
  unfold grow?
  rw [if_neg (by omega)]
  refine if_neg fun hlt => ?_
  have hlt := hasRoom_iff.mp hlt
  omega

def numbersOf (spans : List (Nat × Nat)) : List Nat := spans.flatMap fun r => numbers r.1 r.2

section

variable {room : Nat} {texts : List (List Char)}

theorem collect_eq_ok (h : collect room ns texts = .ok out) :
    ∃ spans, texts.mapM span? = some spans ∧ out = ns ++ numbersOf spans := by
  induction texts generalizing room ns with
  | nil =>
    cases h
    exact ⟨[], rfl, (List.append_nil _).symm⟩
  | cons text texts ih =>
    rw [collect] at h
    split at h
    · cases h
    case h_2 first last hspan =>
      split at h
      · cases h
      · obtain ⟨spans, hspans, rfl⟩ := ih h
        refine ⟨(first, last) :: spans, ?_, ?_⟩
        · rw [List.mapM_cons, hspan, hspans]
          rfl
        · rw [List.append_assoc, numbersOf, numbersOf, List.flatMap_cons]

theorem collect_eq_malformed (h : collect room ns texts = .error .malformed) :
    ∃ text ∈ texts, span? text = none := by
  induction texts generalizing room ns with
  | nil => cases h
  | cons text texts ih =>
    rw [collect] at h
    split at h
    case h_1 hspan => exact ⟨text, List.mem_cons_self, hspan⟩
    case h_2 first last hspan =>
      split at h
      · cases h
      · obtain ⟨bad, hbad, hnone⟩ := ih h
        exact ⟨bad, List.mem_cons_of_mem text hbad, hnone⟩

theorem listed_cons_of_some (hspan : span? part = some (a, b)) :
    listed (part :: texts) = (b + 1 - a) + listed texts := by
  rw [listed, List.filterMap_cons_some hspan, List.map_cons, List.sum_cons]
  rfl

theorem collect_of_fits (hfit : ns.length + listed texts < 2 ^ 59) :
    collect room ns texts = match texts.mapM span? with
      | some spans => .ok (ns ++ numbersOf spans)
      | none => .error .malformed := by
  induction texts generalizing room ns with
  | nil =>
    rw [collect, List.mapM_nil]
    exact congrArg Except.ok (List.append_nil ns).symm
  | cons text texts ih =>
    rw [collect, List.mapM_cons]
    cases hspan : span? text with
    | none => rfl
    | some span =>
      obtain ⟨first, last⟩ := span
      rw [listed_cons_of_some hspan] at hfit
      obtain ⟨room', hroom⟩ : ∃ room', grow? room (ns.length + (last + 1 - first)) = some room' :=
        grow?_of_lt (by omega)
      have hlength : (numbers first last).length = last + 1 - first := List.length_range'
      have hrest : collect room' (ns ++ numbers first last) texts = _ :=
        ih (by rw [List.length_append, hlength]; omega)
      simp only [hroom, hrest]
      cases texts.mapM span? with
      | none => rfl
      | some spans =>
        refine congrArg Except.ok ?_
        rw [List.append_assoc, numbersOf, numbersOf, List.flatMap_cons]

theorem collect_overgrown {before after : List (List Char)} (hroom : room < 2 ^ 60)
    (hbefore : ∀ text ∈ before, ∃ r, span? text = some r) (hspan : span? part = some (a, b))
    (hlarge : 2 ^ 60 ≤ b + 1 - a) :
    collect room ns (before ++ part :: after) = .error .overgrown := by
  induction before generalizing room ns with
  | nil =>
    have hgrow : grow? room (ns.length + (b + 1 - a)) = none := grow?_of_le hroom (by omega)
    simp only [List.nil_append, collect, hspan, hgrow]
  | cons text before ih =>
    obtain ⟨⟨r, hr⟩, hrest⟩ := List.forall_mem_cons.mp hbefore
    simp only [List.cons_append, collect, hr]
    cases hgrow : grow? room (ns.length + (r.2 + 1 - r.1)) with
    | none => rfl
    | some room' => exact ih (grow?_lt hroom hgrow) hrest

end

theorem exists_spans_iff : (∃ spans, (parts list).mapM span? = some spans) ↔ WellFormed list := by
  rw [exists_mapM_iff]
  simp only [parts, List.mem_filter, and_imp, Prod.exists, span?_eq_some_iff, WellFormed]
  simp

theorem mem_numbersOf {spans : List (Nat × Nat)} (h : (parts list).mapM span? = some spans) :
    n ∈ numbersOf spans ↔ Lists list n := by
  rw [numbersOf, List.mem_flatMap]
  simp only [mem_iff_of_mapM h, Prod.exists, mem_numbers, span?_eq_some_iff, parts,
    List.mem_filter]
  constructor
  · rintro ⟨a, b, ⟨part, ⟨hpart, -⟩, hspan⟩, hn⟩
    exact ⟨part, hpart, a, b, hspan, hn⟩
  · rintro ⟨part, hpart, a, b, hspan, hn⟩
    exact ⟨a, b, ⟨part, ⟨hpart, by simp [hspan.ne_nil]⟩, hspan⟩, hn⟩

theorem parseList_ok (h : Topology.parseList list = .ok cpus) :
    WellFormed list ∧ cpus.Pairwise (· < ·) ∧ ∀ n, n ∈ cpus ↔ Lists list n := by
  have hparse := Topology.parseList_eq_ok_iff.mp h
  obtain ⟨ns, hns, rfl⟩ := parse_eq_ok_iff.mp (parse?_eq_some_iff.mp hparse)
  obtain ⟨spans, hspans, rfl⟩ := collect_eq_ok hns
  refine ⟨exists_spans_iff.mp ⟨spans, hspans⟩, sorted_of_parse? hparse, fun n => ?_⟩
  rw [(normalize_sorted _).2]
  exact mem_numbersOf hspans

theorem parse_of_fits (hfits : Fits list) :
    parse list = match (parts list).mapM span? with
      | some spans => .ok (normalize (numbersOf spans))
      | none => .error .malformed := by
  have hcollect : collect 0 [] (parts list) = _ :=
    collect_of_fits (by rwa [List.length_nil, Nat.zero_add])
  rw [parse, hcollect]
  cases (parts list).mapM span? <;> rfl

theorem not_wellFormed_of_malformed (h : parse list = .error .malformed) : ¬ WellFormed list := by
  intro hwell
  obtain ⟨spans, hspans⟩ := exists_spans_iff.mpr hwell
  obtain ⟨text, htext, hnone⟩ := collect_eq_malformed (parse_eq_error_iff.mp h)
  rw [mapM_eq_none_of_mem htext hnone] at hspans
  cases hspans

theorem not_fits_of_overgrown (h : parse list = .error .overgrown) : ¬ Fits list := by
  intro hfits
  rw [parse_of_fits hfits] at h
  split at h <;> cases h

theorem parseList_cases (list : String) :
    (∃ cpus, Topology.parseList list = .ok cpus) ∧ WellFormed list ∨
      Topology.parseList list = .error (.badList list) ∧ ¬ WellFormed list ∨
      Topology.parseList list = .error .overgrown ∧ ¬ Fits list := by
  cases hparse : parse list with
  | ok cpus =>
    have hread : Topology.parseList list = .ok cpus := by rw [Topology.parseList, hparse]
    exact .inl ⟨⟨cpus, hread⟩, (parseList_ok hread).1⟩
  | error fault =>
    cases fault with
    | malformed =>
      refine .inr (.inl ⟨?_, not_wellFormed_of_malformed hparse⟩)
      rw [Topology.parseList, hparse]
    | overgrown =>
      refine .inr (.inr ⟨?_, not_fits_of_overgrown hparse⟩)
      rw [Topology.parseList, hparse]

theorem parseList_overgrown {before after : List (List Char)}
    (hparts : parts list = before ++ part :: after)
    (hbefore : ∀ text ∈ before, ∃ a b, Spans text a b) (hspan : Spans part a b)
    (hlarge : 2 ^ 60 ≤ b + 1 - a) : Topology.parseList list = .error .overgrown := by
  have hcollect : collect 0 [] (parts list) = .error .overgrown := by
    rw [hparts]
    refine collect_overgrown (by decide) (fun text htext => ?_) (span?_eq_some_iff.mpr hspan) hlarge
    obtain ⟨a, b, hspan⟩ := hbefore text htext
    exact ⟨(a, b), span?_eq_some_iff.mpr hspan⟩
  rw [Topology.parseList, parse_eq_error_iff.mpr hcollect]

structure MaximalRanges (s : Set Nat) (ranges : List (Nat × Nat)) : Prop where
  first_le_last : ∀ r ∈ ranges, r.1 ≤ r.2
  apart : ranges.Pairwise fun r next => r.2 + 1 < next.1
  mem_iff : ∀ n, n ∈ s ↔ ∃ r ∈ ranges, r.1 ≤ n ∧ n ≤ r.2

def putFirst (n : Nat) : List (Nat × Nat) → List (Nat × Nat)
  | [] => [(n, n)]
  | (first, last) :: ranges =>
    if first = n + 1 then (n, last) :: ranges else (n, n) :: (first, last) :: ranges

def runs (ns : List Nat) : List (Nat × Nat) := ns.foldr putFirst []

def rangeText (r : Nat × Nat) : String :=
  if r.1 = r.2 then toString r.1 else toString r.1 ++ "-" ++ toString r.2

def kernelText (s : Finset Nat) : String :=
  ",".intercalate ((runs (s.sort (· ≤ ·))).map rangeText)

theorem MaximalRanges.below {s : Set Nat} {ranges : List (Nat × Nat)} (h : MaximalRanges s ranges)
    (hn : ∀ m ∈ s, n < m) : ∀ r ∈ ranges, n < r.1 := fun r hr =>
  hn r.1 ((h.mem_iff r.1).mpr ⟨r, hr, le_rfl, h.first_le_last r hr⟩)

theorem MaximalRanges.putFirst {s : Set Nat} {ranges : List (Nat × Nat)}
    (h : MaximalRanges s ranges) (hn : ∀ m ∈ s, n < m) :
    MaximalRanges (insert n s) (putFirst n ranges) := by
  have hbelow := h.below hn
  have hself (m : Nat) : m = n ↔ n ≤ m ∧ m ≤ n := by omega
  obtain ⟨hle, hapart, hmem⟩ := h
  unfold CpuList.putFirst
  split
  case h_1 =>
    refine ⟨by simp, List.pairwise_singleton _ _, fun m => ?_⟩
    simp only [Set.mem_insert_iff, hmem, List.exists_mem_cons_iff, hself]
  case h_2 first last ranges =>
    obtain ⟨hfirst, hle'⟩ := List.forall_mem_cons.mp hle
    obtain ⟨hnext, hbelow'⟩ := List.forall_mem_cons.mp hbelow
    obtain ⟨hgap, hranges⟩ := List.pairwise_cons.mp hapart
    simp only [List.exists_mem_cons_iff] at hmem
    split
    case isTrue hadjacent =>
      refine ⟨List.forall_mem_cons.mpr ⟨?_, hle'⟩, List.pairwise_cons.mpr ⟨hgap, hranges⟩,
        fun m => ?_⟩
      · omega
      · simp only [Set.mem_insert_iff, hmem, List.exists_mem_cons_iff]
        rw [← or_assoc]
        refine or_congr_left ?_
        omega
    case isFalse hseparate =>
      refine ⟨List.forall_mem_cons.mpr ⟨le_rfl, hle⟩, List.pairwise_cons.mpr ⟨?_, hapart⟩,
        fun m => ?_⟩
      · refine List.forall_mem_cons.mpr ⟨by omega, fun r hr => ?_⟩
        have := hgap r hr
        omega
      · simp only [Set.mem_insert_iff, hmem, List.exists_mem_cons_iff, hself]

theorem maximalRanges_runs (h : ns.Pairwise (· < ·)) : MaximalRanges {n | n ∈ ns} (runs ns) := by
  induction ns with
  | nil => exact ⟨by simp [runs], .nil, by simp [runs]⟩
  | cons n ns ih =>
    obtain ⟨hfirst, hrest⟩ := List.pairwise_cons.mp h
    have hset : {m | m ∈ n :: ns} = insert n {m | m ∈ ns} := by
      ext m
      simp
    rw [hset]
    exact (ih hrest).putFirst hfirst

theorem sum_size_putFirst {ranges : List (Nat × Nat)} (h : ∀ r ∈ ranges, r.1 ≤ r.2) (n : Nat) :
    ((putFirst n ranges).map size).sum = (ranges.map size).sum + 1 := by
  unfold putFirst
  split
  · simp [size]
  case h_2 first last ranges =>
    have hle : first ≤ last := h (first, last) List.mem_cons_self
    split
    · simp only [List.map_cons, List.sum_cons, size]
      omega
    · simp only [List.map_cons, List.sum_cons, size]
      omega

theorem sum_size_runs (h : ns.Pairwise (· < ·)) : ((runs ns).map size).sum = ns.length := by
  induction ns with
  | nil => rfl
  | cons n ns ih =>
    obtain ⟨-, hrest⟩ := List.pairwise_cons.mp h
    have hput := sum_size_putFirst (maximalRanges_runs hrest).first_le_last n
    rw [ih hrest] at hput
    exact hput

theorem toList_rangeText (r : Nat × Nat) : (rangeText r).toList =
    if r.1 = r.2 then Nat.toDigits 10 r.1
    else Nat.toDigits 10 r.1 ++ '-' :: Nat.toDigits 10 r.2 := by
  unfold rangeText
  split <;> simp [Nat.toString_eq_repr, Nat.repr]

theorem rangeText_plain {r : Nat × Nat} (hc : c ∈ (rangeText r).toList) :
    c ≠ ',' ∧ Text.isBlank c = false := by
  rw [toList_rangeText] at hc
  split at hc
  case isTrue => exact ((Text.writes_toDigits _).plain hc).2
  case isFalse =>
    rcases List.mem_append.mp hc with hc | hc
    · exact ((Text.writes_toDigits _).plain hc).2
    · rcases List.mem_cons.mp hc with rfl | hc
      · decide
      · exact ((Text.writes_toDigits _).plain hc).2

theorem names_toDigits (h : n < 2 ^ 64) : Names (Nat.toDigits 10 n) n :=
  ⟨⟨_, ⟨[], [], by simp, by simp, by simp⟩, Text.writes_toDigits n⟩, h⟩

theorem spans_rangeText {r : Nat × Nat} (hle : r.1 ≤ r.2) (hlt : r.2 < 2 ^ 64) :
    Spans (rangeText r).toList r.1 r.2 := by
  rw [toList_rangeText]
  split
  case isTrue heq => exact heq ▸ .one (names_toDigits (heq ▸ hlt))
  case isFalse => exact .range (names_toDigits (hle.trans_lt hlt)) (names_toDigits hlt) hle

theorem mem_intercalate {sep : Char} {parts : List (List Char)}
    (h : c ∈ List.intercalate [sep] parts) : c = sep ∨ ∃ part ∈ parts, c ∈ part := by
  induction parts with
  | nil => simp at h
  | cons part parts ih =>
    cases parts with
    | nil => exact .inr ⟨part, List.mem_cons_self, by rwa [List.intercalate_singleton] at h⟩
    | cons next parts =>
      rw [List.intercalate_cons_cons, List.append_assoc, List.singleton_append] at h
      rcases List.mem_append.mp h with h | h
      · exact .inr ⟨part, List.mem_cons_self, h⟩
      · rcases List.mem_cons.mp h with h | h
        · exact .inl h
        · rcases ih h with h | ⟨other, hother, h⟩
          · exact .inl h
          · exact .inr ⟨other, List.mem_cons_of_mem _ hother, h⟩

section

variable {ranges : List (Nat × Nat)} {ending : String}

theorem trim_kernelText (hending : ∀ c ∈ ending.toList, Text.isBlank c) :
    Text.trim (",".intercalate (ranges.map rangeText) ++ ending).toList =
      List.intercalate [','] (ranges.map fun r => (rangeText r).toList) := by
  rw [String.toList_append, String.toList_intercalate, List.map_map]
  refine Text.trim_eq_of_plain ⟨[], ending.toList, by simp, hending, rfl⟩ fun c hc => ?_
  rcases mem_intercalate hc with rfl | ⟨part, hpart, hc⟩
  · decide
  · obtain ⟨r, -, rfl⟩ := List.mem_map.mp hpart
    exact (rangeText_plain hc).2

theorem parts_ranges (hranges : ∀ r ∈ ranges, r.1 ≤ r.2 ∧ r.2 < 2 ^ 64)
    (hending : ∀ c ∈ ending.toList, Text.isBlank c) :
    parts (",".intercalate (ranges.map rangeText) ++ ending) =
      ranges.map fun r => (rangeText r).toList := by
  rw [parts, trim_kernelText hending]
  cases ranges with
  -- Without ranges there is one part, and nothing in it.
  | nil => simp [Text.splitOn]
  | cons first ranges =>
    have hcomma : ∀ text ∈ (first :: ranges).map fun r => (rangeText r).toList, ',' ∉ text := by
      intro text htext hc
      obtain ⟨r, -, rfl⟩ := List.mem_map.mp htext
      exact (rangeText_plain hc).1 rfl
    rw [Text.splitOn_intercalate (by simp) hcomma, List.filter_eq_self]
    intro text htext
    obtain ⟨r, hr, rfl⟩ := List.mem_map.mp htext
    have hspan := spans_rangeText (hranges r hr).1 (hranges r hr).2
    simp [hspan.ne_nil]

theorem parseList_ranges {s : Finset Nat} (hs : ∀ n ∈ s, n < 2 ^ 64)
    (hranges : MaximalRanges s ranges) (hfits : (ranges.map size).sum < 2 ^ 59)
    (hending : ∀ c ∈ ending.toList, Text.isBlank c) :
    Topology.parseList (",".intercalate (ranges.map rangeText) ++ ending) =
      .ok (s.sort (· ≤ ·)) := by
  have hbounds : ∀ r ∈ ranges, r.1 ≤ r.2 ∧ r.2 < 2 ^ 64 := fun r hr =>
    have hle := hranges.first_le_last r hr
    ⟨hle, hs r.2 ((hranges.mem_iff r.2).mpr ⟨r, hr, hle, le_rfl⟩)⟩
  have hspans : (ranges.map fun r => (rangeText r).toList).mapM span? = some ranges := by
    rw [mapM_eq_some_iff, List.map_map]
    refine List.map_congr_left fun r hr => ?_
    exact span?_eq_some_iff.mpr (spans_rangeText (hbounds r hr).1 (hbounds r hr).2)
  have hparts := parts_ranges hbounds hending
  have hlisted : listed (ranges.map fun r => (rangeText r).toList) = (ranges.map size).sum := by
    rw [listed, filterMap_of_mapM hspans]
  have hfit : Fits (",".intercalate (ranges.map rangeText) ++ ending) := by
    rwa [Fits, hparts, hlisted]
  have hparse := parse_of_fits hfit
  rw [hparts, hspans] at hparse
  have hmem : ∀ n, n ∈ normalize (numbersOf ranges) ↔ n ∈ s.sort (· ≤ ·) := by
    intro n
    rw [(normalize_sorted _).2, Finset.mem_sort, ← Finset.mem_coe, hranges.mem_iff, numbersOf,
      List.mem_flatMap]
    simp only [mem_numbers]
  rw [Topology.parseList, hparse]
  exact congrArg Except.ok ((List.sortedLT_iff_pairwise.mpr (normalize_sorted _).1).eq_of_mem_iff
    s.sortedLT_sort fun {n} => hmem n)

end

/-- A list of processors whose numbers are not too many is read exactly if each part of it between
commas, unless empty, is a number or a range; the processors are all that the parts name, in ascending
order. A range of `2 ^ 60` processors or more breaks the reader down, unless a malformed part comes
first. What the kernel prints for a set of processors is read as that set. -/
theorem processor_lists_are_read (list : String) (s : Finset Nat) :
    ((∃ cpus, Topology.parseList list = .ok cpus) ∧ WellFormed list ∨
      Topology.parseList list = .error (.badList list) ∧ ¬ WellFormed list ∨
      Topology.parseList list = .error .overgrown ∧ ¬ Fits list) ∧
    (∀ cpus, Topology.parseList list = .ok cpus →
      cpus.Pairwise (· < ·) ∧ ∀ n, n ∈ cpus ↔ Lists list n) ∧
    (∀ before part after a b, parts list = before ++ part :: after →
      (∀ text ∈ before, ∃ a b, Spans text a b) → Spans part a b → 2 ^ 60 ≤ b + 1 - a →
      Topology.parseList list = .error .overgrown) ∧
    MaximalRanges s (runs (s.sort (· ≤ ·))) ∧
    (s.card < 2 ^ 59 → (∀ n ∈ s, n < 2 ^ 64) → ∀ ending ∈ ["", "\n"],
      Topology.parseList (kernelText s ++ ending) = .ok (s.sort (· ≤ ·))) := by
  have hmax : MaximalRanges s (runs (s.sort (· ≤ ·))) := by
    have hmax := maximalRanges_runs s.sortedLT_sort.pairwise
    simpa using hmax
  refine ⟨parseList_cases list, fun cpus hcpus => (parseList_ok hcpus).2,
    fun before part after a b => parseList_overgrown, hmax, ?_⟩
  intro hcard hs ending hending
  have hfits : ((runs (s.sort (· ≤ ·))).map size).sum < 2 ^ 59 := by
    rwa [sum_size_runs s.sortedLT_sort.pairwise, Finset.length_sort]
  refine parseList_ranges hs hmax hfits fun c hc => ?_
  have hc : c = '\n' := by
    rcases List.mem_pair.mp hending with rfl | rfl
    · simp at hc
    · simpa using hc
  rw [hc]
  decide

theorem five_processors_are_read_back :
    kernelText [0, 1, 8, 10, 11].toFinset = "0-1,8,10-11" ∧
    Topology.parseList ("0-1,8,10-11" ++ "\n") = .ok [0, 1, 8, 10, 11] ∧
      ∀ n, n ∈ [0, 1, 8, 10, 11] ↔ Lists ("0-1,8,10-11" ++ "\n") n := by
  have hsort : [0, 1, 8, 10, 11].toFinset.sort (· ≤ ·) = [0, 1, 8, 10, 11] :=
    (List.toFinset_sort (· ≤ ·) (by decide)).mpr (by decide)
  have htext : kernelText [0, 1, 8, 10, 11].toFinset = "0-1,8,10-11" := by
    rw [kernelText, hsort]
    rfl
  obtain ⟨-, hlists, -, -, hread⟩ :=
    processor_lists_are_read ("0-1,8,10-11" ++ "\n") [0, 1, 8, 10, 11].toFinset
  have hcpus := hread (by decide) (by decide) "\n" (by decide)
  rw [htext, hsort] at hcpus
  exact ⟨htext, hcpus, (hlists _ hcpus).2⟩

/-- All numbers of 64 bits are too many for a vector, so that a malformed part behind them is not
found, and without it they are not read either. -/
theorem all_numbers_outgrow :
    ¬ WellFormed "0-18446744073709551615,x" ∧
    Topology.parseList "0-18446744073709551615,x" = .error .overgrown ∧
    WellFormed "0-18446744073709551615" ∧
    Topology.parseList "0-18446744073709551615" = .error .overgrown := by
  refine ⟨?_, by decide +kernel, ?_, by decide +kernel⟩
  · intro h
    obtain ⟨spans, hspans⟩ := exists_spans_iff.mpr h
    have hnone : (parts "0-18446744073709551615,x").mapM span? = none := by decide +kernel
    rw [hnone] at hspans
    cases hspans
  · exact exists_spans_iff.mp ⟨[(0, 18446744073709551615)], by decide +kernel⟩

end CpuList

end NodeTelemetry
