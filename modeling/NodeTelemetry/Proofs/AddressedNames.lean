import Mathlib
import NodeTelemetry.Client
import NodeTelemetry.Proofs.AttributeEffects
import NodeTelemetry.Proofs.PercentCodes

namespace NodeTelemetry

theorem eq_of_sublist_of_bytes {xs ys : List Char} (h : xs.Sublist ys)
    (hle : (ys.flatMap String.utf8EncodeChar).length ≤ (xs.flatMap String.utf8EncodeChar).length) :
    xs = ys := by
  have hlength : ∀ c : Char, 0 < (String.utf8EncodeChar c).length := by
    intro c
    rw [String.length_utf8EncodeChar]
    exact c.utf8Size_pos
  induction h with
  | slnil => rfl
  | @cons xs ys c h ih =>
    have hsub := (h.flatMap String.utf8EncodeChar).length_le
    have hc := hlength c
    rw [List.flatMap_cons, List.length_append] at hle
    omega
  | @cons_cons xs ys c h ih =>
    simp only [List.flatMap_cons, List.length_append, Nat.add_le_add_iff_left] at hle
    rw [ih hle]

namespace Client

open Text

def counting (attr : String) : List Char :=
  let cs := attr.toList.rdropWhile fun c => c.toNat ≤ 0x20
  let cs := cs.filter fun c => c != '\t' && c != '\n' && c != '\r'
  cs.takeWhile fun c => c != '?' && c != '#'

def slashed (c : Char) : Char := if c = '\\' then '/' else c

def names (attr : String) : List String :=
  resolveDots [] ((splitOn '/' ((counting attr).map slashed)).map String.ofList)

def encoded (name : String) : List Char :=
  (Percent.encode standsInPath (bytes name)).map fun b => Char.ofNat b.toNat

theorem path_eq (attr : String) :
    path attr = '/' :: List.intercalate ['/'] ((names attr).map encoded) := rfl

def Addresses (attr name : String) : Prop :=
  ∃ segment, Http.Route.ofPath? (path attr) = some (.named segment) ∧
    Http.segmentName? segment = some name

/-- An address says what the name says. -/
structure Plain (attr : String) : Prop where
  last : ∀ c ∈ attr.toList.getLast?, 0x20 < c.toNat
  chars : ∀ c ∈ attr.toList, c ∉ ['\t', '\n', '\r', '?', '#', '\\']
  not_dots : ¬ isDot attr ∧ ¬ isDoubleDot attr
  not_escaped : ¬ Percent.Escapes (bytes attr)
  not_metrics : attr ≠ "vars"

variable {attr name : String}

theorem counting_sublist (attr : String) : (counting attr).Sublist attr.toList :=
  ((List.takeWhile_prefix _).sublist.trans List.filter_sublist).trans
    (List.rdropWhile_prefix _ _).sublist

theorem counting_eq_iff : counting attr = attr.toList ↔
    (∀ c ∈ attr.toList.getLast?, 0x20 < c.toNat) ∧
      ∀ c ∈ attr.toList, c ∉ ['\t', '\n', '\r', '?', '#'] := by
  let trimmed := attr.toList.rdropWhile fun c => c.toNat ≤ 0x20
  let filtered := trimmed.filter fun c => c != '\t' && c != '\n' && c != '\r'
  have htrimmed : trimmed.Sublist attr.toList := (List.rdropWhile_prefix _ _).sublist
  have hfiltered : filtered.Sublist trimmed := List.filter_sublist
  have htaken : (counting attr).Sublist filtered := (List.takeWhile_prefix _).sublist
  constructor
  · intro h
    rw [h] at htaken
    have heq : filtered = attr.toList := (hfiltered.trans htrimmed).antisymm htaken
    rw [heq] at hfiltered htaken
    have hend : trimmed = attr.toList := htrimmed.antisymm hfiltered
    have hkept : filtered = trimmed := heq.trans hend.symm
    have hwhole : filtered.takeWhile (fun c => c != '?' && c != '#') = filtered := h.trans heq.symm
    constructor
    · intro c hc
      obtain ⟨hne, rfl⟩ := List.mem_getLast?_eq_getLast hc
      have hblank := List.rdropWhile_eq_self_iff.mp hend hne
      simpa using hblank
    · intro c hc
      rw [← hend] at hc
      have hbreak := List.filter_eq_self.mp hkept c hc
      rw [← hkept] at hc
      have hquery := List.takeWhile_eq_self_iff.mp hwhole c hc
      simp_all
  · rintro ⟨hlast, hchars⟩
    have hend : trimmed = attr.toList := by
      apply List.rdropWhile_eq_self_iff.mpr
      intro hne
      have hc := hlast _ (List.getLast_mem_getLast? hne)
      simpa using hc
    have hkept : filtered = trimmed := by
      apply List.filter_eq_self.mpr
      intro c hc
      rw [hend] at hc
      have hc := hchars c hc
      simp_all
    have hwhole : counting attr = filtered := by
      apply List.takeWhile_eq_self_iff.mpr
      intro c (hc : c ∈ filtered)
      rw [hkept, hend] at hc
      have hc := hchars c hc
      simp_all
    rw [hwhole, hkept, hend]

theorem mem_resolveDots {done segments : List String} (h : name ∈ resolveDots done segments) :
    name ∈ done ∨ name ∈ segments ∨ name = "" := by
  induction segments generalizing done with
  | nil => exact .inl (List.mem_reverse.mp h)
  | cons s segments ih =>
    have hdone : ∀ {name}, name ∈ (if isDot s then done
        else if isDoubleDot s then done.tail else s :: done) →
        name ∈ done ∨ name ∈ s :: segments := by
      intro name hname
      split_ifs at hname
      · exact .inl hname
      · exact .inl (List.mem_of_mem_tail hname)
      · rcases List.mem_cons.mp hname with rfl | hname
        · exact .inr List.mem_cons_self
        · exact .inl hname
    unfold resolveDots at h
    dsimp only at h
    split at h
    · rw [List.mem_reverse] at h
      rcases List.mem_cons.mp h with rfl | h
      · exact .inr (.inr rfl)
      · exact (hdone h).imp_right .inl
    · rcases ih h with h | h | h
      · exact (hdone h).imp_right .inl
      · exact .inr (.inl (List.mem_cons_of_mem s h))
      · exact .inr (.inr h)

theorem resolveDots_one (s : String) :
    resolveDots [] [s] = if isDot s ∨ isDoubleDot s then [""] else [s] := by
  by_cases hdot : isDot s
  · simp [resolveDots, hdot]
  · by_cases hdouble : isDoubleDot s
    · simp [resolveDots, hdot, hdouble]
    · simp [resolveDots, hdot, hdouble]

theorem sublist_of_splitOn {sep : Char} {cs part : List Char} (h : part ∈ splitOn sep cs) :
    part.Sublist cs := by
  induction cs generalizing part with
  | nil =>
    rw [List.mem_singleton.mp h]
  | cons c cs ih =>
    unfold splitOn at h
    split at h
    · rcases List.mem_cons.mp h with rfl | h
      · exact List.nil_sublist _
      · exact (ih h).cons c
    · split at h
      case h_1 he => exact absurd he (splitOn_ne_nil sep cs)
      case h_2 first parts he =>
        rw [he] at ih
        rcases List.mem_cons.mp h with rfl | h
        · exact (ih List.mem_cons_self).cons_cons c
        · exact (ih (List.mem_cons_of_mem first h)).cons c

theorem named_iff {cs segment : List Char} :
    Http.Route.ofPath? ('/' :: cs) = some (.named segment) ↔
      cs = segment ∧ cs ≠ [] ∧ cs ≠ "vars".toList ∧ '/' ∉ cs := by
  change (if cs.isEmpty then some Http.Route.index
    else if cs = "vars".toList then some .metrics
    else if '/' ∈ cs then none else some (.named cs)) = some (.named segment) ↔ _
  split_ifs with hempty hmetrics hslash
  · simp_all
  · simp_all
  · simp_all
  · simp_all

theorem eq_singleton_of_intercalate {ns : List String}
    (hne : List.intercalate ['/'] (ns.map encoded) ≠ [])
    (hslash : '/' ∉ List.intercalate ['/'] (ns.map encoded)) : ∃ name, ns = [name] := by
  match ns with
  | [] => exact absurd rfl hne
  | [name] => exact ⟨name, rfl⟩
  | name :: name' :: ns =>
    rw [List.map_cons, List.map_cons, List.intercalate_cons_cons] at hslash
    simp at hslash

theorem ascii_of_mem_encode {b : UInt8} {bs : List UInt8}
    (h : b ∈ Percent.encode standsInPath bs) : b.toNat < 128 := by
  rcases Percent.mem_encode h with ⟨-, hstands⟩ | ⟨c, -, hbyte⟩
  · simp only [standsInPath, Bool.and_eq_true, decide_eq_true_eq] at hstands
    omega
  · exact (Percent.mem_encodeByte hbyte).1

theorem segmentName?_encoded (name : String) :
    Http.segmentName? (encoded name) = ofBytes? (Percent.decode (bytes name)) := by
  have hhex : ∀ b, Percent.isHex b → standsInPath b := by
    have hall : ∀ n : Fin 256, Percent.isHex (UInt8.ofNat n) → standsInPath (UInt8.ofNat n) := by
      decide +kernel
    intro b
    have hb := hall ⟨b.toNat, b.toNat_lt⟩
    simpa only [UInt8.ofNat_toNat] using hb
  rw [Http.segmentName?, encoded, bytes_of_ascii fun b hb => ascii_of_mem_encode hb,
    Percent.decode_encode_of_stands (by decide) hhex]

theorem map_slashed {cs : List Char} (h : '\\' ∉ cs) : cs.map slashed = cs := by
  have hsame : ∀ c ∈ cs, slashed c = id c := by
    intro c hc
    apply if_neg
    rintro rfl
    exact h hc
  exact (List.map_congr_left hsame).trans (List.map_id cs)

theorem backslash_not_mem {cs : List Char} (h : '/' ∉ cs.map slashed) : '\\' ∉ cs := by
  intro hmem
  apply h
  exact List.mem_map.mpr ⟨'\\', hmem, rfl⟩

theorem sublist_of_mem_names (h : name ∈ names attr) (hne : name ≠ "") :
    name.toList.Sublist (counting attr) ∧ '\\' ∉ name.toList := by
  rcases mem_resolveDots h with h | h | h
  · cases h
  · obtain ⟨part, hpart, rfl⟩ := List.mem_map.mp h
    rw [String.toList_ofList]
    obtain ⟨cs, hcs, rfl⟩ := List.sublist_map_iff.mp (sublist_of_splitOn hpart)
    have hback : '\\' ∉ cs := backslash_not_mem (not_mem_of_mem_splitOn hpart)
    rw [map_slashed hback]
    exact ⟨hcs, hback⟩
  · exact absurd h hne

theorem not_mem_encoded (h : '/' ∉ name.toList) : '/' ∉ encoded name := by
  intro hmem
  obtain ⟨b, hb, hslash⟩ := List.mem_map.mp hmem
  have hcode := utf8EncodeChar_ofNat (ascii_of_mem_encode hb)
  rw [hslash] at hcode
  have hbyte : 0x2F = b := (List.cons.inj hcode).1
  subst hbyte
  rcases Percent.mem_encode hb with ⟨hb, -⟩ | ⟨c, -, hbyte⟩
  · rw [bytes_eq_flatMap, List.mem_flatMap] at hb
    obtain ⟨c, hc, hbyte⟩ := hb
    have hchar : c = '/' := Char.toNat_inj.mp (toNat_eq_of_mem_utf8EncodeChar (by decide) hbyte)
    rw [hchar] at hc
    exact h hc
  · exact (Percent.mem_encodeByte hbyte).2 rfl

theorem names_of_counting (h : counting attr = attr.toList) (hslash : '/' ∉ attr.toList)
    (hback : '\\' ∉ attr.toList) : names attr = resolveDots [] [attr] := by
  rw [names, h, map_slashed hback, splitOn_of_not_mem hslash, List.map_singleton,
    String.ofList_toList]

theorem decode_bytes (h : ¬ Percent.Escapes (bytes attr)) :
    Percent.decode (bytes attr) = bytes attr := by
  rcases Percent.length_decode (bytes attr) with ⟨-, heq⟩ | ⟨hescapes, -⟩
  · exact heq
  · exact absurd hescapes h

theorem addresses_of_plain (hne : attr ≠ "") (hslash : '/' ∉ attr.toList) (h : Plain attr) :
    Addresses attr attr := by
  have hcounting : counting attr = attr.toList := by
    apply counting_eq_iff.mpr
    refine ⟨h.last, ?_⟩
    intro c hc hmem
    apply h.chars c hc
    exact List.mem_append_left ['\\'] hmem
  have hback : '\\' ∉ attr.toList := fun hmem => h.chars _ hmem (by decide)
  have hnames : names attr = [attr] := by
    rw [names_of_counting hcounting hslash hback, resolveDots_one, if_neg]
    exact not_or.mpr h.not_dots
  have hname : Http.segmentName? (encoded attr) = some attr := by
    rw [segmentName?_encoded, decode_bytes h.not_escaped, ofBytes?_bytes]
  refine ⟨encoded attr, ?_, hname⟩
  rw [path_eq, hnames, List.map_singleton, List.intercalate_singleton, named_iff]
  refine ⟨rfl, ?_, ?_, not_mem_encoded hslash⟩
  · intro hnil
    rw [hnil] at hname
    exact hne (Option.some.inj hname).symm
  · intro hvars
    rw [hvars] at hname
    have hmetrics : Http.segmentName? "vars".toList = some "vars" := by decide +kernel
    rw [hmetrics] at hname
    exact h.not_metrics (Option.some.inj hname).symm

theorem plain_of_addresses (hne : attr ≠ "") (hslash : '/' ∉ attr.toList)
    (h : Addresses attr attr) : Plain attr := by
  obtain ⟨segment, hroute, hsegment⟩ := h
  rw [path_eq, named_iff] at hroute
  obtain ⟨rfl, hfull, hvars, hinside⟩ := hroute
  obtain ⟨name, hnames⟩ := eq_singleton_of_intercalate hfull hinside
  rw [hnames, List.map_singleton, List.intercalate_singleton] at hfull hvars hsegment
  rw [segmentName?_encoded] at hsegment
  have hdecode : Percent.decode (bytes name) = bytes attr := eq_bytes_of_ofBytes? hsegment
  have hnamed : name ≠ "" := by
    rintro rfl
    exact hfull rfl
  obtain ⟨hsub, hback⟩ : name.toList.Sublist (counting attr) ∧ '\\' ∉ name.toList :=
    sublist_of_mem_names (by rw [hnames]; exact List.mem_singleton_self name) hnamed
  -- Decoding adds no bytes and the address no characters, so that neither takes any away.
  have hlength := Percent.length_decode (bytes name)
  rw [hdecode] at hlength
  have heq : name.toList = attr.toList := by
    apply eq_of_sublist_of_bytes (hsub.trans (counting_sublist attr))
    rw [← bytes_eq_flatMap, ← bytes_eq_flatMap]
    rcases hlength with ⟨-, heq⟩ | ⟨-, hlt⟩
    · rw [heq]
    · exact hlt.le
  have hname : name = attr := String.toList_injective heq
  subst hname
  have hcounting : counting name = name.toList := (counting_sublist name).antisymm hsub
  obtain ⟨hlast, hchars⟩ := counting_eq_iff.mp hcounting
  rw [names_of_counting hcounting hslash hback, resolveDots_one] at hnames
  constructor
  · exact hlast
  · intro c hc hmem
    have hmem : c ∈ ['\t', '\n', '\r', '?', '#'] ++ ['\\'] := hmem
    rcases List.mem_append.mp hmem with hmem | hmem
    · exact hchars c hc hmem
    · rw [List.mem_singleton.mp hmem] at hc
      exact hback hc
  · apply not_or.mp
    intro hdots
    rw [if_pos hdots] at hnames
    exact hne (List.cons.inj hnames).1.symm
  · rcases hlength with ⟨hnone, -⟩ | ⟨-, hlt⟩
    · exact hnone
    · exact absurd hlt (lt_irrefl _)
  · rintro rfl
    exact hvars (by decide +kernel)

variable {r : ClientRequest}

theorem exchange_read (h : Addresses r.attr name) (hv : r.value = none) (p : ControlPlane)
    (site : Site) :
    exchange r p site =
      ((outcome (match (p.read name).1 with
        | .ok text => .ok text
        | .error e => .ofError e), (p.read name).2), site) := by
  obtain ⟨segment, hroute, hsegment⟩ := h
  have hcall : Http.Framework.standard none (toHttp r) = .called (.read name) false := by
    simp only [toHttp, hv, Http.Framework.standard, hroute, Http.Framework.readCall, hsegment]
  simp only [exchange, bind, StateT.bind, Http.answer_of_read hcall, ControlPlane.read?_wrapping]
  cases (p.read name).1 <;> rfl

theorem exchange_write {value : String} (h : Addresses r.attr name) (hv : r.value = some value)
    (p : ControlPlane) (site : Site) :
    exchange r p site =
      ((outcome (match (p.write name value site).1.1 with
        | .ok count => .ok (toString count ++ "\n")
        | .error e => .ofError e), (p.write name value site).1.2), (p.write name value site).2) := by
  obtain ⟨segment, hroute, hsegment⟩ := h
  have hcall : Http.Framework.standard none (toHttp r) = .called (.write name value) false := by
    simp [toHttp, hv, Http.Framework.standard, hroute, Http.Framework.writeCall, hsegment,
      ofBytes?_bytes]
  simp only [exchange, bind, StateT.bind, Http.answer_of_write hcall]
  rfl

theorem accepted_of_parse {args : List String} (h : parse args = .ok r) :
    r.attr ≠ "" ∧ '/' ∉ r.attr.toList := by
  unfold parse at h
  dsimp only at h
  split at h
  · cases h
  · split at h
    · cases h
    · split at h
      case isTrue => cases h
      case isFalse hname =>
        cases h
        simp only [Bool.or_eq_true, not_or] at hname
        constructor
        · rintro rfl
          exact hname.1 rfl
        · simpa using hname.2

def isWordy (c : Char) : Bool :=
  (48 ≤ c.toNat && c.toNat ≤ 57) || (97 ≤ c.toNat && c.toNat ≤ 122)

def Wordy (name : String) : Prop := ∀ c ∈ name.toList, isWordy c

theorem wordy_of_all (h : name.toList.all isWordy = true) : Wordy name := List.all_eq_true.mp h

theorem isWordy_iff {c : Char} :
    isWordy c ↔ 48 ≤ c.toNat ∧ c.toNat ≤ 57 ∨ 97 ≤ c.toNat ∧ c.toNat ≤ 122 := by
  simp [isWordy]

theorem percentSign_mem {bs : List UInt8} (h : Percent.Escapes bs) : Percent.percentSign ∈ bs := by
  induction bs with
  | nil => exact h.elim
  | cons b bs ih =>
    rcases h with ⟨rfl, -⟩ | h
    · exact List.mem_cons_self
    · exact List.mem_cons_of_mem b (ih h)

theorem Wordy.not_escaped (h : Wordy name) : ¬ Percent.Escapes (bytes name) := by
  intro hescapes
  have hsign := percentSign_mem hescapes
  rw [bytes_eq_flatMap, List.mem_flatMap] at hsign
  obtain ⟨c, hc, hbyte⟩ := hsign
  have hchar : c = '%' := Char.toNat_inj.mp (toNat_eq_of_mem_utf8EncodeChar (by decide) hbyte)
  rw [hchar] at hc
  exact absurd (h _ hc) (by decide)

theorem Wordy.toLower_eq (h : Wordy name) : name.toLower = name := by
  apply String.toList_injective
  rw [String.toLower, String.toList_map]
  have hsame : ∀ c ∈ name.toList, c.toLower = id c := by
    intro c hc
    have hword := isWordy_iff.mp (h c hc)
    apply dif_neg
    rintro ⟨hlow, hhigh⟩
    have hlow : 65 ≤ c.toNat := UInt32.le_iff_toNat_le.mp hlow
    have hhigh : c.toNat ≤ 90 := UInt32.le_iff_toNat_le.mp hhigh
    omega
  exact (List.map_congr_left hsame).trans (List.map_id _)

theorem Wordy.plain (h : Wordy name) (hne : name ≠ "vars") : Plain name where
  last := by
    intro c hc
    have hword := isWordy_iff.mp (h c (List.mem_of_getLast? hc))
    omega
  chars := by
    intro c hc hmem
    have hword := h c hc
    simp only [List.mem_cons, List.not_mem_nil, or_false] at hmem
    rcases hmem with rfl | rfl | rfl | rfl | rfl | rfl <;> cases hword
  not_dots := by
    have hdots : ∀ s ∈ [".", "%2e"] ++ ["..", ".%2e", "%2e.", "%2e%2e"],
        s.toList.all isWordy = false := by decide +kernel
    have hall : name.toList.all isWordy = true := List.all_eq_true.mpr h
    simp only [isDot, isDoubleDot, h.toLower_eq, decide_eq_true_eq]
    constructor
    · intro hmem
      rw [hdots name (List.mem_append_left _ hmem)] at hall
      cases hall
    · intro hmem
      rw [hdots name (List.mem_append_right _ hmem)] at hall
      cases hall
  not_escaped := h.not_escaped
  not_metrics := hne

theorem wordy_toString (n : Nat) : Wordy (toString n) := by
  intro c hc
  rw [Nat.toString_eq_ofList_toDigits, String.toList_ofList] at hc
  have hdigit : c.isDigit := Nat.isDigit_of_mem_toDigits (by decide) (by decide) hc
  simp only [Char.isDigit, Bool.and_eq_true, decide_eq_true_eq] at hdigit
  apply isWordy_iff.mpr
  exact .inl ⟨UInt32.le_iff_toNat_le.mp hdigit.1, UInt32.le_iff_toNat_le.mp hdigit.2⟩

theorem Wordy.append {name' : String} (h : Wordy name) (h' : Wordy name') :
    Wordy (name ++ name') := by
  intro c hc
  rw [String.toList_append, List.mem_append] at hc
  exact hc.elim (h c) (h' c)

theorem plain_of_mem_attributes {p : ControlPlane} (h : name ∈ p.attributes) : Plain name := by
  have hsuffix : ∀ n : Node, Wordy n.suffix := by
    intro n
    unfold Node.suffix
    split
    · exact wordy_toString _
    · exact wordy_of_all rfl
  have hbases : ∀ entry ∈ ControlPlane.perNode,
      Wordy entry.1 ∧ ∃ c cs, entry.1.toList = c :: cs ∧ c ≠ 'v' := by
    intro entry hentry
    rcases ControlPlane.mem_perNode.mp hentry with rfl | rfl | rfl
    all_goals exact ⟨wordy_of_all rfl, _, _, rfl, by decide⟩
  rw [ControlPlane.attributes, List.mem_append] at h
  rcases h with h | h
  · simp only [List.mem_cons, List.not_mem_nil, or_false] at h
    rcases h with rfl | rfl
    · exact (wordy_of_all rfl).plain (by decide)
    · exact (wordy_of_all rfl).plain (by decide)
  · obtain ⟨n, -, hn⟩ := List.mem_flatMap.mp h
    obtain ⟨entry, hentry, rfl⟩ := List.mem_map.mp hn
    obtain ⟨hword, c, cs, hbase, hc⟩ := hbases entry hentry
    apply (hword.append (hsuffix n)).plain
    intro hvars
    have hchars : c :: (cs ++ n.suffix.toList) = 'v' :: ['a', 'r', 's'] := by
      rw [← List.cons_append, ← hbase, ← String.toList_append, hvars]
      rfl
    exact hc (List.cons.inj hchars).1

/-- Of the names that the client accepts, the plain ones are those that the agent reads and writes by
the same name. The others are changed on the way. -/
theorem accepted_name_addressed_iff {args : List String} (h : parse args = .ok r) :
    (Addresses r.attr r.attr ↔ Plain r.attr) ∧
    (Plain r.attr → ∀ (p : ControlPlane) (site : Site),
      (r.value = none →
        (exchange r p site).1.2 = (p.read r.attr).2 ∧ (exchange r p site).2 = site) ∧
      ∀ value, r.value = some value →
        (exchange r p site).1.2 = (p.write r.attr value site).1.2 ∧
          (exchange r p site).2 = (p.write r.attr value site).2) ∧
    ∀ p : ControlPlane, r.attr ∈ p.attributes → Plain r.attr := by
  obtain ⟨hne, hslash⟩ := accepted_of_parse h
  refine ⟨⟨plain_of_addresses hne hslash, addresses_of_plain hne hslash⟩, ?_, ?_⟩
  · intro hplain p site
    have haddresses := addresses_of_plain hne hslash hplain
    constructor
    · intro hv
      rw [exchange_read haddresses hv]
      exact ⟨rfl, rfl⟩
    · intro value hv
      rw [exchange_write haddresses hv]
      exact ⟨rfl, rfl⟩
  · intro p hname
    exact plain_of_mem_attributes hname

theorem stat_addressed :
    ∃ r, parse ["stat"] = .ok r ∧ r.value = none ∧ Addresses r.attr r.attr ∧ Plain r.attr ∧
      ∀ p site, (exchange r p site).1.2 = (p.read "stat").2 ∧ (exchange r p site).2 = site := by
  obtain ⟨r, hr, hattr, hv⟩ : ∃ r, parse ["stat"] = .ok r ∧ r.attr = "stat" ∧ r.value = none :=
    ⟨_, rfl, rfl, rfl⟩
  have hplain : Plain r.attr := by
    rw [hattr]
    exact (wordy_of_all rfl).plain (by decide)
  obtain ⟨hiff, hexchange, -⟩ := accepted_name_addressed_iff hr
  refine ⟨r, hr, hv, hiff.mpr hplain, hplain, ?_⟩
  intro p site
  rw [← hattr]
  exact (hexchange hplain p site).1 hv

/-- A name with a question mark is accepted, and it is the history without the mark that is read
and emptied. -/
theorem question_mark_drains :
    let schema : Schema := [⟨"ts", none⟩, ⟨"intv", none⟩]
    let node : Node :=
      { id := none, history := { schema, ring := ((Ring.new 2 4).push [7, 1]).2 }, sampler := none }
    let p : ControlPlane := { nodes := [node], pace := ⟨100, 0⟩, limit := 4096 }
    ∃ r, parse ["stat?x"] = .ok r ∧ r.attr = "stat?x" ∧
      ¬ Addresses r.attr r.attr ∧ Addresses r.attr "stat" ∧
      p.nodes.map (·.history.toList) = [[[7, 1]]] ∧
      (exchange r p {}).1.1 = .ok "\x7b\"ts\":7,\"intv\":1\x7d\n" ∧
      (exchange r p {}).1.2.nodes.map (·.history.toList) = [[]] := by
  intro schema node p
  obtain ⟨r, hr, hattr, hv⟩ :
      ∃ r, parse ["stat?x"] = .ok r ∧ r.attr = "stat?x" ∧ r.value = none := ⟨_, rfl, rfl, rfl⟩
  have haddresses : Addresses r.attr "stat" := by
    rw [hattr]
    exact ⟨"stat".toList, by decide +kernel, by decide +kernel⟩
  have hread := exchange_read haddresses hv p {}
  refine ⟨r, hr, hattr, ?_, haddresses, by decide +kernel, ?_, ?_⟩
  · intro h
    have hplain := plain_of_addresses (by rw [hattr]; decide) (by rw [hattr]; decide) h
    rw [hattr] at hplain
    exact hplain.chars '?' (by decide) (by decide)
  · rw [hread]
    decide +kernel
  · rw [hread]
    decide +kernel

end Client

end NodeTelemetry
