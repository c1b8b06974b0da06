import Mathlib
import NodeTelemetry.Proofs.HistoryReads
import NodeTelemetry.Proofs.ShownColumns

namespace NodeTelemetry

namespace Field

def Legible (f : Field) : Prop := ∀ c ∈ f.name.toList ++ f.value.toList, c ≠ '"' ∧ c ≠ '\n'

theorem isDigit_of_decimal {f : Field} (h : f.Decimal) : ∀ c ∈ f.value.toList, c.isDigit := by
  obtain ⟨v, hv⟩ := h
  rw [hv]
  intro c hc
  change c ∈ (Nat.repr v.toNat).toList at hc
  rw [Nat.toList_repr] at hc
  exact Nat.isDigit_of_mem_toDigits (by decide) (by decide) hc

theorem legible_of_decimal {f : Field} (hname : Settings.IsName f.name) (hvalue : f.Decimal) :
    f.Legible := by
  intro c hc
  rcases List.mem_append.mp hc with hc | hc
  · have hplain := hname.plain c hc
    constructor
    · rintro rfl
      exact absurd hplain (by decide)
    · rintro rfl
      exact absurd hplain (by decide)
  · have hdigit := isDigit_of_decimal hvalue c hc
    constructor
    · rintro rfl
      exact absurd hdigit (by decide)
    · rintro rfl
      exact absurd hdigit (by decide)

def afterQuote (f : Field) (rest : List Char) : List Char :=
  f.name.toList ++ '"' :: ':' :: (f.value.toList ++ rest)

theorem toList_render (f : Field) (rest : List Char) :
    f.render.toList ++ rest = '"' :: f.afterQuote rest := by
  simp [render, afterQuote]

end Field

namespace Record

def valueBefore? (mark : Char) : List Char → Option String
  | ':' :: cs => if cs.getLast? = some mark then some (String.ofList cs.dropLast) else none
  | _ => none

def fieldsOf? : List (List Char) → Option (List Field)
  | [name, value] => (valueBefore? '}' value).map fun v => [⟨String.ofList name, v⟩]
  | name :: value :: parts =>
    match valueBefore? ',' value, fieldsOf? parts with
    | some v, some fields => some (⟨String.ofList name, v⟩ :: fields)
    | _, _ => none
  | _ => none

def decodeLine? (line : List Char) : Option (List Field) :=
  match Text.splitOn '"' line with
  | [['{', '}']] => some []
  | ['{'] :: parts => fieldsOf? parts
  | _ => none

def decode? (text : String) : Option (List (List Field)) :=
  let lines := Text.splitOn '\n' text.toList
  if lines.getLast? = some [] then lines.dropLast.mapM decodeLine? else none

def line (fields : List Field) : List Char :=
  '{' :: ([','].intercalate (fields.map fun f => f.render.toList) ++ ['}'])

theorem toList_render (fields : List Field) : (render fields).toList = line fields ++ ['\n'] := by
  simp [render, line, List.map_map, Function.comp_def]

variable {f : Field} {fields : List Field}

def after : List Field → List Char
  | [] => ['}']
  | f :: fields => ',' :: '"' :: f.afterQuote (after fields)

theorem line_cons (f : Field) (fields : List Field) :
    line (f :: fields) = '{' :: '"' :: f.afterQuote (after fields) := by
  have h (f : Field) (fields : List Field) :
      [','].intercalate ((f :: fields).map fun f => f.render.toList) ++ ['}'] =
        '"' :: f.afterQuote (after fields) := by
    induction fields generalizing f with
    | nil =>
      rw [List.map_cons, List.map_nil, List.intercalate_singleton]
      exact f.toList_render _
    | cons g fields ih =>
      have hg := ih g
      rw [List.map_cons] at hg
      rw [List.map_cons, List.map_cons, List.intercalate_cons_cons, List.append_assoc,
        List.append_assoc, hg]
      exact f.toList_render _
  rw [line, h]

theorem quote_not_mem (h : f.Legible) : '"' ∉ f.name.toList ∧ '"' ∉ f.value.toList := by
  constructor
  · intro hmem
    exact (h _ (List.mem_append_left _ hmem)).1 rfl
  · intro hmem
    exact (h _ (List.mem_append_right _ hmem)).1 rfl

theorem valueBefore?_append (mark : Char) (value : String) :
    valueBefore? mark (':' :: (value.toList ++ [mark])) = some value := by
  simp [valueBefore?]

theorem fieldsOf?_splitOn (hf : f.Legible) (h : ∀ g ∈ fields, g.Legible) :
    fieldsOf? (Text.splitOn '"' (f.afterQuote (after fields))) = some (f :: fields) := by
  obtain ⟨hname, hvalue⟩ := quote_not_mem hf
  -- Cutting at the quotes gives a name, its value with the mark behind it, and what ih is about.
  induction fields generalizing f with
  | nil =>
    have hend : '"' ∉ ':' :: (f.value.toList ++ after []) := by simpa [after] using hvalue
    rw [Field.afterQuote, Text.splitOn_append_cons hname, Text.splitOn_of_not_mem hend, after,
      fieldsOf?, valueBefore?_append, String.ofList_toList]
    rfl
  | cons g fields ih =>
    have hmid : '"' ∉ ':' :: (f.value.toList ++ [',']) := by simpa using hvalue
    have hsplit : ':' :: (f.value.toList ++ after (g :: fields)) =
        (':' :: (f.value.toList ++ [','])) ++ '"' :: g.afterQuote (after fields) := by
      simp [after]
    obtain ⟨hg, hfields⟩ := List.forall_mem_cons.mp h
    have hrest := ih hg hfields (quote_not_mem hg).1 (quote_not_mem hg).2
    have hne : Text.splitOn '"' (g.afterQuote (after fields)) ≠ [] := Text.splitOn_ne_nil _ _
    rw [Field.afterQuote, Text.splitOn_append_cons hname, hsplit, Text.splitOn_append_cons hmid]
    obtain ⟨part, parts, hparts⟩ := List.exists_cons_of_ne_nil hne
    rw [hparts] at hrest ⊢
    rw [fieldsOf?, hrest, valueBefore?_append, String.ofList_toList]
    exact List.cons_ne_nil _ _

theorem decodeLine?_line (h : ∀ f ∈ fields, f.Legible) :
    decodeLine? (line fields) = some fields := by
  cases fields with
  | nil => rfl
  | cons f fields =>
    obtain ⟨hf, hfields⟩ := List.forall_mem_cons.mp h
    have hopen : '"' ∉ ['{'] := by decide
    have hhead : Text.splitOn '"' (line (f :: fields)) =
        ['{'] :: Text.splitOn '"' (f.afterQuote (after fields)) := by
      rw [line_cons]
      exact Text.splitOn_append_cons hopen
    rw [decodeLine?, hhead]
    exact fieldsOf?_splitOn hf hfields

theorem newline_not_mem_line (h : ∀ f ∈ fields, f.Legible) : '\n' ∉ line fields := by
  have hfield {g : Field} (hg : g.Legible) {rest : List Char} (hrest : '\n' ∉ rest) :
      '\n' ∉ '"' :: g.afterQuote rest := by
    have hname : '\n' ∉ g.name.toList := fun hmem => (hg _ (List.mem_append_left _ hmem)).2 rfl
    have hvalue : '\n' ∉ g.value.toList := fun hmem => (hg _ (List.mem_append_right _ hmem)).2 rfl
    simp [Field.afterQuote, hname, hvalue, hrest]
  have hafter (fields : List Field) (h : ∀ f ∈ fields, f.Legible) : '\n' ∉ after fields := by
    induction fields with
    | nil => decide
    | cons f fields ih =>
      obtain ⟨hf, hfields⟩ := List.forall_mem_cons.mp h
      have hrest := hfield hf (ih hfields)
      rw [after]
      exact List.not_mem_cons_of_ne_of_not_mem (by decide) hrest
  cases fields with
  | nil => decide
  | cons f fields =>
    obtain ⟨hf, hfields⟩ := List.forall_mem_cons.mp h
    rw [line_cons]
    exact List.not_mem_cons_of_ne_of_not_mem (by decide) (hfield hf (hafter fields hfields))

theorem legible_of_isName {schema : Schema} (h : ∀ n ∈ schema.names, Settings.IsName n)
    (sample : List UInt64) : ∀ f ∈ schema.fields sample, f.Legible := by
  intro f hf
  refine Field.legible_of_decimal (h f.name ?_) (schema.decimal_fields sample f hf)
  have hmem : f.name ∈ (schema.fields sample).map Field.name := List.mem_map_of_mem hf
  rw [schema.names_fields] at hmem
  obtain ⟨c, hc, hn⟩ := List.mem_flatMap.mp hmem
  exact List.mem_flatMap.mpr ⟨c, List.mem_of_mem_take hc, hn⟩

theorem decode?_join {records : List (List Field)} (h : ∀ fs ∈ records, ∀ f ∈ fs, f.Legible) :
    decode? (String.join (records.map render)) = some records := by
  have hlines : Text.splitOn '\n' (String.join (records.map render)).toList =
      records.map line ++ [[]] := by
    rw [String.toList_join, List.flatMap_map]
    induction records with
    | nil => rfl
    | cons fs records ih =>
      obtain ⟨hfs, hrecords⟩ := List.forall_mem_cons.mp h
      rw [List.flatMap_cons, toList_render, List.append_assoc, List.singleton_append,
        Text.splitOn_append_cons (newline_not_mem_line hfs), ih hrecords]
      rfl
  have hread : (records.map line).mapM decodeLine? = some records := by
    clear hlines
    induction records with
    | nil => rfl
    | cons fs records ih =>
      obtain ⟨hfs, hrecords⟩ := List.forall_mem_cons.mp h
      rw [List.map_cons, List.mapM_cons, decodeLine?_line hfs, ih hrecords]
      rfl
  rw [decode?, hlines, List.getLast?_concat, if_pos rfl, List.dropLast_concat, hread]

example : decode? "\x7b\"a,b:\x7b\":1,\"t \x7d\":20\x7d\n\x7b\x7d\n" =
    some [[⟨"a,b:\x7b", "1"⟩, ⟨"t \x7d", "20"⟩], []] := by decide +kernel

structure Writes (schema : Schema) (sample : List UInt64) (text : String) : Prop where
  text_eq : text = "\x7b" ++ ",".intercalate
    ((schema.fields sample).map fun f => "\"" ++ f.name ++ "\":" ++ f.value) ++ "\x7d\n"
  names_eq : (schema.fields sample).map Field.name = Schema.names (schema.take sample.length)
  decimal : ∀ f ∈ schema.fields sample, f.Decimal
  one_line : text.toList.count '\n' = 1

theorem writes_of_isName {schema : Schema} (h : ∀ n ∈ schema.names, Settings.IsName n)
    (sample : List UInt64) : Writes schema sample (schema.render sample) where
  text_eq := rfl
  names_eq := schema.names_fields sample
  decimal := schema.decimal_fields sample
  one_line := by
    have hplain := newline_not_mem_line (legible_of_isName h sample)
    rw [Schema.render, toList_render, List.count_append, List.count_eq_zero_of_not_mem hplain]
    rfl

end Record

namespace Registry

variable {providers : List Provider} {s : Settings} {cpus : List Nat} {tracer : Tracer}
  {r : Registry}

/-- One decoder reads every text back that a history returns: from the characters alone it recovers
the records, and the names and values of each. -/
theorem read_is_decodable {text : String} (hs : Settings.parse text = .ok s)
    (h : resolve providers s cpus tracer s.counterNames = .ok r) (capacity : Nat)
    (ops : List History.Op) (site : Site) (limit : Nat) :
    let b := (History.performAll ops (.new r.schema capacity) site).1.2
    r.schema.map Column.name = s.counterNames ∧
      (∀ sample, Record.Writes r.schema sample (r.schema.render sample)) ∧
      ∃ taken, b.Takes taken (b.drain limit).1 (b.drain limit).2 ∧
        (b.drain limit).1 = String.join (taken.map r.schema.render) ∧
        Record.decode? (b.drain limit).1 = some (taken.map r.schema.fields) := by
  intro b
  have hnames : ∀ n ∈ r.schema.names, Settings.IsName n :=
    isName_of_resolve (Settings.check_of_parse hs) h
  have hb : b.ShapedBy r.schema := (History.shapedBy_new r.schema capacity).performAll ops site
  obtain ⟨taken, htakes⟩ := History.drain_takes hb limit
  have htext : (b.drain limit).1 = String.join (taken.map r.schema.render) := by
    rw [htakes.text_eq, hb.schema_eq]
  have hlegible : ∀ fs ∈ taken.map r.schema.fields, ∀ f ∈ fs, f.Legible := by
    intro fs hfs
    obtain ⟨sample, -, rfl⟩ := List.mem_map.mp hfs
    exact Record.legible_of_isName hnames sample
  have hdecode := Record.decode?_join hlegible
  rw [List.map_map] at hdecode
  refine ⟨columns_of_resolve h, Record.writes_of_isName hnames, taken, htakes, htext, ?_⟩
  rw [htext]
  exact hdecode

theorem odd_names_are_read_back :
    let text := "[[ipmi.group]]\nname = 'g'\nsensors = [['a,b:\x7b', 1], ['温 度\x7d', 2]]\n" ++
      "[counters]\nenabled = ['temp', 'g']"
    let s : Settings :=
      { enabled := ["temp", "g"], sensorGroups := [⟨"g", [⟨"a,b:\x7b", 1, 1⟩, ⟨"温 度\x7d", 2, 1⟩]⟩] }
    Settings.parse text = .ok s ∧
      ∃ r, resolve Provider.all s [0] {} s.counterNames = .ok r ∧
        let b := (History.performAll [.push [1, 2, 3, 513, 5]] (.new r.schema 4) {}).1.2
        r.schema.map Column.name = s.counterNames ∧
          (∀ sample, Record.Writes r.schema sample (r.schema.render sample)) ∧
          ∃ taken, b.Takes taken (b.drain 4096).1 (b.drain 4096).2 ∧
            (b.drain 4096).1 = String.join (taken.map r.schema.render) ∧
            Record.decode? (b.drain 4096).1 = some (taken.map r.schema.fields) := by
  intro text s
  have hs : Settings.parse text = .ok s := Settings.ok_of_toOption (by decide +kernel)
  obtain ⟨r, hr⟩ : ∃ r, resolve Provider.all s [0] {} s.counterNames = .ok r := ⟨_, rfl⟩
  exact ⟨hs, r, hr, read_is_decodable hs hr 4 _ {} 4096⟩

end Registry

end NodeTelemetry
