import NodeTelemetry.Text.Digits
import NodeTelemetry.Toml.Layout

/-!
TOML strings. Between double quotes a backslash begins an escape, between single quotes every
character stands for itself. Between three quotes the text may have several lines.
-/

namespace NodeTelemetry.Toml

def numbered? (count : Nat) (cs : List Char) : Option (Char × List Char) := do
  guard (count ≤ cs.length)
  let n ← Text.digits? 16 (cs.take count)
  guard n.isValidChar
  pure (Char.ofNat n, cs.drop count)

def escape? : List Char → Option (Char × List Char)
  | 'b' :: cs => some ('\x08', cs)
  | 't' :: cs => some ('\t', cs)
  | 'n' :: cs => some ('\n', cs)
  | 'f' :: cs => some ('\x0c', cs)
  | 'r' :: cs => some ('\r', cs)
  | '"' :: cs => some ('"', cs)
  | '\\' :: cs => some ('\\', cs)
  | 'u' :: cs => numbered? 4 cs
  | 'U' :: cs => numbered? 8 cs
  | _ => none

theorem length_of_numbered? {count : Nat} {cs rest : List Char} {c : Char}
    (h : numbered? count cs = some (c, rest)) : rest.length ≤ cs.length := by
  unfold numbered? at h
  obtain ⟨_, -, h⟩ := Option.bind_eq_some_iff.mp h
  obtain ⟨n, -, h⟩ := Option.bind_eq_some_iff.mp h
  obtain ⟨_, -, h⟩ := Option.bind_eq_some_iff.mp h
  cases h
  simp

theorem length_of_escape? {cs rest : List Char} {c : Char} (h : escape? cs = some (c, rest)) :
    rest.length < cs.length := by
  unfold escape? at h
  split at h
  case h_10 => cases h
  case h_8 => have := length_of_numbered? h; simp; omega
  case h_9 => have := length_of_numbered? h; simp; omega
  all_goals cases h; simp

def before (c : Char) (read : Option (List Char × List Char)) : Option (List Char × List Char) :=
  read.map fun (text, rest) => (c :: text, rest)

def basicText (cs : List Char) : Option (List Char × List Char) :=
  match cs with
  | [] => none
  | '"' :: rest => some ([], rest)
  | '\\' :: rest =>
    match h : escape? rest with
    | none => none
    | some (c, rest') =>
      have := length_of_escape? h
      before c (basicText rest')
  | c :: rest => if inText c then before c (basicText rest) else none
termination_by cs.length
decreasing_by all_goals simp <;> omega

def literalText : List Char → Option (List Char × List Char)
  | [] => none
  | c :: cs =>
    if c = '\'' then some ([], cs)
    else if inText c then before c (literalText cs)
    else none

def skipLines : List Char → List Char
  | [] => []
  | c :: cs =>
    if isWs c || c == '\n' then skipLines cs
    else if c == '\r' && cs.head? == some '\n' then skipLines cs
    else c :: cs

theorem length_skipLines (cs : List Char) : (skipLines cs).length ≤ cs.length := by
  induction cs with
  | nil => simp [skipLines]
  | cons c cs ih =>
    unfold skipLines
    split
    · simp; omega
    · split
      · simp; omega
      · simp

def joinedLine? (cs : List Char) : Option (List Char) := (newline? (skipWs cs)).map skipLines

theorem length_of_newline? {cs rest : List Char} (h : newline? cs = some rest) :
    rest.length ≤ cs.length := by
  unfold newline? at h
  split at h <;> cases h <;> simp
  omega

theorem length_of_joinedLine? {cs rest : List Char} (h : joinedLine? cs = some rest) :
    rest.length ≤ cs.length := by
  obtain ⟨r, hr, rfl⟩ := Option.map_eq_some_iff.mp h
  have h₁ := length_of_newline? hr
  have h₂ := length_skipLines r
  have h₃ : (skipWs cs).length ≤ cs.length := (List.dropWhile_suffix _).length_le
  omega

def linesText (quote : Char) (escapes : Bool) (cs : List Char) : Option (List Char × List Char) :=
  match cs with
  | [] => none
  | c :: rest =>
    if c = quote then
      let run := 1 + (rest.takeWhile (· == quote)).length
      if 3 ≤ run then
        let inner := min run 5 - 3
        some (List.replicate inner quote, rest.drop (inner + 2))
      else before c (linesText quote escapes rest)
    else if c = '\\' ∧ escapes then
      match hj : joinedLine? rest with
      | some rest' =>
        have := length_of_joinedLine? hj
        linesText quote escapes rest'
      | none =>
        match h : escape? rest with
        | none => none
        | some (c, rest') =>
          have := length_of_escape? h
          before c (linesText quote escapes rest')
    else if c = '\n' then before c (linesText quote escapes rest)
    else if c = '\r' then
      if rest.head? = some '\n' then linesText quote escapes rest else none
    else if inText c then before c (linesText quote escapes rest)
    else none
termination_by cs.length
decreasing_by all_goals simp <;> omega

def firstLine (cs : List Char) : List Char := (newline? cs).getD cs

def line? : List Char → Option (List Char × List Char)
  | '"' :: cs => basicText cs
  | '\'' :: cs => literalText cs
  | _ => none

def string? : List Char → Option (List Char × List Char)
  | '"' :: '"' :: '"' :: cs => linesText '"' true (firstLine cs)
  | '\'' :: '\'' :: '\'' :: cs => linesText '\'' false (firstLine cs)
  | cs => line? cs

end NodeTelemetry.Toml
