import NodeTelemetry.Text.Digits
import NodeTelemetry.Toml.Number

/-!
TOML dates and times. Only their form is looked at, so that a reader answers with what follows.
-/

namespace NodeTelemetry.Toml

def fixed? (count lo hi : Nat) (cs : List Char) : Option (Nat × List Char) := do
  guard (count ≤ cs.length)
  let n ← Text.digits? 10 (cs.take count)
  guard (lo ≤ n ∧ n ≤ hi)
  pure (n, cs.drop count)

def isLeap (year : Nat) : Bool := year % 4 = 0 && (year % 100 ≠ 0 || year % 400 = 0)

def daysIn (year month : Nat) : Nat :=
  if month = 2 then if isLeap year then 29 else 28
  else if month ∈ [4, 6, 9, 11] then 30
  else 31

def date? (cs : List Char) : Option (List Char) := do
  let (year, cs) ← fixed? 4 0 9999 cs
  let cs ← Text.afterPrefix? ['-'] cs
  let (month, cs) ← fixed? 2 1 12 cs
  let cs ← Text.afterPrefix? ['-'] cs
  let (_, cs) ← fixed? 2 1 (daysIn year month) cs
  pure cs

def clockTime? (cs : List Char) : Option (List Char) := do
  let (_, cs) ← fixed? 2 0 23 cs
  let cs ← Text.afterPrefix? [':'] cs
  let (_, cs) ← fixed? 2 0 59 cs
  pure cs

def skipFraction : List Char → List Char
  | '.' :: cs =>
    if cs.head?.any (Text.isDigit 10) then cs.dropWhile (Text.isDigit 10) else '.' :: cs
  | cs => cs

def time? (cs : List Char) : Option (List Char) := do
  let cs ← Text.afterPrefix? [':'] (← clockTime? cs)
  let (_, cs) ← fixed? 2 0 60 cs
  pure (skipFraction cs)

def skipOffset : List Char → List Char
  | [] => []
  | c :: cs =>
    if c = 'Z' ∨ c = 'z' then cs
    else if c = '+' ∨ c = '-' then (clockTime? cs).getD (c :: cs)
    else c :: cs

def moment? (cs : List Char) : Option (List Char) :=
  match date? cs with
  | none => time? cs
  | some [] => some []
  | some (c :: rest) =>
    let afterTime? := if c = 'T' ∨ c = 't' ∨ c = ' ' then time? rest else none
    some ((afterTime?.map skipOffset).getD (c :: rest))

end NodeTelemetry.Toml
