import NodeTelemetry.Text.Blank
import NodeTelemetry.Text.Digits

/-!
TOML numbers. Integers have at most 64 bits with a sign; of a real number only the form and the size
are looked at.
-/

namespace NodeTelemetry.Toml

def moreDigits (base : Nat) : List Char → List Char × List Char
  | [] => ([], [])
  | c :: cs =>
    if Text.isDigit base c then
      let (digits, rest) := moreDigits base cs
      (c :: digits, rest)
    else if c = '_' ∧ cs.head?.any (Text.isDigit base) then moreDigits base cs
    else ([], c :: cs)

def digitRun? (base : Nat) (cs : List Char) : Option (List Char × List Char) :=
  if cs.head?.any (Text.isDigit base) then some (moreDigits base cs) else none

def sign : List Char → Bool × List Char
  | '-' :: cs => (true, cs)
  | '+' :: cs => (false, cs)
  | cs => (false, cs)

def decimalRun? : List Char → Option (List Char × List Char)
  | '0' :: cs => some (['0'], cs)
  | cs => digitRun? 10 cs

def inRange (n : Int) : Bool := Int64.minValue.toInt ≤ n && n ≤ Int64.maxValue.toInt

def signed (negative : Bool) (n : Nat) : Int := if negative then -n else n

def based? (base : Nat) (cs : List Char) : Option (Int × List Char) := do
  let (digits, rest) ← digitRun? base cs
  let n ← Text.digits? base digits
  guard (inRange n)
  pure (n, rest)

def integer? : List Char → Option (Int × List Char)
  | '0' :: 'x' :: cs => based? 16 cs
  | '0' :: 'o' :: cs => based? 8 cs
  | '0' :: 'b' :: cs => based? 2 cs
  | cs => do
    let (negative, cs) := sign cs
    let (digits, rest) ← decimalRun? cs
    let n := signed negative (← Text.digits? 10 digits)
    guard (inRange n)
    pure (n, rest)

def fraction? : List Char → Option (List Char × List Char)
  | '.' :: cs => digitRun? 10 cs
  | _ => none

def exponent? : List Char → Option (Int × List Char)
  | c :: cs => do
    guard (c = 'e' ∨ c = 'E')
    let (negative, cs) := sign cs
    let (digits, rest) ← digitRun? 10 cs
    pure (signed negative (← Text.digits? 10 digits), rest)
  | [] => none

/-- The least number that is nearer to the double above the largest finite one than to that one. -/
def doubleLimit : Nat := Nat.pow 2 1024 - Nat.pow 2 970

/-- Whether `m` times ten to the `e` is no double. That needs a number of 309 digits or more, and so
only then is the number worked out. -/
def tooLarge (m : Nat) (e : Int) : Bool :=
  if m = 0 then false
  else
    let places := e + (Nat.toDigits 10 m).length
    if places < 309 then false
    else if 309 < places then true
    else if 0 ≤ e then doubleLimit ≤ m * Nat.pow 10 e.toNat
    else doubleLimit * Nat.pow 10 (-e).toNat ≤ m

def finite? (cs : List Char) : Option (List Char) := do
  let (negative, cs) := sign cs
  let (whole, cs) ← decimalRun? cs
  let (part, cs) ← match fraction? cs with
    | some (part, rest) => some (part, rest)
    | none => if (exponent? cs).isSome then some ([], cs) else none
  let (e, rest) := (exponent? cs).getD (0, cs)
  let m ← Text.digits? 10 (whole ++ part)
  guard (negative || !tooLarge m (e - part.length))
  pure rest

def special? (cs : List Char) : Option (List Char) :=
  let cs := (sign cs).2
  (Text.afterPrefix? ['i', 'n', 'f'] cs).or (Text.afterPrefix? ['n', 'a', 'n'] cs)

def real? (cs : List Char) : Option (List Char) := (finite? cs).or (special? cs)

end NodeTelemetry.Toml
