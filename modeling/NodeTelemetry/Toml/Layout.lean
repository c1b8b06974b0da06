/-!
What stands between the values of a TOML document. Readers take what they read from the beginning of
a text and leave the rest.
-/

namespace NodeTelemetry.Toml

def isWs (c : Char) : Bool := c == ' ' || c == '\t'

def inText (c : Char) : Bool := c == '\t' || (0x20 ≤ c.toNat && c.toNat != 0x7F)

def skipWs (cs : List Char) : List Char := cs.dropWhile isWs

def newline? : List Char → Option (List Char)
  | '\n' :: cs => some cs
  | '\r' :: '\n' :: cs => some cs
  | _ => none

def skipComment : List Char → List Char
  | '#' :: cs => cs.dropWhile inText
  | cs => cs

def lineEnd? (cs : List Char) : Option (List Char) :=
  match skipComment (skipWs cs) with
  | [] => some []
  | cs => newline? cs

def skipLayout (inComment : Bool) : List Char → Option (List Char)
  | [] => if inComment then none else some []
  | c :: cs =>
    if c = '\n' then skipLayout false cs
    else if c = '\r' then if cs.head? = some '\n' then skipLayout false cs else none
    else if inComment then if inText c then skipLayout true cs else none
    else if c = '#' then skipLayout true cs
    else if isWs c then skipLayout false cs
    else some (c :: cs)

end NodeTelemetry.Toml
