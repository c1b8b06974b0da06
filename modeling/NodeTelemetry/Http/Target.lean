import NodeTelemetry.Text.Blank

/-!
The target of a request: a path with an optional query, an absolute address with a scheme, or an
authority alone. Only its path matters to the routes.
-/

namespace NodeTelemetry.Http.Target

def inPath (c : Char) : Bool :=
  let n := c.toNat
  n == 0x21 || n == 0x22 || (0x24 ≤ n && n ≤ 0x3B) || n == 0x3D || (0x40 ≤ n && n ≤ 0x5F) ||
    (0x61 ≤ n && n ≤ 0x7E) || 0x80 ≤ n

def inQuery (c : Char) : Bool :=
  let n := c.toNat
  n == 0x21 || (0x24 ≤ n && n ≤ 0x3B) || n == 0x3D || (0x3F ≤ n && n ≤ 0x7E) || 0x80 ≤ n

def isQuery (cs : List Char) : Bool := (cs.takeWhile (· != '#')).all inQuery

def path? (cs : List Char) : Option (List Char) :=
  let path := cs.takeWhile fun c => c != '?' && c != '#'
  if !path.all inPath then none
  else match cs.drop path.length with
    | '?' :: query => if isQuery query then some path else none
    | _ => some path

def isAlphanumeric (c : Char) : Bool :=
  let n := c.toNat
  (48 ≤ n && n ≤ 57) || (65 ≤ n && n ≤ 90) || (97 ≤ n && n ≤ 122)

def inScheme (c : Char) : Bool := isAlphanumeric c || "+-.~".contains c

def inAuthority (c : Char) : Bool := isAlphanumeric c || "!$&'()*+,-.:;=@[]_~%".contains c

structure Seen where
  colons : Nat := 0
  percent : Bool := false
  opened : Bool := false
  closed : Bool := false
  deriving DecidableEq, Repr

def Seen.next? (s : Seen) (c : Char) : Option Seen :=
  if c = ':' then if 8 ≤ s.colons then none else some { s with colons := s.colons + 1 }
  else if c = '[' then if s.percent || s.opened then none else some { s with opened := true }
  else if c = ']' then
    if !s.opened || s.closed then none
    else some { s with closed := true, colons := 0, percent := false }
  else if c = '@' then some { s with colons := 0, percent := false }
  else if c = '%' then some { s with percent := true }
  else some s

def isAuthority (cs : List Char) : Bool :=
  cs.all inAuthority &&
    match cs.foldlM Seen.next? {} with
    | none => false
    | some s =>
      s.opened == s.closed && s.colons ≤ 1 && cs.getLast? != some '@' && !s.percent

def afterScheme? (cs : List Char) : Option (Option (List Char)) :=
  let scheme := cs.takeWhile inScheme
  match Text.afterPrefix? [':', '/', '/'] (cs.drop scheme.length) with
  | none => some none
  | some rest => if scheme.length ≤ 64 then some (some rest) else none

def parse? (cs : List Char) : Option (List Char) :=
  if 65534 < (String.ofList cs).utf8ByteSize then none
  else match cs with
    | [] => none
    | ['*'] => some ['*']
    | '/' :: _ => path? cs
    | _ =>
      match afterScheme? cs with
      | none => none
      | some none => if isAuthority cs then some [] else none
      | some (some rest) =>
        let authority := rest.takeWhile fun c => !"/?#".contains c
        if authority.isEmpty || !isAuthority authority then none
        else (path? (rest.drop authority.length)).map fun path =>
          if path.isEmpty then ['/'] else path

end NodeTelemetry.Http.Target
