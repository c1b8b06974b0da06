import NodeTelemetry.Text.Digits

/-!
Addresses of listeners: an IPv4 address with a port, or an IPv6 address in brackets with a port.
Names of hosts are none.
-/

namespace NodeTelemetry.Net

structure Ipv4 where
  a : UInt8
  b : UInt8
  c : UInt8
  d : UInt8
  deriving DecidableEq, Repr

structure Ipv6 where
  groups : Vector UInt16 8
  deriving DecidableEq, Repr

inductive SocketAddr
  | v4 (ip : Ipv4) (port : UInt16)
  | v6 (ip : Ipv6) (scope : UInt32) (port : UInt16)
  deriving DecidableEq, Repr

namespace Ipv4

def loopback : Ipv4 := ⟨127, 0, 0, 1⟩

def render (ip : Ipv4) : String :=
  ".".intercalate ([ip.a, ip.b, ip.c, ip.d].map fun n => toString n.toNat)

def groups (ip : Ipv4) : List UInt16 :=
  [ip.a.toUInt16 * 256 + ip.b.toUInt16, ip.c.toUInt16 * 256 + ip.d.toUInt16]

end Ipv4

namespace Ipv6

def ofList (gs : List UInt16) : Ipv6 := ⟨Vector.ofFn fun i => gs.getD i 0⟩

def mapped? (ip : Ipv6) : Option Ipv4 :=
  match ip.groups.toList with
  | [0, 0, 0, 0, 0, 0xffff, x, y] =>
    some ⟨(x / 256).toUInt8, x.toUInt8, (y / 256).toUInt8, y.toUInt8⟩
  | _ => none

def longestZeros (i run : Nat) (best : Nat × Nat) : List UInt16 → Nat × Nat
  | [] => best
  | g :: gs =>
    if g = 0 then
      let best := if best.2 < run + 1 then (i - run, run + 1) else best
      longestZeros (i + 1) (run + 1) best gs
    else longestZeros (i + 1) 0 best gs

def renderGroups (gs : List UInt16) : String :=
  ":".intercalate (gs.map fun g => Text.hexadecimal g.toNat)

def render (ip : Ipv6) : String :=
  match ip.mapped? with
  | some v4 => "::ffff:" ++ v4.render
  | none =>
    let gs := ip.groups.toList
    let (start, length) := longestZeros 0 0 (0, 0) gs
    if 1 < length then
      renderGroups (gs.take start) ++ "::" ++ renderGroups (gs.drop (start + length))
    else renderGroups gs

def unspecified : Ipv6 := ofList []

def isMulticast (ip : Ipv6) : Bool := ip.groups[0] &&& 0xff00 == 0xff00

def isLinkLocal (ip : Ipv6) : Bool := ip.groups[0] &&& 0xffc0 == 0xfe80

end Ipv6

/-! Readers take what they read from the beginning of a text and leave the rest. -/

def char? (c : Char) : List Char → Option (List Char)
  | [] => none
  | d :: cs => if d = c then some cs else none

def number? (base bound : Nat) (maxDigits : Option Nat) (zeros : Bool) (cs : List Char) :
    Option (Nat × List Char) :=
  let digits := cs.takeWhile (Text.isDigit base)
  let short := maxDigits.all (digits.length ≤ ·)
  let plain := zeros || digits.length ≤ 1 || digits.head? != some '0'
  match Text.digits? base digits with
  | none => none
  | some n => if short && plain && n < bound then some (n, cs.drop digits.length) else none

def octet? (cs : List Char) : Option (UInt8 × List Char) := do
  let (n, cs) ← number? 10 UInt8.size (some 3) false cs
  pure (UInt8.ofNat n, cs)

def ipv4? (cs : List Char) : Option (Ipv4 × List Char) := do
  let (a, cs) ← octet? cs
  let (b, cs) ← octet? (← char? '.' cs)
  let (c, cs) ← octet? (← char? '.' cs)
  let (d, cs) ← octet? (← char? '.' cs)
  pure (⟨a, b, c, d⟩, cs)

def port? (cs : List Char) : Option (UInt16 × List Char) := do
  let (n, cs) ← number? 10 UInt16.size none true (← char? ':' cs)
  pure (UInt16.ofNat n, cs)

/-- At most `limit` groups with colons between them. An IPv4 address may end them in place of two;
the answer tells whether one does. -/
def groups (limit : Nat) (first : Bool) (cs : List Char) : List UInt16 × Bool × List Char :=
  match limit with
  | 0 => ([], false, cs)
  | limit + 1 =>
    let next? := if first then some cs else char? ':' cs
    match (if 1 ≤ limit then next?.bind ipv4? else none) with
    | some (ip, rest) => (ip.groups, true, rest)
    | none =>
      match next?.bind (number? 16 UInt16.size (some 4) true) with
      | none => ([], false, cs)
      | some (g, rest) =>
        let (gs, embedded, rest) := groups limit false rest
        (UInt16.ofNat g :: gs, embedded, rest)

def ipv6? (cs : List Char) : Option (Ipv6 × List Char) := do
  let (front, embedded, cs) := groups 8 true cs
  if front.length = 8 then pure (Ipv6.ofList front, cs)
  else if embedded then none
  else
    let cs ← char? ':' (← char? ':' cs)
    let (back, _, cs) := groups (7 - front.length) true cs
    let zeros := List.replicate (8 - front.length - back.length) 0
    pure (Ipv6.ofList (front ++ zeros ++ back), cs)

def scope (cs : List Char) : UInt32 × List Char :=
  match (char? '%' cs).bind (number? 10 UInt32.size none true) with
  | some (n, rest) => (UInt32.ofNat n, rest)
  | none => (0, cs)

namespace SocketAddr

def readV4? (cs : List Char) : Option (SocketAddr × List Char) := do
  let (ip, cs) ← ipv4? cs
  let (port, cs) ← port? cs
  pure (.v4 ip port, cs)

def readV6? (cs : List Char) : Option (SocketAddr × List Char) := do
  let (ip, cs) ← ipv6? (← char? '[' cs)
  let (scope, cs) := scope cs
  let (port, cs) ← port? (← char? ']' cs)
  pure (.v6 ip scope port, cs)

def parse? (s : String) : Option SocketAddr :=
  match (readV4? s.toList).or (readV6? s.toList) with
  | some (addr, []) => some addr
  | _ => none

def render : SocketAddr → String
  | .v4 ip port => ip.render ++ ":" ++ toString port.toNat
  | .v6 ip scope port =>
    let scope := if scope = 0 then "" else "%" ++ toString scope.toNat
    "[" ++ ip.render ++ scope ++ "]:" ++ toString port.toNat

def port : SocketAddr → UInt16
  | .v4 _ port | .v6 _ _ port => port

example : parse? "127.0.0.1:4241" = some (.v4 .loopback 4241) := by cbv
example : (parse? "[1:0:0:4::8%3]:080").map render = some "[1:0:0:4::8%3]:80" := by cbv
example : parse? "127.0.0.01:1" = none := by cbv

end SocketAddr

end NodeTelemetry.Net
