import NodeTelemetry.Toml.Moment
import NodeTelemetry.Toml.Quoted
import NodeTelemetry.Toml.Table

/-!
The reader of TOML documents. A document is read into statements, one to a line, and these are
carried out one after the other on a table that is empty at first.
-/

namespace NodeTelemetry.Toml

def maxDepth : Nat := 79

def isBare (c : Char) : Bool :=
  let n := c.toNat
  (48 ≤ n && n ≤ 57) || (65 ≤ n && n ≤ 90) || (97 ≤ n && n ≤ 122) || c == '-' || c == '_'

def keyPart? (cs : List Char) : Option (String × List Char) :=
  match line? cs with
  | some (text, rest) => some (String.ofList text, rest)
  | none =>
    let bare := cs.takeWhile isBare
    if bare.isEmpty then none else some (String.ofList bare, cs.drop bare.length)

def key? : (most : Nat) → List Char → Option (List String × List Char)
  | 0, _ => none
  | most + 1, cs => do
    let (part, cs) ← keyPart? (skipWs cs)
    match skipWs cs with
    | '.' :: cs =>
      let (parts, cs) ← key? most cs
      pure (part :: parts, cs)
    | cs => pure ([part], cs)

def path? (cs : List Char) : Option ((List String × String) × List Char) := do
  let (parts, cs) ← key? maxDepth cs
  let name ← parts.getLast?
  pure ((parts.dropLast, name), cs)

def scalar? (cs : List Char) : Option (Value × List Char) :=
  match cs with
  | [] => none
  | c :: _ =>
    if c = '"' ∨ c = '\'' then
      (string? cs).map fun (text, rest) => (.text (String.ofList text), rest)
    else if c = 't' then
      (Text.afterPrefix? "true".toList cs).map fun rest => (.boolean true, rest)
    else if c = 'f' then
      (Text.afterPrefix? "false".toList cs).map fun rest => (.boolean false, rest)
    else match moment? cs with
      | some rest => some (.moment, rest)
      | none =>
        match real? cs with
        | some rest => some (.real, rest)
        | none => (integer? cs).map fun (n, rest) => (.integer n, rest)

mutual

def value? : (fuel depth : Nat) → List Char → Option (Value × List Char)
  | 0, _, _ => none
  | fuel + 1, depth, cs =>
    match cs, depth with
    | '[' :: rest, depth + 1 => items? fuel depth [] rest
    | '{' :: rest, depth + 1 =>
      match skipWs rest with
      | '}' :: rest => some (.table .inline [], rest)
      | _ => entries? fuel depth [] rest
    | '[' :: _, 0 | '{' :: _, 0 => none
    | _, _ => scalar? cs

def items? : (fuel depth : Nat) → List Value → List Char → Option (Value × List Char)
  | 0, _, _, _ => none
  | fuel + 1, depth, done, cs => do
    match ← skipLayout false cs with
    | ']' :: rest => pure (.array done.reverse, rest)
    | cs =>
      let (v, cs) ← value? fuel depth cs
      match ← skipLayout false cs with
      | ',' :: rest => items? fuel depth (v :: done) rest
      | ']' :: rest => pure (.array (v :: done).reverse, rest)
      | _ => none

def entries? : (fuel depth : Nat) → Entries → List Char → Option (Value × List Char)
  | 0, _, _, _ => none
  | fuel + 1, depth, done, cs => do
    let ((path, name), cs) ← path? cs
    let (v, cs) ← value? fuel depth (skipWs (← Text.afterPrefix? ['='] cs))
    let done ← done.insertAt? path name v
    match skipWs cs with
    | ',' :: rest => entries? fuel depth done rest
    | '}' :: rest => pure (.table .inline done, rest)
    | _ => none

end

inductive Statement
  | blank
  | table (path : List String) (name : String)
  | element (path : List String) (name : String)
  | pair (path : List String) (name : String) (v : Value)

/-- A statement and the end of its line. Reading a value takes at most two calls for each character,
and each uses up one of its fuel. -/
def statement? (cs : List Char) : Option (Statement × List Char) :=
  match cs with
  | '#' :: _ | '\n' :: _ | '\r' :: _ => (lineEnd? cs).map fun rest => (.blank, rest)
  | '[' :: '[' :: cs => do
    let ((path, name), cs) ← path? cs
    let rest ← lineEnd? (← Text.afterPrefix? [']', ']'] cs)
    pure (.element path name, rest)
  | '[' :: cs => do
    let ((path, name), cs) ← path? cs
    let rest ← lineEnd? (← Text.afterPrefix? [']'] cs)
    pure (.table path name, rest)
  | _ => do
    let ((path, name), cs) ← path? cs
    let cs := skipWs (← Text.afterPrefix? ['='] cs)
    let (v, cs) ← value? (2 * cs.length + 2) maxDepth cs
    let rest ← lineEnd? cs
    pure (.pair path name v, rest)

def statements? : (fuel : Nat) → List Char → Option (List Statement)
  | 0, _ => none
  | fuel + 1, cs =>
    match skipWs cs with
    | [] => some []
    | cs => do
      let (s, rest) ← statement? cs
      pure (s :: (← statements? fuel rest))

structure Draft where
  root : Entries := []
  current : List String := []

namespace Draft

def add? (d : Draft) : Statement → Option Draft
  | .blank => some d
  | .table path name => do
    let root ← d.root.modifyAt false (fun _ t => t.openTable? name) path false
    pure ⟨root, path ++ [name]⟩
  | .element path name => do
    let root ← d.root.modifyAt false (fun _ t => t.openElement? name) path false
    pure ⟨root, path ++ [name]⟩
  | .pair path name v => do
    let root ← d.root.modifyAt false (fun _ t => t.insertAt? path name v) d.current false
    pure { d with root }

end Draft

def byteOrderMark : Char := '\ufeff'

def parse? (s : String) : Option Entries := do
  let cs := match s.toList with
    | c :: cs => if c = byteOrderMark then cs else c :: cs
    | [] => []
  let statements ← statements? (cs.length + 1) cs
  let d ← statements.foldlM Draft.add? {}
  pure d.root

end NodeTelemetry.Toml
