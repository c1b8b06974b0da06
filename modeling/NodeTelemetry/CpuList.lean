import NodeTelemetry.Text.Blank
import NodeTelemetry.Text.Digits

/-! Lists of processors as the kernel writes them: numbers and ranges with commas between them. -/

namespace NodeTelemetry.CpuList

def span? (part : List Char) : Option (Nat × Nat) :=
  match Text.splitAtFirst? '-' part with
  | some (first, last) => do
    let first ← Text.decimal64? (Text.trim first)
    let last ← Text.decimal64? (Text.trim last)
    if last < first then none else pure (first, last)
  | none => do
    let n ← Text.decimal64? (Text.trim part)
    pure (n, n)

def numbers (first last : Nat) : List Nat := List.range' first (last + 1 - first)

def normalize (ns : List Nat) : List Nat := ns.mergeSort.eraseReps

def parts (list : String) : List (List Char) :=
  (Text.splitOn ',' (Text.trim list.toList)).filter (!·.isEmpty)

inductive Fault
  | malformed
  /-- The numbers outgrow what can be allocated, and the reader breaks down. -/
  | overgrown
  deriving DecidableEq, Repr

/-- For how many words a vector has room once it holds `needed` of them. One that grows doubles at
least, and none takes up half of the addresses. -/
def grow? (room needed : Nat) : Option Nat :=
  if needed ≤ room then some room
  else
    let room := max (max (2 * room) needed) 4
    if 8 * room < UInt64.size / 2 then some room else none

def collect (room : Nat) (ns : List Nat) : List (List Char) → Except Fault (List Nat)
  | [] => .ok ns
  | part :: parts =>
    match span? part with
    | none => .error .malformed
    | some (first, last) =>
      match grow? room (ns.length + (last + 1 - first)) with
      | none => .error .overgrown
      | some room => collect room (ns ++ numbers first last) parts

def parse (list : String) : Except Fault (List Nat) := do
  pure (normalize (← collect 0 [] (parts list)))

def parse? (list : String) : Option (List Nat) := (parse list).toOption

theorem parse?_eq_some_iff {list : String} {cpus : List Nat} :
    parse? list = some cpus ↔ parse list = .ok cpus := by
  unfold parse?
  cases parse list <;> simp [Except.toOption]

theorem parse_eq_ok_iff {list : String} {cpus : List Nat} :
    parse list = .ok cpus ↔ ∃ ns, collect 0 [] (parts list) = .ok ns ∧ normalize ns = cpus := by
  unfold parse
  cases collect 0 [] (parts list) <;> simp [bind, Except.bind, pure, Except.pure]

theorem parse_eq_error_iff {list : String} {fault : Fault} :
    parse list = .error fault ↔ collect 0 [] (parts list) = .error fault := by
  unfold parse
  cases collect 0 [] (parts list) <;> simp [bind, Except.bind, pure, Except.pure]

example : parse "4,2,2-3" = .ok [2, 3, 4] := by cbv
example : parse "3-1" = .error .malformed := by cbv

end NodeTelemetry.CpuList
