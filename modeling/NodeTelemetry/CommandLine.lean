import NodeTelemetry.Text.Blank

/-!
The reader of command lines. Arguments are options and flags, alone or several short ones together,
and positional ones; after two hyphens all are positional. A value that comes as an argument of its
own is only looked at when the next option, flag or positional argument is reached, or the end.
-/

namespace NodeTelemetry

inductive UsageError
  | unknownArgument
  | tooManyValues
  | missingValue
  | badValue
  | repeatedOption
  | missingArgument
  | unknownCommand
  | help
  | version
  deriving DecidableEq, Repr

namespace CommandLine

inductive Switch
  | help
  | version
  | counter
  | valued
  deriving DecidableEq, Repr

structure Grammar where
  longNames : List (String × Switch)
  shortNames : List (Char × Switch)
  isValue : String → Bool := fun _ => true
  positionals : List (String → Bool)
  commands : List String := []

structure Given where
  count : Nat := 0
  value : Option String := none
  positionals : List String := []
  deriving DecidableEq, Repr

inductive Pending
  | nothing
  | value (v : Option String)
  | positional (v : String)
  deriving DecidableEq, Repr

structure State where
  given : Given := {}
  pending : Pending := .nothing
  expecting : Bool := false
  index : Nat := 0
  trailing : Bool := false
  deriving DecidableEq, Repr

def takeValue (g : Grammar) (given : Given) (v : String) : Except UsageError Given :=
  if given.value.isSome then .error .repeatedOption
  else if g.isValue v then .ok { given with value := some v }
  else .error .badValue

def resolve (g : Grammar) (s : State) : Except UsageError State :=
  match s.pending with
  | .nothing => .ok s
  | .value none => .error .missingValue
  | .value (some v) => do
    pure { s with given := ← takeValue g s.given v, pending := .nothing }
  | .positional v =>
    if (g.positionals[s.given.positionals.length]?).all (· v) then
      .ok { s with
        given := { s.given with positionals := s.given.positionals ++ [v] }
        pending := .nothing }
    else .error .missingValue

def flip (g : Grammar) (s : State) (switch : Switch) : Except UsageError State := do
  let s ← resolve g s
  match switch with
  | .help => throw .help
  | .version => throw .version
  | .counter =>
    pure { s with given := { s.given with count := s.given.count + 1 }, expecting := false }
  | .valued => pure { s with pending := .value none, expecting := true }

def attach (g : Grammar) (s : State) (v : String) : Except UsageError State := do
  let s ← resolve g s
  pure { s with given := ← takeValue g s.given v, expecting := false }

def long (g : Grammar) (s : State) (cs : List Char) : Except UsageError State :=
  let (name, value?) := match Text.splitAtFirst? '=' cs with
    | some (name, value) => (name, some (String.ofList value))
    | none => (cs, none)
  match g.longNames.lookup (String.ofList name), value? with
  | none, _ => .error .unknownArgument
  | some .valued, some v => attach g s v
  | some _, some _ => .error .tooManyValues
  | some switch, none => flip g s switch

def short (g : Grammar) (s : State) : List Char → Except UsageError State
  | [] => .ok s
  | c :: cs =>
    match g.shortNames.lookup c with
    | none => .error .unknownArgument
    | some .valued =>
      match cs with
      | [] => flip g s .valued
      | '=' :: v => attach g s (String.ofList v)
      | v => attach g s (String.ofList v)
    | some switch => do short g (← flip g s switch) cs

def positional (g : Grammar) (s : State) (arg : String) : Except UsageError State :=
  if g.positionals.length ≤ s.index then .error .unknownArgument
  else do
    let s ← resolve g s
    pure { s with pending := .positional arg, index := s.index + 1, expecting := false }

def step (g : Grammar) (s : State) (arg : String) : Except UsageError State :=
  if s.trailing then positional g s arg
  else match arg.toList with
    | ['-', '-'] => .ok { s with trailing := true }
    | '-' :: '-' :: cs => long g s cs
    | '-' :: c :: cs => short g s (c :: cs)
    | _ =>
      if s.expecting then .ok { s with pending := .value (some arg), expecting := false }
      else positional g s arg

def scan (g : Grammar) (s : State) :
    List String → Except UsageError (State × Option (String × List String))
  | [] => .ok (s, none)
  | arg :: args =>
    if !s.trailing && !s.expecting && g.commands.contains arg then .ok (s, some (arg, args))
    else do scan g (← step g s arg) args

def finish (g : Grammar) (s : State) : Except UsageError Given := do
  pure (← resolve g s).given

end CommandLine

end NodeTelemetry
