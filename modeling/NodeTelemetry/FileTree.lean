import NodeTelemetry.Keyed
import NodeTelemetry.OsError
import NodeTelemetry.Text.Blank
import NodeTelemetry.Text.Utf8

namespace NodeTelemetry

inductive FileEntry
  | directory
  | file (content : List UInt8)
  | link (target : String)
  deriving DecidableEq, Repr

inductive Found
  | directory
  | file (content : List UInt8)
  deriving DecidableEq, Repr

def Found.text : Found → Except OsError String
  | .directory => .error .isADirectory
  | .file content =>
    match Text.ofBytes? content with
    | some s => .ok s
    | none => .error .notText

structure FileTree where
  entries : Keyed (List String) FileEntry := []
  deriving Repr

namespace FileTree

def entry? (t : FileTree) (place : List String) : Option FileEntry :=
  if place.isEmpty then some .directory else t.entries.find? place

def maxName : Nat := 255
def maxPath : Nat := 4095

def maxLinks : Nat := 40

def parts (path : String) : List String := (Text.splitOn '/' path.toList).map String.ofList

def origin (directory : List String) (path : String) : List String :=
  if path.toList.head? = some '/' then [] else directory

def follow (t : FileTree) (links : Nat) (place : List String) (names : List String) :
    Except OsError (List String) :=
  match names with
  | [] => .ok place
  | name :: names =>
    if t.entry? place ≠ some .directory then .error .notADirectory
    else if name = "" ∨ name = "." then t.follow links place names
    else if name = ".." then t.follow links place.dropLast names
    else if maxName < name.utf8ByteSize then .error .nameTooLong
    else
      match t.entry? (place ++ [name]) with
      | none => .error .noSuchFile
      | some (.link target) =>
        match links with
        | 0 => .error .tooManyLinks
        | links + 1 => t.follow links (origin place target) (parts target ++ names)
      | some _ => t.follow links (place ++ [name]) names
termination_by (links, names.length)

def place (t : FileTree) (directory : List String) (path : String) :
    Except OsError (List String) :=
  if path.toList.contains '\x00' then .error .nulInName
  else if path = "" then .error .noSuchFile
  else if maxPath < path.utf8ByteSize then .error .nameTooLong
  else t.follow maxLinks (origin directory path) (parts path)

def find (t : FileTree) (directory : List String) (path : String) : Except OsError Found := do
  match t.entry? (← t.place directory path) with
  | some .directory => pure .directory
  | some (.file content) => pure (.file content)
  | _ => throw .noSuchFile

def readText (t : FileTree) (directory : List String) (path : String) : Except OsError String := do
  (← t.find directory path).text

def add (t : FileTree) (place : List String) (e : FileEntry) : FileTree :=
  let above := (List.range place.length).map place.take
  let missing := above.filter fun p => (t.entry? p).isNone
  ⟨missing.foldl (fun entries p => entries.put p .directory) t.entries |>.put place e⟩

def enter (t : FileTree) (place : List String) (name : String) :
    Except OsError (FileTree × List String) :=
  match t.follow maxLinks place [name] with
  | .ok next => .ok (t, next)
  | .error e =>
    let next := place ++ [name]
    if e = .noSuchFile ∧ (t.entry? next).isNone then .ok (t.add next .directory, next)
    else .error e

def enterAll (t : FileTree) (place : List String) (names : List String) :
    Except OsError (FileTree × List String) :=
  names.foldlM (fun (t, place) name => t.enter place name) (t, place)

def make (t : FileTree) (directory : List String) (path : String) (e : FileEntry) :
    Except OsError FileTree := do
  let start := origin directory path
  let names := (parts path).filter fun n => n ≠ "" ∧ n ≠ "."
  match e, names.getLast? with
  | .directory, _ => pure (← t.enterAll start names).1
  | _, none => throw .isADirectory
  | e, some name =>
    let (t, place) ← t.enterAll start names.dropLast
    pure (t.add (place ++ [name]) e)

def names (t : FileTree) (directory : List String) : List String :=
  t.entries.filterMap fun (place, _) =>
    if place.dropLast = directory then place.getLast? else none

end FileTree

end NodeTelemetry
