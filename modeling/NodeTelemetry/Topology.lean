import NodeTelemetry.CpuList
import NodeTelemetry.FileTree
import NodeTelemetry.Text.Quoted

/-!
The processors of a machine and its NUMA nodes, as its system directory shows them: `cpu/online`
lists the processors, and `node/nodeN/cpulist` those of a node.
-/

namespace NodeTelemetry

inductive TopologyError
  | unreadable (cause : OsError)
  /-- The directory of the nodes cannot be listed. Without a cause, an entry of it leads back to
  it. -/
  | notListed (cause : Option OsError)
  | badList (list : String)
  | overgrown
  deriving DecidableEq, Repr

namespace TopologyError

def message : TopologyError → String
  | .unreadable cause => "io error: " ++ cause.message
  | .notListed (some cause) => "sysfs walk error: " ++ cause.message
  | .notListed none => "sysfs walk error: file system loop found"
  | .badList list => "malformed cpu list: " ++ Text.quoted list
  | .overgrown => "capacity overflow"

def causes : TopologyError → List String
  | .unreadable cause | .notListed (some cause) => [cause.message]
  | _ => []

end TopologyError

structure NumaNode where
  id : Nat
  cpus : List Nat
  deriving DecidableEq, Repr

namespace Topology

def parseList (list : String) : Except TopologyError (List Nat) :=
  match CpuList.parse list with
  | .ok cpus => .ok cpus
  | .error .malformed => .error (.badList list)
  | .error .overgrown => .error .overgrown

theorem parseList_eq_ok_iff {list : String} {cpus : List Nat} :
    parseList list = .ok cpus ↔ CpuList.parse? list = some cpus := by
  rw [CpuList.parse?_eq_some_iff, parseList]
  split <;> simp_all

def readList (list : Except OsError String) : Except TopologyError (List Nat) :=
  match list with
  | .ok list => parseList list
  | .error e => .error (.unreadable e)

inductive NodeEntry
  | broken (cause : Option OsError)
  | found (name : String) (cpulist : Option (Except OsError String))
  deriving Repr

def nodeId? (name : String) : Option Nat := do
  Text.decimal64? (← Text.afterPrefix? "node".toList name.toList)

def nodeOf : NodeEntry → Except TopologyError (Option NumaNode)
  | .broken cause => .error (.notListed cause)
  | .found name cpulist =>
    match nodeId? name, cpulist with
    | some id, some list => do pure (some ⟨id, ← readList list⟩)
    | _, _ => pure none

def nodes (entries : List NodeEntry) : Except TopologyError (List NumaNode) := do
  let found ← entries.mapM nodeOf
  pure ((found.filterMap id).mergeSort fun a b => a.id ≤ b.id)

def systemDirectory : List String := ["sys", "devices", "system"]

def online (t : FileTree) (directory : List String) : Except TopologyError (List Nat) :=
  readList (t.readText directory "cpu/online")

/-- An entry of the directory of nodes, which is at `place`. Links are followed on the whole way
from `directory`, so that those that lead to `place` count for each entry again. -/
def nodeEntry (t : FileTree) (directory place : List String) (name : String) : NodeEntry :=
  let isLink := match t.entry? (place ++ [name]) with
    | some (.link _) => true
    | _ => false
  match t.place directory ("node/" ++ name) with
  | .error e => .broken (some e)
  | .ok target =>
    if isLink && target == place then .broken none
    else
      match t.find directory ("node/" ++ name ++ "/cpulist") with
      | .error _ => .found name none
      | .ok found => .found name (some found.text)

def nodeEntries (t : FileTree) (directory : List String) :
    Except TopologyError (List NodeEntry) :=
  match t.place directory "node" with
  | .error e => .error (.notListed (some e))
  | .ok place =>
    if t.entry? place = some .directory then .ok ((t.names place).map (nodeEntry t directory place))
    else .ok []

abbrev Walk := FileTree → List String → Except TopologyError (List NodeEntry)

def numaNodes (t : FileTree) (directory : List String) (walk : Walk := nodeEntries) :
    Except TopologyError (List NumaNode) := do
  nodes (← walk t directory)

def numberLines (indent first : String) (ns : List Nat) (last : String) : List String :=
  if ns.isEmpty then [indent ++ first ++ "[]" ++ last]
  else
    let lines := ns.map fun n => indent ++ "  " ++ toString n
    let separated := lines.dropLast.map (· ++ ",") ++ lines.drop (lines.length - 1)
    [indent ++ first ++ "["] ++ separated ++ [indent ++ "]" ++ last]

def nodeLines (n : NumaNode) (last : String) : List String :=
  ["    \x7b", "      \"id\": " ++ toString n.id ++ ","] ++
    numberLines "      " "\"cpus\": " n.cpus "" ++ ["    \x7d" ++ last]

def report (online : List Nat) (nodes : List NumaNode) : List String :=
  let nodeList :=
    if nodes.isEmpty then ["  \"nodes\": []"]
    else
      ["  \"nodes\": ["] ++ (nodes.dropLast.flatMap fun n => nodeLines n ",") ++
        ((nodes.drop (nodes.length - 1)).flatMap fun n => nodeLines n "") ++ ["  ]"]
  ["\x7b"] ++ numberLines "  " "\"online\": " online "," ++ nodeList ++ ["\x7d"]

end Topology

end NodeTelemetry
