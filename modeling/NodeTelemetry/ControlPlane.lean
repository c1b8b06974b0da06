import NodeTelemetry.Sampler
import NodeTelemetry.Text.Blank
import NodeTelemetry.Text.Digits

namespace NodeTelemetry

structure Group where
  registry : Registry
  pin : Option Nat
  deriving DecidableEq, Repr

structure Node where
  id : Option Nat
  history : History
  sampler : Option Sampler
  deriving DecidableEq, Repr

namespace Node

def ofGroup (capacity : Nat) (g : Group) : Node :=
  let name := match g.registry.node with
    | some id => "node" ++ toString id
    | none => "global"
  { id := g.registry.node
    history := History.new g.registry.schema capacity
    sampler := some { name, pin := g.pin, state := .stopped g.registry } }

def suffix (n : Node) : String :=
  match n.id with
  | some id => toString id
  | none => ""

def visit (i : Nat) (act : Node → StateM Site Node) (nodes : List Node) :
    StateM Site (List Node) :=
  match nodes[i]? with
  | none => pure nodes
  | some n => do pure (nodes.set i (← act n))

def start (n : Node) : StateM Site (Option StartError × Node) :=
  match n.sampler with
  | none => pure (none, n)
  | some s => do
    let (e, s) ← s.start
    pure (e, { n with sampler := some s })

def onSampler (act : Sampler → History → StateM Site (Sampler × History)) (n : Node) :
    StateM Site Node :=
  match n.sampler with
  | none => pure n
  | some s => do
    let (s, history) ← act s n.history
    pure { n with sampler := some s, history }

def stop (pace : Pace) : Node → StateM Site Node := onSampler (Sampler.stop pace)

def happen (pace : Pace) (nodes : List Node) : Happening → StateM Site (List Node)
  | .step i => visit i (onSampler (Sampler.step pace)) nodes
  | .crash i => visit i (onSampler Sampler.crash) nodes

def meanwhile (pace : Pace) (nodes : List Node) : StateM Site (List Node) := do
  (← Site.pause).foldlM (happen pace) nodes

def discard (pace : Pace) (n : Node) : StateM Site Node :=
  match n.sampler with
  | none => pure n
  | some s => do pure { n with sampler := none, history := ← s.discard pace n.history }

def sweep (pace : Pace) (act : Node → StateM Site Node) :
    Nat → Nat → List Node → StateM Site (List Node)
  | _, 0, nodes => pure nodes
  | i, count + 1, nodes => do
    let nodes ← visit i act (← meanwhile pace nodes)
    sweep pace act (i + 1) count nodes

/-- Starts `count` nodes in order, from place `i` on. If one does not start, all nodes before it are
stopped again. -/
def startFrom (pace : Pace) : Nat → Nat → List Node → StateM Site (Option StartError × List Node)
  | _, 0, nodes => pure (none, nodes)
  | i, count + 1, nodes => do
    let nodes ← meanwhile pace nodes
    match nodes[i]? with
    | none => pure (none, nodes)
    | some n =>
      let (e, n) ← n.start
      let nodes := nodes.set i n
      match e with
      | none => startFrom pace (i + 1) count nodes
      | some e => pure (some e, ← sweep pace (stop pace) 0 i nodes)

def startAll (pace : Pace) (nodes : List Node) : StateM Site (Option StartError × List Node) :=
  startFrom pace 0 nodes.length nodes

def stopAll (pace : Pace) (nodes : List Node) : StateM Site (List Node) :=
  sweep pace (stop pace) 0 nodes.length nodes

def discardAll (pace : Pace) (nodes : List Node) : StateM Site (List Node) :=
  sweep pace (discard pace) 0 nodes.length nodes

end Node

inductive Attribute
  | power
  | period
  | clear (node : Nat)
  | history (node : Nat)
  | last (node : Nat)
  deriving DecidableEq, Repr

inductive SurfaceError
  | unknown (name : String)
  | readOnly (name : String)
  deriving DecidableEq, Repr

def SurfaceError.message : SurfaceError → String
  | .unknown name => "no attribute named " ++ name
  | .readOnly name => name ++ " is read-only"

structure ControlPlane where
  nodes : List Node
  on : Bool := false
  closed : Bool := false
  pace : Pace
  limit : Nat
  deriving DecidableEq, Repr

namespace ControlPlane

def new (groups : List Group) (capacity : Nat) (pace : Pace) (limit : Nat) : ControlPlane :=
  let node (i : Nat) (g : Group) :=
    Node.ofGroup capacity { g with registry := { g.registry with place := i } }
  { nodes := groups.mapIdx node, pace, limit }

def samplers (p : ControlPlane) : List Sampler := p.nodes.filterMap Node.sampler

def setOn (on : Bool) (p : ControlPlane) : StateM Site ControlPlane := do
  if p.closed || p.on == on then pure p
  else if on then
    let (e, nodes) ← Node.startAll p.pace p.nodes
    pure { p with nodes, on := e.isNone }
  else
    pure { p with nodes := ← Node.stopAll p.pace p.nodes, on := false }

def setPeriod (ms : UInt64) (p : ControlPlane) : Bool × ControlPlane :=
  if periodInRange ms then (true, { p with pace := { p.pace with period := ms } }) else (false, p)

def modifyHistory (i : Nat) (change : History → History) (p : ControlPlane) : ControlPlane :=
  { p with nodes := p.nodes.modify i fun n => { n with history := change n.history } }

def clear (i : Nat) : ControlPlane → ControlPlane := modifyHistory i History.clear

def readHistory (i : Nat) (p : ControlPlane) : String × ControlPlane :=
  match p.nodes[i]? with
  | none => ("", p)
  | some n =>
    let (text, h) := n.history.drain p.limit
    (text, p.modifyHistory i fun _ => h)

def readLast (i : Nat) (p : ControlPlane) : String :=
  match p.nodes[i]? with
  | none => ""
  | some n => n.history.last

def readHistory? (m : Arithmetic) (i : Nat) (p : ControlPlane) : Option String × ControlPlane :=
  match p.nodes[i]? with
  | none => (some "", p)
  | some n =>
    let (text?, h) := n.history.drain? m p.limit
    (text?, p.modifyHistory i fun _ => h)

def readLast? (m : Arithmetic) (i : Nat) (p : ControlPlane) : Option String :=
  match p.nodes[i]? with
  | none => some ""
  | some n => n.history.last? m

theorem readHistory?_wrapping (i : Nat) (p : ControlPlane) :
    p.readHistory? .wrapping i = (some (p.readHistory i).1, (p.readHistory i).2) := by
  unfold readHistory? readHistory
  cases p.nodes[i]? with
  | none => rfl
  | some n => simp only [History.drain?_wrapping]

theorem readLast?_wrapping (i : Nat) (p : ControlPlane) :
    p.readLast? .wrapping i = some (p.readLast i) := by
  unfold readLast? readLast
  cases p.nodes[i]? with
  | none => rfl
  | some n => exact n.history.last?_wrapping

def shutdown (p : ControlPlane) : StateM Site ControlPlane := do
  let nodes ← Node.stopAll p.pace p.nodes
  let nodes ← Node.discardAll p.pace nodes
  pure { p with nodes, on := false, closed := true }

def settle (p : ControlPlane) : StateM Site ControlPlane := do
  pure { p with nodes := ← p.nodes.mapM (Node.onSampler (Sampler.settle p.pace)) }

def perNode : List (String × (Nat → Attribute)) :=
  [("clear", .clear), ("stat", .history), ("last", .last)]

def attributes (p : ControlPlane) : List String :=
  ["ctrl", "period"] ++
    p.nodes.flatMap fun n => perNode.map fun (base, _) => base ++ n.suffix

def nodeAttribute? (nodes : List Node) (name : String) :
    List (String × (Nat → Attribute)) → Option Attribute
  | [] => none
  | (base, ofNode) :: bases =>
    match Text.afterPrefix? base.toList name.toList with
    -- The first base that fits decides, also if no node has what is left for its suffix.
    | some suffix => (nodes.findIdx? fun n => n.suffix.toList == suffix).map ofNode
    | none => nodeAttribute? nodes name bases

def attribute? (p : ControlPlane) (name : String) : Option Attribute :=
  if name = "ctrl" then some .power
  else if name = "period" then some .period
  else nodeAttribute? p.nodes name perNode

def parsePeriod (input : String) : Option UInt64 :=
  let cs := Text.trim input.toList
  let hexadecimal? := (Text.afterPrefix? ['0', 'x'] cs).or (Text.afterPrefix? ['0', 'X'] cs)
  let ms? := match hexadecimal? with
    | some digits => Text.natural? 16 UInt64.size digits
    | none => Text.decimal64? cs
  ms?.map UInt64.ofNat

def read (name : String) (p : ControlPlane) : Except SurfaceError String × ControlPlane :=
  match p.attribute? name with
  | none => (.error (.unknown name), p)
  | some .power => (.ok (if p.on then "on\n" else "off\n"), p)
  | some .period => (.ok (toString p.pace.period.toNat ++ "\n"), p)
  | some (.clear _) => (.ok "", p)
  | some (.history i) =>
    let (text, p) := p.readHistory i
    (.ok text, p)
  | some (.last i) => (.ok (p.readLast i), p)

def read? (m : Arithmetic) (name : String) (p : ControlPlane) :
    Option (Except SurfaceError String) × ControlPlane :=
  match p.attribute? name with
  | some (.history i) =>
    let (text?, p) := p.readHistory? m i
    (text?.map .ok, p)
  | some (.last i) => ((p.readLast? m i).map .ok, p)
  | _ =>
    let (answer, p) := p.read name
    (some answer, p)

theorem read?_wrapping (name : String) (p : ControlPlane) :
    p.read? .wrapping name = (some (p.read name).1, (p.read name).2) := by
  unfold read?
  split
  case h_1 i ha =>
    simp only [readHistory?_wrapping, read, ha]
    rfl
  case h_2 i ha =>
    simp only [readLast?_wrapping, read, ha]
    rfl
  case h_3 => rfl

def begins (cs : List Char) (word : String) : Bool := (Text.afterPrefix? word.toList cs).isSome

def write (name input : String) (p : ControlPlane) :
    StateM Site (Except SurfaceError Nat × ControlPlane) := do
  let cs := input.toList
  match p.attribute? name with
  | none => pure (.error (.unknown name), p)
  | some (.history _) | some (.last _) => pure (.error (.readOnly name), p)
  | some .power =>
    let p ←
      if begins cs "on" then p.setOn true
      else if begins cs "off" then p.setOn false
      else pure p
    pure (.ok input.utf8ByteSize, p)
  | some .period =>
    let p := match parsePeriod input with
      | some ms => (p.setPeriod ms).2
      | none => p
    pure (.ok input.utf8ByteSize, p)
  | some (.clear i) =>
    let word := Text.trim cs
    let p := if word = ['o', 'n'] ∨ word = ['1'] then p.clear i else p
    pure (.ok input.utf8ByteSize, p)

end ControlPlane

end NodeTelemetry
