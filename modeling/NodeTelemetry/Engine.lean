import NodeTelemetry.ControlPlane
import NodeTelemetry.Provider
import NodeTelemetry.Topology

namespace NodeTelemetry

inductive EngineError
  | topology (cause : TopologyError)
  | noNodes
  | registry (node : Option Nat) (cause : RegistryError)
  deriving DecidableEq, Repr

namespace EngineError

def scope : Option Nat → String
  | some id => "node " ++ toString id
  | none => "global"

def message : EngineError → String
  | .topology cause => "failed to discover topology: " ++ cause.message
  | .noNodes => "no numa node has any processors"
  | .registry node cause => scope node ++ ": " ++ cause.message

def causes : EngineError → List String
  | .topology cause => cause.message :: cause.causes
  | .noNodes => []
  | .registry _ cause => cause.message :: cause.causes

end EngineError

namespace Engine

def pageSize : Nat := 4096

structure Scope where
  node : Option Nat
  cpus : List Nat
  deriving DecidableEq, Repr

abbrev Supply := List Nat → Except RegistryError (List Counter)

def supply (providers : List Provider) (s : Settings) : Supply := fun cpus =>
  Registry.counters providers s cpus s.counterNames

def groupAt (supply : Supply) (clock place : Nat) (scope : Scope) :
    StateM Site (Except EngineError Group) :=
  match supply scope.cpus >>= Registry.new { clock } with
  | .error e => pure (.error (.registry scope.node e))
  | .ok r => do
    let (e, registry) ← { r with place, node := scope.node }.activate
    match e with
    | some e =>
      let _ ← registry.deactivate
      pure (.error (.registry scope.node e))
    | none => pure (.ok { registry, pin := if scope.node.isSome then scope.cpus.head? else none })

def group (providers : List Provider) (s : Settings) (id : Option Nat) (cpus : List Nat)
    (clock : Nat) : StateM Site (Except EngineError Group) :=
  groupAt (supply providers s) clock 0 ⟨id, cpus⟩

def groups (supply : Supply) (clock : Nat) (done : List Group) :
    List Scope → StateM Site (Except EngineError (List Group))
  | [] => pure (.ok done)
  | scope :: scopes => do
    match ← groupAt supply clock done.length scope with
    | .ok g => groups supply clock (done ++ [g]) scopes
    | .error e =>
      done.forM fun g => discard <| g.registry.deactivate
      pure (.error e)

def scopesOf (mode : Mode) (online : Except TopologyError (List Nat))
    (nodes : Except TopologyError (List NumaNode)) : Except EngineError (List Scope) :=
  match mode with
  | .whole => do
    let cpus ← online.mapError .topology
    pure [⟨none, cpus⟩]
  | .perNode => do
    let nodes ← nodes.mapError .topology
    match nodes.filter (!·.cpus.isEmpty) with
    | [] => throw .noNodes
    | nodes => pure (nodes.map fun n => ⟨some n.id, n.cpus⟩)

def assemble (supply : Supply) (s : Settings) (online : Except TopologyError (List Nat))
    (nodes : Except TopologyError (List NumaNode)) (clock : Nat) :
    StateM Site (Except EngineError ControlPlane) := do
  match scopesOf s.mode online nodes with
  | .error e => pure (.error e)
  | .ok scopes =>
    match ← groups supply clock [] scopes with
    | .error e => pure (.error e)
    | .ok gs => pure (.ok (.new gs s.capacity ⟨s.period, clock⟩ pageSize))

def build (providers : List Provider) (s : Settings) (online : Except TopologyError (List Nat))
    (nodes : Except TopologyError (List NumaNode)) (clock : Nat) :
    StateM Site (Except EngineError ControlPlane) :=
  assemble (supply providers s) s online nodes clock

end Engine

end NodeTelemetry
