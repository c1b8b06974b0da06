import NodeTelemetry.Registry
import NodeTelemetry.Settings

namespace NodeTelemetry

inductive Provider
  | timing
  | events
  | registers
  | sensors
  deriving DecidableEq, Repr

namespace Provider

def all : List Provider := [.timing, .events, .registers, .sensors]

def eventCode? (s : Settings) (name : String) : Option UInt64 :=
  let raw := (s.rawEvents.find? (·.name = name)).map RawEvent.config
  raw.or (Keyed.find? EventCounter.named name)

def counter? (p : Provider) (s : Settings) (cpus : List Nat) (name : String) : Option Counter :=
  match p with
  | .timing => (Timing.ofName? name).map .timing
  | .events => (eventCode? s name).map fun config => .event { name, config, cpus }
  | .registers =>
    (Register.ofName? name).map fun register =>
      .register { register, cpu := cpus.headD 0, detail := s.temperatureDetail }
  | .sensors =>
    (s.sensorGroups.find? (·.name = name)).map fun g =>
      .sensors (.new g.name s.sensorDevice g.sensors)

def build (providers : List Provider) (s : Settings) (cpus : List Nat) (name : String) :
    Option Counter :=
  providers.findSome? fun p => p.counter? s cpus name

theorem name_of_counter? {p : Provider} {s : Settings} {cpus : List Nat} {name : String}
    {c : Counter} (h : p.counter? s cpus name = some c) : c.name = name := by
  cases p <;> simp only [counter?, Option.map_eq_some_iff] at h <;> obtain ⟨x, hx, rfl⟩ := h
  · exact (Timing.ofName?_eq_some_iff.mp hx).symm
  · rfl
  · exact (Register.ofName?_eq_some_iff.mp hx).symm
  · simpa [Counter.name, SensorCounter.new] using List.find?_some hx

end Provider

namespace Registry

def counters (providers : List Provider) (s : Settings) (cpus : List Nat) (names : List String) :
    Except RegistryError (List Counter) :=
  names.mapM fun name =>
    match Provider.build providers s cpus name with
    | some c => .ok c
    | none => .error (.unknown name)

def resolve (providers : List Provider) (s : Settings) (cpus : List Nat) (tracer : Tracer)
    (names : List String) : Except RegistryError Registry := do
  Registry.new tracer (← counters providers s cpus names)

end Registry

end NodeTelemetry
