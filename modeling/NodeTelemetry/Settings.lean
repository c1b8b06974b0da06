import NodeTelemetry.Counter.Sensor
import NodeTelemetry.FileTree
import NodeTelemetry.Net.SocketAddr
import NodeTelemetry.Pacing
import NodeTelemetry.Registry
import NodeTelemetry.Text.CharRanges
import NodeTelemetry.Text.Quoted

namespace NodeTelemetry

inductive Mode
  | whole
  | perNode
  deriving DecidableEq, Repr

inductive LogLevel
  | error
  | warn
  | info
  | debug
  | trace
  deriving DecidableEq, Repr

structure RawEvent where
  name : String
  config : UInt64
  deriving DecidableEq, Repr

structure SensorGroup where
  name : String
  sensors : List Sensor
  deriving DecidableEq, Repr

structure Settings where
  listen : Net.SocketAddr := .v4 .loopback 4241
  mode : Mode := .whole
  capacity : Nat := 256
  period : UInt64 := 1000
  autostart : Bool := false
  level : LogLevel := .info
  enabled : List String := ["cyc", "inst", "llcref", "llcmiss", "br", "brmiss", "l2lin", "temp"]
  rawEvents : List RawEvent := []
  temperatureDetail : Bool := false
  sensorDevice : String := "/dev/ipmi0"
  sensorGroups : List SensorGroup := []
  deriving DecidableEq, Repr

inductive NameKind
  | counter
  | sensor
  deriving DecidableEq, Repr

def NameKind.word : NameKind → String
  | .counter => "counter"
  | .sensor => "sensor"

inductive SettingsError
  | malformed
  | noCapacity
  | periodOutOfRange (ms : UInt64)
  | nameLength (kind : NameKind) (name : String)
  | nameCharacter (kind : NameKind) (name : String)
  | sensorCount (group : String)
  | cannotOpen (cause : OsError)
  | cannotRead (cause : OsError)
  deriving DecidableEq, Repr

def SettingsError.message : SettingsError → String
  | .malformed => "failed to parse config file: "
  | .noCapacity => "general.capacity must be greater than zero"
  | .periodOutOfRange ms =>
    "general.period " ++ toString ms.toNat ++ " ms is outside the accepted range"
  | .nameLength kind name =>
    kind.word ++ " name " ++ Text.quoted name ++ " must be 1 to " ++ toString maxNameLength ++
      " bytes"
  | .nameCharacter kind name =>
    kind.word ++ " name " ++ Text.quoted name ++
      " must not contain quotes, backslashes or control characters"
  | .sensorCount group =>
    "ipmi group " ++ group ++ " must have 1 to " ++ toString maxSensors ++ " sensors"
  | .cannotOpen cause => "unable to open config file: " ++ cause.message
  | .cannotRead cause => "unable to read config file: " ++ cause.message

namespace Settings

def counterNames (s : Settings) : List String := ["ts", "intv"] ++ s.enabled ++ ["oh"]

def inName (c : Char) : Bool := c != '"' && c != '\\' && !Text.isControl c

def checkName (kind : NameKind) (name : String) : Except SettingsError Unit :=
  if name.isEmpty || maxNameLength < name.utf8ByteSize then .error (.nameLength kind name)
  else if !name.toList.all inName then .error (.nameCharacter kind name)
  else .ok ()

def checkGroup (g : SensorGroup) : Except SettingsError Unit := do
  if g.sensors.isEmpty || maxSensors < g.sensors.length then throw (.sensorCount g.name)
  g.sensors.forM fun s => checkName .sensor s.name

def namedCounters (s : Settings) : List String :=
  s.rawEvents.map RawEvent.name ++ s.sensorGroups.map SensorGroup.name ++ s.enabled

def check (s : Settings) : Except SettingsError Unit := do
  if s.capacity = 0 then throw .noCapacity
  if !periodInRange s.period then throw (.periodOutOfRange s.period)
  s.namedCounters.forM (checkName .counter)
  s.sensorGroups.forM checkGroup

end Settings

end NodeTelemetry
