import NodeTelemetry.Settings
import NodeTelemetry.Toml.Document

/-!
The settings in a TOML document. A record may be written as a table, or as an array of its fields in
order; fields that have a default may be left out, and nothing else may be added to a table.
-/

namespace NodeTelemetry.Settings

open Toml (Value Entries)

def readText? : Value → Option String
  | .text s => some s
  | _ => none

def readBoolean? : Value → Option Bool
  | .boolean b => some b
  | _ => none

def readNatural? (bound : Nat) : Value → Option Nat
  | .integer n => if 0 ≤ n ∧ n < bound then some n.toNat else none
  | _ => none

def readWord? (v : Value) : Option UInt64 := (readNatural? UInt64.size v).map UInt64.ofNat

def readByte? (v : Value) : Option UInt8 := (readNatural? UInt8.size v).map UInt8.ofNat

def items? : Value → Option (List Value)
  | .array vs => some vs
  | .tables ts => some (ts.map (.table .header))
  | _ => none

def readList? {α : Type} (read : Value → Option α) (v : Value) : Option (List α) := do
  (← items? v).mapM read

def isEmpty : Value → Bool
  | .table _ [] => true
  | .array [] => true
  | .tables [] => true
  | _ => false

def readChoice? {α : Type} (choices : Keyed String α) : Value → Option α
  | .text s => choices.find? s
  | .table _ [(key, v)] => if isEmpty v then choices.find? key else none
  | _ => none

def fields? (names : List String) : Value → Option Entries
  | .table _ entries => if entries.all fun (k, _) => names.contains k then some entries else none
  | v => (items? v).map names.zip

def required? {α : Type} (fields : Entries) (name : String) (read : Value → Option α) : Option α :=
  (fields.find? name).bind read

def optional? {α : Type} (fields : Entries) (name : String) (default : α)
    (read : Value → Option α) : Option α :=
  match fields.find? name with
  | some v => read v
  | none => some default

def readAddress? (v : Value) : Option Net.SocketAddr := (readText? v).bind Net.SocketAddr.parse?

def readMode? : Value → Option Mode := readChoice? [("global", .whole), ("numa", .perNode)]

def levels : Keyed String LogLevel :=
  [("error", .error), ("warn", .warn), ("info", .info), ("debug", .debug), ("trace", .trace)]

def readLevel? : Value → Option LogLevel := readChoice? levels

def readRawEvent? (v : Value) : Option RawEvent := do
  let fs ← fields? ["name", "config"] v
  pure { name := ← required? fs "name" readText?, config := ← required? fs "config" readWord? }

def readSensor? (v : Value) : Option Sensor := do
  let fs ← fields? ["name", "number", "mul"] v
  pure
    { name := ← required? fs "name" readText?
      number := ← required? fs "number" readByte?
      factor := ← optional? fs "mul" 1 readWord? }

def readGroup? (v : Value) : Option SensorGroup := do
  let fs ← fields? ["name", "sensors"] v
  pure
    { name := ← required? fs "name" readText?
      sensors := ← required? fs "sensors" (readList? readSensor?) }

/-! Each of the tables of a document sets its own part of the settings. -/

def readGeneral? (s : Settings) (v : Value) : Option Settings := do
  let fs ← fields? ["listen", "mode", "capacity", "period", "autostart"] v
  pure { s with
    listen := ← optional? fs "listen" s.listen readAddress?
    mode := ← optional? fs "mode" s.mode readMode?
    capacity := ← optional? fs "capacity" s.capacity (readNatural? UInt64.size)
    period := ← optional? fs "period" s.period readWord?
    autostart := ← optional? fs "autostart" s.autostart readBoolean? }

def readLog? (s : Settings) (v : Value) : Option Settings := do
  let fs ← fields? ["level"] v
  pure { s with level := ← optional? fs "level" s.level readLevel? }

def readCounters? (s : Settings) (v : Value) : Option Settings := do
  let fs ← fields? ["enabled"] v
  pure { s with enabled := ← optional? fs "enabled" s.enabled (readList? readText?) }

def readEvents? (s : Settings) (v : Value) : Option Settings := do
  let fs ← fields? ["raw"] v
  pure { s with rawEvents := ← optional? fs "raw" s.rawEvents (readList? readRawEvent?) }

def readRegisters? (s : Settings) (v : Value) : Option Settings := do
  let fs ← fields? ["temp_detail"] v
  pure { s with
    temperatureDetail := ← optional? fs "temp_detail" s.temperatureDetail readBoolean? }

def readSensors? (s : Settings) (v : Value) : Option Settings := do
  let fs ← fields? ["device", "group"] v
  pure { s with
    sensorDevice := ← optional? fs "device" s.sensorDevice readText?
    sensorGroups := ← optional? fs "group" s.sensorGroups (readList? readGroup?) }

def parts : List (String × (Settings → Value → Option Settings)) :=
  [("general", readGeneral?), ("log", readLog?), ("counters", readCounters?),
    ("perf", readEvents?), ("msr", readRegisters?), ("ipmi", readSensors?)]

def ofEntries? (entries : Entries) : Option Settings := do
  let fs ← fields? (parts.map Prod.fst) (.table .header entries)
  parts.foldlM (fun s (name, read) => optional? fs name s (read s)) ({} : Settings)

def parse (text : String) : Except SettingsError Settings :=
  match (Toml.parse? text).bind ofEntries? with
  | none => .error .malformed
  | some s => do
    s.check
    pure s

def load (file : Except OsError Found) : Except SettingsError Settings := do
  match file with
  | .error e => throw (.cannotOpen e)
  | .ok found =>
    match found.text with
    | .error e => throw (.cannotRead e)
    | .ok text => parse text

end NodeTelemetry.Settings
