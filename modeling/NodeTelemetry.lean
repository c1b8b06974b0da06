import NodeTelemetry.Client
import NodeTelemetry.Clock
import NodeTelemetry.CommandLine
import NodeTelemetry.ControlPlane
import NodeTelemetry.Counter
import NodeTelemetry.Counter.Event
import NodeTelemetry.Counter.Failure
import NodeTelemetry.Counter.Probe
import NodeTelemetry.Counter.Register
import NodeTelemetry.Counter.Sensor
import NodeTelemetry.Counter.Timing
import NodeTelemetry.CpuList
import NodeTelemetry.Device.Hardware
import NodeTelemetry.Device.SensorBus
import NodeTelemetry.Engine
import NodeTelemetry.FileTree
import NodeTelemetry.History
import NodeTelemetry.History.Ring
import NodeTelemetry.Http
import NodeTelemetry.Http.Target
import NodeTelemetry.Keyed
import NodeTelemetry.Machine
import NodeTelemetry.Main
import NodeTelemetry.Metrics
import NodeTelemetry.Net.SocketAddr
import NodeTelemetry.OsError
import NodeTelemetry.Pacing
import NodeTelemetry.Program
import NodeTelemetry.Proofs.AddressedNames
import NodeTelemetry.Proofs.AttributeEffects
import NodeTelemetry.Proofs.AttributeTable
import NodeTelemetry.Proofs.ClockReadings
import NodeTelemetry.Proofs.CounterLife
import NodeTelemetry.Proofs.CounterNames
import NodeTelemetry.Proofs.DrainExtent
import NodeTelemetry.Proofs.EngineHistories
import NodeTelemetry.Proofs.EngineLife
import NodeTelemetry.Proofs.EventHistory
import NodeTelemetry.Proofs.EventReadings
import NodeTelemetry.Proofs.FieldNames
import NodeTelemetry.Proofs.Frame
import NodeTelemetry.Proofs.HalfLimit
import NodeTelemetry.Proofs.Handshake
import NodeTelemetry.Proofs.HistoryQueue
import NodeTelemetry.Proofs.HistoryReads
import NodeTelemetry.Proofs.Ledger
import NodeTelemetry.Proofs.ListingOrder
import NodeTelemetry.Proofs.NodeDeeds
import NodeTelemetry.Proofs.NodeGroups
import NodeTelemetry.Proofs.Numerals
import NodeTelemetry.Proofs.PercentCodes
import NodeTelemetry.Proofs.PeriodRange
import NodeTelemetry.Proofs.PlaneRules
import NodeTelemetry.Proofs.PlaneRun
import NodeTelemetry.Proofs.PowerSwitch
import NodeTelemetry.Proofs.ProcessorLists
import NodeTelemetry.Proofs.ProviderOrder
import NodeTelemetry.Proofs.ReadProgress
import NodeTelemetry.Proofs.RecordLength
import NodeTelemetry.Proofs.RecordText
import NodeTelemetry.Proofs.RegistryDeeds
import NodeTelemetry.Proofs.RingAllocation
import NodeTelemetry.Proofs.RingLayout
import NodeTelemetry.Proofs.SampleAccounts
import NodeTelemetry.Proofs.SamplerRules
import NodeTelemetry.Proofs.SamplingCost
import NodeTelemetry.Proofs.SamplingOrder
import NodeTelemetry.Proofs.ScaledChange
import NodeTelemetry.Proofs.SensorHistory
import NodeTelemetry.Proofs.SensorPolls
import NodeTelemetry.Proofs.SensorRecords
import NodeTelemetry.Proofs.ShownColumns
import NodeTelemetry.Proofs.SleepBudget
import NodeTelemetry.Proofs.StopHandshake
import NodeTelemetry.Proofs.StopUndisturbed
import NodeTelemetry.Proofs.SwitchUndisturbed
import NodeTelemetry.Proofs.Tally
import NodeTelemetry.Proofs.TemperatureWords
import NodeTelemetry.Proofs.ThreadSteps
import NodeTelemetry.Proofs.TimedSamples
import NodeTelemetry.Proofs.Traffic
import NodeTelemetry.Proofs.UnknownResponses
import NodeTelemetry.Proofs.WorkerDeeds
import NodeTelemetry.Provider
import NodeTelemetry.Record
import NodeTelemetry.Registry
import NodeTelemetry.Sampler
import NodeTelemetry.Saturating
import NodeTelemetry.Schema
import NodeTelemetry.Settings
import NodeTelemetry.Settings.Reader
import NodeTelemetry.Site
import NodeTelemetry.Text.Blank
import NodeTelemetry.Text.CharRanges
import NodeTelemetry.Text.Digits
import NodeTelemetry.Text.Percent
import NodeTelemetry.Text.Quoted
import NodeTelemetry.Text.Utf8
import NodeTelemetry.Toml.Document
import NodeTelemetry.Toml.Layout
import NodeTelemetry.Toml.Moment
import NodeTelemetry.Toml.Number
import NodeTelemetry.Toml.Quoted
import NodeTelemetry.Toml.Table
import NodeTelemetry.Topology
import NodeTelemetry.Worker
