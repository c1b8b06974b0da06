namespace NodeTelemetry

structure Metrics where
  ticks : Nat := 0
  overwritten : Nat := 0
  perfDiscarded : Nat := 0
  rawReadFailures : Nat := 0
  sensorFailures : Nat := 0
  deriving DecidableEq, Repr, Inhabited

def Metrics.entries (m : Metrics) : List (String × Nat) :=
  [("nodestat_perf_discarded", m.perfDiscarded),
    ("nodestat_raw_read_failures", m.rawReadFailures),
    ("nodestat_samples_overwritten", m.overwritten),
    ("nodestat_sensor_failures", m.sensorFailures),
    ("nodestat_ticks", m.ticks)]

end NodeTelemetry
