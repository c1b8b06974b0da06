import NodeTelemetry.Saturating

namespace NodeTelemetry

/-- How long to sleep after a tick that took `overhead` of a `period`: what is left of the period,
or four times the overhead if the tick took a fifth of the period or more. -/
def sleepBudget (period overhead : UInt64) : UInt64 :=
  if period ≤ satMul overhead 5 then satMul overhead 4 else period - overhead

def periodInRange (ms : UInt64) : Bool := 100 < ms && ms < 10000

def nanosPerMilli : UInt64 := 1000000

end NodeTelemetry
