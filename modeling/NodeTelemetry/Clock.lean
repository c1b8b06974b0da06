namespace NodeTelemetry

/-- A source of readings in nanoseconds: first the queued ones in order, then `now`, which moves on
by `step` with every reading. -/
structure Clock where
  queue : List UInt64 := []
  now : UInt64 := 0
  step : UInt64 := 0
  deriving DecidableEq, Repr, Inhabited

namespace Clock

def still : Clock := {}

def read (c : Clock) : UInt64 × Clock :=
  match c.queue with
  | t :: queue => (t, { c with queue })
  | [] => (c.now, { c with now := c.now + c.step })

def readings (c : Clock) : Nat → List UInt64
  | 0 => []
  | n + 1 => c.read.1 :: c.read.2.readings n

@[simp] theorem read_still : still.read = (0, still) := by simp [still, read]

end Clock

end NodeTelemetry
