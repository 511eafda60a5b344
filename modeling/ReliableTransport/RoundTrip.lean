import ReliableTransport.Config

/-!
# Round-trip estimation

The retransmission timeout follows the smoothed round-trip time and its smoothed mean deviation.  A
sample moves the former by an eighth and the latter by a quarter of the distance; the timeout is the
smoothed time plus four deviations, but at least the clock granularity, clamped to the configured
bounds.
-/

namespace ReliableTransport

/-- Estimates of the round-trip time and the timeout derived from them. -/
structure RoundTrip where
  /-- Smoothed round-trip time, absent before the first sample. -/
  smoothed : Option Nat
  /-- Smoothed mean deviation. -/
  deviation : Nat
  /-- Current retransmission timeout. -/
  timeout : Nat
  /-- Least timeout after a sample. -/
  minTimeout : Nat
  /-- Greatest timeout. -/
  maxTimeout : Nat
  /-- Least margin of the timeout over the smoothed round-trip time. -/
  granularity : Nat
  deriving DecidableEq, Repr

namespace RoundTrip

/-- The estimates before any sample. -/
def initial (config : Config) : RoundTrip where
  smoothed := none
  deviation := 0
  timeout := config.initialTimeout
  minTimeout := config.minTimeout
  maxTimeout := config.maxTimeout
  granularity := config.clockGranularity

/-- The distance between two lengths of time. -/
def gap (left right : Nat) : Nat :=
  (left - right) + (right - left)

/-- The smoothed time and deviation after one more sample. -/
def smooth (estimate : RoundTrip) (sample : Nat) : Except Fault (Nat × Nat) :=
  match estimate.smoothed with
  | none => .ok (sample, sample / 2)
  | some smoothed => do
      let deviation ← Duration.checked (estimate.deviation * 3)
      let deviation ← Duration.checked (deviation / 4 + gap smoothed sample / 4)
      let weighted ← Duration.checked (smoothed * 7)
      let smoothed ← Duration.checked (weighted / 8 + sample / 8)
      return (smoothed, deviation)

/-- Take a round-trip sample into account. -/
def observe (estimate : RoundTrip) (sample : Nat) : Except Fault RoundTrip := do
  let (smoothed, deviation) ← estimate.smooth sample
  let margin ← Duration.checked (deviation * 4)
  let timeout ← Duration.checked (smoothed + max estimate.granularity margin)
  return { estimate with
    smoothed := some smoothed
    deviation := deviation
    timeout := min (max timeout estimate.minTimeout) estimate.maxTimeout }

/-- Double the timeout after an expiry, up to the greatest timeout. -/
def backOff (estimate : RoundTrip) : Except Fault RoundTrip := do
  let doubled ← Duration.checked (estimate.timeout * 2)
  return { estimate with timeout := min doubled estimate.maxTimeout }

end RoundTrip
end ReliableTransport
