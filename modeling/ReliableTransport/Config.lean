import ReliableTransport.Duration
import ReliableTransport.Segment.Codec

/-!
# Configuration

The parameters of one end of a connection and the rules that they have to satisfy.  Lengths of time
are numbers of nanoseconds.
-/

namespace ReliableTransport

/-- The parameters of one end of a connection. -/
structure Config where
  /-- Largest payload of a sent segment. -/
  maxSegmentSize : Nat := 536
  /-- Number of bytes buffered behind the next expected one, advertised in every segment. -/
  receiveWindow : UInt16 := 3072
  /-- Upper bound on the window granted by the peer. -/
  maxSendWindow : UInt16 := 3072
  /-- Retransmission timeout before the first round-trip sample. -/
  initialTimeout : Nat := Duration.second
  /-- Least retransmission timeout after a sample. -/
  minTimeout : Nat := Duration.second
  /-- Greatest retransmission timeout. -/
  maxTimeout : Nat := 60 * Duration.second
  /-- Least margin of the timeout over the smoothed round-trip time. -/
  clockGranularity : Nat := 100 * Duration.millisecond
  /-- Whether each expiry doubles the timeout until the next sample. -/
  backoff : Bool := true
  /-- Number of times that outstanding segments are resent before giving up, unlimited if absent. -/
  maxRetransmissions : Option Nat := some 5
  /-- Number of writes that may wait for the connection. -/
  channelCapacity : Nat := 64
  deriving DecidableEq, Repr

/-- A rule that a configuration breaks. -/
inductive ConfigError where
  /-- Segments could carry no data. -/
  | zeroSegmentSize
  /-- A segment of this size would not fit in 16 bits of length. -/
  | segmentSizeTooLarge (size : Nat)
  /-- Nothing could be received. -/
  | zeroReceiveWindow
  /-- Nothing could be sent. -/
  | zeroSendWindow
  /-- The timeout bounds are out of order. -/
  | timeoutBounds (least greatest : Nat)
  /-- The initial timeout violates the timeout bounds. -/
  | initialTimeout (initial least greatest : Nat)
  /-- Nothing could be written. -/
  | zeroChannelCapacity
  deriving DecidableEq, Repr

namespace ConfigError

/-- Text shown to the application. -/
def message : ConfigError → String
  | zeroSegmentSize => "max segment size must not be zero"
  | segmentSizeTooLarge size =>
      "max segment size " ++ toString size ++ " exceeds the maximum of " ++
        toString Segment.maxPayloadLength
  | zeroReceiveWindow => "receive window must not be zero"
  | zeroSendWindow => "maximum send window must not be zero"
  | timeoutBounds least greatest =>
      "min RTO " ++ Duration.text least ++ " is greater than max RTO " ++ Duration.text greatest
  | initialTimeout initial least greatest =>
      "initial RTO " ++ Duration.text initial ++ " is outside the range " ++
        Duration.text least ++ "..=" ++ Duration.text greatest
  | zeroChannelCapacity => "application channel capacity must not be zero"

end ConfigError

namespace Config

/-- The first broken rule of a configuration, if any. -/
def validate (config : Config) : Except ConfigError Unit :=
  if config.maxSegmentSize = 0 then .error .zeroSegmentSize
  else if Segment.maxPayloadLength < config.maxSegmentSize then
    .error (.segmentSizeTooLarge config.maxSegmentSize)
  else if config.receiveWindow = 0 then .error .zeroReceiveWindow
  else if config.maxSendWindow = 0 then .error .zeroSendWindow
  else if config.maxTimeout < config.minTimeout then
    .error (.timeoutBounds config.minTimeout config.maxTimeout)
  else if config.initialTimeout < config.minTimeout ∨ config.maxTimeout < config.initialTimeout then
    .error (.initialTimeout config.initialTimeout config.minTimeout config.maxTimeout)
  else if config.channelCapacity = 0 then .error .zeroChannelCapacity
  else .ok ()

/-- A configuration that breaks no rule. -/
def Valid (config : Config) : Prop :=
  config.validate = .ok ()

theorem valid_iff (config : Config) :
    config.Valid ↔
      0 < config.maxSegmentSize ∧ config.maxSegmentSize ≤ Segment.maxPayloadLength ∧
        config.receiveWindow ≠ 0 ∧ config.maxSendWindow ≠ 0 ∧
        config.minTimeout ≤ config.initialTimeout ∧ config.initialTimeout ≤ config.maxTimeout ∧
        0 < config.channelCapacity := by
  unfold Valid validate
  split
  · simp; omega
  split
  · simp; omega
  split
  · simp [*]
  split
  · simp [*]
  split
  · simp; omega
  split
  · simp; omega
  split
  · simp; omega
  · simp [*]; omega

end Config
end ReliableTransport
