/-!
# Failures

What a stream can report to its application.  Losses, duplicates and expired timers are repaired by
the protocol and never appear here.
-/

namespace ReliableTransport

/-- A failure of a received segment or of a whole connection. -/
inductive Failure where
  /-- Received bytes of the given length are no segment. -/
  | malformedSegment (length : Nat)
  /-- The carrier failed, or the connection ended, before it was established. -/
  | refused
  /-- The carrier failed after the connection was established. -/
  | aborted
  /-- The peer acknowledged nothing through all permitted retransmissions. -/
  | timedOut
  deriving DecidableEq, Repr

namespace Failure

/-- Text shown to the application. -/
def message : Failure → String
  | malformedSegment length => "malformed segment of " ++ toString length ++ " bytes"
  | refused => "connection refused"
  | aborted => "connection aborted"
  | timedOut => "connection timed out"

end Failure
end ReliableTransport
