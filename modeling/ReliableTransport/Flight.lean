import ReliableTransport.RoundTrip

/-!
# Outstanding segments

The flight holds every sent and unacknowledged segment in the order of sending.  Their positions are
contiguous, acknowledgments are cumulative and remove segments from the front, and an expired
timeout resends all of them.  Only segments that were sent once are timed.
-/

namespace ReliableTransport

/-- A segment that was sent and not yet acknowledged. -/
structure Outstanding where
  /-- The encoded segment as last sent. -/
  raw : Bytes
  /-- Position of its first sequence number. -/
  seq : SeqNum
  /-- Number of sequence numbers that it occupies. -/
  length : Nat
  /-- When it was last sent. -/
  sentAt : Nat
  /-- How many times it was resent. -/
  retries : Nat
  deriving DecidableEq, Repr

namespace Outstanding

/-- The position behind a segment. -/
def finish (segment : Outstanding) : SeqNum :=
  segment.seq.advance segment.length

/-- A cumulative acknowledgment covers the whole segment. -/
def CoveredBy (segment : Outstanding) (ack : SeqNum) : Prop :=
  segment.finish.AtOrBefore ack

instance (segment : Outstanding) (ack : SeqNum) : Decidable (segment.CoveredBy ack) :=
  inferInstanceAs (Decidable (segment.finish.AtOrBefore ack))

/-- The segment as sent once more with a fresh acknowledgment number. -/
def resend (segment : Outstanding) (now : Nat) (ack : SeqNum) : Except Fault Outstanding := do
  let retries ← countWord (segment.retries + 1)
  let raw ← Segment.patchAck segment.raw ack
  return { segment with raw, sentAt := now, retries }

end Outstanding

/-- The outstanding segments of a connection, oldest first. -/
structure Flight where
  /-- The outstanding segments, oldest first. -/
  segments : List Outstanding
  deriving DecidableEq, Repr

namespace Flight

/-- The flight without segments. -/
def empty : Flight := ⟨[]⟩

/-- Nothing is outstanding. -/
def isEmpty (flight : Flight) : Bool := flight.segments.isEmpty

/-- Add a segment that was just sent for the first time. -/
def push (flight : Flight) (raw : Bytes) (seq : SeqNum) (length now : Nat) :
    Except Fault Flight :=
  if length = 0 then .error .emptyFlight
  else if flight.segments.getLast?.any (·.finish ≠ seq) then .error .gapInFlight
  else
    .ok ⟨flight.segments ++ [{ raw, seq, length, sentAt := now, retries := 0 }]⟩

/-- The leading segments that an acknowledgment covers. -/
def covered (flight : Flight) (ack : SeqNum) : List Outstanding :=
  flight.segments.takeWhile (·.CoveredBy ack)

/-- The segments that remain behind the covered ones. -/
def uncovered (flight : Flight) (ack : SeqNum) : List Outstanding :=
  flight.segments.dropWhile (·.CoveredBy ack)

/-- The round-trip times measured by acknowledging segments that were sent once. -/
def samples (segments : List Outstanding) (now : Nat) : List Nat :=
  (segments.filter (·.retries = 0)).map (now - ·.sentAt)

/-- Remove the segments that an acknowledgment covers, feeding their round-trip times to the
estimates, and count them. -/
def acknowledge (flight : Flight) (ack : SeqNum) (now : Nat) (estimate : RoundTrip) :
    Except Fault (Nat × Flight × RoundTrip) := do
  let estimate ← (samples (flight.covered ack) now).foldlM RoundTrip.observe estimate
  if (flight.uncovered ack).any (·.CoveredBy ack) then .error .unorderedFlight
  else .ok ((flight.covered ack).length, ⟨flight.uncovered ack⟩, estimate)

/-- When the oldest transmission times out. -/
def deadline? (flight : Flight) (timeout : Nat) : Option Nat :=
  (flight.segments.map (·.sentAt)).min?.map (· + timeout)

/-- The deadline, provided that a clock can show it. -/
def alarm (flight : Flight) (timeout : Nat) : Except Fault (Option Nat) :=
  (flight.deadline? timeout).mapM Time.checked

/-- The largest number of times that an outstanding segment was resent. -/
def maxRetries? (flight : Flight) : Option Nat :=
  (flight.segments.map (·.retries)).max?

/-- Send every outstanding segment once more. -/
def resend (flight : Flight) (now : Nat) (ack : SeqNum) : Except Fault Flight := do
  let segments ← flight.segments.mapM (·.resend now ack)
  return ⟨segments⟩

end Flight
end ReliableTransport
