/-!
# Faults

A fault is a broken precondition: a value leaves its range, or a caller breaks a structural rule.
It stops the computation and is never reported to the peer or to the application, unlike a
connection failure.
-/

namespace ReliableTransport

/-- A broken precondition that stops a computation. -/
inductive Fault where
  /-- A segment would occupy more sequence numbers than 32 bits can count. -/
  | sequenceLength
  /-- A count does not fit in 32 bits. -/
  | count
  /-- A length of time leaves the representable range. -/
  | duration
  /-- A point in time leaves the representable range. -/
  | instant
  /-- A receive window without room for a single byte. -/
  | emptyWindow
  /-- More bytes were already received than the payload holds. -/
  | payloadPrefix
  /-- A segment is too short to hold an acknowledgment number. -/
  | shortSegment
  /-- A segment that occupies no sequence numbers cannot be outstanding. -/
  | emptyFlight
  /-- An outstanding segment must start where the previous one ends. -/
  | gapInFlight
  /-- An acknowledgment covers an outstanding segment but not an older one. -/
  | unorderedFlight
  deriving DecidableEq, Repr

/-- The value itself, provided that 32 bits can count it. -/
def countWord (n : Nat) : Except Fault Nat :=
  if n < UInt32.size then .ok n else .error .count

end ReliableTransport
