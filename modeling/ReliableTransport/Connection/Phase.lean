/-!
# Phases of a connection

A connection passes through the handshake, an open phase and a teardown whose phases record which
side has finished sending and whose end was acknowledged.
-/

namespace ReliableTransport

/-- A phase in the life of a connection. -/
inductive Phase where
  /-- Nothing was sent or received. -/
  | closed
  /-- The own SYN was sent, the peer's is awaited. -/
  | synSent
  /-- The peer's SYN was answered, its acknowledgment is awaited. -/
  | synReceived
  /-- Both initial sequence numbers are agreed on and both directions are open. -/
  | established
  /-- The own FIN was sent and is unacknowledged. -/
  | finWait1
  /-- The own FIN was acknowledged, the peer's is awaited. -/
  | finWait2
  /-- The peer's FIN was received, the own direction is open. -/
  | closeWait
  /-- The own FIN was sent after the peer's and is unacknowledged. -/
  | lastAck
  /-- Both FINs crossed and the own one is unacknowledged. -/
  | closing
  /-- Nothing is sent or accepted any more. -/
  | terminated
  deriving DecidableEq, Repr

namespace Phase

/-- The initial sequence numbers of both sides are known and in use. -/
def isSynchronized : Phase → Bool
  | established | finWait1 | finWait2 | closeWait | lastAck | closing => true
  | closed | synSent | synReceived | terminated => false

/-- Application data may be sent, unless a FIN was sent already. -/
def isSending : Phase → Bool
  | established | closeWait => true
  | _ => false

/-- The phase after the own FIN was acknowledged. -/
def afterFinAcked : Phase → Phase
  | finWait1 => finWait2
  | closing | lastAck => terminated
  | phase => phase

/-- The phase after the peer's FIN was received, where one can be. -/
def afterPeerFin? : Phase → Option Phase
  | established => some closeWait
  | finWait1 => some closing
  | finWait2 => some terminated
  | _ => none

end Phase
end ReliableTransport
