import ReliableTransport.Connection.Phase
import ReliableTransport.Flight
import ReliableTransport.ReceiveWindow.Basic

/-!
# Connections and their sending side

A connection is the state of one end.  It is driven by received segments, application data, close
requests and expired timers, each at a given time, and answers with encoded segments in its outbox
and events for the application.  Sent and unacknowledged positions run from `sendUnacked` to
`sendNext`.
-/

namespace ReliableTransport

/-- Something the application learns about the peer's direction. -/
inductive AppEvent where
  /-- The next bytes of the peer's stream. -/
  | data (bytes : Bytes)
  /-- The peer's stream is complete. -/
  | peerFinished
  deriving DecidableEq, Repr

/-- The state of one end of a connection. -/
structure Connection where
  /-- Parameters of this end. -/
  config : Config
  /-- Current phase. -/
  phase : Phase
  /-- A SYN is welcome while closed. -/
  listening : Bool
  /-- Initial sequence number of this end. -/
  isn : SeqNum
  /-- The oldest position not known to be received. -/
  sendUnacked : SeqNum
  /-- The next position to send. -/
  sendNext : SeqNum
  /-- Number of positions behind `sendUnacked` that the peer is ready to buffer. -/
  sendWindow : Nat
  /-- Position of the own FIN once it was sent. -/
  finSeq : Option SeqNum
  /-- The receiving side. -/
  window : ReceiveWindow
  /-- Round-trip estimates. -/
  roundTrip : RoundTrip
  /-- Sent and unacknowledged segments. -/
  flight : Flight
  /-- Encoded segments waiting for the carrier, oldest first. -/
  outbox : List Bytes
  /-- Events waiting for the application, oldest first. -/
  events : List AppEvent

namespace Connection

/-- A closed connection with a given initial sequence number. -/
def create (config : Config) (isn : SeqNum) : Except Fault Connection := do
  let window ← ReceiveWindow.create config.receiveWindow.toNat ⟨0⟩
  .ok
    { config, isn, window
      phase := .closed
      listening := false
      sendUnacked := isn
      sendNext := isn
      sendWindow := 0
      finSeq := none
      roundTrip := RoundTrip.initial config
      flight := Flight.empty
      outbox := []
      events := [] }

/-- The next position expected from the peer. -/
def recvNext (connection : Connection) : SeqNum :=
  connection.window.next

/-- The connection is over. -/
def isTerminated (connection : Connection) : Bool :=
  connection.phase = .terminated

/-- Application data may be sent. -/
def canSend (connection : Connection) : Bool :=
  connection.phase.isSending && connection.finSeq.isNone

/-- Number of sent and unacknowledged positions. -/
def inFlight (connection : Connection) : Nat :=
  connection.sendNext.since connection.sendUnacked

/-- Number of bytes that may be sent before the peer's window is exhausted. -/
def usableWindow (connection : Connection) : Nat :=
  connection.sendWindow - connection.inFlight

/-- The grant of the peer's advertised window within the own bound. -/
def granted (connection : Connection) (advertised : UInt16) : Nat :=
  min advertised.toNat connection.config.maxSendWindow.toNat

/-- When the outstanding segments have to be resent. -/
def deadline? (connection : Connection) : Option Nat :=
  connection.flight.deadline? connection.roundTrip.timeout

/-- When the outstanding segments have to be resent, provided that a clock can show it. -/
def alarm (connection : Connection) : Except Fault (Option Nat) :=
  connection.flight.alarm connection.roundTrip.timeout

/-- The header of the next segment with given flags. -/
def header (connection : Connection) (flags : Flags) : Header where
  flags := flags
  seq := connection.sendNext
  ack := connection.recvNext
  window := connection.config.receiveWindow

/-- Queue a segment at the next position.  It is outstanding if it occupies sequence numbers. -/
def transmit (connection : Connection) (flags : Flags) (payload : Bytes) (now : Nat) :
    Except Fault Connection := do
  let raw := Segment.encode (connection.header flags) payload
  let length ← flags.span payload.length
  if length = 0 then
    return { connection with outbox := connection.outbox ++ [raw] }
  else
    let flight ← connection.flight.push raw connection.sendNext length now
    return { connection with
      flight
      sendNext := connection.sendNext.advance length
      outbox := connection.outbox ++ [raw] }

/-- Queue an acknowledgment that occupies no sequence numbers. -/
def sendAck (connection : Connection) : Connection :=
  { connection with
    outbox := connection.outbox ++ [Segment.encode (connection.header { ack := true }) []] }

/-- The leading pending bytes that fit in one segment and in the usable window. -/
def nextChunk (connection : Connection) (pending : Bytes) : Bytes :=
  if connection.canSend then
    pending.take (min connection.usableWindow connection.config.maxSegmentSize)
  else []

/-- Send at most one segment of pending bytes.  The result includes the bytes that were sent. -/
def sendChunk (connection : Connection) (pending : Bytes) (now : Nat) :
    Except Fault (Bytes × Connection) := do
  let chunk := connection.nextChunk pending
  if chunk.isEmpty then
    return ([], connection)
  else
    let connection ← connection.transmit { ack := true } chunk now
    return (chunk, connection)

/-- Send segments of pending bytes until none can be sent, at most `rounds` of them.  The result
includes the chunks in order and the bytes that remain pending. -/
def flushWithin : Nat → Connection → Bytes → Nat →
    Except Fault (List Bytes × Bytes × Connection)
  | 0, connection, pending, _ => .ok ([], pending, connection)
  | rounds + 1, connection, pending, now => do
      let (chunk, connection) ← connection.sendChunk pending now
      if chunk.isEmpty then
        return ([], pending, connection)
      else
        let (chunks, pending, connection) ←
          flushWithin rounds connection (pending.drop chunk.length) now
        return (chunk :: chunks, pending, connection)

/-- Send segments of pending bytes until none can be sent.  Each takes at least one byte, so there
are at most as many rounds as bytes. -/
def flush (connection : Connection) (pending : Bytes) (now : Nat) :
    Except Fault (List Bytes × Bytes × Connection) :=
  flushWithin pending.length connection pending now

/-- Send the own FIN at the next position. -/
def sendFin (connection : Connection) (now : Nat) : Except Fault Connection :=
  { connection with finSeq := some connection.sendNext }.transmit
    { fin := true, ack := true } [] now

/-- End the connection without a further exchange. -/
def abort (connection : Connection) : Connection :=
  { connection with flight := Flight.empty, phase := .terminated }

/-- Ask the peer for a connection. -/
def openActive (connection : Connection) (now : Nat) : Except Fault Connection := do
  if connection.phase = .closed then
    let connection ← connection.transmit { syn := true } [] now
    return { connection with phase := .synSent }
  else
    return connection

/-- Welcome a peer's request for a connection. -/
def listen (connection : Connection) : Connection :=
  { connection with listening := true }

/-- Finish the own direction behind all data sent so far. -/
def close (connection : Connection) (now : Nat) : Except Fault Connection :=
  match connection.phase with
  | .closed | .synSent => .ok connection.abort
  | .synReceived | .established => do
      let connection ← connection.sendFin now
      return { connection with phase := .finWait1 }
  | .closeWait => do
      let connection ← connection.sendFin now
      return { connection with phase := .lastAck }
  | .finWait1 | .finWait2 | .lastAck | .closing | .terminated => .ok connection

/-- Both directions are complete except that the own FIN is unacknowledged. -/
def onlyFinalFin (connection : Connection) : Bool :=
  (connection.phase = .lastAck || connection.phase = .closing) &&
    connection.finSeq = some connection.sendUnacked

/-- Number of resends of a final FIN when resends are otherwise unlimited. -/
def finalFinRetransmissions : Nat := 5

/-- Number of resends permitted before giving up, if limited. -/
def retryLimit (connection : Connection) : Option Nat :=
  if connection.onlyFinalFin then
    some (connection.config.maxRetransmissions.getD finalFinRetransmissions)
  else
    connection.config.maxRetransmissions

/-- The permitted resends of some outstanding segment are used up. -/
def isExhausted (connection : Connection) : Bool :=
  match connection.retryLimit, connection.flight.maxRetries? with
  | some limit, some retries => limit ≤ retries
  | _, _ => false

/-- Resend every outstanding segment with the current acknowledgment number. -/
def resend (connection : Connection) (now : Nat) : Except Fault Connection := do
  let flight ← connection.flight.resend now connection.recvNext
  let roundTrip ←
    if connection.config.backoff then connection.roundTrip.backOff else .ok connection.roundTrip
  return { connection with
    flight, roundTrip
    outbox := connection.outbox ++ flight.segments.map (·.raw) }

/-- Handle an expired deadline: resend what is outstanding or give up.  Giving up on the final FIN
alone is no failure, because both directions are complete. -/
def expire (connection : Connection) (now : Nat) :
    Except Fault (Except Failure Unit × Connection) := do
  if connection.flight.isEmpty then
    return (.ok (), connection)
  else if connection.isExhausted then
    return (if connection.onlyFinalFin then .ok () else .error .timedOut, connection.abort)
  else
    return (.ok (), ← connection.resend now)

end Connection
end ReliableTransport
