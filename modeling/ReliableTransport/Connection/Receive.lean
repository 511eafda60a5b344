import ReliableTransport.Connection.Basic

/-!
# The receiving side of a connection

Received segments complete the handshake, acknowledge what was sent, deliver data and finish the
peer's direction.  Data and FINs are always answered by an acknowledgment unless they lie beyond the
receive window.
-/

namespace ReliableTransport
namespace Connection

/-- The own FIN was sent and acknowledged. -/
def finAcked (connection : Connection) : Bool :=
  connection.finSeq.any (·.Before connection.sendUnacked)

/-- Take note that the own FIN was acknowledged, if it was. -/
def noteFinAcked (connection : Connection) : Connection :=
  if connection.finAcked then { connection with phase := connection.phase.afterFinAcked }
  else connection

/-- Take an acknowledgment number with its window advertisement.  Positions that were never sent
cannot be acknowledged; an old acknowledgment only refreshes the window. -/
def takeAck (connection : Connection) (ack : SeqNum) (advertised : UInt16) (now : Nat) :
    Except Fault Connection := do
  if ack.After connection.sendNext then
    return connection
  else
    let connection := { connection with sendWindow := connection.granted advertised }
    if ack.After connection.sendUnacked then
      let (_, flight, roundTrip) ← connection.flight.acknowledge ack now connection.roundTrip
      return { connection with flight, roundTrip, sendUnacked := ack }.noteFinAcked
    else
      return connection

/-- Take note of the peer's FIN at the next expected position. -/
def takePeerFin (connection : Connection) : Connection :=
  let connection := { connection with window := connection.window.consumeFlag }
  match connection.phase.afterPeerFin? with
  | some phase => { connection with phase, events := connection.events ++ [.peerFinished] }
  | none => connection

/-- Take the payload of a segment, reporting whether it lies within the window. -/
def takePayload (connection : Connection) (seq : SeqNum) (payload : Bytes) :
    Except Fault (Bool × Connection) := do
  let (arrival, window) ← connection.window.receive seq payload
  match arrival with
  | .stale => return (true, { connection with window })
  | .outOfWindow => return (false, { connection with window })
  | .accepted delivered =>
      let events := if delivered.isEmpty then [] else [.data delivered]
      return (true, { connection with window, events := connection.events ++ events })

/-- Take the data and the FIN of a segment and answer them. -/
def takeContent (connection : Connection) (segment : Segment) : Except Fault Connection := do
  let hasPayload := !segment.payload.isEmpty
  let (inWindow, connection) ←
    if hasPayload then connection.takePayload segment.header.seq segment.payload
    else .ok (true, connection)
  if !inWindow then
    return connection
  else if segment.header.flags.fin then
    let length ← ({} : Flags).span segment.payload.length
    let connection :=
      if segment.header.seq.advance length = connection.recvNext then connection.takePeerFin
      else connection
    return connection.sendAck
  else
    return if hasPayload then connection.sendAck else connection

/-- Take a segment on a connection whose initial sequence numbers are agreed on.  A repeated SYN is
acknowledged again, because the last acknowledgment of the handshake may be lost. -/
def takeSynchronized (connection : Connection) (segment : Segment) (now : Nat) :
    Except Fault Connection := do
  let header := segment.header
  if header.flags.syn then
    return if (header.seq.advance 1).AtOrBefore connection.recvNext then connection.sendAck
      else connection
  else
    let connection ←
      if header.flags.ack then connection.takeAck header.ack header.window now else .ok connection
    if header.flags.ack && connection.isTerminated then
      return connection
    else
      connection.takeContent segment

/-- Start to expect data behind the peer's SYN. -/
def takePeerSyn (connection : Connection) (seq : SeqNum) : Connection :=
  { connection with window := (connection.window.synchronize seq).consumeFlag }

/-- Answer a plain SYN while listening. -/
def takeClosed (connection : Connection) (segment : Segment) (now : Nat) :
    Except Fault Connection := do
  let header := segment.header
  if connection.listening && header.flags = { syn := true } then
    let connection := connection.takePeerSyn header.seq
    let connection := { connection with sendWindow := connection.granted header.window }
    let connection ← connection.transmit { syn := true, ack := true } [] now
    return { connection with phase := .synReceived }
  else
    return connection

/-- Complete the handshake by the peer's answer to the own SYN. -/
def takeSynSent (connection : Connection) (segment : Segment) (now : Nat) :
    Except Fault Connection := do
  let header := segment.header
  if header.flags.syn && header.flags.ack && header.ack = connection.isn.advance 1 then
    let connection := connection.takePeerSyn header.seq
    let connection ← connection.takeAck header.ack header.window now
    return { connection with phase := .established }.sendAck
  else
    return connection

/-- Complete the handshake by the acknowledgment of the own SYN, which data may accompany. -/
def takeSynReceived (connection : Connection) (segment : Segment) (now : Nat) :
    Except Fault Connection :=
  let header := segment.header
  if !header.flags.syn && header.flags.ack && header.ack = connection.isn.advance 1 then
    { connection with phase := .established }.takeSynchronized segment now
  else
    .ok connection

/-- Take a decoded segment. -/
def takeSegment (connection : Connection) (segment : Segment) (now : Nat) :
    Except Fault Connection :=
  match connection.phase with
  | .closed => connection.takeClosed segment now
  | .synSent => connection.takeSynSent segment now
  | .synReceived => connection.takeSynReceived segment now
  | .established | .finWait1 | .finWait2 | .closeWait | .lastAck | .closing =>
      connection.takeSynchronized segment now
  | .terminated => .ok connection

/-- Take received bytes, ignoring those that are no segment. -/
def receive (connection : Connection) (raw : Bytes) (now : Nat) : Except Fault Connection :=
  match Segment.decode raw with
  | .error _ => .ok connection
  | .ok segment => connection.takeSegment segment now

end Connection
end ReliableTransport
