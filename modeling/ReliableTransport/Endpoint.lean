import ReliableTransport.Connection.Receive

/-!
# Endpoints

An endpoint drives one connection over a carrier of segments on behalf of an application.  It waits
for whichever comes first of application data, a received segment and the expiry of the
retransmission timer.  Every wakeup is followed by a turn: pending data is put into segments, the
segments are handed to the carrier, events are passed to the application, and whoever opened the
endpoint learns how the handshake ended.  A turn reads the clock anew.

The events and the accepted segments are kept as logs, so that the state of an endpoint shows all it
ever told the application and all it ever sent.
-/

namespace ReliableTransport

/-- Something the application can read. -/
inductive StreamEvent where
  /-- The next bytes of the peer's stream. -/
  | data (bytes : Bytes)
  /-- The peer's stream is complete. -/
  | peerFinished
  /-- The connection failed. -/
  | aborted (failure : Failure)
  deriving DecidableEq, Repr

namespace StreamEvent

/-- An event of the connection as the application reads it. -/
def ofAppEvent : AppEvent → StreamEvent
  | .data bytes => data bytes
  | .peerFinished => peerFinished

end StreamEvent

/-- The activity of an endpoint. -/
inductive Activity where
  /-- It waits for the next wakeup. -/
  | running
  /-- The connection is over, orderly or by a failure. -/
  | finished (result : Except Failure Unit)
  /-- A fault stopped it. -/
  | crashed (fault : Fault)
  /-- The application abandoned it. -/
  | abandoned

/-- What ends the wait of an endpoint. -/
inductive Wakeup where
  /-- The application wrote data. -/
  | written (data : Bytes)
  /-- The application finished writing and everything it wrote was taken. -/
  | writerClosed
  /-- The carrier delivered bytes. -/
  | received (raw : Bytes)
  /-- The carrier failed to deliver. -/
  | receiveError
  /-- The retransmission timer expired. -/
  | expired
  deriving DecidableEq, Repr

/-- The state of an endpoint. -/
structure Endpoint where
  /-- The driven connection. -/
  connection : Connection
  /-- Bytes that were taken from the application and are not in segments yet. -/
  pending : Bytes := []
  /-- The application is known to have finished writing. -/
  writerClosed : Bool := false
  /-- What the opener was told about the handshake. -/
  opened : Option (Except Failure Unit) := none
  /-- Everything told to the application, oldest first. -/
  events : List StreamEvent := []
  /-- The segments that the carrier accepted, oldest first. -/
  sent : List Bytes := []
  /-- Whether the endpoint still runs. -/
  activity : Activity := .running

namespace Endpoint

/-- The largest part of a delivery that is looked at. -/
def receiveLimit : Nat := UInt16.size - 1

/-- The endpoint waits for a wakeup. -/
def isRunning (endpoint : Endpoint) : Bool :=
  match endpoint.activity with
  | .running => true
  | _ => false

/-- Application data is waited for: it can be sent and none is pending. -/
def takesWrites (endpoint : Endpoint) : Bool :=
  endpoint.connection.canSend && !endpoint.writerClosed && endpoint.pending.isEmpty

/-- When the retransmission timer expires. -/
def deadline? (endpoint : Endpoint) : Option Nat :=
  endpoint.connection.deadline?

/-- The endpoint waits for a wakeup at the given time. -/
def awaits (endpoint : Endpoint) (wakeup : Wakeup) (now : Nat) : Bool :=
  endpoint.isRunning &&
    match wakeup with
    | .written _ | .writerClosed => endpoint.takesWrites
    | .received _ | .receiveError => true
    | .expired => endpoint.deadline?.any (· ≤ now)

/-- Stop at a fault. -/
def crash (endpoint : Endpoint) (fault : Fault) : Endpoint :=
  { endpoint with activity := .crashed fault }

/-- Stop because the application gave up. -/
def abandon (endpoint : Endpoint) : Endpoint :=
  if endpoint.isRunning then { endpoint with activity := .abandoned } else endpoint

/-- End the connection by a failure and tell the opener or, once it was told about the handshake,
the application. -/
def fail (endpoint : Endpoint) (failure : Failure) : Endpoint :=
  let endpoint :=
    match endpoint.opened with
    | none => { endpoint with opened := some (.error failure) }
    | some _ => { endpoint with events := endpoint.events ++ [StreamEvent.aborted failure] }
  { endpoint with
    connection := endpoint.connection.abort
    activity := .finished (.error failure) }

/-- The failure caused by a carrier that does not accept a segment. -/
def carrierFailure (endpoint : Endpoint) : Failure :=
  if endpoint.opened.isNone then .refused else .aborted

/-- Put as much pending data into segments as the window allows.  Finish the own direction once the
application is done and nothing is pending. -/
def segmentPending (endpoint : Endpoint) (now : Nat) : Except Fault Endpoint := do
  let (_, pending, connection) ← endpoint.connection.flush endpoint.pending now
  let connection ←
    if endpoint.writerClosed && pending.isEmpty && connection.canSend then connection.close now
    else .ok connection
  return { endpoint with pending, connection }

/-- Pass the events of the connection to the application. -/
def forwardEvents (endpoint : Endpoint) : Endpoint :=
  { endpoint with
    events := endpoint.events ++ endpoint.connection.events.map StreamEvent.ofAppEvent
    connection := { endpoint.connection with events := [] } }

/-- Tell the opener how the handshake ended, if it did and the opener does not know. -/
def notifyOpener (endpoint : Endpoint) : Endpoint :=
  if endpoint.opened.isSome then endpoint
  else if endpoint.connection.phase.isSynchronized then
    { endpoint with opened := some (.ok ()) }
  else if endpoint.connection.isTerminated then
    { endpoint with opened := some (.error .refused) }
  else endpoint

/-- Stop after an orderly end of the connection; otherwise set the timer, which has to be
representable. -/
def rest (endpoint : Endpoint) : Endpoint :=
  if endpoint.connection.isTerminated then { endpoint with activity := .finished (.ok ()) }
  else
    match endpoint.connection.alarm with
    | .ok _ => endpoint
    | .error fault => endpoint.crash fault

/-- Hand the outbox to the carrier, which accepts all of it or fails after a given number of
segments.  Nothing else of the turn happens after a failure. -/
def handOver (endpoint : Endpoint) (failsAfter : Option Nat) : Endpoint :=
  let outbox := endpoint.connection.outbox
  let cleared := { endpoint with connection := { endpoint.connection with outbox := [] } }
  match failsAfter with
  | some count =>
      if count < outbox.length then
        { cleared with sent := endpoint.sent ++ outbox.take count }.fail endpoint.carrierFailure
      else
        { cleared with sent := endpoint.sent ++ outbox }.forwardEvents.notifyOpener.rest
  | none => { cleared with sent := endpoint.sent ++ outbox }.forwardEvents.notifyOpener.rest

/-- Everything that follows a wakeup, at a time of its own. -/
def turn (endpoint : Endpoint) (now : Nat) (failsAfter : Option Nat) : Endpoint :=
  match endpoint.segmentPending now with
  | .ok endpoint => endpoint.handOver failsAfter
  | .error fault => endpoint.crash fault

/-- An endpoint for a connection, after its first turn. -/
def start (connection : Connection) (now : Nat) (failsAfter : Option Nat) : Endpoint :=
  { connection : Endpoint }.turn now failsAfter

/-- Take an awaited wakeup to its connection and make the turn behind it later.  A failure of the
connection ends it without a turn. -/
def respond (endpoint : Endpoint) (wakeup : Wakeup) (now later : Nat) (failsAfter : Option Nat) :
    Endpoint :=
  match wakeup with
  | .written data => { endpoint with pending := endpoint.pending ++ data }.turn later failsAfter
  | .writerClosed => { endpoint with writerClosed := true }.turn later failsAfter
  | .received raw =>
      match endpoint.connection.receive (raw.take receiveLimit) now with
      | .ok connection => { endpoint with connection }.turn later failsAfter
      | .error fault => endpoint.crash fault
  | .receiveError => endpoint.turn later failsAfter
  | .expired =>
      match endpoint.connection.expire now with
      | .ok (.ok (), connection) => { endpoint with connection }.turn later failsAfter
      | .ok (.error failure, connection) => { endpoint with connection }.fail failure
      | .error fault => endpoint.crash fault

/-- Take a wakeup, ignoring one that is not awaited. -/
def wake (endpoint : Endpoint) (wakeup : Wakeup) (now later : Nat) (failsAfter : Option Nat) :
    Endpoint :=
  if endpoint.awaits wakeup now then endpoint.respond wakeup now later failsAfter else endpoint

end Endpoint
end ReliableTransport
