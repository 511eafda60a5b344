import ReliableTransport.Link
import ReliableTransport.Stream

/-!
# Sessions

A session runs streams on the ends of a link under one clock.  An end without a stream is played by
a script that only sends what it is told to.  Everything that can happen is an action, and any order
of actions is a possible history: which endpoint moves next, and how long it takes before its turn
begins, is left to whoever performs them.
-/

namespace ReliableTransport

/-- What the application holds at one end. -/
inductive Hold where
  /-- It waits for the handshake to end. -/
  | opening
  /-- It has the stream. -/
  | ready
  /-- It gave the stream away and waits for the endpoint to end. -/
  | closing
  /-- It has nothing any more. -/
  | released
  deriving DecidableEq, Repr

/-- The result of a wait and when it was known. -/
structure Notice where
  /-- Success or failure. -/
  result : Except StreamError Unit
  /-- When the wait ended. -/
  time : Nat

/-- One end of a session that runs a stream. -/
structure Seat where
  /-- The stream, absent if it could not be started. -/
  stream : Option Stream
  /-- What the application holds. -/
  hold : Hold
  /-- How opening the stream ended. -/
  opened : Option Notice := none
  /-- How waiting for the endpoint to end ended. -/
  closed : Option Notice := none

namespace Seat

/-- Start a stream. -/
def start (role : Role) (config : Config) (isn : SeqNum) (now later : Nat)
    (failsAfter : Option Nat) : Seat :=
  match Stream.start role config isn now later failsAfter with
  | .ok stream => { stream := some stream, hold := .opening }
  | .error error => { stream := none, hold := .released, opened := some ⟨.error error, now⟩ }

/-- The stream, if the application can use it. -/
def usable? (seat : Seat) : Option Stream :=
  if seat.hold = .ready then seat.stream else none

/-- Let the application notice that what it waits for has ended. -/
def notice (seat : Seat) (now : Nat) : Seat :=
  match seat.hold, seat.stream with
  | .opening, some stream =>
      match stream.opened? with
      | some (.ok ()) => { seat with hold := .ready, opened := some ⟨.ok (), now⟩ }
      | some (.error error) => { seat with hold := .released, opened := some ⟨.error error, now⟩ }
      | none => seat
  | .closing, some stream =>
      match stream.closed? with
      | some result => { seat with hold := .released, closed := some ⟨result, now⟩ }
      | none => seat
  | _, _ => seat

/-- The segments that the end sent, oldest first. -/
def sent (seat : Seat) : List Bytes :=
  match seat.stream with
  | some stream => stream.endpoint.sent
  | none => []

end Seat

/-- Something that can happen in a session. -/
inductive Action where
  /-- The clock moves forward by a length of time. -/
  | elapse (time : Nat)
  /-- The endpoint takes what the application wrote or learns that it finished writing.  Its turn
  begins after a pause. -/
  | takeWrite (side : Side) (pause : Nat)
  /-- The endpoint takes the oldest segment that arrived, or a failure to receive.  Its turn begins
  after a pause. -/
  | takeSegment (side : Side) (pause : Nat)
  /-- The retransmission timer of the endpoint expires.  Its turn begins after a pause. -/
  | expire (side : Side) (pause : Nat)
  /-- The application writes. -/
  | write (side : Side) (data : Bytes)
  /-- The application reads once. -/
  | read (side : Side)
  /-- The application reads all that is there. -/
  | readAll (side : Side)
  /-- The application finishes writing. -/
  | close (side : Side)
  /-- The application finishes writing and waits for the endpoint to end. -/
  | closed (side : Side)
  /-- The application gives up. -/
  | drop (side : Side)
  /-- A segment is sent by the script. -/
  | inject (side : Side) (raw : Bytes)
  /-- Segments sent through an end are lost by a new rule. -/
  | lose (side : Side) (rule : LossRule)
  /-- Sending through an end fails from now on, or works again. -/
  | setFailing (side : Side) (failing : Bool)
  /-- The next attempt to receive at an end fails. -/
  | breakReceive (side : Side)
  /-- An end of the link is removed. -/
  | unplug (side : Side)

/-- What an action tells whoever performed it. -/
inductive Answer where
  /-- Nothing. -/
  | done
  /-- The application holds no stream. -/
  | noStream
  /-- What became of a write. -/
  | write (outcome : WriteOutcome)
  /-- What became of a read. -/
  | read (outcome : ReadOutcome)
  /-- What became of several reads. -/
  | reads (outcomes : List ReadOutcome)
  deriving DecidableEq, Repr

/-- Streams on the ends of a link. -/
structure Session where
  /-- The link between the ends. -/
  link : Link
  /-- The first end, absent if a script plays it. -/
  first : Option Seat
  /-- The second end, absent if a script plays it. -/
  second : Option Seat
  /-- The current time. -/
  now : Nat

namespace Session

/-- The seat at one end, unless a script plays it. -/
def seat? (session : Session) : Side → Option Seat
  | .first => session.first
  | .second => session.second

/-- The stream at one end, if one runs there. -/
def stream? (session : Session) (side : Side) : Option Stream :=
  (session.seat? side).bind (·.stream)

/-- The stream that the application holds at one end. -/
def usable? (session : Session) (side : Side) : Option Stream :=
  (session.seat? side).bind (·.usable?)

/-- Replace the seat at one end. -/
def setSeat (session : Session) (side : Side) (seat : Seat) : Session :=
  match side with
  | .first => { session with first := some seat }
  | .second => { session with second := some seat }

/-- The clock moves forward by a length of time. -/
def pass (session : Session) (time : Nat) : Session :=
  { session with now := session.now + time }

/-- Put a stream that moved back to its end.  The link carries what it sent in the meantime, and the
application notices what has ended. -/
def putStream (session : Session) (side : Side) (stream : Stream) : Session :=
  match session.seat? side with
  | none => session
  | some seat =>
      let fresh := stream.endpoint.sent.drop seat.sent.length
      { session with link := session.link.carryAll side fresh }.setSeat side
        ({ seat with stream := some stream }.notice session.now)

/-- Start a stream at one end, whose first turn begins after a pause. -/
def join (session : Session) (side : Side) (role : Role) (config : Config) (isn : SeqNum)
    (pause : Nat) : Session :=
  let later := session.pass pause
  let seat := Seat.start role config isn session.now later.now (session.link.failsAfter side)
  { later with link := session.link.carryAll side seat.sent }.setSeat side (seat.notice later.now)

/-- Let the stream at one end move, given when it begins and its turn comes, and how many segments
the link accepts there. -/
def move (session : Session) (side : Side) (pause : Nat)
    (step : Stream → Nat → Nat → Option Nat → Stream) : Session :=
  match session.stream? side with
  | some stream =>
      let later := session.pass pause
      later.putStream side (step stream session.now later.now (session.link.failsAfter side))
  | none => session

/-- Change the interface at one end. -/
def updateInterface (session : Session) (side : Side) (change : Interface → Interface) : Session :=
  { session with link := session.link.setInterface side (change (session.link.interface side)) }

/-- What the endpoint at one end would receive next. -/
def nextReceipt? (session : Session) (side : Side) : Option Wakeup :=
  let interface := session.link.interface side
  if interface.receiveFails then some .receiveError else interface.inbox.head?.map .received

/-- A running endpoint receives what is next at its end. -/
def takeSegment (session : Session) (side : Side) (pause : Nat) : Session :=
  match session.stream? side, session.nextReceipt? side with
  | some stream, some wakeup =>
      if stream.endpoint.awaits wakeup session.now then
        (session.updateInterface side Interface.discardNext).move side pause (·.wake wakeup)
      else session
  | _, _ => session

/-- Use the stream that the application holds at one end. -/
def withStream (session : Session) (side : Side) (use : Stream → Answer × Stream) :
    Answer × Session :=
  match session.usable? side with
  | some stream =>
      let (answer, stream) := use stream
      (answer, session.putStream side stream)
  | none => (.noStream, session)

/-- Change what the application holds at one end. -/
def release (session : Session) (side : Side) (hold : Hold) : Session :=
  match session.seat? side with
  | some seat => session.setSeat side ({ seat with hold }.notice session.now)
  | none => session

/-- Give the stream at one end away, so that the application cannot use it any more. -/
def handBack (session : Session) (side : Side) (hold : Hold) (leave : Stream → Stream) :
    Answer × Session :=
  match session.usable? side with
  | some stream => (.done, (session.putStream side (leave stream)).release side hold)
  | none => (.noStream, session)

/-- A segment is sent by the script at one end, unless the link fails there. -/
def inject (session : Session) (side : Side) (raw : Bytes) : Session :=
  if (session.link.interface side).failing then session
  else { session with link := session.link.carry side raw }

/-- Perform an action.  One that is not possible changes nothing but the time. -/
def perform (session : Session) : Action → Answer × Session
  | .elapse time => (.done, session.pass time)
  | .takeWrite side pause => (.done, session.move side pause Stream.takeWrite)
  | .takeSegment side pause => (.done, session.takeSegment side pause)
  | .expire side pause => (.done, session.move side pause (·.wake .expired))
  | .write side data => session.withStream side fun stream =>
      let (outcome, stream) := stream.write data
      (.write outcome, stream)
  | .read side => session.withStream side fun stream =>
      let (outcome, stream) := stream.read
      (.read outcome, stream)
  | .readAll side => session.withStream side fun stream =>
      let (outcomes, stream) := stream.readAll
      (.reads outcomes, stream)
  | .close side => session.withStream side fun stream => (.done, stream.close)
  | .closed side => session.handBack side .closing Stream.close
  | .drop side => session.handBack side .released Stream.drop
  | .inject side raw => (.done, session.inject side raw)
  | .lose side rule => (.done, { session with link := session.link.setRule side rule })
  | .setFailing side failing => (.done, session.updateInterface side ({ · with failing }))
  | .breakReceive side => (.done, session.updateInterface side ({ · with receiveFails := true }))
  | .unplug side => (.done, session.updateInterface side ({ · with unplugged := true }))

end Session
end ReliableTransport
