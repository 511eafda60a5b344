import ReliableTransport.Connection.Operation
import ReliableTransport.Side

/-!
# Two connections and everything they sent

An exchange joins two connections by a network that remembers every segment.  Any of them can be
delivered any number of times, in any order, or never.
-/

namespace ReliableTransport

/-- One end of an exchange. -/
structure Peer where
  /-- Its connection. -/
  connection : Connection
  /-- Application data that is not yet in segments. -/
  pending : Bytes
  /-- All segments it ever sent, oldest first. -/
  wire : List Bytes
  /-- Number of its segments that the network has moved past. -/
  cursor : Nat

/-- Two connections and a clock. -/
structure Exchange where
  /-- The first end. -/
  first : Peer
  /-- The second end. -/
  second : Peer
  /-- The current time. -/
  now : Nat

/-- A step of an exchange, acting on one end or on the segments it sent. -/
inductive Command where
  /-- An operation on the connection. -/
  | operate (operation : Connection.Operation)
  /-- The application writes data. -/
  | write (data : Bytes)
  /-- At most one segment of pending data is sent. -/
  | send
  /-- Pending data is sent as far as possible. -/
  | flush
  /-- The retransmission timer expires now. -/
  | timeout
  /-- The clock moves to the deadline and the timer expires. -/
  | expire
  /-- The numbered segment is delivered to the other end. -/
  | deliver (number : Nat)
  /-- All segments behind the cursor are delivered to the other end in order. -/
  | pump
  /-- The cursor moves past segments without delivering them. -/
  | skip (count : Nat)
  deriving DecidableEq, Repr

/-- The direct result of a step. -/
inductive Reply where
  /-- Nothing to tell. -/
  | done
  /-- Success or failure. -/
  | outcome (result : Except Failure Unit)
  /-- There is nothing to act on. -/
  | absent
  /-- A number of bytes or segments. -/
  | count (number : Nat)
  /-- The sizes of the chunks that were sent. -/
  | sizes (numbers : List Nat)

/-- What the network and the application took from one end after a step. -/
structure Drained where
  /-- The end itself. -/
  subject : Side
  /-- Segments from the outbox. -/
  sent : List Bytes
  /-- Events for the application. -/
  events : List AppEvent

namespace Peer

/-- A fresh end. -/
def create (config : Config) (isn : SeqNum) : Except Fault Peer := do
  let connection ← Connection.create config isn
  return { connection, pending := [], wire := [], cursor := 0 }

/-- Move the outbox to the wire and take the events. -/
def drain (peer : Peer) : Peer where
  connection := { peer.connection with outbox := [], events := [] }
  pending := peer.pending
  wire := peer.wire ++ peer.connection.outbox
  cursor := peer.cursor

/-- Take segments in order. -/
def receiveAll (peer : Peer) (segments : List Bytes) (now : Nat) : Except Fault Peer := do
  let connection ← segments.foldlM (·.receive · now) peer.connection
  return { peer with connection }

end Peer

namespace Exchange

/-- Two fresh ends at time zero. -/
def create (firstConfig secondConfig : Config) (firstIsn secondIsn : SeqNum) :
    Except Fault Exchange := do
  let first ← Peer.create firstConfig firstIsn
  let second ← Peer.create secondConfig secondIsn
  return { first, second, now := 0 }

/-- One of the ends. -/
def peer (exchange : Exchange) : Side → Peer
  | .first => exchange.first
  | .second => exchange.second

/-- Replace one of the ends. -/
def setPeer (exchange : Exchange) (side : Side) (peer : Peer) : Exchange :=
  match side with
  | .first => { exchange with first := peer }
  | .second => { exchange with second := peer }

/-- Replace the connection of one of the ends. -/
def setConnection (exchange : Exchange) (side : Side) (connection : Connection) : Exchange :=
  exchange.setPeer side { exchange.peer side with connection }

/-- Move the clock.  A time that is not representable is a fault, whether or not a later step uses
it. -/
def setClock (exchange : Exchange) (now : Nat) : Except Fault Exchange := do
  let now ← Time.checked now
  return { exchange with now }

/-- The end whose connection a command acts on. -/
def subject (side : Side) : Command → Side
  | .deliver _ | .pump => side.other
  | _ => side

/-- Execute a command without draining the subject. -/
def execute (exchange : Exchange) (side : Side) (command : Command) :
    Except Fault (Reply × Exchange) := do
  let peer := exchange.peer side
  let connection := peer.connection
  let now := exchange.now
  match command with
  | .operate operation =>
      let connection ← connection.apply operation now
      return (.done, exchange.setConnection side connection)
  | .write data =>
      return (.done, exchange.setPeer side { peer with pending := peer.pending ++ data })
  | .send =>
      let (chunk, connection) ← connection.sendChunk peer.pending now
      return (.count chunk.length, exchange.setPeer side
        { peer with connection, pending := peer.pending.drop chunk.length })
  | .flush =>
      let (chunks, pending, connection) ← connection.flush peer.pending now
      return (.sizes (chunks.map List.length),
        exchange.setPeer side { peer with connection, pending })
  | .timeout =>
      let (result, connection) ← connection.expire now
      return (.outcome result, exchange.setConnection side connection)
  | .expire =>
      match ← connection.alarm with
      | none => return (.absent, exchange)
      | some deadline =>
          let (result, connection) ← connection.expire deadline
          let exchange ← (exchange.setConnection side connection).setClock deadline
          return (.outcome result, exchange)
  | .deliver number =>
      match peer.wire[number]? with
      | none => return (.absent, exchange)
      | some raw =>
          let receiver ← (exchange.peer side.other).receiveAll [raw] now
          return (.outcome (.ok ()), exchange.setPeer side.other receiver)
  | .pump =>
      let segments := peer.wire.drop peer.cursor
      let receiver ← (exchange.peer side.other).receiveAll segments now
      let exchange := exchange.setPeer side { peer with cursor := peer.wire.length }
      return (.count segments.length, exchange.setPeer side.other receiver)
  | .skip count =>
      let cursor := min (peer.cursor + count) peer.wire.length
      return (.count (peer.wire.length - cursor), exchange.setPeer side { peer with cursor })

/-- Execute a command and drain the subject. -/
def step (exchange : Exchange) (side : Side) (command : Command) :
    Except Fault (Reply × Drained × Exchange) := do
  let (reply, exchange) ← exchange.execute side command
  let subject := subject side command
  let peer := exchange.peer subject
  return (reply,
    { subject, sent := peer.connection.outbox, events := peer.connection.events },
    exchange.setPeer subject peer.drain)

end Exchange
end ReliableTransport
