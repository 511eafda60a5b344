import ReliableTransport.Endpoint

/-!
# Streams

A stream is the application's handle on an endpoint.  Writes wait in a channel of bounded capacity
until the endpoint takes them.  Reads follow the endpoint's log of events, which is not bounded, so
that a reader that falls behind slows nobody down.
-/

namespace ReliableTransport

/-- Which end asks for the connection. -/
inductive Role where
  /-- This end sends the first SYN. -/
  | active
  /-- This end waits for the peer's SYN. -/
  | passive
  deriving DecidableEq, Repr

/-- A failed request of the application. -/
inductive StreamError where
  /-- The configuration breaks a rule. -/
  | invalidConfig (broken : ConfigError)
  /-- The connection failed. -/
  | failed (failure : Failure)
  /-- The application finished writing before. -/
  | writerClosed
  /-- The endpoint stopped before it could tell how the handshake ended. -/
  | handshakeInterrupted
  /-- The endpoint stopped without a result. -/
  | interrupted
  deriving DecidableEq, Repr

namespace StreamError

/-- Text shown to the application. -/
def message : StreamError → String
  | invalidConfig broken => broken.message
  | failed failure => failure.message
  | writerClosed => "stream is closed for writing"
  | handshakeInterrupted => "connection task ended before the handshake completed"
  | interrupted => "connection task was interrupted"

end StreamError

/-- What became of a write. -/
inductive WriteOutcome where
  /-- The data waits for the endpoint. -/
  | accepted
  /-- Too many writes wait already. -/
  | wouldBlock
  /-- The stream takes no data any more. -/
  | rejected (error : StreamError)
  deriving DecidableEq, Repr

/-- What became of a read. -/
inductive ReadOutcome where
  /-- The next bytes of the peer's stream. -/
  | data (bytes : Bytes)
  /-- Nothing follows. -/
  | finished
  /-- The connection failed. -/
  | failed (failure : Failure)
  /-- Nothing is there yet. -/
  | wouldBlock
  deriving DecidableEq, Repr

/-- The application's handle on an endpoint. -/
structure Stream where
  /-- The endpoint that runs the connection. -/
  endpoint : Endpoint
  /-- Writes that the endpoint did not take yet, oldest first. -/
  writes : List Bytes := []
  /-- The application may write. -/
  writable : Bool := true
  /-- Number of events that were read. -/
  position : Nat := 0
  /-- Nothing follows what was read. -/
  ended : Bool := false

namespace Stream

/-- The connection of a stream as opened in its role. -/
def initiate (role : Role) (config : Config) (isn : SeqNum) (now : Nat) :
    Except Fault Connection := do
  let connection ← Connection.create config isn
  match role with
  | .active => connection.openActive now
  | .passive => return connection.listen

/-- Start a stream.  The first turn of its endpoint comes later. -/
def start (role : Role) (config : Config) (isn : SeqNum) (now later : Nat)
    (failsAfter : Option Nat) : Except StreamError Stream :=
  match config.validate with
  | .error broken => .error (.invalidConfig broken)
  | .ok () =>
      match initiate role config isn now with
      | .error _ => .error .interrupted
      | .ok connection => .ok { endpoint := Endpoint.start connection later failsAfter }

/-- Number of writes that may wait for the endpoint. -/
def capacity (stream : Stream) : Nat :=
  stream.endpoint.connection.config.channelCapacity

/-- Queue data for sending, unless too many writes wait. -/
def write (stream : Stream) (data : Bytes) : WriteOutcome × Stream :=
  if !stream.writable then (.rejected .writerClosed, stream)
  else if !stream.endpoint.isRunning then (.rejected (.failed .aborted), stream)
  else if stream.capacity ≤ stream.writes.length then (.wouldBlock, stream)
  else (.accepted, { stream with writes := stream.writes ++ [data] })

/-- The events that were not read yet, oldest first. -/
def unread (stream : Stream) : List StreamEvent :=
  stream.endpoint.events.drop stream.position

/-- Read the next event.  The end of the stream, a failure and an endpoint that stopped end the
reading for good. -/
def read (stream : Stream) : ReadOutcome × Stream :=
  if stream.ended then (.finished, stream)
  else
    match stream.unread with
    | .data bytes :: _ => (.data bytes, { stream with position := stream.position + 1 })
    | .peerFinished :: _ =>
        (.finished, { stream with position := stream.position + 1, ended := true })
    | .aborted failure :: _ =>
        (.failed failure, { stream with position := stream.position + 1, ended := true })
    | [] =>
        if stream.endpoint.isRunning then (.wouldBlock, stream)
        else (.finished, { stream with ended := true })

/-- Read until nothing is there, or up to and including the first result that ends the reading, at
most a given number of times. -/
def readWithin : Nat → Stream → List ReadOutcome × Stream
  | 0, stream => ([], stream)
  | rounds + 1, stream =>
      match stream.read with
      | (.wouldBlock, stream) => ([], stream)
      | (.data bytes, stream) =>
          let (outcomes, stream) := readWithin rounds stream
          (.data bytes :: outcomes, stream)
      | (outcome, stream) => ([outcome], stream)

/-- Read until nothing is there, or up to and including the first result that ends the reading.  One
read more than there are events always suffices. -/
def readAll (stream : Stream) : List ReadOutcome × Stream :=
  readWithin (stream.unread.length + 1) stream

/-- Finish writing. -/
def close (stream : Stream) : Stream :=
  { stream with writable := false }

/-- Give up the connection without telling the peer. -/
def drop (stream : Stream) : Stream :=
  { stream with endpoint := stream.endpoint.abandon }

/-- What the channel of writes has for the endpoint. -/
def nextWrite? (stream : Stream) : Option Wakeup :=
  match stream.writes with
  | data :: _ => some (.written data)
  | [] => if stream.writable then none else some .writerClosed

/-- The endpoint takes what the channel of writes has, if it waits for it. -/
def takeWrite (stream : Stream) (now later : Nat) (failsAfter : Option Nat) : Stream :=
  match stream.nextWrite? with
  | none => stream
  | some wakeup =>
      if stream.endpoint.awaits wakeup now then
        { stream with
          endpoint := stream.endpoint.wake wakeup now later failsAfter
          writes := stream.writes.tail }
      else stream

/-- Any other wakeup of the endpoint. -/
def wake (stream : Stream) (wakeup : Wakeup) (now later : Nat) (failsAfter : Option Nat) :
    Stream :=
  { stream with endpoint := stream.endpoint.wake wakeup now later failsAfter }

/-- How the handshake ended, if it did. -/
def opened? (stream : Stream) : Option (Except StreamError Unit) :=
  match stream.endpoint.opened with
  | some (.ok ()) => some (.ok ())
  | some (.error failure) => some (.error (.failed failure))
  | none => if stream.endpoint.isRunning then none else some (.error .handshakeInterrupted)

/-- How the endpoint ended, if it did. -/
def closed? (stream : Stream) : Option (Except StreamError Unit) :=
  match stream.endpoint.activity with
  | .running => none
  | .finished (.ok ()) => some (.ok ())
  | .finished (.error failure) => some (.error (.failed failure))
  | .crashed _ | .abandoned => some (.error .interrupted)

end Stream
end ReliableTransport
