import ReliableTransport.Connection.Receive

/-!
# Operations on a connection

Everything that can happen to a connection is one of few operations, each at its own time.
-/

namespace ReliableTransport
namespace Connection

/-- Something that can happen to a connection. -/
inductive Operation where
  /-- Ask the peer for a connection. -/
  | openActive
  /-- Welcome a peer's request. -/
  | listen
  /-- Send at most one segment of pending bytes. -/
  | send (pending : Bytes)
  /-- Finish the own direction. -/
  | close
  /-- End the connection without a further exchange. -/
  | abort
  /-- The deadline expired. -/
  | expire
  /-- Bytes arrived from the peer. -/
  | receive (raw : Bytes)
  deriving DecidableEq, Repr

/-- Apply one operation. -/
def apply (connection : Connection) (operation : Operation) (now : Nat) :
    Except Fault Connection :=
  match operation with
  | .openActive => connection.openActive now
  | .listen => .ok connection.listen
  | .send pending => (connection.sendChunk pending now).map (·.2)
  | .close => connection.close now
  | .abort => .ok connection.abort
  | .expire => (connection.expire now).map (·.2)
  | .receive raw => connection.receive raw now

end Connection
end ReliableTransport
