import ReliableTransport.Fault
import ReliableTransport.ReceiveWindow.Ring
import ReliableTransport.SeqNum

/-!
# Receive windows

A receive window buffers bytes that arrive ahead of the next expected one.  Whenever the next
expected byte is present, the longest consecutive run is delivered and the window slides behind it.
-/

namespace ReliableTransport

/-- A window of buffered bytes that starts at the next expected position. -/
structure ReceiveWindow where
  /-- The next expected position. -/
  next : SeqNum
  /-- Bytes by their offset behind the next expected position. -/
  ring : Ring

/-- What became of an arriving payload. -/
inductive Arrival where
  /-- All of it was expected before. -/
  | stale
  /-- It starts behind the window. -/
  | outOfWindow
  /-- Its part inside the window was buffered, which delivers a possibly empty run. -/
  | accepted (delivered : Bytes)
  deriving DecidableEq, Repr

namespace ReceiveWindow

/-- An empty window of positive capacity. -/
def create (capacity : Nat) (next : SeqNum) : Except Fault ReceiveWindow :=
  if positive : 0 < capacity then .ok { next, ring := Ring.empty capacity positive }
  else .error .emptyWindow

/-- Number of bytes that a window can buffer. -/
def capacity (window : ReceiveWindow) : Nat := window.ring.capacity

/-- The byte buffered at an offset behind the next expected position. -/
def buffered (window : ReceiveWindow) (offset : Nat) : Option UInt8 :=
  window.ring.get? offset

/-- Move an emptied window to a new position. -/
def synchronize (window : ReceiveWindow) (next : SeqNum) : ReceiveWindow where
  next := next
  ring := Ring.empty window.capacity window.ring.capacity_pos

/-- Consume the sequence number of a control flag.  No data can follow it in place, so the buffer is
emptied. -/
def consumeFlag (window : ReceiveWindow) : ReceiveWindow where
  next := window.next.advance 1
  ring := window.ring.clear

/-- Buffer the part of a payload that fits behind an offset and deliver what became consecutive. -/
def accept (window : ReceiveWindow) (offset : Nat) (payload : Bytes) : Arrival × ReceiveWindow :=
  let filled := window.ring.write offset (payload.take (window.capacity - offset))
  let (delivered, ring) := filled.takeRun
  (.accepted delivered, { next := window.next.advance delivered.length, ring })

/-- Take an arriving payload into the window. -/
def receive (window : ReceiveWindow) (seq : SeqNum) (payload : Bytes) :
    Except Fault (Arrival × ReceiveWindow) := do
  let length ← countWord payload.length
  if (seq.advance length).AtOrBefore window.next then
    .ok (.stale, window)
  else if seq.Before window.next then
    if payload.length < window.next.since seq then .error .payloadPrefix
    else .ok (window.accept 0 (payload.drop (window.next.since seq)))
  else if window.capacity < seq.since window.next then
    .ok (.outOfWindow, window)
  else
    .ok (window.accept (seq.since window.next) payload)

end ReceiveWindow
end ReliableTransport
