import ReliableTransport.Segment.Codec
import ReliableTransport.Side

/-!
# Links

A link carries segments between two ends in the order of sending.  Each end may lose some of the
segments that are sent through it, may refuse to send, and may fail to receive.  A lost segment is
accepted like any other: its sender cannot tell the difference.
-/

namespace ReliableTransport

/-- Whether a segment is lost, given the segments sent earlier under the same rule, oldest first. -/
abbrev LossRule := List Bytes → Bytes → Bool

namespace LossRule

/-- Lose nothing. -/
def never : LossRule := fun _ _ => false

/-- Count some of the segments from zero, and lose the counted segments with the given numbers, or
all of them. -/
def numbered (counts : Bytes → Bool) (numbers : Option (List Nat)) : LossRule :=
  fun earlier raw => counts raw &&
    match numbers with
    | some numbers => numbers.contains (earlier.filter counts).length
    | none => true

end LossRule

/-- One end of a link. -/
structure Interface where
  /-- Nothing can be sent through this end. -/
  failing : Bool := false
  /-- This end was removed: nothing comes from it and nothing reaches it. -/
  unplugged : Bool := false
  /-- The next attempt to receive fails. -/
  receiveFails : Bool := false
  /-- Which of the segments sent through this end are lost. -/
  rule : LossRule := LossRule.never
  /-- The segments sent through this end since the rule is in force, oldest first. -/
  underRule : List Bytes := []
  /-- Segments that arrived at this end and were not taken yet, oldest first. -/
  inbox : List Bytes := []

namespace Interface

/-- Remove what the next attempt to receive yields: its failure or the oldest segment. -/
def discardNext (interface : Interface) : Interface :=
  if interface.receiveFails then { interface with receiveFails := false }
  else { interface with inbox := interface.inbox.tail }

end Interface

/-- Two ends joined by a link. -/
structure Link where
  /-- The first end. -/
  first : Interface := {}
  /-- The second end. -/
  second : Interface := {}

namespace Link

/-- One of the ends. -/
def interface (link : Link) : Side → Interface
  | .first => link.first
  | .second => link.second

/-- Replace one of the ends. -/
def setInterface (link : Link) (side : Side) (interface : Interface) : Link :=
  match side with
  | .first => { link with first := interface }
  | .second => { link with second := interface }

/-- How many segments one end accepts before it fails, if it does. -/
def failsAfter (link : Link) (side : Side) : Option Nat :=
  if (link.interface side).failing then some 0 else none

/-- Carry an accepted segment to the other end, unless it is lost. -/
def carry (link : Link) (side : Side) (raw : Bytes) : Link :=
  let sender := link.interface side
  let receiver := link.interface side.other
  let lost := sender.rule sender.underRule raw || sender.unplugged || receiver.unplugged
  let receiver := if lost then receiver else { receiver with inbox := receiver.inbox ++ [raw] }
  (link.setInterface side { sender with underRule := sender.underRule ++ [raw] }).setInterface
    side.other receiver

/-- Carry accepted segments in order. -/
def carryAll (link : Link) (side : Side) (segments : List Bytes) : Link :=
  segments.foldl (·.carry side ·) link

/-- Put a new loss rule in force for segments sent through one end. -/
def setRule (link : Link) (side : Side) (rule : LossRule) : Link :=
  link.setInterface side { link.interface side with rule, underRule := [] }

@[simp]
theorem interface_setInterface (link : Link) (side : Side) (interface : Interface) :
    (link.setInterface side interface).interface side = interface := by
  cases side <;> rfl

@[simp]
theorem interface_other_setInterface (link : Link) (side : Side) (interface : Interface) :
    (link.setInterface side interface).interface side.other = link.interface side.other := by
  cases side <;> rfl

end Link
end ReliableTransport
