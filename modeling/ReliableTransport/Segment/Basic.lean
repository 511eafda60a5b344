import ReliableTransport.Bytes
import ReliableTransport.Fault
import ReliableTransport.SeqNum

/-!
# Segments

A segment carries control flags, a position in the sender's sequence space, an acknowledged position
in the receiver's, a window advertisement and a payload.  A segment occupies one sequence number per
payload byte and one for each of SYN and FIN.
-/

namespace ReliableTransport

/-- The control flags of a segment. -/
structure Flags where
  /-- The sender has no more data. -/
  fin : Bool := false
  /-- The sender announces its initial sequence number. -/
  syn : Bool := false
  /-- The acknowledgment number is meaningful. -/
  ack : Bool := false
  deriving DecidableEq, Repr

namespace Flags

/-- The flag byte: FIN has weight 1, SYN weight 2 and ACK weight 16. -/
def bits (flags : Flags) : UInt8 :=
  (if flags.fin then 1 else 0) + (if flags.syn then 2 else 0) + (if flags.ack then 16 else 0)

/-- The flags set in a flag byte, whatever its other bits are. -/
def ofBits (byte : UInt8) : Flags where
  fin := byte.toNat % 2 = 1
  syn := byte.toNat / 2 % 2 = 1
  ack := byte.toNat / 16 % 2 = 1

/-- The names of the set flags joined by bars, or `0x0` when none is set. -/
def text (flags : Flags) : String :=
  let names := (if flags.fin then ["FIN"] else []) ++ (if flags.syn then ["SYN"] else []) ++
    (if flags.ack then ["ACK"] else [])
  if names.isEmpty then "0x0" else String.intercalate " | " names

theorem ofBits_bits (flags : Flags) : ofBits flags.bits = flags := by
  obtain ⟨fin, syn, ack⟩ := flags
  cases fin <;> cases syn <;> cases ack <;> rfl

/-- The number of sequence numbers occupied by a segment with these flags and a payload of the given
length, where a longer payload than 32 bits can count is counted as the longest such. -/
def span (flags : Flags) (payloadLength : Nat) : Except Fault Nat :=
  let total := min payloadLength (UInt32.size - 1) + flags.syn.toNat + flags.fin.toNat
  if total < UInt32.size then .ok total else .error .sequenceLength

end Flags

/-- The meaningful fields of a segment header. -/
structure Header where
  /-- Control flags. -/
  flags : Flags
  /-- Position of the first sequence number that the segment occupies. -/
  seq : SeqNum
  /-- The next position expected from the receiver of the segment. -/
  ack : SeqNum
  /-- Number of bytes that the sender of the segment is ready to buffer. -/
  window : UInt16
  deriving DecidableEq, Repr

namespace Header

/-- One-line description of a header. -/
def text (header : Header) : String :=
  "SEG\x7bFlags(" ++ header.flags.text ++ ") seq=" ++ header.seq.text ++ " ack=" ++
    header.ack.text ++ " wnd=" ++ toString header.window.toNat ++ "\x7d"

end Header

/-- A received segment. -/
structure Segment where
  /-- Meaningful header fields. -/
  header : Header
  /-- Extent of the received header, including options. -/
  headerLength : Nat
  /-- The bytes behind the header. -/
  payload : Bytes
  deriving DecidableEq, Repr

namespace Segment

/-- The number of sequence numbers that a segment occupies. -/
def span (segment : Segment) : Except Fault Nat :=
  segment.header.flags.span segment.payload.length

end Segment
end ReliableTransport
