import ReliableTransport.Failure
import ReliableTransport.Segment.Basic

/-!
# The wire format of segments

The fixed header has 20 bytes: four that are ignored, the sequence number, the acknowledgment
number, a byte whose upper half counts the header's 32-bit words, the flags, the window and four more
that are ignored.  Options may follow the fixed header and are skipped.  Written headers have no options
and zeros in the ignored places.
-/

namespace ReliableTransport
namespace Segment

/-- Extent of the fixed header. -/
def fixedLength : Nat := 20

/-- The largest payload of a segment whose total length fits in 16 bits. -/
def maxPayloadLength : Nat := UInt16.size - 1 - fixedLength

/-- Offset of the acknowledgment number. -/
def ackOffset : Nat := 8

/-- The fixed header that carries the given fields. -/
def encodeHeader (header : Header) : Bytes :=
  Bytes.ofNumber 4 0 ++ Bytes.ofNumber 4 header.seq.val.toNat ++
    Bytes.ofNumber 4 header.ack.val.toNat ++ [0x50, header.flags.bits] ++
    Bytes.ofNumber 2 header.window.toNat ++ Bytes.ofNumber 4 0

/-- The bytes of a segment. -/
def encode (header : Header) (payload : Bytes) : Bytes :=
  encodeHeader header ++ payload

/-- The header extent announced by a byte string. -/
def announcedLength (raw : Bytes) : Nat :=
  raw.field 12 1 / 16 * 4

/-- The header fields of a byte string that holds a fixed header. -/
def decodeHeader (raw : Bytes) : Header where
  flags := Flags.ofBits (UInt8.ofNat (raw.field 13 1))
  seq := ⟨UInt32.ofNat (raw.field 4 4)⟩
  ack := ⟨UInt32.ofNat (raw.field ackOffset 4)⟩
  window := UInt16.ofNat (raw.field 14 2)

/-- The segment in a byte string, which must hold the fixed header and all of the announced one. -/
def decode (raw : Bytes) : Except Failure Segment :=
  if raw.length < fixedLength ∨ announcedLength raw < fixedLength ∨
      raw.length < announcedLength raw then
    .error (.malformedSegment raw.length)
  else
    .ok
      { header := decodeHeader raw
        headerLength := announcedLength raw
        payload := raw.drop (announcedLength raw) }

/-- Replace the acknowledgment number of an encoded segment. -/
def patchAck (raw : Bytes) (ack : SeqNum) : Except Fault Bytes :=
  if raw.length < ackOffset + 4 then .error .shortSegment
  else .ok (raw.overwrite ackOffset (Bytes.ofNumber 4 ack.val.toNat))

@[simp]
theorem length_encodeHeader (header : Header) : (encodeHeader header).length = fixedLength := by
  simp [encodeHeader, fixedLength]

@[simp]
theorem length_encode (header : Header) (payload : Bytes) :
    (encode header payload).length = fixedLength + payload.length := by
  simp [encode]

end Segment
end ReliableTransport
