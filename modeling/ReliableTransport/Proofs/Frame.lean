import ReliableTransport.Proofs.Bytes
import ReliableTransport.Segment.Codec

/-!
# Byte strings that hold a segment

A frame is a byte string part by part: what is read of it, and whatever stands in the places that
are ignored.  The byte strings of frames are exactly those that are read as segments, and what is
read does not depend on the ignored places.  Replacing the acknowledgment number of a frame changes
this one part.
-/

namespace ReliableTransport

namespace Flags

/-- All but three bits of a flag byte are ignored. -/
theorem bits_ofBits (byte : UInt8) : (ofBits byte).bits = byte &&& 19 := by
  have each : ∀ value : BitVec 8, (ofBits ⟨value⟩).bits = ⟨value⟩ &&& 19 := by decide +kernel
  exact each byte.toBitVec

theorem bits_inj {flags other : Flags} (same : flags.bits = other.bits) : flags = other := by
  rw [← ofBits_bits flags, same, ofBits_bits]

end Flags

namespace Segment

open Bytes

/-- The upper half of the byte behind the acknowledgment number counts the words of the header. -/
theorem announcedLength_eq {raw : Bytes} {byte : UInt8} (there : raw[12]? = some byte) :
    announcedLength raw = 4 * (byte >>> 4).toNat := by
  rw [announcedLength, field_one there, UInt8.toNat_shiftRight, Nat.shiftRight_eq_div_pow,
    Nat.mul_comm]
  rfl

/-- A byte string is long enough for the fixed header and for all of the announced one. -/
structure Complete (raw : Bytes) : Prop where
  /-- The announced header holds the fixed one. -/
  fixed : fixedLength ≤ announcedLength raw
  /-- The announced header is there. -/
  long : announcedLength raw ≤ raw.length

namespace Complete

variable {raw : Bytes}

theorem fixedLength_le (complete : Complete raw) : 20 ≤ raw.length :=
  Nat.le_trans complete.fixed complete.long

theorem getElem?_extent (complete : Complete raw) :
    raw[12]? = some (UInt8.ofNat (raw.field 12 1)) :=
  getElem?_eq_field (Nat.lt_of_lt_of_le (by decide) complete.fixedLength_le)

theorem length_ports (complete : Complete raw) : (raw.take 4).length = 4 :=
  List.length_take_of_le (Nat.le_trans (by decide) complete.fixedLength_le)

theorem extent_eq (complete : Complete raw) :
    4 * (UInt8.ofNat (raw.field 12 1) >>> 4).toNat = fixedLength +
      ((raw.drop fixedLength).take (announcedLength raw - fixedLength)).length := by
  have fixed := complete.fixed
  have long := complete.long
  rw [← announcedLength_eq complete.getElem?_extent, List.length_take, List.length_drop]
  omega

theorem length_trailer (complete : Complete raw) : ((raw.drop 16).take 4).length = 4 := by
  have long := complete.fixedLength_le
  rw [List.length_take, List.length_drop]
  omega

end Complete

/-- The flags that are read are the bits that are not ignored. -/
theorem bits_decodeHeader (raw : Bytes) :
    UInt8.ofNat (raw.field 13 1) &&& 19 = (decodeHeader raw).flags.bits :=
  (Flags.bits_ofBits _).symm

/-- A byte string that holds a segment, part by part. -/
structure Frame where
  /-- The fields that are read. -/
  header : Header
  /-- The bytes behind the header. -/
  payload : Bytes
  /-- Ports, which are ignored. -/
  ports : Bytes
  /-- The byte whose upper half counts the words of the header. -/
  extent : UInt8
  /-- The byte with the flags and with bits that are ignored. -/
  control : UInt8
  /-- Checksum and urgent pointer, which are ignored. -/
  trailer : Bytes
  /-- Options, which are skipped. -/
  options : Bytes
  /-- The ports take up four bytes. -/
  length_ports : ports.length = 4
  /-- The header reaches to the payload. -/
  extent_eq : 4 * (extent >>> 4).toNat = fixedLength + options.length
  /-- The bits that are not ignored are the flags. -/
  control_eq : control &&& 19 = header.flags.bits
  /-- Checksum and urgent pointer take up four bytes. -/
  length_trailer : trailer.length = 4

namespace Frame

/-- The bytes in front of the acknowledgment number. -/
def front (frame : Frame) : Bytes :=
  frame.ports ++ ofNumber 4 frame.header.seq.val.toNat

/-- The bytes between the acknowledgment number and the options. -/
def middle (frame : Frame) : Bytes :=
  [frame.extent, frame.control] ++ (ofNumber 2 frame.header.window.toNat ++ frame.trailer)

/-- The bytes of a frame. -/
def bytes (frame : Frame) : Bytes :=
  frame.front ++ (ofNumber 4 frame.header.ack.val.toNat ++
    (frame.middle ++ (frame.options ++ frame.payload)))

/-- What is read of a frame. -/
def segment (frame : Frame) : Segment where
  header := frame.header
  headerLength := fixedLength + frame.options.length
  payload := frame.payload

/-- The frame with another acknowledgment number. -/
def refresh (frame : Frame) (ack : SeqNum) : Frame :=
  { frame with header := { frame.header with ack } }

/-- The frame without options and with zeros in the ignored places. -/
def plain (header : Header) (payload : Bytes) : Frame where
  header := header
  payload := payload
  ports := ofNumber 4 0
  extent := 0x50
  control := header.flags.bits
  trailer := ofNumber 4 0
  options := []
  length_ports := length_ofNumber 4 0
  extent_eq := rfl
  control_eq := by rw [← Flags.bits_ofBits, Flags.ofBits_bits]
  length_trailer := length_ofNumber 4 0

theorem bytes_plain (header : Header) (payload : Bytes) :
    (plain header payload).bytes = encode header payload := by
  simp [bytes, front, middle, plain, encode, encodeHeader]

section Fields

variable (frame : Frame)

theorem length_front : frame.front.length = ackOffset := by
  simp [front, frame.length_ports, ackOffset]

theorem length_middle : frame.middle.length = 8 := by
  simp [middle, frame.length_trailer]

theorem length_bytes :
    frame.bytes.length = fixedLength + frame.options.length + frame.payload.length := by
  simp only [bytes, List.length_append, length_ofNumber, frame.length_front, frame.length_middle,
    ackOffset, fixedLength]
  omega

theorem field_seq : frame.bytes.field 4 4 = frame.header.seq.val.toNat := by
  rw [bytes, front, List.append_assoc,
    field_of_eq_append _ _ _ rfl frame.length_ports (length_ofNumber 4 _)]
  exact toNumber_ofNumber_word32 frame.header.seq.val

theorem field_ack : frame.bytes.field ackOffset 4 = frame.header.ack.val.toNat := by
  rw [bytes, field_of_eq_append _ _ _ rfl frame.length_front (length_ofNumber 4 _)]
  exact toNumber_ofNumber_word32 frame.header.ack.val

theorem getElem?_extent : frame.bytes[12]? = some frame.extent := by
  simp [bytes, middle, List.getElem?_append_right, frame.length_front, ackOffset]

theorem getElem?_control : frame.bytes[13]? = some frame.control := by
  simp [bytes, middle, List.getElem?_append_right, frame.length_front, ackOffset]

theorem field_window : frame.bytes.field 14 2 = frame.header.window.toNat := by
  have assembled : frame.bytes = (frame.front ++ ofNumber 4 frame.header.ack.val.toNat ++
      [frame.extent, frame.control]) ++ (ofNumber 2 frame.header.window.toNat ++
        (frame.trailer ++ (frame.options ++ frame.payload))) := by
    simp [bytes, middle]
  rw [field_of_eq_append _ _ _ assembled (by simp [length_front, ackOffset]) (length_ofNumber 2 _)]
  exact toNumber_ofNumber_word16 frame.header.window

theorem drop_bytes :
    frame.bytes.drop (fixedLength + frame.options.length) = frame.payload := by
  have assembled : frame.bytes = (frame.front ++ ofNumber 4 frame.header.ack.val.toNat ++
      frame.middle ++ frame.options) ++ frame.payload := by
    simp [bytes]
  rw [assembled]
  refine List.drop_left' ?_
  simp only [List.length_append, length_ofNumber, frame.length_front, frame.length_middle,
    ackOffset, fixedLength]

theorem announcedLength_bytes :
    announcedLength frame.bytes = fixedLength + frame.options.length := by
  rw [announcedLength_eq frame.getElem?_extent, frame.extent_eq]

theorem decodeHeader_bytes : decodeHeader frame.bytes = frame.header := by
  have flags_eq : Flags.ofBits frame.control = frame.header.flags :=
    Flags.bits_inj ((Flags.bits_ofBits frame.control).trans frame.control_eq)
  rw [decodeHeader, field_one frame.getElem?_control, UInt8.ofNat_toNat, flags_eq, frame.field_seq,
    frame.field_ack, frame.field_window]
  simp

/-- A frame is read as its segment, whatever stands in the ignored places. -/
theorem decode_bytes : decode frame.bytes = .ok frame.segment := by
  rw [decode, announcedLength_bytes, length_bytes, decodeHeader_bytes, drop_bytes,
    if_neg (by omega)]
  rfl

/-- The acknowledgment number of a frame can be replaced. -/
theorem patchAck_bytes (ack : SeqNum) :
    patchAck frame.bytes ack = .ok (frame.refresh ack).bytes := by
  have long : ¬ frame.bytes.length < ackOffset + 4 := by
    rw [length_bytes, ackOffset, fixedLength]
    omega
  rw [patchAck, if_neg long, bytes,
    overwrite_of_eq_append rfl frame.length_front (by rw [length_ofNumber, length_ofNumber])]
  rfl

end Fields

/-- The parts of a complete byte string. -/
def read (raw : Bytes) (complete : Complete raw) : Frame where
  header := decodeHeader raw
  payload := raw.drop (announcedLength raw)
  ports := raw.take 4
  extent := UInt8.ofNat (raw.field 12 1)
  control := UInt8.ofNat (raw.field 13 1)
  trailer := (raw.drop 16).take 4
  options := (raw.drop fixedLength).take (announcedLength raw - fixedLength)
  length_ports := complete.length_ports
  extent_eq := complete.extent_eq
  control_eq := bits_decodeHeader raw
  length_trailer := complete.length_trailer

/-- A byte string consists of its parts. -/
theorem bytes_read {raw : Bytes} (complete : Complete raw) : (read raw complete).bytes = raw := by
  have header_le : 20 ≤ announcedLength raw := complete.fixed
  have long := complete.fixedLength_le
  have seq_eq := ofNumber_field_word32 (Nat.le_trans (show 4 + 4 ≤ 20 by decide) long)
  have ack_eq := ofNumber_field_word32 (Nat.le_trans (show 8 + 4 ≤ 20 by decide) long)
  have extent_eq := singleton_field (Nat.lt_of_lt_of_le (show 12 < 20 by decide) long)
  have control_eq := singleton_field (Nat.lt_of_lt_of_le (show 13 < 20 by decide) long)
  have window_eq := ofNumber_field_word16 (Nat.le_trans (show 14 + 2 ≤ 20 by decide) long)
  have options_eq : (raw.drop 20).take (announcedLength raw - 20) ++
      raw.drop (announcedLength raw) = raw.drop 20 := by
    have joined := take_drop_append raw 20 (announcedLength raw - 20)
    rwa [Nat.add_sub_cancel' header_le] at joined
  calc (read raw complete).bytes
      = raw.take 4 ++ ((raw.drop 4).take 4 ++ ((raw.drop 8).take 4 ++ ((raw.drop 12).take 1 ++
          ((raw.drop 13).take 1 ++ ((raw.drop 14).take 2 ++ ((raw.drop 16).take 4 ++
            raw.drop 20)))))) := by
        rw [← seq_eq, ← ack_eq, ← extent_eq, ← control_eq, ← window_eq, ← options_eq]
        simp [bytes, front, middle, read, decodeHeader, ackOffset, fixedLength]
    _ = raw := by
        rw [take_drop_append raw 16 4, take_drop_append raw 14 2, take_drop_append raw 13 1,
          take_drop_append raw 12 1, take_drop_append raw 8 4, take_drop_append raw 4 4,
          List.take_append_drop]

end Frame

end Segment
end ReliableTransport
