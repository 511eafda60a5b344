import ReliableTransport.Proofs.Frame

/-!
# Reading and writing segments

The byte strings that are read as segments are those of frames, and they are recognized by their
length and by one byte.  What is written reads back, and writing what was read normalizes a byte
string: its header, its payload and nothing else is kept.  Replacing the acknowledgment number
commutes with reading.
-/

namespace ReliableTransport
namespace Segment

open Bytes

variable {raw patched : Bytes} {segment : Segment} {ack : SeqNum}

theorem decode_of_complete (complete : Complete raw) :
    decode raw = .ok
      { header := decodeHeader raw
        headerLength := announcedLength raw
        payload := raw.drop (announcedLength raw) } := by
  obtain ⟨fixed, long⟩ := complete
  rw [decode, if_neg (by omega)]

theorem decode_of_not_complete (incomplete : ¬ Complete raw) :
    decode raw = .error (.malformedSegment raw.length) := by
  rw [decode, if_pos]
  by_contra enough
  exact incomplete ⟨by omega, by omega⟩

theorem complete_of_decode (decoded : decode raw = .ok segment) : Complete raw := by
  by_contra incomplete
  rw [decode_of_not_complete incomplete] at decoded
  cases decoded

theorem decode_eq_ok_iff :
    decode raw = .ok segment ↔ ∃ frame : Frame, frame.bytes = raw ∧ frame.segment = segment := by
  constructor
  · intro decoded
    have complete := complete_of_decode decoded
    have bytes_eq := Frame.bytes_read complete
    have again := (Frame.read raw complete).decode_bytes
    rw [bytes_eq, decoded] at again
    exact ⟨_, bytes_eq, (Except.ok.inj again).symm⟩
  · rintro ⟨frame, rfl, rfl⟩
    exact frame.decode_bytes

theorem length_payload_le (decoded : decode raw = .ok segment) :
    segment.payload.length ≤ raw.length := by
  obtain ⟨frame, rfl, rfl⟩ := decode_eq_ok_iff.mp decoded
  rw [frame.length_bytes]
  exact Nat.le_add_left _ _

/-- A written segment reads back with its header and payload. -/
theorem decode_encode (header : Header) (payload : Bytes) :
    decode (encode header payload) = .ok { header, headerLength := fixedLength, payload } := by
  rw [← Frame.bytes_plain, Frame.decode_bytes]
  rfl

theorem encode_inj {header header' : Header} {payload payload' : Bytes}
    (same : encode header payload = encode header' payload') :
    header = header' ∧ payload = payload' := by
  have decoded := decode_encode header payload
  rw [same, decode_encode] at decoded
  obtain ⟨header_eq, -, payload_eq⟩ := Segment.mk.inj (Except.ok.inj decoded)
  exact ⟨header_eq.symm, payload_eq.symm⟩

theorem patchAck_encode (header : Header) (payload : Bytes) (ack : SeqNum) :
    patchAck (encode header payload) ack = .ok (encode { header with ack } payload) := by
  rw [← Frame.bytes_plain, Frame.patchAck_bytes, ← Frame.bytes_plain]
  rfl

/-- The byte behind the acknowledgment number announces where the payload starts. -/
def Announces (raw : Bytes) (extent : Nat) : Prop :=
  ∃ byte : UInt8, raw[12]? = some byte ∧ extent = 4 * (byte >>> 4).toNat

theorem Complete.announces (complete : Complete raw) : Announces raw (announcedLength raw) :=
  ⟨_, complete.getElem?_extent, announcedLength_eq complete.getElem?_extent⟩

theorem complete_iff :
    Complete raw ↔ 20 ≤ raw.length ∧ ∃ extent, Announces raw extent ∧
      20 ≤ extent ∧ extent ≤ raw.length := by
  constructor
  · intro complete
    exact ⟨complete.fixedLength_le, _, complete.announces, complete.fixed, complete.long⟩
  · rintro ⟨-, extent, ⟨byte, there, rfl⟩, fixed, long⟩
    rw [← announcedLength_eq there] at fixed long
    exact ⟨fixed, long⟩

/-- Exactly the complete byte strings are read, and all others rejected with their length.  What is
read reads back without options once it was written anew. -/
theorem decode_exact :
    (∀ raw : Bytes,
      ((∃ segment, decode raw = .ok segment) ↔ 20 ≤ raw.length ∧
        ∃ extent, Announces raw extent ∧ 20 ≤ extent ∧ extent ≤ raw.length) ∧
      (∀ failure, decode raw = .error failure → failure = .malformedSegment raw.length) ∧
      ∀ segment,
        (decode raw = .ok segment ↔
          ∃ frame : Frame, frame.bytes = raw ∧ frame.segment = segment) ∧
        (decode raw = .ok segment →
          Announces raw segment.headerLength ∧
          segment.payload = raw.drop segment.headerLength ∧
          decode (encode segment.header segment.payload) =
            .ok { segment with headerLength := 20 })) ∧
    ∀ header payload,
      decode (encode header payload) = .ok { header, headerLength := 20, payload } := by
  refine ⟨fun raw => ⟨?accepted, ?rejected, fun segment => ⟨decode_eq_ok_iff, ?read⟩⟩,
    decode_encode⟩
  case accepted =>
    rw [← complete_iff]
    exact ⟨fun ⟨_, decoded⟩ => complete_of_decode decoded,
      fun complete => ⟨_, decode_of_complete complete⟩⟩
  case rejected =>
    intro failure failed
    have incomplete : ¬ Complete raw := fun complete => by
      rw [decode_of_complete complete] at failed
      cases failed
    rw [decode_of_not_complete incomplete] at failed
    exact (Except.error.inj failed).symm
  case read =>
    intro decoded
    have complete := complete_of_decode decoded
    rw [decode_of_complete complete] at decoded
    obtain rfl := Except.ok.inj decoded
    exact ⟨complete.announces, rfl, decode_encode _ _⟩

/-- The beginning of a segment with ports, ignored bits and a word of options. -/
def crowdedStart : Bytes := [1, 2, 3, 4, 0, 0, 0, 9, 0, 0, 0, 8, 0x6f, 0xf2, 0, 5, 7, 7, 9, 9]

/-- What is not ignored of `crowdedStart`. -/
def crowdedHeader : Header := ⟨{ syn := true, ack := true }, ⟨9⟩, ⟨8⟩, 5⟩

/-- With the options and two more bytes it is read, and without the options it is rejected. -/
theorem decode_exact_crowded :
    decode (crowdedStart ++ [1, 1, 1, 1, 65, 66]) = .ok ⟨crowdedHeader, 24, [65, 66]⟩ ∧
      decode (encode crowdedHeader [65, 66]) = .ok ⟨crowdedHeader, 20, [65, 66]⟩ ∧
      ∃ failure, decode crowdedStart = .error failure ∧ failure = .malformedSegment 20 := by
  have decoded : decode (crowdedStart ++ [1, 1, 1, 1, 65, 66]) =
      .ok ⟨crowdedHeader, 24, [65, 66]⟩ := by rfl
  have failed : decode crowdedStart = .error (.malformedSegment 20) := by rfl
  exact ⟨decoded, (((decode_exact.1 _).2.2 _).2 decoded).2.2, _, failed,
    (decode_exact.1 _).2.1 _ failed⟩

theorem patchAck_of_le (long : 12 ≤ raw.length) (ack : SeqNum) :
    patchAck raw ack = .ok (raw.overwrite 8 (ofNumber 4 ack.val.toNat)) := by
  rw [patchAck, if_neg (by rw [ackOffset]; omega)]
  rfl

theorem le_of_patchAck (patches : patchAck raw ack = .ok patched) : 12 ≤ raw.length := by
  rw [patchAck, ackOffset] at patches
  split at patches
  · cases patches
  · omega

theorem field_overwrite_ack (long : 12 ≤ raw.length) (ack : SeqNum) :
    (raw.overwrite 8 (ofNumber 4 ack.val.toNat)).field 8 4 = ack.val.toNat := by
  rw [field_overwrite_self (by omega) (length_ofNumber 4 _), toNumber_ofNumber_word32]

theorem decode_of_patchAck (patches : patchAck raw ack = .ok patched) :
    decode patched = (decode raw).map fun segment =>
      { segment with header := { segment.header with ack } } := by
  have long := le_of_patchAck patches
  rw [patchAck_of_le long] at patches
  obtain rfl := Except.ok.inj patches
  have patch_length := length_ofNumber 4 ack.val.toNat
  have length_eq : (raw.overwrite 8 (ofNumber 4 ack.val.toNat)).length = raw.length :=
    length_overwrite (by omega)
  have extent_eq : announcedLength (raw.overwrite 8 (ofNumber 4 ack.val.toNat)) =
      announcedLength raw := by
    rw [announcedLength, field_overwrite (by omega) (by omega), announcedLength]
  have header_eq : decodeHeader (raw.overwrite 8 (ofNumber 4 ack.val.toNat)) =
      { decodeHeader raw with ack } := by
    rw [decodeHeader, ackOffset, field_overwrite_ack long, field_overwrite (by omega) (by omega),
      field_overwrite (by omega) (by omega), field_overwrite (by omega) (by omega),
      UInt32.ofNat_toNat, decodeHeader]
  rw [decode, decode, length_eq, extent_eq, header_eq]
  split
  · rfl
  next enough =>
    rw [fixedLength] at enough
    rw [drop_overwrite (by omega) (by omega)]
    rfl

/-- Replacing the acknowledgment number of a written segment gives the segment written with the new
number.  In any byte string that is long enough, it changes four bytes. -/
theorem patchAck_updates :
    (∀ header payload ack,
      patchAck (encode header payload) ack = .ok (encode { header with ack } payload)) ∧
    ∀ raw : Bytes, 12 ≤ raw.length → ∀ ack, ∃ patched,
      patchAck raw ack = .ok patched ∧
      patched.length = raw.length ∧
      (∀ index, index < 8 ∨ 12 ≤ index → patched[index]? = raw[index]?) ∧
      patched.field 8 4 = ack.val.toNat ∧
      (decode patched = (decode raw).map fun segment =>
        { segment with header := { segment.header with ack } }) ∧
      ∀ later, patchAck patched later = patchAck raw later := by
  refine ⟨patchAck_encode, fun raw long ack => ⟨_, patchAck_of_le long ack, ?_⟩⟩
  have inside : 8 + (ofNumber 4 ack.val.toNat).length ≤ raw.length := by
    rwa [length_ofNumber]
  have length_eq := length_overwrite inside
  refine ⟨length_eq, ?outside, field_overwrite_ack long ack,
    decode_of_patchAck (patchAck_of_le long ack), ?again⟩
  case outside =>
    intro index apart
    exact getElem?_overwrite inside (by rwa [length_ofNumber])
  case again =>
    intro later
    rw [patchAck_of_le (by omega), patchAck_of_le long, overwrite_overwrite (by omega)]
    rw [length_ofNumber, length_ofNumber]

/-- The acknowledgment number of a byte string that is no segment changes, and changes back. -/
theorem patchAck_updates_crowded :
    12 ≤ crowdedStart.length ∧ ∃ patched,
      patchAck crowdedStart ⟨0x01020304⟩ = .ok patched ∧
      patched = [1, 2, 3, 4, 0, 0, 0, 9, 1, 2, 3, 4, 0x6f, 0xf2, 0, 5, 7, 7, 9, 9] ∧
      patchAck patched ⟨8⟩ = .ok crowdedStart := by
  have long : 12 ≤ crowdedStart.length := by decide
  obtain ⟨patched, patches, -, -, -, -, again⟩ :=
    patchAck_updates.2 crowdedStart long ⟨0x01020304⟩
  have patched_eq : patched = [1, 2, 3, 4, 0, 0, 0, 9, 1, 2, 3, 4, 0x6f, 0xf2, 0, 5, 7, 7, 9, 9] :=
    Except.ok.inj (patches.symm.trans (by rfl))
  exact ⟨long, patched, patches, patched_eq, (again ⟨8⟩).trans (by rfl)⟩

end Segment
end ReliableTransport
