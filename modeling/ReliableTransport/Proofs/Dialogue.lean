import ReliableTransport.Connection.Basic
import ReliableTransport.Proofs.Flight
import ReliableTransport.Proofs.Ledger

/-!
# What the ends tell each other and their applications

Every segment of an end carries an entry of its script at the position of the entry, or nothing but
an acknowledgment.  Acknowledgment numbers lie behind fronts of what was received.  The events of an
end tell of exactly what was received.
-/

namespace ReliableTransport

open Script

namespace Cargo

/-- The segment that carries an entry of a script, as it is read. -/
def segment (cargo : Cargo) (seq ack : SeqNum) (window : UInt16) : Segment where
  header := { flags := cargo.flags, seq, ack, window }
  headerLength := Segment.fixedLength
  payload := cargo.payload

theorem decode_encode (cargo : Cargo) (seq ack : SeqNum) (window : UInt16) :
    Segment.decode (cargo.encode seq ack window) = .ok (cargo.segment seq ack window) :=
  Segment.decode_encode _ _

theorem encode_inj {cargo other : Cargo} {seq seq' ack ack' : SeqNum} {window window' : UInt16}
    (same : cargo.encode seq ack window = other.encode seq' ack' window') :
    cargo = other ∧ seq = seq' ∧ ack = ack' := by
  obtain ⟨header_eq, payload_eq⟩ := Segment.encode_inj same
  obtain ⟨flags_eq, seq_eq, ack_eq, -⟩ := Header.mk.inj header_eq
  refine ⟨?_, seq_eq, ack_eq⟩
  cases cargo <;> cases other <;> simp_all [flags, payload]

end Cargo

namespace Segment

/-- The bytes of a segment that carries nothing but an acknowledgment. -/
def acknowledgment (seq ack : SeqNum) (window : UInt16) : Bytes :=
  encode { flags := { ack := true }, seq, ack, window } []

theorem decode_acknowledgment (seq ack : SeqNum) (window : UInt16) :
    decode (acknowledgment seq ack window) =
      .ok
        { header := { flags := { ack := true }, seq, ack, window }
          headerLength := fixedLength
          payload := [] } :=
  decode_encode _ _

theorem ack_eq_of_acknowledgment_eq {seq seq' ack ack' : SeqNum} {window window' : UInt16}
    (same : acknowledgment seq ack window = acknowledgment seq' ack' window') : ack = ack' :=
  congrArg Header.ack (encode_inj same).1

theorem fin_encode_ne_acknowledgment (seq seq' ack ack' : SeqNum) (window window' : UInt16) :
    Cargo.fin.encode seq ack window ≠ acknowledgment seq' ack' window' := by
  intro same
  obtain ⟨header_eq, -⟩ := encode_inj same
  cases (Header.mk.inj header_eq).1

end Segment

/-- The identity of one end and what it wrote and received. -/
structure Party where
  /-- Initial sequence number. -/
  isn : SeqNum
  /-- The window that it advertises. -/
  window : UInt16
  /-- What it wrote and received. -/
  ledger : Ledger

namespace Party

/-- An acknowledgment number behind a nonempty received front. -/
def Acknowledges (party : Party) (origin ack : SeqNum) (front : List Cargo) : Prop :=
  front ≠ [] ∧ front <+: party.ledger.received ∧ ack = origin.advance (extent front)

/-- The segments that a party may have sent to a peer with a given initial sequence number. -/
inductive Speaks (party : Party) (origin : SeqNum) : Bytes → Prop
  /-- An entry of the script at its place. -/
  | cargo {front back : List Cargo} {cargo : Cargo} {ack : SeqNum} :
      party.ledger.script = front ++ cargo :: back →
      (cargo.flags.ack → ∃ known, party.Acknowledges origin ack known) →
      party.Speaks origin
        (cargo.encode (party.isn.advance (extent front)) ack party.window)
  /-- Nothing but an acknowledgment. -/
  | acknowledgment {known : List Cargo} (seq : SeqNum) {ack : SeqNum} :
      party.Acknowledges origin ack known →
      party.Speaks origin (Segment.acknowledgment seq ack party.window)

/-- A party has gone on: it wrote and received more. -/
structure Continues (party later : Party) : Prop where
  /-- It is the same party. -/
  isn_eq : later.isn = party.isn
  /-- It advertises the same window. -/
  window_eq : later.window = party.window
  /-- It only wrote more. -/
  script : party.ledger.script <+: later.ledger.script
  /-- It only received more. -/
  received : party.ledger.received <+: later.ledger.received

variable {party later : Party} {origin ack : SeqNum}

theorem Continues.refl (party : Party) : party.Continues party where
  isn_eq := rfl
  window_eq := rfl
  script := List.prefix_refl party.ledger.script
  received := List.prefix_refl party.ledger.received

theorem Continues.trans {last : Party} (first : party.Continues later)
    (second : later.Continues last) : party.Continues last where
  isn_eq := second.isn_eq.trans first.isn_eq
  window_eq := second.window_eq.trans first.window_eq
  script := first.script.trans second.script
  received := first.received.trans second.received

theorem Speaks.acknowledges {raw : Bytes} {segment : Segment} (speaks : party.Speaks origin raw)
    (decoded : Segment.decode raw = .ok segment) (acks : segment.header.flags.ack) :
    ∃ known, party.Acknowledges origin segment.header.ack known := by
  cases speaks with
  | cargo split honest =>
      rw [Cargo.decode_encode] at decoded
      obtain rfl := Except.ok.inj decoded
      exact honest acks
  | acknowledgment seq honest =>
      rw [Segment.decode_acknowledgment] at decoded
      obtain rfl := Except.ok.inj decoded
      exact ⟨_, honest⟩

/-- A segment with a payload carries a chunk at its position. -/
theorem Speaks.data {raw : Bytes} {segment : Segment} (speaks : party.Speaks origin raw)
    (decoded : Segment.decode raw = .ok segment) (payload_ne : segment.payload ≠ []) :
    ∃ front back, party.ledger.script = front ++ .data segment.payload :: back ∧
      segment.header.seq = party.isn.advance (extent front) := by
  cases speaks with
  | @cargo front back cargo ack split honest =>
      rw [Cargo.decode_encode] at decoded
      obtain rfl := Except.ok.inj decoded
      cases cargo with
      | syn answers => exact absurd rfl payload_ne
      | data chunk => exact ⟨front, back, split, rfl⟩
      | fin => exact absurd rfl payload_ne
  | acknowledgment seq honest =>
      rw [Segment.decode_acknowledgment] at decoded
      obtain rfl := Except.ok.inj decoded
      exact absurd rfl payload_ne

/-- What was said stays true. -/
theorem Speaks.mono {raw : Bytes} (speaks : party.Speaks origin raw)
    (continues : party.Continues later) : later.Speaks origin raw := by
  have acknowledges {ack : SeqNum} {known : List Cargo}
      (honest : party.Acknowledges origin ack known) : later.Acknowledges origin ack known :=
    ⟨honest.1, honest.2.1.trans continues.received, honest.2.2⟩
  cases speaks with
  | @cargo front back cargo ack split honest =>
      obtain ⟨more, script_eq⟩ := continues.script
      rw [← continues.isn_eq, ← continues.window_eq]
      have split' : later.ledger.script = front ++ cargo :: (back ++ more) := by
        rw [← script_eq, split, List.append_assoc, List.cons_append]
      refine .cargo split' fun acks => ?_
      obtain ⟨known, honest⟩ := honest acks
      exact ⟨known, acknowledges honest⟩
  | acknowledgment seq honest =>
      rw [← continues.window_eq]
      exact .acknowledgment seq (acknowledges honest)

end Party

/-- Events tell of a received front: of the stream in pieces, and at last that it is complete. -/
def Reports (events : List AppEvent) (received : List Cargo) : Prop :=
  ∃ pieces : List Bytes,
    events = pieces.map .data ++ (if .fin ∈ received then [.peerFinished] else []) ∧
      pieces.flatten = content received

namespace Reports

variable {events : List AppEvent} {received received' : List Cargo}

/-- A delivered run is the next piece of an incomplete stream. -/
theorem deliver (reports : Reports events received) {run : Bytes}
    (content_eq : content received' = content received ++ run)
    (fin_iff : .fin ∈ received' ↔ .fin ∈ received) (complete : .fin ∈ received → run = []) :
    Reports (events ++ if run.isEmpty then [] else [.data run]) received' := by
  obtain ⟨pieces, events_eq, flatten_eq⟩ := reports
  by_cases empty : run = []
  · subst empty
    refine ⟨pieces, ?_, ?_⟩
    · simp [events_eq, fin_iff]
    · rw [flatten_eq, content_eq, List.append_nil]
  · have unfinished : .fin ∉ received := fun finished => empty (complete finished)
    refine ⟨pieces ++ [run], ?_, ?_⟩
    · simp [events_eq, fin_iff, unfinished, empty]
    · rw [List.flatten_append, flatten_eq, content_eq, List.flatten_singleton]

/-- The end of the stream is told behind all of its pieces. -/
theorem finish (reports : Reports events received) (unfinished : .fin ∉ received) :
    Reports (events ++ [.peerFinished]) (received ++ [.fin]) := by
  obtain ⟨pieces, events_eq, flatten_eq⟩ := reports
  refine ⟨pieces, ?_, ?_⟩
  · simp [events_eq, unfinished]
  · simp [flatten_eq, Cargo.payload]

theorem begin (reports : Reports events []) (answers : Bool) :
    Reports events [.syn answers] := by
  obtain ⟨pieces, events_eq, flatten_eq⟩ := reports
  exact ⟨pieces, by simpa using events_eq, by simpa [Cargo.payload] using flatten_eq⟩

end Reports
end ReliableTransport
