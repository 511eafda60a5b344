import ReliableTransport.Proofs.Network.Preservation
import ReliableTransport.Proofs.Station.Basic

/-!
# What the phase of a connection tells

The phase says whether the own FIN was sent, whether it was acknowledged, and whether the
application was told of the end of the peer's stream.  It says so whatever the peer does, and a
connection that waits for the acknowledgment of its FIN has a deadline for it.
-/

namespace ReliableTransport

open Script

namespace Phase

/-- The own FIN was sent. -/
def finSent : Phase → Bool
  | finWait1 | finWait2 | lastAck | closing => true
  | closed | synSent | synReceived | established | closeWait | terminated => false

/-- The own FIN was acknowledged. -/
def finAcked : Phase → Bool
  | finWait2 => true
  | closed | synSent | synReceived | established | finWait1 | closeWait | lastAck | closing
  | terminated => false

/-- The peer's stream is complete. -/
def peerFinished : Phase → Bool
  | closeWait | lastAck | closing => true
  | closed | synSent | synReceived | established | finWait1 | finWait2 | terminated => false

/-- The acknowledgment of the own FIN is awaited. -/
def awaitsFinAck (phase : Phase) : Bool :=
  phase.finSent && !phase.finAcked

namespace Admits

variable {phase : Phase} {ledger : Ledger}

theorem fin_mem_script_iff (admits : phase.Admits ledger) (running : phase ≠ terminated) :
    .fin ∈ ledger.script ↔ phase.finSent = true := by
  cases phase with
  | closed | synSent | synReceived => simp [finSent, admits.1]
  | established | closeWait => simp [finSent, admits.2.1]
  | finWait1 | finWait2 | lastAck | closing => simp [finSent, admits.1]
  | terminated => exact absurd rfl running

theorem fin_mem_received_iff (admits : phase.Admits ledger) (running : phase ≠ terminated) :
    .fin ∈ ledger.received ↔ phase.peerFinished = true := by
  cases phase with
  | closed | synSent => simp [peerFinished, admits.2]
  | synReceived => simp [peerFinished, admits.2.2]
  | established | finWait1 | finWait2 => simp [peerFinished, admits.2.2.2]
  | closeWait | lastAck | closing => simp [peerFinished, admits.2.2.2]
  | terminated => exact absurd rfl running

theorem acked_iff (admits : phase.Admits ledger) (running : phase ≠ terminated) :
    .fin ∈ ledger.script ∧ ledger.acked = ledger.script ↔ phase.finAcked = true := by
  cases phase with
  | closed | synSent | synReceived => simp [finAcked, admits.1]
  | established | closeWait => simp [finAcked, admits.2.1]
  | finWait1 | lastAck | closing => simp [finAcked, admits.2.1]
  | finWait2 => simp [finAcked, admits.1, admits.2.1]
  | terminated => exact absurd rfl running

end Admits
end Phase

namespace Connection

/-- The own FIN is the youngest outstanding segment, and its acknowledgment is awaited until a
deadline, which is no alarm only if no clock can show it. -/
def FinOutstanding (connection : Connection) : Prop :=
  ∃ fin last decoded deadline,
    connection.finSeq = some fin ∧ fin.advance 1 = connection.sendNext ∧
    connection.flight.segments.getLast? = some last ∧ last.seq = fin ∧ last.length = 1 ∧
    Segment.decode last.raw = .ok decoded ∧ decoded.header.seq = fin ∧
    decoded.header.flags = { fin := true, ack := true } ∧ decoded.payload = [] ∧
    connection.deadline? = some deadline ∧
    connection.alarm = if deadline < Time.limit then .ok (some deadline) else .error .instant

theorem alarm_eq {connection : Connection} {deadline : Nat}
    (expires : connection.deadline? = some deadline) :
    connection.alarm = if deadline < Time.limit then .ok (some deadline) else .error .instant := by
  have expires : connection.flight.deadline? connection.roundTrip.timeout = some deadline := expires
  rw [alarm, Flight.alarm, expires, Option.mapM_some, Time.checked]
  split <;> rfl

theorem exists_deadline {connection : Connection} (outstanding : connection.flight.segments ≠ []) :
    ∃ deadline, connection.deadline? = some deadline ∧
      connection.alarm = if deadline < Time.limit then .ok (some deadline) else .error .instant := by
  obtain ⟨first, rest, segments_eq⟩ := List.exists_cons_of_ne_nil outstanding
  have expires : ∃ deadline, connection.deadline? = some deadline := by
    simp [deadline?, Flight.deadline?, segments_eq]
  obtain ⟨deadline, expires⟩ := expires
  exact ⟨deadline, expires, alarm_eq expires⟩

variable {connection : Connection} {background : Background} {ledger : Ledger} {settled : Nat}

namespace Sound

theorem finOutstanding (sound : connection.Sound background ledger settled)
    (running : connection.phase ≠ .terminated) (written : .fin ∈ ledger.script)
    (pending : ledger.acked ≠ ledger.script) : connection.FinOutstanding := by
  obtain ⟨front, script_eq, -⟩ := sound.writes.valid.eq_append_fin written
  obtain ⟨rest, split, carries⟩ := sound.writes.carries running
  -- the FIN is behind the acknowledged front
  obtain ⟨others, rfl⟩ : ∃ others, rest = others ++ [.fin] := by
    rcases List.eq_nil_or_concat rest with rfl | ⟨others, last, rfl⟩
    · exact absurd (by simpa using split.symm) pending
    · rw [List.concat_eq_append, ← List.append_assoc, script_eq] at split
      obtain ⟨-, last_eq⟩ := List.append_inj' split rfl
      obtain rfl := List.singleton_inj.mp last_eq
      exact ⟨others, List.concat_eq_append⟩
  have front_eq : extent front = extent ledger.acked + extent others := by
    rw [script_eq, ← List.append_assoc] at split
    obtain ⟨rfl, -⟩ := List.append_inj' split rfl
    exact extent_append _ _
  have extent_eq : extent ledger.script = extent front + 1 := by simp [script_eq]
  have finSeq_eq := sound.writes.finSeq_eq
  rw [if_pos written, extent_eq, Nat.add_sub_cancel] at finSeq_eq
  obtain ⟨last, isLast, carried⟩ := carries.exists_getLast?
  rw [← front_eq] at carried
  obtain ⟨ack, raw_eq⟩ := carried.raw_eq
  have outstanding : connection.flight.segments ≠ [] := by
    intro none
    simp [none] at isLast
  obtain ⟨deadline, expires, alarm_eq⟩ := exists_deadline outstanding
  refine ⟨_, last, _, deadline, finSeq_eq, ?_, isLast, carried.seq_eq, carried.length_eq,
    raw_eq ▸ Cargo.decode_encode _ _ _ _, rfl, rfl, rfl, expires, alarm_eq⟩
  rw [sound.writes.next_eq, extent_eq, SeqNum.advance_advance]

end Sound
end Connection

namespace Station

/-- The phase of a connection tells exactly whether the own FIN was sent, whether it was
acknowledged and whether the peer's end was told of. -/
theorem Arises.phase_determined {config : Config} {isn : SeqNum} {station : Station}
    (arises : Arises config isn station) :
    station.events.count .peerFinished ≤ 1 ∧
      (station.connection.phase ≠ .terminated →
        station.connection.finSeq.isSome = station.connection.phase.finSent ∧
        station.connection.finAcked = station.connection.phase.finAcked ∧
        (.peerFinished ∈ station.events ↔ station.connection.phase.peerFinished = true) ∧
        (station.connection.phase.awaitsFinAck → station.connection.FinOutstanding) ∧
        (station.connection.phase = .finWait2 → station.connection.flight.segments = [])) := by
  obtain ⟨ledger, settled, sound⟩ := arises.sound
  have connection := sound.connection
  have admits := connection.admits
  have told : station.events.count .peerFinished = if .fin ∈ ledger.received then 1 else 0 :=
    connection.told
  refine ⟨by rw [told]; split <;> decide, fun running => ?_⟩
  have written_iff := admits.fin_mem_script_iff running
  have acked_iff := admits.acked_iff running
  refine ⟨?_, ?_, ?_, ?_, ?_⟩
  · rw [connection.writes.finSeq_eq, Bool.eq_iff_iff, ← written_iff]
    split
    · simpa
    · simpa
  · rw [Bool.eq_iff_iff, connection.writes.finAcked_iff, acked_iff]
  · rw [← admits.fin_mem_received_iff running, ← List.count_pos_iff, told]
    split
    · simpa
    · simpa
  · intro awaits
    simp only [Phase.awaitsFinAck, Bool.and_eq_true, Bool.not_eq_true'] at awaits
    have written := written_iff.mpr awaits.1
    refine connection.finOutstanding running written fun acked_eq => ?_
    have acked := acked_iff.mp ⟨written, acked_eq⟩
    simp [awaits.2] at acked
  · intro finWait2
    rw [finWait2] at admits
    obtain ⟨rest, script_eq, carries⟩ := connection.writes.carries running
    rw [carries.nil_iff]
    simpa [admits.2.1] using script_eq

/-- Two FINs that cross. -/
theorem phase_determined_crossing :
    ∃ station : Station, Arises Network.narrow ⟨4294967295⟩ station ∧
      station.connection.phase = .closing ∧ station.events.count .peerFinished = 1 ∧
      station.connection.finAcked = false ∧ station.connection.FinOutstanding := by
  let history : List (Occurrence × Nat) :=
    [(.operate .listen, 0), (.operate (.receive ((Cargo.syn false).encode ⟨7⟩ ⟨0⟩ 4)), 1),
      (.operate (.receive (Segment.acknowledgment ⟨8⟩ ⟨0⟩ 4)), 2), (.operate .close, 3),
      (.operate (.receive (Cargo.fin.encode ⟨8⟩ ⟨0⟩ 4)), 4)]
  have lived : ∃ station : Station, Arises Network.narrow ⟨4294967295⟩ station ∧
      station.connection.phase = .closing :=
    ⟨_, ⟨_, history, rfl, rfl⟩, rfl⟩
  obtain ⟨station, arises, phase_eq⟩ := lived
  obtain ⟨once, determined⟩ := arises.phase_determined
  rw [phase_eq] at determined
  obtain ⟨-, finAcked_eq, told, awaits, -⟩ := determined (by decide)
  refine ⟨station, arises, phase_eq, ?_, finAcked_eq, awaits rfl⟩
  exact Nat.le_antisymm once (List.count_pos_iff.mpr (told.mpr rfl))

/-- Parameters with a clock so coarse that no point in time is shown after one tick of it. -/
def coarse : Config :=
  { Network.narrow with clockGranularity := Time.limit, maxTimeout := Duration.limit - 1 }

/-- After one sample the timeout is a tick of the clock, so that no clock can show the deadline of
the FIN. -/
theorem alarm_out_of_range :
    coarse.Valid ∧ ∃ station : Station, Arises coarse ⟨4294967295⟩ station ∧
      station.connection.phase = .finWait1 ∧ station.connection.alarm = .error .instant := by
  let history : List (Occurrence × Nat) :=
    [(.operate .openActive, 0), (.operate (.receive ((Cargo.syn true).encode ⟨7⟩ ⟨0⟩ 4)), 0),
      (.operate .close, 0)]
  exact ⟨rfl, _, ⟨_, history, rfl, rfl⟩, rfl, rfl⟩

end Station
end ReliableTransport
