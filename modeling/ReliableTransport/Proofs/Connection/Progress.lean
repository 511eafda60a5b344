import ReliableTransport.Proofs.Connection.Handshake

/-!
# What a connection does in one operation

Whatever a connection does, it goes on to follow its peer, and what it says is its own to say: the
entries that it writes, once or once more, and acknowledgments of what it received.
-/

namespace ReliableTransport

open Script

namespace Connection

/-- One operation on a connection that follows a peer. -/
structure Proceeds (before : Connection) (heard : List AppEvent) (ledger : Ledger) (peer : Party)
    (after : Connection) (ledger' : Ledger) : Prop where
  /-- The connection follows the peer. -/
  follows : after.Follows heard ledger' peer
  /-- The parameters stay. -/
  config_eq : after.config = before.config
  /-- The initial sequence number stays. -/
  isn_eq : after.isn = before.isn
  /-- What was written stays. -/
  script : ledger.script <+: ledger'.script
  /-- What was acknowledged stays so. -/
  acked : ledger.acked <+: ledger'.acked
  /-- What was received stays. -/
  received : ledger.received <+: ledger'.received
  /-- What the connection says is its own to say, includes what is written, and acknowledges all
  that was received along with the FIN. -/
  said : ∃ said, after.outbox = before.outbox ++ said ∧
    (∀ raw ∈ said, (after.party ledger').Speaks peer.isn raw) ∧
    (∀ front cargo back, ledger'.script = front ++ cargo :: back →
      front ++ [cargo] <+: ledger.script ∨
        ∃ ack, cargo.encode (before.isn.advance (extent front)) ack before.config.receiveWindow ∈
          said) ∧
    ∀ seq ack window, Cargo.fin.encode seq ack window ∈ said →
      ack = peer.isn.advance (extent ledger'.received)
  /-- The wait for the last acknowledgment begins with the FIN. -/
  lastAck : after.phase = .lastAck →
    before.phase = .lastAck ∧ ledger'.script = ledger.script ∨ .fin ∉ ledger.script

variable {connection : Connection} {heard : List AppEvent} {ledger : Ledger} {peer : Party}

namespace Proceeds

theorem silent {after : Connection} (follows : after.Follows heard ledger peer)
    (config_eq : after.config = connection.config) (isn_eq : after.isn = connection.isn)
    (outbox_eq : after.outbox = connection.outbox)
    (lastAck : after.phase = .lastAck → connection.phase = .lastAck) :
    connection.Proceeds heard ledger peer after ledger where
  follows := follows
  config_eq := config_eq
  isn_eq := isn_eq
  script := List.prefix_refl _
  acked := List.prefix_refl _
  received := List.prefix_refl _
  said := by
    refine ⟨[], by simp [outbox_eq], by simp, fun front cargo back split => Or.inl ?_, by simp⟩
    exact ⟨back, by simp [split]⟩
  lastAck last := Or.inl ⟨lastAck last, rfl⟩

theorem abort (follows : connection.Follows heard ledger peer) :
    connection.Proceeds heard ledger peer connection.abort ledger := by
  have ended : connection.abort.Follows heard ledger peer :=
    { follows with
      sends := follows.sends.abort
      admits := trivial }
  exact .silent ended rfl rfl rfl (by simp [Connection.abort])

theorem write {after : Connection} {cargo : Cargo}
    (before_follows : connection.Follows heard ledger peer)
    (follows : after.Follows heard { ledger with script := ledger.script ++ [cargo] } peer)
    (received_ne : cargo.flags.ack → ledger.received ≠ [])
    (config_eq : after.config = connection.config) (isn_eq : after.isn = connection.isn)
    (recvNext_eq : after.recvNext = connection.recvNext)
    (outbox_eq : after.outbox = connection.outbox ++
      [cargo.encode connection.sendNext connection.recvNext connection.config.receiveWindow])
    (lastAck : after.phase = .lastAck → .fin ∉ ledger.script) :
    connection.Proceeds heard ledger peer after
      { ledger with script := ledger.script ++ [cargo] } := by
  refine ⟨follows, config_eq, isn_eq, List.prefix_append _ _, List.prefix_refl _,
    List.prefix_refl _, ⟨_, outbox_eq, ?_, ?_, ?_⟩, fun last => Or.inr (lastAck last)⟩
  · intro raw mem
    obtain rfl := List.mem_singleton.mp mem
    have split : ledger.script ++ [cargo] = ledger.script ++ cargo :: [] := rfl
    have speaks := follows.speaks_cargo split received_ne
    rw [config_eq, isn_eq, recvNext_eq] at speaks
    rwa [before_follows.sends.next_eq]
  · intro front other back split
    rcases List.eq_nil_or_concat back with rfl | ⟨back, last, rfl⟩
    · obtain ⟨rfl, last_eq⟩ := List.append_inj' split rfl
      obtain rfl : cargo = other := by simpa using last_eq
      refine Or.inr ⟨connection.recvNext, ?_⟩
      rw [before_follows.sends.next_eq]
      exact List.mem_singleton_self _
    · rw [List.concat_eq_append, ← List.cons_append, ← List.append_assoc] at split
      obtain ⟨script_eq, -⟩ := List.append_inj' split rfl
      exact Or.inl ⟨back, by simpa using script_eq.symm⟩
  · intro seq ack window mem
    obtain ⟨rfl, -, rfl⟩ := Cargo.encode_inj (List.mem_singleton.mp mem)
    exact before_follows.recvNext_eq (received_ne rfl)

end Proceeds

namespace Follows

theorem create {config : Config} (config_valid : config.Valid) (isn : SeqNum) :
    ∃ connection, Connection.create config isn = .ok connection ∧ connection.config = config ∧
      connection.phase = .closed ∧ connection.outbox = [] ∧
      ∀ peer, connection.Follows [] ⟨[], [], []⟩ peer := by
  have positive : 0 < config.receiveWindow.toNat := by
    have window_ne := ((Config.valid_iff config).mp config_valid).2.2.1
    exact UInt16.pos_iff_ne_zero.mpr window_ne
  let window : ReceiveWindow :=
    { next := ⟨0⟩, ring := Ring.empty config.receiveWindow.toNat positive }
  have created : ReceiveWindow.create config.receiveWindow.toNat ⟨0⟩ = .ok window :=
    dif_pos positive
  refine ⟨_, by rw [Connection.create, created]; rfl, rfl, rfl, rfl, fun peer => ?_⟩
  have sends : Sends
      { config, isn, window
        phase := .closed
        listening := false
        sendUnacked := isn
        sendNext := isn
        sendWindow := 0
        finSeq := none
        roundTrip := RoundTrip.initial config
        flight := Flight.empty
        outbox := []
        events := [] } peer.window.toNat [] [] := by
    refine ⟨.nil, List.prefix_refl _, ?_, ?_, ?_, fun _ => rfl, rfl, Nat.zero_le _, by simp⟩
    · exact (SeqNum.advance_zero isn).symm
    · exact (SeqNum.advance_zero isn).symm
    · exact fun _ => ⟨[], rfl, .nil _⟩
  exact
    { sends
      admits := ⟨rfl, rfl⟩
      capacity_eq := Ring.capacity_empty _ positive
      acked_isPrefix := List.nil_prefix
      received_isPrefix := List.nil_prefix
      receives := fun received_ne => absurd rfl received_ne
      reports := ⟨[], rfl, rfl⟩ }

theorem openActive (follows : connection.Follows heard ledger peer)
    (closed : connection.phase = .closed) (now : Nat) :
    ∃ after, connection.openActive now = .ok after ∧
      connection.Proceeds heard ledger peer after { ledger with script := [.syn false] } := by
  have admits := follows.admits
  rw [closed] at admits
  obtain ⟨script_eq, received_eq⟩ := admits
  have valid : Valid (ledger.script ++ [.syn false]) := by
    rw [script_eq]
    exact .syn false
  have finSeq_eq : connection.finSeq =
      if .fin ∈ ledger.script ++ [.syn false] then
        some (connection.isn.advance (extent (ledger.script ++ [.syn false]) - 1)) else none := by
    rw [follows.sends.finSeq_eq]
    simp [script_eq]
  obtain ⟨flight, transmitted, sends⟩ := follows.sends.transmit (by simp [closed]) valid
    (Or.inr rfl) (by decide) finSeq_eq (show Phase.synSent ≠ .terminated by decide) now
  have transmitted : connection.transmit { syn := true } [] now = .ok _ := transmitted
  have written : [.syn false] = ledger.script ++ [.syn false] := by rw [script_eq]; rfl
  rw [written]
  refine ⟨_, ?_, .write follows
    { follows with
      sends
      admits := ⟨written.symm, received_eq⟩ }
    (by simp [Cargo.flags]) rfl rfl rfl rfl (by simp)⟩
  rw [Connection.openActive, if_pos closed, transmitted]
  rfl

/-- Sending pending bytes writes the bytes that are taken. -/
theorem sendChunk (follows : connection.Follows heard ledger peer)
    (config_valid : connection.config.Valid) (near : extent ledger.script < 2147483648)
    (pending : Bytes) (now : Nat) :
    ∃ chunk after script, connection.sendChunk pending now = .ok (chunk, after) ∧
      connection.Proceeds heard ledger peer after { ledger with script } ∧
      content script = content ledger.script ++ chunk ∧
      (.fin ∈ script → .fin ∈ ledger.script) := by
  have synchronized (can : connection.canSend) :=
    Phase.synchronized_of_sending (isSending_of_canSend can)
  obtain idle | ⟨chunk, flight, chunk_ne, can, unfinished, sent, sends⟩ :=
    follows.sends.sendChunk near config_valid
      (fun can => follows.admits.script_ne (synchronized can)) pending now
  · exact ⟨[], connection, ledger.script, idle, .silent follows rfl rfl rfl id,
      by simp, id⟩
  · refine ⟨chunk, _, ledger.script ++ [.data chunk], sent, ?_, by simp [Cargo.payload], by simp⟩
    refine .write follows
      { follows with
        sends
        admits := follows.admits.write (isSending_of_canSend can) chunk }
      (fun _ => follows.admits.received_ne (synchronized can)) rfl rfl rfl rfl fun _ => unfinished

theorem close (follows : connection.Follows heard ledger peer) (now : Nat) :
    ∃ after script, connection.close now = .ok after ∧
      connection.Proceeds heard ledger peer after { ledger with script } ∧
      content script = content ledger.script := by
  have finish (opened : connection.phase = .synReceived ∨ connection.phase = .established ∨
        connection.phase = .closeWait) : ∃ fin after script,
        connection.sendFin now = .ok fin ∧
        after = { fin with
          phase := if connection.phase = .closeWait then .lastAck else .finWait1 } ∧
        connection.Proceeds heard ledger peer after { ledger with script } ∧
        content script = content ledger.script := by
    have running : connection.phase ≠ .terminated := by
      intro ended
      simp [ended] at opened
    have next_ne : (if connection.phase = .closeWait then Phase.lastAck else .finWait1) ≠
        .terminated := by
      split <;> decide
    obtain ⟨unfinished, script_ne, received_ne, admits⟩ :=
      follows.admits.writeFin follows.sends.acked_isPrefix opened
    obtain ⟨flight, sent, sends⟩ :=
      follows.sends.sendFin running script_ne unfinished next_ne now
    refine ⟨_, _, ledger.script ++ [.fin], sent, rfl, ?_, by simp [Cargo.payload]⟩
    exact .write follows { follows with sends, admits } (fun _ => received_ne) rfl rfl rfl rfl
      fun _ => unfinished
  cases phase_eq : connection.phase with
  | closed | synSent =>
      refine ⟨connection.abort, ledger.script, ?_, .abort follows, rfl⟩
      simp only [Connection.close, phase_eq]
  | synReceived | established | closeWait =>
      obtain ⟨fin, after, script, sent, after_eq, proceeds, content_eq⟩ :=
        finish (by simp [phase_eq])
      refine ⟨after, script, ?_, proceeds, content_eq⟩
      simp only [Connection.close, phase_eq, sent, after_eq]
      rfl
  | finWait1 | finWait2 | lastAck | closing | terminated =>
      refine ⟨connection, ledger.script, ?_, .silent follows rfl rfl rfl id, rfl⟩
      simp only [Connection.close, phase_eq]

theorem expire (follows : connection.Follows heard ledger peer) {now : Nat}
    {result : Except Failure Unit} {after : Connection}
    (done : connection.expire now = .ok (result, after)) :
    connection.Proceeds heard ledger peer after ledger := by
  rcases expire_cases done with ⟨-, rfl, -⟩ | ⟨-, rfl⟩ | ⟨segments, roundTrip, resent, -, rfl⟩
  · exact .silent follows rfl rfl rfl id
  · exact .abort follows
  · obtain ⟨sends, -, written_eq⟩ :=
      follows.sends.resend resent roundTrip (connection.outbox ++ segments.map (·.raw))
    have follows' : Connection.Follows
        { connection with
          flight := ⟨segments⟩
          roundTrip
          outbox := connection.outbox ++ segments.map (·.raw) } heard ledger peer :=
      { follows with sends }
    by_cases running : connection.phase = .terminated
    · rw [follows.sends.settled running] at resent
      obtain rfl := Except.ok.inj resent
      exact .silent follows' rfl rfl (List.append_nil _) id
    · obtain ⟨rest, script_eq, raws_eq⟩ := written_eq running
      have cause {raw : Bytes} (mem : raw ∈ segments.map (·.raw)) : ∃ front cargo back,
          ledger.script = front ++ cargo :: back ∧
          (cargo.flags.ack → ledger.received ≠ []) ∧
          raw = cargo.encode (connection.isn.advance (extent front)) connection.recvNext
            connection.config.receiveWindow := by
        rw [raws_eq] at mem
        obtain ⟨front, cargo, back, split, raw_eq⟩ := exists_of_mem_written mem
        rw [← script_eq] at split
        refine ⟨front, cargo, back, split, fun acks => ?_, raw_eq⟩
        exact follows.admits.received_ne_of_mem running (by simp [split]) acks
      refine ⟨follows', rfl, rfl, List.prefix_refl _, List.prefix_refl _, List.prefix_refl _,
        ⟨segments.map (·.raw), rfl, ?_, ?_, ?_⟩, fun last => Or.inl ⟨last, rfl⟩⟩
      · intro raw mem
        obtain ⟨front, cargo, back, split, received_ne, rfl⟩ := cause mem
        exact follows'.speaks_cargo split received_ne
      · intro front cargo back split
        exact Or.inl ⟨back, by simp [split]⟩
      · intro seq ack window mem
        obtain ⟨front, cargo, back, split, received_ne, raw_eq⟩ := cause mem
        obtain ⟨rfl, -, rfl⟩ := Cargo.encode_inj raw_eq
        exact follows.recvNext_eq (received_ne rfl)

end Follows

/-- A segment of the peer is one operation. -/
theorem Turn.proceeds {after : Connection} {ledger' : Ledger} {raw : Bytes}
    (turn : connection.Turn heard ledger peer raw after ledger') :
    connection.Proceeds heard ledger peer after ledger' := by
  obtain ⟨answers, outbox_eq, speaks, wrote⟩ := turn.answers
  refine ⟨turn.follows, turn.config_eq, turn.isn_eq, ?_, turn.acked, turn.received,
    ⟨answers, outbox_eq, speaks, ?_, ?_⟩, ?_⟩
  · rcases wrote with ⟨script_eq, -⟩ | ⟨script_eq, -, -⟩
    · rw [script_eq]
    · rw [script_eq]
      exact List.nil_prefix
  · intro front cargo back split
    rcases wrote with ⟨script_eq, -⟩ | ⟨-, script_eq, ack, rfl⟩
    · rw [script_eq] at split
      exact Or.inl ⟨back, by simp [split]⟩
    · rw [script_eq] at split
      cases front with
      | nil =>
          obtain ⟨rfl, -⟩ := List.cons.inj split
          exact Or.inr ⟨ack, by simp⟩
      | cons other front => simp at split
  · intro seq ack window mem
    rcases wrote with ⟨-, plain⟩ | ⟨-, -, ack', rfl⟩
    · obtain ⟨seq', ack', window', same⟩ := plain _ mem
      exact absurd same (Segment.fin_encode_ne_acknowledgment _ _ _ _ _ _)
    · have same := Cargo.encode_inj (List.mem_singleton.mp mem)
      cases same.1
  · intro last
    rcases wrote with ⟨script_eq, -⟩ | ⟨script_eq, -, -⟩
    · exact Or.inl ⟨turn.lastAck last, script_eq⟩
    · exact Or.inr (by simp [script_eq])

end Connection
end ReliableTransport
