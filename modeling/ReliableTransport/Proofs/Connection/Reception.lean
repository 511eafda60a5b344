import ReliableTransport.Proofs.Connection.Soundness

/-!
# What arrives from any peer

Any bytes can arrive at any time.  A connection stays sound whatever they are, and ends by them only
when both streams are complete.  The estimates of the round-trip time and a payload beyond 32 bits
are all that can stop it.
-/

namespace ReliableTransport

open Fault Script

namespace Connection

/-- What can stop a connection when some bytes arrive. -/
def Overwhelmed (size : Nat) (fault : Fault) : Prop :=
  fault = .duration ∨ fault = .count ∧ UInt32.size ≤ size

/-- A connection went on, and ended only if both streams are complete. -/
def Hears (before : Connection) (background : Background) (ledger : Ledger) (after : Connection) :
    Prop :=
  ∃ ledger' settled', after.Sound background ledger' settled' ∧ ledger.Grows ledger' [] ∧
    (after.phase = .terminated → before.phase = .terminated ∨ ledger'.Done settled')

variable {connection : Connection} {background : Background} {ledger : Ledger} {settled : Nat}

namespace Sound

theorem hears {after : Connection} {ledger' : Ledger} {settled' : Nat}
    (sound : after.Sound background ledger' settled') (script_eq : ledger'.script = ledger.script)
    (ended : after.phase = .terminated → connection.phase = .terminated) :
    connection.Hears background ledger after :=
  ⟨ledger', settled', sound, .of_eq script_eq, fun past => Or.inl (ended past)⟩

theorem deliver (sound : connection.Sound background ledger settled) (window : ReceiveWindow)
    (events : List AppEvent) (unfinished : .peerFinished ∉ events) :
    Sound { connection with window, events := connection.events ++ events } background ledger
      settled :=
  { sound with
    writes := { sound.writes with valid := sound.writes.valid }
    told := by
      rw [← List.append_assoc, List.count_append, List.count_eq_zero_of_not_mem unfinished]
      exact sound.told }

theorem takePayload (sound : connection.Sound background ledger settled) (seq : SeqNum)
    {payload : Bytes} (payload_ne : payload ≠ []) :
    Ensures (Overwhelmed payload.length)
      (fun (_, after) => after.Sound background ledger settled ∧ after.phase = connection.phase)
      (connection.takePayload seq payload) := by
  have received := (connection.window.receive_ensures seq payload_ne).mono
    (fun fault => (Or.inr : _ → Overwhelmed payload.length fault)) fun _ => id
  refine received.bind fun (arrival, window) _ => ?_
  have unchanged := sound.deliver window [] (by simp)
  rw [List.append_nil] at unchanged
  cases arrival with
  | stale => exact ⟨unchanged, rfl⟩
  | outOfWindow => exact ⟨unchanged, rfl⟩
  | accepted delivered =>
      refine ⟨sound.deliver window _ ?_, rfl⟩
      split
      · simp
      · simp

theorem takePeerFin (sound : connection.Sound background ledger settled)
    (synchronized : connection.phase.isSynchronized) :
    connection.Hears background ledger connection.takePeerFin := by
  have running := Phase.ne_terminated_of_synchronized synchronized
  have unchanged := sound.deliver connection.window.consumeFlag [] (by simp)
  rw [List.append_nil] at unchanged
  rw [Connection.takePeerFin]
  simp only
  split
  next phase moves =>
    have unfinished := sound.admits.fin_not_mem_of_afterPeerFin moves
    obtain ⟨phase', moves', admits⟩ := sound.admits.receiveFin synchronized unfinished
    obtain rfl := Option.some.inj (moves.symm.trans moves')
    have cleared : phase = .terminated → connection.flight.segments = [] := by
      rintro rfl
      obtain ⟨rest, script_eq, carries⟩ := sound.writes.carries running
      rw [carries.nil_iff]
      simpa [(sound.admits.acked_of_afterPeerFin moves).2] using script_eq
    refine ⟨{ ledger with received := ledger.received ++ [.fin] }, settled,
      ⟨sound.config_eq, sound.isn_eq, ?_, admits, sound.utters, ?_⟩, .of_eq rfl, ?_⟩
    · exact sound.writes.follow running cleared _ sound.writes.window_le _ _ _
    · rw [← List.append_assoc, List.count_append, sound.told]
      simp [unfinished]
    · rintro rfl
      obtain ⟨written, acked_eq⟩ := sound.admits.acked_of_afterPeerFin moves
      refine Or.inr ⟨written, by simp, ?_⟩
      have all := sound.writes.acked_eq_iff.mp acked_eq
      exact Nat.le_succ_of_le (Nat.le_of_eq all.symm)
  next => exact unchanged.hears rfl id

theorem takeContent (sound : connection.Sound background ledger settled)
    (synchronized : connection.phase.isSynchronized) (segment : Segment) :
    Ensures (Overwhelmed segment.payload.length) (connection.Hears background ledger)
      (connection.takeContent segment) := by
  have span_eq : ∃ length, ({} : Flags).span segment.payload.length = .ok length := by
    refine ⟨_, if_pos ?_⟩
    simp only [Bool.toNat_false, UInt32.size]
    omega
  obtain ⟨length, span_eq⟩ := span_eq
  -- what follows the payload, on a connection in the same phase
  have answer {middle : Connection} (sound : middle.Sound background ledger settled)
      (phase_eq : middle.phase = connection.phase) (inWindow hasPayload : Bool) :
      Ensures (Overwhelmed segment.payload.length) (connection.Hears background ledger) (do
        if !inWindow then
          return middle
        else if segment.header.flags.fin then
          let length ← ({} : Flags).span segment.payload.length
          let middle :=
            if segment.header.seq.advance length = middle.recvNext then middle.takePeerFin
            else middle
          return middle.sendAck
        else
          return if hasPayload then middle.sendAck else middle) := by
    have same : middle.phase = .terminated → connection.phase = .terminated := by
      rw [phase_eq]
      exact id
    rw [span_eq]
    split
    · exact sound.hears rfl same
    split
    · change connection.Hears background ledger
        (if segment.header.seq.advance length = middle.recvNext then middle.takePeerFin
          else middle).sendAck
      split
      · obtain ⟨ledger', settled', sound', grows, ended⟩ :=
          sound.takePeerFin (by rwa [phase_eq])
        exact ⟨ledger', settled', sound'.sendAck, grows, fun past => (ended past).imp_left same⟩
      · exact sound.sendAck.hears rfl same
    · cases hasPayload with
      | false => exact sound.hears rfl same
      | true => exact sound.sendAck.hears rfl same
  rw [Connection.takeContent]
  simp only
  split
  · next hasPayload =>
      refine (sound.takePayload segment.header.seq (by simpa using hasPayload)).bind ?_
      rintro ⟨inWindow, middle⟩ ⟨sound, phase_eq⟩
      exact answer sound phase_eq inWindow true
  · exact answer sound rfl true false

/-- What is acknowledged leaves the flight, and only the estimates can fail.  An acknowledgment of
everything moves a connection that waits for one. -/
theorem takeAck (sound : connection.Sound background ledger settled)
    (running : connection.phase ≠ .terminated) (ack : SeqNum) (advertised : UInt16) (now : Nat) :
    Ensures (· = .duration)
      (fun after => ∃ acked settled', after.Sound background { ledger with acked } settled' ∧
        (after.phase = connection.phase ∨
          after.phase = connection.phase.afterFinAcked ∧ .fin ∈ ledger.script ∧
            acked = ledger.script))
      (connection.takeAck ack advertised now) := by
  rcases sound.writes.takeAck running sound.admits.afterFinAcked_of_acked ack advertised now with
      ignored | ⟨gone, rest, acked, settled', -, later, taken, writes⟩
  · rw [ignored]
    exact ⟨ledger.acked, settled, sound, Or.inl rfl⟩
  · rw [taken]
    cases observed : (Flight.samples gone now).foldlM RoundTrip.observe connection.roundTrip with
    | error fault => exact RoundTrip.foldlM_observe_error observed
    | ok roundTrip =>
        have writes := writes roundTrip
        refine ⟨acked, settled', ⟨sound.config_eq, sound.isn_eq, writes, ?_, sound.utters,
          sound.told⟩, ?_⟩
        · exact sound.admits.acknowledge later writes.acked_isPrefix
        · simp only [acknowledged]
          split
          · next done => exact Or.inr ⟨rfl, done⟩
          · exact Or.inl rfl

/-- A segment on an agreed connection is an acknowledgment and content. -/
theorem takeSynchronized (sound : connection.Sound background ledger settled)
    (synchronized : connection.phase.isSynchronized) (segment : Segment) (now : Nat) :
    Ensures (Overwhelmed segment.payload.length) (connection.Hears background ledger)
      (connection.takeSynchronized segment now) := by
  have running := Phase.ne_terminated_of_synchronized synchronized
  rw [Connection.takeSynchronized]
  simp only
  split
  · split
    · exact sound.sendAck.hears rfl id
    · exact sound.hears rfl id
  split
  next acks =>
    simp only [acks, Bool.true_and]
    refine ((sound.takeAck running segment.header.ack segment.header.window now).mono
      (fun fault => (Or.inl : _ → Overwhelmed segment.payload.length fault))
      fun _ => id).bind ?_
    rintro middle ⟨acked, settled', sound', moved⟩
    by_cases past : middle.phase = .terminated
    · rw [if_pos (by simpa [isTerminated] using past)]
      refine ⟨_, settled', sound', .of_eq rfl, fun _ => Or.inr ?_⟩
      rcases moved with same | ⟨moved, written, acked_eq⟩
      · exact absurd (same ▸ past) running
      · have all := sound'.writes.acked_eq_iff.mp acked_eq
        exact ⟨written, sound.admits.fin_mem_of_afterFinAcked running (moved ▸ past),
          Nat.le_succ_of_le (Nat.le_of_eq all.symm)⟩
    · have agreed : middle.phase.isSynchronized := by
        rcases moved with same | ⟨moved, -, -⟩
        · rwa [same]
        · rw [moved] at past ⊢
          exact (Phase.afterFinAcked_synchronized synchronized).resolve_left past
      rw [if_neg (by simpa [isTerminated] using past)]
      refine (sound'.takeContent agreed segment).mono (fun _ => id) ?_
      rintro after ⟨ledger', settled'', sound'', grows, ended⟩
      exact ⟨ledger', settled'', sound'', ⟨grows.script, grows.content_eq⟩,
        fun gone => Or.inr ((ended gone).resolve_left past)⟩
  next silent =>
    simp only [silent, Bool.false_and, Bool.false_eq_true, if_false]
    exact sound.takeContent synchronized segment

theorem takeClosed (sound : connection.Sound background ledger settled)
    (closed : connection.phase = .closed) (segment : Segment) (now : Nat) :
    Ensures (Overwhelmed segment.payload.length) (connection.Hears background ledger)
      (connection.takeClosed segment now) := by
  have running : connection.phase ≠ .terminated := by simp [closed]
  have admits := sound.admits
  rw [closed] at admits
  obtain ⟨script_eq, received_eq⟩ := admits
  rw [Connection.takeClosed]
  simp only
  split
  · let granted : Connection :=
      { connection.takePeerSyn segment.header.seq with
        sendWindow := connection.granted segment.header.window }
    have writes : granted.Writes ledger.script ledger.acked settled :=
      sound.writes.follow running (fun past => absurd past running) connection.listening
        (Nat.min_le_right _ _) _ _ _
    have finSeq_eq : connection.finSeq =
        if .fin ∈ ledger.script ++ [.syn true] then
          some (connection.isn.advance (extent (ledger.script ++ [.syn true]) - 1)) else none := by
      rw [sound.writes.finSeq_eq]
      simp [script_eq]
    obtain ⟨flight, transmitted, writes'⟩ := writes.transmit running (.syn true)
      (by rw [script_eq]; exact .syn true)
      (by simp only [script_eq, reach, List.nil_append, extent_cons, extent_nil,
            Cargo.length_syn]; omega)
      (by simp) finSeq_eq (show Phase.synReceived ≠ .terminated by decide) now
    have transmitted : granted.transmit { syn := true, ack := true } [] now = .ok _ := transmitted
    have answering : Phase.synReceived.Admits
        ⟨ledger.script ++ [.syn true], ledger.acked, [.syn false]⟩ :=
      ⟨by rw [script_eq]; rfl, by simp, by simp⟩
    obtain ⟨ledger', settled', sound', grows⟩ :=
      sound.write writes' answering rfl rfl ⟨_, rfl⟩ rfl (by simp [received_eq])
    change Ensures _ _ (granted.transmit { syn := true, ack := true } [] now >>= _)
    rw [transmitted]
    exact ⟨ledger', settled', sound', grows, by simp⟩
  · exact sound.hears rfl id

theorem takeSynSent (sound : connection.Sound background ledger settled)
    (waiting : connection.phase = .synSent) (segment : Segment) (now : Nat) :
    Ensures (Overwhelmed segment.payload.length) (connection.Hears background ledger)
      (connection.takeSynSent segment now) := by
  have running : connection.phase ≠ .terminated := by simp [waiting]
  have admits := sound.admits
  rw [waiting] at admits
  obtain ⟨script_eq, received_eq⟩ := admits
  rw [Connection.takeSynSent]
  simp only
  split
  · have opened : (connection.takePeerSyn segment.header.seq).Sound background ledger settled :=
      { sound with writes := { sound.writes with valid := sound.writes.valid } }
    refine ((opened.takeAck running segment.header.ack segment.header.window now).mono
      (fun fault => (Or.inl : _ → Overwhelmed segment.payload.length fault))
      fun _ => id).bind ?_
    rintro middle ⟨acked, settled', sound', moved⟩
    have middle_running : middle.phase ≠ .terminated := by
      rcases moved with same | ⟨-, written, -⟩
      · rw [same]
        exact running
      · simp [script_eq] at written
    let ledger' : Ledger := { ledger with acked, received := [.syn true] }
    have established : { middle with phase := .established }.Sound background ledger' settled' := by
      refine ⟨sound'.config_eq, sound'.isn_eq, ?_, ?_, sound'.utters, ?_⟩
      · exact sound'.writes.follow middle_running (by simp) _ sound'.writes.window_le _ _ _
      · exact ⟨by simp [ledger', script_eq], by simp [ledger', script_eq], by simp [ledger'],
          by simp [ledger']⟩
      · simpa [ledger', received_eq] using sound'.told
    exact established.sendAck.hears rfl (by simp [Connection.sendAck])
  · exact sound.hears rfl id

theorem takeSynReceived (sound : connection.Sound background ledger settled)
    (waiting : connection.phase = .synReceived) (segment : Segment) (now : Nat) :
    Ensures (Overwhelmed segment.payload.length) (connection.Hears background ledger)
      (connection.takeSynReceived segment now) := by
  have admits := sound.admits
  rw [waiting] at admits
  obtain ⟨script_eq, received_ne, unfinished⟩ := admits
  rw [Connection.takeSynReceived]
  split
  · have established :
        { connection with phase := .established }.Sound background ledger settled :=
      { sound with
        writes := sound.writes.follow (by simp [waiting]) (by simp) _ sound.writes.window_le _ _ _
        admits := ⟨by simp [script_eq], by simp [script_eq], received_ne, unfinished⟩ }
    refine (established.takeSynchronized rfl segment now).mono (fun _ => id) ?_
    rintro after ⟨ledger', settled', sound', grows, ended⟩
    exact ⟨ledger', settled', sound', grows, fun past => Or.inr ((ended past).resolve_left (by simp))⟩
  · exact sound.hears rfl id

/-- Whatever bytes arrive, the connection stays sound, and only an overwhelming size or length of
time can stop it. -/
theorem receive (sound : connection.Sound background ledger settled) (raw : Bytes) (now : Nat) :
    Ensures (Overwhelmed raw.length) (connection.Hears background ledger)
      (connection.receive raw now) := by
  rw [Connection.receive]
  cases decoded : Segment.decode raw with
  | error failure => exact sound.hears rfl id
  | ok segment =>
      have payload_le := Segment.length_payload_le decoded
      have taken : Ensures (Overwhelmed segment.payload.length) (connection.Hears background ledger)
          (connection.takeSegment segment now) := by
        rw [takeSegment]
        split
        · next closed => exact sound.takeClosed closed segment now
        · next waiting => exact sound.takeSynSent waiting segment now
        · next waiting => exact sound.takeSynReceived waiting segment now
        · next phase_eq => exact sound.takeSynchronized (by rw [phase_eq]; rfl) segment now
        · next phase_eq => exact sound.takeSynchronized (by rw [phase_eq]; rfl) segment now
        · next phase_eq => exact sound.takeSynchronized (by rw [phase_eq]; rfl) segment now
        · next phase_eq => exact sound.takeSynchronized (by rw [phase_eq]; rfl) segment now
        · next phase_eq => exact sound.takeSynchronized (by rw [phase_eq]; rfl) segment now
        · next phase_eq => exact sound.takeSynchronized (by rw [phase_eq]; rfl) segment now
        · exact sound.hears rfl id
      refine taken.mono (fun fault => Or.imp_right (And.imp_right ?_)) fun _ => id
      exact fun large => Nat.le_trans large payload_le

end Sound
end Connection
end ReliableTransport
