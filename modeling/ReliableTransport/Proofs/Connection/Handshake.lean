import ReliableTransport.Proofs.Connection.Turn

/-!
# The handshake and all that follows

The SYN of the peer starts its stream for an end that waits for it.  Whatever its phase, a
connection takes what its peer says.
-/

namespace ReliableTransport

open Script

theorem Party.Speaks.opens {party : Party} {origin : SeqNum} {raw : Bytes} {segment : Segment}
    (speaks : party.Speaks origin raw) (valid : Valid party.ledger.script)
    (decoded : Segment.decode raw = .ok segment) (opening : segment.header.flags.syn = true) :
    ∃ answers, [.syn answers] <+: party.ledger.script ∧
      segment.header.flags = (Cargo.syn answers).flags ∧ segment.header.seq = party.isn ∧
      segment.header.window = party.window ∧
      (answers = true → ∃ known, party.Acknowledges origin segment.header.ack known) := by
  cases speaks with
  | @cargo front back cargo ack split honest =>
      rw [Cargo.decode_encode] at decoded
      obtain rfl := Except.ok.inj decoded
      cases cargo with
      | syn answers =>
          obtain rfl : front = [] := by
            rw [split] at valid
            exact valid.nil_of_append_syn
          exact ⟨answers, ⟨back, split.symm⟩, rfl, SeqNum.advance_zero party.isn, rfl, honest⟩
      | data chunk => cases opening
      | fin => cases opening
  | acknowledgment seq honest =>
      rw [Segment.decode_acknowledgment] at decoded
      obtain rfl := Except.ok.inj decoded
      cases opening

namespace Connection

theorem receives_takePeerSyn (connection : Connection) (isn : SeqNum) {answers : Bool}
    {script : List Cargo} (isFront : [.syn answers] <+: script) :
    (connection.takePeerSyn isn).window.Receives isn script [.syn answers] := by
  have start : (connection.window.synchronize isn).next = isn.advance (extent []) :=
    (SeqNum.advance_zero isn).symm
  exact ReceiveWindow.Receives.consumeFlag start (Cargo.length_syn answers) isFront

theorem capacity_takePeerSyn (connection : Connection) (isn : SeqNum) :
    (connection.takePeerSyn isn).window.capacity = connection.window.capacity := by
  simp [takePeerSyn]

namespace Follows

variable {connection : Connection} {heard : List AppEvent} {ledger : Ledger} {peer : Party}
  {raw : Bytes} {segment : Segment}

theorem begin (follows : connection.Follows heard ledger peer) (received_eq : ledger.received = [])
    {answers : Bool} (isFront : [.syn answers] <+: peer.ledger.script) {after : Connection}
    {script acked : List Cargo} (sends : after.Sends peer.window.toNat script acked)
    (admits : after.phase.Admits ⟨script, acked, [.syn answers]⟩)
    (acked_isPrefix : acked <+: peer.ledger.received)
    (window_eq : after.window = (connection.takePeerSyn peer.isn).window)
    (config_eq : after.config = connection.config) (events_eq : after.events = connection.events) :
    after.Follows heard ⟨script, acked, [.syn answers]⟩ peer where
  sends := sends
  admits := admits
  capacity_eq := by
    rw [window_eq, config_eq, connection.capacity_takePeerSyn, follows.capacity_eq]
  acked_isPrefix := acked_isPrefix
  received_isPrefix := isFront
  receives _ := by
    rw [window_eq]
    exact connection.receives_takePeerSyn peer.isn isFront
  reports := by
    have told := follows.reports
    rw [received_eq] at told
    rw [events_eq]
    exact told.begin answers

theorem takeClosed (follows : connection.Follows heard ledger peer)
    (fits : connection.Fits ledger peer) (closed : connection.phase = .closed)
    (speaks : peer.Speaks connection.isn raw) (decoded : Segment.decode raw = .ok segment)
    (now : Nat) :
    connection.Takeable heard ledger peer raw (connection.takeClosed segment now) := by
  have admits := follows.admits
  rw [closed] at admits
  obtain ⟨script_eq, received_eq⟩ := admits
  rw [Connection.takeClosed]
  by_cases asked : (connection.listening && segment.header.flags = { syn := true }) = true
  · rw [if_pos asked]
    have flags_eq : segment.header.flags = { syn := true } := by
      simpa using (Bool.and_eq_true_iff.mp asked).2
    obtain ⟨answers, isFront, flags_eq', seq_eq, window_eq, -⟩ :=
      speaks.opens fits.valid decoded (by rw [flags_eq])
    obtain rfl : answers = false := by
      rw [flags_eq] at flags_eq'
      simpa [Cargo.flags] using flags_eq'.symm
    let opened : Connection :=
      { connection.takePeerSyn peer.isn with sendWindow := connection.granted peer.window }
    let answer := (Cargo.syn true).encode connection.sendNext opened.recvNext
      connection.config.receiveWindow
    let ledger' : Ledger := { ledger with script := [.syn true], received := [.syn false] }
    have isn_eq : connection.sendNext = connection.isn := by
      rw [follows.sends.next_eq, script_eq, extent_nil, SeqNum.advance_zero]
    have sends : opened.Sends peer.window.toNat ledger.script ledger.acked :=
      { follows.sends with window_le := Nat.min_le_left _ _ }
    have valid : Valid (ledger.script ++ [.syn true]) := by
      rw [script_eq]
      exact .syn true
    have finSeq_eq : connection.finSeq =
        if .fin ∈ ledger.script ++ [.syn true] then
          some (connection.isn.advance (extent (ledger.script ++ [.syn true]) - 1)) else none := by
      rw [follows.sends.finSeq_eq]
      simp [script_eq]
    obtain ⟨flight, transmitted, sends'⟩ := sends.transmit (by simp [opened, takePeerSyn, closed])
      valid (Or.inr rfl) (by decide) finSeq_eq (show Phase.synReceived ≠ .terminated by decide) now
    let after : Connection :=
      { opened with
        flight
        phase := .synReceived
        sendNext := connection.sendNext.advance 1
        outbox := connection.outbox ++ [answer] }
    have taken : opened.transmit { syn := true, ack := true } [] now =
        .ok { after with phase := opened.phase } := transmitted
    have follows' : after.Follows heard ledger' peer := by
      rw [script_eq] at sends'
      exact follows.begin received_eq isFront sends' ⟨rfl, by simp, by simp⟩ follows.acked_isPrefix
        rfl rfl rfl
    have speaks : (after.party ledger').Speaks peer.isn answer := by
      have split : ledger'.script = [] ++ .syn true :: [] := rfl
      have said := follows'.speaks_cargo split fun _ => by simp [ledger']
      rw [extent_nil, SeqNum.advance_zero] at said
      simp only [answer, isn_eq]
      exact said
    rw [seq_eq, window_eq]
    refine Or.inr ⟨after, ledger', ?_, follows', rfl, rfl, List.prefix_refl _, ?_,
      ⟨[answer], rfl, by simpa using speaks, Or.inr ⟨script_eq, rfl, opened.recvNext, ?_⟩⟩, ?_,
      by simp [after], by simp [after]⟩
    · change (opened.transmit { syn := true, ack := true } [] now).bind _ = _
      rw [taken]
      rfl
    · rw [received_eq]
      exact List.nil_prefix
    · rw [← isn_eq]
    · intro finished
      simp [ledger'] at finished
  · rw [if_neg asked]
    exact Or.inr ⟨connection, ledger, rfl, .ignored follows raw⟩

theorem takeSynSent (follows : connection.Follows heard ledger peer)
    (fits : connection.Fits ledger peer) (asking : connection.phase = .synSent)
    (received_isPrefix : peer.ledger.received <+: ledger.script)
    (speaks : peer.Speaks connection.isn raw) (decoded : Segment.decode raw = .ok segment)
    (now : Nat) :
    connection.Takeable heard ledger peer raw (connection.takeSynSent segment now) := by
  have admits := follows.admits
  rw [asking] at admits
  obtain ⟨script_eq, received_eq⟩ := admits
  rw [Connection.takeSynSent]
  by_cases answered : (segment.header.flags.syn && segment.header.flags.ack &&
      segment.header.ack = connection.isn.advance 1) = true
  · rw [if_pos answered]
    simp only [Bool.and_eq_true, decide_eq_true_eq] at answered
    obtain ⟨⟨opening, acks⟩, -⟩ := answered
    obtain ⟨answers, isFront, flags_eq, seq_eq, window_eq, honest⟩ :=
      speaks.opens fits.valid decoded opening
    obtain rfl : answers = true := by
      rw [flags_eq] at acks
      exact acks
    obtain ⟨known, known_ne, known_isPrefix, ack_eq⟩ := honest rfl
    have known_eq : known = [.syn false] := by
      have isFront := known_isPrefix.trans received_isPrefix
      rw [script_eq] at isFront
      exact isFront.eq_of_length_le (List.length_pos_iff.mpr known_ne)
    subst known_eq
    let opened := connection.takePeerSyn peer.isn
    have running : opened.phase ≠ .terminated := by
      simp [opened, takePeerSyn, asking]
    have sends : opened.Sends peer.window.toNat ledger.script ledger.acked :=
      follows.sends.follow (by simp [asking]) (fun ended => by simp [asking] at ended)
        opened.window connection.outbox connection.events
    have near : extent ledger.script < 2147483648 := by
      rw [script_eq]
      decide
    obtain ⟨settled, rest, acked, -, acked_eq, later, covers, taken, sends'⟩ :=
      sends.takeAck near running
        (fun _ => by simp [opened, takePeerSyn, asking, Phase.afterFinAcked])
        (known_isPrefix.trans received_isPrefix) (Nat.le_refl peer.window.toNat) now
    rw [seq_eq, window_eq, ack_eq]
    change connection.Takeable heard ledger peer raw
      ((opened.takeAck (opened.isn.advance (extent [.syn false])) peer.window now).bind
        fun middle => .ok { middle with phase := .established }.sendAck)
    rw [taken]
    cases estimated : (Flight.samples settled now).foldlM RoundTrip.observe opened.roundTrip with
    | error fault =>
        rw [RoundTrip.foldlM_observe_error estimated]
        exact Or.inl rfl
    | ok roundTrip =>
        let middle :=
          opened.acknowledged (opened.granted peer.window) rest roundTrip ledger.script acked
        let established : Connection := { middle with phase := .established }
        let ledger' : Ledger := { ledger with acked, received := [.syn true] }
        have middle_running : middle.phase ≠ .terminated := by
          simp [middle, acknowledged, script_eq, running]
        have acked_isPrefix : acked <+: peer.ledger.received := by
          rcases acked_eq with rfl | rfl
          · exact follows.acked_isPrefix
          · exact known_isPrefix
        have follows' : established.Follows heard ledger' peer :=
          follows.begin received_eq isFront
            ((sends' roundTrip).follow middle_running (fun ended => by cases ended) middle.window
              middle.outbox middle.events)
            ⟨by simp [script_eq], by simp [script_eq], by simp, by simp⟩ acked_isPrefix rfl rfl rfl
        have turn := Turn.sendAck follows' (by simp [ledger']) (by simp [established]) raw
        have phase_eq : established.sendAck.phase = .established := rfl
        refine Or.inr ⟨established.sendAck, ledger', rfl, turn.follows, rfl, rfl, later, ?_,
          turn.answers, ?_, by simp [phase_eq], by simp [phase_eq]⟩
        · rw [received_eq]
          exact List.nil_prefix
        · intro finished
          simp [ledger'] at finished
  · rw [if_neg answered]
    exact Or.inr ⟨connection, ledger, rfl, .ignored follows raw⟩

/-- The handshake is completed by an acknowledgment of the own SYN. -/
theorem takeSynReceived (follows : connection.Follows heard ledger peer)
    (fits : connection.Fits ledger peer) (near : extent ledger.script < 2147483648)
    (answered : connection.phase = .synReceived)
    (received_isPrefix : peer.ledger.received <+: ledger.script)
    (speaks : peer.Speaks connection.isn raw) (decoded : Segment.decode raw = .ok segment)
    (now : Nat) :
    connection.Takeable heard ledger peer raw (connection.takeSynReceived segment now) := by
  have admits := follows.admits
  rw [answered] at admits
  obtain ⟨script_eq, received_ne, unfinished⟩ := admits
  rw [Connection.takeSynReceived]
  split
  · have sends : Sends { connection with phase := .established } peer.window.toNat ledger.script
        ledger.acked :=
      follows.sends.follow (by simp [answered]) (fun ended => by cases ended) connection.window _ _
    have established : Connection.Follows { connection with phase := .established } heard ledger
        peer :=
      { follows with
        sends
        admits := ⟨by simp [script_eq], by simp [script_eq], received_ne, unfinished⟩ }
    obtain failed | ⟨after, ledger', taken, turn⟩ :=
      established.takeSynchronized ⟨fits.valid, fits.near, fits.within⟩ near rfl received_isPrefix
        speaks decoded now
    · exact Or.inl failed
    · exact Or.inr ⟨after, ledger', taken, turn.of_established⟩
  · exact Or.inr ⟨connection, ledger, rfl, .ignored follows raw⟩

/-- A connection takes what the peer says. -/
theorem receive (follows : connection.Follows heard ledger peer)
    (fits : connection.Fits ledger peer) (near : extent ledger.script < 2147483648)
    (received_isPrefix : peer.ledger.received <+: ledger.script)
    (speaks : peer.Speaks connection.isn raw) (now : Nat) :
    connection.Takeable heard ledger peer raw (connection.receive raw now) := by
  rw [Connection.receive]
  cases decoded : Segment.decode raw with
  | error failure => exact Or.inr ⟨connection, ledger, rfl, .ignored follows raw⟩
  | ok segment =>
      simp only [takeSegment]
      cases phase_eq : connection.phase with
      | closed => exact follows.takeClosed fits phase_eq speaks decoded now
      | synSent => exact follows.takeSynSent fits phase_eq received_isPrefix speaks decoded now
      | synReceived =>
          exact follows.takeSynReceived fits near phase_eq received_isPrefix speaks decoded now
      | established | finWait1 | finWait2 | closeWait | lastAck | closing =>
          exact follows.takeSynchronized fits near (by rw [phase_eq]; rfl) received_isPrefix speaks
            decoded now
      | terminated => exact Or.inr ⟨connection, ledger, rfl, .ignored follows raw⟩

end Follows
end Connection
end ReliableTransport
