import ReliableTransport.Proofs.Connection.Receiving

/-!
# One segment of the peer

A connection that takes a segment of its peer goes on to follow the peer, or its estimates of the
round-trip time fail.  What it answers is its own to say, and only a FIN of the peer or an
acknowledgment of the own FIN moves its phase.
-/

namespace ReliableTransport

open Script

namespace Connection

/-- A connection as a party. -/
def party (connection : Connection) (ledger : Ledger) : Party where
  isn := connection.isn
  window := connection.config.receiveWindow
  ledger := ledger

/-- An acknowledgment of a front of the script was taken. -/
structure Settles (before : Connection) (heard : List AppEvent) (ledger : Ledger) (peer : Party)
    (known : List Cargo) (after : Connection) (acked : List Cargo) : Prop where
  /-- The connection follows the peer. -/
  follows : after.Follows heard { ledger with acked } peer
  /-- The acknowledgment is news or not. -/
  acked_eq : acked = ledger.acked ∨ acked = known
  /-- What was acknowledged stays so. -/
  later : ledger.acked <+: acked
  /-- The front is acknowledged. -/
  covers : known <+: acked
  /-- Only the sending side and the phase change. -/
  frame : ∃ sendWindow rest roundTrip,
    after = before.acknowledged sendWindow rest roundTrip ledger.script acked

namespace Settles

variable {before after : Connection} {heard : List AppEvent} {ledger : Ledger} {peer : Party}
  {known acked : List Cargo}

theorem fits (settles : before.Settles heard ledger peer known after acked)
    (fits : before.Fits ledger peer) : after.Fits { ledger with acked } peer := by
  obtain ⟨sendWindow, rest, roundTrip, rfl⟩ := settles.frame
  exact ⟨fits.valid, fits.near, fits.within⟩

/-- An acknowledgment ends a connection or keeps it synchronized. -/
theorem synchronized (settles : before.Settles heard ledger peer known after acked)
    (synchronized : before.phase.isSynchronized) :
    after.phase = .terminated ∨ after.phase.isSynchronized := by
  obtain ⟨sendWindow, rest, roundTrip, rfl⟩ := settles.frame
  simp only [acknowledged]
  split
  · exact Phase.afterFinAcked_synchronized synchronized
  · exact Or.inr synchronized

end Settles

namespace Follows

variable {connection : Connection} {heard : List AppEvent} {ledger : Ledger} {peer : Party}
  {front back : List Cargo}

theorem recvNext_eq (follows : connection.Follows heard ledger peer)
    (received_ne : ledger.received ≠ []) :
    connection.recvNext = peer.isn.advance (extent ledger.received) :=
  (follows.receives received_ne).next_eq

theorem speaks_cargo (follows : connection.Follows heard ledger peer) {cargo : Cargo}
    (split : ledger.script = front ++ cargo :: back)
    (received_ne : cargo.flags.ack → ledger.received ≠ []) :
    (connection.party ledger).Speaks peer.isn
      (cargo.encode (connection.isn.advance (extent front)) connection.recvNext
        connection.config.receiveWindow) := by
  have said : (connection.party ledger).Speaks peer.isn _ :=
    .cargo split fun acks =>
      ⟨ledger.received, received_ne acks, List.prefix_refl _,
        follows.recvNext_eq (received_ne acks)⟩
  exact said

theorem speaks_acknowledgment (follows : connection.Follows heard ledger peer)
    (received_ne : ledger.received ≠ []) :
    (connection.party ledger).Speaks peer.isn connection.acknowledgment :=
  .acknowledgment connection.sendNext
    ⟨received_ne, List.prefix_refl ledger.received, follows.recvNext_eq received_ne⟩

/-- An acknowledgment of the peer settles a front, and fails only in the estimates. -/
theorem takeAck (follows : connection.Follows heard ledger peer)
    (near : extent ledger.script < 2147483648) (running : connection.phase ≠ .terminated)
    (received_isPrefix : peer.ledger.received <+: ledger.script) {ack : SeqNum}
    {known : List Cargo} (honest : peer.Acknowledges connection.isn ack known) (now : Nat) :
    ∃ settled rest acked, connection.flight.segments = settled ++ rest ∧
      connection.takeAck ack peer.window now =
        ((Flight.samples settled now).foldlM RoundTrip.observe connection.roundTrip).map
          (connection.acknowledged (connection.granted peer.window) rest · ledger.script acked) ∧
      ∀ roundTrip,
        connection.Settles heard ledger peer known
          (connection.acknowledged (connection.granted peer.window) rest roundTrip ledger.script
            acked) acked := by
  obtain ⟨-, isFront, rfl⟩ := honest
  obtain ⟨settled, rest, acked, segments_eq, acked_eq, later, covers, taken, sends⟩ :=
    follows.sends.takeAck near running follows.admits.afterFinAcked_of_acked
      (isFront.trans received_isPrefix) (Nat.le_refl peer.window.toNat) now
  refine ⟨settled, rest, acked, segments_eq, taken, fun roundTrip => ?_⟩
  refine ⟨⟨sends roundTrip, ?_, follows.capacity_eq, ?_, follows.received_isPrefix,
    follows.receives, follows.reports⟩, acked_eq, later, covers, _, rest, roundTrip, rfl⟩
  · exact follows.admits.acknowledge later (sends roundTrip).acked_isPrefix
  · rcases acked_eq with rfl | rfl
    · exact follows.acked_isPrefix
    · exact isFront

theorem takeSynchronized_syn (follows : connection.Follows heard ledger peer)
    (fits : connection.Fits ledger peer) (synchronized : connection.phase.isSynchronized)
    {answers : Bool} (split : peer.ledger.script = front ++ .syn answers :: back) (ack : SeqNum)
    (now : Nat) :
    front = [] ∧ ledger.received ≠ [] ∧
      connection.takeSynchronized
          ((Cargo.syn answers).segment (peer.isn.advance (extent front)) ack peer.window) now =
        .ok connection.sendAck := by
  have valid := fits.valid
  obtain rfl : front = [] := by
    rw [split] at valid
    exact valid.nil_of_append_syn
  have received_ne := follows.admits.received_ne synchronized
  have received_pos := valid.extent_pos follows.received_isPrefix received_ne
  have received_le := extent_le_of_isPrefix follows.received_isPrefix
  have near := fits.near
  have seen : ((peer.isn.advance (extent [])).advance 1).AtOrBefore connection.recvNext := by
    rw [recvNext, (follows.receives received_ne).next_eq, SeqNum.advance_advance,
      SeqNum.atOrBefore_advance_iff _ (by rw [extent_nil]; omega) (by rw [extent_nil]; omega)]
    rw [extent_nil]
    omega
  refine ⟨rfl, received_ne, ?_⟩
  rw [takeSynchronized]
  simp only [Cargo.segment, Cargo.flags, if_true]
  exact congrArg Except.ok (if_pos seen)

theorem takeSynchronized_of_ack {segment : Segment} (plain : segment.header.flags.syn = false)
    (acks : segment.header.flags.ack = true) (now : Nat) :
    connection.takeSynchronized segment now =
      (connection.takeAck segment.header.ack segment.header.window now).bind fun middle =>
        if middle.isTerminated then .ok middle else middle.takeContent segment := by
  rw [takeSynchronized, plain, acks]
  rfl

theorem takeSynchronized_acknowledgment (seq ack : SeqNum) (window : UInt16) (headerLength : Nat)
    (now : Nat) :
    connection.takeSynchronized
        { header := { flags := { ack := true }, seq, ack, window }, headerLength, payload := [] }
        now =
      connection.takeAck ack window now := by
  rw [takeSynchronized_of_ack rfl rfl]
  cases connection.takeAck ack window now with
  | error fault => rfl
  | ok middle => exact ite_self (Except.ok middle)

/-- An entry of the script is taken behind its acknowledgment, which may end the connection. -/
theorem takeSynchronized_cargo (follows : connection.Follows heard ledger peer)
    (fits : connection.Fits ledger peer) (near : extent ledger.script < 2147483648)
    (synchronized : connection.phase.isSynchronized)
    (received_isPrefix : peer.ledger.received <+: ledger.script) {cargo : Cargo}
    (split : peer.ledger.script = front ++ cargo :: back)
    (plain : ∀ answers, cargo ≠ .syn answers) {ack : SeqNum} {known : List Cargo}
    (honest : peer.Acknowledges connection.isn ack known) (now : Nat) :
    connection.takeSynchronized
        (cargo.segment (peer.isn.advance (extent front)) ack peer.window) now =
      .error .duration ∨
    ∃ middle acked, connection.Settles heard ledger peer known middle acked ∧
      (middle.phase = .terminated ∧
          connection.takeSynchronized
              (cargo.segment (peer.isn.advance (extent front)) ack peer.window) now =
            .ok middle ∨
        middle.phase.isSynchronized ∧ ∃ after received,
          connection.takeSynchronized
              (cargo.segment (peer.isn.advance (extent front)) ack peer.window) now =
            .ok after ∧
          middle.Takes heard { ledger with acked } peer front cargo after received) := by
  have running := Phase.ne_terminated_of_synchronized synchronized
  obtain ⟨settled, rest, acked, -, taken, settles⟩ :=
    follows.takeAck near running received_isPrefix honest now
  have plain_flags : cargo.flags.syn = false ∧ cargo.flags.ack = true := by
    cases cargo with
    | syn answers => exact absurd rfl (plain answers)
    | data chunk => exact ⟨rfl, rfl⟩
    | fin => exact ⟨rfl, rfl⟩
  rw [takeSynchronized_of_ack plain_flags.1 plain_flags.2]
  simp only [Cargo.segment] at taken ⊢
  rw [taken]
  cases estimated : (Flight.samples settled now).foldlM RoundTrip.observe connection.roundTrip with
  | error fault =>
      rw [RoundTrip.foldlM_observe_error estimated]
      exact Or.inl rfl
  | ok roundTrip =>
      right
      simp only [Except.map, Except.bind]
      have settles := settles roundTrip
      refine ⟨_, acked, settles, ?_⟩
      generalize connection.acknowledged (connection.granted peer.window) rest roundTrip
        ledger.script acked = middle at settles ⊢
      rcases settles.synchronized synchronized with ended | agreed
      · left
        refine ⟨ended, if_pos ?_⟩
        simpa [isTerminated] using ended
      · right
        refine ⟨agreed, ?_⟩
        have running := Phase.ne_terminated_of_synchronized agreed
        rw [if_neg (by simpa [isTerminated] using running)]
        cases cargo with
        | syn answers => exact absurd rfl (plain answers)
        | data chunk =>
            exact settles.follows.takeContent_data (settles.fits fits) running
              (settles.follows.admits.received_ne agreed) split ack peer.window
        | fin =>
            exact settles.follows.takeContent_fin (settles.fits fits) agreed split ack peer.window

end Follows

/-- What a segment of the peer does to a connection. -/
structure Turn (before : Connection) (heard : List AppEvent) (ledger : Ledger) (peer : Party)
    (raw : Bytes) (after : Connection) (ledger' : Ledger) : Prop where
  /-- The connection follows the peer. -/
  follows : after.Follows heard ledger' peer
  /-- The parameters stay. -/
  config_eq : after.config = before.config
  /-- The initial sequence number stays. -/
  isn_eq : after.isn = before.isn
  /-- Acknowledgments stay. -/
  acked : ledger.acked <+: ledger'.acked
  /-- What was received stays. -/
  received : ledger.received <+: ledger'.received
  /-- Answers are the own to say.  All of them are acknowledgments except for the first SYN. -/
  answers : ∃ answers, after.outbox = before.outbox ++ answers ∧
    (∀ answer ∈ answers, (after.party ledger').Speaks peer.isn answer) ∧
    (ledger'.script = ledger.script ∧
        (∀ answer ∈ answers, ∃ seq ack window, answer = Segment.acknowledgment seq ack window) ∨
      ledger.script = [] ∧ ledger'.script = [.syn true] ∧
        ∃ ack, answers = [(Cargo.syn true).encode before.isn ack before.config.receiveWindow])
  /-- The stream is completed by a FIN whose acknowledgment number was taken. -/
  fin_cause : .fin ∈ ledger'.received → .fin ∈ ledger.received ∨
    ∃ seq ack known, raw = Cargo.fin.encode seq ack peer.window ∧
      peer.Acknowledges before.isn ack known ∧ known <+: ledger'.acked
  /-- The connection ends when both streams are complete. -/
  ended : after.phase = .terminated → before.phase = .terminated ∨
    .fin ∈ ledger'.script ∧ ledger'.acked = ledger'.script ∧ .fin ∈ ledger'.received
  /-- The wait for the last acknowledgment is not entered. -/
  lastAck : after.phase = .lastAck → before.phase = .lastAck

namespace Turn

variable {before middle after : Connection} {heard : List AppEvent} {ledger : Ledger}
  {peer : Party} {raw : Bytes} {front : List Cargo} {cargo : Cargo} {known received : List Cargo}

theorem ignored (follows : before.Follows heard ledger peer) (raw : Bytes) :
    before.Turn heard ledger peer raw before ledger where
  follows := follows
  config_eq := rfl
  isn_eq := rfl
  acked := List.prefix_refl ledger.acked
  received := List.prefix_refl ledger.received
  answers := ⟨[], by simp, by simp, Or.inl ⟨rfl, by simp⟩⟩
  fin_cause := Or.inl
  ended := Or.inl
  lastAck := id

/-- A repeated acknowledgment. -/
theorem sendAck (follows : before.Follows heard ledger peer)
    (received_ne : ledger.received ≠ []) (running : before.phase ≠ .terminated) (raw : Bytes) :
    before.Turn heard ledger peer raw before.sendAck ledger where
  follows := follows.sendAck running
  config_eq := rfl
  isn_eq := rfl
  acked := List.prefix_refl ledger.acked
  received := List.prefix_refl ledger.received
  answers := by
    refine ⟨[before.acknowledgment], rfl, ?_, Or.inl ⟨rfl, ?_⟩⟩
    · intro answer mem
      obtain rfl := List.mem_singleton.mp mem
      exact follows.speaks_acknowledgment received_ne
    · intro answer mem
      obtain rfl := List.mem_singleton.mp mem
      exact ⟨_, _, _, rfl⟩
  fin_cause := Or.inl
  ended := Or.inl
  lastAck := id

theorem of_settles {acked : List Cargo} (admits : before.phase.Admits ledger)
    (running : before.phase ≠ .terminated)
    (settles : before.Settles heard ledger peer known after acked) (raw : Bytes) :
    before.Turn heard ledger peer raw after { ledger with acked } := by
  obtain ⟨sendWindow, rest, roundTrip, rfl⟩ := settles.frame
  refine ⟨settles.follows, rfl, rfl, settles.later, List.prefix_refl ledger.received,
    ⟨[], by simp [acknowledged], by simp, Or.inl ⟨rfl, by simp⟩⟩, Or.inl, ?_, ?_⟩
  · intro ended
    rw [acknowledged] at ended
    simp only at ended
    split at ended
    · next done =>
        exact Or.inr ⟨done.1, done.2, admits.fin_mem_of_afterFinAcked running ended⟩
    · exact absurd ended running
  · intro last
    rw [acknowledged] at last
    simp only at last
    split at last
    · exact Phase.eq_lastAck_of_afterFinAcked last
    · exact last

theorem of_takes {acked : List Cargo} {seq ack : SeqNum} (admits : before.phase.Admits ledger)
    (running : before.phase ≠ .terminated)
    (settles : before.Settles heard ledger peer known middle acked)
    (synchronized : middle.phase.isSynchronized)
    (takes : middle.Takes heard { ledger with acked } peer front cargo after received)
    (honest : peer.Acknowledges before.isn ack known) :
    before.Turn heard ledger peer (cargo.encode seq ack peer.window) after
      { ledger with acked, received } := by
  have first := of_settles admits running settles (cargo.encode seq ack peer.window)
  have received_ne : received ≠ [] := by
    rintro rfl
    exact settles.follows.admits.received_ne synchronized (List.prefix_nil.mp takes.later)
  obtain ⟨window, phase, events, after_eq, moved⟩ := takes.frame
  have phase_eq : after.phase = phase := by rw [after_eq]
  have config_eq : after.config = middle.config := by rw [after_eq]
  have isn_eq : after.isn = middle.isn := by rw [after_eq]
  have outbox_eq : after.outbox = middle.outbox ++ [after.acknowledgment] :=
    congrArg Connection.outbox after_eq
  refine ⟨takes.follows, config_eq.trans first.config_eq, isn_eq.trans first.isn_eq,
    settles.later, takes.later, ⟨[after.acknowledgment], ?_, ?_, Or.inl ⟨rfl, ?_⟩⟩, ?_, ?_, ?_⟩
  · rw [outbox_eq]
    obtain ⟨sendWindow, rest, roundTrip, rfl⟩ := settles.frame
    rfl
  · intro answer mem
    obtain rfl := List.mem_singleton.mp mem
    exact takes.follows.speaks_acknowledgment received_ne
  · intro answer mem
    obtain rfl := List.mem_singleton.mp mem
    exact ⟨_, _, _, rfl⟩
  · intro finished
    rcases takes.fin_cause finished with old | rfl
    · exact Or.inl old
    · exact Or.inr ⟨seq, ack, known, rfl, honest, settles.covers⟩
  · intro ended
    rw [phase_eq] at ended
    subst ended
    rcases moved with same | ⟨ended, finished⟩
    · exact absurd same.symm (Phase.ne_terminated_of_synchronized synchronized)
    · obtain ⟨written, acked_eq⟩ := settles.follows.admits.acked_of_afterPeerFin ended
      exact Or.inr ⟨written, acked_eq, finished⟩
  · intro last
    rw [phase_eq] at last
    subst last
    rcases moved with same | ⟨last, -⟩
    · exact first.lastAck same.symm
    · exact absurd last (Phase.afterPeerFin_ne_lastAck middle.phase)

theorem script_eq {ledger' : Ledger} (turn : before.Turn heard ledger peer raw after ledger') :
    content ledger'.script = content ledger.script ∧
      (.fin ∈ ledger'.script → .fin ∈ ledger.script) := by
  obtain ⟨answers, -, -, ⟨same, -⟩ | ⟨old, new, -⟩⟩ := turn.answers
  · rw [same]
    exact ⟨rfl, id⟩
  · rw [old, new]
    exact ⟨rfl, by simp⟩

theorem of_established {ledger' : Ledger}
    (turn : Turn { before with phase := .established } heard ledger peer raw after ledger') :
    before.Turn heard ledger peer raw after ledger' where
  follows := turn.follows
  config_eq := turn.config_eq
  isn_eq := turn.isn_eq
  acked := turn.acked
  received := turn.received
  answers := turn.answers
  fin_cause := turn.fin_cause
  ended gone := (turn.ended gone).imp (by simp) id
  lastAck last := absurd (turn.lastAck last) (by simp)

end Turn

/-- Taking a segment of the peer fails in the estimates or is a turn. -/
def Takeable (before : Connection) (heard : List AppEvent) (ledger : Ledger) (peer : Party)
    (raw : Bytes) (taken : Except Fault Connection) : Prop :=
  taken = .error .duration ∨
    ∃ after ledger', taken = .ok after ∧ before.Turn heard ledger peer raw after ledger'

namespace Follows

variable {connection : Connection} {heard : List AppEvent} {ledger : Ledger} {peer : Party}
  {raw : Bytes} {segment : Segment}

/-- A synchronized connection takes what the peer says. -/
theorem takeSynchronized (follows : connection.Follows heard ledger peer)
    (fits : connection.Fits ledger peer) (near : extent ledger.script < 2147483648)
    (synchronized : connection.phase.isSynchronized)
    (received_isPrefix : peer.ledger.received <+: ledger.script)
    (speaks : peer.Speaks connection.isn raw) (decoded : Segment.decode raw = .ok segment)
    (now : Nat) :
    connection.Takeable heard ledger peer raw (connection.takeSynchronized segment now) := by
  have running := Phase.ne_terminated_of_synchronized synchronized
  cases speaks with
  | @cargo front back cargo ack split honest =>
      rw [Cargo.decode_encode] at decoded
      obtain rfl := Except.ok.inj decoded
      by_cases opening : ∃ answers, cargo = .syn answers
      · obtain ⟨answers, rfl⟩ := opening
        obtain ⟨-, received_ne, taken⟩ :=
          follows.takeSynchronized_syn fits synchronized split ack now
        exact Or.inr ⟨_, ledger, taken, .sendAck follows received_ne running _⟩
      · have plain : ∀ answers, cargo ≠ .syn answers := by simpa using opening
        have acks : cargo.flags.ack = true := by
          cases cargo with
          | syn answers => exact absurd rfl (plain answers)
          | data chunk => rfl
          | fin => rfl
        obtain ⟨known, honest⟩ := honest acks
        obtain failed |
            ⟨middle, acked, settles, ⟨-, taken⟩ | ⟨agreed, after, received, taken, takes⟩⟩ :=
          follows.takeSynchronized_cargo fits near synchronized received_isPrefix split plain honest
            now
        · exact Or.inl failed
        · exact Or.inr ⟨middle, _, taken, .of_settles follows.admits running settles _⟩
        · exact Or.inr ⟨after, _, taken,
            .of_takes follows.admits running settles agreed takes honest⟩
  | @acknowledgment known seq ack honest =>
      rw [Segment.decode_acknowledgment] at decoded
      obtain rfl := Except.ok.inj decoded
      rw [takeSynchronized_acknowledgment]
      obtain ⟨settled, rest, acked, -, taken, settles⟩ :=
        follows.takeAck near running received_isPrefix honest now
      rw [taken]
      cases estimated :
          (Flight.samples settled now).foldlM RoundTrip.observe connection.roundTrip with
      | error fault =>
          rw [RoundTrip.foldlM_observe_error estimated]
          exact Or.inl rfl
      | ok roundTrip =>
          exact Or.inr ⟨_, _, rfl, .of_settles follows.admits running (settles roundTrip) _⟩

end Follows
end Connection
end ReliableTransport
