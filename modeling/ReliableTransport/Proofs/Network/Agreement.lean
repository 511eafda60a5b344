import ReliableTransport.Proofs.Station.Awakening
import ReliableTransport.Proofs.Station.Succession

/-!
# The handshake is an agreement

Two ends complete the handshake only with each other's positions.  What one end needs for it is a
segment that the other one cannot have sent before it took the SYN, or the answer to it.
-/

namespace ReliableTransport

open Fault Script

namespace Station

variable {config : Config} {isn : SeqNum} {station after : Station} {now : Nat}

theorem Arises.seq_of_syn (arises : Arises config isn station) {raw : Bytes}
    (sent : raw ∈ station.sent) {segment : Segment} (decoded : Segment.decode raw = .ok segment)
    (opening : segment.header.flags.syn = true) : segment.header.seq = isn := by
  obtain ⟨ledger, settled, sound⟩ := arises.sound
  have valid := sound.connection.writes.valid
  cases sound.connection.utters raw sent with
  | @cargo front back cargo ack split =>
      rw [Cargo.decode_encode] at decoded
      obtain rfl := Except.ok.inj decoded
      cases cargo with
      | syn answers =>
          rw [split] at valid
          obtain rfl := valid.nil_of_append_syn
          exact SeqNum.advance_zero isn
      | data chunk => cases opening
      | fin => cases opening
  | acknowledgment seq ack =>
      rw [Segment.decode_acknowledgment] at decoded
      obtain rfl := Except.ok.inj decoded
      cases opening

theorem synReceived_of_undergo (opened : station.connection.phase.isOpening = false)
    {occurrence : Occurrence} (done : station.undergo occurrence now = .ok after)
    (waiting : after.connection.phase = .synReceived) :
    station.connection.phase = .synReceived ∧
      after.connection.recvNext = station.connection.recvNext := by
  have phase_eq : station.connection.phase = .synReceived := by
    rcases undergo_phase done with same | ⟨operation, -, moved⟩
    · rw [← same, waiting]
    · have closed := operation.eq_closed_of_synReceived_mem_leads (waiting ▸ moved)
      simp [closed, Phase.isOpening] at opened
  refine ⟨phase_eq, ?_⟩
  cases undergo_learns done with
  | nothing window_eq _ _ _ => exact congrArg ReceiveWindow.next window_eq
  | handshake _ _ meets _ => simp [meets.opening] at opened
  | content occurrence_eq _ _ _ _ _ =>
      subst occurrence_eq
      obtain ⟨connection, received, rfl⟩ := exists_of_undergo_operate done
      by_cases same : connection = station.connection
      · exact congrArg Connection.recvNext same
      · obtain ⟨completed, -⟩ := Connection.confirmsSyn_of_receive received phase_eq same
        simp_all

theorem moves_of_act {incoming : List Bytes} {move : Move}
    (acted : station.act incoming move now = .ok after) :
    after = station ∨ station.Moves incoming after := by
  cases move with
  | emit => exact Or.inr ⟨.emit, now, acted, by simp⟩
  | hear => exact Or.inr ⟨.hear, now, acted, by simp⟩
  | send pending =>
      obtain ⟨⟨chunk, connection⟩, sent, acted⟩ := exists_of_bind_eq_ok acted
      obtain rfl := Except.ok.inj acted
      obtain rfl := (Connection.eq_of_sendChunk sent).1
      refine Or.inr ⟨.operate (.send pending), now, ?_, by simp⟩
      rw [undergo, Connection.apply, sent]
      simp [Connection.takenBy, bind, Except.bind, Except.map, pure, Except.pure]
  | close =>
      obtain ⟨connection, closed, acted⟩ := exists_of_bind_eq_ok acted
      obtain rfl := Except.ok.inj acted
      refine Or.inr ⟨.operate .close, now, ?_, by simp⟩
      rw [undergo, Connection.apply, closed]
      simp [Connection.takenBy, bind, Except.bind, pure, Except.pure]
  | abort =>
      obtain rfl := Except.ok.inj acted
      refine Or.inr ⟨.operate .abort, now, ?_, by simp⟩
      simp [undergo, Connection.apply, Connection.takenBy, bind, Except.bind, pure, Except.pure]
  | expire =>
      obtain ⟨⟨result, connection⟩, expired, acted⟩ := exists_of_bind_eq_ok acted
      obtain rfl := Except.ok.inj acted
      refine Or.inr ⟨.operate .expire, now, ?_, by simp⟩
      rw [undergo, Connection.apply, expired]
      simp [Connection.takenBy, bind, Except.bind, Except.map, pure, Except.pure]
  | deliver number =>
      simp only [act] at acted
      split at acted
      · exact Or.inl (Except.ok.inj acted).symm
      · next raw found =>
          obtain ⟨connection, received, acted⟩ := exists_of_bind_eq_ok acted
          obtain rfl := Except.ok.inj acted
          refine Or.inr ⟨.operate (.receive raw), now, ?_, ?_⟩
          · rw [undergo, Connection.apply, received]
            simp [Connection.takenBy, bind, Except.bind, pure, Except.pure]
          · rintro other same
            obtain rfl := Connection.Operation.receive.inj (Occurrence.operate.inj same)
            exact List.mem_of_getElem? found

end Station

namespace Network

/-- A network passes through states, oldest first, while anything happens at either end and only
segments of the other end arrive. -/
inductive Passes (start : Network) : List Network → Network → Prop
  /-- Nothing has happened. -/
  | start : Passes start [] start
  /-- Time goes by. -/
  | elapse {past : List Network} {network : Network} (time : Nat) : Passes start past network →
      Passes start (past ++ [network]) { network with now := network.now + time }
  /-- Something happens at one end. -/
  | move {past : List Network} {network : Network} (side : Side) {station : Station} :
      Passes start past network →
      (network.station side).Moves (network.station side.other).wire station →
      Passes start (past ++ [network]) (network.setStation side station)

/-- The listening end answered the SYN of the opening one. -/
def Answered (openerIsn : SeqNum) (network : Network) : Prop :=
  (network.station .second).connection.phase = .synReceived ∧
    (network.station .second).connection.recvNext = openerIsn.advance 1

/-- The opening end is established, and each end expects the first byte of the other one. -/
def Acquainted (openerIsn listenerIsn : SeqNum) (network : Network) : Prop :=
  (network.station .first).connection.phase = .established ∧
    (network.station .first).connection.recvNext = listenerIsn.advance 1 ∧
    (network.station .second).connection.recvNext = openerIsn.advance 1

/-- How far the handshake went in the states up to the current one. -/
inductive Stage (openerIsn listenerIsn : SeqNum) (states : List Network) (network : Network) : Prop
  /-- Neither end knows anything of the other one. -/
  | silent : (network.station .first).Mute → (network.station .second).Mute →
      Stage openerIsn listenerIsn states network
  /-- The listening end answered and waits for the opening one. -/
  | answered {earlier : Network} : (network.station .first).Mute →
      (network.station .second).connection.phase.isOpening = false →
      (network.station .second).connection.recvNext = openerIsn.advance 1 →
      earlier ∈ states → earlier.Answered openerIsn → Stage openerIsn listenerIsn states network
  /-- Both ends were acquainted. -/
  | acquainted {earlier later : Network} :
      (network.station .second).connection.phase.isOpening = false →
      ((network.station .second).connection.phase = .synReceived →
        (network.station .second).connection.recvNext = openerIsn.advance 1) →
      earlier ∈ states → earlier.Answered openerIsn →
      later ∈ states → later.Acquainted openerIsn listenerIsn →
      Stage openerIsn listenerIsn states network

/-- What holds of the two ends through their handshake and ever after. -/
structure Greets (openerIsn listenerIsn : SeqNum) (states : List Network) (network : Network) :
    Prop where
  /-- The opening end has its initial sequence number. -/
  opener : ∃ config, Station.Arises config openerIsn (network.station .first)
  /-- So has the listening one. -/
  listener : ∃ config, Station.Arises config listenerIsn (network.station .second)
  /-- The opening end has asked for the connection. -/
  asked : (network.station .first).connection.phase ≠ .closed
  /-- The handshake went some way. -/
  stage : Stage openerIsn listenerIsn states network

namespace Greets

variable {openerIsn listenerIsn : SeqNum} {states : List Network} {network : Network}
  {station : Station}

theorem moveOpener (greets : Greets openerIsn listenerIsn states network)
    (moves : (network.station .first).Moves (network.station .second).wire station) :
    Greets openerIsn listenerIsn (states ++ [network.setStation .first station])
      (network.setStation .first station) := by
  obtain ⟨occurrence, now, done, arrives⟩ := moves
  obtain ⟨config, opener⟩ := greets.opener
  obtain ⟨config', listener⟩ := greets.listener
  have first_eq : (network.setStation .first station).station .first = station :=
    network.station_setStation .first station
  have second_eq : (network.setStation .first station).station .second = network.station .second :=
    network.station_setStation_other .first station
  refine ⟨⟨config, first_eq ▸ opener.undergo done⟩, ⟨config', second_eq ▸ listener⟩, ?_, ?_⟩
  · rw [first_eq]
    rcases Station.undergo_phase done with same | ⟨operation, -, moved⟩
    · rw [same]
      exact greets.asked
    · intro closed
      exact operation.closed_not_mem_leads _ (closed ▸ moved)
  cases greets.stage with
  | silent first second =>
      cases first.undergo opener done with
      | mute mute => exact .silent (first_eq ▸ mute) (second_eq ▸ second)
      | meets occurrence_eq decoded _ how =>
          -- a mute end does not answer
          have plain := second.plain _ (Station.mem_sent_of_mem_wire (arrives _ occurrence_eq))
          rcases how with ⟨-, -, closed⟩ | ⟨answers, -, -⟩
          · exact absurd closed greets.asked
          · have acks := answers.2.1
            rw [plain.flags_eq decoded] at acks
            cases acks
  | @answered earlier first opened next_eq mem answered =>
      cases first.undergo opener done with
      | mute mute =>
          exact .answered (first_eq ▸ mute) (second_eq ▸ opened) (second_eq ▸ next_eq)
            (List.mem_append_left _ mem) answered
      | meets occurrence_eq decoded meets how =>
          rcases how with ⟨-, -, closed⟩ | ⟨answers, established, -⟩
          · exact absurd closed greets.asked
          · have sent := Station.mem_sent_of_mem_wire (arrives _ occurrence_eq)
            have seq_eq := listener.seq_of_syn sent decoded answers.1
            have acquainted : (network.setStation .first station).Acquainted openerIsn
                listenerIsn := by
              rw [Acquainted, first_eq, second_eq, meets.recvNext_eq, seq_eq]
              exact ⟨established, rfl, next_eq⟩
            exact .acquainted (second_eq ▸ opened) (fun _ => second_eq ▸ next_eq)
              (List.mem_append_left _ mem) answered
              (List.mem_append_right _ List.mem_cons_self) acquainted
  | acquainted opened waits mem answered mem' acquainted =>
      exact .acquainted (second_eq ▸ opened) (second_eq ▸ waits) (List.mem_append_left _ mem)
        answered (List.mem_append_left _ mem') acquainted

theorem moveListener (greets : Greets openerIsn listenerIsn states network)
    (moves : (network.station .second).Moves (network.station .first).wire station) :
    Greets openerIsn listenerIsn (states ++ [network.setStation .second station])
      (network.setStation .second station) := by
  obtain ⟨occurrence, now, done, arrives⟩ := moves
  obtain ⟨config, opener⟩ := greets.opener
  obtain ⟨config', listener⟩ := greets.listener
  have first_eq : (network.setStation .second station).station .first = network.station .first :=
    network.station_setStation_other .second station
  have second_eq : (network.setStation .second station).station .second = station :=
    network.station_setStation .second station
  refine ⟨⟨config, first_eq ▸ opener⟩, ⟨config', second_eq ▸ listener.undergo done⟩,
    first_eq ▸ greets.asked, ?_⟩
  cases greets.stage with
  | silent first second =>
      cases second.undergo listener done with
      | mute mute => exact .silent (first_eq ▸ first) (second_eq ▸ mute)
      | meets occurrence_eq decoded meets how =>
          have sent := Station.mem_sent_of_mem_wire (arrives _ occurrence_eq)
          have plain := first.plain _ sent
          rcases how with ⟨flags_eq, waiting, -⟩ | ⟨answers, -, -⟩
          · have seq_eq := opener.seq_of_syn sent decoded (by rw [flags_eq])
            have next_eq : station.connection.recvNext = openerIsn.advance 1 := by
              rw [meets.recvNext_eq, seq_eq]
            have answered : (network.setStation .second station).Answered openerIsn := by
              rw [Answered, second_eq]
              exact ⟨waiting, next_eq⟩
            exact .answered (first_eq ▸ first) (second_eq ▸ meets.isOpening_after)
              (second_eq ▸ next_eq) (List.mem_append_right _ List.mem_cons_self) answered
          · have acks := answers.2.1
            rw [plain.flags_eq decoded] at acks
            cases acks
  | answered first opened next_eq mem answered =>
      -- the opening end repeats its SYN at most, which brings nothing
      have kept := (listener.attentive.undergo_silent opened done <| Or.inr <| by
        intro raw segment occurrence_eq decoded brings
        have plain := first.plain _ (Station.mem_sent_of_mem_wire (arrives _ occurrence_eq))
        have data := brings.1
        rw [plain.flags_eq decoded] at data
        cases data).1
      exact .answered (first_eq ▸ first)
        (second_eq ▸ Station.isOpening_of_undergo opened done)
        (by rw [second_eq, kept, next_eq]) (List.mem_append_left _ mem) answered
  | acquainted opened waits mem answered mem' acquainted =>
      refine .acquainted (second_eq ▸ Station.isOpening_of_undergo opened done) (fun waiting => ?_)
        (List.mem_append_left _ mem) answered (List.mem_append_left _ mem') acquainted
      rw [second_eq] at waiting ⊢
      obtain ⟨waited, kept⟩ := Station.synReceived_of_undergo opened done waiting
      rw [kept, waits waited]

theorem elapse (greets : Greets openerIsn listenerIsn states network) (time : Nat) :
    Greets openerIsn listenerIsn (states ++ [{ network with now := network.now + time }])
      { network with now := network.now + time } := by
  refine ⟨greets.opener, greets.listener, greets.asked, ?_⟩
  cases greets.stage with
  | silent first second => exact .silent first second
  | answered first opened next_eq mem answered =>
      exact .answered first opened next_eq (List.mem_append_left _ mem) answered
  | acquainted opened waits mem answered mem' acquainted =>
      exact .acquainted opened waits (List.mem_append_left _ mem) answered
        (List.mem_append_left _ mem') acquainted

/-- At a start, the opening end has sent its SYN. -/
theorem start {opener listener : Config} {now : Nat}
    (started : Network.start opener listener openerIsn listenerIsn now = .ok network) :
    Greets openerIsn listenerIsn [network] network := by
  obtain ⟨created, creation, started⟩ := exists_of_bind_eq_ok started
  obtain ⟨asking, asked, started⟩ := exists_of_bind_eq_ok started
  obtain ⟨other, creation', started⟩ := exists_of_bind_eq_ok started
  obtain rfl := Except.ok.inj started
  have arises : Station.Arises opener openerIsn { connection := created } :=
    ⟨created, [], creation, rfl⟩
  have arises' : Station.Arises listener listenerIsn { connection := other } :=
    ⟨other, [], creation', rfl⟩
  have closed : created.phase = .closed := by
    obtain ⟨window, -, rfl⟩ := Connection.eq_of_create creation
    rfl
  have opens : Station.undergo { connection := created } (.operate .openActive) now =
      .ok { connection := asking } := by
    rw [Station.undergo, Connection.apply, asked]
    rfl
  have listens : Station.undergo { connection := other } (.operate .listen) now =
      .ok { connection := other.listen } := rfl
  refine ⟨⟨opener, arises.undergo opens⟩, ⟨listener, arises'.undergo listens⟩, ?_, ?_⟩
  · rw [Connection.openActive, if_pos closed] at asked
    obtain ⟨sent, -, asked⟩ := exists_of_bind_eq_ok asked
    obtain rfl := Except.ok.inj asked
    exact Phase.noConfusion
  · refine .silent ?_ ?_
    · cases (Station.Mute.create creation).undergo arises opens with
      | mute mute => exact mute
      | meets occurrence_eq _ _ _ => cases occurrence_eq
    · cases (Station.Mute.create creation').undergo arises' listens with
      | mute mute => exact mute
      | meets occurrence_eq _ _ _ => cases occurrence_eq

theorem leaves_synSent (greets : Greets openerIsn listenerIsn states network) {raw : Bytes}
    (sent : raw ∈ (network.station .second).wire) {after : Connection} {time : Nat}
    (received : (network.station .first).connection.receive raw time = .ok after)
    (waiting : (network.station .first).connection.phase = .synSent)
    (left : after.phase ≠ .synSent) :
    after.phase = .established ∧ after.recvNext = listenerIsn.advance 1 ∧
      ∃ earlier ∈ states, earlier.Answered openerIsn := by
  obtain ⟨config, listens⟩ := greets.listener
  obtain ⟨established, segment, decoded, answers⟩ :=
    Connection.answersSyn_of_receive received waiting left
  have seq_eq := listens.seq_of_syn (Station.mem_sent_of_mem_wire sent) decoded answers.1
  refine ⟨established, ?_, ?_⟩
  · cases Connection.receive_learns received with
    | nothing rests =>
        have phase := rests.phase
        simp [waiting, established, Phase.isOpening] at phase
    | handshake operation_eq decoded' meets =>
        obtain rfl := Connection.Operation.receive.inj operation_eq
        obtain rfl := Except.ok.inj (decoded.symm.trans decoded')
        rw [meets.recvNext_eq, seq_eq]
    | content _ _ opened _ _ => simp [waiting, Phase.isOpening] at opened
  · cases greets.stage with
    | silent _ second =>
        have acks := answers.2.1
        rw [(second.plain _ (Station.mem_sent_of_mem_wire sent)).flags_eq decoded] at acks
        cases acks
    | answered _ _ _ mem answered => exact ⟨_, mem, answered⟩
    | acquainted _ _ mem answered _ _ => exact ⟨_, mem, answered⟩

theorem leaves_synReceived (greets : Greets openerIsn listenerIsn states network) {raw : Bytes}
    (sent : raw ∈ (network.station .first).wire) {after : Connection} {time : Nat}
    (received : (network.station .second).connection.receive raw time = .ok after)
    (waiting : (network.station .second).connection.phase = .synReceived)
    (left : after.phase ≠ .synReceived) :
    (network.station .second).connection.recvNext = openerIsn.advance 1 ∧
      ∃ earlier ∈ states, earlier.Acquainted openerIsn listenerIsn := by
  have changed : after ≠ (network.station .second).connection := by
    rintro rfl
    exact left waiting
  obtain ⟨-, segment, decoded, confirms⟩ :=
    Connection.confirmsSyn_of_receive received waiting changed
  have not_mute : ¬ (network.station .first).Mute := by
    intro mute
    have plain := confirms.1
    rw [(mute.plain _ (Station.mem_sent_of_mem_wire sent)).flags_eq decoded] at plain
    cases plain
  cases greets.stage with
  | silent first _ => exact absurd first not_mute
  | answered first _ _ _ _ => exact absurd first not_mute
  | acquainted _ waits _ _ mem acquainted => exact ⟨waits waiting, _, mem, acquainted⟩

end Greets

/-- Whatever steps a network takes, it passes through states. -/
theorem Passes.run {start network after : Network} {past : List Network} {steps : List Step}
    (passes : start.Passes past network) (done : network.run steps = .ok after) :
    ∃ past, start.Passes past after := by
  induction steps generalizing network past with
  | nil =>
      obtain rfl := Except.ok.inj done
      exact ⟨past, passes⟩
  | cons step steps ih =>
      rw [run_cons] at done
      obtain ⟨middle, stepped, done⟩ := exists_of_bind_eq_ok done
      cases step with
      | elapse time =>
          obtain rfl := Except.ok.inj stepped
          exact ih (passes.elapse time) done
      | act side move =>
          obtain ⟨station, acted, rfl⟩ := exists_of_step_act stepped
          rcases Station.moves_of_act acted with rfl | moves
          · rw [setStation, Function.update_eq_self] at done
            exact ih passes done
          · exact ih (passes.move side moves) done

theorem Passes.greets {opener listener : Config} {openerIsn listenerIsn : SeqNum} {now : Nat}
    {start network : Network} {past : List Network}
    (started : Network.start opener listener openerIsn listenerIsn now = .ok start)
    (passes : start.Passes past network) :
    Greets openerIsn listenerIsn (past ++ [network]) network := by
  induction passes with
  | start => exact .start started
  | elapse time _ ih => exact ih.elapse time
  | move side _ moves ih =>
      cases side with
      | first => exact ih.moveOpener moves
      | second => exact ih.moveListener moves

/-- Whoever completes the handshake does so on a segment that acknowledges the own SYN, and both
ends then expect the first byte of each other. -/
theorem Passes.agreement {opener listener : Config} {openerIsn listenerIsn : SeqNum} {now : Nat}
    {start network : Network} {past : List Network}
    (started : Network.start opener listener openerIsn listenerIsn now = .ok start)
    (passes : start.Passes past network) (time : Nat) :
    (∀ raw ∈ (network.station .second).wire, ∀ after,
      (network.station .first).connection.receive raw time = .ok after →
      (network.station .first).connection.phase = .synSent → after.phase ≠ .synSent →
        after.phase = .established ∧ after.recvNext = listenerIsn.advance 1 ∧
          ∃ earlier ∈ past ++ [network], earlier.Answered openerIsn) ∧
      (∀ raw ∈ (network.station .first).wire, ∀ after,
        (network.station .second).connection.receive raw time = .ok after →
        (network.station .second).connection.phase = .synReceived → after.phase ≠ .synReceived →
          (network.station .second).connection.recvNext = openerIsn.advance 1 ∧
            ∃ earlier ∈ past ++ [network], earlier.Acquainted openerIsn listenerIsn) ∧
      ∀ (connection after : Connection) (raw : Bytes), connection.receive raw time = .ok after →
        (connection.phase = .synSent → after.phase ≠ .synSent →
          ∃ segment, Segment.decode raw = .ok segment ∧ segment.AnswersSyn connection.isn) ∧
        (connection.phase = .synReceived → after.phase ≠ .synReceived →
          ∃ segment, Segment.decode raw = .ok segment ∧ segment.ConfirmsSyn connection.isn) := by
  have greets := passes.greets started
  refine ⟨?_, ?_, ?_⟩
  · intro raw sent after received waiting left
    exact greets.leaves_synSent sent received waiting left
  · intro raw sent after received waiting left
    exact greets.leaves_synReceived sent received waiting left
  · intro connection after raw received
    refine ⟨fun waiting left => (Connection.answersSyn_of_receive received waiting left).2,
      fun waiting left => (Connection.confirmsSyn_of_receive received waiting ?_).2⟩
    rintro rfl
    exact left waiting

/-- The acknowledgment of the answer is lost, and the first data of the opening end, whose positions
wrap around, completes the handshake. -/
theorem agreement_by_data :
    ∃ start network : Network, ∃ past : List Network, ∃ after : Connection,
      Network.start narrow narrow ⟨4294967295⟩ ⟨7⟩ 5 = .ok start ∧ start.Passes past network ∧
      (Cargo.data [7, 8]).encode ⟨0⟩ ⟨8⟩ 4 ∈ (network.station .first).wire ∧
      (network.station .second).connection.receive ((Cargo.data [7, 8]).encode ⟨0⟩ ⟨8⟩ 4) 9 =
        .ok after ∧
      (network.station .second).connection.phase = .synReceived ∧ after.phase = .established ∧
      after.events = [.data [7, 8]] ∧
      ∃ earlier ∈ past ++ [network], earlier.Acquainted ⟨4294967295⟩ ⟨7⟩ := by
  let steps : List Step :=
    [.act .first .emit, .act .second (.deliver 0), .act .second .emit, .act .first (.deliver 0),
      .act .first (.send [7, 8]), .act .first .emit, .act .first .emit]
  have ran : ∃ start network : Network, ∃ after : Connection,
      Network.start narrow narrow ⟨4294967295⟩ ⟨7⟩ 5 = .ok start ∧ start.run steps = .ok network ∧
      (Cargo.data [7, 8]).encode ⟨0⟩ ⟨8⟩ 4 ∈ (network.station .first).wire ∧
      (network.station .second).connection.receive ((Cargo.data [7, 8]).encode ⟨0⟩ ⟨8⟩ 4) 9 =
        .ok after ∧
      (network.station .second).connection.phase = .synReceived ∧ after.phase = .established ∧
      after.events = [.data [7, 8]] :=
    ⟨_, _, _, rfl, rfl, by decide, rfl, rfl, rfl, rfl⟩
  obtain ⟨start, network, after, started, done, sent, received, waiting, established, events_eq⟩ :=
    ran
  obtain ⟨past, passes⟩ := Passes.start.run done
  have agreed := (passes.agreement started 9).2.1 _ sent after received waiting
    (by rw [established]; decide)
  exact ⟨start, network, past, after, started, passes, sent, received, waiting, established,
    events_eq, agreed.2⟩

end Network
end ReliableTransport
