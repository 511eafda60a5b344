import ReliableTransport.Proofs.Connection.Progress

/-!
# A burst of resent segments and the answers to it

A connection that takes all resent entries in order receives the whole script and answers each of
them.  A connection that takes the answers settles everything that it had resent.
-/

namespace ReliableTransport

open Script

namespace Connection

/-- Segments arrive in order, each at its own time. -/
def receiveAll (connection : Connection) (arrivals : List (Bytes × Nat)) :
    Except Fault Connection :=
  arrivals.foldlM (fun connection (raw, now) => connection.receive raw now) connection

theorem receiveAll_cons (connection : Connection) (raw : Bytes) (now : Nat)
    (arrivals : List (Bytes × Nat)) :
    connection.receiveAll ((raw, now) :: arrivals) =
      (connection.receive raw now).bind (·.receiveAll arrivals) := rfl

theorem receive_of_synchronized {connection : Connection} {raw : Bytes} {segment : Segment}
    (synchronized : connection.phase.isSynchronized) (decoded : Segment.decode raw = .ok segment)
    (now : Nat) : connection.receive raw now = connection.takeSynchronized segment now := by
  rw [receive, decoded]
  simp only [takeSegment]
  cases phase_eq : connection.phase with
  | established | finWait1 | finWait2 | closeWait | lastAck | closing => rfl
  | closed | synSent | synReceived | terminated =>
      rw [phase_eq] at synchronized
      cases synchronized

/-- A connection can take entries with an acknowledgment of a front without ending before the FIN:
not both streams are complete in the front and in what was received. -/
structure Awaits (connection : Connection) (ledger : Ledger) (known : List Cargo) : Prop where
  /-- The sequence numbers are agreed on. -/
  synchronized : connection.phase.isSynchronized
  /-- One of the FINs is missing. -/
  incomplete : .fin ∈ known → .fin ∉ ledger.received

namespace Awaits

variable {before middle after : Connection} {heard : List AppEvent} {ledger : Ledger}
  {peer : Party} {front known : List Cargo} {cargo : Cargo}

theorem running (awaits : before.Awaits ledger known) : before.phase ≠ .terminated :=
  Phase.ne_terminated_of_synchronized awaits.synchronized

theorem settles (awaits : before.Awaits ledger known) (admits : before.phase.Admits ledger)
    {acked : List Cargo} (settles : before.Settles heard ledger peer known middle acked) :
    middle.Awaits { ledger with acked } known := by
  refine ⟨?_, awaits.incomplete⟩
  refine (settles.synchronized awaits.synchronized).resolve_left fun ended => ?_
  obtain ⟨sendWindow, rest, roundTrip, rfl⟩ := settles.frame
  simp only [acknowledged] at ended
  split at ended
  · next done =>
      have finished := admits.fin_mem_of_afterFinAcked awaits.running ended
      rcases settles.acked_eq with rfl | rfl
      · rw [admits.afterFinAcked_of_acked done.2] at ended
        exact awaits.running ended
      · exact awaits.incomplete (by rw [done.2]; exact done.1) finished
  · exact awaits.running ended

theorem takes (awaits : middle.Awaits ledger known) (admits : middle.phase.Admits ledger)
    {received : List Cargo} (takes : middle.Takes heard ledger peer front cargo after received)
    (more : cargo ≠ .fin) : after.Awaits { ledger with received } known := by
  have unfinished (finished : .fin ∈ received) : .fin ∈ ledger.received :=
    (takes.fin_cause finished).resolve_right more
  refine ⟨?_, fun known_fin finished => awaits.incomplete known_fin (unfinished finished)⟩
  obtain ⟨window, phase, events, after_eq, moved⟩ := takes.frame
  have phase_eq : after.phase = phase := congrArg Connection.phase after_eq
  rw [phase_eq]
  rcases moved with rfl | ⟨next, finished⟩
  · exact awaits.synchronized
  · exact absurd (unfinished finished) (admits.fin_not_mem_of_afterPeerFin next)

end Awaits

namespace Follows

variable {connection : Connection} {heard : List AppEvent} {ledger : Ledger} {peer : Party}
  {front back : List Cargo} {cargo : Cargo}

/-- A resent entry is received and answered. -/
theorem answer (follows : connection.Follows heard ledger peer)
    (fits : connection.Fits ledger peer) (near : extent ledger.script < 2147483648)
    (received_isPrefix : peer.ledger.received <+: ledger.script)
    (known_ne : peer.ledger.received ≠ [])
    (awaits : connection.Awaits ledger peer.ledger.received)
    (split : peer.ledger.script = front ++ cargo :: back) (here : front <+: ledger.received)
    {raw : Bytes} (raw_eq : raw = cargo.encode (peer.isn.advance (extent front))
      (connection.isn.advance (extent peer.ledger.received)) peer.window) (now : Nat) :
    connection.receive raw now = .error .duration ∨
      ∃ after ledger', connection.receive raw now = .ok after ∧
        connection.Turn heard ledger peer raw after ledger' ∧ ledger'.script = ledger.script ∧
        after.outbox = connection.outbox ++ [after.acknowledgment] ∧
        front ++ [cargo] <+: ledger'.received ∧
        (back ≠ [] → after.Awaits ledger' peer.ledger.received) := by
  subst raw_eq
  have valid := fits.valid
  rw [receive_of_synchronized awaits.synchronized (Cargo.decode_encode _ _ _ _)]
  by_cases opening : ∃ answers, cargo = .syn answers
  · obtain ⟨answers, rfl⟩ := opening
    obtain ⟨rfl, received_ne, taken⟩ :=
      follows.takeSynchronized_syn fits awaits.synchronized split _ now
    refine Or.inr ⟨_, ledger, taken, .sendAck follows received_ne awaits.running _, rfl, rfl, ?_,
      fun _ => ⟨awaits.synchronized, awaits.incomplete⟩⟩
    have isPrefix := follows.received_isPrefix
    obtain ⟨first, rest, received_eq⟩ := List.exists_cons_of_ne_nil received_ne
    rw [split, received_eq] at isPrefix
    obtain ⟨rfl, -⟩ := List.cons_prefix_cons.mp isPrefix
    rw [received_eq]
    exact ⟨rest, rfl⟩
  · have plain : ∀ answers, cargo ≠ .syn answers := by simpa using opening
    have honest : peer.Acknowledges connection.isn
        (connection.isn.advance (extent peer.ledger.received)) peer.ledger.received :=
      ⟨known_ne, List.prefix_refl _, rfl⟩
    obtain failed |
        ⟨middle, acked, settles, ⟨ended, -⟩ | ⟨agreed, after, received, taken, takes⟩⟩ :=
      follows.takeSynchronized_cargo fits near awaits.synchronized received_isPrefix split plain
        honest now
    · exact Or.inl failed
    · exact absurd ended (awaits.settles follows.admits settles).running
    · have waiting := awaits.settles follows.admits settles
      have turn : connection.Turn heard ledger peer
          (cargo.encode (peer.isn.advance (extent front)) _ peer.window) after _ :=
        .of_takes follows.admits awaits.running settles agreed takes honest
      refine Or.inr ⟨after, _, taken, turn, rfl, ?_, takes.progress here, fun more => ?_⟩
      · obtain ⟨window, phase, events, after_eq, -⟩ := takes.frame
        obtain ⟨sendWindow, rest, roundTrip, rfl⟩ := settles.frame
        exact congrArg Connection.outbox after_eq
      · refine waiting.takes settles.follows.admits takes ?_
        rintro rfl
        rw [split] at valid
        exact more valid.nil_of_append_fin

end Follows

theorem Fits.later {before after : Connection} {ledger ledger' : Ledger} {peer : Party}
    (fits : before.Fits ledger peer) (capacity_eq : after.window.capacity = before.window.capacity)
    (received : ledger.received <+: ledger'.received) : after.Fits ledger' peer where
  valid := fits.valid
  near := fits.near
  within front chunk back split := by
    have within := fits.within front chunk back split
    have received_le := extent_le_of_isPrefix received
    omega

/-- Answers acknowledge fronts of a script. -/
def AcknowledgeFronts (isn : SeqNum) (window : UInt16) (script : List Cargo)
    (answers : List Bytes) : Prop :=
  ∀ answer ∈ answers, ∃ seq known, known ≠ [] ∧ known <+: script ∧
    answer = Segment.acknowledgment seq (isn.advance (extent known)) window

namespace Follows

variable {connection : Connection} {heard : List AppEvent} {ledger : Ledger} {peer : Party}
  {front rest : List Cargo}

/-- A burst of resent entries completes what was received, and is answered. -/
theorem answerAll (follows : connection.Follows heard ledger peer)
    (fits : connection.Fits ledger peer) (near : extent ledger.script < 2147483648)
    (received_isPrefix : peer.ledger.received <+: ledger.script)
    (known_ne : peer.ledger.received ≠ [])
    (awaits : rest ≠ [] → connection.Awaits ledger peer.ledger.received)
    (split : peer.ledger.script = front ++ rest) (here : front <+: ledger.received)
    {arrivals : List (Bytes × Nat)} (burst : arrivals.map Prod.fst =
      written peer.isn (connection.isn.advance (extent peer.ledger.received)) peer.window
        (extent front) rest) :
    connection.receiveAll arrivals = .error .duration ∨
      ∃ after ledger' answers, connection.receiveAll arrivals = .ok after ∧
        after.Follows heard ledger' peer ∧
        (connection.party ledger).Continues (after.party ledger') ∧
        ledger'.received = peer.ledger.script ∧ after.outbox = connection.outbox ++ answers ∧
        AcknowledgeFronts peer.isn connection.config.receiveWindow peer.ledger.script answers ∧
        (rest ≠ [] → ∃ seq,
          Segment.acknowledgment seq (peer.isn.advance (extent peer.ledger.script))
            connection.config.receiveWindow ∈ answers) := by
  induction rest generalizing connection ledger front arrivals with
  | nil =>
      obtain rfl : arrivals = [] := List.map_eq_nil_iff.mp burst
      rw [List.append_nil] at split
      rw [← split] at here
      have all := follows.received_isPrefix.eq_of_length_le here.length_le
      exact Or.inr ⟨connection, ledger, [], rfl, follows, .refl _, all, by simp,
        by simp [AcknowledgeFronts], fun more => absurd rfl more⟩
  | cons cargo rest ih =>
      rcases arrivals with _ | ⟨⟨raw, now⟩, arrivals⟩
      · cases burst
      obtain ⟨raw_eq, burst⟩ := List.cons.inj burst
      rw [receiveAll_cons]
      obtain failed | ⟨after, ledger', taken, turn, script_eq, outbox_eq, progress, waits⟩ :=
        follows.answer fits near received_isPrefix known_ne (awaits (by simp)) split here raw_eq now
      · rw [failed]
        exact Or.inl rfl
      have received_ne : ledger'.received ≠ [] := by
        rintro empty
        rw [empty] at progress
        simpa using progress.length_le
      have answer_eq : after.acknowledgment = Segment.acknowledgment after.sendNext
          (peer.isn.advance (extent ledger'.received)) connection.config.receiveWindow := by
        rw [acknowledgment, turn.follows.recvNext_eq received_ne, turn.config_eq]
      have capacity_eq : after.window.capacity = connection.window.capacity := by
        rw [turn.follows.capacity_eq, turn.config_eq, follows.capacity_eq]
      have split' : peer.ledger.script = (front ++ [cargo]) ++ rest := by
        rw [split, List.append_assoc]
        rfl
      rw [← turn.isn_eq] at burst
      rw [taken]
      have continues : (connection.party ledger).Continues (after.party ledger') :=
        ⟨turn.isn_eq, congrArg Config.receiveWindow turn.config_eq,
          by rw [show (after.party ledger').ledger.script = _ from script_eq]; rfl, turn.received⟩
      obtain failed | ⟨last, ledger'', answers, done, follows', continues', all, outbox_eq',
          acknowledge, final⟩ :=
        ih turn.follows (fits.later capacity_eq turn.received) (by rwa [script_eq])
          (by rwa [script_eq]) waits split' progress (burst.trans (by simp))
      · exact Or.inl failed
      refine Or.inr ⟨last, ledger'', after.acknowledgment :: answers, done, follows',
        continues.trans continues', all, by simp [outbox_eq', outbox_eq], ?_, fun _ => ?_⟩
      · intro answer mem
        rcases List.mem_cons.mp mem with rfl | mem
        · exact ⟨_, _, received_ne, turn.follows.received_isPrefix, answer_eq⟩
        · rw [turn.config_eq] at acknowledge
          exact acknowledge answer mem
      · by_cases more : rest = []
        · refine ⟨after.sendNext, ?_⟩
          have complete : ledger'.received = peer.ledger.script := by
            rw [more, List.append_nil] at split'
            rw [← split'] at progress
            exact turn.follows.received_isPrefix.eq_of_length_le progress.length_le
          rw [← complete, ← answer_eq]
          exact List.mem_cons_self
        · obtain ⟨seq, mem⟩ := final more
          rw [turn.config_eq] at mem
          exact ⟨seq, List.mem_cons_of_mem _ mem⟩

end Follows

/-- All outstanding segments were resent, and nothing is outstanding at the end. -/
structure Resent (connection : Connection) (ledger : Ledger) : Prop where
  /-- The connection is synchronized until all is acknowledged. -/
  alive : connection.phase.isSynchronized ∨
    connection.phase = .terminated ∧ ledger.acked = ledger.script
  /-- No outstanding segment is timed. -/
  retries_pos : ∀ segment ∈ connection.flight.segments, 0 < segment.retries

/-- What is outstanding is sent once more in order, unless the connection ends. -/
theorem Follows.resend {connection after : Connection} {heard : List AppEvent} {ledger : Ledger}
    {peer : Party} {now : Nat} (follows : connection.Follows heard ledger peer)
    (synchronized : connection.phase.isSynchronized)
    (done : connection.expire now = .ok (.ok (), after)) (running : after.phase ≠ .terminated) :
    ∃ rest, ledger.script = ledger.acked ++ rest ∧
      after.outbox = connection.outbox ++
        written connection.isn (peer.isn.advance (extent ledger.received))
          connection.config.receiveWindow (extent ledger.acked) rest ∧
      after.Follows heard ledger peer ∧ after.Resent ledger ∧ after.isn = connection.isn := by
  have before_running := Phase.ne_terminated_of_synchronized synchronized
  have next_eq := follows.recvNext_eq (follows.admits.received_ne synchronized)
  have proceeds := follows.expire done
  rcases expire_cases done with
      ⟨-, rfl, segments_eq⟩ | ⟨-, rfl⟩ | ⟨segments, roundTrip, resent, -, rfl⟩
  · obtain ⟨rest, script_eq, carries⟩ := follows.sends.carries before_running
    have none : rest = [] := carries.nil_iff.mp segments_eq
    subst none
    refine ⟨[], script_eq, by simp [written], follows, ⟨Or.inl synchronized, ?_⟩, rfl⟩
    simp [segments_eq]
  · exact absurd rfl running
  · obtain ⟨-, retries_pos, written_eq⟩ := follows.sends.resend resent roundTrip connection.outbox
    obtain ⟨rest, script_eq, raws_eq⟩ := written_eq before_running
    rw [next_eq] at raws_eq
    exact ⟨rest, script_eq, congrArg (connection.outbox ++ ·) raws_eq, proceeds.follows,
      ⟨Or.inl synchronized, retries_pos⟩, rfl⟩

theorem receive_of_terminated {connection : Connection} (ended : connection.phase = .terminated)
    (raw : Bytes) (now : Nat) : connection.receive raw now = .ok connection := by
  rw [receive]
  cases Segment.decode raw with
  | error failure => rfl
  | ok segment => simp only [takeSegment, ended]

namespace Follows

variable {connection : Connection} {heard : List AppEvent} {ledger : Ledger} {peer : Party}

/-- An answer to a resent burst is taken without fail. -/
theorem settle (follows : connection.Follows heard ledger peer)
    (near : extent ledger.script < 2147483648) (resent : connection.Resent ledger)
    (complete : peer.ledger.received = ledger.script) {known : List Cargo} (known_ne : known ≠ [])
    (isFront : known <+: ledger.script) (seq : SeqNum) (now : Nat) :
    ∃ after acked,
      connection.receive
          (Segment.acknowledgment seq (connection.isn.advance (extent known)) peer.window) now =
        .ok after ∧
      after.Follows heard { ledger with acked } peer ∧ after.Resent { ledger with acked } ∧
      after.isn = connection.isn ∧ ledger.acked <+: acked ∧ known <+: acked := by
  rcases resent.alive with synchronized | ⟨ended, all⟩
  · have running := Phase.ne_terminated_of_synchronized synchronized
    have honest : peer.Acknowledges connection.isn (connection.isn.advance (extent known)) known :=
      ⟨known_ne, by rwa [complete], rfl⟩
    obtain ⟨settled, rest, acked, segments_eq, taken, settles⟩ :=
      follows.takeAck near running (by rw [complete]) honest now
    -- a segment that was resent gives no sample, so that no estimate can fail
    have untimed : Flight.samples settled now = [] := by
      have resent_all : settled.filter (fun segment => segment.retries = 0) = [] := by
        rw [List.filter_eq_nil_iff]
        intro segment mem
        have := resent.retries_pos segment (by rw [segments_eq]; exact List.mem_append_left _ mem)
        simp
        omega
      rw [Flight.samples, resent_all, List.map_nil]
    rw [untimed] at taken
    have settles := settles connection.roundTrip
    refine ⟨_, acked, ?_, settles.follows, ⟨?_, fun segment mem => ?_⟩, rfl, settles.later,
      settles.covers⟩
    · rw [receive_of_synchronized synchronized (Segment.decode_acknowledgment _ _ _),
        takeSynchronized_acknowledgment, taken]
      rfl
    · rcases settles.synchronized synchronized with ended | agreed
      · rcases (Turn.of_settles follows.admits running settles []).ended ended with
            gone | ⟨-, all, -⟩
        · exact absurd gone running
        · exact Or.inr ⟨ended, all⟩
      · exact Or.inl agreed
    · exact resent.retries_pos segment (by rw [segments_eq]; exact List.mem_append_right _ mem)
  · refine ⟨connection, ledger.acked, receive_of_terminated ended _ _, follows, resent, rfl,
      List.prefix_refl _, ?_⟩
    rwa [all]

theorem flight_isEmpty (follows : connection.Follows heard ledger peer)
    (resent : connection.Resent ledger) (all : ledger.acked = ledger.script) :
    connection.flight.isEmpty := by
  have nothing : connection.flight.segments = [] := by
    rcases resent.alive with synchronized | ⟨ended, -⟩
    · exact follows.sends.segments_eq_nil (Phase.ne_terminated_of_synchronized synchronized) all
    · exact follows.sends.settled ended
  simp [Flight.isEmpty, nothing]

theorem settleAll (follows : connection.Follows heard ledger peer)
    (near : extent ledger.script < 2147483648) (resent : connection.Resent ledger)
    (complete : peer.ledger.received = ledger.script) {arrivals : List (Bytes × Nat)}
    (answers : AcknowledgeFronts connection.isn peer.window ledger.script (arrivals.map Prod.fst)) :
    ∃ after acked, connection.receiveAll arrivals = .ok after ∧
      after.Follows heard { ledger with acked } peer ∧ after.Resent { ledger with acked } ∧
      after.isn = connection.isn ∧ ledger.acked <+: acked ∧
      ∀ seq,
        Segment.acknowledgment seq (connection.isn.advance (extent ledger.script)) peer.window ∈
          arrivals.map Prod.fst → acked = ledger.script := by
  induction arrivals generalizing connection ledger with
  | nil => exact ⟨connection, ledger.acked, rfl, follows, resent, rfl, List.prefix_refl _, by simp⟩
  | cons arrival arrivals ih =>
      obtain ⟨raw, now⟩ := arrival
      obtain ⟨seq, known, known_ne, isFront, rfl⟩ := answers raw (by simp)
      obtain ⟨middle, acked, taken, follows', resent', isn_eq, later, covers⟩ :=
        follows.settle near resent complete known_ne isFront seq now
      have answers' :
          AcknowledgeFronts middle.isn peer.window ledger.script (arrivals.map Prod.fst) := by
        intro answer mem
        rw [isn_eq]
        exact answers answer (List.mem_cons_of_mem _ mem)
      obtain ⟨after, acked', done, follows'', resent'', isn_eq', later', all⟩ :=
        ih follows' near resent' complete answers'
      refine ⟨after, acked', ?_, follows'', resent'', isn_eq'.trans isn_eq, later.trans later', ?_⟩
      · rw [receiveAll_cons, taken]
        exact done
      intro seq' mem
      rw [List.map_cons, List.mem_cons] at mem
      rcases mem with same | mem
      · have ack_eq := Segment.ack_eq_of_acknowledgment_eq same
        have known_le := extent_le_of_isPrefix isFront
        have extent_eq := (SeqNum.advance_inj connection.isn (by omega) (by omega)).mp ack_eq
        have all := follows.sends.valid.eq_of_extent_eq isFront (List.prefix_refl _) extent_eq.symm
        have acked_isPrefix : acked' <+: ledger.script := follows''.sends.acked_isPrefix
        rw [all] at covers
        exact acked_isPrefix.eq_of_length_le (covers.trans later').length_le
      · exact all seq' (by rwa [isn_eq])

end Follows
end Connection
end ReliableTransport
