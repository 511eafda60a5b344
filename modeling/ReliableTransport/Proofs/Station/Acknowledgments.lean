import ReliableTransport.Proofs.Station.Attention

/-!
# Acknowledgments are honest

From the handshake to the peer's FIN, the next expected position counts exactly what the application
was told: the bytes of the peer's stream and its end.  Every acknowledgment carries this position,
so that nothing is acknowledged before the application can hear of it.
-/

namespace ReliableTransport

open Script

theorem Script.Utters.exists_decode {isn : SeqNum} {window : UInt16} {script : List Cargo}
    {raw : Bytes} (utters : Utters isn window script raw) :
    ∃ segment, Segment.decode raw = .ok segment := by
  cases utters with
  | cargo ack split => exact ⟨_, Cargo.decode_encode _ _ _ _⟩
  | acknowledgment seq ack => exact ⟨_, Segment.decode_encode _ _⟩

namespace Station

variable {config : Config} {isn irs : SeqNum} {station after : Station}

/-- An end knows the initial position of its peer by a handshake, and at most the last thing that
happened told it of the end of the peer's stream. -/
inductive Agreed (config : Config) (isn irs : SeqNum) : Station → Prop
  /-- The peer's SYN arrives and is accepted. -/
  | handshake {station after : Station} {segment : Segment} (raw : Bytes) (now : Nat) :
      Arises config isn station → station.connection.phase.isOpening = true →
      Segment.decode raw = .ok segment → segment.header.seq = irs →
      station.undergo (.operate (.receive raw)) now = .ok after →
      after.connection.phase = .synReceived ∨ after.connection.phase = .established →
      Agreed config isn irs after
  /-- Something happens while the peer's stream is unfinished. -/
  | goesOn {station after : Station} (occurrence : Occurrence) (now : Nat) :
      Agreed config isn irs station → .peerFinished ∉ station.events →
      station.undergo occurrence now = .ok after → Agreed config isn irs after

namespace Agreed

theorem arises (agreed : Agreed config isn irs station) : Arises config isn station := by
  induction agreed with
  | handshake raw now arises _ _ _ done _ => exact arises.undergo done
  | goesOn occurrence now _ _ done ih => exact ih.undergo done

theorem opened (agreed : Agreed config isn irs station) :
    station.connection.phase.isOpening = false := by
  induction agreed with
  | handshake raw now _ _ _ _ _ phase => rcases phase with phase | phase <;> rw [phase] <;> rfl
  | goesOn occurrence now _ _ done ih => exact isOpening_of_undergo ih done

theorem recvNext_eq (agreed : Agreed config isn irs station) :
    station.connection.recvNext =
      irs.advance (1 + station.received.length + station.events.count .peerFinished) := by
  induction agreed with
  | @handshake station after segment raw now arises opening decoded irs_eq done phase =>
      cases undergo_learns done with
      | nothing _ _ kept _ =>
          rw [opening] at kept
          rcases phase with phase | phase <;> rw [phase] at kept <;> simp [Phase.isOpening] at kept
      | handshake operation_eq decoded' meets events_eq =>
          obtain rfl := Connection.Operation.receive.inj (Occurrence.operate.inj operation_eq)
          obtain rfl := Except.ok.inj (decoded.symm.trans decoded')
          rw [received, events_eq, arises.attentive.untold opening, Connection.recvNext,
            meets.window_eq, ← irs_eq]
          rfl
      | content _ _ opened _ _ _ => simp [opening] at opened
  | @goesOn station after occurrence now agreed unfinished done ih =>
      cases undergo_learns done with
      | nothing window_eq events_eq _ _ =>
          rw [received, events_eq, Connection.recvNext, window_eq]
          exact ih
      | handshake _ _ meets _ => exact absurd meets.opening (by simp [agreed.opened])
      | @content raw segment run finished _ _ _ running absorbs events_eq =>
          have untold : station.connection.phase.peerFinished = false := by
            rw [← Bool.not_eq_true, ← agreed.arises.finished_iff running]
            exact unfinished
          rw [untold, Bool.not_false, Bool.and_true] at events_eq
          rw [absorbs.next_eq, ih, received, received, events_eq]
          exact (AppEvent.reach_append_tidings irs station.events run finished).symm

end Agreed

/-- An end that is not agreed still waits for the handshake, was ended before it or was told of the
end of the peer's stream. -/
def Unagreed (station : Station) : Prop :=
  station.connection.phase.isOpening = true ∨
    station.connection.phase = .terminated ∧ station.events = [] ∨
    .peerFinished ∈ station.events

/-- Every end is agreed, except before the handshake and after the peer's FIN. -/
theorem Arises.agreed_or (arises : Arises config isn station) :
    (∃ irs, Agreed config isn irs station) ∨ station.Unagreed := by
  obtain ⟨connection, history, created, lived⟩ := arises
  have opening : Unagreed { connection } := by
    obtain ⟨window, -, rfl⟩ := Connection.eq_of_create created
    exact Or.inl rfl
  refine (live_induction
    (fun later => Arises config isn later ∧
      ((∃ irs, Agreed config isn irs later) ∨ later.Unagreed))
    (fun {station after occurrence now} kept done => ?_)
    ⟨⟨connection, [], created, rfl⟩, Or.inr opening⟩ lived).2
  obtain ⟨arises, ⟨irs, agreed⟩ | opening | ⟨past, untold⟩ | finished⟩ := kept
  · refine ⟨arises.undergo done, ?_⟩
    by_cases finished : .peerFinished ∈ station.events
    · exact Or.inr (Or.inr (Or.inr ((events_isPrefix_of_undergo done).mem finished)))
    · exact Or.inl ⟨irs, .goesOn occurrence now agreed finished done⟩
  · refine ⟨arises.undergo done, ?_⟩
    cases undergo_learns done with
    | nothing _ events_eq phase _ =>
        rcases phase with past | same
        · exact Or.inr (Or.inr (Or.inl ⟨past, events_eq.trans (arises.attentive.untold opening)⟩))
        · exact Or.inr (Or.inl (same.trans opening))
    | handshake occurrence_eq decoded meets _ =>
        subst occurrence_eq
        exact Or.inl ⟨_, .handshake _ now arises opening decoded rfl done meets.opened⟩
    | content _ _ opened _ _ _ => simp [opening] at opened
  · refine ⟨arises.undergo done, ?_⟩
    cases undergo_learns done with
    | nothing _ events_eq _ ended =>
        exact Or.inr (Or.inr (Or.inl ⟨ended past, events_eq.trans untold⟩))
    | handshake _ _ meets _ => exact absurd meets.opening (by simp [past, Phase.isOpening])
    | content _ _ _ running _ _ => exact absurd past running
  · exact ⟨arises.undergo done,
      Or.inr (Or.inr (Or.inr ((events_isPrefix_of_undergo done).mem finished)))⟩

/-- Every acknowledgment that is queued carries the next expected position, which counts the SYN,
exactly the bytes that the application was told and the FIN if its arrival was told. -/
theorem Arises.acknowledges_told (arises : Arises config isn station) (occurrence : Occurrence)
    (now : Nat) (done : station.undergo occurrence now = .ok after) :
    (∃ queued, after.sent = station.sent ++ queued ∧
      ∀ raw ∈ queued, ∃ segment, Segment.decode raw = .ok segment ∧
        (segment.header.flags.ack = true → segment.header.ack = after.connection.recvNext)) ∧
      ((∃ irs, Agreed config isn irs after) ∨ after.Unagreed) ∧
      ∀ irs, Agreed config isn irs after →
        after.connection.recvNext =
          irs.advance (1 + after.received.length + after.events.count .peerFinished) := by
  obtain ⟨queued, sent_eq, confirms⟩ := undergo_answers done
  have arises' := arises.undergo done
  obtain ⟨ledger, settled, sound⟩ := arises'.sound
  refine ⟨⟨queued, sent_eq, fun raw mem => ?_⟩, arises'.agreed_or,
    fun irs agreed => agreed.recvNext_eq⟩
  have mem_sent : raw ∈ after.sent := by
    rw [sent_eq]
    exact List.mem_append_right _ mem
  obtain ⟨segment, decoded⟩ := (sound.connection.utters raw mem_sent).exists_decode
  exact ⟨segment, decoded, confirms raw mem segment decoded⟩

/-- The FIN arrives behind two bytes, where the positions wrap around, and is acknowledged. -/
theorem acknowledges_told_farewell :
    ∃ station after : Station, Arises Network.narrow ⟨7⟩ station ∧
      station.undergo (.operate (.receive (Cargo.fin.encode ⟨1⟩ ⟨8⟩ 4))) 3 = .ok after ∧
      after.received = [65, 66] ∧ after.events.count .peerFinished = 1 ∧
      after.connection.recvNext = (⟨4294967294⟩ : SeqNum).advance 4 ∧
      ∃ queued, after.sent = station.sent ++ queued ∧ queued ≠ [] ∧
        ∀ raw ∈ queued, ∃ segment, Segment.decode raw = .ok segment ∧
          (segment.header.flags.ack = true → segment.header.ack = after.connection.recvNext) := by
  have listening : Arises Network.narrow ⟨7⟩ _ := ⟨_, [(.operate .listen, 0)], rfl, rfl⟩
  have greeted : Agreed Network.narrow ⟨7⟩ ⟨4294967294⟩ _ :=
    .handshake ((Cargo.syn false).encode ⟨4294967294⟩ ⟨0⟩ 4) 1 listening rfl
      (Cargo.decode_encode _ _ _ _) rfl rfl (Or.inl rfl)
  have told : Agreed Network.narrow ⟨7⟩ ⟨4294967294⟩ _ :=
    .goesOn (.operate (.receive ((Cargo.data [65, 66]).encode ⟨4294967295⟩ ⟨8⟩ 4))) 2 greeted
      (by decide) rfl
  have finished : Agreed Network.narrow ⟨7⟩ ⟨4294967294⟩ _ :=
    .goesOn (.operate (.receive (Cargo.fin.encode ⟨1⟩ ⟨8⟩ 4))) 3 told (by decide) rfl
  obtain ⟨⟨queued, sent_eq, answers⟩, -, counts⟩ :=
    told.arises.acknowledges_told (.operate (.receive (Cargo.fin.encode ⟨1⟩ ⟨8⟩ 4))) 3 rfl
  refine ⟨_, _, told.arises, rfl, rfl, rfl, counts _ finished, queued, sent_eq, ?_, answers⟩
  rintro rfl
  exact absurd (congrArg List.length sent_eq) (by decide)

end Station
end ReliableTransport
