import ReliableTransport.Proofs.Service.Basic
import ReliableTransport.Proofs.Station.Attention

/-!
# An endpoint lives as an end with any peer

What an endpoint does in a round is part of the life of an end: it takes what woke it up, it puts
pending data into segments, and it hands over everything that is due.  Nothing but the wakeup brings
bytes of the peer.  If its connection is over by all that, both streams are complete.
-/

namespace ReliableTransport

namespace Connection

/-- The own FIN was sent, and everything before it is acknowledged. -/
def Delivered (connection : Connection) : Prop :=
  ∃ fin, connection.finSeq = some fin ∧ fin.AtOrBefore connection.sendUnacked

theorem Sound.delivered {connection : Connection} {background : Background} {ledger : Ledger}
    {settled : Nat} (sound : connection.Sound background ledger settled)
    (done : ledger.Done settled) : connection.Delivered := by
  obtain ⟨written, -, extent_le⟩ := done
  have settled_le := sound.writes.settled_le
  refine ⟨_, (if_pos written) ▸ sound.writes.finSeq_eq, ?_⟩
  rw [sound.writes.unacked_eq, SeqNum.atOrBefore_advance_iff _ (by omega) (by omega)]
  omega

end Connection

namespace Station

/-- What a round makes of an end before anything is sent or told. -/
inductive Heeds (station : Station) (round : Endpoint.Round) : Station → Prop
  /-- The connection is not concerned. -/
  | idle : Heeds station round station
  /-- Bytes arrived, of which some part is looked at. -/
  | receive {raw : Bytes} {later : Station} : round.wakeup = some (.received raw) →
      station.undergo (.operate (.receive (raw.take Endpoint.receiveLimit))) round.now = .ok later →
      Heeds station round later
  /-- The deadline expired. -/
  | expire {later : Station} : round.wakeup = some .expired →
      station.undergo (.operate .expire) round.now = .ok later → Heeds station round later

theorem Heeds.frame {station later : Station} {round : Endpoint.Round}
    (heeds : station.Heeds round later) :
    later.taken = station.taken ∧ later.closing = station.closing ∧ later.wire = station.wire ∧
      later.heard = station.heard := by
  cases heeds with
  | idle => exact ⟨rfl, rfl, rfl, rfl⟩
  | receive _ done | expire _ done =>
      obtain ⟨connection, -, rfl⟩ := exists_of_undergo_operate done
      simp [Connection.takenBy]

end Station

namespace Endpoint

variable {config : Config} {isn : SeqNum} {endpoint awake middle : Endpoint} {station : Station}
  {round : Round}

/-- A running endpoint did what an end with any peer did, and its connection is over only if both
streams are complete. -/
structure Lives (config : Config) (isn : SeqNum) (endpoint : Endpoint) (station : Station) :
    Prop where
  /-- The end may have any peer. -/
  arises : Station.Arises config isn station
  /-- The endpoint did what the end did. -/
  accords : endpoint.Accords station
  /-- The end of the connection comes behind the own stream, too. -/
  delivered : station.connection.phase = .terminated → station.connection.Delivered

theorem with_activity {endpoint : Endpoint} {activity : Activity}
    (same : endpoint.activity = activity) : { endpoint with activity } = endpoint := by
  subst same
  rfl

namespace Lives

theorem start {connection : Connection} (arises : Station.Arises config isn { connection })
    (goes : connection.phase ≠ .terminated) : Lives config isn { connection } { connection } where
  arises := arises
  accords := ⟨rfl, rfl, rfl, rfl, fun past => absurd past goes⟩
  delivered past := absurd past goes

/-- The connection has done something, and is over only if both streams are complete. -/
theorem operate (lives : endpoint.Lives config isn station) {operation : Connection.Operation}
    {connection : Connection} {now : Nat}
    (applied : station.connection.apply operation now = .ok connection)
    (ended : connection.phase = .terminated → ∃ ledger settled,
      connection.Sound ⟨config, isn, station.wire, station.heard⟩ ledger settled ∧
        ledger.Done settled)
    (idle : station.connection.takenBy operation = []) (stays : operation ≠ .close)
    (pending : Bytes) (writerClosed : Bool) :
    Lives config isn { endpoint with connection, pending, writerClosed }
        { station with connection } ∧
      station.undergo (.operate operation) now = .ok { station with connection } := by
  have done : station.undergo (.operate operation) now = .ok { station with connection } := by
    rw [Station.undergo, applied]
    simp [bind, Except.bind, pure, Except.pure, idle, stays]
  have accords := lives.accords
  have complete : connection.phase = .terminated →
      .peerFinished ∈ station.heard ++ connection.events ∧ connection.Delivered := by
    intro past
    obtain ⟨ledger, settled, sound, both⟩ := ended past
    exact ⟨Station.Sound.peerFinished_mem sound both, sound.delivered both⟩
  exact ⟨⟨lives.arises.undergo done, ⟨accords.running, rfl, accords.sent_eq, accords.events_eq,
    fun past => (complete past).1⟩, fun past => (complete past).2⟩, done⟩

/-- Whatever wakes an endpoint that waits is part of the life of the end, unless the connection
fails by it. -/
theorem heed (lives : endpoint.Lives config isn station)
    (goes : station.connection.phase ≠ .terminated)
    (heeded : endpoint.heed round = .ok (.ok (), awake)) :
    ∃ later, awake.Lives config isn later ∧ station.Heeds round later := by
  obtain ⟨connection, operated, rfl⟩ := heed_cases heeded
  rw [lives.accords.connection_eq] at operated
  obtain ⟨ledger, settled, sound⟩ := lives.arises.sound
  rcases Round.operate_cases operated with
    ⟨-, rfl⟩ | ⟨-, raw, woken, received⟩ | ⟨woken, expired⟩
  · have accords := lives.accords
    exact ⟨station, ⟨lives.arises, ⟨accords.running, rfl, accords.sent_eq, accords.events_eq,
      accords.concluded⟩, lives.delivered⟩, .idle⟩
  · have applied : station.connection.apply (.receive (raw.take receiveLimit)) round.now =
        .ok connection := received
    obtain ⟨ledger', settled', sound', -, ended⟩ := (sound.connection.receive _ _).of_ok received
    obtain ⟨lives', done⟩ := lives.operate applied
      (fun past => ⟨ledger', settled', sound', (ended past).resolve_left goes⟩) rfl (by simp) _ _
    exact ⟨_, lives', .receive woken done⟩
  · have applied : station.connection.apply .expire round.now = .ok connection := by
      rw [Connection.apply, expired]
      rfl
    obtain ⟨sound', ended⟩ := (sound.connection.expire _).of_ok expired
    obtain ⟨lives', done⟩ := lives.operate applied
      (fun past => ⟨ledger, settled, sound', (ended rfl past).resolve_left goes⟩) rfl (by simp) _ _
    exact ⟨_, lives', .expire woken done⟩

/-- Putting pending data into segments is part of the life of the end. -/
theorem segmentPending (lives : awake.Lives config isn station) {now : Nat}
    (segmented : awake.segmentPending now = .ok middle) :
    ∃ later, middle.Lives config isn later ∧ Station.Becomes [] station later ∧
      later.taken ++ middle.pending = station.taken ++ awake.pending ∧
      (later.closing = true →
        station.closing = true ∨ middle.writerClosed = true ∧ middle.pending = []) ∧
      middle.writerClosed = awake.writerClosed := by
  obtain ⟨after, later, segmented', becomes, accords, bytes_eq, closing, writerClosed_eq, -⟩ :=
    lives.accords.segmentPending lives.arises [] now
  obtain rfl := Except.ok.inj (segmented.symm.trans segmented')
  refine ⟨later, ⟨becomes.arises lives.arises, accords, fun past => ?_⟩, becomes, bytes_eq, closing,
    writerClosed_eq⟩
  -- a connection that is over was so before, and nothing can be sent then
  rw [← accords.connection_eq] at past ⊢
  obtain ⟨pending, connection, middle_eq, -, moved⟩ := segmentPending_cases segmented
  have connection_eq : middle.connection = connection := by rw [middle_eq]
  rw [connection_eq] at past
  have before : awake.connection.phase = .terminated := by
    rcases moved with same | ⟨-, synchronized⟩
    · rw [← same, past]
    · exact absurd past (Phase.ne_terminated_of_synchronized synchronized)
  have cannot : awake.connection.canSend = false := by
    simp [Connection.canSend, before, Phase.isSending]
  obtain rfl := Except.ok.inj ((segmentPending_of_not_canSend cannot now).symm.trans segmented)
  rw [lives.accords.connection_eq] at before ⊢
  exact lives.delivered before

/-- Handing over everything that is due is part of the life of the end. -/
theorem handed (lives : middle.Lives config isn station) :
    ∃ later, middle.handed.Lives config isn later ∧ Station.Becomes [] station later ∧
      later.taken = station.taken ∧ later.closing = station.closing ∧
      later.connection = { station.connection with outbox := [], events := [] } := by
  have accords := lives.accords
  have becomes : Station.Becomes [] station
      { station with
        connection := { station.connection with outbox := [], events := [] }
        wire := station.wire ++ station.connection.outbox
        heard := station.heard ++ station.connection.events } :=
    (Station.Becomes.emitAll station (List.append_nil station.connection.outbox).symm).trans
      (.hearAll _)
  refine ⟨_, ⟨becomes.arises lives.arises, ?_, lives.delivered⟩, becomes, rfl, rfl, rfl⟩
  rw [handed_eq]
  refine ⟨accords.running, ?_, ?_, ?_, fun past => ?_⟩
  · rw [accords.connection_eq]
  · rw [accords.sent_eq, accords.connection_eq]
  · rw [accords.events_eq, accords.connection_eq, List.map_append]
  · have told := accords.concluded past
    rw [Station.events, List.append_nil]
    exact told

end Lives
end Endpoint

namespace Stream

/-- What a stream accepted goes its way through the endpoint, and the own direction is finished
behind all of it. -/
structure Carries (accepted : List Bytes) (stream : Stream) (station : Station) : Prop where
  /-- What was accepted is taken for sending, pending or waiting. -/
  bytes_eq : station.taken ++ stream.endpoint.pending ++ stream.writes.flatten = accepted.flatten
  /-- The endpoint knows that the application finished writing when it took everything. -/
  writer : stream.endpoint.writerClosed = true → stream.writable = false ∧ stream.writes = []
  /-- The own direction is finished when nothing more is to be sent. -/
  closing : station.closing = true →
    stream.endpoint.writerClosed = true ∧ stream.endpoint.pending = []

namespace Carries

variable {accepted writes : List Bytes} {stream : Stream} {station later : Station}
  {awake middle : Endpoint} {round : Endpoint.Round}

/-- Taking a wakeup loses nothing. -/
theorem heed (carries : Carries accepted stream station) {wakeup : Wakeup}
    (woken : round.wakeup = some wakeup) {now : Nat}
    (awaits : stream.endpoint.awaits wakeup now = true) (left : stream.left? wakeup = some writes)
    (heeded : stream.endpoint.heed round = .ok (.ok (), awake)) (heeds : station.Heeds round later) :
    Carries accepted { stream with endpoint := awake, writes } later := by
  obtain ⟨taken_eq, closing_eq, -, -⟩ := heeds.frame
  obtain ⟨connection, -, rfl⟩ := Endpoint.heed_cases heeded
  rw [woken]
  -- only a message or the end of writing comes from the channel, and only if nothing is pending
  cases wakeup with
  | written data =>
      simp only [Endpoint.awaits, Endpoint.takesWrites, Bool.and_eq_true, Bool.not_eq_true',
        List.isEmpty_iff] at awaits
      obtain ⟨-, ⟨-, unclosed⟩, -⟩ := awaits
      refine ⟨?_, fun closed => ?_, fun closes => ?_⟩
      · rw [taken_eq, ← carries.bytes_eq, writes_eq_of_left left]
        simp [Endpoint.taking]
      · exact absurd closed (by simp [Endpoint.taking, unclosed])
      · rw [closing_eq] at closes
        exact absurd (carries.closing closes).1 (by simp [unclosed])
  | writerClosed =>
      simp only [Endpoint.awaits, Endpoint.takesWrites, Bool.and_eq_true, List.isEmpty_iff] at awaits
      obtain ⟨unwritable, writes_eq, rfl⟩ := unwritable_of_left left
      refine ⟨?_, fun _ => ⟨unwritable, rfl⟩, fun _ => ⟨rfl, awaits.2.2⟩⟩
      rw [taken_eq, ← carries.bytes_eq, writes_eq]
      rfl
  | received raw | receiveError | expired =>
      obtain rfl := Option.some.inj left
      exact ⟨taken_eq ▸ carries.bytes_eq, carries.writer, closing_eq ▸ carries.closing⟩

theorem segmentPending (carries : Carries accepted { stream with endpoint := awake, writes } station)
    (bytes_eq : later.taken ++ middle.pending = station.taken ++ awake.pending)
    (becomes : Station.Becomes [] station later)
    (closing : later.closing = true →
      station.closing = true ∨ middle.writerClosed = true ∧ middle.pending = [])
    (writerClosed_eq : middle.writerClosed = awake.writerClosed) :
    Carries accepted { stream with endpoint := middle, writes } later where
  bytes_eq := by
    have accepted_eq := carries.bytes_eq
    rw [← accepted_eq]
    exact congrArg (· ++ writes.flatten) bytes_eq
  writer closed := carries.writer (writerClosed_eq ▸ closed)
  closing closes := by
    rcases closing closes with already | fresh
    · obtain ⟨closed, nothing⟩ := carries.closing already
      have closed : awake.writerClosed = true := closed
      have nothing : awake.pending = [] := nothing
      refine ⟨writerClosed_eq.trans closed, ?_⟩
      obtain ⟨more, taken_eq⟩ := becomes.taken_isPrefix
      rw [nothing, ← taken_eq, List.append_assoc, List.append_cancel_left_eq] at bytes_eq
      exact (List.append_eq_nil_iff.mp bytes_eq).2
    · exact fresh

end Carries

/-- A stream whose endpoint runs or ended in order did what an end with any peer did.  Nothing is
left to be sent or told, and the connection is over if the endpoint ended. -/
structure Lives (config : Config) (isn : SeqNum) (accepted : List Bytes) (stream : Stream)
    (station : Station) : Prop where
  /-- The endpoint did what the end did. -/
  endpoint : Endpoint.Lives config isn { stream.endpoint with activity := .running } station
  /-- Nothing is left to be sent. -/
  outbox_eq : station.connection.outbox = []
  /-- Nothing is left to be told. -/
  events_eq : station.connection.events = []
  /-- The endpoint runs as long as the connection goes on. -/
  running_iff : stream.endpoint.activity = .running ↔ station.connection.phase ≠ .terminated
  /-- What was accepted goes its way. -/
  carries : Carries accepted stream station

variable {config : Config} {isn : SeqNum} {accepted writes : List Bytes} {stream : Stream}
  {station : Station} {awake : Endpoint} {round : Endpoint.Round}

theorem Lives.waiting (lives : Lives config isn accepted stream station)
    (running : stream.endpoint.activity = .running) :
    stream.endpoint.Lives config isn station ∧ station.connection.phase ≠ .terminated := by
  have endpoint := lives.endpoint
  rw [Endpoint.with_activity running] at endpoint
  exact ⟨endpoint, lives.running_iff.mp running⟩

theorem Lives.of_turn (lives : awake.Lives config isn station)
    (carries : Carries accepted { stream with endpoint := awake, writes } station)
    {endpoint : Endpoint} (heeded : endpoint.heed round = .ok (.ok (), awake))
    (kept : (endpoint.serve round).activity = .running ∨
      (endpoint.serve round).activity = .finished (.ok ())) :
    ∃ later, Lives config isn accepted
        { stream with endpoint := endpoint.serve round, writes } later ∧
      Station.Becomes [] station later := by
  have hands {middle : Endpoint} (segmented : awake.segmentPending round.later = .ok middle)
      (activity : Activity)
      (running_iff : activity = .running ↔ middle.connection.phase ≠ .terminated) :
      ∃ later, Lives config isn accepted
          { stream with endpoint := { middle.handed with activity }, writes } later ∧
        Station.Becomes [] station later := by
    obtain ⟨between, lives', becomes, bytes_eq, closing, writerClosed_eq⟩ :=
      lives.segmentPending segmented
    obtain ⟨later, lives'', becomes', taken_eq, closing_eq, connection_eq⟩ := lives'.handed
    have carries' := carries.segmentPending bytes_eq becomes closing writerClosed_eq
    have pending_eq : middle.handed.pending = middle.pending := by rw [Endpoint.handed_eq]
    have writerClosed_eq : middle.handed.writerClosed = middle.writerClosed := by
      rw [Endpoint.handed_eq]
    refine ⟨later, ⟨?_, ?_, ?_, ?_, ?_, ?_, ?_⟩, becomes.trans becomes'⟩
    · rw [Endpoint.with_activity lives''.accords.running]
      exact lives''
    · rw [connection_eq]
    · rw [connection_eq]
    · rw [connection_eq, running_iff, lives'.accords.connection_eq]
    · rw [taken_eq, pending_eq]
      exact carries'.bytes_eq
    · rw [writerClosed_eq]
      exact carries'.writer
    · rw [closing_eq, pending_eq, writerClosed_eq]
      exact carries'.closing
  have ends := Endpoint.ends_serve endpoint round
  generalize endpoint.serve round = after at ends kept ⊢
  cases ends with
  | expires _ | fails _ _ _ _ => simp [Endpoint.fail] at kept
  | finishes heeded' segmented past =>
      obtain ⟨-, rfl⟩ := Prod.mk.inj (Except.ok.inj (heeded.symm.trans heeded'))
      exact hands segmented _ (by simp [past])
  | @waits _ middle heeded' segmented goes =>
      obtain ⟨-, rfl⟩ := Prod.mk.inj (Except.ok.inj (heeded.symm.trans heeded'))
      obtain ⟨between, lives', -⟩ := lives.segmentPending segmented
      obtain ⟨later, lives'', -⟩ := lives'.handed
      have running := lives''.accords.running
      have waits := hands segmented .running (by simp [goes])
      rwa [Endpoint.with_activity running] at waits
  | crashes stopped => simp [stopped] at kept

/-- A stream is kept by a round that leaves its endpoint waiting or ends it in order. -/
def Kept (stream : Stream) : Prop :=
  stream.endpoint.activity = .running ∨ stream.endpoint.activity = .finished (.ok ())

theorem Lives.of_first {connection : Connection} (arises : Station.Arises config isn { connection })
    (goes : connection.phase ≠ .terminated) (unwoken : round.wakeup = none)
    (kept : Kept { endpoint := ({ connection } : Endpoint).serve round }) :
    ∃ later, Lives config isn [] { endpoint := ({ connection } : Endpoint).serve round } later ∧
      Station.Becomes [] { connection } later := by
  have heeded : ({ connection } : Endpoint).heed round = .ok (.ok (), { connection }) := by
    simp only [Endpoint.heed, Endpoint.Round.operate, unwoken]
    rfl
  let blank : Stream := { endpoint := { connection } }
  have carries : Carries [] { blank with endpoint := { connection }, writes := [] } { connection } :=
    ⟨rfl, by simp, by simp⟩
  exact Lives.of_turn (Endpoint.Lives.start arises goes) carries heeded kept

theorem Lives.of_round (lives : Lives config isn accepted stream station) {wakeup : Wakeup}
    (woken : round.wakeup = some wakeup) {now : Nat}
    (awaits : stream.endpoint.awaits wakeup now = true) (left : stream.left? wakeup = some writes)
    (kept : Kept { stream with endpoint := stream.endpoint.serve round, writes }) :
    ∃ middle later, station.Heeds round middle ∧ Station.Becomes [] middle later ∧
      Lives config isn accepted { stream with endpoint := stream.endpoint.serve round, writes }
        later := by
  obtain ⟨endpoint, goes⟩ := lives.waiting (Endpoint.running_of_awaits awaits)
  obtain ⟨awake, heeded⟩ : ∃ awake, stream.endpoint.heed round = .ok (.ok (), awake) := by
    have ends := Endpoint.ends_serve stream.endpoint round
    generalize stream.endpoint.serve round = after at ends kept
    cases ends with
    | expires _ => simp [Kept, Endpoint.fail] at kept
    | fails heeded _ _ _ | finishes heeded _ _ | waits heeded _ _ => exact ⟨_, heeded⟩
    | crashes stopped => simp [Kept, stopped] at kept
  obtain ⟨middle, lives', heeds⟩ := endpoint.heed goes heeded
  obtain ⟨later, after, becomes⟩ :=
    Lives.of_turn lives' (lives.carries.heed woken awaits left heeded heeds) heeded kept
  exact ⟨middle, later, heeds, becomes, after⟩

theorem Lives.write (lives : Lives config isn accepted stream station) {data : Bytes}
    (taken : (stream.write data).1 = .accepted) :
    Lives config isn (accepted ++ [data]) (stream.write data).2 station := by
  have carries := lives.carries
  rw [Stream.write] at taken ⊢
  split at taken
  · cases taken
  split at taken
  · cases taken
  split at taken
  · cases taken
  next writable running room =>
    rw [if_neg writable, if_neg running, if_neg room]
    have writable : stream.writable ≠ false := by simpa using writable
    refine ⟨lives.endpoint, lives.outbox_eq, lives.events_eq, lives.running_iff, ?_,
      fun closed => absurd (carries.writer closed).1 writable, carries.closing⟩
    change station.taken ++ stream.endpoint.pending ++ (stream.writes ++ [data]).flatten = _
    rw [List.flatten_append, List.flatten_append, ← List.append_assoc, carries.bytes_eq]

theorem Lives.close (lives : Lives config isn accepted stream station) :
    Lives config isn accepted stream.close station where
  endpoint := lives.endpoint
  outbox_eq := lives.outbox_eq
  events_eq := lives.events_eq
  running_iff := lives.running_iff
  carries :=
    { lives.carries with writer := fun closed => ⟨rfl, (lives.carries.writer closed).2⟩ }

/-- A served stream does what an end with any peer does, as long as it does not fail.  What holds of
this end and the log behind the first round and is kept by every round holds at last. -/
theorem Served.lives_induction {connection : Connection} {log : List (Endpoint × Endpoint.Round)}
    (holds : List (Endpoint × Endpoint.Round) → Station → Prop)
    (arises : Station.Arises config isn { connection }) (goes : connection.phase ≠ .terminated)
    (first : ∀ {round : Endpoint.Round} {later : Station}, Station.Becomes [] { connection } later →
      holds [({ connection }, round)] later)
    (step : ∀ {log : List (Endpoint × Endpoint.Round)} {endpoint : Endpoint}
      {round : Endpoint.Round} {station middle later : Station},
      holds log station → Station.Arises config isn station →
      endpoint.connection = station.connection → station.Heeds round middle →
      Station.Becomes [] middle later → holds (log ++ [(endpoint, round)]) later)
    (served : Served connection accepted log stream) (kept : stream.Kept) :
    ∃ station, Lives config isn accepted stream station ∧ holds log station := by
  induction served with
  | start now later failsAfter =>
      obtain ⟨station, lives, becomes⟩ := Lives.of_first arises goes rfl kept
      exact ⟨station, lives, first becomes⟩
  | @write accepted _ stream data _ taken ih =>
      obtain ⟨writes, write_eq⟩ := stream.write_eq data
      rw [Kept, write_eq] at kept
      obtain ⟨station, lives, held⟩ := ih kept
      exact ⟨station, lives.write taken, held⟩
  | close _ ih =>
      obtain ⟨station, lives, held⟩ := ih kept
      exact ⟨station, lives.close, held⟩
  | round wakeup now later failsAfter _ awaits left ih =>
      obtain ⟨station, lives, held⟩ := ih (Or.inl (Endpoint.running_of_awaits awaits))
      obtain ⟨middle, after, heeds, becomes, lives'⟩ := lives.of_round rfl awaits left kept
      exact ⟨after, lives', step held lives.endpoint.arises lives.endpoint.accords.connection_eq
        heeds becomes⟩

theorem Served.lives {connection : Connection} {log : List (Endpoint × Endpoint.Round)}
    (arises : Station.Arises config isn { connection }) (goes : connection.phase ≠ .terminated)
    (served : Served connection accepted log stream) (kept : stream.Kept) :
    ∃ station, Lives config isn accepted stream station := by
  obtain ⟨station, lives, -⟩ := served.lives_induction (fun _ _ => True) arises goes
    (fun _ => trivial) (fun _ _ _ _ _ => trivial) kept
  exact ⟨station, lives⟩

end Stream
end ReliableTransport
