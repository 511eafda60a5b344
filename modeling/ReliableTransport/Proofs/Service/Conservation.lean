import ReliableTransport.Proofs.Service.Segmentation

/-!
# Nothing is lost on the way to the segments

What an endpoint takes from the channel of writes is queued in segments, in order and once, or is
pending.  The FIN is queued in the round that takes the end of writing, when nothing is pending, and
no round behind it takes or queues anything of the stream.
-/

namespace ReliableTransport

open Fault

namespace Station

variable {config : Config} {isn : SeqNum} {station after : Station} {now : Nat}

theorem Arises.isSome_finSeq_eq (arises : Arises config isn station)
    {operation : Connection.Operation} (stays : operation ≠ .close)
    (done : station.undergo (.operate operation) now = .ok after) :
    after.connection.finSeq.isSome = station.connection.finSeq.isSome := by
  cases known : station.connection.finSeq.isSome with
  | true =>
      obtain ⟨ledger, settled, sound⟩ := arises.sound
      obtain ⟨ledger', settled', sound', isFront⟩ := (sound.undergo _ now).of_ok done
      exact sound'.fin_mem_iff.mp (isFront.subset (sound.fin_mem_iff.mpr known))
  | false =>
      have unfinished := arises.finSeq_eq_none (by simpa using known) stays done
      rw [unfinished]
      rfl

theorem Heeds.isSome_finSeq_eq {round : Endpoint.Round} (heeds : station.Heeds round after)
    (arises : Arises config isn station) :
    after.connection.finSeq.isSome = station.connection.finSeq.isSome := by
  cases heeds with
  | idle => rfl
  | receive _ done | expire _ done => exact arises.isSome_finSeq_eq (by simp) done

end Station

namespace Endpoint

variable {config : Config} {isn : SeqNum} {endpoint after : Endpoint} {station : Station}
  {round : Round}

/-- The message that a round takes from the channel of writes. -/
def Round.message? (round : Round) : Option Bytes :=
  match round.wakeup with
  | some (.written data) => some data
  | some .writerClosed | some (.received _) | some .receiveError | some .expired | none => none

/-- A round takes the end of writing. -/
def Round.Closes (round : Round) : Prop :=
  round.wakeup = some .writerClosed

instance (round : Round) : Decidable round.Closes :=
  inferInstanceAs (Decidable (round.wakeup = some .writerClosed))

theorem taken_of_heed {awake : Endpoint} {result : Except Failure Unit}
    (heeded : endpoint.heed round = .ok (result, awake)) :
    awake.pending = endpoint.pending ++ round.message?.getD [] ∧
      awake.writerClosed = (endpoint.writerClosed || round.Closes) ∧ awake.sent = endpoint.sent ∧
      (round.Closes → awake.connection = endpoint.connection) := by
  obtain ⟨connection, operated, rfl⟩ := heed_cases heeded
  refine ⟨?_, ?_, rfl, fun closes => ?_⟩
  · rcases round with ⟨_ | wakeup, now, later, failsAfter⟩
    · simp [Round.message?]
    · cases wakeup <;> simp [Round.message?, taking]
  · rcases round with ⟨_ | wakeup, now, later, failsAfter⟩
    · simp [Round.Closes]
    · cases wakeup <;> simp [Round.Closes, taking]
  · rcases Round.operate_cases operated with ⟨-, rfl⟩ | ⟨-, raw, woken, -⟩ | ⟨woken, -⟩
    · rfl
    · simp [Round.Closes, woken] at closes
    · simp [Round.Closes, woken] at closes

theorem takesWrites_of_awaits
    (awaited : ∀ wakeup, round.wakeup = some wakeup → endpoint.awaits wakeup round.now = true)
    (channel : round.message? ≠ none ∨ round.Closes) :
    endpoint.connection.canSend = true ∧ endpoint.writerClosed = false ∧ endpoint.pending = [] := by
  obtain ⟨wakeup, woken, takes⟩ : ∃ wakeup, round.wakeup = some wakeup ∧
      (endpoint.awaits wakeup round.now = true → endpoint.takesWrites = true) := by
    rcases round with ⟨_ | wakeup, now, later, failsAfter⟩
    · simp [Round.message?, Round.Closes] at channel
    · refine ⟨wakeup, rfl, ?_⟩
      cases wakeup <;> simp_all [Round.message?, Round.Closes, awaits]
  have takes := takes (awaited wakeup woken)
  simpa [takesWrites, and_assoc] using takes

/-- What a round queues for the own stream. -/
structure Queues (endpoint : Endpoint) (round : Round) : Prop where
  /-- What the wakeup prompts brings nothing of the stream, or is outstanding and sent again because
  its time is up. -/
  prompted : ∀ raw ∈ endpoint.prompted round, Segment.Bare raw ∨
    round.wakeup = some .expired ∧ endpoint.connection.Resends raw
  /-- The round that takes the end of writing finds nothing pending and queues the FIN alone. -/
  finishes : round.Closes →
    endpoint.pending = [] ∧ ∃ fin, Segment.CarriesFin fin ∧ endpoint.fresh round = [fin]
  /-- Any other round queues data only. -/
  continues : ¬ round.Closes → ∀ raw ∈ endpoint.fresh round, Segment.CarriesData raw

/-- What a round that leaves the endpoint waiting does with the own stream. -/
structure Submits (endpoint : Endpoint) (round : Round) (after : Endpoint) : Prop where
  /-- What it queues is sent. -/
  sent_eq : after.sent = endpoint.sent ++ (endpoint.prompted round ++ endpoint.fresh round)
  /-- No byte is lost or invented. -/
  bytes_eq : endpoint.pending ++ round.message?.getD [] =
    (endpoint.fresh round).flatMap Segment.content ++ after.pending
  /-- The end of writing is known once it was taken. -/
  closed_eq : after.writerClosed = (endpoint.writerClosed || round.Closes)
  /-- The FIN is queued once the end of writing is known. -/
  regular : after.writerClosed = after.connection.finSeq.isSome
  /-- It queues what is due. -/
  queues : endpoint.Queues round
  /-- Behind the end of writing, nothing is taken or queued. -/
  rests : endpoint.writerClosed = true →
    round.message? = none ∧ ¬ round.Closes ∧ endpoint.fresh round = []

theorem Lives.submits (lives : endpoint.Lives config isn station)
    (goes : station.connection.phase ≠ .terminated)
    (regular : endpoint.writerClosed = endpoint.connection.finSeq.isSome)
    (clear : ∀ raw ∈ endpoint.connection.outbox, Segment.Bare raw)
    (awaited : ∀ wakeup, round.wakeup = some wakeup → endpoint.awaits wakeup round.now = true)
    (waits : (endpoint.serve round).activity = .running) :
    endpoint.Submits round (endpoint.serve round) := by
  obtain ⟨awake, middle, heeded, segmented, -, serve_eq⟩ := exists_of_serve waits
  obtain ⟨queued, outbox_eq, segments⟩ := segments_of_segmentPending segmented
  obtain ⟨pending_eq, closed_eq, sent_eq, same⟩ := taken_of_heed heeded
  have prompted_eq : endpoint.prompted round = awake.connection.outbox := by
    rw [prompted, heeded]
  have fresh_eq : endpoint.fresh round = queued := by
    rw [fresh, heeded]
    simp [segmented, outbox_eq]
  have known : awake.connection.finSeq.isSome = endpoint.writerClosed := by
    obtain ⟨later, lives', heeds⟩ := lives.heed goes heeded
    rw [lives'.accords.connection_eq, heeds.isSome_finSeq_eq lives.arises, regular,
      lives.accords.connection_eq]
  have closing (closes : round.Closes) :
      awake.connection.canSend = true ∧ endpoint.writerClosed = false ∧ endpoint.pending = [] ∧
        awake.pending = [] := by
    obtain ⟨can, unclosed, empty⟩ := takesWrites_of_awaits awaited (Or.inr closes)
    refine ⟨same closes ▸ can, unclosed, empty, ?_⟩
    rw [pending_eq, empty]
    simp [Round.message?, show round.wakeup = _ from closes]
  -- behind the FIN nothing can be sent
  have quiet (closed : endpoint.writerClosed = true) : middle = awake ∧ queued = [] := by
    have cannot : awake.connection.canSend = false := by
      have isSome := known.trans closed
      simp [Connection.canSend, Option.isNone_eq_false_iff.mpr isSome]
    have same := Except.ok.inj (segmented.symm.trans (segmentPending_of_not_canSend cannot _))
    rw [same] at outbox_eq
    exact ⟨same, by simpa using outbox_eq⟩
  have outcome :
      (round.Closes ∧ ∃ fin, Segment.CarriesFin fin ∧ queued = [fin] ∧
        middle.connection.finSeq.isSome = true) ∨
      (¬ round.Closes ∧ (∀ raw ∈ queued, Segment.CarriesData raw) ∧
        middle.connection.finSeq.isSome = endpoint.writerClosed) := by
    cases segments with
    | data data split_eq _ finSeq_eq idle =>
        refine Or.inr ⟨fun closes => ?_, data, finSeq_eq ▸ known⟩
        obtain ⟨can, -, -, empty⟩ := closing closes
        rw [empty] at split_eq
        have cannot := idle (by simp [closed_eq, closes]) (List.append_eq_nil_iff.mp split_eq.symm).2
        simp [can] at cannot
    | @finish data fin all_data split_eq _ closed carries isSome =>
        have closes : round.Closes := by
          by_contra stays
          rw [closed_eq] at closed
          simpa using (quiet (by simpa [stays] using closed)).2
        obtain ⟨-, -, -, empty⟩ := closing closes
        obtain rfl := Segment.eq_nil_of_content all_data (split_eq.symm.trans empty)
        exact Or.inl ⟨closes, fin, carries, rfl, isSome⟩
  obtain ⟨pending, connection, middle_eq, -, -⟩ := segmentPending_cases segmented
  have middle_sent : middle.sent = awake.sent := by rw [middle_eq]
  have middle_closed : middle.writerClosed = awake.writerClosed := by rw [middle_eq]
  rw [serve_eq, handed_eq]
  refine ⟨?_, ?_, ?_, ?_, ⟨?_, ?_, ?_⟩, ?_⟩
  · rw [middle_sent, sent_eq, outbox_eq, prompted_eq, fresh_eq]
  · rw [fresh_eq, ← pending_eq]
    exact segments.bytes_eq
  · exact middle_closed.trans closed_eq
  · change middle.writerClosed = middle.connection.finSeq.isSome
    rw [middle_closed, closed_eq]
    rcases outcome with ⟨closes, -, -, -, isSome⟩ | ⟨stays, -, isSome⟩
    · simp [closes, isSome]
    · simp [stays, isSome]
  · intro raw mem
    rcases endpoint.prompted_cases round raw mem with queued | prompts
    · exact Or.inl (clear raw queued)
    · exact prompts
  · intro closes
    obtain ⟨-, fin, carries, queued_eq, -⟩ := outcome.resolve_right (fun other => other.1 closes)
    exact ⟨(closing closes).2.2.1, fin, carries, fresh_eq.trans queued_eq⟩
  · intro stays
    rw [fresh_eq]
    exact (outcome.resolve_left (fun other => stays other.1)).2.1
  · intro closed
    refine ⟨?_, fun closes => ?_, ?_⟩
    · by_contra taken
      simp [takesWrites_of_awaits awaited (Or.inl taken)] at closed
    · simp [(closing closes).2.1] at closed
    · rw [fresh_eq, (quiet closed).2]

/-- The messages that some rounds took from the channel of writes, oldest first. -/
def messages (log : List (Endpoint × Round)) : List Bytes :=
  log.filterMap (·.2.message?)

theorem messages_concat (log : List (Endpoint × Round)) (endpoint : Endpoint) (round : Round) :
    messages (log ++ [(endpoint, round)]) = messages log ++ round.message?.toList := by
  rw [messages, List.filterMap_append, messages]
  cases message_eq : round.message? <;> simp [message_eq]

end Endpoint

namespace Stream

open Endpoint

variable {role : Role} {config : Config} {isn : SeqNum} {opening : Nat} {connection : Connection}
  {accepted : List Bytes} {log : List (Endpoint × Endpoint.Round)} {stream : Stream}
  {station : Station}

theorem message_append_writes {wakeup : Wakeup} {writes : List Bytes}
    (left : stream.left? wakeup = some writes) {round : Endpoint.Round}
    (woken : round.wakeup = some wakeup) : round.message?.toList ++ writes = stream.writes := by
  rw [Round.message?, woken]
  cases wakeup with
  | written data => exact (writes_eq_of_left left).symm
  | writerClosed =>
      obtain ⟨-, writes_eq, rfl⟩ := unwritable_of_left left
      exact writes_eq.symm
  | received raw | receiveError | expired => exact (Option.some.inj left).symm

theorem plain_of_initiate (initiated : initiate role config isn opening = .ok connection) :
    connection.phase.isOpening = true ∧ connection.finSeq = none ∧
      ∀ raw ∈ connection.outbox, Segment.Bare raw := by
  obtain ⟨created, created_eq, opened⟩ := exists_of_bind_eq_ok initiated
  obtain ⟨window, -, rfl⟩ := Connection.eq_of_create created_eq
  cases role with
  | active =>
      obtain ⟨asking, transmitted, opened⟩ := exists_of_bind_eq_ok opened
      obtain rfl := Except.ok.inj opened
      obtain ⟨flight, sendNext, rfl⟩ := Connection.eq_of_transmit transmitted
      refine ⟨rfl, rfl, fun raw mem => ?_⟩
      obtain rfl := List.mem_singleton.mp mem
      exact Segment.bare_encode rfl
  | passive =>
      obtain rfl := Except.ok.inj opened
      exact ⟨rfl, rfl, by simp [Connection.listen]⟩

/-- What the rounds of an endpoint did with the messages of the application. -/
structure Conserves (accepted : List Bytes) (log : List (Endpoint × Endpoint.Round))
    (stream : Stream) : Prop where
  /-- What was accepted was taken or waits. -/
  messages_eq : messages log ++ stream.writes = accepted
  /-- Everything that was queued was sent. -/
  sent_eq : stream.endpoint.sent =
    log.flatMap fun entry => entry.1.prompted entry.2 ++ entry.1.fresh entry.2
  /-- What was taken is in segments or pending. -/
  bytes_eq : (messages log).flatten =
    (log.flatMap fun entry => entry.1.fresh entry.2).flatMap Segment.content ++
      stream.endpoint.pending
  /-- The end of writing is known once it was taken. -/
  closed_iff : stream.endpoint.writerClosed = true ↔ ∃ entry ∈ log, entry.2.Closes
  /-- The FIN is queued once the end of writing is known. -/
  regular : stream.endpoint.writerClosed = stream.endpoint.connection.finSeq.isSome
  /-- Every round queues what is due. -/
  queues : ∀ entry ∈ log, entry.1.Queues entry.2
  /-- Behind the end of writing, nothing is taken or queued. -/
  rests : log.Pairwise fun earlier later => earlier.2.Closes →
    later.2.message? = none ∧ later.1.fresh later.2 = []

namespace Conserves

/-- One more round. -/
theorem round (conserves : Conserves accepted log stream) {round : Endpoint.Round}
    {after : Endpoint} (submits : stream.endpoint.Submits round after) {writes : List Bytes}
    (taken : round.message?.toList ++ writes = stream.writes) :
    Conserves accepted (log ++ [(stream.endpoint, round)])
      { stream with endpoint := after, writes } where
  messages_eq := by
    rw [messages_concat, List.append_assoc, taken]
    exact conserves.messages_eq
  sent_eq := by
    rw [List.flatMap_append, ← conserves.sent_eq]
    simpa using submits.sent_eq
  bytes_eq := by
    have message_eq : round.message?.toList.flatten = round.message?.getD [] := by
      cases round.message? <;> simp
    rw [messages_concat, List.flatten_append, conserves.bytes_eq, message_eq, List.append_assoc,
      submits.bytes_eq]
    simp
  closed_iff := by
    have closed : after.writerClosed = true ↔
        stream.endpoint.writerClosed = true ∨ round.Closes := by
      simp [submits.closed_eq]
    simp [closed, conserves.closed_iff, or_and_right, exists_or]
  regular := submits.regular
  queues entry mem := by
    rcases List.mem_append.mp mem with old | new
    · exact conserves.queues entry old
    · obtain rfl := List.mem_singleton.mp new
      exact submits.queues
  rests := by
    rw [List.pairwise_append]
    refine ⟨conserves.rests, List.pairwise_singleton _ _, fun earlier mem later new closes => ?_⟩
    obtain rfl := List.mem_singleton.mp new
    obtain ⟨untaken, -, nothing⟩ := submits.rests (conserves.closed_iff.mpr ⟨earlier, mem, closes⟩)
    exact ⟨untaken, nothing⟩

theorem write (conserves : Conserves accepted log stream) {data : Bytes}
    (taken : (stream.write data).1 = .accepted) :
    Conserves (accepted ++ [data]) log (stream.write data).2 := by
  rw [Stream.write] at taken ⊢
  split at taken
  · cases taken
  split at taken
  · cases taken
  split at taken
  · cases taken
  next writable running room =>
    rw [if_neg writable, if_neg running, if_neg room]
    have messages_eq : messages log ++ (stream.writes ++ [data]) = accepted ++ [data] := by
      rw [← List.append_assoc, conserves.messages_eq]
    exact { conserves with messages_eq }

theorem finishes (conserves : Conserves accepted log stream)
    (closed : stream.endpoint.writerClosed = true) :
    ∃ raw ∈ stream.endpoint.sent, Segment.Finishes raw := by
  obtain ⟨entry, mem, closes⟩ := conserves.closed_iff.mp closed
  obtain ⟨-, fin, carries, fresh_eq⟩ := (conserves.queues entry mem).finishes closes
  refine ⟨fin, ?_, carries.finishes⟩
  rw [conserves.sent_eq, List.mem_flatMap]
  exact ⟨entry, mem, by simp [fresh_eq]⟩

theorem closes (conserves : Conserves accepted log stream) {entry : Endpoint × Endpoint.Round}
    (mem : entry ∈ log) {raw : Bytes} (fresh : raw ∈ entry.1.fresh entry.2)
    (finishes : Segment.Finishes raw) : entry.2.Closes := by
  by_contra stays
  exact ((conserves.queues entry mem).continues stays raw fresh).not_finishes finishes

end Conserves

/-- The messages of the application are conserved as long as the endpoint waits. -/
theorem Served.conserves (initiated : initiate role config isn opening = .ok connection)
    (served : Served connection accepted log stream)
    (waits : stream.endpoint.activity = .running) : Conserves accepted log stream := by
  obtain ⟨arises, goes, -⟩ := arises_of_initiate initiated
  obtain ⟨-, unfinished, bare⟩ := plain_of_initiate initiated
  induction served with
  | start now later failsAfter =>
      have blank : Conserves [] [] { endpoint := { connection } } :=
        ⟨rfl, rfl, rfl, by simp, by simp [unfinished], by simp, .nil⟩
      exact blank.round
        ((Endpoint.Lives.start arises goes).submits goes blank.regular bare (by simp) waits) rfl
  | @write _ _ stream data _ taken ih =>
      obtain ⟨writes, write_eq⟩ := stream.write_eq data
      rw [write_eq] at waits
      exact (ih waits).write taken
  | close _ ih =>
      have conserves := ih waits
      exact { conserves with }
  | @round _ _ _ stream wakeup now later failsAfter served awaits left ih =>
      have running := running_of_awaits awaits
      have conserves := ih running
      obtain ⟨station, lives⟩ := served.lives arises goes (Or.inl running)
      obtain ⟨lives', goes'⟩ := lives.waiting running
      refine conserves.round (lives'.submits goes' conserves.regular ?_ ?_ waits)
        (message_append_writes left rfl)
      · rw [lives'.accords.connection_eq, lives.outbox_eq]
        simp
      · rintro _ ⟨⟩
        exact awaits

theorem Lives.closed_of_finishes (lives : Lives config isn accepted stream station) {raw : Bytes}
    (mem : raw ∈ stream.endpoint.sent) (finishes : Segment.Finishes raw) :
    stream.endpoint.writerClosed = true := by
  have sent : raw ∈ station.sent := by
    rw [Station.sent, lives.outbox_eq, List.append_nil, ← lives.endpoint.accords.sent_eq]
    exact mem
  have known : station.connection.finSeq.isSome = true := by
    obtain ⟨ledger, settled, sound⟩ := lives.endpoint.arises.sound
    by_contra unfinished
    exact sound.not_finishes (by simpa using unfinished) raw sent finishes
  exact (lives.carries.closing (lives.endpoint.arises.closing known)).1

/-- The messages that an endpoint took are in segments or pending, and nothing is behind the FIN. -/
structure Segmented (accepted : List Bytes) (log : List (Endpoint × Endpoint.Round))
    (stream : Stream) : Prop extends Conserves accepted log stream where
  /-- A FIN was queued iff the application finished writing and a round took this when nothing was
  pending. -/
  finished_iff : (∃ raw ∈ stream.endpoint.sent, Segment.Finishes raw) ↔
    stream.writable = false ∧ ∃ entry ∈ log, entry.2.Closes ∧ entry.1.pending = []
  /-- Behind the FIN, nothing is taken or put into segments. -/
  closed : log.Pairwise fun earlier later =>
    (∃ raw ∈ earlier.1.fresh earlier.2, Segment.Finishes raw) →
      later.2.message? = none ∧ later.1.fresh later.2 = []

/-- Whenever an endpoint waits, it put the messages of the application into segments. -/
theorem Served.messages_segmented (initiated : initiate role config isn opening = .ok connection)
    (served : Served connection accepted log stream)
    (waits : stream.endpoint.activity = .running) : Segmented accepted log stream := by
  obtain ⟨arises, goes, -⟩ := arises_of_initiate initiated
  obtain ⟨station, lives⟩ := served.lives arises goes (Or.inl waits)
  have conserves := served.conserves initiated waits
  refine ⟨conserves, ?_, ?_⟩
  · constructor
    · rintro ⟨raw, mem, finishes⟩
      have closed := lives.closed_of_finishes mem finishes
      obtain ⟨entry, mem, closes⟩ := conserves.closed_iff.mp closed
      exact ⟨(lives.carries.writer closed).1, entry, mem, closes,
        ((conserves.queues entry mem).finishes closes).1⟩
    · rintro ⟨-, entry, mem, closes, -⟩
      exact conserves.finishes (conserves.closed_iff.mpr ⟨entry, mem, closes⟩)
  · refine conserves.rests.imp_of_mem fun mem _ rests => ?_
    rintro ⟨raw, fresh, finishes⟩
    exact rests (conserves.closes mem fresh finishes)

/-- Three bytes are written at once and leave in two segments.  When the application finished writing,
the FIN follows them. -/
theorem Served.messages_segmented_farewell :
    ∃ connection log stream, initiate .passive Network.narrow ⟨7⟩ 0 = .ok connection ∧
      Served connection [[66, 67, 68]] log stream ∧ stream.endpoint.activity = .running ∧
      messages log = [[66, 67, 68]] ∧
      (log.flatMap fun entry => entry.1.fresh entry.2) =
        [(Cargo.data [66, 67]).encode ⟨8⟩ ⟨5⟩ 4, (Cargo.data [68]).encode ⟨10⟩ ⟨5⟩ 4,
          Cargo.fin.encode ⟨11⟩ ⟨5⟩ 4] ∧
      (messages log).flatten =
        (log.flatMap fun entry => entry.1.fresh entry.2).flatMap Segment.content ∧
      ∃ raw ∈ stream.endpoint.sent, Segment.Finishes raw := by
  obtain ⟨connection, initiated, log, stream, served, waits, messages_eq, fresh_eq, pending_eq,
      unwritable, closed⟩ :
      ∃ connection, initiate .passive Network.narrow ⟨7⟩ 0 = .ok connection ∧
        ∃ log stream, Served connection [[66, 67, 68]] log stream ∧
          stream.endpoint.activity = .running ∧ messages log = [[66, 67, 68]] ∧
          (log.flatMap fun entry => entry.1.fresh entry.2) =
            [(Cargo.data [66, 67]).encode ⟨8⟩ ⟨5⟩ 4, (Cargo.data [68]).encode ⟨10⟩ ⟨5⟩ 4,
              Cargo.fin.encode ⟨11⟩ ⟨5⟩ 4] ∧
          stream.endpoint.pending = [] ∧ stream.writable = false ∧
          ∃ entry ∈ log, entry.2.Closes ∧ entry.1.pending = [] :=
    ⟨_, rfl, _, _, .round .writerClosed 3 3 none
      (.close (.round (.written [66, 67, 68]) 3 3 none
        (.write [66, 67, 68] (.round (.received (Segment.acknowledgment ⟨5⟩ ⟨8⟩ 4)) 2 2 none
          (.round (.received ((Cargo.syn false).encode ⟨4⟩ ⟨0⟩ 4)) 1 1 none
            (.start 0 0 none) rfl rfl) rfl rfl) rfl) rfl rfl)) rfl rfl,
      rfl, rfl, rfl, rfl, rfl, _, List.mem_append_right _ List.mem_cons_self, rfl, rfl⟩
  have segmented := served.messages_segmented initiated waits
  have bytes_eq := segmented.bytes_eq
  rw [pending_eq, List.append_nil] at bytes_eq
  exact ⟨connection, log, stream, initiated, served, waits, messages_eq, fresh_eq, bytes_eq,
    segmented.finished_iff.mpr ⟨unwritable, closed⟩⟩

end Stream
end ReliableTransport
