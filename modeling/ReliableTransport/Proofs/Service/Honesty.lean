import ReliableTransport.Proofs.Service.Life
import ReliableTransport.Proofs.Service.Reporting
import ReliableTransport.Proofs.Station.Accounts

/-!
# Acknowledgments and a carrier that fails

An endpoint sends what is due before it tells the application anything.  Whatever it acknowledged is
told when the round is over, unless the carrier fails in the middle of it: then an acknowledgment may
have left for events that nobody hears of.
-/

namespace ReliableTransport

namespace Endpoint

/-- The SYN of the peer arrives, which tells the initial position of its stream. -/
def Round.Introduces (round : Round) (irs : SeqNum) : Prop :=
  ∃ raw segment, round.wakeup = some (.received raw) ∧
    Segment.decode (raw.take receiveLimit) = .ok segment ∧
    segment.header.flags.syn = true ∧ segment.header.seq = irs

/-- A FIN arrives again. -/
def Overruns (endpoint : Endpoint) (round : Round) : Prop :=
  ∃ raw, round.wakeup = some (.received raw) ∧
    endpoint.connection.Overruns (raw.take receiveLimit)

end Endpoint

namespace Station

variable {config : Config} {isn irs : SeqNum} {station middle later : Station}
  {round : Endpoint.Round} {known : SeqNum → Prop}

theorem Heeds.arises (heeds : station.Heeds round later) (arises : Arises config isn station) :
    Arises config isn later := by
  cases heeds with
  | idle => exact arises
  | receive _ done | expire _ done => exact arises.undergo done

theorem Mute.heeds (mute : station.Mute) (arises : Arises config isn station)
    (heeds : station.Heeds round later) :
    later.Mute ∨ ∃ irs, round.Introduces irs ∧ later.Accounts irs := by
  cases heeds with
  | idle => exact Or.inl mute
  | receive woken done =>
      rcases mute.accounts_of_undergo arises done with
        still | ⟨raw, segment, same, decoded, flagged, accounts⟩
      · exact Or.inl still
      · obtain rfl := Connection.Operation.receive.inj (Occurrence.operate.inj same)
        exact Or.inr ⟨_, ⟨_, segment, woken, decoded, flagged, rfl⟩, accounts⟩
  | expire _ done =>
      rcases mute.accounts_of_undergo arises done with still | ⟨_, _, same, -⟩
      · exact Or.inl still
      · cases Occurrence.operate.inj same

theorem Accounts.heeds (accounts : station.Accounts irs) (arises : Arises config isn station)
    (heeds : station.Heeds round later)
    (single : ∀ raw, round.wakeup = some (.received raw) →
      ¬ station.connection.Overruns (raw.take Endpoint.receiveLimit)) : later.Accounts irs := by
  cases heeds with
  | idle => exact accounts
  | receive woken done =>
      refine accounts.undergo arises done fun raw same => ?_
      obtain rfl := Connection.Operation.receive.inj (Occurrence.operate.inj same)
      exact single _ woken
  | expire _ done =>
      exact accounts.undergo arises done fun raw same => by cases Occurrence.operate.inj same

/-- An end is mute, or it keeps accounts from a position that is known. -/
inductive Stands (known : SeqNum → Prop) (station : Station) : Prop
  /-- The peer is unknown. -/
  | mute : station.Mute → Stands known station
  /-- The peer was introduced. -/
  | accounts {irs : SeqNum} : known irs → station.Accounts irs → Stands known station

theorem Stands.mono {more : SeqNum → Prop} (stands : station.Stands known)
    (knows : ∀ irs, known irs → more irs) : station.Stands more := by
  cases stands with
  | mute mute => exact .mute mute
  | accounts introduced accounts => exact .accounts (knows _ introduced) accounts

/-- An end goes on mute or with its accounts, which cover what was sent before by what was told
before. -/
inductive Proceeds (known : SeqNum → Prop) (station later : Station) : Prop
  /-- The peer is unknown. -/
  | mute : later.Mute → Proceeds known station later
  /-- The peer was introduced. -/
  | accounts {irs : SeqNum} : known irs → later.Accounts irs →
      (∀ raw ∈ station.sent, Segment.Backed irs station.events raw) →
      Proceeds known station later

theorem Proceeds.stands (proceeds : Proceeds known station later) : later.Stands known := by
  cases proceeds with
  | mute mute => exact .mute mute
  | accounts introduced accounts _ => exact .accounts introduced accounts

/-- An end goes on like this in every round, unless a FIN arrives again. -/
theorem Stands.proceeds (stands : station.Stands known) (arises : Arises config isn station)
    {endpoint : Endpoint} (connection_eq : endpoint.connection = station.connection)
    (single : ¬ endpoint.Overruns round) (heeds : station.Heeds round middle)
    (becomes : Becomes [] middle later) :
    Proceeds (fun irs => known irs ∨ round.Introduces irs) station later := by
  have between := heeds.arises arises
  cases stands with
  | mute mute =>
      rcases mute.heeds arises heeds with still | ⟨irs, introduces, accounts⟩
      · exact .mute (still.becomes between becomes)
      · exact .accounts (Or.inr introduces) (accounts.becomes between becomes)
          fun raw mem => (mute.plain raw mem).backed _ _
  | accounts introduced accounts =>
      have once : ∀ raw, round.wakeup = some (.received raw) →
          ¬ station.connection.Overruns (raw.take Endpoint.receiveLimit) := by
        rw [← connection_eq]
        exact fun raw received overruns => single ⟨raw, received, overruns⟩
      exact .accounts (Or.inl introduced)
        ((accounts.heeds arises heeds once).becomes between becomes) accounts.backed

end Station

theorem StreamEvent.ofAppEvent_injective : Function.Injective ofAppEvent := by
  intro first second same
  cases first <;> cases second <;> cases same <;> rfl

namespace Endpoint

variable {config : Config} {isn : SeqNum} {endpoint middle after : Endpoint} {station : Station}
  {round : Round} {known more : SeqNum → Prop}

/-- The events of an endpoint are those of its connection, with a failure at most behind them. -/
def Tells (endpoint : Endpoint) (told : List AppEvent) : Prop :=
  endpoint.events = told.map .ofAppEvent ∨
    ∃ failure, endpoint.events = told.map .ofAppEvent ++ [.aborted failure]

/-- What an endpoint acknowledged by the end of a round, compared with what it told. -/
inductive Settles (known : SeqNum → Prop) (endpoint : Endpoint) (round : Round)
    (after : Endpoint) : Prop
  /-- It acknowledged nothing. -/
  | mute : (∀ raw ∈ after.sent, Segment.IsPlainSyn raw) → Settles known endpoint round after
  /-- It acknowledged what it told and what its connection holds, which is nothing unless the
  carrier failed in this round. -/
  | accounts {irs : SeqNum} {told : List AppEvent} : known irs → after.Tells told →
      (∀ raw ∈ after.sent, Segment.Backed irs (told ++ after.connection.events) raw) →
      (after.connection.events ≠ [] → endpoint.CarrierFails round ∧
        ∀ raw ∈ endpoint.sent, Segment.Backed irs told raw) →
      Settles known endpoint round after

theorem Settles.mono (settles : Settles known endpoint round after)
    (knows : ∀ irs, known irs → more irs) : Settles more endpoint round after := by
  cases settles with
  | mute plain => exact .mute plain
  | accounts introduced tells backed held => exact .accounts (knows _ introduced) tells backed held

theorem fail_tells (endpoint : Endpoint) {told : List AppEvent}
    (events_eq : endpoint.events = told.map .ofAppEvent) (failure : Failure) :
    (endpoint.fail failure).Tells told ∧ (endpoint.fail failure).sent = endpoint.sent ∧
      (endpoint.fail failure).connection.events = endpoint.connection.events := by
  cases opened : endpoint.opened with
  | none =>
      rw [fail_of_untold opened]
      exact ⟨Or.inl events_eq, rfl, rfl⟩
  | some answer =>
      rw [fail_of_told opened]
      exact ⟨Or.inr ⟨failure, by rw [events_eq]⟩, rfl, rfl⟩

theorem events_of_segmented {awake : Endpoint}
    (heeded : endpoint.heed round = .ok (.ok (), awake)) {now : Nat}
    (segmented : awake.segmentPending now = .ok middle) : middle.events = endpoint.events := by
  obtain ⟨_, -, rfl⟩ := heed_cases heeded
  obtain ⟨_, _, rfl, -⟩ := segmentPending_cases segmented
  rfl

theorem Accords.settles_handed {later : Station} (accords : middle.Accords later)
    (proceeds : Station.Proceeds known station later) (activity : Activity) :
    Settles known endpoint round { middle.handed with activity } := by
  cases proceeds with
  | mute mute =>
      refine .mute ?_
      rw [handed_eq, accords.sent_eq, accords.connection_eq]
      exact mute.plain
  | accounts introduced accounts _ =>
      rw [handed_eq, accords.sent_eq, accords.events_eq, accords.connection_eq, ← List.map_append]
      refine .accounts introduced (Or.inl rfl) ?_ (absurd rfl)
      rw [List.append_nil]
      exact accounts.backed

theorem Accords.settles_cut {later : Station} (accords : middle.Accords later)
    (proceeds : Station.Proceeds known station later) (carrier : endpoint.CarrierFails round)
    (told_eq : later.heard = station.heard) (quiet : station.connection.events = [])
    (sent_eq : endpoint.sent = station.wire) (count : Nat) (failure : Failure) :
    Settles known endpoint round ((middle.cut count).fail failure) := by
  obtain ⟨tells, accepted_eq, held_eq⟩ := (middle.cut count).fail_tells accords.events_eq failure
  have accepted {raw : Bytes} (mem : raw ∈ ((middle.cut count).fail failure).sent) :
      raw ∈ later.sent := by
    rw [accepted_eq, cut, accords.sent_eq, accords.connection_eq] at mem
    exact (List.mem_append.mp mem).elim (List.mem_append_left _)
      fun mem => List.mem_append_right _ (List.mem_of_mem_take mem)
  cases proceeds with
  | mute mute => exact .mute fun raw mem => mute.plain raw (accepted mem)
  | accounts introduced accounts before =>
      refine .accounts introduced tells (fun raw mem => ?_) fun _ => ⟨carrier, fun raw mem => ?_⟩
      · rw [held_eq, cut, accords.connection_eq]
        exact accounts.backed raw (accepted mem)
      · rw [sent_eq] at mem
        have backed := before raw (Station.mem_sent_of_mem_wire mem)
        rwa [Station.events, quiet, List.append_nil, ← told_eq] at backed

theorem Accords.settles_expired (accords : endpoint.Accords station)
    (stands : station.Stands known) (quiet : station.connection.events = []) {failure : Failure}
    {failed : Endpoint} (heeded : endpoint.heed round = .ok (.error failure, failed)) :
    Settles known endpoint round (failed.fail failure) := by
  obtain ⟨connection, operated, rfl⟩ := heed_cases heeded
  have held_eq : connection.events = [] := by
    rcases Round.operate_cases operated with ⟨failed, -⟩ | ⟨failed, -⟩ | ⟨-, expired⟩
    · cases failed
    · cases failed
    · rw [(Connection.expire_rests expired).events_eq, accords.connection_eq, quiet]
  obtain ⟨tells, accepted_eq, held_eq'⟩ := fail_tells
    { endpoint with
      connection
      pending := (round.wakeup.elim endpoint endpoint.taking).pending
      writerClosed := (round.wakeup.elim endpoint endpoint.taking).writerClosed }
    accords.events_eq failure
  have accepted {raw : Bytes} (mem : raw ∈ endpoint.sent) : raw ∈ station.sent :=
    Station.mem_sent_of_mem_wire (accords.sent_eq ▸ mem)
  have held_eq := held_eq'.trans held_eq
  cases stands with
  | mute mute => exact .mute fun raw mem => mute.plain raw (accepted (accepted_eq ▸ mem))
  | accounts introduced accounts =>
      refine .accounts introduced tells (fun raw mem => ?_) fun held => absurd held_eq held
      have backed := accounts.backed raw (accepted (accepted_eq ▸ mem))
      rwa [Station.events, quiet, ← held_eq] at backed

/-- Whatever becomes of a round, what was acknowledged is told, unless the carrier fails in it. -/
theorem Lives.settles (lives : endpoint.Lives config isn station)
    (goes : station.connection.phase ≠ .terminated) (quiet : station.connection.events = [])
    (stands : station.Stands known) (single : ¬ endpoint.Overruns round)
    (intact : ∀ fault, (endpoint.serve round).activity ≠ .crashed fault) :
    Settles (fun irs => known irs ∨ round.Introduces irs) endpoint round
      (endpoint.serve round) := by
  have accords := lives.accords
  have turns {awake middle : Endpoint} (heeded : endpoint.heed round = .ok (.ok (), awake))
      (segmented : awake.segmentPending round.later = .ok middle) :
      ∃ later, middle.Accords later ∧
        Station.Proceeds (fun irs => known irs ∨ round.Introduces irs) station later := by
    obtain ⟨woken, lives', heeds⟩ := lives.heed goes heeded
    obtain ⟨later, lives'', becomes, -⟩ := lives'.segmentPending segmented
    exact ⟨later, lives''.accords,
      stands.proceeds lives.arises accords.connection_eq single heeds becomes⟩
  have ends := ends_serve endpoint round
  generalize endpoint.serve round = after at ends intact ⊢
  cases ends with
  | expires heeded =>
      exact (accords.settles_expired stands quiet heeded).mono fun _ => Or.inl
  | @fails awake middle count heeded segmented fails short =>
      obtain ⟨later, accords', proceeds⟩ := turns heeded segmented
      refine accords'.settles_cut proceeds ⟨_, _, _, heeded, segmented, fails, short⟩ ?_ quiet
        accords.sent_eq count _
      refine StreamEvent.ofAppEvent_injective.list_map ?_
      rw [← accords'.events_eq, events_of_segmented heeded segmented, accords.events_eq]
  | finishes heeded segmented _ =>
      obtain ⟨later, accords', proceeds⟩ := turns heeded segmented
      exact accords'.settles_handed proceeds _
  | @waits _ middle heeded segmented _ =>
      obtain ⟨later, accords', proceeds⟩ := turns heeded segmented
      exact accords'.settles_handed proceeds middle.handed.activity
  | crashes stopped => exact absurd stopped (intact _)

end Endpoint

theorem Stream.mute_of_initiate {role : Role} {config : Config} {isn : SeqNum} {now : Nat}
    {connection : Connection} (initiated : initiate role config isn now = .ok connection) :
    Station.Mute { connection } := by
  obtain ⟨created, created_eq, -⟩ := Fault.exists_of_bind_eq_ok initiated
  obtain ⟨after, initiated', -, becomes⟩ := initiate_spec created_eq role now []
  obtain rfl := Except.ok.inj (initiated.symm.trans initiated')
  exact (Station.Mute.create created_eq).becomes ⟨created, [], created_eq, rfl⟩ becomes

namespace Stream.Served

open Endpoint Script

variable {role : Role} {config : Config} {isn : SeqNum} {opening : Nat} {connection : Connection}
  {accepted : List Bytes} {log : List (Endpoint × Endpoint.Round)} {stream : Stream}

/-- The SYN of the peer arrived in some round. -/
def Introduced (log : List (Endpoint × Endpoint.Round)) (irs : SeqNum) : Prop :=
  ∃ entry ∈ log, entry.2.Introduces irs

theorem Introduced.of_concat {endpoint : Endpoint} {round : Endpoint.Round} {irs : SeqNum}
    (known : Introduced log irs ∨ round.Introduces irs) :
    Introduced (log ++ [(endpoint, round)]) irs := by
  rcases known with ⟨entry, mem, introduces⟩ | introduces
  · exact ⟨entry, List.mem_append_left _ mem, introduces⟩
  · exact ⟨_, List.mem_append_right _ List.mem_cons_self, introduces⟩

/-- A served stream does what an end with any peer does, which is mute or keeps accounts as long as
no FIN arrives again. -/
theorem stands (arises : Station.Arises config isn { connection })
    (goes : connection.phase ≠ .terminated) (mute : Station.Mute { connection })
    (served : Served connection accepted log stream) (kept : stream.Kept)
    (single : ∀ entry ∈ log, ¬ entry.1.Overruns entry.2) :
    ∃ station, Lives config isn accepted stream station ∧ station.Stands (Introduced log) := by
  obtain ⟨station, lives, stands⟩ := served.lives_induction
    (fun log station => (∀ entry ∈ log, ¬ entry.1.Overruns entry.2) →
      station.Stands (Introduced log)) arises goes
    (fun becomes _ => .mute (mute.becomes arises becomes))
    (fun stands arises connection_eq heeds becomes single =>
      have before := stands fun entry mem => single entry (List.mem_append_left _ mem)
      have once := single _ (List.mem_append_right _ List.mem_cons_self)
      (before.proceeds arises connection_eq once heeds becomes).stands.mono
        fun _ => Introduced.of_concat) kept
  exact ⟨station, lives, stands single⟩

/-- The last round of a served stream settles what was acknowledged. -/
theorem settles (initiated : initiate role config isn opening = .ok connection)
    (served : Served connection accepted log stream)
    (intact : ∀ fault, stream.endpoint.activity ≠ .crashed fault)
    (single : ∀ entry ∈ log, ¬ entry.1.Overruns entry.2) :
    ∃ earlier endpoint round, log = earlier ++ [(endpoint, round)] ∧
      Settles (Introduced log) endpoint round stream.endpoint := by
  obtain ⟨arises, goes, silent⟩ := arises_of_initiate initiated
  have mute := mute_of_initiate initiated
  induction served with
  | start now later failsAfter =>
      refine ⟨[], _, _, rfl, ?_⟩
      have stands : Station.Stands (Introduced []) { connection } := .mute mute
      have settles := (Endpoint.Lives.start arises goes).settles goes silent stands
        (single _ List.mem_cons_self) intact
      exact settles.mono fun _ => Introduced.of_concat
  | @write _ _ stream data _ _ ih =>
      obtain ⟨writes, write_eq⟩ := stream.write_eq data
      rw [write_eq] at intact ⊢
      exact ih intact single
  | close _ ih => exact ih intact single
  | @round _ _ log stream wakeup now later failsAfter served awaits _ _ =>
      have running := running_of_awaits awaits
      obtain ⟨station, lives, stands⟩ := served.stands arises goes mute (Or.inl running)
        fun entry mem => single entry (List.mem_append_left _ mem)
      obtain ⟨endpoint, goes'⟩ := lives.waiting running
      refine ⟨log, _, _, rfl, ?_⟩
      have settles := endpoint.settles goes' lives.events_eq stands
        (single _ (List.mem_append_right _ List.mem_cons_self)) intact
      exact settles.mono fun _ => Introduced.of_concat

/-- If the FIN of its peer arrived at most once, an endpoint acknowledged only what the application
was told before any failure, unless the carrier failed behind the last acknowledgment. -/
theorem acknowledged_told (initiated : initiate role config isn opening = .ok connection)
    (served : Served connection accepted log stream) {result : Except Failure Unit}
    (returned : stream.endpoint.activity = .finished result)
    (single : ∀ entry ∈ log, ¬ entry.1.Overruns entry.2) :
    (∀ raw ∈ stream.endpoint.sent, Segment.IsPlainSyn raw) ∨
    ∃ irs told, (∃ entry ∈ log, entry.2.Introduces irs) ∧
      (stream.endpoint.events = told.map .ofAppEvent ∨
        ∃ failure, stream.endpoint.events = told.map .ofAppEvent ++ [.aborted failure]) ∧
      (∀ raw ∈ stream.endpoint.sent,
        Segment.Backed irs (told ++ stream.endpoint.connection.events) raw) ∧
      (stream.endpoint.connection.events ≠ [] →
        ∃ earlier endpoint round, log = earlier ++ [(endpoint, round)] ∧
          endpoint.CarrierFails round ∧ ∀ raw ∈ endpoint.sent, Segment.Backed irs told raw) := by
  obtain ⟨earlier, endpoint, round, log_eq, settles⟩ :=
    served.settles initiated (by simp [returned]) single
  cases settles with
  | mute plain => exact Or.inl plain
  | accounts introduced tells backed held =>
      exact Or.inr ⟨_, _, introduced, tells, backed,
        fun holds => ⟨earlier, endpoint, round, log_eq, held holds⟩⟩

/-- A byte arrives and is told, and the carrier fails when the next data is due. -/
theorem acknowledged_told_aborted :
    ∃ connection log stream irs, initiate .passive Network.narrow ⟨7⟩ 0 = .ok connection ∧
      Served connection [[66]] log stream ∧
      stream.endpoint.activity = .finished (.error .aborted) ∧
      (∃ entry ∈ log, entry.2.Introduces irs) ∧
      Segment.acknowledgment ⟨8⟩ ⟨6⟩ 4 ∈ stream.endpoint.sent ∧
      stream.endpoint.events = [.data [65], .aborted .aborted] ∧
      ∀ raw ∈ stream.endpoint.sent, Segment.Backed irs [.data [65]] raw := by
  obtain ⟨connection, initiated, log, stream, served, ended, answered, acknowledged, events_eq,
    held_eq, single⟩ :
      ∃ connection, initiate .passive Network.narrow ⟨7⟩ 0 = .ok connection ∧
        ∃ log stream, Served connection [[66]] log stream ∧
          stream.endpoint.activity = .finished (.error .aborted) ∧
          (Cargo.syn true).encode ⟨7⟩ ⟨5⟩ 4 ∈ stream.endpoint.sent ∧
          Segment.acknowledgment ⟨8⟩ ⟨6⟩ 4 ∈ stream.endpoint.sent ∧
          stream.endpoint.events = [.data [65], .aborted .aborted] ∧
          stream.endpoint.connection.events = [] ∧
          ∀ entry ∈ log, entry.1.connection.phase.peerFinished = false :=
    ⟨_, rfl, _, _, .round (.written [66]) 3 3 (some 0)
      (.write [66] (.round (.received ((Cargo.data [65]).encode ⟨5⟩ ⟨8⟩ 4)) 2 2 none
        (.round (.received ((Cargo.syn false).encode ⟨4⟩ ⟨0⟩ 4)) 1 1 none
          (.start 0 0 none) rfl rfl) rfl rfl) rfl) rfl rfl, rfl, by decide, by decide, rfl, rfl,
      by decide⟩
  have once : ∀ entry ∈ log, ¬ entry.1.Overruns entry.2 := by
    rintro entry mem ⟨_, -, finished, -⟩
    rw [single entry mem] at finished
    cases finished
  rcases served.acknowledged_told initiated ended once with
    plain | ⟨irs, told, introduced, tells, backed, -⟩
  · have flags_eq := (plain _ answered).flags_eq (Cargo.decode_encode ..)
    cases flags_eq
  rw [held_eq, List.append_nil] at backed
  rw [events_eq] at tells
  obtain rfl : told = [.data [65]] := by
    rcases tells with same | ⟨failure, same⟩
    · have unfailed : Unfailed ([] ++ told.map .ofAppEvent) := Unfailed.append (by simp [Unfailed]) _
      exact absurd (by simp [← same]) (unfailed .aborted)
    · obtain ⟨same, -⟩ := List.append_inj' (show [StreamEvent.data [65]] ++ _ = _ from same) rfl
      exact StreamEvent.ofAppEvent_injective.list_map same.symm
  exact ⟨connection, log, stream, irs, initiated, served, ended, introduced, acknowledged,
    events_eq, backed⟩

/-- The carrier accepts the acknowledgment of a byte and fails at the segment behind it, so that the
byte is not told.  A FIN that arrives twice is acknowledged twice and told once. -/
theorem acknowledged_untold :
    (∃ connection log stream, initiate .passive Network.narrow ⟨7⟩ 0 = .ok connection ∧
      Served connection [[66, 67]] log stream ∧ (∃ entry ∈ log, entry.2.Introduces ⟨4⟩) ∧
      (∃ entry ∈ log,
        entry.2.wakeup = some (.received ((Cargo.data [65]).encode ⟨5⟩ ⟨8⟩ 4))) ∧
      stream.endpoint.activity = .finished (.error .aborted) ∧
      Segment.acknowledgment ⟨8⟩ ⟨6⟩ 4 ∈ stream.endpoint.sent ∧
      stream.endpoint.events = [.aborted .aborted]) ∧
    ∃ connection log stream, initiate .passive Network.narrow ⟨7⟩ 0 = .ok connection ∧
      Served connection [[66, 67]] log stream ∧ (∃ entry ∈ log, entry.2.Introduces ⟨4⟩) ∧
      stream.endpoint.activity = .finished (.error .aborted) ∧
      Segment.acknowledgment ⟨8⟩ ⟨7⟩ 4 ∈ stream.endpoint.sent ∧
      stream.endpoint.events = [.peerFinished, .aborted .aborted] := by
  have introduces {now later : Nat} {failsAfter : Option Nat} : Endpoint.Round.Introduces
      ⟨some (.received ((Cargo.syn false).encode ⟨4⟩ ⟨0⟩ 4)), now, later, failsAfter⟩ ⟨4⟩ :=
    ⟨_, _, rfl, rfl, rfl, rfl⟩
  constructor
  · exact ⟨_, _, _, rfl, .round (.received ((Cargo.data [65]).encode ⟨5⟩ ⟨8⟩ 4)) 4 4 (some 1)
      (.round (.written [66, 67]) 3 3 none
        (.write [66, 67] (.round (.received (Segment.acknowledgment ⟨5⟩ ⟨8⟩ 0)) 2 2 none
          (.round (.received ((Cargo.syn false).encode ⟨4⟩ ⟨0⟩ 4)) 1 1 none
            (.start 0 0 none) rfl rfl) rfl rfl) rfl) rfl rfl) rfl rfl,
      ⟨_, List.mem_of_getElem? (i := 1) rfl, introduces⟩,
      ⟨_, List.mem_of_getElem? (i := 4) rfl, rfl⟩, rfl, by decide, rfl⟩
  · exact ⟨_, _, _, rfl, .round (.written [66, 67]) 4 4 (some 0)
      (.write [66, 67] (.round (.received (Cargo.fin.encode ⟨6⟩ ⟨8⟩ 4)) 3 3 none
        (.round (.received (Cargo.fin.encode ⟨5⟩ ⟨8⟩ 4)) 2 2 none
          (.round (.received ((Cargo.syn false).encode ⟨4⟩ ⟨0⟩ 4)) 1 1 none
            (.start 0 0 none) rfl rfl) rfl rfl) rfl rfl) rfl) rfl rfl,
      ⟨_, List.mem_of_getElem? (i := 1) rfl, introduces⟩, rfl, by decide, rfl⟩

end Stream.Served
end ReliableTransport
