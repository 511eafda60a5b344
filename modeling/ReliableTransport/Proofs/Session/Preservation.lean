import ReliableTransport.Proofs.Session.Mirror

/-!
# Whatever happens is part of what a network does

Each occurrence concerns one end, which goes on by moves of a network.  So every chronicle tells what
a coherent network did, as long as the script of neither end is played by somebody else.
-/

namespace ReliableTransport

open Fault Session

theorem Stream.start_spec {opening : Opening} (valid : opening.config.Valid)
    {connection : Connection}
    (created : Connection.create opening.config opening.isn = .ok connection)
    (incoming : List Bytes) (now turning : Nat) (failsAfter : Option Nat) :
    ∃ stream later,
      start opening.role opening.config opening.isn now turning failsAfter = .ok stream ∧
      Station.Becomes incoming { connection } later ∧ stream.Mirrors later [] ∧ stream.Reads [] ∧
      stream.writable = true ∧ stream.endpoint.activity ≠ .abandoned := by
  obtain ⟨opened, initiated, goes, becomes⟩ := initiate_spec created opening.role now incoming
  have arises : Station.Arises opening.config opening.isn { connection := opened } :=
    becomes.arises ⟨connection, [], created, rfl⟩
  have accords : Endpoint.Accords { connection := opened } { connection := opened } :=
    ⟨rfl, rfl, rfl, rfl, fun past => absurd past goes⟩
  obtain ⟨later, becomes', advances⟩ := accords.turn arises turning failsAfter
  have advances : Endpoint.Advances { connection := opened }
      (Endpoint.start opened turning failsAfter) { connection := opened } later := advances
  refine ⟨{ endpoint := Endpoint.start opened turning failsAfter }, later, ?_, becomes.trans becomes',
    ⟨advances.mirrors, ?_, fun known => ?_, fun closes => ?_⟩,
    ⟨Nat.zero_le _, rfl, by simp, by simp, by simp, by simp⟩, rfl, advances.kept⟩
  · simp only [start, show opening.config.validate = _ from valid, initiated]
  · simpa using advances.bytes_eq
  · rw [advances.writerClosed_eq] at known
    cases known
  · rcases advances.closing closes with already | ⟨known, -⟩
    · cases already
    · rw [advances.writerClosed_eq] at known
      cases known

namespace Chronicle

variable {chronicle : Chronicle} {openings : Side → Opening} {network : Network} {side : Side}
  {entry : Occurrence × Answer}

namespace Mirrors

/-- An occurrence that concerns no stream. -/
theorem still (mirrors : chronicle.Mirrors openings network) (side : Side) {after : Session}
    (seats : ∀ actor, after.seat? actor = chronicle.session.seat? actor)
    (inboxes : ∀ actor, (after.link.interface actor).inbox =
      (chronicle.session.link.interface actor).inbox)
    (silent : ∀ actor, Silent actor entry) :
    chronicle.Affects openings network side (network.station side) entry after where
  becomes := .refl _
  place := by
    rw [seats]
    exact (silent side).place (mirrors.place side)
  stirs stream known := by
    rw [stream?, seats] at known
    exact .stay known
  others := seats side.other
  carries := ⟨fun raw mem => Or.inl (inboxes _ ▸ mem), fun raw mem => inboxes _ ▸ mem⟩
  silent := silent side.other

theorem put {seat : Seat} (seat_eq : chronicle.session.seat? side = some seat) {middle : Session}
    (seats : ∀ actor, middle.seat? actor = chronicle.session.seat? actor)
    {stream : Stream} {later : Station}
    (carries : chronicle.session.Carries middle side stream.endpoint.sent)
    (becomes : (network.station side).Becomes (network.station side.other).wire later)
    (fits : Seat.Fits { seat with stream := some stream } stream later
      (chronicle.written side ++ writtenAt side entry)
      (chronicle.outcomes side ++ outcomesAt side entry)
      (chronicle.finishedWriting side || finishesAt side entry))
    (stirs : chronicle.session.Stirs (openings side) side middle.now stream.endpoint)
    (silent : Silent side.other entry) :
    chronicle.Affects openings network side later entry (middle.putStream side stream) := by
  obtain ⟨put_eq, others, carries'⟩ := putStream_spec ((seats side).trans seat_eq) stream
  refine .of_fits becomes fits put_eq ?_ (others.trans (seats side.other))
    (carries.trans carries') silent
  rwa [now_putStream]

theorem exists_fits (mirrors : chronicle.Mirrors openings network) {stream : Stream}
    (known : chronicle.session.stream? side = some stream) :
    ∃ seat, chronicle.session.seat? side = some seat ∧
      seat.Fits stream (network.station side) (chronicle.written side) (chronicle.outcomes side)
        (chronicle.finishedWriting side) := by
  obtain ⟨seat, seat_eq, stream_eq⟩ := Option.bind_eq_some_iff.mp known
  have place := mirrors.place side
  rw [seat_eq] at place
  obtain ⟨same, fits⟩ := place.of_some
  obtain rfl := Option.some.inj (stream_eq.symm.trans fits.stream_eq)
  exact ⟨seat, seat_eq, fits⟩

/-- An endpoint moved. -/
theorem move (mirrors : chronicle.Mirrors openings network) {stream after : Stream}
    (known : chronicle.session.stream? side = some stream) {middle : Session}
    (seats : ∀ actor, middle.seat? actor = chronicle.session.seat? actor)
    (carries : ∀ sent, chronicle.session.Carries middle side sent)
    (moved : ∀ station written, stream.Mirrors station written →
      Station.Arises (openings side).config (openings side).isn station →
      ∃ later, station.Becomes (network.station side.other).wire later ∧
        after.Mirrors later written ∧ stream.Advances after)
    (stirs : chronicle.session.Stirs (openings side) side middle.now after.endpoint)
    (silent : ∀ actor, Silent actor entry) :
    ∃ later, chronicle.Affects openings network side later entry (middle.putStream side after) := by
  obtain ⟨seat, seat_eq, fits⟩ := mirrors.exists_fits known
  obtain ⟨later, becomes, mirrors', advances⟩ := moved _ _ fits.mirrors (mirrors.arises side)
  have fits' := (silent side).fits (fits.advance mirrors' advances)
  exact ⟨later, put seat_eq seats (carries _) becomes fits' stirs (silent side.other)⟩

theorem arrives (mirrors : chronicle.Mirrors openings network)
    (valid : ∀ side, (openings side).config.Valid) {raw : Bytes}
    (waits : raw ∈ (chronicle.session.link.interface side).inbox) :
    raw ∈ (network.station side.other).wire ∧ raw.length ≤ Endpoint.receiveLimit := by
  rw [← side.other_other] at waits
  have sent := mirrors.carried side.other raw waits
  obtain ⟨ledger, settled, sound⟩ := (mirrors.arises side.other).sound
  refine ⟨sent, (sound.length_le (List.mem_append_left _ sent)).trans ?_⟩
  have size_le := ((Config.valid_iff _).mp (valid side.other)).2.1
  exact (Nat.add_le_add_left size_le Segment.fixedLength).trans (by decide)

/-- An endpoint moved because of what it waited for. -/
theorem turn (mirrors : chronicle.Mirrors openings network)
    (valid : ∀ side, (openings side).config.Valid) (side : Side) (trigger : Trigger)
    (pause : Nat) (failsAfter : Option Nat) (silent : ∀ actor, Silent actor entry) :
    ∃ later, chronicle.Affects openings network side later entry
      (chronicle.session.turn side trigger pause failsAfter) := by
  have idle : ∃ later, chronicle.Affects openings network side later entry chronicle.session :=
    ⟨_, mirrors.still side (fun _ => rfl) (fun _ => rfl) silent⟩
  rw [Session.turn]
  split
  · exact idle
  next stream known =>
    cases trigger with
    | write =>
        exact mirrors.move known (seat?_pass chronicle.session pause)
          (fun sent => (Carries.refl _ side sent).pass pause)
          (fun _ _ mirrors' arises => mirrors'.takeWrite arises _ _ failsAfter)
          (stirs_takeWrite (openings side) known _ failsAfter) silent
    | timer =>
        exact mirrors.move known (seat?_pass chronicle.session pause)
          (fun sent => (Carries.refl _ side sent).pass pause)
          (fun _ _ mirrors' arises => mirrors'.wake arises (by simp) rfl _ _ failsAfter)
          (stirs_wake (openings side) known (by simp) _ failsAfter) silent
    | segment =>
        simp only
        split
        · exact idle
        next wakeup next =>
          split
          · obtain ⟨waits, unwritten⟩ := nextReceipt?_spec next stream.endpoint
            exact mirrors.move known (fun actor => by simp)
              (fun sent => (carries_discardNext chronicle.session side sent).pass pause)
              (fun _ _ mirrors' arises => mirrors'.wake arises
                (fun raw same => mirrors.arrives valid (waits raw same)) unwritten _ _ failsAfter)
              (stirs_wake (openings side) known waits _ failsAfter) silent
          · exact idle

/-- A stream is opened. -/
theorem join (mirrors : chronicle.Mirrors openings network)
    (valid : ∀ side, (openings side).config.Valid)
    (vacant : chronicle.session.seat? side = none) (pause : Nat)
    (silent : ∀ actor, Silent actor entry) :
    ∃ later, chronicle.Affects openings network side later entry
      (chronicle.session.join side (openings side).role (openings side).config
        (openings side).isn pause) := by
  have place := mirrors.place side
  rw [vacant] at place
  obtain ⟨connection, created, station_eq, written_eq, outcomes_eq, finished_eq⟩ := place.of_none
  obtain ⟨stream, later, started, becomes, mirrors', reads, writable, kept⟩ :=
    Stream.start_spec (valid side) created (network.station side.other).wire chronicle.session.now
      (chronicle.session.now + pause) (chronicle.session.link.failsAfter side)
  obtain ⟨seat_eq, others, carries, now_eq⟩ := join_spec started
  have fits : Seat.Fits { stream := some stream, hold := .opening } stream later [] [] false :=
    ⟨rfl, mirrors', reads, fun past => by simp [writable] at past,
      fun ready => Hold.noConfusion ready, fun gone => absurd gone kept⟩
  obtain ⟨opened, initiated, stream_eq⟩ := Stream.start_cases started
  have stirs : chronicle.session.Stirs (openings side) side (chronicle.session.now + pause)
      stream.endpoint := by
    rw [stream_eq]
    exact .start _ initiated
  refine ⟨later, .of_fits (station_eq ▸ becomes) ((silent side).fits ?_) seat_eq
    (now_eq ▸ stirs) others carries (silent side.other)⟩
  rw [written_eq, outcomes_eq, finished_eq]
  exact fits

theorem use (mirrors : chronicle.Mirrors openings network) (side : Side) {action : Action}
    {use : Stream → Answer × Stream}
    (used : ∀ (seat : Seat) (stream : Stream),
      seat.Fits stream (network.station side) (chronicle.written side) (chronicle.outcomes side)
        (chronicle.finishedWriting side) → seat.hold = .ready →
      Seat.Fits { seat with stream := some (use stream).2 } (use stream).2 (network.station side)
        (chronicle.written side ++ writtenAt side (.perform action, (use stream).1))
        (chronicle.outcomes side ++ outcomesAt side (.perform action, (use stream).1))
        (chronicle.finishedWriting side || finishesAt side (.perform action, (use stream).1)))
    (still : ∀ stream, (use stream).2.endpoint = stream.endpoint)
    (unused : ∀ actor, Silent actor (.perform action, .noStream))
    (silent : ∀ answer, Silent side.other (.perform action, answer)) :
    ∃ later, chronicle.Affects openings network side later
      (.perform action, (chronicle.session.withStream side use).1)
      (chronicle.session.withStream side use).2 := by
  rw [withStream]
  split
  · next stream usable =>
      obtain ⟨known, ready⟩ := usable?_spec usable
      obtain ⟨seat, seat_eq, fits⟩ := mirrors.exists_fits known
      exact ⟨_, put seat_eq (fun _ => rfl) (Carries.refl _ side _) (.refl _)
        (used seat stream fits (ready seat seat_eq)) (still stream ▸ .stay known) (silent _)⟩
  · exact ⟨_, mirrors.still side (fun _ => rfl) (fun _ => rfl) unused⟩

theorem leave (mirrors : chronicle.Mirrors openings network) (side : Side) {action : Action}
    {hold : Hold} {leave : Stream → Stream}
    (left : ∀ (seat : Seat) (stream : Stream),
      seat.Fits stream (network.station side) (chronicle.written side) (chronicle.outcomes side)
        (chronicle.finishedWriting side) → seat.hold = .ready →
      Seat.Fits { seat with stream := some (leave stream), hold } (leave stream)
        (network.station side) (chronicle.written side ++ writtenAt side (.perform action, .done))
        (chronicle.outcomes side ++ outcomesAt side (.perform action, .done))
        (chronicle.finishedWriting side || finishesAt side (.perform action, .done)))
    (still : ∀ stream, (leave stream).endpoint = stream.endpoint ∨
      (leave stream).endpoint = stream.endpoint.abandon)
    (unused : ∀ actor, Silent actor (.perform action, .noStream))
    (silent : Silent side.other (.perform action, .done)) :
    ∃ later, chronicle.Affects openings network side later
      (.perform action, (chronicle.session.handBack side hold leave).1)
      (chronicle.session.handBack side hold leave).2 := by
  cases usable : chronicle.session.usable? side with
  | none =>
      rw [handBack, usable]
      exact ⟨_, mirrors.still side (fun _ => rfl) (fun _ => rfl) unused⟩
  | some stream =>
      obtain ⟨known, ready⟩ := usable?_spec usable
      obtain ⟨seat, seat_eq, fits⟩ := mirrors.exists_fits known
      obtain ⟨time, after, left_eq, after_eq, others, carries⟩ :=
        handBack_spec usable seat_eq hold leave
      have stirs :
          chronicle.session.Stirs (openings side) side after.now (leave stream).endpoint := by
        rcases still stream with same | gone
        · exact same ▸ .stay known
        · exact gone ▸ .abandon known
      rw [left_eq]
      exact ⟨_, .of_fits (.refl _) (left seat stream fits (ready seat seat_eq)) after_eq stirs
        others carries silent⟩

theorem happen (mirrors : chronicle.Mirrors openings network)
    (valid : ∀ side, (openings side).config.Valid) (occurrence : Occurrence)
    (genuine : ∀ side raw, occurrence ≠ .perform (.inject side raw)) :
    ∃ side later, chronicle.Affects openings network side later
      (occurrence, (chronicle.session.happen openings occurrence).1)
      (chronicle.session.happen openings occurrence).2 := by
  cases occurrence with
  | join side pause =>
      have silent : ∀ actor, Silent actor (.join side pause, .done) := fun _ => ⟨rfl, rfl, rfl⟩
      rw [Session.happen]
      cases vacant : chronicle.session.seat? side with
      | none => exact ⟨side, mirrors.join valid vacant pause silent⟩
      | some seat => exact ⟨side, _, mirrors.still side (fun _ => rfl) (fun _ => rfl) silent⟩
  | falter side trigger pause count =>
      exact ⟨side, mirrors.turn valid side trigger pause (some count) fun _ => ⟨rfl, rfl, rfl⟩⟩
  | perform action =>
      cases action with
      | elapse time =>
          exact ⟨.first, _, mirrors.still .first (fun actor => by cases actor <;> rfl)
            (fun _ => rfl) fun _ => ⟨rfl, rfl, rfl⟩⟩
      | takeWrite side pause =>
          rw [Session.happen, perform_takeWrite]
          exact ⟨side, mirrors.turn valid side .write pause _ fun _ => ⟨rfl, rfl, rfl⟩⟩
      | takeSegment side pause =>
          rw [Session.happen, perform_takeSegment]
          exact ⟨side, mirrors.turn valid side .segment pause _ fun _ => ⟨rfl, rfl, rfl⟩⟩
      | expire side pause =>
          rw [Session.happen, perform_expire]
          exact ⟨side, mirrors.turn valid side .timer pause _ fun _ => ⟨rfl, rfl, rfl⟩⟩
      | inject side raw => exact absurd rfl (genuine side raw)
      | lose side _ | setFailing side _ | breakReceive side | unplug side =>
          exact ⟨side, _, mirrors.still side (fun actor => by cases actor <;> rfl)
            (Link.inbox_setInterface rfl) fun _ => ⟨rfl, rfl, rfl⟩⟩
      | write side data =>
          have still (stream : Stream) : (stream.write data).2.endpoint = stream.endpoint := by
            obtain ⟨writes, same⟩ := stream.write_eq data
            rw [same]
          refine ⟨side, mirrors.use side (fun seat stream fits _ => ?_) still
            (fun _ => ⟨rfl, rfl, rfl⟩) (silent_other side (by simp))⟩
          have fits' := fits.write data
          rcases written : stream.write data with ⟨outcome, after⟩
          rw [written] at fits'
          cases outcome with
          | accepted => simpa [writtenAt, outcomesAt, finishesAt] using fits'
          | wouldBlock => simpa [writtenAt, outcomesAt, finishesAt] using fits'
          | rejected error => simpa [writtenAt, outcomesAt, finishesAt] using fits'
      | read side =>
          have still (stream : Stream) : stream.read.2.endpoint = stream.endpoint := by
            obtain ⟨position, ended, same⟩ := stream.read_eq
            rw [same]
          refine ⟨side, mirrors.use side (fun seat stream fits ready => ?_) still
            (fun _ => ⟨rfl, rfl, rfl⟩) (silent_other side (by simp))⟩
          obtain ⟨opened, kept⟩ := fits.usable ready
          have fits' := fits.seek stream.read_eq (fits.reads.read opened kept)
          simpa [writtenAt, outcomesAt, finishesAt] using fits'
      | readAll side =>
          have still (stream : Stream) : stream.readAll.2.endpoint = stream.endpoint := by
            obtain ⟨position, ended, same⟩ := stream.readWithin_eq (stream.unread.length + 1)
            rw [Stream.readAll, same]
          refine ⟨side, mirrors.use side (fun seat stream fits ready => ?_) still
            (fun _ => ⟨rfl, rfl, rfl⟩) (silent_other side (by simp))⟩
          obtain ⟨opened, kept⟩ := fits.usable ready
          have reads := fits.reads.readWithin opened kept (stream.unread.length + 1)
          have fits' := fits.seek (stream.readWithin_eq _) reads
          simpa [writtenAt, outcomesAt, finishesAt, Stream.readAll] using fits'
      | close side =>
          refine ⟨side, mirrors.use side (fun seat stream fits _ => ?_) (fun _ => rfl)
            (fun _ => ⟨rfl, rfl, rfl⟩) (silent_other side (by simp))⟩
          simpa [writtenAt, outcomesAt, finishesAt] using fits.close
      | closed side =>
          refine ⟨side, mirrors.leave side (fun seat stream fits ready => ?_) (fun _ => Or.inl rfl)
            (fun _ => ⟨rfl, rfl, rfl⟩) (silent_other side (by simp) .done)⟩
          simpa [writtenAt, outcomesAt, finishesAt] using fits.closed ready
      | drop side =>
          refine ⟨side, mirrors.leave side (fun seat stream fits _ => ?_) (fun _ => Or.inr rfl)
            (fun _ => ⟨rfl, rfl, rfl⟩) ⟨rfl, rfl, rfl⟩⟩
          simpa [writtenAt, outcomesAt, finishesAt] using fits.drop

end Mirrors

theorem exists_mirrors_blank (valid : ∀ side, (openings side).config.Valid) :
    ∃ network, blank.Mirrors openings network := by
  have created (side : Side) := Connection.Follows.create (valid side) (openings side).isn
  choose connection created config_eq closed outbox_eq follows using created
  let network : Network := { station := fun side => { connection := connection side }, now := 0 }
  have coherent : network.Coherent fun _ => ⟨[], [], []⟩ := by
    refine ⟨fun side => ?_, fun side last => ?_⟩
    · exact Network.lawful_fresh (by rw [config_eq]; exact valid side) (follows side _) (closed side)
        (outbox_eq side)
    · simp [network, closed] at last
  refine ⟨network, ⟨_, coherent⟩, fun side => ⟨_, [], created side, rfl⟩, fun side => ?_, ?_⟩
  · cases side with
    | first => exact .vacant (created .first)
    | second => exact .vacant (created .second)
  · intro side raw mem
    cases side with
    | first => cases mem
    | second => cases mem

theorem Short.of_add {occurrence : Occurrence}
    (short : (chronicle.add openings occurrence).Short) : chronicle.Short := by
  intro side
  refine Nat.lt_of_le_of_lt ?_ (short side)
  rw [add, written, written, List.flatMap_append, List.length_append]
  exact Nat.le_add_right _ _

theorem exists_mirrors (valid : ∀ side, (openings side).config.Valid)
    (history : List Occurrence) (genuine : ∀ side raw, .perform (.inject side raw) ∉ history)
    (short : (run openings history).Short) :
    ∃ network, (run openings history).Mirrors openings network := by
  induction history using List.reverseRecOn with
  | nil => exact exists_mirrors_blank valid
  | append_singleton history occurrence ih =>
      rw [run_concat] at short ⊢
      obtain ⟨network, mirrors⟩ :=
        ih (fun side raw mem => genuine side raw (List.mem_append_left _ mem)) short.of_add
      obtain ⟨side, later, affects⟩ := mirrors.happen valid occurrence
        fun side raw same => genuine side raw (by simp [same])
      exact affects.mirrors mirrors short

end Chronicle
end ReliableTransport
