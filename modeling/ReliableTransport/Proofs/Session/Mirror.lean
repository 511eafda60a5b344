import ReliableTransport.Proofs.Session.Chronicle
import ReliableTransport.Proofs.Station.Wire

/-!
# Two streams are the ends of a network

Whatever happens to two streams on a link, each of them did what one end of a network did, and only
segments of the other end arrived.  What the applications wrote and read is what the chronicle tells.
-/

namespace ReliableTransport

namespace Link

variable {link : Link} {side actor : Side} {raw : Bytes}

theorem inbox_setInterface {interface : Interface}
    (same : interface.inbox = (link.interface side).inbox) (actor : Side) :
    ((link.setInterface side interface).interface actor).inbox =
      (link.interface actor).inbox := by
  rcases actor.eq_or_eq_other side with rfl | rfl
  · rw [interface_setInterface, same]
  · rw [interface_other_setInterface]

theorem mem_inbox_carry {sent : Bytes}
    (mem : raw ∈ ((link.carry side sent).interface actor).inbox) :
    raw ∈ (link.interface actor).inbox ∨ actor = side.other ∧ raw = sent := by
  rw [carry] at mem
  rcases actor.eq_or_eq_other side with rfl | rfl
  · left
    have same : ((link.carry actor sent).interface actor).inbox = (link.interface actor).inbox := by
      cases actor <;> rfl
    rw [← same]
    exact mem
  · simp only [interface_setInterface] at mem
    split at mem
    · exact Or.inl mem
    · rcases List.mem_append.mp mem with mem | mem
      · exact Or.inl mem
      · exact Or.inr ⟨rfl, List.mem_singleton.mp mem⟩

theorem mem_inbox_carryAll {segments : List Bytes}
    (mem : raw ∈ ((link.carryAll side segments).interface actor).inbox) :
    raw ∈ (link.interface actor).inbox ∨ actor = side.other ∧ raw ∈ segments := by
  induction segments generalizing link with
  | nil => exact Or.inl mem
  | cons first segments ih =>
      rcases ih mem with mem | ⟨same, mem⟩
      · exact (mem_inbox_carry mem).imp_right fun ⟨same, raw_eq⟩ =>
          ⟨same, raw_eq ▸ List.mem_cons_self⟩
      · exact Or.inr ⟨same, List.mem_cons_of_mem _ mem⟩

end Link

namespace Seat

variable {seat : Seat} {stream after : Stream} {station later : Station} {written : Bytes}
  {outcomes : List ReadOutcome} {finished : Bool}

/-- The stream at an end did what an end of a network did, and its application did and got what is
told. -/
structure Fits (seat : Seat) (stream : Stream) (station : Station) (written : Bytes)
    (outcomes : List ReadOutcome) (finished : Bool) : Prop where
  /-- The end runs the stream. -/
  stream_eq : seat.stream = some stream
  /-- The stream did what the end of a network did. -/
  mirrors : stream.Mirrors station written
  /-- The application got what it read. -/
  reads : stream.Reads outcomes
  /-- Writing is over only if the application finished it. -/
  finished : stream.writable = false → finished = true
  /-- The stream can be used once the handshake ended well. -/
  ready : seat.hold = .ready → stream.endpoint.opened = some (.ok ())
  /-- A stream that was given up cannot be used any more. -/
  kept : stream.endpoint.activity = .abandoned → seat.hold = .released

namespace Fits

theorem notice (fits : seat.Fits stream station written outcomes finished) (now : Nat) :
    (seat.notice now).Fits stream station written outcomes finished := by
  have stream_eq := fits.stream_eq
  have kept := fits.kept
  rw [Seat.notice]
  split
  · next opening same =>
      obtain rfl := Option.some.inj (stream_eq.symm.trans same)
      rw [opening] at kept
      split
      · next opened =>
          refine { fits with ready := fun _ => ?_, kept := fun gone => ?_ }
          · rw [Stream.opened?] at opened
            split at opened
            · next told => exact told
            · cases opened
            · split at opened
              · cases opened
              · cases opened
          · cases kept gone
      · exact { fits with ready := fun ready => Hold.noConfusion ready, kept := fun _ => rfl }
      · exact fits
  · split
    · exact { fits with ready := fun ready => Hold.noConfusion ready, kept := fun _ => rfl }
    · exact fits
  · exact fits

/-- The endpoint of a stream moved. -/
theorem advance (fits : seat.Fits stream station written outcomes finished)
    (mirrors : after.Mirrors later written) (advances : stream.Advances after) :
    Fits { seat with stream := some after } after later written outcomes finished where
  stream_eq := rfl
  mirrors := mirrors
  reads := fits.reads.advance advances
  finished past := fits.finished (advances.writable_eq ▸ past)
  ready ready := advances.opened _ (fits.ready ready)
  kept gone := fits.kept (advances.kept gone)

/-- The application wrote. -/
theorem write (fits : seat.Fits stream station written outcomes finished) (data : Bytes) :
    Fits { seat with stream := some (stream.write data).2 } (stream.write data).2 station
      (written ++ if (stream.write data).1 = .accepted then data else []) outcomes finished := by
  have mirrors := fits.mirrors.write data
  obtain ⟨writes, after_eq⟩ := stream.write_eq data
  rw [after_eq] at mirrors ⊢
  exact ⟨rfl, mirrors, fits.reads.of_eq rfl rfl rfl, fits.finished, fits.ready, fits.kept⟩

/-- The application finished writing. -/
theorem close (fits : seat.Fits stream station written outcomes finished) :
    Fits { seat with stream := some stream.close } stream.close station written outcomes true :=
  ⟨rfl, fits.mirrors.close, fits.reads.of_eq rfl rfl rfl, fun _ => rfl, fits.ready, fits.kept⟩

theorem usable (fits : seat.Fits stream station written outcomes finished)
    (ready : seat.hold = .ready) :
    stream.endpoint.opened = some (.ok ()) ∧ stream.endpoint.activity ≠ .abandoned := by
  refine ⟨fits.ready ready, fun gone => ?_⟩
  have released := fits.kept gone
  rw [ready] at released
  cases released

theorem seek (fits : seat.Fits stream station written outcomes finished)
    (same : ∃ position ended, after = { stream with position, ended }) {more : List ReadOutcome}
    (reads : after.Reads (outcomes ++ more)) :
    Fits { seat with stream := some after } after station written (outcomes ++ more) finished := by
  obtain ⟨position, ended, rfl⟩ := same
  exact ⟨rfl, fits.mirrors.seek position ended, reads, fits.finished, fits.ready, fits.kept⟩

/-- The application finished writing and waits for the end. -/
theorem closed (fits : seat.Fits stream station written outcomes finished)
    (ready : seat.hold = .ready) :
    Fits { seat with stream := some stream.close, hold := .closing } stream.close station written
      outcomes true :=
  ⟨rfl, fits.mirrors.close, fits.reads.of_eq rfl rfl rfl, fun _ => rfl,
    fun ready => Hold.noConfusion ready, fun gone => absurd gone (fits.usable ready).2⟩

/-- The application gave up. -/
theorem drop (fits : seat.Fits stream station written outcomes finished) :
    Fits { seat with stream := some stream.drop, hold := .released } stream.drop station written
      outcomes finished :=
  ⟨rfl, fits.mirrors.drop, fits.reads.drop, fits.finished, fun ready => Hold.noConfusion ready,
    fun _ => rfl⟩

end Fits
end Seat

namespace Session

variable {session : Session} {side : Side} {seat : Seat} {stream : Stream} {station : Station}
  {written : Bytes} {outcomes : List ReadOutcome} {finished : Bool}

@[simp]
theorem seat?_setSeat (session : Session) (side : Side) (seat : Seat) :
    (session.setSeat side seat).seat? side = some seat := by
  cases side <;> rfl

@[simp]
theorem seat?_other_setSeat (session : Session) (side : Side) (seat : Seat) :
    (session.setSeat side seat).seat? side.other = session.seat? side.other := by
  cases side <;> rfl

@[simp]
theorem link_setSeat (session : Session) (side : Side) (seat : Seat) :
    (session.setSeat side seat).link = session.link := by
  cases side <;> rfl

@[simp]
theorem now_setSeat (session : Session) (side : Side) (seat : Seat) :
    (session.setSeat side seat).now = session.now := by
  cases side <;> rfl

@[simp]
theorem seat?_updateInterface (session : Session) (side actor : Side)
    (change : Interface → Interface) :
    (session.updateInterface actor change).seat? side = session.seat? side := by
  cases side <;> rfl

@[simp]
theorem seat?_pass (session : Session) (time : Nat) (side : Side) :
    (session.pass time).seat? side = session.seat? side := by
  cases side <;> rfl

@[simp]
theorem now_putStream (session : Session) (side : Side) (stream : Stream) :
    (session.putStream side stream).now = session.now := by
  rw [putStream]
  split
  · rfl
  · exact now_setSeat _ _ _

/-- Nothing but segments that were sent through one end has arrived at the other since. -/
structure Carries (session after : Session) (side : Side) (sent : List Bytes) : Prop where
  /-- What arrives at the other end was sent. -/
  arrived : ∀ raw ∈ (after.link.interface side.other).inbox,
    raw ∈ (session.link.interface side.other).inbox ∨ raw ∈ sent
  /-- Nothing arrives at the end itself. -/
  stayed : ∀ raw ∈ (after.link.interface side).inbox, raw ∈ (session.link.interface side).inbox

theorem Carries.refl (session : Session) (side : Side) (sent : List Bytes) :
    session.Carries session side sent :=
  ⟨fun _ => Or.inl, fun _ => id⟩

/-- Nothing arrives by itself. -/
theorem Carries.pass {after : Session} {sent : List Bytes}
    (carries : session.Carries after side sent) (time : Nat) :
    session.Carries (after.pass time) side sent :=
  ⟨carries.arrived, carries.stayed⟩

theorem Carries.trans {middle after : Session} {sent : List Bytes}
    (first : session.Carries middle side sent) (second : middle.Carries after side sent) :
    session.Carries after side sent where
  arrived raw mem := (second.arrived raw mem).elim (first.arrived raw) Or.inr
  stayed raw mem := first.stayed raw (second.stayed raw mem)

theorem carries_carryAll (session : Session) (side : Side) {segments sent : List Bytes}
    (subset : segments ⊆ sent) :
    session.Carries { session with link := session.link.carryAll side segments } side sent where
  arrived _ mem := (Link.mem_inbox_carryAll mem).imp_right fun carried => subset carried.2
  stayed _ mem := (Link.mem_inbox_carryAll mem).resolve_right fun carried =>
    side.other_ne carried.1.symm

theorem carries_discardNext (session : Session) (side : Side) (sent : List Bytes) :
    session.Carries (session.updateInterface side Interface.discardNext) side sent where
  arrived raw mem := by
    rw [updateInterface, Link.interface_other_setInterface] at mem
    exact Or.inl mem
  stayed raw mem := by
    rw [updateInterface, Link.interface_setInterface, Interface.discardNext] at mem
    split at mem
    · exact mem
    · exact List.mem_of_mem_tail mem

theorem nextReceipt?_spec {wakeup : Wakeup} (next : session.nextReceipt? side = some wakeup)
    (endpoint : Endpoint) :
    (∀ raw, wakeup = .received raw → raw ∈ (session.link.interface side).inbox) ∧
      endpoint.taking wakeup = endpoint := by
  rw [nextReceipt?] at next
  split at next
  · obtain rfl := Option.some.inj next
    exact ⟨by simp, rfl⟩
  · obtain ⟨raw, first, rfl⟩ := Option.map_eq_some_iff.mp next
    refine ⟨?_, rfl⟩
    rintro other same
    obtain rfl := Wakeup.received.inj same
    exact List.mem_of_head? first

theorem putStream_spec (seat_eq : session.seat? side = some seat) (stream : Stream) :
    (session.putStream side stream).seat? side =
        some ({ seat with stream := some stream }.notice session.now) ∧
      (session.putStream side stream).seat? side.other = session.seat? side.other ∧
      session.Carries (session.putStream side stream) side stream.endpoint.sent := by
  have carries :=
    session.carries_carryAll side (List.drop_subset seat.sent.length stream.endpoint.sent)
  rw [putStream, seat_eq]
  refine ⟨by simp, ?_, ?_⟩
  · simp only [seat?_other_setSeat]
    cases side <;> rfl
  · exact ⟨by simpa using carries.arrived, by simpa using carries.stayed⟩

theorem join_spec {opening : Opening} {pause : Nat}
    (started : Stream.start opening.role opening.config opening.isn session.now
      (session.now + pause) (session.link.failsAfter side) = .ok stream) :
    let after := session.join side opening.role opening.config opening.isn pause
    after.seat? side =
        some (Seat.notice { stream := some stream, hold := .opening } (session.now + pause)) ∧
      after.seat? side.other = session.seat? side.other ∧
      session.Carries after side stream.endpoint.sent ∧ after.now = session.now + pause := by
  have carries := session.carries_carryAll side (List.Subset.refl stream.endpoint.sent)
  simp only [join, pass, Seat.start, started]
  refine ⟨seat?_setSeat _ _ _, ?_, ?_, now_setSeat _ _ _⟩
  · rw [seat?_other_setSeat]
    cases side <;> rfl
  · refine ⟨?_, ?_⟩
    · rw [link_setSeat]
      exact carries.arrived
    · rw [link_setSeat]
      exact carries.stayed

theorem usable?_spec (usable : session.usable? side = some stream) :
    session.stream? side = some stream ∧
      ∀ seat, session.seat? side = some seat → seat.hold = .ready := by
  obtain ⟨seat, seat_eq, usable⟩ := Option.bind_eq_some_iff.mp usable
  rw [Seat.usable?] at usable
  split at usable
  · next ready =>
      refine ⟨Option.bind_eq_some_iff.mpr ⟨seat, seat_eq, usable⟩, fun same same_eq => ?_⟩
      obtain rfl := Option.some.inj (seat_eq.symm.trans same_eq)
      exact ready
  · cases usable

theorem handBack_spec (usable : session.usable? side = some stream)
    (seat_eq : session.seat? side = some seat) (hold : Hold) (leave : Stream → Stream) :
    ∃ time after, session.handBack side hold leave = (.done, after) ∧
      after.seat? side = some ({ seat with stream := some (leave stream), hold }.notice time) ∧
      after.seat? side.other = session.seat? side.other ∧
      session.Carries after side (leave stream).endpoint.sent := by
  have ready := (usable?_spec usable).2 seat seat_eq
  obtain ⟨put_eq, others, carries⟩ := putStream_spec seat_eq (leave stream)
  have unnoticed : { seat with stream := some (leave stream) }.notice session.now =
      { seat with stream := some (leave stream) } := by
    rw [Seat.notice, ready]
  rw [unnoticed] at put_eq
  refine ⟨(session.putStream side (leave stream)).now,
    (session.putStream side (leave stream)).setSeat side _, ?_, seat?_setSeat _ _ _, ?_, ?_⟩
  · simp only [handBack, usable, release, put_eq]
  · rw [seat?_other_setSeat, others]
  · exact ⟨by simpa using carries.arrived, by simpa using carries.stayed⟩

/-- What can happen to the endpoint at one end, up to a later time. -/
inductive Stirs (session : Session) (opening : Opening) (side : Side) (later : Nat) :
    Endpoint → Prop where
  /-- It is started. -/
  | start {connection : Connection} (failsAfter : Option Nat)
      (initiated : Stream.initiate opening.role opening.config opening.isn session.now =
        .ok connection) :
      Stirs session opening side later (.start connection later failsAfter)
  /-- Nothing happens to it. -/
  | stay {stream : Stream} (known : session.stream? side = some stream) :
      Stirs session opening side later stream.endpoint
  /-- It is given up. -/
  | abandon {stream : Stream} (known : session.stream? side = some stream) :
      Stirs session opening side later stream.endpoint.abandon
  /-- It takes a wakeup that it waits for. -/
  | respond {stream : Stream} (known : session.stream? side = some stream) {wakeup : Wakeup}
      (failsAfter : Option Nat) (awaits : stream.endpoint.awaits wakeup session.now = true)
      (arrives : ∀ raw, wakeup = .received raw → raw ∈ (session.link.interface side).inbox) :
      Stirs session opening side later
        (stream.endpoint.respond wakeup session.now later failsAfter)

theorem stirs_wake (opening : Opening) (known : session.stream? side = some stream)
    {wakeup : Wakeup}
    (arrives : ∀ raw, wakeup = .received raw → raw ∈ (session.link.interface side).inbox)
    (later : Nat) (failsAfter : Option Nat) :
    session.Stirs opening side later
      (stream.wake wakeup session.now later failsAfter).endpoint := by
  rw [Stream.wake, Endpoint.wake]
  split
  · next awaits => exact .respond known failsAfter awaits arrives
  · exact .stay known

theorem stirs_takeWrite (opening : Opening) (known : session.stream? side = some stream)
    (later : Nat) (failsAfter : Option Nat) :
    session.Stirs opening side later
      (stream.takeWrite session.now later failsAfter).endpoint := by
  rw [Stream.takeWrite]
  split
  · exact .stay known
  · next wakeup next =>
      split
      · refine stirs_wake opening known (fun raw same => ?_) later failsAfter
        rw [same, Stream.nextWrite?] at next
        split at next
        · cases next
        · split at next
          · cases next
          · cases next
      · exact .stay known

/-- What happened at one end of two: nothing yet, or a stream did what an end of a network did. -/
inductive Place (opening : Opening) :
    Option Seat → Station → Bytes → List ReadOutcome → Bool → Prop where
  /-- The stream is not open yet. -/
  | vacant {connection : Connection}
      (created : Connection.create opening.config opening.isn = .ok connection) :
      Place opening none { connection } [] [] false
  /-- The stream was opened. -/
  | taken {seat : Seat} {stream : Stream} {station : Station} {written : Bytes}
      {outcomes : List ReadOutcome} {finished : Bool}
      (fits : seat.Fits stream station written outcomes finished) :
      Place opening (some seat) station written outcomes finished

theorem Place.of_none {opening : Opening}
    (place : Place opening none station written outcomes finished) :
    ∃ connection, Connection.create opening.config opening.isn = .ok connection ∧
      station = { connection } ∧ written = [] ∧ outcomes = [] ∧ finished = false := by
  cases place with
  | vacant created => exact ⟨_, created, rfl, rfl, rfl, rfl⟩

theorem Place.of_some {opening : Opening}
    (place : Place opening (some seat) station written outcomes finished) :
    ∃ stream, seat.Fits stream station written outcomes finished := by
  cases place with
  | taken fits => exact ⟨_, fits⟩

/-- Only what was written is taken for sending. -/
theorem Place.taken_isPrefix {opening : Opening} {seat? : Option Seat}
    (place : Place opening seat? station written outcomes finished) :
    station.taken <+: written := by
  cases place with
  | vacant created => exact List.prefix_refl _
  | taken fits =>
      rw [← fits.mirrors.written_eq, List.append_assoc]
      exact List.prefix_append _ _

/-- Nothing is written, read or finished at one end. -/
def Silent (side : Side) (entry : Occurrence × Answer) : Prop :=
  writtenAt side entry = [] ∧ outcomesAt side entry = [] ∧ finishesAt side entry = false

namespace Silent

variable {entry : Occurrence × Answer}

/-- An end where nothing is told fits as before. -/
theorem fits (silent : Silent side entry)
    (fits : seat.Fits stream station written outcomes finished) :
    seat.Fits stream station (written ++ writtenAt side entry) (outcomes ++ outcomesAt side entry)
      (finished || finishesAt side entry) := by
  obtain ⟨nothing_written, nothing_read, unfinished⟩ := silent
  rw [nothing_written, nothing_read, unfinished, List.append_nil, List.append_nil, Bool.or_false]
  exact fits

theorem place (silent : Silent side entry) {opening : Opening} {seat? : Option Seat}
    (place : Place opening seat? station written outcomes finished) :
    Place opening seat? station (written ++ writtenAt side entry)
      (outcomes ++ outcomesAt side entry) (finished || finishesAt side entry) := by
  obtain ⟨nothing_written, nothing_read, unfinished⟩ := silent
  rw [nothing_written, nothing_read, unfinished, List.append_nil, List.append_nil, Bool.or_false]
  exact place

end Silent

theorem silent_other (side : Side) {action : Action}
    (own : (∃ data, action = .write side data) ∨ action = .read side ∨ action = .readAll side ∨
      action = .close side ∨ action = .closed side) (answer : Answer) :
    Silent side.other (.perform action, answer) := by
  have elsewhere : side ≠ side.other := side.other_ne.symm
  rcases own with ⟨data, rfl⟩ | rfl | rfl | rfl | rfl
  · refine ⟨?_, rfl, rfl⟩
    cases answer with
    | write outcome => cases outcome <;> simp [writtenAt, elsewhere]
    | _ => rfl
  · refine ⟨rfl, ?_, rfl⟩
    cases answer with
    | read outcome => simp [outcomesAt, elsewhere]
    | _ => rfl
  · refine ⟨rfl, ?_, rfl⟩
    cases answer with
    | reads outcomes => simp [outcomesAt, elsewhere]
    | _ => rfl
  · refine ⟨rfl, rfl, ?_⟩
    cases answer with
    | done => simp [finishesAt, elsewhere]
    | _ => rfl
  · refine ⟨rfl, rfl, ?_⟩
    cases answer with
    | done => simp [finishesAt, elsewhere]
    | _ => rfl

end Session

namespace Chronicle

open Session

variable {chronicle : Chronicle} {openings : Side → Opening} {network : Network}

/-- Two streams did what a network did, and their applications did and got what is told. -/
structure Mirrors (chronicle : Chronicle) (openings : Side → Opening) (network : Network) :
    Prop where
  /-- The network is coherent. -/
  coherent : ∃ ledgers, network.Coherent ledgers
  /-- Its ends are those that were opened. -/
  arises : ∀ side,
    Station.Arises (openings side).config (openings side).isn (network.station side)
  /-- Each end did what an end of the network did. -/
  place : ∀ side, Place (openings side) (chronicle.session.seat? side) (network.station side)
    (chronicle.written side) (chronicle.outcomes side) (chronicle.finishedWriting side)
  /-- Only what one end sent waits at the other. -/
  carried : ∀ side, ∀ raw ∈ (chronicle.session.link.interface side.other).inbox,
    raw ∈ (network.station side).wire

/-- Neither application wrote so much that positions of its stream could be confused. -/
def Short (chronicle : Chronicle) : Prop :=
  ∀ side, (chronicle.written side).length < 2147483644

/-- Something happened at one end, and the other one only gets what was sent. -/
structure Affects (chronicle : Chronicle) (openings : Side → Opening) (network : Network)
    (side : Side) (station : Station) (entry : Occurrence × Answer) (after : Session) : Prop where
  /-- The end has gone on. -/
  becomes : (network.station side).Becomes (network.station side.other).wire station
  /-- The end did what an end of the network did. -/
  place : Place (openings side) (after.seat? side) station
    (chronicle.written side ++ writtenAt side entry)
    (chronicle.outcomes side ++ outcomesAt side entry)
    (chronicle.finishedWriting side || finishesAt side entry)
  /-- Its endpoint took a step. -/
  stirs : ∀ stream, after.stream? side = some stream →
    chronicle.session.Stirs (openings side) side after.now stream.endpoint
  /-- The other end did nothing. -/
  others : after.seat? side.other = chronicle.session.seat? side.other
  /-- Only what was sent arrives. -/
  carries : chronicle.session.Carries after side station.wire
  /-- Nothing is told of the other end. -/
  silent : Silent side.other entry

/-- A stream is put to its end, and the application notices what has ended. -/
theorem Affects.of_fits {side : Side} {seat : Seat} {stream : Stream} {station : Station}
    {entry : Occurrence × Answer} {after : Session} {time : Nat}
    (becomes : (network.station side).Becomes (network.station side.other).wire station)
    (fits : seat.Fits stream station (chronicle.written side ++ writtenAt side entry)
      (chronicle.outcomes side ++ outcomesAt side entry)
      (chronicle.finishedWriting side || finishesAt side entry))
    (seat_eq : after.seat? side = some (seat.notice time))
    (stirs : chronicle.session.Stirs (openings side) side after.now stream.endpoint)
    (others : after.seat? side.other = chronicle.session.seat? side.other)
    (carries : chronicle.session.Carries after side stream.endpoint.sent)
    (silent : Silent side.other entry) :
    chronicle.Affects openings network side station entry after where
  becomes := becomes
  place := by
    rw [seat_eq]
    exact .taken (fits.notice time)
  stirs same known := by
    rw [stream?, seat_eq] at known
    obtain rfl := Option.some.inj ((fits.notice time).stream_eq.symm.trans known)
    exact stirs
  others := others
  carries := by
    rw [← fits.mirrors.endpoint.sent_eq]
    exact carries
  silent := silent

/-- What happened at one end is part of what a network did. -/
theorem Affects.mirrors {side : Side} {station : Station} {entry : Occurrence × Answer}
    {after : Session} (affects : chronicle.Affects openings network side station entry after)
    (mirrors : chronicle.Mirrors openings network)
    (short : Short { session := after, log := chronicle.log ++ [entry] }) :
    ∃ network', Mirrors { session := after, log := chronicle.log ++ [entry] } openings network' := by
  obtain ⟨ledgers, coherent⟩ := mirrors.coherent
  have place : ∀ actor, Place (openings actor) (after.seat? actor)
      ((network.setStation side station).station actor)
      (written { session := after, log := chronicle.log ++ [entry] } actor)
      (outcomes { session := after, log := chronicle.log ++ [entry] } actor)
      (finishedWriting { session := after, log := chronicle.log ++ [entry] } actor) := by
    intro actor
    have place := affects.place
    have other_place := affects.silent.place (mirrors.place side.other)
    simp only [written, outcomes, finishedWriting, List.flatMap_append, List.flatMap_singleton,
      List.any_append, List.any_cons, List.any_nil, Bool.or_false] at place other_place ⊢
    rcases actor.eq_or_eq_other side with rfl | rfl
    · rw [Network.station_setStation]
      exact place
    · rw [Network.station_setStation_other, affects.others]
      exact other_place
  have network_short : (network.setStation side station).Short := fun actor =>
    Nat.lt_of_le_of_lt (place actor).taken_isPrefix.length_le (short actor)
  obtain ⟨ledger, coherent'⟩ := coherent.becomes affects.becomes network_short
  refine ⟨network.setStation side station, ⟨_, coherent'⟩, ?_, place, ?_⟩
  · intro actor
    rcases actor.eq_or_eq_other side with rfl | rfl
    · rw [Network.station_setStation]
      exact affects.becomes.arises (mirrors.arises actor)
    · rw [Network.station_setStation_other]
      exact mirrors.arises side.other
  · intro actor raw mem
    rcases actor.eq_or_eq_other side with rfl | rfl
    · rw [Network.station_setStation]
      refine (affects.carries.arrived raw mem).elim (fun waited => ?_) id
      exact affects.becomes.isPrefix.2.subset (mirrors.carried actor raw waited)
    · rw [Network.station_setStation_other]
      rw [Side.other_other] at mem
      have waited := affects.carries.stayed raw mem
      rw [← side.other_other] at waited
      exact mirrors.carried side.other raw waited

end Chronicle
end ReliableTransport
