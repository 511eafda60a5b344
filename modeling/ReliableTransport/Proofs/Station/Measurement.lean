import ReliableTransport.Proofs.Station.Acceptance
import ReliableTransport.Proofs.Station.Copies
import ReliableTransport.Proofs.Station.Succession
import ReliableTransport.Proofs.Station.Transits

/-!
# Which round trips are measured

An acknowledgment of a segment that was sent more than once may answer any of its copies, so that it
measures nothing.  From what an end puts on the wire, and from how its oldest unacknowledged
position moves, it can be seen which segments were sent once until they were acknowledged.  The
estimates are those that result from the round trips of exactly these segments, in the order of
sending.
-/

namespace ReliableTransport

open Fault Script

namespace Connection

variable {connection after : Connection} {config : Config} {script acked : List Cargo}
  {settled opened : List Transit} {count now : Nat}

theorem Writes.movesPast_iff (writes : connection.Writes script acked count)
    (awaits : connection.AwaitsAck after.sendUnacked) {segment : Outstanding}
    (mem : segment ∈ connection.flight.segments) :
    connection.MovesPast after segment.finish ↔ segment.CoveredBy after.sendUnacked := by
  have spans := writes.spans
  have near := spans.near
  have within := spans.within segment mem
  have ack_eq := writes.aheadOf_of_awaits awaits
  have finish_eq := writes.aheadOf_finish mem
  obtain ⟨positive, le⟩ := awaits
  rw [spans.coveredBy_iff (by omega) (by omega) mem, MovesPast]
  omega

theorem Writes.exists_carried (writes : connection.Writes script acked count) :
    ∃ position rest,
      Flight.Carries connection.isn connection.config.receiveWindow position
          connection.flight.segments rest ∧
        (∀ cargo ∈ rest, 0 < cargo.length) ∧ extent rest < 4294967296 := by
  by_cases past : connection.phase = .terminated
  · rw [writes.cleared past]
    exact ⟨0, [], .nil 0, by simp, by simp⟩
  · obtain ⟨rest, script_eq, carries⟩ := writes.carries past
    have near := writes.extent_rest_lt script_eq
    refine ⟨extent acked, rest, carries, fun cargo mem => writes.valid.length_pos ?_, by omega⟩
    rw [script_eq]
    exact List.mem_append_right acked mem

/-- What was seen of the segments of a connection.  Those that are not acknowledged are outstanding,
and the estimates result from the others. -/
structure Measured (connection : Connection) (config : Config) (settled opened : List Transit) :
    Prop where
  /-- The older ones are acknowledged. -/
  acked : ∀ transit ∈ settled, transit.acked.isSome
  /-- The others are not. -/
  unacked : ∀ transit ∈ opened, transit.acked = none
  /-- While the connection lasts, they are outstanding. -/
  tracks : connection.phase ≠ .terminated →
    List.Forall₂ Transit.Tracks opened connection.flight.segments
  /-- The estimates are those after the samples of the older ones. -/
  reflects : connection.roundTrip.Reflects config (settled.filterMap Transit.sample?)

/-- A change of the connection leaves what was seen of it in order. -/
def KeepsMeasure (before : Connection) (config : Config) (log : List Transit) (now : Nat)
    (after : Connection) : Prop :=
  ∃ settled opened, Transit.record log before after now = settled ++ opened ∧
    after.Measured config settled opened

namespace Measured

theorem create {isn : SeqNum} (created : Connection.create config isn = .ok connection) :
    connection.Measured config [] [] := by
  obtain ⟨window, -, rfl⟩ := eq_of_create created
  exact ⟨by simp, by simp, fun _ => .nil, .initial config⟩

theorem exists_tracked (measured : connection.Measured config settled opened)
    (running : connection.phase ≠ .terminated) {transit : Transit} (mem : transit ∈ opened) :
    ∃ segment ∈ connection.flight.segments, transit.Tracks segment :=
  exists_of_mem_forall₂ (measured.tracks running).flip mem

theorem filter_unacked (measured : connection.Measured config settled opened) :
    (settled ++ opened).filter (·.acked.isNone) = opened := by
  rw [List.filter_append, List.filter_eq_nil_iff.mpr, List.filter_eq_self.mpr, List.nil_append]
  · intro transit mem
    rw [measured.unacked transit mem]
    rfl
  · intro transit mem
    simpa using Option.isSome_iff_ne_none.mp (measured.acked transit mem)

theorem map_follow (measured : connection.Measured config settled opened)
    (before after : Connection) (now : Nat) :
    settled.map (Transit.follow before after now) = settled :=
  map_eq_self fun transit mem => Transit.follow_of_acked (measured.acked transit mem)

theorem of_quiet (measured : connection.Measured config settled opened)
    (next_eq : after.sendNext = connection.sendNext)
    (unacked_eq : after.sendUnacked = connection.sendUnacked)
    (uncopied : ∀ seq, connection.copies after seq = 0)
    (estimate_eq : after.roundTrip = connection.roundTrip)
    (tracks : after.phase ≠ .terminated →
      connection.phase ≠ .terminated ∧ after.flight = connection.flight) :
    connection.KeepsMeasure config (settled ++ opened) now after := by
  refine ⟨settled, opened, Transit.record_of_quiet next_eq unacked_eq uncopied, measured.acked,
    measured.unacked, fun running => ?_, estimate_eq ▸ measured.reflects⟩
  obtain ⟨running, flight_eq⟩ := tracks running
  exact flight_eq ▸ measured.tracks running

theorem settle (measured : connection.Measured config settled opened)
    (running : connection.phase ≠ .terminated) (next_eq : after.sendNext = connection.sendNext)
    (uncopied : ∀ seq, connection.copies after seq = 0) {gone left : List Outstanding}
    (segments_eq : connection.flight.segments = gone ++ left)
    (past : ∀ segment ∈ gone, connection.MovesPast after segment.finish)
    (ahead : ∀ segment ∈ left, ¬ connection.MovesPast after segment.finish)
    (left_eq : after.flight.segments = left)
    (folded : (Flight.samples gone now).foldlM RoundTrip.observe connection.roundTrip =
      .ok after.roundTrip) :
    connection.KeepsMeasure config (settled ++ opened) now after := by
  -- what was seen falls into two parts, as what is outstanding does
  have tracks := measured.tracks running
  rw [segments_eq] at tracks
  have gone_tracks := List.forall₂_take_append opened gone left tracks
  have left_tracks := List.forall₂_drop_append opened gone left tracks
  have gone_eq : (opened.take gone.length).map (Transit.follow connection after now) =
      (opened.take gone.length).map fun transit => { transit with acked := some now } := by
    refine List.map_congr_left fun transit mem => ?_
    obtain ⟨segment, mem, tracks⟩ := exists_of_mem_forall₂ gone_tracks.flip mem
    rw [Transit.follow_of_unacked tracks.acked_eq (uncopied _),
      if_pos (tracks.finish_eq ▸ past segment mem), List.replicate_zero, List.append_nil]
  have left_eq' : (opened.drop gone.length).map (Transit.follow connection after now) =
      opened.drop gone.length := by
    refine map_eq_self fun transit mem => ?_
    obtain ⟨segment, mem, tracks⟩ := exists_of_mem_forall₂ left_tracks.flip mem
    exact Transit.follow_of_quiet (uncopied _) (tracks.finish_eq ▸ ahead segment mem)
  refine ⟨settled ++ (opened.take gone.length).map (fun transit =>
      { transit with acked := some now }), opened.drop gone.length, ?_, fun transit mem => ?_,
    fun transit mem => ?_, fun _ => left_eq ▸ left_tracks, ?_⟩
  · rw [Transit.record, if_pos next_eq, List.append_nil, List.map_append, measured.map_follow,
      ← gone_eq, List.append_assoc]
    conv_rhs => rw [← left_eq']
    rw [← List.map_append, List.take_append_drop]
  · rcases List.mem_append.mp mem with mem | mem
    · exact measured.acked transit mem
    · obtain ⟨earlier, -, rfl⟩ := List.mem_map.mp mem
      rfl
  · exact measured.unacked transit (List.mem_of_mem_drop mem)
  · rw [List.filterMap_append, Transit.filterMap_sample?_acked gone_tracks]
    exact measured.reflects.observe folded

theorem retire (measured : connection.Measured config settled opened)
    (running : connection.phase ≠ .terminated) (writes : connection.Writes script acked count)
    (retires : connection.Retires now after)
    (uncopied : ∀ seq, connection.copies after seq = 0) :
    connection.KeepsMeasure config (settled ++ opened) now after := by
  rcases retires.progress with ⟨unacked_eq, flight_eq, estimate_eq⟩ | ⟨news, sent, removed, acknowledged⟩
  · exact measured.of_quiet retires.sendNext_eq unacked_eq uncopied estimate_eq
      fun _ => ⟨running, flight_eq⟩
  have awaits := (writes.awaits_iff _).mp ⟨news, sent⟩
  have segments_eq : connection.flight.segments =
      connection.flight.covered after.sendUnacked ++
        connection.flight.uncovered after.sendUnacked :=
    List.takeWhile_append_dropWhile.symm
  obtain ⟨estimate, folded, acknowledged⟩ := exists_of_bind_eq_ok acknowledged
  split at acknowledged
  · cases acknowledged
  next none_left =>
    obtain ⟨-, taken_eq⟩ := Prod.mk.inj (Except.ok.inj acknowledged)
    obtain ⟨flight_eq, estimate_eq⟩ := Prod.mk.inj taken_eq
    refine measured.settle running retires.sendNext_eq uncopied segments_eq (fun segment mem => ?_)
      (fun segment mem => ?_) (congrArg Flight.segments flight_eq).symm (estimate_eq ▸ folded)
    · rw [writes.movesPast_iff awaits (segments_eq ▸ List.mem_append_left _ mem)]
      have covers := List.mem_takeWhile_imp
        (p := fun segment : Outstanding => decide (segment.CoveredBy after.sendUnacked)) mem
      exact of_decide_eq_true covers
    · -- a covered segment behind the first uncovered one would have been a fault
      rw [writes.movesPast_iff awaits (segments_eq ▸ List.mem_append_right _ mem)]
      intro covers
      exact none_left (List.any_eq_true.mpr ⟨segment, mem, decide_eq_true covers⟩)

/-- A segment that is sent for the first time has one copy from then on. -/
theorem launch (measured : connection.Measured config settled opened)
    (running : connection.phase ≠ .terminated) {fresh : Outstanding}
    (launches : connection.Launches now fresh after)
    (unacked_eq : after.sendUnacked = connection.sendUnacked)
    (finish_eq : after.sendNext = fresh.finish) (next_ne : after.sendNext ≠ connection.sendNext)
    (copies_eq : ∀ seq, connection.copies after seq = [fresh.seq].count seq)
    (distinct : ∀ segment ∈ connection.flight.segments, segment.seq ≠ fresh.seq) :
    connection.KeepsMeasure config (settled ++ opened) now after := by
  let transit : Transit := { seq := fresh.seq, finish := fresh.finish, sent := [now] }
  have opened_eq : opened.map (Transit.follow connection after now) = opened := by
    refine map_eq_self fun transit mem => ?_
    obtain ⟨segment, mem, tracks⟩ := measured.exists_tracked running mem
    refine Transit.follow_of_quiet ?_ (not_movesPast unacked_eq _)
    rw [copies_eq, tracks.seq_eq, List.count_eq_zero, List.mem_singleton]
    exact distinct segment mem
  have fresh_eq : Transit.follow connection after now
      { seq := connection.sendNext, finish := after.sendNext } = transit := by
    rw [Transit.follow_of_unacked rfl (copies_eq _), if_neg (not_movesPast unacked_eq _),
      launches.seq_eq, List.count_singleton_self, ← launches.seq_eq, finish_eq]
    rfl
  refine ⟨settled, opened ++ [transit], ?_, measured.acked, fun transit mem => ?_, fun _ => ?_,
    launches.estimate_eq ▸ measured.reflects⟩
  · rw [Transit.record, if_neg next_ne, List.map_append, List.map_append, measured.map_follow,
      opened_eq, List.map_singleton, fresh_eq, List.append_assoc]
  · rcases List.mem_append.mp mem with mem | mem
    · exact measured.unacked _ mem
    · rw [List.mem_singleton.mp mem]
  · rw [launches.segments_eq]
    refine List.rel_append (measured.tracks running) (.cons ⟨rfl, rfl, rfl, ?_, ?_⟩ .nil)
    · rw [launches.retries_eq]
      rfl
    · rw [launches.sentAt_eq]
      rfl

/-- Everything outstanding has one copy more when it is resent. -/
theorem resend (measured : connection.Measured config settled opened)
    (running : connection.phase ≠ .terminated) {ack : SeqNum}
    (segments_eq : after.flight.segments = connection.flight.segments.map (·.again now ack))
    (next_eq : after.sendNext = connection.sendNext)
    (unacked_eq : after.sendUnacked = connection.sendUnacked)
    (copies_eq : ∀ segment ∈ connection.flight.segments, connection.copies after segment.seq = 1)
    (reflects : after.roundTrip.Reflects config (settled.filterMap Transit.sample?)) :
    connection.KeepsMeasure config (settled ++ opened) now after := by
  have follow_eq : ∀ transit ∈ opened, Transit.follow connection after now transit =
      { transit with sent := transit.sent ++ [now] } := by
    intro transit mem
    obtain ⟨segment, mem, tracks⟩ := measured.exists_tracked running mem
    rw [Transit.follow_of_unacked tracks.acked_eq (tracks.seq_eq ▸ copies_eq segment mem),
      if_neg (not_movesPast unacked_eq _), ← tracks.acked_eq]
    rfl
  refine ⟨settled, opened.map fun transit => { transit with sent := transit.sent ++ [now] }, ?_,
    measured.acked, fun transit mem => ?_, fun _ => ?_, reflects⟩
  · rw [Transit.record, if_pos next_eq, List.append_nil, List.map_append, measured.map_follow,
      List.map_congr_left follow_eq]
  · obtain ⟨earlier, earlier_mem, rfl⟩ := List.mem_map.mp mem
    exact measured.unacked earlier earlier_mem
  · rw [segments_eq, List.forall₂_map_left_iff, List.forall₂_map_right_iff]
    refine (measured.tracks running).imp fun transit segment tracks => ?_
    refine ⟨tracks.seq_eq, tracks.finish_eq, tracks.acked_eq, ?_, List.getLast?_concat⟩
    rw [List.length_append, tracks.length_eq]
    rfl

end Measured
end Connection

namespace Station

variable {config : Config} {isn : SeqNum} {station after : Station} {ledger ledger' : Ledger}
  {count count' now : Nat} {log settled opened : List Transit}

namespace Sound

theorem launch_measured (sound : Sound config isn station ledger count)
    (sound' : Sound config isn after ledger' count') (isFront : ledger.script <+: ledger'.script)
    (taken_le : after.taken.length ≤ station.taken.length + 65535)
    (measured : station.connection.Measured config settled opened)
    (running : station.connection.phase ≠ .terminated) {fresh : Outstanding}
    (launches : station.connection.Launches now fresh after.connection)
    (unacked_eq : after.connection.sendUnacked = station.connection.sendUnacked) :
    station.connection.KeepsMeasure config (settled ++ opened) now after.connection := by
  obtain ⟨cargo, script_eq, carries⟩ := sound.script_eq_concat sound' isFront taken_le launches
  have writes := sound'.connection.writes
  have written : cargo ∈ ledger'.script := by simp [script_eq]
  have cargo_pos := writes.valid.length_pos written
  have length_le := writes.length_le written
  have extent_eq : extent ledger'.script = extent ledger.script + cargo.length := by
    simp [script_eq]
  refine measured.launch running launches unacked_eq ?_ ?_ (fun seq => ?_) fun segment mem => ?_
  · rw [sound'.next_eq, carries.finish_eq, extent_eq]
  · rw [sound'.next_eq, sound.next_eq, extent_eq, ne_eq,
      SeqNum.advance_inj isn (by omega) (by omega)]
    omega
  · rw [Connection.copies_eq launches.outbox_eq, List.countP_singleton,
      carries.occupiesFrom_eq cargo_pos, List.count_singleton]
    rfl
  · obtain ⟨position, rest, others, positive, near⟩ := writes.exists_carried
    have distinct := others.nodup_seq positive near
    rw [launches.segments_eq, List.map_append, List.nodup_append] at distinct
    exact distinct.2.2 _ (List.mem_map_of_mem mem) _ (List.mem_singleton_self _)

theorem keepsMeasure (sound : Sound config isn station ledger count)
    (sound' : Sound config isn after ledger' count') (isFront : ledger.script <+: ledger'.script)
    (taken_le : after.taken.length ≤ station.taken.length + 65535)
    (measured : station.connection.Measured config settled opened)
    (running : station.connection.phase ≠ .terminated)
    (conducts : station.connection.Conducts now after.connection) :
    station.connection.KeepsMeasure config (settled ++ opened) now after.connection := by
  cases conducts with
  | retires retires answer =>
      refine measured.retire running sound.connection.writes retires fun seq => ?_
      rcases answer with silent | echoed
      · exact Connection.copies_eq_zero (by rw [silent]) seq
      · rw [Connection.copies_eq echoed, List.countP_singleton, Connection.acknowledgment,
          Segment.occupiesFrom_acknowledgment]
        rfl
  | drops aborted =>
      rw [aborted]
      exact measured.of_quiet rfl rfl (Connection.copies_eq_zero (Nat.le_refl _)) rfl
        fun running => absurd rfl running
  | launches fresh launches unacked_eq =>
      exact sound.launch_measured sound' isFront taken_le measured running launches unacked_eq
  | resends _ resent next_eq unacked_eq outbox_eq paced =>
      have segments_eq := Outstanding.eq_of_mapM_resend resent
      obtain ⟨position, rest, carries, positive, near⟩ :=
        sound'.connection.writes.exists_carried
      have same_seq : after.connection.flight.segments.map (·.seq) =
          station.connection.flight.segments.map (·.seq) := by
        rw [segments_eq, List.map_map]
        rfl
      refine measured.resend running segments_eq next_eq unacked_eq (fun segment mem => ?_) ?_
      · rw [Connection.copies_eq outbox_eq, carries.countP_occupiesFrom positive]
        refine List.count_eq_one_of_mem (carries.nodup_seq positive near) ?_
        rw [same_seq]
        exact List.mem_map_of_mem mem
      · split at paced
        · exact measured.reflects.backOff paced
        · exact Except.ok.inj paced ▸ measured.reflects

end Sound

/-- An end is sound, and what was seen of its segments is in order. -/
def Measured (config : Config) (isn : SeqNum) (log : List Transit) (station : Station) : Prop :=
  ∃ ledger count settled opened, Sound config isn station ledger count ∧
    log = settled ++ opened ∧ station.connection.Measured config settled opened

namespace Measured

theorem create {connection : Connection} (created : Connection.create config isn = .ok connection) :
    Measured config isn [] { connection } :=
  ⟨_, _, [], [], .create created, rfl, .create created⟩

theorem of_keeps (sound : Sound config isn after ledger count) {before : Connection}
    (keeps : before.KeepsMeasure config log now after.connection) :
    Measured config isn (Transit.record log before after.connection now) after := by
  obtain ⟨settled, opened, log_eq, measured⟩ := keeps
  exact ⟨ledger, count, settled, opened, sound, log_eq, measured⟩

theorem undergo (measured : Measured config isn log station) {occurrence : Occurrence}
    (done : station.undergo occurrence now = .ok after) :
    Measured config isn (Transit.record log station.connection after.connection now) after := by
  obtain ⟨ledger, count, settled, opened, sound, rfl, measured⟩ := measured
  obtain ⟨ledger', count', sound', isFront⟩ := (sound.undergo occurrence now).of_ok done
  refine of_keeps sound' ?_
  cases occurrence with
  | emit =>
      obtain rfl := Except.ok.inj done
      rw [connection_emit]
      exact measured.of_quiet rfl rfl (Connection.copies_eq_zero (by simp)) rfl
        fun running => ⟨running, rfl⟩
  | hear =>
      obtain rfl := Except.ok.inj done
      rw [connection_hear]
      exact measured.of_quiet rfl rfl (Connection.copies_eq_zero (Nat.le_refl _)) rfl
        fun running => ⟨running, rfl⟩
  | operate operation =>
      obtain ⟨connection, applied, rfl⟩ := exists_of_undergo_operate done
      by_cases past : station.connection.phase = .terminated
      · -- segments that were never acknowledged are followed in vain
        obtain ⟨listening, idle⟩ := Connection.apply_of_terminated past
          (sound.connection.writes.cleared past) operation now
        rw [idle] at applied
        obtain rfl := Except.ok.inj applied
        exact measured.of_quiet rfl rfl (Connection.copies_eq_zero (Nat.le_refl _)) rfl
          fun running => ⟨running, rfl⟩
      · refine sound.keepsMeasure sound' isFront ?_ measured past
          (Connection.apply_conducts applied)
        rw [List.length_append]
        exact Nat.add_le_add_left (sound.connection.writes.length_takenBy_le operation) _

/-- So it is through a life. -/
theorem live (measured : Measured config isn log station) {history : List (Occurrence × Nat)}
    (done : station.live history = .ok after) :
    Measured config isn (station.transits log history) after := by
  induction history generalizing station log with
  | nil =>
      obtain rfl := Except.ok.inj done
      exact measured
  | cons step history ih =>
      obtain ⟨occurrence, now⟩ := step
      rw [live_cons] at done
      obtain ⟨middle, happened, done⟩ := exists_of_bind_eq_ok done
      rw [transits, happened]
      exact ih (measured.undergo happened) done

end Measured

/-- The estimates of an end are those after the round trips of exactly the segments that were sent
once until an acknowledgment removed them, in the order of sending. -/
theorem measures_sent_once {connection : Connection}
    (created : Connection.create config isn = .ok connection) {history : List (Occurrence × Nat)}
    (lived : live { connection } history = .ok station) :
    let log := transits { connection } [] history
    (∃ measured,
      (log.filterMap Transit.sample?).foldlM RoundTrip.observe (RoundTrip.initial config) =
        .ok measured ∧
      station.connection.roundTrip.smoothed = measured.smoothed ∧
      station.connection.roundTrip.deviation = measured.deviation) ∧
    (station.connection.phase ≠ .terminated →
      List.Forall₂ Transit.Tracks (log.filter (·.acked.isNone))
        station.connection.flight.segments) ∧
    (history.Pairwise (fun earlier later => earlier.2 ≤ later.2) →
      ∀ transit ∈ log, ∀ acked ∈ transit.acked, ∀ sent ∈ transit.sent, sent ≤ acked) ∧
    ∀ now after, station.connection.apply .expire now = .ok after →
      after.roundTrip.smoothed = station.connection.roundTrip.smoothed ∧
        after.roundTrip.deviation = station.connection.roundTrip.deviation := by
  intro log
  obtain ⟨ledger, count, settled, opened, sound, log_eq, measured⟩ :=
    (Measured.create created).live lived
  have log_eq : log = settled ++ opened := log_eq
  refine ⟨?_, fun running => ?_, fun forward transit mem => ?_, fun now after expired => ?_⟩
  · obtain ⟨estimate, timeout, folded, estimate_eq⟩ := measured.reflects
    refine ⟨estimate, ?_, by rw [estimate_eq], by rw [estimate_eq]⟩
    have unmeasured : opened.filterMap Transit.sample? = [] := by
      rw [List.filterMap_eq_nil_iff]
      intro transit mem
      exact Transit.sample?_of_unacked (measured.unacked transit mem)
    rw [log_eq, List.filterMap_append, unmeasured, List.append_nil]
    exact folded
  · rw [log_eq, measured.filter_unacked]
    exact measured.tracks running
  · obtain ⟨last, ordered⟩ := ordered_transits 0 (by simp) (by simp) forward transit mem
    exact ordered.acked_ge
  · obtain ⟨⟨result, middle⟩, done, rfl⟩ := exists_of_map_eq_ok expired
    rcases Connection.roundTrip_expire done with same | doubled
    · rw [same]
      exact ⟨rfl, rfl⟩
    · obtain ⟨timeout, -, done⟩ := exists_of_bind_eq_ok doubled
      rw [← Except.ok.inj done]
      exact ⟨rfl, rfl⟩

/-- The first of two segments is acknowledged in part and then to its end.  The second one is
resent, and acknowledged together with a third one. -/
def resendsSecond : List (Occurrence × Nat) :=
  [(.operate .openActive, 0),
    (.operate (.receive ((Cargo.syn true).encode ⟨7⟩ ⟨4294967295⟩ 4)), 16),
    (.operate (.send [1, 2]), 20), (.operate (.send [3]), 30), (.emit, 31),
    (.operate (.receive (Segment.acknowledgment ⟨8⟩ ⟨0⟩ 4)), 40),
    (.operate (.receive (Segment.acknowledgment ⟨8⟩ ⟨1⟩ 4)), 60), (.operate .expire, 70),
    (.operate (.send [4]), 80), (.operate (.receive (Segment.acknowledgment ⟨8⟩ ⟨3⟩ 4)), 104)]

/-- The resent segment is not measured, nor is the partial acknowledgment. -/
theorem measures_resendsSecond :
    ∃ (connection : Connection) (station : Station),
      Connection.create Network.narrow ⟨4294967294⟩ = .ok connection ∧
      live { connection } resendsSecond = .ok station ∧
      (transits { connection } [] resendsSecond).filterMap Transit.sample? = [16, 40, 24] ∧
      station.connection.roundTrip.smoothed = some 19 ∧
      station.connection.roundTrip.deviation = 10 := by
  obtain ⟨connection, station, created, lived, samples_eq⟩ :
      ∃ connection station, Connection.create Network.narrow ⟨4294967294⟩ = .ok connection ∧
        live { connection } resendsSecond = .ok station ∧
        (transits { connection } [] resendsSecond).filterMap Transit.sample? = [16, 40, 24] :=
    ⟨_, _, rfl, rfl, rfl⟩
  obtain ⟨⟨measured, folded, smoothed_eq, deviation_eq⟩, -⟩ := measures_sent_once created lived
  rw [samples_eq] at folded
  obtain rfl := Except.ok.inj folded
  exact ⟨connection, station, created, lived, samples_eq, smoothed_eq, deviation_eq⟩

end Station
end ReliableTransport
