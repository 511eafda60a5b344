import ReliableTransport.Proofs.Connection.Replies
import ReliableTransport.Proofs.FlightOrder
import ReliableTransport.Proofs.Station.Basic

/-!
# What can be seen of a segment

A segment that occupies sequence numbers is followed from the time when the next position moves past
it.  Its copies are seen where they are queued, and its acknowledgment is seen where the oldest
unacknowledged position moves past its end.  Nothing else of the end is looked at: not what it
remembers of the segments that are outstanding, and not its estimates.
-/

namespace ReliableTransport

open Fault Script

/-- A byte string is a segment that occupies sequence numbers from a position on. -/
def Bytes.occupiesFrom (raw : Bytes) (seq : SeqNum) : Bool :=
  (Segment.decode raw).toOption.any fun segment => segment.occupies && segment.header.seq = seq

theorem Segment.occupiesFrom_acknowledgment (seq ack : SeqNum) (window : UInt16)
    (start : SeqNum) : (acknowledgment seq ack window).occupiesFrom start = false := by
  have vacant := occupies_acknowledgment seq ack window
  rw [occupies_of_decode (decode_acknowledgment seq ack window)] at vacant
  rw [Bytes.occupiesFrom, decode_acknowledgment]
  simp [Except.toOption, vacant]

theorem Outstanding.Carries.occupiesFrom_eq {segment : Outstanding} {isn : SeqNum}
    {window : UInt16} {position : Nat} {cargo : Cargo}
    (carries : segment.Carries isn window position cargo) (cargo_pos : 0 < cargo.length)
    (start : SeqNum) : segment.raw.occupiesFrom start = decide (segment.seq = start) := by
  obtain ⟨ack, raw_eq⟩ := carries.raw_eq
  have occupies : (cargo.segment (isn.advance position) ack window).occupies = true := by
    cases cargo with
    | syn answers => rfl
    | data chunk =>
        refine Segment.occupies_of_payload ?_
        rw [Cargo.length_data] at cargo_pos
        exact List.length_pos_iff.mp cargo_pos
    | fin => rfl
  rw [Bytes.occupiesFrom, raw_eq, Cargo.decode_encode, carries.seq_eq]
  change ((cargo.segment (isn.advance position) ack window).occupies && _) = _
  rw [occupies, Bool.true_and]
  rfl

namespace Flight.Carries

variable {isn : SeqNum} {window : UInt16} {position : Nat} {segments : List Outstanding}
  {script : List Cargo}

/-- As many copies are found at a position as outstanding segments that start there. -/
theorem countP_occupiesFrom (carries : Carries isn window position segments script)
    (positive : ∀ cargo ∈ script, 0 < cargo.length) (start : SeqNum) :
    (segments.map (·.raw)).countP (·.occupiesFrom start) =
      (segments.map (·.seq)).count start := by
  induction carries with
  | nil => rfl
  | @cons position head segments cargo script carriesHead _ ih =>
      have others := ih fun cargo mem => positive cargo (List.mem_cons_of_mem _ mem)
      rw [List.map_cons, List.map_cons, List.countP_cons, List.count_cons, others,
        carriesHead.occupiesFrom_eq (positive cargo List.mem_cons_self)]
      simp

end Flight.Carries

/-- The oldest unacknowledged position moves to a position ahead of it, or past that. -/
def Connection.MovesPast (before after : Connection) (position : SeqNum) : Prop :=
  0 < position.since before.sendUnacked ∧
    position.since before.sendUnacked ≤ after.sendUnacked.since before.sendUnacked

instance (before after : Connection) (position : SeqNum) :
    Decidable (before.MovesPast after position) :=
  inferInstanceAs (Decidable (_ ∧ _))

/-- The number of segments from a position on that are queued while the connection changes. -/
def Connection.copies (before after : Connection) (seq : SeqNum) : Nat :=
  (after.outbox.drop before.outbox.length).countP (·.occupiesFrom seq)

/-- Sequence numbers that were put on the wire as one segment, with what can be seen of its copies
and of its acknowledgment. -/
structure Transit where
  /-- The position of the first one. -/
  seq : SeqNum
  /-- The position behind the last one. -/
  finish : SeqNum
  /-- When copies were sent, oldest first. -/
  sent : List Nat := []
  /-- When all of them were acknowledged. -/
  acked : Option Nat := none
  deriving DecidableEq, Repr

namespace Transit

/-- The round-trip time of a segment that was sent once until it was acknowledged. -/
def sample? (transit : Transit) : Option Nat :=
  match transit.sent, transit.acked with
  | [sent], some acked => some (acked - sent)
  | _, _ => none

/-- Until a segment is acknowledged, its copies are noted when they are queued, and so is its
acknowledgment. -/
def follow (before after : Connection) (now : Nat) (transit : Transit) : Transit :=
  if transit.acked.isSome then transit
  else
    { transit with
      sent := transit.sent ++ List.replicate (before.copies after transit.seq) now
      acked := if before.MovesPast after transit.finish then some now else none }

/-- What becomes of all segments when the connection changes, a new one among them if the next
position moves. -/
def record (log : List Transit) (before after : Connection) (now : Nat) : List Transit :=
  let fresh : Transit := { seq := before.sendNext, finish := after.sendNext }
  (log ++ if after.sendNext = before.sendNext then [] else [fresh]).map (follow before after now)

end Transit

/-- The segments of an end while things happen to it, after those of an earlier time. -/
def Station.transits (station : Station) (log : List Transit) :
    List (Occurrence × Nat) → List Transit
  | [] => log
  | (occurrence, now) :: history =>
      match station.undergo occurrence now with
      | .error _ => log
      | .ok after =>
          after.transits (Transit.record log station.connection after.connection now) history

namespace Connection

variable {before after : Connection}

theorem copies_eq {more : List Bytes} (outbox_eq : after.outbox = before.outbox ++ more)
    (seq : SeqNum) : before.copies after seq = more.countP (·.occupiesFrom seq) := by
  rw [copies, outbox_eq, List.drop_left]

theorem copies_eq_zero (outbox_le : after.outbox.length ≤ before.outbox.length) (seq : SeqNum) :
    before.copies after seq = 0 := by
  rw [copies, List.drop_eq_nil_of_le outbox_le, List.countP_nil]

theorem not_movesPast (unacked_eq : after.sendUnacked = before.sendUnacked) (position : SeqNum) :
    ¬ before.MovesPast after position := by
  rw [MovesPast, unacked_eq, SeqNum.since_self]
  omega

end Connection

namespace Transit

variable {transit : Transit} {segment : Outstanding} {before after : Connection} {now : Nat}
  {log : List Transit}

theorem follow_of_acked (acked : transit.acked.isSome) :
    follow before after now transit = transit :=
  if_pos acked

/-- A segment that is not acknowledged yet gets one more copy for each that is queued. -/
theorem follow_of_unacked (unacked : transit.acked = none) {copies : Nat}
    (copies_eq : before.copies after transit.seq = copies) :
    follow before after now transit =
      { transit with
        sent := transit.sent ++ List.replicate copies now
        acked := if before.MovesPast after transit.finish then some now else none } := by
  rw [follow, unacked, copies_eq, if_neg (by simp)]

theorem follow_of_quiet (uncopied : before.copies after transit.seq = 0)
    (unmoved : ¬ before.MovesPast after transit.finish) :
    follow before after now transit = transit := by
  cases acked_eq : transit.acked with
  | some acked => exact follow_of_acked (by rw [acked_eq]; rfl)
  | none =>
      rw [follow_of_unacked acked_eq uncopied, if_neg unmoved, List.replicate_zero,
        List.append_nil, ← acked_eq]

theorem record_of_quiet (next_eq : after.sendNext = before.sendNext)
    (unacked_eq : after.sendUnacked = before.sendUnacked)
    (uncopied : ∀ seq, before.copies after seq = 0) : record log before after now = log := by
  rw [record, if_pos next_eq, List.append_nil]
  exact map_eq_self fun transit _ =>
    follow_of_quiet (uncopied transit.seq) (Connection.not_movesPast unacked_eq _)

/-- No copy was sent after some time, nor after the acknowledgment. -/
structure Ordered (latest : Nat) (transit : Transit) : Prop where
  /-- No copy was sent later. -/
  sent_le : ∀ sent ∈ transit.sent, sent ≤ latest
  /-- No copy was sent after the acknowledgment. -/
  acked_ge : ∀ acked ∈ transit.acked, ∀ sent ∈ transit.sent, sent ≤ acked

/-- What is noted later is in order. -/
theorem Ordered.follow {latest : Nat} (ordered : transit.Ordered latest) (latest_le : latest ≤ now)
    (before after : Connection) : (transit.follow before after now).Ordered now := by
  have sent_le : ∀ sent ∈ transit.sent, sent ≤ now :=
    fun sent mem => (ordered.sent_le sent mem).trans latest_le
  rw [Transit.follow]
  split
  · exact ⟨sent_le, ordered.acked_ge⟩
  · have copied_le : ∀ sent ∈ transit.sent ++
        List.replicate (before.copies after transit.seq) now, sent ≤ now := by
      intro sent mem
      rcases List.mem_append.mp mem with mem | mem
      · exact sent_le sent mem
      · exact (List.eq_of_mem_replicate mem).le
    refine ⟨copied_le, fun acked isAcked => ?_⟩
    simp only at isAcked
    split at isAcked
    · obtain rfl := Option.some.inj isAcked
      exact copied_le
    · cases isAcked

theorem ordered_record {latest : Nat} (ordered : ∀ transit ∈ log, transit.Ordered latest)
    (latest_le : latest ≤ now) (before after : Connection) :
    ∀ transit ∈ record log before after now, transit.Ordered now := by
  intro transit mem
  obtain ⟨earlier, earlier_mem, rfl⟩ := List.mem_map.mp mem
  refine Ordered.follow ?_ latest_le before after
  rcases List.mem_append.mp earlier_mem with mem | mem
  · exact ordered earlier mem
  · split at mem
    · cases mem
    · obtain rfl := List.mem_singleton.mp mem
      exact ⟨by simp, by simp⟩

theorem sample?_of_unacked (unacked : transit.acked = none) : transit.sample? = none := by
  rw [sample?, unacked]
  split
  · next isAcked => cases isAcked
  · rfl

/-- What was seen of an outstanding segment: one copy more than it was resent. -/
structure Tracks (transit : Transit) (segment : Outstanding) : Prop where
  /-- It starts at its position. -/
  seq_eq : transit.seq = segment.seq
  /-- It ends where it ends. -/
  finish_eq : transit.finish = segment.finish
  /-- It is not acknowledged. -/
  acked_eq : transit.acked = none
  /-- Its copies were counted. -/
  length_eq : transit.sent.length = segment.retries + 1
  /-- The last one was sent when it was last sent. -/
  last_eq : transit.sent.getLast? = some segment.sentAt

theorem Tracks.sample?_eq (tracks : transit.Tracks segment) (now : Nat) :
    sample? { transit with acked := some now } =
      if segment.retries = 0 then some (now - segment.sentAt) else none := by
  have length_eq := tracks.length_eq
  have last_eq := tracks.last_eq
  rw [sample?]
  split
  next sent acked sent_eq acked_eq =>
    simp only at sent_eq acked_eq
    rw [sent_eq, List.getLast?_singleton] at last_eq
    rw [sent_eq, List.length_singleton] at length_eq
    rw [if_pos (by omega), Option.some.inj acked_eq, Option.some.inj last_eq]
  next other =>
    rw [if_neg]
    intro never
    rw [never, List.length_eq_one_iff] at length_eq
    obtain ⟨sent, sent_eq⟩ := length_eq
    exact other sent now sent_eq rfl

theorem filterMap_sample?_acked {segments : List Outstanding}
    (tracks : List.Forall₂ Tracks log segments) (now : Nat) :
    (log.map fun transit => { transit with acked := some now }).filterMap sample? =
      Flight.samples segments now := by
  induction tracks with
  | nil => rfl
  | @cons transit segment log segments head tail ih =>
      rw [List.map_cons, List.filterMap_cons, head.sample?_eq now, ih, Flight.samples,
        Flight.samples, List.filter_cons]
      by_cases never : segment.retries = 0
      · simp [never]
      · simp [never]

end Transit

namespace Station

/-- Where time does not run back, no segment is sent after its acknowledgment. -/
theorem ordered_transits {station : Station} {log : List Transit} (latest : Nat)
    (ordered : ∀ transit ∈ log, transit.Ordered latest) {history : List (Occurrence × Nat)}
    (begins : ∀ step ∈ history, latest ≤ step.2)
    (forward : history.Pairwise fun earlier later => earlier.2 ≤ later.2) :
    ∀ transit ∈ station.transits log history, ∃ last, transit.Ordered last := by
  induction history generalizing station log latest with
  | nil => exact fun transit mem => ⟨latest, ordered transit mem⟩
  | cons step history ih =>
      obtain ⟨occurrence, now⟩ := step
      obtain ⟨next, forward⟩ := List.pairwise_cons.mp forward
      rw [transits]
      split
      · exact fun transit mem => ⟨latest, ordered transit mem⟩
      · exact ih now (Transit.ordered_record ordered (begins _ List.mem_cons_self) _ _) next forward

end Station
end ReliableTransport
