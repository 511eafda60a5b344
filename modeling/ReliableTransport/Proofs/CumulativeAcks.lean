import ReliableTransport.Proofs.FlightOrder
import ReliableTransport.Proofs.RoundTrip

/-!
# Cumulative acknowledgments

A flight that was filled with adjoining segments is asked to take acknowledgments and to resend, in
any order.  As long as the acknowledgments stay near the filled positions, stale, repeated and
partial ones included, the flight holds the segments that end behind all of them.  Nothing of such
a segment changes but its acknowledgment number, its time of sending and the count of its resends.
-/

namespace ReliableTransport

open Fault

/-- A segment that is put into a flight. -/
structure Launch where
  /-- The encoded segment. -/
  raw : Bytes
  /-- Position of its first sequence number. -/
  seq : SeqNum
  /-- Number of sequence numbers that it occupies. -/
  length : Nat
  /-- When it is sent. -/
  sentAt : Nat
  deriving DecidableEq, Repr

namespace Launch

/-- The position behind the segment. -/
def finish (launch : Launch) : SeqNum :=
  launch.seq.advance launch.length

/-- The segment as it is outstanding before any resend. -/
def outstanding (launch : Launch) : Outstanding where
  raw := launch.raw
  seq := launch.seq
  length := launch.length
  sentAt := launch.sentAt
  retries := 0

@[simp]
theorem finish_outstanding (launch : Launch) : launch.outstanding.finish = launch.finish := rfl

/-- The segment ends behind all of the acknowledged positions. -/
def Awaited (base : SeqNum) (acks : List SeqNum) (launch : Launch) : Prop :=
  ∀ ack ∈ acks, ack.aheadOf base < launch.finish.aheadOf base

instance (base : SeqNum) (acks : List SeqNum) (launch : Launch) :
    Decidable (launch.Awaited base acks) :=
  inferInstanceAs (Decidable (∀ ack ∈ acks, ack.aheadOf base < launch.finish.aheadOf base))

/-- Number of sequence numbers that segments occupy together. -/
def total (launches : List Launch) : Nat :=
  (launches.map (·.length)).sum

end Launch

namespace Flight

/-- A flight that is filled with one segment after the other. -/
def fill (launches : List Launch) : Except Fault Flight :=
  launches.foldlM
    (fun flight launch => flight.push launch.raw launch.seq launch.length launch.sentAt) empty

/-- A request to a flight. -/
inductive Call where
  /-- Take a cumulative acknowledgment, with whatever the estimates are by then. -/
  | acknowledge (ack : SeqNum) (now : Nat) (estimate : RoundTrip)
  /-- Resend what is outstanding, with a fresh acknowledgment number. -/
  | resend (now : Nat) (ack : SeqNum)

/-- How many segments a request removes, and the flight behind it. -/
def answer (flight : Flight) : Call → Except Fault (Nat × Flight)
  | .acknowledge ack now estimate => do
      let (removed, rest, _) ← flight.acknowledge ack now estimate
      return (removed, rest)
  | .resend now ack => do
      let resent ← flight.resend now ack
      return (0, resent)

/-- How many segments each of a list of requests removes, and the flight behind the last one. -/
def answerAll (flight : Flight) : List Call → Except Fault (List Nat × Flight)
  | [] => .ok ([], flight)
  | call :: calls => do
      let (removed, rest) ← flight.answer call
      let (counts, last) ← rest.answerAll calls
      return (removed :: counts, last)

/-- The acknowledged positions among some requests. -/
def acks (calls : List Call) : List SeqNum :=
  calls.filterMap fun
    | .acknowledge ack _ _ => some ack
    | .resend _ _ => none

/-- The acknowledgment numbers that the resends among some requests write. -/
def refreshes (calls : List Call) : List SeqNum :=
  calls.filterMap fun
    | .acknowledge _ _ _ => none
    | .resend _ ack => some ack

/-- What is outstanding of a segment behind resends that wrote some acknowledgment numbers. -/
structure Renews (written : List SeqNum) (launch : Launch) (segment : Outstanding) : Prop where
  /-- The segment keeps its position. -/
  seq_eq : segment.seq = launch.seq
  /-- It keeps its length. -/
  length_eq : segment.length = launch.length
  /-- It counts the resends. -/
  retries_eq : segment.retries = written.length
  /-- It is untouched unless it was resent. -/
  untouched : written = [] → segment = launch.outstanding
  /-- Otherwise it shows the last acknowledgment number. -/
  raw_eq : ∀ ack, written.getLast? = some ack →
    segment.raw = launch.raw.overwrite Segment.ackOffset (Bytes.ofNumber 4 ack.val.toNat)

/-- The flight holds what is awaited behind some requests. -/
def Keeps (base : SeqNum) (launches : List Launch) (calls : List Call) (flight : Flight) : Prop :=
  List.Forall₂ (Renews (refreshes calls))
    (launches.filter fun launch => launch.Awaited base (acks calls)) flight.segments

/-- What can keep a flight from answering a request behind some others: times or resends out of
range, or a segment that is too short for an acknowledgment number. -/
def Hinders (base : SeqNum) (launches : List Launch) (done : List Call) (fault : Fault) :
    Call → Prop
  | .acknowledge ack now estimate =>
      fault = .duration ∧ refreshes done = [] ∧
        (samples ((launches.filter fun launch => launch.Awaited base (acks done) ∧
          launch.finish.aheadOf base ≤ ack.aheadOf base).map Launch.outstanding) now).foldlM
            RoundTrip.observe estimate = .error .duration
  | .resend _ _ =>
      fault = .count ∧ UInt32.size ≤ (refreshes done).length + 1 ∨
        fault = .shortSegment ∧ ∃ launch ∈ launches, launch.Awaited base (acks done) ∧
          launch.raw.length < Segment.ackOffset + 4

theorem acks_append (calls more : List Call) : acks (calls ++ more) = acks calls ++ acks more :=
  List.filterMap_append

theorem refreshes_append (calls more : List Call) :
    refreshes (calls ++ more) = refreshes calls ++ refreshes more :=
  List.filterMap_append

theorem foldlM_push {segments : List Outstanding} {launches : List Launch}
    (chain : (segments ++ launches.map Launch.outstanding).IsChain fun segment next =>
      segment.finish = next.seq)
    (positive : ∀ launch ∈ launches, 0 < launch.length) :
    launches.foldlM
        (fun (flight : Flight) launch =>
          flight.push launch.raw launch.seq launch.length launch.sentAt) ⟨segments⟩ =
      .ok ⟨segments ++ launches.map Launch.outstanding⟩ := by
  induction launches generalizing segments with
  | nil => simp [pure, Except.pure]
  | cons launch launches ih =>
      have launch_pos := positive launch List.mem_cons_self
      have adjoins :
          segments.getLast?.any (fun last => decide (last.finish ≠ launch.seq)) = false := by
        rw [List.map_cons, List.isChain_append] at chain
        rw [Option.any_eq_false]
        intro last isLast
        have adjoins : last.finish = launch.seq :=
          chain.2.2 last isLast launch.outstanding rfl
        simp [adjoins]
      have pushed : push ⟨segments⟩ launch.raw launch.seq launch.length launch.sentAt =
          .ok ⟨segments ++ [launch.outstanding]⟩ := by
        rw [push, if_neg (Nat.ne_of_gt launch_pos), adjoins]
        rfl
      have moved : segments ++ (launch :: launches).map Launch.outstanding =
          (segments ++ [launch.outstanding]) ++ launches.map Launch.outstanding := by simp
      rw [List.foldlM_cons, pushed, moved]
      rw [moved] at chain
      exact ih chain fun later mem => positive later (List.mem_cons_of_mem _ mem)

namespace Renews

variable {written : List SeqNum} {launch : Launch} {segment : Outstanding}

theorem finish_eq (renews : Renews written launch segment) : segment.finish = launch.finish := by
  rw [Outstanding.finish, renews.seq_eq, renews.length_eq, Launch.finish]

theorem short (renews : Renews written launch segment)
    (short : segment.raw.length < Segment.ackOffset + 4) :
    launch.raw.length < Segment.ackOffset + 4 := by
  cases isLast : written.getLast? with
  | none =>
      rw [renews.untouched (List.getLast?_eq_none_iff.mp isLast)] at short
      exact short
  | some ack =>
      rw [renews.raw_eq ack isLast] at short
      simp only [Bytes.overwrite, List.length_append, List.length_take, List.length_drop,
        Bytes.length_ofNumber] at short
      omega

theorem resend {ack : SeqNum} {now : Nat} (renews : Renews written launch segment)
    (long : Segment.ackOffset + 4 ≤ segment.raw.length) :
    Renews (written ++ [ack]) launch (segment.again now ack) where
  seq_eq := renews.seq_eq
  length_eq := renews.length_eq
  retries_eq := by simp [Outstanding.again, renews.retries_eq]
  untouched none := by simp at none
  raw_eq last isLast := by
    rw [List.getLast?_concat] at isLast
    obtain rfl := Option.some.inj isLast
    rw [Outstanding.again]
    cases earlier : written.getLast? with
    | none => rw [renews.untouched (List.getLast?_eq_none_iff.mp earlier), Launch.outstanding]
    | some old =>
        rw [renews.raw_eq old earlier] at long ⊢
        simp only [Bytes.overwrite, List.length_append, List.length_take, List.length_drop,
          Bytes.length_ofNumber] at long
        exact Bytes.overwrite_overwrite (by omega) (by simp)

end Renews

namespace Keeps

variable {base : SeqNum} {total : Nat} {launches : List Launch} {done : List Call}
  {flight : Flight}

theorem spans (keeps : Keeps base launches done flight)
    (filled : Spans base total (launches.map Launch.outstanding)) :
    Spans base total flight.segments := by
  have finishes : (launches.filter fun launch => launch.Awaited base (acks done)).map
      Launch.finish = flight.segments.map (·.finish) :=
    map_eq_of_forall₂ (fun launch segment renews => renews.finish_eq.symm) keeps
  refine filled.of_sublist ?_
  rw [← finishes, List.map_map]
  exact List.filter_sublist.map Launch.finish

theorem segments_eq (keeps : Keeps base launches done flight) (none : refreshes done = []) :
    flight.segments =
      (launches.filter fun launch => launch.Awaited base (acks done)).map Launch.outstanding := by
  rw [map_eq_of_forall₂ (g := id) (fun launch segment renews => (renews.untouched none).symm) keeps,
    List.map_id]

theorem samples_eq (keeps : Keeps base launches done flight) (some : refreshes done ≠ [])
    (taken : Outstanding → Bool) (now : Nat) : samples (flight.segments.filter taken) now = [] := by
  have none_fresh : ∀ segment ∈ flight.segments.filter taken, ¬ segment.retries = 0 := by
    intro segment mem zero
    obtain ⟨launch, -, renews⟩ := exists_of_mem_forall₂ keeps (List.mem_of_mem_filter mem)
    rw [renews.retries_eq] at zero
    exact some (List.length_eq_zero_iff.mp zero)
  rw [samples, List.filter_eq_nil_iff.mpr (by simpa using none_fresh), List.map_nil]

theorem hinders_of_samples_error {ack : SeqNum} {now : Nat} {estimate : RoundTrip} {fault : Fault}
    (keeps : Keeps base launches done flight)
    (timed : (samples (flight.segments.filter fun segment =>
      segment.finish.aheadOf base ≤ ack.aheadOf base) now).foldlM RoundTrip.observe estimate =
        .error fault) :
    Hinders base launches done fault (.acknowledge ack now estimate) := by
  obtain rfl := RoundTrip.foldlM_observe_error timed
  have none : refreshes done = [] := by
    by_contra some
    rw [keeps.samples_eq some] at timed
    cases timed
  have taken : flight.segments.filter (fun segment =>
        segment.finish.aheadOf base ≤ ack.aheadOf base) =
      (launches.filter fun launch => launch.Awaited base (acks done) ∧
        launch.finish.aheadOf base ≤ ack.aheadOf base).map Launch.outstanding := by
    rw [keeps.segments_eq none, List.filter_map, List.filter_filter]
    refine congrArg _ (List.filter_congr fun launch _ => ?_)
    rw [Bool.decide_and, Bool.and_comm, Function.comp_apply, Launch.finish_outstanding]
  rw [taken] at timed
  exact ⟨rfl, none, timed⟩

theorem acknowledged {ack : SeqNum} (keeps : Keeps base launches done flight) (now : Nat)
    (estimate : RoundTrip) :
    Keeps base launches (done ++ [.acknowledge ack now estimate])
      ⟨flight.segments.filter fun segment =>
        ack.aheadOf base < segment.finish.aheadOf base⟩ := by
  have awaited : (launches.filter fun launch =>
          launch.Awaited base (acks (done ++ [.acknowledge ack now estimate]))) =
        (launches.filter fun launch => launch.Awaited base (acks done)).filter fun launch =>
          ack.aheadOf base < launch.finish.aheadOf base := by
    rw [List.filter_filter]
    refine List.filter_congr fun launch _ => ?_
    rw [acks_append, ← Bool.decide_and, decide_eq_decide]
    simp only [Launch.Awaited, acks, List.filterMap_cons, List.filterMap_nil,
      List.forall_mem_append, List.forall_mem_singleton]
    exact and_comm
  have unchanged : refreshes (done ++ [.acknowledge ack now estimate]) = refreshes done := by
    simp [refreshes]
  rw [Keeps, unchanged, awaited]
  refine List.rel_filter (fun launch segment renews => ?_) keeps
  simp only [renews.finish_eq]

/-- An acknowledgment removes what ends at or before it. -/
theorem acknowledge {ack : SeqNum} (keeps : Keeps base launches done flight)
    (filled : Spans base total (launches.map Launch.outstanding))
    (lower : (total : Int) - 2147483648 ≤ ack.aheadOf base) (upper : ack.aheadOf base ≤ total)
    (now : Nat) (estimate : RoundTrip) :
    Ensures (fun fault => Hinders base launches done fault (.acknowledge ack now estimate))
      (fun result => Keeps base launches (done ++ [.acknowledge ack now estimate]) result.2 ∧
        result.1 + result.2.segments.length = flight.segments.length)
      (flight.answer (.acknowledge ack now estimate)) := by
  rw [answer, (keeps.spans filled).acknowledge_eq lower upper]
  cases timed : (samples (flight.segments.filter fun segment =>
      segment.finish.aheadOf base ≤ ack.aheadOf base) now).foldlM RoundTrip.observe estimate with
  | error fault => exact keeps.hinders_of_samples_error timed
  | ok after =>
      refine ⟨keeps.acknowledged now estimate, ?_⟩
      have split := List.length_eq_length_filter_add (l := flight.segments)
        fun segment => decide (segment.finish.aheadOf base ≤ ack.aheadOf base)
      simp only [← decide_not, Int.not_le] at split
      exact split.symm

theorem resend {ack : SeqNum} (keeps : Keeps base launches done flight) (now : Nat) :
    Ensures (fun fault => Hinders base launches done fault (.resend now ack))
      (fun result => Keeps base launches (done ++ [.resend now ack]) result.2 ∧
        result.1 + result.2.segments.length = flight.segments.length)
      (flight.answer (.resend now ack)) := by
  have resent : Ensures (fun fault => Hinders base launches done fault (.resend now ack))
      (fun resent : Flight => List.Forall₂ (fun segment again =>
        Segment.ackOffset + 4 ≤ segment.raw.length ∧ again = segment.again now ack)
          flight.segments resent.segments)
      (flight.resend now ack) := by
    rw [Flight.resend]
    refine (Ensures.mapM fun segment mem => ?_).bind fun segments related => related
    refine (segment.resend_ensures now ack).mono (fun fault permitted => ?_) fun again holds =>
      holds.2
    obtain ⟨launch, kept, renews⟩ := exists_of_mem_forall₂ keeps mem
    refine permitted.imp (And.imp_right fun many => ?_) (And.imp_right fun short => ?_)
    · rwa [← renews.retries_eq]
    · obtain ⟨put, awaited⟩ := List.mem_filter.mp kept
      exact ⟨launch, put, of_decide_eq_true awaited, renews.short short⟩
  rw [answer]
  refine resent.bind fun after related => ⟨?_, ?_⟩
  · have unchanged : acks (done ++ [.resend now ack]) = acks done := by simp [acks]
    rw [Keeps, unchanged, refreshes_append]
    refine forall₂_comp (fun launch segment again renews made => ?_) keeps related
    obtain ⟨long, rfl⟩ := made
    exact renews.resend long
  · rw [Nat.zero_add]
    exact related.length_eq.symm

/-- A request keeps what is awaited behind it, and removes what is not. -/
theorem answer {call : Call} (keeps : Keeps base launches done flight)
    (filled : Spans base total (launches.map Launch.outstanding))
    (near : ∀ ack ∈ acks [call],
      (total : Int) - 2147483648 ≤ ack.aheadOf base ∧ ack.aheadOf base ≤ total) :
    Ensures (fun fault => Hinders base launches done fault call)
      (fun result => Keeps base launches (done ++ [call]) result.2 ∧
        result.1 + result.2.segments.length = flight.segments.length)
      (flight.answer call) := by
  cases call with
  | acknowledge ack now estimate =>
      obtain ⟨lower, upper⟩ := near ack List.mem_cons_self
      exact keeps.acknowledge filled lower upper now estimate
  | resend now ack => exact keeps.resend now

theorem answerAll {calls : List Call} (keeps : Keeps base launches done flight)
    (filled : Spans base total (launches.map Launch.outstanding))
    (near : ∀ ack ∈ acks calls,
      (total : Int) - 2147483648 ≤ ack.aheadOf base ∧ ack.aheadOf base ≤ total) :
    Ensures
      (fun fault => ∃ before call rest, calls = before ++ call :: rest ∧
        Hinders base launches (done ++ before) fault call)
      (fun result => Keeps base launches (done ++ calls) result.2 ∧
        result.1.sum + result.2.segments.length = flight.segments.length)
      (flight.answerAll calls) := by
  induction calls generalizing done flight with
  | nil => exact ⟨by simpa using keeps, by simp⟩
  | cons call calls ih =>
      rw [← List.singleton_append, acks_append] at near
      obtain ⟨near_first, near_rest⟩ := List.forall_mem_append.mp near
      rw [Flight.answerAll]
      refine ((keeps.answer filled near_first).mono (fun fault hinders => ?_)
        fun result holds => holds).bind fun result holds => ?_
      · exact ⟨[], call, calls, rfl, by simpa using hinders⟩
      obtain ⟨kept, removed⟩ := holds
      refine ((ih kept near_rest).mono (fun fault hinders => ?_)
        fun result holds => holds).bind fun last others => ⟨?_, ?_⟩
      · obtain ⟨before, later, rest, calls_eq, hinders⟩ := hinders
        exact ⟨call :: before, later, rest, by rw [calls_eq]; rfl, by simpa using hinders⟩
      · simpa using others.1
      · have removed_later := others.2
        simp only [List.sum_cons]
        omega

end Keeps

/-- Whatever acknowledgments arrive near the positions that were filled, the flight holds the
segments that end behind all of them, and what it reports adds up to what it removed. -/
theorem fill_answerAll (launches : List Launch) (base : SeqNum) (calls : List Call)
    (adjoin : launches.IsChain fun older younger => older.finish = younger.seq)
    (positive : ∀ launch ∈ launches, 0 < launch.length)
    (starts : ∀ launch, launches.head? = some launch → launch.seq = base)
    (short : Launch.total launches < 2147483648)
    (near : ∀ ack ∈ acks calls, (Launch.total launches : Int) - 2147483648 ≤ ack.aheadOf base ∧
      ack.aheadOf base ≤ Launch.total launches) :
    Ensures
      (fun fault => ∃ done call rest, calls = done ++ call :: rest ∧
        Hinders base launches done fault call)
      (fun result =>
        List.Forall₂ (Renews (refreshes calls))
            (launches.filter fun launch => launch.Awaited base (acks calls)) result.2.segments ∧
          result.1.sum + result.2.segments.length = launches.length)
      (fill launches >>= fun flight => flight.answerAll calls) := by
  have chain : (launches.map Launch.outstanding).IsChain fun segment next =>
      segment.finish = next.seq := (List.isChain_map Launch.outstanding).mpr adjoin
  have filled : Spans base (Launch.total launches) (launches.map Launch.outstanding) := by
    have first : ∀ segment, (launches.map Launch.outstanding).head? = some segment →
        segment.seq.aheadOf base = 0 ∧ 0 < 0 + (segment.length : Int) := by
      intro segment isFirst
      rw [List.head?_map, Option.map_eq_some_iff] at isFirst
      obtain ⟨launch, isFirst, rfl⟩ := isFirst
      have launch_pos := positive launch (List.mem_of_head? isFirst)
      have base_ahead : base.aheadOf base = 0 := by simp [SeqNum.aheadOf_eq]
      rw [Launch.outstanding, starts launch isFirst, base_ahead, Int.zero_add]
      exact ⟨rfl, Int.natCast_pos.mpr launch_pos⟩
    refine Spans.of_isChain short chain ?_ first ?_
    · simpa [Launch.outstanding] using positive
    · rw [Int.zero_add, List.map_map]
      exact Int.le_refl _
  have keeps : Keeps base launches [] ⟨launches.map Launch.outstanding⟩ := by
    have all_awaited : (launches.filter fun launch => launch.Awaited base (acks [])) = launches :=
      List.filter_eq_self.mpr fun launch _ => by simp [Launch.Awaited, acks]
    rw [Keeps, all_awaited, List.forall₂_map_right_iff, List.forall₂_same]
    exact fun launch _ => ⟨rfl, rfl, rfl, fun _ => rfl, fun ack isLast => by cases isLast⟩
  have fill_eq : fill launches = .ok ⟨launches.map Launch.outstanding⟩ := by
    rw [fill, empty, foldlM_push (by rwa [List.nil_append]) positive, List.nil_append]
  have answered := keeps.answerAll filled near
  rw [fill_eq]
  refine answered.mono (fun fault hinders => hinders) fun result holds => ⟨holds.1, ?_⟩
  rw [holds.2, List.length_map]

/-- Two segments across the end of the position space. -/
def wrapping : List Launch :=
  [{ raw := (Cargo.data [1, 2]).encode ⟨4294967295⟩ ⟨7⟩ 10, seq := ⟨4294967295⟩, length := 2
     sentAt := 0 },
   { raw := (Cargo.data [3]).encode ⟨1⟩ ⟨7⟩ 10, seq := ⟨1⟩, length := 1, sentAt := 3 }]

/-- The first segment is acknowledged, the second one resent, and two stale acknowledgments follow,
one of which is as old as it may be. -/
def requests : List Call :=
  [.acknowledge ⟨1⟩ 5 (.initial {}), .resend 9 ⟨8⟩, .acknowledge ⟨0⟩ 9 (.initial {}),
    .acknowledge ⟨2147483650⟩ 9 (.initial {})]

/-- The second of two segments across the end of the position space is left, as it was resent. -/
theorem fill_answerAll_wrapping :
    ∃ after : Flight, (fill wrapping >>= fun flight => flight.answerAll requests) =
        .ok ([1, 0, 0, 0], after) ∧
      List.Forall₂ (Renews [⟨8⟩]) (wrapping.drop 1) after.segments := by
  have answered := fill_answerAll wrapping ⟨4294967295⟩ requests (by decide) (by decide)
    (by decide) (by decide) (by decide)
  have kept : (wrapping.filter fun launch => launch.Awaited ⟨4294967295⟩ (acks requests)) =
      wrapping.drop 1 := by decide
  have ran : ∃ after : Flight, (fill wrapping >>= fun flight => flight.answerAll requests) =
      .ok ([1, 0, 0, 0], after) := ⟨_, rfl⟩
  obtain ⟨after, ran⟩ := ran
  have held := (answered.of_ok ran).1
  rw [kept] at held
  exact ⟨after, ran, held⟩

/-- With a coarse clock, the acknowledgment of a segment that was never resent is not answered: the
measured time leaves the range of times. -/
theorem not_answered_coarse :
    let launch : Launch :=
      { raw := (Cargo.data [5]).encode ⟨0⟩ ⟨0⟩ 0, seq := ⟨0⟩, length := 1, sentAt := 0 }
    let config : Config := { clockGranularity := Duration.limit - 1 }
    config.Valid ∧ (fill [launch] >>= fun flight => flight.answerAll
      [.acknowledge ⟨1⟩ Duration.second (.initial config)]) = .error .duration :=
  ⟨rfl, rfl⟩

end Flight
end ReliableTransport
