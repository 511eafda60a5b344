import Mathlib.Algebra.GroupWithZero.Nat
import Mathlib.Data.List.TakeWhile
import ReliableTransport.Flight
import ReliableTransport.Proofs.Codec
import ReliableTransport.Proofs.Fault
import ReliableTransport.Proofs.Script
import ReliableTransport.Proofs.SeqNum

/-!
# Flights that carry a script

The outstanding segments carry consecutive entries of a script.  An acknowledgment of a front of
those entries removes exactly the segments that carry them, and a resend writes the remaining
entries once more.
-/

namespace ReliableTransport

namespace Cargo

/-- The bytes of the segment that carries an entry of a script. -/
def encode (cargo : Cargo) (seq ack : SeqNum) (window : UInt16) : Bytes :=
  Segment.encode { flags := cargo.flags, seq, ack, window } cargo.payload

theorem patchAck_encode (cargo : Cargo) (seq ack fresh : SeqNum) (window : UInt16) :
    Segment.patchAck (cargo.encode seq ack window) fresh = .ok (cargo.encode seq fresh window) :=
  Segment.patchAck_encode { flags := cargo.flags, seq, ack, window } cargo.payload fresh

end Cargo

namespace Script

/-- The segments that carry consecutive entries of a script from a position on. -/
def written (isn ack : SeqNum) (window : UInt16) : Nat → List Cargo → List Bytes
  | _, [] => []
  | position, cargo :: script =>
      cargo.encode (isn.advance position) ack window ::
        written isn ack window (position + cargo.length) script

theorem exists_of_mem_written {isn ack : SeqNum} {window : UInt16} {raw : Bytes}
    {front rest : List Cargo} (mem : raw ∈ written isn ack window (extent front) rest) :
    ∃ before cargo after, front ++ rest = before ++ cargo :: after ∧
      raw = cargo.encode (isn.advance (extent before)) ack window := by
  induction rest generalizing front with
  | nil => cases mem
  | cons cargo rest ih =>
      rcases List.mem_cons.mp mem with rfl | mem
      · exact ⟨front, cargo, rest, rfl, rfl⟩
      · have position : extent front + cargo.length = extent (front ++ [cargo]) := by simp
        rw [position] at mem
        obtain ⟨before, found, after, split, raw_eq⟩ := ih mem
        exact ⟨before, found, after, by rw [← split, List.append_assoc]; rfl, raw_eq⟩

end Script

open Script

/-- A segment as it is outstanding when it was sent once more. -/
def Outstanding.again (segment : Outstanding) (now : Nat) (ack : SeqNum) : Outstanding :=
  { segment with
    raw := segment.raw.overwrite Segment.ackOffset (Bytes.ofNumber 4 ack.val.toNat)
    sentAt := now
    retries := segment.retries + 1 }

/-- A segment that is long enough is sent once more if this can be counted. -/
theorem Outstanding.resend_ensures (segment : Outstanding) (now : Nat) (ack : SeqNum) :
    Fault.Ensures
      (fun fault => fault = .count ∧ UInt32.size ≤ segment.retries + 1 ∨
        fault = .shortSegment ∧ segment.raw.length < Segment.ackOffset + 4)
      (fun resent => segment.retries + 1 < UInt32.size ∧
        Segment.ackOffset + 4 ≤ segment.raw.length ∧ resent = segment.again now ack)
      (segment.resend now ack) := by
  rw [Outstanding.resend, countWord, Segment.patchAck]
  by_cases counted : segment.retries + 1 < UInt32.size
  · by_cases short : segment.raw.length < Segment.ackOffset + 4
    · rw [if_pos counted, if_pos short]
      exact Or.inr ⟨rfl, short⟩
    · rw [if_pos counted, if_neg short]
      exact ⟨counted, Nat.le_of_not_lt short, rfl⟩
  · rw [if_neg counted]
    exact Or.inl ⟨rfl, Nat.le_of_not_lt counted⟩

/-- An outstanding segment carries an entry of a script at a position. -/
structure Outstanding.Carries (segment : Outstanding) (isn : SeqNum) (window : UInt16)
    (position : Nat) (cargo : Cargo) : Prop where
  /-- The segment starts at the position. -/
  seq_eq : segment.seq = isn.advance position
  /-- It occupies the sequence numbers of the entry. -/
  length_eq : segment.length = cargo.length
  /-- It was written for the entry, with whatever acknowledgment number. -/
  raw_eq : ∃ ack, segment.raw = cargo.encode (isn.advance position) ack window

namespace Outstanding.Carries

variable {segment : Outstanding} {isn : SeqNum} {window : UInt16} {position : Nat} {cargo : Cargo}

theorem finish_eq (carries : segment.Carries isn window position cargo) :
    segment.finish = isn.advance (position + cargo.length) := by
  rw [finish, carries.seq_eq, carries.length_eq, SeqNum.advance_advance]

/-- A resent segment carries the same entry. -/
theorem resend {now : Nat} {ack : SeqNum} {resent : Outstanding}
    (carries : segment.Carries isn window position cargo)
    (done : segment.resend now ack = .ok resent) :
    resent.Carries isn window position cargo ∧ 0 < resent.retries ∧
      resent.raw = cargo.encode (isn.advance position) ack window := by
  obtain ⟨old, raw_eq⟩ := carries.raw_eq
  rw [Outstanding.resend, raw_eq, Cargo.patchAck_encode, countWord] at done
  by_cases counted : segment.retries + 1 < UInt32.size
  · rw [if_pos counted] at done
    obtain rfl := Except.ok.inj done
    exact ⟨⟨carries.seq_eq, carries.length_eq, ack, rfl⟩, Nat.succ_pos _, rfl⟩
  · rw [if_neg counted] at done
    cases done

theorem resend_error {now : Nat} {ack : SeqNum} {fault : Fault}
    (carries : segment.Carries isn window position cargo)
    (failed : segment.resend now ack = .error fault) :
    fault = .count ∧ UInt32.size ≤ segment.retries + 1 := by
  obtain ⟨old, raw_eq⟩ := carries.raw_eq
  rw [Outstanding.resend, raw_eq, Cargo.patchAck_encode, countWord] at failed
  by_cases counted : segment.retries + 1 < UInt32.size
  · rw [if_pos counted] at failed
    cases failed
  · rw [if_neg counted] at failed
    exact ⟨(Except.error.inj failed).symm, Nat.le_of_not_lt counted⟩

/-- A resend that can be counted sends the same entry with the acknowledgment number. -/
theorem resend_eq (carries : segment.Carries isn window position cargo)
    (counted : segment.retries + 1 < UInt32.size) (now : Nat) (ack : SeqNum) :
    segment.resend now ack = .ok (segment.again now ack) := by
  have ensures := segment.resend_ensures now ack
  cases done : segment.resend now ack with
  | ok resent => rw [(ensures.of_ok done).2.2]
  | error fault =>
      have uncounted := (carries.resend_error done).2
      omega

theorem raw_again (carries : segment.Carries isn window position cargo) (now : Nat) (ack : SeqNum) :
    (segment.again now ack).raw = cargo.encode (isn.advance position) ack window := by
  -- the bytes do not depend on the count of resends
  let fresh : Outstanding := { segment with retries := 0 }
  have carriesFresh : fresh.Carries isn window position cargo :=
    ⟨carries.seq_eq, carries.length_eq, carries.raw_eq⟩
  have counted : fresh.retries + 1 < UInt32.size := show 0 + 1 < UInt32.size by decide
  exact (carriesFresh.resend (carriesFresh.resend_eq counted now ack)).2.2

end Outstanding.Carries

namespace Flight

/-- Outstanding segments carry consecutive entries of a script from a position on. -/
inductive Carries (isn : SeqNum) (window : UInt16) :
    Nat → List Outstanding → List Cargo → Prop
  | nil (position : Nat) : Carries isn window position [] []
  | cons {position : Nat} {segment : Outstanding} {segments : List Outstanding} {cargo : Cargo}
      {script : List Cargo} : segment.Carries isn window position cargo →
      Carries isn window (position + cargo.length) segments script →
      Carries isn window position (segment :: segments) (cargo :: script)

namespace Carries

variable {isn : SeqNum} {window : UInt16} {position : Nat} {segments : List Outstanding}
  {script : List Cargo}

theorem append {others : List Outstanding} {rest : List Cargo}
    (first : Carries isn window position segments script)
    (second : Carries isn window (position + extent script) others rest) :
    Carries isn window position (segments ++ others) (script ++ rest) := by
  induction first with
  | nil position => simpa using second
  | cons head _ ih =>
      rw [extent_cons, ← Nat.add_assoc] at second
      exact cons head (ih second)

theorem concat {segment : Outstanding} {cargo : Cargo}
    (carries : Carries isn window position segments script)
    (last : segment.Carries isn window (position + extent script) cargo) :
    Carries isn window position (segments ++ [segment]) (script ++ [cargo]) :=
  carries.append (cons last (nil _))

/-- Segments that carry two parts of a script fall into two parts. -/
theorem split {front back : List Cargo}
    (carries : Carries isn window position segments (front ++ back)) :
    ∃ settled rest, segments = settled ++ rest ∧ Carries isn window position settled front ∧
      Carries isn window (position + extent front) rest back := by
  induction front generalizing position segments with
  | nil => exact ⟨[], segments, rfl, nil position, by simpa using carries⟩
  | cons cargo front ih =>
      cases carries with
      | cons head tail =>
          obtain ⟨settled, rest, rfl, carriesFront, carriesBack⟩ := ih tail
          refine ⟨_ :: settled, rest, rfl, cons head carriesFront, ?_⟩
          rwa [extent_cons, ← Nat.add_assoc]

theorem exists_of_mem (carries : Carries isn window position segments script)
    {segment : Outstanding} (mem : segment ∈ segments) :
    ∃ start, ∃ cargo ∈ script, segment.Carries isn window start cargo := by
  induction carries with
  | nil => cases mem
  | @cons position _ _ cargo _ head _ ih =>
      rcases List.mem_cons.mp mem with rfl | mem
      · exact ⟨position, cargo, List.mem_cons_self, head⟩
      · obtain ⟨start, other, written, carries⟩ := ih mem
        exact ⟨start, other, List.mem_cons_of_mem _ written, carries⟩

theorem nil_iff (carries : Carries isn window position segments script) :
    segments = [] ↔ script = [] := by
  cases carries with
  | nil => simp
  | cons => simp

theorem sum_length (carries : Carries isn window position segments script) :
    (segments.map (·.length)).sum = extent script := by
  induction carries with
  | nil => rfl
  | cons head _ ih => rw [List.map_cons, List.sum_cons, ih, head.length_eq, extent_cons]

theorem finish_getLast? {last : Outstanding}
    (carries : Carries isn window position segments script)
    (isLast : segments.getLast? = some last) :
    last.finish = isn.advance (position + extent script) := by
  induction carries with
  | nil => simp at isLast
  | @cons position segment segments cargo script head tail ih =>
      rw [extent_cons, ← Nat.add_assoc]
      cases tail with
      | nil =>
          obtain rfl := Option.some.inj isLast
          simpa using head.finish_eq
      | cons next rest => exact ih (by simpa using isLast)

theorem exists_getLast? {front : List Cargo} {cargo : Cargo}
    (carries : Carries isn window position segments (front ++ [cargo])) :
    ∃ last, segments.getLast? = some last ∧
      last.Carries isn window (position + extent front) cargo := by
  obtain ⟨settled, rest, rfl, -, carriesLast⟩ := carries.split
  cases carriesLast with
  | cons head tail =>
      cases tail
      exact ⟨_, List.getLast?_concat, head⟩

/-- The last segment carries the last entry. -/
theorem of_concat {segment : Outstanding}
    (carries : Carries isn window position (segments ++ [segment]) script) :
    ∃ front cargo, script = front ++ [cargo] ∧
      segment.Carries isn window (position + extent front) cargo := by
  rcases List.eq_nil_or_concat script with rfl | ⟨front, cargo, rfl⟩
  · simpa using carries.nil_iff.mpr rfl
  · rw [List.concat_eq_append] at carries ⊢
    obtain ⟨last, isLast, holds⟩ := carries.exists_getLast?
    rw [List.getLast?_concat] at isLast
    obtain rfl := Option.some.inj isLast
    exact ⟨front, cargo, rfl, holds⟩

theorem exists_finish_eq (carries : Carries isn window position segments script)
    (positive : ∀ cargo ∈ script, 0 < cargo.length) {segment : Outstanding}
    (mem : segment ∈ segments) :
    ∃ finish, segment.finish = isn.advance finish ∧ position < finish ∧
      finish ≤ position + extent script := by
  induction carries with
  | nil => simp at mem
  | @cons position head segments cargo script carriesHead tail ih =>
      have cargo_pos := positive cargo (by simp)
      rw [extent_cons]
      rcases List.mem_cons.mp mem with rfl | mem
      · exact ⟨position + cargo.length, carriesHead.finish_eq, by omega, by omega⟩
      · obtain ⟨finish, finish_eq, lt, le⟩ :=
          ih (fun cargo mem => positive cargo (List.mem_cons_of_mem _ mem)) mem
        exact ⟨finish, finish_eq, by omega, by omega⟩

theorem mapM_resend {now : Nat} {ack : SeqNum} {resent : List Outstanding}
    (carries : Carries isn window position segments script)
    (done : segments.mapM (·.resend now ack) = .ok resent) :
    Carries isn window position resent script ∧
      resent.map (·.raw) = written isn ack window position script ∧
      ∀ segment ∈ resent, 0 < segment.retries := by
  induction carries generalizing resent with
  | nil position =>
      obtain rfl := Except.ok.inj done
      exact ⟨nil position, rfl, by simp⟩
  | @cons position segment segments cargo script head tail ih =>
      rw [List.mapM_cons] at done
      obtain ⟨again, first, done⟩ := Fault.exists_of_bind_eq_ok done
      obtain ⟨rest, others, done⟩ := Fault.exists_of_bind_eq_ok done
      obtain rfl := Except.ok.inj done
      obtain ⟨carriesAgain, retries_pos, raw_eq⟩ := head.resend first
      obtain ⟨carriesRest, raws_eq, all_pos⟩ := ih others
      refine ⟨cons carriesAgain carriesRest, ?_, ?_⟩
      · rw [List.map_cons, raw_eq, raws_eq, written]
      · simpa [retries_pos] using all_pos

theorem mapM_resend_eq (carries : Carries isn window position segments script)
    (counted : ∀ segment ∈ segments, segment.retries + 1 < UInt32.size) (now : Nat) (ack : SeqNum) :
    segments.mapM (·.resend now ack) = .ok (segments.map (·.again now ack)) := by
  refine Fault.mapM_eq_ok fun segment mem => ?_
  obtain ⟨start, cargo, -, holds⟩ := carries.exists_of_mem mem
  exact holds.resend_eq (counted segment mem) now ack

theorem mapM_resend_error {now : Nat} {ack : SeqNum} {fault : Fault}
    (carries : Carries isn window position segments script)
    (failed : segments.mapM (·.resend now ack) = .error fault) :
    fault = .count ∧ ∃ segment ∈ segments, UInt32.size ≤ segment.retries + 1 := by
  induction carries with
  | nil => cases failed
  | @cons position segment segments cargo script head tail ih =>
      rw [List.mapM_cons] at failed
      rcases Fault.error_of_bind_eq_error failed with first | ⟨again, -, failed⟩
      · obtain ⟨fault_eq, many⟩ := head.resend_error first
        exact ⟨fault_eq, segment, List.mem_cons_self, many⟩
      · rcases Fault.error_of_bind_eq_error failed with others | ⟨rest, -, failed⟩
        · obtain ⟨fault_eq, other, mem, many⟩ := ih others
          exact ⟨fault_eq, other, List.mem_cons_of_mem segment mem, many⟩
        · cases failed

end Carries

/-- Outstanding segments cover the positions from a first to a last one without a gap. -/
structure Covers (flight : Flight) (start stop : SeqNum) : Prop where
  /-- Nothing is outstanding between equal positions. -/
  empty_iff : flight.segments = [] ↔ start = stop
  /-- The oldest segment starts at the first position. -/
  first : ∀ segment, flight.segments.head? = some segment → segment.seq = start
  /-- Each segment starts where the previous one ends. -/
  chain : flight.segments.IsChain fun segment next => segment.finish = next.seq
  /-- The youngest segment ends at the last position. -/
  last : ∀ segment, flight.segments.getLast? = some segment → segment.finish = stop

namespace Carries

variable {isn : SeqNum} {window : UInt16} {position : Nat} {segments : List Outstanding}
  {script : List Cargo}

theorem seq_head? {first : Outstanding} (carries : Carries isn window position segments script)
    (isFirst : segments.head? = some first) : first.seq = isn.advance position := by
  cases carries with
  | nil => simp at isFirst
  | cons head tail =>
      obtain rfl := Option.some.inj isFirst
      exact head.seq_eq

theorem isChain (carries : Carries isn window position segments script) :
    segments.IsChain fun segment next => segment.finish = next.seq := by
  induction carries with
  | nil => exact .nil
  | @cons position segment segments cargo script head tail ih =>
      cases tail with
      | nil => exact .singleton segment
      | cons next rest => exact .cons_cons (head.finish_eq.trans next.seq_eq.symm) ih

/-- Segments that carry a short script cover its positions. -/
theorem covers {flight : Flight} (carries : Carries isn window position flight.segments script)
    (positive : ∀ cargo ∈ script, 0 < cargo.length) (near : extent script < 4294967296) :
    flight.Covers (isn.advance position) (isn.advance (position + extent script)) where
  empty_iff := by
    rw [carries.nil_iff, SeqNum.advance_inj isn (by omega) (by omega)]
    constructor
    · rintro rfl
      rfl
    · intro none
      cases script with
      | nil => rfl
      | cons cargo script =>
          have cargo_pos := positive cargo List.mem_cons_self
          rw [extent_cons] at none
          omega
  first _ := carries.seq_head?
  chain := carries.isChain
  last _ := carries.finish_getLast?

end Carries

theorem push_of_carries {isn : SeqNum} {window : UInt16} {position length : Nat}
    {flight : Flight} {script : List Cargo}
    (carries : Carries isn window position flight.segments script) (length_pos : 0 < length)
    (raw : Bytes) (now : Nat) :
    flight.push raw (isn.advance (position + extent script)) length now =
      .ok
        ⟨flight.segments ++
          [{ raw, seq := isn.advance (position + extent script), length, sentAt := now
             retries := 0 }]⟩ := by
  rw [push, if_neg (by omega), if_neg]
  rw [Bool.not_eq_true, Option.any_eq_false_iff_get]
  intro isSome
  have finish_eq := carries.finish_getLast? (Option.some_get isSome).symm
  simp [finish_eq]

theorem acknowledge_of_append {flight : Flight} {settled rest : List Outstanding} {ack : SeqNum}
    (segments_eq : flight.segments = settled ++ rest)
    (covered : ∀ segment ∈ settled, segment.CoveredBy ack)
    (uncovered : ∀ segment ∈ rest, ¬ segment.CoveredBy ack) (now : Nat) (estimate : RoundTrip) :
    flight.acknowledge ack now estimate =
      ((samples settled now).foldlM RoundTrip.observe estimate).map fun estimate =>
        (settled.length, ⟨rest⟩, estimate) := by
  have all_covered : ∀ segment ∈ settled, decide (segment.CoveredBy ack) = true := by
    simpa using covered
  have rest_stays : rest.dropWhile (fun segment => decide (segment.CoveredBy ack)) = rest := by
    rw [List.dropWhile_eq_self_iff]
    intro nonempty
    simpa using uncovered _ (List.getElem_mem nonempty)
  have none_taken : rest.takeWhile (fun segment => decide (segment.CoveredBy ack)) = [] := by
    rw [List.takeWhile_eq_nil_iff]
    intro nonempty
    simpa using uncovered _ (List.get_mem rest ⟨0, nonempty⟩)
  have covered_eq : flight.covered ack = settled := by
    rw [Flight.covered, segments_eq, List.takeWhile_append_of_pos all_covered, none_taken,
      List.append_nil]
  have uncovered_eq : flight.uncovered ack = rest := by
    rw [Flight.uncovered, segments_eq, List.dropWhile_append_of_pos all_covered, rest_stays]
  have ordered : rest.any (fun segment => decide (segment.CoveredBy ack)) = false := by
    simpa using uncovered
  rw [acknowledge, covered_eq, uncovered_eq, ordered]
  cases (samples settled now).foldlM RoundTrip.observe estimate with
  | error fault => rfl
  | ok estimate => rfl

/-- The acknowledgment of a front of the carried script removes the segments that carry it. -/
theorem acknowledge_of_carries {isn : SeqNum} {window : UInt16} {position : Nat}
    {flight : Flight} {front back : List Cargo}
    (carries : Carries isn window position flight.segments (front ++ back))
    (positive : ∀ cargo ∈ front ++ back, 0 < cargo.length)
    (near : extent (front ++ back) < 2147483648) (now : Nat) (estimate : RoundTrip) :
    ∃ settled rest, flight.segments = settled ++ rest ∧
      Carries isn window (position + extent front) rest back ∧
      flight.acknowledge (isn.advance (position + extent front)) now estimate =
        ((samples settled now).foldlM RoundTrip.observe estimate).map fun estimate =>
          (settled.length, ⟨rest⟩, estimate) := by
  obtain ⟨settled, rest, segments_eq, carriesFront, carriesBack⟩ := carries.split
  rw [extent_append] at near
  refine ⟨settled, rest, segments_eq, carriesBack, acknowledge_of_append segments_eq ?_ ?_ _ _⟩
  · intro segment mem
    obtain ⟨finish, finish_eq, lt, le⟩ := carriesFront.exists_finish_eq
      (fun cargo mem => positive cargo (List.mem_append_left _ mem)) mem
    rw [Outstanding.CoveredBy, finish_eq,
      SeqNum.atOrBefore_advance_iff isn (by omega) (by omega)]
    exact le
  · intro segment mem
    obtain ⟨finish, finish_eq, lt, le⟩ := carriesBack.exists_finish_eq
      (fun cargo mem => positive cargo (List.mem_append_right _ mem)) mem
    rw [Outstanding.CoveredBy, finish_eq,
      SeqNum.atOrBefore_advance_iff isn (by omega) (by omega)]
    omega

/-- An acknowledgment of any position removes the segments that end at or before it. -/
theorem acknowledge_of_within {isn : SeqNum} {window : UInt16} {position : Nat}
    {flight : Flight} {front back : List Cargo}
    (carries : Carries isn window position flight.segments (front ++ back))
    (positive : ∀ cargo ∈ front ++ back, 0 < cargo.length)
    (near : extent (front ++ back) < 2147483648) {known : Nat}
    (front_le : extent front ≤ known) (le : known ≤ extent (front ++ back))
    (within : ∀ cargo rest, back = cargo :: rest → known < extent front + cargo.length)
    (now : Nat) (estimate : RoundTrip) :
    ∃ settled rest, flight.segments = settled ++ rest ∧
      Carries isn window (position + extent front) rest back ∧
      flight.acknowledge (isn.advance (position + known)) now estimate =
        ((samples settled now).foldlM RoundTrip.observe estimate).map fun estimate =>
          (settled.length, ⟨rest⟩, estimate) := by
  obtain ⟨settled, rest, segments_eq, carriesFront, carriesBack⟩ := carries.split
  rw [extent_append] at near le
  refine ⟨settled, rest, segments_eq, carriesBack, acknowledge_of_append segments_eq ?_ ?_ _ _⟩
  · intro segment mem
    obtain ⟨finish, finish_eq, lt, finish_le⟩ := carriesFront.exists_finish_eq
      (fun cargo mem => positive cargo (List.mem_append_left _ mem)) mem
    rw [Outstanding.CoveredBy, finish_eq,
      SeqNum.atOrBefore_advance_iff isn (by omega) (by omega)]
    omega
  · intro segment mem
    cases carriesBack with
    | nil => cases mem
    | @cons _ head segments cargo others carriesHead tail =>
        have beyond := within cargo others rfl
        rw [extent_cons] at near le
        obtain ⟨finish, finish_eq, lt, finish_le⟩ : ∃ finish,
            segment.finish = isn.advance finish ∧ position + known < finish ∧
              finish ≤ position + extent front + (cargo.length + extent others) := by
          rcases List.mem_cons.mp mem with rfl | mem
          · exact ⟨_, carriesHead.finish_eq, by omega, by omega⟩
          · obtain ⟨finish, finish_eq, lt, finish_le⟩ := tail.exists_finish_eq
              (fun cargo mem => positive cargo (by simp [mem])) mem
            exact ⟨finish, finish_eq, by omega, by omega⟩
        rw [Outstanding.CoveredBy, finish_eq,
          SeqNum.atOrBefore_advance_iff isn (by omega) (by omega)]
        omega

end Flight
end ReliableTransport
