import Mathlib.Data.List.Chain
import Mathlib.Data.List.Forall2
import ReliableTransport.Proofs.Flight

/-!
# Flights in the order of their positions

A loop that stops at the first segment which an acknowledgment does not cover removes exactly the
covered ones if no later segment is covered.  The half-space order of positions is not transitive,
so that this needs a bound: all positions in question lie within half of the space.
-/

namespace ReliableTransport

section Lists

variable {α β γ : Type}

theorem takeWhile_eq_filter {property : α → Bool} {items : List α}
    (early : items.Pairwise fun older younger => property younger → property older) :
    items.takeWhile property = items.filter property ∧
      items.dropWhile property = items.filter fun item => !property item := by
  induction items with
  | nil => exact ⟨rfl, rfl⟩
  | cons item items ih =>
      obtain ⟨first, rest⟩ := List.pairwise_cons.mp early
      cases holds : property item with
      | true => simp [holds, ih rest]
      | false =>
          have none_left : ∀ later ∈ items, property later = false := fun later mem => by
            by_contra taken
            simp [first later mem (by simpa using taken)] at holds
          constructor
          · simp only [List.takeWhile_cons, List.filter_cons, holds]
            simpa using (List.filter_eq_nil_iff.mpr (by simpa using none_left)).symm
          · simp only [List.dropWhile_cons, List.filter_cons, holds]
            simpa using (List.filter_eq_self.mpr (by simpa using none_left)).symm

theorem map_eq_self {change : α → α} {items : List α}
    (same : ∀ item ∈ items, change item = item) : items.map change = items :=
  (List.map_congr_left same).trans (List.map_id items)

variable {first : α → β → Prop} {second : β → γ → Prop} {both : α → γ → Prop} {as : List α}
  {bs : List β} {cs : List γ}

theorem map_eq_of_forall₂ {f : α → γ} {g : β → γ} (same : ∀ a b, first a b → f a = g b)
    (related : List.Forall₂ first as bs) : as.map f = bs.map g := by
  induction related with
  | nil => rfl
  | cons head _ ih => rw [List.map_cons, List.map_cons, same _ _ head, ih]

theorem exists_of_mem_forall₂ (related : List.Forall₂ first as bs) {b : β} (mem : b ∈ bs) :
    ∃ a ∈ as, first a b := by
  induction related with
  | nil => cases mem
  | cons head _ ih =>
      rcases List.mem_cons.mp mem with rfl | mem
      · exact ⟨_, List.mem_cons_self, head⟩
      · obtain ⟨a, earlier, holds⟩ := ih mem
        exact ⟨a, List.mem_cons_of_mem _ earlier, holds⟩

theorem forall₂_comp (compose : ∀ a b c, first a b → second b c → both a c)
    (related : List.Forall₂ first as bs) (others : List.Forall₂ second bs cs) :
    List.Forall₂ both as cs := by
  induction related generalizing cs with
  | nil =>
      cases others
      exact .nil
  | cons head _ ih =>
      cases others with
      | cons next rest => exact .cons (compose _ _ _ head next) (ih rest)

end Lists

/-- Segments that were resent are the same as sent once more. -/
theorem Outstanding.eq_of_mapM_resend {segments resent : List Outstanding} {now : Nat}
    {ack : SeqNum} (done : segments.mapM (·.resend now ack) = .ok resent) :
    resent = segments.map (·.again now ack) := by
  have each : Fault.Ensures (fun _ => True)
      (List.Forall₂ (fun segment again => segment.again now ack = again) segments)
      (segments.mapM (·.resend now ack)) :=
    Fault.Ensures.mapM fun segment _ =>
      (segment.resend_ensures now ack).mono (fun _ _ => trivial) fun _ holds => holds.2.2.symm
  rw [map_eq_of_forall₂ (g := id) (fun _ _ same => same) (each.of_ok done), List.map_id]

namespace Flight

open Script

namespace Carries

variable {isn : SeqNum} {window : UInt16} {position : Nat} {segments : List Outstanding}
  {script : List Cargo}

theorem exists_seq_eq (carries : Carries isn window position segments script)
    (positive : ∀ cargo ∈ script, 0 < cargo.length) {segment : Outstanding}
    (mem : segment ∈ segments) :
    ∃ start, segment.seq = isn.advance start ∧ position ≤ start ∧
      start < position + extent script := by
  induction carries with
  | nil => cases mem
  | @cons position head segments cargo script carriesHead _ ih =>
      have cargo_pos := positive cargo List.mem_cons_self
      rw [extent_cons]
      rcases List.mem_cons.mp mem with rfl | mem
      · exact ⟨position, carriesHead.seq_eq, Nat.le_refl _, by omega⟩
      · obtain ⟨start, seq_eq, le, lt⟩ :=
          ih (fun cargo mem => positive cargo (List.mem_cons_of_mem _ mem)) mem
        exact ⟨start, seq_eq, by omega, by omega⟩

theorem nodup_seq (carries : Carries isn window position segments script)
    (positive : ∀ cargo ∈ script, 0 < cargo.length) (near : extent script < 4294967296) :
    (segments.map (·.seq)).Nodup := by
  induction carries with
  | nil => exact List.nodup_nil
  | @cons position head segments cargo script carriesHead carriesTail ih =>
      have cargo_pos := positive cargo List.mem_cons_self
      have others : ∀ cargo ∈ script, 0 < cargo.length :=
        fun cargo mem => positive cargo (List.mem_cons_of_mem _ mem)
      rw [extent_cons] at near
      rw [List.map_cons, List.nodup_cons]
      refine ⟨fun again => ?_, ih others (by omega)⟩
      obtain ⟨segment, mem, same⟩ := List.mem_map.mp again
      obtain ⟨start, seq_eq, le, lt⟩ := carriesTail.exists_seq_eq others mem
      rw [seq_eq, carriesHead.seq_eq, SeqNum.advance_inj isn (by omega) (by omega)] at same
      omega

end Carries

/-- Outstanding segments end one behind the other within a stretch of positions. -/
structure Spans (base : SeqNum) (total : Nat) (segments : List Outstanding) : Prop where
  /-- The stretch is shorter than half of the space. -/
  near : total < 2147483648
  /-- Every segment ends within the stretch. -/
  within : ∀ segment ∈ segments,
    0 < segment.finish.aheadOf base ∧ segment.finish.aheadOf base ≤ total
  /-- A younger segment ends behind an older one. -/
  ordered : segments.Pairwise fun older younger =>
    older.finish.aheadOf base < younger.finish.aheadOf base

/-- Adjoining segments of positive lengths end one behind the other.  The first of them may start
before the base. -/
theorem Spans.of_isChain {base : SeqNum} {total : Nat} {segments : List Outstanding} {start : Int}
    (near : total < 2147483648)
    (chain : segments.IsChain fun segment next => segment.finish = next.seq)
    (positive : ∀ segment ∈ segments, 0 < segment.length)
    (first : ∀ segment, segments.head? = some segment →
      segment.seq.aheadOf base = start ∧ 0 < start + segment.length)
    (total_ge : start + ((segments.map (·.length)).sum : Nat) ≤ total) :
    Spans base total segments := by
  -- for the induction: all segments end behind the start, too
  suffices located : (∀ segment ∈ segments, start < segment.finish.aheadOf base ∧
      0 < segment.finish.aheadOf base ∧ segment.finish.aheadOf base ≤ total) ∧
      segments.Pairwise fun older younger =>
        older.finish.aheadOf base < younger.finish.aheadOf base from
    ⟨near, fun segment mem => (located.1 segment mem).2, located.2⟩
  induction segments generalizing start with
  | nil => exact ⟨by simp, .nil⟩
  | cons segment segments ih =>
      obtain ⟨seq_eq, finish_pos⟩ := first segment rfl
      obtain ⟨adjoins, chain⟩ := List.isChain_cons.mp chain
      have segment_pos := positive segment List.mem_cons_self
      rw [List.map_cons, List.sum_cons, Int.natCast_add] at total_ge
      have finish_eq : segment.finish.aheadOf base = start + segment.length := by
        rw [Outstanding.finish, SeqNum.advance_aheadOf (by omega), seq_eq]
      obtain ⟨behind, ordered⟩ := ih chain
        (fun later mem => positive later (List.mem_cons_of_mem _ mem))
        (fun next isNext => ⟨by rw [← adjoins next isNext, finish_eq], by omega⟩) (by omega)
      refine ⟨fun later mem => ?_, List.pairwise_cons.mpr ⟨fun later mem => ?_, ordered⟩⟩
      · rcases List.mem_cons.mp mem with rfl | mem
        · omega
        · have later_behind := behind later mem
          omega
      · rw [finish_eq]
        exact (behind later mem).1

namespace Spans

variable {base ack : SeqNum} {total : Nat} {segments : List Outstanding}

theorem of_sublist {others : List Outstanding} (spans : Spans base total others)
    (sublist : (segments.map (·.finish)).Sublist (others.map (·.finish))) :
    Spans base total segments := by
  refine ⟨spans.near, fun segment mem => ?_, ?_⟩
  · obtain ⟨other, other_mem, finish_eq⟩ :=
      List.mem_map.mp (sublist.subset (List.mem_map_of_mem mem))
    rw [← finish_eq]
    exact spans.within other other_mem
  · have finishes : (others.map (·.finish)).Pairwise fun older younger =>
        older.aheadOf base < younger.aheadOf base := List.pairwise_map.mpr spans.ordered
    have kept := finishes.sublist sublist
    rwa [List.pairwise_map] at kept

theorem coveredBy_iff (spans : Spans base total segments)
    (lower : (total : Int) - 2147483648 ≤ ack.aheadOf base) (upper : ack.aheadOf base ≤ total)
    {segment : Outstanding} (mem : segment ∈ segments) :
    segment.CoveredBy ack ↔ segment.finish.aheadOf base ≤ ack.aheadOf base := by
  have near := spans.near
  have finish_within := spans.within segment mem
  rw [Outstanding.CoveredBy, SeqNum.atOrBefore_iff_aheadOf base (by omega) (by omega)]

/-- Such an acknowledgment takes out the segments that end at or before it, wherever they are in
the flight. -/
theorem covered_eq (spans : Spans base total segments)
    (lower : (total : Int) - 2147483648 ≤ ack.aheadOf base) (upper : ack.aheadOf base ≤ total) :
    covered ⟨segments⟩ ack =
        segments.filter (fun segment => segment.finish.aheadOf base ≤ ack.aheadOf base) ∧
      uncovered ⟨segments⟩ ack =
        segments.filter (fun segment => ack.aheadOf base < segment.finish.aheadOf base) := by
  have early : segments.Pairwise fun older younger =>
      decide (younger.CoveredBy ack) → decide (older.CoveredBy ack) := by
    refine spans.ordered.imp_of_mem fun {older younger} older_mem younger_mem before taken => ?_
    rw [decide_eq_true_iff, spans.coveredBy_iff lower upper younger_mem] at taken
    rw [decide_eq_true_iff, spans.coveredBy_iff lower upper older_mem]
    omega
  obtain ⟨taken, left⟩ := takeWhile_eq_filter early
  refine ⟨taken.trans ?_, left.trans ?_⟩
  · exact List.filter_congr fun segment mem => by simp [spans.coveredBy_iff lower upper mem]
  · refine List.filter_congr fun segment mem => ?_
    rw [← decide_not, decide_eq_decide, spans.coveredBy_iff lower upper mem, Int.not_le]

/-- The acknowledgment fails only with the estimates. -/
theorem acknowledge_eq (spans : Spans base total segments)
    (lower : (total : Int) - 2147483648 ≤ ack.aheadOf base) (upper : ack.aheadOf base ≤ total)
    (now : Nat) (estimate : RoundTrip) :
    acknowledge ⟨segments⟩ ack now estimate =
      ((samples (segments.filter fun segment => segment.finish.aheadOf base ≤ ack.aheadOf base)
        now).foldlM RoundTrip.observe estimate).map fun estimate =>
          ((segments.filter fun segment => segment.finish.aheadOf base ≤ ack.aheadOf base).length,
            ⟨segments.filter fun segment => ack.aheadOf base < segment.finish.aheadOf base⟩,
            estimate) := by
  obtain ⟨taken, left⟩ := spans.covered_eq lower upper
  refine acknowledge_of_append ?_ ?_ ?_ now estimate
  · rw [← taken, ← left]
    exact List.takeWhile_append_dropWhile.symm
  · intro segment mem
    obtain ⟨mem, before⟩ := List.mem_filter.mp mem
    rw [spans.coveredBy_iff lower upper mem]
    exact of_decide_eq_true before
  · intro segment mem
    obtain ⟨mem, behind⟩ := List.mem_filter.mp mem
    rw [spans.coveredBy_iff lower upper mem, Int.not_le]
    exact of_decide_eq_true behind

end Spans
end Flight
end ReliableTransport
