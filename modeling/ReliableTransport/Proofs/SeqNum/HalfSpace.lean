import Mathlib.Order.RelIso.Set
import ReliableTransport.Proofs.SeqNum

/-!
# The order of positions within half of the space

The comparisons see no more of two positions than the distance between them, so that nothing changes
when both are moved.  Where positions are counted from a base, and their counts span less than half
of the space, the comparisons are those of the counts, wherever the space wraps: a strict total
order.  Half of the space apart, the strict comparison holds both ways and the weak one neither way.
-/

namespace ReliableTransport
namespace SeqNum

variable {positions : Set SeqNum} {counts : Set Nat}

theorem since_advance_advance (left right : SeqNum) (length : Nat) :
    (left.advance length).since (right.advance length) = left.since right := by
  have distance_lt := left.since_lt right
  have left_eq := advance_since right left
  generalize left.since right = distance at distance_lt left_eq
  subst left_eq
  rw [advance_advance, Nat.add_comm distance, ← advance_advance,
    since_of_advance (by rwa [since_self, Nat.zero_add]), since_self, Nat.zero_add]

theorem before_advance_advance_iff (left right : SeqNum) (length : Nat) :
    (left.advance length).Before (right.advance length) ↔ left.Before right := by
  rw [Before, since_advance_advance, Before]

theorem atOrBefore_advance_advance_iff (left right : SeqNum) (length : Nat) :
    (left.advance length).AtOrBefore (right.advance length) ↔ left.AtOrBefore right :=
  not_congr (before_advance_advance_iff right left length)

theorem after_advance_advance_iff (left right : SeqNum) (length : Nat) :
    (left.advance length).After (right.advance length) ↔ left.After right :=
  before_advance_advance_iff right left length

/-- Counts that span less than half of the space. -/
def Narrow (counts : Set Nat) : Prop :=
  ∀ i ∈ counts, ∀ j ∈ counts, j < i + 2147483648

/-- Positions that span less than half of the space: from some base, their counts do. -/
def Near (positions : Set SeqNum) : Prop :=
  ∃ (base : SeqNum) (counts : Set Nat), Narrow counts ∧ positions = base.advance '' counts

/-- The comparisons put positions into one strict total order. -/
structure TotallyOrdered (positions : Set SeqNum) : Prop where
  /-- The strict comparison is a strict total order. -/
  before : IsStrictTotalOrder positions (Subrel Before (· ∈ positions))
  /-- The weak comparison allows equality too. -/
  atOrBefore_iff : ∀ left ∈ positions, ∀ right ∈ positions,
    left.AtOrBefore right ↔ left.Before right ∨ left = right
  /-- The reverse comparison holds of the other pairs. -/
  after_iff : ∀ left ∈ positions, ∀ right ∈ positions,
    left.After right ↔ ¬ (left.Before right ∨ left = right)

theorem Narrow.injOn (narrow : Narrow counts) (base : SeqNum) : Set.InjOn base.advance counts := by
  intro i i_mem j j_mem same
  have ahead := narrow i i_mem j j_mem
  have behind := narrow j j_mem i i_mem
  exact (advance_inj base (by omega) (by omega)).mp same

/-- Narrow counts, in their order, are embedded in the positions that they lead to. -/
def Narrow.embedding (narrow : Narrow counts) (base : SeqNum) :
    Subrel (· < ·) (· ∈ counts) ↪r Subrel Before (· ∈ base.advance '' counts) where
  toFun count := ⟨base.advance count.1, Set.mem_image_of_mem _ count.2⟩
  inj' := by
    intro ⟨i, i_mem⟩ ⟨j, j_mem⟩ same
    exact Subtype.ext (narrow.injOn base i_mem j_mem (congrArg Subtype.val same))
  map_rel_iff' := by
    intro ⟨i, i_mem⟩ ⟨j, j_mem⟩
    exact before_advance_iff base (narrow i i_mem j j_mem) (narrow j j_mem i i_mem)

theorem Narrow.surjective_embedding (narrow : Narrow counts) (base : SeqNum) :
    Function.Surjective (narrow.embedding base) := by
  rintro ⟨_, count, count_mem, rfl⟩
  exact ⟨⟨count, count_mem⟩, rfl⟩

theorem Narrow.totallyOrdered (narrow : Narrow counts) (base : SeqNum) :
    TotallyOrdered (base.advance '' counts) where
  before :=
    -- Every position has a count, so that the order of the counts is the order of the positions.
    let sameOrder := RelIso.ofSurjective _ (narrow.surjective_embedding base)
    sameOrder.symm.toRelEmbedding.isStrictTotalOrder
  atOrBefore_iff := by
    rintro _ ⟨i, i_mem, rfl⟩ _ ⟨j, j_mem, rfl⟩
    have ahead := narrow i i_mem j j_mem
    have behind := narrow j j_mem i i_mem
    rw [atOrBefore_advance_iff base ahead behind, before_advance_iff base ahead behind,
      (narrow.injOn base).eq_iff i_mem j_mem]
    exact Nat.le_iff_lt_or_eq
  after_iff := by
    rintro _ ⟨i, i_mem, rfl⟩ _ ⟨j, j_mem, rfl⟩
    have ahead := narrow i i_mem j j_mem
    have behind := narrow j j_mem i i_mem
    rw [after_advance_iff base ahead behind, before_advance_iff base ahead behind,
      (narrow.injOn base).eq_iff i_mem j_mem, ← Nat.le_iff_lt_or_eq, Nat.not_le]

theorem Near.totallyOrdered (near : Near positions) : TotallyOrdered positions := by
  obtain ⟨base, counts, narrow, rfl⟩ := near
  exact narrow.totallyOrdered base

/-- Positions that are moved alike span no more than before. -/
theorem Near.advance (near : Near positions) (length : Nat) :
    Near ((·.advance length) '' positions) := by
  obtain ⟨base, counts, narrow, rfl⟩ := near
  refine ⟨base.advance length, counts, narrow, ?_⟩
  rw [Set.image_image]
  refine Set.image_congr fun count _ => ?_
  rw [advance_advance, advance_advance, Nat.add_comm]

/-- Counts that are less than `2 ^ 31` apart compare as the positions that they lead to from a base,
and their difference is the distance.  At exactly `2 ^ 31` the order breaks down. -/
theorem embeds_counts :
    (∀ (base : SeqNum) (i j : Nat), j < i + 2147483648 → i < j + 2147483648 →
      ((base.advance i).Before (base.advance j) ↔ i < j) ∧
      ((base.advance i).AtOrBefore (base.advance j) ↔ i ≤ j) ∧
      ((base.advance i).After (base.advance j) ↔ j < i) ∧
      (i ≤ j → (base.advance j).since (base.advance i) = j - i)) ∧
    (∀ positions, Near positions →
      TotallyOrdered positions ∧ ∀ length, TotallyOrdered ((·.advance length) '' positions)) ∧
    (∀ (left right : SeqNum) (length : Nat),
      ((left.advance length).Before (right.advance length) ↔ left.Before right) ∧
      ((left.advance length).AtOrBefore (right.advance length) ↔ left.AtOrBefore right) ∧
      ((left.advance length).After (right.advance length) ↔ left.After right) ∧
      (left.advance length).since (right.advance length) = left.since right) ∧
    ∀ left right : SeqNum, left.since right = 2147483648 →
      left.Before right ∧ left.After right ∧ right.Before left ∧ right.After left ∧
        ¬ left.AtOrBefore right ∧ ¬ right.AtOrBefore left := by
  refine ⟨?counted, ?spanning, ?moved, ?antipodes⟩
  case counted =>
    intro base i j ahead behind
    exact ⟨before_advance_iff base ahead behind, atOrBefore_advance_iff base ahead behind,
      after_advance_iff base ahead behind, fun le => since_advance base le (by omega)⟩
  case spanning =>
    intro positions near
    exact ⟨near.totallyOrdered, fun length => (near.advance length).totallyOrdered⟩
  case moved =>
    intro left right length
    exact ⟨before_advance_advance_iff left right length,
      atOrBefore_advance_advance_iff left right length,
      after_advance_advance_iff left right length, since_advance_advance left right length⟩
  case antipodes =>
    intro left right antipode
    obtain ⟨before, after⟩ := before_antipode antipode
    exact ⟨before, after, after, before, not_not.mpr after, not_not.mpr before⟩

/-- Counts beyond the space that lie at the two ends of a half of it, three positions around the
wrap, and a pair of antipodes. -/
theorem embeds_counts_wrapping :
    (6442450946 < 4294967299 + 2147483648 ∧ 4294967299 < 6442450946 + 2147483648 ∧
      ((⟨4294967290⟩ : SeqNum).advance 4294967299).Before
        ((⟨4294967290⟩ : SeqNum).advance 6442450946) ∧
      ((⟨4294967290⟩ : SeqNum).advance 6442450946).since
        ((⟨4294967290⟩ : SeqNum).advance 4294967299) = 2147483647) ∧
    (Near {⟨4294967293⟩, ⟨0⟩, ⟨14⟩} ∧ TotallyOrdered {⟨4294967293⟩, ⟨0⟩, ⟨14⟩}) ∧
    ((⟨5⟩ : SeqNum).since ⟨2147483653⟩ = 2147483648 ∧ (⟨5⟩ : SeqNum).Before ⟨2147483653⟩ ∧
      (⟨5⟩ : SeqNum).After ⟨2147483653⟩ ∧ ¬ (⟨5⟩ : SeqNum).AtOrBefore ⟨2147483653⟩) := by
  obtain ⟨counted, spanning, -, antipodes⟩ := embeds_counts
  refine ⟨?counted, ?spanning, ?antipodes⟩
  case counted =>
    have ahead : 6442450946 < 4294967299 + 2147483648 := by decide
    have behind : 4294967299 < 6442450946 + 2147483648 := by decide
    obtain ⟨before_iff, -, -, since_eq⟩ := counted ⟨4294967290⟩ _ _ ahead behind
    exact ⟨ahead, behind, before_iff.mpr (by decide), since_eq (by decide)⟩
  case spanning =>
    have near : Near {⟨4294967293⟩, ⟨0⟩, ⟨14⟩} := by
      refine ⟨⟨4294967293⟩, {0, 3, 17}, by simp [Narrow], ?_⟩
      simp only [Set.image_insert_eq, Set.image_singleton]
      rfl
    exact ⟨near, (spanning _ near).1⟩
  case antipodes =>
    have antipode : (⟨5⟩ : SeqNum).since ⟨2147483653⟩ = 2147483648 := by decide
    obtain ⟨before, after, -, -, not_atOrBefore, -⟩ := antipodes _ _ antipode
    exact ⟨antipode, before, after, not_atOrBefore⟩

/-- Without a common base, positions may follow one another in a circle. -/
example : (⟨0⟩ : SeqNum).Before ⟨1431655765⟩ ∧ (⟨1431655765⟩ : SeqNum).Before ⟨2863311530⟩ ∧
    (⟨2863311530⟩ : SeqNum).Before ⟨0⟩ := by
  decide

end SeqNum
end ReliableTransport
