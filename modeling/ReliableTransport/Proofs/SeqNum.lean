import ReliableTransport.SeqNum

/-!
# Positions near a common base

A run of positions is written as a base and a count that is not reduced modulo `2 ^ 32`.  As long
as two counts are less than `2 ^ 31` apart, the order of positions is the order of their counts, so
that a development can reason about counts alone.
-/

namespace ReliableTransport
namespace SeqNum

theorem advance_advance (start : SeqNum) (m n : Nat) :
    (start.advance m).advance n = start.advance (m + n) :=
  add_assoc start m n

@[simp]
theorem advance_zero (start : SeqNum) : start.advance 0 = start :=
  add_zero start

theorem toNat_advance (start : SeqNum) (length : Nat) :
    (start.advance length).val.toNat = (start.val.toNat + length) % 4294967296 :=
  toNat_add start length

/-- The forward distance between two counted positions. -/
theorem since_advance (base : SeqNum) {i j : Nat} (le : i ≤ j) (near : j - i < 4294967296) :
    (base.advance j).since (base.advance i) = j - i := by
  have base_lt : base.val.toNat < 4294967296 := base.val.toNat_lt
  rw [since_eq, toNat_advance, toNat_advance]
  simp only [UInt32.size]
  omega

theorem since_advance_of_lt (base : SeqNum) {i j : Nat} (lt : i < j) (near : j - i ≤ 4294967296) :
    (base.advance i).since (base.advance j) = 4294967296 - (j - i) := by
  have base_lt : base.val.toNat < 4294967296 := base.val.toNat_lt
  rw [since_eq, toNat_advance, toNat_advance]
  simp only [UInt32.size]
  omega

theorem before_advance_iff (base : SeqNum) {i j : Nat} (ahead : j < i + 2147483648)
    (behind : i < j + 2147483648) : (base.advance i).Before (base.advance j) ↔ i < j := by
  rw [Before, show UInt32.size / 2 = 2147483648 from rfl]
  rcases Nat.lt_or_ge i j with lt | le
  · rw [since_advance_of_lt base lt (by omega)]
    omega
  · rw [since_advance base le (by omega)]
    omega

theorem atOrBefore_advance_iff (base : SeqNum) {i j : Nat} (ahead : j < i + 2147483648)
    (behind : i < j + 2147483648) : (base.advance i).AtOrBefore (base.advance j) ↔ i ≤ j := by
  rw [AtOrBefore, before_advance_iff base behind ahead]
  exact Nat.not_lt

theorem after_advance_iff (base : SeqNum) {i j : Nat} (ahead : j < i + 2147483648)
    (behind : i < j + 2147483648) : (base.advance i).After (base.advance j) ↔ j < i := by
  rw [After, before_advance_iff base behind ahead]

theorem not_after_self (position : SeqNum) : ¬ position.After position := by
  simp [After, Before, UInt32.size]

/-- Counts less than `2 ^ 32` apart name different positions. -/
theorem advance_inj (base : SeqNum) {i j : Nat} (ahead : j < i + 4294967296)
    (behind : i < j + 4294967296) : base.advance i = base.advance j ↔ i = j := by
  constructor
  · intro same
    have values := congrArg (fun position => position.val.toNat) same
    simp only [toNat_advance] at values
    omega
  · rintro rfl
    rfl

/-- The forward distance leads from one position to the other. -/
theorem advance_since (start finish : SeqNum) : start.advance (finish.since start) = finish := by
  cases start with
  | mk start =>
      cases finish with
      | mk finish =>
          change SeqNum.mk (start + UInt32.ofNat (finish - start).toNat) = ⟨finish⟩
          rw [UInt32.ofNat_toNat, UInt32.add_comm, UInt32.sub_add_cancel]

/-- A position that is advanced comes to lie as much further from another one, within the space. -/
theorem since_of_advance {position base : SeqNum} {length : Nat}
    (near : position.since base + length < 4294967296) :
    (position.advance length).since base = position.since base + length := by
  have far := since_advance base (Nat.zero_le (position.since base + length)) near
  rwa [advance_zero, ← advance_advance, advance_since] at far

/-- Two antipodal positions are each before the other. -/
theorem before_antipode {left right : SeqNum} (antipode : left.since right = 2147483648) :
    left.Before right ∧ right.Before left := by
  have left_lt := left.val.toNat_lt
  have right_lt := right.val.toNat_lt
  rw [since_eq] at antipode
  rw [Before, Before, show UInt32.size / 2 = 2147483648 from rfl, since_eq, since_eq]
  simp only [UInt32.size] at *
  omega

theorem Before.atOrBefore {left right : SeqNum} (before : left.Before right)
    (apart : left.since right ≠ 2147483648) : left.AtOrBefore right := by
  have left_lt := left.val.toNat_lt
  have right_lt := right.val.toNat_lt
  rw [since_eq] at apart
  rw [AtOrBefore, Before, show UInt32.size / 2 = 2147483648 from rfl, since_eq]
  rw [Before, show UInt32.size / 2 = 2147483648 from rfl, since_eq] at before
  simp only [UInt32.size] at *
  omega

/-- A position that is after the first of two near ones, but not after the second, lies between
them.  An antipode of the first is after it, and after the second too. -/
theorem exists_advance_of_after (base : SeqNum) {i j : Nat} (le : i ≤ j)
    (near : j < i + 2147483648) {position : SeqNum} (news : position.After (base.advance i))
    (sent : ¬ position.After (base.advance j)) :
    ∃ k, position = base.advance k ∧ i < k ∧ k ≤ j := by
  have position_eq := advance_since (base.advance i) position
  have distance_lt := since_lt position (base.advance i)
  rw [advance_advance] at position_eq
  generalize position.since (base.advance i) = distance at position_eq distance_lt
  subst position_eq
  simp only [UInt32.size] at distance_lt
  rw [After, Before, show UInt32.size / 2 = 2147483648 from rfl] at news sent
  refine ⟨i + distance, rfl, ?_, ?_⟩
  · rcases Nat.eq_zero_or_pos distance with rfl | positive
    · simp at news
    · omega
  · rcases Nat.lt_or_ge j (i + distance) with beyond | inside
    · rw [since_advance_of_lt base (by omega) (by omega)] at sent news
      omega
    · exact inside

/-- How far a position is ahead of another one on the shorter way, negative if it is behind. -/
def aheadOf (position base : SeqNum) : Int :=
  (position.since base : Int).bmod UInt32.size

theorem bmod_size {distance : Nat} (distance_lt : distance < UInt32.size) :
    (distance : Int).bmod UInt32.size =
      if distance < 2147483648 then (distance : Int) else distance - 4294967296 := by
  simp only [UInt32.size] at distance_lt ⊢
  rw [Int.bmod_def]
  split <;> split <;> omega

theorem aheadOf_eq (position base : SeqNum) :
    position.aheadOf base =
      if position.since base < 2147483648 then (position.since base : Int)
      else (position.since base : Int) - 4294967296 :=
  bmod_size (position.since_lt base)

theorem before_iff_aheadOf (position base : SeqNum) :
    position.Before base ↔ position.aheadOf base < 0 := by
  have since_lt := position.since_lt base
  simp only [UInt32.size] at since_lt
  rw [Before, show UInt32.size / 2 = 2147483648 from rfl, aheadOf_eq]
  split <;> omega

theorem since_of_aheadOf_nonneg {position base : SeqNum} (ahead : 0 ≤ position.aheadOf base) :
    position.since base = (position.aheadOf base).toNat := by
  have since_lt := position.since_lt base
  simp only [UInt32.size] at since_lt
  rw [aheadOf_eq] at ahead ⊢
  split at ahead <;> split <;> omega

theorem since_of_aheadOf_neg {position base : SeqNum} (behind : position.aheadOf base < 0) :
    base.since position = (-position.aheadOf base).toNat := by
  have position_lt := position.val.toNat_lt
  have base_lt := base.val.toNat_lt
  rw [aheadOf_eq, since_eq] at behind
  rw [aheadOf_eq, since_eq, since_eq]
  simp only [UInt32.size] at *
  split at behind <;> split <;> omega

theorem advance_atOrBefore_iff {position base : SeqNum} {length : Nat} (positive : 0 < length)
    (near : position.aheadOf base + length ≤ 2147483648) :
    (position.advance length).AtOrBefore base ↔ position.aheadOf base + length ≤ 0 := by
  have position_lt := position.val.toNat_lt
  have base_lt := base.val.toNat_lt
  rw [aheadOf_eq, since_eq] at near
  rw [AtOrBefore, Before, show UInt32.size / 2 = 2147483648 from rfl, aheadOf_eq, since_eq,
    since_eq, toNat_advance]
  simp only [UInt32.size] at *
  split at near <;> split <;> omega

theorem aheadOf_advance (base : SeqNum) {i j : Nat} (ahead : i < j + 2147483648)
    (behind : j ≤ i + 2147483648) : (base.advance i).aheadOf (base.advance j) = (i : Int) - j := by
  rw [aheadOf_eq]
  rcases Nat.lt_or_ge i j with lt | le
  · rw [since_advance_of_lt base lt (by omega)]
    split <;> omega
  · rw [since_advance base le (by omega)]
    split <;> omega

theorem advance_aheadOf {position base : SeqNum} {length : Nat}
    (near : position.aheadOf base + length < 2147483648) :
    (position.advance length).aheadOf base = position.aheadOf base + length := by
  have position_lt := position.val.toNat_lt
  have base_lt := base.val.toNat_lt
  rw [aheadOf_eq, since_eq] at near
  rw [aheadOf_eq, aheadOf_eq, since_eq, since_eq, toNat_advance]
  simp only [UInt32.size] at *
  split at near <;> split <;> omega

/-- The order of two positions is the order of how far they are ahead of a third one, unless the
first is more than half of the space ahead of the second. -/
theorem atOrBefore_iff_aheadOf {left right : SeqNum} (base : SeqNum)
    (behind : left.aheadOf base ≤ right.aheadOf base + 2147483648)
    (ahead : right.aheadOf base < left.aheadOf base + 2147483648) :
    left.AtOrBefore right ↔ left.aheadOf base ≤ right.aheadOf base := by
  have left_lt := left.val.toNat_lt
  have right_lt := right.val.toNat_lt
  have base_lt := base.val.toNat_lt
  rw [aheadOf_eq, aheadOf_eq, since_eq, since_eq] at behind ahead
  rw [AtOrBefore, Before, show UInt32.size / 2 = 2147483648 from rfl, aheadOf_eq, aheadOf_eq,
    since_eq, since_eq, since_eq]
  simp only [UInt32.size] at *
  split at behind <;> split at behind <;> simp only [*, if_true, if_false] at ahead ⊢ <;> omega

theorem news_iff_since {awaited next position : SeqNum} (near : next.since awaited < 2147483648) :
    position.After awaited ∧ ¬ position.After next ↔
      1 ≤ position.since awaited ∧ position.since awaited ≤ next.since awaited := by
  have awaited_lt := awaited.val.toNat_lt
  have next_lt := next.val.toNat_lt
  have position_lt := position.val.toNat_lt
  rw [since_eq] at near
  rw [After, After, Before, Before, show UInt32.size / 2 = 2147483648 from rfl, since_eq, since_eq,
    since_eq, since_eq]
  simp only [UInt32.size] at *
  omega

end SeqNum
end ReliableTransport
