/-!
# Sequence numbers

Positions in a 32-bit sequence space.  Addition of a length wraps, `since` is the forward
distance, and the order compares two positions by which half of the space separates them.  The
order is meaningful for positions less than `2 ^ 31` apart; two antipodal positions are each before
the other.
-/

namespace ReliableTransport

/-- A position in the 32-bit sequence space. -/
structure SeqNum where
  /-- The representative below `2 ^ 32`. -/
  val : UInt32
  deriving DecidableEq, Repr, Inhabited

namespace SeqNum

/-- The position reached by advancing `length` steps, modulo `2 ^ 32`. -/
def advance (start : SeqNum) (length : Nat) : SeqNum :=
  ⟨start.val + UInt32.ofNat length⟩

instance : HAdd SeqNum Nat SeqNum := ⟨advance⟩

/-- The number of forward steps that lead from `start` to `finish`, below `2 ^ 32`. -/
def since (finish start : SeqNum) : Nat :=
  (finish.val - start.val).toNat

/-- The first position is strictly before the second: the backward half space separates them. -/
def Before (left right : SeqNum) : Prop :=
  UInt32.size / 2 ≤ left.since right

instance (left right : SeqNum) : Decidable (left.Before right) :=
  inferInstanceAs (Decidable (UInt32.size / 2 ≤ left.since right))

/-- The first position does not come after the second. -/
def AtOrBefore (left right : SeqNum) : Prop :=
  ¬ right.Before left

instance (left right : SeqNum) : Decidable (left.AtOrBefore right) :=
  inferInstanceAs (Decidable (¬ right.Before left))

/-- The first position is strictly after the second. -/
def After (left right : SeqNum) : Prop :=
  right.Before left

instance (left right : SeqNum) : Decidable (left.After right) :=
  inferInstanceAs (Decidable (right.Before left))

/-- Decimal text of the representative. -/
def text (position : SeqNum) : String :=
  toString position.val.toNat

theorem toNat_add (start : SeqNum) (length : Nat) :
    (start + length).val.toNat = (start.val.toNat + length) % UInt32.size := by
  change (start.val + UInt32.ofNat length).toNat = _
  simp [UInt32.toNat_add]

theorem since_eq (finish start : SeqNum) :
    finish.since start =
      (UInt32.size - start.val.toNat + finish.val.toNat) % UInt32.size := by
  simp [since, UInt32.toNat_sub]

theorem since_lt (finish start : SeqNum) : finish.since start < UInt32.size :=
  (finish.val - start.val).toNat_lt

@[simp]
theorem since_self (position : SeqNum) : position.since position = 0 := by
  simp [since]

@[simp]
theorem add_zero (start : SeqNum) : start + 0 = start := by
  cases start with
  | mk val =>
    change SeqNum.mk (val + UInt32.ofNat 0) = ⟨val⟩
    simp

theorem add_assoc (start : SeqNum) (m n : Nat) : start + m + n = start + (m + n) := by
  cases start with
  | mk val =>
    change SeqNum.mk (val + UInt32.ofNat m + UInt32.ofNat n) = ⟨val + UInt32.ofNat (m + n)⟩
    rw [UInt32.ofNat_add, UInt32.add_assoc]

end SeqNum
end ReliableTransport
