import ReliableTransport.Bytes

/-!
# Byte rings

A ring of slots that hold a byte or nothing, read from a movable head.  Its view is the partial map
from offsets behind the head to bytes; every operation is characterized on this view.  An update
takes the ring apart first, which leaves its slots unshared and lets them change in place.
-/

namespace ReliableTransport

/-- A nonempty ring of slots with a head among them. -/
structure Ring where
  /-- The slots in storage order. -/
  slots : Array (Option UInt8)
  /-- Storage index of the slot at offset zero. -/
  head : Nat
  /-- The head is one of the slots. -/
  head_lt : head < slots.size

namespace Ring

/-- Number of slots. -/
def capacity (ring : Ring) : Nat := ring.slots.size

/-- A ring of empty slots. -/
def empty (capacity : Nat) (positive : 0 < capacity) : Ring where
  slots := Array.replicate capacity none
  head := 0
  head_lt := by simpa using positive

theorem capacity_pos (ring : Ring) : 0 < ring.capacity :=
  Nat.zero_lt_of_lt ring.head_lt

/-- Storage index of the slot at an offset behind the head. -/
def index (ring : Ring) (offset : Nat) : Nat :=
  (ring.head + offset) % ring.capacity

theorem index_lt (ring : Ring) (offset : Nat) : ring.index offset < ring.slots.size :=
  Nat.mod_lt _ ring.capacity_pos

/-- The byte at an offset behind the head. -/
def get? (ring : Ring) (offset : Nat) : Option UInt8 :=
  have := ring.index_lt offset
  ring.slots[ring.index offset]

/-- Store a byte at an offset behind the head. -/
def put (ring : Ring) (offset : Nat) (byte : UInt8) : Ring :=
  let index := ring.index offset
  have index_lt : index < ring.slots.size := ring.index_lt offset
  match ring with
  | { slots, head, head_lt } =>
      { slots := slots.set index (some byte) index_lt
        head
        head_lt := by simpa using head_lt }

/-- Store consecutive bytes from an offset on. -/
def write (ring : Ring) (offset : Nat) : Bytes → Ring
  | [] => ring
  | byte :: bytes => (ring.put offset byte).write (offset + 1) bytes

/-- Empty every slot. -/
def clear (ring : Ring) : Ring where
  slots := Array.replicate ring.capacity none
  head := ring.head
  head_lt := by simpa [capacity] using ring.head_lt

/-- Empty the slot at the head and move the head to the next one. -/
def advance (ring : Ring) : Ring :=
  match ring with
  | { slots, head, head_lt } =>
      let emptied := slots.set head none head_lt
      { slots := emptied
        head := (head + 1) % emptied.size
        head_lt := Nat.mod_lt _ (by simpa [emptied] using Nat.zero_lt_of_lt head_lt) }

/-- Remove at most the given number of consecutive bytes from the head, collecting them in reverse
order in front of those already taken. -/
def drain : Nat → Bytes → Ring → Bytes × Ring
  | 0, taken, ring => (taken.reverse, ring)
  | limit + 1, taken, ring =>
      match ring.get? 0 with
      | none => (taken.reverse, ring)
      | some byte => drain limit (byte :: taken) ring.advance

/-- Remove the longest run of consecutive bytes from the head. -/
def takeRun (ring : Ring) : Bytes × Ring :=
  drain ring.capacity [] ring

@[simp]
theorem capacity_empty (capacity : Nat) (positive : 0 < capacity) :
    (empty capacity positive).capacity = capacity := by
  simp [empty, Ring.capacity]

@[simp]
theorem capacity_put (ring : Ring) (offset : Nat) (byte : UInt8) :
    (ring.put offset byte).capacity = ring.capacity := by
  simp [put, capacity]

@[simp]
theorem capacity_write (ring : Ring) (offset : Nat) (bytes : Bytes) :
    (ring.write offset bytes).capacity = ring.capacity := by
  induction bytes generalizing ring offset with
  | nil => rfl
  | cons byte bytes ih => simp [write, ih]

@[simp]
theorem capacity_clear (ring : Ring) : ring.clear.capacity = ring.capacity := by
  simp [clear, capacity]

@[simp]
theorem capacity_advance (ring : Ring) : ring.advance.capacity = ring.capacity := by
  simp [advance, capacity]

theorem get?_eq (ring : Ring) (offset : Nat) :
    ring.get? offset = ring.slots[ring.index offset]?.join := by
  have := ring.index_lt offset
  simp [get?, Array.getElem?_eq_getElem this]

@[simp]
theorem get?_empty (capacity : Nat) (positive : 0 < capacity) (offset : Nat) :
    (empty capacity positive).get? offset = none := by
  simp [get?, empty]

@[simp]
theorem get?_clear (ring : Ring) (offset : Nat) : ring.clear.get? offset = none := by
  simp [get?, clear]

theorem index_inj {ring : Ring} {left right : Nat} (left_lt : left < ring.capacity)
    (right_lt : right < ring.capacity) : ring.index left = ring.index right ↔ left = right := by
  have head_lt : ring.head < ring.capacity := ring.head_lt
  unfold index
  by_cases wrapsLeft : ring.head + left < ring.capacity <;>
    by_cases wrapsRight : ring.head + right < ring.capacity
  · rw [Nat.mod_eq_of_lt wrapsLeft, Nat.mod_eq_of_lt wrapsRight]; omega
  · rw [Nat.mod_eq_of_lt wrapsLeft, Nat.mod_eq_sub_mod (by omega), Nat.mod_eq_of_lt (by omega)]
    omega
  · rw [Nat.mod_eq_of_lt wrapsRight, Nat.mod_eq_sub_mod (by omega), Nat.mod_eq_of_lt (by omega)]
    omega
  · rw [Nat.mod_eq_sub_mod (by omega), Nat.mod_eq_of_lt (by omega),
      Nat.mod_eq_sub_mod (a := ring.head + right) (by omega), Nat.mod_eq_of_lt (by omega)]
    omega

theorem get?_put {ring : Ring} {offset probe : Nat} (byte : UInt8)
    (offset_lt : offset < ring.capacity) (probe_lt : probe < ring.capacity) :
    (ring.put offset byte).get? probe = if probe = offset then some byte else ring.get? probe := by
  have same : (ring.put offset byte).index probe = ring.index probe := by
    simp [index, put, capacity]
  simp only [get?_eq, same]
  have inBounds := ring.index_lt offset
  split
  · next equal =>
      subst equal
      simp [put, inBounds]
  · next different =>
      have := mt (index_inj probe_lt offset_lt).mp different
      simp [put, Ne.symm this]

theorem get?_advance {ring : Ring} {probe : Nat} (probe_lt : probe < ring.capacity) :
    ring.advance.get? probe =
      if probe + 1 < ring.capacity then ring.get? (probe + 1) else none := by
  have shifted : ring.advance.index probe = ring.index (probe + 1) := by
    simp [index, advance, capacity, Nat.add_comm, Nat.add_left_comm]
  have head_index : ring.index 0 = ring.head := Nat.mod_eq_of_lt ring.head_lt
  simp only [get?_eq, shifted]
  have inBounds := ring.index_lt (probe + 1)
  split
  · next inside =>
      have := mt (index_inj inside ring.capacity_pos).mp (by omega)
      rw [head_index] at this
      simp [advance, Ne.symm this]
  · next last =>
      have full : probe + 1 = ring.capacity := by omega
      have : ring.index (probe + 1) = ring.head := by
        rw [full, index, Nat.add_mod_right]
        exact Nat.mod_eq_of_lt ring.head_lt
      simp [advance, this, ring.head_lt]

end Ring
end ReliableTransport
