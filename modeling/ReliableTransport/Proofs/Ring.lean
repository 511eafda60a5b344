import ReliableTransport.ReceiveWindow.Ring

/-!
# Writing to a ring and taking runs from it

A write changes the view of a ring at the written offsets only.  A run that is taken from the head
is the longest consecutive one, and the view moves down by its length.
-/

namespace ReliableTransport
namespace Ring

theorem get?_write {ring : Ring} {offset probe : Nat} {bytes : Bytes}
    (fits : offset + bytes.length ≤ ring.capacity) (probe_lt : probe < ring.capacity) :
    (ring.write offset bytes).get? probe =
      if offset ≤ probe ∧ probe < offset + bytes.length then bytes[probe - offset]?
      else ring.get? probe := by
  induction bytes generalizing ring offset with
  | nil =>
      rw [if_neg (by simp)]
      rfl
  | cons byte bytes ih =>
      simp only [List.length_cons] at fits ⊢
      rw [write, ih (by rw [capacity_put]; omega) (by rwa [capacity_put]),
        get?_put byte (by omega) probe_lt]
      by_cases later : offset + 1 ≤ probe ∧ probe < offset + 1 + bytes.length
      · rw [if_pos later, if_pos (by omega)]
        rw [show probe - offset = probe - (offset + 1) + 1 by omega, List.getElem?_cons_succ]
      · rw [if_neg later]
        by_cases first : probe = offset
        · subst first
          rw [if_pos rfl, if_pos (by omega), Nat.sub_self, List.getElem?_cons_zero]
        · rw [if_neg first, if_neg (by omega)]

theorem put_eq_self {ring : Ring} {offset : Nat} {byte : UInt8}
    (there : ring.get? offset = some byte) : ring.put offset byte = ring := by
  obtain ⟨slots, head, head_lt⟩ := ring
  simp only [put, ← there, get?, Array.set_getElem_self]

theorem write_eq_self {ring : Ring} {offset : Nat} {bytes : Bytes}
    (there : ∀ index, index < bytes.length → ring.get? (offset + index) = bytes[index]?) :
    ring.write offset bytes = ring := by
  induction bytes generalizing offset with
  | nil => rfl
  | cons byte bytes ih =>
      have first : ring.get? offset = some byte := there 0 (by simp)
      rw [write, put_eq_self first]
      refine ih fun index index_lt => ?_
      rw [Nat.add_assoc, Nat.add_comm 1 index, there (index + 1) (by simpa using index_lt),
        List.getElem?_cons_succ]

/-- A run of consecutive bytes from the head, and the ring that remains behind it. -/
structure Run (ring : Ring) (limit : Nat) (run : Bytes) (rest : Ring) : Prop where
  /-- The run keeps to its limit. -/
  length_le : run.length ≤ limit
  /-- The run holds the bytes at the head. -/
  taken : ∀ offset, offset < run.length → ring.get? offset = run[offset]?
  /-- A run below its limit ends at a gap. -/
  stopped : run.length < limit → ring.get? run.length = none
  /-- Slots are neither added nor removed. -/
  capacity_eq : rest.capacity = ring.capacity
  /-- The view moves down by the length of the run. -/
  moved : ∀ probe, probe < ring.capacity →
    rest.get? probe =
      if run.length + probe < ring.capacity then ring.get? (run.length + probe) else none

theorem Run.empty {ring : Ring} {limit : Nat} (stopped : 0 < limit → ring.get? 0 = none) :
    Run ring limit [] ring where
  length_le := Nat.zero_le _
  taken := by simp
  stopped := stopped
  capacity_eq := rfl
  moved probe probe_lt := by simp [probe_lt]

/-- A run behind the head is one byte longer at the head. -/
theorem Run.cons {ring rest : Ring} {limit : Nat} {byte : UInt8} {run : Bytes}
    (limited : limit + 1 ≤ ring.capacity) (head : ring.get? 0 = some byte)
    (behind : Run ring.advance limit run rest) : Run ring (limit + 1) (byte :: run) rest where
  length_le := Nat.succ_le_succ behind.length_le
  taken offset offset_lt := by
    have length_le := behind.length_le
    cases offset with
    | zero => exact head
    | succ offset =>
        simp only [List.length_cons] at offset_lt
        have view := behind.taken offset (by omega)
        rw [get?_advance (by omega), if_pos (by omega)] at view
        rw [view, List.getElem?_cons_succ]
  stopped below := by
    simp only [List.length_cons] at below ⊢
    have view := behind.stopped (by omega)
    rwa [get?_advance (by omega), if_pos (by omega)] at view
  capacity_eq := by rw [behind.capacity_eq, capacity_advance]
  moved probe probe_lt := by
    have view := behind.moved probe (by rwa [capacity_advance])
    rw [view, capacity_advance, List.length_cons]
    by_cases inside : run.length + probe < ring.capacity
    · rw [if_pos inside, get?_advance inside, Nat.add_right_comm run.length 1 probe]
    · rw [if_neg inside, if_neg (by omega)]

theorem drain_eq {limit : Nat} {ring : Ring} (taken : Bytes) (limited : limit ≤ ring.capacity) :
    ∃ run rest,
      drain limit taken ring = (taken.reverse ++ run, rest) ∧ Run ring limit run rest := by
  induction limit generalizing taken ring with
  | zero =>
      refine ⟨[], ring, ?_, Run.empty (by simp)⟩
      simp [drain]
  | succ limit ih =>
      cases head : ring.get? 0 with
      | none =>
          refine ⟨[], ring, ?_, Run.empty fun _ => head⟩
          simp [drain, head]
      | some byte =>
          have limited' : limit ≤ ring.advance.capacity := by
            rw [capacity_advance]
            omega
          obtain ⟨run, rest, drained, behind⟩ := ih (byte :: taken) limited'
          refine ⟨byte :: run, rest, ?_, Run.cons limited head behind⟩
          simp [drain, head, drained]

/-- The longest consecutive run is taken from the head. -/
theorem takeRun_eq (ring : Ring) :
    ∃ run rest, ring.takeRun = (run, rest) ∧ Run ring ring.capacity run rest := by
  obtain ⟨run, rest, drained, isRun⟩ := drain_eq [] (Nat.le_refl ring.capacity)
  exact ⟨run, rest, drained, isRun⟩

theorem takeRun_of_gap {ring : Ring} (gap : ring.get? 0 = none) : ring.takeRun = ([], ring) := by
  rw [takeRun]
  cases ring.capacity <;> simp [drain, gap]

end Ring
end ReliableTransport
