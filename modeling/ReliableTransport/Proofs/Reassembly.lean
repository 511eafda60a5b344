import ReliableTransport.Proofs.ReceiveWindow
import ReliableTransport.Proofs.Script

/-!
# Reassembly of a script

A window behind a received front of a script buffers whole entries at their places.  Because the
boundaries of segments never change, an arriving chunk is either old or entirely new, and the run
that it completes ends at a boundary again.
-/

namespace ReliableTransport

open Script

namespace Script

/-- Bytes by their offset from a position agree with the script and belong to whole entries. -/
structure Holds (script : List Cargo) (position capacity : Nat) (view : Nat → Option UInt8) :
    Prop where
  /-- Every byte is at its place. -/
  content : ∀ offset byte, offset < capacity → view offset = some byte →
    (slots script)[position + offset]? = some (some byte)
  /-- Neighbours are there together unless a boundary separates them. -/
  whole : ∀ offset, offset + 1 < capacity → ¬ Cut script (position + offset + 1) →
    (view offset).isSome = (view (offset + 1)).isSome

/-- Every chunk of a script ends before a position. -/
def ChunksWithin (script : List Cargo) (limit : Nat) : Prop :=
  ∀ front chunk back, script = front ++ .data chunk :: back → extent front + chunk.length ≤ limit

theorem exists_chunk_of_not_cut {script : List Cargo} {position : Nat} {byte : UInt8}
    (slot : (slots script)[position]? = some (some byte)) (uncut : ¬ Cut script (position + 1)) :
    ∃ front chunk back, script = front ++ .data chunk :: back ∧
      position + 1 < extent front + chunk.length := by
  have inside : position < extent script := by
    rw [← length_slots]
    exact (List.getElem?_eq_some_iff.mp slot).1
  obtain ⟨front, cargo, back, rfl, front_le, lt⟩ := exists_entry inside
  have not_last : position + 1 ≠ extent front + cargo.length := by
    intro last
    apply uncut
    refine ⟨front ++ [cargo], ⟨back, by simp⟩, ?_⟩
    simp [last]
  cases cargo with
  | data chunk =>
      rw [Cargo.length_data] at lt not_last
      exact ⟨front, chunk, back, rfl, by omega⟩
  | syn answers =>
      rw [Cargo.length_syn] at lt not_last
      omega
  | fin =>
      rw [Cargo.length_fin] at lt not_last
      omega

theorem exists_front_of_run {script received : List Cargo} {run : Bytes} (valid : Valid script)
    (isFront : received <+: script)
    (bytes : ∀ offset, offset < run.length →
      (slots script)[extent received + offset]? = some run[offset]?)
    (cut : Cut script (extent received + run.length)) :
    ∃ received', received <+: received' ∧ received' <+: script ∧
      extent received' = extent received + run.length ∧
      content received' = content received ++ run ∧
      (.fin ∈ received' ↔ .fin ∈ received) := by
  obtain ⟨front, isFront', extent_eq⟩ := cut
  have later : received <+: front := by
    rcases List.prefix_or_prefix_of_prefix isFront isFront' with isPrefix | isPrefix
    · exact isPrefix
    · have := extent_le_of_isPrefix isPrefix
      rw [valid.eq_of_extent_eq isFront isFront' (by omega)]
  obtain ⟨fresh, rfl⟩ := later
  obtain ⟨back, rfl⟩ := isFront'
  rw [extent_append] at extent_eq
  have slots_eq : slots fresh = run.map some := by
    apply List.ext_getElem?
    intro offset
    rcases Nat.lt_or_ge offset run.length with inside | outside
    · have slot := bytes offset inside
      rw [List.append_assoc, getElem?_slots_append, slots_append,
        List.getElem?_append_left (by simp; omega)] at slot
      rw [slot, List.getElem?_map, List.getElem?_eq_getElem inside]
      rfl
    · rw [List.getElem?_eq_none (by simp; omega), List.getElem?_eq_none (by simpa using outside)]
  refine
    ⟨received ++ fresh, List.prefix_append received fresh, List.prefix_append _ back, ?_, ?_, ?_⟩
  · rw [extent_append, extent_eq]
  · rw [content_append, ← reduceOption_slots fresh, slots_eq]
    simp [List.reduceOption]
  · have no_fin : .fin ∉ fresh := by
      intro mem
      have : none ∈ slots fresh := List.mem_flatMap.mpr ⟨.fin, mem, by simp [Cargo.slots]⟩
      rw [slots_eq] at this
      simp at this
    simp [no_fin]

namespace Holds

variable {script : List Cargo} {position capacity : Nat} {view : Nat → Option UInt8}

theorem cut_of_last (holds : Holds script position capacity view)
    (within : ChunksWithin script (position + capacity)) {offset : Nat}
    (last : offset + 1 = capacity) (there : (view offset).isSome) :
    Cut script (position + capacity) := by
  by_contra uncut
  obtain ⟨byte, byte_eq⟩ := Option.isSome_iff_exists.mp there
  have slot := holds.content offset byte (by omega) byte_eq
  rw [← last, ← Nat.add_assoc] at uncut
  obtain ⟨front, chunk, back, split, inside⟩ := exists_chunk_of_not_cut slot uncut
  have := within front chunk back split
  omega

theorem cut_of_run (holds : Holds script position capacity view)
    (within : ChunksWithin script (position + capacity)) (start : Cut script position)
    {length : Nat} (length_le : length ≤ capacity)
    (there : ∀ offset, offset < length → (view offset).isSome)
    (stopped : length < capacity → view length = none) : Cut script (position + length) := by
  cases length with
  | zero => exact start
  | succ length =>
      rcases Nat.lt_or_eq_of_le length_le with below | full
      · by_contra uncut
        have whole := holds.whole length below (by rwa [Nat.add_assoc])
        rw [there length (Nat.lt_succ_self length), stopped below] at whole
        simp at whole
      · rw [full]
        exact holds.cut_of_last within full (there length (Nat.lt_succ_self length))

theorem overlay (holds : Holds script position capacity view) {front back : List Cargo}
    {chunk : Bytes} (split : script = front ++ .data chunk :: back) {start : Nat}
    (place : extent front = position + start) :
    Holds script position capacity fun offset =>
      if start ≤ offset ∧ offset < start + chunk.length then chunk[offset - start]?
      else view offset where
  content offset byte offset_lt view_eq := by
    split at view_eq
    · next inside =>
        subst split
        have index : offset - start < (Cargo.data chunk).length := by
          rw [Cargo.length_data]
          omega
        have slot := getElem?_slots_entry front back (.data chunk) index
        rw [show extent front + (offset - start) = position + offset by omega] at slot
        rw [slot, Cargo.slots, List.getElem?_map, view_eq]
        rfl
    · exact holds.content offset byte offset_lt view_eq
  whole offset offset_lt uncut := by
    have cut_start : Cut script (position + start) := by
      rw [← place]
      exact Cut.of_isPrefix ⟨.data chunk :: back, split.symm⟩
    have cut_finish : Cut script (position + start + chunk.length) := by
      refine ⟨front ++ [.data chunk], ⟨back, by simp [split]⟩, ?_⟩
      simp [place]
    have not_start : offset + 1 ≠ start := by
      rintro rfl
      exact uncut cut_start
    have not_finish : offset + 1 ≠ start + chunk.length := by
      intro last
      rw [Nat.add_assoc, last, ← Nat.add_assoc] at uncut
      exact uncut cut_finish
    by_cases inside : start ≤ offset ∧ offset < start + chunk.length
    · rw [if_pos inside, if_pos (by omega), List.getElem?_eq_getElem (by omega),
        List.getElem?_eq_getElem (by omega)]
      rfl
    · rw [if_neg inside, if_neg (by omega)]
      exact holds.whole offset offset_lt uncut

theorem slide (holds : Holds script position capacity view)
    (within : ChunksWithin script (position + capacity)) {length : Nat} {moved : Nat → Option UInt8}
    (moved_eq : ∀ offset, offset < capacity →
      moved offset = if length + offset < capacity then view (length + offset) else none) :
    Holds script (position + length) capacity moved where
  content offset byte offset_lt byte_eq := by
    rw [moved_eq offset offset_lt] at byte_eq
    split at byte_eq
    · next inside =>
        rw [Nat.add_assoc]
        exact holds.content (length + offset) byte inside byte_eq
    · cases byte_eq
  whole offset offset_lt uncut := by
    rw [moved_eq offset (by omega), moved_eq (offset + 1) offset_lt]
    by_cases inside : length + (offset + 1) < capacity
    · rw [if_pos (by omega), if_pos inside]
      exact holds.whole (length + offset) inside (by
        rwa [← Nat.add_assoc])
    · rw [if_neg inside]
      by_cases edge : length + offset < capacity
      · rw [if_pos edge]
        cases there : (view (length + offset)).isSome with
        | false => rfl
        | true =>
            exfalso
            apply uncut
            rw [show position + length + offset + 1 = position + capacity by omega]
            exact holds.cut_of_last within (by omega) there
      · rw [if_neg edge]

theorem mono {longer : List Cargo} (holds : Holds script position capacity view)
    (grows : script <+: longer) : Holds longer position capacity view where
  content offset byte offset_lt byte_eq := by
    have slot := holds.content offset byte offset_lt byte_eq
    have inside : position + offset < extent script := by
      rw [← length_slots]
      exact (List.getElem?_eq_some_iff.mp slot).1
    rw [getElem?_slots_of_isPrefix grows inside]
    exact slot
  whole offset offset_lt uncut :=
    holds.whole offset offset_lt fun cut => uncut (cut.mono grows)

end Holds
end Script

namespace ReceiveWindow

/-- A window behind a received front of a script. -/
structure Receives (window : ReceiveWindow) (origin : SeqNum) (script received : List Cargo) :
    Prop where
  /-- Only what was written is received. -/
  received_isPrefix : received <+: script
  /-- The next expected position lies behind the received front. -/
  next_eq : window.next = origin.advance (extent received)
  /-- The window buffers whole entries at their places. -/
  holds : Holds script (extent received) window.capacity window.buffered

namespace Receives

variable {window : ReceiveWindow} {origin : SeqNum} {script received : List Cargo}

theorem mono {longer : List Cargo} (receives : window.Receives origin script received)
    (grows : script <+: longer) : window.Receives origin longer received where
  received_isPrefix := receives.received_isPrefix.trans grows
  next_eq := receives.next_eq
  holds := receives.holds.mono grows

/-- A window that is emptied for the sequence number of a flag. -/
theorem consumeFlag (next_eq : window.next = origin.advance (extent received)) {cargo : Cargo}
    (isFlag : cargo.length = 1) (isFront : received ++ [cargo] <+: script) :
    window.consumeFlag.Receives origin script (received ++ [cargo]) where
  received_isPrefix := isFront
  next_eq := by
    rw [next_consumeFlag, next_eq, SeqNum.advance_advance]
    simp [isFlag]
  holds :=
    { content := by simp
      whole := by simp }

/-- A chunk of the script is old, or is new and lies inside the window. -/
theorem receive_eq (receives : window.Receives origin script received) (valid : Valid script)
    (near : extent script < 2147483648)
    (within : ChunksWithin script (extent received + window.capacity)) {front back : List Cargo}
    {chunk : Bytes} (split : script = front ++ .data chunk :: back) :
    (extent front + chunk.length ≤ extent received ∧
        window.receive (origin.advance (extent front)) chunk = .ok (.stale, window)) ∨
      ∃ offset, extent front = extent received + offset ∧
        offset + chunk.length ≤ window.capacity ∧
        window.receive (origin.advance (extent front)) chunk =
          .ok (window.accept offset chunk) := by
  have isPrefix : front ++ [.data chunk] <+: script := ⟨back, by simp [split]⟩
  have end_le := extent_le_of_isPrefix isPrefix
  have received_le := extent_le_of_isPrefix receives.received_isPrefix
  have cut : Cut script (extent received) := Cut.of_isPrefix receives.received_isPrefix
  have chunk_pos : 0 < chunk.length := by
    simpa using valid.length_pos (show .data chunk ∈ script by simp [split])
  have fits := within front chunk back split
  rw [extent_append, extent_cons, extent_nil, Cargo.length_data, Nat.add_zero] at end_le
  have fate := receive_advance receives.next_eq
    (show extent front + chunk.length < _ by omega) (show extent received < _ by omega)
  obtain old | news : extent front + chunk.length ≤ extent received ∨
      extent received ≤ extent front := by
    subst split
    simpa [or_comm] using cut.le_or_le
  · rw [if_pos old] at fate
    exact Or.inl ⟨old, fate⟩
  · rw [if_neg (by omega), if_neg (by omega), if_neg (by omega)] at fate
    exact Or.inr ⟨extent front - extent received, by omega, by omega, fate⟩

/-- What becomes consecutive by a chunk of the script is delivered. -/
theorem receive (receives : window.Receives origin script received) (valid : Valid script)
    (near : extent script < 2147483648)
    (within : ChunksWithin script (extent received + window.capacity)) {front back : List Cargo}
    {chunk : Bytes} (split : script = front ++ .data chunk :: back) :
    ∃ arrival run rest received',
      window.receive (origin.advance (extent front)) chunk = .ok (arrival, rest) ∧
      (arrival = .stale ∧ run = [] ∨ arrival = .accepted run) ∧
      rest.capacity = window.capacity ∧ rest.Receives origin script received' ∧
      received <+: received' ∧ content received' = content received ++ run ∧
      (.fin ∈ received' ↔ .fin ∈ received) ∧
      (front <+: received → front ++ [.data chunk] <+: received') := by
  have isPrefix : front ++ [.data chunk] <+: script := ⟨back, by simp [split]⟩
  have extent_eq : extent (front ++ [.data chunk]) = extent front + chunk.length := by simp
  -- a front that reaches as far as the chunk does contains it
  have reaches {front' : List Cargo} (isFront : front' <+: script)
      (far : extent front + chunk.length ≤ extent front') : front ++ [.data chunk] <+: front' := by
    rcases List.prefix_or_prefix_of_prefix isPrefix isFront with shorter | longer
    · exact shorter
    · have := extent_le_of_isPrefix longer
      rw [valid.eq_of_extent_eq isPrefix isFront (by omega)]
  rcases receives.receive_eq valid near within split with ⟨old, stale⟩ | ⟨offset, place, fits, fate⟩
  · exact ⟨.stale, [], window, received, stale, Or.inl ⟨rfl, rfl⟩, rfl, receives,
      List.prefix_refl received, by simp, Iff.rfl,
      fun _ => reaches receives.received_isPrefix old⟩
  · obtain ⟨run, rest, accepted, delivers⟩ :=
      window.accept_eq chunk (show offset ≤ window.capacity by omega)
    rw [List.take_of_length_le (by omega)] at delivers
    rw [accepted] at fate
    have laid : Holds script (extent received) window.capacity (window.overlaid offset chunk) :=
      receives.holds.overlay split place
    have there (probe : Nat) (probe_lt : probe < run.length) :
        window.overlaid offset chunk probe = some run[probe] := by
      rw [delivers.taken probe probe_lt, List.getElem?_eq_getElem probe_lt]
    have cut : Cut script (extent received + run.length) :=
      laid.cut_of_run within (Cut.of_isPrefix receives.received_isPrefix) delivers.length_le
        (fun probe probe_lt => by rw [there probe probe_lt]; rfl) delivers.stopped
    obtain ⟨received', later, isFront, received_eq, content_eq, fin_iff⟩ :=
      exists_front_of_run valid receives.received_isPrefix
        (fun probe probe_lt => by
          have length_le := delivers.length_le
          rw [laid.content probe _ (by omega) (there probe probe_lt),
            List.getElem?_eq_getElem probe_lt]) cut
    refine ⟨.accepted run, run, rest, received', fate, Or.inr rfl, delivers.capacity_eq,
      ⟨isFront, ?_, ?_⟩, later, content_eq, fin_iff, fun isNext => reaches isFront ?_⟩
    · rw [delivers.next_eq, receives.next_eq, SeqNum.advance_advance, received_eq]
    · rw [received_eq, delivers.capacity_eq]
      exact laid.slide within delivers.moved
    · have front_le := extent_le_of_isPrefix isNext
      have long : chunk.length ≤ run.length := by
        by_contra short
        have gap := delivers.stopped (by omega)
        rw [overlaid, if_pos (by omega), List.getElem?_eq_none_iff] at gap
        omega
      omega

end Receives
end ReceiveWindow
end ReliableTransport
