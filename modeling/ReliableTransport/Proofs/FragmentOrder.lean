import ReliableTransport.Proofs.Fragments

/-!
# Fragments in any order

Fragments of a stream that fits in a window arrive in any order and any number of times.  What was
delivered and what is buffered in the end depends only on the positions that they cover: the longest
front of covered positions was delivered, and the covered positions behind it are buffered.
-/

namespace ReliableTransport

/-- A position belongs to one of some fragments. -/
def Fragment.Cover (fragments : List Fragment) (position : Nat) : Prop :=
  ∃ fragment ∈ fragments, fragment.Contains position

instance (fragments : List Fragment) (position : Nat) :
    Decidable (Fragment.Cover fragments position) :=
  inferInstanceAs (Decidable (∃ fragment ∈ fragments, _))

theorem Fragment.cover_congr {fragments others : List Fragment}
    (same : ∀ fragment, fragment ∈ others ↔ fragment ∈ fragments) (position : Nat) :
    Cover others position ↔ Cover fragments position := by
  simp only [Cover, same]

/-- A window without bytes stands in front of a position. -/
structure ReceiveWindow.Vacant (window : ReceiveWindow) (origin : SeqNum) : Prop where
  /-- The position is the next expected one. -/
  next_eq : window.next = origin
  /-- Nothing is buffered. -/
  empty : ∀ offset, offset < window.capacity → window.buffered offset = none

namespace Assembly

/-- Fragments arrive one after the other. -/
def takeAll (assembly : Assembly) (stream : Bytes) (origin : SeqNum) :
    List Fragment → Except Fault Assembly
  | [] => .ok assembly
  | fragment :: fragments => do
      let assembly ← assembly.take stream origin fragment
      assembly.takeAll stream origin fragments

/-- What some fragments cover is delivered up to the first gap and buffered behind it. -/
structure Joins (assembly : Assembly) (stream : Bytes) (origin : SeqNum) (capacity : Nat)
    (fragments : List Fragment) : Prop where
  /-- A front of the stream was delivered. -/
  delivered_isPrefix : assembly.delivered <+: stream
  /-- Every delivered position is covered. -/
  covered : ∀ position, position < assembly.delivered.length → Fragment.Cover fragments position
  /-- The next expected position is not covered. -/
  gap : ¬ Fragment.Cover fragments assembly.delivered.length
  /-- The next expected position is the one behind what was delivered. -/
  next_eq : assembly.window.next = origin.advance assembly.delivered.length
  /-- The covered positions are buffered, and no others. -/
  buffered_eq : ∀ offset, offset < capacity → assembly.window.buffered offset =
    if Fragment.Cover fragments (assembly.delivered.length + offset) then
      stream[assembly.delivered.length + offset]?
    else none

variable {assembly other : Assembly} {stream : Bytes} {origin : SeqNum} {capacity : Nat}
  {fragments others : List Fragment}

namespace Coherent

theorem of_vacant {window : ReceiveWindow} (vacant : window.Vacant origin) :
    Coherent { window } stream origin window.capacity where
  delivered_eq := rfl
  next_eq := vacant.next_eq.trans (SeqNum.advance_zero origin).symm
  capacity_eq := rfl
  buffered_eq offset byte offset_lt there := by
    rw [vacant.empty offset offset_lt] at there
    cases there
  gap := vacant.empty 0 window.ring.capacity_pos
  has_iff position := by
    constructor
    · rintro (early | ⟨offset, offset_lt, -, there⟩)
      · cases early
      · rw [vacant.empty offset offset_lt] at there
        cases there
    · rintro ⟨arrival, mem, -⟩
      cases mem

theorem delivered_isPrefix (coherent : assembly.Coherent stream origin capacity) :
    assembly.delivered <+: stream := by
  rw [coherent.delivered_eq]
  exact List.take_prefix _ _

/-- Every fragment of a stream that fits in the window is near, so that nothing stops the window. -/
theorem takeAll (coherent : assembly.Coherent stream origin capacity)
    (near : stream.length < 1073741824) (of : ∀ fragment ∈ fragments, fragment.Of stream) :
    ∃ after, assembly.takeAll stream origin fragments = .ok after ∧
      after.Coherent stream origin capacity ∧
      after.arrivals.map (·.1) = assembly.arrivals.map (·.1) ++ fragments := by
  induction fragments generalizing assembly with
  | nil => exact ⟨assembly, rfl, coherent, (List.append_nil _).symm⟩
  | cons fragment fragments ih =>
      obtain ⟨of_first, of_rest⟩ := List.forall_mem_cons.mp of
      have fragment_near : fragment.Near assembly.delivered.length := by
        have delivered_le := coherent.delivered_isPrefix.length_le
        have finish_le := of_first.2
        rw [Fragment.finish] at finish_le
        rw [Fragment.Near]
        omega
      obtain ⟨middle, taken, coherent'⟩ := coherent.take of_first fragment_near
      obtain ⟨after, taken', coherent'', arrivals_eq⟩ := ih coherent' of_rest
      have first_eq : middle.arrivals.map (·.1) = assembly.arrivals.map (·.1) ++ [fragment] := by
        obtain ⟨⟨arrival, window⟩, -, taken⟩ := Fault.exists_of_bind_eq_ok taken
        rw [← Except.ok.inj taken, List.map_append]
        rfl
      refine ⟨after, ?_, coherent'', ?_⟩
      · rw [Assembly.takeAll, taken]
        exact taken'
      · rw [arrivals_eq, first_eq, List.append_assoc]
        rfl

theorem has_iff_cover (coherent : assembly.Coherent stream origin capacity)
    (fits : stream.length ≤ capacity) (of : ∀ fragment ∈ fragments, fragment.Of stream)
    (arrivals_eq : assembly.arrivals.map (·.1) = fragments) (position : Nat) :
    assembly.Has position ↔ Fragment.Cover fragments position := by
  rw [coherent.has_iff]
  constructor
  · rintro ⟨arrival, mem, inside, -⟩
    exact ⟨arrival.1, arrivals_eq ▸ List.mem_map_of_mem mem, inside⟩
  · rintro ⟨fragment, mem, inside⟩
    have finish_le := (of fragment mem).2
    obtain ⟨arrival, arrived, rfl⟩ := List.mem_map.mp (arrivals_eq ▸ mem)
    exact ⟨arrival, arrived, inside, by have := inside.2; omega⟩

theorem joins (coherent : assembly.Coherent stream origin capacity)
    (fits : stream.length ≤ capacity) (of : ∀ fragment ∈ fragments, fragment.Of stream)
    (arrivals_eq : assembly.arrivals.map (·.1) = fragments) :
    assembly.Joins stream origin capacity fragments := by
  have capacity_eq := coherent.capacity_eq
  have has_iff := coherent.has_iff_cover fits of arrivals_eq
  -- a position in the window is covered if and only if its byte is there
  have there_iff (offset : Nat) (offset_lt : offset < capacity) :
      Fragment.Cover fragments (assembly.delivered.length + offset) ↔
        (assembly.window.buffered offset).isSome := by
    rw [← has_iff, Has]
    constructor
    · rintro (early | ⟨probe, -, same, there⟩)
      · omega
      · rwa [Nat.add_left_cancel same]
    · exact fun there => Or.inr ⟨offset, by omega, rfl, there⟩
  refine ⟨coherent.delivered_isPrefix, fun position early => (has_iff position).mp (Or.inl early),
    ?_, coherent.next_eq, fun offset offset_lt => ?_⟩
  · have capacity_pos : 0 < capacity := capacity_eq ▸ assembly.window.ring.capacity_pos
    rw [← Nat.add_zero assembly.delivered.length, there_iff 0 capacity_pos, coherent.gap]
    simp
  · simp only [there_iff offset offset_lt]
    cases there : assembly.window.buffered offset with
    | none => rfl
    | some byte => exact (coherent.buffered_eq offset byte offset_lt there).symm

end Coherent

namespace Joins

theorem covered_iff (joins : assembly.Joins stream origin capacity fragments) {front : Bytes}
    (isFront : front <+: stream) :
    (∀ position, position < front.length → Fragment.Cover fragments position) ↔
      front <+: assembly.delivered := by
  constructor
  · intro covered
    apply List.prefix_of_prefix_length_le isFront joins.delivered_isPrefix
    exact Nat.le_of_not_lt fun longer => joins.gap (covered _ longer)
  · intro isPrefix position early
    exact joins.covered position (Nat.lt_of_lt_of_le early isPrefix.length_le)

theorem delivered_eq (joins : assembly.Joins stream origin capacity fragments)
    (joins' : other.Joins stream origin capacity others)
    (same : ∀ position, Fragment.Cover others position ↔ Fragment.Cover fragments position) :
    other.delivered = assembly.delivered := by
  have shorter : other.delivered <+: assembly.delivered :=
    (joins.covered_iff joins'.delivered_isPrefix).mp fun position early =>
      (same position).mp (joins'.covered position early)
  have longer : assembly.delivered <+: other.delivered :=
    (joins'.covered_iff joins.delivered_isPrefix).mp fun position early =>
      (same position).mpr (joins.covered position early)
  exact shorter.eq_of_length_le longer.length_le

theorem buffered_congr (joins : assembly.Joins stream origin capacity fragments)
    (joins' : other.Joins stream origin capacity others)
    (same : ∀ position, Fragment.Cover others position ↔ Fragment.Cover fragments position)
    {offset : Nat} (offset_lt : offset < capacity) :
    other.window.buffered offset = assembly.window.buffered offset := by
  rw [joins.buffered_eq offset offset_lt, joins'.buffered_eq offset offset_lt,
    joins.delivered_eq joins' same]
  simp only [same]

end Joins

/-- Fragments of a stream that fits in an empty window can arrive in any order and any number of
times: what is delivered and what is buffered in the end is the same. -/
theorem takeAll_eq_of_mem_iff {window : ReceiveWindow} (vacant : window.Vacant origin)
    (capacity_le : window.capacity ≤ 65535) (fits : stream.length ≤ window.capacity)
    (of : ∀ fragment ∈ fragments, fragment.Of stream)
    (same : ∀ fragment, fragment ∈ others ↔ fragment ∈ fragments) :
    ∃ assembly other, takeAll { window } stream origin fragments = .ok assembly ∧
      takeAll { window } stream origin others = .ok other ∧
      other.delivered = assembly.delivered ∧ other.window.next = assembly.window.next ∧
      (∀ offset, offset < window.capacity →
        other.window.buffered offset = assembly.window.buffered offset) ∧
      assembly.delivered <+: stream ∧
      ∀ front, front <+: stream →
        ((∀ position, position < front.length → Fragment.Cover fragments position) ↔
          front <+: assembly.delivered) := by
  have coherent : Coherent { window } stream origin window.capacity := .of_vacant vacant
  have of_others : ∀ fragment ∈ others, fragment.Of stream :=
    fun fragment mem => of fragment ((same fragment).mp mem)
  obtain ⟨assembly, taken, coherent₁, arrivals_eq⟩ := coherent.takeAll (by omega) of
  obtain ⟨other, taken', coherent₂, arrivals_eq'⟩ := coherent.takeAll (by omega) of_others
  have joins := coherent₁.joins fits of arrivals_eq
  have joins' := coherent₂.joins fits of_others arrivals_eq'
  have cover_same := Fragment.cover_congr same
  have delivered_eq := joins.delivered_eq joins' cover_same
  refine ⟨assembly, other, taken, taken', delivered_eq, ?_,
    fun _ offset_lt => joins.buffered_congr joins' cover_same offset_lt,
    joins.delivered_isPrefix, fun _ isFront => joins.covered_iff isFront⟩
  rw [joins'.next_eq, joins.next_eq, delivered_eq]

/-- Three fragments that overlap and leave a gap arrive from the front, and from the back with one of
them twice, while the positions in sequence space wrap around. -/
theorem takeAll_eq_of_mem_iff_backwards :
    ∃ (window : ReceiveWindow) (assembly other : Assembly), window.Vacant ⟨4294967295⟩ ∧
      takeAll { window } [11, 12, 13, 14, 15, 16] ⟨4294967295⟩ [⟨0, 2⟩, ⟨1, 2⟩, ⟨4, 2⟩] =
        .ok assembly ∧
      takeAll { window } [11, 12, 13, 14, 15, 16] ⟨4294967295⟩ [⟨4, 2⟩, ⟨1, 2⟩, ⟨4, 2⟩, ⟨0, 2⟩] =
        .ok other ∧
      assembly.delivered = [11, 12, 13] ∧ other.delivered = [11, 12, 13] ∧
      other.window.next = ⟨2⟩ ∧ other.window.buffered 1 = some 15 := by
  let window : ReceiveWindow := ⟨⟨4294967295⟩, Ring.empty 6 (by decide)⟩
  let stream : Bytes := [11, 12, 13, 14, 15, 16]
  have vacant : window.Vacant ⟨4294967295⟩ := ⟨rfl, by simp [window, ReceiveWindow.buffered]⟩
  have of : ∀ fragment ∈ [⟨0, 2⟩, ⟨1, 2⟩, ⟨4, 2⟩], Fragment.Of fragment stream := by decide
  have same : ∀ fragment : Fragment, fragment ∈ [⟨4, 2⟩, ⟨1, 2⟩, ⟨4, 2⟩, ⟨0, 2⟩] ↔
      fragment ∈ [⟨0, 2⟩, ⟨1, 2⟩, ⟨4, 2⟩] := by
    intro fragment
    simp only [List.mem_cons, List.not_mem_nil, or_false]
    constructor
    · rintro (rfl | rfl | rfl | rfl) <;> simp
    · rintro (rfl | rfl | rfl) <;> simp
  obtain ⟨assembly, other, taken, taken', delivered_eq, next_eq, buffered_eq, -⟩ :=
    takeAll_eq_of_mem_iff vacant (by decide) (show stream.length ≤ window.capacity by decide) of same
  have done : (takeAll { window } stream ⟨4294967295⟩ [⟨0, 2⟩, ⟨1, 2⟩, ⟨4, 2⟩]).toOption.map
      (fun assembly => (assembly.delivered, assembly.window.next, assembly.window.buffered 1)) =
        some ([11, 12, 13], ⟨2⟩, some 15) := by decide +kernel
  rw [taken] at done
  obtain ⟨delivered_first, done⟩ := Prod.mk.inj (Option.some.inj done)
  obtain ⟨next_first, buffered_first⟩ := Prod.mk.inj done
  exact ⟨window, assembly, other, vacant, taken, taken', delivered_first,
    delivered_eq.trans delivered_first, next_eq.trans next_first,
    (buffered_eq 1 (by decide)).trans buffered_first⟩

end Assembly
end ReliableTransport
