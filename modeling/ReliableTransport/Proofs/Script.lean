import Mathlib.Data.List.Basic
import Mathlib.Data.List.Infix
import Mathlib.Data.List.ReduceOption
import ReliableTransport.Segment.Basic

/-!
# Scripts

A script lists what one end put into its sequence space, oldest first: its SYN, chunks of its stream
and its FIN.  Sequence numbers, the stream and the boundaries of segments are functions of the
script.  A script only grows, so that everything sent or acknowledged in the past is a front of it.
-/

namespace ReliableTransport

/-- What one segment puts into the sequence space. -/
inductive Cargo where
  /-- The SYN, which may answer the peer's. -/
  | syn (answers : Bool)
  /-- A chunk of the stream. -/
  | data (chunk : Bytes)
  /-- The FIN. -/
  | fin
  deriving DecidableEq

namespace Cargo

/-- The flags of the segment. -/
def flags : Cargo → Flags
  | syn answers => { syn := true, ack := answers }
  | data _ => { ack := true }
  | fin => { fin := true, ack := true }

/-- The payload of the segment. -/
def payload : Cargo → Bytes
  | data chunk => chunk
  | syn _ | fin => []

/-- The bytes at the occupied sequence numbers, where a flag occupies one without a byte. -/
def slots : Cargo → List (Option UInt8)
  | data chunk => chunk.map some
  | syn _ | fin => [none]

/-- The number of sequence numbers that the segment occupies. -/
def length (cargo : Cargo) : Nat := cargo.slots.length

@[simp] theorem length_syn (answers : Bool) : (syn answers).length = 1 := rfl

@[simp] theorem length_fin : fin.length = 1 := rfl

@[simp] theorem length_data (chunk : Bytes) : (data chunk).length = chunk.length := by
  simp [length, slots]

end Cargo

namespace Script

/-- The number of occupied sequence numbers. -/
def extent : List Cargo → Nat
  | [] => 0
  | cargo :: rest => cargo.length + extent rest

/-- The bytes of the stream. -/
def content (script : List Cargo) : Bytes :=
  script.flatMap Cargo.payload

/-- The bytes at the occupied sequence numbers. -/
def slots (script : List Cargo) : List (Option UInt8) :=
  script.flatMap Cargo.slots

/-- A script as an end writes it: first the SYN, then nonempty chunks, at last the FIN. -/
inductive Valid : List Cargo → Prop
  | nil : Valid []
  | syn (answers : Bool) : Valid [.syn answers]
  | data {script : List Cargo} {chunk : Bytes} : Valid script → script ≠ [] → .fin ∉ script →
      chunk ≠ [] → Valid (script ++ [.data chunk])
  | fin {script : List Cargo} : Valid script → script ≠ [] → .fin ∉ script →
      Valid (script ++ [.fin])

@[simp] theorem extent_nil : extent [] = 0 := rfl

@[simp]
theorem extent_cons (cargo : Cargo) (script : List Cargo) :
    extent (cargo :: script) = cargo.length + extent script := rfl

@[simp]
theorem extent_append (front back : List Cargo) :
    extent (front ++ back) = extent front + extent back := by
  induction front with
  | nil => simp
  | cons cargo rest ih => simp [ih, Nat.add_assoc]

@[simp] theorem content_nil : content [] = [] := rfl

@[simp]
theorem content_cons (cargo : Cargo) (script : List Cargo) :
    content (cargo :: script) = cargo.payload ++ content script := rfl

@[simp]
theorem content_append (front back : List Cargo) :
    content (front ++ back) = content front ++ content back := by
  simp [content]

@[simp]
theorem slots_append (front back : List Cargo) :
    slots (front ++ back) = slots front ++ slots back := by
  simp [slots]

@[simp]
theorem slots_cons (cargo : Cargo) (script : List Cargo) :
    slots (cargo :: script) = cargo.slots ++ slots script := rfl

@[simp]
theorem length_slots (script : List Cargo) : (slots script).length = extent script := by
  induction script with
  | nil => rfl
  | cons cargo script ih => simp [ih, Cargo.length]

theorem reduceOption_slots (script : List Cargo) :
    (slots script).reduceOption = content script := by
  induction script with
  | nil => rfl
  | cons cargo script ih =>
      rw [slots_cons, List.reduceOption_append, ih, content_cons]
      cases cargo with
      | syn answers => rfl
      | data chunk => simp [Cargo.slots, Cargo.payload, List.reduceOption]
      | fin => rfl

theorem extent_le_of_isPrefix {front script : List Cargo} (isFront : front <+: script) :
    extent front ≤ extent script := by
  obtain ⟨back, rfl⟩ := isFront
  simp

theorem content_isPrefix {front script : List Cargo} (isFront : front <+: script) :
    content front <+: content script := by
  obtain ⟨back, rfl⟩ := isFront
  exact ⟨content back, (content_append front back).symm⟩

theorem isPrefix_of_extent_lt {front other script : List Cargo} (isFront : front <+: script)
    (isOther : other <+: script) (shorter : extent front < extent other) : front <+: other := by
  rcases List.prefix_or_prefix_of_prefix isFront isOther with isPrefix | isPrefix
  · exact isPrefix
  · have := extent_le_of_isPrefix isPrefix
    omega

namespace Valid

theorem length_pos {script : List Cargo} (valid : Valid script) {cargo : Cargo}
    (mem : cargo ∈ script) : 0 < cargo.length := by
  induction valid with
  | nil => simp at mem
  | syn answers =>
      obtain rfl := List.mem_singleton.mp mem
      simp
  | @data script chunk _ _ _ chunk_ne ih =>
      rcases List.mem_append.mp mem with mem | mem
      · exact ih mem
      · obtain rfl := List.mem_singleton.mp mem
        simpa [List.length_pos_iff] using chunk_ne
  | @fin script _ _ _ ih =>
      rcases List.mem_append.mp mem with mem | mem
      · exact ih mem
      · obtain rfl := List.mem_singleton.mp mem
        simp

/-- A front that is not empty occupies sequence numbers. -/
theorem extent_pos {front script : List Cargo} (valid : Valid script) (isFront : front <+: script)
    (front_ne : front ≠ []) : 0 < extent front := by
  obtain ⟨cargo, rest, rfl⟩ := List.exists_cons_of_ne_nil front_ne
  have cargo_pos := valid.length_pos (isFront.subset (List.mem_cons_self : cargo ∈ cargo :: rest))
  rw [extent_cons]
  omega

/-- The FIN is the last entry. -/
theorem eq_append_fin {script : List Cargo} (valid : Valid script) (mem : .fin ∈ script) :
    ∃ front, script = front ++ [.fin] ∧ .fin ∉ front := by
  cases valid with
  | nil => simp at mem
  | syn answers => simp at mem
  | @data script chunk _ _ unfinished _ => simp [unfinished] at mem
  | @fin script _ _ unfinished => exact ⟨script, rfl, unfinished⟩

/-- Nothing follows the FIN. -/
theorem nil_of_append_fin {front back : List Cargo} (valid : Valid (front ++ .fin :: back)) :
    back = [] := by
  obtain ⟨body, split, unfinished⟩ := valid.eq_append_fin (by simp)
  rcases List.eq_nil_or_concat back with rfl | ⟨back, last, rfl⟩
  · rfl
  · exfalso
    rw [List.concat_eq_append, ← List.cons_append, ← List.append_assoc] at split
    obtain ⟨rfl, -⟩ := List.append_inj' split rfl
    simp at unfinished

/-- A front with the FIN is the whole script. -/
theorem eq_of_fin_mem {front script : List Cargo} (valid : Valid script)
    (isFront : front <+: script) (finished : .fin ∈ front) : front = script := by
  obtain ⟨back, rfl⟩ := isFront
  obtain ⟨before, after, rfl⟩ := List.append_of_mem finished
  rw [List.append_assoc, List.cons_append] at valid
  have nothing := valid.nil_of_append_fin
  obtain ⟨rfl, rfl⟩ := List.append_eq_nil_iff.mp nothing
  simp

/-- The first entry is a SYN, and no other is. -/
theorem head_syn {script : List Cargo} (valid : Valid script) (nonempty : script ≠ []) :
    ∃ answers back, script = .syn answers :: back ∧ ∀ other, .syn other ∉ back := by
  induction valid with
  | nil => exact absurd rfl nonempty
  | syn answers => exact ⟨answers, [], rfl, by simp⟩
  | @data script chunk _ script_ne _ _ ih =>
      obtain ⟨answers, back, rfl, unique⟩ := ih script_ne
      exact ⟨answers, back ++ [.data chunk], rfl, by simp [unique]⟩
  | @fin script _ script_ne _ ih =>
      obtain ⟨answers, back, rfl, unique⟩ := ih script_ne
      exact ⟨answers, back ++ [.fin], rfl, by simp [unique]⟩

theorem of_isPrefix {front script : List Cargo} (valid : Valid script)
    (isFront : front <+: script) : Valid front := by
  induction valid with
  | nil =>
      rw [List.prefix_nil.mp isFront]
      exact .nil
  | syn answers =>
      rcases List.prefix_cons_iff.mp isFront with rfl | ⟨rest, rfl, none⟩
      · exact .nil
      · rw [List.prefix_nil.mp none]
        exact .syn answers
  | data valid script_ne unfinished chunk_ne ih =>
      rcases List.prefix_concat_iff.mp isFront with rfl | isFront
      · exact .data valid script_ne unfinished chunk_ne
      · exact ih isFront
  | fin valid script_ne unfinished ih =>
      rcases List.prefix_concat_iff.mp isFront with rfl | isFront
      · exact .fin valid script_ne unfinished
      · exact ih isFront

/-- Nothing precedes the SYN. -/
theorem nil_of_append_syn {front back : List Cargo} {answers : Bool}
    (valid : Valid (front ++ .syn answers :: back)) : front = [] := by
  obtain ⟨first, rest, split, unique⟩ := valid.head_syn (by simp)
  cases front with
  | nil => rfl
  | cons cargo front =>
      obtain ⟨-, rfl⟩ := List.cons.inj split
      exact absurd (by simp) (unique answers)

/-- A script occupies one sequence number for each byte and each flag. -/
theorem extent_eq {script : List Cargo} (valid : Valid script) :
    extent script = (if script = [] then 0 else 1) + (content script).length +
      (if .fin ∈ script then 1 else 0) := by
  induction valid with
  | nil => rfl
  | syn answers => simp [Cargo.payload]
  | @data script chunk _ script_ne unfinished _ ih =>
      simp only [script_ne, unfinished, if_false] at ih
      simp [ih, unfinished, Cargo.payload]
      omega
  | @fin script _ script_ne unfinished ih =>
      simp only [script_ne, unfinished, if_false] at ih
      simp [ih, Cargo.payload]

theorem extent_front {front back : List Cargo} {cargo : Cargo}
    (valid : Valid (front ++ cargo :: back)) (front_ne : front ≠ []) :
    extent front = 1 + (content front).length := by
  have isFront : front <+: front ++ cargo :: back := List.prefix_append _ _
  have unfinished : .fin ∉ front := by
    intro finished
    simpa using valid.eq_of_fin_mem isFront finished
  rw [(valid.of_isPrefix isFront).extent_eq, if_neg front_ne, if_neg unfinished, Nat.add_zero]

theorem extent_le {script : List Cargo} (valid : Valid script) :
    extent script ≤ (content script).length + 2 := by
  rw [valid.extent_eq]
  split <;> split <;> omega

/-- Fronts of a script are told apart by their extents. -/
theorem eq_of_extent_eq {front other script : List Cargo} (valid : Valid script)
    (isFront : front <+: script) (isOther : other <+: script)
    (same : extent front = extent other) : front = other := by
  have eq_of_isPrefix {front other : List Cargo} (isOther : other <+: script)
      (isPrefix : front <+: other) (same : extent front = extent other) : front = other := by
    obtain ⟨back, rfl⟩ := isPrefix
    cases back with
    | nil => simp
    | cons cargo back =>
        have := valid.length_pos (isOther.subset (show cargo ∈ front ++ cargo :: back by simp))
        simp at same
        omega
  rcases List.prefix_or_prefix_of_prefix isFront isOther with isPrefix | isPrefix
  · exact eq_of_isPrefix isOther isPrefix same
  · exact (eq_of_isPrefix isFront isPrefix same.symm).symm

end Valid

/-- A front of the script ends at a position. -/
def Cut (script : List Cargo) (position : Nat) : Prop :=
  ∃ front, front <+: script ∧ extent front = position

theorem Cut.of_isPrefix {front script : List Cargo} (isFront : front <+: script) :
    Cut script (extent front) :=
  ⟨front, isFront, rfl⟩

theorem Cut.mono {front script : List Cargo} {position : Nat} (cut : Cut front position)
    (isFront : front <+: script) : Cut script position := by
  obtain ⟨start, isStart, extent_eq⟩ := cut
  exact ⟨start, isStart.trans isFront, extent_eq⟩

theorem Cut.le_or_le {front back : List Cargo} {cargo : Cargo} {position : Nat}
    (cut : Cut (front ++ cargo :: back) position) :
    position ≤ extent front ∨ extent front + cargo.length ≤ position := by
  obtain ⟨start, isStart, rfl⟩ := cut
  rcases List.prefix_or_prefix_of_prefix isStart (List.prefix_append front (cargo :: back)) with
      isPrefix | ⟨rest, rfl⟩
  · exact Or.inl (extent_le_of_isPrefix isPrefix)
  · rw [List.prefix_append_right_inj] at isStart
    cases rest with
    | nil => simp
    | cons other rest =>
        obtain ⟨rfl, -⟩ := List.cons_prefix_cons.mp isStart
        right
        simp

/-- The entry that occupies a position. -/
theorem exists_entry {script : List Cargo} {position : Nat} (inside : position < extent script) :
    ∃ front cargo back, script = front ++ cargo :: back ∧ extent front ≤ position ∧
      position < extent front + cargo.length := by
  induction script generalizing position with
  | nil => simp at inside
  | cons cargo script ih =>
      rcases Nat.lt_or_ge position cargo.length with here | later
      · exact ⟨[], cargo, script, rfl, by simp, by simpa using here⟩
      · rw [extent_cons] at inside
        obtain ⟨front, found, back, rfl, front_le, lt⟩ :=
          ih (show position - cargo.length < extent script by omega)
        refine ⟨cargo :: front, found, back, rfl, ?_, ?_⟩
        · rw [extent_cons]
          omega
        · rw [extent_cons]
          omega

/-- A position falls behind some front of the script and into the next entry, if there is one. -/
theorem exists_cut {script : List Cargo} {position : Nat} (inside : position ≤ extent script) :
    ∃ front back, script = front ++ back ∧ extent front ≤ position ∧
      ∀ cargo rest, back = cargo :: rest → position < extent front + cargo.length := by
  rcases Nat.lt_or_eq_of_le inside with lt | rfl
  · obtain ⟨front, cargo, back, split, front_le, within⟩ := exists_entry lt
    refine ⟨front, cargo :: back, split, front_le, ?_⟩
    rintro first rest same
    obtain ⟨rfl, -⟩ := List.cons.inj same
    exact within
  · exact ⟨script, [], (List.append_nil script).symm, Nat.le_refl _, by simp⟩

theorem getElem?_slots_append (front back : List Cargo) (position : Nat) :
    (slots (front ++ back))[extent front + position]? = (slots back)[position]? := by
  rw [slots_append, List.getElem?_append_right (by simp), length_slots, Nat.add_sub_cancel_left]

theorem getElem?_slots_of_isPrefix {front script : List Cargo} (isFront : front <+: script)
    {position : Nat} (inside : position < extent front) :
    (slots script)[position]? = (slots front)[position]? := by
  obtain ⟨back, rfl⟩ := isFront
  rw [slots_append, List.getElem?_append_left (by simpa using inside)]

theorem getElem?_slots_entry (front back : List Cargo) (cargo : Cargo) {position : Nat}
    (inside : position < cargo.length) :
    (slots (front ++ cargo :: back))[extent front + position]? = cargo.slots[position]? := by
  rw [getElem?_slots_append, slots_cons, List.getElem?_append_left inside]

end Script
end ReliableTransport
