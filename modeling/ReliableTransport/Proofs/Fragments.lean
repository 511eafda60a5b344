import ReliableTransport.Proofs.ReceiveWindow

/-!
# Fragments of a stream at a window

Fragments of one stream of bytes arrive at a window in any order, overlap and come again.  Whatever
the window delivered is a front of the stream, whatever it buffers is at its place behind this
front, and it has exactly the positions that some fragment brought while they were in front of its
end.
-/

namespace ReliableTransport

/-- A range of positions in a stream. -/
structure Fragment where
  /-- The first position. -/
  start : Nat
  /-- The number of positions. -/
  length : Nat
  deriving DecidableEq, Repr

namespace Fragment

/-- The position behind a fragment. -/
def finish (fragment : Fragment) : Nat :=
  fragment.start + fragment.length

/-- A position belongs to a fragment. -/
def Contains (fragment : Fragment) (position : Nat) : Prop :=
  fragment.start ≤ position ∧ position < fragment.finish

instance (fragment : Fragment) (position : Nat) : Decidable (fragment.Contains position) :=
  inferInstanceAs (Decidable (_ ∧ _))

/-- The bytes of a stream that a fragment brings. -/
def payload (fragment : Fragment) (stream : Bytes) : Bytes :=
  (stream.drop fragment.start).take fragment.length

/-- A fragment brings something, all of it from the stream. -/
def Of (fragment : Fragment) (stream : Bytes) : Prop :=
  0 < fragment.length ∧ fragment.finish ≤ stream.length

instance (fragment : Fragment) (stream : Bytes) : Decidable (fragment.Of stream) :=
  inferInstanceAs (Decidable (_ ∧ _))

/-- A fragment lies within half of the sequence space around a position. -/
def Near (fragment : Fragment) (position : Nat) : Prop :=
  ((fragment.start : Int) - position).natAbs + fragment.length < 2147483648

instance (fragment : Fragment) (position : Nat) : Decidable (fragment.Near position) :=
  inferInstanceAs (Decidable (_ < _))

theorem length_payload {fragment : Fragment} {stream : Bytes} (of : fragment.Of stream) :
    (fragment.payload stream).length = fragment.length := by
  have finish_le := of.2
  rw [finish] at finish_le
  rw [payload, List.length_take, List.length_drop]
  omega

theorem getElem?_payload (fragment : Fragment) (stream : Bytes) {index : Nat}
    (inside : index < fragment.length) :
    (fragment.payload stream)[index]? = stream[fragment.start + index]? := by
  rw [payload, List.getElem?_take_of_lt inside, List.getElem?_drop]

end Fragment

/-- A window, what it delivered, and what arrived at it. -/
structure Assembly where
  /-- The window. -/
  window : ReceiveWindow
  /-- All delivered bytes, oldest first. -/
  delivered : Bytes := []
  /-- The fragments that arrived, each with the number of bytes that were delivered before. -/
  arrivals : List (Fragment × Nat) := []

namespace Assembly

/-- A fragment arrives, of a stream whose first byte has the given position in sequence space. -/
def take (assembly : Assembly) (stream : Bytes) (origin : SeqNum) (fragment : Fragment) :
    Except Fault Assembly := do
  let (arrival, window) ←
    assembly.window.receive (origin.advance fragment.start) (fragment.payload stream)
  return {
    window
    delivered := assembly.delivered ++ arrival.delivered
    arrivals := assembly.arrivals ++ [(fragment, assembly.delivered.length)] }

/-- A position was delivered, or its byte is present. -/
def Has (assembly : Assembly) (position : Nat) : Prop :=
  position < assembly.delivered.length ∨
    ∃ offset < assembly.window.capacity, position = assembly.delivered.length + offset ∧
      (assembly.window.buffered offset).isSome

/-- A position was brought by a fragment while it was in front of the end of a window of some
capacity. -/
def Brought (assembly : Assembly) (capacity position : Nat) : Prop :=
  ∃ arrival ∈ assembly.arrivals, arrival.1.Contains position ∧ position < arrival.2 + capacity

instance (assembly : Assembly) (capacity position : Nat) :
    Decidable (assembly.Brought capacity position) :=
  inferInstanceAs (Decidable (∃ arrival ∈ assembly.arrivals, _))

/-- A window that has put together what arrived. -/
structure Coherent (assembly : Assembly) (stream : Bytes) (origin : SeqNum) (capacity : Nat) :
    Prop where
  /-- A front of the stream was delivered. -/
  delivered_eq : assembly.delivered = stream.take assembly.delivered.length
  /-- The next expected position is the one behind this front. -/
  next_eq : assembly.window.next = origin.advance assembly.delivered.length
  /-- The capacity stays. -/
  capacity_eq : assembly.window.capacity = capacity
  /-- Every byte that is present is at its place. -/
  buffered_eq : ∀ offset byte, offset < capacity → assembly.window.buffered offset = some byte →
    stream[assembly.delivered.length + offset]? = some byte
  /-- The next expected byte is missing. -/
  gap : assembly.window.buffered 0 = none
  /-- What was brought in time is there, and nothing else. -/
  has_iff : ∀ position, assembly.Has position ↔ assembly.Brought capacity position

/-- A payload has the bytes of the stream from an offset behind the next expected position on. -/
def Carries (assembly : Assembly) (stream : Bytes) (offset : Nat) (payload : Bytes) : Prop :=
  ∀ index, index < payload.length →
    stream[assembly.delivered.length + offset + index]? = payload[index]?

/-- What becomes of a new window as fragments of a stream arrive that are near the next expected
position. -/
inductive Arises (stream : Bytes) (origin : SeqNum) (capacity : Nat) : Assembly → Prop
  /-- The window is new. -/
  | create {window : ReceiveWindow} : ReceiveWindow.create capacity origin = .ok window →
      Arises stream origin capacity { window }
  /-- One more fragment arrives. -/
  | take {assembly after : Assembly} (fragment : Fragment) :
      Arises stream origin capacity assembly → fragment.Of stream →
      fragment.Near assembly.delivered.length →
      assembly.take stream origin fragment = .ok after → Arises stream origin capacity after

variable {assembly : Assembly} {stream : Bytes} {origin : SeqNum} {capacity : Nat}

theorem brought_append {after : Assembly} {fragment : Fragment}
    (arrivals_eq : after.arrivals = assembly.arrivals ++ [(fragment, assembly.delivered.length)])
    (position : Nat) :
    after.Brought capacity position ↔ assembly.Brought capacity position ∨
      fragment.Contains position ∧ position < assembly.delivered.length + capacity := by
  simp [Brought, arrivals_eq, or_and_right, exists_or]

theorem take_eq {fragment : Fragment} {arrival : Arrival} {window : ReceiveWindow}
    (received : assembly.window.receive (origin.advance fragment.start) (fragment.payload stream) =
      .ok (arrival, window)) :
    assembly.take stream origin fragment = .ok
      { window
        delivered := assembly.delivered ++ arrival.delivered
        arrivals := assembly.arrivals ++ [(fragment, assembly.delivered.length)] } := by
  rw [take, received]
  rfl

namespace Coherent

theorem create {window : ReceiveWindow}
    (created : ReceiveWindow.create capacity origin = .ok window) :
    Coherent { window } stream origin capacity := by
  rw [ReceiveWindow.create] at created
  split at created
  · obtain rfl := Except.ok.inj created
    refine ⟨rfl, (SeqNum.advance_zero origin).symm, Ring.capacity_empty _ ‹_›, ?_, ?_, ?_⟩
    · intro offset byte _ there
      simp [ReceiveWindow.buffered] at there
    · exact Ring.get?_empty _ ‹_› 0
    · intro position
      simp [Has, Brought, ReceiveWindow.buffered]
  · cases created

theorem skip (coherent : assembly.Coherent stream origin capacity) {fragment : Fragment}
    (nothing : ∀ position, fragment.Contains position →
      position < assembly.delivered.length + capacity → position < assembly.delivered.length) :
    Coherent
      { window := assembly.window
        delivered := assembly.delivered ++ []
        arrivals := assembly.arrivals ++ [(fragment, assembly.delivered.length)] }
      stream origin capacity := by
  rw [List.append_nil]
  refine { coherent with has_iff := fun position => ?_ }
  rw [brought_append rfl, ← coherent.has_iff]
  constructor
  · exact Or.inl
  · rintro (there | ⟨inside, below⟩)
    · exact there
    · exact Or.inl (nothing position inside below)

theorem overlaid_eq (coherent : assembly.Coherent stream origin capacity) {offset : Nat}
    {payload : Bytes} (carries : assembly.Carries stream offset payload) {probe : Nat}
    {byte : UInt8} (probe_lt : probe < capacity)
    (there : assembly.window.overlaid offset (payload.take (capacity - offset)) probe =
      some byte) :
    stream[assembly.delivered.length + probe]? = some byte := by
  rw [ReceiveWindow.overlaid, List.length_take] at there
  split at there
  · next within =>
      rw [List.getElem?_take_of_lt (by omega), ← carries _ (by omega)] at there
      rw [← there]
      congr 1
      omega
  · exact coherent.buffered_eq probe byte probe_lt there

theorem has_iff_of_delivers (coherent : assembly.Coherent stream origin capacity)
    {fragment : Fragment} {offset : Nat} {payload run : Bytes} {rest : ReceiveWindow}
    (delivers : assembly.window.Delivers offset (payload.take (capacity - offset)) run rest)
    (fresh : ∀ position, assembly.delivered.length ≤ position → (fragment.Contains position ↔
      assembly.delivered.length + offset ≤ position ∧
        position < assembly.delivered.length + offset + payload.length))
    (arrivals : List (Fragment × Nat)) (position : Nat) :
    Has { window := rest, delivered := assembly.delivered ++ run, arrivals } position ↔
      assembly.Has position ∨
        fragment.Contains position ∧ position < assembly.delivered.length + capacity := by
  have capacity_eq := coherent.capacity_eq
  rw [Has, Has, List.length_append, delivers.there_iff]
  constructor
  · rintro (early | ⟨probe, probe_lt, rfl, there⟩)
    · exact Or.inl (Or.inl early)
    · rw [ReceiveWindow.isSome_overlaid, List.length_take] at there
      rcases there with ⟨after_start, before_end⟩ | there
      · exact Or.inr ⟨(fresh _ (by omega)).mpr (by omega), by omega⟩
      · exact Or.inl (Or.inr ⟨probe, probe_lt, rfl, there⟩)
  · rintro ((early | ⟨probe, probe_lt, rfl, there⟩) | ⟨inside, below⟩)
    · exact Or.inl early
    · exact Or.inr ⟨probe, probe_lt, rfl, (ReceiveWindow.isSome_overlaid ..).mpr (Or.inr there)⟩
    · by_cases early : position < assembly.delivered.length
      · exact Or.inl early
      · obtain ⟨after_start, before_end⟩ := (fresh position (by omega)).mp inside
        refine Or.inr ⟨position - assembly.delivered.length, by omega, by omega, ?_⟩
        rw [ReceiveWindow.isSome_overlaid, List.length_take]
        exact Or.inl (by omega)

/-- The missing positions of a fragment are put in place. -/
theorem accept (coherent : assembly.Coherent stream origin capacity) (fragment : Fragment)
    {offset : Nat} {payload : Bytes} (inside : offset ≤ capacity)
    (carries : assembly.Carries stream offset payload)
    (fresh : ∀ position, assembly.delivered.length ≤ position → (fragment.Contains position ↔
      assembly.delivered.length + offset ≤ position ∧
        position < assembly.delivered.length + offset + payload.length)) :
    ∃ run rest, assembly.window.accept offset payload = (.accepted run, rest) ∧
      Coherent
        { window := rest
          delivered := assembly.delivered ++ run
          arrivals := assembly.arrivals ++ [(fragment, assembly.delivered.length)] }
        stream origin capacity := by
  have capacity_eq := coherent.capacity_eq
  obtain ⟨run, rest, accepted, delivers⟩ :=
    assembly.window.accept_eq payload (capacity_eq.symm ▸ inside)
  have length_le := delivers.length_le
  have kept := delivers.capacity_eq
  rw [capacity_eq] at delivers length_le kept
  have run_eq : run = (stream.drop assembly.delivered.length).take run.length := by
    apply List.ext_getElem?
    intro probe
    rcases Nat.lt_or_ge probe run.length with taken | beyond
    · have there := delivers.taken probe taken
      rw [List.getElem?_eq_getElem taken] at there
      rw [List.getElem?_take_of_lt taken, List.getElem?_drop,
        coherent.overlaid_eq carries (by omega) there, List.getElem?_eq_getElem taken]
    · rw [List.getElem?_eq_none beyond, List.getElem?_take_eq_none beyond]
  refine ⟨run, rest, accepted, ?_⟩
  constructor
  case delivered_eq =>
    rw [List.length_append, List.take_add, ← coherent.delivered_eq, ← run_eq]
  case next_eq =>
    rw [delivers.next_eq, coherent.next_eq, SeqNum.advance_advance, List.length_append]
  case capacity_eq => exact kept
  case buffered_eq =>
    intro probe byte probe_lt there
    rw [delivers.moved probe (by rwa [capacity_eq])] at there
    split at there
    · next within =>
        rw [List.length_append, Nat.add_assoc]
        exact coherent.overlaid_eq carries (capacity_eq ▸ within) there
    · cases there
  case gap => exact delivers.gap
  case has_iff =>
    intro position
    rw [brought_append rfl, ← coherent.has_iff]
    exact coherent.has_iff_of_delivers delivers fresh _ position

/-- A fragment near the next expected position is put in place. -/
theorem take (coherent : assembly.Coherent stream origin capacity) {fragment : Fragment}
    (of : fragment.Of stream) (near : fragment.Near assembly.delivered.length) :
    ∃ after, assembly.take stream origin fragment = .ok after ∧
      after.Coherent stream origin capacity := by
  have length_eq := Fragment.length_payload of
  rw [Fragment.Near] at near
  have fate := @ReceiveWindow.receive_advance _ _ _ fragment.start (fragment.payload stream)
    coherent.next_eq (by omega) (by omega)
  rw [length_eq, coherent.capacity_eq] at fate
  split at fate
  next stale =>
    refine ⟨_, take_eq fate, coherent.skip fun position inside _ => ?_⟩
    exact Nat.lt_of_lt_of_le inside.2 stale
  next fresh =>
  split at fate
  next overlap =>
    have carries : assembly.Carries stream 0
        ((fragment.payload stream).drop (assembly.delivered.length - fragment.start)) := by
      intro index index_lt
      rw [List.length_drop] at index_lt
      rw [List.getElem?_drop, Fragment.getElem?_payload _ _ (by omega)]
      congr 1
      omega
    obtain ⟨run, rest, accepted, coherent'⟩ :=
      coherent.accept fragment (Nat.zero_le capacity) carries fun position later => by
        rw [Fragment.Contains, Fragment.finish, List.length_drop]
        omega
    rw [accepted] at fate
    exact ⟨_, take_eq fate, coherent'⟩
  next ahead =>
  split at fate
  next outside =>
    refine ⟨_, take_eq fate, coherent.skip fun position inside below => ?_⟩
    have := inside.1
    omega
  next inside =>
    have carries : assembly.Carries stream (fragment.start - assembly.delivered.length)
        (fragment.payload stream) := by
      intro index index_lt
      rw [Fragment.getElem?_payload _ _ (by omega)]
      congr 1
      omega
    obtain ⟨run, rest, accepted, coherent'⟩ :=
      coherent.accept fragment (Nat.le_of_not_lt inside) carries fun position later => by
        rw [Fragment.Contains, Fragment.finish]
        omega
    rw [accepted] at fate
    exact ⟨_, take_eq fate, coherent'⟩

end Coherent

theorem Arises.coherent (arises : Arises stream origin capacity assembly) :
    assembly.Coherent stream origin capacity := by
  induction arises with
  | create created => exact .create created
  | take fragment arises of near taken ih =>
      obtain ⟨after, taken', coherent⟩ := ih.take of near
      obtain rfl := Except.ok.inj (taken'.symm.trans taken)
      exact coherent

/-- A window puts together whatever arrives near its next expected position: it delivered a front of
the stream, and it buffers exactly what was brought while it was in front of its end. -/
theorem Arises.puts_together (arises : Arises stream origin capacity assembly) :
    assembly.Coherent stream origin capacity ∧
      ∀ fragment : Fragment, fragment.Of stream → fragment.Near assembly.delivered.length →
        ∃ after, assembly.take stream origin fragment = .ok after :=
  ⟨arises.coherent, fun _ of near =>
    let ⟨after, taken, _⟩ := arises.coherent.take of near
    ⟨after, taken⟩⟩

/-- Fragments arrive out of order, are cut off at the end of the window and overlap what was
delivered, while the positions in sequence space wrap around. -/
theorem puts_together_wrapping :
    ∃ assembly, Arises [11, 12, 13, 14, 15, 16, 17] ⟨4294967294⟩ 4 assembly ∧
      assembly.delivered = [11, 12, 13, 14] ∧ assembly.window.next = ⟨2⟩ ∧
      assembly.Has 5 ∧ ¬ assembly.Has 4 ∧
      ∃ after, assembly.take [11, 12, 13, 14, 15, 16, 17] ⟨4294967294⟩ ⟨3, 2⟩ = .ok after := by
  have created : Arises [11, 12, 13, 14, 15, 16, 17] ⟨4294967294⟩ 4 _ := .create rfl
  have ahead := created.take ⟨2, 2⟩ (by decide) (by decide) rfl
  have cut := ahead.take ⟨3, 4⟩ (by decide) (by decide) rfl
  have overlap := cut.take ⟨0, 3⟩ (by decide) (by decide) rfl
  have beyond := overlap.take ⟨5, 2⟩ (by decide) (by decide) rfl
  obtain ⟨coherent, takes⟩ := beyond.puts_together
  exact ⟨_, beyond, rfl, rfl, (coherent.has_iff 5).mpr (by decide),
    mt (coherent.has_iff 4).mp (by decide), takes ⟨3, 2⟩ (by decide) (by decide)⟩

end Assembly
end ReliableTransport
