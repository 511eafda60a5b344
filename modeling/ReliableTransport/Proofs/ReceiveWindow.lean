import ReliableTransport.Proofs.Fault
import ReliableTransport.Proofs.Ring
import ReliableTransport.Proofs.SeqNum
import ReliableTransport.ReceiveWindow.Basic

/-!
# What a receive window does with a payload

The next expected position and the position of the payload are counted from a common base.  The
buffered bytes of a window are a partial map from offsets; a payload is laid over this map, and the
run at its start leaves the window.  A payload that arrives once more changes nothing.
-/

namespace ReliableTransport

/-- The bytes that an arriving payload brings to the application. -/
def Arrival.delivered : Arrival → Bytes
  | stale | outOfWindow => []
  | accepted delivered => delivered

namespace ReceiveWindow

/-- The buffered bytes of a window with a payload laid over them. -/
def overlaid (window : ReceiveWindow) (offset : Nat) (payload : Bytes) (probe : Nat) :
    Option UInt8 :=
  if offset ≤ probe ∧ probe < offset + payload.length then payload[probe - offset]?
  else window.buffered probe

/-- A window delivers a run after a payload was laid over it, and slides behind the run. -/
structure Delivers (window : ReceiveWindow) (offset : Nat) (payload run : Bytes)
    (rest : ReceiveWindow) : Prop where
  /-- The run fits in the window. -/
  length_le : run.length ≤ window.capacity
  /-- The run holds the bytes at the start. -/
  taken : ∀ probe, probe < run.length → window.overlaid offset payload probe = run[probe]?
  /-- A run that does not fill the window ends at a gap. -/
  stopped : run.length < window.capacity → window.overlaid offset payload run.length = none
  /-- The window keeps its capacity. -/
  capacity_eq : rest.capacity = window.capacity
  /-- The run counts as received. -/
  next_eq : rest.next = window.next.advance run.length
  /-- The other buffered bytes stay at their positions. -/
  moved : ∀ probe, probe < window.capacity →
    rest.buffered probe =
      if run.length + probe < window.capacity then
        window.overlaid offset payload (run.length + probe)
      else none

@[simp]
theorem capacity_consumeFlag (window : ReceiveWindow) :
    window.consumeFlag.capacity = window.capacity :=
  Ring.capacity_clear window.ring

@[simp]
theorem next_consumeFlag (window : ReceiveWindow) :
    window.consumeFlag.next = window.next.advance 1 := rfl

@[simp]
theorem buffered_consumeFlag (window : ReceiveWindow) (offset : Nat) :
    window.consumeFlag.buffered offset = none :=
  Ring.get?_clear window.ring offset

@[simp]
theorem capacity_synchronize (window : ReceiveWindow) (next : SeqNum) :
    (window.synchronize next).capacity = window.capacity :=
  Ring.capacity_empty window.capacity window.ring.capacity_pos

@[simp]
theorem buffered_synchronize (window : ReceiveWindow) (next : SeqNum) (offset : Nat) :
    (window.synchronize next).buffered offset = none :=
  Ring.get?_empty window.capacity window.ring.capacity_pos offset

/-- Accepting a payload lays its part inside the window over the buffered bytes and delivers. -/
theorem accept_eq (window : ReceiveWindow) {offset : Nat} (payload : Bytes)
    (inside : offset ≤ window.capacity) :
    ∃ run rest, window.accept offset payload = (.accepted run, rest) ∧
      Delivers window offset (payload.take (window.capacity - offset)) run rest := by
  let clipped := payload.take (window.capacity - offset)
  have fits : offset + clipped.length ≤ window.ring.capacity := by
    have : window.ring.capacity = window.capacity := rfl
    simp only [clipped, List.length_take]
    omega
  have view (probe : Nat) (probe_lt : probe < window.capacity) :
      (window.ring.write offset clipped).get? probe = window.overlaid offset clipped probe :=
    Ring.get?_write fits probe_lt
  have capacity_eq : (window.ring.write offset clipped).capacity = window.capacity :=
    Ring.capacity_write window.ring offset clipped
  obtain ⟨run, rest, taken, isRun⟩ := (window.ring.write offset clipped).takeRun_eq
  have length_le := isRun.length_le
  rw [capacity_eq] at length_le
  refine ⟨run, { next := window.next.advance run.length, ring := rest }, ?_, ?_⟩
  · rw [accept]
    simp only [clipped] at taken
    rw [taken]
  · refine ⟨length_le, ?_, ?_, ?_, rfl, ?_⟩
    · intro probe probe_lt
      rw [← view probe (by omega), isRun.taken probe probe_lt]
    · intro below
      rw [← view run.length below, isRun.stopped (by rwa [capacity_eq])]
    · exact isRun.capacity_eq.trans capacity_eq
    · intro probe probe_lt
      have moved := isRun.moved probe (by rwa [capacity_eq])
      rw [capacity_eq] at moved
      rw [show ReceiveWindow.buffered _ probe = rest.get? probe from rfl, moved]
      by_cases inside : run.length + probe < window.capacity
      · rw [if_pos inside, if_pos inside, view _ inside]
      · rw [if_neg inside, if_neg inside]

theorem isSome_overlaid (window : ReceiveWindow) (offset : Nat) (payload : Bytes) (probe : Nat) :
    (window.overlaid offset payload probe).isSome ↔
      offset ≤ probe ∧ probe < offset + payload.length ∨ (window.buffered probe).isSome := by
  rw [overlaid]
  split
  · next inside =>
      have index_lt : probe - offset < payload.length := by omega
      simp [inside, index_lt]
  · next outside => simp [outside]

/-- What a window delivers and keeps are the bytes that were there after the payload was laid over
them. -/
theorem Delivers.there_iff {window rest : ReceiveWindow} {offset : Nat} {payload run : Bytes}
    (delivers : window.Delivers offset payload run rest) (origin position : Nat) :
    (position < origin + run.length ∨ ∃ probe < rest.capacity,
        position = origin + run.length + probe ∧ (rest.buffered probe).isSome) ↔
      position < origin ∨ ∃ probe < window.capacity, position = origin + probe ∧
        (window.overlaid offset payload probe).isSome := by
  have length_le := delivers.length_le
  rw [delivers.capacity_eq]
  constructor
  · rintro (early | ⟨probe, probe_lt, rfl, there⟩)
    · by_cases before : position < origin
      · exact Or.inl before
      · refine Or.inr ⟨position - origin, by omega, by omega, ?_⟩
        rw [delivers.taken _ (by omega), List.getElem?_eq_getElem (by omega)]
        rfl
    · rw [delivers.moved probe probe_lt] at there
      split at there
      · next inside => exact Or.inr ⟨run.length + probe, inside, by omega, there⟩
      · cases there
  · rintro (before | ⟨probe, probe_lt, rfl, there⟩)
    · exact Or.inl (by omega)
    · by_cases taken : probe < run.length
      · exact Or.inl (by omega)
      · refine Or.inr ⟨probe - run.length, by omega, by omega, ?_⟩
        rw [delivers.moved _ (by omega), if_pos (by omega), Nat.add_sub_cancel' (by omega)]
        exact there

/-- The byte behind a run is missing. -/
theorem Delivers.gap {window rest : ReceiveWindow} {offset : Nat} {payload run : Bytes}
    (delivers : window.Delivers offset payload run rest) : rest.buffered 0 = none := by
  rw [delivers.moved 0 window.ring.capacity_pos]
  split
  · next within => exact delivers.stopped within
  · rfl

theorem Delivers.starts {window rest : ReceiveWindow} {offset : Nat} {payload run : Bytes}
    (delivers : window.Delivers offset payload run rest) (gap : window.buffered 0 = none)
    (run_ne : run ≠ []) : offset = 0 ∧ 0 < payload.length := by
  have taken := delivers.taken 0 (List.length_pos_iff.mpr run_ne)
  have there : (window.overlaid offset payload 0).isSome := by
    rw [taken, List.getElem?_eq_getElem (List.length_pos_iff.mpr run_ne)]
    rfl
  rw [isSome_overlaid, gap] at there
  simp only [Option.isSome_none, Bool.false_eq_true, or_false] at there
  omega

/-- The fate of a payload by its position relative to the next expected one. -/
theorem receive_advance {window : ReceiveWindow} {base : SeqNum} {received start : Nat}
    {payload : Bytes} (next_eq : window.next = base.advance received)
    (ahead : start + payload.length < received + 2147483648)
    (behind : received < start + 2147483648) :
    window.receive (base.advance start) payload =
      if start + payload.length ≤ received then .ok (.stale, window)
      else if start < received then
        .ok (window.accept 0 (payload.drop (received - start)))
      else if window.capacity < start - received then .ok (.outOfWindow, window)
      else .ok (window.accept (start - received) payload) := by
  have counted : countWord payload.length = .ok payload.length := by
    rw [countWord, if_pos]
    simp only [UInt32.size]
    omega
  have stale_iff := SeqNum.atOrBefore_advance_iff base (i := start + payload.length)
    (j := received) (by omega) ahead
  have before_iff := SeqNum.before_advance_iff base (i := start) (j := received) behind (by omega)
  rw [receive, counted, next_eq]
  simp only [bind, Except.bind, SeqNum.advance_advance, stale_iff, before_iff]
  by_cases stale : start + payload.length ≤ received
  · rw [if_pos stale, if_pos stale]
  · rw [if_neg stale, if_neg stale]
    by_cases overlap : start < received
    · have distance := SeqNum.since_advance base (Nat.le_of_lt overlap) (by omega)
      rw [if_pos overlap, if_pos overlap, distance, if_neg (by omega)]
    · have distance := SeqNum.since_advance base (Nat.le_of_not_lt overlap) (by omega)
      rw [if_neg overlap, if_neg overlap, distance]

theorem receive_ensures (window : ReceiveWindow) (seq : SeqNum) {payload : Bytes}
    (payload_ne : payload ≠ []) :
    Fault.Ensures (fun fault => fault = .count ∧ UInt32.size ≤ payload.length) (fun _ => True)
      (window.receive seq payload) := by
  have payload_pos : 0 < payload.length := List.length_pos_iff.mpr payload_ne
  rw [receive, countWord]
  by_cases counted : payload.length < UInt32.size
  · rw [if_pos counted]
    simp only [bind, Except.bind]
    have next_eq := SeqNum.advance_since seq window.next
    have distance_lt := SeqNum.since_lt window.next seq
    simp only [UInt32.size] at counted distance_lt
    generalize window.next.since seq = distance at next_eq distance_lt ⊢
    split
    · trivial
    next fresh =>
    split
    next old =>
      rw [if_neg]
      · trivial
      intro short
      rw [SeqNum.AtOrBefore, Decidable.not_not, SeqNum.Before, ← next_eq,
        SeqNum.since_advance seq (Nat.le_of_lt short) (by omega),
        show UInt32.size / 2 = 2147483648 from rfl] at fresh
      have behind := SeqNum.since_advance_of_lt seq (i := 0) (j := distance) (by omega) (by omega)
      rw [SeqNum.advance_zero] at behind
      rw [SeqNum.Before, ← next_eq, behind, show UInt32.size / 2 = 2147483648 from rfl] at old
      omega
    split
    · trivial
    · trivial
  · rw [if_neg counted]
    exact ⟨rfl, Nat.le_of_not_lt counted⟩

/-- What an arriving payload leads to: a window slides behind the run that it delivers, and a run
begins with the next expected byte, which the payload brings. -/
structure Yields (window : ReceiveWindow) (seq : SeqNum) (payload run : Bytes)
    (rest : ReceiveWindow) : Prop where
  /-- The run fits in the window. -/
  length_le : run.length ≤ window.capacity
  /-- The window keeps its capacity. -/
  capacity_eq : rest.capacity = window.capacity
  /-- The run counts as received. -/
  next_eq : rest.next = window.next.advance run.length
  /-- The next expected byte is missing if it was before. -/
  gap : window.buffered 0 = none → rest.buffered 0 = none
  /-- If so, a payload leads to a run only if it brings that byte. -/
  cause : window.buffered 0 = none → run ≠ [] → window.next.since seq < payload.length

theorem Yields.refl (window : ReceiveWindow) (seq : SeqNum) (payload : Bytes) :
    window.Yields seq payload [] window where
  length_le := Nat.zero_le _
  capacity_eq := rfl
  next_eq := (SeqNum.advance_zero window.next).symm
  gap := id
  cause _ run_ne := absurd rfl run_ne

/-- Where a payload is laid over the buffered bytes of a window. -/
def offsetOf (window : ReceiveWindow) (seq : SeqNum) : Nat :=
  if seq.Before window.next then 0 else seq.since window.next

/-- How much of a payload was expected before. -/
def skippedOf (window : ReceiveWindow) (seq : SeqNum) : Nat :=
  if seq.Before window.next then window.next.since seq else 0

theorem receive_placed {window rest : ReceiveWindow} {seq : SeqNum} {payload : Bytes}
    {arrival : Arrival} (received : window.receive seq payload = .ok (arrival, rest)) :
    ((arrival = .stale ∨ arrival = .outOfWindow) ∧ rest = window) ∨
      window.offsetOf seq ≤ window.capacity ∧ window.skippedOf seq ≤ payload.length ∧
        window.accept (window.offsetOf seq) (payload.drop (window.skippedOf seq)) =
          (arrival, rest) := by
  obtain ⟨length, -, received⟩ := Fault.exists_of_bind_eq_ok received
  rw [offsetOf, skippedOf]
  split at received
  · obtain ⟨rfl, rfl⟩ := Prod.mk.inj (Except.ok.inj received)
    exact Or.inl ⟨Or.inl rfl, rfl⟩
  split at received
  next old =>
    rw [if_pos old, if_pos old]
    split at received
    · cases received
    next within =>
      exact Or.inr ⟨Nat.zero_le _, Nat.le_of_not_lt within, Except.ok.inj received⟩
  next ahead =>
    rw [if_neg ahead, if_neg ahead]
    split at received
    · obtain ⟨rfl, rfl⟩ := Prod.mk.inj (Except.ok.inj received)
      exact Or.inl ⟨Or.inr rfl, rfl⟩
    next within =>
      exact Or.inr ⟨Nat.le_of_not_lt within, Nat.zero_le _, Except.ok.inj received⟩

theorem skippedOf_eq {window : ReceiveWindow} {seq : SeqNum} (here : window.offsetOf seq = 0) :
    window.skippedOf seq = window.next.since seq := by
  rw [offsetOf] at here
  rw [skippedOf]
  split
  · rfl
  next ahead =>
    rw [if_neg ahead] at here
    have same := SeqNum.advance_since window.next seq
    rw [here, SeqNum.advance_zero] at same
    rw [same, SeqNum.since_self]

/-- A payload delivers nothing and changes nothing, or a part of it is taken.  If what is left
begins with the next expected byte, everything before this byte is skipped. -/
theorem receive_cases {window rest : ReceiveWindow} {seq : SeqNum} {payload : Bytes}
    {arrival : Arrival} (received : window.receive seq payload = .ok (arrival, rest)) :
    (arrival.delivered = [] ∧ rest = window) ∨
      ∃ offset skipped, offset ≤ window.capacity ∧ skipped ≤ payload.length ∧
        (offset = 0 → skipped = window.next.since seq) ∧
        window.accept offset (payload.drop skipped) = (arrival, rest) := by
  rcases receive_placed received with ⟨rfl | rfl, same⟩ | ⟨inside, within, accepted⟩
  · exact Or.inl ⟨rfl, same⟩
  · exact Or.inl ⟨rfl, same⟩
  · exact Or.inr ⟨_, _, inside, within, skippedOf_eq, accepted⟩

theorem receive_yields {window rest : ReceiveWindow} {seq : SeqNum} {payload : Bytes}
    {arrival : Arrival} (received : window.receive seq payload = .ok (arrival, rest)) :
    window.Yields seq payload arrival.delivered rest := by
  rcases receive_cases received with
      ⟨nothing, rfl⟩ | ⟨offset, skipped, inside, -, skipped_eq, accepted⟩
  · rw [nothing]
    exact .refl rest seq payload
  · obtain ⟨run, rest', accepted', delivers⟩ := window.accept_eq (payload.drop skipped) inside
    obtain ⟨rfl, rfl⟩ := Prod.mk.inj (accepted'.symm.trans accepted)
    refine ⟨delivers.length_le, delivers.capacity_eq, delivers.next_eq, fun _ => delivers.gap,
      fun gap run_ne => ?_⟩
    obtain ⟨here, nonempty⟩ := delivers.starts gap run_ne
    rw [List.length_take, List.length_drop, skipped_eq here] at nonempty
    omega

variable {window rest : ReceiveWindow}

theorem receive_of_stale {seq : SeqNum} {payload : Bytes} (counted : payload.length < UInt32.size)
    (stale : (seq.advance payload.length).AtOrBefore window.next) :
    window.receive seq payload = .ok (.stale, window) := by
  rw [receive, countWord, if_pos counted]
  exact if_pos stale

theorem length_lt_of_receive {seq : SeqNum} {payload : Bytes} {arrival : Arrival}
    (received : window.receive seq payload = .ok (arrival, rest)) :
    payload.length < UInt32.size := by
  rw [receive, countWord] at received
  split at received
  next counted => exact counted
  next => cases received

theorem accept_again {offset : Nat} {payload : Bytes}
    (inside : offset ≤ window.capacity)
    (accepted : window.accept offset payload = (.accepted [], rest)) :
    rest.accept offset payload = (.accepted [], rest) := by
  obtain ⟨run, rest', accepted', delivers⟩ := window.accept_eq payload inside
  obtain ⟨same, rfl⟩ := Prod.mk.inj (accepted'.symm.trans accepted)
  obtain rfl := Arrival.accepted.inj same
  have capacity_eq : rest'.capacity = window.capacity := delivers.capacity_eq
  have written : rest'.ring.write offset (payload.take (window.capacity - offset)) = rest'.ring := by
    refine Ring.write_eq_self fun index index_lt => ?_
    have index_lt' := index_lt
    rw [List.length_take] at index_lt'
    have view := delivers.moved (offset + index) (by omega)
    rw [List.length_nil, Nat.zero_add, if_pos (by omega), overlaid, if_pos (by omega),
      Nat.add_sub_cancel_left] at view
    exact view
  have idle := Ring.takeRun_of_gap delivers.gap
  rw [accept, capacity_eq, written, idle]
  simp only [List.length_nil, SeqNum.advance_zero]

theorem receive_again_of_idle {seq : SeqNum} {payload : Bytes} {arrival : Arrival}
    (received : window.receive seq payload = .ok (arrival, rest)) (idle : arrival.delivered = []) :
    rest.receive seq payload = .ok (arrival, rest) := by
  rcases receive_cases received with
      ⟨-, rfl⟩ | ⟨offset, skipped, inside, -, -, accepted⟩
  · exact received
  obtain ⟨run, rest', accepted', delivers⟩ := window.accept_eq (payload.drop skipped) inside
  obtain ⟨rfl, rfl⟩ := Prod.mk.inj (accepted'.symm.trans accepted)
  obtain rfl : run = [] := idle
  have next_eq : rest'.next = window.next := delivers.next_eq.trans (SeqNum.advance_zero _)
  rw [receive] at received ⊢
  obtain ⟨length, counted, taken⟩ := Fault.exists_of_bind_eq_ok received
  rw [counted, next_eq, delivers.capacity_eq]
  simp only [bind, Except.bind]
  split at taken
  next => cases taken
  next fresh =>
  rw [if_neg fresh]
  split at taken
  next old =>
    rw [if_pos old]
    split at taken
    next => cases taken
    next long =>
      rw [if_neg long]
      exact congrArg Except.ok (accept_again (Nat.zero_le _) (Except.ok.inj taken))
  next ahead =>
  rw [if_neg ahead]
  split at taken
  next => cases taken
  next within =>
    rw [if_neg within]
    exact congrArg Except.ok (accept_again (Nat.le_of_not_lt within) (Except.ok.inj taken))

/-- A payload with a given end reaches at most to the end of a window. -/
def Spans (window : ReceiveWindow) (finish : SeqNum) : Prop :=
  finish.AtOrBefore window.next ∨ finish.since window.next ≤ window.capacity

theorem Delivers.length_le_run {payload run : Bytes}
    (delivers : window.Delivers 0 payload run rest) (fits : payload.length ≤ window.capacity) :
    payload.length ≤ run.length := by
  refine Nat.le_of_not_lt fun short => ?_
  have gap := delivers.stopped (by omega)
  rw [overlaid, if_pos (by omega), List.getElem?_eq_none_iff] at gap
  omega

theorem Spans.stale_of_receive {seq : SeqNum} {payload : Bytes} {arrival : Arrival}
    (spans : window.Spans (seq.advance payload.length)) (gap : window.buffered 0 = none)
    (small : window.capacity < 2147483648)
    (received : window.receive seq payload = .ok (arrival, rest))
    (delivered : arrival.delivered ≠ []) : (seq.advance payload.length).AtOrBefore rest.next := by
  have counted := length_lt_of_receive received
  have fresh : ¬ (seq.advance payload.length).AtOrBefore window.next := by
    intro stale
    have idle := (receive_of_stale counted stale).symm.trans received
    obtain ⟨rfl, -⟩ := Prod.mk.inj (Except.ok.inj idle)
    exact delivered rfl
  have within := spans.resolve_left fresh
  rcases receive_cases received with
      ⟨nothing, -⟩ | ⟨offset, skipped, inside, skipped_le, skipped_eq, accepted⟩
  · exact absurd nothing delivered
  obtain ⟨run, rest', accepted', delivers⟩ := window.accept_eq (payload.drop skipped) inside
  obtain ⟨rfl, rfl⟩ := Prod.mk.inj (accepted'.symm.trans accepted)
  obtain ⟨rfl, -⟩ := delivers.starts gap delivered
  have next_eq := SeqNum.advance_since seq window.next
  rw [← skipped_eq rfl] at next_eq
  have finish_eq : seq.advance payload.length = window.next.advance (payload.length - skipped) := by
    rw [← next_eq, SeqNum.advance_advance, Nat.add_sub_cancel' skipped_le]
  have length_le := delivers.length_le
  simp only [UInt32.size] at counted
  rw [finish_eq] at within ⊢
  have distance := SeqNum.since_advance window.next (Nat.zero_le (payload.length - skipped))
    (by omega)
  rw [SeqNum.advance_zero, Nat.sub_zero] at distance
  rw [distance] at within
  have covered := delivers.length_le_run (List.length_take_le _ _)
  rw [Nat.sub_zero, List.length_take, List.length_drop] at covered
  rw [delivers.next_eq, SeqNum.atOrBefore_advance_iff _ (by omega) (by omega)]
  omega

/-- A payload that reaches at most to the end of the window and arrives once more changes nothing and
brings nothing. -/
theorem Spans.receive_again {seq : SeqNum} {payload : Bytes} {arrival : Arrival}
    (spans : window.Spans (seq.advance payload.length)) (gap : window.buffered 0 = none)
    (small : window.capacity < 2147483648)
    (received : window.receive seq payload = .ok (arrival, rest)) :
    ∃ again, rest.receive seq payload = .ok (again, rest) ∧ again.delivered = [] ∧
      (again = .outOfWindow ↔ arrival = .outOfWindow) := by
  by_cases idle : arrival.delivered = []
  · exact ⟨arrival, receive_again_of_idle received idle, idle, Iff.rfl⟩
  · have stale := spans.stale_of_receive gap small received idle
    refine ⟨.stale, receive_of_stale (length_lt_of_receive received) stale, rfl, by simp, ?_⟩
    rintro rfl
    exact absurd rfl idle

end ReceiveWindow
end ReliableTransport
