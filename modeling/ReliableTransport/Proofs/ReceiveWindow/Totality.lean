import ReliableTransport.Proofs.FlatWindow

/-!
# Payloads at any distance

The next expected byte of a window is always missing, because a run never stops in front of a
buffered byte.  A payload that 31 bits can count is therefore taken without a fault, whatever its
distance from the next expected position.  The two comparisons that decide its fate contradict each
other at half of the sequence space only, where an empty payload would have to give up bytes that it
does not have.
-/

namespace ReliableTransport
namespace ReceiveWindow

variable {capacity : Nat} {window rest : ReceiveWindow}

/-- A window keeps its capacity, and holds nothing at the next expected position. -/
structure Drained (capacity : Nat) (window : ReceiveWindow) : Prop where
  /-- The capacity stays. -/
  capacity_eq : window.capacity = capacity
  /-- The next expected byte is missing. -/
  gap : window.buffered 0 = none

namespace Drained

theorem create {next : SeqNum} (created : create capacity next = .ok window) :
    window.Drained capacity := by
  rw [ReceiveWindow.create] at created
  split at created
  next positive =>
    obtain rfl := Except.ok.inj created
    exact ⟨Ring.capacity_empty capacity positive, Ring.get?_empty capacity positive 0⟩
  next => cases created

theorem feed (drained : window.Drained capacity) {feed : Feed} {arrivals : List Arrival}
    (done : window.feed feed = .ok (arrivals, rest)) : rest.Drained capacity := by
  cases feed with
  | synchronize next =>
      obtain ⟨-, rfl⟩ := Prod.mk.inj (Except.ok.inj done)
      exact ⟨(capacity_synchronize window next).trans drained.capacity_eq,
        buffered_synchronize window next 0⟩
  | consumeFlag =>
      obtain ⟨-, rfl⟩ := Prod.mk.inj (Except.ok.inj done)
      exact ⟨(capacity_consumeFlag window).trans drained.capacity_eq,
        buffered_consumeFlag window 0⟩
  | receive seq payload =>
      obtain ⟨⟨arrival, after⟩, received, done⟩ := Fault.exists_of_bind_eq_ok done
      obtain ⟨-, rfl⟩ := Prod.mk.inj (Except.ok.inj done)
      have yields := receive_yields received
      exact ⟨yields.capacity_eq.trans drained.capacity_eq, yields.gap drained.gap⟩

theorem feedAll (drained : window.Drained capacity) {feeds : List Feed} {arrivals : List Arrival}
    (done : window.feedAll feeds = .ok (arrivals, rest)) : rest.Drained capacity := by
  induction feeds generalizing window arrivals with
  | nil =>
      obtain ⟨-, rfl⟩ := Prod.mk.inj (Except.ok.inj done)
      exact drained
  | cons feed feeds ih =>
      obtain ⟨⟨first, middle⟩, fed, done⟩ := Fault.exists_of_bind_eq_ok done
      obtain ⟨⟨later, last⟩, others, done⟩ := Fault.exists_of_bind_eq_ok done
      obtain ⟨-, rfl⟩ := Prod.mk.inj (Except.ok.inj done)
      exact ih (drained.feed fed) others

end Drained

/-- A state of a window that was created with some capacity, and to which anything happened. -/
def Arises (capacity : Nat) (window : ReceiveWindow) : Prop :=
  ∃ next created feeds arrivals, create capacity next = .ok created ∧
    created.feedAll feeds = .ok (arrivals, window)

theorem Arises.drained (arises : Arises capacity window) : window.Drained capacity := by
  obtain ⟨next, created, feeds, arrivals, done, fed⟩ := arises
  exact (Drained.create done).feedAll fed

theorem accept_nil (gap : window.buffered 0 = none) (offset : Nat) :
    window.accept offset [] = (.accepted [], window) := by
  rw [accept, List.take_nil, Ring.write, Ring.takeRun_of_gap gap]
  simp only [List.length_nil, SeqNum.advance_zero]

theorem receive_nil_antipode {seq : SeqNum} (antipode : seq.since window.next = 2147483648) :
    window.receive seq [] = .error .payloadPrefix := by
  obtain ⟨old, ahead⟩ := SeqNum.before_antipode antipode
  have fresh : ¬ seq.AtOrBefore window.next := not_not.mpr ahead
  have distance_pos : 0 < window.next.since seq := Nat.lt_of_lt_of_le (by decide) ahead
  rw [receive, countWord, if_pos (by decide)]
  simp only [bind, Except.bind, List.length_nil, SeqNum.advance_zero]
  rw [if_neg fresh, if_pos old, if_pos distance_pos]

theorem receive_nil (gap : window.buffered 0 = none) {seq : SeqNum}
    (apart : seq.since window.next ≠ 2147483648) :
    ∃ arrival, window.receive seq [] = .ok (arrival, window) ∧ arrival.delivered = [] := by
  rw [receive, countWord, if_pos (by decide)]
  simp only [bind, Except.bind, List.length_nil, SeqNum.advance_zero]
  split
  · exact ⟨_, rfl, rfl⟩
  next fresh =>
  rw [if_neg fun old => fresh (old.atOrBefore apart)]
  split
  · exact ⟨_, rfl, rfl⟩
  · rw [accept_nil gap]
    exact ⟨_, rfl, rfl⟩

/-- A payload that 31 bits can count is taken, unless it is empty and at half of the sequence
space. -/
theorem exists_receive (gap : window.buffered 0 = none) {seq : SeqNum} {payload : Bytes}
    (short : payload.length < 2147483648)
    (permitted : ¬ (payload = [] ∧ seq.since window.next = 2147483648)) :
    ∃ arrival rest, window.receive seq payload = .ok (arrival, rest) ∧
      (payload = [] → arrival.delivered = [] ∧ rest = window) := by
  by_cases empty : payload = []
  · obtain rfl := empty
    have apart := fun antipode => permitted ⟨rfl, antipode⟩
    obtain ⟨arrival, received, nothing⟩ := receive_nil gap apart
    exact ⟨arrival, window, received, fun _ => ⟨nothing, rfl⟩⟩
  · have ensures := window.receive_ensures seq empty
    cases received : window.receive seq payload with
    | ok result => exact ⟨result.1, result.2, rfl, fun nothing => absurd nothing empty⟩
    | error fault =>
        have uncounted := (ensures.of_error received).2
        simp only [UInt32.size] at uncounted
        omega

/-- A window takes every payload that 31 bits can count, at any distance from the next expected
position, but for an empty one at half of the sequence space. -/
theorem receive_total (arises : Arises capacity window) (seq : SeqNum) {payload : Bytes}
    (short : payload.length < 2147483648) :
    if payload = [] ∧ seq.since window.next = 2147483648 then
      window.receive seq payload = .error .payloadPrefix
    else
      ∃ arrival rest, window.receive seq payload = .ok (arrival, rest) ∧
        rest.capacity = capacity ∧ arrival.delivered.length ≤ capacity ∧
        ((arrival = .stale ∨ arrival = .outOfWindow) ∧ rest = window ∨
          window.skippedOf seq ≤ payload.length ∧ window.offsetOf seq ≤ capacity ∧
          (∀ index < min (payload.length - window.skippedOf seq) (capacity - window.offsetOf seq),
            window.offsetOf seq + index < capacity ∧
              window.ring.index (window.offsetOf seq + index) < capacity) ∧
          window.accept (window.offsetOf seq) (payload.drop (window.skippedOf seq)) =
            (arrival, rest)) ∧
        (payload = [] → arrival.delivered = [] ∧ rest = window) := by
  obtain ⟨rfl, gap⟩ := arises.drained
  split
  next refused =>
    obtain ⟨rfl, antipode⟩ := refused
    exact receive_nil_antipode antipode
  next permitted =>
    obtain ⟨arrival, rest, received, idle⟩ := exists_receive gap short permitted
    have yields := receive_yields received
    refine ⟨arrival, rest, received, yields.capacity_eq, yields.length_le, ?_, idle⟩
    refine (receive_placed received).imp_right fun ⟨inside, within, accepted⟩ => ?_
    exact ⟨within, inside, fun index index_lt => ⟨by omega, window.ring.index_lt _⟩, accepted⟩

/-- A payload is taken that is old in part and closes the gap in front of a buffered byte. -/
theorem receive_total_overlap :
    ∃ window : ReceiveWindow, Arises 4 window ∧ ([5, 6] : Bytes).length < 2147483648 ∧
      window.skippedOf ⟨4294967295⟩ = 1 ∧
      ∃ rest, window.receive ⟨4294967295⟩ [5, 6] = .ok (.accepted [6, 8], rest) ∧
        rest.capacity = 4 := by
  obtain ⟨window, arises, skipped, result, received, delivered⟩ :
      ∃ window, Arises 4 window ∧ window.skippedOf ⟨4294967295⟩ = 1 ∧
        ∃ result, window.receive ⟨4294967295⟩ [5, 6] = .ok result ∧ result.1 = .accepted [6, 8] :=
    ⟨_, ⟨⟨0⟩, _, [.receive ⟨1⟩ [8]], _, rfl, rfl⟩, rfl, _, rfl, rfl⟩
  have short : ([5, 6] : Bytes).length < 2147483648 := by decide
  have total := receive_total arises ⟨4294967295⟩ short
  rw [if_neg (by simp)] at total
  obtain ⟨arrival, rest, received', capacity_eq, -⟩ := total
  obtain rfl := Except.ok.inj (received.symm.trans received')
  obtain rfl : arrival = .accepted [6, 8] := delivered
  exact ⟨window, arises, short, skipped, rest, received, capacity_eq⟩

/-- An empty payload at half of the sequence space is refused by a window that arises. -/
theorem receive_refuses_antipode :
    ∃ window : ReceiveWindow, Arises 4 window ∧ ([] : Bytes).length < 2147483648 ∧
      ¬ ∃ arrival rest, window.receive ⟨2147483648⟩ [] = .ok (arrival, rest) := by
  refine ⟨_, ⟨⟨0⟩, _, [], _, rfl, rfl⟩, by decide, ?_⟩
  rintro ⟨arrival, rest, received⟩
  rw [receive_nil_antipode (by rfl)] at received
  cases received

end ReceiveWindow
end ReliableTransport
