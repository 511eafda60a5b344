import Mathlib.Data.List.ReduceOption
import Mathlib.Data.List.TakeWhile
import ReliableTransport.Proofs.ReceiveWindow

/-!
# Windows without a ring

A window is seen as a list of cells behind the next expected position.  A payload is laid over the
cells by its signed distance from this position, the longest run at their start is delivered, and
the other cells move down.  A window does the same on its ring without moving anything, whatever the
place of its head.
-/

namespace ReliableTransport

/-- A window as the cells behind the next expected position, each with a byte or nothing. -/
structure FlatWindow where
  /-- The next expected position. -/
  next : SeqNum
  /-- Bytes by their offset behind the next expected position. -/
  cells : List (Option UInt8)
  deriving DecidableEq, Repr

/-- Something that can happen to a window. -/
inductive Feed where
  /-- The window moves to a position. -/
  | synchronize (next : SeqNum)
  /-- The sequence number of a control flag is consumed. -/
  | consumeFlag
  /-- A payload arrives. -/
  | receive (seq : SeqNum) (payload : Bytes)
  deriving DecidableEq, Repr

namespace FlatWindow

/-- A window without bytes in front of a position. -/
def vacate (window : FlatWindow) (next : SeqNum) : FlatWindow where
  next := next
  cells := List.replicate window.cells.length none

/-- Some cells with a payload laid over them, whose first byte is at a distance from the first cell
that is negative if it is behind. -/
def overlay (cells : List (Option UInt8)) (distance : Int) (payload : Bytes) :
    List (Option UInt8) :=
  cells.mapIdx fun offset cell =>
    if distance ≤ offset ∧ offset < distance + payload.length then
      payload[(offset - distance).toNat]?
    else cell

/-- The longest run of bytes at the start of some cells. -/
def run (cells : List (Option UInt8)) : Bytes :=
  (cells.takeWhile (·.isSome)).reduceOption

/-- The cells behind some of them, which leave as many empty ones at the end. -/
def slide (cells : List (Option UInt8)) (count : Nat) : List (Option UInt8) :=
  cells.drop count ++ List.replicate count none

/-- Take an arriving payload. -/
def receive (window : FlatWindow) (seq : SeqNum) (payload : Bytes) : Arrival × FlatWindow :=
  let distance := seq.aheadOf window.next
  if distance + payload.length ≤ 0 then (.stale, window)
  else if window.cells.length < distance then (.outOfWindow, window)
  else
    let filled := overlay window.cells distance payload
    let delivered := run filled
    (.accepted delivered,
      { next := window.next.advance delivered.length
        cells := slide filled delivered.length })

/-- Something happens.  The result includes what became of a payload. -/
def feed (window : FlatWindow) : Feed → List Arrival × FlatWindow
  | .synchronize next => ([], window.vacate next)
  | .consumeFlag => ([], window.vacate (window.next.advance 1))
  | .receive seq payload => ([(window.receive seq payload).1], (window.receive seq payload).2)

/-- Things happen in order. -/
def feedAll : FlatWindow → List Feed → List Arrival × FlatWindow
  | window, [] => ([], window)
  | window, feed :: feeds =>
      let (arrivals, window) := window.feed feed
      let (later, window) := window.feedAll feeds
      (arrivals ++ later, window)

/-- A payload has bytes, which 32 bits can count and half of the space can hold behind a
position. -/
def Near (next seq : SeqNum) (payload : Bytes) : Prop :=
  payload ≠ [] ∧ payload.length < UInt32.size ∧
    seq.aheadOf next + payload.length ≤ 2147483648

instance (next seq : SeqNum) (payload : Bytes) : Decidable (Near next seq payload) :=
  inferInstanceAs (Decidable (_ ∧ _))

/-- Every payload is near the position that is expected next when it arrives. -/
def Meets : FlatWindow → List Feed → Prop
  | _, [] => True
  | window, feed :: feeds =>
      (∀ seq payload, feed = .receive seq payload → Near window.next seq payload) ∧
        (window.feed feed).2.Meets feeds

theorem run_eq {cells : List (Option UInt8)} {bytes : Bytes}
    (taken : ∀ offset, offset < bytes.length → cells[offset]? = some bytes[offset]?)
    (stopped : ∀ cell, cells[bytes.length]? = some cell → cell = none) : run cells = bytes := by
  have front : cells.take bytes.length = bytes.map some := by
    apply List.ext_getElem?
    intro offset
    rcases Nat.lt_or_ge offset bytes.length with inside | outside
    · rw [List.getElem?_take_of_lt inside, taken offset inside, List.getElem?_map,
        List.getElem?_eq_getElem inside]
      rfl
    · rw [List.getElem?_take_eq_none outside, List.getElem?_eq_none (by simpa using outside)]
  have back : (cells.drop bytes.length).takeWhile (·.isSome) = [] := by
    rw [List.takeWhile_eq_nil_iff]
    intro nonempty
    rw [stopped ((cells.drop bytes.length).get ⟨0, nonempty⟩) (by simp at nonempty ⊢)]
    simp
  rw [run, ← List.take_append_drop bytes.length cells, front,
    List.takeWhile_append_of_pos (by simp), back, List.append_nil]
  simp [List.reduceOption]

end FlatWindow

namespace ReceiveWindow

/-- The buffered bytes of a window one after the other. -/
def flat (window : ReceiveWindow) : FlatWindow where
  next := window.next
  cells := (List.range window.capacity).map window.buffered

/-- Something happens.  The result includes what became of a payload. -/
def feed (window : ReceiveWindow) : Feed → Except Fault (List Arrival × ReceiveWindow)
  | .synchronize next => .ok ([], window.synchronize next)
  | .consumeFlag => .ok ([], window.consumeFlag)
  | .receive seq payload => do
      let (arrival, window) ← window.receive seq payload
      return ([arrival], window)

/-- Things happen in order. -/
def feedAll : ReceiveWindow → List Feed → Except Fault (List Arrival × ReceiveWindow)
  | window, [] => .ok ([], window)
  | window, feed :: feeds => do
      let (arrivals, window) ← window.feed feed
      let (later, window) ← window.feedAll feeds
      return (arrivals ++ later, window)

variable {window : ReceiveWindow}

@[simp]
theorem length_flat (window : ReceiveWindow) : window.flat.cells.length = window.capacity := by
  simp [flat]

theorem getElem?_flat (window : ReceiveWindow) (offset : Nat) :
    window.flat.cells[offset]? =
      if offset < window.capacity then some (window.buffered offset) else none := by
  rw [flat, List.getElem?_map]
  split
  · next inside => rw [List.getElem?_range inside, Option.map_some]
  · next outside => rw [List.getElem?_eq_none (by simpa using outside), Option.map_none]

theorem flat_eq {next : SeqNum} {cells : List (Option UInt8)} (next_eq : window.next = next)
    (length_eq : cells.length = window.capacity)
    (cells_eq : ∀ offset, offset < window.capacity →
      cells[offset]? = some (window.buffered offset)) : window.flat = ⟨next, cells⟩ := by
  refine congrArg₂ FlatWindow.mk next_eq (List.ext_getElem? fun offset => ?_)
  change window.flat.cells[offset]? = _
  rw [getElem?_flat]
  split
  · next inside => exact (cells_eq offset inside).symm
  · next outside => exact (List.getElem?_eq_none (by omega)).symm

theorem flat_synchronize (window : ReceiveWindow) (next : SeqNum) :
    (window.synchronize next).flat = window.flat.vacate next := by
  apply flat_eq
  · rfl
  · rw [List.length_replicate, length_flat, capacity_synchronize]
  · intro offset inside
    rw [List.getElem?_replicate_of_lt (by simpa using inside), buffered_synchronize]

theorem flat_consumeFlag (window : ReceiveWindow) :
    window.consumeFlag.flat = window.flat.vacate (window.next.advance 1) := by
  apply flat_eq
  · rfl
  · rw [List.length_replicate, length_flat, capacity_consumeFlag]
  · intro offset inside
    rw [List.getElem?_replicate_of_lt (by simpa using inside), buffered_consumeFlag]

theorem getElem?_overlay_flat (window : ReceiveWindow) (payload : Bytes) {offset skipped : Nat}
    {distance : Int} (distance_eq : distance = offset - skipped)
    (aligned : offset = 0 ∨ skipped = 0) {probe : Nat} (probe_lt : probe < window.capacity) :
    (FlatWindow.overlay window.flat.cells distance payload)[probe]? =
      some (window.overlaid offset ((payload.drop skipped).take (window.capacity - offset))
        probe) := by
  rw [FlatWindow.overlay, List.getElem?_mapIdx, getElem?_flat, if_pos probe_lt, Option.map_some,
    overlaid, List.length_take, List.length_drop]
  congr 1
  by_cases covered : distance ≤ probe ∧ probe < distance + payload.length
  · rw [if_pos covered, if_pos (by omega), List.getElem?_take_of_lt (by omega), List.getElem?_drop]
    congr 1
    omega
  · rw [if_neg covered, if_neg (by omega)]

/-- The run at the start of the overlaid cells is delivered, and the cells move down by it. -/
theorem flat_accept (window : ReceiveWindow) (payload : Bytes) {offset skipped : Nat}
    {distance : Int} (distance_eq : distance = offset - skipped)
    (aligned : offset = 0 ∨ skipped = 0) (inside : offset ≤ window.capacity)
    {filled : List (Option UInt8)}
    (filled_eq : FlatWindow.overlay window.flat.cells distance payload = filled) :
    (window.accept offset (payload.drop skipped)).map id flat =
      (.accepted (FlatWindow.run filled),
        { next := window.next.advance (FlatWindow.run filled).length
          cells := FlatWindow.slide filled (FlatWindow.run filled).length }) := by
  obtain ⟨run, rest, accepted, delivers⟩ := window.accept_eq (payload.drop skipped) inside
  have length_le := delivers.length_le
  have length_eq : filled.length = window.capacity := by
    rw [← filled_eq, FlatWindow.overlay, List.length_mapIdx, length_flat]
  have view (probe : Nat) (probe_lt : probe < window.capacity) :=
    filled_eq ▸ window.getElem?_overlay_flat payload distance_eq aligned probe_lt
  have run_eq : FlatWindow.run filled = run := by
    apply FlatWindow.run_eq
    · intro probe probe_lt
      rw [view probe (by omega), delivers.taken probe probe_lt]
    · intro cell cell_eq
      rcases Nat.lt_or_ge run.length window.capacity with below | full
      · rw [view run.length below, delivers.stopped below] at cell_eq
        exact (Option.some.inj cell_eq).symm
      · rw [List.getElem?_eq_none (by omega)] at cell_eq
        cases cell_eq
  rw [accepted, run_eq]
  refine congrArg (Prod.mk (Arrival.accepted run)) (flat_eq delivers.next_eq ?_ ?_)
  · rw [FlatWindow.slide, List.length_append, List.length_drop, List.length_replicate, length_eq,
      delivers.capacity_eq]
    omega
  · intro probe probe_lt
    rw [delivers.capacity_eq] at probe_lt
    rw [delivers.moved probe probe_lt, FlatWindow.slide]
    split
    · next within =>
        rw [List.getElem?_append_left (by rw [List.length_drop]; omega), List.getElem?_drop,
          view _ within]
    · next beyond =>
        rw [List.getElem?_append_right (by rw [List.length_drop]; omega), List.length_drop,
          List.getElem?_replicate_of_lt (by omega)]

theorem receive_aheadOf (window : ReceiveWindow) (seq : SeqNum) {payload : Bytes}
    (payload_ne : payload ≠ [])
    (near : seq.aheadOf window.next + payload.length ≤ 2147483648) :
    window.receive seq payload = (countWord payload.length).map fun _ =>
      if seq.aheadOf window.next + payload.length ≤ 0 then (.stale, window)
      else if seq.aheadOf window.next < 0 then
        window.accept 0 (payload.drop (-seq.aheadOf window.next).toNat)
      else if window.capacity < seq.aheadOf window.next then (.outOfWindow, window)
      else window.accept (seq.aheadOf window.next).toNat payload := by
  have stale_iff := SeqNum.advance_atOrBefore_iff (List.length_pos_iff.mpr payload_ne) near
  have before_iff := seq.before_iff_aheadOf window.next
  rw [receive, countWord]
  split
  · simp only [bind, Except.bind, stale_iff, before_iff, Except.map]
    split
    · rfl
    next fresh =>
    split
    next behind =>
      rw [SeqNum.since_of_aheadOf_neg behind, if_neg (by omega)]
    next ahead =>
      rw [SeqNum.since_of_aheadOf_nonneg (Int.not_lt.mp ahead)]
      split
      · rw [if_pos (by omega)]
      · rw [if_neg (by omega)]
  · rfl

/-- A payload does to a window what it does to its cells, provided that 32 bits can count it. -/
theorem flat_receive (window : ReceiveWindow) (seq : SeqNum) {payload : Bytes}
    (payload_ne : payload ≠ [])
    (near : seq.aheadOf window.next + payload.length ≤ 2147483648) :
    (window.receive seq payload).map (Prod.map id flat) =
      (countWord payload.length).map fun _ => window.flat.receive seq payload := by
  rw [window.receive_aheadOf seq payload_ne near, FlatWindow.receive, length_flat]
  cases countWord payload.length with
  | error fault => rfl
  | ok length =>
      refine congrArg Except.ok ?_
      simp only [show window.flat.next = window.next from rfl]
      by_cases stale : seq.aheadOf window.next + payload.length ≤ 0
      · rw [if_pos stale, if_pos stale]
        rfl
      rw [if_neg stale, if_neg stale]
      by_cases behind : seq.aheadOf window.next < 0
      · rw [if_pos behind, if_neg (by omega)]
        exact window.flat_accept payload (by omega) (Or.inl rfl) (Nat.zero_le _) rfl
      rw [if_neg behind]
      by_cases beyond : window.capacity < seq.aheadOf window.next
      · rw [if_pos beyond, if_pos beyond]
        rfl
      · rw [if_neg beyond, if_neg beyond]
        exact window.flat_accept payload (by omega) (Or.inr rfl) (by omega) rfl

theorem flat_feed (window : ReceiveWindow) {feed : Feed}
    (near : ∀ seq payload, feed = .receive seq payload →
      FlatWindow.Near window.next seq payload) :
    (window.feed feed).map (Prod.map id flat) = .ok (window.flat.feed feed) := by
  cases feed with
  | synchronize next =>
      exact congrArg (fun flat => Except.ok ([], flat)) (window.flat_synchronize next)
  | consumeFlag => exact congrArg (fun flat => Except.ok ([], flat)) window.flat_consumeFlag
  | receive seq payload =>
      obtain ⟨payload_ne, counted, near⟩ := near seq payload rfl
      have received := window.flat_receive seq payload_ne near
      rw [countWord, if_pos counted] at received
      obtain ⟨⟨arrival, rest⟩, taken, received⟩ := Fault.exists_of_map_eq_ok received
      have received : (arrival, rest.flat) = window.flat.receive seq payload := received
      rw [feed, taken, FlatWindow.feed, ← received]
      rfl

theorem flat_feedAll (window : ReceiveWindow) {feeds : List Feed}
    (meets : window.flat.Meets feeds) :
    (window.feedAll feeds).map (Prod.map id flat) = .ok (window.flat.feedAll feeds) := by
  induction feeds generalizing window with
  | nil => rfl
  | cons feed feeds ih =>
      obtain ⟨near, meets⟩ := meets
      obtain ⟨⟨arrivals, middle⟩, done, fed⟩ := Fault.exists_of_map_eq_ok (window.flat_feed near)
      rw [← fed] at meets
      obtain ⟨⟨later, rest⟩, done', ended⟩ := Fault.exists_of_map_eq_ok (ih middle meets)
      have flat_done : window.flat.feedAll (feed :: feeds) = (arrivals ++ later, rest.flat) := by
        rw [FlatWindow.feedAll, ← fed]
        change (arrivals ++ (middle.flat.feedAll feeds).1, (middle.flat.feedAll feeds).2) = _
        rw [← ended]
        rfl
      rw [feedAll, done, flat_done]
      simp only [bind, Except.bind, done']
      rfl

theorem receive_of_uncounted (window : ReceiveWindow) (seq : SeqNum) {payload : Bytes}
    (full : UInt32.size ≤ payload.length) : window.receive seq payload = .error .count := by
  rw [receive, countWord, if_neg (Nat.not_lt.mpr full)]
  rfl

/-- A window does with its ring what its cells do without one.  Of the payloads that end within half
of the space, only those of `2 ^ 32` bytes are not counted. -/
theorem refines_flat (window : ReceiveWindow) :
    (∀ next, (window.synchronize next).flat = window.flat.vacate next) ∧
      window.consumeFlag.flat = window.flat.vacate (window.next.advance 1) ∧
      ∀ (seq : SeqNum) (payload : Bytes), payload ≠ [] →
        seq.aheadOf window.next + payload.length ≤ 2147483648 →
        (payload.length ≠ 4294967296 →
          (window.receive seq payload).map (Prod.map id flat) =
            .ok (window.flat.receive seq payload)) ∧
          (payload.length = 4294967296 → window.receive seq payload = .error .count) := by
  refine ⟨window.flat_synchronize, window.flat_consumeFlag, fun seq payload payload_ne near => ?_⟩
  refine ⟨fun counted => ?_, fun full => window.receive_of_uncounted seq (Nat.le_of_eq full.symm)⟩
  have least : -2147483648 ≤ seq.aheadOf window.next := Int.le_bmod (by decide)
  have counted : payload.length < UInt32.size := by
    simp only [UInt32.size]
    omega
  have received := window.flat_receive seq payload_ne near
  rwa [countWord, if_pos counted] at received

/-- Behind a wrapped head, a payload that is old in part closes the gap before a buffered byte. -/
theorem refines_flat_wrapping :
    ∃ window : ReceiveWindow, window.ring.head = 3 ∧
      window.flat = ⟨⟨1⟩, [none, none, some 16, none]⟩ ∧
      (window.receive ⟨0⟩ [13, 14, 15]).map (Prod.map id flat) =
        .ok (.accepted [14, 15, 16], ⟨⟨4⟩, [none, none, none, none]⟩) := by
  have reached : ∃ window : ReceiveWindow, window.ring.head = 3 ∧
      window.flat = ⟨⟨1⟩, [none, none, some 16, none]⟩ :=
    ⟨(((ReceiveWindow.mk ⟨4294967294⟩ (Ring.empty 4 (by decide))).accept 0 [11, 12, 13]).2.accept 2
      [16]).2, by decide, by decide⟩
  obtain ⟨window, wrapped, cells_eq⟩ := reached
  have next_eq : window.next = ⟨1⟩ := congrArg FlatWindow.next cells_eq
  obtain ⟨-, -, receives⟩ := window.refines_flat
  have received := (receives ⟨0⟩ [13, 14, 15] (by decide)
    (by rw [next_eq]; decide +kernel)).1 (by decide)
  have flat_received : FlatWindow.receive ⟨⟨1⟩, [none, none, some 16, none]⟩ ⟨0⟩ [13, 14, 15] =
      (.accepted [14, 15, 16], ⟨⟨4⟩, [none, none, none, none]⟩) := by decide +kernel
  rw [cells_eq, flat_received] at received
  exact ⟨window, wrapped, cells_eq, received⟩

theorem receive_of_full {payload : Bytes} (full : payload.length = 4294967296)
    (same : ∀ byte ∈ payload, byte = 5) :
    ∃ window, create 4 ⟨0⟩ = .ok window ∧ payload ≠ [] ∧
      (⟨2147483648⟩ : SeqNum).aheadOf window.next + payload.length ≤ 2147483648 ∧
      (window.flat.receive ⟨2147483648⟩ payload).1 = .accepted [5, 5, 5, 5] ∧
      window.receive ⟨2147483648⟩ payload = .error .count := by
  have ahead_eq : (⟨2147483648⟩ : SeqNum).aheadOf ⟨0⟩ = -2147483648 := by decide
  have byte_eq (index : Nat) (inside : index < payload.length) : payload[index] = 5 :=
    same _ (List.getElem_mem inside)
  have overlay_eq : FlatWindow.overlay (List.replicate 4 none) (-2147483648) payload =
      List.replicate 4 (some 5) := by
    refine List.eq_replicate_iff.mpr ⟨by simp [FlatWindow.overlay], fun cell mem => ?_⟩
    obtain ⟨offset, inside, rfl⟩ := List.mem_mapIdx.mp mem
    rw [List.length_replicate] at inside
    have index_lt : ((offset : Int) - -2147483648).toNat < payload.length := by omega
    rw [if_pos (by omega), List.getElem?_eq_getElem index_lt, byte_eq _ index_lt]
  have flat_eq : flat ⟨⟨0⟩, Ring.empty 4 (by decide)⟩ = ⟨⟨0⟩, List.replicate 4 none⟩ := by decide
  refine ⟨⟨⟨0⟩, Ring.empty 4 (by decide)⟩, rfl, ?_, ?_, ?_, ?_⟩
  · exact List.ne_nil_of_length_pos (by rw [full]; decide)
  · simp only [ahead_eq, full]
    decide
  · rw [flat_eq, FlatWindow.receive, ahead_eq, full, if_neg (by decide), if_neg (by decide),
      overlay_eq]
    rfl
  · exact receive_of_uncounted _ _ (Nat.le_of_eq full.symm)

/-- A payload of `2 ^ 32` bytes is not taken. -/
theorem not_refines_flat_full :
    ∃ window, create 4 ⟨0⟩ = .ok window ∧ List.replicate 4294967296 (5 : UInt8) ≠ [] ∧
      (⟨2147483648⟩ : SeqNum).aheadOf window.next +
        (List.replicate 4294967296 (5 : UInt8)).length ≤ 2147483648 ∧
      (window.flat.receive ⟨2147483648⟩ (List.replicate 4294967296 5)).1 =
        .accepted [5, 5, 5, 5] ∧
      window.receive ⟨2147483648⟩ (List.replicate 4294967296 5) = .error .count :=
  receive_of_full List.length_replicate fun _ => List.eq_of_mem_replicate

end ReceiveWindow
end ReliableTransport
