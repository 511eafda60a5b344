import Mathlib.Algebra.BigOperators.Group.Multiset.Basic
import Mathlib.Algebra.Order.BigOperators.Group.Multiset
import Mathlib.Algebra.Order.Ring.Nat
import ReliableTransport.Proofs.Connection.Replies
import ReliableTransport.Proofs.Network.Preservation

/-!
# Exchanges of segments die out

Two connections that do nothing but take the segments in flight and answer them come to an end.  An
answer weighs less than what it answers.  The one exception is the answer to a SYN, for which a
connection leaves its closed phase and never comes back.
-/

namespace ReliableTransport

open Fault

/-- What the delivery of a byte string can cost: itself, and the answer to what occupies sequence
numbers. -/
def Bytes.cost (raw : Bytes) : Nat :=
  1 + raw.occupies.toNat

/-- A closed connection can answer a SYN by a segment that will be answered itself. -/
def Phase.credit (phase : Phase) : Nat :=
  if phase = .closed then 1 else 0

namespace Connection

variable {connection after : Connection} {raw : Bytes} {now : Nat}

theorem credit_of_receive (received : connection.receive raw now = .ok after) :
    after.phase.credit ≤ connection.phase.credit := by
  by_cases closed : after.phase = .closed
  · rcases receive_phase received with same | moved
    · rw [same]
    · rw [closed] at moved
      exact absurd moved ((Operation.receive raw).closed_not_mem_leads connection.phase)
  · rw [Phase.credit, if_neg closed]
    exact Nat.zero_le _

theorem cost_of_receive (received : connection.receive raw now = .ok after) {answers : List Bytes}
    (answered : after.outbox = connection.outbox ++ answers) :
    (answers.map Bytes.cost).sum + after.phase.credit < raw.cost + connection.phase.credit := by
  have credit_le := credit_of_receive received
  cases receive_replies received with
  | silence same =>
      obtain rfl : answers = [] := by simpa [answered] using same
      rw [List.map_nil, List.sum_nil, Bytes.cost]
      omega
  | greeting closed _ decoded plain opened greeted =>
      obtain rfl := List.append_cancel_left (answered.symm.trans greeted)
      have syn : raw.occupies = true :=
        (Segment.occupies_of_decode decoded).trans (Segment.occupies_of_syn (by rw [plain]))
      have answer : ((Cargo.syn true).encode connection.sendNext after.recvNext
          connection.config.receiveWindow).occupies = true :=
        Segment.occupies_of_decode (Cargo.decode_encode _ _ _ _)
      simp [Bytes.cost, syn, answer, Phase.credit, closed, opened]
  | acknowledgment occupies echoed =>
      obtain rfl := List.append_cancel_left (answered.symm.trans echoed)
      have answer : after.acknowledgment.occupies = false :=
        Segment.occupies_acknowledgment _ _ _
      simp only [List.map_cons, List.map_nil, List.sum_singleton, Bytes.cost, occupies, answer,
        Bool.toNat_true, Bool.toNat_false]
      omega

end Connection

/-- Two connections and the byte strings in flight to each of them. -/
structure Traffic where
  /-- The connection of each end. -/
  connections : Side → Connection
  /-- What is in flight, and to which end. -/
  flight : Multiset (Side × Bytes)

namespace Traffic

/-- Something in flight is taken by the end that it goes to, and the answers are in flight to the
other end. -/
inductive Delivers (before : Traffic) : Traffic → Prop
  /-- It arrives at some time. -/
  | deliver (side : Side) (raw : Bytes) (now : Nat) (answers : List Bytes)
      {connection : Connection} : (side, raw) ∈ before.flight →
      (before.connections side).receive raw now = .ok connection →
      connection.outbox = (before.connections side).outbox ++ answers →
      Delivers before
        { connections := Function.update before.connections side connection
          flight := before.flight.erase (side, raw) + answers.map (side.other, ·) }

/-- A number of deliveries, one after the other. -/
inductive Deliveries (start : Traffic) : Nat → Traffic → Prop
  /-- Nothing is delivered. -/
  | none : Deliveries start 0 start
  /-- One more is delivered. -/
  | more {count : Nat} {middle last : Traffic} : Deliveries start count middle →
      middle.Delivers last → Deliveries start (count + 1) last

/-- What all deliveries to come can cost. -/
def cost (traffic : Traffic) : Nat :=
  (traffic.flight.map (·.2.cost)).sum + (traffic.connections .first).phase.credit +
    (traffic.connections .second).phase.credit

variable {traffic middle last : Traffic}

theorem cost_le (traffic : Traffic) : traffic.cost ≤ 2 * traffic.flight.card + 2 := by
  have credit_le (side : Side) : (traffic.connections side).phase.credit ≤ 1 := by
    rw [Phase.credit]
    split <;> simp
  have flight_le := Multiset.sum_le_card_nsmul (traffic.flight.map (·.2.cost)) 2 fun cost mem => by
    obtain ⟨⟨side, raw⟩, -, rfl⟩ := Multiset.mem_map.mp mem
    have answer_le := raw.occupies.toNat_le
    simp only [Bytes.cost]
    omega
  rw [Multiset.card_map, Nat.nsmul_eq_mul] at flight_le
  have first_le := credit_le .first
  have second_le := credit_le .second
  rw [cost]
  omega

theorem Delivers.cost_lt (delivers : traffic.Delivers last) : last.cost < traffic.cost := by
  cases delivers with
  | deliver side raw now answers mem received answered =>
      have paid := Connection.cost_of_receive received answered
      have taken := Multiset.sum_map_erase (f := (·.2.cost)) mem
      have sent :
          ((answers.map (side.other, ·) : Multiset (Side × Bytes)).map (·.2.cost)).sum =
            (answers.map Bytes.cost).sum := by
        simp [Function.comp_def]
      rw [cost, cost, Multiset.map_add, Multiset.sum_add, sent, ← taken]
      cases side <;>
      · simp only [Function.update_self, ne_eq, reduceCtorEq, not_false_eq_true,
          Function.update_of_ne]
        omega

/-- What was delivered and what is to come cost no more than what was to come at first. -/
theorem Deliveries.count_add_cost_le {count : Nat} (deliveries : Deliveries traffic count last) :
    count + last.cost ≤ traffic.cost := by
  induction deliveries with
  | none => exact (Nat.zero_add _).le
  | more _ delivers ih =>
      have spent := delivers.cost_lt
      omega

/-- A segment is answered by one other at most, and by none if it occupies no sequence numbers.  So
whatever is in flight between two connections, the exchange comes to an end. -/
theorem exchanges_die_out :
    (∀ (connection after : Connection) (raw : Bytes) (now : Nat),
      connection.receive raw now = .ok after →
      connection.Replies raw after ∧
        (raw.occupies = false → after.outbox = connection.outbox)) ∧
    ∀ (traffic last : Traffic) (count : Nat), Deliveries traffic count last →
      count ≤ 2 * traffic.flight.card + 2 := by
  refine ⟨fun connection after raw now received => ?_, fun traffic last count deliveries => ?_⟩
  · have replies := Connection.receive_replies received
    exact ⟨replies, replies.outbox_eq⟩
  · have spent := deliveries.count_add_cost_le
    have bound := traffic.cost_le
    omega

/-- A SYN in flight to a listening end makes two ends agree, and nothing more comes of it. -/
theorem exchanges_die_out_handshake :
    ∃ start last : Traffic, Deliveries start 3 last ∧ last.flight = 0 ∧
      (last.connections .first).phase = .established ∧
      (last.connections .second).phase = .established ∧ 3 ≤ 2 * start.flight.card + 2 := by
  have ran : ∃ opener listener welcoming agreed settled : Connection,
      (Connection.create Network.narrow ⟨4⟩).bind (·.openActive 0) = .ok opener ∧
      (Connection.create Network.narrow ⟨7⟩).map Connection.listen = .ok listener ∧
      listener.receive ((Cargo.syn false).encode ⟨4⟩ ⟨0⟩ 4) 1 = .ok welcoming ∧
      welcoming.outbox = listener.outbox ++ [(Cargo.syn true).encode ⟨7⟩ ⟨5⟩ 4] ∧
      opener.receive ((Cargo.syn true).encode ⟨7⟩ ⟨5⟩ 4) 2 = .ok agreed ∧
      agreed.outbox = opener.outbox ++ [Segment.acknowledgment ⟨5⟩ ⟨8⟩ 4] ∧
      agreed.phase = .established ∧
      welcoming.receive (Segment.acknowledgment ⟨5⟩ ⟨8⟩ 4) 3 = .ok settled ∧
      settled.phase = .established ∧ settled.outbox = welcoming.outbox ++ [] :=
    ⟨_, _, _, _, _, rfl, rfl, rfl, rfl, rfl, rfl, rfl, rfl, rfl, rfl⟩
  obtain ⟨opener, listener, welcoming, agreed, settled, -, -, heard, welcomed, answered, agrees,
    established, confirmed, completed, silent⟩ := ran
  let start : Traffic :=
    { connections := Function.update (fun _ => listener) .first opener
      flight := {(.second, (Cargo.syn false).encode ⟨4⟩ ⟨0⟩ 4)} }
  have first := (Deliveries.none : Deliveries start 0 start).more
    (.deliver .second _ 1 _ (Multiset.mem_singleton_self _) heard welcomed)
  have second := first.more (.deliver .first _ 2 _ (by simp [Side.other]) answered agrees)
  have deliveries := second.more (.deliver .second _ 3 _ (by simp [Side.other]) confirmed silent)
  exact ⟨start, _, deliveries, by simp [start, Side.other], established, completed,
    exchanges_die_out.2 _ _ 3 deliveries⟩

end Traffic
end ReliableTransport
