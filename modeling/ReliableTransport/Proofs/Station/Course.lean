import Mathlib.Logic.Relation
import ReliableTransport.Proofs.Network.Delivery
import ReliableTransport.Proofs.Station.Basic

/-!
# What becomes of one end of a network

An end that takes only what the other one sent goes on by the moves of a network, and so the network
stays coherent.  An end that is over by an exchange with its peer has told of the end of the peer's
stream.
-/

namespace ReliableTransport

open Fault

namespace Station

variable {station after : Station} {incoming : List Bytes}

/-- Something happens at an end, where the other end sent some segments. -/
def Moves (incoming : List Bytes) (station after : Station) : Prop :=
  ∃ occurrence now, station.undergo occurrence now = .ok after ∧
    ∀ raw, occurrence = .operate (.receive raw) → raw ∈ incoming

/-- An end has gone on, where the other end sent some segments. -/
def Becomes (incoming : List Bytes) : Station → Station → Prop :=
  Relation.ReflTransGen (Moves incoming)

/-- An operation replaces the connection. -/
theorem exists_of_undergo_operate {operation : Connection.Operation} {now : Nat}
    (done : station.undergo (.operate operation) now = .ok after) :
    ∃ connection, station.connection.apply operation now = .ok connection ∧
      after = { station with
        connection
        taken := station.taken ++ station.connection.takenBy operation
        closing := station.closing || operation = .close } := by
  obtain ⟨connection, applied, done⟩ := exists_of_bind_eq_ok done
  exact ⟨connection, applied, (Except.ok.inj done).symm⟩

theorem taken_isPrefix_of_undergo {occurrence : Occurrence} {now : Nat}
    (done : station.undergo occurrence now = .ok after) : station.taken <+: after.taken := by
  cases occurrence with
  | operate operation =>
      obtain ⟨connection, -, rfl⟩ := exists_of_undergo_operate done
      exact List.prefix_append _ _
  | emit =>
      obtain rfl := Except.ok.inj done
      rw [emit]
      split <;> exact List.prefix_refl _
  | hear =>
      obtain rfl := Except.ok.inj done
      rw [hear]
      split <;> exact List.prefix_refl _

namespace Becomes

theorem refl (station : Station) : Becomes incoming station station :=
  Relation.ReflTransGen.refl

theorem trans {middle : Station} (first : Becomes incoming station middle)
    (second : Becomes incoming middle after) : Becomes incoming station after :=
  Relation.ReflTransGen.trans first second

theorem of_undergo (occurrence : Occurrence) (now : Nat)
    (done : station.undergo occurrence now = .ok after)
    (arrives : ∀ raw, occurrence = .operate (.receive raw) → raw ∈ incoming) :
    Becomes incoming station after :=
  Relation.ReflTransGen.single ⟨occurrence, now, done, arrives⟩

theorem of_apply (incoming : List Bytes) {operation : Connection.Operation}
    {connection : Connection} {now : Nat}
    (applied : station.connection.apply operation now = .ok connection)
    (arrives : ∀ raw, operation = .receive raw → raw ∈ incoming) :
    Becomes incoming station
      { station with
        connection
        taken := station.taken ++ station.connection.takenBy operation
        closing := station.closing || operation = .close } := by
  refine of_undergo (.operate operation) now ?_ ?_
  · rw [undergo, applied]
    rfl
  · rintro raw same
    exact arrives raw (Occurrence.operate.inj same)

theorem taken_isPrefix (becomes : Becomes incoming station after) :
    station.taken <+: after.taken := by
  induction becomes with
  | refl => exact List.prefix_refl _
  | tail _ moves ih =>
      obtain ⟨occurrence, now, done, -⟩ := moves
      exact ih.trans (taken_isPrefix_of_undergo done)

theorem isPrefix (becomes : Becomes incoming station after) :
    station.heard <+: after.heard ∧ station.wire <+: after.wire := by
  induction becomes with
  | refl => exact ⟨List.prefix_refl _, List.prefix_refl _⟩
  | @tail middle after _ moves ih =>
      obtain ⟨occurrence, now, done, -⟩ := moves
      have step : middle.heard <+: after.heard ∧ middle.wire <+: after.wire := by
        cases occurrence with
        | operate operation =>
            obtain ⟨connection, -, rfl⟩ := exists_of_undergo_operate done
            exact ⟨List.prefix_refl _, List.prefix_refl _⟩
        | emit =>
            obtain rfl := Except.ok.inj done
            rw [emit]
            split
            · exact ⟨List.prefix_refl _, List.prefix_refl _⟩
            · exact ⟨List.prefix_refl _, List.prefix_append _ _⟩
        | hear =>
            obtain rfl := Except.ok.inj done
            rw [hear]
            split
            · exact ⟨List.prefix_refl _, List.prefix_refl _⟩
            · exact ⟨List.prefix_append _ _, List.prefix_refl _⟩
      exact ⟨ih.1.trans step.1, ih.2.trans step.2⟩

/-- What becomes of an end is part of its life. -/
theorem arises {config : Config} {isn : SeqNum} (becomes : Becomes incoming station after)
    (arises : Arises config isn station) : Arises config isn after := by
  induction becomes with
  | refl => exact arises
  | @tail middle after _ moves ih =>
      obtain ⟨occurrence, now, done, -⟩ := moves
      have lived : middle.live [(occurrence, now)] = .ok after := by
        rw [live_cons, done]
        rfl
      exact ih.live lived

theorem emitAll (station : Station) {front back : List Bytes}
    (outbox_eq : station.connection.outbox = front ++ back) :
    Becomes incoming station
      { station with
        connection := { station.connection with outbox := back }
        wire := station.wire ++ front } := by
  induction front generalizing station with
  | nil =>
      rw [List.append_nil, ← show station.connection.outbox = back from outbox_eq]
      exact refl station
  | cons raw front ih =>
      have emit_eq : station.emit =
          { station with
            connection := { station.connection with outbox := front ++ back }
            wire := station.wire ++ [raw] } := by
        rw [emit]
        split
        · next none => simp [outbox_eq] at none
        · next first rest same =>
            rw [outbox_eq] at same
            obtain ⟨rfl, rfl⟩ := List.cons.inj same
            rfl
      have emitted : Becomes incoming station station.emit := of_undergo .emit 0 rfl (by simp)
      rw [emit_eq] at emitted
      have rest := ih
        { station with
          connection := { station.connection with outbox := front ++ back }
          wire := station.wire ++ [raw] } rfl
      simp only [List.append_assoc, List.singleton_append] at rest
      exact emitted.trans rest

theorem hearAll (station : Station) :
    Becomes incoming station
      { station with
        connection := { station.connection with events := [] }
        heard := station.heard ++ station.connection.events } := by
  generalize events_eq : station.connection.events = events
  induction events generalizing station with
  | nil =>
      rw [List.append_nil, ← events_eq]
      exact refl station
  | cons event events ih =>
      have hear_eq : station.hear =
          { station with
            connection := { station.connection with events }
            heard := station.heard ++ [event] } := by
        rw [hear]
        split
        · next none => simp [events_eq] at none
        · next first rest same =>
            rw [events_eq] at same
            obtain ⟨rfl, rfl⟩ := List.cons.inj same
            rfl
      have told : Becomes incoming station station.hear := of_undergo .hear 0 rfl (by simp)
      rw [hear_eq] at told
      have rest := ih
        { station with
          connection := { station.connection with events }
          heard := station.heard ++ [event] } rfl
      simp only [List.append_assoc, List.singleton_append] at rest
      exact told.trans rest

end Becomes

theorem Sound.peerFinished_mem {config : Config} {isn : SeqNum} {ledger : Ledger} {settled : Nat}
    {connection : Connection}
    (sound : connection.Sound ⟨config, isn, station.wire, station.heard⟩ ledger settled)
    (done : ledger.Done settled) : .peerFinished ∈ station.heard ++ connection.events := by
  have told : (station.heard ++ connection.events).count .peerFinished = _ := sound.told
  rw [if_pos done.2.1] at told
  exact List.count_pos_iff.mp (by rw [told]; decide)

end Station

namespace Network
namespace Coherent

variable {network : Network} {ledgers : Side → Ledger} {side : Side}

theorem at_time (coherent : network.Coherent ledgers) (now : Nat) :
    Coherent { network with now } ledgers :=
  ⟨coherent.lawful, coherent.last⟩

/-- Something that happens at one end keeps the network coherent, if only segments of the other end
arrive. -/
theorem undergo (coherent : network.Coherent ledgers) (short : network.Short)
    {occurrence : Station.Occurrence} {now : Nat} {station : Station}
    (done : (network.station side).undergo occurrence now = .ok station)
    (arrives : ∀ raw, occurrence = .operate (.receive raw) →
      raw ∈ (network.station side.other).wire) :
    ∃ ledger',
      (network.setStation side station).Coherent (Function.update ledgers side ledger') := by
  have move (move : Move)
      (acted : (network.station side).act (network.station side.other).wire move now =
        .ok station) :
      ∃ ledger',
        (network.setStation side station).Coherent (Function.update ledgers side ledger') := by
    obtain ⟨ledger', coherent', -⟩ := (coherent.at_time now).act short acted
    exact ⟨ledger', coherent'.lawful, coherent'.last⟩
  cases occurrence with
  | emit => exact move .emit done
  | hear => exact move .hear done
  | operate operation =>
      obtain ⟨connection, applied, rfl⟩ := Station.exists_of_undergo_operate done
      cases operation with
      | openActive =>
          simp only [Connection.takenBy, List.append_nil, reduceCtorEq, decide_false,
            Bool.or_false]
          have lawful := coherent.lawful side
          by_cases closed : (network.station side).connection.phase = .closed
          · obtain ⟨asked, opened, proceeds⟩ := lawful.follows.openActive closed now
            obtain rfl := Except.ok.inj (opened.symm.trans applied)
            have admits := lawful.follows.admits
            have taken_eq := lawful.taken_eq
            rw [closed] at admits
            rw [admits.1] at taken_eq
            exact ⟨_, coherent.proceed proceeds taken_eq (by simp) fun _ => Or.inl⟩
          · rw [Connection.apply, Connection.openActive, if_neg closed] at applied
            obtain rfl := Except.ok.inj applied
            exact ⟨_, coherent.idle lawful rfl rfl⟩
      | listen =>
          simp only [Connection.takenBy, List.append_nil, reduceCtorEq, decide_false,
            Bool.or_false]
          obtain rfl := Except.ok.inj applied
          have lawful := coherent.lawful side
          refine ⟨_, coherent.idle ?_ rfl rfl⟩
          exact
            { lawful with
              follows := { lawful.follows with
                sends := { lawful.follows.sends with valid := lawful.follows.sends.valid } }
              speaks := lawful.speaks
              written := lawful.written }
      | send pending =>
          obtain ⟨⟨chunk, after⟩, sent, same⟩ := Fault.exists_of_bind_eq_ok applied
          obtain rfl := Except.ok.inj same
          refine move (.send pending) ?_
          rw [Station.act, sent]
          obtain rfl := (Connection.eq_of_sendChunk sent).1
          simp [Connection.takenBy, bind, Except.bind, pure, Except.pure]
      | close =>
          refine move .close ?_
          rw [Station.act, show (network.station side).connection.close now = _ from applied]
          simp [Connection.takenBy, bind, Except.bind, pure, Except.pure]
      | abort =>
          refine move .abort ?_
          obtain rfl := Except.ok.inj applied
          simp [Station.act, Connection.takenBy]
      | expire =>
          obtain ⟨⟨result, after⟩, expired, same⟩ := Fault.exists_of_bind_eq_ok applied
          obtain rfl := Except.ok.inj same
          refine move .expire ?_
          rw [Station.act, expired]
          simp [Connection.takenBy, bind, Except.bind, pure, Except.pure]
      | receive raw =>
          obtain ⟨number, found⟩ := List.mem_iff_getElem?.mp (arrives raw rfl)
          refine move (.deliver number) ?_
          simp only [Station.act, found]
          rw [show (network.station side).connection.receive raw now = _ from applied]
          simp [Connection.takenBy, bind, Except.bind, pure, Except.pure]

/-- What becomes of one end keeps the network coherent. -/
theorem becomes (coherent : network.Coherent ledgers) {station : Station}
    (becomes : (network.station side).Becomes (network.station side.other).wire station)
    (short : (network.setStation side station).Short) :
    ∃ ledger',
      (network.setStation side station).Coherent (Function.update ledgers side ledger') := by
  induction becomes with
  | refl =>
      refine ⟨ledgers side, ?_⟩
      rw [setStation, Function.update_eq_self, Function.update_eq_self]
      exact coherent
  | @tail middle after _ moves ih =>
      obtain ⟨occurrence, now, done, arrives⟩ := moves
      have middle_short : (network.setStation side middle).Short := by
        intro actor
        have bound := short actor
        rcases actor.eq_or_eq_other side with rfl | rfl
        · rw [station_setStation] at bound ⊢
          exact Nat.lt_of_le_of_lt (Station.taken_isPrefix_of_undergo done).length_le bound
        · rwa [station_setStation_other] at bound ⊢
      obtain ⟨ledger₁, coherent₁⟩ := ih middle_short
      rw [← network.station_setStation side middle] at done
      rw [← network.station_setStation_other side middle] at arrives
      obtain ⟨ledger₂, coherent₂⟩ := coherent₁.undergo middle_short done arrives
      refine ⟨ledger₂, ?_⟩
      rwa [setStation, setStation, Function.update_idem, Function.update_idem] at coherent₂

end Coherent
end Network
end ReliableTransport
