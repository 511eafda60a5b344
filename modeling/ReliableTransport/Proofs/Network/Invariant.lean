import ReliableTransport.Proofs.Connection.Progress
import ReliableTransport.Proofs.Network.Basic

/-!
# The joint invariant of two ends

Each end has a ledger.  An end follows the party that the other end is by its ledger, has said what
its ledger tells, and has received only what the other end wrote.  An end that waits for the last
acknowledgment wrote its FIN when it had received everything, so that whoever received this FIN
knows that its own script was received.
-/

namespace ReliableTransport

open Script

namespace Station

/-- A station as a party. -/
def party (station : Station) (ledger : Ledger) : Party :=
  station.connection.party ledger

/-- A station with a ledger behaves towards its peer. -/
structure Lawful (station : Station) (ledger : Ledger) (peer : Party) : Prop where
  /-- Its parameters are in order. -/
  config_valid : station.connection.config.Valid
  /-- Its connection follows the peer. -/
  follows : station.connection.Follows station.heard ledger peer
  /-- It wrote what was taken for sending. -/
  taken_eq : content ledger.script = station.taken
  /-- It wrote its FIN on request. -/
  closing : .fin ∈ ledger.script → station.closing = true
  /-- What it sent was its own to say. -/
  speaks : ∀ raw ∈ station.sent, (station.party ledger).Speaks peer.isn raw
  /-- What it wrote was sent. -/
  written : ∀ front cargo back, ledger.script = front ++ cargo :: back →
    ∃ ack, cargo.encode (station.connection.isn.advance (extent front)) ack
      station.connection.config.receiveWindow ∈ station.sent
  /-- A FIN that is the last word acknowledges everything. -/
  final : station.connection.phase = .lastAck → ∀ seq ack window,
    Cargo.fin.encode seq ack window ∈ station.sent →
      ack = peer.isn.advance (extent ledger.received)

namespace Lawful

variable {station : Station} {ledger : Ledger} {peer later : Party}

theorem fin_mem_of_sent (lawful : station.Lawful ledger peer) {seq ack : SeqNum} {window : UInt16}
    (sent : Cargo.fin.encode seq ack window ∈ station.sent) : .fin ∈ ledger.script := by
  generalize raw_eq : Cargo.fin.encode seq ack window = raw at sent
  cases lawful.speaks raw sent with
  | cargo split _ =>
      obtain ⟨rfl, -⟩ := Cargo.encode_inj raw_eq
      rw [show ledger.script = _ from split]
      simp
  | acknowledgment => exact absurd raw_eq (Segment.fin_encode_ne_acknowledgment _ _ _ _ _ _)

theorem mono (lawful : station.Lawful ledger peer) (continues : peer.Continues later) :
    station.Lawful ledger later where
  config_valid := lawful.config_valid
  follows := lawful.follows.mono continues
  taken_eq := lawful.taken_eq
  closing := lawful.closing
  speaks := by
    rw [continues.isn_eq]
    exact lawful.speaks
  written := lawful.written
  final := by
    rw [continues.isn_eq]
    exact lawful.final

theorem proceed (lawful : station.Lawful ledger peer) (valid : Valid peer.ledger.script)
    {after : Connection} {ledger' : Ledger}
    (proceeds : station.connection.Proceeds station.heard ledger peer after ledger')
    {taken : Bytes} {closing : Bool} (taken_eq : content ledger'.script = taken)
    (closing_eq : .fin ∈ ledger'.script → closing = true) :
    Lawful { station with connection := after, taken, closing } ledger' peer := by
  obtain ⟨said, outbox_eq, speaks, wrote, final⟩ := proceeds.said
  have sent_eq : sent { station with connection := after, taken, closing } =
      station.sent ++ said := by
    simp [sent, outbox_eq]
  have continues : (station.party ledger).Continues (after.party ledger') :=
    ⟨proceeds.isn_eq, congrArg Config.receiveWindow proceeds.config_eq, proceeds.script,
      proceeds.received⟩
  refine ⟨?_, proceeds.follows, taken_eq, closing_eq, ?_, ?_, ?_⟩
  · rw [proceeds.config_eq]
    exact lawful.config_valid
  · intro raw mem
    rw [sent_eq] at mem
    rcases List.mem_append.mp mem with mem | mem
    · exact (lawful.speaks raw mem).mono continues
    · exact speaks raw mem
  · intro front cargo back split
    rw [sent_eq, proceeds.isn_eq, proceeds.config_eq]
    rcases wrote front cargo back split with ⟨rest, script_eq⟩ | ⟨ack, mem⟩
    · obtain ⟨ack, mem⟩ := lawful.written front cargo rest (by simp [← script_eq])
      exact ⟨ack, List.mem_append_left said mem⟩
    · exact ⟨ack, List.mem_append_right station.sent mem⟩
  · intro last seq ack window mem
    rw [sent_eq] at mem
    rcases List.mem_append.mp mem with mem | mem
    · rcases proceeds.lastAck last with ⟨waiting, -⟩ | unwritten
      · have admits := lawful.follows.admits
        rw [waiting] at admits
        have all := valid.eq_of_fin_mem lawful.follows.received_isPrefix admits.2.2.2
        have same : ledger.received = ledger'.received :=
          proceeds.received.eq_of_length_le
            (by rw [all]; exact proceeds.follows.received_isPrefix.length_le)
        rw [← same]
        exact lawful.final waiting seq ack window mem
      · exact absurd (lawful.fin_mem_of_sent mem) unwritten
    · exact final seq ack window mem

theorem emit (lawful : station.Lawful ledger peer) : station.emit.Lawful ledger peer := by
  rw [Station.emit]
  split
  · exact lawful
  · next raw outbox outbox_eq =>
      have sent_eq : sent
          { station with
            connection := { station.connection with outbox }
            wire := station.wire ++ [raw] } = station.sent := by
        simp [sent, outbox_eq]
      exact
        { lawful with
          follows := { lawful.follows with
            sends := { lawful.follows.sends with valid := lawful.follows.sends.valid } }
          speaks := by
            rw [sent_eq]
            exact lawful.speaks
          written := by
            rw [sent_eq]
            exact lawful.written
          final := by
            rw [sent_eq]
            exact lawful.final }

theorem hear (lawful : station.Lawful ledger peer) : station.hear.Lawful ledger peer := by
  rw [Station.hear]
  split
  · exact lawful
  · next event events events_eq =>
      exact
        { lawful with
          follows := { lawful.follows with
            sends := { lawful.follows.sends with valid := lawful.follows.sends.valid }
            reports := by
              have told := lawful.follows.reports
              rw [events_eq] at told
              rwa [List.append_assoc] }
          speaks := lawful.speaks
          written := lawful.written
          final := lawful.final }

end Lawful
end Station

namespace Network

/-- One end of a network as a party. -/
def party (network : Network) (ledgers : Side → Ledger) (side : Side) : Party :=
  (network.station side).party (ledgers side)

/-- The ledgers of both ends tell what happened in a network. -/
structure Coherent (network : Network) (ledgers : Side → Ledger) : Prop where
  /-- Each end behaves towards the other. -/
  lawful : ∀ side,
    (network.station side).Lawful (ledgers side) (network.party ledgers side.other)
  /-- Whoever received the last word knows that its own script was received. -/
  last : ∀ side, (network.station side).connection.phase = .lastAck →
    .fin ∈ (ledgers side.other).received → (ledgers side.other).acked = (ledgers side.other).script

namespace Coherent

variable {network : Network} {ledgers : Side → Ledger}

theorem follows (coherent : network.Coherent ledgers) (side : Side) :
    (network.station side).connection.Follows (network.station side).heard (ledgers side)
      (network.party ledgers side.other) :=
  (coherent.lawful side).follows

theorem valid (coherent : network.Coherent ledgers) (side : Side) :
    Valid (ledgers side).script :=
  (coherent.follows side).sends.valid

theorem received_isPrefix (coherent : network.Coherent ledgers) (side : Side) :
    (ledgers side.other).received <+: (ledgers side).script := by
  have isPrefix := (coherent.follows side.other).received_isPrefix
  rwa [Side.other_other] at isPrefix

/-- What an end knows to be received was received. -/
theorem acked_isPrefix (coherent : network.Coherent ledgers) (side : Side) :
    (ledgers side).acked <+: (ledgers side.other).received :=
  (coherent.follows side).acked_isPrefix

theorem near (coherent : network.Coherent ledgers) (short : network.Short) (side : Side) :
    extent (ledgers side).script < 2147483648 := by
  have extent_le := (coherent.valid side).extent_le
  have taken_lt := short side
  rw [(coherent.lawful side).taken_eq] at extent_le
  omega

/-- What an end wrote fits in the window of the other. -/
theorem fits (coherent : network.Coherent ledgers) (short : network.Short) (side : Side) :
    (network.station side).connection.Fits (ledgers side) (network.party ledgers side.other) where
  valid := coherent.valid side.other
  near := coherent.near short side.other
  within front chunk back split := by
    have fits := (coherent.follows side.other).sends.fits front chunk back split
    have acked_le := extent_le_of_isPrefix (coherent.acked_isPrefix side.other)
    rw [Side.other_other] at fits acked_le
    rw [(coherent.follows side).capacity_eq]
    exact Nat.le_trans fits (Nat.add_le_add_right acked_le _)

/-- An end that goes on keeps the network coherent, unless it takes the last word without the
acknowledgment in it. -/
theorem update (coherent : network.Coherent ledgers) {side : Side} {station : Station}
    {ledger' : Ledger} (lawful : station.Lawful ledger' (network.party ledgers side.other))
    (continues : (network.party ledgers side).Continues (station.party ledger'))
    (acked : (ledgers side).acked <+: ledger'.acked)
    (lastAck : station.connection.phase = .lastAck →
      (network.station side).connection.phase = .lastAck ∧ ledger'.script = (ledgers side).script ∨
        .fin ∉ (ledgers side).script)
    (heard : (network.station side.other).connection.phase = .lastAck → .fin ∈ ledger'.received →
      .fin ∈ (ledgers side).received ∨ (ledgers side).script <+: ledger'.acked) :
    (network.setStation side station).Coherent (Function.update ledgers side ledger') := by
  have own_ledger : Function.update ledgers side ledger' side = ledger' := by simp
  have other_ledger : Function.update ledgers side ledger' side.other = ledgers side.other := by
    simp [side.other_ne]
  constructor
  · intro actor
    rcases actor.eq_or_eq_other side with rfl | rfl
    · rw [party, station_setStation, station_setStation_other, own_ledger, other_ledger]
      exact lawful
    · rw [Side.other_other, party, station_setStation, station_setStation_other, own_ledger,
        other_ledger]
      have other_lawful := coherent.lawful side.other
      rw [Side.other_other] at other_lawful
      exact other_lawful.mono continues
  · intro actor last finished
    rcases actor.eq_or_eq_other side with rfl | rfl
    · rw [station_setStation] at last
      rw [other_ledger] at finished ⊢
      rcases lastAck last with ⟨waiting, -⟩ | unwritten
      · exact coherent.last actor waiting finished
      · exact absurd ((coherent.received_isPrefix actor).subset finished) unwritten
    · -- the other end received everything before its FIN, which told so
      rw [station_setStation_other] at last
      rw [Side.other_other, own_ledger] at finished ⊢
      have admits := (coherent.follows side.other).admits
      rw [last] at admits
      have written : .fin ∈ (ledgers side).script :=
        (coherent.received_isPrefix side).subset admits.2.2.2
      have valid : Valid ledger'.script := lawful.follows.sends.valid
      have script_eq := valid.eq_of_fin_mem continues.script written
      have acked_isPrefix : ledger'.acked <+: ledger'.script := lawful.follows.sends.acked_isPrefix
      have all : (ledgers side).script <+: ledger'.acked := by
        rcases heard last finished with old | fresh
        · have done := coherent.last side.other last
          rw [Side.other_other] at done
          rw [← done old]
          exact acked
        · exact fresh
      rw [show (network.party ledgers side).ledger.script = (ledgers side).script from rfl]
        at script_eq
      rw [script_eq] at all
      exact acked_isPrefix.eq_of_length_le all.length_le

end Coherent
end Network
end ReliableTransport
