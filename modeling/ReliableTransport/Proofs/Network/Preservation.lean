import ReliableTransport.Proofs.Network.Invariant

/-!
# Every step of a network keeps it coherent

Each step is one operation of one connection, or moves a segment or an event on.  Along a run the
ledgers of a start are brought forward by every step.
-/

namespace ReliableTransport

open Script

namespace Network
namespace Coherent

variable {network : Network} {ledgers : Side → Ledger} {side : Side}

/-- An operation of a connection keeps the network coherent. -/
theorem proceed (coherent : network.Coherent ledgers) {after : Connection} {ledger' : Ledger}
    (proceeds : (network.station side).connection.Proceeds (network.station side).heard
      (ledgers side) (network.party ledgers side.other) after ledger')
    {taken : Bytes} {closing : Bool} (taken_eq : content ledger'.script = taken)
    (closing_eq : .fin ∈ ledger'.script → closing = true)
    (heard : (network.station side.other).connection.phase = .lastAck → .fin ∈ ledger'.received →
      .fin ∈ (ledgers side).received ∨ (ledgers side).script <+: ledger'.acked) :
    (network.setStation side
        { network.station side with connection := after, taken, closing }).Coherent
      (Function.update ledgers side ledger') := by
  have continues : (network.party ledgers side).Continues (after.party ledger') :=
    ⟨proceeds.isn_eq, congrArg Config.receiveWindow proceeds.config_eq, proceeds.script,
      proceeds.received⟩
  exact coherent.update
    ((coherent.lawful side).proceed (coherent.valid side.other) proceeds taken_eq closing_eq)
    continues proceeds.acked proceeds.lastAck heard

theorem idle (coherent : network.Coherent ledgers) {station : Station}
    (lawful : station.Lawful (ledgers side) (network.party ledgers side.other))
    (party_eq : station.party (ledgers side) = network.party ledgers side)
    (phase_eq : station.connection.phase = (network.station side).connection.phase) :
    (network.setStation side station).Coherent
      (Function.update ledgers side (ledgers side)) := by
  have continues : (network.party ledgers side).Continues (station.party (ledgers side)) := by
    rw [party_eq]
    exact .refl _
  exact coherent.update lawful continues (List.prefix_refl _)
    (fun last => Or.inl ⟨phase_eq ▸ last, rfl⟩) fun _ => Or.inl

theorem receive (coherent : network.Coherent ledgers) (short : network.Short) {raw : Bytes}
    (sent : raw ∈ (network.station side.other).sent) (now : Nat) :
    (network.station side).connection.Takeable (network.station side).heard (ledgers side)
      (network.party ledgers side.other) raw
      ((network.station side).connection.receive raw now) := by
  have speaks := (coherent.lawful side.other).speaks raw sent
  rw [Side.other_other] at speaks
  exact (coherent.follows side).receive (coherent.fits short side) (coherent.near short side)
    (coherent.received_isPrefix side) speaks now

theorem script_isPrefix_of_last (coherent : network.Coherent ledgers) (short : network.Short)
    {seq ack : SeqNum} {window : UInt16} {known acked : List Cargo}
    (sent : Cargo.fin.encode seq ack window ∈ (network.station side.other).sent)
    (honest : (network.party ledgers side.other).Acknowledges
      (network.station side).connection.isn ack known) (covers : known <+: acked)
    (last : (network.station side.other).connection.phase = .lastAck) :
    (ledgers side).script <+: acked := by
  obtain ⟨-, known_isPrefix, ack_eq⟩ := honest
  have final := (coherent.lawful side.other).final last seq ack window sent
  have admits := (coherent.follows side.other).admits
  rw [last] at admits
  have valid := coherent.valid side
  have received_isPrefix := coherent.received_isPrefix side
  have all := valid.eq_of_fin_mem received_isPrefix admits.2.2.2
  have near := coherent.near short side
  have known_le := extent_le_of_isPrefix (known_isPrefix.trans received_isPrefix)
  have received_le := extent_le_of_isPrefix received_isPrefix
  rw [Side.other_other, ack_eq] at final
  have extent_eq : extent known = extent (ledgers side.other).received :=
    (SeqNum.advance_inj _ (by omega) (by omega)).mp final
  rw [← all, ← valid.eq_of_extent_eq (known_isPrefix.trans received_isPrefix) received_isPrefix
    extent_eq]
  exact covers

/-- Whatever happens at one end, the network stays coherent, and the parameters stay. -/
theorem act (coherent : network.Coherent ledgers) (short : network.Short) {move : Move}
    {station : Station}
    (done : (network.station side).act (network.station side.other).wire move network.now =
      .ok station) :
    ∃ ledger',
      (network.setStation side station).Coherent (Function.update ledgers side ledger') ∧
        station.connection.config = (network.station side).connection.config := by
  have lawful := coherent.lawful side
  cases move with
  | send pending =>
      obtain ⟨⟨chunk, connection⟩, sent, done⟩ := Fault.exists_of_bind_eq_ok done
      obtain rfl := Except.ok.inj done
      obtain ⟨chunk', connection', script, sent', proceeds, content_eq, unfinished⟩ :=
        lawful.follows.sendChunk lawful.config_valid (coherent.near short side) pending network.now
      rw [sent] at sent'
      obtain ⟨rfl, rfl⟩ := Prod.mk.inj (Except.ok.inj sent')
      refine ⟨_, coherent.proceed proceeds ?_ (fun written => lawful.closing (unfinished written))
        fun _ => Or.inl, proceeds.config_eq⟩
      rw [← lawful.taken_eq]
      exact content_eq
  | close =>
      obtain ⟨connection, closed, done⟩ := Fault.exists_of_bind_eq_ok done
      obtain rfl := Except.ok.inj done
      obtain ⟨connection', script, closed', proceeds, content_eq⟩ :=
        lawful.follows.close network.now
      rw [closed] at closed'
      obtain rfl := Except.ok.inj closed'
      exact ⟨_, coherent.proceed proceeds (content_eq.trans lawful.taken_eq) (fun _ => rfl)
        fun _ => Or.inl, proceeds.config_eq⟩
  | abort =>
      obtain rfl := Except.ok.inj done
      exact ⟨_, coherent.proceed (.abort lawful.follows) lawful.taken_eq lawful.closing
        fun _ => Or.inl, rfl⟩
  | expire =>
      obtain ⟨⟨result, connection⟩, expired, done⟩ := Fault.exists_of_bind_eq_ok done
      obtain rfl := Except.ok.inj done
      have proceeds := lawful.follows.expire expired
      exact ⟨_, coherent.proceed proceeds lawful.taken_eq lawful.closing fun _ => Or.inl,
        proceeds.config_eq⟩
  | deliver number =>
      simp only [Station.act] at done
      split at done
      · obtain rfl := Except.ok.inj done
        exact ⟨_, coherent.idle lawful rfl rfl, rfl⟩
      · next raw found =>
          obtain ⟨connection, received, done⟩ := Fault.exists_of_bind_eq_ok done
          obtain rfl := Except.ok.inj done
          have sent : raw ∈ (network.station side.other).sent :=
            List.mem_append_left _ (List.mem_of_getElem? found)
          rcases coherent.receive short sent network.now with failed | ⟨after, ledger', taken, turn⟩
          · rw [received] at failed
            cases failed
          · rw [received] at taken
            obtain rfl := Except.ok.inj taken
            obtain ⟨content_eq, unwritten⟩ := turn.script_eq
            refine ⟨ledger', coherent.proceed turn.proceeds (content_eq.trans lawful.taken_eq)
              (fun written => lawful.closing (unwritten written)) (fun last finished => ?_),
              turn.config_eq⟩
            rcases turn.fin_cause finished with old | ⟨seq, ack, known, rfl, honest, covers⟩
            · exact Or.inl old
            · exact Or.inr (coherent.script_isPrefix_of_last short sent honest covers last)
  | emit =>
      obtain rfl := Except.ok.inj done
      have connection_eq := (network.station side).connection_emit
      refine ⟨_, coherent.idle lawful.emit ?_ ?_, ?_⟩
      · rw [Station.party, connection_eq]
        rfl
      · rw [connection_eq]
      · rw [connection_eq]
  | hear =>
      obtain rfl := Except.ok.inj done
      have connection_eq := (network.station side).connection_hear
      refine ⟨_, coherent.idle lawful.hear ?_ ?_, ?_⟩
      · rw [Station.party, connection_eq]
        rfl
      · rw [connection_eq]
      · rw [connection_eq]

theorem step (coherent : network.Coherent ledgers) (short : network.Short) {step : Step}
    {after : Network} (done : network.step step = .ok after) :
    ∃ ledgers', after.Coherent ledgers' ∧ ∀ side,
      (after.station side).connection.config = (network.station side).connection.config := by
  cases step with
  | elapse time =>
      obtain rfl := Except.ok.inj done
      exact ⟨ledgers, ⟨coherent.lawful, coherent.last⟩, fun _ => rfl⟩
  | act side move =>
      obtain ⟨station, acted, rfl⟩ := exists_of_step_act done
      obtain ⟨ledger', coherent', config_eq⟩ := coherent.act short acted
      refine ⟨_, coherent', fun actor => ?_⟩
      rcases actor.eq_or_eq_other side with rfl | rfl
      · rw [station_setStation, config_eq]
      · rw [station_setStation_other]

theorem run (coherent : network.Coherent ledgers) {steps : List Step} {after : Network}
    (done : network.run steps = .ok after) (short : after.Short) :
    ∃ ledgers', after.Coherent ledgers' := by
  induction steps generalizing network ledgers with
  | nil =>
      obtain rfl := Except.ok.inj done
      exact ⟨ledgers, coherent⟩
  | cons step steps ih =>
      rw [run_cons] at done
      obtain ⟨middle, stepped, done⟩ := Fault.exists_of_bind_eq_ok done
      obtain ⟨ledgers', coherent', -⟩ :=
        coherent.step ((short.of_run done).of_step stepped) stepped
      exact ih coherent' done

end Coherent

theorem lawful_fresh {connection : Connection} {peer : Party}
    (config_valid : connection.config.Valid) (follows : connection.Follows [] ⟨[], [], []⟩ peer)
    (closed : connection.phase = .closed) (outbox_eq : connection.outbox = []) :
    Station.Lawful { connection } ⟨[], [], []⟩ peer where
  config_valid := config_valid
  follows := follows
  taken_eq := rfl
  closing := by simp
  speaks := by simp [Station.sent, outbox_eq]
  written := by simp
  final last := by simp [closed] at last

theorem exists_coherent_start {opener listener : Config} (opener_valid : opener.Valid)
    (listener_valid : listener.Valid) (openerIsn listenerIsn : SeqNum) (now : Nat) :
    ∃ network ledgers, start opener listener openerIsn listenerIsn now = .ok network ∧
      network.Coherent ledgers := by
  obtain ⟨first, created, first_config, first_closed, first_outbox, first_follows⟩ :=
    Connection.Follows.create opener_valid openerIsn
  obtain ⟨second, created', second_config, second_closed, second_outbox, second_follows⟩ :=
    Connection.Follows.create listener_valid listenerIsn
  have listens (peer : Party) : second.listen.Follows [] ⟨[], [], []⟩ peer :=
    { second_follows peer with
      sends := { (second_follows peer).sends with valid := .nil } }
  have coherent : (fresh first second.listen now).Coherent fun _ => ⟨[], [], []⟩ := by
    constructor
    · intro side
      cases side with
      | first =>
          exact lawful_fresh (by rwa [first_config]) (first_follows _) first_closed first_outbox
      | second =>
          exact lawful_fresh (by rwa [Connection.listen, second_config]) (listens _) second_closed
            second_outbox
    · intro side last
      cases side with
      | first => simp [fresh, first_closed] at last
      | second => simp [fresh, Connection.listen, second_closed] at last
  obtain ⟨opened, asked, proceeds⟩ :=
    (coherent.follows .first).openActive first_closed now
  have asked : first.openActive now = .ok opened := asked
  have coherent' : (fresh first second.listen now |>.setStation .first
      { connection := opened }).Coherent _ :=
    coherent.proceed proceeds rfl (by simp) fun _ => Or.inl
  refine ⟨_, _, ?_, coherent'⟩
  rw [start, created]
  change (first.openActive now).bind _ = _
  rw [asked]
  change (Connection.create listener listenerIsn).bind _ = _
  rw [created']
  refine congrArg Except.ok ?_
  rw [setStation, fresh, mk.injEq]
  refine ⟨?_, rfl⟩
  funext side
  cases side with
  | first => rfl
  | second => rfl

/-- The states of a network are coherent as long as its streams are short. -/
theorem Reachable.coherent {network : Network} (reachable : network.Reachable)
    (short : network.Short) : ∃ ledgers, network.Coherent ledgers := by
  obtain ⟨opener, listener, openerIsn, listenerIsn, now, steps, opener_valid, listener_valid,
    done⟩ := reachable
  obtain ⟨origin, ledgers, started, coherent⟩ :=
    exists_coherent_start opener_valid listener_valid openerIsn listenerIsn now
  rw [play, started] at done
  exact coherent.run done short

/-- Two bytes in a segment and four in a window. -/
def narrow : Config := { maxSegmentSize := 2, receiveWindow := 4, maxSendWindow := 4 }

/-- The second end answers the SYN of the first, which completes the handshake for both. -/
def handshake : List Step :=
  [.act .first .emit, .act .second (.deliver 0), .act .second .emit, .act .first (.deliver 0),
    .act .first .emit, .act .second (.deliver 1)]

/-- The first end sends two bytes and its FIN, which overtakes them and arrives twice. -/
def farewell : List Step :=
  [.act .first (.send [7, 8, 9]), .act .first .close, .act .first .emit, .act .first .emit,
    .act .second (.deliver 3), .act .second (.deliver 2), .act .second (.deliver 3)]

end Network
end ReliableTransport
