import ReliableTransport.Proofs.Service.Life
import ReliableTransport.Proofs.Service.Reporting
import ReliableTransport.Proofs.Station.Coverage

/-!
# A run that ends in order

The end of the connection is no failure only if both streams are complete.  Then everything that
the application wrote was sent and acknowledged, and the application was told of the end of the
peer's stream.
-/

namespace ReliableTransport
namespace Stream

open Endpoint

/-- Everything that the application wrote was sent and is acknowledged, and it was told of the end of
the peer's stream. -/
structure Completed (isn : SeqNum) (accepted : List Bytes) (stream : Stream) : Prop where
  /-- The application had finished writing. -/
  unwritable : stream.writable = false
  /-- No message waits. -/
  writes_eq : stream.writes = []
  /-- Nothing is pending. -/
  pending_eq : stream.endpoint.pending = []
  /-- A FIN was sent behind all bytes of the messages. -/
  sent : ∃ before raw rest segment, stream.endpoint.sent = before ++ raw :: rest ∧
    Covers isn accepted.flatten before ∧ (∀ earlier ∈ before, ¬ Segment.Finishes earlier) ∧
    Segment.decode raw = .ok segment ∧
    segment.header.flags = { fin := true, ack := true } ∧ segment.payload = [] ∧
    segment.header.seq = isn.advance (1 + accepted.flatten.length)
  /-- The FIN has its place behind all bytes, which are acknowledged. -/
  acknowledged : ∃ fin, stream.endpoint.connection.finSeq = some fin ∧
    fin = isn.advance (1 + accepted.flatten.length) ∧
    fin.AtOrBefore stream.endpoint.connection.sendUnacked
  /-- The opener was told of success. -/
  opened_eq : stream.endpoint.opened = some (.ok ())
  /-- The application was told of the end of the peer's stream. -/
  told : .peerFinished ∈ stream.endpoint.events
  /-- The application was told of no failure. -/
  unfailed : Unfailed stream.endpoint.events

namespace Served

variable {role : Role} {config : Config} {isn : SeqNum} {opening : Nat} {connection : Connection}
  {accepted : List Bytes} {log : List (Endpoint × Endpoint.Round)} {stream : Stream}

/-- A run returns no failure only if both streams are complete. -/
theorem completes (initiated : initiate role config isn opening = .ok connection)
    (served : Served connection accepted log stream)
    (returned : stream.endpoint.activity = .finished (.ok ())) : Completed isn accepted stream := by
  obtain ⟨arises, goes, silent⟩ := arises_of_initiate initiated
  obtain ⟨station, lives⟩ := served.lives arises goes (Or.inr returned)
  have ended : station.connection.phase = .terminated := by
    by_contra goes
    simp [lives.running_iff.mpr goes] at returned
  have accords := lives.endpoint.accords
  have connection_eq : stream.endpoint.connection = station.connection := accords.connection_eq
  have sent_eq : stream.endpoint.sent = station.sent := by
    rw [Station.sent, lives.outbox_eq, List.append_nil]
    exact accords.sent_eq
  -- the FIN was sent on request, when nothing was left
  obtain ⟨fin, finSeq_eq, acknowledged⟩ := lives.endpoint.delivered ended
  have known : station.connection.finSeq.isSome = true := by simp [finSeq_eq]
  obtain ⟨closed, pending_eq⟩ := lives.carries.closing (lives.endpoint.arises.closing known)
  obtain ⟨unwritable, writes_eq⟩ := lives.carries.writer closed
  have taken_eq : station.taken = accepted.flatten := by
    rw [← lives.carries.bytes_eq, pending_eq, writes_eq]
    simp
  obtain ⟨ledger, settled, sound⟩ := lives.endpoint.arises.sound
  obtain ⟨earlier, endpoint, round, rfl, endpoint_eq, -⟩ := served.linked
  have reports := endpoint_eq ▸ (served.begins goes (fun _ => silent) _
    (List.mem_append_right _ List.mem_cons_self)).reports
  obtain ⟨opened, unfailed⟩ := reports.concluded returned
  refine ⟨unwritable, writes_eq, pending_eq, ?_, ⟨fin, ?_, ?_, ?_⟩, opened, ?_, unfailed⟩
  · cases lives.endpoint.arises.coverage with
    | ongoing unfinished _ => simp [unfinished] at known
    | finished split covers clean decoded flags_eq payload_eq seq_eq _ =>
        rw [taken_eq] at covers seq_eq
        exact ⟨_, _, _, _, sent_eq.trans split, covers, clean, decoded, flags_eq, payload_eq, seq_eq⟩
  · rw [connection_eq, finSeq_eq]
  · rw [← taken_eq]
    exact Option.some.inj (finSeq_eq.symm.trans (sound.finSeq_eq known))
  · rw [connection_eq]
    exact acknowledged
  · have told := accords.concluded ended
    rw [Station.events, lives.events_eq, List.append_nil] at told
    rw [show stream.endpoint.events = _ from accords.events_eq]
    exact List.mem_map_of_mem told

/-- Both ends finish, and the FIN of the peer acknowledges the own one. -/
theorem completes_farewell :
    ∃ connection log stream, initiate .passive Network.narrow ⟨7⟩ 0 = .ok connection ∧
      Served connection [[66]] log stream ∧ stream.endpoint.activity = .finished (.ok ()) ∧
      stream.writable = false ∧ stream.endpoint.connection.finSeq = some ⟨9⟩ ∧
      (∃ before raw rest, stream.endpoint.sent = before ++ raw :: rest ∧
        Covers ⟨7⟩ [66] before ∧ Segment.Finishes raw) ∧
      .peerFinished ∈ stream.endpoint.events := by
  obtain ⟨connection, initiated, log, stream, served, ended⟩ :
      ∃ connection, initiate .passive Network.narrow ⟨7⟩ 0 = .ok connection ∧
        ∃ log stream, Served connection [[66]] log stream ∧
          stream.endpoint.activity = .finished (.ok ()) :=
    ⟨_, rfl, _, _, .round (.received (Cargo.fin.encode ⟨5⟩ ⟨10⟩ 4)) 4 4 none
      (.round .writerClosed 3 3 none
        (.close (.round (.written [66]) 3 3 none
          (.write [66] (.round (.received (Segment.acknowledgment ⟨5⟩ ⟨8⟩ 4)) 2 2 none
            (.round (.received ((Cargo.syn false).encode ⟨4⟩ ⟨0⟩ 4)) 1 1 none
              (.start 0 0 none) rfl rfl) rfl rfl) rfl) rfl rfl)) rfl rfl) rfl rfl, rfl⟩
  have completed := served.completes initiated ended
  obtain ⟨before, raw, rest, segment, sent_eq, covers, -, decoded, flags_eq, -⟩ := completed.sent
  obtain ⟨fin, finSeq_eq, rfl, -⟩ := completed.acknowledged
  exact ⟨connection, log, stream, initiated, served, ended, completed.unwritable, finSeq_eq,
    ⟨before, raw, rest, sent_eq, covers, segment, decoded, by rw [flags_eq]⟩, completed.told⟩

end Served
end Stream
end ReliableTransport
