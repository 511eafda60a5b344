import ReliableTransport.Proofs.Connection.Redelivery
import ReliableTransport.Proofs.Station.Attention

/-!
# Bytes that arrive twice in a row

An end that receives the same bytes twice in a row is where it was after the first time, whatever
they are and whenever they arrive.  A payload that reaches beyond the window is left out, because the
window may have moved over a part of it that was cut off the first time.
-/

namespace ReliableTransport
namespace Station

variable {config : Config} {isn : SeqNum} {station : Station}

/-- Bytes that arrive once more change nothing, and are answered by an acknowledgment at most.  If
they are a segment whose payload may be taken, its end is not beyond the window. -/
theorem Arises.redelivery (arises : Arises config isn station) {raw : Bytes} {after : Connection}
    {now : Nat} (received : station.connection.receive raw now = .ok after)
    (reaches : ∀ segment, Segment.decode raw = .ok segment → segment.payload ≠ [] →
      station.connection.phase = .synReceived ∨ station.connection.phase.isSynchronized →
      (segment.header.seq.advance segment.payload.length).AtOrBefore station.connection.recvNext ∨
        (segment.header.seq.advance segment.payload.length).since station.connection.recvNext ≤
          config.receiveWindow.toNat)
    (later : Nat) :
    ∃ queued, after.receive raw later = .ok { after with outbox := after.outbox ++ queued } ∧
      (queued = [] ∨ queued = [after.acknowledgment]) := by
  have attentive := arises.attentive
  have small := config.receiveWindow.toNat_lt
  have rearrives (segment : Segment) (decoded : Segment.decode raw = .ok segment)
      (takes : station.connection.phase = .synReceived ∨ station.connection.phase.isSynchronized) :
      station.connection.Rearrives segment := by
    refine ⟨fun payload => ?_, attentive.gap, ?_⟩
    · rw [ReceiveWindow.Spans, attentive.capacity_eq]
      exact reaches segment decoded payload takes
    · rw [attentive.capacity_eq]
      omega
  rcases Connection.receive_again rearrives received later with same | echoed
  · exact ⟨[], by rw [same, List.append_nil], Or.inl rfl⟩
  · exact ⟨_, echoed, Or.inr rfl⟩

/-- The FIN behind two bytes completes a handshake where the positions wrap around.  When it arrives
once more, it is acknowledged again. -/
theorem redelivery_farewell :
    ∃ (station : Station) (after again : Connection) (raw : Bytes),
      Arises Network.narrow ⟨7⟩ station ∧
      raw = Segment.encode ⟨{ fin := true, ack := true }, ⟨4294967295⟩, ⟨8⟩, 4⟩ [65, 66] ∧
      station.connection.phase = .synReceived ∧ station.connection.receive raw 2 = .ok after ∧
      after.phase = .closeWait ∧ after.events = [.data [65, 66], .peerFinished] ∧
      after.receive raw 9 = .ok again ∧
      again = { after with outbox := after.outbox ++ [after.acknowledgment] } := by
  let raw := Segment.encode ⟨{ fin := true, ack := true }, ⟨4294967295⟩, ⟨8⟩, 4⟩ [65, 66]
  let history : List (Occurrence × Nat) := [(.operate .listen, 0),
    (.operate (.receive ((Cargo.syn false).encode ⟨4294967294⟩ ⟨0⟩ 4)), 1)]
  have begun : ∃ station : Station, Arises Network.narrow ⟨7⟩ station ∧
      station.connection.phase = .synReceived ∧ station.connection.recvNext = ⟨4294967295⟩ ∧
      ((station.connection.receive raw 2).toOption.bind fun after =>
        (after.receive raw 9).toOption.map fun again =>
          (after.phase, after.events, after.outbox.length, again.outbox.length)) =
        some (.closeWait, [.data [65, 66], .peerFinished], 2, 3) :=
    ⟨_, ⟨_, history, rfl, rfl⟩, rfl, rfl, by decide +kernel⟩
  obtain ⟨station, arises, waiting, next_eq, outcome⟩ := begun
  cases received : station.connection.receive raw 2 with
  | error fault => simp [received, Except.toOption] at outcome
  | ok after =>
      obtain ⟨queued, again, answer⟩ := arises.redelivery received (by
        intro segment decoded _ _
        rw [Segment.decode_encode] at decoded
        obtain rfl := Except.ok.inj decoded
        exact Or.inr (by rw [next_eq]; decide)) 9
      simp only [received, again, Except.toOption, Option.bind_some, Option.map_some,
        Option.some.injEq, Prod.mk.injEq, List.length_append] at outcome
      obtain ⟨phase_eq, events_eq, before, behind⟩ := outcome
      rcases answer with rfl | rfl
      · simp [before] at behind
      · exact ⟨station, after, _, raw, arises, rfl, waiting, received, phase_eq, events_eq, again,
          rfl⟩

end Station
end ReliableTransport
