import ReliableTransport.Proofs.Station.Attention

/-!
# Behind the peer's FIN

The end of the peer's stream is told once.  What the peer sends behind its FIN is taken nevertheless
if it is at the next expected position, so that the stream is final only as long as no such segment
arrives.
-/

namespace ReliableTransport

open Script

namespace Station

variable {config : Config} {isn : SeqNum} {station after : Station} {capacity now : Nat}

/-- No segment of a history brings anything at a position. -/
def Silent (history : List (Occurrence × Nat)) (position : SeqNum) : Prop :=
  ∀ raw now segment, (.operate (.receive raw), now) ∈ history → Segment.decode raw = .ok segment →
    ¬ segment.Brings position

theorem Attentive.live_silent (attentive : station.Attentive capacity)
    (opened : station.connection.phase.isOpening = false) {history : List (Occurrence × Nat)}
    (done : station.live history = .ok after)
    (silent : station.connection.phase = .terminated ∨
      Silent history station.connection.recvNext) :
    after.connection.recvNext = station.connection.recvNext ∧ after.events = station.events := by
  induction history generalizing station with
  | nil =>
      obtain rfl := Except.ok.inj done
      exact ⟨rfl, rfl⟩
  | cons step history ih =>
      obtain ⟨occurrence, now⟩ := step
      rw [live_cons] at done
      obtain ⟨middle, happened, done⟩ := Fault.exists_of_bind_eq_ok done
      obtain ⟨next_eq, events_eq, ended⟩ := attentive.undergo_silent opened happened
        (silent.imp_right fun silent raw segment same decoded =>
          silent raw now segment (by rw [same]; exact List.mem_cons_self) decoded)
      rw [← next_eq, ← events_eq]
      refine ih (attentive.undergo happened) (isOpening_of_undergo opened happened) done
        (silent.imp ended ?_)
      rw [next_eq]
      exact fun silent raw now segment mem => silent raw now segment (List.mem_cons_of_mem _ mem)

/-- Once the end of the peer's stream was told, it is never told again, and nothing else is told
unless a segment brings something at the position behind the peer's FIN. -/
theorem Arises.finality (arises : Arises config isn station)
    (finished : .peerFinished ∈ station.events) (history : List (Occurrence × Nat))
    (done : station.live history = .ok after) :
    (∃ more, after.events = station.events ++ more ∧ .peerFinished ∉ more) ∧
      (station.connection.phase = .terminated ∨ Silent history station.connection.recvNext →
        after.connection.recvNext = station.connection.recvNext ∧
          after.events = station.events) := by
  have opened : station.connection.phase.isOpening = false := by
    rw [← Bool.not_eq_true]
    intro opening
    rw [arises.attentive.untold opening] at finished
    cases finished
  refine ⟨?_, arises.attentive.live_silent opened done⟩
  obtain ⟨more, events_eq⟩ := events_isPrefix_of_live done
  refine ⟨more, events_eq.symm, fun again => ?_⟩
  have once := (arises.live done).count_peerFinished_le
  have before := List.count_pos_iff.mpr finished
  have behind := List.count_pos_iff.mpr again
  rw [← events_eq, List.count_append] at once
  omega

/-- The own FIN is sent behind the peer's, which arrives once more with the last acknowledgment. -/
theorem finality_farewell :
    ∃ station after : Station, Arises Network.narrow ⟨7⟩ station ∧
      station.connection.phase = .closeWait ∧
      station.live [(.operate .close, 3),
        (.operate (.receive (Cargo.fin.encode ⟨5⟩ ⟨9⟩ 4)), 4)] = .ok after ∧
      after.connection.phase = .terminated ∧ after.connection.recvNext = ⟨6⟩ ∧
      after.events = [.peerFinished] := by
  have arises : Arises Network.narrow ⟨7⟩ _ := ⟨_, [(.operate .listen, 0),
    (.operate (.receive ((Cargo.syn false).encode ⟨4⟩ ⟨0⟩ 4)), 1),
    (.operate (.receive (Cargo.fin.encode ⟨5⟩ ⟨8⟩ 4)), 2)], rfl, rfl⟩
  obtain ⟨-, silence⟩ := arises.finality (by decide) [(.operate .close, 3),
    (.operate (.receive (Cargo.fin.encode ⟨5⟩ ⟨9⟩ 4)), 4)] rfl
  obtain ⟨next_eq, events_eq⟩ := silence <| Or.inr <| by
    intro raw now segment mem decoded brings
    obtain ⟨rfl, -⟩ : raw = Cargo.fin.encode ⟨5⟩ ⟨9⟩ 4 ∧ now = 4 := by simpa using mem
    rw [Cargo.decode_encode] at decoded
    obtain rfl := Except.ok.inj decoded
    exact absurd brings.2 (by decide)
  exact ⟨_, _, arises, rfl, rfl, rfl, next_eq, events_eq⟩

/-- A byte and another FIN behind the peer's FIN are taken, and the application is told of the byte
after the end of the peer's stream. -/
theorem data_behind_fin :
    ∃ station after : Station, Arises Network.narrow ⟨7⟩ station ∧
      station.events = [.peerFinished] ∧ station.connection.recvNext = ⟨6⟩ ∧
      station.live [(.operate (.receive ((Cargo.data [65]).encode ⟨6⟩ ⟨8⟩ 4)), 3),
        (.operate (.receive (Cargo.fin.encode ⟨7⟩ ⟨8⟩ 4)), 4)] = .ok after ∧
      after.events = [.peerFinished, .data [65]] ∧ after.connection.recvNext = ⟨8⟩ :=
  ⟨_, _, ⟨_, [(.operate .listen, 0),
    (.operate (.receive ((Cargo.syn false).encode ⟨4⟩ ⟨0⟩ 4)), 1),
    (.operate (.receive (Cargo.fin.encode ⟨5⟩ ⟨8⟩ 4)), 2)], rfl, rfl⟩, rfl, rfl, rfl, rfl, rfl⟩

end Station
end ReliableTransport
