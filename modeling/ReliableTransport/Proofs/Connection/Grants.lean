import ReliableTransport.Proofs.Connection.Content

/-!
# The window that the peer grants

The handshake tells how much the peer is ready to buffer, and every later segment that is taken may
tell it anew.  A peer that always grants something leaves room to send.
-/

namespace ReliableTransport

open Fault

namespace Connection

variable {connection after : Connection} {segment : Segment} {now : Nat}

/-- As long as the connection lasts, the peer grants some window since its first segment. -/
def Grants (connection : Connection) : Prop :=
  connection.phase.isOpening = false → connection.phase ≠ .terminated → 0 < connection.sendWindow

/-- The window is that of a segment, or stays. -/
def Regrants (before : Connection) (segment : Segment) (after : Connection) : Prop :=
  after.sendWindow = before.granted segment.header.window ∨ after.sendWindow = before.sendWindow

theorem granted_pos (connection : Connection) (bound : connection.config.maxSendWindow ≠ 0)
    {advertised : UInt16} (generous : advertised ≠ 0) : 0 < connection.granted advertised := by
  have positive {word : UInt16} (word_ne : word ≠ 0) : 0 < word.toNat :=
    Nat.pos_of_ne_zero fun zero => word_ne (UInt16.toNat_inj.mp zero)
  exact Nat.lt_min.mpr ⟨positive generous, positive bound⟩

theorem sendWindow_of_takeAck {ack : SeqNum} {advertised : UInt16}
    (taken : connection.takeAck ack advertised now = .ok after) :
    after.sendWindow =
      if ack.After connection.sendNext then connection.sendWindow
      else connection.granted advertised := by
  rcases takeAck_cases taken with
      ⟨unsent, rfl⟩ | ⟨sent, -, rfl⟩ | ⟨sent, -, flight, roundTrip, phase, rfl, -⟩
  · rw [if_pos unsent]
  · rw [if_neg sent]
  · rw [if_neg sent]

theorem sendWindow_of_takeContent (taken : connection.takeContent segment = .ok after) :
    after.sendWindow = connection.sendWindow := by
  obtain ⟨window, phase, events, outbox, rfl⟩ := eq_of_takeContent taken
  rfl

theorem takeSynchronized_regrants (taken : connection.takeSynchronized segment now = .ok after) :
    connection.Regrants segment after := by
  rcases takeSynchronized_cases taken with ⟨-, rfl | rfl⟩ | ⟨-, content | acknowledgment⟩
  · exact Or.inr rfl
  · exact Or.inr rfl
  · exact Or.inr (sendWindow_of_takeContent content)
  · obtain ⟨middle, acknowledged, rest⟩ := acknowledgment
    have window_eq : after.sendWindow = middle.sendWindow := by
      rcases rest with ⟨-, rfl⟩ | ⟨-, content⟩
      · rfl
      · exact sendWindow_of_takeContent content
    rw [Regrants, window_eq, sendWindow_of_takeAck acknowledged]
    split
    · exact Or.inr rfl
    · exact Or.inl rfl

/-- Nothing that arrives takes away the last of the window of a peer that always grants some. -/
theorem Grants.receive (grants : connection.Grants)
    (bound : connection.config.maxSendWindow ≠ 0) {raw : Bytes}
    (generous : ∀ segment, Segment.decode raw = .ok segment → segment.header.window ≠ 0)
    (asked : connection.phase = .synSent → connection.sendNext = connection.isn.advance 1)
    (received : connection.receive raw now = .ok after) : after.Grants := by
  rcases receive_cases received with rfl | ⟨segment, decoded, taken⟩
  · exact grants
  have room := connection.granted_pos bound (generous segment decoded)
  have agreed (opened : connection.phase.isOpening = false)
      (running : connection.phase ≠ .terminated) (regrants : connection.Regrants segment after) :
      after.Grants := by
    intro _ _
    rcases regrants with window_eq | window_eq
    · rwa [window_eq]
    · rw [window_eq]
      exact grants opened running
  rw [takeSegment] at taken
  split at taken
  · rw [takeClosed] at taken
    simp only at taken
    split at taken
    · obtain ⟨sent, transmitted, taken⟩ := exists_of_bind_eq_ok taken
      obtain ⟨flight, sendNext, rfl⟩ := eq_of_transmit transmitted
      obtain rfl := Except.ok.inj taken
      exact fun _ _ => room
    · obtain rfl := Except.ok.inj taken
      exact grants
  · next waiting =>
      rw [takeSynSent] at taken
      simp only at taken
      split at taken
      next answers =>
        simp only [Bool.and_eq_true, decide_eq_true_eq] at answers
        obtain ⟨middle, acknowledged, taken⟩ := exists_of_bind_eq_ok taken
        obtain rfl := Except.ok.inj taken
        have sent : ¬ segment.header.ack.After connection.sendNext := by
          rw [answers.2, asked waiting, SeqNum.After, SeqNum.before_advance_iff _ (by omega)
            (by omega)]
          omega
        have window_eq := (sendWindow_of_takeAck acknowledged).trans (if_neg sent)
        exact fun _ _ => window_eq ▸ room
      next =>
        obtain rfl := Except.ok.inj taken
        exact grants
  · next waiting =>
      rw [takeSynReceived] at taken
      split at taken
      · have regrants := takeSynchronized_regrants taken
        exact agreed (by rw [waiting]; rfl) (by rw [waiting]; decide) regrants
      · obtain rfl := Except.ok.inj taken
        exact grants
  all_goals first
    | next phase_eq =>
        exact agreed (by rw [phase_eq]; rfl) (by rw [phase_eq]; decide)
          (takeSynchronized_regrants taken)
    | next =>
        obtain rfl := Except.ok.inj taken
        exact grants

end Connection
end ReliableTransport
