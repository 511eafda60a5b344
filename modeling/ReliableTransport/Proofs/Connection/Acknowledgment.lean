import ReliableTransport.Connection.Receive
import ReliableTransport.Proofs.Connection.Sending
import ReliableTransport.Proofs.Ledger
import ReliableTransport.Proofs.RoundTrip

/-!
# Acknowledgments of a front of the script

An acknowledgment of a front of the script is either news, which settles the segments that carry
the front, or old, which settles nothing.  It can fail only in the estimates of the round-trip time.
-/

namespace ReliableTransport

open Script

namespace Connection

/-- A connection that knows that a front of its script was received. -/
def acknowledged (connection : Connection) (sendWindow : Nat) (rest : List Outstanding)
    (roundTrip : RoundTrip) (script acked : List Cargo) : Connection :=
  { connection with
    sendWindow, roundTrip
    flight := ⟨rest⟩
    sendUnacked := connection.isn.advance (extent acked)
    phase :=
      if .fin ∈ script ∧ acked = script then connection.phase.afterFinAcked
      else connection.phase }

namespace Sends

variable {connection : Connection} {room : Nat} {script acked : List Cargo}

theorem finAcked_iff (sends : connection.Sends room script acked)
    (near : extent script < 2147483648) :
    connection.finAcked = true ↔ .fin ∈ script ∧ acked = script := by
  rw [finAcked, sends.finSeq_eq, sends.unacked_eq]
  by_cases written : .fin ∈ script
  · have positive := sends.valid.length_pos written
    have extent_pos : 0 < extent script := by
      obtain ⟨front, rfl, -⟩ := sends.valid.eq_append_fin written
      simp
    have acked_le := extent_le_of_isPrefix sends.acked_isPrefix
    have before_iff := SeqNum.before_advance_iff connection.isn (i := extent script - 1)
      (j := extent acked) (by omega) (by omega)
    simp only [written, if_true, Option.any_some, decide_eq_true_eq, true_and, before_iff]
    constructor
    · intro lt
      exact sends.valid.eq_of_extent_eq sends.acked_isPrefix (List.prefix_refl script) (by omega)
    · rintro rfl
      omega
  · simp [written]

theorem acknowledge (sends : connection.Sends room script acked)
    (near : extent script < 2147483648) (running : connection.phase ≠ .terminated)
    {front : List Cargo} (isFront : front <+: script) (later : acked <+: front) (now : Nat) :
    ∃ settled rest, connection.flight.segments = settled ++ rest ∧
      connection.flight.acknowledge (connection.isn.advance (extent front)) now
          connection.roundTrip =
        ((Flight.samples settled now).foldlM RoundTrip.observe connection.roundTrip).map
          (fun roundTrip => (settled.length, ⟨rest⟩, roundTrip)) ∧
      ∃ behind, script = front ++ behind ∧
        Flight.Carries connection.isn connection.config.receiveWindow (extent front) rest
          behind := by
  obtain ⟨outstanding, script_eq, carries⟩ := sends.carries running
  obtain ⟨settled, rfl⟩ := later
  obtain ⟨behind, rfl⟩ := isFront
  rw [List.append_assoc] at script_eq
  obtain rfl := List.append_cancel_left script_eq
  have positive : ∀ cargo ∈ settled ++ behind, 0 < cargo.length := by
    intro cargo mem
    exact sends.valid.length_pos (by simpa [or_assoc] using Or.inr (List.mem_append.mp mem))
  simp only [extent_append] at near
  obtain ⟨covered, rest, segments_eq, carriesRest, acknowledged_eq⟩ :=
    Flight.acknowledge_of_carries carries positive (by simp only [extent_append]; omega) now
      connection.roundTrip
  rw [← extent_append] at carriesRest acknowledged_eq
  exact ⟨covered, rest, segments_eq, acknowledged_eq, behind, rfl, carriesRest⟩

theorem acknowledged (sends : connection.Sends room script acked) {sendWindow : Nat}
    {rest : List Outstanding} {front : List Cargo} (roundTrip : RoundTrip)
    (window_le : sendWindow ≤ room) (isFront : front <+: script) (later : acked <+: front)
    (carries : ∃ behind, script = front ++ behind ∧
      Flight.Carries connection.isn connection.config.receiveWindow (extent front) rest behind)
    (running : connection.phase ≠ .terminated) :
    (connection.acknowledged sendWindow rest roundTrip script front).Sends room script front where
  valid := sends.valid
  acked_isPrefix := isFront
  next_eq := sends.next_eq
  unacked_eq := rfl
  carries _ := carries
  settled terminated := by
    obtain ⟨behind, script_eq, carries⟩ := carries
    rw [Connection.acknowledged] at terminated
    simp only at terminated
    split at terminated
    · next done =>
        have : behind = [] := by simpa [done.2] using script_eq
        exact carries.nil_iff.mpr this
    · exact absurd terminated running
  finSeq_eq := sends.finSeq_eq
  window_le := window_le
  fits before chunk behind split := by
    have := sends.fits before chunk behind split
    have := extent_le_of_isPrefix later
    omega

/-- An acknowledgment of a front of the script is news or old, and fails only in the estimates. -/
theorem takeAck (sends : connection.Sends room script acked) (near : extent script < 2147483648)
    (running : connection.phase ≠ .terminated)
    (moved : acked = script → connection.phase.afterFinAcked = connection.phase)
    {front : List Cargo} (isFront : front <+: script) {advertised : UInt16}
    (advertised_le : advertised.toNat ≤ room) (now : Nat) :
    ∃ settled rest acked', connection.flight.segments = settled ++ rest ∧
      (acked' = acked ∨ acked' = front) ∧ acked <+: acked' ∧ front <+: acked' ∧
      connection.takeAck (connection.isn.advance (extent front)) advertised now =
        ((Flight.samples settled now).foldlM RoundTrip.observe connection.roundTrip).map
          (connection.acknowledged (connection.granted advertised) rest · script acked') ∧
      ∀ roundTrip,
        (connection.acknowledged (connection.granted advertised) rest roundTrip script
          acked').Sends room script acked' := by
  have front_le := extent_le_of_isPrefix isFront
  have acked_le := extent_le_of_isPrefix sends.acked_isPrefix
  have granted_le : connection.granted advertised ≤ room := by
    rw [granted]
    omega
  have sent : ¬ (connection.isn.advance (extent front)).After connection.sendNext := by
    rw [sends.next_eq, SeqNum.after_advance_iff _ (by omega) (by omega)]
    omega
  have news_iff : (connection.isn.advance (extent front)).After connection.sendUnacked ↔
      extent acked < extent front := by
    rw [sends.unacked_eq, SeqNum.after_advance_iff _ (by omega) (by omega)]
  rw [Connection.takeAck, if_neg sent]
  simp only [news_iff]
  by_cases news : extent acked < extent front
  · have later := isPrefix_of_extent_lt sends.acked_isPrefix isFront news
    obtain ⟨settled, rest, segments_eq, acknowledged_eq, carries⟩ :=
      sends.acknowledge near running isFront later now
    have sends' (roundTrip : RoundTrip) :=
      sends.acknowledged roundTrip granted_le isFront later carries running
    refine ⟨settled, rest, front, segments_eq, Or.inr rfl, later, List.prefix_refl front, ?_,
      sends'⟩
    rw [if_pos news, acknowledged_eq]
    cases (Flight.samples settled now).foldlM RoundTrip.observe connection.roundTrip with
    | error fault => rfl
    | ok roundTrip =>
        -- the test for the own FIN reads only the counters, which the note of it leaves alone
        have finAcked_iff := (sends' roundTrip).finAcked_iff near
        refine congrArg Except.ok ?_
        by_cases done : .fin ∈ script ∧ front = script
        · refine (if_pos (finAcked_iff.mpr done)).trans ?_
          simp only [Connection.acknowledged, if_pos done]
        · refine (if_neg (mt finAcked_iff.mp done)).trans ?_
          simp only [Connection.acknowledged, if_neg done]
  · have old : front <+: acked := by
      rcases List.prefix_or_prefix_of_prefix isFront sends.acked_isPrefix with isPrefix | isPrefix
      · exact isPrefix
      · have := extent_le_of_isPrefix isPrefix
        rw [sends.valid.eq_of_extent_eq isFront sends.acked_isPrefix (by omega)]
    obtain ⟨outstanding, script_eq, carries⟩ := sends.carries running
    have unchanged (roundTrip : RoundTrip) :
        connection.acknowledged (connection.granted advertised) connection.flight.segments
            roundTrip script acked =
          { connection with sendWindow := connection.granted advertised, roundTrip } := by
      have phase_eq : (if .fin ∈ script ∧ acked = script then connection.phase.afterFinAcked
          else connection.phase) = connection.phase := by
        split
        · next done => exact moved done.2
        · rfl
      rw [Connection.acknowledged, phase_eq, ← sends.unacked_eq]
    refine ⟨[], connection.flight.segments, acked, rfl, Or.inl rfl, List.prefix_refl acked, old, ?_,
      fun roundTrip => sends.acknowledged roundTrip granted_le sends.acked_isPrefix
        (List.prefix_refl acked) ⟨outstanding, script_eq, carries⟩ running⟩
    rw [if_neg news]
    exact congrArg Except.ok (unchanged connection.roundTrip).symm

end Sends
end Connection
end ReliableTransport
