import ReliableTransport.Connection.Phase
import ReliableTransport.Proofs.Script

/-!
# Ledgers

The ledger of an end records what it wrote, what it knows that the peer received, and what it
received from the peer.  The phase of a connection is a function of whether the two FINs are in
there.
-/

namespace ReliableTransport

open Script

/-- What one end wrote, knows to be received, and received. -/
structure Ledger where
  /-- What the end wrote. -/
  script : List Cargo
  /-- The front of the script that the peer acknowledged. -/
  acked : List Cargo
  /-- The front of the peer's script that was received. -/
  received : List Cargo

namespace Phase

/-- The ledgers that an end can have in a phase. -/
def Admits : Phase → Ledger → Prop
  | closed, ledger => ledger.script = [] ∧ ledger.received = []
  | synSent, ledger => ledger.script = [.syn false] ∧ ledger.received = []
  | synReceived, ledger =>
      ledger.script = [.syn true] ∧ ledger.received ≠ [] ∧ .fin ∉ ledger.received
  | established, ledger =>
      ledger.script ≠ [] ∧ .fin ∉ ledger.script ∧ ledger.received ≠ [] ∧ .fin ∉ ledger.received
  | finWait1, ledger =>
      .fin ∈ ledger.script ∧ ledger.acked ≠ ledger.script ∧ ledger.received ≠ [] ∧
        .fin ∉ ledger.received
  | finWait2, ledger =>
      .fin ∈ ledger.script ∧ ledger.acked = ledger.script ∧ ledger.received ≠ [] ∧
        .fin ∉ ledger.received
  | closeWait, ledger =>
      ledger.script ≠ [] ∧ .fin ∉ ledger.script ∧ ledger.received ≠ [] ∧ .fin ∈ ledger.received
  | lastAck, ledger | closing, ledger =>
      .fin ∈ ledger.script ∧ ledger.acked ≠ ledger.script ∧ ledger.received ≠ [] ∧
        .fin ∈ ledger.received
  | terminated, _ => True

/-- Agreed sequence numbers are left behind only at the end. -/
theorem afterFinAcked_synchronized {phase : Phase} (synchronized : phase.isSynchronized) :
    phase.afterFinAcked = terminated ∨ phase.afterFinAcked.isSynchronized := by
  cases phase with
  | closing | lastAck => exact Or.inl rfl
  | established | finWait1 | finWait2 | closeWait => exact Or.inr rfl
  | closed | synSent | synReceived | terminated => cases synchronized

theorem synchronized_of_sending {phase : Phase} (sending : phase.isSending) :
    phase.isSynchronized := by
  cases phase <;> first | rfl | cases sending

theorem ne_terminated_of_synchronized {phase : Phase} (synchronized : phase.isSynchronized) :
    phase ≠ terminated := by
  rintro rfl
  cases synchronized

theorem eq_lastAck_of_afterFinAcked {phase : Phase} (last : phase.afterFinAcked = lastAck) :
    phase = lastAck := by
  cases phase <;> cases last

theorem afterPeerFin_ne_lastAck (phase : Phase) : phase.afterPeerFin? ≠ some lastAck := by
  cases phase <;> simp [afterPeerFin?]

namespace Admits

variable {phase : Phase} {ledger : Ledger}

theorem received_ne (admits : phase.Admits ledger) (synchronized : phase.isSynchronized) :
    ledger.received ≠ [] := by
  cases phase with
  | established | finWait1 | finWait2 | closeWait | lastAck | closing => exact admits.2.2.1
  | closed | synSent | synReceived | terminated => cases synchronized

theorem script_ne (admits : phase.Admits ledger) (synchronized : phase.isSynchronized) :
    ledger.script ≠ [] := by
  cases phase with
  | established | closeWait => exact admits.1
  | finWait1 | finWait2 | lastAck | closing => exact List.ne_nil_of_mem admits.1
  | closed | synSent | synReceived | terminated => cases synchronized

theorem received_ne_of_mem (admits : phase.Admits ledger) (running : phase ≠ terminated)
    {cargo : Cargo} (mem : cargo ∈ ledger.script) (acks : cargo.flags.ack = true) :
    ledger.received ≠ [] := by
  cases phase with
  | closed => simp [admits.1] at mem
  | synSent =>
      rw [admits.1, List.mem_singleton] at mem
      subst mem
      cases acks
  | synReceived => exact admits.2.1
  | established | finWait1 | finWait2 | closeWait | lastAck | closing => exact admits.2.2.1
  | terminated => exact absurd rfl running

/-- Data is written where the own direction is open. -/
theorem write (admits : phase.Admits ledger) (sending : phase.isSending) (chunk : Bytes) :
    phase.Admits { ledger with script := ledger.script ++ [.data chunk] } := by
  cases phase with
  | established | closeWait => exact ⟨by simp, by simpa using admits.2.1, admits.2.2⟩
  | closed | synSent | synReceived | finWait1 | finWait2 | lastAck | closing | terminated =>
      cases sending

/-- The FIN is written where the own direction is open. -/
theorem writeFin (admits : phase.Admits ledger) (acked_isPrefix : ledger.acked <+: ledger.script)
    (opened : phase = synReceived ∨ phase = established ∨ phase = closeWait) :
    .fin ∉ ledger.script ∧ ledger.script ≠ [] ∧ ledger.received ≠ [] ∧
      (if phase = closeWait then lastAck else finWait1).Admits
        { ledger with script := ledger.script ++ [.fin] } := by
  have unacked : ledger.acked ≠ ledger.script ++ [.fin] := by
    intro same
    have := acked_isPrefix.length_le
    rw [same, List.length_append, List.length_singleton] at this
    omega
  rcases opened with rfl | rfl | rfl
  · obtain ⟨script_eq, received_ne, unfinished⟩ := admits
    exact ⟨by simp [script_eq], by simp [script_eq], received_ne, by simp, unacked, received_ne,
      unfinished⟩
  · exact ⟨admits.2.1, admits.1, admits.2.2.1, by simp, unacked, admits.2.2⟩
  · exact ⟨admits.2.1, admits.1, admits.2.2.1, by simp, unacked, admits.2.2⟩

theorem afterFinAcked_of_acked (admits : phase.Admits ledger)
    (acked : ledger.acked = ledger.script) : phase.afterFinAcked = phase := by
  cases phase with
  | finWait1 | lastAck | closing => exact absurd acked admits.2.1
  | closed | synSent | synReceived | established | finWait2 | closeWait | terminated => rfl

theorem fin_mem_of_afterFinAcked (admits : phase.Admits ledger) (running : phase ≠ terminated)
    (ended : phase.afterFinAcked = terminated) : .fin ∈ ledger.received := by
  cases phase with
  | closing | lastAck => exact admits.2.2.2
  | terminated => exact absurd rfl running
  | closed | synSent | synReceived | established | finWait1 | finWait2 | closeWait => cases ended

theorem acked_of_afterPeerFin (admits : phase.Admits ledger)
    (ended : phase.afterPeerFin? = some terminated) :
    .fin ∈ ledger.script ∧ ledger.acked = ledger.script := by
  cases phase with
  | finWait2 => exact ⟨admits.1, admits.2.1⟩
  | established | finWait1 => cases ended
  | closed | synSent | synReceived | closeWait | lastAck | closing | terminated => cases ended

theorem fin_not_mem_of_afterPeerFin (admits : phase.Admits ledger) {next : Phase}
    (moves : phase.afterPeerFin? = some next) : .fin ∉ ledger.received := by
  cases phase with
  | established | finWait1 | finWait2 => exact admits.2.2.2
  | closed | synSent | synReceived | closeWait | lastAck | closing | terminated => cases moves

theorem acked_ne (admits : phase.Admits ledger) (synchronized : phase.isSynchronized)
    (written : .fin ∈ ledger.script) (finished : .fin ∈ ledger.received) :
    ledger.acked ≠ ledger.script := by
  cases phase with
  | closing | lastAck => exact admits.2.1
  | established | closeWait => exact absurd written admits.2.1
  | finWait1 | finWait2 => exact absurd finished admits.2.2.2
  | closed | synSent | synReceived | terminated => cases synchronized

/-- A later acknowledgment moves the phase if it covers the FIN. -/
theorem acknowledge (admits : phase.Admits ledger) {acked : List Cargo}
    (later : ledger.acked <+: acked) (isFront : acked <+: ledger.script) :
    (if .fin ∈ ledger.script ∧ acked = ledger.script then phase.afterFinAcked else phase).Admits
      { ledger with acked } := by
  cases phase with
  | closed | synSent | synReceived | established | closeWait =>
      simp only [afterFinAcked, ite_self]
      exact admits
  | terminated =>
      simp only [afterFinAcked, ite_self]
      trivial
  | finWait2 =>
      obtain ⟨written, acked_eq, received_ne, unfinished⟩ := admits
      rw [acked_eq] at later
      simp only [afterFinAcked, ite_self]
      exact ⟨written, later.eq_of_length_le isFront.length_le |>.symm, received_ne, unfinished⟩
  | finWait1 =>
      obtain ⟨written, -, received_ne, unfinished⟩ := admits
      split
      · next done => exact ⟨written, done.2, received_ne, unfinished⟩
      · next pending =>
          exact ⟨written, fun acked_eq => pending ⟨written, acked_eq⟩, received_ne, unfinished⟩
  | lastAck | closing =>
      obtain ⟨written, -, received_ne, finished⟩ := admits
      split
      · trivial
      · next pending =>
          exact ⟨written, fun acked_eq => pending ⟨written, acked_eq⟩, received_ne, finished⟩

/-- Receiving data does not move the phase. -/
theorem receive (admits : phase.Admits ledger) (received_ne : ledger.received ≠ [])
    {received : List Cargo} (later : ledger.received <+: received)
    (fin_iff : .fin ∈ received ↔ .fin ∈ ledger.received) :
    phase.Admits { ledger with received } := by
  have received_ne' : received ≠ [] := by
    rintro rfl
    exact received_ne (List.prefix_nil.mp later)
  cases phase with
  | closed | synSent => exact absurd admits.2 received_ne
  | terminated => trivial
  | synReceived => exact ⟨admits.1, received_ne', by simpa [fin_iff] using admits.2.2⟩
  | established | finWait1 | finWait2 | closeWait | lastAck | closing =>
      exact ⟨admits.1, admits.2.1, received_ne', by simpa [fin_iff] using admits.2.2.2⟩

theorem receiveFin (admits : phase.Admits ledger) (synchronized : phase.isSynchronized)
    (unfinished : .fin ∉ ledger.received) :
    ∃ phase', phase.afterPeerFin? = some phase' ∧
      phase'.Admits { ledger with received := ledger.received ++ [.fin] } := by
  cases phase with
  | closed | synSent | synReceived | terminated => cases synchronized
  | closeWait | lastAck | closing => exact absurd admits.2.2.2 unfinished
  | established => exact ⟨closeWait, rfl, admits.1, admits.2.1, by simp, by simp⟩
  | finWait1 => exact ⟨closing, rfl, admits.1, admits.2.1, by simp, by simp⟩
  | finWait2 => exact ⟨terminated, rfl, trivial⟩

end Admits
end Phase
end ReliableTransport
