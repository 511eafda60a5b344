import ReliableTransport.Connection.Receive
import ReliableTransport.Proofs.Fault
import ReliableTransport.Proofs.RoundTrip

/-!
# The estimates of a connection

Whatever a connection receives or does, its estimates stay within the time that went by, and so no
length of time leaves its range when it receives something.
-/

namespace ReliableTransport

open Fault

theorem Flags.span_timely (flags : Flags) (length : Nat) :
    Timely (fun _ => True) (flags.span length) := by
  simp only [span]
  split
  · exact .ok trivial
  · exact .error (by simp)

theorem Flight.push_ne_error (flight : Flight) (raw : Bytes) (seq : SeqNum) (length now : Nat) :
    flight.push raw seq length now ≠ .error .duration := by
  rw [push]
  split
  · simp
  split
  · simp
  · simp

/-- What sending and acknowledging segments at some time keep true of those that are outstanding and
of the estimates. -/
structure Lasting (now : Nat) (holds : Flight → RoundTrip → Prop) : Prop where
  /-- A segment is sent. -/
  push : ∀ {flight after estimate} {raw : Bytes} {seq : SeqNum} {length : Nat},
    holds flight estimate → flight.push raw seq length now = .ok after → holds after estimate
  /-- Segments are acknowledged, and no length of time leaves its range. -/
  acknowledge : ∀ {flight estimate} (ack : SeqNum), holds flight estimate →
    Timely (fun taken => holds taken.2.1 taken.2.2) (flight.acknowledge ack now estimate)
  /-- Nothing is outstanding any more. -/
  clear : ∀ {flight estimate}, holds flight estimate → holds Flight.empty estimate

theorem Flight.acknowledge_timely {flight : Flight} {estimate : RoundTrip} {limit now : Nat}
    (within : estimate.Within limit) (representable : limit * 16 ≤ Duration.limit)
    (now_le : now ≤ limit) (ack : SeqNum) :
    Timely (fun taken => taken.2.2.Within limit) (flight.acknowledge ack now estimate) := by
  have samples_le : ∀ sample ∈ samples (flight.covered ack) now, sample ≤ limit := by
    intro sample mem
    obtain ⟨segment, -, rfl⟩ := List.mem_map.mp mem
    omega
  obtain ⟨after, folded, within'⟩ := within.foldlM_observe representable samples_le
  rw [acknowledge, folded]
  change Timely _ (if _ then _ else _)
  split
  · exact .error (by simp)
  · exact .ok within'

/-- Estimates stay within the time that went by. -/
theorem Lasting.within {limit now : Nat} (representable : limit * 16 ≤ Duration.limit)
    (now_le : now ≤ limit) : Lasting now fun _ estimate => estimate.Within limit where
  push within _ := within
  acknowledge ack within := Flight.acknowledge_timely within representable now_le ack
  clear within := within

theorem ReceiveWindow.receive_timely (window : ReceiveWindow) (seq : SeqNum) (payload : Bytes) :
    Timely (fun _ => True) (window.receive seq payload) := by
  have counted : Timely (fun _ => True) (countWord payload.length) := by
    rw [countWord]
    split
    · exact .ok trivial
    · exact .error (by simp)
  refine counted.bind fun length _ => ?_
  split
  · exact .ok trivial
  split
  · split
    · exact .error (by simp)
    · exact .ok trivial
  split
  · exact .ok trivial
  · exact .ok trivial

namespace Connection

variable {connection : Connection} {now : Nat} {holds : Flight → RoundTrip → Prop}

/-- Something holds of what is outstanding and of the estimates. -/
abbrev Has (connection : Connection) (holds : Flight → RoundTrip → Prop) : Prop :=
  holds connection.flight connection.roundTrip

theorem transmit_timely (lasting : Lasting now holds) (held : connection.Has holds) (flags : Flags)
    (payload : Bytes) : Timely (·.Has holds) (connection.transmit flags payload now) := by
  refine (flags.span_timely payload.length).bind fun length _ => ?_
  split
  · exact .ok held
  · have pushed : Timely (fun flight => holds flight connection.roundTrip)
        (connection.flight.push (Segment.encode (connection.header flags) payload)
          connection.sendNext length now) :=
      ⟨Flight.push_ne_error _ _ _ _ _, fun _ pushed => lasting.push held pushed⟩
    exact pushed.bind fun flight held => .ok held

theorem sendChunk_timely (lasting : Lasting now holds) (held : connection.Has holds)
    (pending : Bytes) : Timely (·.2.Has holds) (connection.sendChunk pending now) := by
  rw [sendChunk]
  split
  · exact .ok held
  · exact (transmit_timely lasting held _ _).bind fun _ held => .ok held

theorem openActive_timely (lasting : Lasting now holds) (held : connection.Has holds) :
    Timely (·.Has holds) (connection.openActive now) := by
  rw [openActive]
  split
  · exact (transmit_timely lasting held _ _).bind fun _ held => .ok held
  · exact .ok held

theorem close_timely (lasting : Lasting now holds) (held : connection.Has holds) :
    Timely (·.Has holds) (connection.close now) := by
  have finish (phase : Phase) : Timely (·.Has holds)
      (connection.sendFin now >>= fun fin => pure { fin with phase }) := by
    have unfinished : { connection with finSeq := some connection.sendNext }.Has holds := held
    exact (transmit_timely lasting unfinished _ _).bind fun _ held => .ok held
  rw [close]
  split
  · exact .ok (lasting.clear held)
  · exact .ok (lasting.clear held)
  · exact finish .finWait1
  · exact finish .finWait1
  · exact finish .lastAck
  all_goals exact .ok held

theorem takeAck_timely (lasting : Lasting now holds) (held : connection.Has holds) (ack : SeqNum)
    (advertised : UInt16) : Timely (·.Has holds) (connection.takeAck ack advertised now) := by
  rw [takeAck]
  split
  · exact .ok held
  simp only
  split
  · refine (lasting.acknowledge ack held).bind fun taken held => ?_
    refine .ok ?_
    simp only [noteFinAcked]
    split
    · exact held
    · exact held
  · exact .ok held

theorem takePayload_timely (held : connection.Has holds) (seq : SeqNum) (payload : Bytes) :
    Timely (·.2.Has holds) (connection.takePayload seq payload) := by
  refine (connection.window.receive_timely seq payload).bind fun (arrival, window) _ => ?_
  cases arrival with
  | stale => exact .ok held
  | outOfWindow => exact .ok held
  | accepted delivered => exact .ok held

theorem has_takePeerFin (held : connection.Has holds) : connection.takePeerFin.Has holds := by
  rw [takePeerFin]
  split
  · exact held
  · exact held

/-- The answer to content does not concern the estimates. -/
theorem answer_timely (held : connection.Has holds) (segment : Segment)
    (inWindow hasPayload : Bool) :
    Timely (·.Has holds) (do
      if !inWindow then
        return connection
      else if segment.header.flags.fin then
        let length ← ({} : Flags).span segment.payload.length
        let connection :=
          if segment.header.seq.advance length = connection.recvNext then connection.takePeerFin
          else connection
        return connection.sendAck
      else
        return if hasPayload then connection.sendAck else connection) := by
  split
  · exact .ok held
  split
  · refine (Flags.span_timely {} segment.payload.length).bind fun length _ => .ok ?_
    simp only [sendAck]
    split
    · exact has_takePeerFin held
    · exact held
  · refine .ok ?_
    split
    · exact held
    · exact held

theorem takeContent_timely (held : connection.Has holds) (segment : Segment) :
    Timely (·.Has holds) (connection.takeContent segment) := by
  rw [takeContent]
  simp only
  split
  · refine (takePayload_timely held _ _).bind fun (inWindow, after) held => ?_
    exact answer_timely held segment inWindow true
  · exact answer_timely held segment true false

theorem takeSynchronized_timely (lasting : Lasting now holds) (held : connection.Has holds)
    (segment : Segment) : Timely (·.Has holds) (connection.takeSynchronized segment now) := by
  have rest (middle : Connection) (held : middle.Has holds) :
      Timely (·.Has holds)
        (if segment.header.flags.ack && middle.isTerminated then pure middle
          else middle.takeContent segment) := by
    split
    · exact .ok held
    · exact takeContent_timely held segment
  rw [takeSynchronized]
  simp only
  split
  · refine .ok ?_
    split
    · exact held
    · exact held
  split
  · exact (takeAck_timely lasting held _ _).bind rest
  · exact rest connection held

theorem takeClosed_timely (lasting : Lasting now holds) (held : connection.Has holds)
    (segment : Segment) : Timely (·.Has holds) (connection.takeClosed segment now) := by
  rw [takeClosed]
  simp only
  split
  · let opened := connection.takePeerSyn segment.header.seq
    let granted : Connection :=
      { opened with sendWindow := opened.granted segment.header.window }
    have granted_held : granted.Has holds := held
    exact (transmit_timely lasting granted_held _ _).bind fun _ held => .ok held
  · exact .ok held

theorem takeSynSent_timely (lasting : Lasting now holds) (held : connection.Has holds)
    (segment : Segment) : Timely (·.Has holds) (connection.takeSynSent segment now) := by
  rw [takeSynSent]
  simp only
  split
  · have opened : (connection.takePeerSyn segment.header.seq).Has holds := held
    exact (takeAck_timely lasting opened _ _).bind fun _ held => .ok held
  · exact .ok held

/-- Whatever arrives, what sending and acknowledging keep true stays true, and no length of time
leaves its range. -/
theorem receive_timely (lasting : Lasting now holds) (held : connection.Has holds) (raw : Bytes) :
    Timely (·.Has holds) (connection.receive raw now) := by
  rw [receive]
  split
  · exact .ok held
  · next segment _ =>
      rw [takeSegment]
      split
      · exact takeClosed_timely lasting held segment
      · exact takeSynSent_timely lasting held segment
      · rw [takeSynReceived]
        have established : { connection with phase := Phase.established }.Has holds := held
        split
        · exact takeSynchronized_timely lasting established segment
        · exact .ok held
      all_goals first
        | exact takeSynchronized_timely lasting held segment
        | exact .ok held

/-- An expired deadline doubles the timeout or leaves the estimates alone. -/
theorem roundTrip_expire {after : Connection} {result : Except Failure Unit}
    (done : connection.expire now = .ok (result, after)) :
    after.roundTrip = connection.roundTrip ∨
      connection.roundTrip.backOff = .ok after.roundTrip := by
  rw [expire] at done
  split at done
  · obtain ⟨-, rfl⟩ := Prod.mk.inj (Except.ok.inj done)
    exact Or.inl rfl
  split at done
  · obtain ⟨-, rfl⟩ := Prod.mk.inj (Except.ok.inj done)
    exact Or.inl rfl
  obtain ⟨resent, resend_eq, same⟩ := exists_of_bind_eq_ok done
  obtain ⟨-, rfl⟩ := Prod.mk.inj (Except.ok.inj same)
  obtain ⟨flight, -, rest⟩ := exists_of_bind_eq_ok resend_eq
  split at rest
  · obtain ⟨roundTrip, doubled, updated⟩ := exists_of_bind_eq_ok rest
    obtain rfl := Except.ok.inj updated
    exact Or.inr doubled
  · obtain rfl := Except.ok.inj rest
    exact Or.inl rfl

/-- The estimates stay in range when the deadline expires. -/
theorem expire_within {limit : Nat} (within : connection.roundTrip.Within limit)
    {after : Connection} {result : Except Failure Unit}
    (done : connection.expire now = .ok (result, after)) : after.roundTrip.Within limit := by
  rcases roundTrip_expire done with same | doubled
  · rwa [same]
  · exact within.backOff doubled

end Connection
end ReliableTransport
