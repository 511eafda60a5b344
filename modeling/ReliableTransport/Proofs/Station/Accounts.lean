import ReliableTransport.Proofs.Station.Awakening

/-!
# What acknowledgments count

From the handshake on, the next expected position lies behind exactly what the application was told.
So every acknowledgment carries the position behind a front of what was told until then.  A FIN that
arrives again behind the peer's FIN is the one exception: it is taken, but not told.
-/

namespace ReliableTransport

namespace Segment

/-- If a byte string is a segment that acknowledges something, it acknowledges exactly a front of
some events. -/
def Backed (irs : SeqNum) (events : List AppEvent) (raw : Bytes) : Prop :=
  ∃ front, front <+: events ∧ Confirms raw (AppEvent.reach irs front)

variable {irs : SeqNum} {events more : List AppEvent} {raw : Bytes}

theorem Backed.mono (backed : Backed irs events raw) (grows : events <+: more) :
    Backed irs more raw := by
  obtain ⟨front, front_prefix, confirms⟩ := backed
  exact ⟨front, front_prefix.trans grows, confirms⟩

theorem IsPlainSyn.backed (plain : IsPlainSyn raw) (irs : SeqNum) (events : List AppEvent) :
    Backed irs events raw := by
  refine ⟨[], List.nil_prefix, fun segment decoded acks => ?_⟩
  rw [plain.flags_eq decoded] at acks
  cases acks

end Segment

/-- A FIN arrives at the next expected position, or behind a payload that covers it, although the
peer's FIN was taken before. -/
def Connection.Overruns (connection : Connection) (raw : Bytes) : Prop :=
  connection.phase.peerFinished = true ∧ ∃ segment, Segment.decode raw = .ok segment ∧
    segment.header.flags.fin = true ∧ segment.Brings connection.recvNext

namespace Station

variable {config : Config} {isn irs : SeqNum} {station after : Station} {now : Nat}

/-- An end that knows the initial position of its peer acknowledges what it told the application. -/
structure Accounts (irs : SeqNum) (station : Station) : Prop where
  /-- The handshake was begun. -/
  opened : station.connection.phase.isOpening = false
  /-- Exactly what was told is taken. -/
  next_eq : station.connection.recvNext = AppEvent.reach irs station.events
  /-- Each acknowledgment counts a front of what was told. -/
  backed : ∀ raw ∈ station.sent, Segment.Backed irs station.events raw

namespace Accounts

/-- An end keeps its accounts, unless a FIN arrives again. -/
theorem undergo (accounts : station.Accounts irs) (arises : Arises config isn station)
    {occurrence : Occurrence} (done : station.undergo occurrence now = .ok after)
    (single : ∀ raw, occurrence = .operate (.receive raw) → ¬ station.connection.Overruns raw) :
    after.Accounts irs := by
  have next_eq : after.connection.recvNext = AppEvent.reach irs after.events := by
    cases undergo_learns done with
    | nothing window_eq events_eq _ _ =>
        rw [events_eq, Connection.recvNext, window_eq]
        exact accounts.next_eq
    | handshake _ _ meets _ => exact absurd meets.opening (by simp [accounts.opened])
    | @content raw segment run finished occurrence_eq decoded _ _ absorbs events_eq =>
        -- a FIN that is taken is the first one
        have told : (finished && !station.connection.phase.peerFinished) = finished := by
          cases finished with
          | false => rfl
          | true =>
              rw [Bool.true_and, Bool.not_eq_true', ← Bool.not_eq_true]
              exact fun before => single raw occurrence_eq ⟨before, segment, decoded,
                absorbs.flagged rfl, absorbs.cause arises.attentive.gap (Or.inr rfl)⟩
        rw [events_eq, told, AppEvent.reach_append_tidings, absorbs.next_eq, accounts.next_eq]
  refine ⟨isOpening_of_undergo accounts.opened done, next_eq, fun raw mem => ?_⟩
  obtain ⟨queued, sent_eq, confirms⟩ := undergo_answers done
  rw [sent_eq] at mem
  rcases List.mem_append.mp mem with mem | mem
  · exact (accounts.backed raw mem).mono (events_isPrefix_of_undergo done)
  · exact ⟨after.events, List.prefix_refl _, next_eq ▸ confirms raw mem⟩

/-- As long as nothing arrives, an end keeps its accounts. -/
theorem becomes (accounts : station.Accounts irs) (arises : Arises config isn station)
    (becomes : Becomes [] station after) : after.Accounts irs := by
  induction becomes with
  | refl => exact accounts
  | tail past moves ih =>
      obtain ⟨occurrence, now, done, arrives⟩ := moves
      exact ih.undergo (Becomes.arises past arises) done
        fun raw occurrence_eq => absurd (arrives raw occurrence_eq) List.not_mem_nil

end Accounts

theorem Mute.accounts (mute : station.Mute) (arises : Arises config isn station) {raw : Bytes}
    {segment : Segment} (done : station.undergo (.operate (.receive raw)) now = .ok after)
    (meets : station.connection.Meets segment after.connection) :
    after.Accounts segment.header.seq := by
  have untold : after.events = [] := by
    rw [← arises.attentive.untold meets.opening, events, events, meets.events_eq]
    obtain ⟨connection, -, rfl⟩ := exists_of_undergo_operate done
    rfl
  have next_eq : after.connection.recvNext = AppEvent.reach segment.header.seq after.events := by
    rw [meets.recvNext_eq, untold]
    rfl
  refine ⟨meets.isOpening_after, next_eq, fun raw mem => ?_⟩
  obtain ⟨queued, sent_eq, confirms⟩ := undergo_answers done
  rw [sent_eq] at mem
  rcases List.mem_append.mp mem with mem | mem
  · exact (mute.plain raw mem).backed _ _
  · exact ⟨after.events, List.prefix_refl _, next_eq ▸ confirms raw mem⟩

theorem Mute.accounts_of_undergo (mute : station.Mute) (arises : Arises config isn station)
    {occurrence : Occurrence} (done : station.undergo occurrence now = .ok after) :
    after.Mute ∨ ∃ raw segment, occurrence = .operate (.receive raw) ∧
      Segment.decode raw = .ok segment ∧ segment.header.flags.syn = true ∧
      after.Accounts segment.header.seq := by
  cases mute.undergo arises done with
  | mute mute => exact Or.inl mute
  | @meets raw segment occurrence_eq decoded meets how =>
      have flagged : segment.header.flags.syn = true := by
        rcases how with ⟨flags_eq, -⟩ | ⟨answers, -⟩
        · rw [flags_eq]
        · exact answers.1
      exact Or.inr ⟨raw, segment, occurrence_eq, decoded, flagged,
        mute.accounts arises (occurrence_eq ▸ done) meets⟩

end Station
end ReliableTransport
