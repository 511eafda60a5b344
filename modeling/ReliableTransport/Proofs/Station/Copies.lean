import Mathlib.Data.List.Count
import Mathlib.Data.List.Nodup
import Mathlib.Data.List.Range
import ReliableTransport.Proofs.Connection.Dispatch
import ReliableTransport.Proofs.FlightOrder
import ReliableTransport.Proofs.Station.Attention

/-!
# How often a segment is sent

Every segment that an end sends is an acknowledgment or a copy of an entry of its script.  The
number of copies of an outstanding entry is one more than the number of its resends, whatever the
ages of the entries that are outstanding together and however many of them were acknowledged at a
time.  So no entry is sent more often than the configured limit permits.
-/

namespace ReliableTransport

open Fault Script

/-- A sent segment is an acknowledgment, or a copy of the entry of a script with some number.
Copies differ in nothing but the acknowledgment number. -/
def Traces (isn : SeqNum) (window : UInt16) (script : List Cargo) (raw : Bytes) :
    Option Nat → Prop
  | none => ∃ seq ack, raw = Segment.acknowledgment seq ack window
  | some number => ∃ cargo ack, script[number]? = some cargo ∧
      raw = cargo.encode (isn.advance (extent (script.take number))) ack window

/-- Every sent segment is traced, and the entries from some number on are outstanding, each with one
copy more than it was resent.  No entry has more copies than permitted. -/
structure Tally (isn : SeqNum) (window : UInt16) (limit : Nat) (script : List Cargo)
    (segments : List Outstanding) (sent : List Bytes) (origins : List (Option Nat)) (base : Nat) :
    Prop where
  /-- Every sent segment is traced. -/
  traces : List.Forall₂ (Traces isn window script) sent origins
  /-- The last entries are outstanding. -/
  base_eq : base + segments.length = script.length
  /-- An outstanding entry has one copy more than it was resent. -/
  count_eq : ∀ index segment, segments[index]? = some segment →
    origins.count (some (base + index)) = segment.retries + 1
  /-- No entry has more copies than permitted. -/
  count_le : ∀ number, origins.count (some number) ≤ limit + 1

namespace Traces

variable {isn : SeqNum} {window : UInt16} {script later : List Cargo} {raw : Bytes}
  {origin : Option Nat}

theorem lt_length {number : Nat} (traces : Traces isn window script raw (some number)) :
    number < script.length := by
  obtain ⟨cargo, ack, written, -⟩ := traces
  exact (List.getElem?_eq_some_iff.mp written).1

theorem mono (traces : Traces isn window script raw origin) (isFront : script <+: later) :
    Traces isn window later raw origin := by
  cases origin with
  | none => exact traces
  | some number =>
      have inside := traces.lt_length
      obtain ⟨cargo, ack, written, raw_eq⟩ := traces
      obtain ⟨rest, rfl⟩ := isFront
      refine ⟨cargo, ack, ?_, ?_⟩
      · rwa [List.getElem?_append_left inside]
      · rwa [List.take_append_of_le_length (by omega)]

end Traces

namespace Flight.Carries

variable {isn : SeqNum} {window : UInt16} {position : Nat} {segments : List Outstanding}
  {rest : List Cargo}

theorem length_eq (carries : Carries isn window position segments rest) :
    segments.length = rest.length := by
  induction carries with
  | nil => rfl
  | cons _ _ ih => rw [List.length_cons, List.length_cons, ih]

theorem traces_again (carries : Carries isn window position segments rest) (now : Nat)
    (ack : SeqNum) {front : List Cargo} (front_eq : extent front = position) :
    List.Forall₂ (Traces isn window (front ++ rest))
      ((segments.map (·.again now ack)).map (·.raw))
      ((List.range' front.length segments.length).map some) := by
  induction carries generalizing front with
  | nil => exact .nil
  | @cons position segment segments cargo rest head tail ih =>
      have front_eq' : extent (front ++ [cargo]) = position + cargo.length := by simp [front_eq]
      have others := ih front_eq'
      rw [List.append_assoc, List.singleton_append, List.length_append] at others
      refine .cons ⟨cargo, ack, by simp, ?_⟩ others
      rw [List.take_left, front_eq]
      exact head.raw_again now ack

end Flight.Carries

namespace Tally

variable {isn : SeqNum} {window : UInt16} {limit : Nat} {script : List Cargo}
  {segments : List Outstanding} {sent : List Bytes} {origins : List (Option Nat)} {base : Nat}

theorem nil : Tally isn window limit [] [] [] [] 0 where
  traces := .nil
  base_eq := rfl
  count_eq index segment found := by cases found
  count_le number := Nat.zero_le _

theorem count_eq_zero (tally : Tally isn window limit script segments sent origins base)
    {number : Nat} (unwritten : script.length ≤ number) : origins.count (some number) = 0 := by
  rw [List.count_eq_zero]
  intro mem
  obtain ⟨raw, -, traces⟩ := exists_of_mem_forall₂ tally.traces mem
  have written := traces.lt_length
  omega

theorem echo (tally : Tally isn window limit script segments sent origins base) (seq ack : SeqNum) :
    Tally isn window limit script segments (sent ++ [Segment.acknowledgment seq ack window])
      (origins ++ [none]) base where
  traces := List.rel_append tally.traces (.cons ⟨seq, ack, rfl⟩ .nil)
  base_eq := tally.base_eq
  count_eq index segment found := by simpa using tally.count_eq index segment found
  count_le number := by simpa using tally.count_le number

/-- Entries in front are not outstanding any more. -/
theorem drain (tally : Tally isn window limit script segments sent origins base)
    {rest : List Outstanding} (isSuffix : rest <:+ segments) :
    ∃ later, Tally isn window limit script rest sent origins later := by
  obtain ⟨gone, rfl⟩ := isSuffix
  have base_eq := tally.base_eq
  rw [List.length_append] at base_eq
  refine ⟨base + gone.length, tally.traces, by omega, fun index segment found => ?_, tally.count_le⟩
  rw [Nat.add_assoc]
  refine tally.count_eq (gone.length + index) segment ?_
  rwa [List.getElem?_append_right (Nat.le_add_right _ _), Nat.add_sub_cancel_left]

/-- The first copy of an entry is sent when it is written. -/
theorem launch (tally : Tally isn window limit script segments sent origins base)
    {fresh : Outstanding} {cargo : Cargo} (retries_eq : fresh.retries = 0)
    (carries : fresh.Carries isn window (extent script) cargo) :
    Tally isn window limit (script ++ [cargo]) (segments ++ [fresh]) (sent ++ [fresh.raw])
      (origins ++ [some script.length]) base where
  traces := by
    obtain ⟨ack, raw_eq⟩ := carries.raw_eq
    refine List.rel_append (tally.traces.imp fun raw origin traces =>
      traces.mono (List.prefix_append script [cargo])) (.cons ⟨cargo, ack, ?_, ?_⟩ .nil)
    · exact List.getElem?_concat_length
    · rwa [List.take_left]
  base_eq := by
    have base_eq := tally.base_eq
    rw [List.length_append, List.length_append]
    simp only [List.length_singleton]
    omega
  count_eq index segment found := by
    have base_eq := tally.base_eq
    rw [List.count_append]
    rcases Nat.lt_or_ge index segments.length with earlier | last
    · rw [List.getElem?_append_left earlier] at found
      rw [tally.count_eq index segment found, List.count_singleton]
      simp only [beq_iff_eq, Option.some.injEq]
      rw [if_neg (by omega)]
    · rw [List.getElem?_append_right last] at found
      obtain ⟨index_lt, rfl⟩ := List.getElem?_eq_some_iff.mp found
      simp only [List.length_singleton] at index_lt
      have number_eq : base + index = script.length := by omega
      rw [number_eq, tally.count_eq_zero (Nat.le_refl _), List.count_singleton_self]
      simp [retries_eq]
  count_le number := by
    rw [List.count_append]
    by_cases same : number = script.length
    · rw [same, tally.count_eq_zero (Nat.le_refl _), List.count_singleton_self]
      omega
    · rw [List.count_singleton]
      simp only [beq_iff_eq, Option.some.injEq]
      rw [if_neg (by omega)]
      exact tally.count_le number

theorem count_numbers (base length number : Nat) :
    ((List.range' base length).map some).count (some number) =
      if base ≤ number ∧ number < base + length then 1 else 0 := by
  rw [List.count_map_of_injective _ _ fun _ _ same => Option.some.inj same,
    (List.nodup_range' 1).count]
  simp only [List.mem_range'_1]

/-- Everything outstanding gets one copy more, if all of it was resent less often than permitted. -/
theorem resend (tally : Tally isn window limit script segments sent origins base)
    {acked rest : List Cargo} (script_eq : script = acked ++ rest)
    (carries : Flight.Carries isn window (extent acked) segments rest)
    (permitted : ∀ segment ∈ segments, segment.retries < limit) (now : Nat) (ack : SeqNum) :
    Tally isn window limit script (segments.map (·.again now ack))
      (sent ++ (segments.map (·.again now ack)).map (·.raw))
      (origins ++ (List.range' base segments.length).map some) base where
  traces := by
    have base_eq := tally.base_eq
    rw [script_eq, List.length_append, carries.length_eq] at base_eq
    obtain rfl : base = acked.length := by omega
    have again := carries.traces_again now ack rfl
    rw [← script_eq] at again
    exact List.rel_append tally.traces again
  base_eq := by rw [List.length_map, tally.base_eq]
  count_eq index segment found := by
    rw [List.getElem?_map, Option.map_eq_some_iff] at found
    obtain ⟨earlier, found, rfl⟩ := found
    have index_lt := (List.getElem?_eq_some_iff.mp found).1
    rw [List.count_append, tally.count_eq index earlier found, count_numbers, if_pos (by omega)]
    rfl
  count_le number := by
    rw [List.count_append, count_numbers]
    split
    next outstanding =>
      obtain ⟨segment, found⟩ : ∃ segment, segments[number - base]? = some segment :=
        ⟨_, List.getElem?_eq_getElem (show number - base < segments.length by omega)⟩
      have count_eq := tally.count_eq (number - base) segment found
      have retries_lt := permitted segment (List.mem_of_getElem? found)
      rw [Nat.add_sub_cancel' outstanding.1] at count_eq
      omega
    · exact tally.count_le number

end Tally

theorem Connection.Writes.length_takenBy_le {connection : Connection} {script acked : List Cargo}
    {settled : Nat} (writes : connection.Writes script acked settled) (operation : Operation) :
    (connection.takenBy operation).length ≤ 65535 := by
  have window_le := writes.window_le
  have bound := connection.config.maxSendWindow.toNat_lt
  cases operation with
  | send pending =>
      rw [takenBy, nextChunk]
      split
      · rw [List.length_take, usableWindow]
        omega
      · exact Nat.zero_le _
  | openActive | listen | close | abort | expire | receive => exact Nat.zero_le _

namespace Station

variable {config : Config} {isn : SeqNum} {station after : Station} {ledger ledger' : Ledger}
  {settled settled' now : Nat}

namespace Sound

theorem extent_bounds (sound : Sound config isn station ledger settled) :
    station.taken.length ≤ extent ledger.script ∧
      extent ledger.script ≤ station.taken.length + 2 := by
  have valid := sound.connection.writes.valid
  rw [← sound.content_eq]
  refine ⟨?_, valid.extent_le⟩
  rw [valid.extent_eq]
  omega

theorem exists_carries (sound : Sound config isn station ledger settled) :
    ∃ acked rest, ledger.script = acked ++ rest ∧
      Flight.Carries isn config.receiveWindow (extent acked) station.connection.flight.segments
        rest := by
  have writes := sound.connection.writes
  by_cases past : station.connection.phase = .terminated
  · rw [writes.cleared past]
    exact ⟨ledger.script, [], (List.append_nil _).symm, .nil _⟩
  · obtain ⟨rest, script_eq, carries⟩ := writes.carries past
    rw [sound.connection.isn_eq, sound.connection.config_eq] at carries
    exact ⟨ledger.acked, rest, script_eq, carries⟩

theorem next_eq (sound : Sound config isn station ledger settled) :
    station.connection.sendNext = isn.advance (extent ledger.script) := by
  rw [sound.connection.writes.next_eq, sound.connection.isn_eq]

/-- A script that grew while the next position stayed is the same. -/
theorem script_eq (sound : Sound config isn station ledger settled)
    (sound' : Sound config isn after ledger' settled') (isFront : ledger.script <+: ledger'.script)
    (taken_le : after.taken.length ≤ station.taken.length + 65535)
    (same : after.connection.sendNext = station.connection.sendNext) :
    ledger'.script = ledger.script := by
  have bounds := sound.extent_bounds
  have bounds' := sound'.extent_bounds
  have grows := extent_le_of_isPrefix isFront
  rw [sound.next_eq, sound'.next_eq, SeqNum.advance_inj isn (by omega) (by omega)] at same
  exact sound'.connection.writes.valid.eq_of_extent_eq (List.prefix_refl _) isFront same

theorem script_eq_concat (sound : Sound config isn station ledger settled)
    (sound' : Sound config isn after ledger' settled') (isFront : ledger.script <+: ledger'.script)
    (taken_le : after.taken.length ≤ station.taken.length + 65535) {fresh : Outstanding}
    (launches : station.connection.Launches now fresh after.connection) :
    ∃ cargo, ledger'.script = ledger.script ++ [cargo] ∧
      fresh.Carries isn config.receiveWindow (extent ledger.script) cargo := by
  have writes := sound'.connection.writes
  have running : after.connection.phase ≠ .terminated := fun past => by
    have none_left := writes.cleared past
    rw [launches.segments_eq] at none_left
    exact List.append_ne_nil_of_right_ne_nil _ (List.cons_ne_nil _ _) none_left
  obtain ⟨rest, script_eq, carries⟩ := writes.carries running
  rw [launches.segments_eq, sound'.connection.isn_eq, sound'.connection.config_eq] at carries
  obtain ⟨front, cargo, rfl, holds⟩ := carries.of_concat
  rw [← List.append_assoc] at script_eq
  rw [← extent_append] at holds
  -- the fresh segment starts where the earlier script ended, and where its own entry does
  have start_eq : extent ledger.script = extent (ledger'.acked ++ front) := by
    have bounds := sound.extent_bounds
    have bounds' := sound'.extent_bounds
    have grows := extent_le_of_isPrefix isFront
    have written : cargo ∈ ledger'.script := by simp [script_eq]
    have length_le := writes.length_le written
    have extent_eq : extent ledger'.script = extent (ledger'.acked ++ front) + cargo.length := by
      rw [script_eq, extent_append, extent_cons, extent_nil, Nat.add_zero]
    have seq_eq := holds.seq_eq
    rw [launches.seq_eq, sound.next_eq, SeqNum.advance_inj isn (by omega) (by omega)] at seq_eq
    exact seq_eq
  have isFront' : ledger'.acked ++ front <+: ledger'.script :=
    script_eq ▸ List.prefix_append _ [cargo]
  have front_eq := writes.valid.eq_of_extent_eq isFront isFront' start_eq
  rw [← front_eq] at script_eq holds
  exact ⟨cargo, script_eq, holds⟩

end Sound

/-- An end is sound, and the copies that it sent are tallied. -/
def Tallied (config : Config) (isn : SeqNum) (limit : Nat) (station : Station) : Prop :=
  ∃ ledger settled origins base, Sound config isn station ledger settled ∧
    Tally isn config.receiveWindow limit ledger.script station.connection.flight.segments
      station.sent origins base

namespace Tallied

variable {limit : Nat}

theorem create {connection : Connection} (created : Connection.create config isn = .ok connection) :
    Tallied config isn limit { connection } := by
  have sound := Sound.create created
  obtain ⟨window, -, rfl⟩ := Connection.eq_of_create created
  exact ⟨_, _, [], 0, sound, .nil⟩

/-- What an operation puts on the wire is tallied. -/
theorem operate (tallied : Tallied config isn limit station)
    (limited : config.maxRetransmissions = some limit) {operation : Connection.Operation}
    (done : station.undergo (.operate operation) now = .ok after) :
    Tallied config isn limit after := by
  obtain ⟨ledger, settled, origins, base, sound, tally⟩ := tallied
  obtain ⟨ledger', settled', sound', isFront⟩ := (sound.undergo _ now).of_ok done
  obtain ⟨connection, applied, rfl⟩ := exists_of_undergo_operate done
  have taken_le : (station.taken ++ station.connection.takenBy operation).length ≤
      station.taken.length + 65535 := by
    rw [List.length_append]
    exact Nat.add_le_add_left (sound.connection.writes.length_takenBy_le operation) _
  have config_eq : station.connection.config = config := sound.connection.config_eq
  have config_eq' : connection.config = config := sound'.connection.config_eq
  have sent_eq (more : List Bytes) (outbox_eq : connection.outbox =
      station.connection.outbox ++ more) :
      station.wire ++ connection.outbox = station.sent ++ more := by
    rw [outbox_eq, ← List.append_assoc, sent]
  refine ⟨ledger', settled', ?_⟩
  cases Connection.apply_dispatches applied with
  | drains drains answer =>
      have script_eq := sound.script_eq sound' isFront taken_le drains.sendNext_eq
      obtain ⟨later, drained⟩ := tally.drain drains.isSuffix
      rw [script_eq]
      rcases answer with silent | echoed
      · refine ⟨origins, later, sound', ?_⟩
        rw [sent, silent]
        exact drained
      · refine ⟨origins ++ [none], later, sound', ?_⟩
        rw [sent, sent_eq _ echoed, Connection.acknowledgment, config_eq']
        exact drained.echo _ _
  | launches fresh launches =>
      obtain ⟨cargo, script_eq, carries⟩ := sound.script_eq_concat sound' isFront taken_le launches
      refine ⟨origins ++ [some ledger.script.length], base, sound', ?_⟩
      rw [sent, sent_eq _ launches.outbox_eq, script_eq, launches.segments_eq]
      exact tally.launch launches.retries_eq carries
  | resends unexhausted resent next_eq outbox_eq paced =>
      have script_eq := sound.script_eq sound' isFront taken_le next_eq
      have segments_eq := Outstanding.eq_of_mapM_resend resent
      let numbers := List.range' base station.connection.flight.segments.length
      refine ⟨origins ++ numbers.map some, base, sound', ?_⟩
      rw [sent, sent_eq _ outbox_eq, script_eq, segments_eq]
      obtain ⟨acked, rest, split, carries⟩ := sound.exists_carries
      refine tally.resend split carries (fun segment mem => ?_) now station.connection.recvNext
      exact Connection.retries_lt_of_not_isExhausted (config_eq ▸ limited) unexhausted mem

theorem undergo (tallied : Tallied config isn limit station)
    (limited : config.maxRetransmissions = some limit) {occurrence : Occurrence}
    (done : station.undergo occurrence now = .ok after) : Tallied config isn limit after := by
  cases occurrence with
  | operate operation => exact tallied.operate limited done
  | emit =>
      obtain ⟨ledger, settled, origins, base, sound, tally⟩ := tallied
      obtain rfl := Except.ok.inj done
      refine ⟨ledger, settled, origins, base, sound.emit, ?_⟩
      rw [sent_emit, connection_emit]
      exact tally
  | hear =>
      obtain ⟨ledger, settled, origins, base, sound, tally⟩ := tallied
      obtain rfl := Except.ok.inj done
      refine ⟨ledger, settled, origins, base, sound.hear, ?_⟩
      rw [sent_hear, connection_hear]
      exact tally

end Tallied

/-- Through the whole life of an end with a limit, what it sends is tallied. -/
theorem Arises.tallied (arises : Arises config isn station) {limit : Nat}
    (limited : config.maxRetransmissions = some limit) : Tallied config isn limit station := by
  obtain ⟨connection, history, created, lived⟩ := arises
  exact live_induction (Tallied config isn limit) (fun tallied done => tallied.undergo limited done)
    (Tallied.create created) lived

end Station
end ReliableTransport
