import ReliableTransport.Proofs.Session.Moderation

/-!
# Streams are delivered

What is read at one end is always a front of what was written at the other.  A reader that is told
that nothing follows, and of no failure, has read everything that was ever written, and the writer
finished.  The exception is an end that an overflow stopped: its reader learns of nothing.
-/

namespace ReliableTransport

open Session

namespace Network.Coherent

variable {network : Network} {ledgers : Side → Ledger}

theorem received_isPrefix_taken (coherent : network.Coherent ledgers) (side : Side) :
    (network.station side).received <+: (network.station side.other).taken := by
  rw [coherent.received_eq, ← (coherent.lawful side.other).taken_eq]
  exact Script.content_isPrefix (coherent.follows side).received_isPrefix

/-- An application is told of the end of the stream last, when it was told of everything and the
other end is closing. -/
theorem concluded (coherent : network.Coherent ledgers) (side : Side)
    (told : .peerFinished ∈ (network.station side).events) :
    (network.station side.other).closing = true ∧
      (network.station side).received = (network.station side.other).taken ∧
      ∃ earlier, (network.station side).events = earlier ++ [.peerFinished] ∧
        .peerFinished ∉ earlier := by
  have reports := (coherent.follows side).reports
  have lawful := coherent.lawful side.other
  have finished := reports.peerFinished_mem_iff.mp told
  refine ⟨lawful.closing ?_, ?_, reports.exists_eq_append finished⟩
  · exact (coherent.follows side).received_isPrefix.subset finished
  · rw [coherent.received_eq, coherent.received_eq_script side finished, lawful.taken_eq]

end Network.Coherent

namespace AppEvent

theorem flatMap_bytes_ofAppEvent (events : List AppEvent) :
    (events.map .ofAppEvent).flatMap StreamEvent.bytes = events.flatMap AppEvent.bytes := by
  rw [List.flatMap_map]
  congr 1
  funext event
  cases event <;> rfl

theorem peerFinished_mem_map_iff (events : List AppEvent) :
    StreamEvent.peerFinished ∈ events.map .ofAppEvent ↔ .peerFinished ∈ events := by
  refine ⟨fun mem => ?_, List.mem_map_of_mem⟩
  obtain ⟨event, mem, same⟩ := List.mem_map.mp mem
  cases event with
  | data bytes => cases same
  | peerFinished => exact mem

end AppEvent

namespace Endpoint.Mirrors

variable {endpoint : Endpoint} {station : Station}

theorem told_cases (mirrors : endpoint.Mirrors station) {front : List StreamEvent}
    (isFront : front <+: endpoint.events) :
    front <+: station.heard.map .ofAppEvent ∨
      ∃ failure, front = station.heard.map .ofAppEvent ++ [.aborted failure] := by
  rcases mirrors.told with told | ⟨failure, -, told⟩
  · exact Or.inl (told ▸ isFront)
  · rw [told] at isFront
    exact (List.prefix_concat_iff.mp isFront).symm.imp_right fun all => ⟨failure, all⟩

theorem peerFinished_mem_iff (mirrors : endpoint.Mirrors station) :
    .peerFinished ∈ endpoint.events ↔ .peerFinished ∈ station.heard := by
  rw [← AppEvent.peerFinished_mem_map_iff]
  rcases mirrors.told with told | ⟨failure, -, told⟩
  · rw [told]
  · rw [told, List.mem_append]
    simp

end Endpoint.Mirrors

namespace Stream.Reads

variable {stream : Stream} {outcomes : List ReadOutcome} {station : Station}

/-- What was read is a front of what there is to read. -/
theorem bytes_isPrefix (reads : stream.Reads outcomes)
    (mirrors : stream.endpoint.Mirrors station) :
    outcomes.flatMap ReadOutcome.bytes <+: station.received := by
  have heard_isPrefix : station.heard.flatMap AppEvent.bytes <+: station.received :=
    (List.prefix_append _ _).flatMap _
  rw [reads.bytes_eq]
  refine List.IsPrefix.trans ?_ heard_isPrefix
  rw [← AppEvent.flatMap_bytes_ofAppEvent]
  rcases mirrors.told_cases (List.take_prefix _ _) with isFront | ⟨failure, all⟩
  · exact isFront.flatMap _
  · rw [all, List.flatMap_append]
    simp [StreamEvent.bytes]

theorem bytes_eq_of_told (reads : stream.Reads outcomes)
    (mirrors : stream.endpoint.Mirrors station)
    (told : .peerFinished ∈ stream.endpoint.events.take stream.position)
    {earlier : List AppEvent} (last : station.events = earlier ++ [.peerFinished])
    (once : .peerFinished ∉ earlier) :
    outcomes.flatMap ReadOutcome.bytes = station.received := by
  have heard_isPrefix : station.heard <+: earlier ++ [.peerFinished] :=
    last ▸ List.prefix_append _ _
  -- what was heard is everything, because the end of the stream is its last event
  have all_heard : station.heard = earlier ++ [.peerFinished] :=
    (List.prefix_concat_iff.mp heard_isPrefix).resolve_right fun isFront =>
      once (isFront.subset (mirrors.peerFinished_mem_iff.mp (List.mem_of_mem_take told)))
  rw [reads.bytes_eq, Station.received, last, ← all_heard]
  rcases mirrors.told_cases (List.take_prefix stream.position stream.endpoint.events) with
      isFront | ⟨failure, all⟩
  · rw [all_heard, List.map_append] at isFront
    rcases List.prefix_concat_iff.mp isFront with all | isFront
    · rw [all, ← AppEvent.flatMap_bytes_ofAppEvent, all_heard, List.map_append]
      rfl
    · exact absurd ((AppEvent.peerFinished_mem_map_iff _).mp (isFront.subset told)) once
  · rw [all, List.flatMap_append, AppEvent.flatMap_bytes_ofAppEvent]
    simp [StreamEvent.bytes]

theorem finished_cases (reads : stream.Reads outcomes)
    (mirrors : stream.endpoint.Mirrors station) (finished : .finished ∈ outcomes)
    (unfailed : ∀ failure, .failed failure ∉ outcomes) :
    .peerFinished ∈ stream.endpoint.events.take stream.position ∨
      ∃ fault, stream.endpoint.activity = .crashed fault ∧ Endpoint.Overflow fault := by
  have opened := reads.opened (List.ne_nil_of_mem finished)
  rcases reads.ended (reads.finished finished) with ⟨failure, failed⟩ | told | ⟨stopped, all⟩
  · exact absurd failed (unfailed failure)
  · exact Or.inl told
  have all_read : stream.endpoint.events.take stream.position = stream.endpoint.events :=
    List.take_of_length_le (Nat.le_of_eq all.symm)
  rcases stopped with ⟨result, past⟩ | ⟨fault, crashed⟩
  · cases result with
    | ok _ =>
        left
        rw [all_read]
        exact mirrors.peerFinished_mem_iff.mpr (mirrors.finished past)
    | error failure =>
        refine absurd (reads.failed failure ?_) (unfailed failure)
        rw [all_read]
        rcases mirrors.failed failure past with refused | told
        · rw [opened] at refused
          cases refused
        · rw [told]
          simp
  · exact Or.inr ⟨fault, crashed, mirrors.crashed fault crashed⟩

end Stream.Reads

theorem Session.Place.of_closing {opening : Opening} {seat? : Option Seat} {station : Station}
    {written : Bytes} {outcomes : List ReadOutcome} {finished : Bool}
    (place : Place opening seat? station written outcomes finished)
    (closing : station.closing = true) : finished = true ∧ station.taken = written := by
  cases place with
  | vacant created => cases closing
  | taken fits =>
      obtain ⟨unwritable, taken_eq⟩ := fits.mirrors.closing closing
      exact ⟨fits.finished unwritable, taken_eq⟩

namespace Chronicle

/-- What is read at one end is a front of what was written at the other, and all of it once the
reader is told that nothing follows, unless an overflow stopped the endpoint of the reader. -/
theorem streams_delivered {openings : Side → Opening}
    (valid : ∀ side, (openings side).config.Valid) {history : List Occurrence}
    (genuine : ∀ side raw, .perform (.inject side raw) ∉ history)
    (short : (run openings history).Short) (side : Side) :
    (run openings history).bytesRead side <+: (run openings history).written side.other ∧
      (.finished ∈ (run openings history).outcomes side →
        (∀ failure, .failed failure ∉ (run openings history).outcomes side) →
        (run openings history).finishedWriting side.other = true ∧
            (run openings history).bytesRead side = (run openings history).written side.other ∨
          ¬ Moderate openings history side ∧
            ∃ stream fault, (run openings history).session.stream? side = some stream ∧
              stream.endpoint.activity = .crashed fault ∧ Endpoint.Overflow fault) := by
  obtain ⟨network, mirrors⟩ := exists_mirrors valid history genuine short
  obtain ⟨ledgers, coherent⟩ := mirrors.coherent
  have written_isPrefix := (mirrors.place side.other).taken_isPrefix
  have received_isPrefix := coherent.received_isPrefix_taken side
  have place := mirrors.place side
  cases occupied : (run openings history).session.seat? side with
  | none =>
      rw [occupied] at place
      obtain ⟨-, -, -, -, outcomes_eq, -⟩ := place.of_none
      rw [bytesRead, outcomes_eq]
      exact ⟨List.nil_prefix, by simp⟩
  | some seat =>
      rw [occupied] at place
      obtain ⟨stream, fits⟩ := place.of_some
      have bytes_isPrefix := fits.reads.bytes_isPrefix fits.mirrors.endpoint
      refine ⟨bytes_isPrefix.trans (received_isPrefix.trans written_isPrefix), ?_⟩
      intro finished unfailed
      refine (fits.reads.finished_cases fits.mirrors.endpoint finished unfailed).imp ?_ ?_
      · intro told
        have heard := fits.mirrors.endpoint.peerFinished_mem_iff.mp (List.mem_of_mem_take told)
        obtain ⟨closing, received_eq, earlier, last, once⟩ :=
          coherent.concluded side (List.mem_append_left _ heard)
        obtain ⟨closed, taken_eq⟩ := (mirrors.place side.other).of_closing closing
        refine ⟨closed, ?_⟩
        rw [← taken_eq, ← received_eq]
        exact fits.reads.bytes_eq_of_told fits.mirrors.endpoint told last once
      · rintro ⟨fault, crashed, overflow⟩
        have known : (run openings history).session.stream? side = some stream := by
          rw [Session.stream?, occupied]
          exact fits.stream_eq
        refine ⟨fun moderate => ?_, stream, fault, known, crashed, overflow⟩
        exact (temperate valid history genuine short moderate known).unharmed fault crashed

/-- The first end asks for a connection and the second one waits for it, with narrow windows. -/
def narrowOpenings : Side → Opening
  | .first => ⟨.active, Network.narrow, ⟨4294967295⟩⟩
  | .second => ⟨.passive, Network.narrow, ⟨7⟩⟩

/-- Both streams are opened and agree on a connection. -/
def opening : List Occurrence :=
  [.join .first 0, .join .second 0, .perform (.takeSegment .second 0),
    .perform (.takeSegment .first 0), .perform (.takeSegment .second 0)]

/-- The first end sends three bytes in two segments and finishes, the second one reads. -/
def farewell : List Occurrence :=
  [.perform (.write .first [7, 8, 9]), .perform (.close .first), .perform (.takeWrite .first 0),
    .perform (.takeWrite .first 0), .perform (.takeSegment .second 0), .perform (.takeSegment .second 0),
    .perform (.takeSegment .second 0), .perform (.readAll .second)]

/-- A short conversation whose sequence numbers wrap around. -/
theorem streams_delivered_farewell :
    (run narrowOpenings (opening ++ farewell)).outcomes .second =
        [.data [7, 8], .data [9], .finished] ∧
      (run narrowOpenings (opening ++ farewell)).finishedWriting .first = true ∧
      (run narrowOpenings (opening ++ farewell)).bytesRead .second =
        (run narrowOpenings (opening ++ farewell)).written .first := by
  have outcomes_eq : (run narrowOpenings (opening ++ farewell)).outcomes .second =
      [.data [7, 8], .data [9], .finished] := rfl
  have valid (side : Side) : (narrowOpenings side).config.Valid := by
    cases side with
    | first => rfl
    | second => rfl
  have genuine (side : Side) (raw : Bytes) :
      .perform (.inject side raw) ∉ opening ++ farewell := by
    simp [opening, farewell]
  have short : (run narrowOpenings (opening ++ farewell)).Short := by
    intro side
    cases side <;> decide
  have moderate : Moderate narrowOpenings (opening ++ farewell) .second :=
    ⟨by decide, by decide, by decide, by decide⟩
  refine ⟨outcomes_eq, ?_⟩
  rcases (streams_delivered valid genuine short .second).2 (by simp [outcomes_eq])
      (by simp [outcomes_eq]) with delivered | ⟨extreme, -⟩
  · exact delivered
  · exact absurd moderate extreme

/-- The second end waits for the connection with a clock of the coarsest granularity. -/
def coarseOpenings : Side → Opening
  | .first => ⟨.active, Network.narrow, ⟨4294967295⟩⟩
  | .second =>
      ⟨.passive, { Network.narrow with clockGranularity := Duration.limit - 1 }, ⟨7⟩⟩

/-- The second end sends a byte whose acknowledgment takes a while, and reads. -/
def overflow : List Occurrence :=
  [.perform (.write .second [5]), .perform (.takeWrite .second 0), .perform (.takeSegment .first 0),
    .perform (.elapse (100 * Duration.millisecond)), .perform (.takeSegment .second 0),
    .perform (.read .second)]

/-- An overflow stops an endpoint, and its reader is told that nothing follows, although the writer
did not finish. -/
theorem finished_of_overflow :
    (∀ side, (coarseOpenings side).config.Valid) ∧
      (run coarseOpenings (opening ++ overflow)).outcomes .second = [.finished] ∧
      (run coarseOpenings (opening ++ overflow)).finishedWriting .first = false := by
  refine ⟨fun side => ?_, rfl, rfl⟩
  cases side with
  | first => rfl
  | second => rfl

end Chronicle
end ReliableTransport
