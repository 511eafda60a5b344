import ReliableTransport.Proofs.Stream
import ReliableTransport.Session.Schedule

/-!
# What applications see of two streams

Two streams are opened on the ends of a link, each at any time, and from then on anything can happen
in any order.  The link of an endpoint may begin to fail in the middle of one of its turns.  A
chronicle keeps what happened and what was answered.
-/

namespace ReliableTransport

/-- How a stream is opened. -/
structure Opening where
  /-- Which end it is. -/
  role : Role
  /-- Its parameters. -/
  config : Config
  /-- Its initial sequence number. -/
  isn : SeqNum

namespace Session

/-- What makes an endpoint move. -/
inductive Trigger where
  /-- The application wrote or finished writing. -/
  | write
  /-- A segment arrived, or an attempt to receive one failed. -/
  | segment
  /-- The retransmission timer expired. -/
  | timer
  deriving DecidableEq, Repr

/-- Let the endpoint at one end move and make its turn after a pause, where its link accepts a
number of segments before it fails, if it does. -/
def turn (session : Session) (side : Side) (trigger : Trigger) (pause : Nat)
    (failsAfter : Option Nat) : Session :=
  let later := session.pass pause
  match session.stream? side with
  | none => session
  | some stream =>
      match trigger with
      | .write => later.putStream side (stream.takeWrite session.now later.now failsAfter)
      | .timer => later.putStream side (stream.wake .expired session.now later.now failsAfter)
      | .segment =>
          match session.nextReceipt? side with
          | none => session
          | some wakeup =>
              if stream.endpoint.awaits wakeup session.now then
                ((session.updateInterface side Interface.discardNext).pass pause).putStream side
                  (stream.wake wakeup session.now later.now failsAfter)
              else session

theorem perform_takeWrite (session : Session) (side : Side) (pause : Nat) :
    session.perform (.takeWrite side pause) =
      (.done, session.turn side .write pause (session.link.failsAfter side)) := by
  rw [perform, move, turn]
  cases session.stream? side with
  | none => rfl
  | some stream => rfl

theorem perform_expire (session : Session) (side : Side) (pause : Nat) :
    session.perform (.expire side pause) =
      (.done, session.turn side .timer pause (session.link.failsAfter side)) := by
  rw [perform, move, turn]
  cases session.stream? side with
  | none => rfl
  | some stream => rfl

@[simp]
theorem stream?_updateInterface (session : Session) (side actor : Side)
    (change : Interface → Interface) :
    (session.updateInterface actor change).stream? side = session.stream? side := by
  cases side <;> rfl

theorem failsAfter_discardNext (session : Session) (side : Side) :
    (session.updateInterface side Interface.discardNext).link.failsAfter side =
      session.link.failsAfter side := by
  rw [Link.failsAfter, Link.failsAfter, updateInterface, Link.interface_setInterface,
    Interface.discardNext]
  split <;> rfl

theorem perform_takeSegment (session : Session) (side : Side) (pause : Nat) :
    session.perform (.takeSegment side pause) =
      (.done, session.turn side .segment pause (session.link.failsAfter side)) := by
  rw [perform, takeSegment, turn]
  cases known : session.stream? side with
  | none => rfl
  | some stream =>
      cases session.nextReceipt? side with
      | none => rfl
      | some wakeup =>
          simp only [move, stream?_updateInterface, known, failsAfter_discardNext]
          rfl

/-- Something that happens to two streams. -/
inductive Occurrence where
  /-- The stream at one end is opened, unless it was before.  Its first turn begins after a pause. -/
  | join (side : Side) (pause : Nat)
  /-- An action is performed. -/
  | perform (action : Action)
  /-- An endpoint moves, and its link begins to fail after a number of segments. -/
  | falter (side : Side) (trigger : Trigger) (pause count : Nat)

/-- Let something happen. -/
def happen (openings : Side → Opening) (session : Session) : Occurrence → Answer × Session
  | .join side pause =>
      (.done, if (session.seat? side).isSome then session else
        session.join side (openings side).role (openings side).config (openings side).isn pause)
  | .perform action => session.perform action
  | .falter side trigger pause count => (.done, session.turn side trigger pause (some count))

/-- The bytes of an accepted write at one end. -/
def writtenAt (side : Side) : Occurrence × Answer → Bytes
  | (.perform (.write actor data), .write .accepted) => if actor = side then data else []
  | _ => []

/-- The results of reading at one end. -/
def outcomesAt (side : Side) : Occurrence × Answer → List ReadOutcome
  | (.perform (.read actor), .read outcome) => if actor = side then [outcome] else []
  | (.perform (.readAll actor), .reads outcomes) => if actor = side then outcomes else []
  | _ => []

/-- The application at one end finishes writing. -/
def finishesAt (side : Side) : Occurrence × Answer → Bool
  | (.perform (.close actor), .done) | (.perform (.closed actor), .done) => actor = side
  | _ => false

end Session

/-- What happened in a session, with all answers, oldest first, and where it led. -/
structure Chronicle where
  /-- The session. -/
  session : Session
  /-- What happened, and what was answered. -/
  log : List (Session.Occurrence × Answer)

namespace Chronicle

/-- Nothing happened. -/
def blank : Chronicle where
  session := Session.idle
  log := []

/-- Let something happen and write it down. -/
def add (openings : Side → Opening) (chronicle : Chronicle) (occurrence : Session.Occurrence) :
    Chronicle :=
  let (answer, session) := chronicle.session.happen openings occurrence
  { session, log := chronicle.log ++ [(occurrence, answer)] }

/-- Let things happen in order. -/
def run (openings : Side → Opening) (history : List Session.Occurrence) : Chronicle :=
  history.foldl (add openings) blank

/-- All bytes of accepted writes at one end, in order. -/
def written (chronicle : Chronicle) (side : Side) : Bytes :=
  chronicle.log.flatMap (Session.writtenAt side)

/-- All results of reading at one end, in order. -/
def outcomes (chronicle : Chronicle) (side : Side) : List ReadOutcome :=
  chronicle.log.flatMap (Session.outcomesAt side)

/-- All bytes that were read at one end, in order. -/
def bytesRead (chronicle : Chronicle) (side : Side) : Bytes :=
  (chronicle.outcomes side).flatMap ReadOutcome.bytes

/-- The application at one end finished writing. -/
def finishedWriting (chronicle : Chronicle) (side : Side) : Bool :=
  chronicle.log.any (Session.finishesAt side)

theorem run_concat (openings : Side → Opening) (history : List Session.Occurrence)
    (occurrence : Session.Occurrence) :
    run openings (history ++ [occurrence]) = (run openings history).add openings occurrence := by
  rw [run, run, List.foldl_concat]

end Chronicle
end ReliableTransport
