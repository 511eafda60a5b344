import ReliableTransport.Session.Basic

/-!
# Schedules

A scheduled session takes requests.  After each request every endpoint that can move does so until
none can, at one and the same time.  The clock only moves on request and stops at every whole
millisecond at which a timer expires.
-/

namespace ReliableTransport

/-- A request to a scheduled session. -/
inductive Request where
  /-- Perform an action. -/
  | perform (action : Action)
  /-- Let a number of milliseconds pass. -/
  | advance (milliseconds : Nat)

/-- What is new at one end. -/
structure Report where
  /-- The segments that the end sent. -/
  sent : List Bytes
  /-- How opening the stream ended. -/
  opened : Option Notice
  /-- How waiting for the endpoint to end ended. -/
  closed : Option Notice

namespace Seat

/-- What is new since a number of segments were sent and, of the rest, since an earlier state. -/
def reportSince (seat : Seat) (earlier : Option Seat) : Report where
  sent := seat.sent.drop ((earlier.map (·.sent.length)).getD 0)
  opened := if earlier.any (·.opened.isSome) then none else seat.opened
  closed := if earlier.any (·.closed.isSome) then none else seat.closed

end Seat

namespace Session

/-- The stream at one end is one that a wakeup moves. -/
def awaits (session : Session) (side : Side) (wakeup? : Stream → Option Wakeup) : Bool :=
  (session.stream? side).any fun stream =>
    (wakeup? stream).any fun wakeup => stream.endpoint.awaits wakeup session.now

/-- The moves of the endpoint at one end that are possible now. -/
def moves (session : Session) (side : Side) : List Action :=
  let offers (wakeup? : Stream → Option Wakeup) (action : Action) : List Action :=
    if session.awaits side wakeup? then [action] else []
  offers (·.nextWrite?) (.takeWrite side 0) ++
    offers (fun _ => session.nextReceipt? side) (.takeSegment side 0) ++
    offers (fun _ => some .expired) (.expire side 0)

/-- Let endpoints move until none can, at most a given number of times. -/
def settleWithin : Nat → Session → Session
  | 0, session => session
  | rounds + 1, session =>
      match session.moves .first ++ session.moves .second with
      | [] => session
      | move :: _ => settleWithin rounds (session.perform move).2

/-- The largest number of moves at one time. -/
def patience : Nat := 1000000

/-- Let endpoints move until none can. -/
def settle (session : Session) : Session :=
  session.settleWithin patience

/-- The first whole millisecond that is not before a point in time. -/
def wholeMillisecond (time : Nat) : Nat :=
  (time + (Duration.millisecond - 1)) / Duration.millisecond * Duration.millisecond

/-- When the timer of the endpoint at one end expires. -/
def alarm? (session : Session) (side : Side) : Option Nat :=
  match session.stream? side with
  | some stream =>
      if stream.endpoint.isRunning then stream.endpoint.deadline?.map wholeMillisecond else none
  | none => none

/-- When the next timer expires. -/
def nextAlarm? (session : Session) : Option Nat :=
  ((session.alarm? .first).toList ++ (session.alarm? .second).toList).min?

/-- Move the clock, which never goes back. -/
def moveClock (session : Session) (time : Nat) : Session :=
  (session.perform (.elapse (time - session.now))).2

/-- Move the clock to a target and stop for at most a given number of expiring timers. -/
def advanceWithin : Nat → Session → Nat → Session
  | 0, session, target => session.moveClock target
  | stops + 1, session, target =>
      match session.nextAlarm? with
      | some alarm =>
          if alarm ≤ target then advanceWithin stops (session.moveClock alarm).settle target
          else session.moveClock target
      | none => session.moveClock target

/-- Let a number of milliseconds pass.  A settled session has no expired timer, so that the clock
stops at most once in each of them. -/
def advance (session : Session) (milliseconds : Nat) : Session :=
  session.advanceWithin milliseconds (session.now + milliseconds * Duration.millisecond)

/-- Answer a request and let everything settle. -/
def handle (session : Session) : Request → Answer × Session
  | .perform action =>
      let (answer, session) := session.perform action
      (answer, session.settle)
  | .advance milliseconds => (.done, session.advance milliseconds)

/-- What is new at one end, unless a script plays it. -/
def reportSince (session earlier : Session) (side : Side) : Option Report :=
  (session.seat? side).map (·.reportSince (earlier.seat? side))

/-- A session before anything happened. -/
def idle : Session where
  link := {}
  first := none
  second := none
  now := 0

end Session
end ReliableTransport
