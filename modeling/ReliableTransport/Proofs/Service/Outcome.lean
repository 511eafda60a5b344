import ReliableTransport.Proofs.Service.Basic
import ReliableTransport.Proofs.Station.Attention

/-!
# How a round of an endpoint is reported

A round leaves the endpoint waiting, ends it with its connection, or makes it fail.  The opener is
told of success only while both directions are agreed on.  A failure has its one cause and is told
to the opener or, behind everything else, to the application.
-/

namespace ReliableTransport

open Fault

namespace Connection

variable {connection after : Connection} {now : Nat}

theorem expire_of_exhausted (exhausted : connection.isExhausted = true)
    (unfinished : connection.onlyFinalFin = false) (now : Nat) :
    connection.expire now = .ok (.error .timedOut, connection.abort) := by
  have outstanding : connection.flight.isEmpty = false := by
    by_contra empty
    have segments_eq : connection.flight.segments = [] := by
      simpa [Flight.isEmpty] using empty
    simp [isExhausted, Flight.maxRetries?, segments_eq] at exhausted
  rw [expire, if_neg (by simp [outstanding]), if_pos exhausted, if_neg (by simp [unfinished])]
  rfl

theorem exhausted_of_expire {failure : Failure}
    (expired : connection.expire now = .ok (.error failure, after)) :
    failure = .timedOut ∧ connection.isExhausted = true ∧ connection.onlyFinalFin = false := by
  rw [expire] at expired
  split at expired
  · cases expired
  split at expired
  · next exhausted =>
      obtain ⟨result_eq, -⟩ := Prod.mk.inj (Except.ok.inj expired)
      split at result_eq
      · cases result_eq
      · next unfinished =>
          exact ⟨(Except.error.inj result_eq).symm, exhausted, by simpa using unfinished⟩
  · obtain ⟨resent, -, expired⟩ := exists_of_bind_eq_ok expired
    cases (Prod.mk.inj (Except.ok.inj expired)).1

theorem phase_of_expire (handshaking : connection.phase.isHandshaking = true)
    (expired : connection.expire now = .ok (.ok (), after)) : after.phase = connection.phase := by
  rcases expire_cases expired with ⟨-, rfl, -⟩ | ⟨result_eq, -⟩ | ⟨segments, roundTrip, -, -, rfl⟩
  · rfl
  · have unfinished : connection.onlyFinalFin = false := by
      cases phase_eq : connection.phase <;>
        simp_all [onlyFinalFin, Phase.isHandshaking]
    rw [unfinished] at result_eq
    cases result_eq
  · rfl

end Connection

theorem Station.Arises.silent {config : Config} {isn : SeqNum} {station : Station}
    (arises : Arises config isn station) (handshaking : station.connection.phase.isHandshaking = true) :
    station.events = [] := by
  obtain ⟨connection, history, created, lived⟩ := arises
  refine live_induction
    (fun later => later.connection.phase.isHandshaking = true → later.events = [])
    (fun {middle later occurrence now} kept done handshaking => ?_) (fun _ => ?_) lived handshaking
  · cases occurrence with
    | emit =>
        obtain rfl := Except.ok.inj done
        rw [connection_emit] at handshaking
        exact middle.events_emit.trans (kept handshaking)
    | hear =>
        obtain rfl := Except.ok.inj done
        rw [connection_hear] at handshaking
        exact middle.events_hear.trans (kept handshaking)
    | operate operation =>
        obtain ⟨connection, applied, rfl⟩ := exists_of_undergo_operate done
        obtain ⟨before, events_eq⟩ := Connection.silent_of_apply applied handshaking
        exact (congrArg (middle.heard ++ ·) events_eq).trans (kept before)
  · obtain ⟨window, -, rfl⟩ := Connection.eq_of_create created
    rfl

namespace Endpoint

variable {endpoint awake middle after : Endpoint} {round : Round}

/-- The permitted resends are used up when the deadline expires, and not only the own FIN is
outstanding. -/
def Exhausts (endpoint : Endpoint) (round : Round) : Prop :=
  round.wakeup = some .expired ∧ endpoint.connection.isExhausted = true ∧
    endpoint.connection.onlyFinalFin = false

/-- The carrier accepts some but not all segments that are due in a round. -/
def CarrierFails (endpoint : Endpoint) (round : Round) : Prop :=
  ∃ awake middle count, endpoint.heed round = .ok (.ok (), awake) ∧
    awake.segmentPending round.later = .ok middle ∧ round.failsAfter = some count ∧
    count < middle.connection.outbox.length

/-- No failure was told to the application. -/
def Unfailed (events : List StreamEvent) : Prop :=
  ∀ failure, .aborted failure ∉ events

/-- What the opener and the application were told fits to the connection. -/
inductive Candid (endpoint : Endpoint) : Prop
  /-- The opener knows that the handshake is complete. -/
  | told : endpoint.opened = some (.ok ()) → endpoint.connection.phase.isHandshaking = false →
      Unfailed endpoint.events → Candid endpoint
  /-- Nobody was told anything. -/
  | untold : endpoint.opened = none → endpoint.events = [] →
      endpoint.connection.phase ≠ .terminated →
      (endpoint.connection.phase.isHandshaking = true → endpoint.connection.events = []) →
      Candid endpoint

/-- An endpoint waits, and everybody was told what there is to be told. -/
structure Attends (endpoint : Endpoint) : Prop where
  /-- The endpoint runs. -/
  running : endpoint.activity = .running
  /-- What was told fits to the connection. -/
  candid : endpoint.Candid
  /-- The connection goes on. -/
  goes : endpoint.connection.phase ≠ .terminated
  /-- The opener is told nothing until the handshake is complete. -/
  handshaking : endpoint.opened = none → endpoint.connection.phase.isHandshaking = true

theorem Attends.heed (attends : endpoint.Attends)
    (heeded : endpoint.heed round = .ok (.ok (), awake)) :
    awake.Candid ∧ awake.opened = endpoint.opened := by
  obtain ⟨connection, operated, rfl⟩ := heed_cases heeded
  have stays : connection.phase.isHandshaking = true →
      endpoint.connection.phase.isHandshaking = true ∧
        connection.events = endpoint.connection.events := by
    intro handshaking
    rcases Round.operate_cases operated with
      ⟨-, rfl⟩ | ⟨-, raw, -, received⟩ | ⟨-, expired⟩
    · exact ⟨handshaking, rfl⟩
    · have applied : endpoint.connection.apply (.receive (raw.take receiveLimit)) round.now =
          .ok connection := received
      exact Connection.silent_of_apply applied handshaking
    · rcases Connection.expire_cases expired with
        ⟨-, rfl, -⟩ | ⟨-, rfl⟩ | ⟨segments, roundTrip, -, -, rfl⟩
      · exact ⟨handshaking, rfl⟩
      · cases handshaking
      · exact ⟨handshaking, rfl⟩
  refine ⟨?_, rfl⟩
  cases attends.candid with
  | told opened complete unfailed =>
      refine .told opened ?_ unfailed
      rw [← Bool.not_eq_true]
      exact fun handshaking => by simp [(stays handshaking).1] at complete
  | untold opened events_eq goes silent =>
      have handshaking := attends.handshaking opened
      refine .untold opened events_eq ?_ fun still => ?_
      · rcases Round.operate_cases operated with
          ⟨-, rfl⟩ | ⟨-, raw, -, received⟩ | ⟨-, expired⟩
        · exact goes
        · rcases Connection.receive_phase received with same | moved
          · exact same ▸ goes
          · exact Phase.ne_terminated_of_onSegment handshaking moved
        · exact Connection.phase_of_expire handshaking expired ▸ goes
      · exact (stays still).2.trans (silent handshaking)

/-- Putting pending data into segments keeps an endpoint candid. -/
theorem Candid.segmentPending (candid : awake.Candid) {now : Nat}
    (segmented : awake.segmentPending now = .ok middle) :
    middle.Candid ∧ middle.opened = awake.opened ∧ middle.events = awake.events ∧
      middle.activity = awake.activity := by
  obtain ⟨pending, connection, rfl, events_eq, moved⟩ := segmentPending_cases segmented
  refine ⟨?_, rfl, rfl, rfl⟩
  have complete {phase : Phase} (synchronized : phase.isSynchronized = true) :
      phase.isHandshaking = false := by
    rw [Phase.isHandshaking_eq (Phase.ne_terminated_of_synchronized synchronized), synchronized]
    rfl
  cases candid with
  | told opened handshaken unfailed =>
      refine .told opened ?_ unfailed
      rcases moved with same | ⟨-, synchronized⟩
      · rw [same, handshaken]
      · exact complete synchronized
  | untold opened nothing goes silent =>
      refine .untold opened nothing ?_ fun handshaking => ?_
      · rcases moved with same | ⟨-, synchronized⟩
        · rw [same]
          exact goes
        · exact Phase.ne_terminated_of_synchronized synchronized
      · rcases moved with same | ⟨-, synchronized⟩
        · exact events_eq.trans (silent (same ▸ handshaking))
        · simp [complete synchronized] at handshaking

theorem Unfailed.append {events : List StreamEvent} (unfailed : Unfailed events)
    (told : List AppEvent) : Unfailed (events ++ told.map .ofAppEvent) := by
  intro failure mem
  rcases List.mem_append.mp mem with mem | mem
  · exact unfailed failure mem
  · obtain ⟨event, -, same⟩ := List.mem_map.mp mem
    cases event <;> cases same

/-- When everything is handed over, an endpoint whose connection goes on waits. -/
theorem Candid.handed (candid : middle.Candid) (running : middle.activity = .running)
    (goes : middle.connection.phase ≠ .terminated) :
    middle.handed.Attends ∧
      (middle.opened = some (.ok ()) → middle.handed.opened = some (.ok ())) ∧
      (middle.opened = none → middle.handed.opened = some (.ok ()) →
        middle.handed.connection.phase.isSynchronized = true) := by
  rw [handed_eq]
  cases candid with
  | told opened complete unfailed =>
      have opened' : middle.notifyOpener.opened = some (.ok ()) := by
        rw [notifyOpener, if_pos (by simp [opened]), opened]
      refine ⟨⟨running, .told opened' complete (unfailed.append _), goes, ?_⟩, fun _ => opened', ?_⟩
      · simp [opened']
      · simp [opened]
  | untold opened nothing _ silent =>
      cases synchronized : middle.connection.phase.isSynchronized with
      | true =>
          have complete : middle.connection.phase.isHandshaking = false := by
            rw [Phase.isHandshaking_eq goes, synchronized]
            rfl
          have opened' : middle.notifyOpener.opened = some (.ok ()) := by
            rw [notifyOpener, if_neg (by simp [opened]), if_pos synchronized]
          refine ⟨⟨running, .told opened' complete ?_, goes, ?_⟩, fun _ => opened',
            fun _ _ => rfl⟩
          · rw [nothing]
            exact Unfailed.append (by simp [Unfailed]) _
          · simp [opened']
      | false =>
          have handshaking : middle.connection.phase.isHandshaking = true := by
            rw [Phase.isHandshaking_eq goes, synchronized]
            rfl
          have opened' : middle.notifyOpener.opened = none := by
            rw [notifyOpener, if_neg (by simp [opened]), if_neg (by simp [synchronized]),
              if_neg (by simpa [Connection.isTerminated] using goes), opened]
          refine ⟨⟨running, .untold opened' ?_ goes fun _ => rfl, goes, fun _ => handshaking⟩, ?_, ?_⟩
          · simp [nothing, silent handshaking]
          · simp [opened]
          · simp [opened']

/-- A round begins behind a wait, or it is the first one. -/
inductive Begins (endpoint : Endpoint) (round : Round) : Prop
  /-- The endpoint waited. -/
  | attends : endpoint.Attends → Begins endpoint round
  /-- Nothing happened before. -/
  | first : endpoint.activity = .running → endpoint.Candid → endpoint.opened = none →
      round.wakeup = none → Begins endpoint round

/-- What makes an endpoint fail in a round. -/
inductive Causes (endpoint : Endpoint) (round : Round) : Failure → Prop
  /-- The permitted resends are used up. -/
  | exhausted : endpoint.Exhausts round → Causes endpoint round .timedOut
  /-- The carrier fails before the opener was told. -/
  | refused : endpoint.CarrierFails round → endpoint.opened = none →
      Causes endpoint round .refused
  /-- The carrier fails after the opener was told. -/
  | aborted : endpoint.CarrierFails round → endpoint.opened = some (.ok ()) →
      Causes endpoint round .aborted

/-- What a round reports to the opener, to the application and as its result. -/
inductive Reports (endpoint : Endpoint) (round : Round) (after : Endpoint) : Prop
  /-- The endpoint waits again.  The opener may have been told of success. -/
  | waits : after.Attends →
      (endpoint.opened = some (.ok ()) → after.opened = some (.ok ())) →
      (endpoint.opened = none → after.opened = some (.ok ()) →
        after.connection.phase.isSynchronized = true) → Reports endpoint round after
  /-- The connection is over. -/
  | concludes : after.activity = .finished (.ok ()) → endpoint.opened = some (.ok ()) →
      after.opened = some (.ok ()) → Unfailed after.events → Reports endpoint round after
  /-- The opener is told of a failure. -/
  | refuses {failure : Failure} : after.activity = .finished (.error failure) →
      endpoint.Causes round failure → endpoint.opened = none →
      after.opened = some (.error failure) → after.events = [] → Reports endpoint round after
  /-- The application is told of a failure. -/
  | aborts {failure : Failure} {told : List StreamEvent} :
      after.activity = .finished (.error failure) → endpoint.Causes round failure →
      endpoint.opened = some (.ok ()) → after.opened = some (.ok ()) →
      after.events = told ++ [.aborted failure] → Unfailed told → Reports endpoint round after
  /-- A fault stops the endpoint. -/
  | crashes {fault : Fault} : after.activity = .crashed fault → Reports endpoint round after

namespace Begins

theorem candid (begins : endpoint.Begins round) : endpoint.Candid := by
  cases begins with
  | attends attends => exact attends.candid
  | first _ candid _ _ => exact candid

theorem running (begins : endpoint.Begins round) : endpoint.activity = .running := by
  cases begins with
  | attends attends => exact attends.running
  | first running _ _ _ => exact running

theorem heed (begins : endpoint.Begins round)
    (heeded : endpoint.heed round = .ok (.ok (), awake)) :
    awake.Candid ∧ awake.opened = endpoint.opened ∧ awake.events = endpoint.events ∧
      awake.activity = .running := by
  have running := begins.running
  cases begins with
  | attends attends =>
      obtain ⟨candid, opened_eq⟩ := attends.heed heeded
      obtain ⟨connection, -, rfl⟩ := heed_cases heeded
      exact ⟨candid, opened_eq, rfl, running⟩
  | first _ candid _ unwoken =>
      simp only [Endpoint.heed, Round.operate, unwoken] at heeded
      obtain ⟨-, rfl⟩ := Prod.mk.inj (Except.ok.inj heeded)
      exact ⟨candid, rfl, rfl, running⟩

theorem fail (begins : endpoint.Begins round) {failure : Failure}
    (causes : endpoint.Causes round failure) {failed : Endpoint}
    (opened_eq : failed.opened = endpoint.opened) (events_eq : failed.events = endpoint.events) :
    endpoint.Reports round (failed.fail failure) := by
  cases begins.candid with
  | told opened _ unfailed =>
      have known := opened_eq.trans opened
      rw [fail_of_told known]
      exact .aborts rfl causes opened known rfl (events_eq ▸ unfailed)
  | untold opened nothing _ _ =>
      rw [fail_of_untold (opened_eq.trans opened)]
      exact .refuses rfl causes opened rfl (events_eq.trans nothing)

/-- Every round reports in one of these ways. -/
theorem reports (begins : endpoint.Begins round) :
    endpoint.Reports round (endpoint.serve round) := by
  have ends := ends_serve endpoint round
  generalize endpoint.serve round = after at ends ⊢
  cases ends with
  | @expires failure failed heeded =>
      obtain ⟨connection, operated, rfl⟩ := heed_cases heeded
      rcases Round.operate_cases operated with ⟨failed, -⟩ | ⟨failed, -⟩ | ⟨woken, expired⟩
      · cases failed
      · cases failed
      · obtain ⟨rfl, exhausted⟩ := Connection.exhausted_of_expire expired
        exact begins.fail (.exhausted ⟨woken, exhausted⟩) rfl rfl
  | @fails awake middle count heeded segmented fails short =>
      obtain ⟨candid, opened_eq, events_eq, -⟩ := begins.heed heeded
      obtain ⟨-, opened_eq', events_eq', -⟩ := candid.segmentPending segmented
      have carrier : endpoint.CarrierFails round := ⟨_, _, _, heeded, segmented, fails, short⟩
      have opened_eq := opened_eq'.trans opened_eq
      have events_eq := events_eq'.trans events_eq
      refine begins.fail ?_ opened_eq events_eq
      rw [carrierFailure, opened_eq]
      cases begins.candid with
      | told opened _ _ =>
          rw [opened]
          exact .aborted carrier opened
      | untold opened _ _ _ =>
          rw [opened]
          exact .refused carrier opened
  | finishes heeded segmented past =>
      obtain ⟨candid, opened_eq, -, -⟩ := begins.heed heeded
      obtain ⟨candid, opened_eq', -⟩ := candid.segmentPending segmented
      cases candid with
      | told opened _ unfailed =>
          rw [handed_eq]
          refine .concludes rfl (by rw [← opened_eq, ← opened_eq', opened]) ?_ (unfailed.append _)
          rw [opened_notifyOpener, opened]
          rfl
      | untold _ _ goes _ => exact absurd past goes
  | waits heeded segmented goes =>
      obtain ⟨candid, opened_eq, -, running⟩ := begins.heed heeded
      obtain ⟨candid', opened_eq', -, activity_eq⟩ := candid.segmentPending segmented
      obtain ⟨attends, persists, agreed⟩ := candid'.handed (activity_eq.trans running) goes
      rw [opened_eq'.trans opened_eq] at persists agreed
      exact .waits attends persists agreed
  | crashes stopped => exact .crashes stopped

end Begins

/-- Each cause makes a round fail. -/
theorem Causes.activity_eq {failure : Failure} (causes : endpoint.Causes round failure) :
    (endpoint.serve round).activity = .finished (.error failure) := by
  have of_carrier (fails : endpoint.CarrierFails round) :
      (endpoint.serve round).activity =
        .finished (.error (if endpoint.opened.isNone then .refused else .aborted)) := by
    obtain ⟨awake, middle, count, heeded, segmented, fails, short⟩ := fails
    obtain ⟨connection, -, rfl⟩ := heed_cases heeded
    have segmented' := segmented
    obtain ⟨pending, connection, rfl, -, -⟩ := segmentPending_cases segmented'
    rw [serve, heeded]
    simp only [turn, segmented, handOver, fails, if_pos short]
    rfl
  cases causes with
  | exhausted exhausts =>
      obtain ⟨woken, exhausted, unfinished⟩ := exhausts
      rw [serve, heed, Round.operate, woken]
      simp only [Connection.expire_of_exhausted exhausted unfinished]
      rfl
  | refused fails untold => rw [of_carrier fails, untold]; rfl
  | aborted fails told => rw [of_carrier fails, told]; rfl

theorem Begins.attends_serve (begins : endpoint.Begins round)
    (running : (endpoint.serve round).activity = .running) : (endpoint.serve round).Attends := by
  cases begins.reports with
  | waits attends _ _ => exact attends
  | concludes ended | refuses ended | aborts ended | crashes ended => simp [running] at ended

theorem Reports.agreed (reports : endpoint.Reports round after)
    (intact : ∀ fault, after.activity ≠ .crashed fault) (untold : endpoint.opened = none)
    (opened : after.opened = some (.ok ())) : after.connection.phase.isSynchronized = true := by
  cases reports with
  | waits _ _ agreed => exact agreed untold opened
  | concludes _ told _ _ | aborts _ _ told _ _ _ => simp [untold] at told
  | refuses _ _ _ failed _ => simp [failed] at opened
  | crashes stopped => exact absurd stopped (intact _)

/-- A failure has a cause, and is told to the opener or to the application. -/
theorem Reports.failed (reports : endpoint.Reports round after) {failure : Failure}
    (returned : after.activity = .finished (.error failure)) :
    endpoint.Causes round failure ∧
      (after.opened = some (.error failure) ∧ after.events = [] ∨
        endpoint.opened = some (.ok ()) ∧
          ∃ told, after.events = told ++ [.aborted failure] ∧ Unfailed told) := by
  cases reports with
  | waits attends _ _ => simp [attends.running] at returned
  | concludes ended _ _ _ => cases Activity.finished.inj (returned.symm.trans ended)
  | refuses ended causes _ opened nothing =>
      obtain rfl := Except.error.inj (Activity.finished.inj (returned.symm.trans ended))
      exact ⟨causes, Or.inl ⟨opened, nothing⟩⟩
  | aborts ended causes opened _ events_eq unfailed =>
      obtain rfl := Except.error.inj (Activity.finished.inj (returned.symm.trans ended))
      exact ⟨causes, Or.inr ⟨opened, _, events_eq, unfailed⟩⟩
  | crashes stopped => simp [returned] at stopped

theorem Reports.concluded (reports : endpoint.Reports round after)
    (returned : after.activity = .finished (.ok ())) :
    after.opened = some (.ok ()) ∧ Unfailed after.events := by
  cases reports with
  | waits attends _ _ => simp [attends.running] at returned
  | concludes _ _ opened unfailed => exact ⟨opened, unfailed⟩
  | refuses ended _ _ _ _ | aborts ended _ _ _ _ _ =>
      cases Activity.finished.inj (returned.symm.trans ended)
  | crashes stopped => simp [returned] at stopped

theorem Reports.eq_error (reports : endpoint.Reports round after) {result : Except Failure Unit}
    (returned : after.activity = .finished result) {failure : Failure}
    (told : after.opened = some (.error failure) ∨
      ∃ told, after.events = told ++ [.aborted failure]) : result = .error failure := by
  cases reports with
  | waits attends _ _ => simp [attends.running] at returned
  | concludes _ _ opened unfailed =>
      rcases told with failed | ⟨told, events_eq⟩
      · simp [opened] at failed
      · exact absurd (events_eq ▸ by simp) (unfailed failure)
  | refuses ended _ _ opened nothing =>
      obtain rfl := Activity.finished.inj (returned.symm.trans ended)
      rcases told with failed | ⟨told, events_eq⟩
      · exact Option.some.inj (opened.symm.trans failed)
      · simp [nothing] at events_eq
  | aborts ended _ _ opened events_eq _ =>
      obtain rfl := Activity.finished.inj (returned.symm.trans ended)
      rcases told with failed | ⟨told, same⟩
      · simp [opened] at failed
      · simpa using List.append_inj_right' (events_eq.symm.trans same) rfl
  | crashes stopped => simp [returned] at stopped

end Endpoint
end ReliableTransport
