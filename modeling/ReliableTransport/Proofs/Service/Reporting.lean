import ReliableTransport.Proofs.Service.Outcome
import ReliableTransport.Proofs.Station.Timeouts

/-!
# What a run tells

The opener is told one answer, and of success only while both directions are agreed on.  A failure
is told to the opener or, once it knows of success, to the application behind everything else.  A
connection that was over from the start is declined: its opener is refused, but nothing fails.
-/

namespace ReliableTransport

open Fault

namespace Endpoint

variable {endpoint after : Endpoint} {round : Round}

/-- What the opener was told, seen again and again: nothing at first, and then always the same. -/
def ToldOnce (answer : Except Failure Unit) (notices : List (Option (Except Failure Unit))) : Prop :=
  ∃ untold told, notices = List.replicate untold none ++ List.replicate told (some answer)

namespace ToldOnce

variable {answer : Except Failure Unit} {notices : List (Option (Except Failure Unit))}

theorem told (once : ToldOnce answer notices) : ToldOnce answer (notices ++ [some answer]) := by
  obtain ⟨untold, told, rfl⟩ := once
  exact ⟨untold, told + 1, by rw [List.replicate_succ', List.append_assoc]⟩

theorem untold (once : ToldOnce answer (notices ++ [none])) (other : Except Failure Unit) :
    ToldOnce other (notices ++ [none]) := by
  obtain ⟨untold, told, notices_eq⟩ := once
  cases told with
  | zero => exact ⟨untold, 0, by simpa using notices_eq⟩
  | succ told =>
      rw [List.replicate_succ', ← List.append_assoc] at notices_eq
      cases (List.append_inj_right' notices_eq rfl)

theorem wait (once : ToldOnce answer (notices ++ [none])) :
    ToldOnce answer (notices ++ [none] ++ [none]) := by
  obtain ⟨untold, told, notices_eq⟩ := once
  cases told with
  | zero =>
      refine ⟨untold + 1, 0, ?_⟩
      rw [notices_eq, List.replicate_succ']
      simp
  | succ told =>
      rw [List.replicate_succ', ← List.append_assoc] at notices_eq
      cases (List.append_inj_right' notices_eq rfl)

end ToldOnce

theorem Reports.toldOnce (reports : endpoint.Reports round after)
    {notices : List (Option (Except Failure Unit))}
    (once : ToldOnce (.ok ()) (notices ++ [endpoint.opened]))
    (candid : endpoint.Candid) (intact : ∀ fault, after.activity ≠ .crashed fault) :
    ∃ answer, ToldOnce answer (notices ++ [endpoint.opened] ++ [after.opened]) ∧
      (after.activity = .running → answer = .ok ()) ∧
      (after.activity ≠ .running → after.opened = some answer) := by
  cases reports with
  | waits attends persists _ =>
      refine ⟨.ok (), ?_, fun _ => rfl, fun stopped => absurd attends.running stopped⟩
      cases attends.candid with
      | told opened _ _ =>
          rw [opened]
          exact once.told
      | untold untold _ _ _ =>
          cases candid with
          | told opened _ _ => simp [persists opened] at untold
          | untold opened _ _ _ =>
              rw [opened] at once ⊢
              rw [untold]
              exact once.wait
  | concludes _ _ opened _ =>
      rw [opened]
      exact ⟨.ok (), once.told, fun _ => rfl, fun _ => rfl⟩
  | @refuses failure ended _ untold opened _ =>
      rw [untold] at once ⊢
      rw [opened]
      exact ⟨.error failure, (once.untold _).told, by simp [ended], fun _ => rfl⟩
  | aborts _ _ _ opened _ _ =>
      rw [opened]
      exact ⟨.ok (), once.told, fun _ => rfl, fun _ => rfl⟩
  | crashes stopped => exact absurd stopped (intact _)

/-- The first round on a connection that is over refuses the opener, and tells the application what
is left if the carrier accepts everything. -/
theorem serve_of_terminated {connection : Connection} (past : connection.phase = .terminated)
    (unwoken : round.wakeup = none) :
    (¬ ({ connection } : Endpoint).CarrierFails round ∧
      ({ connection } : Endpoint).serve round =
        { connection := { connection with outbox := [], events := [] }
          sent := connection.outbox
          events := connection.events.map .ofAppEvent
          opened := some (.error .refused)
          activity := .finished (.ok ()) }) ∨
      ({ connection } : Endpoint).CarrierFails round ∧
        ∃ sent, ({ connection } : Endpoint).serve round =
          { connection := { connection with outbox := [] }.abort
            sent
            opened := some (.error .refused)
            activity := .finished (.error .refused) } := by
  have heeded : ({ connection } : Endpoint).heed round = .ok (.ok (), { connection }) := by
    rw [heed, Round.operate, unwoken]
    rfl
  have segmented : ({ connection } : Endpoint).segmentPending round.later = .ok { connection } :=
    segmentPending_of_not_canSend (by simp [Connection.canSend, past, Phase.isSending]) _
  have served : ({ connection } : Endpoint).serve round =
      ({ connection } : Endpoint).handOver round.failsAfter := by
    rw [serve, heeded]
    simp only [turn, segmented]
  by_cases fails : ({ connection } : Endpoint).CarrierFails round
  · refine Or.inr ⟨fails, ?_⟩
    obtain ⟨awake, middle, count, heeded', segmented', fails, short⟩ := fails
    obtain ⟨-, rfl⟩ := Prod.mk.inj (Except.ok.inj (heeded.symm.trans heeded'))
    obtain rfl := Except.ok.inj (segmented.symm.trans segmented')
    rw [served]
    simp only [handOver, fails, if_pos short]
    exact ⟨_, rfl⟩
  · refine Or.inl ⟨fails, ?_⟩
    have rests : ({ connection } : Endpoint).serve round = ({ connection } : Endpoint).handed.rest := by
      rw [served]
      simp only [handOver]
      split
      · next count failsAfter =>
          rw [if_neg fun short => fails ⟨_, _, _, heeded, segmented, failsAfter, short⟩]
          rfl
      · rfl
    rw [rests, handed_eq, rest, if_pos (by simpa [Connection.isTerminated] using past),
      opened_notifyOpener]
    simp [Connection.isTerminated, past, Phase.isSynchronized]

end Endpoint

namespace Stream

open Endpoint

/-- What the opener of a run was told. -/
structure Informed (log : List (Endpoint × Round)) (stream : Stream) : Prop where
  /-- The opener was told one answer, and it is told no other. -/
  told : ∃ answer, stream.endpoint.opened = some answer ∧
    ToldOnce answer (log.map (·.1.opened) ++ [stream.endpoint.opened])
  /-- It was told of success only where both directions were agreed on. -/
  agreed : ∀ entry ∈ log, entry.1.opened = none → (entry.1.serve entry.2).opened = some (.ok ()) →
    (entry.1.serve entry.2).connection.phase.isSynchronized = true

/-- The failures of a run are reported, and each has its cause. -/
structure Reported (log : List (Endpoint × Round)) (stream : Stream)
    (result : Except Failure Unit) : Prop where
  /-- A failure is what the opener was told and the application nothing, or what the application was
  told at last, and of no other one, when the opener knew of success. -/
  told_iff : ∀ failure, result = .error failure ↔
    (stream.endpoint.opened = some (.error failure) ∧ stream.endpoint.events = [] ∨
      (∃ entry ∈ log, entry.1.opened = some (.ok ())) ∧
        ∃ told, stream.endpoint.events = told ++ [.aborted failure] ∧ Unfailed told)
  /-- A failure is what a round gave cause for. -/
  caused_iff : ∀ failure, result = .error failure ↔ ∃ entry ∈ log, entry.1.Causes entry.2 failure

/-- A run found its connection over and ended in its first round, though nothing failed. -/
structure Declined (connection : Connection) (log : List (Endpoint × Round)) (stream : Stream) :
    Prop where
  /-- There was one round, and the carrier accepted everything. -/
  accepted : ∃ round, log = [({ connection }, round)] ∧
    ¬ ({ connection } : Endpoint).CarrierFails round
  /-- The opener was refused. -/
  opened_eq : stream.endpoint.opened = some (.error .refused)
  /-- The application was told what the connection still had to tell, and of no failure. -/
  events_eq : stream.endpoint.events = connection.events.map .ofAppEvent

namespace Served

variable {connection : Connection} {accepted : List Bytes}
  {log : List (Endpoint × Round)} {stream : Stream} {result : Except Failure Unit}

theorem begins (goes : connection.phase ≠ .terminated)
    (silent : connection.phase.isHandshaking = true → connection.events = [])
    (served : Served connection accepted log stream) :
    ∀ entry ∈ log, entry.1.Begins entry.2 := by
  induction served with
  | start now later failsAfter =>
      intro entry mem
      obtain rfl := List.mem_singleton.mp mem
      exact .first rfl (.untold rfl rfl goes silent) rfl rfl
  | write _ _ _ ih => exact ih
  | close _ ih => exact ih
  | round wakeup now later failsAfter served awaits _ ih =>
      intro entry mem
      rcases List.mem_append.mp mem with mem | mem
      · exact ih entry mem
      · obtain rfl := List.mem_singleton.mp mem
        obtain ⟨earlier, endpoint, round, rfl, endpoint_eq, -⟩ := served.linked
        have running := running_of_awaits awaits
        rw [endpoint_eq] at running ⊢
        exact .attends ((ih _ (List.mem_append_right _ List.mem_cons_self)).attends_serve running)

theorem toldOnce (goes : connection.phase ≠ .terminated)
    (silent : connection.phase.isHandshaking = true → connection.events = [])
    (served : Served connection accepted log stream)
    (intact : ∀ fault, stream.endpoint.activity ≠ .crashed fault) :
    ∃ answer, ToldOnce answer (log.map (·.1.opened) ++ [stream.endpoint.opened]) ∧
      (stream.endpoint.activity = .running → answer = .ok ()) ∧
      (stream.endpoint.activity ≠ .running → stream.endpoint.opened = some answer) := by
  induction served with
  | start now later failsAfter =>
      have begins : Begins { connection } ⟨none, now, later, failsAfter⟩ :=
        (Served.start now later failsAfter).begins goes silent _ List.mem_cons_self
      have once (answer : Except Failure Unit) : ToldOnce answer ([] ++ [none]) := ⟨1, 0, rfl⟩
      exact begins.reports.toldOnce (once _) begins.candid intact
  | @write _ _ stream data _ _ ih =>
      obtain ⟨writes, write_eq⟩ := stream.write_eq data
      rw [write_eq] at intact ⊢
      exact ih intact
  | close _ ih => exact ih intact
  | round wakeup now later failsAfter served awaits left ih =>
      have running := running_of_awaits awaits
      have begins := (served.round wakeup now later failsAfter awaits left).begins goes silent _
        (List.mem_append_right _ List.mem_cons_self)
      obtain ⟨answer, once, ok, -⟩ := ih (by simp [running])
      obtain rfl := ok running
      rw [List.map_append]
      exact begins.reports.toldOnce once begins.candid intact

/-- A run whose rounds report, with one answer to the opener, reports as a whole. -/
theorem reported (served : Served connection accepted log stream)
    (reports : ∀ entry ∈ log, entry.1.Reports entry.2 (entry.1.serve entry.2))
    (told : ∃ answer, stream.endpoint.opened = some answer ∧
      ToldOnce answer (log.map (·.1.opened) ++ [stream.endpoint.opened]))
    (returned : stream.endpoint.activity = .finished result) :
    Informed log stream ∧ Reported log stream result := by
  obtain ⟨earlier, endpoint, round, rfl, endpoint_eq, waited⟩ := served.linked
  have last : (endpoint, round) ∈ earlier ++ [(endpoint, round)] :=
    List.mem_append_right _ List.mem_cons_self
  have final := endpoint_eq ▸ reports _ last
  refine ⟨⟨told, fun entry mem untold opened => ?_⟩, fun failure => ⟨?_, ?_⟩,
    fun failure => ⟨?_, ?_⟩⟩
  · refine (reports entry mem).agreed (fun fault crashed => ?_) untold opened
    rcases List.mem_append.mp mem with mem | mem
    · simp [waited entry mem] at crashed
    · obtain rfl := List.mem_singleton.mp mem
      simp [← endpoint_eq, returned] at crashed
  · rintro rfl
    rcases (final.failed returned).2 with refused | ⟨opened, aborted⟩
    · exact Or.inl refused
    · exact Or.inr ⟨⟨_, last, opened⟩, aborted⟩
  · rintro (⟨refused, -⟩ | ⟨-, told, aborted, -⟩)
    · exact final.eq_error returned (Or.inl refused)
    · exact final.eq_error returned (Or.inr ⟨told, aborted⟩)
  · rintro rfl
    exact ⟨_, last, (final.failed returned).1⟩
  · rintro ⟨entry, mem, causes⟩
    have ended := causes.activity_eq
    rcases List.mem_append.mp mem with mem | mem
    · simp [waited entry mem] at ended
    · obtain rfl := List.mem_singleton.mp mem
      exact Activity.finished.inj (returned.symm.trans (endpoint_eq ▸ ended))

theorem reported_of_goes (goes : connection.phase ≠ .terminated)
    (silent : connection.phase.isHandshaking = true → connection.events = [])
    (served : Served connection accepted log stream)
    (returned : stream.endpoint.activity = .finished result) :
    Informed log stream ∧ Reported log stream result := by
  obtain ⟨answer, once, -, told⟩ := served.toldOnce goes silent (by simp [returned])
  exact served.reported (fun entry mem => (served.begins goes silent entry mem).reports)
    ⟨answer, told (by simp [returned]), once⟩ returned

/-- The run of a stream that the application opened reports. -/
theorem reported_of_initiate {role : Role} {config : Config} {isn : SeqNum} {opening : Nat}
    (initiated : initiate role config isn opening = .ok connection)
    (served : Served connection accepted log stream)
    (returned : stream.endpoint.activity = .finished result) :
    Informed log stream ∧ Reported log stream result := by
  obtain ⟨-, goes, events_eq⟩ := arises_of_initiate initiated
  exact served.reported_of_goes goes (fun _ => events_eq) returned

theorem single (past : connection.phase = .terminated)
    (served : Served connection accepted log stream) :
    ∃ round, round.wakeup = none ∧ log = [({ connection }, round)] ∧
      stream.endpoint = ({ connection } : Endpoint).serve round := by
  induction served with
  | start now later failsAfter => exact ⟨_, rfl, rfl, rfl⟩
  | @write _ _ stream data _ _ ih =>
      obtain ⟨writes, write_eq⟩ := stream.write_eq data
      rw [write_eq]
      exact ih
  | close _ ih => exact ih
  | round wakeup now later failsAfter _ awaits _ ih =>
      obtain ⟨round, unwoken, -, endpoint_eq⟩ := ih
      have running := running_of_awaits awaits
      rcases serve_of_terminated past unwoken with ⟨-, serve_eq⟩ | ⟨-, sent, serve_eq⟩ <;>
        simp [endpoint_eq, serve_eq] at running

theorem refused_once (past : connection.phase = .terminated)
    (served : Served connection accepted log stream) :
    stream.endpoint.opened = some (.error .refused) ∧
      ToldOnce (.error .refused) (log.map (·.1.opened) ++ [stream.endpoint.opened]) := by
  obtain ⟨round, unwoken, rfl, endpoint_eq⟩ := served.single past
  have opened_eq : stream.endpoint.opened = some (.error .refused) := by
    rcases serve_of_terminated past unwoken with ⟨-, serve_eq⟩ | ⟨-, sent, serve_eq⟩ <;>
      rw [endpoint_eq, serve_eq]
  exact ⟨opened_eq, 1, 1, by rw [opened_eq]; rfl⟩

theorem declined (past : connection.phase = .terminated)
    (served : Served connection accepted log stream)
    (returned : stream.endpoint.activity = .finished (.ok ())) :
    Informed log stream ∧ Declined connection log stream := by
  obtain ⟨opened_eq, once⟩ := served.refused_once past
  obtain ⟨round, unwoken, rfl, endpoint_eq⟩ := served.single past
  rcases serve_of_terminated past unwoken with ⟨accepts, serve_eq⟩ | ⟨-, sent, serve_eq⟩
  · refine ⟨⟨⟨_, opened_eq, once⟩, fun entry mem _ opened => ?_⟩, ⟨round, rfl, accepts⟩, opened_eq,
      by rw [endpoint_eq, serve_eq]⟩
    obtain rfl := List.mem_singleton.mp mem
    simp [serve_eq] at opened
  · rw [endpoint_eq, serve_eq] at returned
    cases Activity.finished.inj returned

theorem reported_of_terminated (past : connection.phase = .terminated)
    (served : Served connection accepted log stream) {failure : Failure}
    (returned : stream.endpoint.activity = .finished (.error failure)) :
    Informed log stream ∧ Reported log stream (.error failure) := by
  obtain ⟨opened_eq, once⟩ := served.refused_once past
  obtain ⟨round, unwoken, rfl, endpoint_eq⟩ := served.single past
  rcases serve_of_terminated past unwoken with ⟨-, serve_eq⟩ | ⟨fails, sent, serve_eq⟩
  · rw [endpoint_eq, serve_eq] at returned
    cases Activity.finished.inj returned
  · have reports : ({ connection } : Endpoint).Reports round
        (({ connection } : Endpoint).serve round) := by
      rw [serve_eq]
      exact .refuses rfl (.refused fails rfl) rfl rfl rfl
    exact served.reported (by simpa using reports) ⟨_, opened_eq, once⟩ returned

/-- Whatever happened to its connection before, a run that returns tells the opener one answer.  It
declines a connection that was over if it returns no failure, and reports otherwise. -/
theorem reports_once {config : Config} {isn : SeqNum} {station : Station}
    (arises : Station.Arises config isn station)
    (served : Served station.connection accepted log stream)
    (returned : stream.endpoint.activity = .finished result) :
    Informed log stream ∧
      (station.connection.phase = .terminated → result = .ok () →
        Declined station.connection log stream) ∧
      ((station.connection.phase = .terminated → result ≠ .ok ()) →
        Reported log stream result) := by
  by_cases past : station.connection.phase = .terminated
  · cases result with
    | ok =>
        obtain ⟨informed, declined⟩ := served.declined past returned
        exact ⟨informed, fun _ _ => declined, fun failed => absurd rfl (failed past)⟩
    | error failure =>
        obtain ⟨informed, reported⟩ := served.reported_of_terminated past returned
        exact ⟨informed, fun _ => nofun, fun _ => reported⟩
  · have silent (handshaking : station.connection.phase.isHandshaking = true) :
        station.connection.events = [] :=
      (List.append_eq_nil_iff.mp (arises.silent handshaking)).2
    obtain ⟨informed, reported⟩ := served.reported_of_goes past silent returned
    exact ⟨informed, fun ended => absurd ended past, fun _ => reported⟩

/-- A byte arrives with the end of the handshake, and then the carrier accepts nothing more. -/
theorem reports_once_aborted :
    ∃ station log stream, Station.Arises Network.narrow ⟨7⟩ station ∧
      Served station.connection [[66]] log stream ∧
      stream.endpoint.activity = .finished (.error .aborted) ∧
      stream.endpoint.events = [.data [65], .aborted .aborted] ∧
      ToldOnce (.ok ()) (log.map (·.1.opened) ++ [stream.endpoint.opened]) ∧
      (∃ entry ∈ log, entry.1.opened = some (.ok ())) ∧
      ∃ entry ∈ log, entry.1.Causes entry.2 .aborted := by
  obtain ⟨connection, station, created, lived, goes, log, stream, served, ended, events_eq, opened⟩ :
      ∃ connection station, Connection.create Network.narrow ⟨7⟩ = .ok connection ∧
        Station.live { connection } [(.operate .listen, 0)] = .ok station ∧
        station.connection.phase ≠ .terminated ∧
        ∃ log stream, Served station.connection [[66]] log stream ∧
          stream.endpoint.activity = .finished (.error .aborted) ∧
          stream.endpoint.events = [.data [65], .aborted .aborted] ∧
          stream.endpoint.opened = some (.ok ()) := by
    refine ⟨_, _, rfl, rfl, by decide, _, _, .round (.written [66]) 3 3 (some 0)
      (.write [66]
        (.round (.received ((Cargo.data [65]).encode ⟨5⟩ ⟨8⟩ 4)) 2 2 none
          (.round (.received ((Cargo.syn false).encode ⟨4⟩ ⟨0⟩ 4)) 1 1 none
            (.start 0 0 none) rfl rfl) rfl rfl) rfl) rfl rfl, rfl, rfl, rfl⟩
  have arises : Station.Arises Network.narrow ⟨7⟩ station := ⟨connection, _, created, lived⟩
  obtain ⟨informed, -, reported⟩ := served.reports_once arises ended
  obtain ⟨answer, told, once⟩ := informed.told
  obtain rfl := Option.some.inj (opened.symm.trans told)
  have failed := reported fun past => absurd past goes
  refine ⟨station, log, stream, arises, served, ended, events_eq, once, ?_, ?_⟩
  · rcases (failed.told_iff .aborted).mp rfl with ⟨refused, -⟩ | ⟨earlier, -⟩
    · simp [opened] at refused
    · exact earlier
  · exact (failed.caused_iff .aborted).mp rfl

/-- The opener of a connection that was closed before is refused, though no carrier fails.  A FIN
that is not acknowledged behind its last permitted resend is no failure. -/
theorem not_reports_once_closed :
    (∃ station log stream, Station.Arises Network.narrow ⟨7⟩ station ∧
      Served station.connection [] log stream ∧ stream.endpoint.activity = .finished (.ok ()) ∧
      stream.endpoint.opened = some (.error .refused) ∧ stream.endpoint.events = [] ∧
      ∀ entry ∈ log, ¬ entry.1.CarrierFails entry.2) ∧
    ∃ connection log stream, initiate .passive Station.impatient ⟨7⟩ 0 = .ok connection ∧
      Served connection [] log stream ∧ stream.endpoint.activity = .finished (.ok ()) ∧
      stream.endpoint.events = [.peerFinished] ∧
      ∃ entry ∈ log, entry.2.wakeup = some .expired ∧ entry.1.connection.isExhausted = true := by
  constructor
  · obtain ⟨connection, station, log, stream, created, lived, rest⟩ :
        ∃ connection station log stream,
          Connection.create Network.narrow ⟨7⟩ = .ok connection ∧
          Station.live { connection } [(.operate .openActive, 0), (.operate .close, 0)] =
            .ok station ∧
          Served station.connection [] log stream ∧
          stream.endpoint.activity = .finished (.ok ()) ∧
          stream.endpoint.opened = some (.error .refused) ∧ stream.endpoint.events = [] ∧
          ∀ entry ∈ log, ¬ entry.1.CarrierFails entry.2 := by
      refine ⟨_, _, _, _, rfl, rfl, .start 0 0 none, rfl, rfl, rfl, fun entry mem => ?_⟩
      obtain rfl := List.mem_singleton.mp mem
      rintro ⟨awake, middle, count, -, -, fails, -⟩
      cases fails
    exact ⟨station, log, stream, ⟨connection, _, created, lived⟩, rest⟩
  · refine ⟨_, _, _, rfl, .round .expired 3000000002 3000000002 none
      (.round .expired 1000000002 1000000002 none
        (.round .writerClosed 2 2 none
          (.close (.round (.received (Cargo.fin.encode ⟨5⟩ ⟨8⟩ 4)) 2 2 none
            (.round (.received ((Cargo.syn false).encode ⟨4⟩ ⟨0⟩ 4)) 1 1 none
              (.start 0 0 none) rfl rfl) rfl rfl)) rfl rfl) rfl rfl) rfl rfl, rfl, rfl,
      _, List.mem_append_right _ List.mem_cons_self, rfl, rfl⟩

end Served
end Stream
end ReliableTransport
