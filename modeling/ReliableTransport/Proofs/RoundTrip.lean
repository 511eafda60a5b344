import ReliableTransport.Proofs.Fault
import ReliableTransport.RoundTrip

/-!
# The range of round-trip estimates

Estimates never exceed the largest sample.  They can fail only by leaving the range of lengths of
time, and do not come near its end unless a sample does.
-/

namespace ReliableTransport
namespace RoundTrip

theorem checked_eq {length : Nat} (lt : length < Duration.limit) :
    Duration.checked length = .ok length :=
  if_pos lt

theorem checked_error {length : Nat} {fault : Fault}
    (failed : Duration.checked length = .error fault) : fault = .duration := by
  rw [Duration.checked] at failed
  split at failed
  · cases failed
  · exact (Except.error.inj failed).symm

theorem checked_bind_error {α : Type} {length : Nat} {next : Nat → Except Fault α} {fault : Fault}
    (failed : Duration.checked length >>= next = .error fault)
    (later : ∀ value, next value = .error fault → fault = .duration) : fault = .duration := by
  rcases Fault.error_of_bind_eq_error failed with first | ⟨value, -, rest⟩
  · exact checked_error first
  · exact later value rest

theorem smooth_error {estimate : RoundTrip} {sample : Nat} {fault : Fault}
    (failed : estimate.smooth sample = .error fault) : fault = .duration := by
  rw [smooth] at failed
  split at failed
  · cases failed
  · refine checked_bind_error failed fun _ failed => ?_
    refine checked_bind_error failed fun _ failed => ?_
    refine checked_bind_error failed fun _ failed => ?_
    refine checked_bind_error failed fun _ failed => ?_
    cases failed

theorem observe_error {estimate : RoundTrip} {sample : Nat} {fault : Fault}
    (failed : estimate.observe sample = .error fault) : fault = .duration := by
  rcases Fault.error_of_bind_eq_error failed with first | ⟨⟨smoothed, deviation⟩, -, failed⟩
  · exact smooth_error first
  · refine checked_bind_error failed fun _ failed => ?_
    refine checked_bind_error failed fun _ failed => ?_
    cases failed

theorem foldlM_observe_error {samples : List Nat} {estimate : RoundTrip} {fault : Fault}
    (failed : samples.foldlM observe estimate = .error fault) : fault = .duration := by
  induction samples generalizing estimate with
  | nil => cases failed
  | cons sample samples ih =>
      rw [List.foldlM_cons] at failed
      rcases Fault.error_of_bind_eq_error failed with first | ⟨next, -, failed⟩
      · exact observe_error first
      · exact ih failed

/-- The smoothed round-trip time after a sample. -/
def nextSmoothed (estimate : RoundTrip) (sample : Nat) : Nat :=
  match estimate.smoothed with
  | none => sample
  | some smoothed => smoothed * 7 / 8 + sample / 8

/-- The smoothed deviation after a sample. -/
def nextDeviation (estimate : RoundTrip) (sample : Nat) : Nat :=
  match estimate.smoothed with
  | none => sample / 2
  | some smoothed => estimate.deviation * 3 / 4 + gap smoothed sample / 4

/-- The estimates after a sample, if lengths of time had no range. -/
def observed (estimate : RoundTrip) (sample : Nat) : RoundTrip :=
  { estimate with
    smoothed := some (estimate.nextSmoothed sample)
    deviation := estimate.nextDeviation sample
    timeout := min
      (max (estimate.nextSmoothed sample +
        max estimate.granularity (estimate.nextDeviation sample * 4)) estimate.minTimeout)
      estimate.maxTimeout }

theorem next_of_none {estimate : RoundTrip} (unknown : estimate.smoothed = none) (sample : Nat) :
    estimate.nextSmoothed sample = sample ∧ estimate.nextDeviation sample = sample / 2 := by
  rw [nextSmoothed, nextDeviation, unknown]
  exact ⟨rfl, rfl⟩

theorem next_of_some {estimate : RoundTrip} {smoothed : Nat}
    (known : estimate.smoothed = some smoothed) (sample : Nat) :
    estimate.nextSmoothed sample = smoothed * 7 / 8 + sample / 8 ∧
      estimate.nextDeviation sample = estimate.deviation * 3 / 4 + gap smoothed sample / 4 := by
  rw [nextSmoothed, nextDeviation, known]
  exact ⟨rfl, rfl⟩

theorem next_le {estimate : RoundTrip} {sample most : Nat}
    (smoothed_le : ∀ smoothed, estimate.smoothed = some smoothed → smoothed ≤ most)
    (deviation_le : estimate.deviation ≤ most) (sample_le : sample ≤ most) :
    estimate.nextSmoothed sample ≤ most ∧ estimate.nextDeviation sample ≤ most := by
  cases known : estimate.smoothed with
  | none =>
      obtain ⟨smoothed_eq, deviation_eq⟩ := next_of_none known sample
      omega
  | some smoothed =>
      obtain ⟨smoothed_eq, deviation_eq⟩ := next_of_some known sample
      have smoothed_le := smoothed_le smoothed known
      rw [gap] at deviation_eq
      omega

theorem observe_eq {estimate : RoundTrip} {sample most : Nat}
    (smoothed_le : ∀ smoothed, estimate.smoothed = some smoothed → smoothed ≤ most)
    (deviation_le : estimate.deviation ≤ most) (sample_le : sample ≤ most)
    (seven : 7 * most < Duration.limit) (margin : most + estimate.granularity < Duration.limit) :
    estimate.observe sample = .ok (estimate.observed sample) := by
  obtain ⟨smoothed_le', deviation_le'⟩ := next_le smoothed_le deviation_le sample_le
  have smooth_eq : estimate.smooth sample =
      .ok (estimate.nextSmoothed sample, estimate.nextDeviation sample) := by
    rw [smooth]
    cases known : estimate.smoothed with
    | none =>
        obtain ⟨smoothed_eq, deviation_eq⟩ := next_of_none known sample
        rw [smoothed_eq, deviation_eq]
    | some smoothed =>
        obtain ⟨smoothed_eq, deviation_eq⟩ := next_of_some known sample
        have smoothed_le := smoothed_le smoothed known
        rw [smoothed_eq, deviation_eq]
        have tripled := checked_eq (show estimate.deviation * 3 < Duration.limit by omega)
        have deviated := checked_eq (show
          estimate.deviation * 3 / 4 + gap smoothed sample / 4 < Duration.limit by omega)
        have weighted := checked_eq (show smoothed * 7 < Duration.limit by omega)
        have mean := checked_eq (show smoothed * 7 / 8 + sample / 8 < Duration.limit by omega)
        simp only [tripled, deviated, weighted, mean, bind, Except.bind]
        rfl
  have quadrupled := checked_eq
    (show estimate.nextDeviation sample * 4 < Duration.limit by omega)
  have timeout := checked_eq (show estimate.nextSmoothed sample +
    max estimate.granularity (estimate.nextDeviation sample * 4) < Duration.limit by omega)
  rw [observe, smooth_eq]
  simp only [quadrupled, timeout, bind, Except.bind]
  rfl

/-- Estimates that do not exceed a length of time. -/
structure Within (estimate : RoundTrip) (limit : Nat) : Prop where
  /-- The smoothed round-trip time is within the limit. -/
  smoothed_le : ∀ smoothed, estimate.smoothed = some smoothed → smoothed ≤ limit
  /-- So is its deviation. -/
  deviation_le : estimate.deviation ≤ limit
  /-- So is the clock granularity. -/
  granularity_le : estimate.granularity ≤ limit

namespace Within

variable {estimate : RoundTrip} {limit : Nat}

/-- A sample within the limit leaves the estimates within it. -/
theorem observe (within : estimate.Within limit) (representable : limit * 16 ≤ Duration.limit)
    {sample : Nat} (sample_le : sample ≤ limit) :
    ∃ after, estimate.observe sample = .ok after ∧ after.Within limit := by
  have granularity_le := within.granularity_le
  have limit_pos : 0 < Duration.limit := by decide
  obtain ⟨smoothed_le, deviation_le⟩ := next_le within.smoothed_le within.deviation_le sample_le
  refine ⟨_, observe_eq within.smoothed_le within.deviation_le sample_le (by omega) (by omega),
    fun value value_eq => ?_, deviation_le, granularity_le⟩
  obtain rfl := Option.some.inj value_eq
  exact smoothed_le

/-- Samples within the limit leave the estimates within it. -/
theorem foldlM_observe (within : estimate.Within limit)
    (representable : limit * 16 ≤ Duration.limit) {samples : List Nat}
    (samples_le : ∀ sample ∈ samples, sample ≤ limit) :
    ∃ after, samples.foldlM RoundTrip.observe estimate = .ok after ∧ after.Within limit := by
  induction samples generalizing estimate with
  | nil => exact ⟨estimate, rfl, within⟩
  | cons sample samples ih =>
      obtain ⟨next, observed, within'⟩ := within.observe representable (samples_le sample (by simp))
      obtain ⟨after, folded, within''⟩ :=
        ih within' fun sample mem => samples_le sample (List.mem_cons_of_mem _ mem)
      refine ⟨after, ?_, within''⟩
      rw [List.foldlM_cons, observed]
      exact folded

theorem backOff (within : estimate.Within limit) {after : RoundTrip}
    (done : estimate.backOff = .ok after) : after.Within limit := by
  obtain ⟨doubled, -, done⟩ := Fault.exists_of_bind_eq_ok done
  obtain rfl := Except.ok.inj done
  exact ⟨within.smoothed_le, within.deviation_le, within.granularity_le⟩

theorem initial {config : Config} (granularity_le : config.clockGranularity ≤ limit) :
    (RoundTrip.initial config).Within limit where
  smoothed_le _ none := by simp [RoundTrip.initial] at none
  deviation_le := Nat.zero_le limit
  granularity_le := granularity_le

end Within

theorem timeout_of_observe {estimate after : RoundTrip} {sample : Nat}
    (observed : estimate.observe sample = .ok after) :
    after.maxTimeout = estimate.maxTimeout ∧ after.timeout ≤ estimate.maxTimeout := by
  obtain ⟨⟨smoothed, deviation⟩, -, observed⟩ := Fault.exists_of_bind_eq_ok observed
  obtain ⟨margin, -, observed⟩ := Fault.exists_of_bind_eq_ok observed
  obtain ⟨timeout, -, observed⟩ := Fault.exists_of_bind_eq_ok observed
  obtain rfl := Except.ok.inj observed
  exact ⟨rfl, Nat.min_le_right _ _⟩

theorem timeout_of_backOff {estimate after : RoundTrip} (done : estimate.backOff = .ok after) :
    after.maxTimeout = estimate.maxTimeout ∧ after.timeout ≤ estimate.maxTimeout := by
  obtain ⟨doubled, -, done⟩ := Fault.exists_of_bind_eq_ok done
  obtain rfl := Except.ok.inj done
  exact ⟨rfl, Nat.min_le_right _ _⟩

theorem foldlM_observe_induction (holds : RoundTrip → Prop)
    (observe : ∀ {estimate after : RoundTrip} {sample : Nat}, holds estimate →
      estimate.observe sample = .ok after → holds after)
    {samples : List Nat} {estimate after : RoundTrip} (start : holds estimate)
    (observed : samples.foldlM RoundTrip.observe estimate = .ok after) : holds after := by
  induction samples generalizing estimate with
  | nil =>
      obtain rfl := Except.ok.inj observed
      exact start
  | cons sample samples ih =>
      rw [List.foldlM_cons] at observed
      obtain ⟨next, first, observed⟩ := Fault.exists_of_bind_eq_ok observed
      exact ih (observe start first) observed

/-- A timeout that does not exceed a length of time, and cannot come to. -/
structure Paced (estimate : RoundTrip) (limit : Nat) : Prop where
  /-- The timeout is within the limit. -/
  timeout_le : estimate.timeout ≤ limit
  /-- So is the greatest timeout. -/
  maxTimeout_le : estimate.maxTimeout ≤ limit

namespace Paced

variable {estimate after : RoundTrip} {limit : Nat}

/-- A sample leaves the timeout below the greatest one. -/
theorem observe (paced : estimate.Paced limit) {sample : Nat}
    (observed : estimate.observe sample = .ok after) : after.Paced limit := by
  obtain ⟨max_eq, timeout_le⟩ := timeout_of_observe observed
  exact ⟨Nat.le_trans timeout_le paced.maxTimeout_le, max_eq ▸ paced.maxTimeout_le⟩

theorem foldlM_observe (paced : estimate.Paced limit) {samples : List Nat}
    (observed : samples.foldlM RoundTrip.observe estimate = .ok after) : after.Paced limit :=
  foldlM_observe_induction (·.Paced limit) (·.observe ·) paced observed

theorem backOff (paced : estimate.Paced limit) (done : estimate.backOff = .ok after) :
    after.Paced limit := by
  obtain ⟨max_eq, timeout_le⟩ := timeout_of_backOff done
  exact ⟨Nat.le_trans timeout_le paced.maxTimeout_le, max_eq ▸ paced.maxTimeout_le⟩

theorem initial {config : Config} (valid : config.Valid)
    (maxTimeout_le : config.maxTimeout ≤ limit) :
    (RoundTrip.initial config).Paced limit :=
  ⟨Nat.le_trans ((Config.valid_iff config).mp valid).2.2.2.2.2.1 maxTimeout_le, maxTimeout_le⟩

end Paced

/-- Estimates that go on under some parameters. -/
structure Obeys (estimate : RoundTrip) (config : Config) : Prop where
  /-- The greatest timeout stays. -/
  maxTimeout_eq : estimate.maxTimeout = config.maxTimeout
  /-- The timeout does not exceed it. -/
  timeout_le : estimate.timeout ≤ config.maxTimeout

namespace Obeys

variable {estimate after : RoundTrip} {config : Config}

theorem initial (valid : config.Valid) : (RoundTrip.initial config).Obeys config :=
  ⟨rfl, ((Config.valid_iff config).mp valid).2.2.2.2.2.1⟩

theorem observe (obeys : estimate.Obeys config) {sample : Nat}
    (observed : estimate.observe sample = .ok after) : after.Obeys config := by
  obtain ⟨max_eq, timeout_le⟩ := timeout_of_observe observed
  exact ⟨max_eq.trans obeys.maxTimeout_eq, obeys.maxTimeout_eq ▸ timeout_le⟩

theorem foldlM_observe (obeys : estimate.Obeys config) {samples : List Nat}
    (observed : samples.foldlM RoundTrip.observe estimate = .ok after) : after.Obeys config :=
  foldlM_observe_induction (·.Obeys config) (·.observe ·) obeys observed

theorem backOff (obeys : estimate.Obeys config) (done : estimate.backOff = .ok after) :
    after.Obeys config := by
  obtain ⟨max_eq, timeout_le⟩ := timeout_of_backOff done
  exact ⟨max_eq.trans obeys.maxTimeout_eq, obeys.maxTimeout_eq ▸ timeout_le⟩

/-- The timeout doubles up to the greatest one, if twice the greatest one is representable. -/
theorem backOff_eq (obeys : estimate.Obeys config)
    (doubles : config.maxTimeout * 2 < Duration.limit) :
    estimate.backOff =
      .ok { estimate with timeout := min (estimate.timeout * 2) config.maxTimeout } := by
  have timeout_le := obeys.timeout_le
  rw [RoundTrip.backOff, checked_eq (by omega), ← obeys.maxTimeout_eq]
  rfl

end Obeys

/-- Estimates result from samples, whatever became of the timeout in between. -/
def Reflects (estimate : RoundTrip) (config : Config) (samples : List Nat) : Prop :=
  ∃ measured timeout, samples.foldlM observe (initial config) = .ok measured ∧
    estimate = { measured with timeout }

namespace Reflects

variable {config : Config} {estimate after : RoundTrip} {samples more : List Nat}

theorem initial (config : Config) : (initial config).Reflects config [] :=
  ⟨_, _, rfl, rfl⟩

/-- Further samples do not depend on the timeout, which they replace. -/
theorem observe (reflects : estimate.Reflects config samples)
    (measured : more.foldlM RoundTrip.observe estimate = .ok after) :
    after.Reflects config (samples ++ more) := by
  obtain ⟨earlier, timeout, folded, rfl⟩ := reflects
  cases more with
  | nil =>
      obtain rfl := Except.ok.inj measured
      exact ⟨earlier, timeout, by rwa [List.append_nil], rfl⟩
  | cons sample more =>
      refine ⟨after, after.timeout, ?_, rfl⟩
      rw [List.foldlM_append, folded]
      exact measured

theorem backOff (reflects : estimate.Reflects config samples)
    (done : estimate.backOff = .ok after) : after.Reflects config samples := by
  obtain ⟨measured, timeout, folded, rfl⟩ := reflects
  obtain ⟨doubled, -, done⟩ := Fault.exists_of_bind_eq_ok done
  obtain rfl := Except.ok.inj done
  exact ⟨measured, _, folded, rfl⟩

end Reflects

end RoundTrip
end ReliableTransport
