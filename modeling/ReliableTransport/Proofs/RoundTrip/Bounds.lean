import ReliableTransport.Proofs.RoundTrip

/-!
# Estimates between bounds

Samples between two bounds keep the smoothed round-trip time and its deviation between them, apart
from what the lower bound loses to truncation, however many of them are taken.  So no length of time
ever leaves its range if it could not do so at the upper bound.
-/

namespace ReliableTransport
namespace RoundTrip

/-- What the estimates react to. -/
inductive Stimulus where
  /-- A round trip was measured. -/
  | sample (length : Nat)
  /-- The timeout expired. -/
  | expiry
  deriving DecidableEq, Repr

/-- The estimates after one stimulus. -/
def react (estimate : RoundTrip) : Stimulus → Except Fault RoundTrip
  | .sample length => estimate.observe length
  | .expiry => estimate.backOff

/-- The estimates after stimuli in their order. -/
def reactAll (estimate : RoundTrip) (stimuli : List Stimulus) : Except Fault RoundTrip :=
  stimuli.foldlM react estimate

theorem reactAll_cons (estimate : RoundTrip) (stimulus : Stimulus) (stimuli : List Stimulus) :
    estimate.reactAll (stimulus :: stimuli) = (estimate.react stimulus).bind (·.reactAll stimuli) :=
  rfl

/-- Estimates under some parameters whose samples lie between two bounds. -/
structure Between (estimate : RoundTrip) (config : Config) (least most : Nat) : Prop where
  /-- The greatest timeout stays and is not exceeded. -/
  obeys : estimate.Obeys config
  /-- The least timeout stays. -/
  minTimeout_eq : estimate.minTimeout = config.minTimeout
  /-- The timeout is not below it. -/
  timeout_ge : config.minTimeout ≤ estimate.timeout
  /-- The clock granularity stays. -/
  granularity_eq : estimate.granularity = config.clockGranularity
  /-- The smoothed time is not below the lower bound, as far as eighths of it are counted. -/
  smoothed_ge : ∀ smoothed, estimate.smoothed = some smoothed → 8 * (least / 8) ≤ smoothed
  /-- It is not above the upper bound. -/
  smoothed_le : ∀ smoothed, estimate.smoothed = some smoothed → smoothed ≤ most
  /-- Nor is the deviation. -/
  deviation_le : estimate.deviation ≤ most

namespace Between

variable {estimate after : RoundTrip} {config : Config} {least most sample : Nat}

theorem initial (ordered : config.minTimeout ≤ config.initialTimeout)
    (bounded : config.initialTimeout ≤ config.maxTimeout) :
    (RoundTrip.initial config).Between config least most where
  obeys := ⟨rfl, bounded⟩
  minTimeout_eq := rfl
  timeout_ge := ordered
  granularity_eq := rfl
  smoothed_ge _ known := by simp [RoundTrip.initial] at known
  smoothed_le _ known := by simp [RoundTrip.initial] at known
  deviation_le := Nat.zero_le most

theorem nextSmoothed_ge (between : estimate.Between config least most) (le : least ≤ sample) :
    8 * (least / 8) ≤ estimate.nextSmoothed sample := by
  cases known : estimate.smoothed with
  | none =>
      rw [(next_of_none known sample).1]
      omega
  | some smoothed =>
      rw [(next_of_some known sample).1]
      have smoothed_ge := between.smoothed_ge smoothed known
      omega

theorem observe (between : estimate.Between config least most)
    (ordered : config.minTimeout ≤ config.maxTimeout) (seven : 7 * most < Duration.limit)
    (margin : most + config.clockGranularity < Duration.limit) (least_le : least ≤ sample)
    (le_most : sample ≤ most) :
    estimate.observe sample = .ok (estimate.observed sample) ∧
      (estimate.observed sample).Between config least most := by
  have observed_eq := observe_eq between.smoothed_le between.deviation_le le_most seven
    (between.granularity_eq ▸ margin)
  obtain ⟨smoothed_le, deviation_le⟩ := next_le between.smoothed_le between.deviation_le le_most
  refine ⟨observed_eq, between.obeys.observe observed_eq, between.minTimeout_eq, ?_,
    between.granularity_eq, ?_, ?_, deviation_le⟩
  · rw [observed, between.minTimeout_eq, between.obeys.maxTimeout_eq]
    exact Nat.le_min.mpr ⟨Nat.le_max_right _ _, ordered⟩
  · intro smoothed known
    obtain rfl := Option.some.inj known
    exact between.nextSmoothed_ge least_le
  · intro smoothed known
    obtain rfl := Option.some.inj known
    exact smoothed_le

theorem backOff (between : estimate.Between config least most)
    (ordered : config.minTimeout ≤ config.maxTimeout)
    (doubles : config.maxTimeout * 2 < Duration.limit) :
    ∃ after, estimate.backOff = .ok after ∧ after.Between config least most ∧
      after.smoothed = estimate.smoothed := by
  have done := between.obeys.backOff_eq doubles
  refine ⟨_, done, { between with obeys := between.obeys.backOff done, timeout_ge := ?_ }, rfl⟩
  have timeout_ge := between.timeout_ge
  exact Nat.le_min.mpr ⟨by omega, ordered⟩

/-- Whatever stimuli come, the estimates stay between the bounds, and a smoothed time is known from
the first sample on. -/
theorem reactAll (between : estimate.Between config least most)
    (ordered : config.minTimeout ≤ config.maxTimeout)
    (doubles : config.maxTimeout * 2 < Duration.limit) (seven : 7 * most < Duration.limit)
    (margin : most + config.clockGranularity < Duration.limit) {stimuli : List Stimulus}
    (bounded : ∀ length, .sample length ∈ stimuli → least ≤ length ∧ length ≤ most) :
    ∃ after, estimate.reactAll stimuli = .ok after ∧ after.Between config least most ∧
      (estimate.smoothed.isSome ∨ (∃ length, .sample length ∈ stimuli) →
        after.smoothed.isSome) := by
  induction stimuli generalizing estimate with
  | nil => exact ⟨estimate, rfl, between, fun known => by simpa using known⟩
  | cons stimulus stimuli ih =>
      have rest : ∀ length, .sample length ∈ stimuli → least ≤ length ∧ length ≤ most :=
        fun length mem => bounded length (List.mem_cons_of_mem _ mem)
      cases stimulus with
      | sample length =>
          obtain ⟨least_le, le_most⟩ := bounded length List.mem_cons_self
          obtain ⟨observed_eq, between'⟩ :=
            between.observe ordered seven margin least_le le_most
          obtain ⟨after, reacted, between'', known⟩ := ih between' rest
          refine ⟨after, ?_, between'', fun _ => known (Or.inl rfl)⟩
          rw [reactAll_cons, react, observed_eq]
          exact reacted
      | expiry =>
          obtain ⟨doubled, done, between', same⟩ := between.backOff ordered doubles
          obtain ⟨after, reacted, between'', known⟩ := ih between' rest
          refine ⟨after, ?_, between'', fun before => known ?_⟩
          · rw [reactAll_cons, react, done]
            exact reacted
          · simpa [same] using before

end Between

/-- Whatever samples and expiries come in whatever order, no length of time leaves its range, and
the timeout and the estimates are between their bounds. -/
theorem reactAll_initial (config : Config) (least most : Nat) (stimuli : List Stimulus)
    (ordered : config.minTimeout ≤ config.initialTimeout)
    (bounded : config.initialTimeout ≤ config.maxTimeout)
    (doubles : 2 * config.maxTimeout < Duration.limit)
    (seven : 7 * most < Duration.limit)
    (margin : most + config.clockGranularity < Duration.limit)
    (within : ∀ length, .sample length ∈ stimuli → least ≤ length ∧ length ≤ most) :
    ∃ after, (initial config).reactAll stimuli = .ok after ∧
      config.minTimeout ≤ after.timeout ∧ after.timeout ≤ config.maxTimeout ∧
      ((∃ length, .sample length ∈ stimuli) → ∃ smoothed, after.smoothed = some smoothed ∧
        8 * (least / 8) ≤ smoothed ∧ smoothed ≤ most ∧ after.deviation ≤ most) := by
  have start : (initial config).Between config least most := .initial ordered bounded
  obtain ⟨after, reacted, between, known⟩ := start.reactAll (Nat.le_trans ordered bounded)
    (by omega) seven margin within
  refine ⟨after, reacted, between.timeout_ge, between.obeys.timeout_le, fun measured => ?_⟩
  obtain ⟨smoothed, smoothed_eq⟩ := Option.isSome_iff_exists.mp (known (Or.inr measured))
  exact ⟨smoothed, smoothed_eq, between.smoothed_ge smoothed smoothed_eq,
    between.smoothed_le smoothed smoothed_eq, between.deviation_le⟩

/-- Truncation brings the smoothed time below both of two samples, but not below the bound. -/
theorem reactAll_initial_odd :
    ∃ after, (initial {}).reactAll [.sample 17, .expiry, .sample 17] = .ok after ∧
      Duration.second ≤ after.timeout ∧ after.timeout ≤ 60 * Duration.second ∧
      after.smoothed = some 16 ∧ after.deviation ≤ 17 := by
  have ran : ∃ after, (initial {}).reactAll [.sample 17, .expiry, .sample 17] = .ok after ∧
      after.smoothed = some 16 := ⟨_, rfl, rfl⟩
  obtain ⟨after, reacted, smoothed_eq⟩ := ran
  obtain ⟨other, reacted', timeout_ge, timeout_le, measured⟩ :=
    reactAll_initial {} 17 17 [.sample 17, .expiry, .sample 17] (by decide) (by decide)
      (by decide) (by decide) (by decide) (by simp)
  obtain rfl := Except.ok.inj (reacted.symm.trans reacted')
  obtain ⟨smoothed, -, -, -, deviation_le⟩ := measured ⟨17, List.mem_cons_self⟩
  exact ⟨after, reacted, timeout_ge, timeout_le, smoothed_eq, deviation_le⟩

end RoundTrip
end ReliableTransport
