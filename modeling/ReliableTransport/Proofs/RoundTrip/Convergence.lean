import ReliableTransport.Proofs.RoundTrip.Bounds

/-!
# Estimates on a steady path

Every round trip of a steady path takes the same time.  The smoothed time starts with it and loses
one unit with each sample to truncation, until it is a multiple of eight.  The deviation decreases
as well, until the same truncation keeps up a rest of four units at most.
-/

namespace ReliableTransport
namespace RoundTrip

theorem smoothed_step {smoothed round : Nat} (lower : 8 * (round / 8) ≤ smoothed)
    (upper : smoothed ≤ round) :
    smoothed * 7 / 8 + round / 8 = max (smoothed - 1) (8 * (round / 8)) := by
  omega

theorem deviation_step (deviation : Nat) {missed : Nat} (missed_lt : missed < 8) :
    deviation * 3 / 4 + missed / 4 ≤ max (deviation - 1) 4 := by
  omega

/-- The estimates after a number of samples of the same length behind the first one. -/
structure Steady (estimate : RoundTrip) (config : Config) (round count : Nat) : Prop where
  /-- No sample was below or above the length. -/
  between : estimate.Between config round round
  /-- One unit is lost with each sample, down to a multiple of eight. -/
  smoothed_eq : estimate.smoothed = some (max (round - count) (8 * (round / 8)))
  /-- The deviation starts with half of the length and loses one unit or more. -/
  deviation_le : estimate.deviation ≤ max (round / 2 - count) 4
  /-- The timeout follows the last sample. -/
  timeout_eq : estimate.timeout =
    min (max (max (round - count) (8 * (round / 8)) +
      max config.clockGranularity (estimate.deviation * 4)) config.minTimeout) config.maxTimeout

namespace Steady

variable {estimate : RoundTrip} {config : Config} {round count : Nat}

theorem of_observe (between : estimate.Between config round round)
    (ordered : config.minTimeout ≤ config.maxTimeout) (seven : 7 * round < Duration.limit)
    (margin : round + config.clockGranularity < Duration.limit)
    (smoothed_eq : estimate.nextSmoothed round = max (round - count) (8 * (round / 8)))
    (deviation_le : estimate.nextDeviation round ≤ max (round / 2 - count) 4) :
    ∃ after, estimate.observe round = .ok after ∧ after.Steady config round count := by
  obtain ⟨observed_eq, between'⟩ :=
    between.observe ordered seven margin (Nat.le_refl round) (Nat.le_refl round)
  refine ⟨_, observed_eq, between', congrArg some smoothed_eq, deviation_le, ?_⟩
  rw [observed, smoothed_eq, between.granularity_eq, between.minTimeout_eq,
    between.obeys.maxTimeout_eq]

theorem first (between : estimate.Between config round round)
    (unknown : estimate.smoothed = none) (ordered : config.minTimeout ≤ config.maxTimeout)
    (seven : 7 * round < Duration.limit)
    (margin : round + config.clockGranularity < Duration.limit) :
    ∃ after, estimate.observe round = .ok after ∧ after.Steady config round 0 := by
  obtain ⟨smoothed_eq, deviation_eq⟩ := next_of_none unknown round
  apply of_observe between ordered seven margin
  · rw [smoothed_eq]
    omega
  · rw [deviation_eq]
    exact Nat.le_max_left _ _

theorem next (steady : estimate.Steady config round count)
    (ordered : config.minTimeout ≤ config.maxTimeout) (seven : 7 * round < Duration.limit)
    (margin : round + config.clockGranularity < Duration.limit) :
    ∃ after, estimate.observe round = .ok after ∧ after.Steady config round (count + 1) := by
  have deviation_le := steady.deviation_le
  obtain ⟨smoothed_eq, deviation_eq⟩ := next_of_some steady.smoothed_eq round
  have smoothed_ge : 8 * (round / 8) ≤ max (round - count) (8 * (round / 8)) :=
    Nat.le_max_right _ _
  have smoothed_le : max (round - count) (8 * (round / 8)) ≤ round := by omega
  have missed_lt : gap (max (round - count) (8 * (round / 8))) round < 8 := by
    rw [gap]
    omega
  have decreases := deviation_step estimate.deviation missed_lt
  apply of_observe steady.between ordered seven margin
  · rw [smoothed_eq, smoothed_step smoothed_ge smoothed_le]
    omega
  · rw [deviation_eq]
    omega

/-- Any number of samples of the same length. -/
theorem repeated (valid : config.Valid) (seven : 7 * round < Duration.limit)
    (margin : round + config.clockGranularity < Duration.limit) (count : Nat) :
    ∃ after, (List.replicate (count + 1) round).foldlM observe (initial config) = .ok after ∧
      after.Steady config round count := by
  have rules := (Config.valid_iff config).mp valid
  have ordered : config.minTimeout ≤ config.initialTimeout := rules.2.2.2.2.1
  have bounded : config.initialTimeout ≤ config.maxTimeout := rules.2.2.2.2.2.1
  induction count with
  | zero =>
      obtain ⟨after, observed, steady⟩ :=
        first (.initial ordered bounded) rfl (Nat.le_trans ordered bounded) seven margin
      refine ⟨after, ?_, steady⟩
      rw [List.replicate_succ, List.foldlM_cons, observed]
      rfl
  | succ count ih =>
      obtain ⟨middle, earlier, steady⟩ := ih
      obtain ⟨after, observed, steady'⟩ :=
        steady.next (Nat.le_trans ordered bounded) seven margin
      refine ⟨after, ?_, steady'⟩
      rw [List.replicate_succ', List.foldlM_append, earlier]
      change List.foldlM observe middle [round] = .ok after
      rw [List.foldlM_cons, observed]
      rfl

end Steady

/-- On a steady path the estimates come to rest: the smoothed time at a multiple of eight, and the
timeout at the clock granularity above it, as far as its bounds permit. -/
theorem comes_to_rest (config : Config) (valid : config.Valid) (round : Nat)
    (seven : 7 * round < Duration.limit) (coarse : 16 ≤ config.clockGranularity)
    (margin : round + config.clockGranularity < Duration.limit) :
    ∃ enough, ∀ count, enough ≤ count → ∃ after,
      (List.replicate count round).foldlM observe (initial config) = .ok after ∧
        after.smoothed = some (8 * (round / 8)) ∧ after.deviation ≤ 4 ∧
        after.timeout = min (max (8 * (round / 8) + config.clockGranularity) config.minTimeout)
          config.maxTimeout := by
  refine ⟨round + 8, fun count enough => ?_⟩
  obtain ⟨further, rfl⟩ : ∃ further, count = further + 1 := ⟨count - 1, by omega⟩
  obtain ⟨after, observed, steady⟩ := Steady.repeated valid seven margin further
  have deviation_le := steady.deviation_le
  have lost : max (round - further) (8 * (round / 8)) = 8 * (round / 8) := by omega
  have granularity_eq : max config.clockGranularity (after.deviation * 4) =
      config.clockGranularity := by omega
  have smoothed_eq := steady.smoothed_eq
  have timeout_eq := steady.timeout_eq
  rw [lost] at smoothed_eq
  rw [lost, granularity_eq] at timeout_eq
  exact ⟨after, observed, smoothed_eq, by omega, timeout_eq⟩

/-- A least timeout below the clock granularity. -/
def brisk : Config :=
  { minTimeout := 10 * Duration.millisecond, initialTimeout := 10 * Duration.millisecond }

/-- Seven units above forty milliseconds are lost, and the timeout is a tick of the clock above the
rest. -/
theorem comes_to_rest_brisk :
    ∃ enough, ∀ count, enough ≤ count → ∃ after,
      (List.replicate count (40 * Duration.millisecond + 7)).foldlM observe (initial brisk) =
          .ok after ∧
        after.smoothed = some (40 * Duration.millisecond) ∧ after.deviation ≤ 4 ∧
        after.timeout = 140 * Duration.millisecond :=
  comes_to_rest brisk rfl (40 * Duration.millisecond + 7) (by decide) (by decide) (by decide)

/-- The deviation need not vanish. -/
example : ((List.replicate 30 47).foldlM observe (initial brisk)).map (·.deviation) = .ok 4 := by
  decide

end RoundTrip
end ReliableTransport
