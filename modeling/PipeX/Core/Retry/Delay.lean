/-
  PipeX.Core.Retry.Delay

  The backoff of `withRetry` of `src/core/core.ts`: how long the loop waits behind a
  failed attempt.

  `delayMs * Math.pow(2, i)` is computed in doubles, and is exact until it overflows
  to infinity (`scheduledWait_eq`).  What is handed to `setTimeout` is bounded by the
  limits of the engine only, and those leave `maxRetryDelayMs` unbounded.
-/
import PipeX.Core.Retry
import PipeX.Lib.Binary64

namespace PipeX

open Binary64

/-- `retryOptions.backoff`; everything but `exponential` is `fixed`. -/
inductive Backoff where
  | fixed
  | exponential
deriving DecidableEq, Repr

/-- `nextDelay` behind the failed attempt `i`. -/
def nextDelay (backoff : Backoff) (delayMs i : Nat) : Double :=
  match backoff with
  | .exponential => (Double.finite delayMs).mul (round (2 ^ i))
  | .fixed => .finite delayMs

/-- What is handed to `setTimeout` behind the failed attempt `i`, if the loop waits at
    all. -/
def scheduledWait (backoff : Backoff) (delayMs maxDelay i : Nat) : Option Double :=
  if (nextDelay backoff delayMs i).isPositive then
    some ((nextDelay backoff delayMs i).min (.finite maxDelay))
  else
    none

/-- What `setTimeout` makes of a delay. -/
def timerMs (delay : Nat) : Nat := if 1 ≤ delay ∧ delay ≤ maxTimerMs then delay else 1

/-- The wait that the options ask for. -/
def plannedWait (backoff : Backoff) (delayMs maxDelay i : Nat) : Nat :=
  match backoff with
  | .exponential => min (delayMs * 2 ^ i) maxDelay
  | .fixed => min delayMs maxDelay

/-! ## The wait is the planned one -/

theorem nextDelay_exponential {delayMs : Nat} (hdelay : delayMs < 2 ^ 53) (hpos : 0 < delayMs)
    (i : Nat) :
    nextDelay .exponential delayMs i =
      if delayMs * 2 ^ i < overflow then .finite (delayMs * 2 ^ i) else .infinity :=
  mul_round_two_pow hdelay hpos i

/-- Without a delay there is no wait, not even behind an infinite factor. -/
theorem scheduledWait_zero (backoff : Backoff) (maxDelay i : Nat) :
    scheduledWait backoff 0 maxDelay i = none := by
  apply if_neg
  cases backoff with
  | fixed => simp [nextDelay, Double.isPositive]
  | exponential =>
    -- 0 · ∞ is no number, and no number is not positive
    rw [nextDelay, round_two_pow]
    split
    · rw [Double.mul, Nat.zero_mul, round_zero]
      decide
    · decide

/-- Otherwise the wait is the planned one, also where the product overflows. -/
theorem scheduledWait_eq {backoff : Backoff} {delayMs maxDelay : Nat} (hdelay : delayMs < 2 ^ 53)
    (hmax : maxDelay < 2 ^ 53) (hpos : 0 < delayMs) (i : Nat) :
    scheduledWait backoff delayMs maxDelay i =
      some (.finite (plannedWait backoff delayMs maxDelay i)) := by
  have hprod : 0 < delayMs * 2 ^ i := Nat.mul_pos hpos (Nat.two_pow_pos i)
  cases backoff with
  | fixed => exact if_pos (by simpa [nextDelay, Double.isPositive] using hpos)
  | exponential =>
    rw [scheduledWait, nextDelay_exponential hdelay hpos]
    by_cases hfinite : delayMs * 2 ^ i < overflow
    · rw [if_pos hfinite]
      exact if_pos (by simpa [Double.isPositive] using hprod)
    · -- the bound is below the overflow
      have hlt : maxDelay < overflow :=
        Nat.lt_trans hmax (two_pow_lt_overflow.mpr (by decide))
      rw [if_neg hfinite, plannedWait, Nat.min_eq_right (by omega)]
      rfl

theorem plannedWait_mono {backoff : Backoff} {delayMs maxDelay i j : Nat} (h : i ≤ j) :
    plannedWait backoff delayMs maxDelay i ≤ plannedWait backoff delayMs maxDelay j := by
  cases backoff with
  | fixed => exact Nat.le_refl _
  | exponential =>
    have hpow : delayMs * 2 ^ i ≤ delayMs * 2 ^ j :=
      Nat.mul_le_mul_left delayMs (Nat.pow_le_pow_right (by decide) h)
    simp only [plannedWait]
    omega

/-! ## Accepted configurations -/

theorem checkRetryOptions_delay {options : Option DeclaredRetryOptions} {limits : EngineLimits}
    (h : checkRetryOptions options limits = .ok ()) :
    (retryDelayMs options).toNat ≤ limits.maxRetryDelayMs := by
  simp only [checkRetryOptions, bind, Except.bind, throw, throwThe, MonadExceptOf.throw] at h
  split at h
  · cases h
  split at h
  · cases h
  -- behind the check of the attempts stands that of the delay
  rename_i hdelay
  omega

/-- The waits of a call: what is handed to `setTimeout` is the planned wait, does not
    decrease, and stays what it is in the timer. -/
structure DelaysInRange (backoff : Backoff) (delayMs maxDelay attempts : Nat) : Prop where
  exact : ∀ i, i + 1 < attempts →
    (scheduledWait backoff delayMs maxDelay i).getD (.finite 0) =
      .finite (plannedWait backoff delayMs maxDelay i)
  monotone : ∀ i j, i ≤ j → j + 1 < attempts →
    plannedWait backoff delayMs maxDelay i ≤ plannedWait backoff delayMs maxDelay j
  timer : ∀ i ms, i + 1 < attempts →
    scheduledWait backoff delayMs maxDelay i = some (.finite ms) → ms ≤ maxTimerMs ∧ timerMs ms = ms

/-- A plan that is not zero is a wait. -/
theorem plannedWait_pos {backoff : Backoff} {delayMs maxDelay : Nat} (hpos : 0 < delayMs)
    (hmax : delayMs ≤ maxDelay) (i : Nat) : 0 < plannedWait backoff delayMs maxDelay i := by
  have hprod : 0 < delayMs * 2 ^ i := Nat.mul_pos hpos (Nat.two_pow_pos i)
  cases backoff with
  | fixed => exact Nat.lt_min.mpr ⟨hpos, Nat.lt_of_lt_of_le hpos hmax⟩
  | exponential => exact Nat.lt_min.mpr ⟨hprod, Nat.lt_of_lt_of_le hpos hmax⟩

theorem plannedWait_zero (backoff : Backoff) (maxDelay i : Nat) :
    plannedWait backoff 0 maxDelay i = 0 := by
  cases backoff with
  | fixed => exact Nat.zero_min _
  | exponential => rw [plannedWait, Nat.zero_mul, Nat.zero_min]

/-- The waits are in the range of the timer exactly if the last one is planned to be. -/
theorem delaysInRange_iff {backoff : Backoff} {delayMs maxDelay attempts : Nat}
    (hdelay : delayMs ≤ maxDelay) (hmax : maxDelay < 2 ^ 53) :
    DelaysInRange backoff delayMs maxDelay attempts ↔
      attempts ≤ 1 ∨ plannedWait backoff delayMs maxDelay (attempts - 2) ≤ maxTimerMs := by
  rcases Nat.eq_zero_or_pos delayMs with rfl | hpos
  -- no delay, no timer
  · refine iff_of_true ⟨fun i _ => ?_, fun i j hij _ => plannedWait_mono hij, fun i ms _ hwait => ?_⟩
      (.inr ?_)
    · rw [scheduledWait_zero, plannedWait_zero]
      rfl
    · rw [scheduledWait_zero] at hwait
      cases hwait
    · rw [plannedWait_zero]
      exact Nat.zero_le _
  -- with a delay, every failed attempt waits as planned
  have hwaits : ∀ i, scheduledWait backoff delayMs maxDelay i =
      some (.finite (plannedWait backoff delayMs maxDelay i)) :=
    scheduledWait_eq (Nat.lt_of_le_of_lt hdelay hmax) hmax hpos
  constructor
  · intro h
    -- the timer of the last wait
    by_cases hattempts : attempts ≤ 1
    · exact .inl hattempts
    · exact .inr (h.timer (attempts - 2) _ (by omega) (hwaits _)).1
  · intro h
    refine ⟨fun i _ => ?_, fun i j hij _ => plannedWait_mono hij, fun i ms hi hwait => ?_⟩
    · rw [hwaits i]
      rfl
    · rw [hwaits i] at hwait
      cases hwait
      -- the last wait is the longest
      have hlast : plannedWait backoff delayMs maxDelay i ≤
          plannedWait backoff delayMs maxDelay (attempts - 2) := plannedWait_mono (by omega)
      have hle : plannedWait backoff delayMs maxDelay i ≤ maxTimerMs := by
        rcases h with hone | hrange
        · omega
        · exact Nat.le_trans hlast hrange
      exact ⟨hle, if_pos ⟨plannedWait_pos hpos hdelay i, hle⟩⟩

/-- The waits of every accepted configuration are the planned ones and do not decrease;
    they stay in the range of the timer exactly if there is one attempt only, or the
    limit or the last delay is in that range. -/
theorem retry_delays (limits : AcceptedLimits) (options : Option DeclaredRetryOptions)
    (backoff : Backoff) (haccepted : checkRetryOptions options limits.val = .ok ()) :
    DelaysInRange backoff (retryDelayMs options).toNat limits.val.maxRetryDelayMs
        (retryAttempts options).toNat ↔
      (retryAttempts options).toNat = 1 ∨ limits.val.maxRetryDelayMs ≤ maxTimerMs ∨
        match backoff with
        | .fixed => (retryDelayMs options).toNat ≤ maxTimerMs
        | .exponential =>
          (retryDelayMs options).toNat * 2 ^ ((retryAttempts options).toNat - 2) ≤ maxTimerMs := by
  have hattempts := checkRetryOptions_attempts haccepted
  -- an accepted limit is a safe integer, and so a double
  have hsafe : limits.val.maxRetryDelayMs ≤ maxSafeInteger := limits.property.safe .maxRetryDelayMs
  have hmax : limits.val.maxRetryDelayMs < 2 ^ 53 := Nat.lt_of_le_of_lt hsafe (by decide)
  rw [delaysInRange_iff (checkRetryOptions_delay haccepted) hmax]
  cases backoff with
  | fixed =>
    simp only [plannedWait]
    omega
  | exponential =>
    simp only [plannedWait]
    omega

/-- Limits of one long delay. -/
def longDelay : PartialLimits := fun name =>
  if name = .maxRetryDelayMs then some (.integer 0x80000000) else none

/-- The default limits and five attempts. -/
theorem retry_delays_default :
    DelaysInRange .exponential 1000 30000 5 :=
  (retry_delays ⟨defaultLimits, defaultLimits_valid⟩
    (some ⟨some (.integer 5), some (.integer 1000)⟩) .exponential (by decide)).mpr
    (.inr (.inl (by decide)))

/-- A limit that the engine takes and a delay that `withRetry` takes under it: the
    timer makes one millisecond of it. -/
theorem long_delay_collapses :
    validateLimits (defaultLimits.override longDelay) = .ok () ∧
      checkRetryOptions (some ⟨some (.integer 2), some (.integer 0x80000000)⟩)
        (.ofValues fun name => (defaultLimits.override longDelay name).toNat) = .ok () ∧
      scheduledWait .fixed 0x80000000 0x80000000 0 = some (.finite 0x80000000) ∧
      timerMs 0x80000000 = 1 ∧
      ¬ DelaysInRange .fixed 0x80000000 0x80000000 2 := by
  have hwait : scheduledWait .fixed 0x80000000 0x80000000 0 = some (.finite 0x80000000) := by rfl
  -- the timer makes 1 ms of the first wait
  refine ⟨by decide +kernel, by decide +kernel, hwait, by decide, fun h => ?_⟩
  exact absurd (h.timer 0 _ (by decide) hwait).1 (by decide)

end PipeX
