/-
  PipeX.Core.Retry

  `withRetry` of `src/core/core.ts` in an operation that is neither aborted nor
  timed out: the check of the options, and the attempts one after another.  The
  backoff decides only how long the loop waits between two attempts.
-/
import PipeX.Core.DataEngine.Limits

namespace PipeX

/-- `plugin.retryOptions`. -/
structure DeclaredRetryOptions where
  attempts : Option JsNumber
  delayMs : Option JsNumber
deriving DecidableEq, Repr

/-- `attempts = 1`. -/
def retryAttempts (options : Option DeclaredRetryOptions) : JsNumber :=
  (options.bind (·.attempts)).getD (.integer 1)

/-- `delayMs = 0`. -/
def retryDelayMs (options : Option DeclaredRetryOptions) : JsNumber :=
  (options.bind (·.delayMs)).getD (.integer 0)

/-- The interpolation of a number into a message; numbers that are no integers are
    not told apart here. -/
def JsNumber.text : JsNumber → String
  | .integer n => toString n
  | .nonInteger => "NaN"

/-- The two checks that open `withRetry`. -/
def checkRetryOptions (options : Option DeclaredRetryOptions) (limits : EngineLimits) :
    Except JsError Unit := do
  let attempts := retryAttempts options
  let delayMs := retryDelayMs options
  if attempts.isSafeInteger = false ∨ attempts.toNat < 1 ∨
      attempts.toNat > limits.maxRetryAttempts then
    throw (plainError s!"[PipeX] Invalid retry attempts: {attempts.text}")
  if delayMs.isLimit = false ∨ delayMs.toNat > limits.maxRetryDelayMs then
    throw (plainError s!"[PipeX] Invalid retry delay: {delayMs.text}")

variable {α : Type}

/-- The `for` loop with `remaining` attempts to go; `fn i` is what the attempt `i`
    comes to. -/
def attemptLoop (fn : Nat → Except JsError α) (i : Nat) :
    (remaining : Nat) → (lastError : JsError) → Except JsError α
  | 0, lastError => .error lastError
  | remaining + 1, _ =>
    match fn i with
    | .ok a => .ok a
    | .error error => attemptLoop fn (i + 1) remaining error

def withRetry (fn : Nat → Except JsError α) (options : Option DeclaredRetryOptions)
    (limits : EngineLimits) : Except JsError α := do
  checkRetryOptions options limits
  -- with no attempt at all the source throws `undefined`; the check rules that out
  attemptLoop fn 0 (retryAttempts options).toNat (plainError "undefined")

/-- What the loop returns is what one of the attempts returned. -/
theorem attemptLoop_ok {fn : Nat → Except JsError α} {i remaining : Nat} {lastError : JsError}
    {a : α} (h : attemptLoop fn i remaining lastError = .ok a) : ∃ j, fn j = .ok a := by
  induction remaining generalizing i lastError with
  | zero => cases h
  | succ remaining ih =>
    rw [attemptLoop] at h
    split at h
    · rename_i heq
      cases h
      exact ⟨i, heq⟩
    · exact ih h

theorem withRetry_ok {fn : Nat → Except JsError α} {options : Option DeclaredRetryOptions}
    {limits : EngineLimits} {a : α} (h : withRetry fn options limits = .ok a) :
    checkRetryOptions options limits = .ok () ∧ ∃ i, fn i = .ok a := by
  simp only [withRetry, bind, Except.bind] at h
  split at h
  · cases h
  rename_i hcheck
  exact ⟨hcheck, attemptLoop_ok h⟩

theorem checkRetryOptions_attempts {options : Option DeclaredRetryOptions} {limits : EngineLimits}
    (h : checkRetryOptions options limits = .ok ()) : 1 ≤ (retryAttempts options).toNat := by
  simp only [checkRetryOptions, bind, Except.bind, throw, throwThe, MonadExceptOf.throw] at h
  split at h
  · cases h
  rename_i hattempts
  omega

/-- Options that pass leave at least one attempt, and one that succeeds at once is
    the last. -/
theorem withRetry_first {fn : Nat → Except JsError α} {options : Option DeclaredRetryOptions}
    {limits : EngineLimits} {a : α} (hcheck : checkRetryOptions options limits = .ok ())
    (hfirst : fn 0 = .ok a) : withRetry fn options limits = .ok a := by
  have hattempts := checkRetryOptions_attempts hcheck
  obtain ⟨n, hn⟩ := Nat.exists_eq_add_of_le' hattempts
  simp only [withRetry, hcheck, hn, bind, Except.bind]
  rw [attemptLoop, hfirst]

/-- No options are always in order. -/
theorem checkRetryOptions_none {limits : EngineLimits} (h : limits.Valid) :
    checkRetryOptions none limits = .ok () := by
  have hattempts : 1 ≤ limits.maxRetryAttempts := h.positive .maxRetryAttempts (by decide)
  have hcheck : ¬ ((JsNumber.integer 1).isSafeInteger = false ∨ (JsNumber.integer 1).toNat < 1 ∨
      (JsNumber.integer 1).toNat > limits.maxRetryAttempts) := by
    simp only [JsNumber.toNat]
    rintro (hsafe | hzero | hmax)
    · exact absurd hsafe (by decide)
    · exact absurd hzero (by decide)
    · omega
  have hdelay : ¬ ((JsNumber.integer 0).isLimit = false ∨
      (JsNumber.integer 0).toNat > limits.maxRetryDelayMs) := by
    simp only [JsNumber.toNat]
    rintro (hsafe | hmax)
    · exact absurd hsafe (by decide)
    · omega
  exact (if_neg hcheck).trans (if_neg hdelay)

end PipeX
