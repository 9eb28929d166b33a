/-
  PipeX.Core.Operations

  Thrown values and abort signals: `abortError` and `throwIfAborted` of
  `src/core/operations.ts`.
-/
import PipeX.Core.Errors

namespace PipeX

/-- The classes of `Error` that the code tells apart. -/
inductive ErrorClass where
  | operationTimeoutError
  | operationAbortedError
  /-- every other class -/
  | error
deriving DecidableEq, Repr

/-- A value that is thrown, or that a signal is aborted with. -/
inductive Thrown where
  | error (cls : ErrorClass) (e : JsError)
  | undefined
  | null
  /-- another value, with what `String(value)` is -/
  | value (text : String)
  /-- a value for which `String(value)` throws, with what it throws -/
  | unprintable (thrown : Thrown)
deriving DecidableEq, Repr

namespace Thrown

/-- `new OperationTimeoutError()`. -/
def timeout : Thrown := .error .operationTimeoutError operationTimeoutError

/-- `new OperationAbortedError()`. -/
def aborted : Thrown := .error .operationAbortedError operationAbortedError

/-- `new Error(message)`. -/
def plain (message : String) : Thrown := .error .error (plainError message)

/-- `err instanceof Error ? err : new Error(String(err))`. -/
def toError : Thrown → Except Thrown Thrown
  | .error cls e => .ok (.error cls e)
  | .undefined => .ok (plain "undefined")
  | .null => .ok (plain "null")
  | .value text => .ok (plain text)
  | .unprintable thrown => .error thrown

/-- `value instanceof Error`. -/
def isError : Thrown → Bool
  | .error _ _ => true
  | _ => false

/-- The reason of a timeout: a typed error, or an error with that name. -/
def isTimeout : Thrown → Bool
  | .error .operationTimeoutError _ => true
  | .error .error e => e.name = "TimeoutError"
  | _ => false

/-- An error that is typed as what it is the cause of. -/
def isTyped : Thrown → Bool
  | .error .operationTimeoutError _ => true
  | .error .operationAbortedError _ => true
  | _ => false

end Thrown

/-- A signal with the deadline that is registered for it. -/
structure AbortSignal where
  /-- `signal.reason`, once it is aborted -/
  aborted : Option Thrown
  deadline : Option Nat
deriving DecidableEq, Repr

/-- `abortError(signal)` with its reason. -/
def abortError : Thrown → Thrown
  | .error .operationTimeoutError e => .error .operationTimeoutError e
  | .error .operationAbortedError e => .error .operationAbortedError e
  | .error .error e => if e.name = "TimeoutError" then .timeout else .aborted
  | _ => .aborted

/-- `throwIfAborted(signal)` when the clock reads `now`. -/
def throwIfAborted (signal : Option AbortSignal) (now : Nat) : Except Thrown Unit :=
  match signal with
  | none => .ok ()
  | some signal =>
    -- an abort is reported before the deadline
    match signal.aborted, signal.deadline with
    | some reason, _ => .error (abortError reason)
    | none, some deadline => if deadline ≤ now then .error .timeout else .ok ()
    | none, none => .ok ()

/-- `throwIfAborted` throws: the abort or the passed deadline can be seen. -/
def observable (signal : Option AbortSignal) (now : Nat) : Bool :=
  !(throwIfAborted signal now).isOk

/-- Whether the registered deadline has passed. -/
def deadlinePassed (signal : Option AbortSignal) (now : Nat) : Prop :=
  ∃ deadline, signal.bind (·.deadline) = some deadline ∧ deadline ≤ now

/-- What `throwIfAborted` throws is an error that the abort or the deadline accounts for. -/
theorem throwIfAborted_error {signal : Option AbortSignal} {now : Nat} {e : Thrown}
    (h : throwIfAborted signal now = .error e) :
    (∃ reason, signal.bind (·.aborted) = some reason ∧ e = abortError reason) ∨
      (signal.bind (·.aborted) = none ∧ deadlinePassed signal now ∧ e = .timeout) := by
  cases signal with
  | none => cases h
  | some signal =>
    obtain ⟨aborted, deadline⟩ := signal
    cases aborted with
    | some reason =>
      cases h
      exact .inl ⟨reason, rfl, rfl⟩
    | none =>
      cases deadline with
      | none => cases h
      | some deadline =>
        simp only [throwIfAborted] at h
        -- no abort, so the deadline
        split at h
        · rename_i hpassed
          cases h
          exact .inr ⟨rfl, ⟨deadline, rfl, hpassed⟩, rfl⟩
        · cases h

theorem observable_iff {signal : Option AbortSignal} {now : Nat} :
    observable signal now = true ↔
      (∃ reason, signal.bind (·.aborted) = some reason) ∨ deadlinePassed signal now := by
  cases signal with
  | none => simp [observable, throwIfAborted, deadlinePassed, Except.isOk, Except.toBool]
  | some signal =>
    obtain ⟨aborted, deadline⟩ := signal
    cases aborted with
    | some reason => simp [observable, throwIfAborted, Except.isOk, Except.toBool]
    | none =>
      cases deadline with
      | none => simp [observable, throwIfAborted, deadlinePassed, Except.isOk, Except.toBool]
      | some deadline =>
        -- an open signal shows its deadline
        by_cases hpassed : deadline ≤ now
        all_goals
          simp [observable, throwIfAborted, deadlinePassed, Except.isOk, Except.toBool, hpassed]

theorem observable_of_error {signal : Option AbortSignal} {now : Nat} {e : Thrown}
    (h : throwIfAborted signal now = .error e) : observable signal now = true := by
  rw [observable, h]
  rfl

theorem not_observable_of_ok {signal : Option AbortSignal} {now : Nat}
    (h : throwIfAborted signal now = .ok ()) : observable signal now = false := by
  rw [observable, h]
  rfl

/-- `abortError` is typed by whether the reason is one of a timeout. -/
theorem abortError_class (reason : Thrown) :
    ∃ e, abortError reason =
      .error (if reason.isTimeout then .operationTimeoutError else .operationAbortedError) e := by
  cases reason with
  | error cls e =>
    cases cls with
    | operationTimeoutError => exact ⟨e, rfl⟩
    | operationAbortedError => exact ⟨e, rfl⟩
    | error =>
      -- an error of another class counts as a timeout by its name
      by_cases hname : e.name = "TimeoutError"
      · exact ⟨operationTimeoutError, by simp [abortError, Thrown.isTimeout, hname, Thrown.timeout]⟩
      · exact ⟨operationAbortedError, by simp [abortError, Thrown.isTimeout, hname, Thrown.aborted]⟩
  | undefined => exact ⟨_, rfl⟩
  | null => exact ⟨_, rfl⟩
  | value text => exact ⟨_, rfl⟩
  | unprintable thrown => exact ⟨_, rfl⟩

/-- A typed reason is its own error. -/
theorem abortError_of_typed {reason : Thrown} (h : reason.isTyped = true) :
    abortError reason = reason := by
  cases reason with
  | error cls e =>
    cases cls with
    | operationTimeoutError => rfl
    | operationAbortedError => rfl
    | error => cases h
  | _ => cases h

end PipeX
