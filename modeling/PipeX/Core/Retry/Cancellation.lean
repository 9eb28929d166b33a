/-
  PipeX.Core.Retry.Cancellation

  `withRetry` of `src/core/core.ts` under a signal: the loop, the race of
  `awaitOperation` in each attempt, and the delay that an abort ends.

  The code between two points at which other code can run is one step; what the
  plugin, the clock and the owner of the signal do in between are steps as well.
  `retry_discipline` is about every run of the two sides.
-/
import PipeX.Core.Operations
import PipeX.Core.Retry.Delay
import PipeX.Lib.Transition

namespace PipeX

open Transition

/-! ## Calls and their states -/

/-- A call of `withRetry`. -/
structure RetryCall where
  options : Option DeclaredRetryOptions
  backoff : Backoff
  limits : EngineLimits

namespace RetryCall

def attempts (call : RetryCall) : Nat := (retryAttempts call.options).toNat

/-- `nextDelay > 0` behind the failed attempt `i`. -/
def waits (call : RetryCall) (i : Nat) : Bool :=
  (scheduledWait call.backoff (retryDelayMs call.options).toNat call.limits.maxRetryDelayMs
    i).isSome

/-- The check of the options lets the call through. -/
def Accepted (call : RetryCall) : Prop := checkRetryOptions call.options call.limits = .ok ()

instance (call : RetryCall) : Decidable call.Accepted :=
  match h : checkRetryOptions call.options call.limits with
  | .ok () => isTrue h
  | .error _ => isFalse fun hok => by rw [Accepted, h] at hok; cases hok

end RetryCall

variable {α : Type}

/-- Where `withRetry` is; `i` is the counter of its loop. -/
inductive RetryPhase (α : Type) where
  /-- at the head of the loop -/
  | head (i : Nat)
  /-- in the call of `fn` -/
  | calling (i : Nat)
  /-- in `await awaitOperation(…)`, with what its promise has settled with -/
  | awaiting (i : Nat) (result : Option (Except Thrown α))
  /-- behind the checks of the `catch` block -/
  | caught (i : Nat)
  /-- in the delay, with what its promise has settled with -/
  | sleeping (i : Nat) (result : Option (Except Thrown Unit))
  | settled (result : Except Thrown α)

structure RetryState (α : Type) where
  signal : Option AbortSignal
  /-- `Date.now()` -/
  now : Nat
  phase : RetryPhase α
  lastError : Option Thrown
  /-- how many invocations of `fn` have been started -/
  started : Nat
  /-- what the invocations have come to, with or without anyone looking -/
  outcomes : Nat → Option (Except Thrown α)
  /-- the values that `then` took and the errors that `catch` kept, each before the abort
      or the deadline could be seen -/
  results : List (Except Thrown α)

inductive RetryAction (α : Type) where
  /-- `controller.abort(reason)`, with the listeners of the signal -/
  | abort (reason : Thrown)
  /-- the clock moves on -/
  | tick (now : Nat)
  /-- the head of the loop, to the call of `fn` -/
  | enter
  /-- `fn` throws -/
  | throws (e : Thrown)
  /-- `fn` returns, to the `await` -/
  | returns
  /-- the promise of an invocation settles -/
  | settle (k : Nat) (outcome : Except Thrown α)
  /-- its `then` callback runs -/
  | react (k : Nat)
  /-- the deadline timer of `awaitOperation` fires -/
  | timeout
  /-- the code behind an `await` runs -/
  | resume
  /-- the rest of the `catch` block, to the delay or the next round -/
  | delay
  /-- the timer of the delay fires -/
  | wake

/-- `signal.reason ?? new Error('[PipeX] Operation aborted')`. -/
def rawReason : Thrown → Thrown
  | .undefined => .plain "[PipeX] Operation aborted"
  | .null => .plain "[PipeX] Operation aborted"
  | reason => reason

/-- The listeners of `awaitOperation` and of the delay. -/
def RetryPhase.onAbort (reason : Thrown) : RetryPhase α → RetryPhase α
  | .awaiting i none => .awaiting i (some (.error (abortError reason)))
  | .sleeping i none => .sleeping i (some (.error (rawReason reason)))
  | phase => phase

namespace RetryState

def throwIfAborted (s : RetryState α) : Except Thrown Unit := PipeX.throwIfAborted s.signal s.now

/-- The abort or the passed deadline can be seen. -/
def observable (s : RetryState α) : Bool := PipeX.observable s.signal s.now

/-- `signal.reason`, once it is aborted. -/
def reason (s : RetryState α) : Option Thrown := s.signal.bind (·.aborted)

def settleWith (s : RetryState α) (result : Except Thrown α) : RetryState α :=
  { s with phase := .settled result }

/-- The `catch` block up to its message. -/
def catchError (s : RetryState α) (i : Nat) (err : Thrown) : RetryState α :=
  match s.throwIfAborted with
  | .error e => s.settleWith (.error e)
  | .ok () =>
    let kept : RetryState α := { s with results := s.results ++ [.error err] }
    match err.toError with
    | .error e => kept.settleWith (.error e)
    | .ok e => { kept with lastError := some e, phase := .caught i }

end RetryState

open RetryState

namespace RetryCall

def start (call : RetryCall) (signal : Option AbortSignal) (now : Nat) : RetryState α where
  signal := signal
  now := now
  phase :=
    match checkRetryOptions call.options call.limits with
    | .ok () => .head 0
    | .error e => .settled (.error (.error .error e))
  lastError := none
  started := 0
  outcomes := fun _ => none
  results := []

def step (call : RetryCall) (s : RetryState α) : RetryAction α → RetryState α
  | .abort reason =>
    { s with
      signal := s.signal.map fun signal => { signal with aborted := some reason }
      phase := s.phase.onAbort reason }
  | .tick now => { s with now := now }
  | .enter =>
    match s.phase with
    | .head i =>
      if i < call.attempts then
        match s.throwIfAborted with
        | .error e => s.settleWith (.error e)
        | .ok () => { s with started := s.started + 1, phase := .calling i }
      else
        s.settleWith (.error (s.lastError.getD .undefined))
    | _ => s
  | .throws e =>
    match s.phase with
    | .calling i =>
      RetryState.catchError
        { s with outcomes := Function.update s.outcomes i (some (.error e)) } i e
    | _ => s
  | .returns =>
    match s.phase with
    | .calling i =>
      match s.throwIfAborted with
      | .error e => { s with phase := .awaiting i (some (.error e)) }
      | .ok () => { s with phase := .awaiting i none }
    | _ => s
  | .settle k outcome => { s with outcomes := Function.update s.outcomes k (some outcome) }
  | .react k =>
    match s.phase with
    | .awaiting i none =>
      if k = i then
        match s.outcomes i with
        | some (.ok value) =>
          match s.throwIfAborted with
          | .error e => { s with phase := .awaiting i (some (.error e)) }
          | .ok () =>
            { s with
              results := s.results ++ [.ok value]
              phase := .awaiting i (some (.ok value)) }
        | some (.error e) => { s with phase := .awaiting i (some (.error e)) }
        | none => s
      else
        s
    -- late results are discarded
    | _ => s
  | .timeout =>
    match s.phase with
    | .awaiting i none => { s with phase := .awaiting i (some (.error .timeout)) }
    | _ => s
  | .resume =>
    match s.phase with
    | .awaiting _ (some (.ok value)) => s.settleWith (.ok value)
    | .awaiting i (some (.error e)) => s.catchError i e
    | .sleeping i (some (.ok ())) => { s with phase := .head (i + 1) }
    | .sleeping _ (some (.error e)) => s.settleWith (.error e)
    | _ => s
  | .delay =>
    match s.phase with
    | .caught i =>
      if i + 1 < call.attempts ∧ call.waits i = true then
        -- a signal that was aborted since the check has no event left
        { s with phase := .sleeping i (s.reason.map fun reason => .error (rawReason reason)) }
      else
        { s with phase := .head (i + 1) }
    | _ => s
  | .wake =>
    match s.phase with
    | .sleeping i none => { s with phase := .sleeping i (some (.ok ())) }
    | _ => s

end RetryCall

/-- When a step can be taken.  The clock does not run backwards, the deadline timer does
    not fire before the clock has reached the deadline, and an invocation that threw has
    no promise. -/
def RetryState.enabled (s : RetryState α) : RetryAction α → Bool
  | .abort _ => s.signal.isSome && s.reason.isNone
  | .tick now => decide (s.now ≤ now)
  | .enter =>
    match s.phase with
    | .head _ => true
    | _ => false
  | .throws _ =>
    match s.phase with
    | .calling i => (s.outcomes i).isNone
    | _ => false
  | .returns =>
    match s.phase with
    | .calling _ => true
    | _ => false
  | .settle k _ => decide (k < s.started) && (s.outcomes k).isNone
  | .react k =>
    (s.outcomes k).isSome &&
      match s.phase with
      | .calling i => decide (k ≠ i)
      | _ => true
  | .timeout =>
    match s.phase, s.signal.bind (·.deadline) with
    | .awaiting _ none, some deadline => decide (deadline ≤ s.now)
    | _, _ => false
  | .resume =>
    match s.phase with
    | .awaiting _ (some _) => true
    | .sleeping _ (some _) => true
    | _ => false
  | .delay =>
    match s.phase with
    | .caught _ => true
    | _ => false
  | .wake =>
    match s.phase with
    | .sleeping _ none => true
    | _ => false

/-- `withRetry` among what can happen around it. -/
def retryMachine (call : RetryCall) : Machine (RetryState α) (RetryAction α) where
  enabled s action := s.enabled action = true
  step := call.step

instance (call : RetryCall) (s : RetryState α) (action : RetryAction α) :
    Decidable ((retryMachine call).enabled s action) :=
  inferInstanceAs (Decidable (s.enabled action = true))

/-! ## What is known in each phase -/

/-- Attempts that failed, each with a value that is an error or has a text. -/
def Failures (results : List (Except Thrown α)) : Prop :=
  ∀ result ∈ results, ∃ err e, result = .error err ∧ err.toError = .ok e

/-- `lastError` behind some attempts. -/
def lastErrorOf (results : List (Except Thrown α)) : Option Thrown :=
  match results.getLast? with
  | some (.error err) => err.toError.toOption
  | _ => none

namespace RetryState

/-- An error that the abort or the passed deadline accounts for. -/
def Cause (s : RetryState α) (e : Thrown) : Prop :=
  (∃ reason, s.reason = some reason ∧ (e = abortError reason ∨ e = rawReason reason)) ∨
    (deadlinePassed s.signal s.now ∧ e = .timeout)

/-- What a call settles with, by what it has learnt in time. -/
inductive Verdict (attempts : Nat) (s : RetryState α) : Except Thrown α → Prop where
  /-- the value of the first invocation that did not fail -/
  | value {failures : List (Except Thrown α)} {value : α}
      (results : s.results = failures ++ [.ok value]) (failed : Failures failures) :
      Verdict attempts s (.ok value)
  /-- the error of the last attempt, where all have failed -/
  | exhausted {e : Thrown} (failed : Failures s.results) (made : s.results.length = attempts)
      (last : lastErrorOf s.results = some e) : Verdict attempts s (.error e)
  /-- an error for the abort or the deadline -/
  | cancelled {e : Thrown} (failed : Failures s.results) (made : s.results.length < attempts)
      (cause : s.Cause e) : Verdict attempts s (.error e)
  /-- what `String` throws for the value of the last attempt -/
  | unprintable {failures : List (Except Thrown α)} {err e : Thrown}
      (results : s.results = failures ++ [.error err]) (failed : Failures failures)
      (text : err.toError = .error e) : Verdict attempts s (.error e)

/-- So many invocations have been started, and the results of so many are failures. -/
structure Failed (s : RetryState α) (started made : Nat) : Prop where
  started : s.started = started
  made : s.results.length = made
  failures : Failures s.results
  lastError : s.lastError = lastErrorOf s.results

def Sound (attempts : Nat) (s : RetryState α) : Prop :=
  match s.phase with
  | .head i => i ≤ attempts ∧ s.Failed i i
  | .calling i => i < attempts ∧ s.Failed (i + 1) i
  | .awaiting i none => i < attempts ∧ s.Failed (i + 1) i ∧ s.reason = none
  | .awaiting i (some (.ok value)) =>
    i < attempts ∧ ∃ failures, s.results = failures ++ [.ok value] ∧ Failures failures
  | .awaiting i (some (.error err)) =>
    i < attempts ∧ s.Failed (i + 1) i ∧
      (s.observable = true ∨ s.outcomes i = some (.error err))
  | .caught i => i < attempts ∧ s.Failed (i + 1) (i + 1)
  | .sleeping i none => i + 1 < attempts ∧ s.Failed (i + 1) (i + 1)
  | .sleeping i (some (.ok ())) => i + 1 < attempts ∧ s.Failed (i + 1) (i + 1)
  | .sleeping i (some (.error e)) =>
    i + 1 < attempts ∧ s.Failed (i + 1) (i + 1) ∧
      ∃ reason, s.reason = some reason ∧ e = rawReason reason
  | .settled result => s.Verdict attempts result

/-- The invariant of a call. -/
structure Disciplined (attempts : Nat) (s : RetryState α) : Prop where
  outcomes : ∀ k result, s.results[k]? = some result → s.outcomes k = some result
  started : s.started ≤ attempts
  sound : s.Sound attempts

/-- What stays as it is, or stays visible, while other code runs. -/
structure Later (s s' : RetryState α) : Prop where
  started : s'.started = s.started
  results : s'.results = s.results
  lastError : s'.lastError = s.lastError
  outcomes : ∀ k outcome, s.outcomes k = some outcome → s'.outcomes k = some outcome
  reason : ∀ reason, s.reason = some reason → s'.reason = some reason
  deadline : deadlinePassed s.signal s.now → deadlinePassed s'.signal s'.now

variable {call : RetryCall} {attempts : Nat} {s s' : RetryState α}

theorem observable_iff_reason :
    s.observable = true ↔ (∃ reason, s.reason = some reason) ∨ deadlinePassed s.signal s.now :=
  observable_iff

theorem Later.observable (h : s.Later s') (hs : s.observable = true) : s'.observable = true := by
  rw [observable_iff_reason] at hs ⊢
  rcases hs with ⟨reason, hreason⟩ | hpassed
  · exact .inl ⟨reason, h.reason reason hreason⟩
  · exact .inr (h.deadline hpassed)

theorem Later.cause (h : s.Later s') {e : Thrown} (hs : s.Cause e) : s'.Cause e := by
  rcases hs with ⟨reason, hreason, he⟩ | ⟨hpassed, he⟩
  · exact .inl ⟨reason, h.reason reason hreason, he⟩
  · exact .inr ⟨h.deadline hpassed, he⟩

theorem Later.failed (h : s.Later s') {started made : Nat} (hs : s.Failed started made) :
    s'.Failed started made := by
  refine ⟨h.started.trans hs.started, ?_, ?_, ?_⟩
  · rw [h.results]
    exact hs.made
  · rw [h.results]
    exact hs.failures
  · rw [h.results, h.lastError]
    exact hs.lastError

theorem Later.verdict (h : s.Later s') {result : Except Thrown α} (hs : s.Verdict attempts result) :
    s'.Verdict attempts result := by
  cases hs with
  | value hresults hfailed => exact .value (h.results.trans hresults) hfailed
  | exhausted hfailed hmade hlast =>
    rw [← h.results] at hfailed hmade hlast
    exact .exhausted hfailed hmade hlast
  | cancelled hfailed hmade hcause =>
    rw [← h.results] at hfailed hmade
    exact .cancelled hfailed hmade (h.cause hcause)
  | unprintable hresults hfailed htext =>
    exact .unprintable (h.results.trans hresults) hfailed htext

/-- Other code leaves what is known of a phase true; an abort ends the `await` in which
    none was known. -/
theorem Later.sound (h : s.Later s') (hphase : s'.phase = s.phase)
    (hawait : ∀ i, s.phase = .awaiting i none → s'.reason = none) (hs : s.Sound attempts) :
    s'.Sound attempts := by
  unfold RetryState.Sound at hs ⊢
  rw [hphase]
  split at hs
  -- one case for each phase, in the order of `Sound`
  all_goals rename_i hcase
  · exact ⟨hs.1, h.failed hs.2⟩
  · exact ⟨hs.1, h.failed hs.2⟩
  · exact ⟨hs.1, h.failed hs.2.1, hawait _ hcase⟩
  · obtain ⟨hi, failures, hresults, hfailed⟩ := hs
    exact ⟨hi, failures, h.results.trans hresults, hfailed⟩
  · obtain ⟨hi, hfailed, herr⟩ := hs
    exact ⟨hi, h.failed hfailed, herr.imp h.observable (h.outcomes _ _)⟩
  · exact ⟨hs.1, h.failed hs.2⟩
  · exact ⟨hs.1, h.failed hs.2⟩
  · exact ⟨hs.1, h.failed hs.2⟩
  · obtain ⟨hi, hfailed, reason, hreason, he⟩ := hs
    exact ⟨hi, h.failed hfailed, reason, h.reason reason hreason, he⟩
  · exact h.verdict hs

theorem Later.disciplined (h : s.Later s') (hs : s.Disciplined attempts)
    (hsound : s'.Sound attempts) : s'.Disciplined attempts := by
  refine ⟨fun k result hresult => ?_, h.started ▸ hs.started, hsound⟩
  rw [h.results] at hresult
  exact h.outcomes k result (hs.outcomes k result hresult)

/-- The phase is not among what is known. -/
theorem later_phase (s : RetryState α) (phase : RetryPhase α) :
    s.Later { s with phase := phase } :=
  ⟨rfl, rfl, rfl, fun _ _ => id, fun _ => id, id⟩

/-! ## One step -/

theorem cause_of_error {e : Thrown} (h : s.throwIfAborted = .error e) : s.Cause e := by
  rcases throwIfAborted_error h with ⟨reason, hreason, rfl⟩ | ⟨-, hpassed, rfl⟩
  · exact .inl ⟨reason, hreason, .inl rfl⟩
  · exact .inr ⟨hpassed, rfl⟩

theorem throwIfAborted_cases (s : RetryState α) :
    (∃ e, s.throwIfAborted = .error e ∧ s.observable = true) ∨
      (s.throwIfAborted = .ok () ∧ s.observable = false) := by
  cases h : s.throwIfAborted with
  | error e => exact .inl ⟨e, rfl, observable_of_error h⟩
  | ok _ => exact .inr ⟨rfl, not_observable_of_ok h⟩

/-- The error of an attempt among the earlier failures. -/
theorem failures_append {failures : List (Except Thrown α)} {err e : Thrown}
    (h : Failures failures) (htext : err.toError = .ok e) :
    Failures (failures ++ [.error err]) := by
  intro result hresult
  rcases List.mem_append.mp hresult with hold | hlast
  · exact h result hold
  · exact ⟨err, e, List.mem_singleton.mp hlast, htext⟩

theorem lastErrorOf_append {failures : List (Except Thrown α)} {err e : Thrown}
    (htext : err.toError = .ok e) : lastErrorOf (failures ++ [.error err]) = some e := by
  rw [lastErrorOf, List.getLast?_concat]
  show err.toError.toOption = some e
  rw [htext]
  rfl

/-- The new result is that of the invocation which the loop is at. -/
theorem outcomes_append {i : Nat} {result : Except Thrown α}
    (h : ∀ k result, s.results[k]? = some result → s.outcomes k = some result)
    (hlength : s.results.length = i) (hresult : s.outcomes i = some result) :
    ∀ k r, (s.results ++ [result])[k]? = some r → s.outcomes k = some r := by
  intro k r hr
  -- the last place, or an earlier one
  rcases Nat.lt_or_ge k s.results.length with hlt | hge
  · rw [List.getElem?_append_left hlt] at hr
    exact h k r hr
  · rw [List.getElem?_append_right hge] at hr
    obtain ⟨hk, hr⟩ := List.getElem?_eq_some_iff.mp hr
    have hk : k = i := by
      rw [List.length_singleton] at hk
      omega
    rw [hk, hresult, ← hr]
    simp

theorem disciplined_settleWith {result : Except Thrown α} (h : s.Disciplined attempts)
    (hresult : s.Verdict attempts result) : (s.settleWith result).Disciplined attempts :=
  (later_phase s _).disciplined h ((later_phase s _).verdict hresult)

/-- The `catch` block with what `awaitOperation` or `fn` threw: a failure of the
    attempt, or the abort or the deadline, which can then still be seen. -/
theorem disciplined_catchError {i : Nat} {err : Thrown} (h : s.Disciplined attempts)
    (hi : i < attempts) (hfailed : s.Failed (i + 1) i)
    (herr : s.observable = true ∨ s.outcomes i = some (.error err)) :
    (s.catchError i err).Disciplined attempts := by
  unfold catchError
  rcases s.throwIfAborted_cases with ⟨e, hthrown, -⟩ | ⟨hok, hquiet⟩
  · -- the `catch` block throws, and keeps no error
    rw [hthrown]
    refine disciplined_settleWith h (.cancelled hfailed.failures ?_ (cause_of_error hthrown))
    rw [hfailed.made]
    exact hi
  rw [hok]
  -- nothing can be seen of an abort or the deadline, so the attempt has failed
  have herr : s.outcomes i = some (.error err) := by
    rcases herr with hseen | herr
    · rw [hquiet] at hseen
      cases hseen
    · exact herr
  have houtcomes := outcomes_append h.outcomes hfailed.made herr
  cases htext : err.toError with
  | error e => exact ⟨houtcomes, h.started, .unprintable rfl hfailed.failures htext⟩
  | ok e =>
    refine ⟨houtcomes, h.started, hi, hfailed.started, ?_, failures_append hfailed.failures htext,
      (lastErrorOf_append htext).symm⟩
    rw [List.length_append, hfailed.made, List.length_singleton]

theorem later_abort (hnone : s.reason = none) (reason : Thrown) :
    s.Later (call.step s (.abort reason)) := by
  -- an abort is an action of a signal that is open
  refine ⟨rfl, rfl, rfl, fun _ _ => id, fun r hr => ?_, ?_⟩
  · rw [hnone] at hr
    cases hr
  · rintro ⟨deadline, hdeadline, hpassed⟩
    refine ⟨deadline, ?_, hpassed⟩
    show (s.signal.map _).bind _ = some deadline
    cases hsignal : s.signal with
    | none =>
      rw [hsignal] at hdeadline
      cases hdeadline
    | some signal =>
      rw [hsignal] at hdeadline
      exact hdeadline

theorem abort_reason {reason : Thrown} (hsome : s.signal.isSome = true) :
    (call.step s (.abort reason)).reason = some reason := by
  obtain ⟨signal, hsignal⟩ := Option.isSome_iff_exists.mp hsome
  show (s.signal.map _).bind _ = some reason
  rw [hsignal]
  rfl

theorem disciplined_abort {reason : Thrown} (h : s.Disciplined attempts)
    (henabled : s.enabled (.abort reason) = true) :
    (call.step s (.abort reason)).Disciplined attempts := by
  obtain ⟨hsome, hnone⟩ := Bool.and_eq_true_iff.mp henabled
  have hreason : (call.step s (.abort reason)).reason = some reason := abort_reason hsome
  have hlater : s.Later (call.step s (.abort reason)) :=
    later_abort (Option.isNone_iff_eq_none.mp hnone) reason
  have hseen := observable_iff_reason.mpr (.inl ⟨reason, hreason⟩)
  have hphase : (call.step s (.abort reason)).phase = s.phase.onAbort reason := rfl
  have hsound := h.sound
  refine hlater.disciplined h ?_
  unfold RetryState.Sound at hsound
  -- the listener ends an `await` and a delay that are still open
  cases hs : s.phase with
  | awaiting i result =>
    cases result with
    | none =>
      rw [hs] at hsound hphase
      rw [RetryState.Sound, hphase]
      exact ⟨hsound.1, hlater.failed hsound.2.1, .inl hseen⟩
    | some result =>
      refine hlater.sound (by rw [hphase, hs]; rfl) (fun j hj => ?_) h.sound
      rw [hs] at hj
      cases hj
  | sleeping i result =>
    cases result with
    | none =>
      rw [hs] at hsound hphase
      rw [RetryState.Sound, hphase]
      exact ⟨hsound.1, hlater.failed hsound.2, reason, hreason, rfl⟩
    | some result =>
      refine hlater.sound (by rw [hphase, hs]; rfl) (fun j hj => ?_) h.sound
      rw [hs] at hj
      cases hj
  | _ =>
    refine hlater.sound (by rw [hphase, hs]; rfl) (fun j hj => ?_) h.sound
    rw [hs] at hj
    cases hj

/-- Failures have left the error of the last one. -/
theorem lastErrorOf_failures {results : List (Except Thrown α)} (h : Failures results)
    (hne : results ≠ []) : ∃ e, lastErrorOf results = some e := by
  rcases List.eq_nil_or_concat results with hnil | ⟨front, last, hlast⟩
  · exact absurd hnil hne
  rw [List.concat_eq_append] at hlast
  obtain ⟨err, e, rfl, htext⟩ := h last (by rw [hlast]; exact List.mem_append_right _ (by simp))
  exact ⟨e, hlast ▸ lastErrorOf_append htext⟩

theorem disciplined_enter (hattempts : 1 ≤ call.attempts) (h : s.Disciplined call.attempts)
    (henabled : s.enabled .enter = true) : (call.step s .enter).Disciplined call.attempts := by
  have hsound := h.sound
  unfold RetryState.Sound at hsound
  cases hphase : s.phase with
  | head i =>
    rw [hphase] at hsound
    obtain ⟨hi, hfailed⟩ := hsound
    simp only [RetryCall.step, hphase]
    split
    · rename_i hlt
      rcases s.throwIfAborted_cases with ⟨e, hthrown, -⟩ | ⟨hok, -⟩
      · -- the head of the loop throws in front of the call
        rw [hthrown]
        refine disciplined_settleWith h (.cancelled hfailed.failures ?_ (cause_of_error hthrown))
        rw [hfailed.made]
        exact hlt
      · rw [hok]
        have hstarted : s.started + 1 = i + 1 := by rw [hfailed.started]
        refine ⟨h.outcomes, ?_, hlt, hstarted, hfailed.made, hfailed.failures, hfailed.lastError⟩
        show s.started + 1 ≤ call.attempts
        omega
    · -- all attempts have been made, and the last of them has left its error
      rename_i hge
      have hmade : s.results.length = call.attempts := by
        have := hfailed.made
        omega
      obtain ⟨e, hlast⟩ := lastErrorOf_failures hfailed.failures fun hnil => by
        rw [hnil, List.length_nil] at hmade
        omega
      rw [hfailed.lastError, hlast]
      exact disciplined_settleWith h (.exhausted hfailed.failures hmade hlast)
  | _ =>
    rw [RetryState.enabled, hphase] at henabled
    cases henabled

theorem disciplined_throws {e : Thrown} (h : s.Disciplined attempts)
    (henabled : s.enabled (.throws e) = true) : (call.step s (.throws e)).Disciplined attempts := by
  have hsound := h.sound
  unfold RetryState.Sound at hsound
  cases hphase : s.phase with
  | calling i =>
    rw [hphase] at hsound
    obtain ⟨hi, hfailed⟩ := hsound
    simp only [RetryState.enabled, hphase, Option.isNone_iff_eq_none] at henabled
    -- what `fn` throws is what the invocation has come to
    let thrown : RetryState α :=
      { s with outcomes := Function.update s.outcomes i (some (.error e)) }
    have hlater : s.Later thrown := by
      refine ⟨rfl, rfl, rfl, fun k outcome hk => ?_, fun _ => id, id⟩
      -- nothing was known of this invocation
      have hne : k ≠ i := by
        rintro rfl
        rw [henabled] at hk
        cases hk
      exact (Function.update_of_ne hne ..).trans hk
    have hthrown : thrown.Disciplined attempts :=
      hlater.disciplined h (hlater.sound rfl (fun j hj => by rw [hphase] at hj; cases hj) h.sound)
    have hstep : call.step s (.throws e) = thrown.catchError i e := by
      simp only [RetryCall.step, hphase, thrown]
    rw [hstep]
    exact disciplined_catchError hthrown hi (hlater.failed hfailed)
      (.inr (Function.update_self ..))
  | _ =>
    rw [RetryState.enabled, hphase] at henabled
    cases henabled

theorem disciplined_returns (h : s.Disciplined attempts)
    (henabled : s.enabled .returns = true) : (call.step s .returns).Disciplined attempts := by
  have hsound := h.sound
  unfold RetryState.Sound at hsound
  cases hphase : s.phase with
  | calling i =>
    rw [hphase] at hsound
    obtain ⟨hi, hfailed⟩ := hsound
    simp only [RetryCall.step, hphase]
    rcases s.throwIfAborted_cases with ⟨e, hthrown, hseen⟩ | ⟨hok, hquiet⟩
    · -- `awaitOperation` rejects at once
      rw [hthrown]
      have hlater := later_phase s (.awaiting i (some (.error e)))
      exact hlater.disciplined h ⟨hi, hlater.failed hfailed, .inl hseen⟩
    · -- or waits, and then the signal is open
      rw [hok]
      have hlater := later_phase s (.awaiting i none)
      refine hlater.disciplined h ⟨hi, hlater.failed hfailed, ?_⟩
      show s.reason = none
      cases hreason : s.reason with
      | none => rfl
      | some reason =>
        rw [observable_iff_reason.mpr (.inl ⟨reason, hreason⟩)] at hquiet
        cases hquiet
  | _ =>
    rw [RetryState.enabled, hphase] at henabled
    cases henabled

theorem disciplined_settle {k : Nat} {outcome : Except Thrown α} (h : s.Disciplined attempts)
    (henabled : s.enabled (.settle k outcome) = true) :
    (call.step s (.settle k outcome)).Disciplined attempts := by
  obtain ⟨-, hnone⟩ := Bool.and_eq_true_iff.mp henabled
  have hnone : s.outcomes k = none := Option.isNone_iff_eq_none.mp hnone
  have hlater : s.Later (call.step s (.settle k outcome)) := by
    refine ⟨rfl, rfl, rfl, fun j o hj => ?_, fun _ => id, id⟩
    -- a promise settles once
    have hne : j ≠ k := by
      rintro rfl
      rw [hnone] at hj
      cases hj
    exact (Function.update_of_ne hne ..).trans hj
  refine hlater.disciplined h (hlater.sound rfl (fun i hi => ?_) h.sound)
  have hsound := h.sound
  rw [RetryState.Sound, hi] at hsound
  exact hsound.2.2

theorem disciplined_tick {now : Nat} (h : s.Disciplined attempts)
    (henabled : s.enabled (.tick now) = true) :
    (call.step s (.tick now)).Disciplined attempts := by
  have hlater : s.Later (call.step s (.tick now)) := by
    refine ⟨rfl, rfl, rfl, fun _ _ => id, fun _ => id, ?_⟩
    rintro ⟨deadline, hdeadline, hpassed⟩
    -- a deadline that has passed stays so
    exact ⟨deadline, hdeadline, Nat.le_trans hpassed (of_decide_eq_true henabled)⟩
  refine hlater.disciplined h (hlater.sound rfl (fun i hi => ?_) h.sound)
  have hsound := h.sound
  rw [RetryState.Sound, hi] at hsound
  exact hsound.2.2

theorem disciplined_react {k : Nat} (h : s.Disciplined attempts) :
    (call.step s (.react k)).Disciplined attempts := by
  have hsound := h.sound
  unfold RetryState.Sound at hsound
  simp only [RetryCall.step]
  split
  · rename_i i hphase
    rw [hphase] at hsound
    obtain ⟨hi, hfailed, -⟩ := hsound
    split
    · split
      · rename_i value hvalue
        rcases s.throwIfAborted_cases with ⟨e, hthrown, hseen⟩ | ⟨hok, -⟩
        · -- the value came too late
          rw [hthrown]
          have hlater := later_phase s (.awaiting i (some (.error e)))
          exact hlater.disciplined h ⟨hi, hlater.failed hfailed, .inl hseen⟩
        · rw [hok]
          exact ⟨outcomes_append h.outcomes hfailed.made hvalue, h.started, hi, s.results, rfl,
            hfailed.failures⟩
      · -- the error of the invocation
        rename_i e he
        have hlater := later_phase s (.awaiting i (some (.error e)))
        exact hlater.disciplined h ⟨hi, hlater.failed hfailed, .inr he⟩
      · exact h
    · exact h
  · exact h

theorem disciplined_timeout (h : s.Disciplined attempts) (henabled : s.enabled .timeout = true) :
    (call.step s .timeout).Disciplined attempts := by
  have hsound := h.sound
  unfold RetryState.Sound at hsound
  simp only [RetryState.enabled] at henabled
  split at henabled
  · rename_i i deadline hphase hdeadline
    rw [hphase] at hsound
    simp only [RetryCall.step, hphase]
    have hlater := later_phase s (.awaiting i (some (.error .timeout)))
    -- the timer has fired, so the clock has reached the deadline
    have hpassed : deadlinePassed s.signal s.now :=
      ⟨deadline, hdeadline, of_decide_eq_true henabled⟩
    exact hlater.disciplined h ⟨hsound.1, hlater.failed hsound.2.1,
      .inl (observable_iff_reason.mpr (.inr hpassed))⟩
  · cases henabled

theorem disciplined_resume (h : s.Disciplined attempts) :
    (call.step s .resume).Disciplined attempts := by
  have hsound := h.sound
  unfold RetryState.Sound at hsound
  simp only [RetryCall.step]
  split
  · -- `return await …`
    rename_i i value hphase
    rw [hphase] at hsound
    obtain ⟨hi, failures, hresults, hfailed⟩ := hsound
    exact disciplined_settleWith h (.value hresults hfailed)
  · -- to the `catch` block
    rename_i i e hphase
    rw [hphase] at hsound
    obtain ⟨hi, hfailed, herr⟩ := hsound
    exact disciplined_catchError h hi hfailed herr
  · rename_i i hphase
    rw [hphase] at hsound
    have hlater := later_phase s (.head (i + 1))
    exact hlater.disciplined h ⟨hsound.1.le, hlater.failed hsound.2⟩
  · rename_i i e hphase
    rw [hphase] at hsound
    obtain ⟨hi, hfailed, reason, hreason, rfl⟩ := hsound
    refine disciplined_settleWith h (.cancelled hfailed.failures ?_
      (.inl ⟨reason, hreason, .inr rfl⟩))
    rw [hfailed.made]
    exact hi
  · exact h

theorem disciplined_delay (h : s.Disciplined call.attempts) :
    (call.step s .delay).Disciplined call.attempts := by
  have hsound := h.sound
  unfold RetryState.Sound at hsound
  simp only [RetryCall.step]
  split
  · rename_i i hphase
    rw [hphase] at hsound
    split
    · -- the loop waits; a signal that is aborted by now ends the wait
      rename_i hwaits
      cases hreason : s.reason with
      | none =>
        have hlater := later_phase s (.sleeping i none)
        exact hlater.disciplined h ⟨hwaits.1, hlater.failed hsound.2⟩
      | some reason =>
        have hlater := later_phase s (.sleeping i (some (.error (rawReason reason))))
        exact hlater.disciplined h ⟨hwaits.1, hlater.failed hsound.2, reason, hreason, rfl⟩
    · -- or goes on at once
      have hlater := later_phase s (.head (i + 1))
      exact hlater.disciplined h ⟨hsound.1, hlater.failed hsound.2⟩
  · exact h

theorem disciplined_wake (h : s.Disciplined attempts) :
    (call.step s .wake).Disciplined attempts := by
  have hsound := h.sound
  unfold RetryState.Sound at hsound
  simp only [RetryCall.step]
  split
  · rename_i i hphase
    rw [hphase] at hsound
    have hlater := later_phase s (.sleeping i (some (.ok ())))
    exact hlater.disciplined h ⟨hsound.1, hlater.failed hsound.2⟩
  · exact h

theorem disciplined_step (hattempts : 1 ≤ call.attempts) {action : RetryAction α}
    (h : s.Disciplined call.attempts) (henabled : s.enabled action = true) :
    (call.step s action).Disciplined call.attempts := by
  cases action with
  | abort reason => exact disciplined_abort h henabled
  | tick now => exact disciplined_tick h henabled
  | enter => exact disciplined_enter hattempts h henabled
  | throws e => exact disciplined_throws h henabled
  | returns => exact disciplined_returns h henabled
  | settle k outcome => exact disciplined_settle h henabled
  | react k => exact disciplined_react h
  | timeout => exact disciplined_timeout h henabled
  | resume => exact disciplined_resume h
  | delay => exact disciplined_delay h
  | wake => exact disciplined_wake h

end RetryState

end PipeX
