/-
  PipeX.Core.Retry.TypedErrors

  With what `withRetry` rejects where the abort or the deadline is the cause.

  `throwIfAborted` and `awaitOperation` throw typed errors.  The delay between two
  attempts rejects with the reason of the signal as it is, whatever it is
  (`delay_rejects_raw`).  Where no such abort meets a delay, every rejection of that
  kind is typed (`cancellation_typed`).
-/
import PipeX.Core.Retry.Discipline

namespace PipeX

open Transition RetryState

variable {α : Type}

namespace RetryState

/-- The attempts have neither brought a value nor the error to reject with. -/
def Cancelled (attempts : Nat) (s : RetryState α) : Prop :=
  Failures s.results ∧ s.results.length < attempts

/-- The deadline has passed, or the reason of the abort is a timeout. -/
def TimedOut (s : RetryState α) : Prop :=
  deadlinePassed s.signal s.now ∨ ∃ reason, s.reason = some reason ∧ reason.isTimeout = true

/-- The signal was aborted for another reason. -/
def AbortedOtherwise (s : RetryState α) : Prop :=
  ∃ reason, s.reason = some reason ∧ reason.isTimeout = false

/-- The class of an error is that of a cause. -/
def TypedFor (s : RetryState α) (e : Thrown) : Prop :=
  (s.TimedOut ∧ ∃ error, e = .error .operationTimeoutError error) ∨
    (s.AbortedOtherwise ∧ ∃ error, e = .error .operationAbortedError error)

/-- Every rejection because of the abort or the deadline is typed. -/
def ReportsTyped (attempts : Nat) (s : RetryState α) : Prop :=
  ∀ e, s.phase = .settled (.error e) → s.Cancelled attempts → s.TypedFor e

/-- No abort with another reason than a typed error meets the delay: neither while it
    waits nor in the step in which it begins. -/
def sparesDelay (call : RetryCall) (s : RetryState α) : RetryAction α → Bool
  | .abort reason =>
    match s.phase with
    | .sleeping _ none => reason.isTyped
    | _ => true
  | .delay =>
    match s.phase with
    | .caught i =>
      !(decide (i + 1 < call.attempts) && call.waits i) || s.reason.all Thrown.isTyped
    | _ => true
  | _ => true

/-- The invariant: what the delay rejects with is typed, and what the call rejects with. -/
def Typed (attempts : Nat) (s : RetryState α) : Prop :=
  match s.phase with
  | .sleeping _ (some (.error e)) => e.isTyped = true
  | .settled (.error e) => s.Cancelled attempts → e.isTyped = true
  | _ => True

variable {call : RetryCall} {attempts : Nat} {s : RetryState α}

theorem isTyped_abortError (reason : Thrown) : (abortError reason).isTyped = true := by
  obtain ⟨e, he⟩ := abortError_class reason
  rw [he]
  cases reason.isTimeout with
  | true => rfl
  | false => rfl

theorem isTyped_of_thrown {e : Thrown} (h : s.throwIfAborted = .error e) : e.isTyped = true := by
  rcases throwIfAborted_error h with ⟨reason, -, rfl⟩ | ⟨-, -, rfl⟩
  · exact isTyped_abortError reason
  · rfl

/-- A typed reason is handed on as it is. -/
theorem rawReason_of_typed {reason : Thrown} (h : reason.isTyped = true) :
    rawReason reason = reason := by
  cases reason with
  | undefined => cases h
  | null => cases h
  | _ => rfl

/-- What the abort and the deadline account for is typed as their error, or is not
    typed. -/
theorem typedFor_of_cause {e : Thrown} (hcause : s.Cause e) (htyped : e.isTyped = true) :
    s.TypedFor e := by
  have habort : ∀ reason, s.reason = some reason → s.TypedFor (abortError reason) := by
    intro reason hreason
    obtain ⟨error, he⟩ := abortError_class reason
    cases htimeout : reason.isTimeout with
    | true =>
      rw [htimeout] at he
      exact .inl ⟨.inr ⟨reason, hreason, htimeout⟩, error, he⟩
    | false =>
      rw [htimeout] at he
      exact .inr ⟨⟨reason, hreason, htimeout⟩, error, he⟩
  rcases hcause with ⟨reason, hreason, rfl | rfl⟩ | ⟨hpassed, rfl⟩
  · -- an error of `abortError`
    exact habort reason hreason
  · -- the reason itself, which is typed
    have hreasonTyped : reason.isTyped = true := by
      cases reason with
      | undefined => cases htyped
      | null => cases htyped
      | _ => exact htyped
    rw [rawReason_of_typed hreasonTyped, ← abortError_of_typed hreasonTyped]
    exact habort reason hreason
  · exact .inl ⟨.inl hpassed, operationTimeoutError, rfl⟩

theorem reportsTyped_of_typed (hd : s.Disciplined attempts) (h : s.Typed attempts) :
    s.ReportsTyped attempts := by
  intro e hphase hcancelled
  have hsound := hd.sound
  rw [RetryState.Sound, hphase] at hsound
  rw [RetryState.Typed, hphase] at h
  cases hsound with
  -- the last error of the attempts is no cancellation
  | exhausted _ hmade _ => exact absurd hmade hcancelled.2.ne
  | cancelled _ _ hcause => exact typedFor_of_cause hcause (h hcancelled)
  | unprintable hresults _ htext =>
    -- what cannot be converted is not among the failures
    obtain ⟨err, error, heq, hok⟩ := hcancelled.1 _ (hresults ▸ List.mem_concat_self)
    cases heq
    rw [htext] at hok
    cases hok

/-! ## One step -/

theorem typed_catchError {i : Nat} {err : Thrown} : (s.catchError i err).Typed attempts := by
  unfold catchError
  cases hthrown : s.throwIfAborted with
  | error e => exact fun _ => isTyped_of_thrown hthrown
  | ok _ =>
    cases htext : err.toError with
    | ok e => trivial
    | error e =>
      -- what cannot be converted is no failure that the loop has kept
      rintro ⟨hfailed, -⟩
      obtain ⟨err', error, heq, hok⟩ := hfailed (.error err) List.mem_concat_self
      cases heq
      rw [htext] at hok
      cases hok

/-- Only the phase and the results matter. -/
theorem typed_of_same {s' : RetryState α} (hphase : s'.phase = s.phase)
    (hresults : s'.results = s.results) (h : s.Typed attempts) : s'.Typed attempts := by
  unfold RetryState.Typed RetryState.Cancelled at h ⊢
  rw [hphase, hresults]
  exact h

theorem typed_abort {reason : Thrown} (h : s.Typed attempts)
    (hspares : s.sparesDelay call (.abort reason) = true) :
    (call.step s (.abort reason)).Typed attempts := by
  have hphase : (call.step s (.abort reason)).phase = s.phase.onAbort reason := rfl
  simp only [RetryState.sparesDelay] at hspares
  cases hs : s.phase with
  | awaiting i result =>
    cases result with
    | none =>
      rw [RetryState.Typed, hphase, hs]
      trivial
    | some result =>
      refine typed_of_same (s := s) ?_ rfl h
      rw [hphase, hs]
      rfl
  | sleeping i result =>
    cases result with
    | none =>
      -- the listener of the delay hands the reason on as it is
      rw [hs] at hspares
      rw [RetryState.Typed, hphase, hs]
      show (rawReason reason).isTyped = true
      rw [rawReason_of_typed hspares]
      exact hspares
    | some result =>
      refine typed_of_same (s := s) ?_ rfl h
      rw [hphase, hs]
      rfl
  | _ =>
    refine typed_of_same (s := s) ?_ rfl h
    rw [hphase, hs]
    rfl

theorem typed_enter (hd : s.Disciplined call.attempts) (h : s.Typed call.attempts) :
    (call.step s .enter).Typed call.attempts := by
  have hsound := hd.sound
  unfold RetryState.Sound at hsound
  simp only [RetryCall.step]
  split
  · rename_i i hphase
    rw [hphase] at hsound
    split
    · cases hthrown : s.throwIfAborted with
      | error e => exact fun _ => isTyped_of_thrown hthrown
      | ok _ => trivial
    · -- all attempts have been made
      rename_i hge
      intro hcancelled
      have hlt : s.results.length < call.attempts := hcancelled.2
      rw [hsound.2.made] at hlt
      exact absurd hlt hge
  · exact h

theorem typed_react {k : Nat} (h : s.Typed attempts) : (call.step s (.react k)).Typed attempts := by
  simp only [RetryCall.step]
  split
  · rename_i i hphase
    split
    · split
      · cases s.throwIfAborted with
        | error e => trivial
        | ok _ => trivial
      · trivial
      · exact h
    · exact h
  · exact h

theorem typed_resume (h : s.Typed attempts) : (call.step s .resume).Typed attempts := by
  simp only [RetryCall.step]
  split
  · trivial
  · exact typed_catchError
  · trivial
  · -- the delay has ended with an error
    rename_i i e hphase
    rw [RetryState.Typed, hphase] at h
    exact fun _ => h
  · exact h

theorem typed_delay (h : s.Typed call.attempts) (hspares : s.sparesDelay call .delay = true) :
    (call.step s .delay).Typed call.attempts := by
  simp only [RetryCall.step]
  split
  · rename_i i hphase
    rw [RetryState.sparesDelay, hphase] at hspares
    split
    · rename_i hwaits
      -- a reason that was there before the delay is typed
      simp only [hwaits.1, hwaits.2, decide_true, Bool.and_self, Bool.not_true,
        Bool.false_or] at hspares
      cases hreason : s.reason with
      | none => trivial
      | some reason =>
        rw [hreason, Option.all_some] at hspares
        show (rawReason reason).isTyped = true
        rw [rawReason_of_typed hspares]
        exact hspares
    · trivial
  · exact h

theorem typed_step (hd : s.Disciplined call.attempts) (h : s.Typed call.attempts)
    {action : RetryAction α} (hspares : s.sparesDelay call action = true) :
    (call.step s action).Typed call.attempts := by
  cases action with
  | abort reason => exact typed_abort h hspares
  | tick now => exact typed_of_same (s := s) rfl rfl h
  | settle k outcome => exact typed_of_same (s := s) rfl rfl h
  | enter => exact typed_enter hd h
  | throws e =>
    simp only [RetryCall.step]
    split
    · exact typed_catchError
    · exact h
  | returns =>
    simp only [RetryCall.step]
    split
    · cases s.throwIfAborted with
      | error e => trivial
      | ok _ => trivial
    · exact h
  | react k => exact typed_react h
  | timeout =>
    simp only [RetryCall.step]
    split
    · trivial
    · exact h
  | resume => exact typed_resume h
  | delay => exact typed_delay h hspares
  | wake =>
    simp only [RetryCall.step]
    split
    · trivial
    · exact h

end RetryState

/-! ## Runs -/

/-- In a run in which no abort with another reason than a typed error meets a delay,
    every rejection because of the abort or the deadline is typed as its cause. -/
theorem cancellation_typed (call : RetryCall) (h : call.Accepted) (signal : Option AbortSignal)
    (now : Nat) {actions : List (RetryAction α)}
    (hlegal : (retryMachine call).Legal (call.start signal now) actions)
    (hspares : (retryMachine call).Along (fun s action => s.sparesDelay call action = true)
      (call.start signal now) actions) :
    ∀ front, front <+: actions →
      ((retryMachine call).run (call.start signal now) front).ReportsTyped call.attempts := by
  intro front hfront
  let restricted := (retryMachine (α := α) call).restrict
    fun s action => s.sparesDelay call action = true
  have hstep : ∀ s action, s.Disciplined call.attempts ∧ s.Typed call.attempts →
      restricted.enabled s action →
      (restricted.step s action).Disciplined call.attempts ∧
        (restricted.step s action).Typed call.attempts := fun s action hs henabled =>
    ⟨disciplined_machine h s action hs.1 henabled.1, typed_step hs.1 hs.2 henabled.2⟩
  -- the call starts in front of its first attempt
  have hstart : (call.start signal now : RetryState α).Typed call.attempts := by
    simp only [RetryState.Typed, RetryCall.start]
    rw [show checkRetryOptions call.options call.limits = .ok () from h]
    trivial
  have hrun := Machine.invariant hstep ⟨disciplined_start h signal now, hstart⟩
    (Machine.legal_of_front hfront (Machine.restrict_legal hlegal hspares))
  exact reportsTyped_of_typed hrun.1 hrun.2

/-- Two attempts with a delay between them. -/
def delayedCall : RetryCall :=
  ⟨some ⟨some (.integer 2), some (.integer 1000)⟩, .fixed, defaultLimits⟩

/-- An abort during the second attempt. -/
theorem cancellation_typed_second :
    ((retryMachine delayedCall).run (delayedCall.start (some ⟨none, some 5000⟩) 0)
      ([.enter, .throws (.plain "busy"), .delay, .tick 1000, .wake, .resume, .enter, .returns,
        .abort (.plain "stop"), .resume] : List (RetryAction Nat))).ReportsTyped 2 :=
  cancellation_typed delayedCall (by decide) (some ⟨none, some 5000⟩) 0 (by decide) (by decide)
    _ (List.prefix_refl _)

/-- An abort during the delay. -/
theorem delay_rejects_raw :
    delayedCall.Accepted ∧ ∃ actions : List (RetryAction Nat),
      (retryMachine delayedCall).Legal (delayedCall.start (some ⟨none, none⟩) 0) actions ∧
        ((retryMachine delayedCall).run (delayedCall.start (some ⟨none, none⟩) 0) actions).phase =
          .settled (.error (.plain "stop")) ∧
        ¬ ((retryMachine delayedCall).run (delayedCall.start (some ⟨none, none⟩) 0)
          actions).ReportsTyped 2 := by
  refine ⟨by decide, [.enter, .throws (.plain "busy"), .delay, .abort (.plain "stop"), .resume],
    by decide, rfl, fun h => ?_⟩
  have htyped := h (.plain "stop") rfl ⟨?_, by decide⟩
  · rcases htyped with ⟨-, error, he⟩ | ⟨-, error, he⟩
    · -- an untyped error is of neither class
      cases he
    · cases he
  · intro result hresult
    cases List.mem_singleton.mp hresult
    exact ⟨_, _, rfl, rfl⟩

end PipeX
