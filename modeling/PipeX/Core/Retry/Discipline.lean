/-
  PipeX.Core.Retry.Discipline

  What holds along every run of `withRetry` under a signal: how many invocations it
  starts and when, and when and with what it settles.

  A result of an invocation counts once its callback has run: a value whose `then`
  callback finds the signal aborted is discarded, also where the promise was resolved
  before the abort (`first_resolved_discarded`).
-/
import PipeX.Core.Retry.Cancellation

namespace PipeX

open Transition RetryState

variable {α : Type}

namespace RetryState

/-- What is left to do, in steps of the call itself. -/
def budget (attempts : Nat) (s : RetryState α) : Nat :=
  match s.phase with
  | .head i => 8 * (attempts - i) + 1
  | .calling i => 8 * (attempts - i)
  | .awaiting i none => 8 * (attempts - i) - 1
  | .awaiting i (some _) => 8 * (attempts - i) - 2
  | .caught i => 8 * (attempts - i) - 3
  | .sleeping i none => 8 * (attempts - i) - 4
  | .sleeping i (some _) => 8 * (attempts - i) - 5
  | .settled _ => 0

/-- Whether a step is one of the call itself: its code, its timers, and the callback it
    waits for. -/
def works (s : RetryState α) : RetryAction α → Bool
  | .abort _ => false
  | .tick _ => false
  | .settle _ _ => false
  | .react k =>
    match s.phase with
    | .awaiting i none => decide (k = i)
    | _ => false
  | _ => true

/-- What the call waits for: `fn` runs, or its promise is pending while nothing can be
    seen of an abort or the deadline. -/
def Waits (s : RetryState α) : Prop :=
  (∃ i, s.phase = .calling i) ∨
    ∃ i, s.phase = .awaiting i none ∧ s.outcomes i = none ∧ s.observable = false

variable {call : RetryCall} {attempts : Nat} {s : RetryState α}

theorem budget_catchError (s : RetryState α) (attempts i : Nat) (err : Thrown) :
    (s.catchError i err).budget attempts ≤ 8 * (attempts - i) - 3 := by
  unfold catchError
  split
  · exact Nat.zero_le _
  · split
    · exact Nat.zero_le _
    · exact Nat.le_refl _

/-- A callback that nobody waits for changes nothing. -/
theorem react_idle {k : Nat} (h : s.works (.react k) = false) : call.step s (.react k) = s := by
  simp only [RetryCall.step]
  split
  · rename_i i hphase
    rw [RetryState.works, hphase] at h
    rw [if_neg (of_decide_eq_false h)]
  · rfl

/-- The callback that the call waits for ends its `await`. -/
theorem react_awaited (call : RetryCall) {i : Nat} (hphase : s.phase = .awaiting i none)
    (houtcome : (s.outcomes i).isSome = true) :
    ∃ result, (call.step s (.react i)).phase = .awaiting i (some result) := by
  obtain ⟨outcome, houtcome⟩ := Option.isSome_iff_exists.mp houtcome
  simp only [RetryCall.step, hphase, if_true, houtcome]
  cases outcome with
  -- a rejection is handed on, whatever the signal is
  | error e => exact ⟨.error e, rfl⟩
  | ok value =>
    rcases s.throwIfAborted_cases with ⟨e, hthrown, -⟩ | ⟨hok, -⟩
    · exact ⟨.error e, by simp only [hthrown]⟩
    · exact ⟨.ok value, by simp only [hok]⟩

/-- An abort ends an `await` or a delay, and leaves the attempt to do. -/
theorem budget_abort (call : RetryCall) (s : RetryState α) (attempts : Nat) (reason : Thrown) :
    (call.step s (.abort reason)).budget attempts ≤ s.budget attempts := by
  simp only [RetryState.budget, RetryCall.step]
  cases s.phase with
  -- the promise that the listener settles is one step on
  | awaiting i result =>
    cases result with
    | none => simp only [RetryPhase.onAbort]; omega
    | some result => simp only [RetryPhase.onAbort]; omega
  | sleeping i result =>
    cases result with
    | none => simp only [RetryPhase.onAbort]; omega
    | some result => simp only [RetryPhase.onAbort]; omega
  | _ => exact Nat.le_refl _

theorem budget_enter (henabled : s.enabled .enter = true) :
    (call.step s .enter).budget call.attempts < s.budget call.attempts := by
  simp only [RetryState.enabled] at henabled
  split at henabled
  · rename_i i hphase
    rw [RetryState.budget, RetryState.budget, hphase]
    by_cases hlt : i < call.attempts
    · -- an attempt has eight steps at most; its start is the first
      rcases s.throwIfAborted_cases with ⟨e, hthrown, -⟩ | ⟨hok, -⟩
      · simp only [RetryCall.step, hphase, if_pos hlt, hthrown, settleWith]
        omega
      · simp only [RetryCall.step, hphase, if_pos hlt, hok]
        omega
    · simp only [RetryCall.step, hphase, if_neg hlt, settleWith]
      omega
  · cases henabled

theorem budget_throws (h : s.Disciplined attempts) {e : Thrown}
    (henabled : s.enabled (.throws e) = true) :
    (call.step s (.throws e)).budget attempts < s.budget attempts := by
  have hsound := h.sound
  unfold RetryState.Sound at hsound
  simp only [RetryState.enabled] at henabled
  split at henabled
  · rename_i i hphase
    rw [hphase] at hsound
    -- the `catch` block leaves less than the call has
    have hcatch := budget_catchError
      { s with outcomes := Function.update s.outcomes i (some (.error e)) } attempts i e
    have hbudget : s.budget attempts = 8 * (attempts - i) := by rw [RetryState.budget, hphase]
    simp only [RetryCall.step, hphase] at hcatch ⊢
    omega
  · cases henabled

theorem budget_returns (h : s.Disciplined attempts) (henabled : s.enabled .returns = true) :
    (call.step s .returns).budget attempts < s.budget attempts := by
  have hsound := h.sound
  unfold RetryState.Sound at hsound
  simp only [RetryState.enabled] at henabled
  split at henabled
  · rename_i i hphase
    rw [hphase] at hsound
    rw [RetryState.budget, RetryState.budget, hphase]
    rcases s.throwIfAborted_cases with ⟨e, hthrown, -⟩ | ⟨hok, -⟩
    · simp only [RetryCall.step, hphase, hthrown]
      omega
    · simp only [RetryCall.step, hphase, hok]
      omega
  · cases henabled

/-- The callback that the call waits for is a step of the call, any other is none. -/
theorem budget_react (h : s.Disciplined attempts) {k : Nat}
    (henabled : s.enabled (.react k) = true) :
    (if s.works (.react k) then 1 else 0) + (call.step s (.react k)).budget attempts ≤
      s.budget attempts := by
  cases hworks : s.works (.react k) with
  | false => exact Nat.le_of_eq ((Nat.zero_add _).trans (by rw [react_idle hworks]))
  | true =>
    have hsound := h.sound
    unfold RetryState.Sound at hsound
    simp only [RetryState.works] at hworks
    split at hworks
    · rename_i i hphase
      cases of_decide_eq_true hworks
      rw [hphase] at hsound
      obtain ⟨result, hnext⟩ := react_awaited call hphase (Bool.and_eq_true_iff.mp henabled).1
      rw [RetryState.budget, RetryState.budget, hphase, hnext]
      simp only [if_true]
      omega
    · cases hworks

theorem budget_timeout (h : s.Disciplined attempts) (henabled : s.enabled .timeout = true) :
    (call.step s .timeout).budget attempts < s.budget attempts := by
  have hsound := h.sound
  unfold RetryState.Sound at hsound
  simp only [RetryState.enabled] at henabled
  split at henabled
  · rename_i i deadline hphase hdeadline
    rw [hphase] at hsound
    rw [RetryState.budget, RetryState.budget, hphase]
    simp only [RetryCall.step, hphase]
    omega
  · cases henabled

theorem budget_resume (h : s.Disciplined attempts) (henabled : s.enabled .resume = true) :
    (call.step s .resume).budget attempts < s.budget attempts := by
  have hsound := h.sound
  unfold RetryState.Sound at hsound
  simp only [RetryState.enabled] at henabled
  split at henabled
  · -- behind the `await`
    rename_i i result hphase
    rw [hphase] at hsound
    cases result with
    | ok value =>
      rw [RetryState.budget, RetryState.budget, hphase]
      simp only [RetryCall.step, hphase, settleWith]
      omega
    | error e =>
      have hcatch := s.budget_catchError attempts i e
      have hbudget : s.budget attempts = 8 * (attempts - i) - 2 := by
        rw [RetryState.budget, hphase]
      simp only [RetryCall.step, hphase]
      omega
  · -- behind the delay
    rename_i i result hphase
    rw [hphase] at hsound
    rw [RetryState.budget, RetryState.budget, hphase]
    cases result with
    | ok _ =>
      simp only [RetryCall.step, hphase]
      omega
    | error e =>
      simp only [RetryCall.step, hphase, settleWith]
      omega
  · cases henabled

theorem budget_delay (h : s.Disciplined call.attempts) (henabled : s.enabled .delay = true) :
    (call.step s .delay).budget call.attempts < s.budget call.attempts := by
  have hsound := h.sound
  unfold RetryState.Sound at hsound
  simp only [RetryState.enabled] at henabled
  split at henabled
  · rename_i i hphase
    rw [hphase] at hsound
    rw [RetryState.budget, RetryState.budget, hphase]
    by_cases hwaits : i + 1 < call.attempts ∧ call.waits i = true
    · simp only [RetryCall.step, hphase, if_pos hwaits]
      cases s.reason with
      | none => simp only [Option.map_none]; omega
      | some reason => simp only [Option.map_some]; omega
    · simp only [RetryCall.step, hphase, if_neg hwaits]
      omega
  · cases henabled

theorem budget_wake (h : s.Disciplined attempts) (henabled : s.enabled .wake = true) :
    (call.step s .wake).budget attempts < s.budget attempts := by
  have hsound := h.sound
  unfold RetryState.Sound at hsound
  simp only [RetryState.enabled] at henabled
  split at henabled
  · rename_i i hphase
    rw [hphase] at hsound
    rw [RetryState.budget, RetryState.budget, hphase]
    simp only [RetryCall.step, hphase]
    omega
  · cases henabled

/-- A step of the call lowers what is left, and no other step raises it. -/
theorem budget_step (h : s.Disciplined call.attempts) {action : RetryAction α}
    (henabled : s.enabled action = true) :
    (if s.works action then 1 else 0) + (call.step s action).budget call.attempts ≤
      s.budget call.attempts := by
  have hlowers : ∀ {n : Nat}, n < s.budget call.attempts → 1 + n ≤ s.budget call.attempts := by
    intro n hn
    omega
  cases action with
  | abort reason => exact (Nat.zero_add _).trans_le (budget_abort call s call.attempts reason)
  | tick now => exact Nat.le_of_eq (Nat.zero_add _)
  | settle k outcome => exact Nat.le_of_eq (Nat.zero_add _)
  | enter => exact hlowers (budget_enter henabled)
  | throws e => exact hlowers (budget_throws h henabled)
  | returns => exact hlowers (budget_returns h henabled)
  | react k => exact budget_react h henabled
  | timeout => exact hlowers (budget_timeout h henabled)
  | resume => exact hlowers (budget_resume h henabled)
  | delay => exact hlowers (budget_delay h henabled)
  | wake => exact hlowers (budget_wake h henabled)

/-- A call that has not settled goes on, or waits. -/
theorem progress (h : s.Disciplined attempts) :
    (∃ result, s.phase = .settled result) ∨ s.Waits ∨
      ∃ action, s.enabled action = true ∧ s.works action = true := by
  have hsound := h.sound
  unfold RetryState.Sound at hsound
  cases hphase : s.phase with
  -- in every phase but two there is something to run
  | settled result => exact .inl ⟨result, rfl⟩
  | calling i => exact .inr (.inl (.inl ⟨i, hphase⟩))
  | head i => exact .inr (.inr ⟨.enter, by simp only [RetryState.enabled, hphase], rfl⟩)
  | caught i => exact .inr (.inr ⟨.delay, by simp only [RetryState.enabled, hphase], rfl⟩)
  | sleeping i result =>
    cases result with
    | none => exact .inr (.inr ⟨.wake, by simp only [RetryState.enabled, hphase], rfl⟩)
    | some result => exact .inr (.inr ⟨.resume, by simp only [RetryState.enabled, hphase], rfl⟩)
  | awaiting i result =>
    cases result with
    | some result => exact .inr (.inr ⟨.resume, by simp only [RetryState.enabled, hphase], rfl⟩)
    | none =>
      rw [hphase] at hsound
      -- the `await` of an attempt
      cases houtcome : s.outcomes i with
      | some outcome =>
        refine .inr (.inr ⟨.react i, ?_, ?_⟩)
        · simp only [RetryState.enabled, houtcome, hphase, Option.isSome_some, Bool.and_self]
        · simp only [RetryState.works, hphase, decide_true]
      | none =>
        cases hseen : s.observable with
        | false => exact .inr (.inl (.inr ⟨i, hphase, houtcome, hseen⟩))
        | true =>
          -- an abort would have ended the `await`, so it is the deadline, and its timer
          rcases observable_iff_reason.mp hseen with ⟨reason, hreason⟩ | ⟨deadline, hdeadline, hle⟩
          · rw [hsound.2.2] at hreason
            cases hreason
          · refine .inr (.inr ⟨.timeout, ?_, rfl⟩)
            simp only [RetryState.enabled, hphase, hdeadline]
            exact decide_eq_true hle

/-! ## What a step starts, learns and leaves -/

theorem catchError_started (s : RetryState α) (i : Nat) (err : Thrown) :
    (s.catchError i err).started = s.started := by
  unfold catchError
  split
  · rfl
  · split
    · rfl
    · rfl

theorem catchError_outcomes (s : RetryState α) (i : Nat) (err : Thrown) :
    (s.catchError i err).outcomes = s.outcomes := by
  unfold catchError
  split
  · rfl
  · split
    · rfl
    · rfl

theorem catchError_results {i : Nat} {err e : Thrown} (h : s.throwIfAborted = .error e) :
    (s.catchError i err).results = s.results := by
  rw [catchError, h]
  rfl

/-- What a step does to the invocations and to what is known of them.  All else that it
    can do is in the signal, the clock and the phase. -/
inductive Effect (s : RetryState α) : RetryAction α → RetryState α → Prop where
  | moves (action : RetryAction α) (signal : Option AbortSignal) (now : Nat)
      (phase : RetryPhase α) :
      Effect s action { s with signal := signal, now := now, phase := phase }
  | starts {i : Nat} (head : s.phase = .head i) (quiet : s.observable = false) :
      Effect s .enter { s with started := s.started + 1, phase := .calling i }
  | settles (k : Nat) (outcome : Except Thrown α) :
      Effect s (.settle k outcome)
        { s with outcomes := Function.update s.outcomes k (some outcome) }
  | throws {i : Nat} (calling : s.phase = .calling i) (e : Thrown) :
      Effect s (.throws e)
        (RetryState.catchError
          { s with outcomes := Function.update s.outcomes i (some (.error e)) } i e)
  | catches (i : Nat) (e : Thrown) : Effect s .resume (s.catchError i e)
  | takes {i : Nat} (value : α) (quiet : s.observable = false) :
      Effect s (.react i)
        { s with
          results := s.results ++ [.ok value]
          phase := .awaiting i (some (.ok value)) }

theorem step_effect (call : RetryCall) (s : RetryState α) (action : RetryAction α) :
    s.Effect action (call.step s action) := by
  cases action with
  | abort reason => exact .moves _ _ s.now _
  | tick now => exact .moves _ s.signal now s.phase
  | settle k outcome => exact .settles k outcome
  | enter =>
    simp only [RetryCall.step]
    split
    · rename_i i hphase
      split
      · rcases s.throwIfAborted_cases with ⟨e, hthrown, -⟩ | ⟨hok, hquiet⟩
        · rw [hthrown]
          exact .moves _ s.signal s.now _
        · rw [hok]
          exact .starts hphase hquiet
      · exact .moves _ s.signal s.now _
    · exact .moves _ s.signal s.now s.phase
  | throws e =>
    simp only [RetryCall.step]
    split
    · exact .throws ‹_› e
    · exact .moves _ s.signal s.now s.phase
  | react k =>
    simp only [RetryCall.step]
    split
    · rename_i i hphase
      split
      · rename_i hk
        subst hk
        split
        · rcases s.throwIfAborted_cases with ⟨e, hthrown, -⟩ | ⟨hok, hquiet⟩
          · rw [hthrown]
            exact .moves _ s.signal s.now _
          · rw [hok]
            exact .takes _ hquiet
        · exact .moves _ s.signal s.now _
        · exact .moves _ s.signal s.now s.phase
      · exact .moves _ s.signal s.now s.phase
    · exact .moves _ s.signal s.now s.phase
  | resume =>
    simp only [RetryCall.step]
    split
    · exact .moves _ s.signal s.now _
    · exact .catches _ _
    · exact .moves _ s.signal s.now _
    · exact .moves _ s.signal s.now _
    · exact .moves _ s.signal s.now s.phase
  | _ =>
    -- the other steps change nothing but the phase
    simp only [RetryCall.step]
    repeat' split
    all_goals exact .moves _ s.signal s.now _

section Effects

variable {s' : RetryState α} {action : RetryAction α}

/-- Only the head of the loop starts an invocation, and neither the abort nor the deadline
    can be seen there. -/
theorem Effect.started (h : s.Effect action s') :
    s'.started = s.started ∨ ∃ i, s.phase = .head i ∧ s.observable = false := by
  cases h with
  | moves => exact .inl rfl
  | starts hphase hquiet => exact .inr ⟨_, hphase, hquiet⟩
  | settles => exact .inl rfl
  | throws => exact .inl (catchError_started _ _ _)
  | catches => exact .inl (catchError_started _ _ _)
  | takes => exact .inl rfl

/-- What an invocation has come to stays so. -/
theorem Effect.outcomes (h : s.Effect action s') (henabled : s.enabled action = true) {k : Nat}
    {outcome : Except Thrown α} (hk : s.outcomes k = some outcome) :
    s'.outcomes k = some outcome := by
  cases h with
  | moves => exact hk
  | starts => exact hk
  | takes => exact hk
  | catches i e =>
    rw [catchError_outcomes]
    exact hk
  | settles j result =>
    refine (Function.update_of_ne ?_ ..).trans hk
    rintro rfl
    rw [RetryState.enabled, hk, Option.isNone_some, Bool.and_false] at henabled
    cases henabled
  | throws hphase e =>
    rw [catchError_outcomes]
    refine (Function.update_of_ne ?_ ..).trans hk
    rintro rfl
    simp only [RetryState.enabled, hphase, hk, Option.isNone_some] at henabled
    cases henabled

/-- Nothing is learnt where the abort or the deadline can be seen: a `catch` block that
    finds them throws before it keeps the error. -/
theorem Effect.results (h : s.Effect action s') : s'.results = s.results ∨ s.observable = false := by
  rcases s.throwIfAborted_cases with ⟨e, hthrown, -⟩ | ⟨-, hquiet⟩
  · cases h with
    | moves => exact .inl rfl
    | starts => exact .inl rfl
    | settles => exact .inl rfl
    | throws hphase err =>
      exact .inl (catchError_results
        (s := { s with outcomes := Function.update s.outcomes _ _ }) hthrown)
    | catches i err => exact .inl (catchError_results hthrown)
    | takes value hquiet => exact .inr hquiet
  · exact .inr hquiet

end Effects

theorem outcomes_step {action : RetryAction α} (henabled : s.enabled action = true) {k : Nat}
    {outcome : Except Thrown α} (h : s.outcomes k = some outcome) :
    (call.step s action).outcomes k = some outcome :=
  (step_effect call s action).outcomes henabled h

/-- The result of every earlier invocation is a failure at the head of the loop. -/
theorem starts_step (h : s.Disciplined call.attempts) {action : RetryAction α}
    (hstarts : (call.step s action).started ≠ s.started) :
    s.observable = false ∧ ∀ k < s.started, ∃ e, s.outcomes k = some (.error e) := by
  rcases (step_effect call s action).started with hsame | ⟨i, hphase, hquiet⟩
  · exact absurd hsame hstarts
  have hsound := h.sound
  rw [RetryState.Sound, hphase] at hsound
  obtain ⟨-, hfailed⟩ := hsound
  refine ⟨hquiet, fun k hk => ?_⟩
  have hlt : k < s.results.length := by rw [hfailed.made, ← hfailed.started]; exact hk
  have hget := List.getElem?_eq_getElem hlt
  obtain ⟨err, e, herr, -⟩ := hfailed.failures _ (List.getElem_mem hlt)
  exact ⟨err, herr ▸ h.outcomes k _ hget⟩

theorem learns_step {action : RetryAction α}
    (h : (call.step s action).results ≠ s.results) : s.observable = false :=
  (step_effect call s action).results.resolve_left h

/-- A value counts if its callback finds neither the abort nor the deadline. -/
theorem react_value {i : Nat} {value : α} (hphase : s.phase = .awaiting i none)
    (hvalue : s.outcomes i = some (.ok value)) (hquiet : s.observable = false) :
    (call.step s (.react i)).results = s.results ++ [.ok value] := by
  rcases s.throwIfAborted_cases with ⟨e, -, hseen⟩ | ⟨hok, -⟩
  · rw [hquiet] at hseen
    cases hseen
  · simp only [RetryCall.step, hphase, if_true, hvalue, hok]

/-- Nothing happens to a promise that has settled. -/
theorem settled_step {action : RetryAction α} {result : Except Thrown α}
    (h : s.phase = .settled result) : (call.step s action).phase = .settled result := by
  cases action with
  | abort reason =>
    show s.phase.onAbort reason = _
    rw [h]
    rfl
  | tick now => exact h
  | settle k outcome => exact h
  | _ => simp only [RetryCall.step, h]

end RetryState

/-! ## Runs -/

section Runs

variable {call : RetryCall} {first : RetryState α} {actions : List (RetryAction α)}

theorem disciplined_start (h : call.Accepted) (signal : Option AbortSignal) (now : Nat) :
    (call.start signal now : RetryState α).Disciplined call.attempts := by
  have hphase : (call.start signal now : RetryState α).phase = .head 0 := by
    simp only [RetryCall.start]
    rw [show checkRetryOptions call.options call.limits = .ok () from h]
  -- nothing was started, so nothing has failed
  refine ⟨fun k result hresult => ?_, Nat.zero_le _, ?_⟩
  · rw [show (call.start signal now : RetryState α).results = [] from rfl, List.getElem?_nil]
      at hresult
    cases hresult
  · rw [RetryState.Sound, hphase]
    exact ⟨Nat.zero_le _, rfl, rfl, fun result hresult => absurd hresult List.not_mem_nil, rfl⟩

theorem budget_start (call : RetryCall) (signal : Option AbortSignal) (now : Nat) :
    (call.start signal now : RetryState α).budget call.attempts ≤ 8 * call.attempts + 1 := by
  simp only [RetryState.budget, RetryCall.start]
  cases checkRetryOptions call.options call.limits with
  | ok _ => exact Nat.le_refl _
  | error e => exact Nat.zero_le _

theorem disciplined_machine (h : call.Accepted) (s : RetryState α) (action : RetryAction α)
    (hs : s.Disciplined call.attempts) (henabled : (retryMachine call).enabled s action) :
    ((retryMachine call).step s action).Disciplined call.attempts :=
  disciplined_step (checkRetryOptions_attempts h) hs henabled

theorem disciplined_run (h : call.Accepted) (hfirst : first.Disciplined call.attempts)
    (hlegal : (retryMachine call).Legal first actions) :
    ((retryMachine call).run first actions).Disciplined call.attempts :=
  Machine.invariant (P := fun s => s.Disciplined call.attempts) (disciplined_machine h) hfirst hlegal

theorem settled_run {result : Except Thrown α} (h : first.phase = .settled result) :
    ((retryMachine call).run first actions).phase = .settled result := by
  -- no step leaves a settled promise
  induction actions generalizing first with
  | nil => exact h
  | cons action actions ih => exact ih (settled_step h)

/-- The discipline of `withRetry` along a run. -/
structure RetryDiscipline (call : RetryCall) (first : RetryState α)
    (actions : List (RetryAction α)) : Prop where
  attempts : ((retryMachine call).run first actions).started ≤ call.attempts
  /-- an invocation starts when all earlier ones have failed, and neither the abort nor the
      deadline can be seen -/
  starts : (retryMachine call).Along (fun s action =>
    (call.step s action).started ≠ s.started →
      s.observable = false ∧ ∀ k < s.started, ∃ e, s.outcomes k = some (.error e)) first actions
  /-- nothing counts that comes when they can be seen -/
  learns : (retryMachine call).Along (fun s action =>
    (call.step s action).results ≠ s.results → s.observable = false) first actions
  /-- a value counts whose callback comes before -/
  values : (retryMachine call).Along (fun s action => ∀ i value, action = .react i →
    s.phase = .awaiting i none → s.outcomes i = some (.ok value) → s.observable = false →
      (call.step s action).results = s.results ++ [.ok value]) first actions
  /-- what counts is what the invocations have come to, one after another -/
  results : ∀ k result, ((retryMachine call).run first actions).results[k]? = some result →
    ((retryMachine call).run first actions).outcomes k = some result
  once : ∀ front result, front <+: actions →
    ((retryMachine call).run first front).phase = .settled result →
      ((retryMachine call).run first actions).phase = .settled result
  verdict : ∀ result, ((retryMachine call).run first actions).phase = .settled result →
    ((retryMachine call).run first actions).Verdict call.attempts result
  /-- the call takes boundedly many steps of its own -/
  bounded : (retryMachine call).count RetryState.works first actions ≤ 8 * call.attempts + 1
  settles : (∃ result, ((retryMachine call).run first actions).phase = .settled result) ∨
    ((retryMachine call).run first actions).Waits ∨
      ∃ action, ((retryMachine call).run first actions).enabled action = true ∧
        ((retryMachine call).run first actions).works action = true

/-- Every run of an accepted call keeps to the discipline, whatever the attempts come to
    and whenever the signal is aborted or its deadline passes. -/
theorem retry_discipline (call : RetryCall) (h : call.Accepted) (signal : Option AbortSignal)
    (now : Nat) {actions : List (RetryAction α)}
    (hlegal : (retryMachine call).Legal (call.start signal now) actions) :
    RetryDiscipline call (call.start signal now) actions := by
  have hstart := disciplined_start (α := α) h signal now
  have hrun := disciplined_run h hstart hlegal
  have hstep := disciplined_machine (α := α) h
  refine ⟨hrun.started, ?_, ?_, ?_, hrun.outcomes, ?_, ?_, ?_, progress hrun⟩
  · -- three clauses about every step, by the step lemmas
    exact Machine.along_of_invariant hstep (fun s action hs _ => starts_step hs) hstart hlegal
  · exact Machine.along_of_invariant hstep (fun s action _ _ => learns_step) hstart hlegal
  · refine Machine.along_of_invariant hstep (fun s action _ _ => ?_) hstart hlegal
    rintro i value rfl hphase hvalue hquiet
    exact react_value hphase hvalue hquiet
  · -- what has settled stays so in the rest of the run
    rintro front result ⟨rest, rfl⟩ hfront
    rw [Machine.run_append]
    exact settled_run hfront
  · intro result hresult
    have hsound := hrun.sound
    rw [RetryState.Sound, hresult] at hsound
    exact hsound
  · have hcount := Machine.count_add_le (Q := RetryState.works) hstep
      (fun s action hs henabled => budget_step hs henabled) hstart hlegal
    have hbudget := budget_start (α := α) call signal now
    omega

end Runs

/-- One attempt, under the default limits. -/
def oneAttempt : RetryCall := ⟨none, .fixed, defaultLimits⟩

/-- An attempt that comes to a value. -/
theorem retry_discipline_value :
    RetryDiscipline oneAttempt (oneAttempt.start (some ⟨none, some 10⟩) 0)
      [.enter, .returns, .tick 9, .settle 0 (.ok 5), .react 0, .resume] :=
  retry_discipline oneAttempt (by decide) (some ⟨none, some 10⟩) 0 (by decide)

/-- The value of the first invocation whose promise is resolved before the abort and the
    deadline is what the call settles with. -/
def SettlesWithFirstResolved (call : RetryCall) (first : RetryState α)
    (actions : List (RetryAction α)) : Prop :=
  ∀ front k value rest, actions = front ++ .settle k (.ok value) :: rest →
    ((retryMachine call).run first front).observable = false →
    (∀ j < k, ∃ e, ((retryMachine call).run first front).outcomes j = some (.error e)) →
    ∀ result, ((retryMachine call).run first actions).phase = .settled result → result = .ok value

/-- The signal is aborted between the resolution of the promise and its callback. -/
theorem first_resolved_discarded :
    oneAttempt.Accepted ∧ ∃ actions : List (RetryAction Nat),
      (retryMachine oneAttempt).Legal (oneAttempt.start (some ⟨none, none⟩) 0) actions ∧
        ¬ SettlesWithFirstResolved oneAttempt (oneAttempt.start (some ⟨none, none⟩) 0) actions := by
  refine ⟨by decide, [.enter, .returns, .settle 0 (.ok 5), .abort (.value "stop"), .react 0,
    .resume], by decide, fun h => ?_⟩
  -- the promise was resolved while nothing could be seen
  have hvalue := h [.enter, .returns] 0 5 [.abort (.value "stop"), .react 0, .resume] rfl
    (by decide) (fun j hj => absurd hj (Nat.not_lt_zero j)) (.error .aborted) rfl
  cases hvalue

end PipeX
