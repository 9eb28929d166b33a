/-
  PipeX.Core.Controllers.Endpoint

  `#into` of `src/core/controllers/StreamController.ts`: the writable that
  `stream.into()` and `stream.reverseInto()` return, and the callbacks of the pipeline
  behind it.

  The `catch` callback converts what it is handed with `String(error)`.  A value for which
  that throws ends the request without a report, and the endpoint waits for ever
  (`failure_lost`); every other outcome is reported once (`endpoint_outcome`).
-/
import PipeX.Core.Operations
import PipeX.Lib.Transition

namespace PipeX

open Transition

/-! ## State -/

/-- Where the callbacks of `runPipeline` are. -/
inductive EndpointPhase where
  /-- the promise of the pipeline is awaited -/
  | piping
  /-- in `await awaitOperation(emitAudit(…))`, with what its promise has settled with -/
  | auditing (result : Option (Except Thrown Unit))
  /-- on the way to the `catch` callback -/
  | failing (error : Thrown)
  | done
  /-- the `catch` callback has thrown -/
  | lost

structure EndpointState where
  signal : AbortSignal
  /-- `Date.now()` -/
  now : Nat
  /-- what the promise of the pipeline has settled with -/
  pipeline : Option (Except Thrown Unit)
  /-- what the promise of `emitAudit` has settled with -/
  audit : Option (Except Thrown Unit)
  phase : EndpointPhase
  /-- the endpoint is in the hands of its owner -/
  built : Bool
  /-- a `write` has not called back -/
  writing : Bool
  /-- `final` was called -/
  finalized : Bool
  /-- `finalCallback` is there -/
  finalCallback : Bool
  /-- an error was handed to Node, which will destroy the endpoint -/
  errored : Bool
  destroyed : Bool
  /-- the owner destroyed it -/
  abandoned : Bool
  sourceDestroyed : Bool
  /-- the calls of the callback of `final` -/
  finalCalls : List (Option Thrown)
  /-- the errors that the code handed to the endpoint -/
  reported : List Thrown
  /-- the calls of `endRequest` and of `emitError` -/
  ended : Nat
  failed : Nat

inductive EndpointAction where
  /-- `controller.abort(reason)`, with the listeners of the signal -/
  | abort (reason : Thrown)
  /-- the clock moves on -/
  | tick (now : Nat)
  /-- Node calls `write`; `destination.errored ?? source.errored` is the cause -/
  | write (cause : Thrown)
  | writeDone
  /-- the destroyed source calls back with an error -/
  | writeFails (e : Thrown)
  /-- Node calls `final` -/
  | final
  /-- the owner calls `destroy` -/
  | destroy
  /-- Node destroys an endpoint that has finished or failed -/
  | teardown
  | sourceDestroy
  | pipelineSettles (outcome : Except Thrown Unit)
  /-- the callbacks of the pipeline run -/
  | react
  | auditSettles (outcome : Except Thrown Unit)
  /-- the `then` callback of `awaitOperation` runs -/
  | auditReact
  /-- its deadline timer fires -/
  | timeout
  /-- the code behind the `await` runs -/
  | resume
  /-- the `catch` callback runs -/
  | handle

namespace EndpointState

def throwIfAborted (s : EndpointState) : Except Thrown Unit :=
  PipeX.throwIfAborted (some s.signal) s.now

/-- The abort or the passed deadline can be seen. -/
def observable (s : EndpointState) : Bool := PipeX.observable (some s.signal) s.now

/-- The endpoint was handed an error. -/
def report (s : EndpointState) (e : Thrown) : EndpointState :=
  { s with errored := true, reported := s.reported ++ [e] }

/-- The `destroy` of the endpoint. -/
def destroyHook (s : EndpointState) : EndpointState :=
  { s with destroyed := true, finalCallback := false, sourceDestroyed := true }

def settleEndpoint (s : EndpointState) (error : Option Thrown) : EndpointState :=
  if s.finalCallback then
    let s := { s with finalCallback := false, finalCalls := s.finalCalls ++ [error] }
    match error with
    | some e => s.report e
    | none => s
  else
    match error with
    | some e => if s.destroyed then s else (s.report e).destroyHook
    | none => s

/-- `write(chunk, encoding, callback)`. -/
def write (s : EndpointState) (cause : Thrown) : EndpointState :=
  if s.sourceDestroyed then
    s.report (if cause.isError then cause else .plain "[PipeX] Stream pipeline is closed")
  else
    { s with writing := true }

/-- `await awaitOperation(emitAudit(…), signal, …)`. -/
def audits (s : EndpointState) : EndpointState :=
  match s.throwIfAborted with
  | .error e => { s with phase := .auditing (some (.error e)) }
  | .ok () => { s with phase := .auditing none }

/-- The `then` callback behind the audit. -/
def finish (s : EndpointState) : EndpointState :=
  match s.throwIfAborted with
  | .error e => { s with phase := .failing e }
  | .ok () =>
    let s := { s with phase := .done, ended := s.ended + 1 }
    s.settleEndpoint none

/-- The `catch` callback. -/
def handle (s : EndpointState) (error : Thrown) : EndpointState :=
  match error.toError with
  | .error _ => { s with phase := .lost }
  | .ok failure =>
    let s := { s with phase := .done, failed := s.failed + 1 }
    s.settleEndpoint (some failure)

def step (s : EndpointState) : EndpointAction → EndpointState
  | .abort reason =>
    { s with
      signal := { s.signal with aborted := some reason }
      phase :=
        match s.phase with
        | .auditing none => .auditing (some (.error (abortError reason)))
        | phase => phase }
  | .tick now => { s with now := now }
  | .write cause => s.write cause
  | .writeDone => { s with writing := false }
  | .writeFails e => { s.report e with writing := false }
  | .final => { s with finalized := true, finalCallback := true }
  | .destroy => { s.destroyHook with abandoned := true }
  | .teardown => s.destroyHook
  | .sourceDestroy => { s with sourceDestroyed := true }
  | .pipelineSettles outcome => { s with pipeline := some outcome }
  | .react =>
    match s.pipeline with
    | some (.ok ()) => s.audits
    | some (.error e) => { s with phase := .failing e }
    | none => s
  | .auditSettles outcome => { s with audit := some outcome }
  | .auditReact =>
    match s.audit with
    | some (.ok ()) =>
      match s.throwIfAborted with
      | .error e => { s with phase := .auditing (some (.error e)) }
      | .ok () => { s with phase := .auditing (some (.ok ())) }
    | some (.error e) => { s with phase := .auditing (some (.error e)) }
    | none => s
  | .timeout => { s with phase := .auditing (some (.error .timeout)) }
  | .resume =>
    match s.phase with
    | .auditing (some (.ok ())) => s.finish
    | .auditing (some (.error e)) => { s with phase := .failing e }
    | _ => s
  | .handle =>
    match s.phase with
    | .failing error => s.handle error
    | _ => s

/-- Node calls `write` and `final` one after another, and neither behind an error or
    `destroy`. -/
def accepts (s : EndpointState) : Bool :=
  s.built && !s.writing && !s.finalized && !s.errored && !s.destroyed

/-- When a step can be taken.  The clock does not run backwards, and the deadline timer
    does not fire before the clock has reached the deadline. -/
def enabled (s : EndpointState) : EndpointAction → Bool
  | .abort _ => s.signal.aborted.isNone
  | .tick now => decide (s.now ≤ now)
  | .write _ => s.accepts
  | .writeDone => s.writing
  | .writeFails _ => s.writing && s.sourceDestroyed && !s.destroyed
  | .final => s.accepts
  | .destroy => s.built && !s.destroyed
  | .teardown => (s.errored || s.finalCalls.contains none) && !s.destroyed
  | .sourceDestroy => s.built
  | .pipelineSettles _ => s.built && s.pipeline.isNone
  | .react =>
    match s.phase with
    | .piping => s.pipeline.isSome
    | _ => false
  | .auditSettles _ =>
    match s.phase, s.pipeline with
    | .piping, _ => false
    | _, some (.ok ()) => s.audit.isNone
    | _, _ => false
  | .auditReact =>
    match s.phase with
    | .auditing none => s.audit.isSome
    | _ => false
  | .timeout =>
    match s.phase, s.signal.deadline with
    | .auditing none, some deadline => decide (deadline ≤ s.now)
    | _, _ => false
  | .resume =>
    match s.phase with
    | .auditing (some _) => true
    | _ => false
  | .handle =>
    match s.phase with
    | .failing _ => true
    | _ => false

end EndpointState

/-- `#into` with what `buildTransformChain` comes to.  A chain that cannot be built is
    reported by `emitError`, and there is no endpoint. -/
def intoStart (chain : Except Thrown Unit) (signal : AbortSignal) (now : Nat) : EndpointState :=
  let endpoint : EndpointState := {
    signal := signal
    now := now
    pipeline := none
    audit := none
    phase := .piping
    built := true
    writing := false
    finalized := false
    finalCallback := false
    errored := false
    destroyed := false
    abandoned := false
    sourceDestroyed := false
    finalCalls := []
    reported := []
    ended := 0
    failed := 0 }
  match chain with
  | .ok () => endpoint
  | .error e =>
    match e.toError with
    | .ok _ => { endpoint with phase := .done, built := false, failed := 1 }
    | .error _ => { endpoint with phase := .lost, built := false }

def endpointMachine : Machine EndpointState EndpointAction where
  enabled s action := s.enabled action = true
  step := EndpointState.step

instance (s : EndpointState) (action : EndpointAction) :
    Decidable (endpointMachine.enabled s action) :=
  inferInstanceAs (Decidable (s.enabled action = true))

/-! ## What is known in each phase -/

namespace EndpointState

/-- The request has not been reported. -/
structure Pending (s : EndpointState) : Prop where
  ended : s.ended = 0
  failed : s.failed = 0
  finalCalls : s.finalCalls = []

/-- The request has been reported once, as what it was. -/
structure Reported (s : EndpointState) : Prop where
  once : s.ended + s.failed = 1
  finalCalls : s.finalCalls.length ≤ 1
  success : s.ended = 1 ∨ none ∈ s.finalCalls →
    s.pipeline = some (.ok ()) ∧ s.audit = some (.ok ())
  failure : s.failed = 1 → s.built = false ∨ s.abandoned = true ∨ s.reported ≠ []

def Sound (s : EndpointState) : Prop :=
  match s.phase with
  | .piping => s.Pending ∧ s.built = true
  | .auditing none => s.Pending ∧ s.pipeline = some (.ok ()) ∧ s.signal.aborted = none
  | .auditing (some (.ok ())) =>
    s.Pending ∧ s.pipeline = some (.ok ()) ∧ s.audit = some (.ok ())
  | .auditing (some (.error _)) => s.Pending
  | .failing _ => s.Pending
  | .done => s.Reported
  | .lost => False

/-- The invariant: an endpoint that is destroyed without its owner has been handed an
    error, or has finished. -/
structure Disciplined (s : EndpointState) : Prop where
  errored : s.errored = true → s.reported ≠ []
  destroyed : s.destroyed = true → s.abandoned = true ∨ s.reported ≠ [] ∨ none ∈ s.finalCalls
  sound : s.Sound

/-- The `catch` callback gets a value that it can convert. -/
def keeps (s : EndpointState) : EndpointAction → Bool
  | .handle =>
    match s.phase with
    | .failing error => error.toError.isOk
    | _ => true
  | _ => true

/-- What the request waits for: the pipeline, or the audit while nothing can be seen of
    an abort or the deadline. -/
def Waits (s : EndpointState) : Prop :=
  s.phase = .piping ∧ s.pipeline = none ∨
    s.phase = .auditing none ∧ s.audit = none ∧ s.observable = false

/-- Whether a step is one of the callbacks of the pipeline or of the audit. -/
def works : EndpointAction → Bool
  | .react => true
  | .auditReact => true
  | .timeout => true
  | .resume => true
  | .handle => true
  | _ => false

variable {s s' : EndpointState}

/-! ## One step -/

theorem observable_iff_aborted : s.observable = true ↔
    (∃ reason, s.signal.aborted = some reason) ∨ deadlinePassed (some s.signal) s.now :=
  observable_iff

theorem throwIfAborted_cases (s : EndpointState) :
    (∃ e, s.throwIfAborted = .error e ∧ s.observable = true) ∨
      (s.throwIfAborted = .ok () ∧ s.observable = false) := by
  cases h : s.throwIfAborted with
  | error e => exact .inl ⟨e, rfl, observable_of_error h⟩
  | ok _ => exact .inr ⟨rfl, not_observable_of_ok h⟩

/-- What happens around the callbacks of the request leaves it where it is. -/
structure Touched (s s' : EndpointState) : Prop where
  phase : s'.phase = s.phase
  built : s'.built = s.built
  aborted : s.phase = .auditing none → s'.signal.aborted = s.signal.aborted
  pipeline : ∀ outcome, s.pipeline = some outcome → s'.pipeline = some outcome
  audit : ∀ outcome, s.audit = some outcome → s'.audit = some outcome
  finalCalls : s'.finalCalls = s.finalCalls
  ended : s'.ended = s.ended
  failed : s'.failed = s.failed
  reported : s.reported ≠ [] → s'.reported ≠ []
  abandoned : s.abandoned = true → s'.abandoned = true

theorem Touched.pending (h : s.Touched s') (hs : s.Pending) : s'.Pending :=
  ⟨h.ended.trans hs.ended, h.failed.trans hs.failed, h.finalCalls.trans hs.finalCalls⟩

theorem Touched.sound (h : s.Touched s') (hs : s.Sound) : s'.Sound := by
  unfold Sound at hs ⊢
  rw [h.phase, h.built]
  split at hs
  all_goals rename_i hphase
  · exact ⟨h.pending hs.1, hs.2⟩
  · exact ⟨h.pending hs.1, h.pipeline _ hs.2.1, (h.aborted hphase).trans hs.2.2⟩
  · exact ⟨h.pending hs.1, h.pipeline _ hs.2.1, h.audit _ hs.2.2⟩
  · exact h.pending hs
  · exact h.pending hs
  · refine ⟨?_, ?_, fun hsuccess => ?_, fun hfailed => ?_⟩
    · rw [h.ended, h.failed]
      exact hs.once
    · rw [h.finalCalls]
      exact hs.finalCalls
    · rw [h.ended, h.finalCalls] at hsuccess
      obtain ⟨hpipeline, haudit⟩ := hs.success hsuccess
      exact ⟨h.pipeline _ hpipeline, h.audit _ haudit⟩
    · rw [h.failed] at hfailed
      rw [h.built]
      exact (hs.failure hfailed).imp_right (Or.imp h.abandoned h.reported)
  · exact hs

/-- With the endpoint as it is. -/
theorem Touched.disciplined (h : s.Touched s') (herrored : s'.errored = s.errored)
    (hdestroyed : s'.destroyed = s.destroyed) (hs : s.Disciplined) : s'.Disciplined := by
  refine ⟨fun ht => ?_, fun ht => ?_, h.sound hs.sound⟩
  · exact h.reported (hs.errored (herrored ▸ ht))
  · rw [h.finalCalls]
    exact (hs.destroyed (hdestroyed ▸ ht)).imp h.abandoned (Or.imp_left h.reported)

theorem reported_ne_nil (s : EndpointState) (e : Thrown) : s.reported ++ [e] ≠ [] := by simp

/-- An error that the code hands to the endpoint. -/
theorem disciplined_report (h : s.Disciplined) (e : Thrown) (writing : Bool) :
    ({ s.report e with writing := writing } : EndpointState).Disciplined := by
  have hreported := reported_ne_nil s e
  have htouched : s.Touched { s.report e with writing := writing } :=
    ⟨rfl, rfl, fun _ => rfl, fun _ => id, fun _ => id, rfl, rfl, rfl, fun _ => hreported, id⟩
  exact ⟨fun _ => hreported, fun _ => .inr (.inl hreported), htouched.sound h.sound⟩

/-- The endpoint goes, for one of the reasons for which it may. -/
theorem disciplined_destroyHook (h : s.Disciplined)
    (hcause : s.abandoned = true ∨ s.reported ≠ [] ∨ none ∈ s.finalCalls) :
    s.destroyHook.Disciplined := by
  have htouched : s.Touched s.destroyHook :=
    ⟨rfl, rfl, fun _ => rfl, fun _ => id, fun _ => id, rfl, rfl, rfl, id, id⟩
  exact ⟨h.errored, fun _ => hcause, htouched.sound h.sound⟩

/-- The request moves on without a report. -/
theorem disciplined_phase (h : s.Disciplined) {phase : EndpointPhase}
    (hsound : ({ s with phase := phase } : EndpointState).Sound) :
    ({ s with phase := phase } : EndpointState).Disciplined :=
  ⟨h.errored, h.destroyed, hsound⟩

/-- The end of the `then` callback. -/
theorem disciplined_finish (h : s.Disciplined) (hpending : s.Pending)
    (hpipeline : s.pipeline = some (.ok ())) (haudit : s.audit = some (.ok ())) :
    s.finish.Disciplined := by
  obtain ⟨hended, hfailed, hfinal⟩ := hpending
  unfold finish
  rcases s.throwIfAborted_cases with ⟨e, hthrown, -⟩ | ⟨hok, -⟩
  · -- the `then` callback throws
    rw [hthrown]
    exact disciplined_phase h ⟨hended, hfailed, hfinal⟩
  rw [hok]
  -- or it reports the success
  have honce : s.ended + 1 + s.failed = 1 := by omega
  have hfailure : s.failed = 1 → s.built = false ∨ s.abandoned = true ∨ s.reported ≠ [] := by
    intro hone
    omega
  cases hcallback : s.finalCallback with
  | true =>
    simp only [settleEndpoint, if_true]
    refine ⟨h.errored, fun _ => .inr (.inr ?_), honce, ?_, fun _ => ⟨hpipeline, haudit⟩, hfailure⟩
    · exact List.mem_append_right _ (List.mem_singleton_self none)
    · show (s.finalCalls ++ [none]).length ≤ 1
      rw [hfinal]
      exact Nat.le_refl 1
  | false =>
    simp only [settleEndpoint]
    refine ⟨h.errored, h.destroyed, honce, ?_, fun _ => ⟨hpipeline, haudit⟩, hfailure⟩
    show s.finalCalls.length ≤ 1
    rw [hfinal]
    exact Nat.zero_le 1

/-- The `catch` callback with a value that it can convert: the endpoint is handed the
    error, unless it is gone. -/
theorem disciplined_handle {error : Thrown} (h : s.Disciplined) (hpending : s.Pending)
    (htext : error.toError.isOk = true) : (s.handle error).Disciplined := by
  obtain ⟨hended, hfailed, hfinal⟩ := hpending
  unfold handle
  cases herr : error.toError with
  | error e =>
    rw [herr] at htext
    cases htext
  | ok failure =>
    have hreported := reported_ne_nil s failure
    have honce : s.ended + (s.failed + 1) = 1 := by omega
    have hnone : ∀ calls : List (Option Thrown), none ∉ calls →
        (s.ended = 1 ∨ none ∈ calls → s.pipeline = some (.ok ()) ∧ s.audit = some (.ok ())) := by
      rintro calls hcalls (hone | hmem)
      · omega
      · exact absurd hmem hcalls
    -- the callback of `final` takes the error, or the endpoint itself
    cases hcallback : s.finalCallback with
    | true =>
      simp only [settleEndpoint, if_true, report]
      refine ⟨fun _ => hreported, fun _ => .inr (.inl hreported), honce, ?_, ?_,
        fun _ => .inr (.inr hreported)⟩
      · show (s.finalCalls ++ [some failure]).length ≤ 1
        rw [hfinal]
        exact Nat.le_refl 1
      · exact hnone (s.finalCalls ++ [some failure]) (by rw [hfinal]; simp)
    | false =>
      have hcalls : s.finalCalls.length ≤ 1 := by
        rw [hfinal]
        exact Nat.zero_le 1
      have hsuccess := hnone s.finalCalls (by rw [hfinal]; exact List.not_mem_nil)
      cases hdestroyed : s.destroyed with
      | true =>
        -- nothing is handed over: it was destroyed by its owner or for an earlier error
        simp only [settleEndpoint, if_true]
        refine ⟨h.errored, fun _ => h.destroyed hdestroyed, honce, hcalls, hsuccess, fun _ => .inr ?_⟩
        rcases h.destroyed hdestroyed with habandoned | hreported | hmem
        · exact .inl habandoned
        · exact .inr hreported
        · rw [hfinal] at hmem
          cases hmem
      | false =>
        simp only [settleEndpoint, report, destroyHook]
        exact ⟨fun _ => hreported, fun _ => .inr (.inl hreported), honce, hcalls, hsuccess,
          fun _ => .inr (.inr hreported)⟩

/-- What the endpoint goes through between the callbacks of the request. -/
theorem disciplined_endpoint {action : EndpointAction} (h : s.Disciplined)
    (henabled : s.enabled action = true)
    (haction : (∃ cause, action = .write cause) ∨ action = .writeDone ∨
      (∃ e, action = .writeFails e) ∨ action = .final ∨ action = .destroy ∨ action = .teardown ∨
        action = .sourceDestroy) : (s.step action).Disciplined := by
  have htouched : ∀ {t : EndpointState}, s.Touched t → t.errored = s.errored →
      t.destroyed = s.destroyed → t.Disciplined := fun ht herrored hdestroyed =>
    ht.disciplined herrored hdestroyed h
  rcases haction with ⟨cause, rfl⟩ | rfl | ⟨e, rfl⟩ | rfl | rfl | rfl | rfl
  · show (s.write cause).Disciplined
    unfold write
    split
    · exact disciplined_report h _ s.writing
    · exact htouched ⟨rfl, rfl, fun _ => rfl, fun _ => id, fun _ => id, rfl, rfl, rfl, id, id⟩ rfl rfl
  · exact htouched ⟨rfl, rfl, fun _ => rfl, fun _ => id, fun _ => id, rfl, rfl, rfl, id, id⟩ rfl rfl
  · exact disciplined_report h e false
  · exact htouched ⟨rfl, rfl, fun _ => rfl, fun _ => id, fun _ => id, rfl, rfl, rfl, id, id⟩ rfl rfl
  · have htouched : s.Touched (s.step .destroy) :=
      ⟨rfl, rfl, fun _ => rfl, fun _ => id, fun _ => id, rfl, rfl, rfl, id, fun _ => rfl⟩
    exact ⟨h.errored, fun _ => .inl rfl, htouched.sound h.sound⟩
  · refine disciplined_destroyHook h (.inr ?_)
    -- the stream destroys itself for an error or at its end
    obtain ⟨hcause, -⟩ := Bool.and_eq_true_iff.mp henabled
    rcases Bool.or_eq_true_iff.mp hcause with herrored | hfinished
    · exact .inl (h.errored herrored)
    · exact .inr (List.contains_iff_mem.mp hfinished)
  · exact htouched ⟨rfl, rfl, fun _ => rfl, fun _ => id, fun _ => id, rfl, rfl, rfl, id, id⟩ rfl rfl

/-- The listener of `awaitOperation` ends an `await` that is still open. -/
theorem disciplined_abort {reason : Thrown} (h : s.Disciplined) :
    (s.step (.abort reason)).Disciplined := by
  have hsound := h.sound
  unfold Sound at hsound
  by_cases hphase : s.phase = .auditing none
  · rw [hphase] at hsound
    -- the listener hands over the error of the abort
    refine ⟨h.errored, h.destroyed, ?_⟩
    simp only [step, hphase, Sound]
    exact ⟨hsound.1.ended, hsound.1.failed, hsound.1.finalCalls⟩
  · have hsame : (s.step (.abort reason)).phase = s.phase := by
      simp only [step]
    have htouched : s.Touched (s.step (.abort reason)) :=
      ⟨hsame, rfl, fun hopen => absurd hopen hphase, fun _ => id, fun _ => id, rfl, rfl, rfl, id, id⟩
    exact htouched.disciplined rfl rfl h

/-- The clock and the promises that settle. -/
theorem disciplined_settles {action : EndpointAction} (h : s.Disciplined)
    (henabled : s.enabled action = true)
    (haction : (∃ now, action = .tick now) ∨ (∃ outcome, action = .pipelineSettles outcome) ∨
      ∃ outcome, action = .auditSettles outcome) : (s.step action).Disciplined := by
  rcases haction with ⟨now, rfl⟩ | ⟨outcome, rfl⟩ | ⟨outcome, rfl⟩
  · have htouched : s.Touched (s.step (.tick now)) :=
      ⟨rfl, rfl, fun _ => rfl, fun _ => id, fun _ => id, rfl, rfl, rfl, id, id⟩
    exact htouched.disciplined rfl rfl h
  · have hnone : s.pipeline = none :=
      Option.isNone_iff_eq_none.mp (Bool.and_eq_true_iff.mp henabled).2
    have htouched : s.Touched (s.step (.pipelineSettles outcome)) := by
      refine ⟨rfl, rfl, fun _ => rfl, fun o ho => ?_, fun _ => id, rfl, rfl, rfl, id, id⟩
      rw [hnone] at ho
      cases ho
    exact htouched.disciplined rfl rfl h
  · -- the hook is called once
    have hnone : s.audit = none := by
      simp only [enabled] at henabled
      split at henabled
      · cases henabled
      · exact Option.isNone_iff_eq_none.mp henabled
      · cases henabled
    have htouched : s.Touched (s.step (.auditSettles outcome)) := by
      refine ⟨rfl, rfl, fun _ => rfl, fun _ => id, fun o ho => ?_, rfl, rfl, rfl, id, id⟩
      rw [hnone] at ho
      cases ho
    exact htouched.disciplined rfl rfl h

theorem disciplined_react (h : s.Disciplined) (henabled : s.enabled .react = true) :
    (s.step .react).Disciplined := by
  have hsound := h.sound
  unfold Sound at hsound
  cases hphase : s.phase with
  | piping =>
    rw [hphase] at hsound
    obtain ⟨hended, hfailed, hfinal⟩ := hsound.1
    simp only [step]
    split
    · rename_i hpipeline
      -- the pipeline is done, the audit begins
      unfold audits
      rcases s.throwIfAborted_cases with ⟨e, hthrown, -⟩ | ⟨hok, hquiet⟩
      · rw [hthrown]
        exact disciplined_phase h ⟨hended, hfailed, hfinal⟩
      · rw [hok]
        refine disciplined_phase h ⟨⟨hended, hfailed, hfinal⟩, hpipeline, ?_⟩
        show s.signal.aborted = none
        -- the audit begins under an open signal
        cases haborted : s.signal.aborted with
        | none => rfl
        | some reason =>
          rw [observable_iff_aborted.mpr (.inl ⟨reason, haborted⟩)] at hquiet
          cases hquiet
    · exact disciplined_phase h ⟨hended, hfailed, hfinal⟩
    · exact h
  | _ =>
    rw [enabled, hphase] at henabled
    cases henabled

theorem disciplined_auditReact (h : s.Disciplined) (henabled : s.enabled .auditReact = true) :
    (s.step .auditReact).Disciplined := by
  have hsound := h.sound
  unfold Sound at hsound
  simp only [enabled] at henabled
  split at henabled
  · rename_i hphase
    rw [hphase] at hsound
    obtain ⟨⟨hended, hfailed, hfinal⟩, hpipeline, -⟩ := hsound
    simp only [step]
    split
    · rename_i haudit
      -- the value of the hook counts if it comes in time
      rcases s.throwIfAborted_cases with ⟨e, hthrown, -⟩ | ⟨hok, -⟩
      · rw [hthrown]
        exact disciplined_phase h ⟨hended, hfailed, hfinal⟩
      · rw [hok]
        exact disciplined_phase h ⟨⟨hended, hfailed, hfinal⟩, hpipeline, haudit⟩
    · exact disciplined_phase h ⟨hended, hfailed, hfinal⟩
    · exact h
  · cases henabled

theorem disciplined_timeout (h : s.Disciplined) (henabled : s.enabled .timeout = true) :
    (s.step .timeout).Disciplined := by
  have hsound := h.sound
  unfold Sound at hsound
  simp only [enabled] at henabled
  split at henabled
  · rename_i deadline hphase hdeadline
    rw [hphase] at hsound
    obtain ⟨⟨hended, hfailed, hfinal⟩, -⟩ := hsound
    exact disciplined_phase h ⟨hended, hfailed, hfinal⟩
  · cases henabled

theorem disciplined_resume (h : s.Disciplined) : (s.step .resume).Disciplined := by
  have hsound := h.sound
  unfold Sound at hsound
  simp only [step]
  split
  · rename_i hphase
    rw [hphase] at hsound
    exact disciplined_finish h hsound.1 hsound.2.1 hsound.2.2
  · rename_i e hphase
    rw [hphase] at hsound
    exact disciplined_phase h ⟨hsound.ended, hsound.failed, hsound.finalCalls⟩
  · exact h

theorem disciplined_step {action : EndpointAction} (h : s.Disciplined)
    (henabled : s.enabled action = true) (hkeeps : s.keeps action = true) :
    (s.step action).Disciplined := by
  cases action with
  | abort reason => exact disciplined_abort h
  | tick now => exact disciplined_settles h henabled (.inl ⟨now, rfl⟩)
  | write cause => exact disciplined_endpoint h henabled (.inl ⟨cause, rfl⟩)
  | writeDone => exact disciplined_endpoint h henabled (by simp)
  | writeFails e => exact disciplined_endpoint h henabled (by simp)
  | final => exact disciplined_endpoint h henabled (by simp)
  | destroy => exact disciplined_endpoint h henabled (by simp)
  | teardown => exact disciplined_endpoint h henabled (by simp)
  | sourceDestroy => exact disciplined_endpoint h henabled (by simp)
  | pipelineSettles outcome => exact disciplined_settles h henabled (.inr (.inl ⟨outcome, rfl⟩))
  | react => exact disciplined_react h henabled
  | auditSettles outcome => exact disciplined_settles h henabled (.inr (.inr ⟨outcome, rfl⟩))
  | auditReact => exact disciplined_auditReact h henabled
  | timeout => exact disciplined_timeout h henabled
  | resume => exact disciplined_resume h
  | handle =>
    have hsound := h.sound
    unfold Sound at hsound
    simp only [step]
    split
    · rename_i error hphase
      rw [hphase] at hsound
      rw [keeps, hphase] at hkeeps
      exact disciplined_handle h hsound hkeeps
    · exact h

/-! ## What a step reports -/

/-- The callbacks that are left. -/
def budget (s : EndpointState) : Nat :=
  match s.phase with
  | .piping => 4
  | .auditing none => 3
  | .auditing (some _) => 2
  | .failing _ => 1
  | .done => 0
  | .lost => 0

theorem budget_le (s : EndpointState) : s.budget ≤ 4 := by
  unfold budget
  repeat' split
  all_goals decide

theorem settleEndpoint_phase (s : EndpointState) (error : Option Thrown) :
    (s.settleEndpoint error).phase = s.phase := by
  unfold settleEndpoint
  repeat' split
  all_goals rfl

theorem settleEndpoint_ended (s : EndpointState) (error : Option Thrown) :
    (s.settleEndpoint error).ended = s.ended := by
  unfold settleEndpoint
  repeat' split
  all_goals rfl

theorem settleEndpoint_error (s : EndpointState) (e : Thrown)
    (h : none ∈ (s.settleEndpoint (some e)).finalCalls) : none ∈ s.finalCalls := by
  unfold settleEndpoint at h
  cases hcallback : s.finalCallback with
  | true =>
    rw [hcallback] at h
    have h : none ∈ s.finalCalls ++ [some e] := h
    simpa using h
  | false =>
    rw [hcallback] at h
    cases hdestroyed : s.destroyed with
    | true =>
      rw [hdestroyed] at h
      exact h
    | false =>
      rw [hdestroyed] at h
      exact h

theorem budget_finish (s : EndpointState) : s.finish.budget ≤ 1 := by
  unfold finish
  split
  · exact Nat.le_refl 1
  · rw [budget, settleEndpoint_phase]
    exact Nat.zero_le 1

theorem budget_handle (s : EndpointState) (error : Thrown) : (s.handle error).budget = 0 := by
  unfold handle
  split
  · rfl
  · rw [budget, settleEndpoint_phase]

/-- What happens around the callbacks raises nothing. -/
theorem budget_idle {action : EndpointAction} (h : works action = false) :
    (s.step action).budget ≤ s.budget := by
  cases action with
  | abort reason =>
    by_cases hphase : s.phase = .auditing none
    · simp only [step, budget, hphase]
      exact (by decide : 2 ≤ 3)
    · exact Nat.le_of_eq (by simp only [step, budget])
  | write cause =>
    simp only [step, write]
    split
    · exact Nat.le_refl _
    · exact Nat.le_refl _
  | react => cases h
  | auditReact => cases h
  | timeout => cases h
  | resume => cases h
  | handle => cases h
  | _ => exact Nat.le_refl _

theorem budget_react (henabled : s.enabled .react = true) : (s.step .react).budget < s.budget := by
  simp only [enabled] at henabled
  split at henabled
  · rename_i hphase
    rw [show s.budget = 4 by rw [budget, hphase]]
    obtain ⟨outcome, hpipeline⟩ := Option.isSome_iff_exists.mp henabled
    simp only [step, hpipeline, audits]
    cases outcome with
    | error e => exact (by decide : 1 < 4)
    | ok _ =>
      cases s.throwIfAborted with
      | error e => exact (by decide : 2 < 4)
      | ok _ => exact (by decide : 3 < 4)
  · cases henabled

theorem budget_auditReact (henabled : s.enabled .auditReact = true) :
    (s.step .auditReact).budget < s.budget := by
  simp only [enabled] at henabled
  split at henabled
  · rename_i hphase
    rw [show s.budget = 3 by rw [budget, hphase]]
    obtain ⟨outcome, haudit⟩ := Option.isSome_iff_exists.mp henabled
    simp only [step, haudit]
    cases outcome with
    | error e => exact (by decide : 2 < 3)
    | ok _ =>
      cases s.throwIfAborted with
      | error e => exact (by decide : 2 < 3)
      | ok _ => exact (by decide : 2 < 3)
  · cases henabled

theorem budget_timeout (henabled : s.enabled .timeout = true) :
    (s.step .timeout).budget < s.budget := by
  simp only [enabled] at henabled
  split at henabled
  · rename_i deadline hphase hdeadline
    rw [show s.budget = 3 by rw [budget, hphase]]
    exact (by decide : 2 < 3)
  · cases henabled

theorem budget_resume (henabled : s.enabled .resume = true) :
    (s.step .resume).budget < s.budget := by
  simp only [enabled] at henabled
  split at henabled
  · rename_i result hphase
    rw [show s.budget = 2 by rw [budget, hphase]]
    simp only [step, hphase]
    cases result with
    | ok _ => exact Nat.lt_succ_of_le s.budget_finish
    | error e => exact (by decide : 1 < 2)
  · cases henabled

theorem budget_handles (henabled : s.enabled .handle = true) :
    (s.step .handle).budget < s.budget := by
  simp only [enabled] at henabled
  split at henabled
  · rename_i error hphase
    rw [show s.budget = 1 by rw [budget, hphase]]
    simp only [step, hphase, budget_handle]
    exact Nat.one_pos
  · cases henabled

/-- Each callback of the request lowers what is left, and nothing else raises it. -/
theorem budget_step {action : EndpointAction} (henabled : s.enabled action = true) :
    (if works action then 1 else 0) + (s.step action).budget ≤ s.budget := by
  have hlowers : ∀ {n : Nat}, n < s.budget → 1 + n ≤ s.budget := by
    intro n hn
    omega
  cases hworks : works action with
  | false => exact Nat.le_trans (Nat.le_of_eq (Nat.zero_add _)) (budget_idle hworks)
  | true =>
    cases action with
    | react => exact hlowers (budget_react henabled)
    | auditReact => exact hlowers (budget_auditReact henabled)
    | timeout => exact hlowers (budget_timeout henabled)
    | resume => exact hlowers (budget_resume henabled)
    | handle => exact hlowers (budget_handles henabled)
    | _ => cases hworks

/-- A request that has not been reported goes on, or waits. -/
theorem progress (h : s.Disciplined) :
    s.phase = .done ∨ s.Waits ∨ ∃ action, s.enabled action = true ∧ works action = true := by
  have hsound := h.sound
  unfold Sound at hsound
  cases hphase : s.phase with
  | done => exact .inl rfl
  | lost =>
    rw [hphase] at hsound
    exact hsound.elim
  | failing error => exact .inr (.inr ⟨.handle, by simp only [enabled, hphase], rfl⟩)
  | piping =>
    cases hpipeline : s.pipeline with
    | none => exact .inr (.inl (.inl ⟨hphase, hpipeline⟩))
    | some outcome =>
      exact .inr (.inr ⟨.react, by simp only [enabled, hphase, hpipeline, Option.isSome_some], rfl⟩)
  | auditing result =>
    cases result with
    | some result => exact .inr (.inr ⟨.resume, by simp only [enabled, hphase], rfl⟩)
    | none =>
      rw [hphase] at hsound
      cases haudit : s.audit with
      | some outcome =>
        exact .inr (.inr ⟨.auditReact, by simp only [enabled, hphase, haudit, Option.isSome_some],
          rfl⟩)
      | none =>
        cases hseen : s.observable with
        | false => exact .inr (.inl (.inr ⟨hphase, haudit, hseen⟩))
        | true =>
          -- an abort would have ended the `await`, so it is the deadline, and its timer
          rcases observable_iff_aborted.mp hseen with ⟨reason, hreason⟩ | ⟨deadline, hdeadline, hle⟩
          · rw [hsound.2.2] at hreason
            cases hreason
          · refine .inr (.inr ⟨.timeout, ?_, rfl⟩)
            have hdeadline : s.signal.deadline = some deadline := hdeadline
            simp only [enabled, hphase, hdeadline]
            exact decide_eq_true hle

/-- The other steps end no request and call nobody back. -/
theorem ends_only {action : EndpointAction} (hresume : action ≠ .resume)
    (hhandle : action ≠ .handle) :
    (s.step action).ended = s.ended ∧ (s.step action).finalCalls = s.finalCalls := by
  cases action with
  | resume => exact absurd rfl hresume
  | handle => exact absurd rfl hhandle
  | write cause =>
    simp only [step, write]
    split
    · exact ⟨rfl, rfl⟩
    · exact ⟨rfl, rfl⟩
  | react =>
    simp only [step, audits]
    repeat' split
    all_goals exact ⟨rfl, rfl⟩
  | auditReact =>
    simp only [step]
    repeat' split
    all_goals exact ⟨rfl, rfl⟩
  | _ => exact ⟨rfl, rfl⟩

/-- The `catch` callback reports no success. -/
theorem handle_success (s : EndpointState) (error : Thrown) :
    (s.handle error).ended = s.ended ∧
      (none ∈ (s.handle error).finalCalls → none ∈ s.finalCalls) := by
  unfold handle
  split
  · exact ⟨rfl, id⟩
  · rename_i failure hfailure
    exact ⟨settleEndpoint_ended _ _, fun hmem =>
      settleEndpoint_error { s with phase := .done, failed := s.failed + 1 } failure hmem⟩

/-- A step reports a success: to the request, or to the callback of `final`. -/
def Succeeds (s s' : EndpointState) : Prop :=
  s'.ended ≠ s.ended ∨ none ∉ s.finalCalls ∧ none ∈ s'.finalCalls

theorem not_succeeds {s s' : EndpointState} (hended : s'.ended = s.ended)
    (hcalls : none ∈ s'.finalCalls → none ∈ s.finalCalls) : ¬ s.Succeeds s' := by
  rintro (hne | ⟨hnone, hmem⟩)
  · exact hne hended
  · exact hnone (hcalls hmem)

/-- A success is reported where neither the abort nor the deadline can be seen. -/
theorem succeeds_step {action : EndpointAction} (h : s.Succeeds (s.step action)) :
    s.observable = false := by
  by_cases hresume : action = .resume
  · -- the end of the `then` callback looks for them first
    subst hresume
    simp only [step] at h
    split at h
    · rcases s.throwIfAborted_cases with ⟨e, hthrown, -⟩ | ⟨-, hquiet⟩
      · rw [finish, hthrown] at h
        exact absurd h (not_succeeds rfl id)
      · exact hquiet
    · exact absurd h (not_succeeds rfl id)
    · exact absurd h (not_succeeds rfl id)
  -- nothing else reports one
  exfalso
  by_cases hhandle : action = .handle
  · subst hhandle
    simp only [step] at h
    split at h
    · rename_i error hphase
      obtain ⟨hended, hcalls⟩ := s.handle_success error
      exact not_succeeds hended hcalls h
    · exact not_succeeds rfl id h
  · obtain ⟨hended, hcalls⟩ := ends_only (s := s) hresume hhandle
    exact not_succeeds hended (fun hmem => hcalls ▸ hmem) h

/-- The `catch` callback hands its error to an endpoint that is still there. -/
theorem handle_reports {error failure : Thrown} (hphase : s.phase = .failing error)
    (htext : error.toError = .ok failure) (hopen : s.destroyed = false) :
    (s.step .handle).reported = s.reported ++ [failure] := by
  simp only [step, hphase, handle, htext, settleEndpoint]
  split
  · rfl
  · rw [if_neg (by rw [hopen]; exact Bool.false_ne_true)]
    rfl

end EndpointState

/-! ## Runs -/

/-- What `into` reports in a state of a run. -/
structure EndpointOutcome (s : EndpointState) : Prop where
  /-- the callback of `final` is called at most once -/
  final_once : s.finalCalls.length ≤ 1
  /-- and, as the request ends, only behind the pipeline and the audit -/
  success : s.ended ≠ 0 ∨ none ∈ s.finalCalls →
    s.pipeline = some (.ok ()) ∧ s.audit = some (.ok ())
  /-- a request that has failed was reported to its endpoint, unless its owner had
      destroyed it -/
  failure : s.failed ≠ 0 → s.built = false ∨ s.abandoned = true ∨ s.reported ≠ []
  once : s.ended + s.failed = 0 ∨ s.phase = .done ∧ s.ended + s.failed = 1
  progress : s.phase = .done ∨ s.Waits ∨
    ∃ action, s.enabled action = true ∧ EndpointState.works action = true

theorem endpointOutcome_of_disciplined {s : EndpointState} (h : s.Disciplined) :
    EndpointOutcome s := by
  have hsound := h.sound
  by_cases hdone : s.phase = .done
  · rw [EndpointState.Sound, hdone] at hsound
    have honce := hsound.once
    refine ⟨hsound.finalCalls, fun hsuccess => hsound.success (hsuccess.imp_left ?_),
      fun hfailed => hsound.failure ?_, .inr ⟨hdone, honce⟩, EndpointState.progress h⟩
    · intro hended
      omega
    · omega
  · -- before the end nothing has been reported
    have hpending : s.Pending := by
      unfold EndpointState.Sound at hsound
      split at hsound
      · exact hsound.1
      · exact hsound.1
      · exact hsound.1
      · exact hsound
      · exact hsound
      · exact absurd ‹_› hdone
      · exact hsound.elim
    obtain ⟨hended, hfailed, hfinal⟩ := hpending
    refine ⟨?_, ?_, fun hne => absurd hfailed hne, .inl (by omega), EndpointState.progress h⟩
    · rw [hfinal]
      exact Nat.zero_le 1
    · rintro (hne | hmem)
      · exact absurd hended hne
      · rw [hfinal] at hmem
        cases hmem

theorem into_disciplined {chain : Except Thrown Unit} (signal : AbortSignal) (now : Nat)
    (hchain : ∀ e, chain = .error e → e.toError.isOk = true) :
    (intoStart chain signal now).Disciplined := by
  cases chain with
  | ok _ => exact ⟨nofun, nofun, ⟨rfl, rfl, rfl⟩, rfl⟩
  -- a chain that cannot be built has failed at once
  | error e =>
    have htext := hchain e rfl
    cases herr : e.toError with
    | error e' =>
      rw [herr] at htext
      cases htext
    | ok failure =>
      simp only [intoStart, herr]
      exact ⟨nofun, nofun, rfl, Nat.zero_le 1, by simp, fun _ => .inl rfl⟩

/-- In a run in which every failure is an error or has a text, the outcome of the
    operation is reported once, and as what it is. -/
theorem endpoint_outcome (chain : Except Thrown Unit) (signal : AbortSignal) (now : Nat)
    (hchain : ∀ e, chain = .error e → e.toError.isOk = true) {actions : List EndpointAction}
    (hlegal : endpointMachine.Legal (intoStart chain signal now) actions)
    (hkeeps : endpointMachine.Along (fun s action => s.keeps action = true)
      (intoStart chain signal now) actions) :
    (∀ front, front <+: actions →
        EndpointOutcome (endpointMachine.run (intoStart chain signal now) front)) ∧
      endpointMachine.Along (fun s action =>
        ((s.step action).ended ≠ s.ended ∨
            none ∉ s.finalCalls ∧ none ∈ (s.step action).finalCalls → s.observable = false) ∧
          ∀ error failure, s.phase = .failing error → error.toError = .ok failure →
            s.destroyed = false → action = .handle →
              (s.step action).reported = s.reported ++ [failure])
        (intoStart chain signal now) actions ∧
      endpointMachine.count (fun _ action => EndpointState.works action)
        (intoStart chain signal now) actions ≤ 4 := by
  let restricted := endpointMachine.restrict fun s action => s.keeps action = true
  have hstep : ∀ s action, EndpointState.Disciplined s → restricted.enabled s action →
      EndpointState.Disciplined (restricted.step s action) :=
    fun s action hs henabled => EndpointState.disciplined_step hs henabled.1 henabled.2
  have hstart := into_disciplined signal now hchain
  have hrestricted := Machine.restrict_legal hlegal hkeeps
  refine ⟨fun front hfront => ?_, ?_, ?_⟩
  · exact endpointOutcome_of_disciplined
      (Machine.invariant hstep hstart (Machine.legal_of_front hfront hrestricted))
  · refine Machine.restrict_along.mp (Machine.along_of_invariant hstep ?_ hstart hrestricted)
    rintro s action - -
    refine ⟨EndpointState.succeeds_step, ?_⟩
    rintro error failure hphase htext hopen rfl
    exact EndpointState.handle_reports hphase htext hopen
  · -- each callback of the request is one step of four
    have hmeasure : ∀ s action, EndpointState.Disciplined s → restricted.enabled s action →
        (if EndpointState.works action then 1 else 0) + (restricted.step s action).budget ≤
          s.budget := fun s action _ henabled => EndpointState.budget_step henabled.1
    have hcount := Machine.count_add_le (Q := fun _ action => EndpointState.works action) hstep
      hmeasure hstart hrestricted
    rw [Machine.restrict_count] at hcount
    have hbudget := (intoStart chain signal now).budget_le
    omega

/-- A write, the end, and an abort while the audit hook runs. -/
theorem endpoint_outcome_aborted :
    EndpointOutcome (endpointMachine.run (intoStart (.ok ()) ⟨none, some 100⟩ 0)
      [.write .undefined, .writeDone, .final, .pipelineSettles (.ok ()), .react,
        .abort (.value "stop"), .resume, .handle, .teardown]) :=
  (endpoint_outcome (.ok ()) ⟨none, some 100⟩ 0 nofun (by decide) (by decide)).1 _
    (List.prefix_refl _)

/-- The audit hook rejects with a value that has no text: nothing is reported, and the
    callback of `final` is not called. -/
theorem failure_lost :
    ∃ actions : List EndpointAction,
      endpointMachine.Legal (intoStart (.ok ()) ⟨none, none⟩ 0) actions ∧
      ¬ EndpointOutcome (endpointMachine.run (intoStart (.ok ()) ⟨none, none⟩ 0) actions) := by
  refine ⟨[.final, .pipelineSettles (.ok ()), .react,
    .auditSettles (.error (.unprintable (.plain "Cannot convert object to primitive value"))),
    .auditReact, .resume, .handle], by decide, fun h => ?_⟩
  rcases h.progress with hdone | (⟨hphase, -⟩ | ⟨hphase, -⟩) | ⟨action, henabled, hworks⟩
  · cases hdone
  · cases hphase
  · cases hphase
  · cases action with
    | react => cases henabled
    | auditReact => cases henabled
    | timeout => cases henabled
    | resume => cases henabled
    | handle => cases henabled
    | _ => cases hworks

end PipeX
