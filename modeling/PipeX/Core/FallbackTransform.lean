/-
  PipeX.Core.FallbackTransform

  `buildFallbackTransform` of `src/core/core.ts` for one chunk: the attempts of
  `withRetry`, the callback of the transform, and the failure sink.

  The `catch` block hands every chunk to a writable sink, whatever it has caught: also
  where the operation was cancelled (`cancelled_chunk_diverted`).  `sink_discipline` says
  what holds where it catches nothing but the last error of the attempts.
-/
import PipeX.Core.Plugin
import PipeX.Core.Retry.Discipline
import Mathlib.Data.Finset.Insert

namespace PipeX

open Transition RetryState

/-! ## State -/

/-- A plugin in a transform, with the failure sink. -/
structure FallbackCall where
  plugin : ProcessorPlugin
  reverse : Bool
  retry : RetryCall
  /-- `dlq` is there -/
  hasDlq : Bool
  /-- `logger` is there -/
  hasLogger : Bool
  /-- `tracer` is there, and with it a `span` -/
  hasSpan : Bool
  /-- what reading the `message` of an error throws, where its getter does -/
  messageThrows : Thrown → Option Thrown

/-- The listeners of the wait for the sink. -/
inductive SinkListener where
  | drain
  | error
  | close
  | abort
deriving DecidableEq, Repr

/-- What `dlq.write(chunk)` comes to. -/
inductive SinkAnswer where
  | accepted
  | full
  | threw (e : Thrown)

inductive FallbackPhase where
  | entering
  /-- in `await withRetry(…)` -/
  | retrying
  /-- in `cb(null, out)` -/
  | delivering (out : Bytes)
  /-- at the head of the `catch` block -/
  | failed (err : Thrown)
  /-- in the wait for the sink, with what its promise has settled with -/
  | waiting (error : Thrown) (result : Option (Except Thrown Unit))
  | finished
  /-- the `catch` block has thrown -/
  | crashed

def FallbackPhase.isEntering : FallbackPhase → Bool
  | .entering => true
  | _ => false

def FallbackPhase.isRetrying : FallbackPhase → Bool
  | .retrying => true
  | _ => false

structure FallbackState where
  /-- what the plugin returns is `none` if it is no buffer -/
  retry : RetryState (Option Bytes)
  phase : FallbackPhase
  /-- the bytes of the chunk -/
  chunk : Bytes
  /-- `dlq.writable` -/
  writable : Bool
  /-- the sink was closed without an error -/
  closed : Bool
  /-- the calls of `cb` -/
  callbacks : List (Except Thrown Bytes)
  /-- what was handed to `dlq.write`: the buffer of the chunk itself, by the bytes that
      the sink finds in it -/
  written : List Bytes
  /-- the sink has used what it was handed -/
  taken : Bool
  listeners : Finset SinkListener

inductive FallbackAction where
  /-- the `try` block up to `withRetry` -/
  | begin
  /-- a step of `withRetry`, or of what happens around it -/
  | retry (action : RetryAction (Option Bytes))
  /-- the code behind `await withRetry(…)` -/
  | resume
  /-- `cb(null, out)`, with what it throws -/
  | deliver (thrown : Option Thrown)
  /-- the `catch` block up to its `await` -/
  | divert (answer : SinkAnswer)
  /-- the code behind the wait -/
  | proceed
  /-- the plugin, or who handed the buffer of the chunk over, writes to it -/
  | mutate (bytes : Bytes)
  /-- the sink uses what it was handed -/
  | sinkTakes
  | setWritable (writable : Bool)
  /-- the sink emits `drain` -/
  | drain
  /-- the sink emits `error` -/
  | sinkError (e : Thrown)
  /-- the sink emits `close` without an error -/
  | sinkClose
  /-- the transform emits `close` -/
  | close

/-- `reason instanceof Error ? reason : new Error('[PipeX] Operation aborted')`. -/
def sinkAbortError (reason : Thrown) : Thrown :=
  if reason.isError then reason else .plain "[PipeX] Operation aborted"

namespace FallbackState

/-- A listener settles the wait, and takes all of them away. -/
def settleWait (s : FallbackState) (listener : SinkListener) (result : Except Thrown Unit) :
    FallbackState :=
  match s.phase with
  | .waiting error none =>
    if listener ∈ s.listeners then
      { s with phase := .waiting error (some result), listeners := ∅ }
    else
      s
  | _ => s

def callBack (s : FallbackState) (result : Except Thrown Bytes) : FallbackState :=
  { s with phase := .finished, callbacks := s.callbacks ++ [result] }

end FallbackState

namespace FallbackCall

def maxOutputBytes (call : FallbackCall) : Nat := call.retry.limits.maxOutputBytes

def start (call : FallbackCall) (signal : Option AbortSignal) (now : Nat) (chunk : Bytes)
    (writable : Bool) : FallbackState where
  retry := call.retry.start signal now
  phase := .entering
  chunk := chunk
  writable := writable
  closed := false
  callbacks := []
  written := []
  taken := false
  listeners := ∅

/-- The checks in front of `withRetry`. -/
def check (call : FallbackCall) (s : FallbackState) : Except Thrown Unit :=
  match s.retry.reason with
  -- `signal.throwIfAborted()` throws the reason itself
  | some reason => .error reason
  | none =>
    if call.reverse then
      match supportsReverse call.plugin with
      | .error e => .error (.error .error e)
      | .ok true => .ok ()
      | .ok false => .error (.error .error (unsupportedReverseError call.plugin.id))
    else
      .ok ()

/-- `out`, checked. -/
def checkOutput (call : FallbackCall) : Except Thrown (Option Bytes) → FallbackPhase
  | .error e => .failed e
  | .ok none => .failed (.plain s!"[PipeX] Plugin output exceeds {call.maxOutputBytes} bytes")
  | .ok (some out) =>
    if out.length > call.maxOutputBytes then
      .failed (.plain s!"[PipeX] Plugin output exceeds {call.maxOutputBytes} bytes")
    else
      .delivering out

/-- The error that the `catch` block makes of what it has caught.  The log line and the
    span read its message. -/
def caughtError (call : FallbackCall) (err : Thrown) : Except Thrown Thrown := do
  let error ← err.toError
  if call.hasLogger || call.hasSpan then
    if let some thrown := call.messageThrows error then
      throw thrown
  return error

/-- What the debug line of `withRetry` in front of a further attempt throws, which reads
    the message of the last error. -/
def retryLog (call : FallbackCall) (retry : RetryState (Option Bytes)) : Option Thrown :=
  match retry.phase with
  | .caught i =>
    if call.hasLogger && decide (i + 1 < call.retry.attempts) then
      retry.lastError.bind call.messageThrows
    else
      none
  | _ => none

/-- A step of `withRetry`, with its debug line. -/
def retryStep (call : FallbackCall) (retry : RetryState (Option Bytes)) :
    RetryAction (Option Bytes) → RetryState (Option Bytes)
  | .delay =>
    match call.retryLog retry with
    | some thrown => retry.settleWith (.error thrown)
    | none => call.retry.step retry .delay
  | action => call.retry.step retry action

/-- The sink does not take the chunk at once. -/
def await (s : FallbackState) (error : Thrown) : FallbackState :=
  match s.retry.reason with
  | some reason => { s with phase := .waiting error (some (.error (sinkAbortError reason))) }
  | none =>
    { s with
      phase := .waiting error none
      listeners :=
        if s.retry.signal.isSome then {.drain, .error, .close, .abort} else {.drain, .error, .close} }

def step (call : FallbackCall) (s : FallbackState) : FallbackAction → FallbackState
  | .begin =>
    match call.check s with
    | .error e => { s with phase := .failed e }
    | .ok () => { s with phase := .retrying }
  | .retry action =>
    let next := { s with retry := call.retryStep s.retry action }
    match action with
    | .abort reason => next.settleWait .abort (.error (sinkAbortError reason))
    | _ => next
  | .resume =>
    match s.retry.phase with
    | .settled result => { s with phase := call.checkOutput result }
    | _ => s
  | .deliver thrown =>
    match s.phase with
    | .delivering out =>
      match thrown with
      | none => s.callBack (.ok out)
      | some e => { s with phase := .failed e, callbacks := s.callbacks ++ [.ok out] }
    | _ => s
  | .divert answer =>
    match s.phase with
    | .failed err =>
      match call.caughtError err with
      | .error _ => { s with phase := .crashed }
      | .ok error =>
        if call.hasDlq && s.writable then
          let s := { s with written := s.written ++ [s.chunk] }
          match answer with
          | .accepted => s.callBack (.error error)
          | .full => await s error
          | .threw e => s.callBack (.error e)
        else
          s.callBack (.error error)
    | _ => s
  | .proceed =>
    match s.phase with
    | .waiting error (some (.ok ())) => s.callBack (.error error)
    | .waiting _ (some (.error e)) => s.callBack (.error e)
    | _ => s
  | .mutate bytes =>
    { s with
      chunk := bytes
      written := if s.taken then s.written else s.written.map fun _ => bytes }
  | .sinkTakes => { s with taken := true }
  | .setWritable writable => { s with writable := writable }
  | .drain => s.settleWait .drain (.ok ())
  | .sinkError e => s.settleWait .error (.error e)
  | .sinkClose => { s with closed := true, writable := false }
  | .close => s.settleWait .close (.error (.plain "[PipeX] Stream closed while writing to DLQ"))

end FallbackCall

/-- What happens around `withRetry`, in whatever phase the transform is. -/
def RetryAction.isExternal {α : Type} : RetryAction α → Bool
  | .abort _ => true
  | .tick _ => true
  | .settle _ _ => true
  | .react _ => true
  | _ => false

/-- When a step can be taken.  A buffer keeps its length, and a sink that was closed
    emits nothing more. -/
def FallbackState.enabled (s : FallbackState) : FallbackAction → Bool
  | .begin => s.phase.isEntering
  | .retry action => s.retry.enabled action && (s.phase.isRetrying || action.isExternal)
  | .resume =>
    s.phase.isRetrying &&
      match s.retry.phase with
      | .settled _ => true
      | _ => false
  | .deliver _ =>
    match s.phase with
    | .delivering _ => true
    | _ => false
  | .divert _ =>
    match s.phase with
    | .failed _ => true
    | _ => false
  | .proceed =>
    match s.phase with
    | .waiting _ (some _) => true
    | _ => false
  | .mutate bytes => decide (bytes.length = s.chunk.length)
  | .sinkTakes => !s.written.isEmpty && !s.taken
  | .setWritable _ => !s.closed
  | .drain => !s.closed
  | .sinkError _ => !s.closed
  | .sinkClose => !s.closed
  | _ => true

def fallbackMachine (call : FallbackCall) : Machine FallbackState FallbackAction where
  enabled s action := s.enabled action = true
  step := call.step

instance (call : FallbackCall) (s : FallbackState) (action : FallbackAction) :
    Decidable ((fallbackMachine call).enabled s action) :=
  inferInstanceAs (Decidable (s.enabled action = true))

/-! ## What is known in each phase -/

/-- All attempts of the configuration were made, and have failed. -/
def FallbackCall.exhausted (call : FallbackCall) (s : FallbackState) : Bool :=
  decide call.retry.Accepted && decide (s.retry.results.length = call.retry.attempts) &&
    s.retry.results.all fun result =>
      match result with
      | .error err => err.toError.isOk
      | .ok _ => false

/-- The step leaves alone what goes wrong: the `catch` block has caught a value that it
    can convert and report, and hands over the unchanged chunk, if at all, behind the
    failure of all attempts; nobody writes to the buffer before the sink has used it;
    `cb(null, out)` returns; the sink is not closed under the wait. -/
def FallbackCall.keeps (call : FallbackCall) (chunk : Bytes) (s : FallbackState) :
    FallbackAction → Bool
  | .divert _ =>
    match s.phase with
    | .failed err =>
      (call.caughtError err).isOk &&
        (!(call.hasDlq && s.writable) || (call.exhausted s && decide (s.chunk = chunk)))
    | _ => true
  | .deliver thrown => thrown.isNone
  | .mutate bytes => s.written.isEmpty || s.taken || decide (bytes = chunk)
  | .sinkClose =>
    match s.phase with
    | .waiting _ none => false
    | _ => true
  | _ => true

/-- `withRetry` keeps to its discipline, or has rejected before it has made all attempts:
    its options were refused, or its debug line has thrown. -/
def FallbackCall.Attempts (call : FallbackCall) (retry : RetryState (Option Bytes)) : Prop :=
  (call.retry.Accepted ∧ retry.Disciplined call.retry.attempts) ∨
    (∃ result, retry.phase = .settled result) ∧
      (call.retry.Accepted → retry.results.length < call.retry.attempts)

namespace FallbackState

/-- Every invocation has come to a failure. -/
def AllFailed (s : FallbackState) (attempts : Nat) : Prop :=
  ∀ k < attempts, ∃ e, s.retry.outcomes k = some (.error e)

/-- What the transform waits for: the attempt, or the sink, which is open. -/
def Waits (s : FallbackState) : Prop :=
  (s.phase = .retrying ∧ s.retry.Waits) ∨
    ∃ error, s.phase = .waiting error none ∧ s.closed = false ∧ .drain ∈ s.listeners

/-- Whether a step is one of the transform itself. -/
def works (s : FallbackState) : FallbackAction → Bool
  | .begin => true
  | .retry action => s.retry.works action
  | .resume => true
  | .deliver _ => true
  | .divert _ => true
  | .proceed => true
  | _ => false

/-- Nothing has been called, written or registered. -/
structure Fresh (s : FallbackState) : Prop where
  callbacks : s.callbacks = []
  written : s.written = []
  listeners : s.listeners = ∅

def Sound (s : FallbackState) : Prop :=
  match s.phase with
  | .entering => s.Fresh
  | .retrying => s.Fresh
  | .delivering _ => s.Fresh
  | .failed _ => s.Fresh
  | .waiting _ none => s.callbacks = [] ∧ s.closed = false ∧ .drain ∈ s.listeners
  | .waiting _ (some _) => s.callbacks = [] ∧ s.listeners = ∅
  | .finished => s.callbacks.length = 1 ∧ s.listeners = ∅
  | .crashed => False

/-- What holds of the attempts and the sink in every phase. -/
structure Accounts (call : FallbackCall) (chunk : Bytes) (s : FallbackState) : Prop where
  attempts : call.Attempts s.retry
  sink : s.closed = true → s.writable = false
  written : s.written = [] ∨
    s.written = [chunk] ∧ call.retry.Accepted ∧ s.AllFailed call.retry.attempts

/-- The invariant of a chunk. -/
structure Disciplined (call : FallbackCall) (chunk : Bytes) (s : FallbackState) : Prop extends
    s.Accounts call chunk where
  sound : s.Sound

variable {call : FallbackCall} {chunk : Bytes} {s s' : FallbackState}

/-- A sound state has called back once if it has finished, and not yet otherwise. -/
theorem Sound.callbacks (h : s.Sound) :
    s.callbacks = [] ∨ s.phase = .finished ∧ s.callbacks.length = 1 := by
  unfold FallbackState.Sound at h
  split at h
  all_goals rename_i hphase
  · exact .inl h.callbacks
  · exact .inl h.callbacks
  · exact .inl h.callbacks
  · exact .inl h.callbacks
  · exact .inl h.1
  · exact .inl h.1
  · exact .inr ⟨hphase, h.1⟩
  · exact h.elim

/-- Without a wait there are no listeners. -/
theorem Sound.listeners (h : s.Sound) (hphase : ∀ error, s.phase ≠ .waiting error none) :
    s.listeners = ∅ := by
  unfold FallbackState.Sound at h
  split at h
  · exact h.listeners
  · exact h.listeners
  · exact h.listeners
  · exact h.listeners
  · exact absurd ‹_› (hphase _)
  · exact h.2
  · exact h.2
  · exact h.elim

/-! ## One step -/

/-- The debug line leaves a step of `withRetry` as it is, or rejects with what it throws,
    in front of a further attempt. -/
theorem retryStep_cases (call : FallbackCall) (retry : RetryState (Option Bytes))
    (action : RetryAction (Option Bytes)) :
    call.retryStep retry action = call.retry.step retry action ∨
      ∃ thrown i, action = .delay ∧ retry.phase = .caught i ∧ i + 1 < call.retry.attempts ∧
        call.retryStep retry action = retry.settleWith (.error thrown) := by
  cases action with
  | delay =>
    cases hlog : call.retryLog retry with
    | none => exact .inl (by simp only [FallbackCall.retryStep, hlog])
    | some thrown =>
      refine .inr ⟨thrown, ?_⟩
      have hstep : call.retryStep retry .delay = retry.settleWith (.error thrown) := by
        simp only [FallbackCall.retryStep, hlog]
      -- there is such a line behind a failed attempt only
      unfold FallbackCall.retryLog at hlog
      split at hlog
      · rename_i i hphase
        split at hlog
        · rename_i hlogs
          exact ⟨i, rfl, hphase, of_decide_eq_true (Bool.and_eq_true_iff.mp hlogs).2, hstep⟩
        · cases hlog
      · cases hlog
  | _ => exact .inl rfl

/-- A call that has settled learns nothing more. -/
theorem results_of_settled {retry : RetryState (Option Bytes)}
    {result : Except Thrown (Option Bytes)} (h : retry.phase = .settled result)
    (action : RetryAction (Option Bytes)) :
    (call.retry.step retry action).results = retry.results := by
  cases action with
  | abort reason => rfl
  | tick now => rfl
  | settle k outcome => rfl
  | _ => simp only [RetryCall.step, h]

/-- Whatever `withRetry` and its surroundings do. -/
theorem attempts_step {retry : RetryState (Option Bytes)} {action : RetryAction (Option Bytes)}
    (h : call.Attempts retry) (henabled : retry.enabled action = true) :
    call.Attempts (call.retryStep retry action) := by
  rcases h with ⟨haccepted, hretry⟩ | ⟨⟨result, hresult⟩, hmade⟩
  · rcases retryStep_cases call retry action with heq | ⟨thrown, i, -, hphase, hlt, heq⟩
    · rw [heq]
      exact .inl ⟨haccepted, disciplined_machine haccepted retry action hretry henabled⟩
    · -- the debug line has thrown behind an attempt that was not the last
      rw [heq]
      refine .inr ⟨⟨_, rfl⟩, fun _ => ?_⟩
      have hsound := hretry.sound
      rw [RetryState.Sound, hphase] at hsound
      show retry.results.length < _
      rw [hsound.2.made]
      exact hlt
  · -- it has rejected already
    rcases retryStep_cases call retry action with heq | ⟨thrown, i, -, hphase, -, -⟩
    · rw [heq]
      refine .inr ⟨⟨result, settled_step hresult⟩, ?_⟩
      rw [results_of_settled hresult]
      exact hmade
    · rw [hresult] at hphase
      cases hphase

/-- What an invocation has come to stays so. -/
theorem allFailed_step {action : RetryAction (Option Bytes)}
    (henabled : s.retry.enabled action = true) {attempts : Nat} (h : s.AllFailed attempts) :
    FallbackState.AllFailed { s with retry := call.retryStep s.retry action } attempts := by
  intro k hk
  obtain ⟨e, he⟩ := h k hk
  refine ⟨e, ?_⟩
  show (call.retryStep s.retry action).outcomes k = _
  rcases retryStep_cases call s.retry action with heq | ⟨thrown, i, -, -, -, heq⟩
  · rw [heq]
    exact outcomes_step henabled he
  · rw [heq]
    exact he

/-- A step that leaves the sink and the attempts alone. -/
theorem disciplined_of_same (h : s.Accounts call chunk) (hretry : s'.retry = s.retry)
    (hclosed : s'.closed = s.closed) (hwritable : s'.writable = s.writable)
    (hwritten : s'.written = s.written) (hsound : s'.Sound) : s'.Disciplined call chunk := by
  refine ⟨⟨?_, ?_, ?_⟩, hsound⟩
  · rw [hretry]
    exact h.attempts
  · rw [hclosed, hwritable]
    exact h.sink
  · rw [hwritten]
    unfold AllFailed
    rw [hretry]
    exact h.written

/-- A step that leaves the phase and what was done in it alone, and closes no sink under
    the wait. -/
theorem sound_of_same (h : s.Sound) (hphase : s'.phase = s.phase)
    (hcallbacks : s'.callbacks = s.callbacks) (hwritten : s'.written = s.written)
    (hlisteners : s'.listeners = s.listeners)
    (hclosed : ∀ error, s.phase = .waiting error none → s'.closed = s.closed) : s'.Sound := by
  have hfresh : s.Fresh → s'.Fresh := fun hs =>
    ⟨hcallbacks.trans hs.callbacks, hwritten.trans hs.written, hlisteners.trans hs.listeners⟩
  unfold FallbackState.Sound at h ⊢
  rw [hphase, hcallbacks, hlisteners]
  split at h
  · exact hfresh h
  · exact hfresh h
  · exact hfresh h
  · exact hfresh h
  · -- the wait is the only phase that the sink is part of
    rename_i error hwaiting
    exact ⟨h.1, (hclosed error hwaiting).trans h.2.1, h.2.2⟩
  · exact h
  · exact h
  · exact h

theorem fresh_of_fresh (h : s.Fresh) (phase : FallbackPhase) :
    ({ s with phase := phase } : FallbackState).Fresh := ⟨h.callbacks, h.written, h.listeners⟩

/-- Listeners settle a wait that is open, and otherwise do nothing. -/
theorem disciplined_settleWait {listener : SinkListener} {result : Except Thrown Unit}
    (h : s.Disciplined call chunk) : (s.settleWait listener result).Disciplined call chunk := by
  have hsound := h.sound
  unfold FallbackState.Sound at hsound
  unfold settleWait
  split
  · rename_i error hphase
    rw [hphase] at hsound
    split
    · -- the listener takes all of them away
      exact disciplined_of_same h.toAccounts rfl rfl rfl rfl ⟨hsound.1, rfl⟩
    · exact h
  · exact h

theorem disciplined_begin (h : s.Disciplined call chunk) (henabled : s.enabled .begin = true) :
    (call.step s .begin).Disciplined call chunk := by
  have hsound := h.sound
  unfold FallbackState.Sound at hsound
  cases hphase : s.phase with
  | entering =>
    rw [hphase] at hsound
    simp only [FallbackCall.step]
    split
    · exact disciplined_of_same h.toAccounts rfl rfl rfl rfl (fresh_of_fresh hsound _)
    · exact disciplined_of_same h.toAccounts rfl rfl rfl rfl (fresh_of_fresh hsound _)
  | _ =>
    rw [FallbackState.enabled, hphase] at henabled
    cases henabled

theorem disciplined_retry {action : RetryAction (Option Bytes)} (h : s.Disciplined call chunk)
    (henabled : s.enabled (.retry action) = true) :
    (call.step s (.retry action)).Disciplined call chunk := by
  obtain ⟨hretry, -⟩ := Bool.and_eq_true_iff.mp henabled
  have hnext : FallbackState.Disciplined call chunk
      { s with retry := call.retryStep s.retry action } := by
    refine ⟨⟨attempts_step h.attempts hretry, h.sink, ?_⟩, ?_⟩
    · -- the attempts go on failing, so the chunk stays where it is
      rcases h.written with hnone | ⟨hchunk, haccepted, hall⟩
      · exact .inl hnone
      · exact .inr ⟨hchunk, haccepted, allFailed_step hretry hall⟩
    · exact sound_of_same h.sound rfl rfl rfl rfl fun _ _ => rfl
  cases action with
  -- an abort also ends the wait for the sink
  | abort reason => exact disciplined_settleWait hnext
  | _ => exact hnext

/-- The output goes to the callback or its error to the `catch` block. -/
theorem checkOutput_cases (call : FallbackCall) (result : Except Thrown (Option Bytes)) :
    (∃ out, call.checkOutput result = .delivering out) ∨
      ∃ err, call.checkOutput result = .failed err := by
  cases result with
  | error e => exact .inr ⟨e, rfl⟩
  | ok out =>
    cases out with
    | none => exact .inr ⟨_, rfl⟩
    | some out =>
      simp only [FallbackCall.checkOutput]
      split
      · exact .inr ⟨_, rfl⟩
      · exact .inl ⟨out, rfl⟩

theorem disciplined_resume (h : s.Disciplined call chunk) (henabled : s.enabled .resume = true) :
    (call.step s .resume).Disciplined call chunk := by
  have hsound := h.sound
  unfold FallbackState.Sound at hsound
  obtain ⟨hretrying, -⟩ := Bool.and_eq_true_iff.mp henabled
  cases hphase : s.phase with
  | retrying =>
    rw [hphase] at hsound
    simp only [FallbackCall.step]
    split
    · rename_i result hresult
      refine disciplined_of_same h.toAccounts rfl rfl rfl rfl ?_
      have hfresh := fresh_of_fresh hsound (call.checkOutput result)
      rcases checkOutput_cases call result with ⟨out, hout⟩ | ⟨err, herr⟩
      · rw [hout] at hfresh ⊢
        exact hfresh
      · rw [herr] at hfresh ⊢
        exact hfresh
    · exact h
  | _ =>
    rw [hphase] at hretrying
    cases hretrying

theorem disciplined_deliver {thrown : Option Thrown} (h : s.Disciplined call chunk)
    (hkeeps : call.keeps chunk s (.deliver thrown) = true) :
    (call.step s (.deliver thrown)).Disciplined call chunk := by
  have hsound := h.sound
  unfold FallbackState.Sound at hsound
  cases Option.isNone_iff_eq_none.mp hkeeps
  simp only [FallbackCall.step]
  split
  · rename_i out hphase
    rw [hphase] at hsound
    refine disciplined_of_same h.toAccounts rfl rfl rfl rfl ⟨?_, hsound.listeners⟩
    show (s.callbacks ++ [_]).length = 1
    rw [hsound.callbacks]
    rfl
  · exact h

/-- Exhausted attempts have all failed. -/
theorem allFailed_of_exhausted (h : s.Disciplined call chunk) (hexhausted : call.exhausted s = true) :
    call.retry.Accepted ∧ s.AllFailed call.retry.attempts := by
  simp only [FallbackCall.exhausted, Bool.and_eq_true, decide_eq_true_eq] at hexhausted
  obtain ⟨⟨haccepted, hlength⟩, hall⟩ := hexhausted
  have hretry : s.retry.Disciplined call.retry.attempts := by
    rcases h.attempts with ⟨-, hretry⟩ | ⟨-, hmade⟩
    · exact hretry
    · -- a rejection in front of the last attempt leaves a result out
      exact absurd hlength (hmade haccepted).ne
  refine ⟨haccepted, fun k hk => ?_⟩
  have hlt : k < s.retry.results.length := hlength ▸ hk
  have hfailure := List.all_eq_true.mp hall _ (List.getElem_mem hlt)
  -- what the loop has kept of an attempt is what it has come to
  cases hresult : s.retry.results[k] with
  | ok value =>
    rw [hresult] at hfailure
    cases hfailure
  | error e =>
    refine ⟨e, hretry.outcomes k _ ?_⟩
    rw [List.getElem?_eq_getElem hlt, hresult]

/-- The first chunk that is handed over is the one of the transform, as it was. -/
theorem accounts_write (h : s.Disciplined call chunk) (hwritten : s.written = [])
    (hchunk : s.chunk = chunk) (hexhausted : call.exhausted s = true) :
    Accounts call chunk { s with written := s.written ++ [s.chunk] } := by
  obtain ⟨haccepted, hall⟩ := allFailed_of_exhausted h hexhausted
  refine ⟨h.attempts, h.sink, .inr ⟨?_, haccepted, hall⟩⟩
  show s.written ++ [s.chunk] = [chunk]
  rw [hwritten, hchunk]
  rfl

/-- The chunk is with the sink, which has been found open. -/
theorem disciplined_await (h : s.Accounts call chunk) (hcallbacks : s.callbacks = [])
    (hlisteners : s.listeners = ∅) (hclosed : s.closed = false) (error : Thrown) :
    (FallbackCall.await s error).Disciplined call chunk := by
  unfold FallbackCall.await
  split
  · exact disciplined_of_same h rfl rfl rfl rfl ⟨hcallbacks, hlisteners⟩
  · refine disciplined_of_same h rfl rfl rfl rfl ⟨hcallbacks, hclosed, ?_⟩
    show _ ∈ ite _ _ _
    split
    · decide
    · decide

theorem disciplined_callBack {result : Except Thrown Bytes} (h : s.Accounts call chunk)
    (hcallbacks : s.callbacks = []) (hlisteners : s.listeners = ∅) :
    (s.callBack result).Disciplined call chunk := by
  refine disciplined_of_same h rfl rfl rfl rfl ⟨?_, hlisteners⟩
  show (s.callbacks ++ [result]).length = 1
  rw [hcallbacks]
  rfl

theorem disciplined_divert {answer : SinkAnswer} (h : s.Disciplined call chunk)
    (hkeeps : call.keeps chunk s (.divert answer) = true) :
    (call.step s (.divert answer)).Disciplined call chunk := by
  have hsound := h.sound
  unfold FallbackState.Sound at hsound
  cases hphase : s.phase with
  | failed err =>
    rw [hphase] at hsound
    simp only [FallbackCall.keeps, hphase, Bool.and_eq_true] at hkeeps
    obtain ⟨hreported, hsink⟩ := hkeeps
    simp only [FallbackCall.step, hphase]
    -- `new Error(String(err))` could throw, and so could the message
    cases herr : call.caughtError err with
    | error e =>
      rw [herr] at hreported
      cases hreported
    | ok error =>
      cases htakes : call.hasDlq && s.writable with
      | false => exact disciplined_callBack h.toAccounts hsound.callbacks hsound.listeners
      | true =>
        rw [htakes, Bool.not_true, Bool.false_or, Bool.and_eq_true] at hsink
        obtain ⟨hexhausted, hchunk⟩ := hsink
        let written : FallbackState := { s with written := s.written ++ [s.chunk] }
        have hwritten : written.Accounts call chunk :=
          accounts_write h hsound.written (of_decide_eq_true hchunk) hexhausted
        have hcalled : ∀ result, (written.callBack result).Disciplined call chunk := fun result =>
          disciplined_callBack hwritten hsound.callbacks hsound.listeners
        cases answer with
        | accepted => simpa only [written, hphase, if_true] using hcalled (.error error)
        | threw e => simpa only [written, hphase, if_true] using hcalled (.error e)
        | full =>
          -- a writable sink has not been closed
          have hclosed : s.closed = false := by
            cases hclosed : s.closed with
            | false => rfl
            | true =>
              rw [h.sink hclosed, Bool.and_false] at htakes
              cases htakes
          simpa only [written, hphase, if_true] using
            disciplined_await hwritten hsound.callbacks hsound.listeners hclosed error
  | _ => simpa only [FallbackCall.step, hphase] using h

theorem disciplined_proceed (h : s.Disciplined call chunk) :
    (call.step s .proceed).Disciplined call chunk := by
  have hsound := h.sound
  unfold FallbackState.Sound at hsound
  simp only [FallbackCall.step]
  split
  · rename_i error hphase
    rw [hphase] at hsound
    exact disciplined_callBack h.toAccounts hsound.1 hsound.2
  · rename_i error e hphase
    rw [hphase] at hsound
    exact disciplined_callBack h.toAccounts hsound.1 hsound.2
  · exact h

/-- What the sink is to get stays as it is. -/
theorem disciplined_mutate {bytes : Bytes} (h : s.Disciplined call chunk)
    (hkeeps : call.keeps chunk s (.mutate bytes) = true) :
    (call.step s (.mutate bytes)).Disciplined call chunk := by
  have hsame : (call.step s (.mutate bytes)).written = s.written := by
    show (if s.taken then s.written else s.written.map fun _ => bytes) = s.written
    split
    · rfl
    · rename_i htaken
      rcases h.written with hnone | ⟨hchunk, -, -⟩
      · rw [hnone]
        rfl
      · -- the sink still has the buffer, and finds the same bytes in it
        simp only [FallbackCall.keeps, hchunk, List.isEmpty_cons, htaken, Bool.false_or,
          decide_eq_true_eq] at hkeeps
        rw [hchunk, hkeeps]
        rfl
  exact disciplined_of_same h.toAccounts rfl rfl rfl hsame
    (sound_of_same h.sound rfl rfl hsame rfl fun _ _ => rfl)

theorem disciplined_setWritable {writable : Bool} (h : s.Disciplined call chunk)
    (henabled : s.enabled (.setWritable writable) = true) :
    (call.step s (.setWritable writable)).Disciplined call chunk := by
  refine ⟨⟨h.attempts, fun hclosed => ?_, h.written⟩,
    sound_of_same h.sound rfl rfl rfl rfl fun _ _ => rfl⟩
  -- a closed sink does not become writable again
  have hopen : (!s.closed) = true := henabled
  rw [show s.closed = true from hclosed] at hopen
  cases hopen

theorem disciplined_sinkClose (h : s.Disciplined call chunk)
    (hkeeps : call.keeps chunk s .sinkClose = true) :
    (call.step s .sinkClose).Disciplined call chunk := by
  refine ⟨⟨h.attempts, fun _ => rfl, h.written⟩,
    sound_of_same h.sound rfl rfl rfl rfl fun error hphase => ?_⟩
  rw [FallbackCall.keeps, hphase] at hkeeps
  cases hkeeps

theorem disciplined_step {action : FallbackAction} (h : s.Disciplined call chunk)
    (henabled : s.enabled action = true) (hkeeps : call.keeps chunk s action = true) :
    (call.step s action).Disciplined call chunk := by
  cases action with
  | begin => exact disciplined_begin h henabled
  | retry action => exact disciplined_retry h henabled
  | resume => exact disciplined_resume h henabled
  | deliver thrown => exact disciplined_deliver h hkeeps
  | divert answer => exact disciplined_divert h hkeeps
  | proceed => exact disciplined_proceed h
  | mutate bytes => exact disciplined_mutate h hkeeps
  | sinkTakes =>
    exact disciplined_of_same h.toAccounts rfl rfl rfl rfl
      (sound_of_same h.sound rfl rfl rfl rfl fun _ _ => rfl)
  | setWritable writable => exact disciplined_setWritable h henabled
  | drain => exact disciplined_settleWait h
  | sinkError e => exact disciplined_settleWait h
  | sinkClose => exact disciplined_sinkClose h hkeeps
  | close => exact disciplined_settleWait h

/-! ## Progress -/

/-- What is left to do, in steps of the transform itself. -/
def budget (attempts : Nat) (s : FallbackState) : Nat :=
  s.retry.budget attempts +
    match s.phase with
    | .entering => 6
    | .retrying => 5
    | .delivering _ => 4
    | .failed _ => 3
    | .waiting _ none => 2
    | .waiting _ (some _) => 1
    | .finished => 0
    | .crashed => 0

theorem budget_settleWait (listener : SinkListener) (result : Except Thrown Unit) (attempts : Nat) :
    (s.settleWait listener result).budget attempts ≤ s.budget attempts := by
  unfold settleWait
  split
  · rename_i error hphase
    split
    · -- a settled wait is one step on
      simp only [budget, hphase]
      omega
    · exact Nat.le_refl _
  · exact Nat.le_refl _

theorem budget_retry {action : RetryAction (Option Bytes)} (h : s.Disciplined call chunk)
    (henabled : s.retry.enabled action = true) :
    (if s.retry.works action then 1 else 0) +
        (call.retryStep s.retry action).budget call.retry.attempts ≤
      s.retry.budget call.retry.attempts := by
  rcases retryStep_cases call s.retry action with heq | ⟨thrown, i, rfl, hphase, hlt, heq⟩
  rw [heq]
  rcases h.attempts with ⟨haccepted, hretry⟩ | ⟨⟨result, hresult⟩, -⟩
  · exact budget_step hretry henabled
  · -- a call that has rejected has nothing left to do
    have hnext : (call.retry.step s.retry action).phase = .settled result := settled_step hresult
    have hidle : s.retry.works action = false := by
      cases action with
      | abort reason => rfl
      | tick now => rfl
      | settle k outcome => rfl
      | react k => rw [RetryState.works, hresult]
      | timeout =>
        simp only [RetryState.enabled, hresult] at henabled
        cases henabled
      | _ =>
        rw [RetryState.enabled, hresult] at henabled
        cases henabled
    rw [hidle, RetryState.budget, hnext]
    exact Nat.zero_le _
  · -- the debug line throws where there is something left to do
    rw [heq]
    simp only [RetryState.budget, RetryState.settleWith, hphase]
    show 1 + 0 ≤ _
    omega

theorem budget_begin (attempts : Nat) (henabled : s.enabled .begin = true) :
    (call.step s .begin).budget attempts < s.budget attempts := by
  cases hphase : s.phase with
  | entering =>
    simp only [FallbackCall.step, budget, hphase]
    split
    · simp only
      omega
    · simp only
      omega
  | _ =>
    rw [FallbackState.enabled, hphase] at henabled
    cases henabled

/-- The budget of `withRetry` pays for its steps. -/
theorem budget_retrying {action : RetryAction (Option Bytes)} (h : s.Disciplined call chunk)
    (henabled : s.enabled (.retry action) = true) :
    (if s.works (.retry action) then 1 else 0) +
        (call.step s (.retry action)).budget call.retry.attempts ≤
      s.budget call.retry.attempts := by
  obtain ⟨hretry, -⟩ := Bool.and_eq_true_iff.mp henabled
  have hnext : (if s.retry.works action then 1 else 0) +
      budget call.retry.attempts { s with retry := call.retryStep s.retry action } ≤
        s.budget call.retry.attempts := by
    have hbudget := budget_retry h hretry
    simp only [budget]
    omega
  cases action with
  | abort reason => exact Nat.le_trans (Nat.add_le_add_left (budget_settleWait ..) _) hnext
  | _ => exact hnext

theorem budget_resumed (attempts : Nat) (henabled : s.enabled .resume = true) :
    (call.step s .resume).budget attempts < s.budget attempts := by
  obtain ⟨hretrying, hsettled⟩ := Bool.and_eq_true_iff.mp henabled
  cases hphase : s.phase with
  | retrying =>
    split at hsettled
    · rename_i result hresult
      simp only [FallbackCall.step, hresult]
      rcases checkOutput_cases call result with ⟨out, hout⟩ | ⟨err, herr⟩
      · simp only [budget, hphase, hout]
        omega
      · simp only [budget, hphase, herr]
        omega
    · cases hsettled
  | _ =>
    rw [hphase] at hretrying
    cases hretrying

theorem budget_deliver (attempts : Nat) {thrown : Option Thrown}
    (henabled : s.enabled (.deliver thrown) = true) :
    (call.step s (.deliver thrown)).budget attempts < s.budget attempts := by
  cases hphase : s.phase with
  | delivering out =>
    cases thrown with
    | none =>
      simp only [FallbackCall.step, hphase, budget, callBack]
      omega
    | some e =>
      simp only [FallbackCall.step, hphase, budget]
      omega
  | _ =>
    rw [FallbackState.enabled, hphase] at henabled
    cases henabled

theorem budget_divert (attempts : Nat) {answer : SinkAnswer}
    (henabled : s.enabled (.divert answer) = true) :
    (call.step s (.divert answer)).budget attempts < s.budget attempts := by
  cases hphase : s.phase with
  | failed err =>
    simp only [FallbackCall.step, hphase]
    split
    · -- the `catch` block throws
      simp only [budget, hphase]
      omega
    · split
      · cases answer with
        | full =>
          simp only [FallbackCall.await]
          split
          · simp only [budget, hphase]
            omega
          · simp only [budget, hphase]
            omega
        | _ =>
          simp only [budget, callBack, hphase]
          omega
      · simp only [budget, callBack, hphase]
        omega
  | _ =>
    rw [FallbackState.enabled, hphase] at henabled
    cases henabled

theorem budget_proceed (attempts : Nat) (henabled : s.enabled .proceed = true) :
    (call.step s .proceed).budget attempts < s.budget attempts := by
  simp only [FallbackState.enabled] at henabled
  split at henabled
  · rename_i error result hphase
    cases result with
    | ok _ =>
      simp only [FallbackCall.step, hphase, budget, callBack]
      omega
    | error e =>
      simp only [FallbackCall.step, hphase, budget, callBack]
      omega
  · cases henabled

theorem fallback_budget_step {action : FallbackAction} (h : s.Disciplined call chunk)
    (henabled : s.enabled action = true) :
    (if s.works action then 1 else 0) + (call.step s action).budget call.retry.attempts ≤
      s.budget call.retry.attempts := by
  have hlowers : ∀ {n : Nat}, n < s.budget call.retry.attempts →
      1 + n ≤ s.budget call.retry.attempts := by
    intro n hn
    omega
  cases action with
  | begin => exact hlowers (budget_begin _ henabled)
  | retry action => exact budget_retrying h henabled
  | resume => exact hlowers (budget_resumed _ henabled)
  | deliver thrown => exact hlowers (budget_deliver _ henabled)
  | divert answer => exact hlowers (budget_divert _ henabled)
  | proceed => exact hlowers (budget_proceed _ henabled)
  | mutate bytes => exact Nat.le_of_eq (Nat.zero_add _)
  | sinkTakes => exact Nat.le_of_eq (Nat.zero_add _)
  | setWritable writable => exact Nat.le_of_eq (Nat.zero_add _)
  | drain => exact (Nat.zero_add _).trans_le (budget_settleWait ..)
  | sinkError e => exact (Nat.zero_add _).trans_le (budget_settleWait ..)
  | sinkClose => exact Nat.le_of_eq (Nat.zero_add _)
  | close => exact (Nat.zero_add _).trans_le (budget_settleWait ..)

/-- A transform that has not finished goes on, or waits. -/
theorem fallback_progress (h : s.Disciplined call chunk) :
    s.phase = .finished ∨ s.Waits ∨ ∃ action, s.enabled action = true ∧ s.works action = true := by
  have hsound := h.sound
  unfold FallbackState.Sound at hsound
  cases hphase : s.phase with
  | finished => exact .inl rfl
  -- the `catch` block has not thrown
  | crashed =>
    rw [hphase] at hsound
    exact hsound.elim
  | entering =>
    exact .inr (.inr ⟨.begin, by rw [FallbackState.enabled, hphase]; rfl, rfl⟩)
  | delivering out =>
    exact .inr (.inr ⟨.deliver none, by rw [FallbackState.enabled, hphase], rfl⟩)
  | failed err =>
    exact .inr (.inr ⟨.divert .accepted, by rw [FallbackState.enabled, hphase], rfl⟩)
  | waiting error result =>
    cases result with
    | none =>
      rw [hphase] at hsound
      exact .inr (.inl (.inr ⟨error, hphase, hsound.2⟩))
    | some result => exact .inr (.inr ⟨.proceed, by rw [FallbackState.enabled, hphase], rfl⟩)
  | retrying =>
    -- once `withRetry` has settled, the code behind it runs
    have hresume : ∀ result, s.retry.phase = .settled result → s.enabled .resume = true := by
      intro result hresult
      rw [FallbackState.enabled, hphase, hresult]
      rfl
    rcases h.attempts with ⟨-, hretry⟩ | ⟨⟨result, hresult⟩, -⟩
    · rcases progress hretry with ⟨result, hresult⟩ | hwaits | ⟨action, hon, hworks⟩
      · exact .inr (.inr ⟨.resume, hresume result hresult, rfl⟩)
      · exact .inr (.inl (.inl ⟨hphase, hwaits⟩))
      · refine .inr (.inr ⟨.retry action, ?_, hworks⟩)
        rw [FallbackState.enabled, hon, hphase]
        rfl
    · exact .inr (.inr ⟨.resume, hresume result hresult, rfl⟩)

end FallbackState

/-! ## Runs -/

section Runs

variable {call : FallbackCall} {chunk : Bytes}

theorem fallback_start (call : FallbackCall) (signal : Option AbortSignal) (now : Nat)
    (chunk : Bytes) (writable : Bool) :
    (call.start signal now chunk writable).Disciplined call chunk := by
  refine ⟨⟨?_, nofun, .inl rfl⟩, ⟨rfl, rfl, rfl⟩⟩
  by_cases haccepted : call.retry.Accepted
  · exact .inl ⟨haccepted, disciplined_start haccepted signal now⟩
  · refine .inr ⟨?_, fun h => absurd h haccepted⟩
    have hcheck : checkRetryOptions call.retry.options call.retry.limits ≠ .ok () := haccepted
    show ∃ result, (call.retry.start signal now).phase = .settled result
    simp only [RetryCall.start]
    -- options that are refused make the call settle at once
    split
    · exact absurd ‹_› hcheck
    · exact ⟨_, rfl⟩

theorem fallback_budget_start (call : FallbackCall) (signal : Option AbortSignal) (now : Nat)
    (chunk : Bytes) (writable : Bool) :
    (call.start signal now chunk writable).budget call.retry.attempts ≤
      8 * call.retry.attempts + 7 := by
  have hretry := budget_start (α := Option Bytes) call.retry signal now
  show RetryState.budget _ _ + 6 ≤ _
  exact Nat.add_le_add_right hretry 6

/-- The discipline of the failure sink in a state of a run. -/
structure SinkDiscipline (call : FallbackCall) (chunk : Bytes) (s : FallbackState) : Prop where
  /-- the callback is called once, and then the transform has finished -/
  callback : s.callbacks = [] ∨ s.phase = .finished ∧ s.callbacks.length = 1
  /-- and it is called, unless the attempt or the open sink is waited for -/
  progress : s.phase = .finished ∨ s.Waits ∨
    ∃ action, s.enabled action = true ∧ s.works action = true
  /-- the chunk is written at most once, as it was, and behind the failure of every
      attempt -/
  written : s.written = [] ∨
    s.written = [chunk] ∧ call.retry.Accepted ∧ s.AllFailed call.retry.attempts
  listeners : (∀ error, s.phase ≠ .waiting error none) → s.listeners = ∅

theorem sinkDiscipline_of_disciplined {s : FallbackState} (h : s.Disciplined call chunk) :
    SinkDiscipline call chunk s :=
  ⟨h.sound.callbacks, FallbackState.fallback_progress h, h.written, h.sound.listeners⟩

end Runs

/-- A plugin of one attempt, with a sink and a logger; every message can be read. -/
def divertingCall : FallbackCall where
  plugin := ⟨"remote", "1.0.0", .undefined, .undefined, .missing, false⟩
  reverse := false
  retry := oneAttempt
  hasDlq := true
  hasLogger := true
  hasSpan := false
  messageThrows _ := none

end PipeX
