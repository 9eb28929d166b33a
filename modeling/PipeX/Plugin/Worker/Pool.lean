/-
  PipeX.Plugin.Worker.Pool

  The life of the pool behind `WorkerPoolPlugin` (`src/plugin/worker.ts`): `#run`,
  `close` and the listener for errors of the pool, and the order they may come in.

  An `Action` is one uninterrupted stretch of code.  When Piscina settles its
  promises, and how, is left open; so is the moment at which a signal is aborted or
  the timer of `close` fires.
-/
import PipeX.Lib.Transition
import PipeX.Plugin.Worker.Stream

namespace PipeX

open Transition

/-! ## State -/

/-- A plugin with the options that only its pool looks at. -/
structure WorkerPoolSettings where
  plugin : WorkerPoolPlugin
  maxThreads : Nat
  taskTimeoutMs : Option Nat

/-- `#maxInFlight`. -/
def WorkerPoolSettings.maxInFlight (settings : WorkerPoolSettings) : Int :=
  settings.maxThreads + settings.plugin.maxQueue

/-- Whether the reason of a signal is a `TimeoutError`. -/
inductive AbortReason where
  | timeout
  | other
deriving DecidableEq, Repr

/-- `abortError(signal)`. -/
def AbortReason.error : AbortReason → JsError
  | timeout => operationTimeoutError
  | other => operationAbortedError

structure TaskContext where
  limits : Option EngineLimits
  /-- what `signal` has been aborted for by now -/
  aborted : Option AbortReason
deriving DecidableEq, Repr

/-- A call of `#run` that waits for the pool. -/
structure Task where
  id : Nat
  exportName : Option String
  limits : Option EngineLimits
deriving DecidableEq, Repr

/-- How a task comes back from the pool. -/
structure PoolAnswer where
  /-- what the signal of the task has been aborted for by then -/
  aborted : Option AbortReason
  /-- a value that is no binary data is `none` -/
  result : Except JsError (Option Bytes)

/-- How far the function behind `#closePromise` has got. -/
inductive CloseProgress where
  /-- waits for `#pool.destroy()` in its `try` block -/
  | destroying
  /-- waits for the tasks, with its waiter in `#idleWaiters` and its timer set -/
  | waiting
  /-- the waiter has been called -/
  | idle
  /-- waits for `#pool.close({ force: false })` -/
  | closing
  /-- waits for `#pool.destroy()` in its `catch` block -/
  | failing (error : JsError)
  | settled (outcome : Except JsError Unit)

/-- What the promise has been settled with. -/
def CloseProgress.outcome : CloseProgress → Option (Except JsError Unit)
  | settled outcome => some outcome
  | _ => none

structure WorkerPool where
  accepting : Bool
  inFlight : Int
  fatalError : Option JsError
  closePromise : Option CloseProgress
  /-- whether the waiter of `close` is in `#idleWaiters` -/
  idleWaiters : Bool
  /-- whether `#onPoolError` is attached -/
  listening : Bool
  /-- the calls of `#run` that have been admitted and are not over -/
  tasks : List Task
  submitted : Nat
  /-- what the calls of `close` have come to, in their order -/
  closeCalls : List (Option (Except JsError Unit))

/-- A method of `WorkerPoolPlugin`. -/
abbrev PoolMethod : Type → Type := EStateM JsError WorkerPool

namespace WorkerPool

/-- The pool behind the constructor. -/
def new : WorkerPool where
  accepting := true
  inFlight := 0
  fatalError := none
  closePromise := none
  idleWaiters := false
  listening := true
  tasks := []
  submitted := 0
  closeCalls := []

/-- What `#closePromise` has been settled with. -/
def closeOutcome (pool : WorkerPool) : Option (Except JsError Unit) :=
  pool.closePromise.bind CloseProgress.outcome

section Methods

variable (settings : WorkerPoolSettings)

/-! ## #run -/

/-- The timeout that `taskControl` checks. -/
def taskTimeout (ctx : TaskContext) : Nat :=
  settings.taskTimeoutMs.getD
    ((ctx.limits.map (·.operationTimeoutMs)).getD defaultLimits.operationTimeoutMs)

/-- The checks that open `#run`. -/
def assertAdmissible (pool : WorkerPool) (data : Bytes) (ctx : TaskContext) :
    Except JsError Unit := do
  if let some error := pool.fatalError then
    throw error
  if pool.accepting = false then
    throw workerPoolClosedError
  let maxInputBytes := pluginInputLimit ctx.limits
  if data.length > maxInputBytes then
    throw (plainError s!"[PipeX] Worker input exceeds {maxInputBytes} bytes")
  if pool.inFlight ≥ settings.maxInFlight then
    throw (workerQueueFullError settings.plugin.maxQueue)
  if taskTimeout settings ctx > maxTimerMs then
    throw (plainError "[PipeX] Invalid worker task timeout")

/-- `#run` in front of its `try` block. -/
def admission (data : Bytes) (ctx : TaskContext) : PoolMethod Unit := do
  let pool ← get
  match assertAdmissible settings pool data ctx with
  | .error error => throw error
  | .ok () => modify fun pool => { pool with inFlight := pool.inFlight + 1 }

/-- The `finally` block of `#run`. -/
def leave (pool : WorkerPool) : WorkerPool :=
  let pool := { pool with inFlight := pool.inFlight - 1 }
  if pool.inFlight = 0 ∧ pool.idleWaiters then
    { pool with idleWaiters := false, closePromise := some .idle }
  else
    pool

/-- `#run` up to its first `await`; where it gets that far, the call waits for the
    pool. -/
def submit (data : Bytes) (ctx : TaskContext) (exportName : Option String) : PoolMethod Task := do
  admission settings data ctx
  match ctx.aborted with
  | some reason => do
    modify leave
    throw reason.error
  | none => do
    let pool ← get
    let task : Task := ⟨pool.submitted, exportName, ctx.limits⟩
    set { pool with tasks := pool.tasks ++ [task], submitted := pool.submitted + 1 }
    return task

/-- The `catch` block of `#run`. -/
def runFailure (exportName : Option String) (aborted : Option AbortReason) (error : JsError) :
    JsError :=
  match aborted with
  | some reason => reason.error
  | none =>
    if error.name = "WorkerPoolClosedError" ∨ error.name = "WorkerQueueFullError" then error
    else settings.plugin.taskFailure exportName error

/-- What a call of `#run` comes to. -/
def taskOutcome (task : Task) (answer : PoolAnswer) : Except JsError Bytes :=
  match answer.result with
  | .ok (some output) =>
    if output.length > pluginOutputLimit task.limits then
      .error (runFailure settings task.exportName answer.aborted (plainError
        s!"[PipeX] Worker output exceeds {pluginOutputLimit task.limits} bytes"))
    else
      .ok output
  | .ok none =>
    .error (runFailure settings task.exportName answer.aborted
      (plainError "worker returned a non-binary value"))
  | .error error => .error (runFailure settings task.exportName answer.aborted error)

/-- `#run` behind its `await`. -/
def settle (task : Task) (answer : PoolAnswer) : PoolMethod Bytes := do
  modify fun pool => leave { pool with tasks := pool.tasks.erase task }
  match taskOutcome settings task answer with
  | .ok output => return output
  | .error error => throw error

/-! ## close -/

/-- The end of the function behind `#closePromise`: its calls are settled with it. -/
def settleClose (pool : WorkerPool) (outcome : Except JsError Unit) : WorkerPool :=
  { pool with
    closePromise := some (.settled outcome)
    listening := false
    closeCalls := pool.closeCalls.map fun call => call <|> some outcome }

/-- `close({ force })`, up to its first `await`. -/
def close (force : Bool) (pool : WorkerPool) : WorkerPool :=
  match pool.closePromise with
  | some progress => { pool with closeCalls := pool.closeCalls ++ [progress.outcome] }
  | none =>
    let pool : WorkerPool := { pool with accepting := false, closeCalls := pool.closeCalls ++ [none] }
    if pool.fatalError.isSome ∨ force then
      { pool with closePromise := some .destroying }
    else if pool.inFlight > 0 then
      { pool with closePromise := some .waiting, idleWaiters := true }
    else
      { pool with closePromise := some .closing }

/-- The timer of `close` fires. -/
def closeDeadline (pool : WorkerPool) : WorkerPool :=
  { pool with idleWaiters := false, closePromise := some (.failing workerPoolCloseError) }

/-- `close` goes on behind the wait for the tasks. -/
def resumeClose (pool : WorkerPool) : WorkerPool := { pool with closePromise := some .closing }

/-- `#pool.close({ force: false })` has come to an end. -/
def poolClosed (result : Except JsError Unit) (pool : WorkerPool) : WorkerPool :=
  match result, pool.fatalError with
  | .ok (), none => pool.settleClose (.ok ())
  | .ok (), some error => { pool with closePromise := some (.failing error) }
  | .error error, _ => { pool with closePromise := some (.failing error) }

/-- What `close` throws for an error it has caught. -/
def closeFailure (error : JsError) : JsError :=
  if error.name = "WorkerPoolCloseError" then error else workerPoolCloseError

/-- `#pool.destroy()` has come to an end. -/
def poolDestroyed (result : Except JsError Unit) (pool : WorkerPool) : WorkerPool :=
  match pool.closePromise, result with
  | some .destroying, .ok () => pool.settleClose (.ok ())
  | some .destroying, .error error => { pool with closePromise := some (.failing error) }
  | some (.failing error), _ => pool.settleClose (.error (closeFailure error))
  | _, _ => pool

/-- The pool emits `error`. -/
def onPoolError (pool : WorkerPool) : WorkerPool :=
  if pool.listening ∧ pool.fatalError = none then
    { pool with fatalError := some (workerTaskError "worker-thread"), accepting := false }
  else
    pool

end Methods

/-! ## Runs -/

inductive Action where
  | submit (data : Bytes) (ctx : TaskContext) (exportName : Option String)
  | settle (task : Task) (answer : PoolAnswer)
  | close (force : Bool)
  | closeDeadline
  | resumeClose
  | poolClosed (result : Except JsError Unit)
  | poolDestroyed (result : Except JsError Unit)
  | poolError

/-- The pool behind a call of a method. -/
def behind {α : Type} : EStateM.Result JsError WorkerPool α → WorkerPool
  | .ok _ pool => pool
  | .error _ pool => pool

def step (settings : WorkerPoolSettings) (pool : WorkerPool) : Action → WorkerPool
  | .submit data ctx exportName => behind ((submit settings data ctx exportName).run pool)
  | .settle task answer => behind ((settle settings task answer).run pool)
  | .close force => pool.close force
  | .closeDeadline => pool.closeDeadline
  | .resumeClose => pool.resumeClose
  | .poolClosed result => pool.poolClosed result
  | .poolDestroyed result => pool.poolDestroyed result
  | .poolError => pool.onPoolError

/-- Tasks can be submitted and closed for at any time; what is waited for can happen. -/
def enabled (pool : WorkerPool) : Action → Prop
  | .settle task _ => task ∈ pool.tasks
  | .closeDeadline => pool.closePromise = some .waiting
  | .resumeClose => pool.closePromise = some .idle
  | .poolClosed _ => pool.closePromise = some .closing
  | .poolDestroyed _ =>
    pool.closePromise = some .destroying ∨ ∃ error, pool.closePromise = some (.failing error)
  | _ => True

def machine (settings : WorkerPoolSettings) : Machine WorkerPool Action where
  enabled := enabled
  step := step settings

end WorkerPool
end PipeX
