/-
  PipeX.Core.DataEngine.Controllers

  The controllers over the request store, with everything they leave running:
  binary and stream operations, the pipelines of the streams, the loops of
  `withRetry`, and the promises of the plugins.

  An `Action` is one uninterrupted stretch of code: what runs between two points
  at which another callback may run.  Sources: `withRetry` and
  `buildFallbackTransform` of `src/core/core.ts`, `throwIfAborted` and
  `awaitOperation` of `src/core/operations.ts`, and the controllers.

  Two things are left open, so that every way they can come out is a run.  What a
  plugin returns is a parameter of the action that calls it, and a pipeline may
  fail at any time.
-/
import PipeX.Core.DataEngine.RequestStore

namespace PipeX

open DataEngine Transition

/-! ## State -/

inductive OperationKind where
  | binary
  | stream
deriving DecidableEq, Repr

/-- The signal of an operation with its registered deadline. -/
structure Signal where
  aborted : Bool
  /-- `Date.now() >= deadline` -/
  deadlinePassed : Bool
  /-- the deadline timers of `awaitOperation` fire -/
  timerFired : Bool
deriving DecidableEq, Repr

/-- Whether `throwIfAborted` throws. -/
def Signal.throws (signal : Signal) : Bool := signal.aborted || signal.deadlinePassed

inductive Cause where
  | abort
  /-- the source, the destination, a limit or a stage -/
  | other
deriving DecidableEq, Repr

/-- What `runPipeline` has come to.  Behind a failure the streams are destroyed. -/
inductive Pipeline where
  | running
  | failed (cause : Cause)
  | completed
deriving DecidableEq, Repr

/-- A call of a controller.  A binary operation has no pipeline and stays at
    `running`. -/
structure Operation where
  kind : OperationKind
  signal : Signal
  pipeline : Pipeline
  /-- `endRequest` or `emitError` has been called -/
  concluded : Bool
deriving DecidableEq, Repr

inductive LoopPhase where
  | awaiting (pending : PromiseId)
  /-- an attempt has failed, and the next one follows without a delay -/
  | caught
  | delaying
  | over
deriving DecidableEq, Repr

/-- A call of `withRetry`, on behalf of a plugin and a request. -/
structure RetryLoop where
  requestId : RequestId
  attempts : Nat
  delayMs : Nat
  /-- the loop variable `i` -/
  attempt : Nat
  phase : LoopPhase
deriving DecidableEq, Repr

/-- A call of `process` or `reverse` that returned, by what it returned. -/
structure Invocation where
  requestId : RequestId
  pending : PromiseId
deriving DecidableEq, Repr

structure System where
  session : Session
  operations : RequestId → Option Operation
  loops : List RetryLoop
  invocations : List Invocation
  settled : Finset PromiseId

/-- What a call of a plugin comes to; a value that is no promise is one that has
    already settled. -/
inductive Outcome where
  | throws
  | returns (pending : PromiseId)
deriving DecidableEq, Repr

structure RetryOptions where
  attempts : Nat
  delayMs : Nat
deriving DecidableEq, Repr

inductive Action where
  /-- a controller begins: `startRequest` -/
  | begin (kind : OperationKind) (requestId : RequestId)
  /-- `withRetry`, up to its first wait -/
  | enter (requestId : RequestId) (options : RetryOptions) (outcome : Outcome)
  /-- a loop goes on to its next attempt -/
  | resume (loop : Nat) (outcome : Outcome)
  /-- a wait ends with the value of the promise -/
  | deliver (loop : Nat)
  /-- a wait ends otherwise -/
  | reject (loop : Nat)
  /-- a loop ends because of its signal -/
  | abandon (loop : Nat)
  | abort (requestId : RequestId)
  | passDeadline (requestId : RequestId)
  | fireTimer (requestId : RequestId)
  /-- a promise settles; its closures follow as calls -/
  | settle (pending : PromiseId)
  | failPipeline (requestId : RequestId) (cause : Cause)
  | completePipeline (requestId : RequestId)
  /-- a controller is done: `endRequest`, or `emitError` with what was thrown -/
  | conclude (requestId : RequestId) (failure : Option Thrown)
  /-- a call that no controller's progress depends on -/
  | call (call : Call)

namespace System

/-- Nothing has begun. -/
def start (engine : DataEngine) : System := ⟨Session.start engine, fun _ => none, [], [], ∅⟩

def engine (s : System) : DataEngine := s.session.engine

/-! ## Steps -/

def perform (s : System) (call : Call) : System := { s with session := s.session.perform call }

def setOperation (s : System) (requestId : RequestId) (operation : Operation) : System :=
  { s with operations := Function.update s.operations requestId (some operation) }

def updateOperation (s : System) (requestId : RequestId) (f : Operation → Operation) : System :=
  match s.operations requestId with
  | some operation => s.setOperation requestId (f operation)
  | none => s

/-- Where a failed attempt leaves the loop: the `catch` of `withRetry`. -/
def afterFailure (signal : Signal) (loop : RetryLoop) : LoopPhase :=
  if signal.throws then .over
  else if loop.attempt + 1 < loop.attempts then
    if loop.delayMs > 0 then .delaying else .caught
  else .over

/-- `awaitOperation(fn(), signal, track)`: the plugin is called, and what it returns
    is tracked before it is waited for.  The loop comes out at its next wait. -/
def attempt (s : System) (signal : Signal) (loop : RetryLoop) (outcome : Outcome) :
    System × RetryLoop :=
  match outcome with
  | .throws => (s, { loop with phase := afterFailure signal loop })
  | .returns pending =>
    ({ s.perform (.trackWork loop.requestId pending) with
        invocations := ⟨loop.requestId, pending⟩ :: s.invocations },
      { loop with phase := .awaiting pending })

def setLoop (s : System) (index : Nat) (loop : RetryLoop) : System :=
  { s with loops := s.loops.set index loop }

/-- The last call of a controller on behalf of its request. -/
def concluding (requestId : RequestId) : Option Thrown → Call
  | none => .endRequest requestId
  | some err => .emitError err requestId

def step (s : System) : Action → System
  | .begin kind requestId =>
    match (startRequest requestId).run s.engine with
    | .ok _ _ =>
      (s.perform (.startRequest requestId)).setOperation requestId
        ⟨kind, ⟨false, false, false⟩, .running, false⟩
    | .error _ _ => s
  | .enter requestId options outcome =>
    match s.operations requestId with
    | some operation =>
      let (s, loop) := s.attempt operation.signal
        ⟨requestId, options.attempts, options.delayMs, 0, .caught⟩ outcome
      { s with loops := s.loops ++ [loop] }
    | none => s
  | .resume index outcome =>
    match s.loops[index]? with
    | some loop =>
      match s.operations loop.requestId with
      | some operation =>
        let (s, loop) := s.attempt operation.signal { loop with attempt := loop.attempt + 1 } outcome
        s.setLoop index loop
      | none => s
    | none => s
  | .deliver index =>
    match s.loops[index]? with
    | some loop => s.setLoop index { loop with phase := .over }
    | none => s
  | .reject index =>
    match s.loops[index]? with
    | some loop =>
      match s.operations loop.requestId with
      | some operation =>
        s.setLoop index { loop with phase := afterFailure operation.signal loop }
      | none => s
    | none => s
  | .abandon index =>
    match s.loops[index]? with
    | some loop => s.setLoop index { loop with phase := .over }
    | none => s
  | .abort requestId =>
    s.updateOperation requestId fun operation =>
      { operation with signal := { operation.signal with aborted := true } }
  | .passDeadline requestId =>
    s.updateOperation requestId fun operation =>
      { operation with signal := { operation.signal with deadlinePassed := true } }
  | .fireTimer requestId =>
    s.updateOperation requestId fun operation =>
      { operation with signal := { operation.signal with timerFired := true } }
  | .settle pending => { s with settled := insert pending s.settled }
  | .failPipeline requestId cause =>
    s.updateOperation requestId fun operation => { operation with pipeline := .failed cause }
  | .completePipeline requestId =>
    s.updateOperation requestId fun operation => { operation with pipeline := .completed }
  | .conclude requestId failure =>
    (s.perform (concluding requestId failure)).updateOperation requestId fun operation =>
      { operation with concluded := true }
  | .call call => s.perform call

/-! ## When a step can be taken -/

/-- No loop of the request is under way. -/
def idle (s : System) (requestId : RequestId) : Bool :=
  s.loops.all fun loop => decide (loop.requestId = requestId → loop.phase = .over)

/-- `withRetry` takes its options. -/
def validOptions (s : System) (options : RetryOptions) : Bool :=
  decide (1 ≤ options.attempts ∧ options.attempts ≤ s.engine.limits.maxRetryAttempts ∧
    options.delayMs ≤ s.engine.limits.maxRetryDelayMs)

/-- A plugin is called only while its operation goes on: by a binary operation one
    after another, and by the stages of a stream until they are destroyed. -/
def canEnter (s : System) (requestId : RequestId) (operation : Operation) : Bool :=
  !operation.concluded && decide (operation.pipeline = .running) && !operation.signal.throws &&
    match operation.kind with
    | .binary => s.idle requestId
    | .stream => true

/-- A binary operation waits for its loops, and a stream for its pipeline. -/
def canConclude (s : System) (requestId : RequestId) (operation : Operation) : Bool :=
  !operation.concluded &&
    match operation.kind with
    | .binary => s.idle requestId
    | .stream => decide (operation.pipeline ≠ .running)

def withLoop (s : System) (index : Nat) (p : RetryLoop → Operation → Bool) : Bool :=
  match s.loops[index]? with
  | some loop => (s.operations loop.requestId).any (p loop)
  | none => false

def enabled (s : System) : Action → Bool
  | .begin _ requestId => decide (requestId ∉ s.session.started)
  | .enter requestId options _ =>
    s.validOptions options && (s.operations requestId).any (s.canEnter requestId)
  | .resume index _ =>
    s.withLoop index fun loop operation =>
      decide (loop.phase = .caught ∨ loop.phase = .delaying) && !operation.signal.throws
  | .deliver index =>
    s.withLoop index fun loop operation =>
      match loop.phase with
      | .awaiting pending => decide (pending ∈ s.settled) && !operation.signal.throws
      | _ => false
  | .reject index =>
    s.withLoop index fun loop operation =>
      match loop.phase with
      | .awaiting pending =>
        decide (pending ∈ s.settled) || operation.signal.aborted || operation.signal.timerFired
      | _ => false
  | .abandon index =>
    s.withLoop index fun loop operation =>
      decide (loop.phase = .caught ∨ loop.phase = .delaying) && operation.signal.throws
  | .abort requestId => (s.operations requestId).isSome
  | .passDeadline requestId => (s.operations requestId).isSome
  | .fireTimer requestId => (s.operations requestId).isSome
  | .settle pending => decide (pending ∉ s.settled)
  | .failPipeline requestId cause =>
    (s.operations requestId).any fun operation =>
      decide (operation.kind = .stream ∧ operation.pipeline = .running) &&
        match cause with
        | .abort => operation.signal.aborted
        | .other => true
  | .completePipeline requestId =>
    s.idle requestId && (s.operations requestId).any fun operation =>
      decide (operation.kind = .stream ∧ operation.pipeline = .running)
  | .conclude requestId _ => (s.operations requestId).any (s.canConclude requestId)
  | .call call =>
    match call with
    | .startRequest _ => false
    | .settled callback => s.session.enabled call && decide (callback.pending ∈ s.settled)
    | .releaseRequest requestId => (s.operations requestId).any Operation.concluded
    | .endRequest requestId => (s.operations requestId).any Operation.concluded
    | .emitError _ requestId => (s.operations requestId).any Operation.concluded
    | _ => s.session.enabled call

end System

/-- The engine with its controllers. -/
def controllers : Machine System Action where
  enabled s action := s.enabled action = true
  step := System.step

instance (s : System) (action : Action) : Decidable (controllers.enabled s action) :=
  inferInstanceAs (Decidable (s.enabled action = true))

end PipeX
