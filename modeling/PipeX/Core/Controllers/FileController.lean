/-
  PipeX.Core.Controllers.FileController

  `process`, `reverse`, `pack` and `unpack` of
  `src/core/controllers/FileController.ts`, over the sessions of
  `src/core/secureFiles.ts`.

  The four methods differ in the stages of their pipelines, which are left open
  here, and in whether they refuse a schema.  An `Action` is one uninterrupted
  stretch of code, and the signal may be aborted or pass its deadline between any
  two of them.
-/
import PipeX.Core.DataEngine.Controllers
import PipeX.Core.SecureFiles.Session

namespace PipeX

open Transition

/-! ## Sessions -/

/-- `AtomicFileSession` of a platform: its states, what may happen to its streams
    between two calls of its methods, and what the output name is bound to. -/
structure SessionKind where
  State : Type
  Event : Type
  streams : Machine State Event
  /-- the destination has finished -/
  written : State → Prop
  commit : State → Except JsError Unit × State
  /-- `dispose`, up to its `await` -/
  dispose : State → State
  /-- what `dispose` waits for has come -/
  resumable : State → Prop
  resume : State → State
  /-- how often the output name has been bound to the file of the session -/
  renames : State → Nat
  streams_renames : ∀ s event, streams.enabled s event → renames (streams.step s event) = renames s
  commit_renames : ∀ s,
    renames (commit s).2 = if (commit s).1 = .ok () then renames s + 1 else renames s
  dispose_renames : ∀ s, renames (dispose s) = renames s
  resume_renames : ∀ s, renames (resume s) = renames s

/-- What `openAtomicFileSession` returns: nothing has been bound yet. -/
abbrev SessionKind.Opened (kind : SessionKind) : Type := { s : kind.State // kind.renames s = 0 }

/-! ## State -/

inductive FileMethod where
  | process
  | reverse
  | pack
  | unpack
deriving DecidableEq, Repr

/-- Object schemas cannot validate raw files. -/
def FileMethod.refusesSchema : FileMethod → Bool
  | process => true
  | reverse => true
  | pack => false
  | unpack => false

/-- How far a call has got. -/
inductive FileProgress where
  /-- `createOperationSignal` has returned -/
  | called
  /-- waits for `run(session.source, session.destination)` -/
  | running
  /-- waits for `session.dispose()`, behind what the `try` block has come to -/
  | disposing (result : Except Cause Unit)
  /-- waits for `awaitOperation(emitAudit(..))` -/
  | auditing
  /-- the wait has ended with the value of the promise -/
  | audited
  | settled (result : Except Cause Unit)

structure FileOperation (kind : SessionKind) where
  signal : Signal
  progress : FileProgress
  session : Option kind.State

namespace FileOperation

variable {kind : SessionKind}

/-- A method has been called. -/
def start (kind : SessionKind) : FileOperation kind := ⟨⟨false, false, false⟩, .called, none⟩

/-- How often the call has bound the output name to a new file. -/
def renames (op : FileOperation kind) : Nat := op.session.elim 0 kind.renames

def settle (op : FileOperation kind) (result : Except Cause Unit) : FileOperation kind :=
  { op with progress := .settled result }

/-! ## Steps -/

/-- The call up to the `await` of `#withAtomicOutput`: whether `startRequest` returns,
    and what `openAtomicFileSession` does. -/
def begin (method : FileMethod) (schema started : Bool) (opened : Option kind.Opened)
    (op : FileOperation kind) : FileOperation kind :=
  if op.signal.throws then op.settle (.error .abort)
  -- `startRequest` throws in front of the `try` block, the rest inside
  else if started = false then op.settle (.error .other)
  else if schema && method.refusesSchema then op.settle (.error .other)
  else
    match opened with
    | none => op.settle (.error .other)
    | some session => { op with progress := .running, session := some session.val }

/-- The `finally` block of `#withAtomicOutput`. -/
def leave (session : kind.State) (result : Except Cause Unit) (op : FileOperation kind) :
    FileOperation kind :=
  { op with progress := .disposing result, session := some (kind.dispose session) }

/-- `#withAtomicOutput` behind `run(..)`. -/
def pipelineSettled (result : Except Cause Unit) (op : FileOperation kind) : FileOperation kind :=
  match op.session with
  | none => op
  | some session =>
    match result with
    | .error cause => op.leave session (.error cause)
    | .ok () =>
      -- the last look at the signal before the output name is bound
      if op.signal.throws then op.leave session (.error .abort)
      else
        match kind.commit session with
        | (.ok (), session) => op.leave session (.ok ())
        | (.error _, session) => op.leave session (.error .other)

/-- The call goes on behind `session.dispose()`, up to the `await` of the audit:
    `awaitOperation` looks at the signal at once. -/
def sessionDisposed (op : FileOperation kind) : FileOperation kind :=
  let op : FileOperation kind := { op with session := op.session.map kind.resume }
  match op.progress with
  | .disposing (.error cause) => op.settle (.error cause)
  | .disposing (.ok ()) =>
    if op.signal.throws then op.settle (.error .abort) else { op with progress := .auditing }
  | _ => op

/-- The promise of `emitAudit` is settled. -/
def auditSettled (logged : Bool) (op : FileOperation kind) : FileOperation kind :=
  if logged = false then op.settle (.error .other)
  else if op.signal.throws then op.settle (.error .abort)
  else { op with progress := .audited }

/-- The end of the `try` block: `throwIfAborted` and `endRequest`. -/
def conclude (op : FileOperation kind) : FileOperation kind :=
  if op.signal.throws then op.settle (.error .abort) else op.settle (.ok ())

/-- A listener or a timer of `awaitOperation` is called. -/
def interrupt (op : FileOperation kind) : FileOperation kind :=
  match op.progress with
  | .auditing => op.settle (.error .abort)
  | _ => op

/-! ## Runs -/

inductive Action (kind : SessionKind) where
  | begin (started : Bool) (opened : Option kind.Opened)
  | stream (event : kind.Event)
  | pipelineSettled (result : Except Cause Unit)
  | sessionDisposed
  | auditSettled (logged : Bool)
  | conclude
  | abort
  | passDeadline
  | fireTimer

def step (method : FileMethod) (schema : Bool) (op : FileOperation kind) :
    Action kind → FileOperation kind
  | .begin started opened => op.begin method schema started opened
  | .stream event => { op with session := op.session.map fun s => kind.streams.step s event }
  | .pipelineSettled result => op.pipelineSettled result
  | .sessionDisposed => op.sessionDisposed
  | .auditSettled logged => op.auditSettled logged
  | .conclude => op.conclude
  | .abort => interrupt { op with signal := { op.signal with aborted := true } }
  | .passDeadline => { op with signal := { op.signal with deadlinePassed := true } }
  | .fireTimer => interrupt { op with signal := { op.signal with timerFired := true } }

/-- A pipeline resolves when its destination has finished, and only a signal that is
    aborted or late makes it fail as such. -/
def enabled (op : FileOperation kind) : Action kind → Prop
  | .begin _ _ => op.progress = .called
  | .stream event => ∃ s, op.session = some s ∧ kind.streams.enabled s event
  | .pipelineSettled result =>
    op.progress = .running ∧
      match result with
      | .ok () => ∃ s, op.session = some s ∧ kind.written s
      | .error .abort => op.signal.throws = true
      | .error .other => True
  | .sessionDisposed =>
    (∃ result, op.progress = .disposing result) ∧ ∃ s, op.session = some s ∧ kind.resumable s
  | .auditSettled _ => op.progress = .auditing
  | .conclude => op.progress = .audited
  | .fireTimer => op.signal.deadlinePassed = true
  | _ => True

def machine (kind : SessionKind) (method : FileMethod) (schema : Bool) :
    Machine (FileOperation kind) (Action kind) where
  enabled := enabled
  step := step method schema

end FileOperation
end PipeX
