/-
  PipeX.Core.SecureFiles.Session

  The session that `openPosix` of `src/core/secureFiles.ts` returns: its streams
  `source` and `destination`, `commit` and `dispose`.

  An `Action` is one uninterrupted stretch of code, or the end of a native call.
  What native calls come to is left open, and so is when.  Node calls `_read` and
  `_write` of a stream only as long as it is not destroyed, and `_write` only when
  the callback of the one before it has been called.
-/
import PipeX.Core.Runtime
import PipeX.Core.SecureFiles.Posix
import PipeX.Lib.Tracker
import PipeX.Lib.Transition

namespace PipeX

open Transition

/-! ## State -/

/-- `DEFAULT_HIGH_WATER`. -/
def defaultHighWater : Nat := 64 * 1024

/-- A call of `_read` between its `io` and `reading = false`. -/
structure Reading where
  task : Nat
  /-- what the promise of `io` has been settled with -/
  result : Option (Except JsError Bytes)

inductive WriteProgress where
  /-- the native call is under way -/
  | running (task : Nat)
  /-- the promise of `io` has been settled -/
  | returned (task : Nat) (result : Except JsError Nat)
  /-- the promise `work` has been settled -/
  | finished (outcome : Except JsError Unit)

/-- A call of `_write` between its beginning and its callback. -/
structure Writing where
  chunk : Bytes
  offset : Nat
  work : Nat
  progress : WriteProgress

structure AtomicFileSession where
  handles : Posix.Handles
  posix : Posix
  /-- `pending`, and which of the promises have been settled -/
  pending : Tracker
  reading : Option Reading
  writing : Option Writing
  sourceDestroyed : Bool
  destinationDestroyed : Bool
  disposed : Bool
  /-- `[...pending]` in `dispose` -/
  awaited : List Nat
  /-- `dispose` has resolved -/
  resolved : Bool
  /-- what the source has been pushed; `null` is empty -/
  pushed : List Bytes
  /-- the chunks handed to `_write` -/
  chunks : List Bytes
  /-- what the callbacks of `_write` have been called with -/
  callbacks : List (Except JsError Unit)
  /-- of the file behind `outputFD` -/
  content : Bytes

namespace AtomicFileSession

/-- The session behind `openPosix`. -/
def new (handles : Posix.Handles) (posix : Posix) : AtomicFileSession where
  handles := handles
  posix := posix
  pending := Tracker.new
  reading := none
  writing := none
  sourceDestroyed := false
  destinationDestroyed := false
  disposed := false
  awaited := []
  resolved := false
  pushed := []
  chunks := []
  callbacks := []
  content := []

/-- What `io` rejects with. -/
def ioError : JsError := plainError "[PipeX] Secure relative file I/O failed"

/-! ## source -/

/-- `_read`. -/
def read (s : AtomicFileSession) : AtomicFileSession :=
  match s.reading with
  -- the variable `reading` is set
  | some _ => s
  | none => { s with pending := s.pending.track, reading := some ⟨s.pending.next, none⟩ }

/-- The native read comes back, with bytes or an error. -/
def readReturned (data : Option Bytes) (s : AtomicFileSession) : AtomicFileSession :=
  match s.reading with
  | some ⟨task, none⟩ =>
    { s with
      pending := s.pending.settle task
      reading := some ⟨task, some (data.elim (.error ioError) .ok)⟩ }
  | _ => s

/-- The reactions to the promise of a read. -/
def readSettled (s : AtomicFileSession) : AtomicFileSession :=
  match s.reading with
  | some ⟨task, some result⟩ =>
    let s : AtomicFileSession := { s with pending := s.pending.forget task, reading := none }
    match result with
    | .ok data => if s.sourceDestroyed then s else { s with pushed := s.pushed ++ [data] }
    -- `this.destroy(error)`
    | .error _ => { s with sourceDestroyed := true }
  | _ => s

/-! ## destination -/

/-- The end of `work`. -/
def finish (chunk : Bytes) (offset work : Nat) (outcome : Except JsError Unit)
    (s : AtomicFileSession) : AtomicFileSession :=
  { s with
    pending := s.pending.settle work
    writing := some ⟨chunk, offset, work, .finished outcome⟩ }

/-- The `while` loop of `work`, up to its next `await`. -/
def writeLoop (chunk : Bytes) (offset work : Nat) (s : AtomicFileSession) : AtomicFileSession :=
  if offset < chunk.length then
    if s.disposed then
      finish chunk offset work
        (.error (plainError "[PipeX] Secure file write after disposal failed")) s
    else
      { s with
        pending := s.pending.track
        writing := some ⟨chunk, offset, work, .running s.pending.next⟩ }
  else
    finish chunk offset work (.ok ()) s

/-- `_write`. -/
def write (chunk : Bytes) (s : AtomicFileSession) : AtomicFileSession :=
  -- `work` runs to its first `await` at once
  writeLoop chunk 0 s.pending.next
    { s with pending := s.pending.track, chunks := s.chunks ++ [chunk] }

/-- The native write comes back, with a count or an error. -/
def writeReturned (count : Option Nat) (s : AtomicFileSession) : AtomicFileSession :=
  match s.writing with
  | some ⟨chunk, offset, work, .running task⟩ =>
    { s with
      pending := s.pending.settle task
      writing := some ⟨chunk, offset, work, .returned task (count.elim (.error ioError) .ok)⟩
      content := s.content ++ (chunk.drop offset).take (count.getD 0) }
  | _ => s

/-- `work` goes on behind its `await`. -/
def writeSettled (s : AtomicFileSession) : AtomicFileSession :=
  match s.writing with
  | some ⟨chunk, offset, work, .returned task result⟩ =>
    let s : AtomicFileSession := { s with pending := s.pending.forget task }
    match result with
    -- a write that makes no progress would never end
    | .ok 0 =>
      finish chunk offset work
        (.error (plainError "[PipeX] Secure file relative write progress failed")) s
    | .ok count => writeLoop chunk (offset + count) work s
    | .error error => finish chunk offset work (.error error) s
  | _ => s

/-- The reactions to `work`: Node destroys a stream whose callback gets an error. -/
def callback (s : AtomicFileSession) : AtomicFileSession :=
  match s.writing with
  | some ⟨_, _, work, .finished outcome⟩ =>
    { s with
      pending := s.pending.forget work
      writing := none
      callbacks := s.callbacks ++ [outcome]
      destinationDestroyed := s.destinationDestroyed || !outcome.isOk }
  | _ => s

/-! ## commit and dispose -/

section

variable (natives : Natives) (output : FilePath) (temporary : String)

/-- What `commit` comes to. -/
def commitOutcome (s : AtomicFileSession) : Except JsError Unit :=
  match (Posix.commit natives output s.disposed).run s.posix with
  | .ok () _ => .ok ()
  | .error error _ => .error error

def commit (s : AtomicFileSession) : AtomicFileSession :=
  match (Posix.commit natives output s.disposed).run s.posix with
  | .ok () posix => { s with posix := posix }
  | .error _ posix => { s with posix := posix }

/-- `dispose`, up to its `await`; a further call returns at once. -/
def dispose (s : AtomicFileSession) : AtomicFileSession :=
  if s.disposed then s
  else
    { s with
      disposed := true
      sourceDestroyed := true
      destinationDestroyed := true
      awaited := s.pending.pending }

/-- `dispose` goes on behind `Promise.allSettled`. -/
def disposeSettled (s : AtomicFileSession) : AtomicFileSession :=
  { s with posix := Posix.cleanup natives temporary s.posix, resolved := true }

/-! ## Runs -/

inductive Action where
  | read
  | readReturned (data : Option Bytes)
  | readSettled
  | write (chunk : Bytes)
  | writeReturned (count : Option Nat)
  | writeSettled
  | callback
  | destroySource
  | destroyDestination
  | commit
  | dispose
  | disposeSettled

def step (s : AtomicFileSession) : Action → AtomicFileSession
  | .read => s.read
  | .readReturned data => s.readReturned data
  | .readSettled => s.readSettled
  | .write chunk => s.write chunk
  | .writeReturned count => s.writeReturned count
  | .writeSettled => s.writeSettled
  | .callback => s.callback
  | .destroySource => { s with sourceDestroyed := true }
  | .destroyDestination => { s with destinationDestroyed := true }
  | .commit => s.commit natives output
  | .dispose => s.dispose
  | .disposeSettled => s.disposeSettled natives temporary

/-- A native call transfers no more than its buffer holds. -/
def enabled (s : AtomicFileSession) : Action → Prop
  | .read => s.sourceDestroyed = false
  | .readReturned data =>
    (∃ task, s.reading = some ⟨task, none⟩) ∧ (data.getD []).length ≤ defaultHighWater
  | .readSettled => ∃ task result, s.reading = some ⟨task, some result⟩
  | .write _ => s.destinationDestroyed = false ∧ s.writing = none
  | .writeReturned count =>
    ∃ chunk offset work task, s.writing = some ⟨chunk, offset, work, .running task⟩ ∧
      count.getD 0 ≤ (chunk.drop offset).length
  | .writeSettled =>
    ∃ chunk offset work task result,
      s.writing = some ⟨chunk, offset, work, .returned task result⟩
  | .callback =>
    ∃ chunk offset work outcome, s.writing = some ⟨chunk, offset, work, .finished outcome⟩
  | .disposeSettled =>
    s.disposed = true ∧ s.resolved = false ∧ ∀ id ∈ s.awaited, id ∈ s.pending.settled
  | _ => True

def machine : Machine AtomicFileSession Action where
  enabled := enabled
  step := step natives output temporary

end

end AtomicFileSession
end PipeX
