/-
  PipeX.Core.Errors

  The errors the modelled code throws: a plain `Error` with a message, and the
  typed errors of `src/core/errors.ts` with their fixed codes and messages.
-/
namespace PipeX

/-- A thrown value, by what a caller can tell apart. -/
structure JsError where
  name : String
  code : Option String
  message : String
deriving DecidableEq, Repr

/-- `new Error(message)`. -/
def plainError (message : String) : JsError := ⟨"Error", none, message⟩

/-- `new InvalidKeyError()`. -/
def invalidKeyError : JsError :=
  ⟨"InvalidKeyError", some "INVALID_ENCRYPTION_KEY",
    "[PipeX] Encryption key must be a 32-byte Buffer"⟩

/-- `new AuthenticationError()`. -/
def authenticationError : JsError :=
  ⟨"AuthenticationError", some "ENCRYPTION_AUTHENTICATION_FAILED",
    "[PipeX] Encrypted data authentication failed"⟩

/-- `new EncryptionError(message)`. -/
def encryptionError (message : String) : JsError :=
  ⟨"EncryptionError", some "ENCRYPTION_ERROR", message⟩

/-- `new OperationAbortedError()`. -/
def operationAbortedError : JsError :=
  ⟨"OperationAbortedError", some "OPERATION_ABORTED", "[PipeX] Operation aborted"⟩

/-- `new OperationTimeoutError()`. -/
def operationTimeoutError : JsError :=
  ⟨"OperationTimeoutError", some "OPERATION_TIMEOUT", "[PipeX] Operation timed out"⟩

/-- `new UnsupportedReverseError(plugin)`. -/
def unsupportedReverseError (plugin : String) : JsError :=
  ⟨"UnsupportedReverseError", some "UNSUPPORTED_REVERSE",
    s!"[PipeX] Plugin {plugin} does not support reverse operations"⟩

/-- `new UnsupportedStreamingError(plugin)`. -/
def unsupportedStreamingError (plugin : String) : JsError :=
  ⟨"UnsupportedStreamingError", some "UNSUPPORTED_STREAMING",
    s!"[PipeX] Plugin {plugin} does not support stream operations"⟩

/-- `new WorkerPoolClosedError()`. -/
def workerPoolClosedError : JsError :=
  ⟨"WorkerPoolClosedError", some "WORKER_POOL_CLOSED", "[PipeX] Worker pool is closed"⟩

/-- `new WorkerQueueFullError(maxQueue)`. -/
def workerQueueFullError (maxQueue : Nat) : JsError :=
  ⟨"WorkerQueueFullError", some "WORKER_QUEUE_FULL",
    s!"[PipeX] Worker queue is full (maximum {maxQueue} waiting tasks)"⟩

/-- `new WorkerPoolCloseError()`. -/
def workerPoolCloseError : JsError :=
  ⟨"WorkerPoolCloseError", some "WORKER_POOL_CLOSE_FAILURE",
    "[PipeX] Worker pool failed to close cleanly"⟩

/-- `new WorkerTaskError(taskName)`. -/
def workerTaskError (taskName : String) : JsError :=
  ⟨"WorkerTaskError", some "WORKER_TASK_FAILURE", s!"[PipeX] Worker task {taskName} failed"⟩

/-- What Node's `buf.writeUIntBE` family throws for a value outside the field. -/
def rangeError : JsError :=
  ⟨"RangeError", some "ERR_OUT_OF_RANGE", "The value of \"value\" is out of range."⟩

end PipeX
