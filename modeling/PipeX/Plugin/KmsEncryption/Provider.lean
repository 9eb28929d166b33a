/-
  PipeX.Plugin.KmsEncryption.Provider

  The provider of `KmsEncryptionPlugin`, and `callProvider` of
  `src/plugin/kms_encryption.ts`, by what a call comes to.

  Sources: `src/core/kmsCapabilities.ts`, and `abortable`, `providerControl`,
  `sanitizeProviderError` and `callProvider` of `src/plugin/kms_encryption.ts`.
-/
import PipeX.Core.DataEngine.Limits
import PipeX.Core.Plugin

namespace PipeX.KmsEncryption

/-! ## Operations -/

inductive KmsOperation where
  | encrypt
  | decrypt
  | generateDataKey
deriving DecidableEq, Repr

def KmsOperation.text : KmsOperation → String
  | .encrypt => "encrypt"
  | .decrypt => "decrypt"
  | .generateDataKey => "generateDataKey"

/-- `OPERATIONS`. -/
def operations : List KmsOperation := [.encrypt, .decrypt, .generateDataKey]

/-! ## Errors -/

inductive InvalidKmsProviderCapabilityIssue where
  | mustBeBoolean
  | missingImplementation
deriving DecidableEq, Repr

def InvalidKmsProviderCapabilityIssue.details : InvalidKmsProviderCapabilityIssue → String
  | .mustBeBoolean => "must be a boolean when declared"
  | .missingImplementation => "is declared but its implementation is missing"

/-- `new InvalidKmsProviderCapabilityError(operation, issue)`. -/
def invalidKmsProviderCapabilityError (operation : KmsOperation)
    (issue : InvalidKmsProviderCapabilityIssue) : JsError :=
  ⟨"InvalidKmsProviderCapabilityError", some "INVALID_KMS_PROVIDER_CAPABILITY",
    s!"[PipeX] Invalid KMS {operation.text} capability: {issue.details}"⟩

/-- `new UnsupportedKmsOperationError(operation)`. -/
def unsupportedKmsOperationError (operation : KmsOperation) : JsError :=
  ⟨"UnsupportedKmsOperationError", some "UNSUPPORTED_KMS_OPERATION",
    s!"[PipeX] KMS provider does not support {operation.text}"⟩

/-- `new KmsProviderError(operation)`. -/
def kmsProviderError (operation : KmsOperation) : JsError :=
  ⟨"KmsProviderError", some "KMS_PROVIDER_FAILURE", s!"[PipeX] KMS {operation.text} failed"⟩

/-- `new KmsProviderAuthenticationError(operation)`. -/
def kmsProviderAuthenticationError (operation : KmsOperation) : JsError :=
  ⟨"KmsProviderAuthenticationError", some "KMS_PROVIDER_AUTHENTICATION_FAILED",
    s!"[PipeX] KMS {operation.text} authentication failed"⟩

/-- `new KmsProviderUnavailableError(operation)`. -/
def kmsProviderUnavailableError (operation : KmsOperation) : JsError :=
  ⟨"KmsProviderUnavailableError", some "KMS_PROVIDER_UNAVAILABLE",
    s!"[PipeX] KMS {operation.text} provider unavailable"⟩

/-- `new KmsAuthenticationError()`. -/
def kmsAuthenticationError : JsError :=
  ⟨"KmsAuthenticationError", some "KMS_AUTHENTICATION_FAILED",
    "[PipeX] KMS envelope authentication failed"⟩

/-! ## Providers -/

/-- What a provider rejects with, as far as `sanitizeProviderError` tells apart. -/
inductive ProviderRejection where
  | operationAborted
  | operationTimeout
  | authentication
  | unavailable
  | other
deriving DecidableEq, Repr

/-- What waiting for a provider comes to. -/
inductive ProviderOutcome (α : Type) where
  | resolves (value : α)
  | rejects (reason : ProviderRejection)
  /-- the signal of the caller aborts first -/
  | aborted
  /-- the provider deadline passes first -/
  | timedOut
deriving Repr

/-- What `generateDataKey` resolves with; a property is `none` where it is not a
    `Buffer`. -/
structure DataKey where
  plaintext : Option Bytes
  ciphertext : Option Bytes
deriving DecidableEq, Repr

structure KmsProvider where
  /-- `provider.capabilities?.[operation]` -/
  declared : KmsOperation → Declared
  /-- `typeof provider[operation] === 'function'` -/
  implemented : KmsOperation → Bool
  generateDataKey : (keyId : String) → ProviderOutcome DataKey
  decrypt : (encryptedKey : Bytes) → (keyId : String) → ProviderOutcome (Option Bytes)

/-- One turn of the loop of `getKmsProviderCapabilities`. -/
def capability (provider : KmsProvider) (operation : KmsOperation) : Except JsError Bool :=
  match provider.declared operation with
  | .other => .error (invalidKmsProviderCapabilityError operation .mustBeBoolean)
  | .boolean true =>
    if provider.implemented operation then .ok true
    else .error (invalidKmsProviderCapabilityError operation .missingImplementation)
  | .boolean false => .ok false
  | .undefined => .ok (provider.implemented operation)

def getKmsProviderCapabilities (provider : KmsProvider) :
    Except JsError (KmsOperation → Bool) := do
  let encrypt ← capability provider .encrypt
  let decrypt ← capability provider .decrypt
  let generateDataKey ← capability provider .generateDataKey
  return fun
    | .encrypt => encrypt
    | .decrypt => decrypt
    | .generateDataKey => generateDataKey

def assertKmsOperation (provider : KmsProvider) (operation : KmsOperation) : Except JsError Unit := do
  let capabilities ← getKmsProviderCapabilities provider
  if capabilities operation = false then
    throw (unsupportedKmsOperationError operation)

/-! ## Calls -/

/-- The check of `providerControl`; the argument is `context.limits`. -/
def checkTimeout (limits : Option EngineLimits) : Except JsError Unit :=
  let timeoutMs := (limits.map (·.operationTimeoutMs)).getD defaultLimits.operationTimeoutMs
  if timeoutMs > maxTimerMs then .error (plainError "[PipeX] Invalid KMS provider timeout")
  else .ok ()

def sanitizeProviderError (operation : KmsOperation) : ProviderRejection → JsError
  | .operationAborted => operationAbortedError
  | .operationTimeout => operationTimeoutError
  | .authentication => kmsProviderAuthenticationError operation
  | .unavailable => kmsProviderUnavailableError operation
  | .other => kmsProviderError operation

def callProvider {α : Type} (provider : KmsProvider) (operation : KmsOperation)
    (limits : Option EngineLimits) (outcome : ProviderOutcome α) : Except JsError α := do
  assertKmsOperation provider operation
  checkTimeout limits
  match outcome with
  | .resolves value => return value
  | .rejects reason => throw (sanitizeProviderError operation reason)
  | .aborted => throw operationAbortedError
  | .timedOut => throw operationTimeoutError

/-- A call returns what the provider resolves with, and nothing else. -/
theorem callProvider_ok_iff {α : Type} {provider : KmsProvider} {operation : KmsOperation}
    {limits : Option EngineLimits} {outcome : ProviderOutcome α} {value : α} :
    callProvider provider operation limits outcome = .ok value ↔
      assertKmsOperation provider operation = .ok () ∧ checkTimeout limits = .ok () ∧
        outcome = .resolves value := by
  unfold callProvider
  cases hassert : assertKmsOperation provider operation with
  | error e => simp [bind, Except.bind]
  | ok _ =>
    cases htimeout : checkTimeout limits with
    | error e => simp [bind, Except.bind]
    | ok _ =>
      cases outcome <;>
        simp [bind, Except.bind, pure, Except.pure, throw, throwThe, MonadExceptOf.throw]

end PipeX.KmsEncryption
