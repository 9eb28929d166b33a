/-
  PipeX.Core.DataEngine.Limits

  `#validateLimits` of `src/core/dataEngine.ts`, and the records it checks: the
  limits in force with those of a caller written over them.
-/
import Mathlib.Algebra.Order.Ring.Nat
import PipeX.Core.Errors
import PipeX.Core.ResourceLimits
import PipeX.Core.Runtime

namespace PipeX

/-- The properties of `EngineLimits`, in the order `Object.entries` has them. -/
inductive LimitName where
  | maxInputBytes
  | maxOutputBytes
  | maxFrameBytes
  | maxFrames
  | maxConcurrentOperations
  | operationTimeoutMs
  | maxRetryAttempts
  | maxRetryDelayMs
  | maxKmsEncryptedKeyBytes
  | maxKmsKeyIdBytes
deriving DecidableEq, Repr

namespace LimitName

def all : List LimitName :=
  [maxInputBytes, maxOutputBytes, maxFrameBytes, maxFrames, maxConcurrentOperations,
    operationTimeoutMs, maxRetryAttempts, maxRetryDelayMs, maxKmsEncryptedKeyBytes,
    maxKmsKeyIdBytes]

theorem mem_all (name : LimitName) : name ∈ all := by
  cases name <;> decide

def text : LimitName → String
  | maxInputBytes => "maxInputBytes"
  | maxOutputBytes => "maxOutputBytes"
  | maxFrameBytes => "maxFrameBytes"
  | maxFrames => "maxFrames"
  | maxConcurrentOperations => "maxConcurrentOperations"
  | operationTimeoutMs => "operationTimeoutMs"
  | maxRetryAttempts => "maxRetryAttempts"
  | maxRetryDelayMs => "maxRetryDelayMs"
  | maxKmsEncryptedKeyBytes => "maxKmsEncryptedKeyBytes"
  | maxKmsKeyIdBytes => "maxKmsKeyIdBytes"

end LimitName

/-! ## Limits by name -/

def EngineLimits.value (limits : EngineLimits) : LimitName → Nat
  | .maxInputBytes => limits.maxInputBytes
  | .maxOutputBytes => limits.maxOutputBytes
  | .maxFrameBytes => limits.maxFrameBytes
  | .maxFrames => limits.maxFrames
  | .maxConcurrentOperations => limits.maxConcurrentOperations
  | .operationTimeoutMs => limits.operationTimeoutMs
  | .maxRetryAttempts => limits.maxRetryAttempts
  | .maxRetryDelayMs => limits.maxRetryDelayMs
  | .maxKmsEncryptedKeyBytes => limits.maxKmsEncryptedKeyBytes
  | .maxKmsKeyIdBytes => limits.maxKmsKeyIdBytes

def EngineLimits.ofValues (value : LimitName → Nat) : EngineLimits where
  maxInputBytes := value .maxInputBytes
  maxOutputBytes := value .maxOutputBytes
  maxFrameBytes := value .maxFrameBytes
  maxFrames := value .maxFrames
  maxConcurrentOperations := value .maxConcurrentOperations
  operationTimeoutMs := value .operationTimeoutMs
  maxRetryAttempts := value .maxRetryAttempts
  maxRetryDelayMs := value .maxRetryDelayMs
  maxKmsEncryptedKeyBytes := value .maxKmsEncryptedKeyBytes
  maxKmsKeyIdBytes := value .maxKmsKeyIdBytes

@[simp] theorem EngineLimits.value_ofValues (value : LimitName → Nat) (name : LimitName) :
    (EngineLimits.ofValues value).value name = value name := by
  cases name <;> rfl

/-- `Partial<EngineLimits>`; a property may be missing, and it may be any number. -/
abbrev PartialLimits : Type := LimitName → Option JsNumber

/-- `{ ...current, ...limits }`. -/
def EngineLimits.override (current : EngineLimits) (limits : PartialLimits) :
    LimitName → JsNumber :=
  fun name => (limits name).getD (.integer (current.value name))

/-! ## The check -/

/-- `MAX_TIMER_MS`. -/
def maxTimerMs : Nat := 0x7fffffff

/-- The value of a number that is known to be a non-negative integer. -/
def JsNumber.toNat : JsNumber → Nat
  | .integer n => n.toNat
  | .nonInteger => 0

/-- `Number.isSafeInteger(value) && value >= 0`. -/
def JsNumber.isLimit (value : JsNumber) : Bool :=
  value.isSafeInteger &&
    match value with
    | .integer n => decide (0 ≤ n)
    | .nonInteger => false

/-- Limits that may not be zero. -/
def positiveLimits : List LimitName :=
  [.maxInputBytes, .maxOutputBytes, .maxFrameBytes, .maxFrames, .maxConcurrentOperations,
    .maxRetryAttempts, .maxKmsEncryptedKeyBytes, .maxKmsKeyIdBytes]

def validateLimits (limits : LimitName → JsNumber) : Except JsError Unit := do
  match LimitName.all.find? fun name => !(limits name).isLimit with
  | some name => throw (plainError s!"[PipeX] Invalid engine limit {name.text}")
  | none => pure ()
  if positiveLimits.any fun name => (limits name).toNat < 1 then
    throw (plainError "[PipeX] Engine limits must be positive")
  if (limits .operationTimeoutMs).toNat > maxTimerMs ∨
      (limits .maxKmsEncryptedKeyBytes).toNat > 0xffffffff then
    throw (plainError "[PipeX] Engine limit exceeds its supported protocol or timer range")

/-- The limits an engine can have. -/
structure EngineLimits.Valid (limits : EngineLimits) : Prop where
  safe : ∀ name, limits.value name ≤ maxSafeInteger
  positive : ∀ name ∈ positiveLimits, 1 ≤ limits.value name
  timer : limits.operationTimeoutMs ≤ maxTimerMs
  keyBytes : limits.maxKmsEncryptedKeyBytes ≤ 0xffffffff

/-- A limits object that an engine has accepted. -/
abbrev AcceptedLimits : Type := { limits : EngineLimits // limits.Valid }

theorem isLimit_toNat_le {value : JsNumber} (h : value.isLimit = true) :
    value.toNat ≤ maxSafeInteger := by
  cases value with
  | nonInteger => cases h
  | integer n =>
    simp only [JsNumber.isLimit, JsNumber.isSafeInteger, Bool.and_eq_true, decide_eq_true_eq] at h
    show n.toNat ≤ maxSafeInteger
    omega

/-- Limits that pass the check are valid, and none of their values is lost. -/
theorem validateLimits_ok {limits : LimitName → JsNumber} (h : validateLimits limits = .ok ()) :
    (∀ name, limits name = .integer (limits name).toNat) ∧
      (EngineLimits.ofValues fun name => (limits name).toNat).Valid := by
  simp only [validateLimits, bind, Except.bind, throw, throwThe, MonadExceptOf.throw] at h
  split at h
  · cases h
  rename_i hall
  have hlimit : ∀ name, (limits name).isLimit = true := by
    intro name
    have hname := List.find?_eq_none.mp hall name (LimitName.mem_all name)
    simpa using hname
  split at h
  · cases h
  rename_i hpositive
  split at h
  · cases h
  rename_i hrange
  refine ⟨fun name => ?_, ?_, ?_, ?_, ?_⟩
  · have hname := hlimit name
    cases hvalue : limits name with
    | nonInteger =>
      rw [hvalue] at hname
      cases hname
    | integer n =>
      rw [hvalue] at hname
      simp only [JsNumber.isLimit, Bool.and_eq_true, decide_eq_true_eq] at hname
      rw [JsNumber.toNat, Int.toNat_of_nonneg hname.2]
  · intro name
    rw [EngineLimits.value_ofValues]
    exact isLimit_toNat_le (hlimit name)
  · intro name hname
    rw [EngineLimits.value_ofValues]
    by_contra hzero
    apply hpositive
    exact List.any_eq_true.mpr ⟨name, hname, by simpa using hzero⟩
  · show (limits .operationTimeoutMs).toNat ≤ maxTimerMs
    omega
  · show (limits .maxKmsEncryptedKeyBytes).toNat ≤ 0xffffffff
    omega

/-- Every default passes the check. -/
theorem validateLimits_default :
    validateLimits (defaultLimits.override fun _ => none) = .ok () := by
  decide +kernel

theorem defaultLimits_valid : defaultLimits.Valid :=
  (validateLimits_ok validateLimits_default).2

/-! ## Limits as safe integers -/

theorem EngineLimits.Valid.lt_two_pow {limits : EngineLimits} (h : limits.Valid)
    (name : LimitName) : limits.value name < 2 ^ 53 := by
  have hsafe := h.safe name
  simp only [maxSafeInteger] at hsafe
  omega

/-- The limits in force without a context are those of an engine, too. -/
theorem getD_lt_two_pow (limits : Option AcceptedLimits) (name : LimitName) :
    ((limits.map Subtype.val).getD defaultLimits).value name < 2 ^ 53 := by
  cases limits with
  | none => exact defaultLimits_valid.lt_two_pow name
  | some limits => exact limits.property.lt_two_pow name

theorem pluginInputLimit_lt_two_pow (limits : Option AcceptedLimits) :
    pluginInputLimit (limits.map Subtype.val) < 2 ^ 53 :=
  max_lt (getD_lt_two_pow limits .maxInputBytes) (getD_lt_two_pow limits .maxOutputBytes)

theorem pluginOutputLimit_lt_two_pow (limits : Option AcceptedLimits) :
    pluginOutputLimit (limits.map Subtype.val) < 2 ^ 53 := by
  cases limits with
  | none => decide
  | some limits => exact limits.property.lt_two_pow .maxOutputBytes

end PipeX
