/-
  PipeX.Core.ResourceLimits

  `src/core/resourceLimits.ts`: the engine limits, their defaults and the two
  limits a plugin reads.
-/
import Mathlib.Data.Nat.Basic

namespace PipeX

/-- `EngineLimits`; the engine admits non-negative safe integers only. -/
structure EngineLimits where
  maxInputBytes : Nat
  maxOutputBytes : Nat
  maxFrameBytes : Nat
  maxFrames : Nat
  maxConcurrentOperations : Nat
  operationTimeoutMs : Nat
  maxRetryAttempts : Nat
  maxRetryDelayMs : Nat
  maxKmsEncryptedKeyBytes : Nat
  maxKmsKeyIdBytes : Nat
deriving DecidableEq, Repr

/-- `DEFAULT_LIMITS`. -/
def defaultLimits : EngineLimits where
  maxInputBytes := 64 * 1024 * 1024
  maxOutputBytes := 256 * 1024 * 1024
  maxFrameBytes := 8 * 1024 * 1024
  maxFrames := 100000
  maxConcurrentOperations := 32
  operationTimeoutMs := 5 * 60000
  maxRetryAttempts := 5
  maxRetryDelayMs := 30000
  maxKmsEncryptedKeyBytes := 64 * 1024
  maxKmsKeyIdBytes := 512

/-- Maximum buffer a plugin can receive: external input or prior plugin output.
    The argument is `context?.limits`. -/
def pluginInputLimit (limits : Option EngineLimits) : Nat :=
  let limits := limits.getD defaultLimits
  max limits.maxInputBytes limits.maxOutputBytes

/-- Maximum buffer a plugin may produce. -/
def pluginOutputLimit (limits : Option EngineLimits) : Nat :=
  (limits.map (·.maxOutputBytes)).getD defaultLimits.maxOutputBytes

/-- A plugin may always receive what the plugin before it may produce. -/
theorem pluginOutputLimit_le_pluginInputLimit (limits : Option EngineLimits) :
    pluginOutputLimit limits ≤ pluginInputLimit limits := by
  cases limits with
  | none => exact Nat.le_max_right _ _
  | some l => exact Nat.le_max_right _ _

end PipeX
