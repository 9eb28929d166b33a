/-
  PipeX.Core.Runtime

  The JavaScript and Node primitives the modelled code rests on: numbers as the
  option checks see them, and the bytes of a `Buffer`.
-/
import Mathlib.Data.List.Basic
import Mathlib.Tactic.Common

namespace PipeX

/-! ## Numbers -/

/-- `Number.MAX_SAFE_INTEGER`, which is 2⁵³ − 1. -/
def maxSafeInteger : Nat := 9007199254740991

/-- A number as the option checks see it: an integer, or a value that is none
    (a fraction, an infinity or NaN). -/
inductive JsNumber where
  | integer (n : Int)
  | nonInteger
deriving DecidableEq, Repr

/-- `Number.isSafeInteger`. -/
def JsNumber.isSafeInteger : JsNumber → Bool
  | .integer n => decide (-(maxSafeInteger : Int) ≤ n ∧ n ≤ maxSafeInteger)
  | .nonInteger => false

/-! ## Buffers -/

/-- The bytes of a `Buffer`. -/
abbrev Bytes := List UInt8

/-- The bytes of a single `Buffer`, whose length is a safe integer. -/
abbrev Buffer : Type := { bytes : Bytes // bytes.length ≤ maxSafeInteger }

/-- `Buffer.concat(list, totalLength)`: the concatenation, cut off or padded with
    zeros to the given length. -/
def bufferConcat (list : List Bytes) (totalLength : Nat) : Bytes :=
  list.flatten.take totalLength ++ List.replicate (totalLength - list.flatten.length) 0

/-- With the exact length, nothing is cut off or padded. -/
theorem bufferConcat_eq_flatten {list : List Bytes} {totalLength : Nat}
    (h : list.flatten.length = totalLength) : bufferConcat list totalLength = list.flatten := by
  subst h
  rw [bufferConcat, List.take_length, Nat.sub_self, List.replicate_zero, List.append_nil]

end PipeX
