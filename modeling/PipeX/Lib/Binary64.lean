/-
  PipeX.Lib.Binary64

  Doubles that are non-negative integers, infinity or no number.

  * `nearest` rounds to 53 significant bits, ties to even; `round` overflows to
    infinity from 2^1024 on.
  * `round_mul_two_pow` — a number of 53 bits times a power of two is not rounded, it
    is kept or overflows.
-/
import Mathlib.Algebra.GroupWithZero.Nat
import Mathlib.Data.Nat.Log
import Mathlib.Tactic.Common

namespace Binary64

/-! ## Rounding -/

/-- How many bits of a number do not fit into 53. -/
def exponent (n : Nat) : Nat := Nat.log2 n + 1 - 53

/-- The distance of the doubles around a number. -/
def ulp (n : Nat) : Nat := 2 ^ exponent n

def nearest (n : Nat) : Nat :=
  if ulp n < 2 * (n % ulp n) ∨ (2 * (n % ulp n) = ulp n ∧ n / ulp n % 2 = 1) then
    (n / ulp n + 1) * ulp n
  else
    n / ulp n * ulp n

theorem ulp_pos (n : Nat) : 0 < ulp n := Nat.two_pow_pos _

/-- A multiple of the distance is a double. -/
theorem nearest_of_dvd {n : Nat} (h : ulp n ∣ n) : nearest n = n := by
  have hpos := ulp_pos n
  have hmod : n % ulp n = 0 := Nat.mod_eq_zero_of_dvd h
  -- nothing is left over, so nothing is rounded up
  have hdown : ¬ (ulp n < 2 * (n % ulp n) ∨ (2 * (n % ulp n) = ulp n ∧ n / ulp n % 2 = 1)) := by
    rw [hmod]
    omega
  rw [nearest, if_neg hdown, Nat.div_mul_cancel h]

theorem exponent_le {n k : Nat} (h : n < 2 ^ (53 + k)) : exponent n ≤ k := by
  by_cases hn : n = 0
  · subst hn
    simp [exponent]
  · -- a number below 2^(53 + k) has at most 53 + k bits
    have hlog := (Nat.log2_lt hn).mpr h
    rw [exponent]
    omega

/-- A number of 53 bits times a power of two needs no rounding. -/
theorem nearest_mul_two_pow {m : Nat} (hm : m < 2 ^ 53) (e : Nat) :
    nearest (m * 2 ^ e) = m * 2 ^ e := by
  apply nearest_of_dvd
  have hlt : m * 2 ^ e < 2 ^ (53 + e) := by
    rw [Nat.pow_add]
    exact Nat.mul_lt_mul_of_pos_right hm (Nat.two_pow_pos e)
  -- its distance divides the power of two
  exact Nat.dvd_mul_left_of_dvd (Nat.pow_dvd_pow 2 (exponent_le hlt)) m

/-! ## Doubles -/

inductive Double where
  | finite (n : Nat)
  | infinity
  | nan
deriving DecidableEq, Repr

/-- The first power of two that is no double. -/
@[irreducible] def overflow : Nat := 2 ^ 1024

theorem two_pow_lt_overflow {e : Nat} : 2 ^ e < overflow ↔ e < 1024 := by
  unfold overflow
  exact @Nat.pow_lt_pow_iff_right 2 e 1024 (by decide)

/-- The double of a number. -/
def round (n : Nat) : Double := if nearest n < overflow then .finite (nearest n) else .infinity

namespace Double

def mul : Double → Double → Double
  | finite m, finite n => round (m * n)
  | finite m, infinity => if m = 0 then nan else infinity
  | infinity, finite n => if n = 0 then nan else infinity
  | infinity, infinity => infinity
  | nan, _ => nan
  | _, nan => nan

/-- `0 < x`. -/
def isPositive : Double → Bool
  | finite n => decide (0 < n)
  | infinity => true
  | nan => false

def min : Double → Double → Double
  | finite m, finite n => finite (Min.min m n)
  | finite m, infinity => finite m
  | infinity, finite n => finite n
  | infinity, infinity => infinity
  | nan, _ => nan
  | _, nan => nan

end Double

theorem round_mul_two_pow {m : Nat} (hm : m < 2 ^ 53) (e : Nat) :
    round (m * 2 ^ e) = if m * 2 ^ e < overflow then .finite (m * 2 ^ e) else .infinity := by
  rw [round, nearest_mul_two_pow hm e]

theorem round_zero : round 0 = .finite 0 := by
  have h := round_mul_two_pow (m := 0) (by decide) 0
  rw [Nat.zero_mul] at h
  rw [h, if_pos (Nat.lt_trans (by decide : 0 < 2 ^ 0) (two_pow_lt_overflow.mpr (by decide)))]

/-- A power of two. -/
theorem round_two_pow (e : Nat) :
    round (2 ^ e) = if e < 1024 then .finite (2 ^ e) else .infinity := by
  have h := round_mul_two_pow (m := 1) (by decide) e
  rw [Nat.one_mul] at h
  rw [h]
  exact if_congr two_pow_lt_overflow rfl rfl

/-- Scaling by a power of two keeps a number of 53 bits or overflows. -/
theorem mul_round_two_pow {m : Nat} (hm : m < 2 ^ 53) (hpos : 0 < m) (e : Nat) :
    (Double.finite m).mul (round (2 ^ e)) =
      if m * 2 ^ e < overflow then .finite (m * 2 ^ e) else .infinity := by
  rw [round_two_pow]
  by_cases he : e < 1024
  · rw [if_pos he]
    exact round_mul_two_pow hm e
  · -- the power alone is infinite
    have hle : overflow ≤ m * 2 ^ e :=
      Nat.le_trans (Nat.le_of_not_lt (mt two_pow_lt_overflow.mp he)) (Nat.le_mul_of_pos_left _ hpos)
    rw [if_neg he, if_neg (Nat.not_lt_of_le hle)]
    exact if_neg (Nat.ne_of_gt hpos)

end Binary64
