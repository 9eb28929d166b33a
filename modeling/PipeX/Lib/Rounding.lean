/-
  PipeX.Lib.Rounding

  Rounding to binary floating point, over the rationals: `p` significant bits, and
  no exponent below `emin`.

  * `nearest_le` — no representable number is nearer than the rounded one; this is
    all that the rest uses.
  * `le_nearest`, `nearest_le_of_le` — so rounding does not cross a representable
    number, and keeps it.
  * `ceil_nearest_div` — the ceiling of a quotient of integers of `p` bits survives
    the rounding of the quotient.
-/
import Mathlib.Data.Int.Log
import Mathlib.Data.Rat.Floor
import Mathlib.Tactic.FieldSimp
import Mathlib.Tactic.Linarith
import Mathlib.Tactic.Positivity
import Mathlib.Tactic.Ring

namespace Rounding

/-! ## To the nearest integer -/

/-- The nearest integer, the even one of two. -/
def roundEven (x : ℚ) : ℤ :=
  if 2 * Int.fract x < 1 ∨ (2 * Int.fract x = 1 ∧ ⌊x⌋ % 2 = 0) then ⌊x⌋ else ⌊x⌋ + 1

/-- No integer is nearer. -/
theorem abs_roundEven_sub_le (x : ℚ) (n : ℤ) : |(roundEven x : ℚ) - x| ≤ |(n : ℚ) - x| := by
  have hfract : x = ⌊x⌋ + Int.fract x := (Int.floor_add_fract x).symm
  have hnonneg := Int.fract_nonneg x
  have hlt := Int.fract_lt_one x
  -- an integer below the floor or above the ceiling is no nearer than these
  have hfloor : n ≤ ⌊x⌋ → Int.fract x ≤ |(n : ℚ) - x| := by
    intro h
    have h : (n : ℚ) ≤ ⌊x⌋ := by exact_mod_cast h
    rw [abs_sub_comm]
    exact le_trans (by linarith) (le_abs_self (x - n))
  have hceil : ⌊x⌋ + 1 ≤ n → 1 - Int.fract x ≤ |(n : ℚ) - x| := by
    intro h
    have h : (⌊x⌋ : ℚ) + 1 ≤ n := by exact_mod_cast h
    exact le_trans (by linarith) (le_abs_self (n - x))
  have hdown : |(⌊x⌋ : ℚ) - x| = Int.fract x := by
    rw [abs_sub_comm, abs_of_nonneg] <;> linarith
  have hup : |((⌊x⌋ + 1 : ℤ) : ℚ) - x| = 1 - Int.fract x := by
    push_cast
    rw [abs_of_nonneg] <;> linarith
  rw [roundEven]
  split
  · rename_i hhalf
    rw [hdown]
    rcases le_or_gt n ⌊x⌋ with h | h
    · exact hfloor h
    · have hge := hceil h
      rcases hhalf with hhalf | ⟨hhalf, -⟩ <;> linarith
  · rename_i hhalf
    rw [hup]
    have hge : 1 ≤ 2 * Int.fract x := by
      by_contra hlt
      exact hhalf (.inl (lt_of_not_ge hlt))
    rcases le_or_gt n ⌊x⌋ with h | h
    · have := hfloor h
      linarith
    · exact hceil h

/-! ## To the nearest number of `p` bits -/

variable (p : ℕ) (emin : ℤ)

/-- The numbers of `p` significant bits with an exponent of `emin` at least. -/
def Representable (x : ℚ) : Prop :=
  ∃ m e : ℤ, |m| ≤ 2 ^ p ∧ emin ≤ e ∧ x = m * 2 ^ e

/-- The exponent of the last bit that a number of the size of `x` has. -/
def quantum (x : ℚ) : ℤ := max (Int.log 2 |x| + 1 - p) emin

def nearest (x : ℚ) : ℚ := roundEven (x / 2 ^ quantum p emin x) * 2 ^ quantum p emin x

variable {p emin}

theorem two_zpow_pos (e : ℤ) : (0 : ℚ) < 2 ^ e := zpow_pos two_pos e

/-- No multiple of the last bit is nearer than the rounded number. -/
theorem nearest_le_multiple (x : ℚ) (n : ℤ) :
    |nearest p emin x - x| ≤ |(n : ℚ) * 2 ^ quantum p emin x - x| := by
  have hpos := two_zpow_pos (quantum p emin x)
  have hscale : ∀ k : ℤ, |(k : ℚ) * 2 ^ quantum p emin x - x| =
      |(k : ℚ) - x / 2 ^ quantum p emin x| * 2 ^ quantum p emin x := by
    intro k
    have heq : (k : ℚ) * 2 ^ quantum p emin x - x =
        (k - x / 2 ^ quantum p emin x) * 2 ^ quantum p emin x := by
      field_simp
    rw [heq, abs_mul, abs_of_pos hpos]
  rw [nearest, hscale, hscale]
  exact mul_le_mul_of_nonneg_right (abs_roundEven_sub_le _ n) hpos.le

/-- A power of two not below the last bit is a multiple of it. -/
theorem zpow_eq_multiple {e q : ℤ} (h : q ≤ e) : ∃ n : ℤ, (2 : ℚ) ^ e = n * 2 ^ q := by
  refine ⟨2 ^ (e - q).toNat, ?_⟩
  have he : e = ((e - q).toNat : ℤ) + q := by omega
  rw [Int.cast_pow, Int.cast_ofNat, ← zpow_natCast, ← zpow_add₀ two_ne_zero, ← he]

/-- A representable number is a multiple of the last bit of `x`, or it is no larger than
    the power of two below `x`, which is one. -/
theorem Representable.multiple_or_le {y : ℚ} (hp : 0 < p) (hy : Representable p emin y) (x : ℚ) :
    (∃ n : ℤ, y = n * 2 ^ quantum p emin x) ∨
      (quantum p emin x ≤ Int.log 2 |x| ∧ |y| ≤ 2 ^ Int.log 2 |x|) := by
  obtain ⟨m, e, hm, he, rfl⟩ := hy
  by_cases hq : quantum p emin x ≤ e
  · obtain ⟨n, hn⟩ := zpow_eq_multiple hq
    exact .inl ⟨m * n, by rw [hn, Int.cast_mul, mul_assoc]⟩
  · -- the exponent is too small for a number of the size of `x`
    refine .inr ?_
    simp only [quantum, max_le_iff] at hq ⊢
    have hlog : (p : ℤ) + e ≤ Int.log 2 |x| := by omega
    have hmp : |(m : ℚ)| ≤ 2 ^ (p : ℤ) := by
      rw [zpow_natCast]
      exact_mod_cast hm
    refine ⟨by omega, ?_⟩
    calc |(m : ℚ) * 2 ^ e| = |(m : ℚ)| * 2 ^ e := by rw [abs_mul, abs_of_pos (two_zpow_pos e)]
      _ ≤ 2 ^ (p : ℤ) * 2 ^ e := mul_le_mul_of_nonneg_right hmp (two_zpow_pos e).le
      _ = 2 ^ ((p : ℤ) + e) := (zpow_add₀ two_ne_zero _ _).symm
      _ ≤ 2 ^ Int.log 2 |x| := zpow_le_zpow_right₀ one_le_two hlog

/-- No representable number is nearer than the rounded one. -/
theorem nearest_le {x y : ℚ} (hp : 0 < p) (hy : Representable p emin y) :
    |nearest p emin x - x| ≤ |y - x| := by
  rcases hy.multiple_or_le hp x with ⟨n, rfl⟩ | ⟨hq, hle⟩
  · exact nearest_le_multiple x n
  -- between `x` and `y` lies the power of two below `x`
  obtain ⟨n, hn⟩ := zpow_eq_multiple hq
  obtain ⟨hlow, hhigh⟩ := abs_le.mp hle
  rcases lt_trichotomy x 0 with hx | rfl | hx
  · have hpow : (2 : ℚ) ^ Int.log 2 |x| ≤ |x| :=
      Int.zpow_log_le_self one_lt_two (abs_pos.mpr hx.ne)
    rw [abs_of_neg hx] at hpow hlow hn
    refine le_trans (nearest_le_multiple x (-n)) ?_
    rw [Int.cast_neg, neg_mul, ← hn, abs_of_nonneg (by linarith), abs_of_nonneg (by linarith)]
    linarith
  · refine le_trans (nearest_le_multiple 0 0) ?_
    simp
  · have hpow : (2 : ℚ) ^ Int.log 2 |x| ≤ |x| :=
      Int.zpow_log_le_self one_lt_two (abs_pos.mpr hx.ne')
    rw [abs_of_pos hx] at hpow hhigh hn
    refine le_trans (nearest_le_multiple x n) ?_
    rw [← hn, abs_sub_comm, abs_of_nonneg (by linarith), abs_sub_comm, abs_of_nonneg (by linarith)]
    linarith

/-! ## What rounding keeps -/

/-- A representable number is kept. -/
theorem nearest_of_representable {x : ℚ} (hp : 0 < p) (hx : Representable p emin x) :
    nearest p emin x = x := by
  have h := nearest_le (x := x) hp hx
  rw [sub_self, abs_zero] at h
  exact sub_eq_zero.mp (abs_eq_zero.mp (le_antisymm h (abs_nonneg _)))

/-- Rounding does not cross a representable number from above, -/
theorem le_nearest {x y : ℚ} (hp : 0 < p) (hy : Representable p emin y) (h : y ≤ x) :
    y ≤ nearest p emin x := by
  have hnear := nearest_le (x := x) hp hy
  rw [abs_sub_comm y, abs_of_nonneg (sub_nonneg.mpr h)] at hnear
  have := neg_abs_le (nearest p emin x - x)
  linarith

/-- nor from below. -/
theorem nearest_le_of_le {x y : ℚ} (hp : 0 < p) (hy : Representable p emin y) (h : x ≤ y) :
    nearest p emin x ≤ y := by
  have hnear := nearest_le (x := x) hp hy
  rw [abs_of_nonneg (sub_nonneg.mpr h)] at hnear
  have := le_abs_self (nearest p emin x - x)
  linarith

/-- Integers of `p` bits, the first power of two beyond them included, are representable. -/
theorem representable_intCast {n : ℤ} (hemin : emin ≤ 0) (hn : |n| ≤ 2 ^ p) :
    Representable p emin n :=
  ⟨n, 0, hn, hemin, by rw [zpow_zero, mul_one]⟩

/-- An integer and a fraction of a power of two. -/
theorem representable_add_half {q : ℤ} {j : ℕ} (hj : emin ≤ -(j : ℤ))
    (hq : |q * 2 ^ j + 1| ≤ 2 ^ p) : Representable p emin (q + 2 ^ (-(j : ℤ))) := by
  refine ⟨q * 2 ^ j + 1, -(j : ℤ), hq, hj, ?_⟩
  rw [zpow_neg, zpow_natCast]
  push_cast
  field_simp

/-- A quotient that is not an integer is not rounded down to one: the numbers of `p` bits
    above the integer are nearer. -/
theorem lt_nearest_div {a b q : ℕ} (hp : 0 < p) (ha : a ≤ 2 ^ p) (hq : q * b < a)
    (hbp : b ≤ 2 ^ p) (hb : 0 < b) (hemin : emin ≤ -(p : ℤ)) :
    (q : ℚ) < nearest p emin (a / b) := by
  have hbpos : (0 : ℚ) < b := by exact_mod_cast hb
  have hqb : (q : ℚ) * b + 1 ≤ a := by exact_mod_cast hq
  -- `2 ^ j` is the power of two below the divisor
  obtain ⟨j, hj⟩ : ∃ j, j = Nat.log 2 b := ⟨_, rfl⟩
  have hjle : 2 ^ j ≤ b := hj ▸ Nat.pow_log_le_self 2 hb.ne'
  have hjlt : b < 2 ^ (j + 1) := hj ▸ Nat.lt_pow_succ_log_self one_lt_two b
  have hjp : j ≤ p := (Nat.pow_le_pow_iff_right one_lt_two).mp (hjle.trans hbp)
  have hbits : q * 2 ^ j + 1 ≤ 2 ^ p := by
    have := Nat.mul_le_mul_left q hjle
    omega
  have hrep : Representable p emin ((q : ℤ) + 2 ^ (-(j : ℤ))) := by
    refine representable_add_half (by omega) ?_
    rw [abs_of_nonneg (by positivity)]
    exact_mod_cast hbits
  have hint : Representable p emin ((q : ℤ) : ℚ) := by
    refine representable_intCast (by omega) ?_
    have hle : q ≤ q * 2 ^ j := Nat.le_mul_of_pos_right q (Nat.two_pow_pos j)
    rw [abs_of_nonneg (by positivity)]
    exact_mod_cast (by omega : q ≤ 2 ^ p)
  -- the step of `2 ^ -j` is shorter than twice the distance from `q`
  have hstep : (2 : ℚ) ^ (-(j : ℤ)) * b < 2 := by
    have hpow : (b : ℚ) < 2 ^ j * 2 := by
      rw [pow_succ] at hjlt
      exact_mod_cast hjlt
    rw [zpow_neg, zpow_natCast, inv_mul_lt_iff₀ (by positivity)]
    exact hpow
  have hdist : 1 ≤ (a / b - q : ℚ) * b := by
    rw [sub_mul, div_mul_cancel₀ _ hbpos.ne']
    linarith
  have hclose : (2 : ℚ) ^ (-(j : ℤ)) < 2 * (a / b - q) := by
    by_contra hfar
    have := mul_le_mul_of_nonneg_right (le_of_not_gt hfar) hbpos.le
    linarith
  have hstep_pos := two_zpow_pos (-(j : ℤ))
  have hgap : (q : ℚ) < a / b := by
    by_contra hge
    have := mul_nonpos_of_nonpos_of_nonneg (sub_nonpos.mpr (le_of_not_gt hge)) hbpos.le
    linarith
  rcases (le_nearest hp hint hgap.le).lt_or_eq with hlt | heq
  · exact hlt
  · -- were it `q`, the next number up would be nearer
    have hnear := nearest_le (x := (a / b : ℚ)) hp hrep
    rw [← heq, abs_sub_comm, Int.cast_natCast, abs_of_pos (sub_pos.mpr hgap)] at hnear
    have hnearer : |(q : ℚ) + 2 ^ (-(j : ℤ)) - a / b| < a / b - q :=
      abs_lt.mpr ⟨by linarith, by linarith⟩
    exact absurd hnear (not_le.mpr hnearer)

/-- The quotient rounded up, by the multiples of the divisor around the dividend. -/
theorem roundUp_spec {a b : ℕ} (ha : 0 < a) (hb : 0 < b) :
    ∃ q, (a + b - 1) / b = q + 1 ∧ q * b < a ∧ a ≤ (q + 1) * b := by
  have hdiv := Nat.div_add_mod (a - 1) b
  have hmod := Nat.mod_lt (a - 1) hb
  have hsum : a + b - 1 = a - 1 + b := by omega
  refine ⟨(a - 1) / b, by rw [hsum, Nat.add_div_right _ hb], ?_, ?_⟩
  · rw [Nat.mul_comm]
    omega
  · rw [Nat.add_one_mul, Nat.mul_comm]
    omega

theorem ceil_div {a b : ℕ} (ha : 0 < a) (hb : 0 < b) : ⌈(a / b : ℚ)⌉ = ((a + b - 1) / b : ℕ) := by
  have hbpos : (0 : ℚ) < b := by exact_mod_cast hb
  obtain ⟨q, hq, hlow, hhigh⟩ := roundUp_spec ha hb
  rw [hq, Int.ceil_eq_iff]
  push_cast
  rw [add_sub_cancel_right, lt_div_iff₀ hbpos, div_le_iff₀ hbpos]
  exact ⟨by exact_mod_cast hlow, by exact_mod_cast hhigh⟩

/-- The ceiling of a quotient survives its rounding. -/
theorem ceil_nearest_div {a b : ℕ} (hp : 0 < p) (ha : 0 < a) (hap : a ≤ 2 ^ p) (hb : 0 < b)
    (hbp : b ≤ 2 ^ p) (hemin : emin ≤ -(p : ℤ)) :
    ⌈nearest p emin (a / b)⌉ = ((a + b - 1) / b : ℕ) := by
  have hbpos : (0 : ℚ) < b := by exact_mod_cast hb
  obtain ⟨q, hq, hlow, hhigh⟩ := roundUp_spec ha hb
  have hqa : q + 1 ≤ 2 ^ p := by
    have := Nat.le_mul_of_pos_right q hb
    omega
  rw [hq, Int.ceil_eq_iff]
  push_cast
  constructor
  · rw [add_sub_cancel_right]
    exact lt_nearest_div hp hap hlow hbp hb hemin
  · have hint : Representable p emin (((q + 1 : ℕ) : ℤ) : ℚ) := by
      refine representable_intCast (by omega) ?_
      rw [abs_of_nonneg (by positivity)]
      exact_mod_cast hqa
    have hle : (a / b : ℚ) ≤ ((q + 1 : ℕ) : ℤ) := by
      rw [div_le_iff₀ hbpos]
      exact_mod_cast hhigh
    have := nearest_le_of_le hp hint hle
    push_cast at this
    exact this

end Rounding
