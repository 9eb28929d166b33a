/-
  PipeX.Lib.Float64

  Double-precision numbers with their arithmetic, and the integers they stand for.

  A double `Stands` for an integer if it is that integer, or if both are 2^53 at
  least: beyond that bound doubles lose integers, but not their size.  Sums and
  products of non-negative integers keep the relation (`Stands.add`, `Stands.mul`), and a
  comparison with an integer below the bound cannot see the difference
  (`Stands.lt_iff`).
-/
import PipeX.Lib.Rounding

open Rounding

/-- A double.  There is one zero: nothing here tells the two of IEEE 754 apart. -/
inductive Float64 where
  | finite (x : ℚ)
  | infinity (negative : Bool)
  | nan
deriving DecidableEq

namespace Float64

/-! ## Arithmetic -/

def precision : ℕ := 53
def minExponent : ℤ := -1074

/-- The first power of two that is no double. -/
@[irreducible] def overflow : ℚ := 2 ^ 1024

theorem two_pow_lt_overflow : (2 ^ precision : ℚ) < overflow := by
  unfold overflow precision
  exact pow_lt_pow_right₀ one_lt_two (by decide)

/-- The double of a rational number. -/
def ofRat (x : ℚ) : Float64 :=
  let r := nearest precision minExponent x
  if |r| < overflow then finite r else infinity (decide (r < 0))

def ofInt (n : ℤ) : Float64 := ofRat n

def ofNat (n : ℕ) : Float64 := ofInt n

instance (n : ℕ) : OfNat Float64 n := ⟨ofNat n⟩

def neg : Float64 → Float64
  | finite x => finite (-x)
  | infinity negative => infinity !negative
  | nan => nan

def add : Float64 → Float64 → Float64
  | finite x, finite y => ofRat (x + y)
  | finite _, infinity negative => infinity negative
  | infinity negative, finite _ => infinity negative
  | infinity s, infinity t => if s = t then infinity s else nan
  | nan, _ => nan
  | _, nan => nan

def mul : Float64 → Float64 → Float64
  | finite x, finite y => ofRat (x * y)
  | finite x, infinity s => if x = 0 then nan else infinity (s != decide (x < 0))
  | infinity s, finite x => if x = 0 then nan else infinity (s != decide (x < 0))
  | infinity s, infinity t => infinity (s != t)
  | nan, _ => nan
  | _, nan => nan

def div : Float64 → Float64 → Float64
  | finite x, finite y =>
    if y = 0 then (if x = 0 then nan else infinity (decide (x < 0))) else ofRat (x / y)
  | finite _, infinity _ => finite 0
  | infinity s, finite y => infinity (s != decide (y < 0))
  | infinity _, infinity _ => nan
  | nan, _ => nan
  | _, nan => nan

instance : Neg Float64 := ⟨neg⟩
instance : Add Float64 := ⟨add⟩
instance : Sub Float64 := ⟨fun x y => x + -y⟩
instance : Mul Float64 := ⟨mul⟩
instance : Div Float64 := ⟨div⟩

/-- The least integer that is not less. -/
def ceil : Float64 → Float64
  | finite x => finite ⌈x⌉
  | infinity negative => infinity negative
  | nan => nan

def lt : Float64 → Float64 → Bool
  | finite x, finite y => decide (x < y)
  | finite _, infinity negative => !negative
  | infinity negative, finite _ => negative
  | infinity s, infinity t => s && !t
  | nan, _ => false
  | _, nan => false

instance : LT Float64 := ⟨fun x y => lt x y = true⟩

instance (x y : Float64) : Decidable (x < y) := inferInstanceAs (Decidable (lt x y = true))

/-- The smaller of two doubles; `nan` if one of them is. -/
def min : Float64 → Float64 → Float64
  | nan, _ => nan
  | _, nan => nan
  | x, y => if y < x then y else x

/-- The integer part of a double that is not negative. -/
def truncate : Float64 → ℕ
  | finite x => ⌊x⌋₊
  | infinity _ => 0
  | nan => 0

/-- The integer that a double is, if it is one of those that doubles tell apart from their
    neighbours. -/
def safeInteger? : Float64 → Option ℤ
  | finite x => if x.den = 1 ∧ |x.num| < 2 ^ precision then some x.num else none
  | infinity _ => none
  | nan => none

/-! ## Integers of 53 bits -/

theorem representable_int {n : ℤ} (h : |n| ≤ 2 ^ precision) :
    Representable precision minExponent n :=
  representable_intCast (by decide) h

/-- An integer of 53 bits is a double. -/
theorem ofInt_eq {n : ℤ} (h : |n| ≤ 2 ^ precision) : ofInt n = finite n := by
  have hkeep : nearest precision minExponent n = n :=
    nearest_of_representable (by decide) (representable_int h)
  have hfinite : |(n : ℚ)| < overflow :=
    lt_of_le_of_lt (by exact_mod_cast h) two_pow_lt_overflow
  simp only [ofInt, ofRat, hkeep, if_pos hfinite]

theorem ofNat_eq {n : ℕ} (h : n ≤ 2 ^ precision) : ofNat n = finite n := by
  have hn : |(n : ℤ)| ≤ 2 ^ precision := by
    rw [abs_of_nonneg n.cast_nonneg]
    exact_mod_cast h
  rw [ofNat, ofInt_eq hn, Int.cast_natCast]

theorem truncate_ofNat {n : ℕ} (h : n ≤ 2 ^ precision) : (ofNat n).truncate = n := by
  rw [ofNat_eq h]
  exact Nat.floor_natCast n

/-- Rounding keeps the bound of 2^53, on both sides of zero. -/
theorem two_pow_le_nearest {x : ℚ} (h : 2 ^ precision ≤ x) :
    2 ^ precision ≤ nearest precision minExponent x := by
  have hrep := representable_int (n := 2 ^ precision) (by rw [abs_of_nonneg (by positivity)])
  rw [Int.cast_pow, Int.cast_ofNat] at hrep
  exact le_nearest (by decide) hrep h

theorem nearest_le_neg_two_pow {x : ℚ} (h : x ≤ -2 ^ precision) :
    nearest precision minExponent x ≤ -2 ^ precision := by
  have hrep := representable_int (n := -2 ^ precision)
    (by rw [abs_neg, abs_of_nonneg (by positivity)])
  rw [Int.cast_neg, Int.cast_pow, Int.cast_ofNat] at hrep
  exact nearest_le_of_le (by decide) hrep h

/-- The safe integers are those of less than 53 bits, and no other integer is rounded to
    one of them. -/
theorem safeInteger?_ofInt (n : ℤ) :
    (ofInt n).safeInteger? = if |n| < 2 ^ precision then some n else none := by
  by_cases hn : |n| ≤ 2 ^ precision
  · rw [ofInt_eq hn]
    simp only [safeInteger?, Rat.den_intCast, Rat.num_intCast, true_and]
  -- rounded, the number still is outside
  have hround : 2 ^ precision ≤ |nearest precision minExponent n| := by
    rcases le_total 0 n with hpos | hneg
    · rw [abs_of_nonneg hpos, not_le] at hn
      exact (two_pow_le_nearest (by exact_mod_cast hn.le)).trans (le_abs_self _)
    · rw [abs_of_nonpos hneg, not_le] at hn
      have hle : (n : ℚ) ≤ -2 ^ precision := by exact_mod_cast (by omega : n ≤ -2 ^ precision)
      have hnear := nearest_le_neg_two_pow hle
      exact (by linarith : _ ≤ -nearest precision minExponent n).trans (neg_le_abs _)
  rw [if_neg (mt le_of_lt hn), ofInt, ofRat]
  split
  · refine if_neg ?_
    rintro ⟨hden, hnum⟩
    rw [← Rat.coe_int_num_of_den_eq_one hden] at hround
    have hle : 2 ^ precision ≤ |(nearest precision minExponent n).num| := by exact_mod_cast hround
    exact absurd hnum (not_lt.mpr hle)
  · rfl

theorem eq_of_safeInteger? {x : Float64} {n : ℤ} (h : x.safeInteger? = some n) :
    x = ofInt n ∧ |n| < 2 ^ precision := by
  cases x with
  | finite x =>
    simp only [safeInteger?, Option.ite_none_right_eq_some, Option.some.injEq] at h
    obtain ⟨⟨hden, hnum⟩, rfl⟩ := h
    rw [ofInt_eq hnum.le, Rat.coe_int_num_of_den_eq_one hden]
    exact ⟨rfl, hnum⟩
  | infinity negative => cases h
  | nan => cases h

/-- A lower bound of a double. -/
def AtLeast (q : ℚ) : Float64 → Prop
  | finite x => q ≤ x
  | infinity negative => negative = false
  | nan => False

theorem atLeast_ofInt {n : ℤ} (h : |n| ≤ 2 ^ precision) : (ofInt n).AtLeast n := by
  rw [ofInt_eq h]
  exact le_refl (n : ℚ)

theorem atLeast_ofRat {x : ℚ} (h : 2 ^ precision ≤ x) : (ofRat x).AtLeast (2 ^ precision) := by
  have hbound := two_pow_le_nearest h
  simp only [ofRat]
  split
  · exact hbound
  · have hpos : (0 : ℚ) < 2 ^ precision := by positivity
    exact decide_eq_false (not_lt.mpr (hpos.le.trans hbound))

/-- The double and the integer are the same, or both too large to be told from their
    neighbours. -/
inductive Stands : Float64 → ℤ → Prop where
  | exact {n : ℤ} (h : |n| ≤ 2 ^ precision) : Stands (ofInt n) n
  | large {x : Float64} {n : ℤ} (hx : x.AtLeast (2 ^ precision)) (hn : 2 ^ precision ≤ n) :
      Stands x n

/-- The double of an integer stands for it. -/
theorem stands_ofInt {n : ℤ} (h : -(2 ^ precision) ≤ n) : (ofInt n).Stands n := by
  rcases le_or_gt n (2 ^ precision) with hle | hlt
  · exact .exact (abs_le.mpr ⟨h, hle⟩)
  · exact .large (atLeast_ofRat (by exact_mod_cast hlt.le)) hlt.le

theorem stands_ofNat (n : ℕ) : (ofNat n).Stands n :=
  stands_ofInt ((neg_nonpos.mpr (by positivity)).trans n.cast_nonneg)

/-- Below the bound the double is the integer. -/
theorem Stands.eq {x : Float64} {n : ℤ} (h : x.Stands n) (hn : n < 2 ^ precision) :
    x = ofInt n := by
  cases h with
  | exact => rfl
  | large _ hle => exact absurd hn (not_lt.mpr hle)

/-! ## Sums and products -/

theorem add_ofInt {m n : ℤ} (hm : |m| ≤ 2 ^ precision) (hn : |n| ≤ 2 ^ precision) :
    ofInt m + ofInt n = ofInt (m + n) := by
  rw [ofInt_eq hm, ofInt_eq hn]
  show ofRat (m + n) = ofRat ((m + n : ℤ) : ℚ)
  rw [Int.cast_add]

theorem sub_ofInt {m n : ℤ} (hm : |m| ≤ 2 ^ precision) (hn : |n| ≤ 2 ^ precision) :
    ofInt m - ofInt n = ofInt (m - n) := by
  rw [ofInt_eq hm, ofInt_eq hn]
  show ofRat (m + -n) = ofRat ((m - n : ℤ) : ℚ)
  rw [Int.cast_sub, sub_eq_add_neg]

theorem mul_ofInt {m n : ℤ} (hm : |m| ≤ 2 ^ precision) (hn : |n| ≤ 2 ^ precision) :
    ofInt m * ofInt n = ofInt (m * n) := by
  rw [ofInt_eq hm, ofInt_eq hn]
  show ofRat (m * n) = ofRat ((m * n : ℤ) : ℚ)
  rw [Int.cast_mul]

/-- The sum of two numbers, one of them not negative and the other large. -/
theorem AtLeast.add {x y : Float64} {a b : ℚ} (hx : x.AtLeast a) (hy : y.AtLeast b)
    (h : 2 ^ precision ≤ a + b) : (x + y).AtLeast (2 ^ precision) := by
  cases x with
  | finite x =>
    cases y with
    | finite y => exact atLeast_ofRat (h.trans (add_le_add hx hy))
    | infinity negative => exact hy
    | nan => cases hy
  | infinity negative =>
    have hx : negative = false := hx
    subst hx
    cases y with
    | finite y => rfl
    | infinity negative =>
      have hy : negative = false := hy
      subst hy
      rfl
    | nan => cases hy
  | nan => cases hx

/-- Doubles that stand for numbers add up to one that stands for the sum. -/
theorem Stands.add {x y : Float64} {m n : ℤ} (hx : x.Stands m) (hy : y.Stands n) (hm : 0 ≤ m)
    (hn : 0 ≤ n) : (x + y).Stands (m + n) := by
  have hm' : (0 : ℚ) ≤ m := by exact_mod_cast hm
  have hn' : (0 : ℚ) ≤ n := by exact_mod_cast hn
  have hpow : (0 : ℤ) ≤ 2 ^ precision := by positivity
  cases hx with
  | exact hm₁ =>
    cases hy with
    | exact hn₁ =>
      rw [add_ofInt hm₁ hn₁]
      exact stands_ofInt (by linarith)
    | large hy hle => exact .large ((atLeast_ofInt hm₁).add hy (by linarith)) (by linarith)
  | large hx hle =>
    cases hy with
    | exact hn₁ => exact .large (hx.add (atLeast_ofInt hn₁) (by linarith)) (by linarith)
    | large hy hle₁ => exact .large (hx.add hy (le_add_of_nonneg_left (by positivity))) (by linarith)

/-- A multiple of a large number is large. -/
theorem AtLeast.mul {x : Float64} {k : ℤ} (hx : x.AtLeast (2 ^ precision)) (hk : 0 < k)
    (hbound : |k| ≤ 2 ^ precision) : (x * ofInt k).AtLeast (2 ^ precision) := by
  rw [ofInt_eq hbound]
  have hk₁ : (1 : ℚ) ≤ k := by exact_mod_cast hk
  cases x with
  | finite x =>
    have hx : (2 ^ precision : ℚ) ≤ x := hx
    have hpos : (0 : ℚ) ≤ 2 ^ precision := by positivity
    exact atLeast_ofRat (hx.trans (le_mul_of_one_le_right (hpos.trans hx) hk₁))
  | infinity negative =>
    have hx : negative = false := hx
    subst hx
    have hne : ¬ (k : ℚ) = 0 := by linarith
    have hnonneg : ¬ (k : ℚ) < 0 := by linarith
    show (if (k : ℚ) = 0 then nan else infinity (false != decide ((k : ℚ) < 0))).AtLeast _
    rw [if_neg hne, decide_eq_false hnonneg]
    rfl
  | nan => cases hx

theorem Stands.mul {x : Float64} {m k : ℤ} (hx : x.Stands m) (hm : 0 ≤ m) (hk : 0 < k)
    (hbound : |k| ≤ 2 ^ precision) : (x * ofInt k).Stands (m * k) := by
  have hpow : (0 : ℤ) ≤ 2 ^ precision := by positivity
  have hprod : 0 ≤ m * k := mul_nonneg hm hk.le
  cases hx with
  | exact hm₁ =>
    rw [mul_ofInt hm₁ hbound]
    exact stands_ofInt (by linarith)
  | large hx hle => exact .large (hx.mul hk hbound) (hle.trans (le_mul_of_one_le_right hm hk))

/-! ## Comparisons -/

/-- A limit below 2^53 is exceeded by a double exactly if it is by the number that the
    double stands for, -/
theorem Stands.lt_iff {x : Float64} {m n : ℤ} (hx : x.Stands m) (hn : |n| < 2 ^ precision) :
    ofInt n < x ↔ n < m := by
  rw [ofInt_eq hn.le]
  have hn₁ : n < 2 ^ precision := lt_of_abs_lt hn
  cases hx with
  | exact hm =>
    rw [ofInt_eq hm]
    show decide ((n : ℚ) < m) = true ↔ n < m
    rw [decide_eq_true_eq, Int.cast_lt]
  | large hx hle =>
    refine iff_of_true ?_ (hn₁.trans_le hle)
    cases x with
    | finite x =>
      have hx : (2 ^ precision : ℚ) ≤ x := hx
      have hn₂ : (n : ℚ) < 2 ^ precision := by exact_mod_cast hn₁
      exact decide_eq_true (hn₂.trans_le hx)
    | infinity negative =>
      have hx : negative = false := hx
      subst hx
      rfl
    | nan => cases hx

/-- and the other way round. -/
theorem Stands.gt_iff {x : Float64} {m n : ℤ} (hx : x.Stands m) (hn : |n| < 2 ^ precision) :
    x < ofInt n ↔ m < n := by
  rw [ofInt_eq hn.le]
  have hn₁ : n < 2 ^ precision := lt_of_abs_lt hn
  cases hx with
  | exact hm =>
    rw [ofInt_eq hm]
    show decide ((m : ℚ) < n) = true ↔ m < n
    rw [decide_eq_true_eq, Int.cast_lt]
  | large hx hle =>
    refine iff_of_false ?_ (not_lt.mpr (hn₁.le.trans hle))
    cases x with
    | finite x =>
      have hx : (2 ^ precision : ℚ) ≤ x := hx
      have hn₂ : (n : ℚ) < 2 ^ precision := by exact_mod_cast hn₁
      exact ne_true_of_eq_false (decide_eq_false (not_lt.mpr (hn₂.le.trans hx)))
    | infinity negative =>
      have hx : negative = false := hx
      subst hx
      exact Bool.false_ne_true
    | nan => cases hx

/-! ## Quotients -/

/-- `Math.ceil` of a quotient of integers of 53 bits. -/
theorem ceil_div {a b : ℕ} (ha : 0 < a) (hap : a ≤ 2 ^ precision) (hb : 0 < b)
    (hbp : b ≤ 2 ^ precision) : (ofNat a / ofNat b).ceil = ofNat ((a + b - 1) / b) := by
  have hbq : (0 : ℚ) < b := by exact_mod_cast hb
  have hle : (a / b : ℚ) ≤ 2 ^ precision := by
    rw [div_le_iff₀ hbq]
    have hmul : a ≤ 2 ^ precision * b := hap.trans (Nat.le_mul_of_pos_right _ hb)
    exact_mod_cast hmul
  -- the rounded quotient lies between the integers 0 and 2^53
  have hlow : (0 : ℚ) ≤ nearest precision minExponent (a / b) := by
    have hrep := representable_int (n := 0) (by rw [abs_zero]; positivity)
    rw [Int.cast_zero] at hrep
    exact le_nearest (by decide) hrep (by positivity)
  have hhigh : nearest precision minExponent (a / b) ≤ 2 ^ precision := by
    have hrep := representable_int (n := 2 ^ precision) (by rw [abs_of_nonneg (by positivity)])
    rw [Int.cast_pow, Int.cast_ofNat] at hrep
    exact nearest_le_of_le (by decide) hrep hle
  have hfinite : |nearest precision minExponent (a / b)| < overflow := by
    rw [abs_of_nonneg hlow]
    exact lt_of_le_of_lt hhigh two_pow_lt_overflow
  have hquotient : ofNat a / ofNat b = finite (nearest precision minExponent (a / b)) := by
    rw [ofNat_eq hap, ofNat_eq hbp]
    show (if (b : ℚ) = 0 then _ else ofRat (a / b)) = _
    rw [if_neg hbq.ne', ofRat, if_pos hfinite]
  have hceil : ⌈nearest precision minExponent (a / b)⌉ = ((a + b - 1) / b : ℕ) :=
    ceil_nearest_div (by decide) ha hap hb hbp (by decide)
  have hcount : (a + b - 1) / b ≤ 2 ^ precision := by
    rw [← Int.ofNat_le, ← hceil, Int.ceil_le]
    push_cast
    exact hhigh
  rw [hquotient, ofNat_eq hcount, ceil, hceil, Int.cast_natCast]

end Float64
