/-
  PipeX.Lib.Shadow

  Doubles, each with the integer that exact arithmetic has in its place.

  A program that computes with `Shadowed` numbers branches on the doubles alone; the
  integers only ride along.  `Tracks` is the invariant of such a number, and `Tracks.lt`
  and `Tracks.gt` are what it is for: the branch is the one that exact arithmetic takes.
-/
import PipeX.Lib.Float64

structure Shadowed where
  double : Float64
  ideal : ℤ
deriving DecidableEq

namespace Shadowed

/-! ## Arithmetic -/

instance : IntCast Shadowed := ⟨fun n => ⟨Float64.ofInt n, n⟩⟩
instance : NatCast Shadowed := ⟨fun n => ⟨Float64.ofNat n, n⟩⟩
instance (n : ℕ) : OfNat Shadowed n := ⟨(n : Shadowed)⟩
instance : Add Shadowed := ⟨fun x y => ⟨x.double + y.double, x.ideal + y.ideal⟩⟩
instance : Sub Shadowed := ⟨fun x y => ⟨x.double - y.double, x.ideal - y.ideal⟩⟩
instance : Mul Shadowed := ⟨fun x y => ⟨x.double * y.double, x.ideal * y.ideal⟩⟩

/-- The rounded-up quotient. -/
def ceilDiv (x y : Shadowed) : Shadowed :=
  ⟨(x.double / y.double).ceil, ⌈(x.ideal / y.ideal : ℚ)⌉⟩

def min (x y : Shadowed) : Shadowed := ⟨x.double.min y.double, Min.min x.ideal y.ideal⟩

/-- The question whether one number is less than another. -/
structure Comparison where
  lower : Shadowed
  upper : Shadowed
deriving DecidableEq

def lt (x y : Shadowed) : Comparison := ⟨x, y⟩

def gt (x y : Shadowed) : Comparison := ⟨y, x⟩

namespace Comparison

/-- The answer of the program. -/
def Holds (c : Comparison) : Prop := c.lower.double < c.upper.double

/-- The answer of exact arithmetic. -/
def Ideal (c : Comparison) : Prop := c.lower.ideal < c.upper.ideal

instance (c : Comparison) : Decidable c.Holds := inferInstanceAs (Decidable (_ < _))

/-- Both answers are the answer to `p`. -/
structure Decides (c : Comparison) (p : Prop) : Prop where
  holds : c.Holds ↔ p
  ideal : c.Ideal ↔ p

theorem Decides.agree {c : Comparison} {p : Prop} (h : c.Decides p) : c.Holds ↔ c.Ideal :=
  h.holds.trans h.ideal.symm

theorem Decides.congr {c : Comparison} {p q : Prop} (h : c.Decides p) (hpq : p ↔ q) :
    c.Decides q :=
  ⟨h.holds.trans hpq, h.ideal.trans hpq⟩

end Comparison

/-! ## The invariant -/

/-- The integer is `n`, and the double stands for it. -/
structure Tracks (x : Shadowed) (n : ℤ) : Prop where
  stands : x.double.Stands n
  ideal : x.ideal = n

variable {x y : Shadowed} {m n : ℤ}

theorem abs_le_of_natAbs {n : ℤ} (h : n.natAbs ≤ 2 ^ 53) : |n| ≤ 2 ^ Float64.precision := by
  rw [Int.abs_eq_natAbs]
  exact_mod_cast h

theorem abs_lt_of_natAbs {n : ℤ} (h : n.natAbs < 2 ^ 53) : |n| < 2 ^ Float64.precision := by
  rw [Int.abs_eq_natAbs]
  exact_mod_cast h

/-- Below the bound the double is the integer. -/
theorem Tracks.double_eq (hx : x.Tracks m) (hm : m < 2 ^ 53) : x.double = Float64.ofInt m :=
  hx.stands.eq hm

theorem tracks_intCast (h : n.natAbs ≤ 2 ^ 53) : (n : Shadowed).Tracks n :=
  ⟨.exact (abs_le_of_natAbs h), rfl⟩

@[simp] theorem tracks_natCast (n : ℕ) : (n : Shadowed).Tracks n := ⟨Float64.stands_ofNat n, rfl⟩

@[simp] theorem tracks_ofNat (n : ℕ) : (OfNat.ofNat n : Shadowed).Tracks n := tracks_natCast n

theorem Tracks.eq_zero_iff (hx : x.Tracks m) (hm : m.natAbs < 2 ^ 53) :
    x.double = 0 ↔ m = 0 := by
  have hzero : (0 : Float64) = .finite (0 : ℤ) := Float64.ofInt_eq (abs_le_of_natAbs (by decide))
  rw [hx.double_eq (by omega), Float64.ofInt_eq (abs_le_of_natAbs hm.le), hzero,
    Float64.finite.injEq, Int.cast_inj]

theorem Tracks.safeInteger? (hx : x.Tracks m) (hm : m.natAbs < 2 ^ 53) :
    x.double.safeInteger? = some m := by
  rw [hx.double_eq (by omega), Float64.safeInteger?_ofInt, if_pos (abs_lt_of_natAbs hm)]

section Naturals

variable {a b : ℕ}

theorem Tracks.add (hx : x.Tracks a) (hy : y.Tracks b) : (x + y).Tracks (a + b : ℕ) := by
  rw [Nat.cast_add]
  refine ⟨hx.stands.add hy.stands a.cast_nonneg b.cast_nonneg, ?_⟩
  show x.ideal + y.ideal = a + b
  rw [hx.ideal, hy.ideal]

/-- A difference, negative or not. -/
theorem Tracks.sub (hx : x.Tracks a) (hy : y.Tracks b) (ha : a < 2 ^ 53) (hb : b < 2 ^ 53) :
    (x - y).Tracks (a - b) := by
  have hstands : (x.double - y.double).Stands (a - b) := by
    rw [hx.double_eq (by omega), hy.double_eq (by omega),
      Float64.sub_ofInt (abs_le_of_natAbs (by omega)) (abs_le_of_natAbs (by omega))]
    exact .exact (abs_le_of_natAbs (by omega))
  refine ⟨hstands, ?_⟩
  show x.ideal - y.ideal = a - b
  rw [hx.ideal, hy.ideal]

theorem Tracks.mul (hx : x.Tracks a) (hy : y.Tracks b) (hpos : 0 < b) (hb : b < 2 ^ 53) :
    (x * y).Tracks (a * b : ℕ) := by
  have hstands : (x.double * y.double).Stands (a * b) := by
    rw [hy.double_eq (by omega)]
    exact hx.stands.mul a.cast_nonneg (by omega) (abs_le_of_natAbs (by omega))
  rw [Nat.cast_mul]
  refine ⟨hstands, ?_⟩
  show x.ideal * y.ideal = a * b
  rw [hx.ideal, hy.ideal]

/-- A rounded-up quotient of integers of 53 bits. -/
theorem Tracks.ceilDiv (hx : x.Tracks a) (hy : y.Tracks b) (ha : 0 < a) (hap : a < 2 ^ 53)
    (hb : 0 < b) (hbp : b < 2 ^ 53) : (x.ceilDiv y).Tracks ((a + b - 1) / b : ℕ) := by
  have hceil := Float64.ceil_div ha hap.le hb hbp.le
  refine ⟨?_, ?_⟩
  · show ((x.double / y.double).ceil).Stands _
    rw [hx.double_eq (by exact_mod_cast hap), hy.double_eq (by exact_mod_cast hbp)]
    exact hceil ▸ Float64.stands_ofNat _
  · show ⌈(x.ideal / y.ideal : ℚ)⌉ = _
    rw [hx.ideal, hy.ideal]
    exact Rounding.ceil_div ha hb

end Naturals

/-! ## Comparisons -/

/-- A comparison with an integer below the bound, on either side. -/
theorem Tracks.lt (hx : x.Tracks m) (hy : y.Tracks n) (hn : n.natAbs < 2 ^ 53) :
    (x.lt y).Decides (m < n) := by
  refine ⟨?_, ?_⟩
  · show x.double < y.double ↔ m < n
    rw [hy.double_eq (by omega)]
    exact hx.stands.gt_iff (abs_lt_of_natAbs hn)
  · show x.ideal < y.ideal ↔ m < n
    rw [hx.ideal, hy.ideal]

theorem Tracks.gt (hx : x.Tracks m) (hy : y.Tracks n) (hn : n.natAbs < 2 ^ 53) :
    (x.gt y).Decides (n < m) := by
  refine ⟨?_, ?_⟩
  · show y.double < x.double ↔ n < m
    rw [hy.double_eq (by omega)]
    exact hx.stands.lt_iff (abs_lt_of_natAbs hn)
  · show y.ideal < x.ideal ↔ n < m
    rw [hx.ideal, hy.ideal]

/-- The same for integers that are not negative. -/
theorem Tracks.lt_nat {a b : ℕ} (hx : x.Tracks a) (hy : y.Tracks b) (hb : b < 2 ^ 53) :
    (x.lt y).Decides (a < b) :=
  (hx.lt hy (by omega)).congr Int.ofNat_lt

theorem Tracks.gt_nat {a b : ℕ} (hx : x.Tracks a) (hy : y.Tracks b) (hb : b < 2 ^ 53) :
    (x.gt y).Decides (b < a) :=
  (hx.gt hy (by omega)).congr Int.ofNat_lt

theorem Tracks.min (hx : x.Tracks m) (hy : y.Tracks n) (hm : m.natAbs < 2 ^ 53)
    (hn : n.natAbs < 2 ^ 53) : (x.min y).Tracks (Min.min m n) := by
  have hlt : y.double < x.double ↔ n < m := (hx.gt hy hn).holds
  have hmin : x.double.min y.double = if y.double < x.double then y.double else x.double := by
    rw [hx.double_eq (by omega), hy.double_eq (by omega),
      Float64.ofInt_eq (abs_le_of_natAbs hm.le), Float64.ofInt_eq (abs_le_of_natAbs hn.le)]
    rfl
  refine ⟨?_, ?_⟩
  · show (x.double.min y.double).Stands _
    rw [hmin]
    by_cases h : n < m
    · rw [if_pos (hlt.mpr h), min_eq_right h.le]
      exact hy.stands
    · rw [if_neg (mt hlt.mp h), min_eq_left (by omega)]
      exact hx.stands
  · show Min.min x.ideal y.ideal = _
    rw [hx.ideal, hy.ideal]

end Shadowed
