/-
  PipeX.Lib.BigEndian

  Unsigned integers in fields of a fixed number of bytes, most significant byte
  first.  `beBytes w` and `beNat` are inverse to each other between the numbers
  below `256 ^ w` and the strings of `w` bytes.
-/
import Mathlib.Data.Nat.Basic
import Mathlib.Tactic.Ring

namespace BigEndian

/-- The number a byte string spells. -/
def beNat : List UInt8 → Nat
  | [] => 0
  | b :: bs => b.toNat * 256 ^ bs.length + beNat bs

/-- The `w` bytes that spell `n` modulo `256 ^ w`. -/
def beBytes : Nat → Nat → List UInt8
  | 0, _ => []
  | w + 1, n => UInt8.ofNat (n / 256 ^ w) :: beBytes w n

@[simp] theorem beNat_nil : beNat [] = 0 := rfl

theorem beNat_cons (b : UInt8) (bs : List UInt8) :
    beNat (b :: bs) = b.toNat * 256 ^ bs.length + beNat bs := rfl

@[simp] theorem beNat_singleton (b : UInt8) : beNat [b] = b.toNat := by
  simp [beNat]

@[simp] theorem beBytes_length (w n : Nat) : (beBytes w n).length = w := by
  induction w with
  | zero => rfl
  | succ w ih => simp only [beBytes, List.length_cons, ih]

theorem beNat_lt (bs : List UInt8) : beNat bs < 256 ^ bs.length := by
  induction bs with
  | nil => simp
  | cons b bs ih =>
    rw [beNat_cons, List.length_cons, Nat.pow_succ]
    have hb : b.toNat < 256 := b.toNat_lt
    have hmul : b.toNat * 256 ^ bs.length ≤ 255 * 256 ^ bs.length :=
      Nat.mul_le_mul_right _ (by omega)
    omega

/-- A field holds what was written into it, modulo its range. -/
theorem beNat_beBytes_mod (w n : Nat) : beNat (beBytes w n) = n % 256 ^ w := by
  induction w with
  | zero => simp [beBytes, Nat.mod_one]
  | succ w ih =>
    have hbyte : (UInt8.ofNat (n / 256 ^ w)).toNat = n / 256 ^ w % 256 := by
      simp [UInt8.toNat_ofNat']
    rw [beBytes, beNat_cons, ih, beBytes_length, hbyte, Nat.pow_succ, Nat.mod_mul]
    ring

theorem beNat_beBytes {w n : Nat} (h : n < 256 ^ w) : beNat (beBytes w n) = n := by
  rw [beNat_beBytes_mod, Nat.mod_eq_of_lt h]

/-- Two strings of one length that spell the same number are equal. -/
theorem beNat_inj {xs ys : List UInt8} (hlen : xs.length = ys.length)
    (h : beNat xs = beNat ys) : xs = ys := by
  induction xs generalizing ys with
  | nil => exact (List.length_eq_zero_iff.mp hlen.symm).symm
  | cons x xs ih =>
    cases ys with
    | nil => simp at hlen
    | cons y ys =>
      simp only [List.length_cons, Nat.add_right_cancel_iff] at hlen
      have hx := beNat_lt xs
      have hy := beNat_lt ys
      rw [beNat_cons, beNat_cons, hlen] at h
      rw [hlen] at hx
      have hpos : 0 < 256 ^ ys.length := Nat.pow_pos (by decide)
      have hdiv : ∀ a r, r < 256 ^ ys.length → (a * 256 ^ ys.length + r) / 256 ^ ys.length = a := by
        intro a r hr
        rw [Nat.mul_comm, Nat.mul_add_div hpos, Nat.div_eq_of_lt hr, Nat.add_zero]
      have hhead : x.toNat = y.toNat := by
        rw [← hdiv x.toNat _ hx, h, hdiv y.toNat _ hy]
      have htail : beNat xs = beNat ys := by
        rw [hhead] at h
        omega
      rw [UInt8.toNat_inj.mp hhead, ih hlen htail]

theorem beBytes_beNat (bs : List UInt8) : beBytes bs.length (beNat bs) = bs :=
  beNat_inj (beBytes_length _ _) (beNat_beBytes (beNat_lt bs))

/-- Fields of one width are equal only when the numbers are. -/
theorem beBytes_inj {w m n : Nat} (hm : m < 256 ^ w) (hn : n < 256 ^ w)
    (h : beBytes w m = beBytes w n) : m = n := by
  rw [← beNat_beBytes hm, h, beNat_beBytes hn]

end BigEndian
