import Mathlib.Algebra.Group.Nat.Defs
import Mathlib.Tactic.TypeStar
import Mathlib.Data.Nat.Init

/-!
# Big-endian numbers

Numbers written as a fixed count of bytes, most significant first, as the
`to_be_bytes` and `from_be_bytes` of fixed-width machine integers: the value
of `w` bytes is below `256 ^ w`, and both directions are inverse to each other
on that range (`ofBigEndian_bigEndian`, `bigEndian_ofBigEndian`).
-/

/-- The `w` lowest bytes of `n`, most significant first. -/
def bigEndian : (w n : ℕ) → List UInt8
  | 0, _ => []
  | w + 1, n => UInt8.ofNat (n / 256 ^ w) :: bigEndian w n

/-- The number that bytes denote, most significant first. -/
def ofBigEndian : List UInt8 → ℕ
  | [] => 0
  | b :: bytes => 256 ^ bytes.length * b.toNat + ofBigEndian bytes

@[simp] theorem length_bigEndian (w n : ℕ) : (bigEndian w n).length = w := by
  induction w with
  | zero => rfl
  | succ w ih => simp [bigEndian, ih]

/-- Bytes denote a number that fits them. -/
theorem ofBigEndian_lt (bytes : List UInt8) : ofBigEndian bytes < 256 ^ bytes.length := by
  induction bytes with
  | nil => exact Nat.one_pos
  | cons b bytes ih =>
    have hb : b.toNat + 1 ≤ 256 := b.toNat_lt
    calc 256 ^ bytes.length * b.toNat + ofBigEndian bytes
        < 256 ^ bytes.length * (b.toNat + 1) := by rw [Nat.mul_succ]; omega
      _ ≤ 256 ^ bytes.length * 256 := Nat.mul_le_mul_left _ hb

/-- Writing a number and reading it back loses what does not fit. -/
theorem ofBigEndian_bigEndian (w n : ℕ) : ofBigEndian (bigEndian w n) = n % 256 ^ w := by
  induction w with
  | zero => exact (Nat.mod_one n).symm
  | succ w ih =>
    rw [bigEndian, ofBigEndian, ih, length_bigEndian, UInt8.toNat_ofNat']
    exact (Nat.add_comm ..).trans (Nat.mod_mul (a := 256 ^ w) (b := 256)).symm

theorem ofBigEndian_bigEndian_of_lt {w n : ℕ} (h : n < 256 ^ w) :
    ofBigEndian (bigEndian w n) = n := by
  rw [ofBigEndian_bigEndian, Nat.mod_eq_of_lt h]

/-- Only the lowest `w` bytes of a number are written. -/
theorem bigEndian_mul_add (w a n : ℕ) : bigEndian w (256 ^ w * a + n) = bigEndian w n := by
  induction w generalizing a with
  | zero => rfl
  | succ w ih =>
    have hpos : 0 < 256 ^ w := Nat.pow_pos (by decide)
    rw [bigEndian, bigEndian, Nat.pow_succ, Nat.mul_assoc, ih, Nat.mul_add_div hpos]
    congr 1
    apply UInt8.toNat_inj.1
    simp

/-- Reading bytes and writing them again gives the same bytes. -/
theorem bigEndian_ofBigEndian (bytes : List UInt8) :
    bigEndian bytes.length (ofBigEndian bytes) = bytes := by
  induction bytes with
  | nil => rfl
  | cons b bytes ih =>
    have hpos : 0 < 256 ^ bytes.length := Nat.pow_pos (by decide)
    rw [List.length_cons, bigEndian, ofBigEndian, bigEndian_mul_add, ih, Nat.mul_add_div hpos,
      Nat.div_eq_of_lt (ofBigEndian_lt bytes), Nat.add_zero, UInt8.ofNat_toNat]
