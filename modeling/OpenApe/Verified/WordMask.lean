import Mathlib.Data.Nat.Bitwise
import Mathlib.Tactic.Common

/-!
# Prefix masks of machine words

A range of numbers that share their first bits is tested with one mask: the
word without its low bits is the base of the range.  `and_prefixMask` says
what the mask leaves, and `and_prefixMask_eq_iff` that the test is membership
in the range, for every width and prefix length.  `packed` assembles a word
from bytes by shifts, as `packed_eq` says without overlap or sign.
-/

namespace OpenApe.Verified.WordMask

/-- The word whose first `len` bits are set. -/
def prefixMask (w len : Nat) : BitVec w :=
  BitVec.ofNat w (2 ^ w - 2 ^ (w - len))

theorem prefixMask_eq_shiftLeft (w len : Nat) :
    prefixMask w len = BitVec.allOnes w <<< (w - len) := by
  have hPow : 2 ^ (w - len) ≤ 2 ^ w :=
    Nat.pow_le_pow_right (by decide) (Nat.sub_le w len)
  have hPos : 0 < 2 ^ (w - len) := Nat.two_pow_pos _
  apply BitVec.eq_of_toNat_eq
  rw [prefixMask, BitVec.toNat_ofNat, BitVec.toNat_shiftLeft,
    BitVec.toNat_allOnes, Nat.shiftLeft_eq]
  rw [Nat.mod_eq_of_lt (by omega)]
  -- (2 ^ w - 1) * 2 ^ k is 2 ^ w - 2 ^ k after 2 ^ k - 1 overflows
  have hSplit : (2 ^ w - 1) * 2 ^ (w - len) =
      2 ^ w - 2 ^ (w - len) + 2 ^ w * (2 ^ (w - len) - 1) := by
    have hMul := Nat.mul_sub (2 ^ w) (2 ^ (w - len)) 1
    have hMul' := Nat.sub_mul (2 ^ w) 1 (2 ^ (w - len))
    have hLe : 2 ^ w ≤ 2 ^ w * 2 ^ (w - len) :=
      Nat.le_mul_of_pos_right _ hPos
    omega
  rw [hSplit, Nat.add_mul_mod_self_left]
  exact (Nat.mod_eq_of_lt (by omega)).symm

/-- The mask clears the bits behind the prefix. -/
theorem and_prefixMask {w : Nat} (len : Nat) (x : BitVec w) :
    (x &&& prefixMask w len).toNat =
      x.toNat / 2 ^ (w - len) * 2 ^ (w - len) := by
  have hShift : x &&& prefixMask w len =
      (x >>> (w - len)) <<< (w - len) := by
    rw [prefixMask_eq_shiftLeft]
    apply BitVec.eq_of_getLsbD_eq
    intro i hi
    rw [BitVec.getLsbD_and, BitVec.getLsbD_shiftLeft,
      BitVec.getLsbD_shiftLeft, BitVec.getLsbD_ushiftRight,
      BitVec.getLsbD_allOnes]
    by_cases hLow : i < w - len
    · simp [hLow]
    · have hBack : w - len + (i - (w - len)) = i := by omega
      have hIn : i - (w - len) < w := by omega
      simp [hLow, hi, hBack, hIn]
  have hLe := Nat.div_mul_le_self x.toNat (2 ^ (w - len))
  rw [hShift, BitVec.toNat_shiftLeft, BitVec.toNat_ushiftRight,
    Nat.shiftRight_eq_div_pow, Nat.shiftLeft_eq]
  exact Nat.mod_eq_of_lt (lt_of_le_of_lt hLe x.isLt)

/-- The masked word is the base exactly where both share the prefix. -/
theorem and_prefixMask_eq_iff {w len base : Nat}
    (hBase : base % 2 ^ (w - len) = 0) (x : BitVec w) :
    (x &&& prefixMask w len).toNat = base ↔
      x.toNat / 2 ^ (w - len) = base / 2 ^ (w - len) := by
  rw [and_prefixMask]
  have hExact : base / 2 ^ (w - len) * 2 ^ (w - len) = base :=
    Nat.div_mul_cancel (Nat.dvd_of_mod_eq_zero hBase)
  constructor
  · intro h
    rw [← h, Nat.mul_div_cancel _ (Nat.two_pow_pos _)]
  · intro h
    rw [h, hExact]

/-- Four bytes, shifted into one word. -/
def packed (a b c d : Nat) : BitVec 32 :=
  BitVec.ofNat 32 a <<< 24 ||| BitVec.ofNat 32 b <<< 16 |||
    BitVec.ofNat 32 c <<< 8 ||| BitVec.ofNat 32 d

/-- No byte reaches into another, and the first one sets no sign. -/
theorem packed_eq {a b c d : Nat} (ha : a < 256) (hb : b < 256)
    (hc : c < 256) (hd : d < 256) :
    (packed a b c d).toNat = 256 * (256 * (256 * a + b) + c) + d := by
  have hA : a <<< 24 % 2 ^ 32 = a <<< 24 := by
    rw [Nat.shiftLeft_eq]
    omega
  have hB : b <<< 16 % 2 ^ 32 = b <<< 16 := by
    rw [Nat.shiftLeft_eq]
    omega
  have hC : c <<< 8 % 2 ^ 32 = c <<< 8 := by
    rw [Nat.shiftLeft_eq]
    omega
  have hNext : ∀ {high low : Nat}, low < 256 →
      high <<< 8 ||| low = high <<< 8 + low :=
    fun hLow => (Nat.shiftLeft_add_eq_or_of_lt (i := 8) hLow _).symm
  have hAB : a <<< 24 ||| b <<< 16 = (a <<< 8 + b) <<< 16 := by
    rw [← hNext hb, Nat.shiftLeft_or_distrib, ← Nat.shiftLeft_add]
  have hABC : (a <<< 8 + b) <<< 16 ||| c <<< 8 =
      ((a <<< 8 + b) <<< 8 + c) <<< 8 := by
    rw [← hNext hc, Nat.shiftLeft_or_distrib, ← Nat.shiftLeft_add]
  rw [packed, BitVec.toNat_or, BitVec.toNat_or, BitVec.toNat_or,
    BitVec.toNat_shiftLeft, BitVec.toNat_shiftLeft, BitVec.toNat_shiftLeft,
    BitVec.toNat_ofNat, BitVec.toNat_ofNat, BitVec.toNat_ofNat,
    BitVec.toNat_ofNat, Nat.mod_eq_of_lt (by omega : a < 2 ^ 32),
    Nat.mod_eq_of_lt (by omega : b < 2 ^ 32),
    Nat.mod_eq_of_lt (by omega : c < 2 ^ 32),
    Nat.mod_eq_of_lt (by omega : d < 2 ^ 32), hA, hB, hC, hAB, hABC,
    hNext hd]
  simp only [Nat.shiftLeft_eq]
  omega

end OpenApe.Verified.WordMask
