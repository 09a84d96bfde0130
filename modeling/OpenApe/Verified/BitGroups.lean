import Mathlib.Data.Nat.Bitwise
import Mathlib.Data.List.Basic

/-!
# Bits regrouped from one digit width to another

Base-32 and base-64 codes write the bits of a list of bytes in groups of
another width.  `bits w n` are the low `w` bits of a number, the most
significant first, and a list of digits stands for the bits of its digits one
after the other.

The loops that regroup keep the bits not yet written in a 32-bit accumulator:
`bits_push` is what a digit shifted in does, `bits_take` what a digit shifted
out reads.  Above the pending bits the accumulator may hold anything.
-/

namespace OpenApe.Verified.BitGroups

/-! ## The low bits of a number -/

/-- The low `w` bits of `n`, most significant first. -/
def bits : Nat → Nat → List Bool
  | 0, _ => []
  | w + 1, n => n.testBit w :: bits w n

@[simp] theorem bits_zero (n : Nat) : bits 0 n = [] := rfl

@[simp] theorem length_bits (w n : Nat) : (bits w n).length = w := by
  induction w with
  | zero => rfl
  | succ w ih => rw [bits, List.length_cons, ih]

/-- Only the low bits matter. -/
theorem bits_congr {w n m : Nat}
    (h : ∀ i, i < w → n.testBit i = m.testBit i) : bits w n = bits w m := by
  induction w with
  | zero => rfl
  | succ w ih =>
      rw [bits, bits, h w (Nat.lt_succ_self w),
        ih fun i hi => h i (Nat.lt_succ_of_lt hi)]

theorem testBit_of_bits {w n m : Nat} (h : bits w n = bits w m) :
    ∀ i, i < w → n.testBit i = m.testBit i := by
  induction w with
  | zero => exact fun i hi => absurd hi (Nat.not_lt_zero i)
  | succ w ih =>
      obtain ⟨hTop, hRest⟩ := List.cons.inj h
      intro i hi
      by_cases hLast : i = w
      · rw [hLast, hTop]
      · exact ih hRest i (by omega)

/-- Numbers below `2 ^ w` are determined by their low `w` bits. -/
theorem bits_inj {w n m : Nat} (hn : n < 2 ^ w) (hm : m < 2 ^ w)
    (h : bits w n = bits w m) : n = m := by
  apply Nat.eq_of_testBit_eq
  intro i
  by_cases hi : i < w
  · exact testBit_of_bits h i hi
  · have hPow : 2 ^ w ≤ 2 ^ i :=
      Nat.pow_le_pow_right (by decide) (Nat.le_of_not_lt hi)
    rw [Nat.testBit_lt_two_pow (hn.trans_le hPow),
      Nat.testBit_lt_two_pow (hm.trans_le hPow)]

/-- A group of bits is cut in two. -/
theorem bits_add (a b n : Nat) :
    bits (a + b) n = bits a (n >>> b) ++ bits b n := by
  induction a with
  | zero => rw [Nat.zero_add, bits_zero, List.nil_append]
  | succ a ih =>
      rw [Nat.succ_add, bits, bits, ih, List.cons_append,
        Nat.testBit_shiftRight, Nat.add_comm b a]

/-! ## Lists of digits -/

/-- The bits of a list of digits of one width. -/
def digitBits (w : Nat) (digits : List Nat) : List Bool :=
  digits.flatMap (bits w)

@[simp] theorem digitBits_nil (w : Nat) : digitBits w [] = [] := rfl

@[simp] theorem digitBits_cons (w d : Nat) (digits : List Nat) :
    digitBits w (d :: digits) = bits w d ++ digitBits w digits := rfl

theorem digitBits_append (w : Nat) (xs ys : List Nat) :
    digitBits w (xs ++ ys) = digitBits w xs ++ digitBits w ys :=
  List.flatMap_append

theorem length_digitBits (w : Nat) (digits : List Nat) :
    (digitBits w digits).length = w * digits.length := by
  induction digits with
  | nil => rfl
  | cons d digits ih =>
      rw [digitBits_cons, List.length_append, length_bits, ih,
        List.length_cons, Nat.mul_succ, Nat.add_comm]

/-- Digits of one positive width are determined by their bits. -/
theorem digits_injective {w : Nat} (hWidth : 0 < w) {xs ys : List Nat}
    (hx : ∀ d ∈ xs, d < 2 ^ w) (hy : ∀ d ∈ ys, d < 2 ^ w)
    (h : digitBits w xs = digitBits w ys) : xs = ys := by
  induction xs generalizing ys with
  | nil =>
      have hLength := congrArg List.length h
      rw [length_digitBits, length_digitBits, List.length_nil, Nat.mul_zero,
        eq_comm, Nat.mul_eq_zero] at hLength
      exact (List.eq_nil_of_length_eq_zero
        (hLength.resolve_left hWidth.ne')).symm
  | cons d xs ih =>
      cases ys with
      | nil =>
          have hLength := congrArg List.length h
          rw [length_digitBits, length_digitBits, List.length_nil,
            Nat.mul_zero, Nat.mul_eq_zero] at hLength
          exact absurd (hLength.resolve_left hWidth.ne') (by simp)
      | cons e ys =>
          obtain ⟨hHead, hTail⟩ := List.append_inj h
            ((length_bits w d).trans (length_bits w e).symm)
          rw [bits_inj (hx d List.mem_cons_self) (hy e List.mem_cons_self)
              hHead,
            ih (fun d' hd => hx d' (List.mem_cons_of_mem _ hd))
              (fun e' he => hy e' (List.mem_cons_of_mem _ he)) hTail]

/-! ## The accumulator -/

/-- The pending bits of an accumulator. -/
def pending (n : Nat) (acc : BitVec 32) : List Bool := bits n acc.toNat

@[simp] theorem length_pending (n : Nat) (acc : BitVec 32) :
    (pending n acc).length = n := length_bits n _

theorem pending_congr {n : Nat} {a b : BitVec 32}
    (h : ∀ i, i < n → a.getLsbD i = b.getLsbD i) : pending n a = pending n b :=
  bits_congr fun i hi => by
    rw [BitVec.testBit_toNat, BitVec.testBit_toNat, h i hi]

/-- A digit of `w` bits is shifted in below `n` pending ones. -/
theorem bits_push {n w d : Nat} {acc : BitVec 32} (hFits : n + w ≤ 32)
    (hDigit : d < 2 ^ w) :
    pending (n + w) (acc <<< w ||| BitVec.ofNat 32 d) =
      pending n acc ++ bits w d := by
  rw [pending, pending, bits_add]
  have hBelow (i : Nat) (hi : w ≤ i) : d.testBit i = false :=
    Nat.testBit_lt_two_pow (hDigit.trans_le
      (Nat.pow_le_pow_right (by decide) hi))
  congr 1
  · refine bits_congr fun i hi => ?_
    rw [Nat.testBit_shiftRight, BitVec.testBit_toNat, BitVec.testBit_toNat,
      BitVec.getLsbD_or, BitVec.getLsbD_shiftLeft, BitVec.getLsbD_ofNat,
      hBelow (w + i) (Nat.le_add_right w i), Bool.and_false, Bool.or_false,
      Nat.add_sub_cancel_left]
    simp only [show w + i < 32 by omega, show ¬w + i < w by omega,
      decide_true, decide_false, Bool.not_false, Bool.true_and]
  · refine bits_congr fun i hi => ?_
    rw [BitVec.testBit_toNat, BitVec.getLsbD_or, BitVec.getLsbD_shiftLeft,
      BitVec.getLsbD_ofNat]
    simp only [hi, show i < 32 by omega, decide_true, Bool.not_true,
      Bool.and_false, Bool.false_and, Bool.false_or, Bool.true_and]

/-- Masking the accumulator keeps the bits below the mask. -/
theorem pending_mask {n k : Nat} {acc : BitVec 32} (h : n ≤ k) (hk : k ≤ 32) :
    pending n (acc &&& BitVec.ofNat 32 (2 ^ k - 1)) = pending n acc := by
  refine pending_congr fun i hi => ?_
  rw [BitVec.getLsbD_and, BitVec.getLsbD_ofNat, Nat.testBit_two_pow_sub_one]
  simp only [show i < 32 by omega, show i < k by omega, decide_true,
    Bool.and_true]

/-- The digit that a shift by the bits below it reads. -/
def taken (w n : Nat) (acc : BitVec 32) : Nat :=
  (acc.sshiftRight n &&& BitVec.ofNat 32 (2 ^ w - 1)).toNat

theorem taken_lt {w : Nat} (n : Nat) (acc : BitVec 32) (hw : w < 32) :
    taken w n acc < 2 ^ w := by
  rw [taken, BitVec.toNat_and, BitVec.toNat_ofNat]
  have hMask : 2 ^ w - 1 < 2 ^ 32 :=
    (Nat.sub_lt (Nat.two_pow_pos w) (by decide)).trans
      (Nat.pow_lt_pow_right (by decide) hw)
  rw [Nat.mod_eq_of_lt hMask]
  exact Nat.and_lt_two_pow _ (Nat.sub_lt (Nat.two_pow_pos w) (by decide))

/-- The upper `w` of the pending bits are shifted out. -/
theorem bits_take {w n : Nat} {acc : BitVec 32} (hFits : n + w ≤ 32) :
    pending (n + w) acc = bits w (taken w n acc) ++ pending n acc := by
  rw [pending, pending, Nat.add_comm n w, bits_add]
  congr 1
  refine bits_congr fun i hi => ?_
  rw [taken, Nat.testBit_shiftRight, BitVec.testBit_toNat,
    BitVec.testBit_toNat, BitVec.getLsbD_and, BitVec.getLsbD_sshiftRight,
    BitVec.getLsbD_ofNat, Nat.testBit_two_pow_sub_one]
  simp only [hi, show n + i < 32 by omega, show i < 32 by omega,
    show ¬32 ≤ i by omega, decide_true, decide_false, if_true, Bool.and_true,
    Bool.not_false, Bool.true_and]

/-- The pending bits are all zero. -/
theorem pending_eq_zero_iff {n : Nat} {acc : BitVec 32} (hn : n < 32) :
    acc &&& BitVec.ofNat 32 (2 ^ n - 1) = 0 ↔
      pending n acc = bits n 0 := by
  constructor
  · intro h
    rw [← pending_mask (le_refl n) hn.le, h]
    rfl
  · intro h
    apply BitVec.eq_of_getLsbD_eq
    intro i hi
    rw [BitVec.getLsbD_and, BitVec.getLsbD_ofNat, Nat.testBit_two_pow_sub_one]
    by_cases hLow : i < n
    · have hBit := testBit_of_bits h i hLow
      rw [BitVec.testBit_toNat] at hBit
      rw [hBit]
      simp
    · simp [hLow]

end OpenApe.Verified.BitGroups
