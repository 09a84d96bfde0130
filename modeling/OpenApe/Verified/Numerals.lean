import OpenApe.Verified.IpLiteral
import OpenApe.Verified.Json

/-!
# Decimal numerals in a text

What `String(n)` writes consists of digits, has the value `n`, and is read
back from the front of a longer text (`number?_decimal`).
-/

namespace OpenApe.Verified.Numerals

open JsText Json
open IpLiteral (isDigit)

/-- The value of a text of digits. -/
def value (digits : JsString) : Nat :=
  digits.foldl (fun n u => 10 * n + (u.toNat - 48)) 0

theorem digit_value {d : Nat} (h : d < 10) :
    (48 + d).toUInt16.toNat - 48 = d ∧
      isDigit (48 + d).toUInt16 = true ∧
      (d ≠ 0 → (48 + d).toUInt16 ≠ unit '0') :=
  (by decide : ∀ d < 10, (48 + d).toUInt16.toNat - 48 = d ∧
    isDigit (48 + d).toUInt16 = true ∧
    (d ≠ 0 → (48 + d).toUInt16 ≠ unit '0')) d h

theorem value_decimal (n : Nat) : value (decimal n) = n := by
  induction n using decimal.induct with
  | case1 n h =>
      have hDigit := (digit_value h).1
      rw [decimal, if_pos h, value, List.foldl_cons, List.foldl_nil]
      omega
  | case2 n h ih =>
      have hDigit := (digit_value (Nat.mod_lt n (by decide))).1
      rw [value] at ih
      rw [decimal, if_neg h, value, List.foldl_append, ih, List.foldl_cons,
        List.foldl_nil]
      omega

theorem decimal_ne_nil (n : Nat) : decimal n ≠ [] := by
  rw [decimal]
  split
  · exact List.cons_ne_nil _ _
  · exact List.append_ne_nil_of_right_ne_nil _ (List.cons_ne_nil _ _)

theorem isDigit_of_mem_decimal {n : Nat} {u : CodeUnit} (h : u ∈ decimal n) :
    isDigit u = true := by
  induction n using decimal.induct with
  | case1 n hSmall =>
      rw [decimal, if_pos hSmall, List.mem_singleton] at h
      rw [h]
      exact (digit_value hSmall).2.1
  | case2 n hLarge ih =>
      rw [decimal, if_neg hLarge, List.mem_append] at h
      rcases h with hFront | hLast
      · exact ih hFront
      · rw [List.mem_singleton.mp hLast]
        exact (digit_value (Nat.mod_lt n (by decide))).2.1

/-- Only zero starts with a zero. -/
theorem head_decimal {n : Nat} (hn : n ≠ 0) :
    (decimal n).head? ≠ some (unit '0') := by
  induction n using decimal.induct with
  | case1 n hSmall =>
      rw [decimal, if_pos hSmall]
      intro hHead
      exact (digit_value hSmall).2.2 hn (Option.some.inj hHead)
  | case2 n hLarge ih =>
      have hFront : n / 10 ≠ 0 := by omega
      rw [decimal, if_neg hLarge,
        List.head?_append_of_ne_nil _ (decimal_ne_nil (n / 10))]
      exact ih hFront

/-- The digits at the front of a text, and what follows them. -/
def number? (text : JsString) : Option (Nat × JsString) :=
  if text.takeWhile isDigit = [] then none
  else some (value (text.takeWhile isDigit), text.dropWhile isDigit)

/-- A numeral is read up to the first other unit. -/
theorem digits_decimal (n : Nat) {rest : JsString}
    (hRest : ∀ u, rest.head? = some u → isDigit u = false) :
    (decimal n ++ rest).takeWhile isDigit = decimal n ∧
      (decimal n ++ rest).dropWhile isDigit = rest := by
  have hStop : rest.takeWhile isDigit = [] ∧ rest.dropWhile isDigit = rest := by
    cases rest with
    | nil => exact ⟨rfl, rfl⟩
    | cons u rest =>
        have hu := Bool.eq_false_iff.mp (hRest u rfl)
        exact ⟨List.takeWhile_cons_of_neg hu, List.dropWhile_cons_of_neg hu⟩
  have hDigits : ∀ u ∈ decimal n, isDigit u = true :=
    fun _ hu => isDigit_of_mem_decimal hu
  rw [List.takeWhile_append_of_pos hDigits,
    List.dropWhile_append_of_pos hDigits, hStop.1, hStop.2, List.append_nil]
  exact ⟨rfl, rfl⟩

theorem number?_decimal (n : Nat) {rest : JsString}
    (hRest : ∀ u, rest.head? = some u → isDigit u = false) :
    number? (decimal n ++ rest) = some (n, rest) := by
  obtain ⟨hTake, hDrop⟩ := digits_decimal n hRest
  rw [number?, hTake, hDrop, if_neg (decimal_ne_nil n), value_decimal]

end OpenApe.Verified.Numerals
