import DurableState.Decimal.Digits
import Mathlib.Algebra.Group.Nat.Defs
import Mathlib.Data.List.TakeWhile

/-!
# DurableState.Proofs.Digits — decimal digits denote the number that they were made from

`value_digitChars` is the round trip. A number other than zero has no zero in front
(`head?_digitChars_ne_zero`), and zeros that are put in front change nothing
(`value_replicate_append`), which is what padded numbers rest on.
-/

namespace DurableState.Decimal

/-- The digits in front count by the power of ten that those behind take. -/
theorem value_append (xs ys : List Char) :
    value (xs ++ ys) = value xs * Nat.pow 10 ys.length + value ys := by
  have hsplit : value (xs ++ ys) = Nat.ofDigitChars 10 ys (value xs) := List.foldl_append
  rw [hsplit, Nat.ofDigitChars_eq_ofDigitChars_zero, Nat.mul_comm]
  rfl

/-- Zeros in front change nothing. -/
theorem value_replicate_append (k : Nat) (ds : List Char) :
    value (List.replicate k '0' ++ ds) = value ds := by
  have hzeros : value (List.replicate k '0') = 10 ^ k * 0 := Nat.ofDigitChars_replicate_zero
  rw [value_append, hzeros]
  simp

@[simp]
theorem value_digitChars (n : Nat) : value (digitChars n) = n := Nat.ofDigitChars_ten_toDigits

theorem isDigit_of_mem_digitChars {n : Nat} {c : Char} (h : c ∈ digitChars n) :
    c.isDigit = true :=
  Nat.isDigit_of_mem_toDigits (by decide) (by decide) h

theorem digitChars_ne_nil (n : Nat) : digitChars n ≠ [] := Nat.toDigits_ne_nil

/-- A numeral is one or more digits. -/
theorem isNumeral_iff {ds : List Char} :
    isNumeral ds = true ↔ ds ≠ [] ∧ ∀ c ∈ ds, c.isDigit = true := by
  simp [isNumeral]

theorem isNumeral_digitChars (n : Nat) : isNumeral (digitChars n) = true :=
  isNumeral_iff.2 ⟨digitChars_ne_nil n, fun _ hc => isDigit_of_mem_digitChars hc⟩

theorem digitChars_of_lt {n : Nat} (h : n < 10) : digitChars n = [Nat.digitChar n] :=
  Nat.toDigits_of_lt_base h

theorem digitChars_of_le {n : Nat} (h : 10 ≤ n) :
    digitChars n = digitChars (n / 10) ++ [Nat.digitChar (n % 10)] :=
  Nat.toDigits_of_base_le (by decide) h

/-- A number other than zero has no zero in front. -/
theorem head?_digitChars_ne_zero {n : Nat} (h : 0 < n) : (digitChars n).head? ≠ some '0' := by
  -- By induction on the number, a digit at a time from the end.
  induction n using Nat.strongRecOn with
  | ind n ih =>
    by_cases hn : n < 10
    · rw [digitChars_of_lt hn, List.head?_cons]
      intro heq
      have hzero := Nat.digitChar_eq_zero.1 (Option.some.inj heq)
      omega
    · -- The digits of a greater number start as those of its tenth.
      have hfirst := ih (n / 10) (by omega) (by omega)
      rw [digitChars_of_le (by omega)]
      cases hds : digitChars (n / 10) with
      | nil => exact absurd hds (digitChars_ne_nil _)
      | cons d ds =>
        rw [hds] at hfirst
        exact hfirst

/-- A number below a power of ten has at most as many digits. -/
theorem length_digitChars_le {n k : Nat} (hk : 0 < k) (h : n < 10 ^ k) :
    (digitChars n).length ≤ k :=
  (Nat.length_toDigits_le_iff (by decide) hk).2 h

/-- Digits are read up to what is none. -/
theorem takeWhile_isDigit_append {ds rest : List Char} (hds : ∀ c ∈ ds, c.isDigit = true)
    (hrest : ∀ c ∈ rest.head?, c.isDigit = false) :
    (ds ++ rest).takeWhile Char.isDigit = ds := by
  rw [List.takeWhile_append_of_pos hds]
  cases rest with
  | nil => simp
  | cons c rest => simp [hrest c rfl]

theorem dropWhile_isDigit_append {ds rest : List Char} (hds : ∀ c ∈ ds, c.isDigit = true)
    (hrest : ∀ c ∈ rest.head?, c.isDigit = false) :
    (ds ++ rest).dropWhile Char.isDigit = rest := by
  rw [List.dropWhile_append_of_pos hds]
  cases rest with
  | nil => rfl
  | cons c rest => simp [hrest c rfl]

end DurableState.Decimal
