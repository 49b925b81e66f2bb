/-
**Numbers written in decimal.**

`parseUint limit` reads a number below `limit` from its decimal digits, as a bounded reader of a
fixed-width integer does. `parseUint_toDigits`: what `Nat.toDigits` writes is read back.
-/

import Mathlib.Data.List.Basic
import Mathlib.Tactic.Common

namespace PgSprite.Lib

/-- Why a text is not a number of the width asked for. -/
inductive NumError where
  | invalidSyntax
  | valueOutOfRange
  deriving DecidableEq, Repr

/-- The reader's words for the failure. -/
def NumError.text : NumError → String
  | .invalidSyntax => "invalid syntax"
  | .valueOutOfRange => "value out of range"

/-- Takes one more digit into a number below the limit. -/
def takeDecimal (limit n : ℕ) (c : Char) : Except NumError ℕ :=
  if c.isDigit then
    if n * 10 + (c.toNat - 48) < limit then .ok (n * 10 + (c.toNat - 48))
    else .error .valueOutOfRange
  else .error .invalidSyntax

/-- Reads a decimal number below the limit. -/
def parseUint (limit : ℕ) (digits : List Char) : Except NumError ℕ :=
  if digits.isEmpty then .error .invalidSyntax else digits.foldlM (takeDecimal limit) 0

section

variable {limit n : ℕ}

theorem takeDecimal_digitChar {d : ℕ} (digit : d < 10) (fits : n * 10 + d < limit) :
    takeDecimal limit n d.digitChar = .ok (n * 10 + d) := by
  have value : d.digitChar.toNat - 48 = d := Nat.toNat_digitChar_sub_48_of_lt_ten digit
  have isDigit : d.digitChar.isDigit = true := by
    rw [Nat.isDigit_digitChar]
    exact decide_eq_true digit
  rw [takeDecimal, if_pos isDigit, value, if_pos fits]

/-- The digits of a number within the limit are read back as it. -/
theorem foldlM_takeDecimal_toDigits (n : ℕ) (fits : n < limit) :
    (Nat.toDigits 10 n).foldlM (takeDecimal limit) 0 = .ok n := by
  induction n using Nat.strongRecOn with
  | ind n ih =>
    by_cases small : n < 10
    · rw [Nat.toDigits_of_lt_base small, List.foldlM_cons,
        takeDecimal_digitChar small (by omega)]
      simp only [Nat.zero_mul, Nat.zero_add]
      rfl
    · have rebuilt : n / 10 * 10 + n % 10 = n := by omega
      have last : takeDecimal limit (n / 10) (n % 10).digitChar = .ok (n / 10 * 10 + n % 10) :=
        takeDecimal_digitChar (Nat.mod_lt _ (by omega)) (by omega)
      rw [Nat.toDigits_of_base_le (by omega) (by omega), List.foldlM_append,
        ih (n / 10) (by omega) (by omega)]
      simp only [bind, Except.bind]
      rw [List.foldlM_cons, last, rebuilt]
      rfl

/-- **A number that fits is read back from its digits.** -/
theorem parseUint_toDigits (fits : n < limit) :
    parseUint limit (Nat.toDigits 10 n) = .ok n := by
  rw [parseUint, if_neg, foldlM_takeDecimal_toDigits n fits]
  simp

theorem not_mem_toDigits {c : Char} (apart : c.isDigit = false) : c ∉ Nat.toDigits 10 n := by
  intro member
  have digit := Nat.isDigit_of_mem_toDigits (by omega) (by omega) member
  rw [apart] at digit
  cases digit

end

end PgSprite.Lib
