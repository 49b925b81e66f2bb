/-
**The text form of a log position.**

A position is written as its two 32-bit halves in upper-case hexadecimal, `X/Y`. `parseLSN_string`:
reading the text of a position gives the position back.
-/

import Mathlib.Tactic.IntervalCases
import PgSprite.Decode.Change

namespace PgSprite.Decode

/-- The upper-case digit of a value below sixteen. -/
def hexChar (d : ℕ) : Char := if d < 10 then Char.ofNat (48 + d) else Char.ofNat (55 + d)

/-- The hexadecimal digits of a number, the highest first. -/
def hexDigits (n : ℕ) : List Char :=
  if n < 16 then [hexChar n] else hexDigits (n / 16) ++ [hexChar (n % 16)]
termination_by n
decreasing_by omega

/-- The position's text. -/
def LSN.string (l : LSN) : String :=
  String.ofList (hexDigits (l.toNat / 2 ^ 32) ++ '/' :: hexDigits (l.toNat % 2 ^ 32))

/-- Why a half of a position could not be read. -/
inductive ParseUintError where
  | invalidSyntax
  | valueOutOfRange
  deriving DecidableEq, Repr

/-- Why a text is not a position. -/
inductive ParseLSNError where
  | form
  | high (cause : ParseUintError)
  | low (cause : ParseUintError)
  deriving DecidableEq, Repr

/-- The value of a hexadecimal digit in either case. -/
def hexValue (c : Char) : Option ℕ :=
  if '0' ≤ c ∧ c ≤ '9' then some (c.toNat - 48)
  else if 'A' ≤ c ∧ c ≤ 'F' then some (c.toNat - 55)
  else if 'a' ≤ c ∧ c ≤ 'f' then some (c.toNat - 87)
  else none

/-- Takes one more digit into a 32-bit number. -/
def takeDigit (n : ℕ) (c : Char) : Except ParseUintError ℕ :=
  match hexValue c with
  | none => .error .invalidSyntax
  | some d => if n * 16 + d < 2 ^ 32 then .ok (n * 16 + d) else .error .valueOutOfRange

/-- Reads a 32-bit hexadecimal number. -/
def parseUint (digits : List Char) : Except ParseUintError ℕ :=
  if digits.isEmpty then .error .invalidSyntax else digits.foldlM takeDigit 0

/-- Reads the text form of a position. -/
def parseLSN (s : String) : Except ParseLSNError LSN :=
  match s.toList.dropWhile (· ≠ '/') with
  | [] => .error .form
  | _ :: low =>
    match parseUint (s.toList.takeWhile (· ≠ '/')) with
    | .error cause => .error (.high cause)
    | .ok hi =>
      match parseUint low with
      | .error cause => .error (.low cause)
      | .ok lo => .ok (UInt64.ofNat (hi * 2 ^ 32 + lo))

/-! ### Reading back what was written -/

theorem hexValue_hexChar {d : ℕ} (small : d < 16) : hexValue (hexChar d) = some d := by
  interval_cases d <;> decide

theorem hexChar_ne_slash {d : ℕ} (small : d < 16) : hexChar d ≠ '/' := by
  interval_cases d <;> decide

theorem hexDigits_ne_nil (n : ℕ) : hexDigits n ≠ [] := by
  rw [hexDigits]
  split <;> simp

theorem slash_not_mem_hexDigits (n : ℕ) : ∀ c ∈ hexDigits n, c ≠ '/' := by
  induction n using Nat.strongRecOn with
  | ind n ih =>
    intro c member
    rw [hexDigits] at member
    split at member
    next small =>
      rw [List.mem_singleton.mp member]
      exact hexChar_ne_slash small
    next large =>
      rcases List.mem_append.mp member with early | last
      · exact ih (n / 16) (by omega) c early
      · rw [List.mem_singleton.mp last]
        exact hexChar_ne_slash (Nat.mod_lt _ (by omega))

/-- The digits of a number of 32 bits are read back as it. -/
theorem foldlM_takeDigit_hexDigits (n : ℕ) (fits : n < 2 ^ 32) :
    (hexDigits n).foldlM takeDigit 0 = .ok n := by
  induction n using Nat.strongRecOn with
  | ind n ih =>
    rw [hexDigits]
    split
    next small =>
      rw [List.foldlM_cons, takeDigit, hexValue_hexChar small]
      simp only [Nat.zero_mul, Nat.zero_add, if_pos fits]
      rfl
    next large =>
      have rebuilt : n / 16 * 16 + n % 16 = n := by omega
      rw [List.foldlM_append, ih (n / 16) (by omega) (by omega)]
      simp only [bind, Except.bind]
      rw [List.foldlM_cons, takeDigit, hexValue_hexChar (Nat.mod_lt _ (by omega))]
      simp only [rebuilt, if_pos fits]
      rfl

theorem parseUint_hexDigits (n : ℕ) (fits : n < 2 ^ 32) : parseUint (hexDigits n) = .ok n := by
  rw [parseUint, if_neg, foldlM_takeDigit_hexDigits n fits]
  simpa using hexDigits_ne_nil n

/-- **Reading the text of a position gives the position back.** -/
theorem parseLSN_string (l : LSN) : parseLSN l.string = .ok l := by
  have bound := l.toNat_lt
  have plain : ∀ c ∈ hexDigits (l.toNat / 2 ^ 32), decide (c ≠ '/') = true := fun c member =>
    decide_eq_true (slash_not_mem_hexDigits _ c member)
  have low : (LSN.string l).toList.dropWhile (· ≠ '/') = '/' :: hexDigits (l.toNat % 2 ^ 32) := by
    rw [LSN.string, String.toList_ofList, List.dropWhile_append_of_pos plain]
    rfl
  have high : (LSN.string l).toList.takeWhile (· ≠ '/') = hexDigits (l.toNat / 2 ^ 32) := by
    rw [LSN.string, String.toList_ofList, List.takeWhile_append_of_pos plain]
    exact List.append_nil _
  rw [parseLSN, low, high]
  simp only [parseUint_hexDigits (l.toNat / 2 ^ 32) (by omega),
    parseUint_hexDigits (l.toNat % 2 ^ 32) (by omega), Except.ok.injEq]
  rw [show l.toNat / 2 ^ 32 * 2 ^ 32 + l.toNat % 2 ^ 32 = l.toNat by omega]
  exact UInt64.ofNat_toNat

end PgSprite.Decode
