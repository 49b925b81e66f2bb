/-
**Texts as UTF-8 bytes.**

The bytes of a text are those of its characters one after another. A character's first byte is the
only one of its bytes that can start a character, so an offset into the bytes backs off to the start
of the character it falls into (`backOff_char`, `backOff_append`).
-/

import Mathlib.Data.List.Basic
import Mathlib.Tactic.Common

namespace PgSprite.Lib

/-- The bytes of a list of characters. -/
def utf8 (cs : List Char) : List UInt8 := cs.flatMap String.utf8EncodeChar

/-- Whether a byte can be the first of a character. -/
def runeStart (b : UInt8) : Bool := b &&& 0xC0 != 0x80

/-- The nearest offset at or before one at which a character starts; the first always does. -/
def backOff (s : List UInt8) : Nat → Nat
  | 0 => 0
  | n + 1 => if s[n + 1]?.any runeStart then n + 1 else backOff s n

@[simp] theorem utf8_nil : utf8 [] = [] := rfl

@[simp] theorem utf8_cons (c : Char) (cs : List Char) :
    utf8 (c :: cs) = String.utf8EncodeChar c ++ utf8 cs := rfl

@[simp] theorem utf8_append (as bs : List Char) : utf8 (as ++ bs) = utf8 as ++ utf8 bs :=
  List.flatMap_append

theorem utf8_length_ofList (cs : List Char) :
    (utf8 cs).length = (String.ofList cs).utf8ByteSize := by
  induction cs with
  | nil => rfl
  | cons c cs ih =>
    have split : String.ofList (c :: cs) = String.singleton c ++ String.ofList cs := by
      rw [String.singleton_eq_ofList, ← String.ofList_append]
      rfl
    rw [utf8_cons, List.length_append, String.length_utf8EncodeChar, ih, split,
      String.utf8ByteSize_append, String.utf8ByteSize_singleton]

theorem utf8_toList_length (s : String) : (utf8 s.toList).length = s.utf8ByteSize := by
  rw [utf8_length_ofList, String.ofList_toList]

theorem runeStart_of_isUTF8FirstByte {b : UInt8} (first : b.IsUTF8FirstByte) :
    runeStart b = true := by
  obtain ⟨b⟩ := b
  revert b
  decide

theorem runeStart_continuation (b : UInt8) : runeStart (b &&& 0x3f ||| 0x80) = false := by
  obtain ⟨b⟩ := b
  revert b
  decide

/-- A character's first byte starts it, and none of its others can start one. -/
theorem utf8EncodeChar_cons (c : Char) : ∃ first rest, String.utf8EncodeChar c = first :: rest ∧
    runeStart first = true ∧ ∀ b ∈ rest, runeStart b = false := by
  obtain ⟨first, rest, bytes⟩ := List.exists_cons_of_ne_nil (String.utf8EncodeChar_ne_nil (c := c))
  have start : runeStart first = true := by
    have isFirst := UInt8.isUTF8FirstByte_getElem_zero_utf8EncodeChar (c := c)
    simp only [bytes] at isFirst
    exact runeStart_of_isUTF8FirstByte isFirst
  refine ⟨first, rest, bytes, start, ?_⟩
  have size : c.utf8Size = 1 ∨ c.utf8Size = 2 ∨ c.utf8Size = 3 ∨ c.utf8Size = 4 := by
    have := c.utf8Size_pos
    have := c.utf8Size_le_four
    omega
  rcases size with one | two | three | four
  · rw [String.utf8EncodeChar_eq_singleton one] at bytes
    cases bytes
    nofun
  · rw [String.utf8EncodeChar_eq_cons_cons two] at bytes
    cases bytes
    simp [runeStart_continuation]
  · rw [String.utf8EncodeChar_eq_cons_cons_cons three] at bytes
    cases bytes
    simp [runeStart_continuation]
  · rw [String.utf8EncodeChar_eq_cons_cons_cons_cons four] at bytes
    cases bytes
    simp [runeStart_continuation]

/-- Texts that do not end start a character next. -/
theorem utf8_head (cs : List Char) (nonempty : cs ≠ []) : (utf8 cs)[0]?.any runeStart = true := by
  obtain ⟨c, cs, rfl⟩ := List.exists_cons_of_ne_nil nonempty
  obtain ⟨first, rest, bytes, start, _⟩ := utf8EncodeChar_cons c
  rw [utf8_cons, bytes]
  exact start

/-! ### Backing off -/

/-- An offset inside a character backs off to the character's start. -/
theorem backOff_char (c : Char) (s : List UInt8) :
    ∀ n, n < c.utf8Size → backOff (String.utf8EncodeChar c ++ s) n = 0 := by
  obtain ⟨first, rest, bytes, _, continuation⟩ := utf8EncodeChar_cons c
  have length : rest.length + 1 = c.utf8Size := by
    rw [← String.length_utf8EncodeChar, bytes]
    rfl
  intro n
  induction n with
  | zero => exact fun _ => rfl
  | succ n ih =>
    intro inside
    have here : (String.utf8EncodeChar c ++ s)[n + 1]? = some rest[n] := by
      rw [bytes, List.cons_append, List.getElem?_cons_succ,
        List.getElem?_append_left (by omega), List.getElem?_eq_getElem (by omega)]
    rw [backOff, here, Option.any_some, continuation _ (List.getElem_mem _),
      if_neg Bool.false_ne_true]
    exact ih (by omega)

/-- Behind whole characters an offset backs off as it does in the rest alone. -/
theorem backOff_append {before s : List UInt8} (starts : s[0]?.any runeStart = true)
    (some_ : before ≠ []) :
    ∀ n, backOff (before ++ s) (before.length + n) = before.length + backOff s n := by
  intro n
  induction n with
  | zero =>
    have positive := List.length_pos_iff.mpr some_
    obtain ⟨k, length⟩ : ∃ k, before.length = k + 1 := ⟨before.length - 1, by omega⟩
    have here : (before ++ s)[k + 1]? = s[0]? := by
      rw [← length, List.getElem?_append_right (Nat.le_refl _), Nat.sub_self]
    have first : backOff s 0 = 0 := rfl
    rw [Nat.add_zero, length, first, backOff, here, if_pos starts]
  | succ n ih =>
    have here : (before ++ s)[before.length + n + 1]? = s[n + 1]? := by
      rw [List.getElem?_append_right (by omega)]
      congr 1
      omega
    rw [← Nat.add_assoc, backOff, here, backOff]
    by_cases start : s[n + 1]?.any runeStart = true
    · rw [if_pos start, if_pos start, Nat.add_assoc]
    · rw [if_neg start, if_neg start, ih]

end PgSprite.Lib
