/-
**The names the server invents for a table's relations.**

A constraint that builds an index and a column that owns a sequence name a relation each, from the
table's name, the columns' and a label, shortened to the byte budget of an identifier. The names are
computed on bytes, as the text they are cut from is stored: `Bytes.makeObjectName` follows the code
and has no result where the code would slice out of range, `makeObjectName` is the server's rule on
whole characters.

* `Bytes.makeObjectName_eq` — with room for the label, the code's name is the server's;
* `makeObjectName_addition` — naming an index after all its columns gives the name the server's
  shorter addition gives;
* `defaultConstraintName_spec` — the name of an unnamed constraint is the first free candidate;
* `makeObjectName_follows_server` — the three together.
-/

import Mathlib.Data.Nat.Log
import Mathlib.Order.Interval.Finset.Nat
import PgSprite.Lib.Utf8
import PgSprite.Statement.Rewrite

namespace PgSprite.Statement

open PgSprite.Lib

/-! ### On bytes -/

namespace Bytes

/-- The two lengths after shrinking the longer by one byte until they fit. -/
def shrink (n1 n2 avail : Int) : Int × Int :=
  if avail < n1 + n2 then
    if n2 < n1 then shrink (n1 - 1) n2 avail else shrink n1 (n2 - 1) avail
  else (n1, n2)
  termination_by (n1 + n2 - avail).toNat
  decreasing_by all_goals omega

/-- A text cut to a number of bytes and then back to a whole character; a negative bound is out of
the slice's range. -/
def clipToRuneBoundary (s : List UInt8) (n : Int) : Option (List UInt8) :=
  if s.length ≤ n then some s
  else if n < 0 then none
  else some (s.take (backOff s n.toNat))

/-- A name made of one or two names and a label, within the identifier's byte budget. -/
def makeObjectName (name1 name2 label : List UInt8) : Option (List UInt8) := do
  let overhead : Int := label.length + 1 + (if name2 = [] then 0 else 1)
  let (n1, n2) := shrink name1.length name2.length (nameDataLen - overhead)
  let part1 ← clipToRuneBoundary name1 n1
  if name2 = [] then return part1 ++ utf8 ['_'] ++ label
  else
    let part2 ← clipToRuneBoundary name2 n2
    return part1 ++ utf8 ['_'] ++ part2 ++ utf8 ['_'] ++ label

theorem shrink_natCast (n1 n2 avail : Nat) :
    shrink n1 n2 avail =
      (((Statement.shrink n1 n2 avail).1 : Int), ((Statement.shrink n1 n2 avail).2 : Int)) := by
  fun_induction Statement.shrink n1 n2 avail with
  | case1 n1 n2 above longer ih =>
    rw [shrink, if_pos (by omega), if_pos (by omega), ← ih]
    congr 1
    omega
  | case2 n1 n2 above longer ih =>
    rw [shrink, if_pos (by omega), if_neg (by omega), ← ih]
    congr 1
    omega
  | case3 n1 n2 fits => rw [shrink, if_neg (by omega)]

end Bytes

theorem shrink_le (n1 n2 avail : Nat) :
    (shrink n1 n2 avail).1 + (shrink n1 n2 avail).2 ≤ avail ∧
      (shrink n1 n2 avail).1 ≤ n1 ∧ (shrink n1 n2 avail).2 ≤ n2 := by
  fun_induction shrink n1 n2 avail with
  | case1 n1 n2 above longer ih => omega
  | case2 n1 n2 above longer ih => omega
  | case3 n1 n2 fits => omega

/-! ### Whole characters -/

theorem clipChars_prefix (cs : List Char) : ∀ n, clipChars cs n <+: cs := by
  induction cs with
  | nil => exact fun n => List.prefix_rfl
  | cons c cs ih =>
    intro n
    rw [clipChars]
    split
    · exact (List.prefix_cons_inj c).mpr (ih _)
    · exact List.nil_prefix

theorem utf8_clipChars_length (cs : List Char) : ∀ n, (utf8 (clipChars cs n)).length ≤ n := by
  induction cs with
  | nil => exact fun n => Nat.zero_le n
  | cons c cs ih =>
    intro n
    rw [clipChars]
    split
    · next fits =>
        rw [utf8_cons, List.length_append, String.length_utf8EncodeChar]
        have := ih (n - c.utf8Size)
        omega
    · exact Nat.zero_le n

/-- Cutting the bytes of a text back to a whole character keeps the characters that fit. -/
theorem take_backOff (cs : List Char) :
    ∀ n, n < (utf8 cs).length → (utf8 cs).take (backOff (utf8 cs) n) = utf8 (clipChars cs n) := by
  -- By induction on the characters: the offset falls into the first one, or behind it.
  induction cs with
  | nil => exact fun n inside => absurd inside (Nat.not_lt_zero n)
  | cons c cs ih =>
    intro n inside
    rw [clipChars]
    by_cases fits : c.utf8Size ≤ n
    · rw [if_pos fits]
      rw [utf8_cons, List.length_append, String.length_utf8EncodeChar] at inside
      have more : cs ≠ [] := by
        rintro rfl
        rw [utf8_nil, List.length_nil] at inside
        omega
      have split : n = (String.utf8EncodeChar c).length + (n - c.utf8Size) := by
        rw [String.length_utf8EncodeChar]
        omega
      rw [utf8_cons, utf8_cons, split,
        backOff_append (utf8_head cs more) String.utf8EncodeChar_ne_nil, ← split,
        List.take_length_add_append, ih _ (by omega)]
    · rw [if_neg fits, utf8_cons, backOff_char c _ n (by omega)]
      rfl

theorem clipToRuneBoundary_prefix (s : String) (n : Nat) :
    (clipToRuneBoundary s n).toList <+: s.toList := by
  unfold clipToRuneBoundary
  split
  · exact List.prefix_rfl
  · rw [String.toList_ofList]
    exact clipChars_prefix _ n

theorem clipToRuneBoundary_size (s : String) (n : Nat) :
    (clipToRuneBoundary s n).utf8ByteSize ≤ n := by
  unfold clipToRuneBoundary
  split
  · assumption
  · rw [← utf8_length_ofList]
    exact utf8_clipChars_length _ n

/-- The code cuts the bytes where the rule on characters cuts the text. -/
theorem Bytes.clipToRuneBoundary_natCast (s : String) (n : Nat) :
    Bytes.clipToRuneBoundary (utf8 s.toList) n =
      some (utf8 (Statement.clipToRuneBoundary s n).toList) := by
  unfold Bytes.clipToRuneBoundary Statement.clipToRuneBoundary
  rw [utf8_toList_length]
  by_cases fits : s.utf8ByteSize ≤ n
  · rw [if_pos (by omega), if_pos fits]
  · rw [if_neg (by omega), if_neg (by omega), if_neg fits, Int.toNat_natCast, String.toList_ofList,
      take_backOff _ _ (by rw [utf8_toList_length]; omega)]

/-! ### The name -/

/-- The bytes a label and its underscores take. -/
def overhead (name2 label : String) : Nat := label.utf8ByteSize + 1 + (if name2 = "" then 0 else 1)

/-- The parts of a name: how much is left of the first name and of the second. -/
def parts (name1 name2 label : String) : String × String :=
  let (n1, n2) :=
    shrink name1.utf8ByteSize name2.utf8ByteSize (nameDataLen - overhead name2 label)
  (clipToRuneBoundary name1 n1, clipToRuneBoundary name2 n2)

theorem makeObjectName_parts (name1 name2 label : String) :
    makeObjectName name1 name2 label =
      if name2 = "" then (parts name1 name2 label).1 ++ "_" ++ label
      else (parts name1 name2 label).1 ++ "_" ++ (parts name1 name2 label).2 ++ "_" ++ label := rfl

theorem utf8_toList_eq_nil {s : String} : utf8 s.toList = [] ↔ s = "" := by
  rw [← List.length_eq_zero_iff, utf8_toList_length, String.utf8ByteSize_eq_zero_iff]

/-- **With room for the label, the code's name on bytes is the server's.** -/
theorem Bytes.makeObjectName_eq {name1 name2 label : String}
    (room : overhead name2 label ≤ nameDataLen) :
    Bytes.makeObjectName (utf8 name1.toList) (utf8 name2.toList) (utf8 label.toList) =
      some (utf8 (Statement.makeObjectName name1 name2 label).toList) := by
  have budget : (nameDataLen : Int) - (((utf8 label.toList).length : Int) + 1 +
      (if utf8 name2.toList = [] then 0 else 1)) =
        ((nameDataLen - overhead name2 label : Nat) : Int) := by
    unfold overhead at room ⊢
    rw [utf8_toList_length]
    by_cases none : name2 = ""
    · rw [if_pos (utf8_toList_eq_nil.mpr none)]
      rw [if_pos none] at room ⊢
      omega
    · rw [if_neg (fun bytes => none (utf8_toList_eq_nil.mp bytes))]
      rw [if_neg none] at room ⊢
      omega
  unfold Bytes.makeObjectName
  dsimp only
  rw [budget, utf8_toList_length, utf8_toList_length, Bytes.shrink_natCast]
  dsimp only
  rw [Bytes.clipToRuneBoundary_natCast, Bytes.clipToRuneBoundary_natCast, makeObjectName_parts]
  by_cases none : name2 = ""
  · have bytes : utf8 name2.toList = [] := utf8_toList_eq_nil.mpr none
    simp only [if_pos none, if_pos bytes]
    simp [parts]
  · have bytes : utf8 name2.toList ≠ [] := fun bytes => none (utf8_toList_eq_nil.mp bytes)
    simp only [if_neg none, if_neg bytes]
    simp [parts]

/-- **A name with room for its label is within the identifier's budget.** -/
theorem makeObjectName_size {name1 name2 label : String}
    (room : overhead name2 label ≤ nameDataLen) :
    (makeObjectName name1 name2 label).utf8ByteSize ≤ nameDataLen := by
  have fits := (shrink_le name1.utf8ByteSize name2.utf8ByteSize
    (nameDataLen - overhead name2 label)).1
  have first : (parts name1 name2 label).1.utf8ByteSize ≤ _ := clipToRuneBoundary_size name1 _
  have second : (parts name1 name2 label).2.utf8ByteSize ≤ _ := clipToRuneBoundary_size name2 _
  have underscore : "_".utf8ByteSize = 1 := rfl
  rw [makeObjectName_parts]
  by_cases none : name2 = ""
  · have taken : overhead name2 label = label.utf8ByteSize + 1 := by rw [overhead, if_pos none]
    rw [if_pos none]
    simp only [String.utf8ByteSize_append]
    omega
  · have taken : overhead name2 label = label.utf8ByteSize + 2 := by rw [overhead, if_neg none]
    rw [if_neg none]
    simp only [String.utf8ByteSize_append]
    omega

/-! ### After which columns an index is named -/

/-- The name of an index column at a pass of its numbering: the column's own first, then with a
number behind as much of it as leaves room. -/
def columnCandidate (origin : String) (pass : Nat) : String :=
  if pass = 0 then origin
  else
    let suffix := toString pass
    clipToRuneBoundary origin (nameDataLen - suffix.utf8ByteSize) ++ suffix

/-- The names of index columns, each distinct from those before it. -/
def columnNames (used : List String) : List String → List String
  | [] => []
  | origin :: rest =>
    let name := firstFree (columnCandidate origin) used (100 * (used.length + 1)) 0
    name :: columnNames (name :: used) rest

/-- What an index's columns contribute to its name. -/
def indexNameAddition (columns : List String) : String := "_".intercalate (columnNames [] columns)

/-- The server's addition: it stops at the first name that fills its buffer. -/
def additionFrom (buf : String) : List String → String
  | [] => buf
  | name :: rest =>
    let joined := (if buf = "" then buf else buf ++ "_") ++ name
    if nameDataLen < joined.utf8ByteSize then joined else additionFrom joined rest

def chooseIndexNameAddition (columns : List String) : String :=
  additionFrom "" (columnNames [] columns)

/-- The whole of what the names contribute behind a buffer. -/
def joinFrom (buf : String) : List String → String
  | [] => buf
  | name :: rest => joinFrom ((if buf = "" then buf else buf ++ "_") ++ name) rest

theorem joinFrom_prefix (names : List String) :
    ∀ buf, buf.toList <+: (joinFrom buf names).toList := by
  induction names with
  | nil => exact fun buf => List.prefix_rfl
  | cons name rest ih =>
    intro buf
    refine List.IsPrefix.trans ?_ (ih _)
    split
    · rw [String.toList_append]
      exact List.prefix_append _ _
    · rw [String.toList_append, String.toList_append, List.append_assoc]
      exact List.prefix_append _ _

/-- The server's addition is the whole one, or a part of it too long for an identifier. -/
theorem additionFrom_cases (names : List String) : ∀ buf,
    additionFrom buf names = joinFrom buf names ∨
      nameDataLen < (additionFrom buf names).utf8ByteSize ∧
        (additionFrom buf names).toList <+: (joinFrom buf names).toList := by
  induction names with
  | nil => exact fun buf => .inl rfl
  | cons name rest ih =>
    intro buf
    rw [additionFrom, joinFrom]
    generalize (if buf = "" then buf else buf ++ "_") ++ name = joined
    by_cases full : nameDataLen < joined.utf8ByteSize
    · rw [if_pos full]
      exact .inr ⟨full, joinFrom_prefix rest _⟩
    · rw [if_neg full]
      exact ih _

theorem joinFrom_ne_empty (names : List String) : ∀ {buf : String}, buf ≠ "" →
    joinFrom buf names = "_".intercalate (buf :: names) := by
  induction names with
  | nil =>
    intro buf _
    rw [joinFrom, String.intercalate_singleton]
  | cons name rest ih =>
    intro buf started
    rw [joinFrom, if_neg started, ih (by simp [started]), String.intercalate_cons_append,
      String.intercalate_cons_cons]

/-- Joining names that are not empty puts one underscore between them. -/
theorem joinFrom_eq_intercalate {names : List String} (named : ∀ name ∈ names, name ≠ "") :
    joinFrom "" names = "_".intercalate names := by
  cases names with
  | nil => rw [joinFrom, String.intercalate_nil]
  | cons name rest =>
    rw [joinFrom, if_pos rfl, String.empty_append,
      joinFrom_ne_empty rest (named name List.mem_cons_self)]

/-! ### Numbering columns -/

theorem columnCandidate_ne_empty {origin : String} (named : origin ≠ "") (pass : Nat) :
    columnCandidate origin pass ≠ "" := by
  unfold columnCandidate
  by_cases first : pass = 0
  · rw [if_pos first]
    exact named
  · rw [if_neg first]
    intro empty
    have suffix := (String.append_eq_empty_iff.mp empty).2
    exact absurd suffix Nat.repr_ne_empty

/-- The names of columns that are named are not empty. -/
theorem columnNames_ne_empty {columns : List String} (named : ∀ c ∈ columns, c ≠ "") :
    ∀ used, ∀ name ∈ columnNames used columns, name ≠ "" := by
  induction columns with
  | nil => exact fun used name among => absurd among List.not_mem_nil
  | cons origin rest ih =>
    intro used name among
    rw [columnNames] at among
    rcases List.mem_cons.mp among with rfl | later
    · obtain ⟨i, same⟩ : ∃ i, firstFree (columnCandidate origin) used (100 * (used.length + 1)) 0 =
          columnCandidate origin i := firstFree_candidate _ 0
      rw [same]
      exact columnCandidate_ne_empty (named origin List.mem_cons_self) i
    · exact ih (fun c among => named c (List.mem_cons_of_mem _ among)) _ name later

theorem isDigit_of_mem_repr {n : Nat} {c : Char} (among : c ∈ (Nat.repr n).toList) :
    c.isDigit = true := by
  rw [Nat.toList_repr] at among
  exact Nat.isDigit_of_mem_toDigits (by omega) (by omega) among

theorem eq_of_repr_eq {m n : Nat} (same : Nat.repr m = Nat.repr n) : m = n := by
  have digits : Nat.toDigits 10 m = Nat.toDigits 10 n := by
    rw [← Nat.toList_repr, ← Nat.toList_repr, same]
  rw [← Nat.ofDigitChars_ten_toDigits (n := m), digits, Nat.ofDigitChars_ten_toDigits]

/-- Digits take one byte each. -/
theorem utf8_digits_length {digits : List Char} (all : ∀ c ∈ digits, c.isDigit = true) :
    (utf8 digits).length = digits.length := by
  induction digits with
  | nil => rfl
  | cons c digits ih =>
    have one : c.utf8Size = 1 := by
      have digit := all c List.mem_cons_self
      unfold Char.isDigit at digit
      rw [Char.utf8Size_eq_one_iff]
      simp only [Bool.and_eq_true, decide_eq_true_eq] at digit
      exact UInt32.le_trans digit.2 (by decide)
    rw [utf8_cons, List.length_append, String.length_utf8EncodeChar, one,
      ih (fun c among => all c (List.mem_cons_of_mem _ among)), List.length_cons, Nat.add_comm]

theorem toString_utf8ByteSize (n : Nat) : (toString n).utf8ByteSize = (Nat.repr n).length := by
  show (Nat.repr n).utf8ByteSize = (Nat.repr n).length
  rw [← utf8_toList_length, utf8_digits_length (fun c => isDigit_of_mem_repr), String.length_toList]

/-- Numbers of one length give distinct names. -/
theorem columnCandidate_injOn {origin : String} {i j : Nat} (first : i ≠ 0) (second : j ≠ 0)
    (length : (Nat.repr i).length = (Nat.repr j).length)
    (same : columnCandidate origin i = columnCandidate origin j) : i = j := by
  unfold columnCandidate at same
  rw [if_neg first, if_neg second] at same
  dsimp only at same
  rw [toString_utf8ByteSize, toString_utf8ByteSize, length] at same
  exact eq_of_repr_eq ((String.append_right_inj _).mp same)

/-- Within the tries it is given, the numbering of a column finds a name that is free. -/
theorem exists_free_columnCandidate (origin : String) (used : List String) :
    ∃ i ≤ 100 * (used.length + 1), columnCandidate origin (0 + i) ∉ used := by
  -- The numbers of one length more than the taken names' count has are enough, and distinct.
  let a := Nat.log 10 (used.length + 1) + 1
  have below : 10 ^ Nat.log 10 (used.length + 1) ≤ used.length + 1 :=
    Nat.pow_log_le_self 10 (by omega)
  have above : used.length + 1 < 10 ^ a := Nat.lt_pow_succ_log_self (by omega) _
  have power : 10 ^ (a + 1) = 10 * 10 ^ a := Nat.pow_succ'
  have power' : 10 ^ a = 10 * 10 ^ Nat.log 10 (used.length + 1) := Nat.pow_succ'
  have length : ∀ i ∈ Finset.Ico (10 ^ a) (10 ^ (a + 1)), (Nat.repr i).length = a + 1 := by
    intro i among
    rw [Finset.mem_Ico] at among
    have most := (Nat.length_repr_le_iff (n := i) (k := a + 1) (by omega)).mpr among.2
    have least : ¬ (Nat.repr i).length ≤ a := fun short =>
      absurd ((Nat.length_repr_le_iff (n := i) (k := a) (by omega)).mp short) (by omega)
    omega
  have more : used.length < (Finset.Ico (10 ^ a) (10 ^ (a + 1))).card := by
    rw [Nat.card_Ico]
    omega
  have distinct : ∀ i ∈ Finset.Ico (10 ^ a) (10 ^ (a + 1)),
      ∀ j ∈ Finset.Ico (10 ^ a) (10 ^ (a + 1)),
      columnCandidate origin i = columnCandidate origin j → i = j := by
    intro i hi j hj same
    have both := (length i hi).trans (length j hj).symm
    rw [Finset.mem_Ico] at hi hj
    exact columnCandidate_injOn (by omega) (by omega) both same
  obtain ⟨i, among, free⟩ := exists_free_of_injOn distinct more
  rw [Finset.mem_Ico] at among
  exact ⟨i, by omega, by rwa [Nat.zero_add]⟩

/-- **The numbering of index columns always ends**: each column contributes the first of its names
that is not used and that no column before it has, so no two are named alike. -/
theorem columnNames_nodup (columns : List String) : ∀ used,
    (columnNames used columns).length = columns.length ∧ (columnNames used columns).Nodup ∧
      (∀ name ∈ columnNames used columns, name ∉ used) ∧
      ∀ (i : Nat) (origin : String), columns[i]? = some origin → ∃ pass,
        (columnNames used columns)[i]? = some (columnCandidate origin pass) ∧
        ∀ earlier < pass, columnCandidate origin earlier ∈ used ∨
          columnCandidate origin earlier ∈ (columnNames used columns).take i := by
  induction columns with
  | nil => exact fun used => ⟨rfl, List.nodup_nil, nofun, nofun⟩
  | cons head rest ih =>
    intro used
    obtain ⟨pass, _, ends, free, first⟩ := firstFree_spec (exists_free_columnCandidate head used)
    simp only [Nat.zero_add] at ends free first
    obtain ⟨length, distinct, apart, numbered⟩ := ih (columnCandidate head pass :: used)
    rw [columnNames, ends]
    refine ⟨?_, List.nodup_cons.mpr ⟨fun among => ?_, distinct⟩, fun name among => ?_,
      fun i origin here => ?_⟩
    · rw [List.length_cons, List.length_cons, length]
    · exact apart _ among List.mem_cons_self
    · rcases List.mem_cons.mp among with rfl | later
      · exact free
      · exact fun held => apart name later (List.mem_cons_of_mem _ held)
    · cases i with
      | zero =>
        obtain rfl : head = origin := Option.some.inj here
        exact ⟨pass, rfl, fun earlier before => .inl (first earlier before)⟩
      | succ i =>
        obtain ⟨own, named, taken⟩ := numbered i origin here
        refine ⟨own, named, fun earlier before => ?_⟩
        rw [List.take_succ_cons, List.mem_cons]
        rcases taken earlier before with held | between
        · rcases List.mem_cons.mp held with same | used
          · exact .inr (.inl same)
          · exact .inl used
        · exact .inr (.inr between)

/-! ### The addition the server cuts short -/

theorem clipChars_append (as bs : List Char) :
    ∀ n, n < (utf8 as).length → clipChars (as ++ bs) n = clipChars as n := by
  induction as with
  | nil => exact fun n inside => absurd inside (Nat.not_lt_zero n)
  | cons a as ih =>
    intro n inside
    rw [utf8_cons, List.length_append, String.length_utf8EncodeChar] at inside
    rw [List.cons_append, clipChars, clipChars]
    by_cases fits : a.utf8Size ≤ n
    · rw [if_pos fits, if_pos fits, ih _ (by omega)]
    · rw [if_neg fits, if_neg fits]

theorem clipToRuneBoundary_of_starts {s t : String} {n : Nat} (start : s.toList <+: t.toList)
    (inside : n < s.utf8ByteSize) : clipToRuneBoundary t n = clipToRuneBoundary s n := by
  obtain ⟨rest, whole⟩ := start
  have longer : n < t.utf8ByteSize := by
    rw [← utf8_toList_length, ← whole, utf8_append, List.length_append, utf8_toList_length]
    omega
  unfold clipToRuneBoundary
  rw [if_neg (by omega), if_neg (by omega), ← whole,
    clipChars_append _ _ _ (by rw [utf8_toList_length]; exact inside)]

/-- Beyond the budget a longer second name shrinks as a shorter one does. -/
theorem shrink_longer {n1 m avail : Nat} (below : n1 ≤ m) (over_ : avail < n1 + m) :
    ∀ k, shrink n1 (m + k) avail = shrink n1 m avail := by
  intro k
  induction k with
  | zero => rfl
  | succ k ih => rw [shrink, if_pos (by omega), if_neg (by omega), ← Nat.add_assoc,
      Nat.add_sub_cancel, ih]

/-- A name that is cut anyway is chosen from the text it starts with. -/
theorem makeObjectName_of_starts {table s t label : String}
    (fits : table.utf8ByteSize ≤ nameDataLen) (long : nameDataLen < s.utf8ByteSize)
    (start : s.toList <+: t.toList) :
    makeObjectName table t label = makeObjectName table s label := by
  have size : s.utf8ByteSize ≤ t.utf8ByteSize := by
    obtain ⟨rest, whole⟩ := start
    rw [← utf8_toList_length t, ← whole, utf8_append, List.length_append, utf8_toList_length]
    omega
  have some_ : s ≠ "" ∧ t ≠ "" := by
    constructor
    · rintro rfl
      exact absurd long (Nat.not_lt_zero _)
    · rintro rfl
      exact absurd (Nat.lt_of_lt_of_le long size) (Nat.not_lt_zero _)
  have taken : overhead t label = overhead s label := by
    rw [overhead, overhead, if_neg some_.1, if_neg some_.2]
  have budget : nameDataLen - overhead s label ≤ nameDataLen := Nat.sub_le _ _
  have shrunk : shrink table.utf8ByteSize t.utf8ByteSize (nameDataLen - overhead s label) =
      shrink table.utf8ByteSize s.utf8ByteSize (nameDataLen - overhead s label) := by
    obtain ⟨k, more⟩ := Nat.exists_eq_add_of_le size
    rw [more]
    exact shrink_longer (by omega) (by omega) k
  have kept := shrink_le table.utf8ByteSize s.utf8ByteSize (nameDataLen - overhead s label)
  have same : parts table t label = parts table s label := by
    unfold parts
    rw [taken, shrunk]
    dsimp only
    rw [clipToRuneBoundary_of_starts start (by omega)]
  rw [makeObjectName_parts, makeObjectName_parts, if_neg some_.1, if_neg some_.2, same]

/-- **Naming an index after all its columns gives the server's name**, which stops adding columns
once they fill its buffer. -/
theorem makeObjectName_addition {table : String} {columns : List String} (label : String)
    (fits : table.utf8ByteSize ≤ nameDataLen) (named : ∀ c ∈ columns, c ≠ "") :
    makeObjectName table (indexNameAddition columns) label =
      makeObjectName table (chooseIndexNameAddition columns) label := by
  have whole : indexNameAddition columns = joinFrom "" (columnNames [] columns) :=
    (joinFrom_eq_intercalate (columnNames_ne_empty named [])).symm
  rcases additionFrom_cases (columnNames [] columns) "" with same | ⟨long, start⟩
  · rw [whole, ← same]
    rfl
  · rw [whole]
    exact makeObjectName_of_starts fits long start

/-! ### The name of an unnamed constraint -/

/-- The digits a text ends in, last first. -/
def trailingDigits (cs : List Char) : List Char := cs.reverse.takeWhile Char.isDigit

theorem trailingDigits_append {cs digits : List Char} {c : Char} (letter : c.isDigit = false)
    (all : ∀ d ∈ digits, d.isDigit = true) :
    trailingDigits (cs ++ [c] ++ digits) = digits.reverse := by
  unfold trailingDigits
  rw [List.reverse_append, List.reverse_append, List.takeWhile_append_of_pos
    (fun d among => all d (List.mem_reverse.mp among))]
  simp [letter]

theorem makeObjectName_suffix (name1 name2 label : String) :
    ∃ start, (makeObjectName name1 name2 label).toList = start ++ label.toList := by
  rw [makeObjectName_parts]
  split
  · exact ⟨_, String.toList_append⟩
  · exact ⟨_, String.toList_append⟩

/-- **Numbered names are distinct**, however much of the table's and column's name is left. -/
theorem nameCandidate_injective (table column : String) {label : String} {start : List Char}
    {c : Char} (ends : label.toList = start ++ [c]) (letter : c.isDigit = false) :
    Function.Injective (nameCandidate table column label) := by
  have trailing : ∀ p, trailingDigits (nameCandidate table column label p).toList =
      if p = 0 then [] else (Nat.repr p).toList.reverse := by
    intro p
    unfold nameCandidate
    obtain ⟨before, whole⟩ := makeObjectName_suffix table column
      (if p = 0 then label else label ++ toString p)
    rw [whole]
    by_cases first : p = 0
    · have none : trailingDigits (before ++ start ++ [c] ++ []) = [] :=
        trailingDigits_append letter fun d among => absurd among List.not_mem_nil
      rw [if_pos first, if_pos first, ends, ← List.append_assoc]
      rwa [List.append_nil] at none
    · rw [if_neg first, if_neg first, String.toList_append, ends, ← List.append_assoc,
        ← List.append_assoc]
      exact trailingDigits_append letter fun d => isDigit_of_mem_repr
  intro p q same
  have digits := congrArg (fun name : String => trailingDigits name.toList) same
  simp only [trailing] at digits
  have nonempty : ∀ n, (Nat.repr n).toList.reverse ≠ [] := fun n empty =>
    Nat.repr_ne_empty (String.toList_inj.mp (List.reverse_eq_nil_iff.mp empty))
  by_cases first : p = 0
  · by_cases second : q = 0
    · exact first.trans second.symm
    · rw [if_pos first, if_neg second] at digits
      exact absurd digits.symm (nonempty q)
  · by_cases second : q = 0
    · rw [if_neg first, if_pos second] at digits
      exact absurd digits (nonempty p)
    · rw [if_neg first, if_neg second] at digits
      exact eq_of_repr_eq (String.toList_inj.mp (List.reverse_injective digits))

/-- The label of an unnamed constraint's name. -/
def constraintLabel (con : Constraint) : String :=
  if con.contype = .foreign then "fkey" else "check"

theorem constraintLabel_ends (con : Constraint) :
    ∃ start c, (constraintLabel con).toList = start ++ [c] ∧ c.isDigit = false := by
  unfold constraintLabel
  split
  · exact ⟨['f', 'k', 'e'], 'y', by decide, by decide⟩
  · exact ⟨['c', 'h', 'e', 'c'], 'k', by decide, by decide⟩

/-- **The name of an unnamed constraint is the first of its candidates that is free**, and no two of
the candidates are alike. -/
theorem defaultConstraintName_spec (table : String) (con : Constraint) (naming : ConstraintNaming) :
    ∃ column pass, defaultConstraintName table con naming =
        nameCandidate table column (constraintLabel con) pass ∧
      nameCandidate table column (constraintLabel con) pass ∉ naming.taken ∧
      (∀ earlier < pass,
        nameCandidate table column (constraintLabel con) earlier ∈ naming.taken) ∧
      Function.Injective (nameCandidate table column (constraintLabel con)) := by
  obtain ⟨start, c, ends, letter⟩ := constraintLabel_ends con
  obtain ⟨column, chosen⟩ : ∃ column, defaultConstraintName table con naming =
      freeName table column (constraintLabel con) naming.taken naming.taken.length 0 := by
    unfold defaultConstraintName constraintLabel
    by_cases foreign : con.contype = .foreign
    · rw [if_pos foreign, if_pos foreign]
      exact ⟨_, rfl⟩
    · rw [if_neg foreign, if_neg foreign]
      dsimp only
      split
      · exact ⟨_, rfl⟩
      · exact ⟨_, rfl⟩
  have injective := nameCandidate_injective table column ends letter
  obtain ⟨pass, _, found, free, before⟩ :=
    firstFree_spec (@exists_free_of_injective _ _ _ naming.taken injective 0)
  rw [Nat.zero_add] at found free
  refine ⟨column, pass, chosen.trans found, free, fun earlier below => ?_, injective⟩
  have held := before earlier below
  rwa [Nat.zero_add] at held

/-! ### Names of tables and columns -/

/-- An identifier as the server keeps it: it is not empty and within its byte budget. -/
structure Identifier where
  text : String
  nonempty : text ≠ ""
  fits : text.utf8ByteSize ≤ nameDataLen

/-- **Generated names follow the server's rule.** For a table, the columns of an index and a label
that leaves room for the underscores: the code's name is the one the server builds from its shorter
addition, it is within the budget, and each part of it is cut between characters; and the name of an
unnamed constraint is the first of its distinct candidates that is free. -/
theorem makeObjectName_follows_server (table : Identifier) (columns : List Identifier)
    (label : String)
    (short : label.utf8ByteSize + (if columns = [] then 1 else 2) ≤ nameDataLen) :
    let names := columns.map (·.text)
    let name := makeObjectName table.text (chooseIndexNameAddition names) label
    (Bytes.makeObjectName (utf8 table.text.toList) (utf8 (indexNameAddition names).toList)
          (utf8 label.toList) = some (utf8 name.toList) ∧
        name.utf8ByteSize ≤ nameDataLen ∧
        ∃ part1 part2 : String, part1.toList <+: table.text.toList ∧
          part2.toList <+: (indexNameAddition names).toList ∧
          name = if indexNameAddition names = "" then part1 ++ "_" ++ label
            else part1 ++ "_" ++ part2 ++ "_" ++ label) ∧
      ∀ (con : Constraint) (naming : ConstraintNaming), ∃ column pass,
        defaultConstraintName table.text con naming =
            nameCandidate table.text column (constraintLabel con) pass ∧
          nameCandidate table.text column (constraintLabel con) pass ∉ naming.taken ∧
          (∀ earlier < pass,
            nameCandidate table.text column (constraintLabel con) earlier ∈ naming.taken) ∧
          Function.Injective (nameCandidate table.text column (constraintLabel con)) := by
  intro names name
  have named : ∀ c ∈ names, c ≠ "" := by
    intro c among
    obtain ⟨column, _, rfl⟩ := List.mem_map.mp among
    exact column.nonempty
  have same : makeObjectName table.text (indexNameAddition names) label = name :=
    makeObjectName_addition label table.fits named
  have room : overhead (indexNameAddition names) label ≤ nameDataLen := by
    unfold overhead
    by_cases empty : columns = []
    · have nothing : indexNameAddition names = "" := by
        show indexNameAddition (columns.map (·.text)) = ""
        rw [empty]
        rfl
      rw [if_pos empty] at short
      rw [if_pos nothing]
      omega
    · rw [if_neg empty] at short
      split <;> omega
  refine ⟨⟨?_, ?_, ?_⟩, fun con naming => defaultConstraintName_spec table.text con naming⟩
  · rw [← same]
    exact Bytes.makeObjectName_eq room
  · rw [← same]
    exact makeObjectName_size room
  · refine ⟨(parts table.text (indexNameAddition names) label).1,
      (parts table.text (indexNameAddition names) label).2, clipToRuneBoundary_prefix _ _,
      clipToRuneBoundary_prefix _ _, ?_⟩
    rw [← same, makeObjectName_parts]

/-- Four columns of an index, one of them twice. -/
def orderColumns : List Identifier :=
  [⟨"customer_reference", by decide, by decide⟩, ⟨"warehouse", by decide, by decide⟩,
    ⟨"customer_reference", by decide, by decide⟩, ⟨"placed_at", by decide, by decide⟩]

def orderAddition : String := "customer_reference_warehouse_customer_reference1_placed_at"

theorem makeObjectName_orderColumns : makeObjectName "customer_order_line_items"
    (chooseIndexNameAddition (orderColumns.map (·.text))) "key" =
      "customer_order_line_items_customer_reference_warehouse_cust_key" := by
  have addition : chooseIndexNameAddition (orderColumns.map (·.text)) = orderAddition := by
    decide +kernel
  have shrunk : shrink "customer_order_line_items".utf8ByteSize orderAddition.utf8ByteSize
      (nameDataLen - overhead orderAddition "key") = (25, 33) := by
    rw [show "customer_order_line_items".utf8ByteSize = 25 by decide +kernel,
      show orderAddition.utf8ByteSize = 58 by decide +kernel,
      show nameDataLen - overhead orderAddition "key" = 58 by decide +kernel]
    simp [shrink]
  rw [addition, makeObjectName_parts, parts, shrunk]
  decide +kernel

/-- The name of the index, cut inside the numbered column. -/
theorem makeObjectName_follows_server_cut :
    Bytes.makeObjectName (utf8 "customer_order_line_items".toList)
        (utf8 (indexNameAddition (orderColumns.map (·.text))).toList) (utf8 "key".toList) =
      some (utf8 "customer_order_line_items_customer_reference_warehouse_cust_key".toList) := by
  rw [← makeObjectName_orderColumns]
  exact (makeObjectName_follows_server ⟨"customer_order_line_items", by decide, by decide⟩
    orderColumns "key" (by decide)).1.1

/-- A label of 62 bytes leaves no byte for a column's name, and the code slices it out of range. -/
theorem makeObjectName_longLabel :
    Bytes.makeObjectName (utf8 "t".toList) (utf8 (indexNameAddition ["a"]).toList)
      (utf8 (List.replicate 62 'x')) = none := by
  have budget : Bytes.shrink 1 1 (-1) = (0, -1) := by
    rw [Bytes.shrink, if_pos (by decide), if_neg (by decide), Bytes.shrink, if_pos (by decide),
      if_pos (by decide), Bytes.shrink, if_pos (by decide), if_neg (by decide), Bytes.shrink,
      if_neg (by decide)]
    decide
  have addition : utf8 (indexNameAddition ["a"]).toList = [97] := by decide
  have label : (utf8 (List.replicate 62 'x')).length = 62 := by decide
  unfold Bytes.makeObjectName
  rw [addition, label]
  have shrunk : Bytes.shrink (utf8 "t".toList).length ([97] : List UInt8).length
      ((nameDataLen : Int) - (((62 : Nat) : Int) + 1 + if ([97] : List UInt8) = [] then 0 else 1)) =
      (0, -1) := budget
  dsimp only
  rw [shrunk]
  rfl

end PgSprite.Statement
