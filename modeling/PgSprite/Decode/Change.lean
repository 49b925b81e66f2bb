/-
**The decoded change: keys, columns and the events of the stream.**

A column of an event either carries a value or was omitted by the server because the event left
its out-of-line value unchanged. A column's lookup by name, `valueOf`, is what every later module
reads an image through; the lists themselves are only rewritten by the applier's merges.
-/

import Mathlib.Data.List.Basic
import Mathlib.Tactic.Common

namespace PgSprite.Decode

/-- A position in the server's write-ahead log. -/
abbrev LSN := UInt64

/-- A value of the single integer primary key. -/
abbrev Key := Int64

/-- A 32-bit transaction id, as the WAL carries it. -/
abbrev Xid := UInt32

/-- A column's name. -/
abbrev Name := String

/-- A column's text as the server renders it; `none` is NULL. -/
abbrev Text := Option String

/-- A value a column carries: as the source rendered it, or read from the shadow row and so
already in the shadow's form. -/
inductive Value where
  | text (value : Text)
  | shadowForm (value : Text)
  deriving DecidableEq, Repr

/-- One column of a row image; a column without a value is an unchanged-TOAST marker. -/
structure Column where
  name : Name
  value : Option Value
  deriving DecidableEq, Repr

namespace Column

/-- A column that carries `value`. -/
def presentColumn (name : Name) (value : Value) : Column := ⟨name, some value⟩

/-- Whether the column carries a value. -/
def present (c : Column) : Bool := c.value.isSome

end Column

/-- The operation a change event carries. -/
inductive ChangeKind where
  | insert
  | update
  | delete
  deriving DecidableEq, Repr

/-- One row change decoded from the stream, stamped with the transaction that made it and with the
position the stream had delivered when it arrived. -/
structure ChangeEvent where
  kind : ChangeKind
  key : Key
  /-- The key the row had before an UPDATE, where the server sent one. -/
  oldKey : Option Key
  columns : List Column
  delivered : LSN
  xid : Xid
  deriving DecidableEq, Repr

/-! ### Looking a column up by name -/

/-- The position of the first column called `name`. -/
def index (columns : List Column) (name : Name) : Option ℕ :=
  columns.findIdx? (fun c => c.name == name)

/-- The value the columns carry for `name`: `none` for a marker and for a name they do not hold. -/
def valueOf (columns : List Column) (name : Name) : Option Value :=
  (columns.find? (fun c => c.name == name)).bind Column.value

/-- The names of a list of columns, in order. -/
def names (columns : List Column) : List Name := columns.map Column.name

/-- Whether some column is an unchanged-TOAST marker. -/
def hasMarker (columns : List Column) : Bool := columns.any (fun c => !c.present)

section Lookup

variable {columns : List Column} {c : Column} {name : Name} {i : ℕ}

@[simp]
theorem names_nil : names [] = [] := rfl

@[simp]
theorem names_cons : names (c :: columns) = c.name :: names columns := rfl

@[simp]
theorem valueOf_nil : valueOf [] name = none := rfl

theorem valueOf_cons :
    valueOf (c :: columns) name = if c.name = name then c.value else valueOf columns name := by
  by_cases same : c.name = name
  · simp [valueOf, same]
  · simp [valueOf, same]

theorem valueOf_of_not_mem (absent : name ∉ names columns) : valueOf columns name = none := by
  induction columns with
  | nil => rfl
  | cons c columns ih =>
    rw [names_cons, List.mem_cons, not_or] at absent
    rw [valueOf_cons, if_neg (Ne.symm absent.1), ih absent.2]

theorem mem_of_valueOf {v : Value} (found : valueOf columns name = some v) :
    name ∈ names columns := by
  by_contra absent
  rw [valueOf_of_not_mem absent] at found
  cases found

theorem valueOf_of_mem (distinct : (names columns).Nodup) (member : c ∈ columns) :
    valueOf columns c.name = c.value := by
  induction columns with
  | nil => cases member
  | cons head columns ih =>
    rw [names_cons, List.nodup_cons] at distinct
    rw [valueOf_cons]
    rcases List.mem_cons.mp member with same | deeper
    · rw [same, if_pos rfl]
    · have other : head.name ≠ c.name := fun same =>
        distinct.1 (same ▸ List.mem_map_of_mem deeper)
      rw [if_neg other, ih distinct.2 deeper]

/-- **An image has a marker exactly when some column it names has no value.** -/
theorem hasMarker_iff (distinct : (names columns).Nodup) :
    hasMarker columns = true ↔ ∃ name ∈ names columns, valueOf columns name = none := by
  rw [hasMarker, List.any_eq_true]
  constructor
  · rintro ⟨c, member, absent⟩
    refine ⟨c.name, List.mem_map_of_mem member, ?_⟩
    rw [valueOf_of_mem distinct member]
    simpa [Column.present] using absent
  · rintro ⟨name, member, absent⟩
    obtain ⟨c, inColumns, rfl⟩ := List.mem_map.mp member
    rw [valueOf_of_mem distinct inColumns] at absent
    exact ⟨c, inColumns, by simp [Column.present, absent]⟩

/-- Replacing the column found under a name changes its value only. -/
theorem valueOf_set (found : index columns c.name = some i) :
    valueOf (columns.set i c) name = if c.name = name then c.value else valueOf columns name := by
  induction columns generalizing i with
  | nil => simp [index] at found
  | cons head columns ih =>
    rw [index, List.findIdx?_cons] at found
    by_cases here : head.name = c.name
    · rw [if_pos (by simpa using here), Option.some.injEq] at found
      subst found
      rw [List.set_cons_zero, valueOf_cons, valueOf_cons]
      by_cases same : c.name = name
      · rw [if_pos same, if_pos same]
      · rw [if_neg same, if_neg same, if_neg (here ▸ same)]
    · rw [if_neg (by simpa using here), Option.map_eq_some_iff] at found
      obtain ⟨j, found, rfl⟩ := found
      rw [List.set_cons_succ, valueOf_cons, valueOf_cons, ih found]
      by_cases same : c.name = name
      · rw [if_pos same, if_pos same, if_neg (same ▸ here)]
      · rw [if_neg same, if_neg same]

theorem names_set (found : index columns c.name = some i) :
    names (columns.set i c) = names columns := by
  obtain ⟨bound, same, -⟩ := List.findIdx?_eq_some_iff_getElem.mp found
  rw [names, names, List.map_set]
  have within : i < (columns.map Column.name).length := by simpa using bound
  have unchanged : (columns.map Column.name)[i] = c.name := by simpa using same
  rw [← unchanged, List.set_getElem_self]

@[simp]
theorem names_map (relation : List Name) (value : Name → Option Value) :
    names (relation.map fun name => ⟨name, value name⟩) = relation := by
  simp [names, Function.comp_def]

theorem valueOf_map (relation : List Name) (value : Name → Option Value) (name : Name) :
    valueOf (relation.map fun name => ⟨name, value name⟩) name
      = if name ∈ relation then value name else none := by
  induction relation with
  | nil => rfl
  | cons head relation ih =>
    rw [List.map_cons, valueOf_cons, ih]
    by_cases same : head = name
    · simp [same]
    · simp [same, Ne.symm same]

theorem index_eq_none_iff : index columns name = none ↔ name ∉ names columns := by
  simp [index, names]

end Lookup

end PgSprite.Decode
