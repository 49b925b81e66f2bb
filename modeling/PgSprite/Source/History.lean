/-
**The source table and the changes its transactions commit to it.**

A change inserts, updates or deletes one row; an update may move its row to another key, and may
omit from its event any column it leaves as it was. `Change.legal` is what the table must hold for
the source to have made the change, `Change.apply` what it holds afterwards, and `Change.event` the
event the stream decodes from it. `semantics` reads a log of committed changes as a keyed log, so
that `rowAt` is the row a key holds after any number of them.
-/

import PgSprite.Decode.Change
import PgSprite.Lib.KeyedLog

namespace PgSprite.Source

open Std PgSprite.Decode PgSprite.Lib

/-- A row: its text in each column. -/
abbrev Row := Name → Text

/-- A table's rows by primary key. -/
abbrev Table := ExtTreeMap Key Row

/-- Two rows agree on the named columns. -/
def AgreeOn (columns : List Name) (a b : Row) : Prop := ∀ name ∈ columns, a name = b name

/-- Two optional rows are both absent, or agree on the named columns. -/
def Matches (columns : List Name) : Option Row → Option Row → Prop
  | none, none => True
  | some a, some b => AgreeOn columns a b
  | _, _ => False

theorem Matches.refl {columns : List Name} (row : Option Row) : Matches columns row row := by
  cases row with
  | none => trivial
  | some row => exact fun _ _ => rfl

/-- One row change of the source. An update that leaves the key alone has `old` equal to `key`;
`omitted` are the columns its event does not carry. -/
inductive Change where
  | insert (key : Key) (row : Row)
  | update (key old : Key) (row : Row) (omitted : List Name)
  | delete (key : Key)

variable {change : Change}

namespace Change

/-- The keys whose row the change moves. -/
def touches : Change → Key → Bool
  | insert key _, k => key = k
  | update key old _ _, k => key = k || old = k
  | delete key, k => key = k

/-- The keys a change touches, listed. -/
def keys : Change → List Key
  | insert key _ => [key]
  | update key old _ _ => [key, old]
  | delete key => [key]

theorem touches_iff {key : Key} : change.touches key = true ↔ key ∈ change.keys := by
  cases change with
  | insert k _ => rw [touches, keys, List.mem_singleton, decide_eq_true_eq, eq_comm]
  | update k old _ _ =>
    rw [touches, keys, Bool.or_eq_true, decide_eq_true_eq, decide_eq_true_eq, List.mem_cons,
      List.mem_singleton, eq_comm (a := k), eq_comm (a := old)]
  | delete k => rw [touches, keys, List.mem_singleton, decide_eq_true_eq, eq_comm]

/-- What the change makes of the row under a key. -/
def effect : Change → Key → Option Row → Option Row
  | insert key row, k, before => if key = k then some row else before
  | update key old row _, k, before =>
    if key = k then some row else if old = k then none else before
  | delete key, k, before => if key = k then none else before

/-- The table after the change. -/
def apply (change : Change) (table : Table) : Table :=
  match change with
  | insert key row => table.insert key row
  | update key old row _ => (table.erase old).insert key row
  | delete key => table.erase key

/-- The source can make the change to a table that holds these rows: an insert finds its key free,
an update finds its row and the key it moves to free and omits only columns it does not change, and
a delete finds its row. -/
def LegalOn (rows : Key → Option Row) : Change → Prop
  | insert key _ => rows key = none
  | update key old row omitted =>
    (∃ before, rows old = some before ∧ AgreeOn omitted row before) ∧
      (old ≠ key → rows key = none)
  | delete key => rows key ≠ none

/-- `LegalOn`, evaluated on a table. -/
def legal (table : Table) : Change → Bool
  | insert key _ => !table.contains key
  | update key old row omitted =>
    (match table[old]? with
      | none => false
      | some before => omitted.all fun name => row name = before name) &&
    (decide (old = key) || !table.contains key)
  | delete key => table.contains key

theorem not_contains_iff {table : Table} {key : Key} :
    (!table.contains key) = true ↔ table[key]? = none := by
  rw [ExtTreeMap.contains_eq_isSome_getElem?]
  cases table[key]? <;> simp

/-- The computed legality is legality over the table's rows. -/
theorem legal_iff {table : Table} :
    change.legal table = true ↔ change.LegalOn fun key => table[key]? := by
  cases change with
  | insert key row => exact not_contains_iff
  | update key old row omitted =>
    rw [legal, LegalOn, Bool.and_eq_true, Bool.or_eq_true, not_contains_iff, decide_eq_true_eq]
    refine and_congr ?_ ⟨fun either => either.resolve_left, fun free => ?_⟩
    · cases table[old]? <;> simp [AgreeOn]
    · by_cases same : old = key
      · exact Or.inl same
      · exact Or.inr (free same)
  | delete key =>
    rw [legal, LegalOn, ne_eq, ← not_contains_iff]
    simp

theorem effect_of_not_touches {key : Key} {row : Option Row}
    (untouched : ¬ change.touches key = true) : change.effect key row = row := by
  cases change with
  | insert k _ =>
    have other : k ≠ key := by simpa [touches] using untouched
    rw [effect, if_neg other]
  | update k old _ _ =>
    have other : k ≠ key ∧ old ≠ key := by simpa [touches] using untouched
    rw [effect, if_neg other.1, if_neg other.2]
  | delete k =>
    have other : k ≠ key := by simpa [touches] using untouched
    rw [effect, if_neg other]

/-- The change does to each key of the table what `effect` says. -/
theorem getElem?_apply (change : Change) (table : Table) (key : Key) :
    (change.apply table)[key]? = change.effect key table[key]? := by
  cases change with
  | insert k row => simp [apply, effect, ExtTreeMap.getElem?_insert]
  | update k old row omitted =>
    simp [apply, effect, ExtTreeMap.getElem?_insert, ExtTreeMap.getElem?_erase]
  | delete k => simp [apply, effect, ExtTreeMap.getElem?_erase]

/-- The event the stream decodes from the change, over the relation's columns. The server sends an
update's old key only where the update moved the row. -/
def event (relation : List Name) (delivered : LSN) (xid : Xid) : Change → ChangeEvent
  | insert key row =>
    { kind := .insert, key, oldKey := none, delivered, xid
      columns := relation.map fun name => ⟨name, some (.text (row name))⟩ }
  | update key old row omitted =>
    { kind := .update, key, oldKey := if old = key then none else some old, delivered, xid
      columns := relation.map fun name =>
        ⟨name, if omitted.contains name then none else some (.text (row name))⟩ }
  | delete key =>
    { kind := .delete, key, oldKey := none, delivered, xid, columns := [] }

end Change

/-- A change with the transaction that committed it, under its full 64-bit id, and the position its
commit ends at. -/
structure Committed where
  change : Change
  id : UInt64
  commit : LSN

/-- The transaction's id as the stream carries it. -/
def Committed.xid (c : Committed) : Xid := c.id.toUInt32

/-- A log of committed changes as a keyed log. -/
def semantics : KeyedLog Committed Key Row where
  touches c key := c.change.touches key = true
  effect c key row := c.change.effect key row
  untouched _ _ _ := Change.effect_of_not_touches

/-- A change leaves under a key it touches a row that does not depend on what was there. -/
theorem semantics_overwrites : semantics.Overwrites := by
  intro c key before other touches
  cases change : c.change with
  | insert k row =>
    have here : k = key := by simpa [semantics, Change.touches, change] using touches
    simp [semantics, Change.effect, change, here]
  | update k old row omitted =>
    have here : k = key ∨ old = key := by
      simpa [semantics, Change.touches, change] using touches
    by_cases same : k = key
    · simp [semantics, Change.effect, change, same]
    · simp [semantics, Change.effect, change, same, here.resolve_left same]
  | delete k =>
    have here : k = key := by simpa [semantics, Change.touches, change] using touches
    simp [semantics, Change.effect, change, here]

/-- The rows of `table`, by key. -/
def rows (table : Table) (key : Key) : Option Row := table[key]?

/-- The table after every change of the log. -/
def replay (base : Table) (log : List Committed) : Table :=
  log.foldl (fun table c => c.change.apply table) base

/-- The replayed table holds under each key the row the log leaves there. -/
theorem getElem?_replay (base : Table) (log : List Committed) (key : Key) :
    (replay base log)[key]? = semantics.rowAfter (rows base) log key := by
  induction log using List.reverseRecOn with
  | nil => rfl
  | append_singleton log c ih =>
    rw [replay, List.foldl_append, List.foldl_cons, List.foldl_nil, ← replay,
      Change.getElem?_apply, ih, KeyedLog.rowAfter_concat]
    rfl

/-! ### What a change does to the row under a key -/

variable {name : Name}

namespace Change

/-- The change puts another row, or none, in the place of the row under `key`. -/
def Replaces (key : Key) : Change → Prop
  | insert k _ => k = key
  | update k old _ _ => (k = key ∨ old = key) ∧ k ≠ old
  | delete k => k = key

/-- The change updates the row under `key` in place and its event carries column `name`. -/
def Carries (key : Key) (name : Name) : Change → Prop
  | update k old _ omitted => k = key ∧ old = key ∧ name ∉ omitted
  | _ => False

/-- The change puts a row on `key` that was not there. -/
def Lands (key : Key) : Change → Prop
  | insert k _ => k = key
  | update k old _ _ => k = key ∧ old ≠ key
  | delete _ => False

theorem Lands.replaces {key : Key} (lands : change.Lands key) : change.Replaces key := by
  cases change with
  | insert k _ => exact lands
  | update k old _ _ => exact ⟨Or.inl lands.1, fun same => lands.2 (same ▸ lands.1)⟩
  | delete k => exact lands.elim

theorem touches_of_replaces {key : Key} (replaces : change.Replaces key) :
    change.touches key = true := by
  cases change with
  | insert k _ => exact decide_eq_true replaces
  | update k old _ _ => simpa [touches] using replaces.1
  | delete k => exact decide_eq_true replaces

theorem touches_of_carries {key : Key} (carries : change.Carries key name) :
    change.touches key = true := by
  cases change with
  | insert k _ => exact carries.elim
  | update k old _ _ => simpa [touches] using Or.inl carries.1
  | delete k => exact carries.elim

/-- A change that neither replaces a row nor carries the column leaves the row's value there. -/
theorem effect_of_keeps {rows : Key → Option Row} {key : Key} {row : Row}
    (legal : change.LegalOn rows) (here : rows key = some row) (replaces : ¬ change.Replaces key)
    (carries : ¬ change.Carries key name) :
    ∃ after, change.effect key (rows key) = some after ∧ after name = row name := by
  cases change with
  | insert k _ =>
    rw [effect, if_neg (show ¬ k = key from replaces)]
    exact ⟨row, here, rfl⟩
  | delete k =>
    rw [effect, if_neg (show ¬ k = key from replaces)]
    exact ⟨row, here, rfl⟩
  | update k old new omitted =>
    by_cases same : k = key
    · have stays : old = key := by
        by_contra moved
        exact replaces ⟨Or.inl same, fun equal => moved (equal ▸ same)⟩
      have kept : name ∈ omitted := by
        by_contra sent
        exact carries ⟨same, stays, sent⟩
      obtain ⟨⟨before, found, agree⟩, -⟩ := legal
      rw [stays, here, Option.some.injEq] at found
      rw [effect, if_pos same]
      exact ⟨new, rfl, found ▸ agree name kept⟩
    · have elsewhere : old ≠ key := fun equal =>
        replaces ⟨Or.inr equal, fun moved => same (moved.trans equal)⟩
      rw [effect, if_neg same, if_neg elsewhere]
      exact ⟨row, here, rfl⟩

theorem effect_ne_none {key : Key} {row : Option Row} (present : row ≠ none)
    (replaces : ¬ change.Replaces key) : change.effect key row ≠ none := by
  cases change with
  | insert k _ => rwa [effect, if_neg (show ¬ k = key from replaces)]
  | delete k => rwa [effect, if_neg (show ¬ k = key from replaces)]
  | update k old new omitted =>
    rw [effect]
    split
    · simp
    next apart =>
      rwa [if_neg]
      exact fun equal => replaces ⟨Or.inr equal, fun moved => apart (moved.trans equal)⟩

/-- A legal change that does not land on an absent key leaves it absent. -/
theorem effect_of_absent {rows : Key → Option Row} {key : Key} (absent : rows key = none)
    (lands : ¬ change.Lands key) (legal : change.LegalOn rows) :
    change.effect key (rows key) = none := by
  cases change with
  | insert k _ => rw [effect, if_neg (show ¬ k = key from lands), absent]
  | delete k => rw [effect, absent, ite_self]
  | update k old new omitted =>
    by_cases same : k = key
    · have stays : old = key := by
        by_contra moved
        exact lands ⟨same, moved⟩
      obtain ⟨⟨before, found, -⟩, -⟩ := legal
      rw [stays, absent] at found
      cases found
    · rw [effect, if_neg same, absent, ite_self]

end Change

/-! ### Histories -/

/-- A table and the changes committed to it since. -/
structure History where
  base : Table
  log : List Committed

namespace History

variable (h : History)

/-- The row under `key` after the first `n` changes. -/
def row (n : ℕ) (key : Key) : Option Row := semantics.rowAt (rows h.base) h.log n key

/-- Every change is one the source could make. -/
def Valid : Prop := ∀ (i : ℕ) (c : Committed), h.log[i]? = some c → c.change.LegalOn (h.row i)

variable {h} {i j : ℕ} {c : Committed} {key : Key}

theorem row_succ (here : h.log[i]? = some c) :
    h.row (i + 1) key = c.change.effect key (h.row i key) :=
  KeyedLog.rowAt_succ here

theorem row_succ_of_untouched (here : h.log[i]? = some c)
    (untouched : c.change.touches key = false) :
    h.row (i + 1) key = h.row i key := by
  rw [row_succ here, Change.effect_of_not_touches (by simp [untouched])]

/-- Between two positions a key's row moves only at a change that touches it. -/
theorem row_eq_of_untouched (ordered : i ≤ j)
    (untouched : ∀ m c, i ≤ m → m < j → h.log[m]? = some c → c.change.touches key = false) :
    h.row j key = h.row i key := by
  refine KeyedLog.rowAt_eq_of_untouched ordered fun m low high c here touches => ?_
  have quiet := untouched m c low high here
  rw [show c.change.touches key = true from touches] at quiet
  cases quiet

/-- What holds of a key's row is lost only at a change that does not keep it. -/
theorem exists_of_lost {P : Option Row → Prop} {Q : Committed → Prop}
    (keeps : ∀ m c, h.log[m]? = some c → ¬ Q c → P (h.row m key) →
      P (c.change.effect key (h.row m key)))
    (ordered : i ≤ j) (reaches : j ≤ h.log.length) (start : P (h.row i key))
    (lost : ¬ P (h.row j key)) : ∃ m c, i ≤ m ∧ m < j ∧ h.log[m]? = some c ∧ Q c := by
  by_contra none
  refine lost ?_
  clear lost
  induction j, ordered using Nat.le_induction with
  | base => exact start
  | succ j ordered ih =>
    have before := ih (by omega) fun ⟨m, c, low, high, rest⟩ => none ⟨m, c, low, by omega, rest⟩
    obtain ⟨c, there⟩ : ∃ c, h.log[j]? = some c :=
      ⟨h.log[j], List.getElem?_eq_getElem (by omega)⟩
    rw [row_succ there]
    exact keeps j c there (fun touched => none ⟨j, c, ordered, by omega, there, touched⟩) before

/-- A cell changes only at a change that replaces its row or carries its column. -/
theorem exists_of_cell_ne {x : Row} (valid : h.Valid) (ordered : i ≤ j) (reaches : j ≤ h.log.length)
    (start : h.row i key = some x) (changed : ∀ y, h.row j key = some y → y name ≠ x name) :
    ∃ m c, i ≤ m ∧ m < j ∧ h.log[m]? = some c ∧
      (c.change.Replaces key ∨ c.change.Carries key name) := by
  refine exists_of_lost (P := fun r => ∃ y, r = some y ∧ y name = x name)
    (fun m c here quiet kept => ?_) ordered reaches ⟨x, start, rfl⟩ ?_
  · obtain ⟨y, held, same⟩ := kept
    rw [not_or] at quiet
    obtain ⟨after, stays, equal⟩ := Change.effect_of_keeps (valid m c here) held quiet.1 quiet.2
    exact ⟨after, stays, equal.trans same⟩
  · rintro ⟨y, here, same⟩
    exact changed y here same

/-- A row that disappears is replaced by a change in between. -/
theorem exists_of_disappears {x : Row} (ordered : i ≤ j)
    (reaches : j ≤ h.log.length) (start : h.row i key = some x) (gone : h.row j key = none) :
    ∃ m c, i ≤ m ∧ m < j ∧ h.log[m]? = some c ∧ c.change.Replaces key :=
  exists_of_lost (P := (· ≠ none)) (fun _ _ _ quiet kept => Change.effect_ne_none kept quiet)
    ordered reaches (by simp [start]) (not_not.mpr gone)

/-- A row that appears is landed by a change in between. -/
theorem exists_of_appears {y : Row} (valid : h.Valid) (ordered : i ≤ j)
    (reaches : j ≤ h.log.length) (start : h.row i key = none) (appears : h.row j key = some y) :
    ∃ m c, i ≤ m ∧ m < j ∧ h.log[m]? = some c ∧ c.change.Lands key :=
  exists_of_lost (P := (· = none))
    (fun m c here quiet absent => Change.effect_of_absent absent quiet (valid m c here))
    ordered reaches start (by simp [appears])

/-- The history with more changes committed. -/
def extend (h : History) (more : List Committed) : History := ⟨h.base, h.log ++ more⟩

variable {more : List Committed}

theorem row_extend {n : ℕ} (within : n ≤ h.log.length) : (h.extend more).row n key = h.row n key :=
  KeyedLog.rowAt_append_of_le within

theorem log_extend (here : h.log[i]? = some c) : (h.extend more).log[i]? = some c := by
  obtain ⟨within, -⟩ := List.getElem?_eq_some_iff.mp here
  rw [extend, List.getElem?_append_left within]
  exact here

theorem log_of_extend (within : i < h.log.length) (here : (h.extend more).log[i]? = some c) :
    h.log[i]? = some c := by
  rwa [extend, List.getElem?_append_left within] at here

/-- A legal change extends a valid history. -/
theorem Valid.concat (valid : h.Valid) (legal : c.change.legal (replay h.base h.log) = true) :
    (⟨h.base, h.log ++ [c]⟩ : History).Valid := by
  intro i d here
  rcases Nat.lt_trichotomy i h.log.length with below | last | beyond
  · rw [List.getElem?_append_left below] at here
    have same : History.row ⟨h.base, h.log ++ [c]⟩ i = h.row i := by
      funext key
      exact KeyedLog.rowAt_append_of_le below.le
    rw [same]
    exact valid i d here
  · subst last
    rw [List.getElem?_concat_length, Option.some.injEq] at here
    subst here
    have same : History.row ⟨h.base, h.log ++ [c]⟩ h.log.length
        = fun key => (replay h.base h.log)[key]? := by
      funext key
      rw [row, KeyedLog.rowAt_append_of_le le_rfl, KeyedLog.rowAt_length, getElem?_replay]
    rw [same]
    exact Change.legal_iff.mp legal
  · rw [List.getElem?_eq_none (by simp; omega)] at here
    cases here

end History

end PgSprite.Source
