/-
**The stream's events, and what each makes of the buffer.**

A valid history's events carry the relation's columns, an update's with a marker for each column it
omits (`updateColumns`). `carried_overlay` and `markers_of_overlay` say what an image shows once
such an event is overlaid on it, and `add_insert`, `add_update_new`, `add_update_over`, `add_move`
and `add_delete` what the buffer is after each kind of event it accepts; `of_add_insert`,
`of_add_update` and `of_add_move` read that back from an accepted event.
-/

import PgSprite.Applier.Buffer
import PgSprite.Source.History

namespace PgSprite.Applier

open Std PgSprite.Decode PgSprite.Source

/-! ### The columns an event carries -/

section Columns

variable {relation : List Name} {row : Row} {omitted : List Name}

/-- The columns of an UPDATE's event. -/
def updateColumns (relation : List Name) (row : Row) (omitted : List Name) : List Column :=
  relation.map fun name =>
    ⟨name, if omitted.contains name then none else some (.text (row name))⟩

variable {name : Name}

theorem valueOf_updateColumns (member : name ∈ relation) :
    valueOf (updateColumns relation row omitted) name
      = if name ∈ omitted then none else some (.text (row name)) := by
  simp [updateColumns, valueOf_map, member]

/-- What an event's columns carry holds of any relation of values to texts that the event's own
values are in. -/
theorem carried_updateColumns {P : Name → Text → Value → Prop} (own : ∀ name t, P name t (.text t))
    {v : Value} (found : valueOf (updateColumns relation row omitted) name = some v) :
    P name (row name) v := by
  rw [updateColumns, valueOf_map] at found
  split at found
  · split at found
    · cases found
    · cases found
      exact own name _
  · cases found

theorem omitted_of_marker (member : name ∈ relation)
    (marker : valueOf (updateColumns relation row omitted) name = none) : name ∈ omitted := by
  rw [valueOf_updateColumns member] at marker
  by_contra sent
  rw [if_neg sent] at marker
  cases marker

/-- What an overlaid image carries: the update's value, or the image's own where the update omitted
the column and so left the row's value alone. -/
theorem carried_overlay {P : Name → Text → Value → Prop} (own : ∀ name t, P name t (.text t))
    {v : Value} {before : Row} {columns : List Column} (once : relation.Nodup)
    (named : names columns = relation)
    (carried : ∀ name v, valueOf columns name = some v → P name (before name) v)
    (agree : AgreeOn omitted row before)
    (found : valueOf (overlay columns (updateColumns relation row omitted)) name = some v) :
    P name (row name) v := by
  have distinct : (names (updateColumns relation row omitted)).Nodup := by
    rw [updateColumns, names_map]
    exact once
  rw [valueOf_overlay distinct] at found
  cases sent : valueOf (updateColumns relation row omitted) name with
  | some u =>
    rw [sent, Option.some_or, Option.some.injEq] at found
    exact found ▸ carried_updateColumns own sent
  | none =>
    rw [sent, Option.none_or] at found
    have member : name ∈ relation := by
      by_contra absent
      rw [valueOf_of_not_mem (named ▸ absent)] at found
      cases found
    rw [agree name (omitted_of_marker member sent)]
    exact carried name v found

/-- A column is still omitted only where both images omit it. -/
theorem markers_of_overlay {columns : List Column} (once : relation.Nodup)
    (member : name ∈ relation)
    (marker : valueOf (overlay columns (updateColumns relation row omitted)) name = none) :
    name ∈ omitted ∧ valueOf columns name = none := by
  have distinct : (names (updateColumns relation row omitted)).Nodup := by
    rw [updateColumns, names_map]
    exact once
  rw [valueOf_overlay distinct, Option.or_eq_none_iff] at marker
  exact ⟨omitted_of_marker member marker.1, marker.2⟩

end Columns

/-! ### What the buffer is after each event -/

/-- Reads the stream into the buffer: the changes in order, each stamped with the position the
stream had delivered when it came. -/
def gather (relation : List Name) (b : Buffer) (events : List (Committed × LSN)) :
    Except Violation Buffer :=
  events.foldlM (fun b event => b.add (event.1.change.event relation event.2 event.1.xid)) b

namespace Buffer

section Events

variable {b : Buffer} {relation : List Name} {key old : Key} {row : Row} {omitted : List Name}
  {delivered : LSN} {xid : Xid} {cur : Entry}

/-- An INSERT onto a key without an image starts a whole one. -/
theorem add_insert (vacant : (b.entries[key]?).any (fun e => e.kind = .image) = false) :
    b.add ((Change.insert key row).event relation delivered xid)
      = .ok ((b.markOldKeyReused key none).put
          { key, kind := .image, columns := updateColumns relation row []
            firstLSN := firstLSN delivered [b.entries[key]?], xid }) := by
  have complete : (relation.map fun name => (⟨name, some (.text (row name))⟩ : Column)).find?
      (fun c => !c.present) = none := by
    simp [List.find?_eq_none, Column.present]
  simp only [Change.event, add, addInsert, vacant, complete]
  rfl

theorem add_update_new (absent : b.entries[key]? = none) :
    b.add ((Change.update key key row omitted).event relation delivered xid)
      = .ok ((b.markOldKeyReused key none).put
          { key, kind := .image, columns := updateColumns relation row omitted
            firstLSN := delivered, xid }) := by
  simp only [Change.event, add, addUpdate, absent]
  rfl

theorem add_update_over (stored : b.entries[key]? = some cur) (image : cur.kind = .image) :
    b.add ((Change.update key key row omitted).event relation delivered xid)
      = .ok (b.modify key
          (fun e => { e with
            columns := overlay e.columns (updateColumns relation row omitted), xid })
          fun _ => ⟨rfl, rfl⟩) := by
  simp only [Change.event, add, addUpdate, stored, image]
  rfl

/-- A key move leaves the moved image at the new key and a marker at the old one. -/
theorem add_move (apart : old ≠ key)
    (vacant : (b.entries[key]?).any (fun e => e.kind = .image) = false)
    (present : (b.entries[old]?).any (fun e => e.kind = .deleteMarker) = false) :
    b.add ((Change.update key old row omitted).event relation delivered xid)
      = .ok (((b.markOldKeyReused key ((b.entries[old]?).map fun _ => old)).put
          (movedImage ((Change.update key old row omitted).event relation delivered xid) old
            b.entries[key]? b.entries[old]?)).put
          { key := old, kind := .deleteMarker, firstLSN := firstLSN delivered [b.entries[old]?]
            xid }) := by
  simp only [Change.event, add, addKeyMove, vacant, ne_eq, apart, not_false_eq_true, reduceIte]
  simp only [present]
  rfl

theorem movedImage_fields (ev : ChangeEvent) (old : Key) (cur origin : Option Entry) :
    (movedImage ev old cur origin).key = ev.key ∧
      (movedImage ev old cur origin).xid = ev.xid ∧
      (movedImage ev old cur origin).kind = .image ∧
      (movedImage ev old cur origin).absenceAwaited = false := by
  cases origin with
  | none => exact ⟨rfl, rfl, rfl, rfl⟩
  | some e => cases left : e.oldKey <;> simp [movedImage, left]

theorem movedImage_key {cur origin : Option Entry} :
    (movedImage ((Change.update key old row omitted).event relation delivered xid) old cur
      origin).key = key :=
  (movedImage_fields _ _ _ _).1

theorem add_delete :
    b.add ((Change.delete key).event relation delivered xid)
      = .ok (b.put { key, kind := .deleteMarker, firstLSN := firstLSN delivered [b.entries[key]?]
                     xid }) := rfl

/-! An event the buffer accepted left it as one of these says. -/

variable {b' : Buffer}

theorem of_add_insert
    (added : b.add ((Change.insert key row).event relation delivered xid) = .ok b') :
    b' = (b.markOldKeyReused key none).put
      { key, kind := .image, columns := updateColumns relation row []
        firstLSN := firstLSN delivered [b.entries[key]?], xid } := by
  cases adds_of_add added with
  | insert => simp [updateColumns, Change.event]
  | start kind | overlay kind | move kind | delete kind => cases kind

/-- An UPDATE that was accepted started an image or was overlaid on one. -/
theorem of_add_update
    (added : b.add ((Change.update key key row omitted).event relation delivered xid) = .ok b') :
    (b.entries[key]? = none ∧ b' = (b.markOldKeyReused key none).put
      { key, kind := .image, columns := updateColumns relation row omitted
        firstLSN := delivered, xid }) ∨
    ∃ cur, b.entries[key]? = some cur ∧ cur.kind = .image ∧
      b' = b.modify key
        (fun e => { e with columns := overlay e.columns (updateColumns relation row omitted), xid })
        fun _ => ⟨rfl, rfl⟩ := by
  cases adds_of_add added with
  | start _ _ absent => exact .inl ⟨absent, rfl⟩
  | overlay _ _ stored image => exact .inr ⟨_, stored, image, rfl⟩
  | move _ sent => simp [Change.event] at sent
  | insert kind | delete kind => cases kind

/-- A key move that was accepted moved an image, or a row the buffer did not hold. -/
theorem of_add_move (apart : old ≠ key)
    (added : b.add ((Change.update key old row omitted).event relation delivered xid) = .ok b') :
    (∀ e, b.entries[old]? = some e → e.kind = .image) ∧
      b' = ((b.markOldKeyReused key ((b.entries[old]?).map fun _ => old)).put
          (movedImage ((Change.update key old row omitted).event relation delivered xid) old
            b.entries[key]? b.entries[old]?)).put
        { key := old, kind := .deleteMarker, firstLSN := firstLSN delivered [b.entries[old]?]
          xid } := by
  cases adds_of_add added with
  | @move _ oldKey sent _ images =>
    obtain rfl : old = oldKey := by simpa [Change.event, apart] using sent
    exact ⟨images, rfl⟩
  | start _ stays | overlay _ stays =>
    exact absurd (stays old (by simp [Change.event, apart])) apart
  | insert kind | delete kind => cases kind

end Events

end Buffer

end PgSprite.Applier
