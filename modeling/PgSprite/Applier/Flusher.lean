/-
**The flush: one drained batch written into the shadow in one transaction.**

The flush reads a completion for every moved image that still carries a marker and takes those
images out of the batch; holds the unmoved marker images whose shadow row is absent; writes the
rest column-wise, deletes first; and where a constraint refuses a write, rolls back and applies the
batch as delete-all-then-insert-all. A transaction is modelled by the shadow's rows before and after
it, so a flush that fails leaves the shadow as it was. The batch it was given is another matter: the
fallback completes images in columns the batch shares (`leftIn`), which a requeue then puts back.

The statements that reach the server are modelled by what they do to the shadow's rows; the
server refuses a row that conflicts with another one it holds, in the terms of `Constraints`.
-/

import PgSprite.Applier.Drain
import PgSprite.Applier.Hold
import PgSprite.Source.History

namespace PgSprite.Applier

open Std PgSprite.Decode PgSprite.Source

/-- The constraint classes the flush falls back on. -/
inductive ConstraintKind where
  | unique
  | exclusion
  deriving DecidableEq, Repr

/-- The SQLSTATE the server reports for a refused row. -/
def ConstraintKind.sqlstate : ConstraintKind → String
  | .unique => "23505"
  | .exclusion => "23P01"

/-- The shadow's unique and exclusion constraints over its copied columns, beyond its primary key:
which two rows cannot stand together. -/
structure Constraints (columns : List Name) where
  conflict : Key → Row → Key → Row → Option ConstraintKind
  symmetric : ∀ key row other row',
    (conflict key row other row').isSome = (conflict other row' key row).isSome
  copied : ∀ key row same other row', AgreeOn columns row same →
    (conflict key row other row').isSome = (conflict key same other row').isSome

theorem Constraints.conflict_congr {columns : List Name} (cs : Constraints columns)
    {key other : Key} {a a' b b' : Row} (first : AgreeOn columns a a')
    (second : AgreeOn columns b b') :
    (cs.conflict key a other b).isSome = (cs.conflict key a' other b').isSome := by
  rw [cs.copied key a a' other b first, cs.symmetric, cs.copied other b b' key a' second,
    cs.symmetric]

/-- A shadow with no constraint but its primary key. -/
def Constraints.none {columns : List Name} : Constraints columns where
  conflict _ _ _ _ := Option.none
  symmetric _ _ _ _ := rfl
  copied _ _ _ _ _ _ := rfl

/-- A unique index over one copied column. -/
def Constraints.unique {columns : List Name} (column : Name) (copied : column ∈ columns) :
    Constraints columns where
  conflict _ row _ row' :=
    if (row column).isSome && row column == row' column then some .unique else Option.none
  symmetric key row other row' := by
    by_cases same : row column = row' column
    · simp [same]
    · simp [same, Ne.symm same]
  copied key row same other row' agree := by rw [agree column copied]

/-- Why a flush ended without committing. -/
inductive FlushError where
  | violation (v : Violation)
  | refused (key : Key) (kind : ConstraintKind)
  /-- The batch was refused even after the whole-row fallback. -/
  | batchDeferred (key : Key) (kind : ConstraintKind)
  deriving DecidableEq, Repr

/-- Whether a unique index or exclusion constraint refused the write. -/
def constraintCollision : FlushError → Bool
  | .refused .. => true
  | _ => false

/-- What one flush wrote, and what it read but did not write. -/
structure Result where
  images : ℕ := 0
  deletes : ℕ := 0
  completed : ℕ := 0
  held : List HeldImage := []
  skipped : List Key := []
  fallback : Bool := false
  deriving DecidableEq, Repr

/-- What a flush writes an image's columns through: the shadow's copied columns other than the key,
and the conversions its statement declares. An inserted row takes the shadow's default in a column
it is given no value for. -/
structure Flusher where
  columns : List Name
  distinct : columns.Nodup := by decide
  conversions : Name → Option (Text → Text) := fun _ => none
  defaults : Row := fun _ => none

/-- What a flush's statements read: the shadow and the source as its transaction sees them, and the
WAL insert position of its reads. -/
structure Reads where
  shadow : Table
  source : Table
  readLSN : LSN

namespace Flusher

variable (f : Flusher) (cs : Constraints f.columns)

/-- An image's writable columns: the ones it carries a value for, and the names it does not. -/
def split (columns : List Column) : List Column × List Name :=
  (f.columns.filterMap fun name => (valueOf columns name).map (Column.presentColumn name),
    f.columns.filter fun name => (valueOf columns name).isNone)

/-- The text a statement writes for a value: a converted column's source value goes through the
column's expression, a value in the shadow's form is bound bare. -/
def written (name : Name) (value : Value) : Text :=
  match f.conversions name, value with
  | some convert, .text source => convert source
  | _, value => bound value

/-- The text the shadow holds for a source value: the column's expression applied once. -/
def converted (name : Name) (source : Text) : Text :=
  match f.conversions name with
  | none => source
  | some convert => convert source

/-- The row the shadow holds for a source row. -/
def convertedRow (row : Row) : Row := fun name => f.converted name (row name)

theorem convertedRow_of_plain {f : Flusher} (plain : ∀ name, f.conversions name = none) :
    f.convertedRow = id := by
  funext row name
  rw [convertedRow, converted, plain]
  rfl

/-- No two of the source's rows would conflict in the shadow. -/
def Satisfies (rows : Key → Option Row) : Prop :=
  ∀ key row other row', key ≠ other → rows key = some row → rows other = some row' →
    (cs.conflict key (f.convertedRow row) other (f.convertedRow row')).isSome = false

/-- `Satisfies`, evaluated on a table. -/
def satisfies (table : Table) : Bool :=
  table.toList.all fun (key, row) => table.toList.all fun (other, row') =>
    decide (key = other) ||
      !(cs.conflict key (f.convertedRow row) other (f.convertedRow row')).isSome

theorem satisfies_sound {table : Table} (checked : f.satisfies cs table = true) :
    f.Satisfies cs fun key => table[key]? := by
  intro key row other row' apart here there
  have pair := List.all_eq_true.mp (List.all_eq_true.mp checked _
    (ExtTreeMap.mem_toList_iff_getElem?_eq_some.mpr here)) _
    (ExtTreeMap.mem_toList_iff_getElem?_eq_some.mpr there)
  simpa [apart] using pair

/-- The row with the columns' values assigned. -/
def assign (row : Row) (columns : List Column) : Row :=
  columns.foldl (fun row c =>
    match c.value with
    | none => row
    | some value => Function.update row c.name (f.written c.name value)) row

/-- The server's verdict on a row: the constraint that refuses it beside the rows it holds. -/
def refusal (shadow : Table) (key : Key) (row : Row) : Option ConstraintKind :=
  shadow.toList.findSome? fun (other, row') =>
    if other = key then none else cs.conflict key row other row'

/-- Writes the row under `key`, unless a constraint refuses it. -/
def writeRow (shadow : Table) (key : Key) (row : Row) : Except FlushError Table :=
  match f.refusal cs shadow key row with
  | some kind => .error (.refused key kind)
  | none => .ok (shadow.insert key row)

/-- Runs a row statement once every column has a value to bind. -/
def execRow {α : Type} (columns : List Column) (statement : Except FlushError α) :
    Except FlushError α :=
  match columns.find? (fun c => !c.present) with
  | some c => .error (.violation (.nothingToBind c.name))
  | none => statement

/-- Inserts the row, or assigns the given columns on the row the key already holds. -/
def upsertRow (shadow : Table) (key : Key) (columns : List Column) : Except FlushError Table :=
  execRow columns <| f.writeRow cs shadow key (f.assign (shadow[key]?.getD f.defaults) columns)

/-- Assigns the given columns on the row under `key`, and says whether there was one. -/
def updateRow (shadow : Table) (key : Key) (columns : List Column) :
    Except FlushError (Table × Bool) :=
  execRow columns <|
    match shadow[key]? with
    | none => .ok (shadow, false)
    | some row => (f.writeRow cs shadow key (f.assign row columns)).map fun after => (after, true)

/-- Inserts a whole row; the primary key refuses one that is already there. -/
def insertRow (shadow : Table) (key : Key) (columns : List Column) : Except FlushError Table :=
  execRow columns <|
    if shadow.contains key then .error (.refused key .unique)
    else f.writeRow cs shadow key (f.assign f.defaults columns)

/-! ### Completions -/

/-- What a row read finds for the markers. -/
def completeFrom (row : Option Row) (markers : List Name) : Option (List Column) :=
  row.map fun row => markers.map fun name => Column.presentColumn name (.text (row name))

/-- Reads the completion of one moved image: from the old key's shadow row when that can be the
row's own, else from the source row under its key. -/
def completeOne (reads : Reads) (e : Entry) : Option HeldImage :=
  let markers := (f.split e.columns).2
  let old := if e.oldKeyReused then none else e.oldKey.bind fun old => reads.shadow[old]?
  match completeFrom old markers with
  | some completed => some { entry := e, completed, readLSN := reads.readLSN }
  | none =>
    (completeFrom reads.source[e.key]? markers).map fun completed =>
      { entry := e, completed, fromSource := true, readLSN := reads.readLSN }

/-- A moved image that still carries a marker, among all its decoded columns. -/
def named (e : Entry) : Bool := e.kind = .image && e.oldKey.isSome && hasMarker e.columns

/-- The delete marker written for an image no row could complete. -/
def skippedMarker (e : Entry) : Entry :=
  { key := e.key, kind := .deleteMarker, firstLSN := e.firstLSN, xid := e.xid }

/-- Reads a completion for every named image: the entries to write, with each named image taken
out or, where no row could complete it, replaced by a delete marker. -/
def completeMoved (reads : Reads) (batch : Batch) : List Entry × Result :=
  (batch.entries.filterMap fun e =>
      if named e then
        match f.completeOne reads e with
        | some _ => none
        | none => some (skippedMarker e)
      else some e,
    { held := batch.completeFirst.filterMap (f.completeOne reads)
      skipped := (batch.completeFirst.filter fun e => (f.completeOne reads e).isNone).map
        Entry.key })

/-- Whether the flush must find the shadow row under the image's own key before it writes. -/
def checksShadowRow (e : Entry) : Bool :=
  if e.kind ≠ .image || e.oldKey.isSome then false
  else e.absenceAwaited || !(f.split e.columns).2.isEmpty

/-- The image needs its shadow row and the shadow holds none. -/
def absent (reads : Reads) (e : Entry) : Bool :=
  f.checksShadowRow e && !reads.shadow.contains e.key

/-- Takes out and holds every unmoved marker image whose shadow row is absent; one that was held
for that before is refused. -/
def holdAbsent (reads : Reads) (entries : List Entry) (result : Result) :
    Except FlushError (List Entry × Result) :=
  match entries.find? (fun e => f.absent reads e && e.absenceAwaited) with
  | some e => .error (.violation (.stillAbsent e.key))
  | none =>
    .ok (entries.filter fun e => !f.absent reads e,
      { result with
        held := result.held ++ (entries.filter (f.absent reads)).map fun e =>
          { entry := { e with absenceAwaited := true }, readLSN := reads.readLSN } })

/-! ### The writes -/

/-- Upserts an image that is whole, and updates one that still carries a marker. -/
def writeImage (shadow : Table) (e : Entry) : Except FlushError Table :=
  let (present, markers) := f.split e.columns
  if markers.isEmpty then f.upsertRow cs shadow e.key present
  else
    match f.updateRow cs shadow e.key present with
    | .error err => .error err
    | .ok (after, true) => .ok after
    | .ok (_, false) => .error (.violation (.updateFoundNoRow e.key markers))

/-- Writes every delete marker and then every image. -/
def applyColumnWise (shadow : Table) (entries : List Entry) (result : Result) :
    Except FlushError (Table × Result) :=
  let deletes := entries.filter fun e => e.kind = .deleteMarker
  let images := entries.filter fun e => e.kind = .image
  let deleted := deletes.foldl (fun shadow e => shadow.erase e.key) shadow
  (images.foldlM (f.writeImage cs) deleted).map fun after =>
    (after, { result with
      deletes := result.deletes + deletes.length, images := result.images + images.length })

/-- Completes an image that still carries a marker from the shadow row under its own key. -/
def completeWhole (shadow : Table) (e : Entry) : Except FlushError Entry :=
  if e.kind = .image && hasMarker e.columns then
    let markers := (f.split e.columns).2
    match completeFrom shadow[e.key]? markers with
    | none => .error (.violation (.completeFoundNoRow e.key markers))
    | some completed => .ok { e with columns := overlay e.columns (inShadowForm completed) }
  else .ok e

/-- What completing an image leaves of the entry whose columns it shares. -/
def completeShared (shadow : Table) (e : Entry) : Entry :=
  if e.kind = .image && hasMarker e.columns then
    match completeFrom shadow[e.key]? (f.split e.columns).2 with
    | none => e
    | some completed => { e with columns := overlayShared e.columns (inShadowForm completed) }
  else e

/-- Inserts one completed image whole; a delete marker's row is already gone. -/
def insertWhole (shadow : Table) (e : Entry) : Except FlushError Table :=
  match e.kind with
  | .deleteMarker => .ok shadow
  | .image =>
    let (present, markers) := f.split e.columns
    if markers.isEmpty then f.insertRow cs shadow e.key present
    else .error (.violation (.stillOmits e.key markers))

/-- The fallback: completes every image, deletes every key of the batch, and inserts every image
whole. -/
def applyWholeRows (shadow : Table) (entries : List Entry) (result : Result) :
    Except FlushError (Table × Result) :=
  match entries.mapM (f.completeWhole shadow) with
  | .error err => .error err
  | .ok whole =>
    let deleted := entries.foldl (fun shadow e => shadow.erase e.key) shadow
    (whole.foldlM (f.insertWhole cs) deleted).map fun after =>
      (after, { result with
        completed := result.completed +
          (entries.filter fun e => e.kind = .image && hasMarker e.columns).length
        deletes := result.deletes + (entries.filter fun e => e.kind = .deleteMarker).length
        images := result.images + (entries.filter fun e => e.kind = .image).length })

/-- Writes the entries column-wise, or as whole rows where a constraint refuses that. -/
def applyEntries (shadow : Table) (entries : List Entry) (result : Result) :
    Except FlushError (Table × Result) :=
  match f.applyColumnWise cs shadow entries result with
  | .ok done => .ok done
  | .error err =>
    if !constraintCollision err then .error err
    else
      match f.applyWholeRows cs shadow entries { result with fallback := true } with
      | .error (.refused key kind) => .error (.batchDeferred key kind)
      | outcome => outcome

/-- Applies one drained batch inside the flush's transaction. -/
def apply (reads : Reads) (batch : Batch) : Except FlushError (Table × Result) :=
  let (entries, result) := f.completeMoved reads batch
  match f.holdAbsent reads entries result with
  | .error err => .error err
  | .ok (entries, result) => f.applyEntries cs reads.shadow entries result

/-- What a flush refused as whole rows too leaves of an entry of its batch: the fallback completed
the images it was to write in place, in the columns the batch shares with them. A moved image is
completed as a copy, and one held for its absent row is not written. -/
def entryLeft (reads : Reads) (e : Entry) : Entry :=
  if named e || f.absent reads e then e else f.completeShared reads.shadow e

/-- The batch's entries after a flush that was refused as whole rows too. -/
def leftIn (reads : Reads) (batch : Batch) : List Entry := batch.entries.map (f.entryLeft reads)

/-- Applies one drained batch in one transaction, or writes nothing. -/
def flush (reads : Reads) (batch : Batch) : Except FlushError (Table × Result) :=
  if batch.entries.isEmpty then .ok (reads.shadow, {}) else f.apply cs reads batch

end Flusher

end PgSprite.Applier
