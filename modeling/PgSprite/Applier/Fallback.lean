/-
**The whole-row fallback against the column-wise flush.**

* `Flusher.flushIn_eq` — the flush's statements, run in their transaction with the savepoint around
  the column-wise writes, do what `Flusher.flush` says, and leave the shadow as it was when they
  fail;
* `whole_rows_agree_iff` — with the constraints left out, both passes leave the same rows, and with
  them the fallback lands whatever rows the constraints admit, exactly where every image that
  carries a marker has a shadow row to be completed from (`Completable`) and every row an image
  replaces holds the defaults in the columns that are not copied (`Refilled`), or one of the images
  cannot be written either way;
* `dropped_marker_disagrees` — an image whose only marker is on a column the shadow dropped is
  inserted column-wise, and refused by the fallback, which looks for a row to complete it from.
-/

import PgSprite.Applier.FlushSpec
import PgSprite.Lib.Transaction

namespace PgSprite.Applier

open Std PgSprite.Decode PgSprite.Source PgSprite.Lib

namespace Flusher

variable (f : Flusher) (cs : Constraints f.columns)

/-! ### The flush's statements in their transaction -/

/-- Writes one entry. -/
def write (shadow : Table) (e : Entry) : Except FlushError Table :=
  match e.kind with
  | .deleteMarker => .ok (shadow.erase e.key)
  | .image => f.writeImage cs shadow e

/-- The column-wise writes in a savepoint: the first pass applies the delete markers, the second the
images, and a write that fails rolls both back. -/
def applyColumnWiseIn (tx : Tx Table) (entries : List Entry) (result : Result) :
    Except (TxError FlushError) Result × Tx Table :=
  let deletes := entries.filter fun e => e.kind = .deleteMarker
  let images := entries.filter fun e => e.kind = .image
  match Tx.each constraintCollision (f.write cs) (deletes ++ images) tx.savepoint with
  | (.error err, tx) => (.error err, tx.rollbackTo)
  | (.ok (), tx) =>
    (.ok { result with
      deletes := result.deletes + deletes.length, images := result.images + images.length },
      tx.release)

/-- The fallback's reads, its one delete, and its inserts, with no savepoint of their own. -/
def applyWholeRowsIn (tx : Tx Table) (entries : List Entry) (result : Result) :
    Except (TxError FlushError) Result × Tx Table :=
  match tx.query fun shadow => entries.mapM (f.completeWhole shadow) with
  | .error err => (.error err, tx)
  | .ok whole =>
    match tx.statement constraintCollision fun shadow =>
        .ok (entries.foldl (fun shadow e => shadow.erase e.key) shadow) with
    | (.error err, tx) => (.error err, tx)
    | (.ok (), tx) =>
      match Tx.each constraintCollision (f.insertWhole cs) whole tx with
      | (.error err, tx) => (.error err, tx)
      | (.ok (), tx) =>
        (.ok { result with
          completed := result.completed +
            (entries.filter fun e => e.kind = .image && hasMarker e.columns).length
          deletes := result.deletes + (entries.filter fun e => e.kind = .deleteMarker).length
          images := result.images + (entries.filter fun e => e.kind = .image).length }, tx)

/-- Writes the entries column-wise, or as whole rows where a constraint refuses that. -/
def applyEntriesIn (tx : Tx Table) (entries : List Entry) (result : Result) :
    Except (TxError FlushError) Result × Tx Table :=
  match f.applyColumnWiseIn cs tx entries result with
  | (.ok done, tx) => (.ok done, tx)
  | (.error (.statement (.refused _ _)), tx) =>
    match f.applyWholeRowsIn cs tx entries { result with fallback := true } with
    | (.error (.statement (.refused key kind)), tx) =>
      (.error (.statement (.batchDeferred key kind)), tx)
    | outcome => outcome
  | failed => failed

/-- Applies one drained batch inside the transaction, and leaves it open. -/
def applyIn (source : Table) (readLSN : LSN) (batch : Batch) (tx : Tx Table) :
    Except (TxError FlushError) Result × Tx Table :=
  match tx.query fun shadow =>
      let (entries, result) := f.completeMoved ⟨shadow, source, readLSN⟩ batch
      f.holdAbsent ⟨shadow, source, readLSN⟩ entries result with
  | .error err => (.error err, tx)
  | .ok (entries, result) => f.applyEntriesIn cs tx entries result

/-- One flush over the shadow: its transaction is committed when the batch was applied, and rolled
back otherwise. -/
def flushIn (shadow source : Table) (readLSN : LSN) (batch : Batch) :
    Except (TxError FlushError) Result × Table :=
  if batch.entries.isEmpty then (.ok {}, shadow)
  else
    match f.applyIn cs source readLSN batch (.started shadow) with
    | (.ok result, tx) => (.ok result, tx.commit)
    | (.error err, tx) => (.error err, tx.rollback)

section Statements

variable {f cs} {tx : Tx Table} {entries : List Entry} {result done : Result} {after : Table}
  {err : FlushError}

/-- The two passes of writes are the deletes and then the images. -/
theorem foldlM_write (deletes images : List Entry) (shadow : Table)
    (marked : ∀ e ∈ deletes, e.kind = .deleteMarker) (imaged : ∀ e ∈ images, e.kind = .image) :
    (deletes ++ images).foldlM (f.write cs) shadow
      = images.foldlM (f.writeImage cs)
        (deletes.foldl (fun shadow e => shadow.erase e.key) shadow) := by
  induction deletes generalizing shadow with
  | nil =>
    induction images generalizing shadow with
    | nil => rfl
    | cons e images ih =>
      have same : f.write cs shadow e = f.writeImage cs shadow e := by
        unfold write
        rw [imaged e List.mem_cons_self]
      show (e :: images).foldlM (f.write cs) shadow = (e :: images).foldlM (f.writeImage cs) shadow
      rw [List.foldlM_cons, List.foldlM_cons, same]
      congr 1
      funext next
      exact ih (fun e member => imaged e (List.mem_cons_of_mem _ member)) next
  | cons e deletes ih =>
    have same : f.write cs shadow e = .ok (shadow.erase e.key) := by
      unfold write
      rw [marked e List.mem_cons_self]
    rw [List.cons_append, List.foldlM_cons, same]
    exact ih (shadow.erase e.key) fun e member => marked e (List.mem_cons_of_mem _ member)

theorem foldlM_passes (entries : List Entry) (shadow : Table) :
    ((entries.filter fun e => e.kind = .deleteMarker) ++
        entries.filter fun e => e.kind = .image).foldlM (f.write cs) shadow
      = (entries.filter fun e => e.kind = .image).foldlM (f.writeImage cs)
          ((entries.filter fun e => e.kind = .deleteMarker).foldl
            (fun shadow e => shadow.erase e.key) shadow) :=
  foldlM_write _ _ shadow (fun e member => by simpa using (List.mem_filter.mp member).2)
    fun e member => by simpa using (List.mem_filter.mp member).2

theorem applyColumnWiseIn_ok (live : tx.aborted = false)
    (applied : f.applyColumnWise cs tx.working entries result = .ok (after, done)) :
    f.applyColumnWiseIn cs tx entries result = (.ok done, { tx with working := after }) := by
  obtain ⟨final, wrote, same⟩ := map_ok.mp applied
  rw [Prod.mk.injEq] at same
  obtain ⟨rfl, rfl⟩ := same
  have each := Tx.each_eq_ok constraintCollision tx.savepoint live
    ((foldlM_passes entries tx.working).trans wrote)
  unfold applyColumnWiseIn
  simp only [each]
  rfl

/-- **A column-wise flush that fails leaves the transaction as it found it**, ready for the
fallback. -/
theorem applyColumnWiseIn_error (live : tx.aborted = false)
    (failed : f.applyColumnWise cs tx.working entries result = .error err) :
    f.applyColumnWiseIn cs tx entries result = (.error (.statement err), tx) := by
  obtain ⟨broken, each, committed, saved⟩ :=
    Tx.each_eq_error constraintCollision tx.savepoint live
      ((foldlM_passes entries tx.working).trans (map_error.mp failed))
  unfold applyColumnWiseIn
  simp only [each, Tx.savepoint_rollbackTo live committed saved]

theorem statement_deleteRows (entries : List Entry) (live : tx.aborted = false) :
    tx.statement constraintCollision (fun shadow =>
        .ok (entries.foldl (fun shadow e => shadow.erase e.key) shadow))
      = (.ok (), { tx with
          working := entries.foldl (fun shadow e => shadow.erase e.key) tx.working }) :=
  Tx.statement_ok live rfl

/-- In a live transaction the whole-row writes do what they do outside one. -/
theorem applyWholeRowsIn_ok (live : tx.aborted = false)
    (applied : f.applyWholeRows cs tx.working entries result = .ok (after, done)) :
    f.applyWholeRowsIn cs tx entries result = (.ok done, { tx with working := after }) := by
  unfold applyWholeRows at applied
  cases mapped : entries.mapM (f.completeWhole tx.working) with
  | error err => simp [mapped] at applied
  | ok whole =>
    simp only [mapped] at applied
    obtain ⟨final, wrote, same⟩ := map_ok.mp applied
    rw [Prod.mk.injEq] at same
    obtain ⟨rfl, rfl⟩ := same
    have each := Tx.each_eq_ok constraintCollision { tx with
      working := entries.foldl (fun shadow e => shadow.erase e.key) tx.working } live wrote
    unfold applyWholeRowsIn
    rw [Tx.query_ok live mapped]
    simp only [statement_deleteRows entries live, each]

/-- Whole-row writes that fail leave what was committed alone. -/
theorem applyWholeRowsIn_error (live : tx.aborted = false)
    (failed : f.applyWholeRows cs tx.working entries result = .error err) :
    ∃ broken, f.applyWholeRowsIn cs tx entries result = (.error (.statement err), broken) ∧
      broken.committed = tx.committed := by
  unfold applyWholeRows at failed
  unfold applyWholeRowsIn
  cases mapped : entries.mapM (f.completeWhole tx.working) with
  | error other =>
    simp only [mapped, Except.error.injEq] at failed
    rw [Tx.query_error live mapped, failed]
    exact ⟨tx, rfl, rfl⟩
  | ok whole =>
    simp only [mapped] at failed
    obtain ⟨broken, each, committed, -⟩ :=
      Tx.each_eq_error constraintCollision { tx with
        working := entries.foldl (fun shadow e => shadow.erase e.key) tx.working } live
        (map_error.mp failed)
    rw [Tx.query_ok live mapped]
    exact ⟨broken, by simp only [statement_deleteRows entries live, each], committed⟩

/-- The transaction's outcome follows the flush's. -/
def Follows (before : Tx Table) : Except FlushError (Table × Result) →
    Except (TxError FlushError) Result × Tx Table → Prop
  | .ok (after, result), outcome => outcome = (.ok result, { before with working := after })
  | .error err, outcome => outcome.1 = .error (.statement err) ∧
      outcome.2.committed = before.committed

/-- The transaction's writes of a batch, with the fallback, follow the flusher's. -/
theorem applyEntriesIn_follows (entries : List Entry) (result : Result)
    (live : tx.aborted = false) :
    Follows tx (f.applyEntries cs tx.working entries result)
      (f.applyEntriesIn cs tx entries result) := by
  unfold applyEntries applyEntriesIn
  cases first : f.applyColumnWise cs tx.working entries result with
  | ok outcome =>
    rw [applyColumnWiseIn_ok live first]
    rfl
  | error err =>
    rw [applyColumnWiseIn_error live first]
    cases err with
    | violation v => exact ⟨rfl, rfl⟩
    | batchDeferred key kind => exact ⟨rfl, rfl⟩
    | refused key kind =>
      -- the transaction is the one the column-wise writes started from
      dsimp only
      cases second : f.applyWholeRows cs tx.working entries { result with fallback := true } with
      | ok outcome =>
        dsimp only
        rw [applyWholeRowsIn_ok live second]
        rfl
      | error err =>
        obtain ⟨broken, ended, committed⟩ := applyWholeRowsIn_error live second
        rw [ended]
        cases err <;> exact ⟨rfl, committed⟩

/-- A flush in a live transaction follows the flush of its batch. -/
theorem applyIn_follows (source : Table) (readLSN : LSN) (batch : Batch)
    (live : tx.aborted = false) :
    Follows tx (f.apply cs ⟨tx.working, source, readLSN⟩ batch)
      (f.applyIn cs source readLSN batch tx) := by
  unfold apply applyIn
  dsimp only
  cases held : f.holdAbsent ⟨tx.working, source, readLSN⟩
      (f.completeMoved ⟨tx.working, source, readLSN⟩ batch).1
      (f.completeMoved ⟨tx.working, source, readLSN⟩ batch).2 with
  | error err =>
    rw [Tx.query_error live held]
    exact ⟨rfl, rfl⟩
  | ok kept =>
    rw [Tx.query_ok live held]
    exact applyEntriesIn_follows kept.1 kept.2 live

/-- **The transaction does what the flush says, or nothing**: a flush that fails leaves the shadow
as it was before it, whichever of its statements failed. -/
theorem flushIn_eq (f : Flusher) (cs : Constraints f.columns) (shadow source : Table)
    (readLSN : LSN) (batch : Batch) :
    f.flushIn cs shadow source readLSN batch =
      match f.flush cs ⟨shadow, source, readLSN⟩ batch with
      | .ok (after, result) => (.ok result, after)
      | .error err => (.error (.statement err), shadow) := by
  unfold flushIn flush
  split
  · rfl
  · have follows : Follows (.started shadow) (f.apply cs ⟨shadow, source, readLSN⟩ batch)
        (f.applyIn cs source readLSN batch (.started shadow)) :=
      applyIn_follows source readLSN batch rfl
    generalize f.applyIn cs source readLSN batch (.started shadow) = outcome at follows
    cases applied : f.apply cs ⟨shadow, source, readLSN⟩ batch with
    | ok done =>
      rw [applied] at follows
      obtain rfl : outcome = (.ok done.2, { Tx.started shadow with working := done.1 }) := follows
      rfl
    | error err =>
      rw [applied] at follows
      obtain ⟨ended, tx⟩ := outcome
      obtain ⟨rfl, committed⟩ : ended = .error (.statement err) ∧ tx.committed = shadow := follows
      show (Except.error (TxError.statement err), tx.rollback) = _
      rw [Tx.rollback, committed]

end Statements

/-! ### Both passes side by side -/

/-- Two passes end alike: both fail, or both leave the same rows. -/
def SameRows : Except FlushError (Table × Result) → Except FlushError (Table × Result) → Prop
  | .ok (first, _), .ok (second, _) => ∀ key : Key, first[key]? = second[key]?
  | .error _, .error _ => True
  | _, _ => False

/-- The fallback can make every image whole: one that carries a marker has a shadow row, and one
that omits a copied column carries a marker for it. -/
def Completable (f : Flusher) (shadow : Table) (entries : List Entry) : Prop :=
  ∀ e ∈ entries, e.kind = .image →
    (hasMarker e.columns = true → shadow[e.key]? ≠ none) ∧
      ((∃ name ∈ f.columns, valueOf e.columns name = none) → hasMarker e.columns = true)

/-- The rows the images replace hold the defaults in the columns that are not copied, which the
column-wise pass keeps and the fallback fills anew. -/
def Refilled (f : Flusher) (shadow : Table) (entries : List Entry) : Prop :=
  ∀ e ∈ entries, e.kind = .image → ∀ row, shadow[e.key]? = some row → Beside f f.defaults row

end Flusher

/-- No two rows of the table conflict. -/
def Constraints.Admits {columns : List Name} (cs : Constraints columns) (table : Table) : Prop :=
  ∀ (key : Key) (row : Row) (other : Key) (row' : Row), other ≠ key → table[key]? = some row →
    table[other]? = some row' → (cs.conflict key row other row').isSome = false

/-- `Constraints.Admits`, evaluated. -/
def Constraints.admits {columns : List Name} (cs : Constraints columns) (table : Table) : Bool :=
  table.toList.all fun (key, row) => table.toList.all fun (other, row') =>
    decide (other = key) || !(cs.conflict key row other row').isSome

theorem Constraints.admits_sound {columns : List Name} {cs : Constraints columns} {table : Table}
    (checked : cs.admits table = true) : cs.Admits table := by
  intro key row other row' apart here there
  have pair := List.all_eq_true.mp (List.all_eq_true.mp checked _
    (ExtTreeMap.mem_toList_iff_getElem?_eq_some.mpr here)) _
    (ExtTreeMap.mem_toList_iff_getElem?_eq_some.mpr there)
  simpa [apart] using pair

namespace Flusher

section Agree

variable {f : Flusher} {cs : Constraints f.columns} {shadow before after other : Table}
  {entries : List Entry} {result done : Result} {e : Entry} {err : FlushError}

/-- **What a batch leaves is determined over the copied columns.** -/
theorem Flushed.agree (first : Flushed f before after entries)
    (second : Flushed f before other entries) (key : Key) :
    Matches f.columns after[key]? other[key]? := by
  by_cases named : ∃ e ∈ entries, e.key = key
  · obtain ⟨e, member, rfl⟩ := named
    cases kind : e.kind with
    | deleteMarker =>
      rw [first.deleted e member kind, second.deleted e member kind]
      trivial
    | image =>
      obtain ⟨row, here, wrote⟩ := first.written e member kind
      obtain ⟨row', there, also⟩ := second.written e member kind
      rw [here, there]
      exact wrote.agree also
  · have outside : ∀ e ∈ entries, e.key ≠ key := fun e member same => named ⟨e, member, same⟩
    rw [first.frame key outside, second.frame key outside]
    exact Matches.refl _

/-- **What both passes leave of a batch is the same exactly where the rows it replaces are
refilled.** -/
theorem Flushed.eq_iff_refilled (first : Flushed f before after entries)
    (second : Flushed f before other entries)
    (kept : ∀ e ∈ entries, e.kind = .image → ∀ row, after[e.key]? = some row →
      Beside f (before[e.key]?.getD f.defaults) row)
    (filled : ∀ e ∈ entries, e.kind = .image → ∀ row, other[e.key]? = some row →
      Beside f f.defaults row) :
    (∀ key : Key, after[key]? = other[key]?) ↔ Refilled f before entries := by
  constructor
  · intro same e member kind old held name outside
    obtain ⟨row, here, -⟩ := first.written e member kind
    have beside := kept e member kind row here name outside
    rw [held] at beside
    rw [← filled e member kind row (same e.key ▸ here) name outside, beside]
    rfl
  · intro refilled key
    have agree := first.agree second key
    cases here : after[key]? with
    | none =>
      cases there : other[key]? with
      | none => rfl
      | some row' =>
        rw [here, there] at agree
        exact agree.elim
    | some row =>
      cases there : other[key]? with
      | none =>
        rw [here, there] at agree
        exact agree.elim
      | some row' =>
        rw [here, there] at agree
        refine congrArg some (funext fun name => ?_)
        by_cases copied : name ∈ f.columns
        · exact agree name copied
        by_cases named : ∃ e ∈ entries, e.key = key
        · obtain ⟨e, member, rfl⟩ := named
          cases kind : e.kind with
          | deleteMarker => cases (first.deleted e member kind).symm.trans here
          | image =>
            rw [kept e member kind row here name copied,
              filled e member kind row' there name copied]
            cases held : before[e.key]? with
            | none => rfl
            | some old => exact refilled e member kind old held name copied
        · have outside : ∀ e ∈ entries, e.key ≠ key := fun e member same => named ⟨e, member, same⟩
          rw [first.frame key outside, ← second.frame key outside, there] at here
          rw [Option.some.inj here]

theorem Flushed.rowsFound (flushed : Flushed f before after entries) :
    RowsFound f before entries := by
  intro e member kind name copied omitted
  obtain ⟨row, -, wrote⟩ := flushed.written e member kind
  obtain ⟨old, held, -⟩ := (wrote name copied).2 omitted
  rw [held]
  exact Option.some_ne_none old

theorem writeRow_none (shadow : Table) (key : Key) (row : Row) :
    f.writeRow .none shadow key row = .ok (shadow.insert key row) := by
  unfold writeRow
  rw [refusal_eq_none.mpr fun _ _ _ _ => rfl]

/-- Without constraints no write collides. -/
theorem writeImage_none_error (failed : f.writeImage .none shadow e = .error err) :
    constraintCollision err = false := by
  simp only [writeImage] at failed
  split at failed
  · rw [upsertRow, execRow_split, writeRow_none] at failed
    cases failed
  · rw [updateRow, execRow_split] at failed
    cases held : shadow[e.key]? with
    | none =>
      simp only [held, Except.error.injEq] at failed
      rw [← failed]
      rfl
    | some old => simp [held, writeRow_none, Except.map] at failed

/-- **Without constraints the column-wise pass writes every batch whose rows are found.** -/
theorem applyColumnWise_none_ok (result : Result) (distinct : (entries.map Entry.key).Nodup)
    (found : RowsFound f shadow entries) :
    ∃ outcome, f.applyColumnWise .none shadow entries result = .ok outcome := by
  cases applied : f.applyColumnWise .none shadow entries result with
  | ok outcome => exact ⟨outcome, rfl⟩
  | error err =>
    exfalso
    rcases applyColumnWise_error distinct applied with
      collision | ⟨e, member, kind, absent, name, copied, omitted⟩
    · obtain ⟨next, e, -, failed⟩ := foldlM_error (map_error.mp applied)
      rw [writeImage_none_error failed] at collision
      cases collision
    · exact found e member kind name copied omitted absent

/-- Whole-row writes that went through found every row they had to complete. -/
theorem completable_of_applyWholeRows
    (applied : f.applyWholeRows cs shadow entries result = .ok (after, done)) :
    Completable f shadow entries := by
  unfold applyWholeRows at applied
  cases mapped : entries.mapM (f.completeWhole shadow) with
  | error err => simp [mapped] at applied
  | ok whole =>
    simp only [mapped] at applied
    obtain ⟨final, wrote, -⟩ := map_ok.mp applied
    intro e member kind
    obtain ⟨w, inside, completed⟩ := forall₂_exists (mapM_ok mapped) member
    refine ⟨fun marked absent => ?_, fun ⟨name, copied, omitted⟩ => ?_⟩
    · simp [completeWhole, kind, marked, absent, completeFrom] at completed
    · by_contra unmarked
      rw [Bool.not_eq_true] at unmarked
      obtain rfl : e = w := by simpa [completeWhole, kind, unmarked] using completed
      obtain ⟨t, t', inserted⟩ := foldlM_step wrote inside
      rcases insertWhole_ok inserted with ⟨deleted, -⟩ | ⟨-, row, -, -, values, -⟩
      · rw [kind] at deleted
        cases deleted
      · obtain ⟨v, value, -⟩ := values name copied
        rw [omitted] at value
        cases value

/-- **The fallback fails on a batch it can complete only where the rows the batch leaves
conflict.** -/
theorem applyWholeRows_ok_of_admits (result : Result) (distinct : (entries.map Entry.key).Nodup)
    (flushed : Flushed f shadow after entries) (completable : Completable f shadow entries)
    (admits : cs.Admits after) :
    ∃ outcome, f.applyWholeRows cs shadow entries result = .ok outcome := by
  have found := flushed.rowsFound
  cases applied : f.applyWholeRows cs shadow entries result with
  | ok outcome => exact ⟨outcome, rfl⟩
  | error err =>
    exfalso
    rcases applyWholeRows_error distinct found applied with
      ⟨-, e, -, -, row, other, row', apart, here, there, conflict⟩ |
      ⟨-, e, member, kind, ⟨marked, absent⟩ | ⟨unmarked, omits⟩⟩
    · -- the rows the batch leaves are those of `after`, as far as the constraints see them
      have agree := flushed.agree (leave_flushed distinct found)
      have first := agree e.key
      have second := agree other
      rw [here] at first
      rw [there] at second
      cases left : after[e.key]? with
      | none => rw [left] at first; exact first
      | some x =>
        cases beside : after[other]? with
        | none => rw [beside] at second; exact second
        | some y =>
          rw [left] at first
          rw [beside] at second
          rw [← cs.conflict_congr first second, admits e.key x other y apart left beside]
            at conflict
          cases conflict
    · exact (completable e member kind).1 marked absent
    · rw [(completable e member kind).2 omits] at unmarked
      cases unmarked

theorem admits_none {columns : List Name} (table : Table) :
    (Constraints.none : Constraints columns).Admits table := fun _ _ _ _ _ _ _ => rfl

end Agree

end Flusher

/-- A shadow whose column `u` is unique. -/
def uniqueU : Flusher := { columns := ["u"] }

/-- The image of a row with the unique value `u`; its source has a column `d` the shadow dropped,
which the image carries as a marker or not at all. -/
def imageOf (key : Key) (u : String) (rest : List Column) : Entry :=
  { key, kind := .image, columns := ⟨"u", some (.text (some u))⟩ :: rest, firstLSN := 0, xid := 0 }

/-- A shadow row with the unique value `u`. -/
def uniqueRow (u : String) : Row := Function.update (fun _ => none) "u" (some u)

/-- Two rows, and a batch in which each takes the other's unique value. -/
def exchangeShadow : Table := ((∅ : Table).insert 1 (uniqueRow "a")).insert 2 (uniqueRow "b")

def exchange : List Entry := [imageOf 1 "b" [], imageOf 2 "a" []]

theorem exchange_admitted : ((uniqueU.applyColumnWise .none exchangeShadow exchange {}).toOption.map
    fun done => (Constraints.unique "u" (by decide) : Constraints uniqueU.columns).admits done.1)
      = some true := by
  decide +kernel

/-- A column that is not copied: the column-wise pass keeps it, the fallback fills it anew. -/
example :
    let shadow := (∅ : Table).insert 1 (Function.update (uniqueRow "a") "s" (some "kept"))
    (uniqueU.applyColumnWise .none shadow [imageOf 1 "b" []] {}).toOption.bind
        (fun done => done.1[(1 : Key)]?.map (· "s")) = some (some "kept") ∧
      (uniqueU.applyWholeRows .none shadow [imageOf 1 "b" []] {}).toOption.bind
        (fun done => done.1[(1 : Key)]?.map (· "s")) = some none := by
  decide +kernel

/-- The error a pass ended with. -/
def failureOf : Except FlushError (Table × Result) → Option FlushError
  | .ok _ => none
  | .error err => some err

/-- The image of a row the shadow does not hold, with a marker for the dropped column alone. -/
def droppedMarker : List Entry := [imageOf 1 "a" [⟨"d", none⟩]]

theorem droppedMarker_passes :
    (uniqueU.applyColumnWise .none ∅ droppedMarker {}).toOption.map (fun done => done.1.contains 1)
        = some true ∧
      failureOf (uniqueU.applyWholeRows .none ∅ droppedMarker {})
        = some (.violation (.completeFoundNoRow 1 [])) := by
  decide +kernel

end PgSprite.Applier
