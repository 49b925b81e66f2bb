/-
**What a flush does to the shadow.**

`Wrote` says what an image leaves in a row, column by column, whether the row was written
column-wise or whole; `Flushed` says what a list of entries leaves in the whole shadow. The two
paths of the flush meet in one specification:

* `applyEntries_flushed` — a flush that commits leaves `Flushed` and no conflict on a row it wrote;
* `applyEntries_error` — a flush that fails has fallen back: it is deferred, and its rows would
  conflict, or it is refused for an image that has nothing to complete it;
* `apply_eq` — which entries of a batch are written and which are held.
-/

import PgSprite.Applier.Flusher
import PgSprite.Lib.Except

namespace PgSprite.Applier

open Std PgSprite.Decode PgSprite.Source PgSprite.Lib

namespace Flusher

variable {f : Flusher} {cs : Constraints f.columns} {shadow before after : Table}
  {columns : List Column} {name : Name} {e : Entry} {entries : List Entry} {key : Key} {row : Row}

/-! ### The columns an image writes -/

theorem mem_markers :
    name ∈ (f.split columns).2 ↔ name ∈ f.columns ∧ valueOf columns name = none := by
  simp [split]

theorem execRow_split {α : Type} (statement : Except FlushError α) :
    execRow (f.split columns).1 statement = statement := by
  have bound : (f.split columns).1.find? (fun c => !c.present) = none := by
    refine List.find?_eq_none.mpr fun c member => ?_
    obtain ⟨name, -, value⟩ := List.mem_filterMap.mp member
    obtain ⟨v, -, rfl⟩ := Option.map_eq_some_iff.mp value
    simp [Column.presentColumn, Column.present]
  rw [execRow, bound]

/-- Assigning the values of some columns changes exactly those that have one. -/
theorem assign_filterMap (names : List Name) (row : Row) :
    f.assign row (names.filterMap fun n => (valueOf columns n).map (Column.presentColumn n)) name
      = if name ∈ names then ((valueOf columns name).map (f.written name)).getD (row name)
        else row name := by
  induction names generalizing row with
  | nil => simp [assign]
  | cons head names ih =>
    cases value : valueOf columns head with
    | none =>
      rw [List.filterMap_cons, value, Option.map_none, ih]
      by_cases same : name = head
      · subst same
        by_cases deeper : name ∈ names <;> simp [deeper, value]
      · simp [same]
    | some v =>
      rw [List.filterMap_cons, value, Option.map_some]
      simp only [assign, List.foldl_cons, Column.presentColumn]
      rw [← assign, ih]
      by_cases same : name = head
      · subst same
        by_cases deeper : name ∈ names <;> simp [deeper, value]
      · by_cases deeper : name ∈ names <;> simp [same, deeper, Function.update_of_ne]

theorem assign_split (row : Row) (member : name ∈ f.columns) :
    f.assign row (f.split columns).1 name
      = ((valueOf columns name).map (f.written name)).getD (row name) := by
  rw [split, assign_filterMap, if_pos member]

/-- The row an image leaves under its key, from the row that was there: its own value in each
column it carries, and the old row's in each column it does not. -/
def Wrote (f : Flusher) (before : Option Row) (e : Entry) (row : Row) : Prop :=
  ∀ name ∈ f.columns,
    (∀ v, valueOf e.columns name = some v → row name = f.written name v) ∧
    (valueOf e.columns name = none → ∃ old, before = some old ∧ row name = old name)

/-- The row holds another one's values in the columns that are not copied. -/
def Beside (f : Flusher) (base row : Row) : Prop := ∀ name ∉ f.columns, row name = base name

theorem beside_assign (row : Row) : Beside f row (f.assign row (f.split columns).1) := by
  intro name other
  rw [split, assign_filterMap, if_neg other]

variable {old : Option Row}

/-- An image leaves one row, as far as the copied columns go. -/
theorem Wrote.agree {row row' : Row} (first : Wrote f old e row) (second : Wrote f old e row') :
    AgreeOn f.columns row row' := by
  intro name member
  cases value : valueOf e.columns name with
  | some v => rw [(first name member).1 v value, (second name member).1 v value]
  | none =>
    obtain ⟨x, found, same⟩ := (first name member).2 value
    obtain ⟨y, also, equal⟩ := (second name member).2 value
    rw [found, Option.some.injEq] at also
    rw [same, equal, also]

/-- Assigning an image's values leaves the image's row, where it omits nothing or the row assigned
on is the one that was there. -/
theorem wrote_assign (kept : (f.split e.columns).2 = [] ∨ old = some row) :
    Wrote f old e (f.assign row (f.split e.columns).1) := by
  intro name member
  rw [assign_split row member]
  refine ⟨fun v value => by rw [value]; rfl, fun omitted => ?_⟩
  rcases kept with none | rfl
  · have marker : name ∈ (f.split e.columns).2 := mem_markers.mpr ⟨member, omitted⟩
    rw [none] at marker
    cases marker
  · exact ⟨row, rfl, by rw [omitted]; rfl⟩

/-! ### The server's verdict on a row -/

/-- The server accepts a row exactly where it conflicts with no other row it holds. -/
theorem refusal_eq_none :
    f.refusal cs shadow key row = none ↔
      ∀ other row', other ≠ key → shadow[other]? = some row' →
        cs.conflict key row other row' = none := by
  rw [refusal, List.findSome?_eq_none_iff]
  constructor
  · intro all other row' apart held
    have here := all (other, row') (ExtTreeMap.mem_toList_iff_getElem?_eq_some.mpr held)
    simpa [apart] using here
  · rintro all ⟨other, row'⟩ listed
    by_cases same : other = key
    · simp [same]
    · simpa [same] using all other row' same (ExtTreeMap.mem_toList_iff_getElem?_eq_some.mp listed)

/-- A row is refused for another row it conflicts with. -/
theorem refusal_eq_some {kind : ConstraintKind}
    (refused : f.refusal cs shadow key row = some kind) :
    ∃ other row', other ≠ key ∧ shadow[other]? = some row' ∧
      (cs.conflict key row other row').isSome := by
  obtain ⟨⟨other, row'⟩, listed, verdict⟩ := List.exists_of_findSome?_eq_some refused
  by_cases same : other = key
  · simp [same] at verdict
  · refine ⟨other, row', same, ExtTreeMap.mem_toList_iff_getElem?_eq_some.mp listed, ?_⟩
    simp only [same, if_false] at verdict
    rw [verdict]
    rfl

theorem writeRow_ok (wrote : f.writeRow cs shadow key row = .ok after) :
    after = shadow.insert key row ∧ f.refusal cs shadow key row = none := by
  rw [writeRow] at wrote
  split at wrote
  · cases wrote
  next verdict =>
    cases wrote
    exact ⟨rfl, verdict⟩

theorem writeRow_error {err : FlushError} (failed : f.writeRow cs shadow key row = .error err) :
    ∃ kind, err = .refused key kind ∧ f.refusal cs shadow key row = some kind := by
  rw [writeRow] at failed
  split at failed
  next kind verdict =>
    cases failed
    exact ⟨kind, rfl, verdict⟩
  · cases failed

/-! ### One image, column-wise -/

/-- An image written column-wise keeps what its row has in the other columns. -/
theorem writeImage_ok (wrote : f.writeImage cs shadow e = .ok after) :
    ∃ row, after = shadow.insert e.key row ∧ f.refusal cs shadow e.key row = none ∧
      Wrote f shadow[e.key]? e row ∧ Beside f (shadow[e.key]?.getD f.defaults) row := by
  simp only [writeImage] at wrote
  split at wrote
  next none =>
    rw [List.isEmpty_iff] at none
    rw [upsertRow, execRow_split] at wrote
    obtain ⟨rfl, accepted⟩ := writeRow_ok wrote
    exact ⟨_, rfl, accepted, wrote_assign (.inl none), beside_assign _⟩
  next some =>
    rw [updateRow, execRow_split] at wrote
    cases held : shadow[e.key]? with
    | none => simp [held] at wrote
    | some old =>
      rw [held] at wrote
      cases written : f.writeRow cs shadow e.key (f.assign old (f.split e.columns).1) with
      | error err => simp [written, Except.map] at wrote
      | ok next =>
        simp only [written, Except.map, Except.ok.injEq] at wrote
        subst wrote
        obtain ⟨rfl, accepted⟩ := writeRow_ok written
        exact ⟨_, rfl, accepted, wrote_assign (Or.inr rfl), beside_assign _⟩

/-- It fails for a collision, or because it omits a column and no row is there. -/
theorem writeImage_error {err : FlushError} (failed : f.writeImage cs shadow e = .error err) :
    constraintCollision err = true ∨
      (shadow[e.key]? = none ∧ ∃ name ∈ f.columns, valueOf e.columns name = none) := by
  simp only [writeImage] at failed
  split at failed
  next none =>
    rw [upsertRow, execRow_split] at failed
    obtain ⟨kind, rfl, -⟩ := writeRow_error failed
    exact Or.inl rfl
  next some =>
    rw [updateRow, execRow_split] at failed
    cases held : shadow[e.key]? with
    | none =>
      refine Or.inr ⟨rfl, ?_⟩
      rw [List.isEmpty_iff, List.eq_nil_iff_forall_not_mem, not_forall_not] at some
      obtain ⟨name, marker⟩ := some
      exact ⟨name, mem_markers.mp marker⟩
    | some old =>
      rw [held] at failed
      cases written : f.writeRow cs shadow e.key (f.assign old (f.split e.columns).1) with
      | error other =>
        obtain ⟨kind, rfl, -⟩ := writeRow_error written
        simp only [written, Except.map, Except.error.injEq] at failed
        exact Or.inl (failed ▸ rfl)
      | ok next => simp [written, Except.map] at failed

/-! ### What a list of entries leaves in the shadow -/

/-- The shadow after the entries: no row under a delete marker's key, an image's row under its own,
and every other row as it was. -/
structure Flushed (f : Flusher) (before after : Table) (entries : List Entry) : Prop where
  deleted : ∀ e ∈ entries, e.kind = .deleteMarker → after[e.key]? = none
  written : ∀ e ∈ entries, e.kind = .image →
    ∃ row, after[e.key]? = some row ∧ Wrote f before[e.key]? e row
  frame : ∀ key, (∀ e ∈ entries, e.key ≠ key) → after[key]? = before[key]?

/-- No row an image of the entries left stands beside a row it conflicts with. -/
def ConflictFree (cs : Constraints f.columns) (after : Table) (entries : List Entry) : Prop :=
  ∀ e ∈ entries, e.kind = .image → ∀ row other row', other ≠ e.key → after[e.key]? = some row →
    after[other]? = some row' → (cs.conflict e.key row other row').isSome = false

theorem getElem?_foldl_erase :
    (entries.foldl (fun shadow e => shadow.erase e.key) shadow)[key]?
      = if (entries.any fun e => e.key = key) then none else shadow[key]? := by
  induction entries generalizing shadow with
  | nil => rfl
  | cons e entries ih =>
    rw [List.foldl_cons, ih, ExtTreeMap.getElem?_erase]
    by_cases same : e.key = key
    · simp [same, -List.any_eq_true]
    · simp [same, -List.any_eq_true]

theorem foldl_erase_of_mem (member : e ∈ entries) :
    (entries.foldl (fun shadow e => shadow.erase e.key) shadow)[e.key]? = none := by
  rw [getElem?_foldl_erase, if_pos (List.any_eq_true.mpr ⟨e, member, by simp⟩)]

theorem foldl_erase_of_not_mem (outside : ∀ e ∈ entries, e.key ≠ key) :
    (entries.foldl (fun shadow e => shadow.erase e.key) shadow)[key]? = shadow[key]? := by
  rw [getElem?_foldl_erase, if_neg]
  simpa using outside

section Sequential

variable {step : Table → Entry → Except FlushError Table}

/-- Each step of a flush's writes skips a delete marker, or puts such a row under an image's key. -/
def Puts (puts : Table → Entry → Row → Prop) (step : Table → Entry → Except FlushError Table)
    (entries : List Entry) : Prop :=
  ∀ e ∈ entries, ∀ shadow after, step shadow e = .ok after →
    (e.kind = .deleteMarker ∧ after = shadow) ∨
      (e.kind = .image ∧ ∃ row, after = shadow.insert e.key row ∧ puts shadow e row)

/-- The rows put are accepted by the constraints. -/
abbrev Accepts (cs : Constraints f.columns) : (Table → Entry → Except FlushError Table) →
    List Entry → Prop :=
  Puts fun shadow e row => f.refusal cs shadow e.key row = none

theorem Puts.tail {puts : Table → Entry → Row → Prop} (each : Puts puts step (e :: entries)) :
    Puts puts step entries :=
  fun e member => each e (List.mem_cons_of_mem _ member)

/-- Writes leave the rows of other keys alone. -/
theorem foldlM_frame {puts : Table → Entry → Row → Prop} (accepts : Puts puts step entries)
    (wrote : entries.foldlM step shadow = .ok after)
    (outside : ∀ e ∈ entries, e.kind = .image → e.key ≠ key) : after[key]? = shadow[key]? := by
  induction entries generalizing shadow with
  | nil =>
    cases wrote
    rfl
  | cons e entries ih =>
    obtain ⟨next, first, rest⟩ := foldlM_cons_ok.mp wrote
    rw [ih accepts.tail rest fun e member => outside e (List.mem_cons_of_mem _ member)]
    rcases accepts e List.mem_cons_self shadow next first with ⟨-, rfl⟩ | ⟨kind, row, rfl, -⟩
    · rfl
    · rw [ExtTreeMap.getElem?_insert, if_neg]
      simpa using outside e List.mem_cons_self kind

/-- Rows accepted one after another stand together: each was checked against the ones before. -/
theorem foldlM_conflictFree (accepts : Accepts cs step entries)
    (distinct : (entries.map Entry.key).Nodup) (wrote : entries.foldlM step shadow = .ok after) :
    ConflictFree cs after entries := by
  induction entries generalizing shadow with
  | nil => exact fun _ member => (List.not_mem_nil member).elim
  | cons e entries ih =>
    rw [List.map_cons, List.nodup_cons] at distinct
    obtain ⟨next, first, rest⟩ := foldlM_cons_ok.mp wrote
    have frame : ∀ {key : Key}, (∀ e ∈ entries, e.kind = .image → e.key ≠ key) →
        after[key]? = next[key]? := fun outside => foldlM_frame accepts.tail rest outside
    have deeper := ih accepts.tail distinct.2 rest
    have outside : ∀ other ∈ entries, other.key ≠ e.key := fun other member same =>
      distinct.1 (same ▸ List.mem_map_of_mem member)
    intro image member kind row other row' apart here there
    rcases List.mem_cons.mp member with rfl | inside
    · -- a later image is checked against this row; any other row was there when it was checked
      by_cases later : ∃ e' ∈ entries, e'.kind = .image ∧ e'.key = other
      · obtain ⟨e', member', kind', rfl⟩ := later
        rw [cs.symmetric]
        exact deeper e' member' kind' row' image.key row apart.symm there here
      · rcases accepts image List.mem_cons_self shadow next first with
          ⟨deleted, -⟩ | ⟨-, written, rfl, accepted⟩
        · rw [kind] at deleted
          cases deleted
        · rw [frame fun e' member' kind' same => later ⟨e', member', kind', same⟩,
            ExtTreeMap.getElem?_insert, if_neg (by simpa using apart.symm)] at there
          rw [frame fun e' member' _ => outside e' member', ExtTreeMap.getElem?_insert_self,
            Option.some.injEq] at here
          rw [← here, refusal_eq_none.mp accepted other row' apart there]
          rfl
    · exact deeper image inside kind row other row' apart here there

/-- What each image's step puts under its key is there after the last one. -/
theorem foldlM_wrote {P : Option Row → Entry → Row → Prop}
    (each : Puts (fun shadow e row => P shadow[e.key]? e row) step entries)
    (distinct : (entries.map Entry.key).Nodup) (wrote : entries.foldlM step shadow = .ok after)
    (member : e ∈ entries) (kind : e.kind = .image) :
    ∃ row, after[e.key]? = some row ∧ P shadow[e.key]? e row := by
  induction entries generalizing shadow with
  | nil => cases member
  | cons head entries ih =>
    rw [List.map_cons, List.nodup_cons] at distinct
    have others : ∀ e ∈ entries, e.key ≠ head.key := fun e inside same =>
      distinct.1 (same ▸ List.mem_map_of_mem inside)
    obtain ⟨next, first, rest⟩ := foldlM_cons_ok.mp wrote
    rcases List.mem_cons.mp member with rfl | inside
    · rcases each e List.mem_cons_self shadow next first with ⟨deleted, -⟩ | ⟨-, row, rfl, written⟩
      · rw [kind] at deleted
        cases deleted
      · refine ⟨row, ?_, written⟩
        rw [foldlM_frame each.tail rest fun e inside _ => others e inside,
          ExtTreeMap.getElem?_insert_self]
    · obtain ⟨row, here, written⟩ := ih each.tail distinct.2 rest inside
      refine ⟨row, here, ?_⟩
      rcases each head List.mem_cons_self shadow next first with ⟨-, rfl⟩ | ⟨-, other, rfl, -⟩
      · exact written
      · rwa [ExtTreeMap.getElem?_insert, if_neg (by simpa using (others e inside).symm)] at written

end Sequential

/-! ### The column-wise pass -/

theorem writeImage_accepts (images : ∀ e ∈ entries, e.kind = .image) :
    Accepts cs (f.writeImage cs) entries := by
  intro e member shadow after wrote
  obtain ⟨row, rfl, accepted, -⟩ := writeImage_ok wrote
  exact Or.inr ⟨images e member, row, rfl, accepted⟩

/-- Each image written column by column has its row written, the columns beside it kept. -/
theorem foldlM_writeImage_wrote (images : ∀ e ∈ entries, e.kind = .image)
    (distinct : (entries.map Entry.key).Nodup)
    (wrote : entries.foldlM (f.writeImage cs) shadow = .ok after) (member : e ∈ entries) :
    ∃ row, after[e.key]? = some row ∧ Wrote f shadow[e.key]? e row ∧
      Beside f (shadow[e.key]?.getD f.defaults) row := by
  refine foldlM_wrote (P := fun before e row =>
    Wrote f before e row ∧ Beside f (before.getD f.defaults) row) ?_ distinct wrote member
    (images e member)
  intro e inside shadow after written
  obtain ⟨row, rfl, -, wrote⟩ := writeImage_ok written
  exact Or.inr ⟨images e inside, row, rfl, wrote⟩

/-- The writes of the images fail for a collision, or for one that omits a column and found no
row. -/
theorem foldlM_writeImage_error {err : FlushError} (images : ∀ e ∈ entries, e.kind = .image)
    (distinct : (entries.map Entry.key).Nodup)
    (failed : entries.foldlM (f.writeImage cs) shadow = .error err) :
    constraintCollision err = true ∨ ∃ e ∈ entries, shadow[e.key]? = none ∧
      ∃ name ∈ f.columns, valueOf e.columns name = none := by
  induction entries generalizing shadow with
  | nil => cases failed
  | cons head entries ih =>
    rw [List.map_cons, List.nodup_cons] at distinct
    rcases foldlM_cons_error.mp failed with here | ⟨next, first, rest⟩
    · rcases writeImage_error here with collision | absent
      · exact Or.inl collision
      · exact Or.inr ⟨head, List.mem_cons_self, absent⟩
    · obtain ⟨row, rfl, -⟩ := writeImage_ok first
      rcases ih (fun e inside => images e (List.mem_cons_of_mem _ inside)) distinct.2 rest with
        collision | ⟨e, inside, absent, marker⟩
      · exact Or.inl collision
      · refine Or.inr ⟨e, List.mem_cons_of_mem _ inside, ?_, marker⟩
        rwa [ExtTreeMap.getElem?_insert, if_neg] at absent
        have other : head.key ≠ e.key := fun same =>
          distinct.1 (same ▸ List.mem_map_of_mem inside)
        simpa using other

theorem mem_images :
    e ∈ entries.filter (fun e => e.kind = .image) ↔ e ∈ entries ∧ e.kind = .image := by
  simp

/-- Entries of different kinds have different keys. -/
theorem key_ne {e' : Entry} (distinct : (entries.map Entry.key).Nodup) (member : e ∈ entries)
    (member' : e' ∈ entries) (different : e.kind ≠ e'.kind) : e.key ≠ e'.key := fun same =>
  different (congrArg Entry.kind (List.inj_on_of_nodup_map distinct member member' same))

variable {done : Result}

/-- The column-wise pass leaves what its entries say, and keeps the other columns of a row. -/
theorem applyColumnWise_flushed {result : Result} (distinct : (entries.map Entry.key).Nodup)
    (applied : f.applyColumnWise cs shadow entries result = .ok (after, done)) :
    (Flushed f shadow after entries ∧ ConflictFree cs after entries ∧ done.held = result.held) ∧
      ∀ e ∈ entries, e.kind = .image → ∀ row, after[e.key]? = some row →
        Beside f (shadow[e.key]?.getD f.defaults) row := by
  obtain ⟨final, wrote, same⟩ := map_ok.mp applied
  rw [Prod.mk.injEq] at same
  obtain ⟨rfl, rfl⟩ := same
  have images : ∀ e ∈ entries.filter fun e => e.kind = .image, e.kind = .image :=
    fun e inside => (mem_images.mp inside).2
  have split : ((entries.filter fun e => e.kind = .image).map Entry.key).Nodup :=
    (List.filter_sublist.map _).nodup distinct
  have frame {k : Key} (outside : ∀ e ∈ entries.filter fun e => e.kind = .image,
      e.kind = .image → e.key ≠ k) := foldlM_frame (writeImage_accepts images) wrote outside
  -- the deletes touch no image's key
  have kept : ∀ key, (∀ e ∈ entries, e.kind = .deleteMarker → e.key ≠ key) →
      ((entries.filter fun e => e.kind = .deleteMarker).foldl
        (fun shadow e => shadow.erase e.key) shadow)[key]? = shadow[key]? := by
    intro key outside
    refine foldl_erase_of_not_mem fun e inside => ?_
    rw [List.mem_filter, decide_eq_true_eq] at inside
    exact outside e inside.1 inside.2
  have leaves : ∀ e ∈ entries, e.kind = .image → ∃ row, final[e.key]? = some row ∧
      Wrote f shadow[e.key]? e row ∧ Beside f (shadow[e.key]?.getD f.defaults) row := by
    intro e member kind
    have own := foldlM_writeImage_wrote images split wrote (mem_images.mpr ⟨member, kind⟩)
    rwa [kept] at own
    intro other inside marker
    exact key_ne distinct inside member (by rw [marker, kind]; simp)
  refine ⟨⟨⟨fun e member kind => ?_, fun e member kind => ?_, fun key outside => ?_⟩, ?_, rfl⟩,
    fun e member kind row here => ?_⟩
  · rw [frame]
    · exact foldl_erase_of_mem (List.mem_filter.mpr ⟨member, by simpa using kind⟩)
    · intro other inside image
      exact key_ne distinct (List.mem_filter.mp inside).1 member (by rw [image, kind]; simp)
  · obtain ⟨row, here, written, -⟩ := leaves e member kind
    exact ⟨row, here, written⟩
  · rw [frame fun e inside _ => outside e (List.mem_filter.mp inside).1,
      kept key fun e inside _ => outside e inside]
  · intro e member kind
    exact foldlM_conflictFree (writeImage_accepts images) split wrote e
      (mem_images.mpr ⟨member, kind⟩) kind
  · obtain ⟨row', there, -, beside⟩ := leaves e member kind
    exact Option.some.inj (there.symm.trans here) ▸ beside

/-- Column-wise writes fail by a collision, or at an incomplete image without a shadow row. -/
theorem applyColumnWise_error {result : Result} {err : FlushError}
    (distinct : (entries.map Entry.key).Nodup)
    (failed : f.applyColumnWise cs shadow entries result = .error err) :
    constraintCollision err = true ∨ ∃ e ∈ entries, e.kind = .image ∧ shadow[e.key]? = none ∧
      ∃ name ∈ f.columns, valueOf e.columns name = none := by
  have images : ∀ e ∈ entries.filter fun e => e.kind = .image, e.kind = .image :=
    fun e inside => (mem_images.mp inside).2
  rcases foldlM_writeImage_error images ((List.filter_sublist.map _).nodup distinct)
      (map_error.mp failed) with collision | ⟨e, inside, absent, marker⟩
  · exact Or.inl collision
  · refine Or.inr ⟨e, (List.mem_filter.mp inside).1, images e inside, ?_, marker⟩
    rwa [foldl_erase_of_not_mem] at absent
    intro other inside'
    rw [List.mem_filter, decide_eq_true_eq] at inside'
    exact key_ne distinct inside'.1 (List.mem_filter.mp inside).1
      (by rw [inside'.2, images e inside]; simp)

/-! ### The whole-row pass -/

/-- What completing an image leaves of it: its own value in every column it carried, and in every
copied column it did not, the shadow row's. -/
structure Completes (f : Flusher) (old : Option Row) (e whole : Entry) : Prop where
  key : whole.key = e.key
  kind : whole.kind = e.kind
  carried : ∀ name v, name ∈ f.columns → valueOf e.columns name = some v →
    valueOf whole.columns name = some v
  omitted : ∀ name v, name ∈ f.columns → valueOf e.columns name = none →
    valueOf whole.columns name = some v → ∃ row, old = some row ∧ v = .shadowForm (row name)
  /-- A copied column is left without a value only where the image named no marker. -/
  whole : e.kind = .image → ∀ name ∈ f.columns, valueOf whole.columns name = none →
    hasMarker e.columns = false ∧ valueOf e.columns name = none

theorem valueOf_inShadowForm_completed (markers : List Name) (row : Row) :
    valueOf (inShadowForm (markers.map fun name => Column.presentColumn name (.text (row name))))
      name
      = if name ∈ markers then some (.shadowForm (row name)) else none := by
  induction markers with
  | nil => rfl
  | cons head markers ih =>
    rw [List.map_cons, inShadowForm, List.map_cons, ← inShadowForm, valueOf_cons, ih]
    by_cases same : head = name
    · simp [Column.presentColumn, same]
    · simp [Column.presentColumn, same, Ne.symm same]

/-- A refused flush changes no more of an entry than its columns' values. -/
theorem entryLeft_eq (reads : Reads) :
    f.entryLeft reads e = { e with columns := (f.entryLeft reads e).columns } ∧
      names (f.entryLeft reads e).columns = names e.columns := by
  rw [entryLeft]
  split
  · exact ⟨rfl, rfl⟩
  · rw [completeShared]
    split
    · split
      · exact ⟨rfl, rfl⟩
      · exact ⟨rfl, names_overlayShared⟩
    · exact ⟨rfl, rfl⟩

theorem entryLeft_key (reads : Reads) : (f.entryLeft reads e).key = e.key := by
  rw [(f.entryLeft_eq reads).1]

/-- **A refused flush leaves a marker with the value of the shadow row under the image's key**,
where it changes the image at all: one that is not moved. -/
theorem valueOf_entryLeft (reads : Reads) :
    (∀ v, valueOf (f.entryLeft reads e).columns name = some v → valueOf e.columns name = some v ∨
      (e.kind = .image ∧ named e = false ∧ name ∈ f.columns ∧ valueOf e.columns name = none ∧
        ∃ row, reads.shadow[e.key]? = some row ∧ v = .shadowForm (row name))) ∧
      (valueOf (f.entryLeft reads e).columns name = none → valueOf e.columns name = none) := by
  rw [entryLeft]
  split
  next => exact ⟨fun v found => Or.inl found, id⟩
  next written =>
    rw [completeShared]
    split
    next marked =>
      cases held : reads.shadow[e.key]? with
      | none => exact ⟨fun v found => Or.inl found, id⟩
      | some row =>
        rw [completeFrom, Option.map_some]
        refine ⟨fun v found => ?_, valueOf_overlayShared.2⟩
        rcases valueOf_overlayShared.1 v found with before | ⟨c, member, rfl, value⟩
        · exact Or.inl before
        · rw [inShadowForm, List.map_map, List.mem_map] at member
          obtain ⟨marker, listed, rfl⟩ := member
          obtain ⟨copied, omitted⟩ := mem_markers.mp listed
          rw [Bool.and_eq_true, decide_eq_true_eq] at marked
          refine Or.inr ⟨marked.1, ?_, copied, omitted, row, rfl, (Option.some.inj value).symm⟩
          exact (Bool.or_eq_false_iff.mp (Bool.eq_false_iff.mpr written)).1
    next => exact ⟨fun v found => Or.inl found, id⟩

/-- A completed image has the values it carried and the shadow row's in what it omitted. -/
theorem completeWhole_ok {whole : Entry} (completed : f.completeWhole shadow e = .ok whole) :
    Completes f shadow[e.key]? e whole := by
  rw [completeWhole] at completed
  split at completed
  next marked =>
    cases held : shadow[e.key]? with
    | none => simp [held, completeFrom] at completed
    | some row =>
      simp only [held, completeFrom, Option.map_some, Except.ok.injEq] at completed
      subst completed
      have distinct : (names (inShadowForm ((f.split e.columns).2.map fun name =>
          Column.presentColumn name (.text (row name))))).Nodup := by
        rw [names_inShadowForm, names, List.map_map]
        simpa [split, Function.comp_def, Column.presentColumn] using f.distinct.filter _
      refine ⟨rfl, rfl, fun name v member carried => ?_, fun name v member omitted found => ?_,
        fun _ name member absent => ?_⟩
      · have kept : name ∉ (f.split e.columns).2 := fun marker => by
          rw [(mem_markers.mp marker).2] at carried
          cases carried
        rw [valueOf_overlay distinct, valueOf_inShadowForm_completed, if_neg kept, carried]
        rfl
      · rw [valueOf_overlay distinct, valueOf_inShadowForm_completed,
          if_pos (mem_markers.mpr ⟨member, omitted⟩), Option.some_or, Option.some.injEq] at found
        exact ⟨row, rfl, found.symm⟩
      · rw [valueOf_overlay distinct, valueOf_inShadowForm_completed] at absent
        split at absent
        · cases absent
        next carried =>
          rw [Option.none_or] at absent
          exact absurd (mem_markers.mpr ⟨member, absent⟩) carried
  next plain =>
    cases completed
    refine ⟨rfl, rfl, fun _ _ _ carried => carried, fun name v _ omitted found => ?_,
      fun image name _ absent => ⟨?_, absent⟩⟩
    · rw [omitted] at found
      cases found
    · rw [image] at plain
      simpa using plain

/-- An image inserted whole takes the defaults in the other columns. -/
theorem insertWhole_ok {whole : Entry} (inserted : f.insertWhole cs shadow whole = .ok after) :
    (whole.kind = .deleteMarker ∧ after = shadow) ∨
      (whole.kind = .image ∧ ∃ row, after = shadow.insert whole.key row ∧
        f.refusal cs shadow whole.key row = none ∧
        (∀ name ∈ f.columns, ∃ v, valueOf whole.columns name = some v ∧
          row name = f.written name v) ∧ Beside f f.defaults row) := by
  rw [insertWhole] at inserted
  cases kind : whole.kind with
  | deleteMarker =>
    simp only [kind, Except.ok.injEq] at inserted
    exact Or.inl ⟨rfl, inserted.symm⟩
  | image =>
    simp only [kind] at inserted
    split at inserted
    next none =>
      rw [List.isEmpty_iff] at none
      rw [insertRow, execRow_split] at inserted
      split at inserted
      · cases inserted
      · obtain ⟨rfl, accepted⟩ := writeRow_ok inserted
        refine Or.inr ⟨rfl, _, rfl, accepted, fun name member => ?_, beside_assign _⟩
        cases value : valueOf whole.columns name with
        | some v => exact ⟨v, rfl, by rw [assign_split f.defaults member, value]; rfl⟩
        | none =>
          have marker := mem_markers.mpr ⟨member, value⟩
          rw [none] at marker
          cases marker
    · cases inserted

variable {whole : List Entry}

theorem insertWhole_accepts : Accepts cs (f.insertWhole cs) whole := by
  intro e _ shadow after inserted
  rcases insertWhole_ok inserted with skipped | ⟨kind, row, rfl, accepted, -⟩
  · exact Or.inl skipped
  · exact Or.inr ⟨kind, row, rfl, accepted⟩

@[simp]
theorem written_shadowForm (text : Text) : f.written name (.shadowForm text) = text := by
  cases conversion : f.conversions name <;> simp [written, conversion, bound]

/-- A completed image written whole leaves the row the image leaves. -/
theorem Completes.wrote {whole : Entry} (completes : Completes f old e whole)
    (inserted : ∀ name ∈ f.columns, ∃ v, valueOf whole.columns name = some v ∧
      row name = f.written name v) : Wrote f old e row := by
  intro name member
  obtain ⟨v, value, same⟩ := inserted name member
  refine ⟨fun u carried => ?_, fun omitted => ?_⟩
  · rw [completes.carried name u member carried, Option.some.injEq] at value
    rw [same, value]
  · obtain ⟨row', held, rfl⟩ := completes.omitted name v member omitted value
    refine ⟨row', held, ?_⟩
    rw [same, written_shadowForm]

theorem forall₂_keys
    (completes : List.Forall₂ (fun e w => Completes f shadow[e.key]? e w) entries whole) :
    whole.map Entry.key = entries.map Entry.key := by
  induction completes with
  | nil => rfl
  | cons first _ ih => rw [List.map_cons, List.map_cons, first.key, ih]

/-- Each image written whole has its completed row written. -/
theorem foldlM_insertWhole_wrote {start : Table}
    (completes : List.Forall₂ (fun e w => Completes f shadow[e.key]? e w) entries whole)
    (distinct : (entries.map Entry.key).Nodup)
    (wrote : whole.foldlM (f.insertWhole cs) start = .ok after) (member : e ∈ entries)
    (kind : e.kind = .image) :
    ∃ row, after[e.key]? = some row ∧ Wrote f shadow[e.key]? e row ∧
      Beside f f.defaults row := by
  obtain ⟨w, inside, completed⟩ := forall₂_exists completes member
  rw [← forall₂_keys completes] at distinct
  obtain ⟨row, here, values, beside⟩ := foldlM_wrote (P := fun _ w row =>
      (∀ name ∈ f.columns, ∃ v, valueOf w.columns name = some v ∧ row name = f.written name v) ∧
        Beside f f.defaults row)
    (fun w _ shadow after inserted => (insertWhole_ok inserted).imp_right fun put =>
      ⟨put.1, put.2.imp fun row held => ⟨held.1, held.2.2⟩⟩)
    distinct wrote inside (completed.kind ▸ kind)
  exact ⟨row, completed.key ▸ here, completed.wrote values, beside⟩

/-- The whole-row pass leaves what its entries say, and the defaults in the other columns. -/
theorem applyWholeRows_flushed {result : Result} (distinct : (entries.map Entry.key).Nodup)
    (applied : f.applyWholeRows cs shadow entries result = .ok (after, done)) :
    (Flushed f shadow after entries ∧ ConflictFree cs after entries ∧ done.held = result.held) ∧
      ∀ e ∈ entries, e.kind = .image → ∀ row, after[e.key]? = some row →
        Beside f f.defaults row := by
  rw [applyWholeRows] at applied
  cases mapped : entries.mapM (f.completeWhole shadow) with
  | error err => simp [mapped] at applied
  | ok whole =>
    simp only [mapped] at applied
    obtain ⟨final, wrote, same⟩ := map_ok.mp applied
    rw [Prod.mk.injEq] at same
    obtain ⟨rfl, rfl⟩ := same
    have completes : List.Forall₂ (fun e w => Completes f shadow[e.key]? e w) entries whole :=
      (mapM_ok mapped).imp fun _ _ => completeWhole_ok
    have keys := forall₂_keys completes
    have frame : ∀ key, (∀ e ∈ entries, e.kind = .image → e.key ≠ key) →
        final[key]? = (entries.foldl (fun shadow e => shadow.erase e.key) shadow)[key]? := by
      intro key outside
      refine foldlM_frame insertWhole_accepts wrote fun w inside image same => ?_
      obtain ⟨e, member, completed⟩ := forall₂_exists completes.flip inside
      exact outside e member (completed.kind ▸ image) (completed.key ▸ same)
    have leaves := fun e member kind =>
      foldlM_insertWhole_wrote (e := e) completes distinct wrote member kind
    refine ⟨⟨⟨fun e member kind => ?_, fun e member kind => ?_, fun key outside => ?_⟩, ?_, rfl⟩,
      fun e member kind row here => ?_⟩
    · rw [frame, foldl_erase_of_mem member]
      intro other inside image
      exact key_ne distinct inside member (by rw [image, kind]; simp)
    · obtain ⟨row, here, written, -⟩ := leaves e member kind
      exact ⟨row, here, written⟩
    · rw [frame key fun e inside _ => outside e inside, foldl_erase_of_not_mem outside]
    · intro e member kind row other row' apart here there
      obtain ⟨w, inside, completed⟩ := forall₂_exists completes member
      rw [← completed.key] at apart here ⊢
      exact foldlM_conflictFree insertWhole_accepts (keys ▸ distinct) wrote w inside
        (completed.kind ▸ kind) row other row' apart here there
    · obtain ⟨row', there, -, beside⟩ := leaves e member kind
      exact Option.some.inj (there.symm.trans here) ▸ beside

/-- An image cannot be completed where it carries a marker and has no shadow row. -/
theorem completeWhole_error {err : FlushError} (failed : f.completeWhole shadow e = .error err) :
    (∃ v, err = .violation v) ∧ e.kind = .image ∧ hasMarker e.columns = true ∧
      shadow[e.key]? = none := by
  rw [completeWhole] at failed
  split at failed
  next marked =>
    rw [Bool.and_eq_true, decide_eq_true_eq] at marked
    cases held : shadow[e.key]? with
    | none =>
      simp only [held, completeFrom, Option.map_none, Except.error.injEq] at failed
      exact ⟨⟨_, failed.symm⟩, marked.1, marked.2, rfl⟩
    | some row => simp [held, completeFrom] at failed
  · cases failed

/-- An insert of a completed image fails because the key is taken, because another row conflicts
with it, or because a copied column has no value. -/
theorem insertWhole_error {err : FlushError} (failed : f.insertWhole cs shadow e = .error err) :
    e.kind = .image ∧
      ((constraintCollision err = true ∧
          (shadow[e.key]?.isSome ∨ ∃ row other row',
            (∀ name ∈ f.columns, ∃ v, valueOf e.columns name = some v ∧
              row name = f.written name v) ∧
            other ≠ e.key ∧ shadow[other]? = some row' ∧
            (cs.conflict e.key row other row').isSome)) ∨
        ((∃ v, err = .violation v) ∧ ∃ name ∈ f.columns, valueOf e.columns name = none)) := by
  rw [insertWhole] at failed
  cases kind : e.kind with
  | deleteMarker => simp [kind] at failed
  | image =>
    refine ⟨rfl, ?_⟩
    simp only [kind] at failed
    split at failed
    next none =>
      rw [List.isEmpty_iff] at none
      rw [insertRow, execRow_split] at failed
      split at failed
      next taken =>
        cases failed
        rw [ExtTreeMap.contains_eq_isSome_getElem?] at taken
        exact Or.inl ⟨rfl, Or.inl taken⟩
      next =>
        obtain ⟨kind, rfl, refused⟩ := writeRow_error failed
        obtain ⟨other, row', apart, held, conflict⟩ := refusal_eq_some refused
        refine Or.inl ⟨rfl, Or.inr ⟨_, other, row', fun name member => ?_, apart, held, conflict⟩⟩
        cases value : valueOf e.columns name with
        | some v => exact ⟨v, rfl, by rw [assign_split f.defaults member, value]; rfl⟩
        | none =>
          have marker := mem_markers.mpr ⟨member, value⟩
          rw [none] at marker
          cases marker
    next some =>
      cases failed
      rw [List.isEmpty_iff, List.eq_nil_iff_forall_not_mem, not_forall_not] at some
      obtain ⟨name, marker⟩ := some
      exact Or.inr ⟨⟨_, rfl⟩, name, mem_markers.mp marker⟩

/-- A row an image of the entries left stands beside a row it conflicts with. -/
def Collides (cs : Constraints f.columns) (after : Table) (entries : List Entry) : Prop :=
  ∃ e ∈ entries, e.kind = .image ∧ ∃ row other row', other ≠ e.key ∧ after[e.key]? = some row ∧
    after[other]? = some row' ∧ (cs.conflict e.key row other row').isSome = true

/-- The inserts of the whole-row pass, started where the rows present are rows the batch is to
leave: a refused insert is a conflict in what the batch leaves. -/
theorem foldlM_insertWhole_error {start final : Table} {err : FlushError}
    (completes : List.Forall₂ (fun e w => Completes f shadow[e.key]? e w) entries whole)
    (distinct : (entries.map Entry.key).Nodup) (leaves : ∀ e ∈ entries, e.kind = .image →
      ∃ row, final[e.key]? = some row ∧ Wrote f shadow[e.key]? e row)
    (present : ∀ (key : Key) (row : Row), start[key]? = some row →
      ∃ row', final[key]? = some row' ∧ AgreeOn f.columns row row')
    (free : ∀ e ∈ entries, start[e.key]? = none)
    (failed : whole.foldlM (f.insertWhole cs) start = .error err) :
    (constraintCollision err = true ∧ Collides cs final entries) ∨
      ((∃ v, err = .violation v) ∧ ∃ e ∈ entries, e.kind = .image ∧
        hasMarker e.columns = false ∧ ∃ name ∈ f.columns, valueOf e.columns name = none) := by
  induction completes generalizing start with
  | nil => cases failed
  | @cons head w entries whole first rest ih =>
    rw [List.map_cons, List.nodup_cons] at distinct
    rcases foldlM_cons_error.mp failed with here | ⟨next, inserted, later⟩
    · obtain ⟨kind, why⟩ := insertWhole_error here
      have image : head.kind = .image := first.kind ▸ kind
      rcases why with ⟨collision, taken | ⟨row, other, row', values, apart, held, conflict⟩⟩ |
        ⟨violation, name, member, marker⟩
      · rw [first.key, free head List.mem_cons_self] at taken
        cases taken
      · obtain ⟨left, there, wrote⟩ := leaves head List.mem_cons_self image
        obtain ⟨beside, held', agree'⟩ := present other row' held
        refine Or.inl ⟨collision, head, List.mem_cons_self, image, left, other, beside,
          first.key ▸ apart, there, held', ?_⟩
        rw [← conflict, first.key]
        exact (cs.conflict_congr ((first.wrote values).agree wrote) agree').symm
      · obtain ⟨unmarked, omitted⟩ := first.whole image name member marker
        exact Or.inr ⟨violation, head, List.mem_cons_self, image, unmarked, name, member, omitted⟩
    · have outside : ∀ e ∈ entries, e.key ≠ head.key := fun e member same =>
        distinct.1 (same ▸ List.mem_map_of_mem member)
      have next_free : ∀ e ∈ entries, next[e.key]? = none := by
        intro e member
        rcases insertWhole_ok inserted with ⟨-, rfl⟩ | ⟨-, row, rfl, -⟩
        · exact free e (List.mem_cons_of_mem _ member)
        · rw [ExtTreeMap.getElem?_insert, if_neg]
          · exact free e (List.mem_cons_of_mem _ member)
          · rw [first.key]
            simpa using (outside e member).symm
      have next_present : ∀ (key : Key) (row : Row), next[key]? = some row →
          ∃ row', final[key]? = some row' ∧ AgreeOn f.columns row row' := by
        intro key row held
        rcases insertWhole_ok inserted with ⟨-, rfl⟩ | ⟨kind, row', rfl, -, values, -⟩
        · exact present key row held
        · rw [ExtTreeMap.getElem?_insert] at held
          split at held
          next same =>
            rw [Option.some.injEq] at held
            obtain ⟨left, there, wrote⟩ :=
              leaves head List.mem_cons_self (first.kind ▸ kind)
            have here : w.key = key := by simpa using same
            rw [first.key] at here
            exact ⟨left, here ▸ there, held ▸ (first.wrote values).agree wrote⟩
          next => exact present key row held
      rcases ih distinct.2 (fun e member => leaves e (List.mem_cons_of_mem _ member))
          next_present next_free later with
        ⟨collision, e, member, rest⟩ | ⟨violation, e, member, rest⟩
      · exact Or.inl ⟨collision, e, List.mem_cons_of_mem _ member, rest⟩
      · exact Or.inr ⟨violation, e, List.mem_cons_of_mem _ member, rest⟩

/-! ### Both passes -/

/-- What one entry leaves, over the shadow as it was before the flush. -/
def leaveOne (f : Flusher) (shadow : Table) (after : Table) (e : Entry) : Table :=
  match e.kind with
  | .deleteMarker => after.erase e.key
  | .image =>
    after.insert e.key (f.assign (shadow[e.key]?.getD f.defaults) (f.split e.columns).1)

/-- What the entries leave of the shadow when no constraint stands in the way. -/
def leave (f : Flusher) (shadow : Table) (entries : List Entry) : Table :=
  entries.foldl (f.leaveOne shadow) shadow

/-- Every image of the entries that omits a copied column finds a shadow row to keep it from. -/
def RowsFound (f : Flusher) (shadow : Table) (entries : List Entry) : Prop :=
  ∀ e ∈ entries, e.kind = .image → ∀ name ∈ f.columns, valueOf e.columns name = none →
    shadow[e.key]? ≠ none

theorem rows_leaveOne_of_ne (after : Table) (e : Entry) (key : Key) (apart : e.key ≠ key) :
    rows (f.leaveOne shadow after e) key = rows after key := by
  rw [leaveOne]
  cases e.kind <;> simp [rows, ExtTreeMap.getElem?_insert, ExtTreeMap.getElem?_erase, apart]

theorem foldl_leaveOne_frame (outside : ∀ e ∈ entries, e.key ≠ key) :
    (entries.foldl (f.leaveOne shadow) after)[key]? = after[key]? :=
  foldl_frame rows_leaveOne_of_ne outside after

theorem foldl_leaveOne_of_mem (distinct : (entries.map Entry.key).Nodup) (member : e ∈ entries) :
    (entries.foldl (f.leaveOne shadow) after)[e.key]? = (f.leaveOne shadow ∅ e)[e.key]? := by
  refine foldl_own rows_leaveOne_of_ne (fun e _ => rows (f.leaveOne shadow ∅ e) e.key) ?_ distinct
    member after
  intro after e
  rw [leaveOne, leaveOne]
  cases e.kind <;> simp [rows]

/-- What the entries leave is what a flush of them leaves. -/
theorem leave_flushed (distinct : (entries.map Entry.key).Nodup)
    (found : RowsFound f shadow entries) : Flushed f shadow (f.leave shadow entries) entries := by
  refine ⟨fun e member kind => ?_, fun e member kind => ?_, fun key outside => ?_⟩
  · rw [leave, foldl_leaveOne_of_mem distinct member]
    simp [leaveOne, kind]
  · refine ⟨f.assign (shadow[e.key]?.getD f.defaults) (f.split e.columns).1, ?_, ?_⟩
    · rw [leave, foldl_leaveOne_of_mem distinct member]
      simp [leaveOne, kind]
    · cases held : shadow[e.key]? with
      | some old => exact wrote_assign (Or.inr rfl)
      | none =>
        refine wrote_assign (.inl (List.eq_nil_iff_forall_not_mem.mpr fun name marker => ?_))
        obtain ⟨copied, omitted⟩ := mem_markers.mp marker
        exact found e member kind name copied omitted held
  · exact foldl_leaveOne_frame outside

/-- **A flush that commits leaves what its entries say, and no conflict on a row it wrote.** -/
theorem applyEntries_flushed {result : Result} (distinct : (entries.map Entry.key).Nodup)
    (applied : f.applyEntries cs shadow entries result = .ok (after, done)) :
    Flushed f shadow after entries ∧ ConflictFree cs after entries ∧ done.held = result.held := by
  rw [applyEntries] at applied
  cases first : f.applyColumnWise cs shadow entries result with
  | ok outcome =>
    simp only [first, Except.ok.injEq] at applied
    exact (applyColumnWise_flushed distinct (applied ▸ first)).1
  | error err =>
    simp only [first] at applied
    split at applied
    · cases applied
    · split at applied
      · cases applied
      next =>
        have whole : f.applyWholeRows cs shadow entries { result with fallback := true }
            = .ok (after, done) := applied
        exact (applyWholeRows_flushed distinct whole).1

/-- An image with nothing to complete it: it carries a marker over the relation's columns and has no
shadow row, or it carries none and still omits a copied column. -/
def Incompletable (f : Flusher) (shadow : Table) (entries : List Entry) : Prop :=
  ∃ e ∈ entries, e.kind = .image ∧ ((hasMarker e.columns = true ∧ shadow[e.key]? = none) ∨
    (hasMarker e.columns = false ∧ ∃ name ∈ f.columns, valueOf e.columns name = none))

section Fails

variable {result : Result} {err : FlushError} (distinct : (entries.map Entry.key).Nodup)
  (found : RowsFound f shadow entries)

include distinct found

/-- The whole-row pass fails because its rows would conflict, or for an image nothing completes. -/
theorem applyWholeRows_error (failed : f.applyWholeRows cs shadow entries result = .error err) :
    (constraintCollision err = true ∧ Collides cs (f.leave shadow entries) entries) ∨
      ((∃ v, err = .violation v) ∧ Incompletable f shadow entries) := by
  have flushed := leave_flushed distinct found
  rw [applyWholeRows] at failed
  cases mapped : entries.mapM (f.completeWhole shadow) with
  | error other =>
    simp only [mapped, Except.error.injEq] at failed
    subst failed
    obtain ⟨e, member, here⟩ := mapM_error mapped
    obtain ⟨violation, kind, marked, absent⟩ := completeWhole_error here
    exact Or.inr ⟨violation, e, member, kind, Or.inl ⟨marked, absent⟩⟩
  | ok whole =>
    simp only [mapped] at failed
    have completes : List.Forall₂ (fun e w => Completes f shadow[e.key]? e w) entries whole :=
      (mapM_ok mapped).imp fun _ _ => completeWhole_ok
    have present : ∀ (key : Key) (row : Row),
        (entries.foldl (fun shadow e => shadow.erase e.key) shadow)[key]? = some row →
        ∃ row', (f.leave shadow entries)[key]? = some row' ∧ AgreeOn f.columns row row' := by
      intro key row held
      rw [getElem?_foldl_erase] at held
      split at held
      · cases held
      next outside =>
        refine ⟨row, ?_, fun _ _ => rfl⟩
        rw [flushed.frame key (by simpa using outside), held]
    rcases foldlM_insertWhole_error completes distinct flushed.written present
        (fun e member => foldl_erase_of_mem member) (map_error.mp failed) with
      collision | ⟨violation, e, member, kind, rest⟩
    · exact Or.inl collision
    · exact Or.inr ⟨violation, e, member, kind, Or.inr rest⟩

/-- A constraint refuses the column-wise writes, which sends the entries to the fallback. -/
def FallsBack (f : Flusher) (cs : Constraints f.columns) (shadow : Table) (entries : List Entry) :
    Prop :=
  ∃ result err, f.applyColumnWise cs shadow entries result = .error err ∧
    constraintCollision err = true

/-- **A flush that fails has fallen back.** It is deferred, and its rows would conflict, or it is
refused for an image nothing completes. -/
theorem applyEntries_error (failed : f.applyEntries cs shadow entries result = .error err) :
    FallsBack f cs shadow entries ∧
      ((∃ k kind, err = .batchDeferred k kind ∧ Collides cs (f.leave shadow entries) entries) ∨
        ∃ v, err = .violation v ∧ Incompletable f shadow entries) := by
  rw [applyEntries] at failed
  cases first : f.applyColumnWise cs shadow entries result with
  | ok outcome => simp [first] at failed
  | error other =>
    -- every image that omits a column finds its row, so only a collision stops the first pass
    have collision : constraintCollision other = true := by
      rcases applyColumnWise_error distinct first with
        collision | ⟨e, member, image, absent, name, copied, omitted⟩
      · exact collision
      · exact absurd absent (found e member image name copied omitted)
    refine ⟨⟨result, other, first, collision⟩, ?_⟩
    simp only [first, collision, Bool.not_true, Bool.false_eq_true, if_false] at failed
    split at failed
    next k kind refused =>
      cases failed
      rcases applyWholeRows_error distinct found refused with ⟨-, collides⟩ | ⟨⟨v, other⟩, -⟩
      · exact Or.inl ⟨k, kind, rfl, collides⟩
      · cases other
    next unrefused =>
      rcases applyWholeRows_error distinct found failed with ⟨collision, -⟩ | ⟨⟨v, rfl⟩, why⟩
      · cases err with
        | refused k kind => exact absurd failed (unrefused k kind)
        | violation v => cases collision
        | batchDeferred k kind => cases collision
      · exact Or.inr ⟨v, rfl, why⟩

end Fails

/-! ### The whole flush -/

section Batch

variable {reads : Reads} {batch : Batch} {h : HeldImage} {w : Entry}

/-- The entries of the batch a flush writes. -/
def toWrite (f : Flusher) (reads : Reads) (batch : Batch) : List Entry :=
  (f.completeMoved reads batch).1.filter fun e => !f.absent reads e

/-- An unmoved image held because its shadow row is absent. -/
def awaiting (reads : Reads) (e : Entry) : HeldImage :=
  { entry := { e with absenceAwaited := true }, readLSN := reads.readLSN }

/-- The images of the batch a flush holds. -/
def toHold (f : Flusher) (reads : Reads) (batch : Batch) : List HeldImage :=
  batch.completeFirst.filterMap (f.completeOne reads) ++
    ((f.completeMoved reads batch).1.filter (f.absent reads)).map (awaiting reads)

/-- What a flush writes and holds of its batch, unless an image held for its row still has none. -/
theorem apply_eq :
    f.apply cs reads batch =
      match (f.completeMoved reads batch).1.find? (fun e => f.absent reads e && e.absenceAwaited)
        with
      | some e => .error (.violation (.stillAbsent e.key))
      | none => f.applyEntries cs reads.shadow (f.toWrite reads batch)
          { (f.completeMoved reads batch).2 with held := f.toHold reads batch } := by
  simp only [apply, holdAbsent]
  cases (f.completeMoved reads batch).1.find? (fun e => f.absent reads e && e.absenceAwaited) <;>
    rfl

theorem absent_skippedMarker : f.absent reads (skippedMarker e) = false := by
  simp [absent, checksShadowRow, skippedMarker]

/-- The named images leave the batch, or are deletes where no row completes them. -/
theorem mem_completeMoved :
    w ∈ (f.completeMoved reads batch).1 ↔
      (w ∈ batch.entries ∧ named w = false) ∨
        ∃ e ∈ batch.entries, named e = true ∧ f.completeOne reads e = none ∧
          w = skippedMarker e := by
  rw [completeMoved, List.mem_filterMap]
  constructor
  · rintro ⟨e, member, kept⟩
    split at kept
    next marked =>
      split at kept
      · cases kept
      next unread =>
        cases kept
        exact Or.inr ⟨e, member, marked, unread, rfl⟩
    next unmarked =>
      cases kept
      exact Or.inl ⟨member, Bool.eq_false_iff.mpr unmarked⟩
  · rintro (⟨member, unmarked⟩ | ⟨e, member, marked, unread, rfl⟩)
    · exact ⟨w, member, by simp [unmarked]⟩
    · exact ⟨e, member, by simp [marked, unread]⟩

/-- **A flush writes the batch's entries that need no row read, and a delete for each moved image
no row could complete.** -/
theorem mem_toWrite :
    w ∈ f.toWrite reads batch ↔
      (w ∈ batch.entries ∧ named w = false ∧ f.absent reads w = false) ∨
        ∃ e ∈ batch.entries, named e = true ∧ f.completeOne reads e = none ∧
          w = skippedMarker e := by
  rw [toWrite, List.mem_filter, mem_completeMoved, Bool.not_eq_true']
  constructor
  · rintro ⟨⟨member, unmarked⟩ | skipped, present⟩
    · exact Or.inl ⟨member, unmarked, present⟩
    · exact Or.inr skipped
  · rintro (⟨member, unmarked, present⟩ | ⟨e, member, marked, unread, rfl⟩)
    · exact ⟨Or.inl ⟨member, unmarked⟩, present⟩
    · exact ⟨Or.inr ⟨e, member, marked, unread, rfl⟩, absent_skippedMarker⟩

/-- **A flush holds the moved images it completed and the unmoved ones whose row is absent.** -/
theorem mem_toHold :
    h ∈ f.toHold reads batch ↔
      (∃ e ∈ batch.entries, named e = true ∧ f.completeOne reads e = some h) ∨
        ∃ e ∈ batch.entries, named e = false ∧ f.absent reads e = true ∧
          h = awaiting reads e := by
  rw [toHold, List.mem_append, List.mem_filterMap, List.mem_map]
  refine or_congr ⟨?_, ?_⟩ ⟨?_, ?_⟩
  · rintro ⟨e, first, read⟩
    rw [Batch.completeFirst, List.mem_filter] at first
    exact ⟨e, first.1, first.2, read⟩
  · rintro ⟨e, member, marked, read⟩
    exact ⟨e, List.mem_filter.mpr ⟨member, marked⟩, read⟩
  · rintro ⟨e, member, rfl⟩
    rw [List.mem_filter, mem_completeMoved] at member
    obtain ⟨⟨member, unmarked⟩ | ⟨e', -, -, -, rfl⟩, absent⟩ := member
    · exact ⟨e, member, unmarked, absent, rfl⟩
    · rw [absent_skippedMarker] at absent
      cases absent
  · rintro ⟨e, member, unmarked, absent, rfl⟩
    exact ⟨e, List.mem_filter.mpr ⟨mem_completeMoved.mpr (Or.inl ⟨member, unmarked⟩), absent⟩, rfl⟩

theorem completeOne_entry (read : f.completeOne reads e = some h) : h.entry = e := by
  rw [completeOne] at read
  split at read
  · cases read
    rfl
  · obtain ⟨completed, -, rfl⟩ := Option.map_eq_some_iff.mp read
    rfl

theorem completeMoved_keys :
    ((f.completeMoved reads batch).1.map Entry.key).Sublist (batch.entries.map Entry.key) := by
  rw [completeMoved]
  induction batch.entries with
  | nil => exact List.Sublist.slnil
  | cons e entries ih =>
    rw [List.filterMap_cons, List.map_cons]
    split
    · exact ih.cons _
    next kept =>
      rw [List.map_cons]
      split at kept
      · split at kept
        · cases kept
        · cases kept
          exact ih.cons_cons _
      · cases kept
        exact ih.cons_cons _

theorem toWrite_distinct (distinct : (batch.entries.map Entry.key).Nodup) :
    ((f.toWrite reads batch).map Entry.key).Nodup :=
  ((List.filter_sublist.map _).trans completeMoved_keys).nodup distinct

/-- The images of a batch to hold have distinct keys. -/
theorem toHold_distinct (distinct : (batch.entries.map Entry.key).Nodup) :
    ((f.toHold reads batch).map fun h => h.entry.key).Nodup := by
  rw [toHold, List.map_append]
  refine List.Nodup.append ?_ ?_ ?_
  · have first : (batch.completeFirst.map Entry.key).Nodup :=
      (List.filter_sublist.map _).nodup distinct
    refine List.Sublist.nodup ?_ first
    induction batch.completeFirst with
    | nil => exact List.Sublist.slnil
    | cons e entries ih =>
      rw [List.filterMap_cons, List.map_cons]
      split
      · exact ih.cons _
      next held read =>
        rw [List.map_cons, completeOne_entry read]
        exact ih.cons_cons _
  · rw [List.map_map]
    exact ((List.filter_sublist.map _).trans completeMoved_keys).nodup distinct
  · intro key first second
    obtain ⟨held, inside, rfl⟩ := List.mem_map.mp first
    obtain ⟨e, marked, read⟩ := List.mem_filterMap.mp inside
    obtain ⟨held', inside', same⟩ := List.mem_map.mp second
    obtain ⟨e', kept, rfl⟩ := List.mem_map.mp inside'
    rw [Batch.completeFirst, List.mem_filter] at marked
    rw [List.mem_filter, mem_completeMoved] at kept
    obtain ⟨⟨member', unmarked⟩ | ⟨e'', -, -, -, rfl⟩, absent⟩ := kept
    · rw [completeOne_entry read] at same
      obtain rfl := List.inj_on_of_nodup_map distinct member' marked.1 same
      have also : named e' = true := marked.2
      rw [unmarked] at also
      cases also
    · rw [absent_skippedMarker] at absent
      cases absent

/-- An empty batch is applied as every other: nothing is read, written or held. -/
theorem flush_eq : f.flush cs reads batch = f.apply cs reads batch := by
  obtain ⟨entries⟩ := batch
  rw [flush]
  split
  next empty =>
    rw [List.isEmpty_iff] at empty
    subst empty
    rfl
  · rfl

/-- **What a committed flush wrote and held.** -/
theorem flush_ok (distinct : (batch.entries.map Entry.key).Nodup)
    (flushed : f.flush cs reads batch = .ok (after, done)) :
    Flushed f reads.shadow after (f.toWrite reads batch) ∧
      ConflictFree cs after (f.toWrite reads batch) ∧ done.held = f.toHold reads batch := by
  rw [flush_eq, apply_eq] at flushed
  split at flushed
  · cases flushed
  · exact applyEntries_flushed (toWrite_distinct distinct) flushed

end Batch

end Flusher

end PgSprite.Applier
