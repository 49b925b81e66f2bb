/-
**The buffer's entry for one key, and how an image merges an event's columns.**

`overlay` lets an event's values win over the image's; `fill` lets the image's values win over a
completion's. `valueOf_overlay` and `valueOf_fill` say what each does to one column, and those are
the only facts the later modules use about the two loops. `overlayShared` is what an overlay shows
to a holder of the same columns.
-/

import PgSprite.Decode.Change

namespace PgSprite.Applier

open PgSprite.Decode

/-- Everything the applier refuses as an invariant violation, by the place that raises it. -/
inductive Violation where
  | insertOverImage (key : Key)
  | insertOmits (key : Key) (column : Name)
  | updateOverDelete (key : Key)
  | moveOntoImage (key oldKey : Key)
  | moveFromDeleted (key oldKey : Key)
  | holdTaken (key : Key)
  | requeueTaken (key : Key)
  | stillAbsent (key : Key)
  | updateFoundNoRow (key : Key) (markers : List Name)
  | completeFoundNoRow (key : Key) (markers : List Name)
  | stillOmits (key : Key) (markers : List Name)
  | nothingToBind (column : Name)
  deriving DecidableEq, Repr

/-- What a buffered entry asks the flush to do for its key. -/
inductive EntryKind where
  | image
  | deleteMarker
  deriving DecidableEq, Repr

/-- The buffer's latest knowledge of one primary key. -/
structure Entry where
  key : Key
  kind : EntryKind
  /-- The key the row of a moved image started at. -/
  oldKey : Option Key := none
  /-- The source has since put another row at `oldKey`. -/
  oldKeyReused : Bool := false
  /-- A flush found no shadow row under `key` and held the image for the stream to pass. -/
  absenceAwaited : Bool := false
  columns : List Column := []
  /-- The delivered position the earliest event the entry still holds arrived with. -/
  firstLSN : LSN
  /-- The transaction of the latest event merged into the entry. -/
  xid : Xid
  deriving DecidableEq, Repr

/-! ### Merging columns into an image -/

/-- One step of `overlay`: a present column replaces the image's, or is appended. -/
def overlayOne (columns : List Column) (c : Column) : List Column :=
  if c.present then
    match index columns c.name with
    | some i => columns.set i c
    | none => columns ++ [c]
  else columns

/-- Assigns every present column onto the image. -/
def overlay (columns more : List Column) : List Column := more.foldl overlayOne columns

/-- What `overlay` does to the columns a batch still shares with the entry it is called on: a column
they name is assigned in place, and the first append moves the entry to columns of its own. -/
def overlayShared (columns : List Column) : List Column → List Column
  | [] => columns
  | c :: more =>
    if c.present then
      match index columns c.name with
      | some i => overlayShared (columns.set i c) more
      | none => columns
    else overlayShared columns more

/-- One step of `fill`: a present column is taken where the image has no value for its name. -/
def fillOne (columns : List Column) (c : Column) : List Column :=
  if c.present then
    match index columns c.name with
    | some i => if (columns[i]?.map Column.present).getD false then columns else columns.set i c
    | none => columns ++ [c]
  else columns

/-- Assigns every present column the image still carries as a marker or does not hold. -/
def fill (columns more : List Column) : List Column := more.foldl fillOne columns

section Merge

variable {columns more : List Column} {c : Column} {name : Name}

theorem valueOf_append_fresh (fresh : c.name ∉ names columns) :
    valueOf (columns ++ [c]) name
      = if c.name = name then c.value else valueOf columns name := by
  induction columns with
  | nil => simp [valueOf_cons]
  | cons head columns ih =>
    rw [names_cons, List.mem_cons, not_or] at fresh
    rw [List.cons_append, valueOf_cons, valueOf_cons, ih fresh.2]
    by_cases same : c.name = name
    · rw [if_pos same, if_pos same, if_neg (same ▸ Ne.symm fresh.1)]
    · rw [if_neg same, if_neg same]

/-- An overlaid column takes the new value, unless that is omitted. -/
theorem valueOf_overlayOne :
    valueOf (overlayOne columns c) name
      = if c.name = name then c.value.or (valueOf columns name) else valueOf columns name := by
  rw [overlayOne, Column.present]
  cases carried : c.value with
  | none => simp
  | some value =>
    rw [Option.isSome_some, if_pos rfl, Option.some_or, ← carried]
    cases found : index columns c.name with
    | none => exact valueOf_append_fresh (index_eq_none_iff.mp found)
    | some i => exact valueOf_set found

/-- The column found under a name is present exactly where the name has a value. -/
theorem present_of_index {i : ℕ} (found : index columns name = some i) :
    (columns[i]?.map Column.present).getD false = (valueOf columns name).isSome := by
  induction columns generalizing i with
  | nil => simp [index] at found
  | cons head columns ih =>
    rw [index, List.findIdx?_cons] at found
    by_cases here : head.name = name
    · rw [if_pos (by simpa using here), Option.some.injEq] at found
      subst found
      simp [valueOf_cons, here, Column.present]
    · rw [if_neg (by simpa using here), Option.map_eq_some_iff] at found
      obtain ⟨j, found, rfl⟩ := found
      rw [List.getElem?_cons_succ, ih found, valueOf_cons, if_neg here]

/-- Filling sets a value only under its own name, and only where there was none. -/
theorem valueOf_fillOne :
    valueOf (fillOne columns c) name
      = if c.name = name then (valueOf columns name).or c.value else valueOf columns name := by
  rw [fillOne, Column.present]
  cases carried : c.value with
  | none => simp
  | some value =>
    rw [Option.isSome_some, if_pos rfl, ← carried]
    cases found : index columns c.name with
    | none =>
      have fresh := index_eq_none_iff.mp found
      rw [valueOf_append_fresh fresh]
      by_cases same : c.name = name
      · rw [if_pos same, if_pos same, ← same, valueOf_of_not_mem fresh, Option.none_or]
      · rw [if_neg same, if_neg same]
    | some i =>
      simp only [present_of_index found]
      cases held : valueOf columns c.name with
      | none =>
        rw [if_neg (by simp), valueOf_set found]
        by_cases same : c.name = name
        · rw [if_pos same, if_pos same, ← same, held, Option.none_or]
        · rw [if_neg same, if_neg same]
      | some kept =>
        rw [Option.isSome_some, if_pos rfl]
        by_cases same : c.name = name
        · rw [if_pos same, ← same, held, Option.some_or]
        · rw [if_neg same]

/-- **An overlaid column keeps the image's value only where the event omitted it.** -/
theorem valueOf_overlay (distinct : (names more).Nodup) :
    valueOf (overlay columns more) name = (valueOf more name).or (valueOf columns name) := by
  induction more generalizing columns with
  | nil => rfl
  | cons c more ih =>
    rw [names_cons, List.nodup_cons] at distinct
    rw [overlay, List.foldl_cons, ← overlay, ih distinct.2, valueOf_overlayOne, valueOf_cons]
    by_cases same : c.name = name
    · have once := valueOf_of_not_mem (same ▸ distinct.1)
      rw [if_pos same, if_pos same, once, Option.none_or]
    · rw [if_neg same, if_neg same]

/-- **A filled column takes the completion's value only where the image has none.** -/
theorem valueOf_fill (distinct : (names more).Nodup) :
    valueOf (fill columns more) name = (valueOf columns name).or (valueOf more name) := by
  induction more generalizing columns with
  | nil => simp [fill]
  | cons c more ih =>
    rw [names_cons, List.nodup_cons] at distinct
    rw [fill, List.foldl_cons, ← fill, ih distinct.2, valueOf_fillOne, valueOf_cons]
    by_cases same : c.name = name
    · have once := valueOf_of_not_mem (same ▸ distinct.1)
      rw [if_pos same, if_pos same, once, Option.or_none]
    · rw [if_neg same, if_neg same]

/-- **A shared column takes a value the overlay assigned, or keeps its own**, and none is lost. -/
theorem valueOf_overlayShared :
    (∀ v, valueOf (overlayShared columns more) name = some v →
        valueOf columns name = some v ∨ ∃ c ∈ more, c.name = name ∧ c.value = some v) ∧
      (valueOf (overlayShared columns more) name = none → valueOf columns name = none) := by
  induction more generalizing columns with
  | nil => exact ⟨fun v found => Or.inl found, id⟩
  | cons c more ih =>
    rw [overlayShared]
    split
    next present =>
      cases found : index columns c.name with
      | none => exact ⟨fun v found => Or.inl found, id⟩
      | some i =>
        obtain ⟨assigned, lost⟩ := @ih (columns.set i c)
        rw [valueOf_set found] at assigned lost
        refine ⟨fun v now => ?_, fun gone => ?_⟩
        · rcases assigned v now with before | ⟨c', member, same⟩
          · split at before
            next same => exact Or.inr ⟨c, List.mem_cons_self, same, before⟩
            next => exact Or.inl before
          · exact Or.inr ⟨c', List.mem_cons_of_mem _ member, same⟩
        · have before := lost gone
          split at before
          · rw [Column.present, before] at present
            cases present
          · exact before
    next =>
      obtain ⟨assigned, lost⟩ := @ih columns
      refine ⟨fun v now => ?_, lost⟩
      rcases assigned v now with before | ⟨c', member, same⟩
      · exact Or.inl before
      · exact Or.inr ⟨c', List.mem_cons_of_mem _ member, same⟩

theorem names_overlayShared : names (overlayShared columns more) = names columns := by
  induction more generalizing columns with
  | nil => rfl
  | cons c more ih =>
    rw [overlayShared]
    split
    · cases found : index columns c.name with
      | none => rfl
      | some i => exact ih.trans (names_set found)
    · exact ih

theorem names_overlayOne (known : c.name ∈ names columns) :
    names (overlayOne columns c) = names columns := by
  rw [overlayOne]
  split
  · cases found : index columns c.name with
    | none => exact absurd known (index_eq_none_iff.mp found)
    | some i => exact names_set found
  · rfl

theorem names_fillOne (known : c.name ∈ names columns) :
    names (fillOne columns c) = names columns := by
  rw [fillOne]
  split
  · cases found : index columns c.name with
    | none => exact absurd known (index_eq_none_iff.mp found)
    | some i =>
      simp only []
      split
      · rfl
      · exact names_set found
  · rfl

/-- A merge of columns the image names leaves the names and their order alone. -/
theorem names_foldl {merge : List Column → Column → List Column}
    (keeps : ∀ columns c, c.name ∈ names columns → names (merge columns c) = names columns)
    (known : names more ⊆ names columns) :
    names (more.foldl merge columns) = names columns := by
  induction more generalizing columns with
  | nil => rfl
  | cons c more ih =>
    rw [names_cons, List.cons_subset] at known
    have same := keeps columns c known.1
    rw [List.foldl_cons, ih (same ▸ known.2), same]

theorem names_overlay (known : names more ⊆ names columns) :
    names (overlay columns more) = names columns :=
  names_foldl (fun _ _ => names_overlayOne) known

theorem names_fill (known : names more ⊆ names columns) :
    names (fill columns more) = names columns :=
  names_foldl (fun _ _ => names_fillOne) known

end Merge

/-! ### Values read from the shadow -/

/-- Marks each value as read from the shadow row. -/
def inShadowForm (columns : List Column) : List Column :=
  columns.map fun c =>
    { c with value := c.value.map fun
        | .text value => .shadowForm value
        | .shadowForm value => .shadowForm value }

/-- The text a value carries, whichever row it was read from. -/
def bound : Value → Text
  | .text value => value
  | .shadowForm value => value

@[simp]
theorem names_inShadowForm (columns : List Column) :
    names (inShadowForm columns) = names columns := by
  simp [names, inShadowForm, Function.comp_def]

end PgSprite.Applier
