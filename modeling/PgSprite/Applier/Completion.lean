/-
**A held image, from the flush that completed it to the one that writes it.**

The flush reads a completion for the columns the shadow has; whether a moved image must be completed
first is decided by every column the stream decodes. `completeFirst_iff_of_held` says when the two
agree: after the hold, events that leave the image in place, and a release past the read, the next
drain that flushes the key leaves the image out of `completeFirst` exactly when every column it
still omits is one the shadow has. `dropped_marker_held_again` is an image on which they do not.
-/

import PgSprite.Applier.Settled

namespace PgSprite.Applier

open Std PgSprite.Decode PgSprite.Source PgSprite.Lib PgSprite.Copier

/-- The event neither replaces the image under `key` nor lands another row on `old`: it may overlay
the image, and it may do anything to other keys but put a row on `old`. -/
def Spares (key old : Key) (ev : ChangeEvent) : Prop :=
  match ev.kind with
  | .insert => ev.key ≠ key ∧ ev.key ≠ old
  | .update =>
    match ev.oldKey with
    | some origin =>
      if origin ≠ ev.key then ev.key ≠ key ∧ origin ≠ key ∧ ev.key ≠ old
      else ev.key = key ∨ ev.key ≠ old
    | none => ev.key = key ∨ ev.key ≠ old
  | .delete => ev.key ≠ key

/-- What the buffer holds of an image while its completion is pending: it has not moved on, and
omits no column it did not omit when it was held. -/
structure Waits (relation : List Name) (before : List Column) (old : Key) (p : PendingCompletion)
    (b : Buffer) (key : Key) (e : Entry) : Prop where
  stored : b.entries[key]? = some e
  pending : b.pending[key]? = some p
  kind : e.kind = .image
  moved : e.oldKey = some old
  decoded : names e.columns = relation
  omits : ∀ name, valueOf e.columns name = none → valueOf before name = none

section Waits

variable {relation : List Name} {before : List Column} {key old : Key} {p : PendingCompletion}
  {b b' : Buffer} {e : Entry} {ev : ChangeEvent} {evs : List ChangeEvent}
  (waits : Waits relation before old p b key e)

include waits

theorem Waits.mark {landing : Key} {mover : Option Key} (apart : landing ≠ old) :
    Waits relation before old p (b.markOldKeyReused landing mover) key e := by
  have stays : Buffer.displaces landing mover e = false := by
    simp [Buffer.displaces, waits.moved, Ne.symm apart]
  refine { waits with stored := ?_, pending := ?_ }
  · rw [Buffer.entries_markOldKeyReused, waits.stored, Option.map_some, stays]
    rfl
  · rw [Buffer.pending_markOldKeyReused, waits.stored, Option.any_some, stays]
    exact waits.pending

theorem Waits.put {other : Entry} (apart : other.key ≠ key) :
    Waits relation before old p (b.put other) key e where
  stored := by rw [Buffer.entries_put, if_neg apart, waits.stored]
  pending := by rw [Buffer.pending_put, if_neg apart, waits.pending]
  kind := waits.kind
  moved := waits.moved
  decoded := waits.decoded
  omits := waits.omits

/-- An update of the row overlays its columns on the held image. -/
theorem Waits.overlay (once : relation.Nodup) (same : ev.key = key)
    (listed : names ev.columns = relation) :
    Waits relation before old p (b.modify ev.key
      (fun e => { e with columns := overlay e.columns ev.columns, xid := ev.xid })
      (Buffer.keeps_overlay ev)) key
      { e with columns := Applier.overlay e.columns ev.columns, xid := ev.xid } where
  stored := by
    rw [Buffer.entries_modify, if_pos same, waits.stored]
    rfl
  pending := waits.pending
  kind := waits.kind
  moved := waits.moved
  decoded := by
    rw [names_overlay (by rw [listed, waits.decoded]; exact List.Subset.refl _), waits.decoded]
  omits name omitted := by
    rw [valueOf_overlay (listed ▸ once), Option.or_eq_none_iff] at omitted
    exact waits.omits name omitted.2

/-- **An event that spares a held image leaves it waiting.** -/
theorem Waits.add (once : relation.Nodup) (decodes : ev.key = key → names ev.columns = relation)
    (spares : Spares key old ev) (added : b.add ev = .ok b') :
    ∃ e', Waits relation before old p b' key e' := by
  have updates : ev.kind = .update → (∀ old, ev.oldKey = some old → old = ev.key) →
      ev.key = key ∨ ev.key ≠ old := by
    intro kind stays
    simp only [Spares, kind] at spares
    cases sent : ev.oldKey with
    | none => simpa only [sent] using spares
    | some origin => simpa only [sent, stays origin sent, ne_eq, not_true, if_false] using spares
  cases Buffer.adds_of_add added with
  | insert kind =>
    simp only [Spares, kind] at spares
    exact ⟨e, (waits.mark spares.2).put spares.1⟩
  | start kind stays absent =>
    have apart : ev.key ≠ key := by
      rintro rfl
      rw [waits.stored] at absent
      cases absent
    exact ⟨e, (waits.mark ((updates kind stays).resolve_left apart)).put apart⟩
  | overlay kind stays =>
    by_cases same : ev.key = key
    · exact ⟨_, waits.overlay once same (decodes same)⟩
    · refine ⟨e, { waits with stored := ?_ }⟩
      rw [Buffer.entries_modify, if_neg same, waits.stored]
  | @move kind origin sent moves =>
    simp only [Spares, kind, sent, if_pos moves] at spares
    obtain ⟨apart, away, fresh⟩ := spares
    have onto : (Buffer.movedImage ev origin b.entries[ev.key]? b.entries[origin]?).key
        = ev.key := (Buffer.movedImage_fields ev origin _ _).1
    exact ⟨e, ((waits.mark fresh).put (by rw [onto]; exact apart)).put away⟩
  | delete kind =>
    simp only [Spares, kind] at spares
    exact ⟨e, waits.put spares⟩

/-- Events that all spare a held image leave it waiting. -/
theorem Waits.addAll (once : relation.Nodup)
    (decodes : ∀ ev ∈ evs, ev.key = key → names ev.columns = relation)
    (spares : ∀ ev ∈ evs, Spares key old ev) (added : evs.foldlM Buffer.add b = .ok b') :
    ∃ e', Waits relation before old p b' key e' := by
  have keeps : ∀ (b : Buffer) (ev : ChangeEvent) (next : Buffer), ev ∈ evs →
      (∃ e, Waits relation before old p b key e) → b.add ev = .ok next →
      ∃ e, Waits relation before old p next key e := by
    rintro b ev next member ⟨e, waits⟩ added
    exact waits.add once (decodes ev member) (spares ev member) added
  have waiting := foldlM_invariant keeps ⟨e, waits⟩ added
  exact waiting

theorem Waits.release {passed : LSN} (passes : p.readLSN ≤ passed) :
    (b.release passed).entries[key]? = some { e with columns := fill e.columns p.completed } ∧
      (b.release passed).pending[key]? = none := by
  obtain ⟨entries, pending⟩ := Buffer.release_taken waits.pending (by simpa using passes)
  rw [waits.stored] at entries
  exact ⟨entries, pending⟩

end Waits

/-! ### The completion -/

section Completion

variable {f : Flusher} {reads : Reads} {e : Entry} {h : HeldImage}

/-- A completion has a value for exactly the copied columns its image omits. -/
theorem completion_columns (read : f.completeOne reads e = some h) :
    names h.completion.completed = (f.split e.columns).2 ∧
      ∀ name, valueOf h.completion.completed name = none ↔ name ∉ (f.split e.columns).2 := by
  rw [Flusher.completeOne] at read
  split at read
  next completed found =>
    cases read
    obtain ⟨x, -, rfl⟩ := Option.map_eq_some_iff.mp found
    refine ⟨(names_inShadowForm _).trans (Flushable.completed_names _ x), fun name => ?_⟩
    show valueOf (inShadowForm _) name = none ↔ _
    rw [Flusher.valueOf_inShadowForm_completed]
    split <;> simp [*]
  next =>
    obtain ⟨completed, found, rfl⟩ := Option.map_eq_some_iff.mp read
    obtain ⟨x, -, rfl⟩ := Option.map_eq_some_iff.mp found
    refine ⟨Flushable.completed_names _ x, fun name => ?_⟩
    show valueOf ((f.split e.columns).2.map fun name =>
      (⟨name, some (.text (x name))⟩ : Column)) name = none ↔ _
    rw [valueOf_map]
    split <;> simp [*]

/-- A filled image still carries a marker exactly where one is not of a copied column. -/
theorem hasMarker_filled {relation : List Name} {columns : List Column} (once : relation.Nodup)
    (copied : f.columns ⊆ relation) (decoded : names columns = relation)
    (omits : ∀ name, valueOf columns name = none → valueOf e.columns name = none)
    (read : f.completeOne reads e = some h) :
    hasMarker (fill columns h.completion.completed) = true ↔
      ∃ name ∈ relation, valueOf columns name = none ∧ name ∉ f.columns := by
  obtain ⟨listed, values⟩ := completion_columns read
  have distinct : (names h.completion.completed).Nodup :=
    listed ▸ Flushable.split_markers_nodup f e.columns
  have known : names h.completion.completed ⊆ names columns := by
    rw [listed, decoded]
    exact fun name marker => copied (Flusher.mem_markers.mp marker).1
  have same : names (fill columns h.completion.completed) = relation :=
    (names_fill known).trans decoded
  rw [hasMarker_iff (same ▸ once), same]
  refine exists_congr fun name => and_congr_right fun _ => ?_
  rw [valueOf_fill distinct, Option.or_eq_none_iff, values, Flusher.mem_markers]
  refine and_congr_right fun omitted => not_congr ⟨And.left, fun inside => ⟨inside, ?_⟩⟩
  exact omits name omitted

end Completion

/-- **One release completes a held image exactly when every column it still omits is one the shadow
has.** The image is the one the next drain flushes under the key; that drain leaves it out of
`completeFirst`, and the flush writes it, under this condition and no other. -/
theorem completeFirst_iff_of_held (f : Flusher) (relation : List Name) (once : relation.Nodup)
    (copied : f.columns ⊆ relation) (reads : Reads) (e : Entry) (old : Key)
    (kind : e.kind = .image) (moved : e.oldKey = some old) (decoded : names e.columns = relation)
    (h : HeldImage) (read : f.completeOne reads e = some h)
    (b held added : Buffer) (images : List HeldImage) (member : h ∈ images)
    (distinct : (images.map fun h => h.entry.key).Nodup) (holds : b.hold images = .ok held)
    (evs : List ChangeEvent) (spares : ∀ ev ∈ evs, Spares e.key old ev)
    (decodes : ∀ ev ∈ evs, ev.key = e.key → names ev.columns = relation)
    (adds : evs.foldlM Buffer.add held = .ok added) (passed : LSN) (passes : h.readLSN ≤ passed)
    (pos : Position) (snap : Snapshot)
    (lands : (added.release passed).fate pos snap e.key = .flushed) :
    ∃ before image, added.entries[e.key]? = some before ∧
      image ∈ ((added.release passed).drain pos snap).2.entries ∧ image.key = e.key ∧
      image.oldKey = some old ∧
      (image ∉ ((added.release passed).drain pos snap).2.completeFirst ↔
        ∀ name ∈ relation, valueOf before.columns name = none → name ∈ f.columns) ∧
      ∀ later, image ∈ f.toWrite later ((added.release passed).drain pos snap).2 ↔
        ∀ name ∈ relation, valueOf before.columns name = none → name ∈ f.columns := by
  have own := Flusher.completeOne_entry read
  have start : Waits relation e.columns old h.completion held e.key e := by
    obtain rfl := Buffer.hold_ok holds
    obtain ⟨entries, pending⟩ := Buffer.foldl_holdOne_of_mem (b := b) distinct member
    rw [own] at entries pending
    exact ⟨entries, pending, kind, moved, decoded, fun _ omitted => omitted⟩
  obtain ⟨before, waits⟩ := start.addAll once decodes spares adds
  have key := added.keyed e.key before waits.stored
  -- the image the release leaves, filled from the completion
  obtain ⟨image, shape, columns⟩ : ∃ image : Entry,
      image = { before with columns := fill before.columns h.completion.completed } ∧
        image.columns = fill before.columns h.completion.completed := ⟨_, rfl, rfl⟩
  have fields : image.key = e.key ∧ image.kind = .image ∧ image.oldKey = some old :=
    ⟨by rw [shape]; exact key, by rw [shape]; exact waits.kind, by rw [shape]; exact waits.moved⟩
  have flushed : image ∈ ((added.release passed).drain pos snap).2.entries := by
    refine Buffer.mem_drain.mpr ?_
    rw [fields.1, shape]
    exact ⟨(waits.release passes).1, lands⟩
  have unmarked : hasMarker image.columns = false ↔
      ∀ name ∈ relation, valueOf before.columns name = none → name ∈ f.columns := by
    rw [columns, ← Bool.not_eq_true, hasMarker_filled once copied waits.decoded waits.omits read]
    simp only [not_exists, not_and, not_not]
  refine ⟨before, image, waits.stored, flushed, fields.1, fields.2.2, ?_, fun later => ?_⟩
  · rw [← unmarked, Batch.completeFirst, List.mem_filter]
    simp [flushed, fields.2.1, fields.2.2]
  · have present : f.absent later image = false := by
      simp [Flusher.absent, Flusher.checksShadowRow, fields.2.2]
    have named : Flusher.named image = hasMarker image.columns := by
      simp [Flusher.named, fields.2.1, fields.2.2]
    rw [← unmarked, Flusher.mem_toWrite, named, present]
    refine ⟨fun either => ?_, fun whole => Or.inl ⟨flushed, whole, rfl⟩⟩
    rcases either with ⟨-, whole, -⟩ | ⟨other, -, -, -, skipped⟩
    · exact whole
    · rw [skipped] at fields
      cases fields.2.1

/-! ### An image on which the two disagree -/

/-- A shadow that has the column `u` of a relation with the columns `u` and `d`. -/
def withoutD : Flusher := { columns := ["u"], distinct := List.nodup_singleton "u" }

/-- A row moved from 1 to 2 whose event omitted the column given. -/
def movedOmitting (omitted : Name) : Entry :=
  { key := 2, kind := .image, oldKey := some 1, firstLSN := 10, xid := 7
    columns := ["u", "d"].map fun name =>
      ⟨name, if name = omitted then none else some (.text (some "a"))⟩ }

/-- A flush that finds the row under its old key. -/
def readsOfOld : Reads := ⟨(∅ : Table).insert 1 fun _ => some "a", ∅, 20⟩

/-- The image as the flush holds it. -/
def heldOmitting (omitted : Name) : HeldImage :=
  { entry := movedOmitting omitted, readLSN := 20
    completed := if omitted = "u" then [.presentColumn "u" (.text (some "a"))] else [] }

/-- Every key is landed. -/
def landedPosition : Position := { watermark := some Int64.maxValue, cut := some Int64.maxValue }

/-- The batch the image comes back in, when nothing else happens. -/
def batchAfterRelease (omitted : Name) : Batch :=
  (((Buffer.new.holdOne (heldOmitting omitted)).release 20).drain landedPosition .allVisible).2

/-- An image that a release has completed is written. -/
theorem completeFirst_iff_of_held_copied :
    ∃ image ∈ (batchAfterRelease "u").entries, image.key = 2 ∧
      image ∉ (batchAfterRelease "u").completeFirst ∧
      image ∈ withoutD.toWrite readsOfOld (batchAfterRelease "u") := by
  obtain ⟨before, image, stored, flushed, key, -, first, writes⟩ :=
    completeFirst_iff_of_held withoutD ["u", "d"] (by decide) (by decide) readsOfOld
      (movedOmitting "u") 1 rfl rfl rfl (heldOmitting "u") (by decide) Buffer.new
      (Buffer.new.holdOne (heldOmitting "u")) (Buffer.new.holdOne (heldOmitting "u"))
      [heldOmitting "u"] (List.mem_singleton.mpr rfl) (by simp)
        (Buffer.hold_eq (by simp [Buffer.new]))
      [] (by simp) (by simp) rfl 20 (by decide) landedPosition .allVisible (by decide)
  have whole : ∀ name ∈ ["u", "d"], valueOf before.columns name = none →
      name ∈ withoutD.columns := by
    have same : some before = some (movedOmitting "u") := stored.symm.trans (by decide)
    cases same
    decide
  exact ⟨image, flushed, key, first.mpr whole, (writes readsOfOld).mpr whole⟩

/-- **An image that omits a column the shadow dropped is held again**, and by the same argument
after every release: it is completed in nothing, and still carries its marker. -/
theorem dropped_marker_held_again :
    withoutD.completeOne readsOfOld (movedOmitting "d") = some (heldOmitting "d") ∧
      (batchAfterRelease "d").completeFirst = [movedOmitting "d"] ∧
      withoutD.toWrite readsOfOld (batchAfterRelease "d") = [] ∧
      withoutD.toHold readsOfOld (batchAfterRelease "d") = [heldOmitting "d"] := by
  refine ⟨?_, ?_, ?_, ?_⟩ <;> decide

end PgSprite.Applier
