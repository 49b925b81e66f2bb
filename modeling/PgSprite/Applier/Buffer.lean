/-
**The buffer: one entry per key, merged from the stream's events.**

A `Buffer` carries its own well-formedness: every entry is stored under its own key, `movedFrom`
is exactly the index of the images that left each key, and a completion is pending only for a key
that has an entry. The writes that keep it so are `put`, `remove`, `modify` and the pending map's;
everything else is built from them.

* `entries_markOldKeyReused`, `pending_markOldKeyReused` — what a row landing on a key does to the
  images that left it;
* `adds_of_add` — what an event that is not refused makes of the buffer.
-/

import Mathlib
import PgSprite.Applier.Entry

namespace PgSprite.Applier

open Std PgSprite.Decode

/-- The completion a held image waits to take. -/
structure PendingCompletion where
  completed : List Column
  readLSN : LSN
  deriving DecidableEq, Repr

/-- The keys of the buffered images that left each key. -/
abbrev MovedFrom := ExtTreeMap Key (ExtTreeSet Key)

/-- Takes a replaced or removed entry out of the index. -/
def unindex (movedFrom : MovedFrom) : Option Entry → MovedFrom
  | none => movedFrom
  | some e =>
    match e.oldKey with
    | none => movedFrom
    | some old =>
      let images := (movedFrom.getD old ∅).erase e.key
      if images.isEmpty then movedFrom.erase old else movedFrom.insert old images

/-- Enters a stored entry into the index. -/
def reindex (movedFrom : MovedFrom) (e : Entry) : MovedFrom :=
  match e.oldKey with
  | none => movedFrom
  | some old => movedFrom.insert old ((movedFrom.getD old ∅).insert e.key)

section Index

variable {movedFrom : MovedFrom} {e : Entry} {old key : Key}

/-- Taking an entry out of the index removes its key from the images of its old key only. -/
theorem mem_unindex :
    key ∈ (unindex movedFrom (some e)).getD old ∅ ↔
      key ∈ movedFrom.getD old ∅ ∧ ¬ (e.oldKey = some old ∧ e.key = key) := by
  rw [unindex]
  cases left : e.oldKey with
  | none => simp
  | some origin =>
    simp only [Option.some.injEq]
    by_cases same : origin = old
    · subst same
      split
      next empty =>
        have gone : ∀ k, k ∉ (movedFrom.getD origin ∅).erase e.key := by
          rw [ExtTreeSet.isEmpty_iff] at empty
          simp [empty]
        simp only [ExtTreeMap.getD_erase_self, ExtTreeSet.not_mem_empty, true_and, false_iff,
          not_and, not_not]
        intro member
        by_contra other
        exact gone key (ExtTreeSet.mem_erase.mpr ⟨by simpa using other, member⟩)
      next => simp [ExtTreeSet.mem_erase, and_comm]
    · split <;> simp [ExtTreeMap.getD_insert, ExtTreeMap.getD_erase, same]

theorem mem_reindex :
    key ∈ (reindex movedFrom e).getD old ∅ ↔
      (e.oldKey = some old ∧ e.key = key) ∨ key ∈ movedFrom.getD old ∅ := by
  rw [reindex]
  cases left : e.oldKey with
  | none => simp
  | some origin =>
    by_cases same : origin = old
    · subst same
      simp [ExtTreeSet.mem_insert]
    · simp [ExtTreeMap.getD_insert, same]

end Index

/-- One entry per key, with the completions held images wait for and the least position owed. -/
structure Buffer where
  entries : ExtTreeMap Key Entry
  movedFrom : MovedFrom
  pending : ExtTreeMap Key PendingCompletion
  oldest : LSN
  hasOldest : Bool
  keyed : ∀ (key : Key) (e : Entry), entries[key]? = some e → e.key = key
  indexed : ∀ old key : Key,
    key ∈ movedFrom.getD old ∅ ↔ ∃ e : Entry, entries[key]? = some e ∧ e.oldKey = some old
  heldEntry : ∀ (key : Key) (p : PendingCompletion), pending[key]? = some p →
    ∃ e : Entry, entries[key]? = some e

namespace Buffer

/-- The empty buffer. -/
def new : Buffer where
  entries := ∅
  movedFrom := ∅
  pending := ∅
  oldest := 0
  hasOldest := false
  keyed := by simp
  indexed := by simp
  heldEntry := by simp

/-- How many keys are buffered. -/
def len (b : Buffer) : ℕ := b.entries.size

/-- The least delivered position a buffered event arrived with. -/
def oldestPending (b : Buffer) : Option LSN := if b.hasOldest then some b.oldest else none

/-- Forgets the completion pending under `key`. -/
def dropPending (b : Buffer) (key : Key) : Buffer :=
  { b with
    pending := b.pending.erase key
    heldEntry := by
      intro k p held
      rw [ExtTreeMap.getElem?_erase] at held
      split at held
      · cases held
      · exact b.heldEntry k p held }

/-- Lowers the oldest pending position to `lsn`. -/
def trackOldest (b : Buffer) (lsn : LSN) : Buffer :=
  if !b.hasOldest || lsn < b.oldest then { b with oldest := lsn, hasOldest := true } else b

/-- Rewrites the entry under `key` in place, leaving its key and its origin alone. -/
def modify (b : Buffer) (key : Key) (f : Entry → Entry)
    (keeps : ∀ e, (f e).key = e.key ∧ (f e).oldKey = e.oldKey) : Buffer :=
  { b with
    entries := b.entries.modify key f
    keyed := by
      intro k e stored
      rw [ExtTreeMap.getElem?_modify] at stored
      split at stored
      next same =>
        obtain ⟨before, held, rfl⟩ := Option.map_eq_some_iff.mp stored
        rw [(keeps before).1, b.keyed key before held]
        simpa using same
      next => exact b.keyed k e stored
    indexed := by
      intro old k
      rw [b.indexed, ExtTreeMap.getElem?_modify]
      split
      next same =>
        obtain rfl : key = k := by simpa using same
        cases b.entries[key]? <;> simp [keeps]
      next => rfl
    heldEntry := by
      intro k p held
      obtain ⟨e, stored⟩ := b.heldEntry k p held
      rw [ExtTreeMap.getElem?_modify]
      split
      next same =>
        obtain rfl : key = k := by simpa using same
        exact ⟨f e, by rw [stored]; rfl⟩
      next => exact ⟨e, stored⟩ }

/-- With the entry of a key taken out, the index is that of the other entries. -/
theorem mem_unindex_stored (b : Buffer) (key old other : Key) :
    other ∈ (unindex b.movedFrom b.entries[key]?).getD old ∅ ↔
      other ≠ key ∧ ∃ e : Entry, b.entries[other]? = some e ∧ e.oldKey = some old := by
  cases stored : b.entries[key]? with
  | none =>
    rw [unindex, b.indexed]
    refine ⟨fun ⟨e, held, left⟩ => ⟨?_, e, held, left⟩, fun ⟨_, inside⟩ => inside⟩
    rintro rfl
    rw [stored] at held
    cases held
  | some e =>
    rw [mem_unindex, b.indexed, b.keyed key e stored, and_comm]
    refine and_congr_left fun ⟨held, inside, left⟩ => ?_
    constructor
    · rintro apart rfl
      rw [stored, Option.some.injEq] at inside
      exact apart ⟨inside ▸ left, rfl⟩
    · rintro apart ⟨-, same⟩
      exact apart same.symm

/-- Stores the entry under its key, dropping the completion pending there. -/
def put (b : Buffer) (e : Entry) : Buffer :=
  trackOldest
    { b with
      entries := b.entries.insert e.key e
      movedFrom := reindex (unindex b.movedFrom b.entries[e.key]?) e
      pending := b.pending.erase e.key
      keyed := by
        intro k held stored
        rw [ExtTreeMap.getElem?_insert] at stored
        split at stored
        next same =>
          cases stored
          simpa using same
        next => exact b.keyed k held stored
      indexed := by
        intro old k
        rw [mem_reindex, mem_unindex_stored, ExtTreeMap.getElem?_insert]
        by_cases same : e.key = k
        · simp [same]
        · simp [same, Ne.symm same]
      heldEntry := by
        intro k p held
        rw [ExtTreeMap.getElem?_erase] at held
        rw [ExtTreeMap.getElem?_insert]
        split at held
        · cases held
        next other => exact ⟨_, by rw [if_neg other]; exact (b.heldEntry k p held).choose_spec⟩ }
    e.firstLSN

/-- Drops the entry under `key` with any completion pending for it. -/
def remove (b : Buffer) (key : Key) : Buffer :=
  { b with
    entries := b.entries.erase key
    movedFrom := unindex b.movedFrom b.entries[key]?
    pending := b.pending.erase key
    keyed := by
      intro k e stored
      rw [ExtTreeMap.getElem?_erase] at stored
      split at stored
      · cases stored
      · exact b.keyed k e stored
    indexed := by
      intro old k
      rw [mem_unindex_stored, ExtTreeMap.getElem?_erase]
      by_cases same : key = k
      · simp [same]
      · simp [same, Ne.symm same]
    heldEntry := by
      intro k p held
      rw [ExtTreeMap.getElem?_erase] at held ⊢
      split at held
      · cases held
      next other => rw [if_neg other]; exact b.heldEntry k p held }

/-- Keeps `completion` pending for the entry stored under `key`. -/
def setPending (b : Buffer) (key : Key) (completion : PendingCompletion)
    (stored : ∃ e, b.entries[key]? = some e) : Buffer :=
  { b with
    pending := b.pending.insert key completion
    heldEntry := by
      intro k p held
      rw [ExtTreeMap.getElem?_insert] at held
      split at held
      next same =>
        obtain rfl : key = k := by simpa using same
        exact stored
      next => exact b.heldEntry k p held }

/-! ### What the writes do to each key -/

section Writes

variable {b : Buffer} {e : Entry} {key other : Key} {lsn : LSN} {f : Entry → Entry}

@[simp]
theorem entries_trackOldest : (b.trackOldest lsn).entries = b.entries := by
  rw [trackOldest]; split <;> rfl

@[simp]
theorem pending_trackOldest : (b.trackOldest lsn).pending = b.pending := by
  rw [trackOldest]; split <;> rfl

@[simp]
theorem entries_put :
    (b.put e).entries[other]? = if e.key = other then some e else b.entries[other]? := by
  simp [put, ExtTreeMap.getElem?_insert]

@[simp]
theorem pending_put :
    (b.put e).pending[other]? = if e.key = other then none else b.pending[other]? := by
  simp [put, ExtTreeMap.getElem?_erase]

@[simp]
theorem entries_remove :
    (b.remove key).entries[other]? = if key = other then none else b.entries[other]? := by
  simp [remove, ExtTreeMap.getElem?_erase]

@[simp]
theorem pending_remove :
    (b.remove key).pending[other]? = if key = other then none else b.pending[other]? := by
  simp [remove, ExtTreeMap.getElem?_erase]

@[simp]
theorem entries_dropPending : (b.dropPending key).entries = b.entries := rfl

@[simp]
theorem pending_dropPending :
    (b.dropPending key).pending[other]? = if key = other then none else b.pending[other]? := by
  simp [dropPending, ExtTreeMap.getElem?_erase]

@[simp]
theorem entries_modify {keeps} :
    (b.modify key f keeps).entries[other]?
      = if key = other then b.entries[other]?.map f else b.entries[other]? := by
  by_cases same : key = other <;> simp [modify, ExtTreeMap.getElem?_modify, same]

@[simp]
theorem pending_modify {keeps} : (b.modify key f keeps).pending = b.pending := rfl

@[simp]
theorem entries_setPending {completion stored} :
    (b.setPending key completion stored).entries = b.entries := rfl

@[simp]
theorem pending_setPending {completion stored} :
    (b.setPending key completion stored).pending[other]?
      = if key = other then some completion else b.pending[other]? := by
  simp [setPending, ExtTreeMap.getElem?_insert]

end Writes

/-! ### A row lands on a key -/

/-- The image's old key now holds another row. -/
def flagReused (e : Entry) : Entry := { e with oldKeyReused := true }

/-- Flags the image under `imageKey`, which left the key a row now lands on, and drops the
completion it holds; the moving row's own entry is left alone. -/
def markReused (mover : Option Key) (b : Buffer) (imageKey : Key) : Buffer :=
  if some imageKey = mover then b
  else (b.modify imageKey flagReused fun _ => ⟨rfl, rfl⟩).dropPending imageKey

/-- Flags every buffered image that left `key`, which now holds another row. `mover` is the key
the landing row's own entry is buffered under, when the landing is a move. -/
def markOldKeyReused (b : Buffer) (key : Key) (mover : Option Key) : Buffer :=
  (b.movedFrom.getD key ∅).toList.foldl (markReused mover) b

/-- A row landing on `key` is another row than the one `e` carried away from it. -/
def displaces (key : Key) (mover : Option Key) (e : Entry) : Bool :=
  decide (e.oldKey = some key) && decide (some e.key ≠ mover)

section Reused

variable {b : Buffer} {mover : Option Key} {key other : Key} {images : List Key}

/-- The index names an image exactly when the row landing on its key displaces it. -/
theorem displaced_iff :
    other ∈ (b.movedFrom.getD key ∅).toList ∧ some other ≠ mover ↔
      b.entries[other]?.any (displaces key mover) = true := by
  rw [ExtTreeSet.mem_toList, b.indexed]
  cases stored : b.entries[other]? with
  | none => simp
  | some e =>
    have own := b.keyed other e stored
    simp [displaces, own]

/-- The flag reaches the listed images but the one that moves, and ends what is pending of them. -/
theorem lookup_foldl_markReused :
    (images.foldl (markReused mover) b).entries[other]?
        = (if other ∈ images ∧ some other ≠ mover then b.entries[other]?.map flagReused
          else b.entries[other]?) ∧
      (images.foldl (markReused mover) b).pending[other]?
        = if other ∈ images ∧ some other ≠ mover then none else b.pending[other]? := by
  induction images generalizing b with
  | nil => simp
  | cons image images ih =>
    rw [List.foldl_cons, ih.1, ih.2, markReused]
    by_cases moving : some image = mover
    · by_cases same : other = image
      · simp [same, moving]
      · simp [same, moving]
    · by_cases same : other = image
      · subst same
        have idempotent : flagReused ∘ flagReused = flagReused := rfl
        simp [moving, idempotent]
      · simp [moving, same, Ne.symm same]

/-- **A landing row flags exactly the images it displaces.** -/
theorem entries_markOldKeyReused :
    (b.markOldKeyReused key mover).entries[other]?
      = b.entries[other]?.map fun e => if displaces key mover e then flagReused e else e := by
  rw [markOldKeyReused, lookup_foldl_markReused.1]
  simp only [displaced_iff]
  cases b.entries[other]? with
  | none => simp
  | some e =>
    by_cases displaced : displaces key mover e <;> simp [displaced]

theorem pending_markOldKeyReused :
    (b.markOldKeyReused key mover).pending[other]?
      = if b.entries[other]?.any (displaces key mover) then none else b.pending[other]? := by
  rw [markOldKeyReused, lookup_foldl_markReused.2]
  simp only [displaced_iff]

end Reused

/-! ### Merging an event -/

/-- The earliest position a new entry still owes the stream. -/
def firstLSN (lsn : LSN) (replaced : List (Option Entry)) : LSN :=
  replaced.foldl (fun lsn replaced =>
    match replaced with
    | some e => if e.firstLSN < lsn then e.firstLSN else lsn
    | none => lsn) lsn

/-- Creates a complete image: an INSERT carries every column. -/
def addInsert (b : Buffer) (ev : ChangeEvent) : Except Violation Buffer :=
  let cur := b.entries[ev.key]?
  if cur.any (fun e => e.kind = .image) then .error (.insertOverImage ev.key)
  else
    match ev.columns.find? (fun c => !c.present) with
    | some c => .error (.insertOmits ev.key c.name)
    | none => .ok <| (b.markOldKeyReused ev.key none).put
        { key := ev.key, kind := .image, columns := ev.columns
          firstLSN := firstLSN ev.delivered [cur], xid := ev.xid }

theorem keeps_overlay (ev : ChangeEvent) (e : Entry) :
    { e with columns := overlay e.columns ev.columns, xid := ev.xid }.key = e.key ∧
      { e with columns := overlay e.columns ev.columns, xid := ev.xid }.oldKey = e.oldKey :=
  ⟨rfl, rfl⟩

/-- Overlays the event's columns onto the buffered image, or starts an image from them. -/
def addUpdate (b : Buffer) (ev : ChangeEvent) : Except Violation Buffer :=
  match b.entries[ev.key]? with
  | none => .ok <| (b.markOldKeyReused ev.key none).put
      { key := ev.key, kind := .image, columns := ev.columns
        firstLSN := ev.delivered, xid := ev.xid }
  | some cur =>
    if cur.kind = .deleteMarker then .error (.updateOverDelete ev.key)
    else .ok <| b.modify ev.key
      (fun e => { e with columns := overlay e.columns ev.columns, xid := ev.xid })
      (keeps_overlay ev)

/-- The image a key move buffers at the new key, from what the buffer holds at both keys. -/
def movedImage (ev : ChangeEvent) (oldKey : Key) (cur origin : Option Entry) : Entry :=
  let moved : Entry :=
    { key := ev.key, kind := .image, oldKey := some oldKey
      firstLSN := firstLSN ev.delivered [cur, origin], xid := ev.xid }
  match origin with
  | none => { moved with columns := ev.columns }
  | some e =>
    let moved := { moved with columns := overlay e.columns ev.columns }
    match e.oldKey with
    | none => moved
    | some start => { moved with oldKey := some start, oldKeyReused := e.oldKeyReused }

/-- Enters a key move as an image at the new key and a delete marker at the old one. -/
def addKeyMove (b : Buffer) (ev : ChangeEvent) (oldKey : Key) : Except Violation Buffer :=
  let cur := b.entries[ev.key]?
  if cur.any (fun e => e.kind = .image) then .error (.moveOntoImage ev.key oldKey)
  else
    let origin := b.entries[oldKey]?
    if origin.any (fun e => e.kind = .deleteMarker) then .error (.moveFromDeleted ev.key oldKey)
    else
      .ok <| ((b.markOldKeyReused ev.key (origin.map fun _ => oldKey)).put
          (movedImage ev oldKey cur origin)).put
        { key := oldKey, kind := .deleteMarker
          firstLSN := firstLSN ev.delivered [origin], xid := ev.xid }

/-- Replaces whatever the key held with a delete marker. -/
def addDelete (b : Buffer) (ev : ChangeEvent) : Buffer :=
  b.put
    { key := ev.key, kind := .deleteMarker
      firstLSN := firstLSN ev.delivered [b.entries[ev.key]?], xid := ev.xid }

/-- Merges one decoded change in stream order, or refuses an event the source could not have
produced given what is buffered. -/
def add (b : Buffer) (ev : ChangeEvent) : Except Violation Buffer :=
  match ev.kind with
  | .insert => b.addInsert ev
  | .update =>
    match ev.oldKey with
    | some oldKey => if oldKey ≠ ev.key then b.addKeyMove ev oldKey else b.addUpdate ev
    | none => b.addUpdate ev
  | .delete => .ok (b.addDelete ev)

/-- What a merge that is not refused makes of the buffer. -/
inductive Adds (b : Buffer) (ev : ChangeEvent) : Buffer → Prop where
  | insert (kind : ev.kind = .insert) :
      Adds b ev ((b.markOldKeyReused ev.key none).put
        { key := ev.key, kind := .image, columns := ev.columns
          firstLSN := firstLSN ev.delivered [b.entries[ev.key]?], xid := ev.xid })
  | start (kind : ev.kind = .update) (stays : ∀ old, ev.oldKey = some old → old = ev.key)
      (absent : b.entries[ev.key]? = none) :
      Adds b ev ((b.markOldKeyReused ev.key none).put
        { key := ev.key, kind := .image, columns := ev.columns
          firstLSN := ev.delivered, xid := ev.xid })
  | overlay (kind : ev.kind = .update) (stays : ∀ old, ev.oldKey = some old → old = ev.key)
      {cur : Entry} (stored : b.entries[ev.key]? = some cur) (image : cur.kind = .image) :
      Adds b ev (b.modify ev.key
        (fun e => { e with columns := overlay e.columns ev.columns, xid := ev.xid })
        (keeps_overlay ev))
  | move (kind : ev.kind = .update) {oldKey : Key} (sent : ev.oldKey = some oldKey)
      (apart : oldKey ≠ ev.key) (images : ∀ e, b.entries[oldKey]? = some e → e.kind = .image) :
      Adds b ev (((b.markOldKeyReused ev.key (b.entries[oldKey]?.map fun _ => oldKey)).put
          (movedImage ev oldKey b.entries[ev.key]? b.entries[oldKey]?)).put
        { key := oldKey, kind := .deleteMarker
          firstLSN := firstLSN ev.delivered [b.entries[oldKey]?], xid := ev.xid })
  | delete (kind : ev.kind = .delete) : Adds b ev (b.addDelete ev)

section Add

variable {b after : Buffer} {ev : ChangeEvent}

theorem adds_of_addUpdate (kind : ev.kind = .update)
    (stays : ∀ old, ev.oldKey = some old → old = ev.key) (added : b.addUpdate ev = .ok after) :
    Adds b ev after := by
  unfold addUpdate at added
  split at added
  next absent =>
    cases added
    exact .start kind stays absent
  next cur stored =>
    cases image : cur.kind with
    | image =>
      rw [if_neg (by rw [image]; decide)] at added
      cases added
      exact .overlay kind stays stored image
    | deleteMarker =>
      rw [if_pos image] at added
      cases added

theorem adds_of_addKeyMove (kind : ev.kind = .update) {oldKey : Key}
    (sent : ev.oldKey = some oldKey) (apart : oldKey ≠ ev.key)
    (added : b.addKeyMove ev oldKey = .ok after) : Adds b ev after := by
  unfold addKeyMove at added
  dsimp only at added
  split at added
  · cases added
  · split at added
    · cases added
    next present =>
      cases added
      refine .move kind sent apart fun e stored => ?_
      cases image : e.kind with
      | image => rfl
      | deleteMarker => simp [stored, image] at present

/-- **An event the buffer accepts leaves it as one of these says.** -/
theorem adds_of_add (added : b.add ev = .ok after) : Adds b ev after := by
  unfold add at added
  split at added
  next kind =>
    unfold addInsert at added
    dsimp only at added
    split at added
    · cases added
    · split at added
      · cases added
      · cases added
        exact .insert kind
  next kind =>
    cases sent : ev.oldKey with
    | none =>
      rw [sent] at added
      exact adds_of_addUpdate kind (fun old named => by rw [sent] at named; cases named) added
    | some oldKey =>
      rw [sent] at added
      dsimp only at added
      split at added
      next apart => exact adds_of_addKeyMove kind sent apart added
      next same =>
        refine adds_of_addUpdate kind (fun old named => ?_) added
        rw [sent] at named
        cases named
        exact not_not.mp same
  next kind =>
    cases added
    exact .delete kind

end Add

end Buffer

end PgSprite.Applier
