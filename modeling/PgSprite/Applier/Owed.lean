/-
**The oldest pending position is at or below every buffered entry's first.**

`first key` is the position the earliest event still held under a key arrived with. A merge may
lower it, a hold or a requeue brings it back, a drain starts the minimum over; `OldestCovers` says
that whichever way an entry came to be buffered, the incrementally kept minimum is not above its
first position.

* `first_add` — a merge keeps or lowers the first position of every key, and starts a new one at
  the event's own;
* `oldestCovers_drain`, `OldestCovers.release` — a drain and a release keep it;
* `requeue_drain` — a batch goes back as it was drained.
-/

import PgSprite.Applier.Drain
import PgSprite.Applier.Hold

namespace PgSprite.Applier

open Std PgSprite.Decode PgSprite.Copier

namespace Buffer

/-- The position the earliest event held under `key` arrived with. -/
def first (b : Buffer) (key : Key) : Option LSN := b.entries[key]?.map Entry.firstLSN

/-- The oldest pending position is at or below `lsn`. -/
def Covers (b : Buffer) (lsn : LSN) : Prop := b.hasOldest = true ∧ b.oldest ≤ lsn

/-- The oldest pending position is at or below every buffered entry's first. -/
def OldestCovers (b : Buffer) : Prop := ∀ key lsn, b.first key = some lsn → b.Covers lsn

section Writes

variable {b : Buffer} {e : Entry} {key other : Key} {lsn low : LSN} {f : Entry → Entry}

theorem first_of_entry (stored : b.entries[key]? = some e) : b.first key = some e.firstLSN := by
  rw [first, stored]
  rfl

theorem first_eq_none : b.first key = none ↔ b.entries[key]? = none := by
  rw [first, Option.map_eq_none_iff]

@[simp]
theorem first_put :
    (b.put e).first other = if e.key = other then some e.firstLSN else b.first other := by
  rw [first, entries_put]
  split <;> rfl

theorem first_modify {keeps} (same : ∀ e, (f e).firstLSN = e.firstLSN) :
    (b.modify key f keeps).first other = b.first other := by
  rw [first, first, entries_modify]
  split
  · cases b.entries[other]? <;> simp [same]
  · rfl

@[simp]
theorem first_markOldKeyReused {mover : Option Key} :
    (b.markOldKeyReused key mover).first other = b.first other := by
  rw [first, first, entries_markOldKeyReused, Option.map_map]
  congr 1
  funext e
  simp only [Function.comp_apply]
  split <;> rfl

theorem covers_trackOldest : (b.trackOldest lsn).Covers lsn := by
  rw [trackOldest]
  split
  next => exact ⟨rfl, UInt64.le_refl _⟩
  next kept =>
    simp only [Bool.or_eq_true, Bool.not_eq_true', decide_eq_true_eq, not_or,
      Bool.not_eq_false] at kept
    exact ⟨kept.1, by grind⟩

theorem Covers.trackOldest (covers : b.Covers low) : (b.trackOldest lsn).Covers low := by
  obtain ⟨has, below⟩ := covers
  rw [Buffer.trackOldest]
  split
  next lower =>
    simp only [has, Bool.not_true, Bool.false_or, decide_eq_true_eq] at lower
    exact ⟨rfl, by grind⟩
  next => exact ⟨has, below⟩

theorem Covers.put (covers : b.Covers low) : (b.put e).Covers low := by
  unfold Buffer.put
  exact Covers.trackOldest ⟨covers.1, covers.2⟩

theorem covers_put : (b.put e).Covers e.firstLSN := covers_trackOldest

theorem OldestCovers.put (covers : b.OldestCovers) : (b.put e).OldestCovers := by
  intro k l found
  rw [first_put] at found
  split at found
  · cases found
    exact covers_put
  · exact (covers k l found).put

theorem Covers.foldl_markReused {mover : Option Key} {images : List Key} (covers : b.Covers low) :
    (images.foldl (markReused mover) b).Covers low := by
  induction images generalizing b with
  | nil => exact covers
  | cons image images ih =>
    refine ih ?_
    rw [markReused]
    split <;> exact covers

theorem OldestCovers.markOldKeyReused {mover : Option Key} (covers : b.OldestCovers) :
    (b.markOldKeyReused key mover).OldestCovers := by
  intro k l found
  rw [first_markOldKeyReused] at found
  exact (covers k l found).foldl_markReused

theorem OldestCovers.modify {keeps} (covers : b.OldestCovers)
    (same : ∀ e, (f e).firstLSN = e.firstLSN) : (b.modify key f keeps).OldestCovers := by
  intro k l found
  rw [first_modify same] at found
  exact covers k l found

theorem oldestCovers_new : new.OldestCovers := by
  intro k l found
  cases found

end Writes

/-! ### Merging an event -/

section Add

variable {b after : Buffer} {ev : ChangeEvent} {key : Key} {lsn : LSN} {e : Entry}
  {replaced : List (Option Entry)}

theorem firstLSN_le : firstLSN lsn replaced ≤ lsn := by
  induction replaced generalizing lsn with
  | nil => exact UInt64.le_refl _
  | cons entry replaced ih =>
    refine UInt64.le_trans ih ?_
    cases entry with
    | none => exact UInt64.le_refl _
    | some e =>
      show (if e.firstLSN < lsn then e.firstLSN else lsn) ≤ lsn
      grind

theorem firstLSN_le_of_mem (member : some e ∈ replaced) : firstLSN lsn replaced ≤ e.firstLSN := by
  induction replaced generalizing lsn with
  | nil => cases member
  | cons entry replaced ih =>
    rcases List.mem_cons.mp member with rfl | deeper
    · show firstLSN (if e.firstLSN < lsn then e.firstLSN else lsn) replaced ≤ e.firstLSN
      refine UInt64.le_trans firstLSN_le ?_
      grind
    · exact ih deeper

/-- What a merge does to the first position of one key. -/
def Lowers (delivered : LSN) : Option LSN → Option LSN → Prop
  | none, none => True
  | none, some after => after ≤ delivered
  | some _, none => False
  | some before, some after => after ≤ before

theorem lowers_refl {delivered : LSN} (position : Option LSN) :
    Lowers delivered position position := by
  cases position with
  | none => trivial
  | some before => exact UInt64.le_refl before

theorem lowers_firstLSN (member : b.entries[key]? ∈ replaced) :
    Lowers lsn (b.first key) (some (firstLSN lsn replaced)) := by
  rw [first]
  cases stored : b.entries[key]? with
  | none => exact firstLSN_le
  | some e => exact firstLSN_le_of_mem (stored ▸ member)

theorem movedImage_first (oldKey : Key) (cur origin : Option Entry) :
    (movedImage ev oldKey cur origin).key = ev.key ∧
      (movedImage ev oldKey cur origin).firstLSN = firstLSN ev.delivered [cur, origin] := by
  rcases origin with _ | e
  · exact ⟨rfl, rfl⟩
  · rw [movedImage]
    cases e.oldKey <;> exact ⟨rfl, rfl⟩

/-- The key an event moves its row away from. -/
def movesFrom (ev : ChangeEvent) : Option Key :=
  match ev.kind with
  | .update => ev.oldKey.filter fun old => decide (old ≠ ev.key)
  | _ => none

/-- What a merge leaves behind, as far as the oldest pending position is concerned. -/
structure Merged (b : Buffer) (ev : ChangeEvent) (after : Buffer) : Prop where
  covers : b.OldestCovers → after.OldestCovers
  lowers : ∀ key, Lowers ev.delivered (b.first key) (after.first key)
  entered : after.first ev.key ≠ none
  /-- A moved image carries on what was owed under its old key, which gets an entry too. -/
  moved : ∀ old, movesFrom ev = some old → after.first old ≠ none ∧
    ∃ lsn, after.first ev.key = some lsn ∧ ∀ before, b.first old = some before → lsn ≤ before
  outside : ∀ key, key ≠ ev.key → some key ≠ movesFrom ev → after.first key = b.first key

/-- A merge that puts one entry under the event's own key. -/
theorem merged_put {base : Buffer} (kept : b.OldestCovers → base.OldestCovers)
    (same : ∀ k, base.first k = b.first k) (keyed : e.key = ev.key) (still : movesFrom ev = none)
    (bounded : Lowers ev.delivered (b.first ev.key) (some e.firstLSN)) :
    Merged b ev (base.put e) := by
  refine ⟨fun covers => (kept covers).put, fun k => ?_, ?_, fun old moves => ?_,
    fun k apart _ => ?_⟩
  · rw [first_put, same, keyed]
    split
    next here => exact here ▸ bounded
    next => exact lowers_refl _
  · simp [keyed]
  · rw [still] at moves
    cases moves
  · rw [first_put, same, keyed, if_neg (Ne.symm apart)]

/-- An overlay moves no first position. -/
theorem merged_overlay (stored : b.entries[ev.key]? = some e) (still : movesFrom ev = none) :
    Merged b ev (b.modify ev.key
      (fun e => { e with columns := overlay e.columns ev.columns, xid := ev.xid })
      (keeps_overlay ev)) := by
  have same : ∀ k, (b.modify ev.key (fun e =>
      { e with columns := overlay e.columns ev.columns, xid := ev.xid })
      (keeps_overlay ev)).first k = b.first k := fun k => first_modify fun _ => rfl
  refine ⟨fun covers => covers.modify fun _ => rfl, fun k => ?_, ?_, fun old moves => ?_,
    fun k _ _ => same k⟩
  · rw [same]
    exact lowers_refl _
  · rw [same, first_of_entry stored]
    exact Option.some_ne_none _
  · rw [still] at moves
    cases moves

/-- A key move puts an entry under each of the two keys. -/
theorem merged_move {oldKey : Key} (apart : oldKey ≠ ev.key) (moves : movesFrom ev = some oldKey) :
    Merged b ev (((b.markOldKeyReused ev.key (b.entries[oldKey]?.map fun _ => oldKey)).put
        (movedImage ev oldKey b.entries[ev.key]? b.entries[oldKey]?)).put
      { key := oldKey, kind := .deleteMarker
        firstLSN := firstLSN ev.delivered [b.entries[oldKey]?], xid := ev.xid }) := by
  obtain ⟨keyed, bound⟩ := @movedImage_first ev oldKey b.entries[ev.key]? b.entries[oldKey]?
  refine ⟨fun covers => covers.markOldKeyReused.put.put, fun k => ?_, ?_, fun old same => ?_,
    fun k other away => ?_⟩
  · rw [first_put, first_put, first_markOldKeyReused, keyed, bound]
    split
    next here =>
      cases here
      exact lowers_firstLSN (List.mem_singleton.mpr rfl)
    next =>
      split
      next here =>
        cases here
        exact lowers_firstLSN List.mem_cons_self
      next => exact lowers_refl _
  · simp [keyed, apart]
  · rw [moves, Option.some.injEq] at same
    subst same
    refine ⟨by simp, firstLSN ev.delivered [b.entries[ev.key]?, b.entries[oldKey]?], ?_, ?_⟩
    · simp [keyed, bound, apart]
    · intro before found
      obtain ⟨e, stored, rfl⟩ := Option.map_eq_some_iff.mp found
      exact firstLSN_le_of_mem (by simp [stored])
  · rw [moves, ne_eq, Option.some.injEq] at away
    rw [first_put, first_put, first_markOldKeyReused, keyed, if_neg (Ne.symm away),
      if_neg (Ne.symm other)]

theorem movesFrom_eq_none (stays : ∀ old, ev.oldKey = some old → old = ev.key) :
    movesFrom ev = none := by
  unfold movesFrom
  split
  · exact Option.filter_eq_none_iff.mpr fun old sent => by simp [stays old sent]
  · rfl

/-- **A merge keeps or lowers the first position of every key.** -/
theorem first_add (added : b.add ev = .ok after) : Merged b ev after := by
  cases adds_of_add added with
  | insert kind =>
    exact merged_put (fun covers => covers.markOldKeyReused) (fun _ => first_markOldKeyReused)
      rfl (by rw [movesFrom, kind]) (lowers_firstLSN (List.mem_singleton.mpr rfl))
  | start _ stays absent =>
    refine merged_put (fun covers => covers.markOldKeyReused) (fun _ => first_markOldKeyReused)
      rfl (movesFrom_eq_none stays) ?_
    rw [first_eq_none.mpr absent]
    exact UInt64.le_refl _
  | overlay _ stays stored => exact merged_overlay stored (movesFrom_eq_none stays)
  | move kind sent apart => exact merged_move apart (by simp [movesFrom, kind, sent, apart])
  | delete kind =>
    exact merged_put (fun covers => covers) (fun _ => rfl) rfl (by rw [movesFrom, kind])
      (lowers_firstLSN (List.mem_singleton.mpr rfl))

end Add

/-! ### Entries that leave and come back -/

section Moves

variable {b : Buffer} {key : Key} {passed low : LSN}

theorem first_release : (b.release passed).first key = b.first key := by
  cases waiting : b.pending[key]? with
  | none =>
    rw [first, first, (release_kept fun p held => by rw [waiting] at held; cases held).1]
  | some p =>
    by_cases later : p.readLSN > passed
    · rw [first, first,
        (release_kept fun q held => by rw [waiting] at held; cases held; exact later).1]
    · rw [first, first, (release_taken waiting later).1, Option.map_map]
      rfl

/-- A release moves no first position. -/
theorem OldestCovers.release (covers : b.OldestCovers) : (b.release passed).OldestCovers := by
  have same : ∀ todo : List (Key × PendingCompletion), ∀ b : Buffer, ∀ {low}, b.Covers low →
      (todo.foldl (releaseOne passed) b).Covers low := by
    intro todo
    induction todo with
    | nil => exact fun _ _ covers => covers
    | cons held todo ih =>
      intro b low covers
      refine ih _ ?_
      rw [releaseOne]
      split <;> exact covers
  intro k l found
  rw [first_release] at found
  exact same _ b (covers k l found)

theorem OldestCovers.foldl_holdOne {held : List HeldImage} (covers : b.OldestCovers) :
    (held.foldl holdOne b).OldestCovers := by
  induction held generalizing b with
  | nil => exact covers
  | cons h held ih => exact ih (b := b.holdOne h) covers.put

theorem OldestCovers.foldl_put {entries : List Entry} (covers : b.OldestCovers) :
    (entries.foldl Buffer.put b).OldestCovers := by
  induction entries generalizing b with
  | nil => exact covers
  | cons e entries ih => exact ih covers.put

/-- The loop of a drain lowers the least position to that of every entry that stays. -/
theorem covers_judge_foldl {fate : Key → Fate} {todo : List (Key × Entry)} {acc : Buffer × Batch} :
    (∀ low, acc.1.Covers low → (todo.foldl (judge fate) acc).1.Covers low) ∧
      ∀ entry ∈ todo, (fate entry.1).leaves = false →
        (todo.foldl (judge fate) acc).1.Covers entry.2.firstLSN := by
  induction todo generalizing acc with
  | nil => exact ⟨fun _ covers => covers, fun _ member => nomatch member⟩
  | cons entry todo ih =>
    obtain ⟨k, e⟩ := entry
    obtain ⟨b, batch⟩ := acc
    obtain ⟨carry, listed⟩ := @ih (judge fate (b, batch) (k, e))
    rw [List.foldl_cons]
    refine ⟨fun low covers => carry low ?_, fun entry member stays => ?_⟩
    · rw [judge]
      cases fate k <;> first | exact covers.trackOldest | exact covers
    · rcases List.mem_cons.mp member with rfl | deeper
      · refine carry _ ?_
        rw [judge]
        cases decided : fate k <;> simp only [decided, Fate.leaves, Bool.true_eq_false] at stays <;>
          exact covers_trackOldest
      · exact listed entry deeper stays

/-- **A drain's new minimum covers every entry it keeps.** -/
theorem oldestCovers_drain {pos : Position} {snap : Snapshot} :
    (b.drain pos snap).1.OldestCovers := by
  intro k l found
  obtain ⟨e, stored, rfl⟩ := Option.map_eq_some_iff.mp found
  rw [entries_drain] at stored
  split at stored
  · cases stored
  next stays =>
    have member := ExtTreeMap.mem_toList_iff_getElem?_eq_some.mpr stored
    exact covers_judge_foldl.2 (k, e) member (Bool.not_eq_true _ ▸ stays)

/-- **A batch goes back as it was drained**: requeueing it is not refused, and restores every entry
and completion that the drain did not discard. -/
theorem requeue_drain (b : Buffer) (pos : Position) (snap : Snapshot) :
    ∃ back, (b.drain pos snap).1.requeue (b.drain pos snap).2.entries = .ok back ∧
      ∀ key : Key, back.under key =
        if b.fate pos snap key = .discarded then (none, none) else b.under key := by
  have free : ∀ e ∈ (b.drain pos snap).2.entries, (b.drain pos snap).1.entries[e.key]? = none := by
    intro e member
    rw [entries_drain, (mem_drain.mp member).2]
    rfl
  -- what leaves waits for no completion
  have quiet : ∀ key, (b.fate pos snap key).leaves = true → b.pending[key]? = none := by
    intro key leaves
    by_contra waits
    have held : b.pending.contains key = true := by
      rw [ExtTreeMap.contains_eq_isSome_getElem?]
      exact Option.isSome_iff_ne_none.mpr waits
    rw [fate, if_pos held] at leaves
    cases leaves
  refine ⟨_, requeue_eq free, fun key => ?_⟩
  by_cases drained : ∃ e ∈ (b.drain pos snap).2.entries, e.key = key
  · obtain ⟨e, member, rfl⟩ := drained
    obtain ⟨stored, flushed⟩ := mem_drain.mp member
    obtain ⟨entry, none⟩ := foldl_put_of_mem (b := (b.drain pos snap).1) drain_distinct member
    rw [under, under, entry, none, stored, flushed, quiet e.key (by rw [flushed]; rfl)]
    rfl
  · have apart := foldl_put_of_not_mem (b := (b.drain pos snap).1)
      fun e member same => drained ⟨e, member, same⟩
    rw [under, under, apart.1, apart.2, entries_drain, pending_drain]
    cases judged : b.fate pos snap key with
    | discarded => simp [quiet key (by rw [judged]; rfl), Fate.leaves]
    | flushed =>
      cases stored : b.entries[key]? with
      | none => simp
      | some e =>
        have own := b.keyed key e stored
        exact absurd ⟨e, mem_drain.mpr (own ▸ ⟨stored, judged⟩), own⟩ drained
    | _ => rfl

end Moves

end Buffer

end PgSprite.Applier
