/-
**Hold, Release and Requeue: entries that go back into the buffer.**

A flush hands back the images it completed but did not write, each with the position of its read.
`hold` buffers them with the completion pending; `release` lets a completion in once the stream has
passed its read; `requeue` puts back a batch the flush could not apply. Each is a loop over keys
that writes only the key it is at:

* `foldl_holdOne_of_mem`, `foldl_holdOne_of_not_mem`;
* `entries_release_eq_some`, `pending_release_eq_some`;
* `foldl_put_of_mem`, `foldl_put_of_not_mem`.
-/

import PgSprite.Applier.Buffer
import PgSprite.Lib.KeyedFold

namespace PgSprite.Applier

open Std PgSprite.Decode PgSprite.Lib

/-- An image a flush did not write: a moved image it completed, or an unmoved one whose shadow row
was absent. -/
structure HeldImage where
  entry : Entry
  completed : List Column := []
  /-- The read was of the source row under the key, not of the old key's shadow row. -/
  fromSource : Bool := false
  /-- The WAL insert position at the read. -/
  readLSN : LSN
  deriving DecidableEq, Repr

/-- The completion as the buffer keeps it: a shadow row's values stay in the shadow's form. -/
def HeldImage.completion (h : HeldImage) : PendingCompletion :=
  { completed := if h.fromSource then h.completed else inShadowForm h.completed
    readLSN := h.readLSN }

namespace Buffer

/-- Buffers one held image with its completion pending. -/
def holdOne (b : Buffer) (h : HeldImage) : Buffer :=
  (b.put h.entry).setPending h.entry.key h.completion ⟨h.entry, by simp⟩

/-- Puts the images a flush held back into the buffer; a key already buffered is refused. -/
def hold (b : Buffer) (held : List HeldImage) : Except Violation Buffer :=
  match held.find? (fun h => b.entries.contains h.entry.key) with
  | some h => .error (.holdTaken h.entry.key)
  | none => .ok (held.foldl holdOne b)

/-- Takes one completion into its image once the stream has passed the read. -/
def releaseOne (passed : LSN) (b : Buffer) (held : Key × PendingCompletion) : Buffer :=
  if held.2.readLSN > passed then b
  else
    (b.modify held.1 (fun e => { e with columns := fill e.columns held.2.completed })
      fun _ => ⟨rfl, rfl⟩).dropPending held.1

/-- The stream has delivered every change committed at or below `passed`. -/
def release (b : Buffer) (passed : LSN) : Buffer :=
  b.pending.toList.foldl (releaseOne passed) b

/-- Puts a drained batch back into the buffer; a key already buffered is refused. -/
def requeue (b : Buffer) (entries : List Entry) : Except Violation Buffer :=
  match entries.find? (fun e => b.entries.contains e.key) with
  | some e => .error (.requeueTaken e.key)
  | none => .ok (entries.foldl put b)

/-- What the buffer holds under a key: its entry and the completion pending for it. -/
def under (b : Buffer) (key : Key) : Option Entry × Option PendingCompletion :=
  (b.entries[key]?, b.pending[key]?)

/-! ### Held images -/

section Hold

variable {b after : Buffer} {held : List HeldImage} {h : HeldImage} {key : Key}

theorem hold_eq (free : ∀ h ∈ held, b.entries[h.entry.key]? = none) :
    b.hold held = .ok (held.foldl holdOne b) := by
  have none : held.find? (fun h => b.entries.contains h.entry.key) = none :=
    List.find?_eq_none.mpr fun h member => by
      rw [ExtTreeMap.contains_eq_isSome_getElem?, free h member]
      simp
  rw [hold, none]

theorem hold_ok (holds : b.hold held = .ok after) : after = held.foldl holdOne b := by
  rw [hold] at holds
  split at holds
  · cases holds
  · cases holds
    rfl

theorem under_holdOne_of_ne (b : Buffer) (h : HeldImage) (key : Key) (apart : h.entry.key ≠ key) :
    (b.holdOne h).under key = b.under key := by
  simp [holdOne, under, apart]

theorem foldl_holdOne_of_not_mem (outside : ∀ h ∈ held, h.entry.key ≠ key) :
    (held.foldl holdOne b).entries[key]? = b.entries[key]? ∧
      (held.foldl holdOne b).pending[key]? = b.pending[key]? :=
  Prod.mk.injEq .. ▸ foldl_frame under_holdOne_of_ne outside b

/-- A held image is stored again, with its completion. -/
theorem foldl_holdOne_of_mem (distinct : (held.map fun h => h.entry.key).Nodup)
    (member : h ∈ held) :
    (held.foldl holdOne b).entries[h.entry.key]? = some h.entry ∧
      (held.foldl holdOne b).pending[h.entry.key]? = some h.completion := by
  have own : ∀ (b : Buffer) (h : HeldImage),
      (b.holdOne h).under h.entry.key = (some h.entry, some h.completion) := fun b h => by
    simp [holdOne, under]
  exact Prod.mk.injEq .. ▸ foldl_own under_holdOne_of_ne
    (fun h _ => (some h.entry, some h.completion)) own distinct member b

end Hold

/-! ### Released completions -/

section Release

variable {b : Buffer} {passed : LSN} {key : Key} {p : PendingCompletion}

theorem under_releaseOne_of_ne (b : Buffer) (held : Key × PendingCompletion) (key : Key)
    (apart : held.1 ≠ key) : (releaseOne passed b held).under key = b.under key := by
  rw [releaseOne]
  split
  · rfl
  · simp [under, apart]

/-- What taking a completion, once its read is passed, makes of a key's entry and completion. -/
def taken (passed : LSN) (held : Key × PendingCompletion)
    (under : Option Entry × Option PendingCompletion) : Option Entry × Option PendingCompletion :=
  if held.2.readLSN > passed then under
  else (under.1.map fun e => { e with columns := fill e.columns held.2.completed }, none)

/-- What a release makes of a held key is what its own turn in the loop does. -/
theorem under_release (passed : LSN) (waiting : b.pending[key]? = some p) :
    (b.release passed).under key = taken passed (key, p) (b.under key) := by
  have own : ∀ (b : Buffer) (held : Key × PendingCompletion),
      (releaseOne passed b held).under held.1 = taken passed held (b.under held.1) :=
    fun b held => by
      rw [releaseOne, taken]
      split <;> simp [under]
  have distinct : (b.pending.toList.map Prod.fst).Nodup := by
    rw [ExtTreeMap.map_fst_toList_eq_keys]
    exact ExtTreeMap.nodup_keys
  exact foldl_own under_releaseOne_of_ne (taken passed) own distinct
    (ExtTreeMap.mem_toList_iff_getElem?_eq_some.mpr waiting) b

/-- A key whose completion was read later keeps its entry and completion. -/
theorem release_kept (kept : ∀ p, b.pending[key]? = some p → p.readLSN > passed) :
    (b.release passed).entries[key]? = b.entries[key]? ∧
      (b.release passed).pending[key]? = b.pending[key]? := by
  rw [← Prod.mk.injEq]
  cases waiting : b.pending[key]? with
  | none =>
    refine waiting ▸ foldl_frame under_releaseOne_of_ne (fun held member same => ?_) b
    rw [ExtTreeMap.mem_toList_iff_getElem?_eq_some, same, waiting] at member
    cases member
  | some p =>
    have stays := under_release passed waiting
    rwa [taken, if_pos (kept p waiting), under, under, waiting] at stays

theorem release_taken (waiting : b.pending[key]? = some p) (passes : ¬ p.readLSN > passed) :
    (b.release passed).entries[key]?
        = b.entries[key]?.map (fun e => { e with columns := fill e.columns p.completed }) ∧
      (b.release passed).pending[key]? = none := by
  have takes := under_release passed waiting
  rwa [taken, if_neg passes, under, Prod.mk.injEq] at takes

/-- **The completions still pending are those whose read the stream has not passed.** -/
theorem pending_release_eq_some :
    (b.release passed).pending[key]? = some p ↔
      b.pending[key]? = some p ∧ p.readLSN > passed := by
  cases waiting : b.pending[key]? with
  | none =>
    rw [(release_kept fun p held => by rw [waiting] at held; cases held).2, waiting]
    simp
  | some q =>
    by_cases later : q.readLSN > passed
    · rw [(release_kept fun p held => by rw [waiting] at held; cases held; exact later).2,
        waiting, Option.some.injEq]
      exact ⟨fun same => ⟨same, same ▸ later⟩, And.left⟩
    · rw [(release_taken waiting later).2, Option.some.injEq]
      constructor
      · intro absent
        cases absent
      · rintro ⟨rfl, passed⟩
        exact absurd passed later

/-- **Every entry after a release is an entry before it, its markers filled from a completion
whose read the stream has passed if one was pending.** -/
theorem entries_release_eq_some {e : Entry} :
    (b.release passed).entries[key]? = some e ↔
      (b.entries[key]? = some e ∧ ∀ p, b.pending[key]? = some p → p.readLSN > passed) ∨
      ∃ p before, b.pending[key]? = some p ∧ p.readLSN ≤ passed ∧
        b.entries[key]? = some before ∧
        e = { before with columns := fill before.columns p.completed } := by
  cases waiting : b.pending[key]? with
  | none =>
    rw [(release_kept fun p held => by rw [waiting] at held; cases held).1]
    simp
  | some q =>
    by_cases later : q.readLSN > passed
    · rw [(release_kept fun p held => by rw [waiting] at held; cases held; exact later).1]
      simp only [Option.some.injEq]
      refine ⟨fun stored => Or.inl ⟨stored, fun p same => same ▸ later⟩, ?_⟩
      rintro (⟨stored, -⟩ | ⟨p, before, rfl, taken, -⟩)
      · exact stored
      · exact absurd later (by grind)
    · rw [(release_taken waiting later).1, Option.map_eq_some_iff]
      constructor
      · rintro ⟨before, stored, rfl⟩
        exact Or.inr ⟨q, before, rfl, by grind, stored, rfl⟩
      · rintro (⟨-, all⟩ | ⟨p, before, same, -, stored, rfl⟩)
        · exact absurd (all q rfl) later
        · cases same
          exact ⟨before, stored, rfl⟩

end Release

/-! ### Requeued entries -/

section Requeue

variable {b after : Buffer} {entries : List Entry} {e : Entry} {key : Key}

theorem requeue_eq (free : ∀ e ∈ entries, b.entries[e.key]? = none) :
    b.requeue entries = .ok (entries.foldl put b) := by
  have none : entries.find? (fun e => b.entries.contains e.key) = none :=
    List.find?_eq_none.mpr fun e member => by
      rw [ExtTreeMap.contains_eq_isSome_getElem?, free e member]
      simp
  rw [requeue, none]

theorem requeue_ok (requeues : b.requeue entries = .ok after) : after = entries.foldl put b := by
  rw [requeue] at requeues
  split at requeues
  · cases requeues
  · cases requeues
    rfl

theorem under_put_of_ne (b : Buffer) (e : Entry) (key : Key) (apart : e.key ≠ key) :
    (b.put e).under key = b.under key := by
  simp [under, apart]

theorem foldl_put_of_not_mem (outside : ∀ e ∈ entries, e.key ≠ key) :
    (entries.foldl put b).entries[key]? = b.entries[key]? ∧
      (entries.foldl put b).pending[key]? = b.pending[key]? :=
  Prod.mk.injEq .. ▸ foldl_frame under_put_of_ne outside b

theorem foldl_put_of_mem (distinct : (entries.map Entry.key).Nodup) (member : e ∈ entries) :
    (entries.foldl put b).entries[e.key]? = some e ∧
      (entries.foldl put b).pending[e.key]? = none := by
  have own : ∀ (b : Buffer) (e : Entry), (b.put e).under e.key = (some e, none) := fun b e => by
    simp [under]
  exact Prod.mk.injEq .. ▸ foldl_own under_put_of_ne (fun e _ => (some e, none)) own distinct
    member b

end Requeue

end Buffer

end PgSprite.Applier
