/-
**The buffer's derived structures stay exact.**

The buffer keeps beside its entries the index of the images that left each key, the completions held
images wait for and the least position owed, each updated by the writes as they go. A call of the
buffer is a `Program`: its statements in the order of the source over a buffer that a refusal leaves
as the statements before it made it.

* `Call.run_eq` — every refusal comes before the first write;
* `Sound.put`, `OldestExact.put`, … — what each write keeps;
* `indexes_exact` — along every sequence of calls that hand back what a drain can hand out, the
  derived structures are what the entries say;
* `hold_twice` — they are not after a hold that names one key twice.
-/

import PgSprite.Applier.Events
import PgSprite.Applier.Owed
import PgSprite.Lib.Run

namespace PgSprite.Applier

open Std PgSprite.Decode PgSprite.Copier PgSprite.Lib

/-! ### The calls as programs -/

/-- Statements over a buffer, any of which may refuse; what the earlier ones wrote stays. -/
abbrev Program := ExceptT Violation (StateM Buffer)

namespace Program

/-- What a program returns, and the buffer it leaves. -/
def exec {α : Type} (p : Program α) (b : Buffer) : Except Violation α × Buffer := p.run.run b

/-- Refuses unless a condition holds. -/
def refuseIf (refused : Bool) (v : Violation) : Program Unit := if refused then throw v else pure ()

def addInsert (ev : ChangeEvent) : Program Unit := do
  let cur := (← get).entries[ev.key]?
  refuseIf (cur.any fun e => e.kind = .image) (.insertOverImage ev.key)
  ev.columns.forM fun c => refuseIf (!c.present) (.insertOmits ev.key c.name)
  modify fun b => b.markOldKeyReused ev.key none
  modify fun b => b.put
    { key := ev.key, kind := .image, columns := ev.columns
      firstLSN := Buffer.firstLSN ev.delivered [cur], xid := ev.xid }

def addUpdate (ev : ChangeEvent) : Program Unit := do
  match (← get).entries[ev.key]? with
  | none =>
    modify fun b => b.markOldKeyReused ev.key none
    modify fun b => b.put
      { key := ev.key, kind := .image, columns := ev.columns
        firstLSN := ev.delivered, xid := ev.xid }
  | some cur =>
    refuseIf (cur.kind = .deleteMarker) (.updateOverDelete ev.key)
    modify fun b => b.modify ev.key
      (fun e => { e with columns := overlay e.columns ev.columns, xid := ev.xid })
      (Buffer.keeps_overlay ev)

def addKeyMove (ev : ChangeEvent) (oldKey : Key) : Program Unit := do
  let cur := (← get).entries[ev.key]?
  refuseIf (cur.any fun e => e.kind = .image) (.moveOntoImage ev.key oldKey)
  let origin := (← get).entries[oldKey]?
  refuseIf (origin.any fun e => e.kind = .deleteMarker) (.moveFromDeleted ev.key oldKey)
  modify fun b => b.markOldKeyReused ev.key (origin.map fun _ => oldKey)
  modify fun b => b.put (Buffer.movedImage ev oldKey cur origin)
  modify fun b => b.put
    { key := oldKey, kind := .deleteMarker
      firstLSN := Buffer.firstLSN ev.delivered [origin], xid := ev.xid }

def add (ev : ChangeEvent) : Program Unit :=
  match ev.kind with
  | .insert => addInsert ev
  | .update =>
    match ev.oldKey with
    | some oldKey => if oldKey ≠ ev.key then addKeyMove ev oldKey else addUpdate ev
    | none => addUpdate ev
  | .delete => modify fun b => b.addDelete ev

def hold (held : List HeldImage) : Program Unit := do
  held.forM fun h => do
    refuseIf ((← get).entries.contains h.entry.key) (.holdTaken h.entry.key)
  held.forM fun h => modify fun b => b.holdOne h

def requeue (entries : List Entry) : Program Unit := do
  entries.forM fun e => do
    refuseIf ((← get).entries.contains e.key) (.requeueTaken e.key)
  entries.forM fun e => modify fun b => b.put e

/-- What a pure merge comes to as a program's outcome: a refusal leaves the buffer as it was. -/
def outcome (b : Buffer) : Except Violation Buffer → Except Violation Unit × Buffer
  | .ok after => (.ok (), after)
  | .error v => (.error v, b)

section Runs

variable {b : Buffer} {α β : Type}

@[simp]
theorem exec_bind (p : Program α) (f : α → Program β) :
    (p >>= f).exec b =
      match p.exec b with
      | (.ok a, after) => (f a).exec after
      | (.error v, after) => (.error v, after) := by
  show ((p.run >>= ExceptT.bindCont f).run b) = _
  show (ExceptT.bindCont f (p.exec b).1).run (p.exec b).2 = _
  rcases p.exec b with ⟨_ | _, after⟩
  · rfl
  · rfl

@[simp]
theorem exec_get : (get : Program Buffer).exec b = (.ok b, b) := rfl

theorem exec_refuseIf (refused : Bool) (v : Violation) :
    (refuseIf refused v).exec b = if refused then (.error v, b) else (.ok (), b) := by
  unfold refuseIf
  cases refused
  · rfl
  · rfl

theorem exec_refuseIf_bind (refused : Bool) (v : Violation) (rest : Unit → Program α) :
    (refuseIf refused v >>= rest).exec b = if refused then (.error v, b) else (rest ()).exec b := by
  rw [exec_bind, exec_refuseIf]
  cases refused
  · rfl
  · rfl

/-- A loop of checks stops at the first item refused, and writes nothing. -/
theorem exec_checks {check : β → Program Unit} {refused : β → Bool} {v : β → Violation}
    (checks : ∀ item, (check item).exec b =
      if refused item then (.error (v item), b) else (.ok (), b))
    (items : List β) (rest : Unit → Program α) :
    (items.forM check >>= rest).exec b =
      match items.find? refused with
      | some item => (.error (v item), b)
      | none => (rest ()).exec b := by
  have loop : (items.forM check).exec b =
      match items.find? refused with
      | some item => (.error (v item), b)
      | none => (.ok (), b) := by
    induction items with
    | nil => rfl
    | cons item items ih =>
      rw [List.find?_cons]
      show (check item >>= fun _ => items.forM check).exec b = _
      rw [exec_bind, checks]
      cases refused item
      · exact ih
      · rfl
  rw [exec_bind, loop]
  cases items.find? refused
  · rfl
  · rfl

theorem exec_writes (write : Buffer → β → Buffer) (items : List β) :
    (items.forM fun item => modify fun b => write b item : Program Unit).exec b =
      (.ok (), items.foldl write b) := by
  induction items generalizing b with
  | nil => rfl
  | cons item items ih => exact ih (b := write b item)

theorem exec_addInsert (ev : ChangeEvent) :
    (addInsert ev).exec b = outcome b (b.addInsert ev) := by
  unfold addInsert Buffer.addInsert
  rw [exec_bind, exec_get]
  dsimp only
  rw [exec_refuseIf_bind, exec_checks fun c => exec_refuseIf (!c.present) _]
  split
  · rfl
  · cases ev.columns.find? (fun c => !c.present)
    · rfl
    · rfl

theorem exec_addUpdate (ev : ChangeEvent) :
    (addUpdate ev).exec b = outcome b (b.addUpdate ev) := by
  unfold addUpdate Buffer.addUpdate
  rw [exec_bind, exec_get]
  dsimp only
  cases b.entries[ev.key]? with
  | none => rfl
  | some cur =>
    dsimp only
    rw [exec_refuseIf_bind]
    by_cases deleted : cur.kind = .deleteMarker
    · simp only [deleted, decide_true, if_true]
      rfl
    · simp only [deleted, decide_false, if_false]
      rfl

theorem exec_addKeyMove (ev : ChangeEvent) (oldKey : Key) :
    (addKeyMove ev oldKey).exec b = outcome b (b.addKeyMove ev oldKey) := by
  unfold addKeyMove Buffer.addKeyMove
  rw [exec_bind, exec_get]
  dsimp only
  rw [exec_refuseIf_bind]
  split
  · rfl
  · rw [exec_bind, exec_get]
    dsimp only
    rw [exec_refuseIf_bind]
    split
    · rfl
    · rfl

theorem exec_add (ev : ChangeEvent) : (add ev).exec b = outcome b (b.add ev) := by
  unfold add Buffer.add
  cases ev.kind with
  | insert => exact exec_addInsert ev
  | update =>
    cases ev.oldKey with
    | none => exact exec_addUpdate ev
    | some oldKey =>
      dsimp only
      split
      · exact exec_addKeyMove ev oldKey
      · exact exec_addUpdate ev
  | delete => rfl

theorem exec_check (key : β → Key) (v : β → Violation) (item : β) :
    (do refuseIf ((← get).entries.contains (key item)) (v item) : Program Unit).exec b =
      if b.entries.contains (key item) then (.error (v item), b) else (.ok (), b) := by
  rw [exec_bind, exec_get]
  exact exec_refuseIf _ _

theorem exec_hold (held : List HeldImage) : (hold held).exec b = outcome b (b.hold held) := by
  unfold hold Buffer.hold
  rw [exec_checks (exec_check _ _), exec_writes]
  cases held.find? (fun h => b.entries.contains h.entry.key)
  · rfl
  · rfl

theorem exec_requeue (entries : List Entry) :
    (requeue entries).exec b = outcome b (b.requeue entries) := by
  unfold requeue Buffer.requeue
  rw [exec_checks (exec_check _ _), exec_writes]
  cases entries.find? (fun e => b.entries.contains e.key)
  · rfl
  · rfl

end Runs

end Program

/-- A call of the buffer. -/
inductive Call where
  | add (ev : ChangeEvent)
  | drain (pos : Position) (snap : Snapshot)
  | hold (held : List HeldImage)
  | release (passed : LSN)
  | requeue (entries : List Entry)

namespace Call

def program : Call → Program Unit
  | add ev => Program.add ev
  | drain pos snap => modify fun b => (b.drain pos snap).1
  | hold held => Program.hold held
  | release passed => modify fun b => b.release passed
  | requeue entries => Program.requeue entries

/-- What a call answers, and the buffer it leaves. -/
def run (c : Call) (b : Buffer) : Except Violation Unit × Buffer := c.program.exec b

/-- The call on buffers as values. -/
def merged (b : Buffer) : Call → Except Violation Buffer
  | add ev => b.add ev
  | drain pos snap => .ok (b.drain pos snap).1
  | hold held => b.hold held
  | release passed => .ok (b.release passed)
  | requeue entries => b.requeue entries

/-- **Every refusal comes before the first write.** -/
theorem run_eq (c : Call) (b : Buffer) : c.run b = Program.outcome b (c.merged b) := by
  cases c with
  | add ev => exact Program.exec_add ev
  | drain pos snap => rfl
  | hold held => exact Program.exec_hold held
  | release passed => rfl
  | requeue entries => exact Program.exec_requeue entries

theorem unchanged_of_error {c : Call} {b : Buffer} {v : Violation}
    (refused : (c.run b).1 = .error v) : (c.run b).2 = b := by
  rw [run_eq] at refused ⊢
  cases answer : c.merged b with
  | error v => rfl
  | ok after =>
    rw [answer] at refused
    cases refused

end Call

/-! ### What the writes keep -/

/-- A delete marker carries no columns and no origin. -/
def Entry.Bare (e : Entry) : Prop := e.kind = .deleteMarker → e.columns = [] ∧ e.oldKey = none

/-- No key is indexed with an empty set. -/
def NoEmptySet (movedFrom : MovedFrom) : Prop :=
  ∀ (old : Key) (images : ExtTreeSet Key), movedFrom[old]? = some images → ∃ key, key ∈ images

theorem exists_mem_of_nonempty {images : ExtTreeSet Key} (nonempty : ¬ images.isEmpty = true) :
    ∃ key, key ∈ images := by
  rw [← ExtTreeSet.isEmpty_toList, List.isEmpty_iff] at nonempty
  obtain ⟨key, among⟩ := List.exists_mem_of_ne_nil _ nonempty
  exact ⟨key, ExtTreeSet.mem_toList.mp among⟩

/-- A set that the removal leaves empty leaves the index. -/
theorem NoEmptySet.unindex {movedFrom : MovedFrom} (inhabited : NoEmptySet movedFrom)
    (replaced : Option Entry) : NoEmptySet (unindex movedFrom replaced) := by
  intro old images found
  cases replaced with
  | none => exact inhabited old images found
  | some e =>
    rw [Applier.unindex] at found
    cases origin : e.oldKey with
    | none =>
      rw [origin] at found
      exact inhabited old images found
    | some left =>
      rw [origin] at found
      dsimp only at found
      by_cases empty : ((movedFrom.getD left ∅).erase e.key).isEmpty = true
      · rw [if_pos empty, ExtTreeMap.getElem?_erase] at found
        split at found
        · cases found
        · exact inhabited old images found
      · rw [if_neg empty, ExtTreeMap.getElem?_insert] at found
        split at found
        · cases found
          exact exists_mem_of_nonempty empty
        · exact inhabited old images found

theorem NoEmptySet.reindex {movedFrom : MovedFrom} (inhabited : NoEmptySet movedFrom) (e : Entry) :
    NoEmptySet (reindex movedFrom e) := by
  intro old images found
  unfold Applier.reindex at found
  cases origin : e.oldKey with
  | none =>
    rw [origin] at found
    exact inhabited old images found
  | some left =>
    rw [origin] at found
    dsimp only at found
    rw [ExtTreeMap.getElem?_insert] at found
    split at found
    · cases found
      exact ⟨e.key, ExtTreeSet.mem_insert_self⟩
    · exact inhabited old images found

namespace Buffer

/-- No index set is empty, a delete marker is bare, and a completion is pending for an image. -/
structure Sound (b : Buffer) : Prop where
  inhabited : NoEmptySet b.movedFrom
  bare : ∀ (key : Key) (e : Entry), b.entries[key]? = some e → e.Bare
  held : ∀ (key : Key) (p : PendingCompletion) (e : Entry), b.pending[key]? = some p →
    b.entries[key]? = some e → e.kind = .image

/-- The oldest pending position is some entry's first. -/
def Attained (b : Buffer) : Prop := b.hasOldest = true → ∃ key, b.first key = some b.oldest

/-- The derived structures say what the entries say. -/
structure Exact (b : Buffer) : Prop where
  sound : b.Sound
  covered : b.OldestCovers
  attained : b.Attained

section Keeps

variable {b : Buffer} {e : Entry} {key : Key} {lsn : LSN} {f : Entry → Entry}

theorem movedFrom_trackOldest : (b.trackOldest lsn).movedFrom = b.movedFrom := by
  unfold trackOldest
  split <;> rfl

theorem Sound.trackOldest (sound : b.Sound) : (b.trackOldest lsn).Sound where
  inhabited := by
    rw [movedFrom_trackOldest]
    exact sound.inhabited
  bare := by
    rw [entries_trackOldest]
    exact sound.bare
  held := by
    rw [entries_trackOldest, pending_trackOldest]
    exact sound.held

theorem Sound.put (sound : b.Sound) (bare : e.Bare) : (b.put e).Sound where
  inhabited := by
    unfold Buffer.put
    rw [movedFrom_trackOldest]
    exact (sound.inhabited.unindex _).reindex e
  bare k stored found := by
    rw [entries_put] at found
    split at found
    · cases found
      exact bare
    · exact sound.bare k stored found
  held k p stored waiting found := by
    rw [pending_put] at waiting
    rw [entries_put] at found
    split at waiting
    · cases waiting
    next apart =>
      rw [if_neg apart] at found
      exact sound.held k p stored waiting found

theorem Sound.remove (sound : b.Sound) : (b.remove key).Sound where
  inhabited := sound.inhabited.unindex _
  bare k stored found := by
    rw [entries_remove] at found
    split at found
    · cases found
    · exact sound.bare k stored found
  held k p stored waiting found := by
    rw [entries_remove] at found
    rw [pending_remove] at waiting
    split at waiting
    · cases waiting
    next apart =>
      rw [if_neg apart] at found
      exact sound.held k p stored waiting found

theorem Sound.dropPending (sound : b.Sound) : (b.dropPending key).Sound where
  inhabited := sound.inhabited
  bare := sound.bare
  held k p stored waiting found := by
    rw [pending_dropPending] at waiting
    split at waiting
    · cases waiting
    · exact sound.held k p stored waiting found

/-- A write that keeps an entry's kind, and a marker bare, keeps the buffer sound. -/
theorem Sound.modify {keeps} (sound : b.Sound) (kind : ∀ e, (f e).kind = e.kind)
    (bare : ∀ e, b.entries[key]? = some e → (f e).Bare) : (b.modify key f keeps).Sound where
  inhabited := sound.inhabited
  bare k stored found := by
    rw [entries_modify] at found
    split at found
    next same =>
      subst same
      obtain ⟨before, there, rfl⟩ := Option.map_eq_some_iff.mp found
      exact bare before there
    next => exact sound.bare k stored found
  held k p stored waiting found := by
    rw [pending_modify] at waiting
    rw [entries_modify] at found
    split at found
    next same =>
      obtain ⟨before, there, rfl⟩ := Option.map_eq_some_iff.mp found
      rw [kind]
      exact sound.held k p before waiting there
    next => exact sound.held k p stored waiting found

theorem Sound.setPending {completion stored} (sound : b.Sound)
    (image : ∀ e, b.entries[key]? = some e → e.kind = .image) :
    (b.setPending key completion stored).Sound where
  inhabited := sound.inhabited
  bare := sound.bare
  held k p e waiting found := by
    rw [pending_setPending] at waiting
    split at waiting
    next same => exact image e (same ▸ found)
    next => exact sound.held k p e waiting found

/-! The least position owed -/

theorem oldest_put : (b.put e).oldest =
    if !b.hasOldest || e.firstLSN < b.oldest then e.firstLSN else b.oldest := by
  unfold Buffer.put Buffer.trackOldest
  dsimp only
  split <;> rfl

/-- An entry no later than the one it replaces keeps the least position attained. -/
theorem Attained.put (attained : b.Attained)
    (lower : ∀ before, b.first e.key = some before → e.firstLSN ≤ before) : (b.put e).Attained := by
  intro _
  rw [oldest_put]
  split
  next => exact ⟨e.key, by rw [first_put, if_pos rfl]⟩
  next kept =>
    simp only [Bool.or_eq_true, Bool.not_eq_true', decide_eq_true_eq, not_or,
      Bool.not_eq_false] at kept
    obtain ⟨k, least⟩ := attained kept.1
    by_cases same : e.key = k
    · have equal : e.firstLSN = b.oldest := by
        have := lower b.oldest (same ▸ least)
        grind
      exact ⟨e.key, by rw [first_put, if_pos rfl, equal]⟩
    · exact ⟨k, by rw [first_put, if_neg same, least]⟩

theorem Attained.congr {after : Buffer} (attained : b.Attained)
    (first : ∀ k, after.first k = b.first k)
    (oldest : after.oldest = b.oldest ∧ after.hasOldest = b.hasOldest) : after.Attained := by
  intro has
  rw [oldest.2] at has
  obtain ⟨k, least⟩ := attained has
  exact ⟨k, by rw [first, oldest.1, least]⟩

/-! The writes together -/

theorem Exact.put (was : b.Exact) (bare : e.Bare)
    (lower : ∀ before, b.first e.key = some before → e.firstLSN ≤ before) : (b.put e).Exact where
  sound := was.sound.put bare
  covered := was.covered.put
  attained := was.attained.put lower

theorem Exact.modify {keeps} (was : b.Exact) (kind : ∀ e, (f e).kind = e.kind)
    (first : ∀ e, (f e).firstLSN = e.firstLSN)
    (bare : ∀ e, b.entries[key]? = some e → (f e).Bare) : (b.modify key f keeps).Exact where
  sound := was.sound.modify kind bare
  covered := was.covered.modify first
  attained := was.attained.congr (fun _ => first_modify first) ⟨rfl, rfl⟩

theorem Exact.dropPending (was : b.Exact) : (b.dropPending key).Exact where
  sound := was.sound.dropPending
  covered := was.covered
  attained := was.attained

theorem Exact.markReused {mover : Option Key} (was : b.Exact) : (markReused mover b key).Exact := by
  unfold Buffer.markReused
  split
  · exact was
  · exact (was.modify (f := flagReused) (fun _ => rfl) (fun _ => rfl)
      fun e stored => was.sound.bare key e stored).dropPending

theorem Exact.markOldKeyReused {mover : Option Key} (was : b.Exact) :
    (b.markOldKeyReused key mover).Exact := by
  have loop : ∀ (images : List Key) (b : Buffer), b.Exact →
      (images.foldl (Buffer.markReused mover) b).Exact := by
    intro images
    induction images with
    | nil => exact fun _ was => was
    | cons image images ih => exact fun _ was => ih _ was.markReused
  exact loop _ b was

end Keeps

/-! ### What the calls keep -/

section Calls

variable {b after : Buffer} {ev : ChangeEvent} {e : Entry}

theorem exact_new : new.Exact where
  sound := ⟨fun _ _ found => by simp [new] at found, fun _ _ found => by simp [new] at found,
    fun _ _ _ waiting => by simp [new] at waiting⟩
  covered := oldestCovers_new
  attained has := nomatch has

theorem bare_image (image : e.kind = .image) : e.Bare := by
  intro marker
  rw [image] at marker
  cases marker

theorem lower_firstLSN {key : Key} {replaced : List (Option Entry)} {lsn before : LSN}
    (member : b.entries[key]? ∈ replaced) (found : b.first key = some before) :
    firstLSN lsn replaced ≤ before := by
  have lowers : Lowers lsn (b.first key) (some (firstLSN lsn replaced)) := lowers_firstLSN member
  rw [found] at lowers
  exact lowers

/-- Every merge keeps the buffer exact. -/
theorem Exact.add (was : b.Exact) (added : b.add ev = .ok after) : after.Exact := by
  cases adds_of_add added with
  | insert =>
    refine was.markOldKeyReused.put (bare_image rfl) fun before found => ?_
    rw [first_markOldKeyReused] at found
    exact lower_firstLSN (List.mem_singleton.mpr rfl) found
  | start _ _ absent =>
    refine was.markOldKeyReused.put (bare_image rfl) fun before found => ?_
    rw [first_markOldKeyReused, first_eq_none.mpr absent] at found
    cases found
  | overlay _ _ stored image =>
    refine was.modify (fun _ => rfl) (fun _ => rfl) fun e there => bare_image ?_
    rw [stored] at there
    cases there
    exact image
  | @move _ oldKey _ apart =>
    obtain ⟨keyed, bound⟩ := @movedImage_first ev oldKey b.entries[ev.key]? b.entries[oldKey]?
    obtain ⟨_, _, image, _⟩ := movedImage_fields ev oldKey b.entries[ev.key]? b.entries[oldKey]?
    refine (was.markOldKeyReused.put (bare_image image) fun before found => ?_).put
      (fun _ => ⟨rfl, rfl⟩) fun before found => ?_
    · rw [first_markOldKeyReused, keyed] at found
      rw [bound]
      exact lower_firstLSN List.mem_cons_self found
    · rw [first_put, keyed, if_neg (Ne.symm apart), first_markOldKeyReused] at found
      exact lower_firstLSN (List.mem_singleton.mpr rfl) found
  | delete =>
    exact was.put (fun _ => ⟨rfl, rfl⟩) fun before found =>
      lower_firstLSN (List.mem_singleton.mpr rfl) found

/-- Entries a drain can hand out: one of a key, and no marker with columns or an origin. -/
structure Drained (entries : List Entry) : Prop where
  distinct : (entries.map Entry.key).Nodup
  bare : ∀ e ∈ entries, e.Bare

/-- A loop of writes, each to a key of its own that holds nothing, keeps the buffer exact. -/
theorem Exact.foldl {α : Type} {write : Buffer → α → Buffer} {key : α → Key} {meets : α → Prop}
    (kept : ∀ b x, meets x → b.Exact → b.first (key x) = none → (write b x).Exact)
    (frame : ∀ b x k, key x ≠ k → (write b x).first k = b.first k) {items : List α}
    (was : b.Exact) (distinct : (items.map key).Nodup) (met : ∀ x ∈ items, meets x)
    (vacant : ∀ x ∈ items, b.first (key x) = none) : (items.foldl write b).Exact := by
  induction items generalizing b with
  | nil => exact was
  | cons x items ih =>
    rw [List.map_cons, List.nodup_cons] at distinct
    have here := List.mem_cons_self (a := x) (l := items)
    refine ih (kept b x (met x here) was (vacant x here)) distinct.2
      (fun y later => met y (List.mem_cons_of_mem x later)) fun y later => ?_
    rw [frame b x (key y) fun same => distinct.1 (List.mem_map.mpr ⟨y, later, same.symm⟩)]
    exact vacant y (List.mem_cons_of_mem x later)

theorem first_eq_none_of_contains {key : Key} (free : ¬ b.entries.contains key = true) :
    b.first key = none := by
  rw [first_eq_none]
  rw [ExtTreeMap.contains_eq_isSome_getElem?] at free
  simpa using free

/-- A drained batch goes back exactly. -/
theorem Exact.requeue {entries : List Entry} (was : b.Exact) (drained : Drained entries)
    (requeued : b.requeue entries = .ok after) : after.Exact := by
  have vacant : ∀ e ∈ entries, b.first e.key = none := by
    intro e among
    unfold Buffer.requeue at requeued
    split at requeued
    · cases requeued
    next free => exact first_eq_none_of_contains (List.find?_eq_none.mp free e among)
  rw [requeue_ok requeued]
  refine was.foldl (fun b e (bare : e.Bare) was free => was.put bare fun before found => ?_)
    (fun b e k apart => ?_) drained.distinct drained.bare vacant
  · rw [free] at found
    cases found
  · rw [first_put, if_neg apart]

/-- Held images of distinct keys go back exactly. -/
theorem Exact.hold {held : List HeldImage} (was : b.Exact)
    (distinct : (held.map fun h => h.entry.key).Nodup) (images : ∀ h ∈ held, h.entry.kind = .image)
    (holds : b.hold held = .ok after) : after.Exact := by
  have vacant : ∀ h ∈ held, b.first h.entry.key = none := by
    intro h among
    unfold Buffer.hold at holds
    split at holds
    · cases holds
    next free => exact first_eq_none_of_contains (List.find?_eq_none.mp free h among)
  rw [hold_ok holds]
  refine was.foldl (fun b h (image : h.entry.kind = .image) was free => ?_)
    (fun b h k apart => ?_) distinct images vacant
  · have put : (b.put h.entry).Exact := was.put (bare_image image) fun before found => by
      rw [free] at found
      cases found
    refine ⟨put.sound.setPending fun e found => ?_, put.covered, put.attained⟩
    rw [entries_put, if_pos rfl] at found
    cases found
    exact image
  · show (b.put h.entry).first k = b.first k
    rw [first_put, if_neg apart]

/-- Filling the held images changes none of the derived structures. -/
theorem Exact.release {passed : LSN} (was : b.Exact) : (b.release passed).Exact := by
  -- The entries the loop has still to fill stay the images they are.
  have loop : ∀ (todo : List (Key × PendingCompletion)) (b : Buffer), b.Exact →
      (∀ held ∈ todo, ∀ e, b.entries[held.1]? = some e → e.kind = .image) →
      (todo.foldl (releaseOne passed) b).Exact := by
    intro todo
    induction todo with
    | nil => exact fun _ was _ => was
    | cons held todo ih =>
      intro b was images
      have filled : (releaseOne passed b held).Exact := by
        unfold releaseOne
        split
        · exact was
        · exact (was.modify (f := fun e => { e with columns := fill e.columns held.2.completed })
            (fun _ => rfl) (fun _ => rfl) fun e stored =>
              bare_image (images held List.mem_cons_self e stored)).dropPending
      refine ih _ filled fun other later e stored => ?_
      unfold releaseOne at stored
      split at stored
      · exact images other (List.mem_cons_of_mem _ later) e stored
      · rw [entries_dropPending, entries_modify] at stored
        split at stored
        · obtain ⟨before, there, rfl⟩ := Option.map_eq_some_iff.mp stored
          exact images other (List.mem_cons_of_mem _ later) before there
        · exact images other (List.mem_cons_of_mem _ later) e stored
  refine loop _ b was fun held among e stored => ?_
  exact was.sound.held held.1 held.2 e (ExtTreeMap.mem_toList_iff_getElem?_eq_some.mp among) stored

/-- The least position after the loop of a drain is one it started with or one of an entry that
stays. -/
theorem oldest_judge_foldl {fate : Key → Fate} {todo : List (Key × Entry)} {acc : Buffer × Batch}
    (has : (todo.foldl (judge fate) acc).1.hasOldest = true) :
    (acc.1.hasOldest = true ∧ (todo.foldl (judge fate) acc).1.oldest = acc.1.oldest) ∨
      ∃ entry ∈ todo, (fate entry.1).leaves = false ∧
        (todo.foldl (judge fate) acc).1.oldest = entry.2.firstLSN := by
  induction todo generalizing acc with
  | nil => exact .inl ⟨has, rfl⟩
  | cons entry todo ih =>
    obtain ⟨k, e⟩ := entry
    obtain ⟨b, batch⟩ := acc
    rw [List.foldl_cons] at has ⊢
    have tracked : (b.trackOldest e.firstLSN).oldest = b.oldest ∧ b.hasOldest = true ∨
        (b.trackOldest e.firstLSN).oldest = e.firstLSN := by
      unfold Buffer.trackOldest
      split
      · exact .inr rfl
      next kept =>
        simp only [Bool.or_eq_true, Bool.not_eq_true', not_or, Bool.not_eq_false] at kept
        exact .inl ⟨rfl, kept.1⟩
    rcases ih has with ⟨before, same⟩ | ⟨entry, later, stays, same⟩
    · rw [same]
      rw [judge] at before ⊢
      cases decided : fate k <;> simp only [decided] at before ⊢
      case discarded => exact .inl ⟨before, rfl⟩
      case flushed => exact .inl ⟨before, rfl⟩
      all_goals
        rcases tracked with ⟨kept, had⟩ | lowered
        · exact .inl ⟨had, kept⟩
        · exact .inr ⟨(k, e), List.mem_cons_self, by rw [decided]; rfl, lowered⟩
    · exact .inr ⟨entry, List.mem_cons_of_mem _ later, stays, same⟩

/-- What a drain leaves is exact: it drops entries whole, and starts the least position over. -/
theorem Exact.drain {pos : Position} {snap : Snapshot} (was : b.Exact) :
    (b.drain pos snap).1.Exact where
  sound := by
    have loop : ∀ (todo : List (Key × Entry)) (acc : Buffer × Batch), acc.1.Sound →
        (todo.foldl (judge (b.fate pos snap)) acc).1.Sound := by
      intro todo
      induction todo with
      | nil => exact fun _ sound => sound
      | cons entry todo ih =>
        rintro ⟨kept, batch⟩ sound
        obtain ⟨key, e⟩ := entry
        refine ih _ ?_
        unfold judge
        dsimp only
        cases b.fate pos snap key with
        | held => exact sound.trackOldest
        | invisible => exact sound.trackOldest
        | discarded => exact sound.remove
        | flushed => exact sound.remove
        | deferred => exact sound.trackOldest
    exact loop b.entries.toList ({ b with hasOldest := false }, {})
      ⟨was.sound.inhabited, was.sound.bare, was.sound.held⟩
  covered := oldestCovers_drain
  attained := by
    intro has
    rcases oldest_judge_foldl has with ⟨started, _⟩ | ⟨entry, among, stays, least⟩
    · cases started
    · refine ⟨entry.1, ?_⟩
      have stored := ExtTreeMap.mem_toList_iff_getElem?_eq_some.mp among
      rw [first, entries_drain, if_neg (by rw [stays]; exact Bool.false_ne_true), stored,
        Option.map_some, ← least]
      rfl

theorem Exact.drained {pos : Position} {snap : Snapshot} (was : b.Exact) :
    Drained (b.drain pos snap).2.entries where
  distinct := drain_distinct
  bare e among := was.sound.bare e.key e (mem_drain.mp among).1

end Calls

/-- What the derived structures of a buffer say. -/
structure IndexesExact (b : Buffer) : Prop where
  moved : ∀ old key : Key, (∃ images, b.movedFrom[old]? = some images ∧ key ∈ images) ↔
    ∃ e : Entry, b.entries[key]? = some e ∧ e.kind = .image ∧ e.oldKey = some old
  inhabited : ∀ (old : Key) (images : ExtTreeSet Key), b.movedFrom[old]? = some images →
    ¬ images.isEmpty = true
  pending : ∀ (key : Key) (p : PendingCompletion), b.pending[key]? = some p →
    ∃ e : Entry, b.entries[key]? = some e
  oldest : ∀ lsn : LSN, b.oldestPending = some lsn ↔
    IsLeast {l | ∃ (key : Key) (e : Entry), b.entries[key]? = some e ∧ e.firstLSN = l} lsn
  noOldest : b.oldestPending = none ↔ ∀ key : Key, b.entries[key]? = none
  keyed : ∀ (key : Key) (e : Entry), b.entries[key]? = some e → e.key = key
  bare : ∀ (key : Key) (e : Entry), b.entries[key]? = some e → e.kind = .deleteMarker →
    e.columns = [] ∧ e.oldKey = none

/-- The invariant says what the derived structures mean: the index, the held completions and the
least position are those of the entries. -/
theorem Exact.indexes {b : Buffer} (was : b.Exact) : b.IndexesExact where
  moved old key := by
    have indexed := b.indexed old key
    rw [ExtTreeMap.getD_eq_getD_getElem?] at indexed
    constructor
    · rintro ⟨images, found, among⟩
      rw [found] at indexed
      obtain ⟨e, stored, left⟩ := indexed.mp among
      refine ⟨e, stored, ?_, left⟩
      cases kind : e.kind with
      | image => rfl
      | deleteMarker =>
        have none := (was.sound.bare key e stored kind).2
        rw [left] at none
        cases none
    · rintro ⟨e, stored, _, left⟩
      have among := indexed.mpr ⟨e, stored, left⟩
      cases found : b.movedFrom[old]? with
      | none =>
        rw [found] at among
        exact absurd among ExtTreeSet.not_mem_empty
      | some images =>
        rw [found] at among
        exact ⟨images, rfl, among⟩
  inhabited old images found empty := by
    obtain ⟨key, among⟩ := was.sound.inhabited old images found
    rw [ExtTreeSet.isEmpty_iff] at empty
    rw [empty] at among
    exact ExtTreeSet.not_mem_empty among
  pending := b.heldEntry
  oldest lsn := by
    have least : b.hasOldest = true → IsLeast
        {l | ∃ (key : Key) (e : Entry), b.entries[key]? = some e ∧ e.firstLSN = l} b.oldest := by
      intro has
      refine ⟨?_, ?_⟩
      · obtain ⟨key, at_⟩ := was.attained has
        obtain ⟨e, stored, same⟩ := Option.map_eq_some_iff.mp at_
        exact ⟨key, e, stored, same⟩
      · rintro l ⟨key, e, stored, rfl⟩
        exact (was.covered key _ (first_of_entry stored)).2
    unfold oldestPending
    constructor
    · intro found
      by_cases has : b.hasOldest = true
      · rw [if_pos has, Option.some.injEq] at found
        exact found ▸ least has
      · rw [if_neg has] at found
        cases found
    · intro found
      obtain ⟨key, e, stored, _⟩ := found.1
      have has := (was.covered key _ (first_of_entry stored)).1
      rw [if_pos has, UInt64.le_antisymm ((least has).2 found.1) (found.2 (least has).1)]
  noOldest := by
    unfold oldestPending
    constructor
    · intro absent key
      cases stored : b.entries[key]? with
      | none => rfl
      | some e =>
        rw [if_pos (was.covered key _ (first_of_entry stored)).1] at absent
        cases absent
    · intro empty
      rw [if_neg]
      intro has
      obtain ⟨key, least⟩ := was.attained has
      rw [first, empty key] at least
      cases least
  keyed := b.keyed
  bare := was.sound.bare

end Buffer

/-! ### Sequences of calls -/

open Buffer

/-- The buffer after a call. -/
def stepCall (b : Buffer) (c : Call) : Option Buffer := some (c.run b).2

/-- A hold names each key once and hands back images; a requeue hands back what a drain can hand
out. No other call is restricted. -/
def HandsBack (_ : Buffer) : Call → Prop
  | .hold held => (held.map fun h => h.entry.key).Nodup ∧ ∀ h ∈ held, h.entry.kind = .image
  | .requeue entries => Drained entries
  | _ => True

theorem exact_of_merged {b after : Buffer} {c : Call} (was : b.Exact) (meets : HandsBack b c)
    (merged : c.merged b = .ok after) : after.Exact := by
  cases c with
  | add ev => exact was.add merged
  | drain pos snap =>
    cases merged
    exact was.drain
  | hold held => exact was.hold meets.1 meets.2 merged
  | release passed =>
    cases merged
    exact was.release
  | requeue entries => exact was.requeue meets merged

theorem exact_step {b after : Buffer} {c : Call} (was : b.Exact) (meets : HandsBack b c)
    (taken : stepCall b c = some after) : after.Exact := by
  unfold stepCall at taken
  rw [Call.run_eq] at taken
  cases merged : c.merged b with
  | error v =>
    rw [merged] at taken
    cases taken
    exact was
  | ok next =>
    rw [merged] at taken
    cases taken
    exact exact_of_merged was meets merged

/-- **The buffer's derived structures stay exact** along every sequence of calls, refused ones among
them, whose holds and requeues hand back what a drain can hand out; a drain hands out such entries;
and a call that is refused leaves the buffer as it was. -/
theorem indexes_exact {b : Buffer} (history : Reaches stepCall HandsBack .new b) :
    b.IndexesExact ∧ (∀ pos snap, Drained (b.drain pos snap).2.entries) ∧
      ∀ (c : Call) (v : Violation), (c.run b).1 = .error v → (c.run b).2 = b := by
  have was : b.Exact := history.invariant exact_new fun _ _ _ was meets taken =>
    exact_step was meets taken
  exact ⟨was.indexes, fun _ _ => was.drained, fun _ _ refused => Call.unchanged_of_error refused⟩

/-- An insert, a move of its row, and an insert over the moved row, which is refused. -/
def insertAndMove : List Call :=
  [.add ⟨.insert, 1, none, [⟨"a", some (.text (some "x"))⟩], 5, 7⟩,
    .add ⟨.update, 2, some 1, [⟨"a", none⟩], 9, 8⟩,
    .add ⟨.insert, 2, none, [], 10, 9⟩]

def isAdd (_ : Buffer) : Call → Bool
  | .add _ => true
  | _ => false

/-- The indexes after a move into the buffer. -/
theorem indexes_exact_after_move : ∃ b : Buffer, Reaches stepCall HandsBack .new b ∧
    b.IndexesExact ∧ b.oldestPending = some 5 ∧ b.len = 2 := by
  have reached : Reaches stepCall HandsBack .new
      (insertAndMove.foldl (fun b c => (c.run b).2) .new) := by
    have ran : run stepCall isAdd .new insertAndMove =
        some (insertAndMove.foldl (fun b c => (c.run b).2) .new) := rfl
    refine reaches_of_run (fun _ c adds => ?_) .refl ran
    cases c with
    | add ev => trivial
    | _ => cases adds
  exact ⟨_, reached, (indexes_exact reached).1, by decide +kernel, by decide +kernel⟩

/-- An image of the row under key 1 that is owed from a position. -/
def imageFrom (lsn : LSN) : Entry := { key := 1, kind := .image, firstLSN := lsn, xid := 1 }

/-- Two images of one key, handed back in one call. -/
def heldTwice : List HeldImage := [⟨imageFrom 5, [], false, 3⟩, ⟨imageFrom 9, [], false, 3⟩]

/-- A delete marker that carries a column. -/
def markerWithColumn : Entry :=
  { key := 1, kind := .deleteMarker, columns := [⟨"a", none⟩], firstLSN := 5, xid := 1 }

/-- **A hold that names one key twice leaves a position owed that no entry owes**, and a requeue
stores a marker as it is given. -/
theorem hold_twice :
    (∃ b : Buffer, Reaches stepCall anyStep .new b ∧ b.oldestPending = some 5 ∧
      ∀ (key : Key) (e : Entry), b.entries[key]? = some e → e.firstLSN = 9) ∧
    ∃ b : Buffer, Reaches stepCall anyStep .new b ∧
      b.entries[(1 : Key)]? = some markerWithColumn := by
  refine ⟨⟨((Call.hold heldTwice).run .new).2, .step .refl trivial rfl, by decide +kernel, ?_⟩,
    ⟨((Call.requeue [markerWithColumn]).run .new).2, .step .refl trivial rfl, by decide +kernel⟩⟩
  intro key e stored
  rw [Call.run_eq] at stored
  have held : Buffer.hold .new heldTwice = .ok (heldTwice.foldl holdOne .new) :=
    hold_eq fun h _ => by simp [new]
  rw [Call.merged, held] at stored
  simp only [Program.outcome, heldTwice, List.foldl_cons, List.foldl_nil, holdOne,
    entries_setPending, entries_put, imageFrom] at stored
  split at stored
  · cases stored
    rfl
  · cases stored

end PgSprite.Applier
