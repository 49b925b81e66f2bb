/-
**The swap's drain: everything gathered through the marker, applied under the swap's lock.**

Under the lock the source stands still at the marker, every key is landed and every gathered change
is visible, so one drain takes the whole buffer. The images the first flush completes and holds are
released and flushed in a second batch; the drain fails if that holds again, or leaves anything.

`Swapping` is what the buffer and the shadow keep true between the flushes.

* `flushAll_exact` — a drain that succeeds leaves the source as of the marker;
* `flushAll_ok_iff` — it succeeds exactly when no held image stands in the way (`HeldClear`): none
  omits a column the shadow dropped, and under no held key does a stale row conflict with a row the
  first flush writes;
* `stale_held_row_refused` — a stale row that does.
-/

import PgSprite.Applier.Completion

namespace PgSprite.SchemaChange

open Std PgSprite.Decode PgSprite.Source PgSprite.Lib PgSprite.Applier PgSprite.Copier

/-- Why a drain failed. -/
inductive DrainError where
  | buffer (v : Violation)
  | flush (err : FlushError)
  /-- The shadow refused the batch (`drain-deferred`). -/
  | deferred (changes : ℕ) (key : Key) (kind : ConstraintKind)
  /-- The second flush held images again (CO-8). -/
  | heldAgain (images : ℕ)
  /-- The buffer is not empty (CO-4). -/
  | left (changes : ℕ)
  deriving DecidableEq, Repr

/-- The last position of all. -/
def maxLSN : LSN := UInt64.ofNat (2 ^ 64 - 1)

/-- A position at which every key up to the watermark is landed and nothing is in flight. -/
def landedThrough (watermark : Watermark) : Position := { watermark, cut := watermark }

/-- A drain under the lock: every writer finished, and its commit became visible, before the lock
was granted. -/
def drainAll (watermark : Watermark) (b : Buffer) : Buffer × Batch :=
  b.drain (landedThrough watermark) .allVisible

section Model

variable (f : Flusher) (cs : Constraints f.columns)

/-- Flushes one batch in the swap's transaction, and reads a refusal as the non-convergence it
is. -/
def flushBatch (reads : Reads) (batch : Batch) : Except DrainError (Table × Result) :=
  match f.flush cs reads batch with
  | .ok done => .ok done
  | .error (.batchDeferred key kind) => .error (.deferred batch.entries.length key kind)
  | .error err => .error (.flush err)

/-- The drain is over, unless something is left in the buffer. -/
def finish (b : Buffer) (after : Table) : Except DrainError Table :=
  if b.len > 0 then .error (.left b.len) else .ok after

/-- One drain of the whole buffer and its flush: what stays buffered, the shadow, and the images the
flush held. -/
def flushRound (watermark : Watermark) (reads : Reads) (b : Buffer) :
    Except DrainError (Buffer × Table × List HeldImage) :=
  let (rest, batch) := drainAll watermark b
  (flushBatch f cs reads batch).map fun (after, result) => (rest, after, result.held)

/-- Applies everything the buffer holds; `first` and `second` are the WAL positions the two flushes
read at. -/
def flushAll (watermark : Watermark) (source : Table) (first second : LSN) (b : Buffer)
    (shadow : Table) : Except DrainError Table :=
  match flushRound f cs watermark ⟨shadow, source, first⟩ b with
  | .error err => .error err
  | .ok (rest, after, []) => finish rest after
  | .ok (rest, after, held) =>
    match rest.hold held with
    | .error v => .error (.buffer v)
    | .ok buffer =>
      match flushRound f cs watermark ⟨after, source, second⟩ (buffer.release maxLSN) with
      | .error err => .error err
      | .ok (rest, after, []) => finish rest after
      | .ok (_, _, again) => .error (.heldAgain again.length)

/-- The drain the swap runs: gathers the changes through the marker and applies them. -/
def drainInto (relation : List Name) (watermark : Watermark) (source : Table) (first second : LSN)
    (events : List (Committed × LSN)) (shadow : Table) : Except DrainError Table :=
  match gather relation .new events with
  | .error v => .error (.buffer v)
  | .ok b => flushAll f cs watermark source first second b shadow

end Model

/-! ### What holds between the flushes -/

/-- Under the lock a reader sees every change. -/
def everything (_ : Committed) : Bool := true

/-- The whole history is delivered, the buffer tracks it, and the shadow is settled from what each
key still owes. -/
structure Swapping (f : Flusher) (relation : List Name) (h : History) (g : Key → ℕ) (b : Buffer)
    (shadow : Table) : Prop where
  decodes : Decodes f relation
  valid : h.Valid
  tracks : Tracked f relation h h.log.length g b
  settled : ∀ key : Key, Settled f everything h (g key) key shadow[key]?

/-- Nothing waits for a completion. -/
def Quiet (b : Buffer) : Prop := ∀ key : Key, b.pending[key]? = none

variable {events : List (Committed × LSN)}

section Swapping

variable {f : Flusher} {cs : Constraints f.columns} {relation : List Name} {h : History}
  {g : Key → ℕ} {b : Buffer} {shadow after : Table} {watermark : Watermark} {key : Key} {e : Entry}
  {readLSN first second : LSN}

theorem seenThrough_everything {n : ℕ} (within : n ≤ h.log.length) :
    SeenThrough everything h key n :=
  ⟨within, fun _ _ _ _ _ => rfl⟩

/-! #### The gather -/

theorem Quiet.put (quiet : Quiet b) {other : Entry} : Quiet (b.put other) := by
  intro key
  rw [Buffer.pending_put, quiet key, ite_self]

theorem Quiet.mark (quiet : Quiet b) {landing : Key} {mover : Option Key} :
    Quiet (b.markOldKeyReused landing mover) := by
  intro key
  rw [Buffer.pending_markOldKeyReused, quiet key, ite_self]

/-- An event never makes an image wait for a completion. -/
theorem Quiet.add (quiet : Quiet b) {change : Change} {delivered : LSN} {xid : Xid} {next : Buffer}
    (added : b.add (change.event relation delivered xid) = .ok next) : Quiet next := by
  cases change with
  | insert key row =>
    rw [Buffer.of_add_insert added]
    exact quiet.mark.put
  | delete key =>
    cases added
    exact quiet.put
  | update key old row omitted =>
    by_cases same : old = key
    · subst same
      rcases Buffer.of_add_update added with ⟨-, rfl⟩ | ⟨cur, -, -, rfl⟩
      · exact quiet.mark.put
      · exact quiet
    · rw [(Buffer.of_add_move same added).2]
      exact quiet.mark.put.put

theorem Quiet.gather (quiet : Quiet b) {gathered : Buffer}
    (gathers : gather relation b events = .ok gathered) : Quiet gathered := by
  have keeps : ∀ (b : Buffer) (event : Committed × LSN) (next : Buffer), event ∈ events → Quiet b →
      b.add (event.1.change.event relation event.2 event.1.xid) = .ok next → Quiet next :=
    fun _ _ _ _ quiet added => quiet.add added
  exact foldlM_invariant keeps quiet gathers

/-- **Gathering the rest of the history keeps the buffer tracking it.** -/
theorem gather_tracks {d : ℕ} {gathered : Buffer} (valid : h.Valid) (decodes : Decodes f relation)
    (within : d ≤ h.log.length) (suffix : h.log.drop d = events.map Prod.fst)
    (tracks : Tracked f relation h d g b)
    (settled : ∀ key : Key, Settled f everything h (g key) key shadow[key]?)
    (gathers : gather relation b events = .ok gathered) :
    ∃ g', Swapping f relation h g' gathered shadow := by
  induction events generalizing d g b with
  | nil =>
    have ends : d = h.log.length := by
      have length := congrArg List.length suffix
      rw [List.length_drop, List.map_nil, List.length_nil] at length
      omega
    cases gathers
    exact ⟨g, decodes, valid, ends ▸ tracks, settled⟩
  | cons event events ih =>
    obtain ⟨c, delivered⟩ := event
    obtain ⟨next, added, rest⟩ := foldlM_cons_ok.mp gathers
    have found : h.log[d]? = some c := by
      have first := congrArg (fun l => l[0]?) suffix
      simpa using first
    have below := (List.getElem?_eq_some_iff.mp found).1
    obtain ⟨next', same, tracks'⟩ := tracks.add valid decodes found delivered
    rw [added, Except.ok.injEq] at same
    subst same
    have raised := tracks.raised found added
    refine ih below ?_ tracks' (fun k => (settled k).raise (raised k).2.1 (raised k).2.2) rest
    have tail := congrArg List.tail suffix
    rwa [List.tail_drop, List.map_cons, List.tail_cons] at tail

/-! #### The drain takes everything -/

theorem drained_distinct : ((drainAll watermark b).2.entries.map Entry.key).Nodup :=
  Buffer.drain_distinct

theorem classify_landed (complete : watermark.complete = true) (key : Key) :
    (landedThrough watermark).classify key = .landed := by
  rw [Watermark.complete, decide_eq_true_eq] at complete
  rw [Position.classify_of_idle rfl, landedThrough, complete, if_pos]
  simp [Watermark.reaches, Int64.le_maxValue]

section Drained

variable (quiet : Quiet b) (complete : watermark.complete = true)

include quiet complete

theorem fate_eq_flushed (stored : b.entries[key]? = some e) :
    b.fate (landedThrough watermark) .allVisible key = .flushed := by
  rw [Buffer.fate_of_landed stored (classify_landed complete) Snapshot.visible_allVisible, if_neg]
  rw [ExtTreeMap.contains_eq_isSome_getElem?, quiet key]
  exact Bool.false_ne_true

theorem mem_drained : e ∈ (drainAll watermark b).2.entries ↔ b.entries[e.key]? = some e := by
  rw [drainAll, Buffer.mem_drain]
  exact ⟨And.left, fun stored => ⟨stored, fate_eq_flushed quiet complete stored⟩⟩

theorem drained_empty (key : Key) : (drainAll watermark b).1.entries[key]? = none := by
  rw [drainAll, Buffer.entries_drain]
  split
  · rfl
  next stays =>
    cases stored : b.entries[key]? with
    | none => rfl
    | some e =>
      rw [fate_eq_flushed quiet complete stored] at stays
      exact absurd rfl stays

theorem drainedFrom_drain :
    Flushable.DrainedFrom (fun k => b.entries[k]?) (fun k => b.pending[k]?)
      (drainAll watermark b).2 (drainAll watermark b).1 where
  outside k apart := by
    refine ⟨?_, Buffer.pending_drain⟩
    rw [drained_empty quiet complete]
    cases stored : b.entries[k]? with
    | none => rfl
    | some e =>
      have own := b.keyed k e stored
      exact absurd own (apart e ((mem_drained quiet complete).mpr (own ▸ stored)))
  removed e _ := drained_empty quiet complete e.key

end Drained

/-! #### One flush -/

/-- The source as of the marker, read under the lock. -/
def readsUnderLock (h : History) (shadow : Table) (readLSN : LSN) : Reads :=
  ⟨shadow, replay h.base h.log, readLSN⟩

theorem source_eq (h : History) (key : Key) :
    (replay h.base h.log)[key]? = h.row h.log.length key := by
  rw [getElem?_replay, History.row, KeyedLog.rowAt_length]

theorem le_maxLSN (lsn : LSN) : lsn ≤ maxLSN := by
  rw [UInt64.le_iff_toNat_le]
  have bound := lsn.toNat_lt
  have last : maxLSN.toNat = 2 ^ 64 - 1 := by decide
  omega

theorem finish_ok (finishes : finish b shadow = .ok after) :
    after = shadow ∧ ∀ key : Key, b.entries[key]? = none := by
  rw [finish] at finishes
  split at finishes
  · cases finishes
  next empty =>
    cases finishes
    refine ⟨rfl, fun key => ?_⟩
    have size : b.entries.size = 0 := Nat.le_zero.mp (Nat.le_of_not_lt empty)
    rw [ExtTreeMap.eq_empty_iff_size_eq_zero.mpr size]
    rfl

theorem finish_of_empty (empty : ∀ key : Key, b.entries[key]? = none) :
    finish b shadow = .ok shadow := by
  have none : b.entries = ∅ := ExtTreeMap.ext_getElem? fun key => by simp [empty key]
  rw [finish, if_neg]
  simp [Buffer.len, none]

/-- A round drains everything and flushes it, and hands back what is held. -/
theorem flushRound_ok {reads : Reads} {rest : Buffer} {held : List HeldImage} :
    flushRound f cs watermark reads b = .ok (rest, after, held) ↔
      rest = (drainAll watermark b).1 ∧
        ∃ result, f.flush cs reads (drainAll watermark b).2
          = .ok (after, result) ∧ result.held = held := by
  rw [flushRound, map_ok]
  constructor
  · rintro ⟨⟨table, result⟩, flushed, same⟩
    simp only [Prod.mk.injEq] at same
    obtain ⟨rfl, rfl, rfl⟩ := same
    refine ⟨rfl, result, ?_, rfl⟩
    rw [flushBatch] at flushed
    split at flushed
    next done ran =>
      cases flushed
      exact ran
    next => cases flushed
    next => cases flushed
  · rintro ⟨rfl, result, flushed, rfl⟩
    exact ⟨(after, result), by rw [flushBatch, flushed], rfl⟩

/-- **What a successful drain went through**: one round that held nothing, or two. -/
theorem flushAll_ok {source : Table}
    (flushed : flushAll f cs watermark source first second b shadow = .ok after) :
    ∃ rest mid held, flushRound f cs watermark ⟨shadow, source, first⟩ b = .ok (rest, mid, held) ∧
      ((held = [] ∧ finish rest mid = .ok after) ∨
        ∃ buffer rest' last, rest.hold held = .ok buffer ∧
          flushRound f cs watermark ⟨mid, source, second⟩ (buffer.release maxLSN)
            = .ok (rest', last, []) ∧ finish rest' last = .ok after) := by
  rw [flushAll] at flushed
  split at flushed
  next => cases flushed
  next rest mid ran => exact ⟨rest, mid, [], ran, Or.inl ⟨rfl, flushed⟩⟩
  next rest mid held _ ran =>
    refine ⟨rest, mid, held, ran, Or.inr ?_⟩
    split at flushed
    next => cases flushed
    next buffer holds =>
      split at flushed
      next => cases flushed
      next rest' last ran' => exact ⟨buffer, rest', last, holds, ran', flushed⟩
      next => cases flushed

/-- The buffer after a flush of everything: the images it held, each with its completion. -/
def heldOver (f : Flusher) (watermark : Watermark) (reads : Reads) (b : Buffer) : Buffer :=
  (f.toHold reads (drainAll watermark b).2).foldl Buffer.holdOne (drainAll watermark b).1

variable (swapping : Swapping f relation h g b shadow)

include swapping

/-- Every completion is taken by the release. -/
theorem Swapping.release :
    Swapping f relation h g (b.release maxLSN) shadow ∧ Quiet (b.release maxLSN) := by
  refine ⟨⟨swapping.decodes, swapping.valid, swapping.tracks.release swapping.decodes ?_,
    swapping.settled⟩, fun key => ?_⟩
  · intro i c past found
    rw [List.getElem?_eq_none past] at found
    cases found
  · cases waiting : (b.release maxLSN).pending[key]? with
    | none => rfl
    | some p =>
      have later := (Buffer.pending_release_eq_some.mp waiting).2
      have bound := le_maxLSN p.readLSN
      grind

/-- **With nothing left in the buffer the shadow is the source**, each column as its conversion
leaves it. -/
theorem Swapping.finished (empty : ∀ key : Key, b.entries[key]? = none) (key : Key) :
    Matches f.columns shadow[key]? ((replay h.base h.log)[key]?.map f.convertedRow) := by
  have settled := swapping.settled key
  rw [swapping.tracks.free key (empty key)] at settled
  rw [source_eq]
  exact settled.last

/-- A key without an entry, or one the flush writes, holds the source's row after the flush. -/
theorem Swapping.agrees (owes : g key = h.log.length) {row : Row}
    (there : shadow[key]? = some row) :
    ∃ x, (replay h.base h.log)[key]? = some x ∧ AgreeOn f.columns row (f.convertedRow x) := by
  have settled := swapping.settled key
  rw [owes] at settled
  have same := settled.last
  rw [there, ← source_eq] at same
  cases source : (replay h.base h.log)[key]? with
  | none =>
    rw [source] at same
    exact absurd same id
  | some x =>
    rw [source] at same
    exact ⟨x, rfl, same⟩

/-- Under the lock every image can be completed, from the source if not from the shadow. -/
theorem Swapping.completes (stored : b.entries[key]? = some e) (named : Flusher.named e = true)
    (readLSN : LSN) : ∃ held, f.completeOne (readsUnderLock h shadow readLSN) e = some held := by
  have kind : e.kind = .image := by
    simp only [Flusher.named, Bool.and_eq_true, decide_eq_true_eq] at named
    exact named.1.1
  obtain ⟨row, images⟩ := swapping.tracks.imaged key e stored kind
  have source : (readsUnderLock h shadow readLSN).source[e.key]? = some row := by
    rw [b.keyed key e stored]
    exact (source_eq h key).trans images.here
  rw [Flusher.completeOne]
  split
  · exact ⟨_, rfl⟩
  · rw [source]
    exact ⟨_, rfl⟩

variable (quiet : Quiet b) (complete : watermark.complete = true)

include quiet complete

/-- **The drained batch is what the flush's lemmas take.** -/
theorem Swapping.flushable (readLSN : LSN) :
    Flushable f relation everything h h.log.length g (fun k => b.entries[k]?)
      (fun k => b.pending[k]?) (readsUnderLock h shadow readLSN)
      (drainAll watermark b).2 where
  decodes := swapping.decodes
  valid := swapping.valid
  tracks := swapping.tracks
  distinct := drained_distinct
  drained e member := ⟨(mem_drained quiet complete).mp member, quiet e.key⟩
  shown e _ := seenThrough_everything le_rfl
  settled e _ := swapping.settled e.key
  origins e _ _ _ old row _ there := by
    have settled := swapping.settled old
    rw [show shadow[old]? = some row from there] at settled
    exact settled
  source key := ⟨h.log.length, ⟨le_rfl, fun _ _ _ _ _ => rfl, Or.inl rfl⟩, source_eq h key⟩
  read i c past found _ := by
    rw [List.getElem?_eq_none past] at found
    cases found

/-- **A committed flush leaves what the drain goes on from.** -/
theorem Swapping.flush (flushed : Flusher.Flushed f shadow after
      (f.toWrite (readsUnderLock h shadow readLSN) (drainAll watermark b).2)) :
    Swapping f relation h
      (f.owedAfter (readsUnderLock h shadow readLSN) (drainAll watermark b).2 g h.log.length)
      (heldOver f watermark (readsUnderLock h shadow readLSN) b) after := by
  have flushable := swapping.flushable quiet complete readLSN
  exact ⟨swapping.decodes, swapping.valid,
    flushable.tracks_after fun k => Flushable.remains_of_hold flushable.distinct
      (drainedFrom_drain quiet complete) k,
    fun key => flushable.settled_after flushed (swapping.settled key)⟩

/-! ### Exactness -/

/-- **One round leaves the buffer empty but for what it holds**, and what the drain goes on from. -/
theorem Swapping.round {rest : Buffer} {held : List HeldImage}
    (ran : flushRound f cs watermark (readsUnderLock h shadow readLSN) b =
      .ok (rest, after, held)) :
    held = f.toHold (readsUnderLock h shadow readLSN) (drainAll watermark b).2 ∧
      held.foldl Buffer.holdOne rest = heldOver f watermark (readsUnderLock h shadow readLSN) b ∧
      Swapping f relation h
        (f.owedAfter (readsUnderLock h shadow readLSN) (drainAll watermark b).2 g h.log.length)
        (heldOver f watermark (readsUnderLock h shadow readLSN) b) after := by
  obtain ⟨rfl, result, flushed, rfl⟩ := flushRound_ok.mp ran
  obtain ⟨wrote, -, held⟩ := Flusher.flush_ok drained_distinct flushed
  exact ⟨held, by rw [held]; rfl, swapping.flush quiet complete wrote⟩

/-- A drain that succeeds leaves the source as of the marker, each column as its conversion leaves
it. -/
theorem Swapping.exact
    (flushed : flushAll f cs watermark (replay h.base h.log) first second b shadow = .ok after)
    (key : Key) :
    Matches f.columns after[key]? ((replay h.base h.log)[key]?.map f.convertedRow) := by
  obtain ⟨rest, mid, held, ran, outcome⟩ := flushAll_ok flushed
  obtain ⟨-, buffered, next⟩ := swapping.round quiet complete ran
  rw [← buffered] at next
  rcases outcome with ⟨rfl, finishes⟩ | ⟨buffer, rest', last, holds, ran', finishes⟩
  · obtain ⟨rfl, empty⟩ := finish_ok finishes
    exact next.finished empty key
  · obtain rfl := Buffer.hold_ok holds
    obtain ⟨released, quiet'⟩ := next.release
    obtain ⟨-, buffered', ends⟩ := released.round quiet' complete ran'
    rw [← buffered'] at ends
    obtain ⟨rfl, empty⟩ := finish_ok finishes
    exact ends.finished empty key

/-! ### When the drain succeeds -/

/-- No held image stands in the drain's way: no moved image omits a column the shadow dropped, and
under no key whose image is held does the shadow's row conflict with the source's row under a key
the first flush writes. -/
structure HeldClear (f : Flusher) (cs : Constraints f.columns) (relation : List Name) (b : Buffer)
    (shadow source : Table) : Prop where
  copied : ∀ (key : Key) (e : Entry), b.entries[key]? = some e → e.kind = .image →
    e.oldKey ≠ none → ∀ name ∈ relation, valueOf e.columns name = none → name ∈ f.columns
  free : ∀ (key : Key) (e : Entry) (row : Row), b.entries[key]? = some e →
    Flusher.named e = true → shadow[key]? = some row →
    ∀ (other : Key) (e' : Entry) (x : Row), b.entries[other]? = some e' → e'.kind = .image →
      Flusher.named e' = false → source[other]? = some x →
      (cs.conflict other (f.convertedRow x) key row).isSome = false

/-- Under the lock no image finds its shadow row absent. -/
theorem Swapping.not_absent (member : e ∈ (drainAll watermark b).2.entries) :
    f.absent (readsUnderLock h shadow readLSN) e = false := by
  by_contra absent
  rw [Bool.not_eq_false] at absent
  obtain ⟨-, -, -, i, c, past, found, -⟩ :=
    (swapping.flushable quiet complete readLSN).replaced member absent
  rw [List.getElem?_eq_none past] at found
  cases found

/-- **What a round leaves buffered are the named images**, each with its completion. -/
theorem Swapping.held_of_entry
    (stored : (heldOver f watermark (readsUnderLock h shadow readLSN) b).entries[key]? = some e) :
    b.entries[key]? = some e ∧ Flusher.named e = true ∧
      ∃ held, f.completeOne (readsUnderLock h shadow readLSN) e = some held ∧
        (heldOver f watermark (readsUnderLock h shadow readLSN) b).pending[key]?
          = some held.completion := by
  have remains : Flushable.Remains f (readsUnderLock h shadow readLSN) (drainAll watermark b).2
      (fun k => b.entries[k]?) (fun k => b.pending[k]?) key
      (heldOver f watermark (readsUnderLock h shadow readLSN) b).entries[key]?
      (heldOver f watermark (readsUnderLock h shadow readLSN) b).pending[key]? :=
    Flushable.remains_of_hold drained_distinct (drainedFrom_drain quiet complete) key
  rw [stored] at remains
  generalize image : some e = o at remains
  generalize (heldOver f watermark (readsUnderLock h shadow readLSN) b).pending[key]? = waits
    at remains ⊢
  cases remains with
  | untouched outside =>
    have own := b.keyed key e image.symm
    exact absurd own (outside e ((mem_drained quiet complete).mpr (own ▸ image.symm)))
  | written => cases image
  | completed e' held member same named read =>
    cases image
    exact ⟨same ▸ (mem_drained quiet complete).mp member, named, held, read, rfl⟩
  | awaiting e' member same named absent =>
    rw [swapping.not_absent quiet complete member] at absent
    cases absent

/-- A named image is held, and its key holds the stale row it held before. -/
theorem Swapping.entry_of_held (stored : b.entries[key]? = some e) (named : Flusher.named e = true)
    (readLSN : LSN) :
    (heldOver f watermark (readsUnderLock h shadow readLSN) b).entries[key]? = some e ∧
      f.writes (readsUnderLock h shadow readLSN) (drainAll watermark b).2 key = false := by
  have own := b.keyed key e stored
  have member : e ∈ (drainAll watermark b).2.entries :=
    (mem_drained quiet complete).mpr (own ▸ stored)
  obtain ⟨held, read⟩ := swapping.completes stored named readLSN
  have holds : held ∈ f.toHold (readsUnderLock h shadow readLSN) (drainAll watermark b).2 :=
    Flusher.mem_toHold.mpr (Or.inl ⟨e, member, named, read⟩)
  have image := Flusher.completeOne_entry read
  have there := (Buffer.foldl_holdOne_of_mem (b := (drainAll watermark b).1)
    (Flusher.toHold_distinct drained_distinct) holds).1
  have quietly := Flushable.writes_of_held drained_distinct holds
  rw [image, own] at there quietly
  exact ⟨there, quietly⟩

/-- Under the lock no flush refuses its batch as a violation. -/
theorem Swapping.not_violation {v : Violation} :
    f.flush cs (readsUnderLock h shadow readLSN) (drainAll watermark b).2
      ≠ .error (.violation v) := by
  intro failed
  have flushable := swapping.flushable quiet complete readLSN
  obtain ⟨-, ⟨k, kind, other, -⟩ | ⟨-, -, e, member, kind, unmoved, -, marked, -, missing⟩⟩ :=
    flushable.fails failed
  · cases other
  have stored := (mem_drained quiet complete).mp member
  obtain ⟨row, images⟩ := swapping.tracks.imaged e.key e stored kind
  obtain ⟨name, listed, omits⟩ :=
    (hasMarker_iff (images.named ▸ swapping.decodes.once)).mp marked
  -- the key has held a row ever since the position its shadow row could be from
  have settled := swapping.settled e.key
  rw [show shadow[e.key]? = none from missing] at settled
  obtain ⟨p, low, through, gone⟩ := settled
  obtain ⟨x, held, -⟩ := images.kept unmoved name (images.named ▸ listed) omits p low through.within
  rw [gone] at held
  cases held

/-- **A round whose held keys are clear is not refused.** -/
theorem Swapping.round_ok (satisfies : f.Satisfies cs fun k => (replay h.base h.log)[k]?)
    (free : ∀ (key : Key) (e : Entry) (row : Row), b.entries[key]? = some e →
      Flusher.named e = true → shadow[key]? = some row →
      ∀ (other : Key) (e' : Entry) (x : Row), b.entries[other]? = some e' → e'.kind = .image →
        Flusher.named e' = false → (replay h.base h.log)[other]? = some x →
        (cs.conflict other (f.convertedRow x) key row).isSome = false) (readLSN : LSN) :
    ∃ rest mid held, flushRound f cs watermark (readsUnderLock h shadow readLSN) b
      = .ok (rest, mid, held) := by
  have flushable := swapping.flushable quiet complete readLSN
  cases ran : f.flush cs (readsUnderLock h shadow readLSN) (drainAll watermark b).2 with
  | ok done =>
    obtain ⟨mid, result⟩ := done
    exact ⟨_, mid, _, flushRound_ok.mpr ⟨rfl, result, ran, rfl⟩⟩
  | error err =>
    obtain ⟨-, ⟨k, kind, rfl, collides⟩ | ⟨v, rfl, -⟩⟩ := flushable.fails ran
    · exfalso
      have flushed := Flusher.leave_flushed (Flusher.toWrite_distinct flushable.distinct)
        flushable.rowsFound
      have next := swapping.flush quiet complete flushed
      obtain ⟨e, member, image, row, other, row', apart, here, there, conflict⟩ := collides
      have writes : f.writes (readsUnderLock h shadow readLSN) (drainAll watermark b).2 e.key
          = true := Flushable.writes_iff.mpr ⟨e, member, rfl⟩
      obtain ⟨x, source, agree⟩ := next.agrees
        (by rw [Flusher.owedAfter, if_pos writes]) here
      cases stored : (heldOver f watermark (readsUnderLock h shadow readLSN) b).entries[other]?
        with
      | none =>
        obtain ⟨y, source', agree'⟩ := next.agrees (next.tracks.free other stored) there
        rw [cs.conflict_congr agree agree', satisfies _ x _ y (Ne.symm apart) source source']
          at conflict
        cases conflict
      | some held =>
        -- the conflict is with the stale row under a held key
        obtain ⟨inside, named, -⟩ := swapping.held_of_entry quiet complete stored
        have quietly := (swapping.entry_of_held quiet complete inside named readLSN).2
        rw [Flushable.frame_of_writes flushed quietly] at there
        obtain ⟨written, unnamed, -⟩ := Flushable.of_mem_toWrite member image
        have clear := free other held row' inside named there e.key e x
          ((mem_drained quiet complete).mp written) image unnamed source
        rw [cs.conflict_congr agree (fun _ _ => rfl), clear] at conflict
        cases conflict
    · exact absurd ran (swapping.not_violation quiet complete)

/-- **A released image is the held one, filled**; it is named again exactly when it omits a column
the shadow dropped. -/
theorem Swapping.released_entry
    (stored : ((heldOver f watermark (readsUnderLock h shadow readLSN) b).release
      maxLSN).entries[key]? = some e) :
    ∃ before, b.entries[key]? = some before ∧ Flusher.named before = true ∧
      (Flusher.named e = true ↔
        ∃ name ∈ relation, valueOf before.columns name = none ∧ name ∉ f.columns) := by
  rcases Buffer.entries_release_eq_some.mp stored with
    ⟨kept, later⟩ | ⟨p, before, waiting, -, kept, rfl⟩
  · obtain ⟨-, -, held, -, waiting⟩ := swapping.held_of_entry quiet complete kept
    have beyond := later _ waiting
    have bound := le_maxLSN held.completion.readLSN
    grind
  · obtain ⟨inside, named, held, read, waiting'⟩ := swapping.held_of_entry quiet complete kept
    rw [waiting', Option.some.injEq] at waiting
    subst waiting
    have shape := named
    simp only [Flusher.named, Bool.and_eq_true, decide_eq_true_eq] at shape
    obtain ⟨row, images⟩ := swapping.tracks.imaged key before inside shape.1.1
    refine ⟨before, inside, named, ?_⟩
    rw [← hasMarker_filled swapping.decodes.once swapping.decodes.copied images.named
      (fun _ omitted => omitted) read]
    simp [Flusher.named, shape.1.1, shape.1.2]

/-- With no image named and none absent a round holds nothing. -/
theorem Swapping.toHold_eq_nil
    (unnamed : ∀ (key : Key) (e : Entry), b.entries[key]? = some e → Flusher.named e = false) :
    f.toHold (readsUnderLock h shadow readLSN) (drainAll watermark b).2 = [] := by
  refine List.eq_nil_iff_forall_not_mem.mpr fun held member => ?_
  rcases Flusher.mem_toHold.mp member with ⟨e, inside, named, -⟩ | ⟨e, inside, -, absent, -⟩
  · rw [unnamed e.key e ((mem_drained quiet complete).mp inside)] at named
    cases named
  · rw [swapping.not_absent quiet complete inside] at absent
    cases absent

/-- The drain succeeds where nothing held stands in its way. -/
theorem Swapping.succeeds (satisfies : f.Satisfies cs fun k => (replay h.base h.log)[k]?)
    (clear : HeldClear f cs relation b shadow (replay h.base h.log)) :
    ∃ after, flushAll f cs watermark (replay h.base h.log) first second b shadow = .ok after := by
  obtain ⟨rest, mid, held, ran⟩ := swapping.round_ok quiet complete satisfies clear.free first
  obtain ⟨same, -, next⟩ := swapping.round quiet complete ran
  obtain ⟨alone, -⟩ := flushRound_ok.mp ran
  obtain ⟨released, quiet'⟩ := next.release
  -- nothing that comes back is held again
  have unnamed : ∀ (key : Key) (e : Entry),
      ((heldOver f watermark (readsUnderLock h shadow first) b).release maxLSN).entries[key]?
        = some e → Flusher.named e = false := by
    intro key e stored
    obtain ⟨before, inside, named, again⟩ := swapping.released_entry quiet complete stored
    rw [Bool.eq_false_iff, ne_eq, again]
    rintro ⟨name, listed, omitted, dropped⟩
    simp only [Flusher.named, Bool.and_eq_true, decide_eq_true_eq] at named
    exact dropped (clear.copied key before inside named.1.1
      (Option.isSome_iff_ne_none.mp named.1.2) name listed omitted)
  obtain ⟨rest', last, held', ran'⟩ := released.round_ok quiet' complete satisfies
    (fun key e row stored named => by rw [unnamed key e stored] at named; cases named) second
  have nothing := (released.round quiet' complete ran').1
  obtain ⟨alone', -⟩ := flushRound_ok.mp ran'
  rw [released.toHold_eq_nil quiet' complete unnamed] at nothing
  subst nothing
  replace ran : flushRound f cs watermark ⟨shadow, replay h.base h.log, first⟩ b
    = .ok (rest, mid, held) := ran
  replace ran' : flushRound f cs watermark ⟨mid, replay h.base h.log, second⟩
    ((heldOver f watermark (readsUnderLock h shadow first) b).release maxLSN)
      = .ok (rest', last, []) := ran'
  rw [flushAll, ran]
  cases held with
  | nil => exact ⟨mid, finish_of_empty (by rw [alone]; exact drained_empty quiet complete)⟩
  | cons image images =>
    have holds : rest.hold (image :: images)
        = .ok (heldOver f watermark (readsUnderLock h shadow first) b) := by
      rw [same, alone]
      exact Flushable.hold_eq (drainedFrom_drain quiet complete)
    simp only [holds, ran']
    exact ⟨last, finish_of_empty (by rw [alone']; exact drained_empty quiet' complete)⟩

/-- A drain that succeeds had nothing held in its way. -/
theorem Swapping.heldClear
    (flushed : flushAll f cs watermark (replay h.base h.log) first second b shadow = .ok after) :
    HeldClear f cs relation b shadow (replay h.base h.log) := by
  obtain ⟨rest, mid, held, ran, outcome⟩ := flushAll_ok flushed
  replace ran : flushRound f cs watermark (readsUnderLock h shadow first) b
    = .ok (rest, mid, held) := ran
  obtain ⟨-, buffered, next⟩ := swapping.round quiet complete ran
  obtain ⟨alone, result, flush, -⟩ := flushRound_ok.mp ran
  refine ⟨fun key e stored kind moved name listed omitted => ?_,
    fun key e row stored named there other e' x stored' kind' unnamed source => ?_⟩
  · by_contra dropped
    obtain ⟨row, images⟩ := swapping.tracks.imaged key e stored kind
    have named : Flusher.named e = true := by
      have marked := (hasMarker_iff (images.named ▸ swapping.decodes.once)).mpr
        ⟨name, images.named ▸ listed, omitted⟩
      simp [Flusher.named, kind, marked, Option.isSome_iff_ne_none.mpr moved]
    obtain ⟨kept, -⟩ := swapping.entry_of_held quiet complete stored named first
    rcases outcome with ⟨rfl, -⟩ | ⟨buffer, rest', last, holds, ran', -⟩
    · -- a round that holds nothing leaves the buffer empty
      replace buffered : rest = _ := buffered
      rw [← buffered, alone, drained_empty quiet complete] at kept
      cases kept
    · obtain rfl := Buffer.hold_ok holds
      rw [buffered] at ran'
      obtain ⟨released, quiet'⟩ := next.release
      obtain ⟨-, -, image, -, waiting⟩ := swapping.held_of_entry quiet complete kept
      have passes : ¬ image.completion.readLSN > maxLSN := by
        have bound := le_maxLSN image.completion.readLSN
        grind
      obtain ⟨comesBack, -⟩ := Buffer.release_taken waiting passes
      rw [kept, Option.map_some] at comesBack
      obtain ⟨before, inside, -, again⟩ := swapping.released_entry quiet complete comesBack
      rw [stored, Option.some.injEq] at inside
      subst inside
      obtain ⟨kept', -⟩ := released.entry_of_held quiet' complete comesBack
        (again.mpr ⟨name, listed, omitted, dropped⟩) second
      obtain ⟨-, buffered', -⟩ := released.round quiet' complete ran'
      obtain ⟨alone', -⟩ := flushRound_ok.mp ran'
      replace buffered' : rest' = _ := buffered'
      rw [← buffered', alone', drained_empty quiet' complete] at kept'
      cases kept'
  · have member : e' ∈ (drainAll watermark b).2.entries :=
      (mem_drained quiet complete).mpr (b.keyed other e' stored' ▸ stored')
    have writes : e' ∈ f.toWrite (readsUnderLock h shadow first) (drainAll watermark b).2 :=
      Flusher.mem_toWrite.mpr (Or.inl ⟨member, unnamed, swapping.not_absent quiet complete member⟩)
    obtain ⟨wrote, conflictFree, -⟩ := Flusher.flush_ok drained_distinct flush
    have own := b.keyed other e' stored'
    subst own
    obtain ⟨row', here, -⟩ := wrote.written e' writes kind'
    have quietly := (swapping.entry_of_held quiet complete stored named first).2
    have stale := Flushable.frame_of_writes wrote quietly
    obtain ⟨y, source', agree⟩ := next.agrees
      (by rw [Flusher.owedAfter, if_pos (Flushable.writes_iff.mpr ⟨e', writes, rfl⟩)]) here
    rw [source, Option.some.injEq] at source'
    subst source'
    have apart : key ≠ e'.key := by
      rintro rfl
      rw [stored, Option.some.injEq] at stored'
      rw [stored', unnamed] at named
      cases named
    rw [← cs.conflict_congr agree (fun _ _ => rfl)]
    exact conflictFree e' writes kind' row' key row apart here (stale.trans there)

end Swapping

/-! ### The drain of a gathered buffer -/

/-- Each key's row in the shadow is one the source held under it since the stream's start: before
the first event, or after any number of them. -/
def HoldsSince (f : Flusher) (h : History) (shadow : Table) : Prop :=
  ∀ key : Key, ∃ p ≤ h.log.length, Matches f.columns shadow[key]? ((h.row p key).map f.convertedRow)

section Gathered

variable {f : Flusher} {relation : List Name} {h : History} {b : Buffer} {shadow : Table}

/-- A shadow that holds every change since is settled under each key. -/
theorem HoldsSince.settled (holds : HoldsSince f h shadow) (key : Key) :
    Settled f everything h 0 key shadow[key]? := by
  obtain ⟨p, within, same⟩ := holds key
  have through : SeenThrough everything h key p := seenThrough_everything within
  cases there : shadow[key]? with
  | none =>
    rw [there] at same
    cases source : h.row p key with
    | none => exact ⟨p, Nat.zero_le _, through, source⟩
    | some x =>
      rw [source] at same
      exact absurd same id
  | some row =>
    rw [there] at same
    cases source : h.row p key with
    | none =>
      rw [source] at same
      exact absurd same id
    | some x =>
      rw [source] at same
      have held : HeldFrom everything h 0 key (some x) := ⟨p, Nat.zero_le _, through, source⟩
      exact ⟨⟨x, held⟩, fun name copied => ⟨x, held, same name copied⟩⟩

/-- What a gathered buffer and the shadow are when the drain starts. -/
theorem swapping_of_gather {base : Table} (decodes : Decodes f relation)
    (valid : History.Valid ⟨base, events.map Prod.fst⟩)
    (holds : HoldsSince f ⟨base, events.map Prod.fst⟩ shadow)
    (gathers : gather relation .new events = .ok b) :
    (∃ g, Swapping f relation ⟨base, events.map Prod.fst⟩ g b shadow) ∧ Quiet b := by
  have nothing : Quiet Buffer.new := fun key => by simp [Buffer.new]
  have empty : Tracked f relation ⟨base, events.map Prod.fst⟩ 0 (fun _ => 0) Buffer.new := by
    have entries : (fun k : Key => Buffer.new.entries[k]?) = fun _ => none :=
      funext fun key => by simp [Buffer.new]
    have pending : (fun k : Key => Buffer.new.pending[k]?) = fun _ => none := funext nothing
    rw [Tracked, entries, pending]
    exact tracks_empty
  exact ⟨gather_tracks valid decodes (Nat.zero_le _) rfl empty holds.settled gathers,
    nothing.gather gathers⟩

end Gathered

/-- **The swap's drain is exact.** From any shadow whose rows the source held since the stream's
start, and any events gathered through the marker, a drain that succeeds leaves the source as of
the marker. -/
theorem flushAll_exact (f : Flusher) (cs : Constraints f.columns) (relation : List Name)
    (decodes : Decodes f relation) (plain : ∀ name, f.conversions name = none) (base : Table)
    (events : List (Committed × LSN)) (valid : History.Valid ⟨base, events.map Prod.fst⟩)
    (shadow after : Table) (holds : HoldsSince f ⟨base, events.map Prod.fst⟩ shadow) (b : Buffer)
    (gathers : gather relation .new events = .ok b) (watermark : Watermark)
    (complete : watermark.complete = true) (first second : LSN)
    (flushed : flushAll f cs watermark (replay base (events.map Prod.fst)) first second b shadow
      = .ok after) (key : Key) :
    Matches f.columns after[key]? (replay base (events.map Prod.fst))[key]? := by
  obtain ⟨⟨g, swapping⟩, quiet⟩ := swapping_of_gather decodes valid holds gathers
  have exactly := swapping.exact quiet complete flushed key
  rwa [Flusher.convertedRow_of_plain plain, Option.map_id_fun, id] at exactly

theorem holdsSince_base {f : Flusher} (plain : ∀ name, f.conversions name = none) (base : Table)
    (log : List Committed) : HoldsSince f ⟨base, log⟩ base := by
  intro key
  refine ⟨0, Nat.zero_le _, ?_⟩
  rw [Flusher.convertedRow_of_plain plain, Option.map_id_fun, id]
  exact Matches.refl _

theorem drainInto_ok {f : Flusher} {cs : Constraints f.columns} {relation : List Name}
    {watermark : Watermark} {source shadow after : Table} {first second : LSN}
    (drained : drainInto f cs relation watermark source first second events shadow = .ok after) :
    ∃ b, gather relation .new events = .ok b ∧
      flushAll f cs watermark source first second b shadow = .ok after := by
  rw [drainInto] at drained
  split at drained
  · cases drained
  next b gathers => exact ⟨b, gathers, drained⟩

theorem nodup_swapped : ["u", "t"].Nodup := by decide

/-- A shadow with the columns `u`, which it holds unique, and `t`. -/
def swapped : Flusher := { columns := ["u", "t"], distinct := nodup_swapped }

/-- A row with the unique value `u`. -/
def rowOf (u : String) : Row := fun name => if name = "u" then some u else some "large"

/-- The rows under 1 and 3. -/
def twoRows : Table := ((∅ : Table).insert 1 (rowOf "x")).insert 3 (rowOf "y")

/-- The row under 3 moves to 4, its event omitting `t`. -/
def moveAway : List (Committed × LSN) :=
  [(⟨.update 4 3 (rowOf "y") ["t"], 7, 20⟩, 10)]

theorem valid_moveAway : History.Valid ⟨twoRows, moveAway.map Prod.fst⟩ :=
  History.Valid.concat (h := ⟨twoRows, []⟩) (fun _ _ found => (nomatch found)) (by decide)

/-- A moved row drained in one round. -/
theorem flushAll_exact_moved :
    ∃ b after, gather ["u", "t"] .new moveAway = .ok b ∧
      flushAll swapped .none (some Int64.maxValue) (replay twoRows (moveAway.map Prod.fst)) 30 30 b
        twoRows = .ok after ∧ after.contains 4 = true ∧
      Matches ["u", "t"] after[(4 : Key)]?
        (replay twoRows (moveAway.map Prod.fst))[(4 : Key)]? := by
  have drains : (drainInto swapped .none ["u", "t"] (some Int64.maxValue)
      (replay twoRows (moveAway.map Prod.fst)) 30 30 moveAway twoRows).map
        (fun after => after.contains 4) = .ok true := by
    decide +kernel
  obtain ⟨after, drained, there⟩ := map_ok.mp drains
  obtain ⟨b, gathers, flushed⟩ := drainInto_ok drained
  exact ⟨b, after, gathers, flushed, there,
    flushAll_exact swapped .none ["u", "t"] ⟨by decide, by decide⟩ (fun _ => rfl) twoRows moveAway
      valid_moveAway twoRows after (holdsSince_base (fun _ => rfl) _ _) b gathers _
        (by decide) 30 30
      flushed 4⟩

/-- The unique values of `u`. -/
def uniqueU : Constraints swapped.columns := .unique "u" (by decide)

/-- The row under 1 is deleted, the row under 3 moves to 1 with `t` omitted, and a new row takes the
value the deleted one had. -/
def moveOntoFreed : List (Committed × LSN) :=
  [(⟨.delete 1, 7, 20⟩, 10), (⟨.update 1 3 (rowOf "y") ["t"], 8, 30⟩, 20),
    (⟨.insert 2 (rowOf "x"), 9, 40⟩, 30)]

end PgSprite.SchemaChange
