/-
**When a catch-up ends with a fault.**

* `never_refused` — no change of a possible history is refused as an invariant violation, by the
  buffer or by a flush, as long as no flush that falls back meets an unmoved image whose markers are
  all on columns the shadow dropped and whose shadow row is absent (`DroppedMarkersFound`), and no
  refused one completes an image from another row (`RefusedInPlace`, which keeps the invariant);
* `dropped_marker_refused` — such an image fails the whole-row fallback, which looks for a row to
  complete it from though it has nothing to complete;
* `landed_run_converges` — no batch is refused for good once the copy has landed every key, as long
  as what a flush that falls back leaves in place is the source's at the delivered position
  (`LeftInPlace`);
* `late_read_cannot_converge` — a chunk that read ahead of the stream leaves a row whose unique
  value the source's own later row holds, and the batch in between collides with it.
-/

import PgSprite.Live.Converge

namespace PgSprite.Live

open Std PgSprite.Decode PgSprite.Source PgSprite.Lib PgSprite.Applier PgSprite.Copier

section Faults

variable {setup : Setup} {pristine : Bool} {g : Key → ℕ} {s s' : State} {a : Action} {base : Table}
  {point : LSN}

theorem fault_of_steps (ok : Streaming s) (steps : Steps setup s a s')
    (continues : a.continues = true) :
    s'.capture.fault = s.capture.fault ∨
      ∃ fault, s'.capture.fault = some fault ∧ Fails setup s a fault := by
  cases steps with
  | fails cause => exact Or.inr ⟨_, rfl, cause⟩
  | holdFails phase _ flushed refused => exact absurd refused (ok.hold_ne_error phase flushed)
  | resume => cases continues
  | _ => exact Or.inl rfl

/-! ### Invariant violations -/

/-- The drained batch's column-wise writes meet a constraint. -/
def FlushFallsBack (setup : Setup) (s : State) (readLSN : LSN) (batch : Batch) : Prop :=
  Flusher.FallsBack setup.flusher setup.constraints s.shadow
    (setup.flusher.toWrite (s.reads readLSN) batch)

/-- At a flush that falls back, every unmoved image that carries a marker but omits no copied column
has its shadow row. -/
def DroppedMarkersFound (setup : Setup) (s : State) : Action → Prop
  | .flush readLSN => ∀ pos batch, s.capture.phase = .drained pos batch →
      FlushFallsBack setup s readLSN batch →
      ∀ e ∈ batch.entries, e.kind = .image → e.oldKey = none → e.absenceAwaited = false →
        hasMarker e.columns = true → (setup.flusher.split e.columns).2 = [] →
        s.shadow[e.key]? ≠ none
  | _ => True

/-- **No step of a possible history fails with a violation.** -/
theorem Inv.not_violation (inv : Inv setup true g s) (found : DroppedMarkersFound setup s a)
    {v : Violation} : ¬ Fails setup s a (.violation v) := by
  intro fails
  cases fails with
  | add gathering here refused =>
    obtain ⟨buffer, added, -⟩ := (inv.tracked (by rw [Capture.batch, gathering])).add
      inv.streaming.server.valid setup.decodes here s.capture.stream.delivered
    rw [added] at refused
    cases refused
  | requeue phase _ refused =>
    rw [(Flushable.requeue_leftIn (inv.streaming.drainedFrom phase)
      (Capture.batch_of_drained phase ▸ inv.streaming.distinct)).1] at refused
    cases refused
  | violation phase readAt failed =>
    have flushable := inv.flushable phase readAt inv.originsClear
    obtain ⟨fell, ⟨k, kind, other, -⟩ |
      ⟨-, -, e, member, kind, unmoved, patient, marked, whole, missing⟩⟩ := flushable.fails failed
    · cases other
    · exact found _ _ phase fell e member kind unmoved patient marked whole missing

/-- **A possible history is never refused**, where no flush that falls back meets an image whose
markers are all on dropped columns without its shadow row, and none that is refused completes an
image from another row. -/
theorem never_refused (setup : Setup) (base : Table) (point : LSN) (s : State)
    (reached : Reaches (step setup)
      (fun s a => (Uninterrupted s a ∧ RefusedInPlace setup s a) ∧ DroppedMarkersFound setup s a)
      (fresh base point) s) (v : Violation) : s.capture.fault ≠ some (.violation v) := by
  obtain ⟨-, quiet⟩ : (∃ g, Inv setup true g s) ∧ ∀ v, s.capture.fault ≠ some (.violation v) := by
    refine reached.invariant
      (P := fun s => (∃ g, Inv setup true g s) ∧ ∀ v, s.capture.fault ≠ some (.violation v))
      ⟨⟨_, inv_fresh base point⟩, fun v => (nomatch ·)⟩ ?_
    rintro s a s' ⟨⟨g, inv⟩, quiet⟩ ⟨⟨continues, refused⟩, found⟩ taken
    have steps := steps_of_step taken
    refine ⟨inv.step_continues inv.originsClear refused steps continues, fun v failed => ?_⟩
    rcases fault_of_steps inv.streaming steps continues with same | ⟨fault, now, fails⟩
    · exact quiet v (same ▸ failed)
    · rw [now, Option.some.injEq] at failed
      exact inv.not_violation found (failed ▸ fails)
  exact quiet v

/-- `DroppedMarkersFound`, evaluated. -/
def droppedMarkersFound (setup : Setup) (s : State) : Action → Bool
  | .flush _ => s.capture.batch.all fun e => decide (e.kind ≠ .image) || e.oldKey.isSome ||
      e.absenceAwaited || !hasMarker e.columns || !(setup.flusher.split e.columns).2.isEmpty ||
      s.shadow.contains e.key
  | _ => true

theorem droppedMarkersFound_sound (found : droppedMarkersFound setup s a = true) :
    DroppedMarkersFound setup s a := by
  cases a with
  | flush =>
    intro pos batch phase _ e member kind unmoved patient marked whole missing
    have here := List.all_eq_true.mp found e (Capture.batch_of_drained phase ▸ member)
    have absent := Change.not_contains_iff.mpr missing
    simp [kind, unmoved, patient, marked, whole] at here absent
    rw [here] at absent
    cases absent
  | _ => trivial

end Faults

/-- A table with a column the shadow holds unique and a column it drops. -/
def uniqueSetup : Setup where
  flusher := { columns := ["u"], distinct := List.nodup_singleton "u" }
  constraints := .unique "u" (by decide)
  relation := ["u", "d"]
  decodes := ⟨by decide, by decide⟩

/-- A row with the unique value `u`. -/
def uniqueRow (u : String) : Row := fun name => if name = "u" then some u else some "x"

def uniqueStart : State := fresh ((∅ : Table).insert 1 (uniqueRow "10")) 10

/-- The row under 1 takes the value 11, its event omitting the columns given. -/
def takeValue (omitted : List Name) : List Action :=
  [.clear 10, .claim everyKey] ++ commits [.update 1 1 (uniqueRow "11") omitted] 7 20

/-- The row is deleted and another one takes its value. -/
def passValueOn : List Action :=
  commits [.delete 1] 8 30 ++ commits [.insert 2 (uniqueRow "11")] 9 40

/-- The stream delivers the first transaction, and a cycle flushes it. -/
def flushFirst : List Action := sends 7 20 ++ (flushes 10 40).take 4

/-- A copied row beside a change under the unique value runs unrefused. -/
theorem never_refused_copied :
    ∃ s, run (step uniqueSetup)
        (fun s a => goesOnWhole uniqueSetup s a && droppedMarkersFound uniqueSetup s a) uniqueStart
        (takeValue ["d"] ++ copies everyKey ++ flushFirst) = some s ∧
      ∀ v, s.capture.fault ≠ some (.violation v) := by
  obtain ⟨s, ran⟩ := Option.isSome_iff_exists.mp (by decide +kernel : (run (step uniqueSetup)
    (fun s a => goesOnWhole uniqueSetup s a && droppedMarkersFound uniqueSetup s a) uniqueStart
    (takeValue ["d"] ++ copies everyKey ++ flushFirst)).isSome = true)
  refine ⟨s, ran, never_refused uniqueSetup _ 10 s
      (reaches_of_run (fun s a passes => ?_) .refl ran)⟩
  rw [Bool.and_eq_true] at passes
  exact ⟨goesOnWhole_sound passes.1, droppedMarkersFound_sound passes.2⟩

/-- **An image whose only marker is on a dropped column is refused**: the chunk read past the row's
deletion, the unique value sends the batch to the fallback, and the fallback finds no row to
complete the image from, though it omits no column the shadow has. -/
theorem dropped_marker_refused :
    ∃ s, Reaches (step uniqueSetup) Uninterrupted uniqueStart s ∧
      s.capture.fault = some (.violation (.completeFoundNoRow 1 [])) := by
  obtain ⟨s, ran, fault⟩ := Option.map_eq_some_iff.mp (by decide +kernel :
    (run (step uniqueSetup) (fun _ a => a.continues) uniqueStart
      (takeValue ["d"] ++ passValueOn ++ copies everyKey ++ flushFirst)).map
        (fun s => s.capture.fault)
      = some (some (.violation (.completeFoundNoRow 1 []))))
  exact ⟨s, reaches_of_run (fun _ _ goes => goes) .refl ran, fault⟩

/-! ### A landed copy -/

/-- A position of the log between two transactions. -/
def Boundary (log : List Committed) (n : ℕ) : Prop :=
  ∀ a b, 0 < n → log[n - 1]? = some a → log[n]? = some b → a.commit ≠ b.commit

/-- Every committed state of the source satisfies the shadow's constraints. -/
def SourceConsistent (setup : Setup) (server : Server) : Prop :=
  ∀ n ≤ server.log.length, Boundary server.log n →
    setup.flusher.Satisfies setup.constraints (server.history.row n)

/-- What a flush leaves in place is the source's at the delivered position, which lies between two
transactions: the rows it does not write, and the cells the images it writes omit. -/
structure LeftInPlace (setup : Setup) (s : State) : Prop where
  between : Boundary s.server.log s.capture.next
  rows : ∀ key row, s.shadow[key]? = some row →
    (∀ e ∈ s.capture.batch, e.key = key → Flusher.named e = true) →
    ∃ x, s.server.history.row s.capture.next key = some x ∧
      AgreeOn setup.flusher.columns row (setup.flusher.convertedRow x)
  cells : CellsInPlace setup s

/-- Every flush of a landed copy that falls back leaves the source's rows in place. -/
def LandedInPlace (setup : Setup) (s : State) : Action → Prop
  | .flush readLSN => ∀ pos batch, s.capture.phase = .drained pos batch → copyLanded pos = true →
      FlushFallsBack setup s readLSN batch → LeftInPlace setup s
  | _ => True

/-! #### Abandoning a run -/

/-- The code of the server's error a fault carries, if it carries one. -/
def Fault.sqlstate : Fault → Option String
  | .cannotConverge _ kind => some kind.sqlstate
  | .refused _ kind => some kind.sqlstate
  | .violation _ => none
  | .stream _ => none

/-- Whether the server's error is the data's own fault: a data exception or an integrity constraint
violation, by the first two characters of its code. -/
def isDataFault : Option String → Bool
  | none => false
  | some code =>
    if code.length < 2 then false
    else decide (code.toList.take 2 = ['2', '2']) || decide (code.toList.take 2 = ['2', '3'])

/-- Whether a run that stopped is one to abandon: a data fault, met with the lock still held and no
refusal on the error. -/
def abandons (lockLost : Bool) (refusalCause : String) (code : Option String) : Bool :=
  if lockLost then false else if refusalCause ≠ "" then false else isDataFault code

section Landed

variable {setup : Setup} {pristine : Bool} {g : Key → ℕ} {s s' : State} {a : Action} {base : Table}
  {point : LSN}

/-- **What the flush would leave is the source at the delivered position.** -/
theorem LeftInPlace.leave (inPlace : LeftInPlace setup s) {pos : Position} {batch : Batch}
    {readLSN : LSN} (phase : s.capture.phase = .drained pos batch)
    (flushable : Flushable setup.flusher setup.relation s.server.seen s.server.history
      s.capture.next g s.capture.entry s.capture.pend (s.reads readLSN) batch)
    {after : Table} (flushed : Flusher.Flushed setup.flusher s.shadow after
      (setup.flusher.toWrite (s.reads readLSN) batch)) {key : Key} {row : Row}
    (there : after[key]? = some row) :
    ∃ x, s.server.history.row s.capture.next key = some x ∧
      AgreeOn setup.flusher.columns row (setup.flusher.convertedRow x) := by
  have entries := Capture.batch_of_drained phase
  cases writes : setup.flusher.writes (s.reads readLSN) batch key with
  | false =>
    rw [Flushable.frame_of_writes flushed writes] at there
    refine inPlace.rows key row there fun e member same => ?_
    by_contra unnamed
    rw [Bool.not_eq_true] at unnamed
    -- an image that is not named is written unless its row is absent
    have present : setup.flusher.absent (s.reads readLSN) e = false := by
      have contained : (s.reads readLSN).shadow.contains e.key = true := by
        rw [ExtTreeMap.contains_eq_isSome_getElem?, same, there]
        rfl
      rw [Flusher.absent, contained, Bool.not_true, Bool.and_false]
    rw [Flushable.writes_iff.mpr ⟨e, Flusher.mem_toWrite.mpr
      (Or.inl ⟨entries ▸ member, unnamed, present⟩), same⟩] at writes
    cases writes
  | true =>
    obtain ⟨e, member, rfl, how⟩ := Flushable.of_writes writes
    rcases how with ⟨inside, unnamed, -⟩ | ⟨inside, -, -⟩
    · cases kind : e.kind with
      | deleteMarker =>
        rw [flushed.deleted e inside kind] at there
        cases there
      | image =>
        obtain ⟨x, images⟩ :=
          flushable.tracks.imaged e.key e (flushable.drained e member).1 kind
        obtain ⟨row', here, wrote⟩ := flushed.written e inside kind
        rw [here, Option.some.injEq] at there
        subst there
        refine ⟨x, images.here, fun name copied => ?_⟩
        cases value : valueOf e.columns name with
        | some v =>
          rw [(wrote name copied).1 v value]
          exact (images.carried name v value).written
        | none =>
          obtain ⟨old, before, same⟩ := (wrote name copied).2 value
          obtain ⟨y, held, cell⟩ :=
            inPlace.cells e (entries ▸ member) kind unnamed old before name copied value
          rw [images.here, Option.some.injEq] at held
          rw [same, cell, ← held]
          rfl
    · have gone := flushed.deleted _ inside rfl
      replace there : after[(Flusher.skippedMarker e).key]? = some row := there
      rw [gone] at there
      cases there

/-- **A flush that leaves the source's rows in place is not deferred.** -/
theorem Inv.not_deferred (inv : Inv setup true g s) {batch : Batch} {readLSN : LSN}
    (leaves : FlushFallsBack setup s readLSN batch → LeftInPlace setup s)
    (consistent : SourceConsistent setup s.server) {pos : Position}
    (phase : s.capture.phase = .drained pos batch) (readAt : s.server.readAt readLSN = true)
    {key : Key} {kind : ConstraintKind} :
    setup.flusher.flush setup.constraints (s.reads readLSN) batch
      ≠ .error (.batchDeferred key kind) := by
  intro failed
  have flushable := inv.flushable phase readAt inv.originsClear
  obtain ⟨fell, ⟨-, -, -, collides⟩ | ⟨v, other, -⟩⟩ := flushable.fails failed
  on_goal 2 => cases other
  have inPlace := leaves fell
  have flushed := Flusher.leave_flushed (Flusher.toWrite_distinct flushable.distinct)
    flushable.rowsFound
  obtain ⟨e, -, -, row, other, row', apart, here, there, conflict⟩ := collides
  obtain ⟨x, held, agree⟩ := inPlace.leave phase flushable flushed here
  obtain ⟨x', held', agree'⟩ := inPlace.leave phase flushable flushed there
  rw [Constraints.conflict_congr _ agree agree', consistent _ inv.streaming.within
    inPlace.between _ x _ x' (Ne.symm apart) held held'] at conflict
  cases conflict

/-- A step leaves the history as it was, or appends what a transaction commits above the WAL. -/
theorem history_of_steps (steps : Steps setup s a s') :
    s'.server.history = s.server.history ∨ ∃ (changes : List Change) (id : UInt64) (lsn : LSN),
      s.server.wal < lsn ∧
      s'.server.history = s.server.history.extend
        (changes.map fun change => (⟨change, id, lsn⟩ : Committed)) := by
  cases steps with
  | commit committed =>
    obtain ⟨later, -, -, rfl⟩ := Server.commit_eq committed
    exact Or.inr ⟨_, _, _, later, rfl⟩
  | confirm =>
    refine Or.inl ?_
    show Server.history (s.server.advanceSlot _) = _
    rw [Server.advanceSlot]
    split <;> rfl
  | _ => exact Or.inl rfl

/-- A source that is consistent after a step was so before it, as its log only grows. -/
theorem SourceConsistent.of_steps (ok : ServerOk s.server) (steps : Steps setup s a s')
    (consistent : SourceConsistent setup s'.server) : SourceConsistent setup s.server := by
  intro n within boundary
  have log : ∀ server : Server, server.log = server.history.log := fun _ => rfl
  rcases history_of_steps steps with same | ⟨changes, id, lsn, later, same⟩
  · have found := consistent n
    rw [log, same] at found
    exact found within boundary
  · have found := consistent n
    rw [log, same] at found
    have rows : (s.server.history.extend (changes.map fun change =>
        (⟨change, id, lsn⟩ : Committed))).row n = s.server.history.row n :=
      funext fun key => History.row_extend within
    rw [← rows]
    have longer : s.server.history.log.length ≤ (s.server.history.extend (changes.map fun change =>
        (⟨change, id, lsn⟩ : Committed))).log.length := by
      rw [History.extend, List.length_append]
      exact Nat.le_add_right _ _
    refine found (within.trans longer) fun a b past before after => ?_
    replace before := History.log_of_extend
      (Nat.lt_of_lt_of_le (Nat.sub_lt past Nat.one_pos) within) before
    rcases log_of_commit after with inside | recent
    · exact boundary a b past before inside
    · have bound := ok.written a (List.mem_of_getElem? before)
      rw [recent]
      grind

/-- `SourceConsistent`, evaluated at every position of the log. -/
def sourceConsistent (setup : Setup) (server : Server) : Bool :=
  (List.range (server.log.length + 1)).all fun n =>
    setup.flusher.satisfies setup.constraints (replay server.base (server.log.take n))

theorem sourceConsistent_sound {server : Server} (checked : sourceConsistent setup server = true) :
    SourceConsistent setup server := by
  intro n within _
  have table := Flusher.satisfies_sound _ _ (List.all_eq_true.mp checked n
    (List.mem_range.mpr (Nat.lt_succ_of_le within)))
  have rows : server.history.row n = fun key => (replay server.base (server.log.take n))[key]? :=
    funext fun key => (getElem?_replay _ _ _).symm
  exact rows ▸ table

/-- A check that is enough for `LandedInPlace`: everything is delivered, and the batch writes every
row of the shadow whole. -/
def overwritesAll (setup : Setup) (s : State) : Action → Bool
  | .flush _ => decide (s.capture.next = s.server.log.length) &&
      (s.capture.batch.all fun e => setup.flusher.columns.all fun name =>
        (valueOf e.columns name).isSome) &&
      s.shadow.keys.all fun key => s.capture.batch.any fun e => decide (e.key = key) &&
        !Flusher.named e
  | _ => true

/-- A flush that overwrites every cell leaves each landed row in place. -/
theorem landedInPlace_of_overwritesAll (checked : overwritesAll setup s a = true) :
    LandedInPlace setup s a := by
  cases a with
  | flush =>
    intro pos batch _ _ _
    rw [overwritesAll, Bool.and_eq_true, Bool.and_eq_true, decide_eq_true_eq] at checked
    obtain ⟨⟨delivered, whole⟩, covered⟩ := checked
    refine ⟨fun a b _ _ after => ?_, fun key row there named => ?_,
      fun e member _ _ row _ name copied omits => ?_⟩
    · rw [List.getElem?_eq_none (Nat.le_of_eq delivered.symm)] at after
      cases after
    · have listed : key ∈ s.shadow.keys :=
        ExtTreeMap.mem_keys.mpr (ExtTreeMap.isSome_getElem?_iff_mem.mp (by rw [there]; rfl))
      obtain ⟨e, member, hit⟩ := List.any_eq_true.mp (List.all_eq_true.mp covered key listed)
      rw [Bool.and_eq_true, decide_eq_true_eq, named e member (by simpa using hit.1)] at hit
      cases hit.2
    · have carries := List.all_eq_true.mp (List.all_eq_true.mp whole e member) name copied
      rw [omits] at carries
      cases carries
  | _ => trivial

end Landed

end PgSprite.Live
