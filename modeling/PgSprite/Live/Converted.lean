/-
**Every value is converted exactly once.**

Over a live run, with restarts and refused batches, each row statement a flush sends binds the key
first and then the values of the columns it lists. The value of a converted column is bound under
the column's expression where it has the source's form, and bare where it has the shadow's: the
invariant `Formed` follows the two forms through the source, the stream, the buffer, the pending
completions, the copier's passes and the shadow (`Formed.step`), and `converted_once` reads it at a
flush.
-/

import PgSprite.Applier.Forms
import PgSprite.Live.Converge

namespace PgSprite.Live

open Std PgSprite.Decode PgSprite.Source PgSprite.Lib PgSprite.Applier PgSprite.Copier

variable {setup : Setup} {forms : Forms setup.flusher} {s s' : State} {a : Action} {base : Table}
  {point : LSN}

/-- The change leaves a row of the source's form. -/
def SourceChange (forms : Forms setup.flusher) : Change → Prop
  | .insert _ row => forms.SourceRow row
  | .update _ _ row _ => forms.SourceRow row
  | .delete _ => True

/-- The source's transactions write values of the source's form. -/
def CommitsSourceForm (forms : Forms setup.flusher) (_ : State) : Action → Prop
  | .commit changes _ _ => ∀ change ∈ changes, SourceChange forms change
  | _ => True

/-- Every value of a converted column has the form of the place it stands in. -/
structure Formed (forms : Forms setup.flusher) (s : State) : Prop where
  streaming : Streaming s
  base : forms.SourceTable s.server.base
  log : ∀ c ∈ s.server.log, SourceChange forms c.change
  buffer : Buffer.Holds forms.Carries s.capture.buffer
  batch : ∀ e ∈ s.capture.batch, Each forms.Carries e.columns
  shadow : forms.ShadowTable s.shadow
  passes : ∀ chunk rows, s.copy.passes chunk = .reading rows → forms.SourceTable rows

/-! ### The source's rows -/

/-- A change in source form keeps the source's rows so. -/
theorem sourceTable_apply {table : Table} {change : Change} (rows : forms.SourceTable table)
    (formed : SourceChange forms change) : forms.SourceTable (change.apply table) := by
  intro key row there
  rw [Change.getElem?_apply] at there
  cases change with
  | insert key' row' =>
    simp only [Change.effect] at there
    split at there
    · cases there
      exact formed
    · exact rows key row there
  | update key' old row' omitted =>
    simp only [Change.effect] at there
    split at there
    · cases there
      exact formed
    · split at there
      · cases there
      · exact rows key row there
  | delete key' =>
    simp only [Change.effect] at there
    split at there
    · cases there
    · exact rows key row there

theorem sourceTable_replay {log : List Committed} (rows : forms.SourceTable base)
    (formed : ∀ c ∈ log, SourceChange forms c.change) : forms.SourceTable (replay base log) := by
  induction log generalizing base with
  | nil => exact rows
  | cons c log ih =>
    exact ih (sourceTable_apply rows (formed c List.mem_cons_self)) fun c' member =>
      formed c' (List.mem_cons_of_mem _ member)

theorem Formed.shown (formed : Formed forms s) : forms.SourceTable s.server.shown :=
  sourceTable_replay formed.base fun c member => formed.log c (List.mem_filter.mp member).1

/-- The event of a change in source form carries such columns. -/
theorem each_event {change : Change} (formed : SourceChange forms change) (relation : List Name)
    (delivered : LSN) (xid : Xid) :
    Each forms.Carries (change.event relation delivered xid).columns := by
  intro c member v value conversion
  cases change with
  | insert key row =>
    obtain ⟨name, -, rfl⟩ := List.mem_map.mp member
    obtain rfl : Value.text (row name) = v := Option.some.inj value
    exact formed name conversion
  | update key old row omitted =>
    obtain ⟨name, -, rfl⟩ := List.mem_map.mp member
    dsimp only at value conversion
    split at value
    · cases value
    · obtain rfl : Value.text (row name) = v := Option.some.inj value
      exact formed name conversion
  | delete key => cases member

/-! ### The shadow's rows -/

theorem shadowTable_foldl_erase {shadow : Table} (rows : forms.ShadowTable shadow)
    (keys : List Key) :
    forms.ShadowTable (keys.foldl (fun shadow key => shadow.erase key) shadow) := by
  induction keys generalizing shadow with
  | nil => exact rows
  | cons key keys ih =>
    refine ih fun k row there => ?_
    rw [ExtTreeMap.getElem?_erase] at there
    split at there
    · cases there
    · exact rows k row there

/-- The copier's rows are converted as they are inserted. -/
theorem shadowTable_foldl_insert {shadow : Table} (rows : forms.ShadowTable shadow)
    {added : List (Key × Row)} (read : ∀ entry ∈ added, forms.SourceRow entry.2) :
    forms.ShadowTable (added.foldl (fun shadow entry =>
      shadow.insert entry.1 (setup.flusher.convertedRow entry.2)) shadow) := by
  induction added generalizing shadow with
  | nil => exact rows
  | cons entry added ih =>
    refine ih (fun k row there => ?_) fun entry' member =>
      read entry' (List.mem_cons_of_mem _ member)
    rw [ExtTreeMap.getElem?_insert] at there
    split at there
    · cases there
      exact Forms.convertedRow (read entry List.mem_cons_self)
    · exact rows k row there

theorem Formed.inserted (formed : Formed forms s) {chunk : Chunk} {rows : Table}
    {refused : List Key} (reading : s.copy.passes chunk = .reading rows) :
    ∀ entry ∈ State.inserted s.shadow rows refused, forms.SourceRow entry.2 := by
  rintro ⟨key, row⟩ member
  have listed := (List.mem_filter.mp member).1
  exact formed.passes chunk rows reading key row
    (ExtTreeMap.mem_toList_iff_getElem?_eq_some.mp listed)

/-! ### One step -/

theorem Formed.recopy (formed : Formed forms s) {copy : Copy} {shadow : Table}
    (streaming : Streaming { s with copy, shadow }) (table : forms.ShadowTable shadow)
    (passes : ∀ chunk rows, copy.passes chunk = .reading rows → forms.SourceTable rows) :
    Formed forms { s with copy, shadow } :=
  { formed with streaming := streaming, shadow := table, passes := passes }

theorem Formed.passes_update (formed : Formed forms s) {chunk : Chunk} {pass : Pass}
    (source : ∀ rows, pass = .reading rows → forms.SourceTable rows) (chunk' : Chunk) (rows : Table)
    (reading : Function.update s.copy.passes chunk pass chunk' = .reading rows) :
    forms.SourceTable rows := by
  by_cases same : chunk' = chunk
  · subst same
    rw [Function.update_self] at reading
    exact source rows reading
  · rw [Function.update_of_ne same] at reading
    exact formed.passes chunk' rows reading

/-- **Every step keeps every value in the form of its place.** -/
theorem Formed.step (formed : Formed forms s) (commits : CommitsSourceForm forms s a)
    (steps : Steps setup s a s') : Formed forms s' := by
  have streaming := formed.streaming.step steps
  have distinct := formed.streaming.distinct
  cases steps with
  | fails => exact { formed with streaming := streaming }
  | commit committed =>
    obtain ⟨-, -, -, rfl⟩ := Server.commit_eq committed
    refine { formed with streaming := streaming, log := fun c member => ?_ }
    rcases List.mem_append.mp member with before | added
    · exact formed.log c before
    · obtain ⟨change, listed, rfl⟩ := List.mem_map.mp added
      exact commits change listed
  | becomeVisible => exact { formed with streaming := streaming }
  | keepalive => exact { formed with streaming := streaming }
  | sendBegin => exact { formed with streaming := streaming }
  | @sendChange c buffer _ found _ added =>
    have each := each_event (formed.log c (List.mem_of_getElem? found)) setup.relation
      s.capture.stream.delivered c.xid
    exact { formed with streaming := streaming, buffer := formed.buffer.add each added }
  | sendCommit => exact { formed with streaming := streaming }
  | release =>
    exact { formed with
      streaming := streaming
      buffer := formed.buffer.release _
      batch := fun e member => (nomatch member) }
  | pause =>
    exact { formed with streaming := streaming, batch := fun e member => (nomatch member) }
  | snapshot =>
    exact { formed with streaming := streaming, batch := fun e member => (nomatch member) }
  | @drain snap phase =>
    obtain ⟨kept, handed⟩ := formed.buffer.drain s.copy.ledger.position snap
    exact { formed with streaming := streaming, buffer := kept, batch := handed }
  | @flush readLSN pos batch after result buffer phase readAt flushed held =>
    have entries := Capture.batch_of_drained phase
    obtain ⟨wrote, -, same⟩ := Flusher.flush_ok (entries ▸ distinct) flushed
    rw [same] at held
    obtain rfl := Buffer.hold_ok held
    have each : ∀ e ∈ batch.entries, Each forms.Carries e.columns := entries ▸ formed.batch
    refine { formed with
      streaming := streaming, batch := fun e member => (nomatch member)
      buffer := ?_, shadow := ?_ }
    · exact formed.buffer.foldl_holdOne fun h member =>
        Forms.held formed.shadow formed.shown each member
    · exact Forms.flushed formed.shadow
        (fun e member => Forms.mem_toWrite_columns each member) wrote
  | @holdFails readLSN pos batch after result v phase readAt flushed refused =>
    exact absurd refused (formed.streaming.hold_ne_error phase flushed)
  | @requeue readLSN pos batch key kind buffer phase _ _ _ requeued =>
    have entries := Capture.batch_of_drained phase
    obtain rfl := Buffer.requeue_ok requeued
    refine { formed with
      streaming := streaming, batch := fun e member => (nomatch member), buffer := ?_ }
    refine formed.buffer.foldl_put fun e member => ?_
    obtain ⟨e', inside, rfl⟩ := List.mem_map.mp member
    exact Forms.entryLeft formed.shadow (formed.batch e' (entries ▸ inside))
  | confirmed =>
    exact { formed with streaming := streaming, batch := fun e member => (nomatch member) }
  | @confirm bound =>
    rw [Server.advanceSlot_eq] at streaming ⊢
    exact { formed with streaming := streaming, batch := fun e member => (nomatch member) }
  | record =>
    exact { formed with streaming := streaming, batch := fun e member => (nomatch member) }
  | clearNothing => exact { formed with streaming := streaming }
  | clear =>
    exact { formed with streaming := streaming, shadow := shadowTable_foldl_erase formed.shadow _ }
  | claim => exact { formed with streaming := streaming }
  | read =>
    refine { formed with
      streaming := streaming, passes := formed.passes_update fun rows reads => ?_ }
    obtain rfl := Pass.reading.inj reads
    intro key row there
    rw [ExtTreeMap.getElem?_filter', Option.filter_eq_some_iff] at there
    exact formed.shown key row there.1
  | abort =>
    exact { formed with
      streaming := streaming, passes := formed.passes_update fun rows reads => (nomatch reads) }
  | commitPass reading added =>
    subst added
    exact formed.recopy streaming
      (shadowTable_foldl_insert formed.shadow (formed.inserted reading))
      (formed.passes_update fun rows reads => (nomatch reads))
  | land =>
    exact { formed with
      streaming := streaming, passes := formed.passes_update fun rows reads => (nomatch reads) }
  | settle =>
    exact { formed with
      streaming := streaming, passes := formed.passes_update fun rows reads => (nomatch reads) }
  | readApplied => exact { formed with streaming := streaming }
  | unmoved => exact { formed with streaming := streaming }
  | readLanded => exact { formed with streaming := streaming }
  | save => exact { formed with streaming := streaming }
  | saveApplied => exact { formed with streaming := streaming }
  | resume =>
    exact { formed with
      streaming := streaming, buffer := Buffer.holds_new, batch := fun e member => (nomatch member)
      passes := fun chunk rows reading => (nomatch reading) }

theorem formed_fresh (rows : forms.SourceTable base) (point : LSN) :
    Formed forms (fresh base point) where
  streaming := streaming_fresh base point
  base := rows
  log c member := (nomatch member)
  buffer := Buffer.holds_new
  batch e member := (nomatch member)
  shadow key row there := by simp [fresh] at there
  passes chunk rows reading := (nomatch reading)

theorem formed_of_reaches (rows : forms.SourceTable base)
    (reached : Reaches (step setup) (CommitsSourceForm forms) (fresh base point) s) :
    Formed forms s := by
  refine reached.invariant (P := Formed forms) (formed_fresh rows point) ?_
  intro s a s' formed commits taken
  exact formed.step commits (steps_of_step taken)

/-! ### What a flush sends -/

/-- **Every value is converted exactly once.** What a flush commits is written by its row
statements. Each of them lists its columns against their parameters, the `i`-th against parameter
`i + 2`; every listed column carries the value bound there, and its expression stands for what is
written. Where the column is converted, the expression is over a value of the source's form, or the
parameter is bare and has the shadow's. -/
theorem converted_once (setup : Setup) (conv : Conversions)
    (domain : ∀ name, (conv name).isSome = (setup.flusher.conversions name).isSome)
    (forms : Forms setup.flusher) (base : Table) (rows : forms.SourceTable base) (point : LSN)
    (s : State) (reached : Reaches (step setup) (CommitsSourceForm forms) (fresh base point) s)
    (readLSN : LSN) (pos : Position) (batch : Batch)
    (phase : s.capture.phase = .drained pos batch) :
    (∀ after done,
      setup.flusher.flush setup.constraints (s.reads readLSN) batch = .ok (after, done) →
        ∃ (keys : List Key) (sent : List RowStatement),
          sent.Sublist (setup.flusher.rowStatements (s.reads readLSN) batch) ∧
          setup.flusher.sendAll setup.constraints (keys.foldl ExtTreeMap.erase s.shadow) sent
            = some after) ∧
    ∀ st ∈ setup.flusher.rowStatements (s.reads readLSN) batch, ∀ relation pk,
      st.sql relation pk conv = RowStatement.render st.kind relation pk (st.assignments conv) ∧
      ∃ params, args st.key st.columns = .ok params ∧ params[0]? = some (.key st.key) ∧
        ∀ i c, st.columns[i]? = some c → ∃ v, c.value = some v ∧
          (st.assignments conv)[i]? = some (c.name, valueExpr (i + 2) c conv) ∧
          params[i + 1]? = some (.value (bound v)) ∧
          (valueExpr (i + 2) c conv).eval setup.flusher params
            = some (setup.flusher.written c.name v) ∧
          ∀ cv, conv c.name = some cv →
            (valueExpr (i + 2) c conv = .using c.name cv (i + 2) ∧ forms.source c.name (bound v)) ∨
              (valueExpr (i + 2) c conv = .param (i + 2) ∧ forms.shadow c.name (bound v)) := by
  refine ⟨fun after done => setup.flusher.flush_sends setup.constraints, ?_⟩
  intro st sent relation pk
  have formed := formed_of_reaches rows reached
  have each : ∀ e ∈ batch.entries, Each forms.Carries e.columns :=
    Capture.batch_of_drained phase ▸ formed.batch
  have carry : ∀ c ∈ st.columns, ∃ v, c.value = some v ∧
      ((setup.flusher.conversions c.name).isSome = true → forms.OfValue c.name v) := fun c listed =>
    Forms.rowStatements_carry formed.shadow each sent listed
  have present : ∀ c ∈ st.columns, c.present = true := fun c listed => by
    obtain ⟨v, value, -⟩ := carry c listed
    rw [Column.present, value]
    rfl
  obtain ⟨params, laid⟩ := args_ok st.key present
  obtain ⟨key, values⟩ := args_spec laid
  refine ⟨st.sql_eq_render relation pk conv, params, laid, key, fun i c listed => ?_⟩
  obtain ⟨v, value, there⟩ := values i c listed
  obtain ⟨v', value', form⟩ := carry c (List.mem_of_getElem? listed)
  rw [value, Option.some.injEq] at value'
  subst value'
  refine ⟨v, value, ?_, there, eval_valueExpr domain there value, fun cv declared => ?_⟩
  · unfold RowStatement.assignments
    rw [List.getElem?_mapIdx, listed]
    rfl
  · have conversion : (setup.flusher.conversions c.name).isSome = true := by
      rw [← domain, declared]
      rfl
    have carried := form conversion
    unfold valueExpr
    rw [declared]
    cases v with
    | text text => exact Or.inl ⟨by simp [isShadowForm, value], carried⟩
    | shadowForm text => exact Or.inr ⟨by simp [isShadowForm, value], carried⟩

/-- A table whose column `v` is retyped by an expression that marks each value. -/
def markedSetup : Setup where
  flusher := { columns := ["v"], distinct := List.nodup_singleton "v"
               conversions := fun name =>
                 if name = "v" then some (fun text => text.map (· ++ "!")) else none }
  constraints := .none
  relation := ["v"]
  decodes := ⟨List.nodup_singleton "v", List.Subset.refl _⟩

/-- The column's conversion as the catalog gives it. -/
def markedConversions : Conversions := fun name =>
  if name = "v" then some ⟨"v || '!'", "text", ""⟩ else none

/-- The source holds `b` in the column, and the shadow `b!`. -/
def markedForms : Forms markedSetup.flusher where
  source _ text := text = some "b"
  shadow _ text := text = some "b!"
  converts name convert text declared source := by
    simp only [markedSetup] at declared
    split at declared
    · cases declared
      rw [source]
      rfl
    · cases declared

/-- The source writes nothing else. -/
def commitsB (_ : State) : Action → Bool
  | .commit changes _ _ => changes.all fun
      | .insert _ row => decide (row "v" = some "b")
      | .update _ _ row _ => decide (row "v" = some "b")
      | .delete _ => true
  | _ => true

/-- The computed check implies the predicate on commits. -/
theorem commitsB_sound (s : State) (a : Action) (checked : commitsB s a = true) :
    CommitsSourceForm markedForms s a := by
  have only : ∀ row : Row, row "v" = some "b" → markedForms.SourceRow row := by
    intro row value name conversion
    obtain rfl : name = "v" := by
      by_contra other
      simp [markedSetup, other] at conversion
    exact value
  cases a with
  | commit changes id lsn =>
    intro change member
    have here := List.all_eq_true.mp checked change member
    cases change with
    | insert key row => exact only row (by simpa using here)
    | update key old row omitted => exact only row (by simpa using here)
    | delete key => trivial
  | _ => trivial

/-- The statements of the flush that writes the moved row, once its completion is released. -/
theorem movedRow_statements : (run (step markedSetup) commitsB (fresh ∅ 10)
      (movedRowRun.take 30)).map (fun s =>
        match s.capture.phase with
        | .drained _ batch => markedSetup.flusher.rowStatements (s.reads 30) batch
        | _ => [])
        = some [⟨.upsert, 6, [⟨"v", some (.shadowForm (some "b!"))⟩]⟩,
            ⟨.insert, 6, [⟨"v", some (.shadowForm (some "b!"))⟩]⟩] := by
  decide +kernel

/-- The moved row's completion, read from the shadow, is bound bare. -/
theorem converted_once_moved :
    ∃ params, args 6 [⟨"v", some (.shadowForm (some "b!"))⟩] = .ok params ∧
      params[1]? = some (.value (some "b!")) ∧
      valueExpr 2 ⟨"v", some (.shadowForm (some "b!"))⟩ markedConversions = .param 2 ∧
      markedForms.shadow "v" (some "b!") := by
  obtain ⟨s, ran, sent⟩ := Option.map_eq_some_iff.mp movedRow_statements
  have reached := reaches_of_run commitsB_sound .refl ran
  split at sent
  next pos batch phase =>
    obtain ⟨-, statements⟩ := converted_once markedSetup markedConversions
      (fun name => by by_cases same : name = "v" <;> simp [markedConversions, markedSetup, same])
      markedForms ∅ (fun key row there => by simp at there) 10 s reached 30 pos batch phase
    obtain ⟨-, params, laid, -, each⟩ := statements
      ⟨.upsert, 6, [⟨"v", some (.shadowForm (some "b!"))⟩]⟩ (by rw [sent]; exact List.mem_cons_self)
      "shadow" "id"
    obtain ⟨v, value, -, there, -, form⟩ := each 0 _ rfl
    obtain rfl : Value.shadowForm (some "b!") = v := Option.some.inj value
    rcases form _ rfl with ⟨through, -⟩ | ⟨bare, shadow⟩
    · exact absurd through (by decide)
    · exact ⟨params, laid, there, bare, shadow⟩
  next => cases sent

end PgSprite.Live
