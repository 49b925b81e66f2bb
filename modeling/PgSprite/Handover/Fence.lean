/-
**The clear of a resumed run outlives the copier transactions of earlier runs.**

The first batch of a clear locks the shadow in a mode that conflicts with the mode every transaction
of the copier holds from before it confirms the table lock. Once that batch has confirmed the lock
itself, no transaction of an earlier run is past its own confirmation (`fenced_of_confirm`), and
none gets past it later (`Fenced.step`): it neither writes nor commits any more.

* `clear_stands` — when the clear returns nil no row above the watermark is left; afterwards no
  chunk or clear of an earlier run changes the shadow; and no fences wait for one another on the
  shadow.
-/

import PgSprite.Handover.Steps

namespace PgSprite.Handover

open Std PgSprite.Decode PgSprite.Source PgSprite.Copier PgSprite.Lib

/-! ### The order of the runs -/

section Earlier

variable {may : Work → Bool} {s s' : State} {e : Event} {a b c : Backend}

/-- No step makes a run earlier than one known before. -/
theorem Steps.earlier (steps : Steps s e s') (known : b ∈ s.taken) (before : s'.Earlier c b) :
    s.Earlier c b := by
  rcases steps.taken with same | ⟨a, start, -, -, fresh, more⟩
  · rw [State.Earlier, same] at before
    exact before
  · obtain ⟨newer, older, split, member⟩ := before
    rw [more] at split
    cases newer with
    | nil =>
      cases split
      exact absurd known fresh
    | cons first newer =>
      rw [List.cons_append, List.cons.injEq] at split
      exact ⟨newer, older, split.2, member⟩

theorem Ordered.not_earlier_of_head (ordered : Ordered may s) (head : s.taken.head? = some c) :
    ¬ s.Earlier c b := by
  rintro ⟨newer, older, split, member⟩
  have distinct := ordered.distinct
  rw [split] at head distinct
  cases newer with
  | nil =>
    cases head
    exact (List.nodup_cons.mp distinct).1 member
  | cons first newer =>
    cases head
    exact (List.nodup_cons.mp distinct).1 (by simp [member])

theorem eq_or_earlier (head : s.taken.head? = some b) (known : c ∈ s.taken) :
    c = b ∨ s.Earlier c b := by
  obtain ⟨older, split⟩ := List.head?_eq_some_iff.mp head
  rw [split] at known
  exact (List.mem_cons.mp known).imp_right fun member => ⟨[], older, split, member⟩

end Earlier

/-! ### The fence -/

/-- No open transaction of a run before `b` is past its confirmation. -/
def Fenced (s : State) (b : Backend) : Prop :=
  ∀ (i : ℕ) (tx : Tx), s.txs[i]? = some tx → tx.straggles = true → ¬ s.Earlier tx.backend b

variable {work : Work} {lower : Key} {limit : ℕ}

section Fence

variable {may : Work → Bool} {s s' : State} {e : Event} {b : Backend} {i : ℕ} {tx : Tx}

/-- **What is fenced stays fenced.** A transaction gets past its confirmation only while its run
holds the lock, and no run takes the lock twice. -/
theorem Fenced.step (fenced : Fenced s b) (known : b ∈ s.taken) (ordered : Ordered may s)
    (steps : Steps s e s') : Fenced s' b := by
  intro i tx here past before
  replace before := steps.earlier known before
  rcases (steps.record here).straggles past with ⟨old, there, earlier, backend, -⟩ | held
  · exact fenced i old there earlier (backend ▸ before)
  · exact ordered.not_earlier_of_head (ordered.last _ held) before

/-- The mode the copier holds the shadow in from before it confirms the lock. -/
def Work.shadowMode : Work → LockMode
  | .chunk _ => .rowExclusive
  | .clear _ _ fence => clearShadowLockMode fence
  | .flush _ => .accessShare
  | .swap _ => .accessShare

theorem Work.lock_before (copier : work.isCopier = true) :
    .lock .shadow work.shadowMode ∈ work.before := by
  cases work with
  | chunk range => simp [before, shadowMode, copierHoldRelations]
  | clear lower limit fence => simp [before, shadowMode, copierHoldRelations]
  | flush writes => cases copier
  | swap writes => cases copier

theorem Work.fence_conflicts (copier : work.isCopier = true) :
    work.shadowMode.conflicts .shareRowExclusive = true := by
  cases work with
  | chunk range => rfl
  | clear lower limit fence => cases fence <;> rfl
  | flush writes => cases copier
  | swap writes => cases copier

/-- A transaction that is to confirm its lock has sent everything before. -/
theorem Tx.done_of_confirms {rest : List Statement} (sent : tx.done ++ tx.rest = tx.work.statements)
    (head : tx.rest = .confirmLock :: rest) : tx.work.before ⊆ tx.done := by
  rcases Tx.confirmed_split sent with ⟨-, more, done, -⟩ | ⟨-, more, before, rest'⟩
  · rw [done]
    exact List.subset_append_left _ _
  · cases more with
    | nil =>
      rw [before, List.append_nil]
      exact List.Subset.refl _
    | cons statement more =>
      -- nothing the transaction sends before the confirmation is one
      exfalso
      have unconfirmed := tx.work.before_unconfirmed
      rw [head, List.cons_append, List.cons.injEq] at rest'
      rw [before, ← rest'.1] at unconfirmed
      simp [Statement.isConfirm] at unconfirmed

/-- **A fence that confirms the lock has waited for every straggler.** -/
theorem fenced_of_confirm {rest : List Statement} (ordered : Ordered Work.isCopier s)
    (here : s.txs[i]? = some tx) (running : tx.phase = .running)
    (fence : tx.work = .clear lower limit true) (head : tx.rest = .confirmLock :: rest)
    (held : s.holder = some tx.backend) : Fenced s tx.backend := by
  intro j other there past before
  have last := ordered.last _ held
  have differ : other.backend ≠ tx.backend := by
    rintro same
    exact ordered.not_earlier_of_head last (same ▸ before)
  have copier : other.work.isCopier = true :=
    ordered.straggler j other there past fun same => differ (Option.some.inj (same.symm.trans last))
  have alive : other.phase = .running := of_decide_eq_true (Bool.and_eq_true_iff.mp past).1
  have theirs : other.work.shadowMode ∈ other.holds .shadow := by
    rw [mem_holds alive]
    rcases Tx.confirmed_split (ordered.sent j other there) with ⟨-, more, done, -⟩ | ⟨un, -⟩
    · rw [done]
      exact List.mem_append_left _ (Work.lock_before copier)
    · rw [Tx.straggles, un, Bool.and_false] at past
      cases past
  have ours : LockMode.shareRowExclusive ∈ tx.holds .shadow := by
    rw [mem_holds running]
    refine Tx.done_of_confirms (ordered.sent i tx here) head ?_
    rw [fence]
    exact @Work.lock_before (.clear lower limit true) rfl
  have apart := ordered.apart j i other tx (by rintro rfl; exact differ (by simp_all)) there here
    .shadow _ theirs _ ours
  rw [Work.fence_conflicts copier] at apart
  cases apart

end Fence

/-! ### The clear -/

/-- What becomes of a run's copier. -/
inductive Staged (s s' : State) (b : Backend) : Copying → Prop
  | same : Staged s s' b (s.copiers b)
  | resumed (start : Watermark) : b ∉ s.taken → s'.taken = b :: s.taken → Staged s s' b { start }
  | clears (batch : ℕ) : b ∈ s.taken → (s.copiers b).stage ≠ .copying →
      (startAfter (s.copiers b).start).2 = false →
      Staged s s' b { s.copiers b with stage := .clearing batch true none }
  | begins {batch : ℕ} {fence : Bool} : (s.copiers b).stage = .clearing batch fence none →
      s'.txs = s.txs ++ [.begun b (.clear (startAfter (s.copiers b).start).1 batch fence)] →
      Staged s s' b { s.copiers b with stage := .clearing batch fence (some s.txs.length) }
  | hears {batch id : ℕ} {fence : Bool} {tx : Tx} :
      (s.copiers b).stage = .clearing batch fence (some id) → s.txs[id]? = some tx →
      tx.phase = .committed →
      Staged s s' b { s.copiers b with stage := .clearing batch false none }
  | leaves {stage : CopyStage} : (∀ batch fence id, stage ≠ .clearing batch fence id) →
      (stage ≠ .copying → (s.copiers b).stage ≠ .copying) →
      Staged s s' b { s.copiers b with stage }

theorem startAfter_snd (start : Watermark) : (startAfter start).2 = start.complete := by
  cases start with
  | none => rfl
  | some value =>
    rw [startAfter]
    split
    next complete => exact complete.symm
    next short => exact (Bool.eq_false_iff.mpr short).symm

theorem not_mem_marksOf {b : Backend} {start : Watermark} (tx : Tx) :
    .cleared b start ∉ State.marksOf tx := by
  rw [State.marksOf, List.mem_append, not_or]
  refine ⟨by simp, ?_⟩
  split <;> simp

section Clear

variable {may : Work → Bool} {s s' : State} {e : Event} {b : Backend}

theorem staged_of_update {copying : Copying} {c : Backend}
    (moved : s'.copiers = Function.update s.copiers c copying) (staged : Staged s s' c copying) :
    Staged s s' b (s'.copiers b) := by
  rw [moved]
  by_cases same : b = c
  · subst same
    rw [Function.update_self]
    exact staged
  · rw [Function.update_of_ne same]
    exact .same

/-- What a step does to the stage of a backend. -/
theorem Steps.staged (steps : Steps s e s') : Staged s s' b (s'.copiers b) := by
  cases steps with
  | acquire free fresh => exact staged_of_update rfl (.resumed _ fresh rfl)
  | clearsNothing known early complete => exact staged_of_update rfl (.leaves nofun fun _ => early)
  | clears known early short => exact staged_of_update rfl (.clears _ known early short)
  | beginBatch known stage => exact staged_of_update rfl (.begins stage rfl)
  | hearsLast stage here committed fewer =>
    exact staged_of_update rfl (.leaves nofun fun _ => by rw [stage]; nofun)
  | hearsMore stage here committed => exact staged_of_update rfl (.hears stage here committed)
  | loses stage => exact staged_of_update rfl (.leaves nofun fun _ => by rw [stage]; nofun)
  | beginChunk known => exact staged_of_update rfl (.leaves nofun fun other => absurd rfl other)
  | release _ => exact .same
  | beginFlush _ _ => exact .same
  | beginSwap _ _ => exact .same
  | verified => exact .same
  | asks _ _ => exact .same
  | turns _ _ _ => exact .same
  | commits _ _ _ => exact .same

/-- A clear that returns nil over a watermark short of the key space has heard its last batch. -/
def Heard (s s' : State) (b : Backend) (start : Watermark) : Prop :=
  ∃ batch fence id tx, s' = s.clearReturns b ∧ start = (s.copiers b).start ∧
    (s.copiers b).stage = .clearing batch fence (some id) ∧ s.txs[id]? = some tx ∧
    tx.phase = .committed ∧ tx.pending.length < batch

/-- A step marks a clear as done only once its last batch was heard from. -/
theorem Steps.marks (steps : Steps s e s') : ∃ more, s'.marks = s.marks ++ more ∧
    ∀ b start, .cleared b start ∈ more → start.complete = false → Heard s s' b start := by
  cases steps with
  | clearsNothing known early complete =>
    refine ⟨_, rfl, fun b start mark short => ?_⟩
    cases List.mem_singleton.mp mark
    rw [startAfter_snd, short] at complete
    cases complete
  | @hearsLast c batch id fence tx stage here committed fewer =>
    refine ⟨_, rfl, fun b start mark short => ?_⟩
    cases List.mem_singleton.mp mark
    exact ⟨batch, fence, id, tx, rfl, rfl, stage, here, committed, fewer⟩
  | verified => exact ⟨_, rfl, fun b start mark => nomatch List.mem_singleton.mp mark⟩
  | commits _ _ _ => exact ⟨_, rfl, fun b start mark => absurd mark (not_mem_marksOf _)⟩
  | _ => exact ⟨[], (List.append_nil _).symm, fun _ _ mark => nomatch mark⟩

/-- **Where the clears of an interleaving stand.** -/
structure Fences (s : State) : Prop where
  active : ∀ b batch fence id, (s.copiers b).stage = .clearing batch fence id →
    b ∈ s.taken ∧ (startAfter (s.copiers b).start).2 = false
  current : ∀ b batch fence id, (s.copiers b).stage = .clearing batch fence (some id) →
    ∃ tx, s.txs[id]? = some tx ∧ tx.backend = b ∧
      tx.work = .clear (startAfter (s.copiers b).start).1 batch fence
  first : ∀ (i : ℕ) (tx : Tx) lower limit, s.txs[i]? = some tx → tx.work = .clear lower limit true →
    tx.confirmed = true → Fenced s tx.backend
  later : ∀ b batch id, (s.copiers b).stage = .clearing batch false id → Fenced s b
  returned : ∀ b start, .cleared b start ∈ s.marks → start.complete = false →
    b ∈ s.taken ∧ Fenced s b

/-- A backend whose batch is confirmed is fenced. -/
theorem Fences.of_confirmed (fences : Fences s) {batch id : ℕ} {fence : Bool} {tx : Tx}
    (stage : (s.copiers b).stage = .clearing batch fence (some id)) (here : s.txs[id]? = some tx)
    (confirmed : tx.confirmed = true) : Fenced s b := by
  obtain ⟨found, there, backend, work⟩ := fences.current b batch fence id stage
  cases here.symm.trans there
  cases fence with
  | false => exact fences.later b batch _ stage
  | true => exact backend ▸ fences.first id tx _ _ here work confirmed

theorem fences_start (shadow : Table) : Fences (State.start shadow) where
  active _ _ _ _ stage := nomatch stage
  current _ _ _ _ stage := nomatch stage
  first _ _ _ _ here := nomatch here
  later _ _ _ stage := nomatch stage
  returned _ _ mark := nomatch mark

/-- A fence that has confirmed the lock after an event had confirmed it before, or confirms it
now. -/
theorem Record.fenced {i : ℕ} {tx : Tx} (record : Record s i tx) (ordered : Ordered Work.isCopier s)
    (fences : Fences s) (fence : tx.work = .clear lower limit true)
    (confirmed : tx.confirmed = true) : Fenced s tx.backend := by
  cases record with
  | same here => exact fences.first i tx lower limit here fence confirmed
  | begun known => cases confirmed
  | @committed old rest here running head =>
    exact fences.first i old lower limit here fence
      (Tx.confirmed_of_commit (ordered.sent i old here) head)
  | @turned old _ here running turns =>
    cases turns with
    | asks ticket => exact fences.first i old lower limit here fence confirmed
    | refused => exact fences.first i old lower limit here fence confirmed
    | @sends statement rest pending head sends =>
      by_cases already : old.confirmed = true
      · exact fences.first i old lower limit here fence already
      · have confirms : statement.isConfirm = true := by
          rw [Tx.confirmed, Tx.advance, List.any_append, Bool.or_eq_true] at confirmed
          simpa using confirmed.resolve_left already
        cases statement with
        | confirmLock =>
          cases sends with
          | confirmLock held =>
            have fenced := fenced_of_confirm ordered here running fence head held
            exact fenced
        | _ => cases confirms

/-- Every step keeps the fences: past its first batch a backend is fenced. -/
theorem Fences.step (fences : Fences s) (ordered : Ordered Work.isCopier s)
    (steps : Steps s e s') : Fences s' where
  active b batch fence id stage := by
    have staged := steps.staged (b := b)
    generalize s'.copiers b = copying at staged stage ⊢
    have grown := steps.taken_subset
    cases staged with
    | same => exact (fences.active b batch fence id stage).imp_left (grown ·)
    | resumed start fresh taken => cases stage
    | clears size known early short => exact ⟨grown known, short⟩
    | begins before _ => exact (fences.active b _ _ _ before).imp_left (grown ·)
    | hears before _ _ => exact (fences.active b _ _ _ before).imp_left (grown ·)
    | leaves other _ => exact absurd stage (other batch fence id)
  current b batch fence id stage := by
    have staged := steps.staged (b := b)
    generalize s'.copiers b = copying at staged stage ⊢
    cases staged with
    | same =>
      obtain ⟨old, there, backend, work⟩ := fences.current b batch fence id stage
      obtain ⟨tx, here, sameBackend, sameWork⟩ := steps.kept there
      exact ⟨tx, here, sameBackend.trans backend, sameWork.trans work⟩
    | resumed start fresh taken => cases stage
    | clears size known early short => cases stage
    | begins before txs =>
      cases stage
      exact ⟨_, by rw [txs]; exact List.getElem?_concat_length, rfl, rfl⟩
    | hears before _ _ => cases stage
    | leaves other _ => exact absurd stage (other batch fence (some id))
  first i tx lower limit here fence confirmed := by
    have record := steps.record here
    exact (record.fenced ordered fences fence confirmed).step (record.known ordered) ordered steps
  later b batch id stage := by
    have staged := steps.staged (b := b)
    generalize s'.copiers b = copying at staged stage ⊢
    have stays : ∀ id, (s.copiers b).stage = .clearing batch false id → Fenced s' b := by
      intro id before
      exact (fences.later b batch id before).step (fences.active b batch false id before).1 ordered
        steps
    cases staged with
    | same => exact stays id stage
    | resumed start fresh taken => cases stage
    | clears size known early short => cases stage
    | begins before _ =>
      cases stage
      exact stays none before
    | hears before here committed =>
      cases stage
      exact (fences.of_confirmed before here (ordered.committed _ _ here committed)).step
        (fences.active b _ _ _ before).1 ordered steps
    | leaves other _ => exact absurd stage (other batch false id)
  returned b start mark short := by
    obtain ⟨more, marks, heard⟩ := steps.marks
    rw [marks] at mark
    rcases List.mem_append.mp mark with before | now
    · obtain ⟨known, fenced⟩ := fences.returned b start before short
      exact ⟨steps.taken_subset known, fenced.step known ordered steps⟩
    · obtain ⟨batch, fence, id, tx, -, -, stage, here, committed, -⟩ := heard b start now short
      have known := (fences.active b _ _ _ stage).1
      exact ⟨steps.taken_subset known,
        (fences.of_confirmed stage here (ordered.committed _ _ here committed)).step known ordered
          steps⟩

end Clear

/-! ### No row above the watermark is left -/

section Written

variable {table : Table} {pending : List (Key × Option Row)} {key : Key}

/-- A key stays empty under writes that only delete it. -/
theorem written_none (empty : table[key]? = none)
    (none : ∀ write ∈ pending, write.1 = key → write.2 = none) :
    (written table pending)[key]? = .none := by
  induction pending generalizing table with
  | nil => exact empty
  | cons write pending ih =>
    rw [written, List.foldl_cons]
    refine ih ?_ fun later member => none later (List.mem_cons_of_mem _ member)
    have here := none write List.mem_cons_self
    obtain ⟨target, image⟩ := write
    cases image with
    | none => simp [ExtTreeMap.getElem?_erase, empty]
    | some row =>
      have other : target ≠ key := fun same => nomatch here same
      simp [ExtTreeMap.getElem?_insert, other, empty]

theorem written_deleted (deleted : (key, .none) ∈ pending)
    (none : ∀ write ∈ pending, write.1 = key → write.2 = none) :
    (written table pending)[key]? = .none := by
  induction pending generalizing table with
  | nil => cases deleted
  | cons write pending ih =>
    rw [written, List.foldl_cons]
    have rest : ∀ later ∈ pending, later.1 = key → later.2 = .none := fun later member =>
      none later (List.mem_cons_of_mem _ member)
    rcases List.mem_cons.mp deleted with rfl | later
    · exact written_none (by simp) rest
    · exact ih later rest

end Written

/-- The last batch of a clear, and the rows above the watermark: gone once it has committed, and
among its deletes before. -/
structure Emptied (start : Watermark) (shadow : Table) (tx : Tx) : Prop where
  committed : tx.phase = .committed → ∀ key, start.reaches key = false → shadow[key]? = none
  deleted : tx.phase = .running → tx.rest.head? = some .commit → ∀ key,
    start.reaches key = false → shadow[key]? = none ∨ (key, none) ∈ tx.pending

/-- **What stands above the watermark of the last run.** -/
structure Empties (s : State) : Prop where
  within : ∀ (i : ℕ) (tx : Tx), s.txs[i]? = some tx → (s.copiers tx.backend).stage ≠ .copying →
    (s.copiers tx.backend).start.complete = false → tx.work.Within (s.copiers tx.backend).start
  emptied : ∀ b batch fence id (tx : Tx), s.taken.head? = some b →
    (s.copiers b).stage = .clearing batch fence (some id) → s.txs[id]? = some tx →
    tx.pending.length < batch → Emptied (s.copiers b).start s.shadow tx

section Empties

variable {s s' : State} {e : Event} {b : Backend}

theorem empties_start (shadow : Table) : Empties (State.start shadow) where
  within _ _ here := nomatch here
  emptied _ _ _ _ _ head := nomatch head

/-- A run that has not begun to copy had not begun before, and resumes from the same watermark. -/
theorem Steps.start_eq (steps : Steps s e s') (known : b ∈ s.taken) :
    (s'.copiers b).start = (s.copiers b).start := by
  have staged := steps.staged (b := b)
  generalize s'.copiers b = copying at staged ⊢
  cases staged with
  | resumed start fresh _ => exact absurd known fresh
  | _ => rfl

theorem Steps.not_copying (steps : Steps s e s') (known : b ∈ s.taken)
    (early : (s'.copiers b).stage ≠ .copying) : (s.copiers b).stage ≠ .copying := by
  have staged := steps.staged (b := b)
  generalize s'.copiers b = copying at staged early
  cases staged with
  | same => exact early
  | resumed start fresh _ => exact absurd known fresh
  | clears _ _ before _ => exact before
  | begins before _ => simp [before]
  | hears before _ _ => simp [before]
  | leaves _ before => exact before early

/-- What a backend's transactions write while it clears stays above its start. -/
theorem Empties.within_step (empties : Empties s) (ordered : Ordered Work.isCopier s)
    (steps : Steps s e s') {i : ℕ} {tx : Tx} (here : s'.txs[i]? = some tx)
    (early : (s'.copiers tx.backend).stage ≠ .copying)
    (short : (s'.copiers tx.backend).start.complete = false) :
    tx.work.Within (s'.copiers tx.backend).start := by
  rcases steps.allowed here with ⟨old, there, backend, work⟩ | copying | complete | within
  · have known := ordered.known i old there
    rw [backend] at known
    rw [steps.start_eq known] at short ⊢
    rw [← work, ← backend]
    rw [← backend] at early short known
    exact empties.within i old there (steps.not_copying known early) short
  · exact absurd copying early
  · rw [short] at complete
    cases complete
  · exact within

/-- A clear batch that has sent its delete is left with its commit. -/
theorem Tx.deletes_last {tx : Tx} {fence : Bool} {statement : Statement} {rest : List Statement}
    (sent : tx.done ++ tx.rest = tx.work.statements) (work : tx.work = .clear lower limit fence)
    (head : tx.rest = statement :: .commit :: rest) : statement = .deleteAbove lower limit := by
  have split : (tx.done ++ [statement]) ++ .commit :: rest =
      (copierGuard (clearShadowLockMode fence) ++ [.deleteAbove lower limit]) ++ [.commit] := by
    rw [head, work] at sent
    simpa [Work.statements, clearBatch] using sent
  have once : Statement.commit ∉
      copierGuard (clearShadowLockMode fence) ++ [.deleteAbove lower limit] := by
    simp [copierGuard, copierHoldRelations]
  rcases List.append_eq_append_iff.mp split with ⟨more, guard, tail⟩ | ⟨more, done, tail⟩
  · cases more with
    | nil =>
      rw [List.append_nil] at guard
      exact (List.cons.inj (List.append_inj_right' guard.symm rfl)).1
    | cons first more =>
      cases tail
      exact absurd (guard ▸ List.mem_append_right _ List.mem_cons_self) once
  · cases more with
    | nil =>
      rw [List.append_nil] at done
      exact (List.cons.inj (List.append_inj_right' done rfl)).1
    | cons first more => simp at tail

/-- The lowest keys, where there are fewer than asked for, are all keys from the bound on. -/
theorem mem_lowest {key : Key} (fewer : (s.lowest lower limit).length < limit) (from_ : lower ≤ key)
    (there : s.shadow[key]? ≠ none) : key ∈ s.lowest lower limit := by
  rw [State.lowest] at fewer ⊢
  rw [List.take_of_length_le (by rw [List.length_take] at fewer; omega), List.mem_filter]
  refine ⟨ExtTreeMap.mem_keys.mpr (ExtTreeMap.isSome_getElem?_iff_mem.mp ?_), decide_eq_true from_⟩
  exact Option.isSome_iff_ne_none.mpr there

variable {batch id : ℕ} {fence : Bool} {tx : Tx} {rest : List Statement}
  (ordered : Ordered Work.isCopier s) (fences : Fences s)
  (stage : (s.copiers b).stage = .clearing batch fence (some id))

include ordered fences stage

/-- What a batch of the clear has emptied, after its next statement. -/
theorem Emptied.turns {old : Tx} (there : s.txs[id]? = some old)
    (emptied : old.pending.length < batch → Emptied (s.copiers b).start s.shadow old)
    (turns : Turns s id old tx) (running : old.phase = .running)
    (fewer : tx.pending.length < batch) :
    Emptied (s.copiers b).start s.shadow tx := by
  cases turns with
  | asks ticket => exact ⟨(emptied fewer).committed, (emptied fewer).deleted⟩
  | refused => exact ⟨nofun, nofun⟩
  | @sends statement rest pending head sends =>
    refine ⟨fun ended => absurd (running.symm.trans ended) nofun, fun _ commits key above => ?_⟩
    obtain ⟨found, here, -, work⟩ := fences.current b batch fence id stage
    cases there.symm.trans here
    obtain ⟨more, rfl⟩ := List.head?_eq_some_iff.mp commits
    cases Tx.deletes_last (ordered.sent id old there) work head
    cases sends with
    | deleteAbove lower limit =>
      have short := (fences.active b batch fence _ stage).2
      have lower := (unreached_iff (Prod.ext rfl short)).mp above
      by_cases empty : s.shadow[key]? = none
      · exact .inl empty
      · refine .inr (List.mem_map.mpr ⟨key, mem_lowest ?_ lower empty, rfl⟩)
        simpa [Tx.advance] using fewer

variable (empties : Empties s) (head : s.taken.head? = some b)

include empties head

/-- The rows another transaction commits while a clear is in its last batch. -/
theorem Empties.others {j : ℕ} {other : Tx} (here : s.txs[id]? = some tx)
    (confirmed : tx.confirmed = true) (there : s.txs[j]? = some other)
    (running : other.phase = .running) (commits : other.rest = .commit :: rest) {key : Key}
    (above : (s.copiers b).start.reaches key = false) :
    ∀ write ∈ other.pending, write.1 = key → write.2 = none := by
  intro write member same
  have past : other.straggles = true := by
    simp [Tx.straggles, running, Tx.confirmed_of_commit (ordered.sent j other there) commits]
  have ours : other.backend = b :=
    (eq_or_earlier head (ordered.known j other there)).resolve_right
      (fences.of_confirmed stage here confirmed j other there past)
  have within := empties.within j other there (by rw [ours, stage]; intro same; cases same)
    (by rw [ours, ← startAfter_snd]; exact (fences.active b _ _ _ stage).2)
  have wrote := ordered.wrote j other there write member
  rw [ours] at within
  cases work : other.work with
  | chunk range =>
    rw [work] at within
    exact within.elim
  | swap writes =>
    rw [work] at within
    exact within.elim
  | clear lower limit fence =>
    rw [work] at wrote
    exact wrote.2
  | flush writes =>
    rw [work] at within wrote
    obtain ⟨sent, among, key⟩ := wrote
    have reached := within sent among
    rw [key, same, above] at reached
    cases reached

/-- What the last run's clear has emptied stays so while another transaction commits. -/
theorem Emptied.commits {j : ℕ} {other : Tx} (here : s.txs[id]? = some tx)
    (fewer : tx.pending.length < batch) (there : s.txs[j]? = some other)
    (running : other.phase = .running) (commits : other.rest = .commit :: rest) :
    Emptied (s.copiers b).start (written s.shadow other.pending) tx := by
  have before := empties.emptied b batch fence id tx head stage here fewer
  have others := fun confirmed (key : Key) (above : (s.copiers b).start.reaches key = false) =>
    empties.others ordered fences stage head here confirmed there running commits above
  refine ⟨fun ended key above => ?_, fun alive last key above => ?_⟩
  · have confirmed := ordered.committed id tx here ended
    exact written_none (before.committed ended key above) (others confirmed key above)
  · obtain ⟨rest, split⟩ := List.head?_eq_some_iff.mp last
    have confirmed := Tx.confirmed_of_commit (ordered.sent id tx here) split
    exact (before.deleted alive last key above).imp_left fun empty =>
      written_none empty (others confirmed key above)

/-- What the clear's last batch has deleted is gone once it commits. -/
theorem Emptied.ends (here : s.txs[id]? = some tx) (fewer : tx.pending.length < batch)
    (running : tx.phase = .running) (commits : tx.rest = .commit :: rest) :
    Emptied (s.copiers b).start (written s.shadow tx.pending) (tx.ends rest) := by
  refine ⟨fun _ key above => ?_, nofun⟩
  have before := empties.emptied b batch fence id tx head stage here fewer
  have deletes : ∀ write ∈ tx.pending, write.1 = key → write.2 = none := by
    intro write member _
    have wrote := ordered.wrote id tx here write member
    obtain ⟨found, there, -, work⟩ := fences.current b batch fence id stage
    cases here.symm.trans there
    rw [work] at wrote
    exact wrote.2
  rcases before.deleted running (by rw [commits]; rfl) key above with empty | deleted
  · exact written_none empty deletes
  · exact written_deleted deleted deletes

omit stage head in
/-- **Every event keeps what stands above the watermark.** -/
theorem Empties.step (steps : Steps s e s') : Empties s' where
  within i tx here early short := empties.within_step ordered steps here early short
  emptied b batch fence id tx head stage here fewer := by
    have staged := steps.staged (b := b)
    generalize s'.copiers b = copying at staged stage ⊢
    cases staged with
    | resumed start fresh taken => cases stage
    | clears size known early short => cases stage
    | hears before _ _ => cases stage
    | leaves other _ => exact absurd stage (other batch fence (some id))
    | begins before txs =>
      cases stage
      rw [txs, List.getElem?_concat_length] at here
      cases here
      exact ⟨nofun, nofun⟩
    | same =>
      have known := (fences.active b _ _ _ stage).1
      have before : s.taken.head? = some b := by
        rcases steps.taken with same | ⟨a, start, -, -, fresh, more⟩
        · exact same ▸ head
        · rw [more] at head
          cases head
          exact absurd known fresh
      have stands : ∀ {old : Tx}, s.txs[id]? = some old → old.pending.length < batch →
          Emptied (s.copiers b).start s.shadow old := fun there =>
        empties.emptied b batch fence id _ before stage there
      cases steps.moved with
      | still txs shadow => exact shadow ▸ stands (txs ▸ here) fewer
      | @begins c work _ _ txs shadow =>
        rcases record_of_concat (txs ▸ here) with there | rfl
        · exact shadow ▸ stands there fewer
        · exact ⟨nofun, fun _ last => by cases work <;> cases last⟩
      | turns there running turns txs shadow =>
        rw [shadow]
        rcases record_of_set (txs ▸ here) with ⟨rfl, rfl⟩ | old
        · exact Emptied.turns ordered fences stage there (stands there) turns running fewer
        · exact stands old fewer
      | commits there running commits after =>
        subst after
        rcases record_of_set here with ⟨rfl, rfl⟩ | old
        · exact Emptied.ends ordered fences stage empties before there fewer running commits
        · exact Emptied.commits ordered fences stage empties before old fewer there running commits

end Empties

/-! ### Waiting for the shadow -/

/-- Transaction `i` waits for the shadow behind transaction `j`: `j` holds it in a conflicting mode,
or has asked for one before `i` and waits too. -/
def State.Waits (s : State) (i j : ℕ) : Prop :=
  ∃ a b, s.txs[i]? = some a ∧ s.txs[j]? = some b ∧ a.phase = .running ∧ b.phase = .running ∧
    ∃ mode rest ticket, a.rest = .lock .shadow mode :: rest ∧ a.asked = some ticket ∧
      ((∃ held ∈ b.holds .shadow, held.conflicts mode = true) ∨
        ∃ other rest' earlier, b.rest = .lock .shadow other :: rest' ∧ b.asked = some earlier ∧
          earlier < ticket ∧ other.conflicts mode = true)

/-- One fence waits behind another. -/
def State.FenceWaits (s : State) (i j : ℕ) : Prop :=
  s.Waits i j ∧ ∀ k ∈ [i, j], ∃ tx lower limit, s.txs[k]? = some tx ∧
    tx.work = .clear lower limit true

section Waits

variable {may : Work → Bool} {s : State} {i j : ℕ}

theorem Work.locks_once (copier : work.isCopier = true) :
    ∃ earlier later, work.statements = earlier ++ .lock .shadow work.shadowMode :: later ∧
      ∀ mode, .lock .shadow mode ∉ earlier ∧ .lock .shadow mode ∉ later := by
  cases work with
  | flush writes => cases copier
  | swap writes => cases copier
  | chunk range => exact ⟨[_, _], [_, _, _, _, _, _], rfl, by simp⟩
  | clear lower limit fence => exact ⟨[_, _], [_, _, _, _, _], rfl, by simp⟩

/-- A copier that waits for the shadow holds no lock on it. -/
theorem holds_of_waits {tx : Tx} {mode : LockMode} {rest : List Statement}
    (sent : tx.done ++ tx.rest = tx.work.statements) (copier : tx.work.isCopier = true)
    (head : tx.rest = .lock .shadow mode :: rest) (running : tx.phase = .running)
    (held : LockMode) :
    held ∉ tx.holds .shadow := by
  rw [mem_holds running]
  obtain ⟨earlier, later, statements, once⟩ := Work.locks_once copier
  rw [head, statements, List.append_eq_append_iff] at sent
  rcases sent with ⟨more, split, -⟩ | ⟨more, split, tail⟩
  · exact fun member => (once held).1 (split ▸ List.mem_append_left _ member)
  · cases more with
    | nil =>
      rw [split, List.append_nil]
      exact (once held).1
    | cons first more =>
      rw [List.cons_append, List.cons.injEq] at tail
      exact absurd (tail.2 ▸ List.mem_append_right _ List.mem_cons_self) (once mode).2

/-- The ticket a transaction has waited with for the shadow. -/
def State.WaitsSince (s : State) (i ticket : ℕ) : Prop :=
  ∃ tx lower limit mode rest, s.txs[i]? = some tx ∧ tx.phase = .running ∧
    tx.work = .clear lower limit true ∧ tx.rest = .lock .shadow mode :: rest ∧
    tx.asked = some ticket

theorem FenceWaits.since (waits : s.FenceWaits i j) : ∃ ticket, s.WaitsSince i ticket := by
  obtain ⟨⟨a, b, here, there, running, -, mode, rest, ticket, head, asked, -⟩, fences⟩ := waits
  obtain ⟨tx, lower, limit, found, work⟩ := fences i (by simp)
  cases here.symm.trans found
  exact ⟨ticket, a, lower, limit, mode, rest, here, running, work, head, asked⟩

/-- A fence waits behind one that waits too only where that one has asked before it. -/
theorem FenceWaits.earlier (ordered : Ordered may s) (waits : s.FenceWaits i j) {mine theirs : ℕ}
    (since : s.WaitsSince i mine) (behind : s.WaitsSince j theirs) : theirs < mine := by
  obtain ⟨⟨a, b, here, there, running, alive, mode, rest, ticket, head, asked, why⟩, -⟩ := waits
  obtain ⟨tx, -, -, -, -, found, -, -, -, mineAsked⟩ := since
  cases here.symm.trans found
  cases asked.symm.trans mineAsked
  obtain ⟨tx', lower, limit, mode', rest', found', -, work, head', theirsAsked⟩ := behind
  cases there.symm.trans found'
  rcases why with ⟨held, holds, -⟩ | ⟨-, -, earlier, -, bAsked, before, -⟩
  · exact absurd holds
      (holds_of_waits (ordered.sent j b there) (by rw [work]; rfl) head' alive held)
  · cases theirsAsked.symm.trans bAsked
    exact before

/-- **Fences queue for the shadow and never wait in a circle.** -/
theorem Ordered.fences_queue (ordered : Ordered may s) : ¬ Relation.TransGen s.FenceWaits i i := by
  -- along a chain of waiting fences the tickets fall
  have falls : ∀ {i j}, Relation.TransGen s.FenceWaits i j → ∀ {mine theirs},
      s.WaitsSince i mine → s.WaitsSince j theirs → theirs < mine := by
    intro i j chain
    induction chain with
    | single waits => exact fun since behind => FenceWaits.earlier ordered waits since behind
    | tail chain waits ih =>
      intro mine theirs since behind
      obtain ⟨between, waiting⟩ := FenceWaits.since waits
      exact (FenceWaits.earlier ordered waits waiting behind).trans (ih since waiting)
  intro circle
  obtain ⟨next, waits, -⟩ := Relation.TransGen.head'_iff.mp circle
  obtain ⟨ticket, since⟩ := FenceWaits.since waits
  exact lt_irrefl ticket (falls circle since since)

end Waits

/-! ### The clear stands -/

/-- **The clear of a resumed run outlives the copier transactions of earlier runs.** -/
structure ClearStands (s : State) : Prop where
  /-- When the last run's clear returns nil, no row above its watermark is left. -/
  empty : ∀ b start e s', s.taken.head? = some b → step s e = some s' →
    s'.marks = s.marks ++ [.cleared b start] → start.complete = false →
    ∀ key, start.reaches key = false → s'.shadow[key]? = none
  /-- Afterwards no chunk and no clear of an earlier run changes a row of the shadow. -/
  stands : ∀ b start id found (tx : Tx) s', .cleared b start ∈ s.marks → start.complete = false →
    s.txs[id]? = some tx → tx.work.isCopier = true → s.Earlier tx.backend b →
    step s (.next id found) = some s' → s'.shadow = s.shadow
  /-- No fences wait for one another on the shadow. -/
  queue : ∀ id, ¬ Relation.TransGen s.FenceWaits id id

section Stands

variable {s s' : State} {e : Event} {shadow : Table}

/-- What holds of every reachable state. -/
theorem invariants (reached : Reaches step (Straggling Work.isCopier) (State.start shadow) s) :
    Ordered Work.isCopier s ∧ Fences s ∧ Empties s := by
  refine Reaches.invariant (P := fun s => Ordered Work.isCopier s ∧ Fences s ∧ Empties s) reached
    ⟨ordered_start shadow, fences_start shadow, empties_start shadow⟩ ?_
  rintro s e s' ⟨ordered, fences, empties⟩ met taken
  have steps := steps_of_step taken
  exact ⟨ordered.step met steps, fences.step ordered steps, empties.step ordered fences steps⟩

/-- **Once the clear has returned nil no row above the watermark is left, and no chunk or clear of
an earlier run brings one back or takes one away.** The runs are any number, each stopped anywhere
with any number of chunk and clear transactions open; a transaction goes on to its next statement
whenever it likes. -/
theorem clear_stands (reached : Reaches step (Straggling Work.isCopier) (State.start shadow) s) :
    ClearStands s := by
  obtain ⟨ordered, fences, empties⟩ := invariants reached
  refine ⟨fun b start e s' head taken mark short key above => ?_,
    fun b start id found tx s' mark short here copier before taken => ?_,
    fun id => ordered.fences_queue⟩
  · obtain ⟨more, marks, heard⟩ := (steps_of_step taken).marks
    cases List.append_cancel_left (marks.symm.trans mark)
    obtain ⟨batch, fence, id, tx, rfl, rfl, stage, here, committed, fewer⟩ :=
      heard b start List.mem_cons_self short
    exact (empties.emptied b batch fence id tx head stage here fewer).committed committed key above
  · cases steps_of_step taken with
    | turns _ _ _ => rfl
    | commits there running commits =>
      cases here.symm.trans there
      have confirmed := Tx.confirmed_of_commit (ordered.sent id tx here) commits
      have past : tx.straggles = true := by simp [Tx.straggles, running, confirmed]
      exact absurd before ((fences.returned b start mark short).2 id tx here past)

end Stands

/-- A transaction sends its statements up to and with its confirmation, waiting for each lock. -/
def confirms (id : ℕ) : List Event :=
  [.next id [], .ask id, .next id [], .ask id, .next id [], .next id []]

open Event in
/-- A run whose chunk is parked behind its confirmation when the lock passes on, and a second run
whose fence waits until that chunk has committed. -/
def parkedChunk : List Event :=
  let range : Chunk := ⟨0, 9, 0, by decide⟩
  [acquire 1 none, clearAbove 1 10, beginBatch 1] ++ confirms 0 ++
    [next 0 [], next 0 [], next 0 [], next 0 [], hear 1, beginChunk 1 range] ++ confirms 1 ++
    [release 1, acquire 2 none, clearAbove 2 10, beginBatch 2, next 2 [], ask 2, next 2 [],
      ask 2, next 1 [], next 1 [], next 1 [(3, fun _ => some "late")], next 1 [], next 1 [],
      next 2 [], next 2 [], next 2 [], next 2 [], next 2 [], next 2 [], hear 2]

/-- What the run leaves on record. -/
theorem parkedChunk_marks : (run step (straggling Work.isCopier) (State.start ∅) parkedChunk).map
    State.marks = some [.cleared 1 none, .wrote 1 3, .wrote 2 3, .cleared 2 none] := by
  decide +kernel

/-- The clear of the second run took the row the parked chunk had committed, and stands. -/
theorem clear_stands_parkedChunk :
    ∃ s, run step (straggling Work.isCopier) (State.start ∅) parkedChunk = some s ∧
      s.marks = [.cleared 1 none, .wrote 1 3, .wrote 2 3, .cleared 2 none] ∧ ClearStands s := by
  obtain ⟨s, ran, shape⟩ := Option.map_eq_some_iff.mp parkedChunk_marks
  exact ⟨s, ran, shape, clear_stands (reaches_of_run straggling_sound .refl ran)⟩

end PgSprite.Handover
