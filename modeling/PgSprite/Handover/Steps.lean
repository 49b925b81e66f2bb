/-
**What each step can do, and what every interleaving keeps.**

`Steps s e s'` lists the outcomes of every event with what it found; `Turns` lists what can become
of the one transaction an event moves. `steps_of_step` says that `step` does nothing else, and
everything that is proved of interleavings goes by cases on the two.

A transaction has sent a prefix of its function's statements, so what it holds when it has confirmed
the table lock is what its function locks before the confirmation (`Tx.confirmed_split`).
`Ordered.step`: transactions never hold conflicting modes at once, and one that has confirmed the
lock without being the last holder's is one the condition on the run lets straggle.
-/

import PgSprite.Handover.System

namespace PgSprite.Handover

open Std PgSprite.Decode PgSprite.Source PgSprite.Copier PgSprite.Lib

/-! ### Outcomes -/

/-- What the server and the transaction must be for a statement, and the rows written after it. -/
inductive Sends (s : State) (id : ℕ) (tx : Tx) : Statement → List (Key × Option Row) → Prop
  | setSession : Sends s id tx .setSession tx.pending
  | lock {relation : Relation} {mode : LockMode} : s.grants id relation mode = true →
      Sends s id tx (.lock relation mode) tx.pending
  | confirmLock : s.holder = some tx.backend → Sends s id tx .confirmLock tx.pending
  | confirmRelations : Sends s id tx .confirmRelations tx.pending
  | confirmResolution : Sends s id tx .confirmResolution tx.pending
  | insertChunk (chunk : Chunk) (found : List (Key × Row)) :
      Sends s id tx (.insertChunk chunk)
        ((s.added chunk found).map fun entry => (entry.1, some entry.2))
  | deleteAbove (lower : Key) (limit : ℕ) :
      Sends s id tx (.deleteAbove lower limit) ((s.lowest lower limit).map fun key => (key, none))
  | writeNothing (write : RowWrite) : Sends s id tx (.writeRow write) tx.pending
  | writeRow (write : RowWrite) (image : Option Row) :
      Sends s id tx (.writeRow write) (tx.pending ++ [(write.key, image)])
  | rename : Sends s id tx .rename tx.pending

/-- What a transaction becomes when it moves without committing. -/
inductive Turns (s : State) (id : ℕ) (tx : Tx) : Tx → Prop
  | asks (ticket : ℕ) : Turns s id tx { tx with asked := some ticket }
  | refused : Turns s id tx tx.refused
  | sends {statement : Statement} {rest : List Statement} {pending : List (Key × Option Row)} :
      tx.rest = statement :: rest → Sends s id tx statement pending →
      Turns s id tx (tx.advance statement rest pending)

/-- The outcomes of each event. -/
inductive Steps (s : State) : Event → State → Prop
  | acquire {b : Backend} {start : Watermark} : s.holder = none → b ∉ s.taken →
      Steps s (.acquire b start)
        { s with
          holder := some b
          taken := b :: s.taken
          own := s.shadow
          copiers := Function.update s.copiers b { start } }
  | release {b : Backend} : s.holder = some b → Steps s (.release b) { s with holder := none }
  | clearsNothing {b : Backend} {batch : ℕ} : b ∈ s.taken → (s.copiers b).stage ≠ .copying →
      (startAfter (s.copiers b).start).2 = true →
      Steps s (.clearAbove b batch) (s.clearReturns b)
  | clears {b : Backend} {batch : ℕ} : b ∈ s.taken → (s.copiers b).stage ≠ .copying →
      (startAfter (s.copiers b).start).2 = false →
      Steps s (.clearAbove b batch) (s.setStage b (.clearing batch true none))
  | beginBatch {b : Backend} {batch : ℕ} {fence : Bool} : b ∈ s.taken →
      (s.copiers b).stage = .clearing batch fence none →
      Steps s (.beginBatch b)
        ((s.begins b (.clear (startAfter (s.copiers b).start).1 batch fence)).setStage b
          (.clearing batch fence (some s.txs.length)))
  | hearsLast {b : Backend} {batch id : ℕ} {fence : Bool} {tx : Tx} :
      (s.copiers b).stage = .clearing batch fence (some id) → s.txs[id]? = some tx →
      tx.phase = .committed → tx.pending.length < batch → Steps s (.hear b) (s.clearReturns b)
  | hearsMore {b : Backend} {batch id : ℕ} {fence : Bool} {tx : Tx} :
      (s.copiers b).stage = .clearing batch fence (some id) → s.txs[id]? = some tx →
      tx.phase = .committed → Steps s (.hear b) (s.setStage b (.clearing batch false none))
  | loses {b : Backend} {batch : ℕ} {fence : Bool} {id : Option ℕ} :
      (s.copiers b).stage = .clearing batch fence id →
      Steps s (.lose b) (s.setStage b .failed)
  | beginChunk {b : Backend} {chunk : Chunk} : b ∈ s.taken →
      Steps s (.beginChunk b chunk) ((s.begins b (.chunk chunk)).setStage b .copying)
  | beginFlush {b : Backend} {writes : List RowWrite} : b ∈ s.taken →
      ((s.copiers b).stage = .copying ∨
        ∀ write ∈ writes, (s.copiers b).start.reaches write.key = true) →
      Steps s (.beginFlush b writes) (s.begins b (.flush writes))
  | beginSwap {b : Backend} {writes : List RowWrite} : b ∈ s.taken →
      ((s.copiers b).stage = .copying ∨ (s.copiers b).start.complete = true) →
      Steps s (.beginSwap b writes) (s.begins b (.swap writes))
  | verified {b : Backend} : Steps s (.verified b) { s with marks := s.marks ++ [.verified b] }
  | asks {id : ℕ} {tx : Tx} : s.txs[id]? = some tx → tx.phase = .running →
      Steps s (.ask id)
        { s.setTx id { tx with asked := some s.clock } with clock := s.clock + 1 }
  | turns {e : Event} {id : ℕ} {tx turned : Tx} : s.txs[id]? = some tx → tx.phase = .running →
      Turns s id tx turned → Steps s e (s.setTx id turned)
  | commits {id : ℕ} {found : List (Key × Row)} {tx : Tx} {rest : List Statement} :
      s.txs[id]? = some tx → tx.phase = .running → tx.rest = .commit :: rest →
      Steps s (.next id found) (s.commits id tx rest)

variable {statement : Statement}

section Outcomes

variable {s s' : State} {id : ℕ} {tx : Tx} {rest : List Statement} {found : List (Key × Row)}

theorem steps_of_writeRow {e : Event} {write : RowWrite} (here : s.txs[id]? = some tx)
    (running : tx.phase = .running) (head : tx.rest = .writeRow write :: rest)
    (sent : s.writeRow id tx rest write = some s') : Steps s e s' := by
  rw [State.writeRow] at sent
  split at sent
  · cases sent
    exact .turns here running .refused
  · cases sent
    exact .turns here running (.sends head (.writeNothing write))
  · split at sent
    · cases sent
    · cases sent
      exact .turns here running (.sends head (.writeRow write _))

/-- What sending one statement comes to. -/
theorem steps_of_execute (here : s.txs[id]? = some tx) (running : tx.phase = .running)
    (head : tx.rest = statement :: rest) (sent : s.execute id tx rest found statement = some s') :
    Steps s (.next id found) s' := by
  cases statement with
  | setSession =>
    cases sent
    exact .turns here running (.sends head .setSession)
  | lock relation mode =>
    rw [State.execute] at sent
    split at sent
    · cases sent
      exact .turns here running .refused
    · split at sent
      next granted =>
        cases sent
        exact .turns here running (.sends head (.lock (Bool.and_eq_true_iff.mp granted).2))
      next => cases sent
  | confirmLock =>
    rw [State.execute] at sent
    split at sent
    next held =>
      cases sent
      exact .turns here running (.sends head (.confirmLock held))
    next =>
      cases sent
      exact .turns here running .refused
  | confirmRelations =>
    rw [State.execute] at sent
    split at sent
    · cases sent
      exact .turns here running .refused
    · cases sent
      exact .turns here running (.sends head .confirmRelations)
  | confirmResolution =>
    cases sent
    exact .turns here running (.sends head .confirmResolution)
  | insertChunk chunk =>
    rw [State.execute] at sent
    split at sent
    · cases sent
    · cases sent
      exact .turns here running (.sends head (.insertChunk chunk found))
  | deleteAbove lower limit =>
    rw [State.execute] at sent
    split at sent
    · cases sent
    · cases sent
      exact .turns here running (.sends head (.deleteAbove lower limit))
  | writeRow write => exact steps_of_writeRow here running head sent
  | rename =>
    cases sent
    exact .turns here running (.sends head .rename)
  | commit =>
    cases sent
    exact .commits here running head

/-- **`step` does nothing but what `Steps` lists.** -/
theorem steps_of_step {e : Event} (taken : step s e = some s') : Steps s e s' := by
  cases e with
  | acquire b start =>
    obtain ⟨free, ⟨⟩⟩ := Option.ite_none_right_eq_some.mp taken
    exact .acquire free.1 free.2
  | release b =>
    obtain ⟨held, ⟨⟩⟩ := Option.ite_none_right_eq_some.mp taken
    exact .release held
  | clearAbove b batch =>
    obtain ⟨ready, sent⟩ := Option.ite_none_right_eq_some.mp taken
    have early : (s.copiers b).stage ≠ .copying := by
      rcases ready.2 with idle | cleared
      · simp [idle]
      · simp [cleared]
    split at sent
    next complete =>
      cases sent
      exact .clearsNothing ready.1 early complete
    next short =>
      cases sent
      exact .clears ready.1 early (Bool.eq_false_iff.mpr short)
  | beginBatch b =>
    rw [step, State.beginBatch] at taken
    split at taken
    next stage =>
      obtain ⟨known, ⟨⟩⟩ := Option.ite_none_right_eq_some.mp taken
      exact .beginBatch known stage
    next => cases taken
  | hear b =>
    rw [step, State.hear] at taken
    split at taken
    next stage =>
      split at taken
      next here =>
        obtain ⟨committed, sent⟩ := Option.ite_none_right_eq_some.mp taken
        split at sent
        next fewer =>
          cases sent
          exact .hearsLast stage here committed fewer
        next =>
          cases sent
          exact .hearsMore stage here committed
      next => cases taken
    next => cases taken
  | lose b =>
    rw [step, State.lose] at taken
    split at taken
    next stage =>
      cases taken
      exact .loses stage
    next => cases taken
  | beginChunk b chunk =>
    obtain ⟨ready, ⟨⟩⟩ := Option.ite_none_right_eq_some.mp taken
    exact .beginChunk ready.1
  | beginFlush b writes =>
    obtain ⟨ready, ⟨⟩⟩ := Option.ite_none_right_eq_some.mp taken
    exact .beginFlush ready.1 (ready.2.imp_right fun all => List.all_eq_true.mp all)
  | beginSwap b writes =>
    obtain ⟨ready, ⟨⟩⟩ := Option.ite_none_right_eq_some.mp taken
    exact .beginSwap ready.1 ready.2
  | verified b =>
    obtain ⟨-, ⟨⟩⟩ := Option.ite_none_right_eq_some.mp taken
    exact .verified
  | ask id =>
    rw [step, State.ask] at taken
    split at taken
    next here =>
      split at taken
      next running _ _ =>
        cases taken
        exact .asks here running
      next => cases taken
    next => cases taken
  | next id found =>
    rw [step, State.next] at taken
    split at taken
    next here =>
      split at taken
      next running head => exact steps_of_execute here running head taken
      next => cases taken
    next => cases taken
  | abort id =>
    rw [step, State.abort] at taken
    split at taken
    next here =>
      obtain ⟨running, ⟨⟩⟩ := Option.ite_none_right_eq_some.mp taken
      exact .turns here running .refused
    next => cases taken

end Outcomes

/-! ### One transaction in an interleaving -/

/-- What a run's transaction may be before the run's first chunk. -/
def Work.Within (start : Watermark) : Work → Prop
  | .chunk _ => False
  | .clear _ _ _ => True
  | .flush writes => ∀ write ∈ writes, start.reaches write.key = true
  | .swap _ => False

/-- A run's transactions before its first chunk. -/
def Allowed (s : State) (tx : Tx) : Prop :=
  (s.copiers tx.backend).stage = .copying ∨ (s.copiers tx.backend).start.complete = true ∨
    tx.work.Within (s.copiers tx.backend).start

/-- What an event does to the transactions and to the shadow. -/
inductive Moved (s s' : State) : Prop
  | still : s'.txs = s.txs → s'.shadow = s.shadow → Moved s s'
  | begins {b : Backend} {work : Work} : b ∈ s.taken → Allowed s' (.begun b work) →
      s'.txs = s.txs ++ [.begun b work] → s'.shadow = s.shadow → Moved s s'
  | turns {id : ℕ} {tx turned : Tx} : s.txs[id]? = some tx → tx.phase = .running →
      Turns s id tx turned → s'.txs = s.txs.set id turned → s'.shadow = s.shadow → Moved s s'
  | commits {id : ℕ} {tx : Tx} {rest : List Statement} : s.txs[id]? = some tx →
      tx.phase = .running → tx.rest = .commit :: rest → s' = s.commits id tx rest → Moved s s'

/-- Where a transaction's record after an event comes from. -/
inductive Record (s : State) (i : ℕ) : Tx → Prop
  | same {tx : Tx} : s.txs[i]? = some tx → Record s i tx
  | begun {b : Backend} {work : Work} : b ∈ s.taken → Record s i (.begun b work)
  | turned {tx turned : Tx} : s.txs[i]? = some tx → tx.phase = .running → Turns s i tx turned →
      Record s i turned
  | committed {tx : Tx} {rest : List Statement} : s.txs[i]? = some tx → tx.phase = .running →
      tx.rest = .commit :: rest →
      Record s i (tx.ends rest)

section Records

variable {s s' : State} {e : Event} {i id : ℕ} {tx old turned : Tx}

theorem Turns.same (turns : Turns s id tx turned) :
    turned.backend = tx.backend ∧ turned.work = tx.work := by
  cases turns <;> exact ⟨rfl, rfl⟩

/-- A record of a list one record of which was replaced is the new one, or was there before. -/
theorem record_of_set {txs : List Tx} (here : (txs.set id turned)[i]? = some tx) :
    (i = id ∧ tx = turned) ∨ txs[i]? = some tx := by
  rw [List.getElem?_set] at here
  split at here
  next same =>
    split at here
    · cases here
      exact .inl ⟨same.symm, rfl⟩
    · cases here
  next => exact .inr here

theorem record_of_concat {txs : List Tx} (here : (txs ++ [turned])[i]? = some tx) :
    txs[i]? = some tx ∨ tx = turned := by
  rw [List.getElem?_append] at here
  split at here
  · exact .inl here
  · exact .inr (List.mem_singleton.mp (List.mem_of_getElem? here))

/-- **An event begins one transaction, moves one or commits one, or touches none.** -/
theorem Steps.moved (steps : Steps s e s') : Moved s s' := by
  cases steps with
  | beginBatch known _ =>
    refine .begins known ?_ rfl rfl
    exact .inr (.inr trivial)
  | beginChunk known => exact .begins known (.inl (by simp [State.setStage, Tx.begun])) rfl rfl
  | beginFlush known may =>
    refine .begins known ?_ rfl rfl
    exact may.imp_right .inr
  | beginSwap known may => exact .begins known (may.imp_right .inl) rfl rfl
  | asks here running => exact .turns here running (.asks _) rfl rfl
  | turns here running turns => exact .turns here running turns rfl rfl
  | commits here running head => exact .commits here running head rfl
  | _ => exact .still rfl rfl

/-- Every record after an event was there before, has just been begun, or is what its transaction
turned into. -/
theorem Steps.record (steps : Steps s e s') (here : s'.txs[i]? = some tx) : Record s i tx := by
  cases steps.moved with
  | still txs _ => exact .same (txs ▸ here)
  | begins known _ txs _ =>
    rcases record_of_concat (txs ▸ here) with before | rfl
    · exact .same before
    · exact .begun known
  | turns there running turns txs _ =>
    rcases record_of_set (txs ▸ here) with ⟨rfl, rfl⟩ | before
    · exact .turned there running turns
    · exact .same before
  | commits there running head after =>
    subst after
    rcases record_of_set here with ⟨rfl, rfl⟩ | before
    · exact .committed there running head
    · exact .same before

/-- A transaction keeps its place, its run and its work. -/
theorem Steps.kept (steps : Steps s e s') (there : s.txs[i]? = some old) :
    ∃ tx, s'.txs[i]? = some tx ∧ tx.backend = old.backend ∧ tx.work = old.work := by
  have inside : i < s.txs.length := (List.getElem?_eq_some_iff.mp there).1
  have set : ∀ {id tx turned}, s.txs[id]? = some tx → turned.backend = tx.backend →
      turned.work = tx.work → ∃ tx, (s.txs.set id turned)[i]? = some tx ∧
        tx.backend = old.backend ∧ tx.work = old.work := by
    intro id tx turned here backend work
    by_cases same : id = i
    · subst same
      cases here.symm.trans there
      exact ⟨turned, List.getElem?_set_self inside, backend, work⟩
    · exact ⟨old, (List.getElem?_set_ne same).trans there, rfl, rfl⟩
  cases steps.moved with
  | still txs _ => exact ⟨old, txs ▸ there, rfl, rfl⟩
  | begins _ _ txs _ =>
    exact ⟨old, by rw [txs, List.getElem?_append_left inside, there], rfl, rfl⟩
  | turns here _ turns txs _ => exact txs ▸ set here turns.same.1 turns.same.2
  | commits here _ _ after => exact after ▸ set here rfl rfl

/-- A transaction was there before, or the run that has just begun it may do so. -/
theorem Steps.allowed (steps : Steps s e s') (here : s'.txs[i]? = some tx) :
    (∃ old, s.txs[i]? = some old ∧ old.backend = tx.backend ∧ old.work = tx.work) ∨
      Allowed s' tx := by
  cases steps.moved with
  | still txs _ => exact .inl ⟨tx, txs ▸ here, rfl, rfl⟩
  | begins _ allowed txs _ =>
    rcases record_of_concat (txs ▸ here) with before | rfl
    · exact .inl ⟨tx, before, rfl, rfl⟩
    · exact .inr allowed
  | turns there _ turns txs _ =>
    rcases record_of_set (txs ▸ here) with ⟨rfl, rfl⟩ | before
    · exact .inl ⟨_, there, turns.same.1.symm, turns.same.2.symm⟩
    · exact .inl ⟨tx, before, rfl, rfl⟩
  | commits there _ _ after =>
    subst after
    rcases record_of_set here with ⟨rfl, rfl⟩ | before
    · exact .inl ⟨_, there, rfl, rfl⟩
    · exact .inl ⟨tx, before, rfl, rfl⟩

end Records

/-! ### What a transaction has sent -/

/-- What a transaction sends before it confirms the table lock. -/
def Work.before : Work → List Statement
  | .chunk _ => .setSession :: copierHoldRelations .rowExclusive
  | .clear _ _ fence => .setSession :: copierHoldRelations (clearShadowLockMode fence)
  | .flush _ => .setSession :: flusherHoldRelations
  | .swap _ => [.setSession]

/-- What it sends afterwards. -/
def Work.after : Work → List Statement
  | .chunk range =>
    [.confirmRelations, .confirmResolution, .insertChunk range, .confirmResolution, .commit]
  | .clear lower limit _ =>
    [.confirmRelations, .confirmResolution, .deleteAbove lower limit, .commit]
  | .flush writes =>
    .confirmRelations :: .confirmResolution ::
      (applyWrites writes ++ [.confirmResolution, .commit])
  | .swap writes =>
    .lock .source .accessExclusive :: .lock .shadow .accessExclusive ::
      (writes.map .writeRow ++ [.rename, .commit])

theorem Work.statements_eq (work : Work) :
    work.statements = work.before ++ .confirmLock :: work.after := by
  cases work <;> rfl

theorem Work.before_unconfirmed (work : Work) : work.before.any Statement.isConfirm = false := by
  cases work <;> rfl

theorem Work.commit_not_before (work : Work) : Statement.commit ∉ work.before := by
  cases work <;> simp [before, copierHoldRelations, flusherHoldRelations]

/-- What a transaction's statements can write. -/
def Work.Writes : Work → Key × Option Row → Prop
  | .chunk range, write => range.covers write.1 = true
  | .clear lower _ _, write => lower ≤ write.1 ∧ write.2 = none
  | .flush writes, write => ∃ sent ∈ writes, sent.key = write.1
  | .swap writes, write => ∃ sent ∈ writes, sent.key = write.1

section Statements

variable {work : Work}

theorem Work.of_insertChunk {chunk : Chunk} (part : .insertChunk chunk ∈ work.statements) :
    work = .chunk chunk := by
  cases work <;> simp_all [statements_eq, before, after, copierHoldRelations, flusherHoldRelations,
    applyWrites]

theorem Work.of_deleteAbove {lower : Key} {limit : ℕ}
    (part : .deleteAbove lower limit ∈ work.statements) :
    ∃ fence, work = .clear lower limit fence := by
  cases work <;> simp_all [statements_eq, before, after, copierHoldRelations, flusherHoldRelations,
    applyWrites]

theorem Work.of_writeRow {write : RowWrite} (part : .writeRow write ∈ work.statements) :
    ∃ writes, write ∈ writes ∧ (work = .flush writes ∨ work = .swap writes) := by
  cases work <;> simp_all [statements_eq, before, after, copierHoldRelations, flusherHoldRelations,
    applyWrites]

end Statements

section Sent

variable {tx : Tx}

/-- A transaction that has confirmed the lock has sent everything its function sends before that;
one that has not is still before it. -/
theorem Tx.confirmed_split (sent : tx.done ++ tx.rest = tx.work.statements) :
    (tx.confirmed = true ∧ ∃ more, tx.done = tx.work.before ++ .confirmLock :: more ∧
      tx.work.after = more ++ tx.rest) ∨
    (tx.confirmed = false ∧ ∃ more, tx.work.before = tx.done ++ more ∧
      tx.rest = more ++ .confirmLock :: tx.work.after) := by
  have unconfirmed := tx.work.before_unconfirmed
  rw [Work.statements_eq, List.append_eq_append_iff] at sent
  have early : ∀ more, tx.work.before = tx.done ++ more → tx.confirmed = false := by
    intro more split
    rw [split, List.any_append, Bool.or_eq_false_iff] at unconfirmed
    exact unconfirmed.1
  rcases sent with ⟨more, before, rest⟩ | ⟨more, done, after⟩
  · exact .inr ⟨early more before, more, before, rest⟩
  · cases more with
    | nil =>
      rw [List.append_nil] at done
      exact .inr ⟨early [] (by rw [List.append_nil, done]), [], by rw [List.append_nil, done],
        after.symm⟩
    | cons statement more =>
      rw [List.cons_append, List.cons.injEq] at after
      obtain ⟨rfl, after⟩ := after
      exact .inl ⟨by simp [confirmed, done, Statement.isConfirm], more, done, after⟩

/-- A transaction commits only after its confirmation. -/
theorem Tx.confirmed_of_commit {rest : List Statement}
    (sent : tx.done ++ tx.rest = tx.work.statements) (head : tx.rest = .commit :: rest) :
    tx.confirmed = true := by
  rcases Tx.confirmed_split sent with ⟨confirmed, -⟩ | ⟨-, more, before, rest'⟩
  · exact confirmed
  · exfalso
    rw [head] at rest'
    cases more with
    | nil => cases rest'
    | cons statement more =>
      rw [List.cons_append, List.cons.injEq] at rest'
      refine tx.work.commit_not_before ?_
      rw [before, ← rest'.1]
      simp

theorem Tx.mem_statements {rest : List Statement} (sent : tx.done ++ tx.rest = tx.work.statements)
    (head : tx.rest = statement :: rest) : statement ∈ tx.work.statements := by
  rw [← sent, head]
  simp

/-- A statement's writes are among those its work makes. -/
theorem Work.writes_of_sends {s : State} {id : ℕ} {pending : List (Key × Option Row)}
    (part : statement ∈ tx.work.statements) (sends : Sends s id tx statement pending)
    (wrote : ∀ write ∈ tx.pending, tx.work.Writes write) :
    ∀ write ∈ pending, tx.work.Writes write := by
  cases sends with
  | insertChunk chunk found =>
    intro write member
    rw [Work.of_insertChunk part]
    obtain ⟨entry, added, rfl⟩ := List.mem_map.mp member
    exact (Bool.and_eq_true_iff.mp (List.mem_filter.mp added).2).1
  | deleteAbove lower limit =>
    intro write member
    obtain ⟨fence, is⟩ := Work.of_deleteAbove part
    obtain ⟨key, among, rfl⟩ := List.mem_map.mp member
    rw [is]
    exact ⟨of_decide_eq_true (List.mem_filter.mp (List.mem_of_mem_take among)).2, rfl⟩
  | writeRow sent image =>
    intro write member
    rcases List.mem_append.mp member with earlier | last
    · exact wrote write earlier
    · obtain ⟨writes, among, is | is⟩ := Work.of_writeRow part
      · rw [is, List.mem_singleton.mp last]
        exact ⟨sent, among, rfl⟩
      · rw [is, List.mem_singleton.mp last]
        exact ⟨sent, among, rfl⟩
  | _ => exact wrote

end Sent

/-! ### What every interleaving keeps -/

/-- When the lock passes on, only transactions of the kinds that may straggle are still open past
their confirmation. -/
def Straggling (may : Work → Bool) (s : State) : Event → Prop
  | .acquire _ _ => ∀ tx ∈ s.txs, tx.straggles = true → may tx.work = true
  | _ => True

/-- `Straggling`, evaluated. -/
def straggling (may : Work → Bool) (s : State) : Event → Bool
  | .acquire _ _ => s.txs.all fun tx => !tx.straggles || may tx.work
  | _ => true

theorem straggling_sound {may : Work → Bool} (s : State) (e : Event)
    (passes : straggling may s e = true) : Straggling may s e := by
  cases e with
  | acquire b start =>
    intro tx member past
    have each := List.all_eq_true.mp passes tx member
    rw [past] at each
    exact each
  | _ => trivial

/-- **The order of an interleaving.** -/
structure Ordered (may : Work → Bool) (s : State) : Prop where
  sent : ∀ (i : ℕ) (tx : Tx), s.txs[i]? = some tx → tx.done ++ tx.rest = tx.work.statements
  known : ∀ (i : ℕ) (tx : Tx), s.txs[i]? = some tx → tx.backend ∈ s.taken
  distinct : s.taken.Nodup
  last : ∀ b, s.holder = some b → s.taken.head? = some b
  /-- A transaction past its confirmation is the last holder's, or may straggle. -/
  straggler : ∀ (i : ℕ) (tx : Tx), s.txs[i]? = some tx → tx.straggles = true →
    s.taken.head? ≠ some tx.backend → may tx.work = true
  apart : ∀ (i j : ℕ) (a b : Tx), i ≠ j → s.txs[i]? = some a → s.txs[j]? = some b →
    ∀ relation, ∀ m ∈ a.holds relation, ∀ n ∈ b.holds relation, m.conflicts n = false
  wrote : ∀ (i : ℕ) (tx : Tx), s.txs[i]? = some tx → ∀ write ∈ tx.pending, tx.work.Writes write
  committed : ∀ (i : ℕ) (tx : Tx), s.txs[i]? = some tx → tx.phase = .committed → tx.confirmed = true

section Taken

variable {s s' : State} {e : Event}

theorem Steps.taken (steps : Steps s e s') :
    s'.taken = s.taken ∨ ∃ b start, e = .acquire b start ∧ s.holder = none ∧ b ∉ s.taken ∧
      s'.taken = b :: s.taken := by
  cases steps with
  | acquire free fresh => exact .inr ⟨_, _, rfl, free, fresh, rfl⟩
  | _ => exact .inl rfl

theorem Steps.taken_subset (steps : Steps s e s') : s.taken ⊆ s'.taken := by
  rcases steps.taken with same | ⟨b, start, -, -, -, more⟩
  · exact same ▸ fun _ member => member
  · exact more ▸ List.subset_cons_self b s.taken

theorem Steps.holder (steps : Steps s e s') :
    s'.holder = none ∨ s'.holder = s'.taken.head? ∨
      s'.holder = s.holder ∧ s'.taken = s.taken := by
  cases steps with
  | acquire _ _ => exact .inr (.inl rfl)
  | release _ => exact .inl rfl
  | _ => exact .inr (.inr ⟨rfl, rfl⟩)

/-- A step changes one transaction only. -/
theorem Steps.others (steps : Steps s e s') : ∃ id, ∀ j : ℕ, j ≠ id → s'.txs[j]? = s.txs[j]? := by
  cases steps.moved with
  | still txs _ => exact ⟨0, fun j _ => by rw [txs]⟩
  | turns _ _ _ txs _ => exact ⟨_, fun j differ => txs ▸ List.getElem?_set_ne differ.symm⟩
  | commits _ _ _ after => exact ⟨_, fun j differ => after ▸ List.getElem?_set_ne differ.symm⟩
  | begins _ _ txs _ =>
    refine ⟨s.txs.length, fun j differ => ?_⟩
    rw [txs]
    rcases Nat.lt_or_gt_of_ne differ with below | above
    · exact List.getElem?_append_left below
    · rw [List.getElem?_eq_none (by simp; omega), List.getElem?_eq_none (by omega)]

end Taken

variable {mode : LockMode}

section Holds

variable {s : State} {i : ℕ} {tx turned : Tx} {relation : Relation}

theorem mem_holds (running : tx.phase = .running) :
    mode ∈ tx.holds relation ↔ .lock relation mode ∈ tx.done := by
  rw [Tx.holds, if_pos running, List.mem_filterMap]
  constructor
  · rintro ⟨statement, member, is⟩
    cases statement <;> simp_all
  · exact fun member => ⟨_, member, by simp⟩

/-- A turn adds only the lock it is granted. -/
theorem Turns.holds (turns : Turns s i tx turned) (running : tx.phase = .running)
    (held : mode ∈ turned.holds relation) :
    mode ∈ tx.holds relation ∨ s.grants i relation mode = true := by
  cases turns with
  | asks ticket => exact .inl held
  | refused => cases held
  | @sends statement rest pending head sends =>
    have advanced : (tx.advance statement rest pending).phase = .running := running
    rw [mem_holds running]
    rw [mem_holds advanced] at held
    rcases List.mem_append.mp held with before | now
    · exact .inl before
    · rw [← List.mem_singleton.mp now] at sends
      cases sends with
      | lock granted => exact .inr granted

theorem not_conflicts_of_grants {held : LockMode} {j : ℕ} {other : Tx}
    (granted : s.grants i relation mode = true) (apart : i ≠ j) (there : s.txs[j]? = some other)
    (holds : held ∈ other.holds relation) : held.conflicts mode = false := by
  have among : other ∈ s.txs.eraseIdx i :=
    List.mem_eraseIdx_iff_getElem?.mpr ⟨j, apart.symm, there⟩
  simpa using List.all_eq_true.mp (List.all_eq_true.mp granted other among) held holds

end Holds

namespace Record

variable {may : Work → Bool} {s s' : State} {i : ℕ} {tx : Tx} (record : Record s i tx)

include record

theorem sent (ordered : Ordered may s) : tx.done ++ tx.rest = tx.work.statements := by
  cases record with
  | same here => exact ordered.sent i tx here
  | begun known => rfl
  | @committed old rest here running head =>
    have before := ordered.sent i old here
    rw [head] at before
    simp [Tx.ends, ← before]
  | @turned old _ here running turns =>
    have before := ordered.sent i old here
    cases turns with
    | asks ticket => exact before
    | refused => exact before
    | sends head sends =>
      rw [head] at before
      simp [Tx.advance, ← before]

theorem known (ordered : Ordered may s) : tx.backend ∈ s.taken := by
  cases record with
  | same here => exact ordered.known i tx here
  | begun known => exact known
  | @committed old rest here running head => exact ordered.known i old here
  | @turned old _ here running turns =>
    have before := ordered.known i old here
    cases turns <;> exact before

/-- What a transaction has pending its work may write. -/
theorem wrote (ordered : Ordered may s) : ∀ write ∈ tx.pending, tx.work.Writes write := by
  cases record with
  | same here => exact ordered.wrote i tx here
  | begun known => exact fun _ impossible => nomatch impossible
  | @committed old rest here running head => exact ordered.wrote i old here
  | @turned old _ here running turns =>
    have before := ordered.wrote i old here
    cases turns with
    | asks ticket => exact before
    | refused => exact before
    | sends head sends =>
      have part := Tx.mem_statements (ordered.sent i old here) head
      have after := Work.writes_of_sends part sends before
      exact after

/-- A transaction that committed had its lock confirmed. -/
theorem committed_confirmed (ordered : Ordered may s) (ended : tx.phase = .committed) :
    tx.confirmed = true := by
  cases record with
  | same here => exact ordered.committed i tx here ended
  | begun known => cases ended
  | @committed old rest here running head =>
    have confirmed := Tx.confirmed_of_commit (ordered.sent i old here) head
    rw [Tx.confirmed] at confirmed ⊢
    simp [Tx.ends, confirmed]
  | turned here running turns =>
    cases turns with
    | asks ticket => exact absurd (running.symm.trans ended) nofun
    | refused => cases ended
    | sends head sends => exact absurd (running.symm.trans ended) nofun

/-- A transaction past its confirmation was past it before, or its run holds the lock. -/
theorem straggles (past : tx.straggles = true) :
    (∃ old, s.txs[i]? = some old ∧ old.straggles = true ∧ old.backend = tx.backend ∧
      old.work = tx.work) ∨ s.holder = some tx.backend := by
  cases record with
  | same here => exact .inl ⟨tx, here, past, rfl, rfl⟩
  | begun known => cases past
  | committed here running head => cases past
  | @turned old _ here running turns =>
    cases turns with
    | asks ticket => exact .inl ⟨old, here, past, rfl, rfl⟩
    | refused => cases past
    | @sends statement rest pending head sends =>
      by_cases already : old.confirmed = true
      · exact .inl ⟨old, here, by simp [Tx.straggles, running, already], rfl, rfl⟩
      · -- only the confirmation itself takes the transaction past it
        have confirms : statement.isConfirm = true := by
          have now := (Bool.and_eq_true_iff.mp past).2
          rw [Tx.confirmed, Tx.advance, List.any_append, Bool.or_eq_true] at now
          simpa using now.resolve_left already
        cases statement with
        | confirmLock =>
          cases sends with
          | confirmLock held => exact .inr held
        | _ => cases confirms

end Record

section Run

variable {may : Work → Bool} {s s' : State} {e : Event}

theorem ordered_start (shadow : Table) : Ordered may (State.start shadow) where
  sent _ _ here := nomatch here
  known _ _ here := nomatch here
  distinct := List.nodup_nil
  last _ held := nomatch held
  straggler _ _ here := nomatch here
  apart _ _ _ _ _ here := nomatch here
  wrote _ _ here := nomatch here
  committed _ _ here := nomatch here

theorem Record.holds {i : ℕ} {tx : Tx} {relation : Relation} (record : Record s i tx)
    (held : mode ∈ tx.holds relation) :
    (∃ old, s.txs[i]? = some old ∧ mode ∈ old.holds relation) ∨
      s.grants i relation mode = true := by
  cases record with
  | same here => exact .inl ⟨tx, here, held⟩
  | begun known => cases held
  | committed here running head => cases held
  | turned here running turns => exact (turns.holds running held).imp_left fun old => ⟨_, here, old⟩

/-- Every step that lets only such work straggle keeps the order. -/
theorem Ordered.step (ordered : Ordered may s) (met : Straggling may s e) (steps : Steps s e s') :
    Ordered may s' where
  sent i tx here := (steps.record here).sent ordered
  known i tx here := steps.taken_subset ((steps.record here).known ordered)
  wrote i tx here := (steps.record here).wrote ordered
  committed i tx here := (steps.record here).committed_confirmed ordered
  distinct := by
    rcases steps.taken with same | ⟨b, start, -, -, fresh, more⟩
    · exact same ▸ ordered.distinct
    · exact more ▸ List.nodup_cons.mpr ⟨fresh, ordered.distinct⟩
  last b held := by
    rcases steps.holder with none | last | ⟨same, taken⟩
    · rw [none] at held
      cases held
    · exact last ▸ held
    · rw [taken]
      exact ordered.last b (same ▸ held)
  straggler i tx here past other := by
    rcases (steps.record here).straggles past with ⟨old, there, before, backend, work⟩ | held
    · rcases steps.taken with same | ⟨b, start, rfl, -, -, -⟩
      · rw [same, ← backend] at other
        exact work ▸ ordered.straggler i old there before other
      · exact work ▸ met old (List.mem_of_getElem? there) before
    · rcases steps.taken with same | ⟨b, start, -, free, -, -⟩
      · exact absurd (same ▸ ordered.last _ held) other
      · rw [free] at held
        cases held
  apart i j a b differ left right relation m mHeld n nHeld := by
    obtain ⟨id, others⟩ := steps.others
    -- one of the two is not the transaction that moved
    by_cases moved : i = id
    · have there := others j (moved ▸ differ.symm) ▸ right
      rcases (steps.record left).holds mHeld with ⟨old, here, before⟩ | granted
      · exact ordered.apart i j old b differ here there relation m before n nHeld
      · rw [LockMode.conflicts_symm]
        exact not_conflicts_of_grants granted differ there nHeld
    · have here := others i moved ▸ left
      rcases (steps.record right).holds nHeld with ⟨old, there, before⟩ | granted
      · exact ordered.apart i j a old differ here there relation m mHeld n before
      · exact not_conflicts_of_grants granted differ.symm here mHeld

end Run

end PgSprite.Handover
