/-
**The table lock passes on: runs of one table, and the transactions they left open.**

A run holds the table by an advisory lock of its lock session and works on the shadow in
transactions of other sessions. A run that is stopped leaves its transactions where they stand: each
is paused before some statement and may go on later, after the lock has passed to another run.

A transaction is the list of statements its function sends, in order; `copierGuard`, `chunkTx`,
`clearBatch`, `flush` and `swapTx` are those lists. `step` lets any transaction send its next
statement, any run take or give up the lock, and any run go on with its clear, its copy, its flushes
and its swap.

Of the server the model has the table locks and who waits for them, the rows an open transaction has
written, and the table everyone else reads; a statement that waits for a row another transaction has
written goes on once that transaction has ended.
-/

import PgSprite.Copier.Ledger
import PgSprite.Lib.Run
import PgSprite.Source.History

namespace PgSprite.Handover

open Std PgSprite.Decode PgSprite.Source PgSprite.Copier PgSprite.Lib

/-! ### Table locks -/

/-- A table lock mode of the server. -/
inductive LockMode where
  | accessShare
  | rowShare
  | rowExclusive
  | shareUpdateExclusive
  | share
  | shareRowExclusive
  | exclusive
  | accessExclusive
  deriving DecidableEq, Repr

/-- The server's conflict matrix. -/
def LockMode.excludes : LockMode → List LockMode
  | accessShare => [accessExclusive]
  | rowShare => [exclusive, accessExclusive]
  | rowExclusive => [share, shareRowExclusive, exclusive, accessExclusive]
  | shareUpdateExclusive =>
    [shareUpdateExclusive, share, shareRowExclusive, exclusive, accessExclusive]
  | share => [rowExclusive, shareUpdateExclusive, shareRowExclusive, exclusive, accessExclusive]
  | shareRowExclusive =>
    [rowExclusive, shareUpdateExclusive, share, shareRowExclusive, exclusive, accessExclusive]
  | exclusive =>
    [rowShare, rowExclusive, shareUpdateExclusive, share, shareRowExclusive, exclusive,
      accessExclusive]
  | accessExclusive =>
    [accessShare, rowShare, rowExclusive, shareUpdateExclusive, share, shareRowExclusive,
      exclusive, accessExclusive]

/-- Whether two modes cannot be held on one relation at once. -/
def LockMode.conflicts (a b : LockMode) : Bool := a.excludes.contains b

theorem LockMode.conflicts_symm (a b : LockMode) : a.conflicts b = b.conflicts a := by
  cases a <;> cases b <;> rfl

/-- The relations a run's transactions lock. -/
inductive Relation where
  | source
  | shadow
  deriving DecidableEq, Repr

/-! ### The statements of a transaction -/

/-- What a flush writes under a key: an image that is whole, one that carries some of the columns,
or a delete marker. -/
inductive RowWrite where
  | upsert (key : Key) (row : Row)
  | update (key : Key) (onto : Row → Row)
  | delete (key : Key)

/-- The key written. -/
def RowWrite.key : RowWrite → Key
  | upsert key _ => key
  | update key _ => key
  | delete key => key

/-- What a write comes to: an image of the row (none where the row is deleted), nothing, or an
update that finds no row to keep the other columns from, which is refused. -/
inductive Effect where
  | image (row : Option Row)
  | nothing
  | noRow

/-- What the write comes to on the row it finds. -/
def RowWrite.found : RowWrite → Option Row → Effect
  | upsert _ row, _ => .image (some row)
  | update _ onto, some row => .image (some (onto row))
  | update _ _, none => .noRow
  | delete _, some _ => .image none
  | delete _, none => .nothing

/-- A statement of a transaction on the shadow. A statement that locks several relations is one
`lock` for each, in the order it names them. -/
inductive Statement where
  | setSession
  | lock (relation : Relation) (mode : LockMode)
  | confirmLock
  | confirmRelations
  | confirmResolution
  | insertChunk (chunk : Chunk)
  | deleteAbove (lower : Key) (limit : ℕ)
  | writeRow (write : RowWrite)
  | rename
  | commit

/-- The statement confirms the table lock. -/
def Statement.isConfirm : Statement → Bool
  | confirmLock => true
  | _ => false

section Statements

open Statement

/-- Locks both relations, the shadow in the mode given. -/
def copierHoldRelations (shadowMode : LockMode) : List Statement :=
  [lock .source .accessShare, lock .shadow shadowMode]

/-- What the copier sends before it writes. -/
def copierGuard (shadowMode : LockMode) : List Statement :=
  setSession :: copierHoldRelations shadowMode ++
    [confirmLock, confirmRelations, confirmResolution]

/-- The mode a clear batch takes the shadow in: the first one fences. -/
def clearShadowLockMode (fence : Bool) : LockMode :=
  if fence then .shareRowExclusive else .rowExclusive

/-- One chunk's transaction. -/
def chunkTx (chunk : Chunk) : List Statement :=
  copierGuard .rowExclusive ++ [insertChunk chunk, confirmResolution, commit]

/-- One batch of the clear. -/
def clearBatch (lower : Key) (limit : ℕ) (fence : Bool) : List Statement :=
  copierGuard (clearShadowLockMode fence) ++ [deleteAbove lower limit, commit]

/-- Locks both relations in the weakest mode. -/
def flusherHoldRelations : List Statement :=
  [lock .source .accessShare, lock .shadow .accessShare]

/-- What the flusher sends before it writes. -/
def flusherGuard : List Statement :=
  setSession :: flusherHoldRelations ++ [confirmLock, confirmRelations, confirmResolution]

/-- The batch's writes; the server locks the shadow for each of them. -/
def applyWrites (writes : List RowWrite) : List Statement :=
  writes.flatMap fun write => [lock .shadow .rowExclusive, writeRow write]

/-- One flush. -/
def flush (writes : List RowWrite) : List Statement :=
  flusherGuard ++ applyWrites writes ++ [confirmResolution, commit]

/-- The swap, with what its drain writes. -/
def swapTx (writes : List RowWrite) : List Statement :=
  [setSession, confirmLock, lock .source .accessExclusive, lock .shadow .accessExclusive] ++
    writes.map writeRow ++ [rename, commit]

end Statements

/-- What a transaction is for. -/
inductive Work where
  | chunk (chunk : Chunk)
  | clear (lower : Key) (limit : ℕ) (fence : Bool)
  | flush (writes : List RowWrite)
  | swap (writes : List RowWrite)

/-- The statements a transaction sends. -/
def Work.statements : Work → List Statement
  | .chunk range => chunkTx range
  | .clear lower limit fence => clearBatch lower limit fence
  | .flush writes => Handover.flush writes
  | .swap writes => swapTx writes

/-- The transaction is the copier's. -/
def Work.isCopier : Work → Bool
  | .chunk _ => true
  | .clear _ _ _ => true
  | _ => false

/-- The transaction is a flush. -/
def Work.isFlush : Work → Bool
  | .flush _ => true
  | _ => false

/-! ### The state -/

/-- The backend of a run's lock session, which names the run. -/
abbrev Backend := ℕ

/-- How a transaction stands on the server. -/
inductive Phase where
  | running
  | committed
  | rolledBack
  deriving DecidableEq, Repr

/-- A transaction: what it has sent and has still to send, since when it waits for a lock, and the
rows it has written. -/
structure Tx where
  backend : Backend
  work : Work
  done : List Statement := []
  rest : List Statement
  asked : Option ℕ := none
  pending : List (Key × Option Row) := []
  phase : Phase := .running

namespace Tx

/-- The modes the transaction holds a relation in. -/
def holds (tx : Tx) (relation : Relation) : List LockMode :=
  if tx.phase = .running then
    tx.done.filterMap fun
      | .lock held mode => if held = relation then some mode else none
      | _ => none
  else []

/-- The transaction has confirmed its run's table lock. -/
def confirmed (tx : Tx) : Bool := tx.done.any Statement.isConfirm

/-- The transaction is open and past its confirmation. -/
def straggles (tx : Tx) : Bool := decide (tx.phase = .running) && tx.confirmed

/-- A transaction a run has just begun. -/
def begun (backend : Backend) (work : Work) : Tx :=
  { backend, work, rest := work.statements }

/-- The transaction has sent a statement. -/
def advance (tx : Tx) (statement : Statement) (rest : List Statement)
    (pending : List (Key × Option Row)) : Tx :=
  { tx with done := tx.done ++ [statement], rest, pending, asked := none }

/-- The transaction has committed. -/
def ends (tx : Tx) (rest : List Statement) : Tx :=
  { tx with done := tx.done ++ [.commit], rest, asked := none, phase := .committed }

/-- The transaction was rolled back. -/
def refused (tx : Tx) : Tx := { tx with phase := .rolledBack }

end Tx

/-- Where a run's copier stands: before its clear, in it (with the batch size, whether the next
batch fences, and the transaction it waits for), after it, or copying. -/
inductive CopyStage where
  | idle
  | clearing (batch : ℕ) (fence : Bool) (tx : Option ℕ)
  | cleared
  | copying
  | failed
  deriving DecidableEq, Repr

/-- A run's copier: the watermark its row resumes from, and where it stands. -/
structure Copying where
  start : Watermark := none
  stage : CopyStage := .idle
  deriving DecidableEq

/-- What a run has done to the shadow. -/
inductive Mark where
  | wrote (backend : Backend) (key : Key)
  | cleared (backend : Backend) (start : Watermark)
  | verified (backend : Backend)
  | swapped (backend : Backend)
  deriving DecidableEq

/-- The run that did it. -/
def Mark.backend : Mark → Backend
  | wrote backend _ => backend
  | cleared backend _ => backend
  | verified backend => backend
  | swapped backend => backend

/-- The keys it was done to. -/
def Mark.covers : Mark → Key → Bool
  | wrote _ written, key => decide (written = key)
  | cleared _ start, key => !start.reaches key
  | verified _, _ => true
  | swapped _, _ => true

/-- The table lock, the shadow, and the transactions begun on it. `taken` are the runs that have
held the lock, the last one first. `own` is the shadow without what flushes of earlier runs wrote
into it since the last run took the lock. -/
structure State where
  holder : Option Backend := none
  taken : List Backend := []
  shadow : Table
  own : Table
  swapped : Bool := false
  txs : List Tx := []
  clock : ℕ := 0
  copiers : Backend → Copying := fun _ => {}
  marks : List Mark := []

/-- No run has held the lock yet. -/
def State.start (shadow : Table) : State := { shadow, own := shadow }

/-- The table with a transaction's rows written. -/
def written (table : Table) (pending : List (Key × Option Row)) : Table :=
  pending.foldl
    (fun table write =>
      match write.2 with
      | some row => table.insert write.1 row
      | none => table.erase write.1)
    table

namespace State

variable (s : State)

/-- Run `c` held the lock before run `b` took it. -/
def Earlier (c b : Backend) : Prop := ∃ newer older, s.taken = newer ++ b :: older ∧ c ∈ older

/-- Run `b` has written, cleared, verified or swapped the row under the key. -/
def Worked (b : Backend) (key : Key) : Prop :=
  ∃ mark ∈ s.marks, mark.backend = b ∧ mark.covers key = true

/-- No other open transaction holds the relation in a mode that conflicts. -/
def grants (id : ℕ) (relation : Relation) (mode : LockMode) : Bool :=
  (s.txs.eraseIdx id).all fun other => (other.holds relation).all fun held => !held.conflicts mode

/-- Another open transaction has written the row under the key. -/
def rowLocked (id : ℕ) (key : Key) : Bool :=
  (s.txs.eraseIdx id).any fun other =>
    decide (other.phase = .running) && other.pending.any fun write => decide (write.1 = key)

/-- The lowest keys from `lower` on, at most `limit` of them. -/
def lowest (lower : Key) (limit : ℕ) : List Key :=
  (s.shadow.keys.filter fun key => decide (lower ≤ key)).take limit

/-- The rows of a chunk's insert: those the source holds in the chunk and the shadow does not. -/
def added (chunk : Chunk) (found : List (Key × Row)) : List (Key × Row) :=
  found.filter fun entry => chunk.covers entry.1 && !s.shadow.contains entry.1

/-- The transaction's record is replaced. -/
def setTx (id : ℕ) (tx : Tx) : State := { s with txs := s.txs.set id tx }

/-- A run's copier moves to a stage. -/
def setStage (b : Backend) (stage : CopyStage) : State :=
  { s with copiers := Function.update s.copiers b { s.copiers b with stage } }

/-- A run begins a transaction. -/
def begins (b : Backend) (work : Work) : State := { s with txs := s.txs ++ [.begun b work] }

/-- What the transaction leaves behind once it has committed. -/
def marksOf (tx : Tx) : List Mark :=
  (tx.pending.map fun write => .wrote tx.backend write.1) ++
    match tx.work with
    | .swap _ => [.swapped tx.backend]
    | _ => []

/-- The transaction commits: everyone else reads its rows from now on. -/
def commits (id : ℕ) (tx : Tx) (rest : List Statement) : State :=
  { s with
    txs := s.txs.set id (tx.ends rest)
    shadow := written s.shadow tx.pending
    own :=
      if tx.work.isFlush && decide (s.taken.head? ≠ some tx.backend) then s.own
      else written s.own tx.pending
    swapped := s.swapped ||
      match tx.work with
      | .swap _ => true
      | _ => false
    marks := s.marks ++ marksOf tx }

/-- The transaction's rows with one more write; none where the write waits for another
transaction's row. -/
def writeRow (id : ℕ) (tx : Tx) (rest : List Statement) (write : RowWrite) : Option State :=
  match write.found (written s.shadow tx.pending)[write.key]? with
  | .noRow => some (s.setTx id tx.refused)
  | .nothing => some (s.setTx id (tx.advance (.writeRow write) rest tx.pending))
  | .image row =>
    if s.rowLocked id write.key then none
    else some (s.setTx id
      (tx.advance (.writeRow write) rest (tx.pending ++ [(write.key, row)])))

/-- The transaction sends a statement; none where the statement waits. `found` is what the source
holds when a chunk's insert reads it. -/
def execute (id : ℕ) (tx : Tx) (rest : List Statement) (found : List (Key × Row)) :
    Statement → Option State
  | .lock relation mode =>
    -- the swap renamed the shadow away, so its name no longer resolves
    if s.swapped && decide (relation = .shadow) then some (s.setTx id tx.refused)
    else if tx.asked.isSome && s.grants id relation mode then
      some (s.setTx id (tx.advance (.lock relation mode) rest tx.pending))
    else none
  | .confirmLock =>
    if s.holder = some tx.backend then
      some (s.setTx id (tx.advance .confirmLock rest tx.pending))
    else some (s.setTx id tx.refused)
  | .confirmRelations =>
    if s.swapped then some (s.setTx id tx.refused)
    else some (s.setTx id (tx.advance .confirmRelations rest tx.pending))
  | .insertChunk chunk =>
    if (found.filter fun entry => chunk.covers entry.1).any fun entry => s.rowLocked id entry.1
    then none
    else some (s.setTx id (tx.advance (.insertChunk chunk) rest
      ((s.added chunk found).map fun entry => (entry.1, some entry.2))))
  | .deleteAbove lower limit =>
    if (s.lowest lower limit).any (s.rowLocked id) then none
    else some (s.setTx id (tx.advance (.deleteAbove lower limit) rest
      ((s.lowest lower limit).map fun key => (key, none))))
  | .writeRow write => s.writeRow id tx rest write
  | .commit => some (s.commits id tx rest)
  | statement => some (s.setTx id (tx.advance statement rest tx.pending))

end State

/-! ### The steps -/

/-- What happens next: a run takes the lock, resuming from a watermark, or its backend gives it up;
a run begins its clear, a batch of it, hears how the batch ended, or gives up; a run begins a chunk,
a flush or its swap, or has verified the shadow; a transaction asks for a lock, sends its next
statement, or is rolled back. -/
inductive Event where
  | acquire (b : Backend) (start : Watermark)
  | release (b : Backend)
  | clearAbove (b : Backend) (batch : ℕ)
  | beginBatch (b : Backend)
  | hear (b : Backend)
  | lose (b : Backend)
  | beginChunk (b : Backend) (chunk : Chunk)
  | beginFlush (b : Backend) (writes : List RowWrite)
  | beginSwap (b : Backend) (writes : List RowWrite)
  | verified (b : Backend)
  | ask (id : ℕ)
  | next (id : ℕ) (found : List (Key × Row))
  | abort (id : ℕ)

namespace State

variable (s : State)

/-- A session takes the table lock once no other holds it; a backend is never used again. -/
def acquire (b : Backend) (start : Watermark) : Option State :=
  if s.holder = none ∧ b ∉ s.taken then
    some { s with
      holder := some b
      taken := b :: s.taken
      own := s.shadow
      copiers := Function.update s.copiers b { start } }
  else none

def release (b : Backend) : Option State :=
  if s.holder = some b then some { s with holder := none } else none

/-- The clear returns nil. -/
def clearReturns (b : Backend) : State :=
  { s.setStage b .cleared with marks := s.marks ++ [.cleared b (s.copiers b).start] }

/-- The clear above the watermark; a complete watermark has nothing above it. -/
def clearAbove (b : Backend) (batch : ℕ) : Option State :=
  if b ∈ s.taken ∧ ((s.copiers b).stage = .idle ∨ (s.copiers b).stage = .cleared) then
    if (startAfter (s.copiers b).start).2 then some (s.clearReturns b)
    else some (s.setStage b (.clearing batch true none))
  else none

/-- The clear's next batch. -/
def beginBatch (b : Backend) : Option State :=
  match (s.copiers b).stage with
  | .clearing batch fence none =>
    if b ∈ s.taken then
      some ((s.begins b (.clear (startAfter (s.copiers b).start).1 batch fence)).setStage b
        (.clearing batch fence (some s.txs.length)))
    else none
  | _ => none

/-- The clear hears that its batch committed: it returns once a batch removed fewer rows than it
might have. -/
def hear (b : Backend) : Option State :=
  match (s.copiers b).stage with
  | .clearing batch _ (some id) =>
    match s.txs[id]? with
    | some tx =>
      if tx.phase = .committed then
        if tx.pending.length < batch then some (s.clearReturns b)
        else some (s.setStage b (.clearing batch false none))
      else none
    | none => none
  | _ => none

/-- The clear returns an error; its transaction may still commit. -/
def lose (b : Backend) : Option State :=
  match (s.copiers b).stage with
  | .clearing _ _ _ => some (s.setStage b .failed)
  | _ => none

/-- A worker begins a chunk's transaction, once the clear has returned. -/
def beginChunk (b : Backend) (chunk : Chunk) : Option State :=
  if b ∈ s.taken ∧ ((s.copiers b).stage = .cleared ∨ (s.copiers b).stage = .copying) ∧
      (startAfter (s.copiers b).start).2 = false ∧
      (startAfter (s.copiers b).start).1 ≤ chunk.lower then
    some ((s.begins b (.chunk chunk)).setStage b .copying)
  else none

/-- The capture begins a flush. It writes only keys the copy has landed: those the watermark
reaches, until the first chunk. -/
def beginFlush (b : Backend) (writes : List RowWrite) : Option State :=
  if b ∈ s.taken ∧ ((s.copiers b).stage = .copying ∨
      (writes.all fun write => (s.copiers b).start.reaches write.key) = true) then
    some (s.begins b (.flush writes))
  else none

/-- The run begins its swap, once its copy has landed every key. -/
def beginSwap (b : Backend) (writes : List RowWrite) : Option State :=
  if b ∈ s.taken ∧ ((s.copiers b).stage = .copying ∨ (s.copiers b).start.complete = true) then
    some (s.begins b (.swap writes))
  else none

/-- The run's verification pass returns. -/
def verified (b : Backend) : Option State :=
  if b ∈ s.taken then some { s with marks := s.marks ++ [.verified b] } else none

/-- The transaction asks for the lock it is to take next. -/
def ask (id : ℕ) : Option State :=
  match s.txs[id]? with
  | some tx =>
    match tx.phase, tx.asked, tx.rest with
    | .running, none, .lock _ _ :: _ =>
      some { s.setTx id { tx with asked := some s.clock } with clock := s.clock + 1 }
    | _, _, _ => none
  | none => none

/-- The transaction goes on to its next statement. -/
def next (id : ℕ) (found : List (Key × Row)) : Option State :=
  match s.txs[id]? with
  | some tx =>
    match tx.phase, tx.rest with
    | .running, statement :: rest => s.execute id tx rest found statement
    | _, _ => none
  | none => none

/-- The transaction is rolled back: a statement failed, or its session ended. -/
def abort (id : ℕ) : Option State :=
  match s.txs[id]? with
  | some tx => if tx.phase = .running then some (s.setTx id tx.refused) else none
  | none => none

end State

/-- The state after an event; none where the event cannot happen. -/
def step (s : State) : Event → Option State
  | .acquire b start => s.acquire b start
  | .release b => s.release b
  | .clearAbove b batch => s.clearAbove b batch
  | .beginBatch b => s.beginBatch b
  | .hear b => s.hear b
  | .lose b => s.lose b
  | .beginChunk b chunk => s.beginChunk b chunk
  | .beginFlush b writes => s.beginFlush b writes
  | .beginSwap b writes => s.beginSwap b writes
  | .verified b => s.verified b
  | .ask id => s.ask id
  | .next id found => s.next id found
  | .abort id => s.abort id

end PgSprite.Handover
