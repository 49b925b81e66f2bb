/-
**A transaction with savepoints.**

What a transaction's statements write is seen by its later statements and by nobody else until it
commits. A statement the server refuses aborts the transaction: every further statement fails until
a rollback to a savepoint restores what the statements saw when the savepoint was made.

* `each_eq_ok`, `each_eq_error` — statements in a row do what the loop over the rows does, and one
  that fails leaves what is committed and the savepoints alone;
* `savepoint_rollbackTo` — so a rollback to the savepoint made before them is the transaction as it
  was.
-/

import PgSprite.Lib.Except

namespace PgSprite.Lib

/-- A transaction over a store. -/
@[ext]
structure Tx (σ : Type) where
  /-- What everyone else sees. -/
  committed : σ
  /-- What the transaction's own statements see. -/
  working : σ
  /-- What they saw at each open savepoint, the last one first. -/
  saved : List σ := []
  aborted : Bool := false

/-- Why a step of a transaction failed. -/
inductive TxError (ε : Type) where
  | statement (err : ε)
  | inFailedTransaction
  deriving DecidableEq, Repr

namespace Tx

variable {σ ε α : Type}

/-- A transaction that has just begun. -/
def started (store : σ) : Tx σ := { committed := store, working := store }

/-- Reads what the transaction sees. -/
def query (tx : Tx σ) (read : σ → Except ε α) : Except (TxError ε) α :=
  if tx.aborted then .error .inFailedTransaction else (read tx.working).mapError .statement

/-- Runs a statement. An error for which `aborts` holds is the server's, and aborts the transaction;
any other one was raised before the statement was sent. -/
def statement (aborts : ε → Bool) (tx : Tx σ) (write : σ → Except ε σ) :
    Except (TxError ε) Unit × Tx σ :=
  if tx.aborted then (.error .inFailedTransaction, tx)
  else
    match write tx.working with
    | .ok working => (.ok (), { tx with working })
    | .error err => (.error (.statement err), { tx with aborted := aborts err })

/-- Runs one statement for each of a list's members, up to the first that fails. -/
def each (aborts : ε → Bool) (write : σ → α → Except ε σ) :
    List α → Tx σ → Except (TxError ε) Unit × Tx σ
  | [], tx => (.ok (), tx)
  | a :: todo, tx =>
    match tx.statement aborts fun working => write working a with
    | (.ok (), tx) => each aborts write todo tx
    | failed => failed

def savepoint (tx : Tx σ) : Tx σ := { tx with saved := tx.working :: tx.saved }

/-- Undoes what was done since the last savepoint, an abort included. -/
def rollbackTo (tx : Tx σ) : Tx σ :=
  match tx.saved with
  | [] => tx
  | working :: saved => { tx with working, saved, aborted := false }

/-- Gives the last savepoint up and keeps what was done since. -/
def release (tx : Tx σ) : Tx σ := { tx with saved := tx.saved.tail }

/-- The store after a commit; an aborted transaction is rolled back. -/
def commit (tx : Tx σ) : σ := if tx.aborted then tx.committed else tx.working

/-- The store after a rollback. -/
def rollback (tx : Tx σ) : σ := tx.committed

section Each

variable {aborts : ε → Bool} {write : σ → α → Except ε σ} {todo : List α} {tx : Tx σ} {final : σ}
  {err : ε}

theorem query_ok {read : σ → Except ε α} {a : α} (live : tx.aborted = false)
    (done : read tx.working = .ok a) : tx.query read = .ok a := by
  unfold query
  rw [live, if_neg Bool.false_ne_true, done]
  rfl

theorem query_error {read : σ → Except ε α} (live : tx.aborted = false)
    (failed : read tx.working = .error err) : tx.query read = .error (.statement err) := by
  unfold query
  rw [live, if_neg Bool.false_ne_true, failed]
  rfl

theorem statement_ok {run : σ → Except ε σ} (live : tx.aborted = false)
    (done : run tx.working = .ok final) :
    tx.statement aborts run = (.ok (), { tx with working := final }) := by
  unfold statement
  rw [live, if_neg Bool.false_ne_true, done]

theorem statement_error {run : σ → Except ε σ} (live : tx.aborted = false)
    (failed : run tx.working = .error err) :
    tx.statement aborts run = (.error (.statement err), { tx with aborted := aborts err }) := by
  unfold statement
  rw [live, if_neg Bool.false_ne_true, failed]

theorem each_eq_ok (aborts : ε → Bool) (tx : Tx σ) (live : tx.aborted = false)
    (ends : todo.foldlM write tx.working = .ok final) :
    each aborts write todo tx = (.ok (), { tx with working := final }) := by
  induction todo generalizing tx with
  | nil =>
    cases ends
    rfl
  | cons a todo ih =>
    obtain ⟨next, first, rest⟩ := foldlM_cons_ok.mp ends
    rw [each, statement_ok live first]
    exact ih _ live rest

/-- A statement that fails leaves the savepoints and what is committed as they were. -/
theorem each_eq_error (aborts : ε → Bool) (tx : Tx σ) (live : tx.aborted = false)
    (fails : todo.foldlM write tx.working = .error err) :
    ∃ after : Tx σ, each aborts write todo tx = (.error (.statement err), after) ∧
      after.committed = tx.committed ∧ after.saved = tx.saved := by
  induction todo generalizing tx with
  | nil => cases fails
  | cons a todo ih =>
    rcases foldlM_cons_error.mp fails with here | ⟨next, first, rest⟩
    · rw [each, statement_error live here]
      exact ⟨_, rfl, rfl, rfl⟩
    · rw [each, statement_ok live first]
      exact ih _ live rest

/-- **Rolling back to a savepoint restores the transaction it was made in**, whatever the statements
between did. -/
theorem savepoint_rollbackTo {after : Tx σ} (live : tx.aborted = false)
    (committed : after.committed = tx.savepoint.committed)
    (saved : after.saved = tx.savepoint.saved) : after.rollbackTo = tx := by
  unfold rollbackTo
  rw [saved]
  ext
  · exact committed
  · rfl
  · rfl
  · exact live.symm

end Each

end Tx

end PgSprite.Lib
