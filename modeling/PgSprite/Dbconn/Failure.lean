/-
**What a statement or a COMMIT comes to when it is not answered as asked.**

A failure carries the server's SQLSTATE where it was the server that answered. A COMMIT the server
refuses is rolled back; one that is not answered may have landed all the same.
-/

namespace PgSprite.Dbconn

/-- What a server or a connection answered instead of a result, with its SQLSTATE where it was the
server that answered; a connection's failure may be known to have sent nothing. -/
structure Failure where
  text : String
  sqlstate : Option String := none
  safeToRetry : Bool := false
  deriving DecidableEq, Repr

/-- A failure that is transient: a lock wait that timed out, a deadlock or serialization failure, or
a connection-level error. -/
def Failure.retryable (f : Failure) : Bool :=
  match f.sqlstate with
  | some code => ["55P03", "40P01", "40001"].contains code || code.startsWith "08"
  | none => f.safeToRetry

/-- What a COMMIT comes to. -/
inductive CommitAnswer where
  | committed
  | refused (cause : Failure)
  | unanswered (landed : Bool) (text : String)
  deriving DecidableEq, Repr

namespace CommitAnswer

/-- Whether the transaction's writes stand. -/
def lands : CommitAnswer → Bool
  | committed => true
  | refused _ => false
  | unanswered landed _ => landed

/-- What the caller is told; a caller told nothing is told that the COMMIT was done. -/
def failure : CommitAnswer → Option Failure
  | committed => none
  | refused cause => some cause
  | unanswered _ text => some { text }

theorem lands_of_failure {answer : CommitAnswer} (reported : answer.failure = none) :
    answer.lands = true := by
  cases answer with
  | committed => rfl
  | refused cause => cases reported
  | unanswered landed text => cases reported

end CommitAnswer

end PgSprite.Dbconn
