/-
**What an error says about the transaction it ended.**

The errors of the package are trees: what the driver reports of a connection or what the server
answered, wrapped in texts, refusals and the package's own sentinels. `outcomeUnknown` reads from
the tree alone whether an attempt ended without an answer.

* `outcomeUnknown_wrap` — a text around an error changes nothing about it;
* `Lost.outcomeUnknown` — every way a connection or a context ends is read as such.
-/

import PgSprite.Lib.ErrorTree

namespace PgSprite.SchemaChange

open PgSprite.Lib

/-- What the driver reports, one value of an error's tree. -/
inductive Driver where
  /-- A message around other errors, or an error nothing asks about. -/
  | text (text : String)
  | pg (code : String)
  | net
  | eof
  | unexpectedEOF
  /-- An error that says whether anything had been sent. -/
  | safeToRetry (nothingSent : Bool)
  | canceled
  | deadlineExceeded
  deriving DecidableEq, Repr

abbrev DriverError := ErrorTree Driver

/-- Why an operation refused to proceed. -/
inductive RefusalCause where
  | lockUnproven
  | lockLost
  | lockHeldElsewhere
  | lockUnconfirmed
  | proofEmpty
  | cutoverUnverified
  | cutoverUndrained
  | cutoverUnfenced
  | relationReplaced
  | swapMismatch
  | outcomeAmbiguous
  | resumeTerminal
  | resumeCutover
  | restartSwapCommitted
  | resumeRowMismatch
  | resumeRowDecoding
  | shadowUnrecorded
  | resumeShadowGone
  | resumeSlotForeign
  | resumeSlotHeld
  | statementTarget
  | copyConversionDrift
  | copyFrontierBroken
  -- The causes of shape and schema checks, which answer a call as a whole.
  | sourceShape
  | statementConversion
  | shadowOwner
  | foreignRelation
  | grantsDiffer
  | identityHandoff
  | statementReadd
  | statementNewColumn
  | statementNewSequence
  | drainDeferred
  | schemaDrift
  | fidelityDrift
  | indexInvalid
  | nameTaken
  | copyShadowMismatch
  | copyChunksInFlight
  | copyChunkUnknown
  deriving DecidableEq, Repr

/-- The cause's stable name. -/
def RefusalCause.string : RefusalCause → String
  | lockUnproven => "shadow-lock-unproven"
  | lockLost => "shadow-lock-lost"
  | lockHeldElsewhere => "shadow-lock-held-elsewhere"
  | lockUnconfirmed => "shadow-lock-unconfirmed"
  | proofEmpty => "shadow-proof-empty"
  | cutoverUnverified => "cutover-unverified"
  | cutoverUndrained => "cutover-undrained"
  | cutoverUnfenced => "cutover-unfenced"
  | relationReplaced => "cutover-relation-replaced"
  | swapMismatch => "cutover-swap-mismatch"
  | outcomeAmbiguous => "cutover-outcome-ambiguous"
  | resumeTerminal => "resume-row-terminal"
  | resumeCutover => "resume-row-cutover"
  | restartSwapCommitted => "restart-swap-committed"
  | resumeRowMismatch => "resume-row-mismatch"
  | resumeRowDecoding => "resume-row-decoding"
  | shadowUnrecorded => "shadow-unrecorded"
  | resumeShadowGone => "resume-shadow-gone"
  | resumeSlotForeign => "resume-slot-foreign"
  | resumeSlotHeld => "resume-slot-held"
  | statementTarget => "shadow-statement-target"
  | copyConversionDrift => "copy-conversion-drift"
  | copyFrontierBroken => "copy-frontier-broken"
  | sourceShape => "shadow-source-shape"
  | statementConversion => "shadow-statement-conversion"
  | shadowOwner => "shadow-owner-mismatch"
  | foreignRelation => "shadow-foreign-relation"
  | grantsDiffer => "shadow-grants-differ"
  | identityHandoff => "shadow-identity-handoff"
  | statementReadd => "shadow-statement-readd"
  | statementNewColumn => "shadow-statement-new-column"
  | statementNewSequence => "shadow-statement-new-sequence"
  | drainDeferred => "cutover-drain-deferred"
  | schemaDrift => "cutover-schema-drift"
  | fidelityDrift => "cutover-fidelity-drift"
  | indexInvalid => "cutover-index-invalid"
  | nameTaken => "cutover-name-taken"
  | copyShadowMismatch => "copy-shadow-mismatch"
  | copyChunksInFlight => "copy-chunks-in-flight"
  | copyChunkUnknown => "copy-chunk-unknown"

/-- One value of an error of the package. -/
inductive Cause where
  | driver (d : Driver)
  | refusal (cause : RefusalCause)
  | invariantViolation
  | invalidOptions
  | cutoverRolledBack
  | lockRetriesExhausted
  | notSwapped
  | oldTableNotFound
  | shadowExists
  | shadowNotFound
  /-- The run was discarded on a data fault. -/
  | abandoned
  deriving DecidableEq, Repr

abbrev Error := ErrorTree Cause

/-- A driver's error as one of the package. -/
def ofDriver (e : DriverError) : Error := e.map .driver

/-- A message around an error. -/
def wrap (text : String) (e : Error) : Error := .node (.driver (.text text)) [e]

/-- Several errors as one. -/
def join (es : List Error) : Error := .node (.driver (.text "")) es

/-- A refusal with what it wraps. -/
def refuse (cause : RefusalCause) (wrapped : List Error) : Error :=
  .node (.refusal cause) (.leaf .invariantViolation :: wrapped)

/-- The cause of the first refusal in an error. -/
def refusalCauseOf (e : Error) : Option RefusalCause :=
  e.as fun
    | .refusal cause => some cause
    | _ => none

/-- Whether a sentinel is in an error. -/
def isError (sentinel : Cause) (e : Error) : Bool := e.is (· = sentinel)

/-- The SQLSTATE of an answer of the server. -/
def pgCode : Cause → Option String
  | .driver (.pg code) => some code
  | _ => none

/-- An error of the network; a deadline that passed is one too. -/
def isNet : Cause → Bool
  | .driver .net | .driver .deadlineExceeded => true
  | _ => false

/-- What the first error that says so says about having sent nothing. -/
def sentNothing : Cause → Option Bool
  | .driver (.safeToRetry nothingSent) => some nothingSent
  | _ => none

/-- The caller's context was cancelled or timed out. -/
def contextEnded (e : Error) : Bool :=
  isError (.driver .canceled) e || isError (.driver .deadlineExceeded) e

/-- The connection ended without an answer. -/
def connectionLost (e : Error) : Bool :=
  match e.as pgCode with
  | some code => code = "57P01" || code = "57P02" || code.startsWith "08"
  | none =>
    e.is isNet || isError (.driver .eof) e || isError (.driver .unexpectedEOF) e ||
      (e.as sentNothing).getD false

/-- An attempt that ended so ended without an answer from the server. -/
def outcomeUnknown (e : Error) : Bool := connectionLost e || contextEnded e

/-- An attempt that ended so lost the wait for its lock. -/
def lockRetryable (e : Error) : Bool :=
  match e.as pgCode with
  | some code => code = "55P03" || code = "40P01"
  | none => false

/-- The server rejected the rows as the statement would shape them. -/
def isDataFault (e : Error) : Bool :=
  match e.as pgCode with
  | some code => code.startsWith "22" || code.startsWith "23"
  | none => false

/-- A sentinel of the package, as opposed to a driver's value or a refusal. -/
def IsSentinel (sentinel : Cause) : Prop :=
  (∀ value, sentinel ≠ .driver value) ∧ (∀ cause, sentinel ≠ .refusal cause) ∧
    sentinel ≠ .invariantViolation

section Wrapped

variable {text : String} {e : Error} {d : DriverError}

@[simp] theorem isError_wrap {sentinel : Cause} (named : sentinel ≠ .driver (.text text)) :
    isError sentinel (wrap text e) = isError sentinel e :=
  ErrorTree.is_wrap (by simpa using named.symm)

@[simp] theorem isError_ofDriver_driver {value : Driver} :
    isError (.driver value) (ofDriver d) = d.is (· = value) := by
  rw [isError, ofDriver, ErrorTree.is_map]
  simp

theorem isError_ofDriver {sentinel : Cause} (own : IsSentinel sentinel) :
    isError sentinel (ofDriver d) = false := by
  rw [isError, ofDriver, ErrorTree.is_map, ErrorTree.is, List.any_eq_false]
  intro value _
  simpa using (own.1 value).symm

theorem connectionLost_wrap : connectionLost (wrap text e) = connectionLost e := by
  unfold connectionLost wrap isError
  rw [ErrorTree.as_wrap rfl, ErrorTree.is_wrap rfl, ErrorTree.is_wrap rfl, ErrorTree.is_wrap rfl,
    ErrorTree.as_wrap rfl]

theorem contextEnded_wrap : contextEnded (wrap text e) = contextEnded e := by
  unfold contextEnded
  rw [isError_wrap (by simp), isError_wrap (by simp)]

/-- A text around an error changes nothing about what it says. -/
@[simp] theorem outcomeUnknown_wrap : outcomeUnknown (wrap text e) = outcomeUnknown e := by
  rw [outcomeUnknown, outcomeUnknown, connectionLost_wrap, contextEnded_wrap]

@[simp] theorem lockRetryable_wrap : lockRetryable (wrap text e) = lockRetryable e := by
  unfold lockRetryable wrap
  rw [ErrorTree.as_wrap rfl]

/-- A refusal is an error of what it wraps. -/
theorem isError_refuse {sentinel : Cause} {cause : RefusalCause} {wrapped : List Error}
    (own : IsSentinel sentinel) :
    isError sentinel (refuse cause wrapped) = wrapped.any (isError sentinel) := by
  have here : decide (Cause.refusal cause = sentinel) = false := by simpa using (own.2.1 cause).symm
  have there : decide (Cause.invariantViolation = sentinel) = false := by simpa using own.2.2.symm
  rw [isError, refuse, ErrorTree.is, ErrorTree.values_node, ErrorTree.valuesAll_cons,
    ErrorTree.values_leaf, List.any_cons, List.any_append, here, List.any_cons, there]
  simp only [List.any_nil, Bool.or_false, Bool.false_or]
  induction wrapped with
  | nil => simp
  | cons e rest ih =>
    rw [ErrorTree.valuesAll_cons, List.any_append, List.any_cons, ih]
    rfl

theorem isError_join {sentinel : Cause} {es : List Error} (own : IsSentinel sentinel) :
    isError sentinel (join es) = es.any (isError sentinel) := by
  have here : decide (Cause.driver (.text "") = sentinel) = false := by simpa using (own.1 _).symm
  rw [isError, join, ErrorTree.is, ErrorTree.values_node, List.any_cons, here, Bool.false_or]
  induction es with
  | nil => simp
  | cons e rest ih =>
    rw [ErrorTree.valuesAll_cons, List.any_append, List.any_cons, ih]
    rfl

end Wrapped

/-- How a connection or the context of the statement in flight on it ended. -/
inductive Lost where
  | adminShutdown
  | crashShutdown
  /-- A connection exception, by the rest of its SQLSTATE. -/
  | connectionException (rest : String)
  | socket
  | eof
  | unexpectedEOF
  | closed
  | canceled
  | deadlineExceeded
  deriving DecidableEq, Repr

namespace Lost

/-- The value the driver reports it with. -/
def value : Lost → Driver
  | adminShutdown => .pg "57P01"
  | crashShutdown => .pg "57P02"
  | connectionException rest => .pg ("08" ++ rest)
  | socket => .net
  | eof => .eof
  | unexpectedEOF => .unexpectedEOF
  | closed => .safeToRetry true
  | canceled => .canceled
  | deadlineExceeded => .deadlineExceeded

/-- The error the driver reports, under any number of its own messages. -/
def error (l : Lost) (messages : List String) : Error :=
  messages.foldr wrap (.leaf (.driver l.value))

theorem outcomeUnknown_leaf (l : Lost) :
    SchemaChange.outcomeUnknown (.leaf (.driver l.value)) = true := by
  cases l with
  | connectionException rest =>
    simp [outcomeUnknown, connectionLost, value, ErrorTree.as, pgCode,
      String.startsWith_string_iff]
  | _ => decide

/-- **Every way a connection or a context ends is read as an unknown outcome.** -/
theorem outcomeUnknown_error (l : Lost) (messages : List String) :
    SchemaChange.outcomeUnknown (l.error messages) = true := by
  unfold error
  induction messages with
  | nil => exact l.outcomeUnknown_leaf
  | cons message rest ih => rwa [List.foldr_cons, outcomeUnknown_wrap]

end Lost

end PgSprite.SchemaChange
