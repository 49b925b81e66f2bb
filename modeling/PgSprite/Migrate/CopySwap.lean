/-
**The copy-and-swap route's verdicts.**

The route runs the statement through the runner and folds what it returns into one verdict: executed
where the run's row is done, refused where a refusal is anywhere in its error, and failed otherwise.
Before its run it is stopped by its options, its connections or its preflight (`copySwapStops`);
every refusal of the runner is classified (`shadowRefusal_isSome`).
-/

import PgSprite.Migrate.Create
import PgSprite.SchemaChange.Outcome
import PgSprite.Statement.Parse

namespace PgSprite.Migrate

open PgSprite.Lib PgSprite.SchemaChange
open PgSprite.Statement (Statement Node)
open PgSprite.Verdict (Refusal)

/-- What a copy-and-swap run holds on its source while it is stopped short of done. -/
inductive SourceHold where
  | slot
  | fence
  /-- Nothing: the run stopped before its fence went on. -/
  | none
  deriving DecidableEq, Repr

/-- The runner discarded the stopped run. -/
def runAbandoned (e : Error) : Bool := isError .abandoned e

/-! ### Verdicts -/

/-- The verdict of one statement of the pipeline. -/
structure StatementVerdict where
  outcome : Outcome
  code : String := ""
  statement : Node
  table : String
  refusal : Option Refusal := none
  forced : Bool := false
  allowedDestructive : Bool := false
  executedSQL : List Node := []
  failedStep : Nat := 0
  failedStepSQL : Option Node := none
  /-- The table took no writes for the length of the run. -/
  writesBlocked : Bool := false
  abandoned : Bool := false

/-- An error of the front door: of a stage of its own by the text, of an execution, or of a run. -/
inductive RunError where
  | stage (text : String)
  | executor (e : Executor.Error)
  | runner (e : SchemaChange.Error)

/-- What a statement comes to: a verdict, unless the pipeline stopped before one, and an error. -/
structure Ran where
  verdict : Option StatementVerdict := none
  error : Option RunError := none

/-- The statement's table with its schema. -/
def qualified (st : Statement) : String :=
  if st.table = "" then ""
  else if st.schema = "" then st.table
  else st.schema ++ "." ++ st.table

/-- The refused verdict of a statement. -/
def refusedVerdict (st : Statement) (r : Refusal) : StatementVerdict :=
  { outcome := .refused, statement := st.sql, table := qualified st, refusal := some r }

/-! ### Refusals of the route -/

/-- Why the route's preflight refuses a table or its surroundings. -/
inductive CopySwapRefusalCause where
  | pkUnsupported
  | replicaIdentity
  | foreignKeys
  | triggers
  | partitioned
  | unlogged
  | forceRLS
  | dependentViews
  | publicationMember
  | subscriptionTarget
  | dependents
  | logicalDecodingUnavailable
  | slotCollision
  | slotHeadroom
  | diskHeadroom
  deriving DecidableEq, Repr

namespace CopySwapRefusalCause

def string : CopySwapRefusalCause → String
  | pkUnsupported => "copy-and-swap-pk-unsupported"
  | replicaIdentity => "copy-and-swap-replica-identity"
  | foreignKeys => "copy-and-swap-foreign-keys"
  | triggers => "copy-and-swap-triggers"
  | partitioned => "copy-and-swap-partitioned"
  | unlogged => "copy-and-swap-unlogged"
  | forceRLS => "copy-and-swap-force-rls"
  | dependentViews => "copy-and-swap-dependent-views"
  | publicationMember => "copy-and-swap-publication-member"
  | subscriptionTarget => "copy-and-swap-subscription-target"
  | dependents => "copy-and-swap-dependents"
  | logicalDecodingUnavailable => "copy-and-swap-logical-decoding-unavailable"
  | slotCollision => "copy-and-swap-slot-collision"
  | slotHeadroom => "copy-and-swap-slot-headroom"
  | diskHeadroom => "copy-and-swap-disk-headroom"

def refusalClass : CopySwapRefusalCause → PgSprite.Verdict.Class
  | replicaIdentity | logicalDecodingUnavailable | slotCollision | slotHeadroom | diskHeadroom =>
    .environmental
  | pkUnsupported | foreignKeys | triggers | partitioned | unlogged | forceRLS | dependentViews
  | publicationMember | subscriptionTarget | dependents => .capabilityBoundary

end CopySwapRefusalCause

/-- The routing class of a refusal of the runner. -/
def shadowClass : RefusalCause → PgSprite.Verdict.Class
  | .lockLost | .lockHeldElsewhere | .lockUnconfirmed | .sourceShape | .shadowOwner
  | .foreignRelation | .identityHandoff | .drainDeferred | .relationReplaced | .schemaDrift
  | .fidelityDrift | .indexInvalid | .nameTaken | .outcomeAmbiguous | .cutoverUnfenced
  | .shadowUnrecorded | .resumeShadowGone | .resumeSlotForeign | .resumeSlotHeld
  | .restartSwapCommitted | .copyConversionDrift => .environmental
  | .statementConversion | .statementReadd | .statementNewColumn | .statementNewSequence =>
    .capabilityBoundary
  | .lockUnproven | .proofEmpty | .statementTarget | .grantsDiffer | .cutoverUnverified
  | .cutoverUndrained | .swapMismatch | .resumeTerminal | .resumeCutover | .resumeRowMismatch
  | .resumeRowDecoding | .copyShadowMismatch | .copyFrontierBroken | .copyChunksInFlight
  | .copyChunkUnknown => .invariantViolation

/-- The route's refusal of a class, where the core names the class. -/
def refusalOfClass : PgSprite.Verdict.Class → Option Refusal
  | .capabilityBoundary => some (.capabilityBoundary .copyAndSwapRefused)
  | .byDesign => some (.byDesign .copyAndSwapRefused)
  | .environmental => some (.environmental .copyAndSwapRefused)
  | .invariantViolation => some (.invariantViolation .copyAndSwapRefused)
  | .noOnlineSafetyProblem => none

/-- A refusal of the runner as one of the front door. -/
def shadowRefusal (cause : RefusalCause) : Option Refusal :=
  (refusalOfClass (shadowClass cause)).map (·.withCause (.copyAndSwap cause.string))

/-- A refusal of the route's preflight as one of the front door. -/
def copySwapPreflightRefusal (cause : CopySwapRefusalCause) : Option Refusal :=
  (refusalOfClass cause.refusalClass).map (·.withCause (.copyAndSwap cause.string))

/-- **Every refusal of the runner is classified.** -/
theorem shadowRefusal_isSome (cause : RefusalCause) : (shadowRefusal cause).isSome = true := by
  cases cause <;> rfl

def copySwapNotEnabledRefusal : Refusal :=
  (Refusal.capabilityBoundary .copyAndSwapRefused).withCause .copyAndSwapNotEnabled

def insufficientPrivilegesRefusal : Refusal := .environmental .insufficientPrivileges

/-! ### The route -/

/-- The policy of the route: it is closed unless enabled. The acknowledgements name a table, and are
empty where they are not given. -/
structure CopySwapOptions where
  enabled : Bool := false
  connection : String := ""
  blockWrites : String := ""
  restart : String := ""

/-- How the preflight of the route stops: for want of a privilege, on the table or its surroundings,
or short of an answer. -/
inductive PreflightStop where
  | privilege
  | refused (cause : CopySwapRefusalCause)
  | failed (text : String)

/-- What the stages before the run answer. -/
structure RouteAnswers where
  store : Option String := none
  newRunner : Option String := none
  connection : Option String := none
  pool : Option String := none
  preflight : Option PreflightStop := none

/-- The refusal a stop of the preflight stands for, or its error. -/
def classifyCopySwapPreflight : PreflightStop → Except RunError Refusal
  | .privilege => .ok insufficientPrivilegesRefusal
  | .failed text => .error (.stage text)
  | .refused cause =>
    match copySwapPreflightRefusal cause with
    | some r => .ok r
    | none => .error (.stage "copy-and-swap preflight refusal carries unclassified cause")

def copySwapPreflightVerdict (st : Statement) (stop : PreflightStop) : Ran :=
  match classifyCopySwapPreflight stop with
  | .ok r => { verdict := some (refusedVerdict st r) }
  | .error e => { error := some e }

/-- The failed verdict of a pool too small for the route. -/
def copySwapPoolVerdict (st : Statement) : StatementVerdict :=
  { outcome := .failed, code := "pool-too-small", statement := st.sql, table := qualified st }

/-- What the route comes to before its run, where it does not get as far. -/
def copySwapStops (o : CopySwapOptions) (st : Statement) (a : RouteAnswers) : Option Ran :=
  if !o.enabled then some { verdict := some (refusedVerdict st copySwapNotEnabledRefusal) }
  else if o.connection = "" then
    some { error := some (.stage
      "Options.CopySwap.Connection must name the database the pool was dialed with") }
  else match a.store, a.newRunner, a.connection, a.pool, a.preflight with
    | some text, _, _, _, _ => some { error := some (.stage text) }
    | none, some text, _, _, _ =>
      some { error := some (.stage ("migrate: copy-and-swap options: " ++ text)) }
    | none, none, some text, _, _ => some { error := some (.stage ("migrate: " ++ text)) }
    | none, none, none, some text, _ =>
      some { verdict := some (copySwapPoolVerdict st)
             error := some (.stage ("migrate: " ++ text)) }
    | none, none, none, none, some stop => some (copySwapPreflightVerdict st stop)
    | none, none, none, none, none => none

/-- The code of an error of the runner. -/
def copySwapFailureCode (e : SchemaChange.Error) : String :=
  if contextEnded e then "cancelled-by-caller"
  else if isError .invariantViolation e then "invariant-violation"
  else if isDataFault e then "data-fault"
  else "execution-failed"

/-- A stopped run: refused where its error holds a refusal, and failed otherwise. -/
def copySwapRunVerdict (st : Statement) (hold : SourceHold) (e : SchemaChange.Error) : Ran :=
  match refusalCauseOf e with
  | some cause =>
    match shadowRefusal cause with
    | some r => { verdict := some (refusedVerdict st r) }
    | none => { error := some (.stage "shadow refusal carries unclassified cause") }
  | none =>
    { verdict := some
        { outcome := .failed, code := copySwapFailureCode e, statement := st.sql
          table := qualified st, writesBlocked := hold = .fence, abandoned := runAbandoned e }
      error := some (.runner e) }

/-- What the runner returned: a run whose row is done is executed, whatever error rides along. -/
def copySwapOutcome (st : Statement) (hold : SourceHold) (done : Bool)
    (err : Option SchemaChange.Error) : Ran :=
  match err, done with
  | some e, false => copySwapRunVerdict st hold e
  | _, _ =>
    { verdict := some
        { outcome := .executedViaCopyAndSwap, statement := st.sql, table := qualified st
          writesBlocked := hold = .fence } }

end PgSprite.Migrate
