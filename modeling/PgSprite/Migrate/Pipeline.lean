/-
**The pipeline of one statement.**

A submitted statement is gated by its kind, resolved to a table, checked against the
acknowledgements that were given, classified and routed from fresh facts, and handed to one executor
at most: a native sequence, a forced attempt of the submitted form, the copy-and-swap route, the
accepted blocking path or an index rename. What each stage is answered is an input; what was handed
over is kept beside the verdict.

* `dispatch_hands` — what each disposition hands over; a refused statement is handed to nothing;
* `run_hands` — the four ways a run ends, one without a verdict having handed over nothing; and what
  a run hands over is the submitted statement or its routed form on the table it resolved, and a
  destructive one only under the acknowledgement of that table.
-/

import PgSprite.Lib.Except
import PgSprite.Migrate.Acknowledge
import PgSprite.Plan.Report

namespace PgSprite.Migrate

open PgSprite.Lib PgSprite.Executor PgSprite.Planner PgSprite.Verdict
open PgSprite.Plan (PartitionRefusalCause partitionRefusal rewriteRequiredGuidance routeRefusal
  destructiveChangeRefusal)
open PgSprite.Statement (Statement Node IndexRelation IndexRelationKind IndexTarget Kind parseOne
  parseOps qualify)

/-! ### Refusals of the front door -/

def rewriteRequiredRefusal : Refusal := .capabilityBoundary .rewriteRequired

def appBreakingRenameRefusal : Refusal := .byDesign .rewriteRequired

def backendUnavailableRefusal : Refusal := .capabilityBoundary .backendUnavailable

def tableTooLargeRefusal : Refusal := .environmental .tableTooLarge

def budgetExceededRefusal : Refusal := .environmental .budgetExceeded

/-- The refusal of a kind of statement the front door does not admit. -/
def gateRefusal (kind : Kind) (concurrent : Bool) (target : IndexTarget) : Option Refusal :=
  match kind with
  | .alterTable | .createIndex | .renameIndex => none
  | .dropIndex | .reindex =>
    if concurrent && (kind = .reindex || target = .singleRelation) then
      some (.noOnlineSafetyProblem .indexStatement .directOperator)
    else
      some ((Refusal.byDesign .indexStatement).withSite
        (if target = .singleRelation then .indexSingleRelation else .indexOther))
  | .createTable => some (.noOnlineSafetyProblem .unsupportedStatement .declarativeFrontDoor)
  | .dataChange => some (.noOnlineSafetyProblem .unsupportedStatement .dataChangeRunner)
  | .provisioning => some (.noOnlineSafetyProblem .unsupportedStatement .provisioning)
  | .catalogWork => some (.noOnlineSafetyProblem .unsupportedStatement .directOperator)
  | .other => some (.capabilityBoundary .unsupportedStatement)

/-- The statement-type gate. The verdict names no table. -/
def gate (st : Statement) : Option StatementVerdict :=
  (gateRefusal st.kind st.concurrent st.indexTarget).map fun r =>
    { outcome := .refused, statement := st.sql, table := "", refusal := some r }

/-- The refusal an acknowledgement applies to, where it does. -/
def acceptedRefusal (ack : String) (v : StatementVerdict) : Option Refusal :=
  if ack = "" then none else v.refusal.filter acceptedBlockingEligible

/-! ### Verdicts of an execution -/

/-- The step an error says failed. -/
def stepOf (e : Executor.Error) : Option (Nat × Nat) :=
  e.as fun
    | .sequenceStep step total _ => some (step, total)
    | _ => none

def admissionSentinels : List Sentinel :=
  [.unsupportedSequenceStep, .unnamedIndex, .ifNotExistsUnsupported]

/-- The refusal of a statement by its shape, before anything executes. -/
def admissionRefusal (e : Executor.Error) : Option Refusal :=
  if (stepOf e).isSome then none
  else if !admissionSentinels.any (Executor.isError · e) then none
  else if Executor.isError .ifNotExistsUnsupported e then some (.byDesign .unsupportedStatement)
  else some (.capabilityBoundary .unsupportedStatement)

/-- Whether the check of the replica identity under the table's lock stopped a drop before anything
committed. -/
def replicaIdentityRecheckRefused (e : Executor.Error) : Bool :=
  Executor.isError .replicaIdentityDrop e && (stepOf e).all (·.1 = 1)

/-- The refusal of an attempt that exceeded a budget. -/
def budgetRefusal (cause : BudgetCause) : Refusal :=
  budgetExceededRefusal.withCause (match cause with
    | .lock => .lockBudget
    | .statement => .statementBudget)

/-- The refusal an error of an execution stands for, if it is one. An invalid index is none. -/
def execRefusal (e : Executor.Error) (substituted : Bool) : Option Refusal :=
  match admissionRefusal e with
  | some r => some r
  | none =>
    if replicaIdentityRecheckRefused e then some (.capabilityBoundary .unsupportedStatement)
    else if (invalidIndexOf e).isSome then none
    else if substituted then none
    else (budgetOf e).map budgetRefusal

/-- The failed verdict of an execution, with the steps that committed before it. -/
def failureVerdict (st : Statement) (e : Executor.Error) (committed : List Node) (forced : Bool) :
    StatementVerdict :=
  match stepOf e with
  | none =>
    { outcome := .failed, code := outcomeCode e, statement := st.sql, table := qualified st
      forced }
  | some (step, _) =>
    { outcome := .failed, code := outcomeCode e, statement := st.sql, table := qualified st
      forced, failedStep := step, executedSQL := committed }

/-- Whether every operation of a plan already is an online idiom. -/
def onlineIdiomPlan (p : Plan) : Bool := p.decisions.all (·.reason = .onlineIdiom)

/-- The size guard protects the blind attempt of a submitted form. -/
def sizeGuardApplies (p : Plan) (substituted : Bool) : Bool := !substituted && !onlineIdiomPlan p

/-- Why a statement that needs a rewrite may not run as written. -/
def rewriteRequiredCause (rs : RoutedStatement) : Refusal :=
  match rs.decisions.find? fun d => !d.executableAsSubmitted with
  | some d =>
    if d.reason = .appBreakingRename then appBreakingRenameRefusal else rewriteRequiredRefusal
  | none => rewriteRequiredRefusal

/-! ### What is handed over -/

/-- An executor a statement is handed to. -/
inductive Path where
  | native
  | forced
  | copyAndSwap
  | acceptedBlocking
  | indexRename
  deriving DecidableEq, Repr

/-- What a run handed to an executor: the statement and the table it resolved to, and the SQL. -/
structure Began where
  path : Path
  statement : Node
  table : String
  sql : List Node
  deriving DecidableEq, Repr

/-- What a statement comes to, and what was handed over for it. -/
structure Driven where
  ran : Ran
  began : Option Began := none

/-- A stop before a verdict. -/
def stopped (text : String) : Driven := { ran := { error := some (.stage text) } }

/-- A verdict without an error, and with nothing handed over. -/
def concluded (v : StatementVerdict) : Driven := { ran := { verdict := some v } }

/-- What the live table is found to be. -/
structure LiveFacts where
  schema : String
  table : String
  classifier : Facts := {}

/-- What the check of a table's size answers. -/
inductive SizeAnswer where
  | measured (totalBytes : Int)
  | failed (text : String)

/-- What the check of the role's rights answers. -/
inductive RightsAnswer where
  | granted
  | missing
  | failed (text : String)

/-- What an execution answers: the steps that committed, and its error. -/
structure SequenceAnswer where
  committed : List Node := []
  error : Option Executor.Error := none

/-- What the copy-and-swap route's runner comes to. -/
structure RunnerAnswer where
  hold : SourceHold := .slot
  done : Bool := true
  error : Option SchemaChange.Error := none

/-- What the stages of the pipeline are answered. -/
structure PipelineAnswers where
  /-- What is wrong with comments in an unqualified statement. -/
  comments : Option String := none
  /-- The schema an unqualified table resolves to, if any. -/
  schema : Except String (Option String) := .ok none
  facts : Except String LiveFacts
  size : SizeAnswer := .measured 0
  /-- The error of reading the server's version. -/
  serverMajor : Option String := none
  /-- Why steps are not run on the table as a partitioned parent. -/
  partitioned : List Node → Except String (Option PartitionRefusalCause) := fun _ => .ok none
  /-- The error of deriving the rights steps need. -/
  tier : List Node → Option String := fun _ => none
  rights : RightsAnswer := .granted
  sequence : SequenceAnswer := {}
  route : RouteAnswers := {}
  runner : RunnerAnswer := {}
  /-- The kind of the relation an index statement names, and the table it locks. -/
  relation : Except String (Option (String × AcceptedTable)) := .ok none
  /-- The error of reading the usage of an index to drop. -/
  usage : Option String := none
  accepted : Option Executor.Error := none

/-! ### The accepted blocking path -/

/-- A name as the server reads it back, quoted. -/
def sanitize (parts : List String) : String :=
  ".".intercalate (parts.map fun part => "\"" ++ part.replace "\"" "\"\"" ++ "\"")

def regclassName (rel : IndexRelation) : String :=
  if rel.schema = "" then sanitize [rel.name] else sanitize [rel.schema, rel.name]

def relationKindMatches (kind : IndexRelationKind) (relkind : String) : Bool :=
  match kind with
  | .index => relkind = "i" || relkind = "I"
  | .table => relkind = "r" || relkind = "p" || relkind = "m"

def describeRelkind (relkind : String) : String :=
  match relkind with
  | "r" => "a table"
  | "p" => "a partitioned table"
  | "i" => "an index"
  | "I" => "a partitioned index"
  | "m" => "a materialized view"
  | "v" => "a view"
  | "S" => "a sequence"
  | "f" => "a foreign table"
  | "c" => "a composite type"
  | "t" => "a TOAST table"
  | other => "a relation of kind " ++ other.quote

def describeIndexRelationKind : IndexRelationKind → String
  | .index => "an index"
  | .table => "a table"

/-- The table an accepted statement locks. -/
def lockedTable (rel : Option IndexRelation)
    (answer : Except String (Option (String × AcceptedTable))) :
    Except String AcceptedTable :=
  match rel with
  | none => .error "invariant violation: accepted statement names no single relation"
  | some rel =>
    let name := regclassName rel
    match answer with
    | .error e => .error ("resolve the table " ++ name ++ " locks: " ++ e)
    | .ok none =>
      .error ("the accepted statement names a relation that does not exist: " ++ name ++
        " is not visible on the session search_path; nothing was executed")
    | .ok (some (relkind, table)) =>
      if relationKindMatches rel.kind relkind then .ok table
      else
        .error ("the accepted statement names a relation of the wrong kind: " ++ name ++ " is " ++
          describeRelkind relkind ++ ", and the statement needs " ++
          describeIndexRelationKind rel.kind ++ "; nothing was executed")

/-- A destructive acknowledgement names the table, where one is given. -/
def checkGiven (ack : String) (check : String → Except String Unit) : Except String Unit :=
  if ack = "" then .ok () else check ack

/-- The checks before an accepted statement runs, and the table it locks. -/
def admitBlocking (st : Statement) (opts : Options) (a : PipelineAnswers) :
    Except String AcceptedTable := do
  let locked ← lockedTable st.indexRelation a.relation
  checkAcceptBlockingAck st locked opts.acceptBlocking
  checkGiven opts.allowDestructive (checkAllowDestructiveAck locked.qualified)
  return locked

/-- A verdict under the table an index statement resolved to. -/
def onTable (table : String) (v : StatementVerdict) : StatementVerdict := { v with table }

/-- What an accepted statement that failed comes to. -/
def acceptedFailure (st : Statement) (table : String) (e : Executor.Error) : Ran :=
  if Executor.isError .unsupportedAcceptedBlocking e then
    { verdict := some (onTable table
        (refusedVerdict st (.capabilityBoundary .unsupportedStatement))) }
  else if budgetOf e = some .lock then
    { verdict := some (onTable table (refusedVerdict st (budgetRefusal .lock))) }
  else
    { verdict := some (onTable table (failureVerdict st e [] false)), error := some (.executor e) }

/-- What an accepted statement comes to. A budget is refused before a session is taken, and a commit
carries the refusal the operator accepted. -/
def acceptedOutcome (st : Statement) (proof : Refusal) (table : String) :
    Option Executor.Error → Driven
  | none =>
    let v : StatementVerdict :=
      { outcome := .executedWithoutOnlineSafety, statement := st.sql, table
        refusal := some proof, allowedDestructive := st.kind = .dropIndex }
    { ran := { verdict := some v }
      began := some ⟨.acceptedBlocking, st.sql, table, [st.sql]⟩ }
  | some e =>
    if Executor.isError .invalidBlockingBudget e then { ran := { error := some (.executor e) } }
    else
      { ran := acceptedFailure st table e
        began := some ⟨.acceptedBlocking, st.sql, table, [st.sql]⟩ }

/-- The accepted blocking path: a dropped index also needs the destructive acknowledgement. -/
def acceptBlocking (st : Statement) (proof : Refusal) (opts : Options) (a : PipelineAnswers) :
    Driven :=
  match admitBlocking st opts a with
  | .error e => stopped e
  | .ok locked =>
    if st.kind = .dropIndex && opts.allowDestructive = "" then
      match a.usage with
      | some e =>
        stopped ("read usage of the index to drop on " ++ locked.qualified ++ ": " ++ e ++
          "; nothing was executed")
      | none =>
        concluded (onTable locked.qualified (refusedVerdict st destructiveChangeRefusal))
    else acceptedOutcome st proof locked.qualified a.accepted

/-! ### Native execution -/

/-- How a check before an execution stops it: with a refusal, or short of an answer. -/
inductive Stop where
  | refuse (r : Refusal)
  | fail (e : String)

/-- What a stop comes to: nothing is handed over. -/
def Stop.driven (st : Statement) (table : String) (forced : Bool) : Stop → Driven
  | refuse r => concluded { onTable table (refusedVerdict st r) with forced }
  | fail e => stopped e

/-- Refuses a table above the limit, where there is one. -/
def checkSize (limit : Option Int) : SizeAnswer → Except Stop Unit
  | .failed e => .error (.fail e)
  | .measured total =>
    if limit.any (· < total) then .error (.refuse tableTooLargeRefusal) else .ok ()

/-- Refuses steps a partitioned parent does not take. -/
def checkPartitionSupport (steps : List Node) (a : PipelineAnswers) : Except Stop Unit :=
  match a.serverMajor, a.partitioned steps with
  | some e, _ | none, .error e => .error (.fail e)
  | none, .ok none => .ok ()
  | none, .ok (some cause) =>
    match partitionRefusal cause with
    | some r => .error (.refuse r)
    | none =>
      .error (.fail ("invariant violation: partitioned-parent refusal carries unclassified cause "
        ++ cause.token.quote))

/-- Refuses a role that lacks what the steps need. -/
def checkPrivileges (steps : List Node) (a : PipelineAnswers) : Except Stop Unit :=
  match a.tier steps, a.rights with
  | some e, _ | none, .failed e => .error (.fail e)
  | none, .missing => .error (.refuse insufficientPrivilegesRefusal)
  | none, .granted => .ok ()

/-- What an execution that was handed over comes to. -/
def executed (st : Statement) (table : String) (substituted forced : Bool) (execSQL : List Node)
    (answer : SequenceAnswer) : Ran :=
  match answer.error with
  | none =>
    { verdict := some
        { outcome := .executed, statement := st.sql, table, forced
          executedSQL := if substituted then execSQL else [] } }
  | some e =>
    match execRefusal e substituted with
    | some r => { verdict := some { onTable table (refusedVerdict st r) with forced } }
    | none =>
      { verdict := some (onTable table (failureVerdict st e answer.committed forced))
        error := some (.executor e) }

/-- The bytes a table may have, where the size guard applies. -/
def sizeLimit (p : Plan) (substituted : Bool) (opts : Options) : Option Int :=
  if sizeGuardApplies p substituted then some opts.maxTableSizeBytes else none

/-- The checks before steps are handed over. -/
def executePreflight (execSQL : List Node) (p : Plan) (substituted : Bool) (opts : Options)
    (a : PipelineAnswers) : Except Stop Unit := do
  checkSize (sizeLimit p substituted opts) a.size
  checkPartitionSupport execSQL a
  checkPrivileges execSQL a

/-- Runs the routed steps, or the submitted form where it is forced. -/
def execute (st : Statement) (execSQL : List Node) (p : Plan) (substituted forced : Bool)
    (opts : Options) (adopts validates : Option String) (a : PipelineAnswers) : Driven :=
  match forced, adopts, validates with
  | true, some index, _ =>
    stopped ("invariant violation: a forced attempt cannot carry the adoption of index " ++ index)
  | true, none, some con =>
    stopped ("invariant violation: a forced attempt cannot carry the validation of constraint " ++
      con)
  | false, some index, some con =>
    stopped ("invariant violation: one statement cannot carry both the adoption of index " ++
      index ++ " and the validation of constraint " ++ con)
  | forced, _, _ =>
    match executePreflight execSQL p substituted opts a with
    | .error stop => stop.driven st (qualified st) forced
    | .ok () =>
      { ran := executed st (qualified st) substituted forced execSQL a.sequence
        began := some
          { path := if forced then .forced else .native
            statement := st.sql, table := qualified st
            sql := if forced then [st.sql] else execSQL } }

/-- The copy-and-swap route. -/
def throughShadow (st : Statement) (opts : Options) (a : PipelineAnswers) : Driven :=
  match copySwapStops opts.copySwap st a.route with
  | some ran => { ran }
  | none =>
    { ran := copySwapOutcome st a.runner.hold a.runner.done a.runner.error
      began := some ⟨.copyAndSwap, st.sql, qualified st, [st.sql]⟩ }

/-- The verdict of a statement that needs a rewrite. -/
def rewriteRequiredVerdict (st : Statement) (table : String) (rs : RoutedStatement) : Driven :=
  match rewriteRequiredGuidance rs with
  | .error e =>
    stopped ("derive the manual path for rewrite-required " ++ qualified st ++ ": " ++ e)
  | .ok _ => concluded (onTable table (refusedVerdict st (rewriteRequiredCause rs)))

/-- Runs a routed statement down the path of its disposition. -/
def dispatch (st : Statement) (rs : RoutedStatement) (opts : Options)
    (adopts validates : Option String) (a : PipelineAnswers) : Driven :=
  let submitted := execute st [st.sql] rs.toPlan false true opts adopts validates a
  match rs.disposition with
  | .execute =>
    if rs.backend = some .copyAndSwap then
      if opts.force = "" then throughShadow st opts a else submitted
    else if rs.execSQL = [rs.statement] then
      execute st rs.execSQL rs.toPlan false false opts adopts validates a
    else if opts.force = "" then
      execute st rs.execSQL rs.toPlan true false opts adopts validates a
    else submitted
  | .rewriteRequired =>
    if opts.force = "" then rewriteRequiredVerdict st (qualified st) rs else submitted
  | .unavailable =>
    if opts.force = "" then concluded (refusedVerdict st backendUnavailableRefusal)
    else submitted
  | .refuse => concluded (refusedVerdict st routeRefusal)

/-! ### The pipeline -/

section Pipeline

variable (hash : String → String)

/-- The operations of a routed statement that discard live data or structure. -/
def destructiveOperations (rs : RoutedStatement) : List String :=
  if rs.disposition = .refuse then []
  else (rs.decisions.filter (·.destructive)).map (·.operation)

/-- The rename of an index: the table every stage acts on is the one that owns it. -/
def renameIndex (st : Statement) (opts : Options) (a : PipelineAnswers) : Driven :=
  let refuses (why : String) : Driven :=
    stopped ("the acknowledgement does not apply to ALTER INDEX ... RENAME TO: " ++ why ++
      "; nothing was executed")
  if opts.force ≠ "" then refuses "force names a table, and this statement names an index"
  else if opts.copySwap.restart ≠ "" then
    refuses "an index rename never runs through copy-and-swap"
  else if opts.copySwap.blockWrites ≠ "" then
    refuses ("block-writes names a table to fence, and an index rename never runs through " ++
      "copy-and-swap")
  else
    match a.facts with
    | .error e => stopped e
    | .ok facts =>
      let rs := routeStatement (classify hash st.sql facts.classifier)
      let table := facts.schema ++ "." ++ facts.table
      match rs.disposition with
      | .execute =>
        let checked : Except Stop Unit := do
          checkSize (sizeLimit rs.toPlan false opts) a.size
          checkPrivileges [st.sql] a
        match checked with
        | .error stop => stop.driven st table false
        | .ok () =>
          { ran := executed st table false false [st.sql] a.sequence
            began := some ⟨.indexRename, st.sql, table, [st.sql]⟩ }
      | .rewriteRequired => rewriteRequiredVerdict st table rs
      | _ => stopped "invariant violation: index rename routed to another disposition"

/-- The statement with its table in the schema the session's search path finds it in. -/
def resolveTarget (st : Statement) (a : PipelineAnswers) : Except String Statement :=
  if st.schema ≠ "" || st.table = "" then .ok st
  else
    match a.comments, a.schema with
    | some e, _ => .error e
    | none, .error e => .error ("resolve " ++ st.table ++ " against search_path: " ++ e)
    | none, .ok none =>
      .error ("table not found: " ++ st.table ++ " is not visible on the session search_path")
    | none, .ok (some schema) =>
      match qualify st.sql schema with
      | none => .error ("qualify " ++ st.table ++ " as " ++ schema ++ "." ++ st.table ++
          ": statement kind not allowed in a desired schema")
      | some sql => .ok (parseOne sql)

/-- A statement acknowledged for a restart is one the copy-and-swap backend executes. -/
def checkRestartRoute (st : Statement) (rs : RoutedStatement) : Except String Unit :=
  if rs.disposition = .execute && rs.backend = some .copyAndSwap then .ok ()
  else
    .error ("the restart acknowledgement applies to a statement the copy-and-swap backend " ++
      "executes; the statement on " ++
      qualified st ++ " routes to backend " ++ (Plan.backendWord rs.backend).quote ++
      " with disposition " ++ (Plan.dispositionWord rs.disposition).quote ++
      "; nothing was executed")

/-- Whether a statement goes to a copy-and-swap route that is not open. -/
def routesToClosedCopySwap (opts : Options) (rs : RoutedStatement) : Bool :=
  rs.disposition = .execute && rs.backend = some .copyAndSwap && !opts.copySwap.enabled &&
    opts.force = ""

/-- The acknowledgements that are given name the resolved table. -/
def checkAcks (st : Statement) (opts : Options) : Except String Unit := do
  checkGiven opts.force (checkForceAck st)
  checkGiven opts.copySwap.restart (checkRestartAck st)
  checkGiven opts.copySwap.blockWrites (checkBlockWritesAck st)
  checkGiven opts.allowDestructive (checkAllowDestructiveAck (qualified st))

/-- The pipeline from the resolved statement on. -/
def runResolved (st : Statement) (opts : Options) (adopts validates : Option String)
    (a : PipelineAnswers) : Driven :=
  match checkAcks st opts with
  | .error e => stopped e
  | .ok () =>
    match a.facts with
    | .error e => stopped e
    | .ok facts =>
      let rs := routeStatement (classify hash st.sql facts.classifier)
      match checkGiven opts.copySwap.restart fun _ => checkRestartRoute st rs with
      | .error e => stopped e
      | .ok () =>
        if destructiveOperations rs ≠ [] && opts.allowDestructive = "" then
          concluded (refusedVerdict st destructiveChangeRefusal)
        else if routesToClosedCopySwap opts rs then
          concluded (refusedVerdict st copySwapNotEnabledRefusal)
        else
          let d := dispatch st rs opts adopts validates a
          { d with
            ran := { d.ran with
              verdict := d.ran.verdict.map fun v =>
                if destructiveOperations rs ≠ [] then { v with allowedDestructive := true }
                else v } }

/-- The pipeline of one statement, which may carry an adoption or a validation of the diff. -/
def run (st : Statement) (opts : Options) (adopts validates : Option String)
    (a : PipelineAnswers) : Driven :=
  match opts.validate with
  | some e => stopped e
  | none =>
    match gate st with
    | some v =>
      match acceptedRefusal opts.acceptBlocking v with
      | some proof => acceptBlocking st proof opts a
      | none => concluded v
    | none =>
      if st.kind = .renameIndex then renameIndex hash st opts a
      else
        match resolveTarget st a with
        | .error e => stopped e
        | .ok st => runResolved hash st opts adopts validates a

end Pipeline

/-! ### The shapes a run can have -/

/-- A run ends in one of four ways: stopped with nothing handed over, refused, failed, or
executed. -/
structure WellShaped (d : Driven) : Prop where
  stopped : d.ran.verdict = none → d.ran.error.isSome = true ∧ d.began = none
  refused : ∀ v, d.ran.verdict = some v → v.outcome = .refused →
    d.ran.error = none ∧ v.refusal.isSome = true
  failed : ∀ v, d.ran.verdict = some v → v.outcome = .failed → d.ran.error.isSome = true
  executed : ∀ v, d.ran.verdict = some v → v.outcome ≠ .refused → v.outcome ≠ .failed →
    d.ran.error = none ∧ d.began.isSome = true

/-- A well-shaped run that hands over only what `P` allows. -/
structure Hands (P : Began → Prop) (d : Driven) : Prop where
  shaped : WellShaped d
  began : ∀ b, d.began = some b → P b

variable {P : Began → Prop} {ran : Ran} {v : StatementVerdict} {b : Began} {st : Statement}
  {opts : Options} {a : PipelineAnswers}

theorem Hands.of_none (shaped : WellShaped ⟨ran, none⟩) : Hands P ⟨ran, none⟩ :=
  ⟨shaped, fun _ began => by cases began⟩

theorem Hands.of_some (shaped : WellShaped ⟨ran, some b⟩) (allowed : P b) :
    Hands P ⟨ran, some b⟩ :=
  ⟨shaped, fun _ began => Option.some.inj began ▸ allowed⟩

/-- A run that ends in an error without a verdict, and handed nothing over. -/
theorem hands_error (verdict : ran.verdict = none) (error : ran.error.isSome = true) :
    Hands P ⟨ran, none⟩ := by
  have unsaid : ∀ v, ran.verdict ≠ some v := fun v => by simp [verdict]
  exact .of_none ⟨fun _ => ⟨error, rfl⟩, fun v said => absurd said (unsaid v),
    fun v said => absurd said (unsaid v), fun v said => absurd said (unsaid v)⟩

theorem hands_stopped (e : String) : Hands P (stopped e) := hands_error rfl rfl

/-- A run with a verdict is well shaped where its outcome is one of the last three. -/
theorem wellShaped_of_verdict {began : Option Began} (verdict : ran.verdict = some v)
    (refused : v.outcome = .refused → ran.error = none ∧ v.refusal.isSome = true)
    (failed : v.outcome = .failed → ran.error.isSome = true)
    (executed : v.outcome ≠ .refused → v.outcome ≠ .failed →
      ran.error = none ∧ began.isSome = true) : WellShaped ⟨ran, began⟩ := by
  have one : ∀ v', ran.verdict = some v' → v = v' :=
    fun v' said => Option.some.inj (verdict.symm.trans said)
  refine ⟨fun none => ?_, fun v' said => ?_, fun v' said => ?_, fun v' said => ?_⟩
  · cases verdict.symm.trans none
  · exact one v' said ▸ refused
  · exact one v' said ▸ failed
  · exact one v' said ▸ executed

theorem wellShaped_refused (verdict : ran.verdict = some v) (outcome : v.outcome = .refused)
    (classified : v.refusal.isSome = true) (error : ran.error = none) (began : Option Began) :
    WellShaped ⟨ran, began⟩ :=
  wellShaped_of_verdict verdict (fun _ => ⟨error, classified⟩)
    (fun failed => absurd (outcome.symm.trans failed) (by decide))
    fun unrefused => absurd outcome unrefused

theorem wellShaped_failed (verdict : ran.verdict = some v) (outcome : v.outcome = .failed)
    (error : ran.error.isSome = true) (began : Option Began) : WellShaped ⟨ran, began⟩ :=
  wellShaped_of_verdict verdict (fun refused => absurd (outcome.symm.trans refused) (by decide))
    (fun _ => error) fun _ unfailed => absurd outcome unfailed

theorem wellShaped_executed (verdict : ran.verdict = some v) (unrefused : v.outcome ≠ .refused)
    (unfailed : v.outcome ≠ .failed) (error : ran.error = none) (b : Began) :
    WellShaped ⟨ran, some b⟩ :=
  wellShaped_of_verdict verdict (fun refused => absurd refused unrefused)
    (fun failed => absurd failed unfailed) fun _ _ => ⟨error, rfl⟩

/-- A refusal with nothing handed over. -/
theorem hands_refused (outcome : v.outcome = .refused) (classified : v.refusal.isSome = true) :
    Hands P (concluded v) := .of_none (wellShaped_refused rfl outcome classified rfl none)

theorem failureVerdict_outcome (table : String) (st : Statement) (e : Executor.Error)
    (committed : List Node) (forced : Bool) :
    (onTable table (failureVerdict st e committed forced)).outcome = .failed := by
  unfold onTable failureVerdict
  split <;> rfl

/-- What was handed to the sequence executor has a verdict. -/
theorem wellShaped_executedSequence (st : Statement) (table : String) (substituted forced : Bool)
    (execSQL : List Node) (answer : SequenceAnswer) (b : Began) :
    WellShaped ⟨executed st table substituted forced execSQL answer, some b⟩ := by
  unfold executed
  cases answer.error with
  | none => exact wellShaped_executed rfl (fun h => by cases h) (fun h => by cases h) rfl b
  | some e =>
    dsimp only
    cases execRefusal e substituted with
    | some r => exact wellShaped_refused rfl rfl rfl rfl (some b)
    | none => exact wellShaped_failed rfl (failureVerdict_outcome table st e _ forced) rfl (some b)

/-- An accepted statement is handed over as submitted, or stops at its budget. -/
theorem acceptedOutcome_hands {proof : Refusal} {table : String} {answer : Option Executor.Error}
    (ready : P ⟨.acceptedBlocking, st.sql, table, [st.sql]⟩) :
    Hands P (acceptedOutcome st proof table answer) := by
  unfold acceptedOutcome
  cases answer with
  | none =>
    exact .of_some (wellShaped_executed rfl (fun h => by cases h) (fun h => by cases h) rfl _) ready
  | some e =>
    dsimp only
    split
    · exact hands_error rfl rfl
    · refine .of_some ?_ ready
      unfold acceptedFailure
      split
      · exact wellShaped_refused rfl rfl rfl rfl _
      · split
        · exact wellShaped_refused rfl rfl rfl rfl _
        · exact wellShaped_failed rfl (failureVerdict_outcome table st e _ false) rfl _

theorem stop_hands (stop : Stop) (st : Statement) (table : String) (forced : Bool) :
    Hands P (stop.driven st table forced) := by
  cases stop with
  | refuse r => exact hands_refused rfl rfl
  | fail e => exact hands_stopped e

/-- What an execution hands over: the submitted form where it is forced, and otherwise the steps. -/
theorem execute_hands {execSQL : List Node} {forced : Bool} (p : Plan) (substituted : Bool)
    (adopts validates : Option String)
    (ready : P { path := if forced then .forced else .native, statement := st.sql
                 table := qualified st, sql := if forced then [st.sql] else execSQL }) :
    Hands P (execute st execSQL p substituted forced opts adopts validates a) := by
  unfold execute
  split
  · exact hands_stopped _
  · exact hands_stopped _
  · exact hands_stopped _
  · cases executePreflight execSQL p substituted opts a with
    | error stop => exact stop_hands stop _ _ _
    | ok _ => exact .of_some (wellShaped_executedSequence _ _ _ _ _ _ _) ready

/-- A copy that stops before it begins hands nothing over. -/
theorem copySwapStops_hands {o : CopySwapOptions} {a : RouteAnswers}
    (stops : copySwapStops o st a = some ran) : Hands P ⟨ran, none⟩ := by
  unfold copySwapStops at stops
  split at stops
  · cases stops
    exact hands_refused rfl rfl
  · split at stops
    · cases stops
      exact hands_error rfl rfl
    · split at stops
      · cases stops
        exact hands_error rfl rfl
      · cases stops
        exact hands_error rfl rfl
      · cases stops
        exact hands_error rfl rfl
      · cases stops
        exact .of_none (wellShaped_failed rfl rfl rfl none)
      · next stop _ _ _ _ _ =>
          obtain rfl := Option.some.inj stops
          unfold copySwapPreflightVerdict
          cases classifyCopySwapPreflight stop with
          | ok r => exact hands_refused rfl rfl
          | error e => exact hands_error rfl rfl
      · cases stops

/-- Whatever a copy comes to, its verdict is well shaped. -/
theorem wellShaped_copySwapOutcome (st : Statement) (hold : SourceHold) (done : Bool)
    (err : Option SchemaChange.Error) (b : Began) :
    WellShaped ⟨copySwapOutcome st hold done err, some b⟩ := by
  unfold copySwapOutcome
  split
  · next e =>
      unfold copySwapRunVerdict
      cases SchemaChange.refusalCauseOf e with
      | none => exact wellShaped_failed rfl rfl rfl (some b)
      | some cause =>
        obtain ⟨r, classified⟩ := Option.isSome_iff_exists.mp (shadowRefusal_isSome cause)
        dsimp only
        rw [classified]
        exact wellShaped_refused rfl rfl rfl rfl (some b)
  · exact wellShaped_executed rfl (fun h => by cases h) (fun h => by cases h) rfl b

theorem throughShadow_hands (ready : P ⟨.copyAndSwap, st.sql, qualified st, [st.sql]⟩) :
    Hands P (throughShadow st opts a) := by
  unfold throughShadow
  cases stops : copySwapStops opts.copySwap st a.route with
  | some ran => exact copySwapStops_hands stops
  | none => exact .of_some (wellShaped_copySwapOutcome _ _ _ _ _) ready

theorem rewriteRequiredVerdict_hands (st : Statement) (table : String) (rs : RoutedStatement) :
    Hands P (rewriteRequiredVerdict st table rs) := by
  unfold rewriteRequiredVerdict
  cases rewriteRequiredGuidance rs with
  | error e => exact hands_stopped _
  | ok g => exact hands_refused rfl rfl

/-- What a routed statement can be handed over as: through the shadow table, as its routed steps,
or, where it is forced, as submitted. -/
inductive HandedOver (st : Statement) (rs : RoutedStatement) (opts : Options) : Began → Prop where
  | copyAndSwap (unforced : opts.force = "") (runs : rs.disposition = .execute)
      (backend : rs.backend = some .copyAndSwap) :
      HandedOver st rs opts ⟨.copyAndSwap, st.sql, qualified st, [st.sql]⟩
  | native (runs : rs.disposition = .execute) (backend : rs.backend ≠ some .copyAndSwap) :
      HandedOver st rs opts ⟨.native, st.sql, qualified st, rs.execSQL⟩
  | forced (acknowledged : opts.force ≠ "") (unrefused : rs.disposition ≠ .refuse) :
      HandedOver st rs opts ⟨.forced, st.sql, qualified st, [st.sql]⟩

/-- **What a disposition hands over**; a refused statement is handed to nothing. -/
theorem dispatch_hands (st : Statement) (rs : RoutedStatement) (opts : Options)
    (adopts validates : Option String) (a : PipelineAnswers) :
    Hands (HandedOver st rs opts) (dispatch st rs opts adopts validates a) := by
  have submitted : opts.force ≠ "" → rs.disposition ≠ .refuse → Hands (HandedOver st rs opts)
      (execute st [st.sql] rs.toPlan false true opts adopts validates a) :=
    fun acknowledged unrefused => execute_hands _ _ _ _ (.forced acknowledged unrefused)
  unfold dispatch
  cases disposition : rs.disposition with
  | execute =>
    have unrefused : rs.disposition ≠ .refuse := by rw [disposition]; decide
    dsimp only
    by_cases copied : rs.backend = some .copyAndSwap
    · rw [if_pos copied]
      by_cases unforced : opts.force = ""
      · rw [if_pos unforced]
        exact throughShadow_hands (.copyAndSwap unforced disposition copied)
      · rw [if_neg unforced]
        exact submitted unforced unrefused
    · rw [if_neg copied]
      have steps : ∀ substituted, Hands (HandedOver st rs opts)
          (execute st rs.execSQL rs.toPlan substituted false opts adopts validates a) :=
        fun substituted => execute_hands _ _ _ _ (.native disposition copied)
      split
      · exact steps false
      · by_cases unforced : opts.force = ""
        · rw [if_pos unforced]
          exact steps true
        · rw [if_neg unforced]
          exact submitted unforced unrefused
  | rewriteRequired =>
    dsimp only
    by_cases unforced : opts.force = ""
    · rw [if_pos unforced]
      exact rewriteRequiredVerdict_hands st (qualified st) rs
    · rw [if_neg unforced]
      exact submitted unforced (by rw [disposition]; decide)
  | unavailable =>
    dsimp only
    by_cases unforced : opts.force = ""
    · rw [if_pos unforced]
      exact hands_refused rfl rfl
    · rw [if_neg unforced]
      exact submitted unforced (by rw [disposition]; decide)
  | refuse => exact hands_refused rfl rfl

/-! ### Destructive operations -/

section Destructive

variable (hash : String → String)

/-- Whether the planner marks an operation of a statement as discarding live data or structure. -/
def discards (sql : Node) (facts : Facts) : Bool :=
  (classify hash sql facts).decisions.any (·.destructive)

theorem discards_eq (sql : Node) (facts : Facts) :
    discards hash sql facts = (parseOps sql).any fun op => destructiveOp op.kind := by
  unfold discards classify
  rw [List.any_map]
  congr 1
  funext op
  show (stampExecution (classifyOp hash op _ facts sql _)).destructive = destructiveOp op.kind
  unfold stampExecution
  split <;> exact (classifyOp_decides hash).destructive

theorem destructiveOperations_ne_nil {sql : Node} {facts : Facts}
    (destructive : discards hash sql facts = true)
    (unrefused : (routeStatement (classify hash sql facts)).disposition ≠ .refuse) :
    destructiveOperations (routeStatement (classify hash sql facts)) ≠ [] := by
  unfold destructiveOperations
  rw [if_neg unrefused, routeStatement_toPlan]
  obtain ⟨d, among, marked⟩ := List.any_eq_true.mp destructive
  intro none
  have member := List.mem_filter.mpr ⟨among, marked⟩
  rw [List.map_eq_nil_iff.mp none] at member
  exact absurd member List.not_mem_nil

/-- Marking a verdict as allowed to discard keeps its shape. -/
theorem WellShaped.marked {d : Driven} (shaped : WellShaped d) (discarding : Bool) :
    WellShaped { d with
      ran := { d.ran with
        verdict := d.ran.verdict.map fun v =>
          if discarding then { v with allowedDestructive := true } else v } } := by
  have kept : ∀ v : StatementVerdict,
      (if discarding then { v with allowedDestructive := true } else v).outcome = v.outcome ∧
        (if discarding then { v with allowedDestructive := true } else v).refusal = v.refusal := by
    intro v
    cases discarding <;> exact ⟨rfl, rfl⟩
  refine ⟨fun none => shaped.stopped (Option.map_eq_none_iff.mp none), ?_, ?_, ?_⟩
  · intro v marked refused
    obtain ⟨plain, verdict, rfl⟩ := Option.map_eq_some_iff.mp marked
    rw [(kept plain).1] at refused
    rw [(kept plain).2]
    exact shaped.refused plain verdict refused
  · intro v marked failed
    obtain ⟨plain, verdict, rfl⟩ := Option.map_eq_some_iff.mp marked
    rw [(kept plain).1] at failed
    exact shaped.failed plain verdict failed
  · intro v marked
    obtain ⟨plain, verdict, rfl⟩ := Option.map_eq_some_iff.mp marked
    rw [(kept plain).1]
    exact shaped.executed plain verdict

/-- The destructive acknowledgement is given, and names the table. -/
def Acknowledged (opts : Options) (table : String) : Prop :=
  opts.allowDestructive ≠ "" ∧ opts.allowDestructive = table

theorem acknowledged_of_checkGiven {table : String}
    (checked : checkGiven opts.allowDestructive (checkAllowDestructiveAck table) = .ok ())
    (given : opts.allowDestructive ≠ "") : Acknowledged opts table := by
  unfold checkGiven at checked
  rw [if_neg given] at checked
  unfold checkAllowDestructiveAck checkAck at checked
  by_cases names : opts.allowDestructive = table
  · exact ⟨given, names⟩
  · rw [if_neg names] at checked
    cases checked

/-- What a run can hand over, and under what. -/
inductive RunBegins (st : Statement) (opts : Options) (a : PipelineAnswers) : Began → Prop where
  /-- A refused index statement, under an acknowledgement of the table it locks. -/
  | acceptedBlocking (locked : AcceptedTable)
      (locks : lockedTable st.indexRelation a.relation = .ok locked)
      (gated : gate st ≠ none) (acknowledged : opts.acceptBlocking ≠ "")
      (discards : st.kind = .dropIndex → Acknowledged opts locked.qualified) :
      RunBegins st opts a ⟨.acceptedBlocking, st.sql, locked.qualified, [st.sql]⟩
  | indexRename (facts : LiveFacts) (kind : st.kind = .renameIndex) (answered : a.facts = .ok facts)
      (runs : (routeStatement (classify hash st.sql facts.classifier)).disposition = .execute) :
      RunBegins st opts a ⟨.indexRename, st.sql, facts.schema ++ "." ++ facts.table, [st.sql]⟩
  /-- A resolved statement, by its fresh routing. -/
  | routed (resolved : Statement) (facts : LiveFacts) (b : Began) (admitted : gate st = none)
      (resolves : resolveTarget st a = .ok resolved) (answered : a.facts = .ok facts)
      (discards : destructiveOperations (routeStatement
        (classify hash resolved.sql facts.classifier)) ≠ [] →
          Acknowledged opts (qualified resolved))
      (hands : HandedOver resolved (routeStatement (classify hash resolved.sql facts.classifier))
        opts b) :
      RunBegins st opts a b

/-- An accepted statement is handed over under the acknowledgement of the table it locks. -/
theorem acceptBlocking_hands {proof : Refusal} (gated : gate st ≠ none)
    (acknowledged : opts.acceptBlocking ≠ "") :
    Hands (RunBegins hash st opts a) (acceptBlocking st proof opts a) := by
  unfold acceptBlocking
  cases admitted : admitBlocking st opts a with
  | error e => exact hands_stopped e
  | ok locked =>
    dsimp only
    obtain ⟨found, relation, checked⟩ := bind_ok.mp admitted
    obtain ⟨_, _, checked⟩ := bind_ok.mp checked
    obtain ⟨_, named, same⟩ := bind_ok.mp checked
    obtain rfl : found = locked := Except.ok.inj same
    split
    · cases a.usage with
      | some e => exact hands_stopped _
      | none => exact hands_refused rfl rfl
    · next unacknowledged =>
        refine acceptedOutcome_hands (.acceptedBlocking found relation gated acknowledged ?_)
        intro kind
        refine acknowledged_of_checkGiven named fun empty => unacknowledged ?_
        rw [decide_eq_true kind, decide_eq_true empty]
        rfl

/-- A rename of an index hands over what it was resolved to. -/
theorem renameIndex_hands (kind : st.kind = .renameIndex) :
    Hands (RunBegins hash st opts a) (renameIndex hash st opts a) := by
  unfold renameIndex
  dsimp only
  split
  · exact hands_stopped _
  · split
    · exact hands_stopped _
    · split
      · exact hands_stopped _
      · cases answered : a.facts with
        | error e => exact hands_stopped e
        | ok facts =>
          dsimp only
          split
          · next runs =>
              split
              · exact stop_hands _ _ _ _
              · exact .of_some (wellShaped_executedSequence _ _ _ _ _ _ _)
                  (.indexRename facts kind answered runs)
          · exact rewriteRequiredVerdict_hands _ _ _
          · exact hands_stopped _

/-- A resolved statement is handed over by its fresh routing, and a destructive one only under the
acknowledgement of its table. -/
theorem runResolved_hands {resolved : Statement} (adopts validates : Option String)
    (admitted : gate st = none) (resolves : resolveTarget st a = .ok resolved) :
    Hands (RunBegins hash st opts a) (runResolved hash resolved opts adopts validates a) := by
  unfold runResolved
  cases acks : checkAcks resolved opts with
  | error e => exact hands_stopped e
  | ok _ =>
    dsimp only
    cases answered : a.facts with
    | error e => exact hands_stopped e
    | ok facts =>
      dsimp only
      split
      · exact hands_stopped _
      · split
        · exact hands_refused rfl rfl
        · next unacknowledged =>
            split
            · exact hands_refused rfl rfl
            · obtain ⟨_, _, acks⟩ := bind_ok.mp acks
              obtain ⟨_, _, acks⟩ := bind_ok.mp acks
              obtain ⟨_, _, named⟩ := bind_ok.mp acks
              have handed := dispatch_hands resolved (routeStatement
                (classify hash resolved.sql facts.classifier)) opts adopts validates a
              have marked := handed.shaped.marked (decide (destructiveOperations
                (routeStatement (classify hash resolved.sql facts.classifier)) ≠ []))
              refine ⟨by simpa only [decide_eq_true_eq] using marked, fun b began => ?_⟩
              refine .routed resolved facts b admitted resolves answered ?_ (handed.began b began)
              intro discards
              refine acknowledged_of_checkGiven named fun empty => unacknowledged ?_
              rw [decide_eq_true discards, decide_eq_true empty]
              rfl

/-- **Every run has one of the four shapes, and what it hands over** is an index statement that was
refused and accepted, an index rename, or the resolved statement as its fresh facts route it; and a
destructive one only under the acknowledgement of the table. -/
theorem run_hands (st : Statement) (opts : Options) (adopts validates : Option String)
    (a : PipelineAnswers) :
    Hands (RunBegins hash st opts a) (run hash st opts adopts validates a) := by
  unfold run
  split
  · exact hands_stopped _
  · cases gated : gate st with
    | some v =>
      dsimp only
      cases accepted : acceptedRefusal opts.acceptBlocking v with
      | none =>
        unfold gate at gated
        obtain ⟨r, _, rfl⟩ := Option.map_eq_some_iff.mp gated
        exact hands_refused rfl rfl
      | some proof =>
        refine acceptBlocking_hands hash (by rw [gated]; exact Option.some_ne_none v) ?_
        intro empty
        unfold acceptedRefusal at accepted
        rw [if_pos empty] at accepted
        cases accepted
    | none =>
      dsimp only
      by_cases kind : st.kind = .renameIndex
      · rw [if_pos kind]
        exact renameIndex_hands hash kind
      · rw [if_neg kind]
        cases resolves : resolveTarget st a with
        | error e => exact hands_stopped e
        | ok resolved => exact runResolved_hands hash adopts validates gated resolves

end Destructive

end PgSprite.Migrate
