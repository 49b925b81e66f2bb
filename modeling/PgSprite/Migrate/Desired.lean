/-
**Desired-state execution.**

A desired schema is compared with the live table, the changes are classified and routed into a plan,
the plan is admitted as a whole, and its statements go one by one through the pipeline of a single
statement, each classified again from facts read at its turn. The first refusal or failure ends the
run, and a run whose statements all committed plans once more to prove that nothing is left to do.

* `statementLoop_spec` — what the loop over the statements attempts, keeps and stops at;
* `desired_result_exact` — verdicts, outcome, refusal and convergence of a run on an existing table;
* `destructive_acknowledged` — nothing is discarded without its acknowledgement, on any path;
* `handed_as_planned_iff` — a statement of the plan is carried out as planned exactly where the
  facts read at its turn agree with the plan's on what its routing depends on.
-/

import PgSprite.Migrate.Pipeline
import PgSprite.Planner.Reroute

namespace PgSprite.Migrate

open PgSprite.Lib PgSprite.Planner PgSprite.Verdict
open PgSprite.Plan (PlannedStatement Report ChangeKind PartitionRefusalCause ShapeError
  fromRouted newReport refuseForeignKeyChanges refuseUnsupportedCreateShape
  refuseUnsupportedPartitionedParent discloseGreenfieldExecution createShapeRefusal routeRefusal
  destructiveChangeRefusal Submitted Mutator)
open PgSprite.Statement (Statement Node parseOne parseOps)

/-! ### Planning -/

/-- One change the diff derives. -/
structure Change where
  sql : Node
  kind : ChangeKind
  adopts : Option String := none
  validates : Option String := none

/-- What planning is made from: the changes with the facts they are classified by, and what the
create path or the partitioned parent refuses of them. -/
structure Derivation where
  schema : String
  table : String
  tableExists : Bool := true
  changes : List Change
  facts : Facts := {}
  shapes : List (Option ShapeError) := []
  /-- What a partitioned parent refuses of a statement's steps, where the table is one. -/
  partitioned : Option (List Node → Except String (Option PartitionRefusalCause)) := none

section Planning

variable (hash : String → String) (fingerprint : List PlannedStatement → String)

/-- The planned statement of one change. -/
def classifyChange (facts : Facts) (c : Change) : Except String PlannedStatement := do
  let st ← fromRouted (routeStatement (classify hash c.sql facts))
  return { st with kind := some c.kind, adopts := c.adopts, validates := c.validates }

/-- The changes of a derivation as statements to be planned. -/
def Derivation.submitted (d : Derivation) : List Submitted :=
  d.changes.map fun c => { sql := c.sql, facts := d.facts, kind := some c.kind }

/-- The amended report, unless the amendment failed. -/
def amended : Report × Option String → Except String Report
  | (report, none) => .ok report
  | (_, some e) => .error e

/-- What the planned statements are amended by: the shapes the create path refuses, or the steps a
partitioned parent does. -/
def amendPlan (d : Derivation) (report : Report) : Except String Report :=
  if d.tableExists then
    match d.partitioned with
    | none => .ok report
    | some refuses => do
        let causes ← report.statements.mapM fun st => refuses st.execSQL
        amended (refuseUnsupportedPartitionedParent report causes)
  else do
    let report ← amended (refuseUnsupportedCreateShape report d.shapes)
    return discloseGreenfieldExecution report

/-- The convergence plan. -/
def diffPlan (d : Derivation) : Except String Report := do
  let planned ← d.changes.mapM (classifyChange hash d.facts)
  let report := refuseForeignKeyChanges
    (newReport hash d.schema d.table (some d.tableExists) d.submitted planned)
  let report ← amendPlan d report
  return { report with fingerprint := fingerprint report.statements }

end Planning

/-! ### Results -/

/-- How planning stops short of a plan: on a shape of the desired file, or on an error. -/
inductive PlanStop where
  | shape (text : String)
  | failed (text : String)

def PlanStop.text : PlanStop → String
  | shape text => text
  | failed text => text

inductive ConvergenceStatus where
  | verified
  | remaining
  | unverifiable
  deriving DecidableEq, Repr

/-- What planning again after the last commit found. -/
structure Convergence where
  status : ConvergenceStatus
  remaining : Option Report := none

/-- An error of a desired-state run. -/
inductive DesiredError where
  | stage (text : String)
  | planned (position : Nat) (e : RunError)
  | copySwap (position : Nat) (text : String)

/-- The result of a run over a plan. -/
structure PlanResult where
  plan : Option Report := none
  verdicts : List StatementVerdict := []
  outcome : Outcome
  refusal : Option Refusal := none
  detail : String
  convergence : Option Convergence := none

/-- What a run comes to: its result, unless it stopped before planning, its error, what each
statement it attempted came to, and what the create path came to where it took that path. -/
structure DesiredRun where
  result : Option PlanResult := none
  error : Option DesiredError := none
  attempts : List Driven := []
  created : Option (DesiredResult × Option Executor.Error) := none

/-- A result refused. -/
def PlanResult.refused (plan : Option Report) (r : Refusal) (detail : String) : PlanResult :=
  { plan, outcome := .refused, refusal := some r, detail }

/-! ### Admission -/

/-- The first acknowledgement that is given, by what it is rejected with. -/
def rejectDesiredAcks (opts : Options) : Option String :=
  if opts.force ≠ "" then
    some ("the force acknowledgement applies to the imperative front door only; desired-state " ++
      "execution never runs a submitted form blind")
  else if opts.acceptBlocking ≠ "" then
    some ("the accept-blocking acknowledgement applies to the imperative front door only; " ++
      "desired-state execution runs no blocking statement it was not told to")
  else if opts.allowDestructive ≠ "" then
    some ("the destructive acknowledgement applies to the imperative front door only; " ++
      "desired-state execution refuses a destructive plan whole")
  else if opts.copySwap.restart ≠ "" then
    some ("the restart acknowledgement applies to the imperative front door only; desired-state " ++
      "execution resumes a stopped run and never starts one over")
  else if opts.copySwap.blockWrites ≠ "" then
    some ("the block-writes acknowledgement applies to the imperative front door only; " ++
      "desired-state execution never takes a table offline for writes")
  else none

def fingerprintMismatchRefusal : Refusal := .environmental .planFingerprintMismatch

def planIncoherentRefusal : Refusal := .invariantViolation .unsupportedStatement

/-- What else the refusal of a destructive statement blocked. -/
def skippedRestDetail (n : Nat) : String :=
  if n = 1 then
    "; admission is all-or-nothing, so the plan's other statement, even if non-destructive, was " ++
    "not run"
  else if 1 < n then
    s!"; admission is all-or-nothing, so the plan's {n} other statements, non-destructive ones " ++
    "included, were not run"
  else ""

/-- A refusal of a class, reason and owner, where they go together. -/
def newRefusal (refusalClass : Option Verdict.Class) (reason : Option Verdict.Reason)
    (owner : Option Owner) : Option Refusal :=
  match refusalClass, reason with
  | some refusalClass, some reason =>
    if owned : owner.isSome = true ↔ refusalClass = .noOnlineSafetyProblem then
      some { refusalClass, reason, owner, owned }
    else none
  | _, _ => none

/-- Why the create path refuses a shape, in words. -/
def describeCreateShape : Plan.CreateShapeCause → String
  | .partitionOf =>
    "PARTITION OF attaches a partition to a parent the absence proof does not cover, locking " ++
    "that parent"
  | .inherits => "INHERITS binds to an existing parent the absence proof does not cover"
  | .like => "LIKE reads an existing source table the absence proof does not cover"
  | .ofType => "OF binds to an existing composite type the absence proof does not cover"
  | .foreignKey =>
    "a foreign key locks each referenced table, and desired-state execution does not run " ++
    "foreign-key changes yet"
  | .ifNotExists =>
    "IF NOT EXISTS is a name-only no-op that cannot prove the existing relation is the " ++
    "requested one, or even valid"
  | .concurrently => "a concurrent build is refused on a table born this run"
  | .duplicateName => "desired set claims the same relation name twice"
  | .multipleOperations => "statement carries multiple operations"
  | .unsupportedKind => "statement kind is not supported by the create path"
  | .other _ => "unknown create-shape refusal"

/-- The refusal of a statement that planning refused, and what is said of it. -/
def refusedStatement (ps : PlannedStatement) : Refusal × String :=
  match ps.cause with
  | some cause =>
    match createShapeRefusal cause with
    | some r => (r, "is refused by the create path: " ++ describeCreateShape cause)
    | none =>
      (planIncoherentRefusal,
        "is refused by the create path with a cause this build does not classify (" ++
          cause.token.quote ++ ")")
  | none =>
    match newRefusal ps.refusalClass ps.reason ps.owner with
    | some r =>
      if r.reason = .declarativeForeignKey then
        (r, "changes a foreign key, which desired-state execution does not run yet — to apply " ++
          "it, run the statement through the imperative front door (migrate --alter), which " ++
          "validates it online")
      else (r, "has no safe path")
    | none =>
      match newRefusal (some .invariantViolation) ps.reason none with
      | some unclassified => (unclassified, "is refused but carries no refusal class")
      | none => (planIncoherentRefusal, "is refused but carries no refusal class")

/-- The refusal of the first statement that is not executable, and what is said of it. -/
def notExecutable (ps : PlannedStatement) : Option (Refusal × String) :=
  match ps.disposition with
  | .execute => none
  | .rewriteRequired => some (rewriteRequiredRefusal, "blocks and has no safer native sequence")
  | .unavailable =>
    some (backendUnavailableRefusal,
      "routes to an execution strategy that does not carry this operation yet")
  | .refuse => some (refusedStatement ps)

section Admission

variable (sqlText : Node → String)

def planRefusal (report : Report) : Refusal × String :=
  match report.statements.zipIdx.findSome? fun (ps, i) =>
      (notExecutable ps).map fun r => (r, ps, i) with
  | some ((r, why), ps, i) =>
    (r, s!"planned statement {i + 1} ({sqlText ps.sql}) {why}; nothing was executed")
  | none =>
    (planIncoherentRefusal,
      "the plan's aggregate disposition is " ++ (Plan.dispositionWord report.disposition).quote ++
        " but no statement carries it; nothing was executed")

/-- The admission of a plan as a whole: the pin, the destructive statements, the dispositions. -/
def admitPlan (expectedFingerprint : String) (report : Report) : Option (Refusal × String) :=
  if expectedFingerprint ≠ "" && expectedFingerprint ≠ report.fingerprint then
    some (fingerprintMismatchRefusal,
      s!"the plan derived at execution time (fingerprint {report.fingerprint}) is not the " ++
      s!"pinned plan (fingerprint {expectedFingerprint}); the live table or the desired schema " ++
      "changed since the plan was reviewed — re-review the new plan")
  else
    match report.statements.zipIdx.find? (·.1.destructive) with
    | some (ps, i) =>
      let deliberatePath :=
        if ps.kind = some .dropIndex then
          "drop it deliberately with DROP INDEX CONCURRENTLY, then rerun"
        else "run it deliberately through the imperative front door"
      some (destructiveChangeRefusal,
        s!"planned statement {i + 1} discards live structure ({sqlText ps.sql}); desired-state " ++
        s!"execution runs no destructive statement — {deliberatePath}" ++
          skippedRestDetail (report.statements.length - 1))
    | none => if report.disposition ≠ .execute then some (planRefusal sqlText report) else none

/-- What the route's own checks answer before anything runs. -/
structure CopySwapAdmission where
  /-- What is wrong with the route's connection, and whether it reaches another database. -/
  connection : Option (Bool × String) := none
  pool : Option String := none
  preflight : Option (PreflightStop × String) := none

/-- The first statement planned for copy-and-swap. -/
def firstCopySwapStatement (report : Report) : Option (PlannedStatement × Nat) :=
  report.statements.zipIdx.find? fun (ps, _) => ps.backend = some .copyAndSwap

def copySwapNotEnabledDetail : String :=
  "copy-and-swap is in preview and not enabled for this run: the change needs a shadow-table " ++
  "copy and cutover, which runs only when the policy opts in (migrate --copy-and-swap on the " ++
  "CLI, Options.CopySwap.Enabled in the library); nothing was executed"

/-- A plan that goes through the route is checked for it before anything runs. -/
def admitCopySwap (report : Report) (opts : Options) (a : CopySwapAdmission) :
    Option (PlanResult × Option DesiredError) :=
  match firstCopySwapStatement report with
  | none => none
  | some (ps, first) =>
    let refused (r : Refusal) (detail : String) : Option (PlanResult × Option DesiredError) :=
      some (.refused (some report) r detail, none)
    let stopped (what e : String) : Option (PlanResult × Option DesiredError) :=
      some
        ({ plan := some report, outcome := .failed
           detail := s!"planned statement {first + 1} of {report.statements.length} routes to " ++
             s!"copy-and-swap and {what}; nothing was executed" },
          some (.copySwap (first + 1) e))
    if !opts.copySwap.enabled then
      refused copySwapNotEnabledRefusal
        (s!"planned statement {first + 1} ({sqlText ps.sql}) routes to copy-and-swap, which is " ++
          s!"not enabled for this run: {copySwapNotEnabledDetail}")
    else if opts.copySwap.connection = "" then
      stopped "the route's connection is not configured"
        "Options.CopySwap.Connection must name the database the pool was dialed with"
    else
      match a.connection, a.pool, a.preflight with
      | some (true, e), _, _ =>
        stopped "the route's connection reaches another database than the pool" e
      | some (false, e), _, _ =>
        stopped "the route's connection could not be checked against the pool" e
      | none, some e, _ => stopped "the pool is too small for the route" e
      | none, none, none => none
      | none, none, some (stop, detail) =>
        match classifyCopySwapPreflight stop with
        | .error _ => stopped "the route's preflight could not finish" detail
        | .ok r =>
          let offline :=
            match stop with
            | .refused .logicalDecodingUnavailable =>
              "; to run offline instead, blocking the table's writes until each swap, run each " ++
              "planned statement with migrate --alter --block-writes " ++
              s!"{report.schema}.{report.table}"
            | _ => ""
          refused r
            (s!"planned statement {first + 1} ({sqlText ps.sql}) routes to copy-and-swap, " ++
              s!"whose preflight refused the table: {detail}{offline}; nothing was executed")

end Admission

/-! ### The run -/

/-- How the loop over the statements stops before their end. -/
inductive LoopStop where
  | failed (detail : String) (e : DesiredError)
  | refused (r : Refusal) (detail : String)

/-- What the loop over the statements comes to. -/
structure Looped where
  verdicts : List StatementVerdict := []
  attempts : List Driven := []
  stop : Option LoopStop := none

/-- What is made of one statement's run: the verdict it leaves, and whether the loop stops at it. -/
def settle (n i : Nat) (ran : Ran) : List StatementVerdict × Option LoopStop :=
  match ran.error with
  | some e =>
    let what := match ran.verdict with
      | none => stoppedBeforeVerdict
      | some v => failedWhat v.code
    (ran.verdict.toList, some (.failed (committedPrefixDetail i n what) (.planned (i + 1) e)))
  | none =>
    match ran.verdict with
    | none => ([], none)
    | some v =>
      if v.outcome = .refused then
        let detail := committedPrefixDetail i n "was refused at execution time"
        match v.refusal with
        | some r => ([v], some (.refused r detail))
        | none =>
          ([v], some (.failed detail (.stage (s!"invariant violation: planned statement {i + 1} " ++
            "refused without a classified refusal"))))
      else ([v], none)

/-- What a run is answered. -/
structure DesiredAnswers where
  plan : Except PlanStop Derivation
  route : CopySwapAdmission := {}
  create : RunAnswers
  pipeline : Nat → PipelineAnswers
  again : Except PlanStop Derivation

/-- What the create path is given beside the plan. -/
structure CreateOptions where
  mismatchText : List String × List String → String
  errorText : Executor.Error → String
  createOwner : String
  budget : BriefBudget
  maxAttempts : Nat

section Run

variable (hash : String → String) (fingerprint : List PlannedStatement → String)
  (sqlText : Node → String)

/-- The pipeline of the statement at a position. -/
def drive (opts : Options) (answers : Nat → PipelineAnswers) (i : Nat) (ps : PlannedStatement) :
    Driven :=
  run hash (parseOne ps.sql) opts ps.adopts ps.validates (answers i)

/-- The loop over the statements from a position on, of `n` in all. -/
def statementLoop (opts : Options) (answers : Nat → PipelineAnswers) (n : Nat) :
    Nat → List PlannedStatement → Looped
  | _, [] => {}
  | i, ps :: rest =>
    let d := drive hash opts answers i ps
    match settle n i d.ran with
    | (verdicts, some stop) => { verdicts, attempts := [d], stop := some stop }
    | (verdicts, none) =>
      let more := statementLoop opts answers n (i + 1) rest
      { verdicts := verdicts ++ more.verdicts, attempts := d :: more.attempts, stop := more.stop }

/-- Planning, by what it is answered. -/
def planned : Except PlanStop Derivation → Except PlanStop Report
  | .error stop => .error stop
  | .ok d =>
    match diffPlan hash fingerprint d with
    | .ok report => .ok report
    | .error e => .error (.failed e)

/-- Plans again: the table has converged where that plan is empty. -/
def verifyConverged (again : Except PlanStop Report) : Convergence × Option String :=
  match again with
  | .error stop =>
    ({ status := .unverifiable },
      some ("derive the plan again to verify convergence: " ++ stop.text))
  | .ok again =>
    if again.statements = [] then ({ status := .verified }, none)
    else
      ({ status := .remaining, remaining := some again },
        some ("every planned statement committed but the table still differs from the desired " ++
          "schema; a rerun would plan: " ++
          "; ".intercalate (again.statements.map fun ps => sqlText ps.sql)))

/-- The result of a run whose statements all committed. -/
def concludeRun (report : Report) (loop : Looped) (again : Except PlanStop Report) : DesiredRun :=
  let n := report.statements.length
  match verifyConverged sqlText again with
  | (convergence, some e) =>
    { result := some
        { plan := some report, verdicts := loop.verdicts, outcome := .failed
          detail := s!"all {n} planned statements committed and remain in effect, but " ++
            s!"convergence is unproven: {e}"
          convergence := some convergence }
      error := some (.stage e), attempts := loop.attempts }
  | (convergence, none) =>
    { result := some
        { plan := some report, verdicts := loop.verdicts, outcome := .executed
          detail := s!"converged: all {n} planned statements committed and a fresh plan is empty"
          convergence := some convergence }
      attempts := loop.attempts }

/-- The run of an admitted plan on an existing table. -/
def runStatements (report : Report) (opts : Options) (a : DesiredAnswers) : DesiredRun :=
  let loop := statementLoop hash opts a.pipeline report.statements.length 0 report.statements
  match loop.stop with
  | some (.failed detail e) =>
    { result := some { plan := some report, verdicts := loop.verdicts, outcome := .failed, detail }
      error := some e, attempts := loop.attempts }
  | some (.refused r detail) =>
    { result := some
        { plan := some report, verdicts := loop.verdicts, outcome := .refused, refusal := some r
          detail }
      attempts := loop.attempts }
  | none => concludeRun sqlText report loop (planned hash fingerprint a.again)

/-- The part of a report the create path reads. -/
def createPlan (report : Report) : CreatePlan where
  schema := report.schema
  table := report.table
  statements := report.statements.map fun ps => sqlText ps.sql

/-- The run of a plan that is not empty. -/
def runPlan (expectedFingerprint : String) (report : Report) (opts : Options) (c : CreateOptions)
    (a : DesiredAnswers) : DesiredRun :=
  match admitPlan sqlText expectedFingerprint report with
  | some (r, detail) => { result := some (.refused (some report) r detail) }
  | none =>
    if report.tableExists = some false then
      { created := some (runCreate c.mismatchText c.errorText (createPlan sqlText report)
          c.createOwner c.budget c.maxAttempts a.create) }
    else
      match admitCopySwap sqlText report opts a.route with
      | some (result, error) => { result := some result, error }
      | none => runStatements hash fingerprint sqlText report opts a

/-- Converges a table onto its desired schema. -/
def runDesired (expectedFingerprint : String) (opts : Options) (c : CreateOptions)
    (a : DesiredAnswers) : DesiredRun :=
  match rejectDesiredAcks opts, opts.validate with
  | some e, _ | none, some e => { error := some (.stage e) }
  | none, none =>
    match planned hash fingerprint a.plan with
    | .error (.shape text) =>
      { result := some (.refused none (.capabilityBoundary .unsupportedStatement)
          (text ++ "; nothing was planned or executed")) }
    | .error (.failed text) => { error := some (.stage text) }
    | .ok report =>
      if report.statements = [] then
        { result := some
            { plan := some report, outcome := .executed
              detail := "already converged: the live table matches the desired schema; nothing " ++
                "to run" } }
      else runPlan hash fingerprint sqlText expectedFingerprint report opts c a

end Run

/-! ### What the loop attempts -/

/-- The statement committed: its verdict is neither a refusal nor a failure. -/
def Commits (d : Driven) : Prop :=
  ∃ v, d.ran.verdict = some v ∧ v.outcome ≠ .refused ∧ v.outcome ≠ .failed

/-- How a statement that did not commit stops the loop: by its own refusal, or by its error. -/
inductive StopsAt (d : Driven) : LoopStop → Prop where
  | refused (v : StatementVerdict) (r : Refusal) (detail : String)
      (verdict : d.ran.verdict = some v) (outcome : v.outcome = .refused)
      (refusal : v.refusal = some r) : StopsAt d (.refused r detail)
  | failed (position : Nat) (e : RunError) (detail : String) (error : d.ran.error = some e) :
      StopsAt d (.failed detail (.planned position e))

/-- A statement's verdict is recorded, and the loop goes on exactly where it committed. -/
theorem settle_spec {d : Driven} (shaped : WellShaped d) (n i : Nat) :
    (settle n i d.ran).1 = d.ran.verdict.toList ∧
      ((settle n i d.ran).2 = none ∧ Commits d ∨
        ∃ stop, (settle n i d.ran).2 = some stop ∧ ¬ Commits d ∧ StopsAt d stop) := by
  unfold settle
  cases failed : d.ran.error with
  | some e =>
    refine ⟨rfl, .inr ⟨_, rfl, ?_, .failed (i + 1) e _ failed⟩⟩
    rintro ⟨v, verdict, unrefused, unfailed⟩
    have clean := (shaped.executed v verdict unrefused unfailed).1
    rw [failed] at clean
    cases clean
  | none =>
    dsimp only
    cases verdict : d.ran.verdict with
    | none =>
      have error := (shaped.stopped verdict).1
      rw [failed] at error
      cases error
    | some v =>
      dsimp only
      by_cases refused : v.outcome = .refused
      · rw [if_pos refused]
        obtain ⟨r, refusal⟩ := Option.isSome_iff_exists.mp (shaped.refused v verdict refused).2
        rw [refusal]
        refine ⟨rfl, .inr ⟨_, rfl, ?_, .refused v r _ verdict refused refusal⟩⟩
        rintro ⟨v', verdict', unrefused, _⟩
        obtain rfl := Option.some.inj (verdict.symm.trans verdict')
        exact unrefused refused
      · rw [if_neg refused]
        refine ⟨rfl, .inl ⟨rfl, v, verdict, refused, fun broken => ?_⟩⟩
        have error := shaped.failed v verdict broken
        rw [failed] at error
        cases error

section Loop

variable (hash : String → String) (opts : Options) (answers : Nat → PipelineAnswers) (n : Nat)

/-- What the loop attempts of the statements from a position on, keeps and stops at. -/
structure LoopedOver (i : Nat) (statements : List PlannedStatement) (l : Looped) : Prop where
  /-- What is attempted is a statement of the plan, at its position. -/
  attempts : ∀ j d, l.attempts[j]? = some d →
    ∃ ps, statements[j]? = some ps ∧ d = drive hash opts answers (i + j) ps
  verdicts : l.verdicts = l.attempts.filterMap (·.ran.verdict)
  /-- Only the last attempt can fall short of a commit. -/
  committed : ∀ j d, l.attempts[j]? = some d → j + 1 < l.attempts.length → Commits d
  finished : l.stop = none → l.attempts.length = statements.length ∧ ∀ d ∈ l.attempts, Commits d
  stopped : ∀ stop, l.stop = some stop →
    ∃ d, l.attempts.getLast? = some d ∧ ¬ Commits d ∧ StopsAt d stop

/-- **What the loop does**: it attempts the statements in order up to the first that does not
commit. -/
theorem statementLoop_spec (statements : List PlannedStatement) : ∀ i,
    LoopedOver hash opts answers i statements (statementLoop hash opts answers n i statements) := by
  induction statements with
  | nil =>
    intro i
    exact ⟨fun j d at_ => (by cases at_), rfl, fun j d at_ => (by cases at_),
      fun _ => ⟨rfl, fun d among => (by cases among)⟩, fun stop at_ => (by cases at_)⟩
  | cons ps rest more =>
    intro i
    have shaped : WellShaped (drive hash opts answers i ps) := (run_hands hash _ _ _ _ _).shaped
    obtain ⟨kept, ends⟩ := settle_spec shaped n i
    have zeroth : ∀ d, some (drive hash opts answers i ps) = some d →
        d = drive hash opts answers (i + 0) ps := fun d at_ => (Option.some.inj at_).symm
    unfold statementLoop
    dsimp only
    obtain ⟨goes, commits⟩ | ⟨stop, stops, uncommitted, at_⟩ := ends
    · rw [show settle n i (drive hash opts answers i ps).ran =
        ((drive hash opts answers i ps).ran.verdict.toList, none) from Prod.ext kept goes]
      have rested := more (i + 1)
      refine ⟨?_, ?_, ?_, ?_, ?_⟩
      · intro j d attempted
        cases j with
        | zero => exact ⟨ps, rfl, zeroth d attempted⟩
        | succ j =>
          obtain ⟨ps', planned, driven⟩ := rested.attempts j d attempted
          refine ⟨ps', planned, ?_⟩
          rw [driven, Nat.add_assoc, Nat.add_comm 1 j]
      · obtain ⟨v, verdict, _⟩ := commits
        show _ ++ _ = List.filterMap _ (_ :: _)
        rw [List.filterMap_cons, verdict, rested.verdicts]
        rfl
      · intro j d attempted before
        cases j with
        | zero =>
          rw [zeroth d attempted]
          exact commits
        | succ j => exact rested.committed j d attempted (Nat.lt_of_succ_lt_succ before)
      · intro done
        obtain ⟨all, each⟩ := rested.finished done
        refine ⟨congrArg (· + 1) all, fun d among => ?_⟩
        obtain rfl | among := List.mem_cons.mp among
        · exact commits
        · exact each d among
      · intro stop stopped
        obtain ⟨d, last, uncommitted, at_⟩ := rested.stopped stop stopped
        refine ⟨d, ?_, uncommitted, at_⟩
        show (_ :: _).getLast? = some d
        rw [List.getLast?_cons, last]
        rfl
    · rw [show settle n i (drive hash opts answers i ps).ran =
        ((drive hash opts answers i ps).ran.verdict.toList, some stop) from Prod.ext kept stops]
      refine ⟨?_, ?_, ?_, ?_, ?_⟩
      · intro j d attempted
        cases j with
        | zero => exact ⟨ps, rfl, zeroth d attempted⟩
        | succ j => cases attempted
      · rw [List.filterMap_cons, List.filterMap_nil]
        cases (drive hash opts answers i ps).ran.verdict <;> rfl
      · intro j d _ before
        exact absurd before (by simp)
      · intro done
        cases done
      · intro stop' stopped
        obtain rfl := Option.some.inj stopped
        exact ⟨_, rfl, uncommitted, at_⟩

end Loop

/-! ### The result of a run -/

/-- The verdicts of attempts of which only the last can be without one are at their positions. -/
theorem getElem?_filterMap_of_init {α β : Type} {f : α → Option β} : ∀ {l : List α},
    (∀ (j : Nat) a, l[j]? = some a → j + 1 < l.length → (f a).isSome = true) → ∀ (i : Nat) b,
      (l.filterMap f)[i]? = some b ↔ ∃ a, l[i]? = some a ∧ f a = some b
  | [], _, i, b => by simp
  | [a], _, i, b => by
    cases i with
    | zero => cases value : f a <;> simp [value]
    | succ i => cases value : f a <;> simp [value]
  | a :: a' :: l, init, i, b => by
    obtain ⟨c, value⟩ := Option.isSome_iff_exists.mp (init 0 a rfl (by simp))
    rw [List.filterMap_cons_some value]
    cases i with
    | zero => simp [value]
    | succ i =>
      exact getElem?_filterMap_of_init (l := a' :: l)
        (fun j x at_ before => init (j + 1) x at_ (Nat.succ_lt_succ before)) i b

section Result

variable (hash : String → String) (fingerprint : List PlannedStatement → String)
  (sqlText : Node → String)

/-- Every statement of a plan was attempted and committed. -/
def AllCommitted (report : Report) (r : DesiredRun) : Prop :=
  r.attempts.length = report.statements.length ∧ ∀ d ∈ r.attempts, Commits d

/-- What the result of a run over a plan for an existing table says. -/
structure ExactResult (opts : Options) (a : DesiredAnswers) (report : Report) (r : DesiredRun)
    (result : PlanResult) : Prop where
  /-- What is attempted is a prefix of the plan, each statement by its own run. -/
  attempts : ∀ (i : Nat) d, r.attempts[i]? = some d →
    ∃ ps, report.statements[i]? = some ps ∧ d = drive hash opts a.pipeline i ps
  /-- The verdict at a position is that of the statement there. -/
  verdicts : ∀ (i : Nat) v, result.verdicts[i]? = some v ↔
    ∃ d, r.attempts[i]? = some d ∧ d.ran.verdict = some v
  /-- Nothing is attempted after a statement that did not commit. -/
  committed : ∀ (i : Nat) d, r.attempts[i]? = some d → i + 1 < r.attempts.length → Commits d
  executed : result.outcome = .executed ↔ report.statements = [] ∨
    AllCommitted report r ∧ ∃ fresh, planned hash fingerprint a.again = .ok fresh ∧
      fresh.statements = []
  /-- The refusal of a run that attempted a statement is that of the one it stopped at. -/
  refused : result.outcome = .refused → ∀ d, r.attempts.getLast? = some d →
    ∃ v ref, d.ran.verdict = some v ∧ v.outcome = .refused ∧ v.refusal = some ref ∧
      result.refusal = some ref
  convergence : result.convergence.isSome = true ↔ report.statements ≠ [] ∧ AllCommitted report r
  /-- An attempt without a verdict handed nothing over. -/
  unverdicted : ∀ d ∈ r.attempts, d.ran.verdict = none → d.began = none

variable {hash fingerprint} {opts : Options} {a : DesiredAnswers} {report : Report}
  {result : PlanResult}

/-- A run that attempts nothing is exact where it is executed for an empty plan only. -/
theorem exactResult_unattempted {r : DesiredRun} (attempts : r.attempts = [])
    (verdicts : result.verdicts = [])
    (outcome : result.outcome = .executed ↔ report.statements = [])
    (convergence : result.convergence = none) :
    ExactResult hash fingerprint opts a report r result := by
  have empty : AllCommitted report r → report.statements = [] := by
    rintro ⟨all, -⟩
    rw [attempts] at all
    exact List.length_eq_zero_iff.mp all.symm
  refine ⟨by simp [attempts], by simp [attempts, verdicts], by simp [attempts], ?_,
    by simp [attempts], ?_, by simp [attempts]⟩
  · rw [outcome]
    exact ⟨.inl, fun either => either.elim id fun all => empty all.1⟩
  · rw [convergence]
    exact ⟨fun some => (by cases some), fun all => absurd (empty all.2) all.1⟩

/-- Convergence is proved exactly where planning again gives an empty plan. -/
theorem verifyConverged_spec (again : Except PlanStop Report) :
    (verifyConverged sqlText again).2 = none ↔
      ∃ fresh, again = .ok fresh ∧ fresh.statements = [] := by
  unfold verifyConverged
  cases again with
  | error stop => exact ⟨fun none => (by cases none), fun ⟨_, same, _⟩ => (by cases same)⟩
  | ok fresh =>
    dsimp only
    by_cases empty : fresh.statements = []
    · rw [if_pos empty]
      exact ⟨fun _ => ⟨fresh, rfl, empty⟩, fun _ => rfl⟩
    · rw [if_neg empty]
      refine ⟨fun none => (by cases none), ?_⟩
      rintro ⟨fresh', same, empty'⟩
      obtain rfl := Except.ok.inj same
      exact absurd empty' empty

/-- A run attempts what its loop does, and its result has the loop's verdicts. -/
theorem runStatements_loop (report : Report) (opts : Options) (a : DesiredAnswers) :
    let loop := statementLoop hash opts a.pipeline report.statements.length 0 report.statements
    let r := runStatements hash fingerprint sqlText report opts a
    r.attempts = loop.attempts ∧
      ∀ result, r.result = some result → result.verdicts = loop.verdicts := by
  dsimp only
  unfold runStatements concludeRun
  dsimp only
  split
  on_goal 3 => split
  all_goals exact ⟨rfl, fun result same => (by cases same; rfl)⟩

/-- A loop that stopped ends neither executed nor converged; the refusal is the loop's own. -/
theorem runStatements_stopped {stop : LoopStop}
    (stopped : (statementLoop hash opts a.pipeline report.statements.length 0
      report.statements).stop = some stop)
    (ended : (runStatements hash fingerprint sqlText report opts a).result = some result) :
    result.outcome ≠ .executed ∧ result.convergence = none ∧
      (result.outcome = .refused → ∃ r detail, stop = .refused r detail ∧
        result.refusal = some r) := by
  unfold runStatements at ended
  dsimp only at ended
  rw [stopped] at ended
  cases stop with
  | failed detail e =>
    cases ended
    exact ⟨(fun same => by cases same), rfl, (fun same => by cases same)⟩
  | refused r detail =>
    cases ended
    exact ⟨(fun same => by cases same), rfl, fun _ => ⟨r, detail, rfl, rfl⟩⟩

/-- A loop that finished is executed exactly where the table has converged. -/
theorem runStatements_finished
    (finished : (statementLoop hash opts a.pipeline report.statements.length 0
      report.statements).stop = none)
    (ended : (runStatements hash fingerprint sqlText report opts a).result = some result) :
    result.outcome ≠ .refused ∧ result.convergence.isSome = true ∧
      (result.outcome = .executed ↔
        ∃ fresh, planned hash fingerprint a.again = .ok fresh ∧ fresh.statements = []) := by
  unfold runStatements concludeRun at ended
  dsimp only at ended
  rw [finished] at ended
  rw [← verifyConverged_spec sqlText]
  dsimp only at ended
  split at ended
  next found =>
    cases ended
    rw [found]
    exact ⟨(fun same => by cases same), rfl, (fun same => by cases same),
      (fun same => by cases same)⟩
  next found =>
    cases ended
    rw [found]
    exact ⟨(fun same => by cases same), rfl, fun _ => rfl, fun _ => rfl⟩

/-- **The run of an admitted plan says exactly what happened.** -/
theorem runStatements_exact (statements : report.statements ≠ [])
    (ended : (runStatements hash fingerprint sqlText report opts a).result = some result) :
    ExactResult hash fingerprint opts a report
      (runStatements hash fingerprint sqlText report opts a) result := by
  have looped := statementLoop_spec hash opts a.pipeline report.statements.length
    report.statements 0
  obtain ⟨attempts, kept⟩ := @runStatements_loop hash fingerprint sqlText report opts a
  have verdicts := kept result ended
  have finished := fun stop => runStatements_finished sqlText stop ended
  have stopped := fun stop (at_ : _ = some stop) => runStatements_stopped sqlText at_ ended
  -- from here on only the loop and what the result has of it count
  generalize runStatements hash fingerprint sqlText report opts a = r at attempts ⊢
  generalize statementLoop hash opts a.pipeline report.statements.length 0 report.statements = loop
    at looped attempts verdicts finished stopped
  have driven : ∀ (i : Nat) d, r.attempts[i]? = some d →
      ∃ ps, report.statements[i]? = some ps ∧ d = drive hash opts a.pipeline i ps := by
    intro i d at_
    rw [attempts] at at_
    obtain ⟨ps, planned, same⟩ := looped.attempts i d at_
    rw [Nat.zero_add] at same
    exact ⟨ps, planned, same⟩
  have all : AllCommitted report r ↔ loop.stop = none := by
    unfold AllCommitted
    rw [attempts]
    refine ⟨fun all => ?_, looped.finished⟩
    cases stop : loop.stop with
    | none => rfl
    | some stop' =>
      obtain ⟨last, isLast, uncommitted, -⟩ := looped.stopped stop' stop
      exact absurd (all.2 last (List.mem_of_getLast? isLast)) uncommitted
  refine ⟨driven, fun i v => ?_, by rw [attempts]; exact looped.committed, ?_, ?_, ?_, ?_⟩
  · rw [verdicts, looped.verdicts, attempts]
    refine getElem?_filterMap_of_init (fun j d at_ before => ?_) i v
    obtain ⟨v, verdict, _⟩ := looped.committed j d at_ before
    rw [verdict]
    rfl
  · rw [all]
    cases stop : loop.stop with
    | none => simp [(finished stop).2.2, statements]
    | some stop' => simp [(stopped stop' stop).1, statements]
  · intro refused d isLast
    rw [attempts] at isLast
    cases stop : loop.stop with
    | none => exact absurd refused (finished stop).1
    | some stop' =>
      obtain ⟨last, isLast', -, at_⟩ := looped.stopped stop' stop
      obtain rfl := Option.some.inj (isLast.symm.trans isLast')
      obtain ⟨r, detail, rfl, carried⟩ := (stopped stop' stop).2.2 refused
      cases at_ with
      | refused v _ _ verdict outcome own => exact ⟨v, r, verdict, outcome, own, carried⟩
  · rw [all]
    cases stop : loop.stop with
    | none => simp [(finished stop).2.1, statements]
    | some stop' => simp [(stopped stop' stop).2.1]
  · intro d among unverdicted
    obtain ⟨i, at_⟩ := List.getElem?_of_mem among
    obtain ⟨ps, _, rfl⟩ := driven i d at_
    exact ((run_hands hash _ _ _ _ _).shaped.stopped unverdicted).2

/-- A plan that is not admitted attempts nothing. -/
theorem admitCopySwap_unattempted {e : Option DesiredError} {route : CopySwapAdmission}
    (stops : admitCopySwap sqlText report opts route = some (result, e)) :
    result.verdicts = [] ∧ result.outcome ≠ .executed ∧ result.convergence = none := by
  unfold admitCopySwap at stops
  split at stops
  · cases stops
  dsimp only at stops
  -- every check that stops the run leaves a refused or failed result
  split at stops
  on_goal 2 => split at stops
  on_goal 3 => split at stops
  on_goal 7 => split at stops
  all_goals cases stops
  all_goals exact ⟨rfl, (fun same => by cases same), rfl⟩

/-- **RunDesired's result is exact** on an existing table: the verdicts are those of a prefix of the
plan, nothing is attempted after a stop, the run is executed where everything committed and a fresh
plan is empty, and a refusal is the stopping statement's own. -/
theorem desired_result_exact (expectedFingerprint : String) (c : CreateOptions)
    (plans : planned hash fingerprint a.plan = .ok report)
    (existing : report.tableExists ≠ some false) {result : PlanResult}
    (ended :
      (runDesired hash fingerprint sqlText expectedFingerprint opts c a).result = some result) :
    ExactResult hash fingerprint opts a report
      (runDesired hash fingerprint sqlText expectedFingerprint opts c a) result := by
  unfold runDesired at ended ⊢
  split at ended
  · cases ended
  · cases ended
  · rw [plans] at ended ⊢
    dsimp only at ended ⊢
    by_cases empty : report.statements = []
    · rw [if_pos empty] at ended ⊢
      cases ended
      exact exactResult_unattempted rfl rfl (by simp [empty]) rfl
    · rw [if_neg empty] at ended ⊢
      unfold runPlan at ended ⊢
      split at ended
      · cases ended
        exact exactResult_unattempted rfl rfl (by simp [PlanResult.refused, empty]) rfl
      · rw [if_neg existing] at ended ⊢
        split at ended
        next stops =>
          cases ended
          obtain ⟨verdicts, outcome, convergence⟩ := admitCopySwap_unattempted sqlText stops
          exact exactResult_unattempted rfl verdicts (by simp [outcome, empty]) convergence
        · exact runStatements_exact sqlText empty ended

end Result

/-! ### What discards live structure -/

section Destructive

variable (hash : String → String) (fingerprint : List PlannedStatement → String)
  (sqlText : Node → String)

theorem parseOne_sql (sql : Node) : (parseOne sql).sql = sql := by
  unfold parseOne
  split <;> (try rfl) <;> split <;> (try rfl) <;> split <;> rfl

variable {sql : Node}

/-- A statement with its table in a schema has the operations it had. -/
theorem parseOps_qualify {qualifiedSQL : Node} {schema : String}
    (done : Statement.qualify sql schema = some qualifiedSQL) :
    parseOps qualifiedSQL = parseOps sql := by
  unfold Statement.qualify at done
  split at done
  · cases done
    rfl
  · cases done
    rfl
  · cases done
    rfl
  · cases done

theorem resolveTarget_ok {a : PipelineAnswers} {resolved : Statement}
    (ok : resolveTarget (parseOne sql) a = .ok resolved) :
    resolved = parseOne sql ∨
      ∃ schema sql', Statement.qualify sql schema = some sql' ∧ resolved = parseOne sql' := by
  unfold resolveTarget at ok
  split at ok
  · exact .inl (Except.ok.inj ok).symm
  · split at ok
    · cases ok
    · cases ok
    · cases ok
    · next schema _ _ =>
        rw [parseOne_sql] at ok
        split at ok
        · cases ok
        · next sql' done => exact .inr ⟨schema, sql', done, (Except.ok.inj ok).symm⟩

theorem discards_resolved {a : PipelineAnswers} {resolved : Statement}
    (ok : resolveTarget (parseOne sql) a = .ok resolved) (facts facts' : Facts) :
    discards hash resolved.sql facts = discards hash sql facts' := by
  rw [discards_eq, discards_eq]
  obtain rfl | ⟨schema, sql', done, rfl⟩ := resolveTarget_ok ok
  · rw [parseOne_sql]
  · rw [parseOne_sql, parseOps_qualify done]

variable {facts : Facts}

/-- An index statement that locks a table and is refused is a drop or a rebuild, and only the drop
discards. -/
theorem dropIndex_of_discards {a : PipelineAnswers} {locked : AcceptedTable}
    (locks : lockedTable (parseOne sql).indexRelation a.relation = .ok locked)
    (gated : gate (parseOne sql) ≠ none) (destructive : discards hash sql facts = true) :
    (parseOne sql).kind = .dropIndex := by
  rw [discards_eq] at destructive
  have relation : (parseOne sql).indexRelation ≠ none := by
    intro none
    rw [none] at locks
    cases locks
  unfold parseOne at relation gated ⊢
  split at relation <;> try exact absurd rfl relation
  · split at relation
    · exact absurd rfl relation
    · exact absurd rfl relation
  · next renameType relationType rel subname newname =>
      by_cases index : renameType = .index
      · dsimp only at gated
        rw [if_pos index] at gated
        exact absurd rfl gated
      · rw [if_neg index] at relation
        split at relation
        · exact absurd rfl relation
        · exact absurd rfl relation
  · split at relation
    · exact absurd rfl relation
    · exact absurd rfl relation
  · next stmt =>
      by_cases index : stmt.removeType = .index
      · rw [if_pos index]
        split <;> rfl
      · rw [if_neg index] at relation
        exact absurd rfl relation
  · cases destructive

/-- Only a rename statement of an index is parsed as one. -/
theorem parseOne_renameIndex (kind : (parseOne sql).kind = .renameIndex) :
    ∃ relationType rel subname newname, sql = .rename .index relationType rel subname newname := by
  unfold parseOne at kind
  split at kind <;> try cases kind
  · split at kind <;> cases kind
  · next renameType relationType rel subname newname =>
      split at kind
      · next index => exact ⟨relationType, rel, subname, newname, by rw [index]⟩
      · split at kind <;> cases kind
  · split at kind <;> cases kind
  · split at kind
    · split at kind <;> cases kind
    · cases kind
  · split at kind <;> cases kind

theorem discards_of_renameIndex (kind : (parseOne sql).kind = .renameIndex) (facts : Facts) :
    discards hash sql facts = false := by
  obtain ⟨relationType, rel, subname, newname, rfl⟩ := parseOne_renameIndex kind
  rw [discards_eq]
  rfl

/-- The table a statement resolves to on each path. -/
def resolvedTable (st : Statement) (a : PipelineAnswers) : Path → Except String String
  | .acceptedBlocking => (lockedTable st.indexRelation a.relation).map (·.qualified)
  | .indexRename => a.facts.map fun facts => facts.schema ++ "." ++ facts.table
  | .native | .forced | .copyAndSwap => (resolveTarget st a).map qualified

variable {b : Began}

/-- The table handed over is the one the statement resolves to. -/
theorem handedOver_table {st : Statement} {rs : RoutedStatement} {opts : Options}
    (hands : HandedOver st rs opts b) (a : PipelineAnswers) (submitted : Statement)
    (resolves : resolveTarget submitted a = .ok st) :
    resolvedTable submitted a b.path = .ok b.table ∧ b.table = qualified st ∧
      rs.disposition ≠ .refuse := by
  have table : (resolveTarget submitted a).map qualified = .ok (qualified st) := by
    rw [resolves]
    rfl
  cases hands with
  | copyAndSwap unforced runs backend => exact ⟨table, rfl, by rw [runs]; decide⟩
  | native runs backend => exact ⟨table, rfl, by rw [runs]; decide⟩
  | forced acknowledged unrefused => exact ⟨table, rfl, unrefused⟩

/-- **A run hands over a destructive statement only under the acknowledgement of its table.** -/
theorem run_acknowledged {opts : Options} {adopts validates : Option String} {a : PipelineAnswers}
    (began : (run hash (parseOne sql) opts adopts validates a).began = some b)
    (destructive : (∃ facts, discards hash sql facts = true) ∨ (parseOne sql).kind = .dropIndex) :
    resolvedTable (parseOne sql) a b.path = .ok b.table ∧ Acknowledged opts b.table := by
  cases (run_hands hash _ _ _ _ _).began b began with
  | acceptedBlocking locked locks gated acknowledged drops =>
    have kind : (parseOne sql).kind = .dropIndex :=
      destructive.elim (fun ⟨_, marked⟩ => dropIndex_of_discards hash locks gated marked) id
    refine ⟨?_, drops kind⟩
    show (lockedTable (parseOne sql).indexRelation a.relation).map (·.qualified) = _
    rw [locks]
    rfl
  | indexRename _ kind _ _ =>
    obtain ⟨facts, marked⟩ | dropped := destructive
    · rw [discards_of_renameIndex hash kind facts] at marked
      cases marked
    · rw [kind] at dropped
      cases dropped
  | routed resolved facts _ admitted resolves answered acknowledges hands =>
    obtain ⟨table, same, unrefused⟩ := handedOver_table hands a _ resolves
    refine ⟨table, ?_⟩
    rw [same]
    refine acknowledges (destructiveOperations_ne_nil hash ?_ unrefused)
    obtain ⟨facts', marked⟩ | dropped := destructive
    · rw [discards_resolved hash resolves facts.classifier facts']
      exact marked
    · unfold gate at admitted
      rw [dropped] at admitted
      unfold gateRefusal at admitted
      dsimp only at admitted
      split at admitted <;> cases admitted

/-! ### Plans with a destructive statement -/

theorem amended_ok {amendment : Report × Option String} {report : Report}
    (ok : amended amendment = .ok report) : report = amendment.1 := by
  obtain ⟨amendedReport, failed⟩ := amendment
  cases failed with
  | none => exact (Except.ok.inj ok).symm
  | some e => cases ok

variable {d : Derivation}

/-- Amending a plan keeps each statement's kind and whether it discards data. -/
theorem amendPlan_marks {report report' : Report} (ok : amendPlan d report = .ok report') :
    report'.statements.map Plan.mark = report.statements.map Plan.mark := by
  unfold amendPlan at ok
  split at ok
  · split at ok
    · cases ok
      rfl
    · obtain ⟨causes, _, ok⟩ := bind_ok.mp ok
      rw [amended_ok ok]
      exact @Plan.apply_marks (fun _ => "")
        (.refuseUnsupportedPartitionedParent causes) report
  · obtain ⟨refused, shapes, ok⟩ := bind_ok.mp ok
    cases ok
    rw [amended_ok shapes]
    have disclosed := @Plan.apply_marks (fun _ => "") .discloseGreenfieldExecution
      (refuseUnsupportedCreateShape report d.shapes).1
    have shaped := @Plan.apply_marks (fun _ => "")
      (.refuseUnsupportedCreateShape d.shapes) report
    exact disclosed.trans shaped

variable {ps : PlannedStatement}

/-- A planned statement is taken from the routed form of its change. -/
theorem classifyChange_ok {c : Change} (ok : classifyChange hash facts c = .ok ps) :
    ∃ taken, fromRouted (routeStatement (classify hash c.sql facts)) = .ok taken ∧
      ps = { taken with kind := some c.kind, adopts := c.adopts, validates := c.validates } := by
  obtain ⟨taken, routed, same⟩ := bind_ok.mp ok
  exact ⟨taken, routed, (Except.ok.inj same).symm⟩

/-- The marks of a plan are those of the changes it is made from. -/
theorem mapM_marks {changes : List Change} {planned : List PlannedStatement}
    (ok : changes.mapM (classifyChange hash facts) = .ok planned) :
    planned.map Plan.mark = changes.map fun c => (some c.kind, discards hash c.sql facts) := by
  have each := mapM_ok ok
  clear ok
  induction each with
  | nil => rfl
  | @cons c ps changes planned one _ ih =>
    obtain ⟨routed, taken, rfl⟩ := classifyChange_ok hash one
    rw [List.map_cons, List.map_cons, ih]
    congr 1
    show (some c.kind, routed.destructive) = _
    rw [(Plan.fromRouted_ok taken).destructive, routeStatement_toPlan]
    rfl

/-- **The plan marks what discards live structure**, whatever refuses its statements. -/
theorem diffPlan_marks {report : Report} (ok : diffPlan hash fingerprint d = .ok report) :
    report.statements.map Plan.mark =
      d.changes.map fun c => (some c.kind, discards hash c.sql d.facts) := by
  unfold diffPlan at ok
  obtain ⟨planned, classified, ok⟩ := bind_ok.mp ok
  obtain ⟨amendedReport, amends, ok⟩ := bind_ok.mp ok
  cases ok
  show amendedReport.statements.map Plan.mark = _
  rw [amendPlan_marks amends, ← mapM_marks hash classified]
  exact @Plan.apply_marks (fun _ => "") .refuseForeignKeyChanges
    (newReport hash d.schema d.table (some d.tableExists) d.submitted planned)

/-- What an admitted plan is: the pinned one, without a destructive statement, and executable. -/
theorem admitPlan_none {expectedFingerprint : String} {report : Report}
    (admitted : admitPlan sqlText expectedFingerprint report = none) :
    Plan.pinAdmits expectedFingerprint report.fingerprint = true ∧
      (∀ ps ∈ report.statements, ps.destructive = false) ∧ report.disposition = .execute := by
  unfold admitPlan at admitted
  split at admitted
  · cases admitted
  next pinned =>
    split at admitted
    · cases admitted
    next kept =>
      split at admitted
      · cases admitted
      next executes =>
        refine ⟨?_, fun ps among => ?_, not_not.mp executes⟩
        · unfold Plan.pinAdmits
          by_cases unpinned : expectedFingerprint = "" <;>
            by_cases same : expectedFingerprint = report.fingerprint <;> simp_all
        · obtain ⟨i, at_⟩ := List.getElem?_of_mem among
          exact Bool.eq_false_iff.mpr
            (List.find?_eq_none.mp kept (ps, i) (List.mk_mem_zipIdx_iff_getElem?.mpr at_))

/-- A run that attempts or creates anything has an admitted plan, and attempts what its loop
does. -/
theorem runDesired_cases (expectedFingerprint : String) (opts : Options) (c : CreateOptions)
    (a : DesiredAnswers) :
    let r := runDesired hash fingerprint sqlText expectedFingerprint opts c a
    r.attempts = [] ∧ r.created = none ∨
      ∃ report, planned hash fingerprint a.plan = .ok report ∧ rejectDesiredAcks opts = none ∧
        admitPlan sqlText expectedFingerprint report = none ∧
        (r.attempts = [] ∨ report.tableExists ≠ some false ∧ r.attempts =
          (statementLoop hash opts a.pipeline report.statements.length 0
            report.statements).attempts) := by
  unfold runDesired
  split
  · exact .inl ⟨rfl, rfl⟩
  · exact .inl ⟨rfl, rfl⟩
  next unrejected valid =>
    cases plans : planned hash fingerprint a.plan with
    | error stop => cases stop <;> exact .inl ⟨rfl, rfl⟩
    | ok report =>
      dsimp only
      split
      · exact .inl ⟨rfl, rfl⟩
      · unfold runPlan
        cases admitted : admitPlan sqlText expectedFingerprint report with
        | some refused => exact .inl ⟨rfl, rfl⟩
        | none =>
          refine .inr ⟨report, rfl, unrejected, admitted, ?_⟩
          dsimp only
          split
          · exact .inl rfl
          next existing =>
            split
            · exact .inl rfl
            · exact .inr ⟨existing, (@runStatements_loop hash fingerprint sqlText report opts a).1⟩

theorem planned_ok {report : Report} :
    planned hash fingerprint (.ok d) = .ok report ↔ diffPlan hash fingerprint d = .ok report := by
  unfold planned
  dsimp only
  cases diffPlan hash fingerprint d <;> simp

/-- **A plan with a destructive statement runs nothing.** -/
theorem runDesired_destructive (expectedFingerprint : String) (opts : Options) (c : CreateOptions)
    {a : DesiredAnswers} (derives : a.plan = .ok d)
    (destructive : ∃ change ∈ d.changes, ∃ facts, discards hash change.sql facts = true) :
    (runDesired hash fingerprint sqlText expectedFingerprint opts c a).attempts = [] ∧
      (runDesired hash fingerprint sqlText expectedFingerprint opts c a).created = none := by
  obtain none | ⟨report, plans, -, admitted, -⟩ :=
    runDesired_cases hash fingerprint sqlText expectedFingerprint opts c a
  · exact none
  · rw [derives, planned_ok] at plans
    obtain ⟨change, among, facts, marks⟩ := destructive
    rw [discards_eq, ← discards_eq hash change.sql d.facts] at marks
    have mark : (some change.kind, discards hash change.sql d.facts) ∈
        report.statements.map Plan.mark := by
      rw [diffPlan_marks hash fingerprint plans]
      exact List.mem_map_of_mem among
    obtain ⟨ps, planned, same⟩ := List.mem_map.mp mark
    have marked : ps.destructive = true := (congrArg Prod.snd same).trans marks
    cases ((admitPlan_none sqlText admitted).2.1 ps planned).symm.trans marked

/-- **No data is discarded without its acknowledgement.** On every path a destructive statement, or
a dropped index, is handed over only where the acknowledgement names the table it resolved to; and a
desired-state run hands over nothing of a plan with a destructive statement. -/
theorem destructive_acknowledged :
    (∀ (sql : Node) (opts : Options) (adopts validates : Option String) (a : PipelineAnswers)
        (b : Began), (run hash (parseOne sql) opts adopts validates a).began = some b →
      (∃ facts, discards hash sql facts = true) ∨ (parseOne sql).kind = .dropIndex →
        resolvedTable (parseOne sql) a b.path = .ok b.table ∧ opts.allowDestructive = b.table) ∧
    (∀ (expectedFingerprint : String) (opts : Options) (c : CreateOptions) (a : DesiredAnswers)
        (d : Derivation), a.plan = .ok d →
      (∃ change ∈ d.changes, ∃ facts, discards hash change.sql facts = true) →
        (runDesired hash fingerprint sqlText expectedFingerprint opts c a).attempts = [] ∧
        (runDesired hash fingerprint sqlText expectedFingerprint opts c a).created = none) := by
  refine ⟨?_, ?_⟩
  · intro sql opts adopts validates a b began destructive
    obtain ⟨table, _, named⟩ := run_acknowledged hash began destructive
    exact ⟨table, named⟩
  · intro expectedFingerprint opts c a d derives destructive
    exact runDesired_destructive hash fingerprint sqlText expectedFingerprint opts c derives
      destructive

/-! ### The pinned plan -/

/-- A planned statement is carried out as it was planned: by its backend, and on the native one as
exactly its steps. -/
def AsPlanned (ps : PlannedStatement) (b : Began) : Prop :=
  b.statement = ps.sql ∧
    if b.path = .copyAndSwap then ps.backend = some .copyAndSwap ∧ ps.execSQL = []
    else ps.backend = some .native ∧ b.sql = ps.execSQL

/-- At its turn a planned statement resolves to itself, and the facts read then agree with the
plan's on what its routing depends on. -/
def FactsHold (ps : PlannedStatement) (planFacts : Facts) (a : PipelineAnswers) : Prop :=
  resolveTarget (parseOne ps.sql) a = .ok (parseOne ps.sql) ∧
    ∀ facts, a.facts = .ok facts → FactsAgree ps.sql planFacts facts.classifier

/-- A planned statement is routed by the plan's facts, and runs. -/
structure RoutedBy (facts : Facts) (ps : PlannedStatement) : Prop where
  runs : (routeStatement (classify hash ps.sql facts)).disposition = .execute
  backend : ps.backend = (routeStatement (classify hash ps.sql facts)).backend
  execSQL : ps.execSQL = (routeStatement (classify hash ps.sql facts)).execSQL

/-- An amendment that leaves the plan of an existing table executable changed none of it. -/
theorem amendPlan_executes {report report' : Report} (amends : amendPlan d report = .ok report')
    (existing : report'.tableExists ≠ some false) (of : report.tableExists = some d.tableExists)
    (executes : report'.disposition = .execute) :
    report'.statements = report.statements ∧ report.disposition = .execute := by
  unfold amendPlan at amends
  cases present : d.tableExists with
  | true =>
    rw [present, if_pos rfl] at amends
    split at amends
    · cases amends
      exact ⟨rfl, executes⟩
    · obtain ⟨causes, _, amends⟩ := bind_ok.mp amends
      rw [amended_ok amends] at executes ⊢
      exact Plan.refusing_executes executes
  | false =>
    rw [present, if_neg Bool.false_ne_true] at amends
    obtain ⟨refused, shapes, disclosed⟩ := bind_ok.mp amends
    cases disclosed
    refine absurd ?_ existing
    have kept : (refuseUnsupportedCreateShape report d.shapes).1.tableExists = some false :=
      (Plan.refusing_tableExists report _).trans (of.trans (congrArg some present))
    rw [amended_ok shapes]
    unfold discloseGreenfieldExecution
    rw [if_pos kept]
    exact kept

/-- **A statement of an executable plan is routed by the facts it was planned from.** -/
theorem diffPlan_routedBy {report : Report} (plans : diffPlan hash fingerprint d = .ok report)
    (existing : report.tableExists ≠ some false) (executes : report.disposition = .execute)
    (among : ps ∈ report.statements) : RoutedBy hash d.facts ps := by
  unfold diffPlan at plans
  obtain ⟨planned, classified, plans⟩ := bind_ok.mp plans
  obtain ⟨amendedReport, amends, plans⟩ := bind_ok.mp plans
  cases plans
  obtain ⟨same, executes⟩ := amendPlan_executes amends existing
    (Plan.refusing_tableExists _ (.ok _)) executes
  obtain ⟨kept, executes⟩ := Plan.refuseStatements_executes executes
  change ps ∈ amendedReport.statements at among
  rw [same] at among
  change ps ∈ (Plan.refuseStatements _ _).statements at among
  rw [kept] at among
  obtain ⟨c, change, one⟩ := forall₂_exists (mapM_ok classified).flip among
  obtain ⟨taken, routed, rfl⟩ := classifyChange_ok hash one
  have from' := Plan.fromRouted_ok routed
  have sql : taken.sql = c.sql := from'.sql.trans (by rw [routeStatement_toPlan]; rfl)
  have below : (routeStatement (classify hash c.sql d.facts)).disposition.rank ≤
      (newReport hash d.schema d.table (some d.tableExists) d.submitted planned).disposition.rank :=
    le_route_disposition (List.mem_map_of_mem (List.mem_map_of_mem (List.mem_map_of_mem change)))
  rw [executes] at below
  refine ⟨?_, ?_, ?_⟩
  · show (routeStatement (classify hash taken.sql d.facts)).disposition = .execute
    rw [sql]
    exact Disposition.rank_injective (Nat.le_zero.mp below)
  · show taken.backend = (routeStatement (classify hash taken.sql d.facts)).backend
    rw [sql, from'.backend]
  · show taken.execSQL = (routeStatement (classify hash taken.sql d.facts)).execSQL
    rw [sql, from'.execSQL]

theorem rejectDesiredAcks_none {opts : Options} (none : rejectDesiredAcks opts = none) :
    opts.force = "" ∧ opts.acceptBlocking = "" := by
  unfold rejectDesiredAcks at none
  by_cases unforced : opts.force = ""
  · by_cases unaccepted : opts.acceptBlocking = ""
    · exact ⟨unforced, unaccepted⟩
    · rw [if_neg (fun forced => forced unforced), if_pos unaccepted] at none
      cases none
  · rw [if_pos unforced] at none
    cases none

/-- A rename of an index runs natively as written. -/
theorem renameIndex_routed (kind : (parseOne sql).kind = .renameIndex)
    (runs : (routeStatement (classify hash sql facts)).disposition = .execute) :
    (routeStatement (classify hash sql facts)).backend = some .native ∧
      (routeStatement (classify hash sql facts)).execSQL = [sql] := by
  obtain ⟨relationType, rel, subname, newname, rfl⟩ := parseOne_renameIndex kind
  have decided : ∃ d : Decision, d.saferSQL = [] ∧
      classify hash (.rename .index relationType rel subname newname) facts =
        { statement := .rename .index relationType rel subname newname, route := .native
          decisions := [d] } := ⟨_, rfl, rfl⟩
  obtain ⟨d, unsafer, classified⟩ := decided
  rw [classified] at runs ⊢
  unfold routeStatement nativeExecSQL at runs ⊢
  dsimp only at runs ⊢
  rw [if_neg (fun safer => safer unsafer)] at runs ⊢
  unfold nativeExecSQL.asSubmitted at runs ⊢
  by_cases all : ([d].all (·.executableAsSubmitted)) = true
  · rw [if_pos all]
    exact ⟨rfl, rfl⟩
  · rw [if_neg all] at runs
    cases runs

/-- What the fresh routing of a statement hands over is as planned exactly where the facts agree. -/
theorem handedOver_asPlanned {planFacts : Facts} {opts : Options} (unforced : opts.force = "")
    (planned : RoutedBy hash planFacts ps)
    (hands : HandedOver (parseOne ps.sql) (routeStatement (classify hash ps.sql facts)) opts b) :
    AsPlanned ps b ↔ FactsAgree ps.sql planFacts facts := by
  unfold AsPlanned
  cases hands with
  | copyAndSwap _ runs backend =>
    obtain ⟨-, native, -⟩ | ⟨-, -, none, -⟩ := routeStatement_runs runs
    · cases native.symm.trans backend
    rw [← routeStatement_agree_iff hash planned.runs runs, ← planned.backend, ← planned.execSQL,
      if_pos rfl, backend, none]
    refine ⟨fun as => ⟨as.2.1.symm, as.2.2.symm⟩, fun agree => ?_⟩
    exact ⟨parseOne_sql ps.sql, agree.1.symm, agree.2.symm⟩
  | native runs backend =>
    obtain ⟨-, native, -⟩ | ⟨-, copied, -⟩ := routeStatement_runs runs
    · rw [← routeStatement_agree_iff hash planned.runs runs, ← planned.backend, ← planned.execSQL,
        if_neg (fun path => by cases path), native]
      refine ⟨fun as => ⟨as.2.1.symm, as.2.2⟩, fun agree => ?_⟩
      exact ⟨parseOne_sql ps.sql, agree.1.symm, agree.2⟩
    · exact absurd copied backend
  | forced acknowledged _ => exact absurd unforced acknowledged

/-- **A planned statement is carried out as planned exactly where its fresh facts hold the
plan's.** -/
theorem drive_asPlanned {planFacts : Facts} {opts : Options} {adopts validates : Option String}
    {a : PipelineAnswers} (unforced : opts.force = "") (unaccepted : opts.acceptBlocking = "")
    (planned : RoutedBy hash planFacts ps)
    (began : (run hash (parseOne ps.sql) opts adopts validates a).began = some b) :
    AsPlanned ps b ↔ FactsHold ps planFacts a := by
  cases (run_hands hash _ _ _ _ _).began b began with
  | acceptedBlocking _ _ _ acknowledged _ => exact absurd unaccepted acknowledged
  | indexRename facts kind answered runs =>
    -- a rename runs as submitted from any facts
    have resolves : resolveTarget (parseOne ps.sql) a = .ok (parseOne ps.sql) := by
      obtain ⟨relationType, rel, subname, newname, same⟩ := parseOne_renameIndex kind
      rw [same]
      rfl
    rw [parseOne_sql] at runs ⊢
    obtain ⟨backend, steps⟩ := renameIndex_routed hash kind planned.runs
    obtain ⟨backend', steps'⟩ := renameIndex_routed hash kind runs
    have as : AsPlanned ps
        ⟨.indexRename, ps.sql, facts.schema ++ "." ++ facts.table, [ps.sql]⟩ := by
      unfold AsPlanned
      rw [if_neg (fun path => by cases path), planned.backend, planned.execSQL, backend, steps]
      exact ⟨rfl, rfl, rfl⟩
    refine ⟨fun _ => ⟨resolves, fun facts' answered' => ?_⟩, fun _ => as⟩
    obtain rfl := Except.ok.inj (answered.symm.trans answered')
    exact (routeStatement_agree_iff hash planned.runs runs).mp
      ⟨backend'.trans backend.symm, steps'.trans steps.symm⟩
  | routed resolved facts _ _ resolves answered _ hands =>
    constructor
    · intro as
      have statement : resolved.sql = ps.sql := by
        rw [← as.1]
        cases hands <;> rfl
      have same : resolved = parseOne ps.sql := by
        obtain rfl | ⟨_, sql', _, rfl⟩ := resolveTarget_ok resolves
        · rfl
        · rw [parseOne_sql] at statement
          rw [statement]
      subst same
      rw [parseOne_sql] at hands
      refine ⟨resolves, fun facts' answered' => ?_⟩
      obtain rfl := Except.ok.inj (answered.symm.trans answered')
      exact (handedOver_asPlanned hash unforced planned hands).mp as
    · rintro ⟨itself, agree⟩
      obtain rfl := Except.ok.inj (itself.symm.trans resolves)
      rw [parseOne_sql] at hands
      exact (handedOver_asPlanned hash unforced planned hands).mpr (agree facts answered)

/-- **The pinned plan and what executes.** A statement a desired-state run hands over is the one of
the admitted plan at its position, and it is carried out as planned exactly where it still resolves
to itself and the facts read at its turn agree with the plan's on the columns it rewrites and the
constraint it names. -/
theorem handed_as_planned_iff (expectedFingerprint : String) (opts : Options) (c : CreateOptions)
    (a : DesiredAnswers) (derivation : Derivation) (derives : a.plan = .ok derivation)
    (report : Report) (plans : diffPlan hash fingerprint derivation = .ok report) (i : Nat)
    (d : Driven)
    (attempted : (runDesired hash fingerprint sqlText expectedFingerprint opts c a).attempts[i]? =
      some d) :
    Plan.pinAdmits expectedFingerprint report.fingerprint = true ∧
      ∃ ps, report.statements[i]? = some ps ∧ ∀ b, d.began = some b →
        (AsPlanned ps b ↔ FactsHold ps derivation.facts (a.pipeline i)) := by
  have some : (runDesired hash fingerprint sqlText expectedFingerprint opts c a).attempts ≠ [] := by
    intro none
    rw [none] at attempted
    cases attempted
  obtain ⟨none, -⟩ | ⟨report', plans', unrejected, admitted, none | ⟨existing, loops⟩⟩ :=
    runDesired_cases hash fingerprint sqlText expectedFingerprint opts c a
  · exact absurd none some
  · exact absurd none some
  rw [derives, planned_ok, plans] at plans'
  obtain rfl := Except.ok.inj plans'
  obtain ⟨unforced, unaccepted⟩ := rejectDesiredAcks_none unrejected
  obtain ⟨pinned, -, executes⟩ := admitPlan_none sqlText admitted
  rw [loops] at attempted
  obtain ⟨ps, planned, rfl⟩ := (statementLoop_spec hash opts a.pipeline report.statements.length
    report.statements 0).attempts i d attempted
  refine ⟨pinned, ps, planned, fun b began => ?_⟩
  unfold drive at began
  rw [Nat.zero_add] at began
  have routed := diffPlan_routedBy hash fingerprint plans existing executes
    (List.mem_of_getElem? planned)
  exact drive_asPlanned hash unforced unaccepted routed began

end Destructive

/-! ### Runs on one table -/

/-- A run of changes to the table orders, planned from some facts and run on others. -/
def ordersRun (changes : List Change) (facts atTurn : Facts) : DesiredAnswers where
  plan := .ok { schema := "public", table := "orders", changes, facts }
  create :=
    { absent := .absent, privileges := .ownerNotFound, admission := .ok ([], [])
      create :=
        { step := fun _ => { attempt := fun _ => {}, sleep := fun _ => none }
          ownedNames := .ok ⟨[], []⟩, owner := .ok "" } }
  pipeline _ := { facts := .ok { schema := "public", table := "orders", classifier := atTurn } }
  again := .ok { schema := "public", table := "orders", changes := [] }

def ordersOptions : Options where
  maxTableSizeBytes := 1
  copySwap := { enabled := true, connection := "postgres:///orders" }

def ordersCreate : CreateOptions where
  mismatchText _ := ""
  errorText _ := ""
  createOwner := ""
  budget := ⟨"1s", "1s"⟩
  maxAttempts := 1

/-- ALTER TABLE public.orders ALTER COLUMN note DROP DEFAULT. -/
def dropDefaultNote : Change where
  sql := .alterTable .table { schemaname := "public", relname := "orders" }
    [.columnDefault "note" none]
  kind := .dropDefault

/-- ALTER TABLE public.orders ALTER COLUMN note TYPE text. -/
def retypeNote : Change where
  sql := .alterTable .table { schemaname := "public", relname := "orders" }
    [.alterColumnType "note" { colname := "note", typeName := { names := ["text"] } }]
  kind := .alterType

/-- ALTER TABLE public.orders DROP COLUMN note. -/
def dropNote : Change where
  sql := .alterTable .table { schemaname := "public", relname := "orders" }
    [.dropColumn "note" false]
  kind := .dropColumn

/-- The dropped column is handed over under the acknowledgement of its table, and a desired-state
run hands over nothing of a plan with it. -/
theorem dropNote_acknowledged :
    (run id (parseOne dropNote.sql)
      { ordersOptions with allowDestructive := "public.orders" } none none
      ((ordersRun [dropNote] {} {}).pipeline 0)).began =
        some ⟨.native, dropNote.sql, "public.orders", [dropNote.sql]⟩ ∧
      resolvedTable (parseOne dropNote.sql) ((ordersRun [dropNote] {} {}).pipeline 0) .native =
        .ok "public.orders" ∧
      (runDesired id (fun _ => "pinned") (fun _ => "") "" ordersOptions ordersCreate
        (ordersRun [dropNote] {} {})).attempts = [] := by
  have began : (run id (parseOne dropNote.sql)
      { ordersOptions with allowDestructive := "public.orders" } none none
      ((ordersRun [dropNote] {} {}).pipeline 0)).began =
        some ⟨.native, dropNote.sql, "public.orders", [dropNote.sql]⟩ := by
    decide +kernel
  have discarded : discards id dropNote.sql {} = true := by decide +kernel
  obtain ⟨acknowledged, planned⟩ := destructive_acknowledged id (fun _ => "pinned") (fun _ => "")
  refine ⟨began, (acknowledged _ _ _ _ _ _ began (.inl ⟨_, discarded⟩)).1, ?_⟩
  exact (planned "" ordersOptions ordersCreate (ordersRun [dropNote] {} {}) _ rfl
    ⟨dropNote, List.mem_singleton_self _, _, discarded⟩).1

/-- The run of a dropped default says exactly what happened. -/
theorem dropDefaultNote_exact : ∃ report result,
    planned id (fun _ => "pinned") (ordersRun [dropDefaultNote] {} {}).plan = .ok report ∧
      report.tableExists ≠ some false ∧
      ExactResult id (fun _ => "pinned") ordersOptions (ordersRun [dropDefaultNote] {} {}) report
        (runDesired id (fun _ => "pinned") (fun _ => "") "pinned" ordersOptions ordersCreate
          (ordersRun [dropDefaultNote] {} {})) result := by
  obtain ⟨report, plans, existing⟩ := toOption_map_eq_some.mp (by decide +kernel :
    (planned id (fun _ => "pinned") (ordersRun [dropDefaultNote] {} {}).plan).toOption.map
      (·.tableExists) = some (some true))
  obtain ⟨result, found, _⟩ := Option.map_eq_some_iff.mp (by decide +kernel :
    (runDesired id (fun _ => "pinned") (fun _ => "") "pinned" ordersOptions ordersCreate
      (ordersRun [dropDefaultNote] {} {})).result.map (·.outcome) = some .executed)
  have present : report.tableExists ≠ some false := by
    rw [existing]
    decide
  exact ⟨report, result, plans, present,
    desired_result_exact (fun _ => "") "pinned" ordersCreate plans present found⟩

/-- An empty plan has nothing left to commit, and no convergence is recorded. -/
theorem emptyPlan_unverified : ∃ report result,
    planned id (fun _ => "") (ordersRun [] {} {}).plan = .ok report ∧
      (runDesired id (fun _ => "") (fun _ => "") "" ordersOptions ordersCreate
        (ordersRun [] {} {})).result = some result ∧
      AllCommitted report (runDesired id (fun _ => "") (fun _ => "") "" ordersOptions ordersCreate
        (ordersRun [] {} {})) ∧
      result.convergence = none := by
  refine ⟨_, _, rfl, rfl, ⟨rfl, ?_⟩, rfl⟩
  intro d among
  cases among

/-- The dropped default as it is handed over. -/
def dropDefaultNoteBegan : Began :=
  ⟨.native, dropDefaultNote.sql, "public.orders", [dropDefaultNote.sql]⟩

/-- The dropped default is handed over, and as it was planned. -/
theorem dropDefaultNote_handed : ∃ derivation report d ps,
    (ordersRun [dropDefaultNote] {} {}).plan = .ok derivation ∧
      diffPlan id (fun _ => "pinned") derivation = .ok report ∧
      (runDesired id (fun _ => "pinned") (fun _ => "") "pinned" ordersOptions ordersCreate
        (ordersRun [dropDefaultNote] {} {})).attempts[0]? = some d ∧
      Plan.pinAdmits "pinned" report.fingerprint = true ∧ report.statements[0]? = some ps ∧
      d.began = some dropDefaultNoteBegan ∧ AsPlanned ps dropDefaultNoteBegan := by
  obtain ⟨report, plans, statements⟩ := toOption_map_eq_some.mp (by decide +kernel :
    (diffPlan id (fun _ => "pinned")
      { schema := "public", table := "orders", changes := [dropDefaultNote] }).toOption.map
        (fun report => report.statements.map (·.sql)) = some [dropDefaultNote.sql])
  obtain ⟨d, found, began⟩ := Option.bind_eq_some_iff.mp (by decide +kernel :
    ((runDesired id (fun _ => "pinned") (fun _ => "") "pinned" ordersOptions ordersCreate
      (ordersRun [dropDefaultNote] {} {})).attempts[0]?).bind (·.began) = some dropDefaultNoteBegan)
  obtain ⟨pinned, ps, here, handed⟩ := handed_as_planned_iff id (fun _ => "pinned") (fun _ => "")
    "pinned" ordersOptions ordersCreate (ordersRun [dropDefaultNote] {} {}) _ rfl report
      plans 0 d found
  have sql : ps.sql = dropDefaultNote.sql := by
    have first := congrArg (·[0]?) statements
    rw [List.getElem?_map, here] at first
    exact Option.some.inj first
  refine ⟨_, report, d, ps, rfl, plans, found, pinned, here, began, (handed _ began).mpr ?_⟩
  unfold FactsHold
  rw [sql]
  refine ⟨rfl, fun facts answered => ?_⟩
  obtain rfl := Except.ok.inj answered
  exact ⟨rfl, fun _ _ _ => rfl⟩

/-! ### A plan that facts overtake -/

/-- The column is read as a text of any length when the plan is made. -/
def varcharNote : Facts := { columnTypes := some [("note", "character varying")] }

/-- And as a number at the statement's turn. -/
def integerNote : Facts := { columnTypes := some [("note", "integer")] }

/-- **A pinned plan that is not the one that executes**: a change planned in place, under the pinned
fingerprint, is carried out through a shadow table because another session retyped the column
first. -/
theorem pinnedPlan_rerouted :
    ∃ report d b,
    planned id (fun _ => "pinned")
      (ordersRun [retypeNote] varcharNote integerNote).plan = .ok report ∧
      report.fingerprint = "pinned" ∧
      (runDesired id (fun _ => "pinned") (fun _ => "") "pinned" ordersOptions ordersCreate
        (ordersRun [retypeNote] varcharNote integerNote)).attempts[0]? = some d ∧
      d.began = some b ∧ b.path = .copyAndSwap ∧
      report.statements.map (fun ps => (ps.sql, ps.backend, ps.execSQL)) =
        [(retypeNote.sql, some .native, [retypeNote.sql])] := by
  obtain ⟨report, plans, pinned⟩ := toOption_map_eq_some.mp (by decide +kernel :
    (planned id (fun _ => "pinned")
      (ordersRun [retypeNote] varcharNote integerNote).plan).toOption.map (fun report =>
        (report.fingerprint, report.statements.map fun ps => (ps.sql, ps.backend, ps.execSQL))) =
      some ("pinned", [(retypeNote.sql, some .native, [retypeNote.sql])]))
  obtain ⟨b, began, path⟩ := Option.map_eq_some_iff.mp (by decide +kernel :
    ((runDesired id (fun _ => "pinned") (fun _ => "") "pinned" ordersOptions ordersCreate
      (ordersRun [retypeNote] varcharNote integerNote)).attempts[0]?.bind (·.began)).map (·.path) =
      some .copyAndSwap)
  obtain ⟨d, attempted, began⟩ := Option.bind_eq_some_iff.mp began
  rw [Prod.mk.injEq] at pinned
  exact ⟨report, d, b, plans, pinned.1, attempted, began, path, pinned.2⟩

end PgSprite.Migrate
