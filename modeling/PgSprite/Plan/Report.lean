/-
**The plan report.**

A report is built from routed statements and then amended by mutators that refuse some of its
statements or disclose how a new table's are built. Its fields keep a contract: what a statement
carries follows from its disposition. Every mutator that refuses a statement withdraws its execution
advice in one place, which leaves the manual path of a statement that was to be rewritten where it
was.

* `fromRouted_contract` — a statement of a routed plan keeps the contract;
* `contract_iff` — the contract is kept exactly when no mutator refuses a rewrite-required
  statement;
* `refusedRewrite_keeps_guidance` — one that does.
-/

import PgSprite.Lib.Except
import PgSprite.Plan.Fingerprint

namespace PgSprite.Plan

open PgSprite.Planner PgSprite.Verdict
open PgSprite.Statement (Node Op OpKind ConstraintKind parseOps)

/-! ### Guidance -/

/-- The manual path of an operation, or why there is none. Several operations are split first. -/
def manualGuidance (op : Op) (multi : Bool) : Except String Guidance :=
  if multi then .ok .splitStatement
  else
    match op.kind with
    | .renameColumn => .ok .expandContractColumn
    | .renameTable => .ok .coordinatedTableRename
    | .renameIndex => .ok .coordinatedConstraintRename
    | .addColumn => .ok .addColumnThenConstraint
    | .attachPartition => .ok .prevalidatedCheck
    | .addConstraint =>
      match op.constraint with
      | .notNull => .ok .notNullScaffold
      | .check | .foreignKey => .ok .nameConstraintThenValidate
      | .primaryKey | .unique => .ok .uniqueIndexThenConstraint
      | _ => noGuidance
    | _ => noGuidance
where
  noGuidance : Except String Guidance :=
    .error ("no guidance mapping for non-constructible operation " ++ op.describe.quote)

/-- The manual path of a rewrite-required statement, from its first decision that is not executable
as submitted. -/
def rewriteRequiredGuidance (rs : RoutedStatement) : Except String Guidance :=
  let ops := parseOps rs.statement
  if ops.length ≠ rs.decisions.length then
    .error s!"planner produced {rs.decisions.length} decisions for {ops.length} operations"
  else
    match (ops.zip rs.decisions).find? fun pair => !pair.2.executableAsSubmitted with
    | some (op, _) => manualGuidance op (1 < ops.length)
    | none => .error "rewrite-required statement has no decision that needs a rewrite"

/-! ### Refusals of a plan -/

def routeRefusal : Refusal := .capabilityBoundary .unsupportedStatement

def foreignKeyChangeRefusal : Refusal := .capabilityBoundary .declarativeForeignKey

def destructiveChangeRefusal : Refusal := .byDesign .destructiveChange

/-- The refusal of a create shape; none for a cause this build does not name. -/
def createShapeRefusal : CreateShapeCause → Option Refusal
  | .partitionOf | .inherits | .like | .ofType | .unsupportedKind =>
    some (.capabilityBoundary .unsupportedStatement)
  | .foreignKey => some foreignKeyChangeRefusal
  | .ifNotExists | .duplicateName | .concurrently => some (.byDesign .unsupportedStatement)
  | .multipleOperations => some (.invariantViolation .unsupportedStatement)
  | .other _ => none

/-- Why the steps of a statement are not run on a partitioned parent. -/
inductive PartitionRefusalCause where
  | concurrentIndexBuild
  | blockingIndexBuild
  | indexAdoption
  | notValidForeignKey
  /-- A cause this build does not name. -/
  | other (token : String)
  deriving DecidableEq, Repr

def PartitionRefusalCause.token : PartitionRefusalCause → String
  | concurrentIndexBuild => "parent-concurrent-index-build"
  | blockingIndexBuild => "parent-blocking-index-build"
  | indexAdoption => "parent-index-adoption"
  | notValidForeignKey => "parent-not-valid-foreign-key"
  | other token => token

def partitionRefusal : PartitionRefusalCause → Option Refusal
  | .concurrentIndexBuild =>
    some ((Refusal.capabilityBoundary .unsupportedPartitionedParent).withCause
      .parentConcurrentIndexBuild)
  | .blockingIndexBuild =>
    some ((Refusal.capabilityBoundary .unsupportedPartitionedParent).withCause
      .parentBlockingIndexBuild)
  | .indexAdoption =>
    some ((Refusal.byDesign .unsupportedPartitionedParent).withCause .parentIndexAdoption)
  | .notValidForeignKey =>
    some ((Refusal.environmental .unsupportedPartitionedParent).withCause
      .parentNotValidForeignKey)
  | .other _ => none

/-! ### Reports -/

/-- The plan for one change against one table. -/
structure Report where
  schema : String := ""
  table : String := ""
  tableExists : Option Bool := none
  disposition : Disposition
  reason : Option Verdict.Reason := none
  refusalClass : Option Verdict.Class := none
  owner : Option Owner := none
  fingerprint : String := ""
  statements : List PlannedStatement

/-- The planned form of a routed statement. -/
def fromRouted (rs : RoutedStatement) : Except String PlannedStatement := do
  let st : PlannedStatement :=
    { sql := rs.statement, route := rs.route, backend := rs.backend, disposition := rs.disposition
      decisions := rs.decisions, execSQL := rs.execSQL
      execution := if rs.execSQL = [] then none else some .autocommit
      destructive := rs.decisions.any (·.destructive) }
  let st : PlannedStatement :=
    if rs.disposition = .refuse then
      { st with
        reason := some routeRefusal.reason, refusalClass := some routeRefusal.refusalClass
        owner := routeRefusal.owner
        blockingPassthroughEligible := some (acceptedBlockingEligible routeRefusal) }
    else st
  if rs.disposition = .rewriteRequired then
    let guidance ← rewriteRequiredGuidance rs
    return { st with guidance := some guidance }
  else return st

/-! ### Mutators -/

/-- A statement without the planner's online rewrites. -/
def withdrawSaferAdvice (st : PlannedStatement) : PlannedStatement :=
  { st with
    decisions := st.decisions.map fun d => { d with saferSQL := [], saferSQLExecution := none } }

/-- A refusal of a statement, with the create path's cause where it is the create path's. -/
abbrev Refused := Refusal × Option CreateShapeCause

/-- A statement refused: its first refusal is the one it keeps. -/
def refuseStatement (st : PlannedStatement) (r : Refused) : PlannedStatement :=
  let st' : PlannedStatement :=
    if st.disposition = .refuse then st
    else
      { st with
        reason := some r.1.reason, refusalClass := some r.1.refusalClass, owner := r.1.owner
        cause := r.2, blockingPassthroughEligible := some (acceptedBlockingEligible r.1) }
  withdrawSaferAdvice
    { st' with backend := none, disposition := .refuse, execSQL := [], execution := none }

/-- A report with the first refusal of its statements, unless it is already refused. -/
def stampReport (report : Report) : Option Refused → Report
  | none => report
  | some (r, _) =>
    if report.disposition = .refuse then report
    else
      { report with
        reason := some r.reason, refusalClass := some r.refusalClass, owner := r.owner
        disposition := .refuse }

/-- Refuses each statement the selector names a refusal for. -/
def refuseStatements (report : Report) (refused : Nat → Option Refused) : Report :=
  { stampReport report ((List.range report.statements.length).findSome? refused) with
    statements := report.statements.mapIdx fun i st =>
      match refused i with
      | none => st
      | some r => refuseStatement st r }

/-- The refusals of the foreign-key changes among the statements. -/
def foreignKeyRefusals (statements : List PlannedStatement) (i : Nat) : Option Refused :=
  if (statements[i]?.bind (·.kind)).any (·.isForeignKey) then some (foreignKeyChangeRefusal, none)
  else none

def refuseForeignKeyChanges (report : Report) : Report :=
  refuseStatements report (foreignKeyRefusals report.statements)

/-- The refusal of each cause, in order from a position on, or the first one not classified. -/
def classifyCauses {γ : Type} (what : String) (classify : γ → Except String Refused) :
    Nat → List (Option γ) → Except String (List (Option Refused))
  | _, [] => .ok []
  | i, none :: rest => do
      let refusals ← classifyCauses what classify (i + 1) rest
      return none :: refusals
  | i, some cause :: rest =>
    match classify cause with
    | .error problem =>
      .error s!"invariant violation: {what}: planned statement {i + 1} {problem}"
    | .ok r => do
        let refusals ← classifyCauses what classify (i + 1) rest
        return some r :: refusals

/-- The refusals a mutator was given for the statements, one for each. -/
def positionalRefusals {γ : Type} (what noun : String) (classify : γ → Except String Refused)
    (n : Nat) (causes : List (Option γ)) : Except String (Nat → Option Refused) :=
  if causes.length ≠ n then .error s!"{what}: {causes.length} {noun} for {n} planned statements"
  else (classifyCauses what classify 0 causes).map fun refusals i => refusals[i]?.join

/-- An error of the create path's shape check, with the cause it carries, if any. -/
structure ShapeError where
  text : String
  cause : Option CreateShapeCause
  deriving DecidableEq, Repr

def createShapeRefused (e : ShapeError) : Except String Refused :=
  match e.cause with
  | none => .error ("is refused without a create-shape cause: " ++ e.text)
  | some cause =>
    match createShapeRefusal cause with
    | some r => .ok (r, some cause)
    | none => .error ("carries unclassified cause " ++ cause.token.quote)

def partitionRefused (cause : PartitionRefusalCause) : Except String Refused :=
  match partitionRefusal cause with
  | some r => .ok (r, none)
  | none => .error ("carries unclassified cause " ++ cause.token.quote)

/-- The report amended by the refusals, or as it was with an error. -/
def refusing (report : Report) :
    Except String (Nat → Option Refused) → Report × Option String
  | .error e => (report, some e)
  | .ok refused => (refuseStatements report refused, none)

def refuseUnsupportedCreateShape (report : Report)
    (refused : List (Option ShapeError)) : Report × Option String :=
  refusing report (positionalRefusals "refuse create shapes" "refusals" createShapeRefused
    report.statements.length refused)

def refuseUnsupportedPartitionedParent (report : Report)
    (causes : List (Option PartitionRefusalCause)) : Report × Option String :=
  refusing report (positionalRefusals "refuse partitioned parent" "causes" partitionRefused
    report.statements.length causes)

/-- An executable statement as the plain build of a table born in the run. -/
def discloseStatement (st : PlannedStatement) : PlannedStatement :=
  if st.disposition = .execute then
    let st := withdrawSaferAdvice { st with execSQL := [st.sql], execution := some .autocommit }
    { st with
      decisions := st.decisions.map fun d =>
        if d.reason = .saferIdiom then { d with reason := .metadataOnly } else d }
  else st

def discloseGreenfieldExecution (report : Report) : Report :=
  if report.tableExists = some false then
    { report with statements := report.statements.map discloseStatement }
  else report

section Mutators

variable (fingerprint : List PlannedStatement → String)

/-- Whether the plan discards live data or structure anywhere. -/
def planDestructive (statements : List PlannedStatement) : Bool := statements.any (·.destructive)

def refuseDestructive (report : Report) : Report :=
  if planDestructive report.statements then
    let report := refuseStatements report fun _ => some (destructiveChangeRefusal, none)
    { report with
      reason := some destructiveChangeRefusal.reason
      refusalClass := some destructiveChangeRefusal.refusalClass
      owner := destructiveChangeRefusal.owner
      fingerprint := fingerprint report.statements }
  else report

/-- What a report is amended by. -/
inductive Mutator where
  | refuseForeignKeyChanges
  | refuseUnsupportedCreateShape (refused : List (Option ShapeError))
  | refuseUnsupportedPartitionedParent (causes : List (Option PartitionRefusalCause))
  | discloseGreenfieldExecution
  | refuseDestructive
  deriving DecidableEq, Repr

/-- The amended report, and the error of a mutator that failed. -/
def Mutator.apply (report : Report) : Mutator → Report × Option String
  | .refuseForeignKeyChanges => (Plan.refuseForeignKeyChanges report, none)
  | .refuseUnsupportedCreateShape refused => Plan.refuseUnsupportedCreateShape report refused
  | .refuseUnsupportedPartitionedParent causes =>
    Plan.refuseUnsupportedPartitionedParent report causes
  | .discloseGreenfieldExecution => (Plan.discloseGreenfieldExecution report, none)
  | .refuseDestructive => (Plan.refuseDestructive fingerprint report, none)

/-- The report after a sequence of mutators. -/
def applyAll (ms : List Mutator) (report : Report) : Report :=
  ms.foldl (fun report m => (m.apply fingerprint report).1) report

/-- The refusals a mutator makes among the statements of a plan. -/
def Mutator.refusals (statements : List PlannedStatement) : Mutator → Nat → Option Refused
  | .refuseForeignKeyChanges => foreignKeyRefusals statements
  | .refuseUnsupportedCreateShape refused =>
    ((positionalRefusals "refuse create shapes" "refusals" createShapeRefused
      statements.length refused).toOption).getD fun _ => none
  | .refuseUnsupportedPartitionedParent causes =>
    ((positionalRefusals "refuse partitioned parent" "causes" partitionRefused
      statements.length causes).toOption).getD fun _ => none
  | .discloseGreenfieldExecution => fun _ => none
  | .refuseDestructive => fun _ =>
    if planDestructive statements then some (destructiveChangeRefusal, none) else none

end Mutators

/-! ### The contract of one statement -/

/-- What a statement carries follows from its disposition, but for its guidance. -/
structure FieldContract (st : PlannedStatement) : Prop where
  execution : st.execution.isSome = true ↔ st.execSQL ≠ []
  reason : st.reason.isSome = true ↔ st.disposition = .refuse
  refusalClass : st.refusalClass.isSome = true ↔ st.disposition = .refuse
  eligible : st.blockingPassthroughEligible.isSome = true ↔ st.disposition = .refuse
  withdrawn : st.disposition = .refuse →
    st.backend = none ∧ st.execSQL = [] ∧ ∀ d ∈ st.decisions, d.saferSQL = []

/-- What a statement carries follows from its disposition. -/
structure StatementContract (st : PlannedStatement) : Prop extends FieldContract st where
  guidance : st.guidance.isSome = true ↔ st.disposition = .rewriteRequired

/-- What a refused statement says of its refusal. -/
def refusalOf (st : PlannedStatement) :
    Option Verdict.Reason × Option Verdict.Class × Option Owner × Option CreateShapeCause :=
  (st.reason, st.refusalClass, st.owner, st.cause)

theorem withdrawSaferAdvice_saferSQL (st : PlannedStatement) :
    ∀ d ∈ (withdrawSaferAdvice st).decisions, d.saferSQL = [] := by
  intro d among
  obtain ⟨_, _, rfl⟩ := List.mem_map.mp among
  rfl

theorem refuseStatement_guidance (st : PlannedStatement) (r : Refused) :
    (refuseStatement st r).guidance = st.guidance := by
  unfold refuseStatement withdrawSaferAdvice
  dsimp only
  split <;> rfl

variable {st : PlannedStatement}

/-- A refused statement keeps the contract, whether it was refused before or not. -/
theorem refuseStatement_fieldContract (before : FieldContract st) (r : Refused) :
    FieldContract (refuseStatement st r) := by
  unfold refuseStatement
  by_cases already : st.disposition = .refuse
  · rw [if_pos already]
    exact ⟨by simp [withdrawSaferAdvice], ⟨fun _ => rfl, fun _ => before.reason.mpr already⟩,
      ⟨fun _ => rfl, fun _ => before.refusalClass.mpr already⟩,
      ⟨fun _ => rfl, fun _ => before.eligible.mpr already⟩,
      fun _ => ⟨rfl, rfl, withdrawSaferAdvice_saferSQL _⟩⟩
  · rw [if_neg already]
    exact ⟨by simp [withdrawSaferAdvice], iff_of_true rfl rfl, iff_of_true rfl rfl,
      iff_of_true rfl rfl, fun _ => ⟨rfl, rfl, withdrawSaferAdvice_saferSQL _⟩⟩

/-- The first refusal stands. -/
theorem refuseStatement_kept (already : st.disposition = .refuse) (r : Refused) :
    refusalOf (refuseStatement st r) = refusalOf st := by
  unfold refuseStatement
  rw [if_pos already]
  rfl

theorem discloseStatement_disposition (st : PlannedStatement) :
    (discloseStatement st).disposition = st.disposition := by
  unfold discloseStatement
  split <;> rfl

theorem discloseStatement_guidance (st : PlannedStatement) :
    (discloseStatement st).guidance = st.guidance := by
  unfold discloseStatement
  split <;> rfl

theorem discloseStatement_of_refused (refused : st.disposition = .refuse) :
    discloseStatement st = st := by
  unfold discloseStatement
  rw [if_neg (by rw [refused]; decide)]

theorem discloseStatement_fieldContract (before : FieldContract st) :
    FieldContract (discloseStatement st) := by
  unfold discloseStatement
  by_cases runs : st.disposition = .execute
  · rw [if_pos runs]
    have unrefused : st.disposition ≠ .refuse := by rw [runs]; decide
    exact { before with
      execution := ⟨fun _ => List.cons_ne_nil _ _, fun _ => rfl⟩
      withdrawn := fun refused => absurd refused unrefused }
  · rw [if_neg runs]
    exact before

/-! ### What a routed plan starts with -/

section Routed

variable (hash : String → String)

/-- What a planned statement takes from the routed one it is made of. -/
structure TakenFrom (rs : RoutedStatement) (st : PlannedStatement) : Prop where
  sql : st.sql = rs.statement
  kind : st.kind = none
  disposition : st.disposition = rs.disposition
  backend : st.backend = rs.backend
  execSQL : st.execSQL = rs.execSQL
  decisions : st.decisions = rs.decisions
  destructive : st.destructive = rs.decisions.any (·.destructive)
  guidance : st.guidance.isSome = true ↔ rs.disposition = .rewriteRequired
  execution : st.execution.isSome = true ↔ rs.execSQL ≠ []
  reason : st.reason.isSome = true ↔ rs.disposition = .refuse
  refusalClass : st.refusalClass.isSome = true ↔ rs.disposition = .refuse
  eligible : st.blockingPassthroughEligible.isSome = true ↔ rs.disposition = .refuse

/-- A statement planned from a routed one carries what was routed. -/
theorem fromRouted_ok {rs : RoutedStatement} (ok : fromRouted rs = .ok st) : TakenFrom rs st := by
  unfold fromRouted at ok
  have execution : ((if rs.execSQL = [] then none else some Execution.autocommit).isSome = true) ↔
      rs.execSQL ≠ [] := by
    by_cases none : rs.execSQL = []
    · simp [none]
    · simp [none]
  cases disposition : rs.disposition with
  | execute | unavailable | refuse =>
    simp only [disposition, reduceCtorEq, if_false, if_true] at ok
    cases ok
    exact ⟨rfl, rfl, disposition.symm, rfl, rfl, rfl, rfl, by simp [disposition], execution,
      by simp [disposition], by simp [disposition], by simp [disposition]⟩
  | rewriteRequired =>
    simp only [disposition, reduceCtorEq, if_false, if_true] at ok
    obtain ⟨g, -, rfl⟩ := Lib.map_ok.mp ok
    exact ⟨rfl, rfl, disposition.symm, rfl, rfl, rfl, rfl, by simp [disposition], execution,
      by simp [disposition], by simp [disposition], by simp [disposition]⟩

/-- **A planned statement of a classified one keeps the contract.** -/
theorem fromRouted_contract {sql : Node} {facts : Facts}
    (ok : fromRouted (routeStatement (classify hash sql facts)) = .ok st) :
    StatementContract st := by
  have taken := fromRouted_ok ok
  refine ⟨⟨by rw [taken.execution, taken.execSQL], by rw [taken.reason, taken.disposition],
    by rw [taken.refusalClass, taken.disposition], by rw [taken.eligible, taken.disposition],
    fun refused => ?_⟩, by rw [taken.guidance, taken.disposition]⟩
  rw [taken.disposition] at refused
  obtain ⟨route, noBackend, noSQL⟩ := routeStatement_refuse refused
  refine ⟨by rw [taken.backend, noBackend], by rw [taken.execSQL, noSQL], fun d among => ?_⟩
  -- A statement with a safer sequence has the native route, so a refused one has none.
  rw [taken.decisions, routeStatement_toPlan] at among
  by_contra safer
  have native := (classify_saferSQL hash among safer).2
  rw [route] at native
  cases native

/-- A statement with the facts it is classified from and the class of its change. -/
structure Submitted where
  sql : Node
  facts : Facts
  kind : Option ChangeKind

/-- The routed statements of what is submitted, and their aggregate disposition. -/
def routeSubmitted (submitted : List Submitted) : List RoutedStatement × Disposition :=
  route (submitted.map fun s => classify hash s.sql s.facts)

/-- The planned statements of what is submitted. -/
def planSubmitted (submitted : List Submitted) : Except String (List PlannedStatement) :=
  submitted.mapM fun s => do
    let st ← fromRouted (routeStatement (classify hash s.sql s.facts))
    return { st with kind := s.kind }

/-- The report of planned statements, before any mutator. -/
def newReport (schema table : String) (tableExists : Option Bool) (submitted : List Submitted)
    (planned : List PlannedStatement) : Report where
  schema := schema
  table := table
  tableExists := tableExists
  disposition := (routeSubmitted hash submitted).2
  statements := planned

end Routed

/-! ### What a mutator does -/

section Mutators

variable (fingerprint : List PlannedStatement → String)

/-- What a mutator's refusals read of a statement, which no mutator changes. -/
def mark (st : PlannedStatement) : Option ChangeKind × Bool := (st.kind, st.destructive)

theorem mark_refuseStatement (st : PlannedStatement) (r : Refused) :
    mark (refuseStatement st r) = mark st := by
  unfold refuseStatement withdrawSaferAdvice mark
  dsimp only
  split <;> rfl

theorem mark_discloseStatement (st : PlannedStatement) :
    mark (discloseStatement st) = mark st := by
  unfold discloseStatement
  split <;> rfl

/-- Statements of the same marks get the same refusals. -/
theorem refusals_congr {ss ts : List PlannedStatement} (same : ss.map mark = ts.map mark)
    (m : Mutator) : m.refusals ss = m.refusals ts := by
  have length : ss.length = ts.length := by
    rw [← List.length_map mark, same, List.length_map]
  cases m with
  | refuseForeignKeyChanges =>
    funext i
    have kinds : ∀ us : List PlannedStatement,
        (us[i]?.bind (·.kind)) = ((us.map mark)[i]?.bind (·.1)) := by
      intro us
      rw [List.getElem?_map]
      cases us[i]? <;> rfl
    show foreignKeyRefusals ss i = foreignKeyRefusals ts i
    unfold foreignKeyRefusals
    rw [kinds ss, kinds ts, same]
  | refuseUnsupportedCreateShape _ | refuseUnsupportedPartitionedParent _ =>
    rw [Mutator.refusals, length, ← Mutator.refusals]
  | discloseGreenfieldExecution => rfl
  | refuseDestructive =>
    have flags : ∀ us : List PlannedStatement, planDestructive us = (us.map mark).any (·.2) := by
      intro us
      rw [List.any_map]
      rfl
    show Mutator.refusals ss _ = _
    unfold Mutator.refusals
    rw [flags ss, flags ts, same]

/-- What a mutator does to a statement it refuses with `r`, or does not refuse. -/
def Mutator.onStatement (m : Mutator) (tableExists : Option Bool) (r : Option Refused)
    (st : PlannedStatement) : PlannedStatement :=
  match r with
  | some r => refuseStatement st r
  | none =>
    if m = .discloseGreenfieldExecution ∧ tableExists = some false then discloseStatement st
    else st

variable {m : Mutator}

theorem refuseStatements_statements (report : Report) (refused : Nat → Option Refused)
    (refuses : m ≠ .discloseGreenfieldExecution) :
    (refuseStatements report refused).statements = report.statements.mapIdx fun i st =>
      m.onStatement report.tableExists (refused i) st := by
  unfold refuseStatements
  dsimp only
  congr 1
  funext i st
  unfold Mutator.onStatement
  cases refused i with
  | none => rw [if_neg fun both => refuses both.1]
  | some r => rfl

theorem mapIdx_same (m : Mutator) (exists_ : Option Bool) {ss : List PlannedStatement}
    (refuses : m ≠ .discloseGreenfieldExecution) :
    (ss.mapIdx fun _ st => m.onStatement exists_ none st) = ss := by
  have each : (fun (_ : Nat) (st : PlannedStatement) => m.onStatement exists_ none st) =
      fun _ st => st := by
    funext i st
    unfold Mutator.onStatement
    exact if_neg fun both => refuses both.1
  rw [each]
  exact List.ext_getElem? fun i => by simp

theorem refusing_statements (report : Report) (refuses : m ≠ .discloseGreenfieldExecution)
    (selected : Except String (Nat → Option Refused)) :
    (refusing report selected).1.statements = report.statements.mapIdx fun i st =>
      m.onStatement report.tableExists ((selected.toOption.getD fun _ => none) i) st := by
  cases selected with
  | error e => exact (mapIdx_same m report.tableExists refuses).symm
  | ok refused => exact refuseStatements_statements report refused refuses

/-- **What a mutator does to the statements**: each is refused where the mutator refuses it, and
otherwise disclosed or left alone. -/
theorem apply_statements (m : Mutator) (report : Report) :
    (m.apply fingerprint report).1.statements = report.statements.mapIdx fun i st =>
      m.onStatement report.tableExists (m.refusals report.statements i) st := by
  cases m with
  | refuseForeignKeyChanges => exact refuseStatements_statements report _ (by decide)
  | refuseUnsupportedCreateShape refused =>
    exact refusing_statements report (m := .refuseUnsupportedCreateShape refused) nofun _
  | refuseUnsupportedPartitionedParent causes =>
    exact refusing_statements report (m := .refuseUnsupportedPartitionedParent causes) nofun _
  | discloseGreenfieldExecution =>
    show (discloseGreenfieldExecution report).statements = _
    unfold discloseGreenfieldExecution
    by_cases absent : report.tableExists = some false
    · rw [if_pos absent]
      refine List.ext_getElem? fun i => ?_
      rw [List.getElem?_mapIdx, List.getElem?_map]
      cases report.statements[i]? with
      | none => rfl
      | some st => exact congrArg some (if_pos ⟨rfl, absent⟩).symm
    · rw [if_neg absent]
      refine List.ext_getElem? fun i => ?_
      rw [List.getElem?_mapIdx]
      cases report.statements[i]? with
      | none => rfl
      | some st => exact congrArg some (if_neg fun both => absent both.2).symm
  | refuseDestructive =>
    show (refuseDestructive fingerprint report).statements = _
    unfold refuseDestructive
    by_cases destructive : planDestructive report.statements = true
    · rw [if_pos destructive]
      have selected : Mutator.refusals report.statements .refuseDestructive =
          fun _ => some (destructiveChangeRefusal, none) := by
        funext i
        exact if_pos destructive
      rw [selected]
      exact refuseStatements_statements (m := .refuseDestructive) report
        (fun _ => some (destructiveChangeRefusal, none)) (by decide)
    · rw [if_neg destructive]
      have selected : Mutator.refusals report.statements .refuseDestructive = fun _ => none := by
        funext i
        exact if_neg destructive
      rw [selected]
      exact (mapIdx_same .refuseDestructive _ (by decide)).symm

variable {fingerprint}

/-- What holds of a statement refused, disclosed and left alone holds of it after a mutator. -/
theorem onStatement_of {P : PlannedStatement → Prop} (refused : ∀ r, P (refuseStatement st r))
    (disclosed : P (discloseStatement st)) (alone : P st) (m : Mutator)
    (tableExists : Option Bool) (r : Option Refused) : P (m.onStatement tableExists r st) := by
  unfold Mutator.onStatement
  cases r with
  | some r => exact refused r
  | none =>
    dsimp only
    split
    · exact disclosed
    · exact alone

theorem mark_onStatement (m : Mutator) (tableExists : Option Bool) (r : Option Refused)
    (st : PlannedStatement) : mark (m.onStatement tableExists r st) = mark st :=
  onStatement_of (P := fun st' => mark st' = mark st) (mark_refuseStatement st)
    (mark_discloseStatement st) rfl m tableExists r

theorem apply_getElem? (m : Mutator) (report : Report) (i : Nat) :
    (m.apply fingerprint report).1.statements[i]? = report.statements[i]?.map
      (m.onStatement report.tableExists (m.refusals report.statements i)) := by
  rw [apply_statements, List.getElem?_mapIdx]

theorem apply_marks (m : Mutator) (report : Report) :
    (m.apply fingerprint report).1.statements.map mark = report.statements.map mark := by
  refine List.ext_getElem? fun i => ?_
  rw [List.getElem?_map, List.getElem?_map, apply_getElem?]
  cases report.statements[i]? with
  | none => rfl
  | some st => exact congrArg some (mark_onStatement m _ _ st)

theorem onStatement_guidance (m : Mutator) (tableExists : Option Bool) (r : Option Refused)
    (st : PlannedStatement) : (m.onStatement tableExists r st).guidance = st.guidance :=
  onStatement_of (P := fun st' => st'.guidance = st.guidance) (refuseStatement_guidance st)
    (discloseStatement_guidance st) rfl m tableExists r

theorem onStatement_disposition (m : Mutator) (tableExists : Option Bool) (r : Option Refused)
    (st : PlannedStatement) : (m.onStatement tableExists r st).disposition =
      if r.isSome then .refuse else st.disposition := by
  unfold Mutator.onStatement
  cases r with
  | some r => rfl
  | none =>
    dsimp only
    split
    · exact discloseStatement_disposition st
    · rfl

theorem onStatement_kept (refused : st.disposition = .refuse) (m : Mutator)
    (tableExists : Option Bool) (r : Option Refused) :
    refusalOf (m.onStatement tableExists r st) = refusalOf st :=
  onStatement_of (P := fun st' => refusalOf st' = refusalOf st) (refuseStatement_kept refused)
    (congrArg refusalOf (discloseStatement_of_refused refused)) rfl m tableExists r

/-! ### The aggregate -/

theorem stampReport_disposition (report : Report) (r : Option Refused) :
    (stampReport report r).disposition = if r.isSome then .refuse else report.disposition := by
  cases r with
  | none => rfl
  | some r =>
    by_cases already : report.disposition = .refuse
    · rw [stampReport, if_pos already]
      exact already
    · rw [stampReport, if_neg already]
      rfl

variable {report : Report}

/-- Where no statement of the report is refused, the statements stay as they are. -/
theorem refuseStatements_none {refused : Nat → Option Refused}
    (found : (List.range report.statements.length).findSome? refused = none) :
    (refuseStatements report refused).statements = report.statements := by
  refine List.ext_getElem? fun i => ?_
  unfold refuseStatements
  dsimp only
  rw [List.getElem?_mapIdx]
  cases here : report.statements[i]? with
  | none => rfl
  | some st =>
    have bound : i < report.statements.length := (List.getElem?_eq_some_iff.mp here).1
    have spared := List.findSome?_eq_none_iff.mp found i (List.mem_range.mpr bound)
    rw [Option.map_some, spared]

/-- A refusal that leaves the report executable refused nothing. -/
theorem refuseStatements_executes {refused : Nat → Option Refused}
    (executes : (refuseStatements report refused).disposition = .execute) :
    (refuseStatements report refused).statements = report.statements ∧
      report.disposition = .execute := by
  have stamped := (stampReport_disposition report _).symm.trans executes
  cases found : (List.range report.statements.length).findSome? refused with
  | some r =>
    rw [found] at stamped
    cases stamped
  | none =>
    rw [found] at stamped
    exact ⟨refuseStatements_none found, stamped⟩

theorem refusing_executes {selected : Except String (Nat → Option Refused)}
    (executes : (refusing report selected).1.disposition = .execute) :
    (refusing report selected).1.statements = report.statements ∧
      report.disposition = .execute := by
  cases selected with
  | error e => exact ⟨rfl, executes⟩
  | ok refused => exact refuseStatements_executes executes

/-- No refusal changes whether the table exists. -/
theorem refusing_tableExists (report : Report) (selected : Except String (Nat → Option Refused)) :
    (refusing report selected).1.tableExists = report.tableExists := by
  cases selected with
  | error e => rfl
  | ok refused =>
    show (stampReport report _).tableExists = report.tableExists
    unfold stampReport
    repeat' split
    all_goals rfl

/-- The report is at least as severe as each of its statements. -/
def Aggregated (report : Report) : Prop :=
  ∀ st ∈ report.statements, st.disposition.rank ≤ report.disposition.rank

theorem refuseStatements_aggregated (before : Aggregated report) (refused : Nat → Option Refused) :
    Aggregated (refuseStatements report refused) := by
  intro st among
  have rank := stampReport_disposition report
    ((List.range report.statements.length).findSome? refused)
  show st.disposition.rank ≤ (stampReport report _).disposition.rank
  rw [rank]
  cases found : (List.range report.statements.length).findSome? refused with
  | some r => exact Disposition.rank_le_refuse _
  | none =>
    rw [refuseStatements_none found] at among
    exact before st among

/-- Every mutator leaves the report at least as severe as its statements. -/
theorem apply_aggregated (before : Aggregated report) (m : Mutator) :
    Aggregated (m.apply fingerprint report).1 := by
  have refusing_aggregated : ∀ selected, Aggregated (refusing report selected).1 := by
    intro selected
    cases selected with
    | error e => exact before
    | ok refused => exact refuseStatements_aggregated before refused
  cases m with
  | refuseForeignKeyChanges => exact refuseStatements_aggregated before _
  | refuseUnsupportedCreateShape _ | refuseUnsupportedPartitionedParent _ =>
    exact refusing_aggregated _
  | discloseGreenfieldExecution =>
    show Aggregated (discloseGreenfieldExecution report)
    unfold discloseGreenfieldExecution
    split
    · intro st among
      obtain ⟨st', old, rfl⟩ := List.mem_map.mp among
      rw [discloseStatement_disposition]
      exact before st' old
    · exact before
  | refuseDestructive =>
    show Aggregated (refuseDestructive fingerprint report)
    unfold refuseDestructive
    split
    · exact fun st among => refuseStatements_aggregated before _ st among
    · exact before

/-- **A mutator that returns an error changed nothing.** -/
theorem apply_error (failed : (m.apply fingerprint report).2.isSome = true) :
    (m.apply fingerprint report).1 = report := by
  have unchanged : ∀ selected, (refusing report selected).2.isSome = true →
      (refusing report selected).1 = report := by
    intro selected failed
    cases selected with
    | error e => rfl
    | ok refused => cases failed
  cases m with
  | refuseUnsupportedCreateShape _ | refuseUnsupportedPartitionedParent _ =>
    exact unchanged _ failed
  | refuseForeignKeyChanges | discloseGreenfieldExecution | refuseDestructive => cases failed

/-! ### Sequences of mutators -/

theorem applyAll_cons (m : Mutator) (ms : List Mutator) (report : Report) :
    applyAll fingerprint (m :: ms) report =
      applyAll fingerprint ms (m.apply fingerprint report).1 := rfl

theorem applyAll_append (before after : List Mutator) (report : Report) :
    applyAll fingerprint (before ++ after) report =
      applyAll fingerprint after (applyAll fingerprint before report) :=
  List.foldl_append

/-- What a sequence of mutators does to one statement. -/
structure Followed (ms : List Mutator) (report : Report) (i : Nat) (st st' : PlannedStatement) :
    Prop where
  mark : mark st' = mark st
  guidance : st'.guidance = st.guidance
  disposition : st'.disposition =
    if ms.any (fun m => (m.refusals report.statements i).isSome) then .refuse else st.disposition
  fields : FieldContract st → FieldContract st'
  kept : st.disposition = .refuse → refusalOf st' = refusalOf st

variable {i : Nat}

/-- What the mutators, in order, make of one statement. -/
theorem applyAll_followed : ∀ (ms : List Mutator) {report : Report} {st : PlannedStatement},
    report.statements[i]? = some st →
    ∃ st', (applyAll fingerprint ms report).statements[i]? = some st' ∧
      Followed ms report i st st'
  | [], report, st, here => ⟨st, here, rfl, rfl, rfl, id, fun _ => rfl⟩
  | m :: ms, report, st, here => by
    have next : (m.apply fingerprint report).1.statements[i]? =
        some (m.onStatement report.tableExists (m.refusals report.statements i) st) := by
      rw [apply_getElem?, here]
      rfl
    obtain ⟨st', there, rest⟩ := applyAll_followed ms next
    have first := onStatement_disposition m report.tableExists
      (m.refusals report.statements i) st
    refine ⟨st', there, ?_, ?_, ?_, fun before => ?_, fun refused => ?_⟩
    · rw [rest.mark, mark_onStatement]
    · rw [rest.guidance, onStatement_guidance]
    · have later : (ms.any fun m' => (m'.refusals
          (m.apply fingerprint report).1.statements i).isSome) =
          ms.any fun m' => (m'.refusals report.statements i).isSome := by
        congr 1
        funext m'
        rw [refusals_congr (apply_marks m report)]
      rw [rest.disposition, later, first, List.any_cons]
      cases (m.refusals report.statements i).isSome with
      | true => simp
      | false => simp
    · exact rest.fields (onStatement_of (refuseStatement_fieldContract before)
        (discloseStatement_fieldContract before) before m _ _)
    · have still :
          (m.onStatement report.tableExists (m.refusals report.statements i) st).disposition
            = .refuse := by
        rw [first, refused]
        exact ite_self _
      rw [rest.kept still, onStatement_kept refused]

theorem applyAll_aggregated (ms : List Mutator) : ∀ {report : Report}, Aggregated report →
    Aggregated (applyAll fingerprint ms report) := by
  induction ms with
  | nil => exact fun before => before
  | cons m ms ih => exact fun before => ih (apply_aggregated before m)

theorem applyAll_length (ms : List Mutator) : ∀ report : Report,
    (applyAll fingerprint ms report).statements.length = report.statements.length := by
  induction ms with
  | nil => exact fun report => rfl
  | cons m ms ih =>
    intro report
    rw [applyAll_cons, ih, apply_statements, List.length_mapIdx]

/-- The contract of a report over a sequence of mutators. -/
structure ReportContract (fingerprint : List PlannedStatement → String) (ms : List Mutator)
    (report : Report) : Prop where
  statements : ∀ st ∈ (applyAll fingerprint ms report).statements, StatementContract st
  aggregate : Aggregated (applyAll fingerprint ms report)
  /-- A statement's first refusal keeps its reason, class and cause. -/
  kept : ∀ before after, ms = before ++ after → ∀ (i : Nat) st,
    (applyAll fingerprint before report).statements[i]? = some st → st.disposition = .refuse →
      ∃ st', (applyAll fingerprint ms report).statements[i]? = some st' ∧
        st'.disposition = .refuse ∧ refusalOf st' = refusalOf st
  /-- A mutator that returns an error changed nothing. -/
  unchanged : ∀ before m after, ms = before ++ m :: after →
    (m.apply fingerprint (applyAll fingerprint before report)).2.isSome = true →
      (m.apply fingerprint (applyAll fingerprint before report)).1 =
        applyAll fingerprint before report

theorem applyAll_kept {before after : List Mutator}
    (here : (applyAll fingerprint before report).statements[i]? = some st)
    (refused : st.disposition = .refuse) :
    ∃ st', (applyAll fingerprint (before ++ after) report).statements[i]? = some st' ∧
      st'.disposition = .refuse ∧ refusalOf st' = refusalOf st := by
  obtain ⟨st', there, followed⟩ := applyAll_followed after here
  refine ⟨st', by rw [applyAll_append]; exact there, ?_, followed.kept refused⟩
  rw [followed.disposition, refused]
  exact ite_self _

/-- A followed statement keeps its guidance's part of the contract exactly when no mutator refuses
it while a rewrite is required of it. -/
theorem followed_guidance {ms : List Mutator} {st' : PlannedStatement}
    (followed : Followed ms report i st st')
    (before : st.guidance.isSome = true ↔ st.disposition = .rewriteRequired) :
    (st'.guidance.isSome = true ↔ st'.disposition = .rewriteRequired) ↔
      (st.disposition = .rewriteRequired → ∀ m ∈ ms, m.refusals report.statements i = none) := by
  have none : (ms.any fun m => (m.refusals report.statements i).isSome) = false ↔
      ∀ m ∈ ms, m.refusals report.statements i = none := by
    rw [List.any_eq_false]
    refine forall_congr' fun m => forall_congr' fun _ => ?_
    cases m.refusals report.statements i <;> simp
  rw [followed.guidance, before, followed.disposition, ← none]
  cases ms.any fun m => (m.refusals report.statements i).isSome with
  | false => simp
  | true => simp

/-- A planned statement comes from the routed form of one that was submitted. -/
theorem mem_planSubmitted {hash : String → String} {submitted : List Submitted}
    {planned : List PlannedStatement} (converted : planSubmitted hash submitted = .ok planned)
    (among : st ∈ planned) :
    ∃ s ∈ submitted, ∃ taken,
      fromRouted (routeStatement (classify hash s.sql s.facts)) = .ok taken ∧
      st = { taken with kind := s.kind } := by
  obtain ⟨s, member, one⟩ := Lib.forall₂_exists (Lib.mapM_ok converted).flip among
  obtain ⟨taken, ok, same⟩ := Lib.bind_ok.mp one
  exact ⟨s, member, taken, ok, (Except.ok.inj same).symm⟩

theorem planSubmitted_contract {hash : String → String} {submitted : List Submitted}
    {planned : List PlannedStatement} (converted : planSubmitted hash submitted = .ok planned)
    (among : st ∈ planned) :
    StatementContract st ∧
      ∃ rs ∈ (routeSubmitted hash submitted).1, st.disposition = rs.disposition := by
  obtain ⟨s, member, taken, ok, rfl⟩ := mem_planSubmitted converted among
  have contract := fromRouted_contract hash ok
  refine ⟨{ contract with }, _, ?_, (fromRouted_ok ok).disposition⟩
  exact List.mem_map_of_mem (List.mem_map_of_mem member)

/-- **A report keeps its contract exactly when no mutator refuses a statement that is to be
rewritten.** -/
theorem contract_iff (hash : String → String) (schema table : String) (tableExists : Option Bool)
    (submitted : List Submitted) (planned : List PlannedStatement)
    (converted : planSubmitted hash submitted = .ok planned) (ms : List Mutator) :
    ReportContract fingerprint ms (newReport hash schema table tableExists submitted planned) ↔
      ∀ (i : Nat) st, planned[i]? = some st → st.disposition = .rewriteRequired →
        ∀ m ∈ ms, m.refusals planned i = none := by
  let report := newReport hash schema table tableExists submitted planned
  refine ⟨fun contract i st here rewrite => ?_, fun spared => ⟨?_, ?_, ?_, ?_⟩⟩
  · have start := (planSubmitted_contract converted (List.mem_of_getElem? here)).1
    obtain ⟨st', there, followed⟩ :
      ∃ st', (applyAll fingerprint ms report).statements[i]? = some st' ∧
        Followed ms report i st st' := applyAll_followed ms here
    have ends := (contract.statements st' (List.mem_of_getElem? there)).guidance
    exact (followed_guidance followed start.guidance).mp ends rewrite
  · intro st' among
    obtain ⟨i, there⟩ := List.mem_iff_getElem?.mp among
    have within : i < planned.length := by
      have := (List.getElem?_eq_some_iff.mp there).1
      rw [applyAll_length] at this
      exact this
    have here : planned[i]? = some planned[i] := List.getElem?_eq_getElem within
    have start := (planSubmitted_contract converted (List.mem_of_getElem? here)).1
    obtain ⟨st'', same, followed⟩ :
        ∃ st'', (applyAll fingerprint ms report).statements[i]? = some st'' ∧
          Followed ms report i planned[i] st'' := applyAll_followed ms here
    obtain rfl : st' = st'' := Option.some.inj (there.symm.trans same)
    exact ⟨followed.fields start.toFieldContract,
      (followed_guidance followed start.guidance).mpr (spared i _ here)⟩
  · refine applyAll_aggregated ms fun st among => ?_
    obtain ⟨i, here⟩ := List.mem_iff_getElem?.mp among
    obtain ⟨rs, routed, same⟩ := (planSubmitted_contract converted (List.mem_of_getElem? here)).2
    rw [same]
    exact le_route_disposition routed
  · intro before after split i st here refused
    subst split
    exact applyAll_kept here refused
  · intro before m after split failed
    exact apply_error failed

end Mutators

/-! ### A refused rewrite -/

/-- ALTER TABLE orders DROP COLUMN note, ADD COLUMN code int UNIQUE. -/
def dropAndAdd : Submitted where
  sql := .alterTable .table { relname := "orders" }
    [.dropColumn "note" false,
      .addColumn { colname := "code", typeName := { names := ["int"] }
                   constraints := [{ contype := .unique }] }]
  facts := {}
  kind := none

/-- Disclosing how a new table is built refuses nothing, and keeps the contract. -/
theorem contract_dropAndAdd : ∃ planned, planSubmitted id [dropAndAdd] = .ok planned ∧
    ReportContract (fun _ => "") [.discloseGreenfieldExecution]
      (newReport id "public" "orders" (some false) [dropAndAdd] planned) := by
  have ok : (planSubmitted id [dropAndAdd]).toOption.isSome = true := by decide +kernel
  cases converted : planSubmitted id [dropAndAdd] with
  | error e =>
    rw [converted] at ok
    cases ok
  | ok planned =>
    refine ⟨planned, rfl, (contract_iff id _ _ _ _ planned converted _).mpr ?_⟩
    intro i st _ _ m among
    obtain rfl := List.mem_singleton.mp among
    rfl

/-- The statement is to be split and rewritten, and refusing the plan that discards a column leaves
its manual path on the refused statement. -/
theorem refusedRewrite_keeps_guidance :
    ((planSubmitted id [dropAndAdd]).toOption.map fun planned =>
        (applyAll (fun _ => "") [.refuseDestructive]
          (newReport id "public" "orders" (some true) [dropAndAdd] planned)).statements.map
            fun st => (st.disposition, st.guidance)) =
      some [(.refuse, some .splitStatement)] := by
  decide +kernel

end PgSprite.Plan
