/-
**What a failed create says.**

The desired-state run of a table that does not exist hands its plan to the executor's create path
and turns what comes back into verdicts: one executed verdict for every step reported as committed
and, where a step failed, a failed verdict that says what the step left behind.

* `createFailureDetail_eq_rolledBack_iff` — which errors are described as a rollback;
* `create_tells_truth_iff` — a create says the truth about what stands exactly where the owner check
  of a committed table does not fail;
* `rolled_back_table_stands` — a create that describes a committed table as rolled back.
-/

import PgSprite.Executor.Create
import PgSprite.Verdict.Refusal

namespace PgSprite.Migrate

open PgSprite.Lib PgSprite.Dbconn PgSprite.Executor PgSprite.Verdict

/-- What happened to a submitted change. -/
inductive Outcome where
  | executed
  | executedWithoutOnlineSafety
  | executedViaCopyAndSwap
  | refused
  | failed
  deriving DecidableEq, Repr

/-- The verdict of one planned statement. -/
structure Verdict where
  outcome : Outcome
  code : String := ""
  statement : String
  table : String
  failedStep : Nat := 0
  failedStepSQL : String := ""
  detail : String
  deriving DecidableEq, Repr

/-- The result of a desired-state run. -/
structure DesiredResult where
  verdicts : List Verdict := []
  outcome : Outcome
  refusal : Option Refusal := none
  detail : String

/-- The part of a plan a create reads: its table and the texts of its statements. -/
structure CreatePlan where
  schema : String
  table : String
  statements : List String

/-- The statement at a position of the plan, empty where there is none. -/
def planStatementSQL (p : CreatePlan) (i : Nat) : String := p.statements.getD i ""

/-- The lock and statement budgets of a step, as they are printed. -/
structure BriefBudget where
  lockTimeout : String
  statementTimeout : String

/-! ### Texts -/

def stoppedBeforeVerdict : String := "stopped before a verdict; nothing about it was executed"

/-- What committed when a run stopped at its `i`-th statement of `n`. -/
def committedPrefixDetail (i n : Nat) (what : String) : String :=
  if i = 0 then
    s!"planned statement 1 of {n} {what}; nothing was committed before it"
  else
    s!"planned statement {i + 1} of {n} {what}; the {i} preceding statements committed and " ++
    "remain in effect"

def failedWhat (code : String) : String :=
  if code = "commit-outcome-unknown" then
    "has an unknown commit outcome — inspect the catalog before retrying"
  else "failed"

def rolledBackDetail : String :=
  "the step's bounded attempt failed and rolled back; Code names the outcome"

/-- The claimed names that are missing, where the error is about them. -/
def nameMismatchOf (e : Error) : Option (List String × List String) :=
  e.as fun
    | .createNameMismatch missing unclaimed => some (missing, unclaimed)
    | _ => none

/-- What the failed step left behind. The texts of the errors themselves are `mismatchText` and
`text`. -/
def createFailureDetail (mismatchText : List String × List String → String)
    (text : Error → String) (e : Error) : String :=
  if isCommitOutcomeUnknown e then
    "the step's COMMIT did not return success, so whether it committed cannot be established " ++
      "from the client; inspect the catalog for what the step creates before retrying; " ++
      "Code names the outcome"
  else match nameMismatchOf e with
    | some mismatch =>
      "the step's CREATE TABLE committed and was not rolled back: " ++ mismatchText mismatch ++
        "; Code names the outcome"
    | none =>
      if isError .createNamesUnverified e then
        "the step's CREATE TABLE committed and was not rolled back, and whether the table owns " ++
          "every claimed name is unproven: " ++ text e ++ "; Code names the outcome"
      else rolledBackDetail

/-! ### The run -/

/-- What the check that the table is absent answers. -/
inductive AbsentAnswer where
  | absent
  | occupied (text : String)
  | failed (f : Failure)

/-- What the check of the right to create answers. -/
inductive PrivilegeAnswer where
  | granted (role : CreationRole)
  | missing (text : String)
  | ownerNotFound
  | failed (f : Failure)

/-- What the create path refuses before its first step. -/
inductive AdmissionRefusal where
  | collision (text : String)
  | shape (s : Sentinel) (text : String)
  | invariant (text : String)
  | failed (f : Failure)

/-- The error of a refusal before the first step. -/
def AdmissionRefusal.error : AdmissionRefusal → Error
  | collision text => .node (.text text) [.leaf (.sentinel .createCollision)]
  | shape s text => .node (.text text) [.leaf (.sentinel s)]
  | invariant text => .node (.text text) [.leaf (.sentinel .invariantViolation)]
  | failed f => wrap "verify claimed names are absent" (ofFailure f)

/-- What a create is answered. -/
structure RunAnswers where
  absent : AbsentAnswer
  privileges : PrivilegeAnswer
  /-- The texts of the admitted steps and the names the CREATE TABLE claims. -/
  admission : Except AdmissionRefusal (List String × List String)
  create : CreateAnswers

def createAdmissionSentinels : List Sentinel :=
  [.partitionOfUnsupported, .ifNotExistsUnsupported, .unsupportedCreateStep, .duplicateCreateName]

/-- The refusal of a desired set by its shapes. -/
def createAdmissionRefusal (e : Error) : Option Refusal :=
  if !createAdmissionSentinels.any (isError · e) then none
  else if isError .ifNotExistsUnsupported e || isError .duplicateCreateName e then
    some (.byDesign .unsupportedStatement)
  else some (.capabilityBoundary .unsupportedStatement)

section Run

variable (mismatchText : List String × List String → String) (text : Error → String)
  (p : CreatePlan) (createOwner : String) (budget : BriefBudget) (maxAttempts : Nat)

def DesiredResult.ofRefusal (r : Refusal) (detail : String) : DesiredResult :=
  { outcome := .refused, refusal := some r, detail }

/-- A stop before the first step. -/
def stopBefore (e : Error) : DesiredResult × Option Error :=
  ({ outcome := .failed
     detail := committedPrefixDetail 0 p.statements.length stoppedBeforeVerdict },
    some e)

def createStepVerdict (i : Nat) : Verdict where
  outcome := .executed
  statement := planStatementSQL p i
  table := p.schema ++ "." ++ p.table
  detail := s!"committed within budgets (lock {budget.lockTimeout}, statement " ++
    s!"{budget.statementTimeout}): the change was effectively instant"

/-- The verdict of the step a create failed at. -/
def failedVerdict (step : Nat) (sql : String) (e : Error) : Verdict where
  outcome := .failed
  code := outcomeCode e
  statement := planStatementSQL p (step - 1)
  table := p.schema ++ "." ++ p.table
  failedStep := step
  failedStepSQL := sql
  detail := createFailureDetail mismatchText text e

/-- What a create that got past its admission comes to. -/
def ofReport (report : List String) (execErr : Option Error) : DesiredResult × Option Error :=
  let verdicts := (List.range report.length).map (createStepVerdict p budget)
  match execErr with
  | none =>
    ({ verdicts, outcome := .executed,
       detail := s!"created: all {report.length} planned statements committed" }, none)
  | some e@(.node (.sequenceStep step _ sql) _) =>
    let failed := failedVerdict mismatchText text p step sql e
    ({ verdicts := verdicts ++ [failed], outcome := .failed,
       detail := committedPrefixDetail (step - 1) p.statements.length (failedWhat failed.code) },
      some (wrap s!"planned statement {step}" e))
  | some e => stopBefore p (wrap s!"create {p.schema}.{p.table}" e)

/-- What a refusal before the first step comes to. -/
def ofAdmission (refusal : AdmissionRefusal) : DesiredResult × Option Error :=
  let e := refusal.error
  if isError .createCollision e then
    (.ofRefusal (.environmental .createCollision)
      ("the create path refused the plan because the catalog already holds a name it claims (" ++
        text e ++ "); re-derive the plan against the live catalog to see what holds the name, " ++
        "then drop or rename the occupant, name a constraint's index explicitly, or for a " ++
        "sequence use an explicitly named sequence or a non-serial column; nothing was executed"),
      none)
  else match createAdmissionRefusal e with
    | some r =>
      (.ofRefusal r ("the create path refused the plan: " ++ text e ++ "; nothing was executed"),
        none)
    | none => stopBefore p (wrap s!"create {p.schema}.{p.table}" e)

/-- The admitted run of a create, where its checks and its admission pass. -/
def creation (a : RunAnswers) : Option Creation :=
  match a.absent, a.privileges, a.admission with
  | .absent, .granted role, .ok (steps, ownedClaims) =>
    some { schema := p.schema, table := p.table, role, maxAttempts, steps, ownedClaims }
  | _, _, _ => none

/-- The desired-state run of a table that does not exist. -/
def runCreate (a : RunAnswers) : DesiredResult × Option Error :=
  match a.absent with
  | .occupied occupant =>
    (.ofRefusal (.environmental .createCollision)
      (s!"the plan creates {p.schema}.{p.table} but the name is already occupied ({occupant}); " ++
        "the live catalog changed since the plan was derived — re-derive the plan and review " ++
        "what it says now; nothing was executed"), none)
  | .failed f => stopBefore p (wrap s!"verify {p.schema}.{p.table} is absent" (ofFailure f))
  | .absent =>
    match a.privileges with
    | .missing grant =>
      (.ofRefusal (.environmental .insufficientPrivileges) (grant ++ "; nothing was executed"),
        none)
    | .ownerNotFound =>
      (.ofRefusal (.environmental .insufficientPrivileges)
        (s!"the create owner role \"{createOwner}\" does not exist on the server; " ++
          "create the role or correct the configured owner; nothing was executed"), none)
    | .failed f =>
      stopBefore p (wrap s!"verify creation access in schema {p.schema}" (ofFailure f))
    | .granted role =>
      match a.admission with
      | .error refusal => ofAdmission text p refusal
      | .ok (steps, ownedClaims) =>
        let (report, execErr) := executeCreate
          { schema := p.schema, table := p.table, role, maxAttempts, steps, ownedClaims }
          a.create
        ofReport mismatchText text p budget report execErr

/-! ### What is described as a rollback -/

/-- The three other descriptions are not the one of a rollback. -/
theorem createFailureDetail_eq_rolledBack_iff (e : Error) :
    createFailureDetail mismatchText text e = rolledBackDetail ↔
      isCommitOutcomeUnknown e = false ∧ nameMismatchOf e = none ∧
        isError .createNamesUnverified e = false := by
  have other {start rest : String} (start' : start.toList.take 12 ≠ rolledBackDetail.toList.take 12)
      (long : 12 ≤ start.toList.length) : start ++ rest ≠ rolledBackDetail := by
    intro same
    apply start'
    rw [← same, String.toList_append, List.take_append_of_le_length long]
  unfold createFailureDetail
  cases unknown : isCommitOutcomeUnknown e with
  | true =>
    simp only [if_true, Bool.true_eq_false, false_and, iff_false]
    rw [String.append_assoc]
    exact other (by decide) (by decide)
  | false =>
    simp only [Bool.false_eq_true, if_false, true_and]
    cases mismatch : nameMismatchOf e with
    | some m =>
      simp only [reduceCtorEq, false_and, iff_false]
      rw [String.append_assoc]
      exact other (by decide) (by decide)
    | none =>
      simp only [true_and]
      cases unverified : isError .createNamesUnverified e with
      | true =>
        simp only [if_true, Bool.true_eq_false, iff_false]
        rw [String.append_assoc, String.append_assoc]
        exact other (by decide) (by decide)
      | false => simp

/-- A refused owner is told as rolled back. -/
theorem createFailureDetail_owner {c : Creation} {answer : Except Failure String} {e : Error}
    {i : Nat} {sql : String} (failed : verifyCreateOwner c answer = .error e) :
    createFailureDetail mismatchText text (stepError c i sql e) = rolledBackDetail := by
  rw [createFailureDetail_eq_rolledBack_iff]
  unfold verifyCreateOwner at failed
  unfold isCommitOutcomeUnknown nameMismatchOf isError stepError
  cases answer with
  | error f =>
    cases failed
    cases sqlstate : f.sqlstate <;> simp [ErrorTree.is, ErrorTree.as, ofFailure, sqlstate]
  | ok actual =>
    dsimp only at failed
    split at failed
    · cases failed
      simp [ErrorTree.is, ErrorTree.as]
    · cases failed

/-- An error of a step that is described as a rollback, other than the owner check's, comes from
attempts none of which got to its COMMIT. -/
theorem not_mayStand_of_rolledBack {c : Creation} {a : CreateAnswers} {i : Nat} {sql : String}
    {e : Error} (failed : runStep c a i = .error e) (owned : i = 0 → ¬ OwnerCheckFails c a)
    (rolledBack : createFailureDetail mismatchText text (stepError c i sql e) = rolledBackDetail) :
    mayStand c a i = false := by
  rw [createFailureDetail_eq_rolledBack_iff] at rolledBack
  obtain ⟨known, matching, verified⟩ := rolledBack
  rcases runStep_error failed with ⟨e', rfl, tried⟩ | ⟨-, -, names⟩ | ⟨first, fails, -⟩
  · -- the error of the attempts says whether a COMMIT was sent
    have unknown : isCommitOutcomeUnknown (stepError c i sql (asCreateCollision e')) =
        isCommitOutcomeUnknown e' :=
      (ErrorTree.is_wrap rfl).trans (isCommitOutcomeUnknown_asCreateCollision e')
    rw [mayStand, ← executeWithLockRetry_error tried, ← unknown, known]
  · rcases (verifyOwnedNames_error names).2 with unverified | ⟨missing, unclaimed, rfl⟩
    · have wrapped : isError .createNamesUnverified (stepError c i sql e) =
          isError .createNamesUnverified e := ErrorTree.is_wrap rfl
      rw [wrapped, unverified] at verified
      cases verified
    · simp [nameMismatchOf, stepError, ErrorTree.as] at matching
  · exact absurd fails (owned first)

/-! ### The truth of a create -/

/-- **A create says the truth about what stands**: the steps it reports are those that committed and
passed their checks before the one that failed, it has one executed verdict for each of them, and a
step it describes as rolled back never got to a COMMIT, so that nothing of it is in the catalog. -/
structure TellsTheTruth (a : RunAnswers) (c : Creation) : Prop where
  reported : ∃ k ≤ c.steps.length, (executeCreate c a.create).1 = c.steps.take k ∧
    (∀ i < k, Done c a.create i) ∧ (k < c.steps.length → ¬ Done c a.create k) ∧
    (((runCreate mismatchText text p createOwner budget maxAttempts a).1.verdicts.filter
      (·.outcome = .executed)).length = k)
  rolledBack : ∀ v ∈ (runCreate mismatchText text p createOwner budget maxAttempts a).1.verdicts,
    v.outcome = .failed → v.detail = rolledBackDetail →
      mayStand c a.create (v.failedStep - 1) = false ∧ stands c a.create (v.failedStep - 1) = false

theorem runCreate_of_creation {a : RunAnswers} {c : Creation}
    (started : creation p maxAttempts a = some c) :
    runCreate mismatchText text p createOwner budget maxAttempts a =
      ofReport mismatchText text p budget (executeCreate c a.create).1
        (executeCreate c a.create).2 := by
  unfold creation at started
  unfold runCreate
  split at started
  · next absent granted admitted =>
      cases started
      rw [absent, granted, admitted]
  · cases started

theorem executed_verdicts (report : List String) :
    (((List.range report.length).map (createStepVerdict p budget)).filter
      (·.outcome = .executed)).length = report.length := by
  rw [List.filter_eq_self.mpr, List.length_map, List.length_range]
  intro v among
  obtain ⟨i, -, rfl⟩ := List.mem_map.mp among
  rfl

theorem not_failed_of_executed {report : List String} {v : Verdict}
    (among : v ∈ (List.range report.length).map (createStepVerdict p budget)) :
    v.outcome ≠ .failed := by
  obtain ⟨i, -, rfl⟩ := List.mem_map.mp among
  exact Outcome.noConfusion

/-- **What a create says is true exactly where the owner check of a table it created does not
fail.** -/
theorem create_tells_truth_iff (a : RunAnswers) :
    (∀ c, creation p maxAttempts a = some c →
        TellsTheTruth mismatchText text p createOwner budget maxAttempts a c) ↔
      ∀ c, creation p maxAttempts a = some c → c.steps ≠ [] → ¬ OwnerCheckFails c a.create := by
  constructor
  · intro truth c started nonempty fails
    obtain ⟨-, rolledBack⟩ := truth c started
    rw [runCreate_of_creation mismatchText text p createOwner budget maxAttempts started]
      at rolledBack
    -- the first step fails at its owner check and is in the catalog all the same
    obtain ⟨e, failed, checked⟩ := runStep_ownerCheckFails fails
    obtain ⟨sql, rest, steps⟩ := List.exists_cons_of_ne_nil nonempty
    have stopped : executeCreate c a.create = ([], some (stepError c 0 sql e)) := by
      unfold executeCreate
      rw [steps, runSteps, failed]
    rw [stopped] at rolledBack
    have described := (rolledBack (failedVerdict mismatchText text p 1 sql (stepError c 0 sql e))
      (by simp [ofReport, stepError]) rfl
      (createFailureDetail_owner mismatchText text checked)).2
    have standing : stands c a.create 0 = true := stands_of_committed fails.committed
    rw [show (failedVerdict mismatchText text p 1 sql (stepError c 0 sql e)).failedStep - 1 = 0
      from rfl, standing] at described
    cases described
  · intro owned c started
    have run := runCreate_of_creation mismatchText text p createOwner budget maxAttempts started
    rcases executeCreate_cases c a.create with ⟨all, dones⟩ | ⟨k, bound, e, failed, stopped, dones⟩
    · rw [all] at run
      refine ⟨⟨c.steps.length, Nat.le_refl _, by rw [all, List.take_length], dones,
        fun less => absurd less (Nat.lt_irrefl _), ?_⟩, ?_⟩
      · rw [run]
        exact executed_verdicts p budget c.steps
      · intro v among failing
        rw [run] at among
        exact absurd failing (not_failed_of_executed p budget among)
    · rw [stopped] at run
      have nonempty : c.steps ≠ [] := by
        intro empty
        rw [empty] at bound
        exact absurd bound (Nat.not_lt_zero k)
      refine ⟨⟨k, Nat.le_of_lt bound, by rw [stopped], dones, fun _ done => ?_, ?_⟩, ?_⟩
      · rw [runStep_ok_iff.mpr done] at failed
        cases failed
      · rw [run]
        show ((List.map (createStepVerdict p budget) _ ++ [_]).filter _).length = k
        rw [List.filter_append, List.length_append, executed_verdicts, List.length_take,
          Nat.min_eq_left (Nat.le_of_lt bound)]
        rfl
      · intro v among failing described
        rw [run] at among
        rcases List.mem_append.mp among with executed | last
        · exact absurd failing (not_failed_of_executed p budget executed)
        · rw [List.mem_singleton.mp last] at described ⊢
          have unsent : mayStand c a.create k = false :=
            not_mayStand_of_rolledBack mismatchText text failed
              (fun _ => owned c started nonempty) described
          have absent : stands c a.create k = false := by
            by_contra standing
            rw [mayStand_of_stands (Bool.not_eq_false _ ▸ standing)] at unsent
            cases unsent
          exact ⟨unsent, absent⟩

end Run

/-! ### A table that stands and is described as rolled back -/

/-- The connected role creates a table for another role; the CREATE TABLE commits, and the
connection is lost before its owner is read back. -/
def lostOwnerRead : RunAnswers where
  absent := .absent
  privileges := .granted { role := "deploy", owner := "app" }
  admission := .ok (["CREATE TABLE public.t (id int)"], [])
  create :=
    { step := fun _ => { attempt := fun _ => {}, sleep := fun _ => none }
      ownedNames := .ok { constraintIndexes := [], sequences := [] }
      owner := .error { text := "unexpected EOF" } }

/-- The run of `lostOwnerRead` past its admission. -/
def lostOwnerCreation : Creation where
  schema := "public"
  table := "t"
  role := { role := "deploy", owner := "app" }
  maxAttempts := 3
  steps := ["CREATE TABLE public.t (id int)"]
  ownedClaims := []

/-- The table is in the catalog, and the only verdict says that its step was rolled back. -/
theorem rolled_back_table_stands :
    creation { schema := "public", table := "t", statements := ["CREATE TABLE public.t (id int)"] }
        3 lostOwnerRead = some lostOwnerCreation ∧
      stands lostOwnerCreation lostOwnerRead.create 0 = true ∧
      ((runCreate (fun _ => "") (fun _ => "")
          { schema := "public", table := "t", statements := ["CREATE TABLE public.t (id int)"] }
          "app" { lockTimeout := "3s", statementTimeout := "30s" } 3
          lostOwnerRead).1.verdicts.map fun v => (v.code, v.failedStep, v.detail)) =
        [("create-owner-unverified", 1, rolledBackDetail)] := by
  refine ⟨rfl, by decide, ?_⟩
  rfl

end PgSprite.Migrate
