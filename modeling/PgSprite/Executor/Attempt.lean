/-
**One bounded attempt, and the retries around it.**

A brief step runs in a transaction of its own under a lock and a statement budget. An attempt that
fails before its COMMIT is rolled back; one whose COMMIT is not answered with success is of unknown
outcome. Only an attempt that was not granted its lock in time is made again.

* `executeBoundedAttemptAs_ok`, `executeBoundedAttemptAs_error` — how far an attempt got, from what
  it returns;
* `executeWithLockRetryObserved_ended` — how the attempts of a step end;
* `executeWithLockRetry_ok`, `executeWithLockRetry_error` — how far they got, from what the step
  returns;
* `only_last_attempt_commits` — at most one of them sends its COMMIT.
-/

import PgSprite.Dbconn.Failure
import PgSprite.Lib.ErrorTree

namespace PgSprite.Executor

open PgSprite.Lib PgSprite.Dbconn

/-- The errors of the package that callers ask for by identity. -/
inductive Sentinel where
  | invariantViolation
  | createNamesUnverified
  | createOwnerUnverified
  | invalidBlockingBudget
  | unsupportedAcceptedBlocking
  | cancelledByCaller
  | cancelledExternally
  | emptySequence
  | unsupportedSequenceStep
  | unsupportedPartitionedParent
  | notConcurrentIndexBuild
  | unnamedIndex
  | unqualifiedTable
  | ifNotExistsUnsupported
  | createCollision
  | createNameMismatch
  | createOwnerMismatch
  | duplicateCreateName
  | partitionOfUnsupported
  | unsupportedCreateStep
  | poolTooSmall
  | rowSecurityPlanChanged
  | rowSecurityRefused
  | replicaIdentityDrop
  | adoptedIndexDrift
  | validatedConstraintDrift
  | renamedIndexDrift
  | tableNotFound
  deriving DecidableEq, Repr

/-- Which budget an attempt exceeded. -/
inductive BudgetCause where
  | lock
  | statement
  deriving DecidableEq, Repr

/-- One value of an error of the package. -/
inductive Cause where
  /-- A message around other errors, or an error nothing asks about. -/
  | text (text : String)
  | pg (code : String)
  | sentinel (s : Sentinel)
  | contextEnded (deadline : Bool)
  | budget (cause : BudgetCause) (attempts : Nat)
  | commitOutcomeUnknown
  /-- Claimed names a committed table does not own, and names it owns that nothing claimed. -/
  | createNameMismatch (missing unclaimed : List String)
  | createOwnerMismatch (expected actual : String)
  | sequenceStep (step total : Nat) (sql : String)
  /-- An invalid index a build met or left, with the code of what it is. -/
  | invalidIndex (code : String)
  /-- An accepted statement the client lost at or after it was submitted. -/
  | blockingOutcomeUnknown
  deriving DecidableEq, Repr

abbrev Error := ErrorTree Cause

/-- A message around an error. -/
def wrap (text : String) (e : Error) : Error := .node (.text text) [e]

/-- What was answered instead of a result, as an error. -/
def ofFailure (f : Failure) : Error :=
  match f.sqlstate with
  | some code => .leaf (.pg code)
  | none => .leaf (.text f.text)

/-- Whether a sentinel is in an error. -/
def isError (s : Sentinel) (e : Error) : Bool := e.is (· = .sentinel s)

/-- The SQLSTATE an error carries. -/
def pgCode (e : Error) : Option String :=
  e.as fun
    | .pg code => some code
    | _ => none

/-- The budget an error says was exceeded. -/
def budgetOf (e : Error) : Option BudgetCause :=
  e.as fun
    | .budget cause _ => some cause
    | _ => none

/-- The code of the invalid index an error carries. -/
def invalidIndexOf (e : Error) : Option String :=
  e.as fun
    | .invalidIndex code => some code
    | _ => none

/-- Whether an error says that an accepted statement's outcome is unknown. -/
def isBlockingOutcomeUnknown (e : Error) : Bool := e.is (· = .blockingOutcomeUnknown)

/-- Whether an error says that a COMMIT did not return success. -/
def isCommitOutcomeUnknown (e : Error) : Bool := e.is (· = .commitOutcomeUnknown)

/-! ### Outcome codes -/

/-- The code of each sentinel, in the order they are asked for. -/
def sentinelCodes : List (Sentinel × String) :=
  [ (.invariantViolation, "invariant-violation"),
    (.createNamesUnverified, "create-names-unverified"),
    (.createOwnerUnverified, "create-owner-unverified"),
    (.invalidBlockingBudget, "invalid-blocking-budget"),
    (.unsupportedAcceptedBlocking, "unsupported-accepted-blocking"),
    (.cancelledByCaller, "cancelled-by-caller"),
    (.cancelledExternally, "cancelled-externally"),
    (.emptySequence, "empty-sequence"),
    (.unsupportedSequenceStep, "unsupported-sequence-step"),
    (.unsupportedPartitionedParent, "unsupported-partitioned-parent"),
    (.notConcurrentIndexBuild, "not-concurrent-index-build"),
    (.unnamedIndex, "unnamed-index"),
    (.unqualifiedTable, "unqualified-table"),
    (.ifNotExistsUnsupported, "if-not-exists-unsupported"),
    (.createCollision, "create-collision"),
    (.createNameMismatch, "create-name-mismatch"),
    (.createOwnerMismatch, "create-owner-mismatch"),
    (.duplicateCreateName, "duplicate-create-name"),
    (.partitionOfUnsupported, "partition-of-unsupported"),
    (.unsupportedCreateStep, "unsupported-create-step"),
    (.poolTooSmall, "pool-too-small"),
    (.rowSecurityPlanChanged, "row-security-plan-changed"),
    (.rowSecurityRefused, "row-security-refused"),
    (.replicaIdentityDrop, "replica-identity-drop"),
    (.adoptedIndexDrift, "adopted-index-drift"),
    (.validatedConstraintDrift, "validated-constraint-drift"),
    (.renamedIndexDrift, "renamed-index-drift"),
    (.tableNotFound, "table-not-found") ]

def sentinelCode (e : Error) : String :=
  match sentinelCodes.find? fun entry => isError entry.1 e with
  | some (_, code) => code
  | none => "execution-failed"

def BudgetCause.code : BudgetCause → String
  | lock => "budget-lock-exceeded"
  | statement => "budget-statement-exceeded"

/-- The stable code of an error. A step's error has the code of what it wraps. -/
def outcomeCode : Error → String
  | .node (.sequenceStep _ _ _) [inner] => codeOf inner
  | e => codeOf e
where
  codeOf (e : Error) : String :=
    match invalidIndexOf e, budgetOf e with
    | some code, _ => code
    | none, some cause => cause.code
    | none, none =>
      if isBlockingOutcomeUnknown e then "blocking-outcome-unknown"
      else if isCommitOutcomeUnknown e then "commit-outcome-unknown"
      else sentinelCode e

/-! ### An attempt -/

/-- The error as an exceeded budget, where its SQLSTATE is one of the two. -/
def asBudgetError (e : Error) : Option Error :=
  match pgCode e with
  | some "55P03" => some (.node (.budget .lock 0) [e])
  | some "57014" => some (.node (.budget .statement 0) [e])
  | _ => none

/-- How one attempt's statements are answered. -/
structure AttemptAnswers where
  begin : Option Failure := none
  setBudgets : Option Failure := none
  setRole : Option Failure := none
  exec : Option Failure := none
  commit : CommitAnswer := .committed
  deriving Repr

namespace AttemptAnswers

/-- Whether the attempt gets as far as its COMMIT. -/
def reachesCommit (role : String) (a : AttemptAnswers) : Bool :=
  a.begin.isNone && a.setBudgets.isNone && (role = "" || a.setRole.isNone) && a.exec.isNone

/-- Whether what the attempt's statement does is in the catalog afterwards. -/
def lands (role : String) (a : AttemptAnswers) : Bool := a.reachesCommit role && a.commit.lands

end AttemptAnswers

/-- Continues where a statement was answered, and ends with the given error where it was not. -/
def answered (answer : Option Failure) (error : Error → Error) : Except Error Unit :=
  match answer with
  | none => .ok ()
  | some f => .error (error (ofFailure f))

/-- One attempt in a transaction of its own, as the role where one is given. -/
def executeBoundedAttemptAs (role : String) (a : AttemptAnswers) : Except Error Unit := do
  answered a.begin (wrap "begin optimistic attempt")
  answered a.setBudgets (wrap "set attempt budgets")
  if role ≠ "" then
    answered a.setRole (wrap s!"set create owner role {role}")
  answered a.exec fun e => (asBudgetError e).getD (wrap "optimistic attempt" e)
  answered a.commit.failure fun e =>
    .node .commitOutcomeUnknown [wrap "commit optimistic attempt" e]

/-! ### What an attempt's error says -/

variable {e : Error}

@[simp] theorem isCommitOutcomeUnknown_wrap {text : String} :
    isCommitOutcomeUnknown (wrap text e) = isCommitOutcomeUnknown e :=
  ErrorTree.is_wrap rfl

@[simp] theorem isCommitOutcomeUnknown_ofFailure (f : Failure) :
    isCommitOutcomeUnknown (ofFailure f) = false := by
  unfold ofFailure
  cases f.sqlstate <;> simp [isCommitOutcomeUnknown, ErrorTree.is]

theorem isCommitOutcomeUnknown_budget {cause : BudgetCause} {attempts : Nat} :
    isCommitOutcomeUnknown (.node (.budget cause attempts) [e]) = isCommitOutcomeUnknown e :=
  ErrorTree.is_wrap rfl

@[simp] theorem budgetOf_wrap {text : String} : budgetOf (wrap text e) = budgetOf e :=
  ErrorTree.as_wrap rfl

@[simp] theorem budgetOf_ofFailure (f : Failure) : budgetOf (ofFailure f) = none := by
  unfold ofFailure
  cases f.sqlstate <;> simp [budgetOf, ErrorTree.as]

theorem isCommitOutcomeUnknown_asBudgetError {b : Error} (exceeded : asBudgetError e = some b) :
    isCommitOutcomeUnknown b = isCommitOutcomeUnknown e := by
  unfold asBudgetError at exceeded
  split at exceeded
  · cases exceeded
    exact isCommitOutcomeUnknown_budget
  · cases exceeded
    exact isCommitOutcomeUnknown_budget
  · cases exceeded

theorem answered_none {error : Error → Error} : answered none error = .ok () := rfl

theorem answered_some {f : Failure} {error : Error → Error} :
    answered (some f) error = .error (error (ofFailure f)) := rfl

variable {role : String} {a : AttemptAnswers}

/-- An attempt that got to its COMMIT returns what the COMMIT came to. -/
theorem executeBoundedAttemptAs_reached (reached : a.reachesCommit role = true) :
    executeBoundedAttemptAs role a =
      answered a.commit.failure fun e =>
        .node .commitOutcomeUnknown [wrap "commit optimistic attempt" e] := by
  simp only [AttemptAnswers.reachesCommit, Bool.and_eq_true, Option.isNone_iff_eq_none,
    Bool.or_eq_true, decide_eq_true_eq] at reached
  obtain ⟨⟨⟨began, budgeted⟩, roled⟩, ran⟩ := reached
  unfold executeBoundedAttemptAs
  rw [began, budgeted, ran, answered_none, answered_none, answered_none]
  by_cases named : role = ""
  · rw [if_neg (not_not_intro named)]
    rfl
  · rw [if_pos named, roled.resolve_left named, answered_none]
    rfl

/-- An attempt that did not get to its COMMIT fails, and does not say that the COMMIT's outcome is
unknown. -/
theorem executeBoundedAttemptAs_stopped (stopped : a.reachesCommit role = false) :
    ∃ e, executeBoundedAttemptAs role a = .error e ∧ isCommitOutcomeUnknown e = false := by
  unfold executeBoundedAttemptAs
  cases began : a.begin with
  | some f => exact ⟨_, rfl, by simp⟩
  | none =>
    cases budgeted : a.setBudgets with
    | some f => exact ⟨_, rfl, by simp⟩
    | none =>
      have ran : a.exec ≠ none ∨ (role ≠ "" ∧ a.setRole ≠ none) := by
        by_contra both
        rw [not_or, not_and, not_not, not_not] at both
        have reached : a.reachesCommit role = true := by
          simp only [AttemptAnswers.reachesCommit, began, budgeted, both.1, Option.isNone_none,
            Bool.true_and, Bool.and_true, Bool.or_eq_true, decide_eq_true_eq]
          by_cases named : role = ""
          · exact .inl named
          · exact .inr (by rw [both.2 named, Option.isNone_none])
        rw [reached] at stopped
        cases stopped
      by_cases roled : role ≠ "" ∧ a.setRole ≠ none
      · obtain ⟨f, failed⟩ := Option.ne_none_iff_exists'.mp roled.2
        exact ⟨_, by rw [failed, if_pos roled.1]; rfl, by simp⟩
      · obtain ⟨f, failed⟩ := Option.ne_none_iff_exists'.mp (ran.resolve_right roled)
        refine ⟨(asBudgetError (ofFailure f)).getD (wrap "optimistic attempt" (ofFailure f)),
          ?_, ?_⟩
        · rw [failed]
          by_cases named : role = ""
          · rw [if_neg (not_not_intro named)]
            rfl
          · have unanswered : a.setRole = none := by
              by_contra set
              exact roled ⟨named, set⟩
            rw [if_pos named, unanswered]
            rfl
        · cases exceeded : asBudgetError (ofFailure f) with
          | none => simp
          | some b => simp [isCommitOutcomeUnknown_asBudgetError exceeded]

/-- An attempt that succeeds has landed. -/
theorem executeBoundedAttemptAs_ok (done : executeBoundedAttemptAs role a = .ok ()) :
    a.lands role = true := by
  cases reached : a.reachesCommit role with
  | false =>
    obtain ⟨e, failed, -⟩ := executeBoundedAttemptAs_stopped reached
    rw [failed] at done
    cases done
  | true =>
    rw [executeBoundedAttemptAs_reached reached] at done
    rw [AttemptAnswers.lands, reached, Bool.true_and]
    apply CommitAnswer.lands_of_failure
    cases failure : a.commit.failure with
    | none => rfl
    | some f =>
      rw [failure, answered_some] at done
      cases done

/-- **An attempt's error says whether its COMMIT was sent.** -/
theorem executeBoundedAttemptAs_error (failed : executeBoundedAttemptAs role a = .error e) :
    isCommitOutcomeUnknown e = a.reachesCommit role ∧
      (a.reachesCommit role = true → budgetOf e = none) := by
  cases reached : a.reachesCommit role with
  | false =>
    obtain ⟨e', failed', known⟩ := executeBoundedAttemptAs_stopped reached
    rw [failed', Except.error.injEq] at failed
    subst failed
    exact ⟨known, by simp⟩
  | true =>
    rw [executeBoundedAttemptAs_reached reached] at failed
    cases failure : a.commit.failure with
    | none =>
      rw [failure, answered_none] at failed
      cases failed
    | some f =>
      rw [failure, answered_some, Except.error.injEq] at failed
      subst failed
      refine ⟨by simp [isCommitOutcomeUnknown, ErrorTree.is], fun _ => ?_⟩
      exact (ErrorTree.as_wrap rfl).trans ((budgetOf_wrap).trans (budgetOf_ofFailure f))

/-! ### The retries -/

/-- What the attempts of one step and the waits between them are answered. -/
structure StepAnswers where
  attempt : Nat → AttemptAnswers
  /-- The end of the caller's context during the wait after an attempt. -/
  sleep : Nat → Option Failure

/-- An exceeded budget with the number of attempts made. -/
def withAttempts (attempts : Nat) : Error → Error
  | .node (.budget cause _) wrapped => .node (.budget cause attempts) wrapped
  | e => e

/-- What a step came to: its result, the attempts observed, and whether it ended in the wait after
the last of them. -/
structure Retried where
  outcome : Except Error Unit
  observed : List Nat
  waiting : Bool

/-- The attempts that are left, the next of which is the `i`-th: only one that was not granted its
lock in time is made again. -/
def executeWithLockRetryObserved (attempt : Nat → Except Error Unit) (sleep : Nat → Option Error) :
    Nat → Nat → Retried
  | 0, _ => ⟨.error (.node (.text "LK-2: retry loop escaped its bounded attempts")
      [.leaf (.sentinel .invariantViolation)]), [], false⟩
  | left + 1, i =>
    match attempt i with
    | .ok () => ⟨.ok (), [i], false⟩
    | .error e =>
      if budgetOf e ≠ some .lock then ⟨.error e, [i], false⟩
      else if left = 0 then ⟨.error (withAttempts i e), [i], false⟩
      else match sleep i with
        | some e => ⟨.error e, [i], true⟩
        | none =>
          let rest := executeWithLockRetryObserved attempt sleep left (i + 1)
          { rest with observed := i :: rest.observed }

/-- The attempts of a step, each in a transaction of its own. -/
def retried (role : String) (a : StepAnswers) : Nat → Nat → Retried :=
  executeWithLockRetryObserved (fun i => executeBoundedAttemptAs role (a.attempt i))
    fun i => (a.sleep i).map ofFailure

def executeWithLockRetry (role : String) (a : StepAnswers) (left i : Nat) : Except Error Unit :=
  (retried role a left i).outcome

/-- The attempts that are made. -/
def attempted (role : String) (a : StepAnswers) (left i : Nat) : List Nat :=
  (retried role a left i).observed

section Loop

variable {attempt : Nat → Except Error Unit} {sleep : Nat → Option Error}

/-- How the attempts of a step end: with the last one made, which landed or failed, or in the wait
after it. Those before it were not granted their lock. -/
inductive EndsAt (attempt : Nat → Except Error Unit) (sleep : Nat → Option Error) (last : Nat) :
    Except Error Unit → Bool → Prop where
  | landed (ok : attempt last = .ok ()) : EndsAt attempt sleep last (.ok ()) false
  | failed (e : Error) (failed : attempt last = .error e) (other : budgetOf e ≠ some .lock) :
      EndsAt attempt sleep last (.error e) false
  | exhausted (e : Error) (failed : attempt last = .error e) (lock : budgetOf e = some .lock) :
      EndsAt attempt sleep last (.error (withAttempts last e)) false
  | waiting (e e' : Error) (failed : attempt last = .error e) (lock : budgetOf e = some .lock)
      (slept : sleep last = some e') : EndsAt attempt sleep last (.error e') true

/-- **The loop ends with its last attempt**, and makes another only after one that was not granted
its lock. -/
theorem executeWithLockRetryObserved_ended (left i : Nat) :
    ∃ earlier last, (executeWithLockRetryObserved attempt sleep (left + 1) i).observed =
        earlier ++ [last] ∧
      (∀ j ∈ earlier, ∃ e, attempt j = .error e ∧ budgetOf e = some .lock) ∧
      EndsAt attempt sleep last (executeWithLockRetryObserved attempt sleep (left + 1) i).outcome
        (executeWithLockRetryObserved attempt sleep (left + 1) i).waiting := by
  induction left generalizing i with
  | zero =>
    rw [executeWithLockRetryObserved]
    refine ⟨[], i, ?_⟩
    cases tried : attempt i with
    | ok u => exact ⟨rfl, nofun, .landed tried⟩
    | error e =>
      dsimp only
      by_cases lock : budgetOf e ≠ some .lock
      · rw [if_pos lock]
        exact ⟨rfl, nofun, .failed e tried lock⟩
      · rw [if_neg lock, if_pos rfl]
        exact ⟨rfl, nofun, .exhausted e tried (not_not.mp lock)⟩
  | succ left ih =>
    rw [executeWithLockRetryObserved]
    cases tried : attempt i with
    | ok u => exact ⟨[], i, rfl, nofun, .landed tried⟩
    | error e =>
      dsimp only
      by_cases lock : budgetOf e ≠ some .lock
      · rw [if_pos lock]
        exact ⟨[], i, rfl, nofun, .failed e tried lock⟩
      · rw [if_neg lock, if_neg (Nat.succ_ne_zero left)]
        cases slept : sleep i with
        | some e' => exact ⟨[], i, rfl, nofun, .waiting e e' tried (not_not.mp lock) slept⟩
        | none =>
          obtain ⟨earlier, last, observed, locked, ends⟩ := ih (i + 1)
          refine ⟨i :: earlier, last, congrArg (i :: ·) observed, fun j among => ?_, ends⟩
          rcases List.mem_cons.mp among with rfl | later
          · exact ⟨e, tried, not_not.mp lock⟩
          · exact locked j later

end Loop

theorem isCommitOutcomeUnknown_withAttempts (attempts : Nat) (e : Error) :
    isCommitOutcomeUnknown (withAttempts attempts e) = isCommitOutcomeUnknown e := by
  unfold withAttempts
  split
  · simp [isCommitOutcomeUnknown, ErrorTree.is]
  · rfl

/-- An attempt that was not granted its lock did not get to its COMMIT. -/
theorem not_reachesCommit_of_lock (failed : executeBoundedAttemptAs role a = .error e)
    (lock : budgetOf e = some .lock) :
    a.reachesCommit role = false ∧ isCommitOutcomeUnknown e = false := by
  obtain ⟨unknown, unbudgeted⟩ := executeBoundedAttemptAs_error failed
  cases reached : a.reachesCommit role with
  | true =>
    rw [unbudgeted reached] at lock
    cases lock
  | false => exact ⟨rfl, unknown.trans reached⟩

/-- No attempt but the last gets to its COMMIT, and the step ends as the last one does. -/
theorem retried_ended (role : String) (a : StepAnswers) (left i : Nat) :
    ∃ earlier last, attempted role a (left + 1) i = earlier ++ [last] ∧
      (∀ j ∈ earlier, (a.attempt j).reachesCommit role = false) ∧
      ∃ waiting, EndsAt (fun i => executeBoundedAttemptAs role (a.attempt i))
        (fun i => (a.sleep i).map ofFailure) last (executeWithLockRetry role a (left + 1) i)
        waiting := by
  obtain ⟨earlier, last, observed, locked, ends⟩ := executeWithLockRetryObserved_ended left i
  refine ⟨earlier, last, observed, fun j among => ?_, _, ends⟩
  obtain ⟨e, failed, lock⟩ := locked j among
  exact (not_reachesCommit_of_lock failed lock).1

theorem executeWithLockRetry_ok {a : StepAnswers} {left i : Nat}
    (done : executeWithLockRetry role a left i = .ok ()) :
    ∃ j ∈ attempted role a left i, (a.attempt j).lands role = true := by
  cases left with
  | zero => cases done
  | succ left =>
    obtain ⟨earlier, last, made, -, waiting, ends⟩ := retried_ended role a left i
    rw [done] at ends
    rw [made]
    cases ends with
    | landed ok => exact ⟨last, by simp, executeBoundedAttemptAs_ok ok⟩

/-- **A step's error says whether a COMMIT was sent** by any of its attempts. -/
theorem executeWithLockRetry_error {a : StepAnswers} {left i : Nat}
    (failed : executeWithLockRetry role a left i = .error e) :
    isCommitOutcomeUnknown e =
      (attempted role a left i).any fun j => (a.attempt j).reachesCommit role := by
  cases left with
  | zero =>
    cases failed
    rfl
  | succ left =>
    obtain ⟨earlier, last, made, stopped, waiting, ends⟩ := retried_ended role a left i
    have before : (earlier.any fun j => (a.attempt j).reachesCommit role) = false :=
      List.any_eq_false.mpr fun j among => Bool.eq_false_iff.mp (stopped j among)
    rw [failed] at ends
    rw [made, List.any_append, before, Bool.false_or, List.any_cons, List.any_nil, Bool.or_false]
    cases ends with
    | failed _ tried _ => exact (executeBoundedAttemptAs_error tried).1
    | exhausted e tried lock =>
      obtain ⟨stopped, known⟩ := not_reachesCommit_of_lock tried lock
      rw [isCommitOutcomeUnknown_withAttempts, known, stopped]
    | waiting _ _ tried lock slept =>
      obtain ⟨f, -, rfl⟩ := Option.map_eq_some_iff.mp slept
      rw [isCommitOutcomeUnknown_ofFailure, (not_reachesCommit_of_lock tried lock).1]

/-- **At most one COMMIT is sent for a step**: every attempt but the last stopped before its own. -/
theorem only_last_attempt_commits (role : String) (a : StepAnswers) (left i : Nat) :
    (attempted role a left i).dropLast.all fun j => !(a.attempt j).reachesCommit role := by
  cases left with
  | zero => rfl
  | succ left =>
    obtain ⟨earlier, last, made, stopped, -⟩ := retried_ended role a left i
    rw [made, List.dropLast_concat, List.all_eq_true]
    intro j among
    rw [stopped j among]
    rfl

end PgSprite.Executor
