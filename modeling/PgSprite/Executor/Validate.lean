/-
**What a validate step's cancellation is called.**

The server answers a statement that ran out of its `statement_timeout` and one that somebody
cancelled with the same SQLSTATE. A validate step tells them apart by the time the step took: its
timeout cannot fire before the budget has passed, so a cancellation from then on is taken for the
timeout's. The time is that of the whole step, which includes connections waited for, attempts that
were not granted their lock, and the waits between them.

* `AttemptRun.budgetOf_outcome` — an attempt ends over its statement budget exactly when its
  statement was cancelled;
* `validateRun_ended` — what a step's error and time come from;
* `validateStep_typed_iff` — the step's error says what cancelled it exactly when a statement that
  was cancelled before its own time was also cancelled before the step's.
-/

import Mathlib.Algebra.Ring.Nat
import PgSprite.Executor.Attempt

namespace PgSprite.Executor

open PgSprite.Lib

/-! ### The retry policy -/

/-- A retry policy that passes its validation. Times are in nanoseconds. -/
structure RetryPolicy where
  maxAttempts : ℕ
  initialBackoff : ℕ
  maxBackoff : ℕ
  some_ : 1 ≤ maxAttempts
  pauses : 1 < maxAttempts → 0 < initialBackoff
  ordered : initialBackoff ≤ maxBackoff

/-- The wait doubled a number of times, up to the maximum. -/
def doubledWait (maxBackoff : ℕ) : ℕ → ℕ → ℕ
  | 0, delay => min delay maxBackoff
  | times + 1, delay =>
    if delay < maxBackoff then
      if maxBackoff / 2 < delay then maxBackoff else doubledWait maxBackoff times (delay * 2)
    else min delay maxBackoff

def retryBackoff (policy : RetryPolicy) (failedAttempts : ℕ) : ℕ :=
  doubledWait policy.maxBackoff (failedAttempts - 1) policy.initialBackoff

/-- The guard on doubling never cuts a wait short: it stops where the next doubling passes
`most`. -/
theorem doubledWait_eq (most times delay : ℕ) :
    doubledWait most times delay = min (delay * 2 ^ times) most := by
  induction times generalizing delay with
  | zero => rw [doubledWait, Nat.pow_zero, Nat.mul_one]
  | succ times ih =>
    have longer : delay * 2 ≤ delay * 2 ^ (times + 1) := by
      rw [Nat.pow_succ']
      exact Nat.mul_le_mul_left _ (Nat.le_mul_of_pos_right 2 (Nat.two_pow_pos times))
    rw [doubledWait]
    split_ifs with below half
    · omega
    · rw [ih, Nat.pow_succ', Nat.mul_assoc]
    · omega

/-- **The wait doubles with every failed attempt, up to the longest one.** -/
theorem retryBackoff_eq (policy : RetryPolicy) (failedAttempts : ℕ) :
    retryBackoff policy failedAttempts =
      min (policy.initialBackoff * 2 ^ (failedAttempts - 1)) policy.maxBackoff :=
  doubledWait_eq ..

/-! ### Timed attempts -/

/-- Causes that only the package itself puts into an error. -/
def Cause.own : Cause → Bool
  | .budget _ _ => true
  | .commitOutcomeUnknown => true
  | .sentinel .cancelledByCaller => true
  | .sentinel .cancelledExternally => true
  | _ => false

/-- What the server, the driver or a check answers instead of a result. -/
abbrev Answer := { e : Error // e.is Cause.own = false }

/-- One attempt under a statement budget: how its parts are answered, and how long the statement
that ended it ran, after what wait, and with what to follow. -/
structure AttemptRun (overall : ℕ) where
  begin : Option Answer
  setBudgets : Option Answer
  check : Option Answer
  exec : Option Answer
  commit : Option Answer
  waited : ℕ
  ran : ℕ
  closing : ℕ
  /-- The server's `statement_timeout` ended it. -/
  timedOut : Bool
  /-- It fires on the check or the statement, once that has run for the budget. -/
  timely : timedOut = true → overall ≤ ran ∧ begin = none ∧ setBudgets = none ∧
    ((∃ e, check = some e ∧ pgCode e.val = some "57014") ∨
      (check = none ∧ ∃ e, exec = some e ∧ pgCode e.val = some "57014"))

namespace AttemptRun

variable {overall : ℕ}

/-- The attempt, part by part. -/
def outcome (a : AttemptRun overall) : Except Error Unit :=
  match a.begin, a.setBudgets, a.check, a.exec, a.commit with
  | some e, _, _, _, _ => .error (wrap "begin optimistic attempt" e.val)
  | none, some e, _, _, _ => .error (wrap "set attempt budgets" e.val)
  | none, none, some e, _, _ => .error ((asBudgetError e.val).getD e.val)
  | none, none, none, some e, _ =>
    .error ((asBudgetError e.val).getD (wrap "optimistic attempt" e.val))
  | none, none, none, none, some e =>
    .error (.node .commitOutcomeUnknown [wrap "commit optimistic attempt" e.val])
  | none, none, none, none, none => .ok ()

/-- The check or the statement was cancelled. -/
def cancelled (a : AttemptRun overall) : Bool :=
  match a.begin, a.setBudgets, a.check, a.exec with
  | none, none, some e, _ => pgCode e.val = some "57014"
  | none, none, none, some e => pgCode e.val = some "57014"
  | _, _, _, _ => false

/-- How long the attempt took. -/
def elapsed (a : AttemptRun overall) : ℕ := a.waited + a.ran + a.closing

end AttemptRun

/-! ### The step -/

/-- The attempts of a step, and the end of the caller's context in the wait after one of them: after
how long, and whether by its deadline. -/
structure StepRun (overall : ℕ) where
  attempt : ℕ → AttemptRun overall
  sleep : ℕ → Option (ℕ × Bool)

/-- How a step ended: with what, how long after it began, and in which attempt, if in one. -/
structure StepEnd where
  outcome : Except Error Unit
  elapsed : ℕ
  last : Option ℕ

/-- Whether a context's end is in an error. -/
def isContextError (e : Error) : Bool :=
  e.is fun
    | .contextEnded _ => true
    | _ => false

/-- Tells the cancellations of a validate step apart, by the time it took and by whether the
caller's context has ended. The error it was is kept as text only. -/
def corroborateValidateCancel (ctxErr : Option Bool) (e : Error) (overall elapsed : ℕ) : Error :=
  if isCommitOutcomeUnknown e then e
  else
    let serverCancelled := budgetOf e = some .statement
    if serverCancelled ∧ overall ≤ elapsed then e
    else match ctxErr with
      | some deadline =>
        if serverCancelled ∨ isContextError e = true then
          .node (.text s!"after {elapsed} of a {overall} budget")
            [.leaf (.sentinel .cancelledByCaller), .leaf (.contextEnded deadline)]
        else e
      | none =>
        if serverCancelled then
          .node (.text s!"after {elapsed} of a {overall} budget")
            [.leaf (.sentinel .cancelledExternally)]
        else e

/-- The attempts of a validate step. -/
def retriedRun {overall : ℕ} (policy : RetryPolicy) (s : StepRun overall) : Retried :=
  executeWithLockRetryObserved (fun i => (s.attempt i).outcome)
    (fun i => (s.sleep i).map fun ended => .leaf (.contextEnded ended.2)) policy.maxAttempts 1

/-- A validate step, from its start: its attempts, the waits between them, and the one it ended
in. -/
def validateRun {overall : ℕ} (policy : RetryPolicy) (s : StepRun overall) : StepEnd :=
  let ended := retriedRun policy s
  let last := ended.observed.getLast?
  let waits := (ended.observed.dropLast.map (retryBackoff policy)).sum +
    if ended.waiting then ((last.bind s.sleep).map Prod.fst).getD 0 else 0
  ⟨ended.outcome, (ended.observed.map fun i => (s.attempt i).elapsed).sum + waits,
    if ended.waiting then none else last⟩

/-- A validate step's result; `ctxErr` is what the caller's context says after it. -/
def validateStep {overall : ℕ} (policy : RetryPolicy) (s : StepRun overall) (ctxErr : Option Bool) :
    Except Error Unit :=
  let ended := validateRun policy s
  ended.outcome.mapError fun e => corroborateValidateCancel ctxErr e overall ended.elapsed

/-! ### What an attempt's error says -/

section Attempt

variable {overall : ℕ} {a : AttemptRun overall} {e : Error}

theorem is_answer {ask : Cause → Bool} (own : ∀ c, ask c = true → c.own = true) (answer : Answer) :
    answer.val.is ask = false := by
  have foreign := answer.property
  unfold ErrorTree.is at foreign ⊢
  rw [List.any_eq_false] at foreign ⊢
  exact fun c member asked => foreign c member (own c asked)

theorem budgetOf_answer (answer : Answer) : budgetOf answer.val = none := by
  have foreign := answer.property
  unfold ErrorTree.is at foreign
  rw [List.any_eq_false] at foreign
  unfold budgetOf ErrorTree.as
  rw [List.findSome?_eq_none_iff]
  intro c member
  have other := foreign c member
  cases c with
  | budget cause attempts => exact absurd rfl other
  | _ => rfl

/-- An answer read as an exceeded budget is over its statement budget exactly when it says that the
statement was cancelled. -/
theorem budgetOf_asBudgetError {plain : Error} (unbudgeted : budgetOf plain = none) :
    budgetOf ((asBudgetError e).getD plain) = some .statement ↔ pgCode e = some "57014" := by
  unfold asBudgetError
  split
  · rename_i code
    rw [code]
    constructor
    · intro lock
      cases lock
    · intro same
      exact absurd same (by decide)
  · rename_i code
    rw [code]
    exact iff_of_true rfl rfl
  · rename_i other
    rw [Option.getD_none, unbudgeted]
    constructor
    · intro none_
      cases none_
    · intro code
      exact absurd code other

/-- How an attempt fails: before the check, at the check or the statement, or at its COMMIT. -/
inductive AttemptRun.Fails (a : AttemptRun overall) : Error → Prop where
  | early (text : String) (answer : Answer) : a.cancelled = false → a.Fails (wrap text answer.val)
  | statement (answer : Answer) (plain : Error) :
      (plain = answer.val ∨ ∃ text, plain = wrap text answer.val) →
      a.cancelled = decide (pgCode answer.val = some "57014") →
      a.Fails ((asBudgetError answer.val).getD plain)
  | commit (text : String) (answer : Answer) : a.cancelled = false →
      a.Fails (.node .commitOutcomeUnknown [wrap text answer.val])

/-- How an attempt fails, by the statement it fails at. -/
theorem AttemptRun.fails (failed : a.outcome = .error e) : a.Fails e := by
  unfold outcome at failed
  cases begun : a.begin with
  | some answer =>
    rw [begun] at failed
    cases failed
    exact .early _ _ (by rw [cancelled, begun])
  | none =>
    cases budgeted : a.setBudgets with
    | some answer =>
      rw [begun, budgeted] at failed
      cases failed
      exact .early _ _ (by rw [cancelled, begun, budgeted])
    | none =>
      cases checked : a.check with
      | some answer =>
        rw [begun, budgeted, checked] at failed
        cases failed
        exact .statement _ _ (.inl rfl) (by rw [cancelled, begun, budgeted, checked])
      | none =>
        cases executed : a.exec with
        | some answer =>
          rw [begun, budgeted, checked, executed] at failed
          cases failed
          exact .statement _ _ (.inr ⟨_, rfl⟩)
            (by rw [cancelled, begun, budgeted, checked, executed])
        | none =>
          cases committed : a.commit with
          | some answer =>
            rw [begun, budgeted, checked, executed, committed] at failed
            cases failed
            exact .commit _ _ (by rw [cancelled, begun, budgeted, checked, executed])
          | none =>
            rw [begun, budgeted, checked, executed, committed] at failed
            cases failed

/-- **An attempt ends over its statement budget exactly when its statement was cancelled.** -/
theorem AttemptRun.budgetOf_outcome (failed : a.outcome = .error e) :
    budgetOf e = some .statement ↔ a.cancelled = true := by
  have unbudgeted : ∀ {e : Error}, budgetOf e = none → ¬ budgetOf e = some .statement := by
    intro e none_ same
    rw [none_] at same
    cases same
  cases fails failed with
  | early text answer kept =>
    rw [kept]
    exact iff_of_false (unbudgeted (budgetOf_wrap.trans (budgetOf_answer answer)))
      Bool.false_ne_true
  | statement answer plain shape cancelled =>
    have none_ : budgetOf plain = none := by
      rcases shape with rfl | ⟨text, rfl⟩
      · exact budgetOf_answer answer
      · exact budgetOf_wrap.trans (budgetOf_answer answer)
    rw [budgetOf_asBudgetError none_, cancelled]
    exact decide_eq_true_iff.symm
  | commit text answer kept =>
    rw [kept]
    exact iff_of_false (unbudgeted ((ErrorTree.as_wrap rfl).trans
      (budgetOf_wrap.trans (budgetOf_answer answer)))) Bool.false_ne_true

/-- An attempt does not say by itself who cancelled it. -/
theorem AttemptRun.isError_outcome {s : Sentinel} (own : (Cause.sentinel s).own = true)
    (failed : a.outcome = .error e) : isError s e = false := by
  have unasked : ∀ answer : Answer, isError s answer.val = false := by
    intro answer
    apply is_answer
    intro c asked
    rw [of_decide_eq_true asked]
    exact own
  have wrapped : ∀ text (answer : Answer), isError s (wrap text answer.val) = false :=
    fun text answer => (ErrorTree.is_wrap rfl).trans (unasked answer)
  cases fails failed with
  | early text answer _ => exact wrapped text answer
  | statement answer plain shape _ =>
    have budgeted : ∀ cause, isError s (.node (.budget cause 0) [answer.val]) = false :=
      fun cause => (ErrorTree.is_wrap rfl).trans (unasked answer)
    unfold asBudgetError
    split
    · exact budgeted .lock
    · exact budgeted .statement
    · rcases shape with rfl | ⟨text, rfl⟩
      · exact unasked answer
      · exact wrapped text answer
  | commit text answer _ => exact (ErrorTree.is_wrap rfl).trans (wrapped text answer)

/-- An attempt whose COMMIT did not return success is over no budget. -/
theorem AttemptRun.budgetOf_of_unknown (failed : a.outcome = .error e)
    (unknown : isCommitOutcomeUnknown e = true) : budgetOf e = none := by
  have unasked : ∀ answer : Answer, ¬ isCommitOutcomeUnknown answer.val = true := by
    intro answer
    rw [Bool.not_eq_true]
    apply is_answer
    intro c asked
    rw [of_decide_eq_true asked]
    rfl
  cases fails failed with
  | early text answer _ =>
    rw [isCommitOutcomeUnknown_wrap] at unknown
    exact absurd unknown (unasked answer)
  | statement answer plain shape _ =>
    apply absurd unknown
    cases exceeded : asBudgetError answer.val with
    | some b =>
      rw [Option.getD_some, isCommitOutcomeUnknown_asBudgetError exceeded]
      exact unasked answer
    | none =>
      rcases shape with rfl | ⟨text, rfl⟩
      · exact unasked answer
      · rw [Option.getD_none, isCommitOutcomeUnknown_wrap]
        exact unasked answer
  | commit text answer _ =>
    exact (ErrorTree.as_wrap rfl).trans (budgetOf_wrap.trans (budgetOf_answer answer))

theorem AttemptRun.outcome_of_cancelled (cancelled : a.cancelled = true) :
    ∃ e, a.outcome = .error e := by
  cases landed : a.outcome with
  | error e => exact ⟨e, rfl⟩
  | ok _ =>
    unfold AttemptRun.cancelled at cancelled
    unfold outcome at landed
    split at cancelled <;> rename_i begun budgeted checked
    · rw [begun, budgeted, checked] at landed
      cases landed
    · rename_i executed
      rw [begun, budgeted, checked, executed] at landed
      cases landed
    · cases cancelled

theorem AttemptRun.cancelled_of_timedOut (timedOut : a.timedOut = true) :
    a.cancelled = true ∧ overall ≤ a.ran := by
  obtain ⟨late, begun, budgeted, checked⟩ := a.timely timedOut
  refine ⟨?_, late⟩
  unfold cancelled
  rw [begun, budgeted]
  rcases checked with ⟨answer, failed, code⟩ | ⟨passed, answer, failed, code⟩
  · rw [failed]
    exact decide_eq_true code
  · rw [passed, failed]
    exact decide_eq_true code

end Attempt

/-! ### What a step's error and time come from -/

section Step

variable {overall : ℕ} {policy : RetryPolicy} {s : StepRun overall}

/-- The step ended in an attempt, with its error, no sooner than that attempt took; or in a wait,
with the end of the caller's context. -/
inductive Ended (s : StepRun overall) (ended : StepEnd) : Prop where
  | attempt (i : ℕ) (e : Error) : ended.last = some i → (s.attempt i).outcome = .error e →
      (ended.outcome = .error e ∨
        (budgetOf e = some .lock ∧ ended.outcome = .error (withAttempts i e))) →
      (s.attempt i).elapsed ≤ ended.elapsed → Ended s ended
  | landed (i : ℕ) : ended.last = some i → (s.attempt i).outcome = .ok () →
      ended.outcome = .ok () → Ended s ended
  | wait (deadline : Bool) : ended.last = none →
      ended.outcome = .error (.leaf (.contextEnded deadline)) → Ended s ended

/-- **A validate step ends with its last attempt**, or in the wait after it. -/
theorem validateRun_ended : Ended s (validateRun policy s) := by
  have ends : ∃ earlier last, (retriedRun policy s).observed = earlier ++ [last] ∧
      EndsAt (fun i => (s.attempt i).outcome)
        (fun i => (s.sleep i).map fun ended => .leaf (.contextEnded ended.2)) last
        (retriedRun policy s).outcome (retriedRun policy s).waiting := by
    obtain ⟨left, more⟩ := Nat.exists_eq_succ_of_ne_zero (Nat.pos_iff_ne_zero.mp policy.some_)
    unfold retriedRun
    rw [more]
    obtain ⟨earlier, last, observed, -, ends⟩ := executeWithLockRetryObserved_ended left 1
    exact ⟨earlier, last, observed, ends⟩
  obtain ⟨earlier, last, observed, ends⟩ := ends
  unfold validateRun
  generalize retriedRun policy s = ended at observed ends
  obtain ⟨outcome, observed', waiting⟩ := ended
  obtain rfl : observed' = earlier ++ [last] := observed
  have long : (s.attempt last).elapsed ≤
      ((earlier ++ [last]).map fun i => (s.attempt i).elapsed).sum := by
    rw [List.map_append, List.sum_append]
    simp
  cases ends with
  | landed ok => exact .landed last (by simp) ok rfl
  | failed e tried _ =>
    exact .attempt last e (by simp) tried (.inl rfl) (Nat.le_add_right_of_le long)
  | exhausted e tried lock =>
    exact .attempt last e (by simp) tried (.inr ⟨lock, rfl⟩) (Nat.le_add_right_of_le long)
  | waiting _ _ _ _ slept =>
    obtain ⟨ended, -, rfl⟩ := Option.map_eq_some_iff.mp slept
    exact .wait ended.2 rfl rfl

/-- The step's error says what cancelled it. -/
structure TypedByCause (s : StepRun overall) (ended : StepEnd) (ctxErr : Option Bool)
    (result : Except Error Unit) : Prop where
  /-- A `statement_timeout` is the statement budget's. -/
  timeout : ∀ i, ended.last = some i → (s.attempt i).timedOut = true →
    ∃ e, result = .error e ∧ budgetOf e = some .statement
  /-- The statement budget is exceeded only by a cancelled statement that ran that long. -/
  budget : ∀ e, result = .error e → budgetOf e = some .statement →
    ∃ i, ended.last = some i ∧ (s.attempt i).cancelled = true ∧ overall ≤ (s.attempt i).ran
  caller : ∀ e, result = .error e → isError .cancelledByCaller e = true → ctxErr ≠ none
  external : ∀ e, result = .error e → isError .cancelledExternally e = true → ctxErr = none
  /-- A COMMIT whose outcome is not known stays one. -/
  unknown : ∀ i e, ended.last = some i → (s.attempt i).outcome = .error e →
    isCommitOutcomeUnknown e = true → result = .error e

theorem budgetOf_withAttempts (n : ℕ) (e : Error) : budgetOf (withAttempts n e) = budgetOf e := by
  unfold withAttempts
  split
  · simp [budgetOf, ErrorTree.as]
  · rfl

theorem isError_withAttempts {sentinel : Sentinel} (n : ℕ) (e : Error) :
    isError sentinel (withAttempts n e) = isError sentinel e := by
  unfold withAttempts
  split
  · simp [isError, ErrorTree.is]
  · rfl

/-- A step is over its statement budget where the attempt that ended it was cancelled, and does not
say by itself who cancelled it. -/
theorem Ended.error {ended : StepEnd} {e : Error} (how : Ended s ended)
    (failed : ended.outcome = .error e) :
    (budgetOf e = some .statement ↔ ∃ i, ended.last = some i ∧ (s.attempt i).cancelled = true) ∧
      ∀ sentinel, (Cause.sentinel sentinel).own = true → isError sentinel e = false := by
  cases how with
  | attempt i e' last tried shape _ =>
    have cancelled := AttemptRun.budgetOf_outcome tried
    have same : budgetOf e = budgetOf e' ∧
        ∀ sentinel, isError sentinel e = isError sentinel e' := by
      rcases shape with plain | ⟨-, counted⟩
      · rw [plain, Except.error.injEq] at failed
        subst failed
        exact ⟨rfl, fun _ => rfl⟩
      · rw [counted, Except.error.injEq] at failed
        subst failed
        exact ⟨budgetOf_withAttempts i e', fun _ => isError_withAttempts i e'⟩
    refine ⟨?_, fun sentinel own => (same.2 sentinel).trans (AttemptRun.isError_outcome own tried)⟩
    rw [same.1, cancelled]
    constructor
    · exact fun was => ⟨i, last, was⟩
    · rintro ⟨j, last', was⟩
      rw [last, Option.some.injEq] at last'
      exact last' ▸ was
  | landed i last tried done =>
    rw [done] at failed
    cases failed
  | wait deadline last ended =>
    rw [ended, Except.error.injEq] at failed
    subst failed
    refine ⟨iff_of_false (fun same => by cases same) ?_, fun sentinel _ => rfl⟩
    rintro ⟨i, last', -⟩
    rw [last] at last'
    cases last'

/-- A step that a cancelled attempt ended is over its statement budget, having taken at least as
long as the attempt. -/
theorem Ended.cancelled {ended : StepEnd} {i : ℕ} (how : Ended s ended) (last : ended.last = some i)
    (cancelled : (s.attempt i).cancelled = true) :
    ∃ e, ended.outcome = .error e ∧ budgetOf e = some .statement ∧
      (s.attempt i).elapsed ≤ ended.elapsed ∧ isCommitOutcomeUnknown e = false := by
  cases how with
  | attempt j e last' tried shape longer =>
    rw [last, Option.some.injEq] at last'
    subst last'
    have exceeded := (AttemptRun.budgetOf_outcome tried).mpr cancelled
    rcases shape with plain | ⟨lock, -⟩
    · refine ⟨e, plain, exceeded, longer, eq_false_of_ne_true fun unknown => ?_⟩
      rw [AttemptRun.budgetOf_of_unknown tried unknown] at exceeded
      cases exceeded
    · rw [exceeded] at lock
      cases lock
  | landed j last' tried _ =>
    rw [last, Option.some.injEq] at last'
    subst last'
    obtain ⟨e, failed⟩ := AttemptRun.outcome_of_cancelled cancelled
    rw [tried] at failed
    cases failed
  | wait deadline last' _ =>
    rw [last] at last'
    cases last'

/-- An attempt that did not run into its lock budget ends the step with its own error. -/
theorem Ended.plain {ended : StepEnd} {i : ℕ} {e : Error} (how : Ended s ended)
    (last : ended.last = some i) (tried : (s.attempt i).outcome = .error e)
    (other : budgetOf e ≠ some .lock) : ended.outcome = .error e := by
  cases how with
  | attempt j e' last' tried' shape _ =>
    rw [last, Option.some.injEq] at last'
    subst last'
    rw [tried, Except.error.injEq] at tried'
    subst tried'
    rcases shape with plain | ⟨lock, -⟩
    · exact plain
    · exact absurd lock other
  | landed j last' tried' _ =>
    rw [last, Option.some.injEq] at last'
    subst last'
    rw [tried] at tried'
    cases tried'
  | wait deadline last' _ =>
    rw [last] at last'
    cases last'

/-! ### Corroboration -/

section Corroborate

variable {ctxErr : Option Bool} {e : Error} {elapsed : ℕ}

theorem corroborate_unknown (unknown : isCommitOutcomeUnknown e = true) :
    corroborateValidateCancel ctxErr e overall elapsed = e := by
  unfold corroborateValidateCancel
  rw [if_pos unknown]

theorem corroborate_late (cancelled : budgetOf e = some .statement) (late : overall ≤ elapsed) :
    corroborateValidateCancel ctxErr e overall elapsed = e := by
  unfold corroborateValidateCancel
  by_cases unknown : isCommitOutcomeUnknown e = true
  · rw [if_pos unknown]
  · rw [if_neg unknown]
    exact if_pos ⟨cancelled, late⟩

/-- What corroboration makes of an error: itself, a cancellation by a caller whose context has
ended, or one by somebody else while it has not. -/
theorem corroborate_cases (ctxErr : Option Bool) (e : Error) (overall elapsed : ℕ) :
    (corroborateValidateCancel ctxErr e overall elapsed = e ∧
      (budgetOf e = some .statement → isCommitOutcomeUnknown e = true ∨ overall ≤ elapsed)) ∨
    (∃ text deadline, ctxErr = some deadline ∧
      corroborateValidateCancel ctxErr e overall elapsed = .node (.text text)
        [.leaf (.sentinel .cancelledByCaller), .leaf (.contextEnded deadline)]) ∨
    ∃ text, ctxErr = none ∧ corroborateValidateCancel ctxErr e overall elapsed =
      .node (.text text) [.leaf (.sentinel .cancelledExternally)] := by
  by_cases unknown : isCommitOutcomeUnknown e = true
  · exact .inl ⟨corroborate_unknown unknown, fun _ => .inl unknown⟩
  · by_cases late : budgetOf e = some .statement ∧ overall ≤ elapsed
    · exact .inl ⟨corroborate_late late.1 late.2, fun _ => .inr late.2⟩
    · cases ctxErr with
      | some deadline =>
        by_cases asked : budgetOf e = some .statement ∨ isContextError e = true
        · refine .inr (.inl ⟨s!"after {elapsed} of a {overall} budget", deadline, rfl, ?_⟩)
          simp only [corroborateValidateCancel, if_neg unknown, if_neg late, if_pos asked]
        · refine .inl ⟨?_, fun cancelled => absurd (.inl cancelled) asked⟩
          simp only [corroborateValidateCancel, if_neg unknown, if_neg late, if_neg asked]
      | none =>
        by_cases cancelled : budgetOf e = some .statement
        · refine .inr (.inr ⟨s!"after {elapsed} of a {overall} budget", rfl, ?_⟩)
          simp only [corroborateValidateCancel, if_neg unknown, if_neg late, if_pos cancelled]
        · refine .inl ⟨?_, fun again => absurd again cancelled⟩
          simp only [corroborateValidateCancel, if_neg unknown, if_neg late, if_neg cancelled]

end Corroborate

/-- **A validate step's error says what cancelled it exactly when** the statement that ended it, if
it was cancelled before it had run for the budget, was cancelled before the step had taken that
long. -/
theorem validateStep_typed_iff (policy : RetryPolicy) (s : StepRun overall) (ctxErr : Option Bool) :
    TypedByCause s (validateRun policy s) ctxErr (validateStep policy s ctxErr) ↔
      ∀ i, (validateRun policy s).last = some i → (s.attempt i).cancelled = true →
        (s.attempt i).ran < overall → (validateRun policy s).elapsed < overall := by
  have how : Ended s (validateRun policy s) := validateRun_ended
  unfold validateStep
  generalize validateRun policy s = ended at how ⊢
  show TypedByCause s ended ctxErr (ended.outcome.mapError fun e =>
    corroborateValidateCancel ctxErr e overall ended.elapsed) ↔ _
  have reported : ∀ e', (ended.outcome.mapError fun e =>
      corroborateValidateCancel ctxErr e overall ended.elapsed) = .error e' →
      ∃ e, ended.outcome = .error e ∧
        corroborateValidateCancel ctxErr e overall ended.elapsed = e' := by
    intro e' result
    cases outcome : ended.outcome with
    | ok u =>
      rw [outcome] at result
      cases result
    | error e =>
      rw [outcome] at result
      exact ⟨e, rfl, Except.error.inj result⟩
  constructor
  · intro typed i last cancelled short
    by_contra late
    obtain ⟨e, outcome, exceeded, -, -⟩ := how.cancelled last cancelled
    have kept : corroborateValidateCancel ctxErr e overall ended.elapsed = e :=
      corroborate_late exceeded (Nat.le_of_not_lt late)
    obtain ⟨j, last', -, long⟩ := typed.budget e (by rw [outcome, Except.mapError, kept]) exceeded
    rw [last, Option.some.injEq] at last'
    subst last'
    exact absurd long (Nat.not_le_of_lt short)
  · intro condition
    constructor
    case timeout =>
      intro i last timedOut
      obtain ⟨cancelled, long⟩ := AttemptRun.cancelled_of_timedOut timedOut
      obtain ⟨e, outcome, exceeded, longer, -⟩ := how.cancelled last cancelled
      have late : overall ≤ ended.elapsed := by
        unfold AttemptRun.elapsed at longer
        omega
      exact ⟨e, by rw [outcome, Except.mapError, corroborate_late exceeded late], exceeded⟩
    case budget =>
      intro e' result exceeded
      obtain ⟨e, outcome, rfl⟩ := reported e' result
      rcases corroborate_cases ctxErr e overall ended.elapsed with
        ⟨kept, why⟩ | ⟨text, deadline, -, changed⟩ | ⟨text, -, changed⟩
      · rw [kept] at exceeded
        obtain ⟨i, last, cancelled⟩ := (how.error outcome).1.mp exceeded
        obtain ⟨e₁, outcome', -, -, known⟩ := how.cancelled last cancelled
        rw [outcome, Except.error.injEq] at outcome'
        subst outcome'
        refine ⟨i, last, cancelled, Nat.le_of_not_lt fun short => ?_⟩
        rcases why exceeded with unknown | late
        · rw [known] at unknown
          cases unknown
        · exact absurd late (Nat.not_le_of_lt (condition i last cancelled short))
      · rw [changed] at exceeded
        cases exceeded
      · rw [changed] at exceeded
        cases exceeded
    case caller =>
      intro e' result asked
      obtain ⟨e, outcome, rfl⟩ := reported e' result
      rcases corroborate_cases ctxErr e overall ended.elapsed with
        ⟨kept, -⟩ | ⟨text, deadline, ctx, -⟩ | ⟨text, -, changed⟩
      · rw [kept, (how.error outcome).2 _ rfl] at asked
        cases asked
      · rw [ctx]
        exact Option.some_ne_none deadline
      · rw [changed] at asked
        cases asked
    case external =>
      intro e' result asked
      obtain ⟨e, outcome, rfl⟩ := reported e' result
      rcases corroborate_cases ctxErr e overall ended.elapsed with
        ⟨kept, -⟩ | ⟨text, deadline, -, changed⟩ | ⟨text, ctx, -⟩
      · rw [kept, (how.error outcome).2 _ rfl] at asked
        cases asked
      · rw [changed] at asked
        cases asked
      · exact ctx
    case unknown =>
      intro i e last tried unknown
      have unbudgeted := AttemptRun.budgetOf_of_unknown tried unknown
      have plain : ended.outcome = .error e := how.plain last tried (by
        rw [unbudgeted]
        exact fun lock => by cases lock)
      rw [plain, Except.mapError, corroborate_unknown unknown]

end Step

/-- Two attempts, a pause of one apart. -/
def twoAttempts : RetryPolicy := ⟨2, 1, 1, by decide, by decide, by decide⟩

/-- A statement that ends after a time with a SQLSTATE, by no timeout of its own budget. -/
def answeredWith (overall ran : ℕ) (code : String) : AttemptRun overall where
  begin := none
  setBudgets := none
  check := none
  exec := some ⟨.leaf (.pg code), rfl⟩
  commit := none
  waited := 0
  ran := ran
  closing := 0
  timedOut := false
  timely := by rintro ⟨⟩

/-- The first attempt is not granted its lock; the second is cancelled on request. -/
def secondCancelled : StepRun 5 where
  attempt i := if i = 1 then answeredWith 5 3 "55P03" else answeredWith 5 2 "57014"
  sleep _ := none

/-- The second attempt's statement ran for 2 of a budget of 5 when it was cancelled on request. The
step had taken 6 by then, so that it is reported as over its statement budget. -/
theorem second_attempt_blamed :
    (secondCancelled.attempt 2).timedOut = false ∧ (secondCancelled.attempt 2).ran = 2 ∧
      (validateRun twoAttempts secondCancelled).elapsed = 6 ∧
      (∃ e, validateStep twoAttempts secondCancelled none = .error e ∧
        budgetOf e = some .statement) ∧
      ¬ TypedByCause secondCancelled (validateRun twoAttempts secondCancelled) none
        (validateStep twoAttempts secondCancelled none) := by
  have reported : ∃ e, validateStep twoAttempts secondCancelled none = .error e ∧
      budgetOf e = some .statement := ⟨_, rfl, rfl⟩
  refine ⟨rfl, rfl, rfl, reported, fun typed => ?_⟩
  obtain ⟨e, result, exceeded⟩ := reported
  obtain ⟨i, last, -, long⟩ := typed.budget e result exceeded
  have second : (validateRun twoAttempts secondCancelled).last = some 2 := rfl
  rw [second, Option.some.injEq] at last
  subst last
  exact absurd long (by decide)

end PgSprite.Executor
