/-
**Creating a table that does not exist.**

The CREATE TABLE runs first and its indexes after it, each step as bounded attempts. A committed
CREATE TABLE has still to prove that the table owns the relation names it claimed and, where another
role than the session's creates it, that this role owns the table. The run stops at the first step
that fails; what committed stays.

* `executeCreate_cases` — a run that stops reports the steps before the one that failed, each of
  them done, and names that one;
* `runStep_error` — how a step can fail, and which of these leave it in the catalog.
-/

import PgSprite.Executor.Attempt

namespace PgSprite.Executor

open PgSprite.Lib PgSprite.Dbconn

/-- The role a table is created under: the connected role, or another it acts as. -/
structure CreationRole where
  role : String
  owner : String
  deriving DecidableEq, Repr

/-- Whether the steps have to be run as another role than the connected one. -/
def CreationRole.setsRole (c : CreationRole) : Bool := c.owner ≠ c.role

/-- The role the steps set, empty where they set none. -/
def CreationRole.steps (c : CreationRole) : String := if c.setsRole then c.owner else ""

/-- The relations a table owns besides itself. -/
structure OwnedRelationNames where
  constraintIndexes : List String
  sequences : List String
  deriving DecidableEq, Repr

def OwnedRelationNames.all (o : OwnedRelationNames) : List String :=
  o.constraintIndexes ++ o.sequences

/-- A desired schema past admission: the texts of its steps, the CREATE TABLE first, and the names
the CREATE TABLE claims besides the table's own. -/
structure Creation where
  schema : String
  table : String
  role : CreationRole
  maxAttempts : Nat
  steps : List String
  ownedClaims : List String
  deriving DecidableEq, Repr

/-- What a run is answered: each step's attempts, and the two reads of the catalog after the first
step. -/
structure CreateAnswers where
  step : Nat → StepAnswers
  ownedNames : Except Failure OwnedRelationNames
  owner : Except Failure String

/-! ### The checks after the CREATE TABLE -/

def sorted (names : List String) : List String := names.mergeSort fun a b => decide (a ≤ b)

/-- The claimed names the table lacks, and the names it owns that nothing claimed. -/
def ownedNameMismatch (claimed : List String) (owned : OwnedRelationNames) :
    List String × List String :=
  (sorted (claimed.filter fun name => name ∉ owned.all),
    sorted (owned.all.dedup.filter fun name => name ∉ claimed))

def verifyOwnedNames (c : Creation) (answer : Except Failure OwnedRelationNames) :
    Except Error Unit :=
  if c.ownedClaims = [] then .ok ()
  else match answer with
    | .error f => .error (.node (.text (c.schema ++ "." ++ c.table))
        [.leaf (.sentinel .createNamesUnverified), ofFailure f])
    | .ok owned =>
      let (missing, unclaimed) := ownedNameMismatch c.ownedClaims owned
      if missing = [] then .ok ()
      else .error (.node (.createNameMismatch missing unclaimed)
        [.leaf (.sentinel .createNameMismatch)])

def verifyCreateOwner (c : Creation) (answer : Except Failure String) : Except Error Unit :=
  match answer with
  | .error f => .error (.node (.text (c.schema ++ "." ++ c.table))
      [.leaf (.sentinel .createOwnerUnverified), ofFailure f])
  | .ok actual =>
    if actual ≠ c.role.owner then
      .error (.node (.createOwnerMismatch c.role.owner actual)
        [.leaf (.sentinel .createOwnerMismatch)])
    else .ok ()

/-- The table owns every name its CREATE TABLE claimed. -/
def OwnsClaims (c : Creation) (a : CreateAnswers) : Prop :=
  c.ownedClaims = [] ∨ ∃ owned, a.ownedNames = .ok owned ∧ ∀ name ∈ c.ownedClaims, name ∈ owned.all

theorem sorted_eq_nil {names : List String} : sorted names = [] ↔ names = [] := by
  rw [← List.length_eq_zero_iff, sorted, List.length_mergeSort, List.length_eq_zero_iff]

theorem missing_eq_nil (claimed : List String) (owned : OwnedRelationNames) :
    (ownedNameMismatch claimed owned).1 = [] ↔ ∀ name ∈ claimed, name ∈ owned.all := by
  rw [ownedNameMismatch, sorted_eq_nil, List.filter_eq_nil_iff]
  simp

/-- The names pass exactly where the table owns its claims. -/
theorem verifyOwnedNames_ok {c : Creation} {a : CreateAnswers} :
    verifyOwnedNames c a.ownedNames = .ok () ↔ OwnsClaims c a := by
  unfold verifyOwnedNames OwnsClaims
  by_cases none : c.ownedClaims = []
  · simp [none]
  · rw [if_neg none]
    cases answer : a.ownedNames with
    | error f => simp [none]
    | ok owned =>
      have owns := missing_eq_nil c.ownedClaims owned
      by_cases lacks : (ownedNameMismatch c.ownedClaims owned).1 = []
      · simpa [lacks, none] using owns
      · simpa [lacks, none] using owns

/-- A check of the names fails as unverified or with the names that differ. -/
theorem verifyOwnedNames_error {c : Creation} {answer : Except Failure OwnedRelationNames}
    {e : Error} (failed : verifyOwnedNames c answer = .error e) :
    isCommitOutcomeUnknown e = false ∧
      (isError .createNamesUnverified e = true ∨
        ∃ missing unclaimed, e = .node (.createNameMismatch missing unclaimed)
          [.leaf (.sentinel .createNameMismatch)]) := by
  unfold verifyOwnedNames at failed
  split at failed
  · cases failed
  · cases answer with
    | error f =>
      cases failed
      refine ⟨?_, .inl (by simp [isError, ErrorTree.is])⟩
      have plain := isCommitOutcomeUnknown_ofFailure f
      simpa [isCommitOutcomeUnknown, ErrorTree.is] using plain
    | ok owned =>
      dsimp only at failed
      split at failed
      · cases failed
      · cases failed
        exact ⟨by simp [isCommitOutcomeUnknown, ErrorTree.is], .inr ⟨_, _, rfl⟩⟩

theorem verifyCreateOwner_ok {c : Creation} {answer : Except Failure String} :
    verifyCreateOwner c answer = .ok () ↔ answer = .ok c.role.owner := by
  unfold verifyCreateOwner
  cases answer with
  | error f => simp
  | ok actual =>
    by_cases same : actual = c.role.owner
    · simp [same]
    · simp [same]

/-! ### The steps -/

/-- The duplicate-name answers of the server as the create path's collision. -/
def asCreateCollision (e : Error) : Error :=
  if pgCode e = some "42P07" ∨ pgCode e = some "42710" then
    .node (.text "") [.leaf (.sentinel .createCollision), e]
  else e

/-- One step: its attempts, and after the CREATE TABLE the checks on what it created. -/
def runStep (c : Creation) (a : CreateAnswers) (i : Nat) : Except Error Unit :=
  match executeWithLockRetry c.role.steps (a.step i) c.maxAttempts 1 with
  | .error e => .error (asCreateCollision e)
  | .ok () =>
    if i = 0 then do
      verifyOwnedNames c a.ownedNames
      if c.role.setsRole then verifyCreateOwner c a.owner
    else .ok ()

/-- The error of a step of a run. -/
def stepError (c : Creation) (i : Nat) (sql : String) (e : Error) : Error :=
  .node (.sequenceStep (i + 1) c.steps.length sql) [e]

/-- The steps that are left, the next of which is the `i`-th, after those already reported. -/
def runSteps (c : Creation) (a : CreateAnswers) :
    Nat → List String → List String → List String × Option Error
  | _, report, [] => (report, none)
  | i, report, sql :: rest =>
    match runStep c a i with
    | .error e => (report, some (stepError c i sql e))
    | .ok () => runSteps c a (i + 1) (report ++ [sql]) rest

/-- The create path past its admission: the steps reported as committed, and the step that failed
where one did. -/
def executeCreate (c : Creation) (a : CreateAnswers) : List String × Option Error :=
  runSteps c a 0 [] c.steps

/-- Some attempt of the step got as far as its COMMIT: the step may be in the catalog. -/
def mayStand (c : Creation) (a : CreateAnswers) (i : Nat) : Bool :=
  (attempted c.role.steps (a.step i) c.maxAttempts 1).any fun j =>
    ((a.step i).attempt j).reachesCommit c.role.steps

/-- What the step's statement does is in the catalog. -/
def stands (c : Creation) (a : CreateAnswers) (i : Nat) : Bool :=
  (attempted c.role.steps (a.step i) c.maxAttempts 1).any fun j =>
    ((a.step i).attempt j).lands c.role.steps

/-- The step committed and passed the checks made after it. -/
structure Done (c : Creation) (a : CreateAnswers) (i : Nat) : Prop where
  committed : executeWithLockRetry c.role.steps (a.step i) c.maxAttempts 1 = .ok ()
  names : i = 0 → OwnsClaims c a
  owner : i = 0 → c.role.setsRole = true → a.owner = .ok c.role.owner

/-- The owner of a table that was created and passed its name check is not the one it was to be
created under, or could not be read. -/
structure OwnerCheckFails (c : Creation) (a : CreateAnswers) : Prop where
  committed : executeWithLockRetry c.role.steps (a.step 0) c.maxAttempts 1 = .ok ()
  names : OwnsClaims c a
  role : c.role.setsRole = true
  owner : a.owner ≠ .ok c.role.owner

section Steps

variable {c : Creation} {a : CreateAnswers} {i : Nat} {e : Error}

theorem mayStand_of_stands (standing : stands c a i = true) : mayStand c a i = true := by
  unfold stands at standing
  unfold mayStand
  rw [List.any_eq_true] at standing ⊢
  obtain ⟨j, among, lands⟩ := standing
  rw [AttemptAnswers.lands, Bool.and_eq_true] at lands
  exact ⟨j, among, lands.1⟩

theorem stands_of_committed
    (committed : executeWithLockRetry c.role.steps (a.step i) c.maxAttempts 1 = .ok ()) :
    stands c a i = true := by
  obtain ⟨j, among, lands⟩ := executeWithLockRetry_ok committed
  exact List.any_eq_true.mpr ⟨j, among, lands⟩

theorem isCommitOutcomeUnknown_asCreateCollision (e : Error) :
    isCommitOutcomeUnknown (asCreateCollision e) = isCommitOutcomeUnknown e := by
  unfold asCreateCollision
  split
  · simp [isCommitOutcomeUnknown, ErrorTree.is]
  · rfl

/-- A step succeeds exactly where every part of it does. -/
theorem runStep_ok_iff : runStep c a i = .ok () ↔ Done c a i := by
  unfold runStep
  cases tried : executeWithLockRetry c.role.steps (a.step i) c.maxAttempts 1 with
  | error e =>
    refine ⟨fun ran => (by cases ran), fun done => ?_⟩
    have committed := done.committed
    rw [tried] at committed
    cases committed
  | ok u =>
    dsimp only
    by_cases first : i = 0
    · rw [if_pos first]
      constructor
      · intro ran
        cases names : verifyOwnedNames c a.ownedNames with
        | error e =>
          rw [names] at ran
          cases ran
        | ok u' =>
          rw [names] at ran
          refine ⟨tried, fun _ => verifyOwnedNames_ok.mp names, fun _ role => ?_⟩
          change (if c.role.setsRole = true then verifyCreateOwner c a.owner else .ok ()) =
            .ok () at ran
          rw [if_pos role] at ran
          exact verifyCreateOwner_ok.mp ran
      · intro done
        rw [verifyOwnedNames_ok.mpr (done.names first)]
        show (if c.role.setsRole = true then verifyCreateOwner c a.owner else .ok ()) = .ok ()
        by_cases role : c.role.setsRole = true
        · rw [if_pos role]
          exact verifyCreateOwner_ok.mpr (done.owner first role)
        · rw [if_neg role]
    · rw [if_neg first]
      exact ⟨fun _ => ⟨tried, fun zero => absurd zero first, fun zero => absurd zero first⟩,
        fun _ => rfl⟩

/-- **How a step fails**: no attempt of it committed, and its error says whether a COMMIT was sent;
or it is the CREATE TABLE, which committed, and its name check or its owner check failed. -/
theorem runStep_error (failed : runStep c a i = .error e) :
    (∃ e', e = asCreateCollision e' ∧
        executeWithLockRetry c.role.steps (a.step i) c.maxAttempts 1 = .error e') ∨
      (i = 0 ∧ executeWithLockRetry c.role.steps (a.step i) c.maxAttempts 1 = .ok () ∧
        verifyOwnedNames c a.ownedNames = .error e) ∨
      (i = 0 ∧ OwnerCheckFails c a ∧ verifyCreateOwner c a.owner = .error e) := by
  unfold runStep at failed
  cases tried : executeWithLockRetry c.role.steps (a.step i) c.maxAttempts 1 with
  | error e' =>
    rw [tried] at failed
    cases failed
    exact .inl ⟨e', rfl, rfl⟩
  | ok u =>
    rw [tried] at failed
    dsimp only at failed
    by_cases first : i = 0
    · rw [if_pos first] at failed
      cases names : verifyOwnedNames c a.ownedNames with
      | error e' =>
        rw [names] at failed
        cases failed
        exact .inr (.inl ⟨first, rfl, rfl⟩)
      | ok u' =>
        rw [names] at failed
        change (if c.role.setsRole = true then verifyCreateOwner c a.owner else .ok ()) =
          .error e at failed
        by_cases role : c.role.setsRole = true
        · rw [if_pos role] at failed
          refine .inr (.inr ⟨first, ⟨first ▸ tried, verifyOwnedNames_ok.mp names, role, ?_⟩,
            failed⟩)
          intro owned
          rw [verifyCreateOwner_ok.mpr owned] at failed
          cases failed
        · rw [if_neg role] at failed
          cases failed
    · rw [if_neg first] at failed
      cases failed

theorem runStep_ownerCheckFails (fails : OwnerCheckFails c a) :
    ∃ e, runStep c a 0 = .error e ∧ verifyCreateOwner c a.owner = .error e := by
  unfold runStep
  rw [fails.committed]
  dsimp only
  rw [if_pos rfl, verifyOwnedNames_ok.mpr fails.names, if_pos fails.role]
  cases checked : verifyCreateOwner c a.owner with
  | ok u => exact absurd (verifyCreateOwner_ok.mp checked) fails.owner
  | error e => exact ⟨e, rfl, rfl⟩

end Steps

/-- What a run from its `i`-th step returns, with the steps before it in the report. -/
theorem runSteps_cases (c : Creation) (a : CreateAnswers) (rest : List String) :
    ∀ (i : Nat) (report : List String),
      (runSteps c a i report rest = (report ++ rest, none) ∧
          ∀ j < rest.length, Done c a (i + j)) ∨
        ∃ k, ∃ bound : k < rest.length, ∃ e, runStep c a (i + k) = .error e ∧
          runSteps c a i report rest =
            (report ++ rest.take k, some (stepError c (i + k) rest[k] e)) ∧
          ∀ j < k, Done c a (i + j) := by
  induction rest with
  | nil =>
    intro i report
    exact .inl ⟨by rw [runSteps, List.append_nil], fun j bound => absurd bound (by simp)⟩
  | cons sql rest ih =>
    intro i report
    unfold runSteps
    cases ran : runStep c a i with
    | error e =>
      refine .inr ⟨0, by simp, e, ran, ?_, fun j bound => absurd bound (by omega)⟩
      simp
    | ok u =>
      have done := runStep_ok_iff.mp ran
      dsimp only
      -- the steps after this one, counted from the next position on
      have shift : ∀ j, i + (j + 1) = i + 1 + j := fun j => by omega
      rcases ih (i + 1) (report ++ [sql]) with ⟨all, dones⟩ | ⟨k, bound, e, failed, stopped, dones⟩
      · refine .inl ⟨by rw [all, List.append_assoc]; rfl, fun j bound => ?_⟩
        cases j with
        | zero => exact done
        | succ j =>
          rw [shift]
          exact dones j (by simpa using bound)
      · refine .inr ⟨k + 1, by simpa using bound, e, by rw [shift]; exact failed, ?_, ?_⟩
        · rw [stopped, List.append_assoc, shift k]
          rfl
        · intro j before
          cases j with
          | zero => exact done
          | succ j =>
            rw [shift]
            exact dones j (by omega)

/-- **What a create reports**: every step, each of them done, or the steps before the one that
failed, each of them done, and that one by its position. -/
theorem executeCreate_cases (c : Creation) (a : CreateAnswers) :
    (executeCreate c a = (c.steps, none) ∧ ∀ j < c.steps.length, Done c a j) ∨
      ∃ k, ∃ bound : k < c.steps.length, ∃ e, runStep c a k = .error e ∧
        executeCreate c a = (c.steps.take k, some (stepError c k c.steps[k] e)) ∧
        ∀ j < k, Done c a j := by
  unfold executeCreate
  have cases := runSteps_cases c a c.steps 0 []
  simpa only [Nat.zero_add, List.nil_append] using cases

end PgSprite.Executor
