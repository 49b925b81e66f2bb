/-
**Linting a script.**

The linter classifies every statement of a script without a database: the only facts it has are the
names of the constraints the script's own earlier statements leave. It reports what the routes and
the marks of the decisions warrant, so a statement without a finding has only native decisions.

* `classifyOp_offline` — where facts send an operation to copy-and-swap that is native without them:
  an added column whose rewrite only the server's proof shows;
* `check_clean` — a statement without a finding was classified native throughout;
* `offline_conservative_iff` — classification without facts is conservative for a statement exactly
  when none of its added columns is of that kind.
-/

import PgSprite.Planner.Route

variable {sql : Node}

namespace PgSprite.Planner

open PgSprite.Statement

/-! ### The statements of one script -/

/-- The constraint names a script's statements left so far, by the schema as they write it. -/
structure ScriptClassifier where
  names : List (String × List String) := []
  deriving DecidableEq, Repr

inductive ScriptError where
  | decisions (planned operations : Nat)
  | saferSequence (operation : String) (first : Node)
  deriving DecidableEq, Repr

namespace ScriptClassifier

def namesIn (c : ScriptClassifier) (schema : String) : List String :=
  (c.names.lookup schema).getD []

/-- The classifier with a name recorded as taken. -/
def claim (c : ScriptClassifier) (schema name : String) : ScriptClassifier :=
  { names := (schema, name :: c.namesIn schema) :: c.names }

/-- The classifier with a name free again. -/
def release (c : ScriptClassifier) (schema name : String) : ScriptClassifier :=
  { names := (schema, (c.namesIn schema).filter (· ≠ name)) :: c.names }

end ScriptClassifier

/-- The name an added constraint gets: the one it states, or the one its NOT VALID sequence states,
where there is either. -/
def addedConstraintName (op : Op) (d : Decision) : Except ScriptError String :=
  match d.saferSQL with
  | [] => .ok op.name
  | first :: _ =>
    if op.name ≠ "" || !validatedOnAdd op then .ok op.name
    else match parseOps first with
      | [added] =>
        if added.kind = .addConstraint then .ok added.name
        else .error (.saferSequence op.describe first)
      | _ => .error (.saferSequence op.describe first)

/-- The names after one operation of an ALTER TABLE. -/
def ScriptClassifier.record (c : ScriptClassifier) (schema : String) (op : Op) (d : Decision) :
    Except ScriptError ScriptClassifier :=
  match op.kind with
  | .addConstraint => do
      let name ← addedConstraintName op d
      return if name = "" then c else c.claim schema name
  | .dropConstraint => .ok (c.release schema op.name)
  | _ => .ok c

/-- The script's next statement, classified with the names recorded so far, and the names it
leaves. -/
def ScriptClassifier.classify (hash : String → String) (c : ScriptClassifier) (sql : Node) :
    Except ScriptError (Plan × ScriptClassifier) :=
  let st := parseOne sql
  let plan := Planner.classify hash sql { constraintNames := c.namesIn st.schema }
  if st.kind ≠ .alterTable then .ok (plan, c)
  else if (parseOps sql).length ≠ plan.decisions.length then
    .error (.decisions plan.decisions.length (parseOps sql).length)
  else do
    let after ← ((parseOps sql).zip plan.decisions).foldlM
      (fun c (op, d) => c.record st.schema op d) c
    return (plan, after)

/-- A script's statement is classified with nothing but taken names. -/
theorem ScriptClassifier.classify_plan {hash : String → String} {c after : ScriptClassifier}
    {plan : Plan} (classified : c.classify hash sql = .ok (plan, after)) :
    ∃ taken, plan = Planner.classify hash sql { constraintNames := taken } := by
  refine ⟨c.namesIn (parseOne sql).schema, ?_⟩
  unfold ScriptClassifier.classify at classified
  dsimp only at classified
  split at classified
  · cases classified
    rfl
  · split at classified
    · cases classified
    · cases folded : ((parseOps sql).zip (Planner.classify hash sql
          { constraintNames := c.namesIn (parseOne sql).schema }).decisions).foldlM
          (fun c (x : Op × Decision) => c.record (parseOne sql).schema x.1 x.2) c with
      | error e =>
        rw [folded] at classified
        cases classified
      | ok after =>
        rw [folded] at classified
        cases classified
        rfl

end PgSprite.Planner

namespace PgSprite.Lint

open PgSprite.Statement PgSprite.Planner

/-! ### Findings -/

inductive Severity where
  | error
  | warning
  deriving DecidableEq, Repr

inductive Code where
  | unsupportedOperation
  | blockingIdiom
  | tableRewrite
  | possibleTableRewrite
  | appBreakingRename
  | destructive
  | concurrentInTransaction
  deriving DecidableEq, Repr

/-- A statement of a script with the position of its first token. -/
structure SourceStatement where
  sql : Node
  line : Nat
  column : Nat
  deriving DecidableEq, Repr

/-- One lint result; a finding starts without a place and is given its statement's. -/
structure Finding where
  statement : Nat := 0
  line : Nat := 0
  column : Nat := 0
  sql : Option Node := none
  operation : String
  code : Code
  severity : Severity
  reason : Option Planner.Reason := none
  suggestion : List Node := []
  suggestionExecution : Option Execution := none
  deriving DecidableEq, Repr

structure Report where
  formatVersion : Nat := 7
  postgresVersions : String := "14-18"
  findings : List Finding := []
  errors : Nat := 0
  warnings : Nat := 0
  deriving DecidableEq, Repr

/-- The finding a routing decision warrants; one already in its safe native form warrants none. -/
def decisionFinding (d : Decision) : Option Finding :=
  match d.route with
  | .refuse =>
    some { operation := d.operation, reason := some d.reason
           code := .unsupportedOperation, severity := .error }
  | .copyAndSwap =>
    some { operation := d.operation, reason := some d.reason, severity := .warning
           code := if d.unverified then .possibleTableRewrite else .tableRewrite }
  | .native =>
    match d.reason with
    | .saferIdiom =>
      some { operation := d.operation, reason := some d.reason
             code := .blockingIdiom, severity := .warning
             suggestion := d.saferSQL, suggestionExecution := d.saferSQLExecution }
    | .appBreakingRename =>
      some { operation := d.operation, reason := some d.reason
             code := .appBreakingRename, severity := .error }
    | _ => none

def destructiveFinding (d : Decision) : Option Finding :=
  if d.destructive then
    some { operation := d.operation, code := .destructive, severity := .warning }
  else none

def concurrentFinding (op : Op) : Option Finding :=
  if op.concurrent then
    some { operation := op.describe, code := .concurrentInTransaction, severity := .error }
  else none

/-- A finding at the place of its statement. -/
def place (index : Nat) (stmt : SourceStatement) (f : Finding) : Finding :=
  { f with statement := index, line := stmt.line, column := stmt.column, sql := some stmt.sql }

section Check

variable (hash : String → String)

/-- The findings of one statement, and the classifier after it. -/
def checkStatement (classifier : ScriptClassifier) (index : Nat) (stmt : SourceStatement)
    (inBlock : Bool) : Except ScriptError (List Finding × ScriptClassifier) := do
  let (classified, after) ← classifier.classify hash stmt.sql
  let concurrent := if inBlock then (parseOps stmt.sql).filterMap concurrentFinding else []
  let routed := classified.decisions.flatMap fun d =>
    (decisionFinding d).toList ++ (destructiveFinding d).toList
  return ((concurrent ++ routed).map (place index stmt), after)

/-- The findings of a script's remaining statements, the first of them at an index. -/
def checkFrom (classifier : ScriptClassifier) (inBlock : Bool) (index : Nat) :
    List SourceStatement → Except (Nat × ScriptError) (List Finding)
  | [] => .ok []
  | stmt :: rest =>
    match checkStatement hash classifier index stmt inBlock with
    | .error e => .error (index, e)
    | .ok (findings, after) =>
      let inBlock := match transactionControlOf stmt.sql with
        | .begins => true
        | .ends => false
        | .none => inBlock
      (checkFrom after inBlock (index + 1) rest).map (findings ++ ·)

/-- The lint report of a script. -/
def check (script : List SourceStatement) : Except (Nat × ScriptError) Report := do
  let findings ← checkFrom hash {} false 1 script
  return { findings
           errors := (findings.filter (·.severity = .error)).length
           warnings := (findings.filter (·.severity ≠ .error)).length }

/-! ### A statement without a finding -/

variable {hash}

/-- Findings name their statement, and one without findings runs natively. -/
theorem checkStatement_clean {classifier after : ScriptClassifier} {index : Nat}
    {stmt : SourceStatement} {inBlock : Bool} {findings : List Finding}
    (checked : checkStatement hash classifier index stmt inBlock = .ok (findings, after)) :
    (∀ f ∈ findings, f.statement = index) ∧
      (findings = [] → ∃ taken,
        ∀ d ∈ (classify hash stmt.sql { constraintNames := taken }).decisions,
        d.route = .native) := by
  unfold checkStatement at checked
  cases classified : classifier.classify hash stmt.sql with
  | error e =>
    rw [classified] at checked
    cases checked
  | ok pair =>
    obtain ⟨plan, left⟩ := pair
    rw [classified] at checked
    cases checked
    refine ⟨fun f among => ?_, fun clean => ?_⟩
    · obtain ⟨g, _, rfl⟩ := List.mem_map.mp among
      rfl
    · obtain ⟨taken, rfl⟩ := ScriptClassifier.classify_plan classified
      refine ⟨taken, fun d among => ?_⟩
      have none := (List.append_eq_nil_iff.mp (List.map_eq_nil_iff.mp clean)).2
      have own := (List.append_eq_nil_iff.mp (List.flatMap_eq_nil_iff.mp none d among)).1
      unfold decisionFinding at own
      cases route : d.route with
      | native => rfl
      | copyAndSwap =>
        rw [route] at own
        cases own
      | refuse =>
        rw [route] at own
        cases own

theorem map_ok {ε α β : Type} {x : Except ε α} {f : α → β} {b : β} (mapped : x.map f = .ok b) :
    ∃ a, x = .ok a ∧ f a = b := by
  cases x with
  | error e => cases mapped
  | ok a =>
    cases mapped
    exact ⟨a, rfl, rfl⟩

/-- A statement of the script that no finding names runs natively. -/
theorem checkFrom_clean {script : List SourceStatement} :
    ∀ {classifier : ScriptClassifier} {inBlock : Bool} {index : Nat} {findings : List Finding},
      checkFrom hash classifier inBlock index script = .ok findings →
      (∀ f ∈ findings, index ≤ f.statement) ∧
        ∀ i stmt, script[i]? = some stmt → (∀ f ∈ findings, f.statement ≠ index + i) →
          ∃ taken, ∀ d ∈ (classify hash stmt.sql { constraintNames := taken }).decisions,
            d.route = .native := by
  -- By induction on the statements left: the findings of later ones have later indices.
  induction script with
  | nil =>
    intro classifier inBlock index findings checked
    cases checked
    refine ⟨fun f among => absurd among List.not_mem_nil, fun i stmt at_i => ?_⟩
    rw [List.getElem?_nil] at at_i
    cases at_i
  | cons first rest ih =>
    intro classifier inBlock index findings checked
    rw [checkFrom] at checked
    cases one : checkStatement hash classifier index first inBlock with
    | error e =>
      rw [one] at checked
      cases checked
    | ok pair =>
      obtain ⟨own, after⟩ := pair
      rw [one] at checked
      obtain ⟨later, remaining, rfl⟩ := map_ok checked
      obtain ⟨indexed, clean⟩ := checkStatement_clean one
      obtain ⟨above, each⟩ := ih remaining
      refine ⟨fun f among => ?_, fun i stmt at_i unflagged => ?_⟩
      · rcases List.mem_append.mp among with mine | theirs
        · exact Nat.le_of_eq (indexed f mine).symm
        · exact Nat.le_of_succ_le (above f theirs)
      · cases i with
        | zero =>
          cases at_i
          refine clean (List.eq_nil_iff_forall_not_mem.mpr fun f mine => ?_)
          exact unflagged f (List.mem_append_left _ mine) (indexed f mine)
        | succ i =>
          refine each i stmt at_i fun f theirs => ?_
          have other := unflagged f (List.mem_append_right _ theirs)
          omega

/-- **A statement of a script without a finding was classified native throughout.** -/
theorem check_clean {script : List SourceStatement} {report : Report}
    (checked : check hash script = .ok report) {i : Nat} {stmt : SourceStatement}
    (at_i : script[i]? = some stmt) (unflagged : ∀ f ∈ report.findings, f.statement ≠ i + 1) :
    ∃ taken, ∀ d ∈ (classify hash stmt.sql { constraintNames := taken }).decisions,
      d.route = .native := by
  unfold check at checked
  cases from_start : checkFrom hash {} false 1 script with
  | error e =>
    rw [from_start] at checked
    cases checked
  | ok findings =>
    rw [from_start] at checked
    cases checked
    exact (checkFrom_clean from_start).2 i stmt at_i fun f among => by
      have other := unflagged f among
      omega

/-! ### Facts and their absence -/

/-- An added column whose rewrite only the server's proof shows: its shape alone is that of a column
added in place. -/
def rewritesUnseen (op : Op) (facts : Facts) : Bool :=
  op.kind = .addColumn && !op.inlineConstraints.contains .unrecognized && !op.generatedStored &&
    op.default ≠ .expression &&
    (addColumnProof op facts = some .defaultRewrites ||
      addColumnProof op facts = some .typeRewrites ||
      addColumnProof op facts = some .unproven)

/-- Only an operation that drops something cascades. -/
theorem alterTableOp_cascade {cmd : AlterTableCmd} (added : (alterTableOp cmd).kind = .addColumn) :
    (alterTableOp cmd).cascade = false := by
  cases cmd with
  | addColumn column => rfl
  | addConstraint con =>
    have kind : (addConstraintOp con).kind = .addConstraint := by
      unfold addConstraintOp
      dsimp only
      split <;> rfl
    exact absurd (kind.symm.trans added) (by decide)
  | columnDefault name expr => cases expr <;> cases added
  | _ => cases added

variable {op : Op}

/-- An added column never cascades. -/
theorem parseOps_cascade (among : op ∈ parseOps sql) (added : op.kind = .addColumn) :
    op.cascade = false := by
  cases sql with
  | alterTable objtype rel cmds =>
    rw [parseOps] at among
    by_cases table : objtype = .table
    · rw [if_pos table] at among
      obtain ⟨cmd, _, rfl⟩ := List.mem_map.mp among
      exact alterTableOp_cascade added
    · rw [if_neg table, List.mem_singleton] at among
      rw [among]
  | drop stmt =>
    rw [parseOps] at among
    by_cases index : stmt.removeType = .index
    · rw [if_pos index, List.mem_singleton] at among
      rw [among] at added
      cases added
    · rw [if_neg index, List.mem_singleton] at among
      rw [among]
  | alterObjectSchema objectType rel newschema =>
    rw [parseOps] at among
    by_cases table : objectType = .table
    · rw [if_pos table, List.mem_singleton] at among
      rw [among]
    · rw [if_neg table, List.mem_singleton] at among
      rw [among]
  | rename renameType relationType rel subname newname =>
    rw [parseOps, List.mem_singleton] at among
    rw [among]
    cases renameType <;> rfl
  | _ =>
    rw [parseOps, List.mem_singleton] at among
    rw [among]

theorem dependentsReached_nil (op : Op) : dependentsReached op [] [] [] = [] := by
  unfold dependentsReached
  split
  · rfl
  · split
    · rfl
    · split <;> rfl

theorem refusedOp_offline (op : Op) (taken : List String) (alone : op.cascade = false) :
    refusedOp op { constraintNames := taken } = none := by
  have kept : (({} : ReplicaIdentityKeys).droppedBy op) = false := by
    unfold ReplicaIdentityKeys.droppedBy
    cases op.kind <;> simp
  have unread : viewsReadingColumn op { constraintNames := taken } = [] := dependentsReached_nil op
  unfold refusedOp
  simp [kept, alone, unread]

theorem policiesReadingColumn_offline (op : Op) (taken : List String) :
    policiesReadingColumn op { constraintNames := taken } = [] := dependentsReached_nil op

variable {st : Statement} {single : Bool} {taken : List String}

theorem classifyOp_alone {hash : String → String} (alone : op.cascade = false) :
    classifyOp hash op st { constraintNames := taken } sql single =
      classifyShape hash op st { constraintNames := taken } sql single := by
  unfold classifyOp
  rw [refusedOp_offline op taken alone, policiesReadingColumn_offline]
  simp

theorem classifyTypeChange_offline (op : Op) (taken : List String) :
    (classifyTypeChange op { constraintNames := taken }).1 = .copyAndSwap := by
  unfold classifyTypeChange
  split
  · rfl
  · rfl

variable {facts : Facts}

/-- Facts turn a column added in place into a rewrite exactly where it is unseen. -/
theorem classifyAddColumn_offline (added : op.kind = .addColumn) :
    (classifyAddColumn op facts).1 = .copyAndSwap ∧
        (classifyAddColumn op { constraintNames := taken }).1 = .native ↔
      rewritesUnseen op facts = true := by
  have unproven : addColumnProof op { constraintNames := taken } = none := rfl
  unfold rewritesUnseen classifyAddColumn
  rw [unproven]
  by_cases unrecognized : .unrecognized ∈ op.inlineConstraints
  · simp [unrecognized]
  by_cases stored : op.generatedStored = true
  · simp [unrecognized, stored]
  by_cases expression : op.default = .expression
  · simp [unrecognized, stored, expression]
  -- What is left is native without a proof, and with one it is as the proof says.
  cases proof : addColumnProof op facts with
  | none => simp [unrecognized, stored, expression, apply_ite Prod.fst]
  | some p => cases p <;> simp [unrecognized, stored, expression, added, apply_ite Prod.fst]

/-- So for every operation, as only an added column depends on the facts this way. -/
theorem classifyShape_offline {hash : String → String} :
    (classifyShape hash op st facts sql single).route = .copyAndSwap ∧
        (classifyShape hash op st { constraintNames := taken } sql single).route = .native ↔
      rewritesUnseen op facts = true := by
  by_cases added : op.kind = .addColumn
  · have shape : ∀ facts, (classifyShape hash op st facts sql single).route =
        (classifyAddColumn op facts).1 := by
      intro facts
      unfold classifyShape
      rw [added]
    rw [shape, shape]
    exact classifyAddColumn_offline added
  · have seen : rewritesUnseen op facts = false := by
      unfold rewritesUnseen
      simp [added]
    rw [seen]
    refine ⟨fun both => ?_, fun unseen => absurd unseen Bool.false_ne_true⟩
    obtain ⟨rewritten, native⟩ := both
    -- A type change and a move are rewrites without facts too.
    have offline : (classifyShape hash op st { constraintNames := taken } sql single).route =
        .copyAndSwap := by
      unfold classifyShape
      rcases (classifyShape_decides hash).rewrites rewritten with kind | kind | kind
      · exact absurd kind added
      · rw [kind]
        exact classifyTypeChange_offline op taken
      · rw [kind]
    cases offline.symm.trans native

/-- A rewrite is decided by the shape, not by a cascade. -/
theorem classifyOp_copyAndSwap {hash : String → String}
    (rewritten : (classifyOp hash op st facts sql single).route = .copyAndSwap) :
    op.cascade = false ∧ (classifyShape hash op st facts sql single).route = .copyAndSwap := by
  unfold classifyOp at rewritten
  cases refused : refusedOp op facts with
  | some d =>
    rw [refused] at rewritten
    cases (refusedOp_decides single refused).1.symm.trans rewritten
  | none =>
    rw [refused] at rewritten
    dsimp only at rewritten
    by_cases policies : policiesReadingColumn op facts ≠ []
    · rw [if_pos policies] at rewritten
      cases rewritten
    · rw [if_neg policies] at rewritten
      refine ⟨eq_false_of_ne_true fun cascades => ?_, rewritten⟩
      unfold refusedOp at refused
      dsimp only at refused
      rw [if_pos cascades] at refused
      split at refused <;> cases refused

theorem classifyOp_addColumn {hash : String → String} (added : op.kind = .addColumn)
    (alone : op.cascade = false) :
    classifyOp hash op st facts sql single = classifyShape hash op st facts sql single := by
  have kept : facts.replicaIdentity.droppedBy op = false := by
    unfold ReplicaIdentityKeys.droppedBy
    rw [added]
  have reached : ∀ tree drop own, dependentsReached op tree drop own = [] := by
    intro tree drop own
    unfold dependentsReached
    rw [added]
    rfl
  unfold classifyOp refusedOp viewsReadingColumn policiesReadingColumn
  simp [kept, alone, reached]

/-- **Where facts turn a native operation into a rewrite**: at an added column whose rewrite only
the server's proof shows. -/
theorem classifyOp_offline (hash : String → String) (st : Statement) (facts : Facts) (single : Bool)
    (taken : List String) (among : op ∈ parseOps sql) :
    (classifyOp hash op st facts sql single).route = .copyAndSwap ∧
        (classifyOp hash op st { constraintNames := taken } sql single).route = .native ↔
      rewritesUnseen op facts = true := by
  constructor
  · rintro ⟨rewritten, native⟩
    obtain ⟨alone, shape⟩ := classifyOp_copyAndSwap rewritten
    rw [classifyOp_alone alone] at native
    exact classifyShape_offline.mp ⟨shape, native⟩
  · intro unseen
    have added : op.kind = .addColumn := by
      unfold rewritesUnseen at unseen
      simp only [Bool.and_eq_true, decide_eq_true_eq] at unseen
      exact unseen.1.1.1.1
    have alone := parseOps_cascade among added
    rw [classifyOp_addColumn added alone, classifyOp_addColumn added alone]
    exact classifyShape_offline.mpr unseen

theorem classify_getElem? {hash : String → String} {i : Nat} {d : Decision}
    (at_i : (classify hash sql facts).decisions[i]? = some d) :
    ∃ op, (parseOps sql)[i]? = some op ∧ d.route = (classifyOp hash op (parseOne sql) facts sql
      (decide ((parseOps sql).length = 1))).route := by
  unfold classify at at_i
  rw [List.getElem?_map] at at_i
  obtain ⟨op, at_op, rfl⟩ := Option.map_eq_some_iff.mp at_i
  exact ⟨op, at_op, stampExecution_route _⟩

/-- Facts leave no operation worse than its classification without them. -/
def Conservative (hash : String → String) (sql : Node) (facts : Facts) : Prop :=
  ∀ (i : Nat) (d offline : Decision), (classify hash sql facts).decisions[i]? = some d →
    (classify hash sql {}).decisions[i]? = some offline →
    d.route = .copyAndSwap → offline.route ≠ .native

/-- The lint is conservative exactly where no operation's rewrite is unseen. -/
theorem conservative_iff (hash : String → String) (sql : Node) (facts : Facts) :
    Conservative hash sql facts ↔ ∀ op ∈ parseOps sql, rewritesUnseen op facts = false := by
  constructor
  · intro conservative op among
    refine eq_false_of_ne_true fun unseen => ?_
    obtain ⟨i, at_op⟩ := List.mem_iff_getElem?.mp among
    have at_i : ∀ facts, (classify hash sql facts).decisions[i]? = some (stampExecution
        (classifyOp hash op (parseOne sql) facts sql (decide ((parseOps sql).length = 1)))) := by
      intro facts
      unfold classify
      rw [List.getElem?_map, at_op]
      rfl
    obtain ⟨rewritten, native⟩ := (classifyOp_offline hash (parseOne sql) facts
      (decide ((parseOps sql).length = 1)) [] among).mpr unseen
    refine conservative i _ _ (at_i facts) (at_i {}) ?_ ?_
    · rw [stampExecution_route]
      exact rewritten
    · rw [stampExecution_route]
      exact native
  · intro seen i d offline at_i at_offline rewritten native
    obtain ⟨op, at_op, route⟩ := classify_getElem? at_i
    obtain ⟨op', at_op', route'⟩ := classify_getElem? at_offline
    cases at_op.symm.trans at_op'
    rw [route] at rewritten
    rw [route'] at native
    have among := List.mem_of_getElem? at_op
    exact absurd ((classifyOp_offline hash _ facts _ [] among).mp ⟨rewritten, native⟩)
      (by rw [seen op among]; decide)

/-- **When classifying without facts is conservative.** Facts send an operation to copy-and-swap
that is native without them exactly where a column is added whose rewrite only the server's proof
shows, a domain with a constraint or a default evaluated for every row; and a statement the linter
passes without a finding needs a rewrite under exactly those facts. -/
theorem offline_conservative_iff (hash : String → String) (facts : Facts) :
    (∀ sql, Conservative hash sql facts ↔ ∀ op ∈ parseOps sql, rewritesUnseen op facts = false) ∧
      ∀ script report i stmt, check hash script = .ok report → script[i]? = some stmt →
        (∀ f ∈ report.findings, f.statement ≠ i + 1) →
        ((∀ d ∈ (classify hash stmt.sql facts).decisions, d.route ≠ .copyAndSwap) ↔
          ∀ op ∈ parseOps stmt.sql, rewritesUnseen op facts = false) := by
  refine ⟨fun sql => conservative_iff hash sql facts, ?_⟩
  intro script report i stmt checked at_i unflagged
  obtain ⟨taken, native⟩ := check_clean checked at_i unflagged
  have offline : ∀ op ∈ parseOps stmt.sql, (classifyOp hash op (parseOne stmt.sql)
      { constraintNames := taken } stmt.sql (decide ((parseOps stmt.sql).length = 1))).route =
        .native := by
    intro op among
    rw [← stampExecution_route]
    exact native _ (List.mem_map_of_mem among)
  constructor
  · intro inPlace op among
    refine eq_false_of_ne_true fun unseen => ?_
    have rewritten := (classifyOp_offline hash (parseOne stmt.sql) facts
      (decide ((parseOps stmt.sql).length = 1)) taken among).mpr unseen
    refine inPlace _ (List.mem_map_of_mem among) ?_
    rw [stampExecution_route]
    exact rewritten.1
  · intro seen d decided rewritten
    obtain ⟨op, among, rfl⟩ := List.mem_map.mp decided
    rw [stampExecution_route] at rewritten
    exact absurd ((classifyOp_offline hash _ facts _ taken among).mp ⟨rewritten, offline op among⟩)
      (by rw [seen op among]; decide)

/-- ALTER TABLE t ADD COLUMN c positive: the added column has a domain for its type. -/
def addDomainColumn : SourceStatement where
  sql := .alterTable .table { relname := "t" }
    [.addColumn { colname := "c", typeName := { names := ["positive"] } }]
  line := 1
  column := 1

/-- What the server proves of it. -/
def rewritesTable : Facts where
  addColumnProofs := [("c", .typeRewrites)]

/-- **Facts can turn a statement the linter passes into a rewrite.** -/
theorem addDomainColumn_rewrites :
    (check (fun _ => "") [addDomainColumn]).toOption = some { findings := [] } ∧
      (classify (fun _ => "") addDomainColumn.sql rewritesTable).route = .copyAndSwap ∧
      ¬ Conservative (fun _ => "") addDomainColumn.sql rewritesTable := by
  refine ⟨by decide +kernel, by decide +kernel, fun conservative => ?_⟩
  have seen := (conservative_iff _ _ _).mp conservative _ List.mem_cons_self
  exact absurd seen (by decide +kernel)

end Check

end PgSprite.Lint
