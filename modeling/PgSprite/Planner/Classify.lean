/-
**Classifying a statement.**

Every operation of a statement is routed: to PostgreSQL's own online form, to copy-and-swap, or to a
refusal. A safer sequence is constructed only for a statement of one operation that goes to the
native route, and its execution contract is stamped where every decision passes.

* `classifyOp_decides` — what every decision carries; one with a safer sequence is native, not
  executable as submitted, and of a single operation;
* `classify_saferSQL` — a classified statement with a safer sequence has one decision and goes to
  the native route.
-/

import PgSprite.Lib.Decimal
import PgSprite.Statement.Rewrite

namespace PgSprite.Planner

open PgSprite.Lib PgSprite.Statement

/-! ### Decisions -/

inductive Route where
  | native
  | copyAndSwap
  | refuse
  deriving DecidableEq, Repr

namespace Route

def rank : Route → Nat
  | native => 0
  | copyAndSwap => 1
  | refuse => 2

/-- The worse of two routes, the first where they are alike. -/
def worse (a b : Route) : Route := if a.rank < b.rank then b else a

end Route

inductive Reason where
  | metadataOnly
  | onlineIdiom
  | fastDefault
  | binaryCoercible
  | saferIdiom
  | appBreakingRename
  | volatileDefault
  | generatedStored
  | typeRewrite
  | relocation
  | partitionParentLock
  | replicaIdentity
  | dependentView
  | dependentPolicy
  | cascadingDrop
  | unsupportedOperation
  deriving DecidableEq, Repr

/-- How the steps of a sequence run: one at a time, each in its own implicit transaction. -/
inductive Execution where
  | autocommit
  deriving DecidableEq, Repr

inductive PolicyFix where
  | rewritePolicies
  | recreateAroundChange
  | expandContract
  deriving DecidableEq, Repr

/-- The classification of one operation. -/
structure Decision where
  operation : String
  kind : OpKind
  destructive : Bool := false
  route : Route := .native
  reason : Reason := .metadataOnly
  unverified : Bool := false
  saferSQL : List Node := []
  saferSQLExecution : Option Execution := none
  dependentViews : List String := []
  dependentPolicies : List String := []
  policyFix : Option PolicyFix := none
  deriving DecidableEq, Repr

/-- Whether the operation is safe to run as submitted. -/
def Decision.executableAsSubmitted (d : Decision) : Bool :=
  d.reason ≠ .saferIdiom && d.reason ≠ .appBreakingRename

/-- The classification of one statement. -/
structure Plan where
  statement : Node
  route : Route
  decisions : List Decision
  deriving DecidableEq, Repr

/-! ### Facts -/

/-- What the table's replica identity indexes key on. -/
structure ReplicaIdentityKeys where
  indexes : List String := []
  constraints : List String := []
  columns : List String := []
  ownColumns : List String := []
  deriving DecidableEq, Repr

/-- Whether an operation drops what a replica identity index keys on. -/
def ReplicaIdentityKeys.droppedBy (k : ReplicaIdentityKeys) (op : Op) : Bool :=
  match op.kind with
  | .dropIndex => op.indexes.any (k.indexes.contains ·)
  | .dropConstraint => k.constraints.contains op.name
  | .dropColumn => if op.only then k.ownColumns.contains op.column else k.columns.contains op.column
  | _ => false

/-- What the server proved about adding a column. -/
inductive AddColumnProof where
  | inPlace
  | defaultRewrites
  | typeRewrites
  | unproven
  deriving DecidableEq, Repr

/-- Properties of the live table that sharpen classification. Where they were not read, there are
no column types. -/
structure Facts where
  columnTypes : Option (List (String × String)) := none
  columnCollations : List (String × String) := []
  replicaIdentity : ReplicaIdentityKeys := {}
  addColumnProofs : List (String × AddColumnProof) := []
  dependentViews : List (String × List String) := []
  dropDependentViews : List (String × List String) := []
  ownDependentViews : List (String × List String) := []
  dependentPolicies : List (String × List String) := []
  dropDependentPolicies : List (String × List String) := []
  ownDependentPolicies : List (String × List String) := []
  constraintNames : List String := []
  renamedIndexConstraint : String := ""
  deriving DecidableEq, Repr

/-- The objects that read the column an operation retypes or drops. -/
def dependentsReached (op : Op) (tree drop own : List (String × List String)) : List String :=
  if op.kind ≠ .alterColumnType && op.kind ≠ .dropColumn then []
  else if op.only then (own.lookup op.column).getD []
  else if op.kind = .dropColumn then (drop.lookup op.column).getD []
  else (tree.lookup op.column).getD []

def viewsReadingColumn (op : Op) (facts : Facts) : List String :=
  dependentsReached op facts.dependentViews facts.dropDependentViews facts.ownDependentViews

def policiesReadingColumn (op : Op) (facts : Facts) : List String :=
  dependentsReached op facts.dependentPolicies facts.dropDependentPolicies
    facts.ownDependentPolicies

/-- What the server proved about adding the operation's column, where it was asked. -/
def addColumnProof (op : Op) (facts : Facts) : Option AddColumnProof :=
  facts.addColumnProofs.lookup op.column

def unprovenRewriteReason (op : Op) : Reason :=
  if op.default = .expression then .volatileDefault else .typeRewrite

/-- Whether a shape of operation discards live structure. -/
def destructiveOp : OpKind → Bool
  | .dropColumn | .dropConstraint | .dropIndex | .dropNotNull => true
  | _ => false

/-! ### Type changes -/

/-- White space as Go's `unicode.IsSpace` has it. -/
def isSpace (c : Char) : Bool :=
  c = ' ' || ('\t' ≤ c && c ≤ '\r') || c = '\u0085' || c = '\u00A0' || c = '\u1680' ||
    ('\u2000' ≤ c && c ≤ '\u200A') || c = '\u2028' || c = '\u2029' || c = '\u202F' ||
    c = '\u205F' || c = '\u3000'

/-- A text without the white space around it. -/
def trimSpace (s : String) : String :=
  String.ofList ((s.toList.dropWhile isSpace).reverse.dropWhile isSpace).reverse

/-- A type's name, its modifiers and whether it is an array of it. -/
structure TypeShape where
  name : String := ""
  mods : List Int := []
  array : Bool := false
  deriving DecidableEq, Repr

def targetTypeShape (op : Op) : TypeShape :=
  if op.newTypeSchema ≠ "" || op.newTypeCollation ≠ "" then {}
  else { name := trimSpace op.newType, mods := op.newTypeMods, array := op.newTypeArray }

/-- Whether a type change is a relabel without a rewrite. -/
def binaryCoercible (old next : TypeShape) : Bool :=
  if old.name = "" || next.name = "" then false
  else if old.array ≠ next.array then false
  else if old.name = next.name && old.mods = next.mods then true
  else if old.array then false
  else if old.name = "varchar" then
    if next.name = "text" then true
    else if next.name ≠ "varchar" then false
    else match old.mods, next.mods with
      | _, [] => true
      | [oldMod], [nextMod] => oldMod ≤ nextMod
      | _, _ => false
  else if old.name = "numeric" then
    if next.name ≠ "numeric" then false
    else match old.mods, next.mods with
      | _, [] => true
      | [oldPrecision, oldScale], [nextPrecision, nextScale] =>
        nextScale = oldScale && oldPrecision ≤ nextPrecision
      | _, _ => false
  else false

def catalogTypeName (name : String) : String :=
  match trimSpace name with
  | "character varying" => "varchar"
  | "timestamp without time zone" => "timestamp"
  | "timestamp with time zone" => "timestamptz"
  | "time without time zone" => "time"
  | "time with time zone" => "timetz"
  | trimmed => trimmed

/-- A text before and after the first occurrence of a character. -/
def cut (s : List Char) (c : Char) : Option (List Char × List Char) :=
  match s.dropWhile (· ≠ c) with
  | [] => none
  | _ :: rest => some (s.takeWhile (· ≠ c), rest)

/-- A modifier, where the text is a number of 32 bits. -/
def parseMod (s : String) : Option Int :=
  match (trimSpace s).toList with
  | '-' :: digits => (parseUint 2147483649 digits).toOption.map fun n => -(n : Int)
  | '+' :: digits | digits => (parseUint 2147483648 digits).toOption.map fun n => (n : Int)

/-- The shape of a type as the catalog renders it. -/
def parseTypeText (s : String) : TypeShape :=
  let trimmed := trimSpace s
  let array := trimmed.endsWith "[]"
  let body := if array then trimmed.toList.dropLast.dropLast else trimmed.toList
  match cut body '(' with
  | none => { name := catalogTypeName (String.ofList body), array }
  | some (name, rest) =>
    match cut rest ')' with
    | none => {}
    | some (mods, suffix) =>
      match ((String.ofList mods).splitOn ",").mapM parseMod with
      | none => {}
      | some mods => { name := catalogTypeName (String.ofList (name ++ suffix)), mods, array }

def classifyTypeChange (op : Op) (facts : Facts) : Route × Reason × Bool :=
  if op.hasUsing then (.copyAndSwap, .typeRewrite, false)
  else if (facts.columnCollations.lookup op.column).isSome then (.copyAndSwap, .typeRewrite, false)
  else match facts.columnTypes.bind (·.lookup op.column) with
    | none => (.copyAndSwap, .typeRewrite, true)
    | some oldType =>
      if binaryCoercible (parseTypeText oldType) (targetTypeShape op) then
        (.native, .binaryCoercible, false)
      else (.copyAndSwap, .typeRewrite, false)

/-! ### Safer sequences -/

section Sequences

/- The first eight hexadecimal digits of a name's SHA-256 hash. -/
variable (hash : String → String)

/-- The byte budget of an identifier. -/
def maxIdentifierBytes : Nat := 63

/-- A name within the byte budget: itself, or its head and a hash of the whole. -/
def fitIdentifier (name : String) : String :=
  if name.utf8ByteSize ≤ maxIdentifierBytes then name
  else
    let suffix := "_" ++ hash name
    String.ofList (clipChars name.toList (maxIdentifierBytes - suffix.utf8ByteSize)) ++ suffix

/-- The statement's table, as a step of a sequence names it. -/
def tableIdent (st : Statement) : RangeVar := { schemaname := st.schema, relname := st.table }

/-- ALTER TABLE t ADD CONSTRAINT c CHECK (col IS NOT NULL) NOT VALID; VALIDATE CONSTRAINT c;
ALTER COLUMN col SET NOT NULL; DROP CONSTRAINT c. -/
def setNotNullSequence (st : Statement) (column : String) : List Node :=
  let table := tableIdent st
  let con := fitIdentifier hash (st.table ++ "_" ++ column ++ "_not_null_check")
  [ .alterTable .table table [.addConstraint
      { contype := .check, conname := con, skipValidation := true
        rawExpr := some { text := column ++ " IS NOT NULL", refs := [.column [.name column]] } }],
    .alterTable .table table [.validateConstraint con],
    .alterTable .table table [.setNotNull column],
    .alterTable .table table [.dropConstraint con false] ]

def canBuildUsingIndexSequence (single : Bool) (op : Op) : Bool :=
  single && !op.columns.isEmpty && !op.indexOptionsUnrenderable

/-- CREATE UNIQUE INDEX CONCURRENTLY name ON t (columns) ...; ALTER TABLE t ADD CONSTRAINT name
PRIMARY KEY (or UNIQUE) USING INDEX name .... -/
def usingIndexSequence (st : Statement) (op : Op) : List Node :=
  let primary := op.constraint = .primaryKey
  let name :=
    if op.name = "" then
      fitIdentifier hash (st.table ++ "_" ++ "_".intercalate op.columns ++
        (if primary then "_pkey" else "_key"))
    else op.name
  [ .index
      { idxname := name, relation := tableIdent st, unique := true, concurrent := true
        indexParams := op.columns.map fun c => { text := c, refs := [.column [.name c]] }
        indexIncludingParams := op.includeColumns
        nullsNotDistinct := op.nullsNotDistinct
        options := op.indexStorageParams.map fun p =>
          { defname := p.name, arg := p.value.map .string }
        tableSpace := op.indexTablespace },
    .alterTable .table (tableIdent st) [.addConstraint
      { contype := if primary then .primary else .unique, conname := name, indexname := name
        deferrable := op.deferrable, initdeferred := op.initiallyDeferred }] ]

def constraintNaming (facts : Facts) : ConstraintNaming where
  columns := facts.columnTypes.map (·.map (·.1))
  taken := facts.constraintNames

/-- The constraint added NOT VALID, then ALTER TABLE t VALIDATE CONSTRAINT name. -/
def notValidSequence (st : Statement) (sql : Node) (facts : Facts) : List Node :=
  match addNotValid sql (constraintNaming facts) with
  | .error _ => []
  | .ok (notValid, name) =>
    [notValid, .alterTable .table (tableIdent st) [.validateConstraint name]]

/-! ### Operations -/

/-- A CHECK or FOREIGN KEY, which ADD CONSTRAINT validates unless told not to. -/
def validatedOnAdd (op : Op) : Bool := op.constraint = .check || op.constraint = .foreignKey

/-- The decision for an operation that is online in its CONCURRENTLY form. -/
def concurrentlyDecision (d : Decision) (concurrent : Bool) (sql : Node) (single : Bool) :
    Decision :=
  if concurrent then { d with route := .native, reason := .onlineIdiom }
  else
    { d with
      route := .native
      reason := .saferIdiom
      saferSQL := if single then
          match concurrently sql with
          | .ok safer => [safer]
          | .error _ => []
        else [] }

def classifyAddConstraint (op : Op) (st : Statement) (sql : Node) (single : Bool) : Decision :=
  let d : Decision := { operation := op.describe, kind := op.kind }
  if op.usingIndex || op.notValid then { d with route := .native, reason := .onlineIdiom }
  else if op.constraint = .primaryKey || op.constraint = .unique then
    { d with
      route := .native
      reason := .saferIdiom
      saferSQL :=
        if canBuildUsingIndexSequence single op then usingIndexSequence hash st op else [] }
  else if validatedOnAdd op then
    { d with
      route := .native
      reason := .saferIdiom
      saferSQL := if single then notValidSequence st sql {} else [] }
  else if op.constraint = .notNull then { d with route := .native, reason := .saferIdiom }
  else { d with route := .refuse, reason := .unsupportedOperation }

/-- The route and reason of an added column, and whether they are unproven. -/
def classifyAddColumn (op : Op) (facts : Facts) : Route × Reason × Bool :=
  let proof := addColumnProof op facts
  if op.inlineConstraints.contains .unrecognized then (.refuse, .unsupportedOperation, false)
  else if op.generatedStored then (.copyAndSwap, .generatedStored, false)
  else if proof = some .defaultRewrites then (.copyAndSwap, .volatileDefault, false)
  else if proof = some .typeRewrites then (.copyAndSwap, .typeRewrite, false)
  else if proof = some .unproven then (.copyAndSwap, unprovenRewriteReason op, true)
  else if op.default = .expression && proof ≠ some .inPlace then
    (.copyAndSwap, .volatileDefault, true)
  else if !op.inlineConstraints.isEmpty then (.native, .saferIdiom, false)
  else if op.default ≠ .none then (.native, .fastDefault, false)
  else (.native, .metadataOnly, false)

/-- The route of an operation nothing else on the table stands in the way of. -/
def classifyShape (op : Op) (st : Statement) (facts : Facts) (sql : Node) (single : Bool) :
    Decision :=
  let d : Decision :=
    { operation := op.describe, kind := op.kind, destructive := destructiveOp op.kind }
  match op.kind with
  | .createTable =>
    { d with reason := if op.partitionOf then .partitionParentLock else .metadataOnly }
  | .addColumn =>
    let (route, reason, unverified) := classifyAddColumn op facts
    { d with route, reason, unverified }
  | .dropColumn | .setDefault | .dropDefault | .dropNotNull | .setColumnOptions
  | .setRelOptions | .setSchema | .dropConstraint => { d with reason := .metadataOnly }
  | .renameColumn | .renameTable => { d with reason := .appBreakingRename }
  | .renameIndex =>
    { d with
      reason := if facts.renamedIndexConstraint = "" then .metadataOnly else .appBreakingRename }
  | .alterColumnType =>
    let (route, reason, unverified) := classifyTypeChange op facts
    { d with route, reason, unverified }
  | .setNotNull =>
    { d with
      reason := .saferIdiom
      saferSQL := if single then setNotNullSequence hash st op.column else [] }
  | .setTablespace => { d with route := .copyAndSwap, reason := .relocation }
  | .addConstraint =>
    let d := classifyAddConstraint hash op st sql single
    if !d.saferSQL.isEmpty && validatedOnAdd op then
      { d with saferSQL := notValidSequence st sql facts }
    else d
  | .validateConstraint => { d with reason := .onlineIdiom }
  | .attachPartition => { d with reason := .saferIdiom }
  | .detachPartition | .createIndex | .dropIndex | .reindex =>
    concurrentlyDecision d op.concurrent sql single
  | .unrecognized => { d with route := .refuse, reason := .unsupportedOperation }

/-- The refusal of an operation that drops the replica identity, cascades, or retypes or drops a
column a view reads. -/
def refusedOp (op : Op) (facts : Facts) : Option Decision :=
  let d : Decision :=
    { operation := op.describe, kind := op.kind, destructive := destructiveOp op.kind }
  if facts.replicaIdentity.droppedBy op then
    some { d with route := .refuse, reason := .replicaIdentity }
  else if op.cascade then some { d with route := .refuse, reason := .cascadingDrop }
  else if viewsReadingColumn op facts ≠ [] then
    some { d with
      route := .refuse, reason := .dependentView, dependentViews := viewsReadingColumn op facts }
  else none

/-- The manual path for a change that policies stand in the way of: a type change is judged by the
route it would take without them. -/
def dependentPolicyFix (op : Op) (st : Statement) (facts : Facts) (sql : Node) (single : Bool) :
    PolicyFix :=
  if op.kind = .dropColumn then .rewritePolicies
  else if ((refusedOp op facts).getD (classifyShape hash op st facts sql single)).route = .native
    then .recreateAroundChange
  else .expandContract

/-- The route of one operation. -/
def classifyOp (op : Op) (st : Statement) (facts : Facts) (sql : Node) (single : Bool) : Decision :=
  match refusedOp op facts with
  | some d => d
  | none =>
    if policiesReadingColumn op facts ≠ [] then
      { operation := op.describe, kind := op.kind, destructive := destructiveOp op.kind
        route := .refuse, reason := .dependentPolicy
        dependentPolicies := policiesReadingColumn op facts
        policyFix := some (dependentPolicyFix hash op st facts sql single) }
    else classifyShape hash op st facts sql single

/-- The decision with the execution contract of its safer sequence. -/
def stampExecution (d : Decision) : Decision :=
  if d.saferSQL = [] then d else { d with saferSQLExecution := some .autocommit }

/-- The classification of a statement. -/
def classify (sql : Node) (facts : Facts) : Plan :=
  let ops := parseOps sql
  let decisions := ops.map fun op =>
    stampExecution (classifyOp hash op (parseOne sql) facts sql (ops.length = 1))
  { statement := sql
    route := (decisions.map (·.route)).foldl Route.worse .native
    decisions }

/-! ### What every decision carries -/

/-- A decision that carries a safer sequence is native, is not executable as submitted, and is the
only one of its statement. -/
structure Decision.Safer (d : Decision) (single : Bool) : Prop where
  native : d.route = .native
  notAsSubmitted : d.executableAsSubmitted = false
  single : single = true

/-- What the classifier makes of an operation: a rewrite only of an added column, a type change or a
move to another tablespace, a safer sequence only where `Safer` allows it, and no execution
contract, which `classify` stamps. -/
structure Decision.Decides (d : Decision) (op : Op) (single : Bool) : Prop where
  kind : d.kind = op.kind
  destructive : d.destructive = destructiveOp op.kind
  unstamped : d.saferSQLExecution = none
  rewrites : d.route = .copyAndSwap →
    op.kind = .addColumn ∨ op.kind = .alterColumnType ∨ op.kind = .setTablespace
  safer : d.saferSQL ≠ [] → d.Safer single

variable {op : Op} {st : Statement} {facts : Facts} {sql : Node} {single : Bool} {d : Decision}

theorem Decision.Decides.plain (kind : d.kind = op.kind)
    (destructive : d.destructive = destructiveOp op.kind) (unstamped : d.saferSQLExecution = none)
    (route : d.route ≠ .copyAndSwap) (none : d.saferSQL = []) : d.Decides op single :=
  ⟨kind, destructive, unstamped, fun rewritten => absurd rewritten route,
    fun safer => absurd none safer⟩

theorem single_of_ne_nil {steps : List Node} (some : (if single then steps else []) ≠ []) :
    single = true := by
  cases single with
  | true => rfl
  | false => exact absurd rfl some

theorem refusedOp_decides (single : Bool) (refused : refusedOp op facts = some d) :
    d.route = .refuse ∧ d.Decides op single := by
  unfold refusedOp at refused
  dsimp only at refused
  split at refused
  · cases refused
    exact ⟨rfl, .plain rfl rfl rfl nofun rfl⟩
  · split at refused
    · cases refused
      exact ⟨rfl, .plain rfl rfl rfl nofun rfl⟩
    · split at refused
      · cases refused
        exact ⟨rfl, .plain rfl rfl rfl nofun rfl⟩
      · cases refused

theorem concurrentlyDecision_decides {concurrent : Bool} (before : d.Decides op single)
    (none : d.saferSQL = []) :
    (concurrentlyDecision d concurrent sql single).Decides op single := by
  unfold concurrentlyDecision
  cases concurrent with
  | true => exact .plain before.kind before.destructive before.unstamped nofun none
  | false => exact ⟨before.kind, before.destructive, before.unstamped, nofun,
      fun safer => ⟨rfl, rfl, single_of_ne_nil safer⟩⟩

/-- What is decided on an added constraint. -/
theorem classifyAddConstraint_decides (kind : op.kind = .addConstraint) :
    (classifyAddConstraint hash op st sql single).Decides op single := by
  have kept : false = destructiveOp op.kind := by rw [kind]; rfl
  unfold classifyAddConstraint
  dsimp only
  split
  · exact .plain rfl kept rfl nofun rfl
  · split
    · refine ⟨rfl, kept, rfl, nofun, fun safer => ⟨rfl, rfl, ?_⟩⟩
      cases single with
      | true => rfl
      | false => exact absurd rfl safer
    · split
      · exact ⟨rfl, kept, rfl, nofun, fun safer => ⟨rfl, rfl, single_of_ne_nil safer⟩⟩
      · split
        · exact .plain rfl kept rfl nofun rfl
        · exact .plain rfl kept rfl nofun rfl

/-- **What the shape of an operation decides.** -/
theorem classifyShape_decides : (classifyShape hash op st facts sql single).Decides op single := by
  unfold classifyShape
  cases kind : op.kind <;> dsimp only
  case addColumn | alterColumnType | setTablespace =>
    exact ⟨kind.symm, by rw [kind], rfl, fun _ => by simp [kind], fun safer => absurd rfl safer⟩
  case setNotNull =>
    exact ⟨kind.symm, by rw [kind], rfl, nofun,
      fun safer => ⟨rfl, rfl, single_of_ne_nil safer⟩⟩
  case addConstraint =>
    have made : (classifyAddConstraint hash op st sql single).Decides op single :=
      classifyAddConstraint_decides hash kind
    split
    next restated =>
      rw [Bool.and_eq_true, Bool.not_eq_true', List.isEmpty_eq_false_iff] at restated
      have safer := made.safer restated.1
      exact { made with safer := fun _ => { safer with } }
    next => exact made
  case detachPartition | createIndex | dropIndex | reindex =>
    exact concurrentlyDecision_decides (.plain kind.symm (by rw [kind]) rfl nofun rfl) rfl
  all_goals exact .plain kind.symm (by rw [kind]) rfl nofun rfl

/-- **What is decided on an operation**: a safer sequence is only on a native decision, in place of
a form that is not executable as submitted, and in a statement of one operation. -/
theorem classifyOp_decides : (classifyOp hash op st facts sql single).Decides op single := by
  unfold classifyOp
  cases refused : refusedOp op facts with
  | some d => exact (refusedOp_decides single refused).2
  | none =>
    dsimp only
    split
    · exact .plain rfl rfl rfl nofun rfl
    · exact classifyShape_decides hash

theorem stampExecution_saferSQL (d : Decision) : (stampExecution d).saferSQL = d.saferSQL := by
  unfold stampExecution
  split <;> rfl

theorem stampExecution_route (d : Decision) : (stampExecution d).route = d.route := by
  unfold stampExecution
  split <;> rfl

theorem worse_native (a : Route) : Route.worse .native a = a := by
  cases a <;> rfl

/-- **A statement with a safer sequence has one decision and goes to the native route.** -/
theorem classify_saferSQL (among : d ∈ (classify hash sql facts).decisions)
    (safer : d.saferSQL ≠ []) :
    (classify hash sql facts).decisions = [d] ∧ (classify hash sql facts).route = .native := by
  obtain ⟨op, operation, rfl⟩ := List.mem_map.mp among
  rw [stampExecution_saferSQL] at safer
  have one := (classifyOp_decides hash).safer safer
  have single : (parseOps sql).length = 1 := of_decide_eq_true one.single
  obtain ⟨only, ops⟩ := List.length_eq_one_iff.mp single
  have same : op = only := by
    rw [ops, List.mem_singleton] at operation
    exact operation
  subst same
  have decisions : (classify hash sql facts).decisions =
      [stampExecution (classifyOp hash op (parseOne sql) facts sql
        (decide ((parseOps sql).length = 1)))] := by
    unfold classify
    rw [ops]
    rfl
  refine ⟨decisions, ?_⟩
  show (((classify hash sql facts).decisions.map (·.route)).foldl Route.worse .native) = .native
  rw [decisions, List.map_singleton, List.foldl_cons, List.foldl_nil, worse_native,
    stampExecution_route]
  exact one.native

end Sequences

end PgSprite.Planner
