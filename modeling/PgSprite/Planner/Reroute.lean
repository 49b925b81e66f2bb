/-
**Two routings of one statement.**

A statement is classified when it is planned and again when its turn comes, from facts read anew. Of
everything the facts hold, a statement that runs both times depends on two things: whether a column
it retypes is rewritten, and the name given to a constraint it adds in two steps.

* `routeStatement_backend` — a statement that runs goes to copy-and-swap exactly where the facts
  show a column it retypes to be rewritten;
* `routeStatement_agree_iff` — it has the same backend and the same steps from other facts exactly
  where the two readings agree on these.
-/

import PgSprite.Planner.Route

namespace PgSprite.Planner

open PgSprite.Statement

/-- A change of a column's type that the facts do not show to be a relabel. -/
def rewritesType (facts : Facts) (op : Op) : Bool :=
  op.kind = .alterColumnType && (op.hasUsing || (facts.columnCollations.lookup op.column).isSome ||
    !(facts.columnTypes.bind (·.lookup op.column)).any fun old =>
      binaryCoercible (parseTypeText old) (targetTypeShape op))

/-- A CHECK or FOREIGN KEY that is added unvalidated first, by a name the facts choose where the
statement gives none. -/
def addsInTwoSteps (op : Op) : Bool :=
  op.kind = .addConstraint && !op.usingIndex && !op.notValid && validatedOnAdd op

/-- What two readings of a table agree on where they route a statement alike. -/
structure FactsAgree (sql : Node) (planned turn : Facts) : Prop where
  rewrites : (parseOps sql).any (rewritesType turn) = (parseOps sql).any (rewritesType planned)
  named : ∀ op, parseOps sql = [op] → addsInTwoSteps op = true →
    addNotValid sql (constraintNaming turn) = addNotValid sql (constraintNaming planned)

section Shape

variable (hash : String → String) {op : Op} {st : Statement} {facts : Facts} {sql : Node}
  {single : Bool}

/-- A type change is a rewrite exactly where the facts do not show it to be a relabel. -/
theorem classifyTypeChange_route (retypes : op.kind = .alterColumnType) :
    (classifyTypeChange op facts).1 =
      if rewritesType facts op then .copyAndSwap else .native := by
  unfold classifyTypeChange rewritesType
  rw [decide_eq_true retypes, Bool.true_and]
  cases op.hasUsing with
  | true => rfl
  | false =>
    cases (facts.columnCollations.lookup op.column).isSome with
    | true => rfl
    | false =>
      cases facts.columnTypes.bind (·.lookup op.column) with
      | none => rfl
      | some old =>
        cases same : binaryCoercible (parseTypeText old) (targetTypeShape op) <;> simp [same]

/-- An operation that is not refused is routed by its shape. -/
theorem classifyOp_eq_shape (unrefused : (classifyOp hash op st facts sql single).route ≠ .refuse) :
    classifyOp hash op st facts sql single = classifyShape hash op st facts sql single := by
  unfold classifyOp at unrefused ⊢
  cases refused : refusedOp op facts with
  | some d =>
    rw [refused] at unrefused
    exact absurd (refusedOp_decides single refused).1 unrefused
  | none =>
    rw [refused] at unrefused
    dsimp only at unrefused ⊢
    split at unrefused
    · exact absurd rfl unrefused
    next alone => exact if_neg alone

/-- The facts choose a safer sequence only for a constraint added in two steps. -/
theorem classifyShape_saferSQL_eq (planned turn : Facts) (other : addsInTwoSteps op = false) :
    (classifyShape hash op st turn sql single).saferSQL =
      (classifyShape hash op st planned sql single).saferSQL := by
  unfold classifyShape
  cases kind : op.kind <;> dsimp only
  case addConstraint =>
    have one : (!(classifyAddConstraint hash op st sql single).saferSQL.isEmpty &&
        validatedOnAdd op) = false := by
      unfold addsInTwoSteps at other
      unfold classifyAddConstraint
      cases index : op.usingIndex <;> cases valid : op.notValid <;>
        cases added : validatedOnAdd op <;> simp_all
    simp only [one, Bool.false_eq_true, if_false]

/-- A constraint added in two steps is not executable as submitted, and its steps are the sequence
under the name the facts choose. -/
theorem classifyShape_twoSteps (adds : addsInTwoSteps op = true) :
    (classifyShape hash op st facts sql single).executableAsSubmitted = false ∧
      ((classifyShape hash op st facts sql single).saferSQL ≠ [] →
        (classifyShape hash op st facts sql single).saferSQL = notValidSequence st sql facts) := by
  simp only [addsInTwoSteps, Bool.and_eq_true, Bool.not_eq_true', decide_eq_true_eq] at adds
  obtain ⟨⟨⟨kind, index⟩, valid⟩, validated⟩ := adds
  have key : (op.constraint = .primaryKey || op.constraint = .unique) = false := by
    unfold validatedOnAdd at validated
    cases constraint : op.constraint <;> simp_all
  have shape : (classifyAddConstraint hash op st sql single).reason = .saferIdiom := by
    simp [classifyAddConstraint, index, valid, key, validated]
  unfold classifyShape
  simp only [kind, validated, Bool.and_true]
  split
  next => exact ⟨by simp [Decision.executableAsSubmitted, shape], fun _ => rfl⟩
  next none =>
    refine ⟨by simp [Decision.executableAsSubmitted, shape], fun safer => absurd ?_ safer⟩
    simpa using none

end Shape

section Routed

variable (hash : String → String) {sql : Node} {facts : Facts}

/-- The decision on an operation of a statement, by its shape. -/
def shapeOf (sql : Node) (facts : Facts) (op : Op) : Decision :=
  classifyShape hash op (parseOne sql) facts sql (decide ((parseOps sql).length = 1))

/-- Every decision of a statement that runs is made by the shape of its operation. -/
theorem decisions_of_runs
    (runs : (routeStatement (classify hash sql facts)).disposition = .execute) :
    (classify hash sql facts).decisions =
      (parseOps sql).map fun op => stampExecution (shapeOf hash sql facts op) := by
  refine List.map_congr_left fun op among => congrArg stampExecution ?_
  refine classifyOp_eq_shape hash fun refused => ?_
  have cleared := (routeStatement_cleared hash sql facts).refused
  rw [routeStatement_toPlan] at cleared
  have decided := List.mem_map_of_mem (f := fun op => stampExecution
    (classifyOp hash op (parseOne sql) facts sql (decide ((parseOps sql).length = 1)))) among
  have stops := (cleared ⟨_, decided, (stampExecution_route _).trans refused⟩).1
  rw [runs] at stops
  cases stops

/-- **A statement that runs goes to copy-and-swap exactly where a column it retypes is
rewritten.** -/
theorem routeStatement_backend
    (runs : (routeStatement (classify hash sql facts)).disposition = .execute) :
    (routeStatement (classify hash sql facts)).backend =
      if (parseOps sql).any (rewritesType facts) then some .copyAndSwap else some .native := by
  have decisions := decisions_of_runs hash runs
  have cleared := routeStatement_cleared hash sql facts
  rcases routeStatement_runs runs with ⟨route, backend, -⟩ | ⟨route, backend, -⟩
  · rw [backend, if_neg]
    intro rewritten
    obtain ⟨op, among, rewrites⟩ := List.any_eq_true.mp rewritten
    have retypes : op.kind = .alterColumnType :=
      of_decide_eq_true (Bool.and_eq_true_iff.mp rewrites).1
    have above := cleared.aggregate.above .copyAndSwap (by
      rw [routeStatement_toPlan, decisions, List.map_map]
      refine List.mem_map.mpr ⟨op, among, ?_⟩
      rw [Function.comp_apply, stampExecution_route, shapeOf, classifyShape]
      simp only [retypes]
      rw [classifyTypeChange_route retypes, if_pos rewrites])
    rw [routeStatement_toPlan, route] at above
    exact absurd above (by decide)
  · rw [backend, if_pos]
    obtain ⟨⟨d, decided, copied⟩, carried⟩ := cleared.carried backend runs
    have kind := ((carried d decided).2 copied).1
    rw [routeStatement_toPlan, decisions] at decided
    obtain ⟨op, among, rfl⟩ := List.mem_map.mp decided
    have retypes : op.kind = .alterColumnType := by
      have shaped : (shapeOf hash sql facts op).kind = op.kind :=
        (classifyShape_decides hash).kind
      rw [← shaped, ← kind, stampExecution]
      split <;> rfl
    refine List.any_eq_true.mpr ⟨op, among, ?_⟩
    rw [stampExecution_route, shapeOf, classifyShape] at copied
    simp only [retypes] at copied
    rw [classifyTypeChange_route retypes] at copied
    by_contra relabels
    rw [if_neg relabels] at copied
    cases copied

theorem stampExecution_executable (d : Decision) :
    (stampExecution d).executableAsSubmitted = d.executableAsSubmitted := by
  unfold stampExecution
  split <;> rfl

/-- What the native backend runs: the safer sequence of the one operation, or the statement where
there is none. -/
theorem routeStatement_execSQL
    (runs : (routeStatement (classify hash sql facts)).disposition = .execute)
    (native : (routeStatement (classify hash sql facts)).backend = some .native) :
    (∃ op, parseOps sql = [op] ∧ (shapeOf hash sql facts op).saferSQL ≠ [] ∧
      (routeStatement (classify hash sql facts)).execSQL = (shapeOf hash sql facts op).saferSQL) ∨
    (∀ op, parseOps sql = [op] → (shapeOf hash sql facts op).saferSQL = [] ∧
      (shapeOf hash sql facts op).executableAsSubmitted = true) ∧
      (routeStatement (classify hash sql facts)).execSQL = [sql] := by
  have decisions := decisions_of_runs hash runs
  rcases (routeStatement_cleared hash sql facts).native native runs with
    ⟨d, one, safer, steps⟩ | ⟨steps, submitted⟩
  · rw [routeStatement_toPlan, decisions] at one
    obtain ⟨op, ops, rfl⟩ := List.map_eq_singleton_iff.mp one
    rw [stampExecution_saferSQL] at safer steps
    exact .inl ⟨op, ops, safer, steps⟩
  · rw [routeStatement_toPlan] at steps submitted
    refine .inr ⟨fun op ops => ?_, steps⟩
    have safe := submitted (stampExecution (shapeOf hash sql facts op)) (by simp [decisions, ops])
    rw [stampExecution_executable] at safe
    refine ⟨?_, safe⟩
    by_contra safer
    cases safe.symm.trans ((classifyShape_decides hash).safer safer).notAsSubmitted

theorem notValidSequence_inj {st : Statement} {planned turn : Facts}
    (some : notValidSequence st sql planned ≠ []) (same : notValidSequence st sql turn =
      notValidSequence st sql planned) :
    addNotValid sql (constraintNaming turn) = addNotValid sql (constraintNaming planned) := by
  unfold notValidSequence at some same
  cases first : addNotValid sql (constraintNaming turn) <;>
    cases second : addNotValid sql (constraintNaming planned) <;>
    simp_all [Prod.ext_iff]

/-- A constraint added in two steps runs as its sequence. -/
theorem routeStatement_twoSteps {op : Op}
    (runs : (routeStatement (classify hash sql facts)).disposition = .execute)
    (ops : parseOps sql = [op]) (adds : addsInTwoSteps op = true) :
    (routeStatement (classify hash sql facts)).execSQL = notValidSequence (parseOne sql) sql facts ∧
      notValidSequence (parseOne sql) sql facts ≠ [] := by
  have kind : op.kind = .addConstraint := by
    simp only [addsInTwoSteps, Bool.and_eq_true, decide_eq_true_eq] at adds
    exact adds.1.1.1
  have native : (routeStatement (classify hash sql facts)).backend = some .native := by
    rw [routeStatement_backend hash runs, ops]
    simp [rewritesType, kind]
  obtain ⟨blocks, sequence⟩ := classifyShape_twoSteps hash adds
  rcases routeStatement_execSQL hash runs native with ⟨other, one, safer, steps⟩ | ⟨plain, -⟩
  · obtain rfl := List.singleton_inj.mp (ops.symm.trans one)
    rw [shapeOf, sequence safer] at steps
    exact ⟨steps, sequence safer ▸ safer⟩
  · cases blocks.symm.trans (plain op ops).2

/-- **Two routings of a statement that runs agree exactly where the facts do.** -/
theorem routeStatement_agree_iff {planned turn : Facts}
    (runs : (routeStatement (classify hash sql planned)).disposition = .execute)
    (again : (routeStatement (classify hash sql turn)).disposition = .execute) :
    (routeStatement (classify hash sql turn)).backend =
        (routeStatement (classify hash sql planned)).backend ∧
      (routeStatement (classify hash sql turn)).execSQL =
        (routeStatement (classify hash sql planned)).execSQL ↔
    FactsAgree sql planned turn := by
  constructor
  · rintro ⟨backend, steps⟩
    refine ⟨?_, fun op ops adds => ?_⟩
    · rw [routeStatement_backend hash again, routeStatement_backend hash runs] at backend
      cases first : (parseOps sql).any (rewritesType turn) <;>
        cases second : (parseOps sql).any (rewritesType planned) <;> simp_all
    · obtain ⟨before, some⟩ := routeStatement_twoSteps hash runs ops adds
      obtain ⟨after, -⟩ := routeStatement_twoSteps hash again ops adds
      exact notValidSequence_inj some (by rw [← after, ← before, steps])
  · intro agree
    have backend : (routeStatement (classify hash sql turn)).backend =
        (routeStatement (classify hash sql planned)).backend := by
      rw [routeStatement_backend hash again, routeStatement_backend hash runs, agree.rewrites]
    refine ⟨backend, ?_⟩
    by_cases two : ∃ op, parseOps sql = [op] ∧ addsInTwoSteps op = true
    · obtain ⟨op, ops, adds⟩ := two
      rw [(routeStatement_twoSteps hash again ops adds).1,
        (routeStatement_twoSteps hash runs ops adds).1, notValidSequence, notValidSequence,
        agree.named op ops adds]
    -- otherwise the facts choose no step
    have same : ∀ op, parseOps sql = [op] →
        (shapeOf hash sql turn op).saferSQL = (shapeOf hash sql planned op).saferSQL :=
      fun op ops => classifyShape_saferSQL_eq hash planned turn
        (Bool.eq_false_iff.mpr fun adds => two ⟨op, ops, adds⟩)
    rcases routeStatement_runs runs with ⟨-, native, -⟩ | ⟨-, copied, none, -⟩
    · rcases routeStatement_execSQL hash again (backend.trans native) with
          ⟨op, ops, safer, steps⟩ | ⟨plain, steps⟩ <;>
        rcases routeStatement_execSQL hash runs native with
          ⟨op', ops', safer', steps'⟩ | ⟨plain', steps'⟩
      · obtain rfl := List.singleton_inj.mp (ops.symm.trans ops')
        rw [steps, steps', same op ops]
      · exact absurd ((same op ops).trans (plain' op ops).1) safer
      · exact absurd ((same op' ops').symm.trans (plain op' ops').1) safer'
      · rw [steps, steps']
    · rcases routeStatement_runs again with ⟨-, native, -⟩ | ⟨-, -, none', -⟩
      · cases native.symm.trans (backend.trans copied)
      · rw [none, none']

end Routed

end PgSprite.Planner
