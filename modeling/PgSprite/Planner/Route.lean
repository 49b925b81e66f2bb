/-
**Routing a classified statement.**

Routing assigns a classified statement its backend and says what executing it now would come to. It
is policy only: a copy-and-swap statement is available where the shadow-table engine carries every
operation routed to it, and a native statement that is not executable as submitted needs a safer
sequence.

* `routeStatement_refuse` — a refused statement has no backend and nothing to execute;
* `le_route_disposition` — the aggregate is at least as severe as each statement;
* `route_cleared` — what runs natively is a form the planner cleared, a refused operation refuses
  its statement, copy-and-swap runs only the type rewrites it carries, and both aggregates are the
  most severe member in any order.
-/

import PgSprite.Planner.Classify

namespace PgSprite.Planner

open PgSprite.Statement

inductive Backend where
  | native
  | copyAndSwap
  deriving DecidableEq, Repr

/-- What executing a statement now would come to. -/
inductive Disposition where
  | execute
  | rewriteRequired
  | unavailable
  | refuse
  deriving DecidableEq, Repr

namespace Disposition

def rank : Disposition → Nat
  | execute => 0
  | rewriteRequired => 1
  | unavailable => 2
  | refuse => 3

/-- The worse of two dispositions, the first where they are alike. -/
def worse (a b : Disposition) : Disposition := if a.rank < b.rank then b else a

theorem rank_le_refuse (d : Disposition) : d.rank ≤ refuse.rank := by
  cases d <;> decide

theorem rank_worse (a b : Disposition) : (worse a b).rank = max a.rank b.rank := by
  unfold worse
  split
  · omega
  · omega

end Disposition

/-- A classified statement with its backend, and the SQL the native backend would run. -/
structure RoutedStatement extends Plan where
  backend : Option Backend := none
  disposition : Disposition
  execSQL : List Node := []
  deriving DecidableEq, Repr

/-- The copy-and-swap decision the shadow-table engine carries: the type rewrite of a column. -/
def copyAndSwapCarriesOperation (d : Decision) : Bool :=
  d.kind = .alterColumnType && d.reason = .typeRewrite

/-- Whether the engine carries every operation of the plan routed to it. -/
def copyAndSwapCarries (p : Plan) : Bool :=
  p.decisions.all fun d => d.route ≠ .copyAndSwap || copyAndSwapCarriesOperation d

def available : Backend → Plan → Bool
  | .native, _ => true
  | .copyAndSwap, p => copyAndSwapCarries p

/-- What the native backend would run: the safer sequence of a single decision, or the submitted
form where every decision is safe as submitted. -/
def nativeExecSQL (p : Plan) : Option (List Node) :=
  match p.decisions with
  | [d] => if d.saferSQL ≠ [] then some d.saferSQL else asSubmitted
  | _ => asSubmitted
where
  asSubmitted : Option (List Node) :=
    if p.decisions.all (·.executableAsSubmitted) then some [p.statement] else none

/-- The backend and disposition of one statement. -/
def routeStatement (p : Plan) : RoutedStatement :=
  match p.route with
  | .refuse => { toPlan := p, disposition := .refuse }
  | .copyAndSwap =>
    if available .copyAndSwap p then
      { toPlan := p, backend := some .copyAndSwap, disposition := .execute }
    else { toPlan := p, backend := some .copyAndSwap, disposition := .unavailable }
  | .native =>
    match nativeExecSQL p with
    | none => { toPlan := p, backend := some .native, disposition := .rewriteRequired }
    | some execSQL =>
      { toPlan := p, backend := some .native, disposition := .execute, execSQL }

/-- The routed statements of a plan, and its aggregate disposition. -/
def route (plans : List Plan) : List RoutedStatement × Disposition :=
  let routed := plans.map routeStatement
  (routed, (routed.map (·.disposition)).foldl Disposition.worse .execute)

/-! ### What a disposition says -/

theorem routeStatement_toPlan (p : Plan) : (routeStatement p).toPlan = p := by
  unfold routeStatement
  cases p.route with
  | refuse => rfl
  | copyAndSwap =>
    dsimp only
    split <;> rfl
  | native =>
    dsimp only
    cases nativeExecSQL p <;> rfl

variable {p : Plan}

/-- A refused statement is one whose route is refused; it has no backend and nothing to execute. -/
theorem routeStatement_refuse (refused : (routeStatement p).disposition = .refuse) :
    p.route = .refuse ∧ (routeStatement p).backend = none ∧ (routeStatement p).execSQL = [] := by
  unfold routeStatement at refused ⊢
  cases routed : p.route with
  | refuse => exact ⟨rfl, rfl, rfl⟩
  | copyAndSwap =>
    rw [routed] at refused
    dsimp only at refused
    split at refused <;> cases refused
  | native =>
    rw [routed] at refused
    dsimp only at refused
    cases sql : nativeExecSQL p <;> rw [sql] at refused <;> cases refused

/-! ### The most severe member -/

theorem Disposition.rank_injective {a b : Disposition} (same : a.rank = b.rank) : a = b := by
  cases a <;> cases b <;> first | rfl | cases same

theorem Route.rank_injective {a b : Route} (same : a.rank = b.rank) : a = b := by
  cases a <;> cases b <;> first | rfl | cases same

theorem Route.rank_worse (a b : Route) : (worse a b).rank = max a.rank b.rank := by
  unfold worse
  split
  · omega
  · omega

section MostSevere

variable {α : Type} (rank : α → Nat) (worse : α → α → α)

/-- A member of a list at least as severe as every other, or the mildest value of an empty one. -/
structure MostSevere (mildest : α) (members : List α) (a : α) : Prop where
  member : a = mildest ∨ a ∈ members
  above : ∀ b ∈ members, rank b ≤ rank a

variable {rank worse}

/-- The worse of two is one of them. -/
def Picks (worse : α → α → α) : Prop := ∀ a b, worse a b = a ∨ worse a b = b

theorem foldl_worse_member (picks : Picks worse) (members : List α) :
    ∀ start, members.foldl worse start = start ∨ members.foldl worse start ∈ members := by
  induction members with
  | nil => exact fun start => .inl rfl
  | cons a members ih =>
    intro start
    rw [List.foldl_cons]
    rcases ih (worse start a) with same | among
    · rcases picks start a with first | second
      · exact .inl (same.trans first)
      · exact .inr (List.mem_cons.mpr (.inl (same.trans second)))
    · exact .inr (List.mem_cons_of_mem _ among)

/-- A fold of the worse of two ends at or above its start and each member. -/
theorem foldl_worse_above (ranks : ∀ a b, rank (worse a b) = max (rank a) (rank b))
    (members : List α) :
    ∀ start, rank start ≤ rank (members.foldl worse start) ∧
      ∀ b ∈ members, rank b ≤ rank (members.foldl worse start) := by
  induction members with
  | nil => exact fun start => ⟨Nat.le_refl _, fun b among => by cases among⟩
  | cons a members ih =>
    intro start
    obtain ⟨above, each⟩ := ih (worse start a)
    rw [ranks] at above
    refine ⟨by rw [List.foldl_cons]; omega, fun b among => ?_⟩
    rw [List.foldl_cons]
    rcases List.mem_cons.mp among with rfl | among
    · omega
    · exact each b among

theorem mostSevere_foldl (picks : Picks worse)
    (ranks : ∀ a b, rank (worse a b) = max (rank a) (rank b)) (mildest : α) (members : List α) :
    MostSevere rank mildest members (members.foldl worse mildest) :=
  ⟨foldl_worse_member picks members mildest, (foldl_worse_above ranks members mildest).2⟩

/-- The most severe member is one value, whatever the order of the members. -/
theorem MostSevere.eq_of_perm (injective : ∀ {a b}, rank a = rank b → a = b) {mildest : α}
    (least : ∀ a, rank mildest ≤ rank a) {members others : List α} {a b : α}
    (first : MostSevere rank mildest members a) (second : MostSevere rank mildest others b)
    (reordered : members.Perm others) : a = b := by
  have below : rank a ≤ rank b := by
    rcases first.member with rfl | among
    · exact least b
    · exact second.above a (reordered.mem_iff.mp among)
  have above : rank b ≤ rank a := by
    rcases second.member with rfl | among
    · exact least a
    · exact first.above b (reordered.mem_iff.mpr among)
  exact injective (Nat.le_antisymm below above)

end MostSevere

theorem Disposition.picks_worse : Picks Disposition.worse := by
  intro a b
  unfold Disposition.worse
  split
  · exact .inr rfl
  · exact .inl rfl

theorem Route.picks_worse : Picks Route.worse := by
  intro a b
  unfold Route.worse
  split
  · exact .inr rfl
  · exact .inl rfl

theorem mostSevere_disposition (ds : List Disposition) :
    MostSevere Disposition.rank .execute ds (ds.foldl Disposition.worse .execute) :=
  mostSevere_foldl Disposition.picks_worse Disposition.rank_worse .execute ds

/-- **The aggregate disposition is at least as severe as each statement's.** -/
theorem le_route_disposition {plans : List Plan} {rs : RoutedStatement}
    (among : rs ∈ (route plans).1) : rs.disposition.rank ≤ (route plans).2.rank :=
  (mostSevere_disposition _).above _ (List.mem_map_of_mem among)

theorem mostSevere_route (rs : List Route) :
    MostSevere Route.rank .native rs (rs.foldl Route.worse .native) :=
  mostSevere_foldl Route.picks_worse Route.rank_worse .native rs

/-! ### What routing clears -/

/-- The form the native backend runs: the safer sequence of the statement's one decision, or the
submitted statement where every decision is executable as submitted. -/
def RoutedStatement.ClearedForm (rs : RoutedStatement) : Prop :=
  (∃ d, rs.decisions = [d] ∧ d.saferSQL ≠ [] ∧ rs.execSQL = d.saferSQL) ∨
    rs.execSQL = [rs.statement] ∧ ∀ d ∈ rs.decisions, d.executableAsSubmitted = true

/-- What a routed statement may run. -/
structure RoutedStatement.Cleared (rs : RoutedStatement) : Prop where
  native : rs.backend = some .native → rs.disposition = .execute → rs.ClearedForm
  refused : (∃ d ∈ rs.decisions, d.route = .refuse) →
    rs.disposition = .refuse ∧ rs.backend = none ∧ rs.execSQL = []
  carried : rs.backend = some .copyAndSwap → rs.disposition = .execute →
    (∃ d ∈ rs.decisions, d.route = .copyAndSwap) ∧
      ∀ d ∈ rs.decisions, d.route ≠ .refuse ∧
        (d.route = .copyAndSwap → d.kind = .alterColumnType ∧ d.reason = .typeRewrite)
  aggregate : MostSevere Route.rank .native (rs.decisions.map (·.route)) rs.route
  stamped : ∀ d ∈ rs.decisions, d.saferSQLExecution.isSome = true ↔ d.saferSQL ≠ []

/-- What runs is the safer form of the one decision, or the statement as cleared. -/
theorem nativeExecSQL_cleared {execSQL : List Node} (runs : nativeExecSQL p = some execSQL) :
    (∃ d, p.decisions = [d] ∧ d.saferSQL ≠ [] ∧ execSQL = d.saferSQL) ∨
      execSQL = [p.statement] ∧ ∀ d ∈ p.decisions, d.executableAsSubmitted = true := by
  have submitted : nativeExecSQL.asSubmitted p = some execSQL →
      execSQL = [p.statement] ∧ ∀ d ∈ p.decisions, d.executableAsSubmitted = true := by
    intro asSubmitted
    unfold nativeExecSQL.asSubmitted at asSubmitted
    by_cases safe : p.decisions.all (·.executableAsSubmitted) = true
    · rw [if_pos safe] at asSubmitted
      cases asSubmitted
      exact ⟨rfl, List.all_eq_true.mp safe⟩
    · rw [if_neg safe] at asSubmitted
      cases asSubmitted
  unfold nativeExecSQL at runs
  split at runs
  · next d one =>
      by_cases safer : d.saferSQL ≠ []
      · rw [if_pos safer] at runs
        cases runs
        exact .inl ⟨d, one, safer, rfl⟩
      · rw [if_neg safer] at runs
        exact .inr (submitted runs)
  · exact .inr (submitted runs)

/-- A statement that runs goes to one of the two backends, and runs what that backend carries. -/
theorem routeStatement_runs (runs : (routeStatement p).disposition = .execute) :
    p.route = .native ∧ (routeStatement p).backend = some .native ∧
        nativeExecSQL p = some (routeStatement p).execSQL ∨
      p.route = .copyAndSwap ∧ (routeStatement p).backend = some .copyAndSwap ∧
        (routeStatement p).execSQL = [] ∧ copyAndSwapCarries p = true := by
  unfold routeStatement at runs ⊢
  cases route : p.route with
  | refuse =>
    rw [route] at runs
    cases runs
  | copyAndSwap =>
    rw [route] at runs
    dsimp only at runs ⊢
    by_cases carries : available .copyAndSwap p = true
    · rw [if_pos carries]
      exact .inr ⟨rfl, rfl, rfl, carries⟩
    · rw [if_neg carries] at runs
      cases runs
  | native =>
    rw [route] at runs
    dsimp only at runs ⊢
    cases sql : nativeExecSQL p with
    | none =>
      rw [sql] at runs
      cases runs
    | some execSQL => exact .inl ⟨rfl, rfl, rfl⟩

theorem routeStatement_route_refuse (refused : p.route = .refuse) :
    (routeStatement p).disposition = .refuse ∧ (routeStatement p).backend = none ∧
      (routeStatement p).execSQL = [] := by
  unfold routeStatement
  rw [refused]
  exact ⟨rfl, rfl, rfl⟩

theorem copyAndSwapCarries_iff (p : Plan) :
    copyAndSwapCarries p = true ↔ ∀ d ∈ p.decisions,
      d.route = .copyAndSwap → d.kind = .alterColumnType ∧ d.reason = .typeRewrite := by
  unfold copyAndSwapCarries
  rw [List.all_eq_true]
  refine forall_congr' fun d => forall_congr' fun _ => ?_
  unfold copyAndSwapCarriesOperation
  by_cases copied : d.route = .copyAndSwap
  · simp [copied]
  · simp [copied]

theorem rank_route_refuse {r : Route} (above : Route.rank .refuse ≤ r.rank) : r = .refuse := by
  cases r with
  | refuse => rfl
  | native => exact absurd above (by decide)
  | copyAndSwap => exact absurd above (by decide)

variable {d : Decision}

theorem stampExecution_isSome (fresh : d.saferSQLExecution = none) :
    (stampExecution d).saferSQLExecution.isSome = true ↔ (stampExecution d).saferSQL ≠ [] := by
  unfold stampExecution
  by_cases none : d.saferSQL = []
  · rw [if_pos none, fresh]
    simp [none]
  · rw [if_neg none]
    simp [none]

variable (hash : String → String)

theorem classify_stamped (sql : Node) (facts : Facts) :
    ∀ d ∈ (classify hash sql facts).decisions,
      d.saferSQLExecution.isSome = true ↔ d.saferSQL ≠ [] := by
  intro d among
  obtain ⟨op, _, rfl⟩ := List.mem_map.mp among
  exact stampExecution_isSome (classifyOp_decides hash).unstamped

/-- Every routed statement is cleared for what it executes. -/
theorem routeStatement_cleared (sql : Node) (facts : Facts) :
    (routeStatement (classify hash sql facts)).Cleared := by
  have plan := routeStatement_toPlan (classify hash sql facts)
  have most : MostSevere Route.rank .native
      ((classify hash sql facts).decisions.map (·.route)) (classify hash sql facts).route :=
    mostSevere_route _
  refine ⟨fun native runs => ?_, fun refused => ?_, fun copied runs => ?_, ?_, ?_⟩
  · obtain ⟨-, -, sql⟩ | ⟨-, copied, -⟩ := routeStatement_runs runs
    · unfold RoutedStatement.ClearedForm
      rw [plan]
      exact nativeExecSQL_cleared sql
    · cases native.symm.trans copied
  · rw [plan] at refused
    obtain ⟨d, among, isRefused⟩ := refused
    refine routeStatement_route_refuse (rank_route_refuse ?_)
    rw [← isRefused]
    exact most.above _ (List.mem_map_of_mem among)
  · obtain ⟨-, native, -⟩ | ⟨route, -, -, carries⟩ := routeStatement_runs runs
    · cases native.symm.trans copied
    rw [plan]
    refine ⟨?_, fun d among => ⟨fun refused => ?_, (copyAndSwapCarries_iff _).mp carries d among⟩⟩
    · rcases most.member with native | among
      · rw [route] at native
        cases native
      · obtain ⟨d, among, same⟩ := List.mem_map.mp among
        exact ⟨d, among, same.trans route⟩
    · have above := most.above _ (List.mem_map_of_mem (f := (·.route)) among)
      rw [refused, route] at above
      exact absurd above (by decide)
  · rw [plan]
    exact most
  · rw [plan]
    exact classify_stamped hash sql facts

/-- **Routing never runs a form the planner did not clear.** Of any statements, each classified from
facts of its own: every routed statement is cleared in the sense of `RoutedStatement.Cleared`, the
plan's disposition is that of its most severe statement, and neither aggregate depends on the order
of the operations or of the statements. -/
theorem route_cleared (statements : List (Node × Facts)) :
    let plans := statements.map fun statement => classify hash statement.1 statement.2
    (∀ rs ∈ (route plans).1, rs.Cleared) ∧
      MostSevere Disposition.rank .execute ((route plans).1.map (·.disposition)) (route plans).2 ∧
      (∀ reordered : List Plan, plans.Perm reordered → (route reordered).2 = (route plans).2) ∧
      ∀ p ∈ plans, ∀ reordered : List Decision, p.decisions.Perm reordered →
        (reordered.map (·.route)).foldl Route.worse .native = p.route := by
  intro plans
  have most : ∀ ps : List Plan, MostSevere Disposition.rank .execute
      ((route ps).1.map (·.disposition)) (route ps).2 := fun ps => mostSevere_disposition _
  refine ⟨fun rs among => ?_, most plans, fun reordered same => ?_,
    fun p among reordered same => ?_⟩
  · obtain ⟨p, planned, rfl⟩ := List.mem_map.mp among
    obtain ⟨statement, _, rfl⟩ := List.mem_map.mp planned
    exact routeStatement_cleared hash statement.1 statement.2
  · exact MostSevere.eq_of_perm Disposition.rank_injective (fun a => Nat.zero_le _)
      (most reordered) (most plans) ((same.symm.map _).map _)
  · obtain ⟨statement, _, rfl⟩ := List.mem_map.mp among
    exact MostSevere.eq_of_perm Route.rank_injective (fun a => Nat.zero_le _)
      (mostSevere_route _) (mostSevere_route _) (same.symm.map _)

end PgSprite.Planner
