/-
**The fingerprint of a plan.**

A plan's identity is a digest of what would execute: each statement's SQL, route, backend,
disposition and steps, every field followed by a unit separator and every statement by a record
separator. The SQL is what the deparser prints, and an identifier or a literal in it may hold either
separator. It does so only between quotes, which a printed text always closes, so the fields can
still be told apart.

* `closed_text` — a printed text ends outside quotes and has no separator outside them;
* `fingerprint_separates` — plans with one fingerprint are alike in all that it covers, and so is
  every plan a pinned fingerprint admits.
-/

import PgSprite.Lib.Framing
import PgSprite.Lib.Utf8
import PgSprite.Planner.Route
import PgSprite.Verdict.Refusal

namespace PgSprite.Plan

open PgSprite.Lib PgSprite.Planner
open PgSprite.Statement (Node)

/-! ### Planned statements -/

/-- The class of a change the diff derived. -/
inductive ChangeKind where
  | createTable
  | dropIndex
  | dropConstraint
  | dropForeignKey
  | dropColumn
  | addColumn
  | alterType
  | setGeneratedExpression
  | setDefault
  | dropDefault
  | setNotNull
  | dropNotNull
  | addConstraint
  | addForeignKey
  | validateConstraint
  | validateForeignKey
  | createIndex
  deriving DecidableEq, Repr

def ChangeKind.isForeignKey (k : ChangeKind) : Bool :=
  k = .addForeignKey || k = .dropForeignKey || k = .validateForeignKey

/-- Why the create path refuses a statement by its shape. -/
inductive CreateShapeCause where
  | partitionOf
  | inherits
  | like
  | ofType
  | foreignKey
  | ifNotExists
  | concurrently
  | duplicateName
  | multipleOperations
  | unsupportedKind
  | other (token : String)
  deriving DecidableEq, Repr

def CreateShapeCause.token : CreateShapeCause → String
  | partitionOf => "partition-of"
  | inherits => "inherits"
  | like => "like"
  | ofType => "of-type"
  | foreignKey => "foreign-key"
  | ifNotExists => "if-not-exists"
  | concurrently => "concurrently"
  | duplicateName => "duplicate-name"
  | multipleOperations => "multiple-operations"
  | unsupportedKind => "unsupported-kind"
  | other token => token

/-- What to do by hand about a statement that is not run as submitted. -/
inductive Guidance where
  | splitStatement
  | addColumnThenConstraint
  | prevalidatedCheck
  | notNullScaffold
  | nameConstraintThenValidate
  | uniqueIndexThenConstraint
  | expandContractColumn
  | coordinatedTableRename
  | coordinatedConstraintRename
  | alterColumnTypeInPlace
  deriving DecidableEq, Repr

/-- One statement of a plan: its SQL, its classification, and what executing it now would come
to. -/
structure PlannedStatement where
  sql : Node
  kind : Option ChangeKind := none
  /-- The index an ADD CONSTRAINT ... USING INDEX of the diff takes over. -/
  adopts : Option String := none
  /-- The constraint a VALIDATE CONSTRAINT of the diff validates. -/
  validates : Option String := none
  destructive : Bool := false
  route : Route
  backend : Option Backend := none
  disposition : Disposition
  reason : Option Verdict.Reason := none
  refusalClass : Option Verdict.Class := none
  owner : Option Verdict.Owner := none
  blockingPassthroughEligible : Option Bool := none
  cause : Option CreateShapeCause := none
  decisions : List Decision
  execSQL : List Node := []
  execution : Option Execution := none
  guidance : Option Guidance := none
  deriving DecidableEq

/-! ### Printed texts -/

/-- A piece of printed SQL: a byte outside quotes, a string literal, or a quoted identifier. No byte
outside quotes is a control character. -/
inductive Token where
  | bare (b : UInt8) (plain : b ≠ 0x27 ∧ b ≠ 0x22 ∧ b ≠ 0x1e ∧ b ≠ 0x1f)
  | literal (body : List UInt8)
  | identifier (body : List UInt8)

/-- A body with each quote in it doubled. -/
def doubled (quote : UInt8) (body : List UInt8) : List UInt8 :=
  body.flatMap fun b => if b = quote then [b, b] else [b]

def quoted (quote : UInt8) (body : List UInt8) : List UInt8 :=
  quote :: doubled quote body ++ [quote]

def Token.print : Token → List UInt8
  | .bare b _ => [b]
  | .literal body => quoted 0x27 body
  | .identifier body => quoted 0x22 body

/-- The bytes of a printed text. -/
def text (tokens : List Token) : List UInt8 := tokens.flatMap Token.print

/-- Which quotes a place in a text is between. -/
inductive Quoting where
  | outside
  | literal
  | identifier
  deriving DecidableEq, Repr

namespace Quoting

def step : Quoting → UInt8 → Quoting
  | outside, b => if b = 0x27 then literal else if b = 0x22 then identifier else outside
  | literal, b => if b = 0x27 then outside else literal
  | identifier, b => if b = 0x22 then outside else identifier

/-- A separator ends a field outside quotes. -/
def ends (q : Quoting) (b : UInt8) : Prop := q = outside ∧ (b = 0x1e ∨ b = 0x1f)

end Quoting

abbrev ClosedText (bs : List UInt8) : Prop := Closed Quoting.step Quoting.ends .outside bs

theorem closed_singleton {b : UInt8} (plain : b ≠ 0x27 ∧ b ≠ 0x22 ∧ b ≠ 0x1e ∧ b ≠ 0x1f) :
    ClosedText [b] := by
  obtain ⟨noQuote, noIdent, noRecord, noUnit⟩ := plain
  have stays : Quoting.step .outside b = .outside := by
    rw [Quoting.step, if_neg noQuote, if_neg noIdent]
  refine Reads.cons ?_ (by rw [stays]; exact .nil)
  rintro ⟨_, rfl | rfl⟩
  · exact noRecord rfl
  · exact noUnit rfl

/-- What is between quotes is read without an end, a doubled quote by leaving and coming back. -/
theorem closed_quoted {quote : UInt8} {between : Quoting} (apart : quote ≠ 0x1e ∧ quote ≠ 0x1f)
    (opens : Quoting.step .outside quote = between) (inside : between ≠ .outside)
    (steps : ∀ b, Quoting.step between b = if b = quote then .outside else between)
    (body : List UInt8) : ClosedText (quoted quote body) := by
  have closes : Quoting.step between quote = .outside := by rw [steps, if_pos rfl]
  have noEnd : ∀ b, ¬ Quoting.ends between b := fun b ends => inside ends.1
  have noQuote : ¬ Quoting.ends .outside quote := fun ends => ends.2.elim apart.1 apart.2
  have rest : Reads Quoting.step Quoting.ends between between (doubled quote body) := by
    induction body with
    | nil => exact .nil
    | cons b body ih =>
      unfold doubled
      rw [List.flatMap_cons]
      refine Reads.append ?_ ih
      by_cases same : b = quote
      · subst same
        rw [if_pos rfl]
        refine Reads.cons (noEnd b) ?_
        rw [closes]
        refine Reads.cons noQuote ?_
        rw [opens]
        exact .nil
      · rw [if_neg same]
        refine Reads.cons (noEnd b) ?_
        rw [steps, if_neg same]
        exact .nil
  refine Reads.cons noQuote ?_
  rw [opens]
  refine rest.append (Reads.cons (noEnd quote) ?_)
  rw [closes]
  exact .nil

/-- **A printed text ends outside quotes, and has no separator outside them.** -/
theorem closed_text (tokens : List Token) : ClosedText (text tokens) := by
  refine Closed.flatMap fun token _ => ?_
  cases token with
  | bare b plain => exact closed_singleton plain
  | literal body => exact closed_quoted (by decide) rfl (by decide) (fun b => rfl) body
  | identifier body => exact closed_quoted (by decide) rfl (by decide) (fun b => rfl) body

/-! ### The bytes of a plan -/

def routeWord : Route → String
  | .native => "native"
  | .copyAndSwap => "copy-and-swap"
  | .refuse => "refuse"

/-- The word of a backend, empty where there is none. -/
def backendWord : Option Backend → String
  | none => ""
  | some .native => "native"
  | some .copyAndSwap => "copy-and-swap"

def dispositionWord : Disposition → String
  | .execute => "execute"
  | .rewriteRequired => "rewrite-required"
  | .unavailable => "unavailable"
  | .refuse => "refuse"

/-- The bytes of a word. -/
def word (w : String) : List UInt8 := utf8 w.toList

section Fingerprint

variable (deparse : Node → List Token)

/-- The fields of a statement the fingerprint covers. -/
def fingerprintFields (st : PlannedStatement) : List (List UInt8) :=
  text (deparse st.sql) :: word (routeWord st.route) :: word (backendWord st.backend) ::
    word (dispositionWord st.disposition) :: st.execSQL.map fun sql => text (deparse sql)

/-- The bytes the fingerprint of a plan hashes. -/
def fingerprintBytes (statements : List PlannedStatement) : List UInt8 :=
  records 0x1f 0x1e (statements.map (fingerprintFields deparse))

/-- The fingerprint of a plan, by the hex digest of its bytes. -/
def fingerprint (sha256 : List UInt8 → String) (statements : List PlannedStatement) : String :=
  "sha256:" ++ sha256 (fingerprintBytes deparse statements)

/-- Whether a plan's fingerprint passes the one a request pinned, if it pinned any. -/
def pinAdmits (expected actual : String) : Bool := expected = "" || expected = actual

/-- What a fingerprint covers of a statement. -/
structure Covered where
  sql : List UInt8
  route : Route
  backend : Option Backend
  disposition : Disposition
  execSQL : List (List UInt8)
  deriving DecidableEq

def covered (st : PlannedStatement) : Covered where
  sql := text (deparse st.sql)
  route := st.route
  backend := st.backend
  disposition := st.disposition
  execSQL := st.execSQL.map fun sql => text (deparse sql)

/-! A word of the vocabulary is printed outside quotes and is the word of one value. -/

theorem routeWord_inj {a b : Route} (same : word (routeWord a) = word (routeWord b)) : a = b := by
  revert same
  cases a <;> cases b <;> decide

theorem backendWord_inj {a b : Option Backend}
    (same : word (backendWord a) = word (backendWord b)) : a = b := by
  revert same
  rcases a with _ | a
  · rcases b with _ | b
    · decide
    · cases b <;> decide
  · rcases b with _ | b
    · cases a <;> decide
    · cases a <;> cases b <;> decide

theorem dispositionWord_inj {a b : Disposition}
    (same : word (dispositionWord a) = word (dispositionWord b)) : a = b := by
  revert same
  cases a <;> cases b <;> decide

theorem closed_word {bs : List UInt8}
    (plain : ∀ b ∈ bs, b ≠ 0x27 ∧ b ≠ 0x22 ∧ b ≠ 0x1e ∧ b ≠ 0x1f) : ClosedText bs := by
  have closed : ClosedText (bs.flatMap fun b => [b]) :=
    Closed.flatMap fun b among => closed_singleton (plain b among)
  rwa [List.flatMap_singleton'] at closed

set_option maxRecDepth 2000 in
/-- Every field of a statement that is hashed is closed under its framing. -/
theorem closed_fingerprintFields (st : PlannedStatement) :
    ∀ f ∈ fingerprintFields deparse st, ClosedText f := by
  intro f among
  have route : ClosedText (word (routeWord st.route)) := by
    refine closed_word ?_
    cases st.route <;> decide
  have backend : ClosedText (word (backendWord st.backend)) := by
    refine closed_word ?_
    rcases st.backend with _ | b
    · decide
    · cases b <;> decide
  have disposition : ClosedText (word (dispositionWord st.disposition)) := by
    refine closed_word ?_
    cases st.disposition <;> decide
  unfold fingerprintFields at among
  rcases List.mem_cons.mp among with rfl | among
  · exact closed_text _
  · rcases List.mem_cons.mp among with rfl | among
    · exact route
    · rcases List.mem_cons.mp among with rfl | among
      · exact backend
      · rcases List.mem_cons.mp among with rfl | among
        · exact disposition
        · obtain ⟨sql, _, rfl⟩ := List.mem_map.mp among
          exact closed_text _

/-- The fields hashed determine exactly what is covered. -/
theorem covered_eq_iff (a b : PlannedStatement) :
    fingerprintFields deparse a = fingerprintFields deparse b ↔
      covered deparse a = covered deparse b := by
  refine ⟨fun same => ?_, fun same => ?_⟩
  · unfold fingerprintFields at same
    simp only [List.cons.injEq] at same
    obtain ⟨sql, route, backend, disposition, execSQL⟩ := same
    unfold covered
    rw [sql, routeWord_inj route, backendWord_inj backend, dispositionWord_inj disposition, execSQL]
  · unfold covered at same
    simp only [Covered.mk.injEq] at same
    obtain ⟨sql, route, backend, disposition, execSQL⟩ := same
    unfold fingerprintFields
    rw [sql, route, backend, disposition, execSQL]

/-- The bytes determine what they cover of each statement. -/
theorem fingerprintBytes_eq_iff (ss ts : List PlannedStatement) :
    fingerprintBytes deparse ss = fingerprintBytes deparse ts ↔
      ss.map (covered deparse) = ts.map (covered deparse) := by
  have fields : ss.map (fingerprintFields deparse) = ts.map (fingerprintFields deparse) ↔
      ss.map (covered deparse) = ts.map (covered deparse) := by
    induction ss generalizing ts with
    | nil => cases ts <;> simp
    | cons s ss ih =>
      cases ts with
      | nil => simp
      | cons t ts =>
        rw [List.map_cons, List.map_cons, List.map_cons, List.map_cons, List.cons.injEq,
          List.cons.injEq, covered_eq_iff, ih]
  rw [← fields]
  refine ⟨fun same => ?_, fun same => by unfold fingerprintBytes; rw [same]⟩
  have closed : ∀ statements : List PlannedStatement,
      ∀ r ∈ statements.map (fingerprintFields deparse), ∀ f ∈ r, ClosedText f := by
    intro statements r among
    obtain ⟨st, _, rfl⟩ := List.mem_map.mp among
    exact closed_fingerprintFields deparse st
  exact records_inj (by decide) ⟨rfl, .inr rfl⟩ ⟨rfl, .inl rfl⟩ (closed ss) (closed ts) same

/-- **The fingerprint separates different plans.** Whatever the deparser prints between quotes, two
plans hash the same bytes exactly when they agree in length and in the SQL, route, backend,
disposition and steps of every statement; so under a digest without collisions a plan passes the
pinned fingerprint of another exactly when they agree in all of these. -/
theorem fingerprint_separates (ss ts : List PlannedStatement) :
    (fingerprintBytes deparse ss = fingerprintBytes deparse ts ↔
        ss.map (covered deparse) = ts.map (covered deparse)) ∧
      ∀ sha256 : List UInt8 → String, Function.Injective sha256 →
        (pinAdmits (fingerprint deparse sha256 ss) (fingerprint deparse sha256 ts) = true ↔
          ss.map (covered deparse) = ts.map (covered deparse)) := by
  refine ⟨fingerprintBytes_eq_iff deparse ss ts, fun sha256 injective => ?_⟩
  rw [← fingerprintBytes_eq_iff]
  have pinned : fingerprint deparse sha256 ss ≠ "" := by
    unfold fingerprint
    intro empty
    have start := congrArg String.toList empty
    rw [String.toList_append] at start
    exact absurd start (by simp)
  unfold pinAdmits
  rw [Bool.or_eq_true, decide_eq_true_eq, decide_eq_true_eq]
  refine ⟨fun admitted => ?_, fun same => .inr (by unfold fingerprint; rw [same])⟩
  rcases admitted with empty | same
  · exact absurd empty pinned
  · exact injective ((String.append_right_inj _).mp same)

end Fingerprint

/-- A digest that spells the bytes out. -/
def spelled (bytes : List UInt8) : String := String.ofList (bytes.map Char.ofUInt8)

theorem spelled_injective : Function.Injective spelled := by
  intro a b same
  refine List.map_injective_iff.mpr (fun x y same => ?_) (String.ofList_injective same)
  exact UInt8.toUInt32_inj.mp (congrArg Char.val same)

/-- A plan of one statement that runs by the given backend. -/
def oneStatement (backend : Backend) (guidance : Option Guidance) : List PlannedStatement :=
  [{ sql := .other "", route := .native, backend, disposition := .execute
     decisions := [], guidance }]

theorem fingerprint_separates_backends :
    ¬ pinAdmits (fingerprint (fun _ => []) spelled (oneStatement .native none))
        (fingerprint (fun _ => []) spelled (oneStatement .copyAndSwap none)) = true ∧
      pinAdmits (fingerprint (fun _ => []) spelled (oneStatement .native none))
        (fingerprint (fun _ => []) spelled (oneStatement .native (some .splitStatement))) = true :=
  ⟨fun admitted => absurd (((fingerprint_separates _ _ _).2 spelled spelled_injective).mp admitted)
      (by decide),
    ((fingerprint_separates _ _ _).2 spelled spelled_injective).mpr (by decide)⟩

end PgSprite.Plan
