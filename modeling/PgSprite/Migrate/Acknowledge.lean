/-
**Acknowledgements.**

An operator accepts a risk for one table by naming it. Every gate compares the acknowledgement with
the table's name as one text, the schema and the table joined by a dot, so it tells two tables apart
only where the text has one place to be cut at.

* `accepts_iff` — every gate accepts exactly the joined name;
* `accepts_unique_iff` — an acknowledgement accepts at most one table exactly when at most one of
  its dots stands between two identifiers;
* `accepts_two` — an acknowledgement that accepts two.
-/

import PgSprite.Migrate.CopySwap
import PgSprite.Statement.Implicit

namespace PgSprite.Migrate

open PgSprite.Statement (Statement Node IndexRelation IndexRelationKind Kind parseOne nameDataLen)

/-! ### The gates -/

/-- The policy of one statement. The acknowledgements name a table, and are empty where they are not
given. -/
structure Options where
  maxTableSizeBytes : Int
  force : String := ""
  acceptBlocking : String := ""
  allowDestructive : String := ""
  copySwap : CopySwapOptions := {}

/-- What is wrong with the options, if anything. -/
def Options.validate (o : Options) : Option String :=
  if o.maxTableSizeBytes ≤ 0 then
    some (s!"migrate: Options.MaxTableSizeBytes must be positive, got {o.maxTableSizeBytes}; " ++
      "DefaultOptions is the sanctioned starting point")
  else if o.force ≠ "" && o.acceptBlocking ≠ "" then
    some ("migrate: Options.Force and Options.AcceptBlocking are mutually exclusive; a " ++
      "statement reaches one routing decision and one acknowledgement names it")
  else if o.copySwap.restart ≠ "" && (o.force ≠ "" || o.acceptBlocking ≠ "") then
    some ("migrate: Options.CopySwap.Restart acknowledges a copy-and-swap run starting over, " ++
      "which Options.Force and Options.AcceptBlocking both route away from; name one " ++
      "acknowledgement")
  else none

/-- An acknowledgement names the resolved table exactly, or it is a usage error. -/
def checkAck (what table ack : String) : Except String Unit :=
  if ack = table then .ok ()
  else
    .error ("the " ++ what ++ " acknowledgement must name the resolved target table " ++
      table.quote ++ ", got " ++ ack.quote ++ "; nothing was executed")

def checkForceAck (st : Statement) (ack : String) : Except String Unit :=
  checkAck "force" (qualified st) ack

def checkRestartAck (st : Statement) (ack : String) : Except String Unit :=
  checkAck "restart" (qualified st) ack

def checkBlockWritesAck (st : Statement) (ack : String) : Except String Unit :=
  checkAck "block-writes" (qualified st) ack

def checkAllowDestructiveAck (table ack : String) : Except String Unit :=
  checkAck "destructive" table ack

/-- The table an accepted statement locks, as the catalog resolved it, with the relation the
statement names. -/
structure AcceptedTable where
  schema : String
  name : String
  relkind : String
  relationOID : Nat
  deriving DecidableEq, Repr

namespace AcceptedTable

/-- The table as the acknowledgement must spell it. -/
def qualified (t : AcceptedTable) : String := t.schema ++ "." ++ t.name

end AcceptedTable

def Kind.string : Kind → String
  | .alterTable => "ALTER TABLE"
  | .createIndex => "CREATE INDEX"
  | .dropIndex => "DROP INDEX"
  | .reindex => "REINDEX"
  | .createTable => "CREATE TABLE"
  | .dataChange => "data change"
  | .provisioning => "provisioning"
  | .catalogWork => "catalog work"
  | .renameIndex => "ALTER INDEX RENAME"
  | .other => "other"

/-- The check of an accepted statement: its acknowledgement names the table it locks. -/
def checkAcceptBlockingAck (st : Statement) (locked : AcceptedTable) (ack : String) :
    Except String Unit :=
  if locked.qualified ≠ ack then
    .error ("the accept-blocking acknowledgement must name the table the statement locks: " ++
      Kind.string st.kind ++ " locks " ++ locked.qualified.quote ++ ", got " ++ ack.quote ++
      "; nothing was executed")
  else .ok ()

/-! ### The tables a gate accepts -/

/-- A name the server can give a schema or a table: not empty, within the byte budget of an
identifier, and of any characters but NUL. -/
def isIdentifier (s : String) : Bool :=
  s ≠ "" && s.utf8ByteSize ≤ nameDataLen && !s.toList.contains '\x00'

/-- A gate accepts an acknowledgement for a schema and a table. -/
inductive Accepts (ack : String) : String → String → Prop where
  | force (sql : Node) (ok : checkForceAck (parseOne sql) ack = .ok ()) :
      Accepts ack (parseOne sql).schema (parseOne sql).table
  | restart (sql : Node) (ok : checkRestartAck (parseOne sql) ack = .ok ()) :
      Accepts ack (parseOne sql).schema (parseOne sql).table
  | blockWrites (sql : Node) (ok : checkBlockWritesAck (parseOne sql) ack = .ok ()) :
      Accepts ack (parseOne sql).schema (parseOne sql).table
  | allowDestructive (sql : Node)
      (ok : checkAllowDestructiveAck (qualified (parseOne sql)) ack = .ok ()) :
      Accepts ack (parseOne sql).schema (parseOne sql).table
  | acceptBlocking (sql : Node) (locked : AcceptedTable)
      (ok : checkAcceptBlockingAck (parseOne sql) locked ack = .ok ()) :
      Accepts ack locked.schema locked.name

theorem checkAck_ok {what table ack : String} : checkAck what table ack = .ok () ↔ ack = table := by
  unfold checkAck
  by_cases same : ack = table
  · rw [if_pos same]
    exact ⟨fun _ => same, fun _ => rfl⟩
  · rw [if_neg same]
    exact ⟨fun ok => (by cases ok), fun equal => absurd equal same⟩

theorem qualified_eq {st : Statement} (schema : st.schema ≠ "") (table : st.table ≠ "") :
    qualified st = st.schema ++ "." ++ st.table := by
  unfold qualified
  rw [if_neg table, if_neg schema]

/-- **Every gate accepts exactly the schema and the table joined by a dot.** -/
theorem accepts_iff {ack schema table : String} (named : schema ≠ "") (named' : table ≠ "") :
    Accepts ack schema table ↔ ack = schema ++ "." ++ table := by
  refine ⟨fun accepted => ?_, fun same => ?_⟩
  · cases accepted with
    | force sql ok => rw [checkAck_ok.mp ok, qualified_eq named named']
    | restart sql ok => rw [checkAck_ok.mp ok, qualified_eq named named']
    | blockWrites sql ok => rw [checkAck_ok.mp ok, qualified_eq named named']
    | allowDestructive sql ok => rw [checkAck_ok.mp ok, qualified_eq named named']
    | acceptBlocking sql locked ok =>
      unfold checkAcceptBlockingAck at ok
      by_cases differs : locked.qualified ≠ ack
      · rw [if_pos differs] at ok
        cases ok
      · exact (not_not.mp differs).symm
  · let locked : AcceptedTable := ⟨schema, table, "r", 0⟩
    refine Accepts.acceptBlocking (.other "") locked ?_
    unfold checkAcceptBlockingAck
    exact if_neg (not_not.mpr same.symm)

/-! ### Where a text can be cut -/

/-- What stands before and after each dot of a text. -/
def dotSplits : List Char → List (List Char × List Char)
  | [] => []
  | c :: cs =>
    let rest := (dotSplits cs).map fun split => (c :: split.1, split.2)
    if c = '.' then ([], cs) :: rest else rest

/-- The splits of a text are those around one of its dots. -/
theorem mem_dotSplits {cs before after : List Char} :
    (before, after) ∈ dotSplits cs ↔ cs = before ++ '.' :: after := by
  induction cs generalizing before with
  | nil => simp [dotSplits]
  | cons c cs ih =>
    have later : (before, after) ∈ (dotSplits cs).map (fun split => (c :: split.1, split.2)) ↔
        ∃ rest, before = c :: rest ∧ cs = rest ++ '.' :: after := by
      rw [List.mem_map]
      constructor
      · rintro ⟨⟨rest, tail⟩, among, same⟩
        cases same
        exact ⟨rest, rfl, ih.mp among⟩
      · rintro ⟨rest, rfl, same⟩
        exact ⟨(rest, after), ih.mpr same, rfl⟩
    rw [dotSplits]
    cases before with
    | nil =>
      by_cases dot : c = '.'
      · rw [if_pos dot, List.mem_cons, later]
        simp [dot, eq_comm]
      · rw [if_neg dot, later]
        simp [dot]
    | cons b before =>
      by_cases dot : c = '.'
      · rw [if_pos dot, List.mem_cons, later]
        simp only [Prod.mk.injEq, reduceCtorEq, false_and, false_or, List.cons.injEq,
          List.cons_append]
        constructor
        · rintro ⟨rest, ⟨rfl, rfl⟩, same⟩
          exact ⟨rfl, same⟩
        · rintro ⟨rfl, same⟩
          exact ⟨before, ⟨rfl, rfl⟩, same⟩
      · rw [if_neg dot, later]
        simp only [List.cons.injEq, List.cons_append]
        constructor
        · rintro ⟨rest, ⟨rfl, rfl⟩, same⟩
          exact ⟨rfl, same⟩
        · rintro ⟨rfl, same⟩
          exact ⟨before, ⟨rfl, rfl⟩, same⟩

theorem dotSplits_nodup (cs : List Char) : (dotSplits cs).Nodup := by
  induction cs with
  | nil => exact List.nodup_nil
  | cons c cs ih =>
    have rest : ((dotSplits cs).map fun split => (c :: split.1, split.2)).Nodup := by
      refine ih.map fun a b same => ?_
      obtain ⟨first, second⟩ := Prod.mk.inj same
      exact Prod.ext (List.cons.inj first).2 second
    rw [dotSplits]
    split
    · refine List.nodup_cons.mpr ⟨fun among => ?_, rest⟩
      obtain ⟨split, _, same⟩ := List.mem_map.mp among
      cases same
    · exact rest

/-- The dots of an acknowledgement that stand between two identifiers, with what is around them. -/
def separatingDots (ack : String) : List (List Char × List Char) :=
  (dotSplits ack.toList).filter fun split =>
    isIdentifier (String.ofList split.1) && isIdentifier (String.ofList split.2)

theorem mem_separatingDots {ack schema table : String} :
    (schema.toList, table.toList) ∈ separatingDots ack ↔
      ack = schema ++ "." ++ table ∧ isIdentifier schema = true ∧ isIdentifier table = true := by
  unfold separatingDots
  rw [List.mem_filter, mem_dotSplits, Bool.and_eq_true, String.ofList_toList, String.ofList_toList]
  have joined :
      ack.toList = schema.toList ++ '.' :: table.toList ↔ ack = schema ++ "." ++ table := by
    rw [← String.toList_inj, String.toList_append, String.toList_append, List.append_assoc]
    rfl
  rw [joined]

theorem isIdentifier_ne_empty {s : String} (named : isIdentifier s = true) : s ≠ "" := by
  unfold isIdentifier at named
  rw [Bool.and_eq_true, Bool.and_eq_true] at named
  exact of_decide_eq_true named.1.1

/-- **An acknowledgement accepts at most one table exactly when at most one of its dots stands
between two identifiers.** -/
theorem accepts_unique_iff (ack : String) :
    (∀ schema table schema' table', isIdentifier schema = true → isIdentifier table = true →
        isIdentifier schema' = true → isIdentifier table' = true →
        Accepts ack schema table → Accepts ack schema' table' →
        schema = schema' ∧ table = table') ↔
      (separatingDots ack).length ≤ 1 := by
  have distinct : (separatingDots ack).Nodup := (dotSplits_nodup _).filter _
  refine ⟨fun unique => ?_, fun one => ?_⟩
  · -- Two dots would name two tables.
    by_contra more
    match dots : separatingDots ack, more with
    | [], more => exact more (Nat.zero_le 1)
    | [_], more => exact more (Nat.le_refl 1)
    | a :: b :: rest, _ =>
      have names : ∀ split ∈ separatingDots ack,
          ack = String.ofList split.1 ++ "." ++ String.ofList split.2 ∧
            isIdentifier (String.ofList split.1) = true ∧
            isIdentifier (String.ofList split.2) = true := by
        intro split among
        refine mem_separatingDots.mp ?_
        rwa [String.toList_ofList, String.toList_ofList]
      obtain ⟨nameA, schemaA, tableA⟩ := names a (by rw [dots]; exact List.mem_cons_self)
      obtain ⟨nameB, schemaB, tableB⟩ := names b
        (by rw [dots]; exact List.mem_cons_of_mem _ List.mem_cons_self)
      have acceptsA := (accepts_iff (isIdentifier_ne_empty schemaA)
        (isIdentifier_ne_empty tableA)).mpr nameA
      have acceptsB := (accepts_iff (isIdentifier_ne_empty schemaB)
        (isIdentifier_ne_empty tableB)).mpr nameB
      obtain ⟨schemas, tables⟩ := unique _ _ _ _ schemaA tableA schemaB tableB acceptsA acceptsB
      have same : a = b := Prod.ext (String.ofList_injective schemas)
        (String.ofList_injective tables)
      rw [dots, same] at distinct
      exact (List.nodup_cons.mp distinct).1 List.mem_cons_self
  · intro schema table schema' table' named1 named2 named3 named4 first second
    have here := mem_separatingDots.mpr ⟨(accepts_iff (isIdentifier_ne_empty named1)
      (isIdentifier_ne_empty named2)).mp first, named1, named2⟩
    have there := mem_separatingDots.mpr ⟨(accepts_iff (isIdentifier_ne_empty named3)
      (isIdentifier_ne_empty named4)).mp second, named3, named4⟩
    have same : (schema.toList, table.toList) = (schema'.toList, table'.toList) := by
      match dots : separatingDots ack, one with
      | [], _ =>
        rw [dots] at here
        exact absurd here List.not_mem_nil
      | [a], _ =>
        rw [dots, List.mem_singleton] at here there
        exact here.trans there.symm
    obtain ⟨schemas, tables⟩ := Prod.mk.inj same
    exact ⟨String.toList_inj.mp schemas, String.toList_inj.mp tables⟩

/-- The acknowledgement "a.b.c" forces a statement on the table c of the schema a.b, and one on the
table b.c of the schema a. -/
theorem accepts_two :
    checkForceAck (parseOne (.alterTable .table { schemaname := "a.b", relname := "c" } []))
        "a.b.c" = .ok () ∧
      checkForceAck (parseOne (.alterTable .table { schemaname := "a", relname := "b.c" } []))
        "a.b.c" = .ok () :=
  ⟨by rw [checkForceAck, checkAck_ok]; decide, by rw [checkForceAck, checkAck_ok]; decide⟩

end PgSprite.Migrate
