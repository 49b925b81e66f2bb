/-
**Rewriting a statement to its online form.**

`concurrently` sets the grammar's concurrency flag and `addNotValid` the one that adds a constraint
unvalidated; nothing else of the statement changes, except that an unnamed constraint is given the
name the server would choose, since the step that validates it has to name it.
-/

import Mathlib.Data.List.Dedup
import PgSprite.Lib.FirstFree
import PgSprite.Statement.Parse

namespace PgSprite.Statement

open PgSprite.Lib

/-- Why a statement cannot be rewritten. -/
inductive RewriteError where
  | notRewritable
  | notValidNotApplicable
  deriving DecidableEq, Repr

/-- The partition a single DETACH PARTITION detaches. -/
def detachPartitionCmd : Node → Option (ObjectType × RangeVar × RangeVar)
  | .alterTable objtype rel [.detachPartition child _] => some (objtype, rel, child)
  | _ => none

/-- The statement in its CONCURRENTLY form. -/
def concurrently (node : Node) : Except RewriteError Node :=
  match node with
  | .index stmt => .ok (.index { stmt with concurrent := true })
  | .drop stmt =>
    if stmt.removeType = .index then .ok (.drop { stmt with concurrent := true })
    else .error .notRewritable
  | .reindex stmt =>
    if reindexConcurrently stmt then .ok (.reindex stmt)
    else .ok (.reindex { stmt with
      params := stmt.params.filter (fun p => !isConcurrentlyOption p) ++
        [{ defname := "concurrently" }] })
  | _ =>
    match detachPartitionCmd node with
    | some (objtype, rel, child) => .ok (.alterTable objtype rel [.detachPartition child true])
    | none => .error .notRewritable

/-! ### The name of an unnamed constraint -/

/-- What the server consults when it names an unnamed constraint: the table's columns, where they
are known, and the names of the constraints in its schema. -/
structure ConstraintNaming where
  columns : Option (List String) := none
  taken : List String := []
  deriving DecidableEq, Repr

/-- The byte budget of an identifier. -/
def nameDataLen : Nat := 63

/-- The longest prefix of whole characters within a number of bytes. -/
def clipChars : List Char → Nat → List Char
  | [], _ => []
  | c :: cs, n => if c.utf8Size ≤ n then c :: clipChars cs (n - c.utf8Size) else []

def clipToRuneBoundary (s : String) (n : Nat) : String :=
  if s.utf8ByteSize ≤ n then s else String.ofList (clipChars s.toList n)

/-- The two lengths after shrinking the longer by one byte until they fit. -/
def shrink (n1 n2 avail : Nat) : Nat × Nat :=
  if avail < n1 + n2 then
    if n2 < n1 then shrink (n1 - 1) n2 avail else shrink n1 (n2 - 1) avail
  else (n1, n2)
  termination_by n1 + n2
  decreasing_by all_goals omega

/-- A name made of one or two names and a label, within the identifier's byte budget. -/
def makeObjectName (name1 name2 label : String) : String :=
  let overhead := label.utf8ByteSize + 1 + (if name2 = "" then 0 else 1)
  let (n1, n2) := shrink name1.utf8ByteSize name2.utf8ByteSize (nameDataLen - overhead)
  if name2 = "" then clipToRuneBoundary name1 n1 ++ "_" ++ label
  else clipToRuneBoundary name1 n1 ++ "_" ++ clipToRuneBoundary name2 n2 ++ "_" ++ label

/-- A reference to the table's whole row among the names of columns; no column has this name. -/
def wholeRowRef : String := ""

/-- The column a dotted name in a CHECK reads. -/
def checkColumn (fields : List Field) (table : String) (columns : Option (List String)) :
    Option String :=
  match fields.getLast? with
  | none => none
  | some .star => some wholeRowRef
  | some (.name name) =>
    if fields.length = 1 && name = table && columns.any (fun known => name ∉ known) then
      some wholeRowRef
    else some name

/-- Whether a dotted name is the table's row written with a star. -/
def isWholeRowStar (fields : List Field) (table : String) : Bool :=
  match fields.getLast?, fields.dropLast.getLast? with
  | some .star, none => true
  | some .star, some part => part = .name table
  | _, _ => false

/-- The columns one reference reads. -/
def refColumns (table : String) (columns : Option (List String)) : Ref → List String
  | .column fields => (checkColumn fields table columns).toList
  | .fieldOf fields field =>
    match checkColumn fields table columns with
    | none => []
    | some name => if name = wholeRowRef then [field] else [name]
  | .rowArg fields =>
    match columns with
    | some known =>
      if isWholeRowStar fields table then known else (checkColumn fields table columns).toList
    | none => (checkColumn fields table columns).toList

/-- The distinct columns an expression reads. -/
def checkColumns (e : Expr) (table : String) (columns : Option (List String)) : List String :=
  (e.refs.flatMap (refColumns table columns)).dedup

/-- The name at a pass of the choice: the label alone first, then numbered from 1. -/
def nameCandidate (table column label : String) (pass : Nat) : String :=
  makeObjectName table column (if pass = 0 then label else label ++ toString pass)

/-- The first of the names `label`, `label1`, `label2`, ... that is free. -/
def freeName (table column label : String) (taken : List String) : Nat → Nat → String :=
  firstFree (nameCandidate table column label) taken

/-- The name the server would choose for an unnamed CHECK or FOREIGN KEY. As many names are tried
as there are taken ones, and one more. -/
def defaultConstraintName (table : String) (con : Constraint) (naming : ConstraintNaming) :
    String :=
  let (column, label) :=
    if con.contype = .foreign then ("_".intercalate con.fkAttrs, "fkey")
    else
      match con.rawExpr.map (checkColumns · table naming.columns) with
      | some [column] => (if column = wholeRowRef then "" else column, "check")
      | _ => ("", "check")
  freeName table column label naming.taken naming.taken.length 0

/-- The statement that adds its one CHECK or FOREIGN KEY unvalidated, and the constraint's name. -/
def addNotValid (node : Node) (naming : ConstraintNaming) : Except RewriteError (Node × String) :=
  match node with
  | .alterTable .table rel [.addConstraint con] =>
    if con.contype = .check || con.contype = .foreign then
      let conname :=
        if con.conname = "" then defaultConstraintName rel.relname con naming else con.conname
      .ok (.alterTable .table rel [.addConstraint { con with conname, skipValidation := true }],
        conname)
    else .error .notValidNotApplicable
  | _ => .error .notValidNotApplicable

/-- The statement with its target relation in a schema; only a CREATE TABLE, CREATE INDEX or ALTER
TABLE is qualified. -/
def qualify (node : Node) (schema : String) : Option Node :=
  match node with
  | .create stmt =>
    some (.create { stmt with relation := { stmt.relation with schemaname := schema } })
  | .index stmt =>
    some (.index { stmt with relation := { stmt.relation with schemaname := schema } })
  | .alterTable objtype rel cmds =>
    some (.alterTable objtype { rel with schemaname := schema } cmds)
  | _ => none

end PgSprite.Statement
