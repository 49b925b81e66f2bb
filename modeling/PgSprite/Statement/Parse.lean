/-
**Statements and their operations.**

A statement is its parse tree: what the PostgreSQL grammar reads in its text, as far as the engine
asks for it. `parseOne` says what kind of statement it is and what it targets, `parseOps` which
operations it consists of: one for each subcommand of an ALTER TABLE, and one for any other
statement.
-/

import Mathlib.Tactic.Common

set_option linter.dupNamespace false

namespace PgSprite.Statement

/-! ### The parse tree -/

/-- A relation as a statement names it; without `inh` it stands under ONLY. -/
structure RangeVar where
  schemaname : String := ""
  relname : String
  inh : Bool := true
  deriving DecidableEq, Repr

/-- One part of a dotted name. -/
inductive Field where
  | name (s : String)
  | star
  deriving DecidableEq, Repr

/-- How an expression refers to columns: by a name, by a field taken of a name, or by a name that is
itself an argument of ROW(...). -/
inductive Ref where
  | column (fields : List Field)
  | fieldOf (fields : List Field) (field : String)
  | rowArg (fields : List Field)
  deriving DecidableEq, Repr

/-- An expression: its text, whether it is a literal under casts at most, the references in it, and
the name it gives a column of its own, that of its function or of what it casts. -/
structure Expr where
  text : String
  constant : Bool := false
  refs : List Ref := []
  colname : Option String := none
  deriving DecidableEq, Repr

structure TypeName where
  names : List String
  typmods : List Int := []
  array : Bool := false
  deriving DecidableEq, Repr

/-- The value of an option, by the form it is written in. -/
inductive OptionValue where
  | string (s : String)
  | integer (i : Int)
  | float (s : String)
  | boolean (b : Bool)
  /-- An unreserved bare word. -/
  | word (w : String)
  | names (parts : List String)
  | other (text : String)
  deriving DecidableEq, Repr

structure DefElem where
  defnamespace : String := ""
  defname : String
  arg : Option OptionValue := none
  deriving DecidableEq, Repr

inductive ConstrType where
  | null
  | notNull
  | default
  | identity
  | generated
  | check
  | primary
  | unique
  | exclusion
  | foreign
  | attrDeferrable
  | attrNotDeferrable
  | attrDeferred
  | attrImmediate
  deriving DecidableEq, Repr

/-- A key of an EXCLUDE: a column by its name, or an expression, with the operator it excludes
by. -/
structure IndexElem where
  name : String := ""
  expr : Option Expr := none
  operator : String := ""
  deriving DecidableEq, Repr

/-- Whether an identity column can be given values of its own. -/
inductive GeneratedWhen where
  | always
  | byDefault
  deriving DecidableEq, Repr

inductive GeneratedKind where
  | stored
  | virtual
  deriving DecidableEq, Repr

structure Constraint where
  contype : ConstrType
  conname : String := ""
  keys : List String := []
  including : List String := []
  nullsNotDistinct : Bool := false
  deferrable : Bool := false
  initdeferred : Bool := false
  indexname : String := ""
  indexspace : String := ""
  options : List DefElem := []
  rawExpr : Option Expr := none
  noInherit : Bool := false
  fkAttrs : List String := []
  pktable : Option RangeVar := none
  pkAttrs : List String := []
  /-- The match type and the actions of a foreign key. -/
  fkActions : String := ""
  skipValidation : Bool := false
  generatedWhen : GeneratedWhen := .always
  generatedKind : GeneratedKind := .stored
  exclusions : List IndexElem := []
  accessMethod : String := ""
  whereClause : Option Expr := none
  deriving DecidableEq, Repr

structure ColumnDef where
  colname : String
  typeName : TypeName
  constraints : List Constraint := []
  /-- The USING expression of an ALTER COLUMN TYPE. -/
  rawDefault : Option Expr := none
  collation : List String := []
  deriving DecidableEq, Repr

/-- A subcommand of an ALTER TABLE. -/
inductive AlterTableCmd where
  | addColumn (column : ColumnDef)
  | dropColumn (name : String) (cascade : Bool)
  | alterColumnType (name : String) (column : ColumnDef)
  | columnDefault (name : String) (expr : Option Expr)
  | setNotNull (name : String)
  | dropNotNull (name : String)
  /-- SET STATISTICS, SET STORAGE, SET (...) and RESET (...) on a column. -/
  | columnOptions (name : String) (text : String)
  /-- SET (...) and RESET (...) on the table. -/
  | relOptions (text : String)
  | setTablespace (name : String)
  | addConstraint (constraint : Constraint)
  | validateConstraint (name : String)
  | dropConstraint (name : String) (cascade : Bool)
  | attachPartition (child : RangeVar) (bound : String)
  | detachPartition (child : RangeVar) (concurrent : Bool)
  | setExpression (name : String) (expr : Expr)
  | other (text : String)
  deriving DecidableEq, Repr

inductive ObjectType where
  | table
  | index
  | column
  | tabConstraint
  | other
  deriving DecidableEq, Repr

structure IndexStmt where
  idxname : String := ""
  relation : RangeVar
  accessMethod : String := "btree"
  indexParams : List Expr
  indexIncludingParams : List String := []
  options : List DefElem := []
  tableSpace : String := ""
  whereClause : Option Expr := none
  unique : Bool := false
  nullsNotDistinct : Bool := false
  concurrent : Bool := false
  ifNotExists : Bool := false
  deriving DecidableEq, Repr

structure DropStmt where
  removeType : ObjectType
  objects : List (List String)
  cascade : Bool := false
  concurrent : Bool := false
  deriving DecidableEq, Repr

inductive ReindexKind where
  | index
  | table
  | schema
  | system
  | database
  deriving DecidableEq, Repr

structure ReindexStmt where
  kind : ReindexKind
  relation : RangeVar
  params : List DefElem := []
  deriving DecidableEq, Repr

inductive TableElt where
  | column (column : ColumnDef)
  | constraint (constraint : Constraint)
  | like (source : RangeVar)
  deriving DecidableEq, Repr

structure CreateStmt where
  relation : RangeVar
  tableElts : List TableElt := []
  partbound : Bool := false
  inhRelations : List RangeVar := []
  ofTypename : Bool := false
  ifNotExists : Bool := false
  deriving DecidableEq, Repr

inductive TransactionStmtKind where
  | begin
  | start
  | commit
  | rollback
  | prepare
  /-- Savepoints, and the second phase of a prepared transaction. -/
  | other
  deriving DecidableEq, Repr

/-- A statement. -/
inductive Node where
  | alterTable (objtype : ObjectType) (relation : RangeVar) (cmds : List AlterTableCmd)
  | create (stmt : CreateStmt)
  | index (stmt : IndexStmt)
  | drop (stmt : DropStmt)
  | reindex (stmt : ReindexStmt)
  | rename (renameType relationType : ObjectType) (relation : RangeVar) (subname newname : String)
  | alterObjectSchema (objectType : ObjectType) (relation : RangeVar) (newschema : String)
  /-- INSERT, UPDATE, DELETE and MERGE. -/
  | dataChange (text : String)
  /-- Grants, roles, policies, publications and subscriptions. -/
  | provisioning (text : String)
  /-- Views, functions, triggers, extensions, sequences and comments. -/
  | catalogWork (text : String)
  | transaction (kind : TransactionStmtKind) (chain : Bool)
  | other (text : String)
  deriving DecidableEq, Repr

/-! ### One statement -/

/-- The kinds of statement the front door distinguishes. -/
inductive Kind where
  | other
  | alterTable
  | createIndex
  | dropIndex
  | reindex
  | createTable
  | dataChange
  | provisioning
  | catalogWork
  | renameIndex
  deriving DecidableEq, Repr

/-- Whether the scope of an index-maintenance statement stays within one relation. -/
inductive IndexTarget where
  | none
  | singleRelation
  | other
  deriving DecidableEq, Repr

inductive IndexRelationKind where
  | index
  | table
  deriving DecidableEq, Repr

/-- The one relation an index-maintenance statement names. -/
structure IndexRelation where
  schema : String
  name : String
  kind : IndexRelationKind
  deriving DecidableEq, Repr

/-- What the front door reads of a statement. -/
structure Statement where
  sql : Node
  kind : Kind := .other
  schema : String := ""
  table : String := ""
  concurrent : Bool := false
  indexTarget : IndexTarget := .none
  indexRelation : Option IndexRelation := none
  renamedTo : String := ""
  cascades : Bool := false
  buildsIndex : Bool := false
  deriving DecidableEq, Repr

/-- Whether a constraint builds an index of its own. -/
def constraintBuildsIndex (con : Constraint) : Bool :=
  con.indexname = "" &&
    (con.contype = .unique || con.contype = .primary || con.contype = .exclusion)

/-- Whether an ALTER TABLE builds an index. -/
def alterBuildsIndex (cmds : List AlterTableCmd) : Bool :=
  cmds.any fun
    | .addConstraint con => constraintBuildsIndex con
    | .addColumn column => column.constraints.any constraintBuildsIndex
    | _ => false

/-- A REINDEX parameter that is the CONCURRENTLY option. -/
def isConcurrentlyOption (p : DefElem) : Bool := p.defname.toLower = "concurrently"

/-- A boolean option's value, as the server reads it. -/
def optionEnabled : Option OptionValue → Bool
  | some (.integer i) => i ≠ 0
  | some (.string s) => s.toLower ≠ "false" && s.toLower ≠ "off"
  | _ => true

/-- Whether a REINDEX runs concurrently; the last CONCURRENTLY option decides. -/
def reindexConcurrently (stmt : ReindexStmt) : Bool :=
  stmt.params.foldl
    (fun concurrent p => if isConcurrentlyOption p then optionEnabled p.arg else concurrent) false

/-- The index a DROP INDEX of one index names. -/
def droppedIndex (object : List String) : IndexRelation where
  name := object.getLastD ""
  schema := object.dropLast.getLastD ""
  kind := .index

def reindexedRelation (rel : RangeVar) (kind : IndexRelationKind) : IndexRelation where
  schema := rel.schemaname
  name := rel.relname
  kind := kind

/-- What the front door reads of a parsed text that is one statement. -/
def parseOne (node : Node) : Statement :=
  match node with
  | .dataChange _ => { sql := node, kind := .dataChange }
  | .provisioning _ => { sql := node, kind := .provisioning }
  | .alterTable objtype rel cmds =>
    if objtype = .table then
      { sql := node, kind := .alterTable, schema := rel.schemaname, table := rel.relname,
        buildsIndex := alterBuildsIndex cmds }
    else { sql := node }
  | .create stmt =>
    { sql := node, kind := .createTable, schema := stmt.relation.schemaname,
      table := stmt.relation.relname }
  | .rename renameType relationType rel _ newname =>
    if renameType = .index then
      { sql := node, kind := .renameIndex, indexTarget := .singleRelation,
        indexRelation := some (reindexedRelation rel .index), renamedTo := newname }
    else if renameType = .table || renameType = .tabConstraint || relationType = .table then
      { sql := node, kind := .alterTable, schema := rel.schemaname, table := rel.relname }
    else { sql := node }
  | .alterObjectSchema objectType rel _ =>
    if objectType = .table then
      { sql := node, kind := .alterTable, schema := rel.schemaname, table := rel.relname }
    else { sql := node }
  | .index stmt =>
    { sql := node, kind := .createIndex, schema := stmt.relation.schemaname,
      table := stmt.relation.relname, concurrent := stmt.concurrent, buildsIndex := true }
  | .drop stmt =>
    if stmt.removeType = .index then
      match stmt.objects, stmt.cascade with
      | [object], false =>
        { sql := node, kind := .dropIndex, concurrent := stmt.concurrent,
          indexTarget := .singleRelation, indexRelation := some (droppedIndex object) }
      | _, cascades =>
        { sql := node, kind := .dropIndex, concurrent := stmt.concurrent, cascades,
          indexTarget := .other }
    else { sql := node, kind := .catalogWork }
  | .reindex stmt =>
    match stmt.kind with
    | .index =>
      { sql := node, kind := .reindex, concurrent := reindexConcurrently stmt,
        indexTarget := .singleRelation,
        indexRelation := some (reindexedRelation stmt.relation .index) }
    | .table =>
      { sql := node, kind := .reindex, concurrent := reindexConcurrently stmt,
        indexTarget := .singleRelation,
        indexRelation := some (reindexedRelation stmt.relation .table) }
    | _ =>
      { sql := node, kind := .reindex, concurrent := reindexConcurrently stmt,
        indexTarget := .other }
  | .catalogWork _ => { sql := node, kind := .catalogWork }
  | .transaction _ _ | .other _ => { sql := node }

/-! ### Operations -/

/-- The shapes of operation the classifier distinguishes. -/
inductive OpKind where
  | unrecognized
  | createTable
  | addColumn
  | dropColumn
  | alterColumnType
  | setDefault
  | dropDefault
  | setNotNull
  | dropNotNull
  | setColumnOptions
  | renameColumn
  | renameTable
  | renameIndex
  | setSchema
  | setTablespace
  | setRelOptions
  | addConstraint
  | validateConstraint
  | dropConstraint
  | attachPartition
  | detachPartition
  | createIndex
  | dropIndex
  | reindex
  deriving DecidableEq, Repr

inductive DefaultKind where
  | none
  | constant
  | expression
  deriving DecidableEq, Repr

inductive ConstraintKind where
  | unrecognized
  | primaryKey
  | unique
  | check
  | foreignKey
  | notNull
  deriving DecidableEq, Repr

/-- A storage parameter with the text of its value, where it has one. -/
structure StorageParam where
  name : String
  value : Option String
  deriving DecidableEq, Repr

/-- One operation: the facts about its shape the classifier reads. -/
structure Op where
  kind : OpKind
  column : String := ""
  name : String := ""
  only : Bool := false
  cascade : Bool := false
  indexes : List String := []
  columns : List String := []
  includeColumns : List String := []
  nullsNotDistinct : Bool := false
  deferrable : Bool := false
  initiallyDeferred : Bool := false
  indexTablespace : String := ""
  indexStorageParams : List StorageParam := []
  indexOptionsUnrenderable : Bool := false
  constraint : ConstraintKind := .unrecognized
  notValid : Bool := false
  usingIndex : Bool := false
  concurrent : Bool := false
  unique : Bool := false
  ifNotExists : Bool := false
  generatedStored : Bool := false
  inlineConstraints : List ConstraintKind := []
  partitionOf : Bool := false
  inherits : Bool := false
  like : Bool := false
  ofType : Bool := false
  foreignKey : Bool := false
  default : DefaultKind := .none
  newType : String := ""
  newTypeMods : List Int := []
  newTypeSchema : String := ""
  newTypeArray : Bool := false
  newTypeCollation : String := ""
  hasUsing : Bool := false
  deriving DecidableEq, Repr

/-- The type with its schema, modifiers, array marker and collation. -/
def Op.formatNewType (o : Op) : String :=
  (if o.newTypeSchema = "" then o.newType else o.newTypeSchema ++ "." ++ o.newType) ++
    (if o.newTypeMods = [] then ""
      else "(" ++ ",".intercalate (o.newTypeMods.map toString) ++ ")") ++
    (if o.newTypeArray then "[]" else "") ++
    (if o.newTypeCollation = "" then "" else " COLLATE " ++ o.newTypeCollation)

/-- A label for the operation. -/
def Op.describe (o : Op) : String :=
  match o.kind with
  | .createTable => if o.partitionOf then "CREATE TABLE PARTITION OF" else "CREATE TABLE"
  | .addColumn => "ADD COLUMN " ++ o.column
  | .dropColumn => "DROP COLUMN " ++ o.column
  | .alterColumnType => "ALTER COLUMN " ++ o.column ++ " TYPE " ++ o.formatNewType
  | .setDefault => "ALTER COLUMN " ++ o.column ++ " SET DEFAULT"
  | .dropDefault => "ALTER COLUMN " ++ o.column ++ " DROP DEFAULT"
  | .setNotNull => "ALTER COLUMN " ++ o.column ++ " SET NOT NULL"
  | .dropNotNull => "ALTER COLUMN " ++ o.column ++ " DROP NOT NULL"
  | .setColumnOptions => "ALTER COLUMN " ++ o.column ++ " SET options"
  | .renameColumn => "RENAME COLUMN " ++ o.column ++ " TO " ++ o.name
  | .renameTable => "RENAME TO " ++ o.name
  | .renameIndex => "RENAME INDEX TO " ++ o.name
  | .setSchema => "SET SCHEMA " ++ o.name
  | .setTablespace => "SET TABLESPACE " ++ o.name
  | .setRelOptions => "SET storage parameters"
  | .addConstraint => "ADD CONSTRAINT " ++ o.name
  | .validateConstraint => "VALIDATE CONSTRAINT " ++ o.name
  | .dropConstraint => "DROP CONSTRAINT " ++ o.name
  | .attachPartition => "ATTACH PARTITION"
  | .detachPartition => "DETACH PARTITION"
  | .createIndex => if o.name = "" then "CREATE INDEX" else "CREATE INDEX " ++ o.name
  | .dropIndex => if o.name = "" then "DROP INDEX" else "DROP INDEX " ++ o.name
  | .reindex => if o.name = "" then "REINDEX" else "REINDEX " ++ o.name
  | .unrecognized => "unrecognized operation"

/-- The bare name of a type and its modifiers. -/
def typeRef (tn : TypeName) : String × List Int := (tn.names.getLastD "", tn.typmods)

/-- The schema a type is qualified with other than pg_catalog, and whether it is an array. -/
def typeQualifiers (tn : TypeName) : String × Bool :=
  let schema := tn.names.dropLast.getLastD ""
  (if schema = "pg_catalog" then "" else schema, tn.array)

def isSerialType (name : String) : Bool :=
  ["serial", "serial2", "serial4", "serial8", "smallserial", "bigserial"].contains name.toLower

/-- The DEFAULT shape of an added column after one more of its constraints. -/
def defaultAfter (shape : DefaultKind) (con : Constraint) : DefaultKind :=
  match con.contype with
  | .default => if con.rawExpr.any (·.constant) then .constant else .expression
  | .identity => .expression
  | _ => shape

/-- The table constraint a column constraint stands for, where it is one. -/
def inlineConstraint (con : Constraint) : Option ConstraintKind :=
  match con.contype with
  | .default | .identity | .generated | .null | .notNull
  | .attrDeferrable | .attrNotDeferrable | .attrDeferred | .attrImmediate => none
  | .unique => some .unique
  | .primary => some .primaryKey
  | .foreign => some .foreignKey
  | .check => some .check
  | .exclusion => some .unrecognized

/-- The operation that adds a column. -/
def addColumnOp (column : ColumnDef) : Op :=
  let (newType, newTypeMods) := typeRef column.typeName
  let (newTypeSchema, newTypeArray) := typeQualifiers column.typeName
  { kind := .addColumn
    column := column.colname
    newType, newTypeMods, newTypeSchema, newTypeArray
    default := column.constraints.foldl defaultAfter
      (if isSerialType newType then .expression else .none)
    generatedStored := column.constraints.any (·.contype = .generated)
    inlineConstraints := column.constraints.filterMap inlineConstraint }

/-- The text of a storage parameter's value, where a plain word, number or string spells it. -/
def optionText : OptionValue → Option String
  | .string s => some s
  | .integer i => some (toString i)
  | .float s => some s
  | .boolean b => some (toString b)
  | .word w => some w
  | .names _ | .other _ => none

/-- A storage parameter as the engine can write it, where it can. -/
def storageParam (de : DefElem) : Option StorageParam :=
  if de.defnamespace ≠ "" then none
  else match de.arg with
    | none => some { name := de.defname, value := none }
    | some arg =>
      match optionText arg with
      | none => none
      | some value =>
        if value.contains '\\' then none else some { name := de.defname, value := some value }

/-- The family of a constraint. -/
def constraintKind : ConstrType → ConstraintKind
  | .primary => .primaryKey
  | .unique => .unique
  | .check => .check
  | .foreign => .foreignKey
  | .notNull => .notNull
  | _ => .unrecognized

/-- What an ADD PRIMARY KEY or ADD UNIQUE declares of its index. -/
def keyIndexAttributes (op : Op) (con : Constraint) : Op :=
  { op with
    includeColumns := con.including
    nullsNotDistinct := con.nullsNotDistinct
    deferrable := con.deferrable
    initiallyDeferred := con.initdeferred
    indexTablespace := con.indexspace
    indexStorageParams := con.options.filterMap storageParam
    indexOptionsUnrenderable := con.options.any fun o => (storageParam o).isNone }

/-- The operation that adds a constraint. -/
def addConstraintOp (con : Constraint) : Op :=
  let op : Op :=
    { kind := .addConstraint
      name := con.conname
      notValid := con.skipValidation
      usingIndex := con.indexname ≠ ""
      indexes := if con.indexname = "" then [] else [con.indexname]
      constraint := constraintKind con.contype
      columns := con.keys }
  if op.constraint = .primaryKey || op.constraint = .unique then keyIndexAttributes op con else op

/-- The operation of a subcommand. -/
def alterTableOp : AlterTableCmd → Op
  | .addColumn column => addColumnOp column
  | .dropColumn column cascade => { kind := .dropColumn, column, cascade }
  | .alterColumnType column definition =>
    let (newType, newTypeMods) := typeRef definition.typeName
    let (newTypeSchema, newTypeArray) := typeQualifiers definition.typeName
    { kind := .alterColumnType, column, newType, newTypeMods, newTypeSchema, newTypeArray
      newTypeCollation := ".".intercalate definition.collation
      hasUsing := definition.rawDefault.isSome }
  | .columnDefault column none => { kind := .dropDefault, column }
  | .columnDefault column (some _) => { kind := .setDefault, column }
  | .setNotNull column => { kind := .setNotNull, column }
  | .dropNotNull column => { kind := .dropNotNull, column }
  | .columnOptions column _ => { kind := .setColumnOptions, column }
  | .relOptions _ => { kind := .setRelOptions }
  | .setTablespace name => { kind := .setTablespace, name }
  | .addConstraint con => addConstraintOp con
  | .validateConstraint name => { kind := .validateConstraint, name }
  | .dropConstraint name cascade => { kind := .dropConstraint, name, cascade }
  | .attachPartition _ _ => { kind := .attachPartition }
  | .detachPartition _ concurrent => { kind := .detachPartition, concurrent }
  | .setExpression _ _ | .other _ => { kind := .unrecognized }

/-- The operation of a RENAME. -/
def renameOp (renameType : ObjectType) (subname newname : String) : Op :=
  match renameType with
  | .column => { kind := .renameColumn, column := subname, name := newname }
  | .table => { kind := .renameTable, name := newname }
  | .index => { kind := .renameIndex, name := newname }
  | _ => { kind := .unrecognized }

/-- The foreign keys a CREATE TABLE declares, in either form. -/
def foreignKeyConstraints (stmt : CreateStmt) : List Constraint :=
  stmt.tableElts.flatMap fun
    | .constraint con => if con.contype = .foreign then [con] else []
    | .column column => column.constraints.filter (·.contype = .foreign)
    | .like _ => []

/-- The operations of a statement, in its order. -/
def parseOps : Node → List Op
  | .alterTable objtype rel cmds =>
    if objtype = .table then cmds.map fun cmd => { alterTableOp cmd with only := !rel.inh }
    else [{ kind := .unrecognized }]
  | .create stmt =>
    [{ kind := .createTable
       partitionOf := stmt.partbound
       inherits := !stmt.partbound && !stmt.inhRelations.isEmpty
       like := stmt.tableElts.any fun | .like _ => true | _ => false
       ofType := stmt.ofTypename
       foreignKey := !(foreignKeyConstraints stmt).isEmpty
       ifNotExists := stmt.ifNotExists }]
  | .index stmt =>
    [{ kind := .createIndex, name := stmt.idxname, concurrent := stmt.concurrent,
       unique := stmt.unique, ifNotExists := stmt.ifNotExists }]
  | .drop stmt =>
    if stmt.removeType = .index then
      [{ kind := .dropIndex
         name := ", ".intercalate (stmt.objects.map (".".intercalate ·))
         indexes := stmt.objects.filterMap (·.getLast?)
         concurrent := stmt.concurrent
         cascade := stmt.cascade }]
    else [{ kind := .unrecognized }]
  | .reindex stmt =>
    [{ kind := .reindex, name := stmt.relation.relname, concurrent := reindexConcurrently stmt }]
  | .rename renameType _ _ subname newname => [renameOp renameType subname newname]
  | .alterObjectSchema objectType _ newschema =>
    if objectType = .table then [{ kind := .setSchema, name := newschema }]
    else [{ kind := .unrecognized }]
  | .dataChange _ | .provisioning _ | .catalogWork _ | .transaction _ _ | .other _ =>
    [{ kind := .unrecognized }]

/-! ### Transaction blocks -/

/-- What a statement does to an explicit transaction block. -/
inductive TransactionControl where
  | none
  | begins
  | ends
  deriving DecidableEq, Repr

/-- The effect of a statement on the block it stands in. A COMMIT or ROLLBACK that chains closes one
block and opens the next at once. -/
def transactionControlOf : Node → TransactionControl
  | .transaction .begin _ | .transaction .start _ => .begins
  | .transaction .commit chain | .transaction .rollback chain => if chain then .none else .ends
  | .transaction .prepare _ => .ends
  | _ => .none

end PgSprite.Statement
