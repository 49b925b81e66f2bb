/-
**The row statements a flush sends, and what their parameters stand for.**

A flush writes a row by an upsert, an update or an insert of a list of columns. The key is the first
parameter and the columns follow it; a column the gated statement retyped is written through its
expression, unless its value was read from the shadow and has the shadow's form already.

* `RowStatement.sql_eq_render` — each statement lists its columns against value expressions, the
  `i`-th over parameter `i + 2`;
* `args_spec` — the parameters are the key and the columns' values, and a column without a value is
  refused before the statement is sent;
* `eval_valueExpr` — so each expression stands for what `Flusher.written` says is written;
* `Flusher.flush_sends` — what a flush commits is what these statements write, sent in order.
-/

import PgSprite.Applier.FlushSpec

namespace PgSprite.Applier

open Std PgSprite.Decode PgSprite.Source PgSprite.Lib

/-! ### Conversions -/

/-- How a flush writes one column the gated statement retyped: its expression, and the source's type
and collation for the column; the collation is empty where it is the type's default. -/
structure Conversion where
  expr : String
  sourceType : String
  collation : String
  deriving DecidableEq, Repr

/-- The conversions of a flush, by column. -/
abbrev Conversions := Name → Option Conversion

/-! ### The statements -/

/-- An identifier between double quotes, its own doubled and zero bytes left out. -/
def sanitize (ident : String) : String :=
  "\"" ++ String.ofList ((ident.toList.filter fun c => c ≠ Char.ofNat 0).flatMap fun c =>
    if c = '"' then ['"', '"'] else [c]) ++ "\""

/-- Whether the column carries a value read from the shadow row. -/
def isShadowForm (c : Column) : Bool :=
  match c.value with
  | some (.shadowForm _) => true
  | _ => false

/-- What a statement writes for a column: a parameter, or the column's expression over one. -/
inductive ValueExpr where
  | param (n : ℕ)
  | using (name : Name) (conversion : Conversion) (n : ℕ)
  deriving DecidableEq, Repr

/-- The parameter as the source column held it. -/
def Conversion.sourceValue (cv : Conversion) (param : String) : String :=
  let value := param ++ "::" ++ cv.sourceType
  if cv.collation = "" then value else value ++ " COLLATE " ++ cv.collation

/-- The expression's text. The column's own name is the only one the expression may refer to. -/
def ValueExpr.text : ValueExpr → String
  | .param n => "$" ++ toString n
  | .using name cv n => "(SELECT " ++ cv.expr ++ " FROM (SELECT " ++
      cv.sourceValue ("$" ++ toString n) ++ " AS " ++ sanitize name ++ ") AS \"source\")"

/-- What the statement writes for the column bound at parameter `n`. -/
def valueExpr (n : ℕ) (c : Column) (conv : Conversions) : ValueExpr :=
  match conv c.name with
  | none => .param n
  | some cv => if isShadowForm c then .param n else .using c.name cv n

def valueSQL (n : ℕ) (c : Column) (conv : Conversions) : String := (valueExpr n c conv).text

/-- The key column followed by the given ones. -/
def columnList (pk : String) (cols : List Column) : String :=
  ", ".intercalate (pk :: cols.map fun c => sanitize c.name)

/-- The key's parameter followed by each column's value. -/
def valueList (cols : List Column) (conv : Conversions) : String :=
  ", ".intercalate ("$1" :: cols.mapIdx fun i c => valueSQL (i + 2) c conv)

/-- Writes the key and the columns, replacing exactly those columns of a row that is already
there. -/
def upsertSQL (relation pk : String) (cols : List Column) (conv : Conversions) : String :=
  "INSERT INTO " ++ relation ++ " (" ++ columnList pk cols ++ ") VALUES (" ++ valueList cols conv ++
    ") ON CONFLICT (" ++ pk ++ ") DO UPDATE SET " ++
    (if cols.isEmpty then pk ++ " = EXCLUDED." ++ pk else "") ++
    ", ".intercalate (cols.map fun c => sanitize c.name ++ " = EXCLUDED." ++ sanitize c.name)

/-- Assigns the columns on the row under the key, which has to be there. -/
def updateSQL (relation pk : String) (cols : List Column) (conv : Conversions) : String :=
  "UPDATE " ++ relation ++ " SET " ++ (if cols.isEmpty then pk ++ " = $1" else "") ++
    ", ".intercalate (cols.mapIdx fun i c => sanitize c.name ++ " = " ++ valueSQL (i + 2) c conv) ++
    " WHERE " ++ pk ++ " = $1"

/-- Writes a whole row. -/
def insertSQL (relation pk : String) (cols : List Column) (conv : Conversions) : String :=
  "INSERT INTO " ++ relation ++ " (" ++ columnList pk cols ++ ") VALUES (" ++ valueList cols conv ++
    ")"

/-- A statement's parameter. -/
inductive Param where
  | key (key : Key)
  | value (text : Text)
  deriving DecidableEq, Repr

/-- The value bound for a column; one without a value is refused. -/
def bindValue (c : Column) : Except Violation Text :=
  match c.value with
  | none => .error (.nothingToBind c.name)
  | some v => .ok (bound v)

/-- A statement's parameters: the key, and each column's value in order. -/
def args (key : Key) (cols : List Column) : Except Violation (List Param) :=
  (cols.mapM bindValue).map fun values => .key key :: values.map Param.value

/-- The three ways a flush writes a row. -/
inductive StatementKind where
  | upsert
  | update
  | insert
  deriving DecidableEq, Repr

/-- One row statement: what it does, the key, and the columns it lists. -/
structure RowStatement where
  kind : StatementKind
  key : Key
  columns : List Column
  deriving DecidableEq, Repr

namespace RowStatement

/-- The statement's text. -/
def sql (st : RowStatement) (relation pk : String) (conv : Conversions) : String :=
  match st.kind with
  | .upsert => upsertSQL relation pk st.columns conv
  | .update => updateSQL relation pk st.columns conv
  | .insert => insertSQL relation pk st.columns conv

/-- The columns the statement lists beside the key, each with the value it is written from. -/
def assignments (st : RowStatement) (conv : Conversions) : List (Name × ValueExpr) :=
  st.columns.mapIdx fun i c => (c.name, valueExpr (i + 2) c conv)

/-- A statement of a kind over a list of assignments; the key is parameter 1. -/
def render (kind : StatementKind) (relation pk : String) (assigned : List (Name × ValueExpr)) :
    String :=
  let listed := ", ".intercalate (pk :: assigned.map fun a => sanitize a.1)
  let values := ", ".intercalate ("$1" :: assigned.map fun a => a.2.text)
  match kind with
  | .insert => "INSERT INTO " ++ relation ++ " (" ++ listed ++ ") VALUES (" ++ values ++ ")"
  | .upsert => "INSERT INTO " ++ relation ++ " (" ++ listed ++ ") VALUES (" ++ values ++
      ") ON CONFLICT (" ++ pk ++ ") DO UPDATE SET " ++
      (if assigned.isEmpty then pk ++ " = EXCLUDED." ++ pk else "") ++
      ", ".intercalate (assigned.map fun a => sanitize a.1 ++ " = EXCLUDED." ++ sanitize a.1)
  | .update => "UPDATE " ++ relation ++ " SET " ++
      (if assigned.isEmpty then pk ++ " = $1" else "") ++
      ", ".intercalate (assigned.map fun a => sanitize a.1 ++ " = " ++ a.2.text) ++
      " WHERE " ++ pk ++ " = $1"

theorem map_assignments {β : Type} (st : RowStatement) (conv : Conversions)
    (g : Name × ValueExpr → β) : (st.assignments conv).map g
      = st.columns.mapIdx fun i c => g (c.name, valueExpr (i + 2) c conv) := by
  unfold assignments
  apply List.ext_getElem?
  intro i
  simp [List.getElem?_mapIdx, Function.comp_def]

theorem map_name_assignments {β : Type} (st : RowStatement) (conv : Conversions) (g : Name → β) :
    (st.assignments conv).map (fun a => g a.1) = st.columns.map fun c => g c.name := by
  rw [map_assignments]
  apply List.ext_getElem?
  intro i
  simp [List.getElem?_mapIdx]

/-- **Each statement is the rendering of its assignments.** -/
theorem sql_eq_render (st : RowStatement) (relation pk : String) (conv : Conversions) :
    st.sql relation pk conv = render st.kind relation pk (st.assignments conv) := by
  have empty : (st.assignments conv).isEmpty = st.columns.isEmpty := by
    unfold assignments
    cases st.columns <;> simp
  have listed := st.map_name_assignments conv sanitize
  have values := st.map_assignments conv fun a => a.2.text
  unfold sql render
  cases st.kind with
  | upsert =>
    have excluded := st.map_name_assignments conv fun name =>
      sanitize name ++ " = EXCLUDED." ++ sanitize name
    dsimp only
    rw [listed, values, excluded, empty]
    rfl
  | update =>
    have assigned := st.map_assignments conv fun a => sanitize a.1 ++ " = " ++ a.2.text
    dsimp only
    rw [assigned, empty]
    rfl
  | insert =>
    dsimp only
    rw [listed, values]
    rfl

end RowStatement

/-! ### Parameters -/

section Params

variable {key : Key} {cols : List Column} {params : List Param} {c : Column} {v : Value} {i : ℕ}

/-- **The parameters are the key and then the columns' values, in order.** -/
theorem args_spec (laid : args key cols = .ok params) :
    params[0]? = some (.key key) ∧
      ∀ i c, cols[i]? = some c → ∃ v, c.value = some v ∧
        params[i + 1]? = some (.value (bound v)) := by
  unfold args at laid
  obtain ⟨values, mapped, rfl⟩ := map_ok.mp laid
  refine ⟨rfl, fun i c listed => ?_⟩
  have each := mapM_ok mapped
  obtain ⟨text, there, bind⟩ : ∃ text, values[i]? = some text ∧ bindValue c = .ok text := by
    have inside : i < cols.length := (List.getElem?_eq_some_iff.mp listed).1
    have same : i < values.length := each.length_eq ▸ inside
    have here := each.get inside same
    refine ⟨values[i], List.getElem?_eq_getElem same, ?_⟩
    obtain ⟨-, rfl⟩ := List.getElem?_eq_some_iff.mp listed
    exact here
  unfold bindValue at bind
  cases value : c.value with
  | none => simp [value] at bind
  | some v =>
    simp only [value, Except.ok.injEq] at bind
    exact ⟨v, rfl, by rw [List.getElem?_cons_succ, List.getElem?_map, there, bind]; rfl⟩

theorem args_ok (key : Key) (present : ∀ c ∈ cols, c.present = true) :
    ∃ params, args key cols = .ok params := by
  unfold args
  cases mapped : cols.mapM bindValue with
  | ok values => exact ⟨_, rfl⟩
  | error v =>
    obtain ⟨c, member, refused⟩ := mapM_error mapped
    have carries := present c member
    unfold Column.present at carries
    unfold bindValue at refused
    cases value : c.value with
    | none => simp [value] at carries
    | some v => simp [value] at refused

/-- What an expression evaluates to over the parameters. -/
def ValueExpr.eval (f : Flusher) (params : List Param) : ValueExpr → Option Text
  | .param n => params[n - 1]?.bind fun
      | .value text => some text
      | .key _ => none
  | .using name _ n => params[n - 1]?.bind fun
      | .value text => some (f.converted name text)
      | .key _ => none

/-- **A column's expression stands for what the flush writes for its value.** -/
theorem eval_valueExpr {f : Flusher} {conv : Conversions}
    (domain : ∀ name, (conv name).isSome = (f.conversions name).isSome)
    (there : params[i + 1]? = some (.value (bound v))) (carries : c.value = some v) :
    (valueExpr (i + 2) c conv).eval f params = some (f.written c.name v) := by
  have same := domain c.name
  unfold valueExpr
  cases declared : conv c.name with
  | none =>
    rw [declared, Option.isSome_none, eq_comm, Option.isSome_eq_false_iff,
      Option.isNone_iff_eq_none] at same
    simp [ValueExpr.eval, there, Flusher.written, same]
  | some cv =>
    rw [declared, Option.isSome_some, eq_comm, Option.isSome_iff_exists] at same
    obtain ⟨convert, same⟩ := same
    cases v with
    | text source =>
      simp [ValueExpr.eval, isShadowForm, carries, there, Flusher.written, Flusher.converted, same,
        bound]
    | shadowForm text =>
      simp [ValueExpr.eval, isShadowForm, carries, there, Flusher.written, same, bound]

end Params

/-! ### The flush's statements -/

namespace Flusher

variable (f : Flusher) (cs : Constraints f.columns)

/-- The statement that writes an image column-wise. -/
def imageStatement (e : Entry) : RowStatement :=
  ⟨if (f.split e.columns).2.isEmpty then .upsert else .update, e.key, (f.split e.columns).1⟩

/-- The statement that inserts a completed image. -/
def insertStatement (e : Entry) : RowStatement := ⟨.insert, e.key, (f.split e.columns).1⟩

/-- What a statement does to the shadow, and whether it wrote a row. -/
def run (shadow : Table) (st : RowStatement) : Except FlushError (Table × Bool) :=
  match st.kind with
  | .upsert => (f.upsertRow cs shadow st.key st.columns).map fun after => (after, true)
  | .update => f.updateRow cs shadow st.key st.columns
  | .insert => (f.insertRow cs shadow st.key st.columns).map fun after => (after, true)

/-- The row statements a flush of the batch may send: one for each image it is to write, and one for
each image the fallback completed. -/
def rowStatements (reads : Reads) (batch : Batch) : List RowStatement :=
  let entries := f.toWrite reads batch
  (entries.filter fun e => e.kind = .image).map f.imageStatement ++
    match entries.mapM (f.completeWhole reads.shadow) with
    | .error _ => []
    | .ok whole => (whole.filter fun e => e.kind = .image).map f.insertStatement

/-- Sends the statements in order; each has to write its row. -/
def sendAll (shadow : Table) (sts : List RowStatement) : Option Table :=
  sts.foldlM (fun shadow st =>
    match f.run cs shadow st with
    | .ok (after, true) => some after
    | _ => none) shadow

theorem run_imageStatement {shadow after : Table} {e : Entry}
    (wrote : f.writeImage cs shadow e = .ok after) :
    f.run cs shadow (f.imageStatement e) = .ok (after, true) := by
  unfold writeImage at wrote
  unfold run imageStatement
  dsimp only at wrote ⊢
  split at wrote
  next whole =>
    rw [if_pos whole]
    exact map_ok.mpr ⟨after, wrote, rfl⟩
  next omits =>
    rw [if_neg omits]
    split at wrote
    · cases wrote
    next updated =>
      cases wrote
      exact updated
    · cases wrote

theorem run_insertStatement {shadow after : Table} {e : Entry} (image : e.kind = .image)
    (wrote : f.insertWhole cs shadow e = .ok after) :
    f.run cs shadow (f.insertStatement e) = .ok (after, true) := by
  unfold insertWhole at wrote
  rw [image] at wrote
  dsimp only at wrote
  split at wrote
  · exact map_ok.mpr ⟨after, wrote, rfl⟩
  · cases wrote

/-- A pass that sends a statement for each image, and nothing for a delete marker, is the run of its
statements. -/
theorem sendAll_of_pass {pass : Table → Entry → Except FlushError Table}
    {statement : Entry → RowStatement} {entries : List Entry} {shadow after : Table}
    (passes : ∀ e ∈ entries, e.kind = .deleteMarker → ∀ shadow, pass shadow e = .ok shadow)
    (sends : ∀ e ∈ entries, e.kind = .image → ∀ shadow after, pass shadow e = .ok after →
      f.run cs shadow (statement e) = .ok (after, true))
    (ends : entries.foldlM pass shadow = .ok after) :
    f.sendAll cs shadow ((entries.filter fun e => e.kind = .image).map statement) = some after := by
  induction entries generalizing shadow with
  | nil =>
    cases ends
    rfl
  | cons e entries ih =>
    obtain ⟨next, first, rest⟩ := foldlM_cons_ok.mp ends
    have later := ih (fun e member => passes e (List.mem_cons_of_mem _ member))
      (fun e member => sends e (List.mem_cons_of_mem _ member)) rest
    cases kind : e.kind with
    | deleteMarker =>
      rw [passes e List.mem_cons_self kind] at first
      cases first
      simpa [kind] using later
    | image =>
      rw [List.filter_cons_of_pos (by simpa using kind), List.map_cons, sendAll, List.foldlM_cons,
        sends e List.mem_cons_self kind shadow next first]
      exact later

/-- **What a flush commits is written by its row statements**, sent in order after the deletes of
some keys of the batch. -/
theorem flush_sends {reads : Reads} {batch : Batch} {after : Table} {done : Result}
    (flushed : f.flush cs reads batch = .ok (after, done)) :
    ∃ (keys : List Key) (sent : List RowStatement), sent.Sublist (f.rowStatements reads batch) ∧
      f.sendAll cs (keys.foldl ExtTreeMap.erase reads.shadow) sent = some after := by
  rw [flush_eq, apply_eq] at flushed
  split at flushed
  · cases flushed
  unfold applyEntries at flushed
  split at flushed
  next columnWise =>
    cases flushed
    obtain ⟨after, wrote, same⟩ := map_ok.mp columnWise
    cases same
    refine ⟨((f.toWrite reads batch).filter fun e => e.kind = .deleteMarker).map Entry.key, _,
      List.sublist_append_left _ _, ?_⟩
    rw [List.foldl_map]
    have sends : ∀ e ∈ (f.toWrite reads batch).filter fun e => e.kind = .image, e.kind = .image →
        ∀ shadow after, f.writeImage cs shadow e = .ok after →
          f.run cs shadow (f.imageStatement e) = .ok (after, true) :=
      fun e _ _ shadow after => f.run_imageStatement cs
    have images := f.sendAll_of_pass cs (fun e member kind => by simp [kind] at member) sends wrote
    simpa only [List.filter_filter, Bool.and_self] using images
  next =>
    split at flushed
    · cases flushed
    split at flushed
    · cases flushed
    unfold applyWholeRows at flushed
    split at flushed
    · cases flushed
    next whole completed =>
      obtain ⟨after, wrote, same⟩ := map_ok.mp flushed
      cases same
      refine ⟨(f.toWrite reads batch).map Entry.key,
        (whole.filter fun e => e.kind = .image).map f.insertStatement, ?_, ?_⟩
      · unfold rowStatements
        dsimp only
        rw [completed]
        exact List.sublist_append_right _ _
      · rw [List.foldl_map]
        exact f.sendAll_of_pass cs (fun e _ kind shadow => by rw [insertWhole, kind])
          (fun e _ kind shadow after => f.run_insertStatement cs kind) wrote

theorem mem_split {columns : List Column} {c : Column} (listed : c ∈ (f.split columns).1) :
    c.name ∈ f.columns ∧ ∃ v, c.value = some v ∧ valueOf columns c.name = some v := by
  obtain ⟨name, copied, found⟩ := List.mem_filterMap.mp listed
  obtain ⟨v, carried, rfl⟩ := Option.map_eq_some_iff.mp found
  exact ⟨copied, v, rfl, carried⟩

end Flusher

end PgSprite.Applier
