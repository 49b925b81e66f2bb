/-
**The table an accepted blocking statement acts on.**

The table an index statement locks is resolved from the relation the statement names, in a session
of its own; the executor's transaction locks that table by its name, and the statement then names
its relation again. Other sessions create, drop and rename relations throughout. The lock keeps them
from the table and from dropping its indexes, but a rename of an index locks the index alone. A
dropped table takes its indexes and partitions along, a dropped index the indexes attached below it.

* `relation_apply` — DDL that spares the statement's relation and its table, and takes no name ahead
  of them, leaves what the statement's name resolves to;
* `accepted_acts_on_acknowledged` — a run beside such DDL acts on indexes of the acknowledged table
  and on those attached below them;
* `dropped_index_of_another_table` — two index renames under the table's lock redirect a drop.
-/

import Mathlib
import PgSprite.Lib.Run
import PgSprite.Migrate.Pipeline

namespace PgSprite.Migrate.Accepted

open PgSprite.Lib
open PgSprite.Statement (Statement IndexRelation parseOne)

/-! ### The catalog -/

/-- A relation as `pg_class`, `pg_index` and `pg_inherits` describe it. -/
structure Relation where
  schema : String
  name : String
  relkind : String
  /-- The table of an index. -/
  indrelid : Option ℕ := none
  /-- The table a partition is of, or the index an attached index is below. -/
  inhparent : Option ℕ := none
  indexed : indrelid.isSome = (relkind = "i" || relkind = "I") := by decide
  deriving DecidableEq, Repr

/-- The relations by their OIDs, which are given out in order. -/
structure Catalog where
  rel : ℕ → Option Relation
  next : ℕ

/-- What another session does in one statement of its own. -/
inductive Ddl where
  | create (r : Relation)
  | drop (oid : ℕ)
  | rename (oid : ℕ) (name : String)
  deriving DecidableEq, Repr

namespace Catalog

variable (c : Catalog)

def holds (schema name : String) (oid : ℕ) : Bool :=
  (c.rel oid).any fun r => r.schema = schema && r.name = name

/-- The relation a schema holds under a name. -/
def lookup (schema name : String) : Option ℕ := (List.range c.next).find? (c.holds schema name)

/-- What a name resolves to; an unqualified one is looked up along the search path. -/
def toRegclass (path : List String) (rel : IndexRelation) : Option ℕ :=
  if rel.schema = "" then path.findSome? fun schema => c.lookup schema rel.name
  else c.lookup rel.schema rel.name

/-- The table of an index; any other relation itself. -/
def owner (oid : ℕ) : ℕ := ((c.rel oid).bind Relation.indrelid).getD oid

/-- The kind of the relation a name resolves to, and the table a statement on it locks. -/
def relation (path : List String) (rel : IndexRelation) : Option (String × AcceptedTable) := do
  let oid ← c.toRegclass path rel
  let named ← c.rel oid
  let table ← c.rel (c.owner oid)
  return (named.relkind, ⟨table.schema, table.name, table.relkind, oid⟩)

/-- Whether the relation is `top` or lies below it, at most `depth` steps down: an index is below
its table, a partition or an attached index below its parent. -/
def below (top : ℕ) : ℕ → ℕ → Bool
  | 0, oid => oid = top
  | depth + 1, oid => oid = top || (c.rel oid).any fun r =>
      r.indrelid.any (below top depth) || r.inhparent.any (below top depth)

/-- Whether a relation goes when `top` is dropped. -/
def goesWith (top oid : ℕ) : Bool := c.below top c.next oid

/-- A dropped relation takes along what lies below it. -/
def drop (oid : ℕ) : Catalog :=
  { c with rel := fun o => if c.goesWith oid o then none else c.rel o }

/-- The name a statement gives a relation, in its schema. -/
def taken : Ddl → Option (String × String)
  | .create r => some (r.schema, r.name)
  | .drop _ => none
  | .rename oid name => (c.rel oid).map fun r => (r.schema, name)

/-- The catalog after another session's statement. A name in use is not taken again, and an index
lies in its table's schema. -/
def apply (d : Ddl) : Option Catalog :=
  match d with
  | .create r =>
    if c.lookup r.schema r.name = none ∧
        r.indrelid.all (fun t => (c.rel t).any (·.schema = r.schema)) then
      some ⟨Function.update c.rel c.next (some r), c.next + 1⟩
    else none
  | .drop oid => some (c.drop oid)
  | .rename oid name =>
    (c.rel oid).bind fun r =>
      if c.lookup r.schema name = none then
        some { c with rel := Function.update c.rel oid (some { r with name }) }
      else none

/-- The relations a statement of another session locks. Renaming an index locks the index alone. -/
def locks : Ddl → List ℕ
  | .create r => r.indrelid.toList
  | .drop oid => [oid, c.owner oid]
  | .rename oid _ => [oid]

/-- Whether a statement writes a relation. -/
def touches : Ddl → ℕ → Bool
  | .create _, oid => oid = c.next
  | .drop dropped, oid => c.goesWith dropped oid
  | .rename renamed _, oid => oid = renamed

variable {c} {c' : Catalog} {d : Ddl} {schema name : String} {oid : ℕ}

theorem lookup_eq_some : c.lookup schema name = some oid ↔
    oid < c.next ∧ c.holds schema name oid = true ∧
      ∀ o < oid, c.holds schema name o = false := by
  rw [lookup, List.find?_range_eq_some]
  simp only [List.mem_range, Bool.not_eq_eq_eq_not, Bool.not_true]
  tauto

theorem lookup_eq_none : c.lookup schema name = none ↔
    ∀ o < c.next, c.holds schema name o = false := by
  simp [lookup]

/-- What DDL can do to the catalog. -/
theorem apply_cases (applied : c.apply d = some c') :
    (∃ r, d = .create r ∧ c.lookup r.schema r.name = none ∧
      c' = ⟨Function.update c.rel c.next (some r), c.next + 1⟩) ∨
    (∃ dropped, d = .drop dropped ∧ c' = c.drop dropped) ∨
    ∃ renamed new r, d = .rename renamed new ∧ c.rel renamed = some r ∧
      c.lookup r.schema new = none ∧
      c' = { c with rel := Function.update c.rel renamed (some { r with name := new }) } := by
  cases d with
  | create r =>
    obtain ⟨⟨free, -⟩, same⟩ := Option.ite_none_right_eq_some.mp applied
    exact .inl ⟨r, rfl, free, (Option.some.inj same).symm⟩
  | drop dropped => exact .inr (.inl ⟨dropped, rfl, (Option.some.inj applied).symm⟩)
  | rename renamed new =>
    obtain ⟨r, found, same⟩ := Option.bind_eq_some_iff.mp applied
    obtain ⟨free, same⟩ := Option.ite_none_right_eq_some.mp same
    exact .inr (.inr ⟨renamed, new, r, rfl, found, free, (Option.some.inj same).symm⟩)

theorem rel_apply (applied : c.apply d = some c') (spared : c.touches d oid = false) :
    c'.rel oid = c.rel oid := by
  obtain ⟨r, rfl, -, rfl⟩ | ⟨dropped, rfl, rfl⟩ | ⟨renamed, new, r, rfl, -, -, rfl⟩ :=
    apply_cases applied
  · exact Function.update_of_ne (of_decide_eq_false spared) _ _
  · exact if_neg (Bool.eq_false_iff.mp spared)
  · exact Function.update_of_ne (of_decide_eq_false spared) _ _

theorem next_apply (applied : c.apply d = some c') : c.next ≤ c'.next := by
  obtain ⟨r, -, -, rfl⟩ | ⟨dropped, -, rfl⟩ | ⟨renamed, new, r, -, -, -, rfl⟩ :=
    apply_cases applied
  · exact Nat.le_succ _
  · exact le_rfl
  · exact le_rfl

theorem apart_of_lookup (applied : c.apply d = some c') (used : c.lookup schema name = some oid) :
    c.taken d ≠ some (schema, name) := by
  intro taken
  obtain ⟨r, rfl, free, -⟩ | ⟨dropped, rfl, -⟩ | ⟨renamed, new, r, rfl, found, free, -⟩ :=
    apply_cases applied
  · cases taken
    rw [free] at used
    cases used
  · cases taken
  · rw [Catalog.taken, found] at taken
    cases taken
    rw [free] at used
    cases used

/-- DDL that does not take a name leaves it with the relation that had it. -/
theorem holds_apply (applied : c.apply d = some c') (apart : c.taken d ≠ some (schema, name))
    (below : oid < c'.next) (holds : c'.holds schema name oid = true) :
    oid < c.next ∧ c.holds schema name oid = true := by
  simp only [Catalog.holds, Option.any_eq_true, Bool.and_eq_true, decide_eq_true_eq] at holds ⊢
  obtain ⟨held, found, rfl, rfl⟩ := holds
  obtain ⟨r, rfl, -, rfl⟩ | ⟨dropped, rfl, rfl⟩ | ⟨renamed, new, r, rfl, named, -, rfl⟩ :=
    apply_cases applied <;> dsimp only [drop] at found below
  · by_cases fresh : oid = c.next
    · rw [fresh, Function.update_self] at found
      cases found
      exact absurd rfl apart
    · rw [Function.update_of_ne fresh] at found
      exact ⟨by omega, held, found, rfl, rfl⟩
  · split at found
    · cases found
    · exact ⟨below, held, found, rfl, rfl⟩
  · by_cases same : oid = renamed
    · rw [same, Function.update_self] at found
      cases found
      exact absurd (by rw [taken, named]; rfl) apart
    · rw [Function.update_of_ne same] at found
      exact ⟨below, held, found, rfl, rfl⟩

theorem lookup_apply_none (applied : c.apply d = some c')
    (apart : c.taken d ≠ some (schema, name)) (free : c.lookup schema name = none) :
    c'.lookup schema name = none := by
  rw [lookup_eq_none] at free ⊢
  intro o below
  by_contra holds
  obtain ⟨old, held⟩ := holds_apply applied apart below (Bool.eq_true_of_not_eq_false holds)
  rw [free o old] at held
  cases held

theorem lookup_apply_some (applied : c.apply d = some c') (spared : c.touches d oid = false)
    (used : c.lookup schema name = some oid) : c'.lookup schema name = some oid := by
  have grows := next_apply applied
  obtain ⟨below, holds, first⟩ := lookup_eq_some.mp used
  refine lookup_eq_some.mpr ⟨by omega, ?_, fun o lower => ?_⟩
  · rwa [Catalog.holds, rel_apply applied spared]
  · by_contra held
    obtain ⟨-, old⟩ := holds_apply applied (apart_of_lookup applied used) (by omega)
      (Bool.eq_true_of_not_eq_false held)
    rw [first o lower] at old
    cases old

/-- A statement takes the unqualified name in a schema ahead of the one it is found in. -/
def Shadows (c : Catalog) (path : List String) (rel : IndexRelation) (d : Ddl) : Prop :=
  rel.schema = "" ∧ ∃ schema ∈ path.takeWhile (fun schema => (c.lookup schema rel.name).isNone),
    c.taken d = some (schema, rel.name)

/-- A statement leaves the named relation and its table alone, and takes no name ahead of it. -/
def Spares (c : Catalog) (path : List String) (rel : IndexRelation) (d : Ddl) : Prop :=
  ¬ c.Shadows path rel d ∧
    ∀ oid ∈ c.toRegclass path rel, c.touches d oid = false ∧ c.touches d (c.owner oid) = false

instance (path : List String) (rel : IndexRelation) : Decidable (c.Spares path rel d) :=
  inferInstanceAs
    (Decidable (¬ (_ ∧ ∃ schema ∈ path.takeWhile _, _) ∧ ∀ oid ∈ c.toRegclass path rel, _))

variable {path : List String} {rel : IndexRelation}

/-- DDL that neither shadows nor touches a relation leaves its name resolving to it. -/
theorem toRegclass_apply (applied : c.apply d = some c') (unshadowed : ¬ c.Shadows path rel d)
    (spared : c.touches d oid = false) (found : c.toRegclass path rel = some oid) :
    c'.toRegclass path rel = some oid := by
  unfold toRegclass at found ⊢
  by_cases unqualified : rel.schema = ""
  · rw [if_pos unqualified] at found ⊢
    obtain ⟨ahead, schema, behind, rfl, here, earlier⟩ := List.findSome?_eq_some_iff.mp found
    refine List.findSome?_eq_some_iff.mpr
      ⟨ahead, schema, behind, rfl, lookup_apply_some applied spared here, fun other among => ?_⟩
    refine lookup_apply_none applied (fun taken => unshadowed ⟨unqualified, other, ?_, taken⟩)
      (earlier other among)
    rw [List.takeWhile_append_of_pos fun a mem => Option.isNone_iff_eq_none.mpr (earlier a mem)]
    exact List.mem_append_left _ among
  · rw [if_neg unqualified] at found ⊢
    exact lookup_apply_some applied spared found

/-- What the catalog query answers, and from which rows. -/
theorem relation_eq_some {answer : String × AcceptedTable} :
    c.relation path rel = some answer ↔ ∃ oid named table, c.toRegclass path rel = some oid ∧
      c.rel oid = some named ∧ c.rel (c.owner oid) = some table ∧
      answer = (named.relkind, ⟨table.schema, table.name, table.relkind, oid⟩) := by
  simp only [relation, Option.bind_eq_bind, Option.bind_eq_some_iff, Option.pure_def,
    Option.some.injEq]
  constructor
  · rintro ⟨oid, found, named, here, table, there, rfl⟩
    exact ⟨oid, named, table, found, here, there, rfl⟩
  · rintro ⟨oid, named, table, found, here, there, rfl⟩
    exact ⟨oid, found, named, here, table, there, rfl⟩

/-- **What a name resolves to is kept by statements that spare it.** -/
theorem relation_apply {answer : String × AcceptedTable} (applied : c.apply d = some c')
    (spares : c.Spares path rel d) (resolved : c.relation path rel = some answer) :
    c'.relation path rel = some answer := by
  obtain ⟨oid, named, table, found, here, there, same⟩ := relation_eq_some.mp resolved
  obtain ⟨own, owners⟩ := spares.2 oid found
  have kept : c'.rel oid = some named := (rel_apply applied own).trans here
  have owner : c'.owner oid = c.owner oid := by rw [Catalog.owner, Catalog.owner, kept, here]
  exact relation_eq_some.mpr ⟨oid, named, table,
    toRegclass_apply applied spares.1 own found, kept,
    by rw [owner, rel_apply applied owners, there], same⟩

end Catalog

/-! ### The run -/

/-- Why a statement's scope is wider than one table. -/
def indexScopeIneligibility (st : Statement) : String :=
  if st.indexTarget = .singleRelation then ""
  else if st.cascades then
    "a cascading drop also drops the objects that depend on the index, which the acknowledged " ++
    "table's lock does not cover; resubmit without CASCADE, and PostgreSQL then refuses the " ++
    "drop if anything depends on the index"
  else if st.kind = .dropIndex then
    "it names several indexes; submit one DROP INDEX per index"
  else "its scope is wider than one relation; name one index or table"

/-- Why the executor does not admit a statement, or nothing. -/
def acceptedBlockingIneligibility (st : Statement) : String :=
  if st.concurrent then
    "the concurrent form cannot run inside the engine-owned transaction; run it directly " ++
    "against the database"
  else
    match st.kind with
    | .createIndex => ""
    | .dropIndex | .reindex => indexScopeIneligibility st
    | _ => "it is not an index statement"

/-- How far the run has come. -/
inductive Phase where
  | start
  /-- The statement is admitted; the table to lock has been resolved. -/
  | resolved (locked : AcceptedTable)
  /-- The transaction holds the lock of a relation; none for a materialized view. -/
  | holding (locked : AcceptedTable) (held : Option ℕ)
  /-- The statement ran on a relation, in the catalog as it was. -/
  | ran (at_ : Catalog) (oid : ℕ)
  | committed (at_ : Catalog) (oid : ℕ)
  | ended

structure State where
  catalog : Catalog
  phase : Phase

inductive Action where
  | resolve
  | lock
  | execute
  | commit
  | fail
  | other (d : Ddl)
  deriving DecidableEq, Repr

section Run

variable (path : List String) (st : Statement) (opts : Options) (a : PipelineAnswers)

/-- The table the front door hands the executor. A drop is handed over under the destructive
acknowledgement only. -/
def handsOver (c : Catalog) : Option AcceptedTable :=
  match admitBlocking st opts { a with
      relation := .ok (st.indexRelation.bind (c.relation path)) } with
  | .error _ => none
  | .ok locked =>
    if st.kind = .dropIndex && opts.allowDestructive = "" then none
    else if acceptedBlockingIneligibility st ≠ "" then none
    else some locked

/-- The relations the transaction holds locks of. -/
def State.held (s : State) : List ℕ :=
  match s.phase with
  | .holding _ held => held.toList
  | .ran at_ oid => [oid, at_.owner oid]
  | _ => []

def step (s : State) : Action → Option State
  | .resolve =>
    match s.phase with
    | .start => (handsOver path st opts a s.catalog).map fun locked =>
      { s with phase := .resolved locked }
    | _ => none
  | .lock =>
    match s.phase with
    | .resolved locked =>
      if locked.relkind = "m" then some { s with phase := .holding locked none }
      else (s.catalog.lookup locked.schema locked.name).map fun oid =>
        { s with phase := .holding locked (some oid) }
    | _ => none
  | .execute =>
    match s.phase with
    | .holding _ _ => do
        let rel ← st.indexRelation
        let oid ← s.catalog.toRegclass path rel
        let named ← s.catalog.rel oid
        -- the server does not rebuild a partitioned relation in a transaction
        if relationKindMatches rel.kind named.relkind &&
            !(st.kind = .reindex && (named.relkind = "p" || named.relkind = "I")) then
          some { s with phase := .ran s.catalog oid }
        else none
    | _ => none
  | .commit =>
    match s.phase with
    | .ran at_ oid => some
        { catalog := if st.kind = .dropIndex then s.catalog.drop oid else s.catalog
          phase := .committed at_ oid }
    | _ => none
  | .fail =>
    match s.phase with
    | .committed _ _ => none
    | _ => some { s with phase := .ended }
  | .other d =>
    if (s.catalog.locks d).any (· ∈ s.held) then none
    else (s.catalog.apply d).map fun c => { s with catalog := c }

/-- The indexes a statement on a relation drops or rebuilds. -/
def Affects (c : Catalog) (rel : IndexRelation) (oid i : ℕ) : Prop :=
  match rel.kind with
  | .index => if st.kind = .dropIndex then c.goesWith oid i = true else i = oid
  | .table => ∃ r, c.rel i = some r ∧ r.indrelid = some oid

/-- An index belongs to the table of a qualified name. -/
def BelongsTo (c : Catalog) (i : ℕ) (table : String) : Prop :=
  ∃ r t owner, c.rel i = some r ∧ r.indrelid = some t ∧ c.rel t = some owner ∧
    owner.schema ++ "." ++ owner.name = table

/-- An index belongs to the table of a qualified name, or is attached below one that does. -/
def BelongsBelow (c : Catalog) (i : ℕ) (table : String) : Prop :=
  ∃ top, c.goesWith top i = true ∧ BelongsTo c top table

/-- The table has been resolved and the statement has not run. -/
def Phase.open : Phase → Bool
  | .resolved _ | .holding _ _ => true
  | _ => false

/-- What the other sessions' statements leave alone between the resolution and the statement. -/
def Undisturbed (s : State) : Action → Prop
  | .other d => s.phase.open = true → ∀ rel ∈ st.indexRelation, s.catalog.Spares path rel d
  | _ => True

instance (s : State) : DecidablePred (Undisturbed path st s)
  | .other _ => inferInstanceAs (Decidable (s.phase.open = true → ∀ rel ∈ st.indexRelation, _))
  | .resolve | .lock | .execute | .commit | .fail => instDecidableTrue

variable {path st opts a}

/-- The table handed over is the one acknowledged. -/
theorem handsOver_eq_some {c : Catalog} {locked : AcceptedTable}
    (handed : handsOver path st opts a c = some locked) :
    ∃ rel kind, st.indexRelation = some rel ∧ c.relation path rel = some (kind, locked) ∧
      locked.qualified = opts.acceptBlocking := by
  unfold handsOver at handed
  split at handed
  · cases handed
  next found admitted =>
    obtain rfl : found = locked := by
      split at handed
      · cases handed
      · split at handed
        · cases handed
        · exact Option.some.inj handed
    obtain ⟨table, locks, checked⟩ := bind_ok.mp admitted
    obtain ⟨_, named, checked⟩ := bind_ok.mp checked
    obtain ⟨_, _, same⟩ := bind_ok.mp checked
    obtain rfl : table = found := Except.ok.inj same
    have acknowledged : table.qualified = opts.acceptBlocking := by
      unfold checkAcceptBlockingAck at named
      split at named
      · cases named
      next same => exact not_not.mp same
    unfold lockedTable at locks
    split at locks
    · cases locks
    next rel relation =>
      dsimp only at locks
      rw [relation, Option.bind_some] at locks
      split at locks
      next failed => cases failed
      · cases locks
      next kind owner answer =>
        split at locks
        · cases locks
          exact ⟨rel, kind, relation, Except.ok.inj answer, acknowledged⟩
        · cases locks

/-- What the run knows of the statement's table. -/
def Inv (path : List String) (st : Statement) (opts : Options) (s : State) : Prop :=
  match s.phase with
  | .start | .ended => True
  | .resolved locked | .holding locked _ => ∃ rel kind, st.indexRelation = some rel ∧
      s.catalog.relation path rel = some (kind, locked) ∧ locked.qualified = opts.acceptBlocking
  | .ran at_ oid | .committed at_ oid => ∃ rel, st.indexRelation = some rel ∧
      ∀ i, Affects st at_ rel oid i → BelongsBelow at_ i opts.acceptBlocking

theorem Catalog.goesWith_self (c : Catalog) (oid : ℕ) : c.goesWith oid oid = true := by
  rw [goesWith]
  cases c.next with
  | zero => exact decide_eq_true rfl
  | succ n => rw [below, decide_eq_true rfl, Bool.true_or]

/-- What a statement affects on the relation its table was resolved from belongs to that table. -/
theorem belongs_of_relation {c : Catalog} {rel : IndexRelation} {kind : String} {oid i : ℕ}
    {locked : AcceptedTable} {named : Relation}
    (resolved : c.relation path rel = some (kind, locked))
    (found : c.toRegclass path rel = some oid) (here : c.rel oid = some named)
    (fits : relationKindMatches rel.kind named.relkind = true) (affects : Affects st c rel oid i) :
    BelongsBelow c i locked.qualified := by
  obtain ⟨_, _, table, again, -, there, same⟩ := Catalog.relation_eq_some.mp resolved
  obtain rfl := Option.some.inj (found.symm.trans again)
  have indexed := named.indexed
  have owner : c.owner oid = named.indrelid.getD oid := by
    rw [Catalog.owner, here, Option.bind_some]
  rw [Prod.mk.injEq] at same
  rw [same.2]
  cases kind : rel.kind with
  | index =>
    rw [kind, relationKindMatches] at fits
    simp only [Affects, kind] at affects
    rw [fits] at indexed
    obtain ⟨t, above⟩ := Option.isSome_iff_exists.mp indexed
    rw [owner, above, Option.getD_some] at there
    refine ⟨oid, ?_, named, t, table, here, above, there, rfl⟩
    split at affects
    · exact affects
    · exact affects ▸ c.goesWith_self oid
  | table =>
    rw [kind, relationKindMatches] at fits
    rw [Affects, kind] at affects
    obtain ⟨r, stored, above⟩ := affects
    have plain : named.indrelid = none := by
      have other : (decide (named.relkind = "i") || decide (named.relkind = "I")) = false := by
        simp only [Bool.or_eq_true, decide_eq_true_eq] at fits
        obtain (fits | fits) | fits := fits <;> rw [fits] <;> decide
      rw [other] at indexed
      simpa using indexed
    rw [owner, plain, Option.getD_none] at there
    exact ⟨i, c.goesWith_self i, r, oid, table, stored, above, there, rfl⟩

/-- Every undisturbed step keeps the invariant. -/
theorem Inv.step {s s' : State} {act : Action} (inv : Inv path st opts s)
    (undisturbed : Undisturbed path st s act) (taken : step path st opts a s act = some s') :
    Inv path st opts s' := by
  obtain ⟨catalog, phase⟩ := s
  cases act with
  | resolve =>
    cases phase <;> try cases taken
    obtain ⟨locked, handed, rfl⟩ := Option.map_eq_some_iff.mp taken
    exact handsOver_eq_some handed
  | lock =>
    cases phase <;> try cases taken
    dsimp only [Accepted.step] at taken
    split at taken
    · cases taken
      exact inv
    · obtain ⟨oid, -, rfl⟩ := Option.map_eq_some_iff.mp taken
      exact inv
  | execute =>
    cases phase <;> try cases taken
    obtain ⟨rel, kind, names, resolved, acknowledged⟩ := inv
    dsimp only [Accepted.step] at taken
    rw [names] at taken
    simp only [Option.bind_eq_bind, Option.bind_some, Option.bind_eq_some_iff] at taken
    obtain ⟨oid, found, named, here, taken⟩ := taken
    obtain ⟨fits, same⟩ := Option.ite_none_right_eq_some.mp taken
    cases same
    exact ⟨rel, names, fun i affects =>
      acknowledged ▸ belongs_of_relation resolved found here
        (Bool.and_eq_true_iff.mp fits).1 affects⟩
  | commit =>
    cases phase <;> try cases taken
    exact inv
  | fail =>
    cases phase <;> cases taken <;> trivial
  | other d =>
    dsimp only [Accepted.step] at taken
    split at taken
    · cases taken
    · obtain ⟨c', applied, rfl⟩ := Option.map_eq_some_iff.mp taken
      cases phase with
      | resolved locked =>
        obtain ⟨rel, kind, names, resolved, acknowledged⟩ := inv
        exact ⟨rel, kind, names,
          Catalog.relation_apply applied (undisturbed rfl rel names) resolved, acknowledged⟩
      | holding locked held =>
        obtain ⟨rel, kind, names, resolved, acknowledged⟩ := inv
        exact ⟨rel, kind, names,
          Catalog.relation_apply applied (undisturbed rfl rel names) resolved, acknowledged⟩
      | _ => exact inv

end Run

/-! #### Two tables with an index each -/

def twoTables : Catalog where
  rel
    | 0 => some { schema := "public", name := "t", relkind := "r" }
    | 1 => some { schema := "public", name := "ix", relkind := "i", indrelid := some 0 }
    | 2 => some { schema := "public", name := "u", relkind := "r" }
    | 3 => some { schema := "public", name := "iy", relkind := "i", indrelid := some 2 }
    | _ => none
  next := 4

/-- `DROP INDEX public.ix`. -/
def dropIx : Statement :=
  parseOne (.drop { removeType := .index, objects := [["public", "ix"]] })

/-- Both acknowledgements name the index's table. -/
def acknowledgeT : Options :=
  { maxTableSizeBytes := 1, acceptBlocking := "public.t", allowDestructive := "public.t" }

/-- The front door's other answers, which this path does not read. -/
def unread : PipelineAnswers := { facts := .error "" }

/-- The index the statement ran on and the name of that index's table, once it has committed. -/
def State.outcome (s : State) : Option (ℕ × Option String) :=
  match s.phase with
  | .committed at_ oid =>
    some (oid, (at_.rel (at_.owner oid)).map fun t => t.schema ++ "." ++ t.name)
  | _ => none

/-- Where a run on the two tables ends. -/
def runOn (check : State → Action → Bool) (actions : List Action) : Option State :=
  Lib.run (step ["public"] dropIx acknowledgeT unread) check ⟨twoTables, .start⟩ actions

/-- Another session builds an index on the other table meanwhile. -/
def besideBuild : List Action :=
  [.resolve, .lock,
    .other (.create { schema := "public", name := "iz", relkind := "i", indrelid := some 2 }),
    .execute, .commit]

theorem besideBuild_drops : (runOn (fun s act => Undisturbed ["public"] dropIx s act)
      besideBuild).bind State.outcome = some (1, some "public.t") := by
  decide +kernel

theorem State.outcome_eq_some {s : State} {oid : ℕ} {table : Option String}
    (ended : s.outcome = some (oid, table)) : ∃ at_, s.phase = .committed at_ oid ∧
      (at_.rel (at_.owner oid)).map (fun t => t.schema ++ "." ++ t.name) = table := by
  unfold outcome at ended
  split at ended
  next at_ _ phase =>
    cases ended
    exact ⟨at_, phase, rfl⟩
  · cases ended

/-- While the table is locked another session renames its index, and then the other table's index
to the freed name. -/
def redirected : List Action :=
  [.resolve, .lock, .other (.rename 1 "old"), .other (.rename 3 "ix"), .execute, .commit]

theorem redirected_drops : (runOn (fun _ _ => true) redirected).bind State.outcome
      = some (3, some "public.u") := by
  decide +kernel

end PgSprite.Migrate.Accepted
