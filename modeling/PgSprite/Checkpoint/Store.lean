/-
**The checkpoint store: one row per target, written once in what identifies it.**

`upsert` is the guarded statement a save runs and `refusal` the reason it reconstructs when the
statement wrote no row; `save`, `delete` and `load` are the store's calls, as functions of the row
and of what the server answers.

* `upsert_none_iff` — the statement writes no row exactly when the row is incompatible or its proof
  or statement would be replaced;
* `save_ne_updatedNoRow` — the reconstructed reason always names one of these;
* `row_keeps_identity` — what a row is for never changes until it is deleted, a refusal changes
  nothing, and a load returns what a save wrote.
-/

import PgSprite.Checkpoint.Checkpoint
import PgSprite.Dbconn.Failure
import PgSprite.Decode.Lsn

set_option linter.dupNamespace false

namespace PgSprite.Checkpoint

open PgSprite.Decode PgSprite.Copier PgSprite.Dbconn PgSprite.Lib

/-- How the server holds the numbers of a JSON document: it renders each in a spelling of its own,
which is the same number, and compares them as numbers. -/
structure JsonbNumbers where
  spell : String → String
  same : String → String → Bool
  refl : ∀ a, same a a = true
  trans : ∀ a b c, same a b = true → same b c = true → same a c = true
  respelled : ∀ a, same a (spell a) = true

/-- The row of a target. -/
structure Row where
  formatVersion : Int32
  shadowTable : Name
  slotName : Name
  publicationName : Name
  watermark : Option Int64
  lastAppliedLSN : LSN
  sourceFingerprint : String
  targetFingerprint : String
  phase : String
  updatedAt : ℕ
  shadowProof : Option Json
  statement : Option String

/-- What the row is for. -/
def Row.identity (r : Row) : Identity :=
  ⟨r.formatVersion, ⟨r.sourceFingerprint, r.targetFingerprint⟩⟩

/-- Whether the row stands in a phase this engine knows. -/
def Row.phaseKnown (r : Row) : Bool := (parsePhase r.phase).isSome

/-- Which of a row's columns is not the caller's. -/
inductive MismatchKind where
  | format
  | source
  | target
  | phase
  deriving DecidableEq, Repr

/-- A stored row the caller must not use: the column that differs, what the row holds there and what
the caller has. -/
structure IncompatibleError where
  schema : Name
  table : Name
  mismatch : MismatchKind
  holds : String
  want : String
  stored : Identity
  deriving DecidableEq, Repr

/-- The first way a row differs from what the caller wants of it. -/
def Row.incompatibleWith (r : Row) (schema table : Name) (want : Identity) :
    Option IncompatibleError :=
  let mismatch := fun kind holds want => some ⟨schema, table, kind, holds, want, r.identity⟩
  if r.formatVersion ≠ want.formatVersion then
    mismatch .format (toString r.formatVersion) (toString want.formatVersion)
  else if r.sourceFingerprint ≠ want.fingerprints.source then
    mismatch .source r.sourceFingerprint want.fingerprints.source
  else if r.targetFingerprint ≠ want.fingerprints.target then
    mismatch .target r.targetFingerprint want.fingerprints.target
  else if !r.phaseKnown then mismatch .phase r.phase (", ".intercalate knownPhases)
  else none

/-- The column a proof is saved in. -/
def shadowProofColumn (numbers : JsonbNumbers) : ProofText → Option Json
  | .document doc => some (doc.mapNumbers numbers.spell)
  | _ => none

/-- The column a statement is saved in. -/
def statementColumn (sql : String) : Option String := if sql = "" then none else some sql

/-- The row a save offers. -/
def newRow (numbers : JsonbNumbers) (cp : Checkpoint) (now : ℕ) : Row where
  formatVersion := formatVersion
  shadowTable := cp.shadowTable
  slotName := cp.slotName
  publicationName := cp.publicationName
  watermark := cp.watermark
  lastAppliedLSN := cp.lastAppliedLSN
  sourceFingerprint := cp.sourceFingerprint
  targetFingerprint := cp.targetFingerprint
  phase := cp.phase.string
  updatedAt := now
  shadowProof := shadowProofColumn numbers cp.shadowProof
  statement := statementColumn cp.statement

/-- A column that may be set once: the two values do not differ where both are set. -/
def unreplaced {α : Type} (same : α → α → Bool) : Option α → Option α → Bool
  | some stored, some excluded => same stored excluded
  | _, _ => true

/-- The row once the offered one is merged into it: what it is for stays. -/
def Row.updated (row excluded : Row) : Row :=
  { excluded with
    formatVersion := row.formatVersion
    sourceFingerprint := row.sourceFingerprint
    targetFingerprint := row.targetFingerprint
    shadowProof := excluded.shadowProof.or row.shadowProof
    statement := excluded.statement.or row.statement }

/-- The guarded statement: the row it leaves, or nothing when it wrote none. -/
def upsert (numbers : JsonbNumbers) (stored : Option Row) (excluded : Row) : Option Row :=
  match stored with
  | none => some excluded
  | some row =>
    if row.formatVersion = excluded.formatVersion ∧
        row.sourceFingerprint = excluded.sourceFingerprint ∧
        row.targetFingerprint = excluded.targetFingerprint ∧
        row.phase ∈ knownPhases ∧
        unreplaced (Json.sameBy numbers.same) row.shadowProof excluded.shadowProof = true ∧
        unreplaced (· == ·) row.statement excluded.statement = true then
      some (row.updated excluded)
    else none

/-- Why a call of the store failed. The last four are the store's invariant violations that a row
gives rise to. -/
inductive StoreError where
  | invalid (cause : InvalidCheckpoint)
  | lock (cause : Failure)
  | failed (cause : Failure)
  | incompatible (e : IncompatibleError)
  | replacesProof
  | replacesStatement
  | updatedNoRow
  | removedNoRow

/-- The store refused the call, rather than the server or the connection failing it. -/
def StoreError.refusal : StoreError → Bool
  | failed _ => false
  | _ => true

/-- Whether the proof a caller carries is, read as the caller reads JSON, another than the row's. -/
def replacesProof (row : Row) (cp : Checkpoint) : Bool :=
  match row.shadowProof, cp.shadowProof with
  | some stored, .document doc => !Json.sameBy (· == ·) stored doc
  | _, _ => false

/-- Whether the statement a caller carries is another than the row's. -/
def replacesStatement (row : Row) (cp : Checkpoint) : Bool :=
  match row.statement with
  | some stored => decide (cp.statement ≠ "") && decide (stored ≠ cp.statement)
  | none => false

/-- The reason a save gives for a statement that wrote no row, from the row that refused it. -/
def refusal (row : Row) (cp : Checkpoint) : StoreError :=
  match row.incompatibleWith cp.schema cp.table cp.identity with
  | some e => .incompatible e
  | none =>
    if replacesProof row cp then .replacesProof
    else if replacesStatement row cp then .replacesStatement
    else .updatedNoRow

/-- What the lock session and the server answer a call. -/
structure Answers where
  /-- The lock session is missing, for another table, or has reported its loss. -/
  lock : Option Failure := none
  begins : Option Failure := none
  /-- The server does not confirm the lock from inside the transaction. -/
  confirms : Option Failure := none
  executes : Option Failure := none
  readsBack : Option Failure := none
  commit : CommitAnswer := .committed
  now : ℕ := 0

/-- The failure before the call's statement has run. -/
def Answers.stops (a : Answers) : Option StoreError :=
  match a.lock with
  | some cause => some (.lock cause)
  | none => (a.begins.or (a.confirms.or a.executes)).map .failed

/-- Saves a checkpoint in its target's row: the row left, and the error returned. -/
def save (numbers : JsonbNumbers) (cp : Checkpoint) (a : Answers) (stored : Option Row) :
    Option Row × Option StoreError :=
  match cp.validate with
  | some cause => (stored, some (.invalid cause))
  | none =>
    match a.stops with
    | some e => (stored, some e)
    | none =>
      match upsert numbers stored (newRow numbers cp a.now), stored with
      | some row, _ =>
        (if a.commit.lands then some row else stored, a.commit.failure.map .failed)
      | none, some row =>
        (stored, some (match a.readsBack with
          | some cause => .failed cause
          | none => refusal row cp))
      | none, none => (stored, some .updatedNoRow)

/-- Deletes the row the caller was shown: no row is the state a delete produces, another row is
refused. -/
def delete (schema table : Name) (shown : Identity) (a : Answers) (stored : Option Row) :
    Option Row × Option StoreError :=
  match a.stops with
  | some e => (stored, some e)
  | none =>
    match stored with
    | none => (none, a.readsBack.map .failed)
    | some row =>
      if row.identity = shown then
        (if a.commit.lands then none else stored, a.commit.failure.map .failed)
      else
        (stored, some (match a.readsBack with
          | some cause => .failed cause
          | none =>
            match row.incompatibleWith schema table shown with
            | some e => .incompatible e
            | none => .removedNoRow))

/-! ### Loading -/

/-- Why a load returned no checkpoint. -/
inductive LoadError where
  | failed (cause : Failure)
  | exhausted (attempts : ℕ) (cause : Failure)
  | notFound
  | incompatible (e : IncompatibleError)
  | badLSN (cause : ParseLSNError)
  | badPhase (name : String)

/-- Failures worth another read: transient ones, and a server that is going away or coming up. -/
def readRetryable (f : Failure) : Bool :=
  f.retryable || match f.sqlstate with
    | some code => ["57P01", "57P02", "57P03"].contains code
    | none => false

/-- Reads through transient failures, `left` more times after this one. `reads i` is what the i-th
read fails with and `sleeps i` what the wait after it fails with. -/
def retryTransient (reads sleeps : ℕ → Option Failure) : ℕ → ℕ → Except LoadError Unit
  | left, i =>
    match reads i with
    | none => .ok ()
    | some cause =>
      if !readRetryable cause then .error (.failed cause)
      else
        match left with
        | 0 => .error (.exhausted (i + 1) cause)
        | left + 1 =>
          match sleeps i with
          | some stopped => .error (.failed stopped)
          | none => retryTransient reads sleeps left (i + 1)

/-- The checkpoint a row records; its position comes as the server's text. -/
def Row.checkpoint (r : Row) (schema table : Name) : Except LoadError Checkpoint :=
  match parseLSN (LSN.string r.lastAppliedLSN) with
  | .error cause => .error (.badLSN cause)
  | .ok lastAppliedLSN =>
    match parsePhase r.phase with
    | none => .error (.badPhase r.phase)
    | some phase => .ok
        { schema, table, lastAppliedLSN, phase
          shadowTable := r.shadowTable
          slotName := r.slotName
          publicationName := r.publicationName
          watermark := r.watermark
          sourceFingerprint := r.sourceFingerprint
          targetFingerprint := r.targetFingerprint
          updatedAt := r.updatedAt
          shadowProof := match r.shadowProof with
            | some doc => .document doc
            | none => .empty
          statement := r.statement.getD "" }

/-- Loads a target's row for a run with these fingerprints. -/
def load (reads sleeps : ℕ → Option Failure) (attempts : ℕ) (schema table : Name)
    (want : Fingerprints) (stored : Option Row) : Except LoadError Checkpoint :=
  match retryTransient reads sleeps (attempts - 1) 0 with
  | .error e => .error e
  | .ok () =>
    match stored with
    | none => .error .notFound
    | some row =>
      match row.incompatibleWith schema table ⟨formatVersion, want⟩ with
      | some e => .error (.incompatible e)
      | none => row.checkpoint schema table

/-! ### When a save is refused -/

/-- The row is this engine's and for the caller's fingerprints. -/
def Compatible (row : Row) (cp : Checkpoint) : Prop :=
  row.identity = cp.identity ∧ row.phase ∈ knownPhases

/-- The row holds a proof, and the caller carries another. -/
def ProofDiffers (numbers : JsonbNumbers) (row : Row) (cp : Checkpoint) : Prop :=
  unreplaced (Json.sameBy numbers.same) row.shadowProof (shadowProofColumn numbers cp.shadowProof)
    = false

/-- The row holds a statement, and the caller carries another. -/
def StatementDiffers (row : Row) (cp : Checkpoint) : Prop :=
  unreplaced (· == ·) row.statement (statementColumn cp.statement) = false

/-- A row is compatible exactly with its own identity and a known phase. -/
theorem incompatibleWith_none_iff {row : Row} {schema table : Name} {want : Identity} :
    row.incompatibleWith schema table want = none ↔
      row.identity = want ∧ row.phase ∈ knownPhases := by
  have known : row.phaseKnown = true ↔ row.phase ∈ knownPhases := by
    rw [mem_knownPhases, Row.phaseKnown, Option.isSome_iff_ne_none]
  obtain ⟨format, source, target⟩ := want
  simp only [Row.incompatibleWith, Row.identity, Identity.mk.injEq, Fingerprints.mk.injEq, ← known]
  split_ifs <;> simp_all

section Refused

variable {numbers : JsonbNumbers} {row : Row} {cp : Checkpoint} {now : ℕ}

theorem upsert_eq_some_iff {after : Row} :
    upsert numbers (some row) (newRow numbers cp now) = some after ↔
      (Compatible row cp ∧ ¬ ProofDiffers numbers row cp ∧ ¬ StatementDiffers row cp) ∧
        row.updated (newRow numbers cp now) = after := by
  rw [upsert, Option.ite_none_right_eq_some, Option.some.injEq]
  simp only [newRow, Compatible, Row.identity, Checkpoint.identity, Checkpoint.fingerprints,
    Identity.mk.injEq, Fingerprints.mk.injEq, ProofDiffers, StatementDiffers, Bool.not_eq_false,
    and_assoc]

/-- What refuses an upsert over a row. -/
theorem upsert_none_iff :
    upsert numbers (some row) (newRow numbers cp now) = none ↔
      ¬ Compatible row cp ∨ ProofDiffers numbers row cp ∨ StatementDiffers row cp := by
  cases written : upsert numbers (some row) (newRow numbers cp now) with
  | some after =>
    obtain ⟨⟨compatible, proof, statement⟩, -⟩ := upsert_eq_some_iff.mp written
    simp [compatible, proof, statement]
  | none =>
    refine iff_of_true rfl ?_
    by_contra fits
    push Not at fits
    rw [upsert_eq_some_iff.mpr ⟨fits, rfl⟩] at written
    cases written

/-- A proof the server finds different the caller finds different too: equal spellings are equal
numbers. -/
theorem replacesProof_of_differs (differs : ProofDiffers numbers row cp) :
    replacesProof row cp = true := by
  unfold ProofDiffers unreplaced at differs
  unfold replacesProof
  cases stored : row.shadowProof with
  | none => simp [stored] at differs
  | some doc =>
    cases carried : cp.shadowProof with
    | empty => simp [stored, carried, shadowProofColumn] at differs
    | malformed => simp [stored, carried, shadowProofColumn] at differs
    | document other =>
      by_contra found
      have same : Json.sameBy (· == ·) doc other = true := by simpa using found
      have equal : Json.sameBy numbers.same doc (other.mapNumbers numbers.spell) = true := by
        refine Json.sameBy_mapNumbers (fun a b spelled => ?_) same
        rw [beq_iff_eq.mp spelled]
        exact numbers.respelled b
      simp [stored, carried, shadowProofColumn, equal] at differs

theorem replacesStatement_iff : replacesStatement row cp = true ↔ StatementDiffers row cp := by
  unfold replacesStatement StatementDiffers statementColumn unreplaced
  cases row.statement with
  | none => simp
  | some text => by_cases blank : cp.statement = "" <;> simp [blank]

theorem refusal_of_incompatible (other : ¬ Compatible row cp) :
    ∃ e, refusal row cp = .incompatible e := by
  unfold refusal
  cases found : row.incompatibleWith cp.schema cp.table cp.identity with
  | some e => exact ⟨e, rfl⟩
  | none => exact absurd (incompatibleWith_none_iff.mp found) other

/-- What a refused save says of a compatible row. -/
theorem refusal_of_differs (compatible : Compatible row cp)
    (differs : ProofDiffers numbers row cp ∨ StatementDiffers row cp) :
    refusal row cp = .replacesProof ∨ refusal row cp = .replacesStatement := by
  unfold refusal
  rw [incompatibleWith_none_iff.mpr compatible]
  by_cases proof : replacesProof row cp = true
  · exact Or.inl (by simp [proof])
  · have statement : replacesStatement row cp = true :=
      replacesStatement_iff.mpr
        (differs.resolve_left fun found => proof (replacesProof_of_differs found))
    exact Or.inr (by simp [proof, statement])

end Refused

/-! ### Calls and runs of calls -/

/-- A call of the store on one target. -/
inductive Call where
  | save (cp : Checkpoint) (a : Answers)
  | delete (schema table : Name) (shown : Identity) (a : Answers)

/-- What a call leaves and returns. -/
def Call.run (numbers : JsonbNumbers) : Call → Option Row → Option Row × Option StoreError
  | save cp a, stored => Checkpoint.save numbers cp a stored
  | delete schema table shown a, stored => Checkpoint.delete schema table shown a stored

section Calls

variable {numbers : JsonbNumbers} {cp : Checkpoint} {a : Answers} {stored : Option Row}
  {row after : Row}

/-- The three ways a save ends: it stops before its statement, the statement writes a row, or the
row refuses it. -/
theorem save_cases (numbers : JsonbNumbers) (cp : Checkpoint) (a : Answers) (stored : Option Row) :
    (∃ e, (cp.validate ≠ none ∨ a.stops ≠ none) ∧ e ≠ .updatedNoRow ∧
      save numbers cp a stored = (stored, some e)) ∨
    (∃ after, cp.validate = none ∧ a.stops = none ∧
      upsert numbers stored (newRow numbers cp a.now) = some after ∧
      save numbers cp a stored
        = (if a.commit.lands then some after else stored, a.commit.failure.map .failed)) ∨
    ∃ row, cp.validate = none ∧ a.stops = none ∧ stored = some row ∧
      upsert numbers stored (newRow numbers cp a.now) = none ∧
      save numbers cp a stored = (stored, some (match a.readsBack with
        | some cause => .failed cause
        | none => refusal row cp)) := by
  unfold save
  cases invalid : cp.validate with
  | some cause => exact Or.inl ⟨_, Or.inl (by simp), by simp, rfl⟩
  | none =>
    cases stops : a.stops with
    | some e =>
      refine Or.inl ⟨e, Or.inr (by simp), ?_, rfl⟩
      rintro rfl
      unfold Answers.stops at stops
      cases lock : a.lock with
      | some cause => simp [lock] at stops
      | none => simp [lock, Option.map_eq_some_iff] at stops
    | none =>
      cases written : upsert numbers stored (newRow numbers cp a.now) with
      | some after => exact Or.inr (Or.inl ⟨after, rfl, rfl, rfl, rfl⟩)
      | none =>
        cases stored with
        | none => cases written
        | some row => exact Or.inr (Or.inr ⟨row, rfl, rfl, rfl, rfl, rfl⟩)

/-- A save leaves the row as it was or upserted. -/
theorem save_row (left : (save numbers cp a (some row)).1 = some after) :
    after = row ∨ upsert numbers (some row) (newRow numbers cp a.now) = some after := by
  rcases save_cases numbers cp a (some row) with ⟨e, -, -, saved⟩ | ⟨next, -, -, written, saved⟩ |
    ⟨_, -, -, -, -, saved⟩
  · rw [saved] at left
    exact Or.inl (Option.some.inj left).symm
  · rw [saved] at left
    by_cases lands : a.commit.lands = true
    · rw [if_pos lands] at left
      exact Or.inr (written.trans left)
    · rw [if_neg lands] at left
      exact Or.inl (Option.some.inj left).symm
  · rw [saved] at left
    exact Or.inl (Option.some.inj left).symm

theorem delete_row {schema table : Name} {shown : Identity}
    (left : (delete schema table shown a (some row)).1 = some after) : after = row := by
  unfold delete at left
  split at left
  · exact (Option.some.inj left).symm
  · split at left
    · cases left
    next same =>
      cases same
      split at left
      · split at left
        · cases left
        · exact (Option.some.inj left).symm
      · exact (Option.some.inj left).symm

/-- What a row is for has not changed: its format and fingerprints, and its proof and statement
where they were set. -/
structure Keeps (numbers : JsonbNumbers) (first last : Row) : Prop where
  identity : last.identity = first.identity
  proof : ∀ doc, first.shadowProof = some doc →
    ∃ kept, last.shadowProof = some kept ∧ Json.sameBy numbers.same doc kept = true
  statement : ∀ text, first.statement = some text → last.statement = some text

theorem Keeps.refl (row : Row) : Keeps numbers row row :=
  ⟨rfl, fun doc here => ⟨doc, here, Json.sameBy_refl numbers.refl doc⟩, fun _ here => here⟩

theorem Keeps.trans {last : Row} (first : Keeps numbers row after)
    (second : Keeps numbers after last) : Keeps numbers row last where
  identity := second.identity.trans first.identity
  proof := by
    intro doc here
    obtain ⟨middle, found, same⟩ := first.proof doc here
    obtain ⟨kept, there, again⟩ := second.proof middle found
    exact ⟨kept, there, Json.sameBy_trans numbers.trans same again⟩
  statement := fun text here => second.statement text (first.statement text here)

/-- An upsert keeps what the row is for. -/
theorem keeps_of_upsert
    (written : upsert numbers (some row) (newRow numbers cp a.now) = some after) :
    Keeps numbers row after := by
  obtain ⟨⟨-, proof, statement⟩, rfl⟩ := upsert_eq_some_iff.mp written
  refine ⟨rfl, fun doc here => ?_, fun text here => ?_⟩
  · have allowed : unreplaced (Json.sameBy numbers.same) (some doc)
        (shadowProofColumn numbers cp.shadowProof) = true := by
      rw [← here]
      exact Bool.not_eq_false _ ▸ proof
    cases carried : shadowProofColumn numbers cp.shadowProof with
    | none =>
      refine ⟨doc, ?_, Json.sameBy_refl numbers.refl doc⟩
      simp [Row.updated, newRow, carried, here]
    | some other =>
      rw [carried] at allowed
      refine ⟨other, ?_, allowed⟩
      simp [Row.updated, newRow, carried]
  · have allowed : unreplaced (· == ·) (some text) (statementColumn cp.statement) = true := by
      rw [← here]
      exact Bool.not_eq_false _ ▸ statement
    cases carried : statementColumn cp.statement with
    | none => simp [Row.updated, newRow, carried, here]
    | some other =>
      rw [carried] at allowed
      have same : text = other := by simpa [unreplaced] using allowed
      simp [Row.updated, newRow, carried, same]

theorem keeps_of_run {call : Call} (left : (call.run numbers (some row)).1 = some after) :
    Keeps numbers row after := by
  cases call with
  | save cp a =>
    rcases save_row left with rfl | written
    · exact Keeps.refl after
    · exact keeps_of_upsert written
  | delete schema table shown a =>
    rw [delete_row left]
    exact Keeps.refl row

theorem keeps_of_runs {calls : List Call}
    (stands : calls.foldlM (fun row call => (call.run numbers (some row)).1) row = some after) :
    Keeps numbers row after := by
  induction calls generalizing row with
  | nil =>
    cases stands
    exact Keeps.refl _
  | cons call rest ih =>
    obtain ⟨next, first, others⟩ := Option.bind_eq_some_iff.mp stands
    exact (keeps_of_run first).trans (ih others)

/-- A call that refuses leaves the store unchanged. -/
theorem unchanged_of_refusal {call : Call} {e : StoreError}
    (returned : (call.run numbers stored).2 = some e) (refused : e.refusal = true) :
    (call.run numbers stored).1 = stored := by
  cases call with
  | save cp a =>
    rw [Call.run] at returned ⊢
    rcases save_cases numbers cp a stored with ⟨e', -, -, saved⟩ | ⟨next, -, -, -, saved⟩ |
      ⟨row, -, -, -, -, saved⟩
    · rw [saved]
    · rw [saved] at returned
      obtain ⟨cause, -, rfl⟩ := Option.map_eq_some_iff.mp returned
      cases refused
    · rw [saved]
  | delete schema table shown a =>
    rw [Call.run] at returned ⊢
    unfold delete at returned ⊢
    split at returned
    · rfl
    · split at returned
      · rfl
      next row =>
        split at returned
        next =>
          obtain ⟨cause, -, rfl⟩ := Option.map_eq_some_iff.mp returned
          cases refused
        next other => rw [if_neg other]

/-- The proof a row holds after a save: the one it carries, or the one that was there. -/
def keptProof (numbers : JsonbNumbers) (cp : Checkpoint) (stored : Option Row) : ProofText :=
  match (shadowProofColumn numbers cp.shadowProof).or (stored.bind Row.shadowProof) with
  | some doc => .document doc
  | none => .empty

/-- The statement a row holds after a save. -/
def keptStatement (cp : Checkpoint) (stored : Option Row) : String :=
  ((statementColumn cp.statement).or (stored.bind Row.statement)).getD ""

/-- What a load returns after a save: the checkpoint saved, stamped, with the kept proof and
statement. -/
def saved (numbers : JsonbNumbers) (cp : Checkpoint) (now : ℕ) (stored : Option Row) : Checkpoint :=
  { cp with
    updatedAt := now
    shadowProof := keptProof numbers cp stored
    statement := keptStatement cp stored }

/-- The row an upsert writes loads as the checkpoint that was saved. -/
theorem checkpoint_of_upsert (valid : cp.validate = none)
    (written : upsert numbers stored (newRow numbers cp a.now) = some row) :
    row.identity = cp.identity ∧ row.phase ∈ knownPhases ∧
      row.checkpoint cp.schema cp.table = .ok (saved numbers cp a.now stored) := by
  have phase := Checkpoint.validate_phase valid
  have name : cp.phase.string ∈ knownPhases := mem_knownPhases.mpr (by simp [phase])
  cases stored with
  | none =>
    cases written
    refine ⟨rfl, name, ?_⟩
    simp only [Row.checkpoint, newRow, parseLSN_string, phase, saved, keptProof, keptStatement,
      Option.bind_none, Option.or_none]
  | some before =>
    obtain ⟨⟨⟨same, -⟩, -, -⟩, rfl⟩ := upsert_eq_some_iff.mp written
    simp only [Row.identity, Checkpoint.identity, Checkpoint.fingerprints, Identity.mk.injEq,
      Fingerprints.mk.injEq] at same
    refine ⟨?_, name, ?_⟩
    · simp [Row.identity, Row.updated, Checkpoint.identity, Checkpoint.fingerprints, same]
    · simp only [Row.checkpoint, Row.updated, newRow, parseLSN_string, phase, saved, keptProof,
        keptStatement, Option.bind_some, same]

/-- A checkpoint loads as it was saved. -/
theorem load_of_save {reads sleeps : ℕ → Option Failure} {attempts : ℕ}
    (done : (save numbers cp a stored).2 = none)
    (read : retryTransient reads sleeps (attempts - 1) 0 = .ok ()) :
    load reads sleeps attempts cp.schema cp.table cp.fingerprints (save numbers cp a stored).1
      = .ok (saved numbers cp a.now stored) := by
  rcases save_cases numbers cp a stored with ⟨e, -, -, result⟩ | ⟨row, valid, -, written, result⟩ |
    ⟨row, -, -, -, -, result⟩
  · rw [result] at done
    cases done
  · rw [result] at done
    have lands := CommitAnswer.lands_of_failure (Option.map_eq_none_iff.mp done)
    obtain ⟨identity, phase, records⟩ := checkpoint_of_upsert valid written
    have compatible :
        row.incompatibleWith cp.schema cp.table ⟨formatVersion, cp.fingerprints⟩ = none :=
      incompatibleWith_none_iff.mpr ⟨identity, phase⟩
    simp only [result, if_pos lands, load, read, compatible, records]
  · rw [result] at done
    cases done

/-- A save that reaches the row is refused exactly by an incompatible row, or one whose proof or
statement it would replace. -/
theorem save_refused_iff (valid : cp.validate = none) (reaches : a.stops = none)
    (read : a.readsBack = none) :
    ((∃ e, (save numbers cp a (some row)).2 = some (.incompatible e)) ↔ ¬ Compatible row cp) ∧
    (((save numbers cp a (some row)).2 = some .replacesProof ∨
        (save numbers cp a (some row)).2 = some .replacesStatement) ↔
      Compatible row cp ∧ (ProofDiffers numbers row cp ∨ StatementDiffers row cp)) := by
  rcases save_cases numbers cp a (some row) with ⟨e, stopped, -, -⟩ |
    ⟨after, -, -, written, result⟩ |
    ⟨other, -, -, same, refused, result⟩
  · rcases stopped with bad | bad
    · exact absurd valid bad
    · exact absurd reaches bad
  · obtain ⟨⟨compatible, proof, statement⟩, -⟩ := upsert_eq_some_iff.mp written
    rw [result]
    cases a.commit.failure with
    | none => simp [compatible, proof, statement]
    | some cause => simp [compatible, proof, statement]
  · cases same
    rw [result, read]
    by_cases compatible : Compatible row cp
    · have differs := (upsert_none_iff.mp refused).resolve_left fun other => other compatible
      rcases refusal_of_differs compatible differs with reason | reason
      · simp [reason, compatible, differs]
      · simp [reason, compatible, differs]
    · obtain ⟨e, reason⟩ := refusal_of_incompatible compatible
      simp [reason, compatible]

/-- An upsert of a valid checkpoint always leaves its row. -/
theorem save_ne_updatedNoRow : (save numbers cp a stored).2 ≠ some .updatedNoRow := by
  rcases save_cases numbers cp a stored with ⟨e, -, named, result⟩ | ⟨row, -, -, -, result⟩ |
    ⟨row, -, -, same, refused, result⟩
  · rw [result]
    exact fun here => named (Option.some.inj here)
  · rw [result]
    cases a.commit.failure <;> simp
  · rw [result]
    subst same
    cases a.readsBack with
    | some cause => simp
    | none =>
      by_cases compatible : Compatible row cp
      · have differs := (upsert_none_iff.mp refused).resolve_left fun other => other compatible
        rcases refusal_of_differs compatible differs with reason | reason <;> simp [reason]
      · obtain ⟨e, reason⟩ := refusal_of_incompatible compatible
        simp [reason]

end Calls

/-- **A row keeps its identity until it is deleted.** Under any calls that leave it standing, what
it is for does not change; a call the store refuses changes nothing; a save is refused as
incompatible exactly by a row that is, and as an invariant violation exactly when it would replace
the row's proof or statement, never without a reason; and a load after a save that succeeded returns
what was saved. -/
theorem row_keeps_identity (numbers : JsonbNumbers) :
    (∀ (first last : Row) (calls : List Call),
      calls.foldlM (fun row call => (call.run numbers (some row)).1) first = some last →
        Keeps numbers first last) ∧
    (∀ (call : Call) (stored : Option Row) (e : StoreError),
      (call.run numbers stored).2 = some e → e.refusal = true →
        (call.run numbers stored).1 = stored) ∧
    (∀ (cp : Checkpoint) (a : Answers) (row : Row),
      cp.validate = none → a.stops = none → a.readsBack = none →
        ((∃ e, (save numbers cp a (some row)).2 = some (.incompatible e)) ↔ ¬ Compatible row cp) ∧
        (((save numbers cp a (some row)).2 = some .replacesProof ∨
            (save numbers cp a (some row)).2 = some .replacesStatement) ↔
          Compatible row cp ∧ (ProofDiffers numbers row cp ∨ StatementDiffers row cp))) ∧
    (∀ (cp : Checkpoint) (a : Answers) (stored : Option Row),
      (save numbers cp a stored).2 ≠ some .updatedNoRow) ∧
    ∀ (cp : Checkpoint) (a : Answers) (stored : Option Row) (reads sleeps : ℕ → Option Failure)
      (attempts : ℕ), (save numbers cp a stored).2 = none →
        retryTransient reads sleeps (attempts - 1) 0 = .ok () →
          load reads sleeps attempts cp.schema cp.table cp.fingerprints
            (save numbers cp a stored).1 = .ok (saved numbers cp a.now stored) :=
  ⟨fun _ _ _ stands => keeps_of_runs stands, fun _ _ _ returned => unchanged_of_refusal returned,
    fun _ _ _ valid reaches read => save_refused_iff valid reaches read,
    fun _ _ _ => save_ne_updatedNoRow, fun _ _ _ _ _ _ done read => load_of_save done read⟩

/-- Numbers compared by their spelling. -/
def spelledNumbers : JsonbNumbers where
  spell := id
  same a b := a == b
  refl _ := beq_self_eq_true _
  trans a b c first second := by rwa [beq_iff_eq.mp first]
  respelled _ := beq_self_eq_true _

/-- A checkpoint of `public.orders` at the highest key. -/
def ordersCheckpoint : Checkpoint where
  schema := "public"
  table := "orders"
  shadowTable := "_orders_new"
  slotName := "pgsprite_orders"
  publicationName := "pgsprite_orders"
  watermark := some Int64.maxValue
  lastAppliedLSN := 0xFFFFFFFFFFFFFFFF
  sourceFingerprint := "s"
  targetFingerprint := "t"
  phase := .catchingUp
  updatedAt := 0
  shadowProof := .document (.object {"oid"} fun _ => .number "7")
  statement := "ALTER TABLE orders ADD COLUMN note text"

theorem row_keeps_identity_orders :
    load (fun _ => none) (fun _ => none) 5 "public" "orders" ⟨"s", "t"⟩
        (save spelledNumbers ordersCheckpoint { now := 9 } none).1
      = .ok (saved spelledNumbers ordersCheckpoint 9 none) :=
  (row_keeps_identity spelledNumbers).2.2.2.2 ordersCheckpoint { now := 9 } none (fun _ => none)
    (fun _ => none) 5 (by decide) rfl

end PgSprite.Checkpoint
