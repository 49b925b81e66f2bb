/-
**Reading from the catalog whether a swap committed.**

A swap gives the source's name to the shadow and the old name to the source, in one transaction.
`readSwappedTable` answers from the catalog which of the two bears the source's name, and refuses
while another backend still holds either relation exclusively.

* `readSwappedTable_ok` — a proof is minted only where the swap the caller expects has committed;
* `readSwappedTable_error` — the source is reported live, or gone, only where it is.
-/

import PgSprite.Decode.Change
import PgSprite.Lib.Except
import PgSprite.SchemaChange.Outcome

namespace PgSprite.SchemaChange

open PgSprite.Decode PgSprite.Lib

abbrev Oid := UInt32

/-- An identity column and the sequence it draws from. -/
structure IdentityColumn where
  column : Name
  always : Bool
  sequenceSchema : Name
  sequenceName : Name
  deriving DecidableEq, Repr

/-- What a build proved of the shadow it left. -/
structure Proof where
  schema : Name
  sourceTable : Name
  shadowTable : Name
  sourceOID : Oid
  shadowOID : Oid
  sourceFingerprint : String
  targetFingerprint : String
  identityColumns : List IdentityColumn
  owner : Name
  /-- The rest of the two metadata snapshots, the copied columns and the conversions. -/
  fidelity : String
  conversionFingerprint : String
  deriving DecidableEq, Repr

/-- Which relation bears which name: the source's, the shadow's, the old table's, and any other. -/
structure Catalog where
  source : Option Oid
  shadow : Option Oid
  old : Option Oid
  others : List (Name × Oid)
  deriving DecidableEq, Repr

namespace Catalog

/-- The catalog still has the relation, under some name. -/
def has (c : Catalog) (oid : Oid) : Bool :=
  c.source = some oid || c.shadow = some oid || c.old = some oid || c.others.any (·.2 = oid)

/-- The catalog once the source bears the old name and the shadow the source's. -/
def renamed (c : Catalog) : Catalog :=
  { c with source := c.shadow, shadow := none, old := c.source }

end Catalog

/-- The proof of a committed swap: the live table, and the source it retained. -/
structure SwappedTable where
  schema : Name
  table : Name
  liveOID : Oid
  oldOID : Oid
  owner : Name
  identities : List IdentityColumn
  attempts : ℕ
  deriving DecidableEq, Repr

/-- What the reads of the swap's outcome answer beside the names. -/
structure SwapReads where
  holders : Except DriverError ℕ := .ok 0
  live : Option DriverError := none
  old : Option DriverError := none
  gone : Option DriverError := none
  liveOwner : Except DriverError Name
  oldOwner : Except DriverError Name
  /-- A read of the dependents of either table fails. -/
  dependents : Option DriverError := none
  identities : Except DriverError (List IdentityColumn)

/-- Fails with what a read answered instead. -/
def answered (failure : Option DriverError) : Except Error Unit :=
  match failure with
  | some e => .error (ofDriver e)
  | none => .ok ()

/-- The value of a read. -/
def answer {α : Type} (read : Except DriverError α) : Except Error α :=
  match read with
  | .error e => .error (ofDriver e)
  | .ok a => .ok a

/-- Refuses while another backend holds either relation exclusively: a swap still deciding does. -/
def refuseSwapInFlight (r : SwapReads) : Except Error Unit :=
  match answer r.holders with
  | .error e => .error e
  | .ok holders => if holders > 0 then .error (refuse .outcomeAmbiguous []) else .ok ()

/-- The relation that bears the source's name, when it is the shadow. -/
def confirmLive (c : Catalog) (expected : Proof) (r : SwapReads) : Except Error Oid :=
  match answered r.live with
  | .error e => .error e
  | .ok () =>
    match c.source with
    | none => .error (refuse .outcomeAmbiguous [])
    | some liveOID =>
      if liveOID = expected.sourceOID then .error (.leaf .notSwapped)
      else if liveOID ≠ expected.shadowOID then .error (refuse .outcomeAmbiguous [])
      else .ok liveOID

/-- What a free old name means: the source is gone, or it is under another name. -/
def confirmSourceGone (c : Catalog) (expected : Proof) (r : SwapReads) : Error :=
  match r.gone with
  | some e => ofDriver e
  | none =>
    if c.has expected.sourceOID then refuse .relationReplaced [] else .leaf .oldTableNotFound

/-- The relation that bears the old name, when it is the source. -/
def confirmOld (c : Catalog) (expected : Proof) (r : SwapReads) : Except Error Oid :=
  match answered r.old with
  | .error e => .error e
  | .ok () =>
    match c.old with
    | none => .error (confirmSourceGone c expected r)
    | some oldOID =>
      if oldOID ≠ expected.sourceOID then .error (refuse .relationReplaced []) else .ok oldOID

/-- Refuses tables owned by another role than the build recorded. -/
def confirmOwner (expected : Proof) (r : SwapReads) : Except Error Unit := do
  let liveOwner ← answer r.liveOwner
  let oldOwner ← answer r.oldOwner
  if liveOwner ≠ expected.owner then .error (refuse .swapMismatch [])
  else if oldOwner ≠ expected.owner then .error (refuse .swapMismatch [])
  else .ok ()

/-- An identity column stands on the live table as the swap was to recreate it. -/
def handedOff (live : List IdentityColumn) (want : IdentityColumn) : Bool :=
  match live.reverse.find? (·.column = want.column) with
  | none => false
  | some got => got.always = want.always &&
      (got.sequenceSchema = want.sequenceSchema && got.sequenceName = want.sequenceName)

/-- Refuses a live table whose identity columns are not what the swap was to recreate. -/
def confirmHandoff (expected : Proof) (live : List IdentityColumn) : Except Error Unit :=
  if expected.identityColumns.all (handedOff live) then .ok ()
  else .error (refuse .swapMismatch [])

/-- Reads the outcome of the swap the caller expects. -/
def readSwappedTable (c : Catalog) (expected : Proof) (r : SwapReads) :
    Except Error SwappedTable := do
  refuseSwapInFlight r
  let liveOID ← confirmLive c expected r
  let oldOID ← confirmOld c expected r
  confirmOwner expected r
  answered r.dependents
  let identities ← answer r.identities
  confirmHandoff expected identities
  return {
    schema := expected.schema, table := expected.sourceTable, liveOID, oldOID
    owner := expected.owner, identities, attempts := 0 }

/-! ### What the answers mean -/

section Answers

variable {c : Catalog} {expected : Proof} {r : SwapReads} {e : Error} {sentinel : Cause}

theorem not_isError_ofDriver {d : DriverError} (own : IsSentinel sentinel) :
    ¬ isError sentinel (ofDriver d) = true := by
  rw [isError_ofDriver own]
  exact Bool.false_ne_true

theorem not_isError_refuse {cause : RefusalCause} (own : IsSentinel sentinel) :
    ¬ isError sentinel (refuse cause []) = true := by
  rw [isError_refuse own]
  exact Bool.false_ne_true

theorem isError_leaf {other : Cause} :
    isError sentinel (.leaf other) = true ↔
    other = sentinel := by
  simp [isError, ErrorTree.is]

theorem not_isError_answer {α : Type} {read : Except DriverError α} (own : IsSentinel sentinel)
    (failed : answer read = .error e) : ¬ isError sentinel e = true := by
  unfold answer at failed
  split at failed
  · cases failed
    exact not_isError_ofDriver own
  · cases failed

theorem not_isError_answered {failure : Option DriverError} (own : IsSentinel sentinel)
    (failed : answered failure = .error e) : ¬ isError sentinel e = true := by
  unfold answered at failed
  split at failed
  · cases failed
    exact not_isError_ofDriver own
  · cases failed

theorem not_isError_refuseSwapInFlight (own : IsSentinel sentinel)
    (failed : refuseSwapInFlight r = .error e) : ¬ isError sentinel e = true := by
  unfold refuseSwapInFlight at failed
  split at failed
  next read =>
    cases failed
    exact not_isError_answer own read
  · split at failed
    · cases failed
      exact not_isError_refuse own
    · cases failed

theorem confirmLive_ok {liveOID : Oid} (confirmed : confirmLive c expected r = .ok liveOID) :
    c.source = some expected.shadowOID ∧ liveOID = expected.shadowOID ∧
      expected.shadowOID ≠ expected.sourceOID := by
  unfold confirmLive at confirmed
  split at confirmed
  · cases confirmed
  · split at confirmed
    · cases confirmed
    next oid bears =>
      split_ifs at confirmed with live other
      push Not at other
      cases confirmed
      exact ⟨bears.trans (congrArg some other), other, other ▸ live⟩

/-- The source still live is the one way to the sentinel that says so. -/
theorem confirmLive_error (own : IsSentinel sentinel) (failed : confirmLive c expected r = .error e)
    (named : isError sentinel e = true) :
    sentinel = .notSwapped ∧ c.source = some expected.sourceOID := by
  unfold confirmLive at failed
  split at failed
  next read =>
    cases failed
    exact absurd named (not_isError_answered own read)
  · split at failed
    · cases failed
      exact absurd named (not_isError_refuse own)
    next oid bears =>
      split_ifs at failed with live other
      · cases failed
        exact ⟨(isError_leaf.mp named).symm, bears.trans (congrArg some live)⟩
      · cases failed
        exact absurd named (not_isError_refuse own)

theorem confirmOld_ok {oldOID : Oid} (confirmed : confirmOld c expected r = .ok oldOID) :
    c.old = some expected.sourceOID ∧ oldOID = expected.sourceOID := by
  unfold confirmOld at confirmed
  split at confirmed
  · cases confirmed
  · split at confirmed
    · cases confirmed
    next oid bears =>
      split_ifs at confirmed with other
      push Not at other
      cases confirmed
      exact ⟨bears.trans (congrArg some other), other⟩

/-- The source gone is the one way to the sentinel that says so. -/
theorem confirmOld_error (own : IsSentinel sentinel) (failed : confirmOld c expected r = .error e)
    (named : isError sentinel e = true) :
    sentinel = .oldTableNotFound ∧ c.has expected.sourceOID = false := by
  unfold confirmOld at failed
  split at failed
  next read =>
    cases failed
    exact absurd named (not_isError_answered own read)
  · split at failed
    · cases failed
      unfold confirmSourceGone at named
      split at named
      · exact absurd named (not_isError_ofDriver own)
      · split_ifs at named with kept
        · exact absurd named (not_isError_refuse own)
        · exact ⟨(isError_leaf.mp named).symm, Bool.eq_false_iff.mpr kept⟩
    · split_ifs at failed
      cases failed
      exact absurd named (not_isError_refuse own)

theorem not_isError_confirmOwner (own : IsSentinel sentinel)
    (failed : confirmOwner expected r = .error e) : ¬ isError sentinel e = true := by
  simp only [confirmOwner, bind_error] at failed
  rcases failed with read | ⟨live, -, read | ⟨old, -, failed⟩⟩
  · exact not_isError_answer own read
  · exact not_isError_answer own read
  · split_ifs at failed <;>
      · cases failed
        exact not_isError_refuse own

theorem not_isError_confirmHandoff {live : List IdentityColumn} (own : IsSentinel sentinel)
    (failed : confirmHandoff expected live = .error e) : ¬ isError sentinel e = true := by
  unfold confirmHandoff at failed
  split_ifs at failed
  cases failed
  exact not_isError_refuse own

/-- **A proof is minted only for the swap the caller expects.** -/
theorem readSwappedTable_ok {t : SwappedTable} (read : readSwappedTable c expected r = .ok t) :
    c.source = some expected.shadowOID ∧ c.old = some expected.sourceOID ∧
      expected.shadowOID ≠ expected.sourceOID ∧ t.liveOID = expected.shadowOID ∧
      t.oldOID = expected.sourceOID := by
  simp only [readSwappedTable, bind_ok] at read
  obtain ⟨_, -, liveOID, live, oldOID, old, _, -, _, -, identities, -, _, -, minted⟩ := read
  cases minted
  obtain ⟨source, liveIs, differ⟩ := confirmLive_ok live
  obtain ⟨retained, oldIs⟩ := confirmOld_ok old
  exact ⟨source, retained, differ, liveIs, oldIs⟩

/-- **The two answers that are not a proof, and what the catalog shows for each.** -/
theorem readSwappedTable_error (own : IsSentinel sentinel)
    (read : readSwappedTable c expected r = .error e) (named : isError sentinel e = true) :
    sentinel = .notSwapped ∧ c.source = some expected.sourceOID ∨
      sentinel = .oldTableNotFound ∧ c.source = some expected.shadowOID ∧
        c.has expected.sourceOID = false := by
  simp only [readSwappedTable, bind_error] at read
  rcases read with failed | ⟨_, -, failed | ⟨liveOID, live, failed | ⟨oldOID, -, failed |
    ⟨_, -, failed | ⟨_, -, failed | ⟨identities, -, failed | ⟨_, -, failed⟩⟩⟩⟩⟩⟩⟩
  · exact absurd named (not_isError_refuseSwapInFlight own failed)
  · exact Or.inl (confirmLive_error own failed named)
  · obtain ⟨gone, absent⟩ := confirmOld_error own failed named
    exact Or.inr ⟨gone, (confirmLive_ok live).1, absent⟩
  · exact absurd named (not_isError_confirmOwner own failed)
  · exact absurd named (not_isError_answered own failed)
  · exact absurd named (not_isError_answer own failed)
  · exact absurd named (not_isError_confirmHandoff own failed)
  · cases failed

end Answers

end PgSprite.SchemaChange
