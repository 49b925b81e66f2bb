/-
**The checkpoint: a run's progress as the row of its target records it.**

A checkpoint names the phase a run is in, how far its copy and its stream have come, and the shadow
and statement the run is for. `parsePhase_string`: a phase that can be saved is read back from its
name.
-/

import PgSprite.Copier.Position
import PgSprite.Lib.Json

set_option linter.dupNamespace false

namespace PgSprite.Checkpoint

open PgSprite.Decode PgSprite.Copier PgSprite.Lib

/-- The phases of a run; a value outside the known ones is no phase of this engine. -/
inductive Phase where
  | copying
  | catchingUp
  | reconciling
  | verifying
  | cutover
  | done
  | failed
  | unknown (value : UInt8)
  deriving DecidableEq, Repr

namespace Phase

/-- The phase's name. -/
def string : Phase → String
  | copying => "copying"
  | catchingUp => "catching_up"
  | reconciling => "reconciling"
  | verifying => "verifying"
  | cutover => "cutover"
  | done => "done"
  | failed => "failed"
  | unknown value => "Phase(" ++ toString value ++ ")"

/-- The phases this engine knows, in order. -/
def known : List Phase := [copying, catchingUp, reconciling, verifying, cutover, done, failed]

end Phase

/-- The phase of a name. -/
def parsePhase (name : String) : Option Phase := Phase.known.find? fun p => p.string = name

/-- The names of the known phases. -/
def knownPhases : List String := Phase.known.map Phase.string

theorem mem_knownPhases {name : String} : name ∈ knownPhases ↔ parsePhase name ≠ none := by
  simp [knownPhases, parsePhase, List.find?_eq_none]

theorem parsePhase_unknown (value : UInt8) : parsePhase (Phase.unknown value).string = none := by
  have capital : (Phase.unknown value).string.toList.head? = some 'P' := by
    simp [Phase.string, String.toList_append]
  refine List.find?_eq_none.mpr fun p member same => ?_
  rw [decide_eq_true_eq] at same
  rw [← same] at capital
  simp only [Phase.known, List.mem_cons, List.not_mem_nil, or_false] at member
  rcases member with rfl | rfl | rfl | rfl | rfl | rfl | rfl <;> exact absurd capital (by decide)

/-- **A phase whose name is known is the phase of its name.** -/
theorem parsePhase_string {p q : Phase} (parsed : parsePhase p.string = some q) : q = p := by
  cases p with
  | unknown value =>
    rw [parsePhase_unknown] at parsed
    cases parsed
  | _ =>
    rw [← Option.some.injEq, ← parsed]
    decide

/-- The text of a shadow proof: none, one that is not JSON, or a document. -/
inductive ProofText where
  | empty
  | malformed
  | document (doc : Json)

/-- The two fingerprints a row is keyed on. -/
structure Fingerprints where
  source : String
  target : String
  deriving DecidableEq, Repr

/-- What a row is for: its format and its fingerprints. -/
structure Identity where
  formatVersion : Int32
  fingerprints : Fingerprints
  deriving DecidableEq, Repr

/-- The row format this engine writes and accepts. -/
def formatVersion : Int32 := 3

/-- A run's record of its progress. -/
structure Checkpoint where
  schema : Name
  table : Name
  shadowTable : Name
  slotName : Name
  publicationName : Name
  watermark : Watermark
  lastAppliedLSN : LSN
  sourceFingerprint : String
  targetFingerprint : String
  phase : Phase
  /-- In microseconds, the server's resolution. -/
  updatedAt : ℕ
  shadowProof : ProofText
  statement : String

namespace Checkpoint

/-- The checkpoint's fingerprints. -/
def fingerprints (c : Checkpoint) : Fingerprints := ⟨c.sourceFingerprint, c.targetFingerprint⟩

/-- The identity of the row the checkpoint is saved in. -/
def identity (c : Checkpoint) : Identity := ⟨formatVersion, c.fingerprints⟩

end Checkpoint

/-- Why a checkpoint is not one to save. -/
inductive InvalidCheckpoint where
  | emptyField (name : String)
  | unknownPhase (name : String)
  | proofNotJson
  | proofNotObject
  | proofNul
  deriving DecidableEq, Repr

/-- A proof is a JSON object with no NUL character in any string, or absent. -/
def validateShadowProof : ProofText → Option InvalidCheckpoint
  | .empty => none
  | .malformed => some .proofNotJson
  | .document doc =>
    if !doc.isObject then some .proofNotObject
    else if doc.anyString fun text => text.toList.contains '\x00' then some .proofNul
    else none

/-- The first thing wrong with a checkpoint. -/
def Checkpoint.validate (c : Checkpoint) : Option InvalidCheckpoint :=
  match [("schema", c.schema), ("table", c.table), ("shadow table", c.shadowTable),
      ("source fingerprint", c.sourceFingerprint),
      ("target fingerprint", c.targetFingerprint)].find?
      fun field => field.2 = "" with
  | some field => some (.emptyField field.1)
  | none =>
    match parsePhase c.phase.string with
    | none => some (.unknownPhase c.phase.string)
    | some _ => validateShadowProof c.shadowProof

theorem Checkpoint.validate_phase {c : Checkpoint} (valid : c.validate = none) :
    parsePhase c.phase.string = some c.phase := by
  unfold validate at valid
  split at valid
  · cases valid
  · split at valid
    · cases valid
    next parsed => rw [parsed, parsePhase_string parsed]

end PgSprite.Checkpoint
