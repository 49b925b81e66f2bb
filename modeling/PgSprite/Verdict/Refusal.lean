/-
**Refusals.**

A refusal is a reason with the class a consumer routes it by, and with an owner exactly when the
work has no online-safety problem. Whether an operator may have the refused statement run all the
same, bounded and blocking, is decided from the refusal alone.
-/

import Mathlib.Tactic.Common

namespace PgSprite.Verdict

/-- Why a change was not executed. -/
inductive Reason where
  | unsupportedStatement
  | indexStatement
  | tableTooLarge
  | insufficientPrivileges
  | unsupportedPartitionedParent
  | budgetExceeded
  | rewriteRequired
  | backendUnavailable
  | destructiveChange
  | planFingerprintMismatch
  | createCollision
  | declarativeForeignKey
  | copyAndSwapRefused
  deriving DecidableEq, Repr

/-- How a consumer routes a refusal. -/
inductive Class where
  | capabilityBoundary
  | noOnlineSafetyProblem
  | byDesign
  | environmental
  | invariantViolation
  deriving DecidableEq, Repr

/-- Who owns work that has no online-safety problem. -/
inductive Owner where
  | dataChangeRunner
  | declarativeFrontDoor
  | directOperator
  | provisioning
  deriving DecidableEq, Repr

/-- What narrows a reason. -/
inductive Cause where
  | lockBudget
  | statementBudget
  | parentBlockingIndexBuild
  | parentConcurrentIndexBuild
  | parentIndexAdoption
  | parentNotValidForeignKey
  | copyAndSwapNotEnabled
  /-- A cause of the copy-and-swap route's own gates. -/
  | copyAndSwap (token : String)
  deriving DecidableEq, Repr

/-- Where a refusal was made, for a reason that spans shapes of statement. -/
inductive RefusalSite where
  | indexSingleRelation
  | indexOther
  deriving DecidableEq, Repr

/-- A classified refusal. A refusal that was never classified is the absence of one. -/
structure Refusal where
  refusalClass : Class
  reason : Reason
  owner : Option Owner := none
  cause : Option Cause := none
  site : Option RefusalSite := none
  owned : owner.isSome = true ↔ refusalClass = .noOnlineSafetyProblem := by decide
  deriving DecidableEq

namespace Refusal

def capabilityBoundary (reason : Reason) : Refusal :=
  { refusalClass := .capabilityBoundary, reason }

def noOnlineSafetyProblem (reason : Reason) (owner : Owner) : Refusal :=
  { refusalClass := .noOnlineSafetyProblem, reason, owner := some owner, owned := by simp }

def byDesign (reason : Reason) : Refusal :=
  { refusalClass := .byDesign, reason }

def environmental (reason : Reason) : Refusal :=
  { refusalClass := .environmental, reason }

def invariantViolation (reason : Reason) : Refusal :=
  { refusalClass := .invariantViolation, reason }

/-- The refusal narrowed by a cause. -/
def withCause (r : Refusal) (cause : Cause) : Refusal := { r with cause := some cause }

/-- The refusal narrowed by the place it was made. -/
def withSite (r : Refusal) (site : RefusalSite) : Refusal := { r with site := some site }

end Refusal

/-- Whether a refusal can be accepted, and whether that is decided for it at all. -/
def acceptedBlockingDecision (r : Refusal) : Bool × Bool :=
  match r.reason with
  | .indexStatement =>
    match r.site with
    | some .indexSingleRelation => (r.refusalClass = .byDesign, true)
    | some .indexOther | none => (false, true)
  | .unsupportedPartitionedParent =>
    match r.cause with
    | some .parentBlockingIndexBuild => (r.refusalClass = .capabilityBoundary, true)
    | some .parentConcurrentIndexBuild
    | some .parentIndexAdoption
    | some .parentNotValidForeignKey => (false, true)
    | _ => (false, false)
  | _ => (false, true)

/-- Whether an operator may have the refused statement run as it is. -/
def acceptedBlockingEligible (r : Refusal) : Bool :=
  let (eligible, decided) := acceptedBlockingDecision r
  decided && eligible

end PgSprite.Verdict
