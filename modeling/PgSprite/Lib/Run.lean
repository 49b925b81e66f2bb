/-
**Runs of a transition system whose steps can fail.**

`step s a` is the state action `a` leads to, or `none` where the action is not enabled.
`Reaches step meets start` are the states a run reaches by steps that all meet a condition on the
state before the step and the action; a run under no condition is one under `anyStep`.

* `Reaches.invariant` — what holds at the start and is kept by every step holds throughout;
* `reaches_of_run` — a list of actions that is enabled throughout is a run.
-/

import Mathlib.Data.List.Basic
import Mathlib.Tactic.Common

namespace PgSprite.Lib

variable {S A : Type} {step : S → A → Option S} {meets : S → A → Prop} {start s : S}

/-- The states a run reaches by steps that all meet the condition. -/
inductive Reaches (step : S → A → Option S) (meets : S → A → Prop) (start : S) : S → Prop
  | refl : Reaches step meets start start
  | step {s s' : S} {a : A} : Reaches step meets start s → meets s a → step s a = some s' →
      Reaches step meets start s'

/-- No condition on the steps. -/
def anyStep (_ : S) (_ : A) : Prop := True

/-- **What every step keeps holds throughout a run.** -/
theorem Reaches.invariant {P : S → Prop} (reaches : Reaches step meets start s) (initial : P start)
    (kept : ∀ s a s', P s → meets s a → step s a = some s' → P s') : P s := by
  induction reaches with
  | refl => exact initial
  | step _ met taken ih => exact kept _ _ _ ih met taken

/-- The state a list of actions leads to, checking the condition before each of them. -/
def run (step : S → A → Option S) (check : S → A → Bool) : S → List A → Option S
  | s, [] => some s
  | s, a :: rest => if check s a then (step s a).bind fun s' => run step check s' rest else none

/-- A list of actions that runs through is a run of the system. -/
theorem reaches_of_run {check : S → A → Bool} (sound : ∀ s a, check s a = true → meets s a)
    {actions : List A} {before after : S} (reached : Reaches step meets start before)
    (runs : run step check before actions = some after) : Reaches step meets start after := by
  induction actions generalizing before with
  | nil =>
    rw [run, Option.some.injEq] at runs
    exact runs ▸ reached
  | cons a rest ih =>
    rw [run] at runs
    split at runs
    next passes =>
      obtain ⟨next, taken, rest⟩ := Option.bind_eq_some_iff.mp runs
      exact ih (.step reached (sound _ _ passes) taken) rest
    next => cases runs

end PgSprite.Lib
