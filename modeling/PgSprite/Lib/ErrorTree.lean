/-
**Errors that wrap errors.**

An error is a value together with the errors it wraps, in order. A caller asks whether a value with
some property is anywhere in it (`is`) and for the first value of a kind (`as`), both from the
outside in and from left to right.
-/

import Mathlib.Data.List.Basic
import Mathlib.Tactic.Common

namespace PgSprite.Lib

/-- An error: what it is, and what it wraps. -/
inductive ErrorTree (α : Type) where
  | node (value : α) (wrapped : List (ErrorTree α))

namespace ErrorTree

variable {α β γ : Type}

/-- An error that wraps nothing. -/
def leaf (a : α) : ErrorTree α := node a []

mutual

/-- The values of an error, outermost first. -/
def values : ErrorTree α → List α
  | node a wrapped => a :: valuesAll wrapped

/-- The values of errors, one error after the other. -/
def valuesAll : List (ErrorTree α) → List α
  | [] => []
  | e :: es => values e ++ valuesAll es

end

mutual

/-- The error with every value read as another. -/
def map (f : α → β) : ErrorTree α → ErrorTree β
  | node a wrapped => node (f a) (mapAll f wrapped)

/-- The errors with every value read as another. -/
def mapAll (f : α → β) : List (ErrorTree α) → List (ErrorTree β)
  | [] => []
  | e :: es => map f e :: mapAll f es

end

/-- Whether a value with the property is in the error. -/
def is (p : α → Bool) (e : ErrorTree α) : Bool := e.values.any p

/-- The first value of the kind in the error. -/
def as (f : α → Option β) (e : ErrorTree α) : Option β := e.values.findSome? f

@[simp] theorem valuesAll_nil : valuesAll ([] : List (ErrorTree α)) = [] := by
  rw [valuesAll]

@[simp] theorem valuesAll_cons {e : ErrorTree α} {es : List (ErrorTree α)} :
    valuesAll (e :: es) = e.values ++ valuesAll es := by
  rw [valuesAll]

@[simp] theorem values_node {a : α} {wrapped : List (ErrorTree α)} :
    (node a wrapped).values = a :: valuesAll wrapped := by
  rw [values]

@[simp] theorem values_leaf {a : α} : (leaf a).values = [a] := by
  rw [leaf, values_node, valuesAll_nil]

mutual

theorem values_map (f : α → β) : ∀ e : ErrorTree α, (e.map f).values = e.values.map f
  | node a wrapped => by
    rw [map, values_node, values_node, valuesAll_mapAll f wrapped, List.map_cons]

theorem valuesAll_mapAll (f : α → β) :
    ∀ es : List (ErrorTree α), valuesAll (mapAll f es) = (valuesAll es).map f
  | [] => by rw [mapAll, valuesAll_nil, valuesAll_nil, List.map_nil]
  | e :: es => by
    rw [mapAll, valuesAll_cons, valuesAll_cons, values_map f e, valuesAll_mapAll f es,
      List.map_append]

end

theorem is_map (f : α → β) (p : β → Bool) (e : ErrorTree α) :
    (e.map f).is p = e.is fun a => p (f a) := by
  rw [is, is, values_map, List.any_map]
  rfl

/-- Wrapping one error in a value that is not asked for changes no answer. -/
theorem is_wrap {p : α → Bool} {a : α} {e : ErrorTree α} (plain : p a = false) :
    (node a [e]).is p = e.is p := by
  simp [is, plain]

theorem as_wrap {f : α → Option β} {a : α} {e : ErrorTree α} (plain : f a = none) :
    (node a [e]).as f = e.as f := by
  simp [as, plain]

end ErrorTree

end PgSprite.Lib
