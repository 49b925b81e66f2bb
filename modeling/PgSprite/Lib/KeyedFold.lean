/-
**Folds that write one key at a time.**

A loop over a list writes, at each element, only what is read under that element's key. Then what is
read under a key no element has is what was read before the loop (`foldl_frame`), and under the key
of an element it is what that element's own step makes of it (`foldl_own`), whatever the order, as
long as no two elements share a key. A map a loop fills, one entry per element, is the common case
(`recordAll`).
-/

import Mathlib.Data.List.Nodup
import Mathlib.Logic.Function.Basic

namespace PgSprite.Lib

section KeyedFold

variable {S A K V : Type} {f : S → A → S} {key : A → K} {read : S → K → V} {todo : List A}

theorem foldl_frame (frame : ∀ s a k, key a ≠ k → read (f s a) k = read s k) {k : K}
    (outside : ∀ a ∈ todo, key a ≠ k) (s : S) : read (todo.foldl f s) k = read s k := by
  induction todo generalizing s with
  | nil => rfl
  | cons a todo ih =>
    rw [List.foldl_cons, ih fun a member => outside a (List.mem_cons_of_mem _ member)]
    exact frame s a k (outside a List.mem_cons_self)

/-- **Under an element's key the loop leaves what the element's own step makes of it.** -/
theorem foldl_own (frame : ∀ s a k, key a ≠ k → read (f s a) k = read s k) (g : A → V → V)
    (own : ∀ s a, read (f s a) (key a) = g a (read s (key a))) {a : A}
    (distinct : (todo.map key).Nodup) (member : a ∈ todo) (s : S) :
    read (todo.foldl f s) (key a) = g a (read s (key a)) := by
  induction todo generalizing s with
  | nil => cases member
  | cons head todo ih =>
    rw [List.map_cons, List.nodup_cons] at distinct
    rw [List.foldl_cons]
    rcases List.mem_cons.mp member with rfl | deeper
    · rw [foldl_frame frame]
      · exact own s a
      · exact fun other inside same => distinct.1 (same ▸ List.mem_map_of_mem inside)
    · rw [ih distinct.2 deeper, frame]
      exact fun same => distinct.1 (same ▸ List.mem_map_of_mem deeper)

end KeyedFold

section RecordAll

variable {A K V : Type} [DecidableEq K] (key : A → K) (value : A → V)

/-- The map with one element's entry written; a later entry overwrites. -/
def recordOne (map : K → Option V) (a : A) : K → Option V :=
  Function.update map (key a) (some (value a))

/-- The map a loop over the elements fills. -/
def recordAll (items : List A) : K → Option V := items.foldl (recordOne key value) fun _ => none

variable {key value} {items : List A}

theorem recordOne_of_ne (map : K → Option V) (a : A) (k : K) (other : key a ≠ k) :
    id (recordOne key value map a) k = id map k :=
  Function.update_of_ne (Ne.symm other) _ _

theorem recordOne_self (map : K → Option V) (a : A) :
    id (recordOne key value map a) (key a) = some (value a) := by
  simp [recordOne]

theorem recordAll_of_mem {a : A} (distinct : (items.map key).Nodup) (member : a ∈ items) :
    recordAll key value items (key a) = some (value a) :=
  foldl_own recordOne_of_ne (fun a _ => some (value a)) recordOne_self distinct member _

theorem recordAll_of_not_mem {k : K} (absent : ∀ a ∈ items, key a ≠ k) :
    recordAll key value items k = none :=
  foldl_frame recordOne_of_ne absent _

end RecordAll

end PgSprite.Lib
