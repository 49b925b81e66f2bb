/-
**The first candidate that is free.**

A search through numbered candidates for one that is not taken. It is cut off after a number of
tries, and finds the first free candidate wherever there is one within them (`firstFree_spec`):
among distinct candidates there is one within as many tries as there are taken values
(`exists_free_of_injective`).
-/

import Mathlib.Data.List.Basic
import Mathlib.Data.Finset.Card
import Mathlib.Data.Finset.Image
import Mathlib.Tactic.Common

namespace PgSprite.Lib

variable {α : Type} [DecidableEq α] (candidate : Nat → α) (taken : List α)

/-- The first candidate from a number on that is not taken; the last one tried where all are. -/
def firstFree : Nat → Nat → α
  | 0, pass => candidate pass
  | tries + 1, pass =>
    if candidate pass ∈ taken then firstFree tries (pass + 1) else candidate pass

variable {candidate taken}

theorem firstFree_candidate (tries : Nat) :
    ∀ pass, ∃ i, firstFree candidate taken tries pass = candidate i := by
  induction tries with
  | zero => exact fun pass => ⟨pass, rfl⟩
  | succ tries ih =>
    intro pass
    rw [firstFree]
    split
    · exact ih (pass + 1)
    · exact ⟨pass, rfl⟩

/-- **The search ends at the first free candidate**, where one of those it tries is free. -/
theorem firstFree_spec {tries : Nat} :
    ∀ {pass : Nat}, (∃ i ≤ tries, candidate (pass + i) ∉ taken) →
      ∃ i ≤ tries, firstFree candidate taken tries pass = candidate (pass + i) ∧
        candidate (pass + i) ∉ taken ∧ ∀ j < i, candidate (pass + j) ∈ taken := by
  -- By induction on the tries left: a taken candidate leaves the free one among the rest.
  induction tries with
  | zero =>
    rintro pass ⟨i, within, free⟩
    obtain rfl : i = 0 := by omega
    exact ⟨0, Nat.le_refl 0, rfl, free, fun j before => absurd before (Nat.not_lt_zero j)⟩
  | succ tries ih =>
    rintro pass ⟨i, within, free⟩
    rw [firstFree]
    by_cases held : candidate pass ∈ taken
    · rw [if_pos held]
      have later : ∃ i ≤ tries, candidate (pass + 1 + i) ∉ taken := by
        cases i with
        | zero => exact absurd held free
        | succ i => exact ⟨i, by omega, by rwa [Nat.add_right_comm]⟩
      obtain ⟨k, inside, ends, unheld, before⟩ := ih later
      have shifted : pass + 1 + k = pass + (k + 1) := by omega
      rw [shifted] at ends unheld
      refine ⟨k + 1, by omega, ends, unheld, fun j earlier => ?_⟩
      cases j with
      | zero => exact held
      | succ j =>
        have shift : pass + 1 + j = pass + (j + 1) := by omega
        rw [← shift]
        exact before j (by omega)
    · rw [if_neg held]
      exact ⟨0, Nat.zero_le _, rfl, held, fun j before => absurd before (Nat.not_lt_zero j)⟩

/-- Of more numbers than there are taken values, with distinct candidates, one is free. -/
theorem exists_free_of_injOn {numbers : Finset Nat}
    (distinct : ∀ i ∈ numbers, ∀ j ∈ numbers, candidate i = candidate j → i = j)
    (more : taken.length < numbers.card) : ∃ i ∈ numbers, candidate i ∉ taken := by
  by_contra all
  have held : numbers.image candidate ⊆ taken.toFinset := by
    intro a among
    obtain ⟨i, member, rfl⟩ := Finset.mem_image.mp among
    rw [List.mem_toFinset]
    by_contra free
    exact all ⟨i, member, free⟩
  have below := Finset.card_le_card held
  rw [Finset.card_image_of_injOn (fun i hi j hj same => distinct i hi j hj same)] at below
  have := taken.toFinset_card_le
  omega

/-- Distinct candidates leave one free within as many tries as there are taken values. -/
theorem exists_free_of_injective (injective : Function.Injective candidate) (pass : Nat) :
    ∃ i ≤ taken.length, candidate (pass + i) ∉ taken := by
  have more : taken.length < (Finset.range (taken.length + 1)).card := by
    rw [Finset.card_range]
    omega
  have free : ∃ i ∈ Finset.range (taken.length + 1), candidate (pass + i) ∉ taken :=
    exists_free_of_injOn (fun i _ j _ same => Nat.add_left_cancel (injective same)) more
  obtain ⟨i, within, free⟩ := free
  rw [Finset.mem_range] at within
  exact ⟨i, by omega, free⟩

end PgSprite.Lib
