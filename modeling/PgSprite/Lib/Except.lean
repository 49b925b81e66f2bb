/-
**Loops that can fail.**

`foldlM` over `Except` stops at the first error. The two lemmas below take one step of such a loop
apart, for a loop that ended well and for one that ended in an error; the invariant rule carries a
property of the state through a loop that ended well.
-/

import Mathlib.Data.List.Basic
import Mathlib.Tactic.Common

namespace PgSprite.Lib

variable {ε σ α β : Type} {step : σ → α → Except ε σ} {a : α} {todo : List α} {s final : σ}
  {err : ε}

theorem foldlM_cons_ok :
    (a :: todo).foldlM step s = .ok final ↔
      ∃ next, step s a = .ok next ∧ todo.foldlM step next = .ok final := by
  rw [List.foldlM_cons]
  cases step s a with
  | error err => simp [bind, Except.bind]
  | ok next => simp [bind, Except.bind]

theorem foldlM_cons_error :
    (a :: todo).foldlM step s = .error err ↔
      step s a = .error err ∨ ∃ next, step s a = .ok next ∧ todo.foldlM step next = .error err := by
  rw [List.foldlM_cons]
  cases step s a with
  | error err => simp [bind, Except.bind]
  | ok next => simp [bind, Except.bind]

/-- A property every successful step keeps holds when the loop ends. -/
theorem foldlM_invariant {property : σ → Prop}
    (keeps : ∀ s a next, a ∈ todo → property s → step s a = .ok next → property next)
    (start : property s) (ends : todo.foldlM step s = .ok final) : property final := by
  induction todo generalizing s with
  | nil =>
    cases ends
    exact start
  | cons a todo ih =>
    obtain ⟨next, first, rest⟩ := foldlM_cons_ok.mp ends
    exact ih (fun s b next member => keeps s b next (List.mem_cons_of_mem _ member))
      (keeps s a next List.mem_cons_self start first) rest

theorem foldlM_error (failed : todo.foldlM step s = .error err) :
    ∃ s', ∃ a ∈ todo, step s' a = .error err := by
  induction todo generalizing s with
  | nil => cases failed
  | cons a todo ih =>
    rcases foldlM_cons_error.mp failed with here | ⟨next, -, rest⟩
    · exact ⟨s, a, List.mem_cons_self, here⟩
    · obtain ⟨s', b, member, later⟩ := ih rest
      exact ⟨s', b, List.mem_cons_of_mem _ member, later⟩

theorem foldlM_step (ends : todo.foldlM step s = .ok final) (member : a ∈ todo) :
    ∃ before after, step before a = .ok after := by
  induction todo generalizing s with
  | nil => cases member
  | cons head todo ih =>
    obtain ⟨next, first, rest⟩ := foldlM_cons_ok.mp ends
    rcases List.mem_cons.mp member with rfl | deeper
    · exact ⟨s, next, first⟩
    · exact ih rest deeper

theorem bind_ok {x : Except ε α} {g : α → Except ε β} {b : β} :
    (x >>= g) = .ok b ↔ ∃ a, x = .ok a ∧ g a = .ok b := by
  cases x <;> simp [bind, Except.bind]

theorem bind_error {x : Except ε α} {g : α → Except ε β} :
    (x >>= g) = .error err ↔ x = .error err ∨ ∃ a, x = .ok a ∧ g a = .error err := by
  cases x <;> simp [bind, Except.bind]

theorem map_ok {x : Except ε α} {g : α → β} {b : β} :
    x.map g = .ok b ↔ ∃ a, x = .ok a ∧ g a = b := by
  cases x <;> simp [Except.map]

theorem map_error {x : Except ε α} {g : α → β} : x.map g = .error err ↔ x = .error err := by
  cases x <;> simp [Except.map]

theorem toOption_map_eq_some {x : Except ε α} {g : α → β} {b : β} :
    x.toOption.map g = some b ↔ ∃ a, x = .ok a ∧ g a = b := by
  cases x <;> simp [Except.toOption]

/-- A traversal that succeeds maps each element. -/
theorem mapM_ok {g : α → Except ε β} {bs : List β} (mapped : todo.mapM g = .ok bs) :
    List.Forall₂ (fun a b => g a = .ok b) todo bs := by
  induction todo generalizing bs with
  | nil =>
    cases mapped
    exact List.Forall₂.nil
  | cons a todo ih =>
    rw [List.mapM_cons] at mapped
    cases first : g a with
    | error err => simp [first, bind, Except.bind] at mapped
    | ok b =>
      cases rest : todo.mapM g with
      | error err => simp [first, rest, bind, Except.bind] at mapped
      | ok tail =>
        simp only [first, rest, bind, Except.bind, pure, Except.pure, Except.ok.injEq] at mapped
        rw [← mapped]
        exact List.Forall₂.cons first (ih rest)

/-- Each entry of one of two related lists is related to an entry of the other. -/
theorem forall₂_exists {related : α → β → Prop} {bs : List β}
    (lists : List.Forall₂ related todo bs) (member : a ∈ todo) : ∃ b ∈ bs, related a b := by
  induction lists with
  | nil => cases member
  | @cons head b todo bs first _ ih =>
    rcases List.mem_cons.mp member with rfl | deeper
    · exact ⟨b, List.mem_cons_self, first⟩
    · obtain ⟨c, inside, here⟩ := ih deeper
      exact ⟨c, List.mem_cons_of_mem _ inside, here⟩

/-- A traversal fails at one of its elements. -/
theorem mapM_error {g : α → Except ε β} (failed : todo.mapM g = .error err) :
    ∃ a ∈ todo, g a = .error err := by
  induction todo with
  | nil => cases failed
  | cons a todo ih =>
    rw [List.mapM_cons] at failed
    cases first : g a with
    | error other =>
      simp only [first, bind, Except.bind, Except.error.injEq] at failed
      exact ⟨a, List.mem_cons_self, by rw [first, failed]⟩
    | ok b =>
      cases rest : todo.mapM g with
      | error other =>
        simp only [first, rest, bind, Except.bind, Except.error.injEq] at failed
        obtain ⟨c, member, here⟩ := ih (by rw [rest, failed])
        exact ⟨c, List.mem_cons_of_mem _ member, here⟩
      | ok tail => simp [first, rest, bind, Except.bind, pure, Except.pure] at failed

end PgSprite.Lib
