/-
**Which row is under a key.**

A row is named by where it came from: the key it had in the base table, or the change that inserted
it. An update carries its row's name along, to another key if it moves the row, so `History.who`
says under which key each row stands after any number of changes.

* `who_isSome_iff` — a key names a row exactly when it holds one;
* `who_injective` — no row stands under two keys.
-/

import PgSprite.Source.History

namespace PgSprite.Source

open Std PgSprite.Decode PgSprite.Lib

/-- A row of the base table, by the key it had there, or the row the `n`-th change inserted. -/
inductive RowId where
  | base (key : Key)
  | inserted (n : ℕ)
  deriving DecidableEq, Repr

/-- Which rows are under the keys after the `n`-th change. -/
def Change.carry (change : Change) (n : ℕ) (who : Key → Option RowId) (k : Key) : Option RowId :=
  match change with
  | insert key _ => if key = k then some (.inserted n) else who k
  | update key old _ _ => if key = k then who old else if old = k then none else who k
  | delete key => if key = k then none else who k

theorem Change.carry_of_untouched {change : Change} {n : ℕ} {who : Key → Option RowId} {k : Key}
    (untouched : change.touches k = false) : change.carry n who k = who k := by
  cases change with
  | insert key _ =>
    have apart : key ≠ k := by simpa [touches] using untouched
    rw [carry, if_neg apart]
  | update key old _ _ =>
    obtain ⟨offKey, offOld⟩ : key ≠ k ∧ old ≠ k := by simpa [touches] using untouched
    rw [carry, if_neg offKey, if_neg offOld]
  | delete key =>
    have apart : key ≠ k := by simpa [touches] using untouched
    rw [carry, if_neg apart]

/-- **Where a row under a key came from**: the change inserted it, updated it from the key it had,
or left it alone. -/
theorem Change.carry_cases {change : Change} {n : ℕ} {who : Key → Option RowId} {k : Key}
    {r : RowId} (named : change.carry n who k = some r) :
    (∃ row, change = .insert k row ∧ r = .inserted n) ∨
      (∃ old row omitted, change = .update k old row omitted ∧ who old = some r) ∨
      (change.touches k = false ∧ who k = some r) := by
  cases change with
  | insert key row =>
    rw [carry] at named
    split at named
    next same => exact Or.inl ⟨row, same ▸ rfl, (Option.some.inj named).symm⟩
    next apart => exact Or.inr (Or.inr ⟨by simp [touches, apart], named⟩)
  | update key old row omitted =>
    rw [carry] at named
    split at named
    next same => exact Or.inr (Or.inl ⟨old, row, omitted, same ▸ rfl, named⟩)
    next offKey =>
      split at named
      · cases named
      next offOld => exact Or.inr (Or.inr ⟨by simp [touches, offKey, offOld], named⟩)
  | delete key =>
    rw [carry] at named
    split at named
    · cases named
    next apart => exact Or.inr (Or.inr ⟨by simp [touches, apart], named⟩)

namespace History

/-- The row under `key` after the first `n` changes, by name. -/
def who (h : History) : ℕ → Key → Option RowId
  | 0, key => if h.base.contains key then some (.base key) else none
  | n + 1, key =>
    match h.log[n]? with
    | some c => c.change.carry n (h.who n) key
    | none => h.who n key

variable {h : History} {n : ℕ} {c : Committed} {key other : Key} {r : RowId}

theorem who_succ (here : h.log[n]? = some c) :
    h.who (n + 1) key = c.change.carry n (h.who n) key := by
  rw [who, here]

theorem who_succ_of_none (beyond : h.log[n]? = none) : h.who (n + 1) key = h.who n key := by
  rw [who, beyond]

theorem who_zero_eq_some : h.who 0 key = some r ↔ r = .base key ∧ h.base.contains key := by
  rw [who]
  by_cases held : h.base.contains key = true
  · rw [if_pos held, Option.some.injEq, eq_comm]
    exact ⟨fun same => ⟨same, held⟩, And.left⟩
  · rw [if_neg held]
    exact ⟨nofun, fun both => absurd both.2 held⟩

/-- **A key names a row exactly when it holds one.** -/
theorem who_isSome_iff (valid : h.Valid) (n : ℕ) (key : Key) :
    (h.who n key).isSome = (h.row n key).isSome := by
  induction n generalizing key with
  | zero =>
    rw [who, row, KeyedLog.rowAt_zero, rows, ExtTreeMap.contains_eq_isSome_getElem?]
    cases h.base[key]? <;> rfl
  | succ n ih =>
    cases here : h.log[n]? with
    | none =>
      have beyond := List.getElem?_eq_none_iff.mp here
      rw [who_succ_of_none here, ih, row, row, KeyedLog.rowAt_of_length_le beyond,
        KeyedLog.rowAt_of_length_le (beyond.trans (Nat.le_succ n))]
    | some c =>
      rw [who_succ here, row_succ here]
      have legal := valid n c here
      cases change : c.change with
      | insert k row =>
        rw [Change.carry, Change.effect]
        split
        · rfl
        · exact ih key
      | delete k =>
        rw [Change.carry, Change.effect]
        split
        · rfl
        · exact ih key
      | update k old row omitted =>
        rw [change] at legal
        obtain ⟨⟨before, present, -⟩, -⟩ := legal
        rw [Change.carry, Change.effect]
        split
        · rw [ih old, present]
          rfl
        · split
          · rfl
          · exact ih key

/-- A row is named after a change before it. -/
theorem lt_of_who_inserted {i : ℕ} (named : h.who n key = some (.inserted i)) : i < n := by
  induction n generalizing key with
  | zero =>
    rw [who_zero_eq_some] at named
    cases named.1
  | succ n ih =>
    cases here : h.log[n]? with
    | none =>
      rw [who_succ_of_none here] at named
      exact (ih named).trans (Nat.lt_succ_self n)
    | some c =>
      rw [who_succ here] at named
      rcases Change.carry_cases named with ⟨row, -, same⟩ | ⟨old, row, omitted, -, was⟩ | ⟨-, was⟩
      · rw [RowId.inserted.inj same]
        exact Nat.lt_succ_self n
      · exact (ih was).trans (Nat.lt_succ_self n)
      · exact (ih was).trans (Nat.lt_succ_self n)

/-- **No row stands under two keys.** -/
theorem who_injective (first : h.who n key = some r) (second : h.who n other = some r) :
    key = other := by
  induction n generalizing key other with
  | zero =>
    rw [who_zero_eq_some] at first second
    exact RowId.base.inj (first.1.symm.trans second.1)
  | succ n ih =>
    cases here : h.log[n]? with
    | none =>
      rw [who_succ_of_none here] at first second
      exact ih first second
    | some c =>
      rw [who_succ here] at first second
      rcases Change.carry_cases first with ⟨row, change, rfl⟩ | ⟨old, row, omitted, change, was⟩ |
        ⟨quiet, was⟩
      · -- the row this change inserted was nowhere before it
        rcases Change.carry_cases second with ⟨_, again, -⟩ | ⟨_, _, _, again, -⟩ | ⟨-, was'⟩
        · exact (Change.insert.inj (change.symm.trans again)).1
        · cases change.symm.trans again
        · exact absurd (lt_of_who_inserted was') (lt_irrefl n)
      · rcases Change.carry_cases second with ⟨_, again, -⟩ | ⟨_, _, _, again, -⟩ | ⟨quiet, was'⟩
        · cases change.symm.trans again
        · exact (Change.update.inj (change.symm.trans again)).1
        · obtain rfl := ih was was'
          simp [change, Change.touches] at quiet
      · rcases Change.carry_cases second with ⟨_, _, rfl⟩ | ⟨_, _, _, change, was'⟩ | ⟨-, was'⟩
        · exact absurd (lt_of_who_inserted was) (lt_irrefl n)
        · obtain rfl := ih was was'
          simp [change, Change.touches] at quiet
        · exact ih was was'

end History

end PgSprite.Source
