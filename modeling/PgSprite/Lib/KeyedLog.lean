/-
**A log of keyed changes, and the row a key holds at a position of it.**

A log is a list of changes; each change touches some keys and says what it makes of the row under
a key it touches. `rowAt base log n k` is the row under `k` once the first `n` changes are applied
to `base`.

A reader does not always see a whole prefix of the log: it sees the changes some predicate `seen`
admits. `exists_position_of_seen`: when the changes of one key are seen in log order, what the
reader finds under that key is the row at one position of the log, and that position is the first
unseen change of the key. The position is what the rest of the development carries around instead
of the reader's view.

A copy whose changes overwrite the rows they touch forgets what it held under a key at the first
change of the key. `rowAfter_above_of_touched`: a copy that has taken every change up to a position
and then takes the changes above it ends with the log's row under every key the log touches,
whatever it held at first.
-/

import Mathlib

namespace PgSprite.Lib

/-- What a change does to the row under each key. -/
structure KeyedLog (C K R : Type) where
  /-- The keys a change can move. -/
  touches : C → K → Prop
  /-- The row under a key after the change, from the row before it. -/
  effect : C → K → Option R → Option R
  untouched : ∀ change key row, ¬ touches change key → effect change key row = row

namespace KeyedLog

variable {C K R : Type} (sem : KeyedLog C K R) (base : K → Option R)

/-- The row under `key` once every change of `log` is applied. -/
def rowAfter (log : List C) (key : K) : Option R :=
  log.foldl (fun row change => sem.effect change key row) (base key)

/-- The row under `key` once the first `n` changes of `log` are applied. -/
def rowAt (log : List C) (n : ℕ) (key : K) : Option R :=
  sem.rowAfter base (log.take n) key

variable {sem base} {log more : List C} {key : K} {change : C} {n first last : ℕ}

theorem rowAfter_append :
    sem.rowAfter base (log ++ more) key = sem.rowAfter (sem.rowAfter base log) more key := by
  simp only [rowAfter, List.foldl_append]

@[simp]
theorem rowAfter_concat :
    sem.rowAfter base (log ++ [change]) key
      = sem.effect change key (sem.rowAfter base log key) := by
  simp only [rowAfter, List.foldl_append, List.foldl_cons, List.foldl_nil]

@[simp]
theorem rowAt_zero : sem.rowAt base log 0 key = base key := rfl

theorem rowAt_length : sem.rowAt base log log.length key = sem.rowAfter base log key := by
  rw [rowAt, List.take_length]

theorem rowAt_succ (here : log[n]? = some change) :
    sem.rowAt base log (n + 1) key = sem.effect change key (sem.rowAt base log n key) := by
  rw [rowAt, List.take_add_one, here, Option.toList_some, rowAfter_concat, rowAt]

theorem rowAt_append_of_le (within : n ≤ log.length) :
    sem.rowAt base (log ++ more) n key = sem.rowAt base log n key := by
  rw [rowAt, rowAt, List.take_append_of_le_length within]

theorem rowAt_of_length_le (beyond : log.length ≤ n) :
    sem.rowAt base log n key = sem.rowAt base log log.length key := by
  rw [rowAt, rowAt, List.take_of_length_le beyond, List.take_length]

theorem rowAt_succ_of_untouched
    (untouched : ∀ change, log[n]? = some change → ¬ sem.touches change key) :
    sem.rowAt base log (n + 1) key = sem.rowAt base log n key := by
  cases here : log[n]? with
  | none =>
    have beyond := List.getElem?_eq_none_iff.mp here
    rw [rowAt_of_length_le beyond, rowAt_of_length_le (Nat.le_succ_of_le beyond)]
  | some change =>
    rw [rowAt_succ here, sem.untouched _ _ _ (untouched change here)]

/-- **A key's row moves only at the changes that touch it.** -/
theorem rowAt_eq_of_untouched (ordered : first ≤ last)
    (untouched : ∀ i, first ≤ i → i < last → ∀ change, log[i]? = some change →
      ¬ sem.touches change key) :
    sem.rowAt base log last key = sem.rowAt base log first key := by
  induction last, ordered using Nat.le_induction with
  | base => rfl
  | succ last ordered ih =>
    rw [rowAt_succ_of_untouched (untouched last ordered (Nat.lt_succ_self last))]
    exact ih fun i low high => untouched i low (Nat.lt_succ_of_lt high)

theorem rowAfter_of_untouched (untouched : ∀ change ∈ log, ¬ sem.touches change key) :
    sem.rowAfter base log key = base key := by
  induction log using List.reverseRecOn with
  | nil => rfl
  | append_singleton log change ih =>
    rw [rowAfter_concat, sem.untouched _ _ _
      (untouched change (List.mem_append_right _ (List.mem_singleton_self _)))]
    exact ih fun c member => untouched c (List.mem_append_left _ member)

/-! ### Changes that overwrite what they touch -/

/-- A change leaves under a key it touches a row that does not depend on the row before it. -/
def Overwrites (sem : KeyedLog C K R) : Prop :=
  ∀ change key before other, sem.touches change key →
    sem.effect change key before = sem.effect change key other

section Overwrites

variable {initial : K → Option R} {P : Type} [LinearOrder P] {position : C → P} {p : P}

/-- Under a key the log touches, the row at the end does not depend on the rows it started from. -/
theorem rowAfter_congr_of_touched (overwrites : sem.Overwrites)
    (touched : ∃ change ∈ log, sem.touches change key) :
    sem.rowAfter initial log key = sem.rowAfter base log key := by
  induction log using List.reverseRecOn with
  | nil =>
    obtain ⟨change, member, -⟩ := touched
    cases member
  | append_singleton log last ih =>
    rw [rowAfter_concat, rowAfter_concat]
    by_cases touches : sem.touches last key
    · exact overwrites last key _ _ touches
    · obtain ⟨change, member, here⟩ := touched
      rcases List.mem_append.mp member with early | late
      · rw [ih ⟨change, early, here⟩]
      · rw [List.mem_singleton.mp late] at here
        exact absurd here touches

/-- A log in the order of its positions is its changes up to one of them and then the rest. -/
theorem filter_append_filter (ordered : log.Pairwise fun a b => position a ≤ position b) (p : P) :
    log.filter (fun c => position c ≤ p) ++ log.filter (fun c => p < position c) = log := by
  induction log with
  | nil => rfl
  | cons c log ih =>
    obtain ⟨first, rest⟩ := List.pairwise_cons.mp ordered
    by_cases low : position c ≤ p
    · rw [List.filter_cons_of_pos (by simpa using low),
        List.filter_cons_of_neg (by simpa using low),
        List.cons_append, ih rest]
    · have high : ∀ d ∈ log, p < position d := fun d member =>
        lt_of_lt_of_le (not_le.mp low) (first d member)
      rw [List.filter_cons_of_neg (by simpa using low),
        List.filter_cons_of_pos (by simpa using low),
        List.filter_eq_nil_iff.mpr fun d member => by simpa using high d member,
        List.filter_eq_self.mpr fun d member => by simpa using high d member, List.nil_append]

/-- **A copy that has taken every change up to a position and takes the changes above it ends with
the log's row under every key the log touches.** -/
theorem rowAfter_above_of_touched (overwrites : sem.Overwrites)
    (ordered : log.Pairwise fun a b => position a ≤ position b)
    (taken : ∀ i change, log[i]? = some change → position change ≤ p → i < n)
    (touched : ∃ change ∈ log, sem.touches change key) :
    sem.rowAfter (sem.rowAt initial log n) (log.filter fun c => p < position c) key
      = sem.rowAfter base log key := by
  by_cases above : ∃ change ∈ log.filter (fun c => p < position c), sem.touches change key
  · calc sem.rowAfter (sem.rowAt initial log n) (log.filter fun c => p < position c) key
        = sem.rowAfter (sem.rowAfter base (log.filter fun c => position c ≤ p))
            (log.filter fun c => p < position c) key := rowAfter_congr_of_touched overwrites above
      _ = sem.rowAfter base log key := by rw [← rowAfter_append, filter_append_filter ordered]
  · -- the key's last change is at or below the position, so the copy has taken all of them
    have below : ∀ i change, log[i]? = some change → sem.touches change key → i < n := by
      intro i change here touches
      refine taken i change here (not_lt.mp fun high => above ⟨change, ?_, touches⟩)
      exact List.mem_filter.mpr ⟨List.mem_of_getElem? here, decide_eq_true high⟩
    have within : ∃ change ∈ log.take n, sem.touches change key := by
      obtain ⟨change, member, touches⟩ := touched
      obtain ⟨i, here⟩ := List.mem_iff_getElem?.mp member
      exact ⟨change, List.mem_iff_getElem?.mpr
        ⟨i, by rw [List.getElem?_take_of_lt (below i change here touches), here]⟩, touches⟩
    have rest : sem.rowAt base log n key = sem.rowAfter base log key := by
      rw [← rowAt_length]
      rcases le_total n log.length with short | beyond
      · refine (rowAt_eq_of_untouched short fun i low _ change here touches => ?_).symm
        exact absurd (below i change here touches) (not_lt.mpr low)
      · exact rowAt_of_length_le beyond
    rw [rowAfter_of_untouched fun change member touches => above ⟨change, member, touches⟩, ← rest]
    exact rowAfter_congr_of_touched overwrites within

end Overwrites

/-! ### What a reader sees -/

section Seen

variable (seen : C → Bool)

/-- A reader that has seen every change of a key reads its last row. -/
theorem rowAfter_filter_of_seen
    (all : ∀ change ∈ log, sem.touches change key → seen change = true) :
    sem.rowAfter base (log.filter seen) key = sem.rowAfter base log key := by
  induction log using List.reverseRecOn with
  | nil => rfl
  | append_singleton log change ih =>
    have before := ih fun c member => all c (List.mem_append_left _ member)
    rw [List.filter_append, rowAfter_concat]
    by_cases visible : seen change = true
    · rw [List.filter_cons_of_pos visible, List.filter_nil, rowAfter_concat, before]
    · have untouched : ¬ sem.touches change key := fun touches =>
        visible (all change (List.mem_append_right _ (List.mem_singleton_self _)) touches)
      rw [List.filter_cons_of_neg visible, List.filter_nil, List.append_nil, before,
        sem.untouched _ _ _ untouched]

theorem rowAfter_filter_of_unseen
    (all : ∀ change ∈ log, sem.touches change key → seen change = false) :
    sem.rowAfter base (log.filter seen) key = base key := by
  refine rowAfter_of_untouched fun change member touches => ?_
  obtain ⟨among, visible⟩ := List.mem_filter.mp member
  rw [all change among touches] at visible
  cases visible

/-- The changes of `key` are seen in log order: none is seen before one that precedes it. -/
def SeenInOrder (sem : KeyedLog C K R) (log : List C) (key : K) : Prop :=
  ∀ (i j : ℕ) (earlier later : C), i < j → log[i]? = some earlier → log[j]? = some later →
    sem.touches earlier key → sem.touches later key → seen later = true → seen earlier = true

/-- `position` is the first change of `key` that is not seen, or the end of the log. -/
structure FirstUnseen (sem : KeyedLog C K R) (log : List C) (key : K) (position : ℕ) : Prop where
  within : position ≤ log.length
  below : ∀ i change, i < position → log[i]? = some change → sem.touches change key →
    seen change = true
  stop : position = log.length ∨
    ∃ change, log[position]? = some change ∧ sem.touches change key ∧ seen change = false

variable {seen}

/-- A position is past every prefix of the log whose changes of the key are all seen. -/
theorem FirstUnseen.le_of_seen {position : ℕ} (unseen : FirstUnseen seen sem log key position)
    (within : n ≤ log.length)
    (all : ∀ i change, i < n → log[i]? = some change → sem.touches change key →
      seen change = true) : n ≤ position := by
  rcases unseen.stop with atEnd | ⟨change, here, touches, hidden⟩
  · rw [atEnd]
    exact within
  · by_contra short
    have visible := all position change (Nat.lt_of_not_le short) here touches
    rw [hidden] at visible
    exact Bool.false_ne_true visible

variable (seen)

/-- A log has a first change of a key that a reader has not seen, or its end. -/
theorem exists_firstUnseen (sem : KeyedLog C K R) (log : List C) (key : K) :
    ∃ position, FirstUnseen seen sem log key position := by
  classical
  let stops : ℕ → Prop := fun i =>
    i = log.length ∨ ∃ change, log[i]? = some change ∧ sem.touches change key ∧ seen change = false
  have some_stop : ∃ i, stops i := ⟨log.length, Or.inl rfl⟩
  refine ⟨Nat.find some_stop, Nat.find_min' some_stop (Or.inl rfl), ?_, Nat.find_spec some_stop⟩
  intro i change low here touches
  by_contra hidden
  rw [Bool.not_eq_true] at hidden
  exact Nat.find_min some_stop low (Or.inr ⟨change, here, touches, hidden⟩)

/-- **What a reader finds under a key is the row at one position of the log.** -/
theorem exists_position_of_seen (ordered : SeenInOrder seen sem log key) :
    ∃ position, FirstUnseen seen sem log key position ∧
      sem.rowAfter base (log.filter seen) key = sem.rowAt base log position key := by
  obtain ⟨position, unseen⟩ := exists_firstUnseen seen sem log key
  refine ⟨position, unseen, ?_⟩
  have low : ∀ change ∈ log.take position, sem.touches change key → seen change = true := by
    intro change member touches
    obtain ⟨i, bound, here⟩ := List.getElem_of_mem member
    rw [List.length_take] at bound
    rw [List.getElem_take] at here
    exact unseen.below i change (lt_of_lt_of_le bound (min_le_left _ _))
      (List.getElem?_eq_some_iff.mpr ⟨lt_of_lt_of_le bound (min_le_right _ _), here⟩) touches
  have high : ∀ change ∈ log.drop position, sem.touches change key → seen change = false := by
    intro change member touches
    obtain ⟨i, bound, here⟩ := List.getElem_of_mem member
    rw [List.getElem_drop] at here
    rw [List.length_drop] at bound
    have there : log[position + i]? = some change :=
      List.getElem?_eq_some_iff.mpr ⟨by omega, here⟩
    rcases unseen.stop with atEnd | ⟨stop, atStop, stopTouches, hidden⟩
    · omega
    · by_contra visible
      rw [Bool.not_eq_false] at visible
      rcases Nat.eq_zero_or_pos i with zero | positive
      · subst zero
        rw [Nat.add_zero, atStop, Option.some.injEq] at there
        rw [there, visible] at hidden
        exact Bool.noConfusion hidden
      · have earlier := ordered position (position + i) stop change (by omega) atStop there
          stopTouches touches visible
        rw [hidden] at earlier
        exact Bool.noConfusion earlier
  calc sem.rowAfter base (log.filter seen) key
      = sem.rowAfter base ((log.take position).filter seen ++ (log.drop position).filter seen)
          key := by rw [← List.filter_append, List.take_append_drop]
    _ = sem.rowAfter base ((log.take position).filter seen) key := by
        rw [rowAfter_append, rowAfter_filter_of_unseen seen high]
    _ = sem.rowAt base log position key := by rw [rowAfter_filter_of_seen seen low, rowAt]

end Seen

end KeyedLog

end PgSprite.Lib
