/-
**Consecutive ranges of the key space.**

`Consecutive start ranges` says that the first range starts at the first key above `start` and each
later one at the first key above the range before it; `top start ranges` is the frontier they leave.

* `Consecutive.countP_covers` — they cover each key above `start`, through that frontier, exactly
  once, and no other key;
* `Consecutive.apart` — no two of them share a key;
* `Consecutive.toInt_lower` — no bound of theirs wraps around.
-/

import PgSprite.Copier.Ledger

namespace PgSprite.Copier

open PgSprite.Decode

/-- The frontier a list of ranges leaves. -/
def top (start : Watermark) (ranges : List Chunk) : Watermark :=
  ranges.foldl (fun _ range => some range.upper) start

/-- Each range starts at the first key above the frontier that the ones before it leave. -/
def Consecutive (start : Watermark) : List Chunk → Prop
  | [] => True
  | range :: rest => startAfter start = (range.lower, false) ∧ Consecutive (some range.upper) rest

section Starts

variable {start : Watermark} {range : Chunk} {key : Key}

/-- The top of a range that starts after another covers both. -/
theorem reaches_upper (starts : startAfter start = (range.lower, false)) (key : Key) :
    Watermark.reaches (some range.upper) key = (start.reaches key || range.covers key) := by
  have ordered := range.ordered
  have above : start.reaches key = false ↔ range.lower ≤ key := unreached_iff starts
  rw [Bool.eq_iff_iff, Bool.or_eq_true, Chunk.covers_iff,
    show Watermark.reaches (some range.upper) key = decide (key ≤ range.upper) from rfl,
    decide_eq_true_eq]
  cases reached : start.reaches key with
  | true =>
    have below : ¬ range.lower ≤ key := fun high => by
      rw [above.mpr high] at reached
      cases reached
    exact ⟨fun _ => .inl rfl, fun _ => by grind⟩
  | false =>
    have high := above.mp reached
    exact ⟨fun within => .inr ⟨high, within⟩, fun within => (within.resolve_left nofun).2⟩

theorem toInt_succ {value : Key} (room : value ≠ Int64.maxValue) :
    (value + 1).toInt = value.toInt + 1 := by
  have strict : value.toInt ≠ 2 ^ 63 - 1 := fun full =>
    room (Int64.toInt_inj.mp (full.trans (by decide)))
  have upper := Int64.toInt_lt value
  have lower := Int64.le_toInt value
  rw [Int64.toInt_add, Int.bmod_eq_of_le] <;> simp <;> omega

theorem startAfter_some {value lower : Key} :
    startAfter (some value) = (lower, false) ↔ value ≠ Int64.maxValue ∧ lower = value + 1 := by
  by_cases full : value = Int64.maxValue
  · simp [startAfter, Watermark.complete, full]
  · simp only [startAfter, Watermark.complete, Option.some.injEq, full, decide_false,
      Bool.false_eq_true, if_false, Prod.mk.injEq, and_true, ne_eq, not_false_iff, true_and]
    exact eq_comm

/-- The bound of a range just above a frontier is one past it, without wrapping around. -/
theorem toInt_of_starts {value : Key} (starts : startAfter (some value) = (range.lower, false)) :
    range.lower.toInt = value.toInt + 1 := by
  obtain ⟨room, next⟩ := startAfter_some.mp starts
  rw [next, toInt_succ room]

end Starts

section Ranges

variable {start : Watermark} {ranges more : List Chunk} {range : Chunk} {key : Key}

@[simp]
theorem top_nil : top start [] = start := rfl

@[simp]
theorem top_cons : top start (range :: ranges) = top (some range.upper) ranges := rfl

@[simp]
theorem top_append : top start (ranges ++ more) = top (top start ranges) more :=
  List.foldl_append

theorem consecutive_append : Consecutive start (ranges ++ more) ↔
    Consecutive start ranges ∧ Consecutive (top start ranges) more := by
  induction ranges generalizing start with
  | nil => simp [Consecutive]
  | cons range ranges ih => simp [Consecutive, ih, and_assoc]

theorem consecutive_concat : Consecutive start (ranges ++ [range]) ↔
    Consecutive start ranges ∧ startAfter (top start ranges) = (range.lower, false) := by
  rw [consecutive_append]
  simp [Consecutive]

namespace Consecutive

variable (consecutive : Consecutive start ranges)

include consecutive

theorem reaches_top (key : Key) :
    (top start ranges).reaches key = (start.reaches key || ranges.any (·.covers key)) := by
  induction ranges generalizing start with
  | nil => simp
  | cons range ranges ih =>
    rw [top_cons, ih consecutive.2, reaches_upper consecutive.1, List.any_cons, Bool.or_assoc]

theorem unreached (member : range ∈ ranges) (covers : range.covers key = true) :
    start.reaches key = false := by
  induction ranges generalizing start with
  | nil => cases member
  | cons first ranges ih =>
    obtain ⟨starts, rest⟩ := consecutive
    rcases List.mem_cons.mp member with rfl | later
    · exact (unreached_iff starts).mpr (Chunk.covers_iff.mp covers).1
    · have beyond := ih rest later
      rw [reaches_upper starts, Bool.or_eq_false_iff] at beyond
      exact beyond.1

/-- **Each key above the start, through the frontier, lies in exactly one range**, and no other key
lies in one. -/
theorem countP_covers (key : Key) :
    ranges.countP (·.covers key)
      = if (top start ranges).reaches key && !start.reaches key then 1 else 0 := by
  induction ranges generalizing start with
  | nil => cases reached : start.reaches key <;> simp [reached]
  | cons range ranges ih =>
    obtain ⟨starts, rest⟩ := consecutive
    rw [List.countP_cons, ih rest, top_cons, rest.reaches_top, reaches_upper starts]
    cases covers : range.covers key with
    | false => cases start.reaches key <;> simp
    | true =>
      have above := (unreached_iff starts).mpr (Chunk.covers_iff.mp covers).1
      simp [above]

theorem apart : ranges.Pairwise Ledger.Apart := by
  induction ranges generalizing start with
  | nil => exact .nil
  | cons range ranges ih =>
    obtain ⟨-, rest⟩ := consecutive
    refine .cons (fun other later => .inl ?_) (ih rest)
    have beyond := rest.unreached later (Chunk.covers_iff.mpr ⟨Int64.le_refl _, other.ordered⟩)
    simpa [Watermark.reaches] using beyond

/-- **No bound wraps around**: each range starts one past the one before it. -/
theorem toInt_lower : ranges.IsChain fun a b => b.lower.toInt = a.upper.toInt + 1 := by
  induction ranges generalizing start with
  | nil => exact .nil
  | cons range ranges ih =>
    obtain ⟨-, rest⟩ := consecutive
    cases ranges with
    | nil => exact .singleton _
    | cons second ranges => exact .cons_cons (toInt_of_starts rest.1) (ih rest)

end Consecutive

end Ranges

theorem Ledger.startsAtFrontier_iff {l : Ledger} {chunk : Chunk} :
    l.startsAtFrontier chunk = true ↔ startAfter l.cut = (chunk.lower, false) := by
  cases cut : l.cut with
  | none =>
    simp only [startsAtFrontier, cut, startAfter, beq_iff_eq, Prod.mk.injEq, and_true]
    exact eq_comm
  | some value => rw [startsAtFrontier_some cut, startAfter_some]

end PgSprite.Copier
