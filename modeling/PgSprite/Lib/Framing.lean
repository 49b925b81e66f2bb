/-
**Fields and records told apart by marks.**

Texts are written one after another, each followed by a mark. They can be told apart if a machine
that reads a text from its first state is back in that state at its end, and takes no mark on the
way for one that ends the text (`Closed`). Then a sequence of records of fields is determined by
what is written (`records_inj`), however long the fields are and however many a record has.
-/

import Mathlib.Data.List.Basic
import Mathlib.Tactic.Common

namespace PgSprite.Lib

section Machine

variable {α σ : Type} (step : σ → α → σ) (ends : σ → α → Prop)

/-- A text that takes a machine from one state to another, with no mark that would end it. -/
structure Reads (s t : σ) (text : List α) : Prop where
  arrives : text.foldl step s = t
  unended : ∀ before a after, text = before ++ a :: after → ¬ ends (before.foldl step s) a

/-- A text that takes a machine back to the state it started in. -/
abbrev Closed (start : σ) (text : List α) : Prop := Reads step ends start start text

variable {step ends} {start s t u : σ}

theorem Reads.nil : Reads step ends s s [] :=
  ⟨rfl, fun before a after split => absurd split.symm (by simp)⟩

theorem Reads.cons {a : α} {text : List α} (here : ¬ ends s a)
    (rest : Reads step ends (step s a) t text) : Reads step ends s t (a :: text) := by
  refine ⟨rest.arrives, fun before b after split => ?_⟩
  cases before with
  | nil =>
    obtain ⟨rfl, _⟩ := List.cons.inj split
    exact here
  | cons x before =>
    obtain ⟨rfl, tail⟩ := List.cons.inj split
    exact rest.unended before b after tail

theorem Reads.append {as bs : List α} (first : Reads step ends s t as)
    (second : Reads step ends t u bs) : Reads step ends s u (as ++ bs) := by
  induction as generalizing s with
  | nil =>
    obtain rfl : s = t := first.arrives
    exact second
  | cons a as ih =>
    refine Reads.cons (first.unended [] a as rfl) (ih ⟨first.arrives, ?_⟩)
    exact fun before b after split => first.unended (a :: before) b after (by rw [split]; rfl)

theorem Closed.flatMap {β : Type} {texts : β → List α} {bs : List β}
    (each : ∀ b ∈ bs, Closed step ends start (texts b)) :
    Closed step ends start (bs.flatMap texts) := by
  induction bs with
  | nil => exact .nil
  | cons b bs ih =>
    rw [List.flatMap_cons]
    exact (each b List.mem_cons_self).append
      (ih fun b among => each b (List.mem_cons_of_mem _ among))

/-- **A closed text is told from what follows its mark.** -/
theorem Closed.append_cons_inj {as bs : List α} (first : Closed step ends start as)
    (second : Closed step ends start bs) {x y : α} (marks : ends start x) (marks' : ends start y)
    {rest rest' : List α} (same : as ++ x :: rest = bs ++ y :: rest') :
    as = bs ∧ x :: rest = y :: rest' := by
  rcases List.append_eq_append_iff.mp same with ⟨c, whole, tail⟩ | ⟨c, whole, tail⟩
  · cases c with
    | nil => exact ⟨by rw [whole, List.append_nil], tail⟩
    | cons z c =>
      rw [List.cons_append, List.cons.injEq] at tail
      refine absurd ?_ (second.unended as z c whole)
      rw [first.arrives, ← tail.1]
      exact marks
  · cases c with
    | nil => exact ⟨by rw [whole, List.append_nil], tail.symm⟩
    | cons z c =>
      rw [List.cons_append, List.cons.injEq] at tail
      refine absurd ?_ (first.unended bs z c whole)
      rw [second.arrives, ← tail.1]
      exact marks'

end Machine

section Records

variable {α : Type} (unit record : α)

/-- Fields, each followed by the mark of a field. -/
def fields (fs : List (List α)) : List α := fs.flatMap (· ++ [unit])

/-- Records of fields, each followed by the mark of a record. -/
def records (rs : List (List (List α))) : List α := rs.flatMap (fields unit · ++ [record])

variable {unit record} {σ : Type} {step : σ → α → σ} {ends : σ → α → Prop} {start : σ}

/-- Closed fields, each ended by the separator, are read back one by one. -/
theorem fields_inj (apart : unit ≠ record) (unitEnds : ends start unit)
    (recordEnds : ends start record) {rest rest' : List α} :
    ∀ {fs gs : List (List α)}, (∀ f ∈ fs, Closed step ends start f) →
      (∀ g ∈ gs, Closed step ends start g) →
      fields unit fs ++ record :: rest = fields unit gs ++ record :: rest' →
      fs = gs ∧ rest = rest'
  | [], [], _, _, same => ⟨rfl, (List.cons.inj same).2⟩
  | [], g :: gs, _, closed, same => by
    rw [fields, fields, List.flatMap_cons, List.append_assoc, List.append_assoc] at same
    have first := (Closed.append_cons_inj .nil (closed g List.mem_cons_self) recordEnds unitEnds
      same).2
    exact absurd (List.cons.inj first).1.symm apart
  | f :: fs, [], closed, _, same => by
    rw [fields, fields, List.flatMap_cons, List.append_assoc, List.append_assoc] at same
    have first := (Closed.append_cons_inj (closed f List.mem_cons_self) .nil unitEnds recordEnds
      same).2
    exact absurd (List.cons.inj first).1 apart
  | f :: fs, g :: gs, closed, closed', same => by
    rw [fields, fields, List.flatMap_cons, List.flatMap_cons, List.append_assoc,
      List.append_assoc, List.append_assoc, List.append_assoc] at same
    obtain ⟨field, tail⟩ := Closed.append_cons_inj (closed f List.mem_cons_self)
      (closed' g List.mem_cons_self) unitEnds unitEnds same
    obtain ⟨others, left⟩ := fields_inj apart unitEnds recordEnds
      (fun f among => closed f (List.mem_cons_of_mem _ among))
      (fun g among => closed' g (List.mem_cons_of_mem _ among)) (List.cons.inj tail).2
    exact ⟨by rw [field, others], left⟩

/-- **Records of closed fields are determined by what is written.** -/
theorem records_inj (apart : unit ≠ record) (unitEnds : ends start unit)
    (recordEnds : ends start record) :
    ∀ {rs ts : List (List (List α))}, (∀ r ∈ rs, ∀ f ∈ r, Closed step ends start f) →
      (∀ t ∈ ts, ∀ f ∈ t, Closed step ends start f) →
      records unit record rs = records unit record ts → rs = ts
  | [], [], _, _, _ => rfl
  | [], t :: ts, _, _, same => by
    rw [records, records, List.flatMap_cons] at same
    exact absurd same.symm (by simp)
  | r :: rs, [], _, _, same => by
    rw [records, records, List.flatMap_cons] at same
    exact absurd same (by simp)
  | r :: rs, t :: ts, closed, closed', same => by
    rw [records, records, List.flatMap_cons, List.flatMap_cons, List.append_assoc,
      List.append_assoc] at same
    obtain ⟨record, tail⟩ := fields_inj apart unitEnds recordEnds
      (closed r List.mem_cons_self) (closed' t List.mem_cons_self) same
    have others : rs = ts := records_inj apart unitEnds recordEnds
      (fun r among => closed r (List.mem_cons_of_mem _ among))
      (fun t among => closed' t (List.mem_cons_of_mem _ among)) tail
    rw [record, others]

end Records

end PgSprite.Lib
