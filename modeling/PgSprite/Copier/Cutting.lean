/-
**The chunker beside the ledger that claims its chunks.**

The chunker keeps a position and the ledger a frontier, each on its own; workers resize chunks, cut
them, settle them and land them in any order. `Cuts` says that the two agree: the chunks returned
are consecutive from the start, the ledger's frontier is their top, and the chunker stands just
above it.

* **`chunks_tile`** — so the chunks share no key and cover every key above the start once the
  chunker is done, no bound wraps around, and no cut is refused.
-/

import PgSprite.Copier.Chunker
import PgSprite.Lib.Run

namespace PgSprite.Copier

open PgSprite.Decode PgSprite.Lib

/-- The chunker, the ledger that has claimed its chunks, and the chunks it has returned. -/
structure Cutting where
  chunker : Chunker
  ledger : Ledger
  chunks : List Chunk

namespace Cutting

/-- What a worker does: it reports a chunk's time, which sets a row count, cuts and claims the next
chunk at the boundary the table answers, and settles or lands one. -/
inductive Action where
  | resize (rows : RowCount)
  | next (answer : Boundary)
  | settle (chunk : Chunk) (rows : Int64) (pending : List Key)
  | land (chunk : Chunk) (rows : Int64)

/-- A copy that resumes after a watermark. -/
def start (w : Watermark) (rows : RowCount) : Cutting := ⟨.newChunker w rows, .newLedger w, []⟩

/-- The chunk cut next, claimed; none where the cut or the claim is refused. -/
def cutNext (s : Cutting) (answer : Boundary) : Option Cutting :=
  match s.chunker.nextChunk (ε := Empty) (.ok answer) with
  | .error _ => none
  | .ok none => some s
  | .ok (some (chunk, after)) =>
    (s.ledger.claim chunk).map fun ledger => ⟨after, ledger, s.chunks ++ [chunk]⟩

/-- One action; a settle or a land the ledger refuses changes nothing. -/
def step (s : Cutting) : Action → Option Cutting
  | .resize rows => some { s with chunker := { s.chunker with rows } }
  | .next answer => s.cutNext answer
  | .settle chunk rows pending =>
    some { s with ledger := (s.ledger.settle chunk rows pending).getD s.ledger }
  | .land chunk rows => some { s with ledger := (s.ledger.land chunk rows).getD s.ledger }

/-- A cut asks the table for a key from the chunker's position on, and is answered; with the key
space covered it asks nothing. -/
def Answered (s : Cutting) : Action → Prop
  | .next answer => s.chunker.done = false → answer.Follows s.chunker.next
  | _ => True

/-- The chunker and the ledger agree on the chunks returned. -/
structure Cuts (w : Watermark) (s : Cutting) : Prop where
  consecutive : Consecutive w s.chunks
  frontier : s.ledger.cut = top w s.chunks
  finished : s.chunker.done = true → top w s.chunks = some Int64.maxValue
  position : s.chunker.done = false → startAfter (top w s.chunks) = (s.chunker.next, false)

section Cuts

variable {w : Watermark} {s s' : Cutting} {answer : Boundary} {action : Action}

theorem cuts_start (w : Watermark) (rows : RowCount) : Cuts w (start w rows) where
  consecutive := trivial
  frontier := rfl
  finished := by
    intro done
    cases w with
    | none => cases done
    | some value =>
      by_contra short
      have room : value ≠ Int64.maxValue := fun same => short (same ▸ rfl)
      have next := startAfter_some.mpr ⟨room, rfl⟩
      simp [start, Chunker.newChunker, next] at done
  position := fun unfinished => Prod.ext rfl unfinished

/-- **A cut is never refused**: a chunk from the chunker's position on is at the ledger's
frontier. -/
theorem Cuts.cutNext (cuts : Cuts w s)
    (answered : s.chunker.done = false → answer.Follows s.chunker.next) :
    ∃ s', s.cutNext answer = some s' ∧ Cuts w s' := by
  cases done : s.chunker.done with
  | true => exact ⟨s, by simp [Cutting.cutNext, Chunker.nextChunk, done], cuts⟩
  | false =>
    obtain ⟨chunk, next, lower, -⟩ :=
      Chunker.nextChunk_of_follows (ε := Empty) done (answered done)
    have starts : startAfter (top w s.chunks) = (chunk.lower, false) :=
      lower ▸ cuts.position done
    have atFrontier : s.ledger.startsAtFrontier chunk = true :=
      Ledger.startsAtFrontier_iff.mpr (cuts.frontier ▸ starts)
    refine ⟨⟨s.chunker.advance chunk.upper, _, s.chunks ++ [chunk]⟩,
      by rw [Cutting.cutNext, next]; simp only [Ledger.claim, if_pos atFrontier]; rfl, ?_⟩
    refine ⟨consecutive_concat.mpr ⟨cuts.consecutive, starts⟩, by simp, ?_, ?_⟩
    · intro ended
      by_contra room
      have short : chunk.upper ≠ Int64.maxValue := fun full => room (by simp [full])
      rw [Chunker.advance_of_room short] at ended
      exact absurd (done.symm.trans ended) Bool.false_ne_true
    · intro onward
      by_cases full : chunk.upper = Int64.maxValue
      · simp [Chunker.advance, full] at onward
      · rw [Chunker.advance_of_room full, top_append]
        exact startAfter_some.mpr ⟨full, rfl⟩

theorem cut_getD {l : Ledger} {reported : Option Ledger}
    (kept : ∀ moved, reported = some moved → moved.cut = l.cut) :
    (reported.getD l).cut = l.cut := by
  cases reported with
  | none => rfl
  | some moved => exact kept moved rfl

/-- Every action keeps the chunker and the ledger at one frontier. -/
theorem Cuts.step (cuts : Cuts w s) (answered : s.Answered action)
    (steps : s.step action = some s') : Cuts w s' := by
  cases action with
  | resize rows =>
    cases steps
    exact ⟨cuts.consecutive, cuts.frontier, cuts.finished, cuts.position⟩
  | next answer =>
    obtain ⟨after, cut, kept⟩ := cuts.cutNext answered
    rw [Cutting.step, cut] at steps
    cases steps
    exact kept
  | settle chunk rows pending =>
    cases steps
    refine ⟨cuts.consecutive, (cut_getD fun moved settled => ?_).trans cuts.frontier,
      cuts.finished, cuts.position⟩
    obtain ⟨-, -, rfl⟩ := Ledger.settle_eq settled
    rfl
  | land chunk rows =>
    cases steps
    refine ⟨cuts.consecutive, (cut_getD fun moved lands => ?_).trans cuts.frontier,
      cuts.finished, cuts.position⟩
    obtain ⟨-, rfl⟩ := Ledger.land_eq lands
    exact (Ledger.advance_frame _).1

/-- The position is one past the frontier, without wrapping around. -/
theorem Cuts.toInt_next (cuts : Cuts w s) (unfinished : s.chunker.done = false) {value : Key}
    (cut : top w s.chunks = some value) : s.chunker.next.toInt = value.toInt + 1 := by
  obtain ⟨room, next⟩ := startAfter_some.mp (cut ▸ cuts.position unfinished)
  rw [next, toInt_succ room]

/-- The chunker and the ledger stand at the same frontier. -/
theorem Cuts.cut (cuts : Cuts w s) : s.chunker.cut = s.ledger.cut := by
  rw [cuts.frontier, Chunker.cut]
  cases done : s.chunker.done with
  | true => exact (cuts.finished done).symm
  | false =>
    have position := cuts.position done
    cases frontier : top w s.chunks with
    | none =>
      rw [frontier] at position
      simp [← (Prod.mk.inj position).1]
    | some value =>
      rw [frontier] at position
      obtain ⟨room, next⟩ := startAfter_some.mp position
      have above := Ledger.lt_succ_of_ne_max room
      have least := Int64.minValue_le value
      have positive : s.chunker.next ≠ Int64.minValue := by grind
      simp only [Bool.false_eq_true, if_false, if_neg positive, Option.some.injEq]
      grind

end Cuts

end Cutting

open Cutting

/-- **The chunks tile the key space.** Whatever row counts are set, whatever boundaries a changing
table answers and whenever chunks settle and land: the chunks returned follow one another from the
start on and share no key; no bound wraps around; once the chunker is done they cover exactly the
keys above the start; its frontier is that of the ledger that claimed them; and neither the chunker
nor the ledger refuses the next cut. -/
theorem chunks_tile (w : Watermark) (rows : RowCount) (s : Cutting)
    (reached : Reaches Cutting.step Cutting.Answered (.start w rows) s) :
    Consecutive w s.chunks ∧
    s.chunks.IsChain (fun a b => b.lower.toInt = a.upper.toInt + 1) ∧
    (∀ chunk ∈ s.chunks.head?, ∀ value, w = some value → chunk.lower.toInt = value.toInt + 1) ∧
    s.chunks.Pairwise Ledger.Apart ∧
    (s.chunker.done = true →
      ∀ key, (∃ chunk ∈ s.chunks, chunk.covers key = true) ↔ w.reaches key = false) ∧
    s.chunker.cut = s.ledger.cut ∧ s.ledger.cut = top w s.chunks ∧
    (s.chunker.done = false → ∀ value, s.chunker.cut = some value →
      s.chunker.next.toInt = value.toInt + 1) ∧
    ∀ answer, (s.chunker.done = false → answer.Follows s.chunker.next) →
      ∃ s', s.step (.next answer) = some s' := by
  have cuts : Cuts w s := reached.invariant (P := Cuts w) (cuts_start w rows)
    fun _ _ _ cuts answered steps => cuts.step answered steps
  refine ⟨cuts.consecutive, cuts.consecutive.toInt_lower, ?_, cuts.consecutive.apart, ?_, cuts.cut,
    cuts.frontier, ?_, ?_⟩
  · intro chunk first value given
    have consecutive := cuts.consecutive
    cases chunks : s.chunks with
    | nil => rw [chunks] at first; cases first
    | cons head rest =>
      rw [chunks] at first consecutive
      cases first
      exact toInt_of_starts (given ▸ consecutive.1)
  · intro done key
    have once := cuts.consecutive.countP_covers key
    rw [cuts.finished done, show Watermark.reaches (some Int64.maxValue) key = true by
      simp [Watermark.reaches, Int64.le_maxValue], Bool.true_and] at once
    rw [← List.countP_pos_iff, once]
    cases w.reaches key <;> simp
  · intro unfinished value cut
    exact cuts.toInt_next unfinished (cuts.frontier ▸ cuts.cut ▸ cut)
  · intro answer answered
    obtain ⟨s', steps, -⟩ := cuts.cutNext answered
    exact ⟨s', steps⟩

/-- A copy resumed after 5 cuts at 9, is sized anew, and reaches the end of the table. -/
theorem chunks_tile_resumed :
    ∃ s, run Cutting.step (fun _ _ => true) (.start (some 5) .initial)
        [.next (.key 9), .resize ⟨20, by decide⟩, .next .noRow] = some s ∧
      s.chunker.done = true ∧
      ∀ key, (∃ chunk ∈ s.chunks, chunk.covers key = true) ↔
        Watermark.reaches (some 5) key = false := by
  have reached : Reaches Cutting.step Cutting.Answered (.start (some 5) .initial)
      ((run Cutting.step (fun _ _ => true) (.start (some 5) .initial)
        [.next (.key 9), .resize ⟨20, by decide⟩, .next .noRow]).get (by decide)) :=
    .step (.step (.step .refl (a := .next (.key 9)) (fun _ => show (6 : Key) ≤ 9 by decide) rfl)
      (a := .resize ⟨20, by decide⟩) trivial rfl) (a := .next .noRow) (fun _ => trivial) rfl
  obtain ⟨-, -, -, -, covers, -⟩ := chunks_tile (some 5) .initial _ reached
  exact ⟨_, Option.some_get _ |>.symm, by decide, covers (by decide)⟩

end PgSprite.Copier
