/-
**A flush an earlier run has left open, and the run that resumed the row.**

The flusher locks the shadow in the weakest mode before it confirms the table lock, and no fence
waits for that mode. A flush that is parked behind its confirmation when the lock passes on goes on
after the next run has cleared, written or verified the same rows.

* `flush_never_undoes` — where no flush is open past its confirmation whenever the lock passes on,
  the flushes of earlier runs change nothing the next run has worked on, and the shadow it swaps in
  is what its own transactions made it;
* `parked_flush_undoes` — without that, a parked flush puts an older image back over a row the next
  run has written and verified, and that run swaps it in.
-/

import PgSprite.Handover.Fence

namespace PgSprite.Handover

open Std PgSprite.Decode PgSprite.Source PgSprite.Copier PgSprite.Lib

/-- **No flush of an earlier run undoes a later run's work.** -/
structure Undisturbed (s : State) : Prop where
  /-- A flush of an earlier run leaves every row a later run has written, cleared, verified or
  swapped in. -/
  kept : ∀ b id found (tx : Tx) s', s.txs[id]? = some tx → tx.work.isFlush = true →
    s.Earlier tx.backend b → step s (.next id found) = some s' →
    ∀ key, s.Worked b key → s'.shadow[key]? = s.shadow[key]?
  /-- The shadow that is swapped in has nothing in it from a flush of an earlier run. -/
  swapped : s.swapped = true → s.shadow = s.own

/-- The kinds of transactions other than flushes. -/
def Work.notFlush (work : Work) : Bool := !work.isFlush

section Undisturbed

variable {s s' : State} {e : Event} {shadow : Table}

/-- A flush that commits is the last holder's. -/
theorem Ordered.flush_last {id : ℕ} {tx : Tx} {rest : List Statement}
    (ordered : Ordered Work.notFlush s) (here : s.txs[id]? = some tx)
    (running : tx.phase = .running) (commits : tx.rest = .commit :: rest)
    (flush : tx.work.isFlush = true) : s.taken.head? = some tx.backend := by
  by_contra other
  have confirmed := Tx.confirmed_of_commit (ordered.sent id tx here) commits
  have past : tx.straggles = true := by simp [Tx.straggles, running, confirmed]
  have may := ordered.straggler id tx here past other
  rw [Work.notFlush, flush] at may
  cases may

/-- A step keeps the shadow the runs' own. -/
theorem own_step (ordered : Ordered Work.notFlush s) (own : s.own = s.shadow)
    (steps : Steps s e s') : s'.own = s'.shadow := by
  cases steps with
  | acquire _ _ => rfl
  | @commits id found tx rest here running head =>
    have last : (tx.work.isFlush && decide (s.taken.head? ≠ some tx.backend)) = false := by
      cases flush : tx.work.isFlush with
      | false => rfl
      | true => simpa using ordered.flush_last here running head flush
    rw [State.commits, last, own]
    rfl
  | _ => exact own

/-- **Where the lock never passes on past an open flush, no flush undoes a later run's work.** -/
theorem flush_never_undoes
    (reached : Reaches step (Straggling Work.notFlush) (State.start shadow) s) : Undisturbed s := by
  obtain ⟨ordered, own⟩ := Reaches.invariant
    (P := fun s => Ordered Work.notFlush s ∧ s.own = s.shadow) reached
    ⟨ordered_start shadow, rfl⟩ fun s e s' kept met taken =>
      ⟨kept.1.step met (steps_of_step taken), own_step kept.1 kept.2 (steps_of_step taken)⟩
  refine ⟨fun b id found tx s' here flush before taken key _ => ?_, fun _ => own.symm⟩
  cases steps_of_step taken with
  | turns _ _ _ => rfl
  | commits there running commits =>
    cases here.symm.trans there
    exact absurd before
      (ordered.not_earlier_of_head (ordered.flush_last here running commits flush))

end Undisturbed

/-- A row with one column. -/
def oneColumn (value : String) : Row := fun _ => some value

/-- The events of a flush of one image behind its confirmation, with nothing to wait for. -/
def writesOne (id : ℕ) : List Event :=
  [.next id [], .next id [], .ask id, .next id [], .next id [], .next id [], .next id []]

/-- The events of a swap that drains nothing. -/
def swapsIn (id : ℕ) : List Event :=
  [.next id [], .next id [], .ask id, .next id [], .ask id, .next id [], .next id [], .next id []]

open Event in
/-- A resumed run writes a row, verifies and swaps; the run before it had ended its own flush. -/
def endedFlush : List Event :=
  [acquire 1 (some Int64.maxValue), beginFlush 1 [.upsert 1 (oneColumn "older")]] ++ confirms 0 ++
    writesOne 0 ++
    [release 1, acquire 2 (some Int64.maxValue), beginFlush 2 [.upsert 1 (oneColumn "newer")]] ++
    confirms 1 ++ writesOne 1 ++ [verified 2, beginSwap 2 []] ++ swapsIn 2

/-- What the run leaves on record. -/
theorem endedFlush_marks : (run step (straggling Work.notFlush) (State.start ∅) endedFlush).map
    State.marks = some [.wrote 1 1, .wrote 2 1, .verified 2, .swapped 2] := by
  decide +kernel

theorem flush_never_undoes_endedFlush :
    ∃ s, run step (straggling Work.notFlush) (State.start ∅) endedFlush = some s ∧
      s.marks = [.wrote 1 1, .wrote 2 1, .verified 2, .swapped 2] ∧ Undisturbed s := by
  obtain ⟨s, ran, shape⟩ := Option.map_eq_some_iff.mp endedFlush_marks
  exact ⟨s, ran, shape, flush_never_undoes (reaches_of_run straggling_sound .refl ran)⟩

open Event in
/-- The same, with the first run's flush parked behind its confirmation until the second run has
verified. -/
def parkedFlush : List Event :=
  [acquire 1 (some Int64.maxValue), beginFlush 1 [.upsert 1 (oneColumn "older")]] ++ confirms 0 ++
    [release 1, acquire 2 (some Int64.maxValue), beginFlush 2 [.upsert 1 (oneColumn "newer")]] ++
    confirms 1 ++ writesOne 1 ++ [verified 2] ++ writesOne 0 ++ [beginSwap 2 []] ++ swapsIn 2

/-- What the run leaves on record, and the row in the shadow and in the resumed run's own writes. -/
theorem parkedFlush_marks : (run step (fun _ _ => true) (State.start ∅) parkedFlush).map
    (fun s => (s.marks, s.swapped, s.shadow[(1 : Key)]?.map fun row => row "v",
      s.own[(1 : Key)]?.map fun row => row "v"))
    = some ([.wrote 2 1, .verified 2, .wrote 1 1, .swapped 2], true, some (some "older"),
      some (some "newer")) := by
  decide +kernel

/-- **A parked flush undoes the next run's work**: the row that is swapped in is the image the
earlier run had decoded, and the resumed run's own is another. -/
theorem parked_flush_undoes :
    ∃ s, Reaches step anyStep (State.start ∅) s ∧ ¬ Undisturbed s ∧
      s.marks = [.wrote 2 1, .verified 2, .wrote 1 1, .swapped 2] ∧
      (s.shadow[(1 : Key)]?.map fun row => row "v") = some (some "older") ∧
      (s.own[(1 : Key)]?.map fun row => row "v") = some (some "newer") := by
  obtain ⟨s, ran, shape⟩ := Option.map_eq_some_iff.mp parkedFlush_marks
  simp only [Prod.mk.injEq] at shape
  obtain ⟨marks, swapped, older, newer⟩ := shape
  refine ⟨s, reaches_of_run (fun _ _ _ => trivial) .refl ran, fun undisturbed => ?_, marks, older,
    newer⟩
  rw [undisturbed.swapped swapped, newer] at older
  exact absurd older (by decide)

end PgSprite.Handover
