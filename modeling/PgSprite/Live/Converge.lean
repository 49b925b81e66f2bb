/-
**Where a live run ends: the shadow is the source.**

* `run_converges` — a run that is never restarted converges: with every key landed, every change
  delivered and nothing held back, the shadow holds the source's rows over the copied columns, as
  long as no refused flush has completed an image from another row's cells (`RefusedInPlace`);
* `requeued_completion_diverges` — without that it may not: the fallback completes a batch's images
  in the columns the batch is requeued with, and a chunk that read ahead of the stream has put
  another row under the image's key;
* `resumed_run_converges` — so does one restarted any number of times from the row last saved, as
  long as no flush takes a completion from a row an earlier run left under a key this one has not
  cut (`OriginsClear`), and every restart finds the keys at or below the row's watermark settled;
* `stale_origin_diverges` — without that the restarted run ends on a shadow that is not the source:
  its catch-up already flushes while its copier is still to clear the rows above the watermark;
* `shadow_follows_ledger`, `resume_skips_nothing` — what holds at every moment, and across a
  restart;
* `released_value_is_the_rows_own` — a release fills a marker with the value the row itself held,
  under the condition of `run_converges`;
* `released_value_is_anothers` — the run that diverges goes on to fill a marker with another row's.
-/

import PgSprite.Live.Invariant

namespace PgSprite.Live

open Std PgSprite.Decode PgSprite.Source PgSprite.Lib PgSprite.Applier PgSprite.Copier

/-- The step belongs to the run that is going on. -/
def Uninterrupted (_ : State) (a : Action) : Prop := a.continues = true

/-- The catch-up holds no change back: nothing is buffered, and nothing drained waits for its
flush. -/
def Capture.isEmpty (c : Capture) : Bool := c.buffer.len == 0 && c.batch.isEmpty

/-- Every change has reached the shadow's rows: the copy has landed every key, the stream has
delivered the whole log, and the catch-up holds nothing back. -/
def State.caughtUp (s : State) : Bool :=
  copyLanded s.copy.ledger.position && decide (s.capture.next = s.server.log.length) &&
    s.capture.isEmpty

section Converge

variable {setup : Setup} {pristine : Bool} {g : Key → ℕ} {s s' : State} {a : Action} {base : Table}
  {point : LSN}

/-! ### What holds in every state a run reaches -/

/-- Before any restart no row stands under a key the copier has not cut. -/
theorem Inv.originsClear (inv : Inv setup true g s) : OriginsClear s a := by
  cases a with
  | flush => exact fun e _ _ _ old _ uncut => inv.copied.uncut old uncut (Or.inl rfl)
  | _ => trivial

/-- Every state of a run that is not restarted has the invariant. -/
theorem inv_of_uninterrupted
    (reached : Reaches (step setup) (fun s a => Uninterrupted s a ∧ RefusedInPlace setup s a)
      (fresh base point) s) : ∃ g, Inv setup true g s := by
  refine reached.invariant (P := fun s => ∃ g, Inv setup true g s)
    ⟨_, inv_fresh base point⟩ ?_
  rintro s a s' ⟨g, inv⟩ ⟨continues, inPlace⟩ taken
  exact inv.step_continues inv.originsClear inPlace (steps_of_step taken) continues

/-- And so has every state of a restarted one. -/
theorem inv_of_originsClear
    (reached : Reaches (step setup) (fun s a => OriginsClear s a ∧ RefusedInPlace setup s a)
      (fresh base point) s) : ∃ pristine g, Inv setup pristine g s := by
  refine reached.invariant (P := fun s => ∃ pristine g, Inv setup pristine g s)
    ⟨_, _, inv_fresh base point⟩ ?_
  rintro s a s' ⟨pristine, g, inv⟩ ⟨clear, inPlace⟩ taken
  exact ⟨_, inv.step clear inPlace (steps_of_step taken)⟩

/-- A check that is enough for `RefusedInPlace`: the batch's images are moved ones to be completed
or carry every copied column. -/
def carriesAll (setup : Setup) (s : State) : Action → Bool
  | .flush _ => s.capture.batch.all fun e => decide (e.kind ≠ .image) || Flusher.named e ||
      setup.flusher.columns.all fun name => (valueOf e.columns name).isSome
  | _ => true

theorem refusedInPlace_of_carriesAll (checked : carriesAll setup s a = true) :
    RefusedInPlace setup s a := by
  cases a with
  | flush =>
    intro pos batch _ _ _ e member kind unnamed row _ name copied omitted
    have here := List.all_eq_true.mp checked e member
    rw [kind, unnamed] at here
    have carries := List.all_eq_true.mp (by simpa using here) name copied
    rw [omitted] at carries
    cases carries
  | _ => trivial

/-! ### Convergence -/

theorem state_of_copyLanded {l : Ledger} (landed : copyLanded l.position = true) (key : Key) :
    l.state key = .landed := by
  rw [copyLanded, Bool.and_eq_true, List.isEmpty_iff, Watermark.complete, decide_eq_true_eq]
    at landed
  rw [Ledger.state, Position.classify_of_idle landed.2, landed.1, if_pos]
  simp [Watermark.reaches, Int64.le_maxValue]

theorem Capture.entry_of_isEmpty {c : Capture} (empty : c.isEmpty = true) (key : Key) :
    c.entry key = none := by
  rw [Capture.isEmpty, Bool.and_eq_true, beq_iff_eq, List.isEmpty_iff, Buffer.len] at empty
  rw [Capture.entry_eq empty.2, ExtTreeMap.eq_empty_iff_size_eq_zero.mpr empty.1]
  rfl

theorem source_eq_row (server : Server) (key : Key) :
    server.source[key]? = server.history.row server.log.length key := by
  rw [Server.source, getElem?_replay, History.row, Server.history, KeyedLog.rowAt_length]

/-- **A caught-up run has converged**, each column as its conversion leaves it. -/
theorem Inv.converged (inv : Inv setup pristine g s) (caughtUp : s.caughtUp = true) (key : Key) :
    Matches setup.flusher.columns s.shadow[key]?
      (s.server.source[key]?.map setup.flusher.convertedRow) := by
  rw [State.caughtUp, Bool.and_eq_true, Bool.and_eq_true, decide_eq_true_eq] at caughtUp
  obtain ⟨⟨landed, delivered⟩, empty⟩ := caughtUp
  have settled := inv.copied.landed key (state_of_copyLanded landed key)
  -- a key without an entry owes nothing of what was delivered, which is the whole log
  rw [inv.tracks.free key (Capture.entry_of_isEmpty empty key), delivered] at settled
  rw [source_eq_row]
  exact settled.last

/-- Where nothing is converted the shadow holds the source's rows themselves. -/
theorem Inv.converged_plain (inv : Inv setup pristine g s)
    (plain : ∀ name, setup.flusher.conversions name = none) (caughtUp : s.caughtUp = true)
    (key : Key) : Matches setup.flusher.columns s.shadow[key]? s.server.source[key]? := by
  have converged := inv.converged caughtUp key
  rwa [Flusher.convertedRow_of_plain plain, Option.map_id_fun, id] at converged

/-- **Convergence of copy and capture.** Whatever the source committed and however the copier's and
the catch-up's steps interleaved, a caught-up run has made the shadow the source, as long as the
cells its refused flushes completed images from were in place. -/
theorem run_converges (setup : Setup) (plain : ∀ name, setup.flusher.conversions name = none)
    (base : Table) (point : LSN) (s : State)
    (reached : Reaches (step setup) (fun s a => Uninterrupted s a ∧ RefusedInPlace setup s a)
      (fresh base point) s)
    (caughtUp : s.caughtUp = true) (key : Key) :
    Matches setup.flusher.columns s.shadow[key]? s.server.source[key]? := by
  obtain ⟨g, inv⟩ := inv_of_uninterrupted reached
  exact inv.converged_plain plain caughtUp key

/-- One chunk over every key. -/
def everyKey : Chunk := { lower := Int64.minValue, upper := Int64.maxValue, ordered := by decide }

/-- A transaction commits and becomes visible. -/
def commits (changes : List Change) (id : UInt64) (lsn : LSN) : List Action :=
  [.commit changes id lsn, .becomeVisible lsn]

/-- A chunk is copied in one pass. -/
def copies (chunk : Chunk) : List Action := [.read chunk, .commitPass chunk [], .recordPass chunk]

/-- The stream delivers a transaction of one change. -/
def sends (xid : Xid) (lsn : LSN) : List Action := [.sendBegin xid lsn, .sendChange, .sendCommit]

/-- A cycle's flush of what was gathered, with no transaction below `xid` in progress, and its
confirmation. -/
def flushes (xid : UInt64) (readLSN : LSN) : List Action :=
  [.release, .snapshot { xmin := xid, xmax := xid, read := true }, .drain, .flush readLSN, .confirm,
    .record]

def valueSetup : Setup := .bare ["v"] (List.nodup_singleton "v")

/-- A row is inserted behind the stream and copied; it then moves with its value omitted, so that
its image is held over one cycle for the completion. -/
def movedRowRun : List Action :=
  [.clear 10, .claim everyKey] ++ commits [.insert 5 fun _ => some "b"] 7 20 ++ copies everyKey ++
    sends 7 20 ++ flushes 8 20 ++ commits [.update 6 5 (fun _ => some "b") ["v"]] 8 30 ++
    sends 8 30 ++ flushes 9 30 ++ flushes 9 30

/-- The run goes on, and its flushes meet no image that omits a cell of its own key's row. -/
def goesOnWhole (setup : Setup) (s : State) (a : Action) : Bool :=
  a.continues && carriesAll setup s a

theorem goesOnWhole_sound (passes : goesOnWhole setup s a = true) :
    Uninterrupted s a ∧ RefusedInPlace setup s a := by
  rw [goesOnWhole, Bool.and_eq_true] at passes
  exact ⟨passes.1, refusedInPlace_of_carriesAll passes.2⟩

/-- A row moved to another key arrives there. -/
theorem run_converges_moved :
    ∃ s, run (step valueSetup) (goesOnWhole valueSetup) (fresh ∅ 10) movedRowRun = some s ∧
      s.caughtUp = true ∧ s.shadow.contains 6 = true ∧
      Matches ["v"] s.shadow[(6 : Key)]? s.server.source[(6 : Key)]? := by
  obtain ⟨s, ran, shape⟩ := Option.map_eq_some_iff.mp (by decide +kernel :
    (run (step valueSetup) (goesOnWhole valueSetup) (fresh ∅ 10) movedRowRun).map
      (fun s => (s.caughtUp, s.shadow.contains 6)) = some (true, true))
  rw [Prod.mk.injEq] at shape
  have reached := reaches_of_run (fun _ _ => goesOnWhole_sound) .refl ran
  exact ⟨s, ran, shape.1, shape.2, run_converges valueSetup (fun _ => rfl) ∅ 10 s reached shape.1 6⟩

/-! #### A refused batch -/

/-- A table whose column `u` the shadow holds unique, beside a large column `t`. -/
def uniqueLarge : Setup where
  flusher := { columns := ["u", "t"] }
  constraints := .unique "u" (by decide)
  relation := ["u", "t"]
  decodes := ⟨by decide, by decide⟩

/-- A row with the unique value `u` and the large value `t`. -/
def uniqueLargeRow (u t : String) : Row := fun name => if name = "t" then some t else some u

def uniqueLargeStart : State := fresh ((∅ : Table).insert 1 (uniqueLargeRow "a" "own")) 10

/-- The row under 1 takes a new unique value and then moves to 2, both with its large value omitted;
another row takes its key. The copy of the keys to 3 reads all of it before the stream delivers
any. -/
def copiedAhead : List Action :=
  let low : Chunk := { lower := Int64.minValue, upper := 3, ordered := by decide }
  [.clear 10] ++ commits [.update 1 1 (uniqueLargeRow "x" "own") ["t"]] 7 20 ++
    commits [.update 2 1 (uniqueLargeRow "x" "own") ["t"]] 8 30 ++
    commits [.insert 1 (uniqueLargeRow "b" "another's")] 9 40 ++ [.claim low] ++ copies low

/-- The stream delivers the first transaction, and its image is refused; then the other two. -/
def refusedBetween : List Action :=
  sends 7 20 ++ flushes 10 40 ++ sends 8 30 ++ sends 9 40 ++ flushes 10 40

/-- The copy of the other keys. -/
def copyAbove : List Action :=
  let high : Chunk := { lower := 4, upper := Int64.maxValue, ordered := by decide }
  [.claim high] ++ copies high

/-- Two rows that differ in a copied cell do not match. -/
theorem not_matches_of_cell {columns : List Name} {name : Name} (copied : name ∈ columns)
    {a b : Option Row} {v w : Text} (first : a.map (fun row => row name) = some v)
    (second : b.map (fun row => row name) = some w) (apart : v ≠ w) : ¬ Matches columns a b := by
  obtain ⟨row, rfl, rfl⟩ := Option.map_eq_some_iff.mp first
  obtain ⟨row', rfl, rfl⟩ := Option.map_eq_some_iff.mp second
  exact fun agree => apart (agree name copied)

/-- **A caught-up run may have diverged**: the image of the first transaction collides with the
moved row, which the chunk read ahead of the stream. The fallback first completes the image from the
row now under its key, which is another one; the batch is requeued with that value, and the moved
image inherits it. -/
theorem requeued_completion_diverges :
    ∃ s, Reaches (step uniqueLarge) Uninterrupted uniqueLargeStart s ∧ s.caughtUp = true ∧
      s.shadow[(2 : Key)]?.map (fun row => row "t") = some (some "another's") ∧
      s.server.source[(2 : Key)]?.map (fun row => row "t") = some (some "own") ∧
      ¬ Matches ["u", "t"] s.shadow[(2 : Key)]? s.server.source[(2 : Key)]? := by
  obtain ⟨s, ran, shape⟩ := Option.map_eq_some_iff.mp (by decide +kernel :
    (run (step uniqueLarge) (fun _ a => a.continues) uniqueLargeStart
      (copiedAhead ++ refusedBetween ++ copyAbove)).map (fun s =>
        (s.caughtUp, s.shadow[(2 : Key)]?.map (fun row => row "t"),
          s.server.source[(2 : Key)]?.map (fun row => row "t")))
      = some (true, some (some "another's"), some (some "own")))
  simp only [Prod.mk.injEq] at shape
  obtain ⟨caughtUp, copied, held⟩ := shape
  exact ⟨s, reaches_of_run (fun _ _ goes => goes) .refl ran, caughtUp, copied, held,
    not_matches_of_cell (by decide) copied held (by decide)⟩

/-! ### Restarts -/

/-- **A restart finds every key at or below the row's watermark settled**: what the resumed stream
does not replay of its changes is in the shadow already. -/
theorem settled_of_resume (inv : Inv setup pristine g s) {kept : LSN}
    (resumed : step setup s (.resume kept) = some s') {key : Key}
    (covered : s.checkpoint.watermark.reaches key = true) :
    Settled setup.flusher s'.server.seen s'.server.history s'.capture.next key s'.shadow[key]? := by
  have steps := steps_of_step resumed
  obtain ⟨g', inv'⟩ := inv.step (a := .resume kept) trivial trivial steps
  have row : s'.checkpoint = s.checkpoint ∧ s'.capture.isEmpty = true := by
    cases steps with
    | resume => exact ⟨rfl, rfl⟩
    | fails cause => cases cause
  have settled := inv'.copied.landed key (inv'.saved key (by rw [row.1]; exact covered))
  rwa [inv'.tracks.free key (Capture.entry_of_isEmpty row.2 key)] at settled

/-- **No change is lost across a restart**, where no flush completes a moved image from a row an
earlier run left, and none that is refused completes an image from another row: a caught-up run has
made the shadow the source, and every restart finds the keys the row's watermark covers settled at
the stream's place. -/
theorem resumed_run_converges (setup : Setup)
    (plain : ∀ name, setup.flusher.conversions name = none) (base : Table) (point : LSN) (s : State)
    (reached : Reaches (step setup) (fun s a => OriginsClear s a ∧ RefusedInPlace setup s a)
      (fresh base point) s) :
    (s.caughtUp = true → ∀ key : Key,
        Matches setup.flusher.columns s.shadow[key]? s.server.source[key]?) ∧
      ∀ kept s', step setup s (.resume kept) = some s' → ∀ key : Key,
        s.checkpoint.watermark.reaches key = true →
          Settled setup.flusher s'.server.seen s'.server.history s'.capture.next key
            s'.shadow[key]? := by
  obtain ⟨pristine, g, inv⟩ := inv_of_originsClear reached
  exact ⟨inv.converged_plain plain, fun kept s' resumed key => settled_of_resume inv resumed⟩

/-- `OriginsClear`, evaluated. -/
def originsClear (s : State) : Action → Bool
  | .flush _ => s.capture.batch.all fun e => !Flusher.named e || e.oldKeyReused ||
      match e.oldKey with
      | none => true
      | some old => decide (s.copy.ledger.state old ≠ .uncut) || !s.shadow.contains old
  | _ => true

theorem originsClear_sound (clear : originsClear s a = true) : OriginsClear s a := by
  cases a with
  | flush =>
    intro e member named reused old moved uncut
    have here := List.all_eq_true.mp clear e member
    rw [named, reused, moved] at here
    exact Change.not_contains_iff.mp (by simpa [uncut] using here)
  | _ => trivial

/-- Both conditions on a run's flushes, evaluated. -/
def originsClearWhole (setup : Setup) (s : State) (a : Action) : Bool :=
  originsClear s a && carriesAll setup s a

theorem originsClearWhole_sound (passes : originsClearWhole setup s a = true) :
    OriginsClear s a ∧ RefusedInPlace setup s a := by
  rw [originsClearWhole, Bool.and_eq_true] at passes
  exact ⟨originsClear_sound passes.1, refusedInPlace_of_carriesAll passes.2⟩

end Converge

/-- A row with a large column `t`. -/
def largeRow (t : String) : Row := fun name => if name = "t" then some t else some "a"

theorem nodup_large : ["v", "t"].Nodup := by decide

def largeSetup : Setup := .bare ["v", "t"] nodup_large

def largeStart : State := fresh ((∅ : Table).insert 100 (largeRow "first")) 10

/-- The first run copies the keys to 20 and, out of turn, those from 51 on, among them the row under
100; its row is saved at 20. -/
def interruptedRun : List Action :=
  let low : Chunk := { lower := Int64.minValue, upper := 20, ordered := by decide }
  let middle : Chunk := { lower := 21, upper := 50, ordered := by decide }
  let high : Chunk := { lower := 51, upper := Int64.maxValue, ordered := by decide }
  [.clear 10, .claim low, .claim middle, .claim high] ++ copies low ++ copies high ++
    [.readApplied, .readLanded, .save]

/-- The source replaces the row's large value, in a change the restarted catch-up discards as
uncut. -/
def replaceLarge : List Action :=
  commits [.update 100 100 (largeRow "second") []] 7 20 ++ sends 7 20 ++ flushes 8 20

/-- The row moves to a key the watermark covers, with the large value omitted; its image is held for
a completion and written in the next cycle. -/
def moveLarge : List Action :=
  commits [.update 10 100 (largeRow "second") ["t"]] 8 30 ++ sends 8 30 ++ flushes 9 30 ++
    flushes 9 30

/-- The copier clears the shadow above the watermark and copies the rest. -/
def copyRest : List Action :=
  let rest : Chunk := { lower := 21, upper := Int64.maxValue, ordered := by decide }
  [.clear 10, .claim rest] ++ copies rest

/-- Here the copier clears before the row moves, and the run ends on the source's value. -/
theorem resumed_run_converges_large :
    ∃ s, run (step largeSetup) (originsClearWhole largeSetup) largeStart
        (interruptedRun ++ [.resume 10] ++ replaceLarge ++ copyRest ++ moveLarge) = some s ∧
      s.caughtUp = true ∧ s.shadow.contains 10 = true ∧
      Matches ["v", "t"] s.shadow[(10 : Key)]? s.server.source[(10 : Key)]? := by
  obtain ⟨s, ran, shape⟩ := Option.map_eq_some_iff.mp (by decide +kernel :
    (run (step largeSetup) (originsClearWhole largeSetup) largeStart
      (interruptedRun ++ [.resume 10] ++ replaceLarge ++ copyRest ++ moveLarge)).map
        (fun s => (s.caughtUp, s.shadow.contains 10)) = some (true, true))
  rw [Prod.mk.injEq] at shape
  have reached := reaches_of_run (fun _ _ => originsClearWhole_sound) .refl ran
  exact ⟨s, ran, shape.1, shape.2,
    (resumed_run_converges largeSetup (fun _ => rfl) _ 10 s reached).1 shape.1 10⟩

/-- **At every moment the ledger says what the shadow holds under a key.** Of a landed one the
catch-up holds nothing for, each copied cell is the cell of some row the source held there at or
after the delivered position, not of one such row for all; one not cut has no row once the clear is
done, and a saved watermark names landed keys. And it says who writes there: a flush if the key is
landed, a chunk's pass if it is in flight. -/
theorem shadow_follows_ledger (setup : Setup) (base : Table) (point : LSN) (s : State)
    (reached : Reaches (step setup) (fun s a => OriginsClear s a ∧ RefusedInPlace setup s a)
      (fresh base point) s) (key : Key) :
    (s.copy.ledger.state key = .landed → s.capture.entry key = none →
        Settled setup.flusher s.server.seen s.server.history s.capture.next key s.shadow[key]?) ∧
      (s.copy.ledger.state key = .uncut → s.copy.cleared = true → s.shadow[key]? = none) ∧
      (s.checkpoint.watermark.reaches key = true → s.copy.ledger.state key = .landed) ∧
      (∀ e ∈ s.capture.batch, e.key = key → s.copy.ledger.state key = .landed) ∧
      ∀ chunk, (s.copy.passes chunk).Names key → s.copy.ledger.state key = .inFlight := by
  obtain ⟨pristine, g, inv⟩ := inv_of_originsClear reached
  refine ⟨fun landed free => ?_, fun uncut cleared => inv.copied.uncut key uncut (.inr cleared),
    inv.saved key, fun e member same => same ▸ (inv.drained e member).2,
    fun chunk names => (inv.copied.names chunk key names).2⟩
  rw [← inv.tracks.free key free]
  exact inv.copied.landed key landed

def interrupted : Option State :=
  run (step largeSetup) (originsClearWhole largeSetup) largeStart interruptedRun

theorem shadow_follows_ledger_interrupted :
    ∃ s, interrupted = some s ∧ s.checkpoint.watermark.reaches 5 = true ∧
      s.copy.ledger.state 5 = .landed := by
  obtain ⟨s, ran, saved⟩ := Option.map_eq_some_iff.mp (by decide +kernel :
    interrupted.map (fun s => s.checkpoint.watermark.reaches 5) = some true)
  have reached := reaches_of_run (fun _ _ => originsClearWhole_sound) .refl ran
  exact ⟨s, ran, saved, (shadow_follows_ledger _ _ 10 s reached 5).2.2.1 saved⟩

/-- **A restart skips nothing that was not confirmed**, whatever ran before it: it opens the stream
at or below the position the slot had, and every change that commits above that is delivered
again. -/
theorem resume_skips_nothing (setup : Setup) (base : Table) (point : LSN) (s s' : State)
    (kept : LSN) (reached : Reaches (step setup) anyStep (fresh base point) s)
    (resumed : step setup s (.resume kept) = some s') :
    s'.server.slot ≤ s.server.slot ∧ ∀ (i : ℕ) (c : Committed), s'.server.log[i]? = some c →
      s.server.slot < c.commit → s'.capture.next ≤ i := by
  have ok : Streaming s := reached.invariant (P := Streaming) (streaming_fresh base point)
    fun _ _ _ ok _ taken => ok.step (steps_of_step taken)
  have saved := ok.saved
  cases steps_of_step resumed with
  | resume bound named =>
    rw [lsn_max] at named
    refine ⟨by grind, fun i c found above => ?_⟩
    by_contra skipped
    have early := List.not_of_lt_findIdx (Nat.not_le.mp skipped)
    obtain ⟨inside, rfl⟩ := List.getElem?_eq_some_iff.mp found
    exact absurd (of_decide_eq_false early) (by grind)
  | fails failed => cases failed

theorem interrupted_resumes :
    ∃ s s', interrupted = some s ∧ step largeSetup s (.resume 10) = some s' ∧
      Reaches (step largeSetup) anyStep largeStart s := by
  obtain ⟨s, ran, goes⟩ := Option.map_eq_some_iff.mp (by decide +kernel :
    interrupted.map (fun s => (step largeSetup s (.resume 10)).isSome) = some true)
  obtain ⟨s', resumed⟩ := Option.isSome_iff_exists.mp goes
  exact ⟨s, s', ran, resumed, reaches_of_run (fun _ _ _ => trivial) .refl ran⟩

theorem resume_skips_nothing_interrupted :
    ∃ s s', interrupted = some s ∧ step largeSetup s (.resume 10) = some s' ∧
      s'.server.slot ≤ s.server.slot := by
  obtain ⟨s, s', ran, resumed, reached⟩ := interrupted_resumes
  exact ⟨s, s', ran, resumed, (resume_skips_nothing _ _ 10 s s' 10 reached resumed).1⟩

/-- **A restarted run completes the moved image from the row the first run left under 100**, which
the clear has not reached yet: caught up, it holds the value that row had been copied with. -/
theorem stale_origin_diverges :
    ∃ s, Reaches (step largeSetup) anyStep largeStart s ∧ s.caughtUp = true ∧
      s.shadow[(10 : Key)]?.map (fun row => row "t") = some (some "first") ∧
      s.server.source[(10 : Key)]?.map (fun row => row "t") = some (some "second") ∧
      ¬ Matches ["v", "t"] s.shadow[(10 : Key)]? s.server.source[(10 : Key)]? := by
  obtain ⟨s, ran, shape⟩ := Option.map_eq_some_iff.mp (by decide +kernel :
    (run (step largeSetup) (fun _ _ => true) largeStart
      (interruptedRun ++ [.resume 10] ++ replaceLarge ++ moveLarge ++ copyRest)).map (fun s =>
        (s.caughtUp, s.shadow[(10 : Key)]?.map (fun row => row "t"),
          s.server.source[(10 : Key)]?.map (fun row => row "t")))
      = some (true, some (some "first"), some (some "second")))
  simp only [Prod.mk.injEq] at shape
  obtain ⟨caughtUp, copied, held⟩ := shape
  exact ⟨s, reaches_of_run (fun _ _ _ => trivial) .refl ran, caughtUp, copied, held,
    not_matches_of_cell (by decide) copied held (by decide)⟩

/-! ### Completions -/

/-- A marker that a release fills has its value from the completion that waited under the key. -/
theorem completion_of_filled {b : Buffer} {passed : LSN} {key : Key} {e filled : Entry}
    {name : Name} {v : Value}
    (once : ∀ p : PendingCompletion, b.pending[key]? = some p → (names p.completed).Nodup)
    (stored : b.entries[key]? = some e) (marker : valueOf e.columns name = none)
    (released : (b.release passed).entries[key]? = some filled)
    (value : valueOf filled.columns name = some v) :
    ∃ p, b.pending[key]? = some p ∧ p.readLSN ≤ passed ∧ valueOf p.completed name = some v := by
  rcases Buffer.entries_release_eq_some.mp released with
    ⟨same, -⟩ | ⟨p, before, waiting, passes, same, rfl⟩
  · rw [stored, Option.some.injEq] at same
    rw [← same, marker] at value
    cases value
  · rw [stored, Option.some.injEq] at same
    subst same
    rw [valueOf_fill (once p waiting), marker, Option.none_or] at value
    exact ⟨p, waiting, passes, value⟩

theorem row_of_latestOn {h : History} {d i : ℕ} {key : Key} {c : Committed}
    (latest : LatestOn h d key i c) : h.row (i + 1) key = h.row d key := by
  obtain ⟨below, -, -, quiet⟩ := latest
  exact (History.row_eq_of_untouched below fun m c' first last found =>
    quiet m c' first last found).symm

/-- **A completion never carries another row's value**, as long as the cells refused flushes
completed images from were in place. Whatever row a held image's completion was read from, what a
release fills into a marker is what the image's own row held in that column after the image's latest
event, as the source has it or in the shadow's form. -/
theorem released_value_is_the_rows_own (setup : Setup) (base : Table) (point : LSN) (s s' : State)
    (reached : Reaches (step setup) (fun s a => Uninterrupted s a ∧ RefusedInPlace setup s a)
      (fresh base point) s)
    (released : step setup s .release = some s') (key : Key) (e filled : Entry) (name : Name)
    (v : Value) (stored : s.capture.buffer.entries[key]? = some e)
    (marker : valueOf e.columns name = none)
    (after : s'.capture.buffer.entries[key]? = some filled)
    (value : valueOf filled.columns name = some v) :
    ∃ i c row, LatestOn s.server.history s.capture.next key i c ∧
      s.server.history.row (i + 1) key = some row ∧ CarriesCell setup.flusher row name v := by
  obtain ⟨g, inv⟩ := inv_of_uninterrupted reached
  obtain ⟨gathering, rfl⟩ : s.capture.phase = .gathering ∧ s' = { s with
      capture := { s.capture with
        buffer := s.capture.buffer.release s.capture.stream.delivered, phase := .released } } := by
    cases steps_of_step released with
    | release gathering => exact ⟨gathering, rfl⟩
    | fails cause => cases cause
  have tracks := inv.tracked (by rw [Capture.batch, gathering])
  obtain ⟨p, waiting, passes, read⟩ := completion_of_filled
    (fun p waiting => (tracks.pends key p waiting).choose_spec.choose_spec.2.2.2.1) stored marker
    after value
  obtain ⟨i, c, latest, -⟩ := tracks.latest key e stored
  obtain ⟨row, here, carries⟩ :=
    tracks.released_value inv.deliveredThrough waiting passes stored read marker
  exact ⟨i, c, row, latest, (row_of_latestOn latest).trans here, carries⟩

/-- The moved row's image before and after the release that fills its marker. -/
theorem released_value_is_the_rows_own_moved :
    ∃ s s', run (step valueSetup) (goesOnWhole valueSetup) (fresh ∅ 10) (movedRowRun.take 27)
        = some s ∧ step valueSetup s .release = some s' ∧
      ∃ i c row, LatestOn s.server.history s.capture.next 6 i c ∧
        s.server.history.row (i + 1) 6 = some row ∧
        CarriesCell valueSetup.flusher row "v" (.shadowForm (some "b")) := by
  obtain ⟨s, ran, shape⟩ := Option.map_eq_some_iff.mp (by decide +kernel :
    (run (step valueSetup) (goesOnWhole valueSetup) (fresh ∅ 10) (movedRowRun.take 27)).map
    (fun s =>
      (s.capture.buffer.entries[(6 : Key)]?.map (fun e => valueOf e.columns "v"),
        (step valueSetup s .release).bind fun s' =>
          s'.capture.buffer.entries[(6 : Key)]?.map fun e => valueOf e.columns "v"))
      = some (some none, some (some (.shadowForm (some "b")))))
  rw [Prod.mk.injEq] at shape
  obtain ⟨e, stored, marker⟩ := Option.map_eq_some_iff.mp shape.1
  obtain ⟨s', released, rest⟩ := Option.bind_eq_some_iff.mp shape.2
  obtain ⟨filled, after, value⟩ := Option.map_eq_some_iff.mp rest
  have reached := reaches_of_run (fun _ _ => goesOnWhole_sound) .refl ran
  exact ⟨s, s', ran, released,
    released_value_is_the_rows_own _ ∅ 10 s s' reached released 6 e filled
    "v" _ stored marker after value⟩

/-- The row moves on to 3, its large value omitted again, and its image is held for a completion. -/
def movesOn : List Action :=
  commits [.update 3 2 (uniqueLargeRow "x" "own") ["t"]] 10 50 ++ sends 10 50 ++ flushes 11 50

/-- **A release may fill a marker with another row's value**: the shadow row under the image's old
key is the one a refused batch was requeued into. -/
theorem released_value_is_anothers :
    ∃ s s', Reaches (step uniqueLarge) Uninterrupted uniqueLargeStart s ∧
      step uniqueLarge s .release = some s' ∧ ∃ e filled,
        s.capture.buffer.entries[(3 : Key)]? = some e ∧ valueOf e.columns "t" = none ∧
        s'.capture.buffer.entries[(3 : Key)]? = some filled ∧
        valueOf filled.columns "t" = some (.shadowForm (some "another's")) ∧
        ∀ i c row, LatestOn s.server.history s.capture.next 3 i c →
          s.server.history.row (i + 1) 3 = some row →
          ¬ CarriesCell uniqueLarge.flusher row "t" (.shadowForm (some "another's")) := by
  obtain ⟨s, ran, shape⟩ := Option.map_eq_some_iff.mp (by decide +kernel :
    (run (step uniqueLarge) (fun _ a => a.continues) uniqueLargeStart
      (copiedAhead ++ refusedBetween ++ movesOn)).map (fun s =>
        (s.capture.buffer.entries[(3 : Key)]?.map (fun e => valueOf e.columns "t"),
          (s.server.history.row s.capture.next 3).map (fun row => row "t"),
          (step uniqueLarge s .release).bind fun s' =>
            s'.capture.buffer.entries[(3 : Key)]?.map fun e => valueOf e.columns "t"))
      = some (some none, some (some "own"), some (some (.shadowForm (some "another's")))))
  simp only [Prod.mk.injEq] at shape
  obtain ⟨before, source, after⟩ := shape
  obtain ⟨e, stored, marker⟩ := Option.map_eq_some_iff.mp before
  obtain ⟨x, here, own⟩ := Option.map_eq_some_iff.mp source
  obtain ⟨s', released, rest⟩ := Option.bind_eq_some_iff.mp after
  obtain ⟨filled, now, value⟩ := Option.map_eq_some_iff.mp rest
  refine ⟨s, s', reaches_of_run (fun _ _ goes => goes) .refl ran, released, e, filled,
    stored, marker, now, value, fun i c row latest held carries => ?_⟩
  rw [row_of_latestOn latest, here, Option.some.injEq] at held
  subst held
  have written := carries.written
  rw [Flusher.converted, own] at written
  exact absurd written (by decide)

end PgSprite.Live
