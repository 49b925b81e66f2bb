/-
**The checkpoint row over a run and its restarts.**

A save reads the applied position, then the landed watermark, and writes the row last; a restart may
come in between.

* `checkpoint_only_advances` — the row never goes back.
-/

import PgSprite.Copier.Progress
import PgSprite.Live.Converge

namespace PgSprite.Live

open PgSprite.Decode PgSprite.Source PgSprite.Lib PgSprite.Copier

/-- One row is as far as another. -/
structure Checkpoint.Covers (later earlier : Checkpoint) : Prop where
  landed : ∀ key, earlier.watermark.reaches key = true → later.watermark.reaches key = true
  applied : earlier.lastAppliedLSN ≤ later.lastAppliedLSN

theorem Checkpoint.Covers.refl (row : Checkpoint) : row.Covers row :=
  ⟨fun _ landed => landed, UInt64.le_refl _⟩

/-- The ledger is as far as the row, and a save under way lies between them. -/
structure Advancing (s : State) : Prop where
  tiled : s.copy.ledger.Tiled
  row : ∀ key, s.checkpoint.watermark.reaches key = true →
    s.copy.ledger.watermark.reaches key = true
  applied : ∀ lsn, s.saving = .applied lsn → s.checkpoint.lastAppliedLSN ≤ lsn
  saving : ∀ row, s.saving = .row row → row.Covers s.checkpoint ∧
    ∀ key, row.watermark.reaches key = true → s.copy.ledger.watermark.reaches key = true

section Advancing

variable {setup : Setup} {s s' : State} {a : Action}

theorem advancing_of_idle (idle : s.saving = .idle) (tiled : s.copy.ledger.Tiled)
    (row : ∀ key, s.checkpoint.watermark.reaches key = true →
      s.copy.ledger.watermark.reaches key = true) : Advancing s where
  tiled := tiled
  row := row
  applied lsn saving := by
    rw [idle] at saving
    cases saving
  saving row saving := by
    rw [idle] at saving
    cases saving

theorem Advancing.ledger {copy : Copy} (ok : Advancing s) (tiled : copy.ledger.Tiled)
    (further : ∀ key, s.copy.ledger.watermark.reaches key = true →
      copy.ledger.watermark.reaches key = true) : Advancing { s with copy } where
  tiled := tiled
  row key saved := further key (ok.row key saved)
  applied := ok.applied
  saving row saving :=
    ⟨(ok.saving row saving).1, fun key landed => further key ((ok.saving row saving).2 key landed)⟩

/-- A step takes the row no further back, and keeps the ledger and a save under way ahead of it. -/
theorem Advancing.step (ok : Advancing s) (taken : Steps setup s a s') :
    Advancing s' ∧ s'.checkpoint.Covers s.checkpoint := by
  cases taken with
  | claim _ claimed =>
    refine ⟨ok.ledger (Ledger.claim_tiled ok.tiled claimed) fun key landed => ?_, .refl _⟩
    rw [Ledger.claim] at claimed
    split at claimed <;> cases claimed
    exact landed
  | land _ lands =>
    refine ⟨ok.ledger (Ledger.land_tiled ok.tiled lands) fun key landed => ?_, .refl _⟩
    obtain ⟨member, rfl⟩ := Ledger.land_eq lands
    exact reaches_advance _ (Ledger.landing_tiled ok.tiled member) landed
  | settle _ settled =>
    refine ⟨ok.ledger (Ledger.settle_tiled ok.tiled settled) fun key landed => ?_, .refl _⟩
    rw [Ledger.settle] at settled
    split at settled <;> cases settled
    exact landed
  | readApplied =>
    refine ⟨⟨ok.tiled, ok.row, fun lsn saving => ?_, fun row saving => ?_⟩, .refl _⟩
    · cases saving
      rw [lsn_max]
      grind
    · cases saving
  | readLanded read =>
    refine ⟨⟨ok.tiled, ok.row, fun lsn saving => ?_, fun row saving => ?_⟩, .refl _⟩
    · cases saving
    · cases saving
      exact ⟨⟨ok.row, ok.applied _ read⟩, fun _ landed => landed⟩
  | unmoved => exact ⟨advancing_of_idle rfl ok.tiled ok.row, .refl _⟩
  | save saving =>
    obtain ⟨further, landed⟩ := ok.saving _ saving
    exact ⟨advancing_of_idle rfl ok.tiled landed, further⟩
  | saveApplied idle =>
    refine ⟨advancing_of_idle idle ok.tiled ok.row, fun _ landed => landed, ?_⟩
    dsimp only
    rw [lsn_max]
    grind
  | resume =>
    -- the next run's ledger starts at the row's own watermark
    exact ⟨advancing_of_idle rfl (Ledger.newLedger_tiled _) fun _ landed => landed, .refl _⟩
  | _ => exact ⟨⟨ok.tiled, ok.row, ok.applied, ok.saving⟩, .refl _⟩

end Advancing

/-- **The row never goes back**, whatever happens in between: restarts, faults, saves that a restart
cuts off. -/
theorem checkpoint_only_advances (setup : Setup) (base : Table) (point : LSN) (s s' : State)
    (reached : Reaches (step setup) anyStep (fresh base point) s)
    (later : Reaches (step setup) anyStep s s') : s'.checkpoint.Covers s.checkpoint := by
  have ok : Advancing s := reached.invariant (P := Advancing)
    (advancing_of_idle rfl (Ledger.newLedger_tiled _) fun _ landed => landed)
    fun _ _ _ ok _ taken => (ok.step (steps_of_step taken)).1
  refine (later.invariant (P := fun s' => Advancing s' ∧ s'.checkpoint.Covers s.checkpoint)
    ⟨ok, .refl _⟩ fun t a t' kept _ taken => ?_).2
  obtain ⟨after, further⟩ := kept.1.step (steps_of_step taken)
  exact ⟨after, fun key landed => further.landed key (kept.2.landed key landed),
    UInt64.le_trans kept.2.applied further.applied⟩

theorem checkpoint_only_advances_interrupted :
    ∃ s s', interrupted = some s ∧ step (Setup.bare ["v", "t"]) s (.resume 10) = some s' ∧
      s'.checkpoint.Covers s.checkpoint := by
  obtain ⟨s, s', ran, resumed, reached⟩ := interrupted_resumes
  exact ⟨s, s', ran, resumed,
    checkpoint_only_advances _ _ 10 s s' reached (.step .refl trivial resumed)⟩

end PgSprite.Live
