/-
**A live run and its swap.**

The swap ends the catch-up and drops what it buffered. Under its lock it reopens the stream at the
row's position, gathers every change the stream delivers from there, and applies them.

* `swap_after_live_exact` — whatever the live run left to it, the drain ends on the source, and it
  succeeds unless a held image stands in its way.
-/

import PgSprite.Live.Converge
import PgSprite.SchemaChange.SwapDrain

namespace PgSprite.SchemaChange

open Std PgSprite.Decode PgSprite.Source PgSprite.Lib PgSprite.Applier PgSprite.Copier PgSprite.Live

theorem startAfter_of_complete {w : Watermark} (complete : w.complete = true) :
    (startAfter w).2 = true := by
  cases w with
  | none => cases complete
  | some value => rw [startAfter, if_pos complete]

/-- What the buffer and the shadow are when the swap's drain starts. -/
theorem swapping_of_live {setup : Setup} {base : Table} {point kept : LSN} {s s' : State}
    {events : List (Committed × LSN)} {b : Buffer}
    (reached : Reaches (step setup) (fun s a => OriginsClear s a ∧ RefusedInPlace setup s a)
      (fresh base point) s)
    (reopened : step setup s (.resume kept) = some s')
    (complete : s.checkpoint.watermark.complete = true)
    (sent : events.map Prod.fst = s'.server.log.drop s'.capture.next)
    (gathers : gather setup.relation .new events = .ok b) :
    (∃ g, Swapping setup.flusher setup.relation s.server.history g b s.shadow) ∧ Quiet b := by
  obtain ⟨pristine, g, inv⟩ := inv_of_originsClear reached
  have nothing : Quiet Buffer.new := fun key => by simp [Buffer.new]
  cases steps_of_step reopened with
  | resume bound named =>
    have next := inv.resume bound named
    refine ⟨gather_tracks (b := .new) inv.streaming.server.valid setup.decodes
      List.findIdx_le_length sent.symm next.tracks (fun key => ?_) gathers, nothing.gather gathers⟩
    have landed := next.saved key (reaches_of_complete (startAfter_of_complete complete))
    exact (next.copied.landed key landed).imp fun _ held => held.mono fun _ _ => rfl
  | fails failed => cases failed

/-- **A live run and its swap end on the source.** The swap's drain goes through exactly when no
held image stands in its way, given that the source's rows satisfy the shadow's constraints. -/
theorem swap_after_live_exact (setup : Setup) (base : Table) (point kept : LSN) (s s' : State)
    (reached : Reaches (step setup) (fun s a => OriginsClear s a ∧ RefusedInPlace setup s a)
      (fresh base point) s)
    (complete : s.checkpoint.watermark.complete = true)
    (reopened : step setup s (.resume kept) = some s') (events : List (Committed × LSN))
    (sent : events.map Prod.fst = s'.server.log.drop s'.capture.next) (b : Buffer)
    (gathers : gather setup.relation .new events = .ok b) (first second : LSN) :
    (setup.flusher.Satisfies setup.constraints (fun key => s.server.source[key]?) →
        ((∃ after, flushAll setup.flusher setup.constraints s.checkpoint.watermark s.server.source
            first second b s.shadow = .ok after) ↔
          HeldClear setup.flusher setup.constraints setup.relation b s.shadow s.server.source)) ∧
      ∀ after, flushAll setup.flusher setup.constraints s.checkpoint.watermark s.server.source
          first second b s.shadow = .ok after →
        ∀ key : Key, Matches setup.flusher.columns after[key]?
          (s.server.source[key]?.map setup.flusher.convertedRow) := by
  obtain ⟨⟨g, swapping⟩, quiet⟩ := swapping_of_live reached reopened complete sent gathers
  refine ⟨fun satisfies => ⟨fun flushes => ?_, swapping.succeeds quiet complete satisfies⟩,
    fun after flushed => swapping.exact quiet complete flushed⟩
  obtain ⟨after, flushed⟩ := flushes
  exact swapping.heldClear quiet complete flushed

/-- The copy lands every key and the row is saved; then the source's row moves, with its large value
omitted. -/
def movedAfterCopy : List Action :=
  [.clear 10, .claim everyKey] ++ copies everyKey ++
    [.readApplied, .readLanded, .save, .commit [.update 10 100 (largeRow "first") ["t"]] 7 20]

def sentAgain (s' : State) : List (Committed × LSN) :=
  (s'.server.log.drop s'.capture.next).map fun c => (c, 10)

theorem movedAfterCopy_swaps : ((run (step largeSetup) (originsClearWhole largeSetup) largeStart
      movedAfterCopy).bind fun s =>
        (step largeSetup s (.resume 10)).map fun s' =>
          (s.checkpoint.watermark.complete,
            (drainInto largeSetup.flusher .none ["v", "t"] s.checkpoint.watermark
              s.server.source 20 20 (sentAgain s') s.shadow).map (fun after => after.contains 10)))
    = some (true, .ok true) := by
  decide +kernel

/-- A row moved after the copy was complete. -/
theorem swap_after_live_exact_moved :
    ∃ (s s' : State) (after : Table), step largeSetup s (.resume 10) = some s' ∧
      s.checkpoint.watermark.complete = true ∧ after.contains 10 = true ∧
      Matches ["v", "t"] after[(10 : Key)]?
        (s.server.source[(10 : Key)]?.map largeSetup.flusher.convertedRow) := by
  obtain ⟨s, ran, swaps⟩ := Option.bind_eq_some_iff.mp movedAfterCopy_swaps
  obtain ⟨s', reopened, shape⟩ := Option.map_eq_some_iff.mp swaps
  rw [Prod.mk.injEq] at shape
  obtain ⟨after, drained, there⟩ := map_ok.mp shape.2
  obtain ⟨b, gathers, flushed⟩ := drainInto_ok drained
  have reached := reaches_of_run (fun _ _ => originsClearWhole_sound) .refl ran
  have sent : (sentAgain s').map Prod.fst = s'.server.log.drop s'.capture.next := by
    rw [sentAgain, List.map_map]
    exact List.map_id _
  exact ⟨s, s', after, reopened, shape.1, there, (swap_after_live_exact largeSetup _ 10 10
    s s' reached shape.1 reopened _ sent b gathers 20 20).2 after flushed 10⟩

end PgSprite.SchemaChange
