/-
**What each step of a live run can do.**

`Steps s a s'` lists the outcomes of every action with what its part found before it: one
constructor for each way the action succeeds, and `fails` for the ways it ends the catch-up, whose
causes `Fails` lists. `steps_of_step` says that `step` does nothing else. Everything that is proved
of runs goes by cases on `Steps`.
-/

import PgSprite.Live.System

namespace PgSprite.Live

open Std PgSprite.Decode PgSprite.Source PgSprite.Lib PgSprite.Applier PgSprite.Copier

/-- The next run: an empty buffer over the stream reopened at the row's position, which delivers
what commits above `start`. -/
abbrev State.resumed (s : State) (start : LSN) : State :=
  { s with
    server := { s.server with slot := start }
    capture := {
      stream := { start := s.checkpoint.lastAppliedLSN, delivered := s.checkpoint.lastAppliedLSN }
      next := s.server.log.findIdx fun c => decide (start < c.commit) }
    copy := { ledger := .newLedger s.checkpoint.watermark }
    saving := .idle }

/-- Why an action ends the catch-up and leaves everything else as it was. -/
inductive Fails (setup : Setup) (s : State) : Action → Fault → Prop
  | sendBegin {xid : Xid} {lsn : LSN} {err : StreamError} :
      s.capture.sending = none → s.capture.stream.handleBegin xid = .error err →
      Fails setup s (.sendBegin xid lsn) (.stream err)
  | changeOutside {c : Committed} {err : StreamError} :
      s.capture.sending = some c.commit → s.capture.stream.inTransaction = false →
      Fails setup s .sendChange (.stream err)
  | add {c : Committed} {v : Violation} :
      s.capture.phase = .gathering → s.server.log[s.capture.next]? = some c →
      s.capture.buffer.add
        (c.change.event setup.relation s.capture.stream.delivered c.xid) = .error v →
      Fails setup s .sendChange (.violation v)
  | sendCommit {lsn : LSN} {err : StreamError} :
      s.capture.sending = some lsn → s.capture.stream.handleCommit lsn = .error err →
      Fails setup s .sendCommit (.stream err)
  | cannotConverge {readLSN : LSN} {pos : Position} {batch : Batch} {key : Key}
      {kind : ConstraintKind} :
      s.capture.phase = .drained pos batch → s.server.readAt readLSN = true →
      setup.flusher.flush setup.constraints (s.reads readLSN) batch
        = .error (.batchDeferred key kind) → copyLanded pos = true →
      Fails setup s (.flush readLSN) (.cannotConverge key kind)
  | requeue {readLSN : LSN} {pos : Position} {batch : Batch} {key : Key} {kind : ConstraintKind}
      {v : Violation} :
      s.capture.phase = .drained pos batch →
      setup.flusher.flush setup.constraints (s.reads readLSN) batch
        = .error (.batchDeferred key kind) →
      s.capture.buffer.requeue (setup.flusher.leftIn (s.reads readLSN) batch) = .error v →
      Fails setup s (.flush readLSN) (.violation v)
  | violation {readLSN : LSN} {pos : Position} {batch : Batch} {v : Violation} :
      s.capture.phase = .drained pos batch → s.server.readAt readLSN = true →
      setup.flusher.flush setup.constraints (s.reads readLSN) batch = .error (.violation v) →
      Fails setup s (.flush readLSN) (.violation v)
  | refused {readLSN : LSN} {pos : Position} {batch : Batch} {key : Key} {kind : ConstraintKind} :
      s.capture.phase = .drained pos batch → s.server.readAt readLSN = true →
      setup.flusher.flush setup.constraints (s.reads readLSN) batch
        = .error (.refused key kind) →
      Fails setup s (.flush readLSN) (.refused key kind)
  | confirm {err : StreamError} :
      s.capture.phase = .applied →
      s.capture.stream.confirmed
        < confirmBound s.capture.stream.delivered s.capture.buffer.oldestPending →
      s.capture.stream.confirm
        (confirmBound s.capture.stream.delivered s.capture.buffer.oldestPending) = .error err →
      Fails setup s .confirm (.stream err)

/-- The outcomes of each action. -/
inductive Steps (setup : Setup) (s : State) : Action → State → Prop
  | fails {a : Action} {fault : Fault} : Fails setup s a fault → Steps setup s a (s.fail fault)
  | commit {changes : List Change} {id : UInt64} {lsn : LSN} {server : Server} :
      s.server.commit changes id lsn = some server →
      Steps setup s (.commit changes id lsn) { s with server }
  | becomeVisible (lsn : LSN) :
      Steps setup s (.becomeVisible lsn) { s with server := s.server.becomeVisible lsn }
  | keepalive {walEnd : LSN} :
      s.capture.phase = .gathering →
      (s.capture.stream.inTransaction = false → ∀ (i : ℕ) (c : Committed), s.capture.next ≤ i →
        s.server.log[i]? = some c → walEnd < c.commit) →
      Steps setup s (.keepalive walEnd) { s with
        server := { s.server with wal := max s.server.wal walEnd }
        capture := { s.capture with stream := s.capture.stream.handleKeepalive walEnd } }
  | sendBegin {xid : Xid} {lsn : LSN} :
      s.capture.phase = .gathering → s.capture.sending = none → lsn ≤ s.server.wal →
      (∀ c, s.server.log[s.capture.next]? = some c → lsn ≤ c.commit) →
      Steps setup s (.sendBegin xid lsn) { s with
        capture := { s.capture with
          stream := { s.capture.stream with inTransaction := true, xid }, sending := some lsn } }
  | sendChange {c : Committed} {buffer : Buffer} :
      s.capture.phase = .gathering → s.server.log[s.capture.next]? = some c →
      s.capture.sending = some c.commit →
      s.capture.buffer.add
        (c.change.event setup.relation s.capture.stream.delivered c.xid) = .ok buffer →
      Steps setup s .sendChange { s with
        capture := { s.capture with buffer, next := s.capture.next + 1 } }
  | sendCommit {lsn : LSN} :
      s.capture.phase = .gathering → s.capture.sending = some lsn →
      (∀ c, s.server.log[s.capture.next]? = some c → c.commit ≠ lsn) →
      Steps setup s .sendCommit { s with
        capture := { s.capture with
          stream := Stream.raiseDelivered { s.capture.stream with inTransaction := false } lsn
          sending := none } }
  | release :
      s.capture.phase = .gathering →
      Steps setup s .release { s with
        capture := { s.capture with
          buffer := s.capture.buffer.release s.capture.stream.delivered, phase := .released } }
  | pause :
      s.capture.phase = .released →
      Steps setup s .pause { s with capture := { s.capture with phase := .applied } }
  | snapshot {snap : Snapshot} :
      s.capture.phase = .released → (s.capture.buffer.len ≠ 0 → s.server.reports snap = true) →
      Steps setup s (.snapshot snap) { s with
        capture := { s.capture with phase := .snapped snap } }
  | drain {snap : Snapshot} :
      s.capture.phase = .snapped snap →
      Steps setup s .drain { s with
        capture := { s.capture with
          buffer := (s.capture.buffer.drain s.copy.ledger.position snap).1
          phase := .drained s.copy.ledger.position
            (s.capture.buffer.drain s.copy.ledger.position snap).2 } }
  | flush {readLSN : LSN} {pos : Position} {batch : Batch} {after : Table} {result : Result}
      {buffer : Buffer} :
      s.capture.phase = .drained pos batch → s.server.readAt readLSN = true →
      setup.flusher.flush setup.constraints (s.reads readLSN) batch = .ok (after, result) →
      s.capture.buffer.hold result.held = .ok buffer →
      Steps setup s (.flush readLSN) { s with
        shadow := after, capture := { s.capture with buffer, phase := .applied } }
  | holdFails {readLSN : LSN} {pos : Position} {batch : Batch} {after : Table} {result : Result}
      {v : Violation} :
      s.capture.phase = .drained pos batch → s.server.readAt readLSN = true →
      setup.flusher.flush setup.constraints (s.reads readLSN) batch = .ok (after, result) →
      s.capture.buffer.hold result.held = .error v →
      Steps setup s (.flush readLSN) { s.fail (.violation v) with shadow := after }
  | requeue {readLSN : LSN} {pos : Position} {batch : Batch} {key : Key} {kind : ConstraintKind}
      {buffer : Buffer} :
      s.capture.phase = .drained pos batch → s.server.readAt readLSN = true →
      setup.flusher.flush setup.constraints (s.reads readLSN) batch
        = .error (.batchDeferred key kind) → copyLanded pos = false →
      s.capture.buffer.requeue (setup.flusher.leftIn (s.reads readLSN) batch) = .ok buffer →
      Steps setup s (.flush readLSN) { s with
        capture := { s.capture with buffer, phase := .applied } }
  | confirmed :
      s.capture.phase = .applied →
      Steps setup s .confirm { s with capture := { s.capture with phase := .confirmed } }
  | confirm {bound : LSN} :
      s.capture.phase = .applied →
      bound = confirmBound s.capture.stream.delivered s.capture.buffer.oldestPending →
      s.capture.stream.confirmed < bound →
      Steps setup s .confirm { s with
        server := s.server.advanceSlot bound
        capture := { s.capture with
          stream := { s.capture.stream with confirmed := bound }, phase := .confirmed } }
  | record :
      s.capture.phase = .confirmed →
      Steps setup s .record { s with
        capture := { s.capture with
          recorded := s.capture.stream.confirmed, phase := .gathering } }
  | clearNothing {limit : ℕ} :
      s.copy.cleared = false → (startAfter s.copy.ledger.watermark).2 = true →
      Steps setup s (.clear limit) { s with copy := { s.copy with cleared := true } }
  | clear {limit : ℕ} {lower : Key} {removed : List Key} :
      s.copy.cleared = false → startAfter s.copy.ledger.watermark = (lower, false) →
      removed = (s.shadow.keys.filter fun key => decide (lower ≤ key)).take limit →
      Steps setup s (.clear limit) { s with
        shadow := removed.foldl (fun shadow key => shadow.erase key) s.shadow
        copy := { s.copy with cleared := decide (removed.length < limit) } }
  | claim {chunk : Chunk} {ledger : Ledger} :
      s.copy.cleared = true → s.copy.ledger.claim chunk = some ledger →
      Steps setup s (.claim chunk) { s with copy := { s.copy with ledger } }
  | read {chunk : Chunk} :
      s.copy.passes chunk = .idle → chunk ∈ s.copy.ledger.inFlight →
      Steps setup s (.read chunk) { s with
        copy := { s.copy with
          passes := Function.update s.copy.passes chunk
            (.reading (s.server.shown.filter fun key _ => s.copy.owes chunk key)) } }
  | abort {chunk : Chunk} {rows : Table} :
      s.copy.passes chunk = .reading rows →
      Steps setup s (.abort chunk) { s with
        copy := { s.copy with passes := Function.update s.copy.passes chunk .idle } }
  | commitPass {chunk : Chunk} {refused : List Key} {rows : Table} {added : List (Key × Row)} :
      s.copy.passes chunk = .reading rows → added = State.inserted s.shadow rows refused →
      Steps setup s (.commitPass chunk refused) { s with
        shadow := added.foldl (fun shadow entry =>
          shadow.insert entry.1 (setup.flusher.convertedRow entry.2)) s.shadow
        copy := { s.copy with
          passes := Function.update s.copy.passes chunk (.committed (Int64.ofNat added.length)
            (rows.keys.filter fun key => !s.shadow.contains key && refused.contains key)) } }
  | land {chunk : Chunk} {count rows : Int64} {ledger : Ledger} :
      s.copy.passes chunk = .committed count [] → s.copy.ledger.land chunk rows = some ledger →
      Steps setup s (.recordPass chunk) { s with
        copy := { s.copy with ledger, passes := Function.update s.copy.passes chunk .idle } }
  | settle {chunk : Chunk} {count rows : Int64} {held : List Key} {ledger : Ledger} :
      s.copy.passes chunk = .committed count held →
      s.copy.ledger.settle chunk rows held = some ledger →
      Steps setup s (.recordPass chunk) { s with
        copy := { s.copy with ledger, passes := Function.update s.copy.passes chunk .idle } }
  | readApplied :
      s.saving = .idle →
      Steps setup s .readApplied { s with
        saving := .applied (max s.checkpoint.lastAppliedLSN s.capture.recorded) }
  | unmoved {lsn : LSN} :
      s.saving = .applied lsn → Steps setup s .readLanded { s with saving := .idle }
  | readLanded {lsn : LSN} :
      s.saving = .applied lsn →
      Steps setup s .readLanded { s with saving := .row ⟨s.copy.ledger.watermark, lsn⟩ }
  | save {row : Checkpoint} :
      s.saving = .row row →
      Steps setup s .save { s with checkpoint := row, saving := .idle }
  | saveApplied :
      s.saving = .idle → s.checkpoint.watermark.complete = true →
      Steps setup s .saveApplied { s with
        checkpoint := { s.checkpoint with
          lastAppliedLSN := max s.checkpoint.lastAppliedLSN s.capture.recorded } }
  | resume {kept start : LSN} :
      kept ≤ s.server.slot → start = max s.checkpoint.lastAppliedLSN kept →
      Steps setup s (.resume kept) (s.resumed start)

section Inversion

variable {setup : Setup} {s s' : State}

theorem withCapture_eq {move : Capture → Option Capture} (taken : s.withCapture move = some s') :
    ∃ capture, move s.capture = some capture ∧ s' = { s with capture } := by
  rw [State.withCapture] at taken
  split at taken
  · obtain ⟨capture, moved, rfl⟩ := Option.map_eq_some_iff.mp taken
    exact ⟨capture, moved, rfl⟩
  · cases taken

theorem lt_of_all_drop {log : List Committed} {next i : ℕ} {c : Committed} {lsn : LSN}
    (all : ((log.drop next).all fun c => decide (lsn < c.commit)) = true) (past : next ≤ i)
    (found : log[i]? = some c) : lsn < c.commit := by
  have member : c ∈ log.drop next := by
    refine List.mem_of_getElem? (i := i - next) ?_
    rw [List.getElem?_drop, Nat.add_sub_cancel' past]
    exact found
  simpa using List.all_eq_true.mp all c member

theorem keepalive_steps {walEnd : LSN} (taken : s.keepalive walEnd = some s') :
    Steps setup s (.keepalive walEnd) s' := by
  rw [State.keepalive] at taken
  split at taken
  next guards =>
    simp only [Bool.and_eq_true, decide_eq_true_eq, Bool.or_eq_true] at guards
    cases taken
    refine .keepalive guards.1.2 fun outside i c past found => ?_
    rcases guards.2 with inside | all
    · rw [outside] at inside
      cases inside
    · exact lt_of_all_drop all past found
  next => cases taken

/-- The begin is sent for the next transaction of the log. -/
theorem sendBegin_steps {xid : Xid} {lsn : LSN} (taken : s.sendBegin xid lsn = some s') :
    Steps setup s (.sendBegin xid lsn) s' := by
  rw [State.sendBegin] at taken
  obtain ⟨guards, taken⟩ := Option.ite_none_right_eq_some.mp taken
  simp only [Bool.and_eq_true, decide_eq_true_eq] at guards
  obtain ⟨⟨⟨⟨-, gathering⟩, sending⟩, written⟩, order⟩ := guards
  split at taken
  next stream begun =>
    cases taken
    have bound : ∀ c, s.server.log[s.capture.next]? = some c → lsn ≤ c.commit := by
      intro c found
      simp only [found, Bool.or_eq_true, Bool.and_eq_true, decide_eq_true_eq] at order
      grind
    rw [Stream.handleBegin] at begun
    split at begun
    · cases begun
    · cases begun
      exact .sendBegin gathering sending written bound
  next err refused =>
    cases taken
    exact .fails (.sendBegin sending refused)

/-- A change sent is buffered, or its fault stops the capture. -/
theorem sendChange_steps (taken : s.sendChange setup = some s') :
    Steps setup s .sendChange s' := by
  rw [State.sendChange] at taken
  split at taken
  · cases taken
  next c found =>
    split at taken
    next guards =>
      simp only [Bool.and_eq_true, decide_eq_true_eq] at guards
      obtain ⟨⟨⟨-, gathering⟩, sending⟩, xid⟩ := guards
      rw [Stream.deliverChange, xid] at taken
      split at taken
      next err outside =>
        cases taken
        refine .fails (.changeOutside sending ?_)
        by_contra inside
        rw [Bool.not_eq_false] at inside
        rw [if_pos inside] at outside
        cases outside
      next ev delivered =>
        split at delivered
        · cases delivered
          split at taken
          next buffer added =>
            cases taken
            exact .sendChange gathering found sending added
          next v refused =>
            cases taken
            exact .fails (.add gathering found refused)
        · cases delivered
    next => cases taken

/-- The end is sent once no change of the transaction is left. -/
theorem sendCommit_steps (taken : s.sendCommit = some s') : Steps setup s .sendCommit s' := by
  rw [State.sendCommit] at taken
  split at taken
  · cases taken
  next lsn sending =>
    obtain ⟨guards, taken⟩ := Option.ite_none_right_eq_some.mp taken
    simp only [Bool.and_eq_true, decide_eq_true_eq] at guards
    obtain ⟨⟨-, gathering⟩, ended⟩ := guards
    split at taken
    next stream committed =>
      cases taken
      rw [Stream.handleCommit] at committed
      split at committed
      · cases committed
        refine .sendCommit gathering sending fun c found => ?_
        simpa [found] using ended
      · cases committed
    next err refused =>
      cases taken
      exact .fails (.sendCommit sending refused)

theorem snapshot_steps {snap : Snapshot} (taken : s.snapshot snap = some s') :
    Steps setup s (.snapshot snap) s' := by
  obtain ⟨capture, moved, rfl⟩ := withCapture_eq taken
  obtain ⟨guards, moved⟩ := Option.ite_none_right_eq_some.mp moved
  simp only [Bool.and_eq_true, decide_eq_true_eq] at guards
  cases moved
  refine .snapshot guards.1 fun some => ?_
  simpa [some] using guards.2

/-- A flush applies and holds, or requeues, or stops the capture. -/
theorem flush_steps {readLSN : LSN} (taken : s.flush setup readLSN = some s') :
    Steps setup s (.flush readLSN) s' := by
  rw [State.flush] at taken
  split at taken
  next pos batch phase =>
    split at taken
    next guards =>
      simp only [Bool.and_eq_true, decide_eq_true_eq] at guards
      split at taken
      next after result flushed =>
        split at taken
        next buffer held =>
          cases taken
          exact .flush phase guards.2 flushed held
        next v refused =>
          cases taken
          exact .holdFails phase guards.2 flushed refused
      next key kind deferred =>
        split at taken
        next landed =>
          cases taken
          exact .fails (.cannotConverge phase guards.2 deferred landed)
        next owing =>
          split at taken
          next buffer requeued =>
            cases taken
            exact .requeue phase guards.2 deferred (Bool.eq_false_iff.mpr owing) requeued
          next v refused =>
            cases taken
            exact .fails (.requeue phase deferred refused)
      next v violated =>
        cases taken
        exact .fails (.violation phase guards.2 violated)
      next key kind refused =>
        cases taken
        exact .fails (.refused phase guards.2 refused)
    next => cases taken
  next => cases taken

/-- A confirmation is taken after the batch, at the bound it computes. -/
theorem confirm_steps (taken : s.confirm = some s') : Steps setup s .confirm s' := by
  rw [State.confirm] at taken
  split at taken
  next guards =>
    simp only [Bool.and_eq_true, decide_eq_true_eq] at guards
    simp only at taken
    split at taken
    next =>
      cases taken
      exact .confirmed guards.2
    next later =>
      have above : s.capture.stream.confirmed
          < confirmBound s.capture.stream.delivered s.capture.buffer.oldestPending := by grind
      split at taken
      next stream moved =>
        cases taken
        rw [Stream.confirm] at moved
        split at moved
        · cases moved
        · split at moved
          · cases moved
          · cases moved
            exact .confirm guards.2 rfl above
      next err refused =>
        cases taken
        exact .fails (.confirm guards.2 above refused)
  next => cases taken

theorem clear_steps {limit : ℕ} (taken : s.clear limit = some s') :
    Steps setup s (.clear limit) s' := by
  rw [State.clear] at taken
  split at taken
  · cases taken
  next unfinished =>
    rw [Bool.not_eq_true] at unfinished
    split at taken
    next done =>
      cases taken
      exact .clearNothing unfinished (by rw [done])
    next lower above =>
      cases taken
      exact .clear unfinished above rfl

theorem read_steps {chunk : Chunk} (taken : s.read chunk = some s') :
    Steps setup s (.read chunk) s' := by
  rw [State.read] at taken
  split at taken
  next idle =>
    split at taken
    next member =>
      cases taken
      exact .read idle (List.contains_iff_mem.mp member)
    next => cases taken
  next => cases taken

theorem commitPass_steps {chunk : Chunk} {refused : List Key}
    (taken : s.commitPass setup chunk refused = some s') :
    Steps setup s (.commitPass chunk refused) s' := by
  rw [State.commitPass] at taken
  split at taken
  next rows reading =>
    simp only at taken
    split at taken
    next =>
      cases taken
      exact .commitPass reading rfl
    next => cases taken
  next => cases taken

theorem recordPass_steps {chunk : Chunk} (taken : s.recordPass chunk = some s') :
    Steps setup s (.recordPass chunk) s' := by
  rw [State.recordPass] at taken
  split at taken
  next count held committed =>
    obtain ⟨ledger, moved, rfl⟩ := Option.map_eq_some_iff.mp taken
    split at moved
    next none =>
      rw [List.isEmpty_iff] at none
      subst none
      exact .land committed moved
    next => exact .settle committed moved
  next => cases taken

theorem readLanded_steps (taken : s.readLanded = some s') : Steps setup s .readLanded s' := by
  rw [State.readLanded] at taken
  split at taken
  next lsn applied =>
    simp only at taken
    split at taken
    · cases taken
      exact .unmoved applied
    · cases taken
      exact .readLanded applied
  next => cases taken

theorem resume_steps {kept : LSN} (taken : s.resume kept = some s') :
    Steps setup s (.resume kept) s' := by
  rw [State.resume] at taken
  split at taken
  next bound =>
    split at taken
    · cases taken
    next stream opened =>
      rw [Stream.openStream] at opened
      split at opened
      · cases opened
      · cases opened
        cases taken
        exact .resume bound rfl
  next => cases taken

/-- **A step does nothing that `Steps` does not list.** -/
theorem steps_of_step {a : Action} (taken : step setup s a = some s') : Steps setup s a s' := by
  cases a with
  | commit changes id lsn =>
    obtain ⟨server, committed, rfl⟩ := Option.map_eq_some_iff.mp taken
    exact .commit committed
  | becomeVisible lsn =>
    cases taken
    exact .becomeVisible lsn
  | keepalive walEnd => exact keepalive_steps taken
  | sendBegin xid lsn => exact sendBegin_steps taken
  | sendChange => exact sendChange_steps taken
  | sendCommit => exact sendCommit_steps taken
  | release =>
    rw [step, State.release] at taken
    obtain ⟨capture, moved, rfl⟩ := withCapture_eq taken
    obtain ⟨phase, ⟨⟩⟩ := Option.ite_none_right_eq_some.mp moved
    exact .release phase
  | pause =>
    rw [step, State.pause] at taken
    obtain ⟨capture, moved, rfl⟩ := withCapture_eq taken
    obtain ⟨phase, ⟨⟩⟩ := Option.ite_none_right_eq_some.mp moved
    exact .pause phase
  | snapshot snap => exact snapshot_steps taken
  | drain =>
    rw [step, State.drain] at taken
    obtain ⟨capture, moved, rfl⟩ := withCapture_eq taken
    split at moved
    next snap phase =>
      cases moved
      exact .drain phase
    next => cases moved
  | flush readLSN => exact flush_steps taken
  | confirm => exact confirm_steps taken
  | record =>
    rw [step, State.record] at taken
    obtain ⟨capture, moved, rfl⟩ := withCapture_eq taken
    obtain ⟨phase, ⟨⟩⟩ := Option.ite_none_right_eq_some.mp moved
    exact .record phase
  | clear limit => exact clear_steps taken
  | claim chunk =>
    rw [step, State.claim] at taken
    obtain ⟨cleared, moved⟩ := Option.ite_none_right_eq_some.mp taken
    obtain ⟨ledger, claimed, rfl⟩ := Option.map_eq_some_iff.mp moved
    exact .claim cleared claimed
  | read chunk => exact read_steps taken
  | abort chunk =>
    simp only [step, State.abort] at taken
    split at taken
    next rows reading =>
      cases taken
      exact .abort reading
    next => cases taken
  | commitPass chunk refused => exact commitPass_steps taken
  | recordPass chunk => exact recordPass_steps taken
  | readApplied =>
    rw [step, State.readApplied] at taken
    obtain ⟨idle, ⟨⟩⟩ := Option.ite_none_right_eq_some.mp taken
    exact .readApplied idle
  | readLanded => exact readLanded_steps taken
  | save =>
    simp only [step, State.save] at taken
    split at taken
    next row saving =>
      cases taken
      exact .save saving
    next => cases taken
  | saveApplied =>
    rw [step, State.saveApplied] at taken
    obtain ⟨guards, ⟨⟩⟩ := Option.ite_none_right_eq_some.mp taken
    simp only [Bool.and_eq_true, decide_eq_true_eq] at guards
    exact .saveApplied guards.1 guards.2
  | resume kept => exact resume_steps taken

end Inversion

end PgSprite.Live
