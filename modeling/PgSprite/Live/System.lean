/-
**A live run: the source, the stream, the catch-up, the copier and the checkpoint row.**

The parts run beside each other and meet only in the shadow, the ledger's position, the slot and
the checkpoint row, so a run is any interleaving of their atomic steps. `step s a` is the state
action `a` leads to; it is `none` where the action's own part is not at that point of its work, or
where the server would not do it.

The catch-up's cycle is cut at every point where another part can come between: after its release,
its snapshot, its drain against the copier's position, its flush, its confirmation. A chunk is
claimed, read, committed and only then recorded in the ledger. The saver reads the applied position
before the landed watermark and writes the row after both. A run can be stopped anywhere; `resume`
is the next run's start from the row, whose copier then clears the shadow above the row's watermark
while the catch-up it started is already running.
-/

import PgSprite.Copier.Ledger
import PgSprite.Decode.Stream
import PgSprite.Lib.Run
import PgSprite.Live.Server

namespace PgSprite.Live

open Std PgSprite.Decode PgSprite.Source PgSprite.Lib PgSprite.Applier PgSprite.Copier

/-- What a run is set up with: the flusher and its shadow's constraints, and the relation's columns
as the stream decodes them. -/
structure Setup where
  flusher : Flusher
  constraints : Constraints flusher.columns
  relation : List Name
  decodes : Decodes flusher relation

/-- A table whose every column is copied as it is, into a shadow without constraints. -/
def Setup.bare (columns : List Name) (distinct : columns.Nodup := by decide) : Setup where
  flusher := { columns, distinct }
  constraints := .none
  relation := columns
  decodes := ⟨distinct, fun _ member => member⟩

/-! ### The catch-up -/

/-- Why a catch-up ended. -/
inductive Fault where
  | violation (v : Violation)
  /-- The shadow refused a batch once the copy had landed every key. -/
  | cannotConverge (key : Key) (kind : ConstraintKind)
  | refused (key : Key) (kind : ConstraintKind)
  | stream (err : StreamError)
  deriving DecidableEq, Repr

/-- Where a cycle stands. -/
inductive Phase where
  | gathering
  | released
  | snapped (snap : Snapshot)
  | drained (pos : Position) (batch : Batch)
  | applied
  | confirmed
  deriving DecidableEq

/-- Every key is landed and nothing is in flight. -/
def copyLanded (pos : Position) : Bool := pos.cut.complete && pos.inFlight.isEmpty

/-- The position a catch-up may confirm. -/
def confirmBound (delivered : LSN) (oldestPending : Option LSN) : LSN :=
  match oldestPending with
  | some oldest => if oldest < delivered then oldest else delivered
  | none => delivered

/-- The catch-up with its stream, and the walsender's place in the log. -/
structure Capture where
  stream : Stream
  /-- The commit of the transaction being sent. -/
  sending : Option LSN := none
  /-- How many changes of the log have been sent. -/
  next : ℕ
  buffer : Buffer := .new
  phase : Phase := .gathering
  /-- The confirmed position the last completed cycle recorded. -/
  recorded : LSN := 0
  fault : Option Fault := none

/-! ### The copier -/

/-- Where the copy of a claimed chunk stands. -/
inductive Pass where
  | idle
  | reading (rows : Table)
  /-- The pass has committed: the rows it inserted, and the keys it held off. -/
  | committed (inserted : Int64) (held : List Key)

/-- The copier: its ledger, its workers' passes, and whether its clear is done. -/
structure Copy where
  ledger : Ledger
  passes : Chunk → Pass := fun _ => .idle
  cleared : Bool := false

/-- The keys of a chunk its next pass reads: all of them, or those an earlier pass held off. -/
def Copy.owes (copy : Copy) (chunk : Chunk) (key : Key) : Bool :=
  chunk.covers key &&
    match copy.ledger.partials.lookup chunk with
    | none => true
    | some part => part.pending.contains key

/-! ### The checkpoint row -/

/-- What the row records of the copy and the stream. -/
structure Checkpoint where
  watermark : Watermark
  lastAppliedLSN : LSN
  deriving DecidableEq

/-- Where a save of the row stands. -/
inductive Saving where
  | idle
  | applied (lsn : LSN)
  | row (saved : Checkpoint)
  deriving DecidableEq

/-- The stream position a save is about to write. -/
def Saving.position : Saving → Option LSN
  | .idle => none
  | .applied lsn => some lsn
  | .row saved => some saved.lastAppliedLSN

/-! ### The run -/

/-- The state of a live run. -/
structure State where
  server : Server
  capture : Capture
  copy : Copy
  shadow : Table
  checkpoint : Checkpoint
  saving : Saving := .idle

/-- One atomic step of one part. -/
inductive Action where
  | commit (changes : List Change) (id : UInt64) (lsn : LSN)
  | becomeVisible (lsn : LSN)
  /-- The stream's messages, taken in by the catch-up's gather. -/
  | keepalive (walEnd : LSN)
  | sendBegin (xid : Xid) (lsn : LSN)
  | sendChange
  | sendCommit
  /-- The catch-up's cycle. -/
  | release
  | pause
  | snapshot (snap : Snapshot)
  | drain
  | flush (readLSN : LSN)
  | confirm
  | record
  /-- The copier. -/
  | clear (limit : ℕ)
  | claim (chunk : Chunk)
  | read (chunk : Chunk)
  | abort (chunk : Chunk)
  | commitPass (chunk : Chunk) (refused : List Key)
  | recordPass (chunk : Chunk)
  /-- The checkpoint row. -/
  | readApplied
  | readLanded
  | save
  | saveApplied
  /-- The run stops, and the next one starts from the row; `kept` is the slot's position, which can
  have fallen behind by confirmations the server had not written out. -/
  | resume (kept : LSN)

namespace State

variable (setup : Setup)

/-- The capture, while it has not ended. -/
def withCapture (s : State) (move : Capture → Option Capture) : Option State :=
  if s.capture.fault = none then (move s.capture).map fun capture => { s with capture } else none

/-! #### The stream -/

/-- A keepalive, whose position no transaction that has not been sent whole commits at or below. -/
def keepalive (s : State) (walEnd : LSN) : Option State :=
  if decide (s.capture.fault = none) && decide (s.capture.phase = .gathering) &&
      (s.capture.stream.inTransaction ||
        (s.server.log.drop s.capture.next).all fun c => decide (walEnd < c.commit)) then
    some { s with
      server := { s.server with wal := max s.server.wal walEnd }
      capture := { s.capture with stream := s.capture.stream.handleKeepalive walEnd } }
  else none

/-- The walsender begins the next transaction in commit order; one that changed nothing here has a
commit of its own below the next change's. -/
def sendBegin (s : State) (xid : Xid) (lsn : LSN) : Option State :=
  if decide (s.capture.fault = none) && decide (s.capture.phase = .gathering) &&
      decide (s.capture.sending = none) && decide (lsn ≤ s.server.wal) &&
      (match s.server.log[s.capture.next]? with
        | none => true
        | some c =>
          decide (lsn < c.commit) || (decide (lsn = c.commit) && decide (xid = c.xid))) then
    match s.capture.stream.handleBegin xid with
    | .ok stream => some { s with capture := { s.capture with stream, sending := some lsn } }
    | .error err => some { s with capture := { s.capture with fault := some (.stream err) } }
  else none

/-- The walsender sends the next change of the transaction, and the gather buffers it. -/
def sendChange (s : State) : Option State :=
  match s.server.log[s.capture.next]? with
  | none => none
  | some c =>
    if decide (s.capture.fault = none) && decide (s.capture.phase = .gathering) &&
        decide (s.capture.sending = some c.commit) &&
        decide (s.capture.stream.xid = c.xid) then
      match s.capture.stream.deliverChange fun delivered xid =>
          c.change.event setup.relation delivered xid with
      | .error err => some { s with capture := { s.capture with fault := some (.stream err) } }
      | .ok ev =>
        match s.capture.buffer.add ev with
        | .ok buffer =>
          some { s with capture := { s.capture with buffer, next := s.capture.next + 1 } }
        | .error v =>
          some { s with capture := { s.capture with fault := some (.violation v) } }
    else none

/-- The walsender ends the transaction once every change of it is sent. -/
def sendCommit (s : State) : Option State :=
  match s.capture.sending with
  | none => none
  | some lsn =>
    if decide (s.capture.fault = none) && decide (s.capture.phase = .gathering) &&
        (match s.server.log[s.capture.next]? with
          | none => true
          | some c => decide (c.commit ≠ lsn)) then
      match s.capture.stream.handleCommit lsn with
      | .ok stream => some { s with capture := { s.capture with stream, sending := none } }
      | .error err => some { s with capture := { s.capture with fault := some (.stream err) } }
    else none

/-! #### The cycle -/

/-- The gather is over; held images the stream has passed are released. -/
def release (s : State) : Option State :=
  s.withCapture fun c =>
    if c.phase = .gathering then
      some { c with buffer := c.buffer.release c.stream.delivered, phase := .released }
    else none

/-- Under a pause the cycle neither drains nor flushes. -/
def pause (s : State) : Option State :=
  s.withCapture fun c => if c.phase = .released then some { c with phase := .applied } else none

/-- The source's snapshot, or the zero one when the buffer holds nothing to judge. -/
def snapshot (s : State) (snap : Snapshot) : Option State :=
  s.withCapture fun c =>
    if decide (c.phase = .released) &&
        (if c.buffer.len = 0 then decide (snap = {}) else s.server.reports snap) then
      some { c with phase := .snapped snap }
    else none

/-- The drain, against the copier's position read now. -/
def drain (s : State) : Option State :=
  s.withCapture fun c =>
    match c.phase with
    | .snapped snap =>
      let pos := s.copy.ledger.position
      let (buffer, batch) := c.buffer.drain pos snap
      some { c with buffer, phase := .drained pos batch }
    | _ => none

/-- What a flush reads: the shadow, and the source as a new snapshot shows it. -/
def reads (s : State) (readLSN : LSN) : Reads := ⟨s.shadow, s.server.shown, readLSN⟩

/-- The catch-up ends with a fault and leaves the rest as it was. -/
def fail (s : State) (fault : Fault) : State :=
  { s with capture := { s.capture with fault := some fault } }

/-- The flush's transaction, and what the catch-up does with its outcome. -/
def flush (s : State) (readLSN : LSN) : Option State :=
  match s.capture.phase with
  | .drained pos batch =>
    if decide (s.capture.fault = none) && s.server.readAt readLSN then
      match setup.flusher.flush setup.constraints (s.reads readLSN) batch with
      | .ok (after, result) =>
        match s.capture.buffer.hold result.held with
        | .ok buffer => some { s with
            shadow := after, capture := { s.capture with buffer, phase := .applied } }
        | .error v => some { s.fail (.violation v) with shadow := after }
      | .error (.batchDeferred key kind) =>
        if copyLanded pos then some (s.fail (.cannotConverge key kind))
        else
          -- the batch goes back as the refused flush left it
          match s.capture.buffer.requeue (setup.flusher.leftIn (s.reads readLSN) batch) with
          | .ok buffer => some { s with
              capture := { s.capture with buffer, phase := .applied } }
          | .error v => some (s.fail (.violation v))
      | .error (.violation v) => some (s.fail (.violation v))
      | .error (.refused key kind) => some (s.fail (.refused key kind))
    else none
  | _ => none

/-- Reports to the server the highest position every unapplied change still lies above. -/
def confirm (s : State) : Option State :=
  if decide (s.capture.fault = none) && decide (s.capture.phase = .applied) then
    let stream := s.capture.stream
    let bound := confirmBound stream.delivered s.capture.buffer.oldestPending
    if bound ≤ stream.confirmed then
      some { s with capture := { s.capture with phase := .confirmed } }
    else
      match stream.confirm bound with
      | .ok stream => some { s with
          server := s.server.advanceSlot bound
          capture := { s.capture with stream, phase := .confirmed } }
      | .error err => some (s.fail (.stream err))
  else none

/-- Records the completed cycle's positions. -/
def record (s : State) : Option State :=
  s.withCapture fun c =>
    if c.phase = .confirmed then
      some { c with recorded := c.stream.confirmed, phase := .gathering }
    else none

/-! #### The copier -/

/-- One batch of the clear above the watermark the copier started from. -/
def clear (s : State) (limit : ℕ) : Option State :=
  if s.copy.cleared then none
  else
    match startAfter s.copy.ledger.watermark with
    | (_, true) => some { s with copy := { s.copy with cleared := true } }
    | (lower, false) =>
      let removed := (s.shadow.keys.filter fun key => decide (lower ≤ key)).take limit
      some { s with
        shadow := removed.foldl (fun shadow key => shadow.erase key) s.shadow
        copy := { s.copy with cleared := decide (removed.length < limit) } }

/-- A worker claims the next chunk, once the shadow is clear above the watermark. -/
def claim (s : State) (chunk : Chunk) : Option State :=
  if s.copy.cleared then
    (s.copy.ledger.claim chunk).map fun ledger => { s with copy := { s.copy with ledger } }
  else none

/-- A pass's statement reads the rows the chunk still owes, in one snapshot. -/
def read (s : State) (chunk : Chunk) : Option State :=
  match s.copy.passes chunk with
  | .idle =>
    if s.copy.ledger.inFlight.contains chunk then
      let rows := s.server.shown.filter fun key _ => s.copy.owes chunk key
      some { s with
        copy := { s.copy with passes := Function.update s.copy.passes chunk (.reading rows) } }
    else none
  | _ => none

/-- A pass the server refused or rolled back. -/
def abort (s : State) (chunk : Chunk) : Option State :=
  match s.copy.passes chunk with
  | .reading _ => some { s with
      copy := { s.copy with passes := Function.update s.copy.passes chunk .idle } }
  | _ => none

/-- The read rows a pass puts into the shadow: those it does not already hold and whose values no
constraint holds off. -/
def inserted (shadow rows : Table) (refused : List Key) : List (Key × Row) :=
  rows.toList.filter fun entry => !shadow.contains entry.1 && !refused.contains entry.1

/-- A pass commits its rows, each converted as the flush converts them, and names the keys of the
rows it read that are in the shadow neither now nor from before. -/
def commitPass (s : State) (chunk : Chunk) (refused : List Key) : Option State :=
  match s.copy.passes chunk with
  | .reading rows =>
    let f := setup.flusher
    let added := inserted s.shadow rows refused
    let after := added.foldl (fun shadow entry => shadow.insert entry.1 (f.convertedRow entry.2))
      s.shadow
    let held := (rows.keys.filter fun key => !s.shadow.contains key && refused.contains key)
    if added.all fun entry =>
        (f.refusal setup.constraints after entry.1 (f.convertedRow entry.2)).isNone then
      some { s with
        shadow := after
        copy := { s.copy with
          passes := Function.update s.copy.passes chunk
            (.committed (Int64.ofNat added.length) held) } }
    else none
  | _ => none

/-- The worker settles the chunk with the keys it held off, or lands it when there are none. -/
def recordPass (s : State) (chunk : Chunk) : Option State :=
  match s.copy.passes chunk with
  | .committed count held =>
    let rows := s.copy.ledger.committedRows chunk + count
    (if held.isEmpty then s.copy.ledger.land chunk rows
      else s.copy.ledger.settle chunk rows held).map fun ledger =>
        { s with copy := { s.copy with
          ledger, passes := Function.update s.copy.passes chunk .idle } }
  | _ => none

/-! #### The checkpoint row -/

/-- The saver reads the applied position first. -/
def readApplied (s : State) : Option State :=
  if s.saving = .idle then
    some { s with saving := .applied (max s.checkpoint.lastAppliedLSN s.capture.recorded) }
  else none

/-- Then the landed watermark, and saves only one that has moved. -/
def readLanded (s : State) : Option State :=
  match s.saving with
  | .applied lsn =>
    let landed := s.copy.ledger.watermark
    if landed.isNone || decide (landed = s.checkpoint.watermark) then
      some { s with saving := .idle }
    else some { s with saving := .row ⟨landed, lsn⟩ }
  | _ => none

/-- The row is written. -/
def save (s : State) : Option State :=
  match s.saving with
  | .row row => some { s with checkpoint := row, saving := .idle }
  | _ => none

/-- After the copy the row takes the applied position alone. -/
def saveApplied (s : State) : Option State :=
  if decide (s.saving = .idle) && s.checkpoint.watermark.complete then
    some { s with checkpoint := { s.checkpoint with
      lastAppliedLSN := max s.checkpoint.lastAppliedLSN s.capture.recorded } }
  else none

/-! #### Starts -/

/-- The next run: the stream reopened at the row's position, which the server forwards to the slot's
when that is further, an empty buffer, and the ledger at the row's watermark. -/
def resume (s : State) (kept : LSN) : Option State :=
  if kept ≤ s.server.slot then
    match Stream.openStream s.checkpoint.lastAppliedLSN with
    | .error _ => none
    | .ok stream =>
      let start := max s.checkpoint.lastAppliedLSN kept
      some { s with
        server := { s.server with slot := start }
        capture := { stream, next := s.server.log.findIdx fun c => decide (start < c.commit) }
        copy := { ledger := .newLedger s.checkpoint.watermark }
        saving := .idle }
  else none

end State

/-- A fresh run: an empty shadow, and the stream opened at the slot's consistent point. -/
def fresh (base : Table) (point : LSN) : State where
  server := { base, log := [], visible := [], wal := point, slot := point }
  capture := { stream := { start := point, delivered := point }, next := 0 }
  copy := { ledger := .newLedger none }
  shadow := ∅
  checkpoint := ⟨none, point⟩

/-- One atomic step. -/
def step (setup : Setup) (s : State) : Action → Option State
  | .commit changes id lsn =>
    (s.server.commit changes id lsn).map fun server => { s with server }
  | .becomeVisible lsn => some { s with server := s.server.becomeVisible lsn }
  | .keepalive walEnd => s.keepalive walEnd
  | .sendBegin xid lsn => s.sendBegin xid lsn
  | .sendChange => s.sendChange setup
  | .sendCommit => s.sendCommit
  | .release => s.release
  | .pause => s.pause
  | .snapshot snap => s.snapshot snap
  | .drain => s.drain
  | .flush readLSN => s.flush setup readLSN
  | .confirm => s.confirm
  | .record => s.record
  | .clear limit => s.clear limit
  | .claim chunk => s.claim chunk
  | .read chunk => s.read chunk
  | .abort chunk => s.abort chunk
  | .commitPass chunk refused => s.commitPass setup chunk refused
  | .recordPass chunk => s.recordPass chunk
  | .readApplied => s.readApplied
  | .readLanded => s.readLanded
  | .save => s.save
  | .saveApplied => s.saveApplied
  | .resume kept => s.resume kept

/-- The run goes on: the step is not the start of another one. -/
def Action.continues : Action → Bool
  | .resume _ => false
  | _ => true

end PgSprite.Live
