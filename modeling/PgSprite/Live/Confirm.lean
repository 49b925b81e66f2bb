/-
**What the catch-up reports as applied.**

`entry key` is what the catch-up holds under a key, buffered or drained and not yet flushed.
`Streaming` is what every run keeps true of the stream's positions and of the first positions of
those entries, whatever the copier and the shadow do: nothing still to be delivered commits at or
below the delivered position, and the buffer's oldest pending position covers every entry.
-/

import PgSprite.Live.Steps

namespace PgSprite.Live

open Std PgSprite.Decode PgSprite.Source PgSprite.Lib PgSprite.Applier PgSprite.Copier

/-- The batch the catch-up has drained and not yet flushed. -/
def Capture.batch (c : Capture) : List Entry :=
  match c.phase with
  | .drained _ batch => batch.entries
  | _ => []

/-- What the catch-up holds under `key`: the drained entry, or the buffered one. -/
def Capture.entry (c : Capture) (key : Key) : Option Entry :=
  (c.batch.find? fun e => e.key = key).or c.buffer.entries[key]?

/-- The position the earliest event the catch-up holds under `key` arrived with. -/
def Capture.first (c : Capture) (key : Key) : Option LSN := (c.entry key).map Entry.firstLSN

/-- What a run keeps true of the stream's positions and of what the catch-up holds. -/
structure Streaming (s : State) : Prop where
  server : ServerOk s.server
  within : s.capture.next ≤ s.server.log.length
  /-- What is still to be delivered commits above the delivered position. -/
  ahead : ∀ (i : ℕ) (c : Committed), s.capture.next ≤ i → s.server.log[i]? = some c →
    s.capture.stream.delivered < c.commit
  written : s.capture.stream.delivered ≤ s.server.wal
  slot : s.server.slot ≤ s.server.wal
  confirmed : s.capture.stream.confirmed ≤ s.capture.stream.delivered
  reported : s.capture.stream.confirmed ≤ s.server.slot
  recorded : s.capture.recorded ≤ s.server.slot
  saved : s.checkpoint.lastAppliedLSN ≤ s.server.slot
  saving : ∀ lsn, s.saving.position = some lsn → lsn ≤ s.server.slot
  /-- A transaction is sent whole before a later one. -/
  sending : ∀ lsn, s.capture.sending = some lsn → lsn ≤ s.server.wal ∧
    ∀ (i : ℕ) (c : Committed), s.capture.next ≤ i → s.server.log[i]? = some c → lsn ≤ c.commit
  oldest : s.capture.buffer.OldestCovers
  early : ∀ key e, s.capture.entry key = some e → e.firstLSN ≤ s.capture.stream.delivered
  distinct : (s.capture.batch.map Entry.key).Nodup
  apart : ∀ e ∈ s.capture.batch, s.capture.buffer.entries[e.key]? = none

section Entry

variable {c : Capture} {key : Key} {e : Entry}

theorem Capture.batch_of_drained {pos : Position} {batch : Batch}
    (phase : c.phase = .drained pos batch) : c.batch = batch.entries := by
  rw [Capture.batch, phase]

theorem Capture.entry_eq (none : c.batch = []) : c.entry key = c.buffer.entries[key]? := by
  rw [Capture.entry, none, List.find?_nil, Option.none_or]

theorem Capture.entry_eq_buffer (none : c.batch = []) :
    c.entry = fun key => c.buffer.entries[key]? :=
  funext fun _ => Capture.entry_eq none

theorem Capture.first_eq (none : c.batch = []) : c.first key = c.buffer.first key := by
  rw [Capture.first, Capture.entry_eq none, Buffer.first]

theorem Capture.entry_of_mem (distinct : (c.batch.map Entry.key).Nodup) (member : e ∈ c.batch) :
    c.entry e.key = some e := by
  rw [Capture.entry]
  cases found : c.batch.find? fun e' => e'.key = e.key with
  | none => exact absurd (List.find?_eq_none.mp found e member) (by simp)
  | some e' =>
    have same := List.find?_some found
    rw [decide_eq_true_eq] at same
    rw [List.inj_on_of_nodup_map distinct (List.mem_of_find?_eq_some found) member same,
      Option.some_or]

theorem Capture.entry_of_not_mem (outside : ∀ e ∈ c.batch, e.key ≠ key) :
    c.entry key = c.buffer.entries[key]? := by
  have none : c.batch.find? (fun e => e.key = key) = none :=
    List.find?_eq_none.mpr fun e member => by simp [outside e member]
  rw [Capture.entry, none, Option.none_or]

end Entry

/-- What the catch-up holds once a batch is drained. -/
abbrev Capture.drain (c : Capture) (pos : Position) (snap : Snapshot) : Capture :=
  { c with
    buffer := (c.buffer.drain pos snap).1, phase := .drained pos (c.buffer.drain pos snap).2 }

section Streaming

variable {setup : Setup} {s s' : State} {a : Action} {buffer : Buffer} {phase : Phase}
  {pos : Position} {snap : Snapshot} {batch : Batch} {f : Flusher} {reads : Reads} {key : Key}
  {e : Entry} {lsn readLSN bound kept start : LSN} {after : Table} {result : Result} {i : ℕ}
  {c : Committed}

/-- A fresh system streams in order. -/
theorem streaming_fresh (base : Table) (point : LSN) : Streaming (fresh base point) where
  server := ⟨fun i c found => (nomatch found), List.Pairwise.nil, fun c member => (nomatch member),
    fun i j a b key below first => (nomatch first)⟩
  within := le_rfl
  ahead := fun i c _ found => (nomatch found)
  written := UInt64.le_refl _
  slot := UInt64.le_refl _
  confirmed := UInt64.zero_le
  reported := UInt64.zero_le
  recorded := UInt64.zero_le
  saved := UInt64.le_refl _
  saving := fun lsn position => (nomatch position)
  sending := fun lsn sent => (nomatch sent)
  oldest := Buffer.oldestCovers_new
  early := fun key e stored => by simp [Capture.entry, Capture.batch, fresh, Buffer.new] at stored
  distinct := List.nodup_nil
  apart := fun e member => (nomatch member)

/-- The next change to be delivered commits no later than one after it. -/
theorem ServerOk.next_le {server : Server} (ok : ServerOk server) {next : ℕ} (past : next ≤ i)
    (found : server.log[i]? = some c) :
    ∃ first, server.log[next]? = some first ∧ first.commit ≤ c.commit := by
  have first := List.getElem?_eq_getElem
    (Nat.lt_of_le_of_lt past (List.getElem?_eq_some_iff.mp found).1)
  exact ⟨_, first, ok.commit_le past first found⟩

/-- The position an entry is first owed at once an event is in the buffer. -/
theorem first_of_add {b : Buffer} {relation : List Name} {delivered : LSN}
    (added : b.add (c.change.event relation delivered c.xid) = .ok buffer)
    (found : buffer.first key = some lsn) :
    (b.first key = none ∧ lsn ≤ delivered) ∨ ∃ old, b.first key = some old ∧ lsn ≤ old := by
  have lowers := (Buffer.first_add added).lowers key
  have same : (c.change.event relation delivered c.xid).delivered = delivered := by
    cases c.change <;> rfl
  rw [found, same] at lowers
  cases before : b.first key with
  | none =>
    rw [before] at lowers
    exact Or.inl ⟨rfl, lowers⟩
  | some old =>
    rw [before] at lowers
    exact Or.inr ⟨old, rfl, lowers⟩

variable (ok : Streaming s)

include ok

/-- A flush holds back what the batch's entries it does not write are held as. -/
theorem Streaming.held_eq (drained : s.capture.phase = .drained pos batch)
    (flushed : setup.flusher.flush setup.constraints (s.reads readLSN) batch =
      .ok (after, result)) :
    result.held = setup.flusher.toHold (s.reads readLSN) batch :=
  (Flusher.flush_ok (Capture.batch_of_drained drained ▸ ok.distinct) flushed).2.2

/-- A commit appends to the log above what was sent. -/
theorem Streaming.commit {changes : List Change} {id : UInt64}
    {server : Server} (committed : s.server.commit changes id lsn = some server) :
    Streaming { s with server } := by
  have kept := ok.server.commit committed
  obtain ⟨later, -, -, rfl⟩ := Server.commit_eq committed
  have bound := ok.written
  have low := ok.slot
  refine { ok with
    server := kept, within := ok.within.trans (by simp), ahead := fun i c past found => ?_
    written := ?_, slot := ?_, sending := fun sent sends => ?_ }
  · rcases log_of_commit found with old | new
    · exact ok.ahead i c past old
    · show s.capture.stream.delivered < c.commit
      grind
  · show s.capture.stream.delivered ≤ lsn
    grind
  · show s.server.slot ≤ lsn
    grind
  · obtain ⟨low, before⟩ := ok.sending sent sends
    refine ⟨?_, fun i c past found => ?_⟩
    · show sent ≤ lsn
      grind
    · rcases log_of_commit found with old | new
      · exact before i c past old
      · grind

/-- A keepalive raises the delivered position only below what is still to be sent. -/
theorem Streaming.keepalive {walEnd : LSN}
    (past : s.capture.stream.inTransaction = false → ∀ (i : ℕ) (c : Committed), s.capture.next ≤ i →
      s.server.log[i]? = some c → walEnd < c.commit) :
    Streaming { s with
      server := { s.server with wal := max s.server.wal walEnd }
      capture := { s.capture with stream := s.capture.stream.handleKeepalive walEnd } } := by
  have raised : s.capture.stream.delivered
      ≤ (s.capture.stream.handleKeepalive walEnd).delivered := by
    rw [Stream.delivered_handleKeepalive]
    grind
  have wal : s.server.wal ≤ max s.server.wal walEnd := by
    rw [lsn_max]
    grind
  refine { ok with
    server := ⟨ok.server.valid, ok.server.ascending, fun c member => ?_, ok.server.locks⟩
    ahead := fun i c later found => ?_
    written := ?_, slot := UInt64.le_trans ok.slot wal, confirmed := ?_, reported := ?_
    sending := fun sent sends => ?_, early := fun key e stored => ?_ }
  · exact UInt64.le_trans (ok.server.written c member) wal
  · have before := ok.ahead i c later found
    show (s.capture.stream.handleKeepalive walEnd).delivered < c.commit
    rw [Stream.delivered_handleKeepalive]
    have outside := fun closed => past closed i c later found
    split <;> grind
  · show (s.capture.stream.handleKeepalive walEnd).delivered ≤ max s.server.wal walEnd
    have bound := ok.written
    rw [Stream.delivered_handleKeepalive, lsn_max]
    grind
  · rw [Stream.confirmed_handleKeepalive]
    exact UInt64.le_trans ok.confirmed raised
  · rw [Stream.confirmed_handleKeepalive]
    exact ok.reported
  · obtain ⟨low, before⟩ := ok.sending sent sends
    exact ⟨UInt64.le_trans low wal, before⟩
  · exact UInt64.le_trans (ok.early key e stored) raised

/-- A begin is sent below what it starts. -/
theorem Streaming.sendBegin {xid : Xid} (written : lsn ≤ s.server.wal)
    (next : ∀ c, s.server.log[s.capture.next]? = some c → lsn ≤ c.commit) :
    Streaming { s with
      capture := { s.capture with
        stream := { s.capture.stream with inTransaction := true, xid }
        sending := some lsn } } := by
  refine { ok with sending := fun sent sends => ?_ }
  cases sends
  refine ⟨written, fun i c past found => ?_⟩
  obtain ⟨first, here, below⟩ := ok.server.next_le past found
  exact UInt64.le_trans (next first here) below

/-- A change sent enters the buffer at the delivered position. -/
theorem Streaming.sendChange (gathering : s.capture.phase = .gathering)
    (found : s.server.log[s.capture.next]? = some c) (added : s.capture.buffer.add
      (c.change.event setup.relation s.capture.stream.delivered c.xid) = .ok buffer) :
    Streaming { s with capture := { s.capture with buffer, next := s.capture.next + 1 } } := by
  have nothing : s.capture.batch = [] := by rw [Capture.batch, gathering]
  have nothing' : Capture.batch { s.capture with buffer, next := s.capture.next + 1 } = [] :=
    nothing
  refine { ok with
    within := (List.getElem?_eq_some_iff.mp found).1
    ahead := fun i c past found => ok.ahead i c (Nat.le_of_succ_le past) found
    sending := fun sent sends => ?_
    oldest := (Buffer.first_add added).covers ok.oldest
    early := fun key e stored => ?_
    apart := fun e member => ?_ }
  · obtain ⟨low, before⟩ := ok.sending sent sends
    exact ⟨low, fun i c past found => before i c (Nat.le_of_succ_le past) found⟩
  · rw [Capture.entry_eq nothing'] at stored
    rcases first_of_add added (Buffer.first_of_entry stored) with ⟨-, low⟩ | ⟨old, before, low⟩
    · exact low
    · obtain ⟨e', there, rfl⟩ := Option.map_eq_some_iff.mp before
      exact UInt64.le_trans low (ok.early key e' ((Capture.entry_eq nothing).trans there))
  · rw [nothing'] at member
    cases member

/-- The end of a transaction raises the delivered position past its changes. -/
theorem Streaming.sendCommit (sends : s.capture.sending = some lsn)
    (ended : ∀ c, s.server.log[s.capture.next]? = some c → c.commit ≠ lsn) :
    Streaming { s with
      capture := { s.capture with
        stream := Stream.raiseDelivered { s.capture.stream with inTransaction := false } lsn
        sending := none } } := by
  obtain ⟨written, before⟩ := ok.sending lsn sends
  have above : ∀ (i : ℕ) (c : Committed), s.capture.next ≤ i → s.server.log[i]? = some c →
      lsn < c.commit := by
    intro i c past found
    obtain ⟨first, here, order⟩ := ok.server.next_le past found
    have low := before _ _ le_rfl here
    have other := ended _ here
    grind
  have delivered : (Stream.raiseDelivered { s.capture.stream with inTransaction := false }
      lsn).delivered =
        if lsn > s.capture.stream.delivered then lsn else s.capture.stream.delivered :=
    Stream.delivered_raiseDelivered
  have raised : s.capture.stream.delivered ≤ (Stream.raiseDelivered
      { s.capture.stream with inTransaction := false } lsn).delivered := by
    rw [delivered]
    grind
  refine { ok with
    ahead := fun i c past found => ?_, written := ?_, confirmed := ?_, reported := ?_
    sending := fun sent none => (nomatch none), early := fun key e stored => ?_ }
  · have low := ok.ahead i c past found
    have high := above i c past found
    rw [delivered]
    grind
  · have low := ok.written
    rw [delivered]
    show (if lsn > s.capture.stream.delivered then lsn else s.capture.stream.delivered)
      ≤ s.server.wal
    grind
  · rw [Stream.confirmed_raiseDelivered]
    exact UInt64.le_trans ok.confirmed raised
  · rw [Stream.confirmed_raiseDelivered]
    exact ok.reported
  · exact UInt64.le_trans (ok.early key e stored) raised

/-- A cycle's step that leaves no batch drained: what is buffered after it arrived before. -/
theorem Streaming.rebuffer
    (nothing : Capture.batch { s.capture with buffer, phase } = []) (oldest : buffer.OldestCovers)
    (early : ∀ key lsn, buffer.first key = some lsn → lsn ≤ s.capture.stream.delivered) :
    Streaming { s with capture := { s.capture with buffer, phase } } := by
  refine { ok with
    oldest := oldest, early := fun key e stored => ?_, distinct := ?_, apart := fun e member => ?_ }
  · rw [Capture.entry_eq nothing] at stored
    exact early key _ (Buffer.first_of_entry stored)
  · rw [nothing]
    exact List.nodup_nil
  · rw [nothing] at member
    cases member

theorem Streaming.early_buffer (found : s.capture.buffer.first key = some lsn) :
    lsn ≤ s.capture.stream.delivered := by
  obtain ⟨e, stored, rfl⟩ := Option.map_eq_some_iff.mp found
  refine ok.early key e ?_
  rw [Capture.entry_of_not_mem, stored]
  rintro e' member rfl
  rw [ok.apart e' member] at stored
  cases stored

theorem Streaming.rephase (nothing : Capture.batch { s.capture with phase } = []) :
    Streaming { s with capture := { s.capture with phase } } :=
  ok.rebuffer nothing ok.oldest fun _ _ found => ok.early_buffer found

/-- A drain takes entries out of the buffer into the batch. -/
theorem Streaming.drain (phase : s.capture.phase = .snapped snap) :
    Streaming { s with capture := s.capture.drain pos snap } := by
  have nothing : s.capture.batch = [] := by rw [Capture.batch, phase]
  refine { ok with
    oldest := Buffer.oldestCovers_drain, early := fun key e stored => ?_
    distinct := Buffer.drain_distinct, apart := fun e member => ?_ }
  · refine ok.early key e ?_
    rw [Capture.entry_eq nothing]
    rcases Option.or_eq_some_iff.mp stored with flushed | ⟨-, kept⟩
    · have same := List.find?_some flushed
      rw [decide_eq_true_eq] at same
      exact same ▸ (Buffer.mem_drain.mp (List.mem_of_find?_eq_some flushed)).1
    · replace kept : (s.capture.buffer.drain pos snap).1.entries[key]? = some e := kept
      rw [Buffer.entries_drain] at kept
      split at kept
      · cases kept
      · exact kept
  · obtain ⟨-, flushed⟩ := Buffer.mem_drain.mp member
    show (s.capture.buffer.drain pos snap).1.entries[e.key]? = none
    rw [Buffer.entries_drain, flushed]
    rfl

/-- The buffer a batch was drained from, as the flush's lemmas take it. -/
theorem Streaming.drainedFrom (phase : s.capture.phase = .drained pos batch) :
    Flushable.DrainedFrom s.capture.entry (fun key => s.capture.buffer.pending[key]?) batch
      s.capture.buffer := by
  have entries := Capture.batch_of_drained phase
  refine ⟨fun k outside => ⟨(Capture.entry_of_not_mem (entries ▸ outside)).symm, rfl⟩, ?_⟩
  exact fun e member => ok.apart e (entries ▸ member)

/-- A key that is left after a hold keeps its first position, and was not written. -/
theorem Streaming.first_hold (phase : s.capture.phase = .drained pos batch)
    (found : ((f.toHold reads batch).foldl Buffer.holdOne s.capture.buffer).first key = some lsn) :
    ∃ e, s.capture.entry key = some e ∧ e.firstLSN = lsn ∧
      f.writes reads batch key = false := by
  have entries := Capture.batch_of_drained phase
  have distinct := entries ▸ ok.distinct
  obtain ⟨e, stored, rfl⟩ := Option.map_eq_some_iff.mp found
  have remains : Flushable.Remains f reads batch s.capture.entry _ key
      ((f.toHold reads batch).foldl Buffer.holdOne s.capture.buffer).entries[key]? _ :=
    Flushable.remains_of_hold distinct (ok.drainedFrom phase) key
  have quiet := remains.writes_eq_false distinct (by simp [stored])
  rw [stored] at remains
  generalize same : some e = held at remains
  generalize ((f.toHold reads batch).foldl Buffer.holdOne s.capture.buffer).pending[key]? = waits
    at remains
  cases remains with
  | untouched => exact ⟨e, same.symm, rfl, quiet⟩
  | written => cases same
  | completed e' h member keyed =>
    cases same
    exact ⟨e, keyed ▸ Capture.entry_of_mem ok.distinct (entries ▸ member), rfl, quiet⟩
  | awaiting e' member keyed =>
    cases same
    exact ⟨e', keyed ▸ Capture.entry_of_mem ok.distinct (entries ▸ member), rfl, quiet⟩

/-- A flush takes out what it wrote and holds the rest. -/
theorem Streaming.flush (phase : s.capture.phase = .drained pos batch)
    (flushed : setup.flusher.flush setup.constraints (s.reads readLSN) batch = .ok (after, result))
    (held : s.capture.buffer.hold result.held = .ok buffer) :
    Streaming { s with
      shadow := after, capture := { s.capture with buffer, phase := .applied } } := by
  rw [ok.held_eq phase flushed] at held
  obtain rfl := Buffer.hold_ok held
  have kept : Streaming { s with
      capture := { s.capture with
        buffer := (setup.flusher.toHold (s.reads readLSN) batch).foldl Buffer.holdOne
          s.capture.buffer
        phase := .applied } } := by
    refine ok.rebuffer rfl ok.oldest.foldl_holdOne fun key lsn found => ?_
    obtain ⟨e, stored, rfl, -⟩ := ok.first_hold phase found
    exact ok.early key e stored
  exact { kept with }

/-- A requeue puts every key back at its first position. -/
theorem Streaming.first_requeue (phase : s.capture.phase = .drained pos batch)
    (requeued : s.capture.buffer.requeue (f.leftIn reads batch) = .ok buffer) (key : Key) :
    buffer.first key = s.capture.first key := by
  have batched := Capture.batch_of_drained phase
  obtain ⟨-, inside, outside⟩ :=
    Flushable.requeue_leftIn (f := f) (ok.drainedFrom phase) (batched ▸ ok.distinct)
  rw [Buffer.requeue_ok requeued, Buffer.first, Capture.first]
  by_cases member : ∃ e ∈ batch.entries, e.key = key
  · obtain ⟨e, member, rfl⟩ := member
    rw [(inside e member).1, Capture.entry_of_mem ok.distinct (batched ▸ member), Option.map_some,
      Option.map_some, (Flusher.entryLeft_eq reads).1]
  · rw [(outside key fun e inside same => member ⟨e, inside, same⟩).1]

/-- A requeue puts the whole batch back. -/
theorem Streaming.requeue (phase : s.capture.phase = .drained pos batch)
    (requeued : s.capture.buffer.requeue (f.leftIn reads batch) = .ok buffer) :
    Streaming { s with capture := { s.capture with buffer, phase := .applied } } := by
  refine ok.rebuffer rfl ?_ fun key lsn found => ?_
  · rw [Buffer.requeue_ok requeued]
    exact ok.oldest.foldl_put
  · rw [ok.first_requeue phase requeued] at found
    obtain ⟨e, stored, rfl⟩ := Option.map_eq_some_iff.mp found
    exact ok.early key e stored

omit ok in
theorem confirmBound_le (delivered : LSN) (oldest : Option LSN) :
    confirmBound delivered oldest ≤ delivered := by
  cases oldest with
  | none => exact UInt64.le_refl _
  | some oldest =>
    rw [confirmBound]
    grind

omit ok in
/-- The position a confirmation names is at or below every buffered entry's first. -/
theorem confirmBound_le_first {b : Buffer} (covers : b.OldestCovers) {delivered : LSN}
    (found : b.first key = some lsn) :
    confirmBound delivered b.oldestPending ≤ lsn := by
  obtain ⟨has, below⟩ := covers key lsn found
  rw [Buffer.oldestPending, if_pos has, confirmBound]
  grind

omit ok in
theorem Server.slot_advanceSlot (server : Server) (lsn : LSN) :
    (server.advanceSlot lsn).slot = if server.slot < lsn then lsn else server.slot := by
  rw [Server.advanceSlot]
  split <;> rfl

omit ok in
theorem Server.advanceSlot_eq (server : Server) (lsn : LSN) :
    server.advanceSlot lsn = { server with slot := (server.advanceSlot lsn).slot } := by
  rw [Server.advanceSlot]
  split <;> rfl

/-- The slot is confirmed up to the oldest entry that is pending. -/
theorem Streaming.confirm
    (named : bound = confirmBound s.capture.stream.delivered s.capture.buffer.oldestPending) :
    Streaming { s with
      server := s.server.advanceSlot bound
      capture := { s.capture with
        stream := { s.capture.stream with confirmed := bound }, phase := .confirmed } } := by
  have nothing : Capture.batch { s.capture with phase := .confirmed } = [] := rfl
  have kept := ok.rephase nothing
  have below : bound ≤ s.capture.stream.delivered := named ▸ confirmBound_le _ _
  have wal := ok.written
  have slot := ok.slot
  have moved := s.server.slot_advanceSlot bound
  have raised : s.server.slot ≤ (s.server.advanceSlot bound).slot := by
    rw [moved]
    grind
  rw [Server.advanceSlot_eq]
  refine { kept with
    server := ⟨ok.server.valid, ok.server.ascending, ok.server.written, ok.server.locks⟩
    slot := ?_, confirmed := below, reported := ?_
    recorded := UInt64.le_trans ok.recorded raised, saved := UInt64.le_trans ok.saved raised
    saving := fun lsn position => UInt64.le_trans (ok.saving lsn position) raised }
  · show (s.server.advanceSlot bound).slot ≤ s.server.wal
    rw [moved]
    grind
  · show bound ≤ (s.server.advanceSlot bound).slot
    rw [moved]
    grind

omit ok in
/-- The stream starts at the first change that commits above its start. -/
theorem ServerOk.lt_of_findIdx {server : Server} (ok : ServerOk server)
    (past : (server.log.findIdx fun c => decide (start < c.commit)) ≤ i)
    (found : server.log[i]? = some c) : start < c.commit := by
  have inside : (server.log.findIdx fun c => decide (start < c.commit)) < server.log.length :=
    Nat.lt_of_le_of_lt past (List.getElem?_eq_some_iff.mp found).1
  have first := List.findIdx_getElem (w := inside)
  rw [decide_eq_true_eq] at first
  have order := ok.commit_le past (List.getElem?_eq_getElem inside) found
  grind

/-- A restart streams from the later of the saved position and the slot's. -/
theorem Streaming.resume (bound : kept ≤ s.server.slot)
    (named : start = max s.checkpoint.lastAppliedLSN kept) : Streaming (s.resumed start) := by
  have saved := ok.saved
  have wal := ok.slot
  rw [lsn_max] at named
  have low : s.checkpoint.lastAppliedLSN ≤ start := by grind
  have high : start ≤ s.server.wal := by grind
  exact {
    server := ⟨ok.server.valid, ok.server.ascending, ok.server.written, ok.server.locks⟩
    within := List.findIdx_le_length
    ahead := fun i c past found => by
      have above := ok.server.lt_of_findIdx past found
      show s.checkpoint.lastAppliedLSN < c.commit
      grind
    written := UInt64.le_trans low high
    slot := high
    confirmed := UInt64.zero_le
    reported := UInt64.zero_le
    recorded := UInt64.zero_le
    saved := low
    saving := fun lsn position => (nomatch position)
    sending := fun lsn sent => (nomatch sent)
    oldest := Buffer.oldestCovers_new
    early := fun key e stored => by
      rw [Capture.entry_eq rfl] at stored
      simp [Buffer.new] at stored
    distinct := List.nodup_nil
    apart := fun e member => (nomatch member) }

/-- **Every step keeps the stream's positions in order**, and covers what is held by the oldest
pending position. -/
theorem Streaming.step (steps : Steps setup s a s') : Streaming s' := by
  cases steps with
  | commit committed => exact ok.commit committed
  | becomeVisible lsn => exact { ok with server := ok.server.becomeVisible }
  | keepalive _ past => exact ok.keepalive past
  | sendBegin _ _ written next => exact ok.sendBegin written next
  | sendChange gathering found _ added => exact ok.sendChange gathering found added
  | sendCommit _ sends ended => exact ok.sendCommit sends ended
  | release =>
    exact ok.rebuffer rfl ok.oldest.release fun key lsn found =>
      ok.early_buffer (Buffer.first_release ▸ found)
  | pause => exact ok.rephase rfl
  | snapshot => exact ok.rephase rfl
  | drain phase => exact ok.drain phase
  | flush phase _ flushed held => exact ok.flush phase flushed held
  | requeue phase _ _ _ requeued => exact ok.requeue phase requeued
  | confirmed => exact ok.rephase rfl
  | confirm _ named => exact ok.confirm named
  | record =>
    have kept : Streaming { s with capture := { s.capture with phase := .gathering } } :=
      ok.rephase rfl
    exact { kept with recorded := ok.reported }
  | readApplied =>
    refine { ok with saving := fun lsn position => ?_ }
    cases position
    have saved := ok.saved
    have recorded := ok.recorded
    show max s.checkpoint.lastAppliedLSN s.capture.recorded ≤ s.server.slot
    rw [lsn_max]
    grind
  | unmoved => exact { ok with saving := fun lsn position => (nomatch position) }
  | readLanded applied =>
    refine { ok with saving := fun lsn position => ?_ }
    cases position
    exact ok.saving _ (by rw [applied]; rfl)
  | save saving =>
    exact { ok with
      saved := ok.saving _ (by rw [saving]; rfl), saving := fun lsn position => (nomatch position) }
  | saveApplied =>
    refine { ok with saved := ?_ }
    have saved := ok.saved
    have recorded := ok.recorded
    show max s.checkpoint.lastAppliedLSN s.capture.recorded ≤ s.server.slot
    rw [lsn_max]
    grind
  | resume bound named => exact ok.resume bound named
  -- the copier's steps and a fault leave the stream and the buffer alone
  | _ => exact { ok with }

/-! ### What is held under each key after a step -/

omit ok in
/-- **A drain leaves the catch-up holding every entry it does not discard.** -/
theorem entry_drain (snap : Snapshot) (pos : Position) (key : Key) :
    (s.capture.drain pos snap).entry key
      = if s.capture.buffer.fate pos snap key = .discarded then none
        else s.capture.buffer.entries[key]? := by
  by_cases member : ∃ e ∈ (s.capture.buffer.drain pos snap).2.entries, e.key = key
  · obtain ⟨e, inside, rfl⟩ := member
    obtain ⟨stored, flushed⟩ := Buffer.mem_drain.mp inside
    have held : (s.capture.drain pos snap).entry e.key = some e :=
      Capture.entry_of_mem Buffer.drain_distinct inside
    rw [held, stored, flushed]
    rfl
  · have outside : ∀ e ∈ (s.capture.buffer.drain pos snap).2.entries, e.key ≠ key :=
      fun e inside same => member ⟨e, inside, same⟩
    have kept : (s.capture.drain pos snap).entry key
        = (s.capture.buffer.drain pos snap).1.entries[key]? := Capture.entry_of_not_mem outside
    rw [kept, Buffer.entries_drain]
    cases fate : s.capture.buffer.fate pos snap key with
    | flushed =>
      cases stored : s.capture.buffer.entries[key]? with
      | none => rfl
      | some e =>
        have keyed := s.capture.buffer.keyed key e stored
        subst keyed
        exact absurd rfl (outside e (Buffer.mem_drain.mpr ⟨stored, fate⟩))
    | held => rfl
    | invisible => rfl
    | discarded => rfl
    | deferred => rfl

/-- A flush leaves the catch-up holding, from where it was first owed, every entry whose key it did
not write. -/
theorem Streaming.first_hold_of_entry (phase : s.capture.phase = .drained pos batch)
    (stored : s.capture.entry key = some e)
    (quiet : f.writes reads batch key = false) :
    ((f.toHold reads batch).foldl Buffer.holdOne s.capture.buffer).first key
      = some e.firstLSN := by
  have entries := Capture.batch_of_drained phase
  have distinct := entries ▸ ok.distinct
  have remains : Flushable.Remains f reads batch s.capture.entry _ key
      ((f.toHold reads batch).foldl Buffer.holdOne s.capture.buffer).entries[key]? _ :=
    Flushable.remains_of_hold distinct (ok.drainedFrom phase) key
  rw [Buffer.first]
  generalize ((f.toHold reads batch).foldl Buffer.holdOne s.capture.buffer).entries[key]? = held
    at remains ⊢
  generalize ((f.toHold reads batch).foldl Buffer.holdOne s.capture.buffer).pending[key]? = waits
    at remains
  have own : ∀ e' ∈ batch.entries, e'.key = key → e' = e := by
    rintro e' member rfl
    rw [Capture.entry_of_mem ok.distinct (entries ▸ member), Option.some.injEq] at stored
    exact stored
  cases remains with
  | untouched => rw [stored]; rfl
  | written writes =>
    rw [writes] at quiet
    cases quiet
  | completed e' h member keyed => rw [own e' member keyed]; rfl
  | awaiting e' member keyed => rw [← own e' member keyed]; rfl

end Streaming

/-! ### The changes a run has delivered and not accounted for -/

/-- Changes by their position in the log, each under a key whose entry carries it. -/
abbrev Outstanding := List (Key × ℕ)

/-- What a delivered change leaves outstanding: itself under every key it touches, and under a moved
row's new key what was outstanding under its old one. -/
def Outstanding.deliver (outstanding : Outstanding) (change : Change) (position : ℕ) :
    Outstanding :=
  change.keys.map (fun key => (key, position)) ++
    (match change with
      | .update key old _ _ =>
        (outstanding.filter fun x => decide (x.1 = old)).map fun x => (key, x.2)
      | _ => []) ++ outstanding

/-- What is outstanding after a step: a change leaves only when its key is discarded as uncut or
written by a flush that commits, and a later event of its key does not even take it out. -/
def Outstanding.after (setup : Setup) (s : State) (a : Action) (s' : State)
    (outstanding : Outstanding) : Outstanding :=
  match a with
  | .sendChange =>
    match s.server.log[s.capture.next]? with
    | some c =>
      if s'.capture.next = s.capture.next then outstanding
      else outstanding.deliver c.change s.capture.next
    | none => outstanding
  | .drain =>
    match s.capture.phase with
    | .snapped snap => outstanding.filter fun x =>
      decide (s.capture.buffer.fate s.copy.ledger.position snap x.1 ≠ .discarded)
    | _ => outstanding
  | .flush readLSN =>
    match s.capture.phase with
    | .drained _ batch =>
      match setup.flusher.flush setup.constraints (s.reads readLSN) batch with
      | .ok _ => outstanding.filter fun x =>
        !setup.flusher.writes (s.reads readLSN) batch x.1
      | .error _ => outstanding
    | _ => outstanding
  | .resume _ => []
  | _ => outstanding

/-- A run's state with what is outstanding in it. -/
structure Accounted where
  state : State
  outstanding : Outstanding := []

/-- A step, and what it leaves outstanding. -/
def accountedStep (setup : Setup) (x : Accounted) (a : Action) : Option Accounted :=
  (step setup x.state a).map fun s' => ⟨s', x.outstanding.after setup x.state a s'⟩

/-- Every outstanding change is carried by an entry first owed below its commit, and commits above
the confirmed position. -/
def Owing (s : State) (outstanding : Outstanding) : Prop :=
  ∀ key i, (key, i) ∈ outstanding → ∃ c lsn, s.server.log[i]? = some c ∧
    s.capture.first key = some lsn ∧ lsn < c.commit ∧ s.capture.stream.confirmed < c.commit

section Owing

variable {setup : Setup} {s s' : State} {a : Action} {outstanding : Outstanding} {buffer : Buffer}
  {phase : Phase} {pos : Position} {batch : Batch} {readLSN bound : LSN} {after : Table}
  (owing : Owing s outstanding)

include owing

theorem Owing.frame
    (log : ∀ (i : ℕ) (c : Committed), s.server.log[i]? = some c → s'.server.log[i]? = some c)
    (held : ∀ key lsn, s.capture.first key = some lsn →
      ∃ lower, s'.capture.first key = some lower ∧ lower ≤ lsn)
    (confirmed : s'.capture.stream.confirmed = s.capture.stream.confirmed) :
    Owing s' outstanding := by
  intro key i member
  obtain ⟨c, lsn, found, first, below, above⟩ := owing key i member
  obtain ⟨lower, first', lowers⟩ := held key lsn first
  exact ⟨c, lower, log i c found, first', by grind, confirmed ▸ above⟩

/-- A step that leaves what is held alone owes what was owed. -/
theorem Owing.same
    (log : ∀ (i : ℕ) (c : Committed), s.server.log[i]? = some c → s'.server.log[i]? = some c)
    (held : ∀ key, s'.capture.first key = s.capture.first key)
    (confirmed : s'.capture.stream.confirmed = s.capture.stream.confirmed) :
    Owing s' outstanding :=
  owing.frame log (fun key lsn first => ⟨lsn, (held key).trans first, UInt64.le_refl _⟩) confirmed

omit owing in
theorem lowers_some {delivered lsn : LSN} {after : Option LSN}
    (lowers : Buffer.Lowers delivered (some lsn) after) :
    ∃ lower, after = some lower ∧ lower ≤ lsn := by
  cases after with
  | none => exact absurd lowers id
  | some lower => exact ⟨lower, rfl, lowers⟩

/-- The change sent is owed from its place in the log on. -/
theorem Owing.sendChange (ok : Streaming s) {c : Committed}
    (gathering : s.capture.phase = .gathering)
    (found : s.server.log[s.capture.next]? = some c)
    (added : s.capture.buffer.add
      (c.change.event setup.relation s.capture.stream.delivered c.xid) = .ok buffer) :
    Owing { s with capture := { s.capture with buffer, next := s.capture.next + 1 } }
      (outstanding.deliver c.change s.capture.next) := by
  have nothing : s.capture.batch = [] := by rw [Capture.batch, gathering]
  have after : ∀ key, Capture.first { s.capture with buffer, next := s.capture.next + 1 } key
      = buffer.first key := fun key => Capture.first_eq nothing
  have before : ∀ key, s.capture.first key = s.capture.buffer.first key := fun key =>
    Capture.first_eq nothing
  have merged := Buffer.first_add added
  have kept : Owing { s with capture := { s.capture with buffer, next := s.capture.next + 1 } }
      outstanding := by
    refine owing.frame (fun _ _ found => found) (fun key lsn first => ?_) rfl
    have lowers := merged.lowers key
    rw [← before, first] at lowers
    rw [after]
    exact lowers_some lowers
  -- a key the change touches has an entry first owed at or below the delivered position
  have entered : ∀ key, buffer.first key ≠ none → ∃ c' lsn,
      s.server.log[s.capture.next]? = some c' ∧ buffer.first key = some lsn ∧ lsn < c'.commit ∧
        s.capture.stream.confirmed < c'.commit := by
    intro key entered
    obtain ⟨lsn, first⟩ := Option.ne_none_iff_exists'.mp entered
    have ahead := ok.ahead _ c le_rfl found
    have confirmed := ok.confirmed
    refine ⟨c, lsn, found, first, ?_, by grind⟩
    rcases first_of_add added first with ⟨-, low⟩ | ⟨old, replaced, low⟩
    · grind
    · have early := ok.early_buffer replaced
      grind
  intro key i member
  rcases List.mem_append.mp member with entry | old
  · rcases List.mem_append.mp entry with own | carried
    · obtain ⟨k, touched, ⟨⟩⟩ := List.mem_map.mp own
      rw [after]
      exact entered key (entered_of_touched merged touched)
    · -- a moved image's first position covers what its old key owed
      cases change : c.change with
      | insert k row => simp [change] at carried
      | delete k => simp [change] at carried
      | update k old row omitted =>
        simp only [change, List.mem_map, List.mem_filter, decide_eq_true_eq] at carried
        obtain ⟨⟨from_, j⟩, ⟨owed, origin⟩, ⟨⟩⟩ := carried
        subst origin
        by_cases same : from_ = key
        · exact kept key j (same ▸ owed)
        · obtain ⟨c', lsn, there, first, below, above⟩ := owing from_ j owed
          rw [change] at merged
          obtain ⟨-, lower, moved, covers⟩ :=
            merged.moved from_ (by simp [Buffer.movesFrom, Change.event, same])
          have carries := covers lsn (before from_ ▸ first)
          exact ⟨c', lower, there, (after key).trans moved, by grind, above⟩
  · exact kept key i old

theorem Owing.rebuffer
    (nothing : Capture.batch { s.capture with buffer, phase } = [])
    (held : ∀ key lsn, s.capture.first key = some lsn → buffer.first key = some lsn) :
    Owing { s with capture := { s.capture with buffer, phase } } outstanding := by
  refine owing.frame (fun _ _ found => found) (fun key lsn first => ?_) rfl
  rw [Capture.first_eq nothing]
  exact ⟨lsn, held key lsn first, UInt64.le_refl _⟩

theorem Owing.rephase (before : s.capture.batch = [])
    (nothing : Capture.batch { s.capture with phase } = []) :
    Owing { s with capture := { s.capture with phase } } outstanding :=
  owing.rebuffer nothing fun _ _ first => Capture.first_eq before ▸ first

/-- A drain discards what the copy has not cut. -/
theorem Owing.drain {snap : Snapshot} (phase : s.capture.phase = .snapped snap) :
    Owing { s with capture := s.capture.drain pos snap }
      (outstanding.filter fun x => decide (s.capture.buffer.fate pos snap x.1 ≠ .discarded)) := by
  have nothing : s.capture.batch = [] := by rw [Capture.batch, phase]
  intro key i member
  rw [List.mem_filter, decide_eq_true_eq] at member
  obtain ⟨c, lsn, found, first, rest⟩ := owing key i member.1
  refine ⟨c, lsn, found, ?_, rest⟩
  rw [Capture.first_eq nothing] at first
  rw [Capture.first, entry_drain, if_neg member.2]
  exact first

/-- What a flush writes is no longer owed. -/
theorem Owing.flush (ok : Streaming s) (phase : s.capture.phase = .drained pos batch) :
    Owing { s with
        shadow := after
        capture := { s.capture with
          buffer := (setup.flusher.toHold (s.reads readLSN) batch).foldl Buffer.holdOne
            s.capture.buffer
          phase := .applied } }
      (outstanding.filter fun x => !setup.flusher.writes (s.reads readLSN) batch x.1) := by
  intro key i member
  rw [List.mem_filter, Bool.not_eq_true'] at member
  obtain ⟨c, lsn, found, first, rest⟩ := owing key i member.1
  refine ⟨c, lsn, found, ?_, rest⟩
  obtain ⟨e, stored, rfl⟩ := Option.map_eq_some_iff.mp first
  rw [Capture.first_eq rfl]
  exact ok.first_hold_of_entry phase stored member.2

/-- What is owed lies above the slot that is confirmed. -/
theorem Owing.confirm (ok : Streaming s)
    (phase : s.capture.phase = .applied)
    (named : bound = confirmBound s.capture.stream.delivered s.capture.buffer.oldestPending) :
    Owing { s with
        server := s.server.advanceSlot bound
        capture := { s.capture with
          stream := { s.capture.stream with confirmed := bound }, phase := .confirmed } }
      outstanding := by
  have nothing : s.capture.batch = [] := by rw [Capture.batch, phase]
  intro key i member
  obtain ⟨c, lsn, found, first, below, -⟩ := owing key i member
  rw [Capture.first_eq nothing] at first
  have covers : bound ≤ lsn := named ▸ confirmBound_le_first ok.oldest first
  refine ⟨c, lsn, ?_, (Capture.first_eq rfl).trans first, below, ?_⟩
  · show (s.server.advanceSlot bound).log[i]? = some c
    rw [Server.advanceSlot_eq]
    exact found
  · show bound < c.commit
    grind

omit owing in
theorem Streaming.hold_ne_error (ok : Streaming s) {result : Result} {v : Violation}
    (phase : s.capture.phase = .drained pos batch)
    (flushed : setup.flusher.flush setup.constraints (s.reads readLSN) batch =
      .ok (after, result)) :
    s.capture.buffer.hold result.held ≠ .error v := by
  rw [ok.held_eq phase flushed, Flushable.hold_eq (ok.drainedFrom phase)]
  exact fun impossible => (nomatch impossible)

/-- **Every step keeps what is owed above the confirmed position.** -/
theorem Owing.step (ok : Streaming s) (steps : Steps setup s a s') :
    Owing s' (outstanding.after setup s a s') := by
  cases steps with
  | fails cause =>
    have kept : ∀ fault, Owing (s.fail fault) outstanding := fun _ => owing
    cases cause with
    | sendBegin => exact kept _
    | changeOutside =>
      rw [Outstanding.after]
      split <;> simpa [State.fail] using kept _
    | add _ found =>
      simp only [Outstanding.after, found, State.fail, if_true]
      exact kept _
    | sendCommit => exact kept _
    | cannotConverge phase _ deferred =>
      simpa only [Outstanding.after, phase, deferred] using kept _
    | requeue phase deferred => simpa only [Outstanding.after, phase, deferred] using kept _
    | violation phase _ violated => simpa only [Outstanding.after, phase, violated] using kept _
    | refused phase _ refused => simpa only [Outstanding.after, phase, refused] using kept _
    | confirm => exact kept _
  | commit committed =>
    obtain ⟨-, -, -, rfl⟩ := Server.commit_eq committed
    refine owing.same (fun i c found => ?_) (fun _ => rfl) rfl
    exact (List.getElem?_append_left (List.getElem?_eq_some_iff.mp found).1).trans found
  | keepalive =>
    exact owing.same (fun _ _ found => found) (fun _ => rfl) Stream.confirmed_handleKeepalive
  | sendChange gathering found _ added =>
    simp only [Outstanding.after, found, Nat.succ_ne_self, if_false]
    exact owing.sendChange ok gathering found added
  | sendCommit =>
    exact owing.same (fun _ _ found => found) (fun _ => rfl) Stream.confirmed_raiseDelivered
  | release gathering =>
    have nothing : s.capture.batch = [] := by rw [Capture.batch, gathering]
    refine owing.rebuffer rfl fun key lsn first => ?_
    rw [Buffer.first_release]
    exact Capture.first_eq nothing ▸ first
  | pause phase => exact owing.rephase (by rw [Capture.batch, phase]) rfl
  | snapshot phase => exact owing.rephase (by rw [Capture.batch, phase]) rfl
  | drain phase =>
    simp only [Outstanding.after, phase]
    exact owing.drain phase
  | flush phase _ flushed held =>
    rw [ok.held_eq phase flushed] at held
    obtain rfl := Buffer.hold_ok held
    simp only [Outstanding.after, phase, flushed]
    exact owing.flush ok phase
  | holdFails phase _ flushed refused => exact absurd refused (ok.hold_ne_error phase flushed)
  | requeue phase _ deferred _ requeued =>
    simp only [Outstanding.after, phase, deferred]
    refine owing.rebuffer rfl fun key lsn first => ?_
    rw [ok.first_requeue phase requeued]
    exact first
  | confirmed phase => exact owing.rephase (by rw [Capture.batch, phase]) rfl
  | confirm phase named => exact owing.confirm ok phase named
  | record phase =>
    have kept : Owing { s with capture := { s.capture with phase := .gathering } } outstanding :=
      owing.rephase (by rw [Capture.batch, phase]) rfl
    exact kept
  | resume => exact fun key i member => (nomatch member)
  -- nothing else moves what is held, delivered or confirmed
  | _ => exact owing

end Owing

/-! ### The confirmed position -/

section Confirmed

variable {setup : Setup} {s s' : State} {a : Action}

/-- The confirmed position never moves back. -/
theorem confirmed_mono (steps : Steps setup s a s') (continues : a.continues = true) :
    s.capture.stream.confirmed ≤ s'.capture.stream.confirmed := by
  cases steps with
  | keepalive =>
    show _ ≤ (s.capture.stream.handleKeepalive _).confirmed
    rw [Stream.confirmed_handleKeepalive]
    exact UInt64.le_refl _
  | sendCommit =>
    show _ ≤ (Stream.raiseDelivered _ _).confirmed
    rw [Stream.confirmed_raiseDelivered]
    exact UInt64.le_refl _
  | confirm _ _ above => exact UInt64.le_of_lt above
  | resume => cases continues
  | _ => exact UInt64.le_refl _

theorem confirm_ok (stream : Stream) (oldest : Option LSN)
    (above : stream.confirmed < confirmBound stream.delivered oldest) :
    stream.confirm (confirmBound stream.delivered oldest)
      = .ok { stream with confirmed := confirmBound stream.delivered oldest } := by
  have bound := confirmBound_le stream.delivered oldest
  rw [Stream.confirm, if_neg (by grind), if_neg (by grind)]

end Confirmed

/-- **Confirming is safe.** After any run every change that was delivered and is neither written nor
discarded commits above the confirmed position, which is delivered and is one the stream takes, and
no further step of the run moves it back. -/
theorem confirmed_below_outstanding (setup : Setup) (base : Table) (point : LSN) (x : Accounted)
    (reached : Reaches (accountedStep setup) anyStep ⟨fresh base point, []⟩ x) :
    (∀ key i, (key, i) ∈ x.outstanding → ∃ c, x.state.server.log[i]? = some c ∧
        x.state.capture.stream.confirmed < c.commit) ∧
      x.state.capture.stream.confirmed ≤ x.state.capture.stream.delivered ∧
      (∀ bound, bound = confirmBound x.state.capture.stream.delivered
          x.state.capture.buffer.oldestPending →
        x.state.capture.stream.confirmed < bound →
        ∃ stream, x.state.capture.stream.confirm bound = .ok stream) ∧
      ∀ a x', accountedStep setup x a = some x' → a.continues = true →
        x.state.capture.stream.confirmed ≤ x'.state.capture.stream.confirmed := by
  obtain ⟨ok, owing⟩ : Streaming x.state ∧ Owing x.state x.outstanding := by
    refine reached.invariant (P := fun x => Streaming x.state ∧ Owing x.state x.outstanding)
      ⟨streaming_fresh base point, fun key i member => (nomatch member)⟩ ?_
    rintro x a x' ⟨ok, owing⟩ - taken
    obtain ⟨s', stepped, rfl⟩ := Option.map_eq_some_iff.mp taken
    have steps := steps_of_step stepped
    exact ⟨ok.step steps, owing.step ok steps⟩
  refine ⟨fun key i member => ?_, ok.confirmed, ?_, fun a x' taken continues => ?_⟩
  · obtain ⟨c, lsn, found, -, -, above⟩ := owing key i member
    exact ⟨c, found, above⟩
  · rintro bound rfl above
    exact ⟨_, confirm_ok _ _ above⟩
  · obtain ⟨s', stepped, rfl⟩ := Option.map_eq_some_iff.mp taken
    exact confirmed_mono (steps_of_step stepped) continues

/-- A transaction inserts a row, and a cycle that copies nothing discards and confirms it; the next
one is delivered. -/
def discardingRun : List Action :=
  [.commit [.insert 1 fun _ => some "a"] 7 20, .becomeVisible 20, .sendBegin 7 20, .sendChange,
    .sendCommit, .release, .snapshot { xmin := 8, xmax := 8, read := true }, .drain, .flush 20,
    .confirm, .record, .commit [.insert 2 fun _ => some "b"] 8 30, .sendBegin 8 30, .sendChange,
    .sendCommit]

/-- The second transaction's change stays outstanding above what the run has confirmed. -/
theorem confirmed_below_outstanding_run :
    ∃ x, run (accountedStep (Setup.bare ["v"])) (fun _ _ => true) ⟨fresh ∅ 10, []⟩ discardingRun
        = some x ∧
      x.outstanding = [(2, 1)] ∧ x.state.capture.stream.confirmed = 20 ∧
      ∃ c, x.state.server.log[1]? = some c ∧ x.state.capture.stream.confirmed < c.commit := by
  have marks : (run (accountedStep (Setup.bare ["v"])) (fun _ _ => true) ⟨fresh ∅ 10, []⟩
      discardingRun).map (fun x => (x.outstanding, x.state.capture.stream.confirmed))
        = some ([(2, 1)], 20) := by
    decide +kernel
  obtain ⟨x, ran, shape⟩ := Option.map_eq_some_iff.mp marks
  rw [Prod.mk.injEq] at shape
  have reached := reaches_of_run (fun _ _ _ => trivial) .refl ran
  exact ⟨x, ran, shape.1, shape.2,
    (confirmed_below_outstanding _ ∅ 10 x reached).1 2 1 (by simp [shape.1])⟩

end PgSprite.Live
