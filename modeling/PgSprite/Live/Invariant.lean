/-
**What every live run keeps true of the shadow.**

`Inv` ties the parts together. `g k` is the position of the first change on `k` the shadow may still
owe: what the catch-up holds tracks the history from there (`Tracks`), what the copier has landed is
settled from there on (`Copied`), everything below it is visible to every reader, and everything
from it on commits above the slot and above the position the key's entry is first owed at, so that
no confirmation and no restart skips it.

* `Inv.flushable` — a drained batch is what the flush's lemmas take;
* `Inv.step` — every step keeps the invariant, given two things of its flushes. `OriginsClear`: a
  flush completes a moved image from the row under its old key, and after a restart that key may be
  one the copier has not cleared. `RefusedInPlace`: a flush that is refused as whole rows too has
  completed its images in the columns of the batch, which goes back with what it read.
-/

import PgSprite.Live.Confirm
import PgSprite.Live.Copied

namespace PgSprite.Live

open Std PgSprite.Decode PgSprite.Source PgSprite.Lib PgSprite.Applier PgSprite.Copier

/-- The completions that are pending, by key. -/
def Capture.pend (c : Capture) (key : Key) : Option PendingCompletion := c.buffer.pending[key]?

/-- What a live run keeps true. `pristine` says that no earlier run has left rows in the shadow. -/
structure Inv (setup : Setup) (pristine : Bool) (g : Key → ℕ) (s : State) : Prop where
  streaming : Streaming s
  tracks : Tracks setup.flusher setup.relation s.server.history s.capture.next g s.capture.entry
    s.capture.pend
  /-- What a key still owes commits above the slot, and above the first position of its entry. -/
  owed : ∀ (k : Key) (i : ℕ) (c : Committed), g k ≤ i → s.server.log[i]? = some c →
    s.server.slot < c.commit ∧ ∀ lsn, s.capture.first k = some lsn → lsn < c.commit
  through : ∀ k, SeenThrough s.server.seen s.server.history k (g k)
  copied : Copied setup.flusher s.server.seen s.server.history g pristine s.copy s.shadow
  /-- What the snapshot shows is visible to every reader. -/
  snapped : ∀ snap, s.capture.phase = .snapped snap → ∀ (k : Key) (e : Entry),
    s.capture.buffer.entries[k]? = some e → snap.visible e.xid = true →
    SeenThrough s.server.seen s.server.history k s.capture.next
  drained : ∀ e ∈ s.capture.batch,
    SeenThrough s.server.seen s.server.history e.key s.capture.next ∧
      s.copy.ledger.state e.key = .landed
  saved : ∀ k, s.checkpoint.watermark.reaches k = true → s.copy.ledger.state k = .landed
  saving : ∀ row, s.saving = .row row → ∀ k, row.watermark.reaches k = true →
    s.copy.ledger.state k = .landed

/-- A flush takes no completion from a row that an earlier run left under a key this run has not
cut. -/
def OriginsClear (s : State) : Action → Prop
  | .flush _ => ∀ e ∈ s.capture.batch, Flusher.named e = true → e.oldKeyReused = false →
      ∀ old, e.oldKey = some old → s.copy.ledger.state old = .uncut → s.shadow[old]? = none
  | _ => True

/-- The cells that the batch's unmoved images omit hold, in the shadow, what the source's rows hold
at the delivered position. -/
def CellsInPlace (setup : Setup) (s : State) : Prop :=
  ∀ e ∈ s.capture.batch, e.kind = .image → Flusher.named e = false →
    ∀ row, s.shadow[e.key]? = some row → ∀ name ∈ setup.flusher.columns,
      valueOf e.columns name = none →
      ∃ x, s.server.history.row s.capture.next e.key = some x ∧
        row name = setup.flusher.converted name (x name)

/-- Where the rows a flush would leave collide, and the copy has chunks left that may resolve that,
the cells its images omit are in place. -/
def RefusedInPlace (setup : Setup) (s : State) : Action → Prop
  | .flush readLSN => ∀ pos batch, s.capture.phase = .drained pos batch → copyLanded pos = false →
      Flusher.Collides setup.constraints
        (setup.flusher.leave s.shadow (setup.flusher.toWrite (s.reads readLSN) batch))
        (setup.flusher.toWrite (s.reads readLSN) batch) →
      CellsInPlace setup s
  | _ => True

section Inv

variable {setup : Setup} {pristine : Bool} {g : Key → ℕ} {s s' : State} {a : Action}
  {pos : Position} {batch : Batch} {readLSN bound kept start : LSN} {buffer : Buffer}
  {after : Table}
  {result : Result} {snap : Snapshot}

/-- A catch-up that has just opened its stream holds nothing. -/
theorem tracks_opened {c : Capture} (nothing : c.batch = []) (empty : c.buffer = .new)
    {f : Flusher} {relation : List Name} {h : History} {d : ℕ} :
    Tracks f relation h d (fun _ => d) c.entry c.pend := by
  have free : ∀ key : Key, c.buffer.entries[key]? = none := by simp [empty, Buffer.new]
  have entries : c.entry = fun _ => none :=
    funext fun key => (Capture.entry_eq nothing).trans (free key)
  have pend : c.pend = fun _ => none := funext fun key => Buffer.pending_of_absent (free key)
  rw [entries, pend]
  exact tracks_empty

/-- A fresh system owes everything from the start of its log. -/
theorem inv_fresh (base : Table) (point : LSN) :
    Inv setup true (fun _ => 0) (fresh base point) where
  streaming := streaming_fresh base point
  tracks := tracks_opened rfl rfl
  owed k i c _ found := (nomatch found)
  through k := ⟨Nat.zero_le _, fun i c below => absurd below (Nat.not_lt_zero i)⟩
  copied := copied_fresh
  snapped snap phase := (nomatch phase)
  drained e member := (nomatch member)
  saved k reached := (nomatch reached)
  saving row saving := (nomatch saving)

/-! ### A flush -/

section Flush

variable (inv : Inv setup pristine g s)

include inv

theorem Inv.pend_of_drained {e : Entry} (member : e ∈ s.capture.batch) :
    s.capture.pend e.key = none :=
  Buffer.pending_of_absent (inv.streaming.apart e member)

/-- **A drained batch is what the flush's lemmas take.** -/
theorem Inv.flushable (phase : s.capture.phase = .drained pos batch)
    (readAt : s.server.readAt readLSN = true) (clear : OriginsClear s (.flush readLSN)) :
    Flushable setup.flusher setup.relation s.server.seen s.server.history s.capture.next g
      s.capture.entry s.capture.pend (s.reads readLSN) batch := by
  have entries := Capture.batch_of_drained phase
  have ok := inv.streaming
  refine ⟨setup.decodes, ok.server.valid, inv.tracks, entries ▸ ok.distinct, fun e member => ?_,
    fun e member => ?_, fun e member => ?_, fun e member named fresh old row moved there => ?_,
    fun k => ok.server.exists_position k, fun i c _ found seen => ?_⟩
  · exact ⟨Capture.entry_of_mem ok.distinct (entries ▸ member),
      inv.pend_of_drained (entries ▸ member)⟩
  · exact (inv.drained e (entries ▸ member)).1
  · exact inv.copied.landed e.key (inv.drained e (entries ▸ member)).2
  · refine inv.copied.settled_of_row there fun uncut => ?_
    have none := clear e (entries ▸ member) named fresh old moved uncut
    replace there : s.shadow[old]? = some row := there
    rw [none] at there
    cases there
  · have bound := List.all_eq_true.mp readAt c (List.mem_of_getElem? found)
    show c.commit ≤ readLSN
    simpa [seen] using bound

theorem Inv.landed_of_writes {reads : Reads} {k : Key}
    (phase : s.capture.phase = .drained pos batch)
    (writes : setup.flusher.writes reads batch k = true) :
    SeenThrough s.server.seen s.server.history k s.capture.next ∧
      s.copy.ledger.state k = .landed := by
  obtain ⟨e, member, rfl, -⟩ := Flushable.of_writes writes
  exact inv.drained e (Capture.batch_of_drained phase ▸ member)

/-- A flush that goes through writes what it owes, as read at its own position. -/
theorem Inv.flush
    (phase : s.capture.phase = .drained pos batch) (readAt : s.server.readAt readLSN = true)
    (flushed : setup.flusher.flush setup.constraints (s.reads readLSN) batch = .ok (after, result))
    (held : s.capture.buffer.hold result.held = .ok buffer)
    (clear : OriginsClear s (.flush readLSN)) :
    Inv setup pristine (setup.flusher.owedAfter (s.reads readLSN) batch g s.capture.next) { s with
      shadow := after, capture := { s.capture with buffer, phase := .applied } } := by
  have ok := inv.streaming
  have streaming := ok.flush phase flushed held
  have flushable := inv.flushable phase readAt clear
  obtain ⟨wrote, -, same⟩ := Flusher.flush_ok flushable.distinct flushed
  rw [same] at held
  obtain rfl := Buffer.hold_ok held
  have quiet : ∀ {k}, setup.flusher.writes (s.reads readLSN) batch k = false →
      setup.flusher.owedAfter (s.reads readLSN) batch g s.capture.next k = g k := by
    intro k quiet
    rw [Flusher.owedAfter, quiet]
    rfl
  have raised : ∀ k, g k ≤ setup.flusher.owedAfter (s.reads readLSN) batch g s.capture.next k := by
    intro k
    have bound := inv.tracks.bounded k
    rw [Flusher.owedAfter]
    split <;> omega
  refine ⟨streaming, ?_, fun k i c past found => ?_, fun k => ?_, ?_,
    fun snap other => (by cases other), fun e member => (by cases member), inv.saved, inv.saving⟩
  · rw [Capture.entry_eq_buffer rfl]
    exact flushable.tracks_after
      fun k => Flushable.remains_of_hold flushable.distinct (ok.drainedFrom phase) k
  · obtain ⟨slot, first⟩ := inv.owed k i c ((raised k).trans past) found
    refine ⟨slot, fun lsn there => ?_⟩
    rw [Capture.first_eq rfl] at there
    obtain ⟨e, stored, rfl, -⟩ := ok.first_hold phase there
    exact first _ (by rw [Capture.first, stored]; rfl)
  · cases writes : setup.flusher.writes (s.reads readLSN) batch k with
    | true =>
      rw [Flusher.owedAfter, if_pos writes]
      exact (inv.landed_of_writes phase writes).1
    | false =>
      rw [quiet writes]
      exact inv.through k
  · refine inv.copied.frame (fun k _ settled => flushable.settled_after wrote settled)
      (fun k uncut => ?_) fun k flight => ?_
    · refine Flushable.frame_of_writes wrote (Bool.eq_false_iff.mpr fun writes => ?_)
      rw [(inv.landed_of_writes phase writes).2] at uncut
      cases uncut
    · have apart : setup.flusher.writes (s.reads readLSN) batch k = false :=
        Bool.eq_false_iff.mpr fun writes => by
          rw [(inv.landed_of_writes phase writes).2] at flight
          cases flight
      refine ⟨Flushable.frame_of_writes wrote apart, fun x held => ?_⟩
      rw [quiet apart]
      exact held

/-! ### The stream -/

theorem Inv.tracked (nothing : s.capture.batch = []) :
    Tracked setup.flusher setup.relation s.server.history s.capture.next g s.capture.buffer := by
  have tracks := inv.tracks
  rwa [Capture.entry_eq_buffer nothing] at tracks

/-- **A delivered change keeps the invariant**: keys it does not touch owe one position less. -/
theorem Inv.sendChange {c : Committed}
    (gathering : s.capture.phase = .gathering)
    (found : s.server.log[s.capture.next]? = some c)
    (added : s.capture.buffer.add
      (c.change.event setup.relation s.capture.stream.delivered c.xid) = .ok buffer) :
    Inv setup pristine (owedAfter g s.capture.next buffer) { s with
      capture := { s.capture with buffer, next := s.capture.next + 1 } } := by
  have ok := inv.streaming
  have nothing : s.capture.batch = [] := by rw [Capture.batch, gathering]
  have nothing' : Capture.batch { s.capture with buffer, next := s.capture.next + 1 } = [] :=
    nothing
  obtain ⟨b', same, tracks⟩ := (inv.tracked nothing).add ok.server.valid setup.decodes found
    s.capture.stream.delivered
  rw [added, Except.ok.injEq] at same
  subst same
  have raised := (inv.tracked nothing).raised found added
  refine ⟨ok.sendChange gathering found added, ?_, fun k i c' past there => ?_, fun k => ?_, ?_,
    fun snap other => ?_, fun e member => ?_, inv.saved, inv.saving⟩
  · rw [Capture.entry_eq_buffer nothing']
    exact tracks
  · obtain ⟨slot, first⟩ := inv.owed k i c' ((raised k).1.trans past) there
    refine ⟨slot, fun lsn after => ?_⟩
    rw [Capture.first_eq nothing'] at after
    rcases first_of_add added after with ⟨before, low⟩ | ⟨old, before, low⟩
    · have free := (inv.tracked nothing).free k (Buffer.first_eq_none.mp before)
      have ahead := ok.ahead i c' (free ▸ (raised k).1.trans past) there
      grind
    · have below := first old ((Capture.first_eq nothing).trans before)
      grind
  · exact (inv.through k).raise (raised k).2.1 (raised k).2.2
  · exact inv.copied.frame
      (fun k _ settled => settled.raise (raised k).2.1 (raised k).2.2) (fun _ _ => rfl)
      fun k _ => ⟨rfl, fun x held => held.raise (raised k).2.1 (raised k).2.2⟩
  · replace other : s.capture.phase = .snapped snap := other
    rw [gathering] at other
    cases other
  · rw [nothing'] at member
    cases member

/-! ### The source -/

/-- A commit adds to the history and takes nothing from what is owed. -/
theorem Inv.commit {changes : List Change} {id : UInt64} {lsn : LSN}
    {server : Server} (committed : s.server.commit changes id lsn = some server) :
    Inv setup pristine g { s with server } := by
  have ok := inv.streaming
  have streaming := ok.commit committed
  obtain ⟨later, -, -, rfl⟩ := Server.commit_eq committed
  have keeps : ∀ c, s.server.seen c = true → s.server.seen c = true := fun _ seen => seen
  refine ⟨streaming, inv.tracks.extend _ ok.within, fun k i c past found => ?_,
    fun k => (inv.through k).extend keeps _, ?_,
    fun snap phase k e stored visible => (inv.snapped snap phase k e stored visible).extend keeps _,
    fun e member => ?_, inv.saved, inv.saving⟩
  · rcases log_of_commit found with old | new
    · exact inv.owed k i c past old
    · have slot := ok.slot
      refine ⟨?_, fun first there => ?_⟩
      · show s.server.slot < c.commit
        grind
      · obtain ⟨e, stored, rfl⟩ := Option.map_eq_some_iff.mp there
        have early := ok.early k e stored
        have written := ok.written
        grind
  · exact inv.copied.frame (fun k _ settled => settled.extend keeps _) (fun _ _ => rfl)
      fun k _ => ⟨rfl, fun x held => held.extend keeps _⟩
  · obtain ⟨shown, landed⟩ := inv.drained e member
    exact ⟨shown.extend keeps _, landed⟩

/-- What becomes visible only widens what the readers see. -/
theorem Inv.becomeVisible (lsn : LSN) :
    Inv setup pristine g { s with server := s.server.becomeVisible lsn } := by
  have grows : ∀ c, s.server.seen c = true → (s.server.becomeVisible lsn).seen c = true :=
    fun c seen => seen_becomeVisible seen
  have streaming := inv.streaming
  refine { inv with
    streaming := { streaming with server := streaming.server.becomeVisible }
    through := fun k => (inv.through k).mono grows
    copied := inv.copied.frame (fun k _ settled => settled.imp fun x held => held.mono grows)
      (fun _ _ => rfl) fun k _ => ⟨rfl, fun x held => held.mono grows⟩
    snapped := fun snap phase k e stored visible =>
      (inv.snapped snap phase k e stored visible).mono grows
    drained := fun e member => ?_ }
  obtain ⟨shown, landed⟩ := inv.drained e member
  exact ⟨shown.mono grows, landed⟩

/-! ### The cycle -/

/-- A change of the buffer keeps the invariant where it tracks what is owed and moves no first
position. -/
theorem Inv.rebuffer {phase : Phase}
    (streaming : Streaming { s with capture := { s.capture with buffer, phase } })
    (nothing : Capture.batch { s.capture with buffer, phase } = [])
    (tracks : Tracked setup.flusher setup.relation s.server.history s.capture.next g buffer)
    (first : ∀ k lsn, buffer.first k = some lsn → s.capture.first k = some lsn)
    (snapped : ∀ snap, phase = .snapped snap → ∀ (k : Key) (e : Entry),
      buffer.entries[k]? = some e → snap.visible e.xid = true →
      SeenThrough s.server.seen s.server.history k s.capture.next) :
    Inv setup pristine g { s with capture := { s.capture with buffer, phase } } := by
  refine { inv with
    streaming := streaming, tracks := ?_, owed := fun k i c past found => ?_, snapped := snapped
    drained := fun e member => ?_ }
  · rw [Capture.entry_eq_buffer nothing]
    exact tracks
  · obtain ⟨slot, below⟩ := inv.owed k i c past found
    refine ⟨slot, fun lsn there => below lsn (first k lsn ?_)⟩
    rw [Capture.first_eq nothing] at there
    exact there
  · rw [nothing] at member
    cases member

/-- A change of phase moves nothing. -/
theorem Inv.rephase {phase : Phase} (before : s.capture.batch = [])
    (nothing : Capture.batch { s.capture with phase } = [])
    (snapped : ∀ snap, phase = .snapped snap → ∀ (k : Key) (e : Entry),
      s.capture.buffer.entries[k]? = some e → snap.visible e.xid = true →
      SeenThrough s.server.seen s.server.history k s.capture.next) :
    Inv setup pristine g { s with capture := { s.capture with phase } } :=
  inv.rebuffer (inv.streaming.rephase nothing) nothing (inv.tracked before)
    (fun _ _ first => (Capture.first_eq before).trans first) snapped

/-- A release is at a position the stream has delivered everything through. -/
theorem Inv.deliveredThrough :
    DeliveredThrough s.server.history s.capture.next s.capture.stream.delivered :=
  fun i c past found => inv.streaming.ahead i c past found

/-- A release fills the held entries that the stream has passed. -/
theorem Inv.release (gathering : s.capture.phase = .gathering) :
    Inv setup pristine g { s with
      capture := { s.capture with
        buffer := s.capture.buffer.release s.capture.stream.delivered, phase := .released } } := by
  have nothing : s.capture.batch = [] := by rw [Capture.batch, gathering]
  refine inv.rebuffer (inv.streaming.step (Steps.release gathering : Steps setup s .release _)) rfl
    ((inv.tracked nothing).release setup.decodes inv.deliveredThrough) (fun k lsn first => ?_)
    fun snap other => (by cases other)
  rw [Buffer.first_release] at first
  exact (Capture.first_eq nothing).trans first

/-- **What the reported snapshot counts as visible is visible**, with every earlier change of the
same key. -/
theorem Inv.snapshot
    (released : s.capture.phase = .released)
    (reports : s.capture.buffer.len ≠ 0 → s.server.reports snap = true) :
    Inv setup pristine g { s with capture := { s.capture with phase := .snapped snap } } := by
  have nothing : s.capture.batch = [] := by rw [Capture.batch, released]
  refine inv.rephase nothing rfl fun snap' same k e stored visible => ?_
  cases same
  have some : s.capture.buffer.len ≠ 0 := by
    intro empty
    rw [Buffer.len] at empty
    simp [ExtTreeMap.eq_empty_iff_size_eq_zero.mpr empty] at stored
  obtain ⟨i, c, latest, xid⟩ := (inv.tracked nothing).latest k e stored
  refine inv.streaming.server.seenThrough latest inv.streaming.within ?_
  exact Server.seen_of_reports (reports some) (List.mem_of_getElem? latest.2.1) (xid ▸ visible)

end Flush

/-- The first change owed on each key once a drain has discarded the uncut ones. -/
def owedAfterDrain (g : Key → ℕ) (d : ℕ) (b : Buffer) (pos : Position) (snap : Snapshot)
    (key : Key) : ℕ :=
  if b.fate pos snap key = .discarded then d else g key

section Cycle

variable (inv : Inv setup pristine g s)

include inv

/-- **A drain keeps the invariant**: what it discards every later chunk read sees, and what it takes
out to flush is landed and visible. -/
theorem Inv.drain (phase : s.capture.phase = .snapped snap) :
    Inv setup pristine
      (owedAfterDrain g s.capture.next s.capture.buffer s.copy.ledger.position snap)
      { s with capture := s.capture.drain s.copy.ledger.position snap } := by
  have ok := inv.streaming
  have nothing : s.capture.batch = [] := by rw [Capture.batch, phase]
  have tracked := inv.tracked nothing
  generalize same : s.copy.ledger.position = pos
  -- a discarded key is uncut and visible, or holds no entry and owes nothing
  have discarded : ∀ {k}, s.capture.buffer.fate pos snap k = .discarded →
      (g k = s.capture.next ∧ s.capture.buffer.pending[k]? = none) ∨
        (s.copy.ledger.state k = .uncut ∧ s.capture.buffer.pending[k]? = none ∧
          SeenThrough s.server.seen s.server.history k s.capture.next) := by
    intro k gone
    cases stored : s.capture.buffer.entries[k]? with
    | none =>
      exact Or.inl ⟨tracked.free k stored, Buffer.pending_of_absent stored⟩
    | some e =>
      obtain ⟨free, visible, uncut⟩ := Buffer.fate_discarded stored gone
      refine Or.inr ⟨?_, free, inv.snapped snap phase k e stored visible⟩
      rw [Ledger.state, same]
      exact uncut
  have raised : ∀ k, g k ≤ owedAfterDrain g s.capture.next s.capture.buffer pos snap k := by
    intro k
    have bound := inv.tracks.bounded k
    rw [owedAfterDrain]
    split <;> omega
  have kept : ∀ {k}, s.copy.ledger.state k ≠ .uncut →
      owedAfterDrain g s.capture.next s.capture.buffer pos snap k = g k := by
    intro k cut
    rw [owedAfterDrain]
    split
    next gone =>
      rcases discarded gone with ⟨free, -⟩ | ⟨uncut, -⟩
      · exact free.symm
      · exact absurd uncut cut
    next => rfl
  refine ⟨ok.drain phase, ?_, fun k i c past found => ?_, fun k => ?_, ?_,
    fun snap' other => (by cases other), fun e member => ?_, inv.saved, inv.saving⟩
  · have entries : (s.capture.drain pos snap).entry
        = fun k => if s.capture.buffer.fate pos snap k = .discarded then none
          else s.capture.buffer.entries[k]? := funext fun k => entry_drain snap pos k
    have pend : (s.capture.drain pos snap).pend
        = fun k => s.capture.buffer.pending[k]? := funext fun k => Buffer.pending_drain
    rw [entries, pend]
    refine tracked.discard (fun k => s.capture.buffer.fate pos snap k = .discarded) fun k gone => ?_
    rcases discarded gone with ⟨-, free⟩ | ⟨-, free, -⟩ <;> exact free
  · obtain ⟨slot, first⟩ := inv.owed k i c ((raised k).trans past) found
    refine ⟨slot, fun lsn there => first lsn ?_⟩
    rw [Capture.first, entry_drain] at there
    split at there
    · cases there
    · exact (Capture.first_eq nothing).trans there
  · rw [owedAfterDrain]
    split
    next gone =>
      rcases discarded gone with ⟨free, -⟩ | ⟨-, -, through⟩
      · exact free ▸ inv.through k
      · exact through
    next => exact inv.through k
  · refine inv.copied.frame (fun k landed settled => ?_) (fun _ _ => rfl) fun k flight => ⟨rfl, ?_⟩
    · rw [kept (by simp [landed])]
      exact settled
    · rw [kept (by simp [flight])]
      exact fun x held => held
  · obtain ⟨stored, flushed⟩ := Buffer.mem_drain.mp member
    obtain ⟨-, visible, landed⟩ := Buffer.fate_flushed stored flushed
    refine ⟨inv.snapped snap phase e.key e stored visible, ?_⟩
    show s.copy.ledger.position.classify e.key = .landed
    rw [same]
    exact landed

omit inv in
/-- What a refused flush leaves of an entry says what the entry said, where the cells its fallback
read are in place. -/
theorem CellsInPlace.completed (inPlace : CellsInPlace setup s)
    (phase : s.capture.phase = .drained pos batch) {e : Entry} (member : e ∈ batch.entries)
    (readLSN : LSN) :
    Completed setup.flusher s.server.history s.capture.next e.key e
      (setup.flusher.entryLeft (s.reads readLSN) e) := by
  have batched := Capture.batch_of_drained phase
  obtain ⟨same, named⟩ := Flusher.entryLeft_eq (f := setup.flusher) (e := e) (s.reads readLSN)
  refine ⟨same, named, fun name v value => ?_,
    fun name marker => (Flusher.valueOf_entryLeft (s.reads readLSN)).2 marker⟩
  rcases (Flusher.valueOf_entryLeft (s.reads readLSN)).1 v value with
    before | ⟨kind, unnamed, copied, omitted, row, there, rfl⟩
  · exact Or.inl before
  · obtain ⟨x, here, cell⟩ :=
      inPlace e (batched ▸ member) kind unnamed row there name copied omitted
    exact Or.inr ⟨x, here, Or.inr (by rw [cell])⟩

/-- A requeue puts the batch back, with every cell of it in place. -/
theorem Inv.requeue (phase : s.capture.phase = .drained pos batch)
    (inPlace : CellsInPlace setup s)
    (requeued : s.capture.buffer.requeue (setup.flusher.leftIn (s.reads readLSN) batch)
      = .ok buffer) :
    Inv setup pristine g { s with capture := { s.capture with buffer, phase := .applied } } := by
  have ok := inv.streaming
  have batched := Capture.batch_of_drained phase
  have streaming := ok.requeue phase requeued
  have first := ok.first_requeue phase requeued
  obtain rfl := Buffer.requeue_ok requeued
  obtain ⟨-, inside, outside⟩ := Flushable.requeue_leftIn (f := setup.flusher)
    (ok.drainedFrom phase) (batched ▸ ok.distinct)
  refine inv.rebuffer streaming rfl ?_ (fun k lsn there => (first k).symm.trans there)
    fun snap other => (nomatch other)
  have pending : s.capture.pend = fun k => ((setup.flusher.leftIn (s.reads readLSN) batch).foldl
      Buffer.put s.capture.buffer).pending[k]? := by
    funext k
    by_cases member : ∃ e ∈ batch.entries, e.key = k
    · obtain ⟨e, member, rfl⟩ := member
      rw [(inside e member).2, inv.pend_of_drained (batched ▸ member)]
    · exact (outside k fun e inside same => member ⟨e, inside, same⟩).2.symm
  rw [Tracked, ← pending]
  refine inv.tracks.complete (fun k => ?_) (fun _ _ waits => waits) fun _ _ waits _ => waits
  by_cases member : ∃ e ∈ batch.entries, e.key = k
  · obtain ⟨e, member, rfl⟩ := member
    exact Or.inr ⟨e, _, Capture.entry_of_mem ok.distinct (batched ▸ member), (inside e member).1,
      inPlace.completed phase member readLSN⟩
  · rw [(outside k fun e inside same => member ⟨e, inside, same⟩).1]
    cases stored : s.capture.entry k with
    | none => exact Or.inl ⟨rfl, rfl⟩
    | some e => exact Or.inr ⟨e, e, rfl, rfl, Completed.refl⟩

/-- A confirmation moves the slot, and leaves the rows as they are. -/
theorem Inv.confirm
    (phase : s.capture.phase = .applied)
    (named : bound = confirmBound s.capture.stream.delivered s.capture.buffer.oldestPending) :
    Inv setup pristine g { s with
      server := s.server.advanceSlot bound
      capture := { s.capture with
        stream := { s.capture.stream with confirmed := bound }, phase := .confirmed } } := by
  have ok := inv.streaming
  have nothing : s.capture.batch = [] := by rw [Capture.batch, phase]
  have rephased : Inv setup pristine g
      { s with capture := { s.capture with phase := .confirmed } } :=
    inv.rephase nothing rfl fun snap other => (by cases other)
  have streaming := ok.confirm named
  have moved := s.server.slot_advanceSlot bound
  rw [Server.advanceSlot_eq] at streaming ⊢
  refine { rephased with streaming := streaming, owed := fun k i c past found => ?_ }
  obtain ⟨slot, first⟩ := inv.owed k i c past found
  refine ⟨?_, fun lsn there => first lsn ?_⟩
  · -- the bound is at or below the key's first position, or the key owes nothing delivered
    have below : bound < c.commit := by
      cases there : s.capture.buffer.first k with
      | some lsn =>
        have covers : confirmBound s.capture.stream.delivered
            s.capture.buffer.oldestPending ≤ lsn := confirmBound_le_first ok.oldest there
        have above := first lsn ((Capture.first_eq nothing).trans there)
        grind
      | none =>
        have free := (inv.tracked nothing).free k (Buffer.first_eq_none.mp there)
        have ahead := ok.ahead i c (free ▸ past) found
        have reach := confirmBound_le s.capture.stream.delivered s.capture.buffer.oldestPending
        grind
    show (s.server.advanceSlot bound).slot < c.commit
    rw [moved]
    grind
  · rw [Capture.first_eq rfl] at there
    exact (Capture.first_eq nothing).trans there

/-! ### The copier and the checkpoint row -/

/-- A step of the copier keeps the invariant where the copy stays sound and no landed key is
lost. -/
theorem Inv.recopy {copy : Copy} {shadow : Table}
    (copied : Copied setup.flusher s.server.seen s.server.history g pristine copy shadow)
    (landed : ∀ k, s.copy.ledger.state k = .landed → copy.ledger.state k = .landed) :
    Inv setup pristine g { s with copy, shadow } := by
  have streaming := inv.streaming
  refine { inv with
    streaming := { streaming with }, copied := copied, drained := fun e member => ?_
    saved := fun k reached => landed k (inv.saved k reached)
    saving := fun row saving k reached => landed k (inv.saving row saving k reached) }
  obtain ⟨shown, state⟩ := inv.drained e member
  exact ⟨shown, landed e.key state⟩

/-- **The next run starts below everything still owed**, so what the row calls landed is settled
from where its stream starts. -/
theorem Inv.resume (bound : kept ≤ s.server.slot)
    (named : start = max s.checkpoint.lastAppliedLSN kept) :
    Inv setup false (fun _ => s.server.log.findIdx fun c => decide (start < c.commit))
      (s.resumed start) := by
  have ok := inv.streaming
  have streaming := ok.resume bound named
  have saved := ok.saved
  rw [lsn_max] at named
  have below : ∀ k, (s.server.log.findIdx fun c => decide (start < c.commit)) ≤ g k := by
    intro k
    by_contra short
    rw [Nat.not_le] at short
    have inside : g k < s.server.log.length := Nat.lt_of_lt_of_le short List.findIdx_le_length
    have early := List.not_of_lt_findIdx short
    obtain ⟨above, -⟩ := inv.owed k (g k) _ le_rfl (List.getElem?_eq_getElem inside)
    have reached : ¬ start < (s.server.log[g k]).commit := by simpa using early
    grind
  refine ⟨streaming, tracks_opened rfl rfl, fun k i c past found => ⟨?_, fun lsn there => ?_⟩,
    fun k => (inv.through k).lower (below k), ?_, fun snap other => (nomatch other),
    fun e member => (nomatch member), fun k reached => ?_, fun row saving => (nomatch saving)⟩
  · exact ok.server.lt_of_findIdx past found
  · rw [Capture.first_eq rfl] at there
    simp [Buffer.first, Buffer.new] at there
  · exact copied_newLedger fun k reached =>
      (inv.copied.landed k (inv.saved k reached)).lower (below k)
  · show (Ledger.newLedger s.checkpoint.watermark).state k = .landed
    rw [Ledger.state_newLedger, if_pos reached]

/-- A step of an execution that goes on keeps the invariant, whatever it then owes. -/
theorem Inv.step_continues (clear : OriginsClear s a) (inPlace : RefusedInPlace setup s a)
    (steps : Steps setup s a s') (continues : a.continues = true) :
    ∃ g', Inv setup pristine g' s' := by
  have streaming := inv.streaming.step steps
  cases steps with
  | commit committed => exact ⟨g, inv.commit committed⟩
  | becomeVisible lsn => exact ⟨g, inv.becomeVisible lsn⟩
  | sendChange gathering found _ added => exact ⟨_, inv.sendChange gathering found added⟩
  | release gathering => exact ⟨g, inv.release gathering⟩
  | pause phase =>
    exact ⟨g, inv.rephase (by rw [Capture.batch, phase]) rfl fun snap other => (by cases other)⟩
  | snapshot released reports => exact ⟨g, inv.snapshot released reports⟩
  | drain phase => exact ⟨_, inv.drain phase⟩
  | flush phase readAt flushed held => exact ⟨_, inv.flush phase readAt flushed held clear⟩
  | holdFails phase _ flushed refused =>
    exact absurd refused (inv.streaming.hold_ne_error phase flushed)
  | requeue phase readAt deferred owing requeued =>
    obtain ⟨-, ⟨-, -, -, collides⟩ | ⟨v, other, -⟩⟩ :=
      (inv.flushable phase readAt clear).fails deferred
    · exact ⟨g, inv.requeue phase (inPlace _ _ phase owing collides) requeued⟩
    · cases other
  | confirmed phase =>
    exact ⟨g, inv.rephase (by rw [Capture.batch, phase]) rfl fun snap other => (by cases other)⟩
  | confirm phase named => exact ⟨g, inv.confirm phase named⟩
  | record phase =>
    have kept : Inv setup pristine g { s with capture := { s.capture with phase := .gathering } } :=
      inv.rephase (by rw [Capture.batch, phase]) rfl fun snap other => (by cases other)
    exact ⟨g, { kept with streaming := streaming }⟩
  | clearNothing unclear full =>
    exact ⟨g, inv.recopy (inv.copied.clearNothing unclear full) fun _ landed => landed⟩
  | clear unclear start batch =>
    exact ⟨g, inv.recopy (inv.copied.clear unclear start batch) fun _ landed => landed⟩
  | claim cleared claimed =>
    refine ⟨g, inv.recopy (inv.copied.claim cleared claimed) fun k landed => ?_⟩
    rw [Ledger.state_claim inv.copied.tiled claimed]
    split
    next covers =>
      have cut := state_of_claim claimed covers
      rw [landed] at cut
      cases cut
    next => exact landed
  | read idle member =>
    exact ⟨g, inv.recopy (inv.copied.read inv.streaming.server inv.through idle member)
      fun _ landed => landed⟩
  | abort reading => exact ⟨g, inv.recopy (inv.copied.abort reading) fun _ landed => landed⟩
  | commitPass reading added =>
    subst added
    exact ⟨g, inv.recopy (inv.copied.commitPass reading) fun _ landed => landed⟩
  | land committed lands =>
    refine ⟨g, inv.recopy (inv.copied.land committed lands) fun k landed => ?_⟩
    rw [Ledger.state_land inv.copied.tiled lands]
    split
    · rfl
    · exact landed
  | settle committed settles =>
    refine ⟨g, inv.recopy (inv.copied.settle committed settles) fun k landed => ?_⟩
    rw [Ledger.state_settle inv.copied.tiled settles]
    split
    · split
      next owed =>
        obtain ⟨-, flight⟩ := inv.copied.names _ k
          (by rw [committed]; exact List.contains_iff_mem.mp owed)
        rw [landed] at flight
        cases flight
      next => rfl
    · exact landed
  | readApplied =>
    exact ⟨g, { inv with streaming := streaming, saving := fun _ row => (by cases row) }⟩
  | unmoved => exact ⟨g, { inv with streaming := streaming, saving := fun _ row => (by cases row) }⟩
  | readLanded =>
    refine ⟨g, { inv with streaming := streaming, saving := fun row saving k reached => ?_ }⟩
    cases saving
    exact Ledger.state_of_watermark inv.copied.tiled reached
  | save saving =>
    exact ⟨g, { inv with
      streaming := streaming, saved := inv.saving _ saving, saving := fun _ row => (by cases row) }⟩
  | resume => cases continues
  -- a fault, a message that carries no row and a saved position move nothing the rest is about
  | _ => exact ⟨g, { inv with streaming := streaming }⟩

/-- **Every step keeps the invariant**, given where its flushes may take completions from. -/
theorem Inv.step (clear : OriginsClear s a) (inPlace : RefusedInPlace setup s a)
    (steps : Steps setup s a s') : ∃ g', Inv setup (pristine && a.continues) g' s' := by
  cases continues : a.continues with
  | true =>
    rw [Bool.and_true]
    exact inv.step_continues clear inPlace steps continues
  | false =>
    rw [Bool.and_false]
    cases steps with
    | resume bound named => exact ⟨_, inv.resume bound named⟩
    | fails cause => cases cause <;> cases continues
    | _ => cases continues

end Cycle

end Inv

end PgSprite.Live
