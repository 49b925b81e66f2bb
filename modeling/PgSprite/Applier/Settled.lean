/-
**A shadow row is the source's at positions the stream still covers.**

`Settled low key` says of what the shadow holds under `key` that every cell of it is one the source
held there at a position at or above `low`, past changes a reader of the source has seen. A row a
chunk read late is ahead of the stream, and a row written column by column mixes positions, so each
cell has a position of its own; once `low` is the end of the log they are all the source's last
(`Settled.last`).

A flush keeps this. `Flushable` is what a drained batch and the flush's reads are known to satisfy,
and:

* `Flushable.tracks_after` — the entries a flush holds, and those it did not drain, still say what
  the source held;
* `Flushable.settled_after` — the keys it writes are settled from the delivered position on, and
  every other key stays as it was;
* `Flushable.fails` — it fails only where its rows would conflict, or for a marker on a column the
  shadow does not have.
-/

import PgSprite.Applier.Knowledge
import PgSprite.Applier.Owed

namespace PgSprite.Applier

open Std PgSprite.Decode PgSprite.Source PgSprite.Lib

/-- A reader of the source has seen every change of `key` below position `p`. -/
structure SeenThrough (seen : Committed → Bool) (h : History) (key : Key) (p : ℕ) : Prop where
  within : p ≤ h.log.length
  below : ∀ i c, i < p → h.log[i]? = some c → c.change.touches key = true → seen c = true

/-- The source held `x` under `key` at a position from `low` on that a reader has seen through. -/
def HeldFrom (seen : Committed → Bool) (h : History) (low : ℕ) (key : Key) (x : Option Row) :
    Prop :=
  ∃ p, low ≤ p ∧ SeenThrough seen h key p ∧ h.row p key = x

/-- What the shadow holds under `key` is, cell by cell, what the source held there from `low` on. -/
def Settled (f : Flusher) (seen : Committed → Bool) (h : History) (low : ℕ) (key : Key) :
    Option Row → Prop
  | none => HeldFrom seen h low key none
  | some row => (∃ x, HeldFrom seen h low key (some x)) ∧
      ∀ name ∈ f.columns, ∃ x, HeldFrom seen h low key (some x) ∧
        row name = f.converted name (x name)

section Positions

variable {f : Flusher} {seen seen' : Committed → Bool} {h : History} {low low' p : ℕ} {key : Key}
  {x row : Option Row}

/-- A key is settled wherever all that it can be settled by is. -/
theorem Settled.imp {h' : History} (settled : Settled f seen h low key row)
    (held : ∀ x, HeldFrom seen h low key x → HeldFrom seen' h' low' key x) :
    Settled f seen' h' low' key row := by
  cases row with
  | none => exact held _ settled
  | some row =>
    obtain ⟨⟨x, there⟩, cells⟩ := settled
    refine ⟨⟨x, held _ there⟩, fun name member => ?_⟩
    obtain ⟨y, held', same⟩ := cells name member
    exact ⟨y, held _ held', same⟩

theorem SeenThrough.lower (through : SeenThrough seen h key p) (below : low ≤ p) :
    SeenThrough seen h key low :=
  ⟨below.trans through.within, fun i c early => through.below i c (Nat.lt_of_lt_of_le early below)⟩

theorem HeldFrom.lower (held : HeldFrom seen h low key x) (below : low' ≤ low) :
    HeldFrom seen h low' key x := by
  obtain ⟨p, from_, rest⟩ := held
  exact ⟨p, below.trans from_, rest⟩

theorem Settled.lower (settled : Settled f seen h low key row) (below : low' ≤ low) :
    Settled f seen h low' key row :=
  settled.imp fun _ held => held.lower below

section Untouched

variable (within : low' ≤ h.log.length)
  (untouched : ∀ m c, low ≤ m → m < low' → h.log[m]? = some c → c.change.touches key = false)

include within untouched

/-- Past changes that do not touch the key nothing more need be seen, held or settled. -/
theorem SeenThrough.raise (through : SeenThrough seen h key low) : SeenThrough seen h key low' := by
  refine ⟨within, fun i c below found touches => ?_⟩
  rcases Nat.lt_or_ge i low with early | late
  · exact through.below i c early found touches
  · rw [untouched i c late below found] at touches
    cases touches

theorem HeldFrom.raise (held : HeldFrom seen h low key x) : HeldFrom seen h low' key x := by
  obtain ⟨p, from_, through, here⟩ := held
  rcases Nat.le_total low' p with past | short
  · exact ⟨p, past, through, here⟩
  · have quiet := fun m c first => untouched m c (from_.trans first)
    refine ⟨low', le_rfl, through.raise within quiet, ?_⟩
    rw [History.row_eq_of_untouched short quiet]
    exact here

theorem Settled.raise (settled : Settled f seen h low key row) : Settled f seen h low' key row :=
  settled.imp fun _ held => held.raise within untouched

end Untouched

section Grows

variable (grows : ∀ c, seen c = true → seen' c = true)

include grows

/-- A reader that sees more of the log, and a longer log, leave it so. -/
theorem SeenThrough.mono (through : SeenThrough seen h key p) : SeenThrough seen' h key p :=
  ⟨through.within, fun i c below here touches => grows c (through.below i c below here touches)⟩

theorem SeenThrough.extend (through : SeenThrough seen h key p) (more : List Committed) :
    SeenThrough seen' (h.extend more) key p := by
  refine ⟨?_, fun i c below here touches => ?_⟩
  · rw [History.extend, List.length_append]
    exact through.within.trans (Nat.le_add_right _ _)
  · have bound := through.within
    exact grows c (through.below i c below (History.log_of_extend (by omega) here) touches)

theorem HeldFrom.mono (held : HeldFrom seen h low key x) : HeldFrom seen' h low key x := by
  obtain ⟨p, from_, through, here⟩ := held
  exact ⟨p, from_, through.mono grows, here⟩

theorem HeldFrom.extend (held : HeldFrom seen h low key x) (more : List Committed) :
    HeldFrom seen' (h.extend more) low key x := by
  obtain ⟨p, from_, through, here⟩ := held
  refine ⟨p, from_, through.extend grows more, ?_⟩
  rw [History.row_extend through.within]
  exact here

theorem Settled.extend (settled : Settled f seen h low key row) (more : List Committed) :
    Settled f seen' (h.extend more) low key row :=
  settled.imp fun _ held => held.extend grows more

end Grows

/-- **Nothing is left to happen to a key settled at the end of the log.** -/
theorem Settled.last (settled : Settled f seen h h.log.length key row) :
    Matches f.columns row
      ((h.row h.log.length key).map fun x name => f.converted name (x name)) := by
  have only : ∀ x, HeldFrom seen h h.log.length key x → h.row h.log.length key = x := by
    rintro x ⟨p, from_, through, here⟩
    rw [← here, Nat.le_antisymm through.within from_]
  cases row with
  | none =>
    rw [only _ settled]
    trivial
  | some row =>
    obtain ⟨⟨x, held⟩, cells⟩ := settled
    rw [only _ held]
    intro name member
    obtain ⟨y, held', same⟩ := cells name member
    have equal := (only _ held).symm.trans (only _ held')
    rw [Option.some.injEq] at equal
    rw [same, equal]

end Positions

/-! ### What is owed once a change is delivered -/

section Delivered

variable {f : Flusher} {relation : List Name} {h : History} {d : ℕ} {g : Key → ℕ} {b after : Buffer}
  {c : Committed} {delivered : LSN} {key : Key}

/-- A key the change touches has an entry after it. -/
theorem entered_of_touched {change : Change} {xid : Xid}
    (merged : Buffer.Merged b (change.event relation delivered xid) after)
    (touched : key ∈ change.keys) : after.first key ≠ none := by
  cases change with
  | insert k row => exact List.mem_singleton.mp touched ▸ merged.entered
  | delete k => exact List.mem_singleton.mp touched ▸ merged.entered
  | update k old row omitted =>
    by_cases same : old = k
    · have own : key = k := by simpa [Change.keys, same] using touched
      exact own ▸ merged.entered
    · rcases List.mem_cons.mp touched with rfl | moved
      · exact merged.entered
      · rw [List.mem_singleton.mp moved]
        exact (merged.moved old (by simp [Buffer.movesFrom, Change.event, same])).1

/-- **What a key owes rises only past changes that do not touch it**: a key without an entry after a
change had none before it, and the change is not its. -/
theorem Tracks.raised (tracks : Tracked f relation h d g b) (found : h.log[d]? = some c)
    (added : b.add (c.change.event relation delivered c.xid) = .ok after) (k : Key) :
    g k ≤ owedAfter g d after k ∧ owedAfter g d after k ≤ h.log.length ∧
      ∀ (m : ℕ) (c' : Committed), g k ≤ m → m < owedAfter g d after k → h.log[m]? = some c' →
        c'.change.touches k = false := by
  have merged := Buffer.first_add added
  have within := (List.getElem?_eq_some_iff.mp found).1
  have bound := tracks.bounded k
  rw [owedAfter]
  split
  next none =>
    have gone := Buffer.first_eq_none.mpr (Option.isNone_iff_eq_none.mp none)
    have lowers := merged.lowers k
    rw [gone] at lowers
    have free : g k = d := by
      refine tracks.free k (Buffer.first_eq_none.mp ?_)
      cases before : b.first k with
      | none => rfl
      | some lsn =>
        rw [before] at lowers
        exact absurd lowers id
    refine ⟨by omega, within, fun m c' low high there => Bool.eq_false_iff.mpr fun touches => ?_⟩
    obtain rfl : m = d := by omega
    rw [found, Option.some.injEq] at there
    exact entered_of_touched merged (Change.touches_iff.mp (there ▸ touches)) gone
  next => exact ⟨le_rfl, by omega, fun m c' low high => absurd high (by omega)⟩

end Delivered

/-! ### What a flush is given -/

/-- The flush writes a row or a delete under `key`. -/
def Flusher.writes (f : Flusher) (reads : Reads) (batch : Batch) (key : Key) : Bool :=
  (f.toWrite reads batch).any fun w => w.key = key

/-- The first change owed on each key once the flush has committed. -/
def Flusher.owedAfter (f : Flusher) (reads : Reads) (batch : Batch) (g : Key → ℕ) (d : ℕ)
    (key : Key) : ℕ :=
  if f.writes reads batch key then d else g key

/-- What a drained batch, and the reads of the flush that is to write it, are known to satisfy. -/
structure Flushable (f : Flusher) (relation : List Name) (seen : Committed → Bool) (h : History)
    (d : ℕ) (g : Key → ℕ) (ent : Key → Option Entry) (pend : Key → Option PendingCompletion)
    (reads : Reads) (batch : Batch) : Prop where
  decodes : Decodes f relation
  valid : h.Valid
  tracks : Tracks f relation h d g ent pend
  distinct : (batch.entries.map Entry.key).Nodup
  drained : ∀ e ∈ batch.entries, ent e.key = some e ∧ pend e.key = none
  /-- The drain took only entries whose transaction a reader sees. -/
  shown : ∀ e ∈ batch.entries, SeenThrough seen h e.key d
  /-- The drain took only landed keys. -/
  settled : ∀ e ∈ batch.entries, Settled f seen h (g e.key) e.key reads.shadow[e.key]?
  /-- A row the flush may read a completion from is the source's. -/
  origins : ∀ e ∈ batch.entries, Flusher.named e = true → e.oldKeyReused = false →
    ∀ old row, e.oldKey = some old → reads.shadow[old]? = some row →
      Settled f seen h (g old) old (some row)
  /-- The source is read as a reader sees it. -/
  source : ∀ key, ∃ p, KeyedLog.FirstUnseen seen semantics h.log key p ∧
    reads.source[key]? = h.row p key
  /-- What a reader has seen committed at or below the position of the read. -/
  read : ∀ (i : ℕ) (c : Committed), d ≤ i → h.log[i]? = some c → seen c = true →
    c.commit ≤ reads.readLSN

namespace Flushable

variable {f : Flusher} {relation : List Name} {seen : Committed → Bool} {h : History} {d : ℕ}
  {g : Key → ℕ} {ent ent' : Key → Option Entry} {pend pend' : Key → Option PendingCompletion}
  {reads : Reads} {batch : Batch} {e : Entry} {key : Key} {name : Name} {row : Row}

theorem completed_names (markers : List Name) (row : Row) :
    names (markers.map fun name => Column.presentColumn name (.text (row name))) = markers := by
  rw [names, List.map_map]
  exact List.map_id _

theorem split_markers_nodup (f : Flusher) (columns : List Column) :
    (f.split columns).2.Nodup :=
  f.distinct.filter _

theorem image_of_named (named : Flusher.named e = true) : e.kind = .image := by
  simp only [Flusher.named, Bool.and_eq_true, decide_eq_true_eq] at named
  exact named.1.1

/-- What a source row read at or past the delivered position says of a cell. -/
theorem cell_of_position {p : ℕ} {x : Row} {old : Option Key} {limit : LSN} (valid : h.Valid)
    (past : d ≤ p) (through : SeenThrough seen h key p)
    (read : ∀ (i : ℕ) (c : Committed), d ≤ i → h.log[i]? = some c → seen c = true →
      c.commit ≤ limit)
    (here : h.row d key = some row) (there : h.row p key = some x) :
    x name = row name ∨ Doomed h d limit key old name := by
  by_cases same : x name = row name
  · exact Or.inl same
  · have changed : ∀ y, h.row p key = some y → y name ≠ row name := by
      intro y stays equal
      rw [there, Option.some.injEq] at stays
      exact same (stays ▸ equal)
    obtain ⟨m, c, low, high, found, why⟩ :=
      History.exists_of_cell_ne valid past through.within here changed
    have touches : c.change.touches key = true := by
      rcases why with replaces | carries
      · exact Change.touches_of_replaces replaces
      · exact Change.touches_of_carries carries
    refine Or.inr ⟨m, c, low, found, read m c low found (through.below m c high found touches), ?_⟩
    rcases why with replaces | carries
    · exact Or.inl replaces
    · exact Or.inr (Or.inl carries)

/-- **A completion carries the value its marker stands for, or a change that will drop it is still
to be delivered below the position of its read.** -/
theorem completion (flushable : Flushable f relation seen h d g ent pend reads batch)
    (member : e ∈ batch.entries) (named : Flusher.named e = true) {held : HeldImage}
    (completed : f.completeOne reads e = some held) :
    ∃ row, h.row d e.key = some row ∧ (names held.completion.completed).Nodup ∧
      names held.completion.completed ⊆ f.columns ∧
      ∀ name v, valueOf held.completion.completed name = some v → valueOf e.columns name = none →
        CarriesCell f row name v ∨ Doomed h d held.completion.readLSN e.key e.oldKey name := by
  have stored := (flushable.drained e member).1
  obtain ⟨row, images⟩ := flushable.tracks.imaged e.key e stored (image_of_named named)
  refine ⟨row, images.here, ?_⟩
  have distinct := split_markers_nodup f e.columns
  have copied : (f.split e.columns).2 ⊆ f.columns := fun name marker =>
    (Flusher.mem_markers.mp marker).1
  rw [Flusher.completeOne] at completed
  split at completed
  next values fromOld =>
    -- the row is the shadow's under the old key, which no other row has taken
    cases completed
    cases reused : e.oldKeyReused with
    | true =>
      simp [reused, Flusher.completeFrom] at fromOld
    | false =>
      simp only [reused, Bool.false_eq_true, if_false, Flusher.completeFrom,
        Option.map_eq_some_iff, Option.bind_eq_some_iff] at fromOld
      obtain ⟨r, ⟨old, moved, there⟩, rfl⟩ := fromOld
      have shape : HeldImage.completion
          { entry := e, readLSN := reads.readLSN
            completed := (f.split e.columns).2.map fun name =>
              Column.presentColumn name (.text (r name)) }
          = { completed := inShadowForm ((f.split e.columns).2.map fun name =>
                Column.presentColumn name (.text (r name)))
              readLSN := reads.readLSN } := rfl
      rw [shape]
      have listed : names (inShadowForm ((f.split e.columns).2.map fun name =>
          Column.presentColumn name (.text (r name)))) = (f.split e.columns).2 := by
        rw [names_inShadowForm, completed_names]
      refine ⟨by simpa only [listed] using distinct, by simpa only [listed] using copied,
        fun name v found marker => ?_⟩
      rw [Flusher.valueOf_inShadowForm_completed] at found
      split at found
      next listed =>
        cases found
        have member' := copied listed
        obtain ⟨-, cells⟩ :=
          flushable.origins e member named reused old r moved there
        obtain ⟨x, ⟨p, low, through, was⟩, cell⟩ := cells name member'
        have inside := flushable.decodes.copied member'
        rcases Nat.lt_or_ge d p with beyond | within
        · by_cases own : old = e.key
          · subst own
            rcases cell_of_position flushable.valid beyond.le through flushable.read images.here
              was with same | doomed
            · exact Or.inl (Or.inr (by rw [cell, same]))
            · exact Or.inr doomed
          · -- the old key holds no row at `d`, so one landed on it since
            obtain ⟨m, c, first, last, found, lands⟩ := History.exists_of_appears flushable.valid
              beyond.le through.within (images.left old moved reused own) was
            have seen := through.below m c last found
              (Change.touches_of_replaces lands.replaces)
            exact Or.inr ⟨m, c, first, found, flushable.read m c first found seen,
              Or.inr (Or.inr ⟨old, moved, lands⟩)⟩
        · obtain ⟨since, from_, values⟩ := images.origin old moved reused
          have same := values name inside marker p x (from_.trans low) within was
          exact Or.inl (Or.inr (by rw [cell, same]))
      next => cases found
  next missing =>
    obtain ⟨values, read, rfl⟩ := Option.map_eq_some_iff.mp completed
    obtain ⟨x, there, rfl⟩ := Option.map_eq_some_iff.mp read
    obtain ⟨p, unseen, source⟩ := flushable.source e.key
    rw [there] at source
    have through : SeenThrough seen h e.key p := ⟨unseen.within, unseen.below⟩
    have past : d ≤ p := unseen.le_of_seen (flushable.shown e member).within
      (flushable.shown e member).below
    refine ⟨?_, ?_, fun name v found marker => ?_⟩
    · exact (completed_names _ x).symm ▸ distinct
    · exact (completed_names _ x).symm ▸ copied
    · have value : valueOf ((f.split e.columns).2.map fun name =>
          (⟨name, some (.text (x name))⟩ : Column)) name = some v := found
      rw [valueOf_map] at value
      split at value
      · cases value
        rcases cell_of_position flushable.valid past through flushable.read images.here source.symm
          with same | doomed
        · exact Or.inl (Or.inl (by rw [same]))
        · exact Or.inr doomed
      · cases value

/-- **An unmoved image finds no shadow row only where the change that took it is still to be
delivered.** -/
theorem replaced (flushable : Flushable f relation seen h d g ent pend reads batch)
    (member : e ∈ batch.entries) (absent : f.absent reads e = true) :
    e.kind = .image ∧ e.oldKey = none ∧ e.absenceAwaited = false ∧
      Replaced h d reads.readLSN e.key := by
  obtain ⟨stored, free⟩ := flushable.drained e member
  rw [Flusher.absent, Flusher.checksShadowRow, Bool.and_eq_true] at absent
  obtain ⟨checks, missing⟩ := absent
  split at checks
  · cases checks
  next eligible =>
    simp only [ne_eq, Bool.or_eq_true, decide_eq_true_eq, not_or, not_not, Bool.not_eq_true,
      Option.isSome_eq_false_iff, Option.isNone_iff_eq_none] at eligible
    obtain ⟨kind, unmoved⟩ := eligible
    have patient : e.absenceAwaited = false := by
      by_contra waits
      rw [Bool.not_eq_false] at waits
      obtain ⟨-, p, waiting, -⟩ := flushable.tracks.awaited e.key e stored waits
      rw [free] at waiting
      cases waiting
    refine ⟨kind, unmoved, patient, ?_⟩
    rw [patient, Bool.false_or, Bool.not_eq_true', List.isEmpty_eq_false_iff_exists_mem] at checks
    obtain ⟨name, marker⟩ := checks
    obtain ⟨copied, omits⟩ := Flusher.mem_markers.mp marker
    obtain ⟨row, images⟩ := flushable.tracks.imaged e.key e stored kind
    have nothing : reads.shadow[e.key]? = none := Change.not_contains_iff.mp missing
    have settled := flushable.settled e member
    rw [nothing] at settled
    obtain ⟨p, low, through, gone⟩ := settled
    -- the key held the row throughout what the stream has delivered
    have beyond : d < p := by
      by_contra within
      obtain ⟨x, held, -⟩ := images.kept unmoved name (flushable.decodes.copied copied) omits p low
        (by omega)
      rw [gone] at held
      cases held
    obtain ⟨m, c, first, last, found, replaces⟩ :=
      History.exists_of_disappears beyond.le through.within images.here gone
    have seen := through.below m c last found (Change.touches_of_replaces replaces)
    exact ⟨m, c, first, found, flushable.read m c first found seen, replaces⟩

/-- A drained entry is written, deleted for want of a row, or held. -/
theorem written_or_held (f : Flusher) (reads : Reads) (member : e ∈ batch.entries) :
    (e ∈ f.toWrite reads batch ∧ Flusher.named e = false ∧ f.absent reads e = false) ∨
      (Flusher.skippedMarker e ∈ f.toWrite reads batch ∧ Flusher.named e = true ∧
        f.completeOne reads e = none) ∨
      ∃ held ∈ f.toHold reads batch, held.entry.key = e.key := by
  cases named : Flusher.named e with
  | true =>
    cases read : f.completeOne reads e with
    | none =>
      exact Or.inr (Or.inl ⟨Flusher.mem_toWrite.mpr
        (Or.inr ⟨e, member, named, read, rfl⟩), rfl, rfl⟩)
    | some held =>
      refine Or.inr (Or.inr ⟨held, Flusher.mem_toHold.mpr
        (Or.inl ⟨e, member, named, read⟩), ?_⟩)
      rw [Flusher.completeOne_entry read]
  | false =>
    cases absent : f.absent reads e with
    | false =>
      exact Or.inl ⟨Flusher.mem_toWrite.mpr (Or.inl ⟨member, named, absent⟩), rfl, rfl⟩
    | true =>
      exact Or.inr (Or.inr ⟨Flusher.awaiting reads e, Flusher.mem_toHold.mpr
        (Or.inr ⟨e, member, named, absent, rfl⟩), rfl⟩)

theorem writes_iff :
    f.writes reads batch key = true ↔ ∃ w ∈ f.toWrite reads batch, w.key = key := by
  simp [Flusher.writes]

/-- A key a flush writes has an entry that is written, or a skipped marker of a named one. -/
theorem of_writes (writes : f.writes reads batch key = true) :
    ∃ e ∈ batch.entries, e.key = key ∧
      ((e ∈ f.toWrite reads batch ∧ Flusher.named e = false ∧ f.absent reads e = false) ∨
        (Flusher.skippedMarker e ∈ f.toWrite reads batch ∧ Flusher.named e = true ∧
          f.completeOne reads e = none)) := by
  obtain ⟨w, member, rfl⟩ := writes_iff.mp writes
  rcases Flusher.mem_toWrite.mp member with ⟨inside, named, present⟩ | ⟨e, inside, named, read, rfl⟩
  · exact ⟨w, inside, rfl, Or.inl ⟨member, named, present⟩⟩
  · exact ⟨e, inside, rfl, Or.inr ⟨member, named, read⟩⟩

/-- What is held is not written. -/
theorem writes_of_held (distinct : (batch.entries.map Entry.key).Nodup) {held : HeldImage}
    (member : held ∈ f.toHold reads batch) : f.writes reads batch held.entry.key = false := by
  by_contra writes
  rw [Bool.not_eq_false] at writes
  obtain ⟨e, inside, same, how⟩ := of_writes writes
  rcases Flusher.mem_toHold.mp member with ⟨e', inside', named, read⟩ |
    ⟨e', inside', named, absent, rfl⟩
  · rw [Flusher.completeOne_entry read] at same
    obtain rfl := List.inj_on_of_nodup_map distinct inside inside' same
    rcases how with ⟨-, unnamed, -⟩ | ⟨-, -, unread⟩
    · rw [named] at unnamed
      cases unnamed
    · rw [read] at unread
      cases unread
  · obtain rfl := List.inj_on_of_nodup_map distinct inside inside' same
    rcases how with ⟨-, -, present⟩ | ⟨-, also, -⟩
    · rw [absent] at present
      cases present
    · rw [named] at also
      cases also

/-- What is buffered under a key once the flush's outcome is: nothing where it wrote, a held image
with its completion, and what there was where it drained nothing. -/
inductive Remains (f : Flusher) (reads : Reads) (batch : Batch) (ent : Key → Option Entry)
    (pend : Key → Option PendingCompletion) (k : Key) :
    Option Entry → Option PendingCompletion → Prop
  | untouched : (∀ e ∈ batch.entries, e.key ≠ k) → Remains f reads batch ent pend k (ent k) (pend k)
  | written : f.writes reads batch k = true → Remains f reads batch ent pend k none none
  | completed (e : Entry) (held : HeldImage) : e ∈ batch.entries → e.key = k →
      Flusher.named e = true → f.completeOne reads e = some held →
      Remains f reads batch ent pend k (some e) (some held.completion)
  | awaiting (e : Entry) : e ∈ batch.entries → e.key = k → Flusher.named e = false →
      f.absent reads e = true →
      Remains f reads batch ent pend k (some { e with absenceAwaited := true })
        (some ⟨[], reads.readLSN⟩)

variable {o : Option Entry} {waits : Option PendingCompletion}

/-- A flush does not write a key of which something remains buffered. -/
theorem Remains.writes_eq_false (distinct : (batch.entries.map Entry.key).Nodup)
    (remains : Remains f reads batch ent pend key o waits) (stored : o ≠ none) :
    f.writes reads batch key = false := by
  cases remains with
  | untouched outside =>
    by_contra writes
    rw [Bool.not_eq_false] at writes
    obtain ⟨e, member, same, -⟩ := of_writes writes
    exact outside e member same
  | written => exact absurd rfl stored
  | completed e held member same named read =>
    have quiet := writes_of_held distinct
      (Flusher.mem_toHold.mpr (Or.inl ⟨e, member, named, read⟩))
    rwa [Flusher.completeOne_entry read, same] at quiet
  | awaiting e member same named absent =>
    have quiet := writes_of_held distinct
      (Flusher.mem_toHold.mpr (Or.inr ⟨e, member, named, absent, rfl⟩))
    exact same ▸ quiet

/-- What remains buffered was buffered before, but for its flag. -/
theorem Remains.entry (flushable : Flushable f relation seen h d g ent pend reads batch)
    (remains : Remains f reads batch ent pend key (some e) waits) :
    ∃ before flag, ent key = some before ∧ e = { before with absenceAwaited := flag } := by
  generalize stored : some e = o at remains
  cases remains with
  | untouched outside => exact ⟨e, e.absenceAwaited, stored.symm, rfl⟩
  | written => cases stored
  | completed e' held member same named read =>
    cases stored
    exact ⟨e, e.absenceAwaited, same ▸ (flushable.drained e member).1, rfl⟩
  | awaiting e' member same named absent =>
    cases stored
    exact ⟨e', true, same ▸ (flushable.drained e' member).1, rfl⟩

theorem images_flag {flag : Bool} (images : Images f relation h d g key e row) :
    Images f relation h d g key { e with absenceAwaited := flag } row :=
  ⟨images.named, images.here, images.carried, images.kept, images.left, images.origin⟩

/-- **What is buffered after a flush still says what the source held.** -/
theorem tracks_after (flushable : Flushable f relation seen h d g ent pend reads batch)
    (after : ∀ k, Remains f reads batch ent pend k (ent' k) (pend' k)) :
    Tracks f relation h d (f.owedAfter reads batch g d) ent' pend' := by
  have tracks := flushable.tracks
  have raised : ∀ k, g k ≤ f.owedAfter reads batch g d k := by
    intro k
    have bound := tracks.bounded k
    rw [Flusher.owedAfter]
    split <;> omega
  have kept : ∀ k, ent' k ≠ none → f.owedAfter reads batch g d k = g k := by
    intro k stored
    rw [Flusher.owedAfter, (after k).writes_eq_false flushable.distinct stored]
    rfl
  have origin : ∀ k e', ent' k = some e' →
      ∃ before flag, ent k = some before ∧ e' = { before with absenceAwaited := flag } := by
    intro k e' stored
    have remains := after k
    rw [stored] at remains
    exact remains.entry flushable
  refine ⟨?_, ?_, ?_, ?_, ?_, ?_, ?_, ?_⟩
  · intro k absent
    have remains := after k
    rw [absent] at remains
    rw [Flusher.owedAfter]
    generalize stored : (none : Option Entry) = o at remains
    generalize pend' k = waits at remains
    cases remains with
    | untouched outside =>
      split
      · rfl
      · exact tracks.free k stored.symm
    | written writes => rw [if_pos writes]
    | completed => cases stored
    | awaiting => cases stored
  · intro k
    have bound := tracks.bounded k
    rw [Flusher.owedAfter]
    split <;> omega
  · intro k e' stored
    obtain ⟨before, flag, there, rfl⟩ := origin k e' stored
    exact tracks.keyed k before there
  · intro k e' stored
    obtain ⟨before, flag, there, rfl⟩ := origin k e' stored
    exact tracks.latest k before there
  · intro k e' stored kind
    obtain ⟨before, flag, there, rfl⟩ := origin k e' stored
    exact tracks.deleted k before there kind
  · intro k e' stored kind
    have same := kept k (by simp [stored])
    obtain ⟨before, flag, there, rfl⟩ := origin k e' stored
    obtain ⟨row, images⟩ := tracks.imaged k before there kind
    exact ⟨row, images_flag (images.raise same raised)⟩
  · intro k e' stored flagged
    have remains := after k
    rw [stored] at remains
    generalize found : some e' = o at remains
    generalize pend' k = waits at remains ⊢
    cases remains with
    | untouched outside =>
      obtain ⟨unmoved, p, there, replaced⟩ := tracks.awaited k e' found.symm flagged
      exact ⟨unmoved, p, there, replaced⟩
    | written => cases found
    | completed e held member same named read =>
      cases found
      obtain ⟨free, none⟩ := flushable.drained e' member
      obtain ⟨-, p, there, -⟩ := tracks.awaited e'.key e' free flagged
      rw [none] at there
      cases there
    | awaiting e member same named absent =>
      cases found
      obtain ⟨-, unmoved, -, replaced⟩ := flushable.replaced member absent
      exact ⟨unmoved, _, rfl, same ▸ replaced⟩
  · intro k p waiting
    have remains := after k
    rw [waiting] at remains
    generalize found : some p = waits at remains
    generalize ent' k = o at remains ⊢
    cases remains with
    | untouched outside =>
      obtain ⟨e, row, there, rest⟩ := tracks.pends k p found.symm
      exact ⟨e, row, there, rest⟩
    | written => cases found
    | completed e held member same named read =>
      cases found
      obtain ⟨row, here, values⟩ := flushable.completion member named read
      exact ⟨e, row, rfl, image_of_named named, same ▸ here, same ▸ values⟩
    | awaiting e member same named absent =>
      cases found
      obtain ⟨kind, -⟩ := flushable.replaced member absent
      obtain ⟨row, images⟩ :=
        tracks.imaged e.key e (flushable.drained e member).1 kind
      refine ⟨_, row, rfl, kind, same ▸ images.here, List.nodup_nil, List.nil_subset _, ?_⟩
      intro name v found
      cases found

theorem hasMarker_of_omits (images : Images f relation h d g key e row)
    (decodes : Decodes f relation) (inside : name ∈ relation)
    (omits : valueOf e.columns name = none) : hasMarker e.columns = true :=
  (hasMarker_iff (images.named ▸ decodes.once)).mpr ⟨name, images.named ▸ inside, omits⟩

theorem unmoved_of_marker (kind : e.kind = .image) (unnamed : Flusher.named e = false)
    (marked : hasMarker e.columns = true) : e.oldKey = none := by
  simpa [Flusher.named, kind, marked] using unnamed

theorem of_mem_toWrite (member : e ∈ f.toWrite reads batch) (kind : e.kind = .image) :
    e ∈ batch.entries ∧ Flusher.named e = false ∧ f.absent reads e = false := by
  rcases Flusher.mem_toWrite.mp member with inside | ⟨e', -, -, -, rfl⟩
  · exact inside
  · cases kind

/-- **Every key a flush writes is settled from the delivered position on.** -/
theorem settled_of_writes (flushable : Flushable f relation seen h d g ent pend reads batch)
    {after : Table} (flushed : Flusher.Flushed f reads.shadow after (f.toWrite reads batch))
    (writes : f.writes reads batch key = true) : Settled f seen h d key after[key]? := by
  obtain ⟨e, member, rfl, how⟩ := of_writes writes
  obtain ⟨stored, -⟩ := flushable.drained e member
  have through := flushable.shown e member
  rcases how with ⟨inside, unnamed, -⟩ | ⟨inside, named, unread⟩
  · cases kind : e.kind with
    | deleteMarker =>
      rw [flushed.deleted e inside kind]
      exact ⟨d, le_rfl, through, flushable.tracks.deleted e.key e stored kind⟩
    | image =>
      obtain ⟨row, images⟩ := flushable.tracks.imaged e.key e stored kind
      obtain ⟨row', there, wrote⟩ := flushed.written e inside kind
      have now : HeldFrom seen h d e.key (some row) := ⟨d, le_rfl, through, images.here⟩
      rw [there]
      refine ⟨⟨row, now⟩, fun name copied => ?_⟩
      have listed := flushable.decodes.copied copied
      cases value : valueOf e.columns name with
      | some v =>
        refine ⟨row, now, ?_⟩
        rw [(wrote name copied).1 v value]
        exact (images.carried name v value).written
      | none =>
        -- the cell is the one the shadow held: the stream's, or one ahead of it
        obtain ⟨old, before, same⟩ := (wrote name copied).2 value
        have settled := flushable.settled e member
        rw [before] at settled
        obtain ⟨x, ⟨p, low, ahead, was⟩, cell⟩ := settled.2 name copied
        rw [same, cell]
        rcases Nat.le_total d p with past | within
        · exact ⟨x, ⟨p, past, ahead, was⟩, rfl⟩
        · have unmoved := unmoved_of_marker kind unnamed
            (hasMarker_of_omits images flushable.decodes listed value)
          obtain ⟨y, held, equal⟩ := images.kept unmoved name listed value p low within
          rw [was, Option.some.injEq] at held
          exact ⟨row, now, by rw [held, equal]⟩
  · -- neither row could complete the image, so the source holds none under its key
    rw [show e.key = (Flusher.skippedMarker e).key from rfl,
      flushed.deleted _ inside rfl]
    obtain ⟨p, unseen, source⟩ := flushable.source e.key
    have missing : reads.source[e.key]? = none := by
      rw [Flusher.completeOne] at unread
      split at unread
      · cases unread
      · simpa [Flusher.completeFrom] using unread
    refine ⟨p, ?_, ⟨unseen.within, unseen.below⟩, source.symm.trans missing⟩
    exact unseen.le_of_seen through.within through.below

theorem frame_of_writes {after : Table}
    (flushed : Flusher.Flushed f reads.shadow after (f.toWrite reads batch))
    (quiet : f.writes reads batch key = false) : after[key]? = reads.shadow[key]? := by
  refine flushed.frame key fun w member same => ?_
  rw [writes_iff.mpr ⟨w, member, same⟩] at quiet
  cases quiet

/-- **A flush keeps every settled key settled**, and settles the ones it writes. -/
theorem settled_after (flushable : Flushable f relation seen h d g ent pend reads batch)
    {after : Table} (flushed : Flusher.Flushed f reads.shadow after (f.toWrite reads batch))
    (settled : Settled f seen h (g key) key reads.shadow[key]?) :
    Settled f seen h (f.owedAfter reads batch g d key) key after[key]? := by
  rw [Flusher.owedAfter]
  cases writes : f.writes reads batch key with
  | true => exact flushable.settled_of_writes flushed writes
  | false => exact frame_of_writes flushed writes ▸ settled

/-! ### When a flush fails -/

section Fails

variable {cs : Constraints f.columns}
  (flushable : Flushable f relation seen h d g ent pend reads batch)

include flushable

/-- Every image to be written that omits a copied column finds its shadow row. -/
theorem rowsFound : Flusher.RowsFound f reads.shadow (f.toWrite reads batch) := by
  intro e member kind name copied omits missing
  obtain ⟨inside, unnamed, present⟩ := of_mem_toWrite member kind
  obtain ⟨row, images⟩ := flushable.tracks.imaged e.key e (flushable.drained e inside).1 kind
  have unmoved := unmoved_of_marker kind unnamed
    (hasMarker_of_omits images flushable.decodes (flushable.decodes.copied copied) omits)
  have marker : (f.split e.columns).2.isEmpty = false :=
    List.isEmpty_eq_false_iff_exists_mem.mpr ⟨name, Flusher.mem_markers.mpr ⟨copied, omits⟩⟩
  have nothing : (!reads.shadow.contains e.key) = true := Change.not_contains_iff.mpr missing
  simp [Flusher.absent, Flusher.checksShadowRow, kind, unmoved, marker, nothing] at present

theorem not_stillAbsent :
    (f.completeMoved reads batch).1.find?
      (fun e => f.absent reads e && e.absenceAwaited) = none := by
  refine List.find?_eq_none.mpr fun e member waits => ?_
  rw [Bool.and_eq_true] at waits
  rcases Flusher.mem_completeMoved.mp member with ⟨inside, -⟩ | ⟨e', -, -, -, rfl⟩
  · obtain ⟨-, -, patient, -⟩ := flushable.replaced inside waits.1
    rw [patient] at waits
    cases waits.2
  · rw [Flusher.absent_skippedMarker] at waits
    cases waits.1

/-- **A flush that fails has fallen back.** It is deferred, and its rows would conflict, or it
refuses its batch for an unmoved image whose markers are all on columns the shadow does not have,
and whose row the shadow does not hold. -/
theorem fails {err : FlushError} (failed : f.flush cs reads batch = .error err) :
    Flusher.FallsBack f cs reads.shadow (f.toWrite reads batch) ∧
      ((∃ k kind, err = .batchDeferred k kind ∧
        Flusher.Collides cs (f.leave reads.shadow (f.toWrite reads batch))
          (f.toWrite reads batch)) ∨
      ∃ v, err = .violation v ∧ ∃ e ∈ batch.entries, e.kind = .image ∧ e.oldKey = none ∧
        e.absenceAwaited = false ∧ hasMarker e.columns = true ∧ (f.split e.columns).2 = [] ∧
        reads.shadow[e.key]? = none) := by
  rw [Flusher.flush_eq, Flusher.apply_eq, flushable.not_stillAbsent] at failed
  obtain ⟨fell, collides | ⟨v, rfl, e, member, kind, why⟩⟩ := Flusher.applyEntries_error
    (Flusher.toWrite_distinct flushable.distinct) flushable.rowsFound failed
  · exact ⟨fell, Or.inl collides⟩
  obtain ⟨inside, unnamed, present⟩ := of_mem_toWrite member kind
  obtain ⟨row, images⟩ := flushable.tracks.imaged e.key e (flushable.drained e inside).1 kind
  rcases why with ⟨marked, missing⟩ | ⟨unmarked, name, copied, omitted⟩
  · have unmoved := unmoved_of_marker kind unnamed marked
    have nothing : (!reads.shadow.contains e.key) = true := Change.not_contains_iff.mpr missing
    rw [Flusher.absent, nothing, Bool.and_true, Flusher.checksShadowRow] at present
    simp only [kind, unmoved, ne_eq, not_true_eq_false, decide_false, Option.isSome_none,
      Bool.or_self, Bool.false_eq_true, if_false, Bool.or_eq_false_iff, Bool.not_eq_false',
      List.isEmpty_iff] at present
    exact ⟨fell, Or.inr ⟨v, rfl, e, inside, kind, unmoved, present.1, marked, present.2, missing⟩⟩
  · -- an image names every column of the relation, so what it omits is a marker
    rw [hasMarker_of_omits images flushable.decodes (flushable.decodes.copied copied) omitted]
      at unmarked
    cases unmarked

end Fails

/-! ### The buffer after a flush -/

/-- The buffer a batch was drained from: without the batch's keys, and otherwise as it was. -/
structure DrainedFrom (ent : Key → Option Entry) (pend : Key → Option PendingCompletion)
    (batch : Batch) (b : Buffer) : Prop where
  outside : ∀ k, (∀ e ∈ batch.entries, e.key ≠ k) →
    b.entries[k]? = ent k ∧ b.pending[k]? = pend k
  removed : ∀ e ∈ batch.entries, b.entries[e.key]? = none

variable {b : Buffer}

/-- **A flush's held images always find their keys free.** -/
theorem hold_eq (drained : DrainedFrom ent pend batch b) :
    b.hold (f.toHold reads batch) = .ok ((f.toHold reads batch).foldl Buffer.holdOne b) := by
  refine Buffer.hold_eq fun x member => ?_
  rcases Flusher.mem_toHold.mp member with ⟨e, inside, -, read⟩ | ⟨e, inside, -, -, rfl⟩
  · rw [Flusher.completeOne_entry read]
    exact drained.removed e inside
  · exact drained.removed e inside

/-- What the buffer holds once a flush's held images are back in it. -/
theorem remains_of_hold (distinct : (batch.entries.map Entry.key).Nodup)
    (drained : DrainedFrom ent pend batch b) (k : Key) :
    Remains f reads batch ent pend k ((f.toHold reads batch).foldl Buffer.holdOne b).entries[k]?
      ((f.toHold reads batch).foldl Buffer.holdOne b).pending[k]? := by
  have once : ((f.toHold reads batch).map fun x => x.entry.key).Nodup :=
    Flusher.toHold_distinct distinct
  by_cases held : ∃ x ∈ f.toHold reads batch, x.entry.key = k
  · obtain ⟨x, member, rfl⟩ := held
    obtain ⟨stored, waiting⟩ := Buffer.foldl_holdOne_of_mem (b := b) once member
    rw [stored, waiting]
    rcases Flusher.mem_toHold.mp member with ⟨e, inside, named, read⟩ |
      ⟨e, inside, named, absent, rfl⟩
    · rw [Flusher.completeOne_entry read]
      exact .completed e x inside rfl named read
    · exact .awaiting e inside rfl named absent
  · have outside : ∀ x ∈ f.toHold reads batch, x.entry.key ≠ k := fun x member same =>
      held ⟨x, member, same⟩
    obtain ⟨stored, waiting⟩ := Buffer.foldl_holdOne_of_not_mem (b := b) outside
    rw [stored, waiting]
    by_cases member : ∃ e ∈ batch.entries, e.key = k
    · obtain ⟨e, inside, rfl⟩ := member
      have free := drained.removed e inside
      have quiet : b.pending[e.key]? = none := by
        cases waits : b.pending[e.key]? with
        | none => rfl
        | some p =>
          obtain ⟨e', there⟩ := b.heldEntry e.key p waits
          rw [free] at there
          cases there
      rw [free, quiet]
      refine .written (writes_iff.mpr ?_)
      rcases written_or_held f reads inside with
        ⟨wrote, -⟩ | ⟨wrote, -⟩ | ⟨x, wrote, same⟩
      · exact ⟨_, wrote, rfl⟩
      · exact ⟨_, wrote, rfl⟩
      · exact absurd same (outside x wrote)
    · have apart : ∀ e ∈ batch.entries, e.key ≠ k := fun e inside same => member ⟨e, inside, same⟩
      obtain ⟨entries, pending⟩ := drained.outside k apart
      rw [entries, pending]
      exact .untouched apart

/-- **A refused batch always goes back into the buffer**, each entry as its flush left it. -/
theorem requeue_leftIn (drained : DrainedFrom ent pend batch b)
    (distinct : (batch.entries.map Entry.key).Nodup) :
    b.requeue (f.leftIn reads batch) = .ok ((f.leftIn reads batch).foldl Buffer.put b) ∧
      (∀ e ∈ batch.entries,
        ((f.leftIn reads batch).foldl Buffer.put b).entries[e.key]? = some (f.entryLeft reads e) ∧
        ((f.leftIn reads batch).foldl Buffer.put b).pending[e.key]? = none) ∧
      ∀ k, (∀ e ∈ batch.entries, e.key ≠ k) →
        ((f.leftIn reads batch).foldl Buffer.put b).entries[k]? = ent k ∧
        ((f.leftIn reads batch).foldl Buffer.put b).pending[k]? = pend k := by
  have keys : (f.leftIn reads batch).map Entry.key = batch.entries.map Entry.key := by
    rw [Flusher.leftIn, List.map_map]
    exact List.map_congr_left fun e _ => Flusher.entryLeft_key reads
  refine ⟨Buffer.requeue_eq fun e member => ?_, fun e member => ?_, fun k apart => ?_⟩
  · obtain ⟨e', inside, rfl⟩ := List.mem_map.mp member
    rw [Flusher.entryLeft_key]
    exact drained.removed e' inside
  · have inside : f.entryLeft reads e ∈ f.leftIn reads batch := List.mem_map_of_mem member
    have stored := Buffer.foldl_put_of_mem (b := b) (keys ▸ distinct) inside
    rwa [Flusher.entryLeft_key] at stored
  · have outside : ∀ e ∈ f.leftIn reads batch, e.key ≠ k := fun e member same => by
      obtain ⟨e', inside, rfl⟩ := List.mem_map.mp member
      exact apart e' inside (Flusher.entryLeft_key reads ▸ same)
    obtain ⟨stored, waiting⟩ := Buffer.foldl_put_of_not_mem (b := b) outside
    rw [stored, waiting]
    exact drained.outside k apart

end Flushable

end PgSprite.Applier
