/-
**The buffer's merge is the same as applying the events one at a time.**

`Buffer.applyTo` applies a buffer to the rows it was started from: a delete marker removes its key,
an unmoved image lays its present columns over the key's row, and a moved image lays them over the
row under its old key. `Pictures` says what an image shows of its row, and `Mirrors` that the whole
buffer shows the rows the events have left:

* `Mirrors.add` — an event the source can make is never refused, and keeps `Mirrors`;
* `Mirrors.gather` — so a valid sequence added to an empty buffer leaves one that mirrors its rows;
* `Mirrors.applied` — a buffer that mirrors the rows yields them when it is applied.
-/

import PgSprite.Applier.Events
import PgSprite.Lib.Except
import PgSprite.Lib.KeyedFold
import PgSprite.Source.Identity

namespace PgSprite.Applier

open Std PgSprite.Decode PgSprite.Source PgSprite.Lib

/-! ### Applying a buffer to the rows it was started from -/

/-- Lays the columns that carry a value over a row. -/
def layOver (columns : List Column) (row : Row) : Row := fun name =>
  ((valueOf columns name).map bound).getD (row name)

/-- The key an image's row had when the buffer was empty: its old key if it moved. -/
def Entry.start (e : Entry) : Key := e.oldKey.getD e.key

/-- The row an entry leaves under its key, from the rows the buffer was started from. An image that
omits a column needs the row it started as; a whole one creates its row where there is none. -/
def Entry.settle (base : Table) (e : Entry) : Option Row :=
  match e.kind with
  | .deleteMarker => none
  | .image =>
    match base[e.start]? with
    | some row => some (layOver e.columns row)
    | none => if hasMarker e.columns then none else some (layOver e.columns fun _ => none)

/-- Applies one entry. -/
def applyOne (base table : Table) (e : Entry) : Table :=
  match e.settle base with
  | some row => table.insert e.key row
  | none => table.erase e.key

/-- Applies every entry to the rows the buffer was started from. -/
def Buffer.applyTo (b : Buffer) (base : Table) : Table :=
  (b.entries.toList.map Prod.snd).foldl (applyOne base) base

section Apply

variable {b : Buffer} {base : Table} {key : Key} {e : Entry}

theorem rows_applyOne_of_ne (table : Table) (e : Entry) (key : Key) (apart : e.key ≠ key) :
    rows (applyOne base table e) key = rows table key := by
  rw [applyOne]
  cases e.settle base <;>
    simp [rows, ExtTreeMap.getElem?_insert, ExtTreeMap.getElem?_erase, apart]

theorem rows_applyOne_self (table : Table) (e : Entry) :
    rows (applyOne base table e) e.key = e.settle base := by
  rw [applyOne]
  cases e.settle base <;> simp [rows]

theorem Buffer.mem_entries :
    e ∈ b.entries.toList.map Prod.snd ↔ b.entries[e.key]? = some e := by
  rw [List.mem_map]
  constructor
  · rintro ⟨⟨key, stored⟩, member, rfl⟩
    rw [ExtTreeMap.mem_toList_iff_getElem?_eq_some] at member
    rw [b.keyed key stored member, member]
  · exact fun stored => ⟨(e.key, e), ExtTreeMap.mem_toList_iff_getElem?_eq_some.mpr stored, rfl⟩

theorem Buffer.entries_distinct : ((b.entries.toList.map Prod.snd).map Entry.key).Nodup := by
  have same : (b.entries.toList.map Prod.snd).map Entry.key = b.entries.toList.map Prod.fst := by
    rw [List.map_map]
    refine List.map_congr_left fun held member => ?_
    exact b.keyed held.1 held.2 (ExtTreeMap.mem_toList_iff_getElem?_eq_some.mp member)
  rw [same, ExtTreeMap.map_fst_toList_eq_keys]
  exact ExtTreeMap.nodup_keys

theorem Buffer.applyTo_of_none (absent : b.entries[key]? = none) :
    (b.applyTo base)[key]? = base[key]? := by
  refine foldl_frame rows_applyOne_of_ne (fun e member same => ?_) base
  rw [mem_entries, same, absent] at member
  cases member

theorem Buffer.applyTo_of_some (stored : b.entries[key]? = some e) :
    (b.applyTo base)[key]? = e.settle base := by
  have own := b.keyed key e stored
  subst own
  exact foldl_own rows_applyOne_of_ne (fun e _ => e.settle base) rows_applyOne_self
    entries_distinct (mem_entries.mpr stored) base

end Apply

/-! ### What the buffer shows of the rows -/

/-- An image shows a row: it carries the row's own values, and each column it omits still has the
value the row started with, under the key it started at. -/
structure Pictures (relation : List Name) (base : Table) (start : Key) (columns : List Column)
    (row : Row) : Prop where
  named : names columns = relation
  carried : ∀ name v, valueOf columns name = some v → v = .text (row name)
  omitted : ∀ name ∈ relation, valueOf columns name = none →
    ∃ first, base[start]? = some first ∧ first name = row name

/-- What an entry says of the row its key holds now and of which row that is. -/
def Shows (relation : List Name) (base : Table) (e : Entry) (now : Option Row)
    (who : Option RowId) : Prop :=
  match e.kind with
  | .deleteMarker => now = none
  | .image =>
    ∃ row, now = some row ∧ Pictures relation base e.start e.columns row ∧
      ∀ first, who = some (.base first) → e.start = first

/-- The buffer shows the rows `now`, named by `who`: through its entry where a key has one, and as
they started elsewhere. -/
structure Mirrors (relation : List Name) (base : Table) (now : Key → Option Row)
    (who : Key → Option RowId) (b : Buffer) : Prop where
  untouched : ∀ key : Key, b.entries[key]? = none →
    now key = base[key]? ∧ ∀ first, who key = some (.base first) → key = first
  shows : ∀ (key : Key) (e : Entry), b.entries[key]? = some e →
    Shows relation base e (now key) (who key)

section Pictures

variable {relation : List Name} {base : Table} {start : Key} {columns : List Column}
  {row before : Row} {omitted : List Name}

/-- **A row laid from its image is the row.** -/
theorem Pictures.layOver (pictures : Pictures relation base start columns row) {first : Row}
    (found : base[start]? = some first) : AgreeOn relation (layOver columns first) row := by
  intro name member
  cases value : valueOf columns name with
  | some v =>
    rw [Applier.layOver, value, pictures.carried name v value]
    rfl
  | none =>
    obtain ⟨origin, there, same⟩ := pictures.omitted name member value
    rw [found, Option.some.injEq] at there
    rw [Applier.layOver, value, there]
    exact same

theorem Pictures.layOver_whole (pictures : Pictures relation base start columns row)
    (absent : base[start]? = none) (blank : Row) :
    AgreeOn relation (Applier.layOver columns blank) row := by
  intro name member
  cases value : valueOf columns name with
  | some v =>
    rw [Applier.layOver, value, pictures.carried name v value]
    rfl
  | none =>
    obtain ⟨origin, there, -⟩ := pictures.omitted name member value
    rw [absent] at there
    cases there

theorem Pictures.not_hasMarker (pictures : Pictures relation base start columns row)
    (once : relation.Nodup) (absent : base[start]? = none) : hasMarker columns = false := by
  rw [← Bool.not_eq_true, hasMarker_iff (pictures.named ▸ once), pictures.named]
  rintro ⟨name, member, value⟩
  obtain ⟨origin, there, -⟩ := pictures.omitted name member value
  rw [absent] at there
  cases there

theorem pictures_updateColumns
    (origin : omitted = [] ∨ ∃ first, base[start]? = some first ∧ AgreeOn omitted row first) :
    Pictures relation base start (updateColumns relation row omitted) row where
  named := names_map _ _
  carried _ _ := carried_updateColumns (P := fun _ t v => v = .text t) fun _ _ => rfl
  omitted name member value := by
    have unsent := omitted_of_marker member value
    rcases origin with rfl | ⟨first, found, agree⟩
    · cases unsent
    · exact ⟨first, found, (agree name unsent).symm⟩

/-- **An update overlaid on an image of its row shows the row it leaves**, from the same start. -/
theorem Pictures.overlay (pictures : Pictures relation base start columns before)
    (once : relation.Nodup) (agree : AgreeOn omitted row before) :
    Pictures relation base start (overlay columns (updateColumns relation row omitted)) row where
  named := by
    rw [names_overlay, pictures.named]
    rw [updateColumns, names_map, pictures.named]
    exact List.Subset.refl _
  carried name v := carried_overlay (P := fun _ t v => v = .text t) (fun _ _ => rfl) once
    pictures.named pictures.carried agree
  omitted name member value := by
    obtain ⟨unsent, left⟩ := markers_of_overlay once member value
    obtain ⟨first, found, same⟩ := pictures.omitted name member left
    exact ⟨first, found, same.trans (agree name unsent).symm⟩

end Pictures

section Mirrors

variable {relation : List Name} {base : Table} {now : Key → Option Row}
  {who : Key → Option RowId} {n : ℕ} {b b' : Buffer}
  {key old : Key} {row : Row} {omitted : List Name} {e : Entry} {change : Change}
  {delivered : LSN} {xid : Xid}

theorem mirrors_new {log : List Committed} :
    Mirrors relation base (History.row ⟨base, log⟩ 0) (History.who ⟨base, log⟩ 0) .new where
  untouched key _ := by
    refine ⟨rfl, fun first named => ?_⟩
    exact (RowId.base.inj (History.who_zero_eq_some.mp named).1).symm
  shows key e stored := by
    rw [show (Buffer.new.entries)[key]? = none by simp [Buffer.new]] at stored
    cases stored

/-- A flag on an entry leaves what it shows alone. -/
def Marks (mark : Entry → Entry) : Prop := ∀ e, mark e = e ∨ mark e = Buffer.flagReused e

theorem marks_displaced (landing : Key) (mover : Option Key) :
    Marks fun e => if Buffer.displaces landing mover e then Buffer.flagReused e else e := by
  intro e
  by_cases displaced : Buffer.displaces landing mover e = true <;> simp [displaced]

theorem marks_id : Marks id := fun _ => Or.inl rfl

theorem Marks.shows {mark : Entry → Entry} {there : Option Row} {r : Option RowId}
    (marks : Marks mark) (shows : Shows relation base e there r) :
    Shows relation base (mark e) there r := by
  rcases marks e with same | flagged
  · rwa [same]
  · rw [flagged]
    exact shows

section Held

variable (mirrors : Mirrors relation base now who b)

include mirrors

theorem Mirrors.not_image (absent : now key = none) :
    (b.entries[key]?).any (fun e => e.kind = .image) = false := by
  cases stored : b.entries[key]? with
  | none => rfl
  | some e =>
    have shows := mirrors.shows key e stored
    cases kind : e.kind with
    | deleteMarker => simp [kind]
    | image =>
      rw [Shows, kind, absent] at shows
      obtain ⟨row, held, -⟩ := shows
      cases held

/-- A present row's entry is an image that pictures it. -/
theorem Mirrors.image (present : now key = some row) (stored : b.entries[key]? = some e) :
    e.kind = .image ∧ Pictures relation base e.start e.columns row ∧
      ∀ first, who key = some (.base first) → e.start = first := by
  have shows := mirrors.shows key e stored
  rw [Shows, present] at shows
  cases kind : e.kind with
  | deleteMarker =>
    rw [kind] at shows
    cases shows
  | image =>
    rw [kind] at shows
    obtain ⟨held, same, pictures, origin⟩ := shows
    rw [Option.some.injEq] at same
    exact ⟨rfl, same ▸ pictures, origin⟩

theorem Mirrors.not_deleted (present : now key = some row) :
    (b.entries[key]?).any (fun e => e.kind = .deleteMarker) = false := by
  cases stored : b.entries[key]? with
  | none => rfl
  | some e => simp [(mirrors.image present stored).1]

/-- **One event keeps the buffer a mirror**, from what it leaves under each key. -/
theorem Mirrors.step {mark : Entry → Entry} (marks : Marks mark)
    (untouched : ∀ k, change.touches k = false → b'.entries[k]? = b.entries[k]?.map mark)
    (touched : ∀ k, change.touches k = true →
      ∃ e, b'.entries[k]? = some e ∧
        Shows relation base e (change.effect k (now k)) (change.carry n who k)) :
    Mirrors relation base (fun k => change.effect k (now k)) (change.carry n who) b' where
  untouched k absent := by
    cases touch : change.touches k with
    | true =>
      obtain ⟨e, stored, -⟩ := touched k touch
      rw [stored] at absent
      cases absent
    | false =>
      rw [untouched k touch, Option.map_eq_none_iff] at absent
      rw [Change.effect_of_not_touches (by simp [touch]), Change.carry_of_untouched touch]
      exact mirrors.untouched k absent
  shows k e' stored := by
    cases touch : change.touches k with
    | true =>
      obtain ⟨e, same, shows⟩ := touched k touch
      rw [stored, Option.some.injEq] at same
      exact same ▸ shows
    | false =>
      rw [untouched k touch, Option.map_eq_some_iff] at stored
      obtain ⟨e, before, rfl⟩ := stored
      rw [Change.effect_of_not_touches (by simp [touch]), Change.carry_of_untouched touch]
      exact marks.shows (mirrors.shows k e before)

/-- A moved image shows the row it carried on, completed from the one it left. -/
theorem Mirrors.movedImage {before : Row} {cur : Option Entry} (once : relation.Nodup)
    (present : now old = some before) (agree : AgreeOn omitted row before) :
    Shows relation base
      (Buffer.movedImage ((Change.update key old row omitted).event relation delivered xid) old cur
        b.entries[old]?) (some row) (who old) := by
  cases stored : b.entries[old]? with
  | none =>
    obtain ⟨still, origin⟩ := mirrors.untouched old stored
    exact ⟨row, rfl, pictures_updateColumns (Or.inr ⟨before, still.symm.trans present, agree⟩),
      origin⟩
  | some e =>
    obtain ⟨-, pictures, kept⟩ := mirrors.image present stored
    have shown := pictures.overlay once agree
    have own := b.keyed old e stored
    cases origin : e.oldKey with
    | none =>
      rw [Entry.start, origin, own] at shown kept
      simp only [Buffer.movedImage, origin]
      exact ⟨row, rfl, shown, kept⟩
    | some first =>
      rw [Entry.start, origin] at shown kept
      simp only [Buffer.movedImage, origin]
      exact ⟨row, rfl, shown, kept⟩

/-- **An event the source can make is never refused, and keeps the buffer a mirror.** -/
theorem Mirrors.add (once : relation.Nodup) (legal : change.LegalOn now) (delivered : LSN)
    (xid : Xid) :
    ∃ b', b.add (change.event relation delivered xid) = .ok b' ∧
      Mirrors relation base (fun k => change.effect k (now k)) (change.carry n who) b' := by
  cases change with
  | insert key row =>
    refine ⟨_, Buffer.add_insert (mirrors.not_image legal),
      mirrors.step (marks_displaced key none) ?_ ?_⟩
    · intro k quiet
      have apart : key ≠ k := by simpa [Change.touches] using quiet
      simp [apart, Buffer.entries_markOldKeyReused]
    · intro k touch
      obtain rfl : key = k := by simpa [Change.touches] using touch
      refine ⟨_, by rw [Buffer.entries_put, if_pos rfl], ?_⟩
      rw [Change.effect, if_pos rfl, Change.carry, if_pos rfl]
      exact ⟨row, rfl, pictures_updateColumns (Or.inl rfl), fun start same => (by cases same)⟩
  | delete key =>
    refine ⟨_, Buffer.add_delete, mirrors.step marks_id ?_ ?_⟩
    · intro k quiet
      have apart : key ≠ k := by simpa [Change.touches] using quiet
      simp [apart]
    · intro k touch
      obtain rfl : key = k := by simpa [Change.touches] using touch
      refine ⟨_, by rw [Buffer.entries_put, if_pos rfl], ?_⟩
      rw [Change.effect, if_pos rfl]
      rfl
  | update key old row omitted =>
    obtain ⟨⟨before, present, agree⟩, free⟩ := legal
    by_cases inPlace : old = key
    · subst inPlace
      have after : (Change.update old old row omitted).effect old (now old) = some row := by
        rw [Change.effect, if_pos rfl]
      have same : (Change.update old old row omitted).carry n who old = who old := by
        rw [Change.carry, if_pos rfl]
      cases stored : b.entries[old]? with
      | none =>
        refine ⟨_, Buffer.add_update_new stored, mirrors.step (marks_displaced old none) ?_ ?_⟩
        · intro k quiet
          have apart : old ≠ k := by simpa [Change.touches] using quiet
          simp [apart, Buffer.entries_markOldKeyReused]
        · intro k touch
          obtain rfl : old = k := by simpa [Change.touches] using touch
          refine ⟨_, by rw [Buffer.entries_put, if_pos rfl], ?_⟩
          obtain ⟨still, origin⟩ := mirrors.untouched old stored
          rw [after, same]
          exact ⟨row, rfl,
            pictures_updateColumns (Or.inr ⟨before, still.symm.trans present, agree⟩), origin⟩
      | some e =>
        obtain ⟨kind, pictures, origin⟩ := mirrors.image present stored
        refine ⟨_, Buffer.add_update_over stored kind, mirrors.step marks_id ?_ ?_⟩
        · intro k quiet
          have apart : old ≠ k := by simpa [Change.touches] using quiet
          simp [apart]
        · intro k touch
          obtain rfl : old = k := by simpa [Change.touches] using touch
          refine ⟨_, by rw [Buffer.entries_modify, if_pos rfl, stored, Option.map_some], ?_⟩
          rw [after, same, Shows, show Entry.kind _ = .image from kind]
          exact ⟨row, rfl, pictures.overlay once agree, origin⟩
    · refine ⟨_, Buffer.add_move inPlace (mirrors.not_image (free inPlace))
        (mirrors.not_deleted present),
        mirrors.step (marks_displaced key (b.entries[old]?.map fun _ => old)) ?_ ?_⟩
      · intro k quiet
        obtain ⟨offKey, offOld⟩ : key ≠ k ∧ old ≠ k := by simpa [Change.touches] using quiet
        simp [Buffer.movedImage_key, offKey, offOld, Buffer.entries_markOldKeyReused]
      · intro k touch
        by_cases own : key = k
        · subst own
          refine ⟨_, by rw [Buffer.entries_put, if_neg inPlace, Buffer.entries_put,
            if_pos Buffer.movedImage_key], ?_⟩
          rw [Change.effect, if_pos rfl, Change.carry, if_pos rfl]
          exact mirrors.movedImage once present agree
        · obtain rfl : old = k := by simpa [Change.touches, own] using touch
          refine ⟨_, by rw [Buffer.entries_put, if_pos rfl], ?_⟩
          rw [Change.effect, if_neg own, if_pos rfl]
          rfl

/-- **A buffer that mirrors the rows yields them when it is applied to the rows it started
from.** -/
theorem Mirrors.applied (once : relation.Nodup) (key : Key) :
    Matches relation (b.applyTo base)[key]? (now key) := by
  cases stored : b.entries[key]? with
  | none =>
    rw [Buffer.applyTo_of_none stored, (mirrors.untouched key stored).1]
    exact Matches.refl _
  | some e =>
    have shows := mirrors.shows key e stored
    rw [Buffer.applyTo_of_some stored, Entry.settle]
    cases kind : e.kind with
    | deleteMarker =>
      rw [Shows, kind] at shows
      rw [shows]
      trivial
    | image =>
      rw [Shows, kind] at shows
      obtain ⟨row, here, pictures, -⟩ := shows
      rw [here]
      cases found : base[e.start]? with
      | some first => exact pictures.layOver found
      | none =>
        simp only [pictures.not_hasMarker once found]
        exact pictures.layOver_whole found _

end Held

/-- **Gathering the rest of a valid history is never refused, and keeps the buffer a mirror.** -/
theorem Mirrors.gather {h : History} {d : ℕ} {events : List (Committed × LSN)} (valid : h.Valid)
    (once : relation.Nodup) (suffix : h.log.drop d = events.map Prod.fst)
    (mirrors : Mirrors relation base (h.row d) (h.who d) b) :
    ∃ b', gather relation b events = .ok b' ∧
      Mirrors relation base (h.row (d + events.length)) (h.who (d + events.length)) b' := by
  induction events generalizing d b with
  | nil => exact ⟨b, rfl, mirrors⟩
  | cons event events ih =>
    obtain ⟨c, delivered⟩ := event
    have found : h.log[d]? = some c := by
      have first := congrArg (fun l => l[0]?) suffix
      simpa using first
    have rest : h.log.drop (d + 1) = events.map Prod.fst := by
      have tail := congrArg List.tail suffix
      rwa [List.tail_drop, List.map_cons, List.tail_cons] at tail
    obtain ⟨next, added, mirrors'⟩ := mirrors.add once (valid d c found) delivered c.xid
    have rows : (fun k => c.change.effect k (h.row d k)) = h.row (d + 1) := by
      funext k
      exact (History.row_succ found).symm
    have names : c.change.carry d (h.who d) = h.who (d + 1) := by
      funext k
      exact (History.who_succ found).symm
    obtain ⟨b', gathers, ends⟩ := ih rest (rows ▸ names ▸ mirrors')
    rw [show d + 1 + events.length = d + (events.length + 1) by omega] at ends
    exact ⟨b', foldlM_cons_ok.mpr ⟨next, added, gathers⟩, ends⟩

end Mirrors

/-- **Applying the merged buffer to the rows it started from is the same as applying its events to
them one at a time.** No event is refused; every moved image of a row the table started with, its
old key reused or not, names the key the row started at; and each entry stands alone under its own
key. -/
theorem applyTo_gather (relation : List Name) (once : relation.Nodup) (base : Table)
    (events : List (Committed × LSN))
    (valid : (⟨base, events.map Prod.fst⟩ : History).Valid) :
    ∃ b, gather relation .new events = .ok b ∧
      (∀ key : Key, Matches relation (b.applyTo base)[key]?
        (replay base (events.map Prod.fst))[key]?) ∧
      (∀ (key old first : Key) (e : Entry), b.entries[key]? = some e → e.kind = .image →
        e.oldKey = some old →
        History.who ⟨base, events.map Prod.fst⟩ events.length key = some (.base first) →
        old = first) ∧
      (∀ (key : Key) (e : Entry), b.entries[key]? = some e → e.key = key) ∧
      ((b.entries.toList.map Prod.snd).map Entry.key).Nodup := by
  obtain ⟨b, gathers, mirrors⟩ := Mirrors.gather valid once (List.drop_zero ..) mirrors_new
  rw [Nat.zero_add] at mirrors
  refine ⟨b, gathers, fun key => ?_, ?_, b.keyed, Buffer.entries_distinct⟩
  · have ends : History.row ⟨base, events.map Prod.fst⟩ events.length key
        = (replay base (events.map Prod.fst))[key]? := by
      rw [getElem?_replay, ← KeyedLog.rowAt_length, List.length_map]
      rfl
    exact ends ▸ mirrors.applied once key
  · intro key old first e stored image moved named
    have shows := mirrors.shows key e stored
    rw [Shows, image] at shows
    obtain ⟨row, -, -, origin⟩ := shows
    rw [← origin first named, Entry.start, moved]
    rfl

/-- Two rows with a value in each column. -/
def pairOfRows : Table :=
  (∅ : Table).insert 1 (fun name => if name = "t" then some "one" else some "a")
    |>.insert 2 (fun name => if name = "t" then some "two" else some "b")

/-- The row under 1 moves to 4 with `t` omitted, and a new row takes its key. -/
def moveAndReuse : List (Committed × LSN) :=
  [(⟨.update 4 1 (fun name => if name = "t" then some "one" else some "c") ["t"], 7, 20⟩, 10),
    (⟨.insert 1 (fun _ => some "new"), 8, 30⟩, 20)]

theorem valid_moveAndReuse : History.Valid ⟨pairOfRows, moveAndReuse.map Prod.fst⟩ :=
  (History.Valid.concat (h := ⟨pairOfRows, []⟩) (fun _ _ found => (nomatch found))
    (by decide)).concat (by decide)

theorem applyTo_gather_reused :
    ∃ b, gather ["u", "t"] .new moveAndReuse = .ok b ∧
      Matches ["u", "t"] (b.applyTo pairOfRows)[(4 : Key)]?
        (replay pairOfRows (moveAndReuse.map Prod.fst))[(4 : Key)]? := by
  obtain ⟨b, gathers, same, -⟩ :=
    applyTo_gather ["u", "t"] (by decide) pairOfRows moveAndReuse valid_moveAndReuse
  exact ⟨b, gathers, same 4⟩

end PgSprite.Applier
