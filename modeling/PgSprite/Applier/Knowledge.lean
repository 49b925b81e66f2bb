/-
**What the buffered entries say about the source's history.**

`Tracks` relates the entries and pending completions to the history the stream is delivering: `d`
changes have been delivered, and `g k` is the position of the first change on `k` the shadow may
still owe. Every entry knows the row its key held at `d`; a marker stands for a value that did not
move since `g k`, or, on a moved image, since the row was last known under its old key; and a
pending completion carries that value, or a change that will drop the completion is still to be
delivered below the position of its read.

* `Tracks.add` — a legal change of the history is never refused, and keeps `Tracks`;
* `Tracks.release` — so does a release at a position the stream has delivered through, and it only
  ever fills in the value the marker stands for (`Tracks.released_value`);
* `Tracks.complete` — so do entries whose markers have taken the values they stand for.
-/

import PgSprite.Applier.Events
import PgSprite.Applier.FlushSpec

namespace PgSprite.Applier

open Std PgSprite.Decode PgSprite.Source

/-- The value is the row's own in that column, as the source or as the shadow holds it. -/
def CarriesCell (f : Flusher) (row : Row) (name : Name) (v : Value) : Prop :=
  v = .text (row name) ∨ v = .shadowForm (f.converted name (row name))

theorem CarriesCell.written {f : Flusher} {row : Row} {name : Name} {v : Value}
    (carries : CarriesCell f row name v) : f.written name v = f.converted name (row name) := by
  rcases carries with rfl | rfl
  · cases conversion : f.conversions name <;>
      simp [Flusher.written, Flusher.converted, conversion, bound]
  · rw [Flusher.written_shadowForm]

theorem CarriesCell.congr {f : Flusher} {row row' : Row} {name : Name} {v : Value}
    (carries : CarriesCell f row name v) (same : row name = row' name) :
    CarriesCell f row' name v := by
  unfold CarriesCell at *
  rwa [same] at carries

/-- The decoded relation names each column once, and the shadow's copied columns among them. -/
structure Decodes (f : Flusher) (relation : List Name) : Prop where
  once : relation.Nodup
  copied : f.columns ⊆ relation

/-- What an image says of the row under its key, `row`, after `d` changes. -/
structure Images (f : Flusher) (relation : List Name) (h : History) (d : ℕ)
    (g : Key → ℕ) (key : Key) (e : Entry) (row : Row) : Prop where
  named : names e.columns = relation
  here : h.row d key = some row
  carried : ∀ name v, valueOf e.columns name = some v → CarriesCell f row name v
  /-- An unmoved image's marker stands for a value the key has held since `g`. -/
  kept : e.oldKey = none → ∀ name ∈ relation, valueOf e.columns name = none →
    ∀ j, g key ≤ j → j ≤ d → ∃ x, h.row j key = some x ∧ x name = row name
  /-- The old key holds no row but the image's own until it is reused. -/
  left : ∀ old, e.oldKey = some old → e.oldKeyReused = false → old ≠ key → h.row d old = none
  /-- A moved image's marker stands for the value every row under the old key has held. -/
  origin : ∀ old, e.oldKey = some old → e.oldKeyReused = false →
    ∃ since ≤ g old, ∀ name ∈ relation, valueOf e.columns name = none →
      ∀ j x, since ≤ j → j ≤ d → h.row j old = some x → x name = row name

/-- A change that drops a completion is still to be delivered, committed at or below `limit`. -/
def Doomed (h : History) (d : ℕ) (limit : LSN) (key : Key) (old : Option Key) (name : Name) :
    Prop :=
  ∃ q c, d ≤ q ∧ h.log[q]? = some c ∧ c.commit ≤ limit ∧
    (c.change.Replaces key ∨ c.change.Carries key name ∨
      ∃ o, old = some o ∧ c.change.Lands o)

/-- A change that replaces the row under `key` is still to be delivered. -/
def Replaced (h : History) (d : ℕ) (limit : LSN) (key : Key) : Prop :=
  ∃ q c, d ≤ q ∧ h.log[q]? = some c ∧ c.commit ≤ limit ∧ c.change.Replaces key

/-- The change at position `i` is the last delivered one on `key`. -/
def LatestOn (h : History) (d : ℕ) (key : Key) (i : ℕ) (c : Committed) : Prop :=
  i < d ∧ h.log[i]? = some c ∧ c.change.touches key = true ∧
    ∀ j c', i < j → j < d → h.log[j]? = some c' → c'.change.touches key = false

/-- What the buffered entries `ent` and pending completions `pend` say after `d` changes. -/
structure Tracks (f : Flusher) (relation : List Name) (h : History) (d : ℕ) (g : Key → ℕ)
    (ent : Key → Option Entry) (pend : Key → Option PendingCompletion) : Prop where
  free : ∀ key, ent key = none → g key = d
  bounded : ∀ key, g key ≤ d
  keyed : ∀ key e, ent key = some e → e.key = key
  latest : ∀ key e, ent key = some e → ∃ i c, LatestOn h d key i c ∧ c.xid = e.xid
  deleted : ∀ key e, ent key = some e → e.kind = .deleteMarker → h.row d key = none
  imaged : ∀ key e, ent key = some e → e.kind = .image →
    ∃ row, Images f relation h d g key e row
  awaited : ∀ key e, ent key = some e → e.absenceAwaited = true →
    e.oldKey = none ∧ ∃ p, pend key = some p ∧ Replaced h d p.readLSN key
  pends : ∀ key p, pend key = some p → ∃ e row, ent key = some e ∧ e.kind = .image ∧
    h.row d key = some row ∧ (names p.completed).Nodup ∧ names p.completed ⊆ f.columns ∧
    ∀ name v, valueOf p.completed name = some v → valueOf e.columns name = none →
      CarriesCell f row name v ∨ Doomed h d p.readLSN key e.oldKey name

variable {f : Flusher} {relation : List Name} {h : History} {d : ℕ} {g g' : Key → ℕ}
  {ent ent' : Key → Option Entry} {pend pend' : Key → Option PendingCompletion} {b b' : Buffer}
  {c : Committed} {key old : Key} {e e' : Entry} {p : PendingCompletion} {row before : Row}
  {omitted : List Name} {delivered passed limit : LSN} {name : Name}

/-! ### One more change is delivered -/

/-- What holds up to the last position and at the next one holds up to the next one. -/
theorem through_succ {P : ℕ → Prop} {first : ℕ} (within : ∀ j, first ≤ j → j ≤ d → P j)
    (last : P (d + 1)) : ∀ j, first ≤ j → j ≤ d + 1 → P j := by
  intro j low high
  rcases Nat.lt_or_ge d j with beyond | inside
  · obtain rfl : j = d + 1 := by omega
    exact last
  · exact within j low inside

/-- A key without a row has none after a change that lands no row on it. -/
theorem row_succ_of_left (valid : h.Valid) (here : h.log[d]? = some c)
    (absent : h.row d old = none) (lands : ¬ c.change.Lands old) : h.row (d + 1) old = none := by
  rw [History.row_succ here]
  exact Change.effect_of_absent absent lands (valid d c here)

/-- An image whose key the change leaves alone, and on whose old key it lands no row, says the same
after it. -/
theorem Images.succ_of_untouched (images : Images f relation h d g key e row) (valid : h.Valid)
    (here : h.log[d]? = some c) (untouched : c.change.touches key = false)
    (lands : ∀ old, e.oldKey = some old → e.oldKeyReused = false → ¬ c.change.Lands old)
    (same : g' key = g key) (raised : ∀ k, g k ≤ g' k) :
    Images f relation h (d + 1) g' key e row := by
  have stays := History.row_succ_of_untouched here untouched
  refine ⟨images.named, stays.trans images.here, images.carried, ?_, ?_, ?_⟩
  · intro unmoved name member marker
    exact through_succ (fun j low => images.kept unmoved name member marker j (same ▸ low))
      ⟨row, stays.trans images.here, rfl⟩
  · intro old moved fresh apart
    exact row_succ_of_left valid here (images.left old moved fresh apart) (lands old moved fresh)
  · intro old moved fresh
    obtain ⟨since, low, cells⟩ := images.origin old moved fresh
    refine ⟨since, low.trans (raised old), fun name member marker j x =>
      through_succ (fun j => cells name member marker j x) (fun found => ?_) j⟩
    by_cases own : old = key
    · rw [own, stays, images.here, Option.some.injEq] at found
      rw [found]
    · rw [row_succ_of_left valid here (images.left old moved fresh own)
        (lands old moved fresh)] at found
      cases found

/-- An image whose old key is flagged as reused says nothing of that key any more. -/
theorem Images.reused (images : Images f relation h d g key e row) :
    Images f relation h d g key (Buffer.flagReused e) row :=
  ⟨images.named, images.here, images.carried, images.kept, fun _ _ fresh => (by cases fresh),
    fun _ _ fresh => (by cases fresh)⟩

theorem LatestOn.succ_of_untouched {i : ℕ} {c' : Committed} (latest : LatestOn h d key i c')
    (here : h.log[d]? = some c) (untouched : c.change.touches key = false) :
    LatestOn h (d + 1) key i c' := by
  obtain ⟨below, there, touches, quiet⟩ := latest
  refine ⟨by omega, there, touches, fun j later low high found => ?_⟩
  rcases Nat.lt_or_ge j d with inside | last
  · exact quiet j later low inside found
  · obtain rfl : j = d := by omega
    rw [here, Option.some.injEq] at found
    exact found ▸ untouched

theorem latestOn_succ (here : h.log[d]? = some c) (touches : c.change.touches key = true) :
    LatestOn h (d + 1) key d c :=
  ⟨by omega, here, touches, fun _ _ low high => by omega⟩

theorem Replaced.succ_of_untouched (replaced : Replaced h d limit key)
    (here : h.log[d]? = some c) (quiet : ¬ c.change.Replaces key) :
    Replaced h (d + 1) limit key := by
  obtain ⟨q, c', low, there, below, replaces⟩ := replaced
  rcases Nat.eq_or_lt_of_le low with rfl | later
  · rw [here, Option.some.injEq] at there
    exact absurd (there ▸ replaces) quiet
  · exact ⟨q, c', later, there, below, replaces⟩

/-- A change that neither replaces the row, sends the column nor lands on the old key leaves a
column doomed. -/
theorem Doomed.succ {old : Option Key}
    (doomed : Doomed h d limit key old name) (here : h.log[d]? = some c)
    (quiet : ¬ c.change.Replaces key) (sent : ¬ c.change.Carries key name)
    (lands : ∀ o, old = some o → ¬ c.change.Lands o) :
    Doomed h (d + 1) limit key old name := by
  obtain ⟨q, c', low, there, below, why⟩ := doomed
  rcases Nat.eq_or_lt_of_le low with rfl | later
  · rw [here, Option.some.injEq] at there
    subst there
    rcases why with replaces | carries | ⟨o, same, landed⟩
    · exact absurd replaces quiet
    · exact absurd carries sent
    · exact absurd landed (lands o same)
  · exact ⟨q, c', later, there, below, why⟩

/-- What a delivered change leaves of the entry under a key it does not touch: the entry as it was,
or flagged and without its completion where a row landed on its old key. -/
def LeftAlone (c : Committed) (e : Entry) (p : Option PendingCompletion) (e' : Entry)
    (p' : Option PendingCompletion) : Prop :=
  (e' = e ∧ p' = p ∧ ∀ old, e.oldKey = some old → ¬ c.change.Lands old) ∨
    (e' = Buffer.flagReused e ∧ p' = none ∧ e.oldKey ≠ none)

/-- What a delivered change leaves under a key it does not touch. -/
def Untouched (c : Committed) (o : Option Entry) (p : Option PendingCompletion) (o' : Option Entry)
    (p' : Option PendingCompletion) : Prop :=
  (o = none ∧ o' = none ∧ p' = none) ∨
    ∃ e e', o = some e ∧ o' = some e' ∧ LeftAlone c e p e' p'

/-- What a delivered change leaves under a key it touches. -/
structure Entered (f : Flusher) (relation : List Name) (h : History) (d : ℕ)
    (g : Key → ℕ) (c : Committed) (key : Key) (e : Entry) (p : Option PendingCompletion) :
    Prop where
  keyed : e.key = key
  xid : e.xid = c.xid
  deleted : e.kind = .deleteMarker → h.row (d + 1) key = none
  imaged : e.kind = .image → ∃ row, Images f relation h (d + 1) g key e row
  awaited : e.absenceAwaited = true →
    e.oldKey = none ∧ ∃ q, p = some q ∧ Replaced h (d + 1) q.readLSN key
  pends : ∀ q, p = some q → ∃ row, e.kind = .image ∧ h.row (d + 1) key = some row ∧
    (names q.completed).Nodup ∧ names q.completed ⊆ f.columns ∧
    ∀ name v, valueOf q.completed name = some v → valueOf e.columns name = none →
      CarriesCell f row name v ∨ Doomed h (d + 1) q.readLSN key e.oldKey name

/-- **A delivered change keeps what the entries say**, from what it leaves under each key. -/
theorem Tracks.step (tracks : Tracks f relation h d g ent pend) (valid : h.Valid)
    (here : h.log[d]? = some c)
    (owed : ∀ k, g' k = if (ent' k).isNone then d + 1 else g k)
    (untouched : ∀ k, c.change.touches k = false → Untouched c (ent k) (pend k) (ent' k) (pend' k))
    (touched : ∀ k, c.change.touches k = true →
      ∃ e, ent' k = some e ∧ Entered f relation h d g' c k e (pend' k)) :
    Tracks f relation h (d + 1) g' ent' pend' := by
  have range : ∀ k, g k ≤ g' k ∧ g' k ≤ d + 1 := by
    intro k
    have bound := tracks.bounded k
    rw [owed]
    split <;> omega
  have held : ∀ k e, ent' k = some e → g' k = g k := by
    intro k e stored
    rw [owed, stored]
    rfl
  -- a key is either touched, or its entry comes from the one before
  have cases : ∀ k e', ent' k = some e' →
      (c.change.touches k = true ∧ Entered f relation h d g' c k e' (pend' k)) ∨
        (c.change.touches k = false ∧ ∃ e, ent k = some e ∧
          LeftAlone c e (pend k) e' (pend' k)) := by
    intro k e' stored
    cases touch : c.change.touches k with
    | true =>
      obtain ⟨e, same, entered⟩ := touched k touch
      rw [stored, Option.some.injEq] at same
      exact Or.inl ⟨rfl, same ▸ entered⟩
    | false =>
      rcases untouched k touch with ⟨-, absent, -⟩ | ⟨e, e'', before, after, alone⟩
      · rw [stored] at absent
        cases absent
      · rw [stored, Option.some.injEq] at after
        exact Or.inr ⟨rfl, e, before, after ▸ alone⟩
  refine ⟨?_, fun k => (range k).2, ?_, ?_, ?_, ?_, ?_, ?_⟩
  · intro k absent
    rw [owed, absent]
    rfl
  · intro k e' stored
    rcases cases k e' stored with ⟨-, entered⟩ | ⟨-, e, before, ⟨rfl, -⟩ | ⟨rfl, -⟩⟩
    · exact entered.keyed
    · exact tracks.keyed k e' before
    · exact tracks.keyed k e before
  · intro k e' stored
    rcases cases k e' stored with ⟨touch, entered⟩ | ⟨quiet, e, before, alone⟩
    · exact ⟨d, c, latestOn_succ here touch, entered.xid.symm⟩
    · obtain ⟨i, c', latest, xid⟩ := tracks.latest k e before
      refine ⟨i, c', latest.succ_of_untouched here quiet, ?_⟩
      rcases alone with ⟨rfl, -⟩ | ⟨rfl, -⟩ <;> exact xid
  · intro k e' stored kind
    rcases cases k e' stored with ⟨-, entered⟩ | ⟨quiet, e, before, alone⟩
    · exact entered.deleted kind
    · rw [History.row_succ_of_untouched here quiet]
      refine tracks.deleted k e before ?_
      rcases alone with ⟨rfl, -⟩ | ⟨rfl, -⟩ <;> exact kind
  · intro k e' stored kind
    rcases cases k e' stored with ⟨-, entered⟩ | ⟨quiet, e, before, alone⟩
    · exact entered.imaged kind
    · rcases alone with ⟨rfl, -, lands⟩ | ⟨rfl, -, -⟩
      · obtain ⟨row, images⟩ := tracks.imaged k e' before kind
        exact ⟨row, images.succ_of_untouched valid here quiet (fun old moved _ => lands old moved)
          (held k e' stored) fun k => (range k).1⟩
      · obtain ⟨row, images⟩ := tracks.imaged k e before kind
        exact ⟨row, images.reused.succ_of_untouched valid here quiet
          (fun _ _ fresh => (by cases fresh)) (held k _ stored) fun k => (range k).1⟩
  · intro k e' stored waits
    rcases cases k e' stored with ⟨-, entered⟩ | ⟨quiet, e, before, alone⟩
    · exact entered.awaited waits
    · have still : ¬ c.change.Replaces k := fun replaces => by
        simp [Change.touches_of_replaces replaces] at quiet
      rcases alone with ⟨rfl, same, -⟩ | ⟨rfl, -, moved⟩
      · obtain ⟨unmoved, p, waiting, replaced⟩ := tracks.awaited k e' before waits
        exact ⟨unmoved, p, same.trans waiting, replaced.succ_of_untouched here still⟩
      · exact absurd (tracks.awaited k e before waits).1 moved
  · intro k p waiting
    cases touch : c.change.touches k with
    | true =>
      obtain ⟨e, stored, entered⟩ := touched k touch
      obtain ⟨row, rest⟩ := entered.pends p waiting
      exact ⟨e, row, stored, rest⟩
    | false =>
      rcases untouched k touch with ⟨-, -, absent⟩ | ⟨e, e', before, after, alone⟩
      · rw [waiting] at absent
        cases absent
      · rcases alone with ⟨rfl, same, lands⟩ | ⟨-, dropped, -⟩
        · obtain ⟨e'', row, stored, kind, there, once, within, values⟩ :=
            tracks.pends k p (same ▸ waiting)
          rw [before, Option.some.injEq] at stored
          subst stored
          refine ⟨e', row, after, kind,
            (History.row_succ_of_untouched here touch).trans there, once, within, ?_⟩
          intro name v found marker
          rcases values name v found marker with carries | doomed
          · exact Or.inl carries
          · refine Or.inr (doomed.succ here (fun replaces => ?_) (fun carries => ?_) lands)
            · simp [Change.touches_of_replaces replaces] at touch
            · simp [Change.touches_of_carries carries] at touch
        · rw [waiting] at dropped
          cases dropped

/-! ### Entries are discarded -/

/-- An image says the same where other keys owe less. -/
theorem Images.raise (images : Images f relation h d g key e row) (same : g' key = g key)
    (raised : ∀ k, g k ≤ g' k) : Images f relation h d g' key e row := by
  refine ⟨images.named, images.here, images.carried, ?_, images.left, ?_⟩
  · intro unmoved name member marker j low
    exact images.kept unmoved name member marker j (same ▸ low)
  · intro old moved fresh
    obtain ⟨since, low, cells⟩ := images.origin old moved fresh
    exact ⟨since, low.trans (raised old), cells⟩

/-- **Discarding entries keeps what the others say**: a discarded key owes nothing delivered. -/
theorem Tracks.discard (tracks : Tracks f relation h d g ent pend) (discarded : Key → Prop)
    [DecidablePred discarded] (free : ∀ k, discarded k → pend k = none) :
    Tracks f relation h d (fun k => if discarded k then d else g k)
      (fun k => if discarded k then none else ent k) pend := by
  have raised : ∀ k, g k ≤ if discarded k then d else g k := by
    intro k
    have bound := tracks.bounded k
    split <;> omega
  have kept : ∀ k e, (if discarded k then none else ent k) = some e →
      ¬ discarded k ∧ ent k = some e := by
    intro k e stored
    split at stored
    · cases stored
    next stays => exact ⟨stays, stored⟩
  refine ⟨fun k absent => ?_, fun k => ?_, fun k e stored => ?_, fun k e stored => ?_,
    fun k e stored => ?_, fun k e stored kind => ?_, fun k e stored => ?_, fun k p waiting => ?_⟩
  · split
    · rfl
    next stays => exact tracks.free k (by rwa [if_neg stays] at absent)
  · have bound := tracks.bounded k
    split <;> omega
  · exact tracks.keyed k e (kept k e stored).2
  · exact tracks.latest k e (kept k e stored).2
  · exact tracks.deleted k e (kept k e stored).2
  · obtain ⟨stays, stored⟩ := kept k e stored
    obtain ⟨row, images⟩ := tracks.imaged k e stored kind
    exact ⟨row, images.raise (if_neg stays) raised⟩
  · exact tracks.awaited k e (kept k e stored).2
  · have stays : ¬ discarded k := fun gone => by
      rw [free k gone] at waiting
      cases waiting
    obtain ⟨e, row, stored, rest⟩ := tracks.pends k p waiting
    exact ⟨e, row, (if_neg stays).trans stored, rest⟩

theorem tracks_empty : Tracks f relation h d (fun _ => d) (fun _ => none) fun _ => none where
  free _ _ := rfl
  bounded _ := le_rfl
  keyed _ _ stored := (nomatch stored)
  latest _ _ stored := (nomatch stored)
  deleted _ _ stored := (nomatch stored)
  imaged _ _ stored := (nomatch stored)
  awaited _ _ stored := (nomatch stored)
  pends _ _ waiting := (nomatch waiting)

/-! ### The source commits more -/

section Extend

variable (more : List Committed)

/-- Changes committed later do not touch what an image says of the log before. -/
theorem Images.extend (images : Images f relation h d g key e row) (within : d ≤ h.log.length) :
    Images f relation (h.extend more) d g key e row := by
  refine ⟨images.named, ?_, images.carried, ?_, ?_, ?_⟩
  · rw [History.row_extend within]
    exact images.here
  · intro unmoved name member marker j low high
    rw [History.row_extend (high.trans within)]
    exact images.kept unmoved name member marker j low high
  · intro old moved fresh apart
    rw [History.row_extend within]
    exact images.left old moved fresh apart
  · intro old moved fresh
    obtain ⟨since, low, cells⟩ := images.origin old moved fresh
    refine ⟨since, low, fun name member marker j x first last found => ?_⟩
    rw [History.row_extend (last.trans within)] at found
    exact cells name member marker j x first last found

theorem Doomed.extend {old : Option Key} (doomed : Doomed h d limit key old name) :
    Doomed (h.extend more) d limit key old name := by
  obtain ⟨q, c, low, here, rest⟩ := doomed
  exact ⟨q, c, low, History.log_extend here, rest⟩

theorem Replaced.extend (replaced : Replaced h d limit key) :
    Replaced (h.extend more) d limit key := by
  obtain ⟨q, c, low, here, rest⟩ := replaced
  exact ⟨q, c, low, History.log_extend here, rest⟩

theorem LatestOn.extend {i : ℕ} {c : Committed} (latest : LatestOn h d key i c)
    (within : d ≤ h.log.length) : LatestOn (h.extend more) d key i c := by
  obtain ⟨below, here, touches, quiet⟩ := latest
  refine ⟨below, History.log_extend here, touches, fun j c' later low found => ?_⟩
  exact quiet j c' later low (History.log_of_extend (by omega) found)

/-- Changes committed later do not touch what the buffer tracks. -/
theorem Tracks.extend (tracks : Tracks f relation h d g ent pend) (within : d ≤ h.log.length) :
    Tracks f relation (h.extend more) d g ent pend := by
  refine ⟨tracks.free, tracks.bounded, tracks.keyed, ?_, ?_, ?_, ?_, ?_⟩
  · intro k e stored
    obtain ⟨i, c, latest, xid⟩ := tracks.latest k e stored
    exact ⟨i, c, latest.extend more within, xid⟩
  · intro k e stored kind
    rw [History.row_extend within]
    exact tracks.deleted k e stored kind
  · intro k e stored kind
    obtain ⟨row, images⟩ := tracks.imaged k e stored kind
    exact ⟨row, images.extend more within⟩
  · intro k e stored waits
    obtain ⟨unmoved, p, waiting, replaced⟩ := tracks.awaited k e stored waits
    exact ⟨unmoved, p, waiting, replaced.extend more⟩
  · intro k p waiting
    obtain ⟨e, row, stored, kind, here, once, inside, values⟩ := tracks.pends k p waiting
    refine ⟨e, row, stored, kind, ?_, once, inside, fun name v found marker => ?_⟩
    · rw [History.row_extend within]
      exact here
    · exact (values name v found marker).imp (fun carries => carries) (Doomed.extend more)

end Extend

/-! ### The stream's events -/

/-- `Tracks`, of the entries and completions a buffer holds. -/
abbrev Tracked (f : Flusher) (relation : List Name) (h : History) (d : ℕ) (g : Key → ℕ)
    (b : Buffer) : Prop :=
  Tracks f relation h d g (fun k => b.entries[k]?) (fun k => b.pending[k]?)

/-- The first change owed on each key once one more change is buffered. -/
def owedAfter (g : Key → ℕ) (d : ℕ) (b : Buffer) (key : Key) : ℕ :=
  if b.entries[key]?.isNone then d + 1 else g key

theorem owedAfter_of_some (stored : b.entries[key]? = some e) : owedAfter g d b key = g key := by
  rw [owedAfter, stored]
  rfl

theorem Tracks.le_owedAfter (tracks : Tracks f relation h d g ent pend) (k : Key) :
    g k ≤ owedAfter g d b k := by
  have bound := tracks.bounded k
  rw [owedAfter]
  split <;> omega

theorem Buffer.pending_of_absent (absent : b.entries[key]? = none) : b.pending[key]? = none := by
  cases waiting : b.pending[key]? with
  | none => rfl
  | some p =>
    obtain ⟨e, held⟩ := b.heldEntry key p waiting
    rw [absent] at held
    cases held

/-- The one key a change can land a row on. -/
theorem leftAlone_mark {landing k : Key} {mover : Option Key} (stored : b.entries[k]? = some e)
    (only : ∀ o, c.change.Lands o → o = landing) (moving : some k ≠ mover) :
    LeftAlone c e b.pending[k]?
      (if Buffer.displaces landing mover e then Buffer.flagReused e else e)
      (b.markOldKeyReused landing mover).pending[k]? := by
  rw [Buffer.pending_markOldKeyReused, stored, Option.any_some]
  by_cases displaced : Buffer.displaces landing mover e = true
  · rw [if_pos displaced, if_pos displaced]
    refine Or.inr ⟨rfl, rfl, ?_⟩
    simp only [Buffer.displaces, Bool.and_eq_true, decide_eq_true_eq] at displaced
    simp [displaced.1]
  · rw [if_neg displaced, if_neg displaced]
    refine Or.inl ⟨rfl, rfl, fun o moved lands => displaced ?_⟩
    have own := b.keyed k e stored
    simp only [Buffer.displaces, Bool.and_eq_true, decide_eq_true_eq]
    exact ⟨only o lands ▸ moved, own ▸ moving⟩

/-- A key whose entry the writes leave to the landing row alone. -/
theorem untouched_of_mark {k : Key} (landing : Key) (mover : Option Key)
    (only : ∀ o, c.change.Lands o → o = landing) (moving : some k ≠ mover)
    (entries : b'.entries[k]? = (b.markOldKeyReused landing mover).entries[k]?)
    (pending : b'.pending[k]? = (b.markOldKeyReused landing mover).pending[k]?) :
    Untouched c b.entries[k]? b.pending[k]? b'.entries[k]? b'.pending[k]? := by
  rw [Buffer.entries_markOldKeyReused] at entries
  cases stored : b.entries[k]? with
  | none =>
    rw [stored] at entries
    refine Or.inl ⟨rfl, entries, ?_⟩
    rw [pending, Buffer.pending_markOldKeyReused, stored]
    exact Buffer.pending_of_absent stored
  | some e =>
    rw [stored, Option.map_some] at entries
    exact Or.inr ⟨e, _, rfl, entries, pending ▸ leftAlone_mark stored only moving⟩

/-- A key whose entry the writes leave as it was, under a change that lands no row. -/
theorem untouched_of_frame {k : Key} (quiet : ∀ o, ¬ c.change.Lands o)
    (entries : b'.entries[k]? = b.entries[k]?) (pending : b'.pending[k]? = b.pending[k]?) :
    Untouched c b.entries[k]? b.pending[k]? b'.entries[k]? b'.pending[k]? := by
  cases stored : b.entries[k]? with
  | none =>
    exact Or.inl ⟨rfl, entries.trans stored, pending.trans (Buffer.pending_of_absent stored)⟩
  | some e =>
    exact Or.inr ⟨e, e, rfl, entries.trans stored, Or.inl ⟨rfl, pending, fun o _ => quiet o⟩⟩

theorem entered_fresh (keyed : e.key = key) (xid : e.xid = c.xid)
    (plain : e.absenceAwaited = false)
    (deleted : e.kind = .deleteMarker → h.row (d + 1) key = none)
    (imaged : e.kind = .image → ∃ row, Images f relation h (d + 1) g key e row) :
    Entered f relation h d g c key e none where
  keyed := keyed
  xid := xid
  deleted := deleted
  imaged := imaged
  awaited := by simp [plain]
  pends := by simp

theorem Tracks.not_image (tracks : Tracked f relation h d g b) (absent : h.row d key = none) :
    (b.entries[key]?).any (fun e => e.kind = .image) = false := by
  cases stored : b.entries[key]? with
  | none => rfl
  | some e =>
    cases kind : e.kind with
    | deleteMarker => simp [kind]
    | image =>
      obtain ⟨row, images⟩ := tracks.imaged key e stored kind
      have there := images.here
      rw [absent] at there
      cases there

/-- A present row's entry is an image of it. -/
theorem Tracks.image (tracks : Tracked f relation h d g b) (present : h.row d key = some row)
    (stored : b.entries[key]? = some e) :
    e.kind = .image ∧ Images f relation h d g key e row := by
  cases kind : e.kind with
  | deleteMarker =>
    have gone := tracks.deleted key e stored kind
    rw [present] at gone
    cases gone
  | image =>
    obtain ⟨row', images⟩ := tracks.imaged key e stored kind
    obtain rfl : row = row' := Option.some.inj (present.symm.trans images.here)
    exact ⟨rfl, images⟩

theorem Tracks.not_deleted (tracks : Tracked f relation h d g b)
    (present : h.row d key = some row) :
    (b.entries[key]?).any (fun e => e.kind = .deleteMarker) = false := by
  cases stored : b.entries[key]? with
  | none => rfl
  | some e => simp [(tracks.image present stored).1]

/-- The source held the row an UPDATE finds, and holds the row it leaves. -/
theorem row_of_update (valid : h.Valid) (here : h.log[d]? = some c)
    (change : c.change = .update key old row omitted) :
    (∃ before, h.row d old = some before ∧ AgreeOn omitted row before) ∧
      (old ≠ key → h.row d key = none) ∧ h.row (d + 1) key = some row := by
  have legal := valid d c here
  rw [change] at legal
  rw [History.row_succ here, change, Change.effect, if_pos rfl]
  exact ⟨legal.1, legal.2, rfl⟩

theorem carriesCell_updateColumns {v : Value}
    (found : valueOf (updateColumns relation row omitted) name = some v) :
    CarriesCell f row name v :=
  carried_updateColumns (P := fun name t v => v = .text t ∨ v = .shadowForm (f.converted name t))
    (fun _ _ => Or.inl rfl) found

theorem carriesCell_overlay {v : Value} {columns : List Column}
    (once : relation.Nodup) (named : names columns = relation)
    (carried : ∀ name v, valueOf columns name = some v → CarriesCell f before name v)
    (agree : AgreeOn omitted row before)
    (found : valueOf (overlay columns (updateColumns relation row omitted)) name = some v) :
    CarriesCell f row name v :=
  carried_overlay (P := fun name t v => v = .text t ∨ v = .shadowForm (f.converted name t))
    (fun _ _ => Or.inl rfl) once named carried agree found

/-- The change at `d` is buffered, and the entries then say what they should after it. -/
abbrev Accepts (f : Flusher) (relation : List Name) (h : History) (d : ℕ) (g : Key → ℕ) (b : Buffer)
    (c : Committed) (delivered : LSN) : Prop :=
  ∃ b', b.add (c.change.event relation delivered c.xid) = .ok b' ∧
    Tracked f relation h (d + 1) (owedAfter g d b') b'

section Add

variable (tracks : Tracked f relation h d g b) (valid : h.Valid) (decodes : Decodes f relation)
  (here : h.log[d]? = some c)

include tracks valid here

/-- **A row whose key held no image starts one.** -/
theorem Tracks.startImage {first : LSN} (touches : ∀ k, c.change.touches k = decide (key = k))
    (lands : ∀ o, c.change.Lands o → o = key) (after : h.row (d + 1) key = some row)
    (kept : ∀ name ∈ omitted, ∀ j, g key ≤ j → j ≤ d + 1 →
      ∃ x, h.row j key = some x ∧ x name = row name) :
    let e : Entry :=
      { key, kind := .image, columns := updateColumns relation row omitted, firstLSN := first
        xid := c.xid }
    let b' := (b.markOldKeyReused key none).put e
    Tracked f relation h (d + 1) (owedAfter g d b') b' := by
  intro e b'
  have stored : b'.entries[key]? = some e := by simp [b', e]
  refine Tracks.step tracks valid here (fun k => rfl) (fun k quiet => ?_) (fun k touch => ?_)
  · have apart : key ≠ k := by simpa [touches] using quiet
    refine untouched_of_mark key none lands (by simp) ?_ ?_
    · simp [b', e, apart]
    · simp [b', e, apart]
  · obtain rfl : key = k := by simpa [touches] using touch
    have dropped : b'.pending[key]? = none := by simp [b', e]
    refine ⟨e, stored, dropped ▸ entered_fresh rfl rfl rfl (fun kind => (by cases kind)) fun _ =>
      ⟨row, names_map _ _, after, fun name v => carriesCell_updateColumns, ?_,
        fun _ moved => (by cases moved), fun _ moved => (by cases moved)⟩⟩
    intro _ name member marker j low high
    rw [owedAfter_of_some stored] at low
    exact kept name (omitted_of_marker member marker) j low high

/-- **An INSERT of a valid history is never refused.** -/
theorem Tracks.addInsert (change : c.change = .insert key row) :
    Accepts f relation h d g b c delivered := by
  have legal : h.row d key = none := by
    have := valid d c here
    rwa [change] at this
  refine ⟨_, change ▸ Buffer.add_insert (tracks.not_image legal), ?_⟩
  refine tracks.startImage valid here (fun k => by rw [change]; rfl) (fun o lands => ?_) ?_ ?_
  · rw [change] at lands
    exact lands.symm
  · rw [History.row_succ here, change, Change.effect, if_pos rfl]
  · exact fun name member => absurd member List.not_mem_nil

/-- **A DELETE of a valid history is buffered as a delete marker.** -/
theorem Tracks.addDelete (change : c.change = .delete key) :
    Accepts f relation h d g b c delivered := by
  let entry : Entry :=
    { key, kind := .deleteMarker, firstLSN := Buffer.firstLSN delivered [b.entries[key]?]
      xid := c.xid }
  refine ⟨b.put entry, by rw [change]; rfl, ?_⟩
  refine Tracks.step tracks valid here (fun k => rfl) (fun k quiet => ?_) (fun k touch => ?_)
  · have apart : key ≠ k := by simpa [change, Change.touches] using quiet
    refine untouched_of_frame (fun o lands => ?_) ?_ ?_
    · rwa [change] at lands
    · simp [entry, apart]
    · simp [entry, apart]
  · obtain rfl : key = k := by simpa [change, Change.touches] using touch
    have dropped : (b.put entry).pending[key]? = none := by simp [entry]
    refine ⟨entry, by simp [entry],
      dropped ▸ entered_fresh rfl rfl rfl (fun _ => ?_) (fun kind => (by cases kind))⟩
    rw [History.row_succ here, change, Change.effect, if_pos rfl]

/-- **An UPDATE of a row the buffer holds no entry for starts an image.** -/
theorem Tracks.addUpdate_new (change : c.change = .update key key row omitted)
    (absent : b.entries[key]? = none) : Accepts f relation h d g b c delivered := by
  obtain ⟨⟨before, present, agree⟩, -, after⟩ := row_of_update valid here change
  refine ⟨_, change ▸ Buffer.add_update_new absent, ?_⟩
  refine tracks.startImage valid here (fun k => by simp [change, Change.touches])
    (fun o lands => ?_) after fun name member =>
      through_succ (fun j low high => ?_) ⟨row, after, rfl⟩
  · rw [change] at lands
    exact lands.1.symm
  · rw [tracks.free key absent] at low
    obtain rfl : j = d := by omega
    exact ⟨before, present, (agree name member).symm⟩

omit tracks valid here in
/-- An image with an event overlaid carries the event's row, and has a marker where both do. -/
theorem Images.overlaid (images : Images f relation h d g key e before) (once : relation.Nodup)
    (agree : AgreeOn omitted row before) :
    names (overlay e.columns (updateColumns relation row omitted)) = relation ∧
      (∀ name v, valueOf (overlay e.columns (updateColumns relation row omitted)) name = some v →
        CarriesCell f row name v) ∧
      ∀ name ∈ relation,
        valueOf (overlay e.columns (updateColumns relation row omitted)) name = none →
        valueOf e.columns name = none ∧ before name = row name := by
  refine ⟨?_, fun name v => carriesCell_overlay once images.named images.carried agree,
    fun name member marker => ?_⟩
  · rw [names_overlay, images.named]
    rw [updateColumns, names_map, images.named]
    exact List.Subset.refl _
  · obtain ⟨left, omits⟩ := markers_of_overlay once member marker
    exact ⟨omits, (agree name left).symm⟩

omit tracks valid in
/-- The image under a row's key says the same with a later event of the row overlaid. -/
theorem Images.overlay {xid : Xid} (images : Images f relation h d g key e before)
    (once : relation.Nodup) (change : c.change = .update key key row omitted)
    (after : h.row (d + 1) key = some row) (agree : AgreeOn omitted row before)
    (same : g' key = g key) (raised : ∀ k, g k ≤ g' k) :
    Images f relation h (d + 1) g' key
      { e with columns := overlay e.columns (updateColumns relation row omitted), xid } row := by
  have elsewhere : ∀ k, k ≠ key → h.row (d + 1) k = h.row d k := fun k apart =>
    History.row_succ_of_untouched here (by simp [change, Change.touches, Ne.symm apart])
  obtain ⟨named, carried, cell⟩ := images.overlaid once agree
  refine ⟨named, after, carried, ?_, ?_, ?_⟩
  · intro unmoved name member marker
    obtain ⟨omits, equal⟩ := cell name member marker
    refine through_succ (fun j low high => ?_) ⟨row, after, rfl⟩
    obtain ⟨x, found, value⟩ := images.kept unmoved name member omits j (same ▸ low) high
    exact ⟨x, found, value.trans equal⟩
  · intro o moved fresh apart
    rw [elsewhere o apart]
    exact images.left o moved fresh apart
  · intro o moved fresh
    obtain ⟨since, low, cells⟩ := images.origin o moved fresh
    refine ⟨since, low.trans (raised o), fun name member marker j x =>
      through_succ (P := fun j => h.row j o = some x → _) (fun j first last found => ?_)
        (fun found => ?_) j⟩
    · obtain ⟨omits, equal⟩ := cell name member marker
      exact (cells name member omits j x first last found).trans equal
    · by_cases own : o = key
      · rw [own, after, Option.some.injEq] at found
        rw [found]
      · rw [elsewhere o own, images.left o moved fresh own] at found
        cases found

include decodes

/-- **An UPDATE of a buffered row is overlaid on its image**, and leaves a completion pending. -/
theorem Tracks.addUpdate_overlay (change : c.change = .update key key row omitted)
    (stored : b.entries[key]? = some e) : Accepts f relation h d g b c delivered := by
  obtain ⟨⟨before, present, agree⟩, -, after⟩ := row_of_update valid here change
  obtain ⟨kind, images⟩ := tracks.image present stored
  have plain : ¬ c.change.Replaces key := by
    rw [change]
    exact fun replaces => replaces.2 rfl
  have quiet : ∀ o, ¬ c.change.Lands o := by
    intro o lands
    rw [change] at lands
    exact lands.2 lands.1
  let merged : Entry → Entry := fun e =>
    { e with columns := overlay e.columns (updateColumns relation row omitted), xid := c.xid }
  refine ⟨b.modify key merged fun _ => ⟨rfl, rfl⟩,
    change ▸ Buffer.add_update_over stored kind, ?_⟩
  have now : (b.modify key merged fun _ => ⟨rfl, rfl⟩).entries[key]? = some (merged e) := by
    simp [stored]
  refine Tracks.step tracks valid here (fun k => rfl) (fun k untouched => ?_) (fun k touch => ?_)
  · have apart : key ≠ k := by simpa [change, Change.touches] using untouched
    exact untouched_of_frame quiet (by simp [apart]) rfl
  · obtain rfl : key = k := by simpa [change, Change.touches] using touch
    refine ⟨merged e, now, tracks.keyed key e stored, rfl, fun deleted => ?_,
      fun _ => ⟨row, images.overlay here decodes.once change after agree (owedAfter_of_some now)
        tracks.le_owedAfter⟩, fun waits => ?_, fun p waiting => ?_⟩
    · rw [show (merged e).kind = e.kind from rfl, kind] at deleted
      cases deleted
    · obtain ⟨unmoved, p, waiting, replaced⟩ := tracks.awaited key e stored waits
      exact ⟨unmoved, p, waiting, replaced.succ_of_untouched here plain⟩
    · obtain ⟨e', row', stored', -, there, distinct, within, values⟩ := tracks.pends key p waiting
      cases stored.symm.trans stored'
      cases present.symm.trans there
      refine ⟨row, kind, after, distinct, within, fun name v found marker => ?_⟩
      have member : name ∈ relation := decodes.copied (within (mem_of_valueOf found))
      obtain ⟨left, omits⟩ := markers_of_overlay decodes.once member marker
      rcases values name v found omits with carries | doomed
      · exact Or.inl (carries.congr (agree name left).symm)
      · refine Or.inr (doomed.succ here plain ?_ fun o _ => quiet o)
        rw [change]
        exact fun sent => sent.2.2 left

omit tracks valid here decodes in
/-- An image that left `old` with the change at `d`, of which every row under `old` held the cells
it has markers for. -/
theorem images_of_left (named : names e.columns = relation) (moved : e.oldKey = some old)
    (carried : ∀ name v, valueOf e.columns name = some v → CarriesCell f row name v)
    (after : h.row (d + 1) key = some row) (gone : h.row (d + 1) old = none)
    (raised : g old ≤ g' old)
    (held : ∀ name ∈ relation, valueOf e.columns name = none → ∀ j x, g old ≤ j → j ≤ d →
      h.row j old = some x → x name = row name) :
    Images f relation h (d + 1) g' key e row := by
  refine ⟨named, after, carried, fun unmoved => ?_, fun o left _ _ => ?_, fun o left _ => ?_⟩
  · rw [moved] at unmoved
    cases unmoved
  · cases moved.symm.trans left
    exact gone
  · cases moved.symm.trans left
    refine ⟨g old, raised, fun name member marker j x =>
      through_succ (fun j => held name member marker j x) (fun found => ?_) j⟩
    rw [gone] at found
    cases found

/-- The image a key move buffers knows the row it moved: what the event carries, over what an image
buffered at the old key carried. -/
theorem Tracks.movedImage {cur : Option Entry} (change : c.change = .update key old row omitted)
    (apart : old ≠ key) (raised : ∀ k, g k ≤ g' k) :
    Images f relation h (d + 1) g' key
      (Buffer.movedImage ((Change.update key old row omitted).event relation delivered c.xid) old
        cur b.entries[old]?) row := by
  obtain ⟨⟨before, present, agree⟩, -, after⟩ := row_of_update valid here change
  have gone : h.row (d + 1) old = none := by
    rw [History.row_succ here, change, Change.effect, if_neg (Ne.symm apart), if_pos rfl]
  cases stored : b.entries[old]? with
  | none =>
    refine images_of_left (names_map _ _) rfl (fun name v => carriesCell_updateColumns) after gone
      (raised old) fun name member marker j x first last found => ?_
    rw [tracks.free old stored] at first
    obtain rfl : j = d := by omega
    cases present.symm.trans found
    exact (agree name (omitted_of_marker member marker)).symm
  | some e =>
    obtain ⟨-, images⟩ := tracks.image present stored
    obtain ⟨named, carried, cell⟩ := images.overlaid decodes.once agree
    cases origin : e.oldKey with
    | none =>
      simp only [Buffer.movedImage, origin]
      refine images_of_left named rfl carried after gone (raised old)
        fun name member marker j x first last found => ?_
      obtain ⟨omits, equal⟩ := cell name member marker
      obtain ⟨y, there, value⟩ := images.kept origin name member omits j first last
      cases there.symm.trans found
      exact value.trans equal
    | some start =>
      have vacated : e.oldKeyReused = false → start ≠ key → h.row (d + 1) start = none := by
        intro fresh away
        by_cases same : start = old
        · rw [same, gone]
        · rw [History.row_succ_of_untouched here (by
            simp [change, Change.touches, Ne.symm away, Ne.symm same])]
          exact images.left start origin fresh same
      simp only [Buffer.movedImage, origin]
      refine ⟨named, after, carried, fun unmoved => (by cases unmoved), ?_, ?_⟩
      · intro o moved fresh away
        cases moved
        exact vacated fresh away
      · intro o moved fresh
        cases moved
        obtain ⟨since, low, cells⟩ := images.origin start origin fresh
        refine ⟨since, low.trans (raised start), fun name member marker j x =>
          through_succ (P := fun j => h.row j start = some x → _) (fun j first last found => ?_)
            (fun found => ?_) j⟩
        · obtain ⟨omits, equal⟩ := cell name member marker
          exact (cells name member omits j x first last found).trans equal
        · by_cases back : start = key
          · rw [back, after, Option.some.injEq] at found
            rw [found]
          · rw [vacated fresh back] at found
            cases found

/-- **A key move of a valid history is never refused.** -/
theorem Tracks.addKeyMove (change : c.change = .update key old row omitted) (apart : old ≠ key) :
    Accepts f relation h d g b c delivered := by
  obtain ⟨⟨before, present, agree⟩, free, -⟩ := row_of_update valid here change
  obtain ⟨landed, xid, kind, plain⟩ := Buffer.movedImage_fields
    ((Change.update key old row omitted).event relation delivered c.xid) old b.entries[key]?
    b.entries[old]?
  let moved := Buffer.movedImage
    ((Change.update key old row omitted).event relation delivered c.xid)
    old b.entries[key]? b.entries[old]?
  let marker : Entry :=
    { key := old, kind := .deleteMarker, firstLSN := Buffer.firstLSN delivered [b.entries[old]?]
      xid := c.xid }
  let marked := b.markOldKeyReused key (b.entries[old]?.map fun _ => old)
  let after := (marked.put moved).put marker
  have movedKey : moved.key = key := landed
  refine ⟨after, change ▸ Buffer.add_move apart (tracks.not_image (free apart))
    (tracks.not_deleted present), ?_⟩
  refine Tracks.step tracks valid here (fun k => rfl) (fun k quiet => ?_) (fun k touch => ?_)
  · obtain ⟨offKey, offOld⟩ : key ≠ k ∧ old ≠ k := by
      simpa [change, Change.touches] using quiet
    refine untouched_of_mark key (b.entries[old]?.map fun _ => old) (fun o lands => ?_) ?_ ?_ ?_
    · rw [change] at lands
      exact lands.1.symm
    · cases b.entries[old]? <;> simp [Ne.symm offOld]
    · simp [after, marked, marker, movedKey, offKey, offOld]
    · simp [after, marked, marker, movedKey, offKey, offOld]
  · by_cases own : key = k
    · subst own
      have dropped : after.pending[key]? = none := by simp [after, marker, movedKey, apart]
      refine ⟨moved, by simp [after, marker, movedKey, apart],
        dropped ▸ entered_fresh landed xid plain (fun wrong => ?_) fun _ =>
          ⟨row, tracks.movedImage valid decodes here change apart tracks.le_owedAfter⟩⟩
      rw [show moved.kind = .image from kind] at wrong
      cases wrong
    · obtain rfl : old = k := by simpa [change, Change.touches, own] using touch
      have dropped : after.pending[old]? = none := by simp [after, marker]
      refine ⟨marker, by simp [after, marker],
        dropped ▸ entered_fresh rfl rfl rfl (fun _ => ?_) fun wrong => (by cases wrong)⟩
      rw [History.row_succ here, change, Change.effect, if_neg (Ne.symm apart), if_pos rfl]

/-- **A valid history's next change is never refused, and keeps what the entries say.** -/
theorem Tracks.add (delivered : LSN) : Accepts f relation h d g b c delivered := by
  cases change : c.change with
  | insert key row => exact tracks.addInsert valid here change
  | delete key => exact tracks.addDelete valid here change
  | update key old row omitted =>
    by_cases same : old = key
    · subst same
      cases stored : b.entries[old]? with
      | none => exact tracks.addUpdate_new valid here change stored
      | some e => exact tracks.addUpdate_overlay valid decodes here change stored
    · exact tracks.addKeyMove valid decodes here change same

end Add

/-! ### Markers take their value -/

/-- What an entry is left with when markers of it have taken the values they stand for in the row
under its key. -/
structure Completed (f : Flusher) (h : History) (d : ℕ) (key : Key) (e e' : Entry) : Prop where
  same : e' = { e with columns := e'.columns }
  named : names e'.columns = names e.columns
  taken : ∀ name v, valueOf e'.columns name = some v → valueOf e.columns name = some v ∨
    ∃ row, h.row d key = some row ∧ CarriesCell f row name v
  kept : ∀ name, valueOf e'.columns name = none → valueOf e.columns name = none

theorem Completed.refl : Completed f h d key e e :=
  ⟨rfl, rfl, fun _ _ => Or.inl, fun _ marker => marker⟩

/-- An image says the same once markers of it have taken the values they stand for. -/
theorem Images.complete (images : Images f relation h d g key e row)
    (completed : Completed f h d key e e') :
    Images f relation h d g key e' row := by
  have old : e'.oldKey = e.oldKey := by rw [completed.same]
  have reused : e'.oldKeyReused = e.oldKeyReused := by rw [completed.same]
  refine ⟨completed.named.trans images.named, images.here, fun name v value => ?_, ?_, ?_, ?_⟩
  · rcases completed.taken name v value with before | ⟨row', here, carries⟩
    · exact images.carried name v before
    · rw [images.here, Option.some.injEq] at here
      exact here ▸ carries
  · intro unmoved name member marker
    exact images.kept (old ▸ unmoved) name member (completed.kept name marker)
  · rw [old, reused]
    exact images.left
  · intro origin moved fresh
    obtain ⟨since, bound, held⟩ := images.origin origin (old ▸ moved) (reused ▸ fresh)
    exact ⟨since, bound, fun name member marker => held name member (completed.kept name marker)⟩

/-- **Completing entries with what their markers stand for leaves everything tracked**, whatever
completions go, as long as none goes that an entry awaits an absence by. -/
theorem Tracks.complete (tracks : Tracks f relation h d g ent pend)
    (completed : ∀ key, (ent key = none ∧ ent' key = none) ∨
      ∃ e e', ent key = some e ∧ ent' key = some e' ∧ Completed f h d key e e')
    (fewer : ∀ key p, pend' key = some p → pend key = some p)
    (waits : ∀ key p, pend key = some p → Replaced h d p.readLSN key → pend' key = some p) :
    Tracks f relation h d g ent' pend' := by
  have before : ∀ key e', ent' key = some e' →
      ∃ e, ent key = some e ∧ Completed f h d key e e' := by
    intro key e' stored
    rcases completed key with ⟨-, free⟩ | ⟨e, e'', first, second, done⟩
    · rw [free] at stored
      cases stored
    · rw [second, Option.some.injEq] at stored
      exact ⟨e, first, stored ▸ done⟩
  refine ⟨fun key free => ?_, tracks.bounded, fun key e' stored => ?_, fun key e' stored => ?_,
    fun key e' stored kind => ?_, fun key e' stored kind => ?_, fun key e' stored awaits => ?_,
    fun key p waiting => ?_⟩
  · rcases completed key with ⟨none, -⟩ | ⟨e, e', -, second, -⟩
    · exact tracks.free key none
    · rw [free] at second
      cases second
  · obtain ⟨e, first, done⟩ := before key e' stored
    rw [done.same]
    exact tracks.keyed key e first
  · obtain ⟨e, first, done⟩ := before key e' stored
    rw [done.same]
    exact tracks.latest key e first
  · obtain ⟨e, first, done⟩ := before key e' stored
    rw [done.same] at kind
    exact tracks.deleted key e first kind
  · obtain ⟨e, first, done⟩ := before key e' stored
    rw [done.same] at kind
    obtain ⟨row, images⟩ := tracks.imaged key e first kind
    exact ⟨row, images.complete done⟩
  · obtain ⟨e, first, done⟩ := before key e' stored
    rw [done.same] at awaits ⊢
    obtain ⟨unmoved, p, waiting, replaced⟩ := tracks.awaited key e first awaits
    exact ⟨unmoved, p, waits key p waiting replaced, replaced⟩
  · obtain ⟨e, row, stored, kind, here, once, copied, reads⟩ :=
      tracks.pends key p (fewer key p waiting)
    rcases completed key with ⟨none, -⟩ | ⟨e₀, e', first, second, done⟩
    · rw [none] at stored
      cases stored
    · rw [first, Option.some.injEq] at stored
      subst stored
      have old : e'.oldKey = e₀.oldKey := by rw [done.same]
      refine ⟨e', row, second, by rw [done.same]; exact kind, here, once, copied,
        fun name v value marker => ?_⟩
      rw [old]
      exact reads name v value (done.kept name marker)

/-! ### A release -/

/-- Every change not yet delivered commits above `passed`. -/
def DeliveredThrough (h : History) (d : ℕ) (passed : LSN) : Prop :=
  ∀ q c, d ≤ q → h.log[q]? = some c → passed < c.commit

theorem DeliveredThrough.not_le {q : ℕ}
    (through : DeliveredThrough h d passed) (taken : limit ≤ passed) (low : d ≤ q)
    (here : h.log[q]? = some c) : ¬ c.commit ≤ limit := by
  have above := through q c low here
  grind

/-- **A completion the stream has passed carries the value its marker stands for**: a change that
would have dropped it is one the stream has delivered. -/
theorem Tracks.released_value (tracks : Tracked f relation h d g b)
    (through : DeliveredThrough h d passed) (waiting : b.pending[key]? = some p)
    (taken : p.readLSN ≤ passed) (stored : b.entries[key]? = some e) {v : Value}
    (found : valueOf p.completed name = some v) (marker : valueOf e.columns name = none) :
    ∃ row, h.row d key = some row ∧ CarriesCell f row name v := by
  obtain ⟨e', row, stored', -, here, -, -, values⟩ := tracks.pends key p waiting
  rw [stored, Option.some.injEq] at stored'
  subst stored'
  refine ⟨row, here, ?_⟩
  rcases values name v found marker with carries | ⟨q, c, low, there, below, -⟩
  · exact carries
  · exact absurd below (through.not_le taken low there)

/-- **A release completes the entry it takes a completion for.** -/
theorem Tracks.completed_fill (tracks : Tracked f relation h d g b) (decodes : Decodes f relation)
    (through : DeliveredThrough h d passed) (waiting : b.pending[key]? = some p)
    (taken : p.readLSN ≤ passed) (stored : b.entries[key]? = some e) :
    Completed f h d key e { e with columns := fill e.columns p.completed } := by
  obtain ⟨e', row, stored', -, here, once, within, -⟩ := tracks.pends key p waiting
  cases stored.symm.trans stored'
  obtain ⟨-, images⟩ := tracks.image here stored
  refine ⟨rfl, names_fill ?_, fun name v found => ?_, fun name marker => ?_⟩
  · rw [images.named]
    exact List.Subset.trans within decodes.copied
  · rw [valueOf_fill once] at found
    cases own : valueOf e.columns name with
    | some u => exact Or.inl (by rwa [own, Option.some_or] at found)
    | none =>
      rw [own, Option.none_or] at found
      exact Or.inr (tracks.released_value through waiting taken stored found own)
  · rw [valueOf_fill once, Option.or_eq_none_iff] at marker
    exact marker.1

/-- **A release keeps what the entries say.** An image held for an absent row is never among those
released: the change that explains the absence has replaced it. -/
theorem Tracks.release (tracks : Tracked f relation h d g b) (decodes : Decodes f relation)
    (through : DeliveredThrough h d passed) : Tracked f relation h d g (b.release passed) := by
  refine tracks.complete (fun key => ?_)
    (fun key p waiting => (Buffer.pending_release_eq_some.mp waiting).1)
    fun key p waiting doomed => ?_
  · cases stored : b.entries[key]? with
    | none =>
      refine Or.inl ⟨rfl, ?_⟩
      rwa [(Buffer.release_kept fun p waiting => by
        rw [Buffer.pending_of_absent stored] at waiting; cases waiting).1]
    | some e =>
      refine Or.inr ?_
      by_cases taken : ∃ p, b.pending[key]? = some p ∧ p.readLSN ≤ passed
      · obtain ⟨p, waiting, passes⟩ := taken
        refine ⟨e, _, rfl, ?_, tracks.completed_fill decodes through waiting passes stored⟩
        rw [(Buffer.release_taken waiting (not_lt.mpr passes)).1, stored, Option.map_some]
      · refine ⟨e, e, rfl, ?_, Completed.refl⟩
        rwa [(Buffer.release_kept fun p waiting => not_le.mp fun passes =>
          taken ⟨p, waiting, passes⟩).1]
  · obtain ⟨q, c, low, here, below, -⟩ := doomed
    refine Buffer.pending_release_eq_some.mpr ⟨waiting, not_le.mp fun passes => ?_⟩
    exact through.not_le passes low here below

end PgSprite.Applier
