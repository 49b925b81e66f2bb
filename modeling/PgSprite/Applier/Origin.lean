/-
**An image's old key is the key its row had before its first move since the buffer knows it.**

The stream owner adds events, drains, holds and requeues what a drain handed out, and releases
completions. `Keeping` is the buffer through such a run, with two things the code does not keep: the
entries handed out since the last event, which are all that a hold or a requeue may put back, and
for each image the oldest event of its row that it still holds. `Named` says of one image what its
old key and its flag mean in the source's history.

* `Named.untouched`, `Named.overlaid`, `Named.movedAgain` — one event, by what it does to the
  image's row;
* `Keeps.step` — every step of a run keeps all images named;
* `old_key_names_origin` — so they are in every state a run reaches.
-/

import PgSprite.Applier.Drain
import PgSprite.Applier.Events
import PgSprite.Applier.Hold
import PgSprite.Lib.Run
import PgSprite.Source.Identity

namespace PgSprite.Source

open PgSprite.Decode

/-- The change shows a row under `key`: one it inserts there, or one it updates that stays there or
moves there. -/
def Change.ShowsUnder (key : Key) : Change → Prop
  | insert k _ => k = key
  | update k _ _ _ => k = key
  | delete _ => False

theorem Change.ShowsUnder.touches {change : Change} {key : Key} (shown : change.ShowsUnder key) :
    change.touches key = true := by
  cases change with
  | insert k _ => exact decide_eq_true shown
  | update k old _ _ => simp [Change.touches, show k = key from shown]
  | delete k => exact shown.elim

theorem Change.ShowsUnder.isSome {change : Change} {key : Key} (shown : change.ShowsUnder key)
    (before : Option Row) : (change.effect key before).isSome = true := by
  cases change with
  | insert k _ => simp [Change.effect, show k = key from shown]
  | update k old _ _ => simp [Change.effect, show k = key from shown]
  | delete k => exact shown.elim

namespace History

variable {h : History} {n : ℕ} {c : Committed} {r r' : RowId} {key : Key}

/-- The `n`-th change moves row `r` away from `old`. -/
def Moves (h : History) (n : ℕ) (r : RowId) (old : Key) : Prop :=
  ∃ c key row omitted, h.log[n]? = some c ∧ c.change = .update key old row omitted ∧ old ≠ key ∧
    h.who n old = some r

/-- The `n`-th change shows a row other than `r` under `key`. -/
def ShowsAnother (h : History) (n : ℕ) (r : RowId) (key : Key) : Prop :=
  ∃ c r', h.log[n]? = some c ∧ c.change.ShowsUnder key ∧ h.who (n + 1) key = some r' ∧ r' ≠ r

/-- The `n`-th change inserts or updates row `r`. -/
def Concerns (h : History) (n : ℕ) (r : RowId) : Prop :=
  ∃ c key, h.log[n]? = some c ∧ c.change.ShowsUnder key ∧ h.who (n + 1) key = some r

/-- The `m`-th change is row `r`'s first move since the `first`-th, and takes it from `old`. -/
structure FirstMove (h : History) (first : ℕ) (r : RowId) (old : Key) (m : ℕ) : Prop where
  since : first ≤ m
  moves : h.Moves m r old
  none : ∀ j o, first ≤ j → j < m → ¬ h.Moves j r o

theorem Moves.touches {o : Key} (moves : h.Moves n r o) (here : h.log[n]? = some c)
    (under : h.who n key = some r) : c.change.touches key = true := by
  obtain ⟨c', k, row, omitted, there, change, -, was⟩ := moves
  rw [here, Option.some.injEq] at there
  subst there
  rw [who_injective under was, change]
  simp [Change.touches]

/-- A change elsewhere that shows a key shows another row there. -/
theorem ShowsAnother.of_untouched (valid : h.Valid) (here : h.log[n]? = some c)
    (under : h.who n key = some r) (untouched : c.change.touches key = false) {o : Key}
    (shown : c.change.ShowsUnder o) : h.ShowsAnother n r o := by
  have stays : h.who (n + 1) key = some r := by
    rw [who_succ here, Change.carry_of_untouched untouched, under]
  have present : (h.who (n + 1) o).isSome = true := by
    rw [who_isSome_iff valid, row_succ here]
    exact shown.isSome _
  obtain ⟨r', there⟩ := Option.isSome_iff_exists.mp present
  refine ⟨c, r', here, shown, there, ?_⟩
  rintro rfl
  -- the row would be under `o`, which the change touches
  rw [who_injective stays there, shown.touches] at untouched
  cases untouched

end History

end PgSprite.Source

namespace PgSprite.Applier

open Std PgSprite.Decode PgSprite.Source PgSprite.Lib PgSprite.Copier

/-! ### The buffer through a run -/

/-- The buffer, after `next` changes of the history have come in. -/
structure Keeping where
  next : ℕ
  buffer : Buffer
  /-- The entries drains have handed out since the last event. -/
  drained : List Entry := []
  /-- The oldest event of its row that the image under a key holds. -/
  oldest : Key → ℕ := fun _ => 0

/-- What the stream owner does. -/
inductive Keep where
  | add (delivered : LSN)
  | drain (pos : Position) (snap : Snapshot)
  | hold (held : List HeldImage)
  | release (passed : LSN)
  | requeue (entries : List Entry)

/-- The oldest event each image holds once the change after the first `n` is buffered: an image that
starts with it, or that goes on from the one its row had. -/
def oldestAfter (b : Buffer) (oldest : Key → ℕ) (n : ℕ) (change : Change) (k : Key) : ℕ :=
  match change with
  | .insert key _ => if key = k then n else oldest k
  | .update key old _ _ =>
    if key = k then (if b.entries.contains old then oldest old else n) else oldest k
  | .delete _ => oldest k

/-- The held image is one a drain handed out, as it was or awaiting its absent row. -/
def HeldImage.from (h : HeldImage) (drained : List Entry) : Bool :=
  drained.any fun e => decide (h.entry = { e with absenceAwaited := h.entry.absenceAwaited })

/-- The entry is one a drain handed out, up to the columns a refused flush completed in it. -/
def Entry.from (e : Entry) (drained : List Entry) : Bool :=
  drained.any fun e' => decide (e = { e' with columns := e.columns })

/-- One step of the stream owner over a source history. A hold and a requeue run before any event
after the drain, so they put back only what was handed out since the last one. -/
def keepStep (h : History) (relation : List Name) (s : Keeping) : Keep → Option Keeping
  | .add delivered =>
    match h.log[s.next]? with
    | none => none
    | some c =>
      match s.buffer.add (c.change.event relation delivered c.xid) with
      | .error _ => none
      | .ok buffer => some
          { next := s.next + 1, buffer
            oldest := oldestAfter s.buffer s.oldest s.next c.change }
  | .drain pos snap =>
    let (buffer, batch) := s.buffer.drain pos snap
    some { s with buffer, drained := s.drained ++ batch.entries }
  | .hold held =>
    if held.all fun image => image.from s.drained then
      match s.buffer.hold held with
      | .error _ => none
      | .ok buffer => some { s with buffer }
    else none
  | .release passed => some { s with buffer := s.buffer.release passed }
  | .requeue entries =>
    if entries.all fun e => e.from s.drained then
      match s.buffer.requeue entries with
      | .error _ => none
      | .ok buffer => some { s with buffer }
    else none

/-! ### What an image's old key says -/

/-- Row `r` is under `key` after `next` changes, an image of it holds its events since the
`oldest`-th, and its old key and flag say where it was before its first move among them, and whether
another row has been shown there since. -/
structure Named (h : History) (next oldest : ℕ) (key : Key) (oldKey : Option Key) (reused : Bool)
    (r : RowId) : Prop where
  here : h.who next key = some r
  begun : oldest < next
  concerns : h.Concerns oldest r
  unmoved : oldKey = none → reused = false ∧ ∀ j o, oldest ≤ j → j < next → ¬ h.Moves j r o
  moved : ∀ old, oldKey = some old → ∃ m < next, h.FirstMove oldest r old m ∧
    (reused = true ↔ ∃ j, m < j ∧ j < next ∧ h.ShowsAnother j r old)
  /-- Until the flag is set, the old key holds no row but the image's own. -/
  left : ∀ old, oldKey = some old → reused = false → ∀ r', h.who next old = some r' → r' = r

/-- An image is named by some row's history. -/
def ImageNamed (h : History) (next oldest : ℕ) (e : Entry) : Prop :=
  e.kind = .image → ∃ r, Named h next oldest e.key e.oldKey e.oldKeyReused r

/-- Every buffered image is named. -/
def AllNamed (h : History) (next : ℕ) (oldest : Key → ℕ) (b : Buffer) : Prop :=
  ∀ (k : Key) (e : Entry), b.entries[k]? = some e → ImageNamed h next (oldest k) e

/-- Every image of the buffer, and every image handed out since the last event, is named. -/
structure Keeps (h : History) (s : Keeping) : Prop where
  buffered : AllNamed h s.next s.oldest s.buffer
  handed : ∀ e ∈ s.drained, ImageNamed h s.next (s.oldest e.key) e

section Event

variable {h : History} {next oldest : ℕ} {key : Key} {oldKey : Option Key} {reused : Bool}
  {r : RowId} {c : Committed} {row : Row} {omitted : List Name}

/-- No later change is among those since `m`. -/
theorem exists_shown_succ {m : ℕ} {old : Key} (before : m < next) :
    (∃ j, m < j ∧ j < next + 1 ∧ h.ShowsAnother j r old) ↔
      (∃ j, m < j ∧ j < next ∧ h.ShowsAnother j r old) ∨ h.ShowsAnother next r old := by
  constructor
  · rintro ⟨j, low, high, shown⟩
    rcases Nat.lt_or_ge j next with inside | last
    · exact Or.inl ⟨j, low, inside, shown⟩
    · obtain rfl : j = next := by omega
      exact Or.inr shown
  · rintro (⟨j, low, high, shown⟩ | shown)
    · exact ⟨j, low, by omega, shown⟩
    · exact ⟨next, before, by omega, shown⟩

variable (here : h.log[next]? = some c)

include here

/-- **A change that leaves the image's row alone** flags the image exactly where it shows a row
under the image's old key. -/
theorem Named.untouched (named : Named h next oldest key oldKey reused r) (valid : h.Valid)
    (quiet : c.change.touches key = false) {reused' : Bool} (flags : reused' = true ↔
      reused = true ∨ ∃ old, oldKey = some old ∧ c.change.ShowsUnder old) :
    Named h (next + 1) oldest key oldKey reused' r where
  here := by rw [History.who_succ here, Change.carry_of_untouched quiet, named.here]
  begun := named.begun.trans (Nat.lt_succ_self next)
  concerns := named.concerns
  unmoved still := by
    obtain ⟨clear, stays⟩ := named.unmoved still
    constructor
    · rw [← Bool.not_eq_true, flags, clear, still]
      rintro (flagged | ⟨old, moved, -⟩)
      · cases flagged
      · cases moved
    · intro j o low high moves
      rcases Nat.lt_or_ge j next with inside | last
      · exact stays j o low inside moves
      · obtain rfl : j = next := by omega
        rw [moves.touches here named.here] at quiet
        cases quiet
  moved old moved := by
    obtain ⟨m, before, first, since⟩ := named.moved old moved
    refine ⟨m, by omega, first, ?_⟩
    rw [flags, exists_shown_succ before, since]
    refine or_congr Iff.rfl ⟨?_, ?_⟩
    · rintro ⟨o, same, shown⟩
      rw [moved, Option.some.injEq] at same
      exact History.ShowsAnother.of_untouched valid here named.here quiet (same ▸ shown)
    · rintro ⟨c', r', there, shown, -⟩
      rw [here, Option.some.injEq] at there
      exact ⟨old, moved, there ▸ shown⟩
  left old moved clear r' there := by
    have unflagged : ¬ (reused = true ∨ ∃ old, oldKey = some old ∧ c.change.ShowsUnder old) := by
      rw [← flags, clear]
      simp
    rw [not_or, Bool.not_eq_true] at unflagged
    rw [History.who_succ here] at there
    rcases Change.carry_cases there with ⟨row, change, -⟩ | ⟨o, row, omitted, change, -⟩ | ⟨-, was⟩
    · exact absurd ⟨old, moved, by rw [change]; rfl⟩ unflagged.2
    · exact absurd ⟨old, moved, by rw [change]; rfl⟩ unflagged.2
    · exact named.left old moved unflagged.1 r' was

/-- An image's row stays under its key, and its old key's row, if any, with it, under an update in
place of that row. -/
theorem Named.overlaid (named : Named h next oldest key oldKey reused r)
    (change : c.change = .update key key row omitted) :
    Named h (next + 1) oldest key oldKey reused r := by
  have same : ∀ k, h.who (next + 1) k = h.who next k := by
    intro k
    rw [History.who_succ here, change, Change.carry]
    by_cases equal : key = k
    · rw [if_pos equal, equal]
    · rw [if_neg equal, if_neg equal]
  have still : ∀ o, ¬ h.Moves next r o := by
    rintro o ⟨c', k, row', omitted', there, change', apart, -⟩
    rw [here, Option.some.injEq] at there
    rw [← there, change] at change'
    cases change'
    exact apart rfl
  have own : ∀ o, ¬ h.ShowsAnother next r o := by
    rintro o ⟨c', r', there, shown, under, apart⟩
    rw [here, Option.some.injEq] at there
    rw [← there, change] at shown
    obtain rfl : key = o := shown
    rw [same, named.here, Option.some.injEq] at under
    exact apart under.symm
  refine ⟨(same key).trans named.here, by have := named.begun; omega, named.concerns, ?_, ?_, ?_⟩
  · intro unmoved
    obtain ⟨clear, stays⟩ := named.unmoved unmoved
    refine ⟨clear, fun j o low high moves => ?_⟩
    rcases Nat.lt_or_ge j next with inside | last
    · exact stays j o low inside moves
    · obtain rfl : j = next := by omega
      exact still o moves
  · intro old moved
    obtain ⟨m, before, first, since⟩ := named.moved old moved
    refine ⟨m, by omega, first, ?_⟩
    rw [exists_shown_succ before, since]
    simp [own old]
  · intro old moved clear r' there
    exact named.left old moved clear r' (same old ▸ there)

/-- **The image of a row that moves for the first time since it is buffered.** -/
theorem named_firstMove {old : Key} (change : c.change = .update key old row omitted)
    (apart : old ≠ key) (was : h.who next old = some r) (since : oldest ≤ next)
    (concerns : h.Concerns oldest r) (still : ∀ j o, oldest ≤ j → j < next → ¬ h.Moves j r o) :
    Named h (next + 1) oldest key (some old) false r where
  here := by rw [History.who_succ here, change, Change.carry, if_pos rfl, was]
  begun := by omega
  concerns := concerns
  unmoved same := by cases same
  moved o moved := by
    cases moved
    refine ⟨next, by omega, ⟨since, ⟨c, key, row, omitted, here, change, apart, was⟩, still⟩, ?_⟩
    refine ⟨fun reused => (by cases reused), ?_⟩
    rintro ⟨j, low, high, _⟩
    omega
  left o moved _ r' there := by
    cases moved
    rw [History.who_succ here, change, Change.carry, if_neg (Ne.symm apart), if_pos rfl] at there
    cases there

/-- **A row that moves again keeps the old key and the flag it had**, its return to the old key
included. -/
theorem Named.movedAgain {old start : Key} (named : Named h next oldest old (some start) reused r)
    (change : c.change = .update key old row omitted) :
    Named h (next + 1) oldest key (some start) reused r := by
  have landed : h.who (next + 1) key = some r := by
    rw [History.who_succ here, change, Change.carry, if_pos rfl, named.here]
  have own : ¬ h.ShowsAnother next r start := by
    rintro ⟨c', r', there, shown, under, other⟩
    rw [here, Option.some.injEq] at there
    rw [← there, change] at shown
    obtain rfl : key = start := shown
    rw [landed, Option.some.injEq] at under
    exact other under.symm
  refine ⟨landed, by have := named.begun; omega, named.concerns,
    fun same => (by cases same), ?_, ?_⟩
  · intro o moved
    obtain ⟨m, before, first, since⟩ := named.moved o moved
    cases moved
    refine ⟨m, by omega, first, ?_⟩
    rw [exists_shown_succ before, since]
    simp [own]
  · intro o moved clear r' there
    rw [History.who_succ here] at there
    rcases Change.carry_cases there with ⟨row, change', -⟩ | ⟨o', row', omitted', change', was⟩ |
      ⟨-, was⟩
    · cases change.symm.trans change'
    · cases change.symm.trans change'
      rw [named.here, Option.some.injEq] at was
      exact was.symm
    · exact named.left o moved clear r' was

theorem named_fresh (shown : c.change.ShowsUnder key) (under : h.who (next + 1) key = some r)
    (still : ∀ o, ¬ h.Moves next r o) : Named h (next + 1) next key none false r where
  here := under
  begun := Nat.lt_succ_self next
  concerns := ⟨c, key, here, shown, under⟩
  unmoved _ := by
    refine ⟨rfl, fun j o low high moves => ?_⟩
    obtain rfl : j = next := by omega
    exact still o moves
  moved := nofun
  left := nofun

end Event

/-! ### An event comes in -/

section Add

variable {h : History} {next : ℕ} {oldest : Key → ℕ} {b b' : Buffer} {c : Committed}
  {relation : List Name} {delivered : LSN} {key old k : Key} {row : Row} {omitted : List Name}
  {e : Entry}

theorem oldestAfter_of_untouched (quiet : c.change.touches k = false) :
    oldestAfter b oldest next c.change k = oldest k := by
  cases change : c.change with
  | insert key row => simp_all [Change.touches, oldestAfter]
  | update key old row omitted => simp_all [Change.touches, oldestAfter]
  | delete key => rfl

variable (valid : h.Valid) (here : h.log[next]? = some c)

include valid here

/-- The row an update finds is one the source holds. -/
theorem who_of_update (change : c.change = .update key old row omitted) :
    ∃ r, h.who next old = some r := by
  have legal := valid next c here
  rw [change] at legal
  obtain ⟨⟨before, present, -⟩, -⟩ := legal
  rw [← Option.isSome_iff_exists, History.who_isSome_iff valid, present]
  rfl

/-- An image whose row the change leaves alone stays named, flagged where the landing row displaces
it. -/
theorem imageNamed_marked (named : ImageNamed h next (oldest k) e)
    (quiet : c.change.touches k = false) (own : e.key = k) {landing : Key} {mover : Option Key}
    (shows : ∀ o, c.change.ShowsUnder o ↔ landing = o) (moving : some k ≠ mover) :
    ImageNamed h (next + 1) (oldestAfter b oldest next c.change k)
      (if Buffer.displaces landing mover e then Buffer.flagReused e else e) := by
  intro image
  have kind : e.kind = .image := by
    split at image
    · exact image
    · exact image
  obtain ⟨r, named⟩ := named kind
  rw [oldestAfter_of_untouched quiet]
  refine ⟨r, ?_⟩
  have displaced : Buffer.displaces landing mover e = true ↔ e.oldKey = some landing := by
    rw [Buffer.displaces, Bool.and_eq_true, decide_eq_true_eq, decide_eq_true_eq, own]
    exact and_iff_left moving
  by_cases flags : Buffer.displaces landing mover e = true
  · rw [if_pos flags]
    refine named.untouched here valid (own ▸ quiet) (iff_of_true rfl (Or.inr ⟨landing, ?_, ?_⟩))
    · exact displaced.mp flags
    · exact (shows landing).mpr rfl
  · rw [if_neg flags]
    refine named.untouched here valid (own ▸ quiet) ⟨Or.inl, ?_⟩
    rintro (flagged | ⟨o, moved, shown⟩)
    · exact flagged
    · exact absurd (displaced.mpr ((shows o).mp shown ▸ moved)) flags

/-- An image whose row the change leaves alone stays named where the change shows no row under its
old key but one the flag already tells of. -/
theorem imageNamed_left (named : ImageNamed h next (oldest k) e)
    (quiet : c.change.touches k = false) (own : e.key = k)
    (shows : ∀ o, c.change.ShowsUnder o → (h.who next o).isSome = true) :
    ImageNamed h (next + 1) (oldestAfter b oldest next c.change k) e := by
  intro kind
  obtain ⟨r, named⟩ := named kind
  rw [oldestAfter_of_untouched quiet]
  refine ⟨r, named.untouched here valid (own ▸ quiet) ⟨Or.inl, ?_⟩⟩
  rintro (flagged | ⟨o, moved, shown⟩)
  · exact flagged
  · -- unflagged, the old key would hold the image's own row, which the change does not touch
    by_contra clear
    obtain ⟨r', there⟩ := Option.isSome_iff_exists.mp (shows o shown)
    obtain rfl := named.left o moved (by simpa using clear) r' there
    rw [History.who_injective named.here there] at own
    rw [← own, shown.touches] at quiet
    cases quiet

/-- A moved image names the origin of the row it carries on. -/
theorem imageNamed_moved {cur : Option Entry} (change : c.change = .update key old row omitted)
    (apart : old ≠ key) (named : ∀ e, b.entries[old]? = some e →
      e.kind = .image ∧ ImageNamed h next (oldest old) e) :
    ImageNamed h (next + 1) (oldestAfter b oldest next c.change key)
      (Buffer.movedImage (c.change.event relation delivered c.xid) old cur b.entries[old]?) := by
  have eventKey : (c.change.event relation delivered c.xid).key = key := by rw [change]; rfl
  intro _
  rw [change, oldestAfter, if_pos rfl, ← change, ExtTreeMap.contains_eq_isSome_getElem?]
  cases stored : b.entries[old]? with
  | none =>
    obtain ⟨r, was⟩ := who_of_update valid here change
    refine ⟨r, ?_⟩
    simp only [Buffer.movedImage, eventKey, Option.isSome_none, Bool.false_eq_true, if_false]
    refine named_firstMove here change apart was le_rfl ⟨c, key, here, by rw [change]; rfl, ?_⟩ ?_
    · rw [History.who_succ here, change, Change.carry, if_pos rfl, was]
    · intro j o low high
      omega
  | some e =>
    obtain ⟨kind, named⟩ := named e stored
    obtain ⟨r, named⟩ := named kind
    rw [b.keyed old e stored] at named
    refine ⟨r, ?_⟩
    cases origin : e.oldKey with
    | none =>
      obtain ⟨-, still⟩ := named.unmoved origin
      simp only [Buffer.movedImage, eventKey, origin]
      exact named_firstMove here change apart named.here named.begun.le named.concerns still
    | some start =>
      rw [origin] at named
      simp only [Buffer.movedImage, eventKey, origin]
      exact named.movedAgain here change

theorem AllNamed.marked (named : AllNamed h next oldest b) (quiet : c.change.touches k = false)
    {landing : Key} {mover : Option Key} (shows : ∀ o, c.change.ShowsUnder o ↔ landing = o)
    (moving : some k ≠ mover) (kept : (b.markOldKeyReused landing mover).entries[k]? = some e) :
    ImageNamed h (next + 1) (oldestAfter b oldest next c.change k) e := by
  rw [Buffer.entries_markOldKeyReused, Option.map_eq_some_iff] at kept
  obtain ⟨before, was, rfl⟩ := kept
  exact imageNamed_marked valid here (named k before was) quiet (b.keyed k before was) shows moving

variable (named : AllNamed h next oldest b)
  (added : b.add (c.change.event relation delivered c.xid) = .ok b')

include named added

/-- An INSERT starts an image that names no origin. -/
theorem AllNamed.insert (change : c.change = .insert key row) :
    AllNamed h (next + 1) (oldestAfter b oldest next c.change) b' := by
  intro k e stored
  rw [change] at added
  rw [Buffer.of_add_insert added, Buffer.entries_put] at stored
  split at stored
  next same =>
    obtain rfl : key = k := same
    cases stored
    intro _
    rw [change, oldestAfter, if_pos rfl]
    refine ⟨.inserted next, named_fresh here (by rw [change]; rfl) ?_ ?_⟩
    · rw [History.who_succ here, change, Change.carry, if_pos rfl]
    · rintro o ⟨c', _, _, _, there, moves, -⟩
      rw [here, Option.some.injEq] at there
      cases change.symm.trans (there ▸ moves)
  next apart =>
    refine named.marked valid here ?_ (fun o => ?_) (by simp) stored
    · rw [change]
      simpa [Change.touches] using apart
    · rw [change]
      rfl

/-- A DELETE leaves only images whose rows it does not touch. -/
theorem AllNamed.delete (change : c.change = .delete key) :
    AllNamed h (next + 1) (oldestAfter b oldest next c.change) b' := by
  intro k e stored
  rw [change, Buffer.add_delete] at added
  cases added
  rw [Buffer.entries_put] at stored
  split at stored
  · cases stored
    exact nofun
  next apart =>
    refine imageNamed_left valid here (named k e stored) ?_ (b.keyed k e stored) ?_
    · rw [change]
      simpa [Change.touches] using apart
    · intro o shown
      rw [change] at shown
      exact shown.elim

/-- An UPDATE in place keeps the name of the image it overlays. -/
theorem AllNamed.update (change : c.change = .update key key row omitted) :
    AllNamed h (next + 1) (oldestAfter b oldest next c.change) b' := by
  obtain ⟨r, was⟩ := who_of_update valid here change
  intro k e stored
  rw [change] at added
  rcases Buffer.of_add_update added with ⟨absent, rfl⟩ | ⟨cur, held, image, rfl⟩
  · rw [Buffer.entries_put] at stored
    split at stored
    next same =>
      obtain rfl : key = k := same
      cases stored
      intro _
      rw [change, oldestAfter, if_pos rfl,
        if_neg (by simp [ExtTreeMap.contains_eq_isSome_getElem?, absent])]
      refine ⟨r, named_fresh here (by rw [change]; rfl) ?_ ?_⟩
      · rw [History.who_succ here, change, Change.carry, if_pos rfl, was]
      · rintro o ⟨c', _, _, _, there, moves, apart, -⟩
        rw [here, Option.some.injEq] at there
        cases change.symm.trans (there ▸ moves)
        exact apart rfl
    next apart =>
      refine named.marked valid here ?_ (fun o => ?_) (by simp) stored
      · rw [change]
        simpa [Change.touches] using apart
      · rw [change]
        rfl
  · rw [Buffer.entries_modify] at stored
    split at stored
    next same =>
      subst same
      rw [held, Option.map_some, Option.some.injEq] at stored
      subst stored
      intro _
      obtain ⟨r, named⟩ := named key cur held image
      rw [b.keyed key cur held] at named
      rw [change, oldestAfter, if_pos rfl,
        if_pos (by simp [ExtTreeMap.contains_eq_isSome_getElem?, held])]
      refine ⟨r, ?_⟩
      simp only [b.keyed key cur held]
      exact named.overlaid here change
    next apart =>
      refine imageNamed_left valid here (named k e stored) ?_ (b.keyed k e stored) ?_
      · rw [change]
        simpa [Change.touches] using apart
      · intro o shown
        rw [change] at shown
        rw [← show key = o from shown, was]
        rfl

/-- A key move names the key its row first left. -/
theorem AllNamed.move (change : c.change = .update key old row omitted) (moves : old ≠ key) :
    AllNamed h (next + 1) (oldestAfter b oldest next c.change) b' := by
  intro k e stored
  rw [change] at added
  obtain ⟨images, rfl⟩ := Buffer.of_add_move moves added
  rw [Buffer.entries_put] at stored
  split at stored
  · cases stored
    exact nofun
  next offOld =>
    rw [Buffer.entries_put, Buffer.movedImage_key] at stored
    split at stored
    next same =>
      subst same
      cases stored
      have image : ImageNamed h (next + 1) (oldestAfter b oldest next c.change key)
          (Buffer.movedImage (c.change.event relation delivered c.xid) old b.entries[key]?
            b.entries[old]?) :=
        imageNamed_moved valid here change moves fun e was => ⟨images e was, named old e was⟩
      rwa [change] at image ⊢
    next offKey =>
      refine named.marked valid here ?_ (fun o => ?_) ?_ stored
      · rw [change]
        simpa [Change.touches] using ⟨offKey, offOld⟩
      · rw [change]
        rfl
      · have away : old ≠ k := offOld
        cases b.entries[old]? <;> simp [Ne.symm away]

/-- **An event keeps every image named.** -/
theorem AllNamed.add :
    AllNamed h (next + 1) (oldestAfter b oldest next c.change) b' := by
  cases change : c.change with
  | insert key row => exact change ▸ named.insert valid here added change
  | delete key => exact change ▸ named.delete valid here added change
  | update key old row omitted =>
    by_cases inPlace : old = key
    · exact change ▸ named.update valid here added (inPlace ▸ change)
    · exact change ▸ named.move valid here added change inPlace

end Add

/-! ### Entries leave the buffer and come back -/

section PutBack

variable {h : History} {s s' : Keeping} {b : Buffer} {k : Key} {e : Entry}

/-- What is under a key after a list of writes was there before, or one of them put it there. -/
theorem of_entries_foldl {α : Type} {write : Buffer → α → Buffer} (entry : α → Entry)
    (writes : ∀ b x, (write b x).entries[k]?
      = if (entry x).key = k then some (entry x) else b.entries[k]?)
    {xs : List α} (stored : (xs.foldl write b).entries[k]? = some e) :
    b.entries[k]? = some e ∨ ∃ x ∈ xs, entry x = e ∧ e.key = k := by
  induction xs generalizing b with
  | nil => exact Or.inl stored
  | cons first xs ih =>
    rcases ih stored with kept | ⟨x, member, same⟩
    · rw [writes] at kept
      split at kept
      next same =>
        cases kept
        exact Or.inr ⟨first, List.mem_cons_self, rfl, same⟩
      · exact Or.inl kept
    · exact Or.inr ⟨x, List.mem_cons_of_mem _ member, same⟩

/-- **Every step of the stream owner keeps the images named.** -/
theorem Keeps.step {relation : List Name} {action : Keep} (keeps : Keeps h s) (valid : h.Valid)
    (steps : keepStep h relation s action = some s') : Keeps h s' := by
  cases action with
  | add delivered =>
    rw [keepStep] at steps
    cases here : h.log[s.next]? with
    | none => simp [here] at steps
    | some c =>
      simp only [here] at steps
      cases added : s.buffer.add (c.change.event relation delivered c.xid) with
      | error v => simp [added] at steps
      | ok b' =>
        simp only [added, Option.some.injEq] at steps
        subst steps
        exact ⟨keeps.buffered.add valid here added, nofun⟩
  | drain pos snap =>
    rw [keepStep, Option.some.injEq] at steps
    subst steps
    refine ⟨fun k e stored => ?_, fun e member => ?_⟩
    · refine keeps.buffered k e ?_
      rw [Buffer.entries_drain] at stored
      split at stored
      · cases stored
      · exact stored
    · rcases List.mem_append.mp member with before | taken
      · exact keeps.handed e before
      · exact keeps.buffered e.key e (Buffer.mem_drain.mp taken).1
  | hold held =>
    rw [keepStep] at steps
    split at steps
    next known =>
      cases holds : s.buffer.hold held with
      | error v => simp [holds] at steps
      | ok b' =>
        simp only [holds, Option.some.injEq] at steps
        subst steps
        refine ⟨fun k e stored => ?_, keeps.handed⟩
        rw [Buffer.hold_ok holds] at stored
        have writes : ∀ (b : Buffer) (image : HeldImage), (b.holdOne image).entries[k]?
            = if image.entry.key = k then some image.entry else b.entries[k]? :=
          fun b image => Buffer.entries_put
        rcases of_entries_foldl HeldImage.entry writes stored with kept | ⟨image, member, rfl, own⟩
        · exact keeps.buffered k e kept
        · have handed := List.all_eq_true.mp known image member
          rw [HeldImage.from, List.any_eq_true] at handed
          obtain ⟨e, inside, same⟩ := handed
          rw [decide_eq_true_eq] at same
          have named := keeps.handed e inside
          rw [same] at own ⊢
          rw [← own]
          exact named
    · cases steps
  | release passed =>
    rw [keepStep, Option.some.injEq] at steps
    subst steps
    refine ⟨fun k e stored => ?_, keeps.handed⟩
    rcases Buffer.entries_release_eq_some.mp stored with ⟨kept, -⟩ | ⟨p, before, -, -, was, rfl⟩
    · exact keeps.buffered k e kept
    · exact keeps.buffered k before was
  | requeue entries =>
    rw [keepStep] at steps
    split at steps
    next known =>
      cases requeues : s.buffer.requeue entries with
      | error v => simp [requeues] at steps
      | ok b' =>
        simp only [requeues, Option.some.injEq] at steps
        subst steps
        refine ⟨fun k e stored => ?_, keeps.handed⟩
        rw [Buffer.requeue_ok requeues] at stored
        rcases of_entries_foldl id (fun b e => Buffer.entries_put) stored with
          kept | ⟨e, member, rfl, own⟩
        · exact keeps.buffered k e kept
        · obtain ⟨e', handed, same⟩ :=
            List.any_eq_true.mp (List.all_eq_true.mp known e member)
          rw [decide_eq_true_eq] at same
          have named := keeps.handed e' handed
          rw [← own, same]
          exact named
    · cases steps

end PutBack

/-! ### Every state of a run -/

section Moves

variable {b b' : Buffer} {relation : List Name} {key old start k : Key} {row : Row}
  {omitted : List Name} {delivered : LSN} {xid : Xid} {e : Entry}

/-- **A row that moves takes its old key and its flag along**, also onto the key it started at. -/
theorem moved_inherits (moves : old ≠ key)
    (added : b.add ((Change.update key old row omitted).event relation delivered xid) = .ok b')
    (stored : b.entries[old]? = some e) (origin : e.oldKey = some start) :
    ∃ moved, b'.entries[key]? = some moved ∧ moved.oldKey = some start ∧
      moved.oldKeyReused = e.oldKeyReused := by
  obtain ⟨-, rfl⟩ := Buffer.of_add_move moves added
  refine ⟨Buffer.movedImage ((Change.update key old row omitted).event relation delivered xid) old
    b.entries[key]? b.entries[old]?, ?_, ?_⟩
  · rw [Buffer.entries_put, if_neg moves, Buffer.entries_put, if_pos Buffer.movedImage_key]
  · simp [Buffer.movedImage, stored, origin]

/-- **A row that moves onto a key flags every other image that left it.** -/
theorem moved_flags (moves : old ≠ key)
    (added : b.add ((Change.update key old row omitted).event relation delivered xid) = .ok b')
    (offOld : k ≠ old) (offKey : k ≠ key) (stored : b.entries[k]? = some e)
    (origin : e.oldKey = some key) :
    ∃ flagged, b'.entries[k]? = some flagged ∧ flagged.oldKeyReused = true := by
  obtain ⟨-, rfl⟩ := Buffer.of_add_move moves added
  have displaced : Buffer.displaces key (b.entries[old]?.map fun _ => old) e = true := by
    rw [Buffer.displaces, b.keyed k e stored]
    cases b.entries[old]? <;> simp [origin, offOld]
  refine ⟨Buffer.flagReused e, ?_, rfl⟩
  rw [Buffer.entries_put, if_neg (Ne.symm offOld), Buffer.entries_put, Buffer.movedImage_key,
    if_neg (Ne.symm offKey), Buffer.entries_markOldKeyReused, stored, Option.map_some,
    if_pos displaced]

end Moves

/-- **In every run of events, drains, holds, releases and requeues, an image's old key is the key
its row had before its first move among the events the image holds**, an image has one exactly when
there was such a move, and its flag is set exactly when another row has been shown under that key
since. A move takes both along, onto the old key itself too, and flags every other image that left
the key it lands on. -/
theorem old_key_names_origin (h : History) (valid : h.Valid) (relation : List Name) (first : ℕ)
    (s : Keeping)
    (reached : Reaches (keepStep h relation) anyStep { next := first, buffer := .new } s) :
    (∀ (key : Key) (e : Entry), s.buffer.entries[key]? = some e → e.kind = .image →
      ∃ r, h.who s.next key = some r ∧ s.oldest key < s.next ∧ h.Concerns (s.oldest key) r ∧
        (e.oldKey.isSome = true ↔ ∃ j o, s.oldest key ≤ j ∧ j < s.next ∧ h.Moves j r o) ∧
        (∀ old, e.oldKey = some old → ∃ m < s.next, h.FirstMove (s.oldest key) r old m ∧
          (e.oldKeyReused = true ↔ ∃ j, m < j ∧ j < s.next ∧ h.ShowsAnother j r old)) ∧
        (e.oldKey = none → e.oldKeyReused = false)) ∧
    ∀ (c : Committed) (key old : Key) (row : Row) (omitted : List Name) (delivered : LSN)
      (after : Buffer), h.log[s.next]? = some c → c.change = .update key old row omitted →
      old ≠ key → s.buffer.add (c.change.event relation delivered c.xid) = .ok after →
      (∀ (e : Entry) (start : Key), s.buffer.entries[old]? = some e → e.oldKey = some start →
        ∃ moved, after.entries[key]? = some moved ∧ moved.oldKey = some start ∧
          moved.oldKeyReused = e.oldKeyReused) ∧
      ∀ (k : Key) (e : Entry), k ≠ old → k ≠ key → s.buffer.entries[k]? = some e →
        e.oldKey = some key →
        ∃ flagged, after.entries[k]? = some flagged ∧ flagged.oldKeyReused = true := by
  have keeps : Keeps h s := by
    refine reached.invariant (P := Keeps h) ⟨fun k e stored => ?_, nofun⟩
      fun s a s' keeps _ taken => keeps.step valid taken
    rw [show (Buffer.new.entries)[k]? = none by simp [Buffer.new]] at stored
    cases stored
  constructor
  · intro key e stored image
    obtain ⟨r, named⟩ := keeps.buffered key e stored image
    have own := s.buffer.keyed key e stored
    refine ⟨r, own ▸ named.here, named.begun, named.concerns, ?_, named.moved,
      fun unmoved => (named.unmoved unmoved).1⟩
    constructor
    · intro moved
      obtain ⟨old, origin⟩ := Option.isSome_iff_exists.mp moved
      obtain ⟨m, before, firstMove, -⟩ := named.moved old origin
      exact ⟨m, old, firstMove.since, before, firstMove.moves⟩
    · rintro ⟨j, o, low, high, moves⟩
      by_contra unmoved
      rw [Bool.not_eq_true, Option.isSome_eq_false_iff, Option.isNone_iff_eq_none] at unmoved
      exact (named.unmoved unmoved).2 j o low high moves
  · intro c key old row omitted delivered after here change moves added
    rw [change] at added
    exact ⟨fun e start stored origin => moved_inherits moves added stored origin,
      fun k e offOld offKey stored origin => moved_flags moves added offOld offKey stored origin⟩

/-- The row under 1 moves away, a new row takes its key and moves on, and the first row returns. -/
def comesBack : History where
  base := (∅ : Table).insert 1 fun _ => some "first"
  log :=
    [⟨.update 2 1 (fun _ => some "first") ["t"], 7, 10⟩,
      ⟨.insert 1 (fun _ => some "second"), 8, 20⟩,
      ⟨.update 3 1 (fun _ => some "second") ["t"], 9, 30⟩,
      ⟨.update 1 2 (fun _ => some "first") ["t"], 10, 40⟩]

theorem valid_comesBack : comesBack.Valid :=
  (((History.Valid.concat (h := ⟨comesBack.base, []⟩) (fun _ _ found => (nomatch found))
    (by decide)).concat (by decide)).concat (by decide)).concat (by decide)

/-- The stream owner's steps on it, from an empty buffer. -/
def keepComesBack (actions : List Keep) : Option Keeping :=
  run (keepStep comesBack ["t"]) (fun _ _ => true) { next := 0, buffer := .new } actions

/-- The first two events, and a drain of what they left. -/
def drainTwo : List Keep :=
  [.add 5, .add 15,
    .drain { watermark := some Int64.maxValue, cut := some Int64.maxValue } .allVisible]

/-- The drained batch is put back, and the other two events come in. -/
def putBackAndReturn : List Keep :=
  drainTwo ++ [.requeue (((keepComesBack drainTwo).map Keeping.drained).getD []), .add 25, .add 35]

/-- The first row is back under the key it left, where another was shown meanwhile. -/
theorem comesBack_flags : (keepComesBack putBackAndReturn).bind (fun s =>
      s.buffer.entries[(1 : Key)]?.map fun e => (e.kind, e.oldKey, e.oldKeyReused))
    = some (.image, some 1, true) := by
  decide +kernel

/-- A row that is put back and returns under its old key. -/
theorem old_key_names_origin_returned :
    ∃ s e r m, keepComesBack putBackAndReturn = some s ∧
      s.buffer.entries[(1 : Key)]? = some e ∧ e.oldKey = some 1 ∧ e.oldKeyReused = true ∧
      comesBack.who s.next 1 = some r ∧ comesBack.FirstMove (s.oldest 1) r 1 m ∧
      ∃ j, m < j ∧ j < s.next ∧ comesBack.ShowsAnother j r 1 := by
  obtain ⟨s, runs, flags⟩ := Option.bind_eq_some_iff.mp comesBack_flags
  obtain ⟨e, stored, flags⟩ := Option.map_eq_some_iff.mp flags
  rw [Prod.mk.injEq, Prod.mk.injEq] at flags
  obtain ⟨image, origin, reused⟩ := flags
  have reached : Reaches (keepStep comesBack ["t"]) anyStep { next := 0, buffer := .new } s :=
    reaches_of_run (fun _ _ _ => trivial) .refl runs
  obtain ⟨r, here, -, -, -, moved, -⟩ :=
    (old_key_names_origin comesBack valid_comesBack ["t"] 0 s reached).1 1 e stored image
  obtain ⟨m, -, firstMove, since⟩ := moved 1 origin
  exact ⟨s, e, r, m, runs, stored, origin, reused, here, firstMove, since.mp reused⟩

end PgSprite.Applier
