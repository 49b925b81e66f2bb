/-
**The copier's ledger: which chunks are claimed, which have landed, and how far the copy is.**

`claim`, `settle` and `land` move the ledger; `position` is the reading the applier takes of it.
`Tiled` is what the ledger keeps true: claimed chunks are apart, lie above the watermark and at or
below the cut frontier. On it rest the three lemmas the rest of the development uses, which say
what each move does to the state of every key:

* `state_claim` — a claim puts exactly the chunk's keys in flight;
* `state_settle` — a settle lands exactly the chunk's keys it does not owe;
* `state_land` — a land lands exactly the chunk's keys;

and `state_of_watermark`: every key at or below the watermark is landed.
-/

import Mathlib.Data.List.AList
import Mathlib.Data.List.Pairwise
import PgSprite.Copier.Position

namespace PgSprite.Copier

open PgSprite.Decode

/-- What an in-flight chunk has committed so far and the keys it still owes. -/
structure PartialChunk where
  rows : Int64
  pending : List Key
  deriving DecidableEq

/-- The copier's bookkeeping of claimed and landed chunks. -/
structure Ledger where
  cut : Watermark
  watermark : Watermark
  /-- The lower bound of the chunk that will extend the watermark. -/
  next : Key
  complete : Bool
  inFlight : List Chunk
  /-- Chunks that committed above the watermark and wait for the chunks below them. -/
  landed : List Chunk
  /-- The in-flight chunks that have committed part of themselves. -/
  partials : AList (fun _ : Chunk => PartialChunk)
  rows : Int64

namespace Ledger

/-- Bookkeeping that resumes above `start`: every key at or below it counts as landed. -/
def newLedger (start : Watermark) : Ledger where
  cut := start
  watermark := start
  next := (startAfter start).1
  complete := (startAfter start).2
  inFlight := []
  landed := []
  partials := ∅
  rows := 0

/-- Whether `chunk` is the next consecutive chunk above the cut frontier. -/
def startsAtFrontier (l : Ledger) (chunk : Chunk) : Bool :=
  match l.cut with
  | none => chunk.lower == Int64.minValue
  | some top => if top = Int64.maxValue then false else chunk.lower == top + 1

/-- Registers a chunk a worker is about to read, or refuses one that is not at the frontier. -/
def claim (l : Ledger) (chunk : Chunk) : Option Ledger :=
  if l.startsAtFrontier chunk then
    some { l with inFlight := l.inFlight ++ [chunk], cut := some chunk.upper }
  else none

/-- The rows a chunk's earlier passes committed. -/
def committedRows (l : Ledger) (chunk : Chunk) : Int64 :=
  match l.partials.lookup chunk with
  | none => 0
  | some part => part.rows

/-- Records that a claimed chunk has committed all of itself but the rows under `pending`. -/
def settle (l : Ledger) (chunk : Chunk) (rows : Int64) (pending : List Key) : Option Ledger :=
  if l.inFlight.contains chunk && !pending.isEmpty then
    some { l with
      rows := l.rows + (rows - l.committedRows chunk)
      partials := l.partials.insert chunk ⟨rows, pending⟩ }
  else none

/-- Takes the landed chunk that starts just above the watermark into the watermark. -/
def advanceOne (l : Ledger) : Option Ledger :=
  if l.complete then none
  else
    match l.landed.find? (fun chunk => chunk.lower == l.next) with
    | none => none
    | some chunk =>
      let moved := { l with
        landed := l.landed.erase chunk
        watermark := some chunk.upper }
      some (if chunk.upper = Int64.maxValue then { moved with complete := true }
        else { moved with next := chunk.upper + 1 })

/-- Moves the watermark up over the contiguous landed chunks; each step takes one of them. -/
def advance : ℕ → Ledger → Ledger
  | 0, l => l
  | fuel + 1, l =>
    match l.advanceOne with
    | none => l
    | some moved => advance fuel moved

/-- Records that a claimed chunk committed all of its rows. -/
def land (l : Ledger) (chunk : Chunk) (rows : Int64) : Option Ledger :=
  if l.inFlight.contains chunk then
    let moved := { l with
      inFlight := l.inFlight.erase chunk
      rows := l.rows + (rows - l.committedRows chunk)
      partials := l.partials.erase chunk
      landed := l.landed ++ [chunk] }
    some (advance moved.landed.length moved)
  else none

/-- The reading of the ledger the applier takes. -/
def position (l : Ledger) : Position where
  watermark := l.watermark
  cut := l.cut
  inFlight := l.inFlight
  pending := l.inFlight.filterMap fun chunk =>
    (l.partials.lookup chunk).map fun part => ⟨chunk, part.pending⟩
  rowsInserted := l.rows

/-- The state the ledger gives a key. -/
def state (l : Ledger) (key : Key) : KeyState := l.position.classify key

/-! ### What the ledger keeps true -/

/-- Two ranges hold no common key. -/
def Apart (a b : Chunk) : Prop := a.upper < b.lower ∨ b.upper < a.lower

theorem Apart.symm {a b : Chunk} (apart : Apart a b) : Apart b a := Or.symm apart

instance : Std.Symm Apart := ⟨fun _ _ => Apart.symm⟩

theorem Apart.ne {a b : Chunk} (apart : Apart a b) : a ≠ b := by
  rintro rfl
  have ordered := a.ordered
  unfold Apart at apart
  grind

theorem Apart.not_covers {a b : Chunk} {key : Key} (apart : Apart a b)
    (first : a.covers key = true) : b.covers key = false := by
  rw [Chunk.covers_iff] at first
  rw [← Bool.not_eq_true, Chunk.covers_iff]
  unfold Apart at apart
  grind

/-- The claimed chunks are apart, above the watermark, and at or below the cut frontier. -/
structure Tiled (l : Ledger) : Prop where
  within : ∀ chunk ∈ l.inFlight ++ l.landed, l.cut.reaches chunk.upper = true
  above : ∀ chunk ∈ l.inFlight ++ l.landed, l.watermark.reaches chunk.lower = false
  fromNext : l.complete = false → ∀ chunk ∈ l.inFlight ++ l.landed, l.next ≤ chunk.lower
  apart : (l.inFlight ++ l.landed).Pairwise Apart
  frontier : ∀ key, l.watermark.reaches key = true → l.cut.reaches key = true
  follows : l.complete = false →
    l.watermark.complete = false ∧ l.next = (startAfter l.watermark).1
  owes : ∀ chunk part, l.partials.lookup chunk = some part → chunk ∈ l.inFlight

theorem reaches_of_le {w : Watermark} {key lower : Key} (reached : w.reaches key = true)
    (below : lower ≤ key) : w.reaches lower = true := by
  cases w with
  | none => cases reached
  | some value =>
    simp only [Watermark.reaches, decide_eq_true_eq] at reached ⊢
    grind

theorem succ_le_of_lt {a b : Key} (below : a < b) : a + 1 ≤ b := by
  have top := Int64.toInt_lt b
  have bottom := Int64.le_toInt a
  rw [Int64.lt_iff_toInt_lt] at below
  rw [Int64.le_iff_toInt_le, Int64.toInt_add]
  rw [Int.bmod_eq_of_le] <;> simp <;> omega

theorem lt_succ_of_ne_max {a : Key} (room : a ≠ Int64.maxValue) : a < a + 1 := by
  have top := Int64.toInt_lt a
  have bottom := Int64.le_toInt a
  have strict : a.toInt ≠ 2 ^ 63 - 1 := fun full =>
    room (Int64.toInt_inj.mp (full.trans (by decide)))
  rw [Int64.lt_iff_toInt_lt, Int64.toInt_add]
  rw [Int.bmod_eq_of_le] <;> simp <;> omega

theorem newLedger_tiled (start : Watermark) : (newLedger start).Tiled where
  within := by simp [newLedger]
  above := by simp [newLedger]
  fromNext := by simp [newLedger]
  apart := by simp [newLedger]
  frontier := fun _ reached => reached
  follows := by
    intro unfinished
    refine ⟨?_, rfl⟩
    cases start with
    | none => rfl
    | some value =>
      by_contra full
      rw [Bool.not_eq_false, newLedger] at full
      simp [newLedger, startAfter, full] at unfinished
  owes := by simp [newLedger]

section Claim

variable {l moved : Ledger} {chunk : Chunk}

theorem claim_eq (claimed : l.claim chunk = some moved) :
    l.startsAtFrontier chunk = true ∧
      moved = { l with inFlight := l.inFlight ++ [chunk], cut := some chunk.upper } := by
  rw [claim] at claimed
  split at claimed
  next atFrontier => exact ⟨atFrontier, (Option.some.inj claimed).symm⟩
  next => cases claimed

theorem startsAtFrontier_some {top : Key} (cut : l.cut = some top) :
    l.startsAtFrontier chunk = true ↔ top ≠ Int64.maxValue ∧ chunk.lower = top + 1 := by
  simp [startsAtFrontier, cut]

theorem lt_of_startsAtFrontier (atFrontier : l.startsAtFrontier chunk = true) {key : Key}
    (cut : l.cut.reaches key = true) : key < chunk.lower := by
  cases top : l.cut with
  | none =>
    rw [top] at cut
    cases cut
  | some value =>
    rw [top] at cut
    simp only [Watermark.reaches, decide_eq_true_eq] at cut
    obtain ⟨room, lower⟩ := (startsAtFrontier_some top).mp atFrontier
    have step := lt_succ_of_ne_max room
    grind

/-- A claim at the frontier adds exactly the keys of its chunk. -/
theorem reaches_claim (atFrontier : l.startsAtFrontier chunk = true) (key : Key) :
    Watermark.reaches (some chunk.upper) key
      = (l.cut.reaches key || chunk.covers key) := by
  rw [Bool.eq_iff_iff, Bool.or_eq_true, Chunk.covers_iff]
  simp only [Watermark.reaches, decide_eq_true_eq]
  have ordered := chunk.ordered
  constructor
  · intro below
    by_cases cut : l.cut.reaches key = true
    · exact Or.inl cut
    · refine Or.inr ⟨?_, below⟩
      cases top : l.cut with
      | none =>
        rw [startsAtFrontier, top] at atFrontier
        rw [beq_iff_eq.mp atFrontier]
        exact Int64.minValue_le key
      | some value =>
        rw [top] at cut
        simp only [Watermark.reaches, decide_eq_true_eq] at cut
        rw [((startsAtFrontier_some top).mp atFrontier).2]
        exact succ_le_of_lt (by grind)
  · rintro (cut | ⟨-, below⟩)
    · have step := lt_of_startsAtFrontier atFrontier cut
      grind
    · exact below

/-- A claim keeps the chunks apart and above the watermark. -/
theorem claim_tiled (tiled : l.Tiled) (claimed : l.claim chunk = some moved) : moved.Tiled := by
  obtain ⟨atFrontier, rfl⟩ := claim_eq claimed
  have split : ∀ {property : Chunk → Prop}, property chunk →
      (∀ c ∈ l.inFlight ++ l.landed, property c) →
      ∀ c ∈ l.inFlight ++ [chunk] ++ l.landed, property c := by
    intro property new old c member
    simp only [List.mem_append, List.mem_singleton] at member old
    rcases member with (inside | rfl) | inside
    · exact old c (Or.inl inside)
    · exact new
    · exact old c (Or.inr inside)
  have beyond : ∀ c ∈ l.inFlight ++ l.landed, c.upper < chunk.lower := fun c member =>
    lt_of_startsAtFrontier atFrontier (tiled.within c member)
  have unreached : l.watermark.reaches chunk.lower = false := by
    by_contra reached
    rw [Bool.not_eq_false] at reached
    exact absurd (lt_of_startsAtFrontier atFrontier (tiled.frontier _ reached)) (by grind)
  refine ⟨?_, split unreached tiled.above, ?_, ?_, ?_, tiled.follows, ?_⟩
  · refine split (by simp [Watermark.reaches]) fun c member => ?_
    rw [reaches_claim atFrontier, tiled.within c member, Bool.true_or]
  · intro unfinished
    refine split ?_ (tiled.fromNext unfinished)
    obtain ⟨short, next⟩ := tiled.follows unfinished
    cases mark : l.watermark with
    | none =>
      rw [next, mark]
      exact Int64.minValue_le _
    | some value =>
      rw [mark] at next short unreached
      rw [next, startAfter, short]
      refine succ_le_of_lt ?_
      simp only [Watermark.reaches, decide_eq_false_iff_not] at unreached
      grind
  · rw [List.append_assoc, List.singleton_append, List.pairwise_middle Apart.symm]
    exact List.pairwise_cons.mpr ⟨fun c member => Or.inr (beyond c member), tiled.apart⟩
  · intro key reached
    rw [reaches_claim atFrontier, tiled.frontier key reached, Bool.true_or]
  · exact fun c part held => List.mem_append_left _ (tiled.owes c part held)

end Claim

section Land

variable {l moved : Ledger} {chunk : Chunk} {rows : Int64} {pending : List Key}

/-- What a settle changes. -/
theorem settle_eq (settled : l.settle chunk rows pending = some moved) :
    chunk ∈ l.inFlight ∧ pending ≠ [] ∧
      moved = { l with
        rows := l.rows + (rows - l.committedRows chunk)
        partials := l.partials.insert chunk ⟨rows, pending⟩ } := by
  rw [settle] at settled
  split at settled
  next guard =>
    simp only [Bool.and_eq_true, List.contains_iff_mem, Bool.not_eq_true',
      List.isEmpty_eq_false_iff] at guard
    exact ⟨guard.1, guard.2, (Option.some.inj settled).symm⟩
  next => cases settled

theorem settle_tiled (tiled : l.Tiled) (settled : l.settle chunk rows pending = some moved) :
    moved.Tiled := by
  obtain ⟨member, -, rfl⟩ := settle_eq settled
  refine ⟨tiled.within, tiled.above, tiled.fromNext, tiled.apart, tiled.frontier,
    tiled.follows, fun c part held => ?_⟩
  by_cases same : c = chunk
  · exact same ▸ member
  · exact tiled.owes c part (by rwa [AList.lookup_insert_ne same] at held)

/-- The chunk a land moves from the in-flight list to the landed one, before the watermark
advances. -/
def landing (l : Ledger) (chunk : Chunk) (rows : Int64) : Ledger :=
  { l with
    inFlight := l.inFlight.erase chunk
    rows := l.rows + (rows - l.committedRows chunk)
    partials := l.partials.erase chunk
    landed := l.landed ++ [chunk] }

theorem land_eq (lands : l.land chunk rows = some moved) :
    chunk ∈ l.inFlight ∧
      moved = advance (l.landing chunk rows).landed.length (l.landing chunk rows) := by
  rw [land] at lands
  split at lands
  next guard => exact ⟨List.contains_iff_mem.mp guard, (Option.some.inj lands).symm⟩
  next => cases lands

/-- A landed chunk waits apart from the others. -/
theorem landing_tiled (tiled : l.Tiled) (member : chunk ∈ l.inFlight) :
    (l.landing chunk rows).Tiled := by
  have same : (l.inFlight.erase chunk ++ (l.landed ++ [chunk])).Perm
      (l.inFlight ++ l.landed) := by
    calc (l.inFlight.erase chunk ++ (l.landed ++ [chunk])).Perm
          (l.inFlight.erase chunk ++ (chunk :: l.landed)) :=
          List.Perm.append_left _ (List.perm_append_singleton chunk l.landed)
      _ |>.Perm (chunk :: (l.inFlight.erase chunk ++ l.landed)) := List.perm_middle
      _ |>.Perm (l.inFlight ++ l.landed) :=
          (List.perm_cons_erase member).symm.append_right l.landed
  exact
    { within := fun c inside => tiled.within c (same.mem_iff.mp inside)
      above := fun c inside => tiled.above c (same.mem_iff.mp inside)
      fromNext := fun unfinished c inside => tiled.fromNext unfinished c (same.mem_iff.mp inside)
      apart := (same.pairwise_iff Apart.symm).mpr tiled.apart
      frontier := tiled.frontier
      follows := tiled.follows
      owes := by
        intro c part held
        by_cases other : c = chunk
        · rw [other, landing, AList.lookup_erase] at held
          cases held
        · rw [landing, AList.lookup_erase_ne other] at held
          exact (List.mem_erase_of_ne other).mpr (tiled.owes c part held) }

/-- The watermark moves over the landed chunk that starts at its next key. -/
theorem advanceOne_eq (advanced : l.advanceOne = some moved) :
    l.complete = false ∧ ∃ chunk ∈ l.landed, chunk.lower = l.next ∧
      moved = (if chunk.upper = Int64.maxValue
        then { l with
          landed := l.landed.erase chunk, watermark := some chunk.upper, complete := true }
        else { l with
          landed := l.landed.erase chunk, watermark := some chunk.upper,
          next := chunk.upper + 1 }) := by
  rw [advanceOne] at advanced
  split at advanced
  · cases advanced
  next unfinished =>
    refine ⟨Bool.not_eq_true _ ▸ unfinished, ?_⟩
    cases found : l.landed.find? (fun chunk => chunk.lower == l.next) with
    | none => simp [found] at advanced
    | some chunk =>
      rw [found] at advanced
      refine ⟨chunk, List.mem_of_find?_eq_some found, ?_, (Option.some.inj advanced).symm⟩
      simpa using List.find?_some found

/-- Taking the next landed chunk into the watermark leaves every other chunk above it. -/
theorem advanceOne_tiled (tiled : l.Tiled) (advanced : l.advanceOne = some moved) :
    moved.Tiled := by
  obtain ⟨unfinished, chunk, member, lower, rfl⟩ := advanceOne_eq advanced
  have perm : (l.inFlight ++ l.landed).Perm (chunk :: (l.inFlight ++ l.landed.erase chunk)) :=
    ((List.perm_cons_erase member).append_left l.inFlight).trans List.perm_middle
  have apart := (perm.pairwise_iff Apart.symm).mp tiled.apart
  rw [List.pairwise_cons] at apart
  have inside : ∀ c ∈ l.inFlight ++ l.landed.erase chunk, c ∈ l.inFlight ++ l.landed :=
    fun c later => perm.mem_iff.mpr (List.mem_cons_of_mem _ later)
  have beyond : ∀ c ∈ l.inFlight ++ l.landed.erase chunk, chunk.upper < c.lower := by
    intro c later
    have start := tiled.fromNext unfinished c (inside c later)
    have own := c.ordered
    have separate := apart.1 c later
    unfold Apart at separate
    grind
  have unreached : ∀ c ∈ l.inFlight ++ l.landed.erase chunk,
      Watermark.reaches (some chunk.upper) c.lower = false := by
    intro c later
    have above := beyond c later
    simp only [Watermark.reaches, decide_eq_false_iff_not]
    grind
  have cut : ∀ key, Watermark.reaches (some chunk.upper) key = true →
      l.cut.reaches key = true := by
    intro key reached
    simp only [Watermark.reaches, decide_eq_true_eq] at reached
    exact reaches_of_le (tiled.within chunk (List.mem_append_right _ member)) reached
  split
  next full =>
    exact ⟨fun c later => tiled.within c (inside c later), unreached,
      fun unfinished => (Bool.noConfusion unfinished), apart.2, cut,
      fun unfinished => (Bool.noConfusion unfinished), tiled.owes⟩
  next room =>
    refine ⟨fun c later => tiled.within c (inside c later), unreached, ?_, apart.2, cut, ?_,
      tiled.owes⟩
    · exact fun _ c later => succ_le_of_lt (beyond c later)
    · intro _
      have short : Watermark.complete (some chunk.upper) = false := by
        simp [Watermark.complete, room]
      exact ⟨short, by simp [startAfter, short]⟩

theorem advance_tiled (fuel : ℕ) (tiled : l.Tiled) : (advance fuel l).Tiled := by
  induction fuel generalizing l with
  | zero => exact tiled
  | succ fuel ih =>
    rw [advance]
    cases advanced : l.advanceOne with
    | none => exact tiled
    | some moved => exact ih (advanceOne_tiled tiled advanced)

theorem land_tiled (tiled : l.Tiled) (lands : l.land chunk rows = some moved) : moved.Tiled := by
  obtain ⟨member, rfl⟩ := land_eq lands
  exact advance_tiled _ (landing_tiled tiled member)

end Land

/-! ### The state of each key -/

section State

variable {l moved : Ledger} {chunk : Chunk} {key : Key} {rows : Int64} {pending : List Key}

/-- The state of a key in a chunk, from what the chunk has committed. -/
def stateWithin (part : Option PartialChunk) (key : Key) : KeyState :=
  match part with
  | none => .inFlight
  | some part => if part.pending.contains key then .inFlight else .landed

/-- The position lists the pending keys of each partial chunk once. -/
theorem find_owed {partials : AList (fun _ : Chunk => PartialChunk)} {chunks : List Chunk}
    (member : chunk ∈ chunks) :
    (chunks.filterMap fun c => (partials.lookup c).map fun part =>
        (⟨c, part.pending⟩ : PendingKeys)).find? (fun owed => owed.chunk = chunk)
      = (partials.lookup chunk).map fun part => ⟨chunk, part.pending⟩ := by
  induction chunks with
  | nil => cases member
  | cons head chunks ih =>
    by_cases same : head = chunk
    · subst same
      cases held : partials.lookup head with
      | some part => simp [held]
      | none =>
        simp only [List.filterMap_cons, held, Option.map_none, List.find?_eq_none,
          List.mem_filterMap, Option.map_eq_some_iff]
        rintro owed ⟨other, -, part, known, rfl⟩
        simp only [decide_eq_true_eq]
        rintro rfl
        rw [held] at known
        cases known
    · have rest := ih ((List.mem_cons.mp member).resolve_left (Ne.symm same))
      cases held : partials.lookup head with
      | some part => simpa [held, same] using rest
      | none => simpa [held] using rest

theorem classifyWithin_position (member : chunk ∈ l.inFlight) :
    l.position.classifyWithin chunk key = stateWithin (l.partials.lookup chunk) key := by
  rw [Position.classifyWithin, position, find_owed member]
  cases l.partials.lookup chunk <;> rfl

/-- A key of a chunk in flight is in the state its partial says. -/
theorem state_of_covers (tiled : l.Tiled) (member : chunk ∈ l.inFlight)
    (covers : chunk.covers key = true) :
    l.state key = stateWithin (l.partials.lookup chunk) key := by
  have cut : l.cut.reaches key = true :=
    reaches_of_le (tiled.within chunk (List.mem_append_left _ member))
      (Chunk.covers_iff.mp covers).2
  have apart := (List.pairwise_append.mp tiled.apart).1
  have found : l.inFlight.find? (fun c => c.covers key) = some chunk := by
    cases first : l.inFlight.find? (fun c => c.covers key) with
    | none => exact absurd covers (List.find?_eq_none.mp first chunk member)
    | some other =>
      have inside := List.mem_of_find?_eq_some first
      have also := List.find?_some first
      by_contra different
      have separate := apart.forall inside member fun same => different (same ▸ rfl)
      rw [separate.not_covers also] at covers
      cases covers
  rw [state, Position.classify, show l.position.cut = l.cut from rfl, if_pos cut,
    show l.position.inFlight = l.inFlight from rfl, found]
  exact classifyWithin_position member

theorem state_of_not_covers (outside : ∀ chunk ∈ l.inFlight, chunk.covers key = false) :
    l.state key = if l.cut.reaches key then .landed else .uncut := by
  have absent : l.inFlight.find? (fun c => c.covers key) = none :=
    List.find?_eq_none.mpr fun c member => by simp [outside c member]
  rw [state, Position.classify, show l.position.cut = l.cut from rfl,
    show l.position.inFlight = l.inFlight from rfl, absent]

theorem state_newLedger (start : Watermark) :
    (newLedger start).state key = if start.reaches key then .landed else .uncut :=
  state_of_not_covers fun _ member => nomatch member

/-- A call leaves a key in its state where it moves none of the chunks that cover it. -/
theorem state_frame (tiled : l.Tiled) (tiledAfter : moved.Tiled)
    (same : ∀ c, c.covers key = true → (c ∈ moved.inFlight ↔ c ∈ l.inFlight) ∧
      moved.partials.lookup c = l.partials.lookup c)
    (cut : moved.cut.reaches key = l.cut.reaches key) : moved.state key = l.state key := by
  by_cases held : ∃ c ∈ l.inFlight, c.covers key = true
  · obtain ⟨c, member, covers⟩ := held
    obtain ⟨inFlight, owed⟩ := same c covers
    rw [state_of_covers tiledAfter (inFlight.mpr member) covers,
      state_of_covers tiled member covers, owed]
  · rw [state_of_not_covers, state_of_not_covers, cut]
    · exact fun c member => Bool.eq_false_iff.mpr fun covers => held ⟨c, member, covers⟩
    · exact fun c member => Bool.eq_false_iff.mpr fun covers =>
        held ⟨c, (same c covers).1.mp member, covers⟩

/-- **A claim puts exactly the chunk's keys in flight.** -/
theorem state_claim (tiled : l.Tiled) (claimed : l.claim chunk = some moved) :
    moved.state key = if chunk.covers key then .inFlight else l.state key := by
  have tiledAfter := claim_tiled tiled claimed
  obtain ⟨atFrontier, rfl⟩ := claim_eq claimed
  by_cases covers : chunk.covers key = true
  · have fresh : l.partials.lookup chunk = none := by
      cases held : l.partials.lookup chunk with
      | none => rfl
      | some part =>
        have cut := tiled.within chunk (List.mem_append_left _ (tiled.owes chunk part held))
        have beyond := lt_of_startsAtFrontier atFrontier cut
        have ordered := chunk.ordered
        grind
    rw [if_pos covers, state_of_covers tiledAfter (by simp) covers]
    exact congrArg (stateWithin · key) fresh
  · rw [if_neg covers]
    refine state_frame tiled tiledAfter (fun c within => ⟨?_, rfl⟩) ?_
    · have other : c ≠ chunk := fun same => covers (same ▸ within)
      simp [other]
    · simp only [reaches_claim atFrontier, covers, Bool.or_false]

/-- **A settle lands exactly the chunk's keys it does not owe.** -/
theorem state_settle (tiled : l.Tiled) (settled : l.settle chunk rows pending = some moved) :
    moved.state key =
      if chunk.covers key then (if pending.contains key then .inFlight else .landed)
      else l.state key := by
  have tiledAfter := settle_tiled tiled settled
  obtain ⟨member, -, rfl⟩ := settle_eq settled
  by_cases covers : chunk.covers key = true
  · rw [if_pos covers, state_of_covers tiledAfter member covers, AList.lookup_insert]
    rfl
  · rw [if_neg covers]
    exact state_frame tiled tiledAfter (fun c within =>
      ⟨.rfl, AList.lookup_insert_ne fun same => covers (same ▸ within)⟩) rfl

/-- Moving the watermark changes neither what is cut, in flight nor owed. -/
theorem advance_frame (fuel : ℕ) :
    (advance fuel l).cut = l.cut ∧ (advance fuel l).inFlight = l.inFlight ∧
      (advance fuel l).partials = l.partials := by
  induction fuel generalizing l with
  | zero => exact ⟨rfl, rfl, rfl⟩
  | succ fuel ih =>
    rw [advance]
    cases advanced : l.advanceOne with
    | none => exact ⟨rfl, rfl, rfl⟩
    | some moved =>
      obtain ⟨-, chunk, -, -, rfl⟩ := advanceOne_eq advanced
      obtain ⟨cut, inFlight, partials⟩ := ih (l := if chunk.upper = Int64.maxValue then _ else _)
      rw [cut, inFlight, partials]
      split <;> exact ⟨rfl, rfl, rfl⟩

/-- **A land lands exactly the chunk's keys.** -/
theorem state_land (tiled : l.Tiled) (lands : l.land chunk rows = some moved) :
    moved.state key = if chunk.covers key then .landed else l.state key := by
  have tiledAfter := land_tiled tiled lands
  obtain ⟨member, rfl⟩ := land_eq lands
  obtain ⟨cut, inFlight, partials⟩ :=
    advance_frame (l := l.landing chunk rows) (l.landing chunk rows).landed.length
  have apart := (List.pairwise_append.mp tiled.apart).1
  have distinct : l.inFlight.Nodup := apart.imp Apart.ne
  by_cases covers : chunk.covers key = true
  · rw [if_pos covers, state_of_not_covers, cut]
    · exact if_pos (reaches_of_le (tiled.within chunk (List.mem_append_left _ member))
        (Chunk.covers_iff.mp covers).2)
    · intro c later
      rw [inFlight] at later
      obtain ⟨other, inside⟩ := (distinct.mem_erase_iff).mp later
      exact (apart.forall member inside other.symm).not_covers covers
  · rw [if_neg covers]
    refine state_frame tiled tiledAfter (fun c within => ?_) (by rw [cut]; rfl)
    have other : c ≠ chunk := fun same => covers (same ▸ within)
    rw [inFlight, partials]
    exact ⟨List.mem_erase_of_ne other, AList.lookup_erase_ne other⟩

/-- **Every key at or below the watermark is landed.** -/
theorem state_of_watermark (tiled : l.Tiled) (reached : l.watermark.reaches key = true) :
    l.state key = .landed := by
  rw [state_of_not_covers, if_pos (tiled.frontier key reached)]
  intro c member
  by_contra within
  rw [Bool.not_eq_false, Chunk.covers_iff] at within
  have above := tiled.above c (List.mem_append_left _ member)
  rw [reaches_of_le reached within.1] at above
  cases above

end State

end Ledger

/-! ### The keys above a watermark -/

/-- The clear starts at the first key the watermark does not reach. -/
theorem unreached_iff {w : Watermark} {lower key : Key} (start : startAfter w = (lower, false)) :
    w.reaches key = false ↔ lower ≤ key := by
  cases w with
  | none =>
    cases start
    simp [Watermark.reaches, Int64.minValue_le]
  | some value =>
    rw [startAfter] at start
    split at start
    · cases start
    next short =>
      cases start
      have room : value ≠ Int64.maxValue := by
        rintro rfl
        exact short rfl
      have step := Ledger.lt_succ_of_ne_max room
      simp only [Watermark.reaches, decide_eq_false_iff_not]
      refine ⟨fun above => Ledger.succ_le_of_lt (by grind), fun above => by grind⟩

theorem reaches_of_complete {w : Watermark} {key : Key} (full : (startAfter w).2 = true) :
    w.reaches key = true := by
  cases w with
  | none => cases full
  | some value =>
    rw [startAfter] at full
    split at full
    next complete =>
      have top : value = Int64.maxValue := by simpa [Watermark.complete] using complete
      simp [Watermark.reaches, top, Int64.le_maxValue]
    next => cases full

end PgSprite.Copier
