/-
**Drain: which buffered entries are flushed, discarded or kept.**

Each key is judged by the copier's position and by whether its transaction is visible, and a moved
image waits together with the entry at its old key. `fate` is the judgement of one entry; the
lemmas below say what a drain does to every key from it:

* `entries_drain`, `pending_drain` — what stays buffered;
* `mem_drain` — what is flushed;
* `fate_flushed`, `fate_discarded` — which keys leave.
-/

import PgSprite.Applier.Buffer
import PgSprite.Applier.Snapshot
import PgSprite.Copier.Position

namespace PgSprite.Applier

open Std PgSprite.Decode PgSprite.Copier

/-- What one drain decided: the entries to flush, and how many it dropped or kept waiting. -/
structure Batch where
  entries : List Entry := []
  discarded : ℕ := 0
  deferred : ℕ := 0
  held : ℕ := 0
  invisible : ℕ := 0
  deriving DecidableEq, Repr

/-- The moved images that still carry a marker: they need a row read before anything is written. -/
def Batch.completeFirst (batch : Batch) : List Entry :=
  batch.entries.filter fun e => e.kind = .image && e.oldKey.isSome && hasMarker e.columns

/-- A moved image whose old key's entry is also buffered. -/
structure MovePair where
  image : Key
  old : Key
  deriving DecidableEq, Repr

/-- Whether a moved image and its old key's entry must both be deferred. -/
def waitsTogether (image old : KeyState) (imageInvisible : Bool) : Bool :=
  if image = .uncut || old = .uncut then false
  else decide (old = .inFlight) || imageInvisible

/-- What a drain takes each buffered key's state to be. -/
abbrev States := ExtTreeMap Key KeyState

/-- One pair of a deferral pass; the flag says whether the pass has changed a state. -/
def deferPair (invisible : Key → Bool) (acc : States × Bool) (p : MovePair) : States × Bool :=
  let image := acc.1.getD p.image .uncut
  let old := acc.1.getD p.old .uncut
  if waitsTogether image old (invisible p.image) &&
      (decide (image ≠ .inFlight) || decide (old ≠ .inFlight)) then
    ((acc.1.insert p.image .inFlight).insert p.old .inFlight, true)
  else acc

/-- Passes over the pairs until one changes nothing. -/
def deferPasses (invisible : Key → Bool) (pairs : List MovePair) : ℕ → States → States
  | 0, state => state
  | fuel + 1, state =>
    match pairs.foldl (deferPair invisible) (state, false) with
    | (state, true) => deferPasses invisible pairs fuel state
    | (state, false) => state

/-- What a drain does with one entry. -/
inductive Fate where
  | held
  | invisible
  | discarded
  | flushed
  | deferred
  deriving DecidableEq, Repr

/-- Whether the entry leaves the buffer. -/
def Fate.leaves : Fate → Bool
  | .discarded | .flushed => true
  | .held | .invisible | .deferred => false

namespace Buffer

/-- The pairs whose two halves are both buffered. -/
def movePairs (b : Buffer) : List MovePair :=
  b.entries.toList.filterMap fun (key, e) =>
    match e.oldKey with
    | none => none
    | some old => if b.entries.contains old then some ⟨key, old⟩ else none

/-- Whether the entry under `key` belongs to a transaction the snapshot does not show. -/
def invisible (b : Buffer) (snap : Snapshot) (key : Key) : Bool :=
  match b.entries[key]? with
  | none => false
  | some e => !snap.visible e.xid

/-- Each buffered key's own state: an invisible entry waits as an in-flight one does. -/
def ownStates (b : Buffer) (pos : Position) (snap : Snapshot) : States :=
  b.entries.map fun key e => if snap.visible e.xid then pos.classify key else .inFlight

/-- Each buffered key's state once the pairs that must wait together are deferred. Every pass that
goes on defers a pair for good, so one more pass than there are pairs is enough. -/
def deferPairs (b : Buffer) (pos : Position) (snap : Snapshot) : States :=
  deferPasses (b.invisible snap) b.movePairs (b.movePairs.length + 1) (b.ownStates pos snap)

/-- What a drain does with the entry under `key`. -/
def fate (b : Buffer) (pos : Position) (snap : Snapshot) (key : Key) : Fate :=
  if b.pending.contains key then .held
  else if b.invisible snap key then .invisible
  else
    match (b.deferPairs pos snap).getD key .uncut with
    | .uncut => .discarded
    | .landed => .flushed
    | .inFlight => .deferred

/-- Judges one entry, in the loop over the buffer. -/
def judge (fate : Key → Fate) (acc : Buffer × Batch) (entry : Key × Entry) : Buffer × Batch :=
  let (b, batch) := acc
  let (key, e) := entry
  match fate key with
  | .held => (b.trackOldest e.firstLSN, { batch with held := batch.held + 1 })
  | .invisible => (b.trackOldest e.firstLSN, { batch with invisible := batch.invisible + 1 })
  | .discarded => (b.remove key, { batch with discarded := batch.discarded + 1 })
  | .flushed => (b.remove key, { batch with entries := batch.entries ++ [e] })
  | .deferred => (b.trackOldest e.firstLSN, { batch with deferred := batch.deferred + 1 })

/-- Decides every buffered entry against one reading of the copier's position and one snapshot. -/
def drain (b : Buffer) (pos : Position) (snap : Snapshot) : Buffer × Batch :=
  let (kept, batch) :=
    b.entries.toList.foldl (judge (b.fate pos snap)) ({ b with hasOldest := false }, {})
  (kept, { batch with entries := batch.entries.insertionSort fun a b => a.key ≤ b.key })

/-! ### The pair deferral -/

section Deferral

variable {invisible : Key → Bool} {pairs : List MovePair} {own state : States} {key : Key}

/-- A deferral only ever moves a key that is not uncut to in flight. -/
def DefersFrom (own state : States) : Prop :=
  ∀ key, state.getD key .uncut = own.getD key .uncut ∨
    (state.getD key .uncut = .inFlight ∧ own.getD key .uncut ≠ .uncut)

/-- A step of the fixpoint defers only a pair one of whose entries waits already. -/
theorem deferPair_defers (defers : DefersFrom own state) (changed : Bool) (p : MovePair) :
    DefersFrom own (deferPair invisible (state, changed) p).1 := by
  rw [deferPair]
  split
  next waits =>
    -- neither half is uncut where the two wait together
    have cut : state.getD p.image .uncut ≠ .uncut ∧ state.getD p.old .uncut ≠ .uncut := by
      simp only [waitsTogether, Bool.and_eq_true] at waits
      by_contra uncut
      have either : (decide (state.getD p.image .uncut = .uncut) ||
          decide (state.getD p.old .uncut = .uncut)) = true := by
        simp only [Bool.or_eq_true, decide_eq_true_eq]
        tauto
      rw [if_pos either] at waits
      exact Bool.false_ne_true waits.1
    have origin : ∀ k, state.getD k .uncut ≠ .uncut → own.getD k .uncut ≠ .uncut := by
      intro k here
      rcases defers k with same | ⟨-, cut⟩
      · exact same ▸ here
      · exact cut
    intro k
    simp only [ExtTreeMap.getD_insert, LawfulEqCmp.compare_eq_iff_eq]
    by_cases old : p.old = k
    · exact Or.inr ⟨if_pos old, origin k (old ▸ cut.2)⟩
    · rw [if_neg old]
      by_cases image : p.image = k
      · exact Or.inr ⟨if_pos image, origin k (image ▸ cut.1)⟩
      · rw [if_neg image]
        exact defers k
  next => exact defers

theorem deferPass_defers (defers : DefersFrom own state) (changed : Bool) :
    DefersFrom own (pairs.foldl (deferPair invisible) (state, changed)).1 := by
  induction pairs generalizing state changed with
  | nil => exact defers
  | cons p pairs ih => exact ih (deferPair_defers defers changed p) _

theorem deferPasses_defers (fuel : ℕ) (defers : DefersFrom own state) :
    DefersFrom own (deferPasses invisible pairs fuel state) := by
  induction fuel generalizing state with
  | zero => exact defers
  | succ fuel ih =>
    have pass : DefersFrom own (pairs.foldl (deferPair invisible) (state, false)).1 :=
      deferPass_defers defers false
    rw [deferPasses]
    split
    next after changed =>
      rw [changed] at pass
      exact ih pass
    next after unchanged =>
      rw [unchanged] at pass
      exact pass

theorem deferPass_of_landed (landed : ∀ p ∈ pairs, state.getD p.old .uncut = .landed)
    (visible : ∀ key, invisible key = false) (changed : Bool) :
    pairs.foldl (deferPair invisible) (state, changed) = (state, changed) := by
  induction pairs with
  | nil => rfl
  | cons p pairs ih =>
    have here := landed p List.mem_cons_self
    have stays : deferPair invisible (state, changed) p = (state, changed) := by
      simp [deferPair, waitsTogether, here, visible]
    rw [List.foldl_cons, stays]
    exact ih fun p member => landed p (List.mem_cons_of_mem _ member)

end Deferral

/-! ### What a drain does to each key -/

section Drain

variable {b : Buffer} {pos : Position} {snap : Snapshot} {key : Key} {e : Entry}

theorem ownStates_getD (stored : b.entries[key]? = some e) :
    (b.ownStates pos snap).getD key .uncut
      = if snap.visible e.xid then pos.classify key else .inFlight := by
  rw [ExtTreeMap.getD_eq_getD_getElem?, ownStates, ExtTreeMap.getElem?_map, stored]
  rfl

theorem deferPairs_defers (b : Buffer) (pos : Position) (snap : Snapshot) :
    DefersFrom (b.ownStates pos snap) (b.deferPairs pos snap) :=
  deferPasses_defers _ fun _ => Or.inl rfl

theorem invisible_eq (stored : b.entries[key]? = some e) :
    b.invisible snap key = !snap.visible e.xid := by
  rw [invisible, stored]

/-- **Only a landed, visible key with no completion pending is flushed.** -/
theorem fate_flushed (stored : b.entries[key]? = some e)
    (flushed : b.fate pos snap key = .flushed) :
    b.pending[key]? = none ∧ snap.visible e.xid = true ∧ pos.classify key = .landed := by
  rw [fate, invisible_eq stored] at flushed
  split at flushed
  · cases flushed
  next free =>
    split at flushed
    · cases flushed
    next shown =>
      simp only [Bool.not_eq_true', Bool.not_eq_false] at shown
      refine ⟨by simpa using free, shown, ?_⟩
      rcases b.deferPairs_defers pos snap key with same | ⟨waits, -⟩
      · rw [same, ownStates_getD stored, if_pos shown] at flushed
        cases state : pos.classify key <;> simp_all
      · rw [waits] at flushed
        cases flushed

/-- **Only an uncut, visible key with no completion pending is discarded.** -/
theorem fate_discarded (stored : b.entries[key]? = some e)
    (discarded : b.fate pos snap key = .discarded) :
    b.pending[key]? = none ∧ snap.visible e.xid = true ∧ pos.classify key = .uncut := by
  rw [fate, invisible_eq stored] at discarded
  split at discarded
  · cases discarded
  next free =>
    split at discarded
    · cases discarded
    next shown =>
      simp only [Bool.not_eq_true', Bool.not_eq_false] at shown
      refine ⟨by simpa using free, shown, ?_⟩
      rcases b.deferPairs_defers pos snap key with same | ⟨waits, -⟩
      · rw [same, ownStates_getD stored, if_pos shown] at discarded
        cases state : pos.classify key <;> simp_all
      · rw [waits] at discarded
        cases discarded

/-- Against an idle, complete copy and a snapshot that shows everything, an entry is flushed
unless a completion is pending for it. -/
theorem fate_of_landed (stored : b.entries[key]? = some e)
    (landed : ∀ k, pos.classify k = .landed) (visible : ∀ xid, snap.visible xid = true) :
    b.fate pos snap key = if b.pending.contains key then .held else .flushed := by
  have nothing : ∀ k, b.invisible snap k = false := by
    intro k
    rw [invisible]
    split <;> simp [visible]
  have state : b.deferPairs pos snap = b.ownStates pos snap := by
    rw [deferPairs, deferPasses, deferPass_of_landed _ nothing false]
    intro p member
    obtain ⟨⟨k, moved⟩, -, paired⟩ := List.mem_filterMap.mp member
    cases old : moved.oldKey with
    | none => simp [old] at paired
    | some origin =>
      simp only [old] at paired
      split at paired
      next held =>
        cases paired
        obtain ⟨entry, there⟩ := Option.isSome_iff_exists.mp
          ((ExtTreeMap.contains_eq_isSome_getElem? (t := b.entries)).symm.trans held)
        rw [ownStates_getD there, if_pos (visible _), landed]
      next => cases paired
  rw [fate, nothing, state, ownStates_getD stored, if_pos (visible _), landed]
  simp

/-! ### The loop over the buffer -/

variable {fate : Key → Fate} {todo : List (Key × Entry)} {acc : Buffer × Batch}

/-- The loop takes out the listed keys that leave, with what is pending of them, and no other. -/
theorem lookup_judge_foldl :
    (todo.foldl (judge fate) acc).1.entries[key]?
        = (if (todo.any fun entry => entry.1 = key) && (fate key).leaves then none
          else acc.1.entries[key]?) ∧
      (todo.foldl (judge fate) acc).1.pending[key]?
        = if (todo.any fun entry => entry.1 = key) && (fate key).leaves then none
          else acc.1.pending[key]? := by
  induction todo generalizing acc with
  | nil => simp
  | cons entry todo ih =>
    obtain ⟨k, e⟩ := entry
    obtain ⟨b, batch⟩ := acc
    rw [List.foldl_cons, ih.1, ih.2, judge]
    by_cases same : key = k
    · subst same
      cases fate key <;> simp [Fate.leaves, -List.any_eq_true]
    · cases fate k <;> simp [Ne.symm same, -List.any_eq_true]

theorem flushed_judge_foldl :
    (todo.foldl (judge fate) acc).2.entries
      = acc.2.entries ++ (todo.filter fun entry => fate entry.1 = .flushed).map Prod.snd := by
  induction todo generalizing acc with
  | nil => simp
  | cons entry todo ih =>
    obtain ⟨k, e⟩ := entry
    obtain ⟨b, batch⟩ := acc
    rw [List.foldl_cons, ih, judge]
    cases decided : fate k <;> simp [decided]

theorem any_toList :
    (b.entries.toList.any fun entry => entry.1 = key) = b.entries[key]?.isSome := by
  rw [Bool.eq_iff_iff, List.any_eq_true, Option.isSome_iff_exists]
  constructor
  · rintro ⟨⟨k, e⟩, member, same⟩
    obtain rfl : k = key := by simpa using same
    exact ⟨e, ExtTreeMap.mem_toList_iff_getElem?_eq_some.mp member⟩
  · rintro ⟨e, stored⟩
    exact ⟨(key, e), ExtTreeMap.mem_toList_iff_getElem?_eq_some.mpr stored, by simp⟩

/-- **A drain keeps exactly the entries whose fate is to stay.** -/
theorem entries_drain :
    (b.drain pos snap).1.entries[key]?
      = if (b.fate pos snap key).leaves then none else b.entries[key]? := by
  simp only [drain, lookup_judge_foldl.1, any_toList]
  cases stored : b.entries[key]? <;> simp

theorem pending_drain : (b.drain pos snap).1.pending[key]? = b.pending[key]? := by
  simp only [drain, lookup_judge_foldl.2, any_toList, Bool.and_eq_true]
  split
  next leaves =>
    by_contra kept
    have held : b.pending.contains key = true := by
      rw [ExtTreeMap.contains_eq_isSome_getElem?]
      exact Option.isSome_iff_ne_none.mpr (Ne.symm kept)
    rw [Buffer.fate, if_pos held] at leaves
    exact Bool.false_ne_true leaves.2
  next => rfl

/-- **A drain flushes exactly the entries whose fate it is.** -/
theorem mem_drain :
    e ∈ (b.drain pos snap).2.entries ↔
      b.entries[e.key]? = some e ∧ b.fate pos snap e.key = .flushed := by
  simp only [drain, flushed_judge_foldl, List.mem_insertionSort, List.nil_append, List.mem_map,
    List.mem_filter, decide_eq_true_eq]
  constructor
  · rintro ⟨⟨k, stored⟩, ⟨member, flushed⟩, rfl⟩
    rw [ExtTreeMap.mem_toList_iff_getElem?_eq_some] at member
    rw [b.keyed k stored member]
    exact ⟨member, flushed⟩
  · rintro ⟨stored, flushed⟩
    exact ⟨(e.key, e), ⟨ExtTreeMap.mem_toList_iff_getElem?_eq_some.mpr stored, flushed⟩, rfl⟩

/-- A drained batch has one entry of each key. -/
theorem drain_distinct : ((b.drain pos snap).2.entries.map Entry.key).Nodup := by
  have keys : b.entries.toList.map (fun entry => entry.2.key) = b.entries.keys := by
    rw [← ExtTreeMap.map_fst_toList_eq_keys]
    refine List.map_congr_left fun entry member => ?_
    exact b.keyed _ _ (ExtTreeMap.mem_toList_iff_getElem?_eq_some.mp member)
  have distinct : (b.entries.toList.map fun entry => entry.2.key).Nodup := by
    rw [keys]
    exact ExtTreeMap.nodup_keys
  simp only [drain, flushed_judge_foldl, List.nil_append]
  refine ((List.perm_insertionSort _ _).map _).nodup_iff.mpr ?_
  rw [List.map_map]
  exact (List.filter_sublist.map _).nodup distinct

end Drain

end Buffer

end PgSprite.Applier
