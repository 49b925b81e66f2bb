/-
**The pair deferral as a least fixpoint, in whatever order the maps are read.**

A drain collects the moved pairs and judges the entries in the order the buffer's map gives them,
which no two runs share. `drainIn` is the drain for one such pair of orders; its deferral loop has
ended only once a pass changed nothing.

* `Joined` — a set of keys holds every waiting key and is closed under the pairs that wait together;
* `deferLoop_ends` — one more pass than there are pairs is enough;
* `deferLoop_least` — the keys in flight at its end are the least joined set;
* **`drain_partitions`** — so every order drains the buffer alike, and each entry has one fate.
-/

import PgSprite.Applier.Drain

namespace PgSprite.Applier

open Std PgSprite.Decode PgSprite.Copier

/-- The deferral passes, ended by one that changes nothing; none where there were not enough. -/
def deferLoop (invisible : Key → Bool) (pairs : List MovePair) : ℕ → States → Option States
  | 0, _ => none
  | fuel + 1, state =>
    match pairs.foldl (deferPair invisible) (state, false) with
    | (state, true) => deferLoop invisible pairs fuel state
    | (state, false) => some state

/-- The key waits in this state. -/
def Waiting (state : States) (key : Key) : Prop := state.getD key .uncut = .inFlight

/-- The pair is to be deferred and not yet in flight on both sides. -/
def Owes (invisible : Key → Bool) (state : States) (p : MovePair) : Bool :=
  waitsTogether (state.getD p.image .uncut) (state.getD p.old .uncut) (invisible p.image) &&
    (decide (state.getD p.image .uncut ≠ .inFlight) || decide (state.getD p.old .uncut ≠ .inFlight))

/-- One half of the pair is not in flight. -/
def apart (state : States) (p : MovePair) : Bool :=
  decide (state.getD p.image .uncut ≠ .inFlight) || decide (state.getD p.old .uncut ≠ .inFlight)

section Passes

variable {invisible : Key → Bool} {pairs todo : List MovePair} {own state after : States}
  {key : Key} {p : MovePair} {flag : Bool}

theorem deferPair_of_owes (owes : Owes invisible state p = true) :
    deferPair invisible (state, flag) p
      = ((state.insert p.image .inFlight).insert p.old .inFlight, true) :=
  if_pos owes

theorem deferPair_of_not_owes (paid : Owes invisible state p = false) :
    deferPair invisible (state, flag) p = (state, flag) :=
  if_neg (by rw [← Bool.not_eq_true] at paid; exact paid)

theorem waiting_deferred :
    Waiting ((state.insert p.image .inFlight).insert p.old .inFlight) key ↔
      key = p.image ∨ key = p.old ∨ Waiting state key := by
  unfold Waiting
  rw [ExtTreeMap.getD_insert, ExtTreeMap.getD_insert]
  simp only [LawfulEqCmp.compare_eq_iff_eq]
  by_cases old : p.old = key
  · simp [old]
  · by_cases image : p.image = key
    · simp [old, image]
    · simp [old, image, Ne.symm old, Ne.symm image]

/-- A pass takes no key out of flight, and where it reports a change it has joined a pair that was
apart. -/
theorem foldl_deferPair (run : todo.foldl (deferPair invisible) (state, flag) = (after, true)) :
    (∀ key, Waiting state key → Waiting after key) ∧
      (flag = false → ∃ p ∈ todo, apart state p = true ∧ apart after p = false) := by
  induction todo generalizing state flag with
  | nil =>
    cases run
    exact ⟨fun _ waits => waits, nofun⟩
  | cons p todo ih =>
    rw [List.foldl_cons] at run
    cases owes : Owes invisible state p with
    | false =>
      rw [deferPair_of_not_owes owes] at run
      obtain ⟨kept, joins⟩ := ih run
      refine ⟨kept, fun unchanged => ?_⟩
      obtain ⟨other, member, joined⟩ := joins unchanged
      exact ⟨other, List.mem_cons_of_mem _ member, joined⟩
    | true =>
      rw [deferPair_of_owes owes] at run
      obtain ⟨kept, -⟩ := ih run
      refine ⟨fun key waits => kept key (waiting_deferred.mpr (.inr (.inr waits))), fun _ => ?_⟩
      have image : Waiting after p.image := kept _ (waiting_deferred.mpr (.inl rfl))
      have old : Waiting after p.old := kept _ (waiting_deferred.mpr (.inr (.inl rfl)))
      unfold Waiting at image old
      rw [Owes, Bool.and_eq_true] at owes
      exact ⟨p, List.mem_cons_self, owes.2, by simp [apart, image, old]⟩

/-- A pass that changes nothing found no pair that owes a deferral. -/
theorem foldl_deferPair_unchanged
    (run : todo.foldl (deferPair invisible) (state, flag) = (after, false)) :
    after = state ∧ ∀ p ∈ todo, Owes invisible state p = false := by
  induction todo generalizing state flag with
  | nil =>
    cases run
    exact ⟨rfl, nofun⟩
  | cons p todo ih =>
    rw [List.foldl_cons] at run
    cases owes : Owes invisible state p with
    | false =>
      rw [deferPair_of_not_owes owes] at run
      obtain ⟨same, paid⟩ := ih run
      exact ⟨same, List.forall_mem_cons.mpr ⟨owes, paid⟩⟩
    | true =>
      rw [deferPair_of_owes owes] at run
      -- the flag stays set once it is
      have set : ∀ (rest : List MovePair) (s : States),
          (rest.foldl (deferPair invisible) (s, true)).2 = true := by
        intro rest
        induction rest with
        | nil => exact fun _ => rfl
        | cons q rest ih =>
          intro s
          rw [List.foldl_cons]
          cases owed : Owes invisible s q with
          | false => rw [deferPair_of_not_owes owed]; exact ih s
          | true => rw [deferPair_of_owes owed]; exact ih _
      have contradiction := set todo ((state.insert p.image .inFlight).insert p.old .inFlight)
      rw [run] at contradiction
      cases contradiction

/-- A pass that defers a pair leaves fewer pairs apart. -/
theorem countP_apart_lt (kept : ∀ key, Waiting state key → Waiting after key)
    (joins : ∃ p ∈ todo, apart state p = true ∧ apart after p = false) :
    todo.countP (apart after) < todo.countP (apart state) := by
  have fewer : ∀ p, apart after p = true → apart state p = true := by
    intro p still
    by_contra joined
    simp only [apart, Bool.not_eq_true, Bool.or_eq_false_iff, decide_eq_false_iff_not, ne_eq,
      not_not] at joined
    have image := kept _ joined.1
    have old := kept _ joined.2
    unfold Waiting at image old
    simp [apart, image, old] at still
  induction todo with
  | nil => obtain ⟨p, member, -⟩ := joins; cases member
  | cons p todo ih =>
    have rest : todo.countP (apart after) ≤ todo.countP (apart state) :=
      List.countP_mono_left fun p _ => fewer p
    obtain ⟨q, member, before, joined⟩ := joins
    rcases List.mem_cons.mp member with rfl | later
    · rw [List.countP_cons_of_pos before, List.countP_cons_of_neg (by simp [joined])]
      omega
    · have strict := ih ⟨q, later, before, joined⟩
      rw [List.countP_cons, List.countP_cons]
      cases still : apart after p with
      | false => simp only [Bool.false_eq_true, if_false]; omega
      | true => simp only [fewer p still, if_true]; omega

/-- **One more pass than there are pairs apart is enough**, and after the last one no pair is owed
anything. -/
theorem deferLoop_ends {fuel : ℕ} (enough : pairs.countP (apart state) < fuel) :
    ∃ final, deferLoop invisible pairs fuel state = some final ∧
      ∀ p ∈ pairs, Owes invisible final p = false := by
  induction fuel generalizing state with
  | zero => omega
  | succ fuel ih =>
    rw [deferLoop]
    split
    next after changed =>
      obtain ⟨kept, joins⟩ := foldl_deferPair changed
      have fewer := countP_apart_lt kept (joins rfl)
      exact ih (by omega)
    next after unchanged =>
      obtain ⟨rfl, paid⟩ := foldl_deferPair_unchanged unchanged
      exact ⟨after, rfl, paid⟩

theorem deferPasses_of_deferLoop {fuel : ℕ} {final : States}
    (ends : deferLoop invisible pairs fuel state = some final) :
    deferPasses invisible pairs fuel state = final := by
  induction fuel generalizing state with
  | zero => cases ends
  | succ fuel ih =>
    rw [deferLoop] at ends
    rw [deferPasses]
    generalize pairs.foldl (deferPair invisible) (state, false) = pass at ends ⊢
    obtain ⟨after, changed⟩ := pass
    cases changed with
    | true => exact ih ends
    | false => exact Option.some.inj ends

/-- What every deferral keeps, a pass keeps. -/
theorem foldl_deferPair_invariant {P : States → Prop} (flag : Bool)
    (kept : ∀ s, ∀ p ∈ pairs, P s → Owes invisible s p = true →
      P ((s.insert p.image .inFlight).insert p.old .inFlight))
    (sub : ∀ p ∈ todo, p ∈ pairs) (holds : P state) :
    P (todo.foldl (deferPair invisible) (state, flag)).1 := by
  induction todo generalizing state flag with
  | nil => exact holds
  | cons p todo ih =>
    rw [List.foldl_cons]
    have rest : ∀ q ∈ todo, q ∈ pairs := fun q member => sub q (List.mem_cons_of_mem _ member)
    cases owes : Owes invisible state p with
    | false =>
      rw [deferPair_of_not_owes owes]
      exact ih flag rest holds
    | true =>
      rw [deferPair_of_owes owes]
      exact ih true rest (kept state p (sub p List.mem_cons_self) holds owes)

/-- What every deferral keeps, the whole fixpoint keeps. -/
theorem deferLoop_invariant {P : States → Prop} {fuel : ℕ} {final : States}
    (kept : ∀ s, ∀ p ∈ pairs, P s → Owes invisible s p = true →
      P ((s.insert p.image .inFlight).insert p.old .inFlight))
    (holds : P state) (ends : deferLoop invisible pairs fuel state = some final) : P final := by
  induction fuel generalizing state with
  | zero => cases ends
  | succ fuel ih =>
    have pass := foldl_deferPair_invariant false kept (fun _ member => member) holds
    rw [deferLoop] at ends
    split at ends
    next after changed =>
      rw [changed] at pass
      exact ih pass ends
    next after unchanged =>
      rw [unchanged] at pass
      exact Option.some.inj ends ▸ pass

end Passes

/-! ### The least set of waiting keys -/

namespace Buffer

/-- The entry under `key` is judged uncut: an invisible entry waits as an in-flight one does. -/
def Uncut (b : Buffer) (pos : Position) (snap : Snapshot) (key : Key) : Prop :=
  b.invisible snap key = false ∧ pos.classify key = .uncut

/-- The image under `image` left `old`, and entries for both are buffered. -/
def Pairs (b : Buffer) (image old : Key) : Prop :=
  (∃ e : Entry, b.entries[image]? = some e ∧ e.oldKey = some old) ∧
    ∃ origin : Entry, b.entries[old]? = some origin

/-- A set of keys that holds every buffered key that is in flight or invisible, and both halves of a
pair, neither of them uncut, whose old key it holds or whose image is invisible. -/
structure Joined (b : Buffer) (pos : Position) (snap : Snapshot) (set : Key → Prop) : Prop where
  inFlight : ∀ (key : Key) (e : Entry), b.entries[key]? = some e → pos.classify key = .inFlight →
    set key
  invisible : ∀ key, b.invisible snap key = true → set key
  together : ∀ image old, b.Pairs image old → ¬ b.Uncut pos snap image → ¬ b.Uncut pos snap old →
    (set old ∨ b.invisible snap image = true) → set image ∧ set old

/-- What a drain does with the entry under `key`, in a state of the keys. -/
def fateIn (b : Buffer) (snap : Snapshot) (state : States) (key : Key) : Fate :=
  if b.pending.contains key then .held
  else if b.invisible snap key then .invisible
  else
    match state.getD key .uncut with
    | .uncut => .discarded
    | .landed => .flushed
    | .inFlight => .deferred

/-- A drain that finds the pairs and the entries in the given orders. -/
def drainIn (b : Buffer) (pos : Position) (snap : Snapshot) (pairs : List MovePair)
    (order : List (Key × Entry)) : Option (States × Buffer × Batch) :=
  (deferLoop (b.invisible snap) pairs (pairs.length + 1) (b.ownStates pos snap)).map fun state =>
    let judged := order.foldl (judge (b.fateIn snap state)) ({ b with hasOldest := false }, {})
    (state, judged.1,
      { judged.2 with entries := judged.2.entries.insertionSort fun a b => a.key ≤ b.key })

section Least

variable {b : Buffer} {pos : Position} {snap : Snapshot} {pairs : List MovePair} {key : Key}
  {final : States} {p : MovePair}

/-- The pairs of the drain are the moved images with an entry under their old key. -/
theorem mem_movePairs : p ∈ b.movePairs ↔ b.Pairs p.image p.old := by
  rw [movePairs, List.mem_filterMap]
  constructor
  · rintro ⟨⟨k, e⟩, member, paired⟩
    rw [ExtTreeMap.mem_toList_iff_getElem?_eq_some] at member
    cases left : e.oldKey with
    | none => simp [left] at paired
    | some old =>
      simp only [left] at paired
      split at paired
      next there =>
        cases paired
        exact ⟨⟨e, member, left⟩, Option.isSome_iff_exists.mp
          ((ExtTreeMap.contains_eq_isSome_getElem? (t := b.entries)).symm.trans there)⟩
      next => cases paired
  · rintro ⟨⟨e, stored, left⟩, origin, there⟩
    refine ⟨(p.image, e), ExtTreeMap.mem_toList_iff_getElem?_eq_some.mpr stored, ?_⟩
    simp only [left]
    rw [if_pos (by rw [ExtTreeMap.contains_eq_isSome_getElem?, there]; rfl)]

theorem ownStates_uncut {e : Entry} (stored : b.entries[key]? = some e) :
    (b.ownStates pos snap).getD key .uncut = .uncut ↔ b.Uncut pos snap key := by
  rw [ownStates_getD stored, Uncut, invisible_eq stored]
  cases snap.visible e.xid <;> simp

/-- A key waits at first where it is in flight, or not yet visible. -/
theorem waiting_ownStates :
    Waiting (b.ownStates pos snap) key ↔
      (∃ e : Entry, b.entries[key]? = some e ∧ pos.classify key = .inFlight) ∨
        b.invisible snap key = true := by
  unfold Waiting
  cases stored : b.entries[key]? with
  | none =>
    rw [ExtTreeMap.getD_eq_getD_getElem?, ownStates, ExtTreeMap.getElem?_map, stored]
    simp [invisible, stored]
  | some e =>
    rw [ownStates_getD stored, invisible_eq stored]
    cases snap.visible e.xid <;> simp

theorem deferLoop_defers {fuel : ℕ}
    (ends : deferLoop (b.invisible snap) pairs fuel (b.ownStates pos snap) = some final) :
    DefersFrom (b.ownStates pos snap) final := by
  rw [← deferPasses_of_deferLoop ends]
  exact deferPasses_defers _ fun _ => Or.inl rfl

theorem uncut_of_defers (defers : DefersFrom (b.ownStates pos snap) final) {e : Entry}
    (stored : b.entries[key]? = some e) :
    final.getD key .uncut = .uncut ↔ b.Uncut pos snap key := by
  rw [← ownStates_uncut stored]
  rcases defers key with same | ⟨waits, cut⟩
  · rw [same]
  · simp [waits, cut]

/-- **The keys in flight when the loop ends are a joined set.** -/
theorem joined_of_deferLoop (perm : pairs.Perm b.movePairs) {fuel : ℕ}
    (ends : deferLoop (b.invisible snap) pairs fuel (b.ownStates pos snap) = some final)
    (paid : ∀ p ∈ pairs, Owes (b.invisible snap) final p = false) :
    b.Joined pos snap (Waiting final) := by
  have kept : ∀ key, Waiting (b.ownStates pos snap) key → Waiting final key := fun key waits =>
    deferLoop_invariant (P := fun s => Waiting s key)
      (fun _ _ _ waits _ => waiting_deferred.mpr (.inr (.inr waits))) waits ends
  have defers := deferLoop_defers ends
  refine ⟨fun key e stored flying => kept key (waiting_ownStates.mpr (.inl ⟨e, stored, flying⟩)),
    fun key hidden => kept key (waiting_ownStates.mpr (.inr hidden)), ?_⟩
  intro image old paired cutImage cutOld waits
  have paidHere := paid ⟨image, old⟩ (perm.mem_iff.mpr (mem_movePairs.mpr paired))
  obtain ⟨⟨e, stored, left⟩, origin, there⟩ := paired
  rw [← uncut_of_defers defers stored] at cutImage
  rw [← uncut_of_defers defers there] at cutOld
  have together : waitsTogether (final.getD image .uncut) (final.getD old .uncut)
      (b.invisible snap image) = true := by
    unfold Waiting at waits
    simp [waitsTogether, cutImage, cutOld, waits]
  simp only [Owes, together, Bool.true_and, Bool.or_eq_false_iff, decide_eq_false_iff_not, ne_eq,
    not_not] at paidHere
  exact paidHere

/-- **They are contained in every joined set.** -/
theorem deferLoop_least (perm : pairs.Perm b.movePairs) {fuel : ℕ}
    (ends : deferLoop (b.invisible snap) pairs fuel (b.ownStates pos snap) = some final)
    {set : Key → Prop} (joined : b.Joined pos snap set) (waits : Waiting final key) : set key := by
  have inside : DefersFrom (b.ownStates pos snap) final ∧ ∀ key, Waiting final key → set key := by
    refine deferLoop_invariant (P := fun s => DefersFrom (b.ownStates pos snap) s ∧
      ∀ key, Waiting s key → set key) ?_ ⟨fun _ => Or.inl rfl, fun key waits => ?_⟩ ends
    · intro s p member ⟨defers, inside⟩ owes
      have deferred : DefersFrom _ (deferPair (b.invisible snap) (s, false) p).1 :=
        deferPair_defers defers false p
      rw [deferPair_of_owes owes] at deferred
      refine ⟨deferred, fun key waits => ?_⟩
      have paired := mem_movePairs.mp (perm.mem_iff.mp member)
      obtain ⟨⟨e, stored, -⟩, origin, there⟩ := id paired
      rw [Owes, Bool.and_eq_true, waitsTogether] at owes
      have together := owes.1
      split at together
      · cases together
      next cut =>
        rw [Bool.or_eq_true, decide_eq_true_eq, decide_eq_true_eq, not_or] at cut
        rw [uncut_of_defers defers stored, uncut_of_defers defers there] at cut
        rw [Bool.or_eq_true, decide_eq_true_eq] at together
        have both := joined.together p.image p.old paired cut.1 cut.2
          (together.imp_left fun waits => inside _ waits)
        rcases waiting_deferred.mp waits with rfl | rfl | before
        · exact both.1
        · exact both.2
        · exact inside key before
    · rcases waiting_ownStates.mp waits with ⟨e, stored, flying⟩ | hidden
      · exact joined.inFlight key e stored flying
      · exact joined.invisible key hidden
  exact inside.2 key waits

theorem deferPairs_ends (b : Buffer) (pos : Position) (snap : Snapshot) (pairs : List MovePair) :
    ∃ final, deferLoop (b.invisible snap) pairs (pairs.length + 1) (b.ownStates pos snap)
        = some final ∧ ∀ p ∈ pairs, Owes (b.invisible snap) final p = false :=
  deferLoop_ends (Nat.lt_succ_of_le List.countP_le_length)

/-- Every order of the pairs leaves the same state of every key. -/
theorem deferLoop_getD (perm : pairs.Perm b.movePairs)
    (ends : deferLoop (b.invisible snap) pairs (pairs.length + 1)
      (b.ownStates pos snap) = some final)
    (paid : ∀ p ∈ pairs, Owes (b.invisible snap) final p = false) (key : Key) :
    final.getD key .uncut = (b.deferPairs pos snap).getD key .uncut := by
  obtain ⟨canonical, loops, settled⟩ := b.deferPairs_ends pos snap b.movePairs
  have same : b.deferPairs pos snap = canonical := deferPasses_of_deferLoop loops
  rw [same]
  have first := joined_of_deferLoop perm ends paid
  have second := joined_of_deferLoop (.refl _) loops settled
  rcases deferLoop_defers ends key with own | ⟨waits, -⟩
  · rcases deferLoop_defers loops key with own' | ⟨waits', cut⟩
    · exact own.trans own'.symm
    · exact (deferLoop_least (.refl _) loops first waits').trans waits'.symm
  · exact waits.trans (deferLoop_least perm ends second waits).symm

end Least

/-! ### The loop over the entries -/

section Loop

variable {b : Buffer} {fate : Key → Fate} {todo order : List (Key × Entry)} {acc : Buffer × Batch}

/-- The loop counts each fate as often as an entry meets it. -/
theorem counts_judge_foldl (fate : Key → Fate) (todo : List (Key × Entry)) (acc : Buffer × Batch) :
    (todo.foldl (judge fate) acc).2.held
        = acc.2.held + todo.countP (fun entry => fate entry.1 = .held) ∧
      (todo.foldl (judge fate) acc).2.invisible
        = acc.2.invisible + todo.countP (fun entry => fate entry.1 = .invisible) ∧
      (todo.foldl (judge fate) acc).2.discarded
        = acc.2.discarded + todo.countP (fun entry => fate entry.1 = .discarded) ∧
      (todo.foldl (judge fate) acc).2.deferred
        = acc.2.deferred + todo.countP (fun entry => fate entry.1 = .deferred) := by
  induction todo generalizing acc with
  | nil => simp
  | cons entry todo ih =>
    obtain ⟨k, e⟩ := entry
    obtain ⟨b, batch⟩ := acc
    rw [List.foldl_cons]
    obtain ⟨held, invisible, discarded, deferred⟩ := ih (judge fate (b, batch) (k, e))
    rw [held, invisible, discarded, deferred, judge]
    cases decided : fate k <;> simp [decided] <;> omega

/-- Every entry is counted under one fate. -/
theorem countP_fates :
    todo.countP (fun entry => fate entry.1 = .flushed)
        + todo.countP (fun entry => fate entry.1 = .discarded)
        + todo.countP (fun entry => fate entry.1 = .deferred)
        + todo.countP (fun entry => fate entry.1 = .held)
        + todo.countP (fun entry => fate entry.1 = .invisible) = todo.length := by
  induction todo with
  | nil => rfl
  | cons entry todo ih =>
    simp only [List.countP_cons, List.length_cons]
    cases decided : fate entry.1 <;> simp <;> omega

/-- Entries of distinct keys sort strictly by key. -/
theorem insertionSort_ascending {entries : List Entry} (distinct : (entries.map Entry.key).Nodup) :
    (entries.insertionSort fun a b => a.key ≤ b.key).Pairwise fun a b => a.key < b.key := by
  have : Std.Total fun a b : Entry => a.key ≤ b.key := ⟨fun a b => Int64.le_total a.key b.key⟩
  have : IsTrans Entry fun a b => a.key ≤ b.key :=
    ⟨fun a b c first second => Int64.le_trans first second⟩
  have sorted := List.pairwise_insertionSort (fun a b : Entry => a.key ≤ b.key) entries
  have apart : (entries.insertionSort fun a b => a.key ≤ b.key).Pairwise
      fun a b => a.key ≠ b.key :=
    List.pairwise_map.mp
      (((List.perm_insertionSort _ entries).map Entry.key).nodup_iff.mpr distinct)
  exact sorted.imp₂ (fun a b ordered different => by grind) apart

end Loop

/-! ### The drain as a whole -/

/-- How many buffered entries have the fate. -/
def count (b : Buffer) (pos : Position) (snap : Snapshot) (fate : Fate) : ℕ :=
  b.entries.toList.countP fun entry => b.fate pos snap entry.1 = fate

/-- What one drain has done: which keys it found waiting, what it kept and what it put in the
batch. -/
structure Drains (b : Buffer) (pos : Position) (snap : Snapshot) (state : States) (kept : Buffer)
    (batch : Batch) : Prop where
  joined : b.Joined pos snap (Waiting state)
  least : ∀ set, b.Joined pos snap set → ∀ key, Waiting state key → set key
  fate : ∀ key, b.fate pos snap key = b.fateIn snap state key
  flushed : batch.entries.length = b.count pos snap .flushed
  discarded : batch.discarded = b.count pos snap .discarded
  deferred : batch.deferred = b.count pos snap .deferred
  held : batch.held = b.count pos snap .held
  invisible : batch.invisible = b.count pos snap .invisible
  total : batch.entries.length + batch.discarded + batch.deferred + batch.held + batch.invisible
    = b.len
  entries : ∀ e, e ∈ batch.entries ↔ b.entries[e.key]? = some e ∧ b.fate pos snap e.key = .flushed
  leaves : ∀ key : Key, kept.entries[key]? =
    if b.fate pos snap key = .flushed ∨ b.fate pos snap key = .discarded then none
    else b.entries[key]?
  ascending : batch.entries.Pairwise fun a b => a.key < b.key
  /-- Nothing pending or invisible leaves. -/
  stays : ∀ (key : Key) (e : Entry), b.entries[key]? = some e →
    b.pending.contains key = true ∨ snap.visible e.xid = false → kept.entries[key]? = some e
  /-- No image leaves while the entry at its old key waits. -/
  travels : ∀ e ∈ batch.entries, ∀ old, e.oldKey = some old →
    ∀ origin : Entry, b.entries[old]? = some origin → ¬ Waiting state old

end Buffer

open Buffer

/-- The loop over the entries in the given order. -/
def Buffer.judged (b : Buffer) (pos : Position) (snap : Snapshot) (order : List (Key × Entry)) :
    Buffer × Batch :=
  order.foldl (judge (b.fate pos snap)) ({ b with hasOldest := false }, {})

section Orders

variable {b : Buffer} {pos : Position} {snap : Snapshot} {order : List (Key × Entry)}

theorem flushed_loop :
    (b.judged pos snap order).2.entries
      = (order.filter fun entry => b.fate pos snap entry.1 = .flushed).map Prod.snd := by
  rw [judged, flushed_judge_foldl, List.nil_append]

/-- **Every order of the entries gives the batch the same entries**, strictly ascending. -/
theorem flushed_sorted (listed : order.Perm b.entries.toList) :
    (((order.filter fun entry => b.fate pos snap entry.1 = .flushed).map Prod.snd).insertionSort
        fun a b => a.key ≤ b.key) = (b.drain pos snap).2.entries ∧
      (b.drain pos snap).2.entries.Pairwise fun a b => a.key < b.key := by
  have distinct : ((b.drain pos snap).2.entries.map Entry.key).Nodup := drain_distinct
  have batch : (b.drain pos snap).2.entries = ((b.entries.toList.filter fun entry =>
      b.fate pos snap entry.1 = .flushed).map Prod.snd).insertionSort fun a b => a.key ≤ b.key := by
    rw [← flushed_loop]
    rfl
  rw [batch] at distinct ⊢
  rw [((List.perm_insertionSort _ _).map Entry.key).nodup_iff] at distinct
  have perm := (listed.filter fun entry => b.fate pos snap entry.1 = .flushed).map Prod.snd
  refine ⟨List.Perm.eq_of_pairwise (fun a b _ _ low high => ?_)
    (insertionSort_ascending ((perm.map Entry.key).nodup_iff.mpr distinct))
    (insertionSort_ascending distinct)
    (((List.perm_insertionSort _ _).trans perm).trans (List.perm_insertionSort _ _).symm),
    insertionSort_ascending distinct⟩
  grind

/-- The loop keeps exactly the entries that are neither flushed nor discarded. -/
theorem kept_loop (listed : order.Perm b.entries.toList) (key : Key) :
    (b.judged pos snap order).1.entries[key]?
      = if b.fate pos snap key = .flushed ∨ b.fate pos snap key = .discarded then none
        else b.entries[key]? := by
  have found : (order.any fun entry => entry.1 = key) = b.entries[key]?.isSome := by
    rw [← any_toList]
    exact listed.any_eq
  rw [judged, lookup_judge_foldl.1, found]
  cases stored : b.entries[key]? <;> cases b.fate pos snap key <;> simp [Fate.leaves]

theorem count_eq (listed : order.Perm b.entries.toList) (fate : Fate) :
    order.countP (fun entry => b.fate pos snap entry.1 = fate) = b.count pos snap fate :=
  listed.countP_eq _

/-- The batch's counts are those of the fates, in any order of the entries. -/
theorem Buffer.counts_loop (b : Buffer) (pos : Position) (snap : Snapshot)
    (listed : order.Perm b.entries.toList) :
    (b.judged pos snap order).2.held
        = b.count pos snap .held ∧
      (b.judged pos snap order).2.invisible
        = b.count pos snap .invisible ∧
      (b.judged pos snap order).2.discarded
        = b.count pos snap .discarded ∧
      (b.judged pos snap order).2.deferred
        = b.count pos snap .deferred := by
  obtain ⟨held, invisible, discarded, deferred⟩ :=
    counts_judge_foldl (b.fate pos snap) order ({ b with hasOldest := false }, {})
  rw [count_eq listed, Nat.zero_add] at held invisible discarded deferred
  exact ⟨held, invisible, discarded, deferred⟩

end Orders

/-- **A drain partitions the buffer by the least pair deferral, whatever order the maps are read
in.** The deferral ends within one more pass than there are pairs; the keys it leaves in flight are
the least set that holds every in-flight or invisible key and is closed under the pairs that wait
together; every entry is counted in exactly one of the five ways; and the batch is the same for
every order. -/
theorem drain_partitions (b : Buffer) (pos : Position) (snap : Snapshot) (pairs : List MovePair)
    (order : List (Key × Entry)) (paired : pairs.Perm b.movePairs)
    (listed : order.Perm b.entries.toList) :
    ∃ state kept batch, b.drainIn pos snap pairs order = some (state, kept, batch) ∧
      b.Drains pos snap state kept batch ∧ batch = (b.drain pos snap).2 := by
  obtain ⟨state, ends, paid⟩ := b.deferPairs_ends pos snap pairs
  have fates : b.fateIn snap state = b.fate pos snap := by
    funext key
    rw [fateIn, deferLoop_getD paired ends paid key]
    rfl
  have joined := joined_of_deferLoop paired ends paid
  obtain ⟨held, invisible, discarded, deferred⟩ := b.counts_loop pos snap listed
  obtain ⟨sorted, ascending⟩ := flushed_sorted listed
  have length : (b.drain pos snap).2.entries.length = b.count pos snap .flushed := by
    rw [← sorted, List.length_insertionSort, List.length_map, ← List.countP_eq_length_filter]
    exact count_eq listed _
  refine ⟨state, (b.judged pos snap order).1,
    { (b.judged pos snap order).2 with entries := (b.drain pos snap).2.entries }, ?_, ?_, ?_⟩
  · rw [drainIn, ends, Option.map_some, fates, ← sorted, ← flushed_loop]
    rfl
  · exact
      { joined
        least := fun set closed key waits => deferLoop_least paired ends closed waits
        fate := fun key => (congrFun fates key).symm
        flushed := length
        discarded
        deferred
        held
        invisible
        total := by
          simp only [length, discarded, deferred, held, invisible, len, ← ExtTreeMap.length_toList]
          exact countP_fates
        entries := fun e => mem_drain
        leaves := kept_loop listed
        ascending
        stays := fun key e stored waits => by
          rw [kept_loop listed, if_neg, stored]
          rw [fate, invisible_eq stored]
          rcases waits with held | hidden
          · simp [held]
          · cases b.pending.contains key <;> simp [hidden]
        travels := fun e member old left origin there waits => by
          obtain ⟨stored, flushed⟩ := mem_drain.mp member
          obtain ⟨-, shown, landed⟩ := fate_flushed stored flushed
          have cutOld : ¬ b.Uncut pos snap old := by
            rw [← uncut_of_defers (deferLoop_defers ends) there]
            unfold Waiting at waits
            simp [waits]
          have together := (joined.together e.key old ⟨⟨e, stored, left⟩, origin, there⟩
            (fun uncut => by simp [uncut.2] at landed) cutOld (.inl waits)).1
          unfold Waiting at together
          rw [← congrFun fates e.key, fateIn, together] at flushed
          split at flushed
          · cases flushed
          · split at flushed <;> cases flushed }
  · have canonical := b.counts_loop pos snap (.refl b.entries.toList)
    have split : (b.drain pos snap).2 = { (b.judged pos snap b.entries.toList).2 with
        entries := (b.drain pos snap).2.entries } := rfl
    rw [split]
    simp only [held, invisible, discarded, deferred, canonical]

/-- The row under 5 has moved to 6. -/
def movedToSix : Buffer :=
  (Buffer.new.put { key := 6, kind := .image, oldKey := some 5, firstLSN := 10, xid := 7 }).put
    { key := 5, kind := .deleteMarker, firstLSN := 10, xid := 7 }

/-- Every key is cut, and the chunk of the key 5 is in flight. -/
def originInFlight : Position :=
  { watermark := none, cut := some Int64.maxValue, inFlight := [⟨5, 5, 1, by decide⟩] }

/-- A moved row waits for the origin that is in flight. -/
theorem drain_partitions_moved :
    ∃ state kept batch,
      movedToSix.drainIn originInFlight .allVisible movedToSix.movePairs.reverse
        movedToSix.entries.toList.reverse = some (state, kept, batch) ∧
      Waiting state 6 ∧ batch.entries = [] ∧ batch.deferred = 2 := by
  obtain ⟨state, kept, batch, drains, parts, same⟩ := drain_partitions movedToSix originInFlight
    .allVisible _ _ (List.reverse_perm _) (List.reverse_perm _)
  have whole : (movedToSix.drain originInFlight .allVisible).2 = { deferred := 2 } := by decide
  have paired : movedToSix.Pairs 6 5 := ⟨⟨_, rfl, rfl⟩, _, rfl⟩
  have waits : Waiting state 5 := parts.joined.inFlight 5 _ rfl (by decide)
  refine ⟨state, kept, batch, drains, ?_, by rw [same, whole], by rw [same, whole]⟩
  exact (parts.joined.together 6 5 paired (fun uncut => absurd uncut.2 (by decide))
    (fun uncut => absurd uncut.2 (by decide)) (.inl waits)).1

end PgSprite.Applier
