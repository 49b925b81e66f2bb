/-
**The copier's position, and the state it gives each key.**

A position is one reading of the copier's ledger: the cut frontier, the chunks in flight, and for a
chunk that has committed part of itself the keys it still owes. `classify` is the applier's whole
view of the copy.
-/

import PgSprite.Decode.Change

namespace PgSprite.Copier

open PgSprite.Decode

/-- A closed range of the primary key, with the row count it was cut to. -/
structure Chunk where
  lower : Key
  upper : Key
  rows : Int64 := 0
  ordered : lower ≤ upper
  deriving DecidableEq

/-- Whether the range holds `key`. -/
def Chunk.covers (chunk : Chunk) (key : Key) : Bool :=
  decide (chunk.lower ≤ key) && decide (key ≤ chunk.upper)

theorem Chunk.covers_iff {chunk : Chunk} {key : Key} :
    chunk.covers key = true ↔ chunk.lower ≤ key ∧ key ≤ chunk.upper := by
  simp [covers]

/-- A frontier in the key space; `none` is a frontier that has not been reached. -/
abbrev Watermark := Option Key

/-- Every key is at or below the frontier. -/
def Watermark.complete (w : Watermark) : Bool := decide (w = some Int64.maxValue)

/-- The lower bound that follows a watermark, and whether nothing is left above it. -/
def startAfter : Watermark → Key × Bool
  | none => (Int64.minValue, false)
  | some value => if Watermark.complete (some value) then (0, true) else (value + 1, false)

/-- Whether a key at or below the frontier lies on the reached side of it. -/
def Watermark.reaches (w : Watermark) (key : Key) : Bool :=
  match w with
  | none => false
  | some value => decide (key ≤ value)

/-- What the copy has done with a key. -/
inductive KeyState where
  | uncut
  | inFlight
  | landed
  deriving DecidableEq, Repr

/-- The keys a partly committed chunk still owes, ascending. -/
structure PendingKeys where
  chunk : Chunk
  keys : List Key
  deriving DecidableEq

/-- `slices.BinarySearch`: the place where `key` stands, or would stand, among ascending keys. Each
round halves the span from `i` to `j`, so as many rounds as there are keys are enough. -/
def searchFrom (keys : List Key) (key : Key) : ℕ → ℕ → ℕ → ℕ
  | 0, i, _ => i
  | fuel + 1, i, j =>
    if i < j then
      if keys[(i + j) / 2]?.any (· < key) then searchFrom keys key fuel ((i + j) / 2 + 1) j
      else searchFrom keys key fuel i ((i + j) / 2)
    else i

/-- Whether the search finds `key`. -/
def binarySearch (keys : List Key) (key : Key) : Bool :=
  keys[searchFrom keys key keys.length 0 keys.length]? == some key

/-- The search ends with the smaller keys before it and the others from it on. -/
theorem searchFrom_spec {keys : List Key} (key : Key) (sorted : keys.Pairwise (· < ·)) (fuel : ℕ)
    {i j : ℕ} (span : j - i ≤ fuel) (ordered : i ≤ j) (bounded : j ≤ keys.length)
    (before : ∀ k other, k < i → keys[k]? = some other → other < key)
    (after : ∀ k other, j ≤ k → keys[k]? = some other → key ≤ other) :
    (∀ k other, k < searchFrom keys key fuel i j → keys[k]? = some other → other < key) ∧
      ∀ k other, searchFrom keys key fuel i j ≤ k → keys[k]? = some other → key ≤ other := by
  have ascending : ∀ {a b : ℕ} {x y : Key}, a < b → keys[a]? = some x →
      keys[b]? = some y → x < y := by
    intro a b x y less first second
    obtain ⟨inA, rfl⟩ := List.getElem?_eq_some_iff.mp first
    obtain ⟨inB, rfl⟩ := List.getElem?_eq_some_iff.mp second
    exact List.pairwise_iff_getElem.mp sorted a b inA inB less
  induction fuel generalizing i j with
  | zero =>
    have same : i = j := by omega
    subst same
    exact ⟨before, after⟩
  | succ fuel ih =>
    rw [searchFrom]
    split
    next room =>
      have inside : (i + j) / 2 < keys.length := by omega
      have middle : keys[(i + j) / 2]? = some keys[(i + j) / 2] := List.getElem?_eq_getElem inside
      rw [middle, Option.any_some]
      split
      next less =>
        rw [decide_eq_true_eq] at less
        refine ih (by omega) (by omega) bounded (fun k other low found => ?_) after
        rcases Nat.lt_or_ge k ((i + j) / 2) with below | above
        · have smaller := ascending below found middle
          grind
        · have same : k = (i + j) / 2 := by omega
          rw [same, middle, Option.some.injEq] at found
          exact found ▸ less
      next least =>
        rw [decide_eq_true_eq] at least
        refine ih (by omega) (by omega) (by omega) before fun k other high found => ?_
        rcases Nat.lt_or_ge ((i + j) / 2) k with beyond | above
        · have larger := ascending beyond middle found
          grind
        · have same : k = (i + j) / 2 := by omega
          rw [same, middle, Option.some.injEq] at found
          grind
    next =>
      have same : i = j := by omega
      subst same
      exact ⟨before, after⟩

/-- **The search finds exactly the keys that are there.** -/
theorem binarySearch_eq_contains {keys : List Key} {key : Key} (sorted : keys.Pairwise (· < ·)) :
    binarySearch keys key = keys.contains key := by
  obtain ⟨before, after⟩ := searchFrom_spec key sorted keys.length (i := 0) (by omega)
    (Nat.zero_le _) (Nat.le_refl _) (fun k _ low => absurd low (Nat.not_lt_zero k))
    fun k other high found => absurd (List.getElem?_eq_some_iff.mp found).1 (by omega)
  rw [binarySearch, Bool.eq_iff_iff, beq_iff_eq, List.contains_iff_mem, List.mem_iff_getElem?]
  refine ⟨fun found => ⟨_, found⟩, fun ⟨k, found⟩ => ?_⟩
  -- nothing before the place is the key, and what stands at it is not above the key
  rcases Nat.lt_or_ge k (searchFrom keys key keys.length 0 keys.length) with low | high
  · have smaller := before k key low found
    grind
  · rcases Nat.eq_or_lt_of_le high with same | beyond
    · rw [same]
      exact found
    · obtain ⟨inside, equal⟩ := List.getElem?_eq_some_iff.mp found
      have there := List.getElem?_eq_getElem (Nat.lt_trans beyond inside)
      have least := after _ _ (Nat.le_refl _) there
      have strict := List.pairwise_iff_getElem.mp sorted _ _ (Nat.lt_trans beyond inside)
        inside beyond
      grind

/-- One consistent reading of the copier's ledger. -/
structure Position where
  watermark : Watermark
  cut : Watermark
  inFlight : List Chunk := []
  pending : List PendingKeys := []
  rowsInserted : Int64 := 0
  deriving DecidableEq

namespace Position

/-- The state of a key inside an in-flight chunk: landed when the chunk has committed a pass that
did not hold the key off. The owed keys are ascending, so the source's binary search is
membership. -/
def classifyWithin (p : Position) (chunk : Chunk) (key : Key) : KeyState :=
  match p.pending.find? (fun owed => owed.chunk = chunk) with
  | none => .inFlight
  | some owed => if owed.keys.contains key then .inFlight else .landed

/-- The state of a key at this position. -/
def classify (p : Position) (key : Key) : KeyState :=
  if p.cut.reaches key then
    match p.inFlight.find? (fun chunk => chunk.covers key) with
    | none => .landed
    | some chunk => p.classifyWithin chunk key
  else .uncut

theorem classify_of_idle {p : Position} (idle : p.inFlight = []) (key : Key) :
    p.classify key = if p.cut.reaches key then .landed else .uncut := by
  rw [classify, idle, List.find?_nil]

end Position

end PgSprite.Copier
