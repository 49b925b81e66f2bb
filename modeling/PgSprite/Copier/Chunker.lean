/-
**The chunker: consecutive closed ranges that cover the key space.**

`Chunker.nextChunk` cuts the next chunk at the boundary the live table answers. A table answers with
no row or with a key from the asked bound on (`Boundary.Follows`), and to such an answer the chunker
always cuts a chunk (`nextChunk_of_follows`) from its position on, which moves past it. The options
a chunker is sized by are filled with defaults that fit around what is set
(`withDefaults_validates`), and the times its chunks take never size it past them
(`feedbackRows_within`), nor larger for having taken longer (`nextRows_antitone`).
-/

import PgSprite.Copier.Tiling
import PgSprite.Lib.Float64

namespace PgSprite.Copier

open PgSprite.Decode PgSprite.Lib

/-- What the boundary query answers: no row when fewer keys remain than the chunk is to hold, a
NULL, or the key that closes the chunk. -/
inductive Boundary where
  | noRow
  | null
  | key (upper : Key)
  deriving DecidableEq, Repr

/-- The answers a table can give for keys from `lower` on: its key column is never NULL. -/
def Boundary.Follows (lower : Key) : Boundary → Prop
  | .noRow => True
  | .null => False
  | .key upper => lower ≤ upper

/-- Why a chunk could not be cut. -/
inductive ChunkerError (ε : Type) where
  | query (cause : ε)
  | null (lower : Key)
  | frontierBroken (lower upper : Key)
  | chunkUnknown (lower upper : Key)
  deriving DecidableEq, Repr

/-- A row count a chunk is cut to. The options are checked to be positive, and feedback stays
between their bounds. -/
structure RowCount where
  count : Int64
  positive : 0 < count
  deriving DecidableEq

/-- `DefaultInitialChunkRows`. -/
def RowCount.initial : RowCount := ⟨1000, by decide⟩

/-- A chunk over a closed range; a range whose bounds are out of order is refused. -/
def newChunk (lower upper : Key) : Option Chunk :=
  if ordered : lower ≤ upper then some ⟨lower, upper, 0, ordered⟩ else none

theorem newChunk_eq {lower upper : Key} {chunk : Chunk} (made : newChunk lower upper = some chunk) :
    chunk.lower = lower ∧ chunk.upper = upper := by
  rw [newChunk] at made
  split at made
  · cases made
    exact ⟨rfl, rfl⟩
  · cases made

/-- The position the next chunk is cut from, and the row count it is cut to. -/
structure Chunker where
  next : Key
  done : Bool
  rows : RowCount := .initial
  deriving DecidableEq

namespace Chunker

variable {ε : Type}

/-- A chunker that resumes after a watermark. -/
def newChunker (start : Watermark) (rows : RowCount := .initial) : Chunker :=
  ⟨(startAfter start).1, (startAfter start).2, rows⟩

/-- The key that closes a chunk from `lower` on; the last chunk is open above. -/
def boundary (lower : Key) : Except ε Boundary → Except (ChunkerError ε) Key
  | .error cause => .error (.query cause)
  | .ok .noRow => .ok Int64.maxValue
  | .ok .null => .error (.null lower)
  | .ok (.key upper) => .ok upper

/-- Moves the position past a chunk closed at `upper`. -/
def advance (c : Chunker) (upper : Key) : Chunker :=
  if upper = Int64.maxValue then { c with done := true } else { c with next := upper + 1 }

/-- Cuts the next chunk at the boundary the table answers; none once the key space is covered. -/
def nextChunk (c : Chunker) (answer : Except ε Boundary) :
    Except (ChunkerError ε) (Option (Chunk × Chunker)) :=
  if c.done then .ok none
  else
    match boundary c.next answer with
    | .error e => .error e
    | .ok upper =>
      match newChunk c.next upper with
      | none => .error (.frontierBroken c.next upper)
      | some chunk => .ok (some ({ chunk with rows := c.rows.count }, c.advance upper))

/-- Takes over the row count that how long `chunk` took to copy proposes for the next one. -/
def feedback (c : Chunker) (chunk : Chunk) (sized : RowCount) : Except (ChunkerError ε) Chunker :=
  if chunk.rows ≤ 0 then .error (.chunkUnknown chunk.lower chunk.upper)
  else .ok { c with rows := sized }

/-- The cut frontier: the highest key of a chunk cut or resumed past. -/
def cut (c : Chunker) : Watermark :=
  if c.done then some Int64.maxValue
  else if c.next = Int64.minValue then none
  else some (c.next - 1)

/-- A cut chunk starts at the position, and moves it past its end. -/
theorem nextChunk_some {c after : Chunker} {answer : Except ε Boundary} {chunk : Chunk}
    (cut : c.nextChunk answer = .ok (some (chunk, after))) :
    chunk.lower = c.next ∧ chunk.rows = c.rows.count ∧ after = c.advance chunk.upper := by
  rw [nextChunk] at cut
  split at cut
  · cases cut
  · split at cut
    · cases cut
    · split at cut
      · cases cut
      next upper _ _ made =>
        cases cut
        obtain ⟨lower, top⟩ := newChunk_eq made
        exact ⟨lower, rfl, by rw [top]⟩

theorem nextChunk_none {c : Chunker} {answer : Except ε Boundary}
    (ended : c.nextChunk answer = .ok none) : c.done = true := by
  rw [nextChunk] at ended
  split at ended
  · assumption
  · split at ended
    · cases ended
    · split at ended <;> cases ended

/-- **A table's answer is never refused**: the chunk ends at or above the position. -/
theorem nextChunk_of_follows {c : Chunker} {answer : Boundary} (unfinished : c.done = false)
    (follows : answer.Follows c.next) :
    ∃ chunk : Chunk, c.nextChunk (ε := ε) (.ok answer) = .ok (some (chunk, c.advance chunk.upper)) ∧
      chunk.lower = c.next ∧ chunk.rows = c.rows.count := by
  have made : ∀ upper : Key, c.next ≤ upper → boundary (ε := ε) c.next (.ok answer) = .ok upper →
      ∃ chunk : Chunk,
        c.nextChunk (ε := ε) (.ok answer) = .ok (some (chunk, c.advance chunk.upper)) ∧
        chunk.lower = c.next ∧ chunk.rows = c.rows.count := by
    intro upper ordered closes
    exact ⟨⟨c.next, upper, c.rows.count, ordered⟩,
      by simp [nextChunk, unfinished, closes, newChunk, ordered], rfl, rfl⟩
  cases answer with
  | noRow => exact made _ (Int64.le_maxValue _) rfl
  | null => cases follows
  | key upper => exact made upper follows rfl

theorem feedback_of_pos {c : Chunker} {chunk : Chunk} (sized : RowCount) (cut : 0 < chunk.rows) :
    c.feedback (ε := ε) chunk sized = .ok { c with rows := sized } :=
  if_neg (Int64.not_le.mpr cut)

theorem advance_of_room {c : Chunker} {upper : Key} (room : upper ≠ Int64.maxValue) :
    c.advance upper = { c with next := upper + 1 } :=
  if_neg room

end Chunker

/-! ### Options -/

/-- How long a chunk is to take, in nanoseconds, and the row counts a chunker starts from and stays
between; a field that is zero takes its default. -/
structure ChunkerOptions where
  targetChunkTime : Int64 := 0
  initialRows : Int64 := 0
  minRows : Int64 := 0
  maxRows : Int64 := 0
  deriving DecidableEq, Repr

def defaultTargetChunkTime : Int64 := 500000000
def defaultMinChunkRows : Int64 := 100
def defaultMaxChunkRows : Int64 := 100000

/-- Why options cannot describe a bounded chunk. -/
inductive ChunkerOptionsError where
  | targetChunkTime (time : Int64)
  | notPositive (name : String) (value : Int64)
  | minAboveMax (minRows maxRows : Int64)
  | initialOutside (initialRows minRows maxRows : Int64)
  deriving DecidableEq, Repr

namespace ChunkerOptions

/-- The default floor, within the ceiling and the initial size that are set. -/
def fittedMin (o : ChunkerOptions) : Int64 :=
  let rows := if 0 < o.maxRows then min defaultMinChunkRows o.maxRows else defaultMinChunkRows
  if 0 < o.initialRows then min rows o.initialRows else rows

/-- The default ceiling, above the floor and the initial size that is set. -/
def fittedMax (o : ChunkerOptions) : Int64 :=
  let rows := max defaultMaxChunkRows o.minRows
  if 0 < o.initialRows then max rows o.initialRows else rows

/-- The default initial size, between the bounds. -/
def fittedInitial (o : ChunkerOptions) : Int64 :=
  let rows :=
    if 0 < o.minRows then max RowCount.initial.count o.minRows else RowCount.initial.count
  if 0 < o.maxRows then min rows o.maxRows else rows

/-- The options with every field set: the bounds first, then the initial size inside them. -/
def withDefaults (o : ChunkerOptions) : ChunkerOptions :=
  let o := if o.targetChunkTime = 0 then { o with targetChunkTime := defaultTargetChunkTime } else o
  let o := if o.minRows = 0 then { o with minRows := o.fittedMin } else o
  let o := if o.maxRows = 0 then { o with maxRows := o.fittedMax } else o
  if o.initialRows = 0 then { o with initialRows := o.fittedInitial } else o

def validate (o : ChunkerOptions) : Except ChunkerOptionsError Unit :=
  if o.targetChunkTime ≤ 0 then .error (.targetChunkTime o.targetChunkTime)
  else
    match [("initial rows", o.initialRows), ("minimum rows", o.minRows),
        ("maximum rows", o.maxRows)].find? (·.2 ≤ 0) with
    | some (name, value) => .error (.notPositive name value)
    | none =>
      if o.maxRows < o.minRows then .error (.minAboveMax o.minRows o.maxRows)
      else if o.initialRows < o.minRows ∨ o.maxRows < o.initialRows then
        .error (.initialOutside o.initialRows o.minRows o.maxRows)
      else .ok ()

/-- The bounds a chunker keeps to. -/
structure Bounded (o : ChunkerOptions) : Prop where
  target : 0 < o.targetChunkTime
  floor : 0 < o.minRows
  above : o.minRows ≤ o.initialRows
  below : o.initialRows ≤ o.maxRows

/-- The fields that are set are positive and in order, wherever two of them are. -/
structure Consistent (o : ChunkerOptions) : Prop where
  target : 0 ≤ o.targetChunkTime
  initial : 0 ≤ o.initialRows
  floor : 0 ≤ o.minRows
  ceiling : 0 ≤ o.maxRows
  above : o.minRows ≠ 0 → o.initialRows ≠ 0 → o.minRows ≤ o.initialRows
  below : o.initialRows ≠ 0 → o.maxRows ≠ 0 → o.initialRows ≤ o.maxRows
  ordered : o.minRows ≠ 0 → o.maxRows ≠ 0 → o.minRows ≤ o.maxRows

/-- Every field that is set in the first options is the same in the second. -/
structure Keeps (o filled : ChunkerOptions) : Prop where
  target : o.targetChunkTime ≠ 0 → filled.targetChunkTime = o.targetChunkTime
  initial : o.initialRows ≠ 0 → filled.initialRows = o.initialRows
  floor : o.minRows ≠ 0 → filled.minRows = o.minRows
  ceiling : o.maxRows ≠ 0 → filled.maxRows = o.maxRows

/-- Validation accepts exactly the bounded options. -/
theorem validate_ok_iff {o : ChunkerOptions} : o.validate = .ok () ↔ o.Bounded := by
  have positive : [("initial rows", o.initialRows), ("minimum rows", o.minRows),
      ("maximum rows", o.maxRows)].find? (·.2 ≤ 0) = none ↔
        0 < o.initialRows ∧ 0 < o.minRows ∧ 0 < o.maxRows := by
    rw [List.find?_eq_none]
    simp
  unfold validate
  by_cases timed : o.targetChunkTime ≤ 0
  · rw [if_pos timed]
    exact ⟨fun valid => (nomatch valid), fun bounded => absurd bounded.target (by grind)⟩
  · rw [if_neg timed]
    split
    next name value found =>
      rw [found] at positive
      refine ⟨fun valid => (nomatch valid), fun bounded => ?_⟩
      obtain ⟨_, floor, above, below⟩ := bounded
      exact nomatch positive.mpr ⟨by grind, floor, by grind⟩
    next found =>
      obtain ⟨initial, floor, ceiling⟩ := positive.mp found
      by_cases crossed : o.maxRows < o.minRows
      · rw [if_pos crossed]
        refine ⟨fun valid => (nomatch valid), fun bounded => ?_⟩
        obtain ⟨_, _, above, below⟩ := bounded
        exact absurd crossed (by grind)
      · rw [if_neg crossed]
        by_cases outside : o.initialRows < o.minRows ∨ o.maxRows < o.initialRows
        · rw [if_pos outside]
          refine ⟨fun valid => (nomatch valid), fun bounded => ?_⟩
          obtain ⟨_, _, above, below⟩ := bounded
          exact absurd outside (by grind)
        · rw [if_neg outside]
          exact ⟨fun _ => ⟨by grind, floor, by grind, by grind⟩, fun _ => rfl⟩

/-! ### Each default fits around what is set -/

section Defaults

variable {o : ChunkerOptions}

theorem min_eq_ite (a b : Int64) : min a b = if a ≤ b then a else b := rfl

theorem max_eq_ite (a b : Int64) : max a b = if a ≤ b then b else a := rfl

theorem fittedMin_spec :
    0 < o.fittedMin ∧ (0 < o.maxRows → o.fittedMin ≤ o.maxRows) ∧
      (0 < o.initialRows → o.fittedMin ≤ o.initialRows) := by
  have default_ : 0 < defaultMinChunkRows := by decide
  unfold fittedMin
  grind [min_eq_ite]

theorem fittedMax_spec : o.minRows ≤ o.fittedMax ∧ o.initialRows ≤ o.fittedMax := by
  have default_ : 0 < defaultMaxChunkRows := by decide
  unfold fittedMax
  grind [max_eq_ite]

theorem fittedInitial_spec (floor : 0 < o.minRows) (ordered : o.minRows ≤ o.maxRows) :
    o.minRows ≤ o.fittedInitial ∧ o.fittedInitial ≤ o.maxRows := by
  unfold fittedInitial
  grind [min_eq_ite, max_eq_ite]

variable (o)

theorem targetChunkTime_withDefaults : o.withDefaults.targetChunkTime =
    if o.targetChunkTime = 0 then defaultTargetChunkTime else o.targetChunkTime := by
  unfold withDefaults
  grind

theorem minRows_withDefaults : o.withDefaults.minRows =
    if o.minRows = 0 then o.fittedMin else o.minRows := by
  unfold withDefaults fittedMin
  grind

theorem maxRows_withDefaults : o.withDefaults.maxRows =
    if o.maxRows = 0 then fittedMax { o with minRows := o.withDefaults.minRows }
    else o.maxRows := by
  unfold withDefaults fittedMax
  grind

theorem initialRows_withDefaults : o.withDefaults.initialRows =
    if o.initialRows = 0 then fittedInitial o.withDefaults else o.initialRows := by
  unfold withDefaults fittedInitial
  grind

theorem keeps_withDefaults : Keeps o o.withDefaults where
  target set := by rw [targetChunkTime_withDefaults, if_neg set]
  initial set := by rw [initialRows_withDefaults, if_neg set]
  floor set := by rw [minRows_withDefaults, if_neg set]
  ceiling set := by rw [maxRows_withDefaults, if_neg set]

end Defaults

/-- Consistent options are bounded once their defaults are filled. -/
theorem Consistent.bounded {o : ChunkerOptions} (consistent : o.Consistent) :
    o.withDefaults.Bounded := by
  obtain ⟨target, initial, floor, ceiling, above, below, ordered⟩ := consistent
  have filledMin := minRows_withDefaults o
  have filledMax := maxRows_withDefaults o
  have filledInitial := initialRows_withDefaults o
  obtain ⟨minPositive, minBelow, minAbove⟩ := fittedMin_spec (o := o)
  have maxAbove := fittedMax_spec (o := { o with minRows := o.withDefaults.minRows })
  have floored : 0 < o.withDefaults.minRows := by grind
  have filled : o.withDefaults.minRows ≤ o.withDefaults.maxRows := by grind
  have within := fittedInitial_spec floored filled
  refine ⟨?_, floored, ?_, ?_⟩
  · rw [targetChunkTime_withDefaults]
    split
    · decide
    · grind
  · grind
  · grind

theorem Bounded.consistent {o : ChunkerOptions} (bounded : o.withDefaults.Bounded) :
    o.Consistent := by
  obtain ⟨target, floor, above, below⟩ := bounded
  obtain ⟨keptTarget, keptInitial, keptFloor, keptCeiling⟩ := keeps_withDefaults o
  constructor <;> grind

/-- **Defaults never contradict what is set.** Filling the options keeps every field that is set,
and the result passes the check exactly where the fields that are set are positive and in order. -/
theorem withDefaults_validates (o : ChunkerOptions) :
    Keeps o o.withDefaults ∧ (o.withDefaults.validate = .ok () ↔ o.Consistent) := by
  refine ⟨keeps_withDefaults o, ?_⟩
  rw [validate_ok_iff]
  exact ⟨Bounded.consistent, Consistent.bounded⟩

/-! ### Sizing by the time a chunk takes -/

def maxGrowthPerStep : ℚ := 2
def maxShrinkPerStep : ℚ := 1 / 2

/-- The target time over the time a chunk took, clamped to what one step may change. -/
def ratio (o : ChunkerOptions) (elapsed : Int64) : ℚ :=
  min maxGrowthPerStep (max maxShrinkPerStep
    (if 0 < elapsed then float64 (float64 o.targetChunkTime.toInt / float64 elapsed.toInt)
      else maxGrowthPerStep))

def scaled (o : ChunkerOptions) (rows elapsed : Int64) : ℚ :=
  float64 (float64 rows.toInt * o.ratio elapsed)

/-- The row count proposed for the next chunk by the time one of `rows` rows took. -/
def nextRows (rows elapsed : Int64) (o : ChunkerOptions) : Int64 :=
  if float64 o.maxRows.toInt ≤ o.scaled rows elapsed then o.maxRows
  else if o.scaled rows elapsed ≤ float64 o.minRows.toInt then o.minRows
  else .ofInt (round (o.scaled rows elapsed))

/-- The row count after feedback for chunks and the times they took; it is refused, and changes
nothing, for a chunk that no chunker cut. -/
def feedbackRows (o : ChunkerOptions) (reports : List (Chunk × Int64)) : Int64 :=
  reports.foldl (fun rows report =>
    if report.1.rows ≤ 0 then rows else nextRows report.1.rows report.2 o) o.initialRows

section Sizing

variable {o : ChunkerOptions} {rows elapsed later : Int64}

theorem cast_pos (positive : 0 < rows) : (0 : ℚ) < rows.toInt :=
  Int.cast_pos.mpr (Int64.lt_iff_toInt_lt.mp positive)

theorem product_pos (cut : 0 < rows) : 0 < float64 rows.toInt * o.ratio elapsed :=
  mul_pos (rounded_pos (cast_pos cut)) (lt_min two_pos (lt_max_of_lt_left one_half_pos))

/-- A float that is not past a bound's float is not past the bound: rounding keeps the order. So
what is converted back fits. -/
theorem toInt_round (bounded : o.Bounded) (cut : 0 < rows)
    (below : ¬float64 o.maxRows.toInt ≤ o.scaled rows elapsed)
    (above : ¬o.scaled rows elapsed ≤ float64 o.minRows.toInt) :
    (Int64.ofInt (round (o.scaled rows elapsed))).toInt = round (o.scaled rows elapsed) ∧
      o.minRows.toInt ≤ round (o.scaled rows elapsed) ∧
      round (o.scaled rows elapsed) ≤ o.maxRows.toInt := by
  have fixed : float64 (o.scaled rows elapsed) = o.scaled rows elapsed :=
    rounded_rounded (product_pos cut)
  have low : (o.minRows.toInt : ℚ) ≤ o.scaled rows elapsed := by
    by_contra less
    exact above (fixed ▸ rounded_mono (rounded_pos (product_pos cut)) (not_le.mp less).le)
  have high : o.scaled rows elapsed ≤ o.maxRows.toInt := by
    by_contra more
    obtain ⟨_, floor, low, high⟩ := bounded
    exact below (fixed ▸ rounded_mono (cast_pos (by grind)) (not_le.mp more).le)
  have least : o.minRows.toInt ≤ round (o.scaled rows elapsed) := by
    rw [round_eq, Int.le_floor]
    linarith
  have most : round (o.scaled rows elapsed) ≤ o.maxRows.toInt := by
    rw [round_eq, ← Int.lt_add_one_iff, Int.floor_lt]
    push_cast
    linarith
  exact ⟨Int64.toInt_ofInt_of_le (o.minRows.le_toInt.trans least)
    (most.trans_lt o.maxRows.toInt_lt), least, most⟩

theorem nextRows_within (bounded : o.Bounded) (cut : 0 < rows) :
    o.minRows ≤ nextRows rows elapsed o ∧ nextRows rows elapsed o ≤ o.maxRows := by
  unfold nextRows
  split_ifs with top bottom
  · obtain ⟨_, _, above, below⟩ := bounded
    grind
  · obtain ⟨_, _, above, below⟩ := bounded
    grind
  · obtain ⟨fits, within⟩ := toInt_round bounded cut top bottom
    rwa [Int64.le_iff_toInt_le, Int64.le_iff_toInt_le, fits]

/-- A longer time never gives a larger ratio; one that was not measured gives the largest. -/
theorem ratio_anti (bounded : o.Bounded) (longer : elapsed ≤ later) :
    o.ratio later ≤ o.ratio elapsed := by
  by_cases took : 0 < elapsed
  · have lasted : 0 < later := by grind
    have target := rounded_pos (p := 52) (cast_pos bounded.target)
    rw [ratio, ratio, if_pos took, if_pos lasted]
    refine min_le_min_left _ (max_le_max_left _ (rounded_mono ?_ ?_))
    · exact div_pos target (rounded_pos (cast_pos lasted))
    · exact div_le_div_of_nonneg_left target.le (rounded_pos (cast_pos took))
        (rounded_mono (cast_pos took) (Int.cast_le.mpr (Int64.le_iff_toInt_le.mp longer)))
  · rw [ratio.eq_1 o elapsed, if_neg took, min_eq_left (le_max_right _ _)]
    exact min_le_left _ _

theorem scaled_anti (bounded : o.Bounded) (cut : 0 < rows) (longer : elapsed ≤ later) :
    o.scaled rows later ≤ o.scaled rows elapsed :=
  rounded_mono (product_pos cut)
    (mul_le_mul_of_nonneg_left (ratio_anti bounded longer) (rounded_pos (cast_pos cut)).le)

end Sizing

/-- **Feedback never leaves the bounds**, whatever chunks are reported in whatever order, and a
float that is converted back to a row count fits. -/
theorem feedbackRows_within (o : ChunkerOptions) (valid : o.validate = .ok ())
    (reports : List (Chunk × Int64)) :
    (o.minRows ≤ o.feedbackRows reports ∧ o.feedbackRows reports ≤ o.maxRows) ∧
      ∀ report ∈ reports, 0 < report.1.rows →
        float64 o.minRows.toInt < o.scaled report.1.rows report.2 →
        o.scaled report.1.rows report.2 < float64 o.maxRows.toInt →
          (Int64.ofInt (round (o.scaled report.1.rows report.2))).toInt =
            round (o.scaled report.1.rows report.2) := by
  have bounded := validate_ok_iff.mp valid
  refine ⟨?_, fun report _ cut above below =>
    (toInt_round bounded cut (not_le.mpr below) (not_le.mpr above)).1⟩
  refine List.foldlRecOn (motive := fun rows => o.minRows ≤ rows ∧ rows ≤ o.maxRows) reports _
    ⟨bounded.above, bounded.below⟩ fun rows within report _ => ?_
  by_cases uncut : report.1.rows ≤ 0
  · rwa [if_pos uncut]
  · rw [if_neg uncut]
    exact nextRows_within bounded (Int64.not_le.mp uncut)

theorem feedbackRows_within_defaults :
    100 ≤ feedbackRows (withDefaults {}) [(⟨1, 9, 80, by decide⟩, 900000000)] :=
  (feedbackRows_within (withDefaults {}) rfl _).1.1

/-- **A slower chunk never proposes a larger next one.** -/
theorem nextRows_antitone (o : ChunkerOptions) (valid : o.validate = .ok ())
    (rows elapsed later : Int64) (cut : 0 < rows) (longer : elapsed ≤ later) :
    nextRows rows later o ≤ nextRows rows elapsed o := by
  have bounded := validate_ok_iff.mp valid
  have slower := scaled_anti bounded cut longer
  by_cases top : float64 o.maxRows.toInt ≤ o.scaled rows elapsed
  · rw [nextRows.eq_1 rows elapsed, if_pos top]
    exact (nextRows_within bounded cut).2
  · have under : ¬float64 o.maxRows.toInt ≤ o.scaled rows later := fun past =>
      top (past.trans slower)
    by_cases bottom : o.scaled rows later ≤ float64 o.minRows.toInt
    · rw [nextRows, if_neg under, if_pos bottom]
      exact (nextRows_within bounded cut).1
    · have past : ¬o.scaled rows elapsed ≤ float64 o.minRows.toInt := fun low =>
        bottom (slower.trans low)
      rw [nextRows, nextRows, if_neg top, if_neg under, if_neg bottom, if_neg past,
        Int64.le_iff_toInt_le, (toInt_round bounded cut under bottom).1,
        (toInt_round bounded cut top past).1, round_eq, round_eq]
      exact Int.floor_mono (by linarith)

theorem nextRows_antitone_defaults :
    nextRows 1000 900000000 (withDefaults {}) ≤ nextRows 1000 0 (withDefaults {}) :=
  nextRows_antitone (withDefaults {}) rfl 1000 0 900000000 (by decide) (by decide)

end ChunkerOptions

end PgSprite.Copier
