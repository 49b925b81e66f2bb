/-
**Settling a chunk that differed while the stream was writing the shadow.**

A live pass reads both sides of a differing chunk again once the catch-up has confirmed past the
position of the earlier read, and judges the two reads together. `settle` is that loop, over
whatever the server and the catch-up answer it.

* `settled_chunk_converges` — after a clean verdict the changes above the confirmed position make
  the chunk equal to the source's, whatever the shadow held at first;
* `never_diverged_iff` — a shadow that only lags is never called divergent exactly when the
  source's contents of the chunk do not alternate between two states.
-/

import PgSprite.Copier.Position
import PgSprite.Dbconn.Failure
import PgSprite.Decode.Lsn
import PgSprite.Source.History

namespace PgSprite.Checksum

open PgSprite.Decode PgSprite.Copier PgSprite.Dbconn PgSprite.Source PgSprite.Lib

/-- One side's summary of a chunk: its row count and a hash of every row. -/
structure Digest where
  rows : Int64
  hash : String
  deriving DecidableEq, Repr

/-- One read of both sides of a chunk, with the position of the marker its transaction wrote. -/
structure Observation where
  chunk : Chunk
  source : Digest
  shadow : Digest
  lsn : LSN
  deriving DecidableEq

/-- What two reads of a differing chunk say together. -/
inductive Verdict where
  | equal
  | settled
  | hot
  | diverged
  deriving DecidableEq, Repr

/-- Compares a reread with the read before it. -/
def judge (prior now : Observation) : Verdict :=
  if now.shadow = now.source then .equal
  else if now.shadow = prior.source then .settled
  else if now.source ≠ prior.source then .hot
  else if now.shadow ≠ prior.shadow then .hot
  else .diverged

/-- Why a live pass gave up on a chunk. -/
inductive UnresolvedCause where
  | lagging
  | hot
  deriving DecidableEq, Repr

/-- A chunk a live pass could neither read clean nor confirm divergent. -/
structure UnresolvedError where
  chunk : Chunk
  cause : UnresolvedCause
  rereads : ℕ
  source : Digest
  shadow : Digest
  captured : LSN
  confirmed : LSN
  deriving DecidableEq

/-- Why a settle returned no verdict. -/
inductive SettleError where
  | unresolved (e : UnresolvedError)
  | waiting (prior : Observation) (cause : Failure)
  | read (cause : Failure)
  deriving DecidableEq

/-- What the catch-up and the server answer a settle: the confirmed position at each poll of each
round, what each sleep ends in, and what each round's reread finds. A round is numbered by the
rereads made before it. -/
structure Outside where
  confirmed : ℕ → ℕ → LSN
  sleep : ℕ → ℕ → Option Failure
  read : ℕ → Except Failure Observation

/-- Waits from poll `polled` on until the catch-up has confirmed past the position `prior` was read
at, for `left` more sleeps. -/
def awaitConfirmed (outside : Outside) (prior : Observation) (rereads : ℕ) :
    ℕ → ℕ → Except SettleError Unit
  | left, polled =>
    if prior.lsn ≤ outside.confirmed rereads polled then .ok ()
    else
      match left with
      | 0 => .error (.unresolved
          { chunk := prior.chunk, cause := .lagging, rereads
            source := prior.source, shadow := prior.shadow
            captured := prior.lsn, confirmed := outside.confirmed rereads polled })
      | left + 1 =>
        match outside.sleep rereads polled with
        | some cause => .error (.waiting prior cause)
        | none => awaitConfirmed outside prior rereads left (polled + 1)

/-- One round of a settle: waits for the catch-up and reads the chunk again. -/
def rereadOnce (outside : Outside) (polls : ℕ) (prior : Observation) (rereads : ℕ) :
    Except SettleError Observation :=
  match awaitConfirmed outside prior rereads polls 0 with
  | .error e => .error e
  | .ok () =>
    match outside.read rereads with
    | .error cause => .error (.read cause)
    | .ok now => .ok now

/-- A settled chunk: the verdict, the last read and how many rereads it took. -/
structure Settling where
  verdict : Verdict
  last : Observation
  rereads : ℕ
  deriving DecidableEq

/-- The settle's loop with `left` rereads to spare after this round's. -/
def settleLoop (outside : Outside) (polls : ℕ) :
    ℕ → Observation → ℕ → Except SettleError Settling
  | left, prior, rereads =>
    match rereadOnce outside polls prior rereads with
    | .error e => .error e
    | .ok now =>
      if judge prior now ≠ .hot then .ok ⟨judge prior now, now, rereads + 1⟩
      else
        match left with
        | 0 => .error (.unresolved
            { chunk := now.chunk, cause := .hot, rereads := rereads + 1
              source := now.source, shadow := now.shadow
              captured := now.lsn, confirmed := outside.confirmed (rereads + 1) 0 })
        | left + 1 => settleLoop outside polls left now (rereads + 1)

/-- Decides a chunk found differing, from its earlier read and the rereads already spent on it:
a chunk that keeps changing is read again until `attempts` rereads have been made. -/
def settle (outside : Outside) (attempts polls : ℕ) (prior : Observation) (rereads : ℕ) :
    Except SettleError Settling :=
  settleLoop outside polls (attempts - (rereads + 1)) prior rereads

/-! ### What a settle has seen when it returns -/

variable {prior now : Observation}

theorem judge_equal : judge prior now = .equal ↔ now.shadow = now.source := by
  rw [judge]
  split_ifs <;> simp_all

theorem judge_settled (settles : judge prior now = .settled) : now.shadow = prior.source := by
  rw [judge] at settles
  split_ifs at settles
  assumption

theorem judge_diverged :
    judge prior now = .diverged ↔
      now.shadow ≠ now.source ∧ now.shadow ≠ prior.source ∧ now.source = prior.source ∧
        now.shadow = prior.shadow := by
  rw [judge]
  split_ifs <;> simp_all

variable {rereads left : ℕ}

/-- A wait ends once the confirmed position has passed the read. -/
theorem awaitConfirmed_ok {outside : Outside} {polled : ℕ}
    (waited : awaitConfirmed outside prior rereads left polled = .ok ()) :
    ∃ poll, prior.lsn ≤ outside.confirmed rereads poll := by
  induction left generalizing polled with
  | zero =>
    rw [awaitConfirmed] at waited
    split at waited
    next passed => exact ⟨polled, passed⟩
    next => cases waited
  | succ left ih =>
    rw [awaitConfirmed] at waited
    split at waited
    next passed => exact ⟨polled, passed⟩
    next =>
      split at waited
      next => cases waited
      next => exact ih waited

variable {e : SettleError}

/-- The wait fails unresolved, or because a sleep was cut short. -/
theorem awaitConfirmed_error {outside : Outside} {polled : ℕ}
    (failed : awaitConfirmed outside prior rereads left polled = .error e) :
    (∃ unresolved, e = .unresolved unresolved) ∨
      ∃ poll cause, outside.sleep rereads poll = some cause ∧ e = .waiting prior cause := by
  induction left generalizing polled with
  | zero =>
    rw [awaitConfirmed] at failed
    split at failed
    next => cases failed
    next =>
      cases failed
      exact Or.inl ⟨_, rfl⟩
  | succ left ih =>
    rw [awaitConfirmed] at failed
    split at failed
    next => cases failed
    next =>
      split at failed
      next cause asleep =>
        cases failed
        exact Or.inr ⟨polled, cause, asleep, rfl⟩
      next => exact ih failed

variable {polls : ℕ}

theorem rereadOnce_ok {outside : Outside}
    (reread : rereadOnce outside polls prior rereads = .ok now) :
    (∃ poll, prior.lsn ≤ outside.confirmed rereads poll) ∧ outside.read rereads = .ok now := by
  rw [rereadOnce] at reread
  split at reread
  next => cases reread
  next waited =>
    split at reread
    next => cases reread
    next found =>
      cases reread
      exact ⟨awaitConfirmed_ok waited, found⟩

/-- What a settle can end in short of a verdict: the chunk left unresolved, or a wait or a read that
failed. -/
def FailsBy (outside : Outside) (e : SettleError) : Prop :=
  (∃ unresolved, e = .unresolved unresolved) ∨
    (∃ prior round poll cause, outside.sleep round poll = some cause ∧ e = .waiting prior cause) ∨
    ∃ round cause, outside.read round = .error cause ∧ e = .read cause

theorem rereadOnce_error {outside : Outside}
    (failed : rereadOnce outside polls prior rereads = .error e) : FailsBy outside e := by
  rw [rereadOnce] at failed
  split at failed
  next waiting =>
    cases failed
    exact (awaitConfirmed_error waiting).imp_right fun ⟨poll, cause, asleep, same⟩ =>
      Or.inl ⟨prior, rereads, poll, cause, asleep, same⟩
  next =>
    split at failed
    next cause refused =>
      cases failed
      exact Or.inr (Or.inr ⟨rereads, cause, refused, rfl⟩)
    next => cases failed

/-- The two reads a settle's verdict compares: the reads of two rounds in a row, or the read the
settle started from and the first reread, the later one taken after the catch-up confirmed past the
earlier one. -/
structure Compared (outside : Outside) (start : Observation) (first : ℕ) (prior now : Observation)
    (round : ℕ) : Prop where
  from_first : first ≤ round
  earlier : (round = first ∧ prior = start) ∨
    ∃ before, first ≤ before ∧ round = before + 1 ∧ outside.read before = .ok prior
  confirmed : ∃ poll, prior.lsn ≤ outside.confirmed round poll
  reread : outside.read round = .ok now

theorem compared_start {outside : Outside} {start : Observation}
    (reread : rereadOnce outside polls start rereads = .ok now) :
    Compared outside start rereads start now rereads :=
  ⟨le_refl _, Or.inl ⟨rfl, rfl⟩, (rereadOnce_ok reread).1, (rereadOnce_ok reread).2⟩

/-- A comparison of the loop that goes on from a reread is one of the whole loop. -/
theorem Compared.back {outside : Outside} {start next : Observation} {first round : ℕ}
    (compared : Compared outside next (first + 1) prior now round)
    (reread : outside.read first = .ok next) : Compared outside start first prior now round where
  from_first := Nat.le_of_succ_le compared.from_first
  earlier := by
    right
    rcases compared.earlier with ⟨here, same⟩ | ⟨before, low, here, read⟩
    · exact ⟨first, le_refl _, here, same ▸ reread⟩
    · exact ⟨before, Nat.le_of_succ_le low, here, read⟩
  confirmed := compared.confirmed
  reread := compared.reread

/-- **A verdict is the judgement of two reads the catch-up confirmed between.** -/
theorem settleLoop_ok {outside : Outside} {start : Observation} {done : Settling}
    (settles : settleLoop outside polls left start rereads = .ok done) :
    1 ≤ done.rereads ∧ done.verdict ≠ .hot ∧
      ∃ prior, Compared outside start rereads prior done.last (done.rereads - 1) ∧
        done.verdict = judge prior done.last := by
  induction left generalizing start rereads with
  | zero =>
    rw [settleLoop] at settles
    split at settles
    next => cases settles
    next reread =>
      split at settles
      next cool =>
        cases settles
        exact ⟨Nat.le_add_left 1 rereads, cool, start, compared_start reread, rfl⟩
      next => cases settles
  | succ left ih =>
    rw [settleLoop] at settles
    split at settles
    next => cases settles
    next reread =>
      split at settles
      next cool =>
        cases settles
        exact ⟨Nat.le_add_left 1 rereads, cool, start, compared_start reread, rfl⟩
      next =>
        obtain ⟨counted, cool, prior, compared, verdict⟩ := ih settles
        exact ⟨counted, cool, prior, compared.back (rereadOnce_ok reread).2, verdict⟩

/-- A settle fails only by what its reads and waits are answered. -/
theorem settleLoop_error {outside : Outside} {start : Observation}
    (failed : settleLoop outside polls left start rereads = .error e) : FailsBy outside e := by
  induction left generalizing start rereads with
  | zero =>
    rw [settleLoop] at failed
    split at failed
    next refused =>
      cases failed
      exact rereadOnce_error refused
    next =>
      split at failed
      next => cases failed
      next =>
        cases failed
        exact Or.inl ⟨_, rfl⟩
  | succ left ih =>
    rw [settleLoop] at failed
    split at failed
    next refused =>
      cases failed
      exact rereadOnce_error refused
    next =>
      split at failed
      next => cases failed
      next => exact ih failed

/-! ### A clean verdict -/

/-- A table's rows, by key. -/
abbrev Contents := Key → Option Row

/-- Equal digests of the chunk mean equal contents of it. -/
def Exact (columns : List Name) (chunk : Chunk) (digest : Contents → Digest) : Prop :=
  ∀ x y, digest x = digest y → ∀ key, chunk.covers key = true → Matches columns (x key) (y key)

/-- `source` is the digest of what a snapshot saw of the source, and `lsn` lies above every commit
the snapshot saw. -/
def ReadAt (digest : Contents → Digest) (base : Contents) (log : List Committed) (source : Digest)
    (lsn : LSN) : Prop :=
  ∃ seen : Committed → Bool, source = digest (semantics.rowAfter base (log.filter seen)) ∧
    ∀ c ∈ log, seen c = true → c.commit < lsn

/-- The reads of a pass while the stream writes the source's changes to a shadow that held
`initial`: at round `i` it has written the first `applied i` of them, and by then every change
committed at or below a position the catch-up has confirmed. -/
structure Streamed (digest : Contents → Digest) (base initial : Contents) (log : List Committed)
    (outside : Outside) (start : Observation) (applied : ℕ → ℕ) : Prop where
  ordered : log.Pairwise fun a b => a.commit ≤ b.commit
  start : ReadAt digest base log start.source start.lsn
  source : ∀ round now, outside.read round = .ok now → ReadAt digest base log now.source now.lsn
  shadow : ∀ round now, outside.read round = .ok now →
    now.shadow = digest (semantics.rowAt initial log (applied round))
  written : ∀ (round poll i : ℕ) (c : Committed), log[i]? = some c →
    c.commit ≤ outside.confirmed round poll → i < applied round

section Clean

variable {columns : List Name} {chunk : Chunk} {digest : Contents → Digest}
  {base initial : Contents}
  {log : List Committed} {outside : Outside} {start : Observation} {applied : ℕ → ℕ} {key : Key}

/-- Under a key the history leaves alone, a shadow whose digest equals one of the source's holds the
source's row. -/
theorem ReadAt.matches {source : Digest} {lsn : LSN} {shadow : Contents}
    (read : ReadAt digest base log source lsn) (exact : Exact columns chunk digest)
    (same : digest shadow = source) (covered : chunk.covers key = true)
    (untouched : ∀ c ∈ log, ¬ semantics.touches c key) :
    Matches columns (shadow key) (base key) := by
  obtain ⟨seen, rfl, -⟩ := read
  have equal := exact _ _ same key covered
  rwa [KeyedLog.rowAfter_of_untouched fun c member => untouched c (List.mem_filter.mp member).1]
    at equal

/-- **A clean verdict is sound**: applying the changes above the confirmed position makes the
shadow's chunk equal to the source's, whatever the shadow held at first. -/
theorem settled_chunk_converges (columns : List Name) (chunk : Chunk) (digest : Contents → Digest)
    (exact : Exact columns chunk digest) (base initial : Contents) (log : List Committed)
    (outside : Outside) (start : Observation) (applied : ℕ → ℕ)
    (streamed : Streamed digest base initial log outside start applied) (attempts polls rereads : ℕ)
    (done : Settling) (settles : settle outside attempts polls start rereads = .ok done)
    (clean : done.verdict = .equal ∨ done.verdict = .settled) (poll : ℕ) (key : Key)
    (covered : chunk.covers key = true) :
    Matches columns
      (semantics.rowAfter (semantics.rowAt initial log (applied (done.rereads - 1)))
        (log.filter fun c => outside.confirmed (done.rereads - 1) poll < c.commit) key)
      (semantics.rowAfter base log key) := by
  obtain ⟨-, -, prior, compared, verdict⟩ := settleLoop_ok settles
  by_cases touched : ∃ c ∈ log, semantics.touches c key
  · -- whatever the shadow held under a key the history touches has been or will be overwritten
    have replayed : semantics.rowAfter (semantics.rowAt initial log (applied (done.rereads - 1)))
        (log.filter fun c => (outside.confirmed (done.rereads - 1) poll).toNat < c.commit.toNat) key
          = semantics.rowAfter base log key :=
      KeyedLog.rowAfter_above_of_touched semantics_overwrites
        (streamed.ordered.imp fun below => UInt64.le_iff_toNat_le.mp below)
        (fun i c here low => streamed.written _ poll i c here (UInt64.le_iff_toNat_le.mpr low))
        touched
    simp only [← UInt64.lt_iff_toNat_lt] at replayed
    rw [replayed]
    exact Matches.refl _
  · have untouched : ∀ c ∈ log, ¬ semantics.touches c key := fun c member touches =>
      touched ⟨c, member, touches⟩
    have shadow := streamed.shadow _ _ compared.reread
    rw [KeyedLog.rowAfter_of_untouched fun c member => untouched c (List.mem_filter.mp member).1,
      KeyedLog.rowAfter_of_untouched untouched]
    rcases clean with equal | settled
    · rw [verdict, judge_equal] at equal
      exact (streamed.source _ _ compared.reread).matches exact (shadow ▸ equal) covered untouched
    · rw [verdict] at settled
      have earlier : ReadAt digest base log prior.source prior.lsn := by
        rcases compared.earlier with ⟨-, rfl⟩ | ⟨before, -, -, read⟩
        · exact streamed.start
        · exact streamed.source _ _ read
      exact earlier.matches exact (shadow ▸ judge_settled settled) covered untouched

end Clean

/-- The one key 1. -/
def keyOne : Chunk := ⟨1, 1, 0, by decide⟩

/-- A digest of the column `v` of row 1 that keeps its whole text. -/
def textDigest (x : Contents) : Digest :=
  match x 1 with
  | none => ⟨0, ""⟩
  | some row =>
    match row "v" with
    | none => ⟨1, ""⟩
    | some text => ⟨2, text⟩

/-- The text itself is a digest that loses nothing. -/
theorem textDigest_exact : Exact ["v"] keyOne textDigest := by
  intro x y same key covered
  obtain rfl : key = 1 := by
    obtain ⟨low, high⟩ := Chunk.covers_iff.mp covered
    have bounds : (1 : Int64) ≤ key ∧ key ≤ 1 := ⟨low, high⟩
    grind
  cases left : x 1 with
  | none =>
    cases right : y 1 with
    | none => trivial
    | some b =>
      cases text : b "v" <;> simp [textDigest, left, right, text] at same
  | some a =>
    cases right : y 1 with
    | none => cases text : a "v" <;> simp [textDigest, left, right, text] at same
    | some b =>
      intro name member
      obtain rfl := List.mem_singleton.mp member
      cases one : a "v" <;> cases other : b "v" <;>
        simp_all [textDigest]

/-- Row 1 with text `text`. -/
def rowOne (text : String) : Contents :=
  fun key => if key = 1 then some fun _ => some text else none

/-- An update of row 1 to `text`, committed at `commit`. -/
def setOne (text : String) (commit : LSN) : Committed :=
  ⟨.update 1 1 (fun _ => some text) [], commit, commit⟩

/-- A read of row 1. -/
def readOne (source shadow : String) (lsn : LSN) : Observation :=
  ⟨keyOne, textDigest (rowOne source), textDigest (rowOne shadow), lsn⟩

/-- The catch-up has confirmed `confirmed` and every reread is `now`. -/
def alwaysReads (confirmed : LSN) (now : Observation) : Outside where
  confirmed _ _ := confirmed
  sleep _ _ := none
  read _ := .ok now

/-- A shadow one change behind converges. -/
theorem settled_chunk_converges_behind :
    Matches ["v"]
      (semantics.rowAfter (semantics.rowAt (rowOne "x") [setOne "b" 10, setOne "c" 30] 1)
        ([setOne "b" 10, setOne "c" 30].filter fun c => (15 : LSN) < c.commit) 1)
      (semantics.rowAfter (rowOne "a") [setOne "b" 10, setOne "c" 30] 1) := by
  refine settled_chunk_converges ["v"] keyOne textDigest textDigest_exact (rowOne "a") (rowOne "x")
    [setOne "b" 10, setOne "c" 30] (alwaysReads 15 (readOne "c" "b" 35)) (readOne "b" "x" 12)
    (fun _ => 1) ?_ 3 300 0 ⟨.settled, readOne "c" "b" 35, 1⟩ (by decide) (Or.inr rfl) 0 1
    (by decide)
  refine ⟨by simp [setOne], ⟨fun c => c.commit ≤ 10, by decide, by simp [setOne, readOne]⟩,
    ?_, ?_, ?_⟩
  · rintro round now ⟨⟩
    exact ⟨fun _ => true, by decide, by simp [setOne, readOne]⟩
  · rintro round now ⟨⟩
    decide
  · rintro round poll i c here low
    rcases i with _ | _ | i
    · exact Nat.one_pos
    · cases here
      exact absurd (show (30 : LSN) ≤ 15 from low) (by decide)
    · cases here

/-! ### A shadow that lags -/

/-- The digest of the source's contents of a chunk as of each position. -/
def asOf (digest : Contents → Digest) (base : Contents) (log : List Committed) (position : LSN) :
    Digest :=
  digest (semantics.rowAfter base (log.filter fun c => c.commit ≤ position))

/-- Every read finds the source as of some position at or below its marker, and the shadow as of an
earlier one that never goes back and has reached what the catch-up confirmed before the read. -/
structure Lags (contents : LSN → Digest) (outside : Outside) (start : Observation)
    (startSource startShadow : LSN) (sourceAt shadowAt : ℕ → LSN) : Prop where
  start_source : start.source = contents startSource
  start_shadow : start.shadow = contents startShadow
  start_lags : startShadow ≤ startSource
  start_marked : startSource ≤ start.lsn
  source : ∀ round now, outside.read round = .ok now → now.source = contents (sourceAt round)
  shadow : ∀ round now, outside.read round = .ok now → now.shadow = contents (shadowAt round)
  lags : ∀ round, shadowAt round ≤ sourceAt round
  marked : ∀ round now, outside.read round = .ok now → sourceAt round ≤ now.lsn
  confirmed : ∀ round poll, outside.confirmed round poll ≤ shadowAt round
  forward : ∀ round, startShadow ≤ shadowAt round ∧ shadowAt round ≤ shadowAt (round + 1)

/-- The contents go from one state to another, back, and to the other again. -/
def Alternates (contents : LSN → Digest) : Prop :=
  ∃ first second third fourth, first ≤ second ∧ second ≤ third ∧ third ≤ fourth ∧
    contents third = contents first ∧ contents fourth = contents second ∧
    contents first ≠ contents second

/-- The settle found the chunk equal or settled, or returned no verdict. -/
def ClearOfDivergence (outside : Outside) : Except SettleError Settling → Prop
  | .ok done => done.verdict = .equal ∨ done.verdict = .settled
  | .error e => FailsBy outside e

/-- A verdict that diverged shows the source alternating between two contents. -/
theorem Lags.alternates {contents : LSN → Digest} {outside : Outside} {start : Observation}
    {startSource startShadow : LSN} {sourceAt shadowAt : ℕ → LSN}
    (lags : Lags contents outside start startSource startShadow sourceAt shadowAt) {first round : ℕ}
    (compared : Compared outside start first prior now round)
    (diverged : judge prior now = .diverged) : Alternates contents := by
  obtain ⟨apart, -, sameSource, sameShadow⟩ := judge_diverged.mp diverged
  obtain ⟨poll, passed⟩ := compared.confirmed
  have reached : prior.lsn ≤ shadowAt round := UInt64.le_trans passed (lags.confirmed round poll)
  have nowSource := lags.source _ _ compared.reread
  have nowShadow := lags.shadow _ _ compared.reread
  rcases compared.earlier with ⟨-, rfl⟩ | ⟨before, -, -, read⟩
  · refine ⟨startShadow, startSource, shadowAt round, sourceAt round, lags.start_lags,
      UInt64.le_trans lags.start_marked reached, lags.lags round, ?_, ?_, ?_⟩
    · rw [← nowShadow, sameShadow, lags.start_shadow]
    · rw [← nowSource, sameSource, lags.start_source]
    · rw [← lags.start_shadow, ← lags.start_source, ← sameSource, ← sameShadow]
      exact apart
  · have priorSource := lags.source _ _ read
    have priorShadow := lags.shadow _ _ read
    refine ⟨shadowAt before, sourceAt before, shadowAt round, sourceAt round, lags.lags before,
      UInt64.le_trans (lags.marked _ _ read) reached, lags.lags round, ?_, ?_, ?_⟩
    · rw [← nowShadow, sameShadow, priorShadow]
    · rw [← nowSource, sameSource, priorSource]
    · rw [← priorShadow, ← priorSource, ← sameSource, ← sameShadow]
      exact apart

/-- The read and the reread that meet an alternation at its four positions. -/
theorem settle_of_alternation {contents : LSN → Digest} {first second third fourth : LSN}
    (chunk : Chunk) (back : contents third = contents first)
    (again : contents fourth = contents second) (apart : contents first ≠ contents second)
    (attempts polls rereads : ℕ) :
    settle (alwaysReads second ⟨chunk, contents fourth, contents third, fourth⟩) attempts polls
        ⟨chunk, contents second, contents first, second⟩ rereads
      = .ok ⟨.diverged, ⟨chunk, contents fourth, contents third, fourth⟩, rereads + 1⟩ := by
  have verdict : judge ⟨chunk, contents second, contents first, second⟩
      ⟨chunk, contents fourth, contents third, fourth⟩ = .diverged :=
    judge_diverged.mpr ⟨by simpa [back, again] using apart, by simpa [back] using apart,
      again, back⟩
  have reread :
      rereadOnce (alwaysReads second ⟨chunk, contents fourth, contents third, fourth⟩) polls
        ⟨chunk, contents second, contents first, second⟩ rereads
        = .ok ⟨chunk, contents fourth, contents third, fourth⟩ := by
    cases polls <;> simp [rereadOnce, awaitConfirmed, alwaysReads]
  rw [settle]
  cases attempts - (rereads + 1) <;> simp [settleLoop, reread, verdict]

/-- **A lagging shadow is never called divergent exactly when the source's contents of the chunk do
not alternate.** -/
theorem never_diverged_iff (digest : Contents → Digest) (base : Contents) (log : List Committed) :
    (∀ (outside : Outside) (start : Observation) (startSource startShadow : LSN)
      (sourceAt shadowAt : ℕ → LSN),
      Lags (asOf digest base log) outside start startSource startShadow sourceAt shadowAt →
      ∀ attempts polls rereads,
        ClearOfDivergence outside (settle outside attempts polls start rereads)) ↔
      ¬ Alternates (asOf digest base log) := by
  constructor
  · rintro clear ⟨first, second, third, fourth, early, middle, late, back, again, apart⟩
    have verdict := clear
      (alwaysReads second ⟨keyOne, asOf digest base log fourth, asOf digest base log third, fourth⟩)
      ⟨keyOne, asOf digest base log second, asOf digest base log first, second⟩ second first
      (fun _ => fourth) (fun _ => third)
      { start_source := rfl
        start_shadow := rfl
        start_lags := early
        start_marked := UInt64.le_refl second
        source := by rintro round now ⟨⟩; rfl
        shadow := by rintro round now ⟨⟩; rfl
        lags := fun _ => late
        marked := by rintro round now ⟨⟩; exact UInt64.le_refl fourth
        confirmed := fun _ _ => middle
        forward := fun _ => ⟨UInt64.le_trans early middle, UInt64.le_refl third⟩ } 1 0 0
    rw [settle_of_alternation keyOne back again apart] at verdict
    rcases verdict with equal | settled
    · cases equal
    · cases settled
  · intro steady outside start startSource startShadow sourceAt shadowAt lags attempts polls rereads
    cases result : settle outside attempts polls start rereads with
    | error e => exact settleLoop_error result
    | ok done =>
      obtain ⟨-, cool, prior, compared, verdict⟩ := settleLoop_ok result
      rw [ClearOfDivergence, verdict]
      rw [verdict] at cool
      cases judged : judge prior done.last with
      | equal => exact Or.inl rfl
      | settled => exact Or.inr rfl
      | hot => exact absurd judged cool
      | diverged => exact absurd (lags.alternates compared judged) steady

/-- Row 1 goes from `a` to `b`, back to `a`, and to `b` again. The first read finds the source at
`b` and the shadow at `a`; the reread finds the source at the second `b` and the shadow at the
second `a`, past everything the first read saw. -/
theorem alternating_row_diverged :
    ∃ (outside : Outside) (start last : Observation) (sourceAt shadowAt : ℕ → LSN),
      Lags (asOf textDigest (rowOne "a") [setOne "b" 10, setOne "a" 20, setOne "b" 30])
        outside start 10 5 sourceAt shadowAt ∧
      settle outside 3 300 start 0 = .ok ⟨.diverged, last, 1⟩ := by
  refine ⟨alwaysReads 15 (readOne "b" "a" 35), readOne "b" "a" 12, readOne "b" "a" 35, fun _ => 30,
    fun _ => 20, ?_, by decide⟩
  exact
    { start_source := by decide
      start_shadow := by decide
      start_lags := by decide
      start_marked := by decide
      source := by rintro round now ⟨⟩; decide
      shadow := by rintro round now ⟨⟩; decide
      lags := fun _ => by decide
      marked := by rintro round now ⟨⟩; decide
      confirmed := fun _ _ => show (15 : LSN) ≤ 20 by decide
      forward := fun _ => by decide }

end PgSprite.Checksum
