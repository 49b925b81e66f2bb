/-
**The sweep of a verification pass.**

`sweep` cuts and compares every chunk at or below a watermark, as a function of what the server
answers each chunk's transaction; besides the source's results it returns the comparisons it made.
`sweep_ok`: a sweep that ends has compared every key up to the watermark in exactly one chunk, and
has kept every difference it read. `sweep_compares_each_key_once`: on a table that answers, it ends.
-/

import PgSprite.Checksum.Settle
import PgSprite.Copier.Chunker
import PgSprite.Lib.Except

namespace PgSprite.Checksum

open PgSprite.Decode PgSprite.Copier PgSprite.Dbconn PgSprite.Lib

/-- A chunk whose two sides differed. -/
structure Mismatch where
  chunk : Chunk
  source : Digest
  shadow : Digest
  deriving DecidableEq

/-- What a pass compared and found. -/
structure Report where
  through : Watermark
  chunks : ℕ := 0
  rows : Int64 := 0
  mismatches : List Mismatch := []
  settled : ℕ := 0
  unsettled : ℕ := 0
  deriving DecidableEq

/-- No difference was confirmed and none was left open. -/
def Report.clean (r : Report) : Bool := r.mismatches.isEmpty && r.unsettled == 0

/-- One chunk a pass recopied: the difference it found, and the rows it removed and put back. -/
structure Repair where
  mismatch : Mismatch
  removed : Int64
  inserted : Int64 := 0
  deriving DecidableEq

/-- What a pass does with a difference. -/
inductive DivergencePolicy where
  | abort
  | repair
  | recopy
  | other (value : String)
  deriving DecidableEq, Repr

namespace DivergencePolicy

/-- A pass names one of the three policies. -/
def valid : DivergencePolicy → Bool
  | abort | repair | recopy => true
  | other _ => false

end DivergencePolicy

/-- Why a pass stopped. -/
inductive PassError where
  | failed (cause : Failure)
  | chunker (cause : ChunkerError Failure)
  | verifiedChunk (lower upper : Key)
  | nothingLanded
  | passRunning
  | noDivergencePolicy (policy : DivergencePolicy)
  | invalidOptions
  | lockLost (cause : Failure)
  | settle (cause : SettleError)
  | divergence (report : Report)
  | repair (repair : Repair) (after : Mismatch)
  | collided (chunks attempts : ℕ) (cause : PassError)
  | policyPassedValidation (policy : DivergencePolicy)
  | verdictAfterSettle (verdict : Verdict)
  | verify (cause : PassError)

namespace PassError

/-- The SQLSTATE of the server error an error wraps. -/
def sqlstate : PassError → Option String
  | failed cause => cause.sqlstate
  | chunker (.query cause) => cause.sqlstate
  | lockLost cause => cause.sqlstate
  | settle (.waiting _ cause) => cause.sqlstate
  | settle (.read cause) => cause.sqlstate
  | collided _ _ cause => cause.sqlstate
  | verify cause => cause.sqlstate
  | _ => none

end PassError

/-- Whether the server refused a recopy's insert because a shadow row already holds one of its
values under a unique index or an exclusion constraint. -/
def collided (e : PassError) : Bool :=
  e.sqlstate = some "23505" || e.sqlstate = some "23P01"

/-! ### The sweep -/

/-- What the server answers the transaction that cuts and reads one chunk, the digests by the range
asked for, and the row count its duration proposes for the next. -/
structure ChunkRead where
  begins : Option Failure := none
  boundary : Except Failure Boundary
  source : Chunk → Except Failure Digest
  shadow : Chunk → Except Failure Digest
  mark : Except Failure LSN := .ok 0
  commits : Option Failure := none
  sized : RowCount := .initial

/-- One chunk of a pass: the chunk cut, the range compared, and its two digests. -/
structure Comparison where
  cut : Chunk
  compared : Chunk
  source : Digest
  shadow : Digest
  lsn : LSN
  deriving DecidableEq

/-- A statement that succeeds or fails. -/
def executed : Option Failure → Except PassError Unit
  | none => .ok ()
  | some cause => .error (.failed cause)

/-- A statement that answers. -/
def answered {α : Type} : Except Failure α → Except PassError α
  | .ok a => .ok a
  | .error cause => .error (.failed cause)

/-- The position of the marker a live pass writes beside a difference; no other read marks one. -/
def markPosition (live : Bool) (read : ChunkRead) (source shadow : Digest) : Except PassError LSN :=
  if live && source ≠ shadow then answered read.mark else .ok 0

/-- Reads both sides of the part of a cut chunk at or below `through`, marking the position of a
live pass's difference. -/
def compareCut (cut : Chunk) (through : Key) (live : Bool) (read : ChunkRead) :
    Except PassError Comparison :=
  match newChunk cut.lower (if cut.upper ≤ through then cut.upper else through) with
  | none => .error (.verifiedChunk cut.lower (if cut.upper ≤ through then cut.upper else through))
  | some compared => do
      let source ← answered (read.source compared)
      let shadow ← answered (read.shadow compared)
      let lsn ← markPosition live read source shadow
      executed read.commits
      .ok ⟨cut, compared, source, shadow, lsn⟩

/-- Cuts the next chunk and reads both sides of it in one transaction; none once the key space is
covered. -/
def compareNext (chunker : Chunker) (through : Key) (live : Bool) (read : ChunkRead) :
    Except PassError (Option (Comparison × Chunker)) := do
  executed read.begins
  match chunker.nextChunk read.boundary with
  | .error e => .error (.chunker e)
  | .ok none => do
      executed read.commits
      .ok none
  | .ok (some (cut, after)) => do
      let compared ← compareCut cut through live read
      .ok (some (compared, after))

/-- What a sweep has found so far, with every comparison it made. -/
structure Swept where
  report : Report
  differing : List Observation := []
  compared : List Comparison := []

/-- Takes one comparison into the sweep: a quiesced sweep reports a difference as a mismatch, a
live one keeps it to be settled. -/
def Swept.add (live : Bool) (s : Swept) (next : Comparison) : Swept where
  report := { s.report with
    chunks := s.report.chunks + 1
    rows := s.report.rows + next.source.rows
    mismatches :=
      if next.source ≠ next.shadow ∧ live = false then
        s.report.mismatches ++ [⟨next.compared, next.source, next.shadow⟩]
      else s.report.mismatches }
  differing :=
    if next.source ≠ next.shadow ∧ live = true then
      s.differing ++ [⟨next.compared, next.source, next.shadow, next.lsn⟩]
    else s.differing
  compared := s.compared ++ [next]

/-- The context ended. -/
def contextCanceled : Failure := { text := "context canceled" }

/-- Compares chunk after chunk; a context that ends ends the answers. -/
def sweepLoop (through : Key) (live : Bool) :
    Chunker → Swept → List ChunkRead → Except PassError Swept
  | _, _, [] => .error (.failed contextCanceled)
  | chunker, swept, read :: rest =>
    match compareNext chunker through live read with
    | .error e => .error e
    | .ok none => .ok swept
    | .ok (some (next, after)) =>
      if next.compared.upper = through then .ok (swept.add live next)
      else
        match after.feedback next.cut read.sized with
        | .error e => .error (.chunker e)
        | .ok sized => sweepLoop through live sized (swept.add live next) rest

/-- Cuts and compares every chunk at or below `through`. -/
def sweep (through : Key) (live : Bool) (reads : List ChunkRead) (rows : RowCount := .initial) :
    Except PassError Swept :=
  sweepLoop through live (Chunker.newChunker none rows)
    { report := { through := some through } } reads

/-- What the server answers one comparison of the whole table. -/
structure PassReads where
  statements : Option Failure := none
  chunks : List ChunkRead

/-- The lock's loss explains an error where the session has reported one. -/
def lostOr (lost : Option Failure) (e : PassError) : PassError :=
  match lost with
  | none => e
  | some cause => .lockLost cause

/-- The quiesced pass. -/
def pass (through : Key) (reads : PassReads) : Except PassError Swept := do
  executed reads.statements
  sweep through false reads.chunks

/-- The pass `check` runs: nothing landed is refused, and so is a pass whose lock was lost. -/
def verify (through : Watermark) (reads : PassReads) (lost : Option Failure) :
    Except PassError Swept :=
  match through with
  | none => .error .nothingLanded
  | some key =>
    match pass key reads with
    | .error e => .error (lostOr lost e)
    | .ok swept =>
      match lost with
      | some cause => .error (.lockLost cause)
      | none => .ok swept

/-! ### What a sweep has compared -/

theorem answered_ok {α : Type} {answer : Except Failure α} {a : α} :
    answered answer = .ok a ↔ answer = .ok a := by
  cases answer <;> simp [answered]

theorem executed_ok {statement : Option Failure} {u : Unit} :
    executed statement = .ok u ↔ statement = none := by
  cases statement <;> simp [executed]

/-- One transaction, which committed, answered the two digests of the range. -/
structure ChunkRead.Answers (read : ChunkRead) (range : Chunk) (source shadow : Digest) : Prop where
  begins : read.begins = none
  source : read.source range = .ok source
  shadow : read.shadow range = .ok shadow
  commits : read.commits = none

/-- The comparison is what the transaction answered, its position that of the marker the transaction
wrote where a live pass read a difference. -/
def ChunkRead.Made (read : ChunkRead) (live : Bool) (c : Comparison) : Prop :=
  read.Answers c.compared c.source c.shadow ∧
    (live = true → c.source ≠ c.shadow → read.mark = .ok c.lsn)

/-- What is compared of a cut chunk is its part through the watermark. -/
theorem compareCut_ok {cut : Chunk} {through : Key} {live : Bool} {read : ChunkRead}
    {next : Comparison} (begins : read.begins = none)
    (compares : compareCut cut through live read = .ok next) :
    (next.cut = cut ∧ next.compared.lower = cut.lower ∧
      next.compared.upper = if cut.upper ≤ through then cut.upper else through) ∧
    read.Made live next := by
  rw [compareCut] at compares
  split at compares
  · cases compares
  next made =>
    simp only [bind_ok, answered_ok, executed_ok] at compares
    obtain ⟨source, first, shadow, second, lsn, marks, _, commits, same⟩ := compares
    cases same
    refine ⟨⟨rfl, newChunk_eq made⟩, ⟨begins, first, second, commits⟩, fun moving differs => ?_⟩
    rw [markPosition, moving, if_pos (by simpa using differs), answered_ok] at marks
    exact marks

/-- The chunk compared next starts where the chunker stands, and moves it past the cut. -/
theorem compareNext_some {chunker after : Chunker} {through : Key} {live : Bool} {read : ChunkRead}
    {next : Comparison}
    (compares : compareNext chunker through live read = .ok (some (next, after))) :
    next.cut.lower = chunker.next ∧ 0 < next.cut.rows ∧ after = chunker.advance next.cut.upper ∧
      next.compared.lower = next.cut.lower ∧
      next.compared.upper = (if next.cut.upper ≤ through then next.cut.upper else through) ∧
      read.Made live next := by
  simp only [compareNext, bind_ok, executed_ok] at compares
  obtain ⟨-, begins, compares⟩ := compares
  split at compares
  · cases compares
  · simp only [bind_ok] at compares
    obtain ⟨-, -, none⟩ := compares
    cases none
  next cut _ cuts =>
    simp only [bind_ok] at compares
    obtain ⟨compared, reads, same⟩ := compares
    cases same
    obtain ⟨lower, sized, moved⟩ := Chunker.nextChunk_some cuts
    obtain ⟨⟨rfl, first, last⟩, read⟩ := compareCut_ok begins reads
    exact ⟨lower, sized ▸ chunker.rows.positive, moved, first, last, read⟩

theorem compareNext_none {chunker : Chunker} {through : Key} {live : Bool} {read : ChunkRead}
    (compares : compareNext chunker through live read = .ok none) : chunker.done = true := by
  simp only [compareNext, bind_ok] at compares
  obtain ⟨-, -, compares⟩ := compares
  split at compares
  · cases compares
  next ended => exact Chunker.nextChunk_none ended
  · simp only [bind_ok] at compares
    obtain ⟨_, _, same⟩ := compares
    cases same

/-- What a sweep's record says of its comparisons: the report counts the mismatches and the kept
observations are the differing chunks, as the sweep is quiesced or live. -/
structure Recorded (through : Watermark) (live : Bool) (s : Swept) : Prop where
  through : s.report.through = through
  settledNone : s.report.unsettled = 0
  quiesced : live = false → ∀ c ∈ s.compared, c.source ≠ c.shadow →
    ⟨c.compared, c.source, c.shadow⟩ ∈ s.report.mismatches
  watched : live = true → ∀ c ∈ s.compared, c.source ≠ c.shadow →
    ⟨c.compared, c.source, c.shadow, c.lsn⟩ ∈ s.differing

theorem mem_ite_concat {α : Type} {p : Prop} [Decidable p] {kept : List α} {next x : α}
    (recorded : x ∈ kept ∨ p ∧ x = next) : x ∈ if p then kept ++ [next] else kept := by
  split
  next => exact List.mem_append.mpr (recorded.imp_right fun here => List.mem_singleton.mpr here.2)
  next fails => exact recorded.resolve_right fun here => fails here.1

/-- A comparison taken in is on record where it found a difference. -/
theorem Recorded.add {through : Watermark} {live : Bool} {s : Swept}
    (recorded : Recorded through live s) (next : Comparison) :
    Recorded through live (s.add live next) where
  through := recorded.through
  settledNone := recorded.settledNone
  quiesced still c member differs := by
    refine mem_ite_concat ((List.mem_append.mp member).imp
      (fun earlier => recorded.quiesced still c earlier differs) fun here => ?_)
    rw [List.mem_singleton.mp here] at differs ⊢
    exact ⟨⟨differs, still⟩, rfl⟩
  watched moving c member differs := by
    refine mem_ite_concat ((List.mem_append.mp member).imp
      (fun earlier => recorded.watched moving c earlier differs) fun here => ?_)
    rw [List.mem_singleton.mp here] at differs ⊢
    exact ⟨⟨differs, moving⟩, rfl⟩

/-- The key lies in exactly one compared chunk. -/
def ComparedOnce (compared : List Comparison) (key : Key) (c : Comparison) : Prop :=
  compared.filter (fun c => c.compared.covers key) = [c]

/-- The ranges a sweep has compared, in order. -/
def Swept.ranges (s : Swept) : List Chunk := s.compared.map Comparison.compared

/-- Each range is the part of the chunk cut that lies at or below `through`. -/
def Swept.Clipped (through : Key) (s : Swept) : Prop :=
  ∀ c ∈ s.compared, c.compared.lower = c.cut.lower ∧
    c.compared.upper = if c.cut.upper ≤ through then c.cut.upper else through

theorem Swept.ranges_add {live : Bool} {s : Swept} {next : Comparison} :
    (s.add live next).ranges = s.ranges ++ [next.compared] := by
  simp [ranges, add]

/-- What holds before each chunk of a sweep: the ranges compared so far are consecutive from the
smallest key on, and the chunker stands at the first key above them. -/
structure Sweeping (through : Key) (live : Bool) (chunker : Chunker) (s : Swept) : Prop where
  unfinished : chunker.done = false
  consecutive : Consecutive none s.ranges
  position : startAfter (top none s.ranges) = (chunker.next, false)
  below : chunker.next ≤ through
  clipped : s.Clipped through
  recorded : Recorded (some through) live s

/-- What a sweep that ends has compared: consecutive ranges through the watermark. -/
structure Complete (through : Key) (live : Bool) (s : Swept) : Prop where
  consecutive : Consecutive none s.ranges
  ends : top none s.ranges = some through
  clipped : s.Clipped through
  recorded : Recorded (some through) live s

section Loop

variable {through : Key} {live : Bool} {chunker after : Chunker} {s ended : Swept}
  {read : ChunkRead} {next : Comparison}

theorem sweeping_start (rows : RowCount) :
    Sweeping through live (Chunker.newChunker none rows)
      { report := { through := some through } } where
  unfinished := rfl
  consecutive := trivial
  position := rfl
  below := Int64.minValue_le through
  clipped := nofun
  recorded :=
    { through := rfl
      settledNone := rfl
      quiesced := fun _ _ member => absurd member List.not_mem_nil
      watched := fun _ _ member => absurd member List.not_mem_nil }

section Next

variable (sweeping : Sweeping through live chunker s)
  (compares : compareNext chunker through live read = .ok (some (next, after)))

include sweeping compares

theorem Sweeping.clipped_add : (s.add live next).Clipped through := by
  obtain ⟨-, -, -, first, last, -⟩ := compareNext_some compares
  intro c member
  rcases List.mem_append.mp member with earlier | here
  · exact sweeping.clipped c earlier
  · rw [List.mem_singleton.mp here]
    exact ⟨first, last⟩

theorem Sweeping.consecutive_add : Consecutive none (s.add live next).ranges := by
  obtain ⟨lower, -, -, first, -⟩ := compareNext_some compares
  rw [Swept.ranges_add, consecutive_concat, first, lower]
  exact ⟨sweeping.consecutive, sweeping.position⟩

theorem Sweeping.last (full : next.compared.upper = through) :
    Complete through live (s.add live next) where
  consecutive := sweeping.consecutive_add compares
  ends := by rw [Swept.ranges_add, top_append, top_cons, top_nil, full]
  clipped := sweeping.clipped_add compares
  recorded := sweeping.recorded.add next

/-- A range that ends short of the watermark was not clipped: the chunker stands above it. -/
theorem Sweeping.onward (short : next.compared.upper ≠ through) (sized : RowCount) :
    after.feedback (ε := Failure) next.cut sized = .ok { after with rows := sized } ∧
      chunker.next < after.next ∧
      Sweeping through live { after with rows := sized } (s.add live next) := by
  obtain ⟨lower, cut, moved, -, last, -⟩ := compareNext_some compares
  have whole : next.compared.upper = next.cut.upper ∧ next.cut.upper ≤ through := by
    by_cases within : next.cut.upper ≤ through
    · rw [last, if_pos within]
      exact ⟨rfl, within⟩
    · rw [if_neg within] at last
      exact absurd last short
  have strict : next.cut.upper < through := by
    rw [whole.1] at short
    have within := whole.2
    grind
  have room : next.cut.upper ≠ Int64.maxValue := by
    have bound := Int64.le_maxValue through
    grind
  rw [Chunker.advance_of_room room] at moved
  refine ⟨Chunker.feedback_of_pos sized cut, ?_, ?_⟩
  · have step := Ledger.lt_succ_of_ne_max room
    have ordered := next.cut.ordered
    rw [moved]
    grind
  · exact
      { unfinished := by rw [moved]; exact sweeping.unfinished
        consecutive := sweeping.consecutive_add compares
        position := by
          rw [Swept.ranges_add, top_append, top_cons, top_nil, whole.1, moved]
          exact startAfter_some.mpr ⟨room, rfl⟩
        below := by
          rw [moved]
          exact Ledger.succ_le_of_lt strict
        clipped := sweeping.clipped_add compares
        recorded := sweeping.recorded.add next }

end Next

/-- A loop that ends has compared consecutive ranges through the watermark. -/
theorem sweepLoop_ok {reads : List ChunkRead} (sweeping : Sweeping through live chunker s)
    (sweeps : sweepLoop through live chunker s reads = .ok ended) :
    Complete through live ended := by
  induction reads generalizing chunker s with
  | nil => cases sweeps
  | cons read rest ih =>
    rw [sweepLoop] at sweeps
    split at sweeps
    next => cases sweeps
    next stopped =>
      have finished := compareNext_none stopped
      rw [sweeping.unfinished] at finished
      cases finished
    next next after compares =>
      split at sweeps
      next full =>
        cases sweeps
        exact sweeping.last compares full
      next short =>
        obtain ⟨fed, -, onward⟩ := sweeping.onward compares short read.sized
        rw [fed] at sweeps
        exact ih onward sweeps

/-- Every comparison of a sweep is what one of its transactions answered. -/
theorem sweepLoop_made {reads : List ChunkRead}
    (sweeps : sweepLoop through live chunker s reads = .ok ended) :
    ∀ c ∈ ended.compared, c ∈ s.compared ∨ ∃ read ∈ reads, read.Made live c := by
  induction reads generalizing chunker s with
  | nil => cases sweeps
  | cons read rest ih =>
    have taken : ∀ next after, compareNext chunker through live read = .ok (some (next, after)) →
        ∀ c ∈ (s.add live next).compared, c ∈ s.compared ∨ read.Made live c := by
      intro next after compares c member
      refine (List.mem_append.mp member).imp_right fun here => ?_
      obtain ⟨-, -, -, -, -, made⟩ := compareNext_some compares
      exact List.mem_singleton.mp here ▸ made
    rw [sweepLoop] at sweeps
    split at sweeps
    next => cases sweeps
    next =>
      cases sweeps
      exact fun c member => .inl member
    next next after compares =>
      have here := taken next after compares
      split at sweeps
      next =>
        cases sweeps
        exact fun c member => (here c member).imp_right fun made => ⟨read, List.mem_cons_self, made⟩
      next =>
        split at sweeps
        next => cases sweeps
        next =>
          intro c member
          rcases ih sweeps c member with earlier | ⟨other, later, made⟩
          · exact (here c earlier).imp_right fun made => ⟨read, List.mem_cons_self, made⟩
          · exact .inr ⟨other, List.mem_cons_of_mem _ later, made⟩

end Loop

/-- **A sweep that ends has compared every key up to the watermark in exactly one chunk**, each by
what one of its transactions answered. -/
theorem sweep_ok {through : Key} {live : Bool} {reads : List ChunkRead} {ended : Swept}
    {rows : RowCount} (sweeps : sweep through live reads rows = .ok ended) :
    Recorded (some through) live ended ∧
      (∀ c ∈ ended.compared, ∃ read ∈ reads, read.Made live c) ∧
      ∀ key, key ≤ through → ∃ c, ComparedOnce ended.compared key c := by
  have complete := sweepLoop_ok (sweeping_start rows) sweeps
  refine ⟨complete.recorded, fun c member => ?_, fun key below => ?_⟩
  · exact (sweepLoop_made sweeps c member).resolve_left List.not_mem_nil
  have once := complete.consecutive.countP_covers key
  rw [complete.ends, Swept.ranges, List.countP_map, List.countP_eq_length_filter] at once
  refine List.length_eq_one_iff.mp (once.trans (if_pos ?_))
  simpa [Watermark.reaches] using below

/-! ### A sweep of a table that answers -/

/-- No statement of the transaction fails. -/
structure ChunkRead.Succeeds (read : ChunkRead) : Prop where
  begins : read.begins = none
  source : ∀ range, (read.source range).isOk = true
  shadow : ∀ range, (read.shadow range).isOk = true
  mark : read.mark.isOk = true
  commits : read.commits = none

/-- The chunker after the transaction, sized by how long it took. -/
def ChunkRead.moves (read : ChunkRead) (chunker : Chunker) : Chunker :=
  match chunker.nextChunk read.boundary with
  | .ok (some (_, after)) => { after with rows := read.sized }
  | _ => chunker

/-- What the first `n` transactions of a sweep are answered, from transaction `i` on, by a table
that changes between them: each answer depends on the bound the chunker asks from. -/
def asked (table : ℕ → Key → ChunkRead) : ℕ → ℕ → Chunker → List ChunkRead
  | 0, _, _ => []
  | n + 1, i, chunker =>
    table i chunker.next :: asked table n (i + 1) ((table i chunker.next).moves chunker)

section Ends

variable {through : Key} {live : Bool} {chunker after : Chunker} {s : Swept} {read : ChunkRead}
  {next : Comparison} {table : ℕ → Key → ChunkRead}

theorem executed_cases (statement : Option Failure) :
    (∃ cause, executed statement = .error (.failed cause) ∧ statement ≠ none) ∨
      executed statement = .ok () := by
  cases statement with
  | none => exact .inr rfl
  | some cause => exact .inl ⟨cause, rfl, nofun⟩

theorem answered_cases {α : Type} (answer : Except Failure α) :
    (∃ cause, answered answer = .error (.failed cause) ∧ answer.isOk = false) ∨
      ∃ a, answered answer = .ok a := by
  cases answer with
  | ok a => exact .inr ⟨a, rfl⟩
  | error cause => exact .inl ⟨cause, rfl, rfl⟩

/-- The part of a chunk at or below a watermark it starts at or below is a range, so it is compared
unless a statement fails. -/
theorem compareCut_cases (live : Bool) (read : ChunkRead) {cut : Chunk}
    (below : cut.lower ≤ through) :
    (∃ cause, compareCut cut through live read = .error (.failed cause) ∧ ¬ read.Succeeds) ∨
      ∃ next, compareCut cut through live read = .ok next := by
  have ordered : cut.lower ≤ if cut.upper ≤ through then cut.upper else through := by
    split
    · exact cut.ordered
    · exact below
  simp only [compareCut, newChunk, dif_pos ordered]
  rcases answered_cases (read.source _) with ⟨cause, failed, bad⟩ | ⟨source, reads⟩
  · rw [failed]
    exact .inl ⟨cause, rfl, fun succeeds => by simp [succeeds.source] at bad⟩
  rcases answered_cases (read.shadow _) with ⟨cause, failed, bad⟩ | ⟨shadow, reads'⟩
  · rw [reads, failed]
    exact .inl ⟨cause, rfl, fun succeeds => by simp [succeeds.shadow] at bad⟩
  have marks : (∃ cause, markPosition live read source shadow = .error (.failed cause) ∧
      ¬ read.Succeeds) ∨ ∃ lsn, markPosition live read source shadow = .ok lsn := by
    unfold markPosition
    split
    · rcases answered_cases read.mark with ⟨cause, failed, bad⟩ | marked
      · exact .inl ⟨cause, failed, fun succeeds => by simp [succeeds.mark] at bad⟩
      · exact .inr marked
    · exact .inr ⟨0, rfl⟩
  rcases marks with ⟨cause, failed, bad⟩ | ⟨lsn, marked⟩
  · rw [reads, reads']
    exact .inl ⟨cause, by simp [failed, Bind.bind, Except.bind], bad⟩
  rcases executed_cases read.commits with ⟨cause, failed, bad⟩ | commits
  · rw [reads, reads']
    exact .inl ⟨cause, by simp [marked, failed, Bind.bind, Except.bind],
      fun succeeds => bad succeeds.commits⟩
  · rw [reads, reads']
    exact .inr ⟨_, by simp [marked, commits, Bind.bind, Except.bind]; rfl⟩

/-- The next chunk is compared unless a statement fails. -/
theorem Sweeping.compareNext_cases (sweeping : Sweeping through live chunker s) {answer : Boundary}
    (answers : read.boundary = .ok answer) (follows : answer.Follows chunker.next) :
    (∃ cause, compareNext chunker through live read = .error (.failed cause) ∧ ¬ read.Succeeds) ∨
      ∃ next after, compareNext chunker through live read = .ok (some (next, after)) ∧
        read.moves chunker = { after with rows := read.sized } := by
  obtain ⟨cut, cuts, lower, -⟩ := Chunker.nextChunk_of_follows sweeping.unfinished follows
  rw [compareNext, answers]
  rcases executed_cases read.begins with ⟨cause, failed, bad⟩ | begins
  · rw [failed]
    exact .inl ⟨cause, rfl, fun succeeds => bad succeeds.begins⟩
  rw [begins, cuts]
  rcases compareCut_cases live read (lower ▸ sweeping.below) with
    ⟨cause, failed, bad⟩ | ⟨next, compares⟩
  · exact .inl ⟨cause, by simp [failed, Bind.bind, Except.bind], bad⟩
  · refine .inr ⟨next, chunker.advance cut.upper, by simp [compares, Bind.bind, Except.bind], ?_⟩
    rw [ChunkRead.moves, answers, cuts]

/-- A table's boundaries never build a range whose bounds are out of order: only a statement's
failure stops the sweep. -/
theorem sweepLoop_error
    (follows : ∀ i lower, ∃ answer, (table i lower).boundary = .ok answer ∧ answer.Follows lower)
    {n i : ℕ} {e : PassError} (sweeping : Sweeping through live chunker s)
    (stops : sweepLoop through live chunker s (asked table n i chunker) = .error e) :
    ∃ cause, e = .failed cause := by
  induction n generalizing i chunker s with
  | zero =>
    cases stops
    exact ⟨_, rfl⟩
  | succ n ih =>
    obtain ⟨answer, answers, after⟩ := follows i chunker.next
    rw [asked, sweepLoop] at stops
    rcases sweeping.compareNext_cases answers after with
      ⟨cause, failed, -⟩ | ⟨next, after, compares, moves⟩
    · rw [failed] at stops
      cases stops
      exact ⟨cause, rfl⟩
    · rw [compares] at stops
      dsimp only at stops
      split at stops
      · cases stops
      next short =>
        obtain ⟨fed, -, onward⟩ := sweeping.onward compares short (table i chunker.next).sized
        rw [fed, moves] at stops
        exact ih onward stops

/-- Each chunk moves the chunker up, so a sweep whose statements succeed ends once it has been
answered as often as there are keys left below the watermark. -/
theorem sweepLoop_ends
    (follows : ∀ i lower, ∃ answer, (table i lower).boundary = .ok answer ∧ answer.Follows lower)
    (succeeds : ∀ i lower, (table i lower).Succeeds) (keys : ℕ) {i : ℕ}
    (sweeping : Sweeping through live chunker s)
    (left : through.toInt - chunker.next.toInt < keys) :
    ∃ ended, ∀ n, keys ≤ n →
      sweepLoop through live chunker s (asked table n i chunker) = .ok ended := by
  induction keys generalizing i chunker s with
  | zero =>
    have below := Int64.le_iff_toInt_le.mp sweeping.below
    omega
  | succ keys ih =>
    obtain ⟨answer, answers, after⟩ := follows i chunker.next
    obtain ⟨next, after, compares, moves⟩ :=
      (sweeping.compareNext_cases answers after).resolve_left fun ⟨_, _, bad⟩ =>
        bad (succeeds i chunker.next)
    by_cases full : next.compared.upper = through
    · refine ⟨s.add live next, fun n enough => ?_⟩
      obtain ⟨n, rfl⟩ := Nat.exists_eq_add_of_le' (Nat.lt_of_lt_of_le keys.succ_pos enough)
      simp only [asked, sweepLoop, compares, if_pos full]
    · obtain ⟨fed, up, onward⟩ := sweeping.onward compares full (table i chunker.next).sized
      have strict := Int64.lt_iff_toInt_lt.mp up
      obtain ⟨ended, ends⟩ := ih (i := i + 1) onward (by dsimp only; omega)
      refine ⟨ended, fun n enough => ?_⟩
      obtain ⟨n, rfl⟩ := Nat.exists_eq_add_of_le' (Nat.lt_of_lt_of_le keys.succ_pos enough)
      simp only [asked, sweepLoop, compares, if_neg full, fed, moves]
      exact ends n (by omega)

end Ends

/-- **The sweep compares every key up to the watermark exactly once.** Whatever boundaries a table
that changes between the cuts answers, no range is built out of order; and where no statement fails
the sweep ends, with ranges that share no key, cover exactly the keys through the watermark, and are
the chunks cut, the last one clipped at it. -/
theorem sweep_compares_each_key_once (through : Key) (live : Bool) (rows : RowCount)
    (table : ℕ → Key → ChunkRead)
    (follows : ∀ i lower, ∃ answer, (table i lower).boundary = .ok answer ∧ answer.Follows lower) :
    (∀ n e, sweep through live (asked table n 0 (.newChunker none rows)) rows = .error e →
      ∃ cause, e = .failed cause) ∧
    ((∀ i lower, (table i lower).Succeeds) →
      ∃ enough ended,
        (∀ n, enough ≤ n →
          sweep through live (asked table n 0 (.newChunker none rows)) rows = .ok ended) ∧
        ended.ranges.Pairwise Ledger.Apart ∧
        (∀ key, (∃ range ∈ ended.ranges, range.covers key = true) ↔ key ≤ through) ∧
        ended.Clipped through) := by
  have start : Sweeping through live (.newChunker none rows)
      { report := { through := some through } } := sweeping_start rows
  refine ⟨fun n e stops => sweepLoop_error follows start stops, fun succeeds => ?_⟩
  obtain ⟨ended, ends⟩ := sweepLoop_ends follows succeeds
    ((through.toInt - Int64.minValue.toInt).toNat + 1) (i := 0) start
    (by simp only [Chunker.newChunker, startAfter]; omega)
  have complete := sweepLoop_ok start (ends _ (Nat.le_refl _))
  refine ⟨_, ended, ends, complete.consecutive.apart, fun key => ?_, complete.clipped⟩
  have reached := complete.consecutive.reaches_top key
  rw [complete.ends] at reached
  rw [← List.any_eq_true, ← Bool.false_or (ended.ranges.any _)]
  exact (iff_of_eq (congrArg (· = true) reached.symm)).trans (by simp [Watermark.reaches])

/-- A table that answers each cut from a key at or below 5 with 5, and any other with no row. -/
def rowsThroughFive (_ : ℕ) (lower : Key) : ChunkRead where
  boundary := .ok (if lower ≤ 5 then .key 5 else .noRow)
  source _ := .ok ⟨1, "a"⟩
  shadow _ := .ok ⟨1, "a"⟩

/-- A sweep over five rows, past the last of them. -/
theorem sweep_compares_each_key_once_five :
    ∃ n ended, sweep 7 false (asked rowsThroughFive n 0 (.newChunker none)) = .ok ended ∧
      ∀ key, (∃ range ∈ ended.ranges, range.covers key = true) ↔ key ≤ 7 := by
  have follows : ∀ i lower, ∃ answer,
      (rowsThroughFive i lower).boundary = .ok answer ∧ answer.Follows lower := by
    intro _ lower
    refine ⟨_, rfl, ?_⟩
    split
    next low => exact low
    next => trivial
  obtain ⟨enough, ended, ends, -, covers, -⟩ :=
    (sweep_compares_each_key_once 7 false .initial rowsThroughFive follows).2
      fun _ _ => ⟨rfl, fun _ => rfl, fun _ => rfl, rfl, rfl⟩
  exact ⟨enough, ended, ends enough (Nat.le_refl _), covers⟩

end PgSprite.Checksum
