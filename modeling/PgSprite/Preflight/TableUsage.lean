/-
**Whether a table is idle.**

The server keeps, for each table and each index, when it was last scanned, until a reset or crash
recovery discards it; a table's last index scan is the latest over the indexes it has when read. A
verdict is given over a window before the read, from what is recorded for the leaves of the table
then.

* `judge_idle` — what the verdict idle says of the evidence;
* `Kept`, `kept_step` — a scan inside the window is still recorded, or the reset time shows that it
  need not be, unless the index that recorded it was dropped;
* `idle_sound` — along every history that drops no such index, an idle table was not scanned;
* `droppedIndex_idle` — a table scanned two minutes ago that is judged idle.
-/

import Mathlib.Data.List.Sort
import Mathlib.Order.Defs.LinearOrder
import PgSprite.Lib.Run

namespace PgSprite.Preflight

open PgSprite.Lib

/-! ### Evidence -/

/-- An instant, in nanoseconds. -/
abbrev Time := Int

abbrev Oid := Nat

structure PartitionUsage where
  schema : String
  name : String
  oid : Oid
  foreign : Bool
  lastSeqScan : Option Time
  lastIdxScan : Option Time

structure LockHolder where
  /-- 0 for a prepared transaction. -/
  pid : Nat
  applicationName : String
  modes : List String
  relationOID : Oid

structure TableUsage where
  partitioned : Bool
  serverVersionNum : Nat
  inRecovery : Bool
  trackCounts : Bool
  trackCountsOffBySetting : Bool
  readAt : Time
  statsReset : Option Time
  leaves : List PartitionUsage
  lockHolders : List LockHolder

inductive UsageOutcome
  | idle
  | recent
  | unknown
  deriving DecidableEq

inductive UsageReason
  | lockHeld
  | seqScanInWindow
  | indexScanInWindow
  | scanTimesNotRecorded
  | inRecovery
  | countsNotTracked
  | countsNotTrackedBySetting
  | statsResetInWindow
  | noPartitions
  | foreignPartition
  | statsStartUnknown
  | noScanInWindow
  deriving DecidableEq

/-- Five minutes. -/
def minUsageWindow : Time := 300000000000

structure UsageWindowError where
  window : Time
  min : Time

structure UsageVerdict where
  outcome : UsageOutcome
  reason : UsageReason
  window : Time
  usage : TableUsage
  leaf : Option Nat

def scanTimesSinceVersionNum : Nat := 160000

def TableUsage.scanTimesRecorded (u : TableUsage) : Bool :=
  u.serverVersionNum ≥ scanTimesSinceVersionNum

/-- A leaf's scan time against the latest so far; of the same time the first wins. -/
def newest (i : Nat) : Option Time → Option (Nat × Time) → Option (Nat × Time)
  | none, latest => latest
  | some t, none => some (i, t)
  | some t, some (j, best) => if best < t then some (i, t) else some (j, best)

/-- The latest of the scan times from a leaf on, with its leaf. -/
def latestFrom (scanTime : PartitionUsage → Option Time) :
    Nat → Option (Nat × Time) → List PartitionUsage → Option (Nat × Time)
  | _, latest, [] => latest
  | i, latest, leaf :: leaves =>
    latestFrom scanTime (i + 1) (newest i (scanTime leaf) latest) leaves

def latestLeaf (leaves : List PartitionUsage) (scanTime : PartitionUsage → Option Time) :
    Option Nat :=
  (latestFrom scanTime 0 none leaves).map (·.1)

def latestScan (leaves : List PartitionUsage) (scanTime : PartitionUsage → Option Time) :
    Option Time :=
  (latestFrom scanTime 0 none leaves).map (·.2)

def insideWindow (t : Option Time) (windowStart : Time) : Bool :=
  match t with
  | none => false
  | some t => !(t < windowStart)

/-- The reason and leaf of the most recent scan, where it is inside the window. -/
def TableUsage.latestScanInWindow (u : TableUsage) (windowStart : Time) :
    Option (UsageReason × Option Nat) :=
  let seqLeaf := latestLeaf u.leaves PartitionUsage.lastSeqScan
  let idxLeaf := latestLeaf u.leaves PartitionUsage.lastIdxScan
  let seq := latestScan u.leaves PartitionUsage.lastSeqScan
  let idx := latestScan u.leaves PartitionUsage.lastIdxScan
  let seqInside := insideWindow seq windowStart
  let idxInside := insideWindow idx windowStart
  if seqInside && idxInside && decide (seq.getD 0 < idx.getD 0) then
    some (.indexScanInWindow, idxLeaf)
  else if seqInside then some (.seqScanInWindow, seqLeaf)
  else if idxInside then some (.indexScanInWindow, idxLeaf)
  else none

def firstForeignLeaf (leaves : List PartitionUsage) : Option Nat := leaves.findIdx? (·.foreign)

def PartitionUsage.neverScanned (p : PartitionUsage) : Bool :=
  p.lastSeqScan.isNone && p.lastIdxScan.isNone

def firstLeafNeverScanned (leaves : List PartitionUsage) : Option Nat :=
  leaves.findIdx? (·.neverScanned)

def TableUsage.leafNeverScannedSinceUnknownStart (u : TableUsage) : Option Nat :=
  if u.statsReset.isSome then none else firstLeafNeverScanned u.leaves

def TableUsage.judgeFrom (u : TableUsage) (windowStart : Time) :
    UsageOutcome × UsageReason × Option Nat :=
  if u.lockHolders.length > 0 then (.recent, .lockHeld, none)
  else if !u.scanTimesRecorded then (.unknown, .scanTimesNotRecorded, none)
  else
    match u.latestScanInWindow windowStart with
    | some (reason, leaf) => (.recent, reason, leaf)
    | none =>
      if u.inRecovery then (.unknown, .inRecovery, none)
      else if !u.trackCounts then (.unknown, .countsNotTracked, none)
      else if u.trackCountsOffBySetting then (.unknown, .countsNotTrackedBySetting, none)
      else if insideWindow u.statsReset windowStart then (.unknown, .statsResetInWindow, none)
      else if u.leaves.length = 0 then (.unknown, .noPartitions, none)
      else
        match firstForeignLeaf u.leaves with
        | some i => (.unknown, .foreignPartition, some i)
        | none =>
          match u.leafNeverScannedSinceUnknownStart with
          | some i => (.unknown, .statsStartUnknown, some i)
          | none => (.idle, .noScanInWindow, none)

def TableUsage.judge (u : TableUsage) (window : Time) : Except UsageWindowError UsageVerdict :=
  if window < minUsageWindow then .error { window, min := minUsageWindow }
  else
    let (outcome, reason, leaf) := u.judgeFrom (u.readAt - window)
    .ok { outcome, reason, window, usage := u, leaf }

/-! ### The server -/

structure Relation where
  oid : Oid
  schema : String
  name : String

/-- A table and the partitions below it. -/
inductive Tree
  | leaf (relation : Relation)
  | partitioned (relation : Relation) (children : List Tree)

mutual

def Tree.relations : Tree → List Relation
  | .leaf relation => [relation]
  | .partitioned relation children => relation :: relationsOf children

def relationsOf : List Tree → List Relation
  | [] => []
  | tree :: trees => tree.relations ++ relationsOf trees

end

mutual

/-- The relations that hold rows. -/
def Tree.leaves : Tree → List Relation
  | .leaf relation => [relation]
  | .partitioned _ children => leavesOf children

def leavesOf : List Tree → List Relation
  | [] => []
  | tree :: trees => tree.leaves ++ leavesOf trees

end

structure Server where
  now : Time
  /-- Whether a relation is a foreign table, for which no statistics are kept. -/
  foreign : Oid → Bool
  seqScans : Oid → Option Time
  idxScans : Oid × Oid → Option Time
  indexes : Oid → List Oid
  statsReset : Option Time
  tree : Tree
  locks : List LockHolder
  /-- Every scan of a table so far, with the time it ended. -/
  scans : List (Oid × Time)

inductive Event
  | seqScan (table : Oid)
  | indexScan (table index : Oid)
  | resetDatabase
  /-- A reset of one table's or one index's statistics. -/
  | resetSingle (relation : Oid)
  | crashRecovery
  | createIndex (table index : Oid)
  | dropIndex (table index : Oid)
  | repartition (tree : Tree)
  | relock (locks : List LockHolder)

/-- The later of a recorded time and another. -/
def later (recorded : Option Time) (t : Time) : Option Time := some (recorded.elim t (max · t))

/-- A sequential scan that ended. -/
def Server.scanTable (s : Server) (table : Oid) (t : Time) : Server :=
  { s with
    now := t
    seqScans :=
      if s.foreign table then s.seqScans
      else Function.update s.seqScans table (later (s.seqScans table) t)
    scans := (table, t) :: s.scans }

/-- An index scan that ended. -/
def Server.scanIndex (s : Server) (table index : Oid) (t : Time) : Server :=
  { s with
    now := t
    idxScans := Function.update s.idxScans (table, index) (later (s.idxScans (table, index)) t)
    scans := (table, t) :: s.scans }

def Server.createIndex (s : Server) (table index : Oid) (t : Time) : Server :=
  { s with now := t, indexes := Function.update s.indexes table (index :: s.indexes table) }

/-- An index dropped with its statistics. -/
def Server.dropIndex (s : Server) (table index : Oid) (t : Time) : Server :=
  { s with
    now := t
    indexes := Function.update s.indexes table ((s.indexes table).filter (· ≠ index))
    idxScans := Function.update s.idxScans (table, index) none }

/-- What an event at a time makes of the server. -/
def step (s : Server) (event : Time × Event) : Option Server :=
  if event.1 < s.now then none
  else
    match event.2 with
    | .seqScan table => some (s.scanTable table event.1)
    | .indexScan table index =>
      if index ∈ s.indexes table ∧ s.foreign table = false then
        some (s.scanIndex table index event.1)
      else none
    | .resetDatabase => some { s with
        now := event.1, seqScans := fun _ => none, idxScans := fun _ => none
        statsReset := some event.1 }
    | .resetSingle relation => some { s with
        now := event.1
        seqScans := Function.update s.seqScans relation none
        idxScans := fun scanned => if scanned.2 = relation then none else s.idxScans scanned
        statsReset := some event.1 }
    | .crashRecovery => some { s with
        now := event.1, seqScans := fun _ => none, idxScans := fun _ => none, statsReset := none }
    | .createIndex table index =>
      if index ∉ s.indexes table ∧ s.idxScans (table, index) = none then
        some (s.createIndex table index event.1)
      else none
    | .dropIndex table index =>
      if index ∈ s.indexes table then some (s.dropIndex table index event.1) else none
    | .repartition tree => some { s with now := event.1, tree }
    | .relock locks => some { s with now := event.1, locks }

/-! ### The read -/

/-- The latest of the recorded times. -/
def latest (times : List (Option Time)) : Option Time :=
  times.foldl (fun best t => t.elim best (later best)) none

structure Facts where
  serverVersionNum : Nat
  inRecovery : Bool
  trackCounts : Bool
  trackCountsOffBySetting : Bool
  readAt : Time

/-- What the statistics say of a leaf; the scan times are read from version 16 on. -/
def Server.usageLeaf (s : Server) (facts : Facts) (relation : Relation) : PartitionUsage :=
  let recorded := decide (facts.serverVersionNum ≥ scanTimesSinceVersionNum) &&
    !s.foreign relation.oid
  { schema := relation.schema
    name := relation.name
    oid := relation.oid
    foreign := s.foreign relation.oid
    lastSeqScan := if recorded then s.seqScans relation.oid else none
    lastIdxScan := if recorded then latest ((s.indexes relation.oid).map fun index =>
      s.idxScans (relation.oid, index)) else none }

/-- By schema, then name. -/
def comparePartitions (a b : PartitionUsage) : Prop :=
  a.schema < b.schema ∨ a.schema = b.schema ∧ a.name ≤ b.name

instance : DecidableRel comparePartitions := fun _ _ => inferInstanceAs (Decidable (_ ∨ _ ∧ _))

inductive ReadError
  | notTable

def Server.readTableUsage (s : Server) (facts : Facts) : Except ReadError TableUsage :=
  let usage (partitioned : Bool) : TableUsage :=
    { partitioned
      serverVersionNum := facts.serverVersionNum
      inRecovery := facts.inRecovery
      trackCounts := facts.trackCounts
      trackCountsOffBySetting := facts.trackCountsOffBySetting
      readAt := facts.readAt
      statsReset := s.statsReset
      leaves := (s.tree.leaves.map (s.usageLeaf facts)).insertionSort comparePartitions
      lockHolders := s.locks.filter fun holder =>
        holder.relationOID ∈ s.tree.relations.map (·.oid) }
  match s.tree with
  | .leaf relation => if s.foreign relation.oid then .error .notTable else .ok (usage false)
  | .partitioned _ _ => .ok (usage true)

/-! ### What the verdict says of the evidence -/

/-- The latest scan is at or after the start's and each leaf's. -/
theorem latestFrom_ge {scanTime : PartitionUsage → Option Time} {leaves : List PartitionUsage} :
    ∀ {i : Nat} {start : Option (Nat × Time)} {t : Time},
      (∃ j best, start = some (j, best) ∧ t ≤ best) ∨ (∃ leaf ∈ leaves, scanTime leaf = some t) →
      ∃ j best, latestFrom scanTime i start leaves = some (j, best) ∧ t ≤ best := by
  induction leaves with
  | nil =>
    rintro i start t (⟨j, best, rfl, le⟩ | ⟨leaf, among, _⟩)
    · exact ⟨j, best, rfl, le⟩
    · cases among
  | cons leaf leaves ih =>
    intro i start t has
    rw [latestFrom]
    refine ih ?_
    obtain ⟨j, best, rfl, le⟩ | ⟨other, among, scanned⟩ := has
    · refine .inl ?_
      cases time : scanTime leaf with
      | none => exact ⟨j, best, rfl, le⟩
      | some t' =>
        by_cases newer : best < t'
        · exact ⟨i, t', if_pos newer, le.trans newer.le⟩
        · exact ⟨j, best, if_neg newer, le⟩
    · obtain rfl | among := List.mem_cons.mp among
      · refine .inl ?_
        rw [scanned]
        cases start with
        | none => exact ⟨i, t, rfl, le_rfl⟩
        | some best =>
          by_cases newer : best.2 < t
          · exact ⟨i, t, if_pos newer, le_rfl⟩
          · exact ⟨best.1, best.2, if_neg newer, not_lt.mp newer⟩
      · exact .inr ⟨other, among, scanned⟩

variable {t : Time}

/-- **A scan of any leaf inside the window shows in the latest scan.** -/
theorem insideWindow_latestScan {leaves : List PartitionUsage}
    {scanTime : PartitionUsage → Option Time} {leaf : PartitionUsage} {windowStart : Time}
    (among : leaf ∈ leaves) (scanned : scanTime leaf = some t) (inside : windowStart ≤ t) :
    insideWindow (latestScan leaves scanTime) windowStart = true := by
  obtain ⟨j, best, found, le⟩ := latestFrom_ge (i := 0) (.inr ⟨leaf, among, scanned⟩)
  unfold latestScan
  rw [found]
  show (!decide (best < windowStart)) = true
  rw [decide_eq_false (not_lt.mpr (inside.trans le))]
  rfl

/-- What the verdict idle says of the evidence. -/
structure Shown (u : TableUsage) (windowStart : Time) : Prop where
  unlocked : u.lockHolders = []
  recorded : u.scanTimesRecorded = true
  seqScans : ∀ leaf ∈ u.leaves, ∀ t, leaf.lastSeqScan = some t → t < windowStart
  idxScans : ∀ leaf ∈ u.leaves, ∀ t, leaf.lastIdxScan = some t → t < windowStart
  reset : ∀ t, u.statsReset = some t → t < windowStart
  local_ : ∀ leaf ∈ u.leaves, leaf.foreign = false
  started : u.statsReset = none → ∀ leaf ∈ u.leaves, leaf.neverScanned = false

/-- Without a latest scan in the window neither kind of scan is inside it. -/
theorem latestScanInWindow_none {u : TableUsage} {windowStart : Time}
    (none : u.latestScanInWindow windowStart = Option.none) :
    insideWindow (latestScan u.leaves PartitionUsage.lastSeqScan) windowStart = false ∧
      insideWindow (latestScan u.leaves PartitionUsage.lastIdxScan) windowStart = false := by
  unfold TableUsage.latestScanInWindow at none
  dsimp only at none
  cases seq : insideWindow (latestScan u.leaves PartitionUsage.lastSeqScan) windowStart with
  | true =>
    rw [seq] at none
    split at none
    · cases none
    · rw [if_pos rfl] at none
      cases none
  | false =>
    cases idx : insideWindow (latestScan u.leaves PartitionUsage.lastIdxScan) windowStart with
    | true =>
      rw [seq, idx, Bool.false_and, Bool.false_and, if_neg Bool.false_ne_true,
        if_neg Bool.false_ne_true, if_pos rfl] at none
      cases none
    | false => exact ⟨rfl, rfl⟩

/-- A judgement that is idle past a condition that judges otherwise found the condition false. -/
theorem idle_of_ite {c : Prop} [Decidable c] {α : Type} {first rest : UsageOutcome × α}
    (idle : (if c then first else rest).1 = .idle) (other : first.1 ≠ .idle) :
    ¬ c ∧ rest.1 = .idle := by
  by_cases holds : c
  · rw [if_pos holds] at idle
    exact absurd idle other
  · rw [if_neg holds] at idle
    exact ⟨holds, idle⟩

/-- An idle verdict has shown everything it rests on. -/
theorem judge_idle {u : TableUsage} {windowStart : Time}
    (idle : (u.judgeFrom windowStart).1 = .idle) : Shown u windowStart := by
  unfold TableUsage.judgeFrom at idle
  obtain ⟨locked, idle⟩ := idle_of_ite idle fun h => by cases h
  obtain ⟨recorded, idle⟩ := idle_of_ite idle fun h => by cases h
  cases scanned : u.latestScanInWindow windowStart with
  | some scan =>
    rw [scanned] at idle
    cases idle
  | none =>
    rw [scanned] at idle
    obtain ⟨seq, idx⟩ := latestScanInWindow_none scanned
    obtain ⟨recovery, idle⟩ := idle_of_ite idle fun h => by cases h
    obtain ⟨untracked, idle⟩ := idle_of_ite idle fun h => by cases h
    obtain ⟨setting, idle⟩ := idle_of_ite idle fun h => by cases h
    obtain ⟨reset, idle⟩ := idle_of_ite idle fun h => by cases h
    obtain ⟨empty, idle⟩ := idle_of_ite idle fun h => by cases h
    cases foreign : firstForeignLeaf u.leaves with
    | some i =>
      rw [foreign] at idle
      cases idle
    | none =>
      rw [foreign] at idle
      dsimp only at idle
      cases unscanned : u.leafNeverScannedSinceUnknownStart with
      | some i =>
        rw [unscanned] at idle
        cases idle
      | none =>
        refine ⟨List.length_eq_zero_iff.mp (by omega), by simpa using recorded,
          fun leaf among t time => ?_, fun leaf among t time => ?_, fun t time => ?_,
          fun leaf among => ?_, fun start leaf among => ?_⟩
        · by_contra inside
          have := insideWindow_latestScan among time (not_lt.mp inside)
          rw [seq] at this
          cases this
        · by_contra inside
          have := insideWindow_latestScan among time (not_lt.mp inside)
          rw [idx] at this
          cases this
        · by_contra inside
          rw [time] at reset
          exact reset (by simp [insideWindow, inside])
        · exact Bool.eq_false_iff.mpr
            (by simpa using List.findIdx?_eq_none_iff.mp foreign leaf among)
        · unfold TableUsage.leafNeverScannedSinceUnknownStart at unscanned
          rw [start] at unscanned
          exact List.findIdx?_eq_none_iff.mp unscanned leaf among

/-! ### What the statistics keep -/

/-- A scan of a table is recorded, for the table or for an index it has. -/
def Server.Records (s : Server) (table : Oid) (t : Time) : Prop :=
  s.seqScans table = some t ∨ ∃ index ∈ s.indexes table, s.idxScans (table, index) = some t

/-- A scan at or after a time is recorded. -/
def Server.Recorded (s : Server) (table : Oid) (t : Time) : Prop :=
  ∃ best, t ≤ best ∧ s.Records table best

/-- Scans inside the window may be lost, and the reset time shows it: it is inside the window too,
or there is none and everything recorded is. -/
def Server.Lost (s : Server) (windowStart : Time) : Prop :=
  (∃ reset, s.statsReset = some reset ∧ windowStart ≤ reset) ∨
    s.statsReset = none ∧ (∀ table t, s.seqScans table = some t → windowStart ≤ t) ∧
      ∀ scanned t, s.idxScans scanned = some t → windowStart ≤ t

/-- **What the statistics keep of the scans inside a window.** -/
structure Kept (windowStart : Time) (s : Server) : Prop where
  past : ∀ scan ∈ s.scans, scan.2 ≤ s.now
  evident : ∀ table t, (table, t) ∈ s.scans → windowStart ≤ t → s.foreign table = false →
    s.Recorded table t ∨ s.Lost windowStart

/-- An index that is dropped is not the only record of the latest scan of its table, where that is
inside the window. -/
def KeepsRecord (windowStart : Time) (s : Server) (event : Time × Event) : Prop :=
  ∀ table index, event.2 = .dropIndex table index → ∀ t, s.idxScans (table, index) = some t →
    windowStart ≤ t → ∃ best, t ≤ best ∧ (s.seqScans table = some best ∨
      ∃ other ∈ s.indexes table, other ≠ index ∧ s.idxScans (table, other) = some best)

theorem later_ge (recorded : Option Time) (t : Time) :
    ∃ best, later recorded t = some best ∧ t ≤ best ∧ ∀ old, recorded = some old → old ≤ best := by
  cases recorded with
  | none => exact ⟨t, rfl, le_rfl, fun old is => by cases is⟩
  | some old =>
    exact ⟨max old t, rfl, le_max_right _ _,
      fun other is => Option.some.inj is ▸ le_max_left _ _⟩

section Step

variable {windowStart : Time} {s s' : Server} {event : Time × Event}

/-- A step that records at least what was recorded and the scans it adds, and loses no more, keeps
what is kept. -/
theorem Kept.of_records (kept : Kept windowStart s) (now : s.now ≤ s'.now)
    (foreign : s'.foreign = s.foreign)
    (scans : ∀ scan ∈ s'.scans, scan ∈ s.scans ∨
      scan.2 ≤ s'.now ∧ (s'.foreign scan.1 = false → s'.Recorded scan.1 scan.2))
    (records : ∀ table t, windowStart ≤ t → s.Records table t → s'.Recorded table t)
    (lost : windowStart ≤ s.now → s.Lost windowStart → s'.Lost windowStart) :
    Kept windowStart s' := by
  refine ⟨fun scan among => ?_, fun table t among inside real => ?_⟩
  · obtain old | ⟨past, _⟩ := scans scan among
    · exact (kept.past scan old).trans now
    · exact past
  · obtain old | ⟨_, recorded⟩ := scans (table, t) among
    · rw [foreign] at real
      obtain ⟨best, le, recorded⟩ | gone := kept.evident table t old inside real
      · obtain ⟨best', le', recorded'⟩ := records table best (inside.trans le) recorded
        exact .inl ⟨best', le.trans le', recorded'⟩
      · exact .inr (lost (inside.trans (kept.past _ old)) gone)
    · exact .inl (recorded real)

/-- A reset or crash recovery leaves what the scans so far need not show. -/
theorem Kept.of_lost (kept : Kept windowStart s) (now : s.now ≤ s'.now) (scans : s'.scans = s.scans)
    (lost : windowStart ≤ s.now → s'.Lost windowStart) : Kept windowStart s' := by
  refine ⟨fun scan among => ?_, fun table t among inside _ => ?_⟩
  · rw [scans] at among
    exact (kept.past scan among).trans now
  · rw [scans] at among
    exact .inr (lost (inside.trans (kept.past _ among)))

variable {table : Oid}

theorem seqScans_scanTable (real : s.foreign table = false) :
    (s.scanTable table t).seqScans =
      Function.update s.seqScans table (later (s.seqScans table) t) :=
  if_neg (Bool.eq_false_iff.mp real)

variable (kept : Kept windowStart s)

include kept

/-- A scan of a table keeps the record. -/
theorem kept_scanTable (now : s.now ≤ t) (table : Oid) :
    Kept windowStart (s.scanTable table t) := by
  cases real : s.foreign table with
  | true =>
    -- Nothing is recorded for a foreign table.
    have seq : (s.scanTable table t).seqScans = s.seqScans := if_pos real
    refine kept.of_records now rfl ?_ ?_ ?_
    · intro scan among
      obtain rfl | old := List.mem_cons.mp among
      · exact .inr ⟨le_rfl, fun local_ => absurd (real.symm.trans local_) (by decide)⟩
      · exact .inl old
    · intro other recorded _ is
      refine ⟨recorded, le_rfl, ?_⟩
      unfold Server.Records
      rw [seq]
      exact is
    · intro _ gone
      unfold Server.Lost
      rw [seq]
      exact gone
  | false =>
    have seq := seqScans_scanTable (t := t) real
    obtain ⟨best, recorded, le, older⟩ := later_ge (s.seqScans table) t
    have here : (s.scanTable table t).seqScans table = some best := by
      rw [seq, Function.update_self, recorded]
    have elsewhere : ∀ other, other ≠ table →
        (s.scanTable table t).seqScans other = s.seqScans other := by
      intro other apart
      rw [seq, Function.update_of_ne apart]
    refine kept.of_records now rfl ?_ ?_ ?_
    · intro scan among
      obtain rfl | old := List.mem_cons.mp among
      · exact .inr ⟨le_rfl, fun _ => ⟨best, le, .inl here⟩⟩
      · exact .inl old
    · rintro other old _ (scanned | idx)
      · by_cases same : other = table
        · subst same
          exact ⟨best, older old scanned, .inl here⟩
        · exact ⟨old, le_rfl, .inl ((elsewhere other same).trans scanned)⟩
      · exact ⟨old, le_rfl, .inr idx⟩
    · rintro late (reset | ⟨none, each, idx⟩)
      · exact .inl reset
      · refine .inr ⟨none, fun other old is => ?_, idx⟩
        by_cases same : other = table
        · subst same
          have latest : best = old := Option.some.inj (here.symm.trans is)
          exact (late.trans now).trans (latest ▸ le)
        · exact each other old ((elsewhere other same).symm.trans is)

/-- A scan of an index keeps the record. -/
theorem kept_scanIndex (now : s.now ≤ t) {index : Oid} (has : index ∈ s.indexes table) :
    Kept windowStart (s.scanIndex table index t) := by
  obtain ⟨best, recorded, le, older⟩ := later_ge (s.idxScans (table, index)) t
  have here : (s.scanIndex table index t).idxScans (table, index) = some best := by
    show Function.update s.idxScans _ _ (table, index) = _
    rw [Function.update_self, recorded]
  have elsewhere : ∀ scanned, scanned ≠ (table, index) →
      (s.scanIndex table index t).idxScans scanned = s.idxScans scanned :=
    fun scanned apart => Function.update_of_ne apart _ _
  refine kept.of_records now rfl ?_ ?_ ?_
  · intro scan among
    obtain rfl | old := List.mem_cons.mp among
    · exact .inr ⟨le_rfl, fun _ => ⟨best, le, .inr ⟨index, has, here⟩⟩⟩
    · exact .inl old
  · rintro other old _ (seq | ⟨scanned, listed, idx⟩)
    · exact ⟨old, le_rfl, .inl seq⟩
    · by_cases same : (other, scanned) = (table, index)
      · obtain ⟨rfl, rfl⟩ := Prod.mk.inj same
        exact ⟨best, older old idx, .inr ⟨scanned, listed, here⟩⟩
      · exact ⟨old, le_rfl, .inr ⟨scanned, listed, (elsewhere _ same).trans idx⟩⟩
  · rintro late (reset | ⟨none, seq, idx⟩)
    · exact .inl reset
    · refine .inr ⟨none, seq, fun scanned old is => ?_⟩
      by_cases same : scanned = (table, index)
      · subst same
        have latest : best = old := Option.some.inj (here.symm.trans is)
        exact (late.trans now).trans (latest ▸ le)
      · exact idx scanned old ((elsewhere _ same).symm.trans is)

/-- A new index keeps the record. -/
theorem kept_createIndex (now : s.now ≤ t) (table index : Oid) :
    Kept windowStart (s.createIndex table index t) := by
  refine kept.of_records now rfl (fun _ => .inl) (fun other old _ recorded => ⟨old, le_rfl, ?_⟩)
    fun _ => id
  obtain seq | ⟨scanned, has, idx⟩ := recorded
  · exact .inl seq
  · refine .inr ⟨scanned, ?_, idx⟩
    by_cases same : other = table
    · subst same
      show scanned ∈ Function.update s.indexes other _ other
      rw [Function.update_self]
      exact List.mem_cons_of_mem _ has
    · show scanned ∈ Function.update s.indexes table _ other
      rwa [Function.update_of_ne same]

/-- A dropped index keeps the record where the table's own scans show as much. -/
theorem kept_dropIndex (now : s.now ≤ t) {index : Oid}
    (keeps : KeepsRecord windowStart s (t, .dropIndex table index)) :
    Kept windowStart (s.dropIndex table index t) := by
  have left : ∀ other old, old ∈ s.indexes other → (other, old) ≠ (table, index) →
      old ∈ (s.dropIndex table index t).indexes other := by
    intro other old listed apart
    show old ∈ Function.update s.indexes table _ other
    by_cases same : other = table
    · subst same
      rw [Function.update_self]
      refine List.mem_filter.mpr ⟨listed, decide_eq_true ?_⟩
      rintro rfl
      exact apart rfl
    · rwa [Function.update_of_ne same]
  have gone : (s.dropIndex table index t).idxScans (table, index) = none :=
    Function.update_self _ _ _
  have elsewhere : ∀ scanned, scanned ≠ (table, index) →
      (s.dropIndex table index t).idxScans scanned = s.idxScans scanned :=
    fun scanned apart => Function.update_of_ne apart _ _
  refine kept.of_records now rfl (fun _ => .inl) ?_ ?_
  · rintro other old inside (seq | ⟨scanned, listed, idx⟩)
    · exact ⟨old, le_rfl, .inl seq⟩
    · by_cases same : (other, scanned) = (table, index)
      · -- The dropped index recorded it, and something else of the table is as late.
        obtain ⟨rfl, rfl⟩ := Prod.mk.inj same
        obtain ⟨best, le, seq | ⟨third, among, apart, idx'⟩⟩ :=
          keeps other scanned rfl old idx inside
        · exact ⟨best, le, .inl seq⟩
        · have apart' : (other, third) ≠ (other, scanned) := fun same => apart (Prod.mk.inj same).2
          exact ⟨best, le,
            .inr ⟨third, left other third among apart', (elsewhere _ apart').trans idx'⟩⟩
      · exact ⟨old, le_rfl,
          .inr ⟨scanned, left other scanned listed same, (elsewhere _ same).trans idx⟩⟩
  · rintro _ (reset | ⟨none, seq, idx⟩)
    · exact .inl reset
    · refine .inr ⟨none, seq, fun scanned old is => ?_⟩
      by_cases same : scanned = (table, index)
      · subst same
        cases gone.symm.trans is
      · exact idx scanned old ((elsewhere _ same).symm.trans is)

/-- **Every step keeps what the statistics keep**, if it drops no index that alone records the
latest scan of its table inside the window. -/
theorem kept_step (keeps : KeepsRecord windowStart s event) (taken : step s event = some s') :
    Kept windowStart s' := by
  unfold step at taken
  by_cases early : event.1 < s.now
  · rw [if_pos early] at taken
    cases taken
  rw [if_neg early] at taken
  have now : s.now ≤ event.1 := not_lt.mp early
  obtain ⟨time, event⟩ := event
  cases event with
  | seqScan table => exact Option.some.inj taken ▸ kept_scanTable kept now table
  | indexScan table index =>
    by_cases has : index ∈ s.indexes table ∧ s.foreign table = false
    · exact Option.some.inj ((if_pos has).symm.trans taken) ▸ kept_scanIndex kept now has.1
    · cases (if_neg has).symm.trans taken
  | resetDatabase | resetSingle _ =>
    obtain rfl := Option.some.inj taken
    exact kept.of_lost now rfl fun late => .inl ⟨_, rfl, late.trans now⟩
  | crashRecovery =>
    obtain rfl := Option.some.inj taken
    refine kept.of_lost now rfl fun _ => .inr ⟨rfl, fun _ _ none => ?_, fun _ _ none => ?_⟩
    · cases none
    · cases none
  | createIndex table index =>
    by_cases fresh : index ∉ s.indexes table ∧ s.idxScans (table, index) = none
    · exact Option.some.inj ((if_pos fresh).symm.trans taken) ▸
        kept_createIndex kept now table index
    · cases (if_neg fresh).symm.trans taken
  | dropIndex table index =>
    by_cases has : index ∈ s.indexes table
    · exact Option.some.inj ((if_pos has).symm.trans taken) ▸ kept_dropIndex kept now keeps
    · cases (if_neg has).symm.trans taken
  | repartition _ | relock _ =>
    obtain rfl := Option.some.inj taken
    exact kept.of_records now rfl (fun _ => .inl) (fun _ t _ recorded => ⟨t, le_rfl, recorded⟩)
      fun _ => id

end Step

/-! ### The latest index scan -/

variable {times : List (Option Time)}

/-- The latest of some times is at or after each of them. -/
theorem foldl_later_ge :
    ∀ {start : Option Time} {t : Time},
    (∃ best, start = some best ∧ t ≤ best) ∨ some t ∈ times →
      ∃ best, times.foldl (fun best t => t.elim best (later best)) start = some best ∧
        t ≤ best := by
  induction times with
  | nil =>
    rintro start t (⟨best, rfl, le⟩ | among)
    · exact ⟨best, rfl, le⟩
    · cases among
  | cons time times ih =>
    intro start t has
    rw [List.foldl_cons]
    refine ih ?_
    cases time with
    | none =>
      obtain start | among := has
      · exact .inl start
      · exact .inr ((List.mem_cons.mp among).resolve_left fun same => (by cases same))
    | some time =>
      obtain ⟨best, recorded, le, older⟩ := later_ge start time
      obtain ⟨old, is, before⟩ | among := has
      · exact .inl ⟨best, recorded, before.trans (older old is)⟩
      · obtain same | among := List.mem_cons.mp among
        · exact .inl ⟨best, recorded, (Option.some.inj same).le.trans le⟩
        · exact .inr among

theorem latest_ge (among : some t ∈ times) :
    ∃ best, latest times = some best ∧ t ≤ best := foldl_later_ge (.inr among)

/-- The latest time is at or after a bound that every time is at or after. -/
theorem foldl_later_bound {bound : Time} :
    ∀ {start : Option Time},
    (∀ t, start = some t → bound ≤ t) → (∀ t, some t ∈ times → bound ≤ t) →
      ∀ t, times.foldl (fun best t => t.elim best (later best)) start = some t → bound ≤ t := by
  induction times with
  | nil => exact fun first _ => first
  | cons time times ih =>
    intro start first each
    rw [List.foldl_cons]
    refine ih ?_ fun t among => each t (List.mem_cons_of_mem _ among)
    cases time with
    | none => exact first
    | some time =>
      intro t is
      obtain ⟨best, recorded, le, _⟩ := later_ge start time
      have latest : best = t := Option.some.inj (recorded.symm.trans is)
      exact (each time List.mem_cons_self).trans (latest ▸ le)

theorem latest_bound {bound : Time} (each : ∀ t, some t ∈ times → bound ≤ t)
    (is : latest times = some t) : bound ≤ t :=
  foldl_later_bound (fun _ none => (by cases none)) each t is

/-! ### An idle table -/

/-- What a read of the usage answers. -/
theorem readTableUsage_eq {s : Server} {facts : Facts} {usage : TableUsage}
    (read : s.readTableUsage facts = .ok usage) :
    usage.readAt = facts.readAt ∧ usage.serverVersionNum = facts.serverVersionNum ∧
      usage.statsReset = s.statsReset ∧
      usage.leaves = (s.tree.leaves.map (s.usageLeaf facts)).insertionSort comparePartitions ∧
      usage.lockHolders = s.locks.filter fun holder =>
        holder.relationOID ∈ s.tree.relations.map (·.oid) := by
  unfold Server.readTableUsage at read
  dsimp only at read
  split at read
  · split at read
    · cases read
    · obtain rfl := Except.ok.inj read
      exact ⟨rfl, rfl, rfl, rfl, rfl⟩
  · obtain rfl := Except.ok.inj read
    exact ⟨rfl, rfl, rfl, rfl, rfl⟩

/-- **Idle is what the statistics show**, where they keep the scans inside the window. -/
theorem unscanned_of_kept {s : Server} {facts : Facts} {usage : TableUsage} {windowStart : Time}
    (kept : Kept windowStart s) (read : s.readTableUsage facts = .ok usage)
    (shown : Shown usage windowStart) {leaf : Relation} (among : leaf ∈ s.tree.leaves)
    (scanned : (leaf.oid, t) ∈ s.scans) : t < windowStart := by
  obtain ⟨_, version, reset, leaves, _⟩ := readTableUsage_eq read
  have member : s.usageLeaf facts leaf ∈ usage.leaves := by
    rw [leaves]
    exact (List.mem_insertionSort _).mpr (List.mem_map_of_mem among)
  have local_ : s.foreign leaf.oid = false := shown.local_ _ member
  have recorded : (decide (facts.serverVersionNum ≥ scanTimesSinceVersionNum) &&
      !s.foreign leaf.oid) = true := by
    have since := shown.recorded
    unfold TableUsage.scanTimesRecorded at since
    rw [version] at since
    rw [since, local_]
    rfl
  have seq : (s.usageLeaf facts leaf).lastSeqScan = s.seqScans leaf.oid := if_pos recorded
  have idx : (s.usageLeaf facts leaf).lastIdxScan =
      latest ((s.indexes leaf.oid).map fun index => s.idxScans (leaf.oid, index)) := if_pos recorded
  by_contra inside
  obtain ⟨best, le, last | ⟨index, has, last⟩⟩ | ⟨at_, is, late⟩ | ⟨none, each, eachIndex⟩ :=
    kept.evident leaf.oid t scanned (not_lt.mp inside) local_
  · exact inside (le.trans_lt (shown.seqScans _ member best (seq.trans last)))
  · have listed : some best ∈ (s.indexes leaf.oid).map fun index => s.idxScans (leaf.oid, index) :=
      List.mem_map.mpr ⟨index, has, last⟩
    obtain ⟨latest, found, ge⟩ := latest_ge listed
    exact inside ((le.trans ge).trans_lt (shown.idxScans _ member latest (idx.trans found)))
  · exact absurd (shown.reset at_ (reset.trans is)) (not_lt.mpr late)
  · -- Without a reset time the leaf has a recorded scan, which is inside the window.
    have seen := shown.started (reset.trans none) _ member
    unfold PartitionUsage.neverScanned at seen
    rw [seq, idx] at seen
    cases last : s.seqScans leaf.oid with
    | some t' =>
      exact absurd (shown.seqScans _ member t' (seq.trans last)) (not_lt.mpr (each _ t' last))
    | none =>
      rw [last] at seen
      cases found : latest ((s.indexes leaf.oid).map fun index => s.idxScans (leaf.oid, index)) with
      | none =>
        rw [found] at seen
        cases seen
      | some t' =>
        refine absurd (shown.idxScans _ member t' (idx.trans found)) (not_lt.mpr ?_)
        refine latest_bound (fun old listed => ?_) found
        obtain ⟨index, _, last⟩ := List.mem_map.mp listed
        exact eachIndex _ old last

/-- **Idle is sound** along every history that drops no index that alone records the latest scan of
its table inside the window: none of the leaves was scanned in the window, and no other session
holds a lock on the table or a partition. -/
theorem idle_sound {start s : Server} {facts : Facts} {usage : TableUsage} {verdict : UsageVerdict}
    {window : Time} (fresh : start.scans = [])
    (history : Reaches step (KeepsRecord (facts.readAt - window)) start s)
    (read : s.readTableUsage facts = .ok usage) (judged : usage.judge window = .ok verdict)
    (idle : verdict.outcome = .idle) :
    (∀ leaf ∈ s.tree.leaves, ∀ t, (leaf.oid, t) ∈ s.scans → t < facts.readAt - window) ∧
      ∀ holder ∈ s.locks, holder.relationOID ∉ s.tree.relations.map (·.oid) := by
  have kept : Kept (facts.readAt - window) s := by
    refine history.invariant ⟨?_, ?_⟩ fun _ _ _ kept keeps taken => kept_step kept keeps taken
    · rw [fresh]
      exact fun scan among => absurd among List.not_mem_nil
    · rw [fresh]
      exact fun table t among => absurd among List.not_mem_nil
  obtain ⟨readAt, _, _, _, holders⟩ := readTableUsage_eq read
  have shown : Shown usage (facts.readAt - window) := by
    unfold TableUsage.judge at judged
    by_cases short : window < minUsageWindow
    · rw [if_pos short] at judged
      cases judged
    · rw [if_neg short] at judged
      obtain rfl := Except.ok.inj judged
      rw [readAt] at idle
      exact judge_idle idle
  refine ⟨fun leaf among t scanned => unscanned_of_kept kept read shown among scanned, ?_⟩
  intro holder among held
  have none := shown.unlocked
  rw [holders] at none
  exact List.filter_eq_nil_iff.mp none holder among (decide_eq_true held)

/-! ### A dropped index -/

def minute : Time := 60000000000

def orders : Relation := { oid := 1, schema := "public", name := "orders" }

/-- An ordinary table with one index, counted since its statistics were reset. -/
def ordersServer : Server where
  now := 0
  foreign := fun _ => false
  seqScans := fun _ => none
  idxScans := fun _ => none
  indexes := fun table => if table = 1 then [10] else []
  statsReset := some 0
  tree := .leaf orders
  locks := []
  scans := []

def readAfter (minutes : Int) : Facts where
  serverVersionNum := 160004
  inRecovery := false
  trackCounts := true
  trackCountsOffBySetting := false
  readAt := minutes * minute

/-- The table once its index was scanned. -/
def ordersScanned (minutes : Int) : Server := ordersServer.scanIndex 1 10 (minutes * minute)

/-- The table once the index was dropped too, in the minute before the hour. -/
def ordersDropped (minutes : Int) : Server := (ordersScanned minutes).dropIndex 1 10 (59 * minute)

def ordersUsage (minutes : Int) : TableUsage where
  partitioned := false
  serverVersionNum := 160004
  inRecovery := false
  trackCounts := true
  trackCountsOffBySetting := false
  readAt := 60 * minute
  statsReset := some 0
  leaves := [(ordersDropped minutes).usageLeaf (readAfter 60) orders]
  lockHolders := []

/-- A scan long before the window, by an index that is gone: the table is idle, and it is so. -/
theorem scannedEarlier_idle :
    ∃ verdict, (ordersUsage 1).judge (10 * minute) = .ok verdict ∧ verdict.outcome = .idle ∧
      (∀ leaf ∈ (ordersDropped 1).tree.leaves, ∀ t, (leaf.oid, t) ∈ (ordersDropped 1).scans →
        t < (readAfter 60).readAt - 10 * minute) ∧
      ∀ holder ∈ (ordersDropped 1).locks,
        holder.relationOID ∉ (ordersDropped 1).tree.relations.map (·.oid) := by
  have history : Reaches step (KeepsRecord ((readAfter 60).readAt - 10 * minute)) ordersServer
      (ordersDropped 1) := by
    refine .step (a := (59 * minute, .dropIndex 1 10)) (s := ordersScanned 1)
      (.step (a := (1 * minute, .indexScan 1 10)) .refl ?_ rfl) ?_ rfl
    · intro table index drop
      cases drop
    · intro table index drop t recorded inside
      cases drop
      cases recorded
      exact absurd inside (by decide)
  have read : (ordersDropped 1).readTableUsage (readAfter 60) = .ok (ordersUsage 1) := rfl
  refine ⟨_, rfl, by decide, ?_⟩
  exact idle_sound rfl history read rfl (by decide)

/-- **A table scanned two minutes ago that is judged idle**: the index that recorded the scan was
dropped. -/
theorem droppedIndex_idle :
    ordersServer.scans = [] ∧ Reaches step anyStep ordersServer (ordersDropped 58) ∧
      (ordersDropped 58).readTableUsage (readAfter 60) = .ok (ordersUsage 58) ∧
      (∃ verdict, (ordersUsage 58).judge (10 * minute) = .ok verdict ∧ verdict.outcome = .idle) ∧
      orders ∈ (ordersDropped 58).tree.leaves ∧
        (orders.oid, 58 * minute) ∈ (ordersDropped 58).scans ∧
      (readAfter 60).readAt - 10 * minute ≤ 58 * minute := by
  refine ⟨rfl, ?_, rfl, ⟨_, rfl, by decide⟩, List.mem_singleton.mpr rfl, List.mem_singleton.mpr rfl,
    by decide⟩
  exact .step (a := (59 * minute, .dropIndex 1 10)) (s := ordersScanned 58)
    (.step (a := (58 * minute, .indexScan 1 10)) .refl trivial rfl) trivial rfl

end PgSprite.Preflight
