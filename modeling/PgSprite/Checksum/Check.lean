/-
**A verification pass, and the proofs it mints.**

`check` acts on what a sweep finds as the divergence policy says, comparing and recopying again
while a recopy collides; `checkLive` settles every differing chunk before it decides. Each is a
function of what the server, the lock session and the catch-up answer it, and returns besides the
source's results the comparisons it stands on and the repairs that committed.

`proof_only_of_clean_pass`: an outcome carries a proof only when the call committed nothing, left
nothing unsettled and read every chunk equal or settled it.
-/

import PgSprite.Checksum.Sweep

namespace PgSprite.Checksum

open PgSprite.Decode PgSprite.Copier PgSprite.Dbconn PgSprite.Lib

/-! ### Recopying -/

/-- What the server answers a recopy, chunk by chunk; `fence` and `mark` are a live repair's. -/
structure RecopyAnswers where
  begins : Option Failure := none
  fence : Option Failure := none
  clears : ℕ → Except Failure Int64
  copies : ℕ → Except Failure Int64
  resolution : Option Failure := none
  mark : Except Failure LSN := .ok 0
  commit : CommitAnswer

/-- Deletes the shadow's rows of every chunk. -/
def clearChunks (answers : RecopyAnswers) : ℕ → List Mismatch → Except PassError (List Repair)
  | _, [] => .ok []
  | i, mismatch :: rest => do
      let removed ← answered (answers.clears i)
      let others ← clearChunks answers (i + 1) rest
      .ok ({ mismatch, removed } :: others)

/-- Copies every cleared chunk back from the source. -/
def copyChunks (answers : RecopyAnswers) : ℕ → List Repair → Except PassError (List Repair)
  | _, [] => .ok []
  | i, repair :: rest => do
      let inserted ← answered (answers.copies i)
      let others ← copyChunks answers (i + 1) rest
      .ok ({ repair with inserted } :: others)

/-- The recopy's statements: every delete before any copy, and the resolution check once more. -/
def recopyIn (answers : RecopyAnswers) (mismatches : List Mismatch) :
    Except PassError (List Repair) := do
  let cleared ← clearChunks answers 0 mismatches
  let copied ← copyChunks answers 0 cleared
  executed answers.resolution
  .ok copied

/-- What a recopy returned, and the repairs that committed. -/
structure Recopied (α : Type) where
  result : Except PassError α
  committed : List Repair

/-- Ends a recopy's transaction with its COMMIT. -/
def commitRecopy {α : Type} (commit : CommitAnswer) (value : α) (repairs : List Repair) :
    Recopied α :=
  match commit.failure with
  | none => ⟨.ok value, repairs⟩
  | some cause => ⟨.error (.failed cause), if commit.lands then repairs else []⟩

/-- Replaces the shadow's rows of every differing chunk in one transaction. -/
def recopy (answers : RecopyAnswers) (mismatches : List Mismatch) : Recopied (List Repair) :=
  match (do executed answers.begins; recopyIn answers mismatches : Except PassError _) with
  | .error e => ⟨.error e, []⟩
  | .ok repairs => commitRecopy answers.commit repairs repairs

/-- The recopy of a shadow the stream is writing: its flushes held and the shadow fenced, with a
marker written before the commit. -/
def recopyFenced (pause : Option Failure) (answers : RecopyAnswers) (mismatches : List Mismatch) :
    Recopied (List Repair × LSN) :=
  match (do
      executed pause
      executed answers.begins
      executed answers.fence
      let repairs ← recopyIn answers mismatches
      let recopied ← answered answers.mark
      .ok (repairs, recopied) : Except PassError _) with
  | .error e => ⟨.error e, []⟩
  | .ok (repairs, recopied) => commitRecopy answers.commit (repairs, recopied) repairs

/-- What a repair phase returned, and the repairs that committed. -/
structure Repairing where
  repairs : List Repair := []
  error : Option PassError := none
  committed : List Repair := []

/-- Recopies every differing chunk and reads none of them again. -/
def recopyAll (answers : RecopyAnswers) (lost : Option Failure) (mismatches : List Mismatch) :
    Repairing :=
  match recopy answers mismatches with
  | ⟨.error e, committed⟩ => { error := some (lostOr lost e), committed }
  | ⟨.ok repairs, committed⟩ => { repairs, error := lost.map .lockLost, committed }

/-- Reads the repaired chunks again, stopping at the first that still differs. -/
def rereadAll (rereads : ℕ → Except Failure (Digest × Digest)) :
    ℕ → List Repair → Except PassError Unit
  | _, [] => .ok ()
  | i, repair :: rest => do
      let (source, shadow) ← answered (rereads i)
      if source = shadow then rereadAll rereads (i + 1) rest
      else .error (.repair repair ⟨repair.mismatch.chunk, source, shadow⟩)

/-- Recopies every differing chunk and reads each again. -/
def repairAll (statements : Option Failure) (answers : RecopyAnswers)
    (rereads : ℕ → Except Failure (Digest × Digest)) (lost : Option Failure)
    (mismatches : List Mismatch) : Repairing :=
  match statements with
  | some cause => { error := some (lostOr lost (.failed cause)) }
  | none =>
    match recopy answers mismatches with
    | ⟨.error e, committed⟩ => { error := some (lostOr lost e), committed }
    | ⟨.ok repairs, committed⟩ =>
      match rereadAll rereads 0 repairs with
      | .error e => { repairs, error := some (lostOr lost e), committed }
      | .ok () => { repairs, error := lost.map .lockLost, committed }

/-- Settles a repaired chunk again once the catch-up has confirmed past the recopy. -/
def settleRepair (outside : Outside) (attempts polls : ℕ) (recopied : LSN) (repair : Repair) :
    Except PassError Unit :=
  match rereadOnce outside polls ⟨repair.mismatch.chunk, ⟨0, ""⟩, ⟨0, ""⟩, recopied⟩ 0 with
  | .error e => .error (.settle e)
  | .ok now =>
    if now.source = now.shadow then .ok ()
    else
      match settle outside attempts polls now 1 with
      | .error e => .error (.settle e)
      | .ok ⟨.diverged, last, _⟩ =>
        .error (.repair repair ⟨repair.mismatch.chunk, last.source, last.shadow⟩)
      | .ok ⟨.hot, _, _⟩ => .error (.verdictAfterSettle .hot)
      | .ok _ => .ok ()

/-- Settles the repaired chunks in key order, stopping at the first that does not settle. -/
def settleRepairs (outside : ℕ → Outside) (attempts polls : ℕ) (recopied : LSN) :
    ℕ → List Repair → Except PassError Unit
  | _, [] => .ok ()
  | i, repair :: rest => do
      settleRepair (outside i) attempts polls recopied repair
      settleRepairs outside attempts polls recopied (i + 1) rest

/-- Recopies every confirmed divergence with the catch-up's flushes held and settles each again. -/
def repairLive (statements pause : Option Failure) (answers : RecopyAnswers) (outside : ℕ → Outside)
    (attempts polls : ℕ) (mismatches : List Mismatch) : Repairing :=
  match statements with
  | some cause => { error := some (.failed cause) }
  | none =>
    match recopyFenced pause answers mismatches with
    | ⟨.error e, committed⟩ => { error := some e, committed }
    | ⟨.ok (repairs, recopied), committed⟩ =>
      match settleRepairs outside attempts polls recopied 0 repairs with
      | .error e => { repairs, error := some e, committed }
      | .ok () => { repairs, committed }

/-! ### The pass and its proofs -/

/-- The shadow a verifier compares, as its proof names it. -/
structure ShadowProof where
  schema : Name
  sourceTable : Name
  shadowTable : Name
  sourceOID : UInt32
  shadowOID : UInt32
  deriving DecidableEq, Repr

/-- The proof that the whole shadow equals its source. -/
structure VerifiedShadow where
  schema : Name
  table : Name
  shadow : Name
  sourceOID : UInt32
  shadowOID : UInt32
  watermark : Watermark
  verifiedAt : ℕ
  live : Bool
  deriving DecidableEq, Repr

/-- One pass run under a policy. `clean` is the watermark it proved clean, unset when it minted no
proof. -/
structure Outcome where
  report : Report := { through := none }
  repairs : List Repair := []
  collisions : ℕ := 0
  clean : Watermark := none
  verified : Option VerifiedShadow := none
  deriving DecidableEq

/-- Mints the proofs a clean pass earns: the verified shadow only when nothing lies beyond the
watermark. -/
def prove (shadow : ShadowProof) (now : ℕ) (report : Report) (live : Bool) : Outcome where
  report := report
  clean := report.through
  verified :=
    if report.through.complete then
      some { schema := shadow.schema, table := shadow.sourceTable, shadow := shadow.shadowTable
             sourceOID := shadow.sourceOID, shadowOID := shadow.shadowOID
             watermark := report.through, verifiedAt := now, live }
    else none

/-- The table lock's session: the loss it reports at each moment it is asked; a loss stands. -/
structure LockSession where
  err : ℕ → Option Failure
  stands : ∀ i j, i ≤ j → err i ≠ none → err j ≠ none

/-- What a call returned: its outcome and error, the comparisons the outcome's report stands on, and
every repair the call committed. -/
structure Returned where
  outcome : Outcome := {}
  error : Option PassError := none
  compared : List Comparison := []
  committed : List Repair := []

/-- A verifier: the shadow it compares and the recopies it attempts. -/
structure Verifier where
  shadow : ShadowProof
  recopyAttempts : ℕ

/-- What a check meets: the answers to its comparisons, its repair and its recopies, attempt by
attempt. -/
structure CheckAnswers where
  running : Bool := false
  lock : LockSession
  passes : ℕ → PassReads
  statements : Option Failure := none
  rereads : ℕ → Except Failure (Digest × Digest)
  recopies : ℕ → RecopyAnswers
  now : ℕ

/-- Recopies until a recopy commits or the attempts run out, comparing again after each collision;
`left` are the attempts after this one. The lock is asked after each recopy and each comparison. -/
def recopyUntilClear (v : Verifier) (a : CheckAnswers) (through : Watermark) :
    ℕ → ℕ → Returned → Returned
  | left, attempt, r =>
    let run := recopyAll (a.recopies attempt) (a.lock.err (2 * attempt - 1))
      r.outcome.report.mismatches
    let r := { r with
      outcome := { r.outcome with repairs := run.repairs }
      committed := r.committed ++ run.committed }
    match run.error with
    | none => r
    | some e =>
      if collided e then
        let r := { r with outcome := { r.outcome with collisions := r.outcome.collisions + 1 } }
        match left with
        | 0 => { r with
            error := some (.collided r.outcome.report.mismatches.length attempt e) }
        | left + 1 =>
          match verify through (a.passes attempt) (a.lock.err (2 * attempt)) with
          | .error e => { r with error := some e }
          | .ok swept =>
            if swept.report.clean then
              { r with
                outcome := { prove v.shadow a.now swept.report false with
                  collisions := r.outcome.collisions }
                compared := swept.compared }
            else
              recopyUntilClear v a through left (attempt + 1)
                { r with
                  outcome := { r.outcome with report := swept.report }
                  compared := swept.compared }
      else { r with error := some e }

/-- What a check does with the comparison it made. -/
def checkSwept (v : Verifier) (a : CheckAnswers) (through : Watermark) (policy : DivergencePolicy)
    (swept : Swept) : Returned :=
  if swept.report.clean then
    { outcome := prove v.shadow a.now swept.report false, compared := swept.compared }
  else
    match policy with
    | .abort =>
      { outcome := { report := swept.report }, compared := swept.compared
        error := some (.verify (.divergence swept.report)) }
    | .repair =>
      let run := repairAll a.statements (a.recopies 1) a.rereads (a.lock.err 1)
        swept.report.mismatches
      { outcome := { report := swept.report, repairs := run.repairs }
        compared := swept.compared
        error := run.error.map .verify
        committed := run.committed }
    | .recopy =>
      let r := recopyUntilClear v a through (v.recopyAttempts - 1) 1
        { outcome := { report := swept.report }, compared := swept.compared }
      { r with error := r.error.map .verify }
    | .other _ =>
      { outcome := { report := swept.report }, compared := swept.compared
        error := some (.policyPassedValidation policy) }

/-- Runs one verification pass and acts on what it finds as the policy says. -/
def check (v : Verifier) (a : CheckAnswers) (through : Watermark) (policy : DivergencePolicy) :
    Returned :=
  if policy.valid then
    if a.running then { error := some (.verify .passRunning) }
    else
      match verify through (a.passes 0) (a.lock.err 0) with
      | .error e => { error := some e }
      | .ok swept => checkSwept v a through policy swept
  else { error := some (.verify (.noDivergencePolicy policy)) }

/-! ### The live pass -/

/-- How a live pass settles its differing chunks; durations are in nanoseconds, and a zero takes
the default. -/
structure LiveOptions where
  hasConfirmed : Bool
  hasFlushes : Bool
  attempts : Int := 0
  settleWait : Int := 0
  poll : Int := 0
  deriving DecidableEq, Repr

namespace LiveOptions

/-- Fills the options left at zero. -/
def withDefaults (o : LiveOptions) : LiveOptions :=
  { o with
    attempts := if o.attempts = 0 then 3 else o.attempts
    settleWait := if o.settleWait = 0 then 30000000000 else o.settleWait
    poll := if o.poll = 0 then 100000000 else o.poll }

/-- Whether the options can describe a bounded settle; a repair also needs the flush gate. -/
def valid (o : LiveOptions) (policy : DivergencePolicy) : Bool :=
  o.hasConfirmed && (decide (policy ≠ .repair) || o.hasFlushes) && decide (1 ≤ o.attempts) &&
    decide (1000000 ≤ o.settleWait) && decide (1000000 ≤ o.poll) && decide (o.poll ≤ o.settleWait)

/-- How many sleeps fit in one wait. -/
def polls (o : LiveOptions) : ℕ := (o.settleWait / o.poll).toNat

end LiveOptions

/-- What a live check meets. -/
structure LiveAnswers where
  running : Bool := false
  lock : LockSession
  reads : PassReads
  /-- What settling each differing chunk meets, in key order. -/
  settles : ℕ → Outside
  statements : Option Failure := none
  pause : Option Failure := none
  recopy : RecopyAnswers
  repaired : ℕ → Outside
  now : ℕ

/-- Settles every differing chunk; one that does not settle is counted and the next is settled. -/
def settleAll (outside : ℕ → Outside) (attempts polls : ℕ) :
    ℕ → List Observation → Report → Option UnresolvedError →
      Except PassError (Report × Option UnresolvedError)
  | _, [], report, first => .ok (report, first)
  | i, prior :: rest, report, first =>
    match settle (outside i) attempts polls prior 0 with
    | .error (.unresolved e) =>
      settleAll outside attempts polls (i + 1) rest
        { report with unsettled := report.unsettled + 1 } (some (first.getD e))
    | .error e => .error (.settle e)
    | .ok ⟨.diverged, last, _⟩ =>
      settleAll outside attempts polls (i + 1) rest
        { report with mismatches :=
            report.mismatches ++ [⟨last.chunk, last.source, last.shadow⟩] } first
    | .ok ⟨.hot, _, _⟩ => .error (.verdictAfterSettle .hot)
    | .ok _ =>
      settleAll outside attempts polls (i + 1) rest
        { report with settled := report.settled + 1 } first

/-- The live sweep with every differing chunk settled, its comparisons, and the first chunk left
unsettled. -/
def sweepAndSettle (a : LiveAnswers) (through : Key) (live : LiveOptions) :
    Except PassError (Report × Option UnresolvedError × List Comparison) := do
  executed a.reads.statements
  let swept ← sweep through true a.reads.chunks
  let (report, first) ←
    settleAll a.settles live.attempts.toNat live.polls 0 swept.differing swept.report none
  match a.lock.err 0 with
  | some cause => .error (.lockLost cause)
  | none => .ok (report, first, swept.compared)

/-- What a live check does with the comparison it made and settled. -/
def checkSettled (v : Verifier) (a : LiveAnswers) (policy : DivergencePolicy) (live : LiveOptions)
    (report : Report) (unresolved : Option UnresolvedError) (compared : List Comparison) :
    Returned :=
  if report.clean then { outcome := prove v.shadow a.now report true, compared }
  else if report.mismatches.isEmpty then
    { outcome := { report }, compared
      error := unresolved.map fun e => .verify (.settle (.unresolved e)) }
  else
    match policy with
    | .abort => { outcome := { report }, compared, error := some (.verify (.divergence report)) }
    | .repair =>
      let run := repairLive a.statements a.pause a.recopy a.repaired live.attempts.toNat live.polls
        report.mismatches
      { outcome := { report, repairs := run.repairs }, compared, committed := run.committed
        error := match run.error with
          | some e => some (.verify (lostOr (a.lock.err 1) e))
          | none => unresolved.map fun e => .verify (.settle (.unresolved e)) }
    | _ => { outcome := { report }, compared, error := some (.policyPassedValidation policy) }

/-- Runs one verification pass while the source is written and the catch-up applies the stream. -/
def checkLive (v : Verifier) (a : LiveAnswers) (through : Watermark) (policy : DivergencePolicy)
    (live : LiveOptions) : Returned :=
  if !policy.valid || policy = .recopy then
    { error := some (.verify (.noDivergencePolicy policy)) }
  else if !live.withDefaults.valid policy then { error := some (.verify .invalidOptions) }
  else if a.running then { error := some (.verify .passRunning) }
  else
    match through with
    | none => { error := some .nothingLanded }
    | some key =>
      match sweepAndSettle a key live.withDefaults with
      | .error e => { error := some (lostOr (a.lock.err 0) e) }
      | .ok (report, unresolved, compared) =>
        checkSettled v a policy live.withDefaults report unresolved compared

/-! ### A proof is earned -/

/-- The outcome carries a clean watermark or a verified shadow. -/
def Outcome.CarriesProof (o : Outcome) : Prop := o.clean ≠ none ∨ o.verified ≠ none

instance (o : Outcome) : Decidable o.CarriesProof := inferInstanceAs (Decidable (_ ∨ _))

/-- What a call that mints a proof has done: it committed no repair, left nothing unsettled, and
compared every key up to the watermark in exactly one chunk, whose comparison is accepted. -/
structure Earned (through : Watermark) (accepted : Comparison → Prop) (r : Returned) : Prop where
  committed : r.committed = []
  repairs : r.outcome.repairs = []
  mismatches : r.outcome.report.mismatches = []
  unsettled : r.outcome.report.unsettled = 0
  watermark : r.outcome.clean = through
  covers : ∀ key, through.reaches key = true → ∃ c, ComparedOnce r.compared key c ∧ accepted c
  complete : r.outcome.verified ≠ none → through.complete = true

/-- Both sides of the range were read equal in one of the transactions, which committed. -/
def ReadEqual (reads : List ChunkRead) (c : Comparison) : Prop :=
  ∃ read ∈ reads, ∃ digest, read.Answers c.compared digest digest

theorem Report.clean_iff {r : Report} :
    r.clean = true ↔ r.mismatches = [] ∧ r.unsettled = 0 := by
  simp [Report.clean]

theorem prove_verified {shadow : ShadowProof} {now : ℕ} {report : Report} {live : Bool}
    (minted : (prove shadow now report live).verified ≠ none) : report.through.complete = true := by
  by_contra short
  rw [prove, if_neg short] at minted
  exact minted rfl

theorem mem_of_comparedOnce {compared : List Comparison} {key : Key} {c : Comparison}
    (once : ComparedOnce compared key c) : c ∈ compared :=
  (List.mem_filter.mp (once ▸ List.mem_singleton_self c)).1

/-- A pass that returned a report compared every key up to a watermark that is set, each by what one
of its transactions answered, with the lock held to its end. -/
theorem verify_ok {through : Watermark} {reads : PassReads} {lost : Option Failure} {swept : Swept}
    (verifies : verify through reads lost = .ok swept) :
    lost = none ∧ Recorded through false swept ∧
      (∀ c ∈ swept.compared, ∃ read ∈ reads.chunks, read.Made false c) ∧
      ∀ key, through.reaches key = true → ∃ c, ComparedOnce swept.compared key c := by
  unfold verify at verifies
  split at verifies
  next => cases verifies
  next top =>
    split at verifies
    next => cases verifies
    next passes =>
      split at verifies
      next => cases verifies
      next =>
        cases verifies
        simp only [pass, bind_ok] at passes
        obtain ⟨_, _, sweeps⟩ := passes
        obtain ⟨recorded, made, once⟩ := sweep_ok sweeps
        exact ⟨rfl, recorded, made,
          fun key reached => once key (by simpa [Watermark.reaches] using reached)⟩

/-- A proof minted from a clean comparison is earned. -/
theorem earned_of_verify {v : Verifier} {now collisions : ℕ} {through : Watermark}
    {reads : PassReads} {lost : Option Failure} {swept : Swept} {r : Returned}
    (verifies : verify through reads lost = .ok swept) (clean : swept.report.clean = true)
    (none : r.committed = [])
    (outcome : r.outcome = { prove v.shadow now swept.report false with collisions })
    (compared : r.compared = swept.compared) : Earned through (ReadEqual reads.chunks) r := by
  obtain ⟨-, recorded, made, once⟩ := verify_ok verifies
  obtain ⟨mismatches, unsettled⟩ := Report.clean_iff.mp clean
  refine ⟨none, by rw [outcome]; rfl, by rw [outcome]; exact mismatches,
    by rw [outcome]; exact unsettled, by rw [outcome]; exact recorded.through, ?_, ?_⟩
  · intro key reached
    obtain ⟨c, here⟩ := once key reached
    have member := mem_of_comparedOnce here
    have equal : c.source = c.shadow := by
      by_contra differs
      have listed := recorded.quiesced rfl c member differs
      rw [mismatches] at listed
      cases listed
    obtain ⟨read, among, answers, -⟩ := made c member
    exact ⟨c, compared ▸ here, read, among, c.source, equal ▸ answers⟩
  · intro minted
    rw [outcome] at minted
    exact recorded.through ▸ prove_verified minted

/-- A recopy that collided committed nothing, unless the lock was lost under it. -/
theorem recopyAll_collided {answers : RecopyAnswers} {lost : Option Failure}
    {mismatches : List Mismatch} {e : PassError}
    (failed : (recopyAll answers lost mismatches).error = some e) (collides : collided e = true)
    (held : lost = none) : (recopyAll answers lost mismatches).committed = [] := by
  subst held
  rw [recopyAll] at failed ⊢
  split at failed
  next error committed ran =>
    cases failed
    rw [recopy] at ran
    split at ran
    next =>
      cases ran
      rfl
    next repairs _ =>
      unfold commitRecopy at ran
      cases commit : answers.commit with
      | committed =>
        simp only [commit, CommitAnswer.failure] at ran
        cases ran
      | refused cause =>
        simp only [commit, CommitAnswer.failure, CommitAnswer.lands] at ran
        cases ran
        rfl
      | unanswered landed text =>
        simp only [commit, CommitAnswer.failure] at ran
        cases ran
        simp [lostOr, collided, PassError.sqlstate] at collides
  next => cases failed

section Recopying

variable {v : Verifier} {a : CheckAnswers} {through : Watermark}

/-- A recopy loop that mints a proof got there by collisions only, and its last comparison was
clean. -/
theorem recopyUntilClear_earned {left attempt : ℕ} {r : Returned} (counted : 1 ≤ attempt)
    (nothing : r.committed = []) (unproved : ¬ r.outcome.CarriesProof)
    (carries : (recopyUntilClear v a through left attempt r).outcome.CarriesProof) :
    ∃ n, Earned through (ReadEqual (a.passes n).chunks)
      (recopyUntilClear v a through left attempt r) := by
  revert carries
  induction left generalizing attempt r with
  | zero =>
    rw [recopyUntilClear]
    split
    next => exact (absurd · unproved)
    next => split <;> exact (absurd · unproved)
  | succ left ih =>
    rw [recopyUntilClear]
    split
    next => exact (absurd · unproved)
    next e failed =>
      split
      next collides =>
        simp only
        split
        next => exact (absurd · unproved)
        next swept verifies =>
          -- the comparison found the lock held, so it was held when the recopy was asked about
          have held : a.lock.err (2 * attempt - 1) = none := by
            by_contra lost
            exact a.lock.stands _ (2 * attempt) (by omega) lost (verify_ok verifies).1
          have rolledBack := recopyAll_collided failed collides held
          split
          next clean =>
            intro _
            exact ⟨attempt,
              earned_of_verify verifies clean (by rw [nothing, rolledBack]; rfl) rfl rfl⟩
          next dirty => exact ih (by omega) (by rw [nothing, rolledBack]; rfl) unproved
      next => exact (absurd · unproved)

/-- A quiesced check that carries a proof earned it by one of its comparisons. -/
theorem check_earned {policy : DivergencePolicy}
    (carries : (check v a through policy).outcome.CarriesProof) :
    ∃ n, Earned through (ReadEqual (a.passes n).chunks) (check v a through policy) := by
  have empty : ¬ ({} : Outcome).CarriesProof := by decide
  revert carries
  unfold check
  split
  next valid =>
    split
    next => exact (absurd · empty)
    next =>
      split
      next => exact (absurd · empty)
      next swept verifies =>
        unfold checkSwept
        split
        next clean => exact fun _ => ⟨0, earned_of_verify verifies clean rfl rfl rfl⟩
        next =>
          have unproved : ¬ ({ report := swept.report } : Outcome).CarriesProof := fun minted =>
            minted.elim (fun clean => clean rfl) fun verified => verified rfl
          cases policy with
          | abort | other _ => exact (absurd · unproved)
          | repair => exact (absurd · fun minted => unproved minted)
          | recopy =>
            intro carries
            obtain ⟨n, earned⟩ := recopyUntilClear_earned (le_refl 1) rfl unproved carries
            exact ⟨n, earned.committed, earned.repairs, earned.mismatches, earned.unsettled,
              earned.watermark, earned.covers, earned.complete⟩
  next => exact (absurd · empty)

end Recopying

section Live

variable {v : Verifier} {a : LiveAnswers} {through : Watermark}

/-- The settle of the chunk found it equal or settled. -/
def SettledBy (outside : ℕ → Outside) (attempts polls : ℕ) (prior : Observation) : Prop :=
  ∃ i done, settle (outside i) attempts polls prior 0 = .ok done ∧
    (done.verdict = .equal ∨ done.verdict = .settled)

/-- Settling never clears what a report counts, so a clean report has every chunk settled. -/
theorem settleAll_clean {outside : ℕ → Outside} {attempts polls i : ℕ} {todo : List Observation}
    {report after : Report} {first unresolved : Option UnresolvedError}
    (settles : settleAll outside attempts polls i todo report first = .ok (after, unresolved))
    (clean : after.clean = true) :
    report.clean = true ∧ after.through = report.through ∧
      ∀ prior ∈ todo, SettledBy outside attempts polls prior := by
  induction todo generalizing i report first with
  | nil =>
    cases settles
    exact ⟨clean, rfl, fun prior member => absurd member List.not_mem_nil⟩
  | cons prior rest ih =>
    unfold settleAll at settles
    split at settles
    next =>
      obtain ⟨counted, -, -⟩ := ih settles
      exact absurd (Report.clean_iff.mp counted).2 (Nat.succ_ne_zero _)
    next => cases settles
    next =>
      obtain ⟨listed, -, -⟩ := ih settles
      exact absurd (Report.clean_iff.mp listed).1 (by simp)
    next => cases settles
    next done notDiverged notHot found =>
      obtain ⟨before, kept, others⟩ := ih settles
      refine ⟨before, kept, fun other member => ?_⟩
      rcases List.mem_cons.mp member with rfl | later
      · refine ⟨i, done, found, ?_⟩
        obtain ⟨verdict, last, rereads⟩ := done
        cases verdict with
        | equal => exact Or.inl rfl
        | settled => exact Or.inr rfl
        | hot => exact absurd rfl (notHot last rereads)
        | diverged => exact absurd rfl (notDiverged last rereads)
      · exact others other later

/-- Both sides of the range were read equal in one of the pass's transactions, which committed, or
the difference it read settled from the position the transaction marked. -/
def ReadEqualOrSettled (a : LiveAnswers) (live : LiveOptions) (c : Comparison) : Prop :=
  ∃ read ∈ a.reads.chunks, ∃ source shadow, read.Answers c.compared source shadow ∧
    (source = shadow ∨ ∃ lsn, read.mark = .ok lsn ∧
      SettledBy a.settles live.attempts.toNat live.polls ⟨c.compared, source, shadow, lsn⟩)

/-- A clean report has every key read equal or settled. -/
theorem sweepAndSettle_clean {through : Key} {live : LiveOptions} {report : Report}
    {unresolved : Option UnresolvedError} {compared : List Comparison}
    (settles : sweepAndSettle a through live = .ok (report, unresolved, compared))
    (clean : report.clean = true) :
    report.through = some through ∧
      ∀ key, key ≤ through → ∃ c, ComparedOnce compared key c ∧ ReadEqualOrSettled a live c := by
  simp only [sweepAndSettle, bind_ok] at settles
  obtain ⟨_, _, swept, sweeps, ⟨after, first⟩, settled, ends⟩ := settles
  split at ends
  · cases ends
  · cases ends
    obtain ⟨recorded, made, once⟩ := sweep_ok sweeps
    obtain ⟨-, kept, all⟩ := settleAll_clean settled clean
    refine ⟨kept.trans recorded.through, fun key below => ?_⟩
    obtain ⟨c, here⟩ := once key below
    have member := mem_of_comparedOnce here
    obtain ⟨read, among, answers, marks⟩ := made c member
    refine ⟨c, here, read, among, c.source, c.shadow, answers, ?_⟩
    by_cases equal : c.source = c.shadow
    · exact Or.inl equal
    · exact Or.inr ⟨c.lsn, marks rfl equal, all _ (recorded.watched rfl c member equal)⟩

/-- A live check that carries a proof earned it. -/
theorem checkLive_earned {policy : DivergencePolicy} {live : LiveOptions}
    (carries : (checkLive v a through policy live).outcome.CarriesProof) :
    Earned through (ReadEqualOrSettled a live.withDefaults)
      (checkLive v a through policy live) := by
  have empty : ¬ ({} : Outcome).CarriesProof := by decide
  revert carries
  unfold checkLive
  split
  next => exact (absurd · empty)
  next =>
    split
    next => exact (absurd · empty)
    next =>
      split
      next => exact (absurd · empty)
      next =>
        split
        next => exact (absurd · empty)
        next top =>
          split
          next => exact (absurd · empty)
          next report unresolved compared settles =>
            have unproved : ¬ ({ report } : Outcome).CarriesProof := fun minted =>
              minted.elim (fun clean => clean rfl) fun verified => verified rfl
            unfold checkSettled
            split
            next clean =>
              intro _
              obtain ⟨mismatches, unsettled⟩ := Report.clean_iff.mp clean
              obtain ⟨kept, covers⟩ := sweepAndSettle_clean settles clean
              refine ⟨rfl, rfl, mismatches, unsettled, kept, ?_, fun minted => ?_⟩
              · intro key reached
                exact covers key (by simpa [Watermark.reaches] using reached)
              · exact kept ▸ prove_verified minted
            next =>
              split
              next => exact (absurd · unproved)
              next =>
                cases policy with
                | repair => exact (absurd · fun minted => unproved minted)
                | abort | recopy | other _ => exact (absurd · unproved)

end Live

/-- **Only a clean pass mints a proof.** Each key up to the watermark lay in exactly one compared
range, and one transaction of the last comparison answered that range's two digests equal, or, in a
live pass, the difference it answered settled. -/
theorem proof_only_of_clean_pass (v : Verifier) (through : Watermark) (policy : DivergencePolicy) :
    (∀ a : CheckAnswers, (check v a through policy).outcome.CarriesProof →
      ∃ n, Earned through (ReadEqual (a.passes n).chunks) (check v a through policy)) ∧
    ∀ (a : LiveAnswers) (live : LiveOptions),
      (checkLive v a through policy live).outcome.CarriesProof →
        Earned through (ReadEqualOrSettled a live.withDefaults)
          (checkLive v a through policy live) :=
  ⟨fun _ carries => check_earned carries, fun _ _ carries => checkLive_earned carries⟩

/-- The lock is never lost. -/
def heldLock : LockSession := ⟨fun _ => none, fun _ _ _ lost => lost⟩

/-- A verifier of `public.orders` that recopies twice. -/
def ordersVerifier : Verifier := ⟨⟨"public", "orders", "_orders_new", 1, 2⟩, 2⟩

/-- Two chunks, split after key 9; the second is read as given. -/
def twoChunks (source shadow : Digest) : List ChunkRead :=
  [{ boundary := .ok (.key 9), source := fun _ => .ok ⟨4, "a"⟩, shadow := fun _ => .ok ⟨4, "a"⟩ },
    { boundary := .ok .noRow, source := fun _ => .ok source, shadow := fun _ => .ok shadow
      mark := .ok 10 }]

/-- The first comparison finds a difference whose recopy collides; the second is clean. -/
def collidesOnce : CheckAnswers where
  lock := heldLock
  passes n := { chunks := twoChunks ⟨2, "b"⟩ (if n = 0 then ⟨2, "c"⟩ else ⟨2, "b"⟩) }
  rereads _ := .ok (⟨2, "b"⟩, ⟨2, "b"⟩)
  recopies _ :=
    { clears := fun _ => .ok 2
      copies := fun _ => .error { text := "duplicate key value", sqlstate := some "23505" }
      commit := .committed }
  now := 0

/-- The sweep finds a difference that the reread finds gone. -/
def settlesOnce : LiveAnswers where
  lock := heldLock
  reads := { chunks := twoChunks ⟨2, "b"⟩ ⟨2, "c"⟩ }
  settles _ := alwaysReads 10 ⟨⟨10, Int64.maxValue, 0, by decide⟩, ⟨2, "b"⟩, ⟨2, "b"⟩, 20⟩
  recopy := { clears := fun _ => .ok 0, copies := fun _ => .ok 0, commit := .committed }
  repaired _ := alwaysReads 10 ⟨⟨10, Int64.maxValue, 0, by decide⟩, ⟨2, "b"⟩, ⟨2, "b"⟩, 20⟩
  now := 0

/-- Both runs end with a proof. -/
theorem orders_carry_proof :
    (check ordersVerifier collidesOnce (some Int64.maxValue) .recopy).outcome.CarriesProof ∧
      (checkLive ordersVerifier settlesOnce (some Int64.maxValue) .abort
        { hasConfirmed := true, hasFlushes := false }).outcome.CarriesProof := by
  decide +kernel

/-- A check with a collision, and a live one that settles. -/
theorem proof_only_of_clean_pass_orders :
    (check ordersVerifier collidesOnce (some Int64.maxValue) .recopy).committed = [] ∧
      (checkLive ordersVerifier settlesOnce (some Int64.maxValue) .abort
        { hasConfirmed := true, hasFlushes := false }).outcome.clean = some Int64.maxValue := by
  obtain ⟨n, earned⟩ := (proof_only_of_clean_pass ordersVerifier (some Int64.maxValue) .recopy).1
    collidesOnce orders_carry_proof.1
  exact ⟨earned.committed,
    ((proof_only_of_clean_pass ordersVerifier (some Int64.maxValue) .abort).2 settlesOnce
      { hasConfirmed := true, hasFlushes := false } orders_carry_proof.2).watermark⟩

end PgSprite.Checksum
