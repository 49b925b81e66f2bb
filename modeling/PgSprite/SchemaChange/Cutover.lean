/-
**The cutover: one transaction that swaps the shadow in, tried until its outcome is known.**

`swapOnce` is one attempt, as a function of the catalog it meets and of what its steps answer.
An attempt the client stopped hearing from is followed to its backend's exit and its outcome read
from the catalog; one that lost the wait for its lock is made again.

* `cutover_reports_truth` — called with the source live, a swap is reported only where it committed,
  a roll back only where the source is live, and no attempt follows one that was not heard from;
* `rolledBack_iff` — exactly when a failure before COMMIT is reported as a roll back;
* `drain_deadline_ambiguous` — one that is not.
-/

import PgSprite.Checksum.Check
import PgSprite.SchemaChange.Swapped

namespace PgSprite.SchemaChange

open PgSprite.Decode PgSprite.Lib PgSprite.Checksum PgSprite.Copier

/-- Nanoseconds. -/
abbrev Duration := Int

/-- The bounds of the swap; zero takes the default. -/
structure CutoverOptions where
  lockTimeout : Duration := 0
  statementTimeout : Duration := 0
  lockAttempts : Int := 0
  lockBackoff : Duration := 0
  /-- The swap of a quiesced proof is held to the write fence. -/
  requireWriteFence : Bool := false

namespace CutoverOptions

/-- PostgreSQL's resolution of a timeout. -/
def millisecond : Duration := 1000000

/-- A bound the swap could not honour is refused. -/
def valid (o : CutoverOptions) : Bool :=
  (o.lockTimeout = 0 || o.lockTimeout ≥ millisecond) &&
    (o.statementTimeout = 0 || o.statementTimeout ≥ millisecond) &&
    o.lockAttempts ≥ 0 && o.lockBackoff ≥ 0

/-- How many attempts are made at most. -/
def attempts (o : CutoverOptions) : ℕ := if o.lockAttempts = 0 then 5 else o.lockAttempts.toNat

/-- How long a lost attempt's backend is followed: its longest lock wait and statement. -/
def exitBound (o : CutoverOptions) : Duration :=
  (if o.lockTimeout = 0 then 3000 * millisecond else o.lockTimeout) +
    (if o.statementTimeout = 0 then 30000 * millisecond else o.statementTimeout)

/-- How often the server is asked whether it has exited, every fifty milliseconds. -/
def polls (o : CutoverOptions) : ℕ := (o.exitBound / (50 * millisecond)).toNat + 1

end CutoverOptions

/-- What the gate proved ready to swap: the built shadow, and the pass that verified it. -/
structure CutoverReady where
  built : Proof
  verified : VerifiedShadow
  deriving Repr

/-- What a COMMIT comes to: done, refused by the server, or not heard of, with the driver's own
messages around what it reports. -/
inductive SwapCommit where
  | committed
  | answered (e : DriverError)
  | lost (how : Lost) (messages : List String) (landed : Bool)

/-- The server process that runs an attempt. -/
structure Backend where
  pid : UInt32
  started : ℕ
  deriving DecidableEq, Repr

/-- What the steps of one attempt answer, in order. A step that is not reached, or that this swap
does not have, is not asked. -/
structure Attempt where
  begins : Option DriverError := none
  backend : Except DriverError Backend
  session : Option DriverError := none
  confirmsLock : Option Error := none
  locks : Option DriverError := none
  fence : Option Error := none
  drain : Option Error := none
  shape : Option Error := none
  gate : Option Error := none
  renames : Option DriverError := none
  handOff : Option Error := none
  confirms : Option Error := none
  commit : SwapCommit := .committed

section Swap

variable (ready : CutoverReady) (drained : Bool) (opts : CutoverOptions)

/-- The first step of an attempt that fails, before COMMIT is sent. -/
def Attempt.stops (a : Attempt) : Option Error :=
  (a.session.map ofDriver).or <| a.confirmsLock.or <| (a.locks.map ofDriver).or <|
    (if opts.requireWriteFence && !ready.verified.live then a.fence else none).or <|
    (if drained then a.drain.map (wrap "drain captured changes") else none).or <|
    a.shape.or <| a.gate.or <| (a.renames.map ofDriver).or <| a.handOff.or a.confirms

/-- Refuses a swap that did not leave the two relations under each other's names. -/
def confirmSwap (c : Catalog) : Except Error Unit :=
  if c.source ≠ some ready.built.shadowOID then .error (refuse .swapMismatch [])
  else if c.old ≠ some ready.built.sourceOID then .error (refuse .swapMismatch [])
  else .ok ()

/-- Every statement of the swap up to COMMIT: the catalog it would leave. -/
def swapInTx (c : Catalog) (a : Attempt) : Except Error Catalog :=
  match a.stops ready drained opts with
  | some e => .error e
  | none =>
    match confirmSwap ready c.renamed with
    | .error e => .error e
    | .ok () => .ok c.renamed

/-- The proof of the swap an attempt committed. -/
def newSwappedTable (attempts : ℕ) : SwappedTable where
  schema := ready.built.schema
  table := ready.built.sourceTable
  liveOID := ready.built.shadowOID
  oldOID := ready.built.sourceOID
  owner := ready.built.owner
  identities := ready.built.identityColumns
  attempts := attempts

/-- What an attempt returns, its backend if it got as far as reading it, the catalog it leaves once
its backend has ended, and whether its COMMIT was sent and never answered. -/
structure Tried where
  result : Except Error SwappedTable
  backend : Option Backend
  catalog : Catalog
  unheard : Bool := false

/-- One attempt at the swap transaction. -/
def swapOnce (c : Catalog) (a : Attempt) : Tried :=
  match a.begins with
  | some e =>
    { result := .error (wrap "begin cutover" (ofDriver e)), backend := none, catalog := c }
  | none =>
    match a.backend with
    | .error e =>
      { result := .error (wrap "read cutover backend" (ofDriver e)), backend := none
        catalog := c }
    | .ok backend =>
      match swapInTx ready drained opts c a with
      | .error e => { result := .error e, backend := some backend, catalog := c }
      | .ok renamed =>
        match a.commit with
        | .committed =>
          { result := .ok (newSwappedTable ready 0), backend := some backend
            catalog := renamed }
        | .answered e =>
          { result := .error (wrap "commit cutover" (ofDriver e)), backend := some backend
            catalog := c }
        | .lost how messages landed =>
          { result := .error (wrap "commit cutover" (how.error messages))
            backend := some backend
            catalog := if landed then renamed else c
            unheard := true }

/-- A failure whose attempt is known to have left the source live. -/
def rolledBack (e : Error) : Error :=
  .node (.driver (.text "")) [.leaf .cutoverRolledBack, e]

/-- What is answered while a lost attempt is followed and its outcome read. -/
structure Following where
  /-- Whether the backend is still registered, at each poll. -/
  present : ℕ → Except DriverError Bool
  sleeps : ℕ → Option DriverError
  begins : Option DriverError := none
  reads : SwapReads
  ends : Option DriverError := none

/-- Waits until the attempt's backend has left, `left` more polls from the i-th. -/
def awaitBackendExit (f : Following) : ℕ → ℕ → Except Error Unit
  | 0, _ => .error (.leaf (.driver (.text "backend of the lost cutover attempt is still running")))
  | left + 1, i =>
    match f.present i with
    | .error e => .error (ofDriver e)
    | .ok false => .ok ()
    | .ok true =>
      match f.sleeps i with
      | some e => .error (ofDriver e)
      | none => awaitBackendExit f left (i + 1)

/-- Reads the swap's outcome from a fresh connection. -/
def readOutcome (c : Catalog) (f : Following) : Except Error SwappedTable := do
  answered f.begins
  let swapped ← readSwappedTable c ready.built f.reads
  answered f.ends
  return swapped

/-- Learns what became of an attempt the client stopped hearing from. -/
def resolveUnknownOutcome (c : Catalog) (backend : Option Backend) (attempt : ℕ) (lost : Error)
    (f : Following) : Except Error SwappedTable :=
  match backend with
  | none => .error (rolledBack (wrap "cutover ended before its transaction began" lost))
  | some _ =>
    match awaitBackendExit f opts.polls 0 with
    | .error e => .error (refuse .outcomeAmbiguous [lost, e])
    | .ok () =>
      match readOutcome ready c f with
      | .ok swapped => .ok { swapped with attempts := attempt }
      | .error e =>
        if isError .notSwapped e then
          .error (rolledBack (wrap "cutover rolled back when its attempt was cut short" lost))
        else .error (join [lost, e])

/-- What a lock session says of the table's lock before a call. -/
inductive TableLock where
  | held
  /-- There is no session, or it is for another table. -/
  | unproven
  | lost (e : DriverError)

/-- Refuses to touch a shadow without the table's lock. -/
def requireTableLock : TableLock → Option Error
  | .held => none
  | .unproven => some (refuse .lockUnproven [])
  | .lost e => some (refuse .lockLost [ofDriver e])

/-- What the attempts, the waits between them and the reads after them answer. -/
structure CutoverAnswers where
  attempt : ℕ → Attempt
  /-- The wait after an attempt is cut short. -/
  sleeps : ℕ → Option DriverError
  following : Following
  lock : TableLock := .held
  /-- The lock session has reported its loss by the end of the call. -/
  lockErr : Option DriverError := none

/-- The wait before the next attempt; there is none after the last. -/
def CutoverAnswers.backoff (a : CutoverAnswers) (left i : ℕ) : Option DriverError :=
  if left = 0 then none else a.sleeps i

/-- What a call of the cutover returns, the catalog it leaves, and the attempts it made. -/
structure CutOver where
  result : Except Error SwappedTable
  catalog : Catalog
  tries : List (Attempt × Tried)

/-- Attempt after attempt, `left` more after the last one that failed with `last`. -/
def cutoverWithRetry (a : CutoverAnswers) (c : Catalog) : ℕ → ℕ → Option Error → CutOver
  | 0, _, last =>
    ⟨.error (rolledBack (join (.leaf .lockRetriesExhausted :: last.toList))), c, []⟩
  | left + 1, i, _ =>
    let tried := swapOnce ready drained opts c (a.attempt i)
    let made := (a.attempt i, tried)
    match tried.result with
    | .ok swapped => ⟨.ok { swapped with attempts := i + 1 }, tried.catalog, [made]⟩
    | .error e =>
      if outcomeUnknown e then
        ⟨resolveUnknownOutcome ready opts tried.catalog tried.backend (i + 1) e a.following,
          tried.catalog, [made]⟩
      else if !lockRetryable e then ⟨.error (rolledBack e), tried.catalog, [made]⟩
      else
        match a.backoff left i with
        | some stopped => ⟨.error (rolledBack (ofDriver stopped)), tried.catalog, [made]⟩
        | none =>
          let rest := cutoverWithRetry a tried.catalog left (i + 1) (some e)
          { rest with tries := made :: rest.tries }

/-- The failure, as the loss of the lock where the session has reported one. -/
def lockLossCause (lockErr : Option DriverError) (e : Error) : Error :=
  match lockErr with
  | none => e
  | some lost => refuse .lockLost [ofDriver lost, e]

/-- Refuses proofs that are empty, that are not for each other, or that leave keys unverified. -/
def checkCutoverProofs : Option Error :=
  let built := ready.built
  let verified := ready.verified
  if built.shadowTable = "" || verified.table = "" ||
      (verified.schema ≠ built.schema || verified.table ≠ built.sourceTable ||
        verified.shadow ≠ built.shadowTable) ||
      (verified.sourceOID ≠ built.sourceOID || verified.shadowOID ≠ built.shadowOID) ||
      !verified.watermark.complete then
    some (refuse .cutoverUnverified [])
  else none

/-- Refuses a live proof with no drain to finish it. -/
def checkDrain : Option Error :=
  if ready.verified.live && !drained then some (refuse .cutoverUndrained []) else none

/-- Why a call is refused before its first attempt. -/
def refused (lock : TableLock) : Option Error :=
  (if opts.valid then none else some (.leaf .invalidOptions)).or <|
    (checkCutoverProofs ready).or <| (checkDrain ready drained).or (requireTableLock lock)

/-- Swaps the verified shadow in for the source. -/
def cutover (a : CutoverAnswers) (c : Catalog) : CutOver :=
  match refused ready drained opts a.lock with
  | some e => ⟨.error e, c, []⟩
  | none =>
    let made := cutoverWithRetry ready drained opts a c opts.attempts 0 none
    match made.result with
    | .ok swapped => { made with result := .ok swapped }
    | .error e => { made with result := .error (lockLossCause a.lockErr e) }

end Swap

/-! ### What is reported -/

section Reports

variable {ready : CutoverReady} {drained : Bool} {opts : CutoverOptions} {c : Catalog}

theorem cutoverRolledBack_isSentinel : IsSentinel .cutoverRolledBack :=
  ⟨fun _ => nofun, fun _ => nofun, nofun⟩

theorem notSwapped_isSentinel : IsSentinel .notSwapped :=
  ⟨fun _ => nofun, fun _ => nofun, nofun⟩

theorem isError_rolledBack (e : Error) : isError .cutoverRolledBack (rolledBack e) = true := by
  simp [isError, rolledBack, ErrorTree.is]

theorem swapInTx_ok {a : Attempt} {renamed : Catalog}
    (swapped : swapInTx ready drained opts c a = .ok renamed) :
    a.stops ready drained opts = none ∧ renamed.source = some ready.built.shadowOID := by
  unfold swapInTx at swapped
  split at swapped
  · cases swapped
  next clear =>
    split at swapped
    · cases swapped
    next confirmed =>
      cases swapped
      unfold confirmSwap at confirmed
      split_ifs at confirmed with other
      exact ⟨clear, not_not.mp other⟩

/-- The error of a lost connection holds no sentinel of the package. -/
theorem Lost.not_isError {sentinel : Cause} (own : IsSentinel sentinel) (how : Lost)
    (messages : List String) : isError sentinel (how.error messages) = false := by
  unfold Lost.error
  induction messages with
  | nil =>
    rw [List.foldr_nil, Bool.eq_false_iff]
    exact fun named => own.1 _ (isError_leaf.mp named).symm
  | cons message rest ih => rwa [List.foldr_cons, isError_wrap (own.1 _)]

/-- **How an attempt ends**: with the swap committed, with the catalog as it was, or not heard of
and with either. -/
theorem swapOnce_cases (ready : CutoverReady) (drained : Bool) (opts : CutoverOptions) (c : Catalog)
    (a : Attempt) (t : Tried) (tried : swapOnce ready drained opts c a = t) :
    (∃ swapped, t.result = .ok swapped ∧ t.catalog.source = some ready.built.shadowOID ∧
      t.unheard = false) ∨
    (∃ e, t.result = .error e ∧ t.catalog = c ∧ t.unheard = false) ∨
    ∃ e, t.result = .error e ∧ t.backend ≠ none ∧ outcomeUnknown e = true ∧
      isError .cutoverRolledBack e = false ∧ t.unheard = true ∧
      (t.catalog = c ∨ t.catalog.source = some ready.built.shadowOID) := by
  subst tried
  unfold swapOnce
  split
  · exact Or.inr (Or.inl ⟨_, rfl, rfl, rfl⟩)
  · split
    · exact Or.inr (Or.inl ⟨_, rfl, rfl, rfl⟩)
    · split
      · exact Or.inr (Or.inl ⟨_, rfl, rfl, rfl⟩)
      next renamed swapped =>
        have bears := (swapInTx_ok swapped).2
        split
        · exact Or.inl ⟨_, rfl, bears, rfl⟩
        · exact Or.inr (Or.inl ⟨_, rfl, rfl, rfl⟩)
        next how messages landed _ =>
          refine Or.inr (Or.inr ⟨_, rfl, nofun, ?_, ?_, rfl, ?_⟩)
          · rw [outcomeUnknown_wrap, Lost.outcomeUnknown_error]
          · rw [isError_wrap (by simp), Lost.not_isError cutoverRolledBack_isSentinel]
          · cases landed with
            | true => exact Or.inr bears
            | false => exact Or.inl rfl

/-- Waiting for the backend never fails with a sentinel. -/
theorem not_isError_awaitBackendExit {sentinel : Cause} (own : IsSentinel sentinel) {f : Following}
    {left i : ℕ} {e : Error} (failed : awaitBackendExit f left i = .error e) :
    isError sentinel e = false := by
  induction left generalizing i with
  | zero =>
    cases failed
    exact Bool.eq_false_iff.mpr fun named => own.1 _ (isError_leaf.mp named).symm
  | succ left ih =>
    unfold awaitBackendExit at failed
    split at failed
    · cases failed
      exact isError_ofDriver own
    · cases failed
    · split at failed
      · cases failed
        exact isError_ofDriver own
      · exact ih failed

theorem readOutcome_ok {f : Following} {swapped : SwappedTable}
    (read : readOutcome ready c f = .ok swapped) : c.source = some ready.built.shadowOID := by
  simp only [readOutcome, bind_ok] at read
  obtain ⟨_, -, t, minted, _, -, -⟩ := read
  exact (readSwappedTable_ok minted).1

/-- The sentinels a read of the outcome can fail with, and what the catalog then shows. -/
theorem readOutcome_error {f : Following} {e : Error} {sentinel : Cause} (own : IsSentinel sentinel)
    (read : readOutcome ready c f = .error e) (named : isError sentinel e = true) :
    sentinel = .notSwapped ∧ c.source = some ready.built.sourceOID ∨
      sentinel = .oldTableNotFound := by
  simp only [readOutcome, bind_error] at read
  rcases read with failed | ⟨_, -, failed | ⟨t, -, failed | ⟨_, -, failed⟩⟩⟩
  · exact absurd named (not_isError_answered own failed)
  · rcases readSwappedTable_error own failed named with live | ⟨gone, -⟩
    · exact Or.inl live
    · exact Or.inr gone
  · exact absurd named (not_isError_answered own failed)
  · cases failed

/-- A lost attempt is reported swapped only where the shadow bears the name. -/
theorem resolveUnknownOutcome_ok {backend : Option Backend} {attempt : ℕ} {lost : Error}
    {f : Following} {swapped : SwappedTable}
    (resolved : resolveUnknownOutcome ready opts c backend attempt lost f = .ok swapped) :
    c.source = some ready.built.shadowOID := by
  unfold resolveUnknownOutcome at resolved
  split at resolved
  · cases resolved
  · split at resolved
    · cases resolved
    · split at resolved
      next read => exact readOutcome_ok read
      next => split_ifs at resolved

/-- A lost attempt is reported rolled back only where the source bears the name, where the attempt
never got a backend, or where its own error says so. -/
theorem resolveUnknownOutcome_error {backend : Option Backend} {attempt : ℕ} {lost e : Error}
    {f : Following}
    (resolved : resolveUnknownOutcome ready opts c backend attempt lost f = .error e)
    (named : isError .cutoverRolledBack e = true) :
    backend = none ∨ isError .cutoverRolledBack lost = true ∨
      c.source = some ready.built.sourceOID := by
  unfold resolveUnknownOutcome at resolved
  split at resolved
  · exact Or.inl rfl
  · split at resolved
    next awaited =>
      cases resolved
      rw [isError_refuse cutoverRolledBack_isSentinel] at named
      have silent := not_isError_awaitBackendExit cutoverRolledBack_isSentinel awaited
      simp only [List.any_cons, silent, List.any_nil, Bool.or_false] at named
      exact Or.inr (Or.inl named)
    · split at resolved
      · cases resolved
      next read =>
        split_ifs at resolved with live
        · rcases readOutcome_error notSwapped_isSentinel read live with ⟨-, source⟩ | other
          · exact Or.inr (Or.inr source)
          · cases other
        · cases resolved
          rw [isError_join cutoverRolledBack_isSentinel] at named
          simp only [List.any_cons, List.any_nil, Bool.or_false, Bool.or_eq_true] at named
          rcases named with named | named
          · exact Or.inr (Or.inl named)
          · rcases readOutcome_error cutoverRolledBack_isSentinel read named with ⟨other, -⟩ | other
            · cases other
            · cases other

/-- What a sequence of attempts reports is true. -/
structure Truthful (ready : CutoverReady) (r : CutOver) : Prop where
  /-- A swap is reported only where the shadow bears the source's name. -/
  swapped : ∀ t, r.result = .ok t → r.catalog.source = some ready.built.shadowOID
  /-- A roll back is reported only where the source does. -/
  live : ∀ e, r.result = .error e → isError .cutoverRolledBack e = true →
    r.catalog.source = some ready.built.sourceOID
  /-- Every attempt that is followed by another was heard from, and is known to have failed. -/
  heard : ∀ i t, i + 1 < r.tries.length → r.tries[i]? = some t →
    t.2.unheard = false ∧ ∃ e, t.2.result = .error e ∧ outcomeUnknown e = false

theorem Truthful.single {r : CutOver} {made : Attempt × Tried} (only : r.tries = [made])
    (swapped : ∀ t, r.result = .ok t → r.catalog.source = some ready.built.shadowOID)
    (live : ∀ e, r.result = .error e → isError .cutoverRolledBack e = true →
      r.catalog.source = some ready.built.sourceOID) : Truthful ready r where
  swapped := swapped
  live := live
  heard := by
    intro i t more
    rw [only, List.length_singleton] at more
    omega

/-- **Attempt after attempt reports the truth**: by induction on the attempts left, since every
attempt that is followed by another leaves the catalog as it was. -/
theorem cutoverWithRetry_truthful (ready : CutoverReady) (drained : Bool) (opts : CutoverOptions)
    (a : CutoverAnswers) (left i : ℕ) (last : Option Error)
    (live : c.source = some ready.built.sourceOID) :
    Truthful ready (cutoverWithRetry ready drained opts a c left i last) ∧
      (cutoverWithRetry ready drained opts a c left i last).tries.length ≤ left := by
  induction left generalizing i last c with
  | zero =>
    refine ⟨⟨nofun, fun _ _ _ => live, ?_⟩, le_rfl⟩
    intro i t more
    exact absurd more (by simp [cutoverWithRetry])
  | succ left ih =>
    have ended := swapOnce_cases ready drained opts c (a.attempt i) _ rfl
    unfold cutoverWithRetry
    generalize swapOnce ready drained opts c (a.attempt i) = tried at ended ⊢
    dsimp only
    split
    next swapped result =>
      refine ⟨.single rfl (fun _ _ => ?_) nofun, by simp⟩
      rcases ended with ⟨-, -, bears, -⟩ | ⟨e, failed, -⟩ | ⟨e, failed, -⟩
      · exact bears
      · exact absurd (result.symm.trans failed) nofun
      · exact absurd (result.symm.trans failed) nofun
    next e result =>
      rcases ended with ⟨_, done, -⟩ | ⟨_, failed, kept, heard⟩ |
        ⟨e', failed, got, unknown, silent, -⟩
      · exact absurd (result.symm.trans done) nofun
      · have source : tried.catalog.source = some ready.built.sourceOID := kept ▸ live
        split_ifs with unknown final
        · exact ⟨.single rfl (fun _ resolved => resolveUnknownOutcome_ok resolved)
            fun _ _ _ => source, by simp⟩
        · exact ⟨.single rfl nofun fun _ _ _ => source, by simp⟩
        · split
          · exact ⟨.single rfl nofun fun _ _ _ => source, by simp⟩
          · obtain ⟨rest, short⟩ := ih (i + 1) (some e) source
            refine ⟨⟨rest.swapped, rest.live, ?_⟩, by simpa using short⟩
            intro j t more found
            cases j with
            | zero =>
              cases found
              exact ⟨heard, e, result, Bool.eq_false_iff.mpr unknown⟩
            | succ j => exact rest.heard j t (by simpa using more) found
      · cases result.symm.trans failed
        rw [if_pos unknown]
        refine ⟨.single rfl (fun _ resolved => resolveUnknownOutcome_ok resolved) ?_, by simp⟩
        intro e resolved named
        rcases resolveUnknownOutcome_error resolved named with none | own | source
        · exact absurd none got
        · exact absurd (own.symm.trans silent) nofun
        · exact source

theorem isError_lockLossCause {lockErr : Option DriverError} {e : Error} :
    isError .cutoverRolledBack (lockLossCause lockErr e) = isError .cutoverRolledBack e := by
  unfold lockLossCause
  split
  · rfl
  next lost =>
    rw [isError_refuse cutoverRolledBack_isSentinel]
    simp [isError_ofDriver cutoverRolledBack_isSentinel]

/-- **The cutover of a live source reports the truth.** Whatever the attempts answer, a swapped
table is returned only where the shadow bears the source's name, and an error that says the swap
rolled back only where the source does; no attempt follows one that was not heard from, and there
are at most as many as the options allow. -/
theorem cutover_reports_truth (ready : CutoverReady) (drained : Bool) (opts : CutoverOptions)
    (a : CutoverAnswers) (c : Catalog) (live : c.source = some ready.built.sourceOID) :
    Truthful ready (cutover ready drained opts a c) ∧
      (cutover ready drained opts a c).tries.length ≤ opts.attempts := by
  unfold cutover
  split
  · refine ⟨⟨nofun, fun _ _ _ => live, ?_⟩, Nat.zero_le _⟩
    intro i t more
    exact absurd more (by simp)
  · obtain ⟨truthful, short⟩ :=
      cutoverWithRetry_truthful ready drained opts a opts.attempts 0 none live
    dsimp only
    split
    next swapped result =>
      exact ⟨⟨fun _ _ => truthful.swapped swapped result, nofun, truthful.heard⟩, short⟩
    next e result =>
      refine ⟨⟨nofun, ?_, truthful.heard⟩, short⟩
      intro e' returned named
      cases returned
      rw [isError_lockLossCause] at named
      exact truthful.live e result named

end Reports

/-! ### Failures before COMMIT -/

/-- The attempt fails before COMMIT is sent, on a connection that stays usable: its transaction is
rolled back, and its backend goes back to the pool. -/
structure FailsBeforeCommit (ready : CutoverReady) (drained : Bool) (opts : CutoverOptions)
    (a : Attempt) (e : Error) : Prop where
  begins : a.begins = none
  backend : ∃ b, a.backend = .ok b
  stops : a.stops ready drained opts = some e

/-- The reads made after a lost attempt are answered. -/
structure ReadsSucceed (f : Following) : Prop where
  present : ∀ i, ∃ here, f.present i = .ok here
  sleeps : ∀ i, f.sleeps i = none
  begins : f.begins = none
  ends : f.ends = none
  holders : ∃ n, f.reads.holders = .ok n
  live : f.reads.live = none

/-- The attempt's backend leaves the server while it is followed, and nobody else then holds either
relation exclusively. -/
def LeavesInTime (opts : CutoverOptions) (f : Following) : Prop :=
  (∃ i < opts.polls, f.present i = .ok false) ∧ f.reads.holders = .ok 0

section BeforeCommit

variable {ready : CutoverReady} {drained : Bool} {opts : CutoverOptions} {c : Catalog}
  {a : Attempt} {f : Following} {e : Error}

theorem FailsBeforeCommit.swapOnce (fails : FailsBeforeCommit ready drained opts a e) :
    ∃ b, swapOnce ready drained opts c a =
      { result := .error e, backend := some b, catalog := c } := by
  obtain ⟨b, backend⟩ := fails.backend
  refine ⟨b, ?_⟩
  have stopped : swapInTx ready drained opts c a = .error e := by
    rw [swapInTx, fails.stops]
  simp only [SchemaChange.swapOnce, fails.begins, backend, stopped]

/-- The wait ends well exactly when a poll finds the backend gone. -/
theorem awaitBackendExit_ok_iff (answers : ReadsSucceed f) (left i : ℕ) :
    awaitBackendExit f left i = .ok () ↔ ∃ j, i ≤ j ∧ j < i + left ∧ f.present j = .ok false := by
  induction left generalizing i with
  | zero =>
    refine iff_of_false nofun ?_
    rintro ⟨j, low, high, -⟩
    omega
  | succ left ih =>
    obtain ⟨here, found⟩ := answers.present i
    rw [awaitBackendExit, found]
    cases here with
    | false => exact iff_of_true rfl ⟨i, le_rfl, by omega, found⟩
    | true =>
      rw [answers.sleeps i]
      refine (ih (i + 1)).trans ⟨?_, ?_⟩
      · rintro ⟨j, low, high, gone⟩
        exact ⟨j, by omega, by omega, gone⟩
      · rintro ⟨j, low, high, gone⟩
        have later : i ≠ j := by
          rintro rfl
          exact absurd (found.symm.trans gone) (by simp)
        exact ⟨j, by omega, by omega, gone⟩

/-- With the source live, the catalog is read as not swapped exactly when nobody holds either
relation. -/
theorem readOutcome_notSwapped_iff (answers : ReadsSucceed f)
    (live : c.source = some ready.built.sourceOID) :
    ∃ e, readOutcome ready c f = .error e ∧
      (isError .notSwapped e = true ↔ f.reads.holders = .ok 0) ∧
      isError .cutoverRolledBack e = false := by
  obtain ⟨n, holders⟩ := answers.holders
  by_cases none : n = 0
  · refine ⟨.leaf .notSwapped, ?_, ?_, ?_⟩
    · simp [readOutcome, readSwappedTable, refuseSwapInFlight, confirmLive, answered, answer,
        answers.begins, answers.live, holders, none, live, bind, Except.bind]
    · simp [holders, none, isError_leaf]
    · simp [Bool.eq_false_iff, isError_leaf]
  · have held : n > 0 := Nat.pos_of_ne_zero none
    refine ⟨refuse .outcomeAmbiguous [], ?_, ?_, ?_⟩
    · simp [readOutcome, readSwappedTable, refuseSwapInFlight, answered, answer,
        answers.begins, holders, held, bind, Except.bind]
    · simp [holders, none, isError_refuse notSwapped_isSentinel]
    · simp [isError_refuse cutoverRolledBack_isSentinel]

/-- A lost attempt that left the source live is reported as a roll back exactly when its backend
leaves in time, or its own error says so. -/
theorem resolveUnknownOutcome_live (opts : CutoverOptions) (answers : ReadsSucceed f)
    (live : c.source = some ready.built.sourceOID) (b : Backend) (attempt : ℕ) (lost : Error) :
    ∃ e, resolveUnknownOutcome ready opts c (some b) attempt lost f = .error e ∧
      (isError .cutoverRolledBack e = true ↔
        LeavesInTime opts f ∨ isError .cutoverRolledBack lost = true) := by
  have exits := awaitBackendExit_ok_iff answers opts.polls 0
  unfold resolveUnknownOutcome LeavesInTime
  cases awaited : awaitBackendExit f opts.polls 0 with
  | error e =>
    refine ⟨_, rfl, ?_⟩
    have stays : ¬ ∃ i < opts.polls, f.present i = .ok false := by
      rintro ⟨i, below, gone⟩
      rw [exits.mpr ⟨i, Nat.zero_le _, by omega, gone⟩] at awaited
      cases awaited
    have silent := not_isError_awaitBackendExit cutoverRolledBack_isSentinel awaited
    rw [isError_refuse cutoverRolledBack_isSentinel]
    simp [silent, stays]
  | ok _ =>
    obtain ⟨i, -, below, gone⟩ := exits.mp awaited
    have leaves : ∃ i < opts.polls, f.present i = .ok false := ⟨i, by omega, gone⟩
    obtain ⟨e, read, notSwapped, silent⟩ := readOutcome_notSwapped_iff answers live
    simp only [read]
    by_cases clear : f.reads.holders = .ok 0
    · rw [if_pos (notSwapped.mpr clear)]
      exact ⟨_, rfl, iff_of_true (isError_rolledBack _) (Or.inl ⟨leaves, clear⟩)⟩
    · rw [if_neg (notSwapped.not.mpr clear)]
      refine ⟨_, rfl, ?_⟩
      rw [isError_join cutoverRolledBack_isSentinel]
      simp [silent, clear]

/-- The failure is reported as the roll back it was. -/
def SaysRolledBack (r : CutOver) : Prop :=
  ∃ e, r.result = .error e ∧ isError .cutoverRolledBack e = true

theorem saysRolledBack_of {r : CutOver} {e : Error} (result : r.result = .error (rolledBack e)) :
    SaysRolledBack r :=
  ⟨_, result, isError_rolledBack e⟩

theorem cutoverWithRetry_tries_ne_nil (answers : CutoverAnswers) {left i : ℕ}
    {previous : Option Error} :
    (cutoverWithRetry ready drained opts answers c (left + 1) i previous).tries ≠ [] := by
  unfold cutoverWithRetry
  dsimp only
  split
  · exact List.cons_ne_nil _ _
  · split_ifs
    · exact List.cons_ne_nil _ _
    · exact List.cons_ne_nil _ _
    · split <;> exact List.cons_ne_nil _ _

/-- A sequence of attempts that ends on a failure before COMMIT. -/
theorem cutoverWithRetry_rolledBack_iff {answers : CutoverAnswers} {t : Tried}
    (reads : ReadsSucceed answers.following) (fails : FailsBeforeCommit ready drained opts a e)
    (left i : ℕ) (previous : Option Error) (live : c.source = some ready.built.sourceOID)
    (last : (cutoverWithRetry ready drained opts answers c left i previous).tries.getLast?
      = some (a, t)) :
    SaysRolledBack (cutoverWithRetry ready drained opts answers c left i previous) ↔
      (outcomeUnknown e = true →
        LeavesInTime opts answers.following ∨ isError .cutoverRolledBack e = true) := by
  induction left generalizing i previous c with
  | zero => exact absurd last (by simp [cutoverWithRetry])
  | succ left ih =>
    have ended := swapOnce_cases ready drained opts c (answers.attempt i) _ rfl
    have here : answers.attempt i = a → ∃ b, swapOnce ready drained opts c (answers.attempt i) =
        { result := .error e, backend := some b, catalog := c } := by
      rintro rfl
      exact fails.swapOnce
    unfold cutoverWithRetry at last ⊢
    generalize swapOnce ready drained opts c (answers.attempt i) = tried at ended here last ⊢
    dsimp only at last ⊢
    split at last
    next swapped result =>
      obtain ⟨same, -⟩ := Prod.mk.inj (Option.some.inj last)
      obtain ⟨b, rfl⟩ := here same
      cases result
    next e' result =>
      split_ifs at last ⊢ with unknown final
      · obtain ⟨same, -⟩ := Prod.mk.inj (Option.some.inj last)
        obtain ⟨b, rfl⟩ := here same
        cases result
        obtain ⟨e', resolved, iff⟩ := resolveUnknownOutcome_live opts reads live b (i + 1) e
        rw [← iff]
        refine ⟨?_, fun holds => ⟨e', resolved, holds unknown⟩⟩
        rintro ⟨other, returned, named⟩ -
        cases returned.symm.trans resolved
        exact named
      · obtain ⟨same, -⟩ := Prod.mk.inj (Option.some.inj last)
        obtain ⟨b, rfl⟩ := here same
        cases result
        exact iff_of_true (saysRolledBack_of rfl) fun known => absurd known unknown
      · split at last
        next stopped =>
          obtain ⟨same, -⟩ := Prod.mk.inj (Option.some.inj last)
          obtain ⟨b, rfl⟩ := here same
          cases result
          exact iff_of_true (saysRolledBack_of rfl) fun known => absurd known unknown
        next =>
          have source : tried.catalog.source = some ready.built.sourceOID := by
            rcases ended with ⟨_, done, -⟩ | ⟨_, -, kept, -⟩ | ⟨_, failed, -, lost, -⟩
            · exact absurd (result.symm.trans done) nofun
            · exact kept ▸ live
            · cases result.symm.trans failed
              exact absurd lost unknown
          cases left with
          | zero =>
            -- No attempt is left: this one was the last, and lost the wait for its lock.
            obtain ⟨same, -⟩ := Prod.mk.inj (Option.some.inj last)
            obtain ⟨b, rfl⟩ := here same
            cases result
            exact iff_of_true (saysRolledBack_of rfl) fun known => absurd known unknown
          | succ left =>
            refine ih (i + 1) (some e') source ?_
            rwa [List.getLast?_cons_of_ne_nil (cutoverWithRetry_tries_ne_nil answers)] at last

end BeforeCommit

/-- **A failure before COMMIT is reported as a roll back exactly when it is not read as a lost
connection, or its backend leaves in time.** A call that ends on an attempt that failed before
COMMIT was sent, on a connection that stays usable, left the source live; its error says so unless
the attempt's error is one that `outcomeUnknown` takes for an unheard one, and the pool keeps the
backend. -/
theorem rolledBack_iff (ready : CutoverReady) (drained : Bool) (opts : CutoverOptions)
    (answers : CutoverAnswers) (c : Catalog) (live : c.source = some ready.built.sourceOID)
    (reads : ReadsSucceed answers.following) (a : Attempt) (t : Tried) (e : Error)
    (last : (cutover ready drained opts answers c).tries.getLast? = some (a, t))
    (fails : FailsBeforeCommit ready drained opts a e) :
    SaysRolledBack (cutover ready drained opts answers c) ↔
      (outcomeUnknown e = true →
        LeavesInTime opts answers.following ∨ isError .cutoverRolledBack e = true) := by
  unfold cutover at last ⊢
  split at last
  · cases last
  · dsimp only at last ⊢
    have made := cutoverWithRetry_rolledBack_iff reads fails opts.attempts 0 none live (t := t)
    split at last
    next swapped result =>
      refine Iff.trans ⟨?_, ?_⟩ (made last)
      · rintro ⟨e, returned, -⟩
        cases returned
      · rintro ⟨e, returned, -⟩
        exact absurd (result.symm.trans returned) nofun
    next e' result =>
      refine Iff.trans ⟨?_, ?_⟩ (made last)
      · rintro ⟨_, returned, named⟩
        cases returned
        exact ⟨e', result, isError_lockLossCause ▸ named⟩
      · rintro ⟨_, returned, named⟩
        cases result.symm.trans returned
        exact ⟨_, rfl, isError_lockLossCause.trans named⟩

/-! ### A swap of `public.orders` -/

/-- The shadow built for `public.orders`. -/
def ordersProof : Proof where
  schema := "public"
  sourceTable := "orders"
  shadowTable := "_orders_new"
  sourceOID := 1
  shadowOID := 2
  sourceFingerprint := "s"
  targetFingerprint := "t"
  identityColumns := []
  owner := "app"
  fidelity := ""
  conversionFingerprint := ""

/-- A live run's shadow, ready to swap. -/
def ordersReady : CutoverReady where
  built := ordersProof
  verified := {
    schema := "public", table := "orders", shadow := "_orders_new", sourceOID := 1, shadowOID := 2
    watermark := some Int64.maxValue, verifiedAt := 0, live := true }

/-- Both relations under their names. -/
def ordersCatalog : Catalog where
  source := some 1
  shadow := some 2
  old := none
  others := []

/-- A lock wait and a statement of a tenth of a second. -/
def ordersOptions : CutoverOptions where
  lockTimeout := 100 * CutoverOptions.millisecond
  statementTimeout := 100 * CutoverOptions.millisecond

/-- Every read is answered; a lost attempt's backend is found as `present` says. -/
def ordersFollowing (present : Bool) : Following where
  present _ := .ok present
  sleeps _ := none
  reads := { liveOwner := .ok "app", oldOwner := .ok "app", identities := .ok [] }

/-- Every attempt commits, and its connection is lost before the answer. -/
def lostCommit : CutoverAnswers where
  attempt _ := { backend := .ok ⟨77, 0⟩, commit := .lost .eof ["read"] true }
  sleeps _ := none
  following := ordersFollowing false

theorem cutover_reports_truth_orders :
    (∃ t, (cutover ordersReady true ordersOptions lostCommit ordersCatalog).result = .ok t) ∧
      (cutover ordersReady true ordersOptions lostCommit ordersCatalog).catalog.source
        = some 2 := by
  have swapped : ∃ t, (cutover ordersReady true ordersOptions lostCommit ordersCatalog).result
      = .ok t := ⟨_, rfl⟩
  obtain ⟨t, result⟩ := swapped
  exact ⟨⟨t, result⟩, (cutover_reports_truth ordersReady true ordersOptions lostCommit ordersCatalog
    rfl).1.swapped t result⟩

/-- Another relation bears the source's name by the time of the call. -/
def replacedCatalog : Catalog := { ordersCatalog with source := some 3, others := [("orders2", 1)] }

/-- The gate finds the relation it locked is not the source. -/
def sourceReplaced : CutoverAnswers where
  attempt _ := { backend := .ok ⟨77, 0⟩, gate := some (refuse .relationReplaced []) }
  sleeps _ := none
  following := ordersFollowing false

/-- **A refused swap of a replaced source says that it rolled back**, though the source does not
bear its name. -/
theorem replaced_source_rolledBack :
    (cutover ordersReady true ordersOptions sourceReplaced replacedCatalog).catalog.source
        ≠ some ordersProof.sourceOID ∧
      SaysRolledBack (cutover ordersReady true ordersOptions sourceReplaced replacedCatalog) :=
  ⟨by decide, saysRolledBack_of rfl⟩

/-- The gather of the drain runs into its own bound. -/
def gatherDeadline : Error :=
  wrap "drain public.orders" (wrap "gather changes" (.leaf (.driver .deadlineExceeded)))

/-- An attempt whose drain runs into its bound, on a connection that goes back to the pool. -/
def deadlineAttempt : Attempt where
  backend := .ok ⟨77, 0⟩
  drain := some gatherDeadline

/-- Attempts whose drain runs into its bound; the pool keeps or closes the connection. -/
def drainDeadline (kept : Bool) : CutoverAnswers where
  attempt _ := deadlineAttempt
  sleeps _ := none
  following := ordersFollowing kept

theorem ordersFollowing_succeeds (present : Bool) : ReadsSucceed (ordersFollowing present) where
  present _ := ⟨present, rfl⟩
  sleeps _ := rfl
  begins := rfl
  ends := rfl
  holders := ⟨0, rfl⟩
  live := rfl

theorem deadlineAttempt_fails : FailsBeforeCommit ordersReady true ordersOptions deadlineAttempt
    (wrap "drain captured changes" gatherDeadline) where
  begins := rfl
  backend := ⟨_, rfl⟩
  stops := rfl

theorem rolledBack_iff_orders :
    SaysRolledBack (cutover ordersReady true ordersOptions (drainDeadline false) ordersCatalog) :=
  (rolledBack_iff ordersReady true ordersOptions (drainDeadline false) ordersCatalog rfl
    (ordersFollowing_succeeds false) deadlineAttempt _ _ rfl deadlineAttempt_fails).mpr
    fun _ => Or.inl ⟨⟨0, by decide, rfl⟩, rfl⟩

/-- **A drain that runs into its bound is reported as an unknown outcome.** The attempt failed
before COMMIT and its connection went back to the pool, so the source is live and every later read
is answered; the pooled backend does not exit, and the error says neither. -/
theorem drain_deadline_ambiguous :
    FailsBeforeCommit ordersReady true ordersOptions deadlineAttempt
        (wrap "drain captured changes" gatherDeadline) ∧
      ReadsSucceed (drainDeadline true).following ∧
      (cutover ordersReady true ordersOptions (drainDeadline true) ordersCatalog).catalog.source
        = some ordersProof.sourceOID ∧
      ∃ e, (cutover ordersReady true ordersOptions (drainDeadline true) ordersCatalog).result
          = .error e ∧
        isError .cutoverRolledBack e = false ∧ refusalCauseOf e = some .outcomeAmbiguous :=
  ⟨deadlineAttempt_fails, ordersFollowing_succeeds true, rfl, _, rfl, by decide, by decide⟩

end PgSprite.SchemaChange
