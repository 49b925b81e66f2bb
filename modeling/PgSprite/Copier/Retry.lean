/-
**The passes of a chunk whose insert collided.**

The strict insert is the first pass. A collision or a deadlock earns the chunk further passes: over
the range around the rows other shadow rows hold off, then over the held-off keys alone; where the
shadow refuses that form, the strict insert again. Each committed pass that leaves keys held off
settles the chunk with them. `Lawful` says what such a sequence of passes and settlements looks
like; what one pass keeps of it is `Along`.

* `copyAroundCollisions_along`, `rerunWhole_along` — the two loops, by induction on the passes left;
* `copyUntilClear_lawful` — every chunk finishes or leaves the ledger safe.
-/

import PgSprite.Copier.Progress

namespace PgSprite.Copier

open PgSprite.Decode

/-! ### Passes -/

/-- The kinds of refusal of the copier's own. -/
inductive RefusalCause where
  | lockLost
  | frontierBroken
  | chunksInFlight
  | relationReplaced
  | chunkUnknown
  deriving DecidableEq, Repr

/-- An error of the copy: the server's SQLSTATE or the copier's refusal where it carries one, and
its text, of a refusal the detail. -/
structure CopyError where
  code : Option String := none
  cause : Option RefusalCause := none
  text : String
  deriving DecidableEq, Repr

def sqlstateUniqueViolation : String := "23505"
def sqlstateExclusionViolation : String := "23P01"
def sqlstateDeadlockDetected : String := "40P01"
def sqlstateObjectNotInPrerequisiteState : String := "55000"

namespace CopyError

/-- A shadow row already holds one of the chunk's values. -/
def collided (e : CopyError) : Bool :=
  e.code == some sqlstateUniqueViolation || e.code == some sqlstateExclusionViolation

/-- The server rolled the pass back to break a deadlock. -/
def deadlocked (e : CopyError) : Bool := e.code == some sqlstateDeadlockDetected

/-- The strict insert ended in a way that gives the chunk its collision passes. -/
def earnsAnotherPass (e : CopyError) : Bool := e.collided || e.deadlocked

/-- The server refuses a target-less ON CONFLICT on this shadow. -/
def refusesSkipping (e : CopyError) : Bool := e.code == some sqlstateObjectNotInPrerequisiteState

end CopyError

/-- Which statement a pass runs. -/
inductive Mode where
  | strict
  | around
  deriving DecidableEq, Repr

/-- What copying a chunk does: a pass with its number, the backoffs waited before it, the keys it
was asked for (`none` for the whole range) and its outcome, or a settlement. -/
inductive Event where
  | pass (number : ℕ) (waited : Option ℕ) (mode : Mode) (asked : Option (List Key))
      (outcome : Except CopyError (Int64 × List Key))
  | settle (rows : Int64) (pending : List Key)

/-- What the server, the clock and the other workers do while a chunk is copied. -/
structure PassAnswers where
  /-- The strict insert of a pass: the rows it inserted. -/
  strict : ℕ → Except CopyError Int64
  /-- The pass around held-off rows: the rows it inserted and the keys it held off. -/
  around : ℕ → Option (List Key) → Except CopyError (Int64 × List Key)
  /-- The context's error, where it ends during the wait before a pass. -/
  ended : ℕ → Option CopyError
  /-- The ledger calls other workers make while a pass runs. -/
  others : ℕ → List Call

/-- The ledger with what has been done for the chunk. -/
structure Copying where
  ledger : Ledger
  trace : List Event

namespace Copying

def record (c : Copying) (event : Event) : Copying := { c with trace := c.trace ++ [event] }

end Copying

/-- The chunk a call is about. -/
def Call.chunk : Call → Chunk
  | .claim chunk | .settle chunk _ _ | .land chunk _ => chunk

/-- Another worker's call; a chunk has one worker, so the call is about another chunk. -/
def Ledger.otherCall (chunk : Chunk) (l : Ledger) (call : Call) : Ledger :=
  if call.chunk = chunk then l else (l.call call).getD l

section Copy

variable (a : PassAnswers) (attempts : ℕ) (chunk : Chunk)

/-- A pass runs while the other workers go on; its outcome is recorded. -/
def runPass (c : Copying) (number : ℕ) (waited : Option ℕ) (mode : Mode)
    (asked : Option (List Key)) (outcome : Except CopyError (Int64 × List Key)) : Copying :=
  { c with ledger := (a.others number).foldl (Ledger.otherCall chunk) c.ledger }.record
    (.pass number waited mode asked outcome)

/-- Waits before a collided chunk's pass: nothing before the second, one backoff more before each
pass after it. -/
def waitBeforePass (pass : ℕ) : Except CopyError (Option ℕ) :=
  if pass = 2 then .ok none
  else
    match a.ended pass with
    | some err => .error err
    | none => .ok (some (pass - 2))

/-- The error that ends the copy when a chunk has used its passes. -/
def pendingOutlasted (pending : Option (List Key)) (last : CopyError) : CopyError :=
  let said := match pending.getD [] with
    | [] =>
      s!"chunk [{chunk.lower}, {chunk.upper}] did not land in {attempts} attempts: {last.text}"
    | lowest :: rest =>
      s!"chunk [{chunk.lower}, {chunk.upper}] still has {rest.length + 1} pending keys after " ++
      s!"{attempts} attempts, the lowest {lowest}: {last.text}"
  { last with text := said }

/-- The refusal of a settlement. -/
def settleRefused (pending : List Key) : CopyError :=
  { cause := some .chunksInFlight
    text := s!"chunk [{chunk.lower}, {chunk.upper}] settled with {pending.length} rows pending " ++
      "was not in flight" }

/-- Finishes a collided chunk whose shadow cannot be copied around: the strict insert again, `left`
passes at most. -/
def rerunWhole : (left pass : ℕ) → (collision : CopyError) → Copying →
    Copying × Except CopyError Int64
  | 0, _, collision, c => (c, .error (pendingOutlasted attempts chunk none collision))
  | left + 1, pass, _, c =>
    match waitBeforePass a pass with
    | .error err => (c, .error err)
    | .ok waited =>
      let outcome := a.strict pass
      let c := runPass a chunk c pass waited .strict none (outcome.map (·, []))
      match outcome with
      | .ok inserted => (c, .ok inserted)
      | .error err =>
        if !err.earnsAnotherPass then (c, .error err)
        else rerunWhole left (pass + 1) err c

/-- Finishes a chunk whose strict insert collided, `left` passes at most. `pending` is nothing until
the pass over the whole range commits, `total` the rows the passes have inserted. -/
def copyAroundCollisions : (left pass : ℕ) → (collision : CopyError) → (total : Int64) →
    (pending : Option (List Key)) → Copying → Copying × Except CopyError Int64
  | 0, _, collision, _, pending, c =>
    (c, .error (pendingOutlasted attempts chunk pending collision))
  | left + 1, pass, collision, total, pending, c =>
    match waitBeforePass a pass with
    | .error err => (c, .error err)
    | .ok waited =>
      let outcome := a.around pass pending
      let c := runPass a chunk c pass waited .around pending outcome
      match outcome with
      | .error err =>
        if err.deadlocked then copyAroundCollisions left (pass + 1) err total pending c
        else if pending.isNone && err.refusesSkipping then
          rerunWhole a attempts chunk left (pass + 1) collision c
        else (c, .error err)
      | .ok (inserted, held) =>
        if held.isEmpty then (c, .ok (total + inserted))
        else
          match c.ledger.settle chunk (total + inserted) held with
          | none => (c, .error (settleRefused chunk held))
          | some ledger =>
            copyAroundCollisions left (pass + 1) collision (total + inserted) (some held)
              ({ c with ledger }.record (.settle (total + inserted) held))

/-- Copies the chunk until every row of it has committed, or until the copy must stop. -/
def copyUntilClear (c : Copying) : Copying × Except CopyError Int64 :=
  let outcome := a.strict 1
  let c := runPass a chunk c 1 none .strict none (outcome.map (·, []))
  match outcome with
  | .ok inserted => (c, .ok inserted)
  | .error err =>
    if !err.earnsAnotherPass then (c, .error err)
    else copyAroundCollisions a attempts chunk (attempts - 1) 2 err 0 none c

end Copy

/-! ### What a sequence of passes says -/

namespace Event

/-- The rows a committed pass inserted. -/
def inserted : Event → Option Int64
  | .pass _ _ _ _ (.ok (rows, _)) => some rows
  | _ => none

/-- The keys a committed pass held off. -/
def held : Event → Option (List Key)
  | .pass _ _ _ _ (.ok (_, keys)) => some keys
  | _ => none

/-- The keys a settlement leaves pending. -/
def settled : Event → Option (List Key)
  | .settle _ pending => some pending
  | _ => none

/-- Whether the event is a pass. -/
def isPass : Event → Bool
  | .pass .. => true
  | .settle .. => false

end Event

section Trace

/-- The passes made. -/
def passes (trace : List Event) : ℕ := trace.countP Event.isPass

/-- The rows the committed passes inserted, each pass once. -/
def committed (trace : List Event) : Int64 := (trace.filterMap Event.inserted).sum

/-- The keys the last committed pass held off. -/
def lastHeld (trace : List Event) : Option (List Key) := (trace.filterMap Event.held).getLast?

/-- The keys of the last settlement. -/
def lastSettled (trace : List Event) : Option (List Key) :=
  (trace.filterMap Event.settled).getLast?

variable {trace : List Event} {number : ℕ} {waited : Option ℕ} {mode : Mode}
  {asked : Option (List Key)} {err : CopyError} {rows : Int64} {keys : List Key}
  {outcome : Except CopyError (Int64 × List Key)}

@[simp]
theorem passes_pass : passes (trace ++ [.pass number waited mode asked outcome])
    = passes trace + 1 := by
  simp [passes, Event.isPass]

@[simp]
theorem passes_settle : passes (trace ++ [.settle rows keys]) = passes trace := by
  simp [passes, Event.isPass]

@[simp]
theorem committed_pass_ok : committed (trace ++ [.pass number waited mode asked (.ok (rows, keys))])
    = committed trace + rows := by
  simp [committed, Event.inserted]

@[simp]
theorem committed_pass_error : committed (trace ++ [.pass number waited mode asked (.error err)])
    = committed trace := by
  rw [committed, List.filterMap_append, List.filterMap_cons_none rfl, List.filterMap_nil,
    List.append_nil, committed]

@[simp]
theorem committed_settle : committed (trace ++ [.settle rows keys]) = committed trace := by
  rw [committed, List.filterMap_append, List.filterMap_cons_none rfl, List.filterMap_nil,
    List.append_nil, committed]

@[simp]
theorem lastHeld_pass_ok : lastHeld (trace ++ [.pass number waited mode asked (.ok (rows, keys))])
    = some keys := by
  simp [lastHeld, Event.held]

@[simp]
theorem lastHeld_pass_error : lastHeld (trace ++ [.pass number waited mode asked (.error err)])
    = lastHeld trace := by
  simp [lastHeld, Event.held]

@[simp]
theorem lastHeld_settle : lastHeld (trace ++ [.settle rows keys]) = lastHeld trace := by
  simp [lastHeld, Event.held]

@[simp]
theorem lastSettled_pass : lastSettled (trace ++ [.pass number waited mode asked outcome])
    = lastSettled trace := by
  simp [lastSettled, Event.settled]

@[simp]
theorem lastSettled_settle : lastSettled (trace ++ [.settle rows keys]) = some keys := by
  simp [lastSettled, Event.settled]

end Trace

/-- The sequences of passes and settlements a chunk may go through. Passes are numbered from one; a
pass waits, one backoff more each time, but for the first two; it is asked for what the last
committed pass held off; and a settlement carries the rows of every committed pass once and the keys
the last of them held off, which are keys of the chunk and of the settlement before. -/
inductive Lawful (chunk : Chunk) : List Event → Prop
  | nil : Lawful chunk []
  | pass {trace : List Event} {mode : Mode} {outcome : Except CopyError (Int64 × List Key)} :
      Lawful chunk trace →
      Lawful chunk (trace ++ [.pass (passes trace + 1)
        (if passes trace < 2 then none else some (passes trace - 1)) mode (lastHeld trace) outcome])
  | settle {trace : List Event} {pending : List Key} : Lawful chunk trace →
      lastHeld trace = some pending → pending ≠ [] →
      (∀ key ∈ pending, chunk.covers key = true) →
      (∀ before, lastSettled trace = some before → pending ⊆ before) →
      Lawful chunk (trace ++ [.settle (committed trace) pending])

/-- Each committed pass reports as held only keys it was asked for. -/
def PassAnswers.HoldsAsked (a : PassAnswers) (chunk : Chunk) : Prop :=
  (∀ pass inserted held, a.around pass none = .ok (inserted, held) →
    ∀ key ∈ held, chunk.covers key = true) ∧
  ∀ pass asked inserted held, a.around pass (some asked) = .ok (inserted, held) → held ⊆ asked

/-- What holds before each pass. -/
structure Along (chunk : Chunk) (pass : ℕ) (total : Int64) (pending : Option (List Key))
    (c : Copying) : Prop where
  lawful : Lawful chunk c.trace
  number : passes c.trace + 1 = pass
  inFlight : chunk ∈ c.ledger.inFlight
  /-- The ledger owes what the last committed pass held off. -/
  owes : c.ledger.partials.lookup chunk = pending.map (⟨total, ·⟩)
  rows : committed c.trace = total
  held : lastHeld c.trace = pending
  settled : lastSettled c.trace = pending
  within : ∀ keys, pending = some keys → ∀ key ∈ keys, chunk.covers key = true

/-- What holds at the end. -/
structure Finished (chunk : Chunk) (attempts : ℕ) (c : Copying)
    (result : Except CopyError Int64) : Prop where
  lawful : Lawful chunk c.trace
  bounded : passes c.trace ≤ attempts
  inFlight : chunk ∈ c.ledger.inFlight
  /-- Success leaves nothing pending, and its total counts every committed pass once. -/
  landed : ∀ total, result = .ok total → lastHeld c.trace = some [] ∧ total = committed c.trace
  /-- A failure leaves the ledger with what the last committed pass held off. -/
  owes : ∀ err, result = .error err →
    c.ledger.partials.lookup chunk = (lastHeld c.trace).map (⟨committed c.trace, ·⟩)

/-! ### Other workers -/

section Others

variable {chunk : Chunk} {l : Ledger} {call : Call}

/-- A call for another chunk leaves this one in flight, with what it owes. -/
theorem call_keeps (other : call.chunk ≠ chunk) {moved : Ledger} (called : l.call call = some moved)
    (member : chunk ∈ l.inFlight) :
    chunk ∈ moved.inFlight ∧ moved.partials.lookup chunk = l.partials.lookup chunk := by
  cases call with
  | claim theirs =>
    obtain ⟨-, rfl⟩ := Ledger.claim_eq called
    exact ⟨List.mem_append_left _ member, rfl⟩
  | settle theirs rows pending =>
    obtain ⟨-, -, rfl⟩ := Ledger.settle_eq called
    exact ⟨member, AList.lookup_insert_ne (Ne.symm other)⟩
  | land theirs rows =>
    obtain ⟨-, rfl⟩ := Ledger.land_eq called
    obtain ⟨-, inFlight, partials⟩ :=
      Ledger.advance_frame (l := l.landing theirs rows) (l.landing theirs rows).landed.length
    rw [inFlight, partials]
    exact ⟨(List.mem_erase_of_ne (Ne.symm other)).mpr member,
      AList.lookup_erase_ne (Ne.symm other)⟩

/-- Calls for other chunks leave this one in flight, with what it owes. -/
theorem others_keep (calls : List Call) (member : chunk ∈ l.inFlight) :
    chunk ∈ (calls.foldl (Ledger.otherCall chunk) l).inFlight ∧
      (calls.foldl (Ledger.otherCall chunk) l).partials.lookup chunk
        = l.partials.lookup chunk := by
  induction calls generalizing l with
  | nil => exact ⟨member, rfl⟩
  | cons call rest ih =>
    rw [List.foldl_cons]
    have kept : chunk ∈ (l.otherCall chunk call).inFlight ∧
        (l.otherCall chunk call).partials.lookup chunk = l.partials.lookup chunk := by
      unfold Ledger.otherCall
      by_cases same : call.chunk = chunk
      · rw [if_pos same]
        exact ⟨member, rfl⟩
      · rw [if_neg same]
        cases called : l.call call with
        | none => exact ⟨member, rfl⟩
        | some moved => exact call_keeps same called member
    obtain ⟨inFlight, partials⟩ := ih kept.1
    exact ⟨inFlight, partials.trans kept.2⟩

end Others

/-! ### One pass -/

section Pass

variable {a : PassAnswers} {chunk : Chunk} {pass attempts : ℕ} {total : Int64}
  {pending : Option (List Key)} {c : Copying} {mode : Mode} {err : CopyError} {waited : Option ℕ}

theorem waitBeforePass_ok (later : 2 ≤ pass) (waits : waitBeforePass a pass = .ok waited) :
    waited = if pass - 1 < 2 then none else some (pass - 1 - 1) := by
  unfold waitBeforePass at waits
  by_cases second : pass = 2
  · rw [if_pos second] at waits
    cases waits
    rw [second]
    rfl
  · rw [if_neg second] at waits
    cases ended : a.ended pass with
    | some err =>
      rw [ended] at waits
      cases waits
    | none =>
      rw [ended] at waits
      cases waits
      rw [if_neg (by omega)]
      congr 1

variable (along : Along chunk pass total pending c)

include along

/-- A pass extends the trace lawfully, whatever it comes to. -/
theorem Along.ran (a : PassAnswers) (mode : Mode)
    (waits : waited = if pass - 1 < 2 then none else some (pass - 1 - 1))
    (outcome : Except CopyError (Int64 × List Key)) :
    Lawful chunk (runPass a chunk c pass waited mode pending outcome).trace := by
  have number : passes c.trace = pass - 1 := by
    have := along.number
    omega
  have lawful : Lawful chunk (c.trace ++ [.pass (passes c.trace + 1)
      (if passes c.trace < 2 then none else some (passes c.trace - 1)) mode (lastHeld c.trace)
      outcome]) := along.lawful.pass
  rw [along.number, along.held, number, ← waits] at lawful
  exact lawful

/-- A failed pass leaves what is owed as it was. -/
theorem Along.failed (a : PassAnswers) (mode : Mode) (err : CopyError)
    (waits : waited = if pass - 1 < 2 then none else some (pass - 1 - 1)) :
    Along chunk (pass + 1) total pending
      (runPass a chunk c pass waited mode pending (.error err)) := by
  obtain ⟨inFlight, partials⟩ := others_keep (a.others pass) along.inFlight
  refine ⟨along.ran a mode waits _, ?_, inFlight, partials.trans along.owes, ?_, ?_, ?_,
    along.within⟩
  · show passes (c.trace ++ _) + 1 = pass + 1
    rw [passes_pass, along.number]
  · exact committed_pass_error.trans along.rows
  · exact lastHeld_pass_error.trans along.held
  · exact lastSettled_pass.trans along.settled

theorem Along.stop (bounded : pass ≤ attempts + 1) : Finished chunk attempts c (.error err) where
  lawful := along.lawful
  bounded := by
    have := along.number
    omega
  inFlight := along.inFlight
  landed _ ok := by cases ok
  owes _ _ := by rw [along.owes, along.held, along.rows]

/-- A pass that finds nothing held ends the copy with the rows of all its passes. -/
theorem Along.finish (a : PassAnswers) (mode : Mode) (inserted : Int64)
    (waits : waited = if pass - 1 < 2 then none else some (pass - 1 - 1))
    (bounded : pass ≤ attempts) :
    Finished chunk attempts
      (runPass a chunk c pass waited mode pending (.ok (inserted, [])))
        (.ok (total + inserted)) where
  lawful := along.ran a mode waits _
  bounded := by
    show passes (c.trace ++ _) ≤ attempts
    rw [passes_pass, along.number]
    exact bounded
  inFlight := (others_keep (a.others pass) along.inFlight).1
  landed sum ok := by
    cases ok
    refine ⟨lastHeld_pass_ok, ?_⟩
    show total + inserted = committed (c.trace ++ _)
    rw [committed_pass_ok, along.rows]
  owes _ failed := by cases failed

/-- A pass that leaves keys held settles them, and owes no key it did not owe before. -/
theorem Along.settle {inserted : Int64} {held : List Key} {ledger : Ledger}
    (waits : waited = if pass - 1 < 2 then none else some (pass - 1 - 1)) (some_ : held ≠ [])
    (inside : ∀ key ∈ held, chunk.covers key = true)
    (shrinks : ∀ before, pending = some before → held ⊆ before)
    (settles : (runPass a chunk c pass waited mode pending (.ok (inserted, held))).ledger.settle
      chunk (total + inserted) held = some ledger) :
    Along chunk (pass + 1) (total + inserted) (some held)
      ({ runPass a chunk c pass waited mode pending (.ok (inserted, held)) with ledger }.record
        (.settle (total + inserted) held)) := by
  have ran := along.ran a mode waits (.ok (inserted, held))
  have rows : committed (c.trace ++ [.pass pass waited mode pending (.ok (inserted, held))])
      = total + inserted := by rw [committed_pass_ok, along.rows]
  obtain ⟨member, -, rfl⟩ := Ledger.settle_eq settles
  refine ⟨?_, ?_, member, ?_, ?_, ?_, ?_, ?_⟩
  · rw [← rows]
    refine Lawful.settle ran lastHeld_pass_ok some_ inside ?_
    intro before settled
    rw [show lastSettled (runPass a chunk c pass waited mode pending _).trace
      = lastSettled c.trace from lastSettled_pass, along.settled] at settled
    exact shrinks before settled
  · show passes (c.trace ++ _ ++ _) + 1 = pass + 1
    rw [passes_settle, passes_pass, along.number]
  · exact AList.lookup_insert _
  · exact committed_settle.trans rows
  · exact lastHeld_settle.trans lastHeld_pass_ok
  · exact lastSettled_settle
  · rintro keys ⟨⟩ key member
    exact inside key member

end Pass

/-! ### The loops -/

section Loops

variable {a : PassAnswers} {chunk : Chunk} {attempts : ℕ}

/-- Rerunning the whole chunk, by induction on the passes left, finishes within the attempts. -/
theorem rerunWhole_along (left pass : ℕ) (collision : CopyError) (c : Copying)
    (along : Along chunk pass 0 none c) (later : 2 ≤ pass) (budget : pass + left = attempts + 1) :
    Finished chunk attempts (rerunWhole a attempts chunk left pass collision c).1
      (rerunWhole a attempts chunk left pass collision c).2 := by
  induction left generalizing pass collision c with
  | zero => exact along.stop (by omega)
  | succ left ih =>
    rw [rerunWhole]
    cases waits : waitBeforePass a pass with
    | error err => exact along.stop (by omega)
    | ok waited =>
      have waited_ := waitBeforePass_ok later waits
      cases outcome : a.strict pass with
      | ok inserted =>
        have within : pass ≤ attempts := by omega
        have finished := along.finish a .strict inserted waited_ within
        simpa [outcome, Except.map] using finished
      | error err =>
        have next := along.failed a .strict err waited_
        by_cases stops : (!err.earnsAnotherPass) = true
        · simp only [Except.map, stops, if_true]
          exact next.stop (by omega)
        · simp only [Except.map, stops]
          exact ih (pass + 1) err _ next (by omega) (by omega)

/-- Copying around the held keys, by induction on the passes left: each pass reruns the chunk, lands
it or settles fewer keys, and the copy finishes within the attempts. -/
theorem copyAroundCollisions_along (asked : a.HoldsAsked chunk) (left pass : ℕ)
    (collision : CopyError) (total : Int64) (pending : Option (List Key)) (c : Copying)
    (along : Along chunk pass total pending c) (fresh : pending = none → total = 0)
    (later : 2 ≤ pass) (budget : pass + left = attempts + 1) :
    Finished chunk attempts
      (copyAroundCollisions a attempts chunk left pass collision total pending c).1
      (copyAroundCollisions a attempts chunk left pass collision total pending c).2 := by
  induction left generalizing pass collision total pending c with
  | zero => exact along.stop (by omega)
  | succ left ih =>
    rw [copyAroundCollisions]
    cases waits : waitBeforePass a pass with
    | error err => exact along.stop (by omega)
    | ok waited =>
      have waited_ := waitBeforePass_ok later waits
      cases outcome : a.around pass pending with
      | error err =>
        have next := along.failed a .around err waited_
        simp only
        by_cases deadlock : err.deadlocked = true
        · rw [if_pos deadlock]
          exact ih (pass + 1) err total pending _ next fresh (by omega) (by omega)
        · rw [if_neg deadlock]
          by_cases refuses : (pending.isNone && err.refusesSkipping) = true
          · rw [if_pos refuses]
            have none_ : pending = none :=
              Option.isNone_iff_eq_none.mp (Bool.and_eq_true_iff.mp refuses).1
            subst none_
            rw [fresh rfl] at next
            exact rerunWhole_along left (pass + 1) collision _ next (by omega) (by omega)
          · rw [if_neg refuses]
            exact next.stop (by omega)
      | ok committed =>
        obtain ⟨inserted, held⟩ := committed
        simp only
        cases held with
        | nil => exact along.finish a .around inserted waited_ (by omega)
        | cons key rest =>
          rw [if_neg (by simp)]
          have inFlight : chunk ∈ (runPass a chunk c pass waited .around pending
              (.ok (inserted, key :: rest))).ledger.inFlight :=
            (others_keep (a.others pass) along.inFlight).1
          have inside : ∀ k ∈ key :: rest, chunk.covers k = true := by
            cases pending with
            | none => exact asked.1 pass inserted (key :: rest) outcome
            | some before =>
              intro k member
              exact along.within before rfl k
                (asked.2 pass before inserted (key :: rest) outcome member)
          have shrinks : ∀ before, pending = some before → key :: rest ⊆ before := by
            rintro before rfl
            exact asked.2 pass before inserted (key :: rest) outcome
          cases settles : (runPass a chunk c pass waited .around pending
              (.ok (inserted, key :: rest))).ledger.settle chunk (total + inserted)
              (key :: rest) with
          | none =>
            unfold Ledger.settle at settles
            rw [if_pos (by simp [inFlight])] at settles
            cases settles
          | some ledger =>
            have next := along.settle waited_ (by simp) inside shrinks settles
            exact ih (pass + 1) collision (total + inserted) (some (key :: rest)) _ next
              (fun none_ => by cases none_) (by omega) (by omega)

/-- **A collided chunk finishes or leaves the ledger safe.** -/
theorem copyUntilClear_lawful (one : 1 ≤ attempts) (asked : a.HoldsAsked chunk) {l : Ledger}
    (claimed : chunk ∈ l.inFlight) (whole : l.partials.lookup chunk = none) :
    Finished chunk attempts (copyUntilClear a attempts chunk ⟨l, []⟩).1
      (copyUntilClear a attempts chunk ⟨l, []⟩).2 := by
  have along : Along chunk 1 0 none ⟨l, []⟩ :=
    ⟨.nil, rfl, claimed, whole, rfl, rfl, rfl, fun _ none_ => by cases none_⟩
  have waits : (none : Option ℕ) = if 1 - 1 < 2 then none else some (1 - 1 - 1) := rfl
  unfold copyUntilClear
  cases outcome : a.strict 1 with
  | ok inserted =>
    have finished := along.finish a .strict inserted waits one
    simpa [outcome, Except.map] using finished
  | error err =>
    have next := along.failed a .strict err waits
    by_cases stops : (!err.earnsAnotherPass) = true
    · simp only [Except.map, stops, if_true]
      exact next.stop (by omega)
    · simp only [Except.map, stops]
      exact copyAroundCollisions_along asked (attempts - 1) 2 err 0 none _ next (fun _ => rfl)
        (by omega) (by omega)

end Loops

/-- A chunk that collides, then commits around one row, then lands it. -/
def collidesOnce : PassAnswers where
  strict _ := .error { code := some sqlstateUniqueViolation, text := "duplicate key" }
  around _ asked := match asked with
    | none => .ok (1, [5])
    | some _ => .ok (1, [])
  ended _ := none
  others _ := []

/-- The ledger with the chunk just claimed. -/
def oneClaimed : Ledger := { Ledger.newLedger none with inFlight := [lowChunk], cut := some 10 }

/-- A chunk that collides once and is copied around. -/
theorem copyUntilClear_lawful_collided :
    (copyUntilClear collidesOnce 3 lowChunk ⟨oneClaimed, []⟩).2 = .ok 2 ∧
      Finished lowChunk 3 (copyUntilClear collidesOnce 3 lowChunk ⟨oneClaimed, []⟩).1
        (copyUntilClear collidesOnce 3 lowChunk ⟨oneClaimed, []⟩).2 := by
  have asked : collidesOnce.HoldsAsked lowChunk := by
    constructor
    · rintro pass inserted held ⟨⟩ key member
      rw [List.mem_singleton.mp member]
      decide
    · rintro pass before inserted held ⟨⟩
      exact List.nil_subset _
  exact ⟨rfl, copyUntilClear_lawful (by decide) asked (List.mem_singleton.mpr rfl) rfl⟩

end PgSprite.Copier
