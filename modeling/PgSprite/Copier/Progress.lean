/-
**The ledger beside the history of its calls.**

A `Progress` is the ledger and the calls it has accepted; a call it refuses leaves both as they
were. From the calls alone one reads which chunks were claimed and which have landed, the keys each
chunk was last said to owe and the row total it last reported. `Keeps` relates the two: the ledger's
in-flight list is the claimed chunks that have not landed, and its landed list those that landed
above the run its watermark has taken in.

* `keeps_of_reaches` — every run of calls keeps it;
* **`ledger_agrees_with_history`** — watermark, frontier, row count and the state of every key are
  what the history says, and no key's state goes back.
-/

import PgSprite.Copier.Tiling
import PgSprite.Lib.Run

namespace PgSprite.Copier

open PgSprite.Decode PgSprite.Lib

/-- One call on the ledger. -/
inductive Call where
  | claim (chunk : Chunk)
  | settle (chunk : Chunk) (rows : Int64) (pending : List Key)
  | land (chunk : Chunk) (rows : Int64)

/-- The ledger after a call, or none where it refuses the call. -/
def Ledger.call (l : Ledger) : Call → Option Ledger
  | .claim chunk => l.claim chunk
  | .settle chunk rows pending => l.settle chunk rows pending
  | .land chunk rows => l.land chunk rows

/-! ### What the calls say -/

namespace Call

/-- The chunks claimed, in order. -/
def claimed (calls : List Call) : List Chunk :=
  calls.filterMap fun
    | .claim chunk => some chunk
    | _ => none

/-- Whether the chunk has landed. -/
def landed (calls : List Call) (chunk : Chunk) : Bool :=
  calls.any fun
    | .land other _ => decide (other = chunk)
    | _ => false

/-- The keys the chunk was last said to owe. -/
def owed (calls : List Call) (chunk : Chunk) : Option (List Key) :=
  calls.foldl (fun before call =>
    match call with
    | .settle other _ pending => if other = chunk then some pending else before
    | _ => before) none

/-- The row total the chunk last reported. -/
def total (calls : List Call) (chunk : Chunk) : Int64 :=
  calls.foldl (fun before call =>
    match call with
    | .settle other rows _ => if other = chunk then rows else before
    | .land other rows => if other = chunk then rows else before
    | _ => before) 0

section Concat

variable {calls : List Call} {chunk other : Chunk} {rows : Int64} {pending : List Key}

@[simp]
theorem claimed_claim : claimed (calls ++ [.claim chunk]) = claimed calls ++ [chunk] := by
  simp [claimed]

@[simp]
theorem claimed_settle : claimed (calls ++ [.settle chunk rows pending]) = claimed calls := by
  simp [claimed]

@[simp]
theorem claimed_land : claimed (calls ++ [.land chunk rows]) = claimed calls := by
  simp [claimed]

@[simp]
theorem landed_claim : landed (calls ++ [.claim chunk]) other = landed calls other := by
  simp [landed]

@[simp]
theorem landed_settle :
    landed (calls ++ [.settle chunk rows pending]) other = landed calls other := by
  simp [landed]

@[simp]
theorem landed_land :
    landed (calls ++ [.land chunk rows]) other
      = (landed calls other || decide (chunk = other)) := by
  simp [landed]

@[simp]
theorem owed_claim : owed (calls ++ [.claim chunk]) other = owed calls other := by
  simp [owed]

@[simp]
theorem owed_settle : owed (calls ++ [.settle chunk rows pending]) other
    = if chunk = other then some pending else owed calls other := by
  simp [owed]

@[simp]
theorem owed_land : owed (calls ++ [.land chunk rows]) other = owed calls other := by
  simp [owed]

@[simp]
theorem total_claim : total (calls ++ [.claim chunk]) other = total calls other := by
  simp [total]

@[simp]
theorem total_settle : total (calls ++ [.settle chunk rows pending]) other
    = if chunk = other then rows else total calls other := by
  simp [total]

@[simp]
theorem total_land : total (calls ++ [.land chunk rows]) other
    = if chunk = other then rows else total calls other := by
  simp [total]

end Concat

end Call

/-! ### The ledger and its history -/

/-- The ledger, and the calls it has accepted so far. -/
structure Progress where
  ledger : Ledger
  calls : List Call

namespace Progress

/-- Nothing called yet. -/
def start (w : Watermark) : Progress := ⟨.newLedger w, []⟩

/-- One call; a refused one changes nothing. -/
def step (p : Progress) (call : Call) : Option Progress :=
  match p.ledger.call call with
  | none => some p
  | some moved => some ⟨moved, p.calls ++ [call]⟩

/-- A settle that is accepted owes ascending keys, and only keys the one before it owed. -/
def Narrows (p : Progress) : Call → Prop
  | .settle chunk rows pending => (p.ledger.settle chunk rows pending).isSome = true →
      pending.Pairwise (· < ·) ∧ ∀ before, Call.owed p.calls chunk = some before → pending ⊆ before
  | _ => True

end Progress

namespace Call

/-- The chunks claimed that have not landed. -/
def unlanded (calls : List Call) : List Chunk :=
  (claimed calls).filter fun chunk => !landed calls chunk

theorem mem_unlanded {calls : List Call} {chunk : Chunk} :
    chunk ∈ unlanded calls ↔ chunk ∈ claimed calls ∧ landed calls chunk = false := by
  simp [unlanded]

end Call

open Call

/-- A run of the claimed chunks has landed and is taken into the watermark; `rest` are the claimed
chunks above it, and those of them that have landed wait. -/
structure Takes (w : Watermark) (l : Ledger) (calls : List Call) (run rest : List Chunk) :
    Prop where
  claimed : claimed calls = run ++ rest
  landed : ∀ chunk ∈ run, landed calls chunk = true
  watermark : l.watermark = top w run
  complete : l.complete = true → l.watermark = some Int64.maxValue
  waiting : ∀ chunk, chunk ∈ l.landed ↔ chunk ∈ rest ∧ Call.landed calls chunk = true

/-- The ledger is the one its history leaves. -/
structure Keeps (w : Watermark) (p : Progress) : Prop where
  tiled : p.ledger.Tiled
  consecutive : Consecutive w (claimed p.calls)
  cut : p.ledger.cut = top w (claimed p.calls)
  inFlight : p.ledger.inFlight = unlanded p.calls
  owed : ∀ chunk ∈ p.ledger.inFlight,
    (p.ledger.partials.lookup chunk).map PartialChunk.pending = owed p.calls chunk
  committed : ∀ chunk ∈ p.ledger.inFlight, p.ledger.committedRows chunk = total p.calls chunk
  fresh : ∀ chunk, chunk ∉ claimed p.calls →
    Call.owed p.calls chunk = none ∧ total p.calls chunk = 0 ∧ landed p.calls chunk = false
  rows : p.ledger.rows = ((claimed p.calls).map (total p.calls)).sum
  /-- The watermark has taken in as much as it can. -/
  takes : ∃ run rest, Takes w p.ledger p.calls run rest ∧
    ∀ chunk ∈ rest.head?, landed p.calls chunk = false
  ascending : ∀ chunk pending, Call.owed p.calls chunk = some pending → pending.Pairwise (· < ·)

theorem nodup_of_consecutive {w : Watermark} {chunks : List Chunk}
    (consecutive : Consecutive w chunks) : chunks.Nodup :=
  consecutive.apart.imp Ledger.Apart.ne

/-- A new ledger is the one of an empty history. -/
theorem keeps_start (w : Watermark) : Keeps w (.start w) where
  tiled := Ledger.newLedger_tiled w
  consecutive := trivial
  cut := rfl
  inFlight := rfl
  owed := nofun
  committed := nofun
  fresh _ _ := ⟨rfl, rfl, rfl⟩
  rows := rfl
  takes := by
    refine ⟨[], [], ⟨rfl, nofun, rfl, fun full => ?_, by simp [Progress.start, Ledger.newLedger]⟩,
      nofun⟩
    cases w with
    | none => cases full
    | some value =>
      by_contra short
      have room : value ≠ Int64.maxValue := fun same => short (same ▸ rfl)
      have next := startAfter_some.mpr ⟨room, rfl⟩
      simp [Progress.start, Ledger.newLedger, next] at full
  ascending := nofun

section Claim

variable {w : Watermark} {l moved : Ledger} {calls : List Call} {chunk : Chunk}

/-- A claim keeps the ledger the one its history leaves. -/
theorem Keeps.claim (keeps : Keeps w ⟨l, calls⟩) (claimed : l.claim chunk = some moved) :
    Keeps w ⟨moved, calls ++ [.claim chunk]⟩ := by
  have tiled := Ledger.claim_tiled keeps.tiled claimed
  obtain ⟨atFrontier, rfl⟩ := Ledger.claim_eq claimed
  have starts : startAfter (top w (Call.claimed calls)) = (chunk.lower, false) :=
    keeps.cut ▸ Ledger.startsAtFrontier_iff.mp atFrontier
  have consecutive : Consecutive w (Call.claimed calls ++ [chunk]) :=
    consecutive_concat.mpr ⟨keeps.consecutive, starts⟩
  have new : chunk ∉ Call.claimed calls := fun member =>
    (List.nodup_append.mp (nodup_of_consecutive consecutive)).2.2 chunk member chunk
      (List.mem_singleton_self _) rfl
  obtain ⟨unsaid, zero, unlanded⟩ := keeps.fresh chunk new
  have unowed : l.partials.lookup chunk = none := by
    cases held : l.partials.lookup chunk with
    | none => rfl
    | some part =>
      have member := keeps.tiled.owes chunk part held
      rw [keeps.inFlight, mem_unlanded] at member
      exact absurd member.1 new
  have before : ∀ other ∈ l.inFlight ++ [chunk], other ∈ l.inFlight ∨ other = chunk := by simp
  exact
    { tiled
      consecutive := by simpa using consecutive
      cut := by simp
      inFlight := by
        have same := keeps.inFlight
        dsimp only at same
        simp [same, Call.unlanded, unlanded]
      owed := by
        intro other member
        rw [owed_claim]
        rcases before other member with earlier | rfl
        · exact keeps.owed other earlier
        · rw [unsaid, unowed, Option.map_none]
      committed := by
        intro other member
        rw [total_claim]
        rcases before other member with earlier | rfl
        · exact keeps.committed other earlier
        · rw [zero, Ledger.committedRows, unowed]
      fresh := by
        intro other outside
        rw [claimed_claim, List.mem_append, not_or] at outside
        simpa using keeps.fresh other outside.1
      rows := by
        have same : total (calls ++ [.claim chunk]) = total calls := funext fun _ => total_claim
        have sum := keeps.rows
        dsimp only at sum zero
        simp [same, sum, zero, List.sum_append]
      takes := by
        obtain ⟨run, rest, takes, least⟩ := keeps.takes
        refine ⟨run, rest ++ [chunk], ⟨?_, ?_, takes.watermark, takes.complete, ?_⟩, ?_⟩
        · rw [claimed_claim, takes.claimed, List.append_assoc]
        · simpa using takes.landed
        · intro other
          rw [takes.waiting, landed_claim, List.mem_append, List.mem_singleton]
          refine ⟨fun ⟨inside, done⟩ => ⟨.inl inside, done⟩, ?_⟩
          rintro ⟨inside | rfl, done⟩
          · exact ⟨inside, done⟩
          · rw [unlanded] at done
            cases done
        · intro first head
          rw [landed_claim]
          cases rest with
          | nil => cases head; exact unlanded
          | cons _ _ => exact least first head
      ascending := by simpa using keeps.ascending }

end Claim

section Report

variable {w : Watermark} {l moved : Ledger} {calls : List Call} {chunk : Chunk} {rows : Int64}
  {pending : List Key}

/-- A sum moves by the difference at the one place that changes. -/
theorem sum_map_update {chunks : List Chunk} {before after : Chunk → Int64}
    (distinct : chunks.Nodup) (member : chunk ∈ chunks)
    (others : ∀ other, chunk ≠ other → after other = before other) :
    (chunks.map after).sum = (chunks.map before).sum + (after chunk - before chunk) := by
  induction chunks with
  | nil => cases member
  | cons first rest ih =>
    rw [List.nodup_cons] at distinct
    simp only [List.map_cons, List.sum_cons]
    by_cases same : first = chunk
    · subst same
      have unchanged : rest.map after = rest.map before :=
        List.map_congr_left fun other inside =>
          others other fun equal => distinct.1 (equal ▸ inside)
      rw [unchanged]
      grind
    · rw [ih distinct.2 ((List.mem_cons.mp member).resolve_left fun equal => same equal.symm),
        others first fun equal => same equal.symm]
      grind

/-- A report that sets the rows of a chunk in flight moves the sum by the difference. -/
theorem Keeps.sum_set (keeps : Keeps w ⟨l, calls⟩) (member : chunk ∈ l.inFlight)
    {after : Chunk → Int64} (others : ∀ other, chunk ≠ other → after other = total calls other) :
    ((Call.claimed calls).map after).sum = l.rows + (after chunk - l.committedRows chunk) := by
  have sum := keeps.rows
  have known := keeps.committed chunk member
  dsimp only at sum known
  have inside : chunk ∈ Call.claimed calls := (mem_unlanded.mp (keeps.inFlight ▸ member)).1
  rw [sum_map_update (nodup_of_consecutive keeps.consecutive) inside others, ← sum, ← known]

/-- A settle keeps the ledger the one its history leaves. -/
theorem Keeps.settle (keeps : Keeps w ⟨l, calls⟩)
    (settled : l.settle chunk rows pending = some moved) (ascending : pending.Pairwise (· < ·)) :
    Keeps w ⟨moved, calls ++ [.settle chunk rows pending]⟩ := by
  have tiled := Ledger.settle_tiled keeps.tiled settled
  obtain ⟨member, -, rfl⟩ := Ledger.settle_eq settled
  have inside : chunk ∈ Call.claimed calls := by
    have listed := keeps.inFlight ▸ member
    exact (mem_unlanded.mp listed).1
  exact
    { tiled
      consecutive := by simpa using keeps.consecutive
      cut := by simpa using keeps.cut
      inFlight := by simpa [Call.unlanded] using keeps.inFlight
      owed := by
        intro other listed
        by_cases same : chunk = other
        · subst same
          rw [owed_settle, if_pos rfl, AList.lookup_insert]
          rfl
        · rw [owed_settle, if_neg same, AList.lookup_insert_ne (Ne.symm same)]
          exact keeps.owed other listed
      committed := by
        intro other listed
        have known := keeps.committed other listed
        rw [Ledger.committedRows] at known ⊢
        by_cases same : chunk = other
        · subst same
          rw [total_settle, if_pos rfl, AList.lookup_insert]
        · rw [total_settle, if_neg same, AList.lookup_insert_ne (Ne.symm same)]
          exact known
      fresh := by
        intro other outside
        rw [claimed_settle] at outside
        have different : chunk ≠ other := fun same => outside (same ▸ inside)
        simpa [different] using keeps.fresh other outside
      rows := by
        rw [claimed_settle, keeps.sum_set member fun other different => by
          rw [total_settle, if_neg different], total_settle, if_pos rfl]
      takes := by
        obtain ⟨run, rest, takes, least⟩ := keeps.takes
        exact ⟨run, rest, ⟨by simpa using takes.claimed, by simpa using takes.landed,
          takes.watermark, takes.complete, by simpa using takes.waiting⟩, by simpa using least⟩
      ascending := by
        intro other keys said
        rw [owed_settle] at said
        split at said
        · cases said
          exact ascending
        · exact keeps.ascending other keys said }

variable {run rest : List Chunk}

/-- A landed chunk that waits at the watermark's next key is the first of the claimed chunks above
it. -/
theorem Takes.first (takes : Takes w l calls run rest)
    (consecutive : Consecutive w (Call.claimed calls)) (tiled : l.Tiled)
    (unfinished : l.complete = false) (waits : chunk ∈ l.landed) (lower : chunk.lower = l.next) :
    ∃ later, rest = chunk :: later := by
  have inside := ((takes.waiting chunk).mp waits).1
  have apart := consecutive.apart
  rw [takes.claimed, consecutive_append] at consecutive
  rw [takes.claimed, List.pairwise_append] at apart
  cases rest with
  | nil => cases inside
  | cons first later =>
    have starts := consecutive.2.1
    rw [← takes.watermark] at starts
    have next := (tiled.follows unfinished).2
    rw [starts] at next
    have same : chunk = first := by
      by_contra different
      have separate := apart.2.1.forall inside (List.mem_cons_self) different
      have both := separate.not_covers
        (Chunk.covers_iff.mpr ⟨Int64.le_refl chunk.lower, chunk.ordered⟩)
      have low : first.covers chunk.lower = true := by
        rw [lower, next]
        exact Chunk.covers_iff.mpr ⟨Int64.le_refl _, first.ordered⟩
      rw [low] at both
      cases both
    exact ⟨later, same ▸ rfl⟩

/-- Each move takes the first chunk above the run into it, and leaves fewer waiting. -/
theorem Takes.advanceOne (takes : Takes w l calls run rest)
    (consecutive : Consecutive w (Call.claimed calls)) (tiled : l.Tiled)
    (advanced : l.advanceOne = some moved) :
    moved.landed.length < l.landed.length ∧ ∃ run rest, Takes w moved calls run rest := by
  obtain ⟨unfinished, chunk, waits, lower, rfl⟩ := Ledger.advanceOne_eq advanced
  obtain ⟨later, rfl⟩ := takes.first consecutive tiled unfinished waits lower
  have shorter := List.length_erase_of_mem waits
  have nonempty := List.length_pos_of_mem waits
  have distinct : l.landed.Nodup :=
    (List.pairwise_append.mp tiled.apart).2.1.imp Ledger.Apart.ne
  have fresh : chunk ∉ later := by
    have all := nodup_of_consecutive consecutive
    rw [takes.claimed, List.nodup_append] at all
    exact (List.nodup_cons.mp all.2.1).1
  have waiting : ∀ other, other ∈ l.landed.erase chunk ↔
      other ∈ later ∧ Call.landed calls other = true := by
    intro other
    rw [distinct.mem_erase_iff, takes.waiting, List.mem_cons]
    constructor
    · rintro ⟨different, same | inside, done⟩
      · exact absurd same different
      · exact ⟨inside, done⟩
    · rintro ⟨inside, done⟩
      exact ⟨fun same => fresh (same ▸ inside), .inr inside, done⟩
  have landed : ∀ other ∈ run ++ [chunk], Call.landed calls other = true := by
    intro other member
    rcases List.mem_append.mp member with earlier | here
    · exact takes.landed other earlier
    · rw [List.mem_singleton.mp here]
      exact ((takes.waiting chunk).mp waits).2
  have claimed : Call.claimed calls = (run ++ [chunk]) ++ later := by
    rw [takes.claimed, List.append_assoc, List.singleton_append]
  split
  next full =>
    exact ⟨by dsimp only; omega, run ++ [chunk], later,
      ⟨claimed, landed, by simp, fun _ => by simp [full], waiting⟩⟩
  next =>
    refine ⟨by dsimp only; omega, run ++ [chunk], later, claimed, landed, by simp, ?_, waiting⟩
    intro full
    exact absurd (unfinished.symm.trans full) Bool.false_ne_true

/-- The watermark stops below a claimed chunk that has not landed. -/
theorem Takes.stopped (takes : Takes w l calls run rest)
    (consecutive : Consecutive w (Call.claimed calls)) (tiled : l.Tiled)
    (stops : l.advanceOne = none) : ∀ chunk ∈ rest.head?, Call.landed calls chunk = false := by
  rw [takes.claimed, consecutive_append] at consecutive
  intro chunk head
  cases rest with
  | nil => cases head
  | cons first later =>
    cases head
    have starts := consecutive.2.1
    rw [← takes.watermark] at starts
    cases full : l.complete with
    | true =>
      rw [takes.complete full] at starts
      exact absurd rfl (startAfter_some.mp starts).1
    | false =>
      by_contra done
      rw [Bool.not_eq_false] at done
      have waits := (takes.waiting chunk).mpr ⟨List.mem_cons_self, done⟩
      have next := (tiled.follows full).2
      rw [starts] at next
      rw [Ledger.advanceOne, full, if_neg Bool.false_ne_true] at stops
      split at stops
      next none => simpa [next] using List.find?_eq_none.mp none chunk waits
      next => cases stops

/-- The watermark moves until the next chunk has not landed. -/
theorem Takes.advance {fuel : ℕ} (takes : Takes w l calls run rest)
    (consecutive : Consecutive w (Call.claimed calls)) (tiled : l.Tiled)
    (enough : l.landed.length ≤ fuel) :
    ∃ run rest, Takes w (Ledger.advance fuel l) calls run rest ∧
      ∀ chunk ∈ rest.head?, Call.landed calls chunk = false := by
  induction fuel generalizing l run rest with
  | zero =>
    have none : l.advanceOne = none := by
      cases advanced : l.advanceOne with
      | none => rfl
      | some moved =>
        have shorter := (takes.advanceOne consecutive tiled advanced).1
        omega
    exact ⟨run, rest, takes, takes.stopped consecutive tiled none⟩
  | succ fuel ih =>
    rw [Ledger.advance]
    cases advanced : l.advanceOne with
    | none => exact ⟨run, rest, takes, takes.stopped consecutive tiled advanced⟩
    | some moved =>
      obtain ⟨shorter, run, rest, onward⟩ := takes.advanceOne consecutive tiled advanced
      exact ih onward (Ledger.advanceOne_tiled tiled advanced) (by omega)

theorem advance_rows (fuel : ℕ) : (Ledger.advance fuel l).rows = l.rows := by
  induction fuel generalizing l with
  | zero => rfl
  | succ fuel ih =>
    rw [Ledger.advance]
    cases advanced : l.advanceOne with
    | none => rfl
    | some moved =>
      obtain ⟨-, chunk, -, -, rfl⟩ := Ledger.advanceOne_eq advanced
      rw [ih]
      split <;> rfl

/-- A chunk that lands waits above the run the watermark has taken in. -/
theorem Takes.landing (takes : Takes w l calls run rest) (listed : chunk ∈ Call.unlanded calls) :
    Takes w (l.landing chunk rows) (calls ++ [.land chunk rows]) run rest := by
  obtain ⟨inside, open_⟩ := mem_unlanded.mp listed
  refine ⟨by simpa using takes.claimed, fun other member => ?_, takes.watermark, takes.complete,
    fun other => ?_⟩
  · rw [landed_land, takes.landed other member, Bool.true_or]
  · have above : chunk ∈ rest := by
      refine (List.mem_append.mp (takes.claimed ▸ inside)).resolve_left fun below => ?_
      rw [takes.landed chunk below] at open_
      cases open_
    rw [Ledger.landing, List.mem_append, takes.waiting, List.mem_singleton, landed_land,
      Bool.or_eq_true, decide_eq_true_eq]
    constructor
    · rintro (⟨inside, done⟩ | rfl)
      · exact ⟨inside, .inl done⟩
      · exact ⟨above, .inr rfl⟩
    · rintro ⟨inside, done | rfl⟩
      · exact .inl ⟨inside, done⟩
      · exact .inr rfl

/-- A landing takes its chunk out of the open ones. -/
theorem unlanded_land (distinct : (Call.unlanded calls).Nodup) :
    Call.unlanded (calls ++ [.land chunk rows]) = (Call.unlanded calls).erase chunk := by
  rw [distinct.erase_eq_filter, Call.unlanded, Call.unlanded, claimed_land, List.filter_filter]
  refine List.filter_congr fun other _ => ?_
  rw [landed_land, Bool.not_or, Bool.and_comm]
  by_cases same : chunk = other
  · simp [same]
  · simp [same, Ne.symm same]

/-- A landing keeps the ledger the one its history leaves: the chunk leaves the open ones, and the
watermark takes in what it can. -/
theorem Keeps.land (keeps : Keeps w ⟨l, calls⟩) (lands : l.land chunk rows = some moved) :
    Keeps w ⟨moved, calls ++ [.land chunk rows]⟩ := by
  have tiled := Ledger.land_tiled keeps.tiled lands
  obtain ⟨member, rfl⟩ := Ledger.land_eq lands
  obtain ⟨cut, inFlight, partials⟩ :=
    Ledger.advance_frame (l := l.landing chunk rows) (l.landing chunk rows).landed.length
  rw [show (l.landing chunk rows).inFlight = l.inFlight.erase chunk from rfl] at inFlight
  have listed : chunk ∈ Call.unlanded calls := keeps.inFlight ▸ member
  have inside := (mem_unlanded.mp listed).1
  have distinct : l.inFlight.Nodup :=
    (List.pairwise_append.mp keeps.tiled.apart).1.imp Ledger.Apart.ne
  have remains : ∀ other ∈ l.inFlight.erase chunk, chunk ≠ other ∧ other ∈ l.inFlight :=
    fun other later => by
      obtain ⟨different, earlier⟩ := distinct.mem_erase_iff.mp later
      exact ⟨different.symm, earlier⟩
  exact
    { tiled
      consecutive := by simpa using keeps.consecutive
      cut := by
        rw [claimed_land]
        exact cut.trans keeps.cut
      inFlight := by
        have same := keeps.inFlight
        dsimp only at same
        rw [same] at distinct
        rw [unlanded_land distinct, ← same, inFlight]
      owed := by
        intro other later
        obtain ⟨different, earlier⟩ := remains other (inFlight ▸ later)
        rw [partials, Ledger.landing, AList.lookup_erase_ne different.symm, owed_land]
        exact keeps.owed other earlier
      committed := by
        intro other later
        obtain ⟨different, earlier⟩ := remains other (inFlight ▸ later)
        have known := keeps.committed other earlier
        rw [Ledger.committedRows] at known ⊢
        rw [partials, Ledger.landing, AList.lookup_erase_ne different.symm, total_land,
          if_neg different]
        exact known
      fresh := by
        intro other outside
        rw [claimed_land] at outside
        have different : chunk ≠ other := fun same => outside (same ▸ inside)
        simpa [different] using keeps.fresh other outside
      rows := by
        rw [claimed_land, keeps.sum_set member fun other different => by
          rw [total_land, if_neg different], total_land, if_pos rfl, advance_rows]
        rfl
      takes := by
        obtain ⟨run, rest, takes, -⟩ := keeps.takes
        exact (takes.landing listed).advance (by simpa using keeps.consecutive)
          (Ledger.landing_tiled keeps.tiled member) (Nat.le_refl _)
      ascending := by simpa using keeps.ascending }

end Report

/-! ### What a run of calls keeps -/

/-- How far along a key is. -/
def KeyState.rank : KeyState → ℕ
  | .uncut => 0
  | .inFlight => 1
  | .landed => 2

/-- Nothing has gone back: neither frontier, nor the state of a key. -/
structure Later (p p' : Progress) : Prop where
  watermark : ∀ key, p.ledger.watermark.reaches key = true → p'.ledger.watermark.reaches key = true
  cut : ∀ key, p.ledger.cut.reaches key = true → p'.ledger.cut.reaches key = true
  state : ∀ key, (p.ledger.state key).rank ≤ (p'.ledger.state key).rank

section Later

variable {w : Watermark} {l moved : Ledger} {calls : List Call} {chunk : Chunk} {rows : Int64}
  {pending : List Key} {p p' p'' : Progress} {call : Call}

theorem Later.refl (p : Progress) : Later p p :=
  ⟨fun _ reached => reached, fun _ reached => reached, fun _ => Nat.le_refl _⟩

theorem Later.trans (first : Later p p') (second : Later p' p'') : Later p p'' where
  watermark key reached := second.watermark key (first.watermark key reached)
  cut key reached := second.cut key (first.cut key reached)
  state key := Nat.le_trans (first.state key) (second.state key)

theorem state_of_uncut {key : Key} (uncut : l.cut.reaches key = false) : l.state key = .uncut := by
  rw [Ledger.state, Position.classify, show l.position.cut = l.cut from rfl, uncut]
  rfl

/-- A claim takes nothing back. -/
theorem Keeps.later_claim (keeps : Keeps w ⟨l, calls⟩) (claimed : l.claim chunk = some moved) :
    Later ⟨l, calls⟩ ⟨moved, calls ++ [.claim chunk]⟩ := by
  have after : ∀ key, moved.state key = _ := fun _ => Ledger.state_claim keeps.tiled claimed
  obtain ⟨atFrontier, rfl⟩ := Ledger.claim_eq claimed
  refine ⟨fun _ reached => reached, fun key reached => ?_, fun key => ?_⟩
  · rw [Ledger.reaches_claim atFrontier, reached, Bool.true_or]
  · rw [after key]
    split
    next covers =>
      have uncut : l.cut.reaches key = false := by
        by_contra reached
        rw [Bool.not_eq_false] at reached
        have below := Ledger.lt_of_startsAtFrontier atFrontier reached
        have inside := Chunk.covers_iff.mp covers
        grind
      rw [state_of_uncut uncut]
      exact Nat.zero_le _
    next => exact Nat.le_refl _

/-- A settle that narrows what its chunk owes takes nothing back. -/
theorem Keeps.later_settle (keeps : Keeps w ⟨l, calls⟩)
    (settled : l.settle chunk rows pending = some moved)
    (narrows : ∀ before, Call.owed calls chunk = some before → pending ⊆ before) :
    Later ⟨l, calls⟩ ⟨moved, calls ++ [.settle chunk rows pending]⟩ := by
  have after : ∀ key, moved.state key = _ := fun _ => Ledger.state_settle keeps.tiled settled
  obtain ⟨member, -, rfl⟩ := Ledger.settle_eq settled
  refine ⟨fun _ reached => reached, fun _ reached => reached, fun key => ?_⟩
  rw [after key]
  split
  next covers =>
    rw [Ledger.state_of_covers keeps.tiled member covers]
    have owes := keeps.owed chunk member
    cases held : l.partials.lookup chunk with
    | none =>
      rw [Ledger.stateWithin]
      split <;> decide
    | some part =>
      rw [held] at owes
      simp only [Ledger.stateWithin, List.contains_iff_mem]
      have fewer := narrows part.pending owes.symm
      by_cases now : key ∈ pending
      · rw [if_pos now, if_pos (fewer now)]
      · rw [if_neg now]
        split <;> decide
  next => exact Nat.le_refl _

/-- The watermark only moves up. -/
theorem reaches_advance {key : Key} (fuel : ℕ) (tiled : l.Tiled)
    (reached : l.watermark.reaches key = true) :
    (Ledger.advance fuel l).watermark.reaches key = true := by
  induction fuel generalizing l with
  | zero => exact reached
  | succ fuel ih =>
    rw [Ledger.advance]
    cases advanced : l.advanceOne with
    | none => exact reached
    | some moved =>
      refine ih (Ledger.advanceOne_tiled tiled advanced) ?_
      obtain ⟨-, chunk, waits, -, rfl⟩ := Ledger.advanceOne_eq advanced
      have above := tiled.above chunk (List.mem_append_right _ waits)
      have ordered := chunk.ordered
      have below : key ≤ chunk.upper := by
        by_contra high
        rw [Ledger.reaches_of_le reached (by grind)] at above
        cases above
      split <;> simpa [Watermark.reaches] using below

/-- A landing takes nothing back. -/
theorem Keeps.later_land (keeps : Keeps w ⟨l, calls⟩) (lands : l.land chunk rows = some moved) :
    Later ⟨l, calls⟩ ⟨moved, calls ++ [.land chunk rows]⟩ := by
  have after : ∀ key, moved.state key = _ := fun _ => Ledger.state_land keeps.tiled lands
  obtain ⟨member, rfl⟩ := Ledger.land_eq lands
  refine ⟨fun key reached => ?_, fun key reached => ?_, fun key => ?_⟩
  · exact reaches_advance _ (Ledger.landing_tiled keeps.tiled member) reached
  · rw [(Ledger.advance_frame _).1]
    exact reached
  · rw [after key]
    split
    next => cases l.state key <;> decide
    next => exact Nat.le_refl _

/-- **One call keeps the ledger what its history leaves**, and takes nothing back. -/
theorem Keeps.step (keeps : Keeps w p) (narrows : p.Narrows call)
    (steps : p.step call = some p') : Keeps w p' ∧ Later p p' := by
  obtain ⟨l, calls⟩ := p
  rw [Progress.step] at steps
  split at steps
  next =>
    cases steps
    exact ⟨keeps, .refl _⟩
  next moved accepted =>
    cases steps
    cases call with
    | claim chunk => exact ⟨keeps.claim accepted, keeps.later_claim accepted⟩
    | settle chunk rows pending =>
      have settled : l.settle chunk rows pending = some moved := accepted
      obtain ⟨ascending, fewer⟩ := narrows (by rw [settled]; rfl)
      exact ⟨keeps.settle settled ascending, keeps.later_settle settled fewer⟩
    | land chunk rows => exact ⟨keeps.land accepted, keeps.later_land accepted⟩

theorem keeps_of_reaches (reached : Reaches Progress.step Progress.Narrows (.start w) p) :
    Keeps w p :=
  reached.invariant (P := Keeps w) (keeps_start w) fun _ _ _ keeps narrows steps =>
    (keeps.step narrows steps).1

theorem Keeps.later (keeps : Keeps w p) (reached : Reaches Progress.step Progress.Narrows p p') :
    Later p p' :=
  (reached.invariant (P := fun p' => Keeps w p' ∧ Later p p') ⟨keeps, .refl p⟩
    fun _ _ _ ⟨keeps, later⟩ narrows steps =>
      ⟨(keeps.step narrows steps).1, later.trans (keeps.step narrows steps).2⟩).2

end Later

/-! ### The state of each key -/

namespace Call

/-- The key lies above the start and above every claimed chunk. -/
def Uncut (w : Watermark) (calls : List Call) (key : Key) : Prop :=
  w.reaches key = false ∧ ∀ chunk ∈ claimed calls, chunk.upper < key

/-- The key lies in a claimed chunk that has not landed, and among the keys it was last said to owe
once it has settled. -/
def InFlight (calls : List Call) (key : Key) : Prop :=
  ∃ chunk ∈ claimed calls, landed calls chunk = false ∧ chunk.covers key = true ∧
    ∀ pending, owed calls chunk = some pending → key ∈ pending

end Call

section States

variable {w : Watermark} {p : Progress} {key : Key} (keeps : Keeps w p)

include keeps

/-- The keys above the cut are those above every claimed chunk. -/
theorem Keeps.cut_eq_false : p.ledger.cut.reaches key = false ↔ Uncut w p.calls key := by
  have reaches := keeps.consecutive.reaches_top key
  rw [← keeps.cut] at reaches
  constructor
  · intro uncut
    have apart := uncut
    rw [reaches, Bool.or_eq_false_iff] at apart
    refine ⟨apart.1, fun chunk member => ?_⟩
    by_contra low
    have top := keeps.consecutive.reaches_top chunk.upper
    rw [← keeps.cut, List.any_eq_true.mpr ⟨chunk, member,
      Chunk.covers_iff.mpr ⟨chunk.ordered, Int64.le_refl _⟩⟩, Bool.or_true] at top
    rw [Ledger.reaches_of_le top (by grind)] at uncut
    cases uncut
  · rintro ⟨above, beyond⟩
    rw [reaches, above, Bool.false_or, List.any_eq_false]
    intro chunk member covers
    have high := beyond chunk member
    have low := (Chunk.covers_iff.mp covers).2
    grind

/-- The ledger calls a key uncut exactly where the calls do. -/
theorem Keeps.state_uncut : p.ledger.state key = .uncut ↔ Uncut w p.calls key := by
  rw [← keeps.cut_eq_false]
  refine ⟨fun uncut => ?_, state_of_uncut⟩
  by_contra cut
  rw [Bool.not_eq_false] at cut
  by_cases held : ∃ chunk ∈ p.ledger.inFlight, chunk.covers key = true
  · obtain ⟨chunk, member, covers⟩ := held
    rw [Ledger.state_of_covers keeps.tiled member covers, Ledger.stateWithin.eq_def] at uncut
    split at uncut
    · cases uncut
    · split at uncut <;> cases uncut
  · rw [Ledger.state_of_not_covers, if_pos cut] at uncut
    · cases uncut
    · exact fun chunk member => Bool.eq_false_iff.mpr fun covers => held ⟨chunk, member, covers⟩

/-- The ledger calls a key in flight exactly where the calls do. -/
theorem Keeps.state_inFlight : p.ledger.state key = .inFlight ↔ InFlight p.calls key := by
  constructor
  · intro flying
    by_cases held : ∃ chunk ∈ p.ledger.inFlight, chunk.covers key = true
    · obtain ⟨chunk, member, covers⟩ := held
      have listed := keeps.inFlight ▸ member
      obtain ⟨claimed, unlanded⟩ := mem_unlanded.mp listed
      refine ⟨chunk, claimed, unlanded, covers, fun pending said => ?_⟩
      rw [← keeps.owed chunk member, Option.map_eq_some_iff] at said
      obtain ⟨part, known, rfl⟩ := said
      rw [Ledger.state_of_covers keeps.tiled member covers, known, Ledger.stateWithin] at flying
      by_contra absent
      rw [if_neg (by simpa using absent)] at flying
      cases flying
    · rw [Ledger.state_of_not_covers fun chunk member => Bool.eq_false_iff.mpr fun covers =>
        held ⟨chunk, member, covers⟩] at flying
      split at flying <;> cases flying
  · rintro ⟨chunk, claimed, unlanded, covers, owes⟩
    have member : chunk ∈ p.ledger.inFlight :=
      keeps.inFlight ▸ mem_unlanded.mpr ⟨claimed, unlanded⟩
    rw [Ledger.state_of_covers keeps.tiled member covers, Ledger.stateWithin.eq_def]
    have said := keeps.owed chunk member
    split
    next => rfl
    next part known =>
      rw [known] at said
      exact if_pos (by simpa using owes part.pending said.symm)

/-- The watermark is the top of the longest run of landed chunks above the start. -/
theorem Keeps.watermark :
    p.ledger.watermark = top w ((claimed p.calls).takeWhile (landed p.calls)) := by
  obtain ⟨run, rest, takes, least⟩ := keeps.takes
  rw [takes.watermark, takes.claimed, List.takeWhile_append_of_pos takes.landed]
  cases rest with
  | nil => simp
  | cons first later => simp [least first rfl]

theorem Keeps.pending {owes : PendingKeys} (listed : owes ∈ p.ledger.position.pending) :
    owes.keys.Pairwise (· < ·) := by
  obtain ⟨chunk, member, held⟩ := List.mem_filterMap.mp listed
  obtain ⟨part, known, rfl⟩ := Option.map_eq_some_iff.mp held
  refine keeps.ascending chunk part.pending ?_
  rw [← keeps.owed chunk member, known, Option.map_some]

end States

/-- **The ledger agrees with the copy's history.** After any run of calls whose settles owe
ascending keys, each time only keys they owed before, the position's watermark is the top of the
longest run of landed chunks above the start and lies within its cut frontier; a key is uncut or in
flight as the calls say, and landed otherwise; the row count is the sum of what each chunk last
reported; and no later call takes back a frontier or the state of a key. The binary search a
position makes in a pending chunk's keys finds what they hold. -/
theorem ledger_agrees_with_history (w : Watermark) (p : Progress)
    (reached : Reaches Progress.step Progress.Narrows (.start w) p) :
    Consecutive w (claimed p.calls) ∧
    p.ledger.position.watermark = top w ((claimed p.calls).takeWhile (landed p.calls)) ∧
    p.ledger.position.cut = top w (claimed p.calls) ∧
    (∀ key, p.ledger.position.watermark.reaches key = true →
      p.ledger.position.cut.reaches key = true) ∧
    (∀ key, p.ledger.position.classify key = .uncut ↔ Uncut w p.calls key) ∧
    (∀ key, p.ledger.position.classify key = .inFlight ↔ InFlight p.calls key) ∧
    (∀ owes ∈ p.ledger.position.pending, ∀ key,
      binarySearch owes.keys key = owes.keys.contains key) ∧
    p.ledger.position.rowsInserted = ((claimed p.calls).map (total p.calls)).sum ∧
    ∀ p', Reaches Progress.step Progress.Narrows p p' →
      (∀ key, p.ledger.position.watermark.reaches key = true →
        p'.ledger.position.watermark.reaches key = true) ∧
      (∀ key, p.ledger.position.cut.reaches key = true →
        p'.ledger.position.cut.reaches key = true) ∧
      ∀ key, (p.ledger.position.classify key).rank ≤ (p'.ledger.position.classify key).rank := by
  have keeps := keeps_of_reaches reached
  refine ⟨keeps.consecutive, keeps.watermark, keeps.cut, keeps.tiled.frontier,
    fun key => keeps.state_uncut, fun key => keeps.state_inFlight,
    fun owes listed key => binarySearch_eq_contains (keeps.pending listed), keeps.rows,
    fun p' onward => ?_⟩
  have later := keeps.later onward
  exact ⟨later.watermark, later.cut, later.state⟩

/-- The keys through 10. -/
def lowChunk : Chunk := ⟨Int64.minValue, 10, 5, by decide⟩

/-- The keys above 10. -/
def highChunk : Chunk := ⟨11, Int64.maxValue, 5, by decide⟩

/-- Both chunks are claimed; the upper one commits all but two rows before the lower one lands. -/
def settledAhead : List Call :=
  [.claim lowChunk, .claim highChunk, .settle highChunk 3 [20, 30], .land lowChunk 5]

/-- A history with a chunk settled ahead of the watermark. -/
theorem ledger_agrees_with_history_settled :
    ∃ p, run Progress.step (fun _ _ => true) (.start none) settledAhead = some p ∧
      p.ledger.position.watermark = some 10 ∧ p.ledger.position.rowsInserted = 8 ∧
      p.ledger.position.classify 20 = .inFlight := by
  have narrows : Reaches Progress.step Progress.Narrows (.start none)
      ((run Progress.step (fun _ _ => true) (.start none) settledAhead).get (by decide)) := by
    refine .step (.step (.step (.step .refl (a := .claim lowChunk) trivial rfl)
      (a := .claim highChunk) trivial rfl) (a := .settle highChunk 3 [20, 30])
      (fun _ => ⟨by decide, nofun⟩) rfl) (a := .land lowChunk 5) trivial rfl
  obtain ⟨-, watermark, -, -, -, inFlight, -, rows, -⟩ := ledger_agrees_with_history none _ narrows
  exact ⟨_, Option.some_get _ |>.symm, watermark.trans (by decide), rows.trans (by decide),
    (inFlight 20).mpr ⟨highChunk, by decide, by decide, by decide, by decide⟩⟩

end PgSprite.Copier
