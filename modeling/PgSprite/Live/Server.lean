/-
**The source server: its committed changes, what its readers see of them, and the slot.**

A transaction's changes enter the log when its commit is written to the WAL; readers see them only
once the commit has been made visible, which a synchronous standby can delay past the moment the
stream delivers them. A transaction that changes a row another one is still committing waits for
its lock, so the changes of one key become visible in log order (`ServerOk.ordered`).

`shown` is the table a new snapshot reads; `ServerOk.exists_position` says that what it finds under
a key is the row at one position of the log.
-/

import PgSprite.Applier.Settled

namespace PgSprite.Live

open Std PgSprite.Decode PgSprite.Source PgSprite.Lib PgSprite.Applier

theorem lsn_max (a b : LSN) : max a b = if a ≤ b then b else a := rfl

/-- The source server, as far as the route reads it. -/
structure Server where
  /-- The source table at the slot's consistent point. -/
  base : Table
  log : List Committed
  /-- The commits a new snapshot shows. -/
  visible : List LSN
  wal : LSN
  slot : LSN

namespace Server

/-- The committed changes as a history. -/
def history (s : Server) : History := ⟨s.base, s.log⟩

/-- Whether a new snapshot shows the change. -/
def seen (s : Server) (c : Committed) : Bool := s.visible.contains c.commit

/-- The table with every committed change. -/
def source (s : Server) : Table := replay s.base s.log

/-- The table a new snapshot reads. -/
def shown (s : Server) : Table := replay s.base (s.log.filter s.seen)

/-- Whether the changes can be made one after another to the table. -/
def legalAll (table : Table) : List Change → Bool
  | [] => true
  | change :: rest => change.legal table && legalAll (change.apply table) rest

/-- Whether no row the change touches is locked by a transaction that is still committing. -/
def unlocked (s : Server) (change : Change) : Bool :=
  s.log.all fun c => s.seen c || !change.keys.any fun key => c.change.touches key

/-- One transaction writes its commit. -/
def commit (s : Server) (changes : List Change) (id : UInt64) (lsn : LSN) : Option Server :=
  if decide (s.wal < lsn) && changes.all s.unlocked && legalAll s.source changes then
    some { s with log := s.log ++ changes.map fun change => ⟨change, id, lsn⟩, wal := lsn }
  else none

/-- A commit becomes visible to new snapshots. -/
def becomeVisible (s : Server) (lsn : LSN) : Server := { s with visible := lsn :: s.visible }

/-- Whether a snapshot can be the one the server reports now: it counts no transaction as committed
that is still committing, and none of those is so old that its 32-bit id would be mistaken. -/
def reports (s : Server) (snap : Snapshot) : Bool :=
  snap.read && !snap.all &&
    s.log.all fun c => s.seen c || (snap.near c.id && !snap.shows c.id)

/-- Whether a WAL position is past every commit a new snapshot shows. -/
def readAt (s : Server) (lsn : LSN) : Bool :=
  s.log.all fun c => !s.seen c || decide (c.commit ≤ lsn)

/-- The slot's confirmed position never moves backwards on the client's word. -/
def advanceSlot (s : Server) (lsn : LSN) : Server :=
  if s.slot < lsn then { s with slot := lsn } else s

end Server

/-! ### What the server keeps true -/

/-- The log is a valid history, its commits ascend to the end of the WAL, and the changes of one key
become visible in order. -/
structure ServerOk (s : Server) : Prop where
  valid : s.history.Valid
  ascending : s.log.Pairwise fun a b => a.commit ≤ b.commit
  written : ∀ c ∈ s.log, c.commit ≤ s.wal
  /-- A transaction commits only once the ones that changed its rows before it are visible. -/
  locks : ∀ (i j : ℕ) (a b : Committed) (key : Key), i < j → s.log[i]? = some a →
    s.log[j]? = some b → a.change.touches key = true → b.change.touches key = true →
    s.seen a = true ∨ a.commit = b.commit

section Server

variable {s s' : Server} {changes : List Change} {id : UInt64} {lsn : LSN} {key : Key}

/-- What a commit needs, and what it appends. -/
theorem Server.commit_eq (committed : s.commit changes id lsn = some s') :
    s.wal < lsn ∧ changes.all s.unlocked = true ∧ Server.legalAll s.source changes = true ∧
      s' = { s with log := s.log ++ changes.map fun change => ⟨change, id, lsn⟩, wal := lsn } := by
  rw [Server.commit] at committed
  split at committed
  next guards =>
    simp only [Bool.and_eq_true, decide_eq_true_eq] at guards
    rw [Option.some.injEq] at committed
    exact ⟨guards.1.1, guards.1.2, guards.2, committed.symm⟩
  next => cases committed

theorem log_of_commit {log : List Committed} {i : ℕ} {c : Committed}
    (found : (log ++ changes.map fun change => (⟨change, id, lsn⟩ : Committed))[i]? = some c) :
    log[i]? = some c ∨ c.commit = lsn := by
  rcases Nat.lt_or_ge i log.length with inside | outside
  · exact Or.inl (by rwa [List.getElem?_append_left inside] at found)
  · rw [List.getElem?_append_right outside] at found
    obtain ⟨change, -, rfl⟩ := List.mem_map.mp (List.mem_of_getElem? found)
    exact Or.inr rfl

theorem ServerOk.commit_le (ok : ServerOk s) {i j : ℕ} {a b : Committed} (below : i ≤ j)
    (first : s.log[i]? = some a) (second : s.log[j]? = some b) : a.commit ≤ b.commit := by
  rcases Nat.eq_or_lt_of_le below with rfl | strict
  · rw [first, Option.some.injEq] at second
    exact second ▸ UInt64.le_refl _
  · obtain ⟨inside, rfl⟩ := List.getElem?_eq_some_iff.mp first
    obtain ⟨inside', rfl⟩ := List.getElem?_eq_some_iff.mp second
    exact List.pairwise_iff_getElem.mp ok.ascending i j inside inside' strict

/-- A legal transaction extends a valid history. -/
theorem valid_append {base : Table} {log : List Committed} (valid : History.Valid ⟨base, log⟩)
    (legal : Server.legalAll (replay base log) changes = true) :
    History.Valid ⟨base, log ++ changes.map fun change => ⟨change, id, lsn⟩⟩ := by
  induction changes generalizing log with
  | nil => simpa using valid
  | cons change rest ih =>
    rw [Server.legalAll, Bool.and_eq_true] at legal
    have one := valid.concat (c := ⟨change, id, lsn⟩) legal.1
    have table : replay base (log ++ [⟨change, id, lsn⟩]) = change.apply (replay base log) := by
      rw [replay, List.foldl_append]
      rfl
    rw [List.map_cons, List.append_cons]
    exact ih one (table ▸ legal.2)

/-- **A commit keeps the server's invariant.** -/
theorem ServerOk.commit (ok : ServerOk s) (committed : s.commit changes id lsn = some s') :
    ServerOk s' := by
  obtain ⟨later, unlocked, legal, rfl⟩ := Server.commit_eq committed
  have recent :
      ∀ c ∈ changes.map fun change => (⟨change, id, lsn⟩ : Committed), c.commit = lsn := by
    intro c member
    obtain ⟨change, -, rfl⟩ := List.mem_map.mp member
    rfl
  refine ⟨valid_append ok.valid legal, ?_, ?_, ?_⟩
  · refine List.pairwise_append.mpr ⟨ok.ascending, ?_, fun a old b new => ?_⟩
    · refine List.pairwise_of_forall_mem_list fun a first b second => ?_
      rw [recent a first, recent b second]
      exact UInt64.le_refl _
    · have bound := ok.written a old
      rw [recent b new]
      grind
  · intro c member
    rcases List.mem_append.mp member with old | new
    · have bound := ok.written c old
      show c.commit ≤ lsn
      grind
    · rw [recent c new]
      exact UInt64.le_refl _
  · intro i j a b key below first second touches touches'
    rcases Nat.lt_or_ge j s.log.length with inside | outside
    · rw [List.getElem?_append_left inside] at second
      rw [List.getElem?_append_left (by omega)] at first
      exact ok.locks i j a b key below first second touches touches'
    · rw [List.getElem?_append_right outside] at second
      have new := List.mem_of_getElem? second
      rcases Nat.lt_or_ge i s.log.length with early | late
      · -- an older change of the same row is visible, or its lock would be held
        rw [List.getElem?_append_left early] at first
        obtain ⟨change, member, rfl⟩ := List.mem_map.mp new
        have free := List.all_eq_true.mp unlocked change member
        rw [Server.unlocked, List.all_eq_true] at free
        have clear := free a (List.mem_of_getElem? first)
        rw [Bool.or_eq_true] at clear
        refine clear.imp (fun visible => visible) fun untouched => ?_
        have hit : (change.keys.any fun key => a.change.touches key) = true :=
          List.any_eq_true.mpr ⟨key, Change.touches_iff.mp touches', touches⟩
        rw [hit] at untouched
        cases untouched
      · rw [List.getElem?_append_right late] at first
        exact Or.inr ((recent a (List.mem_of_getElem? first)).trans (recent b new).symm)

theorem seen_becomeVisible {c : Committed} (seen : s.seen c = true) :
    (s.becomeVisible lsn).seen c = true := by
  simp only [Server.seen, Server.becomeVisible, List.contains_cons, Bool.or_eq_true] at seen ⊢
  exact Or.inr seen

theorem ServerOk.becomeVisible (ok : ServerOk s) : ServerOk (s.becomeVisible lsn) :=
  ⟨ok.valid, ok.ascending, ok.written, fun i j a b key below first second touches touches' =>
    (ok.locks i j a b key below first second touches touches').imp seen_becomeVisible
      fun same => same⟩

theorem ServerOk.ordered (ok : ServerOk s) (key : Key) :
    KeyedLog.SeenInOrder s.seen semantics s.log key := by
  intro i j earlier later below first second touches touches' seen
  rcases ok.locks i j earlier later key below first second touches touches' with visible | same
  · exact visible
  · simp only [Server.seen] at seen ⊢
    exact same ▸ seen

/-- **What a new snapshot finds under a key is the row at the key's first unseen change.** -/
theorem ServerOk.exists_position (ok : ServerOk s) (key : Key) :
    ∃ p, KeyedLog.FirstUnseen s.seen semantics s.log key p ∧
      s.shown[key]? = s.history.row p key := by
  obtain ⟨p, unseen, same⟩ : ∃ p, KeyedLog.FirstUnseen s.seen semantics s.log key p ∧
      semantics.rowAfter (rows s.base) (s.log.filter s.seen) key
        = semantics.rowAt (rows s.base) s.log p key :=
    KeyedLog.exists_position_of_seen s.seen (ok.ordered key)
  exact ⟨p, unseen, (getElem?_replay _ _ _).trans same⟩

/-- **A transaction the reported snapshot counts as visible is one every reader sees.** -/
theorem Server.seen_of_reports {snap : Snapshot} {c : Committed} (reports : s.reports snap = true)
    (member : c ∈ s.log) (visible : snap.visible c.xid = true) : s.seen c = true := by
  simp only [Server.reports, Bool.and_eq_true, Bool.not_eq_true'] at reports
  obtain ⟨⟨read, all⟩, each⟩ := reports
  have here := List.all_eq_true.mp each c member
  rw [Bool.or_eq_true, Bool.and_eq_true, Bool.not_eq_true'] at here
  rcases here with seen | ⟨near, hidden⟩
  · exact seen
  · rw [Committed.xid, Snapshot.visible_eq_shows read all near, hidden] at visible
    cases visible

/-- A reader that sees the last of a key's changes sees them all. -/
theorem ServerOk.seenThrough (ok : ServerOk s) {d i : ℕ} {c : Committed}
    (latest : LatestOn s.history d key i c) (within : d ≤ s.log.length) (seen : s.seen c = true) :
    SeenThrough s.seen s.history key d := by
  obtain ⟨below, here, touches, quiet⟩ := latest
  refine ⟨within, fun j c' low found touches' => ?_⟩
  rcases Nat.lt_trichotomy j i with early | same | late
  · exact ok.ordered key j i c' c early found here touches' touches seen
  · subst same
    rw [here, Option.some.injEq] at found
    exact found ▸ seen
  · rw [quiet j c' late low found] at touches'
    cases touches'

end Server

end PgSprite.Live
