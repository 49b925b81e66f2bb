/-
**What the copier has put into the shadow.**

`Copied` says of every key, by the state the ledger gives it, what the shadow holds there: a landed
key is settled from the first change the catch-up still owes it; a key in flight is judged by where
its chunk's pass stands; an uncut key holds no row, once the clear above the watermark is done or
where no earlier run has left any. `g` is the position of the first change owed on each key.

* `Copied.frame` — what the other parts may do to the shadow, the log and `g`;
* `Copied.claim`, `.read`, `.commitPass`, `.land`, `.settle`, `.clear` — the copier's own steps.
-/

import PgSprite.Live.Steps

namespace PgSprite.Live

open Std PgSprite.Decode PgSprite.Source PgSprite.Lib PgSprite.Applier PgSprite.Copier

/-- What the shadow holds under a key in flight, by where its chunk's pass stands. -/
def Pass.KeyOk (f : Flusher) (seen : Committed → Bool) (h : History) (low : ℕ) (key : Key)
    (here : Option Row) : Pass → Prop
  | .idle => here = none
  | .reading rows => here = none ∧ HeldFrom seen h low key rows[key]?
  | .committed _ held => if key ∈ held then here = none else Settled f seen h low key here

/-- The pass has a row or a debt under the key. -/
def Pass.Names (key : Key) : Pass → Prop
  | .idle => False
  | .reading rows => rows[key]? ≠ none
  | .committed _ held => key ∈ held

/-- What the shadow holds under every key, by the state the ledger gives it. -/
structure Copied (f : Flusher) (seen : Committed → Bool) (h : History) (g : Key → ℕ)
    (pristine : Bool) (copy : Copy) (shadow : Table) : Prop where
  tiled : copy.ledger.Tiled
  idle : ∀ chunk, chunk ∉ copy.ledger.inFlight → copy.passes chunk = .idle
  /-- Nothing is claimed before the clear is done. -/
  uncleared : copy.cleared = false →
    copy.ledger.cut = copy.ledger.watermark ∧ copy.ledger.inFlight = []
  names : ∀ chunk key, (copy.passes chunk).Names key →
    chunk.covers key = true ∧ copy.ledger.state key = .inFlight
  landed : ∀ key, copy.ledger.state key = .landed → Settled f seen h (g key) key shadow[key]?
  uncut : ∀ key, copy.ledger.state key = .uncut → pristine = true ∨ copy.cleared = true →
    shadow[key]? = none
  flight : ∀ chunk ∈ copy.ledger.inFlight, ∀ key, chunk.covers key = true →
    copy.ledger.state key = .inFlight →
    (copy.passes chunk).KeyOk f seen h (g key) key shadow[key]?

section Copied

variable {f : Flusher} {seen seen' : Committed → Bool} {h h' : History} {g g' : Key → ℕ}
  {pristine : Bool} {copy : Copy} {shadow shadow' : Table} {key : Key} {chunk : Chunk}

theorem Pass.KeyOk.imp {low low' : ℕ} {here : Option Row} {pass : Pass}
    (ok : pass.KeyOk f seen h low key here)
    (held : ∀ x, HeldFrom seen h low key x → HeldFrom seen' h' low' key x) :
    pass.KeyOk f seen' h' low' key here := by
  cases pass with
  | idle => exact ok
  | reading rows => exact ⟨ok.1, held _ ok.2⟩
  | committed count owed =>
    rw [Pass.KeyOk] at ok ⊢
    split
    next member => rwa [if_pos member] at ok
    next apart =>
      rw [if_neg apart] at ok
      exact ok.imp held

variable {l : Ledger}

theorem state_of_unreached (unreached : l.cut.reaches key = false) : l.state key = .uncut := by
  rw [Ledger.state, Position.classify, show l.position.cut = l.cut from rfl,
    if_neg (by simp [unreached])]

theorem unreached_of_state (state : l.state key = .uncut) : l.cut.reaches key = false := by
  by_contra reached
  rw [Bool.not_eq_false] at reached
  rw [Ledger.state, Position.classify, show l.position.cut = l.cut from rfl, if_pos reached]
    at state
  split at state
  · cases state
  · rw [Position.classifyWithin] at state
    split at state
    · cases state
    · split at state <;> cases state

variable {ledger : Ledger}

theorem state_of_claim (claimed : l.claim chunk = some ledger) (covers : chunk.covers key = true) :
    l.state key = .uncut := by
  obtain ⟨atFrontier, -⟩ := Ledger.claim_eq claimed
  refine state_of_unreached (Bool.eq_false_iff.mpr fun reached => ?_)
  have below := Ledger.lt_of_startsAtFrontier atFrontier reached
  have low := (Chunk.covers_iff.mp covers).1
  grind

variable {rows : Table} {refused : List Key}

section Insert

variable {φ : Row → Row} {added : List (Key × Row)} {row : Row}

theorem foldl_insert_of_not_mem (outside : ∀ entry ∈ added, entry.1 ≠ key) :
    (added.foldl (fun shadow entry => shadow.insert entry.1 (φ entry.2)) shadow)[key]?
      = shadow[key]? := by
  induction added generalizing shadow with
  | nil => rfl
  | cons entry added ih =>
    have other := outside entry List.mem_cons_self
    rw [List.foldl_cons, ih fun entry member => outside entry (List.mem_cons_of_mem _ member),
      ExtTreeMap.getElem?_insert, if_neg (by simpa using other)]

/-- A row that is among those inserted, under distinct keys, is found. -/
theorem foldl_insert_of_mem (distinct : (added.map Prod.fst).Nodup) (member : (key, row) ∈ added) :
    (added.foldl (fun shadow entry => shadow.insert entry.1 (φ entry.2)) shadow)[key]?
      = some (φ row) := by
  induction added generalizing shadow with
  | nil => cases member
  | cons entry added ih =>
    rw [List.map_cons, List.nodup_cons] at distinct
    rw [List.foldl_cons]
    rcases List.mem_cons.mp member with same | deeper
    · subst same
      rw [foldl_insert_of_not_mem]
      · simp
      · exact fun entry inside equal => distinct.1 (List.mem_map.mpr ⟨entry, inside, equal⟩)
    · exact ih distinct.2 deeper

theorem mem_inserted :
    (key, row) ∈ State.inserted shadow rows refused ↔
      rows[key]? = some row ∧ shadow[key]? = none ∧ key ∉ refused := by
  rw [State.inserted, List.mem_filter, ExtTreeMap.mem_toList_iff_getElem?_eq_some, Bool.and_eq_true,
    Change.not_contains_iff]
  simp

theorem inserted_distinct : ((State.inserted shadow rows refused).map Prod.fst).Nodup := by
  refine (List.filter_sublist.map _).nodup ?_
  rw [ExtTreeMap.map_fst_toList_eq_keys]
  exact ExtTreeMap.nodup_keys

theorem foldl_inserted_frame (quiet : rows[key]? = none ∨ key ∈ refused) :
    ((State.inserted shadow rows refused).foldl
      (fun shadow entry => shadow.insert entry.1 (φ entry.2)) shadow)[key]? = shadow[key]? := by
  refine foldl_insert_of_not_mem ?_
  rintro ⟨k, row⟩ member rfl
  obtain ⟨there, -, wanted⟩ := mem_inserted.mp member
  rcases quiet with none | also
  · rw [there] at none
    cases none
  · exact wanted also

end Insert

theorem getElem?_foldl_erase_keys {removed : List Key} :
    (removed.foldl (fun (shadow : Table) key => shadow.erase key) shadow)[key]?
      = if key ∈ removed then none else shadow[key]? := by
  induction removed generalizing shadow with
  | nil => simp
  | cons first removed ih =>
    rw [List.foldl_cons, ih, ExtTreeMap.getElem?_erase]
    by_cases same : first = key
    · simp [same]
    · simp [same, Ne.symm same]

/-- The next run's copier finds every key at or below the row's watermark landed, and knows nothing
of the rest. -/
theorem copied_newLedger {w : Watermark}
    (landed : ∀ k, w.reaches k = true → Settled f seen h (g k) k shadow[k]?) :
    Copied f seen h g false { ledger := .newLedger w } shadow where
  tiled := Ledger.newLedger_tiled w
  idle _ _ := rfl
  uncleared _ := ⟨rfl, rfl⟩
  names _ _ named := absurd named id
  landed k state := by
    refine landed k ?_
    by_contra unreached
    replace state : (Ledger.newLedger w).state k = .landed := state
    rw [Ledger.state_newLedger, if_neg unreached] at state
    cases state
  uncut _ _ clear := by simp at clear
  flight _ member := (nomatch member)

theorem copied_fresh : Copied f seen h g true { ledger := .newLedger none } ∅ where
  tiled := Ledger.newLedger_tiled none
  idle _ _ := rfl
  uncleared _ := ⟨rfl, rfl⟩
  names _ _ named := absurd named id
  landed k state := by
    replace state : (Ledger.newLedger none).state k = .landed := state
    rw [Ledger.state_newLedger] at state
    cases state
  uncut _ _ _ := by simp
  flight _ member := (nomatch member)

variable (copied : Copied f seen h g pristine copy shadow)

include copied

/-- **What the other parts leave the copier**: landed keys stay settled, and under the rest the
shadow is left alone. -/
theorem Copied.frame
    (landed : ∀ k, copy.ledger.state k = .landed → Settled f seen h (g k) k shadow[k]? →
      Settled f seen' h' (g' k) k shadow'[k]?)
    (uncut : ∀ k, copy.ledger.state k = .uncut → shadow'[k]? = shadow[k]?)
    (flight : ∀ k, copy.ledger.state k = .inFlight → shadow'[k]? = shadow[k]? ∧
      ∀ x, HeldFrom seen h (g k) k x → HeldFrom seen' h' (g' k) k x) :
    Copied f seen' h' g' pristine copy shadow' where
  tiled := copied.tiled
  idle := copied.idle
  uncleared := copied.uncleared
  names := copied.names
  landed k state := landed k state (copied.landed k state)
  uncut k state clear := (uncut k state).trans (copied.uncut k state clear)
  flight c member k covers state := by
    obtain ⟨same, held⟩ := flight k state
    rw [same]
    exact (copied.flight c member k covers state).imp held

/-- A claim only moves keys from uncut to in flight. -/
theorem Copied.claim (cleared : copy.cleared = true)
    (claimed : copy.ledger.claim chunk = some ledger) :
    Copied f seen h g pristine { copy with ledger } shadow := by
  have state : ∀ k, ledger.state k = if chunk.covers k then .inFlight else copy.ledger.state k :=
    fun k => Ledger.state_claim copied.tiled claimed
  have tiled := Ledger.claim_tiled copied.tiled claimed
  have fresh : ∀ {k}, chunk.covers k = true → copy.ledger.state k = .uncut := fun covers =>
    state_of_claim claimed covers
  obtain ⟨-, rfl⟩ := Ledger.claim_eq claimed
  have new : chunk ∉ copy.ledger.inFlight := by
    intro member
    have own : chunk.covers chunk.lower = true := by simp [Chunk.covers_iff, chunk.ordered]
    have uncut := unreached_of_state (fresh own)
    rw [Ledger.reaches_of_le (copied.tiled.within chunk (List.mem_append_left _ member))
      chunk.ordered] at uncut
    cases uncut
  refine ⟨tiled, fun c outside => ?_, fun unclear => ?_, fun c k named => ?_, fun k landed => ?_,
    fun k uncut clear => ?_, fun c member k covers flight => ?_⟩
  · exact copied.idle c fun member => outside (List.mem_append_left _ member)
  · rw [cleared] at unclear
    cases unclear
  · obtain ⟨covers, flight⟩ := copied.names c k named
    refine ⟨covers, ?_⟩
    rw [state]
    split
    · rfl
    · exact flight
  · rw [state] at landed
    split at landed
    · cases landed
    · exact copied.landed k landed
  · rw [state] at uncut
    split at uncut
    · cases uncut
    · exact copied.uncut k uncut clear
  · rcases List.mem_append.mp member with old | own
    · by_cases also : chunk.covers k = true
      · have reached := Ledger.reaches_of_le
          (copied.tiled.within c (List.mem_append_left _ old)) (Chunk.covers_iff.mp covers).2
        rw [unreached_of_state (fresh also)] at reached
        cases reached
      · rw [state, if_neg also] at flight
        exact copied.flight c old k covers flight
    · obtain rfl := List.mem_singleton.mp own
      show (copy.passes c).KeyOk f seen h (g k) k shadow[k]?
      rw [copied.idle c new]
      exact copied.uncut k (fresh covers) (Or.inr cleared)

/-- A pass may change its own chunk's keys in flight, and nothing else. -/
theorem Copied.setPass {pass : Pass} (member : chunk ∈ copy.ledger.inFlight)
    (names : ∀ k, pass.Names k → chunk.covers k = true ∧ copy.ledger.state k = .inFlight)
    (outside : ∀ k, ¬ (chunk.covers k = true ∧ copy.ledger.state k = .inFlight) →
      shadow'[k]? = shadow[k]?)
    (own : ∀ k, chunk.covers k = true → copy.ledger.state k = .inFlight →
      pass.KeyOk f seen h (g k) k shadow'[k]?) :
    Copied f seen h g pristine { copy with passes := Function.update copy.passes chunk pass }
      shadow' := by
  have apart := (List.pairwise_append.mp copied.tiled.apart).1
  refine ⟨copied.tiled, fun c outside => ?_, copied.uncleared, fun c k named => ?_,
    fun k landed => ?_, fun k uncut clear => ?_, fun c inside k covers flight => ?_⟩
  · have other : c ≠ chunk := fun same => outside (same ▸ member)
    show Function.update copy.passes chunk pass c = .idle
    rw [Function.update_of_ne other]
    exact copied.idle c outside
  · replace named : (Function.update copy.passes chunk pass c).Names k := named
    by_cases same : c = chunk
    · subst same
      rw [Function.update_self] at named
      exact names k named
    · rw [Function.update_of_ne same] at named
      exact copied.names c k named
  · rw [outside k fun ⟨_, flight⟩ => by rw [flight] at landed; cases landed]
    exact copied.landed k landed
  · rw [outside k fun ⟨_, flight⟩ => by rw [flight] at uncut; cases uncut]
    exact copied.uncut k uncut clear
  · show (Function.update copy.passes chunk pass c).KeyOk f seen h (g k) k shadow'[k]?
    by_cases same : c = chunk
    · subst same
      rw [Function.update_self]
      exact own k covers flight
    · rw [Function.update_of_ne same, outside k fun ⟨also, _⟩ => ?_]
      · exact copied.flight c inside k covers flight
      · rw [(apart.forall inside member same).not_covers covers] at also
        cases also

theorem Copied.owes_iff (member : chunk ∈ copy.ledger.inFlight) :
    copy.owes chunk key = true ↔ chunk.covers key = true ∧ copy.ledger.state key = .inFlight := by
  rw [Copy.owes, Bool.and_eq_true]
  refine and_congr_right fun covers => ?_
  rw [Ledger.state_of_covers copied.tiled member covers]
  cases copy.ledger.partials.lookup chunk with
  | none => simp [Ledger.stateWithin]
  | some part =>
    show part.pending.contains key = true ↔
      (if part.pending.contains key = true then KeyState.inFlight else .landed) = .inFlight
    split <;> simp_all

theorem Copied.mem_inFlight (busy : copy.passes chunk ≠ .idle) : chunk ∈ copy.ledger.inFlight := by
  by_contra outside
  exact busy (copied.idle chunk outside)

omit copied in
/-- **A pass reads each key it owes at a position from the first change owed on.** -/
theorem Copied.read {server : Server}
    (copied : Copied f server.seen server.history g pristine copy shadow) (ok : ServerOk server)
    (through : ∀ k, SeenThrough server.seen server.history k (g k))
    (idle : copy.passes chunk = .idle) (member : chunk ∈ copy.ledger.inFlight) :
    Copied f server.seen server.history g pristine
      { copy with
        passes := Function.update copy.passes chunk
          (.reading (server.shown.filter fun key _ => copy.owes chunk key)) } shadow := by
  have found : ∀ k, (server.shown.filter fun key _ => copy.owes chunk key)[k]?
      = if copy.owes chunk k then server.shown[k]? else none := by
    intro k
    rw [ExtTreeMap.getElem?_filter']
    cases server.shown[k]? <;> cases copy.owes chunk k <;> simp
  refine copied.setPass member (fun k named => ?_) (fun _ _ => rfl) fun k covers flight => ?_
  · refine (copied.owes_iff member).mp ?_
    by_contra owes
    rw [Pass.Names, found, if_neg owes] at named
    exact named rfl
  · have before := copied.flight chunk member k covers flight
    rw [idle] at before
    refine ⟨before, ?_⟩
    rw [found, if_pos ((copied.owes_iff member).mpr ⟨covers, flight⟩)]
    obtain ⟨p, unseen, same⟩ := ok.exists_position k
    refine ⟨p, ?_, ⟨unseen.within, unseen.below⟩, same.symm⟩
    exact unseen.le_of_seen (through k).within (through k).below

/-- An aborted pass leaves its chunk as it was. -/
theorem Copied.abort (reading : copy.passes chunk = .reading rows) :
    Copied f seen h g pristine { copy with passes := Function.update copy.passes chunk .idle }
      shadow := by
  have member : chunk ∈ copy.ledger.inFlight := copied.mem_inFlight (by simp [reading])
  refine copied.setPass member (fun k named => absurd named id) (fun _ _ => rfl)
    fun k covers flight => ?_
  have before := copied.flight chunk member k covers flight
  rw [reading] at before
  exact before.1

/-! #### A pass commits -/

variable {count : Int64}

/-- **A pass's commit settles every key it does not hold off.** -/
theorem Copied.commitPass (reading : copy.passes chunk = .reading rows) :
    Copied f seen h g pristine
      { copy with
        passes := Function.update copy.passes chunk (.committed count
          (rows.keys.filter fun key => !shadow.contains key && refused.contains key)) }
      ((State.inserted shadow rows refused).foldl (fun shadow entry =>
        shadow.insert entry.1 (f.convertedRow entry.2)) shadow) := by
  have member : chunk ∈ copy.ledger.inFlight := copied.mem_inFlight (by simp [reading])
  have named : ∀ k, rows[k]? ≠ none → chunk.covers k = true ∧ copy.ledger.state k = .inFlight := by
    intro k there
    exact copied.names chunk k (by rw [reading]; exact there)
  have listed : ∀ k,
      k ∈ (rows.keys.filter fun key => !shadow.contains key && refused.contains key) ↔
      rows[k]? ≠ none ∧ shadow[k]? = none ∧ k ∈ refused := by
    intro k
    rw [List.mem_filter, ExtTreeMap.mem_keys, Bool.and_eq_true, Change.not_contains_iff,
      List.contains_iff_mem, ← ExtTreeMap.isSome_getElem?_iff_mem, Option.isSome_iff_ne_none]
  refine copied.setPass member (fun k owed => ?_) (fun k outside => ?_) fun k covers flight => ?_
  · exact named k ((listed k).mp owed).1
  · refine foldl_inserted_frame (Or.inl ?_)
    by_contra there
    exact outside (named k there)
  · have before := copied.flight chunk member k covers flight
    rw [reading] at before
    obtain ⟨empty, held⟩ := before
    rw [Pass.KeyOk]
    split
    next owed =>
      rw [foldl_inserted_frame (Or.inr ((listed k).mp owed).2.2)]
      exact empty
    next apart =>
      cases there : rows[k]? with
      | none =>
        rw [foldl_inserted_frame (Or.inl there), empty]
        rw [there] at held
        exact held
      | some row =>
        have wanted : k ∉ refused := fun also =>
          apart ((listed k).mpr ⟨by simp [there], empty, also⟩)
        rw [foldl_insert_of_mem inserted_distinct (mem_inserted.mpr ⟨there, empty, wanted⟩)]
        rw [there] at held
        exact ⟨⟨row, held⟩, fun name _ => ⟨row, held, rfl⟩⟩

/-! #### The ledger takes a pass in -/

/-- Recording a pass lands the keys of its chunk, those it found held apart: the chunk goes idle,
and every other chunk is as it was. -/
theorem Copied.recordPass {held : List Key} (committed : copy.passes chunk = .committed count held)
    (tiled : ledger.Tiled)
    (inFlight : ∀ c, c ≠ chunk → (c ∈ ledger.inFlight ↔ c ∈ copy.ledger.inFlight))
    (state : ∀ k, ledger.state k =
      if chunk.covers k then (if held.contains k then .inFlight else .landed)
      else copy.ledger.state k) :
    Copied f seen h g pristine
      { copy with ledger, passes := Function.update copy.passes chunk .idle } shadow := by
  have member : chunk ∈ copy.ledger.inFlight := copied.mem_inFlight (by simp [committed])
  have apart := (List.pairwise_append.mp copied.tiled.apart).1
  have cleared : copy.cleared = true := by
    by_contra unclear
    rw [Bool.not_eq_true] at unclear
    rw [(copied.uncleared unclear).2] at member
    cases member
  have other : ∀ {c k}, c ≠ chunk → c ∈ copy.ledger.inFlight → c.covers k = true →
      chunk.covers k = false := fun different inside covers =>
    (apart.forall inside member different).not_covers covers
  refine ⟨tiled, fun c outside => ?_, fun unclear => ?_, fun c k named => ?_, fun k landed => ?_,
    fun k uncut _ => ?_, fun c inside k covers flight => ?_⟩
  · show Function.update copy.passes chunk .idle c = .idle
    by_cases same : c = chunk
    · rw [same, Function.update_self]
    · rw [Function.update_of_ne same]
      exact copied.idle c fun inside => outside ((inFlight c same).mpr inside)
  · rw [show copy.cleared = false from unclear] at cleared
    cases cleared
  · replace named : (Function.update copy.passes chunk .idle c).Names k := named
    by_cases same : c = chunk
    · rw [same, Function.update_self] at named
      exact absurd named id
    · rw [Function.update_of_ne same] at named
      obtain ⟨covers, flight⟩ := copied.names c k named
      refine ⟨covers, ?_⟩
      have busy : copy.passes c ≠ .idle := fun idle => by
        rw [idle] at named
        exact named
      rw [state, other same (copied.mem_inFlight busy) covers]
      exact flight
  · rw [state] at landed
    by_cases covers : chunk.covers k = true
    · rw [if_pos covers] at landed
      cases before : copy.ledger.state k with
      | landed => exact copied.landed k before
      | uncut =>
        have reached := Ledger.reaches_of_le
          (copied.tiled.within chunk (List.mem_append_left _ member)) (Chunk.covers_iff.mp covers).2
        rw [unreached_of_state before] at reached
        cases reached
      | inFlight =>
        have settled := copied.flight chunk member k covers before
        rw [committed, Pass.KeyOk, if_neg] at settled
        · exact settled
        · intro owed
          rw [if_pos (List.contains_iff_mem.mpr owed)] at landed
          cases landed
    · rw [if_neg covers] at landed
      exact copied.landed k landed
  · rw [state] at uncut
    split at uncut
    · split at uncut <;> cases uncut
    · exact copied.uncut k uncut (Or.inr cleared)
  · show (Function.update copy.passes chunk .idle c).KeyOk f seen h (g k) k shadow[k]?
    by_cases same : c = chunk
    · subst same
      rw [Function.update_self]
      rw [state, if_pos covers] at flight
      split at flight
      next owed =>
        rw [List.contains_iff_mem] at owed
        obtain ⟨-, before⟩ := copied.names c k (by rw [committed]; exact owed)
        have empty := copied.flight c member k covers before
        rw [committed, Pass.KeyOk, if_pos owed] at empty
        exact empty
      next => cases flight
    · have inside' := (inFlight c same).mp inside
      rw [Function.update_of_ne same]
      rw [state, other same inside' covers] at flight
      exact copied.flight c inside' k covers flight

/-- A landed chunk has every key copied. -/
theorem Copied.land {rows : Int64} (committed : copy.passes chunk = .committed count [])
    (lands : copy.ledger.land chunk rows = some ledger) :
    Copied f seen h g pristine
      { copy with ledger, passes := Function.update copy.passes chunk .idle } shadow := by
  refine copied.recordPass committed (Ledger.land_tiled copied.tiled lands) (fun c other => ?_)
    fun k => Ledger.state_land copied.tiled lands
  obtain ⟨-, rfl⟩ := Ledger.land_eq lands
  rw [(Ledger.advance_frame _).2.1]
  exact List.mem_erase_of_ne other

/-- A settled chunk owes what it held. -/
theorem Copied.settle {rows : Int64} {held : List Key}
    (committed : copy.passes chunk = .committed count held)
    (settles : copy.ledger.settle chunk rows held = some ledger) :
    Copied f seen h g pristine
      { copy with ledger, passes := Function.update copy.passes chunk .idle } shadow := by
  refine copied.recordPass committed (Ledger.settle_tiled copied.tiled settles) (fun c _ => ?_)
    fun k => Ledger.state_settle copied.tiled settles
  obtain ⟨-, -, rfl⟩ := Ledger.settle_eq settles
  rfl

/-! #### The clear above the watermark -/

theorem Copied.state_uncleared (unclear : copy.cleared = false) (key : Key) :
    copy.ledger.state key = if copy.ledger.watermark.reaches key then .landed else .uncut := by
  obtain ⟨cut, none⟩ := copied.uncleared unclear
  rw [← cut]
  refine Ledger.state_of_not_covers fun c member => ?_
  rw [none] at member
  cases member

theorem Copied.clearNothing (unclear : copy.cleared = false)
    (full : (startAfter copy.ledger.watermark).2 = true) :
    Copied f seen h g pristine { copy with cleared := true } shadow := by
  refine { copied with uncleared := fun impossible => (nomatch impossible), uncut := ?_ }
  intro k uncut
  replace uncut : copy.ledger.state k = .uncut := uncut
  rw [copied.state_uncleared unclear, reaches_of_complete full] at uncut
  cases uncut

/-- **A clear batch removes rows under uncut keys only**, and the last one leaves none. -/
theorem Copied.clear {limit : ℕ} {lower : Key} {removed : List Key} (unclear : copy.cleared = false)
    (start : startAfter copy.ledger.watermark = (lower, false))
    (batch : removed = (shadow.keys.filter fun key => decide (lower ≤ key)).take limit) :
    Copied f seen h g pristine { copy with cleared := decide (removed.length < limit) }
      (removed.foldl (fun shadow key => shadow.erase key) shadow) := by
  have state := copied.state_uncleared unclear
  have above : ∀ k ∈ removed, lower ≤ k := by
    intro k member
    rw [batch] at member
    simpa using (List.mem_filter.mp (List.mem_of_mem_take member)).2
  refine ⟨copied.tiled, copied.idle, fun _ => copied.uncleared unclear, copied.names,
    fun k landed => ?_, fun k uncut clear => ?_, fun c member => ?_⟩
  · rw [getElem?_foldl_erase_keys, if_neg]
    · exact copied.landed k landed
    · intro member
      replace landed : copy.ledger.state k = .landed := landed
      rw [state, (unreached_iff start).mpr (above k member)] at landed
      cases landed
  · rw [getElem?_foldl_erase_keys]
    split
    · rfl
    next kept =>
      rcases clear with fresh | done
      · exact copied.uncut k uncut (Or.inl fresh)
      · -- a short batch was the whole rest
        replace uncut : copy.ledger.state k = .uncut := uncut
        have high : lower ≤ k := by
          refine (unreached_iff start).mp (Bool.eq_false_iff.mpr fun reached => ?_)
          rw [state, if_pos reached] at uncut
          cases uncut
        by_contra there
        refine kept ?_
        have short : removed.length < limit := by simpa using done
        rw [batch, List.length_take] at short
        rw [batch, List.take_of_length_le (by omega), List.mem_filter, ExtTreeMap.mem_keys,
          ← ExtTreeMap.isSome_getElem?_iff_mem, Option.isSome_iff_ne_none]
        exact ⟨there, by simpa using high⟩
  · replace member : c ∈ copy.ledger.inFlight := member
    rw [(copied.uncleared unclear).2] at member
    cases member

/-- A row the shadow holds under a key is settled, unless the key is uncut. -/
theorem Copied.settled_of_row {row : Row} (there : shadow[key]? = some row)
    (cut : copy.ledger.state key ≠ .uncut) : Settled f seen h (g key) key (some row) := by
  cases state : copy.ledger.state key with
  | uncut => exact absurd state cut
  | landed => exact there ▸ copied.landed key state
  | inFlight =>
    obtain ⟨c, member, covers⟩ : ∃ c ∈ copy.ledger.inFlight, c.covers key = true := by
      by_contra none
      have outside : ∀ c ∈ copy.ledger.inFlight, c.covers key = false := fun c member =>
        Bool.eq_false_iff.mpr fun covers => none ⟨c, member, covers⟩
      rw [Ledger.state_of_not_covers outside] at state
      split at state <;> cases state
    have ok := copied.flight c member key covers state
    rw [there] at ok
    cases pass : copy.passes c with
    | idle =>
      rw [pass] at ok
      cases ok
    | reading rows =>
      rw [pass] at ok
      cases ok.1
    | committed count held =>
      rw [pass, Pass.KeyOk] at ok
      split at ok
      · cases ok
      · exact ok

end Copied

end PgSprite.Live
