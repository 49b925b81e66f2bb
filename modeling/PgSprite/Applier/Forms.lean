/-
**The form of every value the applier carries.**

A converted column's values come in two forms: the source's, as its rows and the stream's events
hold them, and the shadow's, which the column's expression makes of them. `Forms` is any pair of
properties that tells them apart, as long as the expression takes the one to the other; nothing the
applier does looks at a value, so what is proved for every such pair says where each value came
from.

* `Buffer.Holds` — a property of columns that every operation of the buffer keeps;
* `Forms.flushed` — a flush leaves values of the shadow's form in the converted columns;
* `Forms.rowStatements_carry` — what its statements bind has the form it is bound as.
-/

import PgSprite.Applier.Statements

namespace PgSprite.Applier

open Std PgSprite.Decode PgSprite.Source PgSprite.Lib PgSprite.Copier

/-! ### The columns the buffer holds -/

section Merge

variable {columns more : List Column} {c d : Column} {name : Name} {v : Value}

theorem exists_of_valueOf (found : valueOf columns name = some v) :
    ∃ c ∈ columns, c.name = name ∧ c.value = some v := by
  unfold valueOf at found
  obtain ⟨c, first, value⟩ := Option.bind_eq_some_iff.mp found
  have same := List.find?_some first
  exact ⟨c, List.mem_of_find?_eq_some first, by simpa using same, value⟩

theorem mem_overlayOne (member : d ∈ overlayOne columns c) : d ∈ columns ∨ d = c := by
  unfold overlayOne at member
  split at member
  · split at member
    · exact List.mem_or_eq_of_mem_set member
    · simpa using member
  · exact Or.inl member

theorem mem_fillOne (member : d ∈ fillOne columns c) : d ∈ columns ∨ d = c := by
  unfold fillOne at member
  split at member
  · split at member
    · split at member
      · exact Or.inl member
      · exact List.mem_or_eq_of_mem_set member
    · simpa using member
  · exact Or.inl member

theorem mem_foldl_merge {merge : List Column → Column → List Column}
    (one : ∀ columns c d, d ∈ merge columns c → d ∈ columns ∨ d = c)
    (member : d ∈ more.foldl merge columns) : d ∈ columns ∨ d ∈ more := by
  induction more generalizing columns with
  | nil => exact Or.inl member
  | cons c more ih =>
    rcases ih member with before | later
    · rcases one columns c d before with kept | rfl
      · exact Or.inl kept
      · exact Or.inr List.mem_cons_self
    · exact Or.inr (List.mem_cons_of_mem _ later)

theorem mem_overlay (member : d ∈ overlay columns more) : d ∈ columns ∨ d ∈ more :=
  mem_foldl_merge (fun _ _ _ => mem_overlayOne) member

theorem mem_fill (member : d ∈ fill columns more) : d ∈ columns ∨ d ∈ more :=
  mem_foldl_merge (fun _ _ _ => mem_fillOne) member

/-- An overlay in place has only columns of the two images. -/
theorem mem_overlayShared (member : d ∈ overlayShared columns more) : d ∈ columns ∨ d ∈ more := by
  induction more generalizing columns with
  | nil => exact Or.inl member
  | cons c more ih =>
    unfold overlayShared at member
    split at member
    · split at member
      · rcases ih member with before | later
        · rcases List.mem_or_eq_of_mem_set before with kept | rfl
          · exact Or.inl kept
          · exact Or.inr List.mem_cons_self
        · exact Or.inr (List.mem_cons_of_mem _ later)
      · exact Or.inl member
    · rcases ih member with before | later
      · exact Or.inl before
      · exact Or.inr (List.mem_cons_of_mem _ later)

end Merge

/-- Every column of the list has the property. -/
def Each (p : Column → Prop) (columns : List Column) : Prop := ∀ c ∈ columns, p c

namespace Buffer

/-- Every column the buffer holds, in an entry or in a pending completion, has the property. -/
structure Holds (p : Column → Prop) (b : Buffer) : Prop where
  entries : ∀ (key : Key) (e : Entry), b.entries[key]? = some e → Each p e.columns
  pending : ∀ (key : Key) (q : PendingCompletion), b.pending[key]? = some q → Each p q.completed

section Holds

variable {p : Column → Prop} {b b' : Buffer} {key : Key} {e : Entry} {ev : ChangeEvent}

theorem holds_new : Holds p .new :=
  ⟨fun key e stored => by simp [new] at stored, fun key q waiting => by simp [new] at waiting⟩

variable (holds : Holds p b)

include holds

theorem Holds.put (each : Each p e.columns) : Holds p (b.put e) := by
  refine ⟨fun key e' stored => ?_, fun key q waiting => ?_⟩
  · rw [entries_put] at stored
    split at stored
    · cases stored
      exact each
    · exact holds.entries key e' stored
  · rw [pending_put] at waiting
    split at waiting
    · cases waiting
    · exact holds.pending key q waiting

/-- Flagging images leaves their columns. -/
theorem Holds.mark (key : Key) (mover : Option Key) : Holds p (b.markOldKeyReused key mover) := by
  refine ⟨fun k e stored => ?_, fun k q waiting => ?_⟩
  · rw [entries_markOldKeyReused] at stored
    obtain ⟨before, was, rfl⟩ := Option.map_eq_some_iff.mp stored
    split
    · exact holds.entries k before was
    · exact holds.entries k before was
  · rw [pending_markOldKeyReused] at waiting
    split at waiting
    · cases waiting
    · exact holds.pending k q waiting

theorem Holds.movedImage (each : Each p ev.columns) (oldKey : Key) :
    Each p (movedImage ev oldKey b.entries[ev.key]? b.entries[oldKey]?).columns := by
  unfold Buffer.movedImage
  cases stored : b.entries[oldKey]? with
  | none => exact each
  | some e =>
    have merged : Each p (overlay e.columns ev.columns) := fun c member =>
      (mem_overlay member).elim (holds.entries oldKey e stored c) (each c)
    dsimp only
    split <;> exact merged

/-- **An event brings in no column but its own.** -/
theorem Holds.add (each : Each p ev.columns) (added : b.add ev = .ok b') : Holds p b' := by
  have empty : Each p [] := fun c member => (nomatch member)
  cases adds_of_add added with
  | insert | start => exact (holds.mark _ _).put each
  | overlay =>
    refine ⟨fun key e overlaid => ?_, holds.pending⟩
    rw [entries_modify] at overlaid
    split at overlaid
    · obtain ⟨before, was, rfl⟩ := Option.map_eq_some_iff.mp overlaid
      exact fun c member => (mem_overlay member).elim (holds.entries key before was c) (each c)
    · exact holds.entries key e overlaid
  | move => exact ((holds.mark _ _).put (holds.movedImage each _)).put empty
  | delete => exact holds.put empty

theorem Holds.release (passed : LSN) : Holds p (b.release passed) := by
  refine ⟨fun key e stored => ?_, fun key q waiting => ?_⟩
  · rcases entries_release_eq_some.mp stored with ⟨kept, -⟩ | ⟨q, before, waiting, -, was, rfl⟩
    · exact holds.entries key e kept
    · exact fun c member =>
        (mem_fill member).elim (holds.entries key before was c) (holds.pending key q waiting c)
  · exact holds.pending key q (pending_release_eq_some.mp waiting).1

theorem Holds.drain (pos : Position) (snap : Snapshot) :
    Holds p (b.drain pos snap).1 ∧ ∀ e ∈ (b.drain pos snap).2.entries, Each p e.columns := by
  refine ⟨⟨fun key e stored => ?_, fun key q waiting => ?_⟩, fun e member => ?_⟩
  · rw [entries_drain] at stored
    split at stored
    · cases stored
    · exact holds.entries key e stored
  · rw [pending_drain] at waiting
    exact holds.pending key q waiting
  · exact holds.entries e.key e (mem_drain.mp member).1

theorem Holds.foldl_put {entries : List Entry} (each : ∀ e ∈ entries, Each p e.columns) :
    Holds p (entries.foldl Buffer.put b) := by
  induction entries generalizing b with
  | nil => exact holds
  | cons e entries ih =>
    exact ih (holds.put (each e List.mem_cons_self)) fun e' member =>
      each e' (List.mem_cons_of_mem _ member)

/-- Holding images whose columns meet a property keeps it of every column held. -/
theorem Holds.foldl_holdOne {held : List HeldImage}
    (each : ∀ h ∈ held, Each p h.entry.columns ∧ Each p h.completion.completed) :
    Holds p (held.foldl holdOne b) := by
  induction held generalizing b with
  | nil => exact holds
  | cons h held ih =>
    obtain ⟨entry, completion⟩ := each h List.mem_cons_self
    have stored := holds.put entry
    refine ih ⟨stored.entries, fun key q waiting => ?_⟩ fun h' member =>
      each h' (List.mem_cons_of_mem _ member)
    unfold holdOne at waiting
    rw [pending_setPending] at waiting
    split at waiting
    · cases waiting
      exact completion
    · exact stored.pending key q waiting

end Holds

end Buffer

/-! ### The two forms of a converted column's values -/

/-- Two forms that the flush's expressions lead from one to the other. -/
structure Forms (f : Flusher) where
  source : Name → Text → Prop
  shadow : Name → Text → Prop
  converts : ∀ name convert text, f.conversions name = some convert → source name text →
    shadow name (convert text)

namespace Forms

variable {f : Flusher} (forms : Forms f)

/-- The form a value is carried in: the shadow's where it is marked so, the source's otherwise. -/
def OfValue (name : Name) : Value → Prop
  | .text text => forms.source name text
  | .shadowForm text => forms.shadow name text

/-- The value of a converted column has the form it is carried in. -/
def Carries (c : Column) : Prop :=
  ∀ v, c.value = some v → (f.conversions c.name).isSome = true → forms.OfValue c.name v

/-- The source's rows hold the source's form in the converted columns. -/
def SourceRow (row : Row) : Prop :=
  ∀ name, (f.conversions name).isSome = true → forms.source name (row name)

/-- The shadow's rows hold the shadow's form in the converted columns. -/
def ShadowRow (row : Row) : Prop :=
  ∀ name ∈ f.columns, (f.conversions name).isSome = true → forms.shadow name (row name)

def SourceTable (table : Table) : Prop :=
  ∀ (key : Key) (row : Row), table[key]? = some row → forms.SourceRow row

def ShadowTable (table : Table) : Prop :=
  ∀ (key : Key) (row : Row), table[key]? = some row → forms.ShadowRow row

section Flush

variable {forms} {name : Name} {v : Value} {row : Row} {columns : List Column} {e w : Entry}
  {entries : List Entry} {before after : Table} {reads : Reads} {batch : Batch} {h : HeldImage}

/-- **What is written has the shadow's form**, converted once or already so. -/
theorem written (carried : forms.OfValue name v) (conversion : (f.conversions name).isSome = true) :
    forms.shadow name (f.written name v) := by
  obtain ⟨convert, declared⟩ := Option.isSome_iff_exists.mp conversion
  cases v with
  | text text =>
    unfold Flusher.written
    rw [declared]
    exact forms.converts name convert text declared carried
  | shadowForm text =>
    rw [Flusher.written_shadowForm]
    exact carried

theorem convertedRow (source : forms.SourceRow row) : forms.ShadowRow (f.convertedRow row) := by
  intro name _ conversion
  obtain ⟨convert, declared⟩ := Option.isSome_iff_exists.mp conversion
  unfold Flusher.convertedRow Flusher.converted
  rw [declared]
  exact forms.converts name convert (row name) declared (source name conversion)

theorem ofValue_of_valueOf (each : Each forms.Carries columns)
    (found : valueOf columns name = some v) (conversion : (f.conversions name).isSome = true) :
    forms.OfValue name v := by
  obtain ⟨c, member, rfl, value⟩ := exists_of_valueOf found
  exact each c member v value conversion

/-- **A flush leaves rows of the shadow's form.** -/
theorem flushed (table : forms.ShadowTable before)
    (each : ∀ e ∈ entries, Each forms.Carries e.columns)
    (done : Flusher.Flushed f before after entries) : forms.ShadowTable after := by
  intro key row there name copied conversion
  by_cases touched : ∃ e ∈ entries, e.key = key
  · obtain ⟨e, member, rfl⟩ := touched
    cases kind : e.kind with
    | deleteMarker =>
      rw [done.deleted e member kind] at there
      cases there
    | image =>
      obtain ⟨row', here, wrote⟩ := done.written e member kind
      rw [here, Option.some.injEq] at there
      subst there
      cases value : valueOf e.columns name with
      | some v =>
        rw [(wrote name copied).1 v value]
        exact written (ofValue_of_valueOf (each e member) value conversion) conversion
      | none =>
        obtain ⟨old, held, same⟩ := (wrote name copied).2 value
        rw [same]
        exact table e.key old held name copied conversion
  · rw [done.frame key fun e member same => touched ⟨e, member, same⟩] at there
    exact table key row there name copied conversion

theorem each_inShadowForm (columns : List Column) (shadow : forms.ShadowRow row) :
    Each forms.Carries (inShadowForm ((f.split columns).2.map fun name =>
      Column.presentColumn name (.text (row name)))) := by
  intro c member v value conversion
  unfold inShadowForm at member
  rw [List.map_map, List.mem_map] at member
  obtain ⟨name, listed, rfl⟩ := member
  obtain rfl : Value.shadowForm (row name) = v := Option.some.inj value
  exact shadow name (Flusher.mem_markers.mp listed).1 conversion

theorem mem_toWrite_columns (each : ∀ e ∈ batch.entries, Each forms.Carries e.columns)
    (member : w ∈ f.toWrite reads batch) : Each forms.Carries w.columns := by
  rcases Flusher.mem_toWrite.mp member with ⟨inside, -, -⟩ | ⟨e, -, -, -, rfl⟩
  · exact each w inside
  · exact fun c listed => (nomatch listed)

/-- What is held back carries source and shadow texts each in its form. -/
theorem held (shadow : forms.ShadowTable reads.shadow) (source : forms.SourceTable reads.source)
    (each : ∀ e ∈ batch.entries, Each forms.Carries e.columns) (member : h ∈ f.toHold reads batch) :
    Each forms.Carries h.entry.columns ∧ Each forms.Carries h.completion.completed := by
  rcases Flusher.mem_toHold.mp member with ⟨e, inside, -, read⟩ | ⟨e, inside, -, -, rfl⟩
  · refine ⟨Flusher.completeOne_entry read ▸ each e inside, ?_⟩
    unfold Flusher.completeOne at read
    dsimp only at read
    split at read
    next completed found =>
      -- the old key's shadow row
      cases read
      obtain ⟨row, there, rfl⟩ := Option.map_eq_some_iff.mp found
      have listed : ∃ key : Key, reads.shadow[key]? = some row := by
        split at there
        · cases there
        · obtain ⟨old, -, there⟩ := Option.bind_eq_some_iff.mp there
          exact ⟨old, there⟩
      obtain ⟨key, there⟩ := listed
      exact each_inShadowForm e.columns (shadow key row there)
    next =>
      obtain ⟨completed, found, rfl⟩ := Option.map_eq_some_iff.mp read
      obtain ⟨row, there, rfl⟩ := Option.map_eq_some_iff.mp found
      intro c listed v value conversion
      obtain ⟨name, -, rfl⟩ := List.mem_map.mp listed
      obtain rfl : Value.text (row name) = v := Option.some.inj value
      exact source e.key row there name conversion
  · exact ⟨each e inside, fun c listed => (nomatch listed)⟩

/-- A completed row carries each text in its form. -/
theorem completeWhole (shadow : forms.ShadowTable before) (each : Each forms.Carries e.columns)
    (completed : f.completeWhole before e = .ok w) : Each forms.Carries w.columns := by
  unfold Flusher.completeWhole at completed
  split at completed
  · cases held : before[e.key]? with
    | none => simp [held, Flusher.completeFrom] at completed
    | some row =>
      simp only [held, Flusher.completeFrom, Option.map_some, Except.ok.injEq] at completed
      subst completed
      have read := each_inShadowForm e.columns (shadow e.key row held)
      exact fun c member => (mem_overlay member).elim (each c) (read c)
  · cases completed
    exact each

theorem entryLeft (shadow : forms.ShadowTable reads.shadow) (each : Each forms.Carries e.columns) :
    Each forms.Carries (f.entryLeft reads e).columns := by
  unfold Flusher.entryLeft
  split
  · exact each
  · unfold Flusher.completeShared
    split
    · cases held : reads.shadow[e.key]? with
      | none => exact each
      | some row =>
        have read := each_inShadowForm e.columns (shadow e.key row held)
        exact fun c member => (mem_overlayShared member).elim (each c) (read c)
    · exact each

/-- **Every column a statement lists carries a value, in the form it is marked as.** -/
theorem rowStatements_carry {st : RowStatement} (shadow : forms.ShadowTable reads.shadow)
    (each : ∀ e ∈ batch.entries, Each forms.Carries e.columns)
    (sent : st ∈ f.rowStatements reads batch) {c : Column} (listed : c ∈ st.columns) :
    ∃ v, c.value = some v ∧ ((f.conversions c.name).isSome = true → forms.OfValue c.name v) := by
  have split : ∀ columns, Each forms.Carries columns → c ∈ (f.split columns).1 →
      ∃ v, c.value = some v ∧ ((f.conversions c.name).isSome = true → forms.OfValue c.name v) := by
    intro columns carries member
    obtain ⟨-, v, value, found⟩ := f.mem_split member
    exact ⟨v, value, ofValue_of_valueOf carries found⟩
  unfold Flusher.rowStatements at sent
  dsimp only at sent
  rcases List.mem_append.mp sent with columnWise | whole
  · obtain ⟨e, member, rfl⟩ := List.mem_map.mp columnWise
    exact split e.columns (mem_toWrite_columns each (List.mem_filter.mp member).1) listed
  · split at whole
    · cases whole
    next completed mapped =>
      obtain ⟨w, member, rfl⟩ := List.mem_map.mp whole
      obtain ⟨e, inside, done⟩ := forall₂_exists (mapM_ok mapped).flip (List.mem_filter.mp member).1
      exact split w.columns (completeWhole shadow (mem_toWrite_columns each inside) done) listed

end Flush

end Forms

end PgSprite.Applier
