/-
**Grant synchronisation reaches the source's privileges.**

The shadow is born with default privileges, so its access list is moved to the source's, entry by
entry: what the source lacks is revoked, a grant option it lacks is revoked on its own, and what it
has is granted.

An access list is what each grantee holds of each privilege: nothing, the privilege, or the
privilege with the grant option. The server is sent texts, and what it makes of the three forms is
an assumption on these (`Grantor`).

* `aclStatements_grants` — every statement takes something away, or grants an entry of the source;
* `reconcileACL_reaches` — the statements turn one list into the other, leave alone the entries that
  agree, and grant at no step what the source does not.
-/

import PgSprite.Applier.Statements

namespace PgSprite.SchemaChange

open PgSprite.Lib
open PgSprite.Applier (sanitize)

/-- One effective access list entry. The role's name is empty for PUBLIC. -/
structure Grant where
  privilege : String
  grantee : String
  isPublic : Bool
  grantable : Bool
  nameless : isPublic = true → grantee = ""
  deriving DecidableEq

/-- Who holds what: two entries of one grantee and privilege differ at most in their grant
option. -/
structure Grantee where
  privilege : String
  role : String
  isPublic : Bool
  deriving DecidableEq

def granteeOf (g : Grant) : Grantee := ⟨g.privilege, g.grantee, g.isPublic⟩

/-- An access list as the catalog reads it: one entry for each privilege and grantee. -/
structure AccessList where
  grants : List Grant
  distinct : (grants.map granteeOf).Nodup

/-! ### The statements -/

/-- The kind of object a statement names. -/
inductive AclObject where
  | table
  | sequence
  deriving DecidableEq

/-- What a statement is about: the object's quoted name, and the column if it is a column's list. -/
structure AclTarget where
  object : AclObject
  name : String
  column : String

/-- A statement of the synchronisation. -/
inductive AclStatement where
  | revoke (g : Grant) (grantOptionOnly : Bool)
  | grant (g : Grant)
  deriving DecidableEq

def AclObject.keyword : AclObject → String
  | .table => "TABLE"
  | .sequence => "SEQUENCE"

def roleSQL (g : Grant) : String := if g.isPublic then "PUBLIC" else sanitize g.grantee

def privilegeSQL (privilege column : String) : String :=
  if column = "" then privilege else privilege ++ " (" ++ sanitize column ++ ")"

def privilegeLabel (g : Grant) (column : String) : String :=
  if column = "" then g.privilege else g.privilege ++ " on column " ++ column

def granteeLabel (g : Grant) : String := if g.isPublic then "PUBLIC" else g.grantee

def grantSQL (target : AclTarget) (g : Grant) : String :=
  let sql := "GRANT " ++ privilegeSQL g.privilege target.column ++ " ON " ++
    target.object.keyword ++ " " ++ target.name ++ " TO " ++ roleSQL g
  if g.grantable then sql ++ " WITH GRANT OPTION" else sql

def revokeSQL (target : AclTarget) (g : Grant) (grantOptionOnly : Bool) : String :=
  let sql := "REVOKE "
  let sql := if grantOptionOnly then sql ++ "GRANT OPTION FOR " else sql
  sql ++ privilegeSQL g.privilege target.column ++ " ON " ++ target.object.keyword ++ " " ++
    target.name ++ " FROM " ++ roleSQL g

/-- The text sent. -/
def AclStatement.sql (target : AclTarget) : AclStatement → String
  | .revoke g grantOptionOnly => revokeSQL target g grantOptionOnly
  | .grant g => grantSQL target g

/-- The error of a statement that fails. -/
def AclStatement.failure (target : AclTarget) (cause : String) : AclStatement → String
  | .revoke g false =>
    s!"revoke {privilegeLabel g target.column} on {target.name} from {granteeLabel g}: {cause}"
  | .revoke g true =>
    s!"revoke grant option for {privilegeLabel g target.column} on {target.name} from " ++
      s!"{granteeLabel g}: {cause}"
  | .grant g =>
    s!"grant {privilegeLabel g target.column} on {target.name} to {granteeLabel g}: {cause}"

/-- What is revoked for an entry the object has. -/
def revokes (wanted : Grantee → Option Grant) (h : Grant) : List AclStatement :=
  match wanted (granteeOf h) with
  | none => [.revoke h false]
  | some w => if h.grantable && !w.grantable then [.revoke h true] else []

/-- What is granted for an entry the object should have. A surplus grant option was revoked
before. -/
def grants (held : Grantee → Option Grant) (w : Grant) : List AclStatement :=
  match held (granteeOf w) with
  | none => [.grant w]
  | some h => if h.grantable = w.grantable then [] else if h.grantable then [] else [.grant w]

/-- The statements in order: over the entries the object has, then over those it should have. -/
def aclStatements (held wanted : List Grant) : List AclStatement :=
  held.flatMap (revokes (recordAll granteeOf id wanted)) ++
    wanted.flatMap (grants (recordAll granteeOf id held))

/-- Sends the texts of statements up to the first that fails. -/
def execAll {σ : Type} (exec : String → σ → Except String σ) (target : AclTarget)
    (statements : List AclStatement) (s : σ) : Except String σ :=
  statements.foldlM (fun s statement =>
    (exec (statement.sql target) s).mapError (statement.failure target ·)) s

def reconcileACL {σ : Type} (exec : String → σ → Except String σ) (target : AclTarget)
    (held wanted : List Grant) (s : σ) : Except String σ :=
  execAll exec target (aclStatements held wanted) s

/-! ### What the statements do -/

/-- What each grantee holds of each privilege, and whether with the grant option. -/
abbrev Acl := Grantee → Option Bool

/-- The list's entries as an access list. -/
def aclOf (grants : List Grant) : Acl := recordAll granteeOf Grant.grantable grants

namespace AclStatement

/-- Whose privilege a statement is about. -/
def grantee : AclStatement → Grantee
  | .revoke g _ => granteeOf g
  | .grant g => granteeOf g

/-- What a statement makes of what its grantee holds. -/
def effect : AclStatement → Option Bool → Option Bool
  | .revoke _ false, _ => none
  | .revoke _ true, held => held.map fun _ => false
  | .grant g, held => some (held.getD false || g.grantable)

/-- A statement over an access list. -/
def apply (statement : AclStatement) (acl : Acl) : Acl :=
  Function.update acl statement.grantee (statement.effect (acl statement.grantee))

end AclStatement

/-- The server's meaning of the three forms on an entry's privilege and grantee, with one
grantor. -/
structure Grantor (exec : String → Acl → Except String Acl) (target : AclTarget) (g : Grant) :
    Prop where
  revoke : ∀ acl, exec ("REVOKE " ++ privilegeSQL g.privilege target.column ++ " ON " ++
    target.object.keyword ++ " " ++ target.name ++ " FROM " ++ roleSQL g) acl =
      .ok (Function.update acl (granteeOf g) none)
  revokeOption : ∀ acl,
    exec ("REVOKE GRANT OPTION FOR " ++ privilegeSQL g.privilege target.column ++
    " ON " ++ target.object.keyword ++ " " ++ target.name ++ " FROM " ++ roleSQL g) acl =
      .ok (Function.update acl (granteeOf g) ((acl (granteeOf g)).map fun _ => false))
  grant : ∀ acl, exec ("GRANT " ++ privilegeSQL g.privilege target.column ++ " ON " ++
    target.object.keyword ++ " " ++ target.name ++ " TO " ++ roleSQL g ++
      if g.grantable then " WITH GRANT OPTION" else "") acl =
      .ok (Function.update acl (granteeOf g) (some ((acl (granteeOf g)).getD false || g.grantable)))

/-- Statements in turn over an access list. -/
def applyAll (statements : List AclStatement) (acl : Acl) : Acl :=
  statements.foldl (fun acl statement => statement.apply acl) acl

/-- Statements in turn over what one grantee holds. -/
def effectAll (statements : List AclStatement) (held : Option Bool) : Option Bool :=
  statements.foldl (fun held statement => statement.effect held) held

variable {exec : String → Acl → Except String Acl} {target : AclTarget}

section Reconcile

variable {held wanted : List Grant} {statement : AclStatement} {acl : Acl} {k : Grantee} {g : Grant}

/-- The server makes of a statement's text what the statement does. -/
theorem exec_revoke (server : Grantor exec target g) (optionOnly : Bool) (acl : Acl) :
    exec ((AclStatement.revoke g optionOnly).sql target) acl =
      .ok ((AclStatement.revoke g optionOnly).apply acl) := by
  cases optionOnly with
  | false => exact server.revoke acl
  | true => exact server.revokeOption acl

theorem exec_grant (server : Grantor exec target g) (acl : Acl) :
    exec ((AclStatement.grant g).sql target) acl = .ok ((AclStatement.grant g).apply acl) := by
  have text : (AclStatement.grant g).sql target = "GRANT " ++
      privilegeSQL g.privilege target.column ++ " ON " ++ target.object.keyword ++ " " ++
      target.name ++ " TO " ++ roleSQL g ++ if g.grantable then " WITH GRANT OPTION" else "" := by
    show grantSQL target g = _
    unfold grantSQL
    split
    · rfl
    · rw [String.append_empty]
  rw [text]
  exact server.grant acl

variable {statements : List AclStatement}

/-- Texts the server understands do what their statements do, in turn. -/
theorem execAll_eq (server : ∀ statement ∈ statements, ∀ acl,
      exec (statement.sql target) acl = .ok (statement.apply acl)) (acl : Acl) :
    execAll exec target statements acl = .ok (applyAll statements acl) := by
  induction statements generalizing acl with
  | nil => rfl
  | cons statement rest ih =>
    unfold execAll
    rw [List.foldlM_cons, server statement List.mem_cons_self]
    exact ih (fun s later => server s (List.mem_cons_of_mem _ later)) (statement.apply acl)

theorem apply_of_ne (other : statement.grantee ≠ k) : statement.apply acl k = acl k :=
  Function.update_of_ne (Ne.symm other) _ _

theorem apply_self :
    statement.apply acl statement.grantee = statement.effect (acl statement.grantee) := by
  simp [AclStatement.apply]

/-- Statements about one grantee act on what it holds, one after the other. -/
theorem applyAll_self (about : ∀ statement ∈ statements, statement.grantee = k) (acl : Acl) :
    applyAll statements acl k = effectAll statements (acl k) := by
  induction statements generalizing acl with
  | nil => rfl
  | cons statement rest ih =>
    have own := about statement List.mem_cons_self
    rw [applyAll, List.foldl_cons]
    show applyAll rest (statement.apply acl) k = _
    rw [ih fun s member => about s (List.mem_cons_of_mem _ member), ← own, apply_self]
    rfl

/-- And leave what another holds. -/
theorem applyAll_of_ne (about : ∀ statement ∈ statements, statement.grantee ≠ k) (acl : Acl) :
    applyAll statements acl k = acl k := by
  induction statements generalizing acl with
  | nil => rfl
  | cons statement rest ih =>
    show applyAll rest (statement.apply acl) k = _
    rw [ih fun s member => about s (List.mem_cons_of_mem _ member),
      apply_of_ne (about statement List.mem_cons_self)]

theorem revokes_eq {lookup : Grantee → Option Grant} {h : Grant}
    (member : statement ∈ revokes lookup h) : ∃ optionOnly, statement = .revoke h optionOnly := by
  unfold revokes at member
  cases found : lookup (granteeOf h) with
  | none =>
    rw [found] at member
    exact ⟨false, List.mem_singleton.mp member⟩
  | some w =>
    rw [found] at member
    by_cases surplus : (h.grantable && !w.grantable) = true
    · simp only [surplus, if_true] at member
      exact ⟨true, List.mem_singleton.mp member⟩
    · simp only [surplus] at member
      cases member

/-- The only statement a grant gives rise to is its own. -/
theorem grants_eq {lookup : Grantee → Option Grant} {w : Grant}
    (member : statement ∈ grants lookup w) : statement = .grant w := by
  unfold grants at member
  cases found : lookup (granteeOf w) with
  | none =>
    rw [found] at member
    exact List.mem_singleton.mp member
  | some h =>
    rw [found] at member
    by_cases same : h.grantable = w.grantable
    · simp only [same, if_true] at member
      cases member
    · simp only [same, if_false] at member
      by_cases surplus : h.grantable = true
      · simp only [surplus, if_true] at member
        cases member
      · simp only [surplus] at member
        exact List.mem_singleton.mp member

/-- **Every statement takes something away, or grants an entry of the source.** -/
theorem aclStatements_grants (member : statement ∈ aclStatements held wanted) :
    (∃ h ∈ held, ∃ optionOnly, statement = .revoke h optionOnly) ∨
      ∃ w ∈ wanted, statement = .grant w := by
  unfold aclStatements at member
  rcases List.mem_append.mp member with revoked | granted
  · obtain ⟨h, listed, inside⟩ := List.mem_flatMap.mp revoked
    exact .inl ⟨h, listed, revokes_eq inside⟩
  · obtain ⟨w, listed, inside⟩ := List.mem_flatMap.mp granted
    exact .inr ⟨w, listed, grants_eq inside⟩

section Loop

variable {statementsOf : Grant → List AclStatement} {entries : List Grant}
  (about : ∀ g, ∀ statement ∈ statementsOf g, statement.grantee = granteeOf g)

include about

/-- A loop whose statements are about their own entries' grantees, seen from one that has none. -/
theorem applyAll_flatMap_of_ne (outside : ∀ g ∈ entries, granteeOf g ≠ k) (acl : Acl) :
    applyAll (entries.flatMap statementsOf) acl k = acl k := by
  apply applyAll_of_ne
  intro statement member
  obtain ⟨g, listed, inside⟩ := List.mem_flatMap.mp member
  rw [about g statement inside]
  exact outside g listed

/-- And from the grantee of one of the entries. -/
theorem applyAll_flatMap_self (distinct : (entries.map granteeOf).Nodup) (member : g ∈ entries)
    (acl : Acl) :
    applyAll (entries.flatMap statementsOf) acl (granteeOf g)
      = effectAll (statementsOf g) (acl (granteeOf g)) := by
  have loop : applyAll (entries.flatMap statementsOf) acl
      = entries.foldl (fun acl g => applyAll (statementsOf g) acl) acl := List.foldl_flatMap
  have frame : ∀ (acl : Acl) (g : Grant) (k : Grantee), granteeOf g ≠ k →
      id (applyAll (statementsOf g) acl) k = id acl k := by
    intro acl g k other
    apply applyAll_of_ne
    intro statement inside
    rw [about g statement inside]
    exact other
  rw [loop]
  exact foldl_own frame (fun g held => effectAll (statementsOf g) held)
    (fun acl g => applyAll_self (about g) acl) distinct member acl

end Loop

theorem revokes_about (lookup : Grantee → Option Grant) :
    ∀ h, ∀ statement ∈ revokes lookup h, statement.grantee = granteeOf h := by
  intro h statement inside
  obtain ⟨_, rfl⟩ := revokes_eq inside
  rfl

theorem grants_about (lookup : Grantee → Option Grant) :
    ∀ w, ∀ statement ∈ grants lookup w, statement.grantee = granteeOf w := by
  intro w statement inside
  rw [grants_eq inside]
  rfl

/-- **The statements turn one list into the other.** -/
theorem applyAll_aclStatements (heldOnce : (held.map granteeOf).Nodup)
    (wantedOnce : (wanted.map granteeOf).Nodup) :
    applyAll (aclStatements held wanted) (aclOf held) = aclOf wanted := by
  funext k
  have split : applyAll (aclStatements held wanted) (aclOf held)
      = applyAll (wanted.flatMap (grants (recordAll granteeOf id held)))
        (applyAll (held.flatMap (revokes (recordAll granteeOf id wanted))) (aclOf held)) :=
    List.foldl_append
  rw [split]
  by_cases asked : ∃ w ∈ wanted, granteeOf w = k
  · obtain ⟨w, listed, rfl⟩ := asked
    have reached : aclOf wanted (granteeOf w) = some w.grantable :=
      recordAll_of_mem wantedOnce listed
    have lookup : recordAll granteeOf id wanted (granteeOf w) = some w :=
      recordAll_of_mem wantedOnce listed
    rw [applyAll_flatMap_self (grants_about _) wantedOnce listed, reached]
    by_cases has : ∃ h ∈ held, granteeOf h = granteeOf w
    · obtain ⟨h, own, same⟩ := has
      have before : aclOf held (granteeOf h) = some h.grantable := recordAll_of_mem heldOnce own
      have found : recordAll granteeOf id held (granteeOf h) = some h :=
        recordAll_of_mem heldOnce own
      rw [← same, applyAll_flatMap_self (revokes_about _) heldOnce own, before]
      rw [grants, revokes, same, lookup, ← same, found]
      cases hasOption : h.grantable <;> cases wantsOption : w.grantable <;>
        simp [hasOption, wantsOption, effectAll, AclStatement.effect]
    · have outside : ∀ h ∈ held, granteeOf h ≠ granteeOf w := fun h own same => has ⟨h, own, same⟩
      have before : aclOf held (granteeOf w) = none := recordAll_of_not_mem outside
      have found : recordAll granteeOf id held (granteeOf w) = none := recordAll_of_not_mem outside
      rw [applyAll_flatMap_of_ne (revokes_about _) outside, before, grants, found]
      rfl
  · have unasked : ∀ w ∈ wanted, granteeOf w ≠ k := fun w listed same => asked ⟨w, listed, same⟩
    have reached : aclOf wanted k = none := recordAll_of_not_mem unasked
    have lookup : recordAll granteeOf id wanted k = none := recordAll_of_not_mem unasked
    rw [applyAll_flatMap_of_ne (grants_about _) unasked, reached]
    by_cases has : ∃ h ∈ held, granteeOf h = k
    · obtain ⟨h, own, rfl⟩ := has
      rw [applyAll_flatMap_self (revokes_about _) heldOnce own, revokes, lookup]
      rfl
    · have outside : ∀ h ∈ held, granteeOf h ≠ k := fun h own same => has ⟨h, own, same⟩
      rw [applyAll_flatMap_of_ne (revokes_about _) outside]
      exact recordAll_of_not_mem outside

/-- An entry both lists have asks for no statement. -/
theorem statement_ne_of_agrees (heldOnce : (held.map granteeOf).Nodup)
    (wantedOnce : (wanted.map granteeOf).Nodup) (has : g ∈ held) (asked : g ∈ wanted)
    (member : statement ∈ aclStatements held wanted) : statement.grantee ≠ granteeOf g := by
  intro same
  unfold aclStatements at member
  rcases List.mem_append.mp member with revoked | granted
  · obtain ⟨h, listed, inside⟩ := List.mem_flatMap.mp revoked
    rw [revokes_about _ h statement inside] at same
    have equal : h = g := List.inj_on_of_nodup_map heldOnce listed has same
    have found : recordAll granteeOf id wanted (granteeOf g) = some g :=
      recordAll_of_mem wantedOnce asked
    rw [equal, revokes, found] at inside
    simp at inside
  · obtain ⟨w, listed, inside⟩ := List.mem_flatMap.mp granted
    rw [grants_about _ w statement inside] at same
    have equal : w = g := List.inj_on_of_nodup_map wantedOnce listed asked same
    have found : recordAll granteeOf id held (granteeOf g) = some g :=
      recordAll_of_mem heldOnce has
    rw [equal, grants, found] at inside
    simp at inside

/-- A statement gives nobody more than they hold or the source's list gives. -/
theorem apply_within (wantedOnce : (wanted.map granteeOf).Nodup)
    (member : statement ∈ aclStatements held wanted) (acl : Acl) (k : Grantee) :
    ((statement.apply acl k).isSome = true →
      (acl k).isSome = true ∨ (aclOf wanted k).isSome = true) ∧
    (statement.apply acl k = some true → acl k = some true ∨ aclOf wanted k = some true) := by
  by_cases own : statement.grantee = k
  · subst own
    rw [apply_self]
    rcases aclStatements_grants member with ⟨h, -, optionOnly, rfl⟩ | ⟨w, listed, rfl⟩
    · cases optionOnly with
      | false => simp [AclStatement.effect]
      | true => cases acl (AclStatement.revoke h true).grantee <;> simp [AclStatement.effect]
    · have reached : aclOf wanted (AclStatement.grant w).grantee = some w.grantable :=
        recordAll_of_mem wantedOnce listed
      rw [reached]
      refine ⟨fun _ => .inr rfl, ?_⟩
      cases acl (AclStatement.grant w).grantee with
      | none => simp [AclStatement.effect]
      | some option => cases option <;> simp [AclStatement.effect]
  · rw [apply_of_ne own]
    exact ⟨.inl, .inl⟩

end Reconcile

/-- The server understands every statement of the synchronisation. -/
theorem exec_aclStatements {held wanted : List Grant}
    (server : ∀ g, g ∈ held ∨ g ∈ wanted → Grantor exec target g) {statement : AclStatement}
    (member : statement ∈ aclStatements held wanted) (acl : Acl) :
    exec (statement.sql target) acl = .ok (statement.apply acl) := by
  rcases aclStatements_grants member with ⟨h, listed, optionOnly, rfl⟩ | ⟨w, listed, rfl⟩
  · exact exec_revoke (server h (.inl listed)) optionOnly acl
  · exact exec_grant (server w (.inr listed)) acl

/-- **Grant synchronisation reaches the source's access list**: it leaves alone an entry that
agrees, and no step grants a privilege or a grant option the source's list does not have. -/
theorem reconcileACL_reaches (exec : String → Acl → Except String Acl) (target : AclTarget)
    (held wanted : AccessList)
    (server : ∀ g, g ∈ held.grants ∨ g ∈ wanted.grants → Grantor exec target g) :
    reconcileACL exec target held.grants wanted.grants (aclOf held.grants)
      = .ok (aclOf wanted.grants) ∧
    (∀ g ∈ held.grants, g ∈ wanted.grants →
      ∀ statement ∈ aclStatements held.grants wanted.grants, statement.grantee ≠ granteeOf g) ∧
    ∀ done statement rest,
      aclStatements held.grants wanted.grants = done ++ statement :: rest →
      ∃ before after, execAll exec target done (aclOf held.grants) = .ok before ∧
        exec (statement.sql target) before = .ok after ∧ ∀ k,
        ((after k).isSome = true →
          (before k).isSome = true ∨ (aclOf wanted.grants k).isSome = true) ∧
        (after k = some true → before k = some true ∨ aclOf wanted.grants k = some true) := by
  have sent : ∀ statement ∈ aclStatements held.grants wanted.grants, ∀ acl,
      exec (statement.sql target) acl = .ok (statement.apply acl) :=
    fun statement member => exec_aclStatements server member
  refine ⟨?_, ?_, ?_⟩
  · unfold reconcileACL
    rw [execAll_eq sent, applyAll_aclStatements held.distinct wanted.distinct]
  · intro g has asked statement member
    exact statement_ne_of_agrees held.distinct wanted.distinct has asked member
  · intro done statement rest split
    have earlier : ∀ s ∈ done, s ∈ aclStatements held.grants wanted.grants := fun s inside =>
      split ▸ List.mem_append_left _ inside
    have member : statement ∈ aclStatements held.grants wanted.grants := by
      rw [split]
      exact List.mem_append_right _ List.mem_cons_self
    exact ⟨_, _, execAll_eq (fun s inside => sent s (earlier s inside)) _, sent statement member _,
      apply_within wanted.distinct member _⟩

/-! ### A server of one table -/

def ordersTarget : AclTarget := ⟨.table, "\"public\".\"orders\"", ""⟩

def selectPublic : Grant := ⟨"SELECT", "", true, false, fun _ => rfl⟩

def insertReader (grantable : Bool) : Grant := ⟨"INSERT", "reader", false, grantable, nofun⟩

/-- The forms on the two grantees' privileges. -/
def ordersForms : List AclStatement :=
  [.revoke selectPublic false, .revoke selectPublic true, .grant selectPublic,
    .revoke (insertReader false) false, .revoke (insertReader false) true,
    .grant (insertReader false), .grant (insertReader true)]

/-- A server that finds a text among the forms. -/
def ordersServer (text : String) (acl : Acl) : Except String Acl :=
  match ordersForms.find? fun statement => statement.sql ordersTarget = text with
  | some statement => .ok (statement.apply acl)
  | none => .error ("syntax error at " ++ text)

theorem ordersServer_reads {text : String} (statement : AclStatement)
    (found : (ordersForms.find? fun statement => statement.sql ordersTarget = text) =
      some statement) (acl : Acl) : ordersServer text acl = .ok (statement.apply acl) := by
  unfold ordersServer
  rw [found]

/-- PUBLIC loses its privilege and the reader its grant option, as at the source. -/
theorem reconcileACL_reaches_orders : ∃ held wanted : AccessList,
    (aclStatements held.grants wanted.grants).map (·.sql ordersTarget) =
      ["REVOKE SELECT ON TABLE \"public\".\"orders\" FROM PUBLIC",
        "REVOKE GRANT OPTION FOR INSERT ON TABLE \"public\".\"orders\" FROM \"reader\""] ∧
    aclOf held.grants (granteeOf (insertReader true)) = some true ∧
    aclOf wanted.grants (granteeOf (insertReader true)) = some false ∧
    reconcileACL ordersServer ordersTarget held.grants wanted.grants (aclOf held.grants) =
      .ok (aclOf wanted.grants) := by
  refine ⟨⟨[selectPublic, insertReader true], by decide⟩, ⟨[insertReader false], by decide⟩,
    by decide +kernel, by decide, by decide,
    (reconcileACL_reaches ordersServer ordersTarget _ _ fun g listed => ?_).1⟩
  have entries : g = selectPublic ∨ g = insertReader true ∨ g = insertReader false := by
    simpa [or_assoc] using listed
  obtain rfl | rfl | rfl := entries
  · exact ⟨ordersServer_reads (.revoke selectPublic false) (by decide +kernel),
      ordersServer_reads (.revoke selectPublic true) (by decide +kernel),
      ordersServer_reads (.grant selectPublic) (by decide +kernel)⟩
  · exact ⟨ordersServer_reads (.revoke (insertReader false) false) (by decide +kernel),
      ordersServer_reads (.revoke (insertReader false) true) (by decide +kernel),
      ordersServer_reads (.grant (insertReader true)) (by decide +kernel)⟩
  · exact ⟨ordersServer_reads (.revoke (insertReader false) false) (by decide +kernel),
      ordersServer_reads (.revoke (insertReader false) true) (by decide +kernel),
      ordersServer_reads (.grant (insertReader false)) (by decide +kernel)⟩

end PgSprite.SchemaChange
