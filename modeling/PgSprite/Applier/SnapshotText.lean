/-
**Reading the server's snapshot.**

The server prints a snapshot as `xmin:xmax:xip1,xip2,…` and the applier reads that text. For every
snapshot the server can print:

* `parseSnapshot_text` — the text is read, bounds and in-progress list intact;
* `lift_of_reach` — a 32-bit id is widened to the 64-bit id it came from, over the whole half epoch
  on either side of `xmax`;
* `parsed_visible_iff` — so the judgement of the parsed snapshot is the server's own, and it only
  grows from one snapshot to a later one.
-/

import PgSprite.Applier.Snapshot
import PgSprite.Lib.Decimal
import PgSprite.Lib.Except

namespace PgSprite.Applier

open PgSprite.Decode PgSprite.Lib

/-! ### The reader -/

/-- A refusal of a snapshot's text. -/
def snapshotError (text detail : String) : String :=
  s!"invariant violation (CO-4): snapshot {text.quote}{detail}"

/-- One of the text's numbers, named in the refusal. -/
def snapshotNumber (text what : String) (field : List Char) : Except String UInt64 :=
  match parseUint (2 ^ 64) field with
  | .ok n => .ok (UInt64.ofNat n)
  | .error cause =>
    .error (snapshotError text
      s!": {what}: strconv.ParseUint: parsing {(String.ofList field).quote}: {cause.text}")

/-- Parses the server's text form of a snapshot, the in-progress list possibly empty. -/
def parseSnapshot (text : String) : Except String Snapshot :=
  match text.toList.splitOn ':' with
  | [first, second, third] => do
      let xmin ← snapshotNumber text "xmin" first
      let xmax ← snapshotNumber text "xmax" second
      if xmin > xmax then .error (snapshotError text ": xmin above xmax")
      else
        let snap : Snapshot := { read := true, xmin, xmax }
        if third = [] then .ok snap
        else (third.splitOn ',').foldlM (fun (snap : Snapshot) field => do
          let xid ← snapshotNumber text "in-progress transaction" field
          .ok { snap with inProgress := snap.inProgress ++ [xid] }) snap
  | _ => .error (snapshotError text " is not xmin:xmax:xip")

/-! ### What the server prints -/

/-- A snapshot as the server takes it. -/
structure ServerSnapshot where
  xmin : UInt64
  xmax : UInt64
  xip : List UInt64
  ordered : xmin ≤ xmax
  between : ∀ id ∈ xip, xmin ≤ id ∧ id < xmax

namespace ServerSnapshot

/-- An id in decimal. -/
def decimal (id : UInt64) : List Char := Nat.toDigits 10 id.toNat

/-- The in-progress list as the server prints it. -/
def xipText (s : ServerSnapshot) : List Char := [','].intercalate (s.xip.map decimal)

/-- The text the server prints. -/
def text (s : ServerSnapshot) : String :=
  String.ofList ([':'].intercalate [decimal s.xmin, decimal s.xmax, s.xipText])

/-- The transaction's writes are committed and visible in the snapshot. -/
def Shows (s : ServerSnapshot) (id : UInt64) : Prop := id < s.xmin ∨ (id < s.xmax ∧ id ∉ s.xip)

/-- The id lies within half an epoch of the snapshot's `xmax`. -/
def Reach (s : ServerSnapshot) (id : UInt64) : Prop :=
  (s.xmax.toNat : ℤ) - 2 ^ 31 ≤ id.toNat ∧ (id.toNat : ℤ) < s.xmax.toNat + 2 ^ 31

/-- The second snapshot is taken later: its bounds are no lower, and nothing that was visible is in
progress again. -/
structure Before (s later : ServerSnapshot) : Prop where
  xmin : s.xmin ≤ later.xmin
  xmax : s.xmax ≤ later.xmax
  completed : ∀ id, s.Shows id → id ∉ later.xip

/-- What the applier holds of the snapshot. -/
def parsed (s : ServerSnapshot) : Snapshot :=
  { read := true, xmin := s.xmin, xmax := s.xmax, inProgress := s.xip }

end ServerSnapshot

/-! ### Reading back what the server printed -/

open ServerSnapshot

theorem snapshotNumber_decimal (text what : String) (id : UInt64) :
    snapshotNumber text what (decimal id) = .ok id := by
  have fits : id.toNat < 2 ^ 64 := id.toNat_lt
  rw [snapshotNumber, decimal, parseUint_toDigits fits]
  exact congrArg Except.ok UInt64.ofNat_toNat

theorem colon_not_mem_xipText (s : ServerSnapshot) : ':' ∉ s.xipText := by
  unfold xipText
  induction s.xip with
  | nil => simp
  | cons id rest ih =>
    have plain : ':' ∉ decimal id := not_mem_toDigits rfl
    cases rest with
    | nil => simpa using plain
    | cons next rest =>
      rw [List.map_cons, List.map_cons, List.intercalate_cons_cons]
      simp only [List.mem_append, List.mem_singleton, not_or]
      exact ⟨⟨plain, by decide⟩, ih⟩

theorem text_splitOn (s : ServerSnapshot) :
    s.text.toList.splitOn ':' = [decimal s.xmin, decimal s.xmax, s.xipText] := by
  rw [ServerSnapshot.text, String.toList_ofList]
  apply List.splitOn_intercalate
  · intro field member
    simp only [List.mem_cons, List.not_mem_nil, or_false] at member
    rcases member with rfl | rfl | rfl
    · exact not_mem_toDigits rfl
    · exact not_mem_toDigits rfl
    · exact colon_not_mem_xipText s
  · simp

/-- Printed ids are read back in their order. -/
theorem foldlM_snapshotNumber (text : String) (ids : List UInt64) (snap : Snapshot) :
    (ids.map decimal).foldlM (fun (snap : Snapshot) field => do
        let xid ← snapshotNumber text "in-progress transaction" field
        Except.ok { snap with inProgress := snap.inProgress ++ [xid] }) snap
      = .ok { snap with inProgress := snap.inProgress ++ ids } := by
  induction ids generalizing snap with
  | nil =>
    rw [List.append_nil]
    rfl
  | cons id rest ih =>
    rw [List.map_cons, List.foldlM_cons, snapshotNumber_decimal]
    refine (ih { snap with inProgress := snap.inProgress ++ [id] }).trans ?_
    simp

theorem decimal_ne_nil (id : UInt64) : decimal id ≠ [] := Nat.toDigits_ne_nil

/-- **The text is read back.** -/
theorem parseSnapshot_text (s : ServerSnapshot) : parseSnapshot s.text = .ok s.parsed := by
  have inOrder : ¬ s.xmin > s.xmax := UInt64.not_lt.mpr s.ordered
  rw [parseSnapshot, text_splitOn]
  simp only [snapshotNumber_decimal, bind, Except.bind, if_neg inOrder]
  cases running : s.xip with
  | nil =>
    have empty : s.xipText = [] := by rw [xipText, running]; rfl
    rw [if_pos empty, ServerSnapshot.parsed, running]
  | cons id rest =>
    have comma : ∀ field ∈ s.xip.map decimal, ',' ∉ field := by
      intro field member
      obtain ⟨id, _, rfl⟩ := List.mem_map.mp member
      exact not_mem_toDigits rfl
    have fields : s.xipText.splitOn ',' = s.xip.map decimal :=
      List.splitOn_intercalate _ comma (by simp [running])
    have filled : s.xipText ≠ [] := by
      intro empty
      rw [empty, running, List.splitOn_nil, List.map_cons] at fields
      exact decimal_ne_nil id (List.cons.inj fields).1.symm
    rw [if_neg filled, fields]
    exact foldlM_snapshotNumber s.text s.xip _

/-! ### Widening over the whole half epoch -/

/-- The lowest id of the reach lies exactly half an epoch below `xmax`, where the signed distance is
the least 32-bit value. -/
theorem lift_of_lowest {s : Snapshot} {id : UInt64} (below : s.xmax.toNat = id.toNat + 2 ^ 31) :
    s.lift id.toUInt32 = id := by
  have far : s.xmax = id + 2147483648 := by
    apply UInt64.toNat_inj.mp
    have bound := s.xmax.toNat_lt
    rw [UInt64.toNat_add]
    rw [below] at bound ⊢
    exact (Nat.mod_eq_of_lt bound).symm
  have distance : id.toUInt32 - s.xmax.toUInt32 = 2147483648 := by
    rw [far, UInt64.toUInt32_add]
    generalize id.toUInt32 = low
    have wrapped : (UInt64.toUInt32 2147483648) = -2147483648 := by decide
    rw [wrapped]
    grind
  have enough : ¬ (2147483648 : UInt64) > s.xmax := by
    rw [gt_iff_lt, UInt64.not_lt, UInt64.le_iff_toNat_le, below]
    have : (2147483648 : UInt64).toNat = 2 ^ 31 := by decide
    omega
  have least : (2147483648 : UInt32).toInt32.toInt64 = -2147483648 := by decide
  rw [Snapshot.lift, distance]
  simp only [least]
  rw [if_neg (by decide)]
  have back : (- -2147483648 : Int64).toUInt64 = 2147483648 := by decide
  simp only [back, if_neg enough]
  rw [far]
  grind

/-- **Every id of the reach is widened back to itself.** -/
theorem lift_of_reach {s : ServerSnapshot} {id : UInt64} (reach : s.Reach id) :
    s.parsed.lift id.toUInt32 = id := by
  obtain ⟨low, high⟩ := reach
  have bound := s.xmax.toNat_lt
  have idBound := id.toNat_lt
  by_cases lowest : s.parsed.xmax.toNat = id.toNat + 2 ^ 31
  · exact lift_of_lowest lowest
  · apply Snapshot.lift_of_near
    have apart : s.xmax.toNat ≠ id.toNat + 2 ^ 31 := lowest
    show (if s.xmax ≤ id then decide (id - s.xmax < 2147483648)
      else decide (s.xmax - id < 2147483648)) = true
    split
    next ahead =>
      rw [decide_eq_true_eq, UInt64.lt_iff_toNat_lt, UInt64.toNat_sub_of_le _ _ ahead]
      have : (2147483648 : UInt64).toNat = 2147483648 := by decide
      omega
    next behind =>
      have before : id ≤ s.xmax := UInt64.le_of_lt (UInt64.not_le.mp behind)
      rw [decide_eq_true_eq, UInt64.lt_iff_toNat_lt, UInt64.toNat_sub_of_le _ _ before]
      have : (2147483648 : UInt64).toNat = 2147483648 := by decide
      omega

/-! ### The judgement -/

/-- The parsed snapshot shows what the server's does. -/
theorem visible_iff_shows {s : ServerSnapshot} {id : UInt64} (reach : s.Reach id) :
    s.parsed.visible id.toUInt32 = true ↔ s.Shows id := by
  unfold Snapshot.visible ServerSnapshot.Shows
  rw [lift_of_reach reach]
  by_cases below : id < s.xmin
  · simp [ServerSnapshot.parsed, below]
  · by_cases above : s.xmax ≤ id
    · have : ¬ id < s.xmax := UInt64.not_lt.mpr above
      simp [ServerSnapshot.parsed, below, above, this]
    · have : id < s.xmax := UInt64.not_le.mp above
      simp [ServerSnapshot.parsed, below, this]

theorem Shows_of_before {s later : ServerSnapshot} (before : s.Before later) {id : UInt64}
    (shown : s.Shows id) : later.Shows id := by
  have completed := before.completed id shown
  rcases shown with below | ⟨above, _⟩
  · exact .inl (UInt64.lt_of_lt_of_le below before.xmin)
  · exact .inr ⟨UInt64.lt_of_lt_of_le above before.xmax, completed⟩

/-- **The applier's judgement is the server's, and it is monotone.** The text of every snapshot the
server takes is read; the snapshot read judges each id of its reach as the server does; and an id
visible in it is visible in every snapshot read later. -/
theorem parsed_visible_iff (s : ServerSnapshot) :
    ∃ snap, parseSnapshot s.text = .ok snap ∧
      (∀ id : UInt64, s.Reach id →
        (snap.visible id.toUInt32 = true ↔ id < s.xmin ∨ (id < s.xmax ∧ id ∉ s.xip))) ∧
      ∀ later : ServerSnapshot, s.Before later →
        ∃ next, parseSnapshot later.text = .ok next ∧
          ∀ id : UInt64, s.Reach id → later.Reach id →
            snap.visible id.toUInt32 = true → next.visible id.toUInt32 = true := by
  refine ⟨s.parsed, parseSnapshot_text s, fun id reach => visible_iff_shows reach, ?_⟩
  intro later before
  refine ⟨later.parsed, parseSnapshot_text later, ?_⟩
  intro id reach laterReach visible
  exact (visible_iff_shows laterReach).mpr
    (Shows_of_before before ((visible_iff_shows reach).mp visible))

/-- Two transactions in progress. -/
def twoOpen : ServerSnapshot where
  xmin := 100
  xmax := 105
  xip := [100, 103]
  ordered := by decide
  between := by simp

/-- Later the first has ended and others have begun. -/
def oneOpen : ServerSnapshot where
  xmin := 103
  xmax := 110
  xip := [103, 108]
  ordered := by decide
  between := by simp

theorem twoOpen_before : twoOpen.Before oneOpen where
  xmin := by decide
  xmax := by decide
  completed := by
    intro id shows member
    simp only [oneOpen, List.mem_cons, List.not_mem_nil, or_false] at member
    rcases member with rfl | rfl
    · exact absurd shows (by unfold Shows; decide)
    · exact absurd shows (by unfold Shows; decide)

/-- Two snapshots of one server, with a transaction open across both. -/
theorem parsed_visible_iff_twoOpen :
    twoOpen.text = "100:105:100,103" ∧ oneOpen.text = "103:110:103,108" ∧
      ∃ snap next, parseSnapshot twoOpen.text = .ok snap ∧ parseSnapshot oneOpen.text = .ok next ∧
        snap.visible 101 = true ∧ ¬ snap.visible 103 = true ∧ next.visible 101 = true := by
  obtain ⟨snap, read, judged, grows⟩ := parsed_visible_iff twoOpen
  obtain ⟨next, later, keeps⟩ := grows oneOpen twoOpen_before
  have seen : snap.visible 101 = true :=
    (judged 101 (by simp [Reach, twoOpen])).mpr (.inr (by decide))
  have open_ : ¬ snap.visible 103 = true := fun visible =>
    absurd ((judged 103 (by simp [Reach, twoOpen])).mp visible) (by decide)
  exact ⟨rfl, rfl, snap, next, read, later, seen, open_,
    keeps 101 (by simp [Reach, twoOpen]) (by simp [Reach, oneOpen]) seen⟩

end PgSprite.Applier
