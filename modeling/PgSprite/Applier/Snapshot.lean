/-
**Which transactions a reader of the source would see.**

The stream numbers transactions in 32 bits; a snapshot's bounds are 64-bit ids, so `visible` widens
an id to the one nearest `xmax` before it compares.
-/

import Mathlib
import PgSprite.Decode.Change

namespace PgSprite.Applier

open PgSprite.Decode

/-- What the source showed as committed at one instant; the default shows nothing. -/
structure Snapshot where
  /-- The snapshot carries what the server reported. -/
  read : Bool := false
  all : Bool := false
  xmin : UInt64 := 0
  xmax : UInt64 := 0
  inProgress : List UInt64 := []
  deriving DecidableEq, Repr

namespace Snapshot

/-- A snapshot in which every transaction is visible. -/
def allVisible : Snapshot := { read := true, all := true }

/-- Widens a 32-bit id to the 64-bit id nearest `xmax` with the same low bits. -/
def lift (s : Snapshot) (xid : Xid) : UInt64 :=
  let distance : Int64 := (xid - s.xmax.toUInt32).toInt32.toInt64
  if 0 ≤ distance then s.xmax + distance.toUInt64
  else
    let back := (-distance).toUInt64
    if back > s.xmax then 0 else s.xmax - back

/-- Whether a reader taking this snapshot would see the transaction's writes. -/
def visible (s : Snapshot) (xid : Xid) : Bool :=
  if s.all then true
  else if !s.read then false
  else
    let full := s.lift xid
    if full < s.xmin then true
    else if full ≥ s.xmax then false
    else !s.inProgress.contains full

@[simp]
theorem visible_allVisible (xid : Xid) : allVisible.visible xid = true := rfl

/-! ### What the server reports -/

/-- Whether the server's snapshot counts the transaction with this full id as committed. -/
def shows (s : Snapshot) (id : UInt64) : Bool :=
  decide (id < s.xmin) || (decide (id < s.xmax) && !s.inProgress.contains id)

/-- The id is within the reach of a 32-bit id around `xmax`, as every id that can still be in
progress is. -/
def near (s : Snapshot) (id : UInt64) : Bool :=
  if s.xmax ≤ id then decide (id - s.xmax < 2147483648) else decide (s.xmax - id < 2147483648)

/-- A distance below 2^31 survives the 32-bit arithmetic. -/
theorem toInt64_toUInt32 {distance : UInt64} (small : distance < 2147483648) :
    distance.toUInt32.toInt32.toInt64 = distance.toInt64 := by
  have bound : distance.toNat < 2147483648 := UInt64.lt_iff_toNat_lt.mp small
  have bits : distance.toBitVec.toNat = distance.toNat := rfl
  apply Int64.toBitVec.inj
  simp only [Int32.toBitVec_toInt64, UInt32.toBitVec_toInt32, UInt64.toBitVec_toUInt32,
    UInt64.toBitVec_toInt64]
  rw [BitVec.signExtend_eq_setWidth_of_msb_false]
  · apply BitVec.eq_of_toNat_eq
    simp only [BitVec.toNat_setWidth, bits]
    omega
  · rw [BitVec.msb_eq_false_iff_two_mul_lt]
    simp only [BitVec.toNat_setWidth, bits]
    omega

theorem toInt64_toInt {distance : UInt64} (small : distance < 2147483648) :
    distance.toInt64.toInt = distance.toNat := by
  have bound : distance.toNat < 2147483648 := UInt64.lt_iff_toNat_lt.mp small
  have half : 2 * distance.toBitVec.toNat < 2 ^ 64 := by
    rw [show distance.toBitVec.toNat = distance.toNat from rfl]
    omega
  exact BitVec.toInt_eq_toNat_of_lt half

/-- A distance of 31 bits is read back with its sign. -/
theorem toInt64_neg_toUInt32 {distance : UInt64} (small : distance < 2147483648) :
    (-distance.toUInt32).toInt32.toInt64 = -distance.toInt64 := by
  have least : distance.toUInt32.toInt32 ≠ -2147483648 := by
    intro same
    have wide := toInt64_toUInt32 small
    rw [same] at wide
    have value := toInt64_toInt small
    rw [← wide] at value
    revert value
    generalize distance.toNat = n
    intro value
    have : (Int32.toInt64 (-2147483648)).toInt = -2147483648 := by decide
    omega
  rw [UInt32.toInt32_neg, Int32.toInt64_neg_of_ne least, toInt64_toUInt32 small]

/-- **A near id is widened back to itself.** -/
theorem lift_of_near {s : Snapshot} {id : UInt64} (near : s.near id = true) :
    s.lift id.toUInt32 = id := by
  rw [Snapshot.near] at near
  rw [lift]
  split at near
  next ahead =>
    have small := of_decide_eq_true near
    have distance := toInt64_toUInt32 small
    rw [UInt64.toUInt32_sub] at distance
    have sign : 0 ≤ (id - s.xmax).toInt64 := by
      rw [Int64.le_iff_toInt_le, toInt64_toInt small]
      simp
    simp only [distance, sign, if_true]
    rw [UInt64.toUInt64_toInt64]
    grind
  next behind =>
    have small := of_decide_eq_true near
    have distance : (id.toUInt32 - s.xmax.toUInt32).toInt32.toInt64 = -(s.xmax - id).toInt64 := by
      rw [← toInt64_neg_toUInt32 small, UInt64.toUInt32_sub]
      simp
    have positive : 0 < (s.xmax - id).toNat := by
      have apart : s.xmax - id ≠ 0 := by grind
      exact Nat.pos_of_ne_zero fun zero => apart (UInt64.toNat_inj.mp zero)
    have value := toInt64_toInt small
    have sign : ¬ 0 ≤ -(s.xmax - id).toInt64 := by
      have bound : (s.xmax - id).toNat < 2147483648 := UInt64.lt_iff_toNat_lt.mp small
      rw [Int64.le_iff_toInt_le, Int64.toInt_neg, value, Int.bmod_eq_of_le]
      · simp
        omega
      · omega
      · omega
    have short : ¬ s.xmax - id > s.xmax := by grind
    simp only [distance, sign, if_false, Int64.neg_neg, UInt64.toUInt64_toInt64, short]
    grind

/-- The applier's judgement of an id is the server's own. -/
theorem visible_eq_shows {s : Snapshot} {id : UInt64} (read : s.read = true) (all : s.all = false)
    (near : s.near id = true) : s.visible id.toUInt32 = s.shows id := by
  rw [visible, all, read, lift_of_near near, shows]
  by_cases below : id < s.xmin
  · simp [below]
  · by_cases above : id < s.xmax
    · have : ¬ id ≥ s.xmax := by grind
      simp [below, above, this]
    · have : id ≥ s.xmax := by grind
      simp [below, above, this]

end Snapshot

end PgSprite.Applier
