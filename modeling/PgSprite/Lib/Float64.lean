/-
**Rounding to a number of bits.**

An operation on 64-bit floats gives the float nearest to the exact result, the even one of two, as
long as that is positive and neither overflows nor is subnormal.

* `rounded_mono` — rounding keeps the order;
* `rounded_rounded` — what has been rounded stays as it is.
-/

import Mathlib.Algebra.Order.Round
import Mathlib.Data.Int.Log
import Mathlib.Data.Rat.Floor
import Mathlib.Tactic.Linarith

namespace PgSprite.Lib

/-- The nearest integer, the even one of two. -/
def roundEven (q : ℚ) : ℤ :=
  if q - ⌊q⌋ < 1 / 2 ∨ q - ⌊q⌋ = 1 / 2 ∧ ⌊q⌋ % 2 = 0 then ⌊q⌋ else ⌊q⌋ + 1

theorem roundEven_mono {x y : ℚ} (le : x ≤ y) : roundEven x ≤ roundEven y := by
  unfold roundEven
  obtain same | above := (Int.floor_mono le).eq_or_lt
  · rw [← same]
    grind
  · grind

/-- The nearest multiple of `unit`. -/
def toMultiple (unit q : ℚ) : ℚ := roundEven (q / unit) * unit

/-- The step between the numbers near `q` that have `p` bits after their leading one. -/
def unit (p : ℕ) (q : ℚ) : ℚ := 2 ^ (Int.log 2 q - p)

/-- The nearest number with `p` bits after its leading one. -/
def rounded (p : ℕ) (q : ℚ) : ℚ := toMultiple (unit p q) q

/-- The nearest 64-bit float. -/
def float64 (q : ℚ) : ℚ := rounded 52 q

section Rounded

variable {p : ℕ} {q x y u : ℚ}

theorem unit_pos : 0 < unit p q := zpow_pos two_pos _

theorem toMultiple_mono (positive : 0 < u) (le : x ≤ y) : toMultiple u x ≤ toMultiple u y :=
  mul_le_mul_of_nonneg_right
    (Int.cast_le.mpr (roundEven_mono (div_le_div_of_nonneg_right le positive.le))) positive.le

theorem toMultiple_mul (positive : 0 < u) (n : ℤ) : toMultiple u (n * u) = n * u := by
  rw [toMultiple, mul_div_cancel_right₀ _ positive.ne']
  simp [roundEven]

/-- The powers of two from a number's leading bit on are multiples of its unit. -/
theorem toMultiple_zpow {e : ℤ} (above : Int.log 2 q ≤ e) :
    toMultiple (unit p q) (2 ^ e) = 2 ^ e := by
  obtain ⟨n, rfl⟩ := Int.le.dest above
  have steps : ((2 ^ (p + n) : ℤ) : ℚ) * unit p q = 2 ^ (Int.log 2 q + n) := by
    rw [unit, Int.cast_pow, Int.cast_ofNat, ← zpow_natCast, ← zpow_add₀ two_ne_zero]
    congr 1
    push_cast
    ring
  rw [← steps, toMultiple_mul unit_pos]

theorem rounded_bounds (positive : 0 < q) :
    2 ^ Int.log 2 q ≤ rounded p q ∧ rounded p q ≤ 2 ^ (Int.log 2 q + 1) := by
  have low : 2 ^ Int.log 2 q ≤ q := Int.zpow_log_le_self one_lt_two positive
  have high : q < 2 ^ (Int.log 2 q + 1) := Int.lt_zpow_succ_log_self one_lt_two q
  rw [← toMultiple_zpow (q := q) le_rfl, ← toMultiple_zpow (q := q) (Int.le_add_one le_rfl)]
  exact ⟨toMultiple_mono unit_pos low, toMultiple_mono unit_pos high.le⟩

theorem rounded_pos (positive : 0 < q) : 0 < rounded p q :=
  (zpow_pos two_pos _).trans_le (rounded_bounds positive).1

/-- **Rounding keeps the order.** -/
theorem rounded_mono (positive : 0 < x) (le : x ≤ y) : rounded p x ≤ rounded p y := by
  obtain same | apart := (Int.log_mono_right (b := 2) positive le).eq_or_lt
  · rw [rounded, rounded, unit, same]
    exact toMultiple_mono unit_pos le
  · calc rounded p x ≤ 2 ^ (Int.log 2 x + 1) := (rounded_bounds positive).2
      _ ≤ 2 ^ Int.log 2 y := zpow_le_zpow_right₀ one_le_two apart
      _ ≤ rounded p y := (rounded_bounds (positive.trans_le le)).1

/-- **What has been rounded stays as it is.** -/
theorem rounded_rounded (positive : 0 < q) : rounded p (rounded p q) = rounded p q := by
  obtain ⟨low, high⟩ := rounded_bounds (p := p) positive
  obtain top | below := high.eq_or_lt
  · rw [top]
    exact toMultiple_zpow (Int.log_zpow one_lt_two _).le
  · have there := rounded_pos (p := p) positive
    have same : Int.log 2 (rounded p q) = Int.log 2 q :=
      le_antisymm (Int.lt_add_one_iff.mp ((Int.lt_zpow_iff_log_lt one_lt_two there).mp below))
        ((Int.zpow_le_iff_le_log one_lt_two there).mp low)
    rw [rounded, unit, same]
    exact toMultiple_mul unit_pos _

end Rounded

end PgSprite.Lib
