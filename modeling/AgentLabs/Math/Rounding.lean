import Mathlib.Algebra.Order.Floor.Ring
import Mathlib.Data.Int.ConditionallyCompleteOrder
import Mathlib.Data.Rat.Floor
import Mathlib.Tactic.Linarith

/-!
# Rounding

A number is rounded to the nearest one with some decimal places, and to the one with an even last
digit if it is in the middle between two. Rounding keeps the order, and it is the same on both
sides of zero.

## Main definitions

* `roundHalfEven`: the nearest integer
* `round4`: a number rounded to four places
* `nearestDouble`: an integer rounded to the 53 bits of a double

## Main results

* `roundHalfEven_mono`, `round4_mono`: rounding keeps the order
* `roundHalfEven_neg`, `round4_neg`: rounding is the same on both sides of zero
-/

namespace AgentLabs.Math

/-- The nearest integer, the even one of two. -/
def roundHalfEven (x : ℚ) : ℤ :=
  if x - ⌊x⌋ < 1 / 2 then ⌊x⌋
  else if 1 / 2 < x - ⌊x⌋ then ⌊x⌋ + 1
  else if ⌊x⌋ % 2 = 0 then ⌊x⌋ else ⌊x⌋ + 1

/-- `round(p, 4)`. -/
def round4 (p : ℚ) : ℚ := roundHalfEven (p * 10000) / 10000

/-- `float(n)`: the nearest double to an integer. -/
def nearestDouble (n : ℤ) : ℤ :=
  let unit : ℤ := 2 ^ (n.natAbs.log2 - 52)
  roundHalfEven (n / unit) * unit

/-! ### Order -/

theorem floor_le_roundHalfEven (x : ℚ) : ⌊x⌋ ≤ roundHalfEven x := by
  unfold roundHalfEven
  split_ifs <;> omega

theorem roundHalfEven_le_floor (x : ℚ) : roundHalfEven x ≤ ⌊x⌋ + 1 := by
  unfold roundHalfEven
  split_ifs <;> omega

theorem roundHalfEven_mono : Monotone roundHalfEven := by
  intro x y below
  rcases lt_or_eq_of_le (Int.floor_le_floor below) with less | same
  · exact le_trans (roundHalfEven_le_floor x) (le_trans less (floor_le_roundHalfEven y))
  · unfold roundHalfEven
    rw [same]
    have fraction : x - (⌊y⌋ : ℚ) ≤ y - ⌊y⌋ := by linarith
    split_ifs <;> first | omega | linarith

theorem round4_mono : Monotone round4 := by
  intro p q below
  have scaled : p * 10000 ≤ q * 10000 := by linarith
  have rounded : (roundHalfEven (p * 10000) : ℚ) ≤ roundHalfEven (q * 10000) := by
    exact_mod_cast roundHalfEven_mono scaled
  unfold round4
  linarith

/-! ### Sign -/

/-- The two sides of zero have the same numbers in the middle between integers. -/
theorem roundHalfEven_neg (x : ℚ) : roundHalfEven (-x) = -roundHalfEven x := by
  rcases eq_or_lt_of_le (Int.floor_le x) with whole | above
  · have whole' : ⌊-x⌋ = -⌊x⌋ := by
      rw [← whole, ← Int.cast_neg, Int.floor_intCast, Int.floor_intCast]
    have none : x - ⌊x⌋ < 1 / 2 := by rw [whole, sub_self]; norm_num
    have none' : -x - ⌊-x⌋ < 1 / 2 := by rw [whole', Int.cast_neg, whole, sub_self]; norm_num
    rw [roundHalfEven, if_pos none', roundHalfEven, if_pos none, whole']
  · have below := Int.lt_floor_add_one x
    have mirrored : ⌊-x⌋ = -⌊x⌋ - 1 := by
      rw [Int.floor_eq_iff]
      push_cast
      constructor <;> linarith
    have fraction : -x - ⌊-x⌋ = 1 - (x - ⌊x⌋) := by
      rw [mirrored]
      push_cast
      ring
    unfold roundHalfEven
    rw [fraction, mirrored]
    split_ifs <;> first | omega | linarith

theorem round4_neg (p : ℚ) : round4 (-p) = -round4 p := by
  rw [round4, neg_mul, roundHalfEven_neg, Int.cast_neg, neg_div, round4]

end AgentLabs.Math
