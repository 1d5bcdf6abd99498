import Mathlib.Algebra.BigOperators.Group.List.Basic
import Mathlib.Algebra.Order.Field.Rat
import Mathlib.Algebra.Order.Group.Defs
import Mathlib.Data.List.Dedup
import Mathlib.Data.List.Sort
import Mathlib.Tactic.Ring

/-!
# Means and medians

The mean and the median of some values do not depend on their order, and the negated values have the
negated ones. A set is listed by its sorted members.

## Main definitions

* `sortedSet`: the members of a list, each once and in their order
* `mean`, `median`: of the values of a list

## Main results

* `sortedSet_eq_iff`: lists with the same members
* `mean_map_neg`, `median_map_neg`: negated values
-/

namespace AgentLabs.Math

/-! ### Sorted members -/

section Sorted

variable {α : Type*} [LinearOrder α] {a : α} {xs ys : List α}

theorem insertionSort_eq_of_perm (same : xs.Perm ys) :
    xs.insertionSort (· ≤ ·) = ys.insertionSort (· ≤ ·) := by
  apply List.Perm.eq_of_pairwise' (r := (· ≤ ·)) (List.pairwise_insertionSort _ _)
    (List.pairwise_insertionSort _ _)
  exact ((List.perm_insertionSort _ xs).trans same).trans (List.perm_insertionSort _ ys).symm

/-- The members of a list, each once and in their order. -/
def sortedSet (xs : List α) : List α := xs.dedup.insertionSort (· ≤ ·)

@[simp] theorem mem_sortedSet : a ∈ sortedSet xs ↔ a ∈ xs := by
  rw [sortedSet, List.mem_insertionSort, List.mem_dedup]

theorem nodup_sortedSet : (sortedSet xs).Nodup := by
  rw [sortedSet, (List.perm_insertionSort _ _).nodup_iff]
  exact xs.nodup_dedup

/-- **Lists with the same members** are listed alike. -/
theorem sortedSet_eq_iff : sortedSet xs = sortedSet ys ↔ ∀ a, a ∈ xs ↔ a ∈ ys := by
  constructor
  · intro same a
    rw [← mem_sortedSet, same, mem_sortedSet]
  · intro same
    apply insertionSort_eq_of_perm
    refine (List.perm_ext_iff_of_nodup xs.nodup_dedup ys.nodup_dedup).mpr fun a => ?_
    rw [List.mem_dedup, List.mem_dedup, same]

end Sorted

/-! ### Means and medians -/

variable {values values' : List ℚ}

/-- The mean of some values, if there are any. -/
def mean (values : List ℚ) : Option ℚ :=
  if values.isEmpty then none else some (values.sum / values.length)

/-- The value in the middle of the sorted ones, or half the sum of the two that are there. -/
def median (values : List ℚ) : Option ℚ :=
  let data := values.insertionSort (· ≤ ·)
  if data.length % 2 = 1 then data[data.length / 2]?
  else do
    let below ← data[data.length / 2 - 1]?
    let above ← data[data.length / 2]?
    return (below + above) / 2

/-- **The mean of negated values** is the negated mean. -/
theorem mean_map_neg (values : List ℚ) : mean (values.map Neg.neg) = (mean values).map Neg.neg := by
  cases values with
  | nil => rfl
  | cons x rest =>
    have negated : ((x :: rest).map Neg.neg).sum = -(x :: rest).sum := (List.sum_neg _).symm
    rw [mean, mean, negated, List.length_map, neg_div]
    rfl

/-- Negated values are sorted the other way. -/
theorem insertionSort_map_neg (values : List ℚ) : (values.map Neg.neg).insertionSort (· ≤ ·) =
    ((values.insertionSort (· ≤ ·)).map Neg.neg).reverse := by
  apply List.Perm.eq_of_pairwise' (r := (· ≤ ·)) (List.pairwise_insertionSort _ _)
  · rw [List.pairwise_reverse, List.pairwise_map]
    exact (List.pairwise_insertionSort (· ≤ ·) values).imp neg_le_neg
  · refine (List.perm_insertionSort _ _).trans ?_
    exact (((List.perm_insertionSort _ values).map _).symm).trans (List.reverse_perm _).symm

/-- **The median of negated values** is the negated median. -/
theorem median_map_neg (values : List ℚ) :
    median (values.map Neg.neg) = (median values).map Neg.neg := by
  -- The place in the middle is the same from both ends, and the two places there are exchanged.
  simp only [median, insertionSort_map_neg, List.length_reverse, List.length_map]
  generalize values.insertionSort (· ≤ ·) = data
  by_cases odd : data.length % 2 = 1
  · rw [if_pos odd, if_pos odd, List.getElem?_reverse (by rw [List.length_map]; omega),
      List.getElem?_map, List.length_map]
    congr 2
    omega
  rw [if_neg odd, if_neg odd]
  by_cases empty : data = []
  · subst empty
    rfl
  have positive : 0 < data.length := List.length_pos_of_ne_nil empty
  have below := List.getElem?_eq_getElem (show data.length / 2 - 1 < data.length by omega)
  have above := List.getElem?_eq_getElem (show data.length / 2 < data.length by omega)
  have fromEnd : data.length - 1 - (data.length / 2 - 1) = data.length / 2 := by omega
  have fromEnd' : data.length - 1 - data.length / 2 = data.length / 2 - 1 := by omega
  rw [List.getElem?_reverse (by rw [List.length_map]; omega),
    List.getElem?_reverse (by rw [List.length_map]; omega), List.length_map, fromEnd, fromEnd',
    List.getElem?_map, List.getElem?_map, below, above]
  exact congrArg some (by ring)

end AgentLabs.Math
