import Mathlib.Data.List.Infix
import Mathlib.Data.Int.Basic

/-!
# Slices

A slice of a list is given by two indices, which may be negative, and then count from the end, or
beyond the list, where they mean its ends.

## Main definitions

* `sliceIndex`: where an index is
* `pySlice`: the elements between two indices

## Main results

* `pySlice_eq`: a slice begins where its first index is
* `length_pySlice_le`: a slice from a negative index is not longer than the index says
-/

namespace AgentLabs.Math

/-- Where an index is in a list of a length. -/
def sliceIndex (length : ℕ) (i : ℤ) : ℕ := if i < 0 then (length + i).toNat else min i.toNat length

variable {α : Type*} {xs : List α} {start stop : ℤ} {length : ℕ} {i : ℤ}

/-- `xs[start:stop]`. -/
def pySlice (xs : List α) (start stop : ℤ) : List α :=
  (xs.take (sliceIndex xs.length stop)).drop (sliceIndex xs.length start)

theorem sliceIndex_le (length : ℕ) (i : ℤ) : sliceIndex length i ≤ length := by
  unfold sliceIndex
  split_ifs <;> omega

theorem sliceIndex_of_le (positive : 0 ≤ i) (inside : i ≤ length) :
    (sliceIndex length i : ℤ) = i := by
  unfold sliceIndex
  split_ifs <;> omega

/-- A slice begins where its first index is. -/
theorem pySlice_eq (xs : List α) (start stop : ℤ) : pySlice xs start stop =
    (xs.drop (sliceIndex xs.length start)).take
    (sliceIndex xs.length stop - sliceIndex xs.length start) := by
  rw [pySlice, List.drop_take]

/-- A slice between two indices of the list. -/
theorem pySlice_of_le (positive : 0 ≤ start) (ordered : start ≤ stop) (inside : stop ≤ xs.length) :
    pySlice xs start stop = (xs.drop start.toNat).take (stop - start).toNat := by
  have first : (sliceIndex xs.length start : ℤ) = start := sliceIndex_of_le positive (by omega)
  have last : (sliceIndex xs.length stop : ℤ) = stop := sliceIndex_of_le (by omega) inside
  rw [pySlice_eq]
  congr 1
  · omega
  · congr 1
    omega

theorem length_pySlice (xs : List α) (start stop : ℤ) :
    (pySlice xs start stop).length = sliceIndex xs.length stop - sliceIndex xs.length start := by
  rw [pySlice, List.length_drop, List.length_take, Nat.min_eq_left (sliceIndex_le _ _)]

/-- **A slice from a negative index** has at most as many elements as the index counts. -/
theorem length_pySlice_le (negative : start < 0) :
    ((pySlice xs start stop).length : ℤ) ≤ -start := by
  have bound := sliceIndex_le xs.length stop
  have first : sliceIndex xs.length start = (xs.length + start).toNat := if_pos negative
  rw [length_pySlice, first]
  omega

end AgentLabs.Math
