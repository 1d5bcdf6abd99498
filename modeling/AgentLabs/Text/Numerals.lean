import AgentLabs.Text.PythonStr
import Mathlib.Algebra.Order.Group.Nat
import Mathlib.Data.String.Basic

/-!
# Numerals in the order of texts

Texts are ordered by their first difference, so `10` comes before `9`. In names that hold
a number and go on with a character below the digits, such as `v10.md`, a numeral comes
after the ones it continues, and otherwise the first different digit decides. The last of
the names up to a number is therefore not the one of the number itself, unless all digits
of the number but the last are nines.

## Main definitions

* `numeral`: a number as it is written
* `lastNumber`: the number whose name is the last of all up to a number

## Main results

* `numeral_append_lt`: a numeral comes before the ones that continue it
* `forall_numeral_le_iff`: the numbers whose name is the last of all up to them
* `numeral_le_lastNumber`: which name is the last, for every number
-/

namespace AgentLabs.Text

/-- `str(n)`, as characters. -/
def numeral (n : ℕ) : List Char := Nat.toDigits 10 n

theorem toList_toString (n : ℕ) : (toString n).toList = numeral n := by
  rw [Nat.toString_eq_ofList_toDigits, String.toList_ofList, numeral]

theorem isDigit_numeral {n : ℕ} {c : Char} (member : c ∈ numeral n) : c.isDigit :=
  Nat.isDigit_of_mem_toDigits (by decide) (by decide) member

theorem ofDigitChars_numeral (n : ℕ) : Nat.ofDigitChars 10 (numeral n) 0 = n := by
  simp [numeral]

theorem length_numeral_le_iff {n k : ℕ} (positive : 0 < k) : (numeral n).length ≤ k ↔ n < 10 ^ k :=
  Nat.length_toDigits_le_iff (by decide) positive

theorem length_numeral_pos (n : ℕ) : 0 < (numeral n).length := Nat.length_toDigits_pos

theorem lt_pow_length_numeral (n : ℕ) : n < 10 ^ (numeral n).length :=
  (length_numeral_le_iff (length_numeral_pos n)).mp le_rfl

/-- The length of a numeral, by the powers of ten it lies between. -/
theorem length_numeral_eq {n k : ℕ} (above : 10 ^ k ≤ n) (below : n < 10 ^ (k + 1)) :
    (numeral n).length = k + 1 := by
  refine le_antisymm ((length_numeral_le_iff k.succ_pos).mpr below) ?_
  by_contra short
  refine absurd (lt_pow_length_numeral n) (not_lt.mpr (le_trans ?_ above))
  exact Nat.pow_le_pow_right (by decide) (by omega)

theorem length_nines {k : ℕ} (positive : 0 < k) : (numeral (10 ^ k - 1)).length = k := by
  obtain ⟨k, rfl⟩ : ∃ l, k = l + 1 := ⟨k - 1, by omega⟩
  have power : 10 ^ (k + 1) = 10 ^ k * 10 := Nat.pow_succ 10 k
  have one : 0 < 10 ^ k := Nat.pow_pos (by decide)
  exact length_numeral_eq (by omega) (by omega)

/-- A number of several digits, and the same without the last one. -/
theorem numeral_of_ten_le {n : ℕ} (large : 10 ≤ n) :
    numeral n = numeral (n / 10) ++ [Nat.digitChar (n % 10)] :=
  Nat.toDigits_of_base_le (by decide) large

/-- Numerals of one length are ordered as the numbers. -/
theorem numeral_lt {m n : ℕ} (less : m < n) (same : (numeral m).length = (numeral n).length) :
    numeral m < numeral n := by
  refine lt_of_ofDigitChars_lt same (fun _ => isDigit_numeral) (fun _ => isDigit_numeral) ?_
  rwa [ofDigitChars_numeral, ofDigitChars_numeral]

/-- The last digits of a number can be split off. -/
theorem exists_numeral_div {n : ℕ} (k : ℕ) (large : 10 ^ k ≤ n) :
    ∃ last, numeral n = numeral (n / 10 ^ k) ++ last ∧ last.length = k := by
  induction k with
  | zero => exact ⟨[], by simp, rfl⟩
  | succ k ih =>
    rw [Nat.pow_succ] at large
    obtain ⟨last, split, long⟩ := ih (by omega)
    have more : 10 ≤ n / 10 ^ k := by
      rw [Nat.le_div_iff_mul_le (Nat.pow_pos (by decide)), Nat.mul_comm]
      exact large
    refine ⟨Nat.digitChar (n / 10 ^ k % 10) :: last, ?_, by rw [List.length_cons, long]⟩
    rw [split, numeral_of_ten_le more, Nat.div_div_eq_div_mul, Nat.pow_succ, List.append_assoc]
    rfl

section Names

variable {stop : Char} (ending : List Char)

/-- A numeral comes before the ones that continue it, if what follows is below the digits. -/
theorem numeral_append_lt (low : stop < '0') {m : ℕ} {last : List Char} (nonempty : last ≠ [])
    (digits : ∀ c ∈ last, c.isDigit) :
    numeral m ++ stop :: ending < numeral m ++ last ++ stop :: ending := by
  obtain ⟨digit, more, rfl⟩ := List.exists_cons_of_ne_nil nonempty
  have high : '0' ≤ digit := by
    have := digits digit List.mem_cons_self
    simp only [Char.isDigit, Bool.and_eq_true, decide_eq_true_eq] at this
    exact this.1
  rw [List.append_assoc]
  refine List.append_left_lt ?_
  exact List.cons_lt_cons_iff.mpr (.inl (lt_of_lt_of_le low high))

/-- The nines with one digit less come after a number that has not all nines before its last
digit. -/
theorem numeral_lt_nines {m k : ℕ} (several : 0 < k) (long : (numeral m).length = k + 1)
    (few : m + 10 < 10 ^ (k + 1)) :
    numeral m ++ stop :: ending < numeral (10 ^ k - 1) ++ stop :: ending := by
  have power : 10 ^ (k + 1) = 10 ^ k * 10 := Nat.pow_succ 10 k
  have large : 10 ^ k ≤ m := by
    rw [← not_lt, ← length_numeral_le_iff several]
    omega
  have ten : 10 ≤ 10 ^ k := Nat.le_self_pow several.ne' 10
  have split := numeral_of_ten_le (le_trans ten large)
  have front : (numeral (m / 10)).length = k := by
    have := congrArg List.length split
    rw [long, List.length_append, List.length_singleton] at this
    omega
  have less : numeral (m / 10) < numeral (10 ^ k - 1) :=
    numeral_lt (by omega) (front.trans (length_nines several).symm)
  rw [split, List.append_assoc]
  exact append_lt_append (front.trans (length_nines several).symm) less _ _

theorem exists_length_numeral {n : ℕ} (few : n + 10 < 10 ^ (numeral n).length) :
    ∃ k, 0 < k ∧ (numeral n).length = k + 1 := by
  have positive := length_numeral_pos n
  have several : (numeral n).length ≠ 1 := by
    intro single
    rw [single] at few
    omega
  exact ⟨(numeral n).length - 1, by omega, by omega⟩

/-- The last name up to a number is the one of the number exactly if all digits of the number
but the last are nines: there are less than ten numbers to come of as many digits. -/
theorem forall_numeral_le_iff (low : stop < '0') {n : ℕ} :
    (∀ m, 0 < m → m ≤ n → numeral m ++ stop :: ending ≤ numeral n ++ stop :: ending) ↔
      10 ^ (numeral n).length ≤ n + 10 := by
  constructor
  · intro last
    by_contra few
    obtain ⟨k, several, long⟩ := exists_length_numeral (not_le.mp few)
    rw [long, not_le] at few
    have ten : 10 ≤ 10 ^ k := Nat.le_self_pow several.ne' 10
    have large : 10 ^ k ≤ n := by
      rw [← not_lt, ← length_numeral_le_iff several]
      omega
    exact not_lt.mpr (last (10 ^ k - 1) (by omega) (by omega))
      (numeral_lt_nines ending several long few)
  · intro nines m positive below
    rcases Nat.lt_or_ge (numeral m).length (numeral n).length with shorter | same
    · -- The first digits of the number are nines, as many as the other has digits.
      obtain ⟨k, long⟩ : ∃ k, (numeral n).length = (numeral m).length + (k + 1) :=
        ⟨(numeral n).length - (numeral m).length - 1, by omega⟩
      have power : 10 ^ (numeral n).length = 10 ^ (k + 1) * 10 ^ (numeral m).length := by
        rw [long, Nat.add_comm, Nat.pow_add]
      have ten : 10 ≤ 10 ^ (k + 1) := Nat.le_self_pow k.succ_ne_zero 10
      have nonzero := lt_pow_length_numeral m
      have first : 10 ^ (numeral m).length - 1 ≤ n / 10 ^ (k + 1) := by
        rw [Nat.le_div_iff_mul_le (by omega), Nat.sub_mul, Nat.one_mul, Nat.mul_comm, ← power]
        omega
      have large : 10 ^ (k + 1) ≤ n := by
        have := Nat.mul_le_mul_left (10 ^ (k + 1))
          (Nat.succ_le_of_lt (lt_of_le_of_lt positive nonzero))
        omega
      obtain ⟨last, split, count⟩ := exists_numeral_div (k + 1) large
      have same : (numeral m).length = (numeral (n / 10 ^ (k + 1))).length := by
        have := congrArg List.length split
        rw [List.length_append] at this
        omega
      have digits : ∀ c ∈ last, c.isDigit := fun c member =>
        isDigit_numeral (split ▸ List.mem_append_right _ member)
      rw [split]
      rcases Nat.lt_or_ge m (n / 10 ^ (k + 1)) with less | equal
      · rw [List.append_assoc]
        exact le_of_lt (append_lt_append same (numeral_lt less same) _ _)
      · obtain rfl : m = n / 10 ^ (k + 1) := le_antisymm (by omega) equal
        refine le_of_lt (numeral_append_lt ending low ?_ digits)
        exact List.ne_nil_of_length_pos (by omega)
    · rcases Nat.lt_or_eq_of_le below with less | rfl
      · have equal : (numeral m).length = (numeral n).length := by
          refine le_antisymm ?_ same
          exact (length_numeral_le_iff (length_numeral_pos n)).mpr
            (less.trans (lt_pow_length_numeral n))
        exact le_of_lt (append_lt_append equal (numeral_lt less equal) _ _)
      · exact le_rfl

/-- The number whose name is the last of all up to a number. -/
def lastNumber (n : ℕ) : ℕ :=
  if 10 ^ (numeral n).length ≤ n + 10 then n else 10 ^ ((numeral n).length - 1) - 1

theorem lastNumber_eq_iff {n : ℕ} : lastNumber n = n ↔ 10 ^ (numeral n).length ≤ n + 10 := by
  unfold lastNumber
  split_ifs with nines
  · simp [nines]
  · refine iff_of_false (fun equal => ?_) nines
    obtain ⟨k, several, long⟩ := exists_length_numeral (not_le.mp nines)
    have more := lt_pow_length_numeral n
    have same := length_nines several
    rw [long, Nat.add_sub_cancel] at equal
    rw [equal, long] at same
    omega

theorem lastNumber_le (n : ℕ) : lastNumber n ≤ n := by
  unfold lastNumber
  split_ifs with nines
  · exact le_rfl
  · obtain ⟨k, several, long⟩ := exists_length_numeral (not_le.mp nines)
    rw [long, Nat.add_sub_cancel]
    have large : 10 ^ k ≤ n := by
      rw [← not_lt, ← length_numeral_le_iff several]
      omega
    omega

theorem lastNumber_pos {n : ℕ} (positive : 0 < n) : 0 < lastNumber n := by
  unfold lastNumber
  split_ifs with nines
  · exact positive
  · obtain ⟨k, several, long⟩ := exists_length_numeral (not_le.mp nines)
    have ten : 10 ≤ 10 ^ k := Nat.le_self_pow several.ne' 10
    rw [long, Nat.add_sub_cancel]
    omega

theorem numeral_le_lastNumber (low : stop < '0') {m n : ℕ} (positive : 0 < m) (below : m ≤ n) :
    numeral m ++ stop :: ending ≤ numeral (lastNumber n) ++ stop :: ending := by
  unfold lastNumber
  split_ifs with nines
  · exact (forall_numeral_le_iff ending low).mpr nines m positive below
  · obtain ⟨k, several, long⟩ := exists_length_numeral (not_le.mp nines)
    rw [long] at nines ⊢
    rw [Nat.add_sub_cancel]
    rcases Nat.lt_or_ge m (10 ^ k) with short | large
    · refine (forall_numeral_le_iff ending low).mpr ?_ m positive (by omega)
      rw [length_nines several]
      omega
    · have same : (numeral m).length = k + 1 := by
        refine length_numeral_eq large (lt_of_le_of_lt below ?_)
        rw [← long]
        exact lt_pow_length_numeral n
      exact le_of_lt (numeral_lt_nines ending several same (by omega))

end Names

end AgentLabs.Text
