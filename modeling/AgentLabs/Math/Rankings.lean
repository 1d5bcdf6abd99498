import AgentLabs.Math.Grouping
import Mathlib.Algebra.BigOperators.Group.List.Basic
import Mathlib.Data.List.Sort
import Mathlib.Data.String.Basic

/-!
# Rankings

A ranking is a list of keys, the best one first. A key that is repeated is ranked where it is first,
and one that is absent comes after all that are there; so the rank of a key is its first index in
the list.

Sums under keys are gathered in a dictionary, and keys are listed by their scores, the highest one
first and keys of one score by themselves.

## Main definitions

* `Dict.accumulate`: the sums of the amounts under the keys
* `byScore`: keys in the order of their scores

## Main results

* `idxOf_eraseDups_lt`: a ranking without its repetitions has the keys in the same order
* `Dict.getD_accumulate`: the sum under a key
* `byScore_eq_iff`: the order of the scores determines the list
-/

namespace AgentLabs.Math

/-! ### Ranks -/

section Ranks

variable {κ : Type*} [DecidableEq κ] {a b : κ} {l : List κ}

theorem idxOf_cons_lt_iff {x : κ} :
    (x :: l).idxOf a < (x :: l).idxOf b ↔ x ≠ b ∧ (x = a ∨ l.idxOf a < l.idxOf b) := by
  by_cases first : x = b
  · subst first
    rw [List.idxOf_cons_self]
    exact iff_of_false (Nat.not_lt_zero _) fun both => both.1 rfl
  rw [List.idxOf_cons_ne _ first, and_iff_right first]
  by_cases same : x = a
  · subst same
    rw [List.idxOf_cons_self]
    exact iff_of_true (Nat.succ_pos _) (.inl rfl)
  · rw [List.idxOf_cons_ne _ same, or_iff_right same]
    exact Nat.succ_lt_succ_iff

/-- A key that is before another stays there when others are left out. -/
theorem idxOf_filter_lt {p : κ → Bool} (ha : p a) (before : l.idxOf a < l.idxOf b) :
    (l.filter p).idxOf a < (l.filter p).idxOf b := by
  induction l with
  | nil => cases before
  | cons x rest ih =>
    obtain ⟨other, first⟩ := idxOf_cons_lt_iff.mp before
    by_cases kept : p x
    · rw [List.filter_cons_of_pos kept, idxOf_cons_lt_iff]
      exact ⟨other, first.imp id ih⟩
    · rw [List.filter_cons_of_neg kept]
      apply ih
      apply first.resolve_left
      rintro rfl
      exact kept ha

/-- **A ranking without its repetitions** has the keys in the same order. -/
theorem idxOf_eraseDups_lt :
    ∀ l : List κ, l.idxOf a < l.idxOf b → l.eraseDups.idxOf a < l.eraseDups.idxOf b
  | [], before => before
  | x :: rest, before => by
    obtain ⟨other, first⟩ := idxOf_cons_lt_iff.mp before
    rw [List.eraseDups_cons, idxOf_cons_lt_iff]
    refine ⟨other, (em (x = a)).imp id fun same => ?_⟩
    apply idxOf_eraseDups_lt
    exact idxOf_filter_lt (by simpa using Ne.symm same) (first.resolve_left same)
termination_by l => l.length
decreasing_by exact Nat.lt_succ_of_le (List.length_filter_le _ _)

theorem nodup_eraseDups (l : List κ) : l.eraseDups.Nodup := by
  cases l with
  | nil => exact List.nodup_nil
  | cons x rest =>
    rw [List.eraseDups_cons, List.nodup_cons]
    refine ⟨?_, nodup_eraseDups _⟩
    simp
termination_by l.length
decreasing_by
  exact Nat.lt_succ_of_le (List.length_filter_le (fun y => !y == x) rest)

end Ranks

/-! ### Sums under keys -/

namespace Dict

variable {κ ν : Type*} [DecidableEq κ] [AddCommMonoid ν] {d : Dict κ ν}
  {entries : List (κ × ν)} {k : κ}

/-- Add each amount to what its key has so far. -/
def accumulate (d : Dict κ ν) (entries : List (κ × ν)) : Dict κ ν :=
  entries.foldl (fun d entry => d.set entry.1 ((d.get? entry.1).getD 0 + entry.2)) d

theorem accumulate_cons (d : Dict κ ν) (entry : κ × ν) (rest : List (κ × ν)) :
    d.accumulate (entry :: rest) =
      (d.set entry.1 ((d.get? entry.1).getD 0 + entry.2)).accumulate rest := rfl

/-- **The sum under a key.** -/
theorem getD_accumulate (d : Dict κ ν) (entries : List (κ × ν)) (k : κ) :
    ((d.accumulate entries).get? k).getD 0 =
      (d.get? k).getD 0 + ((entries.filter fun entry => entry.1 = k).map Prod.snd).sum := by
  induction entries generalizing d with
  | nil => exact (add_zero _).symm
  | cons entry rest ih =>
    rw [accumulate_cons, ih, get?_set]
    by_cases same : entry.1 = k
    · subst same
      simp [add_assoc]
    · simp [same]

theorem mem_keys_accumulate :
    k ∈ (d.accumulate entries).keys ↔ k ∈ d.keys ∨ k ∈ entries.map Prod.fst := by
  induction entries generalizing d with
  | nil => simp [accumulate]
  | cons entry rest ih =>
    rw [accumulate_cons, ih, mem_keys_set, List.map_cons, List.mem_cons]
    tauto

theorem KeysNodup.accumulate (nodup : d.KeysNodup) (entries : List (κ × ν)) :
    (d.accumulate entries).KeysNodup := by
  induction entries generalizing d with
  | nil => exact nodup
  | cons entry rest ih => exact ih nodup.set

end Dict

/-! ### Keys by their scores -/

section Scores

variable {κ ν : Type*} [LinearOrder κ] [LinearOrder ν] {score : κ → ν} {keys keys' : List κ}

/-- The higher score comes first, and of one score the lower key. -/
def ScoreLe (score : κ → ν) (a b : κ) : Prop := score b < score a ∨ score a = score b ∧ a ≤ b

instance (score : κ → ν) : DecidableRel (ScoreLe score) := fun a b =>
  inferInstanceAs (Decidable (score b < score a ∨ score a = score b ∧ a ≤ b))

/-- `sorted(keys, key=lambda key: (-score(key), key))`. -/
def byScore (score : κ → ν) (keys : List κ) : List κ := keys.insertionSort (ScoreLe score)

theorem ScoreLe.antisymm {a b : κ} (h : ScoreLe score a b) (h' : ScoreLe score b a) : a = b := by
  rcases h with first | ⟨same, first⟩
  · rcases h' with second | ⟨same, -⟩
    · exact absurd first second.asymm
    · exact absurd same first.ne
  · rcases h' with second | ⟨-, second⟩
    · exact absurd same second.ne
    · exact le_antisymm first second

theorem perm_byScore (score : κ → ν) (keys : List κ) : (byScore score keys).Perm keys :=
  List.perm_insertionSort _ _

theorem pairwise_byScore (score : κ → ν) (keys : List κ) :
    (byScore score keys).Pairwise (ScoreLe score) := by
  have total : Std.Total (ScoreLe score) := by
    refine ⟨fun a b => ?_⟩
    rcases lt_trichotomy (score a) (score b) with lower | same | higher
    · exact .inr (.inl lower)
    · exact (le_total a b).imp (fun le => .inr ⟨same, le⟩) fun le => .inr ⟨same.symm, le⟩
    · exact .inl (.inl higher)
  have trans : IsTrans κ (ScoreLe score) := by
    refine ⟨fun a b c => ?_⟩
    rintro (first | ⟨same, first⟩) (second | ⟨same', second⟩)
    · exact .inl (second.trans first)
    · exact .inl (same' ▸ first)
    · exact .inl (same ▸ second)
    · exact .inr ⟨same.trans same', first.trans second⟩
  exact List.pairwise_insertionSort _ _

/-- Keys are listed alike by scores that are alike. -/
theorem byScore_eq {score' : κ → ν} (scores : score = score') (perm : keys.Perm keys') :
    byScore score keys = byScore score' keys' := by
  subst scores
  refine ((perm_byScore score keys).trans
    (perm.trans (perm_byScore score keys').symm)).eq_of_pairwise
    (fun a b _ _ ab ba => ab.antisymm ba) (pairwise_byScore score keys)
      (pairwise_byScore score keys')

/-- A key is before those of lower scores. -/
theorem idxOf_byScore_lt {a b : κ} (ha : a ∈ keys) (higher : score b < score a) :
    (byScore score keys).idxOf a < (byScore score keys).idxOf b := by
  have listed : a ∈ byScore score keys := (perm_byScore score keys).mem_iff.mpr ha
  have position := List.idxOf_lt_length_of_mem listed
  by_contra notBefore
  have inside : (byScore score keys).idxOf b < (byScore score keys).length := by omega
  have differ : (byScore score keys).idxOf b ≠ (byScore score keys).idxOf a := by
    intro same
    obtain rfl := (List.idxOf_inj (List.idxOf_lt_length_iff.mp inside)).mp same
    exact lt_irrefl _ higher
  -- The other key would be before, and so of no lower score.
  have order := List.pairwise_iff_getElem.mp (pairwise_byScore score keys) _ _ inside
    position (by omega)
  rw [List.getElem_idxOf, List.getElem_idxOf] at order
  rcases order with lower | ⟨same, -⟩
  · exact lower.asymm higher
  · exact higher.ne same

end Scores

end AgentLabs.Math
