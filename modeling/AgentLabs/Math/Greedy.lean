import Mathlib.Data.List.MinMax
import Mathlib.Data.List.Perm.Subperm

/-!
# Greedy choices

Items are chosen one after the other. The best of those that remain is taken if it fits in with what
was chosen before, and is given up otherwise; what is best may depend on what was chosen. Where an
item that does not fit never fits again, the choice is such that nothing more fits, and each item
that was taken was at its time the best of all that fitted.

## Main definitions

* `greedy`: the loop
* `IsGreedy`: what is true of its result

## Main results

* `isGreedy_greedy`: the loop comes to a greedy choice
-/

namespace AgentLabs.Math

variable {α β : Type*} [LinearOrder β]

/-- The loop, with what remains and what was chosen. Each round takes one item, so as many rounds
as there are items are enough. -/
def greedy [DecidableEq α] (score : List α → α → β) (fits : List α → α → Bool) :
    ℕ → List α → List α → List α
  | 0, _, chosen => chosen
  | n + 1, remaining, chosen =>
    match remaining.argmax (score chosen) with
    | none => chosen
    | some best =>
      if fits chosen best then greedy score fits n (remaining.erase best) (chosen ++ [best])
      else greedy score fits n (remaining.erase best) chosen

/-- A greedy choice of the items. -/
structure IsGreedy (score : List α → α → β) (fits : List α → α → Bool) (items chosen : List α) :
    Prop where
  subperm : chosen.Subperm items
  maximal : ∀ a ∈ items, a ∈ chosen ∨ fits chosen a = false
  fitted : ∀ before a after, chosen = before ++ a :: after → fits before a
  best : ∀ before a after, chosen = before ++ a :: after →
    ∀ b ∈ items, b ∉ before → fits before b → score before b ≤ score before a

/-- What is true on the way: each item was chosen, remains, or does not fit. -/
structure GreedySoFar (score : List α → α → β) (fits : List α → α → Bool)
    (items remaining chosen : List α) : Prop where
  subperm : (chosen ++ remaining).Subperm items
  left : ∀ a ∈ items, a ∈ chosen ∨ a ∈ remaining ∨ fits chosen a = false
  fitted : ∀ before a after, chosen = before ++ a :: after → fits before a
  best : ∀ before a after, chosen = before ++ a :: after →
    ∀ b ∈ items, b ∉ before → fits before b → score before b ≤ score before a

variable {score : List α → α → β} {fits : List α → α → Bool} {items remaining chosen : List α}

/-- An item of a list with one more is that one, after all others, or it is one of the others. -/
theorem of_concat_eq_append_cons {last a : α} {before after : List α}
    (split : chosen ++ [last] = before ++ a :: after) :
    (before = chosen ∧ a = last) ∨ ∃ rest, chosen = before ++ a :: rest := by
  rcases List.eq_nil_or_concat after with rfl | ⟨rest, b, rfl⟩
  · obtain ⟨same, here⟩ := List.append_inj' split rfl
    exact .inl ⟨same.symm, (List.singleton_inj.mp here).symm⟩
  · rw [List.concat_eq_append, ← List.cons_append, ← List.append_assoc] at split
    exact .inr ⟨rest, (List.append_inj' split rfl).1⟩

namespace GreedySoFar

theorem start : GreedySoFar score fits items items [] where
  subperm := List.Subperm.refl _
  left a member := .inr (.inl member)
  fitted before a after none := by simp at none
  best before a after none := by simp at none

/-- Where nothing remains, the choice is greedy. -/
theorem isGreedy (h : GreedySoFar score fits items [] chosen) :
    IsGreedy score fits items chosen where
  subperm := List.append_nil chosen ▸ h.subperm
  maximal a member := (h.left a member).imp_right fun rest =>
    rest.resolve_left List.not_mem_nil
  fitted := h.fitted
  best := h.best

variable [DecidableEq α] {best : α}

/-- The best item does not fit. -/
theorem give_up (h : GreedySoFar score fits items remaining chosen)
    (large : fits chosen best = false) :
    GreedySoFar score fits items (remaining.erase best) chosen where
  subperm := (List.Subperm.trans
    ((List.subperm_append_left chosen).mpr List.erase_sublist.subperm) h.subperm)
  left a member := by
    rcases h.left a member with done | waits | given
    · exact .inl done
    · by_cases same : a = best
      · exact .inr (.inr (same ▸ large))
      · exact .inr (.inl ((List.mem_erase_of_ne same).mpr waits))
    · exact .inr (.inr given)
  fitted := h.fitted
  best := h.best

/-- The best item fits. -/
theorem take (h : GreedySoFar score fits items remaining chosen)
    (antitone : ∀ chosen more a, fits (chosen ++ more) a → fits chosen a)
    (isBest : best ∈ remaining.argmax (score chosen)) (small : fits chosen best) :
    GreedySoFar score fits items (remaining.erase best) (chosen ++ [best]) where
  subperm := by
    have same : (chosen ++ [best] ++ remaining.erase best).Perm (chosen ++ remaining) := by
      rw [List.append_assoc]
      exact (List.perm_cons_erase (List.argmax_mem isBest)).symm.append_left chosen
    exact same.subperm.trans h.subperm
  left a member := by
    rcases h.left a member with done | waits | given
    · exact .inl (List.mem_append_left _ done)
    · by_cases same : a = best
      · exact .inl (List.mem_append_right _ (List.mem_singleton.mpr same))
      · exact .inr (.inl ((List.mem_erase_of_ne same).mpr waits))
    · -- What did not fit before does not fit now.
      refine .inr (.inr (Bool.eq_false_iff.mpr fun now => ?_))
      rw [antitone chosen [best] a now] at given
      cases given
  fitted before a after split := by
    rcases of_concat_eq_append_cons split with ⟨rfl, rfl⟩ | ⟨rest, earlier⟩
    · exact small
    · exact h.fitted before a rest earlier
  best before a after split b member fresh room := by
    rcases of_concat_eq_append_cons split with ⟨rfl, rfl⟩ | ⟨rest, earlier⟩
    -- An item that was given up does not fit, and one that waits is not better than the best.
    · rcases h.left b member with done | waits | given
      · exact absurd done fresh
      · exact List.le_of_mem_argmax waits isBest
      · rw [room] at given
        cases given
    · exact h.best before a rest earlier b member fresh room

end GreedySoFar

/-- **The loop comes to a greedy choice**, if what does not fit never fits again. -/
theorem isGreedy_greedy [DecidableEq α] (score : List α → α → β)
    (antitone : ∀ chosen more a, fits (chosen ++ more) a → fits chosen a) (items : List α) :
    IsGreedy score fits items (greedy score fits items.length items []) := by
  have loop (n : ℕ) {remaining chosen : List α} (enough : remaining.length ≤ n)
      (h : GreedySoFar score fits items remaining chosen) :
      IsGreedy score fits items (greedy score fits n remaining chosen) := by
    -- Each turn takes one item out of those that remain, so as many turns as items are enough.
    induction n generalizing remaining chosen with
    | zero =>
      obtain rfl := List.length_eq_zero_iff.mp (Nat.le_zero.mp enough)
      exact h.isGreedy
    | succ n ih =>
      rw [greedy]
      cases found : remaining.argmax (score chosen) with
      | none =>
        obtain rfl := List.argmax_eq_none.mp found
        exact h.isGreedy
      | some best =>
        have shorter : (remaining.erase best).length ≤ n := by
          rw [List.length_erase_of_mem (List.argmax_mem found)]
          omega
        dsimp only
        split_ifs with small
        · exact ih shorter (h.take antitone found small)
        · exact ih shorter (h.give_up (Bool.eq_false_iff.mpr small))
  exact loop items.length le_rfl .start

end AgentLabs.Math
