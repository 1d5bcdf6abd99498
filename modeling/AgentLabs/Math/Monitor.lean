import Mathlib.Data.List.Basic
import Mathlib.Data.List.Induction

/-!
# Monitors

A monitor goes through the events of a run, carries a state from one to the next, and
may raise an exception. What it knows at a point of the run is what the events before
that point have left in its state: a fact that some events grant and others revoke
stands if it was granted and not revoked since.

## Main definitions

* `Standing`: granted by some event, and by none since revoked

## Main results

* `standing_concat`: what one more event does to a standing fact
* `foldlM_append_eq_ok_iff`, `foldlM_around_eq_ok_iff`: a monitor at a point of the run
* `standing_of_tracked`: a monitor that follows the grants and revocations of a fact
  knows whether it stands
-/

namespace AgentLabs.Math

universe u

variable {α σ ε : Type*}

/-! ### Exceptions -/

/-- A sequence goes on with the value of its first part. -/
theorem ok_bind {β γ : Type u} (b : β) (f : β → Except ε γ) : Except.ok b >>= f = f b := rfl

/-- A sequence ends well exactly if both parts do. -/
theorem bind_eq_ok_iff {β γ : Type u} {x : Except ε β} {f : β → Except ε γ} {c : γ} :
    x >>= f = .ok c ↔ ∃ b, x = .ok b ∧ f b = .ok c := by
  cases x with
  | error e =>
    constructor
    · intro h
      cases h
    · rintro ⟨b, h, -⟩
      cases h
  | ok b =>
    constructor
    · intro h
      exact ⟨b, rfl, h⟩
    · rintro ⟨b', h, later⟩
      cases h
      exact later

variable {step : σ → α → Except ε σ} {s t : σ}

theorem foldlM_append_eq_ok_iff {before after : List α} :
    (before ++ after).foldlM step s = .ok t ↔
      ∃ u, before.foldlM step s = .ok u ∧ after.foldlM step u = .ok t := by
  rw [List.foldlM_append, bind_eq_ok_iff]

theorem foldlM_cons_eq_ok_iff {a : α} {rest : List α} :
    (a :: rest).foldlM step s = .ok t ↔ ∃ u, step s a = .ok u ∧ rest.foldlM step u = .ok t := by
  rw [List.foldlM_cons, bind_eq_ok_iff]

/-- The state of a monitor before and after an event of the run. -/
theorem foldlM_around_eq_ok_iff {before after : List α} {a : α} :
    (before ++ a :: after).foldlM step s = .ok t ↔ ∃ u v, before.foldlM step s = .ok u ∧
      step u a = .ok v ∧ after.foldlM step v = .ok t := by
  simp only [foldlM_append_eq_ok_iff, foldlM_cons_eq_ok_iff]
  constructor
  · rintro ⟨u, first, v, here, last⟩
    exact ⟨u, v, first, here, last⟩
  · rintro ⟨u, v, first, here, last⟩
    exact ⟨u, first, v, here, last⟩

/-- What every step of a monitor keeps holds at its end. -/
theorem foldlM_kept {P : σ → Prop} {events : List α}
    (keeps : ∀ s a t, step s a = .ok t → P s → P t) (ran : events.foldlM step s = .ok t)
    (start : P s) : P t := by
  induction events generalizing s with
  | nil =>
    cases ran
    exact start
  | cons a rest ih =>
    obtain ⟨u, here, later⟩ := foldlM_cons_eq_ok_iff.mp ran
    exact ih later (keeps _ _ _ here start)

/-! ### Standing facts -/

/-- Some event grants, and no later one revokes. -/
def Standing (grants revokes : α → Prop) (events : List α) : Prop :=
  ∃ before a after, events = before ++ a :: after ∧ grants a ∧ ∀ b ∈ after, ¬ revokes b

variable {grants revokes : α → Prop}

theorem not_standing_nil : ¬ Standing grants revokes ([] : List α) := by
  rintro ⟨before, a, after, split, -⟩
  simp at split

/-- One more event grants the fact, or leaves it standing by not revoking it. -/
theorem standing_concat {events : List α} {a : α} :
    Standing grants revokes (events ++ [a]) ↔
      grants a ∨ Standing grants revokes events ∧ ¬ revokes a := by
  constructor
  · rintro ⟨before, b, after, split, granted, kept⟩
    rcases List.eq_nil_or_concat after with rfl | ⟨middle, last, rfl⟩
    · obtain ⟨-, same⟩ := List.append_inj' split rfl
      obtain rfl := List.singleton_inj.mp same
      exact .inl granted
    · rw [List.concat_eq_append, ← List.cons_append, ← List.append_assoc] at split
      obtain ⟨rfl, same⟩ := List.append_inj' split rfl
      obtain rfl := List.singleton_inj.mp same
      simp only [List.concat_eq_append, List.mem_append, List.mem_singleton] at kept
      exact .inr ⟨⟨before, b, middle, rfl, granted, fun c h => kept c (.inl h)⟩,
        kept a (.inr rfl)⟩
  · rintro (granted | ⟨⟨before, b, after, rfl, granted, kept⟩, unrevoked⟩)
    · exact ⟨events, a, [], rfl, granted, by simp⟩
    · refine ⟨before, b, after ++ [a], by simp, granted, fun c member => ?_⟩
      rcases List.mem_append.mp member with old | new
      · exact kept c old
      · rwa [List.mem_singleton.mp new]

/-- What is never revoked stands once it was granted. -/
theorem standing_false_iff {events : List α} :
    Standing grants (fun _ => False) events ↔ ∃ a ∈ events, grants a := by
  constructor
  · rintro ⟨before, a, after, rfl, granted, -⟩
    exact ⟨a, by simp, granted⟩
  · rintro ⟨a, member, granted⟩
    obtain ⟨before, after, rfl⟩ := List.append_of_mem member
    exact ⟨before, a, after, rfl, granted, fun _ _ => id⟩

/-- **A monitor that follows the grants and revocations of a fact knows whether it
stands.** -/
theorem standing_of_tracked {P : σ → Prop} {events : List α}
    (tracks : ∀ s a t, step s a = .ok t → (P t ↔ grants a ∨ P s ∧ ¬ revokes a))
    (start : ¬ P s) (ran : events.foldlM step s = .ok t) :
    P t ↔ Standing grants revokes events := by
  induction events using List.reverseRecOn generalizing t with
  | nil =>
    cases ran
    exact iff_of_false start not_standing_nil
  | append_singleton events a ih =>
    obtain ⟨u, first, last⟩ := foldlM_append_eq_ok_iff.mp ran
    obtain ⟨v, here, stop⟩ := foldlM_cons_eq_ok_iff.mp last
    cases stop
    rw [tracks _ _ _ here, standing_concat, ih first]

end AgentLabs.Math
