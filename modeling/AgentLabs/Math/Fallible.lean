import AgentLabs.Math.Monitor
import Mathlib.Data.List.Forall2
import Mathlib.Data.List.Perm.Basic

/-!
# Lists of computations that may fail

A computation is made for each element of a list, one after the other, and the first that fails
ends the whole. All of them together end well exactly if each one does.

## Main results

* `mapM_eq_ok_iff`, `mapM_eq_some_iff`: the results of the elements
* `exists_ok_of_any_toOption`: a result that can be computed
* `forM_eq_ok_iff`: checks of the elements
* `ite_throw_eq_ok_iff`: a check before a computation
* `foldlM_induction`: what every step of a run keeps, of the elements so far
-/

namespace AgentLabs.Math

universe u

variable {α : Type*} {ε : Type*} {β : Type u} {f : α → Except ε β} {as : List α}

/-- Lists that go together have a partner for each element. -/
theorem exists_right_of_forall₂ {γ : Type*} {R : α → γ → Prop} {bs : List γ}
    (pairs : List.Forall₂ R as bs) {a : α} (member : a ∈ as) : ∃ b ∈ bs, R a b := by
  induction pairs with
  | nil => cases member
  | @cons a b as bs first rest ih =>
    rcases List.mem_cons.mp member with rfl | later
    · exact ⟨b, .head _, first⟩
    · obtain ⟨b, listed, found⟩ := ih later
      exact ⟨b, .tail _ listed, found⟩

theorem exists_left_of_forall₂ {γ : Type*} {R : α → γ → Prop} {bs : List γ}
    (pairs : List.Forall₂ R as bs) {b : γ} (member : b ∈ bs) : ∃ a ∈ as, R a b :=
  exists_right_of_forall₂ (R := fun b a => R a b) pairs.flip member

/-- What can be decided of a result, by a run of the computation. -/
theorem exists_ok_of_any_toOption {x : Except ε α} {p : α → Prop} [DecidablePred p]
    (ran : x.toOption.any (fun a => decide (p a)) = true) : ∃ a, x = .ok a ∧ p a := by
  cases x with
  | error e => cases ran
  | ok a => exact ⟨a, rfl, of_decide_eq_true ran⟩

/-- **All computations end well** if each does, with its own result. -/
theorem mapM_eq_ok_iff {bs : List β} :
    as.mapM f = .ok bs ↔ List.Forall₂ (fun a b => f a = .ok b) as bs := by
  induction as generalizing bs with
  | nil =>
    rw [List.mapM_nil, List.forall₂_nil_left_iff]
    exact ⟨fun same => (Except.ok.inj same).symm, fun empty => congrArg _ empty.symm⟩
  | cons a as ih =>
    rw [List.mapM_cons, List.forall₂_cons_left_iff, bind_eq_ok_iff]
    refine exists_congr fun b => ?_
    rw [bind_eq_ok_iff]
    constructor
    · rintro ⟨first, bs', rest, same⟩
      cases same
      exact ⟨bs', first, ih.mp rest, rfl⟩
    · rintro ⟨bs', first, rest, rfl⟩
      exact ⟨first, bs', ih.mpr rest, rfl⟩

theorem exists_mapM_ok (each : ∀ a ∈ as, ∃ b, f a = .ok b) : ∃ bs, as.mapM f = .ok bs := by
  induction as with
  | nil => exact ⟨[], mapM_eq_ok_iff.mpr .nil⟩
  | cons a as ih =>
    obtain ⟨b, first⟩ := each a (.head _)
    obtain ⟨bs, rest⟩ := ih fun a' later => each a' (.tail _ later)
    exact ⟨b :: bs, mapM_eq_ok_iff.mpr (.cons first (mapM_eq_ok_iff.mp rest))⟩

/-- All elements have a value if each does, with its own value. -/
theorem mapM_eq_some_iff {g : α → Option β} {bs : List β} :
    as.mapM g = some bs ↔ List.Forall₂ (fun a b => g a = some b) as bs := by
  induction as generalizing bs with
  | nil =>
    rw [List.mapM_nil, List.forall₂_nil_left_iff]
    exact ⟨fun same => (Option.some.inj same).symm, fun empty => congrArg _ empty.symm⟩
  | cons a as ih =>
    rw [List.mapM_cons, List.forall₂_cons_left_iff, Option.bind_eq_bind, Option.bind_eq_some_iff]
    refine exists_congr fun b => ?_
    rw [Option.bind_eq_bind, Option.bind_eq_some_iff]
    constructor
    · rintro ⟨first, bs', rest, same⟩
      cases same
      exact ⟨bs', first, ih.mp rest, rfl⟩
    · rintro ⟨bs', first, rest, rfl⟩
      exact ⟨first, bs', ih.mpr rest, rfl⟩

theorem exists_of_mapM_eq_ok {bs : List β} (ok : as.mapM f = .ok bs) {a : α} (member : a ∈ as) :
    ∃ b ∈ bs, f a = .ok b := exists_right_of_forall₂ (mapM_eq_ok_iff.mp ok) member

/-- Each result is that of an element. -/
theorem exists_of_mem_of_mapM_eq_ok {bs : List β} (ok : as.mapM f = .ok bs) {b : β}
    (member : b ∈ bs) :
    ∃ a ∈ as, f a = .ok b := exists_left_of_forall₂ (mapM_eq_ok_iff.mp ok) member

/-- Computations in another order have their results in another order. -/
theorem exists_mapM_of_perm {as' : List α} {bs : List β} (same : as'.Perm as)
    (ok : as.mapM f = .ok bs) :
    ∃ bs', as'.mapM f = .ok bs' ∧ bs'.Perm bs := by
  obtain ⟨bs', pairs, same'⟩ := List.perm_comp_forall₂ same (mapM_eq_ok_iff.mp ok)
  exact ⟨bs', mapM_eq_ok_iff.mpr pairs, same'⟩

/-- All computations end well if each does. -/
theorem exists_mapM_eq_ok_iff : (∃ bs, as.mapM f = .ok bs) ↔ ∀ a ∈ as, ∃ b, f a = .ok b := by
  induction as with
  | nil => exact iff_of_true ⟨[], rfl⟩ fun a member => by cases member
  | cons a as ih =>
    rw [List.forall_mem_cons, ← ih]
    simp only [mapM_eq_ok_iff, List.forall₂_cons_left_iff]
    constructor
    · rintro ⟨_, b, bs, first, rest, rfl⟩
      exact ⟨⟨b, first⟩, bs, rest⟩
    · rintro ⟨⟨b, first⟩, bs, rest⟩
      exact ⟨_, b, bs, first, rest, rfl⟩

/-- **Checks of the elements** get through if each does. -/
theorem forM_eq_ok_iff {check : α → Except ε PUnit.{u + 1}} :
    as.forM check = .ok ⟨⟩ ↔ ∀ a ∈ as, check a = .ok ⟨⟩ := by
  induction as with
  | nil => exact iff_of_true rfl fun a member => by cases member
  | cons a as ih =>
    change (check a >>= fun _ => as.forM check) = _ ↔ _
    rw [bind_eq_ok_iff, List.forall_mem_cons, ← ih]
    exact ⟨fun ⟨_, first, rest⟩ => ⟨first, rest⟩, fun ⟨first, rest⟩ => ⟨⟨⟩, first, rest⟩⟩

/-- A computation after a check ends well if the check does not raise. -/
theorem ite_throw_eq_ok_iff {γ : Type u} {c : Prop} [Decidable c] {e : ε} {later : γ → Except ε β}
    {x : Except ε β}
    {b : β} : (if c then (throw e : Except ε γ) >>= later else x) = .ok b ↔ ¬ c ∧ x = .ok b := by
  by_cases h : c
  · rw [if_pos h]
    refine iff_of_false ?_ fun both => both.1 h
    rintro ⟨⟩
  · rw [if_neg h]
    exact (and_iff_right h).symm

/-- **What every step of a run keeps**, of the elements so far and what it has come to, holds at its
end. -/
theorem foldlM_induction {σ : Type*} {step : σ → α → Except ε σ} {P : List α → σ → Prop} {s t : σ}
    (start : P [] s) (keeps : ∀ before a u v, P before u → step u a = .ok v → P (before ++ [a]) v)
    (ran : as.foldlM step s = .ok t) : P as t := by
  induction as using List.reverseRecOn generalizing t with
  | nil =>
    cases ran
    exact start
  | append_singleton before a ih =>
    obtain ⟨u, first, last⟩ := foldlM_append_eq_ok_iff.mp ran
    obtain ⟨v, here, stop⟩ := foldlM_cons_eq_ok_iff.mp last
    cases stop
    exact keeps before a u t (ih first) here

end AgentLabs.Math
