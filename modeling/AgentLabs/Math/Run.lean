import Mathlib.Logic.Relation
import Mathlib.Order.Basic
import Mathlib.Data.Nat.Basic

/-!
# Runs of step functions and step relations

A system is given either by a function that takes a state and an input to the
next state, or by a relation between a state and the states one step may lead
to. Both come with the same induction: what holds at the start and survives one
step holds along every run. The rules below package that induction once, so that
a safety argument elsewhere consists of a start lemma and a step lemma.

## Main definitions

* `stateAt`: the state after the first inputs of a run
* `Reachable`: the states a step relation can lead to from an initial state

## Main results

* `foldl_invariant`: a predicate kept by a step function survives every run
* `foldl_relates`: a preorder that contains one step contains every run
* `stateAt_invariant`: an invariant that may mention the position in the run
* `stateAt_kept`, `stateAt_kept_until`: a predicate kept by the inputs of a run, or of a
  stretch of it
* `spend_injective`: what is spent once is not spent again
* `Reachable.invariant`: the invariant rule for step relations
* `Reachable.map`: the simulation rule for step relations
-/

namespace AgentLabs.Math

variable {σ α : Type*}

/-! ### Step functions -/

section Functional

variable {step : σ → α → σ}

/-- A predicate kept by the inputs of a run is kept by the whole run. -/
theorem foldl_invariant_of_mem {Inv : σ → Prop} {inputs : List α} {s : σ}
    (start : Inv s) (keeps : ∀ a ∈ inputs, ∀ t, Inv t → Inv (step t a)) :
    Inv (inputs.foldl step s) := by
  induction inputs generalizing s with
  | nil => exact start
  | cons a rest ih =>
    exact ih (keeps a (.head _) s start) fun b hb => keeps b (.tail _ hb)

/-- A predicate kept by every step holds after every run. -/
theorem foldl_invariant {Inv : σ → Prop} (keeps : ∀ s a, Inv s → Inv (step s a))
    (inputs : List α) {s : σ} (start : Inv s) : Inv (inputs.foldl step s) :=
  foldl_invariant_of_mem start fun a _ t => keeps t a

/-- A reflexive and transitive relation that contains every step relates the two
ends of every run. -/
theorem foldl_relates {R : σ → σ → Prop} (refl : ∀ s, R s s)
    (trans : ∀ s t u, R s t → R t u → R s u) (one : ∀ s a, R s (step s a))
    (inputs : List α) (s : σ) : R s (inputs.foldl step s) := by
  induction inputs generalizing s with
  | nil => exact refl s
  | cons a rest ih => exact trans _ _ _ (one s a) (ih _)

/-! ### Positions of a run -/

variable (step)

/-- The state after the first `n` inputs. -/
def stateAt (s : σ) (inputs : List α) (n : ℕ) : σ := (inputs.take n).foldl step s

variable {step} {s : σ} {inputs : List α}

theorem stateAt_succ {n : ℕ} {a : α} (h : inputs[n]? = some a) :
    stateAt step s inputs (n + 1) = step (stateAt step s inputs n) a := by
  rw [stateAt, List.take_add_one, h, Option.toList_some, List.foldl_append]
  rfl

/-- Past its last input a run stays where it is. -/
theorem stateAt_succ_of_none {n : ℕ} (h : inputs[n]? = none) :
    stateAt step s inputs (n + 1) = stateAt step s inputs n := by
  rw [stateAt, List.take_add_one, h, Option.toList_none, List.append_nil]
  rfl

/-- The invariant rule by position: what holds at the start and is kept by the
input at each position holds at every position. -/
theorem stateAt_invariant {Inv : ℕ → σ → Prop} (start : Inv 0 s)
    (keeps : ∀ n a, inputs[n]? = some a → Inv n (stateAt step s inputs n) →
      Inv (n + 1) (step (stateAt step s inputs n) a))
    {n : ℕ} (inside : n ≤ inputs.length) : Inv n (stateAt step s inputs n) := by
  induction n with
  | zero => exact start
  | succ n ih =>
    obtain ⟨a, here⟩ : ∃ a, inputs[n]? = some a := ⟨_, List.getElem?_eq_getElem inside⟩
    rw [stateAt_succ here]
    exact keeps n a here (ih (Nat.le_of_succ_le inside))

/-- What the inputs of a stretch of the run keep holds at its end if it holds at its start. -/
theorem stateAt_kept_until {P : σ → Prop} {m k : ℕ}
    (keeps : ∀ n a, m ≤ n → n < k → inputs[n]? = some a → P (stateAt step s inputs n) →
      P (step (stateAt step s inputs n) a))
    (later : m ≤ k) (holds : P (stateAt step s inputs m)) : P (stateAt step s inputs k) := by
  induction later with
  | refl => exact holds
  | @step k more ih =>
    have before : P (stateAt step s inputs k) :=
      ih fun n a from_ until_ => keeps n a from_ (Nat.lt_succ_of_lt until_)
    cases here : inputs[k]? with
    | none => rwa [stateAt_succ_of_none here]
    | some a =>
      rw [stateAt_succ here]
      exact keeps k a more (Nat.lt_succ_self k) here before

/-- What every input of the run keeps holds from each position at which it holds on. -/
theorem stateAt_kept {P : σ → Prop}
    (keeps : ∀ n a, inputs[n]? = some a → P (stateAt step s inputs n) →
      P (step (stateAt step s inputs n) a))
    {m n : ℕ} (later : m ≤ n) (holds : P (stateAt step s inputs m)) :
    P (stateAt step s inputs n) :=
  stateAt_kept_until (fun n a _ _ => keeps n a) later holds

/-- **What is spent once is not spent again.** If a token that is spent stays spent,
and is spent only by a step that finds it unspent, then the positions of a run that
spend one token are one position. -/
theorem spend_injective {τ : Type*} (Spends Spent : ℕ → τ → Prop)
    (keeps : ∀ n t, Spent n t → Spent (n + 1) t)
    (once : ∀ n t, Spends n t → ¬ Spent n t ∧ Spent (n + 1) t) {i j : ℕ} {t : τ}
    (hi : Spends i t) (hj : Spends j t) : i = j := by
  have later : ∀ {m n}, m ≤ n → Spent m t → Spent n t := fun {m n} less => by
    induction less with
    | refl => exact id
    | step _ ih => exact fun spent => keeps _ _ (ih spent)
  rcases lt_trichotomy i j with less | same | less
  · exact absurd (later less (once i t hi).2) (once j t hj).1
  · exact same
  · exact absurd (later less (once j t hj).2) (once i t hi).1

end Functional

/-! ### Step relations -/

/-- The states that finitely many steps lead to from an initial state. -/
inductive Reachable (init : σ → Prop) (step : σ → σ → Prop) : σ → Prop
  | start {s : σ} : init s → Reachable init step s
  | next {s t : σ} : Reachable init step s → step s t → Reachable init step t

variable {init : σ → Prop} {step : σ → σ → Prop}

/-- The invariant rule: what holds initially and is kept by the steps of
reachable states holds in every reachable state. -/
theorem Reachable.invariant {Inv : σ → Prop} (start : ∀ s, init s → Inv s)
    (keeps : ∀ s t, Reachable init step s → Inv s → step s t → Inv t)
    {s : σ} (reached : Reachable init step s) : Inv s := by
  induction reached with
  | start h => exact start _ h
  | next before one ih => exact keeps _ _ before ih one

/-- The simulation rule: if the steps are seen as steps of another system, the reachable states are
seen as reachable states of it. -/
theorem Reachable.map {τ : Type*} {init' : τ → Prop} {step' : τ → τ → Prop} (view : σ → τ)
    (start : ∀ s, init s → init' (view s)) (simulates : ∀ s t, step s t → step' (view s) (view t))
    {s : σ} (reached : Reachable init step s) : Reachable init' step' (view s) := by
  induction reached with
  | start h => exact .start (start _ h)
  | next _ one ih => exact ih.next (simulates _ _ one)

/-- A run that continues from a reachable state ends in one. -/
theorem Reachable.trans {s t : σ} (reached : Reachable init step s)
    (more : Relation.ReflTransGen step s t) : Reachable init step t := by
  induction more with
  | refl => exact reached
  | tail _ one ih => exact ih.next one

end AgentLabs.Math
