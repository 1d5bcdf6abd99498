import Mathlib.Order.Basic

/-!
# Programs with a state and exceptions

A program reads and changes a state and may end in an exception, which leaves the state
as it is at that point. Two kinds of facts are needed about one: where a given run ends,
followed step by step, and what every run keeps, whatever path it takes.

## Main definitions

* `Program`: programs
* `Program.Ends`: the program, run in a state, ends with a value in a state
* `Program.Keeps`: every run of the program keeps a property of the state

## Main results

* `Program.Ends.bind`: a sequence ends where its second part does
* `Program.Keeps.bind`: a sequence keeps what its parts keep
-/

namespace AgentLabs.Math

variable {σ ε : Type} {α β : Type}

/-- A program: from a state to a value or an exception, and the state it leaves. -/
def Program (σ ε α : Type) : Type := σ → Except ε α × σ

namespace Program

instance : Monad (Program σ ε) where
  pure a s := (.ok a, s)
  bind m f s :=
    match m s with
    | (.ok a, t) => f a t
    | (.error e, t) => (.error e, t)

instance : MonadExcept ε (Program σ ε) where
  throw e s := (.error e, s)
  tryCatch m handler s :=
    match m s with
    | (.ok a, t) => (.ok a, t)
    | (.error e, t) => handler e t

/-- A value that may be an exception. -/
def ofExcept (x : Except ε α) : Program σ ε α := fun s => (x, s)

/-! ### Sequences -/

section Sequences

variable {m : Program σ ε α} {f : α → Program σ ε β} {s t : σ}

theorem run_bind {a : α} (ran : m s = (.ok a, t)) : (m >>= f) s = f a t := by
  simp only [Bind.bind, ran]

theorem run_bind_error {e : ε} (ran : m s = (.error e, t)) : (m >>= f) s = (.error e, t) := by
  simp only [Bind.bind, ran]

end Sequences

/-! ### Where a run ends -/

/-- The program, run in `s`, ends with `a` in `t`. -/
def Ends (m : Program σ ε α) (s : σ) (a : α) (t : σ) : Prop := m s = (.ok a, t)

variable {m : Program σ ε α} {f : α → Program σ ε β} {s t r : σ} {a : α} {b : β}

theorem ends_pure (a : α) (s : σ) : Ends (pure a : Program σ ε α) s a s := rfl

theorem ends_ofExcept {x : Except ε α} (ok : x = .ok a) (s : σ) : Ends (ofExcept x) s a s := by
  subst ok
  rfl

/-- A run ends in one way. -/
theorem Ends.unique (one : Ends m s a t) {a' : α} {t' : σ} (other : Ends m s a' t') :
    a = a' ∧ t = t' := by
  obtain ⟨result, state⟩ := Prod.mk.inj (one.symm.trans other)
  exact ⟨Except.ok.inj result, state⟩

/-- A sequence ends where its second part does. -/
theorem Ends.bind (first : Ends m s a t) (second : Ends (f a) t b r) : Ends (m >>= f) s b r :=
  (run_bind first).trans second

theorem Ends.of_pos {c : Prop} [Decidable c] {n : Program σ ε α} (holds : c) (yes : Ends m s a t) :
    Ends (if c then m else n) s a t := by
  rwa [if_pos holds]

theorem Ends.of_neg {c : Prop} [Decidable c] {n : Program σ ε α} (fails : ¬ c) (no : Ends n s a t) :
    Ends (if c then m else n) s a t := by
  rwa [if_neg fails]

/-! ### What every run keeps -/

/-- Every run of the program keeps the property. -/
def Keeps (P : σ → Prop) (m : Program σ ε α) : Prop := ∀ s, P s → P (m s).2

variable {P : σ → Prop}

theorem keeps_pure (a : α) : Keeps P (pure a : Program σ ε α) := fun _ => id

theorem keeps_throw (e : ε) : Keeps P (throw e : Program σ ε α) := fun _ => id

theorem keeps_ofExcept (x : Except ε α) : Keeps P (ofExcept x : Program σ ε α) := fun _ => id

theorem Keeps.bind (first : Keeps P m) (second : ∀ a, Keeps P (f a)) : Keeps P (m >>= f) := by
  intro s holds
  have middle := first s holds
  cases ran : m s with
  | mk result t =>
    rw [ran] at middle
    cases result with
    | ok a =>
      rw [run_bind ran]
      exact second a t middle
    | error e =>
      rw [run_bind_error ran]
      exact middle

theorem Keeps.ite {c : Prop} [Decidable c] {m n : Program σ ε α} (yes : Keeps P m)
    (no : Keeps P n) : Keeps P (if c then m else n) := by
  split_ifs
  · exact yes
  · exact no

end Program

end AgentLabs.Math
