import AgentLabs.Math.Program

/-!
# Triples

A triple says of a program where its runs lead from the states of one property: to states of a
second one, which may mention the value, or by an exception to states of a third one. What the
tests on the way have found out is at hand behind them, so that a step may rely on it.

## Main definitions

* `Program.state`, `Program.change`: reading and changing the state
* `Program.within`: a program on a part of the state
* `Program.Triple`: triples
* `Program.Answers`, `Program.Yields`: the values, and what is true of every one

## Main results

* `Program.Triple.bind`: the rule for a sequence
* `Program.Triple.tryCatch`: the rule for a handler
* `Program.Triple.within`: what a program on a part of the state does to the rest
-/

namespace AgentLabs.Math.Program

variable {σ τ ε : Type} {α β : Type}

/-- The state. -/
def state : Program σ ε σ := fun s => (.ok s, s)

/-- A change of the state. -/
def change (f : σ → σ) : Program σ ε Unit := fun s => (.ok (), f s)

/-- A program on a part of the state. -/
def within (part : σ → τ) (put : σ → τ → σ) (m : Program τ ε α) : Program σ ε α := fun s =>
  ((m (part s)).1, put s (m (part s)).2)

/-- From a state with `P`, a run that ends with a value ends in a state with `Q`, and one that
ends in an exception in a state with `E`. -/
def Triple (P : σ → Prop) (m : Program σ ε α) (Q : α → σ → Prop) (E : σ → Prop) : Prop :=
  ∀ s, P s → (∀ a, (m s).1 = .ok a → Q a (m s).2) ∧ ∀ e, (m s).1 = .error e → E (m s).2

variable {P P' E E' : σ → Prop} {Q Q' : α → σ → Prop} {R : β → σ → Prop} {m n : Program σ ε α}
  {f : α → Program σ ε β}

namespace Triple

theorem mono (h : Triple P m Q E) (pre : ∀ s, P' s → P s) (post : ∀ a s, Q a s → Q' a s)
    (raised : ∀ s, E s → E' s) : Triple P' m Q' E' := by
  intro s before
  obtain ⟨ends, fails⟩ := h s (pre s before)
  exact ⟨fun a ok => post a _ (ends a ok), fun e error => raised _ (fails e error)⟩

theorem pre (h : Triple P m Q E) (pre : ∀ s, P' s → P s) : Triple P' m Q E :=
  h.mono pre (fun _ _ => id) fun _ => id

theorem raised (h : Triple P m Q E) (raised : ∀ s, E s → E' s) : Triple P m Q E' :=
  h.mono (fun _ => id) (fun _ _ => id) raised

/-- Two triples of one program hold together. -/
theorem and (one : Triple P m Q E) (other : Triple P' m Q' E') :
    Triple (fun s => P s ∧ P' s) m (fun a s => Q a s ∧ Q' a s) fun s => E s ∧ E' s := by
  intro s before
  obtain ⟨ends, fails⟩ := one s before.1
  obtain ⟨ends', fails'⟩ := other s before.2
  exact ⟨fun a ok => ⟨ends a ok, ends' a ok⟩, fun e error => ⟨fails e error, fails' e error⟩⟩

theorem pure {a : α} (h : ∀ s, P s → Q a s) : Triple P (Pure.pure a : Program σ ε α) Q E := by
  intro s before
  refine ⟨fun b ok => ?_, fun e error => by cases error⟩
  cases ok
  exact h s before

theorem throw (e : ε) (h : ∀ s, P s → E s) :
    Triple P (MonadExcept.throw e : Program σ ε α) Q E := by
  intro s before
  exact ⟨nofun, fun _ _ => h s before⟩

theorem ofExcept {x : Except ε α} (ends : ∀ a, x = .ok a → ∀ s, P s → Q a s)
    (fails : ∀ s, P s → E s) :
    Triple P (ofExcept x) Q E :=
  fun s before => ⟨fun a ok => ends a ok s before, fun _ _ => fails s before⟩

theorem state : Triple P (state : Program σ ε σ) (fun a s => a = s ∧ P s) E := by
  intro s before
  refine ⟨fun a ok => ?_, fun e error => by cases error⟩
  cases ok
  exact ⟨rfl, before⟩

theorem change {f : σ → σ} {Q : Unit → σ → Prop} (h : ∀ s, P s → Q () (f s)) :
    Triple P (change f : Program σ ε Unit) Q E :=
  fun s before => ⟨fun _ _ => h s before, nofun⟩

/-- **A sequence** goes through what holds after its first part. -/
theorem bind (first : Triple P m Q E) (second : ∀ a, Triple (Q a) (f a) R E) :
    Triple P (m >>= f) R E := by
  intro s before
  obtain ⟨ends, fails⟩ := first s before
  rcases ran : m s with ⟨e | a, t⟩
  · rw [run_bind_error ran]
    rw [ran] at fails
    exact ⟨nofun, fun _ _ => fails e rfl⟩
  · rw [run_bind ran]
    rw [ran] at ends
    exact second a t (ends a rfl)

/-- **A handler** starts from what holds where the program raised. -/
theorem tryCatch {handler : ε → Program σ ε α} (first : Triple P m Q E')
    (second : ∀ e, Triple E' (handler e) Q E) :
    Triple P (MonadExcept.tryCatch m handler) Q E := by
  intro s before
  obtain ⟨ends, fails⟩ := first s before
  rcases ran : m s with ⟨e | a, t⟩
  · have handled : (MonadExcept.tryCatch m handler : Program σ ε α) s = handler e t := by
      simp only [MonadExcept.tryCatch, ran]
    rw [handled]
    rw [ran] at fails
    exact second e t (fails e rfl)
  · have kept : (MonadExcept.tryCatch m handler : Program σ ε α) s = (.ok a, t) := by
      simp only [MonadExcept.tryCatch, ran]
    rw [kept]
    rw [ran] at ends
    exact ⟨fun b ok => by cases ok; exact ends a rfl, nofun⟩

theorem ite {c : Prop} [Decidable c] (yes : c → Triple P m Q E) (no : ¬ c → Triple P n Q E) :
    Triple P (if c then m else n) Q E := by
  split_ifs with holds
  · exact yes holds
  · exact no holds

/-- What does not depend on a part of the state survives every program on that part. -/
theorem within {part : σ → τ} {put : σ → τ → σ} {m : Program τ ε α}
    (frame : ∀ s t, P s → P (put s t)) :
    Triple P (within part put m) (fun _ => P) P :=
  fun s before => ⟨fun _ _ => frame s _ before, fun _ _ => frame s _ before⟩

/-- What is true of the states before may be used as a fact of its own. -/
theorem of_forall {c : Prop} (h : c → Triple P m Q E) : Triple (fun s => c ∧ P s) m Q E :=
  fun s before => h before.1 s before.2

theorem of_right {c : Prop} (h : c → Triple P m Q E) : Triple (fun s => P s ∧ c) m Q E :=
  fun s before => h before.2 s before.1

/-- A triple whose ends are alike is kept by every run. -/
theorem keeps (h : Triple P m (fun _ => P) P) : Keeps P m := by
  intro s before
  obtain ⟨ends, fails⟩ := h s before
  cases result : (m s).1 with
  | ok a => exact ends a result
  | error e => exact fails e result

end Triple

/-- What every run keeps, as a triple. -/
theorem Keeps.triple (h : Keeps P m) : Triple P m (fun _ => P) P := fun s before =>
  have after := h s before
  ⟨fun _ _ => after, fun _ _ => after⟩

theorem keeps_change {f : σ → σ} (h : ∀ s, P s → P (f s)) :
    Keeps P (change f : Program σ ε Unit) := h

/-- What does not depend on a part of the state is kept by every program on that part. -/
theorem keeps_within {part : σ → τ} {put : σ → τ → σ} {m : Program τ ε α}
    (frame : ∀ s t, P s → P (put s t)) : Keeps P (Program.within part put m) :=
  fun s before => frame s _ before

/-! ### Values -/

/-- Some run of the program comes to the value. -/
def Answers (m : Program σ ε α) (a : α) : Prop := ∃ s, (m s).1 = .ok a

/-- Every value that a run of the program comes to has the property. -/
def Yields (m : Program σ ε α) (A : α → Prop) : Prop := ∀ s a, (m s).1 = .ok a → A a

section Yields

variable {A A' : α → Prop} {B : β → Prop}

theorem yields_pure {a : α} (holds : A a) : Yields (Pure.pure a : Program σ ε α) A := by
  intro s b ok
  cases ok
  exact holds

theorem yields_ofExcept {x : Except ε α} (ends : ∀ a, x = .ok a → A a) :
    Yields (ofExcept x : Program σ ε α) A := fun _ a ok => ends a ok

theorem yields_answers (m : Program σ ε α) : Yields m (Answers m) := fun s _ ok => ⟨s, ok⟩

/-- What is true of every value may be used behind a program. -/
theorem Triple.yields {P : σ → Prop} {Q : α → σ → Prop} {E : σ → Prop} (h : Triple P m Q E)
    (values : Yields m A) : Triple P m (fun a s => A a ∧ Q a s) E := by
  intro s before
  obtain ⟨ends, fails⟩ := h s before
  exact ⟨fun a ok => ⟨values s a ok, ends a ok⟩, fails⟩

theorem Yields.mono (first : Yields m A) (more : ∀ a, A a → A' a) : Yields m A' :=
  fun s a ok => more a (first s a ok)

theorem Yields.bind (first : Yields m A) (second : ∀ a, A a → Yields (f a) B) :
    Yields (m >>= f) B := by
  intro s b ok
  rcases ran : m s with ⟨e | a, t⟩
  · rw [run_bind_error ran] at ok
    cases ok
  · rw [run_bind ran] at ok
    exact second a (first s a (by rw [ran])) t b ok

theorem Yields.ite {c : Prop} [Decidable c] (yes : c → Yields m A) (no : ¬ c → Yields n A) :
    Yields (if c then m else n) A := by
  split_ifs with holds
  · exact yes holds
  · exact no holds

end Yields

end AgentLabs.Math.Program
