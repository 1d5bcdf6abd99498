import AgentLabs.Math.Triple

/-!
# Programs that keep a journal

A program that calls the outside can be run with a journal: the outcome of each call that
succeeds is entered into a list beside the state. The journal changes nothing else, and
what a run has asked of the outside is read off the entries it made. A state may also hold
such a list as a part of its own, which no step reads: a log.

## Main definitions

* `Program.journaled`: a call with its entry
* `Program.unjournaled`: a call without one
* `Program.Logs`, `Program.Notes`: what the entries of a run that ends with a value are like
* `Program.Tracks`: the same program, but for the journal

## Main results

* `Program.Logs.bind`, `Program.Tracks.bind`: the rules for a sequence
* `Program.keeps_journaled`: what a call with its entry keeps
* `Program.Tracks.exists_journal`: every run has its journal
-/

namespace AgentLabs.Math

namespace Program

variable {σ ξ ε : Type} {α β : Type}

/-- The call, entered into the journal if it succeeds. -/
def journaled (m : Program σ ε α) (entry : α → ξ) : Program (σ × List ξ) ε α := fun s =>
  match m s.1 with
  | (.ok a, t) => (.ok a, t, s.2 ++ [entry a])
  | (.error e, t) => (.error e, t, s.2)

/-- The call, which is not entered. -/
def unjournaled (m : Program σ ε α) : Program (σ × List ξ) ε α := fun s =>
  ((m s.1).1, (m s.1).2, s.2)

/-- Whenever the program ends with a value, it has made entries with the property in a log. -/
def Logs (log : σ → List ξ) (m : Program σ ε α) (P : α → List ξ → Prop) : Prop :=
  ∀ s a t, m s = (.ok a, t) → ∃ more, log t = log s ++ more ∧ P a more

/-- Whenever the program ends with a value, it has made entries with the property. -/
abbrev Notes (m : Program (σ × List ξ) ε α) (P : α → List ξ → Prop) : Prop := Logs Prod.snd m P

/-- But for the journal the program does what the other does. -/
def Tracks (m : Program (σ × List ξ) ε α) (n : Program σ ε α) : Prop :=
  ∀ s, (m s).1 = (n s.1).1 ∧ (m s).2.1 = (n s.1).2

/-! ### Entries -/

section Logs

variable {log : σ → List ξ} {m n : Program σ ε α} {f : α → Program σ ε β}
  {P Q : α → List ξ → Prop} {R : β → List ξ → Prop} {a : α}

theorem Logs.imp (logs : Logs log m P) (weaker : ∀ a more, P a more → Q a more) :
    Logs log m Q := by
  intro s a t ended
  obtain ⟨more, entries, holds⟩ := logs s a t ended
  exact ⟨more, entries, weaker a more holds⟩

theorem logs_pure (holds : P a []) : Logs log (pure a : Program σ ε α) P := by
  intro s b t ended
  obtain ⟨same, rfl⟩ := Prod.mk.inj ended
  obtain rfl := Except.ok.inj same
  exact ⟨[], (List.append_nil _).symm, holds⟩

theorem logs_throw (e : ε) : Logs log (throw e : Program σ ε α) P := by
  intro s b t ended
  have raised : (throw e : Program σ ε α) s = (.error e, s) := rfl
  rw [raised] at ended
  cases ended

theorem logs_ofExcept {x : Except ε α} (holds : ∀ a, x = .ok a → P a []) :
    Logs log (ofExcept x : Program σ ε α) P := by
  intro s b t ended
  obtain ⟨same, rfl⟩ := Prod.mk.inj ended
  exact ⟨[], (List.append_nil _).symm, holds b same⟩

/-- A program that leaves the log alone. -/
theorem logs_quiet (quiet : ∀ s, log (m s).2 = log s) : Logs log m fun _ more => more = [] := by
  intro s a t ended
  have same := quiet s
  rw [ended] at same
  exact ⟨[], by rw [same, List.append_nil], rfl⟩

theorem notes_journaled (call : Program σ ε α) (entry : α → ξ) :
    Notes (journaled call entry) fun a more => more = [entry a] := by
  intro s a t ended
  unfold journaled at ended
  rcases called : call s.1 with ⟨_ | b, t'⟩
  · simp [called] at ended
  · rw [called] at ended
    obtain ⟨same, rfl⟩ := Prod.mk.inj ended
    obtain rfl := Except.ok.inj same
    exact ⟨[entry b], rfl, rfl⟩

theorem notes_unjournaled (call : Program σ ε α) :
    Notes (unjournaled call : Program (σ × List ξ) ε α) fun _ more => more = [] :=
  logs_quiet fun _ => rfl

/-- Two facts about the entries of one program. -/
theorem Logs.and (one : Logs log m P) (other : Logs log m Q) :
    Logs log m fun a more => P a more ∧ Q a more := by
  intro s a t ended
  obtain ⟨x, entries, holds⟩ := one s a t ended
  obtain ⟨y, entries', holds'⟩ := other s a t ended
  obtain rfl := List.append_cancel_left (entries.symm.trans entries')
  exact ⟨x, entries, holds, holds'⟩

/-- What is true of every value may be used beside the entries. -/
theorem Logs.yields {A : α → Prop} (logs : Logs log m P) (values : Yields m A) :
    Logs log m fun a more => A a ∧ P a more := by
  intro s a t ended
  obtain ⟨more, entries, holds⟩ := logs s a t ended
  exact ⟨more, entries, values s a (by rw [ended]), holds⟩

/-- **The entries of a sequence** are those of its first part and then those of its second. -/
theorem Logs.bind (first : Logs log m P)
    (second : ∀ a x, P a x → Logs log (f a) fun b y => R b (x ++ y)) : Logs log (m >>= f) R := by
  intro s b t ended
  rcases ran : m s with ⟨e | a, r⟩
  · rw [run_bind_error ran] at ended
    cases ended
  · rw [run_bind ran] at ended
    obtain ⟨x, entries, holds⟩ := first s a r ran
    obtain ⟨y, entries', holds'⟩ := second a x holds r b t ended
    exact ⟨x ++ y, by rw [entries', entries, List.append_assoc], holds'⟩

theorem Logs.ite {c : Prop} [Decidable c] (yes : c → Logs log m P) (no : ¬ c → Logs log n P) :
    Logs log (if c then m else n) P := by
  split_ifs with holds
  · exact yes holds
  · exact no holds

end Logs

/-! ### What is kept beside the entries -/

/-- A call keeps a property of the state and the journal, if its entry does. -/
theorem keeps_journaled {call : Program σ ε α} {entry : α → ξ} {P : σ × List ξ → Prop}
    (each : ∀ journal, Triple (fun s => P (s, journal)) call
      (fun a s => P (s, journal ++ [entry a])) fun s => P (s, journal)) :
    Keeps P (journaled call entry) := by
  rintro ⟨s, journal⟩ holds
  obtain ⟨ends, fails⟩ := each journal s holds
  unfold journaled
  rcases called : call s with ⟨e | a, t⟩
  · rw [called] at fails
    exact fails e rfl
  · rw [called] at ends
    exact ends a rfl

theorem keeps_unjournaled {call : Program σ ε α} {P : σ × List ξ → Prop}
    (each : ∀ journal, Keeps (fun s => P (s, journal)) call) : Keeps P (unjournaled call) :=
  fun s holds => each s.2 s.1 holds

/-! ### Without the journal -/

section Tracks

variable {m m' : Program (σ × List ξ) ε α} {n n' : Program σ ε α}
  {f : α → Program (σ × List ξ) ε β} {g : α → Program σ ε β}

theorem tracks_pure (a : α) : Tracks (pure a : Program (σ × List ξ) ε α) (pure a) :=
  fun _ => ⟨rfl, rfl⟩

theorem tracks_throw (e : ε) : Tracks (throw e : Program (σ × List ξ) ε α) (throw e) :=
  fun _ => ⟨rfl, rfl⟩

theorem tracks_ofExcept (x : Except ε α) :
    Tracks (ofExcept x : Program (σ × List ξ) ε α) (ofExcept x) :=
  fun _ => ⟨rfl, rfl⟩

theorem tracks_journaled (call : Program σ ε α) (entry : α → ξ) :
    Tracks (journaled call entry) call := by
  intro s
  unfold journaled
  rcases call s.1 with ⟨_ | a, t⟩
  · exact ⟨rfl, rfl⟩
  · exact ⟨rfl, rfl⟩

theorem tracks_unjournaled (call : Program σ ε α) :
    Tracks (unjournaled call : Program (σ × List ξ) ε α) call := fun _ => ⟨rfl, rfl⟩

theorem Tracks.bind (first : Tracks m n) (second : ∀ a, Tracks (f a) (g a)) :
    Tracks (m >>= f) (n >>= g) := by
  intro s
  obtain ⟨value, state⟩ := first s
  rcases without : n s.1 with ⟨result, r⟩
  rcases within : m s with ⟨result', r', journal⟩
  rw [without, within] at value state
  obtain rfl : result' = result := value
  obtain rfl : r' = r := state
  cases result' with
  | error e =>
    rw [run_bind_error within, run_bind_error without]
    exact ⟨rfl, rfl⟩
  | ok a =>
    rw [run_bind within, run_bind without]
    exact second a (r', journal)

theorem Tracks.ite {c : Prop} [Decidable c] (yes : Tracks m n) (no : Tracks m' n') :
    Tracks (if c then m else m') (if c then n else n') := by
  split_ifs
  · exact yes
  · exact no

/-- **Every run has its journal**: where a program ends with a value, so does the one that
keeps a journal, with the entries it notes. -/
theorem Tracks.exists_journal {P : α → List ξ → Prop} (tracks : Tracks m n) (notes : Notes m P)
    {s t : σ} {a : α} (ended : n s = (.ok a, t)) :
    ∃ journal, m (s, []) = (.ok a, t, journal) ∧ P a journal := by
  obtain ⟨value, state⟩ := tracks (s, [])
  rcases ran : m (s, []) with ⟨result, t', journal⟩
  simp only [ran, ended] at value state
  subst value state
  obtain ⟨more, entries, holds⟩ := notes (s, []) a (t', journal) ran
  obtain rfl : journal = more := entries
  exact ⟨journal, rfl, holds⟩

end Tracks

end Program

end AgentLabs.Math
