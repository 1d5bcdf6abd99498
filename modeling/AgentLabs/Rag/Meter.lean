import AgentLabs.Math.Dict
import AgentLabs.Math.Run
import Mathlib.Algebra.Order.Field.Rat
import Mathlib.Data.List.Count

/-!
# The budget of a request

All workers of a request share a meter. A call of a model or of a tool is counted before it is made,
and what is over a limit or too late is not made. The test and the count are one step under a lock,
so that whatever the workers do side by side is some sequence of attempts.

## Main definitions

* `Limits`, `Meter`, `Meter.consume`: limits, the meter, and one attempt
* `Meter.run`, `Meter.granted`: the meter after some attempts, and those that it let through
* `MeterLaw`: what is wanted of every sequence of attempts

## Main results

* `meterLaw`: it holds of every sequence
-/

namespace AgentLabs.Rag

open Math

/-- The budget in the settings. -/
structure Limits where
  maxCalls : ℕ := 32
  maxTools : ℕ := 100
  exaSearches : ℕ := 2
  maxAdditions : ℕ := 3
  seconds : ℚ := 240

/-- The argument of `BudgetExceeded`. -/
inductive Overspent where
  | deadline
  | call (name : String)
  | totalTools
  deriving DecidableEq, Repr

/-- `Meter`, with the time at which it was started. -/
structure Meter where
  started : ℚ
  calls : Dict String ℕ := []

/-- The limit of the calls with a name. -/
def Limits.of (limits : Limits) (name : String) : ℕ :=
  if name = "model" then limits.maxCalls
  else if name = "exa_search" then limits.exaSearches
  else if name = "ingest" then limits.maxAdditions
  else limits.maxTools

/-- An attempt at a call. -/
structure Attempt where
  now : ℚ
  name : String

namespace Meter

/-- How often a call was counted. -/
def count (m : Meter) (name : String) : ℕ := (m.calls.get? name).getD 0

/-- How often a tool was counted. -/
def tools (m : Meter) : ℕ :=
  ((m.calls.filter fun entry => decide (entry.1 ≠ "model")).map Prod.snd).sum

/-- `check` raises. -/
def isLate (limits : Limits) (m : Meter) (now : ℚ) : Bool :=
  decide (limits.seconds < now - m.started)

/-- `consume`. -/
def consume (limits : Limits) (m : Meter) (a : Attempt) : Except Overspent Unit × Meter :=
  if m.isLate limits a.now then (.error .deadline, m)
  else if limits.of a.name ≤ m.count a.name then (.error (.call a.name), m)
  else if a.name ≠ "model" ∧ limits.maxTools ≤ m.tools then (.error .totalTools, m)
  else (.ok (), { m with calls := m.calls.set a.name (m.count a.name + 1) })

/-- The meter after some attempts. -/
def run (limits : Limits) (m : Meter) (attempts : List Attempt) : Meter :=
  attempts.foldl (fun m a => (m.consume limits a).2) m

/-- The attempts that are let through. -/
def granted (limits : Limits) : Meter → List Attempt → List Attempt
  | _, [] => []
  | m, a :: rest =>
    match m.consume limits a with
    | (.ok (), next) => a :: granted limits next rest
    | (.error _, next) => granted limits next rest

end Meter

/-- What is wanted of a sequence of attempts: those that are let through are in time, they are what
is counted, and they are within the limits; what is refused is too late or over a limit that has
been reached; and models are called as often as the limit lets them, in whatever order. -/
structure MeterLaw (limits : Limits) (started : ℚ) (attempts : List Attempt) : Prop where
  inTime : ∀ a ∈ Meter.granted limits { started } attempts, a.now - started ≤ limits.seconds
  counted : ∀ name, (Meter.run limits { started } attempts).count name =
    (Meter.granted limits { started } attempts).countP fun a => a.name = name
  within : ∀ name, (Meter.granted limits { started } attempts).countP (fun a => a.name = name) ≤
    limits.of name
  tools : (Meter.granted limits { started } attempts).countP (fun a => a.name ≠ "model") ≤
    limits.maxTools
  refused : ∀ before a after, attempts = before ++ a :: after →
    ((Meter.run limits { started } before).consume limits a).1 ≠ .ok () →
      limits.seconds < a.now - started ∨
      (Meter.granted limits { started } before).countP (fun b => b.name = a.name) =
        limits.of a.name ∨
      (Meter.granted limits { started } before).countP (fun b => b.name ≠ "model") = limits.maxTools
  models : (Meter.granted limits { started } attempts).countP (fun a => a.name = "model") =
    min (attempts.countP fun a => a.name = "model" ∧ a.now - started ≤ limits.seconds)
      limits.maxCalls

/-! ### One attempt -/

section Attempts

variable {limits : Limits} {m : Meter} {a : Attempt} {attempts before : List Attempt}
  {name : String} {started : ℚ}

/-- The meter with one more call. -/
def Meter.bump (m : Meter) (name : String) : Meter :=
  { m with calls := m.calls.set name (m.count name + 1) }

/-- **What one attempt does.** -/
theorem consume_cases (limits : Limits) (m : Meter) (a : Attempt) :
    (m.consume limits a = (.ok (), m.bump a.name) ∧ a.now - m.started ≤ limits.seconds ∧
      m.count a.name < limits.of a.name ∧ (a.name ≠ "model" → m.tools < limits.maxTools)) ∨
    ∃ e, m.consume limits a = (.error e, m) ∧ (limits.seconds < a.now - m.started ∨
      limits.of a.name ≤ m.count a.name ∨ a.name ≠ "model" ∧ limits.maxTools ≤ m.tools) := by
  unfold Meter.consume Meter.isLate
  split_ifs with late full all
  · exact .inr ⟨_, rfl, .inl (of_decide_eq_true late)⟩
  · exact .inr ⟨_, rfl, .inr (.inl full)⟩
  · exact .inr ⟨_, rfl, .inr (.inr all)⟩
  · refine .inl ⟨rfl, not_lt.mp fun passed => late (decide_eq_true passed), not_le.mp full, ?_⟩
    intro tool
    exact not_le.mp fun reached => all ⟨tool, reached⟩

theorem count_bump {other : String} : (m.bump other).count name =
    m.count name + if other = name then 1 else 0 := by
  unfold Meter.bump Meter.count
  rw [Dict.get?_set]
  split_ifs with same
  · rw [← same]
    rfl
  · rfl

/-- The sum of the amounts under some keys after one of all amounts was changed. -/
theorem sum_filter_set (p : String → Bool) (calls : Dict String ℕ) (name : String) (n : ℕ) :
    (((calls.set name n).filter fun entry => p entry.1).map Prod.snd).sum +
        (if p name then (calls.get? name).getD 0 else 0) =
      ((calls.filter fun entry => p entry.1).map Prod.snd).sum + if p name then n else 0 := by
  induction calls with
  | nil => by_cases counts : p name <;> simp [Dict.set, counts]
  | cons entry rest ih =>
    obtain ⟨key, amount⟩ := entry
    rw [Dict.set, Dict.get?_cons]
    by_cases same : key = name
    · subst same
      by_cases counts : p key <;> simp [counts]
      omega
    · simp only [if_neg same, List.filter_cons]
      by_cases listed : p key
      · simp only [if_pos listed, List.map_cons, List.sum_cons]
        omega
      · simp only [if_neg listed]
        exact ih

theorem tools_bump : (m.bump name).tools = m.tools + if name ≠ "model" then 1 else 0 := by
  have sums := sum_filter_set (fun name => decide (name ≠ "model")) m.calls name (m.count name + 1)
  unfold Meter.bump Meter.tools
  unfold Meter.count at sums
  by_cases model : name = "model"
  · simp only [model, ne_eq, not_true_eq_false, decide_false, Bool.false_eq_true,
      if_false] at sums ⊢
    exact sums
  · simp only [model, ne_eq, not_false_eq_true, decide_true, if_true] at sums ⊢
    unfold Meter.count
    omega

/-! ### All attempts -/

theorem run_append (more : List Attempt) : m.run limits (attempts ++ more) =
    (m.run limits attempts).run limits more := List.foldl_append

theorem granted_append (more : List Attempt) : m.granted limits (attempts ++ more) =
    m.granted limits attempts ++ (m.run limits attempts).granted limits more := by
  induction attempts generalizing m with
  | nil => rfl
  | cons a rest ih =>
    have next : m.run limits (a :: rest) = (m.consume limits a).2.run limits rest := rfl
    rw [List.cons_append, Meter.granted, Meter.granted, next]
    rcases m.consume limits a with ⟨e | ⟨⟩, after⟩
    · exact ih
    · exact congrArg (a :: ·) ih

/-- What is true of the meter after some attempts and of those that it let through. -/
structure Meter.Accounts (limits : Limits) (started : ℚ) (attempts : List Attempt) (m : Meter)
    (granted : List Attempt) : Prop where
  begun : m.started = started
  inTime : ∀ a ∈ granted, a.now - started ≤ limits.seconds
  counted : ∀ name, m.count name = granted.countP fun a => a.name = name
  within : ∀ name, m.count name ≤ limits.of name
  toolsCounted : m.tools = granted.countP fun a => a.name ≠ "model"
  tools : m.tools ≤ limits.maxTools
  models : m.count "model" =
    min (attempts.countP fun a => a.name = "model" ∧ a.now - started ≤ limits.seconds)
      limits.maxCalls

/-- **One more attempt** keeps the account. -/
theorem Meter.Accounts.concat {granted : List Attempt}
    (h : Meter.Accounts limits started attempts m granted) (a : Attempt) :
    Meter.Accounts limits started (attempts ++ [a]) (m.consume limits a).2
      (granted ++ m.granted limits [a]) := by
  have model : limits.of "model" = limits.maxCalls := rfl
  have full := h.within "model"
  have asked := h.models
  rcases consume_cases limits m a with ⟨done, inTime, room, toolRoom⟩ | ⟨e, refused, reason⟩
  · rw [h.begun] at inTime
    have more : m.granted limits [a] = [a] := by
      simp only [Meter.granted, done]
    -- The attempt is granted: it was in time, and there was room for it.
    rw [done, more]
    refine ⟨h.begun, ?_, ?_, ?_, ?_, ?_, ?_⟩
    · exact List.forall_mem_append.mpr ⟨h.inTime, List.forall_mem_singleton.mpr inTime⟩
    · intro name
      rw [count_bump, List.countP_append, ← h.counted name, List.countP_singleton]
      simp only [decide_eq_true_eq]
    · intro name
      rw [count_bump]
      by_cases same : a.name = name
      · rw [if_pos same, ← same]
        exact room
      · rw [if_neg same]
        exact h.within name
    · rw [tools_bump, List.countP_append, ← h.toolsCounted, List.countP_singleton]
      simp only [decide_eq_true_eq]
    · rw [tools_bump]
      split_ifs with tool
      · exact toolRoom tool
      · exact h.tools
    · rw [count_bump, List.countP_append, List.countP_singleton]
      by_cases same : a.name = "model"
      · rw [same] at room
        simp only [same, inTime, decide_true, and_self, if_true]
        omega
      · simp only [same, false_and, decide_false, Bool.false_eq_true, if_false, Nat.add_zero]
        exact asked
  · have none : m.granted limits [a] = [] := by
      simp only [Meter.granted, refused]
    rw [refused, none, List.append_nil]
    refine ⟨h.begun, h.inTime, h.counted, h.within, h.toolsCounted, h.tools, ?_⟩
    rw [List.countP_append, List.countP_singleton]
    split_ifs with model
    · -- An attempt at a model that is in time is refused only where the limit is reached.
      obtain ⟨same, inTime⟩ := of_decide_eq_true model
      rw [h.begun] at reason
      rcases reason with late | reached | ⟨tool, -⟩
      · exact absurd inTime (not_le.mpr late)
      · rw [same] at reached
        dsimp only
        omega
      · exact absurd same tool
    · exact asked

theorem accounts_run (limits : Limits) (started : ℚ) (attempts : List Attempt) :
    Meter.Accounts limits started attempts (Meter.run limits { started } attempts)
      (Meter.granted limits { started } attempts) := by
  induction attempts using List.reverseRecOn with
  | nil =>
    exact ⟨rfl, fun _ none => (by cases none), fun _ => rfl, fun _ => Nat.zero_le _, rfl,
      Nat.zero_le _, (Nat.zero_min _).symm⟩
  | append_singleton before a ih =>
    rw [run_append, granted_append]
    exact ih.concat a

/-- **What is wanted** holds of every sequence of attempts. -/
theorem meterLaw (limits : Limits) (started : ℚ) (attempts : List Attempt) :
    MeterLaw limits started attempts := by
  have h := accounts_run limits started attempts
  refine ⟨h.inTime, h.counted, fun name => h.counted name ▸ h.within name,
    h.toolsCounted ▸ h.tools, fun before a after _ refused => ?_, h.counted "model" ▸ h.models⟩
  have h := accounts_run limits started before
  rcases consume_cases limits (Meter.run limits { started } before) a with
    ⟨done, -⟩ | ⟨e, -, late | full | ⟨tool, all⟩⟩
  · rw [done] at refused
    exact absurd rfl refused
  · rw [h.begun] at late
    exact .inl late
  · have most := h.within a.name
    rw [h.counted] at full most
    exact .inr (.inl (le_antisymm most full))
  · have most := h.tools
    rw [h.toolsCounted] at all most
    exact .inr (.inr (le_antisymm most all))

end Attempts

end AgentLabs.Rag
