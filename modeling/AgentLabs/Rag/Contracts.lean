import AgentLabs.Math.DependencyOrder
import AgentLabs.Math.Dict

/-!
# Contracts between planner and workers

A plan is what the model's answer must be to be run at all: at most four tasks, each
within the limits of the schema, under distinct ids, and such that passing over the
tasks settles them all. Results are collected by task id; the reducer takes the same
result twice and refuses a different one.

## Main definitions

* `Task`, `Task.Valid`: a task and the limits of its fields
* `Plan`: a validated plan
* `mergeResults`: the reducer of concurrent results

## Main results

* `validateDag_iff`: the plans that pass are those without a cycle
* `Plan.grounded`: every task of a plan can be reached through its dependencies
* `mergeResults_of_disjoint`: results under new ids are merged without a conflict
-/

namespace AgentLabs.Rag

open Math

/-- The specialists. -/
inductive Role where
  | general
  | contract
  | operations
  | security
  | policy
  | web
  deriving DecidableEq, Repr

/-- A task. -/
structure Task where
  id : String
  role : Role
  objective : String
  dependsOn : List String := []
  deriving DecidableEq, Repr

/-- The limits that the schema sets to the fields of a task. -/
def Task.Valid (t : Task) : Prop :=
  (1 ≤ t.id.length ∧ t.id.length ≤ 100) ∧ 1 ≤ t.objective.length ∧ t.objective.length ≤ 2000

instance : DecidablePred Task.Valid := fun t =>
  inferInstanceAs (Decidable ((1 ≤ t.id.length ∧ t.id.length ≤ 100) ∧
    1 ≤ t.objective.length ∧ t.objective.length ≤ 2000))

/-- `Plan.validate_dag`: the ids are distinct, and as many passes as there are tasks
settle all of them. -/
def validateDag (tasks : List Task) : Bool :=
  (tasks.map Task.id).Nodup ∧
    settle Task.id Task.dependsOn tasks tasks.length ⊆ tasks.map Task.id ∧
    tasks.map Task.id ⊆ settle Task.id Task.dependsOn tasks tasks.length

/-- **The tasks pass exactly if they are a DAG**: the ids are distinct, each dependency is the id of
a task, and no task waits for itself, be it through others. -/
theorem validateDag_iff (tasks : List Task) :
    validateDag tasks ↔ (tasks.map Task.id).Nodup ∧
      (∀ t ∈ tasks, ∀ d ∈ t.dependsOn, d ∈ tasks.map Task.id) ∧
        ∀ t, ¬ Relation.TransGen (WaitsFor Task.id Task.dependsOn tasks) t t := by
  rw [validateDag, decide_eq_true_eq]
  refine and_congr_right fun distinct => ?_
  have settled : settle Task.id Task.dependsOn tasks tasks.length ⊆ tasks.map Task.id :=
    settle_subset_keys tasks.length
  rw [and_iff_right settled]
  calc tasks.map Task.id ⊆ settle Task.id Task.dependsOn tasks tasks.length
    _ ↔ ∀ t ∈ tasks, Grounded Task.id Task.dependsOn tasks t.id := by
      simp only [List.subset_def, List.forall_mem_map, mem_settle_length_iff]
    _ ↔ _ := forall_grounded_iff distinct

/-- A plan that passed validation. -/
structure Plan where
  tasks : List Task
  size : 1 ≤ tasks.length ∧ tasks.length ≤ 4
  valid : ∀ t ∈ tasks, t.Valid
  dag : validateDag tasks = true

namespace Plan

variable (p : Plan)

theorem nodup : (p.tasks.map Task.id).Nodup := by
  have dag := p.dag
  simp only [validateDag, decide_eq_true_eq] at dag
  exact dag.1

/-- **Every task of a plan is grounded.** -/
theorem grounded : ∀ t ∈ p.tasks, Grounded Task.id Task.dependsOn p.tasks t.id := by
  intro t member
  have dag := p.dag
  simp only [validateDag, decide_eq_true_eq] at dag
  exact grounded_of_mem_settle _ (dag.2.2 (List.mem_map_of_mem member))

end Plan

/-! ### The reducer -/

section

variable {κ ρ : Type*} [DecidableEq κ] [DecidableEq ρ]

/-- `merge_results`; `none` stands for the exception on a conflict. -/
def mergeResults (left right : Dict κ ρ) : Option (Dict κ ρ) :=
  right.foldlM (fun merged entry =>
    match merged.get? entry.1 with
    | some result => if result ≠ entry.2 then none else some (merged.set entry.1 entry.2)
    | none => some (merged.set entry.1 entry.2)) left

variable {left right merged : Dict κ ρ} {k : κ} {v : ρ}

theorem mergeResults_cons (k : κ) (v : ρ) (rest : Dict κ ρ) :
    mergeResults left ((k, v) :: rest) =
      match left.get? k with
      | some result => if result ≠ v then none else mergeResults (left.set k v) rest
      | none => mergeResults (left.set k v) rest := by
  rw [mergeResults, List.foldlM_cons]
  cases left.get? k with
  | none => rfl
  | some result => by_cases conflict : result ≠ v <;> simp [conflict, mergeResults]

/-- Results under ids that are new and distinct are merged, and all results are kept. -/
theorem mergeResults_of_disjoint (fresh : ∀ k ∈ right.keys, left.get? k = none)
    (nodup : right.KeysNodup) : mergeResults left right = some (left.setAll right) := by
  induction right generalizing left with
  | nil => rfl
  | cons entry rest ih =>
    have split := List.nodup_cons.mp (show (entry.1 :: Dict.keys rest).Nodup from nodup)
    rw [show entry = (entry.1, entry.2) from rfl, mergeResults_cons, fresh _ (.head _)]
    refine ih (fun k member => ?_) split.2
    rw [Dict.get?_set_of_ne, fresh k (.tail _ member)]
    rintro rfl
    exact split.1 member

end

end AgentLabs.Rag
