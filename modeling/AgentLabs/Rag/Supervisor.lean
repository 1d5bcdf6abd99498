import AgentLabs.Math.Run
import AgentLabs.Rag.Contracts
import AgentLabs.Text.PythonStr

/-!
# The supervisor graph

The supervisor plans, dispatches every task whose dependencies are complete, collects
the results of the wave, and dispatches again until nothing is ready; then it joins the
results and may plan once more. The ids of a plan carry its revision, and the results
of both revisions share one dictionary.

One superstep of the graph is one step. All tasks of a wave finish before the next
dispatch, and their results are merged with the reducer. What the planner, the workers
and the writer of the final answer return is an input, superstep by superstep.

## Main definitions

* `WorkerCall`, `runWorker`: what a worker call comes to, and its result
* `Service`: the answers of planner, workers and writer
* `GraphState`, `step`, `Service.run`: the graph

## Main results

* `Service.sound`: what holds in every state of a run
* `Service.merges`: the results of a wave are new
-/

namespace AgentLabs.Rag

open Math

/-- The states of a result. -/
inductive Status where
  | complete
  | uncertain
  | failed
  deriving DecidableEq, Repr

/-- What a worker call comes to: a result, a timeout or lost connection, or an answer
of the server with an error code. -/
inductive WorkerCall (ρ : Type*) where
  | returned (status : Status) (retryable : Bool) (body : ρ)
  | timedOut (error : String)
  | httpError (code : ℕ)

/-- A result in the dictionary of results. -/
structure WorkerResult (ρ : Type*) where
  status : Status
  retryable : Bool
  error : Option String := none
  missing : List String := []
  body : Option ρ := none
  task : Task
  deriving DecidableEq

/-- The result that the `worker` node makes of a call. -/
def runWorker {ρ : Type*} (t : Task) : WorkerCall ρ → WorkerResult ρ
  | .returned status retryable body => { status, retryable, body := some body, task := t }
  | .timedOut error =>
    { status := .failed, retryable := true, error := some error, missing := [t.objective]
      task := t }
  | .httpError code =>
    { status := .failed, retryable := code ∈ [408, 429] ∨ 500 ≤ code
      error := some ("HTTP_" ++ toString code), missing := [t.objective], task := t }

/-- The final answer, as far as the graph reads it. -/
structure Verdict where
  status : Status
  missing : List String := []
  deriving DecidableEq, Repr

/-- What the service answers in each superstep. -/
structure Service (ρ : Type*) where
  plan : ℕ → Plan
  work : ℕ → Task → WorkerCall ρ
  synthesize : ℕ → Verdict
  noReplan : Bool := false

/-- The exceptions that end a run. -/
inductive GraphError where
  | invalidTask
  | conflict
  deriving DecidableEq, Repr

/-- Where the graph is. A wave of workers carries the tasks it was sent. -/
inductive Node where
  | plan
  | dispatch
  | workers (sent : List Task)
  | join
  | replan
  | ended
  | raised (error : GraphError)
  deriving DecidableEq, Repr

/-- The state of the graph. -/
structure GraphState (ρ : Type*) where
  node : Node := .plan
  plan : List Task := []
  results : Dict String (WorkerResult ρ) := []
  result : Option Verdict := none
  revision : ℕ := 0

/-- `"r" + str(revision) + "-"`. -/
def revisionPrefix (revision : ℕ) : String := "r" ++ toString revision ++ "-"

/-- A task under the prefix of its revision. -/
def prefixed (revision : ℕ) (t : Task) : Task :=
  { t with
    id := revisionPrefix revision ++ t.id
    dependsOn := t.dependsOn.map (revisionPrefix revision ++ ·) }

variable {ρ : Type*}

namespace GraphState

/-- The dependency is complete. -/
def Done (s : GraphState ρ) (id : String) : Prop :=
  (s.results.get? id).map WorkerResult.status = some .complete

instance (s : GraphState ρ) (id : String) : Decidable (s.Done id) :=
  inferInstanceAs (Decidable (_ = _))

/-- The tasks that may start now. -/
def ready (s : GraphState ρ) : List Task :=
  s.plan.filter fun t => s.results.get? t.id = none ∧ ∀ dep ∈ t.dependsOn, s.Done dep

/-- `next_step`: whether the run goes on to a second plan. -/
def replans (s : GraphState ρ) (verdict : Verdict) (noReplan : Bool) : Bool :=
  ¬ (verdict.status = .complete ∨ 1 ≤ s.revision ∨ noReplan) ∧
    ¬ ∃ entry ∈ s.results, entry.2.status = .failed ∧ entry.2.retryable = false

end GraphState

/-- The results of a wave, merged one after the other. -/
def mergeWave [DecidableEq ρ] (results : Dict String (WorkerResult ρ))
    (wave : List (String × WorkerResult ρ)) : Option (Dict String (WorkerResult ρ)) :=
  wave.foldlM (fun merged entry => mergeResults merged [entry]) results

namespace Service

variable [DecidableEq ρ] (service : Service ρ)

/-- What the tasks of a wave return. -/
def wave (n : ℕ) (sent : List Task) : List (String × WorkerResult ρ) :=
  sent.map fun t => (t.id, runWorker t (service.work n t))

/-- One superstep. A worker validates its task before anything else. -/
def step (n : ℕ) (s : GraphState ρ) : GraphState ρ :=
  match s.node with
  | .plan => { s with plan := (service.plan n).tasks.map (prefixed s.revision), node := .dispatch }
  | .dispatch => { s with node := if s.ready = [] then .join else .workers s.ready }
  | .workers sent =>
    if ∀ t ∈ sent, t.Valid then
      match mergeWave s.results (service.wave n sent) with
      | some results => { s with results, node := .dispatch }
      | none => { s with node := .raised .conflict }
    else { s with node := .raised .invalidTask }
  | .join =>
    let verdict := service.synthesize n
    { s with
      result := some verdict
      node := if s.replans verdict service.noReplan then .replan else .ended }
  | .replan => { s with revision := s.revision + 1, node := .plan }
  | .ended => s
  | .raised _ => s

/-- The state after the first `n` supersteps. -/
def run : ℕ → GraphState ρ
  | 0 => {}
  | n + 1 => service.step n (run n)

end Service

/-! ### Prefixes -/

theorem toList_prefix_append (revision : ℕ) (id : String) :
    (revisionPrefix revision ++ id).toList =
      'r' :: ((toString revision).toList ++ '-' :: id.toList) := by
  simp [revisionPrefix, String.toList_append]

theorem prefix_append_injective (revision : ℕ) :
    Function.Injective (revisionPrefix revision ++ ·) := by
  intro a b same
  simpa using same

/-- The ids of the two revisions differ. -/
theorem eq_of_prefix_eq {r r' : ℕ} {a b : String} (first : r ≤ 1) (second : r' ≤ 1)
    (same : revisionPrefix r ++ a = revisionPrefix r' ++ b) : r = r' := by
  have chars := congrArg String.toList same
  rw [toList_prefix_append, toList_prefix_append] at chars
  have zero : (toString 0).toList = ['0'] := by decide
  have one : (toString 1).toList = ['1'] := by decide
  rcases Nat.le_one_iff_eq_zero_or_eq_one.mp first with rfl | rfl <;>
    rcases Nat.le_one_iff_eq_zero_or_eq_one.mp second with rfl | rfl
  · rfl
  · rw [zero, one] at chars
    simp at chars
  · rw [zero, one] at chars
    simp at chars
  · rfl

/-- Prefixes keep every task of a plan grounded. -/
theorem grounded_prefixed (revision : ℕ) {tasks : List Task} {k : String}
    (grounded : Grounded Task.id Task.dependsOn tasks k) :
    Grounded Task.id Task.dependsOn (tasks.map (prefixed revision))
      (revisionPrefix revision ++ k) := by
  induction grounded with
  | @intro t member _ ih =>
    refine Grounded.intro (a := prefixed revision t) (List.mem_map_of_mem member) ?_
    intro d listed
    obtain ⟨dep, waits, rfl⟩ := List.mem_map.mp listed
    exact ih dep waits

/-! ### What holds in every state -/

/-- The key carries the prefix of the revision. -/
def Carries (revision : ℕ) (k : String) : Prop := ∃ id, k = revisionPrefix revision ++ id

/-- What holds of the state of the graph after any number of supersteps. -/
structure GraphState.Sound (s : GraphState ρ) : Prop where
  revision_le : s.revision ≤ 1
  keys : ∀ k, s.results.get? k ≠ none → ∃ r ≤ s.revision, Carries r k
  older : s.node = .plan → ∀ k, s.results.get? k ≠ none → ∃ r < s.revision, Carries r k
  carries : s.node ≠ .plan → ∀ t ∈ s.plan, Carries s.revision t.id
  nodup : (s.plan.map Task.id).Nodup
  grounded : ∀ t ∈ s.plan, Grounded Task.id Task.dependsOn s.plan t.id
  started : s.node ≠ .plan → ∀ t ∈ s.plan, s.results.get? t.id ≠ none →
    ∀ dep ∈ t.dependsOn, s.Done dep
  sent : ∀ sent, s.node = .workers sent → sent = s.ready ∧ sent ≠ []
  joined : s.node = .join → s.ready = []
  first : s.node = .replan → s.revision = 0
  unconflicted : s.node ≠ .raised .conflict

namespace GraphState

variable {s : GraphState ρ} {t : Task}

theorem mem_ready : t ∈ s.ready ↔
    t ∈ s.plan ∧ s.results.get? t.id = none ∧ ∀ dep ∈ t.dependsOn, s.Done dep := by
  simp [ready]

/-- The ids of a wave are distinct. -/
theorem Sound.nodup_ready (sound : s.Sound) : (s.ready.map Task.id).Nodup :=
  (List.filter_sublist.map _).nodup sound.nodup

end GraphState

namespace Service

variable {service : Service ρ} {n : ℕ} {s : GraphState ρ}

theorem keys_wave (service : Service ρ) (n : ℕ) (sent : List Task) :
    (service.wave n sent).map Prod.fst = sent.map Task.id := by
  simp [wave, Function.comp_def]

/-- A wave keeps the results from before. -/
theorem get?_wave_of_some {k : String} {r : WorkerResult ρ} (h : s.results.get? k = some r) :
    (s.results.setAll (service.wave n s.ready)).get? k = some r := by
  rw [Dict.get?_setAll_of_notMem, h]
  rw [keys_wave]
  intro member
  obtain ⟨t, ready, rfl⟩ := List.mem_map.mp member
  rw [(GraphState.mem_ready.mp ready).2.1] at h
  cases h

/-- A wave adds the result of each of its tasks. -/
theorem get?_wave_of_ready (sound : s.Sound) {t : Task} (ready : t ∈ s.ready) :
    (s.results.setAll (service.wave n s.ready)).get? t.id =
      some (runWorker t (service.work n t)) := by
  apply Dict.get?_setAll_of_mem
  · rw [keys_wave]
    exact sound.nodup_ready
  · exact List.mem_map.mpr ⟨t, ready, rfl⟩

/-- A wave adds nothing else. -/
theorem ready_of_get?_wave {k : String}
    (h : (s.results.setAll (service.wave n s.ready)).get? k ≠ none)
    (before : s.results.get? k = none) :
    ∃ t ∈ s.ready, t.id = k := by
  by_contra other
  apply h
  rw [Dict.get?_setAll_of_notMem, before]
  rw [keys_wave]
  intro member
  obtain ⟨t, ready, same⟩ := List.mem_map.mp member
  exact other ⟨t, ready, same⟩

/-- What is complete before a wave is complete after it. -/
theorem done_wave {id : String} (h : s.Done id) :
    ((s.results.setAll (service.wave n s.ready)).get? id).map WorkerResult.status =
      some .complete := by
  obtain ⟨r, stored, status⟩ := Option.map_eq_some_iff.mp h
  rw [get?_wave_of_some stored, Option.map_some, status]

variable [DecidableEq ρ]

theorem mergeWave_of_fresh {results : Dict String (WorkerResult ρ)}
    {wave : List (String × WorkerResult ρ)} (fresh : ∀ k ∈ wave.map Prod.fst, results.get? k = none)
    (nodup : (wave.map Prod.fst).Nodup) : mergeWave results wave = some (results.setAll wave) := by
  induction wave generalizing results with
  | nil => rfl
  | cons entry rest ih =>
    obtain ⟨head, tail⟩ := List.nodup_cons.mp nodup
    have one : mergeResults results [entry] = some (results.setAll [entry]) :=
      mergeResults_of_disjoint (fun k member => fresh k (by
        rw [List.mem_singleton.mp member]
        exact .head _)) (List.nodup_singleton _)
    rw [mergeWave, List.foldlM_cons, one]
    refine ih (fun k member => ?_) tail
    rw [show results.setAll [entry] = results.set entry.1 entry.2 from rfl, Dict.get?_set_of_ne,
      fresh k (.tail _ member)]
    rintro rfl
    exact head member

/-- **The results of a wave are new**, so merging them raises no conflict. -/
theorem merges (sound : s.Sound) (n : ℕ) :
    mergeWave s.results (service.wave n s.ready) =
      some (s.results.setAll (service.wave n s.ready)) := by
  apply mergeWave_of_fresh
  · intro k member
    rw [keys_wave] at member
    obtain ⟨t, ready, rfl⟩ := List.mem_map.mp member
    exact (GraphState.mem_ready.mp ready).2.1
  · rw [keys_wave]
    exact sound.nodup_ready

/-! ### One superstep -/

theorem sound_plan (sound : s.Sound) (node : s.node = .plan) (n : ℕ) :
    (service.step n s).Sound := by
  have stepped : service.step n s =
      { s with plan := (service.plan n).tasks.map (prefixed s.revision), node := .dispatch } := by
    simp only [step, node]
  rw [stepped]
  constructor
  · exact sound.revision_le
  · exact sound.keys
  · exact nofun
  · intro _ t member
    obtain ⟨t, -, rfl⟩ := List.mem_map.mp member
    exact ⟨t.id, rfl⟩
  · have ids : ((service.plan n).tasks.map (prefixed s.revision)).map Task.id =
        ((service.plan n).tasks.map Task.id).map (revisionPrefix s.revision ++ ·) := by
      simp [prefixed, Function.comp_def]
    rw [ids]
    exact (service.plan n).nodup.map (prefix_append_injective _)
  · intro t member
    obtain ⟨t, listed, rfl⟩ := List.mem_map.mp member
    exact grounded_prefixed s.revision ((service.plan n).grounded t listed)
  · -- No task of the new plan has a result: all results are of earlier revisions.
    intro _ t member stored
    obtain ⟨t, -, rfl⟩ := List.mem_map.mp member
    obtain ⟨r, less, id, same⟩ := sound.older node _ stored
    have equal := eq_of_prefix_eq sound.revision_le (less.le.trans sound.revision_le) same
    exact absurd equal less.ne'
  · exact nofun
  · exact nofun
  · exact nofun
  · exact nofun

theorem sound_dispatch (sound : s.Sound) (node : s.node = .dispatch) (n : ℕ) :
    (service.step n s).Sound := by
  have stepped : service.step n s =
      { s with node := if s.ready = [] then .join else .workers s.ready } := by
    simp only [step, node]
  have planned : s.node ≠ .plan := by simp [node]
  rw [stepped]
  by_cases idle : s.ready = []
  · rw [if_pos idle]
    exact ⟨sound.revision_le, sound.keys, nofun, fun _ => sound.carries planned, sound.nodup,
      sound.grounded, fun _ => sound.started planned, nofun, fun _ => idle, nofun, nofun⟩
  · rw [if_neg idle]
    refine ⟨sound.revision_le, sound.keys, nofun, fun _ => sound.carries planned, sound.nodup,
      sound.grounded, fun _ => sound.started planned, fun sent same => ?_, nofun, nofun, nofun⟩
    obtain rfl := Node.workers.inj same
    exact ⟨rfl, idle⟩

theorem sound_workers (sound : s.Sound) {sent : List Task} (node : s.node = .workers sent) (n : ℕ) :
    (service.step n s).Sound := by
  have planned : s.node ≠ .plan := by simp [node]
  obtain ⟨rfl, -⟩ := sound.sent sent node
  have stepped : service.step n s = if ∀ t ∈ s.ready, t.Valid then
      { s with results := s.results.setAll (service.wave n s.ready), node := .dispatch }
      else { s with node := .raised .invalidTask } := by
    simp only [step, node, merges sound n]
  rw [stepped]
  split_ifs
  · -- The results of the wave carry the prefix of the plan they belong to.
    have keys : ∀ k, (s.results.setAll (service.wave n s.ready)).get? k ≠ none →
        ∃ r ≤ s.revision, Carries r k := by
      intro k stored
      cases before : s.results.get? k with
      | some r => exact sound.keys k (by simp [before])
      | none =>
        obtain ⟨t, ready, rfl⟩ := ready_of_get?_wave stored before
        exact ⟨s.revision, le_rfl, sound.carries planned t (GraphState.mem_ready.mp ready).1⟩
    refine ⟨sound.revision_le, keys, nofun, fun _ => sound.carries planned, sound.nodup,
      sound.grounded, fun _ t member stored dep waits => ?_, nofun, nofun, nofun, nofun⟩
    cases before : s.results.get? t.id with
    | some r => exact done_wave (sound.started planned t member (by simp [before]) dep waits)
    | none =>
      obtain ⟨t', ready, same⟩ := ready_of_get?_wave stored before
      obtain rfl := List.inj_on_of_nodup_map sound.nodup (GraphState.mem_ready.mp ready).1 member
        same
      exact done_wave ((GraphState.mem_ready.mp ready).2.2 dep waits)
  · exact ⟨sound.revision_le, sound.keys, nofun, fun _ => sound.carries planned, sound.nodup,
      sound.grounded, fun _ => sound.started planned, nofun, nofun, nofun, nofun⟩

theorem sound_join (sound : s.Sound) (node : s.node = .join) (n : ℕ) :
    (service.step n s).Sound := by
  have planned : s.node ≠ .plan := by simp [node]
  simp only [step, node]
  split_ifs with again
  · refine ⟨sound.revision_le, sound.keys, nofun, fun _ => sound.carries planned, sound.nodup,
      sound.grounded, fun _ => sound.started planned, nofun, nofun, fun _ => ?_, nofun⟩
    simp only [GraphState.replans, not_or, decide_eq_true_eq] at again
    exact Nat.lt_one_iff.mp (Nat.not_le.mp again.1.2.1)
  · exact ⟨sound.revision_le, sound.keys, nofun, fun _ => sound.carries planned, sound.nodup,
      sound.grounded, fun _ => sound.started planned, nofun, nofun, nofun, nofun⟩

theorem sound_replan (sound : s.Sound) (node : s.node = .replan) (n : ℕ) :
    (service.step n s).Sound := by
  have first := sound.first node
  simp only [step, node]
  refine ⟨by simp [first], fun k stored => ?_, fun _ k stored => ?_, fun other => absurd rfl other,
    sound.nodup, sound.grounded, fun other => absurd rfl other, nofun, nofun, nofun, nofun⟩
  · obtain ⟨r, le, carries⟩ := sound.keys k stored
    exact ⟨r, Nat.le_succ_of_le le, carries⟩
  · obtain ⟨r, le, carries⟩ := sound.keys k stored
    exact ⟨r, Nat.lt_succ_of_le le, carries⟩

/-- **Every state of a run is sound.** -/
theorem sound (service : Service ρ) (n : ℕ) : (service.run n).Sound := by
  induction n with
  | zero =>
    exact ⟨Nat.zero_le _, fun k stored => absurd rfl stored, fun _ k stored => absurd rfl stored,
      fun other => absurd rfl other, List.nodup_nil, nofun, fun other => absurd rfl other, nofun,
      nofun, nofun, nofun⟩
  | succ n ih =>
    rw [run]
    cases node : (service.run n).node with
    | plan => exact sound_plan ih node n
    | dispatch => exact sound_dispatch ih node n
    | workers sent => exact sound_workers ih node n
    | join => exact sound_join ih node n
    | replan => exact sound_replan ih node n
    | ended =>
      simp only [step, node]
      exact ih
    | raised error =>
      simp only [step, node]
      exact ih

end Service

end AgentLabs.Rag
