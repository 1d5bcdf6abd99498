import AgentLabs.Rag.Supervisor
import Mathlib.Data.Set.Card

/-!
# Runs of the supervisor

Whatever the planner plans and the workers return, each task starts at most once and
after its dependencies are complete, what is left unstarted at a join waits for a task
that did not complete, results are kept, and there are at most two plans. The run
reaches its end unless a task with an id of more than a hundred characters becomes
ready: ids grow by the prefix of their revision, and a worker validates its task
against the limits of the schema again.

## Main definitions

* `Service.Starts`: a task is sent to a worker
* `Service.sentBefore`: the tasks sent in the first supersteps, each as often as it is sent
* `Service.RunLaw`: the law of a run
* `Service.Fits`: no task with an id over the limit becomes ready

## Main results

* `Service.nodup_sentBefore`: no id is sent twice
* `Service.exists_join`: every plan is joined
* `Service.runLaw_iff`: the law holds exactly where all ready ids fit
* `not_runLaw_longId`: a plan with an id of 98 characters ends in an exception
-/

namespace AgentLabs.Rag

open Math

variable {ρ : Type*} [DecidableEq ρ]

namespace Service

variable (service : Service ρ)

/-- In superstep `n` the task is sent to a worker. -/
def Starts (n : ℕ) (t : Task) : Prop := ∃ sent, (service.run n).node = .workers sent ∧ t ∈ sent

/-- The tasks that superstep `n` sends to workers, one entry for each sending. -/
def sentIn (n : ℕ) : List Task :=
  match (service.run n).node with
  | .workers sent => sent
  | _ => []

/-- The tasks that are sent to workers before superstep `n`. -/
def sentBefore (n : ℕ) : List Task := (List.range n).flatMap service.sentIn

/-- The task was started and its result is not complete. -/
def Failed (n : ℕ) (t : Task) : Prop :=
  ∃ r, (service.run n).results.get? t.id = some r ∧ r.status ≠ .complete

/-- The ids of the tasks that become ready are within the limit. -/
def Fits : Prop :=
  ∀ n, (service.run n).node = .dispatch → ∀ t ∈ (service.run n).ready, t.id.length ≤ 100

/-- The law of a run. -/
structure RunLaw : Prop where
  once : ∀ n, ((service.sentBefore n).map Task.id).Nodup
  dependencies : ∀ {n t}, service.Starts n t → ∀ dep ∈ t.dependsOn, (service.run n).Done dep
  joined : ∀ {n}, (service.run n).node = .join → ∀ t ∈ (service.run n).plan,
    (∀ m < n, ∀ t', service.Starts m t' → t'.id ≠ t.id) ↔
      ∃ t', Relation.TransGen (WaitsFor Task.id Task.dependsOn (service.run n).plan) t t' ∧
        service.Failed n t'
  kept : ∀ {m n}, m ≤ n → ∀ {k r}, (service.run m).results.get? k = some r →
    (service.run n).results.get? k = some r
  merged : ∀ n, (service.run n).node ≠ .raised .conflict
  plans : {n | (service.run n).node = .plan}.ncard ≤ 2
  replanned : ∀ {n}, (service.run n).node = .replan → (service.run n).revision = 0 ∧
    (∃ verdict, (service.run n).result = some verdict ∧ verdict.status ≠ .complete) ∧
    (∀ k r, (service.run n).results.get? k = some r →
      ¬ (r.status = .failed ∧ r.retryable = false)) ∧
    service.noReplan = false
  ends : ∃ n, (service.run n).node = .ended

variable {service} {m n : ℕ} {t t' : Task}

/-! ### What a superstep keeps -/

theorem run_succ : service.run (n + 1) = service.step n (service.run n) := rfl

theorem results_succ {k : String} {r : WorkerResult ρ}
    (stored : (service.run n).results.get? k = some r) :
    (service.run (n + 1)).results.get? k = some r := by
  rw [run_succ]
  cases node : (service.run n).node with
  | workers sent =>
    obtain ⟨rfl, -⟩ := (service.sound n).sent sent node
    simp only [step, node, merges (service.sound n) n]
    split_ifs
    · exact get?_wave_of_some stored
    · exact stored
  | _ => simp only [step, node, stored]

/-- **Results are kept.** -/
theorem results_kept (later : m ≤ n) {k : String} {r : WorkerResult ρ}
    (stored : (service.run m).results.get? k = some r) :
    (service.run n).results.get? k = some r := by
  induction later with
  | refl => exact stored
  | step _ ih => exact results_succ ih

/-- A run that has ended, or raised, stays where it is. -/
theorem run_of_final (final : (service.run m).node = .ended ∨ ∃ e, (service.run m).node = .raised e)
    (later : m ≤ n) : service.run n = service.run m := by
  induction later with
  | refl => rfl
  | step _ ih =>
    rw [run_succ, ih]
    rcases final with node | ⟨e, node⟩ <;> simp only [step, node]

/-! ### Starting -/

theorem Starts.ready (starts : service.Starts n t) : t ∈ (service.run n).ready := by
  obtain ⟨sent, node, member⟩ := starts
  rwa [((service.sound n).sent sent node).1] at member

/-- After its superstep a started task has a result, unless the superstep raised. -/
theorem Starts.result (starts : service.Starts n t) :
    (∃ r, (service.run (n + 1)).results.get? t.id = some r) ∨
      (service.run (n + 1)).node = .raised .invalidTask := by
  have ready := starts.ready
  obtain ⟨sent, node, -⟩ := starts
  obtain ⟨rfl, -⟩ := (service.sound n).sent sent node
  rw [run_succ]
  simp only [step, node, merges (service.sound n) n]
  split_ifs
  · exact .inl ⟨_, get?_wave_of_ready (service.sound n) ready⟩
  · exact .inr rfl

/-- **A task starts once.** -/
theorem started_once (first : service.Starts m t) (second : service.Starts n t')
    (same : t.id = t'.id) : m = n ∧ t = t' := by
  -- A started id is spent: it has a result, or nothing is started any more.
  have equal : m = n := by
    apply spend_injective (fun n id => ∃ t, service.Starts n t ∧ t.id = id)
      (fun n id => (∃ r, (service.run n).results.get? id = some r) ∨
        ∃ e, (service.run n).node = .raised e) _ _ ⟨t, first, rfl⟩ ⟨t', second, same.symm⟩
    · rintro n id (⟨r, stored⟩ | ⟨e, raised⟩)
      · exact .inl ⟨r, results_succ stored⟩
      · exact .inr ⟨e, by rw [run_of_final (.inr ⟨e, raised⟩) n.le_succ, raised]⟩
    · rintro n id ⟨t, starts, rfl⟩
      refine ⟨?_, starts.result.imp_right fun raised => ⟨_, raised⟩⟩
      rintro (⟨r, stored⟩ | ⟨e, raised⟩)
      · rw [(GraphState.mem_ready.mp starts.ready).2.1] at stored
        cases stored
      · obtain ⟨sent, node, -⟩ := starts
        rw [node] at raised
        cases raised
  subst equal
  exact ⟨rfl, List.inj_on_of_nodup_map (service.sound m).nodup
    (GraphState.mem_ready.mp first.ready).1 (GraphState.mem_ready.mp second.ready).1 same⟩

theorem mem_sentIn : t ∈ service.sentIn n ↔ service.Starts n t := by
  unfold sentIn Starts
  constructor
  · intro member
    cases node : (service.run n).node with
    | workers sent => exact ⟨sent, rfl, by rwa [node] at member⟩
    | _ => simp [node] at member
  · rintro ⟨sent, node, member⟩
    rwa [node]

/-- The ids that one superstep sends are distinct. -/
theorem nodup_sentIn (service : Service ρ) (n : ℕ) :
    ((service.sentIn n).map Task.id).Nodup := by
  unfold sentIn
  cases node : (service.run n).node with
  | workers sent =>
    obtain ⟨rfl, -⟩ := (service.sound n).sent sent node
    exact (service.sound n).nodup_ready
  | _ => exact List.nodup_nil

/-- **No id is sent twice**, neither in one superstep nor in two. -/
theorem nodup_sentBefore (service : Service ρ) (n : ℕ) :
    ((service.sentBefore n).map Task.id).Nodup := by
  rw [sentBefore, List.map_flatMap, List.nodup_flatMap]
  refine ⟨fun m _ => service.nodup_sentIn m, List.nodup_range.imp fun {m k} apart id => ?_⟩
  simp only [List.mem_map, mem_sentIn]
  rintro ⟨t, first, rfl⟩ ⟨t', second, same⟩
  exact apart (started_once first second same.symm).1

/-- What has a result was started. -/
theorem exists_starts {k : String} (stored : (service.run n).results.get? k ≠ none) :
    ∃ m < n, ∃ t, service.Starts m t ∧ t.id = k := by
  induction n with
  | zero => exact absurd rfl stored
  | succ n ih =>
    cases before : (service.run n).results.get? k with
    | some r =>
      obtain ⟨m, less, started⟩ := ih (by simp [before])
      exact ⟨m, less.trans n.lt_succ_self, started⟩
    | none =>
      rw [run_succ] at stored
      cases node : (service.run n).node with
      | workers sent =>
        obtain ⟨rfl, -⟩ := (service.sound n).sent sent node
        simp only [step, node, merges (service.sound n) n] at stored
        split_ifs at stored
        · obtain ⟨t, ready, same⟩ := ready_of_get?_wave stored before
          exact ⟨n, n.lt_succ_self, t, ⟨_, node, ready⟩, same⟩
        · exact absurd before stored
      | _ => simp [step, node, before] at stored

/-- Unless the run raised, a task has a result exactly when it was started. -/
theorem unstarted_iff_none (node : ∀ e, (service.run n).node ≠ .raised e) {k : String} :
    (∀ m < n, ∀ t, service.Starts m t → t.id ≠ k) ↔ (service.run n).results.get? k = none := by
  constructor
  · intro unstarted
    by_contra stored
    obtain ⟨m, less, t, starts, same⟩ := exists_starts stored
    exact unstarted m less t starts same
  · rintro none m less t starts rfl
    rcases starts.result with ⟨r, stored⟩ | raised
    · rw [results_kept less stored] at none
      cases none
    · rw [← run_of_final (.inr ⟨_, raised⟩) less] at raised
      exact node _ raised

/-! ### Joining -/

/-- **At a join** a task has no result exactly when it waits, directly or through
others, for a task whose result is not complete. -/
theorem none_iff_failed (node : (service.run n).node = .join) (member : t ∈ (service.run n).plan) :
    (service.run n).results.get? t.id = none ↔
      ∃ t', Relation.TransGen (WaitsFor Task.id Task.dependsOn (service.run n).plan) t t' ∧
        service.Failed n t' := by
  have sound := service.sound n
  have planned : (service.run n).node ≠ .plan := by simp [node]
  -- Induction along the dependencies, which are tasks of the plan themselves.
  refine Grounded.induction (P := fun t => (service.run n).results.get? t.id = none ↔
    ∃ t', Relation.TransGen (WaitsFor Task.id Task.dependsOn (service.run n).plan) t t' ∧
      service.Failed n t') sound.nodup (fun t member ih => ?_) member (sound.grounded t member)
  constructor
  · intro none
    have waiting : t ∉ (service.run n).ready := by
      rw [sound.joined node]
      exact List.not_mem_nil
    simp only [GraphState.mem_ready, member, none, true_and, not_forall] at waiting
    obtain ⟨dep, waits, open_⟩ := waiting
    obtain ⟨d, listed, rfl, -⟩ : ∃ d ∈ (service.run n).plan, d.id = dep ∧ _ :=
      ((sound.grounded t member).exists_item.elim fun a ha => by
        obtain rfl := List.inj_on_of_nodup_map sound.nodup ha.1 member ha.2.1
        exact (ha.2.2 dep waits).exists_item)
    have edge : WaitsFor Task.id Task.dependsOn (service.run n).plan t d := ⟨listed, waits⟩
    cases stored : (service.run n).results.get? d.id with
    | none =>
      obtain ⟨t', path, failed⟩ := (ih d edge).mp stored
      exact ⟨t', .head edge path, failed⟩
    | some r =>
      refine ⟨d, .single edge, r, stored, fun complete => open_ ?_⟩
      rw [GraphState.Done, stored, Option.map_some, complete]
  · rintro ⟨t', path, failed⟩
    by_contra stored
    obtain ⟨d, edge, rest⟩ := Relation.TransGen.head'_iff.mp path
    -- A started task has complete dependencies, so the failed one is further on.
    have done := sound.started planned t member stored d.id edge.2
    obtain ⟨r, found, complete⟩ := Option.map_eq_some_iff.mp done
    rcases Relation.reflTransGen_iff_eq_or_transGen.mp rest with rfl | further
    · obtain ⟨r', found', incomplete⟩ := failed
      obtain rfl := Option.some.inj (found.symm.trans found')
      exact incomplete complete
    · rw [(ih d edge).mpr ⟨t', further, failed⟩] at found
      cases found

/-! ### Ending -/

/-- The tasks of the current plan are within the limits, up to the length of their ids. -/
theorem limits (service : Service ρ) (n : ℕ) : ∀ t ∈ (service.run n).plan,
    1 ≤ t.id.length ∧ 1 ≤ t.objective.length ∧ t.objective.length ≤ 2000 := by
  induction n with
  | zero => exact nofun
  | succ n ih =>
    rw [run_succ]
    cases node : (service.run n).node with
    | plan =>
      simp only [step, node]
      intro t member
      obtain ⟨t, listed, rfl⟩ := List.mem_map.mp member
      have valid := (service.plan n).valid t listed
      refine ⟨?_, valid.2⟩
      simp only [prefixed, String.length_append]
      exact Nat.le_add_left_of_le valid.1.1
    | workers sent =>
      obtain ⟨rfl, -⟩ := (service.sound n).sent sent node
      simp only [step, node, merges (service.sound n) n]
      split_ifs <;> exact ih
    | _ =>
      simp only [step, node]
      exact ih

theorem valid_of_ready (fits : service.Fits) (node : (service.run n).node = .dispatch)
    (ready : t ∈ (service.run n).ready) : t.Valid :=
  have limits := service.limits n t (GraphState.mem_ready.mp ready).1
  ⟨⟨limits.1, fits n node t ready⟩, limits.2⟩

/-- The tasks of the plan that have no result. -/
def unstarted (s : GraphState ρ) : List Task := s.plan.filter fun t => s.results.get? t.id = none

/-- A dispatch with ready tasks leads, a wave later, to one with fewer unstarted tasks. -/
theorem dispatch_again (fits : service.Fits) (node : (service.run n).node = .dispatch)
    (busy : (service.run n).ready ≠ []) :
    (service.run (n + 2)).node = .dispatch ∧
      (service.run (n + 2)).revision = (service.run n).revision ∧
      (unstarted (service.run (n + 2))).length < (unstarted (service.run n)).length := by
  have sent : service.run (n + 1) =
      { service.run n with node := .workers (service.run n).ready } := by
    rw [run_succ]
    simp only [step, node, if_neg busy]
  have valid : ∀ t ∈ (service.run n).ready, t.Valid := fun t => valid_of_ready fits node
  have collected : service.run (n + 2) = { service.run n with
      results := (service.run n).results.setAll (service.wave (n + 1) (service.run n).ready)
      node := .dispatch } := by
    rw [run_succ, sent]
    simp only [step, merges (service.sound n) (n + 1), if_pos valid]
  rw [collected]
  refine ⟨rfl, rfl, ?_⟩
  obtain ⟨t, ready⟩ := List.exists_mem_of_ne_nil _ busy
  have listed := GraphState.mem_ready.mp ready
  -- Nothing becomes unstarted, and the task that was started is not any more.
  have sublist : List.Sublist
      ((service.run n).plan.filter fun t => ((service.run n).results.setAll
        (service.wave (n + 1) (service.run n).ready)).get? t.id = none)
      (unstarted (service.run n)) := by
    apply List.monotone_filter_right
    intro t' none
    simp only [decide_eq_true_eq] at none ⊢
    by_contra stored
    obtain ⟨r, found⟩ := Option.ne_none_iff_exists'.mp stored
    rw [get?_wave_of_some found] at none
    cases none
  refine sublist.length_le.lt_of_ne fun same => ?_
  have still : t ∈ (service.run n).plan.filter fun t => ((service.run n).results.setAll
      (service.wave (n + 1) (service.run n).ready)).get? t.id = none := by
    rw [sublist.eq_of_length same]
    simp [unstarted, listed.1, listed.2.1]
  rw [List.mem_filter, get?_wave_of_ready (service.sound n) ready] at still
  simp at still

/-- **Every dispatch leads to a join** of its plan. -/
theorem exists_join (fits : service.Fits) (node : (service.run n).node = .dispatch) :
    ∃ m, (service.run m).node = .join ∧
      (service.run m).revision = (service.run n).revision := by
  induction left : (unstarted (service.run n)).length using Nat.strong_induction_on
    generalizing n with
  | _ left ih =>
    by_cases idle : (service.run n).ready = []
    · refine ⟨n + 1, ?_, ?_⟩ <;> rw [run_succ] <;> simp only [step, node, if_pos idle]
    · obtain ⟨again, revision, fewer⟩ := dispatch_again fits node idle
      obtain ⟨m, joined, same⟩ := ih _ (left ▸ fewer) again rfl
      exact ⟨m, joined, same.trans revision⟩

theorem dispatch_of_plan (node : (service.run n).node = .plan) :
    (service.run (n + 1)).node = .dispatch ∧
      (service.run (n + 1)).revision = (service.run n).revision := by
  rw [run_succ]
  simp only [step, node, and_self]

/-- **The run reaches its end** when the ids of ready tasks fit. -/
theorem exists_ended (fits : service.Fits) : ∃ n, (service.run n).node = .ended := by
  obtain ⟨first, -⟩ := dispatch_of_plan (show (service.run 0).node = .plan from rfl)
  obtain ⟨m, joined, -⟩ := exists_join fits first
  have after : (service.run (m + 1)).node = .ended ∨ (service.run (m + 1)).node = .replan := by
    rw [run_succ]
    simp only [step, joined]
    split_ifs
    · exact .inr rfl
    · exact .inl rfl
  rcases after with ended | replan
  · exact ⟨m + 1, ended⟩
  have planned : (service.run (m + 2)).node = .plan ∧ (service.run (m + 2)).revision = 1 := by
    rw [run_succ]
    simp only [step, replan, (service.sound (m + 1)).first replan, and_self]
  obtain ⟨second, revision⟩ := dispatch_of_plan planned.1
  obtain ⟨k, joined', revision'⟩ := exists_join fits second
  -- The second join ends the run whatever the answer is.
  have last : 1 ≤ (service.run k).revision := by rw [revision', revision, planned.2]
  refine ⟨k + 1, ?_⟩
  rw [run_succ]
  simp [step, joined', GraphState.replans, last]

/-! ### Planning -/

theorem revision_mono (later : m ≤ n) : (service.run m).revision ≤ (service.run n).revision := by
  induction later with
  | refl => exact le_rfl
  | @step n _ ih =>
    refine ih.trans ?_
    rw [run_succ]
    cases node : (service.run n).node with
    | replan => simp [step, node]
    | workers sent =>
      obtain ⟨rfl, -⟩ := (service.sound n).sent sent node
      simp only [step, node, merges (service.sound n) n]
      split_ifs <;> exact le_rfl
    | _ => simp [step, node]

/-- A later plan belongs to a new revision. -/
theorem revision_of_plan (node : (service.run (n + 1)).node = .plan) :
    (service.run (n + 1)).revision = (service.run n).revision + 1 := by
  rw [run_succ] at node ⊢
  cases before : (service.run n).node with
  | replan => simp only [step, before]
  | workers sent =>
    obtain ⟨rfl, -⟩ := (service.sound n).sent sent before
    simp only [step, before, merges (service.sound n) n] at node
    split_ifs at node
  | dispatch =>
    simp only [step, before] at node
    split_ifs at node
  | join =>
    simp only [step, before] at node
    split_ifs at node
  | _ => simp [step, before] at node

/-- **There are at most two plans.** -/
theorem ncard_plans (service : Service ρ) : {n | (service.run n).node = .plan}.ncard ≤ 2 := by
  have less : ∀ {m n}, (service.run n).node = .plan → m < n →
      (service.run m).revision < (service.run n).revision := by
    intro m n node before
    obtain ⟨n, rfl⟩ := Nat.exists_eq_succ_of_ne_zero (Nat.ne_zero_of_lt before)
    rw [revision_of_plan node]
    exact Nat.lt_succ_of_le (revision_mono (Nat.le_of_lt_succ before))
  rw [← Set.ncard_pair Nat.zero_ne_one]
  apply Set.ncard_le_ncard_of_injOn (fun n => (service.run n).revision) _ _ (Set.toFinite _)
  · exact fun n _ => Nat.le_one_iff_eq_zero_or_eq_one.mp (service.sound n).revision_le
  · intro m hm n hn same
    rcases Nat.lt_trichotomy m n with before | equal | after
    · exact absurd same (less hn before).ne
    · exact equal
    · exact absurd same (less hm after).ne'

/-- **A second plan** follows a first answer that is not complete, when nothing failed
for good. -/
theorem of_replan (node : (service.run n).node = .replan) :
    (service.run n).revision = 0 ∧
    (∃ verdict, (service.run n).result = some verdict ∧ verdict.status ≠ .complete) ∧
    (∀ k r, (service.run n).results.get? k = some r →
      ¬ (r.status = .failed ∧ r.retryable = false)) ∧
    service.noReplan = false := by
  refine ⟨(service.sound n).first node, ?_⟩
  cases n with
  | zero => cases node
  | succ n =>
    rw [run_succ] at node ⊢
    -- Only `join` goes on to a second plan.
    cases before : (service.run n).node with
    | join =>
      simp only [step, before] at node ⊢
      split_ifs at node with again
      simp only [GraphState.replans, not_or, decide_eq_true_eq, Bool.not_eq_true] at again
      refine ⟨⟨_, rfl, again.1.1⟩, fun k r stored failed => again.2 ?_, again.1.2.2⟩
      exact ⟨(k, r), Dict.mem_of_get?_eq_some stored, failed⟩
    | workers sent =>
      obtain ⟨rfl, -⟩ := (service.sound n).sent sent before
      simp only [step, before, merges (service.sound n) n] at node
      split_ifs at node
    | dispatch =>
      simp only [step, before] at node
      split_ifs at node
    | _ => simp [step, before] at node

/-! ### The law -/

/-- **The law of a run.** It holds exactly where the ids of all tasks that become ready
are within the limit of the schema. -/
theorem runLaw_iff (service : Service ρ) : service.RunLaw ↔ service.Fits := by
  constructor
  · intro law n node t ready
    by_contra long
    obtain ⟨k, ended⟩ := law.ends
    have busy : (service.run n).ready ≠ [] := List.ne_nil_of_mem ready
    have raised : (service.run (n + 2)).node = .raised .invalidTask := by
      have sent : service.run (n + 1) =
          { service.run n with node := .workers (service.run n).ready } := by
        rw [run_succ]
        simp only [step, node, if_neg busy]
      rw [run_succ, sent]
      simp only [step]
      rw [if_neg fun valid => long (valid t ready).1.2]
    -- Neither an end before nor one after the exception is possible.
    rcases Nat.le_total k n with before | after
    · rw [run_of_final (.inl ended) before, ended] at node
      cases node
    · rcases Nat.le_total k (n + 2) with before | after
      · rw [run_of_final (.inl ended) before, ended] at raised
        cases raised
      · rw [run_of_final (.inr ⟨_, raised⟩) after, raised] at ended
        cases ended
  · intro fits
    exact {
      once := service.nodup_sentBefore
      dependencies := fun starts => (GraphState.mem_ready.mp starts.ready).2.2
      joined := fun node t member => by
        rw [unstarted_iff_none fun e raised => by rw [node] at raised; cases raised]
        exact none_iff_failed node member
      kept := fun later => results_kept later
      merged := fun n => (service.sound n).unconflicted
      plans := service.ncard_plans
      replanned := of_replan
      ends := exists_ended fits }

end Service

/-! ### A long id -/

/-- A plan with one task, whose id has 98 characters. -/
def longIdPlan : Plan where
  tasks := [⟨String.ofList (List.replicate 98 'a'), .operations, "timeouts", []⟩]
  size := by decide
  valid := by decide
  dag := by decide

/-- A service that plans it and whose workers complete. -/
def longIdService : Service Unit where
  plan := fun _ => longIdPlan
  work := fun _ _ => .returned .complete false ()
  synthesize := fun _ => { status := .complete }

/-- The worker refuses the task that the supervisor sends. -/
theorem not_runLaw_longId : ¬ longIdService.RunLaw := by
  intro law
  obtain ⟨k, ended⟩ := law.ends
  have raised : (longIdService.run 3).node = .raised .invalidTask := by decide
  rcases Nat.le_total k 3 with before | after
  · rw [Service.run_of_final (.inl ended) before, ended] at raised
    cases raised
  · rw [Service.run_of_final (.inr ⟨_, raised⟩) after, raised] at ended
    cases ended

end AgentLabs.Rag
