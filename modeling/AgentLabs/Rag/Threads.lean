import Mathlib.Data.List.DropRight
import AgentLabs.Rag.Architectures
import AgentLabs.Rag.Backend
import AgentLabs.Text.PythonStr

/-!
# Threads

A thread of a customer and a day is a conversation: a run is shown its last turns, and adds one if
it returns. The registry keeps the turns under a digest of the three names, joined with bars. A run
that raises leaves the conversation as it is.

## Main definitions

* `ThreadRequest`, `History`: a request in a thread, and what is kept of a thread
* `execute`: one run of a graph for a request
* `ThreadsLaw`: what is wanted of the runs of a registry, one after the other

## Main results

* `threads_law`: every run is shown what the runs of its thread have left, and nothing else
-/

namespace AgentLabs.Rag

open Math Text

/-! ### Conversations -/

/-- A turn that is kept. -/
structure Turn where
  question : String
  answer : String
  status : String
  missing : List String
  deriving DecidableEq, Repr

/-- A turn as a model is shown it. -/
def Turn.toJson (turn : Turn) : Json :=
  .obj [("question", .str turn.question), ("answer", .str turn.answer),
    ("status", .str turn.status), ("missing", .arr (turn.missing.map .str))]

/-- What is kept of a thread. -/
structure History where
  owner : String := "general"
  turns : List Turn := []
  deriving DecidableEq, Repr

/-- A request in a thread. -/
structure ThreadRequest extends Asking where
  thread : String := "default"

/-- What the digest of a thread is of. -/
def ThreadRequest.scopeText (r : ThreadRequest) : String :=
  r.entity ++ "|" ++ r.asOf ++ "|" ++ r.thread

/-- What a graph comes to, as far as it is kept. -/
structure Ending where
  text : String
  status : String
  missing : List String
  owner : Option String := none
  deriving DecidableEq, Repr

/-- What the runs share: the conversations, and the rest. -/
structure Lab (σ : Type) where
  conversations : Dict String History := []
  outside : σ

variable {σ : Type}

namespace Lab

/-- `registry.history`. -/
def history (lab : Lab σ) (scope : String) : History := (lab.conversations.get? scope).getD {}

@[simp] theorem history_outside (lab : Lab σ) (outside : σ) (scope : String) :
    ({ lab with outside } : Lab σ).history scope = lab.history scope := rfl

/-- `registry.save_history`. -/
def saveHistory (lab : Lab σ) (scope : String) (value : History) : Lab σ :=
  { lab with conversations := lab.conversations.set scope value }

end Lab

/-- The history behind a run that has returned. -/
def History.extended (history : History) (question : String) (ending : Ending) : History where
  owner := ending.owner.getD history.owner
  turns := List.rtake (history.turns ++ [⟨question, ending.text, ending.status, ending.missing⟩]) 4

/-- `execute`, of a graph that is built for a history. A run that raises is a row of its own. -/
def execute (digest : String → String) (r : ThreadRequest)
    (graph : History → Program σ WorkerError Ending) (lab : Lab σ) :
    Except WorkerError Ending × Lab σ :=
  let scope := digest r.scopeText
  let history := lab.history scope
  match graph history lab.outside with
  | (.ok ending, outside) =>
    (.ok ending, { lab with outside }.saveHistory scope (history.extended r.question ending))
  | (.error raised, outside) => (.error raised, { lab with outside })

/-! ### The graphs -/

/-- The status of a result. -/
def WorkerStatus.text : WorkerStatus → String
  | .uncertain => "uncertain"
  | .complete => "complete"

/-- What is kept of an outcome. -/
def Outcome.ending (owner : Option Role) : Outcome → Ending
  | .finished result =>
    ⟨result.text, result.status.text, result.missing, owner.map Role.text⟩
  | .clarification text missing => ⟨text, "needs_clarification", missing, owner.map Role.text⟩

/-- The graph of an architecture for a request, on a history. -/
def Architecture.invoke (a : Architecture) (web : String) (contextBytes : ℤ) (out : Outside σ)
    (planners : Planners σ) (r : ThreadRequest) (history : History) :
    Program σ WorkerError Ending := do
  let desk : Desk :=
    { web, contextBytes, request := r.toWorkRequest, turns := history.turns.map Turn.toJson }
  let ended ← (a.graph desk out planners).run recursionLimit [] a.start { question := r.question }
  match ended with
  | none => throw (.raised "GraphRecursionError")
  | some (_, s) => do
    let outcome ← field s.result
    pure (outcome.ending s.owner)

/-! ### Runs one after the other -/

/-- A request, and the graph that is built for it. -/
structure Job (σ : Type) where
  request : ThreadRequest
  graph : History → Program σ WorkerError Ending

/-- A run that was made: its request, the history that its graph was built for, and its row. -/
structure Ran where
  request : ThreadRequest
  shown : History
  row : Except WorkerError Ending

/-- The runs of a list of jobs, in their order. -/
def executeAll (digest : String → String) : List (Job σ) → Lab σ → List Ran × Lab σ
  | [], lab => ([], lab)
  | job :: rest, lab =>
    let ran := execute digest job.request job.graph lab
    let others := executeAll digest rest ran.2
    (⟨job.request, lab.history (digest job.request.scopeText), ran.1⟩ :: others.1, others.2)

namespace Ran

/-- The turn that a run has added. -/
def turn? (ran : Ran) : Option Turn :=
  ran.row.toOption.map fun ending : Ending =>
    ⟨ran.request.question, ending.text, ending.status, ending.missing⟩

/-- The owner that a run has left. -/
def owner? (ran : Ran) : Option String := ran.row.toOption.bind Ending.owner

end Ran

/-- What some runs leave, read off them: the last four turns, and the last owner. -/
def historyOf (runs : List Ran) : History where
  owner := (runs.filterMap Ran.owner?).getLast?.getD "general"
  turns := (runs.filterMap Ran.turn?).rtake 4

/-- The runs of a thread. -/
def inThread (r : ThreadRequest) (runs : List Ran) : List Ran :=
  runs.filter fun ran => ran.request.scopeText = r.scopeText

/-- What is wanted of runs one after the other: each row is that of the graph of its job, built for
the history that is shown; each one is shown what the runs of its thread before it have left; that
is also what is kept; and two threads are one only if customer, day and name agree, as long as no
customer has a bar in its name. -/
structure ThreadsLaw (digest : String → String) (jobs : List (Job σ)) (runs : List Ran)
    (lab : Lab σ) : Prop where
  built : List.Forall₂ (fun job ran => ran.request = job.request ∧
    ∃ outside, ran.row = (job.graph ran.shown outside).1) jobs runs
  shown : ∀ front ran back, runs = front ++ ran :: back →
    ran.shown = historyOf (inThread ran.request front)
  kept : ∀ job ∈ jobs, lab.history (digest job.request.scopeText) =
    historyOf (inThread job.request runs)
  apart : ∀ job ∈ jobs, ∀ job' ∈ jobs, '|' ∉ job.request.entity.toList →
    '|' ∉ job'.request.entity.toList → job.request.scopeText = job'.request.scopeText →
    job.request.entity = job'.request.entity ∧ job.request.asOf = job'.request.asOf ∧
      job.request.thread = job'.request.thread

/-! ### One run -/

section Runs

variable {digest : String → String} {r : ThreadRequest} {ran : Ran} {runs before : List Ran}
  {lab : Lab σ} {job : Job σ} {jobs : List (Job σ)}

/-- The last turns of the last turns and one more. -/
theorem rtake_concat_rtake (turns : List Turn) (turn : Turn) :
    (turns.rtake 4 ++ [turn]).rtake 4 = (turns ++ [turn]).rtake 4 := by
  rw [List.rtake_concat_succ, List.rtake_concat_succ]
  simp only [List.rtake_eq_reverse_take_reverse, List.reverse_reverse, List.take_take]
  rfl

/-- What a run that has returned adds. -/
theorem historyOf_concat (shown : History) (ending : Ending) :
    historyOf (runs ++ [⟨r, shown, .ok ending⟩]) =
      (historyOf runs).extended r.question ending := by
  have turn : Ran.turn? ⟨r, shown, .ok ending⟩ =
      some ⟨r.question, ending.text, ending.status, ending.missing⟩ := rfl
  have owner : Ran.owner? ⟨r, shown, .ok ending⟩ = ending.owner := rfl
  unfold historyOf History.extended
  simp only [List.filterMap_append, List.filterMap_cons, List.filterMap_nil, turn, owner]
  congr 1
  · cases ending.owner with
    | none => simp
    | some name => simp
  · exact (rtake_concat_rtake _ _).symm

/-- A run that has raised adds nothing. -/
theorem historyOf_concat_of_raised (shown : History) (raised : WorkerError) :
    historyOf (runs ++ [⟨r, shown, .error raised⟩]) = historyOf runs := by
  have turn : Ran.turn? ⟨r, shown, .error raised⟩ = none := rfl
  have owner : Ran.owner? ⟨r, shown, .error raised⟩ = none := rfl
  unfold historyOf
  simp only [List.filterMap_append, List.filterMap_cons, List.filterMap_nil, turn, owner,
    List.append_nil]

theorem inThread_concat_of_eq {own : ThreadRequest} (shown : History)
    (row : Except WorkerError Ending) (same : own.scopeText = r.scopeText) :
    inThread r (runs ++ [⟨own, shown, row⟩]) = inThread r runs ++ [⟨own, shown, row⟩] := by
  simp [inThread, same]

theorem inThread_concat_of_ne {own : ThreadRequest} (shown : History)
    (row : Except WorkerError Ending) (other : own.scopeText ≠ r.scopeText) :
    inThread r (runs ++ [⟨own, shown, row⟩]) = inThread r runs := by
  simp [inThread, other]

/-- Of each thread of the jobs there is kept what its runs have left. -/
def Kept (digest : String → String) (jobs : List (Job σ)) (runs : List Ran) (lab : Lab σ) : Prop :=
  ∀ job ∈ jobs, lab.history (digest job.request.scopeText) = historyOf (inThread job.request runs)

/-- The digests of the threads of the jobs are distinct. -/
def DistinctThreads (digest : String → String) (jobs : List (Job σ)) : Prop :=
  ∀ job ∈ jobs, ∀ job' ∈ jobs, digest job.request.scopeText = digest job'.request.scopeText →
    job.request.scopeText = job'.request.scopeText

theorem execute_of_ok {graph : History → Program σ WorkerError Ending} {ending : Ending}
    {outside : σ}
    (returned : graph (lab.history (digest r.scopeText)) lab.outside = (.ok ending, outside)) :
    execute digest r graph lab = (.ok ending, { lab with outside }.saveHistory
      (digest r.scopeText) ((lab.history (digest r.scopeText)).extended r.question ending)) := by
  simp only [execute, returned]

theorem execute_of_error {graph : History → Program σ WorkerError Ending} {raised : WorkerError}
    {outside : σ}
    (failed : graph (lab.history (digest r.scopeText)) lab.outside = (.error raised, outside)) :
    execute digest r graph lab = (.error raised, { lab with outside }) := by
  simp only [execute, failed]

theorem Kept.execute (kept : Kept digest jobs runs lab) (distinct : DistinctThreads digest jobs)
    (member : job ∈ jobs) :
    Kept digest jobs
      (runs ++ [⟨job.request, lab.history (digest job.request.scopeText),
        (execute digest job.request job.graph lab).1⟩])
      (execute digest job.request job.graph lab).2 := by
  intro other listed
  have theirs := kept other listed
  rcases ran : job.graph (lab.history (digest job.request.scopeText)) lab.outside with
    ⟨raised | ending, outside⟩
  · -- Nothing is kept of a run that raises.
    rw [execute_of_error ran]
    dsimp only
    rw [Lab.history_outside, theirs]
    by_cases same : job.request.scopeText = other.request.scopeText
    · rw [inThread_concat_of_eq _ _ same, historyOf_concat_of_raised]
    · rw [inThread_concat_of_ne _ _ same]
  · rw [execute_of_ok ran]
    by_cases same : job.request.scopeText = other.request.scopeText
    · rw [inThread_concat_of_eq _ _ same, historyOf_concat, ← theirs, ← same, Lab.history,
        Lab.saveHistory, Dict.get?_set_self, Option.getD_some]
    -- The history of another thread stands under another name.
    · have apart : digest job.request.scopeText ≠ digest other.request.scopeText :=
        fun equal => same (distinct job member other listed equal)
      rw [inThread_concat_of_ne _ _ same, ← theirs, Lab.history, Lab.saveHistory,
        Dict.get?_set_of_ne apart]
      rfl

/-- **All runs**, behind some that were made before. -/
theorem Kept.executeAll (distinct : DistinctThreads digest jobs) (rest : List (Job σ))
    (members : rest ⊆ jobs) (kept : Kept digest jobs before lab) :
    Kept digest jobs (before ++ (executeAll digest rest lab).1) (executeAll digest rest lab).2 ∧
      ∀ front ran back, (executeAll digest rest lab).1 = front ++ ran :: back →
        ran.shown = historyOf (inThread ran.request (before ++ front)) := by
  induction rest generalizing before lab with
  | nil =>
    refine ⟨by rwa [Rag.executeAll, List.append_nil], fun front ran back split => ?_⟩
    simp [Rag.executeAll] at split
  | cons job rest ih =>
    obtain ⟨member, others⟩ := List.cons_subset.mp members
    obtain ⟨all, shown⟩ := ih others (kept.execute distinct member)
    rw [List.append_assoc] at all
    refine ⟨all, fun front ran back split => ?_⟩
    -- A run is shown what was stored before it, and those after it change nothing of that.
    cases front with
    | nil =>
      obtain ⟨rfl, -⟩ := List.cons.inj split
      rw [List.append_nil]
      exact kept job member
    | cons first front =>
      obtain ⟨rfl, later⟩ := List.cons.inj split
      have here := shown front ran back later
      rwa [List.append_assoc] at here

/-- The row of a run is that of its graph, built for the history of the thread. -/
theorem execute_row (digest : String → String) (r : ThreadRequest)
    (graph : History → Program σ WorkerError Ending) (lab : Lab σ) :
    (execute digest r graph lab).1 = (graph (lab.history (digest r.scopeText)) lab.outside).1 := by
  rcases ran : graph (lab.history (digest r.scopeText)) lab.outside with
    ⟨raised | ending, outside⟩
  · rw [execute_of_error ran]
  · rw [execute_of_ok ran]

theorem built_executeAll (digest : String → String) (jobs : List (Job σ)) (lab : Lab σ) :
    List.Forall₂ (fun job ran => ran.request = job.request ∧
      ∃ outside, ran.row = (job.graph ran.shown outside).1) jobs
      (executeAll digest jobs lab).1 := by
  induction jobs generalizing lab with
  | nil => exact .nil
  | cons job rest ih =>
    exact .cons ⟨rfl, lab.outside, execute_row digest job.request job.graph lab⟩ (ih _)

/-- A day has no bar in it. -/
theorem bar_not_mem_isoformat (d : Retrieval.Date) : '|' ∉ d.isoformat.toList := by
  intro listed
  rw [Retrieval.Date.isoformat, String.toList_ofList] at listed
  simp only [List.mem_append, List.mem_cons] at listed
  have bar : ('|' : Char).isDigit = false := by decide
  rcases listed with year | dash | month | dash | day
  · exact absurd (isDigit_zeroPad year) (by simp [bar])
  · exact absurd dash (by decide)
  · exact absurd (isDigit_zeroPad month) (by simp [bar])
  · exact absurd dash (by decide)
  · exact absurd (isDigit_zeroPad day) (by simp [bar])

/-- What stands before the first bar, and what stands behind it. -/
theorem append_bar_inj {x x' y y' : List Char} (plain : '|' ∉ x) (plain' : '|' ∉ x')
    (same : x ++ '|' :: y = x' ++ '|' :: y') : x = x' ∧ y = y' := by
  induction x generalizing x' with
  | nil =>
    cases x' with
    | nil => exact ⟨rfl, (List.cons.inj same).2⟩
    | cons c rest => exact absurd (List.cons.inj same).1 (List.ne_of_not_mem_cons plain')
  | cons c rest ih =>
    cases x' with
    | nil => exact absurd (List.cons.inj same).1.symm (List.ne_of_not_mem_cons plain)
    | cons c' rest' =>
      obtain ⟨rfl, tails⟩ := List.cons.inj same
      obtain ⟨rfl, after⟩ :=
        ih (List.not_mem_of_not_mem_cons plain) (List.not_mem_of_not_mem_cons plain') tails
      exact ⟨rfl, after⟩

/-- Customers without a bar in their names have threads of their own. -/
theorem eq_of_scopeText_eq {r r' : ThreadRequest} (plain : '|' ∉ r.entity.toList)
    (plain' : '|' ∉ r'.entity.toList) (same : r.scopeText = r'.scopeText) :
    r.entity = r'.entity ∧ r.asOf = r'.asOf ∧ r.thread = r'.thread := by
  have chars := congrArg String.toList same
  simp only [ThreadRequest.scopeText, String.toList_append, List.append_assoc] at chars
  obtain ⟨entity, rest⟩ := append_bar_inj plain plain' chars
  have day : '|' ∉ r.asOf.toList := r.isDay ▸ bar_not_mem_isoformat r.day
  have day' : '|' ∉ r'.asOf.toList := r'.isDay ▸ bar_not_mem_isoformat r'.day
  obtain ⟨asOf, thread⟩ := append_bar_inj day day' rest
  exact ⟨String.toList_inj.mp entity, String.toList_inj.mp asOf, String.toList_inj.mp thread⟩

/-- **Every run is shown what the runs of its thread have left**, and nothing else. -/
theorem threads_law (distinct : DistinctThreads digest jobs) (outside : σ) :
    ThreadsLaw digest jobs (executeAll digest jobs { outside }).1
      (executeAll digest jobs { outside }).2 := by
  have start : Kept digest jobs [] ({ outside } : Lab σ) := fun job _ => rfl
  obtain ⟨kept, shown⟩ := start.executeAll distinct jobs (List.Subset.refl _)
  exact ⟨built_executeAll _ _ _, shown, kept,
    fun job _ job' _ plain plain' same => eq_of_scopeText_eq plain plain' same⟩

end Runs

/-! ### A question, and a question behind it -/

theorem isDay_period : "2026-09-08" = (⟨2026, 9, 8⟩ : Retrieval.Date).isoformat := by decide

/-- A request in a thread of its own. -/
def periodThread : ThreadRequest where
  question := "기한은?"
  asOf := "2026-09-08"
  day := ⟨2026, 9, 8⟩
  isDay := isDay_period
  thread := "demo"

/-- The request is made twice. -/
def periodJobs : List (Job ℕ) :=
  List.replicate 2 ⟨periodThread,
    Architecture.adaptive.invoke "off" 4096 missesOnce periodPlanners periodThread⟩

set_option maxRecDepth 20000 in
/-- Both runs return, and the second one is shown the turn of the first. -/
theorem threads_law_period :
    (executeAll id periodJobs { outside := 0 }).1.map
        (fun ran => (ran.shown.turns.length, ran.row.toOption.isSome)) = [(0, true), (1, true)] ∧
      ThreadsLaw id periodJobs (executeAll id periodJobs { outside := 0 }).1
        (executeAll id periodJobs { outside := 0 }).2 :=
  ⟨by decide, threads_law (fun _ _ _ _ same => same) 0⟩

end AgentLabs.Rag
