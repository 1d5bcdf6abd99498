import AgentLabs.Math.Workflow
import AgentLabs.Rag.Worker

/-!
# The graphs

The same service answers a question under several graphs. The baseline searches and writes; the
adaptive graph plans, writes, has the answer reviewed and may search once more; in the sequential
one a worker researches, a writer writes and a reviewer reviews; the router has one worker answer;
and in the web graph the store is enriched before the answer is written.

## Main definitions

* `Planners`: who is asked before the work begins
* `RagState`: the state of a graph
* `Desk.baseline`, `Desk.adaptive`, `Desk.sequential`, `Desk.router`, `Desk.webEnrichment`: the
  graphs
* `ResultLaw`: what is true of a result, by what was asked for it
* `AdaptiveLaw`: what is true of a run of the adaptive graph
-/

namespace AgentLabs.Rag

open Math Text

/-! ### Plans and routes -/

/-- The name of a role. -/
def Role.text : Role → String
  | .general => "general"
  | .contract => "contract"
  | .operations => "operations"
  | .security => "security"
  | .policy => "policy"
  | .web => "web"

/-- What a question is after. -/
inductive Intent where
  | fact
  | comparison
  | procedure
  | analysis
  | clarification
  deriving DecidableEq, Repr

/-- How much there is to a question. -/
inductive Complexity where
  | simple
  | medium
  | complex
  deriving DecidableEq, Repr

/-- `QueryPlan`. -/
structure QueryPlan where
  intent : Intent
  complexity : Complexity
  standaloneQuestion : String
  queries : List String
  neededFacts : List String
  some_query : 1 ≤ queries.length
  few_queries : queries.length ≤ 3

/-- `Route`. -/
structure Route where
  owner : Role
  reason : String

/-- Who is asked before the work begins. -/
structure Planners (σ : Type) where
  queryPlan : Fields → Program σ WorkerError QueryPlan
  route : Fields → Program σ WorkerError Route

/-- The planners beside a journal, which they are not entered into. -/
def Planners.unjournaled {σ : Type} (planners : Planners σ) : Planners (σ × List Happening) where
  queryPlan payload := Program.unjournaled (planners.queryPlan payload)
  route payload := Program.unjournaled (planners.route payload)

/-- What a graph comes to: a finished result, or a question back. -/
inductive Outcome where
  | finished (result : TaskResult)
  | clarification (text : String) (missing : List String)

/-- `result["status"] == "complete"`. -/
def Outcome.isComplete : Outcome → Bool
  | .finished result => result.status = .complete
  | .clarification _ _ => false

/-- The state of a graph, with the keys that are set so far. -/
structure RagState where
  question : String
  plan : List QueryPlan := []
  evidence : Option (List Evidence) := none
  research : Option TaskResult := none
  draft : Option GroundedAnswer := none
  review : Option Review := none
  result : Option Outcome := none
  revision : ℕ := 0
  owner : Option Role := none

/-- `state[key]`. -/
def field {σ α : Type} : Option α → Program σ WorkerError α
  | some value => pure value
  | none => throw (.raised "KeyError")

/-- The nodes of all graphs. -/
inductive Stage where
  | plan
  | retrieve
  | answer
  | review
  | retry
  | research
  | write
  | verify
  | route
  | specialist
  | enrich
  deriving DecidableEq, Repr

namespace Desk

variable {σ : Type} (desk : Desk) (out : Outside σ) (planners : Planners σ)

/-- `query_plan`. -/
def queryPlan : Program σ WorkerError QueryPlan := planners.queryPlan (desk.payload [])

/-- `route`. -/
def route (owner : Option Role) : Program σ WorkerError Route := do
  let current := match owner with
    | none => Json.null
    | some role => .str role.text
  let route ← planners.route (desk.payload [("current_owner", current)])
  if route.owner = .web ∧ desk.request.publicTopic = "" then throw (.valueError "web_scope")
  else pure route

/-- The retrieval of several queries. -/
def retrieveEach : List String → Program σ WorkerError (List Evidence)
  | [] => pure []
  | query :: rest => do
    let found ← out.retrieve query
    let others ← retrieveEach rest
    pure (found ++ others)

/-! ### The graphs -/

/-- `01_baseline_rag.py`. There is no review. -/
def baseline : Workflow σ WorkerError Stage RagState where
  node
    | .retrieve, s => do
      let found ← out.retrieve s.question
      let refs ← desk.ensure out found ""
      pure { s with evidence := some refs }
    | .answer, s => do
      let refs ← field s.evidence
      let answer ← desk.generate out refs "" .writer []
      let result ← Program.ofExcept (finish answer refs none)
      pure { s with result := some (.finished result) }
    | _, s => pure s
  next
    | .retrieve, _ => some .answer
    | _, _ => none

/-- The `plan` node of the adaptive graph. -/
def adaptivePlan (s : RagState) : Program σ WorkerError RagState := do
  let p ← desk.queryPlan planners
  -- Nothing is searched for a question that is unclear.
  if p.intent = .clarification then
    pure { s with
      result := some (.clarification "질문의 대상이나 조건을 명확히 해 주세요." ["질문 대상 불명확"])
      plan := [] }
  else pure { s with plan := [p], revision := 0 }

/-- The queries of a round: those of the plan, or the one that the review has asked for. -/
def roundQueries (s : RagState) (p : QueryPlan) : Program σ WorkerError (List String) :=
  if s.revision = 0 then pure p.queries
  else do
    let review ← field s.review
    pure [review.retryQuery]

/-- The `retrieve` node of the adaptive graph: what was found before is kept. -/
def adaptiveRetrieve (s : RagState) : Program σ WorkerError RagState := do
  let p ← field s.plan.head?
  let queries ← roundQueries s p
  let found ← retrieveEach out queries
  -- What the first round has found stays beside what is new.
  let refs ← desk.ensure out (distinctEvidence (s.evidence.getD [] ++ found)) p.standaloneQuestion
  pure { s with evidence := some refs }

/-- The `answer` node of the adaptive graph. -/
def adaptiveAnswer (s : RagState) : Program σ WorkerError RagState := do
  let refs ← field s.evidence
  let p ← field s.plan.head?
  let draft ← desk.generate out refs p.standaloneQuestion .writer []
  pure { s with draft := some draft }

/-- The `review` node of the adaptive graph. -/
def adaptiveReview (s : RagState) : Program σ WorkerError RagState := do
  let refs ← field s.evidence
  let draft ← field s.draft
  let p ← field s.plan.head?
  let review ← desk.review out draft refs p.standaloneQuestion
  let result ← Program.ofExcept (finish draft refs (some review))
  pure { s with review := some review, result := some (.finished result) }

/-- The edge behind the review: one more round, at most, and only with a query for it. -/
def retries (s : RagState) : Bool :=
  ¬ s.result.any Outcome.isComplete ∧ s.revision < 1 ∧ s.review.any (·.retryQuery ≠ "")

/-- `02_adaptive_rag.py`. -/
def adaptive : Workflow σ WorkerError Stage RagState where
  node
    | .plan => desk.adaptivePlan planners
    | .retrieve => desk.adaptiveRetrieve out
    | .answer => desk.adaptiveAnswer out
    | .review => desk.adaptiveReview out
    | .retry => fun s => pure { s with revision := s.revision + 1 }
    | _ => pure
  next
    | .plan, s => if s.plan = [] then none else some .retrieve
    | .retrieve, _ => some .answer
    | .answer, _ => some .review
    -- It is the graph that ends the loop, whatever the review says.
    | .review, s => if retries s then some .retry else none
    | .retry, _ => some .retrieve
    | _, _ => none

/-- `03_sequential_rag.py`. -/
def sequential : Workflow σ WorkerError Stage RagState where
  node
    | .research, s => do
      let result ← desk.worker out
        { id := "research", role := .general, objective := s.question } []
      pure { s with research := some result, evidence := some result.evidence }
    | .write, s => do
      let refs ← field s.evidence
      let research ← field s.research
      let draft ← desk.generate out refs "" .writer [research.answer.toJson]
      pure { s with draft := some draft }
    | .verify, s => do
      let refs ← field s.evidence
      let draft ← field s.draft
      let review ← desk.review out draft refs ""
      let result ← Program.ofExcept (finish draft refs (some review))
      pure { s with result := some (.finished result) }
    | _, s => pure s
  next
    | .research, _ => some .write
    | .write, _ => some .verify
    | _, _ => none

/-- `04_router_rag.py`. -/
def router : Workflow σ WorkerError Stage RagState where
  node
    | .route, s => do
      let route ← desk.route planners none
      pure { s with owner := some route.owner }
    | .specialist, s => do
      let owner ← field s.owner
      let result ← desk.worker out { id := "routed", role := owner, objective := s.question } []
      pure { s with result := some (.finished result) }
    | _, s => pure s
  next
    | .route, _ => some .specialist
    | _, _ => none

/-- `08_web_enrichment.py`. -/
def webEnrichment : Workflow σ WorkerError Stage RagState where
  node
    | .retrieve, s => do
      let found ← out.retrieve s.question
      pure { s with evidence := some found }
    | .enrich, s => do
      let found ← field s.evidence
      let refs ← desk.ensure out found ""
      pure { s with evidence := some refs }
    | .answer, s => do
      let refs ← field s.evidence
      let answer ← desk.generate out refs "" .writer []
      let review ← desk.review out answer refs ""
      let result ← Program.ofExcept (finish answer refs (some review))
      pure { s with result := some (.finished result) }
    | _, s => pure s
  next
    | .retrieve, _ => some .enrich
    | .enrich, _ => some .answer
    | _, _ => none

end Desk

/-- The architectures that are given as graphs over one service. -/
inductive Architecture where
  | baseline
  | adaptive
  | sequential
  | router
  | web
  deriving DecidableEq, Repr

namespace Architecture

/-- The graph of an architecture. -/
def graph {σ : Type} (desk : Desk) (out : Outside σ) (planners : Planners σ) :
    Architecture → Workflow σ WorkerError Stage RagState
  | .baseline => desk.baseline out
  | .adaptive => desk.adaptive out planners
  | .sequential => desk.sequential out
  | .router => desk.router out planners
  | .web => desk.webEnrichment out

/-- The node behind `START`. -/
def start : Architecture → Stage
  | .baseline | .web => .retrieve
  | .adaptive => .plan
  | .sequential => .research
  | .router => .route

/-- How often a model may be called, besides the one that plans or routes. -/
def calls : Architecture → ℕ
  | .baseline => 2
  | .adaptive => 6
  | .sequential => 9
  | .router => 7
  | .web => 3

/-- How often the store may be searched. -/
def searches : Architecture → ℕ
  | .baseline | .web => 2
  | .adaptive => 6
  | .sequential | .router => 4

end Architecture

/-- `recursion_limit`. -/
def recursionLimit : ℕ := 40

/-! ### What is wanted -/

/-- A model was called. -/
def Happening.isModelCall : Happening → Bool
  | .retrieved _ | .enriched _ => false
  | _ => true

/-- The store was searched. -/
def Happening.isRetrieval : Happening → Bool
  | .retrieved _ => true
  | _ => false

/-- How often a model was called. -/
def modelCalls (journal : List Happening) : ℕ := journal.countP Happening.isModelCall

/-- How often the store was searched. -/
def retrievals (journal : List Happening) : ℕ := journal.countP Happening.isRetrieval

/-- What is true of a result, by what was asked for it: it cites what it holds, and holds what was
found; the review in it is the last one that was made, and what that one does not support or misses
is not claimed or is missing; and if it is complete there is nothing open. -/
structure ResultLaw (result : TaskResult) (journal : List Happening) : Prop where
  cites : result.answer.CitesOnly (collected journal)
  inside : result.answer.CitesOnly result.evidence
  held : ∀ e ∈ result.evidence, e ∈ collected journal
  review : result.review = (reviewsOf journal).getLast?
  unsupported : ∀ review ∈ result.review, review.supported = false → result.answer.claims = []
  missing : ∀ review ∈ result.review, review.missing ⊆ result.missing
  complete : result.status = .complete → result.answer.claims ≠ [] ∧ result.missing = [] ∧
    result.answer.missing = [] ∧ result.answer.conflicts = []
  printed : result.text = "\n".intercalate (result.answer.claims.map Claim.line)

/-- Nothing that was found is lost: a quotation with its id is at hand. -/
def KeepsFound (refs : List Evidence) (journal : List Happening) : Prop :=
  ∀ e ∈ collected journal, ∃ e' ∈ refs, e'.evidenceId = e.evidenceId

/-- One round of the adaptive graph. -/
def oneRound : List Stage := [.retrieve, .answer, .review]

/-- What is true of a run of the adaptive graph: it asks back before anything is searched; or it
ends after one round, and then nothing is open or the review has no query for another one; or after
two, and then the first review had one. -/
inductive AdaptiveLaw (s : RagState) (journal : List Happening) : List Stage → Prop where
  | clarified (text : String) (missing : List String) (quiet : journal = [])
      (result : s.result = some (.clarification text missing)) : AdaptiveLaw s journal [.plan]
  | once (result : TaskResult) (review : Review) (ended : s.result = some (.finished result))
      (law : ResultLaw result journal) (kept : KeepsFound result.evidence journal)
      (one : reviewsOf journal = [review])
      (settled : result.status = .complete ∨ review.retryQuery = "")
      (calls : modelCalls journal ≤ 3) (searches : retrievals journal ≤ 4) :
      AdaptiveLaw s journal (.plan :: oneRound)
  | twice (result : TaskResult) (first last : Review) (ended : s.result = some (.finished result))
      (law : ResultLaw result journal) (kept : KeepsFound result.evidence journal)
      (two : reviewsOf journal = [first, last]) (again : first.retryQuery ≠ "")
      (calls : modelCalls journal ≤ 6) (searches : retrievals journal ≤ 6) :
      AdaptiveLaw s journal (.plan :: oneRound ++ .retry :: oneRound)

/-- What is true of an answer of an architecture. Only the baseline answers without a review. -/
structure AnswerLaw (a : Architecture) (s : RagState) (result : TaskResult)
    (journal : List Happening) : Prop where
  ended : s.result = some (.finished result)
  law : ResultLaw result journal
  reviewed : a ≠ .baseline → result.review ≠ none
  calls : modelCalls journal ≤ a.calls
  searches : retrievals journal ≤ a.searches

/-! ### Journals -/

section Journals

variable {x y : List Happening}

@[simp] theorem modelCalls_append : modelCalls (x ++ y) = modelCalls x + modelCalls y :=
  List.countP_append

@[simp] theorem retrievals_append : retrievals (x ++ y) = retrievals x + retrievals y :=
  List.countP_append

@[simp] theorem reviewsOf_append : reviewsOf (x ++ y) = reviewsOf x ++ reviewsOf y :=
  List.filterMap_append

@[simp] theorem collected_append : collected (x ++ y) = collected x ++ collected y :=
  List.flatMap_append

end Journals

end AgentLabs.Rag
