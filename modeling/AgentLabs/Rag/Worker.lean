import AgentLabs.Math.Journal
import AgentLabs.Rag.Contracts
import AgentLabs.Rag.Evidence

/-!
# The worker

A worker researches one task with a model that chooses to search or to finish. It makes at
most three requests for an action, refuses to finish before it has searched, and checks
what the model cites and what a review says of it, whichever way it ends.

The models, the retrieval and the ingestion are programs over a state of their own: they
may answer anything, depend on everything that was asked before, and raise anywhere. The
prompts, which are fixed for each kind of request, and the events that a meter logs are
left out.

## Main definitions

* `Outside`, `Desk`: what a worker asks, and the settings and the request it works under
* `Desk.ensure`, `Desk.generate`, `Desk.review`, `Desk.finish`: the parts that all workers share
* `Desk.workerLoop`, `Desk.worker`: the loop of the tools, and the worker
* `Outside.journaled`, `Happening`: the outside, with a journal of what it answered
* `WorkerLaw`: what is true of a result that is returned

## Main results

* `Desk.notes_workerLoop`: what the loop asks, and what it collects
* `Desk.worker_law`: every result that is returned is one of the law
-/

namespace AgentLabs.Rag

open Math Text

/-! ### What is asked and answered -/

/-- The exceptions. -/
inductive WorkerError where
  | valueError (message : String)
  | raised (typeName : String)
  deriving DecidableEq, Repr

/-- What a model chooses to do. -/
inductive ActionKind where
  | search
  | finish
  deriving DecidableEq, Repr

/-- A model's choice, with the query of a search and the answer of a finish. -/
structure WorkerAction where
  action : ActionKind
  query : String := ""
  reason : String
  answer : GroundedAnswer := {}

/-- The review of an answer. -/
structure Review where
  supported : Bool
  unsupportedClaims : List String
  missing : List String
  retryQuery : String := ""

/-- The assessment of what was found. -/
structure Sufficiency where
  sufficient : Bool
  missing : List String
  publicGap : Bool
  reason : String

/-- Whom a writing model is asked as. -/
inductive AskedAs where
  | writer
  | role (role : Role)
  deriving DecidableEq, Repr

/-- The outside of a worker: the models, the retrieval and the ingestion. -/
structure Outside (σ : Type) where
  action : Role → Fields → Program σ WorkerError WorkerAction
  sufficiency : Fields → Program σ WorkerError Sufficiency
  answer : AskedAs → Fields → Program σ WorkerError GroundedAnswer
  review : Fields → Program σ WorkerError Review
  retrieve : String → Program σ WorkerError (List Evidence)
  enrich : Program σ WorkerError (List Evidence)

/-- The request of the user. -/
structure WorkRequest where
  question : String
  entity : String := "알파"
  asOf : String := "2026-09-08"
  publicTopic : String := ""

/-- The settings and the request, with the turns of the conversation before. -/
structure Desk where
  web : String
  contextBytes : Int
  request : WorkRequest
  turns : List Json := []

/-- A step of a worker's history of tools. -/
structure ToolStep where
  query : String
  evidenceIds : List String

/-- The status of a result. -/
inductive WorkerStatus where
  | uncertain
  | complete
  deriving DecidableEq, Repr

/-- The result of a worker on its task. -/
structure TaskResult where
  status : WorkerStatus
  answer : GroundedAnswer
  missing : List String
  evidence : List Evidence
  review : Option Review
  text : String

/-! ### The parts of a service -/

/-- `model_dump` of a claim. -/
def Claim.toJson (claim : Claim) : Json :=
  .obj [("text", .str claim.text), ("evidence_ids", .arr (claim.evidenceIds.map .str))]

/-- `model_dump` of an answer. -/
def GroundedAnswer.toJson (answer : GroundedAnswer) : Json :=
  .obj [("claims", .arr (answer.claims.map Claim.toJson)),
    ("missing", .arr (answer.missing.map .str)), ("conflicts", .arr (answer.conflicts.map .str))]

/-- An entry of the history of tools. -/
def ToolStep.toJson (step : ToolStep) : Json :=
  .obj [("tool", .str "search_rag"), ("query", .str step.query),
    ("evidence_ids", .arr (step.evidenceIds.map .str))]

/-- `list(dict.fromkeys(texts))`: each text once, where it comes first. -/
def distinctTexts (texts : List String) : List String :=
  Dict.keys (Dict.setAll [] (texts.map fun text => (text, ())))

/-- `list({e.evidence_id: e for e in evidence}.values())`. -/
def distinctEvidence (evidence : List Evidence) : List Evidence :=
  (Dict.setAll [] (evidence.map fun e => (e.evidenceId, e))).map Prod.snd

/-- A claim as it is printed. -/
def Claim.line (claim : Claim) : String :=
  claim.text ++ " [" ++ ", ".intercalate claim.evidenceIds ++ "]"

namespace Desk

variable {σ : Type}

/-- `payload`: the request, the last four turns, and what else a model is to see. -/
def payload (desk : Desk) (extra : Fields) : Fields :=
  Dict.setAll
    [("question", .str desk.request.question), ("entity", .str desk.request.entity),
      ("as_of", .str desk.request.asOf), ("public_topic", .str desk.request.publicTopic),
      ("history", .arr (desk.turns.drop (desk.turns.length - 4)))] extra

/-- `context`: the evidence that fits, and its rendering. -/
def context (desk : Desk) (evidence : List Evidence) :
    Except WorkerError (List Evidence × String) :=
  match selectEvidence evidence desk.contextBytes [] with
  | none => .error (.valueError "빈 Context 직렬화보다 예산이 작습니다.")
  | some selected => .ok (selected, renderContext selected)

/-- `question or self.request.question`. -/
def asked (desk : Desk) (question : String) : String :=
  if question = "" then desk.request.question else question

/-- `assess`. -/
def assess (desk : Desk) (out : Outside σ) (evidence : List Evidence) (question : String) :
    Program σ WorkerError Sufficiency := do
  let shown ← Program.ofExcept (desk.context evidence)
  out.sufficiency (desk.payload
    [("question", .str (desk.asked question)), ("evidence", .str shown.2)])

/-- `ensure`: where public knowledge is missing, the store is enriched and searched again. -/
def ensure (desk : Desk) (out : Outside σ) (evidence : List Evidence) (question : String) :
    Program σ WorkerError (List Evidence) :=
  if desk.web = "off" ∨ desk.request.publicTopic = "" then pure evidence
  else do
    let gap ← desk.assess out evidence question
    if gap.sufficient = true ∨ gap.publicGap = false then pure evidence
    else do
      let transient ← out.enrich
      let updated ← out.retrieve (desk.asked question)
      pure (distinctEvidence (evidence ++ updated ++ transient))

/-- `generate`. -/
def generate (desk : Desk) (out : Outside σ) (evidence : List Evidence) (question : String)
    (asRole : AskedAs) (prior : List Json) : Program σ WorkerError GroundedAnswer := do
  let shown ← Program.ofExcept (desk.context evidence)
  if shown.1 = [] then pure { missing := ["질문에 답할 원문 근거가 없습니다."] }
  else do
    let answer ← out.answer asRole (desk.payload [("question", .str (desk.asked question)),
      ("evidence", .str shown.2), ("worker_results", .arr prior)])
    if validateCitations answer shown.1 ≠ [] then throw (.valueError "unknown_citation")
    else pure answer

/-- `review`. -/
def review (desk : Desk) (out : Outside σ) (answer : GroundedAnswer) (evidence : List Evidence)
    (question : String) : Program σ WorkerError Review := do
  let shown ← Program.ofExcept (desk.context evidence)
  out.review (desk.payload [("question", .str (desk.asked question)), ("answer", answer.toJson),
    ("evidence", .str shown.2)])

/-- What is left of an answer that the review does not support. -/
def withdrawn (answer : GroundedAnswer) (review : Review) : GroundedAnswer where
  missing := distinctTexts (answer.missing ++ review.missing ++ ["주장 지지 검토 실패"])

/-- The answer after its review. -/
def reviewed (answer : GroundedAnswer) : Option Review → GroundedAnswer
  | none => answer
  | some review => if review.supported = false then withdrawn answer review else answer

/-- The status of an answer with these items missing. -/
def statusOf (answer : GroundedAnswer) (missing : List String) : WorkerStatus :=
  if answer.claims = [] then .uncertain
  else if missing ≠ [] ∨ answer.conflicts ≠ [] then .uncertain
  else .complete

/-- `finish`. -/
def finish (answer : GroundedAnswer) (evidence : List Evidence) (review : Option Review) :
    Except WorkerError TaskResult :=
  if validateCitations answer evidence ≠ [] then .error (.valueError "unknown_citation")
  else
    let answer := reviewed answer review
    let missing := distinctTexts (answer.missing ++ review.elim [] Review.missing)
    .ok
      { status := statusOf answer missing
        answer
        missing
        evidence
        review
        text := "\n".intercalate (answer.claims.map Claim.line) }

/-- The end of a worker, by either way: a review, and the result. -/
def conclude (desk : Desk) (out : Outside σ) (task : Task) (answer : GroundedAnswer)
    (evidence : List Evidence) : Program σ WorkerError TaskResult := do
  let review ← desk.review out answer evidence task.objective
  Program.ofExcept (finish answer evidence (some review))

/-- One search of a worker: what was found, ensured. -/
def searchStep (desk : Desk) (out : Outside σ) (task : Task) (query : String) :
    Program σ WorkerError (List Evidence) := do
  let found ← out.retrieve query
  desk.ensure out found task.objective

/-- `action.query.strip() or task.objective`. -/
def queryOf (task : Task) (action : WorkerAction) : String :=
  if strip action.query = "" then task.objective else strip action.query

/-- The loop of the tools, with the number of requests that are left. It ends with a
result, or with the evidence where no request is left. -/
def workerLoop (desk : Desk) (out : Outside σ) (task : Task) (prior : List Json) :
    ℕ → List Evidence → List ToolStep → Program σ WorkerError (TaskResult ⊕ List Evidence)
  | 0, evidence, _ => pure (.inr evidence)
  | left + 1, evidence, history => do
    let shown ← Program.ofExcept (desk.context evidence)
    let action ← out.action task.role (desk.payload [("objective", .str task.objective),
      ("dependencies", .arr prior), ("evidence", .str shown.2),
      ("tool_history", .arr (history.map ToolStep.toJson)), ("remaining", .int (left + 1))])
    if action.action = .finish ∧ history ≠ [] then
      if validateCitations action.answer shown.1 ≠ [] then
        throw (.valueError "worker_unknown_citation")
      else do
        let result ← desk.conclude out task action.answer shown.1
        pure (.inl result)
    else if left = 0 then pure (.inr evidence)
    else do
      let found ← desk.searchStep out task (queryOf task action)
      desk.workerLoop out task prior left (distinctEvidence (evidence ++ found))
        (history ++ [⟨queryOf task action, found.map Evidence.evidenceId⟩])

/-- `worker`. -/
def worker (desk : Desk) (out : Outside σ) (task : Task) (prior : List Json) :
    Program σ WorkerError TaskResult :=
  if ¬ task.Valid then throw (.raised "ValidationError")
  else do
    let ended ← desk.workerLoop out task prior 3 [] []
    match ended with
    | .inl result => pure result
    | .inr evidence => do
      let answer ← desk.generate out evidence task.objective (.role task.role) prior
      desk.conclude out task answer evidence

end Desk

/-! ### What a run has asked -/

/-- What the outside did when it was asked. -/
inductive Happening where
  | chose (action : WorkerAction)
  | assessed (gap : Sufficiency)
  | answered (answer : GroundedAnswer)
  | reviewed (review : Review)
  | retrieved (found : List Evidence)
  | enriched (found : List Evidence)

/-- The outside with a journal of its answers. -/
def Outside.journaled {σ : Type} (out : Outside σ) : Outside (σ × List Happening) where
  action role payload := Program.journaled (out.action role payload) .chose
  sufficiency payload := Program.journaled (out.sufficiency payload) .assessed
  answer asRole payload := Program.journaled (out.answer asRole payload) .answered
  review payload := Program.journaled (out.review payload) .reviewed
  retrieve query := Program.journaled (out.retrieve query) .retrieved
  enrich := Program.journaled out.enrich .enriched

namespace Happening

/-- The action that was chosen, if one was asked for. -/
def action? : Happening → Option WorkerAction
  | .chose action => some action
  | _ => none

/-- The review that was made. -/
def review? : Happening → Option Review
  | .reviewed review => some review
  | _ => none

/-- The evidence that came in. -/
def found : Happening → List Evidence
  | .retrieved found => found
  | .enriched found => found
  | _ => []

end Happening

/-- How often an action was asked for. -/
def actionRequests (journal : List Happening) : ℕ := (journal.filterMap Happening.action?).length

/-- The searches: the retrievals but for those that follow an enrichment. -/
def searchSteps : List Happening → ℕ
  | [] => 0
  | .enriched _ :: .retrieved _ :: rest => searchSteps rest
  | .retrieved _ :: rest => searchSteps rest + 1
  | _ :: rest => searchSteps rest

/-- All evidence that came in. -/
def collected (journal : List Happening) : List Evidence := journal.flatMap Happening.found

/-- All reviews that were made. -/
def reviewsOf (journal : List Happening) : List Review := journal.filterMap Happening.review?

/-- What is true of a result that is returned, by what was asked for it. There was one review, and
it is the one that the result has. -/
structure WorkerLaw (result : TaskResult) (journal : List Happening) : Prop where
  searched : 1 ≤ searchSteps journal ∧ searchSteps journal ≤ 2
  requests : actionRequests journal ≤ 3
  cites : result.answer.CitesOnly (collected journal)
  reviewed : ∃ review, reviewsOf journal = [review] ∧ result.review = some review
  unsupported : ∀ review ∈ reviewsOf journal, review.supported = false → result.answer.claims = []
  complete : result.status = .complete → result.answer.claims ≠ [] ∧ result.missing = [] ∧
    result.answer.missing = [] ∧ result.answer.conflicts = []

/-! ### The parts -/

theorem mem_distinctTexts {text : String} {texts : List String} :
    text ∈ distinctTexts texts ↔ text ∈ texts := by
  unfold distinctTexts
  rw [Dict.mem_keys_setAll]
  simp [Dict.keys]

theorem distinctTexts_eq_nil_iff {texts : List String} : distinctTexts texts = [] ↔ texts = [] := by
  simp only [List.eq_nil_iff_forall_not_mem, mem_distinctTexts]

theorem mem_of_mem_distinctEvidence {e : Evidence} {evidence : List Evidence}
    (h : e ∈ distinctEvidence evidence) : e ∈ evidence := Dict.mem_of_mem_setAll h

namespace Desk

variable {σ : Type} {desk : Desk} {out : Outside σ} {task : Task} {prior : List Json}

/-- **What a finished result is like**, whatever was answered and reviewed. -/
theorem finish_eq_ok {answer : GroundedAnswer} {evidence : List Evidence} {review : Review}
    {result : TaskResult} (finished : finish answer evidence (some review) = .ok result) :
    result.review = some review ∧ result.answer.CitesOnly evidence ∧
      (review.supported = false → result.answer.claims = []) ∧
      (result.status = .complete → result.answer.claims ≠ [] ∧ result.missing = [] ∧
        result.answer.missing = [] ∧ result.answer.conflicts = []) := by
  unfold finish at finished
  split_ifs at finished with unknown
  obtain rfl := Except.ok.inj finished
  have cites := validateCitations_eq_nil_iff.mp (not_not.mp unknown)
  refine ⟨rfl, ?_, ?_, ?_⟩
  · change (reviewed answer (some review)).CitesOnly evidence
    unfold reviewed
    dsimp only
    split_ifs
    · intro claim listed
      exact absurd listed List.not_mem_nil
    · exact cites
  -- `finish` withdraws the claims of an answer that the review does not support.
  · intro unsupported
    change (reviewed answer (some review)).claims = []
    simp only [reviewed, if_pos unsupported, withdrawn]
  · intro done
    dsimp only [statusOf] at done
    split_ifs at done with noClaims open'
    obtain ⟨missing, conflicts⟩ := not_or.mp open'
    have nothing := distinctTexts_eq_nil_iff.mp (not_not.mp missing)
    exact ⟨noClaims, not_not.mp missing, (List.append_eq_nil_iff.mp nothing).1,
      not_not.mp conflicts⟩

theorem notes_context {ξ : Type} (desk : Desk) (evidence : List Evidence) :
    Program.Notes (Program.ofExcept (desk.context evidence) : Program (σ × List ξ) WorkerError _)
      fun shown more => more = [] ∧ ∀ e ∈ shown.1, e ∈ evidence := by
  apply Program.logs_ofExcept
  intro shown ok
  refine ⟨rfl, fun e listed => ?_⟩
  unfold context at ok
  cases chosen : selectEvidence evidence desk.contextBytes [] with
  | none => simp [chosen] at ok
  | some selected =>
    rw [chosen] at ok
    obtain rfl := Except.ok.inj ok
    exact mem_of_mem_selectEvidence chosen listed

/-- What a search step does: it retrieves, and may then assess, enrich and retrieve again. -/
structure StepJournal (found : List Evidence) (journal : List Happening) : Prop where
  searches : ∀ later, searchSteps (journal ++ later) = searchSteps later + 1
  requests : journal.filterMap Happening.action? = []
  reviews : reviewsOf journal = []
  found : ∀ e ∈ found, e ∈ collected journal

theorem notes_assess (desk : Desk) (out : Outside σ) (evidence : List Evidence)
    (question : String) :
    Program.Notes (desk.assess out.journaled evidence question) fun gap more => more =
      [.assessed gap] := by
  refine (notes_context desk evidence).bind fun shown x context => ?_
  obtain ⟨rfl, -⟩ := context
  exact Program.notes_journaled _ _

theorem notes_searchStep (desk : Desk) (out : Outside σ) (task : Task) (query : String) :
    Program.Notes (desk.searchStep out.journaled task query) StepJournal := by
  refine (Program.notes_journaled (out.retrieve query) Happening.retrieved).bind
    fun first x retrieved => ?_
  subst retrieved
  -- What the first search found goes on as it is when nothing is missing.
  have asFound : StepJournal first [.retrieved first] :=
    { searches := fun later => rfl, requests := rfl, reviews := rfl,
      found := by simp [collected, Happening.found] }
  unfold ensure
  refine Program.Logs.ite (fun _ => Program.logs_pure asFound) fun _ => ?_
  refine (notes_assess desk out first task.objective).bind fun gap y assessed => ?_
  subst assessed
  refine Program.Logs.ite (fun _ => Program.logs_pure ?_) fun _ => ?_
  · exact { searches := fun later => rfl, requests := rfl, reviews := rfl,
            found := by simp [collected, Happening.found] }
  refine (Program.notes_journaled out.enrich Happening.enriched).bind fun transient y enriched => ?_
  subst enriched
  refine (Program.notes_journaled (out.retrieve _) Happening.retrieved).bind
    fun updated y retrieved => ?_
  subst retrieved
  refine Program.logs_pure ?_
  refine { searches := fun later => rfl, requests := rfl, reviews := rfl,
           found := fun e held => ?_ }
  have merged := mem_of_mem_distinctEvidence held
  simp only [collected, List.mem_append, List.flatMap_cons, List.flatMap_nil, List.cons_append,
    List.nil_append, Happening.found, List.append_nil] at merged ⊢
  tauto

theorem notes_generate (desk : Desk) (out : Outside σ) (evidence : List Evidence)
    (question : String) (asRole : AskedAs) (prior : List Json) :
    Program.Notes (desk.generate out.journaled evidence question asRole prior) fun _ more =>
      more = [] ∨ ∃ answer, more = [.answered answer] := by
  refine (notes_context desk evidence).bind fun shown x context => ?_
  obtain ⟨rfl, -⟩ := context
  refine Program.Logs.ite (fun _ => Program.logs_pure (.inl rfl)) fun _ => ?_
  refine (Program.notes_journaled (out.answer asRole _) Happening.answered).bind
    fun answer x answered => ?_
  subst answered
  exact Program.Logs.ite (fun _ => Program.logs_throw _) fun _ =>
    Program.logs_pure (.inr ⟨answer, rfl⟩)

/-- The end of a worker asks for one review and finishes by it. -/
theorem notes_conclude (desk : Desk) (out : Outside σ) (task : Task) (answer : GroundedAnswer)
    (evidence : List Evidence) :
    Program.Notes (desk.conclude out.journaled task answer evidence) fun result more =>
      ∃ review, more = [.reviewed review] ∧ finish answer evidence (some review) = .ok result := by
  have asked : Program.Notes (desk.review out.journaled answer evidence task.objective)
      fun review more => more = [.reviewed review] := by
    refine (notes_context desk evidence).bind fun shown x context => ?_
    obtain ⟨rfl, -⟩ := context
    exact Program.notes_journaled _ _
  refine asked.bind fun review x reviewed => ?_
  subst reviewed
  exact Program.logs_ofExcept fun result finished => ⟨review, rfl, finished⟩

/-! ### The loop -/

theorem searchSteps_chose (action : WorkerAction) (journal : List Happening) :
    searchSteps (.chose action :: journal) = searchSteps journal := by
  simp [searchSteps]

/-- How the loop ends: with a result that was concluded from evidence at hand, or with the
evidence and no review yet. -/
def LoopEnds (evidence : List Evidence) (journal : List Happening) :
    TaskResult ⊕ List Evidence → Prop
  | .inl result => ∃ answer selected review, (∀ e ∈ selected, e ∈ evidence ++ collected journal) ∧
      reviewsOf journal = [review] ∧ finish answer selected (some review) = .ok result
  | .inr kept => (∀ e ∈ kept, e ∈ evidence ++ collected journal) ∧ reviewsOf journal = []

/-- What the loop has asked, from a point where so many requests are left. -/
structure LoopJournal (left : ℕ) (evidence : List Evidence) (history : List ToolStep)
    (ended : TaskResult ⊕ List Evidence) (journal : List Happening) : Prop where
  requests : actionRequests journal ≤ left
  searches : searchSteps journal ≤ left - 1
  searched : history = [] → 2 ≤ left → 1 ≤ searchSteps journal
  ends : LoopEnds evidence journal ended

theorem LoopEnds.mono {evidence evidence' : List Evidence} {journal journal' : List Happening}
    {ended : TaskResult ⊕ List Evidence} (h : LoopEnds evidence' journal' ended)
    (more : ∀ e ∈ evidence' ++ collected journal', e ∈ evidence ++ collected journal)
    (same : reviewsOf journal = reviewsOf journal') : LoopEnds evidence journal ended := by
  cases ended with
  | inl result =>
    obtain ⟨answer, selected, review, held, reviews, finished⟩ := h
    exact ⟨answer, selected, review, fun e listed => more e (held e listed), same.trans reviews,
      finished⟩
  | inr kept => exact ⟨fun e listed => more e (h.1 e listed), same.trans h.2⟩

/-- **What the loop asks, and what it collects.** -/
theorem notes_workerLoop (desk : Desk) (out : Outside σ) (task : Task)
    (prior : List Json) (left : ℕ) (evidence : List Evidence) (history : List ToolStep) :
    Program.Notes (desk.workerLoop out.journaled task prior left evidence history)
      (LoopJournal left evidence history) := by
  induction left generalizing evidence history with
  | zero =>
    refine Program.logs_pure ⟨le_rfl, le_rfl, fun _ two => absurd two (by decide), ?_⟩
    exact ⟨fun e listed => List.mem_append_left _ listed, rfl⟩
  | succ left ih =>
    -- What the model is shown is part of what was found so far.
    refine (notes_context desk evidence).bind fun shown x context => ?_
    obtain ⟨rfl, fits⟩ := context
    refine (Program.notes_journaled (out.action task.role _) Happening.chose).bind
      fun action x chose => ?_
    subst chose
    refine Program.Logs.ite (fun finishes => ?_) fun goesOn => ?_
    · -- A finish after a search: the answer is reviewed over what the model was shown.
      refine Program.Logs.ite (fun _ => Program.logs_throw _) fun _ => ?_
      refine (notes_conclude desk out task action.answer shown.1).bind fun result y concluded => ?_
      obtain ⟨review, rfl, finished⟩ := concluded
      refine Program.logs_pure ⟨?_, Nat.zero_le _, fun new => absurd new finishes.2, ?_⟩
      · exact Nat.succ_le_succ (Nat.zero_le left)
      · exact ⟨action.answer, shown.1, review, fun e listed =>
          List.mem_append_left _ (fits e listed),
          rfl, finished⟩
    -- The last step may not start another search.
    refine Program.Logs.ite (fun last => Program.logs_pure ?_) fun more => ?_
    · refine ⟨?_, Nat.zero_le _, fun _ two => absurd two (by omega), ?_⟩
      · exact Nat.succ_le_succ (Nat.zero_le left)
      · exact ⟨fun e listed => List.mem_append_left _ listed, rfl⟩
    · refine (notes_searchStep desk out task (queryOf task action)).bind fun found y step => ?_
      refine (ih _ _).imp fun ended z loop => ?_
      have requests := loop.requests
      have searches := loop.searches
      have stepped := step.searches z
      -- The journal of this step stands before the journal of the rest of the loop.
      have journal : [] ++ ([Happening.chose action] ++ (y ++ z)) = .chose action :: (y ++ z) := rfl
      rw [journal]
      refine ⟨?_, ?_, fun _ _ => ?_, ?_⟩
      · have one : actionRequests (.chose action :: (y ++ z)) = actionRequests z + 1 := by
          simp [actionRequests, Happening.action?, step.requests]
        omega
      · rw [searchSteps_chose, stepped]
        omega
      · rw [searchSteps_chose, stepped]
        omega
      · refine loop.ends.mono (fun e held => ?_) ?_
        · rw [List.mem_append] at held
          have arrived : collected (.chose action :: (y ++ z)) = collected y ++ collected z := by
            simp [collected, Happening.found]
          rw [arrived]
          simp only [List.mem_append]
          -- What is held now was found before, in this step, or in the rest of the loop.
          rcases held with merged | later
          · rcases List.mem_append.mp (mem_of_mem_distinctEvidence merged) with before | now
            · exact .inl before
            · exact .inr (.inl (step.found e now))
          · exact .inr (.inr later)
        · have reviews := step.reviews
          simp only [reviewsOf, List.filterMap_cons, Happening.review?,
            List.filterMap_append] at reviews ⊢
          rw [reviews, List.nil_append]

/-! ### The worker -/

/-- What comes after the last search adds none. -/
theorem searchSteps_append {journal quiet : List Happening}
    (h : ∀ e ∈ quiet, ∀ found, e ≠ .retrieved found) :
    searchSteps (journal ++ quiet) = searchSteps journal := by
  have nothing : ∀ quiet : List Happening, (∀ e ∈ quiet, ∀ found, e ≠ .retrieved found) →
      searchSteps quiet = 0 := by
    intro quiet
    fun_induction searchSteps quiet with
    | case1 => exact fun _ => rfl
    | case2 a b rest ih => exact fun h => absurd rfl (h (.retrieved b) (by simp) b)
    | case3 a rest ih => exact fun h => absurd rfl (h (.retrieved a) (by simp) a)
    | case4 a rest _ _ ih => exact fun h => ih fun e listed => h e (.tail _ listed)
  fun_induction searchSteps journal with
  | case1 => exact nothing quiet h
  | case2 a b rest ih => simpa [searchSteps] using ih
  | case3 a rest ih => simpa [searchSteps] using ih
  | case4 a rest one two ih =>
    rw [List.cons_append, searchSteps, ih]
    · -- No enrichment at the seam is followed by a retrieval.
      intro x y more enriched retrieved
      cases rest with
      | nil => exact h (.retrieved y) (by simp [show quiet = _ from retrieved]) y rfl
      | cons b rest =>
        obtain ⟨rfl, -⟩ := List.cons.inj retrieved
        exact one x y rest enriched rfl
    · exact two

/-- What writing and reviewing add to a journal: nothing but the review. -/
theorem journal_concluded {x y : List Happening}
    (written : y = [] ∨ ∃ answer, y = [.answered answer]) (review : Review) :
    searchSteps (x ++ (y ++ [.reviewed review])) = searchSteps x ∧
      actionRequests (x ++ (y ++ [.reviewed review])) = actionRequests x ∧
      reviewsOf (x ++ (y ++ [.reviewed review])) = reviewsOf x ++ [review] ∧
      collected (x ++ (y ++ [.reviewed review])) = collected x := by
  rcases written with rfl | ⟨answer, rfl⟩
  · refine ⟨searchSteps_append (by simp), ?_, ?_, ?_⟩
    · simp [actionRequests, Happening.action?]
    · simp [reviewsOf, Happening.review?]
    · simp [collected, Happening.found]
  · refine ⟨searchSteps_append (by simp), ?_, ?_, ?_⟩
    · simp [actionRequests, Happening.action?]
    · simp only [reviewsOf, List.filterMap_append]
      rfl
    · simp [collected, Happening.found]

/-- **Every result is one of the law**, with the journal of what was asked. -/
theorem notes_worker (desk : Desk) (out : Outside σ) (task : Task) (prior : List Json) :
    Program.Notes (desk.worker out.journaled task prior) WorkerLaw := by
  refine Program.Logs.ite (fun _ => Program.logs_throw _) fun _ => ?_
  refine (notes_workerLoop desk out task prior 3 [] []).bind fun ended x loop => ?_
  have searched := loop.searched rfl (by decide)
  have searches := loop.searches
  have requests := loop.requests
  cases ended with
  -- The loop has ended with an answer of its own, reviewed on the way.
  | inl result =>
    obtain ⟨answer, selected, review, held, reviews, finished⟩ := loop.ends
    obtain ⟨own, cites, unsupported, complete⟩ := finish_eq_ok finished
    refine Program.logs_pure ?_
    rw [List.append_nil]
    refine ⟨⟨searched, searches⟩, requests, cites.mono held, ⟨review, reviews, own⟩, ?_, complete⟩
    rw [reviews]
    simpa using unsupported
  -- The loop ran out of steps: the answer is generated from what was held, and reviewed then.
  | inr evidence =>
    obtain ⟨held, noReview⟩ := loop.ends
    refine (notes_generate desk out evidence task.objective (.role task.role) prior).bind
      fun answer y answered => ?_
    refine (notes_conclude desk out task answer evidence).imp fun result z concluded => ?_
    obtain ⟨review, rfl, finished⟩ := concluded
    obtain ⟨own, cites, unsupported, complete⟩ := finish_eq_ok finished
    obtain ⟨sameSearches, sameRequests, reviews, sameFound⟩ := journal_concluded answered review
    refine ⟨?_, ?_, ?_, ⟨review, by rw [reviews, noReview, List.nil_append], own⟩, ?_, complete⟩
    · rw [sameSearches]
      exact ⟨searched, searches⟩
    · rwa [sameRequests]
    · rw [sameFound]
      exact cites.mono held
    · rw [reviews, noReview]
      simpa using unsupported

/-! ### Without the journal -/

theorem tracks_ensure (desk : Desk) (out : Outside σ) (evidence : List Evidence)
    (question : String) :
    Program.Tracks (desk.ensure out.journaled evidence question)
      (desk.ensure out evidence question) := by
  refine Program.Tracks.ite (Program.tracks_pure _) ?_
  refine ((Program.tracks_ofExcept _).bind fun shown => Program.tracks_journaled _ _).bind
    fun gap => ?_
  refine Program.Tracks.ite (Program.tracks_pure _) ?_
  refine (Program.tracks_journaled _ _).bind fun transient => ?_
  exact (Program.tracks_journaled _ _).bind fun updated => Program.tracks_pure _

theorem tracks_conclude (desk : Desk) (out : Outside σ) (task : Task) (answer : GroundedAnswer)
    (evidence : List Evidence) :
    Program.Tracks (desk.conclude out.journaled task answer evidence)
      (desk.conclude out task answer evidence) := by
  refine ((Program.tracks_ofExcept _).bind fun shown => Program.tracks_journaled _ _).bind
    fun review => ?_
  exact Program.tracks_ofExcept _

theorem tracks_generate (desk : Desk) (out : Outside σ) (evidence : List Evidence)
    (question : String) (asRole : AskedAs) (prior : List Json) :
    Program.Tracks (desk.generate out.journaled evidence question asRole prior)
      (desk.generate out evidence question asRole prior) := by
  refine (Program.tracks_ofExcept _).bind fun shown => Program.Tracks.ite (Program.tracks_pure _) ?_
  refine (Program.tracks_journaled _ _).bind fun answer => ?_
  exact Program.Tracks.ite (Program.tracks_throw _) (Program.tracks_pure _)

theorem tracks_workerLoop (desk : Desk) (out : Outside σ) (task : Task)
    (prior : List Json) (left : ℕ) (evidence : List Evidence) (history : List ToolStep) :
    Program.Tracks (desk.workerLoop out.journaled task prior left evidence history)
      (desk.workerLoop out task prior left evidence history) := by
  induction left generalizing evidence history with
  | zero => exact Program.tracks_pure _
  | succ left ih =>
    refine (Program.tracks_ofExcept _).bind fun shown => ?_
    refine (Program.tracks_journaled _ _).bind fun action => Program.Tracks.ite ?_ ?_
    · refine Program.Tracks.ite (Program.tracks_throw _) ?_
      exact (tracks_conclude desk out task _ _).bind fun result => Program.tracks_pure _
    · refine Program.Tracks.ite (Program.tracks_pure _) ?_
      refine ((Program.tracks_journaled _ _).bind fun found => tracks_ensure desk out found _).bind
        fun found => ?_
      exact ih _ _

theorem tracks_worker (desk : Desk) (out : Outside σ) (task : Task) (prior : List Json) :
    Program.Tracks (desk.worker out.journaled task prior) (desk.worker out task prior) := by
  refine Program.Tracks.ite (Program.tracks_throw _) ?_
  refine (tracks_workerLoop desk out task prior 3 [] []).bind fun ended => ?_
  cases ended with
  | inl result => exact Program.tracks_pure _
  | inr evidence =>
    exact (tracks_generate desk out evidence _ _ _).bind fun answer =>
      tracks_conclude desk out task _ _

/-- **The law of a worker's result.** Whatever the models, the retrieval and the ingestion
answer, a result that is returned comes with the journal of the run, and it was searched
for, cites what was collected, and claims nothing that was not supported. -/
theorem worker_law (desk : Desk) (out : Outside σ) (task : Task) (prior : List Json) {s t : σ}
    {result : TaskResult} (returned : desk.worker out task prior s = (.ok result, t)) :
    ∃ journal, desk.worker out.journaled task prior (s, []) = (.ok result, t, journal) ∧
      WorkerLaw result journal :=
  (tracks_worker desk out task prior).exists_journal (notes_worker desk out task prior) returned

end Desk

/-! ### A worker that searches once -/

/-- A quotation of one line. -/
def oneQuote : Evidence where
  evidenceId := "E-1"
  uri := "local://policy"
  docId := "policy"
  title := "policy"
  source := "policy.md"
  page := none
  startLine := 1
  endLine := 1
  quote := "three days"
  contentSha256 := "0c1f"
  version := "v1"
  startLine_pos := le_rfl
  ordered := le_rfl
  quote_solid := by decide

/-- An answer that cites it. -/
def oneClaim : GroundedAnswer := { claims := [⟨"three days", ["E-1"], by decide⟩] }

/-- The outside finds the quotation; the model searches first and finishes then. -/
def searchThenFinish : Outside ℕ where
  action _ _ n := (.ok (if n = 0 then ⟨.search, "", "", {}⟩ else ⟨.finish, "", "", oneClaim⟩),
    n + 1)
  sufficiency _ n := (.ok ⟨true, [], false, ""⟩, n)
  answer _ _ n := (.ok {}, n)
  review _ n := (.ok ⟨true, [], [], ""⟩, n)
  retrieve _ n := (.ok [oneQuote], n)
  enrich n := (.ok [], n)

/-- The settings and the task. -/
def quietDesk : Desk := { web := "off", contextBytes := 4096, request := { question := "기한은?" } }

/-- The task of finding the period. -/
def findPeriod : Task := { id := "research", role := .policy, objective := "기한은?" }

/-- The result it comes to. -/
def periodFound : TaskResult where
  status := .complete
  answer := oneClaim
  missing := []
  evidence := [oneQuote]
  review := some ⟨true, [], [], ""⟩
  text := "three days [E-1]"

set_option maxRecDepth 20000 in
theorem worker_law_findPeriod :
    ∃ journal, quietDesk.worker searchThenFinish.journaled findPeriod [] (0, []) =
        (.ok periodFound, 2, journal) ∧ WorkerLaw periodFound journal :=
  Desk.worker_law quietDesk searchThenFinish findPeriod [] rfl

end AgentLabs.Rag
