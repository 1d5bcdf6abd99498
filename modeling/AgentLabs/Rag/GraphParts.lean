import AgentLabs.Rag.Graphs

/-!
# The parts of the graphs

What the graphs have in common: the evidence is made sure of, an answer is written, reviewed and
finished, or a worker does all of it. Each part asks so much, and its result is made of what it was
given and has found.

## Main definitions

* `TaskResult.FinishedOf`: what a result takes from its answer, the evidence, and the review
* `WorkerJournal`: what a worker asks

## Main results

* `Desk.finishedOf_of_finish`: what a finished result is like
* `Desk.notes_worker_journal`: what a worker asks, and the law of what it returns
-/

namespace AgentLabs.Rag

open Math Text

/-- What a result takes from its answer, the evidence, and the review. -/
structure TaskResult.FinishedOf (evidence : List Evidence) (review : Option Review)
    (result : TaskResult) : Prop where
  same_evidence : result.evidence = evidence
  same_review : result.review = review
  cites : result.answer.CitesOnly evidence
  unsupported : ∀ r ∈ review, r.supported = false → result.answer.claims = []
  missing : ∀ r ∈ review, r.missing ⊆ result.missing
  complete : result.status = .complete → result.answer.claims ≠ [] ∧ result.missing = [] ∧
    result.answer.missing = [] ∧ result.answer.conflicts = []
  printed : result.text = "\n".intercalate (result.answer.claims.map Claim.line)

theorem TaskResult.FinishedOf.law {evidence : List Evidence} {review : Option Review}
    {result : TaskResult} {journal : List Happening} (h : result.FinishedOf evidence review)
    (held : ∀ e ∈ evidence, e ∈ collected journal)
    (last : review = (reviewsOf journal).getLast?) : ResultLaw result journal where
  cites := h.cites.mono held
  inside := h.same_evidence ▸ h.cites
  held := h.same_evidence ▸ held
  review := h.same_review.trans last
  unsupported r named := h.unsupported r (h.same_review ▸ named)
  missing r named := h.missing r (h.same_review ▸ named)
  complete := h.complete
  printed := h.printed

namespace Desk

section Parts

variable {σ : Type} (desk : Desk) (out : Outside σ)

/-- **What a finished result is like**, with a review or without. -/
theorem finishedOf_of_finish {answer : GroundedAnswer} {evidence : List Evidence}
    {review : Option Review} {result : TaskResult}
    (finished : finish answer evidence review = .ok result) :
    result.FinishedOf evidence review := by
  unfold finish at finished
  split_ifs at finished with unknown
  obtain rfl := Except.ok.inj finished
  -- `finish` raises on a citation that is not in the evidence.
  have cites := validateCitations_eq_nil_iff.mp (not_not.mp unknown)
  refine ⟨rfl, rfl, ?_, ?_, ?_, ?_, rfl⟩
  · dsimp only
    cases review with
    | none => exact cites
    | some r =>
      unfold reviewed
      dsimp only
      split_ifs
      · exact fun claim listed => absurd listed List.not_mem_nil
      · exact cites
  · rintro r rfl unsupported
    simp only [reviewed, if_pos unsupported, withdrawn]
  · rintro r rfl item listed
    exact mem_distinctTexts.mpr (List.mem_append_right _ listed)
  · intro done
    dsimp only [statusOf] at done
    split_ifs at done with noClaims opened
    obtain ⟨missing, conflicts⟩ := not_or.mp opened
    have nothing := distinctTexts_eq_nil_iff.mp (not_not.mp missing)
    exact ⟨noClaims, not_not.mp missing, (List.append_eq_nil_iff.mp nothing).1,
      not_not.mp conflicts⟩

/-- Of each id there is still one. -/
theorem exists_mem_distinctEvidence {e : Evidence} {evidence : List Evidence}
    (held : e ∈ evidence) : ∃ e' ∈ distinctEvidence evidence, e'.evidenceId = e.evidenceId := by
  have key : e.evidenceId ∈
      (Dict.setAll [] (evidence.map fun e => (e.evidenceId, e))).keys := by
    rw [Dict.mem_keys_setAll, List.map_map]
    exact .inr (List.mem_map_of_mem held)
  obtain ⟨⟨id, e'⟩, listed, same⟩ := List.mem_map.mp key
  obtain ⟨_, -, paired⟩ := List.mem_map.mp (Dict.mem_of_mem_setAll_nil listed)
  obtain ⟨rfl, rfl⟩ := Prod.mk.inj paired
  exact ⟨_, List.mem_map_of_mem listed, same⟩

theorem notes_field {ξ α : Type} (value : Option α) :
    Program.Notes (field value : Program (σ × List ξ) WorkerError α) fun a more =>
      more = [] ∧ value = some a := by
  cases value with
  | none => exact Program.logs_throw _
  | some a => exact Program.logs_pure ⟨rfl, rfl⟩

/-- What the assessment of coverage asks, and what it leaves at hand. -/
structure EnsureJournal (evidence refs : List Evidence) (journal : List Happening) : Prop where
  calls : modelCalls journal ≤ 1
  searches : retrievals journal ≤ 1
  reviews : reviewsOf journal = []
  held : ∀ e ∈ refs, e ∈ evidence ++ collected journal
  kept : ∀ e ∈ evidence ++ collected journal, ∃ e' ∈ refs, e'.evidenceId = e.evidenceId

theorem notes_ensure (evidence : List Evidence) (question : String) :
    Program.Notes (desk.ensure out.journaled evidence question) (EnsureJournal evidence) := by
  -- Where nothing is searched for, the evidence stays what it was.
  have same (journal : List Happening) (nothing : collected journal = [])
      (calls : modelCalls journal ≤ 1) (searches : retrievals journal ≤ 1)
      (reviews : reviewsOf journal = []) : EnsureJournal evidence evidence journal := by
    refine ⟨calls, searches, reviews, fun e held => List.mem_append_left _ held, ?_⟩
    rw [nothing, List.append_nil]
    exact fun e held => ⟨e, held, rfl⟩
  unfold ensure
  refine Program.Logs.ite (fun _ => Program.logs_pure ?_) fun _ => ?_
  · exact same [] rfl (Nat.zero_le _) (Nat.zero_le _) rfl
  refine (notes_assess desk out evidence question).bind fun gap x assessed => ?_
  subst assessed
  refine Program.Logs.ite (fun _ => Program.logs_pure ?_) fun _ => ?_
  · exact same [.assessed gap] rfl le_rfl (Nat.zero_le _) rfl
  refine (Program.notes_journaled out.enrich Happening.enriched).bind fun transient y enriched => ?_
  subst enriched
  refine (Program.notes_journaled (out.retrieve _) Happening.retrieved).bind
    fun updated z retrieved => ?_
  subst retrieved
  refine Program.logs_pure ⟨le_rfl, le_rfl, rfl, fun e held => ?_, fun e held => ?_⟩
  · have merged := mem_of_mem_distinctEvidence held
    simp only [collected, List.mem_append, List.flatMap_cons, List.flatMap_nil, List.cons_append,
      List.nil_append, Happening.found, List.append_nil] at merged ⊢
    tauto
  · apply exists_mem_distinctEvidence
    simp only [collected, List.mem_append, List.flatMap_cons, List.flatMap_nil, List.cons_append,
      List.nil_append, Happening.found, List.append_nil] at held ⊢
    tauto

theorem notes_review (answer : GroundedAnswer) (evidence : List Evidence) (question : String) :
    Program.Notes (desk.review out.journaled answer evidence question) fun review more =>
      more = [.reviewed review] := by
  refine (notes_context desk evidence).bind fun shown x context => ?_
  obtain ⟨rfl, -⟩ := context
  exact Program.notes_journaled _ _

theorem notes_finish {ξ : Type} (answer : GroundedAnswer) (evidence : List Evidence)
    (review : Option Review) :
    Program.Notes (Program.ofExcept (finish answer evidence review) :
      Program (σ × List ξ) WorkerError TaskResult) fun result more =>
      more = [] ∧ result.FinishedOf evidence review :=
  Program.logs_ofExcept fun _ finished => ⟨rfl, finishedOf_of_finish finished⟩

/-- The retrieval of several queries finds what it collects, with one search for each. -/
theorem notes_retrieveEach (queries : List String) :
    Program.Notes (retrieveEach out.journaled queries) fun found more =>
      collected more = found ∧ modelCalls more = 0 ∧ retrievals more = queries.length ∧
        reviewsOf more = [] := by
  induction queries with
  | nil => exact Program.logs_pure ⟨rfl, rfl, rfl, rfl⟩
  | cons query rest ih =>
    refine (Program.notes_journaled (out.retrieve query) Happening.retrieved).bind
      fun found x retrieved => ?_
    subst retrieved
    refine ih.bind fun others y ⟨all, calls, searches, reviews⟩ => Program.logs_pure ?_
    rw [List.append_nil, collected_append, modelCalls_append, retrievals_append, reviewsOf_append,
      all, calls, searches, reviews]
    refine ⟨?_, rfl, ?_, rfl⟩
    · simp [collected, Happening.found]
    · rw [List.length_cons, Nat.add_comm]
      rfl

/-- What writing asks: at most one model. -/
theorem written_law {journal : List Happening}
    (written : journal = [] ∨ ∃ answer, journal = [.answered answer]) :
    modelCalls journal ≤ 1 ∧ retrievals journal = 0 ∧ reviewsOf journal = [] ∧
      collected journal = [] := by
  rcases written with rfl | ⟨answer, rfl⟩
  · exact ⟨Nat.zero_le _, rfl, rfl, rfl⟩
  · exact ⟨le_rfl, rfl, rfl, rfl⟩

/-! #### The worker in a graph -/

/-- What a worker asks, by what it comes to. -/
structure WorkerJournal (result : TaskResult) (journal : List Happening) : Prop where
  law : ResultLaw result journal
  reviewed : result.review ≠ none
  calls : modelCalls journal ≤ 7
  searches : retrievals journal ≤ 4

/-- What a loop with so many requests left asks: a result comes with its review, and without one
there is a request less. -/
structure LoopCosts (left : ℕ) (ended : TaskResult ⊕ List Evidence) (journal : List Happening) :
    Prop where
  calls : modelCalls journal ≤ 2 * left
  open_calls : ended.isRight → modelCalls journal ≤ 2 * left - 1
  searches : retrievals journal ≤ 2 * (left - 1)

theorem notes_searchStep_costs (task : Task) (query : String) :
    Program.Notes (desk.searchStep out.journaled task query) fun _ more =>
      modelCalls more ≤ 1 ∧ retrievals more ≤ 2 := by
  refine (Program.notes_journaled (out.retrieve query) Happening.retrieved).bind
    fun found x retrieved => ?_
  subst retrieved
  refine (notes_ensure desk out found task.objective).imp fun refs y ensured => ?_
  rw [modelCalls_append, retrievals_append]
  have calls := ensured.calls
  have searches := ensured.searches
  have first : modelCalls [Happening.retrieved found] = 0 ∧
      retrievals [Happening.retrieved found] = 1 := ⟨rfl, rfl⟩
  omega

theorem notes_workerLoop_costs (task : Task) (prior : List Json) (left : ℕ)
    (evidence : List Evidence) (history : List ToolStep) :
    Program.Notes (desk.workerLoop out.journaled task prior left evidence history)
      (LoopCosts left) := by
  induction left generalizing evidence history with
  | zero => exact Program.logs_pure ⟨le_rfl, fun _ => le_rfl, le_rfl⟩
  | succ left ih =>
    refine (notes_context desk evidence).bind fun shown x context => ?_
    obtain ⟨rfl, -⟩ := context
    refine (Program.notes_journaled (out.action task.role _) Happening.chose).bind
      fun action x chose => ?_
    subst chose
    have first : modelCalls [Happening.chose action] = 1 ∧
        retrievals [Happening.chose action] = 0 := ⟨rfl, rfl⟩
    refine Program.Logs.ite (fun _ => ?_) fun _ => ?_
    · -- A finish: one more call, for the review.
      refine Program.Logs.ite (fun _ => Program.logs_throw _) fun _ => ?_
      refine (notes_conclude desk out task action.answer shown.1).bind fun result y concluded => ?_
      obtain ⟨review, rfl, -⟩ := concluded
      have second : modelCalls [Happening.reviewed review] = 1 ∧
          retrievals [Happening.reviewed review] = 0 := ⟨rfl, rfl⟩
      refine Program.logs_pure ⟨?_, nofun, ?_⟩
      all_goals simp only [modelCalls_append, retrievals_append, List.append_nil, List.nil_append]
      all_goals omega
    refine Program.Logs.ite (fun last => Program.logs_pure ⟨?_, fun _ => ?_, ?_⟩) fun more => ?_
    · simp only [List.append_nil, List.nil_append]
      omega
    · simp only [List.append_nil, List.nil_append]
      omega
    · simp only [List.append_nil, List.nil_append]
      omega
    · -- A search, and the rest of the loop.
      refine (notes_searchStep_costs desk out task (queryOf task action)).bind
        fun found y ⟨asked, searched⟩ => ?_
      refine (ih _ _).imp fun ended z costs => ?_
      have calls := costs.calls
      have searches := costs.searches
      refine ⟨?_, fun right => ?_, ?_⟩
      · simp only [modelCalls_append, List.nil_append]
        omega
      · have opened := costs.open_calls right
        simp only [modelCalls_append, List.nil_append]
        omega
      · simp only [retrievals_append, List.nil_append]
        omega

/-- **What a worker asks**, and the law of what it returns. -/
theorem notes_worker_journal (task : Task) (prior : List Json) :
    Program.Notes (desk.worker out.journaled task prior) WorkerJournal := by
  refine Program.Logs.ite (fun _ => Program.logs_throw _) fun _ => ?_
  refine ((notes_workerLoop desk out task prior 3 [] []).and
    (notes_workerLoop_costs desk out task prior 3 [] [])).bind fun ended x both => ?_
  obtain ⟨loop, costs⟩ := both
  -- Either a review in the loop ended it, or the last draft is written and reviewed after it.
  cases ended with
  | inl result =>
    obtain ⟨answer, selected, review, held, reviews, finished⟩ := loop.ends
    refine Program.logs_pure ?_
    rw [List.append_nil]
    have calls := costs.calls
    have of := finishedOf_of_finish finished
    refine ⟨of.law held (by rw [reviews]; rfl), ?_, by omega, costs.searches⟩
    rw [of.same_review]
    exact Option.some_ne_none review
  | inr evidence =>
    obtain ⟨held, noReview⟩ := loop.ends
    have calls := costs.open_calls rfl
    have searches := costs.searches
    refine (notes_generate desk out evidence task.objective (.role task.role) prior).bind
      fun answer y answered => ?_
    refine (notes_conclude desk out task answer evidence).imp fun result z concluded => ?_
    obtain ⟨review, rfl, finished⟩ := concluded
    obtain ⟨written, quiet, noReview', nothing⟩ := written_law answered
    have last : modelCalls [Happening.reviewed review] = 1 ∧
        retrievals [Happening.reviewed review] = 0 := ⟨rfl, rfl⟩
    have of := finishedOf_of_finish finished
    refine ⟨of.law (fun e listed => ?_) ?_, of.same_review ▸ Option.some_ne_none review, ?_, ?_⟩
    · rw [collected_append]
      exact List.mem_append_left _ (held e listed)
    · rw [reviewsOf_append, reviewsOf_append, noReview, noReview']
      rfl
    · simp only [modelCalls_append]
      omega
    · simp only [retrievals_append]
      omega

end Parts

end Desk

end AgentLabs.Rag
