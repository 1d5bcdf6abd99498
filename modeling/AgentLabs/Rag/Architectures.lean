import AgentLabs.Rag.Adaptive

/-!
# The architectures

Each architecture is one of the graphs, over the same service. Its runs come to an end within the
limit, with an answer that is grounded in what was found on the way, or with a question back. The
runs are those with the journal, without it.

## Main results

* `Desk.adaptive_law`: each run of the adaptive graph that returns
* `Desk.architecture_law`: each result of each of the graphs
-/

namespace AgentLabs.Rag

open Math Text

namespace Desk

section Parts

variable {σ : Type} (desk : Desk) (out : Outside σ)

/-! #### The graphs without a loop -/

section Linear

variable (planners : Planners σ) (question : String)

/-- A run has ended with an answer of the architecture. -/
def Answered (a : Architecture) (ended : Option (List Stage × RagState))
    (journal : List Happening) : Prop :=
  ∃ path s result, ended = some (path, s) ∧ AnswerLaw a s result journal

theorem notes_baseline (limit : ℕ) :
    Program.Notes ((desk.baseline out.journaled).run (limit + 2) [] .retrieve { question })
      (Answered .baseline) := by
  rw [Workflow.run_of_next (u := .answer) fun _ => rfl]
  refine Program.Logs.bind (P := fun after x => ∃ refs, after.evidence = some refs ∧
    modelCalls x ≤ 1 ∧ retrievals x ≤ 2 ∧ reviewsOf x = [] ∧ ∀ e ∈ refs, e ∈ collected x) ?_ ?_
  · refine (Program.notes_journaled (out.retrieve question) Happening.retrieved).bind
      fun found x retrieved => ?_
    subst retrieved
    refine (notes_ensure desk out found "").bind fun refs y ensured =>
      Program.logs_pure ⟨refs, rfl, ?_⟩
    have calls := ensured.calls
    have searches := ensured.searches
    have first : modelCalls [Happening.retrieved found] = 0 ∧
        retrievals [Happening.retrieved found] = 1 ∧
        collected [Happening.retrieved found] = found := ⟨rfl, rfl, List.append_nil _⟩
    simp only [List.append_nil, modelCalls_append, retrievals_append, reviewsOf_append,
      collected_append, ensured.reviews, first]
    exact ⟨by omega, by omega, rfl, ensured.held⟩
  -- The baseline asks for no review: its result is finished without one.
  · rintro after x ⟨refs, held, calls, searches, noReview, all⟩
    rw [Workflow.run_of_end fun _ => rfl]
    refine Program.Logs.bind (P := fun final y => ∃ result,
      final.result = some (.finished result) ∧ result.FinishedOf refs none ∧ modelCalls y ≤ 1 ∧
      retrievals y = 0 ∧ reviewsOf y = [] ∧ collected y = []) ?_ ?_
    · change Program.Notes (field after.evidence >>= _) _
      rw [held]
      refine (notes_generate desk out refs "" .writer []).bind fun answer y written => ?_
      refine (notes_finish answer refs none).bind fun result z ⟨quiet, finished⟩ => ?_
      subst quiet
      refine Program.logs_pure ⟨result, rfl, finished, ?_⟩
      rw [List.append_nil, List.append_nil]
      exact written_law written
    · rintro final y ⟨result, ended, finished, asked, searched, noReview', nothing⟩
      refine Program.logs_pure ⟨_, final, result, rfl, ended, finished.law ?_ ?_,
        fun other => absurd rfl other, ?_, ?_⟩
      · simpa [nothing] using all
      · simp [noReview, noReview']
      · simp only [modelCalls_append, List.append_nil, Architecture.calls]
        omega
      · simp only [retrievals_append, List.append_nil, Architecture.searches]
        omega

/-- What an answer is by the evidence at hand, where it is written and reviewed at last. -/
theorem answerLaw_of_reviewed {a : Architecture} {s : RagState} {result : TaskResult}
    {refs : List Evidence} {review : Review} {x y : List Happening}
    (ended : s.result = some (.finished result)) (finished : result.FinishedOf refs (some review))
    (held : ∀ e ∈ refs, e ∈ collected x) (last : (reviewsOf y).getLast? = some review)
    (calls : modelCalls x + modelCalls y ≤ a.calls)
    (searches : retrievals x + retrievals y ≤ a.searches) : AnswerLaw a s result (x ++ y) where
  ended := ended
  law := by
    apply finished.law
    · intro e listed
      rw [collected_append]
      exact List.mem_append_left _ (held e listed)
    · rw [reviewsOf_append, List.getLast?_append, last]
      rfl
  reviewed _ := finished.same_review ▸ Option.some_ne_none review
  calls := by rwa [modelCalls_append]
  searches := by rwa [retrievals_append]

theorem notes_webEnrichment (limit : ℕ) :
    Program.Notes ((desk.webEnrichment out.journaled).run (limit + 3) [] .retrieve { question })
      (Answered .web) := by
  rw [Workflow.run_of_next (u := .enrich) fun _ => rfl]
  refine Program.Logs.bind (P := fun after x => ∃ found, after.evidence = some found ∧
    x = [.retrieved found]) ?_ ?_
  · refine (Program.notes_journaled (out.retrieve question) Happening.retrieved).bind
      fun found x retrieved => ?_
    subst retrieved
    exact Program.logs_pure ⟨found, rfl, rfl⟩
  -- `enrich` asks for more only when the gap review says so: at most one call and one search.
  rintro first _ ⟨found, here, rfl⟩
  rw [Workflow.run_of_next (u := .answer) fun _ => rfl]
  refine Program.Logs.bind (P := fun after y => ∃ refs, after.evidence = some refs ∧
    EnsureJournal found refs y) ?_ ?_
  · change Program.Notes (field first.evidence >>= _) _
    rw [here]
    refine (notes_ensure desk out found "").bind fun refs y ensured => Program.logs_pure ?_
    rw [List.append_nil]
    exact ⟨refs, rfl, ensured⟩
  rintro second y ⟨refs, held, ensured⟩
  rw [Workflow.run_of_end fun _ => rfl]
  change Program.Notes ((field second.evidence >>= _) >>= _) _
  rw [held]
  refine Program.Logs.bind (P := fun final z => ∃ result review,
    final.result = some (.finished result) ∧ result.FinishedOf refs (some review) ∧
    modelCalls z ≤ 2 ∧ retrievals z = 0 ∧ reviewsOf z = [review]) ?_ ?_
  · refine (notes_generate desk out refs "" .writer []).bind fun answer z written => ?_
    refine (notes_review desk out answer refs "").bind fun review w reviewed => ?_
    subst reviewed
    refine (notes_finish answer refs (some review)).bind fun result w ⟨quiet, finished⟩ => ?_
    subst quiet
    obtain ⟨asked, searched, noReview, -⟩ := written_law written
    refine Program.logs_pure ⟨result, review, rfl, finished, ?_, ?_, ?_⟩
    · simp only [modelCalls_append]
      exact Nat.succ_le_succ asked
    · simp only [retrievals_append, searched]
      rfl
    · rw [reviewsOf_append, noReview]
      rfl
  · rintro final z ⟨result, review, ended, finished, asked, searched, reviews⟩
    have calls := ensured.calls
    have searches := ensured.searches
    have first : modelCalls [Happening.retrieved found] = 0 ∧
        retrievals [Happening.retrieved found] = 1 ∧
        collected [Happening.retrieved found] = found := ⟨rfl, rfl, List.append_nil _⟩
    refine Program.logs_pure ⟨_, final, result, rfl, ?_⟩
    rw [List.append_nil, ← List.append_assoc]
    -- The three pieces of the journal stand in the order the nodes ran in.
    refine answerLaw_of_reviewed ended finished ?_ (by rw [reviews]; rfl) ?_ ?_
    · rw [collected_append, first.2.2]
      exact ensured.held
    · simp only [modelCalls_append, Architecture.calls]
      omega
    · simp only [retrievals_append, Architecture.searches]
      omega

theorem notes_sequential (limit : ℕ) :
    Program.Notes ((desk.sequential out.journaled).run (limit + 3) [] .research { question })
      (Answered .sequential) := by
  rw [Workflow.run_of_next (u := .write) fun _ => rfl]
  refine Program.Logs.bind (P := fun after x => ∃ research, after.research = some research ∧
    after.evidence = some research.evidence ∧ WorkerJournal research x) ?_ ?_
  · refine (notes_worker_journal desk out _ []).bind fun research x journal =>
      Program.logs_pure ⟨research, rfl, rfl, ?_⟩
    rwa [List.append_nil]
  rintro first x ⟨research, here, held, journal⟩
  rw [Workflow.run_of_next (u := .verify) fun _ => rfl]
  refine Program.Logs.bind (P := fun after y => after.evidence = some research.evidence ∧
    (∃ draft, after.draft = some draft) ∧ modelCalls y ≤ 1 ∧ retrievals y = 0) ?_ ?_
  · change Program.Notes (field first.evidence >>= fun refs => field first.research >>= _) _
    rw [held, here]
    refine (notes_generate desk out research.evidence "" .writer _).bind fun draft y written => ?_
    obtain ⟨asked, searched, -, -⟩ := written_law written
    refine Program.logs_pure ⟨rfl, ⟨draft, rfl⟩, ?_⟩
    rw [List.append_nil]
    exact ⟨asked, searched⟩
  -- The writer leaves the evidence of the researcher in place, so the reviewer reads the same.
  rintro second y ⟨kept, ⟨draft, drafted⟩, asked, searched⟩
  rw [Workflow.run_of_end fun _ => rfl]
  change Program.Notes ((field second.evidence >>= fun refs => field second.draft >>= _) >>= _) _
  rw [kept, drafted]
  refine Program.Logs.bind (P := fun final z => ∃ result review,
    final.result = some (.finished result) ∧
    result.FinishedOf research.evidence (some review) ∧ z = [.reviewed review]) ?_ ?_
  · refine (notes_review desk out draft research.evidence "").bind fun review z reviewed => ?_
    subst reviewed
    refine (notes_finish draft research.evidence (some review)).bind
      fun result z ⟨quiet, finished⟩ => ?_
    subst quiet
    exact Program.logs_pure ⟨result, review, rfl, finished, rfl⟩
  · rintro final _ ⟨result, review, ended, finished, rfl⟩
    have calls := journal.calls
    have searches := journal.searches
    have last : modelCalls [Happening.reviewed review] = 1 ∧
        retrievals [Happening.reviewed review] = 0 := ⟨rfl, rfl⟩
    refine Program.logs_pure ⟨_, final, result, rfl, ?_⟩
    rw [List.append_nil, ← List.append_assoc]
    refine answerLaw_of_reviewed ended finished (fun e listed => ?_) rfl ?_ ?_
    · rw [collected_append]
      exact List.mem_append_left _ (journal.law.held e listed)
    · simp only [modelCalls_append, Architecture.calls]
      omega
    · simp only [retrievals_append, Architecture.searches]
      omega

theorem notes_router (limit : ℕ) :
    Program.Notes ((desk.router out.journaled planners.unjournaled).run (limit + 2) [] .route
      { question }) (Answered .router) := by
  rw [Workflow.run_of_next (u := .specialist) fun _ => rfl]
  -- The route is asked of the planner and noted nowhere.
  refine Program.Logs.bind (P := fun after x => (∃ owner, after.owner = some owner) ∧ x = [])
    ?_ ?_
  · refine Program.Logs.bind (P := fun _ x => x = []) ?_ fun route x quiet => ?_
    · unfold route
      refine (Program.notes_unjournaled _).bind fun route x quiet => ?_
      subst quiet
      exact Program.Logs.ite (fun _ => Program.logs_throw _) fun _ => Program.logs_pure rfl
    · subst quiet
      exact Program.logs_pure ⟨⟨route.owner, rfl⟩, rfl⟩
  rintro first _ ⟨⟨owner, owned⟩, rfl⟩
  rw [Workflow.run_of_end fun _ => rfl]
  change Program.Notes ((field first.owner >>= _) >>= _) _
  rw [owned]
  refine Program.Logs.bind (P := fun final x => ∃ result,
    final.result = some (.finished result) ∧ WorkerJournal result x) ?_ ?_
  · refine (notes_worker_journal desk out _ []).bind fun result x journal =>
      Program.logs_pure ⟨result, rfl, ?_⟩
    rwa [List.append_nil]
  · rintro final x ⟨result, ended, journal⟩
    refine Program.logs_pure ⟨_, final, result, rfl, ?_⟩
    rw [List.append_nil, List.nil_append]
    exact ⟨ended, journal.law, fun _ => journal.reviewed, journal.calls, journal.searches⟩

end Linear

/-! #### Without the journal -/

section Tracks

variable (planners : Planners σ)

theorem tracks_field {ξ α : Type} (value : Option α) :
    Program.Tracks (field value : Program (σ × List ξ) WorkerError α) (field value) := by
  cases value with
  | none => exact Program.tracks_throw _
  | some a => exact Program.tracks_pure a

theorem tracks_review (answer : GroundedAnswer) (evidence : List Evidence) (question : String) :
    Program.Tracks (desk.review out.journaled answer evidence question)
      (desk.review out answer evidence question) :=
  (Program.tracks_ofExcept _).bind fun _ => Program.tracks_journaled _ _

theorem tracks_retrieveEach (queries : List String) :
    Program.Tracks (retrieveEach out.journaled queries) (retrieveEach out queries) := by
  induction queries with
  | nil => exact Program.tracks_pure _
  | cons query rest ih =>
    exact (Program.tracks_journaled _ _).bind fun found => ih.bind fun others =>
      Program.tracks_pure _

theorem tracks_adaptive_node (v : Stage) (s : RagState) :
    Program.Tracks ((desk.adaptive out.journaled planners.unjournaled).node v s)
      ((desk.adaptive out planners).node v s) := by
  cases v with
  | plan =>
    refine (Program.tracks_unjournaled _).bind fun p => ?_
    exact Program.Tracks.ite (Program.tracks_pure _) (Program.tracks_pure _)
  | retrieve =>
    refine (tracks_field _).bind fun p => ?_
    refine Program.Tracks.bind ?_ fun queries => ?_
    · refine Program.Tracks.ite (Program.tracks_pure _) ?_
      exact (tracks_field _).bind fun review => Program.tracks_pure _
    · refine (tracks_retrieveEach out queries).bind fun found => ?_
      exact (tracks_ensure desk out _ _).bind fun refs => Program.tracks_pure _
  | answer =>
    refine (tracks_field _).bind fun refs => (tracks_field _).bind fun p => ?_
    exact (tracks_generate desk out _ _ _ _).bind fun draft => Program.tracks_pure _
  | review =>
    refine (tracks_field _).bind fun refs => (tracks_field _).bind fun draft =>
      (tracks_field _).bind fun p => ?_
    exact (tracks_review desk out _ _ _).bind fun review =>
      (Program.tracks_ofExcept _).bind fun result => Program.tracks_pure _
  | _ => exact Program.tracks_pure _

theorem tracks_baseline_node (v : Stage) (s : RagState) :
    Program.Tracks ((desk.baseline out.journaled).node v s) ((desk.baseline out).node v s) := by
  cases v with
  | retrieve =>
    refine (Program.tracks_journaled _ _).bind fun found => ?_
    exact (tracks_ensure desk out _ _).bind fun refs => Program.tracks_pure _
  | answer =>
    refine (tracks_field _).bind fun refs => ?_
    refine (tracks_generate desk out _ _ _ _).bind fun answer => ?_
    exact (Program.tracks_ofExcept _).bind fun result => Program.tracks_pure _
  | _ => exact Program.tracks_pure _

theorem tracks_sequential_node (v : Stage) (s : RagState) :
    Program.Tracks ((desk.sequential out.journaled).node v s)
      ((desk.sequential out).node v s) := by
  cases v with
  | research => exact (tracks_worker desk out _ _).bind fun result => Program.tracks_pure _
  | write =>
    refine (tracks_field _).bind fun refs => (tracks_field _).bind fun research => ?_
    exact (tracks_generate desk out _ _ _ _).bind fun draft => Program.tracks_pure _
  | verify =>
    refine (tracks_field _).bind fun refs => (tracks_field _).bind fun draft => ?_
    exact (tracks_review desk out _ _ _).bind fun review =>
      (Program.tracks_ofExcept _).bind fun result => Program.tracks_pure _
  | _ => exact Program.tracks_pure _

theorem tracks_router_node (v : Stage) (s : RagState) :
    Program.Tracks ((desk.router out.journaled planners.unjournaled).node v s)
      ((desk.router out planners).node v s) := by
  cases v with
  | route =>
    refine Program.Tracks.bind ?_ fun route => Program.tracks_pure _
    refine (Program.tracks_unjournaled _).bind fun route => ?_
    exact Program.Tracks.ite (Program.tracks_throw _) (Program.tracks_pure _)
  | specialist =>
    refine (tracks_field _).bind fun owner => ?_
    exact (tracks_worker desk out _ _).bind fun result => Program.tracks_pure _
  | _ => exact Program.tracks_pure _

theorem tracks_webEnrichment_node (v : Stage) (s : RagState) :
    Program.Tracks ((desk.webEnrichment out.journaled).node v s)
      ((desk.webEnrichment out).node v s) := by
  cases v with
  | retrieve => exact (Program.tracks_journaled _ _).bind fun found => Program.tracks_pure _
  | enrich =>
    refine (tracks_field _).bind fun found => ?_
    exact (tracks_ensure desk out _ _).bind fun refs => Program.tracks_pure _
  | answer =>
    refine (tracks_field _).bind fun refs => ?_
    refine (tracks_generate desk out _ _ _ _).bind fun answer => ?_
    exact (tracks_review desk out _ _ _).bind fun review =>
      (Program.tracks_ofExcept _).bind fun result => Program.tracks_pure _
  | _ => exact Program.tracks_pure _

theorem tracks_graph (a : Architecture) (limit : ℕ) (path : List Stage) (v : Stage)
    (s : RagState) :
    Program.Tracks ((a.graph desk out.journaled planners.unjournaled).run limit path v s)
      ((a.graph desk out planners).run limit path v s) := by
  refine Workflow.tracks_run (fun v s => ?_) ?_ limit path v s
  · cases a with
    | baseline => exact tracks_baseline_node desk out v s
    | adaptive => exact tracks_adaptive_node desk out planners v s
    | sequential => exact tracks_sequential_node desk out v s
    | router => exact tracks_router_node desk out planners v s
    | web => exact tracks_webEnrichment_node desk out v s
  · cases a <;> rfl

end Tracks

end Parts

/-! ### The laws -/

variable {σ : Type}

theorem notes_graph (desk : Desk) (out : Outside σ) (planners : Planners σ) (a : Architecture)
    (question : String) :
    Program.Notes ((a.graph desk out.journaled planners.unjournaled).run recursionLimit [] a.start
      { question }) fun ended journal => Answered a ended journal ∨
        (a = .adaptive ∧ journal = [] ∧ ∃ s text missing, ended = some ([.plan], s) ∧
          s.result = some (.clarification text missing)) := by
  cases a with
  | baseline => exact (notes_baseline desk out question 38).imp fun _ _ => .inl
  | sequential => exact (notes_sequential desk out question 37).imp fun _ _ => .inl
  | router => exact (notes_router desk out planners question 38).imp fun _ _ => .inl
  | web => exact (notes_webEnrichment desk out question 37).imp fun _ _ => .inl
  | adaptive =>
    refine (notes_adaptive desk out planners question (by decide)).imp ?_
    rintro _ journal ⟨path, s, rfl, law⟩
    -- Both kinds of rounds stay within what the architecture is given.
    have reviewed {result : TaskResult} {reviews : List Review} (law : ResultLaw result journal)
        (made : reviewsOf journal = reviews) (some : reviews ≠ []) : result.review ≠ none := by
      rw [law.review, made]
      simpa using some
    cases law with
    | clarified text missing quiet result =>
      exact .inr ⟨rfl, quiet, s, text, missing, rfl, result⟩
    | once result review ended law _ one _ calls searches =>
      refine .inl ⟨_, s, result, rfl, ended, law,
        fun _ => reviewed law one (List.cons_ne_nil _ _), ?_, ?_⟩
      · exact calls.trans (by decide)
      · exact searches.trans (by decide)
    | twice result first last ended law _ two _ calls searches =>
      exact .inl ⟨_, s, result, rfl, ended, law,
        fun _ => reviewed law two (List.cons_ne_nil _ _), calls, searches⟩

/-- **The adaptive graph.** Each run that returns has come to an end within the limit, on one of
three paths. -/
theorem adaptive_law (desk : Desk) (out : Outside σ) (planners : Planners σ) (question : String)
    {s t : σ} {ended : Option (List Stage × RagState)}
    (returned : (desk.adaptive out planners).run recursionLimit [] .plan { question } s =
      (.ok ended, t)) :
    ∃ journal path final, ended = some (path, final) ∧
      (desk.adaptive out.journaled planners.unjournaled).run recursionLimit [] .plan { question }
        (s, []) = (.ok ended, t, journal) ∧ AdaptiveLaw final journal path := by
  obtain ⟨journal, ran, path, final, same, law⟩ :=
    (tracks_graph desk out planners .adaptive _ _ _ _).exists_journal
      (notes_adaptive desk out planners question (by decide)) returned
  exact ⟨journal, path, final, same, ran, law⟩

/-- **Every architecture.** Each run that returns has come to an end within the limit, with an
answer that is grounded in what was found on the way, or with a question back. -/
theorem architecture_law (a : Architecture) (desk : Desk) (out : Outside σ)
    (planners : Planners σ) (question : String) {s t : σ}
    {ended : Option (List Stage × RagState)}
    (returned : (a.graph desk out planners).run recursionLimit [] a.start { question } s =
      (.ok ended, t)) :
    ∃ journal, (a.graph desk out.journaled planners.unjournaled).run recursionLimit [] a.start
        { question } (s, []) = (.ok ended, t, journal) ∧
      (Answered a ended journal ∨
        (a = .adaptive ∧ journal = [] ∧ ∃ final text missing, ended = some ([.plan], final) ∧
          final.result = some (.clarification text missing))) :=
  (tracks_graph desk out planners a _ _ _ _).exists_journal
    (notes_graph desk out planners a question) returned

end Desk

/-! ### A question that takes two rounds -/

/-- The plan has one query. -/
def periodPlanners : Planners ℕ where
  queryPlan _ n := (.ok ⟨.fact, .simple, "기한은?", ["기한"], [], by decide, by decide⟩, n)
  route _ n := (.ok ⟨.policy, ""⟩, n)

/-- The first review misses something and asks to search again; the second one does not. -/
def missesOnce : Outside ℕ where
  action _ _ n := (.ok ⟨.search, "", "", {}⟩, n)
  sufficiency _ n := (.ok ⟨true, [], false, ""⟩, n)
  answer _ _ n := (.ok oneClaim, n)
  review _ n := (.ok ⟨true, [], if n = 0 then ["예외"] else [], "예외"⟩, n + 1)
  retrieve _ n := (.ok [oneQuote], n)
  enrich n := (.ok [], n)

set_option maxRecDepth 20000 in
theorem adaptive_law_period : ∃ final t, (quietDesk.adaptive missesOnce periodPlanners).run
      recursionLimit [] .plan { question := "기한은?" } 0 =
        (.ok (some (.plan :: oneRound ++ .retry :: oneRound, final)), t) ∧
    ∃ journal path last, some (.plan :: oneRound ++ .retry :: oneRound, final) =
        some (path, last) ∧
      (quietDesk.adaptive missesOnce.journaled periodPlanners.unjournaled).run recursionLimit []
        .plan { question := "기한은?" } (0, []) =
          (.ok (some (.plan :: oneRound ++ .retry :: oneRound, final)), t, journal) ∧
      AdaptiveLaw last journal path :=
  ⟨_, _, rfl, Desk.adaptive_law quietDesk missesOnce periodPlanners "기한은?" rfl⟩

set_option maxRecDepth 20000 in
theorem architecture_law_period : ∃ ended t,
    (Architecture.sequential.graph quietDesk searchThenFinish periodPlanners).run recursionLimit []
        .research { question := "기한은?" } 0 = (.ok ended, t) ∧
      ∃ journal, (Architecture.sequential.graph quietDesk searchThenFinish.journaled
          periodPlanners.unjournaled).run recursionLimit [] .research { question := "기한은?" }
          (0, []) = (.ok ended, t, journal) ∧
        (Desk.Answered .sequential ended journal ∨
          (Architecture.sequential = .adaptive ∧ journal = [] ∧ ∃ final text missing,
            ended = some ([.plan], final) ∧
            final.result = some (.clarification text missing))) :=
  ⟨_, _, rfl, Desk.architecture_law .sequential quietDesk searchThenFinish periodPlanners
    "기한은?" rfl⟩

end AgentLabs.Rag
