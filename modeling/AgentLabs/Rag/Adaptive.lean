import AgentLabs.Rag.GraphParts

/-!
# Runs of the adaptive graph

A round retrieves, writes and reviews, and a run has one round or two. What holds where a node is
entered says which round it is and what was asked for so far; every edge of the graph leads on to a
node of a smaller rank.

## Main definitions

* `Desk.AdaptiveAt`: what holds where a node is entered
* `Desk.adaptiveRank`: how many nodes a run may still go through

## Main results

* `Desk.notes_adaptive`: every run comes to its end, on one of three paths
-/

namespace AgentLabs.Rag

open Math Text

namespace Desk

section Adaptive

variable {σ : Type} (desk : Desk) (out : Outside σ) (planners : Planners σ)

theorem notes_adaptivePlan (s : RagState) :
    Program.Notes (desk.adaptivePlan planners.unjournaled s) fun after more => more = [] ∧
      ((∃ text missing, after = { s with
          result := some (.clarification text missing), plan := [] }) ∨
        ∃ p, after = { s with plan := [p], revision := 0 }) := by
  refine (Program.notes_unjournaled _).bind fun p x quiet => ?_
  subst quiet
  refine Program.Logs.ite (fun _ => Program.logs_pure ⟨rfl, .inl ⟨_, _, rfl⟩⟩) fun _ => ?_
  exact Program.logs_pure ⟨rfl, .inr ⟨p, rfl⟩⟩

/-- The searches of a round: those of the plan and one more, or one and one more. -/
def roundSearches (revision : ℕ) : ℕ := if revision = 0 then 4 else 2

theorem notes_roundQueries (s : RagState) (p : QueryPlan) :
    Program.Notes (roundQueries s p : Program (σ × List Happening) WorkerError _)
      fun queries more => more = [] ∧ queries.length + 1 ≤ roundSearches s.revision := by
  unfold roundSearches
  refine Program.Logs.ite (fun first => Program.logs_pure ⟨rfl, ?_⟩) fun later => ?_
  · rw [if_pos first]
    exact Nat.succ_le_succ p.few_queries
  · refine (notes_field s.review).bind fun review x ⟨quiet, _⟩ => ?_
    subst quiet
    refine Program.logs_pure ⟨rfl, ?_⟩
    rw [if_neg later]
    exact le_rfl

/-- The evidence at hand: it was found, and nothing that was found is lost. -/
structure AtHand (refs : List Evidence) (journal : List Happening) : Prop where
  held : ∀ e ∈ refs, e ∈ collected journal
  kept : KeepsFound refs journal

theorem AtHand.quiet {refs : List Evidence} {x y : List Happening} (h : AtHand refs x)
    (nothing : collected y = []) : AtHand refs (x ++ y) := by
  have same : collected (x ++ y) = collected x := by rw [collected_append, nothing, List.append_nil]
  exact ⟨same.symm ▸ h.held, fun e found => h.kept e (same ▸ found)⟩

theorem notes_adaptiveRetrieve (s : RagState) {before : List Happening}
    (hand : AtHand (s.evidence.getD []) before) :
    Program.Notes (desk.adaptiveRetrieve out.journaled s) fun after more =>
      modelCalls more ≤ 1 ∧ retrievals more ≤ roundSearches s.revision ∧ reviewsOf more = [] ∧
        ∃ refs, after = { s with evidence := some refs } ∧ AtHand refs (before ++ more) := by
  refine (notes_field s.plan.head?).bind fun p x ⟨quiet, _⟩ => ?_
  subst quiet
  refine (notes_roundQueries s p).bind fun queries x ⟨quiet, few⟩ => ?_
  subst quiet
  refine (notes_retrieveEach out queries).bind fun found x ⟨all, calls, searches, reviews⟩ => ?_
  refine (notes_ensure desk out _ p.standaloneQuestion).bind fun refs y ensured =>
    Program.logs_pure ?_
  have calls' := ensured.calls
  have searches' := ensured.searches
  simp only [List.nil_append, List.append_nil, modelCalls_append, retrievals_append,
    reviewsOf_append, reviews, ensured.reviews]
  refine ⟨by omega, by omega, trivial, refs, rfl, fun e listed => ?_, fun e listed => ?_⟩
  · -- What is held was held before, was found now, or came with the enrichment.
    rw [collected_append, collected_append, all]
    rcases List.mem_append.mp (ensured.held e listed) with merged | enriched
    · rcases List.mem_append.mp (mem_of_mem_distinctEvidence merged) with old | new
      · exact List.mem_append_left _ (hand.held e old)
      · exact List.mem_append_right _ (List.mem_append_left _ new)
    · exact List.mem_append_right _ (List.mem_append_right _ enriched)
  · rw [collected_append, collected_append, all] at listed
    have merges (e : Evidence) (held : e ∈ s.evidence.getD [] ++ found) :
        ∃ e' ∈ refs, e'.evidenceId = e.evidenceId := by
      obtain ⟨e', merged, same⟩ := exists_mem_distinctEvidence held
      obtain ⟨e'', last, same'⟩ := ensured.kept e' (List.mem_append_left _ merged)
      exact ⟨e'', last, same'.trans same⟩
    rcases List.mem_append.mp listed with old | now
    · obtain ⟨e', held, same⟩ := hand.kept e old
      obtain ⟨e'', last, same'⟩ := merges e' (List.mem_append_left _ held)
      exact ⟨e'', last, same'.trans same⟩
    · rcases List.mem_append.mp now with found | enriched
      · exact merges e (List.mem_append_right _ found)
      · exact ensured.kept e (List.mem_append_right _ enriched)

theorem notes_adaptiveAnswer (s : RagState) :
    Program.Notes (desk.adaptiveAnswer out.journaled s) fun after more =>
      (modelCalls more ≤ 1 ∧ retrievals more = 0 ∧ reviewsOf more = [] ∧ collected more = []) ∧
        ∃ draft, after = { s with draft := some draft } := by
  refine (notes_field s.evidence).bind fun refs x ⟨quiet, _⟩ => ?_
  subst quiet
  refine (notes_field s.plan.head?).bind fun p x ⟨quiet, _⟩ => ?_
  subst quiet
  refine (notes_generate desk out refs _ .writer []).bind fun draft x written => ?_
  refine Program.logs_pure ?_
  rw [List.append_nil]
  exact ⟨written_law written, draft, rfl⟩

theorem notes_adaptiveReview (s : RagState) :
    Program.Notes (desk.adaptiveReview out.journaled s) fun after more =>
      ∃ refs review result, s.evidence = some refs ∧ more = [.reviewed review] ∧
        result.FinishedOf refs (some review) ∧
        after = { s with review := some review, result := some (.finished result) } := by
  refine (notes_field s.evidence).bind fun refs x ⟨quiet, held⟩ => ?_
  subst quiet
  refine (notes_field s.draft).bind fun draft x ⟨quiet, _⟩ => ?_
  subst quiet
  refine (notes_field s.plan.head?).bind fun p x ⟨quiet, _⟩ => ?_
  subst quiet
  refine (notes_review desk out draft refs _).bind fun review x reviewed => ?_
  subst reviewed
  refine (notes_finish draft refs (some review)).bind fun result x ⟨quiet, finished⟩ => ?_
  subst quiet
  exact Program.logs_pure ⟨refs, review, result, held, rfl, finished, rfl⟩

/-- The path up to a round. -/
def pathTo : ℕ → List Stage
  | 0 => [.plan]
  | _ + 1 => .plan :: oneRound ++ [.retry]

/-- What holds within a round: the path, the costs so far, the reviews so far, and the evidence. -/
structure Round (path done : List Stage) (calls searches : ℕ) (s : RagState)
    (journal : List Happening) : Prop where
  few : s.revision ≤ 1
  path : path = pathTo s.revision ++ done
  planned : s.plan ≠ []
  calls : modelCalls journal ≤ 3 * s.revision + calls
  searches : retrievals journal ≤ searches
  first : s.revision = 0 → reviewsOf journal = []
  second : s.revision ≠ 0 → ∃ review, reviewsOf journal = [review] ∧ review.retryQuery ≠ ""
  hand : AtHand (s.evidence.getD []) journal

/-- A node that makes no review leaves a round that goes on. -/
theorem Round.goesOn {path done : List Stage} {calls searches searches' : ℕ} {s after : RagState}
    {journal more : List Happening} (round : Round path done calls searches s journal) (v : Stage)
    (revision : after.revision = s.revision) (plan : after.plan = s.plan)
    (asked : modelCalls more ≤ 1) (searched : searches + retrievals more ≤ searches')
    (noReview : reviewsOf more = [])
    (hand : AtHand (after.evidence.getD []) (journal ++ more)) :
    Round (path ++ [v]) (done ++ [v]) (calls + 1) searches' after (journal ++ more) := by
  have before := round.calls
  have before' := round.searches
  have reviews : reviewsOf (journal ++ more) = reviewsOf journal := by
    rw [reviewsOf_append, noReview, List.append_nil]
  constructor
  · exact revision ▸ round.few
  · rw [round.path, revision, List.append_assoc]
  · exact plan ▸ round.planned
  · rw [modelCalls_append, revision]
    omega
  · rw [retrievals_append]
    omega
  · exact fun zero => reviews.trans (round.first (revision ▸ zero))
  · exact fun later => reviews ▸ round.second (revision ▸ later)
  · exact hand

/-- What holds where a node of the adaptive graph is entered. -/
def AdaptiveAt (path : List Stage) (v : Stage) (s : RagState) (journal : List Happening) : Prop :=
  match v with
  | .plan => path = [] ∧ journal = [] ∧ s.evidence = none
  | .retrieve => Round path [] 0 (4 * s.revision) s journal
  | .answer => Round path [.retrieve] 1 (4 + 2 * s.revision) s journal
  | .review => Round path [.retrieve, .answer] 2 (4 + 2 * s.revision) s journal
  | .retry => s.revision = 0 ∧ path = .plan :: oneRound ∧ s.plan ≠ [] ∧ modelCalls journal ≤ 3 ∧
      retrievals journal ≤ 4 ∧ AtHand (s.evidence.getD []) journal ∧
      ∃ review, reviewsOf journal = [review] ∧ review.retryQuery ≠ ""
  | _ => False

/-- How many nodes a run may still go through, at most. -/
def adaptiveRank : Stage → RagState → ℕ
  | .plan, _ => 11
  | .retrieve, s => 10 - 5 * s.revision
  | .answer, s => 9 - 5 * s.revision
  | .review, s => 8 - 5 * s.revision
  | .retry, s => 7 - 5 * s.revision
  | _, _ => 0

/-- What the review node leaves, on either edge. -/
theorem advances_review {path : List Stage} {s after : RagState} {journal more : List Happening}
    {refs : List Evidence} {review : Review} {result : TaskResult}
    (round : Round path [.retrieve, .answer] 2 (4 + 2 * s.revision) s journal)
    (held : s.evidence = some refs) (noted : more = [.reviewed review])
    (finished : result.FinishedOf refs (some review))
    (ended : after = { s with review := some review, result := some (.finished result) }) :
    Workflow.Advances (desk.adaptive out.journaled planners.unjournaled) AdaptiveAt
      (fun path s journal => AdaptiveLaw s journal path) path (adaptiveRank .review s) adaptiveRank
      .review after (journal ++ more) := by
  subst noted ended
  have one : modelCalls [Happening.reviewed review] = 1 ∧
      retrievals [Happening.reviewed review] = 0 := ⟨rfl, rfl⟩
  have calls := round.calls
  have searches := round.searches
  have few := round.few
  have hand : AtHand refs (journal ++ [.reviewed review]) := by
    have now := round.hand
    rw [held, Option.getD_some] at now
    exact now.quiet rfl
  have law (reviews : (reviewsOf (journal ++ [.reviewed review])).getLast? = some review) :
      ResultLaw result (journal ++ [.reviewed review]) :=
    finished.law hand.held reviews.symm
  have kept : KeepsFound result.evidence (journal ++ [.reviewed review]) :=
    finished.same_evidence ▸ hand.kept
  have reviewed : reviewsOf (journal ++ [.reviewed review]) = reviewsOf journal ++ [review] := by
    rw [reviewsOf_append]
    rfl
  constructor
  · intro stops
    change (if retries _ then some Stage.retry else none) = none at stops
    obtain again | again := Nat.le_one_iff_eq_zero_or_eq_one.mp few
    · -- After the first round: there is nothing open, or no query to go on with.
      have none := round.first again
      rw [none, List.nil_append] at reviewed
      rw [round.path, again]
      refine .once result review rfl (law (by rw [reviewed]; rfl)) kept reviewed ?_ ?_ ?_
      · by_contra opened
        obtain ⟨uncertain, query⟩ := not_or.mp opened
        rw [if_pos] at stops
        · cases stops
        · simp [retries, Outcome.isComplete, uncertain, query, again]
      · rw [modelCalls_append]
        omega
      · rw [retrievals_append]
        omega
    -- After the second round, whatever the review says.
    · obtain ⟨first, only, query⟩ := round.second (again ▸ one_ne_zero)
      rw [only] at reviewed
      rw [round.path, again]
      refine .twice result first review rfl (law (by rw [reviewed]; rfl)) kept reviewed query ?_ ?_
      · rw [modelCalls_append]
        omega
      · rw [retrievals_append]
        omega
  · intro u goes
    change (if retries _ then some Stage.retry else none) = some u at goes
    split_ifs at goes with again
    obtain rfl := Option.some.inj goes
    -- It goes on only after the first round, and with a query.
    simp only [retries, Outcome.isComplete, Bool.decide_and, Bool.and_eq_true, decide_eq_true_eq,
      Nat.lt_one_iff, Option.any_some, ne_eq] at again
    obtain ⟨-, zero, query⟩ := again
    have none := round.first zero
    rw [none, List.nil_append] at reviewed
    refine ⟨⟨zero, ?_, round.planned, ?_, ?_, ?_, review, reviewed, ?_⟩, ?_⟩
    · rw [round.path, zero]
      rfl
    · rw [modelCalls_append]
      omega
    · rw [retrievals_append]
      omega
    · rw [held, Option.getD_some]
      exact hand
    · simpa using query
    · change 7 - 5 * s.revision < 8 - 5 * s.revision
      omega

/-- One node of the adaptive graph. -/
theorem notes_adaptive_node (path : List Stage) (v : Stage) (s : RagState)
    (journal : List Happening) (at_node : AdaptiveAt path v s journal) :
    Program.Notes ((desk.adaptive out.journaled planners.unjournaled).node v s) fun after more =>
      Workflow.Advances (desk.adaptive out.journaled planners.unjournaled) AdaptiveAt
        (fun path s journal => AdaptiveLaw s journal path) path (adaptiveRank v s) adaptiveRank v
        after (journal ++ more) := by
  cases v with
  | plan =>
    obtain ⟨rfl, rfl, fresh⟩ := at_node
    refine (notes_adaptivePlan desk planners s).imp fun after more ⟨quiet, planned⟩ => ?_
    subst quiet
    rcases planned with ⟨text, missing, rfl⟩ | ⟨p, rfl⟩
    · exact ⟨fun _ => .clarified text missing rfl rfl, nofun⟩
    · refine ⟨nofun, fun u goes => ?_⟩
      obtain rfl := Option.some.inj goes
      have hand : AtHand (s.evidence.getD []) [] := by
        rw [fresh]
        exact ⟨nofun, nofun⟩
      exact ⟨⟨Nat.zero_le _, rfl, List.cons_ne_nil _ _, le_rfl, le_rfl, fun _ => rfl,
        fun later => absurd rfl later, hand⟩, Nat.lt_succ_self 10⟩
  | retrieve =>
    refine (notes_adaptiveRetrieve desk out s at_node.hand).imp
      fun after more ⟨asked, searched, noReview, refs, ended, hand⟩ => ⟨nofun, fun u goes => ?_⟩
    subst ended
    obtain rfl := Option.some.inj goes
    -- The first round searches up to four times, a retry up to two.
    have within : 4 * s.revision + retrievals more ≤ 4 + 2 * s.revision := by
      have few := at_node.few
      unfold roundSearches at searched
      split_ifs at searched <;> omega
    refine ⟨at_node.goesOn .retrieve rfl rfl asked within noReview hand, ?_⟩
    have few := at_node.few
    -- The rank falls along a round, and the next round begins five below this one.
    change 9 - 5 * s.revision < 10 - 5 * s.revision
    omega
  | answer =>
    refine (notes_adaptiveAnswer desk out s).imp
      fun after more ⟨⟨asked, searched, noReview, nothing⟩, draft, ended⟩ =>
        ⟨nofun, fun u goes => ?_⟩
    subst ended
    obtain rfl := Option.some.inj goes
    have within : 4 + 2 * s.revision + retrievals more ≤ 4 + 2 * s.revision := by
      rw [searched, Nat.add_zero]
    refine ⟨at_node.goesOn .answer rfl rfl asked within noReview (at_node.hand.quiet nothing), ?_⟩
    have few := at_node.few
    change 8 - 5 * s.revision < 9 - 5 * s.revision
    omega
  | review =>
    refine (notes_adaptiveReview desk out s).imp fun after more reviewed => ?_
    obtain ⟨refs, review, result, held, noted, finished, ended⟩ := reviewed
    exact advances_review desk out planners at_node held noted finished ended
  | retry =>
    obtain ⟨zero, rfl, planned, calls, searches, hand, review, reviewed, query⟩ := at_node
    refine Program.logs_pure ⟨nofun, fun u goes => ?_⟩
    obtain rfl := Option.some.inj goes
    rw [List.append_nil]
    refine ⟨⟨?_, ?_, planned, ?_, ?_, fun none => ?_, fun _ => ⟨review, reviewed, query⟩, hand⟩, ?_⟩
    · exact Nat.succ_le_succ zero.le
    · rw [zero]
      rfl
    · rw [zero]
      exact calls
    · rw [zero]
      exact searches
    · exact absurd none (Nat.succ_ne_zero _)
    · change 10 - 5 * (s.revision + 1) < 7 - 5 * s.revision
      omega
  -- No edge of this graph leads to the nodes of the others.
  | research => exact at_node.elim
  | write => exact at_node.elim
  | verify => exact at_node.elim
  | route => exact at_node.elim
  | specialist => exact at_node.elim
  | enrich => exact at_node.elim

/-- A run of the adaptive graph comes to its end within the limit. -/
theorem notes_adaptive (question : String) {limit : ℕ} (room : 11 < limit) :
    Program.Notes ((desk.adaptive out.journaled planners.unjournaled).run limit [] .plan
      { question }) fun ended journal =>
        ∃ path s, ended = some (path, s) ∧ AdaptiveLaw s journal path := by
  have start : AdaptiveAt [] .plan { question } [] := ⟨rfl, rfl, rfl⟩
  exact Workflow.notes_run (notes_adaptive_node desk out planners) room start

end Adaptive

end Desk

end AgentLabs.Rag
