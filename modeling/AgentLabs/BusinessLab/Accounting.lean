import AgentLabs.BusinessLab.Gate
import Mathlib.Data.List.Perm.Basic
import Mathlib.Tactic.GCongr
import Mathlib.Tactic.Positivity

/-!
# The accounts of a comparison

A comparison counts the planned runs of a release three times: by status, by case and by slice. A
run without a row is planned all the same. So the three counts come to the same totals, and where
each scenario has as many runs as the others, the share of runs that pass is between the share of
cases that always pass and of those that pass at all.

The rows are looked up by their keys. In what order they are reported makes no difference.

## Main definitions

* `Summary.Accounted`: the counts of a summary come to its totals
* `Summary.RatesOrdered`: the rates of a summary in their order
* `SameOutcome`: two comparisons say the same

## Main results

* `accounted_summary`: the counts of any report come to its totals
* `compare_perm`: the order of the rows makes no difference
* `compare_accounts`: both together
-/

namespace AgentLabs.BusinessLab

open Math Text

/-- Each scenario of the release has so many planned runs. -/
def Report.Even (report : Report) (release : String) (trials : ℕ) : Prop :=
  ∀ p ∈ report.plan, p.release = release →
    (report.plan.countP fun q => q.release = release ∧ q.scenarioId = p.scenarioId) = trials

/-- Cases that always pass are rarer than runs that pass, and these than cases that pass at all. -/
def Summary.RatesOrdered (s : Summary) : Prop :=
  s.planned ≠ 0 → ∃ always rate once, s.passAllK = some always ∧ s.passRate = some rate ∧
    s.passAtK = some once ∧ always ≤ rate ∧ rate ≤ once

/-- The counts of a summary come to its totals. -/
structure Summary.Accounted (report : Report) (release : String) (s : Summary) : Prop where
  planned : s.planned = report.plan.countP fun p => p.release = release
  statuses : (s.statuses.map Prod.snd).sum = s.planned
  casesPlanned : (s.cases.map fun entry => entry.2.planned).sum = s.planned
  casesPassed : (s.cases.map fun entry => entry.2.passed).sum = s.passed
  slicesPlanned : (s.slices.map fun entry => entry.2.2).sum = s.planned
  slicesPassed : (s.slices.map fun entry => entry.2.1).sum = s.passed
  rates : ∀ trials, report.Even release trials → s.RatesOrdered

/-- Two comparisons count the same and decide the same. -/
structure SameOutcome (c c' : Comparison) : Prop where
  baseline : c'.baseline = c.baseline
  candidate : c'.candidate = c.candidate
  pairs : c'.pairs = c.pairs
  decision : c'.decision = c.decision
  decisionReasons : c'.decisionReasons = c.decisionReasons

variable {report : Report} {release : String} {rows rows' : List Row} {planned : List RunKey}

/-! ### Totals -/

section Totals

variable {status : Planned → RunStatus} {plan : List Planned}

theorem total_length_casesOf (status : Planned → RunStatus) (plan : List Planned) :
    Dict.total List.length (casesOf status plan) = plan.length := by
  rw [casesOf, Dict.total_length_group, List.length_map]

theorem total_passed_casesOf (status : Planned → RunStatus) (plan : List Planned) :
    Dict.total (List.countP Prod.fst) (casesOf status plan) = (plan.map status).count .pass := by
  rw [casesOf, Dict.total_countP_group, List.map_map, List.countP_map, List.count, List.countP_map]
  rfl

/-- The runs of a case are those planned for its scenario. -/
theorem length_of_mem_casesOf {sid : String} {runs : List (Bool × Bool)}
    (listed : (sid, runs) ∈ casesOf status plan) :
    (∃ p ∈ plan, p.scenarioId = sid) ∧ runs.length = plan.countP fun p => p.scenarioId = sid := by
  obtain ⟨scheduled, rfl⟩ := Dict.mem_group_iff.mp listed
  constructor
  · simpa using scheduled
  · rw [Dict.valuesOf, List.length_map, List.filter_map, List.length_map,
      List.countP_eq_length_filter]
    rfl

/-- Runs are as many as cases, each of them so many times. -/
theorem length_eq_mul {trials : ℕ}
    (even : ∀ entry ∈ casesOf status plan, entry.2.length = trials) :
    plan.length = (casesOf status plan).length * trials := by
  rw [← total_length_casesOf status plan, Dict.total]
  have same : (casesOf status plan).map (fun entry => entry.2.length) =
      List.replicate (casesOf status plan).length trials := by
    rw [List.eq_replicate_iff]
    refine ⟨List.length_map _, fun n listed => ?_⟩
    obtain ⟨entry, member, rfl⟩ := List.mem_map.mp listed
    exact even entry member
  rw [same, List.sum_replicate, nsmul_eq_mul, Nat.cast_id]

/-- **The bounds on the runs that pass**, from the cases that always pass and those that pass at
all. -/
theorem passed_bounds {trials : ℕ} (even : ∀ entry ∈ casesOf status plan, entry.2.length = trials) :
    ((casesOf status plan).countP fun entry => entry.2.all Prod.fst) * trials ≤
      (plan.map status).count .pass ∧
      (plan.map status).count .pass ≤
        ((casesOf status plan).countP fun entry => entry.2.any Prod.fst) * trials := by
  rw [← total_passed_casesOf]
  constructor
  · apply Dict.countP_mul_le_total fun runs : List (Bool × Bool) => runs.all Prod.fst
    intro entry member all
    have passes : entry.2.countP Prod.fst = entry.2.length :=
      List.countP_eq_length.mpr (List.all_eq_true.mp all)
    rw [passes, even entry member]
  · apply Dict.total_le_countP_mul fun runs : List (Bool × Bool) => runs.any Prod.fst
    intro entry member
    split_ifs with once
    · rw [← even entry member]
      exact List.countP_le_length
    · have never : entry.2.countP Prod.fst = 0 := by
        rw [List.countP_eq_zero]
        exact fun run counted passes => once (List.any_eq_true.mpr ⟨run, counted, passes⟩)
      exact never.le

end Totals

section Summaries

variable {mode : Mode} {found : Dict RunKey Row} {plan : List Planned}

theorem planned_summarize : (summarize mode found plan release).planned =
    plan.countP fun p => p.release = release := List.countP_eq_length_filter.symm

/-- A share of the cases is the share of their runs. -/
theorem share_eq {cases trials total : ℕ} (runs : total ≠ 0) (product : total = cases * trials)
    (n : ℕ) :
    (n : ℚ) / cases = (n * trials : ℕ) / total := by
  have each : (trials : ℚ) ≠ 0 := by
    rintro zero
    apply runs
    rw [product, Nat.cast_eq_zero.mp zero, Nat.mul_zero]
  rw [product, Nat.cast_mul, Nat.cast_mul, mul_div_mul_right _ _ each]

/-- **The rates of a summary are in their order**, if each scenario has as many runs as the
others. -/
theorem ratesOrdered_summarize {trials : ℕ}
    (even : ∀ entry ∈ casesOf (plannedStatus mode found) (plan.filter fun p => p.release = release),
      entry.2.length = trials) : (summarize mode found plan release).RatesOrdered := by
  intro runs
  have runs : (plan.filter fun p => p.release = release).length ≠ 0 := runs
  have product := length_eq_mul even
  have cases : (casesOf (plannedStatus mode found)
    (plan.filter fun p => p.release = release)).length ≠ 0 := by
    intro none
    apply runs
    rw [product, none, Nat.zero_mul]
  obtain ⟨least, most⟩ := passed_bounds even
  simp only [summarize, Dict.getD_tally, ratio]
  rw [if_neg cases, if_neg runs, if_neg cases]
  refine ⟨_, _, _, rfl, rfl, rfl, ?_, ?_⟩
  · rw [share_eq runs product]
    gcongr
  · rw [share_eq runs product]
    gcongr

/-- The counts of a summary come to its totals. -/
theorem accounted_summary (report : Report) (release : String) :
    (report.summary release).Accounted report release where
  planned := planned_summarize
  statuses := by
    have counts := Dict.total_tally ((report.plan.filter fun p => p.release = release).map
      (plannedStatus report.mode report.found))
    rw [List.length_map] at counts
    exact counts
  casesPlanned := by
    have runs := total_length_casesOf (plannedStatus report.mode report.found)
      (report.plan.filter fun p => p.release = release)
    simp only [summarize, List.map_map]
    exact runs
  casesPassed := by
    have passes := total_passed_casesOf (plannedStatus report.mode report.found)
      (report.plan.filter fun p => p.release = release)
    simp only [summarize, List.map_map, Dict.getD_tally]
    exact passes
  slicesPlanned := by
    simp only [summarize, List.map_map]
    refine (Dict.total_length_group _).trans ?_
    rw [List.length_map]
  slicesPassed := by
    simp only [summarize, List.map_map, Dict.getD_tally]
    refine (Dict.total_countP_group id _).trans ?_
    rw [List.map_map, List.countP_map, List.count, List.countP_map]
    rfl
  rates trials even := by
    -- A plan with as many trials for each scenario gives groups of one size.
    have each : ∀ entry ∈ casesOf (plannedStatus report.mode report.found)
        (report.plan.filter fun p => p.release = release), entry.2.length = trials := by
      rintro ⟨sid, runs⟩ listed
      obtain ⟨⟨p, member, rfl⟩, length⟩ := length_of_mem_casesOf listed
      obtain ⟨member, own⟩ := List.mem_filter.mp member
      rw [length, ← even p member (of_decide_eq_true own), List.countP_filter]
      simp only [Bool.decide_and, Bool.and_comm]
    exact ratesOrdered_summarize each

end Summaries

/-! ### The order of the rows -/

section Order

variable {mode : Mode} {found found' : Dict RunKey Row} {plan : List Planned}

/-- Rows with distinct keys are found under the same keys in any order. -/
theorem get?_collectRows_perm (perm : rows'.Perm rows)
    (distinct : (rows.map fun row => row.artifact.key).Nodup) (k : RunKey) :
    (collectRows planned rows').1.get? k = (collectRows planned rows).1.get? k := by
  have distinct' : (rows'.map fun row => row.artifact.key).Nodup :=
    (perm.map _).nodup_iff.mpr distinct
  ext row
  rw [get?_collectRows distinct', get?_collectRows distinct, perm.mem_iff]

/-- A summary reads the rows by their keys only. -/
theorem summarize_congr (same : ∀ k, found'.get? k = found.get? k) :
    summarize mode found' plan release = summarize mode found plan release := by
  have status : plannedStatus mode found' = plannedStatus mode found := by
    funext p
    rw [plannedStatus, plannedStatus, same]
  have rows : (fun p : Planned => found'.get? p.key) = fun p : Planned => found.get? p.key := by
    funext p
    exact same p.key
  rw [summarize, summarize, status, rows]

theorem misplaced_perm (perm : rows'.Perm rows) : (collectRows planned rows').2 = [] ↔
    (collectRows planned rows).2 = [] := by
  rw [collectRows_snd_eq_nil_iff, collectRows_snd_eq_nil_iff, (perm.map _).nodup_iff]
  apply and_congr_right
  intro _
  exact forall_congr' fun row => imp_congr_left perm.mem_iff

theorem gateFailures_perm (perm : rows'.Perm rows) :
    gateFailures rows' = [] ↔ gateFailures rows = [] := by
  have failures : (gateFailures rows').Perm (gateFailures rows) := (perm.filter _).flatMap_right _
  rw [← List.length_eq_zero_iff, failures.length_eq, List.length_eq_zero_iff]

theorem decisionReasons_perm (planned : List RunKey) (baseline candidate : Summary)
    (pairs : List Pair) (perm : rows'.Perm report.rows) :
    decisionReasons { report with rows := rows' } (collectRows planned rows').2 baseline
      candidate pairs =
      decisionReasons report (collectRows planned report.rows).2 baseline candidate pairs := by
  have misplaced : (collectRows planned rows').2 = [] ↔ (collectRows planned report.rows).2 = [] :=
    misplaced_perm perm
  have failures := gateFailures_perm perm
  simp only [decisionReasons, ne_eq, misplaced, failures]

end Order

/-- The candidate runs what the baseline runs, so there is a comparison. -/
theorem exists_compare (samples : List ℚ → List (List ℚ))
    (same : ∀ sid, (∃ p ∈ report.plan, p.release = "baseline" ∧ p.scenarioId = sid) ↔
      ∃ p ∈ report.plan, p.release = "candidate" ∧ p.scenarioId = sid) :
    ∃ c, compare samples report = .ok c := by
  have covered : ∀ sid ∈ (report.summary "baseline").cases.keys,
      sid ∈ (report.summary "candidate").cases.keys := by
    intro sid listed
    rw [mem_keys_cases_iff] at listed ⊢
    exact (same sid).mp listed
  obtain ⟨pairs, compared, -⟩ := comparePairs_ok covered
  rw [compare, compared]
  exact ⟨_, rfl⟩

/-- **The order of the rows makes no difference**, if their keys are distinct. -/
theorem compare_perm {samples : List ℚ → List (List ℚ)} {c : Comparison}
    (perm : rows'.Perm report.rows) (distinct : (report.rows.map fun row => row.artifact.key).Nodup)
    (compared : compare samples report = .ok c) :
    ∃ c', compare samples { report with rows := rows' } = .ok c' ∧ SameOutcome c c' := by
  -- The summaries read the rows by their keys alone.
  have summary : ∀ release,
      summarize report.mode (collectRows (report.plan.map Planned.key) rows').1 report.plan
      release = report.summary release := fun release =>
    summarize_congr (get?_collectRows_perm perm distinct)
  unfold compare at compared ⊢
  dsimp only at compared ⊢
  rw [summary "baseline", summary "candidate"]
  cases found : comparePairs (report.summary "baseline").cases
    (report.summary "candidate").cases with
  | error e =>
    rw [found] at compared
    cases compared
  | ok pairs =>
    rw [found] at compared
    cases compared
    have reasons := decisionReasons_perm (report.plan.map Planned.key) (report.summary "baseline")
      (report.summary "candidate") pairs perm
    refine ⟨_, rfl, rfl, rfl, rfl, ?_, reasons⟩
    dsimp only
    rw [reasons]

theorem summaries_of_compare {samples : List ℚ → List (List ℚ)} {c : Comparison}
    (compared : compare samples report = .ok c) :
    c.baseline = report.summary "baseline" ∧ c.candidate = report.summary "candidate" := by
  unfold compare at compared
  dsimp only at compared
  cases found : comparePairs (report.summary "baseline").cases
    (report.summary "candidate").cases with
  | error e =>
    rw [found] at compared
    cases compared
  | ok pairs =>
    rw [found] at compared
    cases compared
    exact ⟨rfl, rfl⟩

/-- **The accounts of a comparison.** If both releases run the same scenarios, there is a
comparison, its counts come to its totals, and it does not depend on the order of the rows. -/
theorem compare_accounts (samples : List ℚ → List (List ℚ)) (report : Report)
    (same : ∀ sid, (∃ p ∈ report.plan, p.release = "baseline" ∧ p.scenarioId = sid) ↔
      ∃ p ∈ report.plan, p.release = "candidate" ∧ p.scenarioId = sid) :
    ∃ c, compare samples report = .ok c ∧ c.baseline.Accounted report "baseline" ∧
      c.candidate.Accounted report "candidate" ∧
      ∀ rows', rows'.Perm report.rows → (report.rows.map fun row => row.artifact.key).Nodup →
        ∃ c', compare samples { report with rows := rows' } = .ok c' ∧ SameOutcome c c' := by
  obtain ⟨c, compared⟩ := exists_compare samples same
  obtain ⟨baseline, candidate⟩ := summaries_of_compare compared
  refine ⟨c, compared, ?_, ?_, fun rows' perm distinct => compare_perm perm distinct compared⟩
  · rw [baseline]
    exact accounted_summary report "baseline"
  · rw [candidate]
    exact accounted_summary report "candidate"

theorem compare_accounts_improvedReport :
    ∃ c, compare (fun _ => []) improvedReport = .ok c ∧ (c.baseline.statuses.map Prod.snd).sum =
      c.baseline.planned ∧
      c.candidate.RatesOrdered ∧ ∃ c', compare (fun _ => [])
        { improvedReport with rows := improvedReport.rows.reverse } = .ok c' ∧
        SameOutcome c c' := by
  have same : ∀ sid,
      (∃ p ∈ improvedReport.plan, p.release = "baseline" ∧ p.scenarioId = sid) ↔
      ∃ p ∈ improvedReport.plan, p.release = "candidate" ∧ p.scenarioId = sid := fun sid => by
    simp [improvedReport]
  have even : improvedReport.Even "candidate" 1 := by
    unfold Report.Even
    decide
  obtain ⟨c, compared, baseline, candidate, perm⟩ :=
    compare_accounts (fun _ => []) improvedReport same
  exact ⟨c, compared, baseline.statuses, candidate.rates 1 even,
    perm _ (List.reverse_perm _) (by decide)⟩

end AgentLabs.BusinessLab
