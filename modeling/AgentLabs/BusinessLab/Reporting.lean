import AgentLabs.BusinessLab.Scripted
import AgentLabs.Math.Grouping
import Mathlib.Data.Rat.Floor
import Mathlib.Data.List.Sort

/-!
# The comparison of two releases

The rows of a report are matched with the runs that were planned, each planned run gets a
status, and the two releases are compared case by case. The decision collects every
reason to hold; only without any is the candidate ready for a human.

Amounts, rates, times and their quantiles are rational numbers where the program has floats, so
that no result is rounded.

## Main definitions

* `Row.statusOf`, `plannedStatus`: the status of a row, and of a planned run
* `summarize`: the summary of a release
* `comparePairs`: the cases of the two releases, side by side
* `compare`: the comparison and its decision
-/

namespace AgentLabs.BusinessLab

open Math Text

/-- How a report was made. -/
inductive Mode where
  | live
  | scripted
  deriving DecidableEq, Repr

/-- What names a run: the release, the scenario and the trial. -/
abbrev RunKey := String × String × ℕ

/-- A planned run. -/
structure Planned where
  scenarioId : String
  release : String
  trial : ℕ
  slice : String
  deriving DecidableEq, Repr

/-- A row of a report: an artifact, with what was measured of it, and its verdicts. -/
structure Row where
  artifact : Artifact
  modelCalls : ℕ
  costUsd : Option ℚ
  elapsedSeconds : ℚ
  verdicts : List Verdict

/-- `key`, of a planned run. -/
def Planned.key (p : Planned) : RunKey := (p.release, p.scenarioId, p.trial)

/-- `key`, of an artifact. -/
def Artifact.key (artifact : Artifact) : RunKey :=
  (artifact.release, artifact.scenarioId, artifact.trial)

/-- A report, as far as it is compared. -/
structure Report where
  mode : Mode
  plan : List Planned
  rows : List Row

/-! ### Statuses -/

/-- The statuses of a planned run. -/
inductive RunStatus where
  | missing
  | executionError
  | infraError
  | evaluatorError
  | insufficientEvidence
  | fail
  | pass
  deriving DecidableEq, Repr

/-- The run was judged. -/
def RunStatus.Valid (status : RunStatus) : Prop := status = .pass ∨ status = .fail

instance (status : RunStatus) : Decidable status.Valid := inferInstanceAs (Decidable (_ ∨ _))

/-- `required`: the checks that every judged run has. -/
def requiredVerdicts : List String :=
  ["outcome", "side_effects", "policy", "recovery", "response_contract"]

/-- `status_of`. -/
def Row.statusOf : Option Row → RunStatus
  | none => .missing
  | some row =>
    match row.artifact.executionStatus with
    | .executionError => .executionError
    | .infraError => .infraError
    | .completed =>
      let statuses := row.verdicts.map Verdict.status
      if .evaluatorError ∈ statuses then .evaluatorError
      else if ¬ requiredVerdicts ⊆ row.verdicts.map Verdict.name then .insufficientEvidence
      else if .insufficientEvidence ∈ statuses then .insufficientEvidence
      else if .fail ∈ statuses then .fail
      else .pass

/-- The rows by their keys, and the keys of the rows that are repeated or unplanned. A
later row takes the place of an earlier one. -/
def collectRows (planned : List RunKey) (rows : List Row) : Dict RunKey Row × List RunKey :=
  rows.foldl (fun collected row =>
    let k := row.artifact.key
    (collected.1.set k row,
      if k ∈ collected.1.keys ∨ k ∉ planned then collected.2 ++ [k] else collected.2)) ([], [])

/-- `planned_status`: in a live report the meaning of the response has to be judged too. -/
def plannedStatus (mode : Mode) (rows : Dict RunKey Row) (p : Planned) : RunStatus :=
  let status := Row.statusOf (rows.get? p.key)
  match rows.get? p.key with
  | none => status
  | some row =>
    if status.Valid ∧ mode = .live ∧ "response_semantics" ∉ row.verdicts.map Verdict.name then
      .insufficientEvidence
    else status

/-! ### Summaries -/

/-- `quantile`. -/
def quantile (values : List ℚ) (p : ℚ) : Option ℚ :=
  if values = [] then none
  else
    let values := values.insertionSort (· ≤ ·)
    let index := (values.length - 1 : ℚ) * p
    let lower := index.floor.toNat
    let low := values.getD lower 0
    some (low + (values.getD (min (lower + 1) (values.length - 1)) 0 - low) * (index - lower))

/-- `a / b`, if there is anything to divide by. -/
def ratio (a b : ℕ) : Option ℚ := if b = 0 then none else some (a / b)

/-- What is reported of a case. -/
structure CaseSummary where
  passed : ℕ
  planned : ℕ
  valid : ℕ
  allPass : Bool
  deriving DecidableEq, Repr

/-- What is reported of a release. -/
structure Summary where
  planned : ℕ
  found : ℕ
  statuses : Dict RunStatus ℕ
  passed : ℕ
  valid : ℕ
  passRate : Option ℚ
  validPassRate : Option ℚ
  evaluationCoverage : Option ℚ
  passAtK : Option ℚ
  passAllK : Option ℚ
  cases : Dict String CaseSummary
  slices : Dict String (ℕ × ℕ)
  toolCalls : ℕ
  modelCalls : ℕ
  totalCostUsd : Option ℚ
  costPerPassUsd : Option ℚ
  latencyP50Seconds : Option ℚ
  latencyP95Seconds : Option ℚ

/-- The summary of a case, from whether each of its runs passed and was valid. -/
def CaseSummary.of (runs : List (Bool × Bool)) : CaseSummary where
  passed := runs.countP Prod.fst
  planned := runs.length
  valid := runs.countP Prod.snd
  allPass := runs.all Prod.fst

/-- The runs of each case: whether they passed, and were valid. -/
def casesOf (status : Planned → RunStatus) (plan : List Planned) :
    Dict String (List (Bool × Bool)) :=
  Dict.group (plan.map fun p => (p.scenarioId, status p = .pass, decide (status p).Valid))

/-- What is known of the cost of all planned runs. -/
def totalCost (plan : List Planned) (found : List Row) : Option ℚ :=
  if found.length = plan.length then (found.mapM Row.costUsd).map List.sum else none

/-- The summary of a release. -/
def summarize (mode : Mode) (rows : Dict RunKey Row) (plan : List Planned) (release : String) :
    Summary :=
  let plan := plan.filter fun p => p.release = release
  let status := plannedStatus mode rows
  let statuses := Dict.tally (plan.map status)
  let cases := casesOf status plan
  let found := plan.filterMap fun p => rows.get? p.key
  let passed := (statuses.get? .pass).getD 0
  let valid := passed + (statuses.get? .fail).getD 0
  let cost := totalCost plan found
  { planned := plan.length
    found := found.length
    statuses
    passed
    valid
    passRate := ratio passed plan.length
    validPassRate := ratio passed valid
    evaluationCoverage := ratio valid plan.length
    passAtK := ratio (cases.countP fun entry => entry.2.any Prod.fst) cases.length
    passAllK := ratio (cases.countP fun entry => entry.2.all Prod.fst) cases.length
    cases := cases.map fun entry => (entry.1, .of entry.2)
    slices := (Dict.group (plan.map fun p => (p.slice, decide (status p = .pass)))).map fun entry =>
      (entry.1, entry.2.countP id, entry.2.length)
    toolCalls := (found.map fun row => row.artifact.events.length).sum
    modelCalls := (found.map Row.modelCalls).sum
    totalCostUsd := cost
    costPerPassUsd := if passed = 0 then none else cost.map (· / passed)
    latencyP50Seconds := quantile (found.map Row.elapsedSeconds) (1 / 2)
    latencyP95Seconds := quantile (found.map Row.elapsedSeconds) (19 / 20) }

/-! ### Pairs -/

/-- How a case has changed. -/
inductive Change where
  | uncomparable
  | regression
  | improved
  | unchanged
  deriving DecidableEq, Repr

/-- A case of the two releases. -/
structure Pair where
  scenarioId : String
  baseline : CaseSummary
  candidate : CaseSummary
  delta : Option ℚ
  change : Change
  deriving DecidableEq, Repr

/-- The change from one case to the other, if all runs of both were valid. -/
def comparePair (scenarioId : String) (baseline candidate : CaseSummary) : Pair :=
  let comparable := baseline.valid = baseline.planned ∧ candidate.valid = candidate.planned
  let delta : ℚ := candidate.passed / candidate.planned - baseline.passed / baseline.planned
  { scenarioId, baseline, candidate
    delta := if comparable then some delta else none
    change :=
      if ¬ comparable then .uncomparable
      else if delta < 0 then .regression
      else if 0 < delta then .improved
      else .unchanged }

/-- The cases of the baseline, each with the case of the candidate, which has to be there. -/
def comparePairs (baseline candidate : Dict String CaseSummary) : Except AccessError (List Pair) :=
  baseline.mapM fun entry =>
    match candidate.get? entry.1 with
    | none => .error .keyError
    | some other => .ok (comparePair entry.1 entry.2 other)

/-! ### The comparison -/

/-- What a comparison decides. -/
inductive Decision where
  | hold
  | readyForHumanReview
  deriving DecidableEq, Repr

/-- What `compare` returns. -/
structure Comparison where
  baseline : Summary
  candidate : Summary
  pairs : List Pair
  integrityErrors : List RunKey
  completePairs : ℕ
  meanDelta : Option ℚ
  bootstrap95 : Option (Option ℚ × Option ℚ)
  decision : Decision
  decisionReasons : List String

/-- `statistics.mean`. -/
def mean (values : List ℚ) : ℚ := values.sum / values.length

/-- The verdicts of the candidate that violate its policy or a protected state. -/
def gateFailures (rows : List Row) : List Verdict :=
  (rows.filter fun row => row.artifact.release = "candidate").flatMap fun row =>
    row.verdicts.filter fun v => v.name ∈ ["policy", "side_effects"] ∧ v.status = .fail

/-- A reason, if it applies. -/
def reasonIf (applies : Prop) [Decidable applies] (reason : String) : List String :=
  if applies then [reason] else []

/-- The reasons to hold. -/
def decisionReasons (report : Report) (duplicates : List RunKey) (baseline candidate : Summary)
    (pairs : List Pair) : List String :=
  reasonIf (duplicates ≠ []) "중복 또는 계획에 없는 실행" ++
  reasonIf (baseline.valid ≠ baseline.planned ∨ candidate.valid ≠ candidate.planned)
    "실행/평가 누락 또는 오류" ++
  reasonIf (gateFailures report.rows ≠ []) "정책·보호 상태 위반" ++
  reasonIf (∃ pair ∈ pairs, pair.change = .regression) "시나리오 회귀" ++
  reasonIf (candidate.passed ≠ candidate.planned) "후보의 미통과 시나리오" ++
  reasonIf (report.mode = .scripted) "scripted 계약 검증: LLM 성능 미측정"

/-- `compare`. The samples of the bootstrap are those of the generator of random numbers. -/
def compare (samples : List ℚ → List (List ℚ)) (report : Report) : Except AccessError Comparison :=
  let collected := collectRows (report.plan.map Planned.key) report.rows
  let baseline := summarize report.mode collected.1 report.plan "baseline"
  let candidate := summarize report.mode collected.1 report.plan "candidate"
  (comparePairs baseline.cases candidate.cases).map fun pairs =>
    let differences := pairs.filterMap Pair.delta
    let draws := (samples differences).map mean
    let reasons := decisionReasons report collected.2 baseline candidate pairs
    { baseline, candidate, pairs
      integrityErrors := collected.2
      completePairs := differences.length
      meanDelta := if differences = [] then none else some (mean differences)
      bootstrap95 :=
        if report.mode = .live ∧ 1 < differences.length then
          some (quantile draws (1 / 40), quantile draws (39 / 40))
        else none
      decision := if reasons = [] then .readyForHumanReview else .hold
      decisionReasons := reasons }

end AgentLabs.BusinessLab
