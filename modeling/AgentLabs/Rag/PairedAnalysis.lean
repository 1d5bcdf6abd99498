import AgentLabs.Math.Fallible
import AgentLabs.Math.Statistics
import AgentLabs.Text.JsonSpelled
import Mathlib.Data.Finset.Filter
import Mathlib.Data.Finset.SDiff
import Mathlib.Data.Finset.Sort
import Mathlib.Data.Prod.Lex
import Mathlib.Data.String.Basic

/-!
# Paired analysis of two architectures

The runs of two architectures are compared run by run: a run of a case, a repeat and a turn with the
run of the other arm under the same key. Runs that are missing or that differ in a controlled
condition or in an undeclared one end the analysis.

Neither arm is the reference: exchanging them negates the differences and exchanges the summaries.
The order of the rows does not tell.

## Main definitions

* `Row`, `index`: the rows of the results, and those of an architecture by their keys
* `comparePair`: the checks and the differences of two rows
* `analyzePairs`: the analysis
* `Report.exchange`: a report with its arms exchanged

## Main results

* `index_eq_ok_iff`: what is indexed
* `comparePair_exchange`: two rows the other way round
* `pairedLaw`: the arms exchanged, and the rows reordered
-/

namespace AgentLabs.Rag

open Math Text

/-! ### Rows -/

/-- The key of a run: its case, its repeat and its turn. -/
abbrev RunKey (Case Repeat Turn : Type) := Case ×ₗ Repeat ×ₗ Turn

/-- A row of the results. What its key is made of is of any types that can be ordered, and its other
fields are those of a dictionary. -/
structure Row (Case Repeat Turn : Type) where
  caseId : Case
  repeatNo : Repeat
  turn : Turn
  fields : Fields
  spelled : (Json.obj fields).Spelled

/-- What ends an analysis. -/
inductive AnalysisError (Case Repeat Turn : Type) where
  /-- A field is not there, or not of the shape that is read. -/
  | access (e : AccessError)
  /-- "허용된 변경 변수와 양수 min_repeats를 지정하세요." -/
  | arguments
  /-- "중복 실행 키: … 서로 다른 실험 파일을 임의로 합치지 마세요." -/
  | duplicate (key : RunKey Case Repeat Turn)
  /-- "선택한 구조의 실행이 없습니다: …" -/
  | noRuns (architecture : String)
  /-- "두 실험의 사례·반복·턴이 다릅니다. 빠진 실행을 보존/재실행하세요." -/
  | keysDiffer
  /-- "사례마다 최소 …회 반복이 필요합니다." -/
  | repeats (least : ℤ)
  /-- "통제 조건 불일치: … / …" -/
  | control (key : RunKey Case Repeat Turn) (field : String)
  /-- "코드/자료 provenance가 한쪽에만 있습니다: …" -/
  | provenanceOnOneSide (key : RunKey Case Repeat Turn)
  /-- "자료·의존성·Python 조건 불일치: …" -/
  | provenanceDiffers (key : RunKey Case Repeat Turn)
  /-- "선언하지 않은 변경: … / …" -/
  | undeclared (key : RunKey Case Repeat Turn) (names : Finset String)
  /-- "분해 계획 불일치: … 같은 계획을 재생한 실행이 필요합니다." -/
  | planDiffers (key : RunKey Case Repeat Turn)

section

variable {Case Repeat Turn : Type}

/-- The parts of a key. -/
def RunKey.caseId (key : RunKey Case Repeat Turn) : Case := (ofLex key).1

def RunKey.repeatNo (key : RunKey Case Repeat Turn) : Repeat := (ofLex (ofLex key).2).1

def RunKey.turn (key : RunKey Case Repeat Turn) : Turn := (ofLex (ofLex key).2).2

namespace Row

variable (row : Row Case Repeat Turn)

/-- `(row["case_id"], row["repeat"], row["turn"])`. -/
def key : RunKey Case Repeat Turn := toLex (row.caseId, toLex (row.repeatNo, row.turn))

/-- `row[name]`. -/
def item (name : String) : Except AccessError Json := (Json.obj row.fields).item name

/-- `row.get(name, default)`. -/
def get (name : String) (default : Json) : Json := (Dict.get? row.fields name).getD default

end Row

/-- A read of a row. -/
def readRow {α : Type} (x : Except AccessError α) : Except (AnalysisError Case Repeat Turn) α :=
  x.mapError .access

end

/-- A text. Values that are no texts are not expected where one is read. -/
def textOf (value : Json) : Except AccessError String := value.asStr?.elim (.error .typeError) .ok

/-- A number. -/
def numberOf (value : Json) : Except AccessError ℚ := value.number?.elim (.error .typeError) .ok

/-- `value or {}`. -/
def orEmpty (value : Json) : Json := if value.isTruthy then value else .obj []

/-- `value is None`. -/
def isNone : Json → Bool
  | .null => true
  | _ => false

namespace Row

variable {Case Repeat Turn : Type} (row : Row Case Repeat Turn)

/-- `sorted(tasks, key=lambda task: task["id"])`. -/
def sortedTasks (tasks : List Json) : Except AccessError (List Json) := do
  let keyed ← tasks.mapM fun task => do return (← textOf (← task.item "id"), task)
  return (keyed.insertionSort fun a b => a.1 ≤ b.1).map Prod.snd

/-- `_plan`: the tasks of each plan of the trace. -/
def plan : Except AccessError Json := do
  let events ← (row.get "trace" (.arr [])).elements
  let planned ← Json.select
      (fun event => do return Json.pyEq (← event.get "event" .null) (.str "plan")) events
  let plans ← planned.mapM fun event => do
    sortedTasks (← (← (← event.item "plan").item "tasks").elements)
  return .arr (plans.map .arr)

/-- `_quality`: nothing, if the answer has not been judged. -/
def quality : Except AccessError (Option Bool) := do
  let evaluation := orEmpty (row.get "evaluation" .null)
  let quality := orEmpty (← evaluation.get "semantic_quality" .null)
  let correct ← quality.get "correct" .null
  let valid ← evaluation.get "citation_ids_valid" .null
  match correct, valid with
  | .bool correct, .bool valid => return some (correct && valid)
  | _, _ => return none

/-- `conditions`, without the implementation. -/
def conditions : Except AccessError Fields := do
  let architecture ← row.item "architecture"
  let webMode ← row.item "web_mode"
  let settings ← ((← row.item "settings").asObj?.elim (.error .typeError) .ok : Except AccessError
    Fields)
  return Dict.setAll [("architecture", architecture), ("web_mode", webMode)] settings

/-- `row.get("provenance")`. -/
def provenance : Json := row.get "provenance" .null

/-- `row["metrics"]["elapsed_s"]`. -/
def elapsed : Except AccessError ℚ := do numberOf (← (← row.item "metrics").item "elapsed_s")

/-- `row["metrics"]["calls"].get("model", 0)`. -/
def modelCalls : Except AccessError ℚ := do
  numberOf (← (← (← row.item "metrics").item "calls").get "model" (.int 0))

/-- `row["metrics"].get("input_tokens")`. -/
def inputTokens : Except AccessError Json := do (← row.item "metrics").get "input_tokens" .null

/-- `row["result"]["status"]`. -/
def status : Except AccessError String := do textOf (← (← row.item "result").item "status")

end Row

/-! ### Two rows -/

/-- `CHANGEABLE`. -/
def changeable : Finset String :=
  {"implementation", "architecture", "context_bytes", "context_mode", "serial_workers", "no_replan",
    "no_owner_memory", "skill", "web_mode", "max_calls", "max_tools", "seconds",
    "web_max_age_hours", "max_web_documents"}

/-- The conditions that are the same in both arms. -/
def controls : List String := ["request", "initial_corpus", "model", "backend", "mode", "exa_mode"]

/-- `FAILURES`. -/
def failureNames : List String := ["failed", "budget_exceeded", "index_pending"]

/-- What is compared of two rows. -/
structure PairDelta where
  differences : Finset String
  planDiffers : Bool
  latency : ℚ
  modelCalls : ℚ
  inputTokens : Option ℚ
  quality : Option ℤ

/-- `int(value)` of a judgement. -/
def judged (value : Bool) : ℤ := if value then 1 else 0

/-- The names of the conditions that differ. -/
def differingNames (a b : Fields) : Finset String :=
  (a.keys ++ b.keys).toFinset.filter fun name =>
    !Json.pyEq ((a.get? name).getD .null) ((b.get? name).getD .null)

/-- `tb - ta`, if both are known. -/
def tokenDelta (ta tb : Json) : Except AccessError (Option ℚ) := do
  if isNone ta ∨ isNone tb then return none
  return some ((← numberOf tb) - (← numberOf ta))

/-- The difference of two judgements, if there are both. -/
def qualityDelta : Option Bool → Option Bool → Option ℤ
  | some qa, some qb => some (judged qb - judged qa)
  | _, _ => none

section

variable {Case Repeat Turn : Type} [DecidableEq Case] [DecidableEq Repeat] [DecidableEq Turn]

/-- The rows have the field, with the same value. -/
def checkControl (key : RunKey Case Repeat Turn) (a b : Row Case Repeat Turn) (field : String) :
    Except (AnalysisError Case Repeat Turn) Unit :=
  match Dict.get? a.fields field, Dict.get? b.fields field with
  | some x, some y => if Json.pyEq x y then .ok () else .error (.control key field)
  | _, _ => .error (.control key field)

/-- The provenance is known on both sides or on none, with the same assets and the same Python. -/
def checkProvenance (key : RunKey Case Repeat Turn) (pa pb : Json) :
    Except (AnalysisError Case Repeat Turn) Unit := do
  if pa.isTruthy ≠ pb.isTruthy then throw (.provenanceOnOneSide key)
  if pa.isTruthy && pb.isTruthy then
    if !Json.pyEq (← readRow (pa.item "assets")) (← readRow (pb.item "assets")) then
      throw (.provenanceDiffers key)
    if !Json.pyEq (← readRow (pa.item "python")) (← readRow (pb.item "python")) then
      throw (.provenanceDiffers key)

/-- The conditions, with the implementation if it is known on both sides. -/
def withImplementation (known : Bool) (provenance : Json) (conditions : Fields) :
    Except AccessError Fields := do
  if known then return conditions.set "implementation" (← provenance.item "source_sha256")
  return conditions

/-- The body of the loop over the keys. -/
def comparePair (changed : Finset String) (requireSamePlan : Bool)
    (finalKeys : Finset (RunKey Case Repeat Turn))
    (key : RunKey Case Repeat Turn) (a b : Row Case Repeat Turn) :
    Except (AnalysisError Case Repeat Turn) PairDelta := do
  controls.forM (checkControl key a b)
  let conditionsA ← readRow a.conditions
  let conditionsB ← readRow b.conditions
  checkProvenance key a.provenance b.provenance
  let known := a.provenance.isTruthy && b.provenance.isTruthy
  let conditionsA ← readRow (withImplementation known a.provenance conditionsA)
  let conditionsB ← readRow (withImplementation known b.provenance conditionsB)
  let differences := differingNames conditionsA conditionsB
  if ¬ differences ⊆ changed then throw (.undeclared key (differences \ changed))
  let planA ← readRow a.plan
  let planB ← readRow b.plan
  let planDiffers := !Json.pyEq planA planB
  if planDiffers && requireSamePlan then throw (.planDiffers key)
  let laterB ← readRow b.elapsed
  let laterA ← readRow a.elapsed
  let callsB ← readRow b.modelCalls
  let callsA ← readRow a.modelCalls
  let ta ← readRow a.inputTokens
  let tb ← readRow b.inputTokens
  let tokens ← readRow (tokenDelta ta tb)
  let qa ← readRow a.quality
  let qb ← readRow b.quality
  return {
    differences, planDiffers
    latency := laterB - laterA
    modelCalls := callsB - callsA
    inputTokens := tokens
    quality := if key ∈ finalKeys then qualityDelta qa qb else none }

end

/-! ### All rows -/

/-- The summary of an arm. The statuses are listed in their order. -/
structure ArmSummary where
  statuses : List (String × ℕ)
  failureFraction : ℚ
  qualityEvaluated : ℕ
  verifiedCorrect : ℕ
  finalTurns : ℕ

/-- The summary of the differences of a metric. -/
structure DeltaSummary where
  observedPairs : ℕ
  mean : Option ℚ
  median : Option ℚ

/-- The differences of the judgements of final turns. -/
structure QualitySummary where
  bothEvaluated : ℕ
  eligibleFinalTurns : ℕ
  coverage : ℚ
  meanDelta : Option ℚ

/-- What `analyze_pairs` returns, without the note on how to read it. The repeats are listed in the
order of their cases. -/
structure PairReport (Case : Type) where
  pairs : ℕ
  repeatsPerCase : List (Case × ℕ)
  actualChanges : List String
  differentPlanPairs : ℕ
  pairsWithoutCodeProvenance : ℕ
  baseline : ArmSummary
  candidate : ArmSummary
  latency : DeltaSummary
  modelCalls : DeltaSummary
  inputTokens : DeltaSummary
  quality : QualitySummary

/-- The options of an analysis. -/
structure PairOptions where
  changed : Finset String := {"architecture"}
  minRepeats : ℤ := 3
  requireSamePlan : Bool := false

/-- The mean and the median of the differences, if there are any. -/
def DeltaSummary.of (values : List ℚ) : DeltaSummary :=
  ⟨values.length, Math.mean values, Math.median values⟩

/-- The differences of the judgements, and how many of the final turns they cover. -/
def QualitySummary.of (deltas : List ℤ) (finalTurns : ℕ) : QualitySummary :=
  ⟨deltas.length, finalTurns, deltas.length / finalTurns, mean (deltas.map Int.cast)⟩

section

variable {Case Repeat Turn : Type} [LinearOrder Case] [LinearOrder Repeat] [LinearOrder Turn]

/-- The body of the loop of `_index`. -/
def indexStep (architecture : String)
    (result : Dict (RunKey Case Repeat Turn) (Row Case Repeat Turn))
    (row : Row Case Repeat Turn) :
    Except (AnalysisError Case Repeat Turn)
      (Dict (RunKey Case Repeat Turn) (Row Case Repeat Turn)) := do
  let given ← readRow (row.item "architecture")
  if Json.pyEq given (.str architecture) then
    if row.key ∈ result.keys then throw (.duplicate row.key)
    return result.set row.key row
  else return result

/-- `_index`: the rows of an architecture by their keys. -/
def index (rows : List (Row Case Repeat Turn)) (architecture : String) :
    Except (AnalysisError Case Repeat Turn)
      (Dict (RunKey Case Repeat Turn) (Row Case Repeat Turn)) := do
  let result ← rows.foldlM (indexStep architecture) []
  if result.isEmpty then throw (.noRuns architecture)
  return result

/-- `result[key]`. -/
def rowAt (result : Dict (RunKey Case Repeat Turn) (Row Case Repeat Turn))
    (key : RunKey Case Repeat Turn) :
    Except (AnalysisError Case Repeat Turn) (Row Case Repeat Turn) :=
  (result.get? key).elim (.error (.access .keyError)) .ok

/-- `repeats[case]`. -/
def repeatsOf (keys : List (RunKey Case Repeat Turn)) (case : Case) : Finset Repeat :=
  ((keys.filter fun key => key.caseId = case).map RunKey.repeatNo).toFinset

/-- The last turn of a run. -/
def lastTurn (keys : List (RunKey Case Repeat Turn)) (run : RunKey Case Repeat Turn) : Turn :=
  ((keys.filter fun key => key.caseId = run.caseId ∧ key.repeatNo = run.repeatNo).map
    RunKey.turn).foldl max run.turn

/-- `final_keys`. -/
def finalKeysOf (keys : List (RunKey Case Repeat Turn)) : Finset (RunKey Case Repeat Turn) :=
  (keys.map fun run => toLex (run.caseId, toLex (run.repeatNo, lastTurn keys run))).toFinset

/-- `arm`. -/
def arm (rows : Dict (RunKey Case Repeat Turn) (Row Case Repeat Turn))
    (finalKeys : List (RunKey Case Repeat Turn)) :
    Except (AnalysisError Case Repeat Turn) ArmSummary := do
  let statuses ← readRow ((rows.map Prod.snd).mapM Row.status)
  let finalQuality ← finalKeys.mapM fun key => do readRow (← rowAt rows key).quality
  return {
    statuses := (sortedSet statuses).map fun status => (status, statuses.count status)
    failureFraction := (failureNames.map statuses.count).sum / rows.length
    qualityEvaluated := finalQuality.countP Option.isSome
    verifiedCorrect := finalQuality.count (some true)
    finalTurns := finalQuality.length }

/-- The report on the pairs. -/
def reportOf (keys finalKeys : List (RunKey Case Repeat Turn))
    (left : Dict (RunKey Case Repeat Turn) (Row Case Repeat Turn)) (pairs : List PairDelta)
    (baseline candidate : ArmSummary) : PairReport Case where
  pairs := left.length
  repeatsPerCase := (sortedSet (keys.map RunKey.caseId)).map fun case =>
    (case, (repeatsOf keys case).card)
  actualChanges := (pairs.foldl (fun changes (pair : PairDelta) => changes ∪ pair.differences)
    ∅).sort (· ≤ ·)
  differentPlanPairs := pairs.countP PairDelta.planDiffers
  pairsWithoutCodeProvenance := (left.map Prod.snd).countP fun row => !row.provenance.isTruthy
  baseline
  candidate
  latency := .of (pairs.map PairDelta.latency)
  modelCalls := .of (pairs.map PairDelta.modelCalls)
  inputTokens := .of (pairs.filterMap PairDelta.inputTokens)
  quality := .of (pairs.filterMap PairDelta.quality) finalKeys.length

/-- `analyze_pairs`. -/
def analyzePairs (options : PairOptions) (baselineRows candidateRows : List (Row Case Repeat Turn))
    (baselineArchitecture candidateArchitecture : String) :
    Except (AnalysisError Case Repeat Turn) (PairReport Case) := do
  if ¬ options.changed ⊆ changeable ∨ options.minRepeats < 1 then throw .arguments
  let left ← index baselineRows baselineArchitecture
  let right ← index candidateRows candidateArchitecture
  let keys := left.keys
  if keys.toFinset ≠ right.keys.toFinset then throw .keysDiffer
  if ∃ case ∈ keys.map RunKey.caseId, ((repeatsOf keys case).card : ℤ) < options.minRepeats then
    throw (.repeats options.minRepeats)
  let finalKeys := finalKeysOf keys
  let pairs ← (sortedSet keys).mapM fun key => do
    comparePair options.changed options.requireSamePlan finalKeys key (← rowAt left key)
      (← rowAt right key)
  let baseline ← arm left (finalKeys.sort (· ≤ ·))
  let candidate ← arm right (finalKeys.sort (· ≤ ·))
  return reportOf keys (finalKeys.sort (· ≤ ·)) left pairs baseline candidate

end

/-! ### The arms exchanged -/

/-- The differences the other way round. -/
def PairDelta.exchange (pair : PairDelta) : PairDelta where
  differences := pair.differences
  planDiffers := pair.planDiffers
  latency := -pair.latency
  modelCalls := -pair.modelCalls
  inputTokens := pair.inputTokens.map Neg.neg
  quality := pair.quality.map Neg.neg

/-- The summary of the negated differences. -/
def DeltaSummary.negate (summary : DeltaSummary) : DeltaSummary where
  observedPairs := summary.observedPairs
  mean := summary.mean.map Neg.neg
  median := summary.median.map Neg.neg

/-- The summary of the negated differences of the judgements. -/
def QualitySummary.negate (summary : QualitySummary) : QualitySummary where
  bothEvaluated := summary.bothEvaluated
  eligibleFinalTurns := summary.eligibleFinalTurns
  coverage := summary.coverage
  meanDelta := summary.meanDelta.map Neg.neg

/-- The report with the arms exchanged: every mean and every median is negated. -/
def PairReport.exchange {Case : Type} (report : PairReport Case) : PairReport Case where
  pairs := report.pairs
  repeatsPerCase := report.repeatsPerCase
  actualChanges := report.actualChanges
  differentPlanPairs := report.differentPlanPairs
  pairsWithoutCodeProvenance := report.pairsWithoutCodeProvenance
  baseline := report.candidate
  candidate := report.baseline
  latency := report.latency.negate
  modelCalls := report.modelCalls.negate
  inputTokens := report.inputTokens.negate
  quality := report.quality.negate

/-- What is wanted of an analysis: it succeeds with the arms exchanged if it succeeds, and then the
report is the exchanged one; and it comes to the same if the rows are reordered. -/
structure PairedLaw {Case Repeat Turn : Type} [LinearOrder Case] [LinearOrder Repeat]
    [LinearOrder Turn]
    (options : PairOptions) (baselineRows candidateRows : List (Row Case Repeat Turn))
    (baselineArchitecture candidateArchitecture : String) : Prop where
  succeeds : (analyzePairs options candidateRows baselineRows candidateArchitecture
    baselineArchitecture).isOk =
    (analyzePairs options baselineRows candidateRows baselineArchitecture
      candidateArchitecture).isOk
  exchange : (analyzePairs options candidateRows baselineRows candidateArchitecture
    baselineArchitecture).toOption =
    (analyzePairs options baselineRows candidateRows baselineArchitecture
      candidateArchitecture).toOption.map PairReport.exchange
  reorder : ∀ baselineRows' candidateRows', baselineRows'.Perm baselineRows →
    candidateRows'.Perm candidateRows →
    (analyzePairs options baselineRows' candidateRows' baselineArchitecture
      candidateArchitecture).toOption =
      (analyzePairs options baselineRows candidateRows baselineArchitecture
        candidateArchitecture).toOption

/-! ### Two rows the other way round -/

section Rows

variable {Case Repeat Turn : Type} {row a b : Row Case Repeat Turn}

theorem readRow_eq_ok_iff {α : Type} {x : Except AccessError α} {value : α} :
    (readRow x : Except (AnalysisError Case Repeat Turn) α) = .ok value ↔ x = .ok value := by
  cases x <;> simp [readRow, Except.mapError]

theorem Row.spelled_item {name : String} {value : Json} (read : row.item name = .ok value) :
    value.Spelled :=
  Json.spelled_of_item row.spelled read

theorem Row.spelled_get (row : Row Case Repeat Turn) (name : String) {default : Json}
    (plain : default.Spelled) :
    (row.get name default).Spelled :=
  Json.spelled_getD row.spelled plain

theorem Row.spelled_conditions {conditions : Fields} (read : row.conditions = .ok conditions) :
    (Json.obj conditions).Spelled := by
  simp only [Row.conditions, bind_eq_ok_iff] at read
  obtain ⟨architecture, first, webMode, second, value, third, settings, isObj, read⟩ := read
  cases read
  cases value with
  | obj fields =>
    cases isObj
    have ownFields := Json.spelled_obj_iff.mp (Row.spelled_item third)
    apply Json.spelled_setAll _ ownFields.2
    rw [Json.spelled_obj_iff]
    refine ⟨by simp [Dict.KeysNodup, Dict.keys], ?_⟩
    simp only [List.forall_mem_cons, List.not_mem_nil, false_imp_iff, imp_true_iff, and_true]
    exact ⟨Row.spelled_item first, Row.spelled_item second⟩
  | _ => cases isObj

theorem Row.spelled_sortedTasks {tasks sorted : List Json} (spelled : ∀ task ∈ tasks, task.Spelled)
    (read : Row.sortedTasks tasks = .ok sorted) : (Json.arr sorted).Spelled := by
  obtain ⟨keyed, each, read⟩ := bind_eq_ok_iff.mp read
  cases read
  refine Json.spelled_arr_map _ fun entry member => ?_
  rw [List.mem_insertionSort] at member
  obtain ⟨task, listed, read⟩ := exists_of_mem_of_mapM_eq_ok each member
  simp only [bind_eq_ok_iff] at read
  obtain ⟨_, -, _, -, read⟩ := read
  cases read
  exact spelled task listed

theorem Row.spelled_plan {plan : Json} (read : row.plan = .ok plan) : plan.Spelled := by
  simp only [Row.plan, bind_eq_ok_iff] at read
  obtain ⟨events, listed, planned, selected, plans, each, read⟩ := read
  cases read
  have traced : (row.get "trace" (.arr [])).Spelled := row.spelled_get "trace" trivial
  have spelled := Json.spelled_of_elements traced listed
  refine Json.spelled_arr_map _ fun tasks member => ?_
  obtain ⟨event, held, read⟩ := exists_of_mem_of_mapM_eq_ok each member
  simp only [bind_eq_ok_iff] at read
  obtain ⟨plan, first, value, second, items, third, read⟩ := read
  have spelledEvent := spelled event (Json.subset_of_select selected held)
  have spelledValue := Json.spelled_of_item (Json.spelled_of_item spelledEvent first) second
  exact Row.spelled_sortedTasks (Json.spelled_of_elements spelledValue third) read

theorem differingNames_comm {a b : Fields} (first : (Json.obj a).Spelled)
    (second : (Json.obj b).Spelled) :
    differingNames a b = differingNames b a := by
  ext name
  simp only [differingNames, Finset.mem_filter, List.mem_toFinset, List.mem_append]
  have value : ((a.get? name).getD .null).Spelled := Json.spelled_getD first trivial
  have value' : ((b.get? name).getD .null).Spelled := Json.spelled_getD second trivial
  rw [or_comm, Json.pyEq_comm value value']

theorem tokenDelta_exchange {ta tb : Json} {delta : Option ℚ} (ok : tokenDelta ta tb = .ok delta) :
    tokenDelta tb ta = .ok (delta.map Neg.neg) := by
  unfold tokenDelta at ok ⊢
  by_cases missing : isNone ta ∨ isNone tb
  · rw [if_pos missing] at ok
    rw [if_pos missing.symm]
    cases ok
    rfl
  · rw [if_neg missing] at ok
    rw [if_neg fun either => missing either.symm]
    simp only [bind_eq_ok_iff] at ok ⊢
    obtain ⟨y, second, x, first, ok⟩ := ok
    cases ok
    exact ⟨x, first, y, second, congrArg (fun z => Except.ok (some z)) (neg_sub y x).symm⟩

theorem qualityDelta_exchange (qa qb : Option Bool) :
    qualityDelta qb qa = (qualityDelta qa qb).map Neg.neg := by
  cases qa <;> cases qb <;> simp [qualityDelta]

variable {key : RunKey Case Repeat Turn}

theorem checkControl_eq_ok_iff {field : String} : checkControl key a b field = .ok () ↔
    ∃ x y, Dict.get? a.fields field = some x ∧ Dict.get? b.fields field = some y ∧
      Json.pyEq x y := by
  unfold checkControl
  cases Dict.get? a.fields field <;> cases Dict.get? b.fields field <;> simp

theorem checkControl_exchange {field : String} (ok : checkControl key a b field = .ok ()) :
    checkControl key b a field = .ok () := by
  obtain ⟨x, y, first, second, equal⟩ := checkControl_eq_ok_iff.mp ok
  rw [Json.pyEq_comm (Json.spelled_of_get? a.spelled first)
    (Json.spelled_of_get? b.spelled second)] at equal
  exact checkControl_eq_ok_iff.mpr ⟨y, x, second, first, equal⟩

theorem sameTruth_of_checkProvenance {pa pb : Json} (ok : checkProvenance key pa pb = .ok ()) :
    pa.isTruthy = pb.isTruthy := by
  by_contra differ
  rw [checkProvenance, if_pos differ] at ok
  cases ok

theorem checkProvenance_exchange {pa pb : Json} (spelledA : pa.Spelled) (spelledB : pb.Spelled)
    (ok : checkProvenance key pa pb = .ok ()) : checkProvenance key pb pa = .ok () := by
  have same := sameTruth_of_checkProvenance ok
  unfold checkProvenance at ok ⊢
  rw [if_neg (not_not.mpr same)] at ok
  rw [if_neg (not_not.mpr same.symm)]
  by_cases known : pa.isTruthy && pb.isTruthy
  · rw [if_pos known] at ok
    rw [if_pos (Bool.and_comm _ _ ▸ known)]
    simp only [bind_eq_ok_iff, readRow_eq_ok_iff, ite_throw_eq_ok_iff] at ok ⊢
    obtain ⟨x, assetsA, y, assetsB, sameAssets, x', pythonA, y', pythonB, samePython⟩ := ok
    rw [Json.pyEq_comm (Json.spelled_of_item spelledA assetsA)
      (Json.spelled_of_item spelledB assetsB)] at sameAssets
    rw [Json.pyEq_comm (Json.spelled_of_item spelledA pythonA)
      (Json.spelled_of_item spelledB pythonB)] at samePython
    exact ⟨y, assetsB, x, assetsA, sameAssets, y', pythonB, x', pythonA, samePython⟩
  · rw [if_neg fun known' => known (Bool.and_comm _ _ ▸ known')]
    rfl

theorem spelled_withImplementation {known : Bool} {provenance : Json}
    {conditions conditions' : Fields}
    (spelled : provenance.Spelled) (plain : (Json.obj conditions).Spelled)
    (ok : withImplementation known provenance conditions = .ok conditions') :
    (Json.obj conditions').Spelled := by
  unfold withImplementation at ok
  cases known with
  | true =>
    obtain ⟨source, read, ok⟩ := bind_eq_ok_iff.mp ok
    cases ok
    exact Json.spelled_set plain (Json.spelled_of_item spelled read)
  | false =>
    cases ok
    exact plain

variable [DecidableEq Case] [DecidableEq Repeat] [DecidableEq Turn]

/-- The provenance is known of both rows or of none. -/
theorem sameTruth_of_comparePair {changed : Finset String} {requireSamePlan : Bool}
    {finalKeys : Finset (RunKey Case Repeat Turn)} {pair : PairDelta}
    (ok : comparePair changed requireSamePlan finalKeys key a b = .ok pair) :
    a.provenance.isTruthy = b.provenance.isTruthy := by
  unfold comparePair at ok
  simp only [bind_eq_ok_iff] at ok
  obtain ⟨⟨⟩, -, _, -, _, -, ⟨⟩, checked, -⟩ := ok
  exact sameTruth_of_checkProvenance checked

/-- **Two rows the other way round** are compared if they are, with the negated differences. -/
theorem comparePair_exchange {changed : Finset String} {requireSamePlan : Bool}
    {finalKeys : Finset (RunKey Case Repeat Turn)} {pair : PairDelta}
    (ok : comparePair changed requireSamePlan finalKeys key a b = .ok pair) :
    comparePair changed requireSamePlan finalKeys key b a = .ok pair.exchange := by
  have spelledA : a.provenance.Spelled := a.spelled_get "provenance" trivial
  have spelledB : b.provenance.Spelled := b.spelled_get "provenance" trivial
  unfold comparePair at ok ⊢
  simp only [bind_eq_ok_iff, readRow_eq_ok_iff, ite_throw_eq_ok_iff] at ok ⊢
  obtain ⟨⟨⟩, controlled, ca, condA, cb, condB, ⟨⟩, traced, ca', implA, cb', implB, declared, planA,
    isPlanA, planB, isPlanB, samePlan, eb, elapsedB, ea, elapsedA, mb, callsB, ma, callsA, ta,
    tokensA, tb, tokensB, delta, counted, qa, qualityA, qb, qualityB, ok⟩ := ok
  cases ok
  -- What the rows differ in does not depend on which of them is the first.
  have names := differingNames_comm
    (spelled_withImplementation spelledA (Row.spelled_conditions condA) implA)
    (spelled_withImplementation spelledB (Row.spelled_conditions condB) implB)
  have plans := Json.pyEq_comm (Row.spelled_plan isPlanA) (Row.spelled_plan isPlanB)
  rw [Bool.and_comm] at implA implB
  rw [names] at declared
  rw [plans] at samePlan
  refine ⟨⟨⟩, ?_, cb, condB, ca, condA, ⟨⟩, checkProvenance_exchange spelledA spelledB traced, cb',
    implB, ca', implA, declared, planB, isPlanB, planA, isPlanA, samePlan, ea, elapsedA, eb,
    elapsedB, ma, callsA, mb, callsB, tb, tokensB, ta, tokensA, _, tokenDelta_exchange counted, qb,
    qualityB, qa, qualityA, ?_⟩
  · rw [forM_eq_ok_iff] at controlled ⊢
    exact fun field member => checkControl_exchange (controlled field member)
  · rw [names, plans, qualityDelta_exchange qa qb, PairDelta.exchange, neg_sub, neg_sub]
    split_ifs <;> rfl

end Rows

/-! ### The index of an arm -/

section Index

variable {Case Repeat Turn : Type} [LinearOrder Case] [LinearOrder Repeat] [LinearOrder Turn]
  {rows rows' : List (Row Case Repeat Turn)} {architecture : String}
  {d d' : Dict (RunKey Case Repeat Turn) (Row Case Repeat Turn)}

/-- The row is of the architecture. -/
def Row.isOf (architecture : String) (row : Row Case Repeat Turn) : Bool :=
  match row.item "architecture" with
  | .ok given => Json.pyEq given (.str architecture)
  | .error _ => false

/-- The row under its key. -/
def Row.entry (row : Row Case Repeat Turn) : RunKey Case Repeat Turn × Row Case Repeat Turn :=
  (row.key, row)

theorem indexStep_eq_ok_iff {row : Row Case Repeat Turn} : indexStep architecture d row = .ok d' ↔
    (∃ given, row.item "architecture" = .ok given) ∧
      if row.isOf architecture then row.key ∉ d.keys ∧ d' = d ++ [row.entry] else d' = d := by
  rw [indexStep, Row.isOf, bind_eq_ok_iff]
  simp only [readRow_eq_ok_iff]
  cases row.item "architecture" with
  | error e => simp
  | ok given =>
    simp only [Except.ok.injEq, exists_eq_left', exists_eq', true_and]
    by_cases isOf : Json.pyEq given (.str architecture)
    · rw [if_pos isOf, if_pos isOf, ite_throw_eq_ok_iff]
      refine and_congr_right fun fresh => ?_
      rw [Dict.set_of_notMem fresh]
      exact ⟨fun same => (Except.ok.inj same).symm, fun same => congrArg Except.ok same.symm⟩
    · rw [if_neg isOf, if_neg isOf]
      exact ⟨fun same => (Except.ok.inj same).symm, fun same => congrArg Except.ok same.symm⟩

theorem foldlM_indexStep_eq_ok_iff : rows.foldlM (indexStep architecture) d = .ok d' ↔
    (∀ row ∈ rows, ∃ given, row.item "architecture" = .ok given) ∧
      ((rows.filter (Row.isOf architecture)).map Row.key).Nodup ∧
      (∀ row ∈ rows.filter (Row.isOf architecture), row.key ∉ d.keys) ∧
      d' = d ++ (rows.filter (Row.isOf architecture)).map Row.entry := by
  induction rows generalizing d with
  | nil => simp [pure, Except.pure, eq_comm]
  | cons row rows ih =>
    rw [foldlM_cons_eq_ok_iff]
    simp only [indexStep_eq_ok_iff, ih, List.forall_mem_cons]
    by_cases isOf : row.isOf architecture
    · -- The key of the row is new, and the rows that follow must have others.
      have keys : Dict.keys (d ++ [row.entry]) = d.keys ++ [row.key] := by
        simp [Dict.keys, Row.entry]
      rw [List.filter_cons_of_pos isOf, List.map_cons, List.map_cons, List.nodup_cons,
        List.forall_mem_cons]
      simp only [if_pos isOf]
      constructor
      · rintro ⟨_, ⟨given, fresh, rfl⟩, readable, distinct, later, rfl⟩
        simp only [keys, List.mem_append, List.mem_singleton, not_or] at later
        refine ⟨⟨given, readable⟩, ⟨?_, distinct⟩,
          ⟨fresh, fun row' member => (later row' member).1⟩, ?_⟩
        · rintro member
          obtain ⟨row', listed, same⟩ := List.mem_map.mp member
          exact (later row' listed).2 same
        · rw [List.append_assoc, List.singleton_append]
      · rintro ⟨⟨given, readable⟩, ⟨new, distinct⟩, ⟨fresh, later⟩, rfl⟩
        refine ⟨_, ⟨given, fresh, rfl⟩, readable, distinct, fun row' member => ?_, ?_⟩
        · rw [keys, List.mem_append, List.mem_singleton, not_or]
          exact ⟨later row' member, fun same => new (same ▸ List.mem_map_of_mem member)⟩
        · rw [List.append_assoc, List.singleton_append]
    · rw [List.filter_cons_of_neg isOf]
      simp only [if_neg isOf]
      constructor
      · rintro ⟨_, ⟨given, rfl⟩, readable, rest⟩
        exact ⟨⟨given, readable⟩, rest⟩
      · rintro ⟨⟨given, readable⟩, rest⟩
        exact ⟨_, ⟨given, rfl⟩, readable, rest⟩

/-- **What is indexed**: all rows of the architecture, if there are some and no two have one key. -/
theorem index_eq_ok_iff : index rows architecture = .ok d ↔
    (∀ row ∈ rows, ∃ given, row.item "architecture" = .ok given) ∧
      ((rows.filter (Row.isOf architecture)).map Row.key).Nodup ∧
      d = (rows.filter (Row.isOf architecture)).map Row.entry ∧ d ≠ [] := by
  rw [index, bind_eq_ok_iff]
  simp only [foldlM_indexStep_eq_ok_iff, ite_throw_eq_ok_iff, List.isEmpty_iff]
  constructor
  · rintro ⟨_, ⟨readable, distinct, -, rfl⟩, some, same⟩
    cases same
    exact ⟨readable, distinct, List.nil_append _, some⟩
  · rintro ⟨readable, distinct, rfl, some⟩
    exact ⟨_, ⟨readable, distinct, fun _ _ => List.not_mem_nil, (List.nil_append _).symm⟩, some,
      rfl⟩

theorem keysNodup_of_index (ok : index rows architecture = .ok d) : d.KeysNodup := by
  obtain ⟨-, distinct, rfl, -⟩ := index_eq_ok_iff.mp ok
  rw [Dict.KeysNodup, Dict.keys, List.map_map]
  exact distinct

/-- The order of the rows is that of the index. -/
theorem exists_index_of_perm (same : rows'.Perm rows) (ok : index rows architecture = .ok d) :
    ∃ d', index rows' architecture = .ok d' ∧ d'.Perm d := by
  obtain ⟨readable, distinct, rfl, some⟩ := index_eq_ok_iff.mp ok
  have selected := same.filter (Row.isOf architecture)
  refine ⟨_, index_eq_ok_iff.mpr ⟨fun row member => readable row (same.mem_iff.mp member), ?_, rfl,
    ?_⟩, selected.map Row.entry⟩
  · exact (selected.map Row.key).nodup_iff.mpr distinct
  · intro empty
    exact some (empty ▸ selected.map Row.entry).symm.eq_nil

theorem rowAt_eq_ok_iff {key : RunKey Case Repeat Turn} {row : Row Case Repeat Turn} :
    rowAt d key = .ok row ↔ d.get? key = some row := by
  unfold rowAt
  cases d.get? key <;> simp

end Index

/-! ### All keys -/

section Keys

variable {Case Repeat Turn : Type} [LinearOrder Case] [LinearOrder Repeat] [LinearOrder Turn]
  {keys keys' : List (RunKey Case Repeat Turn)}
  {d d' : Dict (RunKey Case Repeat Turn) (Row Case Repeat Turn)}

omit [LinearOrder Turn] in
theorem repeatsOf_eq_of_perm (same : keys'.Perm keys) (case : Case) :
    repeatsOf keys' case = repeatsOf keys case :=
  List.toFinset_eq_of_perm _ _ ((same.filter _).map _)

theorem finalKeysOf_eq_of_perm (same : keys'.Perm keys) : finalKeysOf keys' = finalKeysOf keys := by
  have turns : lastTurn keys' = lastTurn keys := by
    funext run
    exact ((same.filter _).map _).foldl_op_eq
  rw [finalKeysOf, finalKeysOf, turns]
  exact List.toFinset_eq_of_perm _ _ (same.map _)

theorem sortedSet_eq_of_perm {α : Type*} [LinearOrder α] {xs ys : List α} (same : xs.Perm ys) :
    sortedSet xs = sortedSet ys :=
  sortedSet_eq_iff.mpr fun _ => same.mem_iff

/-- Rows of an arm in another order have the same summary. -/
theorem arm_of_perm {finalKeys : List (RunKey Case Repeat Turn)} {summary : ArmSummary}
    (distinct : d.KeysNodup)
    (same : d'.Perm d) (ok : arm d finalKeys = .ok summary) : arm d' finalKeys = .ok summary := by
  have found : rowAt d' = rowAt d := by
    funext key
    rw [rowAt, rowAt, Dict.get?_eq_of_perm distinct same]
  unfold arm at ok ⊢
  simp only [bind_eq_ok_iff, readRow_eq_ok_iff] at ok ⊢
  obtain ⟨statuses, each, judged, final, ok⟩ := ok
  obtain ⟨statuses', each', reordered⟩ := exists_mapM_of_perm (same.map Prod.snd) each
  refine ⟨statuses', each', judged, found ▸ final, ?_⟩
  have counts : ∀ status, statuses'.count status = statuses.count status := reordered.count_eq
  rw [← ok, sortedSet_eq_of_perm reordered, same.length_eq]
  simp only [counts]

/-- The rows under the keys. -/
theorem countP_values {p : Row Case Repeat Turn → Bool} (distinct : d.KeysNodup) :
    (d.map Prod.snd).countP p = d.keys.countP fun key => (d.get? key).any p := by
  rw [Dict.keys, List.countP_map, List.countP_map]
  refine List.countP_congr fun entry member => ?_
  rw [Function.comp_apply, Function.comp_apply, (Dict.get?_eq_some_iff distinct).mpr member,
    Option.any_some]

end Keys

/-! ### The whole analysis -/

section Analysis

variable {Case Repeat Turn : Type} [LinearOrder Case] [LinearOrder Repeat] [LinearOrder Turn]
  {options : PairOptions} {baselineRows candidateRows : List (Row Case Repeat Turn)}
  {baselineArchitecture candidateArchitecture : String} {report : PairReport Case}

/-- What is done with the indexed arms. -/
structure Analysed (options : PairOptions)
    (left right : Dict (RunKey Case Repeat Turn) (Row Case Repeat Turn))
    (pairs : List PairDelta) (baseline candidate : ArmSummary) : Prop where
  allowed : ¬ (¬ options.changed ⊆ changeable ∨ options.minRepeats < 1)
  sameKeys : left.keys.toFinset = right.keys.toFinset
  enough : ¬ ∃ case ∈ left.keys.map RunKey.caseId,
    ((repeatsOf left.keys case).card : ℤ) < options.minRepeats
  compared : ((sortedSet left.keys).mapM fun key => do
    comparePair options.changed options.requireSamePlan (finalKeysOf left.keys)
      key (← rowAt left key) (← rowAt right key)) = .ok pairs
  baseline : arm left ((finalKeysOf left.keys).sort (· ≤ ·)) = .ok baseline
  candidate : arm right ((finalKeysOf left.keys).sort (· ≤ ·)) = .ok candidate

theorem analyzePairs_eq_ok_iff :
    analyzePairs options baselineRows candidateRows baselineArchitecture candidateArchitecture =
      .ok report ↔
      ∃ left right pairs baseline candidate, index baselineRows baselineArchitecture = .ok left ∧
        index candidateRows candidateArchitecture = .ok right ∧
        Analysed options left right pairs baseline candidate ∧
        reportOf left.keys ((finalKeysOf left.keys).sort (· ≤ ·)) left pairs baseline candidate =
          report := by
  unfold analyzePairs
  simp only [bind_eq_ok_iff, ite_throw_eq_ok_iff]
  constructor
  · rintro ⟨allowed, left, first, right, second, sameKeys, enough, pairs, compared, baseline,
      summed, candidate, summed', ok⟩
    exact ⟨left, right, pairs, baseline, candidate, first, second,
      ⟨allowed, not_not.mp sameKeys, enough, compared, summed, summed'⟩, Except.ok.inj ok⟩
  · rintro ⟨left, right, pairs, baseline, candidate, first, second, analysed, rfl⟩
    exact ⟨analysed.allowed, left, first, right, second, not_not.mpr analysed.sameKeys,
      analysed.enough, pairs, analysed.compared, baseline, analysed.baseline, candidate,
      analysed.candidate, rfl⟩

/-- The keys of the arms, in whatever order. -/
theorem keys_perm_of_analysed {left right : Dict (RunKey Case Repeat Turn) (Row Case Repeat Turn)}
    {pairs : List PairDelta} {baseline candidate : ArmSummary} (distinct : left.KeysNodup)
    (distinct' : right.KeysNodup)
    (analysed : Analysed options left right pairs baseline candidate) : right.keys.Perm left.keys :=
  List.perm_of_nodup_nodup_toFinset_eq distinct' distinct analysed.sameKeys.symm

/-- Rows in another order are analysed alike. -/
theorem analyzePairs_of_perm {baselineRows' candidateRows' : List (Row Case Repeat Turn)}
    (first : baselineRows'.Perm baselineRows) (second : candidateRows'.Perm candidateRows)
    (ok : analyzePairs options baselineRows candidateRows baselineArchitecture
      candidateArchitecture = .ok report) :
    analyzePairs options baselineRows' candidateRows' baselineArchitecture candidateArchitecture =
      .ok report := by
  obtain ⟨left, right, pairs, baseline, candidate, indexed, indexed', analysed, rfl⟩ :=
    analyzePairs_eq_ok_iff.mp ok
  obtain ⟨left', again, same⟩ := exists_index_of_perm first indexed
  obtain ⟨right', again', same'⟩ := exists_index_of_perm second indexed'
  have distinct := keysNodup_of_index indexed
  have distinct' := keysNodup_of_index indexed'
  -- The dictionaries hold the same rows; what is read of them does not depend on their order.
  have keys : left'.keys.Perm left.keys := same.map Prod.fst
  have keys' : right'.keys.Perm right.keys := same'.map Prod.fst
  have repeats : repeatsOf left'.keys = repeatsOf left.keys := funext (repeatsOf_eq_of_perm keys)
  have final := finalKeysOf_eq_of_perm keys
  have rows : rowAt left' = rowAt left :=
    funext fun key => by rw [rowAt, rowAt, Dict.get?_eq_of_perm distinct same]
  have rows' : rowAt right' = rowAt right := funext fun key => by
    rw [rowAt, rowAt, Dict.get?_eq_of_perm distinct' same']
  refine analyzePairs_eq_ok_iff.mpr ⟨left', right', pairs, baseline, candidate, again, again',
    ⟨analysed.allowed, ?_, ?_, ?_, ?_, ?_⟩, ?_⟩
  · rw [List.toFinset_eq_of_perm _ _ keys, analysed.sameKeys, List.toFinset_eq_of_perm _ _ keys']
  · rintro ⟨case, member, few⟩
    exact analysed.enough ⟨case, (keys.map RunKey.caseId).mem_iff.mp member, repeats ▸ few⟩
  · rw [sortedSet_eq_of_perm keys, final, rows, rows']
    exact analysed.compared
  · rw [final]
    exact arm_of_perm distinct same analysed.baseline
  · rw [final]
    exact arm_of_perm distinct' same' analysed.candidate
  · rw [reportOf, reportOf, final, repeats, same.length_eq,
      sortedSet_eq_of_perm (keys.map RunKey.caseId), (same.map Prod.snd).countP_eq]

/-- The loop reads the rows under the key. -/
theorem comparison_eq_ok_iff {left right : Dict (RunKey Case Repeat Turn) (Row Case Repeat Turn)}
    {finalKeys : Finset (RunKey Case Repeat Turn)} {key : RunKey Case Repeat Turn}
    {pair : PairDelta} :
    (do comparePair options.changed options.requireSamePlan finalKeys key (← rowAt left key)
          (← rowAt right key)) = .ok pair ↔
      ∃ a b, left.get? key = some a ∧ right.get? key = some b ∧
        comparePair options.changed options.requireSamePlan finalKeys key a b = .ok pair := by
  simp only [bind_eq_ok_iff, rowAt_eq_ok_iff]
  constructor
  · rintro ⟨a, first, b, second, ok⟩
    exact ⟨a, b, first, second, ok⟩
  · rintro ⟨a, b, first, second, ok⟩
    exact ⟨a, first, b, second, ok⟩

/-- As many rows of the arms are without a provenance. -/
theorem countP_provenance {left right : Dict (RunKey Case Repeat Turn) (Row Case Repeat Turn)}
    {pairs : List PairDelta} {baseline candidate : ArmSummary} (distinct : left.KeysNodup)
    (distinct' : right.KeysNodup)
    (analysed : Analysed options left right pairs baseline candidate) :
    (right.map Prod.snd).countP (fun row => !row.provenance.isTruthy) =
      (left.map Prod.snd).countP fun row => !row.provenance.isTruthy := by
  rw [countP_values distinct, countP_values distinct',
    (keys_perm_of_analysed distinct distinct' analysed).countP_eq]
  refine List.countP_congr fun key member => ?_
  obtain ⟨pair, -, compared⟩ := exists_of_mapM_eq_ok analysed.compared (mem_sortedSet.mpr member)
  obtain ⟨a, b, first, second, ok⟩ := comparison_eq_ok_iff.mp compared
  rw [first, second, Option.any_some, Option.any_some, sameTruth_of_comparePair ok]

theorem DeltaSummary.of_map_neg (values : List ℚ) :
    DeltaSummary.of (values.map Neg.neg) = (DeltaSummary.of values).negate := by
  rw [DeltaSummary.of, DeltaSummary.of, DeltaSummary.negate, List.length_map, mean_map_neg,
    median_map_neg]

theorem QualitySummary.of_map_neg (deltas : List ℤ) (finalTurns : ℕ) :
    QualitySummary.of (deltas.map Neg.neg) finalTurns =
      (QualitySummary.of deltas finalTurns).negate := by
  have judgements : (deltas.map Neg.neg).map (Int.cast : ℤ → ℚ) =
      (deltas.map Int.cast).map Neg.neg := by
    rw [List.map_map, List.map_map]
    exact List.map_congr_left fun delta _ => Int.cast_neg delta
  rw [QualitySummary.of, QualitySummary.of, QualitySummary.negate, List.length_map, judgements,
    mean_map_neg]

omit [LinearOrder Turn] in
/-- The report on the exchanged differences. -/
theorem reportOf_exchange {left right : Dict (RunKey Case Repeat Turn) (Row Case Repeat Turn)}
    {finalKeys : List (RunKey Case Repeat Turn)} {pairs : List PairDelta}
    {baseline candidate : ArmSummary} (keys : right.keys.Perm left.keys)
    (known : (right.map Prod.snd).countP (fun row => !row.provenance.isTruthy) =
      (left.map Prod.snd).countP fun row => !row.provenance.isTruthy) :
    reportOf right.keys finalKeys right (pairs.map PairDelta.exchange) candidate baseline =
      (reportOf left.keys finalKeys left pairs baseline candidate).exchange := by
  have size : right.length = left.length := by simpa [Dict.keys] using keys.length_eq
  have repeats : repeatsOf right.keys = repeatsOf left.keys := funext (repeatsOf_eq_of_perm keys)
  -- Every difference changes its sign, and with it every quantity of the summaries.
  have latency : (pairs.map PairDelta.exchange).map PairDelta.latency =
      (pairs.map PairDelta.latency).map Neg.neg := by
    rw [List.map_map, List.map_map]
    rfl
  have modelCalls : (pairs.map PairDelta.exchange).map PairDelta.modelCalls =
      (pairs.map PairDelta.modelCalls).map Neg.neg := by
    rw [List.map_map, List.map_map]
    rfl
  have inputTokens : (pairs.map PairDelta.exchange).filterMap PairDelta.inputTokens =
      (pairs.filterMap PairDelta.inputTokens).map Neg.neg := by
    rw [List.filterMap_map, List.map_filterMap]
    rfl
  have quality : (pairs.map PairDelta.exchange).filterMap PairDelta.quality =
      (pairs.filterMap PairDelta.quality).map Neg.neg := by
    rw [List.filterMap_map, List.map_filterMap]
    rfl
  rw [reportOf, size, repeats, sortedSet_eq_of_perm (keys.map RunKey.caseId), known, latency,
    modelCalls, inputTokens, quality, List.foldl_map, List.countP_map, DeltaSummary.of_map_neg,
    DeltaSummary.of_map_neg, DeltaSummary.of_map_neg, QualitySummary.of_map_neg]
  rfl

/-- **The arms exchanged** are analysed if they are, with the exchanged report. -/
theorem analyzePairs_exchange
    (ok : analyzePairs options baselineRows candidateRows baselineArchitecture
      candidateArchitecture = .ok report) :
    analyzePairs options candidateRows baselineRows candidateArchitecture baselineArchitecture =
      .ok report.exchange := by
  obtain ⟨left, right, pairs, baseline, candidate, indexed, indexed', analysed, rfl⟩ :=
    analyzePairs_eq_ok_iff.mp ok
  have distinct := keysNodup_of_index indexed
  have distinct' := keysNodup_of_index indexed'
  have keys := keys_perm_of_analysed distinct distinct' analysed
  have repeats : repeatsOf right.keys = repeatsOf left.keys := funext (repeatsOf_eq_of_perm keys)
  have final := finalKeysOf_eq_of_perm keys
  -- Each check of the analysis is symmetric in the two arms.
  refine analyzePairs_eq_ok_iff.mpr ⟨right, left, pairs.map PairDelta.exchange, candidate, baseline,
    indexed', indexed, ⟨analysed.allowed, analysed.sameKeys.symm, ?_, ?_, ?_, ?_⟩, ?_⟩
  · rintro ⟨case, member, few⟩
    exact analysed.enough ⟨case, (keys.map RunKey.caseId).mem_iff.mp member, repeats ▸ few⟩
  · rw [sortedSet_eq_of_perm keys, final, mapM_eq_ok_iff, List.forall₂_map_right_iff]
    refine (mapM_eq_ok_iff.mp analysed.compared).imp fun key pair compared => ?_
    obtain ⟨a, b, first, second, ok⟩ := comparison_eq_ok_iff.mp compared
    exact comparison_eq_ok_iff.mpr ⟨b, a, second, first, comparePair_exchange ok⟩
  · rw [final]
    exact analysed.candidate
  · rw [final]
    exact analysed.baseline
  · rw [final]
    exact reportOf_exchange keys (countP_provenance distinct distinct' analysed)

theorem map_neg_neg (value : Option ℚ) : (value.map Neg.neg).map Neg.neg = value := by
  cases value <;> simp

omit [LinearOrder Case] in
theorem exchange_exchange (report : PairReport Case) : report.exchange.exchange = report := by
  simp only [PairReport.exchange, DeltaSummary.negate, QualitySummary.negate, map_neg_neg]

theorem toOption_eq_some_iff {ε α : Type*} {x : Except ε α} {value : α} :
    x.toOption = some value ↔ x = .ok value := by
  cases x <;> simp [Except.toOption]

theorem isSome_toOption {ε α : Type*} (x : Except ε α) : x.toOption.isSome = x.isOk := by
  cases x <;> rfl

/-- **Neither the arms nor the order of the rows tell.** -/
theorem pairedLaw (options : PairOptions) (baselineRows candidateRows : List (Row Case Repeat Turn))
    (baselineArchitecture candidateArchitecture : String) :
    PairedLaw options baselineRows candidateRows baselineArchitecture candidateArchitecture := by
  have exchange : (analyzePairs options candidateRows baselineRows candidateArchitecture
      baselineArchitecture).toOption =
      (analyzePairs options baselineRows candidateRows baselineArchitecture
      candidateArchitecture).toOption.map PairReport.exchange := by
    ext report
    rw [toOption_eq_some_iff, Option.map_eq_some_iff]
    simp only [toOption_eq_some_iff]
    constructor
    · intro ok
      exact ⟨report.exchange, analyzePairs_exchange ok, exchange_exchange report⟩
    · rintro ⟨report, ok, rfl⟩
      exact analyzePairs_exchange ok
  constructor
  · have succeeds := congrArg Option.isSome exchange
    rwa [Option.isSome_map, isSome_toOption, isSome_toOption] at succeeds
  · exact exchange
  · intro baselineRows' candidateRows' first second
    ext report
    rw [toOption_eq_some_iff, toOption_eq_some_iff]
    exact ⟨analyzePairs_of_perm first.symm second.symm, analyzePairs_of_perm first second⟩

end Analysis

end AgentLabs.Rag
