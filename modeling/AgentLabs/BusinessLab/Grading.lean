import AgentLabs.BusinessLab.Episodes
import AgentLabs.BusinessLab.Reporting
import AgentLabs.BusinessLab.Totality
import AgentLabs.Math.Fallible

/-!
# The grading of a recording

Each row of a recording is graded by the checks of the evaluation, the check of the episode, a check
that a learner may have written, and a judge. The verdicts are told apart by their names. The check
of the learner must return a verdict with a name of its own, or an error is noted in its place. But
its name is compared with those before it only, and the verdict of the judge comes after it.

## Main definitions

* `Scenario`, `Recording`: a case with its expectations, and the runs that are graded
* `Behaviour`, `Judgement`: what the check of a learner does, and what the judge makes of a run
* `gradeRow`, `gradeRecording`: the grading
* `RowLaw`: what is wanted of the verdicts of a row

## Main results

* `modelValidate_modelDump`: the expectations of a scenario are read as they were written
* `gradeRow_eq_ok_iff`: the verdicts of a row, producer by producer
* `gradingLaw_iff`: when the verdicts of all rows are as wanted
-/

namespace AgentLabs.BusinessLab

open Math Text

/-! ### Scenarios -/

/-- The text of a kind of response. -/
def ResponseKind.name : ResponseKind → String
  | .completed => "completed"
  | .refused => "refused"
  | .clarification => "clarification"
  | .escalated => "escalated"

/-- A case: what the user asks for, and what is expected. -/
structure Scenario where
  scenarioId : String
  input : Request
  followups : List Followup
  expected : Expected
  referenceAnswer : String
  requiredFacts : List String

/-- `expected_output.model_dump()`. -/
def Scenario.modelDump (card : Scenario) : Fields :=
  [("final_state", .obj card.expected.finalState),
    ("forbidden_tools", .arr (card.expected.forbiddenTools.map .str)),
    ("response_kind", .str card.expected.responseKind.name),
    ("max_refund_attempts", .int card.expected.maxRefundAttempts),
    ("required_milestones", .arr (card.expected.requiredMilestones.map fun m => .str m.name)),
    ("reference_answer", .str card.referenceAnswer),
    ("required_facts", .arr (card.requiredFacts.map .str))]

/-! ### The episode -/

/-- A turn is what the scenario has in its place: the request, the kind of the response before a
further input, and no write as long as no order is named. -/
def turnFits (artifact : Artifact) (card : Scenario) (entry : TurnRecord × ℕ) : Bool :=
  let turn := entry.1
  (card.input :: card.followups.map Followup.request)[entry.2]? = some turn.request ∧
    (∀ followup ∈ card.followups[entry.2]?, turn.response.map Response.kind =
    some followup.whenResponse) ∧
    (turn.request.orderId = none → ¬ ∃ event ∈ artifact.events,
      event.tool ∈ writeTools ∧ event.stamp.eventId ∈ turn.eventIds)

/-- `check_episode`. -/
def checkEpisode (artifact : Artifact) (card : Scenario) : Verdict :=
  let turns := artifact.turns
  if turns.any (fun turn => turn.response.isNone) ∨ turns.isEmpty then
    { name := "episode", status := .insufficientEvidence, reason := "턴 응답 근거 누락" }
  else
    let ok := turns.length = card.followups.length + 1 ∧ turns.zipIdx.all (turnFits artifact card)
    { name := "episode", status := if ok then .pass else .fail
      reason := "턴별 입력·추가 질문·대상 확인 전 쓰기·최종 턴 도달을 검사" }

/-! ### The judge -/

/-- What the judge is shown. -/
structure JudgeCase where
  request : Request
  verifiedState : StateSummary
  initialRequest : Option Request
  turns : List TurnRecord
  events : List (String × String × Fields × Json)
  actualOutput : String
  reference : Option (String × List String)

/-- What the judge makes of a run: it raises, it gives no score, or it decides. -/
inductive Judgement where
  | raised (type : String)
  | unscored
  | scored (successful : Bool) (reason : Option String)

/-- The answer and the facts that the judge compares with, if there are any. -/
def Scenario.reference (card : Scenario) : Option (String × List String) :=
  if card.referenceAnswer ≠ "" ∨ card.requiredFacts ≠ [] then
    some (card.referenceAnswer, card.requiredFacts)
  else none

/-- The verdict on what the judge has made of a run. -/
def Judgement.verdict : Judgement → Verdict
  | .raised type => { name := "response_semantics", status := .evaluatorError, reason := type }
  | .unscored => { name := "response_semantics", status := .evaluatorError, reason := "판사 점수 없음" }
  | .scored successful reason =>
    BusinessLab.verdict "response_semantics" successful
      ((reason.filter (· ≠ "")).getD "판정 근거 없음") [] []

/-- `judge_response`. The state is summed up outside of the `try`. -/
def judgeResponse (judge : JudgeCase → Judgement) (artifact : Artifact) (card : Scenario) :
    Except AccessError Verdict :=
  match artifact.response, artifact.finalState with
  | some response, some finalState => do
    let verifiedState ← stateSummary finalState
    let shown :=
      { request := artifact.request, verifiedState, initialRequest := artifact.initialRequest
        turns := artifact.turns
        events := artifact.events.map fun e => (e.stamp.eventId, e.tool, e.args, e.result)
        actualOutput := response.message, reference := card.reference }
    return (judge shown).verdict
  | _, _ => .ok
    { name := "response_semantics", status := .insufficientEvidence, reason := "응답 또는 결과 기록 누락" }

/-! ### Grading -/

/-- What the check of a learner does with an artifact: it returns a verdict or something else, or it
raises an exception. -/
inductive Behaviour where
  | returned (v : Verdict)
  | returnedOther
  | raised (type : String)

/-- The verdict that stands for an exception in the check of the learner. -/
def learnerError (type : String) : Verdict where
  name := "learner_check"
  status := .evaluatorError
  reason := type

/-- What is noted of the check of the learner, after verdicts with these names. -/
def learnerVerdict (names : List String) : Behaviour → Verdict
  | .returned v => if v.name ∈ names then learnerError "ValueError" else v
  | .returnedOther => learnerError "ValueError"
  | .raised type => learnerError type

/-- The verdict of the judge, or what stands for it. -/
def semanticVerdicts (mode : Mode) (judge : Option (JudgeCase → Judgement)) (artifact : Artifact)
    (card : Scenario) : Except AccessError (List Verdict) :=
  match judge, mode with
  | some judge, _ => do return [← judgeResponse judge artifact card]
  | none, .live => .ok
    [{ name := "response_semantics", status := .insufficientEvidence, reason := "Judge 미실행" }]
  | none, .scripted => .ok []

/-- The verdicts of a row. -/
def gradeRow (mode : Mode) (judge : Option (JudgeCase → Judgement))
    (extraCheck : Option (Artifact → Behaviour)) (artifact : Artifact) (card : Scenario) :
    Except AccessError (List Verdict) := do
  let evaluated ← evaluate artifact card.modelDump
  let checks := evaluated ++ [checkEpisode artifact card]
  let added := extraCheck.toList.map fun check =>
    learnerVerdict (checks.map Verdict.name) (check artifact)
  let semantics ← semanticVerdicts mode judge artifact card
  return checks ++ added ++ semantics

/-- A recording, as far as it is graded. -/
structure Recording where
  mode : Mode
  cards : List Scenario
  artifacts : List Artifact

/-- The scenarios by their ids. A later one takes the place of an earlier one. -/
def Recording.cardOf (recording : Recording) : Dict String Scenario :=
  Dict.setAll [] (recording.cards.map fun card => (card.scenarioId, card))

/-- The row of an artifact, with its verdicts. -/
def Recording.gradeArtifact (recording : Recording) (judge : Option (JudgeCase → Judgement))
    (extraCheck : Option (Artifact → Behaviour)) (artifact : Artifact) :
    Except AccessError (Artifact × List Verdict) := do
  let card ← (recording.cardOf.get? artifact.scenarioId).elim (.error .keyError) .ok
  let verdicts ← gradeRow recording.mode judge extraCheck artifact card
  return (artifact, verdicts)

/-- `grade_recording`: the rows with their verdicts. -/
def gradeRecording (recording : Recording) (judge : Option (JudgeCase → Judgement))
    (extraCheck : Option (Artifact → Behaviour)) :
    Except AccessError (List (Artifact × List Verdict)) :=
  recording.artifacts.mapM (recording.gradeArtifact judge extraCheck)

/-! ### What is wanted of a row -/

/-- A row has to have one verdict on the meaning of the response. -/
def Semantic (mode : Mode) (judge : Option (JudgeCase → Judgement)) : Prop :=
  mode = .live ∨ judge.isSome

/-- The verdicts of a row have distinct names, among them those of the checks. -/
structure WellNamed (semantic : Prop) (names : List String) : Prop where
  distinct : names.Nodup
  checks : ∀ name ∈ checkNames ++ ["episode"], names.count name = 1
  semantics : semantic → names.count "response_semantics" = 1

/-- The check of the learner has returned a verdict with a name of its own. -/
def Behaviour.Accepted (names : List String) (behaviour : Behaviour) : Prop :=
  ∃ v, behaviour = .returned v ∧ v.name ∉ names

/-- What is wanted of a row: its verdicts are well named, and a failure in the check of the learner
adds an error to the verdicts there are without it, and does nothing else. -/
structure RowLaw (mode : Mode) (judge : Option (JudgeCase → Judgement))
    (extraCheck : Option (Artifact → Behaviour)) (artifact : Artifact) (card : Scenario)
    (verdicts : List Verdict) : Prop where
  wellNamed : WellNamed (Semantic mode judge) (verdicts.map Verdict.name)
  kept : ∃ before after, gradeRow mode judge none artifact card = .ok (before ++ after) ∧
    ∀ check ∈ extraCheck, ¬ (check artifact).Accepted (before.map Verdict.name) →
      ∃ type, verdicts = before ++ [learnerError type] ++ after

/-! ### The verdicts of a row -/

section Dump

theorem kind?_name (kind : ResponseKind) : Expected.kind? (.str kind.name) = some kind := by
  cases kind <;> rfl

theorem milestone?_name (m : Milestone) : Expected.milestone? m.name = some m := by
  cases m <;> rfl

theorem mapM_eq_some_self {α β : Type} {f : β → Option α} {g : α → β}
    (inverse : ∀ a, f (g a) = some a) (as : List α) : (as.map g).mapM f = some as := by
  induction as with
  | nil => rfl
  | cons a as ih =>
    rw [List.map_cons, List.mapM_cons, inverse, ih]
    rfl

theorem texts?_map_str (texts : List String) :
    Expected.texts? (.arr (texts.map .str)) = some texts :=
  mapM_eq_some_self (f := Json.asStr?) (fun _ => rfl) texts

/-- **The expectations of a scenario** are read as they were written. -/
theorem modelValidate_modelDump (card : Scenario) :
    Expected.modelValidate card.modelDump = some card.expected := by
  have milestones : Expected.texts?
      (.arr (card.expected.requiredMilestones.map fun m => .str m.name)) =
      some (card.expected.requiredMilestones.map Milestone.name) := by
    rw [← texts?_map_str, List.map_map]
    rfl
  have fits : (card.expected.finalState.isEmpty = false ∧
    (0 : ℤ) ≤ card.expected.maxRefundAttempts ∧
      (card.expected.maxRefundAttempts : ℤ) ≤ 2 ∧
      (card.modelDump.all fun entry => entry.1 ∈ Expected.fieldNames)) := by
    refine ⟨List.isEmpty_eq_false_iff.mpr card.expected.finalState_ne, by omega, ?_, ?_⟩
    · have := card.expected.maxRefundAttempts_le
      omega
    · simp [Scenario.modelDump, Expected.fieldNames]
  have required : (card.expected.requiredMilestones.map Milestone.name).mapM Expected.milestone? =
      some card.expected.requiredMilestones := mapM_eq_some_self milestone?_name _
  have finalState : (Dict.get? card.modelDump "final_state").bind Json.asObj? =
      some card.expected.finalState := rfl
  have forbidden : (Dict.get? card.modelDump "forbidden_tools").bind Expected.texts? =
      some card.expected.forbiddenTools := texts?_map_str _
  have kind : (Dict.get? card.modelDump "response_kind").bind Expected.kind? =
      some card.expected.responseKind := kind?_name _
  have attempts : (Dict.get? card.modelDump "max_refund_attempts").bind Json.asInt? =
      some (card.expected.maxRefundAttempts : ℤ) := rfl
  have listed : Expected.texts? ((Dict.get? card.modelDump "required_milestones").getD (.arr [])) =
      some (card.expected.requiredMilestones.map Milestone.name) := milestones
  have answer : ((Dict.get? card.modelDump "reference_answer").getD (.str "")).asStr? =
      some card.referenceAnswer := rfl
  have facts : Expected.texts? ((Dict.get? card.modelDump "required_facts").getD (.arr [])) =
      some card.requiredFacts := texts?_map_str _
  -- Each field is read from its own place of the written record.
  simp only [Expected.modelValidate, finalState, forbidden, kind, attempts, listed, required,
    answer, facts, Option.bind_eq_bind, Option.bind_some, dif_pos fits, Int.toNat_natCast]

end Dump

section Producers

variable {mode : Mode} {judge : Option (JudgeCase → Judgement)}
  {extraCheck : Option (Artifact → Behaviour)}
  {artifact : Artifact} {card : Scenario} {verdicts : List Verdict}

/-- The names that are there before the check of the learner. -/
abbrev namesBefore : List String := checkNames ++ ["episode"]

theorem names_evaluate (ran : evaluate artifact card.modelDump = .ok verdicts) :
    verdicts.map Verdict.name = checkNames := by
  obtain ⟨outcome, ranOutcome, sideEffects, ranEffects, policy, ranPolicy, recovery, ranRecovery,
    milestones, ranMilestones, response, ranResponse, rfl⟩ :=
    (evaluate_eq_ok_iff (modelValidate_modelDump card)).mp ran
  simp only [List.map_cons, List.map_nil, named_checkOutcome outcome ranOutcome,
    named_checkSideEffects sideEffects ranEffects, (after_checkPolicy policy ranPolicy).1,
    (judges_checkRecovery recovery ranRecovery).1,
      (judges_checkMilestones milestones ranMilestones).1,
    named_guardedResponse response ranResponse]
  rfl

theorem name_checkEpisode (artifact : Artifact) (card : Scenario) :
    (checkEpisode artifact card).name = "episode" := by
  unfold checkEpisode
  dsimp only
  split_ifs <;> rfl

theorem name_verdict_judgement (judgement : Judgement) :
    judgement.verdict.name = "response_semantics" := by
  cases judgement <;> rfl

theorem name_judgeResponse {judge : JudgeCase → Judgement} {v : Verdict}
    (ran : judgeResponse judge artifact card = .ok v) : v.name = "response_semantics" := by
  unfold judgeResponse at ran
  split at ran
  · obtain ⟨state, -, same⟩ := bind_eq_ok_iff.mp ran
    cases same
    exact name_verdict_judgement _
  · cases ran
    rfl

/-- The judge gives one verdict, or what stands for it, where there has to be one. -/
theorem names_semanticVerdicts (ran : semanticVerdicts mode judge artifact card = .ok verdicts) :
    (Semantic mode judge → verdicts.map Verdict.name = ["response_semantics"]) ∧
      (¬ Semantic mode judge → verdicts = []) := by
  cases judge with
  | some judge =>
    obtain ⟨v, judged, same⟩ := bind_eq_ok_iff.mp ran
    cases same
    exact ⟨fun _ => congrArg (fun name => [name]) (name_judgeResponse judged), fun other =>
      absurd (.inr rfl) other⟩
  | none =>
    cases mode with
    | live =>
      cases ran
      exact ⟨fun _ => rfl, fun other => absurd (.inl rfl) other⟩
    | scripted =>
      cases ran
      exact ⟨fun semantic => by simp [Semantic] at semantic, fun _ => rfl⟩

/-- **The verdicts of a row**, producer by producer. -/
theorem gradeRow_eq_ok_iff : gradeRow mode judge extraCheck artifact card = .ok verdicts ↔
    ∃ evaluated, evaluate artifact card.modelDump = .ok evaluated ∧
      ∃ semantics, semanticVerdicts mode judge artifact card = .ok semantics ∧
        verdicts = evaluated ++ [checkEpisode artifact card] ++
          (extraCheck.toList.map fun check => learnerVerdict namesBefore (check artifact)) ++
          semantics := by
  simp only [gradeRow, bind_eq_ok_iff]
  refine exists_congr fun evaluated => and_congr_right fun ran => exists_congr fun semantics =>
    and_congr_right fun _ => ?_
  rw [List.map_append, names_evaluate ran, List.map_singleton, name_checkEpisode]
  exact ⟨fun same => (Except.ok.inj same).symm, fun same => congrArg _ same.symm⟩

theorem notMem_name_learnerVerdict (behaviour : Behaviour) :
    (learnerVerdict namesBefore behaviour).name ∉ namesBefore := by
  have error : ∀ type, (learnerError type).name ∉ namesBefore := fun type => by
    simp [learnerError, checkNames]
  cases behaviour with
  | returned v =>
    rw [learnerVerdict]
    split_ifs with taken
    · exact error "ValueError"
    · exact taken
  | returnedOther => exact error "ValueError"
  | raised type => exact error type

/-- The check of the learner takes the name of the judge's verdict only if its own verdict has
it. -/
theorem name_learnerVerdict_eq_iff (behaviour : Behaviour) :
    (learnerVerdict namesBefore behaviour).name = "response_semantics" ↔
      ∃ v, behaviour = .returned v ∧ v.name = "response_semantics" := by
  cases behaviour with
  | returned v =>
    simp only [Behaviour.returned.injEq, exists_eq_left', learnerVerdict]
    split_ifs with taken
    · refine iff_of_false (by simp [learnerError]) fun same => ?_
      rw [same] at taken
      simp [checkNames] at taken
    · exact Iff.rfl
  | returnedOther => simp [learnerVerdict, learnerError]
  | raised type => simp [learnerVerdict, learnerError]

/-- A failure is noted as an error. -/
theorem learnerVerdict_of_not_accepted {names : List String} {behaviour : Behaviour}
    (failed : ¬ behaviour.Accepted names) :
    ∃ type, learnerVerdict names behaviour = learnerError type := by
  cases behaviour with
  | returned v =>
    rw [learnerVerdict, if_pos]
    · exact ⟨_, rfl⟩
    · exact not_not.mp fun fresh => failed ⟨v, rfl, fresh⟩
  | returnedOther => exact ⟨_, rfl⟩
  | raised type => exact ⟨type, rfl⟩

/-- Names added to those of the checks, before that of the judge. -/
theorem wellNamed_iff {semantic : Prop} {added after : List String}
    (fresh : ∀ name ∈ added, name ∉ namesBefore)
    (distinct : added.Nodup) (asked : semantic → after = ["response_semantics"])
    (other : ¬ semantic → after = []) :
    WellNamed semantic (namesBefore ++ added ++ after) ↔
      (semantic → "response_semantics" ∉ added) := by
  have before : namesBefore.Nodup := by decide
  have joined : (namesBefore ++ added).Nodup :=
    List.nodup_append'.mpr ⟨before, distinct, fun name inside listed => fresh name listed inside⟩
  have absent : "response_semantics" ∉ namesBefore := by decide
  constructor
  · rintro ⟨nodup, -, -⟩ semantic taken
    rw [asked semantic] at nodup
    exact (List.nodup_append'.mp nodup).2.2 (List.mem_append_right _ taken) (.head _)
  · intro free
    have all : (namesBefore ++ added ++ after).Nodup := by
      -- Only with the judge is its name added at the end.
      by_cases semantic
      · rename_i semantic
        rw [asked semantic]
        refine List.nodup_append'.mpr ⟨joined, List.nodup_singleton _, fun name inside listed => ?_⟩
        rw [List.mem_singleton.mp listed] at inside
        exact (List.mem_append.mp inside).elim absent (free semantic)
      · rename_i scripted
        rw [other scripted, List.append_nil]
        exact joined
    refine ⟨all, fun name listed => ?_, fun semantic => ?_⟩
    · exact List.count_eq_one_of_mem all (List.mem_append_left _ (List.mem_append_left _ listed))
    · refine List.count_eq_one_of_mem all (List.mem_append_right _ ?_)
      rw [asked semantic]
      exact .head _

theorem names_before (ran : evaluate artifact card.modelDump = .ok verdicts) :
    (verdicts ++ [checkEpisode artifact card]).map Verdict.name = namesBefore := by
  rw [List.map_append, names_evaluate ran, List.map_singleton, name_checkEpisode]

/-- A failure in the check of the learner adds an error and does nothing else. -/
theorem kept_of_gradeRow (graded : gradeRow mode judge extraCheck artifact card = .ok verdicts) :
    ∃ before after, gradeRow mode judge none artifact card = .ok (before ++ after) ∧
      ∀ check ∈ extraCheck, ¬ (check artifact).Accepted (before.map Verdict.name) →
        ∃ type, verdicts = before ++ [learnerError type] ++ after := by
  obtain ⟨evaluated, ran, semantics, judged, rfl⟩ := gradeRow_eq_ok_iff.mp graded
  refine ⟨evaluated ++ [checkEpisode artifact card], semantics, ?_, fun check given failed => ?_⟩
  · apply gradeRow_eq_ok_iff.mpr
    refine ⟨evaluated, ran, semantics, judged, ?_⟩
    rw [Option.toList_none, List.map_nil, List.append_nil]
  · rw [names_before ran] at failed
    obtain ⟨type, noted⟩ := learnerVerdict_of_not_accepted failed
    cases given
    exact ⟨type, by rw [Option.toList_some, List.map_singleton, noted]⟩

/-- The verdicts of a row are as wanted if the check of the learner does not take the name of the
judge's. -/
theorem rowLaw_iff (graded : gradeRow mode judge extraCheck artifact card = .ok verdicts) :
    RowLaw mode judge extraCheck artifact card verdicts ↔ (Semantic mode judge →
      ∀ check ∈ extraCheck, ∀ v, check artifact = .returned v → v.name ≠ "response_semantics") := by
  have law : RowLaw mode judge extraCheck artifact card verdicts ↔
      WellNamed (Semantic mode judge) (verdicts.map Verdict.name) :=
    ⟨RowLaw.wellNamed, fun named => ⟨named, kept_of_gradeRow graded⟩⟩
  obtain ⟨evaluated, ran, semantics, judged, same⟩ := gradeRow_eq_ok_iff.mp graded
  obtain ⟨asked, other⟩ := names_semanticVerdicts judged
  rw [law, same, List.map_append, List.map_append, names_before ran]
  cases extraCheck with
  | none =>
    rw [wellNamed_iff (by simp) (by simp) asked fun none =>
      congrArg (List.map Verdict.name) (other none)]
    simp
  | some check =>
    have fresh := notMem_name_learnerVerdict (check artifact)
    rw [wellNamed_iff (by simpa using fresh) (by simp) asked fun none =>
      congrArg (List.map Verdict.name) (other none)]
    refine imp_congr_right fun _ => ?_
    simp only [Option.toList_some, List.map_cons, List.map_nil, List.mem_singleton,
      eq_comm (a := "response_semantics"), name_learnerVerdict_eq_iff, not_exists, not_and,
      Option.mem_def, Option.some.injEq, forall_eq']

/-- Whether a row is graded does not depend on the check of the learner. -/
theorem exists_gradeRow_iff :
    (∃ verdicts, gradeRow mode judge extraCheck artifact card = .ok verdicts) ↔
    ∃ verdicts, gradeRow mode judge none artifact card = .ok verdicts := by
  simp only [gradeRow_eq_ok_iff]
  constructor
  · rintro ⟨_, evaluated, ran, semantics, judged, -⟩
    exact ⟨_, evaluated, ran, semantics, judged, rfl⟩
  · rintro ⟨_, evaluated, ran, semantics, judged, -⟩
    exact ⟨_, evaluated, ran, semantics, judged, rfl⟩

end Producers

/-! ### The rows of a recording -/

section Rows

variable {recording : Recording} {judge : Option (JudgeCase → Judgement)}
  {extraCheck : Option (Artifact → Behaviour)} {rows : List (Artifact × List Verdict)}

/-- What is wanted of a graded recording: it has all rows, and each of them as wanted. -/
structure GradingLaw (recording : Recording) (judge : Option (JudgeCase → Judgement))
    (extraCheck : Option (Artifact → Behaviour)) (rows : List (Artifact × List Verdict)) :
    Prop where
  artifacts : rows.map Prod.fst = recording.artifacts
  rows : ∀ row ∈ rows, ∃ card, recording.cardOf.get? row.1.scenarioId = some card ∧
    RowLaw recording.mode judge extraCheck row.1 card row.2

/-- The check of the learner never takes the name of the judge's verdict, if there is to be one. -/
def LearnerApart (recording : Recording) (judge : Option (JudgeCase → Judgement))
    (extraCheck : Option (Artifact → Behaviour)) : Prop :=
  Semantic recording.mode judge → ∀ artifact ∈ recording.artifacts, ∀ check ∈ extraCheck, ∀ v,
    check artifact = .returned v → v.name ≠ "response_semantics"

theorem gradeArtifact_eq_ok_iff {artifact : Artifact} {row : Artifact × List Verdict} :
    recording.gradeArtifact judge extraCheck artifact = .ok row ↔ row.1 = artifact ∧
      ∃ card, recording.cardOf.get? artifact.scenarioId = some card ∧
        gradeRow recording.mode judge extraCheck artifact card = .ok row.2 := by
  rw [Recording.gradeArtifact]
  cases recording.cardOf.get? artifact.scenarioId with
  | none =>
    refine iff_of_false ?_ fun ⟨_, card, found, _⟩ => by cases found
    rw [Option.elim_none]
    exact fun same => by cases same
  | some card =>
    simp only [Option.elim_some, ok_bind, bind_eq_ok_iff, Option.some.injEq, exists_eq_left']
    constructor
    · rintro ⟨verdicts, graded, same⟩
      cases same
      exact ⟨rfl, graded⟩
    · rintro ⟨rfl, graded⟩
      exact ⟨row.2, graded, rfl⟩

/-- Whether a recording is graded does not depend on the check of the learner. -/
theorem exists_gradeRecording_iff : (∃ rows, gradeRecording recording judge extraCheck = .ok rows) ↔
    ∃ rows, gradeRecording recording judge none = .ok rows := by
  rw [gradeRecording, gradeRecording, exists_mapM_eq_ok_iff, exists_mapM_eq_ok_iff]
  apply forall₂_congr
  intro artifact _
  simp only [gradeArtifact_eq_ok_iff, Prod.exists]
  constructor
  · rintro ⟨_, _, rfl, card, found, graded⟩
    obtain ⟨verdicts, graded⟩ := exists_gradeRow_iff.mp ⟨_, graded⟩
    exact ⟨_, verdicts, rfl, card, found, graded⟩
  · rintro ⟨_, _, rfl, card, found, graded⟩
    obtain ⟨verdicts, graded⟩ := exists_gradeRow_iff.mpr ⟨_, graded⟩
    exact ⟨_, verdicts, rfl, card, found, graded⟩

theorem map_fst_of_gradeRecording (graded : gradeRecording recording judge extraCheck = .ok rows) :
    rows.map Prod.fst = recording.artifacts := by
  have each : List.Forall₂ (fun artifact row => artifact = row.1) recording.artifacts rows :=
    (mapM_eq_ok_iff.mp graded).imp fun artifact row ran => (gradeArtifact_eq_ok_iff.mp ran).1.symm
  rw [← List.forall₂_map_right_iff (R := Eq), List.forall₂_eq_eq_eq] at each
  exact each.symm

/-- **The rows of a graded recording are as wanted** if and only if the check of the learner does
not take the name of the judge's verdict. Whether the recording is graded at all does not depend on
it. -/
theorem gradingLaw_iff (recording : Recording) (judge : Option (JudgeCase → Judgement))
    (extraCheck : Option (Artifact → Behaviour)) :
    ((∃ rows, gradeRecording recording judge extraCheck = .ok rows) ↔
      ∃ rows, gradeRecording recording judge none = .ok rows) ∧
    ∀ rows, gradeRecording recording judge extraCheck = .ok rows →
      (GradingLaw recording judge extraCheck rows ↔ LearnerApart recording judge extraCheck) := by
  refine ⟨exists_gradeRecording_iff, fun rows graded => ?_⟩
  -- Each row was graded with the card of its own scenario.
  have each : ∀ row ∈ rows, ∃ card, recording.cardOf.get? row.1.scenarioId = some card ∧
      gradeRow recording.mode judge extraCheck row.1 card = .ok row.2 := by
    intro row listed
    obtain ⟨artifact, -, ran⟩ := exists_of_mem_of_mapM_eq_ok graded listed
    obtain ⟨rfl, found⟩ := gradeArtifact_eq_ok_iff.mp ran
    exact found
  have artifacts := map_fst_of_gradeRecording graded
  constructor
  · intro law semantic artifact member
    rw [← artifacts] at member
    obtain ⟨row, listed, rfl⟩ := List.mem_map.mp member
    obtain ⟨card, found, rowLaw⟩ := law.rows row listed
    obtain ⟨card', found', ran⟩ := each row listed
    cases found.symm.trans found'
    exact (rowLaw_iff ran).mp rowLaw semantic
  · intro apart
    refine ⟨artifacts, fun row listed => ?_⟩
    obtain ⟨card, found, ran⟩ := each row listed
    have member : row.1 ∈ recording.artifacts := artifacts ▸ List.mem_map_of_mem listed
    exact ⟨card, found, (rowLaw_iff ran).mpr fun semantic => apart semantic row.1 member⟩

end Rows

/-! ### A learner's check of the response -/

/-- A cancellation is refused. -/
def refusedCase : Scenario where
  scenarioId := "cancel"
  input := cancelRequest
  followups := []
  expected :=
    { finalState := [("order_status", .str "paid")], forbiddenTools := [], responseKind := .refused
      maxRefundAttempts := 1, finalState_ne := List.cons_ne_nil _ _, maxRefundAttempts_le :=
        Nat.le_succ 1 }
  referenceAnswer := ""
  requiredFacts := []

/-- A live recording of one run. -/
def oneRun : Recording where
  mode := .live
  cards := [refusedCase]
  artifacts := [endedWith (.obj [])]

/-- A check that passes under this name. -/
def passesAs (name : String) (_ : Artifact) : Behaviour :=
  .returned { name, status := .pass, reason := "" }

theorem graded_oneRun (name : String) :
    ∃ rows, gradeRecording oneRun none (some (passesAs name)) = .ok rows :=
  exists_gradeRecording_iff.mpr ⟨_, rfl⟩

theorem gradingLaw_iff_tone :
    ∃ rows, gradeRecording oneRun none (some (passesAs "tone")) = .ok rows ∧
    GradingLaw oneRun none (some (passesAs "tone")) rows := by
  obtain ⟨rows, graded⟩ := graded_oneRun "tone"
  refine ⟨rows, graded, ((gradingLaw_iff oneRun none (some (passesAs "tone"))).2 rows
    graded).mpr ?_⟩
  rintro - artifact - check given v returned
  cases given
  cases returned
  decide

/-- The check may take the name of the judge's verdict, and then the row has two of them. -/
theorem not_gradingLaw_semantics : ∃ rows,
    gradeRecording oneRun none (some (passesAs "response_semantics")) = .ok rows ∧
      ¬ GradingLaw oneRun none (some (passesAs "response_semantics")) rows := by
  obtain ⟨rows, graded⟩ := graded_oneRun "response_semantics"
  refine ⟨rows, graded, fun law => ?_⟩
  have first : endedWith (.obj []) ∈ rows.map Prod.fst := law.artifacts ▸ List.mem_singleton_self _
  obtain ⟨row, listed, -⟩ := List.mem_map.mp first
  obtain ⟨card, found, rowLaw⟩ := law.rows row listed
  obtain ⟨artifact, -, ran⟩ := exists_of_mem_of_mapM_eq_ok graded listed
  obtain ⟨rfl, card', found', graded'⟩ := gradeArtifact_eq_ok_iff.mp ran
  cases found.symm.trans found'
  exact (rowLaw_iff graded').mp rowLaw (.inl rfl) _ rfl _ rfl rfl

end AgentLabs.BusinessLab
