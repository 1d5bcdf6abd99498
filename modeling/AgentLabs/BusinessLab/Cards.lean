import AgentLabs.BusinessLab.Grading
import AgentLabs.Text.JsonSorted
import AgentLabs.Text.PythonStr

/-!
# Review cards

A card is a scenario with the record of its review. It is read from a value, and the read is strict:
every field has its type, and there is no other field. The instructor's cards come in a file with
both splits, and no family of cases is in both.

## Main definitions

* `Metadata`, `Card`: the record of a review, and a card
* `Card.modelValidate`, `Card.modelDump`: cards and values
* `Card.meaning`: a card without request ids and metadata
* `loadDataset`: the instructor's cards of a split

## Main results

* `reads_of_modelValidate`: what a valid card says is what its value said
* `spelled_modelDump`: the value of a card can be written
-/

namespace AgentLabs.BusinessLab

open Math Text

/-! ### Cards -/

/-- The splits of a dataset. -/
inductive DataSplit where
  | dev
  | holdout
  deriving DecidableEq, Repr

/-- How a split is spelled. -/
def DataSplit.name : DataSplit → String
  | .dev => "dev"
  | .holdout => "holdout"

/-- What a review has come to. -/
inductive ReviewStatus where
  | approved
  | pending
  | rejected
  deriving DecidableEq, Repr

/-- How the status of a review is spelled. -/
def ReviewStatus.name : ReviewStatus → String
  | .approved => "approved"
  | .pending => "pending"
  | .rejected => "rejected"

/-- The record of a review, but for the id of the scenario. -/
structure Metadata where
  familyId : String
  slice : String
  split : DataSplit
  source : String
  policyVersion : String
  reviewStatus : ReviewStatus
  reviewer : String
  reviewReason : String
  sourceTraceId : Option String
  sourceArtifactId : Option String
  sanitizationRecord : Option String

/-- A scenario with its fixture and the record of its review. -/
structure Card extends Scenario where
  fixtureId : String
  metadata : Metadata
  maxTurns : ℕ
  maxTurns_le : maxTurns ≤ 3
  followups_lt : followups.length < maxTurns
  sameRequest : ∀ followup ∈ followups, followup.request.requestId = input.requestId

/-! ### Values -/

/-- A text or nothing. -/
def optionalText : Option String → Json
  | none => .null
  | some text => .str text

/-- `Request.model_dump()` without the id. -/
def Request.saying (request : Request) : Fields :=
  [("message", .str request.message), ("order_id", optionalText request.orderId)]

/-- `Request.model_dump()`. -/
def Request.modelDump (request : Request) : Json :=
  .obj (request.saying ++ [("request_id", .str request.requestId)])

/-- `Followup.model_dump()`, given the value of the request. -/
def Followup.dumpWith (followup : Followup) (request : Json) : Json :=
  .obj [("when_response", .str followup.whenResponse.name), ("request", request)]

/-- `Metadata.model_dump()`. -/
def Card.metadataDump (card : Card) : Fields :=
  [("scenario_id", .str card.scenarioId), ("family_id", .str card.metadata.familyId),
    ("slice", .str card.metadata.slice), ("split", .str card.metadata.split.name),
    ("source", .str card.metadata.source), ("policy_version", .str card.metadata.policyVersion),
    ("review_status", .str card.metadata.reviewStatus.name),
      ("reviewer", .str card.metadata.reviewer),
    ("review_reason", .str card.metadata.reviewReason),
    ("source_trace_id", optionalText card.metadata.sourceTraceId),
    ("source_artifact_id", optionalText card.metadata.sourceArtifactId),
    ("sanitization_record", optionalText card.metadata.sanitizationRecord)]

/-- `Scenario.model_dump()`. -/
def Card.modelDump (card : Card) : Json :=
  .obj
    [("input", card.input.modelDump), ("fixture_id", .str card.fixtureId),
      ("expected_output", .obj card.toScenario.modelDump), ("metadata", .obj card.metadataDump),
      ("followups", .arr (card.followups.map fun f => f.dumpWith f.request.modelDump)),
      ("max_turns", .int card.maxTurns)]

/-- `meaning`: the card without its metadata and without the ids of its requests. -/
def Card.meaning (card : Card) : Json :=
  .obj
    [("input", .obj card.input.saying), ("fixture_id", .str card.fixtureId),
      ("expected_output", .obj card.toScenario.modelDump),
      ("followups", .arr (card.followups.map fun f => f.dumpWith (.obj f.request.saying))),
      ("max_turns", .int card.maxTurns)]

/-! ### Validation -/

/-- The text of a field. -/
def text? (fields : Fields) (key : String) : Option String := (fields.get? key).bind Json.asStr?

/-- The text of a value that may be missing. -/
def optionalText? : Json → Option (Option String)
  | .null => some none
  | .str text => some (some text)
  | _ => none

/-- The items of a list. -/
def items? : Json → Option (List Json)
  | .arr items => some items
  | _ => none

/-- `Request.model_validate`. -/
def Request.modelValidate (raw : Json) : Option Request := do
  let fields ← raw.asObj?
  let message ← text? fields "message"
  let orderId ← (fields.get? "order_id").bind optionalText?
  let requestId ← text? fields "request_id"
  if fits : message ≠ "" ∧ requestId ≠ "" ∧
      fields.all fun entry => entry.1 ∈ ["message", "order_id", "request_id"] then
    some { message, orderId, requestId, message_ne := fits.1, requestId_ne := fits.2.1 }
  else none

/-- `Followup.model_validate`. -/
def Followup.modelValidate (raw : Json) : Option Followup := do
  let fields ← raw.asObj?
  let when ← ((fields.get? "when_response").getD (.str "clarification")).asStr?
  let request ← (fields.get? "request").bind Request.modelValidate
  if when = "clarification" ∧ fields.all fun entry => entry.1 ∈ ["when_response", "request"] then
    some { request }
  else none

/-- The split that a text names. -/
def split? : String → Option DataSplit
  | "dev" => some .dev
  | "holdout" => some .holdout
  | _ => none

/-- The status that a text names. -/
def reviewStatus? : String → Option ReviewStatus
  | "approved" => some .approved
  | "pending" => some .pending
  | "rejected" => some .rejected
  | _ => none

/-- The names of the fields of a record. -/
def metadataNames : List String :=
  ["scenario_id", "family_id", "slice", "split", "source", "policy_version", "review_status",
    "reviewer", "review_reason", "source_trace_id", "source_artifact_id", "sanitization_record"]

/-- `Metadata.model_validate`: the id of the scenario, and the rest of the record. -/
def Metadata.modelValidate (raw : Json) : Option (String × Metadata) := do
  let fields ← raw.asObj?
  let scenarioId ← text? fields "scenario_id"
  let familyId ← text? fields "family_id"
  let slice ← text? fields "slice"
  let split ← (text? fields "split").bind split?
  let source ← text? fields "source"
  let policyVersion ← text? fields "policy_version"
  let reviewStatus ← (text? fields "review_status").bind reviewStatus?
  let reviewer ← text? fields "reviewer"
  let reviewReason ← text? fields "review_reason"
  let sourceTraceId ← optionalText? ((fields.get? "source_trace_id").getD .null)
  let sourceArtifactId ← optionalText? ((fields.get? "source_artifact_id").getD .null)
  let sanitizationRecord ← optionalText? ((fields.get? "sanitization_record").getD .null)
  if fields.all fun entry => entry.1 ∈ metadataNames then
    some (scenarioId,
      { familyId, slice, split, source, policyVersion, reviewStatus, reviewer, reviewReason
        sourceTraceId, sourceArtifactId, sanitizationRecord })
  else none

/-- `Expected.model_validate`, with the answer and the facts that are for the judge. -/
def outputValidate (raw : Json) : Option (Expected × String × List String) := do
  let output ← raw.asObj?
  let expected ← Expected.modelValidate output
  let referenceAnswer ← ((output.get? "reference_answer").getD (.str "")).asStr?
  let requiredFacts ← Expected.texts? ((output.get? "required_facts").getD (.arr []))
  return (expected, referenceAnswer, requiredFacts)

/-- The names of the fields of a card. -/
def cardNames : List String :=
  ["input", "fixture_id", "expected_output", "metadata", "followups", "max_turns"]

/-- `Scenario.model_validate`. -/
def Card.modelValidate (raw : Json) : Option Card := do
  let fields ← raw.asObj?
  let input ← (fields.get? "input").bind Request.modelValidate
  let fixtureId ← text? fields "fixture_id"
  let (expected, referenceAnswer, requiredFacts) ← (fields.get? "expected_output").bind
      outputValidate
  let (scenarioId, metadata) ← (fields.get? "metadata").bind Metadata.modelValidate
  let followups ← items? ((fields.get? "followups").getD (.arr []))
  let followups ← followups.mapM Followup.modelValidate
  let maxTurns ← ((fields.get? "max_turns").getD (.int 1)).asInt?
  if fits : maxTurns ≤ 3 ∧ (followups.length : ℤ) < maxTurns ∧
      (∀ followup ∈ followups, followup.request.requestId = input.requestId) ∧
      fields.all fun entry => entry.1 ∈ cardNames then
    some
      { scenarioId, input, followups, expected, referenceAnswer, requiredFacts, fixtureId, metadata
        maxTurns := maxTurns.toNat
        maxTurns_le := by omega
        followups_lt := by omega
        sameRequest := fits.2.2.1 }
  else none

/-! ### The instructor's cards -/

/-- What can go wrong: a text is no value, a value is not there or of another shape, a card is not
valid, or a check fails. -/
inductive FreezeError where
  | decode
  | access (e : AccessError)
  | validation
  | value (message : String)
  deriving DecidableEq, Repr

/-- A read of a value. -/
def reading {α : Type} (x : Except AccessError α) : Except FreezeError α := x.mapError .access

/-- `Scenario.model_validate(raw)`, which raises. -/
def validated (raw : Json) : Except FreezeError Card :=
  (Card.modelValidate raw).elim (.error .validation) .ok

/-- The ids and the families of the cards so far: no id again, and no family in the other split. -/
def familyStep (seen : List String × Dict String DataSplit) (card : Card) :
    Except FreezeError (List String × Dict String DataSplit) :=
  if card.scenarioId ∈ seen.1 then .error (.value ("중복 scenario_id: " ++ card.scenarioId))
  else if ∃ split ∈ seen.2.get? card.metadata.familyId, split ≠ card.metadata.split then
    .error (.value "같은 family_id가 dev와 holdout에 걸쳐 있습니다.")
  else .ok (card.scenarioId :: seen.1, seen.2.set card.metadata.familyId card.metadata.split)

/-- The checks of an instructor's card of the split. -/
def checkReviewed (card : Card) : Except FreezeError Unit :=
  if card.metadata.reviewStatus ≠ .approved ∨
      [card.metadata.reviewer, card.metadata.source, card.metadata.reviewReason].any isBlank then
    .error (.value ("검수가 끝나지 않은 시나리오: " ++ card.scenarioId))
  else if card.metadata.policyVersion ≠ policyVersion then
    .error (.value "시나리오와 도구 정책 버전이 다릅니다.")
  else .ok ()

/-- `load_dataset`, given what the file holds. -/
def loadDataset (file : Json) (split : DataSplit) : Except FreezeError (List Card) := do
  let rows ← reading file.elements
  let cards ← rows.mapM validated
  let _ ← cards.foldlM familyStep ([], [])
  let selected := cards.filter fun card => card.metadata.split = split
  if selected = [] then throw (.value "선택한 분할에 시나리오가 없습니다.")
  selected.forM checkReviewed
  return selected

/-! ### What a valid card says -/

section Reads

variable {raw : Json} {card : Card} {fields : Fields} {key text : String}

theorem text?_eq_some_iff : text? fields key = some text ↔ fields.get? key = some (.str text) := by
  rw [text?, Option.bind_eq_some_iff]
  simp only [Json.asStr?_eq_some_iff, exists_eq_right]

theorem asObj?_eq_some_iff {value : Json} : value.asObj? = some fields ↔ value = .obj fields := by
  cases value <;> simp [Json.asObj?]

theorem name_of_split? {split : DataSplit} (named : split? text = some split) :
    text = split.name := by
  unfold split? at named
  split at named <;> cases named <;> rfl

/-- The ids and the split of a record are those that it names. -/
theorem reads_of_metadata {record : Json} {scenarioId : String} {metadata : Metadata}
    (valid : Metadata.modelValidate record = some (scenarioId, metadata)) :
    ∃ fields : Fields, record = .obj fields ∧
      fields.get? "scenario_id" = some (.str scenarioId) ∧
      fields.get? "family_id" = some (.str metadata.familyId) ∧
      fields.get? "split" = some (.str metadata.split.name) := by
  unfold Metadata.modelValidate at valid
  obtain ⟨fields, isObj, valid⟩ := Option.bind_eq_some_iff.mp valid
  obtain ⟨scenarioId, scenario, valid⟩ := Option.bind_eq_some_iff.mp valid
  obtain ⟨familyId, family, valid⟩ := Option.bind_eq_some_iff.mp valid
  obtain ⟨slice, -, valid⟩ := Option.bind_eq_some_iff.mp valid
  obtain ⟨split, named, valid⟩ := Option.bind_eq_some_iff.mp valid
  obtain ⟨source, -, valid⟩ := Option.bind_eq_some_iff.mp valid
  obtain ⟨policyVersion, -, valid⟩ := Option.bind_eq_some_iff.mp valid
  obtain ⟨reviewStatus, -, valid⟩ := Option.bind_eq_some_iff.mp valid
  obtain ⟨reviewer, -, valid⟩ := Option.bind_eq_some_iff.mp valid
  obtain ⟨reviewReason, -, valid⟩ := Option.bind_eq_some_iff.mp valid
  obtain ⟨trace, -, valid⟩ := Option.bind_eq_some_iff.mp valid
  obtain ⟨artifact, -, valid⟩ := Option.bind_eq_some_iff.mp valid
  obtain ⟨sanitization, -, valid⟩ := Option.bind_eq_some_iff.mp valid
  obtain ⟨text, listed, named⟩ := Option.bind_eq_some_iff.mp named
  split_ifs at valid
  cases valid
  exact ⟨fields, asObj?_eq_some_iff.mp isObj, text?_eq_some_iff.mp scenario,
    text?_eq_some_iff.mp family, name_of_split? named ▸ text?_eq_some_iff.mp listed⟩

/-- The final state that is expected is a field of what was read. -/
theorem finalState_of_expected {expected : Expected}
    (valid : Expected.modelValidate fields = some expected) :
    fields.get? "final_state" = some (.obj expected.finalState) := by
  unfold Expected.modelValidate at valid
  obtain ⟨finalState, listed, valid⟩ := Option.bind_eq_some_iff.mp valid
  obtain ⟨forbidden, -, valid⟩ := Option.bind_eq_some_iff.mp valid
  obtain ⟨kind, -, valid⟩ := Option.bind_eq_some_iff.mp valid
  obtain ⟨attempts, -, valid⟩ := Option.bind_eq_some_iff.mp valid
  obtain ⟨required, -, valid⟩ := Option.bind_eq_some_iff.mp valid
  obtain ⟨milestones, -, valid⟩ := Option.bind_eq_some_iff.mp valid
  obtain ⟨answer, -, valid⟩ := Option.bind_eq_some_iff.mp valid
  obtain ⟨facts, -, valid⟩ := Option.bind_eq_some_iff.mp valid
  obtain ⟨value, found, isObj⟩ := Option.bind_eq_some_iff.mp listed
  split_ifs at valid
  cases valid
  rw [found, asObj?_eq_some_iff.mp isObj]

theorem reads_of_output {value : Json} {expected : Expected} {answer : String} {facts : List String}
    (read : outputValidate value = some (expected, answer, facts)) :
    ∃ output, value = .obj output ∧ Expected.modelValidate output = some expected := by
  simp only [outputValidate, Option.bind_eq_bind, Option.bind_eq_some_iff,
    asObj?_eq_some_iff] at read
  obtain ⟨output, rfl, expected', valid, answer', -, facts', -, same⟩ := read
  cases same
  exact ⟨output, rfl, valid⟩

/-- What a card says of itself was in its value. -/
structure ReadFrom (raw : Json) (card : Card) (fields record output : Fields) : Prop where
  isObj : raw = .obj fields
  record_get : fields.get? "metadata" = some (.obj record)
  scenarioId : record.get? "scenario_id" = some (.str card.scenarioId)
  familyId : record.get? "family_id" = some (.str card.metadata.familyId)
  split : record.get? "split" = some (.str card.metadata.split.name)
  output_get : fields.get? "expected_output" = some (.obj output)
  finalState : output.get? "final_state" = some (.obj card.expected.finalState)

/-- **A valid card** says what its value said. -/
theorem reads_of_modelValidate (valid : Card.modelValidate raw = some card) :
    ∃ fields record output, ReadFrom raw card fields record output := by
  unfold Card.modelValidate at valid
  obtain ⟨fields, isObj, valid⟩ := Option.bind_eq_some_iff.mp valid
  obtain ⟨input, -, valid⟩ := Option.bind_eq_some_iff.mp valid
  obtain ⟨fixtureId, -, valid⟩ := Option.bind_eq_some_iff.mp valid
  obtain ⟨⟨expected, answer, facts⟩, read, valid⟩ := Option.bind_eq_some_iff.mp valid
  obtain ⟨⟨scenarioId, metadata⟩, recorded, valid⟩ := Option.bind_eq_some_iff.mp valid
  obtain ⟨listed, -, valid⟩ := Option.bind_eq_some_iff.mp valid
  obtain ⟨followups, -, valid⟩ := Option.bind_eq_some_iff.mp valid
  obtain ⟨maxTurns, -, valid⟩ := Option.bind_eq_some_iff.mp valid
  obtain ⟨value, outputGet, read⟩ := Option.bind_eq_some_iff.mp read
  obtain ⟨output, rfl, validated⟩ := reads_of_output read
  obtain ⟨value', recordGet, recorded⟩ := Option.bind_eq_some_iff.mp recorded
  obtain ⟨record, rfl, scenario, family, split⟩ := reads_of_metadata recorded
  split_ifs at valid
  cases valid
  exact ⟨fields, record, output, asObj?_eq_some_iff.mp isObj, recordGet, scenario, family, split,
    outputGet, finalState_of_expected validated⟩

theorem spelled_optionalText (value : Option String) : (optionalText value).Spelled := by
  cases value <;> trivial

theorem spelled_requestDump (request : Request) : request.modelDump.Spelled := by
  rw [Request.modelDump, Json.spelled_obj_iff]
  refine ⟨by simp [Dict.KeysNodup, Dict.keys, Request.saying], ?_⟩
  simp only [Request.saying, List.cons_append, List.nil_append, List.forall_mem_cons,
    List.not_mem_nil, false_imp_iff, imp_true_iff, and_true]
  exact ⟨trivial, spelled_optionalText _, trivial⟩

/-- **The value of a card** can be written, if that of its final state can be. -/
theorem spelled_modelDump (spelled : (Json.obj card.expected.finalState).Spelled) :
    card.modelDump.Spelled := by
  have output : (Json.obj card.toScenario.modelDump).Spelled := by
    rw [Json.spelled_obj_iff]
    refine ⟨by simp [Dict.KeysNodup, Dict.keys, Scenario.modelDump], ?_⟩
    simp only [Scenario.modelDump, List.forall_mem_cons, List.not_mem_nil, false_imp_iff,
      imp_true_iff, and_true]
    exact ⟨spelled, Json.spelled_arr_map _ fun _ _ => trivial, trivial, trivial,
      Json.spelled_arr_map _ fun _ _ => trivial, trivial, Json.spelled_arr_map _ fun _ _ => trivial⟩
  have record : (Json.obj card.metadataDump).Spelled := by
    rw [Json.spelled_obj_iff]
    refine ⟨by simp [Dict.KeysNodup, Dict.keys, Card.metadataDump], ?_⟩
    simp only [Card.metadataDump, List.forall_mem_cons, List.not_mem_nil, false_imp_iff,
      imp_true_iff, and_true]
    exact ⟨trivial, trivial, trivial, trivial, trivial, trivial, trivial, trivial, trivial,
      spelled_optionalText _, spelled_optionalText _, spelled_optionalText _⟩
  have followup : ∀ f : Followup, (f.dumpWith f.request.modelDump).Spelled := by
    intro f
    rw [Followup.dumpWith, Json.spelled_obj_iff]
    refine ⟨by simp [Dict.KeysNodup, Dict.keys], ?_⟩
    simp only [List.forall_mem_cons, List.not_mem_nil, false_imp_iff, imp_true_iff, and_true]
    exact ⟨trivial, spelled_requestDump _⟩
  rw [Card.modelDump, Json.spelled_obj_iff]
  refine ⟨by simp [Dict.KeysNodup, Dict.keys], ?_⟩
  simp only [List.forall_mem_cons, List.not_mem_nil, false_imp_iff, imp_true_iff, and_true]
  exact ⟨spelled_requestDump _, trivial, output, record,
    Json.spelled_arr_map _ fun f _ => followup f, trivial⟩

end Reads

end AgentLabs.BusinessLab
