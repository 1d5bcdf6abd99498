import AgentLabs.Math.Strategy
import AgentLabs.Retrieval.Answers
import AgentLabs.Retrieval.Context
import AgentLabs.Retrieval.Tables

/-!
# Turns of a conversation

A turn answers one question. An agent, of which nothing is known, calls a model and tools: it reads
the file of a skill, searches and reads, computes with a table, and lets a vision model look at a
page. Each call is counted before it is made. Its answer is checked, a reviewer has to say that it
is supported, and an answer that does not pass is asked for again, a few times. An answer that
passes is written down, and with it the question for the turns that follow in the same session and
for the same customer, date and documents.

## Main definitions

* `Turn`: what a turn has come to
* `ToolUse`, `AgentCall`: what the agent can do
* `Assistant.attempts`: answers until one passes
* `Assistant.ask`: a turn, from the question to what is written down
* `Assistant.history`: what later turns are told
-/

namespace AgentLabs.Retrieval

open Math Text Program

/-! ### Turns -/

/-- A message of a conversation. -/
structure Message where
  role : String
  content : String
  deriving DecidableEq, Repr

/-- What a vision model has said of a page, whose file had this hash. -/
structure Observation where
  path : String
  page : ℤ
  hash : String
  text : String
  deriving DecidableEq, Repr

structure SupportReview where
  supported : Bool
  reasons : List String := []
  deriving DecidableEq, Repr

/-- What a reviewer is shown. -/
structure ReviewRequest where
  question : String
  answer : AnswerPayload
  entity : String
  asOf : Date
  evidence : List Evidence
  calculations : List Json

/-- What a turn has come to. The messages it began with, the observations and the reviews are noted
beside it. -/
structure Turn (σ : Type) where
  context : Context σ
  loadedSkills : List String := []
  calculations : List Json := []
  begun : List Message := []
  observations : List Observation := []
  reviews : List (ReviewRequest × SupportReview) := []

/-- A step of a turn of a conversation. -/
abbrev TurnStep (σ α : Type) := Program (Turn σ) Failure α

/-- A turn with nothing in it. -/
def Turn.fresh {σ : Type} (outside : σ) : Turn σ := { context := { outside } }

/-- What the answer is checked against. -/
def Turn.answerContext {σ : Type} (c : Retriever σ) (t : Turn σ) : AnswerContext where
  loadedSkills := t.loadedSkills
  searchCount := t.context.searchCount
  evidence := t.context.evidence
  entity := c.entity
  asOf := c.asOf
  domain := c.domain

/-! ### Calls of an agent -/

/-- A tool that an agent uses. -/
inductive ToolUse where
  | searchKnowledge (query : String) (limit : ℤ)
  | readEvidence (evidenceId : String) (startLine lineCount : ℤ)
  | tableQuery (evidenceId column operation : String) (tableIndex : ℤ)
  | inspectSourceImage (evidenceId question : String)
  | readFile (path : String) (offset limit : ℤ)
  | other (name : String) (arguments : Json)

/-- What an agent can do. -/
inductive AgentCall where
  | model (request : Json)
  | tool (use : ToolUse)

/-- What the backend of the skills has read. -/
structure FileRead where
  error : Option String := none
  nextOffset : Option ℕ := none
  totalLines : Option ℕ := none
  content : Json := .null

/-- A question that is asked, with what the caller has chosen. -/
structure Asked (σ : Type) where
  question : String
  entity : String := "알파"
  asOf : Option Date := none
  namespace_ : String := "business"
  answerFormat : String := "auto"
  session : Option String := none
  budget : Budget := {}
  maxAttempts : ℕ := 2
  extraClaimValidation :
    Option (AnswerPayload → AnswerContext → Program σ Failure (List String)) := none
  positive : 1 ≤ maxAttempts

/-- An agent: from the messages to what it does and what it says. -/
abbrev Agent := List Message → Strategy AgentCall Json Failure (List Message × Json)

/-- The customer, the date and the documents that a turn is for. -/
structure SessionScope where
  entity : String
  asOf : String
  namespace_ : String
  deriving DecidableEq, Repr

/-- `json.dumps(scope, sort_keys=True, ensure_ascii=False)`. -/
def SessionScope.key (scope : SessionScope) : String :=
  Json.dumps (.obj
    [("as_of", .str scope.asOf), ("entity", .str scope.entity),
      ("namespace", .str scope.namespace_)])

/-- A row of the table of turns. -/
structure StoredTurn where
  session : String
  scope : String
  question : String
  answer : String
  deriving DecidableEq, Repr

/-- What a turn returns. -/
structure Output where
  runId : String
  question : String
  requestedFormat : String
  model : String
  answer : AnswerPayload
  markdown : String
  scope : SessionScope
  counts : Dict Kind ℕ
  evidence : List Evidence

/-- The record of a run. -/
inductive RunRecord where
  | passed (output : Output)
  | failed (runId errorType error : String) (counts : Dict Kind ℕ)

/-- The tables that are kept, and the turn that is being made. -/
structure Office (σ : Type) where
  turns : List StoredTurn := []
  runs : Dict String RunRecord := []
  turn : Turn σ

/-- An office in which nothing was asked yet. -/
def Office.fresh {σ : Type} (outside : σ) : Office σ := { turn := Turn.fresh outside }

/-- What an assistant is made of: the digest, the files of the skills, the printing of headings, the
agent, and the calls of the outside: the models, the tools that only read, the files of the
sources, the client, the tables, and the clock. -/
structure Assistant (σ : Type) where
  digest : String → String
  shown : List Json → String
  files : String → Except Failure Json
  decode : Json → Except Failure AnswerPayload
  redact : String → String
  errorType : Failure → String
  errorText : Failure → String
  modelName : String
  calculate : Frame → String → String → Except Failure Json
  agent : Asked σ → Agent
  outside : Outside σ
  model : Json → Program σ Failure (Json × List Json)
  readFile : String → ℤ → ℤ → Program σ Failure FileRead
  otherTool : String → Json → Program σ Failure Json
  resolve : String → Program σ Failure (Option String)
  fileHash : String → Program σ Failure String
  pdfImage : String → ℤ → Program σ Failure String
  vision : String → String → Program σ Failure (Json × Json)
  review : ReviewRequest → Program σ Failure (Option SupportReview)
  today : Program σ Failure Date
  newRunId : Program σ Failure String
  connect : Program σ Failure Unit
  loadManifest : String → Program σ Failure Manifest
  buildAgent : Program σ Failure Unit
  openStore : Program σ Failure Unit
  query : Program σ Failure Unit
  insert : Program σ Failure Unit
  writeRun : Program σ Failure Unit

/-- The tools that an agent may be given beside those that have a constructor. -/
def otherTools : List String := ["ls", "glob", "grep", "AnswerPayload"]

/-- The name of a tool. -/
def ToolUse.name : ToolUse → String
  | .searchKnowledge .. => "search_knowledge"
  | .readEvidence .. => "read_evidence"
  | .tableQuery .. => "table_query"
  | .inspectSourceImage .. => "inspect_source_image"
  | .readFile .. => "read_file"
  | .other name _ => name

namespace Assistant

variable {σ α : Type} (a : Assistant σ) (c : Retriever σ)

/-- A step of the retrieval. -/
def retrieving (m : Step σ α) : TurnStep σ α :=
  within Turn.context (fun t context => { t with context }) m

/-- A call of the outside. -/
def outer (m : Program σ Failure α) : TurnStep σ α := retrieving (Retrieval.ask m)

/-- What is noted among the events of the budget without being limited. -/
def note : TurnStep σ Unit := do
  let _ ← retrieving c.remaining
  return ()

/-! ### The tools -/

/-- `read` of the backend. The skill counts as read if its whole file was. -/
def readFileTool (path : String) (offset limit : ℤ) : TurnStep σ Json := do
  let result ← tryCatch (outer (a.readFile path offset limit)) fun
    -- The agent is told of a path that is refused, and goes on.
    | .value message => return { error := some message }
    | e => throw e
  if pathName path = "SKILL.md" ∧ result.error = none ∧ offset = 0 ∧ result.nextOffset = none ∧
      result.totalLines.getD 0 ≠ 0 then do
    change fun t => { t with
      loadedSkills := (posixParts path).dropLast.getLastD "" :: t.loadedSkills }
    note c
    return result.content
  else return result.content

/-- `table_query`. -/
def tableQuery (evidenceId column operation : String) (tableIndex : ℤ) : TurnStep σ Json := do
  let t ← Program.state
  match t.context.evidence.get? evidenceId with
  | none => throw (.value "현재 턴에서 읽은 근거 ID가 필요합니다.")
  | some e => do
    let tables ← Program.ofExcept (markdownTables e.quote)
    -- An index below zero does not count from the end.
    match if 0 ≤ tableIndex then tables[tableIndex.toNat]? else none with
    | none => throw (.value "요청한 표가 없습니다.")
    | some frame => do
      let result ← Program.ofExcept (a.calculate frame column operation)
      note c
      change fun t => { t with calculations := t.calculations ++ [result] }
      return result

/-- `inspect_pdf`. -/
def inspectPdf (path : String) (page : ℤ) (question : String) : TurnStep σ String := do
  let image ← outer (a.pdfImage path page)
  let response ← outer (a.vision image question)
  match response.1 with
  | .str content =>
    if isBlank content then throw (.validation "시각 확인 결과가 비어 있습니다.")
    else if response.2.asStr? = some "length" ∨ response.2.asStr? = some "content_filter" then
      throw (.validation "시각 확인 출력이 완성되지 않았습니다.")
    else return content
  | _ => throw (.validation "시각 확인 결과가 비어 있습니다.")

/-- The evidence of an observation. -/
def visualOf (original : Evidence) (observation : String) : Except Failure Evidence := do
  let visual ← evidenceFromText a.digest original.uri observation
    { original.metadata with extractionMethod := "vision-observation" } 0
  return { visual with
    evidenceId := "V-" ++ String.ofList (visual.evidenceId.toList.drop 2)
    kind := "visual_observation" }

/-- Hold an observation, which has to fit. -/
def holdVisual (visual : Evidence) : TurnStep σ Unit := do
  let t ← Program.state
  if c.budget.maxContextBytes < evidenceBytes (t.context.held ++ [visual]) then
    throw (.validation "시각 관찰을 포함하면 Context 예산을 초과합니다.")
  else
    retrieving (change fun s => { s with evidence := s.evidence.set visual.evidenceId visual })

/-- `path` is a PDF of the project, and `page` a page. -/
def pageOf (path : Option String) (page : Option ℤ) : Except Failure (String × ℤ) :=
  match path, page with
  | some path, some page =>
    if page = 0 then .error (.value "이 도구는 원본 PDF와 페이지 좌표가 있는 근거만 지원합니다.")
    else .ok (path, page)
  | _, _ => .error (.value "이 도구는 원본 PDF와 페이지 좌표가 있는 근거만 지원합니다.")

/-- `inspect_source_image`. -/
def inspectSourceImage (evidenceId question : String) : TurnStep σ Json := do
  let t ← Program.state
  match t.context.evidence.get? evidenceId with
  | none => throw (.value "현재 턴의 검색 근거 ID가 필요합니다.")
  | some original => do
    let path ← outer (a.resolve original.source)
    let page ← Program.ofExcept (pageOf path original.page)
    let hash ← outer (a.fileHash page.1)
    -- Only the file that was ingested is looked at.
    if hash ≠ original.metadata.sourceSha256 then
      throw (.validation "원본 PDF가 적재 시점과 달라졌습니다.")
    else do
      retrieving (c.consume .model)
      note c
      let observation ← a.inspectPdf page.1 page.2 question
      note c
      let visual ← Program.ofExcept (a.visualOf original observation)
      change fun t => { t with
        observations := t.observations ++ [⟨page.1, page.2, hash, observation⟩] }
      holdVisual c visual
      note c
      return visual.toJson

/-- What a tool does. -/
def useTool : ToolUse → TurnStep σ Json
  | .searchKnowledge query limit => retrieving (c.call (.search query limit))
  | .readEvidence evidenceId startLine lineCount =>
    retrieving (c.call (.readMore evidenceId startLine lineCount))
  | .tableQuery evidenceId column operation tableIndex =>
    a.tableQuery c evidenceId column operation tableIndex
  | .inspectSourceImage evidenceId question => a.inspectSourceImage c evidenceId question
  | .readFile path offset limit => a.readFileTool c path offset limit
  | .other name arguments => outer (a.otherTool name arguments)

/-- The tool is not one of those that the agent was given. -/
def isForbidden : ToolUse → Bool
  | .other name _ => name ∉ otherTools
  | _ => false

/-- `bounded_tool`. -/
def boundedTool (use : ToolUse) : TurnStep σ Json := do
  if isForbidden use then throw (.validation ("이 RAG에서 허용하지 않는 도구: " ++ use.name))
  else do
    retrieving (c.consume .tool)
    let result ← a.useTool c use
    note c
    return result

/-- `bounded_model`. -/
def boundedModel (request : Json) : TurnStep σ Json := do
  retrieving (c.consume .model)
  note c
  let response ← outer (a.model request)
  note c
  response.2.forM fun _ => note c
  return response.1

/-- What an agent gets for a call. -/
def answerCall : AgentCall → TurnStep σ Json
  | .model request => a.boundedModel c request
  | .tool use => a.boundedTool c use

/-! ### Attempts -/

/-- `review_support`. -/
def reviewSupport (question : String) (answer : AnswerPayload) : TurnStep σ SupportReview := do
  retrieving (c.consume .model)
  note c
  let t ← Program.state
  let request : ReviewRequest :=
    { question, answer, entity := c.entity, asOf := c.asOf, evidence := t.context.held,
      calculations := t.calculations }
  let parsed ← outer (a.review request)
  note c
  match parsed with
  | none => throw (.validation "근거 검토 모델의 구조화 응답을 읽지 못했습니다.")
  | some report => do
    note c
    note c
    change fun t => { t with reviews := t.reviews ++ [(request, report)] }
    return report

/-- The hook of the caller, if there is one. -/
def extraErrors (asked : Asked σ) (answer : AnswerPayload) (context : AnswerContext) :
    TurnStep σ (List String) :=
  match asked.extraClaimValidation with
  | none => return []
  | some check => outer (check answer context)

/-- What the reviewer has against an answer. -/
def reviewErrors (asked : Asked σ) (answer : AnswerPayload) : TurnStep σ (List String) := do
  let review ← a.reviewSupport c asked.question answer
  if review.supported then return []
  else if review.reasons = [] then return ["원문에 의한 지지를 확인하지 못했습니다."]
  else return review.reasons

/-- What is wrong with an answer. -/
def errorsOf (asked : Asked σ) (answer : AnswerPayload) : TurnStep σ (List String) := do
  let t ← Program.state
  let errors ← Program.ofExcept (validateAnswer a.digest a.shown a.files answer
    (t.answerContext c) asked.answerFormat)
  if errors ≠ [] then return errors
  else do
    let errors ← extraErrors asked answer (t.answerContext c)
    if errors ≠ [] then return errors else a.reviewErrors c asked answer

/-- The message that asks for another answer. -/
def correction (errors : List String) : Message where
  role := "user"
  content := "검증 실패를 수정하세요. 필요하면 재검색하고, 근거 부족 시 해당 Skill을 사용하세요: " ++
    "; ".intercalate errors

/-- The loop of `ask`, with the attempts that are left after this one. -/
def attempts (asked : Asked σ) : ℕ → List Message → TurnStep σ AnswerPayload
  | left, messages => do
    let said ← (a.agent asked messages).run (a.answerCall c)
    let answer ← Program.ofExcept (a.decode said.2)
    let errors ← a.errorsOf c asked answer
    if errors = [] then return answer
    else do
      note c
      -- The messages go on with what was said and what was wrong with it.
      match left with
      | 0 => throw (.validation ("검증 재시도 한도 초과: " ++ "; ".intercalate errors))
      | left + 1 => attempts asked left (said.1 ++ [correction errors])

/-! ### Sessions -/

/-- `validate_id`. -/
def isSession (session : String) : Bool :=
  decide (1 ≤ session.length ∧ session.length ≤ 64) &&
    session.toList.all fun c => c.isAlphanum || c = '-' || c = '_'

/-- The last four turns of a session and scope. -/
def recent (turns : List StoredTurn) (session key : String) : List StoredTurn :=
  ((turns.filter fun row => row.session = session ∧ row.scope = key).reverse.take 4).reverse

/-- The messages of `history`. -/
def messagesOf (turns : List StoredTurn) : List Message :=
  turns.flatMap fun row => [⟨"user", row.question⟩, ⟨"assistant", row.answer⟩]

/-- The session, if the caller has named one. -/
def sessionOf (asked : Asked σ) : Option String := asked.session.filter (· ≠ "")

/-- A step of the turn that is being made. -/
def turning (m : TurnStep σ α) : Program (Office σ) Failure α :=
  within Office.turn (fun o turn => { o with turn }) m

/-- A call of the outside. -/
def outdoors (m : Program σ Failure α) : Program (Office σ) Failure α := turning (outer m)

/-- `history`, which is empty without a session. -/
def history (session : Option String) (scope : SessionScope) :
    Program (Office σ) Failure (List Message) :=
  match session with
  | none => return []
  | some session =>
    if isSession session = false then throw (.value "session은 영문/숫자/-/_ 1~64자여야 합니다.")
    else do
      outdoors a.query
      let o ← Program.state
      return messagesOf (recent o.turns session scope.key)

/-- `append`, if there is a session. -/
def append (session : Option String) (scope : SessionScope) (question answer : String) :
    Program (Office σ) Failure Unit :=
  match session with
  | none => return ()
  | some session =>
    if isSession session = false then throw (.value "session은 영문/숫자/-/_ 1~64자여야 합니다.")
    else do
      outdoors a.insert
      change fun o => { o with turns := o.turns ++ [⟨session, scope.key, question, answer⟩] }

/-! ### Asking -/

/-- What is returned. -/
def outputOf (asked : Asked σ) (runId : String) (scope : SessionScope) (answer : AnswerPayload)
    (markdown : String) (t : Turn σ) : Output where
  runId
  question := asked.question
  requestedFormat := asked.answerFormat
  model := a.modelName
  answer
  markdown
  scope
  counts := t.context.counts
  evidence := t.context.held

/-- From the messages to the answer that is written down. -/
def complete (asked : Asked σ) (runId : String) (scope : SessionScope) (messages : List Message) :
    Program (Office σ) Failure Output := do
  let answer ← turning (a.attempts c asked (asked.maxAttempts - 1) messages)
  let o ← Program.state
  let markdown ← Program.ofExcept (renderAnswer a.files answer (o.turn.answerContext c))
  let output := a.outputOf asked runId scope answer markdown o.turn
  -- The run is recorded first, and only then its turn is told to later ones.
  outdoors a.writeRun
  change fun o => { o with runs := o.runs.set runId (.passed output) }
  a.append (sessionOf asked) scope asked.question markdown
  return output

/-- What is written down of a failure. -/
def recordFailure (runId : String) (e : Failure) : Program (Office σ) Failure Output := do
  outdoors a.writeRun
  change fun o => { o with
    runs := o.runs.set runId
      (.failed runId (a.errorType e) (a.redact (a.errorText e)) o.turn.context.counts) }
  throw e

/-- The day that is asked for, or today. -/
def dayOf (asked : Asked σ) : Program (Office σ) Failure Date :=
  match asked.asOf with
  | some day => return day
  | none => outdoors a.today

/-- The turn that a question is asked in. -/
def retrieverOf (asked : Asked σ) (asOf : Date) (manifest : Manifest) : Retriever σ where
  digest := a.digest
  outside := a.outside
  manifest
  entity := asked.entity
  asOf
  budget := asked.budget

/-- The scope of a question. -/
def scopeOf (asked : Asked σ) (asOf : Date) : SessionScope where
  entity := asked.entity
  asOf := asOf.isoformat
  namespace_ := asked.namespace_

/-- What is at hand when the turn of a question begins. -/
structure Opening where
  asOf : Date
  earlier : List Message
  runId : String
  manifest : Manifest

/-- The part of `ask` before the turn: the day, the turns before, and the manifest. -/
def opening (asked : Asked σ) : Program (Office σ) Failure Opening :=
  if isBlank asked.question ∨ 4000 < asked.question.length then
    throw (.value "질문은 1~4000자여야 합니다.")
  else do
    let asOf ← a.dayOf asked
    outdoors a.openStore
    let earlier ← a.history (sessionOf asked) (scopeOf asked asOf)
    let runId ← outdoors a.newRunId
    outdoors a.connect
    let manifest ← outdoors (a.loadManifest asked.namespace_)
    return { asOf, earlier, runId, manifest }

/-- The turn of a question. -/
def turnOf (asked : Asked σ) (opened : Opening) : Program (Office σ) Failure Output := do
  let messages := opened.earlier ++ [⟨"user", asked.question⟩]
  -- Of earlier turns only the messages are left.
  change fun o => { o with
    turn := { Turn.fresh o.turn.context.outside with begun := messages } }
  outdoors a.buildAgent
  tryCatch
    (a.complete (a.retrieverOf asked opened.asOf opened.manifest) asked opened.runId
      (scopeOf asked opened.asOf) messages)
    (a.recordFailure opened.runId)

/-- `ask`. -/
def ask (asked : Asked σ) : Program (Office σ) Failure Output := do
  let opened ← a.opening asked
  a.turnOf asked opened

/-- The office after some questions, each of which may have failed. -/
def run (o : Office σ) (questions : List (Asked σ)) : Office σ :=
  questions.foldl (fun o asked => (a.ask asked o).2) o

end Assistant

end AgentLabs.Retrieval
