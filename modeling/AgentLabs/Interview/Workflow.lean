import AgentLabs.Interview.Evidence

/-!
# The interview workflow

A session is a list of events in a database: a start with the goal, answers, and
at most one frozen seed. `replay` rebuilds the state of the session from them.
Each of the four operations checks the state and appends its event in one
transaction, after importing what the evidence files have in addition to the
database; afterwards, outside the transaction, it publishes the events to the files.

## Main definitions

* `replay`: the state a list of events stands for
* `Database`, `load`: the stored events and their reconciliation with the files
* `Request`: the four operations
* `Workflow.run`: a call, from its checks to the files it leaves
-/

namespace AgentLabs.Interview

open Math Text

/-- `QUESTIONS`: the fields to be answered, each with its question. -/
def QUESTIONS : Dict String String :=
  [("constraints", "반드시 지켜야 할 제약은 무엇인가요? 없다면 '없음'이라고 답하세요."),
    ("acceptance_criteria", "어떤 결과를 확인하면 작업이 끝났다고 판단할 수 있나요?")]

/-! ### Replay -/

/-- What the loop of `replay` has collected. -/
structure Progress where
  goal : String := ""
  answers : Dict String String := []
  seed : Option Fields := none

/-- The check of an `interview_started` event. -/
def replayStart (p : Progress) (payload : Json) : Except Failure Progress :=
  let corrupt := Failure.evidence "evidence_corrupt" "시작 기록의 순서와 목표를 확인하세요."
  if p.goal ≠ "" then .error corrupt
  else
    match payload with
    | .obj fields =>
      match str? fields "goal" with
      | some goal => if isBlank goal then .error corrupt else .ok { p with goal }
      | none => .error corrupt
    | _ => .error (.raised "AttributeError")

/-- The check of an `answer_recorded` event. -/
def replayAnswer (p : Progress) (payload : Json) : Except Failure Progress :=
  let corrupt := Failure.evidence "evidence_corrupt" "답변 기록의 순서와 내용을 확인하세요."
  if p.goal = "" ∨ p.seed.isSome then .error corrupt
  else
    match payload with
    | .obj fields =>
      match Dict.get? fields "field" with
      | some (.str field) =>
        if field ∈ QUESTIONS.keys then
          match str? fields "answer" with
          | some answer =>
            if isBlank answer then .error corrupt
            else .ok { p with answers := p.answers.set field answer }
          | none => .error corrupt
        else .error corrupt
      | some other => .error (if other.isHashable then corrupt else .raised "TypeError")
      | none => .error corrupt
    | _ => .error (.raised "AttributeError")

/-- The check of a `seed_frozen` event: every question is answered, and the payload
repeats the goal and the answers. -/
def replaySeed (p : Progress) (payload : Json) : Except Failure Progress :=
  let corrupt := Failure.evidence "evidence_corrupt" "명세와 원래 답변이 일치하지 않습니다."
  -- The fields answered are fields of `QUESTIONS`, so none of them replaces the goal.
  let expected := ("goal", p.goal) :: p.answers
  if p.goal = "" ∨ p.seed.isSome ∨ ¬ (p.answers.keys ⊆ QUESTIONS.keys ∧
      QUESTIONS.keys ⊆ p.answers.keys) then .error corrupt
  else
    match payload with
    | .obj fields =>
      match str? fields "seed_id" with
      | some seedId =>
        if isHex32 seedId ∧ ∀ entry ∈ expected, str? fields entry.1 = some entry.2 then
          .ok { p with seed := some fields }
        else .error corrupt
      | none => .error corrupt
    | _ => .error (.raised "AttributeError")

/-- One turn of the loop of `replay`. -/
def replayStep (p : Progress) (event : RawEvent) : Except Failure Progress := do
  let payload ← parse event.2
  if event.1 = "interview_started" then replayStart p payload
  else if event.1 = "answer_recorded" then replayAnswer p payload
  else if event.1 = "seed_frozen" then replaySeed p payload
  else throw (.raised "ValueError")

/-- How far a session has come. -/
inductive Status where
  | draft
  | ready
  | frozen
  deriving DecidableEq, Repr

/-- The state of a session, as `replay` returns it. -/
structure State where
  sessionId : String
  status : Status
  goal : String
  answers : Dict String String
  missingFields : List String
  nextQuestion : Option (String × String)
  seed : Option Fields
  eventCount : ℕ

/-- The state that the collected progress amounts to. -/
def Progress.state (p : Progress) (session : String) (count : ℕ) : State :=
  let missing := QUESTIONS.keys.filter fun field => field ∉ p.answers.keys
  { sessionId := session
    status := if p.seed.isSome then .frozen else if missing ≠ [] then .draft else .ready
    goal := p.goal
    answers := p.answers
    missingFields := missing
    nextQuestion := missing.head?.map fun field => (field, (QUESTIONS.get? field).getD "")
    seed := p.seed
    eventCount := count }

/-- `replay`: rebuild the state from the events. -/
def replay (session : String) (events : List RawEvent) : Except Failure State :=
  if events = [] then .error (.workflow "session_not_found" "세션 ID를 확인하세요." [])
  else do
    let p ← events.foldlM replayStep {}
    return p.state session events.length

/-! ### The database -/

/-- A row of the table `events`. -/
structure Row where
  sessionId : String
  kind : String
  payload : String
  deriving DecidableEq, Repr

/-- The rows in the order of their sequence numbers. -/
abbrev Database := List Row

namespace Database

/-- `_events`. -/
def events (db : Database) (session : String) : List RawEvent :=
  (db.filter fun row => row.sessionId = session).map fun row => (row.kind, row.payload)

/-- `_append`. -/
def append (db : Database) (session kind : String) (payload : Json) : Database :=
  db ++ [⟨session, kind, Json.dumps payload⟩]

end Database

/-- `json.loads(payload) != json.loads(file_payload)` and the comparison of the
kinds before it, for one position. -/
def compareEvents (ours theirs : RawEvent) : Except Failure Unit := do
  let conflict := Failure.evidence "evidence_conflict" "DB와 근거 파일의 기록이 다릅니다."
  if ours.1 ≠ theirs.1 then throw conflict
  let payload ← parse ours.2
  let filePayload ← parse theirs.2
  if Json.pyEq payload filePayload then return () else throw conflict

/-- Compare the positions that both lists have. -/
def compareAll : List RawEvent → List RawEvent → Except Failure Unit
  | ours :: rest, theirs :: rest' => do
    compareEvents ours theirs
    compareAll rest rest'
  | _, _ => .ok ()

/-- Append events read from the files, their payloads written anew. -/
def importAll (session : String) : List RawEvent → Database → Except Failure Database
  | [], db => .ok db
  | (kind, payload) :: rest, db => do
    let value ← parse payload
    importAll session rest (db.append session kind value)

/-- `_load`: reconcile the database with the events of the files, import what the
files have in addition, and replay. -/
def load (db : Database) (session : String) (files : List RawEvent) :
    Except Failure (Database × State) := do
  let events := db.events session
  compareAll events files
  if events.length < files.length then
    let _ ← replay session files
    let db ← importAll session (files.drop events.length) db
    let state ← replay session files
    return (db, state)
  else
    let state ← replay session events
    return (db, state)

/-! ### The operations -/

/-- A call of one of the four operations. -/
inductive Request where
  | startInterview (goal : String)
  | recordAnswer (session field answer : String)
  | getSession (session : String)
  | freezeSeed (session : String)
  deriving DecidableEq, Repr

/-- The session of a call; a start opens one under a new id. -/
def Request.session (uuid : String) : Request → String
  | .startInterview _ => uuid
  | .recordAnswer session _ _ => session
  | .getSession session => session
  | .freezeSeed session => session

/-- The checks before the transaction. -/
def Request.check : Request → Except Failure Unit
  | .startInterview goal =>
    if isBlank goal then
      .error (.workflow "empty_goal" "만들려는 결과를 한 문장으로 입력하세요." [])
    else .ok ()
  | .recordAnswer _ field answer =>
    if field ∉ QUESTIONS.keys then
      .error (.workflow "unknown_field" "응답의 next_question.field를 확인하세요." [])
    else if isBlank answer then
      .error (.workflow "empty_answer" "빈 답변은 기록할 수 없습니다." [])
    else .ok ()
  | _ => .ok ()

/-- The payload of an `interview_started` event. -/
def startPayload (goal : String) : Json := .obj [("goal", .str goal)]

/-- The payload of an `answer_recorded` event. -/
def answerPayload (field answer : String) : Json :=
  .obj [("field", .str field), ("answer", .str answer)]

/-- The payload of a `seed_frozen` event. -/
def seedPayload (seedId goal constraints acceptanceCriteria : String) : Json :=
  .obj [("seed_id", .str seedId), ("goal", .str goal), ("constraints", .str constraints),
    ("acceptance_criteria", .str acceptanceCriteria)]

/-- The transaction of `record_answer`. Sending the same answer again appends nothing. -/
def recordIn (db : Database) (session field answer : String) (files : List RawEvent) :
    Except Failure Database := do
  let (db, state) ← load db session files
  if state.status = .frozen then
    throw (.workflow "seed_frozen" "확정된 명세는 바꿀 수 없습니다. 새 세션을 시작하세요." [])
  if state.answers.get? field ≠ some (strip answer) then
    return db.append session "answer_recorded" (answerPayload field (strip answer))
  else return db

/-- The transaction of `freeze_seed`. A frozen session is left as it is. -/
def freezeIn (db : Database) (session uuid : String) (files : List RawEvent) :
    Except Failure Database := do
  let (db, state) ← load db session files
  if state.missingFields ≠ [] then
    throw (.workflow "seed_incomplete" "필수 질문에 답한 뒤 명세를 확정하세요."
      [("missing_fields", .arr (state.missingFields.map .str))])
  if state.status ≠ .frozen then
    match state.answers.get? "constraints", state.answers.get? "acceptance_criteria" with
    | some constraints, some acceptanceCriteria =>
      return db.append session "seed_frozen"
        (seedPayload uuid state.goal constraints acceptanceCriteria)
    | _, _ => throw (.raised "KeyError")
  else return db

/-- The transaction of a call, given the events of the files. A failure rolls it back. -/
def Request.transact (uuid : String) (db : Database) (files : List RawEvent) :
    Request → Except Failure Database
  | .startInterview goal => .ok (db.append uuid "interview_started" (startPayload (strip goal)))
  | .recordAnswer session field answer => recordIn db session field answer files
  | .getSession session => do
    let (db, _) ← load db session files
    return db
  | .freezeSeed session => freezeIn db session uuid files

/-- Whether the transaction of a call reads the files. -/
def Request.loads : Request → Bool
  | .startInterview _ => false
  | _ => true

/-! ### Whole calls -/

/-- What a successful call returns: the state, and where the evidence is. -/
structure Reply where
  state : State
  evidenceDir : String
  seedEvidenceId : Option String

/-- The reply of a call on a session in a state. -/
def reply (root : String) (state : State) : Reply :=
  { state
    evidenceDir := root ++ "/" ++ state.sessionId
    seedEvidenceId := (state.seed.bind (str? · "seed_id")).map seedEvidenceId }

/-- `evidence_publish_failed`: the event is stored, its file is not. -/
def publishFailed (session message : String) : Failure :=
  .workflow "evidence_publish_failed"
    ("DB는 저장됐지만 근거 파일 저장에 실패했습니다: " ++ message ++
      ". 저장 위치를 확인하고 get_session을 호출하세요.")
    [("session_id", .str session), ("state_saved", .bool true)]

/-- The failures of publishing that are reported as such. -/
def Failure.ofPublishing (session : String) : Failure → Failure
  | .evidence _ message => publishFailed session message
  | .os message => publishFailed session message
  | other => other

/-- A workflow: the database and the evidence folders. -/
structure Workflow where
  db : Database
  evidence : EvidenceStore

/-- What a call depends on besides its arguments: the id it draws, the times of
the exports and how the disk serves them. -/
structure Surroundings where
  uuid : String
  clock : String → String
  disk : String → Disk

namespace Workflow

/-- `_publish`: export the stored events and return the state. -/
def publish (w : Workflow) (env : Surroundings) (session : String) :
    Workflow × Except Failure Reply :=
  match replay session (w.db.events session) with
  | .error failure => (w, .error failure)
  | .ok state =>
    match w.evidence.publishEvents env.clock env.disk session (w.db.events session) QUESTIONS with
    | (evidence, .ok ()) => ({ w with evidence }, .ok (reply evidence.root state))
    | (evidence, .error failure) => ({ w with evidence }, .error (failure.ofPublishing session))

/-- The transaction of a call on the stored state. -/
def commit (w : Workflow) (uuid : String) (r : Request) : Except Failure Database := do
  r.check
  if r.loads then
    let files ← w.evidence.loadEvents (r.session uuid)
    r.transact uuid w.db files
  else r.transact uuid w.db []

/-- A call: its transaction, and then the files. -/
def run (w : Workflow) (env : Surroundings) (r : Request) : Workflow × Except Failure Reply :=
  match w.commit env.uuid r with
  | .error failure => (w, .error failure)
  | .ok db => { w with db }.publish env (r.session env.uuid)

/-- `start_interview`. -/
def startInterview (w : Workflow) (env : Surroundings) (goal : String) :
    Workflow × Except Failure Reply := w.run env (.startInterview goal)

/-- `record_answer`. -/
def recordAnswer (w : Workflow) (env : Surroundings) (session field answer : String) :
    Workflow × Except Failure Reply := w.run env (.recordAnswer session field answer)

/-- `get_session`. -/
def getSession (w : Workflow) (env : Surroundings) (session : String) :
    Workflow × Except Failure Reply := w.run env (.getSession session)

/-- `freeze_seed`. -/
def freezeSeed (w : Workflow) (env : Surroundings) (session : String) :
    Workflow × Except Failure Reply := w.run env (.freezeSeed session)

end Workflow

end AgentLabs.Interview
