import AgentLabs.Math.EventLog
import AgentLabs.Text.JsonText
import AgentLabs.Text.PythonStr
import Mathlib.Data.List.Sort
import Mathlib.Data.String.Basic

/-!
# The evidence folder of an interview

Each session has a folder of JSON files named by evidence ids. `put` publishes a
file under a name that must not exist yet; if it does, the file that is there has
to say the same, apart from the time of the export. `loadEvents` reads the event
files of a session back in the order of their names.

A folder is a dictionary from the stem of a file name to the text of the file.
Temporary files carry other names and are left out; so are symbolic links.

## Main definitions

* `Failure`: what the calls raise
* `EvidenceStore`: the folders
* `Export`, `EvidenceStore.put`, `EvidenceStore.read`: one evidence file
* `exportsOf`, `EvidenceStore.publishEvents`: the files of a list of events
* `EvidenceStore.loadEvents`: the events of a session as the files have them
-/

namespace AgentLabs.Interview

open Math Text

/-! ### Failures -/

/-- What a call raises: an `EvidenceError` or a `WorkflowError` with its code, its
message and its details, an `OSError`, or another exception of the interpreter. -/
inductive Failure where
  | evidence (code message : String)
  | workflow (code message : String) (details : Fields)
  | os (message : String)
  | raised (exception : String)

/-- The string under a key, if there is one. -/
def str? (fields : Fields) (key : String) : Option String := (fields.get? key).bind Json.asStr?

/-- `json.loads`. -/
def parse (text : String) : Except Failure Json :=
  match Json.loads text with
  | some value => .ok value
  | none => .error (.raised "JSONDecodeError")

/-! ### Names -/

/-- `[0-9a-f]{32}`, the form of `uuid4().hex`. -/
def isHex32 (s : String) : Bool := s.toList.length = 32 && s.toList.all isHexDigit

/-- `[0-9a-f]{32}|_unassigned`. -/
def isSessionId (session : String) : Bool := isHex32 session || session = "_unassigned"

/-- The text after a prefix that the whole string starts with. -/
def afterPrefix? (start s : String) : Option String :=
  if start.toList.isPrefixOf s.toList then some (.ofList (s.toList.drop start.toList.length))
  else none

/-- `event-\d{8}|(seed|call|artifact)-[0-9a-f]{32}`. -/
def isEvidenceId (id : String) : Bool :=
  (afterPrefix? "event-" id).any (fun rest => rest.toList.length =
    8 && rest.toList.all isDecimal) ||
    ["seed-", "call-", "artifact-"].any fun start => (afterPrefix? start id).any isHex32

/-- `f"event-{number:08d}"`. -/
def eventId (number : ℕ) : String := "event-" ++ .ofList (zeroPad 8 number)

/-- `"seed-" + seed_id`. -/
def seedEvidenceId (seedId : String) : String := "seed-" ++ seedId

/-! ### Files -/

/-- The folder of a session: file stems and texts. -/
abbrev Folder := Dict String String

/-- The evidence folders under a root directory. -/
structure EvidenceStore where
  root : String
  folder : String → Folder

/-- The keys every evidence file has besides the two identifiers. -/
def recordKeys : List String := ["kind", "title", "exported_at", "source_evidence_id", "content"]

/-- What one call of `put` is to publish. -/
structure Export where
  evidenceId : String
  kind : String
  title : String
  content : Json
  sourceEvidenceId : String := ""

/-- The record that is written, with the time of the export. -/
def Export.record (e : Export) (session now : String) : Fields :=
  [("evidence_id", .str e.evidenceId), ("session_id", .str session), ("kind", .str e.kind),
    ("title", .str e.title), ("source_evidence_id", .str e.sourceEvidenceId),
    ("exported_at", .str now), ("content", e.content)]

/-- The text of the file. -/
def Export.text (e : Export) (session now : String) : String :=
  Json.dumpIndented (.obj (e.record session now)) ++ "\n"

/-- How the disk serves one call of `put`: it works, it fails before the file
gets its name, or it fails after that. -/
inductive Disk where
  | works
  | full
  | lost
  deriving DecidableEq, Repr

namespace EvidenceStore

/-- `_folder`. -/
def checkFolder (session : String) : Except Failure Unit :=
  if isSessionId session then .ok ()
  else .error (.evidence "session_not_found" "세션 ID를 확인하세요.")

/-- `_path`. -/
def checkPath (session id : String) : Except Failure Unit :=
  if isEvidenceId id then checkFolder session
  else .error (.evidence "invalid_evidence_id" "목록에 있는 근거 ID를 사용하세요.")

/-- The record a file text holds, if it names the id and the session. -/
def decode (session id text : String) : Except Failure Fields :=
  match Json.loads text with
  | none => .error (.evidence "evidence_corrupt" ("읽을 수 없는 근거 파일: " ++ id))
  | some (.obj record) =>
    if str? record "evidence_id" = some id ∧ str? record "session_id" = some session ∧
        ∀ key ∈ recordKeys, key ∈ Dict.keys record then .ok record
    else .error (.evidence "evidence_corrupt" ("근거 파일의 형식이 다릅니다: " ++ id))
  | some _ => .error (.evidence "evidence_corrupt" ("근거 파일의 형식이 다릅니다: " ++ id))

/-- `read`: the record of a file. -/
def read (store : EvidenceStore) (session id : String) : Except Failure Fields := do
  checkPath session id
  match (store.folder session).get? id with
  | none => .error (.evidence "evidence_not_found" "근거 ID와 세션 ID를 확인하세요.")
  | some text => decode session id text

/-- `os.link` of a finished file to its name. It fails on a name that exists, and
then the store is as it was; the flag tells so. -/
def link (store : EvidenceStore) (session id text : String) : EvidenceStore × Bool :=
  if id ∈ (store.folder session).keys then (store, true)
  else ({ store with
    folder := Function.update store.folder session ((store.folder session).set id text) }, false)

/-- The existing record agrees with the new one, the time of the export apart. -/
def sameEvidence (existing record : Fields) : Bool :=
  record.all fun entry => entry.1 = "exported_at" ||
    (existing.get? entry.1).any (Json.pyEq · entry.2)

/-- What `put` does once the name is taken: compare if it was taken before, and
read the file. -/
def verify (store : EvidenceStore) (session : String) (e : Export) (now : String)
    (existed : Bool) : Except Failure Fields := do
  if existed then
    let existing ← store.read session e.evidenceId
    if sameEvidence existing (e.record session now) = false then
      throw (.evidence "evidence_conflict" ("기존 근거와 내용이 다릅니다: " ++ e.evidenceId))
  store.read session e.evidenceId

/-- `put`: publish a finished file, never over an existing one. -/
def put (store : EvidenceStore) (session : String) (e : Export) (now : String) (disk : Disk) :
    EvidenceStore × Except Failure Fields :=
  match checkPath session e.evidenceId with
  | .error failure => (store, .error failure)
  | .ok () =>
    if disk = .full then (store, .error (.os "OSError"))
    else
      let linked := store.link session e.evidenceId (e.text session now)
      if disk = .lost then (linked.1, .error (.os "OSError"))
      else (linked.1, linked.1.verify session e now linked.2)

end EvidenceStore

/-! ### Publishing events -/

/-- An event as the database has it: its kind and the text of its payload. -/
abbrev RawEvent := String × String

/-- `questions[payload["field"]]`. -/
def questionOf (questions : Dict String String) (payload : Json) : Except Failure String :=
  match payload with
  | .obj fields =>
    match Dict.get? fields "field" with
    | none => .error (.raised "KeyError")
    | some (.str field) =>
      match questions.get? field with
      | some question => .ok question
      | none => .error (.raised "KeyError")
    | some other => .error (.raised (if other.isHashable then "KeyError" else "TypeError"))
  | _ => .error (.raised "TypeError")

/-- The content of the file of an event. -/
def eventContent (questions : Dict String String) (number : ℕ) (kind : String) (payload : Json) :
    Except Failure Json := do
  let content : Fields := [("sequence", .int number), ("event", .str kind), ("payload", payload)]
  if kind = "interview_started" then
    return .obj (content ++ [("questions", .obj (questions.map fun q => (q.1, .str q.2)))])
  else if kind = "answer_recorded" then
    let question ← questionOf questions payload
    return .obj (content ++ [("question", .str question)])
  else return .obj content

/-- The second file of a frozen seed. -/
def seedExport (number : ℕ) (payload : Json) : Except Failure Export :=
  match payload with
  | .obj fields =>
    match Dict.get? fields "seed_id" with
    | none => .error (.raised "KeyError")
    | some (.str seedId) =>
      .ok { evidenceId := seedEvidenceId seedId, kind := "seed", title := "확정 명세",
            content := payload, sourceEvidenceId := eventId number }
    | some _ => .error (.raised "TypeError")
  | _ => .error (.raised "TypeError")

/-- One turn of the loop of `publish_events`: the calls of `put` it makes, or the
exception it raises in place of one. -/
def exportsOf (questions : Dict String String) (number : ℕ) (event : RawEvent) :
    List (Except Failure Export) :=
  match parse event.2 with
  | .error failure => [.error failure]
  | .ok payload =>
    match eventContent questions number event.1 payload with
    | .error failure => [.error failure]
    | .ok content =>
      .ok { evidenceId := eventId number, kind := "event", title := event.1, content } ::
        if event.1 = "seed_frozen" then [seedExport number payload] else []

namespace EvidenceStore

/-- Publish what is queued, up to the first exception. The clock and the disk
answer for each evidence id. -/
def putAll (clock : String → String) (disk : String → Disk) (session : String) :
    List (Except Failure Export) → EvidenceStore → EvidenceStore × Except Failure Unit
  | [], store => (store, .ok ())
  | .error failure :: _, store => (store, .error failure)
  | .ok e :: rest, store =>
    match store.put session e (clock e.evidenceId) (disk e.evidenceId) with
    | (store, .ok _) => putAll clock disk session rest store
    | (store, .error failure) => (store, .error failure)

/-- `publish_events`. -/
def publishEvents (clock : String → String) (disk : String → Disk) (store : EvidenceStore)
    (session : String) (events : List RawEvent) (questions : Dict String String) :
    EvidenceStore × Except Failure Unit :=
  putAll clock disk session (emitted (exportsOf questions) 1 events) store

/-! ### Loading events -/

/-- The stems of the event files, in the order of their file names. -/
def eventStems (folder : Folder) : List String :=
  (folder.keys.filter fun stem => (afterPrefix? "event-" stem).isSome).insertionSort
    fun a b => a ++ ".json" ≤ b ++ ".json"

/-- The kinds of events. -/
def eventKinds : List String := ["interview_started", "answer_recorded", "seed_frozen"]

/-- The event a record holds, if it is the event of that number. -/
def eventOf (number : ℕ) (stem : String) (record : Fields) : Except Failure RawEvent :=
  let corrupt := Failure.evidence "evidence_corrupt" "이벤트 순서 또는 형식을 확인하세요."
  match (record.get? "content").bind Json.asObj? with
  | none => .error corrupt
  | some content =>
    if stem = eventId number ∧ str? record "kind" = some "event" ∧
        (content.get? "sequence").any (Json.pyEq · (.int number)) ∧
        ((content.get? "payload").bind Json.asObj?).isSome then
      match content.get? "event", content.get? "payload" with
      | some (.str kind), some payload =>
        if kind ∈ eventKinds then .ok (kind, Json.dumps payload) else .error corrupt
      | some event, _ => .error (if event.isHashable then corrupt else .raised "TypeError")
      | none, _ => .error corrupt
    else .error corrupt

/-- One turn of the loop of `load_events`. -/
def loadEvent (store : EvidenceStore) (session : String) (number : ℕ) (stem : String) :
    Except Failure RawEvent := do
  let record ← store.read session stem
  eventOf number stem record

/-- The loop of `load_events`, from a number on. -/
def loadFrom (store : EvidenceStore) (session : String) :
    ℕ → List String → Except Failure (List RawEvent)
  | _, [] => .ok []
  | number, stem :: rest => do
    let event ← store.loadEvent session number stem
    let events ← store.loadFrom session (number + 1) rest
    return event :: events

/-- `load_events`. -/
def loadEvents (store : EvidenceStore) (session : String) : Except Failure (List RawEvent) := do
  checkFolder session
  store.loadFrom session 1 (eventStems (store.folder session))

end EvidenceStore

end AgentLabs.Interview
