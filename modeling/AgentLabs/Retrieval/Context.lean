import AgentLabs.Math.Triple
import AgentLabs.Retrieval.Evidence
import AgentLabs.Text.Regex

/-!
# Retrieval in one turn

The tools of a turn search a server for documents and read lines of them. The server may answer
anything. A document is taken only if the manifest of the ingestion lists it and its metadata
applies to what the caller asked for, and lines of it are taken only if they are those of the
snapshot that the ingestion kept. What the model chooses are texts and numbers.

The outside has a state of its own: the server, the files of the snapshots and the clock.

## Main definitions

* `Manifest`: what an ingestion has written
* `Outside`: the server, the files and the clock
* `Retriever`: a turn, for a customer, a date and a domain
* `Retriever.search`, `Retriever.readMore`: the tools
* `Retriever.run`: calls of the tools, one after the other
-/

namespace AgentLabs.Retrieval

open Math Text Program

/-! ### Manifests -/

/-- What the manifest has of a document, with the snapshot that an ingestion keeps of it. The
family is what `metadata.get("family")` gives. -/
structure Document where
  metadata : Metadata
  family : Json := .null
  remoteHash : String
  lineCount : ℕ
  snapshot : String
  kept : snapshot ≠ ""

/-- A manifest. -/
structure Manifest where
  targetUri : String
  documents : Dict String Document

/-! ### The outside -/

/-- A request to the server. -/
inductive Request where
  | find (query targetUri : String) (limit : ℤ)
  | grep (pattern uri : String) (nodeLimit : ℕ)
  | read (uri : String) (offset limit : ℕ)
  deriving DecidableEq, Repr

/-- What a turn needs from outside: the result of a request, the text of a file, the seconds
since the turn began, and a way to set the timeout of the next request. -/
structure Outside (σ : Type) where
  request : Request → Program σ Failure Json
  readText : String → Program σ Failure String
  elapsed : Program σ Failure ℚ
  setTimeout : ℚ → Program σ Failure Unit

/-- A turn: its manifest, its scope and its budget. -/
structure Retriever (σ : Type) where
  digest : String → String
  outside : Outside σ
  manifest : Manifest
  entity : String
  asOf : Date
  domain : Option String := none
  budget : Budget := {}
  candidatePolicy : Option (List String → Program σ Failure (List String)) := none

/-- What a turn has come to: the evidence by its ids and the counts of the budget, and beside
them the requests that were sent and the snapshots that were read. -/
structure Context (σ : Type) where
  evidence : Dict String Evidence := []
  counts : Dict Kind ℕ := []
  searchCount : ℕ := 0
  sent : List Request := []
  snapshots : List (String × String) := []
  outside : σ

/-- The evidence that is held. -/
def Context.held {σ : Type} (s : Context σ) : List Evidence := s.evidence.map Prod.snd

/-- How often something was counted. -/
def Context.count {σ : Type} (s : Context σ) (kind : Kind) : ℕ := (Dict.get? s.counts kind).getD 0

/-- A step of a turn. -/
abbrev Step (σ α : Type) := Program (Context σ) Failure α

section

variable {σ α : Type}

/-- A call of the outside. -/
def ask (m : Program σ Failure α) : Step σ α :=
  Program.within Context.outside (fun s outside => { s with outside }) m

/-- A value that may be missing or of another shape. -/
def accessed (x : Except AccessError α) : Step σ α := Program.ofExcept (x.mapError .access)

end

namespace Retriever

variable {σ : Type} (c : Retriever σ)

/-! ### Budget -/

/-- `budget.remaining()`. -/
def remaining : Step σ ℚ := do
  let elapsed ← ask c.outside.elapsed
  if c.budget.maxSeconds - elapsed ≤ 0 then throw (.budgetExceeded "턴 실행 시간 한도를 초과했습니다.")
  else return c.budget.maxSeconds - elapsed

/-- `budget.consume(kind)`. -/
def consume (kind : Kind) : Step σ Unit := do
  let _ ← c.remaining
  let s ← Program.state
  match c.budget.limit? kind with
  | none => return ()
  | some limit =>
    if limit ≤ s.count kind then throw (.budgetExceeded (kind.name ++ " 호출 한도를 초과했습니다."))
    else change fun s => { s with counts := s.counts.set kind (s.count kind + 1) }

/-- `before_http`. -/
def beforeHttp : Step σ Unit := do
  let remaining ← c.remaining
  ask (c.outside.setTimeout (min 60 remaining))

/-! ### The client -/

/-- A request, noted before it is sent. -/
def send (request : Request) : Step σ Json := do
  change fun s => { s with sent := s.sent ++ [request] }
  ask (c.outside.request request)

/-- `client.find`. -/
def find (query : String) (limit : ℤ) : Step σ Json := do
  let result ← c.send (.find query c.manifest.targetUri limit)
  accessed (result.get "resources" (.arr []))

/-- `client.grep`. -/
def grep (pattern uri : String) (limit : ℕ) : Step σ Json := do
  let result ← c.send (.grep pattern uri limit)
  match result with
  | .obj fields => return (Dict.get? fields "matches").getD (.arr [])
  | other => return other

/-- `client.read`. -/
def readContent (uri : String) (offset limit : ℕ) : Step σ Json := do
  let result ← c.send (.read uri offset limit)
  match result with
  | .str text => return .str text
  | other => accessed (other.item "content")

/-! ### Reading -/

/-- `metadata`: the metadata of a document that applies. -/
def metadata (uri : String) : Option Metadata :=
  (c.manifest.documents.get? uri).bind fun document =>
    if document.metadata.Applies c.entity c.asOf c.domain then some document.metadata else none

/-- The text of a snapshot, noted when it is read. -/
def readSnapshot (path : String) : Step σ String := do
  let text ← ask (c.outside.readText path)
  change fun s => { s with snapshots := s.snapshots ++ [(path, text)] }
  return text

/-- The test of what the server has sent against the snapshot. -/
def checkSnapshot (document : Document) (raw : String) (offset limit : ℕ) : Step σ Unit :=
  if document.snapshot = "" then return ()
  else do
    let snapshot ← c.readSnapshot document.snapshot
    if c.digest snapshot ≠ document.remoteHash then
      throw (.validation "원문 검증용 snapshot이 변경되었습니다. 재적재하세요.")
    else if raw ≠ String.ofList (lineRange snapshot.toList offset limit) then
      throw (.validation "서버 원문 구간이 적재 시점과 다릅니다. 재적재하세요.")
    else return ()

/-- The test of a whole document against the manifest. -/
def checkWhole (document : Document) (raw : String) (offset limit : ℕ) : Step σ Unit :=
  if offset = 0 ∧ document.lineCount ≤ limit ∧ c.digest raw ≠ document.remoteHash then
    throw (.validation "서버 원문이 manifest와 다릅니다. 재적재 후 질의하세요.")
  else return ()

/-- Hold an item, if it is not held yet and there are bytes left for it. -/
def hold (item : Evidence) : Step σ (Option Evidence) := do
  let s ← Program.state
  if item.evidenceId ∈ s.evidence.keys then return some item
  else if c.budget.maxContextBytes < evidenceBytes (s.held ++ [item]) then
    c.consume .contextExcluded
    return none
  else
    change fun s => { s with evidence := s.evidence.set item.evidenceId item }
    return some item

/-- `_read`. -/
def read (uri : String) (offset limit : ℕ) : Step σ (Option Evidence) :=
  match c.metadata uri with
  | none => throw (.validation "요청 범위에 포함되지 않은 원문입니다.")
  | some metadata => do
    c.consume .read
    c.beforeHttp
    let raw ← c.readContent uri offset limit
    let _ ← c.remaining
    match raw, c.manifest.documents.get? uri with
    | .str raw, some document =>
      if isBlank raw then return none
      else
        c.checkSnapshot document raw offset limit
        c.checkWhole document raw offset limit
        let item ← Program.ofExcept (evidenceFromText c.digest uri raw metadata offset)
        c.hold item
    | .str _, none => throw (.access .keyError)
    | _, _ => throw (.access .attributeError)

/-! ### Searching -/

/-- The uris of the hits whose documents apply. -/
def applicable : List Json → Except AccessError (List String)
  | [] => return []
  | hit :: rest => do
    let uri ← hit.get "uri" (.str "")
    let uri ← uri.hashed
    match uri.asStr?.filter fun text => (c.metadata text).isSome with
    | none => applicable rest
    | some text =>
      let _ ← hit.item "uri"
      return text :: (← applicable rest)

/-- The families of some documents. -/
def families (candidates : List String) : Except AccessError (List Json) := do
  let all ← candidates.mapM fun uri =>
    (c.manifest.documents.get? uri).elim (.error .keyError) fun document => document.family.hashed
  return all.filter fun family => !Json.memberOf [.null, .str ""] family

/-- Add the documents of the families that apply. -/
def expand (families : List Json) (candidates : List String) : Except AccessError (List String) :=
  if families.isEmpty then return candidates
  else
    c.manifest.documents.foldlM (fun candidates entry => do
      let family ← entry.2.family.hashed
      return if Json.memberOf families family ∧ (c.metadata entry.1).isSome ∧ entry.1 ∉ candidates
        then candidates ++ [entry.1] else candidates) candidates

/-- Let the policy of the caller order the candidates; it may leave some out, but add none. -/
def reorder (candidates : List String) : Step σ (List String) :=
  match c.candidatePolicy with
  | none => return candidates
  | some policy => do
    let reordered ← ask (policy candidates)
    if ∀ uri ∈ reordered, uri ∈ candidates then return reordered
    else throw (.value "candidate_policy가 입력에 없는 문서를 반환했습니다.")

/-- `[가-힣A-Za-z0-9_-]{2,}`. -/
def keywordPattern : Regex :=
  .run (fun c => ('가' ≤ c && c ≤ '힣') || c.isAlphanum || c = '_' || c = '-') 2 none

/-- Where to read a document: at its start, or in front of the first line with a keyword. -/
def anchor (query uri : String) (lineCount : ℕ) : Step σ ℕ :=
  if lineCount ≤ 120 then return 0
  else do
    let keywords := (keywordPattern.findall query.toList).take 10
    c.beforeHttp
    if keywords.isEmpty then return 0
    else
      let pattern := String.ofList (List.intercalate ['|'] (keywords.map Regex.escape))
      let anchors ← c.grep pattern uri 3
      if anchors.isTruthy then
        let first ← accessed anchors.firstItem
        let line ← accessed (first.get "line" (.int 1))
        match line.toInt? with
        | none => throw (.value "int")
        | some line => return (line - 9).toNat
      else return 0

/-- Read the candidates one after the other. -/
def readCandidates (query : String) : List String → Step σ (List Evidence)
  | [] => return []
  | uri :: rest => do
    let document ← accessed ((c.manifest.documents.get? uri).elim (.error .keyError) .ok)
    let offset ← c.anchor query uri document.lineCount
    let item ← c.read uri offset 120
    let selected ← readCandidates query rest
    return item.toList ++ selected

/-- What a search answers. -/
def searchAnswer (selected held : List Evidence) : Json :=
  .obj
    [("status", .str (if selected.isEmpty then "no_evidence" else "found")),
      ("evidence", .arr (selected.map Evidence.toJson)),
      ("scope", .obj
        [("entity", .str c.entity), ("as_of", .str c.asOf.isoformat),
          ("domain", c.domain.elim .null .str)]),
      ("context_bytes", .int (evidenceBytes held)),
      ("note", .str "원문 관련성과 충분성은 답변 전에 판단하세요. 검색 성공은 답변 가능을 뜻하지 않습니다.")]

/-- The candidates of the hits, with the members of their families. -/
def candidatesOf (hits : Json) (limit : ℕ) : Except AccessError (List String) := do
  let hits ← hits.elements
  let found ← c.applicable hits
  let candidates := found.eraseDups.take limit
  c.expand (← c.families candidates) candidates

/-- `search`. -/
def search (query : String) (limit : ℤ) : Step σ Json :=
  if isBlank query ∨ 1500 < query.length ∨ ¬ (1 ≤ limit ∧ limit ≤ 10) then
    throw (.value "검색어 1~1500자, limit 1~10 범위가 필요합니다.")
  else do
    c.consume .search
    c.beforeHttp
    let hits ← c.find query (max limit 12)
    change fun s => { s with searchCount := s.searchCount + 1 }
    let _ ← c.remaining
    let candidates ← accessed (c.candidatesOf hits limit.toNat)
    let candidates ← c.reorder candidates
    let selected ← c.readCandidates query (candidates.take 10)
    let s ← Program.state
    return c.searchAnswer selected s.held

/-- `read_more`. -/
def readMore (evidenceId : String) (startLine lineCount : ℤ) : Step σ Json := do
  let s ← Program.state
  match s.evidence.get? evidenceId with
  | none => throw (.value "현재 턴의 검색으로 받은 evidence_id만 읽을 수 있습니다.")
  | some evidence =>
    if startLine < 1 ∨ ¬ (1 ≤ lineCount ∧ lineCount ≤ 120) then
      throw (.value "start_line >= 1, line_count 1~120 범위가 필요합니다.")
    else
      let item ← c.read evidence.uri (startLine - 1).toNat lineCount.toNat
      return .obj
        [("status", .str (if item.isSome then "found" else "empty_or_budget")),
          ("evidence", item.elim .null Evidence.toJson)]

/-! ### Calls -/

/-- A call of a tool. -/
inductive ToolCall where
  | search (query : String) (limit : ℤ)
  | readMore (evidenceId : String) (startLine lineCount : ℤ)
  deriving DecidableEq, Repr

/-- What a call does. -/
def call : ToolCall → Step σ Json
  | .search query limit => c.search query limit
  | .readMore evidenceId startLine lineCount => c.readMore evidenceId startLine lineCount

/-- The state after some calls, each of which may have raised. -/
def run (outside : σ) (calls : List ToolCall) : Context σ :=
  calls.foldl (fun s asked => (c.call asked s).2) { outside }

end Retriever

end AgentLabs.Retrieval
