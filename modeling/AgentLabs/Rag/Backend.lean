import AgentLabs.Rag.Coordinates
import AgentLabs.Rag.Meter
import AgentLabs.Rag.Reading
import AgentLabs.Rag.Registry

/-!
# The backend

The backend searches the documents of the registry for one request: those of the company, as far as
they apply to the customer and the day, and where the request names a public topic those of the web,
as far as they were checked lately and were there on that day. Every call is metered, every window
is recorded, and a quotation is remembered only if its lines are found in the window that it is of.

The registry, the index and the clocks may answer anything and raise anywhere. What they answer is
kept in a journal that no operation reads, so that it can be said where a quotation of this very run
comes from. A document has one text.

## Main definitions

* `Ground`, `Backend`, `Session`: what a backend stands on, a backend, and what changes
* `Told`: what was answered in the course of a request
* `Backend.retrieve`, `Backend.retrieveWeb`, `Backend.resolve`: its operations
* `Session.Sound`: the invariant
* `Backend.Origin`: where a quotation may come from

## Main results

* `Backend.triple_retrieve`: what is remembered, and what is kept on the way
* `Backend.logs_retrieve`: where what is retrieved comes from
-/

namespace AgentLabs.Rag

open Math Text Program
open Retrieval (Date)

/-! ### What changes -/

/-- A row of `active_web`. -/
structure WebRow where
  id : String
  url : String
  hash : String
  uri : String
  title : String
  publishedAt : Option String := none
  checkedAt : ℚ

/-- A page that a search of the web has come to. -/
structure WebPage where
  url : String
  title : String
  text : String

/-- `CandidateReview`. -/
structure CandidateReview where
  relevant : Bool
  usableBody : Bool
  reason : String

/-- A row of `documents`, of what an ingestion looks at. -/
structure SourceRow where
  path : String
  title : String

/-- What a backend stands on: two clocks, an index, the documents, and the registry; a search of the
web with the texts that it left out, and a model that judges its pages; and the files and the index
that take them in. A hit of `grep` is a document with the number of a line, and `stored` is a read
that has nothing where the index answers 404. -/
structure Ground (ω : Type) where
  monotonic : Program ω WorkerError ℚ
  time : Program ω WorkerError ℚ
  find : String → String → ℕ → Program ω WorkerError (List String)
  grep : String → String → ℕ → Program ω WorkerError (List (String × ℤ))
  read : String → ℤ → ℤ → Program ω WorkerError String
  internal : Program ω WorkerError (Dict String BusinessMetadata)
  activeWeb : Program ω WorkerError (List WebRow)
  searchWeb : String → Program ω WorkerError (List WebPage × List String)
  contents : List WebPage → List String → Program ω WorkerError (List WebPage)
  judge : Fields → Program ω WorkerError CandidateReview
  reserve : String → WebPage → Program ω WorkerError (String × Disposition)
  row : String → Program ω WorkerError SourceRow
  update : String → DocState → Option String → Option String → Program ω WorkerError Unit
  writeText : String → String → Program ω WorkerError Unit
  readText : String → Program ω WorkerError String
  stored : String → Program ω WorkerError (Option String)
  addFile : String → String → Program ω WorkerError Unit

/-- What was answered in the course of a request: by the registry, by the clock, by a search of the
web, and by the model that judges its pages. -/
inductive Told where
  | internal (rows : Dict String BusinessMetadata)
  | activeWeb (rows : List WebRow)
  | time (now : ℚ)
  | pages (topic : String) (pages : List WebPage)
  | judged (payload : Fields) (review : CandidateReview)

/-- What changes in the course of a request: the meter, the windows of the client that is in use,
the quotations that are remembered, whether the web was searched and what it has added for this
request only, and what the backend stands on. The journal is for the proofs: nothing reads it. -/
structure Session (ω : Type) where
  meter : Meter
  windows : Windows := []
  evidence : Dict String Evidence := []
  used : Bool := false
  transient : List Evidence := []
  journal : List Told := []
  outside : ω

/-- `Backend`, with its settings. A url has a canonical form, or is refused, and may be of a domain
that is not allowed. -/
structure Backend (ω : Type) where
  lower : List Char → List Char
  digest : String → String
  ground : Ground ω
  isViking : Bool
  limits : Limits
  contextBytes : ℤ
  root : String := ""
  canonical : String → Except WorkerError String := .ok
  allowed : String → Bool := fun _ => true
  web : String := "off"
  maxAdditions : ℕ := 3
  webMaxAgeHours : ℕ := 168
  startedWall : ℚ

/-- A request. Its day has been read and written again. -/
structure Asking extends WorkRequest where
  day : Date
  isDay : asOf = day.isoformat

/-! ### Calls that are metered -/

/-- `uri.rsplit("/", 2)[0]`. -/
def rootOf (uri : String) : String :=
  let parts := uri.toList.splitOn '/'
  .ofList (['/'].intercalate (parts.take (max 1 (parts.length - 2))))

/-- The texts, each one once and in order. -/
def sortedTexts (texts : List String) : List String :=
  texts.eraseDups.mergeSort fun a b => decide (a ≤ b)

namespace Backend

variable {ω : Type} (b : Backend ω)

/-- A program of what the backend stands on. -/
def outdoors {α : Type} (m : Program ω WorkerError α) : Program (Session ω) WorkerError α :=
  within Session.outside (fun s outside => { s with outside }) m

/-- What is answered is noted. -/
def note (entry : Told) : Program (Session ω) WorkerError Unit :=
  change fun s => { s with journal := s.journal ++ [entry] }

/-- A program of what the backend stands on, the answer of which is noted. -/
def asked {α : Type} (m : Program ω WorkerError α) (entry : α → Told) :
    Program (Session ω) WorkerError α := do
  let a ← outdoors m
  note (entry a)
  pure a

/-- `meter.consume`, by the time that the clock shows. -/
def spend (name : String) (now : ℚ) : Program (Session ω) WorkerError Unit := fun s =>
  match s.meter.consume b.limits ⟨now, name⟩ with
  | (.ok (), meter) => (.ok (), { s with meter })
  | (.error _, meter) => (.error (.raised "BudgetExceeded"), { s with meter })

/-- `meter.consume`. -/
def consume (name : String) : Program (Session ω) WorkerError Unit := do
  let now ← outdoors b.ground.monotonic
  b.spend name now

/-- `meter.check`, by the time that the clock shows. -/
def inTime (now : ℚ) : Program (Session ω) WorkerError Unit := fun s =>
  if s.meter.isLate b.limits now then (.error (.raised "BudgetExceeded"), s) else (.ok (), s)

/-- `meter.check`. -/
def check : Program (Session ω) WorkerError Unit := do
  let now ← outdoors b.ground.monotonic
  b.inTime now

/-- `RecordingClient.find`. -/
def find (query target : String) (limit : ℕ) : Program (Session ω) WorkerError (List String) := do
  b.consume "find"
  outdoors (b.ground.find query target limit)

/-- `RecordingClient.grep`. -/
def grep (pattern uri : String) (limit : ℕ) :
    Program (Session ω) WorkerError (List (String × ℤ)) := do
  b.consume "grep"
  outdoors (b.ground.grep pattern uri limit)

/-- A window is recorded. -/
def record (uri raw : String) (offset : ℤ) : Program (Session ω) WorkerError Unit :=
  change fun s => { s with windows := s.windows.set (uri, b.digest raw) (raw, offset) }

/-- `RecordingClient.read`. -/
def read (uri : String) (offset limit : ℤ) : Program (Session ω) WorkerError String := do
  b.consume "read"
  let raw ← outdoors (b.ground.read uri offset limit)
  b.record uri raw offset
  pure raw

/-- `_client`: a client without windows. -/
def newClient : Program (Session ω) WorkerError Unit := change fun s => { s with windows := [] }

/-! ### Searches -/

/-- `KeywordRetriever`. -/
def keywordSearch (query target : String) (k : ℕ) :
    Program (Session ω) WorkerError (List String) :=
  let keywords := sortedTexts ((terms b.lower query.toList).map String.ofList)
  -- Without words there is nothing to search for.
  match keywords.take 8 with
  | [] => pure []
  | keywords => do
    let pattern := String.ofList (['|'].intercalate (keywords.map fun word =>
      Regex.escape word.toList))
    let hits ← b.grep pattern target k
    pure ((hits.map Prod.fst).filter (· ≠ "")).eraseDups

/-- The rankings of the retrievers of some roots. -/
def searchRoots (query : String) :
    List String → Program (Session ω) WorkerError (List (List String))
  | [] => pure []
  | root :: rest => do
    let dense ← b.find query root 8
    let sparse ← b.keywordSearch query root 8
    let others ← searchRoots query rest
    pure (dense :: sparse :: others)

/-- `HybridRetriever`. -/
def hybridSearch (roots : List String) (query : String) :
    Program (Session ω) WorkerError (List String) := do
  let rankings ← b.searchRoots query roots
  let fused ← Program.ofExcept (reciprocalRankFusion rankings)
  pure (fused.take 10)

/-- The roots of some documents. -/
def rootsOf (uris : List String) (localRoot : String) : List String :=
  if b.isViking then sortedTexts (uris.map rootOf) else [localRoot]

/-- The retriever of the documents of the company. -/
def internalRetriever (internal : Dict String BusinessMetadata) (asking : Asking) :
    EvidenceRetriever (Session ω) where
  lower := b.lower
  digest := b.digest
  finding :=
    { invoke := b.hybridSearch (b.rootsOf internal.keys "local://internal/")
      grep := fun pattern uri limit => do
        let hits ← b.grep pattern uri limit
        pure (hits.map Prod.snd)
      read := fun uri offset limit => b.read uri offset limit }
  manifest := internal
  entity := asking.entity
  asOf := asking.day
  maxBytes := b.contextBytes
  maxDocuments := 8
  maxReadCalls := 12

/-! ### What is remembered -/

/-- The part of `remember` that reads the windows and fills the evidence. -/
def keep (items : List Evidence) : Program (Session ω) WorkerError Unit := fun s =>
  match remember b.digest s.windows items s.evidence with
  | (.ok (), evidence) => (.ok (), { s with evidence })
  | (.error .key, evidence) => (.error (.raised "KeyError"), { s with evidence })
  | (.error _, evidence) =>
    (.error (.valueError "evidence_coordinates_or_hash"), { s with evidence })

/-- `select_evidence` within the budget of the settings. -/
def select (items : List Evidence) : Except WorkerError (List Evidence) :=
  match selectEvidence items b.contextBytes [] with
  | none => .error (.valueError "빈 Context 직렬화보다 예산이 작습니다.")
  | some selected => .ok selected

/-! ### The web -/

/-- A row was checked lately, or in the course of this request. -/
def isFresh (now : ℚ) (row : WebRow) : Bool :=
  decide (now - row.checkedAt ≤ b.webMaxAgeHours * 3600) || decide (b.startedWall ≤ row.checkedAt)

/-- The rows that were checked lately. The clock is read for each of them. -/
def freshRows : List WebRow → Program (Session ω) WorkerError (List WebRow)
  | [] => pure []
  | row :: rest => do
    let now ← asked b.ground.time .time
    let others ← freshRows rest
    pure (if b.isFresh now row then row :: others else others)

/-- A page was published after the day that is asked for. -/
def isLater (asking : Asking) (row : WebRow) : Bool :=
  match row.publishedAt with
  | none => false
  | some published =>
    published ≠ "" ∧ asking.asOf < String.ofList (published.toList.take 10)

/-- What a quotation takes from its page. -/
def webLabel (row : WebRow) : SourceLabel where
  docId := row.id
  title := row.title
  source := row.url
  page := none
  version := String.ofList (row.hash.toList.take 12)

/-- The hits of all roots. -/
def findRoots (question : String) : List String → Program (Session ω) WorkerError (List String)
  | [] => pure []
  | root :: rest => do
    let hits ← b.find question root 8
    let others ← findRoots question rest
    pure (hits ++ others)

/-- The quotations of the pages that were hit. -/
def quotePages (question : String) (asking : Asking) (rows : Dict String WebRow) :
    List String → Program (Session ω) WorkerError (List Evidence)
  | [] => pure []
  | hit :: rest =>
    match rows.get? hit with
    -- A hit that is not of a fresh row is passed over.
    | none => quotePages question asking rows rest
    | some row =>
      if isLater asking row then quotePages question asking rows rest
      else do
        let raw ← b.read row.uri 0 500
        let items ← Program.ofExcept
          (match makeEvidence b.lower b.digest row.uri raw (webLabel row) question with
          | none => .error (.raised "ValidationError")
          | some items => .ok items)
        let others ← quotePages question asking rows rest
        pure (items ++ others)

/-- `retrieve_web`. -/
def retrieveWeb (question : String) (asking : Asking) :
    Program (Session ω) WorkerError (List Evidence) := do
  let active ← asked b.ground.activeWeb .activeWeb
  let rows ← b.freshRows active
  if rows = [] then pure []
  else do
    newClient
    let hits ← b.findRoots question (b.rootsOf (rows.map WebRow.uri) "local://web/")
    let byUri := Dict.setAll [] (rows.map fun row => (row.uri, row))
    let evidence ← b.quotePages question asking byUri (hits.take 8)
    b.keep evidence
    pure evidence

/-! ### The operations -/

/-- What the web adds to a retrieval. -/
def publicEvidence (question : String) (asking : Asking) :
    Program (Session ω) WorkerError (List Evidence) :=
  if asking.publicTopic = "" then pure []
  else b.retrieveWeb (question ++ " " ++ asking.publicTopic) asking

/-- `retrieve`. -/
def retrieve (asking : Asking) (question : String) :
    Program (Session ω) WorkerError (List Evidence) := do
  let internal ← asked b.ground.internal .internal
  newClient
  let found ← (b.internalRetriever internal asking).retrieveQueries [question]
  b.keep found.1
  let web ← b.publicEvidence question asking
  Program.ofExcept (b.select (found.1 ++ web))

/-- `resolve`. -/
def resolve (ids : List String) : Program (Session ω) WorkerError (List Evidence) := fun s =>
  match (distinctTexts ids).mapM s.evidence.get? with
  | none => (.error (.valueError "unknown_evidence_id"), s)
  | some evidence => (.ok evidence, s)

end Backend

/-! ### Pages of the web -/

/-- `text.replace("\r\n", "\n")`. -/
def unifyLines : List Char → List Char
  | '\r' :: '\n' :: rest => '\n' :: unifyLines rest
  | c :: rest => c :: unifyLines rest
  | [] => []

/-- The text of a page, as it is judged, quoted and stored. -/
def pageText (text : String) : String := strip (.ofList (unifyLines text.toList)) ++ "\n"

/-- What the model that judges a page is shown. -/
def judgePayload (topic : String) (page : WebPage) : Fields :=
  [("public_topic", .str topic), ("title", .str page.title),
    ("text", .str (.ofList ((pageText page.text).toList.take 18000)))]

/-- A quotation of a page that a search for a public topic has come to, and that was judged to be
relevant and to have a body, by what was answered. -/
def FromPage (journal : List Told) (topic : String) (e : Evidence) : Prop :=
  topic ≠ "" ∧ ∃ pages, .pages topic pages ∈ journal ∧ ∃ page ∈ pages,
    (∃ review, .judged (judgePayload topic page) review ∈ journal ∧
      review.relevant = true ∧ review.usableBody = true) ∧
    e.uri = page.url ∧ e.source = page.url ∧ OccursIn [(page.url, pageText page.text)] e

/-- A quotation of a page that one of some public topics has come to. -/
def OfPage (topics : Set String) (journal : List Told) (e : Evidence) : Prop :=
  ∃ topic ∈ topics, FromPage journal topic e

theorem OfPage.grow {topics : Set String} {journal more : List Told} {e : Evidence}
    (page : OfPage topics journal e) (grown : journal ⊆ more) : OfPage topics more e := by
  obtain ⟨topic, member, some, pages, shown, own, listed, ⟨review, judged, fits⟩, rest⟩ := page
  exact ⟨topic, member, some, pages, grown shown, own, listed, ⟨review, grown judged, fits⟩, rest⟩

/-! ### The invariant -/

/-- What is true between the steps: the windows are those of some reads; what is remembered is in
the documents or of a page; the calls are within the limits; and what the web has added for this
request is of a page, and remembered. -/
structure Session.Sound {ω : Type} (b : Backend ω) (documents : Documents) (topics : Set String)
    (s : Session ω) : Prop where
  recorded : ∃ calls, s.windows = windowsOf b.digest documents calls
  stored : ∀ id e, s.evidence.get? id = some e →
    e.evidenceId = id ∧ (OccursIn documents e ∨ OfPage topics s.journal e)
  calls : ∀ name, s.meter.count name ≤ b.limits.of name
  tools : s.meter.tools ≤ b.limits.maxTools
  added : ∀ e ∈ s.transient, OfPage topics s.journal e ∧ e.evidenceId ∈ s.evidence.keys

/-- The invariant, where these quotations are remembered and this was answered. -/
structure Session.Holds {ω : Type} (b : Backend ω) (documents : Documents) (topics : Set String)
    (ids : List String) (told : List Told) (s : Session ω) : Prop where
  sound : s.Sound b documents topics
  known : ids ⊆ s.evidence.keys
  heard : told ⊆ s.journal

namespace Session.Holds

variable {ω : Type} {b : Backend ω} {documents : Documents} {topics : Set String}
  {ids : List String} {told more : List Told} {s : Session ω}

theorem hears (h : s.Holds b documents topics ids (told ++ more)) :
    s.Holds b documents topics ids told :=
  ⟨h.sound, h.known, (List.append_subset.mp h.heard).1⟩

theorem knows {others : List String} (h : s.Holds b documents topics (ids ++ others) told) :
    s.Holds b documents topics ids told :=
  ⟨h.sound, (List.append_subset.mp h.known).1, h.heard⟩

/-- What was answered before stays true when there is one more answer. -/
theorem note (h : s.Holds b documents topics ids told) (entry : Told) :
    Session.Holds b documents topics ids (told ++ [entry])
      { s with journal := s.journal ++ [entry] } := by
  have grown : s.journal ⊆ s.journal ++ [entry] := List.subset_append_left _ _
  refine ⟨⟨h.sound.recorded, fun id e found => ?_, h.sound.calls, h.sound.tools,
    fun e listed => ⟨(h.sound.added e listed).1.grow grown, (h.sound.added e listed).2⟩⟩, h.known,
    List.append_subset.mpr ⟨List.Subset.trans h.heard grown, List.subset_append_right _ _⟩⟩
  exact ⟨(h.sound.stored id e found).1, (h.sound.stored id e found).2.imp_right fun page =>
    page.grow grown⟩

end Session.Holds

/-- What is read is text of the documents. -/
def Ground.Serves {ω : Type} (ground : Ground ω) (documents : Documents) : Prop :=
  ∀ uri offset limit raw, (ground.read uri offset limit).Answers raw →
    readDocument documents uri offset limit = .ok raw

/-- A property that is kept by what the backend stands on, by the meter and by the reads. -/
structure Backend.Steady {ω : Type} (b : Backend ω) (P : Session ω → Prop) : Prop where
  outdoors : ∀ {α : Type} (m : Program ω WorkerError α), Keeps P (Backend.outdoors m)
  spend : ∀ name now, Keeps P (b.spend name now)
  read : ∀ uri offset limit, Keeps P (b.read uri offset limit)

namespace Backend.Steady

variable {ω : Type} {b : Backend ω} {P : Session ω → Prop}

theorem consume (h : b.Steady P) (name : String) : Keeps P (b.consume name) :=
  (h.outdoors _).bind fun now => h.spend name now

theorem check (h : b.Steady P) : Keeps P b.check := by
  refine (h.outdoors _).bind fun now s holds => ?_
  unfold inTime
  split_ifs
  · exact holds
  · exact holds

theorem find (h : b.Steady P) (query target : String) (limit : ℕ) :
    Keeps P (b.find query target limit) :=
  (h.consume _).bind fun _ => h.outdoors _

theorem grep (h : b.Steady P) (pattern uri : String) (limit : ℕ) :
    Keeps P (b.grep pattern uri limit) :=
  (h.consume _).bind fun _ => h.outdoors _

theorem searchRoots (h : b.Steady P) (query : String) (roots : List String) :
    Keeps P (b.searchRoots query roots) := by
  have sparse (root : String) : Keeps P (b.keywordSearch query root 8) := by
    unfold keywordSearch
    dsimp only
    split
    · exact keeps_pure _
    · exact (h.grep _ _ _).bind fun hits => keeps_pure _
  induction roots with
  | nil => exact keeps_pure _
  | cons root rest ih =>
    exact (h.find _ _ _).bind fun dense => (sparse root).bind fun hits => ih.bind fun others =>
      keeps_pure _

theorem internalRetriever (h : b.Steady P) (internal : Dict String BusinessMetadata)
    (asking : Asking) (queries : List String) :
    Keeps P ((b.internalRetriever internal asking).retrieveQueries queries) := by
  refine EvidenceRetriever.keeps_retrieveQueries ?_ ?_ ?_ rfl queries
  · intro query
    exact (h.searchRoots _ _).bind fun rankings => (keeps_ofExcept _).bind fun fused =>
      keeps_pure _
  · intro pattern uri limit
    exact (h.grep _ _ _).bind fun hits => keeps_pure _
  · intro uri offset limit
    exact h.read _ _ _

theorem findRoots (h : b.Steady P) (question : String) (roots : List String) :
    Keeps P (b.findRoots question roots) := by
  induction roots with
  | nil => exact keeps_pure _
  | cons root rest ih =>
    exact (h.find _ _ _).bind fun hits => ih.bind fun others => keeps_pure _

theorem quotePages (h : b.Steady P) (question : String) (asking : Asking)
    (rows : Dict String WebRow) (hits : List String) :
    Keeps P (b.quotePages question asking rows hits) := by
  induction hits with
  | nil => exact keeps_pure _
  | cons hit rest ih =>
    rw [Backend.quotePages]
    cases rows.get? hit with
    | none => exact ih
    | some row =>
      refine .ite ih ?_
      exact (h.read _ _ _).bind fun raw => (keeps_ofExcept _).bind fun items =>
        ih.bind fun others => keeps_pure _

end Backend.Steady

namespace Backend

variable {ω : Type} {b : Backend ω} {documents : Documents} {topics : Set String}
  {ids : List String} {told : List Told} {s : Session ω}

/-! #### Steps -/

theorem keeps_outdoors {α : Type} (m : Program ω WorkerError α) :
    Keeps (Session.Holds b documents topics ids told) (outdoors m) :=
  keeps_within fun _ _ h =>
    ⟨⟨h.sound.recorded, h.sound.stored, h.sound.calls, h.sound.tools, h.sound.added⟩, h.known,
      h.heard⟩

/-- **One more answer** is noted. -/
theorem triple_asked {α : Type} (m : Program ω WorkerError α) (entry : α → Told) :
    Triple (Session.Holds b documents topics ids told) (asked m entry)
      (fun a => Session.Holds b documents topics ids (told ++ [entry a]))
      (Session.Holds b documents topics ids told) := by
  refine (keeps_outdoors m).triple.bind fun a => ?_
  refine Triple.bind (Q := fun _ => Session.Holds b documents topics ids (told ++ [entry a]))
    (.change fun s h => h.note _) fun _ => .pure fun s h => h

theorem keeps_asked {α : Type} (m : Program ω WorkerError α) (entry : α → Told) :
    Keeps (Session.Holds b documents topics ids told) (asked m entry) :=
  Triple.keeps ((triple_asked m entry).mono (fun _ h => h) (fun _ _ h => h.hears) fun _ h => h)

theorem keeps_spend (name : String) (now : ℚ) :
    Keeps (Session.Holds b documents topics ids told) (b.spend name now) := by
  intro s h
  unfold spend
  rcases consume_cases b.limits s.meter ⟨now, name⟩ with ⟨done, -, room, toolRoom⟩ | ⟨e, refused, -⟩
  · rw [done]
    refine ⟨⟨h.sound.recorded, h.sound.stored, fun other => ?_, ?_, h.sound.added⟩, h.known,
      h.heard⟩
    · dsimp only
      rw [count_bump]
      by_cases same : name = other
      · rw [if_pos same, ← same]
        exact room
      · rw [if_neg same]
        exact h.sound.calls other
    · dsimp only
      rw [tools_bump]
      split_ifs with tool
      · exact toolRoom tool
      · exact h.sound.tools
  · rw [refused]
    exact h

theorem keeps_newClient : Keeps (Session.Holds b documents topics ids told) newClient :=
  keeps_change fun _ h =>
    ⟨⟨⟨[], rfl⟩, h.sound.stored, h.sound.calls, h.sound.tools, h.sound.added⟩, h.known, h.heard⟩

/-- A window that is recorded is that of one more read. -/
theorem recorded_concat {calls : List ReadCall} {uri raw : String} {offset limit : ℤ}
    (served : readDocument documents uri offset limit = .ok raw) :
    (windowsOf b.digest documents calls).set (uri, b.digest raw) (raw, offset) =
      windowsOf b.digest documents (calls ++ [⟨uri, offset, limit, true⟩]) := by
  have text : ReadCall.text? documents ⟨uri, offset, limit, true⟩ = some raw :=
    text?_eq_some_iff.mpr ⟨rfl, served⟩
  conv_rhs => rw [windowsOf, List.foldl_append, List.foldl_cons, List.foldl_nil, snd_read, text]
  rfl

theorem yields_outdoors {α : Type} (m : Program ω WorkerError α) :
    Yields (outdoors m) m.Answers := fun s _ ok => ⟨s.outside, ok⟩

theorem keeps_read (serves : b.ground.Serves documents) (uri : String) (offset limit : ℤ) :
    Keeps (Session.Holds b documents topics ids told) (b.read uri offset limit) := by
  refine Keeps.bind ((keeps_outdoors _).bind fun now => keeps_spend _ now) fun _ => ?_
  -- The window is recorded only where the client has answered.
  have kept : Keeps (Session.Holds b documents topics ids told)
      (outdoors (b.ground.read uri offset limit)) := keeps_outdoors _
  refine Triple.keeps ((kept.triple.yields (yields_outdoors _)).bind fun raw => ?_)
  intro s ⟨gave, h⟩
  have served := serves uri offset limit raw gave
  obtain ⟨calls, recorded⟩ := h.sound.recorded
  have after : Session.Holds b documents topics ids told
      { s with windows := s.windows.set (uri, b.digest raw) (raw, offset) } := by
    refine ⟨⟨⟨calls ++ [⟨uri, offset, limit, true⟩], ?_⟩, h.sound.stored, h.sound.calls,
      h.sound.tools, h.sound.added⟩, h.known, h.heard⟩
    dsimp only
    rw [recorded]
    exact recorded_concat served
  exact ⟨fun _ _ => after, fun _ _ => after⟩

/-- The invariant is kept by the metered calls. -/
theorem steady_holds (serves : b.ground.Serves documents) :
    b.Steady (Session.Holds b documents topics ids told) :=
  ⟨keeps_outdoors, keeps_spend, keeps_read serves⟩

/-- More quotations are remembered. -/
theorem holds_remember (h : s.Holds b documents topics ids told) {items : List Evidence}
    (real : ∀ e ∈ items, OccursIn documents e ∨ OfPage topics s.journal e) :
    Session.Holds b documents topics (ids ++ items.map Evidence.evidenceId) told
      { s with evidence := s.evidence.setAll (items.map fun e => (e.evidenceId, e)) } := by
  have grown : s.evidence.keys ⊆
      (s.evidence.setAll (items.map fun e => (e.evidenceId, e))).keys := fun id old =>
    Dict.mem_keys_setAll.mpr (.inl old)
  refine ⟨⟨h.sound.recorded, fun id e found => ?_, h.sound.calls, h.sound.tools,
    fun e listed => ⟨(h.sound.added e listed).1, grown (h.sound.added e listed).2⟩⟩, ?_, h.heard⟩
  · rcases Dict.of_get?_setAll found with now | before
    · obtain ⟨item, listed, same⟩ := List.mem_map.mp now
      obtain ⟨rfl, rfl⟩ := Prod.mk.inj same
      exact ⟨rfl, real item listed⟩
    · exact h.sound.stored id e before
  · intro id listed
    refine (List.mem_append.mp listed).elim (fun old => grown (h.known old)) fun new => ?_
    refine Dict.mem_keys_setAll.mpr (.inr ?_)
    rwa [List.map_map]

/-- **What is remembered** is in the documents, and stays known. -/
theorem triple_keep (items : List Evidence) :
    Triple (Session.Holds b documents topics ids told) (b.keep items)
      (fun _ s => Session.Holds b documents topics (ids ++ items.map Evidence.evidenceId) told s ∧
        ∀ e ∈ items, OccursIn documents e)
      (Session.Holds b documents topics ids told) := by
  intro s h
  obtain ⟨calls, recorded⟩ := h.sound.recorded
  unfold keep Rag.remember
  cases checked : items.forM (checkItem b.digest s.windows) with
  | error e =>
    cases e <;> exact ⟨nofun, fun _ _ => h⟩
  | ok =>
    refine ⟨fun _ _ => ?_, nofun⟩
    have occurs : ∀ e ∈ items, OccursIn documents e := fun e listed =>
      occursIn_of_checkItem (recorded ▸ forM_eq_ok_iff.mp checked e listed)
    exact ⟨holds_remember h fun e listed => .inl (occurs e listed), occurs⟩

theorem keeps_freshRows (rows : List WebRow) :
    Keeps (Session.Holds b documents topics ids told) (b.freshRows rows) := by
  induction rows with
  | nil => exact keeps_pure _
  | cons row rest ih =>
    exact (keeps_asked _ _).bind fun now => ih.bind fun others => keeps_pure _

/-- **What the web adds** is in the documents, and remembered. -/
theorem triple_retrieveWeb (serves : b.ground.Serves documents) (question : String)
    (asking : Asking) :
    Triple (Session.Holds b documents topics ids told) (b.retrieveWeb question asking)
      (fun items s =>
        Session.Holds b documents topics (ids ++ items.map Evidence.evidenceId) told s ∧
        ∀ e ∈ items, OccursIn documents e)
      (Session.Holds b documents topics ids told) := by
  have steady : b.Steady (Session.Holds b documents topics ids told) := steady_holds serves
  unfold retrieveWeb
  refine (keeps_asked _ _).triple.bind fun active => ?_
  refine (keeps_freshRows active).triple.bind fun rows => ?_
  refine .ite (fun _ => .pure fun s h => ⟨?_, fun e none => (by cases none)⟩) fun _ => ?_
  · rwa [List.map_nil, List.append_nil]
  refine keeps_newClient.triple.bind fun _ => (steady.findRoots _ _).triple.bind fun hits => ?_
  refine (steady.quotePages _ _ _ _).triple.bind fun items => ?_
  exact (triple_keep items).bind fun _ => .pure fun s h => h

end Backend

/-! ### What is retrieved -/

/-- A quotation of a document of the company that applies to the customer and the day, by the rows
that the registry has. -/
def Backend.Internal (asking : Asking) (journal : List Told) (e : Evidence) : Prop :=
  ∃ internal, .internal internal ∈ journal ∧ ∃ m, internal.get? e.uri = some m ∧
    m.Applies asking.entity asking.day ∧ e.docId = m.docId ∧ e.source = m.source ∧
      e.version = m.version

/-- A quotation of a page of the web that was checked lately and was there on the day, by the rows
that the registry has and the time that it is. -/
def Backend.FromWeb {ω : Type} (b : Backend ω) (asking : Asking) (journal : List Told)
    (e : Evidence) : Prop :=
  ∃ active, .activeWeb active ∈ journal ∧ ∃ row ∈ active, row.uri = e.uri ∧
    (∃ now, .time now ∈ journal ∧ b.isFresh now row) ∧ isLater asking row = false ∧
      e.docId = row.id ∧ e.source = row.url ∧ e.version = (webLabel row).version

/-- Where a quotation may come from: the web only if there is a public topic. -/
def Backend.Origin {ω : Type} (b : Backend ω) (asking : Asking) (journal : List Told)
    (e : Evidence) : Prop :=
  Internal asking journal e ∨ asking.publicTopic ≠ "" ∧ b.FromWeb asking journal e

/-- What is wanted of what a retrieval returns, by what it was answered. -/
structure RetrievalLaw {ω : Type} (b : Backend ω) (documents : Documents) (asking : Asking)
    (journal : List Told) (items : List Evidence) : Prop where
  origin : ∀ e ∈ items, b.Origin asking journal e
  occurs : ∀ e ∈ items, OccursIn documents e
  fits : contextSize items ≤ b.contextBytes
  distinct : (items.map Evidence.place).Nodup

namespace Backend

variable {ω : Type} {b : Backend ω} {documents : Documents} {topics : Set String}
  {ids : List String} {told journal more : List Told} {asking : Asking} {e : Evidence}

theorem Internal.grow (own : Internal asking journal e) (grown : journal ⊆ more) :
    Internal asking more e := by
  obtain ⟨internal, registered, rest⟩ := own
  exact ⟨internal, grown registered, rest⟩

theorem FromWeb.grow (web : b.FromWeb asking journal e) (grown : journal ⊆ more) :
    b.FromWeb asking more e := by
  obtain ⟨active, registered, row, listed, same, ⟨now, shown, fresh⟩, rest⟩ := web
  exact ⟨active, grown registered, row, listed, same, ⟨now, grown shown, fresh⟩, rest⟩

theorem Origin.grow (origin : b.Origin asking journal e) (grown : journal ⊆ more) :
    b.Origin asking more e :=
  origin.imp (Internal.grow · grown) fun web => ⟨web.1, web.2.grow grown⟩

/-! #### What is answered -/

theorem logs_asked {α : Type} (m : Program ω WorkerError α) (entry : α → Told) :
    Logs Session.journal (asked m entry) fun a more => more = [entry a] := by
  intro s a t ended
  unfold asked at ended
  rcases ran : outdoors m s with ⟨failed | answer, middle⟩
  · rw [run_bind_error ran] at ended
    cases ended
  · rw [run_bind ran] at ended
    obtain ⟨same, rfl⟩ := Prod.mk.inj ended
    obtain rfl := Except.ok.inj same
    obtain ⟨-, rfl⟩ := Prod.mk.inj ran
    exact ⟨[entry answer], rfl, rfl⟩

/-- The metered calls note nothing. -/
theorem steady_quiet (journal : List Told) : b.Steady fun s => s.journal = journal where
  outdoors m := keeps_within fun s outside h => h
  spend name now s h := by
    unfold spend
    split <;> exact h
  read uri offset limit := by
    have spends (now : ℚ) : Keeps (fun s => s.journal = journal) (b.spend "read" now) := by
      intro s h
      unfold spend
      split <;> exact h
    have outside {α : Type} (m : Program ω WorkerError α) :
        Keeps (fun s : Session ω => s.journal = journal) (outdoors m) :=
      keeps_within fun s outside h => h
    refine ((outside _).bind spends).bind fun _ => (outside _).bind fun raw => ?_
    exact fun s h => h

theorem logs_of_keeps {α : Type} {m : Program (Session ω) WorkerError α}
    (quiet : ∀ journal, Keeps (fun s => s.journal = journal) m) :
    Logs Session.journal m fun _ more => more = [] :=
  logs_quiet fun s => quiet s.journal s rfl

theorem keeps_keep_quiet (items : List Evidence) (journal : List Told) :
    Keeps (fun s => s.journal = journal) (b.keep items) := by
  intro s h
  unfold keep
  split <;> exact h

theorem logs_freshRows (rows : List WebRow) :
    Logs Session.journal (b.freshRows rows) fun kept more =>
      ∀ row ∈ kept, row ∈ rows ∧ ∃ now, .time now ∈ more ∧ b.isFresh now row := by
  induction rows with
  | nil => exact logs_pure fun row none => by cases none
  | cons row rest ih =>
    refine (logs_asked b.ground.time .time).bind fun now x shown => ?_
    subst shown
    refine ih.bind fun others y fresh => logs_pure ?_
    rw [List.append_nil]
    have later : ∀ other ∈ others, other ∈ row :: rest ∧
        ∃ now', .time now' ∈ [Told.time now] ++ y ∧ b.isFresh now' other := by
      intro other kept
      obtain ⟨listed, now', shown, new⟩ := fresh other kept
      exact ⟨.tail _ listed, now', List.mem_append_right _ shown, new⟩
    split_ifs with new
    · exact List.forall_mem_cons.mpr
        ⟨⟨.head _, now, List.mem_append_left _ (.head _), new⟩, later⟩
    · exact later

/-! #### Where it comes from -/

theorem metadata?_internalRetriever {internal : Dict String BusinessMetadata} {uri : String}
    {m : BusinessMetadata} (found : (b.internalRetriever internal asking).metadata? uri = some m) :
    internal.get? uri = some m ∧ m.Applies asking.entity asking.day := by
  obtain ⟨stored, applies⟩ := Option.filter_eq_some_iff.mp found
  exact ⟨stored, (of_decide_eq_true applies).1⟩

theorem yields_internalRetriever (keeps : KeepsSpaces b.lower)
    (internal : Dict String BusinessMetadata) (asking : Asking) (question : String) :
    Yields ((b.internalRetriever internal asking).retrieveQueries [question]) fun found =>
      ∀ e ∈ found.1, Internal asking [.internal internal] e := by
  intro s found ok e listed
  rcases returned : (b.internalRetriever internal asking).retrieveQueries [question] s with
    ⟨result, t⟩
  rw [returned] at ok
  obtain rfl : result = .ok found := ok
  obtain ⟨journal, -, law⟩ := (EvidenceRetriever.tracks_retrieveQueries [question]).exists_journal
    (EvidenceRetriever.notes_retrieveQueries keeps [question]) returned
  obtain ⟨uri, m, stored, offset, limit, raw, -, quoted⟩ := law.sourced e listed
  have quoted : QuoteLaw b.lower b.digest uri raw m.label _ offset e := quoted
  obtain ⟨stored, applies⟩ := metadata?_internalRetriever stored
  exact ⟨internal, .head _, m, quoted.uri ▸ stored, applies, quoted.docId, quoted.source,
    quoted.version⟩

/-- The quotations of pages are of rows that were hit, and that are not later than the day. -/
theorem yields_quotePages (keeps : KeepsSpaces b.lower) (question : String) (asking : Asking)
    (rows : Dict String WebRow) (hits : List String) :
    Yields (b.quotePages question asking rows hits) fun items => ∀ e ∈ items, ∃ uri row,
      rows.get? uri = some row ∧ row.uri = e.uri ∧ isLater asking row = false ∧
        e.docId = row.id ∧ e.source = row.url ∧ e.version = (webLabel row).version := by
  induction hits with
  | nil => exact yields_pure fun e none => by cases none
  | cons hit rest ih =>
    rw [quotePages]
    cases found : rows.get? hit with
    | none => exact ih
    | some row =>
      refine .ite (fun _ => ih) fun onTime => ?_
      refine (yields_answers _).bind fun raw _ => ?_
      refine Yields.bind (yields_ofExcept fun items made => made) fun items made => ih.bind
        fun others later => yields_pure (List.forall_mem_append.mpr ⟨fun e held => ?_, later⟩)
      -- The quotations are those that the source makes of the page, none is left out.
      obtain ⟨items', made', law⟩ :=
        makeEvidence_ok keeps b.digest row.uri raw (webLabel row) question 0 []
      rw [made'] at made
      cases made
      have quote := law e held
      exact ⟨hit, row, found, quote.uri.symm, Bool.eq_false_iff.mpr onTime, quote.docId,
        quote.source, quote.version⟩

theorem logs_retrieveWeb (keeps : KeepsSpaces b.lower) (question : String) (asking : Asking) :
    Logs Session.journal (b.retrieveWeb question asking) fun items more =>
      ∀ e ∈ items, b.FromWeb asking more e := by
  unfold retrieveWeb
  refine (logs_asked _ _).bind fun active x listed => ?_
  refine (logs_freshRows active).bind fun rows y fresh => ?_
  refine Logs.ite (fun _ => logs_pure fun e none => by cases none) fun _ => ?_
  have client : Logs Session.journal (newClient : Program (Session ω) WorkerError Unit)
      fun _ more => more = [] := logs_quiet fun _ => rfl
  refine client.bind fun _ none silent => ?_
  refine (logs_of_keeps fun journal => (steady_quiet journal).findRoots _ _).bind
    fun hits none' silent' => ?_
  refine ((logs_of_keeps fun journal => (steady_quiet journal).quotePages _ _ _ _).yields
    (yields_quotePages keeps _ asking _ _)).bind fun items z ⟨quoted, quiet⟩ => ?_
  refine (logs_of_keeps fun journal => keeps_keep_quiet items journal).bind
    fun _ z' quiet' => logs_pure fun e held => ?_
  obtain ⟨uri, row, found, same, onTime, rest⟩ := quoted e held
  -- A root that was found is that of a row that is fresh.
  have kept : row ∈ rows := by
    rcases Dict.of_get?_setAll found with now | before
    · obtain ⟨own, kept, same⟩ := List.mem_map.mp now
      obtain ⟨-, rfl⟩ := Prod.mk.inj same
      exact kept
    · cases before
  obtain ⟨member, now, shown, new⟩ := fresh row kept
  subst listed silent silent' quiet quiet'
  exact ⟨active, List.mem_append_left _ (.head _), row, member, same,
    ⟨now, List.mem_append_right _ (List.mem_append_left _ shown), new⟩, onTime, rest⟩

theorem selectionLaw_of_select {items selected : List Evidence}
    (chosen : b.select items = .ok selected) :
    SelectionLaw items b.contextBytes [] selected := by
  unfold select at chosen
  cases found : selectEvidence items b.contextBytes [] with
  | none => simp [found] at chosen
  | some kept =>
    rw [found] at chosen
    cases chosen
    exact selectionLaw_of_chosen found

/-- **Where what is retrieved comes from**, by what this retrieval was answered. -/
theorem logs_retrieve (keeps : KeepsSpaces b.lower) (asking : Asking) (question : String) :
    Logs Session.journal (b.retrieve asking question) fun items more =>
      ∀ e ∈ items, b.Origin asking more e := by
  unfold retrieve
  refine (logs_asked _ _).bind fun internal x registered => ?_
  have client : Logs Session.journal (newClient : Program (Session ω) WorkerError Unit)
      fun _ more => more = [] := logs_quiet fun _ => rfl
  refine client.bind fun _ none silent => ?_
  refine ((logs_of_keeps fun journal => (steady_quiet journal).internalRetriever _ _ _).yields
    (yields_internalRetriever keeps internal asking question)).bind
      fun found y ⟨own, quiet⟩ => ?_
  refine (logs_of_keeps fun journal => keeps_keep_quiet found.1 journal).bind
    fun _ y' quiet' => ?_
  have web : Logs Session.journal (b.publicEvidence question asking) fun items more =>
      ∀ e ∈ items, asking.publicTopic ≠ "" ∧ b.FromWeb asking more e := by
    unfold publicEvidence
    refine Logs.ite (fun _ => logs_pure fun e none => by cases none) fun topic => ?_
    exact (logs_retrieveWeb keeps _ asking).imp fun items more origin e held =>
      ⟨topic, origin e held⟩
  refine web.bind fun items z onWeb => logs_ofExcept fun selected chosen e taken => ?_
  subst registered silent quiet quiet'
  -- What is selected was found inside or on the web; each keeps the answers of its own part.
  rcases List.mem_append.mp ((selectionLaw_of_select chosen).subset taken) with mine | page
  · exact .inl ((own e mine).grow (List.subset_append_left _ _))
  · refine .inr ⟨(onWeb e page).1, (onWeb e page).2.grow fun entry listed => ?_⟩
    simpa using .inr listed

/-- **What is retrieved** is in the documents, a choice within the budget, and remembered; and the
invariant is kept on every way. -/
theorem triple_retrieve (serves : b.ground.Serves documents) (asking : Asking)
    (question : String) :
    Triple (Session.Holds b documents topics ids told) (b.retrieve asking question)
      (fun items s =>
        Session.Holds b documents topics (ids ++ items.map Evidence.evidenceId) told s ∧
        (∀ e ∈ items, OccursIn documents e) ∧ contextSize items ≤ b.contextBytes ∧
          (items.map Evidence.place).Nodup)
      (Session.Holds b documents topics ids told) := by
  have steady : b.Steady (Session.Holds b documents topics ids told) := steady_holds serves
  unfold retrieve
  refine (keeps_asked _ _).triple.bind fun internal => keeps_newClient.triple.bind fun _ => ?_
  refine (steady.internalRetriever internal asking _).triple.bind fun found => ?_
  refine (triple_keep found.1).bind fun _ => ?_
  have web : Triple
      (Session.Holds b documents topics (ids ++ found.1.map Evidence.evidenceId) told)
      (b.publicEvidence question asking)
      (fun items s => Session.Holds b documents topics
          (ids ++ found.1.map Evidence.evidenceId ++ items.map Evidence.evidenceId) told s ∧
        ∀ e ∈ items, OccursIn documents e)
      (Session.Holds b documents topics ids told) := by
    unfold publicEvidence
    refine .ite (fun _ => .pure fun s h => ⟨?_, fun e none => (by cases none)⟩) fun topic => ?_
    · rwa [List.map_nil, List.append_nil]
    · exact (triple_retrieveWeb serves _ asking).raised fun _ h => h.knows
  -- A choice that does not fit in raises, and then what was remembered stays remembered.
  refine .of_right fun occurs => web.bind fun items => ?_
  refine .ofExcept (fun selected chosen s ⟨h, onWeb⟩ => ?_) fun s h => h.1.knows.knows
  have law := selectionLaw_of_select chosen
  refine ⟨⟨h.sound, fun id listed => ?_, h.heard⟩, fun e taken => ?_, law.fits, law.distinct⟩
  · rcases List.mem_append.mp listed with old | new
    · exact h.known (List.mem_append_left _ (List.mem_append_left _ old))
    · obtain ⟨e, taken, rfl⟩ := List.mem_map.mp new
      rcases List.mem_append.mp (law.subset taken) with mine | page
      · exact h.known (List.mem_append_left _ (List.mem_append_right _ (List.mem_map_of_mem mine)))
      · exact h.known (List.mem_append_right _ (List.mem_map_of_mem page))
  · exact (List.mem_append.mp (law.subset taken)).elim (occurs e) (onWeb e)

end Backend

end AgentLabs.Rag
