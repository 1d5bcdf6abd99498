import AgentLabs.Rag.Backend

/-!
# Enrichment

Where public knowledge is missing, the web is searched for the public topic of the request, once in
a request. A page is taken in if its text is long enough and a model has judged it, up to a number
of pages; it is stored and published, or it is quoted for this request only. All of it is metered.

## Main definitions

* `Backend.publish`, `Backend.store`: a text gets into the index, and a page into the registry
* `Backend.search`, `Backend.enrich`: the search of the web, and the enrichment

## Main results

* `Backend.triple_enrich`: what it returns, and what is kept on the way
-/

namespace AgentLabs.Rag

open Math Text Program

/-- `type(exc).__name__`. -/
def WorkerError.typeName : WorkerError → String
  | .valueError _ => "ValueError"
  | .raised name => name

namespace Backend

variable {ω : Type} (b : Backend ω)

/-! ### The enrichment -/

/-- What a quotation takes from its page. -/
def pageLabel (page : WebPage) : SourceLabel where
  docId := .ofList ((b.digest page.url).toList.take 24)
  title := page.title
  source := page.url
  page := none
  version := .ofList ((b.digest (pageText page.text)).toList.take 12)

/-- `backend.remember`, with the one window of a page. -/
def keepPage (page : WebPage) (items : List Evidence) : Program (Session ω) WorkerError Unit :=
  fun s =>
    let text := pageText page.text
    match remember b.digest [((page.url, b.digest text), (text, 0))] items s.evidence with
    | (.ok (), evidence) => (.ok (), { s with evidence })
    | (.error .key, evidence) => (.error (.raised "KeyError"), { s with evidence })
    | (.error _, evidence) =>
      (.error (.valueError "evidence_coordinates_or_hash"), { s with evidence })

/-- A page is quoted for this request. -/
def quotePage (topic : String) (page : WebPage) : Program (Session ω) WorkerError Unit := do
  let items ← Program.ofExcept
    (match makeEvidence b.lower b.digest page.url (pageText page.text) (b.pageLabel page) topic with
    | none => .error (.raised "ValidationError")
    | some items => .ok items)
  b.keepPage page items
  change fun s => { s with transient := s.transient ++ items }

/-- `Path(path).name`. -/
def fileName (path : String) : List Char := (path.toList.splitOn '/').getLastD []

/-- `Path(path).stem`: the name up to its last dot, if there is something on both sides of it. -/
def fileStem (path : String) : List Char :=
  let name := fileName path
  let suffix := name.reverse.takeWhile (· ≠ '.')
  let rest := (name.reverse.drop (suffix.length + 1)).reverse
  if suffix = [] ∨ rest = [] then name else rest

/-- The file is in the index, as it is, and a search for it finds it. -/
def verify (path title target expected : String) : Program (Session ω) WorkerError String := do
  let raw ← outdoors (b.ground.read expected 0 20000)
  let text ← outdoors (b.ground.readText path)
  if strip raw ≠ strip text then throw (.valueError "stored_source_mismatch")
  else do
    b.consume "index_probe"
    let query := if title = "" then .ofList (fileStem path) else title
    let hits ← outdoors (b.ground.find query target 8)
    if expected ∉ hits then throw (.raised "IndexPending")
    else do
      b.check
      pure expected

/-- A file that is not there yet is sent. -/
def upload (path target expected : String) : Program (Session ω) WorkerError Unit := do
  let existing ← outdoors (b.ground.stored expected)
  if existing = none then outdoors (b.ground.addFile path target) else pure ()

/-- `publish`. -/
def publish (id path title kind : String) : Program (Session ω) WorkerError String := do
  b.check
  if b.isViking = false then pure ("local://" ++ kind ++ "/" ++ id)
  else do
    let target := b.root ++ "/" ++ kind ++ "/" ++ id
    let expected := target ++ "/" ++ .ofList (fileName path)
    b.upload path target expected
    b.verify path title target expected

/-- The body of the `try` of `Ingestion.store`. -/
def ingest (id : String) (row : SourceRow) (text : String) :
    Program (Session ω) WorkerError Unit := do
  b.consume "ingest"
  outdoors (b.ground.writeText row.path text)
  outdoors (b.ground.update id .stored none none)
  outdoors (b.ground.update id .indexing none none)
  let uri ← b.publish id row.path row.title "web"
  outdoors (b.ground.update id .ready (some uri) none)

/-- `Ingestion.store`. -/
def store (page : WebPage) : Program (Session ω) WorkerError Unit := do
  let url ← Program.ofExcept (b.canonical page.url)
  let reserved ← outdoors (b.ground.reserve url page)
  if reserved.2 = .reused ∨ reserved.2 = .pending then pure ()
  else do
    let row ← outdoors (b.ground.row reserved.1)
    tryCatch (b.ingest reserved.1 row page.text) fun e => do
      outdoors (b.ground.update reserved.1 .failed none (some e.typeName))
      throw e

/-- A page is taken in. -/
def takeIn (topic : String) (page : WebPage) : Program (Session ω) WorkerError Unit :=
  if b.web = "transient" then b.quotePage topic page
  else b.store { page with text := pageText page.text }

/-- `models.ask` for a `CandidateReview`. What comes too late is not taken. -/
def judgePage (topic : String) (page : WebPage) :
    Program (Session ω) WorkerError CandidateReview := do
  b.consume "model"
  let payload := judgePayload topic page
  let review ← asked (b.ground.judge payload) (.judged payload)
  b.check
  pure review

/-- The loop over the pages, with the number of those that were taken in. -/
def takePages (topic : String) : List WebPage → ℕ → Program (Session ω) WorkerError Unit
  | [], _ => pure ()
  | page :: rest, accepted =>
    if b.maxAdditions ≤ accepted then pure ()
    -- A short body is passed over before a model is asked.
    else if (strip (pageText page.text)).length < 100 then takePages topic rest accepted
    else do
      let review ← b.judgePage topic page
      if ¬ (review.relevant = true ∧ review.usableBody = true) then takePages topic rest accepted
      else do
        b.takeIn topic page
        takePages topic rest (accepted + 1)

/-- The texts that a search has left out are asked for. -/
def complete (found : List WebPage × List String) :
    Program (Session ω) WorkerError (List WebPage) :=
  if found.2 = [] then pure found.1
  else do
    b.consume "exa_contents"
    outdoors (b.ground.contents found.1 (found.2.take 5))

/-- The pages of domains that are allowed, and that have a text. -/
def candidates (results : List WebPage) : Except WorkerError (List WebPage) :=
  ((results.take 5).filter fun page => b.allowed page.url && strip page.text ≠ "").mapM
    fun page => (b.canonical page.url).map fun url => { page with url }

/-- `ExaClient.search`. -/
def search (topic : String) : Program (Session ω) WorkerError (List WebPage) :=
  if strip topic = "" then
    throw (.valueError "외부 검색에는 명시적인 public_topic이 필요합니다.")
  else do
    b.consume "exa_search"
    let found ← outdoors (b.ground.searchWeb topic)
    let results ← b.complete found
    b.check
    let pages ← Program.ofExcept (b.candidates results)
    note (.pages topic pages)
    pure pages

/-- The first enrichment of a request. -/
def searchPages (asking : Asking) : Program (Session ω) WorkerError (List Evidence) :=
  if b.web = "off" ∨ asking.publicTopic = "" then pure []
  else do
    let pages ← b.search asking.publicTopic
    b.takePages asking.publicTopic pages 0
    let s ← state
    pure s.transient

/-- `Ingestion.enrich`. -/
def enrich (asking : Asking) : Program (Session ω) WorkerError (List Evidence) := do
  let s ← state
  if s.used = true then pure s.transient
  else do
    -- The web is searched once for a request, even where that fails.
    change fun s => { s with used := true }
    b.searchPages asking

end Backend

/-! ### What is added -/

/-- A quotation of a text is text of its lines. -/
theorem QuoteLaw.occursIn {lower : List Char → List Char} {digest : String → String}
    {uri text query : String} {label : SourceLabel} {e : Evidence}
    (quoted : QuoteLaw lower digest uri text label query 0 e) : OccursIn [(uri, text)] e := by
  have lines := quoted.quote
  rw [Nat.sub_zero] at lines
  have inside := quoted.end_le
  rw [Nat.zero_add, splitLinesKeepEnds, List.length_map] at inside
  refine ⟨text, ?_, ?_, ?_⟩
  · rw [quoted.uri]
    exact if_pos rfl
  · rwa [splitLines, List.length_map]
  · rw [lines]

namespace Backend

variable {ω : Type} {b : Backend ω}

/-! #### Calls that are metered -/

namespace Steady

variable {P : Session ω → Prop}

theorem publish (h : b.Steady P) (id path title kind : String) :
    Keeps P (b.publish id path title kind) := by
  unfold Backend.publish upload verify
  refine h.check.bind fun _ => .ite (keeps_pure _) (Keeps.bind ?_ fun _ => ?_)
  · exact (h.outdoors _).bind fun existing => .ite (h.outdoors _) (keeps_pure _)
  refine (h.outdoors _).bind fun raw => (h.outdoors _).bind fun text => .ite (keeps_throw _) ?_
  refine (h.consume _).bind fun _ => (h.outdoors _).bind fun hits => .ite (keeps_throw _) ?_
  exact h.check.bind fun _ => keeps_pure _

/-- A page is stored, or is marked as failed: both are calls. -/
theorem store (h : b.Steady P) (page : WebPage) : Keeps P (b.store page) := by
  have ingests (id : String) (row : SourceRow) (text : String) :
      Keeps P (b.ingest id row text) := by
    refine (h.consume _).bind fun _ => (h.outdoors _).bind fun _ => (h.outdoors _).bind fun _ => ?_
    exact (h.outdoors _).bind fun _ => (h.publish _ _ _ _).bind fun uri => h.outdoors _
  refine (keeps_ofExcept _).bind fun url => (h.outdoors _).bind fun reserved => ?_
  refine .ite (keeps_pure _) ((h.outdoors _).bind fun row => ?_)
  refine Triple.keeps (Triple.tryCatch (ingests _ _ _).triple fun e => ?_)
  exact ((h.outdoors _).bind fun _ => keeps_throw e : Keeps P _).triple

theorem complete (h : b.Steady P) (found : List WebPage × List String) :
    Keeps P (b.complete found) :=
  .ite (keeps_pure _) ((h.consume _).bind fun _ => h.outdoors _)

end Steady

variable {documents : Documents} {topics : Set String} {ids : List String} {told : List Told}

/-- **What a search comes to** is noted. -/
theorem triple_search (serves : b.ground.Serves documents) (topic : String) :
    Triple (Session.Holds b documents topics ids told) (b.search topic)
      (fun pages => Session.Holds b documents topics ids (told ++ [.pages topic pages]))
      (Session.Holds b documents topics ids told) := by
  have steady : b.Steady (Session.Holds b documents topics ids told) := steady_holds serves
  refine .ite (fun _ => .throw _ fun s h => h) fun _ => ?_
  refine (steady.consume _).triple.bind fun _ => (steady.outdoors _).triple.bind fun found => ?_
  refine (steady.complete found).triple.bind fun results => steady.check.triple.bind fun _ => ?_
  refine (keeps_ofExcept _).triple.bind fun pages => ?_
  refine Triple.bind (Q := fun _ =>
    Session.Holds b documents topics ids (told ++ [.pages topic pages]))
    (.change fun s h => h.note _) fun _ => .pure fun s h => h

/-- **What a model judges** is noted. -/
theorem triple_judgePage (serves : b.ground.Serves documents) (topic : String) (page : WebPage) :
    Triple (Session.Holds b documents topics ids told) (b.judgePage topic page)
      (fun review =>
        Session.Holds b documents topics ids (told ++ [.judged (judgePayload topic page) review]))
      (Session.Holds b documents topics ids told) := by
  have steady (told : List Told) : b.Steady (Session.Holds b documents topics ids told) :=
    steady_holds serves
  refine ((steady told).consume _).triple.bind fun _ => (triple_asked _ _).bind fun review => ?_
  have inTime : Triple
      (Session.Holds b documents topics ids (told ++ [.judged (judgePayload topic page) review]))
      b.check (fun _ => Session.Holds b documents topics ids
        (told ++ [.judged (judgePayload topic page) review]))
      (Session.Holds b documents topics ids told) :=
    (steady _).check.triple.raised fun s h => h.hears
  exact inTime.bind fun _ => .pure fun s h => h

/-- A page that was judged is quoted: the quotations are remembered. -/
theorem keeps_quotePage (keeps : KeepsSpaces b.lower) {topic : String} (member : topic ∈ topics)
    (some : topic ≠ "") {pages : List WebPage} (shown : .pages topic pages ∈ told)
    {own : WebPage} (listed : own ∈ pages) {review : CandidateReview}
    (judged : .judged (judgePayload topic own) review ∈ told)
    (fits : review.relevant = true ∧ review.usableBody = true) :
    Keeps (Session.Holds b documents topics ids told) (b.quotePage topic own) := by
  intro s h
  obtain ⟨items, made, law⟩ :=
    makeEvidence_ok keeps b.digest own.url (pageText own.text) (b.pageLabel own) topic 0 []
  have real : ∀ e ∈ items, OfPage topics s.journal e := fun e held =>
    have quoted := law e held
    ⟨topic, member, some, pages, h.heard shown, own, listed, ⟨review, h.heard judged, fits⟩,
      quoted.uri, quoted.source, quoted.occursIn⟩
  have kept := holds_remember h fun e listed => .inr (real e listed)
  unfold quotePage
  rw [made]
  change Session.Holds b documents topics ids told ((b.keepPage own items >>= fun _ => _) s).2
  unfold keepPage remember
  cases checked : items.forM (checkItem b.digest
      [((own.url, b.digest (pageText own.text)), (pageText own.text, 0))]) with
  | error e =>
    -- What does not pass the check is not remembered.
    cases e <;> simpa [Bind.bind, checked] using h
  | ok =>
    simp only [Bind.bind, checked]
    refine ⟨⟨kept.sound.recorded, kept.sound.stored, kept.sound.calls, kept.sound.tools, ?_⟩,
      fun id listed => kept.known (List.mem_append_left _ listed), kept.heard⟩
    intro e listed
    rcases List.mem_append.mp listed with old | new
    · exact kept.sound.added e old
    · exact ⟨real e new, kept.known (List.mem_append_right _ (List.mem_map_of_mem new))⟩

theorem keeps_takePages (keeps : KeepsSpaces b.lower) (serves : b.ground.Serves documents)
    {topic : String} (member : topic ∈ topics) (some : topic ≠ "") {pages : List WebPage}
    (shown : .pages topic pages ∈ told) (rest : List WebPage) (listed : rest ⊆ pages)
    (accepted : ℕ) :
    Keeps (Session.Holds b documents topics ids told) (b.takePages topic rest accepted) := by
  have steady (told : List Told) : b.Steady (Session.Holds b documents topics ids told) :=
    steady_holds serves
  induction rest generalizing accepted told with
  | nil => exact keeps_pure _
  | cons own rest ih =>
    obtain ⟨mine, others⟩ := List.cons_subset.mp listed
    unfold takePages
    refine .ite (keeps_pure _) (.ite (ih shown others _) ?_)
    refine Triple.keeps ((triple_judgePage serves topic own).bind fun review => ?_)
    -- The review of this page is told before it is stored, which the invariant asks for.
    have shown' : .pages topic pages ∈ told ++ [.judged (judgePayload topic own) review] :=
      List.mem_append_left _ shown
    refine Triple.mono (P := Session.Holds b documents topics ids
      (told ++ [.judged (judgePayload topic own) review])) (Keeps.triple ?_) (fun s h => h)
      (fun _ s h => h.hears) fun s h => h.hears
    by_cases fits : review.relevant = true ∧ review.usableBody = true
    · rw [if_neg (not_not.mpr fits)]
      refine Keeps.bind ?_ fun _ => ih shown' others _
      unfold takeIn
      exact .ite (keeps_quotePage keeps member some shown' mine
        (List.mem_append_right _ (.head _)) fits) ((steady _).store _)
    · rw [if_pos fits]
      exact ih shown' others _

/-- **What is added** comes from pages that were judged, and is remembered; and the invariant is
kept on every way. -/
theorem triple_enrich (keeps : KeepsSpaces b.lower) (serves : b.ground.Serves documents)
    (asking : Asking) (member : asking.publicTopic ∈ topics) :
    Triple (Session.Holds b documents topics ids told) (b.enrich asking)
      (fun items s =>
        Session.Holds b documents topics (ids ++ items.map Evidence.evidenceId) told s ∧
          ∀ e ∈ items, OfPage topics s.journal e)
      (Session.Holds b documents topics ids told) := by
  -- What is there is remembered.
  have now (s : Session ω) (h : Session.Holds b documents topics ids told s) :
      Session.Holds b documents topics (ids ++ s.transient.map Evidence.evidenceId) told s ∧
        ∀ e ∈ s.transient, OfPage topics s.journal e := by
    refine ⟨⟨h.sound, fun id listed => ?_, h.heard⟩, fun e held => (h.sound.added e held).1⟩
    rcases List.mem_append.mp listed with old | new
    · exact h.known old
    · obtain ⟨e, held, rfl⟩ := List.mem_map.mp new
      exact (h.sound.added e held).2
  unfold enrich
  refine Triple.state.bind fun before => ?_
  refine .ite (fun _ => .pure ?_) fun _ => ?_
  · rintro s ⟨rfl, h⟩
    exact now before h
  have marks : Keeps (Session.Holds b documents topics ids told)
      (change fun s => { s with used := true } : Program (Session ω) WorkerError Unit) :=
    keeps_change fun s h =>
      ⟨⟨h.sound.recorded, h.sound.stored, h.sound.calls, h.sound.tools, h.sound.added⟩, h.known,
        h.heard⟩
  refine (marks.triple.pre fun s held => held.2).bind fun _ => ?_
  unfold searchPages
  refine .ite (fun _ => .pure fun s h => ⟨?_, fun e none => (by cases none)⟩) fun asks => ?_
  · rwa [List.map_nil, List.append_nil]
  refine (triple_search serves _).bind fun pages => ?_
  have shown : .pages asking.publicTopic pages ∈ told ++ [.pages asking.publicTopic pages] :=
    List.mem_append_right _ (.head _)
  have taken : Keeps
      (Session.Holds b documents topics ids (told ++ [.pages asking.publicTopic pages]))
      (b.takePages asking.publicTopic pages 0) :=
    keeps_takePages keeps serves member (not_or.mp asks).2 shown pages (List.Subset.refl _) 0
  refine (taken.triple.raised fun s h => h.hears).bind fun _ => Triple.state.bind fun after =>
    .pure ?_
  rintro s ⟨rfl, h⟩
  exact now after h.hears

end Backend

end AgentLabs.Rag
