import AgentLabs.Math.Journal
import AgentLabs.Math.Rankings
import AgentLabs.Rag.Selection
import AgentLabs.Rag.Windows
import AgentLabs.Rag.Worker
import AgentLabs.Retrieval.Evidence

/-!
# Reading for evidence

A search names documents, and a retriever reads some of them. It leaves out what is not registered,
does not apply to the customer and the day, or is of another domain; it looks for the words of the
question in each of the others and reads no more than two windows around them; and of what it has
quoted it keeps what fits into a budget of bytes.

The search and the client are programs over a state of their own: they may answer anything, depend
on everything that was asked before, and raise anywhere. What they answered is kept in a journal
that the retriever does not see, and what is wanted is said of the journal of the same run. The
scores of a fusion are rational numbers where the program has floats.

## Main definitions

* `BusinessMetadata.Applies`: what a document applies to
* `reciprocalRankFusion`: several rankings in one
* `EvidenceRetriever`, `EvidenceRetriever.retrieveQueries`: the retriever
* `Asked`, `EvidenceRetriever.journaled`: what was answered, and the retriever that notes it
* `ReadingLaw`: what is wanted of what it returns

## Main results

* `EvidenceRetriever.reading_law`: whatever the search and the client do, it is as wanted
-/

namespace AgentLabs.Rag

open Math Text Program
open Retrieval (Date)

/-! ### Documents -/

/-- `BusinessMetadata`, of what a retriever looks at. -/
structure BusinessMetadata where
  docId : String
  title : String
  source : String
  domain : String
  entity : String
  version : String
  validFrom : Date
  validUntil : Option Date := none
  status : Retrieval.Status := .approved
  page : Option ℤ := none

namespace BusinessMetadata

/-- `applies`. -/
def Applies (m : BusinessMetadata) (entity : String) (asOf : Date) : Prop :=
  m.status = .approved ∧ m.entity ∈ [entity, "공통"] ∧ m.validFrom ≤ asOf ∧
    ∀ last ∈ m.validUntil, asOf < last

instance (m : BusinessMetadata) (entity : String) (asOf : Date) :
    Decidable (m.Applies entity asOf) :=
  inferInstanceAs (Decidable (m.status = .approved ∧ m.entity ∈ [entity, "공통"] ∧
    m.validFrom ≤ asOf ∧ ∀ last ∈ m.validUntil, asOf < last))

/-- What a quotation takes from its document. -/
def label (m : BusinessMetadata) : SourceLabel where
  docId := m.docId
  title := m.title
  source := m.source
  page := m.page
  version := m.version

end BusinessMetadata

/-! ### Several rankings in one -/

/-- The documents of a ranking, each with its first rank. The ranks count repetitions too. -/
def firstRanks (ranking : List String) : List (String × ℕ) :=
  (ranking.zipIdx 1).filter fun entry => ranking.idxOf entry.1 + 1 = entry.2

/-- The scores of `reciprocal_rank_fusion`. -/
def fusionScores (rankings : List (List String)) (weights : List ℚ) (constant : ℤ) :
    Dict String ℚ :=
  (weights.zip rankings).foldl (fun scores source => scores.accumulate
    ((firstRanks source.2).map fun entry => (entry.1, source.1 / (constant + entry.2)))) []

/-- `reciprocal_rank_fusion`, of the uris of the documents. -/
def reciprocalRankFusion (rankings : List (List String)) (weights : List ℚ := [])
    (constant : ℤ := 60) : Except WorkerError (List String) :=
  let weights := if weights = [] then List.replicate rankings.length 1 else weights
  if weights.length ≠ rankings.length ∨ constant < 1 ∨ weights.any (· < 0) then
    .error (.valueError "검색기 수, 음수 가중치, RRF 상수를 확인하세요.")
  else
    let scores := fusionScores rankings weights constant
    .ok (scores.keys.mergeSort fun a b =>
      decide ((scores.get? b).getD 0 ≤ (scores.get? a).getD 0))

/-! ### The retriever -/

/-- What a retriever asks: the search below it, and its client. A hit is a number of a line. -/
structure Finding (σ : Type) where
  invoke : String → Program σ WorkerError (List String)
  grep : String → String → ℕ → Program σ WorkerError (List ℤ)
  read : String → ℕ → ℕ → Program σ WorkerError String

/-- A `span_selector`: it quotes from a text that was read, of a document, for a question, with the
number of lines before the text and the facets. -/
abbrev SpanSelector (σ : Type) : Type :=
  String → String → BusinessMetadata → String → ℕ → List (String × List String) →
    Program σ WorkerError (List Evidence)

/-- `EvidenceRetriever`. -/
structure EvidenceRetriever (σ : Type) where
  lower : List Char → List Char
  digest : String → String
  finding : Finding σ
  manifest : Dict String BusinessMetadata
  entity : String
  asOf : Date
  facets : List (String × List String) := []
  domains : List String := []
  maxBytes : ℤ := 5000
  maxDocuments : ℕ := 8
  maxReadLines : ℕ := 100
  maxReadCalls : ℕ := 16
  spanSelector : Option (SpanSelector σ) := none

/-- An entry of the report for a window that was read. -/
structure ReadRecord where
  uri : String
  offset : ℕ
  bytes : ℕ
  lineLimit : ℕ
  deriving DecidableEq, Repr

/-- An entry of the report for a document that was left out. -/
structure Exclusion where
  uri : String
  reason : String
  deriving DecidableEq, Repr

/-- What the loop over the candidates has come to. -/
structure Reading where
  evidence : List Evidence := []
  reads : List ReadRecord := []
  excluded : List Exclusion := []
  seen : List String := []

/-- The report. -/
structure ReadingReport where
  reads : List ReadRecord
  excluded : List Exclusion
  candidateDocuments : ℕ

/-- The number of the documents that were read. -/
def documentsRead (reads : List ReadRecord) : ℕ := (reads.map ReadRecord.uri).dedup.length

/-- `sorted({max(0, int(hit["line"]) - 1 - 8) for hit in anchors})`. -/
def anchorOffsets (lines : List ℤ) : List ℕ :=
  (lines.map fun line => (line - 1 - 8).toNat).eraseDups.mergeSort fun a b => decide (a ≤ b)

/-- `sorted(terms(query))[:12]`, as a pattern. -/
def anchorPattern? (lower : List Char → List Char) (query : String) : Option String :=
  let keywords := ((terms lower query.toList).map String.ofList).mergeSort fun a b => decide (a ≤ b)
  match keywords.take 12 with
  | [] => none
  | keywords => some (.ofList (['|'].intercalate (keywords.map fun word =>
      Regex.escape word.toList)))

namespace EvidenceRetriever

variable {σ : Type} (r : EvidenceRetriever σ)

/-- The metadata of a document that may be read. -/
def metadata? (uri : String) : Option BusinessMetadata :=
  (r.manifest.get? uri).filter fun m =>
    decide (m.Applies r.entity r.asOf ∧ (r.domains = [] ∨ m.domain ∈ r.domains))

/-- The windows around the offsets, the ones that touch joined up to the limit of lines. -/
def windowsAt (offsets : List ℕ) : List (ℕ × ℕ) :=
  coalesce (fun last next => decide (next.1 ≤ last.2))
    (fun last next => (last.1, min (max next.2 last.2) (last.1 + r.maxReadLines)))
    ((if offsets = [] then [0] else offsets).map fun offset =>
      (offset, offset + min 32 r.maxReadLines))

/-- `make_evidence`, or the exception of a quotation that is refused. -/
def quote (uri raw : String) (m : BusinessMetadata) (query : String) (start : ℕ) :
    Except WorkerError (List Evidence) :=
  match makeEvidence r.lower r.digest uri raw m.label query start r.facets with
  | none => .error (.raised "ValidationError")
  | some items => .ok items

/-- The quotations of a text that was read: those of the selector, if there is one. -/
def extract (uri raw : String) (m : BusinessMetadata) (query : String) (start : ℕ) :
    Program σ WorkerError (List Evidence) :=
  match r.spanSelector with
  | none => Program.ofExcept (r.quote uri raw m query start)
  | some pick => pick uri raw m query start r.facets

/-- The loop over the windows of a document. -/
def readWindows (uri : String) (m : BusinessMetadata) (query : String) :
    List (ℕ × ℕ) → Reading → Program σ WorkerError Reading
  | [], reading => pure reading
  | (start, stop) :: rest, reading =>
    if r.maxReadCalls ≤ reading.reads.length then
      pure { reading with
        excluded := reading.excluded ++ [⟨uri, "원문 읽기 API 횟수 상한"⟩] }
    else do
      let raw ← r.finding.read uri start (stop - start)
      let items ← r.extract uri raw m query start
      readWindows uri m query rest
        { reading with
          evidence := reading.evidence ++ items
          reads := reading.reads ++ [⟨uri, start, raw.utf8ByteSize, stop - start⟩] }

/-- The lines with words of the question. -/
def anchors (query uri : String) : Program σ WorkerError (List ℤ) :=
  match anchorPattern? r.lower query with
  | none => pure []
  | some pattern => r.finding.grep pattern uri 12

/-- One candidate. -/
def examine (query : String) (reading : Reading) (uri : String) :
    Program σ WorkerError Reading :=
  if uri ∈ reading.seen then pure reading
  else
    let reading := { reading with seen := reading.seen ++ [uri] }
    match r.metadata? uri with
    | none => pure { reading with
        excluded := reading.excluded ++ [⟨uri, "미등록 / 적용 대상 / 유효 기간 / 승인 상태"⟩] }
    | some m =>
      if r.maxDocuments ≤ documentsRead reading.reads then
        pure { reading with excluded := reading.excluded ++ [⟨uri, "원문 읽기 횟수 상한"⟩] }
      else do
        let lines ← r.anchors query uri
        -- Two windows of a document are enough.
        r.readWindows uri m query ((r.windowsAt (anchorOffsets lines)).take 2) reading

/-- The loop over the candidates. -/
def examineAll (query : String) : List String → Reading → Program σ WorkerError Reading
  | [], reading => pure reading
  | uri :: rest, reading => do
    let reading ← r.examine query reading uri
    examineAll query rest reading

/-- The rankings of the queries. -/
def rank : List String → Program σ WorkerError (List (List String))
  | [] => pure []
  | query :: rest => do
    let ranking ← r.finding.invoke query
    let rankings ← rank rest
    pure (ranking :: rankings)

/-- `select_evidence`, or its exception. -/
def select (evidence : List Evidence) : Except WorkerError (List Evidence) :=
  match selectEvidence evidence r.maxBytes (r.facets.map Prod.fst) with
  | none => .error (.valueError "빈 Context 직렬화보다 예산이 작습니다.")
  | some selected => .ok selected

/-- `retrieve_queries`. -/
def retrieveQueries (queries : List String) :
    Program σ WorkerError (List Evidence × ReadingReport) :=
  if ¬ (1 ≤ queries.length ∧ queries.length ≤ 3) then
    throw (.valueError "한 요청의 질의 수는 1~3개입니다.")
  else do
    let rankings ← r.rank queries
    -- The candidates of all queries come in one ranking, each of them once.
    let candidates ← Program.ofExcept (reciprocalRankFusion rankings)
    let reading ← r.examineAll ("\n".intercalate queries) candidates {}
    let selected ← Program.ofExcept (r.select reading.evidence)
    pure (selected, ⟨reading.reads, reading.excluded, candidates.length⟩)

end EvidenceRetriever

/-! ### What is wanted -/

/-- What the search, the client and the selector answered. -/
inductive Asked where
  | found (query : String) (ranking : List String)
  | hit (uri : String) (lines : List ℤ)
  | gave (uri : String) (offset limit : ℕ) (raw : String)
  | picked (uri raw : String) (offset : ℕ) (items : List Evidence)

namespace Asked

/-- The query that was searched for. -/
def query? : Asked → Option String
  | .found query _ => some query
  | _ => none

/-- The read that the client answered. -/
def read? : Asked → Option ReadRecord
  | .gave uri offset limit raw => some ⟨uri, offset, raw.utf8ByteSize, limit⟩
  | _ => none

end Asked

/-- The queries that were searched for. -/
def queriesOf (journal : List Asked) : List String := journal.filterMap Asked.query?

/-- The reads that the client answered. -/
def readsOf (journal : List Asked) : List ReadRecord := journal.filterMap Asked.read?

/-- The search and the client, with a journal of what they answer. -/
def Finding.journaled {σ : Type} (finding : Finding σ) : Finding (σ × List Asked) where
  invoke query := Program.journaled (finding.invoke query) (.found query)
  grep pattern uri limit := Program.journaled (finding.grep pattern uri limit) (.hit uri)
  read uri offset limit := Program.journaled (finding.read uri offset limit)
    (.gave uri offset limit)

/-- The retriever, with a journal of what it is answered. -/
def EvidenceRetriever.journaled {σ : Type} (r : EvidenceRetriever σ) :
    EvidenceRetriever (σ × List Asked) where
  lower := r.lower
  digest := r.digest
  finding := r.finding.journaled
  manifest := r.manifest
  entity := r.entity
  asOf := r.asOf
  facets := r.facets
  domains := r.domains
  maxBytes := r.maxBytes
  maxDocuments := r.maxDocuments
  maxReadLines := r.maxReadLines
  maxReadCalls := r.maxReadCalls
  spanSelector := r.spanSelector.map fun pick uri raw m query start facets =>
    Program.journaled (pick uri raw m query start facets) (.picked uri raw start)

/-- The document was read. -/
def IsRead (reads : List ReadRecord) (uri : String) : Prop := ∃ read ∈ reads, read.uri = uri

/-- The document was left out, for a reason that the report has. -/
def IsExcluded (excluded : List Exclusion) (uri : String) : Prop :=
  ∃ exclusion ∈ excluded, exclusion.uri = uri

/-- A quotation is of a text that the client gave of a document that may be read: it is made of the
words and the lines of the text, or the selector has picked it from the text. -/
def EvidenceRetriever.Sourced {σ : Type} (r : EvidenceRetriever σ) (query : String)
    (journal : List Asked) (e : Evidence) : Prop :=
  ∃ uri m, r.metadata? uri = some m ∧ ∃ offset limit raw, .gave uri offset limit raw ∈ journal ∧
    match r.spanSelector with
    | none => QuoteLaw r.lower r.digest uri raw m.label query offset e
    | some _ => ∃ items, .picked uri raw offset items ∈ journal ∧ e ∈ items

/-- What is wanted of what the retriever returns, by the journal of the run: the queries were
searched for, each once; the reads of the client are those in the report, and they are within the
limits, and of documents that may be read, at most two windows of each; what was found is read or is
left out for a reason; each quotation is of what was read; and the quotations are a choice within
the budget. -/
structure ReadingLaw {σ : Type} (r : EvidenceRetriever σ) (journal : List Asked)
    (queries : List String) (selected : List Evidence) (report : ReadingReport) : Prop where
  searches : queriesOf journal = queries
  reported : readsOf journal = report.reads
  calls : report.reads.length ≤ r.maxReadCalls
  documents : documentsRead report.reads ≤ r.maxDocuments
  twice : ∀ uri, report.reads.countP (fun read => read.uri = uri) ≤ 2
  lines : ∀ read ∈ report.reads, read.lineLimit ≤ r.maxReadLines
  allowed : ∀ read ∈ report.reads, ∃ m, r.metadata? read.uri = some m
  settled : ∀ query ranking, .found query ranking ∈ journal →
    ∀ uri ∈ ranking, IsRead report.reads uri ∨ IsExcluded report.excluded uri
  sourced : ∀ e ∈ selected, r.Sourced ("\n".intercalate queries) journal e
  chosen : ∃ candidates, SelectionLaw candidates r.maxBytes (r.facets.map Prod.fst) selected ∧
    ∀ e ∈ candidates, r.Sourced ("\n".intercalate queries) journal e

/-! ### Several rankings in one -/

section Fusion

variable {rankings : List (List String)} {weights : List ℚ} {constant : ℤ} {fused : List String}
  {key : String}

theorem mem_keys_firstRanks {ranking : List String} :
    key ∈ (firstRanks ranking).map Prod.fst ↔ key ∈ ranking := by
  rw [firstRanks]
  constructor
  · intro listed
    obtain ⟨⟨_, rank⟩, kept, rfl⟩ := List.mem_map.mp listed
    exact List.fst_mem_of_mem_zipIdx (List.mem_filter.mp kept).1
  · intro listed
    have first := List.idxOf_lt_length_of_mem listed
    refine List.mem_map.mpr ⟨(key, ranking.idxOf key + 1), List.mem_filter.mpr ⟨?_, by simp⟩, rfl⟩
    rw [List.mk_mem_zipIdx_iff_le_and_getElem?_sub]
    simp [List.getElem?_eq_getElem first]

theorem mem_keys_fusionScores : key ∈ (fusionScores rankings weights constant).keys ↔
    ∃ source ∈ weights.zip rankings, key ∈ source.2 := by
  suffices general : ∀ d : Dict String ℚ, key ∈ ((weights.zip rankings).foldl
      (fun scores source => scores.accumulate ((firstRanks source.2).map fun entry =>
        (entry.1, source.1 / (constant + entry.2)))) d).keys ↔
      key ∈ d.keys ∨ ∃ source ∈ weights.zip rankings, key ∈ source.2 from
    (general []).trans (or_iff_right List.not_mem_nil)
  induction weights.zip rankings with
  | nil => simp
  | cons source rest ih =>
    intro d
    have own : ((firstRanks source.2).map fun entry =>
        (entry.1, source.1 / (constant + (entry.2 : ℚ)))).map Prod.fst =
        (firstRanks source.2).map Prod.fst := by
      rw [List.map_map]
      rfl
    rw [List.foldl_cons, ih, Dict.mem_keys_accumulate, own, mem_keys_firstRanks, or_assoc]
    simp

/-- Each document that is ranked is among the candidates. -/
theorem mem_of_reciprocalRankFusion
    (ok : reciprocalRankFusion rankings weights constant = .ok fused) {ranking : List String}
    (ranked : ranking ∈ rankings) (listed : key ∈ ranking) : key ∈ fused := by
  unfold reciprocalRankFusion at ok
  generalize (if weights = [] then List.replicate rankings.length 1 else weights) = weights at ok
  dsimp only at ok
  split_ifs at ok with bad
  obtain rfl := Except.ok.inj ok
  push Not at bad
  rw [List.mem_mergeSort, mem_keys_fusionScores]
  rw [← List.map_snd_zip bad.1.ge] at ranked
  obtain ⟨source, paired, rfl⟩ := List.mem_map.mp ranked
  exact ⟨source, paired, listed⟩

end Fusion

/-! ### The loops -/

section Loops

variable {σ : Type} {r : EvidenceRetriever σ} {query uri : String} {m : BusinessMetadata}
  {before after reading : Reading} {reads added : List ReadRecord} {journal more : List Asked}
  {e : Evidence}

theorem readsOf_append (x y : List Asked) : readsOf (x ++ y) = readsOf x ++ readsOf y :=
  List.filterMap_append

theorem queriesOf_append (x y : List Asked) : queriesOf (x ++ y) = queriesOf x ++ queriesOf y :=
  List.filterMap_append

theorem EvidenceRetriever.Sourced.grow (sourced : r.Sourced query journal e)
    (grown : journal ⊆ more) : r.Sourced query more e := by
  obtain ⟨uri, m, found, offset, limit, raw, gave, own⟩ := sourced
  refine ⟨uri, m, found, offset, limit, raw, grown gave, ?_⟩
  cases selector : r.spanSelector with
  | none =>
    rw [selector] at own
    exact own
  | some pick =>
    rw [selector] at own
    obtain ⟨items, picked, held⟩ := own
    exact ⟨items, grown picked, held⟩

theorem IsRead.grow (read : IsRead reads uri) (grown : reads ⊆ added) : IsRead added uri := by
  obtain ⟨entry, listed, same⟩ := read
  exact ⟨entry, grown listed, same⟩

/-- Reading of one more document is of no more than one more document. -/
theorem documentsRead_append (same : ∀ read ∈ added, read.uri = uri) :
    documentsRead (reads ++ added) ≤ documentsRead reads + 1 := by
  unfold documentsRead
  rw [← List.card_toFinset, ← List.card_toFinset]
  refine (Finset.card_le_card fun u listed => ?_).trans (Finset.card_insert_le uri _)
  obtain ⟨read, held, rfl⟩ := List.mem_map.mp (List.mem_toFinset.mp listed)
  rcases List.mem_append.mp held with old | new
  · exact Finset.mem_insert_of_mem (List.mem_toFinset.mpr (List.mem_map_of_mem old))
  · exact Finset.mem_insert.mpr (.inl (same read new))

/-- What the loop over some windows of a document adds, and what it notes. -/
structure Reading.Adds (r : EvidenceRetriever σ) (query uri : String) (windows : ℕ)
    (before after : Reading) (more : List Asked) : Prop where
  reads : after.reads = before.reads ++ readsOf more
  few : (readsOf more).length ≤ windows
  each : ∀ read ∈ readsOf more, read.uri = uri ∧ read.lineLimit ≤ r.maxReadLines
  quiet : queriesOf more = []
  calls : before.reads.length ≤ r.maxReadCalls → after.reads.length ≤ r.maxReadCalls
  seen : after.seen = before.seen
  excluded : before.excluded ⊆ after.excluded
  settled : 0 < windows → IsRead after.reads uri ∨ IsExcluded after.excluded uri
  evidence : ∀ e ∈ after.evidence, e ∈ before.evidence ∨ r.Sourced query more e

/-- What was noted before and is no read does not count. -/
theorem Reading.Adds.prepend {windows : ℕ}
    (adds : Reading.Adds r query uri windows before after more) (noReads : readsOf journal = [])
    (quiet : queriesOf journal = []) :
    Reading.Adds r query uri windows before after (journal ++ more) where
  reads := by rw [readsOf_append, noReads, List.nil_append, adds.reads]
  few := by rw [readsOf_append, noReads]; exact adds.few
  each := by rw [readsOf_append, noReads]; exact adds.each
  quiet := by rw [queriesOf_append, quiet, adds.quiet, List.nil_append]
  calls := adds.calls
  seen := adds.seen
  excluded := adds.excluded
  settled := adds.settled
  evidence e held := (adds.evidence e held).imp_right fun sourced =>
    sourced.grow (List.subset_append_right _ _)

namespace EvidenceRetriever

theorem quote_law (keeps : KeepsSpaces r.lower) {raw : String} {start : ℕ} {items : List Evidence}
    (made : r.quote uri raw m query start = .ok items) :
    ∀ e ∈ items, QuoteLaw r.lower r.digest uri raw m.label query start e := by
  obtain ⟨items', made', law⟩ := makeEvidence_ok keeps r.digest uri raw m.label query start r.facets
  rw [quote, made'] at made
  cases made
  exact law

/-- The quotations of a text that the client gave. -/
theorem notes_extract (keeps : KeepsSpaces r.lower) (found : r.metadata? uri = some m)
    (raw : String) (start limit : ℕ) :
    Notes (r.journaled.extract uri raw m query start) fun items more =>
      readsOf more = [] ∧ queriesOf more = [] ∧
        ∀ e ∈ items, r.Sourced query (.gave uri start limit raw :: more) e := by
  unfold extract
  cases selector : r.spanSelector with
  | none =>
    have none : r.journaled.spanSelector = .none := by simp [journaled, selector]
    rw [none]
    refine logs_ofExcept fun items made => ⟨rfl, rfl, fun e held => ?_⟩
    refine ⟨uri, m, found, start, limit, raw, .head _, ?_⟩
    rw [selector]
    exact quote_law keeps made e held
  -- A selector that is passed in answers for itself: only that it was asked is known.
  | some pick =>
    have some : r.journaled.spanSelector = .some fun uri raw m query start facets =>
        Program.journaled (pick uri raw m query start facets) (.picked uri raw start) := by
      simp [journaled, selector]
    rw [some]
    refine (notes_journaled _ _).imp ?_
    rintro items _ rfl
    refine ⟨rfl, rfl, fun e held => ⟨uri, m, found, start, limit, raw, .head _, ?_⟩⟩
    rw [selector]
    exact ⟨items, .tail _ (.head _), held⟩

theorem notes_readWindows (keeps : KeepsSpaces r.lower) (found : r.metadata? uri = some m)
    (windows : List (ℕ × ℕ)) (short : ∀ w ∈ windows, w.2 - w.1 ≤ r.maxReadLines)
    (before : Reading) :
    Notes (r.journaled.readWindows uri m query windows before)
      (Reading.Adds r query uri windows.length before) := by
  induction windows generalizing before with
  | nil =>
    refine logs_pure ⟨(List.append_nil _).symm, le_rfl, nofun, rfl, id, rfl, List.Subset.refl _,
      fun none => absurd none (lt_irrefl 0), fun e held => .inl held⟩
  | cons w rest ih =>
    obtain ⟨start, stop⟩ := w
    obtain ⟨first, others⟩ := List.forall_mem_cons.mp short
    rw [readWindows]
    refine Logs.ite (fun _ => logs_pure ?_) fun room => ?_
    · exact ⟨(List.append_nil _).symm, Nat.zero_le _, nofun, rfl, id, rfl,
        List.subset_append_left _ _,
        fun _ => .inr ⟨_, List.mem_append_right _ (.head _), rfl⟩, fun e held => .inl held⟩
    refine (notes_journaled (r.finding.read uri start (stop - start)) _).bind fun raw x gave => ?_
    subst gave
    refine (notes_extract keeps found raw start (stop - start)).bind
      fun items y ⟨noReads, quiet, quoted⟩ => ?_
    refine (ih others _).imp fun after z adds => ?_
    have now : readsOf ([.gave uri start (stop - start) raw] ++ (y ++ z)) =
        ⟨uri, start, raw.utf8ByteSize, stop - start⟩ :: readsOf z := by
      rw [readsOf_append, readsOf_append, noReads]
      rfl
    have grown := adds.reads
    rw [List.append_assoc, List.singleton_append] at grown
    refine ⟨by rw [now, grown], ?_, ?_, ?_, fun within => adds.calls ?_, adds.seen, adds.excluded,
      fun _ => .inl ⟨_, grown ▸ List.mem_append_right _ (.head _), rfl⟩, fun e held => ?_⟩
    · rw [now]
      exact Nat.succ_le_succ adds.few
    · rw [now]
      exact List.forall_mem_cons.mpr ⟨⟨rfl, first⟩, adds.each⟩
    · rw [queriesOf_append, queriesOf_append, quiet, adds.quiet]
      rfl
    · rw [List.length_append, List.length_singleton]
      exact not_le.mp room
    · rcases adds.evidence e held with old | new
      · -- It was there before, or it is a quotation of the window that was just read.
        refine (List.mem_append.mp old).imp_right fun mine => (quoted e mine).grow ?_
        exact List.cons_subset_cons _ (List.subset_append_left _ _)
      · refine .inr (new.grow ?_)
        rw [← List.append_assoc]
        exact List.subset_append_right _ _

/-- The windows of a document: there is one, and each is within the limit of lines. -/
theorem windowsAt_law (offsets : List ℕ) : r.windowsAt offsets ≠ [] ∧
    ∀ w ∈ r.windowsAt offsets, w.2 - w.1 ≤ r.maxReadLines := by
  unfold windowsAt
  constructor
  · apply coalesce_ne_nil
    split_ifs with none
    · exact List.cons_ne_nil _ _
    · simpa using none
  · refine coalesce_invariant (R := fun _ _ => True) (fun _ _ _ _ _ => trivial)
      (List.pairwise_of_forall fun _ _ => trivial) (fun a b _ _ _ _ => ?_) fun w listed => ?_
    · dsimp only
      omega
    · obtain ⟨offset, -, rfl⟩ := List.mem_map.mp listed
      dsimp only
      omega

end EvidenceRetriever

/-- What is true of what the loop over the candidates has come to, by the journal so far. -/
structure Reading.Sound (r : EvidenceRetriever σ) (query : String) (journal : List Asked)
    (reading : Reading) : Prop where
  reported : reading.reads = readsOf journal
  calls : reading.reads.length ≤ r.maxReadCalls
  documents : documentsRead reading.reads ≤ r.maxDocuments
  twice : ∀ uri, reading.reads.countP (fun read => read.uri = uri) ≤ 2
  lines : ∀ read ∈ reading.reads, read.lineLimit ≤ r.maxReadLines
  allowed : ∀ read ∈ reading.reads, ∃ m, r.metadata? read.uri = some m
  known : ∀ read ∈ reading.reads, read.uri ∈ reading.seen
  settled : ∀ uri ∈ reading.seen, IsRead reading.reads uri ∨ IsExcluded reading.excluded uri
  sourced : ∀ e ∈ reading.evidence, r.Sourced query journal e

namespace Reading.Sound

theorem start (noReads : readsOf journal = []) : Reading.Sound r query journal {} where
  reported := noReads.symm
  calls := Nat.zero_le _
  documents := Nat.zero_le _
  twice _ := Nat.zero_le _
  lines _ none := by cases none
  allowed _ none := by cases none
  known _ none := by cases none
  settled _ none := by cases none
  sourced _ none := by cases none

/-- One more document is left out. -/
theorem exclude (h : Reading.Sound r query journal before) (uri reason : String) :
    Reading.Sound r query journal { before with
      seen := before.seen ++ [uri], excluded := before.excluded ++ [⟨uri, reason⟩] } where
  reported := h.reported
  calls := h.calls
  documents := h.documents
  twice := h.twice
  lines := h.lines
  allowed := h.allowed
  known read held := List.mem_append_left _ (h.known read held)
  settled u listed := by
    rcases List.mem_append.mp listed with old | new
    · refine (h.settled u old).imp_right fun ⟨exclusion, held, same⟩ => ?_
      exact ⟨exclusion, List.mem_append_left _ held, same⟩
    · rw [List.mem_singleton.mp new]
      exact .inr ⟨_, List.mem_append_right _ (.head _), rfl⟩
  sourced := h.sourced

/-- One more document is read. -/
theorem read (h : Reading.Sound r query journal before) (found : r.metadata? uri = some m)
    (fresh : uri ∉ before.seen) (room : documentsRead before.reads < r.maxDocuments) {windows : ℕ}
    (some : 0 < windows) (few : windows ≤ 2)
    (adds : Reading.Adds r query uri windows { before with seen := before.seen ++ [uri] } after
      more) :
    Reading.Sound r query (journal ++ more) after := by
  have grown : after.reads = before.reads ++ readsOf more := adds.reads
  have same : ∀ read ∈ readsOf more, read.uri = uri := fun read held => (adds.each read held).1
  have old : before.reads ⊆ after.reads := grown ▸ List.subset_append_left _ _
  have split {read : ReadRecord} (held : read ∈ after.reads) :
      read ∈ before.reads ∨ read ∈ readsOf more := List.mem_append.mp (grown ▸ held)
  refine ⟨?_, adds.calls h.calls, ?_, fun u => ?_, fun read held => ?_, fun read held => ?_,
    fun read held => ?_, fun u listed => ?_, fun e held => ?_⟩
  · rw [grown, h.reported, readsOf_append]
  · rw [grown]
    exact (documentsRead_append same).trans room
  · rw [grown, List.countP_append]
    by_cases here : u = uri
    · -- The document has not been read before.
      subst here
      have none : before.reads.countP (fun read => decide (read.uri = u)) = 0 := by
        refine List.countP_eq_zero.mpr fun read held => ?_
        rw [decide_eq_true_eq]
        rintro rfl
        exact fresh (h.known read held)
      have all := List.countP_le_length (p := fun read : ReadRecord => decide (read.uri = u))
        (l := readsOf more)
      have short := adds.few
      omega
    -- The reads of this document are none of another one.
    · have none : (readsOf more).countP (fun read => decide (read.uri = u)) = 0 := by
        refine List.countP_eq_zero.mpr fun read held => ?_
        rw [decide_eq_true_eq, same read held]
        exact Ne.symm here
      rw [none, Nat.add_zero]
      exact h.twice u
  · exact (split held).elim (h.lines read) fun new => (adds.each read new).2
  · exact (split held).elim (h.allowed read) fun new => ⟨m, same read new ▸ found⟩
  · rw [adds.seen]
    rcases split held with old | new
    · exact List.mem_append_left _ (h.known read old)
    · exact List.mem_append_right _ (List.mem_singleton.mpr (same read new))
  · rw [adds.seen] at listed
    rcases List.mem_append.mp listed with earlier | now
    · refine (h.settled u earlier).imp (fun read => read.grow old) ?_
      rintro ⟨exclusion, held, rfl⟩
      exact ⟨exclusion, adds.excluded held, rfl⟩
    · rw [List.mem_singleton.mp now]
      exact adds.settled some
  · rcases adds.evidence e held with earlier | now
    · exact (h.sourced e earlier).grow (List.subset_append_left _ _)
    · exact now.grow (List.subset_append_right _ _)

end Reading.Sound

namespace EvidenceRetriever

theorem notes_anchors (query uri : String) :
    Notes (r.journaled.anchors query uri) fun _ more =>
      readsOf more = [] ∧ queriesOf more = [] := by
  unfold anchors
  cases anchorPattern? r.journaled.lower query with
  | none => exact logs_pure ⟨rfl, rfl⟩
  | some pattern =>
    refine (notes_journaled (r.finding.grep pattern uri 12) _).imp ?_
    rintro lines _ rfl
    exact ⟨rfl, rfl⟩

/-- One candidate leaves what is true of the others, and is settled itself. -/
theorem notes_examine (keeps : KeepsSpaces r.lower) (h : Reading.Sound r query journal before) :
    Notes (r.journaled.examine query before uri) fun after more =>
      Reading.Sound r query (journal ++ more) after ∧ queriesOf more = [] ∧
        before.seen ⊆ after.seen ∧ uri ∈ after.seen := by
  have mine : uri ∈ before.seen ++ [uri] := List.mem_append_right _ (.head _)
  have same : journal ++ [] = journal := List.append_nil _
  unfold examine
  -- A candidate seen before is skipped; without metadata, or with no read left, it is excluded.
  refine Logs.ite (fun seen => logs_pure ⟨same.symm ▸ h, rfl, List.Subset.refl _, seen⟩)
    fun fresh => ?_
  dsimp only
  cases found : r.metadata? uri with
  | none =>
    have none : r.journaled.metadata? uri = .none := found
    rw [none]
    exact logs_pure ⟨same.symm ▸ h.exclude uri _, rfl, List.subset_append_left _ _, mine⟩
  | some m =>
    have some : r.journaled.metadata? uri = .some m := found
    rw [some]
    refine Logs.ite (fun _ => logs_pure
      ⟨same.symm ▸ h.exclude uri _, rfl, List.subset_append_left _ _, mine⟩) fun room => ?_
    refine (notes_anchors query uri).bind fun lines x ⟨noReads, quiet⟩ => ?_
    -- Every reading has a window, also where no line was hit.
    obtain ⟨some, short⟩ := r.windowsAt_law (anchorOffsets lines)
    refine (notes_readWindows keeps found _ (fun w held => short w (List.mem_of_mem_take held))
      _).imp fun after y adds => ?_
    have adds := adds.prepend noReads quiet
    have positive : 0 < ((r.windowsAt (anchorOffsets lines)).take 2).length := by
      rw [List.length_take]
      exact Nat.lt_min.mpr ⟨two_pos, List.length_pos_iff.mpr some⟩
    refine ⟨h.read found fresh (not_le.mp room) positive (List.length_take_le _ _) adds,
      adds.quiet, ?_⟩
    rw [adds.seen]
    exact ⟨List.subset_append_left _ _, mine⟩

theorem notes_examineAll (keeps : KeepsSpaces r.lower) (candidates : List String)
    (h : Reading.Sound r query journal before) :
    Notes (r.journaled.examineAll query candidates before) fun after more =>
      Reading.Sound r query (journal ++ more) after ∧ queriesOf more = [] ∧
        before.seen ⊆ after.seen ∧ candidates ⊆ after.seen := by
  induction candidates generalizing before journal with
  | nil =>
    refine logs_pure ⟨?_, rfl, List.Subset.refl _, List.nil_subset _⟩
    rwa [List.append_nil]
  | cons uri rest ih =>
    rw [examineAll]
    refine (notes_examine keeps h).bind fun middle x ⟨sound, quiet, grown, mine⟩ => ?_
    refine (ih sound).imp fun after y ⟨sound', quiet', grown', others⟩ => ?_
    refine ⟨List.append_assoc journal x y ▸ sound', ?_, List.Subset.trans grown grown',
      List.cons_subset.mpr ⟨grown' mine, others⟩⟩
    rw [queriesOf_append, quiet, quiet', List.nil_append]

theorem notes_rank (queries : List String) :
    Notes (r.journaled.rank queries) fun rankings more =>
      queriesOf more = queries ∧ readsOf more = [] ∧
        ∀ query ranking, .found query ranking ∈ more → ranking ∈ rankings := by
  induction queries with
  | nil => exact logs_pure ⟨rfl, rfl, nofun⟩
  | cons query rest ih =>
    refine (notes_journaled (r.finding.invoke query) _).bind fun ranking x found => ?_
    subst found
    refine ih.bind fun rankings y ⟨searched, noReads, listed⟩ => logs_pure ?_
    rw [List.append_nil]
    refine ⟨congrArg (query :: ·) searched, noReads, fun query' ranking' noted => ?_⟩
    rcases List.mem_append.mp noted with first | later
    · obtain ⟨-, rfl⟩ := Asked.found.inj (List.mem_singleton.mp first)
      exact .head _
    · exact .tail _ (listed query' ranking' later)

/-- A search that is noted is of a query that is noted. -/
theorem query_mem_of_found {ranking : List String} (noted : .found query ranking ∈ journal) :
    query ∈ queriesOf journal :=
  List.mem_filterMap.mpr ⟨_, noted, rfl⟩

theorem selectionLaw_of_select {evidence selected : List Evidence}
    (chosen : r.select evidence = .ok selected) :
    SelectionLaw evidence r.maxBytes (r.facets.map Prod.fst) selected := by
  unfold select at chosen
  cases found : selectEvidence evidence r.maxBytes (r.facets.map Prod.fst) with
  | none => simp [found] at chosen
  | some kept =>
    rw [found] at chosen
    cases chosen
    exact selectionLaw_of_chosen found

theorem notes_retrieveQueries (keeps : KeepsSpaces r.lower) (queries : List String) :
    Notes (r.journaled.retrieveQueries queries) fun result journal =>
      ReadingLaw r journal queries result.1 result.2 := by
  unfold retrieveQueries
  refine Logs.ite (fun _ => logs_throw _) fun _ => ?_
  refine (notes_rank queries).bind fun rankings x ⟨searched, noReads, listed⟩ => ?_
  refine (logs_ofExcept fun candidates fused => ⟨rfl, fused⟩ :
    Notes _ fun candidates more => more = [] ∧ reciprocalRankFusion rankings = .ok candidates).bind
      fun candidates none ⟨quiet, fused⟩ => ?_
  subst quiet
  refine (notes_examineAll keeps candidates (.start noReads)).bind
    fun reading y ⟨sound, quiet, _, all⟩ => ?_
  refine (logs_ofExcept fun selected chosen => ⟨rfl, chosen⟩ :
    Notes _ fun selected more => more = [] ∧ r.select reading.evidence = .ok selected).bind
      fun selected none ⟨nothing, chosen⟩ => ?_
  subst nothing
  refine logs_pure ?_
  rw [List.nil_append, List.append_nil, List.append_nil]
  have law := selectionLaw_of_select chosen
  -- Every candidate has been seen, and what has been seen is settled.
  refine ⟨?_, sound.reported.symm, sound.calls, sound.documents, sound.twice, sound.lines,
    sound.allowed, fun query ranking noted uri member => ?_,
    fun e held => sound.sourced e (law.subset held), reading.evidence, law, sound.sourced⟩
  · rw [queriesOf_append, searched, quiet, List.append_nil]
  · rcases List.mem_append.mp noted with first | later
    · exact sound.settled uri
        (all (mem_of_reciprocalRankFusion fused (listed query ranking first) member))
    · have absent := query_mem_of_found later
      rw [quiet] at absent
      cases absent

/-! #### Without the journal -/

theorem tracks_extract (uri raw : String) (m : BusinessMetadata) (query : String) (start : ℕ) :
    Tracks (r.journaled.extract uri raw m query start) (r.extract uri raw m query start) := by
  unfold extract
  cases selector : r.spanSelector with
  | none =>
    have none : r.journaled.spanSelector = .none := by simp [journaled, selector]
    rw [none]
    exact tracks_ofExcept _
  | some pick =>
    have some : r.journaled.spanSelector = .some fun uri raw m query start facets =>
        Program.journaled (pick uri raw m query start facets) (.picked uri raw start) := by
      simp [journaled, selector]
    rw [some]
    exact tracks_journaled _ _

theorem tracks_readWindows (windows : List (ℕ × ℕ)) (before : Reading) :
    Tracks (r.journaled.readWindows uri m query windows before)
      (r.readWindows uri m query windows before) := by
  induction windows generalizing before with
  | nil => exact tracks_pure _
  | cons w rest ih =>
    obtain ⟨start, stop⟩ := w
    rw [readWindows, readWindows]
    refine Tracks.ite (tracks_pure _) ?_
    exact (tracks_journaled _ _).bind fun raw => (tracks_extract _ _ _ _ _).bind fun items => ih _

theorem tracks_examine (before : Reading) (uri : String) :
    Tracks (r.journaled.examine query before uri) (r.examine query before uri) := by
  have anchors : Tracks (r.journaled.anchors query uri) (r.anchors query uri) := by
    unfold anchors
    change Tracks (match anchorPattern? r.lower query with | none => _ | some pattern => _) _
    cases anchorPattern? r.lower query with
    | none => exact tracks_pure _
    | some pattern => exact tracks_journaled _ _
  unfold examine
  refine Tracks.ite (tracks_pure _) ?_
  dsimp only
  have same : r.journaled.metadata? uri = r.metadata? uri := rfl
  rw [same]
  cases r.metadata? uri with
  | none => exact tracks_pure _
  | some m =>
    refine Tracks.ite (tracks_pure _) ?_
    exact anchors.bind fun lines => tracks_readWindows _ _

theorem tracks_retrieveQueries (queries : List String) :
    Tracks (r.journaled.retrieveQueries queries) (r.retrieveQueries queries) := by
  have ranks (queries : List String) : Tracks (r.journaled.rank queries) (r.rank queries) := by
    induction queries with
    | nil => exact tracks_pure _
    | cons query rest ih =>
      exact (tracks_journaled _ _).bind fun ranking => ih.bind fun rankings => tracks_pure _
  have all (query : String) (candidates : List String) (before : Reading) :
      Tracks (r.journaled.examineAll query candidates before)
        (r.examineAll query candidates before) := by
    induction candidates generalizing before with
    | nil => exact tracks_pure _
    | cons uri rest ih => exact (tracks_examine before uri).bind fun reading => ih reading
  unfold retrieveQueries
  refine Tracks.ite (tracks_throw _) ?_
  refine (ranks queries).bind fun rankings => (tracks_ofExcept _).bind fun candidates => ?_
  exact (all _ candidates _).bind fun reading => (tracks_ofExcept _).bind fun selected =>
    tracks_pure _

/-- **What the retriever returns is as wanted**, in every run that returns, whatever the search and
the client answer in it. -/
theorem reading_law (keeps : KeepsSpaces r.lower) {queries : List String} {s t : σ}
    {selected : List Evidence} {report : ReadingReport}
    (returned : r.retrieveQueries queries s = (.ok (selected, report), t)) :
    ∃ journal, r.journaled.retrieveQueries queries (s, []) = (.ok (selected, report), t, journal) ∧
      ReadingLaw r journal queries selected report :=
  (tracks_retrieveQueries queries).exists_journal (notes_retrieveQueries keeps queries) returned

/-! #### What the search and the client keep -/

section Keeps

variable {P : σ → Prop} (invoke : ∀ query, Keeps P (r.finding.invoke query))
  (grep : ∀ pattern uri limit, Keeps P (r.finding.grep pattern uri limit))
  (read : ∀ uri offset limit, Keeps P (r.finding.read uri offset limit))
  (unpicked : r.spanSelector = none)

include read unpicked in
theorem keeps_readWindows (windows : List (ℕ × ℕ)) (before : Reading) :
    Keeps P (r.readWindows uri m query windows before) := by
  have quotes (uri raw : String) (start : ℕ) : Keeps P (r.extract uri raw m query start) := by
    unfold extract
    rw [unpicked]
    exact keeps_ofExcept _
  induction windows generalizing before with
  | nil => exact keeps_pure _
  | cons w rest ih =>
    obtain ⟨start, stop⟩ := w
    rw [readWindows]
    refine .ite (keeps_pure _) ?_
    exact (read _ _ _).bind fun raw => (quotes _ _ _).bind fun items => ih _

include grep read unpicked in
theorem keeps_examine (before : Reading) (uri : String) :
    Keeps P (r.examine query before uri) := by
  unfold examine
  refine .ite (keeps_pure _) ?_
  dsimp only
  cases r.metadata? uri with
  | none => exact keeps_pure _
  | some m =>
    refine .ite (keeps_pure _) ?_
    refine Keeps.bind ?_ fun lines => keeps_readWindows read unpicked _ _
    unfold anchors
    cases anchorPattern? r.lower query with
    | none => exact keeps_pure _
    | some pattern => exact grep _ _ _

include invoke grep read unpicked in
/-- What the search and the client keep is kept by a retriever without a selector. -/
theorem keeps_retrieveQueries (queries : List String) : Keeps P (r.retrieveQueries queries) := by
  have ranks (queries : List String) : Keeps P (r.rank queries) := by
    induction queries with
    | nil => exact keeps_pure _
    | cons query rest ih =>
      exact (invoke query).bind fun ranking => ih.bind fun rankings => keeps_pure _
  have all (query : String) (candidates : List String) (before : Reading) :
      Keeps P (r.examineAll query candidates before) := by
    induction candidates generalizing before with
    | nil => exact keeps_pure _
    | cons uri rest ih =>
      exact (keeps_examine grep read unpicked before uri).bind fun reading => ih reading
  unfold retrieveQueries
  refine .ite (keeps_throw _) ?_
  refine (ranks queries).bind fun rankings => (keeps_ofExcept _).bind fun candidates => ?_
  exact (all _ candidates _).bind fun reading => (keeps_ofExcept _).bind fun selected =>
    keeps_pure _

end Keeps

end EvidenceRetriever

end Loops

/-- The metadata of a document of one customer. -/
def noticeMetadata : BusinessMetadata where
  docId := "sla"
  title := "약정"
  source := "sla.md"
  domain := "contract"
  entity := "알파"
  version := "v1"
  validFrom := ⟨2026, 1, 1⟩

/-- A retriever over this one document, of one line. -/
def noticeRetriever : EvidenceRetriever Unit where
  lower := List.map Char.toLower
  digest := id
  finding :=
    { invoke := fun _ => pure ["local://internal/sla"]
      grep := fun _ _ _ => pure [1]
      read := fun _ _ _ => pure "가용률 목표 99.9\n" }
  manifest := [("local://internal/sla", noticeMetadata)]
  entity := "알파"
  asOf := ⟨2026, 9, 8⟩

theorem reading_law_notice : ∃ e report journal,
    noticeRetriever.retrieveQueries ["가용률"] () = (.ok ([e], report), ()) ∧
      noticeRetriever.journaled.retrieveQueries ["가용률"] ((), []) =
        (.ok ([e], report), (), journal) ∧
      ReadingLaw noticeRetriever journal ["가용률"] [e] report := by
  have one : ((noticeRetriever.retrieveQueries ["가용률"] ()).1.toOption.map fun result =>
      result.1.length) = some 1 := by
    decide +kernel
  rcases returned : noticeRetriever.retrieveQueries ["가용률"] () with
    ⟨failed | result, t⟩
  · rw [returned] at one
    cases one
  · obtain ⟨selected, report⟩ := result
    rw [returned] at one
    obtain ⟨e, rfl⟩ := List.length_eq_one_iff.mp (Option.some.inj one)
    obtain ⟨journal, ran, law⟩ := EvidenceRetriever.reading_law keepsSpaces_toLower returned
    exact ⟨e, report, journal, rfl, ran, law⟩

end AgentLabs.Rag
