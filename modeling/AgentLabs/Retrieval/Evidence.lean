import AgentLabs.Math.Dict
import AgentLabs.Text.JsonAccess
import AgentLabs.Text.JsonText
import AgentLabs.Text.Lines
import Mathlib.Algebra.Order.Field.Rat

/-!
# Evidence

What a retrieval hands to the model is a quote with its coordinates: the document it is from,
the lines, and the metadata under which the document was approved. A document applies to a
question by the customer, the date and the domain it is asked for. What a turn may spend is a
budget of calls, of time and of bytes, and the bytes are those of the evidence written as JSON.

## Main definitions

* `Metadata`, `Metadata.Applies`: what is known of a document, and what it applies to
* `Evidence`, `evidenceFromText`: quotes with their coordinates
* `evidenceBytes`: the size of evidence
* `Budget`: what a turn may spend

## Main results

* `itemBytes_le`: evidence is no smaller than its items are together
-/

namespace AgentLabs.Retrieval

open Math Text

/-! ### Dates -/

/-- A calendar date. -/
structure Date where
  year : ℕ
  month : ℕ
  day : ℕ
  deriving DecidableEq, Repr

namespace Date

instance : LT Date :=
  ⟨fun a b => a.year < b.year ∨ a.year = b.year ∧
    (a.month < b.month ∨ a.month = b.month ∧ a.day < b.day)⟩

instance : LE Date := ⟨fun a b => a < b ∨ a = b⟩

instance (a b : Date) : Decidable (a < b) :=
  inferInstanceAs (Decidable (a.year < b.year ∨ a.year = b.year ∧
    (a.month < b.month ∨ a.month = b.month ∧ a.day < b.day)))

instance (a b : Date) : Decidable (a ≤ b) := inferInstanceAs (Decidable (a < b ∨ a = b))

/-- `date.isoformat()`. -/
def isoformat (d : Date) : String :=
  .ofList (zeroPad 4 d.year ++ '-' :: (zeroPad 2 d.month ++ '-' :: zeroPad 2 d.day))

end Date

/-! ### Metadata -/

/-- Where a document is on its way. -/
inductive Status where
  | approved
  | draft
  | withdrawn
  deriving DecidableEq, Repr

/-- The name of a status. -/
def Status.name : Status → String
  | .approved => "approved"
  | .draft => "draft"
  | .withdrawn => "withdrawn"

/-- `Metadata`, with a period that does not end before it starts. -/
structure Metadata where
  docId : String
  title : String
  source : String
  domain : String := "자료"
  entity : String := "공통"
  version : String := "unknown"
  validFrom : Date := ⟨1900, 1, 1⟩
  validUntil : Option Date := none
  status : Status := .approved
  page : Option ℤ := none
  slide : Option ℤ := none
  extractionMethod : String := "authored"
  sourceSha256 : String := ""
  sourceStartLine : ℤ := 1
  sourceEndLine : Option ℤ := none
  topics : List String := []
  period : ∀ last ∈ validUntil, validFrom < last
  numbered : 1 ≤ sourceStartLine

namespace Metadata

/-- `Metadata.applies`. -/
def Applies (m : Metadata) (entity : String) (asOf : Date) (domain : Option String) : Prop :=
  m.status = .approved ∧ m.entity ∈ [entity, "공통"] ∧ m.validFrom ≤ asOf ∧
    (∀ last ∈ m.validUntil, asOf < last) ∧ ∀ asked ∈ domain, asked = "" ∨ m.domain = asked

instance (m : Metadata) (entity : String) (asOf : Date) (domain : Option String) :
    Decidable (m.Applies entity asOf domain) :=
  inferInstanceAs (Decidable (m.status = .approved ∧ m.entity ∈ [entity, "공통"] ∧
    m.validFrom ≤ asOf ∧ (∀ last ∈ m.validUntil, asOf < last) ∧
      ∀ asked ∈ domain, asked = "" ∨ m.domain = asked))

/-- An integer that may be missing. -/
def optionalInt (value : Option ℤ) : Json := value.elim .null .int

/-- `metadata.model_dump(mode="json")`. -/
def toJson (m : Metadata) : Json :=
  .obj
    [("doc_id", .str m.docId), ("title", .str m.title), ("source", .str m.source),
      ("domain", .str m.domain), ("entity", .str m.entity), ("version", .str m.version),
      ("valid_from", .str m.validFrom.isoformat),
      ("valid_until", m.validUntil.elim .null fun last => .str last.isoformat),
      ("status", .str m.status.name), ("page", optionalInt m.page), ("slide", optionalInt m.slide),
      ("extraction_method", .str m.extractionMethod), ("source_sha256", .str m.sourceSha256),
      ("source_start_line", .int m.sourceStartLine),
      ("source_end_line", optionalInt m.sourceEndLine), ("topics", .arr (m.topics.map .str))]

end Metadata

/-! ### Evidence -/

/-- What retrieval fails with. -/
inductive Failure where
  | validation (message : String)
  | budgetExceeded (message : String)
  | value (message : String)
  | access (error : AccessError)
  | service (message : String)
  | file (message : String)
  deriving DecidableEq, Repr

/-- `Evidence`: a quote that is not blank, from some lines of a document. -/
structure Evidence where
  kind : String := "source_text"
  evidenceId : String
  uri : String
  documentId : String
  title : String
  source : String
  page : Option ℤ
  slide : Option ℤ
  startLine : ℕ
  endLine : ℕ
  quote : String
  contentHash : String
  version : String
  metadata : Metadata
  positive : 1 ≤ startLine
  ordered : startLine ≤ endLine
  nonblank : isBlank quote = false

namespace Evidence

/-- `evidence.model_dump(mode="json")`. -/
def toJson (e : Evidence) : Json :=
  .obj
    [("kind", .str e.kind), ("evidence_id", .str e.evidenceId), ("uri", .str e.uri),
      ("document_id", .str e.documentId), ("title", .str e.title), ("source", .str e.source),
      ("page", Metadata.optionalInt e.page), ("slide", Metadata.optionalInt e.slide),
      ("start_line", .int e.startLine), ("end_line", .int e.endLine), ("quote", .str e.quote),
      ("content_hash", .str e.contentHash), ("version", .str e.version),
      ("metadata", e.metadata.toJson)]

end Evidence

/-- `evidence_from_text`. -/
def evidenceFromText (digest : String → String) (uri text : String) (metadata : Metadata)
    (offset : ℕ) : Except Failure Evidence :=
  let endLine := offset + (splitLines text.toList).length
  if valid : offset + 1 ≤ endLine ∧ isBlank text = false then
    .ok
      { evidenceId := "E-" ++ String.ofList
          ((digest (uri ++ ":" ++ toString offset ++ ":" ++ text)).toList.take 12)
        uri
        documentId := metadata.docId
        title := metadata.title
        source := metadata.source
        page := metadata.page
        slide := metadata.slide
        startLine := offset + 1
        endLine
        quote := text
        contentHash := digest text
        version := metadata.version
        metadata
        positive := Nat.le_add_left 1 offset
        ordered := valid.1
        nonblank := valid.2 }
  else .error (.validation "원문 인용과 행 범위를 확인하세요.")

/-- `evidence_bytes`. -/
def evidenceBytes (items : List Evidence) : ℕ := Json.bytes (.arr (items.map Evidence.toJson))

/-- The size of the items without what is written around and between them. -/
def itemBytes (items : List Evidence) : ℕ := ((items.map Evidence.toJson).map Json.bytes).sum

theorem itemBytes_le (items : List Evidence) : itemBytes items ≤ evidenceBytes items :=
  Json.sum_bytes_le _

/-! ### Budgets -/

/-- What is counted. -/
inductive Kind where
  | tool
  | model
  | search
  | read
  | contextExcluded
  deriving DecidableEq, Repr

/-- The name of what is counted. -/
def Kind.name : Kind → String
  | .tool => "tool"
  | .model => "model"
  | .search => "search"
  | .read => "read"
  | .contextExcluded => "context_excluded"

/-- The limits of a `Budget`. -/
structure Budget where
  maxToolCalls : ℕ := 18
  maxModelCalls : ℕ := 10
  maxSearches : ℕ := 3
  maxReads : ℕ := 18
  maxContextBytes : ℕ := 24000
  maxSeconds : ℚ := 180

/-- The limit on what is counted; `context_excluded` has none. -/
def Budget.limit? (b : Budget) : Kind → Option ℕ
  | .tool => some b.maxToolCalls
  | .model => some b.maxModelCalls
  | .search => some b.maxSearches
  | .read => some b.maxReads
  | .contextExcluded => none

end AgentLabs.Retrieval
