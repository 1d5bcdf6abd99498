import AgentLabs.Math.Dict
import AgentLabs.Text.JsonText
import AgentLabs.Text.PythonStr
import Mathlib.Data.List.MinMax
import Mathlib.Data.Prod.Lex
import Mathlib.Data.Rat.Defs
import Mathlib.Algebra.Order.Ring.Rat

/-!
# Evidence and citations

Evidence is a quotation with its coordinates. A writer gets as much of it as fits into a
budget of bytes, and may cite only what it was given. Scores, also those for each byte,
are rational numbers where the program has floats, so that no ties are made by rounding.

## Main definitions

* `Evidence`, `Claim`, `GroundedAnswer`: quotations, and answers that cite them
* `renderContext`, `contextSize`: what a model is shown, and its size
* `selectEvidence`: the choice within a budget
* `validateCitations`: the ids that are cited but unknown

## Main results

* `mem_of_mem_selectEvidence`: nothing is chosen that was no candidate
* `validateCitations_eq_nil_iff`: no complaint means that every id is known
-/

namespace AgentLabs.Rag

open Math Text

/-- A quotation. Its range of lines is in order, and the quote is not blank. -/
structure Evidence where
  evidenceId : String
  uri : String
  docId : String
  title : String
  source : String
  page : Option Int
  startLine : ℕ
  endLine : ℕ
  quote : String
  contentSha256 : String
  version : String
  facets : List String := []
  score : ℚ := 0
  startLine_pos : 1 ≤ startLine
  ordered : startLine ≤ endLine
  quote_solid : strip quote ≠ ""
  deriving DecidableEq

/-- A claim, with at least one citation. -/
structure Claim where
  text : String
  evidenceIds : List String
  cited : evidenceIds ≠ []
  deriving DecidableEq

/-- The answer of a writer. -/
structure GroundedAnswer where
  claims : List Claim := []
  missing : List String := []
  conflicts : List String := []
  deriving DecidableEq

/-! ### What a model is shown -/

/-- The card of a quotation. -/
def Evidence.card (e : Evidence) : Json :=
  .obj [("id", .str e.evidenceId), ("source", .str e.source), ("uri", .str e.uri),
    ("page", e.page.elim .null .int), ("lines", .arr [.int e.startLine, .int e.endLine]),
    ("version", .str e.version), ("quote", .str e.quote)]

/-- `render_context`. -/
def renderContext (evidence : List Evidence) : String :=
  Json.dumpCompact (.arr (evidence.map Evidence.card))

/-- `context_size`: the length in UTF-8. -/
def contextSize (evidence : List Evidence) : ℕ := (renderContext evidence).utf8ByteSize

/-! ### The choice within a budget -/

/-- The candidates without those that repeat a place and a quote; the last one stays, where
the first one was. -/
def distinctCandidates (candidates : List Evidence) : List Evidence :=
  (Dict.setAll [] (candidates.map fun e => ((e.uri, e.startLine, e.endLine, e.quote), e))).map
    Prod.snd

/-- What a quotation adds: the required facets that are not covered, and then its score for
each byte. -/
def utility (required covered : List String) (selected : List Evidence) (item : Evidence) :
    ℕ ×ₗ ℚ :=
  let newFacets := (item.facets.filter fun f => f ∈ required ∧ f ∉ covered).dedup.length
  let marginalBytes := contextSize (selected ++ [item]) - contextSize selected
  toLex (newFacets, item.score / (max 1 marginalBytes : ℕ))

/-- The loop of `select_evidence`, which takes the best of what remains while anything
does. Each round takes one, so as many rounds as there are candidates are enough. -/
def selectLoop (maxBytes : Int) (required : List String) :
    ℕ → List Evidence → List Evidence → List String → List Evidence
  | 0, _, selected, _ => selected
  | n + 1, remaining, selected, covered =>
    match remaining.argmax (utility required covered selected) with
    | none => selected
    | some best =>
      if maxBytes < contextSize (selected ++ [best]) then
        selectLoop maxBytes required n (remaining.erase best) selected covered
      else
        selectLoop maxBytes required n (remaining.erase best) (selected ++ [best])
          (covered ++ best.facets)

/-- `select_evidence`, without its report. There is no choice if not even an empty context
fits. -/
def selectEvidence (candidates : List Evidence) (maxBytes : Int) (required : List String) :
    Option (List Evidence) :=
  if maxBytes < contextSize [] then none
  else
    let remaining := distinctCandidates candidates
    some (selectLoop maxBytes required remaining.length remaining [] [])

variable {candidates selected : List Evidence} {maxBytes : Int} {required : List String}

theorem mem_of_mem_distinctCandidates {e : Evidence} (h : e ∈ distinctCandidates candidates) :
    e ∈ candidates := Dict.mem_of_mem_setAll h

/-- More rounds than there are candidates change nothing. -/
theorem selectLoop_enough {n : ℕ} {remaining : List Evidence} (enough : remaining.length ≤ n)
    (selected : List Evidence) (covered : List String) :
    selectLoop maxBytes required (n + 1) remaining selected covered =
      selectLoop maxBytes required n remaining selected covered := by
  induction n generalizing remaining selected covered with
  | zero =>
    obtain rfl := List.length_eq_zero_iff.mp (Nat.le_zero.mp enough)
    rfl
  | succ n ih =>
    rw [selectLoop, selectLoop]
    cases best : remaining.argmax (utility required covered selected) with
    | none => rfl
    | some item =>
      have shorter : (remaining.erase item).length ≤ n := by
        rw [List.length_erase_of_mem (List.argmax_mem best)]
        omega
      simp only [ih shorter]

theorem mem_selectLoop {n : ℕ} {remaining : List Evidence} {covered : List String} {e : Evidence}
    (h : e ∈ selectLoop maxBytes required n remaining selected covered) :
    e ∈ selected ∨ e ∈ remaining := by
  induction n generalizing remaining selected covered with
  | zero => exact .inl h
  | succ n ih =>
    rw [selectLoop] at h
    cases best : remaining.argmax (utility required covered selected) with
    | none =>
      rw [best] at h
      exact .inl h
    | some item =>
      rw [best] at h
      dsimp only at h
      split_ifs at h
      · exact (ih h).imp_right List.mem_of_mem_erase
      · rcases ih h with chosen | later
        · rcases List.mem_append.mp chosen with earlier | now
          · exact .inl earlier
          · rw [List.mem_singleton.mp now]
            exact .inr (List.argmax_mem best)
        · exact .inr (List.mem_of_mem_erase later)

/-- **Nothing is chosen that was no candidate.** -/
theorem mem_of_mem_selectEvidence (chosen : selectEvidence candidates maxBytes required =
    some selected) {e : Evidence} (h : e ∈ selected) : e ∈ candidates := by
  unfold selectEvidence at chosen
  split_ifs at chosen
  obtain rfl := Option.some.inj chosen
  rcases mem_selectLoop h with none | remains
  · exact absurd none List.not_mem_nil
  · exact mem_of_mem_distinctCandidates remains

/-! ### Citations -/

/-- `validate_citations`: a complaint for each citation that is not of the selection. -/
def validateCitations (answer : GroundedAnswer) (selected : List Evidence) : List String :=
  answer.claims.flatMap fun claim =>
    (claim.evidenceIds.filter fun id => id ∉ selected.map Evidence.evidenceId).map fun id =>
      "허용되지 않은 인용: " ++ id

/-- Every id that the answer cites is one of these quotations. -/
def GroundedAnswer.CitesOnly (answer : GroundedAnswer) (evidence : List Evidence) : Prop :=
  ∀ claim ∈ answer.claims, ∀ id ∈ claim.evidenceIds, ∃ e ∈ evidence, e.evidenceId = id

theorem validateCitations_eq_nil_iff {answer : GroundedAnswer} :
    validateCitations answer selected = [] ↔ answer.CitesOnly selected := by
  simp [validateCitations, GroundedAnswer.CitesOnly, List.flatMap_eq_nil_iff,
    List.filter_eq_nil_iff]

theorem GroundedAnswer.CitesOnly.mono {answer : GroundedAnswer} {evidence : List Evidence}
    (cites : answer.CitesOnly selected) (more : ∀ e ∈ selected, e ∈ evidence) :
    answer.CitesOnly evidence := by
  intro claim listed id cited
  obtain ⟨e, held, same⟩ := cites claim listed id cited
  exact ⟨e, more e held, same⟩

end AgentLabs.Rag
