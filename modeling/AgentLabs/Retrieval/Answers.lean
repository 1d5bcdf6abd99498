import AgentLabs.Math.Fallible
import AgentLabs.Retrieval.Evidence
import AgentLabs.Text.PipeTables
import Mathlib.Data.Finset.Sort
import Mathlib.Data.String.Basic

/-!
# Answers and their layout

The model answers in sections of statements, and each statement cites evidence. A skill says which
sections there are and how they look; what it says is read from a file and checked. The answer is
checked against the skill and against the evidence of the turn, and then it is rendered.

What the renderer relies on is checked before, but for two things. The check of a table counts its
columns and does not look at what they are, and the text for an empty section is not looked at.

## Main definitions

* `AnswerPayload`: the answer of the model
* `skillSpec`: the layout of a skill, as far as it is checked
* `validateAnswer`, `renderAnswer`: the check and the text
* `Renderable`: what the checks leave out
* `EndsWithSources`: the text ends with the sources that are cited
* `RenderLaw`: what is wanted of a validated answer

## Main results

* `wellFormed_of_skillSpec`: what the check of a layout establishes
* `valid_of_validateAnswer`: what the check of an answer establishes
* `endsWithSources_of_renderAnswer`: the text that is returned
* `renderLaw_iff`: when validated answers render
-/

namespace AgentLabs.Retrieval

open Math Text

/-! ### Answers -/

/-- The layouts there are. -/
inductive SkillName where
  | groundedQa
  | comparison
  | procedure
  | tableAnalysis
  | insufficientEvidence
  deriving DecidableEq, Repr

/-- The name of a layout, as its folder has it. -/
def SkillName.name : SkillName → String
  | .groundedQa => "grounded-qa"
  | .comparison => "comparison"
  | .procedure => "procedure"
  | .tableAnalysis => "table-analysis"
  | .insufficientEvidence => "insufficient-evidence"

inductive AnswerStatus where
  | answered
  | insufficient
  deriving DecidableEq, Repr

/-- A statement has a text and cites something. -/
structure Statement where
  label : String := ""
  text : String
  evidenceIds : List String
  text_ne : text ≠ ""
  cites : evidenceIds ≠ []

structure Section where
  heading : String
  items : List Statement := []

structure AnswerPayload where
  skill : SkillName
  status : AnswerStatus
  sections : List Section
  missing : List String := []
  conflicts : List String := []

namespace AnswerPayload

def statements (answer : AnswerPayload) : List Statement := answer.sections.flatMap Section.items

/-- The ids that are cited somewhere in the answer. -/
def citedIds (answer : AnswerPayload) : List String :=
  answer.statements.flatMap Statement.evidenceIds

end AnswerPayload

/-- What a turn has read and what it is for. -/
structure AnswerContext where
  loadedSkills : List String
  searchCount : ℕ
  evidence : Dict String Evidence
  entity : String
  asOf : Date
  domain : Option String := none

/-! ### Layouts -/

/-- A value that may be missing or of another shape. -/
def reads {α : Type} (x : Except AccessError α) : Except Failure α := x.mapError .access

/-- `len(value)`. -/
def size : Json → Except AccessError ℕ
  | .arr items => .ok items.length
  | .obj fields => .ok fields.length
  | .str text => .ok text.length
  | _ => .error .typeError

/-- `separator.join(value)`. -/
def join (separator : String) (value : Json) : Except AccessError String := do
  let items ← value.elements
  let texts ← items.mapM fun item => item.asStr?.elim (.error .typeError) .ok
  return separator.intercalate texts

/-- The checks of a section of a layout. -/
def checkStyle (sectionSpec : Json) : Except Failure Unit := do
  let style ← reads (sectionSpec.get "style" .null)
  let style ← reads style.hashed
  if style.asStr? ∉ [some "table", some "steps", some "paragraph"] then
    throw (.value "Skill style은 table/steps/paragraph 중 하나여야 합니다.")
  if style.asStr? = some "table" then
    let columns ← reads (sectionSpec.get "columns" (.arr []))
    let count ← reads (size columns)
    if count ≠ 3 then
      throw (.value "표 형식은 label/text/evidence에 대응하는 열 3개가 필요합니다.")

/-- The check of a heading that every layout has. -/
def checkField (spec : Json) (field : String) : Except Failure Unit := do
  let value ← reads (spec.get field .null)
  if ∀ text ∈ value.asStr?, isBlank text then
    throw (.value ("Skill의 " ++ field ++ " 설정이 필요합니다."))

/-- A heading is a text that is not blank. -/
def isTitle (heading : Json) : Bool := heading.asStr?.any fun text => !isBlank text

/-- `skill_spec`, given what the files of the skills hold. -/
def skillSpec (files : String → Except Failure Json) (name : String) : Except Failure Json := do
  if name ∉ ["grounded-qa", "comparison", "procedure", "table-analysis",
    "insufficient-evidence"] then
    throw (.value "알 수 없는 답변 Skill입니다.")
  let spec ← files name
  let sections ← reads (spec.get "sections" (.arr []))
  let sections ← reads sections.elements
  let headings ← reads (sections.mapM fun s => s.get "heading" .null)
  if headings = [] ∨ headings.any (!isTitle ·) ∨ ¬ (headings.filterMap Json.asStr?).Nodup then
    throw (.value "Skill의 절 제목은 비어 있지 않고 서로 달라야 합니다.")
  sections.forM checkStyle
  ["missing_heading", "conflicts_heading", "sources_heading"].forM (checkField spec)
  return spec

/-! ### Validation -/

/-- What is wrong with a citation. -/
def citationErrors (digest : String → String) (context : AnswerContext) (reference : String) :
    List String :=
  match context.evidence.get? reference with
  | none => ["현재 턴에 없는 인용 ID: " ++ reference]
  | some e =>
    if digest e.quote ≠ e.contentHash then ["인용문 해시 불일치: " ++ reference]
    else if ¬ e.metadata.Applies context.entity context.asOf context.domain then
      ["적용 범위를 벗어난 인용: " ++ reference]
    else []

/-- The complaint `message`, if something is wrong. -/
def complaint (wrong : Bool) (message : String) : List String := if wrong then [message] else []

/-- What is wrong with the sections, the status and the citations of an answer. `shown` is how a
list of headings is printed. -/
def answerErrors (digest : String → String) (shown : List Json → String) (answer : AnswerPayload)
    (context : AnswerContext) (requestedFormat : String) (expected : List Json) : List String :=
  let answered := answer.status = .answered
  let lacking := answer.skill = .insufficientEvidence
  complaint (answer.skill.name ∉ context.loadedSkills)
      (answer.skill.name ++ "/SKILL.md 전체 본문을 read_file로 읽어야 합니다.") ++
    complaint (context.searchCount = 0) "현재 턴에서 search_knowledge를 실행해야 합니다." ++
    complaint (requestedFormat ≠ "auto" ∧ answered ∧ answer.skill.name ≠ requestedFormat)
      ("지정한 답변 형식 " ++ requestedFormat ++ "을 사용하세요.") ++
    complaint (expected.map Json.asStr? ≠ answer.sections.map fun s => some s.heading)
      ("Skill에 정의된 절 제목과 순서를 지키세요: " ++ shown expected) ++
    complaint (answered ∧ answer.statements.isEmpty) "답변에는 근거가 있는 주장이 필요합니다." ++
    complaint (answered ∧ answer.sections.any fun s => s.items.isEmpty)
      "답변의 각 필수 절에는 근거가 있는 내용이 필요합니다." ++
    complaint (¬ answered ∧ (¬ lacking ∨ answer.missing = [] ∧ answer.conflicts = []))
      "근거 부족 답변은 insufficient-evidence Skill과 부족/상충 이유가 필요합니다." ++
    complaint (answered ∧ lacking) "insufficient-evidence Skill은 insufficient 상태여야 합니다." ++
    answer.citedIds.flatMap (citationErrors digest context)

/-- `validate_answer`: the errors, each of them once. -/
def validateAnswer (digest : String → String) (shown : List Json → String)
    (files : String → Except Failure Json) (answer : AnswerPayload) (context : AnswerContext)
    (requestedFormat : String := "auto") : Except Failure (List String) := do
  let spec ← skillSpec files answer.skill.name
  let sections ← reads (spec.item "sections")
  let sections ← reads sections.elements
  let expected ← reads (sections.mapM fun s => s.item "heading")
  return (answerErrors digest shown answer context requestedFormat expected).eraseDups

/-! ### Rendering -/

/-- The references of a statement. -/
def Statement.refs (item : Statement) : String :=
  " ".intercalate (item.evidenceIds.map fun ref => "[" ++ ref ++ "]")

/-- The row of a statement in a table. -/
def tableRow (item : Statement) : String :=
  let label := String.ofList (escapePipes item.label.toList)
  let text := String.ofList ((escapePipes item.text.toList).flatMap
    fun c => if c = '\n' then "<br>".toList else [c])
  "| " ++ label ++ " | " ++ text ++ " | " ++ item.refs ++ " |"

/-- The lines of a statement that is not in a table. -/
def proseLines (style : Json) (entry : Statement × ℕ) : List String :=
  let mark := if style.asStr? = some "steps" then toString (entry.2 + 1) ++ ". " else ""
  [mark ++ entry.1.text ++ " " ++ entry.1.refs, ""]

/-- The two lines over the rows of a table. -/
def tableHead (sectionSpec : Json) : Except Failure (List String) := do
  let columns ← reads (sectionSpec.get "columns" (.arr [.str "항목", .str "내용", .str "근거"]))
  let titles ← reads (join " | " columns)
  return ["| " ++ titles ++ " |", "| --- | --- | --- |"]

/-- The lines under the heading of a section, before its statements. -/
def sectionHead (style sectionSpec : Json) (items : List Statement) :
    Except Failure (List String) :=
  if style.asStr? = some "table" ∧ items ≠ [] then tableHead sectionSpec else .ok []

/-- The lines of the statements. -/
def itemLines (style : Json) (items : List Statement) : List String :=
  if style.asStr? = some "table" then items.map tableRow else items.zipIdx.flatMap
    (proseLines style)

/-- What stands for a section without statements. It need not be a text. -/
def emptyLines (spec : Json) (items : List Statement) : Except Failure (List Json) :=
  if items = [] then (fun text => [text]) <$> reads (spec.get "empty_section" (.str "확인된 근거 없음"))
  else .ok []

/-- The lines of a section. They are values until they are joined. -/
def renderSection (spec : Json) (section_ : Section) (sectionSpec : Json) :
    Except Failure (List Json) := do
  let style ← reads (sectionSpec.item "style")
  let head ← sectionHead style sectionSpec section_.items
  let empty ← emptyLines spec section_.items
  let lines := ["## " ++ section_.heading, ""] ++ head ++ itemLines style section_.items
  return lines.map .str ++ empty ++ [.str ""]

/-- `zip(answer.sections, spec["sections"], strict=True)`. -/
def renderSections (spec : Json) : List Section → List Json → Except Failure (List Json)
  | [], [] => .ok []
  | section_ :: sections, sectionSpec :: sectionSpecs => do
    let lines ← renderSection spec section_ sectionSpec
    let rest ← renderSections spec sections sectionSpecs
    return lines ++ rest
  | _, _ => .error (.value "zip() arguments have different lengths")

/-- A heading of the layout in a line. It has been checked to be a text. -/
def headingLine (spec : Json) (field : String) : Except Failure String := do
  let title ← reads (spec.item field)
  return "## " ++ title.asStr?.getD ""

/-- What is missing or in conflict. -/
def renderNotes (spec : Json) (field : String) (values : List String) :
    Except Failure (List Json) :=
  if values = [] then .ok []
  else do
    let heading ← headingLine spec field
    return ([heading, ""] ++ values.map ("- " ++ ·) ++ [""]).map .str

/-- Where a piece of evidence is from. -/
def sourceLine (reference : String) (e : Evidence) : String :=
  let location :=
    match e.page.filter (· ≠ 0), e.slide.filter (· ≠ 0) with
    | some page, _ => "page " ++ toString page
    | none, some slide => "slide " ++ toString slide
    | none, none => "text"
  let coordinate := if e.kind = "visual_observation" then "시각 모델 관찰"
    else "L" ++ toString e.startLine ++ "–" ++ toString e.endLine
  let version := if e.version = "unknown" then "버전 미확인" else "v" ++ e.version
  "- [" ++ reference ++ "] " ++ e.source ++ " · " ++ location ++ " · " ++ coordinate ++ " · " ++
    version ++ " · `" ++ e.uri ++ "`"

/-- The sources of an answer, in the order of their ids. -/
def renderSources (spec : Json) (answer : AnswerPayload) (context : AnswerContext) :
    Except Failure (List Json) :=
  let used := answer.citedIds.toFinset.sort
  if used = [] then .ok []
  else do
    let heading ← headingLine spec "sources_heading"
    let lines ← used.mapM fun reference => do
      let e ← reads ((context.evidence.get? reference).elim (.error .keyError) .ok)
      return sourceLine reference e
    return ([heading, ""] ++ lines).map .str

/-- `render_answer`. -/
def renderAnswer (files : String → Except Failure Json) (answer : AnswerPayload)
    (context : AnswerContext) : Except Failure String := do
  let spec ← skillSpec files answer.skill.name
  let sectionSpecs ← reads (spec.item "sections")
  let sectionSpecs ← reads sectionSpecs.elements
  let body ← renderSections spec answer.sections sectionSpecs
  let missing ← renderNotes spec "missing_heading" answer.missing
  let conflicts ← renderNotes spec "conflicts_heading" answer.conflicts
  let sources ← renderSources spec answer context
  let text ← reads (join "\n" (.arr (body ++ missing ++ conflicts ++ sources)))
  return strip text

/-! ### What the check of a layout establishes -/

section Layout

variable {files : String → Except Failure Json} {name : String} {spec : Json}

/-- A layout that has been checked. -/
structure WellFormed (spec : Json) (fields : Fields) (sections : List Fields) : Prop where
  isObj : spec = .obj fields
  listed : fields.get? "sections" = some (.arr (sections.map .obj))
  headed : ∀ s ∈ sections, ∃ heading, s.get? "heading" = some (.str heading)
  styled : ∀ s ∈ sections, ∃ style, s.get? "style" = some (.str style) ∧
    (style = "table" → ∃ columns, s.get? "columns" = some columns ∧ size columns = .ok 3)
  titled : ∀ field ∈ ["missing_heading", "conflicts_heading", "sources_heading"],
    ∃ title, fields.get? field = some (.str title)

@[simp] theorem reads_eq_ok_iff {α : Type} {x : Except AccessError α} {value : α} :
    reads x = .ok value ↔ x = .ok value := by
  cases x <;> simp [reads, Except.mapError]

theorem get_eq_ok_iff {value default result : Json} {key : String} :
    value.get key default = .ok result ↔
    ∃ fields, value = .obj fields ∧ (Dict.get? fields key).getD default = result := by
  cases value <;> simp [Json.get, Json.getter, bind_eq_ok_iff, pure, Except.pure]

/-- A text that was read with another default is there. -/
theorem get?_eq_of_getD {fields : Fields} {key text : String} {default : Json}
    (read : (Dict.get? fields key).getD default = .str text) (other : default ≠ .str text) :
    Dict.get? fields key = some (.str text) := by
  cases h : Dict.get? fields key with
  | none =>
    rw [h] at read
    exact absurd read other
  | some value =>
    rw [h] at read
    exact congrArg some read

theorem styled_of_checkStyle {s : Fields} (checked : checkStyle (.obj s) = .ok ()) :
    ∃ style, s.get? "style" = some (.str style) ∧
      (style = "table" → ∃ columns, s.get? "columns" = some columns ∧ size columns = .ok 3) := by
  simp only [checkStyle, bind_eq_ok_iff, reads_eq_ok_iff, get_eq_ok_iff,
    Json.hashed_eq_ok_iff] at checked
  obtain ⟨value, ⟨fields, same, found⟩, value', ⟨-, rfl⟩, rest⟩ := checked
  cases same
  by_cases known : value'.asStr? ∈ [some "table", some "steps", some "paragraph"]
  swap
  · rw [if_pos known] at rest
    cases rest
  rw [if_neg (not_not.mpr known)] at rest
  obtain ⟨style, text⟩ : ∃ style, value'.asStr? = some style := by
    cases h : value'.asStr? with
    | none => simp [h] at known
    | some style => exact ⟨style, rfl⟩
  obtain rfl := Json.asStr?_eq_some_iff.mp text
  refine ⟨style, get?_eq_of_getD found (by simp), ?_⟩
  rintro rfl
  rw [if_pos text] at rest
  simp only [bind_eq_ok_iff, reads_eq_ok_iff, get_eq_ok_iff] at rest
  obtain ⟨columns, ⟨fields, same, read⟩, count, counted, three⟩ := rest
  cases same
  split_ifs at three with odd
  obtain rfl := not_not.mp odd
  refine ⟨columns, ?_, counted⟩
  -- Without columns there would be none, and not three.
  cases h : Dict.get? s "columns" with
  | none =>
    rw [h] at read
    cases read
    cases counted
  | some listed =>
    rw [h] at read
    exact congrArg some read

theorem titled_of_checkField {fields : Fields} {field : String}
    (checked : checkField (.obj fields) field = .ok ()) :
    ∃ title, fields.get? field = some (.str title) := by
  simp only [checkField, bind_eq_ok_iff, reads_eq_ok_iff, get_eq_ok_iff] at checked
  obtain ⟨value, ⟨fields', same, found⟩, rest⟩ := checked
  cases same
  split_ifs at rest with blank
  push Not at blank
  obtain ⟨title, text, -⟩ := blank
  obtain rfl := Json.asStr?_eq_some_iff.mp text
  exact ⟨title, get?_eq_of_getD found (by simp)⟩

theorem exists_eq_map {α β : Type} {f : α → β} {bs : List β} (all : ∀ b ∈ bs, ∃ a, b = f a) :
    ∃ as : List α, bs = as.map f := by
  induction bs with
  | nil => exact ⟨[], rfl⟩
  | cons b bs ih =>
    obtain ⟨a, rfl⟩ := all b (.head _)
    obtain ⟨as, rfl⟩ := ih fun b member => all b (.tail _ member)
    exact ⟨a :: as, rfl⟩

/-- Only an array has dictionaries as elements. -/
theorem eq_arr_of_elements {value : Json} {sections : List Fields} (some : sections ≠ [])
    (elements : value.elements = .ok (sections.map .obj)) : value = .arr (sections.map .obj) := by
  obtain ⟨s, rest, rfl⟩ := List.exists_cons_of_ne_nil some
  cases value with
  | arr items =>
    cases elements
    rfl
  | obj fields => cases fields <;> simp [Json.elements] at elements
  | str text => cases h : text.toList <;> simp [Json.elements, Json.characters, h] at elements
  | _ => cases elements

/-- **What the check of a layout establishes.** -/
theorem wellFormed_of_skillSpec (accepted : skillSpec files name = .ok spec) :
    ∃ fields sections, WellFormed spec fields sections := by
  unfold skillSpec at accepted
  by_cases known : name ∈ ["grounded-qa", "comparison", "procedure", "table-analysis",
    "insufficient-evidence"]
  swap
  · rw [if_pos known] at accepted
    cases accepted
  rw [if_neg (not_not.mpr known)] at accepted
  simp only [bind_eq_ok_iff, reads_eq_ok_iff, get_eq_ok_iff] at accepted
  obtain ⟨spec', -, value, ⟨fields, rfl, found⟩, items, elements, headings, read, rest⟩ := accepted
  split_ifs at rest with odd
  · cases rest
  simp only [bind_eq_ok_iff] at rest
  obtain ⟨⟨⟩, styles, ⟨⟩, titles, same⟩ := rest
  cases same
  -- The check refuses headings that are no titles, so each section is an object with a title.
  have titled : ∀ heading ∈ headings, isTitle heading := fun heading member => by
    by_contra untitled
    exact odd (.inr (.inl (List.any_eq_true.mpr ⟨heading, member, by simpa using untitled⟩)))
  have headed : ∀ item ∈ items, ∃ s : Fields, item = .obj s ∧ ∃ heading, s.get? "heading" =
      some (.str heading) := by
    intro item member
    obtain ⟨heading, listed, got⟩ := exists_of_mapM_eq_ok read member
    obtain ⟨s, rfl, default⟩ := get_eq_ok_iff.mp got
    obtain ⟨title, text⟩ : ∃ title, heading.asStr? = some title := by
      have isText := titled heading listed
      cases h : heading.asStr? with
      | none => simp [isTitle, h] at isText
      | some title => exact ⟨title, rfl⟩
    obtain rfl := Json.asStr?_eq_some_iff.mp text
    exact ⟨s, rfl, title, get?_eq_of_getD default (by simp)⟩
  obtain ⟨sections, rfl⟩ := exists_eq_map fun item member =>
    (headed item member).imp fun s found => found.1
  have some : sections ≠ [] := by
    rintro rfl
    have none := List.forall₂_nil_left_iff.mp (mapM_eq_ok_iff.mp read)
    exact odd (.inl none)
  refine ⟨fields, sections, rfl, ?_, fun s member => ?_, fun s member => ?_, fun field member => ?_⟩
  · rw [eq_arr_of_elements some elements] at found
    cases h : Dict.get? fields "sections" with
    | none =>
      rw [h] at found
      exact absurd (List.map_eq_nil_iff.mp (Json.arr.inj found).symm) some
    | some listed =>
      rw [h] at found
      exact congrArg Option.some found
  · obtain ⟨s', same, heading⟩ := headed _ (List.mem_map_of_mem member)
    cases same
    exact heading
  · exact styled_of_checkStyle (forM_eq_ok_iff.mp styles _ (List.mem_map_of_mem member))
  · exact titled_of_checkField (forM_eq_ok_iff.mp titles field member)

end Layout

/-! ### What the check of an answer establishes -/

section Valid

variable {digest : String → String} {shown : List Json → String}
  {files : String → Except Failure Json}
  {answer : AnswerPayload} {context : AnswerContext} {requestedFormat : String} {spec : Json}

/-- A citation that can be relied on. -/
def Resolves (digest : String → String) (context : AnswerContext) (reference : String) : Prop :=
  ∃ e, context.evidence.get? reference = some e ∧ digest e.quote = e.contentHash ∧
    e.metadata.Applies context.entity context.asOf context.domain

theorem resolves_of_citationErrors {reference : String}
    (none : citationErrors digest context reference = []) :
    Resolves digest context reference := by
  unfold citationErrors at none
  split at none
  · cases none
  · rename_i e found
    split_ifs at none with changed outside
    exact ⟨e, found, not_not.mp changed, outside⟩

theorem eq_nil_of_eraseDups {errors : List String} (none : errors.eraseDups = []) :
    errors = [] := by
  cases errors with
  | nil => rfl
  | cons e errors => simp [List.eraseDups_cons] at none

/-- **What the check of an answer establishes**: the headings of the layout, in their order, and
citations that can be relied on. -/
theorem valid_of_validateAnswer {fields : Fields} {sections : List Fields}
    (accepted : skillSpec files answer.skill.name = .ok spec)
    (wellFormed : WellFormed spec fields sections)
    (validated : validateAnswer digest shown files answer context requestedFormat = .ok []) :
    answer.sections.length = sections.length ∧ ∀ ref ∈ answer.citedIds,
      Resolves digest context ref := by
  obtain ⟨rfl, listed, -, -, -⟩ := wellFormed
  simp only [validateAnswer, bind_eq_ok_iff, reads_eq_ok_iff] at validated
  obtain ⟨spec', again, value, found, items, elements, expected, headings, none⟩ := validated
  cases accepted.symm.trans again
  have value_eq : value = .arr (sections.map .obj) := by
    simpa [Json.item, listed, eq_comm] using found
  subst value_eq
  cases elements
  have errors := eq_nil_of_eraseDups (Except.ok.inj none)
  simp only [answerErrors, List.append_eq_nil_iff, complaint] at errors
  obtain ⟨⟨⟨⟨⟨⟨⟨⟨-, -⟩, -⟩, order⟩, -⟩, -⟩, -⟩, -⟩, citations⟩ := errors
  refine ⟨?_, fun ref member =>
    resolves_of_citationErrors (List.flatMap_eq_nil_iff.mp citations ref member)⟩
  -- The complaint about the order is the one that compares the headings.
  have same : expected.map Json.asStr? = answer.sections.map fun s => some s.heading := by
    by_contra differ
    simp [differ] at order
  have lengths := congrArg List.length same
  rw [List.length_map, List.length_map] at lengths
  rw [← lengths, ← (mapM_eq_ok_iff.mp headings).length_eq, List.length_map]

end Valid

/-! ### When lines are texts -/

section Texts

variable {spec : Json} {answer : AnswerPayload} {context : AnswerContext}

/-- The computation ends with lines that are all texts. -/
def Texts (x : Except Failure (List Json)) : Prop := ∃ lines : List String, x = .ok (lines.map .str)

theorem mapM_asStr_iff {items : List Json} :
    (∃ texts, items.mapM (fun item => item.asStr?.elim (Except.error AccessError.typeError) .ok) =
      .ok texts) ↔
      ∃ texts : List String, items = texts.map .str := by
  rw [exists_mapM_eq_ok_iff]
  constructor
  · intro each
    refine exists_eq_map fun item member => ?_
    obtain ⟨text, found⟩ := each item member
    cases h : item.asStr? with
    | none =>
      rw [h] at found
      cases found
    | some text => exact ⟨text, Json.asStr?_eq_some_iff.mp h⟩
  · rintro ⟨texts, rfl⟩ item member
    obtain ⟨text, -, rfl⟩ := List.mem_map.mp member
    exact ⟨text, rfl⟩

/-- Lines can be joined if they are all texts. -/
theorem exists_join_iff (separator : String) {items : List Json} :
    (∃ text, join separator (.arr items) = .ok text) ↔
      ∃ texts : List String, items = texts.map .str := by
  rw [← mapM_asStr_iff]
  simp only [join, Json.elements, bind_eq_ok_iff]
  constructor
  · rintro ⟨_, _, same, texts, found, -⟩
    cases same
    exact ⟨texts, found⟩
  · rintro ⟨texts, found⟩
    exact ⟨_, _, rfl, texts, found, rfl⟩

theorem join_map_str (separator : String) (texts : List String) :
    join separator (.arr (texts.map .str)) = .ok (separator.intercalate texts) := by
  have read : (texts.map Json.str).mapM
      (fun item => item.asStr?.elim (Except.error AccessError.typeError) .ok) = .ok texts := by
    rw [mapM_eq_ok_iff, List.forall₂_map_left_iff]
    exact List.forall₂_same.mpr fun text _ => rfl
  simp only [join, Json.elements, ok_bind, read]
  rfl

theorem append_eq_map_str_iff {xs ys : List Json} :
    (∃ texts : List String, xs ++ ys = texts.map .str) ↔
    (∃ texts : List String, xs = texts.map .str) ∧ ∃ texts : List String, ys = texts.map .str := by
  constructor
  · rintro ⟨texts, same⟩
    obtain ⟨first, second, rfl, rfl, rfl⟩ := List.append_eq_map_iff.mp same
    exact ⟨⟨first, rfl⟩, second, rfl⟩
  · rintro ⟨⟨first, rfl⟩, second, rfl⟩
    exact ⟨first ++ second, List.map_append.symm⟩

/-- Sections are rendered to texts if each of them is, and there are as many as the layout has. -/
theorem texts_renderSections_iff {sections : List Section} {sectionSpecs : List Json} :
    Texts (renderSections spec sections sectionSpecs) ↔ sections.length = sectionSpecs.length ∧
      ∀ pair ∈ sections.zip sectionSpecs, Texts (renderSection spec pair.1 pair.2) := by
  induction sections generalizing sectionSpecs with
  | nil =>
    cases sectionSpecs with
    | nil => exact iff_of_true ⟨[], rfl⟩ ⟨rfl, fun pair member => by cases member⟩
    | cons s rest =>
      exact iff_of_false (fun ⟨lines, failed⟩ => by cases failed) fun same => by cases same.1
  | cons section_ sections ih =>
    cases sectionSpecs with
    | nil => exact iff_of_false (fun ⟨lines, failed⟩ => by cases failed) fun same => by cases same.1
    | cons s rest =>
      rw [List.zip_cons_cons, List.forall_mem_cons, List.length_cons, List.length_cons,
        Nat.add_right_cancel_iff, and_left_comm, ← ih]
      simp only [Texts, renderSections, bind_eq_ok_iff]
      constructor
      · rintro ⟨lines, first, one, later, all, same⟩
        obtain ⟨first', later', rfl, rfl, rfl⟩ := List.append_eq_map_iff.mp (Except.ok.inj same)
        exact ⟨⟨first', one⟩, later', all⟩
      · rintro ⟨⟨first, one⟩, later, all⟩
        exact ⟨first ++ later, _, one, _, all, by rw [List.map_append]; rfl⟩

/-- The columns of a table are texts, as far as they are listed one by one. -/
def ColumnsAreTexts (s : Fields) : Prop :=
  ∀ columns, s.get? "columns" = some (.arr columns) → ∀ column ∈ columns, ∃ text, column = .str text

/-- What stands for an empty section is a text. -/
def EmptyIsText (fields : Fields) : Prop :=
  ∀ value, fields.get? "empty_section" = some value → ∃ text, value = .str text

theorem tableHead_iff {s : Fields} {columns : Json} (listed : s.get? "columns" = some columns)
    (three : size columns = .ok 3) :
    (∃ lines, tableHead (.obj s) = .ok lines) ↔ ColumnsAreTexts s := by
  have got : (Json.obj s).get "columns" (.arr [.str "항목", .str "내용", .str "근거"]) = .ok columns :=
    get_eq_ok_iff.mpr ⟨s, rfl, by rw [listed]; rfl⟩
  have joined : (∃ lines, tableHead (.obj s) = .ok lines) ↔
      ∃ text, join " | " columns = .ok text := by
    simp only [tableHead, bind_eq_ok_iff, reads_eq_ok_iff, got]
    constructor
    · rintro ⟨_, _, same, text, found, -⟩
      cases same
      exact ⟨text, found⟩
    · rintro ⟨text, found⟩
      exact ⟨_, _, rfl, text, found, rfl⟩
  -- The keys of a dictionary and the characters of a text are texts.
  have texts : ∀ (value : Json) (items : List String), value.elements = .ok (items.map .str) →
      ∃ text, join " | " value = .ok text := by
    intro value items elements
    have same : join " | " value = join " | " (.arr (items.map .str)) := by
      unfold join
      rw [elements]
      rfl
    rw [same]
    exact (exists_join_iff " | ").mpr ⟨items, rfl⟩
  rw [joined, ColumnsAreTexts, listed]
  cases columns with
  | arr items =>
    rw [exists_join_iff]
    constructor
    · rintro ⟨texts, rfl⟩ columns same column member
      cases same
      obtain ⟨text, -, rfl⟩ := List.mem_map.mp member
      exact ⟨text, rfl⟩
    · exact fun each => exists_eq_map (each items rfl)
  | obj fields =>
    refine iff_of_true (texts _ (fields.map Prod.fst) ?_) fun columns same => by cases same
    rw [Json.elements, List.map_map]
    rfl
  | str text =>
    refine iff_of_true (texts _ (text.toList.map fun c => String.ofList [c]) ?_)
      fun columns same => by cases same
    rw [Json.elements, Json.characters, List.map_map]
    rfl
  | _ => cases three

/-- A section is rendered to texts if its columns are texts and what stands for it is one. -/
theorem texts_renderSection_iff {fields s : Fields} {section_ : Section} {style : String}
    (styled : s.get? "style" = some (.str style))
    (columns : style = "table" → ∃ columns, s.get? "columns" = some columns ∧ size columns =
      .ok 3) :
    Texts (renderSection (.obj fields) section_ (.obj s)) ↔
      (style = "table" ∧ section_.items ≠ [] → ColumnsAreTexts s) ∧
        (section_.items = [] → EmptyIsText fields) := by
  have got : (Json.obj s).item "style" = .ok (.str style) := by simp [Json.item, styled]
  have table : (Json.str style).asStr? = some "table" ↔ style = "table" := Option.some_inj
  have head : (∃ lines, sectionHead (.str style) (.obj s) section_.items = .ok lines) ↔
      (style = "table" ∧ section_.items ≠ [] → ColumnsAreTexts s) := by
    simp only [sectionHead, table]
    split_ifs with shown
    · obtain ⟨value, listed, three⟩ := columns shown.1
      rw [tableHead_iff listed three]
      exact ⟨fun texts _ => texts, fun texts => texts shown⟩
    · exact iff_of_true ⟨[], rfl⟩ fun other => absurd other shown
  have empty : (∃ lines : List String, emptyLines (.obj fields) section_.items =
    .ok (lines.map .str)) ↔
      (section_.items = [] → EmptyIsText fields) := by
    by_cases none : section_.items = []
    · have value : emptyLines (.obj fields) section_.items =
          .ok [(fields.get? "empty_section").getD (.str "확인된 근거 없음")] := by
        rw [emptyLines, if_pos none]
        rfl
      rw [value, EmptyIsText, forall_prop_of_true none]
      cases h : fields.get? "empty_section" with
      | none => exact iff_of_true ⟨["확인된 근거 없음"], rfl⟩ fun value found => by cases found
      | some value =>
        constructor
        · rintro ⟨lines, same⟩ _ found
          cases found
          obtain ⟨text, -, is⟩ := List.map_eq_singleton_iff.mp (Except.ok.inj same).symm
          exact ⟨text, is.symm⟩
        · intro each
          obtain ⟨text, rfl⟩ := each value rfl
          exact ⟨[text], rfl⟩
    · rw [emptyLines, if_neg none]
      exact iff_of_true ⟨[], rfl⟩ fun empty => absurd empty none
  rw [← head, ← empty]
  -- The lines of a section are texts if those of its parts are.
  simp only [Texts, renderSection, bind_eq_ok_iff, reads_eq_ok_iff, got]
  constructor
  · rintro ⟨lines, _, same, above, first, value, last, all⟩
    cases same
    have split := append_eq_map_str_iff.mp ⟨lines, Except.ok.inj all⟩
    obtain ⟨texts, rfl⟩ := (append_eq_map_str_iff.mp split.1).2
    exact ⟨⟨above, first⟩, texts, last⟩
  · rintro ⟨⟨above, first⟩, texts, last⟩
    obtain ⟨lines, all⟩ := append_eq_map_str_iff.mpr
      ⟨append_eq_map_str_iff.mpr ⟨⟨_, rfl⟩, texts, rfl⟩, [""], rfl⟩
    exact ⟨lines, _, rfl, above, first, _, last, congrArg _ all⟩

end Texts

/-! ### When validated answers render -/

/-- The sections of a layout. -/
def sectionsOf (spec : Json) : List Json :=
  match spec.item "sections" with
  | .ok (.arr items) => items
  | _ => []

/-- What the checks leave out: the columns of a table that is shown are texts, and so is what stands
for an empty section, if there is one. -/
def Renderable (spec : Json) (answer : AnswerPayload) : Prop :=
  (∀ (section_ : Section) (s : Fields), (section_, Json.obj s) ∈ answer.sections.zip
    (sectionsOf spec) →
    s.get? "style" = some (.str "table") ∧ section_.items ≠ [] → ColumnsAreTexts s) ∧
  ((∃ section_ ∈ answer.sections, section_.items = []) → ∀ fields, spec = .obj fields →
    EmptyIsText fields)

/-- The lines in front of the sources: the sections, and what is missing or in conflict. -/
def bodyLines (spec : Json) (answer : AnswerPayload) : Except Failure (List Json) := do
  let sections ← renderSections spec answer.sections (sectionsOf spec)
  let missing ← renderNotes spec "missing_heading" answer.missing
  let conflicts ← renderNotes spec "conflicts_heading" answer.conflicts
  return sections ++ missing ++ conflicts

/-- The cited ids, each of them once, with the lines of their evidence. -/
structure CitesOnce (answer : AnswerPayload) (context : AnswerContext)
    (refs lines : List String) : Prop where
  once : refs.Nodup
  cited : ∀ ref, ref ∈ refs ↔ ref ∈ answer.citedIds
  lined : List.Forall₂
    (fun ref line => ∃ e, context.evidence.get? ref = some e ∧ line = sourceLine ref e) refs lines

/-- The section of the sources. -/
def sourcesSection (title : String) (lines : List String) : String :=
  "\n".intercalate (["## " ++ title, ""] ++ lines)

/-- The text ends with the section of the sources, and that section lists the cited ids, each of
them once. If nothing is cited, there is no such section. What is in front of it is shown as the
model wrote it. -/
def EndsWithSources (spec : Json) (answer : AnswerPayload) (context : AnswerContext)
    (text : String) : Prop :=
  ∃ (title : String) (refs lines body : List String),
    spec.item "sources_heading" = .ok (.str title) ∧ CitesOnce answer context refs lines ∧
    bodyLines spec answer = .ok (body.map .str) ∧
    text = if refs = [] then strip ("\n".intercalate body)
      else "\n".intercalate body ++ "\n" ++ sourcesSection title lines

/-- What is wanted of a validated answer: it is rendered to a text that ends with the sources that
are cited, and its citations can be relied on. -/
structure RenderLaw (digest : String → String) (files : String → Except Failure Json) (spec : Json)
    (answer : AnswerPayload) (context : AnswerContext) : Prop where
  renders : ∃ text, renderAnswer files answer context = .ok text ∧
    EndsWithSources spec answer context text
  resolves : ∀ ref ∈ answer.citedIds, Resolves digest context ref

section Render

variable {digest : String → String} {shown : List Json → String}
  {files : String → Except Failure Json}
  {answer : AnswerPayload} {context : AnswerContext} {requestedFormat : String} {spec : Json}
  {fields : Fields} {sections : List Fields}

theorem headingLine_ok {field title : String} (listed : fields.get? field = some (.str title)) :
    headingLine (.obj fields) field = .ok ("## " ++ title) := by
  simp only [headingLine, Json.item, listed]
  rfl

theorem texts_renderNotes {field title : String} (listed : fields.get? field = some (.str title))
    (values : List String) : Texts (renderNotes (.obj fields) field values) := by
  unfold renderNotes
  split_ifs with none
  · exact ⟨[], rfl⟩
  · rw [headingLine_ok listed]
    exact ⟨_, rfl⟩

theorem sectionsOf_eq (wellFormed : WellFormed spec fields sections) :
    spec.item "sections" = .ok (.arr (sections.map .obj)) ∧
      sectionsOf spec = sections.map .obj := by
  have listed : spec.item "sections" = .ok (.arr (sections.map .obj)) := by
    rw [wellFormed.isObj]
    simp [Json.item, wellFormed.listed]
  exact ⟨listed, by rw [sectionsOf, listed]⟩

/-- The sources of an answer whose citations can be relied on. -/
theorem renderSources_of_resolves {title : String}
    (listed : fields.get? "sources_heading" = some (.str title))
    (resolves : ∀ ref ∈ answer.citedIds, Resolves digest context ref) :
    ∃ refs lines, CitesOnce answer context refs lines ∧
      renderSources (.obj fields) answer context =
        .ok ((if refs = [] then [] else ["## " ++ title, ""] ++ lines).map .str) := by
  have cited : ∀ ref, ref ∈ answer.citedIds.toFinset.sort ↔ ref ∈ answer.citedIds :=
    fun ref => by simp
  -- Each cited name is held, so no look-up raises `KeyError`.
  have found : ∀ ref ∈ answer.citedIds.toFinset.sort, ∃ line : String, (do
      let e ← reads ((context.evidence.get? ref).elim (.error .keyError) .ok)
      return sourceLine ref e : Except Failure String) = .ok line := by
    intro ref member
    obtain ⟨e, held, -⟩ := resolves ref ((cited ref).mp member)
    rw [held]
    exact ⟨_, rfl⟩
  obtain ⟨lines, ok⟩ := exists_mapM_eq_ok_iff.mpr found
  refine ⟨_, lines, ⟨Finset.sort_nodup _ _, cited, ?_⟩, ?_⟩
  · refine (mapM_eq_ok_iff.mp ok).imp fun ref line read => ?_
    cases h : context.evidence.get? ref with
    | none =>
      rw [h] at read
      cases read
    | some e =>
      rw [h] at read
      exact ⟨e, rfl, (Except.ok.inj read).symm⟩
  · unfold renderSources
    dsimp only
    split_ifs with none
    · rfl
    · rw [headingLine_ok listed, ok]
      rfl

/-- The lines in front of the sources are texts if those of the sections are. -/
theorem texts_bodyLines_iff (wellFormed : WellFormed spec fields sections) :
    Texts (bodyLines spec answer) ↔
      Texts (renderSections spec answer.sections (sections.map .obj)) := by
  obtain ⟨missingTitle, missing⟩ := wellFormed.titled "missing_heading" (by simp)
  obtain ⟨conflictsTitle, conflicts⟩ := wellFormed.titled "conflicts_heading" (by simp)
  obtain ⟨m, missing⟩ := texts_renderNotes missing answer.missing
  obtain ⟨c, conflicts⟩ := texts_renderNotes conflicts answer.conflicts
  rw [← wellFormed.isObj] at missing conflicts
  simp only [Texts, bodyLines, bind_eq_ok_iff, (sectionsOf_eq wellFormed).2, missing, conflicts]
  constructor
  · rintro ⟨lines, body, rendered, _, same, _, same', all⟩
    cases same
    cases same'
    obtain ⟨body', rfl⟩ := (append_eq_map_str_iff.mp
      (append_eq_map_str_iff.mp ⟨lines, Except.ok.inj all⟩).1).1
    exact ⟨body', rendered⟩
  · rintro ⟨body, rendered⟩
    refine ⟨body ++ m ++ c, _, rendered, _, rfl, _, rfl, ?_⟩
    rw [List.map_append, List.map_append]
    rfl

/-- The text of an answer: its lines, joined and stripped. -/
theorem renderAnswer_eq (accepted : skillSpec files answer.skill.name = .ok spec)
    (wellFormed : WellFormed spec fields sections) :
    renderAnswer files answer context = do
      let body ← bodyLines spec answer
      let sources ← renderSources spec answer context
      let text ← reads (join "\n" (.arr (body ++ sources)))
      return strip text := by
  obtain ⟨listed, same⟩ := sectionsOf_eq wellFormed
  have elements : (Json.arr (sections.map .obj)).elements = .ok (sections.map .obj) := rfl
  have read : ∀ {α : Type} (value : α), reads (.ok value) = .ok value := fun value => rfl
  simp only [renderAnswer, bodyLines, accepted, listed, elements, read, same, ok_bind, bind_assoc,
    pure_bind]

/-- A validated answer is rendered if its sections are, as texts. -/
theorem exists_renderAnswer_iff (accepted : skillSpec files answer.skill.name = .ok spec)
    (wellFormed : WellFormed spec fields sections)
    (sources : Texts (renderSources spec answer context)) :
    (∃ text, renderAnswer files answer context = .ok text) ↔
      Texts (renderSections spec answer.sections (sections.map .obj)) := by
  obtain ⟨lines, sources⟩ := sources
  rw [← texts_bodyLines_iff wellFormed, renderAnswer_eq accepted wellFormed]
  simp only [bind_eq_ok_iff, reads_eq_ok_iff, sources]
  constructor
  · rintro ⟨text, body, rendered, _, same, joined, found, -⟩
    cases same
    obtain ⟨texts, all⟩ := (exists_join_iff "\n").mp ⟨joined, found⟩
    obtain ⟨body', rfl⟩ := (append_eq_map_str_iff.mp ⟨texts, all⟩).1
    exact ⟨body', rendered⟩
  · rintro ⟨body, rendered⟩
    obtain ⟨joined, found⟩ := (exists_join_iff "\n").mpr
      (append_eq_map_str_iff.mpr ⟨⟨body, rfl⟩, lines, rfl⟩)
    exact ⟨strip joined, _, rendered, _, rfl, joined, found, rfl⟩

/-- What is in front of the sources begins with the heading of a section. -/
theorem bodyLines_head {section_ : Section} {rest : List Section} {body : List String}
    (sections : answer.sections = section_ :: rest)
    (ok : bodyLines spec answer = .ok (body.map .str)) :
    ∃ below, body = ("## " ++ section_.heading) :: below := by
  simp only [bodyLines, sections, bind_eq_ok_iff] at ok
  obtain ⟨lines, rendered, m, -, c, -, same⟩ := ok
  cases specs : sectionsOf spec with
  | nil =>
    rw [specs] at rendered
    cases rendered
  | cons s specs =>
    simp only [specs, renderSections, renderSection, bind_eq_ok_iff] at rendered
    obtain ⟨first, ⟨style, -, head, -, empty, -, own⟩, later, -, whole⟩ := rendered
    cases own
    cases whole
    have all := (Except.ok.inj same).symm
    simp only [List.map_append, List.map_cons, List.map_nil, List.append_assoc,
      List.cons_append] at all
    obtain ⟨title, below, rfl, is, -⟩ := List.map_eq_cons_iff.mp all
    exact ⟨below, by rw [Json.str.inj is]⟩

theorem sourceLine_ends (ref : String) (e : Evidence) :
    ∃ front, (sourceLine ref e).toList = front ++ ['`'] := by
  unfold sourceLine
  exact ⟨_, by rw [String.toList_append]; rfl⟩

theorem intercalate_append {first second : List String} (some : first ≠ []) (some' : second ≠ []) :
    "\n".intercalate (first ++ second) =
      "\n".intercalate first ++ "\n" ++ "\n".intercalate second := by
  have feed : "\n".toList = ['\n'] := by simp
  rw [← String.toList_inj, String.toList_append, String.toList_append, String.toList_intercalate,
    String.toList_intercalate, String.toList_intercalate, feed, List.map_append]
  have one : first.map String.toList ≠ [] := by simpa using some
  have two : second.map String.toList ≠ [] := by simpa using some'
  have split := joinLines_append one two
  simpa [joinLines] using split

/-- Lines that begin with a heading and end with sources are not stripped. -/
theorem strip_lines {heading title : String} {below refs lines : List String}
    (cites : CitesOnce answer context refs lines) (some : refs ≠ []) :
    strip ("\n".intercalate (("## " ++ heading) :: below ++ (["## " ++ title, ""] ++ lines))) =
      "\n".intercalate (("## " ++ heading) :: below) ++ "\n" ++ sourcesSection title lines := by
  obtain rfl | ⟨init, line, rfl⟩ := List.eq_nil_or_concat' lines
  · exact absurd (List.forall₂_nil_right_iff.mp cites.lined) some
  obtain ⟨ref, -, e, -, rfl⟩ := exists_left_of_forall₂ cites.lined
    (List.mem_append_right _ (.head _))
  obtain ⟨front, ends⟩ := sourceLine_ends ref e
  have lines_eq : ("\n".intercalate (("## " ++ heading) :: below ++
      (["## " ++ title, ""] ++ (init ++ [sourceLine ref e])))).toList =
      joinLines ((("## " ++ heading) :: (below ++ (["## " ++ title, ""] ++ init))).map
        String.toList ++ [front ++ ['`']]) := by
    rw [String.toList_intercalate, joinLines, ← ends]
    simp
  -- The text starts with `#` and ends with a backquote, neither of which is blank.
  rw [← String.toList_inj, toList_strip, trimBoth_eq_self]
  · rw [intercalate_append (List.cons_ne_nil _ _) (by simp)]
    rfl
  · have mark : ("## " ++ heading).toList = '#' :: ("# ".toList ++ heading.toList) := by simp
    obtain ⟨text, begins⟩ := exists_joinLines_cons '#' ("# ".toList ++ heading.toList)
      ((below ++ (["## " ++ title, ""] ++ init)).map String.toList ++ [front ++ ['`']])
    rw [lines_eq, List.map_cons, mark, List.cons_append, begins]
    simp only [List.head?_cons, Option.mem_def, Option.some.injEq, forall_eq']
    decide
  · obtain ⟨text, closes⟩ := exists_joinLines_concat
      ((("## " ++ heading) :: (below ++ (["## " ++ title, ""] ++ init))).map String.toList)
      front '`'
    rw [lines_eq, closes]
    simp only [List.getLast?_concat, Option.mem_def, Option.some.injEq, forall_eq']
    decide

/-- The text of an answer ends with its sources. -/
theorem endsWithSources_of_renderAnswer {text : String}
    (accepted : skillSpec files answer.skill.name = .ok spec)
    (wellFormed : WellFormed spec fields sections)
    (resolves : ∀ ref ∈ answer.citedIds, Resolves digest context ref)
    (rendered : renderAnswer files answer context = .ok text) :
    EndsWithSources spec answer context text := by
  obtain ⟨title, titled⟩ := wellFormed.titled "sources_heading" (by simp)
  obtain ⟨refs, lines, cites, sources⟩ := renderSources_of_resolves titled resolves
  have named : spec.item "sources_heading" = .ok (.str title) := by
    rw [wellFormed.isObj]
    simp [Json.item, titled]
  rw [← wellFormed.isObj] at sources
  rw [renderAnswer_eq accepted wellFormed] at rendered
  simp only [bind_eq_ok_iff, reads_eq_ok_iff, sources] at rendered
  obtain ⟨values, body, _, same, joined, found, final⟩ := rendered
  cases same
  obtain ⟨texts, all⟩ := (exists_join_iff "\n").mp ⟨joined, found⟩
  obtain ⟨above, rfl⟩ := (append_eq_map_str_iff.mp ⟨texts, all⟩).1
  rw [← List.map_append, join_map_str] at found
  cases found
  cases final
  refine ⟨title, refs, lines, above, named, cites, body, ?_⟩
  by_cases none : refs = []
  · rw [if_pos none, if_pos none, List.append_nil]
  · -- Something is cited, so there is a section, and its heading is what the text begins with.
    rw [if_neg none, if_neg none]
    obtain ⟨ref, member⟩ := List.exists_mem_of_ne_nil refs none
    have cited := (cites.cited ref).mp member
    cases listed : answer.sections with
    | nil => simp [AnswerPayload.citedIds, AnswerPayload.statements, listed] at cited
    | cons section_ rest =>
      obtain ⟨below, rfl⟩ := bodyLines_head listed body
      exact strip_lines cites none

theorem exists_mem_zip {α β : Type} {as : List α} {bs : List β} (same : as.length = bs.length)
    {a : α} (member : a ∈ as) : ∃ b, (a, b) ∈ as.zip bs := by
  obtain ⟨i, bound, rfl⟩ := List.getElem_of_mem member
  have inside : i < (as.zip bs).length := by
    rw [List.length_zip, ← same, min_self]
    exact bound
  refine ⟨bs[i], ?_⟩
  rw [← List.getElem_zip (h := inside)]
  exact List.getElem_mem inside

/-- A validated answer is rendered if the columns of its tables and what stands for its empty
sections are texts. -/
theorem renders_iff_renderable (accepted : skillSpec files answer.skill.name = .ok spec)
    (validated : validateAnswer digest shown files answer context requestedFormat = .ok []) :
    (∃ text, renderAnswer files answer context = .ok text) ↔ Renderable spec answer := by
  obtain ⟨fields, sections, wellFormed⟩ := wellFormed_of_skillSpec accepted
  obtain ⟨lengths, resolves⟩ := valid_of_validateAnswer accepted wellFormed validated
  obtain ⟨title, titled⟩ := wellFormed.titled "sources_heading" (by simp)
  have sources : Texts (renderSources spec answer context) := by
    obtain ⟨refs, lines, -, ok⟩ := renderSources_of_resolves titled resolves
    exact ⟨_, wellFormed.isObj ▸ ok⟩
  have listed : sectionsOf spec = sections.map .obj := by
    rw [sectionsOf, wellFormed.isObj]
    simp [Json.item, wellFormed.listed]
  rw [exists_renderAnswer_iff accepted wellFormed sources, texts_renderSections_iff,
    List.length_map, and_iff_right lengths, Renderable, listed]
  -- Section by section, the layout has been checked.
  have each : ∀ pair ∈ answer.sections.zip (sections.map Json.obj), ∃ s : Fields, pair.2 = .obj s ∧
      (Texts (renderSection spec pair.1 pair.2) ↔
        (s.get? "style" = some (.str "table") ∧ pair.1.items ≠ [] → ColumnsAreTexts s) ∧
          (pair.1.items = [] → EmptyIsText fields)) := by
    intro pair member
    obtain ⟨s, inside, is⟩ := List.mem_map.mp (List.of_mem_zip member).2
    obtain ⟨style, styled, columns⟩ := wellFormed.styled s inside
    refine ⟨s, is.symm, ?_⟩
    rw [← is, wellFormed.isObj, texts_renderSection_iff styled columns, styled]
    simp
  constructor
  · intro texts
    constructor
    · intro section_ s member
      obtain ⟨s', same, iff⟩ := each _ member
      cases same
      exact (iff.mp (texts _ member)).1
    · intro unfilled fields' same
      obtain ⟨section_, inside, empty⟩ := unfilled
      cases wellFormed.isObj.symm.trans same
      have sameLength : answer.sections.length = (sections.map Json.obj).length := by
        rw [List.length_map, lengths]
      obtain ⟨other, member⟩ := exists_mem_zip sameLength inside
      obtain ⟨s', same, iff⟩ := each _ member
      exact (iff.mp (texts _ member)).2 empty
  · intro renderable pair member
    obtain ⟨s, same, iff⟩ := each pair member
    refine iff.mpr ⟨renderable.1 pair.1 s (by rwa [← same]), fun empty => ?_⟩
    exact renderable.2 ⟨pair.1, (List.of_mem_zip member).1, empty⟩ fields wellFormed.isObj

end Render

/-- A layout with one table. -/
def tableLayout (columns : Json) : Json :=
  .obj
    [("sections", .arr [.obj [("heading", .str "facts"), ("style", .str "table"),
      ("columns", columns)]]), ("missing_heading", .str "missing"),
      ("conflicts_heading", .str "conflicts"), ("sources_heading", .str "sources")]

/-- An answer with one statement. -/
def oneFact : AnswerPayload where
  skill := .tableAnalysis
  status := .answered
  sections := [⟨"facts", [⟨"", "a fact", ["E-1"], by simp, by simp⟩]⟩]

/-- A turn that has read one piece of evidence. -/
def oneSource : AnswerContext where
  loadedSkills := ["table-analysis"]
  searchCount := 1
  evidence :=
    [("E-1",
      { evidenceId := "E-1", uri := "u", documentId := "d", title := "d", source := "d"
        page := none, slide := none, startLine := 1, endLine := 1
        quote := "a fact", contentHash := "a fact"
        version := "unknown"
        metadata :=
          { docId := "d", title := "d", source := "d", period := by simp, numbered := le_refl 1 }
        positive := Nat.one_pos, ordered := Nat.one_pos, nonblank := by decide })]
  entity := "공통"
  asOf := ⟨2026, 1, 1⟩

theorem accepted_tableLayout (a b c : Json) :
    skillSpec (fun _ => .ok (tableLayout (.arr [a, b, c]))) "table-analysis" =
      .ok (tableLayout (.arr [a, b, c])) := rfl

theorem validated_oneFact (a b c : Json) :
    validateAnswer id (fun _ => "") (fun _ => .ok (tableLayout (.arr [a, b, c])))
      oneFact oneSource =
      .ok [] := rfl

theorem renderable_tableLayout (a b c : String) {answer : AnswerPayload}
    (filled : ∀ section_ ∈ answer.sections, section_.items ≠ []) :
    Renderable (tableLayout (.arr [.str a, .str b, .str c])) answer := by
  refine ⟨?_, fun ⟨section_, member, empty⟩ => absurd empty (filled section_ member)⟩
  rintro section_ s member - columns listed column inside
  cases List.mem_singleton.mp (List.of_mem_zip member).2
  cases listed
  simp only [List.mem_cons, List.not_mem_nil, or_false] at inside
  rcases inside with rfl | rfl | rfl <;> exact ⟨_, rfl⟩

end AgentLabs.Retrieval
