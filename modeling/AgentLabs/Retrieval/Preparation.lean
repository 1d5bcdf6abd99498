import AgentLabs.Math.Fallible
import AgentLabs.Retrieval.Chunking
import AgentLabs.Retrieval.Evidence

/-!
# Preparing documents

A document is parsed into units, and the text of each unit is cut into chunks. Each chunk is
written to a file of its own, and a record keeps where it is from: the document, the page or
slide, and the lines of the unit.

A line is counted by the newlines before a position. The position after a chunk is one line
further than the last character of the chunk if that character is a newline, and so the last line
that is recorded is one too large then. That is so for every chunk but the last one, because
a chunk ends where a heading line starts.

## Main definitions

* `Preparation.prepareUnit`, `Preparation.prepare`: the records of a unit, and of a document
* `lineAt`, `linesOf`: the line of a character, and the lines of a chunk
* `LineLaw`: the lines that are recorded are those of the chunks

## Main results

* `isGreatest_stopLine_iff`: the last line is right if the chunk does not end in a newline
* `boundedChunks_eq_singleton_iff`: when a unit has one chunk
* `lineLaw_iff`: when the lines that are recorded are those of the chunks
-/

namespace AgentLabs.Retrieval

open Math Text

/-! ### Records -/

/-- `ParsedUnit`. -/
structure ParsedUnit where
  text : String
  method : String
  page : Option ℤ := none
  slide : Option ℤ := none

/-- What the sidecar of a document says of it. -/
structure Managed where
  title : Option String := none
  domain : Option String := none
  entity : Option String := none
  version : Option String := none
  validFrom : Option Date := none
  validUntil : Option (Option Date) := none
  status : Option Status := none
  topics : Option (List String) := none

/-- A document that is prepared. -/
structure Preparation where
  stem : String
  sourceName : String
  sourceHash : String
  entity : String := "공통"
  managed : Managed := {}

/-- A record of the catalog. -/
structure Record where
  path : String
  metadata : Metadata

/-- `text.count("\n")`. -/
def newlines (text : String) : ℕ := text.toList.count '\n'

namespace Preparation

variable (p : Preparation)

/-- The record of a chunk. -/
def record (unitIndex index : ℕ) (unit : ParsedUnit) (chunk : Chunk) : Except Failure Record :=
  let number := fun n => String.ofList (zeroPad 3 (n + 1))
  let filename := "unit-" ++ number unitIndex ++ "-chunk-" ++ number index ++ ".md"
  let hash := String.ofList (p.sourceHash.toList.take 12)
  let validFrom := p.managed.validFrom.getD ⟨1900, 1, 1⟩
  let validUntil := p.managed.validUntil.getD none
  if period : ∀ last ∈ validUntil, validFrom < last then
    .ok
      { path := "outputs/parsed/" ++ p.stem ++ "-" ++ hash ++ "/" ++ filename
        metadata :=
          { docId := p.stem ++ "-" ++ toString (unitIndex + 1) ++ "-" ++ toString (index + 1)
            title := p.managed.title.getD p.stem
            source := p.sourceName
            domain := p.managed.domain.getD "자료"
            entity := p.managed.entity.getD p.entity
            version := p.managed.version.getD "unknown"
            validFrom
            validUntil
            status := p.managed.status.getD .approved
            page := unit.page
            slide := unit.slide
            extractionMethod := unit.method
            sourceSha256 := p.sourceHash
            sourceStartLine := newlines (slice unit.text 0 chunk.start) + 1
            sourceEndLine := some (newlines (slice unit.text 0 chunk.stop) + 1)
            topics := p.managed.topics.getD []
            period
            numbered := Int.le_add_of_nonneg_left (Int.natCast_nonneg _) } }
  else .error (.validation "유효 기간의 종료일은 시작일 이후여야 합니다.")

/-- The records of a unit. -/
def prepareUnit (digest : String → String) (target : ℤ) (unitIndex : ℕ) (unit : ParsedUnit) :
    Except Failure (List Record) :=
  (boundedChunks digest unit.text target).zipIdx.mapM
    fun entry => p.record unitIndex entry.2 unit entry.1

/-- `prepare`, from the units of the document on. -/
def prepare (digest : String → String) (units : List ParsedUnit) :
    Except Failure (List Record) := do
  let records ← units.zipIdx.mapM fun entry => p.prepareUnit digest 3000 entry.2 entry.1
  if records.flatten = [] then
    throw (.file "추출된 텍스트가 없습니다. 스캔 문서는 시각 전사 경로로 확인하세요.")
  return records.flatten

end Preparation

/-! ### Lines -/

/-- The line of the character at a position, lines being ended by newlines. -/
def lineAt (text : String) (i : ℕ) : ℕ := newlines (slice text 0 i) + 1

/-- The lines that contain a character of a chunk. -/
def linesOf (text : String) (c : Chunk) : Set ℕ :=
  {line | ∃ i, c.start ≤ i ∧ i < c.stop ∧ lineAt text i = line}

/-- The lines that are recorded for a chunk are its first and its last one. -/
structure LinesExact (text : String) (c : Chunk) (r : Record) : Prop where
  first : ∃ line : ℕ, r.metadata.sourceStartLine = line ∧ IsLeast (linesOf text c) line
  last : ∃ line : ℕ, r.metadata.sourceEndLine = some (line : ℤ) ∧ IsGreatest (linesOf text c) line

/-- The lines that are recorded are those of the chunks, and the next chunk starts on the line
after the last one of a chunk. -/
structure LineLaw (text : String) (chunks : List Chunk) (records : List Record) : Prop where
  exact : List.Forall₂ (LinesExact text) chunks records
  adjacent : records.IsChain fun r s => ∀ last ∈ r.metadata.sourceEndLine,
    s.metadata.sourceStartLine = last + 1

section Lines

variable {text : String} {c : Chunk} {i j : ℕ}

theorem lineAt_add (text : String) (less : i ≤ j) :
    lineAt text j = lineAt text i + newlines (slice text i j) := by
  rw [lineAt, ← slice_append text (Nat.zero_le i) less, newlines, String.toList_append,
    List.count_append, Nat.add_right_comm]
  rfl

theorem lineAt_mono (text : String) : Monotone (lineAt text) := fun i j less => by
  rw [lineAt_add text less]
  exact Nat.le_add_right _ _

/-- A newline ends its line. -/
theorem lineAt_succ (text : String) (i : ℕ) :
    lineAt text (i + 1) = if text.toList[i]? =
      some '\n' then lineAt text i + 1 else lineAt text i := by
  rw [lineAt_add text (Nat.le_add_right i 1), newlines, slice, String.toList_ofList,
    Nat.add_sub_cancel_left]
  cases h : text.toList[i]? with
  | none => simp [List.drop_eq_nil_of_le (List.getElem?_eq_none_iff.mp h)]
  | some d =>
    obtain ⟨bound, found⟩ := List.getElem?_eq_some_iff.mp h
    rw [List.drop_eq_getElem_cons bound, found]
    by_cases newline : d = '\n' <;> simp [newline]

theorem isLeast_linesOf (nonempty : c.start < c.stop) :
    IsLeast (linesOf text c) (lineAt text c.start) := by
  refine ⟨⟨c.start, le_refl _, nonempty, rfl⟩, ?_⟩
  rintro _ ⟨i, first, -, rfl⟩
  exact lineAt_mono text first

theorem isGreatest_linesOf (nonempty : c.start < c.stop) :
    IsGreatest (linesOf text c) (lineAt text (c.stop - 1)) := by
  refine ⟨⟨c.stop - 1, Nat.le_sub_one_of_lt nonempty, by omega, rfl⟩, ?_⟩
  rintro _ ⟨i, -, last, rfl⟩
  exact lineAt_mono text (Nat.le_sub_one_of_lt last)

/-- The line of the position after a chunk is its last line, if the chunk does not end in a
newline. -/
theorem isGreatest_stopLine_iff (nonempty : c.start < c.stop) :
    IsGreatest (linesOf text c) (lineAt text c.stop) ↔ text.toList[c.stop - 1]? ≠ some '\n' := by
  have next := lineAt_succ text (c.stop - 1)
  rw [Nat.sub_add_cancel (Nat.one_le_of_lt nonempty)] at next
  constructor
  · intro greatest newline
    have same := greatest.unique (isGreatest_linesOf nonempty)
    rw [next, if_pos newline] at same
    omega
  · intro inside
    rw [next, if_neg inside]
    exact isGreatest_linesOf nonempty

end Lines

/-! ### The lines of a unit -/

section Unit

variable {digest : String → String} {p : Preparation} {unit : ParsedUnit} {target : ℤ}
  {unitIndex : ℕ} {records : List Record}

/-- What is recorded is the line of the start and the line of the position after the chunk. -/
def Recorded (text : String) (c : Chunk) (r : Record) : Prop :=
  r.metadata.sourceStartLine = (lineAt text c.start : ℕ) ∧
    r.metadata.sourceEndLine = some ((lineAt text c.stop : ℕ) : ℤ)

theorem recorded_of_record {index : ℕ} {c : Chunk} {r : Record}
    (ok : p.record unitIndex index unit c = .ok r) : Recorded unit.text c r := by
  unfold Preparation.record at ok
  dsimp only at ok
  split_ifs at ok with period
  cases ok
  exact ⟨rfl, rfl⟩

theorem forall₂_recorded (prepared : p.prepareUnit digest target unitIndex unit = .ok records) :
    List.Forall₂ (Recorded unit.text) (boundedChunks digest unit.text target) records := by
  have each := (mapM_eq_ok_iff.mp prepared).imp fun _ _ ok => recorded_of_record ok
  rwa [← List.forall₂_map_left_iff, List.zipIdx_map_fst] at each

/-- The recorded lines of a chunk are right if it does not end in a newline. -/
theorem linesExact_iff {text : String} {c : Chunk} {r : Record} (recorded : Recorded text c r)
    (nonempty : c.start < c.stop) : LinesExact text c r ↔ text.toList[c.stop - 1]? ≠ some '\n' := by
  rw [← isGreatest_stopLine_iff nonempty]
  constructor
  · rintro ⟨-, line, stop, greatest⟩
    rw [recorded.2, Option.some_inj, Int.natCast_inj] at stop
    rwa [stop]
  · intro greatest
    exact ⟨⟨_, recorded.1, isLeast_linesOf nonempty⟩, _, recorded.2, greatest⟩

/-- A text without a chunk is blank. -/
theorem boundedChunks_eq_nil_iff {text : String} :
    boundedChunks digest text target = [] ↔ isBlank text := by
  have tiles := tiles_boundedChunks digest text target
  constructor
  · intro none
    rw [none] at tiles
    have blank := (lead_spec text).2.1
    generalize lead text = start at tiles blank
    cases tiles
    rwa [slice_all] at blank
  · intro blank
    have all : ∀ s : ℕ × ℕ, isBlank (slice text s.1 s.2) :=
      fun s => isBlank_iff.mpr fun c member => by
      rw [slice, String.toList_ofList] at member
      exact isBlank_iff.mp blank c (List.mem_of_mem_drop (List.mem_of_mem_take member))
    have none : (sectionChunks digest text).map Chunk.span = [] := by
      rw [span_sectionChunks]
      exact List.filter_eq_nil_iff.mpr fun s _ => by simp [all s]
    rw [boundedChunks, none]
    rfl

/-- A unit has one chunk if it has one section, or if everything fits into a chunk. -/
theorem span_boundedChunks_eq_singleton_iff {text : String} (solid : isBlank text = false) :
    (boundedChunks digest text target).map Chunk.span = [(lead text, text.length)] ↔
      IsSection text (lead text) text.length ∨ (text.length : ℤ) - lead text ≤ target := by
  have tiles := tiles_sectionChunks digest text
  have some : (sectionChunks digest text).map Chunk.span ≠ [] := fun none => by
    have empty : boundedChunks digest text target = [] := by
      rw [boundedChunks, none]
      rfl
    rw [boundedChunks_eq_nil_iff, solid] at empty
    cases empty
  have smaller : ∀ {a b c : ℕ}, b ≤ c → FitsTarget target a c → FitsTarget target a b := by
    intro a b c less fits
    unfold FitsTarget at *
    omega
  rw [span_boundedChunks, tiles.pack_eq_singleton_iff (FitsTarget target) smaller]
  refine or_congr ⟨fun single => ?_, fun whole => ?_⟩ (and_iff_right some)
  · apply isSection_of_mem digest text (s := (lead text, text.length))
    rw [single]
    exact .head _
  · exact tiles.eq_singleton (mem_sectionChunks digest text whole (le_refl _))

theorem forall₂_linesExact_iff {text : String} {chunks : List Chunk}
    (recorded : List.Forall₂ (Recorded text) chunks records)
    (nonempty : ∀ c ∈ chunks, c.start < c.stop) :
    List.Forall₂ (LinesExact text) chunks records ↔
      ∀ c ∈ chunks, text.toList[c.stop - 1]? ≠ some '\n' := by
  induction recorded with
  | nil => simp
  | @cons c r chunks records first rest ih =>
    rw [List.forall₂_cons, List.forall_mem_cons, linesExact_iff first (nonempty c (.head _)),
      ih fun c member => nonempty c (.tail _ member)]

/-- A chunk that ends before the text does ends in a newline. -/
theorem newline_before_stop {text : String} {c : Chunk}
    (member : c ∈ boundedChunks digest text target)
    (before : c.stop < text.length) : text.toList[c.stop - 1]? = some '\n' := by
  have bounds := (tiles_boundedChunks digest text target).bounds (List.mem_map_of_mem member)
  have positive : 0 < c.stop := (Nat.zero_le _).trans_lt bounds.2.1
  rcases ((boundedChunks_law digest text target).boundaries c member).2 with zero | stop | heading
  · exact absurd zero positive.ne'
  · exact absurd stop before.ne
  · exact heading.1.resolve_left positive.ne'

/-- **The recorded lines** are those of the chunks if the unit is blank, or if it has one chunk and
does not end in a newline. -/
theorem lineLaw_iff (prepared : p.prepareUnit digest target unitIndex unit = .ok records) :
    LineLaw unit.text (boundedChunks digest unit.text target) records ↔
      isBlank unit.text ∨ unit.text.toList.getLast? ≠ some '\n' ∧
        (IsSection unit.text (lead unit.text) unit.text.length ∨
          (unit.text.length : ℤ) - lead unit.text ≤ target) := by
  have recorded := forall₂_recorded prepared
  by_cases blank : isBlank unit.text
  · rw [boundedChunks_eq_nil_iff.mpr blank] at recorded ⊢
    cases recorded
    exact iff_of_true ⟨.nil, .nil⟩ (.inl blank)
  have solid := Bool.eq_false_iff.mpr blank
  have tiles := tiles_boundedChunks digest unit.text target
  have nonempty : ∀ c ∈ boundedChunks digest unit.text target, c.start < c.stop := fun c member =>
    (tiles.bounds (List.mem_map_of_mem member)).2.1
  have last : unit.text.toList.getLast? = unit.text.toList[unit.text.length - 1]? := by
    rw [List.getLast?_eq_getElem?, String.length_toList]
  have single : (boundedChunks digest unit.text target).map Chunk.span =
      [(lead unit.text, unit.text.length)] ↔ _ :=
    span_boundedChunks_eq_singleton_iff solid
  rw [or_iff_right blank, ← single, last]
  constructor
  · intro law
    have inside := (forall₂_linesExact_iff recorded nonempty).mp law.exact
    -- Each chunk ends where the text does, so there is only one.
    have stops : ∀ c ∈ boundedChunks digest unit.text target, c.stop = unit.text.length := by
      intro c member
      have within := (tiles.bounds (List.mem_map_of_mem member)).2.2
      exact le_antisymm within (not_lt.mp fun before =>
        inside c member (newline_before_stop member before))
    have some : (boundedChunks digest unit.text target).map Chunk.span ≠ [] := fun none =>
      blank (boundedChunks_eq_nil_iff.mp (List.map_eq_nil_iff.mp none))
    obtain ⟨s, listed, first, -⟩ := tiles.exists_mem (le_refl _) (tiles.lt_of_ne_nil some)
    obtain ⟨c, member, rfl⟩ := List.mem_map.mp listed
    have start : c.start = lead unit.text := le_antisymm first (tiles.bounds listed).1
    have span : c.span = (lead unit.text, unit.text.length) := Prod.ext start (stops c member)
    refine ⟨?_, tiles.eq_singleton (span ▸ listed)⟩
    rw [← stops c member]
    exact inside c member
  · rintro ⟨inside, single⟩
    obtain ⟨c, only, span⟩ := List.map_eq_singleton_iff.mp single
    rw [only] at recorded nonempty ⊢
    have exact := (forall₂_linesExact_iff recorded nonempty).mpr fun d member => by
      rw [List.mem_singleton.mp member, show c.stop = unit.text.length from congrArg Prod.snd span]
      exact inside
    cases recorded with
    | cons first rest =>
      cases rest
      exact ⟨exact, .singleton _⟩

/-- A text without headings is one chunk, however large it is. -/
theorem boundedChunks_eq_of_noHeading {text : String} (none : headingStarts text = [])
    (solid : isBlank text = false) :
    boundedChunks digest text target = [chunkOf digest text 0 text.length] := by
  have noHeading : ∀ i, ¬ HeadingAt text i := fun i heading => by
    have listed := mem_headingStarts.mpr heading
    rw [none] at listed
    cases listed
  -- Without headings only the two ends of the text are boundaries.
  have ends : ∀ i, Boundary text i ↔ i = 0 ∨ i = text.length := fun i => by
    simp [Boundary, noHeading i]
  have start : lead text = 0 := by
    obtain ⟨boundary, blank, -⟩ := lead_spec text
    refine ((ends _).mp boundary).resolve_right fun whole => ?_
    rw [whole, slice_all, solid] at blank
    cases blank
  have positive : 0 < text.length := by
    refine Nat.pos_of_ne_zero fun empty => ?_
    rw [String.length_eq_zero_iff.mp empty] at solid
    exact absurd solid (by decide)
  have whole : IsSection text (lead text) text.length := by
    rw [start]
    refine ⟨positive, .inl rfl, .inr (.inl rfl), fun i boundary => ?_⟩
    exact ((ends i).mp boundary).imp le_of_eq ge_of_eq
  have single : (boundedChunks digest text target).map Chunk.span = [(lead text, text.length)] :=
    (span_boundedChunks_eq_singleton_iff solid).mpr (.inl whole)
  rw [span_boundedChunks, start] at single
  rw [boundedChunks, single]
  rfl

theorem record_ok (index : ℕ) (c : Chunk)
    (period : ∀ last ∈ p.managed.validUntil.getD none, p.managed.validFrom.getD ⟨1900, 1, 1⟩ <
      last) :
    ∃ r, p.record unitIndex index unit c = .ok r :=
  ⟨_, dif_pos period⟩

/-- A unit is prepared where no sidecar says anything of its document. -/
theorem exists_prepareUnit_ok (unmanaged : p.managed = {}) (target : ℤ) (unit : ParsedUnit) :
    ∃ records, p.prepareUnit digest target unitIndex unit = .ok records :=
  exists_mapM_ok fun entry _ => record_ok entry.2 entry.1 (by simp [unmanaged])

end Unit

/-- A note that no sidecar says anything of. -/
def note : Preparation :=
  { stem := "note", sourceName := "data/note.md", sourceHash := "0123456789abcdef" }

/-- A section below a blank line. -/
def leave : ParsedUnit := ⟨"\n## Leave\nfirst\nsecond", "authored", none, none⟩

theorem lineLaw_iff_leave : ∃ records, note.prepareUnit id 3000 0 leave = .ok records ∧
    LineLaw leave.text (boundedChunks id leave.text 3000) records := by
  obtain ⟨records, prepared⟩ :
      ∃ records, note.prepareUnit id 3000 0 leave = .ok records :=
    exists_prepareUnit_ok rfl 3000 leave
  refine ⟨records, prepared, (lineLaw_iff prepared).mpr (.inr ⟨by decide, .inr ?_⟩)⟩
  have small : ((leave.text.length : ℕ) : ℤ) ≤ 3000 := by decide
  exact (sub_le_self _ (Int.natCast_nonneg _)).trans small

/-- The chunk of a line that is ended is said to reach into a second line. -/
theorem not_lineLaw_endedLine :
    ∃ records, note.prepareUnit id 3000 0 ⟨"a\n", "authored", none, none⟩ = .ok records ∧
      ¬ LineLaw "a\n" (boundedChunks id "a\n" 3000) records := by
  obtain ⟨records, prepared⟩ :
      ∃ records, note.prepareUnit id 3000 0 ⟨"a\n", "authored", none, none⟩ = .ok records :=
    exists_prepareUnit_ok rfl 3000 _
  refine ⟨records, prepared, fun law => ?_⟩
  have recorded := forall₂_recorded prepared
  have single : boundedChunks id "a\n" 3000 = [chunkOf id "a\n" 0 "a\n".length] :=
    boundedChunks_eq_of_noHeading (by decide) (by decide)
  have nonempty : ∀ c ∈ boundedChunks id "a\n" 3000, c.start < c.stop := by
    rw [single, List.forall_mem_singleton]
    show 0 < "a\n".length
    decide
  apply (forall₂_linesExact_iff recorded nonempty).mp law.exact (chunkOf id "a\n" 0 2)
  · rw [single]
    exact .head _
  · decide

end AgentLabs.Retrieval
