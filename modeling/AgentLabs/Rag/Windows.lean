import AgentLabs.Math.Coalesce
import AgentLabs.Rag.Coordinates
import AgentLabs.Text.Regex

/-!
# Windows around a question

A document that was read is searched for the words of a question. The lines with the most words are
taken with the lines around them, whole tables and the notes below them with it, and windows that
touch are joined. Each window becomes a quotation with its coordinates. A document without any of
the words gives no quotation.

`lower` stands for `str.lower`. Of it is needed that it makes no letters out of white space.

## Main definitions

* `terms`: the words of a text
* `locateWindows`: the windows of a text
* `makeEvidence`: the quotations of a text

## Main results

* `windowLaw`: windows are in the text, apart from each other, and around the best lines
* `makeEvidence_ok`: quotations can always be made
* `QuoteLaw.checkItem`: and they pass the check of the text that they were made of
-/

namespace AgentLabs.Rag

open Math Text

/-! ### Words -/

/-- `[가-힣A-Za-z0-9]`. -/
def isTermStart (c : Char) : Bool := ('가' ≤ c && c ≤ '힣') || c.isAlphanum

/-- `[가-힣A-Za-z0-9_-]`. -/
def isTermChar (c : Char) : Bool := isTermStart c || c = '_' || c = '-'

/-- `[가-힣A-Za-z0-9][가-힣A-Za-z0-9_-]+`. -/
def termPattern : Regex := .seq (.one isTermStart) (.run isTermChar 1 none)

variable (lower : List Char → List Char)

/-- `terms`. -/
def terms (text : List Char) : List (List Char) := (termPattern.findall (lower text)).eraseDups

/-- How many of the words are in a line. -/
def lineScore (words : List (List Char)) (line : List Char) : ℕ :=
  words.countP fun word => decide (word <:+: lower line)

/-! ### Windows -/

/-- Some lines of a text, and the best score of a line among them. -/
structure Window where
  start : ℕ
  stop : ℕ
  score : ℕ
  deriving DecidableEq, Repr

/-- The lines with a word, with their scores. -/
def scoredLines (words : List (List Char)) (lines : List (List Char)) : List (ℕ × ℕ) :=
  (lines.zipIdx.map fun line => (lineScore lower words line.1, line.2)).filter fun s => s.1 ≠ 0

/-- The order of `sorted(..., reverse=True)`. -/
def isBefore (a b : ℕ × ℕ) : Bool := b.1 < a.1 || (a.1 = b.1 && b.2 ≤ a.2)

/-- The line is one of a table. -/
def hasPipe (line : List Char) : Bool := '|' ∈ line

/-- The start of the table that reaches up to a line. -/
def tableStart (lines : List (List Char)) : ℕ → ℕ
  | 0 => 0
  | start + 1 =>
    if hasPipe (lines.getD start []) then tableStart lines start else start + 1

/-- The end of the table that reaches down from a line. -/
def tableStop (lines : List (List Char)) (stop : ℕ) : ℕ :=
  stop + ((lines.drop stop).takeWhile hasPipe).length

/-- A note below a table is neither blank nor a heading. -/
def isNote (line : List Char) : Bool :=
  match line.dropWhile isSpace with
  | [] => false
  | c :: _ => c ≠ '#'

/-- The note at the end of a window, if there is one. -/
def withNote (lines : List (List Char)) (stop : ℕ) : ℕ :=
  if lines[stop]?.any isNote then stop + 1 else stop

/-- The window around a line. -/
def windowAround (radius : ℕ) (lines : List (List Char)) (scored : ℕ × ℕ) : Window :=
  let start := scored.2 - radius
  let stop := min lines.length (scored.2 + radius + 1)
  -- A line of a table brings the whole table and up to two notes below it.
  if hasPipe (lines.getD scored.2 []) then
    { start := tableStart lines start
      stop := withNote lines (withNote lines (tableStop lines stop))
      score := scored.1 }
  else { start, stop, score := scored.1 }

/-- The order of tuples. -/
def Window.le (a b : Window) : Bool :=
  a.start < b.start || (a.start = b.start && (a.stop < b.stop ||
    (a.stop = b.stop && a.score ≤ b.score)))

/-- The next window starts before the one in front of it has ended. -/
def Window.touches (a b : Window) : Bool := b.start ≤ a.stop

/-- A window that reaches as far as both. -/
def Window.join (a b : Window) : Window where
  start := a.start
  stop := max b.stop a.stop
  score := max b.score a.score

/-- The best lines, with the best one in front. -/
def bestLines (words : List (List Char)) (lines : List (List Char)) (maxWindows : ℕ) :
    List (ℕ × ℕ) :=
  ((scoredLines lower words lines).mergeSort isBefore).take maxWindows

/-- `locate_windows`, of the lines of a text. -/
def locateWindows (words : List (List Char)) (lines : List (List Char)) (radius : ℕ := 2)
    (maxWindows : ℕ := 4) : List Window :=
  let windows := (bestLines lower words lines maxWindows).map (windowAround radius lines)
  coalesce Window.touches Window.join (windows.mergeSort Window.le)

/-! ### Quotations -/

/-- What a quotation takes from its document. -/
structure SourceLabel where
  docId : String
  title : String
  source : String
  page : Option ℤ
  version : String

/-- `Evidence(...)`, which refuses a quote that is blank. -/
def evidenceOf? (digest : String → String) (uri text : String) (label : SourceLabel)
    (baseLine : ℕ) (facets : List (String × List String)) (w : Window) : Option Evidence :=
  let quote := String.ofList (lineRange text.toList w.start (w.stop - w.start))
  let identity := uri ++ ":" ++ toString (baseLine + w.start) ++ ":" ++
    toString (baseLine + w.stop) ++ ":" ++ digest text
  if valid : baseLine + w.start + 1 ≤ baseLine + w.stop ∧ strip quote ≠ "" then
    some
      { evidenceId := "E-" ++ String.ofList ((digest identity).toList.take 12)
        uri
        docId := label.docId
        title := label.title
        source := label.source
        page := label.page
        startLine := baseLine + w.start + 1
        endLine := baseLine + w.stop
        quote
        contentSha256 := digest text
        version := label.version
        facets := (facets.filter fun facet => facet.2.any fun word =>
          decide (lower word.toList <:+: lower quote.toList)).map Prod.fst
        score := w.score
        startLine_pos := Nat.le_add_left 1 _
        ordered := valid.1
        quote_solid := valid.2 }
  else none

/-- `make_evidence`. -/
def makeEvidence (digest : String → String) (uri text : String) (label : SourceLabel)
    (query : String) (baseLine : ℕ := 0) (facets : List (String × List String) := []) :
    Option (List Evidence) :=
  (locateWindows lower (terms lower query.toList) (splitLinesKeepEnds text.toList)).mapM
    (evidenceOf? lower digest uri text label baseLine facets)


/-! ### What is wanted of windows -/

/-- The line is in the window. -/
def Window.Has (w : Window) (line : ℕ) : Prop := w.start ≤ line ∧ line < w.stop

/-- What is wanted of windows: they are in the text and apart from each other, the score of each is
that of a line in it, and a line with a word is in one, unless there are as many other lines as are
asked for that come before it, all of them in windows. -/
structure WindowLaw (words : List (List Char)) (lines : List (List Char)) (maxWindows : ℕ)
    (windows : List Window) : Prop where
  inside : ∀ w ∈ windows, w.stop ≤ lines.length
  apart : windows.Pairwise fun a b => a.stop < b.start
  around : ∀ w ∈ windows, ∃ line text, lines[line]? = some text ∧ w.Has line ∧
    lineScore lower words text = w.score ∧ w.score ≠ 0
  covered : ∀ s ∈ scoredLines lower words lines, (∃ w ∈ windows, w.Has s.2) ∨
    ∃ better : List (ℕ × ℕ), better.length = maxWindows ∧ (better.map Prod.snd).Nodup ∧
      s.2 ∉ better.map Prod.snd ∧ better ⊆ scoredLines lower words lines ∧
      (∀ b ∈ better, isBefore b s) ∧ ∀ b ∈ better, ∃ w ∈ windows, w.Has b.2

section Windows

variable {lower} {words lines : List (List Char)} {radius maxWindows : ℕ} {s : ℕ × ℕ} {w : Window}

theorem mem_scoredLines : s ∈ scoredLines lower words lines ↔
    ∃ text, lines[s.2]? = some text ∧ lineScore lower words text = s.1 ∧ s.1 ≠ 0 := by
  obtain ⟨score, line⟩ := s
  simp only [scoredLines, List.mem_filter, List.mem_map, Prod.mk.injEq, Prod.exists,
    decide_eq_true_eq, List.mem_zipIdx_iff_getElem?]
  constructor
  · rintro ⟨⟨text, line', listed, rfl, rfl⟩, some⟩
    exact ⟨text, listed, rfl, some⟩
  · rintro ⟨text, listed, rfl, some⟩
    exact ⟨⟨text, line, listed, rfl, rfl⟩, some⟩

/-- A line has one score. -/
theorem eq_of_line_eq {a b : ℕ × ℕ} (first : a ∈ scoredLines lower words lines)
    (second : b ∈ scoredLines lower words lines) (same : a.2 = b.2) : a = b := by
  obtain ⟨text, found, score, -⟩ := mem_scoredLines.mp first
  obtain ⟨text', found', score', -⟩ := mem_scoredLines.mp second
  rw [same] at found
  obtain rfl := Option.some.inj (found.symm.trans found')
  exact Prod.ext (score.symm.trans score') same

/-- Each line is scored once. -/
theorem nodup_scoredLines : ((scoredLines lower words lines).map Prod.snd).Nodup := by
  have all : ((lines.zipIdx.map fun line => (lineScore lower words line.1, line.2)).map
      Prod.snd).Nodup := by
    rw [List.map_map, show Prod.snd ∘ (fun line : List Char × ℕ =>
      (lineScore lower words line.1, line.2)) = Prod.snd from rfl, List.zipIdx_map_snd]
    exact List.nodup_range'
  exact (List.filter_sublist.map _).nodup all

/-! #### The window around a line -/

theorem tableStart_le (lines : List (List Char)) (start : ℕ) : tableStart lines start ≤ start := by
  induction start with
  | zero => exact le_rfl
  | succ start ih =>
    rw [tableStart]
    split_ifs
    · exact Nat.le_succ_of_le ih
    · exact le_rfl

theorem le_tableStop (lines : List (List Char)) (stop : ℕ) : stop ≤ tableStop lines stop :=
  Nat.le_add_right _ _

theorem tableStop_le {stop : ℕ} (inside : stop ≤ lines.length) :
    tableStop lines stop ≤ lines.length := by
  have short : ((lines.drop stop).takeWhile hasPipe).length ≤ (lines.drop stop).length :=
    (List.takeWhile_prefix hasPipe).length_le
  rw [List.length_drop] at short
  rw [tableStop]
  omega

theorem le_withNote (lines : List (List Char)) (stop : ℕ) : stop ≤ withNote lines stop := by
  unfold withNote
  split_ifs
  · exact Nat.le_succ stop
  · exact le_rfl

theorem withNote_le {stop : ℕ} (inside : stop ≤ lines.length) :
    withNote lines stop ≤ lines.length := by
  unfold withNote
  split_ifs with note
  · cases found : lines[stop]? with
    | none => simp [found] at note
    | some line => exact (List.getElem?_eq_some_iff.mp found).1
  · exact inside

theorem windowAround_law (radius : ℕ) (inside : s.2 < lines.length) :
    (windowAround radius lines s).Has s.2 ∧ (windowAround radius lines s).stop ≤ lines.length ∧
      (windowAround radius lines s).score = s.1 := by
  have stop : min lines.length (s.2 + radius + 1) ≤ lines.length := Nat.min_le_left _ _
  have below : s.2 < min lines.length (s.2 + radius + 1) := by omega
  unfold windowAround Window.Has
  split_ifs
  · have up := tableStart_le lines (s.2 - radius)
    have down := (le_tableStop lines (min lines.length (s.2 + radius + 1))).trans
      ((le_withNote lines _).trans (le_withNote lines _))
    exact ⟨⟨by dsimp only; omega, by dsimp only; omega⟩,
      withNote_le (withNote_le (tableStop_le stop)), rfl⟩
  · exact ⟨⟨Nat.sub_le _ _, below⟩, stop, rfl⟩

/-! #### The best lines -/

theorem isBefore_trans (a b c : ℕ × ℕ) (first : isBefore a b) (second : isBefore b c) :
    isBefore a c := by
  simp only [isBefore, Bool.or_eq_true, decide_eq_true_eq, Bool.and_eq_true] at *
  omega

theorem isBefore_total (a b : ℕ × ℕ) : isBefore a b || isBefore b a := by
  simp only [isBefore, Bool.or_eq_true, decide_eq_true_eq, Bool.and_eq_true]
  omega

theorem mem_scoredLines_of_mem_bestLines (best : s ∈ bestLines lower words lines maxWindows) :
    s ∈ scoredLines lower words lines :=
  List.mem_mergeSort.mp (List.mem_of_mem_take best)

/-- A line that is not among the best comes after all of them, and there are as many as asked
for. -/
theorem nodup_bestLines : ((bestLines lower words lines maxWindows).map Prod.snd).Nodup := by
  have sorted := ((List.mergeSort_perm (scoredLines lower words lines) isBefore).map
    Prod.snd).nodup_iff.mpr nodup_scoredLines
  exact ((List.take_sublist _ _).map Prod.snd).nodup sorted

theorem bestLines_before (scored : s ∈ scoredLines lower words lines)
    (other : s ∉ bestLines lower words lines maxWindows) :
    (bestLines lower words lines maxWindows).length = maxWindows ∧
      ∀ b ∈ bestLines lower words lines maxWindows, isBefore b s := by
  have sorted := List.pairwise_mergeSort isBefore_trans isBefore_total
    (scoredLines lower words lines)
  have scored : s ∈ (scoredLines lower words lines).mergeSort isBefore :=
    List.mem_mergeSort.mpr scored
  rw [← List.take_append_drop maxWindows
    ((scoredLines lower words lines).mergeSort isBefore)] at scored
  rw [← List.take_append_drop maxWindows ((scoredLines lower words lines).mergeSort isBefore),
    List.pairwise_append] at sorted
  have later := (List.mem_append.mp scored).resolve_left other
  refine ⟨?_, fun b best => sorted.2.2 b best s later⟩
  have long := List.length_pos_of_mem later
  rw [List.length_drop] at long
  rw [bestLines, List.length_take]
  omega

/-! #### All windows -/

/-- What is true of each window and stays true when two of them are joined. -/
def Window.Good (lower : List Char → List Char) (words : List (List Char))
    (lines : List (List Char)) (w : Window) : Prop :=
  w.stop ≤ lines.length ∧ ∃ line text, lines[line]? = some text ∧ w.Has line ∧
    lineScore lower words text = w.score ∧ w.score ≠ 0

theorem Window.Good.join {a b : Window} (first : a.Good lower words lines)
    (second : b.Good lower words lines) (sorted : a.start ≤ b.start) :
    (a.join b).Good lower words lines := by
  obtain ⟨inside, line, text, found, has, score, some⟩ := first
  obtain ⟨inside', line', text', found', has', score', some'⟩ := second
  refine ⟨max_le inside' inside, ?_⟩
  unfold Window.Has at *
  -- The better of the two lines is in the window that is joined.
  rcases Nat.le_total b.score a.score with less | more
  · refine ⟨line, text, found, ⟨has.1, lt_max_of_lt_right has.2⟩, ?_, ?_⟩
    · rw [Window.join, score, Nat.max_eq_right less]
    · simp only [Window.join]
      omega
  · refine ⟨line', text', found', ⟨sorted.trans has'.1, lt_max_of_lt_left has'.2⟩, ?_, ?_⟩
    · rw [Window.join, score', Nat.max_eq_left more]
    · simp only [Window.join]
      omega

/-- A window that reaches as far as another on both sides. -/
def Window.Covers (w a : Window) : Prop := w.start ≤ a.start ∧ a.stop ≤ w.stop

theorem Window.le_trans (a b c : Window) (first : a.le b) (second : b.le c) : a.le c := by
  simp only [Window.le, Bool.or_eq_true, decide_eq_true_eq, Bool.and_eq_true] at *
  omega

theorem Window.le_total (a b : Window) : a.le b || b.le a := by
  simp only [Window.le, Bool.or_eq_true, decide_eq_true_eq, Bool.and_eq_true]
  omega

theorem mem_seeds : w ∈ ((bestLines lower words lines maxWindows).map
    (windowAround radius lines)).mergeSort Window.le ↔
    ∃ s ∈ bestLines lower words lines maxWindows, windowAround radius lines s = w := by
  rw [List.mem_mergeSort, List.mem_map]

theorem pairwise_seeds : (((bestLines lower words lines maxWindows).map
    (windowAround radius lines)).mergeSort Window.le).Pairwise fun a b => a.start ≤ b.start := by
  refine (List.pairwise_mergeSort Window.le_trans Window.le_total _).imp fun {a b} before => ?_
  simp only [Window.le, Bool.or_eq_true, decide_eq_true_eq, Bool.and_eq_true] at before
  omega

theorem exists_line_of_best (best : s ∈ bestLines lower words lines maxWindows) :
    ∃ text, lines[s.2]? = some text ∧ lineScore lower words text = s.1 ∧ s.1 ≠ 0 :=
  mem_scoredLines.mp (mem_scoredLines_of_mem_bestLines best)

theorem Window.join_start_le (a b c : Window) (first : a.start ≤ c.start)
    (_ : b.start ≤ c.start) : (a.join b).start ≤ c.start := first

/-- Every window is in the text, around a line with words. -/
theorem good_locateWindows (listed : w ∈ locateWindows lower words lines radius maxWindows) :
    w.Good lower words lines := by
  revert w
  simp only [locateWindows]
  apply coalesce_invariant (R := fun a b : Window => a.start ≤ b.start)
    (P := Window.Good lower words lines) Window.join_start_le pairwise_seeds
  · intro a b before first second _
    exact first.join second before
  · intro w listed
    obtain ⟨s, best, rfl⟩ := mem_seeds.mp listed
    obtain ⟨text, found, score, some⟩ := exists_line_of_best best
    obtain ⟨has, inside, same⟩ := windowAround_law radius (List.getElem?_eq_some_iff.mp found).1
    exact ⟨inside, s.2, text, found, has, score.trans same.symm, same ▸ some⟩

/-- Every line that is among the best is in a window. -/
theorem covered_locateWindows (best : s ∈ bestLines lower words lines maxWindows) :
    ∃ w ∈ locateWindows lower words lines radius maxWindows, w.Has s.2 := by
  obtain ⟨text, found, -⟩ := exists_line_of_best best
  obtain ⟨has, -⟩ := windowAround_law radius (List.getElem?_eq_some_iff.mp found).1
  have whole (a : Window) : a.Covers a := ⟨le_rfl, le_rfl⟩
  have further (a b c : Window) (first : a.Covers b) (second : b.Covers c) : a.Covers c :=
    ⟨first.1.trans second.1, second.2.trans first.2⟩
  have left (a b : Window) : (a.join b).Covers a := ⟨le_rfl, le_max_right _ _⟩
  have right (a b : Window) (before : a.start ≤ b.start) : (a.join b).Covers b :=
    ⟨before, le_max_left _ _⟩
  obtain ⟨w, kept, start, stop⟩ : ∃ w ∈ locateWindows lower words lines radius maxWindows,
      w.Covers (windowAround radius lines s) := by
    simp only [locateWindows]
    exact exists_covers (R := fun a b : Window => a.start ≤ b.start) Window.join_start_le
      pairwise_seeds whole further left right (mem_seeds.mpr ⟨s, best, rfl⟩)
  exact ⟨w, kept, start.trans has.1, has.2.trans_le stop⟩

/-- Every window is apart from those after it. -/
theorem apart_locateWindows :
    (locateWindows lower words lines radius maxWindows).Pairwise fun a b => a.stop < b.start := by
  -- Neighbours are apart, and every window has a line, so all are.
  have chain : (locateWindows lower words lines radius maxWindows).IsChain
      fun a b => a.stop < b.start := by
    refine isChain_coalesce (fun a b apart => ?_) fun a b c apart => apart
    simpa [Window.touches] using apart
  have longer := chain.imp_of_mem_imp (S := fun a b => a.stop < b.start ∧ b.start ≤ b.stop)
    fun a b _ listed before => by
      obtain ⟨-, line, -, -, has, -⟩ := good_locateWindows listed
      exact ⟨before, has.1.trans has.2.le⟩
  have trans : IsTrans Window fun a b => a.stop < b.start ∧ b.start ≤ b.stop :=
    ⟨fun a b c first second => ⟨first.1.trans_le (first.2.trans second.1.le), second.2⟩⟩
  exact (List.isChain_iff_pairwise.mp longer).imp And.left

/-- **The windows of a text** are as wanted. -/
theorem windowLaw (lower : List Char → List Char) (words lines : List (List Char))
    (radius maxWindows : ℕ) : WindowLaw lower words lines maxWindows
      (locateWindows lower words lines radius maxWindows) := by
  refine ⟨fun w listed => (good_locateWindows listed).1, apart_locateWindows,
    fun w listed => (good_locateWindows listed).2, fun s listed => ?_⟩
  by_cases best : s ∈ bestLines lower words lines maxWindows
  · exact .inl (covered_locateWindows best)
  · obtain ⟨many, before⟩ := bestLines_before listed best
    refine .inr ⟨_, many, nodup_bestLines, fun own => ?_,
      fun b => mem_scoredLines_of_mem_bestLines, before, fun b => covered_locateWindows⟩
    obtain ⟨b, better, same⟩ := List.mem_map.mp own
    exact best (eq_of_line_eq (mem_scoredLines_of_mem_bestLines better) listed same ▸ better)

end Windows

/-! ### What is wanted of quotations -/

/-- `str.lower` makes no letters out of white space. -/
def KeepsSpaces (lower : List Char → List Char) : Prop :=
  ∀ text, (∀ c ∈ text, isSpace c) → ∀ c ∈ lower text, isSpace c

/-- White space is in lower case. -/
theorem keepsSpaces_toLower : KeepsSpaces (List.map Char.toLower) := by
  intro text blank c member
  obtain ⟨own, listed, rfl⟩ := List.mem_map.mp member
  have space := blank own listed
  have same : own.toLower = own := by
    have small : ¬ (65 ≤ own.toNat ∧ own.toNat ≤ 90) := by
      simp only [isSpace, Bool.or_eq_true, Bool.and_eq_true, decide_eq_true_eq,
        beq_iff_eq] at space
      omega
    unfold Char.toLower
    rw [dif_neg]
    exact small
  rwa [same]

/-- What is wanted of a quotation of a text that begins after some lines of its document: it is made
of whole lines of the text, has their numbers in the document, and a word of the question is in one
of them. -/
structure QuoteLaw (lower : List Char → List Char) (digest : String → String) (uri text : String)
    (label : SourceLabel) (query : String) (baseLine : ℕ) (e : Evidence) : Prop where
  uri : e.uri = uri
  docId : e.docId = label.docId
  source : e.source = label.source
  version : e.version = label.version
  hash : e.contentSha256 = digest text
  start_le : baseLine + 1 ≤ e.startLine
  end_le : e.endLine ≤ baseLine + (splitLinesKeepEnds text.toList).length
  quote : e.quote.toList =
    lineRange text.toList (e.startLine - 1 - baseLine) (e.endLine - (e.startLine - 1))
  relevant : ∃ line ∈ splitLinesKeepEnds e.quote.toList, ∃ word ∈ terms lower query.toList,
    word <:+: lower line

section Quotations

variable {lower : List Char → List Char} {digest : String → String} {uri text query : String}
  {label : SourceLabel} {baseLine : ℕ} {facets : List (String × List String)} {w : Window}
  {word : List Char} {e : Evidence} {items : List Evidence}

theorem isSpace_of_isTermStart {c : Char} (start : isTermStart c) : isSpace c = false := by
  have letter : (48 ≤ c.toNat ∧ c.toNat ≤ 122) ∨ 0xAC00 ≤ c.toNat := by
    simp only [isTermStart, Bool.or_eq_true, Bool.and_eq_true, decide_eq_true_eq] at start
    rcases start with ⟨hangul, -⟩ | ascii
    · exact .inr hangul
    · left
      unfold Char.isAlphanum Char.isAlpha Char.isUpper Char.isLower Char.isDigit at ascii
      simp only [Bool.or_eq_true, Bool.and_eq_true, decide_eq_true_eq,
        UInt32.le_iff_toNat_le] at ascii
      change (65 ≤ c.toNat ∧ c.toNat ≤ 90 ∨ 97 ≤ c.toNat ∧ c.toNat ≤ 122) ∨
        48 ≤ c.toNat ∧ c.toNat ≤ 57 at ascii
      omega
  simp only [isSpace, Bool.or_eq_false_iff, Bool.and_eq_false_iff, decide_eq_false_iff_not,
    beq_eq_false_iff_ne]
  omega

/-- A word has a character other than white space. -/
theorem exists_solid_of_mem_terms (listed : word ∈ terms lower query.toList) :
    ∃ c ∈ word, isSpace c = false := by
  obtain ⟨⟨i, j⟩, found, rfl⟩ := List.mem_map.mp (List.mem_eraseDups.mp listed)
  obtain ⟨before, m, after, whole, ⟨a, b, rfl, ⟨letters, long, -⟩, -⟩, rfl, rfl⟩ :=
    Regex.exists_of_mem_finditer found
  have here : ((lower query.toList).take (before.length + (a ++ b).length)).drop before.length =
      a ++ b := by
    rw [whole, ← List.length_append, List.take_left, List.drop_left]
  dsimp only
  rw [here]
  obtain ⟨c, rest, rfl⟩ := List.exists_cons_of_ne_nil (List.length_pos_iff.mp long)
  exact ⟨c, List.mem_append_left _ (.head _), isSpace_of_isTermStart (letters c (.head _))⟩

/-- A line with a word has a character other than white space. -/
theorem exists_solid_of_lineScore (keeps : KeepsSpaces lower) {line : List Char}
    (some : lineScore lower (terms lower query.toList) line ≠ 0) :
    (∃ word ∈ terms lower query.toList, word <:+: lower line) ∧ ∃ c ∈ line, isSpace c = false := by
  obtain ⟨word, listed, inside⟩ := List.countP_pos_iff.mp (Nat.pos_of_ne_zero some)
  rw [decide_eq_true_eq] at inside
  refine ⟨⟨word, listed, inside⟩, ?_⟩
  by_contra none
  push Not at none
  obtain ⟨c, member, solid⟩ := exists_solid_of_mem_terms listed
  have space := keeps line (fun c member => eq_true_of_ne_false (none c member)) c
    (inside.subset member)
  rw [solid] at space
  cases space

/-- **A window gives a quotation.** -/
theorem evidenceOf?_law (keeps : KeepsSpaces lower)
    (good : w.Good lower (terms lower query.toList) (splitLinesKeepEnds text.toList)) :
    ∃ e, evidenceOf? lower digest uri text label baseLine facets w = some e ∧
      QuoteLaw lower digest uri text label query baseLine e := by
  obtain ⟨inside, line, chars, found, ⟨start, stop⟩, score, some⟩ := good
  obtain ⟨word, c, member, solid⟩ := exists_solid_of_lineScore keeps (score ▸ some)
  obtain ⟨_, rfl⟩ := List.getElem?_eq_some_iff.mp found
  have lines : splitLinesKeepEnds (lineRange text.toList w.start (w.stop - w.start)) =
      ((splitLinesKeepEnds text.toList).drop w.start).take (w.stop - w.start) :=
    splitLinesKeepEnds_lineRange _ _ _
  have listed : (splitLinesKeepEnds text.toList)[line] ∈
      splitLinesKeepEnds (lineRange text.toList w.start (w.stop - w.start)) := by
    rw [lines]
    refine List.mem_iff_getElem?.mpr ⟨line - w.start, ?_⟩
    rw [List.getElem?_take_of_lt (by omega), List.getElem?_drop, Nat.add_sub_of_le start, found]
  -- The word has a letter, which is in the quotation, so the quotation is not blank.
  have quoted : c ∈ lineRange text.toList w.start (w.stop - w.start) := by
    rw [← flatten_splitLinesKeepEnds (lineRange _ _ _)]
    exact List.mem_flatten.mpr ⟨_, listed, member⟩
  have notBlank : strip (.ofList (lineRange text.toList w.start (w.stop - w.start))) ≠ "" := by
    have := isBlank_of_mem (s := .ofList (lineRange text.toList w.start (w.stop - w.start)))
      (by rwa [String.toList_ofList]) solid
    exact of_decide_eq_false this
  have ordered : baseLine + w.start + 1 ≤ baseLine + w.stop := by omega
  unfold evidenceOf?
  rw [dif_pos ⟨ordered, notBlank⟩]
  refine ⟨_, rfl, rfl, rfl, rfl, rfl, rfl, by dsimp only; omega, by dsimp only; omega, ?_, ?_⟩
  · dsimp only
    rw [String.toList_ofList]
    congr 1 <;> omega
  · dsimp only
    rw [String.toList_ofList]
    exact ⟨_, listed, word⟩

/-- **Quotations can always be made**, and they are as wanted. -/
theorem makeEvidence_ok (keeps : KeepsSpaces lower) (digest : String → String) (uri text : String)
    (label : SourceLabel) (query : String) (baseLine : ℕ) (facets : List (String × List String)) :
    ∃ items, makeEvidence lower digest uri text label query baseLine facets = some items ∧
      ∀ e ∈ items, QuoteLaw lower digest uri text label query baseLine e := by
  have each : ∀ w ∈ locateWindows lower (terms lower query.toList) (splitLinesKeepEnds text.toList),
      ∃ e, evidenceOf? lower digest uri text label baseLine facets w = some e ∧
        QuoteLaw lower digest uri text label query baseLine e := fun w listed =>
    evidenceOf?_law keeps (good_locateWindows listed)
  unfold makeEvidence
  revert each
  induction locateWindows lower (terms lower query.toList) (splitLinesKeepEnds text.toList) with
  | nil => exact fun _ => ⟨[], rfl, fun _ none => by cases none⟩
  | cons w rest ih =>
    intro each
    obtain ⟨⟨e, made, good⟩, others⟩ := List.forall_mem_cons.mp each
    obtain ⟨items, all, quotes⟩ := ih others
    refine ⟨e :: items, ?_, List.forall_mem_cons.mpr ⟨good, quotes⟩⟩
    rw [List.mapM_cons, made, all]
    rfl

/-- **The check passes** what is made of a window that is recorded with its offset. -/
theorem QuoteLaw.checkItem (law : QuoteLaw lower digest uri text label query baseLine e)
    {windows : Windows} (recorded : windows.get? (uri, digest text) = some (text, (baseLine : ℤ))) :
    checkItem digest windows e = .ok () := by
  rw [← law.uri, ← law.hash] at recorded
  have start := law.start_le
  have stop := law.end_le
  have ordered := e.ordered
  refine (checkItem_eq_ok_iff recorded).mpr ⟨⟨⟨by omega, by omega, by omega⟩, ?_⟩, law.hash.symm⟩
  rw [pySlice_of_le (by omega) (by omega) (by omega), law.quote]
  have first : (e.startLine - baseLine - 1 : ℤ).toNat = e.startLine - 1 - baseLine := by omega
  have many : (e.endLine - baseLine - (e.startLine - baseLine - 1) : ℤ).toNat =
      e.endLine - (e.startLine - 1) := by omega
  rw [first, many]
  exact List.infix_rfl

end Quotations

end AgentLabs.Rag
