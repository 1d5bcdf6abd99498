import AgentLabs.Retrieval.Evidence
import AgentLabs.Text.PipeTables
import Mathlib.Data.Finset.Card

/-!
# Tables of a document

A table of an HWPX document is written as Markdown, a line for each row and one for the rule under
the header. The table tool reads tables back from Markdown. The writer puts a backslash in front of
every pipe of a cell, but the reader splits a row at every pipe. So a table with a pipe in a cell
has rows of different lengths for the reader, and it is refused.

## Main definitions

* `Element`: an element of an XML document
* `paragraph`: the text of a paragraph, or the Markdown of the table in it
* `markdownTables`: the tables of a text
* `RoundTrip`: the tool finds the table of a paragraph, and nothing else

## Main results

* `readRows_rowLines`: the rows of consecutive lines are gathered
* `markdownTables_paragraph`: what the tool makes of the Markdown of a table
* `roundTrip_table_iff`: the tool finds the table if it has a column and no pipe in a cell
-/

namespace AgentLabs.Retrieval

open Text

/-! ### Writing -/

/-- An element of an XML document with the text in front of its children. -/
inductive Element where
  | node (tag : String) (text : Option String) (children : List Element)

namespace Element

def tag : Element → String
  | node tag _ _ => tag

def text : Element → Option String
  | node _ text _ => text

def children : Element → List Element
  | node _ _ children => children

mutual

/-- `node.iter()`: the element and those below it, in the order of the document. -/
def iter : Element → List Element
  | node tag text children => node tag text children :: iterAll children

def iterAll : List Element → List Element
  | [] => []
  | child :: children => child.iter ++ iterAll children

end

/-- `tag.rsplit("}", 1)[-1]`: the tag without its namespace. -/
def localName (e : Element) : String := .ofList (e.tag.toList.rtakeWhile (· ≠ '}'))

/-- The texts of the `t` elements. -/
def textOf (e : Element) : String :=
  String.join ((e.iter.filter fun child => child.localName = "t").map fun child =>
    child.text.getD "")

/-- The table of a paragraph. -/
def table? (e : Element) : Option Element := e.iter.find? fun child => child.localName = "tbl"

/-- The texts of the cells of a table, row by row. -/
def rowTexts (table : Element) : List (List String) :=
  (table.children.filter fun row => row.localName = "tr").map fun row =>
    (row.children.filter fun cell => cell.localName = "tc").map textOf

end Element

/-- The lines of a table. Rows that are too short are filled with empty cells. -/
def tableLines (rows : List (List (List Char))) : List (List Char) :=
  let width := (rows.map List.length).foldl max 0
  let rows := rows.map fun row => row ++ List.replicate (width - row.length) []
  match rows with
  | header :: rest =>
    rowLine header :: rowLine (List.replicate width "---".toList) :: rest.map rowLine
  | [] => []

/-- `paragraph`: the text of a paragraph, or the Markdown of its table. -/
def paragraph (node : Element) : String :=
  match node.table? with
  | none => node.textOf
  | some table =>
    let rows := table.rowTexts.map fun row => row.map fun cell => escapePipes cell.toList
    if rows = [] then node.textOf else .ofList (joinLines (tableLines rows))

/-! ### Reading -/

/-- A data frame. -/
structure Frame where
  columns : List String
  rows : List (List String)
  deriving DecidableEq, Repr

/-- `re.fullmatch(r":?-+:?", c.replace(" ", ""))`. -/
def isRule (cell : List Char) : Bool :=
  let cs := cell.filter (· ≠ ' ')
  let cs := if cs.head? = some ':' then cs.tail else cs
  let cs := if cs.getLast? = some ':' then cs.dropLast else cs
  cs ≠ [] && cs.all (· = '-')

/-- Whether a line belongs to a table. -/
def isRow (line : List Char) : Bool :=
  (trimBoth isSpace line).head? = some '|' && (trimBoth isSpace line).getLast? = some '|'

/-- The table of consecutive rows. -/
def tableOf (current : List (List (List Char))) : Except Failure (List Frame) :=
  match current with
  | header :: rule :: first :: rest =>
    if rule.all isRule then
      if (current.map List.length).toFinset.card ≠ 1 then
        .error (.value "표의 행별 열 수가 다릅니다. 원본을 확인하세요.")
      else .ok [⟨header.map .ofList, (first :: rest).map fun row => row.map .ofList⟩]
    else .ok []
  | _ => .ok []

/-- The tables of the lines, given the rows that have been gathered. -/
def readRows (blocks : List Frame) (current : List (List (List Char))) :
    List (List Char) → Except Failure (List Frame)
  | [] => .ok blocks
  | line :: lines =>
    if isRow line then readRows blocks (current ++ [cellsOf line]) lines
    else if current ≠ [] then do
      let tables ← tableOf current
      readRows (blocks ++ tables) [] lines
    else readRows blocks [] lines

/-- `markdown_tables`. An empty line is read after the last one. -/
def markdownTables (text : String) : Except Failure (List Frame) :=
  readRows [] [] (splitLines text.toList ++ [[]])

/-- The tool finds one table in the Markdown of a paragraph, with this header and these rows. -/
def RoundTrip (node : Element) (header : List String) (rows : List (List String)) : Prop :=
  markdownTables (paragraph node) = .ok [⟨header, rows⟩]

/-! ### Reading what was written -/

section Reading

variable {lines : List (List Char)} {rows : List (List (List Char))}

/-- The rows of consecutive lines are gathered. -/
theorem readRows_append (blocks : List Frame) (current : List (List (List Char)))
    (all : ∀ line ∈ lines, isRow line) (rest : List (List Char)) :
    readRows blocks current (lines ++ rest) =
      readRows blocks (current ++ lines.map cellsOf) rest := by
  induction lines generalizing current with
  | nil => simp
  | cons line lines ih =>
    rw [List.cons_append, readRows, if_pos (all line (.head _)),
      ih _ fun l member => all l (.tail _ member), List.map_cons, List.append_assoc]
    rfl

theorem isRow_rowLine {cells : List (List Char)} (nonempty : cells ≠ []) :
    isRow (rowLine cells) := by
  rw [isRow, (rowLine_ends nonempty).1, (rowLine_ends nonempty).2]
  decide

/-- Lines of rows are read as one table. -/
theorem markdownTables_joinLines (some : rows ≠ []) (nonempty : ∀ row ∈ rows, row ≠ [])
    (inside : ∀ row ∈ rows, ∀ cell ∈ row, ∀ c ∈ cell, isLineBoundary c = false) :
    markdownTables (.ofList (joinLines (rows.map rowLine))) =
      tableOf (rows.map fun row => cellsOf (rowLine row)) := by
  have isRows : ∀ line ∈ rows.map rowLine, isRow line := List.forall_mem_map.mpr fun row member =>
    isRow_rowLine (nonempty row member)
  have split : splitLines (joinLines (rows.map rowLine)) = rows.map rowLine := by
    apply splitLines_joinLines
    · refine List.forall_mem_map.mpr fun row member empty => ?_
      have first := (rowLine_ends (nonempty row member)).1
      rw [empty] at first
      cases first
    · exact List.forall_mem_map.mpr fun row member c =>
        isLineBoundary_of_mem_rowLine (inside row member)
  have gathered : (rows.map rowLine).map cellsOf ≠ [] := by simpa using some
  rw [markdownTables, String.toList_ofList, split, readRows_append [] [] isRows, List.nil_append,
    readRows, if_neg (by decide), if_pos gathered, List.map_map]
  -- The empty line at the end closes the table.
  change tableOf (rows.map fun row => cellsOf (rowLine row)) >>= _ = _
  cases tableOf (rows.map fun row => cellsOf (rowLine row)) with
  | error e => rfl
  | ok tables => rfl

theorem foldl_max_eq {n : ℕ} (rectangular : ∀ row ∈ rows, row.length = n) (some : rows ≠ []) :
    (rows.map List.length).foldl max 0 = n := by
  have start : ∀ m ≤ n, rows ≠ [] → (rows.map List.length).foldl max m = n := by
    clear some
    induction rows with
    | nil => exact fun _ _ some => absurd rfl some
    | cons row rows ih =>
      intro m less _
      rw [List.map_cons, List.foldl_cons, rectangular row (.head _), max_eq_right less]
      cases rows with
      | nil => rfl
      | cons next rows =>
        exact ih (fun r member => rectangular r (.tail _ member)) n (le_refl n)
          (List.cons_ne_nil _ _)
  exact start 0 (Nat.zero_le n) some

/-- Nothing is filled into a table whose rows are of one length. -/
theorem tableLines_eq {header : List (List Char)}
    (rectangular : ∀ row ∈ rows, row.length = header.length) :
    tableLines (header :: rows) =
      (header :: List.replicate header.length "---".toList :: rows).map rowLine := by
  have width := foldl_max_eq (List.forall_mem_cons.mpr ⟨rfl, rectangular⟩)
    (List.cons_ne_nil header rows)
  have filled : ∀ row ∈ header :: rows, row ++ List.replicate (header.length - row.length) [] =
      row := by
    refine List.forall_mem_cons.mpr ⟨?_, fun row member => ?_⟩
    · simp
    · simp [rectangular row member]
  rw [tableLines, width, List.map_congr_left filled, List.map_id']
  rfl

end Reading

/-! ### The round trip -/

section Trip

variable {node table : Element} {header first : List String} {rest : List (List String)}

/-- A cell in one line without blanks around it. -/
def Plain (cell : String) : Prop := strip cell = cell ∧ cell.toList.all isInLine

instance : DecidablePred Plain := fun cell =>
  inferInstanceAs (Decidable (strip cell = cell ∧ cell.toList.all isInLine = true))

/-- The cells of a row as they are written. -/
def escaped (row : List String) : List (List Char) := row.map fun cell => escapePipes cell.toList

theorem escaped_ne_nil {row : List String} (some : row ≠ []) : escaped row ≠ [] := by
  simpa [escaped] using some

theorem length_escaped (row : List String) : (escaped row).length = row.length := List.length_map _

theorem isLineBoundary_of_mem_escaped {row : List String} (plain : ∀ cell ∈ row, Plain cell) :
    ∀ cell ∈ escaped row, ∀ c ∈ cell, isLineBoundary c = false :=
  List.forall_mem_map.mpr fun cell member _ => isLineBoundary_of_mem_escapePipes fun _ =>
    inside_of_all (plain cell member).2

/-- The rule under the header of a table. -/
theorem cellsOf_rule {n : ℕ} (positive : n ≠ 0) :
    cellsOf (rowLine (List.replicate n "---".toList)) = List.replicate n "---".toList := by
  have some : List.replicate n "---".toList ≠ [] := by simpa using positive
  rw [cellsOf_rowLine some, List.map_replicate]
  · rfl
  · intro cell member
    rw [(List.mem_replicate.mp member).2]
    decide

/-- The Markdown of a table. -/
theorem paragraph_eq {rows : List (List String)} (found : node.table? = some table)
    (texts : table.rowTexts = header :: rows)
    (rectangular : ∀ row ∈ rows, row.length = header.length) :
    paragraph node = .ofList (joinLines ((escaped header ::
      List.replicate header.length "---".toList :: rows.map escaped).map rowLine)) := by
  have width : ∀ row ∈ rows.map escaped, row.length = (escaped header).length :=
    List.forall_mem_map.mpr fun row member => by
      rw [length_escaped, length_escaped, rectangular row member]
  rw [paragraph, found]
  dsimp only
  rw [texts, List.map_cons, if_neg (List.cons_ne_nil _ _)]
  rw [← length_escaped header, ← tableLines_eq width]
  rfl

/-- What the tool makes of the Markdown of a table. -/
theorem markdownTables_paragraph {rows : List (List String)} (found : node.table? = some table)
    (texts : table.rowTexts = header :: rows)
    (rectangular : ∀ row ∈ rows, row.length = header.length)
    (plain : ∀ row ∈ header :: rows, ∀ cell ∈ row, Plain cell) (column : header ≠ []) :
    markdownTables (paragraph node) =
      tableOf (cellsOf (rowLine (escaped header)) :: List.replicate header.length "---".toList ::
        rows.map fun row => cellsOf (rowLine (escaped row))) := by
  have positive : header.length ≠ 0 := List.length_eq_zero_iff.not.mpr column
  rw [paragraph_eq found texts rectangular, markdownTables_joinLines (List.cons_ne_nil _ _)]
  · rw [List.map_cons, List.map_cons, cellsOf_rule positive, List.map_map]
    rfl
  -- No row is empty, as each is as long as the header.
  · have some : ∀ row : List String, row.length = header.length → escaped row ≠ [] := by
      intro row same empty
      rw [escaped, List.map_eq_nil_iff] at empty
      rw [empty] at same
      exact positive same.symm
    refine List.forall_mem_cons.mpr ⟨some header rfl, List.forall_mem_cons.mpr ⟨?_, ?_⟩⟩
    · simpa using column
    · exact List.forall_mem_map.mpr fun row member => some row (rectangular row member)
  · refine List.forall_mem_cons.mpr ⟨?_, List.forall_mem_cons.mpr ⟨?_, ?_⟩⟩
    · exact isLineBoundary_of_mem_escaped (plain header (.head _))
    · intro cell member
      rw [(List.mem_replicate.mp member).2]
      exact fun c => inside_of_all (by decide)
    · exact List.forall_mem_map.mpr fun row member =>
        isLineBoundary_of_mem_escaped (plain row (.tail _ member))

/-- A table without columns is not found. -/
theorem markdownTables_noColumn {rows : List (List String)} (found : node.table? = some table)
    (texts : table.rowTexts = [] :: rows)
    (rectangular : ∀ row ∈ rows, row.length = ([] : List String).length) :
    markdownTables (paragraph node) = .ok [] := by
  have empty : rows = List.replicate rows.length [] :=
    List.eq_replicate_iff.mpr
      ⟨rfl, fun row member => List.length_eq_zero_iff.mp (rectangular row member)⟩
  -- A row without cells is written like one with an empty cell.
  have lines : (escaped [] :: List.replicate 0 "---".toList :: rows.map escaped).map rowLine =
      (List.replicate (rows.length + 2) [[]]).map rowLine := by
    rw [empty]
    simp [escaped, rowLine, List.replicate_succ]
  rw [paragraph_eq found texts rectangular, List.length_nil, lines, markdownTables_joinLines]
  · simp only [List.replicate_succ, List.map_cons]
    cases rows with
    | nil => rfl
    | cons row rows => rfl
  · simp [List.replicate_succ]
  · intro row member
    rw [(List.mem_replicate.mp member).2]
    exact List.cons_ne_nil _ _
  · intro row member
    rw [(List.mem_replicate.mp member).2]
    simp

/-- A row has one cell more for each pipe in it. -/
theorem length_cells {row : List String} (some : row ≠ []) :
    (cellsOf (rowLine (escaped row))).length =
      row.length + (row.map fun cell => cell.toList.count '|').sum := by
  rw [length_cellsOf_rowLine (escaped_ne_nil some), escaped, List.map_map, Nat.add_comm]
  simp only [Function.comp_def, count_escapePipes]
  clear some
  induction row with
  | nil => rfl
  | cons cell row ih =>
    simp only [List.map_cons, List.sum_cons, List.length_cons, ih]
    omega

theorem cells_eq {row : List String} (some : row ≠ []) (plain : ∀ cell ∈ row, Plain cell)
    (noPipe : ∀ cell ∈ row, '|' ∉ cell.toList) :
    cellsOf (rowLine (escaped row)) = row.map String.toList := by
  have same : escaped row = row.map String.toList :=
    List.map_congr_left fun cell member => escapePipes_eq_self (noPipe cell member)
  rw [same, cellsOf_rowLine (same ▸ escaped_ne_nil some), List.map_map]
  · refine List.map_congr_left fun cell member => ?_
    rw [Function.comp_apply, ← toList_strip, (plain cell member).1]
  · exact List.forall_mem_map.mpr noPipe

/-- **The tool finds the table** of a paragraph, cell by cell, if the table has a column and no cell
has a pipe. -/
theorem roundTrip_table_iff (found : node.table? = some table)
    (texts : table.rowTexts = header :: first :: rest)
    (rectangular : ∀ row ∈ first :: rest, row.length = header.length)
    (plain : ∀ row ∈ header :: first :: rest, ∀ cell ∈ row, Plain cell) :
    RoundTrip node header (first :: rest) ↔
      header ≠ [] ∧ ∀ row ∈ header :: first :: rest, ∀ cell ∈ row, '|' ∉ cell.toList := by
  by_cases column : header = []
  · subst column
    rw [RoundTrip, markdownTables_noColumn found texts rectangular]
    simp
  rw [RoundTrip, markdownTables_paragraph found texts rectangular plain column,
    and_iff_right column]
  have positive : header.length ≠ 0 := List.length_eq_zero_iff.not.mpr column
  have nonempty : ∀ row ∈ header :: first :: rest, row ≠ [] := by
    refine List.forall_mem_cons.mpr ⟨column, fun row member empty => ?_⟩
    have same := rectangular row member
    rw [empty] at same
    exact positive same.symm
  have width : ∀ row ∈ header :: first :: rest, row.length = header.length :=
    List.forall_mem_cons.mpr ⟨rfl, rectangular⟩
  have rule : (List.replicate header.length "---".toList).all isRule = true := by
    rw [List.all_replicate]
    simp only [positive, if_false]
    decide
  have read : ∀ row ∈ header :: first :: rest, cellsOf (rowLine (escaped row)) ∈
      cellsOf (rowLine (escaped header)) :: List.replicate header.length "---".toList ::
        (first :: rest).map fun row => cellsOf (rowLine (escaped row)) :=
    List.forall_mem_cons.mpr ⟨.head _, fun row member =>
      .tail _ (.tail _ (List.mem_map_of_mem (f := fun row => cellsOf (rowLine (escaped row)))
        member))⟩
  constructor
  · intro trip row member cell listed pipe
    rw [List.map_cons, tableOf, if_pos rule] at trip
    split_ifs at trip with ragged
    -- All rows are as long as the rule, so no pipe makes two cells of one.
    obtain ⟨n, single⟩ := Finset.card_eq_one.mp (not_not.mp ragged)
    have lengths : ∀ cells ∈ cellsOf (rowLine (escaped header)) ::
        List.replicate header.length "---".toList ::
          (first :: rest).map (fun row => cellsOf (rowLine (escaped row))), cells.length = n := by
      intro cells member
      rw [← Finset.mem_singleton, ← single, List.mem_toFinset]
      exact List.mem_map_of_mem member
    have ruled := lengths _ (.tail _ (.head _))
    have long := lengths _ (read row member)
    rw [List.length_replicate] at ruled
    rw [length_cells (nonempty row member), width row member, ruled] at long
    have none : (row.map fun cell => cell.toList.count '|').sum = 0 := by omega
    have zero := List.sum_eq_zero_iff_forall_eq_nat.mp none _ (List.mem_map_of_mem listed)
    exact List.count_eq_zero.mp zero pipe
  · intro noPipe
    have cells : ∀ row ∈ header :: first :: rest,
        cellsOf (rowLine (escaped row)) = row.map String.toList := fun row member =>
      cells_eq (nonempty row member) (plain row member) (noPipe row member)
    have texts : ∀ row : List String, (row.map String.toList).map .ofList = row := fun row => by
      rw [List.map_map]
      simp [Function.comp_def]
    rw [cells header (.head _), List.map_congr_left fun row member => cells row (.tail _ member),
      List.map_cons, tableOf, if_pos rule, if_neg]
    · rw [texts, ← List.map_cons, List.map_map]
      congr 3
      exact (List.map_congr_left fun row _ => texts row).trans (List.map_id _)
    · rw [not_not, Finset.card_eq_one]
      refine ⟨header.length, Finset.eq_singleton_iff_unique_mem.mpr ⟨by simp, fun n listed => ?_⟩⟩
      rw [List.mem_toFinset] at listed
      obtain ⟨cells, member, rfl⟩ := List.mem_map.mp listed
      rw [← List.map_cons] at member
      rcases List.mem_cons.mp member with rfl | member
      · exact List.length_map _
      · rcases List.mem_cons.mp member with rfl | member
        · exact List.length_replicate
        · obtain ⟨row, inside, rfl⟩ := List.mem_map.mp member
          rw [List.length_map, width row (.tail _ inside)]

end Trip

/-- A table with one row under its header, in a paragraph of its own. -/
def smallTable (header cell : String) : Element :=
  let row := fun text : String =>
    Element.node "{hp}tr" none [.node "{hp}tc" none [.node "{hp}t" (some text) []]]
  .node "{hp}p" none [.node "{hp}tbl" none [row header, row cell]]

theorem roundTrip_table_iff_number : RoundTrip (smallTable "a" "1") ["a"] [["1"]] := by
  have trip : RoundTrip (smallTable "a" "1") ["a"] (["1"] :: []) ↔ _ :=
    roundTrip_table_iff rfl rfl (by decide) (by decide)
  exact trip.mpr (by decide)

/-- A table with a pipe in a cell is refused. -/
theorem not_roundTrip_pipe :
    (smallTable "a" "1|2").table?.map Element.rowTexts = some [["a"], ["1|2"]] ∧
      Plain "a" ∧ Plain "1|2" ∧ ¬ RoundTrip (smallTable "a" "1|2") ["a"] [["1|2"]] := by
  refine ⟨rfl, by decide, by decide, ?_⟩
  obtain ⟨table, found, texts⟩ : ∃ table, (smallTable "a" "1|2").table? = some table ∧
    table.rowTexts = ["a"] :: [["1|2"]] := ⟨_, rfl, rfl⟩
  rw [RoundTrip, markdownTables_paragraph found texts (by decide) (by decide) (by decide)]
  decide

end AgentLabs.Retrieval
