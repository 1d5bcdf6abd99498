import AgentLabs.Text.Lines
import Mathlib.Algebra.Ring.Parity

/-!
# Tables of text

A row of a table is a line of cells between pipes. A reader that splits a row at every pipe finds
one cell more for each pipe inside a cell, whether that pipe is escaped or not. For a reader that
knows escapes, a backslash takes away the meaning of the character after it, another backslash
included. So a backslash that is put in front of a pipe does not help if an odd number of them is
there already.

## Main definitions

* `joinLines`: lines with line feeds between them
* `rowLine`: the line of a row
* `escapePipes`: a backslash in front of every pipe
* `cellsOf`: the cells of a line, for a reader that knows no escapes
* `markdownCells`: the cells of a line, for a reader that knows them
* `OddPipe`: a pipe that has an odd number of backslashes before it

## Main results

* `splitLines_joinLines`: lines are read back from the text they are joined to
* `cellsOf_rowLine`: cells without pipes are read back from their row
* `length_cellsOf_rowLine`: how many cells are found
* `unescapedPipes_escapePipes_eq_zero_iff`: when all pipes are escaped
* `splitLines_joinLines_closed`: joined lines are split one by one
-/

namespace AgentLabs.Text

/-! ### Joining lines -/

/-- `"\n".join(lines)`. -/
def joinLines (lines : List (List Char)) : List Char := ['\n'].intercalate lines

section Lines

variable {line : List Char} {lines : List (List Char)}

@[simp] theorem joinLines_singleton (line : List Char) : joinLines [line] = line := by
  simp [joinLines]

theorem joinLines_cons (line next : List Char) (lines : List (List Char)) :
    joinLines (line :: next :: lines) = line ++ '\n' :: joinLines (next :: lines) := by
  simp [joinLines, List.intercalate, List.intersperse]

theorem joinLines_append {others : List (List Char)} (some : lines ≠ [])
    (some' : others ≠ []) :
    joinLines (lines ++ others) = joinLines lines ++ '\n' :: joinLines others := by
  induction lines with
  | nil => exact absurd rfl some
  | cons line lines ih =>
    cases lines with
    | nil =>
      obtain ⟨next, rest, rfl⟩ := List.exists_cons_of_ne_nil some'
      rw [List.singleton_append, joinLines_cons, joinLines_singleton]
    | cons next lines =>
      rw [List.cons_append, List.cons_append, joinLines_cons, ← List.cons_append,
        ih (List.cons_ne_nil next lines), joinLines_cons, List.append_assoc, List.cons_append]

/-- Joined lines begin as the first of them does. -/
theorem exists_joinLines_cons (c : Char) (front : List Char) (lines : List (List Char)) :
    ∃ text, joinLines ((c :: front) :: lines) = c :: text := by
  cases lines with
  | nil => exact ⟨front, joinLines_singleton _⟩
  | cons next lines => exact ⟨_, joinLines_cons _ next lines⟩

/-- Joined lines end as the last of them does. -/
theorem exists_joinLines_concat (init : List (List Char)) (front : List Char) (c : Char) :
    ∃ text, joinLines (init ++ [front ++ [c]]) = text ++ [c] := by
  by_cases none : init = []
  · exact ⟨front, by simp [none]⟩
  · refine ⟨joinLines init ++ '\n' :: front, ?_⟩
    rw [joinLines_append none (by simp), joinLines_singleton]
    simp

theorem mem_joinLines {c : Char} (listed : line ∈ lines) (inside : c ∈ line) :
    c ∈ joinLines lines := by
  obtain ⟨before, after, rfl⟩ := List.append_of_mem listed
  have rest : c ∈ joinLines (line :: after) := by
    cases after with
    | nil => simpa using inside
    | cons next after =>
      rw [joinLines_cons]
      exact List.mem_append_left _ inside
  by_cases none : before = []
  · rwa [none]
  · rw [joinLines_append none (List.cons_ne_nil _ _)]
    exact List.mem_append_right _ (.tail _ rest)

theorem inside_of_all {c : Char} (all : line.all isInLine) (member : c ∈ line) :
    isLineBoundary c = false := by
  simpa [isInLine] using List.all_eq_true.mp all c member

theorem lineParts_inside_all (nonempty : line ≠ [])
    (inside : ∀ c ∈ line, isLineBoundary c = false) :
    lineParts line = [(line, [])] := by
  induction line with
  | nil => exact absurd rfl nonempty
  | cons c line ih =>
    rw [lineParts_inside (inside c (.head _))]
    cases line with
    | nil => rfl
    | cons d line =>
      rw [ih (List.cons_ne_nil d line) fun c member => inside c (.tail _ member)]

/-- Lines are read back from the text they are joined to, if none of them is empty. -/
theorem splitLines_joinLines (nonempty : ∀ line ∈ lines, line ≠ [])
    (inside : ∀ line ∈ lines, ∀ c ∈ line, isLineBoundary c = false) :
    splitLines (joinLines lines) = lines := by
  unfold splitLines
  induction lines with
  | nil => rfl
  | cons line lines ih =>
    cases lines with
    | nil =>
      rw [joinLines_singleton, lineParts_inside_all (nonempty line (.head _))
        (inside line (.head _))]
      rfl
    | cons next lines =>
      rw [joinLines_cons, lineParts_line (inside line (.head _)) (by decide) (by decide),
        List.map_cons, ih (fun l member => nonempty l (.tail _ member)) fun l member =>
        inside l (.tail _ member)]

theorem splitLines_inside {c : Char} {cs : List Char} (inside : isLineBoundary c = false)
    (some : cs ≠ []) :
    splitLines (c :: cs) = (splitLines cs).modifyHead (c :: ·) := by
  rw [splitLines, lineParts_inside inside, splitLines]
  cases h : lineParts cs with
  | nil => exact absurd (lineParts_eq_nil_iff.mp h) some
  | cons part parts => rfl

/-- A line that is more than its terminator. -/
def Closed (line : List Char) : Prop := ∃ init c, line = init ++ [c] ∧ isLineBoundary c = false

theorem Closed.ne_nil (closed : Closed line) : line ≠ [] := by
  obtain ⟨init, c, rfl, -⟩ := closed
  simp

theorem Closed.tail {c d : Char} (closed : Closed (c :: d :: line)) : Closed (d :: line) := by
  obtain ⟨init, e, split, inside⟩ := closed
  cases init with
  | nil => cases split
  | cons b init => exact ⟨init, e, (List.cons.inj split).2, inside⟩

/-- A line feed after other characters ends the last of their lines. -/
theorem splitLines_append_of_closed (closed : Closed line) (rest : List Char) :
    splitLines (line ++ '\n' :: rest) = splitLines line ++ splitLines rest := by
  induction line using lineParts.induct with
  | case1 => exact absurd rfl closed.ne_nil
  | case2 cs ih =>
    -- The line feed of a pair is no last character of a closed line.
    cases cs with
    | nil =>
      obtain ⟨init, c, split, inside⟩ := closed.tail
      cases init with
      | nil =>
        cases split
        cases inside
      | cons b init => simp at split
    | cons d cs =>
      have next := ih closed.tail.tail
      simp only [splitLines, List.cons_append, lineParts, List.map_cons] at next ⊢
      rw [next]
  | case3 c cs apart boundary ih =>
    cases cs with
    | nil =>
      obtain ⟨init, d, split, inside⟩ := closed
      cases init with
      | nil =>
        cases split
        rw [boundary] at inside
        cases inside
      | cons b init => simp at split
    | cons d cs =>
      have next := ih closed.tail
      have single := fun more => lineParts_boundary (d :: more) boundary
        fun more' first next => apart cs first (by rw [(List.cons.inj next).1])
      simp only [splitLines, List.cons_append] at next ⊢
      rw [single, single, List.map_cons, List.map_cons, next]
      rfl
  | case4 c cs apart inside none ih =>
    obtain rfl := lineParts_eq_nil_iff.mp none
    have inside : isLineBoundary c = false := by simpa using inside
    rw [splitLines, List.cons_append, ← List.cons_append, lineParts_line (by simpa using inside)
      (by decide) (by decide),
      splitLines, lineParts_inside inside]
    rfl
  | case5 c cs apart inside l ending more split ih =>
    have inside : isLineBoundary c = false := by simpa using inside
    cases cs with
    | nil => cases split
    | cons d cs =>
      rw [List.cons_append, splitLines_inside inside (by simp), ih closed.tail,
        splitLines_inside inside (List.cons_ne_nil d cs)]
      have some : splitLines (d :: cs) ≠ [] := by simp [splitLines]
      obtain ⟨first, others, lines⟩ := List.exists_cons_of_ne_nil some
      rw [lines]
      rfl

/-- **Joined lines are split one by one.** -/
theorem splitLines_joinLines_closed (closed : ∀ line ∈ lines, Closed line) :
    splitLines (joinLines lines) = lines.flatMap splitLines := by
  induction lines with
  | nil => rfl
  | cons line lines ih =>
    cases lines with
    | nil => simp
    | cons next lines =>
      rw [joinLines_cons, splitLines_append_of_closed (closed line (.head _)),
        ih fun l member => closed l (.tail _ member)]
      rfl

theorem isLineBoundary_of_mem_line {part : List Char × List Char} (member : part ∈ lineParts line)
    {c : Char} (inside : c ∈ part.1) : isLineBoundary c = false := by
  induction line using lineParts.induct generalizing part with
  | case1 => cases member
  | case2 cs ih =>
    rw [lineParts, List.mem_cons] at member
    rcases member with rfl | later
    · cases inside
    · exact ih later inside
  | case3 d cs apart boundary ih =>
    rw [lineParts_boundary _ boundary fun more first => apart more first, List.mem_cons] at member
    rcases member with rfl | later
    · cases inside
    · exact ih later inside
  | case4 d cs apart inside' none ih =>
    have inside' : isLineBoundary d = false := by simpa using inside'
    rw [lineParts_inside inside', none] at member
    obtain rfl := List.mem_singleton.mp member
    rwa [List.mem_singleton.mp inside]
  | case5 d cs apart inside' l ending more split ih =>
    have inside' : isLineBoundary d = false := by simpa using inside'
    rw [lineParts_inside inside', split] at member
    rw [split] at ih
    rcases List.mem_cons.mp member with rfl | member
    -- The first line grew by the character in front.
    · rcases List.mem_cons.mp inside with rfl | inside
      · exact inside'
      · exact ih (.head _) inside
    · exact ih (.tail _ member) inside

/-- A text is one line if there is no boundary in it. -/
theorem length_splitLines_eq_one_iff (closed : Closed line) :
    (splitLines line).length = 1 ↔ ∀ c ∈ line, isLineBoundary c = false := by
  constructor
  · intro one
    rw [splitLines, List.length_map] at one
    obtain ⟨part, single⟩ := List.length_eq_one_iff.mp one
    have whole := joinParts_lineParts line
    rw [single, joinParts_cons] at whole
    have text : part.1 ++ part.2 = line := by simpa [joinParts] using whole
    have member : part ∈ lineParts line := single ▸ .head _
    -- The last character is no boundary, so the line has no terminator.
    have bare : part.2 = [] := by
      obtain ⟨init, c, split, inside⟩ := closed
      by_contra some
      have last : c ∈ part.2 := by
        have same := congrArg List.getLast? (text.trans split)
        rw [List.getLast?_concat, List.getLast?_append_of_ne_nil _ some] at same
        exact List.mem_of_getLast? same
      rw [isLineBoundary_of_mem_ending member last] at inside
      cases inside
    intro c listed
    rw [← text, bare, List.append_nil] at listed
    exact isLineBoundary_of_mem_line member listed
  · intro inside
    rw [splitLines, lineParts_inside_all closed.ne_nil inside]
    rfl

theorem splitLines_eq_singleton (closed : Closed line)
    (inside : ∀ c ∈ line, isLineBoundary c = false) :
    splitLines line = [line] := by
  rw [splitLines, lineParts_inside_all closed.ne_nil inside]
  rfl

theorem one_le_length_splitLines (closed : Closed line) : 1 ≤ (splitLines line).length := by
  rw [Nat.one_le_iff_ne_zero, Ne, List.length_eq_zero_iff, splitLines, List.map_eq_nil_iff,
    lineParts_eq_nil_iff]
  exact closed.ne_nil

end Lines

/-! ### Trimming -/

section Trim

variable {p : Char → Bool} {c : Char}

theorem trimBoth_cons (dropped : p c) (cs : List Char) : trimBoth p (c :: cs) = trimBoth p cs := by
  rw [trimBoth, List.dropWhile_cons_of_pos dropped]
  rfl

theorem trimBoth_concat (dropped : p c) (cs : List Char) :
    trimBoth p (cs ++ [c]) = trimBoth p cs := by
  rw [trimBoth, List.dropWhile_append]
  split_ifs with all
  · rw [List.isEmpty_iff] at all
    simp [trimBoth, all, dropped]
  · rw [List.rdropWhile_concat_pos _ _ _ dropped]
    rfl

/-- What begins and ends with other characters is not trimmed. -/
theorem trimBoth_eq_self {cs : List Char} (first : ∀ c ∈ cs.head?, p c = false)
    (last : ∀ c ∈ cs.getLast?, p c = false) : trimBoth p cs = cs := by
  have front : cs.dropWhile p = cs := by
    cases cs with
    | nil => rfl
    | cons c cs => rw [List.dropWhile_cons_of_neg (by simp [first c rfl])]
  rw [trimBoth, front]
  obtain rfl | ⟨init, c, rfl⟩ := List.eq_nil_or_concat' cs
  · rfl
  · rw [List.rdropWhile_concat_neg]
    rw [last c (by simp)]
    decide

end Trim

/-! ### Rows -/

/-- `" | ".join(cells)` between pipes. -/
def rowLine (cells : List (List Char)) : List Char :=
  "| ".toList ++ " | ".toList.intercalate cells ++ " |".toList

/-- `text.replace("|", "\\|")`. -/
def escapePipes (cs : List Char) : List Char :=
  cs.flatMap fun c => if c = '|' then ['\\', '|'] else [c]

/-- `[cell.strip() for cell in line.strip().strip("|").split("|")]`. -/
def cellsOf (line : List Char) : List (List Char) :=
  ((trimBoth (· == '|') (trimBoth isSpace line)).splitOn '|').map (trimBoth isSpace)

/-- A cell with the blanks that the row puts around it. -/
def padded (cell : List Char) : List Char := ' ' :: (cell ++ [' '])

section Rows

variable {cell : List Char} {cells : List (List Char)}

theorem intercalate_padded (nonempty : cells ≠ []) :
    ['|'].intercalate (cells.map padded) = ' ' :: (" | ".toList.intercalate cells ++ [' ']) := by
  induction cells with
  | nil => exact absurd rfl nonempty
  | cons cell cells ih =>
    cases cells with
    | nil => simp [padded]
    | cons next cells =>
      have rest := ih (List.cons_ne_nil next cells)
      simp only [List.map_cons, List.intercalate, List.intersperse, List.flatten_cons,
        padded] at rest ⊢
      simp only [rest]
      simp

theorem rowLine_eq (nonempty : cells ≠ []) :
    rowLine cells = '|' :: (['|'].intercalate (cells.map padded) ++ ['|']) := by
  rw [intercalate_padded nonempty]
  simp [rowLine]

theorem mem_intercalate {sep : List Char} {c : Char} (member : c ∈ sep.intercalate cells) :
    c ∈ sep ∨ ∃ cell ∈ cells, c ∈ cell := by
  induction cells with
  | nil => cases member
  | cons cell cells ih =>
    cases cells with
    | nil => exact .inr ⟨cell, .head _, by simpa using member⟩
    | cons next cells =>
      simp only [List.intercalate, List.intersperse, List.flatten_cons,
        List.mem_append] at member ih
      rcases member with here | between | rest
      · exact .inr ⟨cell, .head _, here⟩
      · exact .inl between
      · refine (ih rest).imp_right ?_
        rintro ⟨cell, listed, found⟩
        exact ⟨cell, .tail _ listed, found⟩

/-- A row of cells in one line is in one line. -/
theorem isLineBoundary_of_mem_rowLine (inside : ∀ cell ∈ cells, ∀ c ∈ cell, isLineBoundary c =
    false) {c : Char} (member : c ∈ rowLine cells) : isLineBoundary c = false := by
  rw [rowLine, List.mem_append, List.mem_append] at member
  rcases member with (front | middle) | back
  · exact inside_of_all (by decide : "| ".toList.all isInLine) front
  · rcases mem_intercalate middle with between | ⟨cell, listed, found⟩
    · exact inside_of_all (by decide : " | ".toList.all isInLine) between
    · exact inside cell listed c found
  · exact inside_of_all (by decide : " |".toList.all isInLine) back

theorem length_splitOn (cs : List Char) (c : Char) : (cs.splitOn c).length = cs.count c + 1 := by
  induction cs with
  | nil => rfl
  | cons d cs ih =>
    rw [List.splitOn_cons_eq_if_modifyHead, List.count_cons]
    split_ifs with same
    · rw [List.length_cons, ih]
    · rw [List.length_modifyHead, ih]

theorem count_intercalate (c : Char) (nonempty : cells ≠ []) :
    ([c].intercalate cells).count c + 1 = (cells.map fun cell => cell.count c + 1).sum := by
  induction cells with
  | nil => exact absurd rfl nonempty
  | cons cell cells ih =>
    cases cells with
    | nil => simp
    | cons next cells =>
      have rest := ih (List.cons_ne_nil next cells)
      simp only [List.intercalate, List.intersperse, List.flatten_cons, List.count_append,
        List.map_cons, List.sum_cons, List.count_cons_self, List.count_nil] at rest ⊢
      omega

/-- Nothing but the outer pipes is trimmed from a row. -/
theorem trimBoth_rowLine (nonempty : cells ≠ []) :
    trimBoth (· == '|') (trimBoth isSpace (rowLine cells)) =
      ['|'].intercalate (cells.map padded) := by
  rw [rowLine_eq nonempty]
  have spaces : trimBoth isSpace ('|' :: (['|'].intercalate (cells.map padded) ++ ['|'])) =
      '|' :: (['|'].intercalate (cells.map padded) ++ ['|']) := by
    apply trimBoth_eq_self
    · simp [isSpace]
    · simp [List.getLast?_cons, isSpace]
  rw [spaces, trimBoth_cons (by decide), trimBoth_concat (by decide)]
  rw [intercalate_padded nonempty]
  apply trimBoth_eq_self
  · simp
  · rw [← List.cons_append, List.getLast?_concat]
    simp

/-- **Cells are read back** from their row, without the blanks around them, if there is no pipe in
them. -/
theorem cellsOf_rowLine (nonempty : cells ≠ []) (plain : ∀ cell ∈ cells, '|' ∉ cell) :
    cellsOf (rowLine cells) = cells.map (trimBoth isSpace) := by
  have apart : ∀ cell ∈ cells.map padded, '|' ∉ cell := by
    intro cell padding
    obtain ⟨inner, listed, rfl⟩ := List.mem_map.mp padding
    simp [padded, plain inner listed]
  rw [cellsOf, trimBoth_rowLine nonempty,
    List.splitOn_intercalate _ apart fun empty => nonempty (List.map_eq_nil_iff.mp empty),
    List.map_map]
  refine List.map_congr_left fun cell _ => ?_
  rw [Function.comp_apply, padded, trimBoth_cons (by decide), trimBoth_concat (by decide)]

/-- A pipe in a cell makes two of it. -/
theorem length_cellsOf_rowLine (nonempty : cells ≠ []) :
    (cellsOf (rowLine cells)).length = (cells.map fun cell => cell.count '|' + 1).sum := by
  rw [cellsOf, trimBoth_rowLine nonempty, List.length_map, length_splitOn,
    count_intercalate _ fun empty => nonempty (List.map_eq_nil_iff.mp empty), List.map_map]
  refine congrArg List.sum (List.map_congr_left fun cell _ => ?_)
  simp [padded]

/-- A line of a table begins and ends with a pipe. -/
theorem rowLine_ends (nonempty : cells ≠ []) : (trimBoth isSpace (rowLine cells)).head? = some '|' ∧
    (trimBoth isSpace (rowLine cells)).getLast? = some '|' := by
  rw [rowLine_eq nonempty, trimBoth_eq_self]
  · rw [← List.cons_append, List.getLast?_concat]
    exact ⟨rfl, rfl⟩
  · simp [isSpace]
  · simp [List.getLast?_cons, isSpace]

end Rows

/-! ### Escaped pipes -/

theorem count_escapePipes (cs : List Char) : (escapePipes cs).count '|' = cs.count '|' := by
  induction cs with
  | nil => rfl
  | cons c cs ih =>
    rw [escapePipes, List.flatMap_cons, List.count_append, ← escapePipes, ih, List.count_cons,
      Nat.add_comm]
    by_cases pipe : c = '|' <;> simp [pipe]

theorem escapePipes_eq_self {cs : List Char} (plain : '|' ∉ cs) : escapePipes cs = cs := by
  induction cs with
  | nil => rfl
  | cons c cs ih =>
    rw [List.mem_cons, not_or] at plain
    rw [escapePipes, List.flatMap_cons, ← escapePipes, ih plain.2, if_neg (Ne.symm plain.1)]
    rfl

theorem isLineBoundary_of_mem_escapePipes {cs : List Char}
    (inside : ∀ c ∈ cs, isLineBoundary c = false)
    {c : Char} (member : c ∈ escapePipes cs) : isLineBoundary c = false := by
  obtain ⟨d, listed, found⟩ := List.mem_flatMap.mp member
  split_ifs at found with pipe
  · exact inside_of_all (by decide : ['\\', '|'].all isInLine) found
  · rw [List.mem_singleton.mp found]
    exact inside d listed

/-- Whether the next character is escaped. -/
def endState (escaped : Bool) (cs : List Char) : Bool :=
  cs.foldl (fun escaped c => c = '\\' && !escaped) escaped

/-- How many pipes are not escaped. -/
def unescapedPipes (escaped : Bool) : List Char → ℕ
  | [] => 0
  | c :: cs => (if c = '|' && !escaped then 1 else 0) + unescapedPipes (c = '\\' && !escaped) cs

/-- The pieces between the pipes that are not escaped. -/
def splitUnescaped (escaped : Bool) : List Char → List (List Char)
  | [] => [[]]
  | c :: cs =>
    if c = '|' && !escaped then [] :: splitUnescaped (c = '\\' && !escaped) cs
    else (splitUnescaped (c = '\\' && !escaped) cs).modifyHead (c :: ·)

/-- The cells of a line between its first and its last pipe. -/
def markdownCells (line : List Char) : List (List Char) := (splitUnescaped false line).tail.dropLast

/-- A pipe that has an odd number of backslashes right before it. -/
def OddPipe (cs : List Char) : Prop :=
  ∃ before after, cs = before ++ '|' :: after ∧ Odd (before.rtakeWhile (· = '\\')).length

section Escapes

variable {cs : List Char} {escaped : Bool}

theorem not_oddPipe_of_notMem (none : '|' ∉ cs) : ¬ OddPipe cs := by
  rintro ⟨before, after, rfl, -⟩
  exact none (List.mem_append_right _ (.head _))

theorem length_splitUnescaped (escaped : Bool) (cs : List Char) :
    (splitUnescaped escaped cs).length = unescapedPipes escaped cs + 1 := by
  induction cs generalizing escaped with
  | nil => rfl
  | cons c cs ih =>
    rw [splitUnescaped, unescapedPipes]
    split_ifs with pipe
    · rw [List.length_cons, ih, Nat.add_comm 1]
    · rw [List.length_modifyHead, ih, Nat.zero_add]

theorem length_markdownCells (line : List Char) :
    (markdownCells line).length = unescapedPipes false line - 1 := by
  rw [markdownCells, List.length_dropLast, List.length_tail, length_splitUnescaped]
  omega

theorem unescapedPipes_append (escaped : Bool) (xs ys : List Char) :
    unescapedPipes escaped (xs ++ ys) =
    unescapedPipes escaped xs + unescapedPipes (endState escaped xs) ys := by
  induction xs generalizing escaped with
  | nil => simp [unescapedPipes, endState]
  | cons c xs ih =>
    rw [List.cons_append, unescapedPipes, unescapedPipes, ih, Nat.add_assoc]
    rfl

theorem unescapedPipes_eq_zero_of_notMem (plain : '|' ∉ cs) (escaped : Bool) :
    unescapedPipes escaped cs = 0 := by
  induction cs generalizing escaped with
  | nil => rfl
  | cons c cs ih =>
    rw [List.mem_cons, not_or] at plain
    rw [unescapedPipes, ih plain.2]
    simp [Ne.symm plain.1]

/-- Whether a character is escaped depends on how many backslashes are right before it. -/
theorem endState_iff (cs : List Char) :
    endState false cs = true ↔ Odd (cs.rtakeWhile (· = '\\')).length := by
  induction cs using List.reverseRecOn with
  | nil => simp [endState]
  | append_singleton cs c ih =>
    have step : endState false (cs ++ [c]) = (decide (c = '\\') && !endState false cs) := by
      simp [endState]
    rw [step, List.rtakeWhile_concat]
    by_cases backslash : c = '\\'
    · simp only [backslash, decide_true, Bool.true_and, if_true, List.length_append,
        List.length_singleton]
      rw [Nat.odd_add_one, ← ih]
      simp
    · simp [backslash]

/-- An escaped pipe counts if it was reached in the middle of an escape. -/
theorem unescapedPipes_escapePipes_cons (escaped : Bool) (c : Char) (cs : List Char) :
    unescapedPipes escaped (escapePipes (c :: cs)) =
      (if c = '|' && escaped then 1 else 0) + unescapedPipes (c = '\\' && !escaped)
      (escapePipes cs) := by
  rw [escapePipes, List.flatMap_cons, ← escapePipes]
  by_cases pipe : c = '|'
  · subst pipe
    cases escaped <;> simp [unescapedPipes]
  · simp [pipe, unescapedPipes]

theorem unescapedPipes_escapePipes_eq_zero_iff_endState (escaped : Bool) (cs : List Char) :
    unescapedPipes escaped (escapePipes cs) = 0 ↔
      ∀ before after, cs = before ++ '|' :: after → endState escaped before = false := by
  induction cs generalizing escaped with
  | nil => exact iff_of_true rfl fun before after empty => by simp at empty
  | cons c cs ih =>
    rw [unescapedPipes_escapePipes_cons, Nat.add_eq_zero_iff, ih]
    -- The state of the reader runs along with the position of the pipe.
    constructor
    · rintro ⟨here, later⟩ before after split
      cases before with
      | nil =>
        cases split
        simpa [endState] using here
      | cons d before =>
        cases split
        exact later before after rfl
    · intro all
      refine ⟨?_, fun before after split => ?_⟩
      · by_cases pipe : c = '|'
        · subst pipe
          have first := all [] cs rfl
          simpa [endState] using first
        · simp [pipe]
      · exact all (c :: before) after (congrArg _ split)

/-- **All pipes are escaped** if none of them has an odd number of backslashes before it. -/
theorem unescapedPipes_escapePipes_eq_zero_iff :
    unescapedPipes false (escapePipes cs) = 0 ↔ ¬ OddPipe cs := by
  rw [unescapedPipes_escapePipes_eq_zero_iff_endState, OddPipe]
  simp only [← endState_iff, not_exists, not_and, Bool.not_eq_true]

end Escapes

end AgentLabs.Text
