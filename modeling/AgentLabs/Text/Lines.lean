import AgentLabs.Text.PythonStr

/-!
# Lines of text

`str.splitlines` ends a line at ten characters and at the pair of a carriage
return and a line feed, not only at the line feed a writer puts after its records.
A text is taken apart here into its lines with their terminators, so that both
forms of the method are read off one recursion and nothing is lost.

## Main definitions

* `isLineBoundary`: the characters that end a line
* `lineParts`: the lines of a text, each with its terminator
* `splitLines`, `splitLinesKeepEnds`: `str.splitlines()` without and with terminators
* `lineRange`: some lines of a text, with their terminators
* `NoLine`: texts without a kind of line
* `universalNewlines`, `readText`: what reading a file in text mode does to its terminators

## Main results

* `flatten_splitLinesKeepEnds`: the lines with their terminators are the text
* `lineParts_line`: a boundary ends the line in front of it
* `lineParts_closed`: a line feed separates what is before it from what is after it
* `splitLines_lineRange`: some lines of a text are split where the text is
* `NoLine.splice_iff`: which lines a text gets when a part of it is replaced
* `readText_eq_self_iff`: which texts are read as they were written
-/

namespace AgentLabs.Text

/-- The characters at which `str.splitlines` ends a line. -/
def isLineBoundary (c : Char) : Bool :=
  let n := c.toNat
  (10 ≤ n && n ≤ 13) || (28 ≤ n && n ≤ 30) || n == 0x85 || n == 0x2028 || n == 0x2029

/-- The lines of a text, each with its terminator; only the last one may have none. -/
@[grind =] def lineParts : List Char → List (List Char × List Char)
  | [] => []
  | '\r' :: '\n' :: cs => ([], ['\r', '\n']) :: lineParts cs
  | c :: cs =>
    if isLineBoundary c then ([], [c]) :: lineParts cs
    else
      match lineParts cs with
      | [] => [([c], [])]
      | (line, ending) :: rest => (c :: line, ending) :: rest

/-- `text.splitlines()`. -/
def splitLines (cs : List Char) : List (List Char) := (lineParts cs).map Prod.fst

/-- `text.splitlines(keepends=True)`. -/
def splitLinesKeepEnds (cs : List Char) : List (List Char) :=
  (lineParts cs).map fun part => part.1 ++ part.2

/-- Reading in text mode makes every line end in a line feed. -/
def universalNewlines : List Char → List Char
  | [] => []
  | '\r' :: '\n' :: cs => '\n' :: universalNewlines cs
  | c :: cs => (if c = '\r' then '\n' else c) :: universalNewlines cs

/-- What `path.read_text()` returns of a file with this text. -/
def readText (text : String) : String := .ofList (universalNewlines text.toList)

variable {cs rest line : List Char} {c : Char}

/-! ### One character at a time -/

theorem lineParts_boundary (cs : List Char) (boundary : isLineBoundary c)
    (apart : ∀ more, c = '\r' → cs ≠ '\n' :: more) :
    lineParts (c :: cs) = ([], [c]) :: lineParts cs := by
  rw [lineParts, if_pos boundary]
  exact fun more first next => apart more first next

theorem lineParts_inside (inside : isLineBoundary c = false) :
    lineParts (c :: cs) =
      match lineParts cs with
      | [] => [([c], [])]
      | (line, ending) :: rest => (c :: line, ending) :: rest := by
  rw [lineParts, if_neg (by simp [inside])]
  rintro _ rfl _
  exact absurd inside (by decide)

@[simp] theorem lineParts_eq_nil_iff : lineParts cs = [] ↔ cs = [] := by
  refine ⟨fun none => ?_, fun empty => empty ▸ rfl⟩
  rw [lineParts.eq_def] at none
  split at none
  · rfl
  · simp at none
  · split at none
    · simp at none
    · split at none <;> simp at none

/-- The lines with their terminators are the text. -/
theorem flatten_splitLinesKeepEnds (cs : List Char) : (splitLinesKeepEnds cs).flatten = cs := by
  unfold splitLinesKeepEnds
  induction cs using lineParts.induct with
  | case1 => rfl
  | case2 cs ih => simp [lineParts, ih]
  | case3 c cs apart boundary ih =>
    rw [lineParts_boundary _ boundary fun more first => apart more first]
    simp [ih]
  | case4 c cs apart inside none ih =>
    rw [lineParts_inside (by simpa using inside), none]
    simp [lineParts_eq_nil_iff.mp none]
  | case5 c cs apart inside line ending more split ih =>
    rw [lineParts_inside (by simpa using inside), split]
    rw [split] at ih
    simpa using ih

/-- A boundary ends the line in front of it. -/
theorem lineParts_line (inside : ∀ c ∈ line, isLineBoundary c = false)
    (boundary : isLineBoundary c) (other : c ≠ '\r') :
    lineParts (line ++ c :: rest) = (line, [c]) :: lineParts rest := by
  induction line with
  | nil => exact lineParts_boundary _ boundary fun _ first => absurd first other
  | cons d line ih =>
    rw [List.cons_append, lineParts_inside (inside d (.head _)),
      ih fun c member => inside c (.tail _ member)]

/-- A line feed separates what is before it from what is after it. -/
theorem lineParts_closed (cs rest : List Char) :
    lineParts (cs ++ '\n' :: rest) = lineParts (cs ++ ['\n']) ++ lineParts rest := by
  induction cs using lineParts.induct with
  | case1 => rfl
  | case2 cs ih => simp only [List.cons_append, lineParts, ih]
  | case3 c cs apart boundary ih =>
    obtain _ | ⟨d, cs⟩ := cs
    · -- A carriage return at the end forms a pair with the line feed.
      by_cases pair : c = '\r'
      · subst pair
        rfl
      · have single := fun more => lineParts_boundary ('\n' :: more) boundary
          fun _ first => absurd first pair
        rw [List.cons_append, List.nil_append, single, List.cons_append, List.nil_append, single]
        rfl
    · have single := fun more => lineParts_boundary (d :: more) boundary
        fun more' first next => apart cs first (by rw [(List.cons.inj next).1])
      simp only [List.cons_append] at ih ⊢
      rw [single, single, ih]
      rfl
  | case4 c cs apart inside none ih =>
    obtain rfl := lineParts_eq_nil_iff.mp none
    rw [List.cons_append, lineParts_inside (by simpa using inside), ih, List.cons_append,
      lineParts_inside (by simpa using inside)]
    rfl
  | case5 c cs apart inside line ending more split ih =>
    rw [List.cons_append, lineParts_inside (by simpa using inside), ih, List.cons_append,
      lineParts_inside (by simpa using inside)]
    cases closed : lineParts (cs ++ ['\n']) with
    | nil => simp at closed
    | cons part parts => rfl

/-- Only boundaries stand in terminators. -/
theorem isLineBoundary_of_mem_ending {part : List Char × List Char} (member : part ∈ lineParts cs)
    (inside : c ∈ part.2) : isLineBoundary c := by
  induction cs using lineParts.induct generalizing part with
  | case1 => simp [lineParts] at member
  | case2 cs ih =>
    rw [lineParts, List.mem_cons] at member
    rcases member with rfl | later
    -- `\r\n` is one terminator of two characters.
    · rcases List.mem_cons.mp inside with rfl | feed
      · rfl
      · rw [List.mem_singleton.mp feed]
        rfl
    · exact ih later inside
  | case3 d cs apart boundary ih =>
    rw [lineParts_boundary _ boundary fun more first => apart more first, List.mem_cons] at member
    rcases member with rfl | later
    · rwa [List.mem_singleton.mp inside]
    · exact ih later inside
  | case4 d cs apart inside' none ih =>
    rw [lineParts_inside (by simpa using inside'), none] at member
    rw [List.mem_singleton.mp member] at inside
    simp at inside
  | case5 d cs apart inside' line ending more split ih =>
    rw [lineParts_inside (by simpa using inside'), split] at member
    rw [split] at ih
    rcases List.mem_cons.mp member with rfl | later
    · exact ih (List.mem_cons_self (a := (line, ending))) inside
    · exact ih (.tail _ later) inside

/-- Every other character stands in a line. -/
theorem exists_line_of_mem (member : c ∈ cs) (inside : isLineBoundary c = false) :
    ∃ line ∈ splitLines cs, c ∈ line := by
  rw [← flatten_splitLinesKeepEnds cs, List.mem_flatten] at member
  obtain ⟨text, listed, member⟩ := member
  obtain ⟨part, split, rfl⟩ := List.mem_map.mp listed
  rcases List.mem_append.mp member with line | ending
  · exact ⟨part.1, List.mem_map_of_mem split, line⟩
  · exact absurd (isLineBoundary_of_mem_ending split ending) (by simp [inside])

/-! ### Some lines of a text -/

/-- `"".join(text.splitlines(keepends=True)[offset : offset + limit])`. -/
def lineRange (cs : List Char) (offset limit : ℕ) : List Char :=
  (((splitLinesKeepEnds cs).drop offset).take limit).flatten

/-- The text of some lines, taken apart. -/
def joinParts (parts : List (List Char × List Char)) : List Char :=
  (parts.map fun part => part.1 ++ part.2).flatten

theorem joinParts_lineParts (cs : List Char) : joinParts (lineParts cs) = cs :=
  flatten_splitLinesKeepEnds cs

@[simp] theorem joinParts_cons (part : List Char × List Char)
    (parts : List (List Char × List Char)) :
    joinParts (part :: parts) = part.1 ++ (part.2 ++ joinParts parts) := by
  simp [joinParts]

/-- The last lines of a text are split where the text is. -/
theorem lineParts_drop (cs : List Char) (n : ℕ) :
    lineParts (joinParts ((lineParts cs).drop n)) = (lineParts cs).drop n := by
  induction cs using lineParts.induct generalizing n with
  | case1 => simp [lineParts, joinParts]
  | case2 cs ih =>
    cases n with
    | zero => rw [List.drop_zero, joinParts_lineParts]
    | succ n =>
      rw [lineParts, List.drop_succ_cons]
      exact ih n
  | case3 c cs apart boundary ih =>
    cases n with
    | zero => rw [List.drop_zero, joinParts_lineParts]
    | succ n =>
      rw [lineParts_boundary _ boundary fun more first => apart more first, List.drop_succ_cons]
      exact ih n
  | case4 c cs apart inside none ih =>
    cases n with
    | zero => rw [List.drop_zero, joinParts_lineParts]
    | succ n =>
      rw [lineParts_inside (by simpa using inside), none]
      simp [joinParts, lineParts]
  | case5 c cs apart inside line ending more split ih =>
    cases n with
    | zero => rw [List.drop_zero, joinParts_lineParts]
    | succ n =>
      -- The character belongs to the first line, which is dropped with it.
      have later := ih (n + 1)
      rw [split, List.drop_succ_cons] at later
      rw [lineParts_inside (by simpa using inside), split]
      exact later

/-- The first lines of a text are split where the text is. -/
theorem lineParts_take (cs : List Char) (n : ℕ) :
    lineParts (joinParts ((lineParts cs).take n)) = (lineParts cs).take n := by
  induction cs using lineParts.induct generalizing n with
  | case1 => simp [lineParts, joinParts]
  | case2 cs ih =>
    cases n with
    | zero => rfl
    | succ n =>
      rw [lineParts, List.take_succ_cons, joinParts_cons, List.nil_append, List.cons_append,
        List.cons_append, List.nil_append, lineParts, ih]
  | case3 c cs apart boundary ih =>
    cases n with
    | zero => rfl
    | succ n =>
      rw [lineParts_boundary _ boundary fun more first => apart more first, List.take_succ_cons,
        joinParts_cons, List.nil_append, List.singleton_append,
        lineParts_boundary _ boundary fun more first next => ?_, ih]
      -- What follows a carriage return in the part follows it in the text.
      have whole : joinParts ((lineParts cs).take n) ++ joinParts ((lineParts cs).drop n) = cs := by
        rw [joinParts, joinParts, ← List.flatten_append, ← List.map_append, List.take_append_drop]
        exact joinParts_lineParts cs
      rw [next] at whole
      exact apart _ first whole.symm
  | case4 c cs apart inside none ih =>
    cases n with
    | zero => rfl
    | succ n =>
      rw [lineParts_inside (by simpa using inside), none, List.take_succ_cons, List.take_nil]
      exact lineParts_inside (by simpa using inside)
  | case5 c cs apart inside line ending more split ih =>
    cases n with
    | zero => rfl
    | succ n =>
      have later := ih (n + 1)
      rw [split, List.take_succ_cons, joinParts_cons] at later
      rw [lineParts_inside (by simpa using inside), split, List.take_succ_cons, joinParts_cons,
        List.cons_append, lineParts_inside (by simpa using inside), later]

theorem lineRange_eq (cs : List Char) (offset limit : ℕ) :
    lineRange cs offset limit = joinParts (((lineParts cs).drop offset).take limit) := by
  rw [lineRange, splitLinesKeepEnds, ← List.map_drop, ← List.map_take, joinParts]

theorem lineParts_lineRange (cs : List Char) (offset limit : ℕ) :
    lineParts (lineRange cs offset limit) = ((lineParts cs).drop offset).take limit := by
  rw [lineRange_eq, ← lineParts_drop, lineParts_take]

/-- **Some lines of a text** are split where the text is. -/
theorem splitLines_lineRange (cs : List Char) (offset limit : ℕ) :
    splitLines (lineRange cs offset limit) = ((splitLines cs).drop offset).take limit := by
  rw [splitLines, lineParts_lineRange, List.map_take, List.map_drop, splitLines]

theorem splitLinesKeepEnds_lineRange (cs : List Char) (offset limit : ℕ) :
    splitLinesKeepEnds (lineRange cs offset limit) =
      ((splitLinesKeepEnds cs).drop offset).take limit := by
  rw [splitLinesKeepEnds, lineParts_lineRange, List.map_take, List.map_drop, splitLinesKeepEnds]

theorem length_splitLines (cs : List Char) :
    (splitLines cs).length = (splitLinesKeepEnds cs).length := by
  rw [splitLines, splitLinesKeepEnds, List.length_map, List.length_map]

/-- The lines that there are, of a range that may go beyond them. -/
theorem lineRange_length (cs : List Char) (offset limit : ℕ) :
    lineRange cs offset (splitLines (lineRange cs offset limit)).length =
      lineRange cs offset limit := by
  rw [splitLines_lineRange, List.length_take, List.length_drop, length_splitLines, lineRange,
    lineRange, ← List.length_drop]
  rcases Nat.le_total limit ((splitLinesKeepEnds cs).drop offset).length with inside | beyond
  · rw [Nat.min_eq_left inside]
  · rw [Nat.min_eq_right beyond, List.take_length, List.take_of_length_le beyond]

/-! ### Texts without a kind of line -/

/-- No line of a text has a property. -/
def NoLine (P : List Char → Bool) (cs : List Char) : Prop := ∀ line ∈ splitLines cs, P line = false

/-- The characters that stand in lines. -/
def isInLine (c : Char) : Bool := !isLineBoundary c

/-- The rest of the line that a text ends in. -/
def lastLine (cs : List Char) : List Char := cs.rtakeWhile isInLine

/-- The line that a text begins with. -/
def firstLine (cs : List Char) : List Char := cs.takeWhile isInLine

/-- Up to empty ones, the lines are what is left between the characters that end lines. -/
theorem splitLines_splitOnP (cs : List Char) : cs = [] ∨ ∃ first rest rest',
    splitLines cs = first :: rest ∧ cs.splitOnP isLineBoundary = first :: rest' ∧
      rest.filter (· ≠ []) = rest'.filter (· ≠ []) := by
  have nonempty (cs : List Char) (h : cs = [] ∨ ∃ first rest rest',
      splitLines cs = first :: rest ∧ cs.splitOnP isLineBoundary = first :: rest' ∧
        rest.filter (· ≠ []) = rest'.filter (· ≠ [])) :
      (splitLines cs).filter (· ≠ []) = (cs.splitOnP isLineBoundary).filter (· ≠ []) := by
    rcases h with rfl | ⟨first, rest, rest', split, split', same⟩
    · rfl
    · rw [split, split', List.filter_cons, List.filter_cons, same]
  induction cs using lineParts.induct with
  | case1 => exact .inl rfl
  | case2 cs ih =>
    -- A carriage return and a line feed end one line, and leave an empty part between them.
    refine .inr ⟨[], splitLines cs, [] :: cs.splitOnP isLineBoundary, rfl, ?_, ?_⟩
    · rw [List.splitOnP_cons_eq_if_modifyHead, if_pos (by decide),
        List.splitOnP_cons_eq_if_modifyHead, if_pos (by decide)]
    · rw [nonempty cs ih, List.filter_cons_of_neg (by simp)]
  | case3 c cs apart boundary ih =>
    refine .inr ⟨[], splitLines cs, cs.splitOnP isLineBoundary, ?_, ?_, nonempty cs ih⟩
    · rw [splitLines, lineParts_boundary _ boundary fun more first => apart more first]
      rfl
    · rw [List.splitOnP_cons_eq_if_modifyHead, if_pos boundary]
  | case4 c cs apart inside none ih =>
    obtain rfl := lineParts_eq_nil_iff.mp none
    refine .inr ⟨[c], [], [], ?_, ?_, rfl⟩
    · rw [splitLines, lineParts_inside (by simpa using inside)]
      rfl
    · rw [List.splitOnP_cons_eq_if_modifyHead, if_neg inside]
      rfl
  | case5 c cs apart inside line ending more split ih =>
    rcases ih with rfl | ⟨first, rest, rest', lines, parts, same⟩
    · simp [lineParts] at split
    · rw [splitLines, split, List.map_cons, List.cons.injEq] at lines
      obtain ⟨rfl, rfl⟩ := lines
      refine .inr ⟨c :: line, more.map Prod.fst, rest', ?_, ?_, same⟩
      · rw [splitLines, lineParts_inside (by simpa using inside), split]
        rfl
      · rw [List.splitOnP_cons_eq_if_modifyHead, if_neg inside, parts]
        rfl

namespace NoLine

variable {P : List Char → Bool} {x y before after : List Char}

theorem iff_splitOnP (empty : P [] = false) (cs : List Char) :
    NoLine P cs ↔ ∀ line ∈ cs.splitOnP isLineBoundary, P line = false := by
  -- Empty lines do not count, so the two ways to take a text apart do not differ.
  have proper (lines : List (List Char)) :
      (∀ line ∈ lines, P line = false) ↔ ∀ line ∈ lines.filter (· ≠ []), P line = false := by
    refine ⟨fun all line listed => all line (List.mem_filter.mp listed).1,
      fun all line listed => ?_⟩
    by_cases blank : line = []
    · rw [blank, empty]
    · exact all line (List.mem_filter.mpr ⟨listed, decide_eq_true blank⟩)
  rcases splitLines_splitOnP cs with rfl | ⟨first, rest, rest', lines, parts, same⟩
  · rw [List.splitOnP_nil]
    simp [NoLine, splitLines, lineParts, empty]
  · rw [NoLine, lines, parts, List.forall_mem_cons, List.forall_mem_cons, proper rest, proper rest',
      same]

/-- A character that ends a line keeps what is before it from what is after it. -/
theorem append_boundary (empty : P [] = false) {c : Char} (boundary : isLineBoundary c) :
    NoLine P (x ++ c :: y) ↔ NoLine P x ∧ NoLine P y := by
  rw [iff_splitOnP empty, iff_splitOnP empty, iff_splitOnP empty,
    List.splitOnP_append_cons x y boundary, List.forall_mem_append]

theorem nil : NoLine P [] := fun line listed => by cases listed

/-- What is added to a text changes only the line that the text ends in. -/
theorem append_iff (empty : P [] = false) : NoLine P (x ++ y) ↔
    NoLine P (x.rdropWhile isInLine) ∧ NoLine P (lastLine x ++ y) := by
  induction x using List.reverseRecOn generalizing y with
  | nil => simp [lastLine, nil]
  | append_singleton x c ih =>
    by_cases boundary : isLineBoundary c
    · have stops : ¬isInLine c = true := by simp [isInLine, boundary]
      rw [lastLine, List.rdropWhile_concat_neg _ _ _ stops, List.rtakeWhile_concat_neg _ _ _ stops,
        List.nil_append, List.append_assoc, List.singleton_append, append_boundary empty boundary,
        append_boundary empty boundary, and_iff_left nil]
    · have goesOn : isInLine c = true := by simp [isInLine, boundary]
      rw [lastLine, List.rdropWhile_concat_pos _ _ _ goesOn,
        List.rtakeWhile_concat_pos _ _ _ goesOn, List.append_assoc, List.append_assoc]
      exact ih

/-- A text changes only the line that what is added to it begins with. -/
theorem prepend_iff (empty : P [] = false) : NoLine P (x ++ y) ↔
    NoLine P (x ++ firstLine y) ∧ NoLine P (y.dropWhile isInLine) := by
  induction y generalizing x with
  | nil => simp [firstLine, nil]
  | cons c y ih =>
    by_cases boundary : isLineBoundary c
    · have stops : ¬isInLine c = true := by simp [isInLine, boundary]
      rw [firstLine, List.takeWhile_cons_of_neg stops, List.dropWhile_cons_of_neg stops,
        List.append_nil, append_boundary empty boundary]
      have alone := @append_boundary P [] y empty c boundary
      rw [List.nil_append, and_iff_right nil] at alone
      rw [alone]
    · have goesOn : isInLine c = true := by simp [isInLine, boundary]
      rw [firstLine, List.takeWhile_cons_of_pos goesOn, List.dropWhile_cons_of_pos goesOn,
        List.append_cons, List.append_cons x c (List.takeWhile _ y)]
      exact ih

/-- **Splicing.** When a part of a text is replaced, all lines are as before but those of the new
part, with the line before it and the line after it that it is joined to. -/
theorem splice_iff (empty : P [] = false) {old new : List Char}
    (h : NoLine P (before ++ old ++ after)) :
    NoLine P (before ++ new ++ after) ↔ NoLine P (lastLine before ++ new ++ firstLine after) := by
  rw [List.append_assoc, append_iff empty, ← List.append_assoc, prepend_iff empty] at h ⊢
  exact ⟨fun clean => clean.2.1, fun clean => ⟨h.1, clean, h.2.2⟩⟩

end NoLine

/-! ### Reading files -/

/-- Text without carriage returns is read as it is. -/
theorem universalNewlines_eq_self (none : '\r' ∉ cs) : universalNewlines cs = cs := by
  induction cs using universalNewlines.induct with
  | case1 => rfl
  | case2 cs ih => exact absurd (.head _) none
  | case3 c cs apart ih =>
    rw [universalNewlines, ih fun later => none (.tail _ later), if_neg]
    · exact fun same => none (same ▸ .head _)
    · exact apart

/-- No carriage return is left of a file. -/
theorem notMem_universalNewlines : '\r' ∉ universalNewlines cs := by
  induction cs using universalNewlines.induct with
  | case1 => exact List.not_mem_nil
  | case2 cs ih =>
    rw [universalNewlines, List.mem_cons, not_or]
    exact ⟨by decide, ih⟩
  | case3 c cs apart ih =>
    rw [universalNewlines, List.mem_cons, not_or]
    · refine ⟨?_, ih⟩
      split_ifs with carriage
      · decide
      · exact fun same => carriage same.symm
    · exact apart

theorem notMem_readText (text : String) : '\r' ∉ (readText text).toList := by
  rw [readText, String.toList_ofList]
  exact notMem_universalNewlines

/-- A text is read as it was written if it has no carriage return. -/
theorem readText_eq_self_iff {text : String} : readText text = text ↔ '\r' ∉ text.toList := by
  constructor
  · exact fun same => same ▸ notMem_readText text
  · intro none
    rw [readText, universalNewlines_eq_self none, String.ofList_toList]

end AgentLabs.Text
