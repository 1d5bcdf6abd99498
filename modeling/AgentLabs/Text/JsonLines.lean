import AgentLabs.Text.JsonText
import AgentLabs.Text.Lines
import Mathlib.Algebra.Order.BigOperators.Group.List
import Mathlib.Algebra.Order.Ring.Nat

/-!
# JSON records, one to a line

A file of records is written one `json.dumps(record, ensure_ascii=False)` and one
line feed at a time, and read with `str.splitlines`, blank lines skipped. The
writer escapes the control characters below the space, so no line feed stands
inside a record; but it leaves three line boundaries of the reader as they are:
the next-line character and the line and paragraph separators. A record whose
strings have none of them stays one line, any other is cut into at least two.

## Main definitions

* `Json.isRawBreak`: the boundaries that the writer does not escape
* `Json.Unbroken`: values whose strings have none of them
* `recordsText`, `readRecords`: the file of some records, and its reading

## Main results

* `Json.mem_write_iff`: the boundaries in the text of a value
* `readRecords_recordsText_iff`: the records are read back exactly if all are unbroken
-/

namespace AgentLabs.Text

open Math

namespace Json

/-- The line boundaries that the writer leaves as they are. -/
def isRawBreak (c : Char) : Bool := c.toNat == 0x85 || c.toNat == 0x2028 || c.toNat == 0x2029

mutual

/-- The strings of a value, keys included. -/
def strings : Json → List String
  | .str value => [value]
  | .arr items => itemStrings items
  | .obj fields => fieldStrings fields
  | _ => []

/-- The strings of some items. -/
def itemStrings : List Json → List String
  | [] => []
  | x :: xs => strings x ++ itemStrings xs

/-- The strings of some fields. -/
def fieldStrings : List (String × Json) → List String
  | [] => []
  | (key, x) :: xs => key :: (strings x ++ fieldStrings xs)

end

/-- A boundary among the characters that some strings bring into a text. -/
def BreaksIn (c : Char) (texts : List String) : Prop :=
  isRawBreak c ∧ ∃ s ∈ texts, c ∈ s.toList

/-- No string of the value holds a boundary that is left as it is. -/
def Unbroken (j : Json) : Prop := ∀ s ∈ strings j, ∀ c ∈ s.toList, isRawBreak c = false

/-! ### The boundaries in a text -/

variable {c d : Char}

theorem breaksIn_nil : ¬ BreaksIn c [] := by simp [BreaksIn]

theorem breaksIn_append {xs ys : List String} :
    BreaksIn c (xs ++ ys) ↔ BreaksIn c xs ∨ BreaksIn c ys := by
  simp only [BreaksIn, List.mem_append, or_and_right, exists_or, and_or_left]

theorem breaksIn_cons {s : String} {texts : List String} :
    BreaksIn c (s :: texts) ↔ BreaksIn c [s] ∨ BreaksIn c texts :=
  @breaksIn_append c [s] texts

theorem isLineBoundary_of_isRawBreak (raw : isRawBreak c) : isLineBoundary c := by
  simp only [isRawBreak, isLineBoundary, Bool.or_eq_true, Bool.and_eq_true] at raw ⊢
  tauto

/-- The characters of a list are inside a line, as a test. -/
theorem inside_of_all {cs : List Char} (all : (cs.all fun x => !isLineBoundary x) = true) :
    ∀ x ∈ cs, isLineBoundary x = false := by
  simpa only [List.all_eq_true, Bool.not_eq_true'] using all

/-- A character is left as it is, or spelled with characters that end no line. -/
theorem escapeChar_cases (d : Char) :
    escapeChar d = [d] ∧ 32 ≤ d.toNat ∨
      isRawBreak d = false ∧ ∀ x ∈ escapeChar d, isLineBoundary x = false := by
  unfold escapeChar
  by_cases quoted : d = '"'
  · subst quoted
    exact .inr ⟨by decide, inside_of_all (by decide)⟩
  by_cases slash : d = '\\'
  · subst slash
    exact .inr ⟨by decide, inside_of_all (by decide)⟩
  by_cases newline : d = '\n'
  · subst newline
    exact .inr ⟨by decide, inside_of_all (by decide)⟩
  by_cases return' : d = '\r'
  · subst return'
    exact .inr ⟨by decide, inside_of_all (by decide)⟩
  by_cases tab : d = '\t'
  · subst tab
    exact .inr ⟨by decide, inside_of_all (by decide)⟩
  simp only [quoted, slash, newline, return', tab, if_false]
  -- The breaks that the writer leaves as they are all come after the control characters.
  have small : ∀ {n : ℕ}, d.toNat = n → n < 32 → isRawBreak d = false := fun same less => by
    simp only [isRawBreak, Bool.or_eq_false_iff, beq_eq_false_iff_ne]
    omega
  by_cases bell : d.toNat = 8
  · rw [if_pos bell]
    exact .inr ⟨small bell (by decide), inside_of_all (by decide)⟩
  by_cases feed : d.toNat = 12
  · rw [if_neg bell, if_pos feed]
    exact .inr ⟨small feed (by decide), inside_of_all (by decide)⟩
  rw [if_neg bell, if_neg feed]
  by_cases control : d.toNat < 32
  · have digits : ∀ n < 32, (['\\', 'u', '0', '0', Nat.digitChar (n / 16),
        Nat.digitChar (n % 16)].all fun x => !isLineBoundary x) = true := by decide
    rw [if_pos control]
    exact .inr ⟨small rfl control, inside_of_all (digits d.toNat control)⟩
  · rw [if_neg control]
    exact .inl ⟨rfl, by omega⟩

/-- A boundary in an escaped character is that character itself. -/
theorem mem_escapeChar_iff (boundary : isLineBoundary c) :
    c ∈ escapeChar d ↔ isRawBreak c ∧ c = d := by
  rcases escapeChar_cases d with ⟨self, printable⟩ | ⟨noBreak, inside⟩
  · rw [self, List.mem_singleton]
    refine ⟨fun same => ⟨?_, same⟩, And.right⟩
    subst same
    simp only [isLineBoundary, isRawBreak, Bool.or_eq_true, Bool.and_eq_true, decide_eq_true_eq,
      beq_iff_eq] at boundary ⊢
    omega
  · constructor
    · intro member
      rw [inside c member] at boundary
      exact absurd boundary (by decide)
    · rintro ⟨raw, rfl⟩
      rw [noBreak] at raw
      exact absurd raw (by decide)

/-- Text without boundaries has no boundary in it. -/
theorem notMem_of_inside {cs : List Char} (inside : ∀ x ∈ cs, isLineBoundary x = false)
    (boundary : isLineBoundary c) : c ∉ cs := fun member => by
  rw [inside c member] at boundary
  exact absurd boundary (by decide)

theorem mem_quote_iff (boundary : isLineBoundary c) {s : String} :
    c ∈ quote s ↔ BreaksIn c [s] := by
  have mark : c ≠ '"' := fun same => by
    subst same
    exact absurd boundary (by decide)
  simp only [quote, List.mem_cons, mark, false_or, List.mem_append, List.mem_flatMap,
    mem_escapeChar_iff boundary, List.not_mem_nil, or_false, BreaksIn, exists_eq_left]
  exact ⟨fun ⟨d, member, raw, same⟩ => ⟨raw, same ▸ member⟩,
    fun ⟨raw, member⟩ => ⟨c, member, raw, rfl⟩⟩

theorem notMem_decimal (boundary : isLineBoundary c) (i : Int) : c ∉ decimal i := by
  refine notMem_of_inside (fun x member => ?_) boundary
  have digit : x = '-' ∨ x.isDigit := by
    unfold decimal at member
    split_ifs at member
    · exact (List.mem_cons.mp member).imp id fun later => isDigit_toDigits _ x later
    · exact .inr (isDigit_toDigits _ x member)
  rcases digit with rfl | digit
  · decide
  · simp only [Char.isDigit, Bool.and_eq_true, decide_eq_true_eq] at digit
    have low : 48 ≤ x.toNat := digit.1
    have high : x.toNat ≤ 57 := digit.2
    simp only [isLineBoundary, Bool.or_eq_false_iff, Bool.and_eq_false_iff, decide_eq_false_iff_not,
      beq_eq_false_iff_ne]
    omega

mutual

/-- A text of plain characters holds no boundary, and no string breaks in it. -/
theorem mem_iff_of_all (boundary : isLineBoundary c) {text : List Char}
    (plain : text.all fun d => !isLineBoundary d) : c ∈ text ↔ BreaksIn c [] :=
  iff_of_false (notMem_of_inside (inside_of_all plain) boundary) breaksIn_nil

/-- **The boundaries in the text of a value** are those that its strings hold and
the writer leaves as they are. -/
theorem mem_write_iff (boundary : isLineBoundary c) : ∀ (j : Json) (depth : ℕ), isPlain j →
    (c ∈ write none depth j ↔ BreaksIn c (strings j))
  | .null, _, _ => by
    simp only [write, strings]
    exact mem_iff_of_all boundary (by decide)
  | .bool true, _, _ => by
    simp only [write, strings]
    exact mem_iff_of_all boundary (by decide)
  | .bool false, _, _ => by
    simp only [write, strings]
    exact mem_iff_of_all boundary (by decide)
  | .int value, _, _ => by
    simp only [write, strings, breaksIn_nil, iff_false]
    exact notMem_decimal boundary value
  -- A plain value holds no float.
  | .float _, _, plain => by simp [isPlain] at plain
  | .str value, _, _ => by simp only [write, strings, mem_quote_iff boundary]
  | .arr [], _, _ => by
    simp only [write, strings, itemStrings]
    exact mem_iff_of_all boundary (by decide)
  | .arr (x :: xs), depth, plain => by
    simp only [isPlain, arePlain, Bool.and_eq_true] at plain
    have first := mem_write_iff boundary x (depth + 1) plain.1
    have others := mem_writeItems_iff boundary xs (depth + 1) plain.2
    -- No mark that the writer adds ends a line, so only the strings are left.
    have brackets : c ∉ ['[', ']'] := notMem_of_inside (inside_of_all (by decide)) boundary
    simp only [List.mem_cons, List.not_mem_nil, or_false, not_or] at brackets
    simp only [write, lineBreak, List.nil_append, List.mem_cons, List.mem_append, first, others,
      brackets, strings, itemStrings, breaksIn_append, List.not_mem_nil, false_or, or_false]
  | .obj [], _, _ => by
    simp only [write, strings, fieldStrings]
    exact mem_iff_of_all boundary (by decide)
  | .obj ((key, x) :: xs), depth, plain => by
    simp only [isPlain, fieldsArePlain, Bool.and_eq_true] at plain
    have first := mem_write_iff boundary x (depth + 1) plain.2.1
    have others := mem_writeFields_iff boundary xs (depth + 1) plain.2.2
    have marks : c ∉ ['{', '}', ':', ' '] := notMem_of_inside (inside_of_all (by decide)) boundary
    simp only [List.mem_cons, List.not_mem_nil, or_false, not_or] at marks
    simp only [write, lineBreak, List.nil_append, List.mem_cons, List.mem_append, first, others,
      mem_quote_iff boundary, marks, strings, fieldStrings, List.not_mem_nil, false_or, or_false]
    exact (breaksIn_cons.trans (or_congr_right breaksIn_append)).symm

/-- The boundaries in further items. -/
theorem mem_writeItems_iff (boundary : isLineBoundary c) : ∀ (xs : List Json) (depth : ℕ),
    arePlain xs → (c ∈ writeItems none depth xs ↔ BreaksIn c (itemStrings xs))
  | [], _, _ => by simp only [writeItems, itemStrings, breaksIn_nil, List.not_mem_nil]
  | x :: xs, depth, plain => by
    simp only [arePlain, Bool.and_eq_true] at plain
    have first := mem_write_iff boundary x depth plain.1
    have others := mem_writeItems_iff boundary xs depth plain.2
    have between : c ∉ separator none depth := notMem_of_inside (inside_of_all rfl) boundary
    simp only [writeItems, itemStrings, List.mem_append, first, others, between, false_or,
      breaksIn_append]

/-- The boundaries in further fields. -/
theorem mem_writeFields_iff (boundary : isLineBoundary c) : ∀ (xs : List (String × Json))
    (depth : ℕ), fieldsArePlain xs → (c ∈ writeFields none depth xs ↔ BreaksIn c (fieldStrings xs))
  | [], _, _ => by simp only [writeFields, fieldStrings, breaksIn_nil, List.not_mem_nil]
  | (key, x) :: xs, depth, plain => by
    simp only [fieldsArePlain, Bool.and_eq_true] at plain
    have first := mem_write_iff boundary x depth plain.1
    have others := mem_writeFields_iff boundary xs depth plain.2
    have between : c ∉ separator none depth := notMem_of_inside (inside_of_all rfl) boundary
    have marks : c ∉ [':', ' '] := notMem_of_inside (inside_of_all (by decide)) boundary
    simp only [List.mem_cons, List.not_mem_nil, or_false, not_or] at marks
    simp only [writeFields, List.mem_append, List.mem_cons, between, mem_quote_iff boundary, first,
      others, marks, fieldStrings, false_or]
    exact (breaksIn_cons.trans (or_congr_right breaksIn_append)).symm

end

/-- The first and the last character of a text are not whitespace. -/
structure SolidEnds (cs : List Char) : Prop where
  first : ∃ c ∈ cs.head?, isSpace c = false
  last : ∃ c ∈ cs.getLast?, isSpace c = false

theorem isSpace_of_isLineBoundary (boundary : isLineBoundary c) : isSpace c := by
  simp only [isLineBoundary, isSpace, Bool.or_eq_true, Bool.and_eq_true, decide_eq_true_eq,
    beq_iff_eq] at boundary ⊢
  omega

theorem isSpace_of_isDigit (digit : c.isDigit) : isSpace c = false := by
  simp only [Char.isDigit, Bool.and_eq_true, decide_eq_true_eq] at digit
  have low : 48 ≤ c.toNat := digit.1
  have high : c.toNat ≤ 57 := digit.2
  simp only [isSpace, Bool.or_eq_false_iff, Bool.and_eq_false_iff, decide_eq_false_iff_not,
    beq_eq_false_iff_ne]
  omega

theorem solidEnds_decimal (i : Int) : SolidEnds (decimal i) := by
  have digits : ∀ c ∈ Nat.toDigits 10 i.natAbs, isSpace c = false := fun c member =>
    isSpace_of_isDigit (isDigit_toDigits _ c member)
  have some' := Nat.toDigits_ne_nil (n := i.natAbs) (b := 10)
  have whole : SolidEnds (Nat.toDigits 10 i.natAbs) :=
    ⟨⟨_, List.head?_eq_some_head some', digits _ (List.head_mem some')⟩,
      ⟨_, List.getLast?_eq_some_getLast some', digits _ (List.getLast_mem some')⟩⟩
  unfold decimal
  split_ifs
  · obtain ⟨c, last, solid⟩ := whole.last
    exact ⟨⟨'-', rfl, by decide⟩, ⟨c, by rw [List.getLast?_cons, last]; rfl, solid⟩⟩
  · exact whole

/-- A text between two marks that are not whitespace. -/
theorem solidEnds_between (a b : Char) (cs : List Char) (left : isSpace a = false)
    (right : isSpace b = false) : SolidEnds (a :: (cs ++ [b])) :=
  ⟨⟨a, rfl, left⟩, ⟨b, by rw [← List.cons_append]; exact List.getLast?_concat, right⟩⟩

/-- The text of a value starts and ends with a character that is not whitespace. -/
theorem solidEnds_write (depth : ℕ) {j : Json} (plain : isPlain j) :
    SolidEnds (write none depth j) := by
  cases j with
  | null => exact ⟨⟨'n', rfl, by decide⟩, ⟨'l', rfl, by decide⟩⟩
  | bool value =>
    cases value
    exacts [⟨⟨'f', rfl, by decide⟩, ⟨'e', rfl, by decide⟩⟩,
      ⟨⟨'t', rfl, by decide⟩, ⟨'e', rfl, by decide⟩⟩]
  | int value =>
    rw [write]
    exact solidEnds_decimal value
  | float spelling => simp [isPlain] at plain
  | str value =>
    rw [write]
    exact solidEnds_between _ _ _ (by decide) (by decide)
  -- The brackets are the ends, whatever stands between them.
  | arr items =>
    cases items with
    | nil =>
      rw [write]
      exact solidEnds_between '[' ']' [] (by decide) (by decide)
    | cons x xs =>
      rw [write, lineBreak, lineBreak, List.nil_append, List.nil_append, ← List.append_assoc]
      exact solidEnds_between _ _ _ (by decide) (by decide)
  | obj fields =>
    cases fields with
    | nil =>
      rw [write]
      exact solidEnds_between '{' '}' [] (by decide) (by decide)
    | cons field xs =>
      rw [write, lineBreak, lineBreak, List.nil_append, List.nil_append]
      simp only [← List.append_assoc, ← List.cons_append]
      exact solidEnds_between _ _ _ (by decide) (by decide)

end Json

open Json

/-! ### Files of records -/

/-- A record as it is appended to a file. -/
def recordLine (j : Json) : String := dumps j ++ "\n"

/-- The file of some records. -/
def recordsText (records : List Json) : String := String.join (records.map recordLine)

/-- The lines of a file that are not blank. -/
def recordTexts (cs : List Char) : List String :=
  ((splitLines cs).map String.ofList).filter fun line => !isBlank line

/-- `[json.loads(line) for line in file.read_text().splitlines() if line.strip()]`;
`none` where a line is no JSON. -/
def readRecords (text : String) : Option (List Json) :=
  (recordTexts (universalNewlines text.toList)).mapM loads

variable {j : Json} {records : List Json}

theorem toList_recordLine (j : Json) : (recordLine j).toList = write none 0 j ++ ['\n'] := by
  rw [recordLine, String.toList_append, dumps, String.toList_ofList]
  rfl

theorem toList_recordsText (records : List Json) :
    (recordsText records).toList = records.flatMap fun j => write none 0 j ++ ['\n'] := by
  simp only [recordsText, String.toList_join, List.flatMap_map, toList_recordLine]

theorem recordsText_cons (j : Json) (records : List Json) :
    recordsText (j :: records) = recordLine j ++ recordsText records := by
  apply String.toList_inj.mp
  simp only [String.toList_append, toList_recordsText, toList_recordLine, List.flatMap_cons]

/-- The lines of a file are those of each record on its own. -/
theorem recordTexts_recordsText (records : List Json) :
    recordTexts (recordsText records).toList =
      records.flatMap fun j => recordTexts (recordLine j).toList := by
  rw [toList_recordsText]
  induction records with
  | nil => rfl
  | cons j rest ih =>
    rw [List.flatMap_cons, List.flatMap_cons, ← ih, toList_recordLine, List.append_assoc,
      List.singleton_append, recordTexts, splitLines, lineParts_closed]
    simp only [List.map_append, List.filter_append]
    rfl

/-- A text with a character that is no whitespace has a line that is not blank. -/
theorem recordTexts_ne_nil {cs : List Char} {c : Char} (member : c ∈ cs)
    (solid : isSpace c = false) : recordTexts cs ≠ [] := by
  have inside : isLineBoundary c = false := by
    by_contra boundary
    rw [isSpace_of_isLineBoundary (by simpa using boundary)] at solid
    exact absurd solid (by decide)
  obtain ⟨line, listed, member⟩ := exists_line_of_mem member inside
  refine List.ne_nil_of_mem (a := String.ofList line) (List.mem_filter.mpr ⟨?_, ?_⟩)
  · exact List.mem_map_of_mem listed
  · rw [isBlank_of_mem (c := c) (by rwa [String.toList_ofList]) solid]
    rfl

/-- An unbroken record is one line. -/
theorem recordTexts_of_unbroken (plain : isPlain j) (unbroken : Unbroken j) :
    recordTexts (recordLine j).toList = [dumps j] := by
  have inside : ∀ c ∈ write none 0 j, isLineBoundary c = false := by
    intro c member
    by_contra boundary
    obtain ⟨raw, s, listed, inString⟩ :=
      (mem_write_iff (by simpa using boundary) j 0 plain).mp member
    rw [unbroken s listed c inString] at raw
    exact absurd raw (by decide)
  obtain ⟨first, head, solid⟩ := (solidEnds_write 0 plain).first
  have visible : isBlank (dumps j) = false := by
    refine isBlank_of_mem (c := first) ?_ solid
    rw [dumps, String.toList_ofList]
    exact List.mem_of_mem_head? head
  rw [toList_recordLine, recordTexts, splitLines, lineParts_line inside (by decide) (by decide)]
  simp only [lineParts, List.map_cons, List.map_nil]
  rw [List.filter_cons_of_pos]
  · rfl
  · rw [← dumps, visible]
    rfl

/-- The first boundary cuts a record: the line before it is not blank, and there are more lines,
since the text ends in no boundary. -/
theorem recordTexts_of_broken (plain : isPlain j) (broken : ¬ Unbroken j) :
    ∃ line c rest, write none 0 j = line ++ c :: rest ∧ isRawBreak c ∧
      recordTexts (recordLine j).toList = String.ofList line :: recordTexts (rest ++ ['\n']) ∧
      recordTexts (rest ++ ['\n']) ≠ [] := by
  -- Cut the text at its first boundary.
  obtain ⟨c, cut⟩ : ∃ c, (write none 0 j).find? isLineBoundary = some c := by
    simp only [Unbroken, not_forall, Bool.not_eq_false] at broken
    obtain ⟨s, listed, c, member, raw⟩ := broken
    have boundary := isLineBoundary_of_isRawBreak raw
    rw [← Option.isSome_iff_exists, List.find?_isSome]
    exact ⟨c, (mem_write_iff boundary j 0 plain).mpr ⟨raw, s, listed, member⟩, boundary⟩
  have member := List.mem_of_find?_eq_some cut
  obtain ⟨boundary, line, rest, split, before⟩ := List.find?_eq_some_iff_append.mp cut
  have raw := ((mem_write_iff boundary j 0 plain).mp member).1
  have notReturn : c ≠ '\r' := fun same => by
    subst same
    exact absurd raw (by decide)
  obtain ⟨⟨first, head, firstSolid⟩, ⟨last, final, lastSolid⟩⟩ := solidEnds_write 0 plain
  have space := isSpace_of_isLineBoundary boundary
  rw [split] at head final
  -- The first character stands before the cut, the last one after it.
  have inLine : first ∈ line := by
    cases line with
    | nil =>
      obtain rfl : c = first := by simpa using head
      exact absurd space (by simp [firstSolid])
    | cons d line =>
      obtain rfl : d = first := by simpa using head
      exact .head _
  have inRest : last ∈ rest ++ ['\n'] := by
    rw [List.getLast?_append_cons, List.getLast?_cons] at final
    cases tail : rest.getLast? with
    | none =>
      obtain rfl : c = last := by simpa [tail] using final
      exact absurd space (by simp [lastSolid])
    | some d =>
      obtain rfl : d = last := by simpa [tail] using final
      exact List.mem_append_left _ (List.mem_of_getLast? tail)
  have visible : isBlank (String.ofList line) = false :=
    isBlank_of_mem (by rwa [String.toList_ofList]) firstSolid
  have inside : ∀ c ∈ line, isLineBoundary c = false := fun c member => by
    simpa using before c member
  have parts : recordTexts (recordLine j).toList =
      String.ofList line :: recordTexts (rest ++ ['\n']) := by
    rw [toList_recordLine, split, List.append_assoc, List.cons_append, recordTexts, splitLines,
      lineParts_line inside boundary notReturn, List.map_cons, List.map_cons,
      List.filter_cons_of_pos (by rw [visible]; rfl)]
    rfl
  exact ⟨line, c, rest, split, raw, parts, recordTexts_ne_nil inRest lastSolid⟩

/-- A boundary cuts a record into at least two lines that are not blank. -/
theorem two_le_length_recordTexts (plain : isPlain j) (broken : ¬ Unbroken j) :
    2 ≤ (recordTexts (recordLine j).toList).length := by
  obtain ⟨line, c, rest, -, -, parts, more⟩ := recordTexts_of_broken plain broken
  have later := List.length_pos_of_ne_nil more
  rw [parts, List.length_cons]
  omega

theorem length_of_mapM_loads {lines : List String} {values : List Json}
    (read : lines.mapM loads = some values) : values.length = lines.length := by
  induction lines generalizing values with
  | nil =>
    obtain rfl : [] = values := by simpa using read
    rfl
  | cons line lines ih =>
    simp only [List.mapM_cons, Option.bind_eq_bind, Option.bind_eq_some_iff, Option.pure_def,
      Option.some.injEq] at read
    obtain ⟨value, -, more, later, rfl⟩ := read
    rw [List.length_cons, ih later, List.length_cons]

theorem mapM_loads_dumps (plain : ∀ j ∈ records, isPlain j) :
    (records.map dumps).mapM loads = some records := by
  induction records with
  | nil => rfl
  | cons j rest ih =>
    rw [List.map_cons, List.mapM_cons, loads_dumps (plain j (.head _)),
      ih fun j member => plain j (.tail _ member)]
    rfl

/-- Files of plain records hold no carriage return. -/
theorem universalNewlines_recordsText (plain : ∀ j ∈ records, isPlain j) :
    universalNewlines (recordsText records).toList = (recordsText records).toList := by
  refine universalNewlines_eq_self fun member => ?_
  rw [toList_recordsText, List.mem_flatMap] at member
  obtain ⟨j, listed, member⟩ := member
  rcases List.mem_append.mp member with text | feed
  · have raw := ((mem_write_iff (by decide) j 0 (plain j listed)).mp text).1
    exact absurd raw (by decide)
  · exact absurd (List.mem_singleton.mp feed) (by decide)

/-- **Records are read back exactly if all of them are unbroken.** A broken record
makes more lines than there are records. -/
theorem readRecords_recordsText_iff (plain : ∀ j ∈ records, isPlain j) :
    readRecords (recordsText records) = some records ↔ ∀ j ∈ records, Unbroken j := by
  rw [readRecords, universalNewlines_recordsText plain, recordTexts_recordsText]
  constructor
  · intro read j member
    by_contra broken
    have count := length_of_mapM_loads read
    rw [List.length_flatMap] at count
    -- Every record makes a line at least, and a broken one two.
    have least : ∀ j ∈ records, 1 ≤ (recordTexts (recordLine j).toList).length := by
      intro j member
      by_cases whole : Unbroken j
      · rw [recordTexts_of_unbroken (plain j member) whole]
        exact le_rfl
      · exact le_trans (by decide) (two_le_length_recordTexts (plain j member) whole)
    have less : (records.map fun _ => 1).sum <
        (records.map fun j => (recordTexts (recordLine j).toList).length).sum :=
      List.sum_lt_sum _ _ least ⟨j, member, two_le_length_recordTexts (plain j member) broken⟩
    simp only [List.map_const', List.sum_replicate, Nat.nsmul_eq_mul, mul_one] at less
    omega
  · intro unbroken
    have lines : (records.flatMap fun j => recordTexts (recordLine j).toList) = records.map dumps :=
      (List.flatMap_congr fun j member =>
        recordTexts_of_unbroken (plain j member) (unbroken j member)).trans List.map_eq_flatMap.symm
    rw [lines, mapM_loads_dumps plain]

end AgentLabs.Text
