import AgentLabs.Text.JsonLines
import AgentLabs.Text.JsonReread

/-!
# A value at the front of a text

A value that is read at the front of a text is read in the same way when more text follows. Only a
number could go on, so what follows it must already stop it. An object ends at its bracket, and so
no proper beginning of its text, up to something that is not whitespace, is the text of a value.

A record that is cut by one of the boundaries that the writer leaves as they are is therefore not
read as something else: the reading of the file fails.

## Main definitions

* `Json.Stops`: what is next does not go on with a number
* `Json.ValueExtends`: a value is read in the same way when more follows

## Main results

* `Json.parse_extend`: a value at the front of a text stays when more follows
* `Json.loads_eq_none_of_cut`: no beginning of an object is the text of a value
* `readRecords_eq_none`: a file in which an object is cut is not read
-/

namespace AgentLabs.Text

open Math

namespace Json

/-- Something is next that does not go on with a number. -/
def Stops (rest : List Char) : Prop :=
  ∃ c more, rest = c :: more ∧ c.isDigit = false ∧ c ≠ '.' ∧ c ≠ 'e' ∧ c ≠ 'E'

section Numbers

variable {cs rest more : List Char} {j : Json}

theorem Stops.ne_nil (stops : Stops rest) : rest ≠ [] := by
  obtain ⟨c, more, rfl, -⟩ := stops
  exact List.cons_ne_nil c more

theorem spanDigits_extend (some : (spanDigits cs).2 ≠ []) (more : List Char) :
    spanDigits (cs ++ more) = ((spanDigits cs).1, (spanDigits cs).2 ++ more) := by
  have unfinished : ¬ (cs.takeWhile Char.isDigit).length = cs.length := fun whole => by
    refine some (List.dropWhile_eq_nil_iff.mpr fun c member => ?_)
    have same := (List.takeWhile_prefix Char.isDigit).eq_of_length whole
    rw [← same] at member
    exact List.mem_takeWhile_imp member
  have left : ¬ (cs.dropWhile Char.isDigit).isEmpty := fun none =>
    some (List.isEmpty_iff.mp none)
  rw [spanDigits, List.takeWhile_append, if_neg unfinished, List.dropWhile_append, if_neg left]
  rfl

theorem spanInteger_extend (some : (spanInteger cs).2 ≠ []) (more : List Char) :
    spanInteger (cs ++ more) = ((spanInteger cs).1, (spanInteger cs).2 ++ more) := by
  by_cases zero : ∃ after, cs = '0' :: after
  · obtain ⟨after, rfl⟩ := zero
    rfl
  have same : ∀ {text : List Char}, (¬ ∃ after, text = '0' :: after) →
      spanInteger text = spanDigits text := by
    intro text other
    unfold spanInteger
    split
    · exact absurd ⟨_, rfl⟩ other
    · rfl
  rw [same zero] at some ⊢
  rw [same, spanDigits_extend some]
  rintro ⟨after, begins⟩
  cases cs with
  | nil => exact some rfl
  | cons c rest => exact zero ⟨rest, by rw [(List.cons.inj begins).1]⟩

theorem spanSign_extend (some : (spanSign cs).2 ≠ []) (more : List Char) :
    spanSign (cs ++ more) = ((spanSign cs).1, (spanSign cs).2 ++ more) := by
  cases cs with
  | nil => exact absurd rfl some
  | cons c rest =>
    simp only [List.cons_append, spanSign]
    split_ifs <;> rfl

theorem spanExponent_extend (stops : Stops (spanExponent cs).2) (more : List Char) :
    spanExponent (cs ++ more) = ((spanExponent cs).1, (spanExponent cs).2 ++ more) := by
  cases cs with
  | nil => exact absurd rfl stops.ne_nil
  | cons e rest =>
    simp only [spanExponent] at stops
    by_cases letter : e = 'e' ∨ e = 'E'
    swap
    · simp [spanExponent, letter]
    by_cases digits : (spanDigits (spanSign rest).2).1 = []
    · -- A letter that is left over would go on with the number.
      rw [if_neg fun both => both.2 digits] at stops
      obtain ⟨c, after, same, -, -, notSmall, notCapital⟩ := stops
      rw [(List.cons.inj same).1] at letter
      exact absurd letter (not_or.mpr ⟨notSmall, notCapital⟩)
    · have signed : (spanSign rest).2 ≠ [] := by
        intro none
        rw [none] at digits
        exact digits rfl
      have kept : (spanDigits (spanSign rest).2).2 ≠ [] := by
        have left := stops.ne_nil
        simpa [letter, digits] using left
      simp [spanExponent, letter, digits, spanSign_extend signed more, spanDigits_extend kept more]

theorem spanPoint_extend (stops : Stops (spanExponent (spanPoint cs).2).2) (more : List Char) :
    spanPoint (cs ++ more) = ((spanPoint cs).1, (spanPoint cs).2 ++ more) := by
  by_cases point : ∃ after, cs = '.' :: after
  swap
  · have same : ∀ {text : List Char}, (¬ ∃ after, text = '.' :: after) →
        spanPoint text = ([], text) := by
      intro text other
      unfold spanPoint
      split
      · exact absurd ⟨_, rfl⟩ other
      · rfl
    rw [same point] at stops
    rw [same point, same]
    rintro ⟨after, begins⟩
    cases cs with
    | nil => exact stops.ne_nil rfl
    | cons c rest => exact point ⟨rest, by rw [(List.cons.inj begins).1]⟩
  obtain ⟨after, rfl⟩ := point
  rw [spanPoint] at stops
  by_cases digits : (spanDigits after).1 = []
  · -- A point that is left over would go on with the number.
    rw [if_pos digits] at stops
    obtain ⟨c, rest, same, -, other, -⟩ := stops
    exact absurd (List.cons.inj same).1.symm other
  · rw [if_neg digits] at stops
    have kept : (spanDigits after).2 ≠ [] := by
      intro none
      rw [none] at stops
      exact stops.ne_nil rfl
    simp [spanPoint, digits, spanDigits_extend kept more]

theorem spanFraction_extend (stops : Stops (spanFraction cs).2) (more : List Char) :
    spanFraction (cs ++ more) = ((spanFraction cs).1, (spanFraction cs).2 ++ more) := by
  rw [spanFraction_eq] at stops
  rw [spanFraction_eq, spanPoint_extend stops, spanExponent_extend stops, spanFraction_eq]

theorem parseUnsigned_extend {sign : List Char} (read : parseUnsigned sign cs = some (j, rest))
    (stops : Stops rest) (more : List Char) :
    parseUnsigned sign (cs ++ more) = some (j, rest ++ more) := by
  simp only [parseUnsigned] at read
  by_cases digits : (spanInteger cs).1 = []
  · rw [if_pos digits] at read
    cases read
  rw [if_neg digits] at read
  have rest_eq : (spanFraction (spanInteger cs).2).2 = rest := by
    split_ifs at read <;> cases read <;> rfl
  subst rest_eq
  have kept : (spanInteger cs).2 ≠ [] := by
    intro none
    rw [none] at stops
    exact stops.ne_nil rfl
  simp only [parseUnsigned, spanInteger_extend kept, if_neg digits, spanFraction_extend stops]
  split_ifs at read ⊢ <;> cases read <;> rfl

theorem dropLiteral_extend {literal : List Char} (read : dropLiteral? literal cs = some rest)
    (more : List Char) : dropLiteral? literal (cs ++ more) = some (rest ++ more) := by
  unfold dropLiteral? at read ⊢
  split_ifs at read with front
  cases read
  rw [List.isPrefixOf_iff_prefix] at front
  rw [if_pos (List.isPrefixOf_iff_prefix.mpr (front.trans (List.prefix_append cs more))),
    List.drop_append_of_le_length front.length_le]

/-- An unsigned number begins with a digit. -/
theorem head_of_parseUnsigned {sign : List Char} (read : parseUnsigned sign cs = some (j, rest)) :
    ∃ d after, cs = d :: after ∧ d.isDigit := by
  simp only [parseUnsigned] at read
  by_cases digits : (spanInteger cs).1 = []
  · rw [if_pos digits] at read
    cases read
  cases cs with
  | nil => exact absurd rfl digits
  | cons d after =>
    refine ⟨d, after, rfl, ?_⟩
    by_contra other
    refine digits ?_
    unfold spanInteger
    split
    · rename_i same
      exact absurd (by rw [(List.cons.inj same).1]; decide) other
    · simp [spanDigits, other]

theorem parseNumber_extend (read : parseNumber cs = some (j, rest)) (stops : Stops rest)
    (more : List Char) : parseNumber (cs ++ more) = some (j, rest ++ more) := by
  cases cs with
  | nil => cases read
  | cons c after =>
    simp only [parseNumber, List.cons_append] at read ⊢
    split_ifs at read ⊢ with minus capN capI
    · cases named : dropLiteral? "Infinity".toList after with
      | some left =>
        rw [named] at read
        cases read
        rw [dropLiteral_extend named more]
      | none =>
        rw [named] at read
        have numeral := parseUnsigned_extend read stops more
        obtain ⟨d, digits, text, digit⟩ := head_of_parseUnsigned read
        -- The text after the minus starts with a digit, so no `Infinity` appears with more behind.
        have noName : dropLiteral? "Infinity".toList (after ++ more) = none := by
          rw [text]
          simp [dropLiteral?, (ne_of_isDigit digit).2.2.1.symm]
        rw [noName]
        exact numeral
    · obtain ⟨left, found, same⟩ := Option.map_eq_some_iff.mp read
      cases same
      rw [← List.cons_append, dropLiteral_extend found more, Option.map_some]
    · obtain ⟨left, found, same⟩ := Option.map_eq_some_iff.mp read
      cases same
      rw [← List.cons_append, dropLiteral_extend found more, Option.map_some]
    · exact parseUnsigned_extend read stops more

end Numbers

/-! ### Values -/

section Values

/-- What is made of the rest of a literal is made of it with more after it. -/
theorem map_extend {cs more text rest : List Char} {c : Char}
    (ih : ∀ text rest, scanString cs = some (text, rest) →
      scanString (cs ++ more) = some (text, rest ++ more))
    (read : (scanString cs).map (fun p => (c :: p.1, p.2)) = some (text, rest)) :
    (scanString (cs ++ more)).map (fun p => (c :: p.1, p.2)) = some (text, rest ++ more) := by
  obtain ⟨⟨text', rest'⟩, found, same⟩ := Option.map_eq_some_iff.mp read
  cases same
  rw [ih text' rest' found, Option.map_some]

/-- A literal ends at its quote, whatever follows. -/
theorem scanString_extend (cs more : List Char) : ∀ text rest,
    scanString cs = some (text, rest) → scanString (cs ++ more) = some (text, rest ++ more) := by
  fun_induction scanString cs with
  | case2 =>
    rintro text rest ⟨⟩
    rfl
  | case5 a b c d code known surrogate a' b' c' d' rest' code' known' pair ih =>
    intro text rest read
    simp only [List.cons_append, scanString, known, known', if_pos surrogate, if_pos pair]
    exact map_extend ih read
  | case8 a b c d rest code known single ih =>
    intro text rest' read
    simp only [List.cons_append, scanString, known, if_neg single]
    exact map_extend ih read
  | case10 e rest _ c known ih =>
    intro text rest' read
    -- `u` is no short escape, so this is not the branch of the four digits.
    have letter : e ≠ 'u' := by
      rintro rfl
      have none : unescape? 'u' = none := by decide
      rw [none] at known
      cases known
    simp only [List.cons_append]
    rw [scanString.eq_4 _ _ fun _ _ _ _ _ same _ => letter same, known]
    exact map_extend ih read
  | case12 c rest quoted _ escaped printable ih =>
    intro text rest' read
    -- A lone backslash at the end is no literal, so this is not an escape.
    have slash : c ≠ '\\' := by
      rintro rfl
      cases rest with
      | nil => cases read
      | cons e more => exact escaped e more rfl rfl
    simp only [List.cons_append]
    rw [scanString.eq_5 _ _ quoted (fun _ _ _ _ _ same _ => slash same) fun _ _ same _ =>
      slash same, if_neg printable]
    exact map_extend ih read
  | _ => intro text rest read; cases read

theorem skipSpace_extend {cs : List Char} (some : skipSpace cs ≠ []) (more : List Char) :
    skipSpace (cs ++ more) = skipSpace cs ++ more := by
  have left : ¬ (cs.dropWhile isJsonSpace).isEmpty := fun none => some (List.isEmpty_iff.mp none)
  rw [skipSpace, List.dropWhile_append, if_neg left, skipSpace]

theorem skipSpace_extend_cons {cs rest : List Char} {c : Char} (next : skipSpace cs = c :: rest)
    (more : List Char) : skipSpace (cs ++ more) = c :: (rest ++ more) := by
  rw [skipSpace_extend (by simp [next]), next, List.cons_append]

/-- Items and fields are not read from nothing. -/
theorem ne_nil_of_parse {fuel : ℕ} {cs : List Char} {result : Json × List Char} :
    (∀ {items}, parseItems fuel items cs = some result → cs ≠ []) ∧
      ∀ {fields}, parseFields fuel fields cs = some result → cs ≠ [] := by
  constructor
  · rintro items read rfl
    obtain _ | _ | fuel := fuel <;> simp [parseItems, parseValue] at read
  · rintro fields read rfl
    cases fuel <;> simp [parseFields] at read

/-- What is in front of a mark of the format stops a number. -/
theorem stops_of_skipSpace {rest after : List Char} {c : Char} (next : skipSpace rest = c :: after)
    (mark : c = ',' ∨ c = ']' ∨ c = '}') : Stops rest := by
  cases rest with
  | nil => cases next
  | cons d more =>
    refine ⟨d, more, rfl, ?_⟩
    by_cases blank : isJsonSpace d
    · simp only [isJsonSpace, Bool.or_eq_true, decide_eq_true_eq] at blank
      rcases blank with ((rfl | rfl) | rfl) | rfl <;> decide
    · rw [skipSpace_cons (by simpa using blank)] at next
      rw [(List.cons.inj next).1]
      rcases mark with rfl | rfl | rfl <;> decide

/-- A value at the front of a text is read in the same way when more follows, with any more fuel, if
it is an object or what is next stops it. -/
def ValueExtends (fuel : ℕ) : Prop :=
  ∀ cs j rest, parseValue fuel cs = some (j, rest) → cs.head? = some '{' ∨ Stops rest →
    ∀ k more, parseValue (fuel + k) (cs ++ more) = some (j, rest ++ more)

/-- So are items, which end at their bracket. -/
def ItemsExtend (fuel : ℕ) : Prop :=
  ∀ items cs j rest, parseItems fuel items cs = some (j, rest) → ∀ k more,
    parseItems (fuel + k) items (cs ++ more) = some (j, rest ++ more)

/-- And so are fields. -/
def FieldsExtend (fuel : ℕ) : Prop :=
  ∀ fields cs j rest, parseFields fuel fields cs = some (j, rest) → ∀ k more,
    parseFields (fuel + k) fields (cs ++ more) = some (j, rest ++ more)

/-- A text that does not begin with a character does not when more follows. -/
theorem append_ne_cons {cs more : List Char} {c : Char} (some : cs ≠ [])
    (other : ∀ tail, cs ≠ c :: tail) (tail : List Char) : cs ++ more ≠ c :: tail := by
  intro same
  obtain ⟨d, rest, text⟩ := List.exists_cons_of_ne_nil some
  rw [text, List.cons_append] at same
  exact other rest (text.trans (congrArg (· :: rest) (List.cons.inj same).1))

section Extend

variable {fuel : ℕ}

theorem valueExtends_succ (items : ItemsExtend fuel) (fields : FieldsExtend fuel) :
    ValueExtends (fuel + 1) := by
  intro cs j rest read stops k more
  obtain _ | ⟨c, after⟩ := cs
  · simp [parseValue] at read
  rw [Nat.add_right_comm, List.cons_append]
  rw [parseValue] at read ⊢
  split_ifs at read ⊢
  · obtain ⟨⟨text, left⟩, found, same⟩ := Option.map_eq_some_iff.mp read
    cases same
    rw [scanString_extend after more text left found, Option.map_some]
  · split at read
    · rename_i left next
      cases read
      rw [skipSpace_extend_cons next]
      rfl
    · rename_i opened
      have some := ne_nil_of_parse.2 read
      rw [skipSpace_extend some]
      split
      · rename_i left next
        exact absurd next (append_ne_cons some opened left)
      · exact fields [] _ j rest read k more
  · split at read
    · rename_i left next
      cases read
      rw [skipSpace_extend_cons next]
      rfl
    · rename_i opened
      have some := ne_nil_of_parse.1 read
      rw [skipSpace_extend some]
      split
      · rename_i left next
        exact absurd next (append_ne_cons some opened left)
      · exact items [] _ j rest read k more
  all_goals try
    obtain ⟨left, found, same⟩ := Option.map_eq_some_iff.mp read
    cases same
    rw [← List.cons_append, dropLiteral_extend found more, Option.map_some]
  -- What is left is a number, which has to be stopped.
  rename_i other _ _ _ _
  refine parseNumber_extend read (stops.resolve_left fun first => ?_) more
  exact other (Option.some.inj first)

theorem itemsExtend_succ (value : ValueExtends fuel) (items : ItemsExtend fuel) :
    ItemsExtend (fuel + 1) := by
  intro xs cs j rest read k more
  rw [parseItems] at read
  rw [Nat.add_right_comm, parseItems]
  cases first : parseValue fuel cs with
  | none => simp [first] at read
  | some found =>
    obtain ⟨x, left⟩ := found
    rw [first] at read
    dsimp only at read
    split at read
    · rename_i after next
      cases read
      rw [value cs x left first (.inr (stops_of_skipSpace next (by simp))) k more]
      dsimp only
      rw [skipSpace_extend_cons next]
      rfl
    · rename_i after next
      rw [value cs x left first (.inr (stops_of_skipSpace next (by simp))) k more]
      dsimp only
      rw [skipSpace_extend_cons next]
      have again := items _ _ j rest read k more
      rwa [← skipSpace_extend (ne_nil_of_parse.1 read)] at again
    · cases read

theorem fieldsExtend_succ (value : ValueExtends fuel) (fields : FieldsExtend fuel) :
    FieldsExtend (fuel + 1) := by
  intro entries cs j rest read k more
  unfold parseFields at read
  split at read
  case h_2 => cases read
  rename_i literal
  split at read
  case h_1 => cases read
  rename_i key afterKey scanned
  split at read
  case h_2 => cases read
  rename_i afterColon colon
  split at read
  case h_1 => cases read
  rename_i x afterValue first
  have some : skipSpace afterColon ≠ [] := fun none => by
    rw [none] at first
    cases fuel <;> simp [parseValue] at first
  -- What follows the value is a comma or a brace after blanks, where a number stops.
  have valued := fun stops => value _ x afterValue first stops k more
  rw [← skipSpace_extend some] at valued
  rw [Nat.add_right_comm, List.cons_append, parseFields, scanString_extend _ more _ _ scanned]
  simp only [skipSpace_extend_cons colon]
  split at read
  · rename_i after next
    cases read
    rw [valued (.inr (stops_of_skipSpace next (by simp)))]
    dsimp only
    rw [skipSpace_extend_cons next]
    rfl
  · rename_i after next
    rw [valued (.inr (stops_of_skipSpace next (by simp)))]
    dsimp only
    rw [skipSpace_extend_cons next]
    have again := fields _ _ j rest read k more
    rwa [← skipSpace_extend (ne_nil_of_parse.2 read)] at again
  · cases read

end Extend

/-- **What is at the front of a text** is read in the same way when more follows. -/
theorem parse_extend : ∀ fuel : ℕ, ValueExtends fuel ∧ ItemsExtend fuel ∧ FieldsExtend fuel
  | 0 => ⟨fun _ _ _ read => by simp [parseValue] at read,
      fun _ _ _ _ read => by simp [parseItems] at read,
      fun _ _ _ _ read => by simp [parseFields] at read⟩
  | fuel + 1 => by
    obtain ⟨value, items, fields⟩ := parse_extend fuel
    exact ⟨valueExtends_succ items fields, itemsExtend_succ value items,
      fieldsExtend_succ value fields⟩

/-- **No beginning of the text of an object is the text of a value**, if what is cut off begins with
a character that is not whitespace. -/
theorem loads_eq_none_of_cut {front more : List Char} {c : Char} {j : Json}
    (object : front.head? = some '{') (solid : isJsonSpace c = false)
    (whole : loads (.ofList (front ++ c :: more)) = some j) : loads (.ofList front) = none := by
  cases read : loads (.ofList front) with
  | none => rfl
  | some v =>
  obtain ⟨after, rfl⟩ : ∃ after, front = '{' :: after := by
    cases front with
    | nil => cases object
    | cons d after => exact ⟨after, by rw [Option.some.inj object]⟩
  have begins : ∀ text, skipSpace ('{' :: text) = '{' :: text := fun text =>
    skipSpace_cons (by decide) text
  simp only [loads, String.toList_ofList, List.cons_append, begins] at read whole
  split at read
  case h_2 => cases read
  rename_i value rest parsed
  -- The object is read in the same way in the whole text, and then the rest is left over.
  have extended := (parse_extend _).1 _ value rest parsed (.inl rfl) (c :: more).length (c :: more)
  rw [List.cons_append, Nat.add_right_comm, ← List.length_append, List.cons_append] at extended
  rw [extended] at whole
  dsimp only at whole
  split_ifs at whole with blank
  rw [skipSpace, List.dropWhile_eq_nil_iff] at blank
  have space := blank c (by simp)
  rw [solid] at space
  cases space

end Values

end Json

open Json

/-! ### Files of records -/

section Records

variable {records : List Json}

theorem mapM_eq_none_of_mem {α β : Type} {f : α → Option β} {items : List α} {item : α}
    (member : item ∈ items) (none : f item = none) : items.mapM f = .none := by
  induction items with
  | nil => cases member
  | cons first items ih =>
    rw [List.mapM_cons]
    rcases List.mem_cons.mp member with rfl | later
    · rw [none]
      rfl
    · rw [ih later]
      cases f first <;> rfl

/-- The first piece of an object that is cut is the text of no value. -/
theorem exists_piece {fields : Fields} (plain : isPlain (.obj fields))
    (broken : ¬ Unbroken (.obj fields)) :
    ∃ piece ∈ recordTexts (recordLine (.obj fields)).toList, loads piece = none := by
  obtain ⟨line, c, rest, split, raw, pieces, -⟩ := recordTexts_of_broken plain broken
  refine ⟨.ofList line, pieces ▸ List.mem_cons_self, ?_⟩
  have whole : loads (.ofList (line ++ c :: rest)) = some (.obj fields) := by
    rw [← split]
    exact loads_dumps plain
  -- The character of the cut is a raw line break, which JSON does not skip as a blank.
  have solid : isJsonSpace c = false := by
    simp only [isRawBreak, Bool.or_eq_true, beq_iff_eq] at raw
    simp only [isJsonSpace, Bool.or_eq_false_iff, decide_eq_false_iff_not]
    refine ⟨⟨⟨?_, ?_⟩, ?_⟩, ?_⟩ <;> rintro rfl <;> exact absurd raw (by decide)
  refine loads_eq_none_of_cut ?_ solid whole
  obtain ⟨tail, text⟩ : ∃ tail, write none 0 (.obj fields) = '{' :: tail := by
    cases fields with
    | nil => exact ⟨['}'], by rw [write]⟩
    | cons field fields => exact ⟨_, by rw [write]⟩
  -- The piece starts with the brace, so it is no number that could end early.
  cases line with
  | nil =>
    rw [split, List.nil_append] at text
    obtain rfl := (List.cons.inj text).1
    exact absurd raw (by decide)
  | cons d line =>
    rw [split, List.cons_append] at text
    rw [(List.cons.inj text).1]
    rfl

/-- **A file in which an object is cut is not read.** -/
theorem readRecords_eq_none (plain : ∀ j ∈ records, isPlain j)
    (objects : ∀ j ∈ records, ∃ fields, j = .obj fields) (broken : ¬ ∀ j ∈ records, Unbroken j) :
    readRecords (recordsText records) = none := by
  push Not at broken
  obtain ⟨j, member, cut⟩ := broken
  obtain ⟨fields, rfl⟩ := objects j member
  obtain ⟨piece, listed, unread⟩ := exists_piece (plain _ member) cut
  rw [readRecords, universalNewlines_recordsText plain, recordTexts_recordsText]
  exact mapM_eq_none_of_mem (List.mem_flatMap.mpr ⟨_, member, listed⟩) unread

end Records

end AgentLabs.Text
