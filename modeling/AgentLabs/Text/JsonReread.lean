import AgentLabs.Text.JsonText
import Mathlib.Data.List.TakeWhile

/-!
# Reading what was read

A value that was read from a text can be written and read again: its floats keep the spelling
they were read with, and its objects have each key once. The spelling of a float ends where
no digit, point or exponent can follow, so it is read to the same end in any other text.

## Main definitions

* `Json.spanPoint`, `Json.spanExponent`: the two parts of a fraction

## Main results

* `Json.spellsFloat_of_parseNumber`: a float that was read is spelled as the reader takes it
* `Json.spelled_of_loads`: so is every value
-/

namespace AgentLabs.Text

open Math

namespace Json

/-! ### Fractions -/

/-- The point and its digits at the front, and what follows them. -/
def spanPoint : List Char → List Char × List Char
  | '.' :: rest =>
    if (spanDigits rest).1 = [] then ([], '.' :: rest)
    else ('.' :: (spanDigits rest).1, (spanDigits rest).2)
  | cs => ([], cs)

/-- The sign at the front, and what follows it. -/
def spanSign : List Char → List Char × List Char
  | c :: rest => if c = '+' ∨ c = '-' then ([c], rest) else ([], c :: rest)
  | [] => ([], [])

/-- The exponent at the front, and what follows it. -/
def spanExponent : List Char → List Char × List Char
  | e :: rest =>
    if (e = 'e' ∨ e = 'E') ∧ (spanDigits (spanSign rest).2).1 ≠ [] then
      (e :: ((spanSign rest).1 ++ (spanDigits (spanSign rest).2).1),
        (spanDigits (spanSign rest).2).2)
    else ([], e :: rest)
  | [] => ([], [])

/-- A fraction is a point with its digits and an exponent. -/
theorem spanFraction_eq (cs : List Char) : spanFraction cs =
    ((spanPoint cs).1 ++ (spanExponent (spanPoint cs).2).1, (spanExponent (spanPoint cs).2).2) := by
  unfold spanFraction
  split
  rename_i point rest first
  have same : spanPoint cs = (point, rest) := by
    rw [← first]
    cases cs with
    | nil => rfl
    | cons c cs =>
      by_cases dot : c = '.'
      · subst dot
        rfl
      · simp [spanPoint, dot]
  -- The exponent comes after the point, whatever the point has left.
  rw [same]
  cases rest with
  | nil => simp [spanExponent]
  | cons e rest =>
    by_cases letter : e = 'e' ∨ e = 'E'
    · cases rest with
      | nil => simp [spanExponent, spanSign, letter, spanDigits]
      | cons c more =>
        by_cases sign : c = '+' ∨ c = '-'
        · by_cases none : (spanDigits more).1 = [] <;>
            simp [spanExponent, spanSign, letter, sign, none]
        · by_cases none : (spanDigits (c :: more)).1 = [] <;>
            simp [spanExponent, spanSign, letter, sign, none]
    · simp [spanExponent, letter]

theorem isDigit_of_mem_spanDigits {cs : List Char} {c : Char} (member : c ∈ (spanDigits cs).1) :
    c.isDigit := by
  exact List.mem_takeWhile_imp member

/-- A point has digits after it. -/
theorem spanPoint_cases (cs : List Char) : (spanPoint cs).1 = [] ∨
    ∃ digits, (spanPoint cs).1 = '.' :: digits ∧ digits ≠ [] ∧ ∀ c ∈ digits, c.isDigit := by
  unfold spanPoint
  split
  · split_ifs with none
    · exact .inl rfl
    · exact .inr ⟨_, rfl, none, fun c member => isDigit_of_mem_spanDigits member⟩
  · exact .inl rfl

theorem spanSign_cases (cs : List Char) :
    (spanSign cs).1 = [] ∨ (spanSign cs).1 = ['+'] ∨ (spanSign cs).1 = ['-'] := by
  unfold spanSign
  split
  · split_ifs with sign
    · rcases sign with rfl | rfl <;> simp
    · exact .inl rfl
  · exact .inl rfl

/-- An exponent has digits after its sign. -/
theorem spanExponent_cases (cs : List Char) : (spanExponent cs).1 = [] ∨
    ∃ e sign digits, (spanExponent cs).1 = e :: (sign ++ digits) ∧ (e = 'e' ∨ e = 'E') ∧
      (sign = [] ∨ sign = ['+'] ∨ sign = ['-']) ∧ digits ≠ [] ∧ ∀ c ∈ digits, c.isDigit := by
  unfold spanExponent
  split
  · split_ifs with there
    · exact .inr ⟨_, _, _, rfl, there.1, spanSign_cases _, there.2,
        fun c member => isDigit_of_mem_spanDigits member⟩
    · exact .inl rfl
  · exact .inl rfl

/-! ### Reading a fraction again -/

/-- What may follow a number: no digit, point or exponent. -/
theorem Closes.head {rest : List Char} (h : Closes rest) :
    ∀ c ∈ rest.head?, c.isDigit = false ∧ c ≠ '.' ∧ c ≠ 'e' ∧ c ≠ 'E' := by
  intro c hc
  rcases h c hc with rfl | rfl | rfl | rfl <;> decide

/-- An exponent is read to the same end in any text that closes it. -/
theorem spanExponent_append {cs rest : List Char} (closes : Closes rest) :
    spanExponent ((spanExponent cs).1 ++ rest) = ((spanExponent cs).1, rest) := by
  rcases spanExponent_cases cs with none | ⟨e, sign, digits, text, letter, signed, some, decimal⟩
  · rw [none, List.nil_append]
    cases rest with
    | nil => rfl
    | cons c more =>
      have other := closes.head c rfl
      simp [spanExponent, other.2.2.1, other.2.2.2]
  · have stop := spanDigits_append decimal closes.notDigit
    obtain ⟨d, ds, rfl⟩ := List.exists_cons_of_ne_nil some
    have digit := decimal d (.head _)
    have noSign : ¬ (d = '+' ∨ d = '-') := by
      rintro (rfl | rfl) <;> exact absurd digit (by decide)
    rw [text]
    rcases signed with rfl | rfl | rfl
    · simp only [List.nil_append, List.cons_append] at stop ⊢
      simp [spanExponent, spanSign, letter, noSign, stop]
    · simp only [List.nil_append, List.cons_append] at stop ⊢
      simp [spanExponent, spanSign, letter, stop]
    · simp only [List.nil_append, List.cons_append] at stop ⊢
      simp [spanExponent, spanSign, letter, stop]

/-- A point is read to the same end in any text that has neither a digit nor a point next. -/
theorem spanPoint_append {cs rest : List Char}
    (next : ∀ c ∈ rest.head?, c.isDigit = false ∧ c ≠ '.') :
    spanPoint ((spanPoint cs).1 ++ rest) = ((spanPoint cs).1, rest) := by
  rcases spanPoint_cases cs with none | ⟨digits, text, some, decimal⟩
  · rw [none, List.nil_append]
    unfold spanPoint
    split
    · exact absurd rfl (next '.' rfl).2
    · rfl
  · have stop := spanDigits_append decimal fun c hc => (next c hc).1
    rw [text, List.cons_append, spanPoint, stop, if_neg some]

/-- **A fraction is read to the same end** in any text that closes it. -/
theorem spanFraction_append {cs rest : List Char} (closes : Closes rest) :
    spanFraction ((spanFraction cs).1 ++ rest) = ((spanFraction cs).1, rest) := by
  rw [spanFraction_eq cs]
  dsimp only
  have next : ∀ c ∈ ((spanExponent (spanPoint cs).2).1 ++ rest).head?, c.isDigit =
      false ∧ c ≠ '.' := by
    intro c hc
    rcases spanExponent_cases (spanPoint cs).2 with none | ⟨e, sign, digits, text, letter, -⟩
    · rw [none, List.nil_append] at hc
      exact ⟨(closes.head c hc).1, (closes.head c hc).2.1⟩
    · rw [text, List.cons_append, List.head?_cons, Option.mem_some_iff] at hc
      subst hc
      rcases letter with rfl | rfl <;> decide
  rw [spanFraction_eq, List.append_assoc, spanPoint_append next]
  dsimp only
  rw [spanExponent_append closes]

/-- A fraction starts with a point or an exponent. -/
theorem spanFraction_head (cs : List Char) :
    ∀ c ∈ (spanFraction cs).1.head?, c.isDigit = false := by
  rw [spanFraction_eq]
  intro c hc
  rcases spanPoint_cases cs with none | ⟨digits, text, -⟩
  · rcases spanExponent_cases (spanPoint cs).2 with none' | ⟨e, sign, digits, text, letter, -⟩
    · simp [none, none'] at hc
    · simp only [none, text, List.nil_append, List.head?_cons, Option.mem_some_iff] at hc
      subst hc
      rcases letter with rfl | rfl <;> decide
  · simp only [text, List.cons_append, List.head?_cons, Option.mem_some_iff] at hc
    subst hc
    decide

/-! ### Numbers -/

theorem isDigit_of_mem_spanInteger {cs : List Char} {c : Char} (member : c ∈ (spanInteger cs).1) :
    c.isDigit := by
  unfold spanInteger at member
  split at member
  · rw [List.mem_singleton.mp member]
    decide
  · exact isDigit_of_mem_spanDigits member

/-- An integer is read to the same end in any text that has no digit next. -/
theorem spanInteger_append {cs rest : List Char} (some : (spanInteger cs).1 ≠ [])
    (next : ∀ c ∈ rest.head?, c.isDigit = false) :
    spanInteger ((spanInteger cs).1 ++ rest) = ((spanInteger cs).1, rest) := by
  by_cases zero : ∃ more, cs = '0' :: more
  · obtain ⟨more, rfl⟩ := zero
    rfl
  · have same : spanInteger cs = spanDigits cs := by
      unfold spanInteger
      split
      · exact absurd ⟨_, rfl⟩ zero
      · rfl
    rw [same] at some ⊢
    have stop := spanDigits_append (fun c (member : c ∈ (spanDigits cs).1) =>
      isDigit_of_mem_spanDigits member) next
    obtain ⟨d, ds, text⟩ := List.exists_cons_of_ne_nil some
    -- The first digit is the first character of the text, which is not a zero.
    have first : d ≠ '0' := by
      rintro rfl
      refine zero ⟨cs.tail, ?_⟩
      cases cs with
      | nil => simp [spanDigits] at text
      | cons c more =>
        have digit : c.isDigit := by
          by_contra other
          simp [spanDigits, other] at text
        simp only [spanDigits, List.takeWhile_cons, digit, if_true, List.cons.injEq] at text
        rw [text.1, List.tail_cons]
    rw [text] at stop ⊢
    unfold spanInteger
    split
    · rename_i eq
      exact absurd (List.cons.inj eq).1 first
    · exact stop

/-- The spelling of an unsigned float is read again. -/
theorem exists_parseUnsigned {sign cs rest' : List Char} {spelling : String}
    (read : parseUnsigned sign cs = some (.float spelling, rest')) :
    ∃ c more, spelling.toList = sign ++ c :: more ∧ c.isDigit ∧ ∀ rest, Closes rest →
      parseUnsigned sign (c :: more ++ rest) = some (.float spelling, rest) := by
  simp only [parseUnsigned] at read
  by_cases noDigits : (spanInteger cs).1 = []
  · simp [noDigits] at read
  by_cases noFraction : (spanFraction (spanInteger cs).2).1 = []
  · simp [noDigits, noFraction] at read
  simp only [if_neg noDigits, if_neg noFraction, Option.some.injEq, Prod.mk.injEq, Json.float.injEq]
    at read
  obtain ⟨rfl, -⟩ := read
  obtain ⟨c, ds, digits⟩ := List.exists_cons_of_ne_nil noDigits
  refine ⟨c, ds ++ (spanFraction (spanInteger cs).2).1, ?_, ?_, fun rest closes => ?_⟩
  · rw [String.toList_ofList, digits, List.append_assoc, List.cons_append]
  · exact isDigit_of_mem_spanInteger (by rw [digits]; exact .head _)
  -- The fraction does not start with a digit, so the integer ends before it as it did.
  · have next : ∀ c ∈ ((spanFraction (spanInteger cs).2).1 ++ rest).head?, c.isDigit = false := by
      intro c hc
      obtain ⟨first, more, text⟩ := List.exists_cons_of_ne_nil noFraction
      have head := spanFraction_head (spanInteger cs).2 first (by rw [text]; rfl)
      rw [text, List.cons_append, List.head?_cons, Option.mem_some_iff] at hc
      exact hc ▸ head
    rw [← List.cons_append, ← digits, List.append_assoc, parseUnsigned,
      spanInteger_append noDigits next]
    simp only [spanFraction_append closes, noDigits, noFraction, if_false, List.append_assoc]

/-- **A float that was read is spelled as the reader takes it.** -/
theorem spellsFloat_of_parseNumber {cs rest : List Char} {spelling : String}
    (read : parseNumber cs = some (.float spelling, rest)) : SpellsFloat spelling := by
  unfold parseNumber at read
  split at read
  · cases read
  rename_i c more
  by_cases minus : c = '-'
  · rw [if_pos minus] at read
    split at read
    · cases read
      exact ⟨⟨'-', _, rfl, .inl rfl⟩, fun rest _ => by simp [parseNumber, dropLiteral?]⟩
    · obtain ⟨d, ds, text, digit, again⟩ := exists_parseUnsigned read
      refine ⟨⟨'-', d :: ds, text, .inl rfl⟩, fun rest closes => ?_⟩
      -- The rest starts with a digit, so it is not read as the name `Infinity`.
      have noName : dropLiteral? "Infinity".toList (d :: ds ++ rest) = none := by
        simp [dropLiteral?, (ne_of_isDigit digit).2.2.1.symm]
      rw [text, List.append_assoc, List.singleton_append, parseNumber, if_pos rfl, noName]
      exact again rest closes
  · rw [if_neg minus] at read
    split_ifs at read with capN capI
    · obtain ⟨_, _, same⟩ := Option.map_eq_some_iff.mp read
      cases same
      exact ⟨⟨'N', _, rfl, .inr (.inl rfl)⟩, fun rest _ => by simp [parseNumber, dropLiteral?]⟩
    · obtain ⟨_, _, same⟩ := Option.map_eq_some_iff.mp read
      cases same
      exact ⟨⟨'I', _, rfl, .inr (.inr (.inl rfl))⟩,
        fun rest _ => by simp [parseNumber, dropLiteral?]⟩
    · obtain ⟨d, ds, text, digit, again⟩ := exists_parseUnsigned read
      refine ⟨⟨d, ds, text, .inr (.inr (.inr digit))⟩, fun rest closes => ?_⟩
      obtain ⟨notMinus, notN, notI, -⟩ := ne_of_isDigit digit
      rw [text, List.nil_append, List.cons_append, parseNumber, if_neg notMinus, if_neg notN,
        if_neg notI]
      exact again rest closes

/-- A number is an integer or a float. -/
theorem number_of_parseNumber {cs rest : List Char} {j : Json}
    (read : parseNumber cs = some (j, rest)) :
    (∃ value, j = .int value) ∨ ∃ spelling, j = .float spelling := by
  -- With a minus or without, the rest is read by one function.
  have unsigned : ∀ sign cs, parseUnsigned sign cs = some (j, rest) →
      (∃ value, j = .int value) ∨ ∃ spelling, j = .float spelling := by
    intro sign cs read
    simp only [parseUnsigned] at read
    split_ifs at read
    all_goals cases read
    · exact .inl ⟨_, rfl⟩
    · exact .inl ⟨_, rfl⟩
    · exact .inr ⟨_, rfl⟩
  unfold parseNumber at read
  split at read
  · cases read
  split_ifs at read
  · split at read
    · cases read
      exact .inr ⟨_, rfl⟩
    · exact unsigned _ _ read
  · obtain ⟨_, _, same⟩ := Option.map_eq_some_iff.mp read
    cases same
    exact .inr ⟨_, rfl⟩
  · obtain ⟨_, _, same⟩ := Option.map_eq_some_iff.mp read
    cases same
    exact .inr ⟨_, rfl⟩
  · exact unsigned _ _ read

/-! ### Values -/

theorem areSpelled_iff {xs : List Json} : AreSpelled xs ↔ ∀ x ∈ xs, Spelled x := by
  induction xs with
  | nil => simp [AreSpelled]
  | cons x xs ih => simp [AreSpelled, ih]

theorem spelled_arr_map {α : Type} {f : α → Json} (as : List α) (each : ∀ a ∈ as, Spelled (f a)) :
    Spelled (.arr (as.map f)) := areSpelled_iff.mpr (List.forall_mem_map.mpr each)

theorem fieldsSpelled_iff {fields : List (String × Json)} :
    FieldsSpelled fields ↔ ∀ entry ∈ fields, Spelled entry.2 := by
  induction fields with
  | nil => simp [FieldsSpelled]
  | cons entry fields ih =>
    obtain ⟨key, x⟩ := entry
    simp [FieldsSpelled, ih]

theorem spelled_obj_iff {fields : Fields} :
    Spelled (.obj fields) ↔ fields.KeysNodup ∧ ∀ entry ∈ fields, Spelled entry.2 := by
  rw [Spelled, fieldsSpelled_iff]
  rfl

/-- A field that is set leaves the others as they are. -/
theorem mem_set {fields : Fields} {key : String} {x : Json} {entry : String × Json}
    (member : entry ∈ fields.set key x) : entry.2 = x ∨ entry ∈ fields := by
  induction fields with
  | nil => exact .inl (List.mem_singleton.mp member ▸ rfl)
  | cons first fields ih =>
    obtain ⟨key', x'⟩ := first
    rw [Dict.set] at member
    split_ifs at member
    · rcases List.mem_cons.mp member with rfl | later
      · exact .inl rfl
      · exact .inr (.tail _ later)
    · rcases List.mem_cons.mp member with rfl | later
      · exact .inr (.head _)
      · exact (ih later).imp_right (.tail _)

/-- What the reader has collected is spelled, so what it makes of it is. -/
theorem spelled_of_parse : ∀ fuel : ℕ,
    (∀ cs j rest, parseValue fuel cs = some (j, rest) → Spelled j) ∧
    (∀ items cs j rest, (∀ x ∈ items, Spelled x) → parseItems fuel items cs = some (j, rest) →
      Spelled j) ∧
    ∀ fields cs j rest, Dict.KeysNodup fields → (∀ entry ∈ fields, Spelled entry.2) →
      parseFields fuel fields cs = some (j, rest) → Spelled j
  | 0 => ⟨fun _ _ _ read => by simp [parseValue] at read,
      fun _ _ _ _ _ read => by simp [parseItems] at read,
      fun _ _ _ _ _ _ read => by simp [parseFields] at read⟩
  | fuel + 1 => by
    obtain ⟨value, items, fields⟩ := spelled_of_parse fuel
    refine ⟨fun cs j rest read => ?_, fun xs cs j rest spelled read => ?_,
      fun entries cs j rest nodup spelled read => ?_⟩
    · -- A value: a text, an object, an array, one of the words, or a number.
      obtain _ | ⟨c, more⟩ := cs
      · simp [parseValue] at read
      rw [parseValue] at read
      split_ifs at read
      · obtain ⟨_, _, same⟩ := Option.map_eq_some_iff.mp read
        cases same
        trivial
      · split at read
        · cases read
          exact spelled_obj_iff.mpr ⟨List.nodup_nil, by simp⟩
        · exact fields [] _ j rest List.nodup_nil (by simp) read
      · split at read
        · cases read
          trivial
        · exact items [] _ j rest (by simp) read
      all_goals try
        obtain ⟨_, _, same⟩ := Option.map_eq_some_iff.mp read
        cases same
        trivial
      rcases number_of_parseNumber read with ⟨number, rfl⟩ | ⟨spelling, rfl⟩
      · trivial
      · exact spellsFloat_of_parseNumber read
    · -- The items of an array: what is collected grows by a value.
      rw [parseItems] at read
      split at read
      · cases read
      rename_i x more first
      have spelled' : ∀ y ∈ xs ++ [x], Spelled y := fun y member => by
        rcases List.mem_append.mp member with old | new
        · exact spelled y old
        · exact List.mem_singleton.mp new ▸ value cs x more first
      split at read
      · cases read
        exact areSpelled_iff.mpr spelled'
      · exact items _ _ j rest spelled' read
      · cases read
    · -- The fields of an object: a repeated key replaces a value, and no key is there twice.
      unfold parseFields at read
      split at read
      case h_2 => cases read
      split at read
      case h_1 => cases read
      split at read
      case h_2 => cases read
      split at read
      case h_1 => cases read
      rename_i x more first
      have spelled' : ∀ key : String, ∀ entry ∈ entries.set key x, Spelled entry.2 := by
        intro key entry member
        rcases mem_set member with same | old
        · exact same ▸ value _ x more first
        · exact spelled entry old
      split at read
      · cases read
        exact spelled_obj_iff.mpr ⟨nodup.set, spelled' _⟩
      · exact fields _ _ j rest nodup.set (spelled' _) read
      · cases read

/-- **A value that was read can be written and read again.** -/
theorem spelled_of_loads {text : String} {j : Json} (read : loads text = some j) : Spelled j := by
  unfold loads at read
  split at read
  · rename_i value rest parsed
    split_ifs at read
    cases read
    exact (spelled_of_parse _).1 _ _ _ parsed
  · cases read

end Json

end AgentLabs.Text
