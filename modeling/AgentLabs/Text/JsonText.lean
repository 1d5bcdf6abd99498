import AgentLabs.Text.Json
import Mathlib.Algebra.GroupWithZero.Nat
import Mathlib.Data.Nat.Basic
import Mathlib.Data.List.Basic

/-!
# JSON as text

`json.dumps` with `ensure_ascii=False`, on one line or indented, and `json.loads`,
both on lists of characters. Strings are written with the escapes that Python
uses and read with all escapes of the format; the reader has the fuel of one step
for each character, which is enough for whatever the writer has written.

A float is known by its spelling, so writing and reading are inverse to each
other on values without floats whose objects repeat no key; that is what the
programs write.

## Main definitions

* `Json.write`, `Json.dumps`, `Json.dumpIndented`: writing
* `Json.bytes`: the size of what is written
* `Json.parseValue`, `Json.loads`: reading

## Main results

* `Json.loads_dumps`, `Json.loads_dumpIndented`: what is written is read back
* `Json.sum_bytes_le`: a list is no smaller than its items are together
-/

namespace AgentLabs.Text

open Math

namespace Json

/-! ### Writing -/

/-- A character inside a string literal. -/
def escapeChar (c : Char) : List Char :=
  if c = '"' then ['\\', '"']
  else if c = '\\' then ['\\', '\\']
  else if c = '\n' then ['\\', 'n']
  else if c = '\r' then ['\\', 'r']
  else if c = '\t' then ['\\', 't']
  else if c.toNat = 8 then ['\\', 'b']
  else if c.toNat = 12 then ['\\', 'f']
  else if c.toNat < 32 then
    ['\\', 'u', '0', '0', Nat.digitChar (c.toNat / 16), Nat.digitChar (c.toNat % 16)]
  else [c]

/-- A string literal. -/
def quote (s : String) : List Char := '"' :: (s.toList.flatMap escapeChar ++ ['"'])

/-- An integer literal. -/
def decimal (i : Int) : List Char :=
  if i < 0 then '-' :: Nat.toDigits 10 i.natAbs else Nat.toDigits 10 i.natAbs

/-- The line break before an item at a depth; nothing without indentation. -/
def lineBreak (indent : Option ℕ) (depth : ℕ) : List Char :=
  match indent with
  | none => []
  | some width => '\n' :: List.replicate (width * depth) ' '

/-- What separates two items at a depth. -/
def separator (indent : Option ℕ) (depth : ℕ) : List Char :=
  match indent with
  | none => [',', ' ']
  | some _ => ',' :: lineBreak indent depth

mutual

/-- The text of a value at a depth. -/
def write (indent : Option ℕ) (depth : ℕ) : Json → List Char
  | .null => "null".toList
  | .bool true => "true".toList
  | .bool false => "false".toList
  | .int value => decimal value
  | .float spelling => spelling.toList
  | .str value => quote value
  | .arr [] => ['[', ']']
  | .arr (x :: xs) =>
    '[' :: (lineBreak indent (depth + 1) ++ (write indent (depth + 1) x ++
      (writeItems indent (depth + 1) xs ++ (lineBreak indent depth ++ [']']))))
  | .obj [] => ['{', '}']
  | .obj ((key, x) :: xs) =>
    '{' :: (lineBreak indent (depth + 1) ++ (quote key ++ (':' :: ' ' ::
      (write indent (depth + 1) x ++
        (writeFields indent (depth + 1) xs ++ (lineBreak indent depth ++ ['}']))))))

/-- The items after the first one. -/
def writeItems (indent : Option ℕ) (depth : ℕ) : List Json → List Char
  | [] => []
  | x :: xs => separator indent depth ++ (write indent depth x ++ writeItems indent depth xs)

/-- The fields after the first one. -/
def writeFields (indent : Option ℕ) (depth : ℕ) : List (String × Json) → List Char
  | [] => []
  | (key, x) :: xs =>
    separator indent depth ++ (quote key ++ (':' :: ' ' ::
      (write indent depth x ++ writeFields indent depth xs)))

end

/-- `json.dumps(value, ensure_ascii=False)`. -/
def dumps (j : Json) : String := .ofList (write none 0 j)

/-- `json.dumps(value, ensure_ascii=False, indent=2)`. -/
def dumpIndented (j : Json) : String := .ofList (write (some 2) 0 j)

mutual

/-- The text of a value without blanks. -/
def writeCompact : Json → List Char
  | .null => "null".toList
  | .bool true => "true".toList
  | .bool false => "false".toList
  | .int value => decimal value
  | .float spelling => spelling.toList
  | .str value => quote value
  | .arr [] => ['[', ']']
  | .arr (x :: xs) => '[' :: (writeCompact x ++ (compactItems xs ++ [']']))
  | .obj [] => ['{', '}']
  | .obj ((key, x) :: xs) =>
    '{' :: (quote key ++ (':' :: (writeCompact x ++ (compactFields xs ++ ['}']))))

/-- The items after the first one. -/
def compactItems : List Json → List Char
  | [] => []
  | x :: xs => ',' :: (writeCompact x ++ compactItems xs)

/-- The fields after the first one. -/
def compactFields : List (String × Json) → List Char
  | [] => []
  | (key, x) :: xs => ',' :: (quote key ++ (':' :: (writeCompact x ++ compactFields xs)))

end

/-- `json.dumps(value, ensure_ascii=False, separators=(",", ":"))`. -/
def dumpCompact (j : Json) : String := .ofList (writeCompact j)

/-! ### Reading -/

/-- The whitespace of the format. -/
def isJsonSpace (c : Char) : Bool := c = ' ' || c = '\t' || c = '\n' || c = '\r'

/-- Skip whitespace. -/
def skipSpace (cs : List Char) : List Char := cs.dropWhile isJsonSpace

/-- The value of a hexadecimal digit. -/
def hexValue? (c : Char) : Option ℕ :=
  if c.isDigit then some (c.toNat - '0'.toNat)
  else if 'a' ≤ c ∧ c ≤ 'f' then some (c.toNat - 'a'.toNat + 10)
  else if 'A' ≤ c ∧ c ≤ 'F' then some (c.toNat - 'A'.toNat + 10)
  else none

/-- The value of four hexadecimal digits. -/
def hexValue4? (a b c d : Char) : Option ℕ := do
  return (((← hexValue? a) * 16 + (← hexValue? b)) * 16 + (← hexValue? c)) * 16 + (← hexValue? d)

/-- The character of an escape of one letter. -/
def unescape? (c : Char) : Option Char :=
  if c = '"' then some '"'
  else if c = '\\' then some '\\'
  else if c = '/' then some '/'
  else if c = 'b' then some (Char.ofNat 8)
  else if c = 'f' then some (Char.ofNat 12)
  else if c = 'n' then some '\n'
  else if c = 'r' then some '\r'
  else if c = 't' then some '\t'
  else none

/-- Two surrogates make one character. -/
def pairSurrogates (high low : ℕ) : Char :=
  Char.ofNat (0x10000 + (high - 0xD800) * 0x400 + (low - 0xDC00))

/-- The rest of a string literal, up to its closing quote. A surrogate that is not
part of a pair is no character. -/
def scanString : List Char → Option (List Char × List Char)
  | [] => none
  | '"' :: rest => some ([], rest)
  | '\\' :: 'u' :: a :: b :: c :: d :: rest =>
    match hexValue4? a b c d with
    | none => none
    | some code =>
      if 0xD800 ≤ code ∧ code ≤ 0xDFFF then
        match rest with
        | '\\' :: 'u' :: a' :: b' :: c' :: d' :: rest' =>
          match hexValue4? a' b' c' d' with
          | none => none
          | some code' =>
            if code ≤ 0xDBFF ∧ 0xDC00 ≤ code' ∧ code' ≤ 0xDFFF then
              (scanString rest').map fun p => (pairSurrogates code code' :: p.1, p.2)
            else none
        | _ => none
      else (scanString rest).map fun p => (Char.ofNat code :: p.1, p.2)
  | '\\' :: e :: rest =>
    match unescape? e with
    | none => none
    | some c => (scanString rest).map fun p => (c :: p.1, p.2)
  | c :: rest => if c.toNat < 32 then none else (scanString rest).map fun p => (c :: p.1, p.2)

/-- Remove a literal from the front. -/
def dropLiteral? (literal cs : List Char) : Option (List Char) :=
  if literal.isPrefixOf cs then some (cs.drop literal.length) else none

/-- The digits at the front, and what follows them. -/
def spanDigits (cs : List Char) : List Char × List Char :=
  (cs.takeWhile Char.isDigit, cs.dropWhile Char.isDigit)

/-- The fraction and the exponent at the front, as spelled, and what follows them. -/
def spanFraction (cs : List Char) : List Char × List Char :=
  let (point, cs) := match cs with
    | '.' :: rest =>
      if (spanDigits rest).1 = [] then ([], cs)
        else ('.' :: (spanDigits rest).1, (spanDigits rest).2)
    | _ => ([], cs)
  match cs with
  | e :: rest =>
    if e = 'e' ∨ e = 'E' then
      let (sign, rest) := match rest with
        | c :: more => if c = '+' ∨ c = '-' then ([c], more) else ([], rest)
        | [] => ([], rest)
      if (spanDigits rest).1 = [] then (point, cs)
      else (point ++ e :: (sign ++ (spanDigits rest).1), (spanDigits rest).2)
    else (point, cs)
  | [] => (point, cs)

/-- The digits of an integer at the front: a zero stands alone. -/
def spanInteger : List Char → List Char × List Char
  | '0' :: rest => (['0'], rest)
  | cs => spanDigits cs

/-- A number without its sign. -/
def parseUnsigned (sign : List Char) (cs : List Char) : Option (Json × List Char) :=
  let (digits, rest) := spanInteger cs
  if digits = [] then none
  else
    let (fraction, rest) := spanFraction rest
    if fraction = [] then
      let value : Int := Nat.ofDigitChars 10 digits 0
      some (.int (if sign = [] then value else -value), rest)
    else some (.float (.ofList (sign ++ digits ++ fraction)), rest)

/-- A number, or one of the three names that stand for special floats. -/
def parseNumber (cs : List Char) : Option (Json × List Char) :=
  match cs with
  | [] => none
  | c :: rest =>
    if c = '-' then
      match dropLiteral? "Infinity".toList rest with
      | some rest => some (.float "-Infinity", rest)
      | none => parseUnsigned ['-'] rest
    else if c = 'N' then (dropLiteral? "NaN".toList cs).map fun rest => (.float "NaN", rest)
    else if c = 'I' then
      (dropLiteral? "Infinity".toList cs).map fun rest => (.float "Infinity", rest)
    else parseUnsigned [] cs

mutual

/-- A value at the front, and what follows it. -/
def parseValue : ℕ → List Char → Option (Json × List Char)
  | 0, _ => none
  | _, [] => none
  | fuel + 1, c :: rest =>
    if c = '"' then (scanString rest).map fun p => (.str (.ofList p.1), p.2)
    else if c = '{' then
      match skipSpace rest with
      | '}' :: rest => some (.obj [], rest)
      | rest => parseFields fuel [] rest
    else if c = '[' then
      match skipSpace rest with
      | ']' :: rest => some (.arr [], rest)
      | rest => parseItems fuel [] rest
    else if c = 'n' then (dropLiteral? "null".toList (c :: rest)).map fun rest => (.null, rest)
    else if c = 't' then (dropLiteral? "true".toList (c :: rest)).map fun rest => (.bool true, rest)
    else if c = 'f' then
      (dropLiteral? "false".toList (c :: rest)).map fun rest => (.bool false, rest)
    else parseNumber (c :: rest)

/-- The items of an array, from one of them on. -/
def parseItems : ℕ → List Json → List Char → Option (Json × List Char)
  | 0, _, _ => none
  | fuel + 1, items, cs =>
    match parseValue fuel cs with
    | none => none
    | some (x, rest) =>
      match skipSpace rest with
      | ']' :: rest => some (.arr (items ++ [x]), rest)
      | ',' :: rest => parseItems fuel (items ++ [x]) (skipSpace rest)
      | _ => none

/-- The fields of an object, from one of them on. A repeated key keeps its last
value. -/
def parseFields : ℕ → Fields → List Char → Option (Json × List Char)
  | 0, _, _ => none
  | fuel + 1, fields, cs =>
    match cs with
    | '"' :: rest =>
      match scanString rest with
      | none => none
      | some (key, rest) =>
        match skipSpace rest with
        | ':' :: rest =>
          match parseValue fuel (skipSpace rest) with
          | none => none
          | some (x, rest) =>
            match skipSpace rest with
            | '}' :: rest => some (.obj (fields.set (.ofList key) x), rest)
            | ',' :: rest => parseFields fuel (fields.set (.ofList key) x) (skipSpace rest)
            | _ => none
        | _ => none
    | _ => none

end

/-- `json.loads(text)`; `none` where it raises a `JSONDecodeError`. Half of a surrogate pair, which
no string here can hold, is refused as well, and nothing is nested too deep or has too many
digits. -/
def loads (text : String) : Option Json :=
  match parseValue (text.toList.length + 1) (skipSpace text.toList) with
  | some (value, rest) => if skipSpace rest = [] then some value else none
  | none => none

/-! ### Literals are read back -/

theorem scanString_escapeChar (c : Char) (rest : List Char) :
    scanString (escapeChar c ++ rest) = (scanString rest).map fun p => (c :: p.1, p.2) := by
  unfold escapeChar
  -- The characters with a short escape first, in the order in which they are written.
  by_cases quoted : c = '"'
  · subst quoted
    simp [scanString, unescape?]
  by_cases slash : c = '\\'
  · subst slash
    simp [scanString, unescape?]
  by_cases newline : c = '\n'
  · subst newline
    simp [scanString, unescape?]
  by_cases return' : c = '\r'
  · subst return'
    simp [scanString, unescape?]
  by_cases tab : c = '\t'
  · subst tab
    simp [scanString, unescape?]
  simp only [quoted, slash, newline, return', tab, if_false]
  have same : ∀ {n : ℕ}, c.toNat = n → Char.ofNat n = c := fun h => h ▸ Char.ofNat_toNat c
  by_cases bell : c.toNat = 8
  · rw [if_pos bell]
    have scanned : scanString ('\\' :: 'b' :: rest) =
        (scanString rest).map fun p => (Char.ofNat 8 :: p.1, p.2) := by
      simp [scanString, unescape?]
    rwa [same bell] at scanned
  by_cases feed : c.toNat = 12
  · rw [if_neg bell, if_pos feed]
    have scanned : scanString ('\\' :: 'f' :: rest) =
        (scanString rest).map fun p => (Char.ofNat 12 :: p.1, p.2) := by
      simp [scanString, unescape?]
    rwa [same feed] at scanned
  rw [if_neg bell, if_neg feed]
  by_cases control : c.toNat < 32
  · -- The other control characters are spelled with four hexadecimal digits.
    have digits : ∀ n < 32, hexValue4? '0' '0' (Nat.digitChar (n / 16)) (Nat.digitChar (n % 16)) =
        some n := by decide
    have plain : ¬ (0xD800 ≤ c.toNat ∧ c.toNat ≤ 0xDFFF) := by omega
    rw [if_pos control]
    simp [scanString, digits c.toNat control, plain]
  · rw [if_neg control]
    simp [scanString, slash, control]

/-- A string literal is read back. -/
theorem scanString_quote (cs rest : List Char) :
    scanString (cs.flatMap escapeChar ++ '"' :: rest) = some (cs, rest) := by
  induction cs with
  | nil => simp [scanString]
  | cons c cs ih =>
    rw [List.flatMap_cons, List.append_assoc, scanString_escapeChar, ih]
    rfl

/-- What may follow a value in a text that was written. -/
def Closes (rest : List Char) : Prop :=
  ∀ c ∈ rest.head?, c = ',' ∨ c = ']' ∨ c = '}' ∨ c = '\n'

theorem closes_nil : Closes [] := by simp [Closes]

theorem spanDigits_append {digits rest : List Char} (all : ∀ c ∈ digits, c.isDigit)
    (stop : ∀ c ∈ rest.head?, c.isDigit = false) :
    spanDigits (digits ++ rest) = (digits, rest) := by
  rw [spanDigits]
  have front : rest.takeWhile Char.isDigit = [] ∧ rest.dropWhile Char.isDigit = rest := by
    cases rest with
    | nil => simp
    | cons c more => simp [stop c rfl]
  rw [List.takeWhile_append_of_pos all, List.dropWhile_append_of_pos all, front.1, front.2,
    List.append_nil]

theorem Closes.notDigit {rest : List Char} (h : Closes rest) :
    ∀ c ∈ rest.head?, c.isDigit = false := by
  intro c hc
  rcases h c hc with rfl | rfl | rfl | rfl <;> decide

theorem spanFraction_of_closes {rest : List Char} (h : Closes rest) :
    spanFraction rest = ([], rest) := by
  cases rest with
  | nil => rfl
  | cons c more => rcases h c rfl with rfl | rfl | rfl | rfl <;> simp [spanFraction]

/-- A number that is not zero does not start with a zero. -/
theorem toDigits_head {n : ℕ} (positive : 0 < n) : (Nat.toDigits 10 n).head? ≠ some '0' := by
  induction n using Nat.strongRecOn with
  | _ n ih =>
    by_cases small : n < 10
    · rw [Nat.toDigits_of_lt_base small]
      have nonzero : ∀ d < 10, 0 < d → some (Nat.digitChar d) ≠ some '0' := by decide
      exact nonzero n small positive
    · rw [Nat.toDigits_of_base_le (by decide) (by omega), List.head?_append]
      have front := ih (n / 10) (by omega) (by omega)
      cases leading : (Nat.toDigits 10 (n / 10)).head? with
      | none => exact absurd (List.head?_eq_none_iff.mp leading) Nat.toDigits_ne_nil
      | some c => simpa [leading] using front

theorem isDigit_toDigits (n : ℕ) : ∀ c ∈ Nat.toDigits 10 n, c.isDigit := fun _ hc =>
  Nat.isDigit_of_mem_toDigits (by decide) (by decide) hc

theorem spanInteger_toDigits (n : ℕ) {rest : List Char} (closes : Closes rest) :
    spanInteger (Nat.toDigits 10 n ++ rest) = (Nat.toDigits 10 n, rest) := by
  rcases Nat.eq_zero_or_pos n with rfl | positive
  · rw [Nat.toDigits_zero]
    rfl
  · have whole := spanDigits_append (isDigit_toDigits n) closes.notDigit
    have front := toDigits_head positive
    cases digits : Nat.toDigits 10 n with
    | nil => exact absurd digits Nat.toDigits_ne_nil
    | cons c cs =>
      rw [digits] at whole front
      have nonzero : c ≠ '0' := by simpa using front
      unfold spanInteger
      split
      · case h_1 eq => exact absurd (List.cons.inj eq).1 nonzero
      · exact whole

/-- An unsigned integer is read back. -/
theorem parseUnsigned_toDigits (sign : List Char) (n : ℕ) {rest : List Char}
    (closes : Closes rest) :
    parseUnsigned sign (Nat.toDigits 10 n ++ rest) =
      some (.int (if sign = [] then (n : Int) else -n), rest) := by
  simp [parseUnsigned, spanInteger_toDigits n closes, Nat.toDigits_ne_nil,
    spanFraction_of_closes closes]

/-- A digit is none of the characters that another kind of value starts with. -/
theorem ne_of_isDigit {c : Char} (digit : c.isDigit) : c ≠ '-' ∧ c ≠ 'N' ∧ c ≠ 'I' ∧ c ≠ '"' ∧
    c ≠ '{' ∧ c ≠ '[' ∧ c ≠ 'n' ∧ c ≠ 't' ∧ c ≠ 'f' ∧ c ≠ ']' ∧ isJsonSpace c = false := by
  refine ⟨?_, ?_, ?_, ?_, ?_, ?_, ?_, ?_, ?_, ?_, ?_⟩
  on_goal 11 =>
    simp only [isJsonSpace, Bool.or_eq_false_iff, decide_eq_false_iff_not]
    refine ⟨⟨⟨?_, ?_⟩, ?_⟩, ?_⟩
  all_goals
    rintro rfl
    exact absurd digit (by decide)

/-- An integer is read back. -/
theorem parseNumber_decimal (i : Int) {rest : List Char} (closes : Closes rest) :
    parseNumber (decimal i ++ rest) = some (.int i, rest) := by
  obtain ⟨c, cs, digits⟩ : ∃ c cs, Nat.toDigits 10 i.natAbs = c :: cs :=
    List.exists_cons_of_ne_nil Nat.toDigits_ne_nil
  have digit : c.isDigit := isDigit_toDigits i.natAbs c (by simp [digits])
  unfold decimal
  by_cases negative : i < 0
  · have scanned := parseUnsigned_toDigits ['-'] i.natAbs closes
    have noName : dropLiteral? "Infinity".toList (Nat.toDigits 10 i.natAbs ++ rest) = none := by
      simp [dropLiteral?, digits, (ne_of_isDigit digit).2.2.1.symm]
    have value : -(i.natAbs : ℤ) = i := by omega
    rw [if_pos negative, List.cons_append, parseNumber, if_pos rfl, noName, scanned,
      if_neg (List.cons_ne_nil _ _), value]
  · have scanned := parseUnsigned_toDigits [] i.natAbs closes
    rw [if_neg negative]
    rw [digits] at scanned ⊢
    obtain ⟨minus, capN, capI, -⟩ := ne_of_isDigit digit
    have value : (i.natAbs : ℤ) = i := by omega
    rw [List.cons_append, parseNumber, if_neg minus, if_neg capN, if_neg capI, ← List.cons_append,
      scanned, if_pos rfl, value]

/-! ### Values are read back -/

/-- The spelling of a float that the reader takes as it is. -/
def SpellsFloat (spelling : String) : Prop :=
  (∃ c cs, spelling.toList = c :: cs ∧ (c = '-' ∨ c = 'N' ∨ c = 'I' ∨ c.isDigit)) ∧
    ∀ rest, Closes rest → parseNumber (spelling.toList ++ rest) = some (.float spelling, rest)

mutual

/-- Values whose floats are spelled as the reader takes them, and whose objects repeat no key. -/
def Spelled : Json → Prop
  | .float spelling => SpellsFloat spelling
  | .arr items => AreSpelled items
  | .obj fields => (fields.map Prod.fst).Nodup ∧ FieldsSpelled fields
  | _ => True

/-- All items are spelled. -/
def AreSpelled : List Json → Prop
  | [] => True
  | x :: xs => Spelled x ∧ AreSpelled xs

/-- All fields hold spelled values. -/
def FieldsSpelled : List (String × Json) → Prop
  | [] => True
  | (_, x) :: xs => Spelled x ∧ FieldsSpelled xs

end

mutual

/-- A plain value has no floats. -/
theorem spelled_of_isPlain : ∀ j : Json, isPlain j → Spelled j
  | .null, _ => trivial
  | .bool _, _ => trivial
  | .int _, _ => trivial
  | .float _, plain => by simp [isPlain] at plain
  | .str _, _ => trivial
  | .arr items, plain => areSpelled_of_arePlain items (by simpa [isPlain] using plain)
  | .obj fields, plain => by
    simp only [isPlain, Bool.and_eq_true, decide_eq_true_eq] at plain
    exact ⟨plain.1, fieldsSpelled_of_fieldsArePlain fields plain.2⟩

/-- Nor have plain items. -/
theorem areSpelled_of_arePlain : ∀ xs : List Json, arePlain xs → AreSpelled xs
  | [], _ => trivial
  | x :: xs, plain => by
    simp only [arePlain, Bool.and_eq_true] at plain
    exact ⟨spelled_of_isPlain x plain.1, areSpelled_of_arePlain xs plain.2⟩

/-- Nor have plain fields. -/
theorem fieldsSpelled_of_fieldsArePlain : ∀ xs : List (String × Json), fieldsArePlain xs →
    FieldsSpelled xs
  | [], _ => trivial
  | (_, x) :: xs, plain => by
    simp only [fieldsArePlain, Bool.and_eq_true] at plain
    exact ⟨spelled_of_isPlain x plain.1, fieldsSpelled_of_fieldsArePlain xs plain.2⟩

end

mutual

/-- The fuel that reading a value takes. -/
def cost : Json → ℕ
  | .arr (x :: xs) => 2 + cost x + costItems xs
  | .obj ((_, x) :: xs) => 2 + cost x + costFields xs
  | _ => 1

/-- The fuel that reading further items takes. -/
def costItems : List Json → ℕ
  | [] => 0
  | x :: xs => 1 + cost x + costItems xs

/-- The fuel that reading further fields takes. -/
def costFields : List (String × Json) → ℕ
  | [] => 0
  | (_, x) :: xs => 1 + cost x + costFields xs

end

theorem skipSpace_lineBreak (indent : Option ℕ) (depth : ℕ) (cs : List Char) :
    skipSpace (lineBreak indent depth ++ cs) = skipSpace cs := by
  cases indent with
  | none => rfl
  | some width =>
    have blanks : ∀ n, skipSpace (List.replicate n ' ' ++ cs) = skipSpace cs := by
      intro n
      induction n with
      | zero => rfl
      | succ n ih => simpa [List.replicate_succ, skipSpace, isJsonSpace] using ih
    simpa [lineBreak, skipSpace, isJsonSpace] using blanks (width * depth)

theorem skipSpace_cons {c : Char} (h : isJsonSpace c = false) (cs : List Char) :
    skipSpace (c :: cs) = c :: cs := by
  simp [skipSpace, h]

/-- A separator is a comma and then whitespace. -/
theorem exists_separator (indent : Option ℕ) (depth : ℕ) : ∃ blanks,
    separator indent depth = ',' :: blanks ∧ ∀ cs, skipSpace (blanks ++ cs) = skipSpace cs := by
  cases indent with
  | none => exact ⟨[' '], rfl, fun cs => by simp [skipSpace, isJsonSpace]⟩
  | some width => exact ⟨_, rfl, skipSpace_lineBreak (some width) depth⟩

/-- A written value starts with a character that is neither whitespace nor the end
of an array. -/
theorem exists_write_cons (indent : Option ℕ) (depth : ℕ) {j : Json} (plain : Spelled j) :
    ∃ c cs, write indent depth j = c :: cs ∧ isJsonSpace c = false ∧ c ≠ ']' := by
  cases j with
  | null => exact ⟨'n', _, rfl, by decide, by decide⟩
  | bool value =>
    cases value
    exacts [⟨'f', _, rfl, by decide, by decide⟩, ⟨'t', _, rfl, by decide, by decide⟩]
  | int value =>
    rw [write, decimal]
    split_ifs
    · exact ⟨'-', _, rfl, by decide, by decide⟩
    · obtain ⟨c, cs, digits⟩ := List.exists_cons_of_ne_nil
        (Nat.toDigits_ne_nil (n := value.natAbs) (b := 10))
      have digit : c.isDigit := isDigit_toDigits value.natAbs c (by simp [digits])
      -- A digit is neither.
      obtain ⟨-, -, -, -, -, -, -, -, -, bracket, space⟩ := ne_of_isDigit digit
      exact ⟨c, cs, digits, space, bracket⟩
  | float spelling =>
    obtain ⟨⟨c, cs, text, first⟩, -⟩ := plain
    refine ⟨c, cs, text, ?_⟩
    rcases first with rfl | rfl | rfl | digit
    · decide
    · decide
    · decide
    · obtain ⟨-, -, -, -, -, -, -, -, -, bracket, space⟩ := ne_of_isDigit digit
      exact ⟨space, bracket⟩
  | str value => exact ⟨'"', _, by rw [write, quote], by decide, by decide⟩
  | arr items =>
    cases items
    exacts [⟨'[', _, by rw [write], by decide, by decide⟩,
      ⟨'[', _, by rw [write], by decide, by decide⟩]
  | obj fields =>
    cases fields
    exacts [⟨'{', _, by rw [write], by decide, by decide⟩,
      ⟨'{', _, by rw [write], by decide, by decide⟩]

theorem skipSpace_write (indent : Option ℕ) (depth : ℕ) {j : Json} (plain : Spelled j)
    (cs : List Char) : skipSpace (write indent depth j ++ cs) = write indent depth j ++ cs := by
  obtain ⟨c, more, written, space, -⟩ := exists_write_cons indent depth plain
  rw [written, List.cons_append, skipSpace_cons space]

/-- What may follow an item or a field closes it. -/
theorem closes_lineBreak (indent : Option ℕ) (depth : ℕ) {c : Char} (bracket : c = ']' ∨ c = '}')
    (rest : List Char) : Closes (lineBreak indent depth ++ c :: rest) := by
  intro first hfirst
  cases indent with
  | none =>
    obtain rfl : c = first := by simpa [lineBreak] using hfirst
    exact .inr (bracket.imp id .inl)
  | some width =>
    obtain rfl : '\n' = first := by simpa [lineBreak] using hfirst
    exact .inr (.inr (.inr rfl))

theorem closes_separator (indent : Option ℕ) (depth : ℕ) (rest : List Char) :
    Closes (separator indent depth ++ rest) := by
  obtain ⟨blanks, written, -⟩ := exists_separator indent depth
  intro first hfirst
  obtain rfl : ',' = first := by simpa [written] using hfirst
  exact .inl rfl

/-- The text of a value is read back, whatever closes it. -/
def ReadsBack (indent : Option ℕ) (j : Json) : Prop :=
  ∀ fuel depth rest, cost j ≤ fuel → Closes rest →
    parseValue fuel (write indent depth j ++ rest) = some (j, rest)

/-- Reading one field of an object. -/
theorem parseFields_field {indent : Option ℕ} {x : Json} {key : String} {fields : Fields}
    {fuel depth : ℕ} {rest : List Char} (plain : Spelled x) (readsBack : ReadsBack indent x)
    (enough : cost x ≤ fuel) (closes : Closes rest) :
    parseFields (fuel + 1) fields (quote key ++ (':' :: ' ' :: (write indent depth x ++ rest))) =
      match skipSpace rest with
      | '}' :: rest => some (.obj (fields.set key x), rest)
      | ',' :: rest => parseFields fuel (fields.set key x) (skipSpace rest)
      | _ => none := by
  have value : skipSpace (' ' :: (write indent depth x ++ rest)) = write indent depth x ++ rest :=
    skipSpace_write indent depth plain rest
  simp only [quote, List.cons_append, List.append_assoc, List.nil_append]
  rw [parseFields]
  simp only [scanString_quote, skipSpace_cons (c := ':') (by decide), value,
    readsBack fuel depth rest enough closes, String.ofList_toList]

theorem notMem_of_nodup_append {ι : Type*} {before after : List ι} {k : ι}
    (distinct : (before ++ k :: after).Nodup) : k ∉ before := fun member =>
  (List.nodup_append.mp distinct).2.2 k member k (.head _) rfl

/-- The text of a number starts as no other kind of value does. -/
theorem readsBack_of_number {indent : Option ℕ} {j : Json} {text : List Char}
    (written : ∀ depth, write indent depth j = text) (positive : 0 < cost j)
    (starts : ∃ c cs, text = c :: cs ∧ (c = '-' ∨ c = 'N' ∨ c = 'I' ∨ c.isDigit))
    (number : ∀ rest, Closes rest → parseNumber (text ++ rest) = some (j, rest)) :
    ReadsBack indent j := by
  intro fuel depth rest enough closes
  obtain ⟨fuel, rfl⟩ : ∃ less, fuel = less + 1 := ⟨fuel - 1, by omega⟩
  have number := number rest closes
  rw [written]
  obtain ⟨c, cs, rfl, first⟩ := starts
  have other : c ≠ '"' ∧ c ≠ '{' ∧ c ≠ '[' ∧ c ≠ 'n' ∧ c ≠ 't' ∧ c ≠ 'f' := by
    rcases first with rfl | rfl | rfl | digit
    · decide
    · decide
    · decide
    · obtain ⟨-, -, -, h₁, h₂, h₃, h₄, h₅, h₆, -⟩ := ne_of_isDigit digit
      exact ⟨h₁, h₂, h₃, h₄, h₅, h₆⟩
  obtain ⟨h₁, h₂, h₃, h₄, h₅, h₆⟩ := other
  rw [List.cons_append, parseValue, if_neg h₁, if_neg h₂, if_neg h₃, if_neg h₄, if_neg h₅,
    if_neg h₆, ← List.cons_append, number]

/-- The text of an integer starts with a minus sign or a digit. -/
theorem readsBack_int (indent : Option ℕ) (value : Int) : ReadsBack indent (.int value) := by
  refine readsBack_of_number (fun depth => by rw [write]) (by simp [cost]) ?_
    fun rest closes => parseNumber_decimal value closes
  unfold decimal
  split_ifs
  · exact ⟨'-', _, rfl, .inl rfl⟩
  · obtain ⟨c, cs, digits⟩ := List.exists_cons_of_ne_nil
      (Nat.toDigits_ne_nil (n := value.natAbs) (b := 10))
    exact ⟨c, cs, digits, .inr (.inr (.inr (isDigit_toDigits value.natAbs c (by simp [digits]))))⟩

mutual

/-- A value whose text is read in one step is read back. -/
theorem readsBack_of_step {indent : Option ℕ} {j : Json} (positive : 0 < cost j)
    (step : ∀ fuel depth rest,
      parseValue (fuel + 1) (write indent depth j ++ rest) = some (j, rest)) :
    ReadsBack indent j := by
  rintro (_ | fuel) depth rest enough -
  · exact absurd enough (Nat.not_le.mpr positive)
  · exact step fuel depth rest

/-- Spelled values are read back. -/
theorem readsBack_of_spelled (indent : Option ℕ) : ∀ j : Json, Spelled j → ReadsBack indent j
  | .null, _ => by
    refine readsBack_of_step (by simp [cost]) fun fuel depth rest => ?_
    simp [write, parseValue, dropLiteral?]
  | .bool true, _ => by
    refine readsBack_of_step (by simp [cost]) fun fuel depth rest => ?_
    simp [write, parseValue, dropLiteral?]
  | .bool false, _ => by
    refine readsBack_of_step (by simp [cost]) fun fuel depth rest => ?_
    simp [write, parseValue, dropLiteral?]
  | .int value, _ => readsBack_int indent value
  | .float _, plain =>
    readsBack_of_number (fun depth => by rw [write]) (by simp [cost]) plain.1 plain.2
  | .str value, _ => by
    refine readsBack_of_step (by simp [cost]) fun fuel depth rest => ?_
    simp [write, quote, parseValue, scanString_quote]
  | .arr [], _ => by
    refine readsBack_of_step (by simp [cost]) fun fuel depth rest => ?_
    simp [write, parseValue, skipSpace, isJsonSpace]
  -- Values with parts are read by the loops over items and fields, which come first.
  | .arr (x :: xs), plain => by
    rintro (_ | fuel) depth rest enough closes
    · simp [cost] at enough
    simp only [Spelled, AreSpelled] at plain
    simp only [cost] at enough
    have items := readsBack_items indent xs plain.2 x (readsBack_of_spelled indent x plain.1)
      [] fuel depth rest (by omega)
    -- The text of an item never starts with the bracket that closes an empty list.
    obtain ⟨c, cs, written, space, bracket⟩ := exists_write_cons indent (depth + 1) plain.1
    simp only [write, List.cons_append, List.append_assoc, List.nil_append] at items ⊢
    rw [parseValue]
    simp only [Char.reduceEq, if_false, if_true, skipSpace_lineBreak, skipSpace_write _ _ plain.1]
    rw [written] at items ⊢
    simp only [List.cons_append]
    split
    · case h_1 eq => exact absurd (List.cons.inj eq).1 bracket
    · simpa using items
  | .obj [], _ => by
    refine readsBack_of_step (by simp [cost]) fun fuel depth rest => ?_
    simp [write, parseValue, skipSpace, isJsonSpace]
  | .obj ((key, x) :: xs), plain => by
    rintro (_ | fuel) depth rest enough closes
    · simp [cost] at enough
    simp only [Spelled, FieldsSpelled] at plain
    simp only [cost] at enough
    have fields := readsBack_fields indent xs plain.2.2 key x
      plain.2.1 (readsBack_of_spelled indent x plain.2.1) [] (by simpa [Dict.keys] using plain.1)
      fuel depth rest (by omega)
    simp only [write, quote, List.cons_append, List.append_assoc, List.nil_append] at fields ⊢
    rw [parseValue]
    simpa [skipSpace_lineBreak, skipSpace_cons, isJsonSpace] using fields

/-- Items are read back, the first of them being `x`. -/
theorem readsBack_items (indent : Option ℕ) : ∀ xs : List Json, AreSpelled xs → ∀ x : Json,
    ReadsBack indent x → ∀ (items : List Json) (fuel depth : ℕ) (rest : List Char),
      1 + cost x + costItems xs ≤ fuel →
        parseItems fuel items (write indent (depth + 1) x ++ (writeItems indent (depth + 1) xs ++
          (lineBreak indent depth ++ ']' :: rest))) = some (.arr (items ++ x :: xs), rest)
  | [], _, x, first, items, 0, depth, rest, enough => by simp at enough
  | [], _, x, first, items, fuel + 1, depth, rest, enough => by
    simp only [writeItems, List.nil_append, costItems] at enough ⊢
    rw [parseItems, first fuel _ _ (by omega) (closes_lineBreak indent depth (.inl rfl) rest)]
    simp [skipSpace_lineBreak, skipSpace_cons, isJsonSpace]
  | x' :: xs, plain, x, first, items, 0, depth, rest, enough => by simp at enough
  | x' :: xs, plain, x, first, items, fuel + 1, depth, rest, enough => by
    simp only [AreSpelled] at plain
    simp only [writeItems, costItems, List.append_assoc] at enough ⊢
    have others := readsBack_items indent xs plain.2 x' (readsBack_of_spelled indent x' plain.1)
      (items ++ [x]) fuel depth rest (by omega)
    rw [parseItems, first fuel _ _ (by omega) (closes_separator indent _ _)]
    obtain ⟨blanks, separated, skipped⟩ := exists_separator indent (depth + 1)
    simp only [separated, List.cons_append, skipSpace_cons (c := ',') (by decide), skipped,
      skipSpace_write _ _ plain.1]
    simpa using others

/-- Fields are read back, the first of them being `x` under `key`. -/
theorem readsBack_fields (indent : Option ℕ) : ∀ xs : List (String × Json), FieldsSpelled xs →
    ∀ (key : String) (x : Json), Spelled x → ReadsBack indent x → ∀ fields : Fields,
      (Dict.keys fields ++ key :: Dict.keys xs).Nodup →
        ∀ (fuel depth : ℕ) (rest : List Char), 1 + cost x + costFields xs ≤ fuel →
          parseFields fuel fields (quote key ++ (':' :: ' ' :: (write indent (depth + 1) x ++
            (writeFields indent (depth + 1) xs ++ (lineBreak indent depth ++ '}' :: rest))))) =
              some (.obj (fields ++ (key, x) :: xs), rest)
  | [], _, key, x, plain, first, fields, distinct, 0, depth, rest, enough => by simp at enough
  | [], _, key, x, plain, first, fields, distinct, fuel + 1, depth, rest, enough => by
    simp only [writeFields, List.nil_append, costFields] at enough ⊢
    rw [parseFields_field plain first (by omega) (closes_lineBreak indent depth (.inr rfl) rest),
      Dict.set_of_notMem (notMem_of_nodup_append distinct)]
    simp [skipSpace_lineBreak, skipSpace_cons, isJsonSpace]
  | (key', x') :: xs, plains, key, x, plain, first, fields, distinct, 0, depth, rest, enough => by
    simp at enough
  | (key', x') :: xs, plains, key, x, plain, first, fields, distinct, fuel + 1, depth, rest,
      enough => by
    simp only [FieldsSpelled] at plains
    simp only [writeFields, costFields, List.append_assoc] at enough ⊢
    -- The induction is on the fields still to be written; those read so far carry their keys.
    have others := readsBack_fields indent xs plains.2 key' x' plains.1
      (readsBack_of_spelled indent x' plains.1) (fields ++ [(key, x)])
      (by simpa [Dict.keys] using distinct) fuel depth rest (by omega)
    rw [parseFields_field plain first (by omega) (closes_separator indent _ _),
      Dict.set_of_notMem (notMem_of_nodup_append distinct)]
    obtain ⟨blanks, separated, skipped⟩ := exists_separator indent (depth + 1)
    have quoted : ∀ cs, skipSpace (quote key' ++ cs) = quote key' ++ cs := fun cs =>
      skipSpace_cons (by decide) _
    simp only [separated, List.cons_append, List.append_assoc,
      skipSpace_cons (c := ',') (by decide), skipped, quoted]
    simpa using others

end

mutual

/-- Every step of the reader is paid for by a character. -/
theorem cost_le_length (indent : Option ℕ) : ∀ (j : Json) (depth : ℕ), Spelled j →
    cost j ≤ (write indent depth j).length
  | .null, _, _ => by simp [cost, write]
  | .bool true, _, _ => by simp [cost, write]
  | .bool false, _, _ => by simp [cost, write]
  | .int value, depth, plain => by
    obtain ⟨c, cs, written, -⟩ := exists_write_cons indent depth plain
    simp [cost, written]
  | .float spelling, depth, plain => by
    obtain ⟨c, cs, written, -⟩ := exists_write_cons indent depth (j := .float spelling) plain
    simp [cost, written]
  | .str value, _, _ => by simp [cost, write, quote]
  | .arr [], _, _ => by simp [cost, write]
  | .arr (x :: xs), depth, plain => by
    simp only [Spelled, AreSpelled] at plain
    have first := cost_le_length indent x (depth + 1) plain.1
    have others := costItems_le_length indent xs (depth + 1) plain.2
    simp only [cost, write, List.length_cons, List.length_append, List.length_nil]
    omega
  | .obj [], _, _ => by simp [cost, write]
  | .obj ((key, x) :: xs), depth, plain => by
    simp only [Spelled, FieldsSpelled] at plain
    have first := cost_le_length indent x (depth + 1) plain.2.1
    have others := costFields_le_length indent xs (depth + 1) plain.2.2
    simp only [cost, write, List.length_cons, List.length_append, List.length_nil]
    omega

theorem costItems_le_length (indent : Option ℕ) : ∀ (xs : List Json) (depth : ℕ), AreSpelled xs →
    costItems xs ≤ (writeItems indent depth xs).length
  | [], _, _ => by simp [costItems]
  | x :: xs, depth, plain => by
    simp only [AreSpelled] at plain
    have first := cost_le_length indent x depth plain.1
    have others := costItems_le_length indent xs depth plain.2
    obtain ⟨blanks, separated, -⟩ := exists_separator indent depth
    simp only [costItems, writeItems, separated, List.length_cons, List.length_append]
    omega

theorem costFields_le_length (indent : Option ℕ) : ∀ (xs : List (String × Json)) (depth : ℕ),
    FieldsSpelled xs → costFields xs ≤ (writeFields indent depth xs).length
  | [], _, _ => by simp [costFields]
  | (key, x) :: xs, depth, plain => by
    simp only [FieldsSpelled] at plain
    have first := cost_le_length indent x depth plain.1
    have others := costFields_le_length indent xs depth plain.2
    simp only [costFields, writeFields, List.length_cons, List.length_append]
    omega

end

theorem loads_write (indent : Option ℕ) {j : Json} (plain : Spelled j) {blanks : List Char}
    (closes : Closes blanks) (blank : skipSpace blanks = []) :
    loads (.ofList (write indent 0 j ++ blanks)) = some j := by
  have enough := cost_le_length indent j 0 plain
  have read := readsBack_of_spelled indent j plain
    ((write indent 0 j ++ blanks).length + 1) 0 blanks (by simp; omega) closes
  rw [loads]
  simp only [String.toList_ofList, skipSpace_write indent 0 plain, read, blank, if_true]

/-- **What is written is read back.** -/
theorem loads_dumps_of_spelled {j : Json} (spelled : Spelled j) : loads (dumps j) = some j := by
  simpa [dumps] using loads_write none spelled closes_nil rfl

theorem loads_dumps {j : Json} (plain : isPlain j) : loads (dumps j) = some j :=
  loads_dumps_of_spelled (spelled_of_isPlain j plain)

/-- An indented text and its final newline are read back. -/
theorem loads_dumpIndented {j : Json} (plain : isPlain j) :
    loads (dumpIndented j ++ "\n") = some j := by
  have newline : dumpIndented j ++ "\n" = .ofList (write (some 2) 0 j ++ ['\n']) := by
    simp [dumpIndented, String.ofList_append]
  rw [newline]
  refine loads_write (some 2) (spelled_of_isPlain j plain) (fun c hc => ?_) (by decide)
  obtain rfl : '\n' = c := by simpa using hc
  exact .inr (.inr (.inr rfl))

/-! ### Sizes -/

/-- `len(json.dumps(value, ensure_ascii=False).encode())`. -/
def bytes (j : Json) : ℕ := (dumps j).utf8ByteSize

mutual

/-- Without indentation a value is written alike at every depth. -/
theorem write_none_depth (d e : ℕ) : ∀ j : Json, write none d j = write none e j
  | .null => rfl
  | .bool value => by cases value <;> rfl
  | .int _ => rfl
  | .float _ => rfl
  | .str _ => rfl
  | .arr [] => rfl
  | .arr (x :: xs) => by
    simp only [write, lineBreak, write_none_depth (d + 1) (e + 1) x,
      writeItems_none_depth (d + 1) (e + 1) xs]
  | .obj [] => rfl
  | .obj ((key, x) :: xs) => by
    simp only [write, lineBreak, write_none_depth (d + 1) (e + 1) x,
      writeFields_none_depth (d + 1) (e + 1) xs]

/-- So are items. -/
theorem writeItems_none_depth (d e : ℕ) :
    ∀ xs : List Json, writeItems none d xs = writeItems none e xs
  | [] => rfl
  | x :: xs => by
    simp only [writeItems, separator, write_none_depth d e x, writeItems_none_depth d e xs]

/-- So are fields. -/
theorem writeFields_none_depth (d e : ℕ) :
    ∀ xs : List (String × Json), writeFields none d xs = writeFields none e xs
  | [] => rfl
  | (key, x) :: xs => by
    simp only [writeFields, separator, write_none_depth d e x, writeFields_none_depth d e xs]

end

theorem sum_bytes_le_writeItems (xs : List Json) :
    (xs.map bytes).sum ≤ (String.ofList (writeItems none 0 xs)).utf8ByteSize := by
  induction xs with
  | nil => exact Nat.zero_le _
  | cons x xs ih =>
    rw [List.map_cons, List.sum_cons, writeItems, String.ofList_append, String.ofList_append,
      String.utf8ByteSize_append, String.utf8ByteSize_append, bytes, dumps]
    omega

/-- A list is no smaller than its items are together. -/
theorem sum_bytes_le (xs : List Json) : (xs.map bytes).sum ≤ bytes (.arr xs) := by
  cases xs with
  | nil => exact Nat.zero_le _
  | cons x xs =>
    have items := sum_bytes_le_writeItems xs
    have split : write none 0 (.arr (x :: xs)) =
        ['['] ++ (write none 0 x ++ (writeItems none 0 xs ++ [']'])) := by
      rw [write, write_none_depth 1 0, writeItems_none_depth 1 0]
      rfl
    rw [List.map_cons, List.sum_cons, bytes, bytes, dumps, dumps, split]
    simp only [String.ofList_append, String.utf8ByteSize_append]
    omega

/-- Items after the first are written with two more bytes. -/
theorem bytes_writeItems (xs : List Json) :
    (String.ofList (writeItems none 0 xs)).utf8ByteSize = (xs.map bytes).sum + 2 * xs.length := by
  induction xs with
  | nil => rfl
  | cons x xs ih =>
    have between : (String.ofList (separator none 0)).utf8ByteSize = 2 := by decide
    rw [writeItems, String.ofList_append, String.ofList_append, String.utf8ByteSize_append,
      String.utf8ByteSize_append, ih, List.map_cons, List.sum_cons, List.length_cons, bytes, dumps,
      between]
    omega

/-- The size of a list that has items. -/
theorem bytes_arr {xs : List Json} (some : xs ≠ []) :
    bytes (.arr xs) = (xs.map bytes).sum + 2 * xs.length := by
  obtain ⟨x, xs, rfl⟩ := List.exists_cons_of_ne_nil some
  have split : write none 0 (.arr (x :: xs)) =
      ['['] ++ (write none 0 x ++ (writeItems none 0 xs ++ [']'])) := by
    rw [write, write_none_depth 1 0, writeItems_none_depth 1 0]
    rfl
  have opens : (String.ofList ['[']).utf8ByteSize = 1 := by decide
  have closes : (String.ofList [']']).utf8ByteSize = 1 := by decide
  rw [List.map_cons, List.sum_cons, List.length_cons, bytes, bytes, dumps, dumps, split]
  simp only [String.ofList_append, String.utf8ByteSize_append]
  rw [bytes_writeItems, opens, closes]
  omega

/-- Items after the first are written without blanks, each behind a comma. -/
theorem bytes_compactItems (xs : List Json) : (String.ofList (compactItems xs)).utf8ByteSize =
    (xs.map fun x => x.dumpCompact.utf8ByteSize + 1).sum := by
  induction xs with
  | nil => rfl
  | cons x xs ih =>
    have comma : (String.ofList [',']).utf8ByteSize = 1 := by decide
    rw [compactItems, ← List.singleton_append, String.ofList_append, String.ofList_append,
      String.utf8ByteSize_append, String.utf8ByteSize_append, ih, comma, List.map_cons,
      List.sum_cons, dumpCompact]
    omega

/-- The size of a list that has items, without blanks. -/
theorem bytes_dumpCompact_arr {xs : List Json} (some : xs ≠ []) :
    (dumpCompact (.arr xs)).utf8ByteSize =
      (xs.map fun x => x.dumpCompact.utf8ByteSize + 1).sum + 1 := by
  obtain ⟨x, xs, rfl⟩ := List.exists_cons_of_ne_nil some
  have opens : (String.ofList ['[']).utf8ByteSize = 1 := by decide
  have closes : (String.ofList [']']).utf8ByteSize = 1 := by decide
  rw [dumpCompact, writeCompact, ← List.singleton_append, String.ofList_append,
    String.ofList_append, String.ofList_append, String.utf8ByteSize_append,
    String.utf8ByteSize_append, String.utf8ByteSize_append, bytes_compactItems, opens, closes,
    List.map_cons, List.sum_cons, dumpCompact]
  omega

end Json

end AgentLabs.Text
