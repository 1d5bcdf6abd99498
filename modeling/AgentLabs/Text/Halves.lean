import AgentLabs.Text.JsonText

/-!
# Halves of surrogate pairs, and integers of many digits

An escape in a JSON text may stand for one half of a surrogate pair without the other. `json.loads`
reads it, as a character that no encoding has, where `Json.loads` refuses it. And an integer of
more digits than the interpreter takes is a `ValueError` there, where `Json.loads` reads it.

A text is rewritten so that `Json.loads` reads of it what `json.loads` reads. A half is spelled
out, as so many question marks as no other string of the calls has in a row, and its digits: then
strings are equal if and only if they were, and a string has a half if and only if it has that many
question marks in a row. A text with an integer of too many digits gets a character that makes it
malformed.

## Main definitions

* `Json.spellHalves`: a text with its halves spelled out
* `Json.hasLongInteger`: a text has an integer of too many digits
* `Json.asRead`: a text as it is read
* `Json.hasHalf`: a string has a half

## Main results

* `Json.asRead_of_notMem`: a text without escapes is read as it is
-/

namespace AgentLabs.Text.Json

/-- The second half of a pair is escaped here. -/
def isLowEscape : List Char → Bool
  | '\\' :: 'u' :: a :: b :: c :: d :: _ =>
    (hexValue4? a b c d).any fun code => decide (0xDC00 ≤ code ∧ code ≤ 0xDFFF)
  | _ => false

/-- A half that is spelled out, in the place of its escape. -/
def spelledHalf (width : ℕ) (digits : List Char) : List Char :=
  List.replicate width '?' ++ digits.map Char.toLower

/-- The characters of a text with the halves spelled out. They stand inside of a string, or not;
the second half of a pair has been announced by the first, or not. -/
def spellFrom (width : ℕ) : Bool → Bool → List Char → List Char
  | _, _, [] => []
  | true, paired, '\\' :: 'u' :: a :: b :: c :: d :: rest =>
    -- What is no number of four digits is malformed, and stays so.
    match hexValue4? a b c d with
    | none => '\\' :: 'u' :: a :: b :: c :: d :: spellFrom width true false rest
    | some code =>
      -- The first half of a pair announces the second one.
      let opens := decide (0xD800 ≤ code ∧ code ≤ 0xDBFF) && isLowEscape rest
      if (code < 0xD800 ∨ 0xDFFF < code) ∨ paired = true ∨ opens = true then
        '\\' :: 'u' :: a :: b :: c :: d :: spellFrom width true opens rest
      else spelledHalf width [a, b, c, d] ++ spellFrom width true false rest
  | true, _, '\\' :: c :: rest => '\\' :: c :: spellFrom width true false rest
  | inside, _, c :: rest => c :: spellFrom width (inside ^^ decide (c = '"')) false rest

/-- The text with its halves spelled out. -/
def spellHalves (width : ℕ) (text : String) : String :=
  .ofList (spellFrom width false false text.toList)

/-- The string has a half that is spelled out. -/
def hasHalf (width : ℕ) (text : String) : Bool :=
  text.toList.tails.any fun rest => (List.replicate width '?').isPrefixOf rest

/-- The characters outside of the strings, with a space for each string. They stand inside of one,
or not. -/
def outsideFrom : Bool → List Char → List Char
  | _, [] => []
  | true, '\\' :: _ :: rest => outsideFrom true rest
  | true, c :: rest => outsideFrom (decide (c ≠ '"')) rest
  | false, c :: rest =>
    if c = '"' then ' ' :: outsideFrom true rest else c :: outsideFrom false rest

/-- The characters of numbers. -/
def isNumberChar (c : Char) : Bool := c.isDigit || c ∈ ['+', '-', '.', 'e', 'E']

/-- `sys.int_info.default_max_str_digits`. -/
def maxDigits : ℕ := 4300

/-- An integer of too many digits, with its sign. -/
def isLongInteger (token : List Char) : Bool :=
  decide (maxDigits < (token.filter Char.isDigit).length) &&
    token.all fun c => c.isDigit || c = '-'

/-- The text has an integer of too many digits. -/
def hasLongInteger (text : String) : Bool :=
  ((outsideFrom false text.toList).splitOnP fun c => !isNumberChar c).any isLongInteger

/-- The text, so that `loads` reads of it what `json.loads` reads. -/
def asRead (width : ℕ) (text : String) : String :=
  if hasLongInteger text = true then spellHalves width text ++ "?" else spellHalves width text

/-- A half without the other one is spelled out, a pair and what is no escape are not. -/
example : spellHalves 3 "[\"\\ud800\", \"\\ud83d\\ude00\", \"\\\\ud800\"]" =
    "[\"???d800\", \"\\ud83d\\ude00\", \"\\\\ud800\"]" := by
  decide +kernel

/-! ### Texts that are read as they are -/

/-- Without escapes there are no halves. -/
theorem spellFrom_of_notMem {width : ℕ} {inside paired : Bool} {cs : List Char}
    (plain : '\\' ∉ cs) : spellFrom width inside paired cs = cs := by
  fun_induction spellFrom width inside paired cs <;> simp_all

theorem length_outsideFrom_le (inside : Bool) (cs : List Char) :
    (outsideFrom inside cs).length ≤ cs.length := by
  fun_induction outsideFrom inside cs <;> simp_all <;> omega

theorem length_le_of_mem_splitOnP {p : Char → Bool} {cs token : List Char}
    (member : token ∈ cs.splitOnP p) : token.length ≤ cs.length := by
  induction cs generalizing token with
  | nil => simp_all
  | cons c cs ih =>
    rw [List.splitOnP_cons_eq_if_modifyHead] at member
    split_ifs at member
    · rcases List.mem_cons.mp member with rfl | later
      · exact Nat.zero_le _
      · exact Nat.le_succ_of_le (ih later)
    · cases split : cs.splitOnP p with
      | nil => simp [split] at member
      | cons first rest =>
        rw [split, List.modifyHead_cons, List.mem_cons] at member
        rw [split] at ih
        rcases member with rfl | later
        · exact Nat.succ_le_succ (ih (.head _))
        · exact Nat.le_succ_of_le (ih (.tail _ later))

/-- No integer is longer than the text. -/
theorem hasLongInteger_of_length_le {text : String} (short : text.toList.length ≤ maxDigits) :
    hasLongInteger text = false := by
  rw [hasLongInteger, List.any_eq_false]
  intro token member
  have few : (token.filter Char.isDigit).length ≤ maxDigits :=
    calc (token.filter Char.isDigit).length
      _ ≤ token.length := List.length_filter_le _ _
      _ ≤ (outsideFrom false text.toList).length := length_le_of_mem_splitOnP member
      _ ≤ text.toList.length := length_outsideFrom_le _ _
      _ ≤ maxDigits := short
  rw [isLongInteger, decide_eq_false (Nat.not_lt.mpr few), Bool.false_and]
  exact Bool.false_ne_true

/-- **A text without escapes** that is shorter than any long integer is read as it is. -/
theorem asRead_of_notMem {width : ℕ} {text : String} (plain : '\\' ∉ text.toList)
    (short : text.toList.length ≤ maxDigits) : asRead width text = text := by
  rw [asRead, hasLongInteger_of_length_le short, if_neg Bool.false_ne_true, spellHalves,
    spellFrom_of_notMem plain, String.ofList_toList]

end AgentLabs.Text.Json
