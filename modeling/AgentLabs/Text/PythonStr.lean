import Mathlib.Data.List.DropRight
import Mathlib.Data.List.Basic
import Mathlib.Algebra.Group.Nat.Defs
import Mathlib.Data.String.Basic

/-!
# The `str` operations of the programs

Strings are sequences of Unicode scalar values, as Lean's `String` has them. The
operations below follow the documented behaviour of Python's `str.strip`,
`str.split`, `str.replace` and `pathlib.PurePosixPath`, each defined on the list
of characters and wrapped for `String`.

`str.lower` maps every character through the Unicode case tables, so it stays a
parameter `lower : String → String` of the modules that need it; `asciiLower` is
what it does to ASCII text.

## Main definitions

* `strip`: remove surrounding whitespace
* `posixParts`, `pathName`: the segments and the last segment of a path
* `angleGroup`: the first group of the pattern `<([^>]+)>`
* `zeroPad`: a number written with leading zeros

## Main results

* `zeroPad_injective`: the number can be read back
* `zeroPad_lt`: numbers that fit the width are ordered as strings
-/

namespace AgentLabs.Text

/-- The code points that `str.isspace` accepts and `str.strip` removes. -/
def isSpace (c : Char) : Bool :=
  let n := c.toNat
  (9 ≤ n && n ≤ 13) || (28 ≤ n && n ≤ 32) || n == 0x85 || n == 0xA0 || n == 0x1680 ||
    (0x2000 ≤ n && n ≤ 0x200A) || n == 0x2028 || n == 0x2029 || n == 0x202F || n == 0x205F ||
    n == 0x3000

/-! ### Stripping -/

/-- Remove the characters satisfying `p` from both ends. -/
def trimBoth (p : Char → Bool) (cs : List Char) : List Char := (cs.dropWhile p).rdropWhile p

/-- `str.strip()`. -/
def strip (s : String) : String := .ofList (trimBoth isSpace s.toList)

@[simp] theorem toList_strip (s : String) : (strip s).toList = trimBoth isSpace s.toList := by
  simp [strip]

/-- Trimming twice changes nothing more. -/
theorem trimBoth_trimBoth (p : Char → Bool) (cs : List Char) :
    trimBoth p (trimBoth p cs) = trimBoth p cs := by
  unfold trimBoth
  have front : ((cs.dropWhile p).rdropWhile p).dropWhile p = (cs.dropWhile p).rdropWhile p := by
    cases h : (cs.dropWhile p).rdropWhile p with
    | nil => rfl
    | cons c rest =>
      have pref : c :: rest <+: cs.dropWhile p := h ▸ List.rdropWhile_prefix p _
      obtain ⟨more, split⟩ := pref
      have head := List.dropWhile_get_zero_not p cs (by rw [← split]; simp)
      simp only [← split, List.cons_append, List.get_eq_getElem, List.getElem_cons_zero] at head
      rw [List.dropWhile_cons_of_neg head]
  rw [front]
  exact List.rdropWhile_idempotent p _

@[simp] theorem strip_strip (s : String) : strip (strip s) = strip s := by
  apply String.toList_inj.mp
  simp [trimBoth_trimBoth]

/-- `not s.strip()`: the string holds nothing but whitespace. -/
def isBlank (s : String) : Bool := strip s = ""

theorem isBlank_strip (s : String) : isBlank (strip s) = isBlank s := by simp [isBlank]

/-- A string is blank if there is only whitespace in it. -/
theorem isBlank_iff {s : String} : isBlank s ↔ ∀ c ∈ s.toList, isSpace c := by
  have empty : isBlank s ↔ (s.toList.dropWhile isSpace).rdropWhile isSpace = [] := by
    rw [isBlank, decide_eq_true_iff, ← String.toList_inj, toList_strip]
    rfl
  rw [empty, List.rdropWhile_eq_nil_iff]
  constructor
  · intro rest c member
    rw [← List.takeWhile_append_dropWhile (p := isSpace) (l := s.toList), List.mem_append] at member
    exact member.elim List.mem_takeWhile_imp (rest c)
  · intro all c member
    exact all c ((List.dropWhile_sublist _).mem member)

/-- A string with a character other than whitespace is not blank. -/
theorem isBlank_of_mem {s : String} {c : Char} (member : c ∈ s.toList) (solid : isSpace c = false) :
    isBlank s = false := by
  apply Bool.eq_false_iff.mpr
  intro blank
  have space := isBlank_iff.mp blank c member
  rw [solid] at space
  cases space

/-! ### Paths -/

/-- The segments of a path as `pathlib` keeps them: the text between slashes,
without empty and `.` segments. -/
def posixParts (s : String) : List String :=
  ((s.toList.splitOn '/').map String.ofList).filter fun part => part ≠ "" ∧ part ≠ "."

/-- The segments of `a/b` are the segments of `a` and of `b`. -/
theorem posixParts_slash (a b : String) :
    posixParts (a ++ "/" ++ b) = posixParts a ++ posixParts b := by
  have slash : (a ++ "/" ++ b).toList = a.toList ++ '/' :: b.toList := by
    rw [String.toList_append, String.toList_append, show "/".toList = ['/'] from by decide]
    simp
  have split : (a.toList ++ '/' :: b.toList).splitOn '/' =
      a.toList.splitOn '/' ++ b.toList.splitOn '/' :=
    List.splitOnP_append_cons _ _ (beq_self_eq_true _)
  rw [posixParts, slash, split, List.map_append, List.filter_append]
  rfl

/-- `PurePosixPath(s).name`. -/
def pathName (s : String) : String := (posixParts s).getLastD ""

/-! ### Replacing and searching -/

/-- `str.replace("\\", "/")`. -/
def backslashToSlash (s : String) : String :=
  .ofList (s.toList.map fun c => if c = '\\' then '/' else c)

/-- Remove `..` from the left, without overlaps. -/
def dropDotDot : List Char → List Char
  | '.' :: '.' :: rest => dropDotDot rest
  | c :: rest => c :: dropDotDot rest
  | [] => []

/-- `str.replace("..", "")`. -/
def removeDotDot (s : String) : String := .ofList (dropDotDot s.toList)

/-- The first group of the leftmost match of `<([^>]+)>`: after a `<`, the
characters up to the next `>`, at least one of them. -/
def angleGroup : List Char → Option (List Char)
  | [] => none
  | c :: rest =>
    if c = '<' then
      let body := rest.takeWhile (· ≠ '>')
      if body ≠ [] ∧ body.length < rest.length then some body else angleGroup rest
    else angleGroup rest

/-- The text after the last `@`, as `s.rsplit("@", 1)[-1]` gives it; the whole
string when there is none. -/
def afterLastAt (s : String) : String := .ofList (s.toList.rtakeWhile (· ≠ '@'))

/-- What `str.lower` does to ASCII text. -/
def asciiLower (s : String) : String := .ofList (s.toList.map Char.toLower)

/-! ### Numbers -/

/-- The code points of the decimal digits zero; the nine others follow each of them. -/
def decimalZeros : List ℕ :=
  [0x30, 0x660, 0x6F0, 0x7C0, 0x966, 0x9E6, 0xA66, 0xAE6, 0xB66, 0xBE6, 0xC66, 0xCE6, 0xD66,
    0xDE6, 0xE50, 0xED0, 0xF20, 0x1040, 0x1090, 0x17E0, 0x1810, 0x1946, 0x19D0, 0x1A80, 0x1A90,
    0x1B50, 0x1BB0, 0x1C40, 0x1C50, 0xA620, 0xA8D0, 0xA900, 0xA9D0, 0xA9F0, 0xAA50, 0xABF0,
    0xFF10, 0x104A0, 0x10D30, 0x11066, 0x110F0, 0x11136, 0x111D0, 0x112F0, 0x11450, 0x114D0,
    0x11650, 0x116C0, 0x11730, 0x118E0, 0x11950, 0x11C50, 0x11D50, 0x11DA0, 0x11F50, 0x16A60,
    0x16AC0, 0x16B50, 0x1D7CE, 0x1D7D8, 0x1D7E2, 0x1D7EC, 0x1D7F6, 0x1E140, 0x1E2F0, 0x1E4F0,
    0x1E950, 0x1FBF0]

/-- `\d` of a pattern on `str`. -/
def isDecimal (c : Char) : Bool := decimalZeros.any fun z => z ≤ c.toNat && c.toNat < z + 10

/-- The value of a decimal digit. -/
def decimalValue? (c : Char) : Option ℕ :=
  (decimalZeros.find? fun z => z ≤ c.toNat && c.toNat < z + 10).map fun z => c.toNat - z

/-- Read digits into a number, with single underscores between them. -/
def readDigits (number : ℕ) (afterDigit : Bool) : List Char → Option ℕ
  | [] => if afterDigit then some number else none
  | c :: cs =>
    if c = '_' then if afterDigit then readDigits number false cs else none
    else (decimalValue? c).bind fun value => readDigits (10 * number + value) true cs

/-- `int(text)`; `none` when the text spells no integer. -/
def integerOf? (s : String) : Option ℤ :=
  match (strip s).toList with
  | '-' :: cs => (readDigits 0 false cs).map fun n => -(n : ℤ)
  | '+' :: cs => (readDigits 0 false cs).map fun n => (n : ℤ)
  | cs => (readDigits 0 false cs).map fun n => (n : ℤ)

/-- `[0-9a-f]` of a pattern. -/
def isHexDigit (c : Char) : Bool := ('0' ≤ c && c ≤ '9') || ('a' ≤ c && c ≤ 'f')

/-- `f"{n:0{width}d}"`, as characters. -/
def zeroPad (width n : ℕ) : List Char :=
  List.replicate (width - (Nat.toDigits 10 n).length) '0' ++ Nat.toDigits 10 n

theorem ofDigitChars_zeroPad (width n : ℕ) : Nat.ofDigitChars 10 (zeroPad width n) 0 = n := by
  simp [zeroPad, Nat.ofDigitChars_append]

/-- The number can be read back from its padded form. -/
theorem zeroPad_injective (width : ℕ) : Function.Injective (zeroPad width) := fun m n same => by
  rw [← ofDigitChars_zeroPad width m, same, ofDigitChars_zeroPad]

theorem isDigit_zeroPad {width n : ℕ} {c : Char} (member : c ∈ zeroPad width n) : c.isDigit := by
  rcases List.mem_append.mp member with zero | digit
  · rw [List.eq_of_mem_replicate zero]
    rfl
  · exact Nat.isDigit_of_mem_toDigits (by decide) (by decide) digit

theorem isDecimal_of_isDigit {c : Char} (digit : c.isDigit) : isDecimal c := by
  simp only [Char.isDigit, Bool.and_eq_true, decide_eq_true_eq] at digit
  have low : 0x30 ≤ c.toNat := digit.1
  have high : c.toNat ≤ 0x39 := digit.2
  simp only [isDecimal, decimalZeros, List.any_cons, Bool.or_eq_true, Bool.and_eq_true,
    decide_eq_true_eq]
  exact .inl ⟨low, by omega⟩

/-- The padded form has the given width exactly if the number fits it. -/
theorem length_zeroPad_eq_iff {width n : ℕ} (positive : 0 < width) :
    (zeroPad width n).length = width ↔ n < 10 ^ width := by
  rw [← Nat.length_toDigits_le_iff (by decide) positive, zeroPad, List.length_append,
    List.length_replicate]
  omega

theorem ofDigitChars_lt {cs : List Char} (digits : ∀ c ∈ cs, c.isDigit) :
    Nat.ofDigitChars 10 cs 0 < 10 ^ cs.length := by
  induction cs with
  | nil => simp
  | cons c cs ih =>
    have below := ih fun d member => digits d (.tail _ member)
    have digit := digits c (.head _)
    simp only [Char.isDigit, Bool.and_eq_true, decide_eq_true_eq] at digit
    have high : c.toNat ≤ 57 := digit.2
    rw [Nat.ofDigitChars_cons, Nat.ofDigitChars_eq_ofDigitChars_zero, List.length_cons,
      Nat.pow_succ]
    have size : c.toNat - '0'.toNat ≤ 9 := by
      have : '0'.toNat = 48 := rfl
      omega
    have first := Nat.mul_le_mul_left (10 ^ cs.length) size
    rw [Nat.mul_zero, Nat.zero_add]
    omega

/-- Numerals of one length are ordered as the numbers they stand for. -/
theorem lt_of_ofDigitChars_lt {cs ds : List Char} (same : cs.length = ds.length)
    (digits : ∀ c ∈ cs, c.isDigit) (digits' : ∀ d ∈ ds, d.isDigit)
    (less : Nat.ofDigitChars 10 cs 0 < Nat.ofDigitChars 10 ds 0) : cs < ds := by
  induction cs generalizing ds with
  | nil =>
    rw [List.length_nil] at same
    rw [List.eq_nil_of_length_eq_zero same.symm] at less
    exact absurd less (lt_irrefl _)
  | cons c cs ih =>
    obtain _ | ⟨d, ds⟩ := ds
    · simp at same
    have tails : cs.length = ds.length := by simpa using same
    have rest := fun e member => digits e (.tail _ member)
    have rest' := fun e member => digits' e (.tail _ member)
    rw [Nat.ofDigitChars_cons, Nat.ofDigitChars_eq_ofDigitChars_zero, Nat.ofDigitChars_cons,
      Nat.ofDigitChars_eq_ofDigitChars_zero (l := ds), tails] at less
    have bound := ofDigitChars_lt rest'
    have low : ∀ e : Char, e.isDigit → 48 ≤ e.toNat := fun e digit => by
      simp only [Char.isDigit, Bool.and_eq_true, decide_eq_true_eq] at digit
      exact digit.1
    have lowC := low c (digits c (.head _))
    have lowD := low d (digits' d (.head _))
    have zero : '0'.toNat = 48 := rfl
    rcases Nat.lt_trichotomy c.toNat d.toNat with first | equal | first
    · exact List.cons_lt_cons_iff.mpr (.inl first)
    · have equal : c = d := Char.toNat_inj.mp equal
      subst equal
      exact List.cons_lt_cons_iff.mpr (.inr ⟨rfl, ih tails rest rest' (by omega)⟩)
    · -- A larger first digit outweighs all that follows it.
      exfalso
      have step : d.toNat - '0'.toNat + 1 ≤ c.toNat - '0'.toNat := by omega
      have := Nat.mul_le_mul_left (10 ^ ds.length) step
      rw [Nat.mul_add] at this
      simp only [Nat.mul_zero, Nat.zero_add] at less
      omega

/-- Numbers that fit the width are ordered as strings. -/
theorem zeroPad_lt {width m n : ℕ} (positive : 0 < width) (less : m < n) (fits : n < 10 ^ width) :
    zeroPad width m < zeroPad width n := by
  apply lt_of_ofDigitChars_lt
  · rw [(length_zeroPad_eq_iff positive).mpr (less.trans fits),
      (length_zeroPad_eq_iff positive).mpr fits]
  · exact fun _ member => isDigit_zeroPad member
  · exact fun _ member => isDigit_zeroPad member
  · simpa [ofDigitChars_zeroPad] using less

/-- What follows two lists of one length does not change their order. -/
theorem append_lt_append {as bs : List Char} (same : as.length = bs.length) (less : as < bs)
    (cs ds : List Char) : as ++ cs < bs ++ ds := by
  induction as generalizing bs with
  | nil =>
    rw [List.length_nil] at same
    rw [List.eq_nil_of_length_eq_zero same.symm] at less
    exact absurd less (List.lt_irrefl _)
  | cons a as ih =>
    obtain _ | ⟨b, bs⟩ := bs
    · simp at same
    have tails : as.length = bs.length := by simpa using same
    rw [List.cons_append, List.cons_append, List.cons_lt_cons_iff]
    exact (List.cons_lt_cons_iff.mp less).imp_right fun later => ⟨later.1, ih tails later.2⟩

/-! ### The order of texts -/

/-- `sorted` compares texts by their code points, and so does `String`. -/
instance string_le_isTrans : IsTrans String (· ≤ ·) := instIsTransLe

instance string_le_antisymm : @Std.Antisymm String (· ≤ ·) := instAntisymmLe

example : zeroPad 8 12 = "00000012".toList := by decide

example : strip " Alpha \n" = "Alpha" := by decide

example : pathName "../beta/hr_data.md" = "hr_data.md" := by decide

example : angleGroup " Kim <kim@x> <lee@x>".toList = some "kim@x".toList := by decide

end AgentLabs.Text
