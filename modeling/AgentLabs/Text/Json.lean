import AgentLabs.Math.Dict

/-!
# JSON values

The values that cross the tool boundaries of the programs: what `json.loads`
returns and what the arguments and the results of a tool call are made of. A
boolean is not an integer here, as it is not one for the source's `type(x) is int`;
Python's `==` does take it for one, and so does `Json.pyEq`.

A float is known by its spelling. Floats are compared by the decimal number that
is spelled, without the rounding to a double.

## Main definitions

* `Json`: values
* `Json.ofDouble`: the floats that are integers
* `Json.asStr?`, `Json.asInt?`, `Json.asObj?`: the type tests of the source
* `Json.pyEq`: Python's `==`
* `Json.isPlain`: values without floats and without repeated keys

## Main results

* `Json.pyEq_refl`: a plain value equals itself
-/

namespace AgentLabs.Text

open Math

/-- A JSON value. A number with a fraction or an exponent is known by its spelling. -/
inductive Json where
  | null
  | bool (value : Bool)
  | int (value : Int)
  | float (spelling : String)
  | str (value : String)
  | arr (items : List Json)
  | obj (fields : List (String × Json))
  deriving Repr

/-- A float that is an integer, spelled out without an exponent. -/
def Json.ofDouble (n : Int) : Json :=
  .float ((if n < 0 then "-" else "") ++ toString n.natAbs ++ ".0")

/-- The fields of an object. -/
abbrev Fields := Dict String Json

/-- `isinstance(value, str)`, with the string. -/
def Json.asStr? : Json → Option String
  | .str value => some value
  | _ => none

/-- `type(value) is int`, with the integer. -/
def Json.asInt? : Json → Option Int
  | .int value => some value
  | _ => none

/-- `isinstance(value, dict)`, with the fields. -/
def Json.asObj? : Json → Option Fields
  | .obj fields => some fields
  | _ => none

/-- Lists and dictionaries cannot be looked up in a set or a dictionary: the
attempt raises `TypeError`. -/
def Json.isHashable : Json → Bool
  | .arr _ => false
  | .obj _ => false
  | _ => true

namespace Json

/-! ### Equality -/

/-- The digits of a numeral read as a number, other characters skipped. -/
def digitsValue (cs : List Char) : ℕ :=
  (cs.filter Char.isDigit).foldl (fun n c => 10 * n + (c.toNat - '0'.toNat)) 0

/-- The number a float spelling stands for; none for `NaN` and the infinities. -/
def spelledNumber? (spelling : String) : Option Rat :=
  let cs := spelling.toList
  let mantissa := cs.takeWhile fun c => c ≠ 'e' ∧ c ≠ 'E'
  let exponent := cs.drop (mantissa.length + 1)
  let places := (mantissa.dropWhile (· ≠ '.')).length - 1
  let shift : Int :=
    (if exponent.head? = some '-' then -(digitsValue exponent : Int) else digitsValue exponent) -
      places
  let size : Rat :=
    if 0 ≤ shift then digitsValue mantissa * 10 ^ shift.toNat
    else digitsValue mantissa / 10 ^ (-shift).toNat
  if cs.any Char.isDigit then some (if cs.head? = some '-' then -size else size) else none

/-- The number a value stands for in a comparison. -/
def number? : Json → Option Rat
  | .bool value => some (if value then 1 else 0)
  | .int value => some value
  | .float spelling => spelledNumber? spelling
  | _ => none

/-- `==` on values that are neither lists nor dictionaries. -/
def scalarEq : Json → Json → Bool
  | .null, .null => true
  | .str a, .str b => a = b
  | a, b =>
    match number? a, number? b with
    | some x, some y => x = y
    | none, none =>
      match a, b with
      | .float s, .float t => s = t && s ≠ "NaN"
      | _, _ => false
    | _, _ => false

mutual

/-- Python's `==`: numbers by their value, dictionaries whatever their order. -/
def pyEq : Json → Json → Bool
  | .arr xs, y =>
    match y with
    | .arr ys => itemsEq xs ys
    | _ => false
  | .obj xs, y =>
    match y with
    | .obj ys => xs.length = ys.length && fieldsEq xs ys
    | _ => false
  | x, y => scalarEq x y

/-- Equal items at equal positions. -/
def itemsEq : List Json → List Json → Bool
  | [], ys => ys.isEmpty
  | x :: xs, ys =>
    match ys with
    | [] => false
    | y :: ys => pyEq x y && itemsEq xs ys

/-- Every field has an equal one in the other dictionary. -/
def fieldsEq : List (String × Json) → Fields → Bool
  | [], _ => true
  | (key, x) :: xs, ys =>
    (match Dict.get? ys key with
      | some y => pyEq x y
      | none => false) && fieldsEq xs ys

end

/-! ### Plain values -/

mutual

/-- Values without floats whose objects repeat no key. -/
def isPlain : Json → Bool
  | .float _ => false
  | .arr items => arePlain items
  | .obj fields => (fields.map Prod.fst).Nodup && fieldsArePlain fields
  | _ => true

/-- All items are plain. -/
def arePlain : List Json → Bool
  | [] => true
  | x :: xs => isPlain x && arePlain xs

/-- All fields hold plain values. -/
def fieldsArePlain : List (String × Json) → Bool
  | [] => true
  | (_, x) :: xs => isPlain x && fieldsArePlain xs

end

/-- The fields of a plain object hold plain values. -/
theorem isPlain_of_mem_fields {fields : List (String × Json)} (plain : fieldsArePlain fields)
    {entry : String × Json} (member : entry ∈ fields) : isPlain entry.2 := by
  induction fields with
  | nil => simp at member
  | cons first rest ih =>
    simp only [fieldsArePlain, Bool.and_eq_true] at plain
    rcases List.mem_cons.mp member with rfl | later
    · exact plain.1
    · exact ih plain.2 later

/-- What it takes for an object to be plain. -/
theorem isPlain_obj {fields : Fields} :
    isPlain (.obj fields) ↔ fields.KeysNodup ∧ fieldsArePlain fields := by
  simp [isPlain, Dict.KeysNodup, Dict.keys]

mutual

/-- A plain value equals itself. -/
theorem pyEq_refl : ∀ x : Json, isPlain x → pyEq x x
  | .null, _ => rfl
  | .bool _, _ => by simp [pyEq, scalarEq, number?]
  | .int _, _ => by simp [pyEq, scalarEq, number?]
  | .float _, plain => by simp [isPlain] at plain
  | .str _, _ => by simp [pyEq, scalarEq]
  | .arr items, plain => itemsEq_refl items (by simpa [isPlain] using plain)
  | .obj fields, plain => by
    simp only [isPlain, Bool.and_eq_true, decide_eq_true_eq] at plain
    have own := fieldsEq_of_subset fields fields plain.2 fun entry member =>
      (Dict.get?_eq_some_iff plain.1).mpr member
    simp [pyEq, own]

/-- Plain items equal themselves. -/
theorem itemsEq_refl : ∀ xs : List Json, arePlain xs → itemsEq xs xs
  | [], _ => rfl
  | x :: xs, plain => by
    simp only [arePlain, Bool.and_eq_true] at plain
    simp [itemsEq, pyEq_refl x plain.1, itemsEq_refl xs plain.2]

/-- Plain fields have equal ones in every dictionary that reads the same for them. -/
theorem fieldsEq_of_subset : ∀ (xs : List (String × Json)) (ys : Fields), fieldsArePlain xs →
    (∀ entry ∈ xs, Dict.get? ys entry.1 = some entry.2) → fieldsEq xs ys
  | [], _, _, _ => rfl
  | (key, x) :: xs, ys, plain, read => by
    simp only [fieldsArePlain, Bool.and_eq_true] at plain
    have here : Dict.get? ys key = some x := read (key, x) (.head _)
    simp [fieldsEq, here, pyEq_refl x plain.1,
      fieldsEq_of_subset xs ys plain.2 fun entry member => read entry (.tail _ member)]

end

example : pyEq (.obj [("a", .int 1), ("b", .null)]) (.obj [("b", .null), ("a", .bool true)]) := by
  decide

end Json

end AgentLabs.Text
