import Mathlib.Data.List.Basic
import Mathlib.Data.List.Infix

/-!
# File name patterns

A segment of a pattern of `Path.glob` is read from left to right: `*` stands for any text,
`?` for one character, `[…]` for one character of a set, and everything else for itself. A
bracket that no later one closes stands for itself as well.

## Main definitions

* `GlobItem`, `globItems`: what a pattern is made of
* `globMatches`, `glob`: the names a pattern matches

## Main results

* `globMatches_append`: a name is matched part by part
* `globItems_append`: the reading goes on where a part without brackets begins
-/

namespace AgentLabs.Text

/-- A part of a pattern. -/
inductive GlobItem where
  | any
  | one
  | set (negated : Bool) (ranges : List (Char × Char))
  | lit (c : Char)
  deriving DecidableEq, Repr

/-- The characters an item stands for. -/
def GlobItem.accepts : GlobItem → Char → Bool
  | .any, _ => true
  | .one, _ => true
  | .set negated ranges, c => (ranges.any fun r => r.1 ≤ c && c ≤ r.2) != negated
  | .lit d, c => c = d

/-- The text before the first closing bracket. -/
def upToBracket : List Char → Option (List Char)
  | [] => none
  | c :: cs => if c = ']' then some [] else (upToBracket cs).map (c :: ·)

/-- What stands between a bracket and the one that closes it. A closing bracket in the first
place belongs to the set. -/
def setBody : List Char → Option (List Char)
  | '!' :: ']' :: cs => (upToBracket cs).map fun body => '!' :: ']' :: body
  | '!' :: cs => (upToBracket cs).map fun body => '!' :: body
  | ']' :: cs => (upToBracket cs).map fun body => ']' :: body
  | cs => upToBracket cs

/-- The ranges of a set; a single character is a range. -/
def setRanges : List Char → List (Char × Char)
  | low :: '-' :: high :: cs => (low, high) :: setRanges cs
  | c :: cs => (c, c) :: setRanges cs
  | [] => []

/-- The set between brackets. -/
def setItem : List Char → GlobItem
  | '!' :: cs => .set true (setRanges cs)
  | cs => .set false (setRanges cs)

/-- The items of a pattern, after some characters that belong to an item read before. -/
def globItems : ℕ → List Char → List GlobItem
  | _, [] => []
  | skip + 1, _ :: cs => globItems skip cs
  | 0, c :: cs =>
    if c = '*' then .any :: globItems 0 cs
    else if c = '?' then .one :: globItems 0 cs
    else if c = '[' then
      match setBody cs with
      | some body => setItem body :: globItems (body.length + 1) cs
      | none => .lit c :: globItems 0 cs
    else .lit c :: globItems 0 cs

/-- The items match the name as a whole. -/
def globMatches : List GlobItem → List Char → Bool
  | [], cs => cs.isEmpty
  | .any :: items, cs => cs.tails.any fun rest => globMatches items rest
  | _ :: _, [] => false
  | item :: items, c :: cs => item.accepts c && globMatches items cs

/-- A pattern of one segment matches a name. -/
def glob (pattern name : String) : Bool := globMatches (globItems 0 pattern.toList) name.toList

/-- The characters that may stand for something else than themselves. -/
def IsGlobMeta (c : Char) : Prop := c = '*' ∨ c = '?' ∨ c = '['

instance (c : Char) : Decidable (IsGlobMeta c) := inferInstanceAs (Decidable (_ ∨ _))

variable {items more : List GlobItem} {cs rest : List Char}

/-! ### Matching -/

theorem globMatches_any : globMatches (.any :: items) cs ↔
    ∃ front back, cs = front ++ back ∧ globMatches items back := by
  simp only [globMatches, List.any_eq_true, List.mem_tails]
  constructor
  · rintro ⟨back, ⟨front, rfl⟩, matched⟩
    exact ⟨front, back, rfl, matched⟩
  · rintro ⟨front, back, rfl, matched⟩
    exact ⟨back, ⟨front, rfl⟩, matched⟩

theorem globMatches_cons {item : GlobItem} (single : item ≠ .any) :
    globMatches (item :: items) cs ↔
      ∃ c back, cs = c :: back ∧ item.accepts c ∧ globMatches items back := by
  cases cs with
  | nil => cases item <;> simp_all [globMatches]
  | cons c back => cases item <;> simp_all [globMatches]

/-- A name is matched part by part. -/
theorem globMatches_append : globMatches (items ++ more) cs ↔
    ∃ front back, cs = front ++ back ∧ globMatches items front ∧ globMatches more back := by
  induction items generalizing cs with
  | nil => simp [globMatches]
  | cons item items ih =>
    by_cases any : item = .any
    · subst any
      simp only [List.cons_append, globMatches_any, ih]
      constructor
      · rintro ⟨skipped, _, rfl, front, back, rfl, matched, follows⟩
        exact ⟨skipped ++ front, back, by simp, ⟨skipped, front, rfl, matched⟩, follows⟩
      · rintro ⟨_, back, rfl, ⟨skipped, front, rfl, matched⟩, follows⟩
        exact ⟨skipped, front ++ back, by simp, front, back, rfl, matched, follows⟩
    · simp only [List.cons_append, globMatches_cons any, ih]
      constructor
      · rintro ⟨c, _, rfl, accepted, front, back, rfl, matched, follows⟩
        exact ⟨c :: front, back, rfl, ⟨c, front, rfl, accepted, matched⟩, follows⟩
      · rintro ⟨_, back, rfl, ⟨c, front, rfl, accepted, matched⟩, follows⟩
        exact ⟨c, front ++ back, rfl, accepted, front, back, rfl, matched, follows⟩

theorem globMatches_lits {text : List Char} : globMatches (text.map .lit) cs ↔ cs = text := by
  induction text generalizing cs with
  | nil => simp [globMatches]
  | cons c text ih =>
    rw [List.map_cons, globMatches_cons (by simp)]
    simp [ih, GlobItem.accepts]

theorem globMatches_singleton_any : globMatches [.any] cs := by
  rw [globMatches_any]
  exact ⟨cs, [], by simp, rfl⟩

/-! ### Reading a pattern -/

/-- Text without special characters stands for itself. -/
theorem globItems_of_plain (plain : ∀ c ∈ cs, ¬ IsGlobMeta c) : globItems 0 cs = cs.map .lit := by
  induction cs with
  | nil => rfl
  | cons c cs ih =>
    have first := plain c List.mem_cons_self
    simp only [IsGlobMeta, not_or] at first
    rw [globItems, if_neg first.1, if_neg first.2.1, if_neg first.2.2,
      ih fun d member => plain d (.tail _ member), List.map_cons]

theorem upToBracket_eq_none (unclosed : ']' ∉ rest) : upToBracket rest = none := by
  induction rest with
  | nil => rfl
  | cons c rest ih =>
    simp only [List.mem_cons, not_or] at unclosed
    rw [upToBracket, if_neg (Ne.symm unclosed.1), ih unclosed.2, Option.map_none]

theorem upToBracket_append (unclosed : ']' ∉ rest) :
    upToBracket (cs ++ rest) = upToBracket cs := by
  induction cs with
  | nil => exact upToBracket_eq_none unclosed
  | cons c cs ih => rw [List.cons_append, upToBracket, upToBracket, ih]

theorem setBody_of_ne {c : Char} (unsigned : c ≠ '!') (other : c ≠ ']') :
    setBody (c :: cs) = upToBracket (c :: cs) := by
  unfold setBody
  split <;> simp_all

theorem setBody_sign (other : cs.head? ≠ some ']') :
    setBody ('!' :: cs) = (upToBracket cs).map fun body => '!' :: body := by
  cases cs with
  | nil => rfl
  | cons c cs =>
    unfold setBody
    split <;> simp_all

/-- What closes a bracket does not depend on a text without brackets that follows. -/
theorem setBody_append (unsigned : rest.head? ≠ some '!') (unclosed : ']' ∉ rest) :
    setBody (cs ++ rest) = setBody cs := by
  obtain _ | ⟨c, cs⟩ := cs
  · obtain _ | ⟨c, rest⟩ := rest
    · rfl
    · have other : c ≠ ']' := fun equal => unclosed (equal ▸ List.mem_cons_self)
      rw [List.nil_append, setBody_of_ne (by simpa using unsigned) other,
        upToBracket_eq_none unclosed]
      rfl
  -- After `!` the first character closes nothing, as at the start.
  · by_cases sign : c = '!'
    · subst sign
      obtain _ | ⟨d, cs⟩ := cs
      · rw [List.singleton_append, setBody_sign fun equal => ?_, setBody_sign (by simp),
          upToBracket_eq_none unclosed]
        · rfl
        · exact unclosed (List.mem_of_mem_head? equal)
      · by_cases first : d = ']'
        · subst first
          exact congrArg (Option.map _) (upToBracket_append unclosed)
        · rw [List.cons_append, List.cons_append, setBody_sign (by simpa using first),
            setBody_sign (by simpa using first), ← List.cons_append, upToBracket_append unclosed]
    · by_cases first : c = ']'
      · subst first
        exact congrArg (Option.map _) (upToBracket_append unclosed)
      · rw [List.cons_append, setBody_of_ne sign first, setBody_of_ne sign first,
          ← List.cons_append, upToBracket_append unclosed]

theorem length_upToBracket {body : List Char} (closed : upToBracket cs = some body) :
    body.length < cs.length := by
  induction cs generalizing body with
  | nil => cases closed
  | cons c cs ih =>
    rw [upToBracket] at closed
    split at closed
    · cases closed
      simp
    · obtain ⟨inner, found, rfl⟩ := Option.map_eq_some_iff.mp closed
      simpa using ih found

theorem length_setBody {body : List Char} (closed : setBody cs = some body) :
    body.length < cs.length := by
  unfold setBody at closed
  split at closed
  · obtain ⟨inner, found, rfl⟩ := Option.map_eq_some_iff.mp closed
    simpa using length_upToBracket found
  · obtain ⟨inner, found, rfl⟩ := Option.map_eq_some_iff.mp closed
    simpa using length_upToBracket found
  · obtain ⟨inner, found, rfl⟩ := Option.map_eq_some_iff.mp closed
    simpa using length_upToBracket found
  · exact length_upToBracket closed

/-- The reading goes on with a text without brackets as if nothing stood before it. -/
theorem globItems_append (unsigned : rest.head? ≠ some '!') (unclosed : ']' ∉ rest) {skip : ℕ}
    (inside : skip ≤ cs.length) :
    globItems skip (cs ++ rest) = globItems skip cs ++ globItems 0 rest := by
  induction cs generalizing skip with
  | nil =>
    obtain rfl : skip = 0 := Nat.le_zero.mp inside
    rfl
  | cons c cs ih =>
    cases skip with
    | succ skip => exact ih (Nat.le_of_succ_le_succ inside)
    | zero =>
      have next := ih (Nat.zero_le _)
      simp only [List.cons_append, globItems, setBody_append unsigned unclosed]
      split_ifs
      · rw [next, List.cons_append]
      · rw [next, List.cons_append]
      · cases closed : setBody cs with
        | none => simp only [next, List.cons_append]
        | some body =>
          simp only [ih (Nat.succ_le_of_lt (length_setBody closed)), List.cons_append]
      · rw [next, List.cons_append]

end AgentLabs.Text
