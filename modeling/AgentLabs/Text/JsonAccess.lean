import AgentLabs.Text.Json
import AgentLabs.Text.Numerals
import AgentLabs.Text.PythonStr
import Mathlib.Algebra.Field.Rat
import Mathlib.Data.List.Perm.Subperm

/-!
# Reading JSON values

What Python does when it reads a value of unknown shape: a missing key, an index
into something that has none, a method of something that is not a dictionary. Each
of the three raises an exception of its own, and a caller may catch some of them
only, so an access says which one it ends in.

## Main definitions

* `AccessError`: the exceptions
* `Json.item`, `Json.get`, `Json.lookup`: `value[key]` and `value.get(key, default)`
* `Json.elements`, `Json.members`: what `for` and `set` go through
* `Json.memberOf`, `Json.adjoin`, `Json.discard`: sets of values
* `Json.isTruthy`: the test of an `if`
* `Json.exactEqual`: equality that tells a boolean from an integer

## Main results

* `Json.exactEqual_refl`: a plain value is exactly equal to itself
* `Json.number?_ofDouble`: a float that is an integer stands for it
* `Json.exactItems_map_iff`: lists of values are compared value by value
-/

namespace AgentLabs.Text

open Math

/-- The exceptions of an access. -/
inductive AccessError where
  | keyError
  | typeError
  | attributeError
  deriving DecidableEq, Repr

namespace Json

/-- `value[key]`. Everything but a dictionary is not subscriptable, or not by a text. -/
def item (value : Json) (key : String) : Except AccessError Json :=
  match value with
  | .obj fields => (Dict.get? fields key).elim (.error .keyError) .ok
  | _ => .error .typeError

/-- The method `value.get`, which only a dictionary has. -/
def getter : Json → Except AccessError Fields
  | .obj fields => .ok fields
  | _ => .error .attributeError

/-- `value.get(key, default)`, with a text for the key. -/
def get (value : Json) (key : String) (default : Json) : Except AccessError Json := do
  let fields ← value.getter
  return (Dict.get? fields key).getD default

/-- A key or a member of a set: lists and dictionaries cannot be hashed. -/
def hashed (value : Json) : Except AccessError Json :=
  if value.isHashable then .ok value else .error .typeError

theorem hashed_eq_ok_iff {value key : Json} :
    value.hashed = .ok key ↔ value.isHashable ∧ key = value := by
  unfold hashed
  split_ifs with h
  · simp [h, eq_comm]
  · simp [h]

/-- `fields.get(key, default)`. The keys of a dictionary are texts, so any other key is
absent from it, and one that cannot be hashed cannot be looked up at all. -/
def lookup (fields : Fields) (key default : Json) : Except AccessError Json := do
  let key ← key.hashed
  return (key.asStr?.bind fun text => Dict.get? fields text).getD default

/-- The characters of a text, each as a text. -/
def characters (text : String) : List Json := text.toList.map fun c => .str (String.ofList [c])

/-- `for … in value`: a dictionary goes through its keys, a text through its characters. -/
def elements : Json → Except AccessError (List Json)
  | .arr items => .ok items
  | .obj fields => .ok (fields.map fun entry => .str entry.1)
  | .str text => .ok (characters text)
  | _ => .error .typeError

/-- The values that pass a test, unless the test raises an exception. -/
def select {α : Type} (test : α → Except AccessError Bool) : List α → Except AccessError (List α)
  | [] => .ok []
  | value :: rest => do
    let passed ← test value
    let selected ← select test rest
    return if passed then value :: selected else selected

/-- A test that never raises selects as a filter does. -/
theorem select_map {α β : Type} {test : β → Except AccessError Bool} {f : α → β} {p : α → Bool}
    {as : List α} (passes : ∀ a ∈ as, test (f a) = .ok (p a)) :
    select test (as.map f) = .ok ((as.filter p).map f) := by
  induction as with
  | nil => rfl
  | cons a as ih =>
    have rest := ih fun b hb => passes b (.tail _ hb)
    rw [List.map_cons, select, passes a (.head _), rest, List.filter_cons]
    cases p a <;> rfl

theorem select_eq_filter {α : Type} {test : α → Except AccessError Bool} {p : α → Bool}
    {as : List α} (passes : ∀ a ∈ as, test a = .ok (p a)) : select test as = .ok (as.filter p) := by
  have := select_map (f := id) passes
  rwa [List.map_id, List.map_id] at this

/-- A test that never raises an exception selects the values that pass it. -/
theorem exists_select {α : Type} {test : α → Except AccessError Bool} {as : List α}
    (total : ∀ a ∈ as, ∃ b, test a = .ok b) :
    ∃ selected, select test as = .ok selected ∧ ∀ a ∈ as, test a = .ok true → a ∈ selected := by
  refine ⟨as.filter fun a => test a = .ok true, select_eq_filter fun a member => ?_, ?_⟩
  · obtain ⟨b, result⟩ := total a member
    cases b <;> simp [result]
  · intro a member passes
    simpa [member] using passes

/-- Whether an `if` takes the value for true. -/
def isTruthy : Json → Bool
  | .null => false
  | .bool value => value
  | .int value => value ≠ 0
  | .float spelling => spelledNumber? spelling ≠ some 0
  | .str text => text ≠ ""
  | .arr items => !items.isEmpty
  | .obj fields => !fields.isEmpty

/-- `value is True`. -/
def isTrue : Json → Bool
  | .bool value => value
  | _ => false

theorem isTrue_iff {value : Json} : isTrue value ↔ value = .bool true := by
  cases value <;> simp [isTrue]

/-- `action if value else default`. -/
def ifTruthy {α : Type} (value : Json) (action : Except AccessError α) (default : α) :
    Except AccessError α :=
  if value.isTruthy then action else .ok default

/-- `value[0]`, for a value that an `if` takes for true. -/
def firstItem : Json → Except AccessError Json
  | .arr (value :: _) => .ok value
  | .str text =>
    (text.toList.head?).elim (.error .typeError) fun c => .ok (.str (String.ofList [c]))
  | .obj _ => .error .keyError
  | _ => .error .typeError

/-- `int(value)`; `none` when it raises. -/
def toInt? : Json → Option ℤ
  | .bool value => some (if value then 1 else 0)
  | .int value => some value
  | .float spelling => (spelledNumber? spelling).map fun q => q.num.tdiv q.den
  | .str text => integerOf? text
  | _ => none

/-! ### Sets -/

/-- Membership in a set, by `==`. -/
def memberOf (set : List Json) (value : Json) : Bool := set.any (pyEq value)

/-- `set.add(value)`. -/
def adjoin (set : List Json) (value : Json) : List Json :=
  if memberOf set value then set else set ++ [value]

/-- `set.discard(value)`. -/
def discard (set : List Json) (value : Json) : List Json :=
  set.filter fun other => !pyEq value other

/-- `a | b`. -/
def union (a b : List Json) : List Json := b.foldl adjoin a

/-- `set(value)`, in the order of the first occurrences. -/
def members (value : Json) : Except AccessError (List Json) := do
  let items ← value.elements
  if items.all isHashable then .ok (union [] items) else .error .typeError

theorem asStr?_eq_some_iff {value : Json} {text : String} :
    value.asStr? = some text ↔ value = .str text := by
  cases value <;> simp [asStr?]

/-- A text equals nothing but itself. -/
@[simp] theorem pyEq_str_iff {text : String} {value : Json} :
    pyEq (.str text) value ↔ value = .str text := by
  cases value with
  | str other =>
    simp only [pyEq, scalarEq, decide_eq_true_eq, Json.str.injEq]
    exact eq_comm
  | float spelling => cases h : spelledNumber? spelling <;> simp [pyEq, scalarEq, number?, h]
  | _ => simp [pyEq, scalarEq, number?]

@[simp] theorem pyEq_iff_str {text : String} {value : Json} :
    pyEq value (.str text) ↔ value = .str text := by
  cases value with
  | float spelling => cases h : spelledNumber? spelling <;> simp [pyEq, scalarEq, number?, h]
  | _ => simp [pyEq, scalarEq, number?]

/-- A spelling without an exponent and with the decimal place zero stands for its digits. -/
theorem spelledNumber?_tenths {sign digits : List Char} (signed : sign = ['-'] ∨ sign = [])
    (digit : ∀ c ∈ digits, c.isDigit) : spelledNumber? (.ofList (sign ++ digits ++ ['.', '0'])) =
      some (if sign = ['-'] then -(Nat.ofDigitChars 10 digits 0 : Rat)
        else (Nat.ofDigitChars 10 digits 0 : Rat)) := by
  have apart : ∀ c, c.isDigit = false → c ∉ digits := fun c none member => by
    simp [digit c member] at none
  have chars : ∀ c ∈ sign ++ digits ++ ['.', '0'], c = '-' ∨ c ∈ digits ∨ c = '.' ∨ c = '0' := by
    rcases signed with rfl | rfl
    · simp
    · intro c member
      exact .inr (by simpa using member)
  have plain : ∀ c ∈ sign ++ digits ++ ['.', '0'], decide (c ≠ 'e' ∧ c ≠ 'E') = true := by
    intro c member
    rw [decide_eq_true_iff]
    rcases chars c member with rfl | inside | rfl | rfl
    · decide
    · exact ⟨fun same => apart 'e' (by decide) (same ▸ inside),
        fun same => apart 'E' (by decide) (same ▸ inside)⟩
    · decide
    · decide
  have front : ∀ c ∈ sign ++ digits, decide (c ≠ '.') = true := by
    intro c member
    rw [decide_eq_true_iff]
    rintro rfl
    have inside : '.' ∈ digits := by rcases signed with rfl | rfl <;> simpa using member
    exact apart '.' (by decide) inside
  have value : digitsValue (sign ++ digits ++ ['.', '0']) = 10 * Nat.ofDigitChars 10 digits 0 := by
    have kept : (sign ++ digits ++ ['.', '0']).filter Char.isDigit = digits ++ ['0'] := by
      have all : digits.filter Char.isDigit = digits := List.filter_eq_self.mpr digit
      rcases signed with rfl | rfl <;> simp [List.filter_append, all]
    rw [digitsValue, kept, List.foldl_append, Nat.ofDigitChars]
    simp
  have head : (sign ++ digits ++ ['.', '0']).head? = some '-' ↔ sign = ['-'] := by
    rcases signed with rfl | rfl
    · simp
    · cases digits with
      | nil => simp
      | cons c cs =>
        have other : c ≠ '-' := fun same => apart '-' (by decide) (same ▸ .head _)
        simp [other]
  -- The digits after the point are counted from the point on, which counts itself.
  have places : ((sign ++ digits ++ ['.', '0']).dropWhile (· ≠ '.')).length - 1 = 1 := by
    rw [List.dropWhile_append_of_pos front]
    rfl
  have numeric : (sign ++ digits ++ ['.', '0']).any Char.isDigit = true := by simp
  rw [spelledNumber?, String.toList_ofList]
  -- Only the five facts above are used of the spelling.
  generalize sign ++ digits ++ ['.', '0'] = cs at *
  have none : cs.drop (cs.length + 1) = [] := List.drop_eq_nil_of_le (Nat.le_succ _)
  simp only [List.takeWhile_eq_self_iff.mpr plain, none, places, value, head, numeric, if_true]
  simp [digitsValue]

/-- A float that is an integer stands for it. -/
theorem number?_ofDouble (n : ℤ) : number? (ofDouble n) = some (n : Rat) := by
  have spelled : (if n < 0 then "-" else "") ++ toString n.natAbs ++ ".0" =
      String.ofList ((if n < 0 then ['-'] else []) ++ numeral n.natAbs ++ ['.', '0']) := by
    apply String.toList_inj.mp
    simp only [String.toList_append, String.toList_ofList, toList_toString]
    split_ifs <;> rfl
  rw [ofDouble, number?, spelled, spelledNumber?_tenths (by split_ifs <;> simp)
    fun c => isDigit_numeral, ofDigitChars_numeral]
  congr 1
  by_cases negative : n < 0
  · rw [if_pos negative, if_pos rfl]
    have size : -(n.natAbs : ℤ) = n := by omega
    rw [← Int.cast_natCast, ← Int.cast_neg, size]
  · rw [if_neg negative, if_neg (by decide)]
    have size : (n.natAbs : ℤ) = n := by omega
    rw [← Int.cast_natCast, size]

/-- Two values that can be looked up are equal if both are nothing, one text, numbers of one value,
or one of the floats that stand for no number, but for `NaN`. -/
theorem pyEq_iff_of_isHashable {a b : Json} (hashable : a.isHashable) : pyEq a b ↔
    (a = .null ∧ b = .null) ∨ (∃ text, a = .str text ∧ b = .str text) ∨
      (∃ x, number? a = some x ∧ number? b = some x) ∨
      ∃ spelling, a = .float spelling ∧ b = .float spelling ∧ spelledNumber? spelling = none ∧
        spelling ≠ "NaN" := by
  cases a with
  | arr items => cases hashable
  | obj fields => cases hashable
  | null =>
    cases b with
    | float t => cases h : spelledNumber? t <;> simp [pyEq, scalarEq, number?, h]
    | _ => simp [pyEq, scalarEq, number?]
  | str text =>
    rw [pyEq_str_iff]
    simp [number?]
  | bool value =>
    cases b with
    | float t => cases h : spelledNumber? t <;> simp [pyEq, scalarEq, number?, h, eq_comm]
    | _ => simp [pyEq, scalarEq, number?, eq_comm]
  | int value =>
    cases b with
    | float t => cases h : spelledNumber? t <;> simp [pyEq, scalarEq, number?, h, eq_comm]
    | _ => simp [pyEq, scalarEq, number?, eq_comm]
  -- A float stands for a number or is compared by its spelling, with `NaN` equal to nothing.
  | float s =>
    cases b with
    | float t =>
      cases h : spelledNumber? s with
      | none =>
        cases h' : spelledNumber? t with
        | none => simpa [pyEq, scalarEq, number?, h, h'] using fun _ => eq_comm
        | some y =>
          have other : s ≠ t := by
            rintro rfl
            cases h.symm.trans h'
          simp [pyEq, scalarEq, number?, h, h', other.symm]
      | some x => cases h' : spelledNumber? t <;> simp [pyEq, scalarEq, number?, h, h', eq_comm]
    | _ => cases h : spelledNumber? s <;> simp [pyEq, scalarEq, number?, h, eq_comm]

/-- Values that stand for numbers are compared as these. -/
theorem pyEq_iff_of_number? {a b : Json} {x y : Rat} (one : number? a = some x)
    (other : number? b = some y) : pyEq a b ↔ x = y := by
  have hashable : a.isHashable := by cases a <;> first | rfl | cases one
  rw [pyEq_iff_of_isHashable hashable]
  constructor
  · rintro (⟨rfl, -⟩ | ⟨text, rfl, -⟩ | ⟨z, left, right⟩ | ⟨spelling, rfl, -, none, -⟩)
    · cases one
    · cases one
    · exact (Option.some.inj (one.symm.trans left)).trans
        (Option.some.inj (right.symm.trans other))
    · cases none.symm.trans one
  · rintro rfl
    exact .inr (.inr (.inl ⟨x, one, other⟩))

theorem isHashable_of_pyEq {a b : Json} (hashable : a.isHashable) (equal : pyEq a b) :
    b.isHashable := by
  rcases (pyEq_iff_of_isHashable hashable).mp equal with ⟨-, rfl⟩ | ⟨_, -, rfl⟩ | ⟨x, -, number⟩
    | ⟨_, -, rfl, -⟩
  · rfl
  · rfl
  · cases b <;> simp [number?] at number <;> rfl
  · rfl

theorem pyEq_symm {a b : Json} (hashable : a.isHashable) (equal : pyEq a b) : pyEq b a := by
  rw [pyEq_iff_of_isHashable (isHashable_of_pyEq hashable equal)]
  rcases (pyEq_iff_of_isHashable hashable).mp equal with
    ⟨left, right⟩ | ⟨text, left, right⟩ | ⟨x, left, right⟩ | ⟨s, left, right, rest⟩
  · exact .inl ⟨right, left⟩
  · exact .inr (.inl ⟨text, right, left⟩)
  · exact .inr (.inr (.inl ⟨x, right, left⟩))
  · exact .inr (.inr (.inr ⟨s, right, left, rest⟩))

theorem pyEq_trans {a b c : Json} (hashable : a.isHashable) (first : pyEq a b) (second : pyEq b c) :
    pyEq a c := by
  rw [pyEq_iff_of_isHashable (isHashable_of_pyEq hashable first)] at second
  rw [pyEq_iff_of_isHashable hashable] at first ⊢
  rcases first with ⟨rfl, rfl⟩ | ⟨_, rfl, rfl⟩ | ⟨x, left, right⟩ | ⟨s, rfl, rfl, none, other⟩
  · simpa [number?] using second
  · simpa [number?] using second
  · rcases second with ⟨rfl, -⟩ | ⟨_, rfl, -⟩ | ⟨y, same, last⟩ | ⟨s, rfl, -, none, -⟩
    · simp [number?] at right
    · simp [number?] at right
    · cases right.symm.trans same
      exact .inr (.inr (.inl ⟨x, left, last⟩))
    · rw [number?, none] at right
      cases right
  · simpa [number?, none] using second

@[simp] theorem memberOf_str {set : List Json} {text : String} :
    memberOf set (.str text) ↔ .str text ∈ set := by
  simp [memberOf]

theorem str_mem_adjoin {set : List Json} {text : String} {value : Json} :
    .str text ∈ adjoin set value ↔ value = .str text ∨ .str text ∈ set := by
  unfold adjoin
  split_ifs with member
  · refine ⟨.inr, ?_⟩
    rintro (rfl | old)
    · exact memberOf_str.mp member
    · exact old
  · simp [eq_comm, or_comm]

theorem str_mem_union {a b : List Json} {text : String} :
    .str text ∈ union a b ↔ .str text ∈ a ∨ .str text ∈ b := by
  induction b generalizing a with
  | nil => simp [union]
  | cons value rest ih =>
    rw [show union a (value :: rest) = union (adjoin a value) rest from rfl, ih, str_mem_adjoin,
      List.mem_cons, eq_comm]
    tauto

theorem length_union_le (a b : List Json) : (union a b).length ≤ a.length + b.length := by
  induction b generalizing a with
  | nil => exact le_rfl
  | cons value rest ih =>
    have step : (adjoin a value).length ≤ a.length + 1 := by
      unfold adjoin
      split_ifs <;> simp
    calc (union (adjoin a value) rest).length
      _ ≤ (adjoin a value).length + rest.length := ih _
      _ ≤ a.length + (rest.length + 1) := by omega

/-- A set with as many members as were added holds each text once. -/
theorem nodup_of_length_union {b : List Json} (all : (union [] b).length = b.length) :
    (b.filterMap asStr?).Nodup := by
  induction b using List.reverseRecOn with
  | nil => exact .nil
  | append_singleton rest value ih =>
    have last : union [] (rest ++ [value]) = adjoin (union [] rest) value := List.foldl_append
    have bound := length_union_le [] rest
    rw [last, adjoin] at all
    split_ifs at all with member
    · simp at all bound
      omega
    · have before : (union [] rest).length = rest.length := by simpa using all
      rw [List.filterMap_append]
      have one : ([value].filterMap asStr?).Nodup := by
        cases value with
        | str text => exact List.nodup_singleton text
        | _ => exact .nil
      refine (ih before).append one fun text listed single => ?_
      obtain ⟨other, held, isText⟩ := List.mem_filterMap.mp listed
      have same : value = .str text := by simpa [asStr?_eq_some_iff] using single
      rw [asStr?_eq_some_iff.mp isText] at held
      exact member (same ▸ memberOf_str.mpr (str_mem_union.mpr (.inr held)))

theorem str_mem_discard {set : List Json} {text : String} {value : Json} :
    .str text ∈ discard set value ↔ .str text ∈ set ∧ value ≠ .str text := by
  simp [discard, ← Bool.not_eq_true]

/-- Every field of the first dictionary has an equal one in the second. -/
theorem fieldsEq_iff {xs : List (String × Json)} {ys : Fields} :
    fieldsEq xs ys ↔ ∀ entry ∈ xs, ∃ y, Dict.get? ys entry.1 = some y ∧ pyEq entry.2 y := by
  induction xs with
  | nil => simp [fieldsEq]
  | cons entry xs ih =>
    obtain ⟨key, x⟩ := entry
    rw [fieldsEq, Bool.and_eq_true, ih, List.forall_mem_cons]
    refine and_congr_left fun _ => ?_
    cases Dict.get? ys key <;> simp

/-- Equal dictionaries have the same texts under the same keys. -/
theorem get?_eq_str_iff_of_pyEq {xs ys : Fields} (equal : pyEq (.obj xs) (.obj ys))
    (nodup : xs.KeysNodup) (key text : String) :
    Dict.get? xs key = some (.str text) ↔ Dict.get? ys key = some (.str text) := by
  simp only [pyEq, Bool.and_eq_true, decide_eq_true_eq, fieldsEq_iff] at equal
  obtain ⟨size, fields⟩ := equal
  constructor
  · intro found
    obtain ⟨y, there, same⟩ := fields _ (Dict.mem_of_get?_eq_some found)
    rw [there, pyEq_str_iff.mp same]
  · intro found
    -- Both have the same keys: the first has no key twice, and no other keys than the second.
    have subset : xs.keys ⊆ ys.keys := fun k member => by
      obtain ⟨entry, entered, rfl⟩ := List.mem_map.mp member
      obtain ⟨y, there, -⟩ := fields entry entered
      exact Dict.mem_keys_iff.mpr ⟨y, there⟩
    have perm : xs.keys.Perm ys.keys := (List.subperm_of_subset nodup subset).perm_of_length_le (by
      simp [Dict.keys, size])
    obtain ⟨x, here⟩ := Dict.mem_keys_iff.mp (perm.mem_iff.mpr (Dict.mem_keys_iff.mpr ⟨_, found⟩))
    obtain ⟨y, there, same⟩ := fields _ (Dict.mem_of_get?_eq_some here)
    cases found.symm.trans there
    dsimp only at same
    rw [here, pyEq_iff_str.mp same]

/-! ### Exact equality -/

mutual

/-- Equality of values of one type: a boolean is never equal to an integer. -/
def exactEqual : Json → Json → Bool
  | .null, y =>
    match y with
    | .null => true
    | _ => false
  | .bool a, y =>
    match y with
    | .bool b => a = b
    | _ => false
  | .int a, y =>
    match y with
    | .int b => a = b
    | _ => false
  | .float s, y =>
    match y with
    | .float t => scalarEq (.float s) (.float t)
    | _ => false
  | .str a, y =>
    match y with
    | .str b => a = b
    | _ => false
  | .arr xs, y =>
    match y with
    | .arr ys => exactItems xs ys
    | _ => false
  | .obj xs, y =>
    match y with
    | .obj ys => (Dict.keys ys).all (fun key => key ∈ Dict.keys xs) && exactFields xs ys
    | _ => false

/-- Lists of one length with exactly equal items. -/
def exactItems : List Json → List Json → Bool
  | [], ys => ys.isEmpty
  | x :: xs, ys =>
    match ys with
    | [] => false
    | y :: ys => exactEqual x y && exactItems xs ys

/-- Every field has an exactly equal one in the other dictionary. -/
def exactFields : List (String × Json) → Fields → Bool
  | [], _ => true
  | (key, x) :: xs, ys =>
    (match Dict.get? ys key with
      | some y => exactEqual x y
      | none => false) && exactFields xs ys

end

/-- Floats that are integers are compared as these. -/
theorem exactEqual_ofDouble {m n : ℤ} : exactEqual (ofDouble m) (ofDouble n) ↔ m = n := by
  have one := number?_ofDouble m
  have other := number?_ofDouble n
  rw [ofDouble] at one other ⊢
  generalize (if m < 0 then "-" else "") ++ toString m.natAbs ++ ".0" = s at one ⊢
  rw [ofDouble]
  generalize (if n < 0 then "-" else "") ++ toString n.natAbs ++ ".0" = t at other ⊢
  simp [exactEqual, scalarEq, one, other]

@[simp] theorem exactEqual_int (a b : Int) : exactEqual (.int a) (.int b) = decide (a = b) := by
  simp [exactEqual]

@[simp] theorem exactEqual_str (a b : String) :
    exactEqual (.str a) (.str b) = decide (a = b) := by
  simp [exactEqual]

mutual

/-- A plain value is exactly equal to itself. -/
theorem exactEqual_refl : ∀ x : Json, isPlain x → exactEqual x x
  | .null, _ => by simp [exactEqual]
  | .bool _, _ => by simp [exactEqual]
  | .int _, _ => by simp
  | .float _, plain => by simp [isPlain] at plain
  | .str _, _ => by simp
  | .arr items, plain => by
    simpa [exactEqual] using exactItems_refl items (by simpa [isPlain] using plain)
  | .obj fields, plain => by
    simp only [isPlain, Bool.and_eq_true, decide_eq_true_eq] at plain
    have own := exactFields_of_subset fields fields plain.2 fun entry member =>
      (Dict.get?_eq_some_iff plain.1).mpr member
    simp [exactEqual, own]

/-- Plain items are exactly equal to themselves. -/
theorem exactItems_refl : ∀ xs : List Json, arePlain xs → exactItems xs xs
  | [], _ => rfl
  | x :: xs, plain => by
    simp only [arePlain, Bool.and_eq_true] at plain
    simp [exactItems, exactEqual_refl x plain.1, exactItems_refl xs plain.2]

/-- Plain fields have exactly equal ones in every dictionary that reads the same. -/
theorem exactFields_of_subset : ∀ (xs : List (String × Json)) (ys : Fields),
    fieldsArePlain xs → (∀ entry ∈ xs, Dict.get? ys entry.1 = some entry.2) → exactFields xs ys
  | [], _, _, _ => rfl
  | (key, x) :: xs, ys, plain, read => by
    simp only [fieldsArePlain, Bool.and_eq_true] at plain
    have here : Dict.get? ys key = some x := read (key, x) (.head _)
    simp [exactFields, here, exactEqual_refl x plain.1,
      exactFields_of_subset xs ys plain.2 fun entry member => read entry (.tail _ member)]

end

/-- Lists of one kind of values are compared value by value. -/
theorem exactItems_map_iff {α : Type*} {f : α → Json}
    (exact' : ∀ a b, exactEqual (f a) (f b) ↔ a = b) (as bs : List α) :
    exactItems (as.map f) (bs.map f) ↔ as = bs := by
  induction as generalizing bs with
  | nil => cases bs <;> simp [exactItems]
  | cons a as ih =>
    cases bs with
    | nil => simp [exactItems]
    | cons b bs => simp [exactItems, exact', ih]

example : exactEqual (.obj [("a", .int 0)]) (.obj [("a", .bool false)]) = false := by decide

end Json

end AgentLabs.Text
