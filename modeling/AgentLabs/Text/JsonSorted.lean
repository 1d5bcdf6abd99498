import AgentLabs.Math.Grouping
import AgentLabs.Text.JsonReread
import Mathlib.Data.List.Perm.Basic
import Mathlib.Data.List.Sort
import Mathlib.Data.Option.Basic
import Mathlib.Data.String.Basic

/-!
# Values up to the order of their keys

A digest of a value is taken of its text without blanks, with the keys of all objects in their
order. Two values have one such text exactly if they are the same but for the order of their keys.
For this the text has to tell what it was written from: like the other texts it is read back.

## Main definitions

* `Json.sortKeys`: a value with its keys in order
* `Json.Alike`: values that are the same but for the order of their keys
* `Json.canonical`: the text that is digested

## Main results

* `Json.readsCompact_of_spelled`: texts without blanks are read back
* `Json.canonical_eq_iff`: values with one canonical text
-/

namespace AgentLabs.Text

open Math

namespace Json

/-! ### Texts without blanks are read back -/

/-- The text of a value without blanks is read back, whatever closes it. -/
def ReadsCompact (j : Json) : Prop :=
  ∀ fuel rest, cost j ≤ fuel → Closes rest →
    parseValue fuel (writeCompact j ++ rest) = some (j, rest)

/-- A text without blanks starts with a character that is neither whitespace nor the end of an
array. -/
theorem exists_writeCompact_cons {j : Json} (spelled : Spelled j) :
    ∃ c cs, writeCompact j = c :: cs ∧ isJsonSpace c = false ∧ c ≠ ']' := by
  cases j with
  | arr items =>
    cases items
    exacts [⟨'[', _, by rw [writeCompact], by decide, by decide⟩,
      ⟨'[', _, by rw [writeCompact], by decide, by decide⟩]
  | obj fields =>
    cases fields
    exacts [⟨'{', _, by rw [writeCompact], by decide, by decide⟩,
      ⟨'{', _, by rw [writeCompact], by decide, by decide⟩]
  | bool value =>
    obtain ⟨c, cs, written, first⟩ := exists_write_cons none 0 spelled
    refine ⟨c, cs, ?_, first⟩
    rw [← written]
    cases value <;> rw [writeCompact, write]
  | _ =>
    obtain ⟨c, cs, written, first⟩ := exists_write_cons none 0 spelled
    exact ⟨c, cs, by rw [← written, writeCompact, write], first⟩

theorem skipSpace_writeCompact {j : Json} (spelled : Spelled j) (cs : List Char) :
    skipSpace (writeCompact j ++ cs) = writeCompact j ++ cs := by
  obtain ⟨c, more, written, space, -⟩ := exists_writeCompact_cons spelled
  rw [written, List.cons_append, skipSpace_cons space]

/-- A value without parts has the same text with and without blanks. -/
theorem readsCompact_of_write {j : Json} (spelled : Spelled j)
    (same : writeCompact j = write none 0 j) :
    ReadsCompact j := by
  intro fuel rest enough closes
  rw [same]
  exact readsBack_of_spelled none j spelled fuel 0 rest enough closes

theorem closes_cons {c : Char} (mark : c = ',' ∨ c = ']' ∨ c = '}') (rest : List Char) :
    Closes (c :: rest) := by
  intro first same
  obtain rfl : c = first := by simpa using same
  exact mark.imp id (Or.imp id .inl)

/-- Reading the last field of an object. -/
theorem parseFields_last {x : Json} {key : String} {fields : Fields} {fuel : ℕ} {rest : List Char}
    (spelled : Spelled x) (reads : ReadsCompact x) (enough : cost x ≤ fuel) :
    parseFields (fuel + 1) fields (quote key ++ (':' :: (writeCompact x ++ '}' :: rest))) =
      some (.obj (fields.set key x), rest) := by
  simp only [quote, List.cons_append, List.append_assoc, List.nil_append]
  rw [parseFields]
  simp only [scanString_quote, skipSpace_cons (c := ':') (by decide),
    skipSpace_writeCompact spelled, reads fuel _ enough (closes_cons (.inr (.inr rfl)) rest),
    skipSpace_cons (c := '}') (by decide), String.ofList_toList]

/-- Reading a field with another one after it. -/
theorem parseFields_next {x : Json} {key : String} {fields : Fields} {fuel : ℕ} {rest : List Char}
    (spelled : Spelled x) (reads : ReadsCompact x) (enough : cost x ≤ fuel) :
    parseFields (fuel + 1) fields (quote key ++ (':' :: (writeCompact x ++ ',' :: rest))) =
      parseFields fuel (fields.set key x) (skipSpace rest) := by
  simp only [quote, List.cons_append, List.append_assoc, List.nil_append]
  rw [parseFields]
  simp only [scanString_quote, skipSpace_cons (c := ':') (by decide),
    skipSpace_writeCompact spelled, reads fuel _ enough (closes_cons (.inl rfl) rest),
    skipSpace_cons (c := ',') (by decide), String.ofList_toList]

mutual

/-- **Texts without blanks are read back.** -/
theorem readsCompact_of_spelled : ∀ j : Json, Spelled j → ReadsCompact j
  | .null, spelled => readsCompact_of_write spelled (by rw [writeCompact, write])
  | .bool true, spelled => readsCompact_of_write spelled (by rw [writeCompact, write])
  | .bool false, spelled => readsCompact_of_write spelled (by rw [writeCompact, write])
  | .int _, spelled => readsCompact_of_write spelled (by rw [writeCompact, write])
  | .float _, spelled => readsCompact_of_write spelled (by rw [writeCompact, write])
  | .str _, spelled => readsCompact_of_write spelled (by rw [writeCompact, write])
  | .arr [], spelled => readsCompact_of_write spelled (by rw [writeCompact, write])
  | .obj [], spelled => readsCompact_of_write spelled (by rw [writeCompact, write])
  | .arr (x :: xs), spelled => by
    rintro (_ | fuel) rest enough closes
    · simp [cost] at enough
    simp only [Spelled, AreSpelled] at spelled
    simp only [cost] at enough
    have items := readsCompact_items xs spelled.2 x (readsCompact_of_spelled x spelled.1)
      [] fuel rest (by omega)
    -- The text of an item never starts with the bracket that closes an empty list.
    obtain ⟨c, cs, written, space, bracket⟩ := exists_writeCompact_cons spelled.1
    simp only [writeCompact, List.cons_append, List.append_assoc, List.nil_append] at items ⊢
    rw [parseValue]
    simp only [Char.reduceEq, if_false, if_true, skipSpace_writeCompact spelled.1]
    rw [written] at items ⊢
    simp only [List.cons_append]
    split
    · case h_1 eq => exact absurd (List.cons.inj eq).1 bracket
    · simpa using items
  | .obj ((key, x) :: xs), spelled => by
    rintro (_ | fuel) rest enough closes
    · simp [cost] at enough
    simp only [Spelled, FieldsSpelled] at spelled
    simp only [cost] at enough
    have fields := readsCompact_fields xs spelled.2.2 key x spelled.2.1
      (readsCompact_of_spelled x spelled.2.1) []
      (by simpa [Dict.keys] using spelled.1) fuel rest (by omega)
    simp only [writeCompact, quote, List.cons_append, List.append_assoc,
      List.nil_append] at fields ⊢
    rw [parseValue]
    simpa [skipSpace_cons, isJsonSpace] using fields

/-- Items are read back, the first of them being `x`. -/
theorem readsCompact_items : ∀ xs : List Json, AreSpelled xs → ∀ x : Json, ReadsCompact x →
    ∀ (items : List Json) (fuel : ℕ) (rest : List Char), 1 + cost x + costItems xs ≤ fuel →
      parseItems fuel items (writeCompact x ++ (compactItems xs ++ ']' :: rest)) =
        some (.arr (items ++ x :: xs), rest)
  | _, _, x, first, items, 0, rest, enough => by simp at enough
  | [], _, x, first, items, fuel + 1, rest, enough => by
    simp only [compactItems, List.nil_append, costItems] at enough ⊢
    rw [parseItems, first fuel _ (by omega) (closes_cons (.inr (.inl rfl)) rest)]
    simp [skipSpace_cons, isJsonSpace]
  | x' :: xs, spelled, x, first, items, fuel + 1, rest, enough => by
    simp only [AreSpelled] at spelled
    simp only [compactItems, costItems, List.cons_append, List.append_assoc] at enough ⊢
    have others := readsCompact_items xs spelled.2 x' (readsCompact_of_spelled x' spelled.1)
      (items ++ [x]) fuel rest (by omega)
    rw [parseItems, first fuel _ (by omega) (closes_cons (.inl rfl) _)]
    simp only [skipSpace_cons (c := ',') (by decide), skipSpace_writeCompact spelled.1]
    simpa using others

/-- Fields are read back, the first of them being `x` under `key`. -/
theorem readsCompact_fields :
    ∀ xs : List (String × Json), FieldsSpelled xs → ∀ (key : String) (x : Json),
    Spelled x → ReadsCompact x →
      ∀ fields : Fields, (Dict.keys fields ++ key :: Dict.keys xs).Nodup →
      ∀ (fuel : ℕ) (rest : List Char), 1 + cost x + costFields xs ≤ fuel →
        parseFields fuel fields (quote key ++
          (':' :: (writeCompact x ++ (compactFields xs ++ '}' :: rest)))) =
          some (.obj (fields ++ (key, x) :: xs), rest)
  | _, _, key, x, spelled, first, fields, distinct, 0, rest, enough => by simp at enough
  | [], _, key, x, spelled, first, fields, distinct, fuel + 1, rest, enough => by
    simp only [compactFields, List.nil_append, costFields] at enough ⊢
    rw [parseFields_last spelled first (by omega),
      Dict.set_of_notMem (notMem_of_nodup_append distinct)]
  | (key', x') :: xs, others, key, x, spelled, first, fields, distinct, fuel + 1, rest, enough => by
    simp only [FieldsSpelled] at others
    simp only [compactFields, costFields, List.cons_append, List.append_assoc] at enough ⊢
    -- The keys read so far grow by this one.
    have later := readsCompact_fields xs others.2 key' x' others.1
      (readsCompact_of_spelled x' others.1)
      (fields ++ [(key, x)]) (by simpa [Dict.keys] using distinct) fuel rest (by omega)
    rw [parseFields_next spelled first (by omega),
      Dict.set_of_notMem (notMem_of_nodup_append distinct)]
    have quoted : ∀ cs, skipSpace (quote key' ++ cs) = quote key' ++ cs := fun cs =>
      skipSpace_cons (by decide) _
    rw [quoted]
    simpa using later

end

/-- The text of a value without blanks tells the value. -/
theorem writeCompact_injective {a b : Json} (spelled : Spelled a) (spelled' : Spelled b)
    (same : writeCompact a = writeCompact b) : a = b := by
  have left := readsCompact_of_spelled a spelled (cost a + cost b) [] (by omega) closes_nil
  have right := readsCompact_of_spelled b spelled' (cost a + cost b) [] (by omega) closes_nil
  rw [same, right] at left
  exact (Prod.mk.inj (Option.some.inj left)).1.symm

/-! ### Keys in order -/

mutual

/-- A value with the keys of all its objects in order. -/
def sortKeys : Json → Json
  | .null => .null
  | .bool value => .bool value
  | .int value => .int value
  | .float spelling => .float spelling
  | .str value => .str value
  | .arr items => .arr (sortItems items)
  | .obj fields => .obj ((sortFields fields).insertionSort fun a b => a.1 ≤ b.1)

/-- Items with their keys in order. -/
def sortItems : List Json → List Json
  | [] => []
  | x :: xs => sortKeys x :: sortItems xs

/-- Fields whose values have their keys in order. -/
def sortFields : List (String × Json) → List (String × Json)
  | [] => []
  | (key, x) :: xs => (key, sortKeys x) :: sortFields xs

end

/-- `json.dumps(value, ensure_ascii=False, sort_keys=True, separators=(",", ":"))`. -/
def canonical (j : Json) : String := dumpCompact (sortKeys j)

/-- Two values are the same but for the order of their keys. -/
def Alike (a b : Json) : Prop := sortKeys a = sortKeys b

theorem sortFields_eq_map (fields : List (String × Json)) :
    sortFields fields = fields.map fun entry => (entry.1, sortKeys entry.2) := by
  induction fields with
  | nil => rw [sortFields, List.map_nil]
  | cons entry fields ih => rw [sortFields, List.map_cons, ih]

theorem keys_sortFields (fields : List (String × Json)) :
    Dict.keys (sortFields fields) = Dict.keys fields := by
  rw [sortFields_eq_map, Dict.keys, Dict.keys, List.map_map]
  rfl

mutual

/-- Keys in order are as distinct as before. -/
theorem spelled_sortKeys : ∀ j : Json, Spelled j → Spelled (sortKeys j)
  | .null, spelled => by rwa [sortKeys]
  | .bool _, spelled => by rwa [sortKeys]
  | .int _, spelled => by rwa [sortKeys]
  | .float _, spelled => by rwa [sortKeys]
  | .str _, spelled => by rwa [sortKeys]
  | .arr items, spelled => by
    rw [sortKeys, Spelled]
    exact areSpelled_sortItems items spelled
  | .obj fields, spelled => by
    obtain ⟨distinct, each⟩ := spelled
    have perm := List.perm_insertionSort (fun a b : String × Json => a.1 ≤ b.1) (sortFields fields)
    rw [sortKeys, Spelled]
    constructor
    · have keys : Dict.keys (sortFields fields) = fields.map Prod.fst := keys_sortFields fields
      rw [(perm.map Prod.fst).nodup_iff, ← Dict.keys, keys]
      exact distinct
    · rw [fieldsSpelled_iff]
      intro entry member
      exact fieldsSpelled_iff.mp (fieldsSpelled_sortFields fields each)
        entry (perm.mem_iff.mp member)

theorem areSpelled_sortItems : ∀ items : List Json, AreSpelled items → AreSpelled (sortItems items)
  | [], _ => by rw [sortItems]; trivial
  | x :: xs, spelled => by
    rw [sortItems]
    exact ⟨spelled_sortKeys x spelled.1, areSpelled_sortItems xs spelled.2⟩

theorem fieldsSpelled_sortFields : ∀ fields : List (String × Json), FieldsSpelled fields →
    FieldsSpelled (sortFields fields)
  | [], _ => by rw [sortFields]; trivial
  | (_, x) :: xs, spelled => by
    rw [sortFields]
    exact ⟨spelled_sortKeys x spelled.1, fieldsSpelled_sortFields xs spelled.2⟩

end

/-- **Values with one canonical text** are the same but for the order of their keys. -/
theorem canonical_eq_iff {a b : Json} (spelled : Spelled a) (spelled' : Spelled b) :
    canonical a = canonical b ↔ Alike a b := by
  constructor
  · intro same
    have texts : writeCompact (sortKeys a) = writeCompact (sortKeys b) :=
      String.ofList_injective same
    exact writeCompact_injective (spelled_sortKeys a spelled) (spelled_sortKeys b spelled') texts
  · exact fun alike => congrArg dumpCompact alike

end Json

end AgentLabs.Text
