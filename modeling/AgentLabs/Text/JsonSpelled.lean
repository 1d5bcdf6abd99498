import AgentLabs.Math.Monitor
import AgentLabs.Text.JsonAccess
import AgentLabs.Text.JsonReread

/-!
# Parts of values

What is read out of a value that can be written can be written, too. Such values repeat no key, so
that their equality, which looks for the fields of the first among those of the second, is
symmetric.

## Main results

* `Json.spelled_of_item`, `Json.spelled_of_elements`, `Json.spelled_setAll`: values and their parts
* `Json.pyEq_comm`: Python's `==` is symmetric
-/

namespace AgentLabs.Text

open Math

namespace Json

/-! ### Parts -/

section Parts

variable {fields : Fields} {key : String} {value x : Json}

theorem spelled_of_get? (spelled : Spelled (.obj fields)) (found : fields.get? key = some value) :
    Spelled value :=
  (spelled_obj_iff.mp spelled).2 (key, value) (Dict.mem_of_get?_eq_some found)

theorem spelled_of_item (spelled : Spelled value) (found : value.item key = .ok x) : Spelled x := by
  cases value with
  | obj fields =>
    cases h : Dict.get? fields key with
    | none => simp [item, h] at found
    | some y =>
      simp only [item, h, Option.elim_some, Except.ok.injEq] at found
      exact found ▸ spelled_of_get? spelled h
  | _ => cases found

theorem spelled_of_elements {items : List Json} (spelled : Spelled value)
    (read : value.elements = .ok items) :
    ∀ x ∈ items, Spelled x := by
  cases value with
  | arr xs =>
    cases read
    exact areSpelled_iff.mp spelled
  | obj fields =>
    cases read
    exact List.forall_mem_map.mpr fun _ _ => trivial
  | str text =>
    cases read
    exact List.forall_mem_map.mpr fun _ _ => trivial
  | _ => cases read

theorem spelled_getD {default : Json} (spelled : Spelled (.obj fields)) (plain : Spelled default) :
    Spelled ((fields.get? key).getD default) := by
  cases found : fields.get? key with
  | none => exact plain
  | some value => exact spelled_of_get? spelled found

theorem spelled_set (spelled : Spelled (.obj fields)) (new : Spelled x) :
    Spelled (.obj (fields.set key x)) := by
  obtain ⟨distinct, each⟩ := spelled_obj_iff.mp spelled
  refine spelled_obj_iff.mpr ⟨distinct.set, fun entry member => ?_⟩
  rcases mem_set member with same | before
  · exact same ▸ new
  · exact each entry before

theorem spelled_setAll {entries : Fields} (spelled : Spelled (.obj fields))
    (new : ∀ entry ∈ entries, Spelled entry.2) :
    Spelled (.obj (fields.setAll entries)) := by
  induction entries generalizing fields with
  | nil => exact spelled
  | cons entry entries ih =>
    apply ih (spelled_set spelled (new entry (.head _)))
    exact fun later member => new later (.tail _ member)

theorem subset_of_select {α : Type} {test : α → Except AccessError Bool} {as selected : List α}
    (read : select test as = .ok selected) : selected ⊆ as := by
  induction as generalizing selected with
  | nil =>
    cases read
    exact List.Subset.refl _
  | cons a as ih =>
    obtain ⟨passed, -, read⟩ := bind_eq_ok_iff.mp read
    obtain ⟨later, rest, read⟩ := bind_eq_ok_iff.mp read
    cases read
    cases passed
    · exact List.subset_cons_of_subset a (ih rest)
    · exact List.cons_subset_cons a (ih rest)

end Parts

/-! ### Equality -/

/-- Dictionaries of one size, the fields of one of them found in the other. -/
theorem pyEq_obj_iff {xs ys : Fields} : pyEq (.obj xs) (.obj ys) ↔
    xs.length = ys.length ∧ ∀ entry ∈ xs, ∃ y, Dict.get? ys entry.1 = some y ∧ pyEq entry.2 y := by
  rw [pyEq, Bool.and_eq_true, decide_eq_true_eq, fieldsEq_iff]

/-- All keys of a dictionary are in another one of its size, if those of the other are in it. -/
theorem mem_keys_of_subset {xs ys : Fields} (distinct : xs.KeysNodup) (size : xs.length = ys.length)
    (subset : xs.keys ⊆ ys.keys) : ys.keys ⊆ xs.keys := by
  have sub := List.subperm_of_subset distinct subset
  apply (sub.perm_of_length_le _).symm.subset
  rw [Dict.keys, Dict.keys, List.length_map, List.length_map, size]

mutual

theorem pyEq_symm_of_spelled : ∀ x y : Json, Spelled x → Spelled y → pyEq x y → pyEq y x
  | .arr xs, y, first, second, equal => by
    cases y with
    | arr ys => exact itemsEq_symm xs ys first second equal
    | _ => simp [pyEq] at equal
  | .obj xs, y, first, second, equal => by
    cases y with
    | obj ys =>
      obtain ⟨size, each⟩ := pyEq_obj_iff.mp equal
      obtain ⟨distinct, valuesX⟩ := spelled_obj_iff.mp first
      obtain ⟨distinct', valuesY⟩ := spelled_obj_iff.mp second
      refine pyEq_obj_iff.mpr ⟨size.symm, fun entry member => ?_⟩
      -- The key is one of the first dictionary, too, and the value there equals this one.
      have subset : Dict.keys xs ⊆ Dict.keys ys := by
        intro key listed
        obtain ⟨entry, held, rfl⟩ := List.mem_map.mp listed
        obtain ⟨y, found, -⟩ := each entry held
        exact Dict.mem_keys_iff.mpr ⟨y, found⟩
      have listed := mem_keys_of_subset distinct size subset
        (List.mem_map_of_mem (f := Prod.fst) member)
      obtain ⟨x, found⟩ := Dict.mem_keys_iff.mp listed
      have held := Dict.mem_of_get?_eq_some found
      obtain ⟨y, there, same⟩ := each _ held
      rw [(Dict.get?_eq_some_iff distinct').mpr member, Option.some.injEq] at there
      subst there
      exact ⟨x, found, fields_symm xs (fieldsSpelled_iff.mpr valuesX) _ held _
        (valuesY entry member) same⟩
    | _ => simp [pyEq] at equal
  | .null, _, _, _, equal => pyEq_symm rfl equal
  | .bool _, _, _, _, equal => pyEq_symm rfl equal
  | .int _, _, _, _, equal => pyEq_symm rfl equal
  | .float _, _, _, _, equal => pyEq_symm rfl equal
  | .str _, _, _, _, equal => pyEq_symm rfl equal

theorem itemsEq_symm : ∀ xs ys : List Json, AreSpelled xs → AreSpelled ys →
    itemsEq xs ys → itemsEq ys xs
  | [], ys, _, _, equal => by
    cases ys with
    | nil => rfl
    | cons y ys => simp [itemsEq] at equal
  | x :: xs, ys, first, second, equal => by
    cases ys with
    | nil => simp [itemsEq] at equal
    | cons y ys =>
      simp only [AreSpelled] at first second
      simp only [itemsEq, Bool.and_eq_true] at equal ⊢
      exact ⟨pyEq_symm_of_spelled x y first.1 second.1 equal.1,
        itemsEq_symm xs ys first.2 second.2 equal.2⟩

theorem fields_symm : ∀ xs : List (String × Json), FieldsSpelled xs → ∀ entry ∈ xs, ∀ y, Spelled y →
    pyEq entry.2 y → pyEq y entry.2
  | [], _, _, member, _, _, _ => absurd member List.not_mem_nil
  | (_, x) :: xs, spelled, entry, member, y, plain, equal => by
    simp only [FieldsSpelled] at spelled
    rcases List.mem_cons.mp member with rfl | later
    · exact pyEq_symm_of_spelled x y spelled.1 plain equal
    · exact fields_symm xs spelled.2 entry later y plain equal

end

/-- **Python's `==`** does not depend on the order of the two values. -/
theorem pyEq_comm {x y : Json} (first : Spelled x) (second : Spelled y) : pyEq x y = pyEq y x :=
  Bool.eq_iff_iff.mpr
    ⟨pyEq_symm_of_spelled x y first second, pyEq_symm_of_spelled y x second first⟩

end Json

end AgentLabs.Text
