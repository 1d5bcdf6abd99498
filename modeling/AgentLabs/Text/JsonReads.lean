import AgentLabs.Math.Monitor
import AgentLabs.Text.JsonAccess

/-!
# Whether a read gets through

A chain of reads gets through if each of them does, and a read is only made if the ones before
it have got through. What a chain needs is found from its first read on: a condition on a value
counts only where the value is read. Some callers catch a missing key and a wrong type but not a
missing method, so a chain that finds its methods is a notion of its own.

## Main definitions

* `Returns`: the read gets through
* `After`: what the read gives has a property, if it gets through
* `Gives`: the read gets through, and what it gives has a property
* `MethodsFound`: no method is missing

## Main results

* `Returns.bind_iff`, `After.bind_iff`, `Gives.returns_bind_iff`, `MethodsFound.bind_iff`: the
  rules of a chain
* `Returns.select_iff`, `Returns.foldlM_iff`, `Returns.mapM_iff`, `MethodsFound.select_iff`: the
  rules of a loop
-/

namespace AgentLabs.Text

open Math

namespace Json

/-- The value is a dictionary. -/
def isDict (value : Json) : Bool := value.asObj?.isSome

theorem isDict_iff {value : Json} : isDict value ↔ ∃ fields, value = .obj fields := by
  cases value <;> simp [isDict, asObj?]

/-! ### Reads -/

/-- The read gets through. -/
def Returns {α : Type} (x : Except AccessError α) : Prop := ∃ value, x = .ok value

/-- What the read gives has the property, if the read gets through. -/
def After {α : Type} (x : Except AccessError α) (P : α → Prop) : Prop :=
  ∀ value, x = .ok value → P value

/-- The read gets through, and what it gives has the property. -/
def Gives {α : Type} (x : Except AccessError α) (P : α → Prop) : Prop :=
  ∃ value, x = .ok value ∧ P value

/-- No method is missing. Other exceptions may be raised. -/
def MethodsFound {α : Type} (x : Except AccessError α) : Prop := x ≠ .error .attributeError

section Reads

variable {α β : Type} {x : Except AccessError α} {P : α → Prop}

namespace After

@[simp] theorem ok_iff {value : α} : After (.ok value) P ↔ P value :=
  ⟨fun h => h value rfl, fun h _ same => Except.ok.inj same ▸ h⟩

@[simp] theorem bind_iff {f : α → Except AccessError β} {Q : β → Prop} :
    After (x >>= f) Q ↔ After x fun value => After (f value) Q := by
  cases x with
  | ok value => exact (ok_iff (P := fun value => After (f value) Q)).symm
  | error e => exact iff_of_true (fun _ same => by cases same) fun _ same => by cases same

@[simp] theorem map_iff {f : α → β} {Q : β → Prop} :
    After (f <$> x) Q ↔ After x fun value => Q (f value) := by
  cases x with
  | ok value => exact (ok_iff (P := Q)).trans (ok_iff (P := fun value => Q (f value))).symm
  | error e => exact iff_of_true (fun _ same => by cases same) fun _ same => by cases same

@[simp] theorem const_iff {p : Prop} : After x (fun _ => p) ↔ (Returns x → p) :=
  ⟨fun h ⟨value, read⟩ => h value read, fun h value read => h ⟨value, read⟩⟩

theorem congr {Q : α → Prop} (same : ∀ value, x = .ok value → (P value ↔ Q value)) :
    After x P ↔ After x Q :=
  forall₂_congr same

end After

namespace Returns

@[simp] theorem of_ok (value : α) : Returns (.ok value : Except AccessError α) := ⟨value, rfl⟩

@[simp] theorem of_pure (value : α) : Returns (pure value : Except AccessError α) := ⟨value, rfl⟩

theorem bind_iff {f : α → Except AccessError β} :
    Returns (x >>= f) ↔ Returns x ∧ After x fun value => Returns (f value) := by
  constructor
  · rintro ⟨result, all⟩
    obtain ⟨value, read, rest⟩ := bind_eq_ok_iff.mp all
    refine ⟨⟨value, read⟩, fun _ same => ?_⟩
    cases read.symm.trans same
    exact ⟨result, rest⟩
  · rintro ⟨⟨value, read⟩, rest⟩
    obtain ⟨result, found⟩ := rest value read
    exact ⟨result, bind_eq_ok_iff.mpr ⟨value, read, found⟩⟩

@[simp] theorem map_iff {f : α → β} : Returns (f <$> x) ↔ Returns x := by
  cases x <;> simp [Returns, Functor.map, Except.map]

@[simp] theorem hashed_iff {value : Json} : Returns value.hashed ↔ value.isHashable := by
  simp [Returns, hashed_eq_ok_iff]

@[simp] theorem lookup_iff {fields : Fields} {key default : Json} :
    Returns (Json.lookup fields key default) ↔ key.isHashable := by
  simp [Json.lookup]

@[simp] theorem getter_iff {value : Json} : Returns value.getter ↔ isDict value := by
  cases value <;> simp [Returns, Json.getter, isDict, asObj?]

@[simp] theorem get_iff {value default : Json} {key : String} :
    Returns (value.get key default) ↔ isDict value := by
  simp [Json.get]

@[simp] theorem ifTruthy_iff {value : Json} {default : α} :
    Returns (ifTruthy value x default) ↔ (value.isTruthy → Returns x) := by
  unfold ifTruthy
  split_ifs with truthy <;> simp [truthy]

theorem select_iff {test : α → Except AccessError Bool} {as : List α} :
    Returns (select test as) ↔ ∀ a ∈ as, Returns (test a) := by
  induction as with
  | nil => simp [select]
  | cons a as ih =>
    rw [select, bind_iff, List.forall_mem_cons, ← ih]
    refine and_congr_right fun first => ?_
    simp [first]

/-- A monitor whose steps get through or not whatever its state is. -/
theorem foldlM_iff {σ : Type} {step : σ → α → Except AccessError σ} {as : List α}
    (each : ∀ s, ∀ a ∈ as, Returns (step s a) ↔ P a) (s : σ) :
    Returns (as.foldlM step s) ↔ ∀ a ∈ as, P a := by
  induction as generalizing s with
  | nil => simp
  | cons a as ih =>
    have rest : ∀ s, Returns (as.foldlM step s) ↔ ∀ a ∈ as, P a :=
      ih fun s b later => each s b (.tail _ later)
    rw [List.foldlM_cons, bind_iff, each s a (.head _), List.forall_mem_cons]
    simp only [rest, After.const_iff]
    exact and_congr_right fun here => imp_iff_right ((each s a (.head _)).mpr here)

theorem mapM_iff {f : α → Except AccessError β} {as : List α} :
    Returns (as.mapM f) ↔ ∀ a ∈ as, Returns (f a) := by
  induction as with
  | nil => simp
  | cons a as ih =>
    rw [List.mapM_cons, bind_iff, List.forall_mem_cons, ← ih]
    refine and_congr_right fun first => ?_
    simp [first]

/-- A test of some of the values stops at the first that passes. -/
theorem anyM {f : α → Except AccessError Bool} {as : List α} (each : ∀ a ∈ as, Returns (f a)) :
    Returns (as.anyM f) := by
  induction as with
  | nil => simp
  | cons a as ih =>
    rw [List.anyM_cons, bind_iff]
    refine ⟨each a (.head _), fun passed _ => ?_⟩
    cases passed
    · exact ih fun b later => each b (.tail _ later)
    · exact of_pure true

end Returns

namespace Gives

@[simp] theorem ok_iff {value : α} : Gives (.ok value) P ↔ P value :=
  ⟨fun ⟨_, same, h⟩ => Except.ok.inj same ▸ h, fun h => ⟨value, rfl, h⟩⟩

theorem of_error {e : AccessError} : ¬ Gives (.error e : Except AccessError α) P :=
  fun ⟨_, same, _⟩ => by cases same

@[simp] theorem bind_iff {f : α → Except AccessError β} {Q : β → Prop} :
    Gives (x >>= f) Q ↔ Gives x fun value => Gives (f value) Q := by
  cases x with
  | ok value => exact (ok_iff (P := fun value => Gives (f value) Q)).symm
  | error e => exact iff_of_false of_error of_error

/-- A chain gets through if its first read does, and the others from there. -/
theorem returns_bind_iff {f : α → Except AccessError β} :
    Returns (x >>= f) ↔ Gives x fun value => Returns (f value) := by
  cases x with
  | ok value => exact (ok_iff (P := fun value => Returns (f value))).symm
  | error e => exact iff_of_false (fun ⟨_, same⟩ => by cases same) of_error

@[simp] theorem const_iff {p : Prop} : Gives x (fun _ => p) ↔ Returns x ∧ p :=
  ⟨fun ⟨value, read, h⟩ => ⟨⟨value, read⟩, h⟩, fun ⟨⟨value, read⟩, h⟩ => ⟨value, read, h⟩⟩

theorem congr {Q : α → Prop} (same : ∀ value, x = .ok value → (P value ↔ Q value)) :
    Gives x P ↔ Gives x Q :=
  exists_congr fun value => and_congr_right (same value)

end Gives

namespace MethodsFound

@[simp] theorem of_ok (value : α) : MethodsFound (.ok value : Except AccessError α) :=
  fun h => by cases h

@[simp] theorem of_pure (value : α) : MethodsFound (pure value : Except AccessError α) :=
  fun h => by cases h

/-- What comes after a read matters only if the read gets through. -/
theorem bind_iff {f : α → Except AccessError β} :
    MethodsFound (x >>= f) ↔ MethodsFound x ∧ After x fun value => MethodsFound (f value) := by
  cases x with
  | ok value =>
    exact ⟨fun h => ⟨of_ok value, fun _ same => Except.ok.inj same ▸ h⟩, fun h => h.2 value rfl⟩
  | error e =>
    refine ⟨fun h => ⟨fun same => h ?_, fun _ same => by cases same⟩, fun h same => h.1 ?_⟩
    · rw [Except.error.inj same]
      rfl
    · exact congrArg Except.error (Except.error.inj same)

@[simp] theorem map_iff {f : α → β} :
    MethodsFound (f <$> x) ↔ MethodsFound x := by
  cases x <;> simp [MethodsFound, Functor.map, Except.map]

@[simp] theorem item (value : Json) (key : String) : MethodsFound (value.item key) := by
  unfold Json.item
  split
  · rename_i fields
    cases Dict.get? fields key <;> simp [MethodsFound]
  · simp [MethodsFound]

@[simp] theorem hashed (value : Json) : MethodsFound value.hashed := by
  unfold Json.hashed
  split_ifs <;> simp [MethodsFound]

@[simp] theorem lookup (fields : Fields) (key default : Json) :
    MethodsFound (Json.lookup fields key default) := by
  simp [Json.lookup]

@[simp] theorem elements (value : Json) : MethodsFound value.elements := by
  cases value <;> simp [MethodsFound, Json.elements]

@[simp] theorem members (value : Json) : MethodsFound value.members := by
  rw [Json.members, bind_iff]
  refine ⟨elements value, fun items _ => ?_⟩
  by_cases hashable : items.all isHashable <;> simp [hashable, MethodsFound]

@[simp] theorem getter_iff {value : Json} : MethodsFound value.getter ↔ isDict value := by
  cases value <;> simp [MethodsFound, Json.getter, isDict, asObj?]

@[simp] theorem get_iff {value : Json} {key : String} {default : Json} :
    MethodsFound (value.get key default) ↔ isDict value := by
  simp [Json.get]

@[simp] theorem ifTruthy_iff {value : Json} {action : Except AccessError α} {default : α} :
    MethodsFound (ifTruthy value action default) ↔ (value.isTruthy → MethodsFound action) := by
  unfold ifTruthy
  split_ifs with truthy <;> simp [truthy]

/-- A selection asks every value if no test raises anything else. -/
theorem select_iff {test : α → Except AccessError Bool} {as : List α}
    (only : ∀ a ∈ as, MethodsFound (test a) → Returns (test a)) :
    MethodsFound (Json.select test as) ↔ ∀ a ∈ as, MethodsFound (test a) := by
  induction as with
  | nil => simp [Json.select]
  | cons a as ih =>
    rw [Json.select, bind_iff, List.forall_mem_cons, ← ih fun b later => only b (.tail _ later)]
    refine and_congr_right fun first => ?_
    simp [only a (.head _) first]

theorem select {test : α → Except AccessError Bool} (each : ∀ a, MethodsFound (test a))
    (as : List α) :
    MethodsFound (Json.select test as) := by
  induction as with
  | nil => simp [Json.select]
  | cons a as ih =>
    rw [Json.select, bind_iff]
    exact ⟨each a, fun passed _ => bind_iff.mpr ⟨ih, fun _ _ => of_pure _⟩⟩

end MethodsFound

end Reads

end Json

end AgentLabs.Text
