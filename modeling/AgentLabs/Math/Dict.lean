import Mathlib.Data.List.Nodup
import Mathlib.Data.List.Basic
import Mathlib.Data.List.Induction
import Mathlib.Tactic.Tauto

/-!
# Insertion-ordered dictionaries

A dictionary is the list of its entries in the order their keys were first
stored. Storing under a key that is present replaces the value in place, storing
under a new key appends. Each key occurs at most once in a dictionary built by
`set` from the empty one (`KeysNodup`).

## Main definitions

* `Dict.get?`, `Dict.set`, `Dict.setAll`: reading and storing
* `Dict.keys`, `Dict.KeysNodup`: the keys, and that none is repeated

## Main results

* `Dict.get?_set`: storing changes the value of the stored key only
* `Dict.set_of_notMem`: a new key is appended
* `Dict.get?_setAll`: the last value stored under a key is read
-/

namespace AgentLabs.Math

/-- A dictionary: its entries, in the order the keys were first stored. -/
abbrev Dict (κ ν : Type*) := List (κ × ν)

namespace Dict

variable {κ ν : Type*} [DecidableEq κ]

/-- The value stored under a key. -/
def get? (d : Dict κ ν) (k : κ) : Option ν :=
  match d with
  | [] => none
  | (k', v) :: rest => if k' = k then some v else get? rest k

/-- Store a value: replaced in place under a present key, appended otherwise. -/
def set (d : Dict κ ν) (k : κ) (v : ν) : Dict κ ν :=
  match d with
  | [] => [(k, v)]
  | (k', v') :: rest => if k' = k then (k', v) :: rest else (k', v') :: set rest k v

/-- The keys in storage order. -/
def keys (d : Dict κ ν) : List κ := d.map Prod.fst

/-- No key is stored twice. -/
def KeysNodup (d : Dict κ ν) : Prop := d.keys.Nodup

variable {d : Dict κ ν} {k k' : κ} {v v' : ν}

@[simp] theorem get?_nil : get? ([] : Dict κ ν) k = none := rfl

theorem get?_cons : get? ((k', v) :: d) k = if k' = k then some v else get? d k := rfl

@[simp] theorem get?_set_self : get? (set d k v) k = some v := by
  induction d with
  | nil => simp [set, get?]
  | cons entry rest ih =>
    by_cases h : entry.1 = k <;> simp [set, get?, h, ih]

@[simp] theorem get?_set_of_ne (h : k ≠ k') : get? (set d k v) k' = get? d k' := by
  induction d with
  | nil => simp [set, get?, h]
  | cons entry rest ih =>
    by_cases hk : entry.1 = k
    · subst hk
      simp [set, get?, h]
    · simp [set, get?, hk, ih]

theorem get?_set : get? (set d k v) k' = if k = k' then some v else get? d k' := by
  split_ifs with h
  · subst h
    exact get?_set_self
  · exact get?_set_of_ne h

theorem get?_eq_none_iff : get? d k = none ↔ k ∉ d.keys := by
  induction d with
  | nil => simp [keys]
  | cons entry rest ih =>
    by_cases h : entry.1 = k
    · simp [get?, keys, h]
    · simp only [get?, h, if_false, ih]
      simp [keys, Ne.symm h]

theorem mem_keys_iff : k ∈ d.keys ↔ ∃ v, get? d k = some v := by
  rw [← Option.isSome_iff_exists, ← Option.ne_none_iff_isSome, Ne, get?_eq_none_iff, not_not]

theorem mem_of_get?_eq_some (h : get? d k = some v) : (k, v) ∈ d := by
  induction d with
  | nil => simp at h
  | cons entry rest ih =>
    rw [show entry = (entry.1, entry.2) from rfl, get?_cons] at h
    split_ifs at h with hk
    · cases h
      exact hk ▸ .head _
    · exact .tail _ (ih h)

/-- In a dictionary without repeated keys every entry is what its key reads. -/
theorem get?_eq_some_iff (nodup : d.KeysNodup) : get? d k = some v ↔ (k, v) ∈ d := by
  refine ⟨mem_of_get?_eq_some, fun member => ?_⟩
  induction d with
  | nil => simp at member
  | cons entry rest ih =>
    have split := List.nodup_cons.mp (show (entry.1 :: keys rest).Nodup from nodup)
    rcases List.mem_cons.mp member with rfl | later
    · simp [get?]
    · have other : entry.1 ≠ k := by
        rintro rfl
        exact split.1 (List.mem_map.mpr ⟨_, later, rfl⟩)
      simpa [get?, other] using ih split.2 later

/-- The order of the entries does not tell. -/
theorem get?_eq_of_perm {d' : Dict κ ν} (nodup : d.KeysNodup) (same : d'.Perm d) (k : κ) :
    get? d' k = get? d k := by
  have nodup' : d'.KeysNodup := (same.map Prod.fst).nodup_iff.mpr nodup
  ext v
  rw [get?_eq_some_iff nodup', get?_eq_some_iff nodup, same.mem_iff]

/-- Storing under a new key appends the entry. -/
theorem set_of_notMem (h : k ∉ d.keys) : set d k v = d ++ [(k, v)] := by
  induction d with
  | nil => rfl
  | cons entry rest ih =>
    simp only [keys, List.map_cons, List.mem_cons, not_or] at h
    simp [set, Ne.symm h.1, ih h.2]

theorem mem_keys_set : k' ∈ (set d k v).keys ↔ k' = k ∨ k' ∈ d.keys := by
  simp only [mem_keys_iff, get?_set]
  by_cases h : k = k'
  · simp [h]
  · simp [h, Ne.symm h]

theorem keys_set_of_mem (h : k ∈ d.keys) : (set d k v).keys = d.keys := by
  induction d with
  | nil => simp [keys] at h
  | cons entry rest ih =>
    by_cases hk : entry.1 = k
    · simp [set, hk, keys]
    · have later : k ∈ keys rest := by
        simpa [keys, Ne.symm hk] using h
      have := ih later
      simp only [keys] at this
      simp [set, hk, keys, this]

/-- Storing under a key that is there replaces one entry. -/
theorem exists_set_of_mem (h : k ∈ d.keys) : ∃ front old back,
    d = front ++ (k, old) :: back ∧ set d k v = front ++ (k, v) :: back := by
  induction d with
  | nil => simp [keys] at h
  | cons entry rest ih =>
    by_cases hk : entry.1 = k
    · subst hk
      exact ⟨[], entry.2, rest, rfl, by simp [set]⟩
    · have later : k ∈ keys rest := by
        simpa [keys, Ne.symm hk] using h
      obtain ⟨front, old, back, split, stored⟩ := ih later
      refine ⟨entry :: front, old, back, ?_, ?_⟩
      · rw [split, List.cons_append]
      · simp [set, hk, stored]

/-- An entry behind a store is the one that was stored, or it was there. -/
theorem mem_set {entry : κ × ν} (member : entry ∈ set d k v) : entry = (k, v) ∨ entry ∈ d := by
  by_cases there : k ∈ d.keys
  · obtain ⟨front, old, back, split, stored⟩ := exists_set_of_mem (v := v) there
    rw [stored] at member
    rw [split]
    simp only [List.mem_append, List.mem_cons] at member ⊢
    tauto
  · rw [set_of_notMem there] at member
    rcases List.mem_append.mp member with old | new
    · exact .inr old
    · exact .inl (List.mem_singleton.mp new)

/-- Storing keeps the keys distinct. -/
theorem KeysNodup.set (h : d.KeysNodup) : (set d k v).KeysNodup := by
  by_cases member : k ∈ d.keys
  · rw [KeysNodup, keys_set_of_mem member]
    exact h
  · rw [KeysNodup, set_of_notMem member]
    simp only [keys, List.map_append, List.map_cons, List.map_nil] at member ⊢
    exact List.nodup_append.mpr ⟨h, List.nodup_singleton _, by
      rintro a ha b hb rfl
      exact member (List.mem_singleton.mp hb ▸ ha)⟩

/-- Store entry after entry. -/
def setAll (d : Dict κ ν) (entries : List (κ × ν)) : Dict κ ν :=
  entries.foldl (fun d entry => d.set entry.1 entry.2) d

theorem setAll_append (d : Dict κ ν) (a b : List (κ × ν)) :
    d.setAll (a ++ b) = (d.setAll a).setAll b := List.foldl_append

/-- What is read under a key is the last value stored under it, and the value from
before if there is none. -/
theorem get?_setAll (d : Dict κ ν) (entries : List (κ × ν)) (k : κ) :
    (d.setAll entries).get? k =
      ((entries.filter fun entry => entry.1 = k).getLast?.map Prod.snd).or (d.get? k) := by
  induction entries using List.reverseRecOn with
  | nil => rfl
  | append_singleton entries entry ih =>
    rw [setAll_append, show (d.setAll entries).setAll [entry] =
      (d.setAll entries).set entry.1 entry.2 from rfl, get?_set]
    by_cases h : entry.1 = k
    · simp [h]
    · simp [h, ih]

theorem get?_setAll_of_notMem {entries : List (κ × ν)} (h : k ∉ entries.map Prod.fst) :
    (d.setAll entries).get? k = d.get? k := by
  have none : entries.filter (fun entry => entry.1 = k) = [] := by
    rw [List.filter_eq_nil_iff]
    intro entry member same
    exact h (List.mem_map.mpr ⟨entry, member, by simpa using same⟩)
  rw [get?_setAll, none]
  rfl

/-- Among entries with distinct keys each is read under its key. -/
theorem get?_setAll_of_mem {entries : List (κ × ν)} (nodup : (entries.map Prod.fst).Nodup)
    (h : (k, v) ∈ entries) : (d.setAll entries).get? k = some v := by
  induction entries generalizing d with
  | nil => cases h
  | cons entry rest ih =>
    obtain ⟨head, tail⟩ := List.nodup_cons.mp nodup
    rw [show d.setAll (entry :: rest) = (d.set entry.1 entry.2).setAll rest from rfl]
    rcases List.mem_cons.mp h with rfl | later
    · rw [get?_setAll_of_notMem head, get?_set_self]
    · exact ih tail later

theorem KeysNodup.setAll (h : d.KeysNodup) (entries : List (κ × ν)) :
    (d.setAll entries).KeysNodup := by
  induction entries generalizing d with
  | nil => exact h
  | cons entry rest ih => exact ih h.set

theorem mem_keys_setAll {entries : List (κ × ν)} :
    k ∈ (d.setAll entries).keys ↔ k ∈ d.keys ∨ k ∈ entries.map Prod.fst := by
  induction entries generalizing d with
  | nil => simp [setAll]
  | cons entry rest ih =>
    rw [show d.setAll (entry :: rest) = (d.set entry.1 entry.2).setAll rest from rfl, ih,
      mem_keys_set, List.map_cons, List.mem_cons]
    tauto

/-- What is read was stored now or before. -/
theorem of_get?_setAll {entries : List (κ × ν)} (h : (d.setAll entries).get? k = some v) :
    (k, v) ∈ entries ∨ d.get? k = some v := by
  rw [get?_setAll, Option.or_eq_some_iff] at h
  rcases h with now | ⟨-, old⟩
  · obtain ⟨⟨k', v'⟩, last, rfl⟩ := Option.map_eq_some_iff.mp now
    obtain ⟨stored, same⟩ := List.mem_filter.mp (List.mem_of_getLast? last)
    obtain rfl : k' = k := by simpa using same
    exact .inl stored
  · exact .inr old

/-- Entries under distinct new keys are appended as they are. -/
theorem setAll_eq_append {entries : List (κ × ν)} (nodup : (entries.map Prod.fst).Nodup)
    (fresh : ∀ k ∈ entries.map Prod.fst, k ∉ d.keys) : d.setAll entries = d ++ entries := by
  induction entries generalizing d with
  | nil => exact (List.append_nil d).symm
  | cons entry rest ih =>
    obtain ⟨head, tail⟩ := List.nodup_cons.mp nodup
    have new : entry.1 ∉ d.keys := fresh entry.1 (.head _)
    have later : ∀ k ∈ rest.map Prod.fst, k ∉ (d.set entry.1 entry.2).keys := by
      intro k listed stored
      rcases mem_keys_set.mp stored with rfl | old
      · exact head listed
      · exact fresh k (.tail _ listed) old
    rw [show d.setAll (entry :: rest) = (d.set entry.1 entry.2).setAll rest from rfl, ih tail later,
      set_of_notMem new, List.append_assoc]
    rfl

/-- Storing what is stored changes nothing. -/
theorem set_of_get?_eq_some (h : get? d k = some v) : set d k v = d := by
  induction d with
  | nil => cases h
  | cons entry rest ih =>
    obtain ⟨k', v'⟩ := entry
    rw [get?_cons] at h
    rw [set]
    split_ifs at h ⊢ with same
    · rw [Option.some.inj h]
    · rw [ih h]

theorem setAll_of_subset (nodup : d.KeysNodup) {entries : List (κ × ν)} (stored : entries ⊆ d) :
    d.setAll entries = d := by
  induction entries with
  | nil => rfl
  | cons entry rest ih =>
    have first : get? d entry.1 = some entry.2 := (get?_eq_some_iff nodup).mpr (stored (.head _))
    rw [show d.setAll (entry :: rest) = (d.set entry.1 entry.2).setAll rest from rfl,
      set_of_get?_eq_some first]
    exact ih fun other later => stored (.tail _ later)

/-- What is stored is one of the entries. -/
theorem mem_of_mem_setAll_nil {entries : List (κ × ν)} (h : (k, v) ∈ setAll [] entries) :
    (k, v) ∈ entries := by
  have nodup : KeysNodup (setAll [] entries) := KeysNodup.setAll (d := []) List.nodup_nil _
  have read := (get?_eq_some_iff nodup).mpr h
  rw [get?_setAll, get?_nil, Option.or_none, Option.map_eq_some_iff] at read
  obtain ⟨⟨k', v'⟩, last, rfl⟩ := read
  obtain ⟨stored, same⟩ := List.mem_filter.mp (List.mem_of_getLast? last)
  obtain rfl : k' = k := by simpa using same
  exact stored

/-- Keeping one item for each key keeps no other item. -/
theorem mem_of_mem_setAll {key : ν → κ} {items : List ν}
    (h : v ∈ (setAll [] (items.map fun item => (key item, item))).map Prod.snd) : v ∈ items := by
  obtain ⟨⟨k, v⟩, listed, rfl⟩ := List.mem_map.mp h
  have nodup : KeysNodup (setAll [] (items.map fun item => (key item, item))) :=
    KeysNodup.setAll (d := []) List.nodup_nil _
  have read := (get?_eq_some_iff nodup).mpr listed
  rw [get?_setAll, get?_nil, Option.or_none, Option.map_eq_some_iff] at read
  obtain ⟨entry, last, same⟩ := read
  obtain ⟨stored, -⟩ := List.mem_filter.mp (List.mem_of_getLast? last)
  obtain ⟨item, held, rfl⟩ := List.mem_map.mp stored
  rwa [← same]

end Dict

end AgentLabs.Math
