import AgentLabs.Math.Dict
import Mathlib.Algebra.GroupWithZero.Nat
import Mathlib.Data.List.Count

/-!
# Grouping and counting

A list of entries is gathered into a dictionary of lists, each key holding its values in
the order of the entries. Counting is grouping of units.

## Main definitions

* `Dict.group`: the values under each key
* `Dict.tally`: how often each key occurs
* `Dict.total`: the sum of a measure over the values

## Main results

* `Dict.get?_group`, `Dict.mem_group_iff`: the values under a key
* `Dict.getD_tally`: the count of a key
* `Dict.total_group`: grouping keeps what is measured
* `Dict.countP_mul_le_total`, `Dict.total_le_countP_mul`: bounds on a total
-/

namespace AgentLabs.Math.Dict

variable {κ ν : Type*} [DecidableEq κ]

/-- The values of a list of entries, gathered under their keys. -/
def group (entries : List (κ × ν)) : Dict κ (List ν) :=
  entries.foldl (fun d entry => d.set entry.1 ((d.get? entry.1).getD [] ++ [entry.2])) []

/-- How often each key occurs. -/
def tally (ks : List κ) : Dict κ ℕ :=
  (group (ks.map fun k => (k, ()))).map fun entry => (entry.1, entry.2.length)

/-- The values that a list of entries has under a key. -/
def valuesOf (entries : List (κ × ν)) (k : κ) : List ν :=
  (entries.filter fun entry => entry.1 = k).map Prod.snd

variable {entries : List (κ × ν)} {k : κ} {v : ν}

theorem valuesOf_append_singleton (entries : List (κ × ν)) (entry : κ × ν) (k : κ) :
    valuesOf (entries ++ [entry]) k =
      if entry.1 = k then valuesOf entries k ++ [entry.2] else valuesOf entries k := by
  by_cases h : entry.1 = k <;> simp [valuesOf, h]

theorem mem_valuesOf_iff : v ∈ valuesOf entries k ↔ (k, v) ∈ entries := by
  simp only [valuesOf, List.mem_map, List.mem_filter, decide_eq_true_eq]
  constructor
  · rintro ⟨⟨k', v'⟩, ⟨member, rfl⟩, rfl⟩
    exact member
  · intro member
    exact ⟨(k, v), ⟨member, rfl⟩, rfl⟩

theorem valuesOf_ne_nil_iff : valuesOf entries k ≠ [] ↔ k ∈ entries.map Prod.fst := by
  rw [ne_eq, List.eq_nil_iff_forall_not_mem]
  simp [mem_valuesOf_iff]

/-- **The values under a key**, if the key occurs at all. -/
theorem get?_group (entries : List (κ × ν)) (k : κ) :
    (group entries).get? k =
      if k ∈ entries.map Prod.fst then some (valuesOf entries k) else none := by
  induction entries using List.reverseRecOn generalizing k with
  | nil => rfl
  | append_singleton entries entry ih =>
    have step : group (entries ++ [entry]) = (group entries).set entry.1
        (((group entries).get? entry.1).getD [] ++ [entry.2]) := by
      rw [group, List.foldl_append]
      rfl
    -- A key that does not occur has no values, which is what `getD` gives.
    have before : ∀ k, ((group entries).get? k).getD [] = valuesOf entries k := by
      intro k
      rw [ih]
      split_ifs with member
      · rfl
      · exact (not_not.mp (mt valuesOf_ne_nil_iff.mp member)).symm
    rw [step, get?_set, valuesOf_append_singleton]
    by_cases h : entry.1 = k
    · subst h
      simp [before]
    · have other : k ≠ entry.1 := Ne.symm h
      rw [if_neg h, if_neg h, ih]
      simp only [List.map_append, List.map_cons, List.map_nil, List.mem_append,
        List.mem_singleton, other, or_false]

theorem mem_keys_group : k ∈ (group entries).keys ↔ k ∈ entries.map Prod.fst := by
  rw [mem_keys_iff, get?_group]
  split_ifs with member <;> simp [member]

theorem keysNodup_group (entries : List (κ × ν)) : (group entries).KeysNodup := by
  induction entries using List.reverseRecOn with
  | nil => simp [group, KeysNodup, keys]
  | append_singleton entries entry ih =>
    rw [group, List.foldl_append]
    exact ih.set

theorem mem_group_iff {vs : List ν} :
    (k, vs) ∈ group entries ↔ k ∈ entries.map Prod.fst ∧ vs = valuesOf entries k := by
  rw [← get?_eq_some_iff (keysNodup_group entries), get?_group]
  split_ifs with member <;> simp [member, eq_comm]

/-- The value of a mapped dictionary. -/
theorem get?_map_snd {μ : Type*} (f : ν → μ) (d : Dict κ ν) (k : κ) :
    Dict.get? (d.map fun entry => (entry.1, f entry.2)) k = (d.get? k).map f := by
  induction d with
  | nil => rfl
  | cons entry rest ih =>
    rw [List.map_cons, get?_cons, ih, show entry = (entry.1, entry.2) from rfl, get?_cons]
    split_ifs <;> rfl

/-- **The count of a key.** -/
theorem getD_tally (ks : List κ) (k : κ) : ((tally ks).get? k).getD 0 = ks.count k := by
  have units : (valuesOf (ks.map fun k => (k, ())) k).length = ks.count k := by
    rw [valuesOf, List.length_map, List.filter_map, List.length_map, List.count_eq_length_filter]
    congr 1
  rw [tally, get?_map_snd, get?_group]
  split_ifs with member
  · simp [units]
  · have absent : k ∉ ks := by simpa using member
    simp [List.count_eq_zero_of_not_mem absent]

/-! ### Totals -/

/-- The sum of a measure over the values of a dictionary. -/
def total (f : ν → ℕ) (d : Dict κ ν) : ℕ := (d.map fun entry => f entry.2).sum

section Total

variable {d : Dict κ ν} {f : ν → ℕ} {n : ℕ}

omit [DecidableEq κ] in
theorem total_cons (f : ν → ℕ) (entry : κ × ν) (d : Dict κ ν) :
    total f (entry :: d) = f entry.2 + total f d := by
  rw [total, List.map_cons, List.sum_cons, ← total]

/-- Storing a value puts its measure in the place of the measure before. -/
theorem total_set (f : ν → ℕ) (d : Dict κ ν) (k : κ) (v : ν) :
    total f (d.set k v) + ((d.get? k).map f).getD 0 = total f d + f v := by
  induction d with
  | nil => simp [set, total]
  | cons entry rest ih =>
    obtain ⟨k', v'⟩ := entry
    rw [get?_cons, set, total_cons]
    split_ifs with same
    · rw [total_cons]
      simp only [Option.map_some, Option.getD_some]
      omega
    · rw [total_cons]
      omega

/-- **Grouping keeps what is measured**, if the measure adds up along a list. -/
theorem total_group {f : List ν → ℕ} {g : ν → ℕ} (empty : f [] = 0)
    (snoc : ∀ vs v, f (vs ++ [v]) = f vs + g v) (entries : List (κ × ν)) :
    total f (group entries) = f (entries.map Prod.snd) := by
  induction entries using List.reverseRecOn with
  | nil => rw [List.map_nil, empty, group, List.foldl_nil, total, List.map_nil, List.sum_nil]
  | append_singleton entries entry ih =>
    have step : group (entries ++ [entry]) = (group entries).set entry.1
        (((group entries).get? entry.1).getD [] ++ [entry.2]) := by
      rw [group, List.foldl_append]
      rfl
    have added := total_set f (group entries) entry.1
      (((group entries).get? entry.1).getD [] ++ [entry.2])
    have before : f (((group entries).get? entry.1).getD []) =
        (((group entries).get? entry.1).map f).getD 0 := by
      cases (group entries).get? entry.1 <;> simp [empty]
    rw [snoc, before, ih] at added
    rw [step, List.map_append, List.map_singleton, snoc]
    omega

theorem total_length_group (entries : List (κ × ν)) :
    total List.length (group entries) = entries.length := by
  rw [total_group List.length_nil (fun _ _ => List.length_append), List.length_map]

theorem total_countP_group (p : ν → Bool) (entries : List (κ × ν)) :
    total (List.countP p) (group entries) = (entries.map Prod.snd).countP p :=
  total_group List.countP_nil (fun _ _ => List.countP_append) entries

/-- The counts of all keys are the length of the list. -/
theorem total_tally (ks : List κ) : total id (tally ks) = ks.length := by
  have counts : total id (tally ks) = total List.length (group (ks.map fun k => (k, ()))) := by
    rw [tally, total, total, List.map_map]
    rfl
  rw [counts, total_length_group, List.length_map]

omit [DecidableEq κ] in
theorem countP_mul_le_total (p : ν → Bool) (least : ∀ entry ∈ d, p entry.2 → n ≤ f entry.2) :
    (d.countP fun entry => p entry.2) * n ≤ total f d := by
  induction d with
  | nil => simp [total]
  | cons entry rest ih =>
    have later := ih fun other member => least other (.tail _ member)
    have here := least entry (.head _)
    rw [total_cons, List.countP_cons, Nat.add_mul]
    split_ifs with counted
    · have := here counted
      omega
    · omega

omit [DecidableEq κ] in
theorem total_le_countP_mul (p : ν → Bool)
    (most : ∀ entry ∈ d, f entry.2 ≤ if p entry.2 then n else 0) :
    total f d ≤ (d.countP fun entry => p entry.2) * n := by
  induction d with
  | nil => simp [total]
  | cons entry rest ih =>
    have later := ih fun other member => most other (.tail _ member)
    have here := most entry (.head _)
    rw [total_cons, List.countP_cons, Nat.add_mul]
    split_ifs at here ⊢ with counted
    · omega
    · omega

end Total

end AgentLabs.Math.Dict
