import AgentLabs.Math.Dict

/-!
# Rows by their keys

A dictionary comprehension stores rows under their keys, so that of several rows with one key
only the last is left. Looking rows up by a list of keys gives each row once if and only if no
two rows have one key and the keys are those of the rows.

## Main definitions

* `Dict.index`: rows by their keys

## Main results

* `Dict.get?_index_key`: a row is found by its key if the keys are distinct
* `Dict.perm_lookup_iff`: when each row is found once
-/

namespace AgentLabs.Math.Dict

variable {κ ν : Type*} [DecidableEq κ]

/-- `{key(row): row for row in rows}`. -/
def index (key : ν → κ) (rows : List ν) : Dict κ ν :=
  setAll [] (rows.map fun row => (key row, row))

variable {key : ν → κ} {rows : List ν} {row : ν} {k : κ} {ks : List κ}

/-- What is found under a key is a row with the key. -/
theorem of_get?_index (h : (index key rows).get? k = some row) : row ∈ rows ∧ key row = k := by
  rw [index, get?_setAll, get?_nil, Option.or_none] at h
  obtain ⟨entry, last, rfl⟩ := Option.map_eq_some_iff.mp h
  obtain ⟨listed, same⟩ := List.mem_filter.mp (List.mem_of_getLast? last)
  obtain ⟨row, member, rfl⟩ := List.mem_map.mp listed
  exact ⟨member, of_decide_eq_true same⟩

theorem get?_index_eq_none_iff : (index key rows).get? k = none ↔ k ∉ rows.map key := by
  rw [index, get?_eq_none_iff, mem_keys_setAll]
  simp [keys]

/-- What a row is made of is found where the row is. -/
theorem get?_index_map {μ : Type*} (f : ν → μ) (key : μ → κ) (rows : List ν) (k : κ) :
    (index key (rows.map f)).get? k = ((index (key ∘ f) rows).get? k).map f := by
  rw [index, index, get?_setAll, get?_setAll, List.map_map, List.filter_map, List.filter_map,
    List.getLast?_map, List.getLast?_map, get?_nil, get?_nil, Option.or_none, Option.or_none,
    Option.map_map, Option.map_map, Option.map_map]
  rfl

/-- A row is found by its key if no other row has the key. -/
theorem get?_index_key (distinct : (rows.map key).Nodup) (member : row ∈ rows) :
    (index key rows).get? (key row) = some row := by
  refine get?_setAll_of_mem ?_ (List.mem_map.mpr ⟨row, member, rfl⟩)
  rwa [List.map_map]

/-- **Each row is found once** if and only if the rows have distinct keys and the keys that are
looked up are theirs. -/
theorem perm_lookup_iff (nodup : rows.Nodup) (found : ∀ k ∈ ks, k ∈ rows.map key) :
    (ks.filterMap (index key rows).get?).Perm rows ↔
      (rows.map key).Nodup ∧ ks.Perm (rows.map key) := by
  have keys : (ks.filterMap (index key rows).get?).map key = ks := by
    induction ks with
    | nil => rfl
    | cons k ks ih =>
      cases here : (index key rows).get? k with
      | none => exact absurd (found k (.head _)) (get?_index_eq_none_iff.mp here)
      | some row =>
        rw [List.filterMap_cons_some here, List.map_cons, (of_get?_index here).2,
          ih fun k later => found k (.tail _ later)]
  constructor
  · intro each
    refine ⟨List.Nodup.map_on (fun first listed second listed' same => ?_) nodup,
      keys ▸ each.map key⟩
    -- Both rows are found, and each of them by the key that they share.
    have byKey {row : ν} (member : row ∈ rows) : (index key rows).get? (key row) = some row := by
      obtain ⟨k, -, here⟩ := List.mem_filterMap.mp (each.mem_iff.mpr member)
      rwa [(of_get?_index here).2]
    exact Option.some_inj.mp ((byKey listed).symm.trans (same ▸ byKey listed'))
  · rintro ⟨distinct, same⟩
    have all : (rows.map key).filterMap (index key rows).get? = rows := by
      rw [List.filterMap_map]
      calc rows.filterMap ((index key rows).get? ∘ key)
          = rows.filterMap some :=
            List.filterMap_congr fun row member => get?_index_key distinct member
        _ = rows := List.filterMap_some
    have found := same.filterMap (index key rows).get?
    rwa [all] at found

end AgentLabs.Math.Dict
