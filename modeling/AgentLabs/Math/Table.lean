import Mathlib.Algebra.BigOperators.Group.List.Basic
import Mathlib.Data.List.Nodup

/-!
# Tables with a primary key

A table is a list of rows whose keys are pairwise distinct; the distinctness is
a field, so a table with a duplicate key cannot be built. The operations are the
three the SQL statements of the repositories below need: reading the row of a
key, inserting a row (which fails on a present key) and rewriting the row of a
key without changing its key.

## Main definitions

* `Table`: rows with pairwise distinct keys
* `Table.find?`, `Table.insert?`, `Table.update`: the operations

## Main results

* `Table.find?_eq_some_iff`: a row is found under its key and nowhere else
* `Table.find?_insert`, `Table.find?_update`: what an insertion or an update reads back
* `Table.sum_filter_add`: a sum over some rows when one more row is let in
-/

namespace AgentLabs.Math

/-- Rows whose keys are pairwise distinct. -/
structure Table {ρ κ : Type*} (key : ρ → κ) where
  rows : List ρ
  nodup : (rows.map key).Nodup

namespace Table

variable {ρ κ : Type*} {key : ρ → κ} {t t' : Table key} {k k' : κ} {row : ρ}

@[ext] theorem ext (h : t.rows = t'.rows) : t = t' := by
  cases t
  cases t'
  cases h
  rfl

/-- The table without rows. -/
def empty : Table key := ⟨[], List.nodup_nil⟩

/-- The table with one row. -/
def single (row : ρ) : Table key := ⟨[row], List.nodup_singleton _⟩

@[simp] theorem rows_empty : (empty : Table key).rows = [] := rfl

/-- The keys in use. -/
def keys (t : Table key) : List κ := t.rows.map key

instance : Membership κ (Table key) := ⟨fun t k => k ∈ t.keys⟩

theorem mem_iff : k ∈ t ↔ ∃ row ∈ t.rows, key row = k := List.mem_map

/-- Two stored rows with one key are the same row. -/
theorem eq_of_key_eq {row' : ρ} (h : row ∈ t.rows) (h' : row' ∈ t.rows)
    (same : key row = key row') : row = row' :=
  List.inj_on_of_nodup_map t.nodup h h' same

/-- A sum over the rows of a kind grows by one summand when one row is added to
the kind. -/
theorem sum_filter_add {M : Type*} [AddCommMonoid M] (f : ρ → M) {P Q : ρ → Prop}
    [DecidablePred P] [DecidablePred Q] (member : row ∈ t.rows) (outside : ¬ P row)
    (widened : ∀ other ∈ t.rows, Q other ↔ P other ∨ other = row) :
    ((t.rows.filter Q).map f).sum = ((t.rows.filter P).map f).sum + f row := by
  obtain ⟨before, after, split⟩ := List.append_of_mem member
  have distinct : t.rows.Nodup := t.nodup.of_map
  rw [split, List.nodup_append, List.nodup_cons] at distinct
  have inside : Q row := (widened row member).mpr (.inr rfl)
  have same : ∀ part : List ρ, (∀ other ∈ part, other ∈ t.rows ∧ other ≠ row) →
      part.filter Q = part.filter P := by
    intro part others
    refine List.filter_congr fun other h => ?_
    simp [widened other (others other h).1, (others other h).2]
  have first := same before fun other h =>
    ⟨by simp [split, h], distinct.2.2 other h row (.head _)⟩
  have last := same after fun other h =>
    ⟨by simp [split, h], fun e => distinct.2.1.1 (e ▸ h)⟩
  simp only [split, List.filter_append, List.filter_cons, inside, outside, decide_true,
    decide_false, if_true, Bool.false_eq_true, if_false, first, last, List.map_append,
    List.map_cons, List.sum_append, List.sum_cons]
  rw [add_comm (f row), ← add_assoc]

variable [DecidableEq κ]

/-- At most one row has a given key. -/
theorem length_filter_key_le_one (t : Table key) (k : κ) :
    (t.rows.filter fun row => key row = k).length ≤ 1 := by
  have once := List.nodup_iff_count_le_one.mp t.nodup k
  rwa [List.count_eq_countP, List.countP_map, List.countP_eq_length_filter] at once

instance (k : κ) (t : Table key) : Decidable (k ∈ t) :=
  inferInstanceAs (Decidable (k ∈ t.keys))

/-- The row stored under a key. -/
def find? (t : Table key) (k : κ) : Option ρ := t.rows.find? fun row => key row = k

/-- Insert a row; `none` when its key is in use. -/
def insert? (t : Table key) (row : ρ) : Option (Table key) :=
  if h : key row ∈ t then none
  else some ⟨t.rows ++ [row], by
    rw [List.map_append]
    refine List.nodup_append.mpr ⟨t.nodup, List.nodup_singleton _, ?_⟩
    rintro a member b other rfl
    exact h (List.mem_singleton.mp other ▸ member)⟩

/-- Rewrite the row of a key. -/
def update (t : Table key) (k : κ) (f : ρ → ρ) (keeps : ∀ row, key (f row) = key row) :
    Table key where
  rows := t.rows.map fun row => if key row = k then f row else row
  nodup := by
    have same : (key ∘ fun row => if key row = k then f row else row) = key := by
      funext row
      by_cases h : key row = k <;> simp [h, keeps]
    rw [List.map_map, same]
    exact t.nodup

variable {f : ρ → ρ} {keeps : ∀ row, key (f row) = key row}

theorem rows_update :
    (t.update k f keeps).rows = t.rows.map fun row => if key row = k then f row else row := rfl

/-- A row is found under a key exactly when it is stored and has that key. -/
theorem find?_eq_some_iff : t.find? k = some row ↔ row ∈ t.rows ∧ key row = k := by
  constructor
  · intro h
    exact ⟨List.mem_of_find?_eq_some h, by simpa using List.find?_some h⟩
  · rintro ⟨member, rfl⟩
    obtain ⟨found, h⟩ : ∃ found, t.find? (key row) = some found := by
      rw [← Option.isSome_iff_exists, find?, List.find?_isSome]
      exact ⟨row, member, by simp⟩
    have stored := List.mem_of_find?_eq_some h
    have same : key found = key row := by simpa using List.find?_some h
    rw [h, eq_of_key_eq stored member same]

theorem find?_eq_none_iff : t.find? k = none ↔ k ∉ t := by
  simp [find?, mem_iff]

theorem mem_of_find?_eq_some (h : t.find? k = some row) : row ∈ t.rows :=
  (find?_eq_some_iff.mp h).1

theorem key_of_find?_eq_some (h : t.find? k = some row) : key row = k :=
  (find?_eq_some_iff.mp h).2

theorem find?_self (h : row ∈ t.rows) : t.find? (key row) = some row :=
  find?_eq_some_iff.mpr ⟨h, rfl⟩

theorem exists_find?_of_mem (h : k ∈ t) : ∃ row, t.find? k = some row := by
  obtain ⟨row, member, rfl⟩ := mem_iff.mp h
  exact ⟨row, find?_self member⟩

/-! ### Insertion -/

theorem insert?_eq_some_iff :
    t.insert? row = some t' ↔ key row ∉ t ∧ t'.rows = t.rows ++ [row] := by
  unfold insert?
  split_ifs with h
  · simp [h]
  · simp only [h, not_false_eq_true, true_and, Option.some_inj]
    exact ⟨fun e => e ▸ rfl, fun e => ext e.symm⟩

theorem insert?_eq_none_iff : t.insert? row = none ↔ key row ∈ t := by
  unfold insert?
  split_ifs with h <;> simp [h]

/-- An insertion adds the new row and keeps what every other key reads. -/
theorem find?_insert (h : t.insert? row = some t') :
    t'.find? k = if key row = k then some row else t.find? k := by
  obtain ⟨fresh, rows⟩ := insert?_eq_some_iff.mp h
  rw [find?, rows, List.find?_append]
  split_ifs with same
  · have absent : t.find? k = none := find?_eq_none_iff.mpr (same ▸ fresh)
    rw [find?] at absent
    simp [absent, same]
  · simp [same, find?]

/-- Insert rows one after the other; `none` at the first repeated key. -/
def insertAll? (t : Table key) (rows : List ρ) : Option (Table key) := rows.foldlM insert? t

/-- Rows are inserted, at the end, exactly when no key repeats. -/
theorem insertAll?_eq_some_iff {rows : List ρ} :
    t.insertAll? rows = some t' ↔ t'.rows = t.rows ++ rows := by
  induction rows generalizing t with
  | nil => simp [insertAll?, Table.ext_iff, eq_comm]
  | cons row rest ih =>
    have step : t.insertAll? (row :: rest) = (t.insert? row).bind (insertAll? · rest) := rfl
    rw [step, Option.bind_eq_some_iff]
    constructor
    · rintro ⟨next, inserted, more⟩
      rw [ih.mp more, (insert?_eq_some_iff.mp inserted).2]
      simp
    · intro all
      have fresh : key row ∉ t := by
        have distinct := t'.nodup
        rw [all, List.map_append, List.nodup_append] at distinct
        exact fun member => distinct.2.2 _ member _ (by simp) rfl
      cases inserted : t.insert? row with
      | none => exact absurd (insert?_eq_none_iff.mp inserted) fresh
      | some next =>
        exact ⟨next, rfl, ih.mpr (by rw [all, (insert?_eq_some_iff.mp inserted).2]; simp)⟩

theorem exists_insertAll?_empty {rows : List ρ} (distinct : (rows.map key).Nodup) :
    ∃ t : Table key, empty.insertAll? rows = some t ∧ t.rows = rows :=
  ⟨⟨rows, distinct⟩, insertAll?_eq_some_iff.mpr rfl, rfl⟩

theorem mem_of_insert? (h : t.insert? row = some t') : k ∈ t' ↔ k = key row ∨ k ∈ t := by
  simp only [mem_iff, (insert?_eq_some_iff.mp h).2, List.mem_append, List.mem_singleton]
  constructor
  · rintro ⟨other, old | rfl, rfl⟩
    exacts [.inr ⟨other, old, rfl⟩, .inl rfl]
  · rintro (rfl | ⟨other, old, rfl⟩)
    exacts [⟨row, .inr rfl, rfl⟩, ⟨other, .inl old, rfl⟩]

/-! ### Update -/

theorem find?_update :
    (t.update k f keeps).find? k' = if k' = k then (t.find? k').map f else t.find? k' := by
  simp only [find?, rows_update, List.find?_map]
  have same : ((fun row => decide (key row = k')) ∘ fun row => if key row = k then f row else row)
      = fun row => decide (key row = k') := by
    funext row
    by_cases h : key row = k <;> simp [h, keeps]
  rw [same]
  cases h : t.rows.find? fun row => decide (key row = k') with
  | none => split_ifs <;> rfl
  | some row =>
    have hk : key row = k' := by simpa using List.find?_some h
    by_cases hkk : k' = k
    · simp [hkk, hk]
    · simp [hkk, hk]

/-- An update that leaves the row of the key leaves the table. -/
theorem update_eq_self (keeps : ∀ row, key (f row) = key row)
    (same : ∀ row ∈ t.rows, key row = k → f row = row) :
    t.update k f keeps = t := by
  ext1
  rw [rows_update]
  refine (List.map_congr_left fun row member => ?_).trans (List.map_id _)
  split_ifs with own
  · exact same row member own
  · rfl

@[simp] theorem mem_update {k' : κ} : k' ∈ t.update k f keeps ↔ k' ∈ t := by
  rw [← not_iff_not, ← find?_eq_none_iff, ← find?_eq_none_iff, find?_update]
  split_ifs <;> simp

end Table

end AgentLabs.Math
