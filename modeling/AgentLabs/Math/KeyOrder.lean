import AgentLabs.Math.Dict
import AgentLabs.Math.Table
import Mathlib.Data.List.Sort

/-!
# Rows in the order of their keys

A query with `ORDER BY` lists the rows of a table by their key. The keys are
distinct, so the list is determined by the set of rows: two tables that agree on
the rows of a kind list them alike, and a dictionary built from the list reads what
the table finds.

## Main definitions

* `Table.sorted`: the rows by their key

## Main results

* `Table.filter_sorted_eq_iff`: the rows of a kind, in two tables
* `Table.get?_sorted`: reading the dictionary of a table
-/

namespace AgentLabs.Math

namespace Table

variable {ρ κ : Type*} {key : ρ → κ} [LinearOrder κ] {t t' : Table key} {row : ρ} {k : κ}

/-- `ORDER BY` the key. -/
def sorted (t : Table key) : List ρ := t.rows.insertionSort fun a b => key a ≤ key b

theorem sorted_perm (t : Table key) : t.sorted.Perm t.rows := List.perm_insertionSort _ _

@[simp] theorem mem_sorted : row ∈ t.sorted ↔ row ∈ t.rows := t.sorted_perm.mem_iff

theorem nodup_sorted (t : Table key) : (t.sorted.map key).Nodup :=
  (t.sorted_perm.map key).nodup_iff.mpr t.nodup

theorem pairwise_sorted (t : Table key) : t.sorted.Pairwise fun a b => key a ≤ key b := by
  have : IsTrans ρ fun a b => key a ≤ key b := ⟨fun _ _ _ => le_trans⟩
  have : Std.Total fun a b : ρ => key a ≤ key b := ⟨fun a b => le_total (key a) (key b)⟩
  exact List.pairwise_insertionSort _ _

/-- Two tables list the rows of a kind alike exactly if they have the same ones. -/
theorem filter_sorted_eq_iff {P : ρ → Prop} [DecidablePred P] :
    t.sorted.filter P = t'.sorted.filter P ↔ ∀ row, P row → (row ∈ t.rows ↔ row ∈ t'.rows) := by
  constructor
  · intro same row kind
    have := congrArg (row ∈ ·) same
    simpa [kind] using this
  · intro same
    have distinct : ∀ t : Table key, (t.sorted.filter P).Nodup := fun t =>
      (t.nodup_sorted.of_map).filter _
    have perm : (t.sorted.filter P).Perm (t'.sorted.filter P) := by
      refine (List.perm_ext_iff_of_nodup (distinct t) (distinct t')).mpr fun row => ?_
      simp only [List.mem_filter, mem_sorted, decide_eq_true_eq]
      exact and_congr_left fun kind => same row kind
    refine perm.eq_of_pairwise (fun a b ha hb ab ba => ?_) (t.pairwise_sorted.filter _)
      (t'.pairwise_sorted.filter _)
    -- Rows with one key are one row of the first table.
    have ha := (List.mem_filter.mp ha).1
    have hb := (List.mem_filter.mp (perm.mem_iff.mpr hb)).1
    exact t.eq_of_key_eq (mem_sorted.mp ha) (mem_sorted.mp hb) (le_antisymm ab ba)

/-- The dictionary of a table, by its keys. -/
theorem get?_sorted [DecidableEq κ] {ν : Type*} (f : ρ → ν) (t : Table key) (k : κ) :
    Dict.get? (t.sorted.map fun row => (key row, f row)) k = (t.find? k).map f := by
  have nodup : Dict.KeysNodup (t.sorted.map fun row => (key row, f row)) := by
    rw [Dict.KeysNodup, Dict.keys, List.map_map]
    exact t.nodup_sorted
  ext v
  rw [Dict.get?_eq_some_iff nodup, Option.map_eq_some_iff]
  simp only [List.mem_map, mem_sorted, Prod.mk.injEq, find?_eq_some_iff, and_assoc]

end Table

end AgentLabs.Math
