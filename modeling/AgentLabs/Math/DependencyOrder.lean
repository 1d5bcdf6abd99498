import Mathlib.Data.Fintype.Card
import Mathlib.Data.Fintype.EquivFin
import Mathlib.Data.Fintype.Sets
import Mathlib.Data.List.Nodup
import Mathlib.Data.List.Perm.Subperm
import Mathlib.Logic.Relation

/-!
# Items that wait for each other

Each item has a key and waits for the keys of other items. Settling the items pass
after pass, each as soon as all it waits for is settled, reaches exactly the keys
that are grounded: those of items all of whose dependencies are grounded in turn.
Where every key is grounded, a fact about each item can be proved from that fact
about what it waits for.

## Main definitions

* `Grounded`: the keys that can be settled at all
* `settlePass`, `settle`: one pass over the items, and several

## Main results

* `grounded_of_mem_settle`: whatever is settled is grounded
* `mem_settle_length_iff`: as many passes as there are items settle all that is grounded
* `Grounded.induction`: the induction along dependencies
* `forall_grounded_iff`: all items are grounded if none waits for an unknown key or, at last, for
  itself
-/

namespace AgentLabs.Math

variable {α κ : Type*} (key : α → κ) (waitsFor : α → List κ)

/-- The key is that of an item all of whose dependencies are grounded. -/
inductive Grounded (items : List α) : κ → Prop
  | intro {a : α} : a ∈ items → (∀ d ∈ waitsFor a, Grounded items d) → Grounded items (key a)

/-- One item waits for another. -/
def WaitsFor (items : List α) (a b : α) : Prop := b ∈ items ∧ key b ∈ waitsFor a

variable {key waitsFor} {items : List α}

theorem Grounded.exists_item {k : κ} (h : Grounded key waitsFor items k) :
    ∃ a ∈ items, key a = k ∧ ∀ d ∈ waitsFor a, Grounded key waitsFor items d := by
  cases h with
  | intro member each => exact ⟨_, member, rfl, each⟩

/-- What every item has when its dependencies have it, each grounded item has. -/
theorem Grounded.induction {P : α → Prop} (distinct : (items.map key).Nodup)
    (each : ∀ a ∈ items, (∀ b, WaitsFor key waitsFor items a b → P b) → P a) {a : α}
    (member : a ∈ items) (grounded : Grounded key waitsFor items (key a)) : P a := by
  suffices general : ∀ k, Grounded key waitsFor items k → ∀ b ∈ items, key b = k → P b from
    general _ grounded a member rfl
  intro k grounded
  induction grounded with
  | @intro c listed _ ih =>
    intro b member same
    obtain rfl := List.inj_on_of_nodup_map distinct member listed same
    exact each b member fun d waits => ih (key d) waits.2 d waits.1 rfl

/-- What can be followed down only so far does not come back to itself. -/
theorem not_rel_self_of_acc {r : α → α → Prop} {a : α} (accessible : Acc r a) : ¬ r a a := by
  induction accessible with
  | intro a _ ih => exact fun loop => ih a loop loop

/-- **Items are grounded exactly if they wait for known keys and for no cycle.** -/
theorem forall_grounded_iff (distinct : (items.map key).Nodup) :
    (∀ a ∈ items, Grounded key waitsFor items (key a)) ↔
      (∀ a ∈ items, waitsFor a ⊆ items.map key) ∧
        ∀ a, ¬ Relation.TransGen (WaitsFor key waitsFor items) a a := by
  constructor
  · intro grounded
    constructor
    · intro a member d waits
      obtain ⟨b, listed, same, each⟩ := (grounded a member).exists_item
      obtain rfl := List.inj_on_of_nodup_map distinct listed member same
      obtain ⟨c, held, rfl, -⟩ := (each d waits).exists_item
      exact List.mem_map_of_mem held
    · intro a cycle
      obtain ⟨b, -, last⟩ := Relation.TransGen.tail'_iff.mp cycle
      -- What the item waits for can be followed down only so far.
      have accessible : Acc (fun b a => WaitsFor key waitsFor items a b) a := by
        apply Grounded.induction distinct _ last.1 (grounded a last.1)
        exact fun c _ below => ⟨c, below⟩
      exact not_rel_self_of_acc accessible.transGen (Relation.transGen_swap.mp cycle)
  · rintro ⟨known, acyclic⟩
    let below (b a : {a // a ∈ items}) : Prop := WaitsFor key waitsFor items a b
    have finite : Finite {a // a ∈ items} := by
      classical
      exact inferInstance
    have irrefl : Std.Irrefl (Relation.TransGen below) := by
      constructor
      intro a cycle
      apply acyclic a
      have forward : Relation.TransGen (fun a b => below b a) a a := Relation.transGen_swap.mp cycle
      exact forward.lift Subtype.val fun _ _ => id
    have descends : WellFounded (Relation.TransGen below) := Finite.wellFounded_of_trans_of_irrefl _
    suffices general : ∀ a : {a // a ∈ items}, Grounded key waitsFor items (key a) from
      fun a member => general ⟨a, member⟩
    intro a
    induction a using descends.induction with
    | _ a ih =>
      refine .intro a.2 fun d waits => ?_
      obtain ⟨b, listed, rfl⟩ := List.mem_map.mp (known a a.2 waits)
      exact ih ⟨b, listed⟩ (.single ⟨listed, waits⟩)

section

variable [DecidableEq κ] (key waitsFor)

/-- One pass: each item whose dependencies are settled is settled, in order, and counts
for the items after it. -/
def settlePass (items : List α) (settled : List κ) : List κ :=
  items.foldl (fun settled a => if waitsFor a ⊆ settled then settled.insert (key a) else settled)
    settled

/-- As many passes. -/
def settle (items : List α) : ℕ → List κ
  | 0 => []
  | n + 1 => settlePass key waitsFor items (settle items n)

variable {key waitsFor}

theorem settlePass_cons (a : α) (rest : List α) (settled : List κ) :
    settlePass key waitsFor (a :: rest) settled =
    settlePass key waitsFor rest
      (if waitsFor a ⊆ settled then settled.insert (key a) else settled) := rfl

theorem grounded_of_mem_settlePass {todo : List α} {settled : List κ} (listed : todo ⊆ items)
    (before : ∀ k ∈ settled, Grounded key waitsFor items k) :
    ∀ k ∈ settlePass key waitsFor todo settled, Grounded key waitsFor items k := by
  induction todo generalizing settled with
  | nil => exact before
  | cons a rest ih =>
    apply ih (fun b member => listed (.tail _ member))
    intro k member
    simp only at member
    split_ifs at member with ready
    · rcases List.mem_insert_iff.mp member with rfl | old
      · exact .intro (listed (.head _)) fun d waits => before d (ready waits)
      · exact before k old
    · exact before k member

theorem subset_settlePass {todo : List α} {settled : List κ} :
    settled ⊆ settlePass key waitsFor todo settled := by
  induction todo generalizing settled with
  | nil => exact List.Subset.refl settled
  | cons a rest ih =>
    rw [settlePass_cons]
    refine List.Subset.trans ?_ ih
    split_ifs
    · exact List.subset_insert (key a) settled
    · exact List.Subset.refl settled

/-- An item that is ready before a pass is settled by it. -/
theorem mem_settlePass {todo : List α} {settled : List κ} {a : α} (member : a ∈ todo)
    (ready : waitsFor a ⊆ settled) : key a ∈ settlePass key waitsFor todo settled := by
  induction todo generalizing settled with
  | nil => cases member
  | cons b rest ih =>
    rcases List.mem_cons.mp member with rfl | later
    · rw [settlePass_cons, if_pos ready]
      exact subset_settlePass List.mem_insert_self
    · have grows : settled ⊆ settlePass key waitsFor [b] settled := subset_settlePass
      exact ih later (List.Subset.trans ready grows)

theorem nodup_settlePass {todo : List α} {settled : List κ} (nodup : settled.Nodup) :
    (settlePass key waitsFor todo settled).Nodup := by
  induction todo generalizing settled with
  | nil => exact nodup
  | cons a rest ih =>
    rw [settlePass_cons]
    apply ih
    split_ifs
    · exact nodup.insert
    · exact nodup

theorem nodup_settle (n : ℕ) : (settle key waitsFor items n).Nodup := by
  induction n with
  | zero => exact List.nodup_nil
  | succ n ih => exact nodup_settlePass ih

/-- **Whatever is settled is grounded.** -/
theorem grounded_of_mem_settle {n : ℕ} :
    ∀ k ∈ settle key waitsFor items n, Grounded key waitsFor items k := by
  induction n with
  | zero => exact nofun
  | succ n ih => exact grounded_of_mem_settlePass (List.Subset.refl items) ih

theorem settle_subset_keys (n : ℕ) : settle key waitsFor items n ⊆ items.map key := by
  intro k settled
  obtain ⟨a, member, rfl, -⟩ := (grounded_of_mem_settle k settled).exists_item
  exact List.mem_map_of_mem member

/-- A pass that settles nothing more comes after all that is grounded. -/
theorem mem_of_settlePass_subset {settled : List κ}
    (still : settlePass key waitsFor items settled ⊆ settled)
    {k : κ} (grounded : Grounded key waitsFor items k) : k ∈ settled := by
  induction grounded with
  | intro member _ ih => exact still (mem_settlePass member ih)

/-- Each pass settles one more key, until all that is grounded is settled. -/
theorem le_length_settle_or (n : ℕ) : n ≤ (settle key waitsFor items n).length ∨
    ∀ k, Grounded key waitsFor items k → k ∈ settle key waitsFor items n := by
  induction n with
  | zero => exact .inl (Nat.zero_le _)
  | succ n ih =>
    have grows : settle key waitsFor items n ⊆ settle key waitsFor items (n + 1) :=
      subset_settlePass
    rcases ih with long | all
    · by_cases still : settle key waitsFor items (n + 1) ⊆ settle key waitsFor items n
      · exact .inr fun k grounded => grows (mem_of_settlePass_subset still grounded)
      · left
        have larger := List.subperm_of_subset (nodup_settle n) grows
        have longer : (settle key waitsFor items n).length ≠
            (settle key waitsFor items (n + 1)).length :=
          fun same => still (larger.perm_of_length_le same.ge).symm.subset
        have atLeast := larger.length_le
        omega
    · exact .inr fun k grounded => grows (all k grounded)

/-- **As many passes as there are items** settle exactly what is grounded. -/
theorem mem_settle_length_iff {k : κ} :
    k ∈ settle key waitsFor items items.length ↔ Grounded key waitsFor items k := by
  refine ⟨grounded_of_mem_settle k, fun grounded => ?_⟩
  have grows : items.length ≤ (settle key waitsFor items items.length).length ∨ _ :=
    le_length_settle_or items.length
  rcases grows with long | all
  · -- All keys are settled then.
    have inside : (settle key waitsFor items items.length).Subperm (items.map key) :=
      List.subperm_of_subset (nodup_settle items.length) (settle_subset_keys items.length)
    obtain ⟨a, member, rfl, -⟩ := grounded.exists_item
    have same := inside.perm_of_length_le ((List.length_map key).trans_le long)
    exact same.symm.subset (List.mem_map_of_mem member)
  · exact all k grounded

end

end AgentLabs.Math
