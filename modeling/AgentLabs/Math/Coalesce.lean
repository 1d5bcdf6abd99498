import Mathlib.Data.List.Chain
import Mathlib.Order.Basic

/-!
# Joining neighbours

A list is gone through from the left, and what touches the last item that was kept is joined to it.
What is left has no two neighbours that touch, whatever the order of the list is: an item was kept
on its own because it was apart from the one before it, and it stays so while others are joined
to it.

## Main definitions

* `coalesce`: the items that are left

## Main results

* `coalesce_invariant`: what joining keeps is true of what is left
* `exists_covers`: each item is part of one that is left
* `isChain_coalesce`: neighbours that are left are apart
-/

namespace AgentLabs.Math

variable {α : Type*}

/-- One more item, which is joined to the last one if the two touch. The last one is in front. -/
def coalesceStep (touches : α → α → Bool) (join : α → α → α) (kept : List α) (next : α) : List α :=
  match kept with
  | [] => [next]
  | last :: rest => if touches last next then join last next :: rest else next :: last :: rest

/-- The items that are left. -/
def coalesce (touches : α → α → Bool) (join : α → α → α) (items : List α) : List α :=
  (items.foldl (coalesceStep touches join) []).reverse

variable {touches : α → α → Bool} {join : α → α → α} {items kept : List α}

theorem coalesceStep_ne_nil (next : α) : coalesceStep touches join kept next ≠ [] := by
  cases kept with
  | nil => exact List.cons_ne_nil _ _
  | cons last rest =>
    rw [coalesceStep]
    split_ifs <;> exact List.cons_ne_nil _ _

/-- Of some items, some are left. -/
theorem coalesce_ne_nil (some : items ≠ []) : coalesce touches join items ≠ [] := by
  obtain ⟨before, last, rfl⟩ := (List.eq_nil_or_concat items).resolve_left some
  rw [coalesce, List.concat_eq_append, List.foldl_append, List.foldl_cons, List.foldl_nil]
  simpa using coalesceStep_ne_nil last

/-! ### Lists in an order -/

section Ordered

variable {R : α → α → Prop} (keeps : ∀ a b c, R a c → R b c → R (join a b) c)

include keeps

/-- What is kept comes before what is left of the list. -/
theorem ordered_coalesceStep {next : α} (first : ∀ a ∈ kept, ∀ b ∈ next :: items, R a b)
    (later : ∀ b ∈ items, R next b) :
    ∀ a ∈ coalesceStep touches join kept next, ∀ b ∈ items, R a b := by
  have old (a : α) (listed : a ∈ kept) (b : α) (after : b ∈ items) : R a b :=
    first a listed b (.tail _ after)
  cases kept with
  | nil => exact List.forall_mem_singleton.mpr later
  | cons last rest =>
    obtain ⟨lasts, others⟩ := List.forall_mem_cons.mp old
    rw [coalesceStep]
    split_ifs
    · exact List.forall_mem_cons.mpr
        ⟨fun b after => keeps _ _ _ (lasts b after) (later b after), others⟩
    · exact List.forall_mem_cons.mpr ⟨later, old⟩

/-! ### What is true of each item -/

/-- What joining keeps is true of what is left, where joining is of items in the order of the
list. -/
theorem coalesce_invariant {P : α → Prop} (ordered : items.Pairwise R)
    (joined : ∀ a b, R a b → P a → P b → touches a b → P (join a b)) (holds : ∀ a ∈ items, P a) :
    ∀ a ∈ coalesce touches join items, P a := by
  -- Items to come are behind those that are kept, so that each join is in the order of the list.
  have fold (kept : List α) (before : ∀ a ∈ kept, P a) (first : ∀ a ∈ kept, ∀ b ∈ items, R a b) :
      ∀ a ∈ items.foldl (coalesceStep touches join) kept, P a := by
    induction items generalizing kept with
    | nil => exact before
    | cons next items ih =>
      obtain ⟨new, later⟩ := List.forall_mem_cons.mp holds
      obtain ⟨next_le, ordered⟩ := List.pairwise_cons.mp ordered
      refine ih ordered later _ ?_ (ordered_coalesceStep keeps first next_le)
      cases kept with
      | nil => exact List.forall_mem_singleton.mpr new
      | cons last rest =>
        obtain ⟨good, others⟩ := List.forall_mem_cons.mp before
        rw [coalesceStep]
        split_ifs with together
        · have both := joined last next (first last (.head _) next (.head _)) good new together
          exact List.forall_mem_cons.mpr ⟨both, others⟩
        · exact List.forall_mem_cons.mpr ⟨new, before⟩
  intro a left
  exact fold [] (fun _ none => by cases none) (fun _ none => by cases none) a
    (List.mem_reverse.mp left)

/-! ### What becomes of each item -/

/-- Each item is part of one that is left. -/
theorem exists_covers {Covers : α → α → Prop} (ordered : items.Pairwise R)
    (refl : ∀ a, Covers a a) (trans : ∀ a b c, Covers a b → Covers b c → Covers a c)
    (left : ∀ a b, Covers (join a b) a) (right : ∀ a b, R a b → Covers (join a b) b) {a : α}
    (listed : a ∈ items) : ∃ m ∈ coalesce touches join items, Covers m a := by
  have fold (kept : List α) (old : a ∈ items ∨ ∃ m ∈ kept, Covers m a)
      (first : ∀ a ∈ kept, ∀ b ∈ items, R a b) :
      ∃ m ∈ items.foldl (coalesceStep touches join) kept, Covers m a := by
    clear listed
    induction items generalizing kept with
    | nil => exact old.resolve_left List.not_mem_nil
    | cons next items ih =>
      obtain ⟨next_le, ordered⟩ := List.pairwise_cons.mp ordered
      refine ih ordered _ ?_ (ordered_coalesceStep keeps first next_le)
      -- The item is still to come, or it is now part of something that is kept.
      have now (here : a = next ∨ ∃ m ∈ kept, Covers m a) :
          ∃ m ∈ coalesceStep touches join kept next, Covers m a := by
        cases kept with
        | nil =>
          rcases here with rfl | ⟨m, none, -⟩
          · exact ⟨a, .head _, refl a⟩
          · cases none
        | cons last rest =>
          rw [coalesceStep]
          split_ifs
          · rcases here with rfl | ⟨m, listed, covers⟩
            · exact ⟨_, .head _, right last a (first last (.head _) a (.head _))⟩
            · rcases List.mem_cons.mp listed with rfl | later
              · exact ⟨_, .head _, trans _ _ _ (left m next) covers⟩
              · exact ⟨m, .tail _ later, covers⟩
          · rcases here with rfl | ⟨m, listed, covers⟩
            · exact ⟨a, .head _, refl a⟩
            · exact ⟨m, .tail _ listed, covers⟩
      rcases old with listed | earlier
      · rcases List.mem_cons.mp listed with same | later
        · exact .inr (now (.inl same))
        · exact .inl later
      · exact .inr (now (.inr earlier))
  obtain ⟨m, left, covers⟩ := fold [] (.inl listed) (fun _ none => by cases none)
  exact ⟨m, List.mem_reverse.mpr left, covers⟩

end Ordered

/-! ### Neighbours -/

section Apart

variable {Apart : α → α → Prop} (apart : ∀ a b, touches a b = false → Apart a b)
  (stays : ∀ a b c, Apart a b → Apart a (join b c))

include apart stays

/-- What is kept is apart, from its end to its front. -/
theorem isChain_coalesceStep (chain : kept.IsChain fun b a => Apart a b) (next : α) :
    (coalesceStep touches join kept next).IsChain fun b a => Apart a b := by
  cases kept with
  | nil => exact .singleton _
  | cons last rest =>
    rw [coalesceStep]
    split_ifs with together
    · cases rest with
      | nil => exact .singleton _
      | cons before rest =>
        obtain ⟨first, others⟩ := List.isChain_cons_cons.mp chain
        exact List.isChain_cons_cons.mpr ⟨stays before last next first, others⟩
    · exact List.isChain_cons_cons.mpr ⟨apart last next (eq_false_of_ne_true together), chain⟩

/-- **Neighbours that are left are apart.** -/
theorem isChain_coalesce : (coalesce touches join items).IsChain Apart := by
  have fold (kept : List α) (chain : kept.IsChain fun b a => Apart a b) :
      (items.foldl (coalesceStep touches join) kept).IsChain fun b a => Apart a b := by
    induction items generalizing kept with
    | nil => exact chain
    | cons next items ih => exact ih _ (isChain_coalesceStep apart stays chain next)
  exact List.isChain_reverse.mpr (fold [] .nil)

end Apart

end AgentLabs.Math
