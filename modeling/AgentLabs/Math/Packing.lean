import Mathlib.Data.Prod.Basic
import Mathlib.Order.Lattice

/-!
# Packing segments

Segments lie end to end. They are packed greedily: the last pack takes the next segment if it
still fits, and the segment opens a pack of its own otherwise. The packs lie end to end as the
segments do. A pack that is too large is one segment, and the segment after a pack would not
have fitted into it.

## Main definitions

* `Tiles`: segments that lie end to end
* `packStep`, `pack`: greedy packing
* `packFrom`: the packs from an open one on

## Main results

* `Tiles.of_pairwise`: neighbours in a sorted list are the ends of segments
* `Tiles.pack`: the packs lie end to end
* `fits_or_mem_of_mem_pack`: a pack that is too large is one segment
* `Tiles.not_fits_next`: packing is greedy
* `Tiles.pack_eq_singleton_iff`: when one pack is enough
-/

namespace AgentLabs.Math

variable {P : Type*}

/-! ### Segments -/

/-- Segments that lie end to end, none of them empty. -/
inductive Tiles [LT P] : P → List (P × P) → P → Prop
  | nil (a : P) : Tiles a [] a
  | cons {a b c : P} {segments : List (P × P)} (step : a < b) (rest : Tiles b segments c) :
      Tiles a ((a, b) :: segments) c

namespace Tiles

variable [Preorder P] {a b c s e : P} {segments : List (P × P)} {segment : P × P}

theorem le (tiles : Tiles a segments c) : a ≤ c := by
  induction tiles with
  | nil a => exact le_refl a
  | cons step _ ih => exact step.le.trans ih

theorem lt_of_ne_nil (tiles : Tiles a segments c) (some : segments ≠ []) : a < c := by
  cases tiles with
  | nil => exact absurd rfl some
  | cons step rest => exact step.trans_le rest.le

/-- A segment lies between the ends. -/
theorem bounds (tiles : Tiles a segments c) (member : segment ∈ segments) :
    a ≤ segment.1 ∧ segment.1 < segment.2 ∧ segment.2 ≤ c := by
  induction tiles with
  | nil => cases member
  | cons step rest ih =>
    rcases List.mem_cons.mp member with rfl | member
    · exact ⟨le_refl _, step, rest.le⟩
    · obtain ⟨start, inside, stop⟩ := ih member
      exact ⟨step.le.trans start, inside, stop⟩

/-- A segment between the ends is the only one. -/
theorem eq_singleton (tiles : Tiles a segments c) (member : (a, c) ∈ segments) :
    segments = [(a, c)] := by
  cases tiles with
  | nil => cases member
  | cons step rest =>
    rcases List.mem_cons.mp member with same | later
    · cases same
      cases rest with
      | nil => rfl
      | cons step rest => exact absurd rest.le step.not_ge
    · exact absurd (rest.bounds later).1 step.not_ge

/-- Neighbours in a sorted list are the ends of segments. -/
theorem of_pairwise {points : List P} (sorted : (a :: points).Pairwise (· < ·)) :
    Tiles a ((a :: points).zip points) ((a :: points).getLast (List.cons_ne_nil a points)) := by
  induction points generalizing a with
  | nil => exact .nil a
  | cons b points ih =>
    rw [List.zip_cons_cons, List.getLast_cons (List.cons_ne_nil b points)]
    exact .cons (List.rel_of_pairwise_cons sorted (.head _)) (ih sorted.of_cons)

/-- No point of the list lies between neighbours. -/
theorem le_or_le_of_mem_zip {points : List P} (sorted : (a :: points).Pairwise (· < ·))
    (member : segment ∈ (a :: points).zip points) {p : P} (point : p ∈ a :: points) :
    p ≤ segment.1 ∨ segment.2 ≤ p := by
  induction points generalizing a with
  | nil => cases member
  | cons b points ih =>
    rw [List.zip_cons_cons] at member
    have inner := sorted.of_cons
    rcases List.mem_cons.mp member with rfl | inside
    · rcases List.mem_cons.mp point with rfl | point
      · exact .inl (le_refl _)
      · rcases List.mem_cons.mp point with rfl | point
        · exact .inr (le_refl _)
        · exact .inr (List.rel_of_pairwise_cons inner point).le
    · rcases List.mem_cons.mp point with rfl | point
      · have later := ((of_pairwise inner).bounds inside).1
        exact .inl ((List.rel_of_pairwise_cons sorted (.head _)).le.trans later)
      · exact ih inner inside point

end Tiles

/-- A point between the ends lies in a segment. -/
theorem Tiles.exists_mem [LinearOrder P] {a c p : P} {segments : List (P × P)}
    (tiles : Tiles a segments c) (first : a ≤ p) (last : p < c) :
    ∃ s ∈ segments, s.1 ≤ p ∧ p < s.2 := by
  induction tiles with
  | nil => exact absurd first last.not_ge
  | @cons a b c segments step rest ih =>
    rcases lt_or_ge p b with inside | later
    · exact ⟨(a, b), .head _, first, inside⟩
    · obtain ⟨s, member, bounds⟩ := ih later last
      exact ⟨s, .tail _ member, bounds⟩

/-! ### Packing -/

/-- The last pack takes a segment that fits, and the segment opens a pack otherwise. -/
def packStep (fits : P → P → Prop) [DecidableRel fits] (packs : List (P × P)) (segment : P × P) :
    List (P × P) :=
  match packs.getLast? with
  | some last =>
    if fits last.1 segment.2 then packs.dropLast ++ [(last.1, segment.2)] else packs ++ [segment]
  | none => packs ++ [segment]

/-- Pack segments in their order. -/
def pack (fits : P → P → Prop) [DecidableRel fits] (segments : List (P × P)) : List (P × P) :=
  segments.foldl (packStep fits) []

/-- The packs from an open one on. -/
def packFrom (fits : P → P → Prop) [DecidableRel fits] (last : P × P) :
    List (P × P) → List (P × P)
  | [] => [last]
  | segment :: segments =>
    if fits last.1 segment.2 then packFrom fits (last.1, segment.2) segments
    else last :: packFrom fits segment segments

section Packing

variable (fits : P → P → Prop) [DecidableRel fits]

theorem foldl_packStep (packs : List (P × P)) (last : P × P) (segments : List (P × P)) :
    segments.foldl (packStep fits) (packs ++ [last]) = packs ++ packFrom fits last segments := by
  induction segments generalizing packs last with
  | nil => rfl
  | cons segment segments ih =>
    rw [List.foldl_cons, packFrom, packStep, List.getLast?_concat, List.dropLast_concat]
    dsimp only
    split_ifs with fit
    · exact ih packs _
    · rw [ih, List.append_assoc]
      rfl

@[simp] theorem pack_nil : pack fits [] = [] := rfl

theorem pack_cons (segment : P × P) (segments : List (P × P)) :
    pack fits (segment :: segments) = packFrom fits segment segments :=
  foldl_packStep fits [] segment segments

/-- A pack starts where a segment does and ends where a segment does. -/
theorem ends_of_mem_packFrom {last : P × P} {segments : List (P × P)} {p : P × P}
    (member : p ∈ packFrom fits last segments) :
    p.1 ∈ (last :: segments).map Prod.fst ∧ p.2 ∈ (last :: segments).map Prod.snd := by
  induction segments generalizing last with
  | nil => simpa [packFrom, Prod.ext_iff] using member
  | cons segment segments ih =>
    rw [packFrom] at member
    split_ifs at member with fit
    · obtain ⟨start, stop⟩ := ih member
      simp only [List.map_cons, List.mem_cons] at start stop ⊢
      exact ⟨start.imp_right .inr, .inr stop⟩
    · rcases List.mem_cons.mp member with rfl | member
      · exact ⟨.head _, .head _⟩
      · exact (ih member).imp (List.mem_cons_of_mem _) (List.mem_cons_of_mem _)

theorem ends_of_mem_pack {segments : List (P × P)} {p : P × P} (member : p ∈ pack fits segments) :
    p.1 ∈ segments.map Prod.fst ∧ p.2 ∈ segments.map Prod.snd := by
  cases segments with
  | nil => cases member
  | cons segment segments =>
    exact ends_of_mem_packFrom fits (pack_cons fits segment segments ▸ member)

/-- **A pack that is too large is one segment.** -/
theorem fits_or_mem_of_mem_packFrom {last : P × P} {segments : List (P × P)} {p : P × P}
    (member : p ∈ packFrom fits last segments) :
    fits p.1 p.2 ∨ p ∈ last :: segments := by
  induction segments generalizing last with
  | nil => exact .inr member
  | cons segment segments ih =>
    rw [packFrom] at member
    split_ifs at member with fit
    · rcases ih member with small | listed
      · exact .inl small
      · rcases List.mem_cons.mp listed with rfl | listed
        · exact .inl fit
        · exact .inr (.tail _ (.tail _ listed))
    · rcases List.mem_cons.mp member with rfl | member
      · exact .inr (.head _)
      · exact (ih member).imp_right (List.mem_cons_of_mem _)

theorem fits_or_mem_of_mem_pack {segments : List (P × P)} {p : P × P}
    (member : p ∈ pack fits segments) : fits p.1 p.2 ∨ p ∈ segments := by
  cases segments with
  | nil => cases member
  | cons segment segments =>
    exact fits_or_mem_of_mem_packFrom fits (pack_cons fits segment segments ▸ member)

namespace Tiles

variable [Preorder P] {a b c : P} {segments : List (P × P)}

theorem packFrom (step : a < b) (rest : Tiles b segments c) :
    Tiles a (packFrom fits (a, b) segments) c := by
  induction segments generalizing a b with
  | nil =>
    cases rest
    exact .cons step (.nil _)
  | cons segment segments ih =>
    cases rest with
    | cons next rest =>
      rw [Math.packFrom]
      split_ifs with fit
      · exact ih (step.trans next) rest
      · exact .cons step (ih next rest)

/-- **The packs lie end to end.** -/
theorem pack (tiles : Tiles a segments c) : Tiles a (pack fits segments) c := by
  cases tiles with
  | nil a => exact .nil a
  | cons step rest =>
    rw [pack_cons]
    exact packFrom fits step rest

/-- A pack ends no earlier than the open one does. -/
theorem le_end_of_mem_packFrom (rest : Tiles b segments c) {p : P × P}
    (member : p ∈ Math.packFrom fits (a, b) segments) : b ≤ p.2 := by
  rcases List.mem_map.mp (ends_of_mem_packFrom fits member).2 with ⟨segment, listed, stop⟩
  rcases List.mem_cons.mp listed with rfl | listed
  · exact stop.le
  · obtain ⟨start, inside, -⟩ := rest.bounds listed
    exact stop ▸ start.trans inside.le

theorem not_fits_of_mem_packFrom (rest : Tiles b segments c) {p : P × P} {e : P}
    (member : p ∈ Math.packFrom fits (a, b) segments) (next : (p.2, e) ∈ segments) :
    ¬ fits p.1 e := by
  induction segments generalizing a b with
  | nil => cases next
  | cons segment segments ih =>
    cases rest with
    | @cons _ d _ _ step rest =>
      rw [Math.packFrom] at member
      -- The segment after a pack is the one at hand only for the pack that ends before it.
      have later : ∀ {p : P × P} {x : P}, p ∈ Math.packFrom fits (x, d) segments → p.2 ≠ b := by
        intro p x member same
        exact (step.trans_le (le_end_of_mem_packFrom fits rest member)).ne same.symm
      split_ifs at member with fit
      · rcases List.mem_cons.mp next with same | next
        · exact absurd (congrArg Prod.fst same) (later member)
        · exact ih rest member next
      · rcases List.mem_cons.mp member with rfl | member
        · rcases List.mem_cons.mp next with same | next
          · obtain rfl := (Prod.mk.inj same).2
            exact fit
          · exact absurd (rest.bounds next).1 step.not_ge
        · rcases List.mem_cons.mp next with same | next
          · exact absurd (congrArg Prod.fst same) (later member)
          · exact ih rest member next

/-- **Packing is greedy**: the segment after a pack would not have fitted into it. -/
theorem not_fits_next (tiles : Tiles a segments c) {p : P × P} {e : P}
    (member : p ∈ Math.pack fits segments) (next : (p.2, e) ∈ segments) : ¬ fits p.1 e := by
  cases tiles with
  | nil => cases next
  | @cons _ b _ segments step rest =>
    rw [pack_cons] at member
    have other : (p.2, e) ≠ (a, b) := fun same =>
      ((step.trans_le (le_end_of_mem_packFrom fits rest member)).ne (congrArg Prod.fst same).symm)
    exact not_fits_of_mem_packFrom fits rest member ((List.mem_cons.mp next).resolve_left other)

/-- **One pack is enough** if there is one segment, or if everything fits. -/
theorem pack_eq_singleton_iff (smaller : ∀ {a b c : P}, b ≤ c → fits a c → fits a b)
    (tiles : Tiles a segments c) :
    Math.pack fits segments = [(a, c)] ↔ segments = [(a, c)] ∨ segments ≠ [] ∧ fits a c := by
  constructor
  · intro one
    have member : (a, c) ∈ Math.pack fits segments := by simp [one]
    have some : segments ≠ [] := by
      rintro rfl
      cases one
    exact (fits_or_mem_of_mem_pack fits member).symm.imp tiles.eq_singleton fun fit => ⟨some, fit⟩
  · rintro (rfl | ⟨some, fit⟩)
    · rfl
    · cases tiles with
      | nil => exact absurd rfl some
      | @cons _ b _ segments step rest =>
        rw [pack_cons]
        clear some step
        induction rest with
        | nil => rfl
        | cons step rest ih =>
          rw [Math.packFrom, if_pos (smaller rest.le fit)]
          exact ih fit

end Tiles

end Packing

end AgentLabs.Math
