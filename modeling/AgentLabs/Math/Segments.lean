import Mathlib.Data.List.Induction
import Mathlib.Data.List.Pairwise
import Mathlib.Logic.Relation
import Mathlib.Order.MinMax

/-!
# Merging and replacing segments

A left-to-right scan joins each segment to the last one written when the two
overlap or touch. Read as a computation on the input, the scan cuts a sorted list
into blocks: two segments end up in one block exactly when a chain of touching
segments leads from one to the other, and the segments written are pairwise
apart. What a joined segment carries besides its ends is the business of the
fusion; for a fusion that keeps the tag of the higher rank, it is the tag of the
first member of highest rank.

The second half is the other use of separated segments: replacing them in a list
from right to left leaves the offsets of those still to come in place.

## Main definitions

* `Fusion`, `Fusion.merge`: segments of some kind, and the scan that joins them
* `Fusion.blocks`: the blocks the scan cuts its input into
* `Fusion.Linked`: connected by touching members of a list
* `splice`: a list with some of its segments replaced

## Main results

* `Fusion.merge_eq_map_blocks`: the scan writes one segment for each block
* `Fusion.mem_block_iff_linked`: blocks are the connected components
* `Fusion.pairwise_apart_blocks`: the segments written are apart
* `Fusion.exists_member_of_mem_block`: a block has no gap
* `Fusion.map_merge`, `Fusion.merge_of_apart`: scans of like segments, and of segments that are
  apart
* `Fusion.exists_prevails_tag`: what a block's segment is tagged with
* `foldr_patch_eq_splice`: replacing from right to left
-/

namespace AgentLabs.Math

/-- Segments with two ends, and the joining of a segment with one that starts
no earlier. -/
structure Fusion (α P : Type*) [LinearOrder P] where
  lo : α → P
  hi : α → P
  fuse : α → α → α
  lo_fuse : ∀ a b, lo (fuse a b) = lo a
  hi_fuse : ∀ a b, hi (fuse a b) = max (hi a) (hi b)

namespace Fusion

variable {α P : Type*} [LinearOrder P] (F : Fusion α P) {l : List α} {a b s x y : α}

attribute [simp] lo_fuse hi_fuse

/-- One step of the scan: join the segment to the last one written, if it starts
inside or right after it. -/
def push (out : List α) (s : α) : List α :=
  match out.getLast? with
  | some last => if F.lo s ≤ F.hi last then out.dropLast ++ [F.fuse last s] else out ++ [s]
  | none => [s]

/-- The scan. -/
def merge (l : List α) : List α := l.foldl F.push []

/-- A nonempty run of segments joined into one. -/
structure Block (α : Type*) where
  first : α
  rest : List α

/-- The segments of a block. -/
def Block.members (b : Block α) : List α := b.first :: b.rest

/-- The segment a block is joined into. -/
def fused (b : Block α) : α := b.rest.foldl F.fuse b.first

/-- The blocks of a scan that has an open block. -/
def blocksFrom (b : Block α) : List α → List (Block α)
  | [] => [b]
  | s :: l =>
    if F.lo s ≤ F.hi (F.fused b) then blocksFrom ⟨b.first, b.rest ++ [s]⟩ l
    else b :: blocksFrom ⟨s, []⟩ l

/-- The blocks a scan cuts its input into. -/
def blocks : List α → List (Block α)
  | [] => []
  | s :: l => F.blocksFrom ⟨s, []⟩ l

@[simp] theorem fused_singleton : F.fused ⟨s, []⟩ = s := rfl

@[simp] theorem fused_concat (b : Block α) :
    F.fused ⟨b.first, b.rest ++ [s]⟩ = F.fuse (F.fused b) s := by
  simp [fused]

@[simp] theorem members_concat (b : Block α) :
    (⟨b.first, b.rest ++ [s]⟩ : Block α).members = b.members ++ [s] := by
  simp [Block.members]

theorem foldl_push (out : List α) (b : Block α) (l : List α) :
    l.foldl F.push (out ++ [F.fused b]) = out ++ (F.blocksFrom b l).map F.fused := by
  induction l generalizing out b with
  | nil => rfl
  | cons s l ih =>
    by_cases touching : F.lo s ≤ F.hi (F.fused b)
    · simpa [push, blocksFrom, touching] using ih out ⟨b.first, b.rest ++ [s]⟩
    · simpa [push, blocksFrom, touching] using ih (out ++ [F.fused b]) ⟨s, []⟩

/-- The scan writes one segment for each block. -/
theorem merge_eq_map_blocks : F.merge l = (F.blocks l).map F.fused := by
  cases l with
  | nil => rfl
  | cons s l => exact F.foldl_push [] ⟨s, []⟩ l

theorem flatMap_members_blocksFrom (b : Block α) (l : List α) :
    (F.blocksFrom b l).flatMap Block.members = b.members ++ l := by
  induction l generalizing b with
  | nil => simp [blocksFrom]
  | cons s l ih =>
    by_cases touching : F.lo s ≤ F.hi (F.fused b)
    · simp [blocksFrom, touching, ih]
    · simp [blocksFrom, touching, ih, Block.members]

/-- The blocks, one after the other, are the input. -/
theorem flatMap_members_blocks : (F.blocks l).flatMap Block.members = l := by
  cases l with
  | nil => rfl
  | cons s l => exact F.flatMap_members_blocksFrom ⟨s, []⟩ l

theorem exists_block_of_mem (h : x ∈ l) : ∃ b ∈ F.blocks l, x ∈ b.members := by
  rw [← F.flatMap_members_blocks (l := l)] at h
  exact List.mem_flatMap.mp h

theorem mem_of_mem_block {b : Block α} (hb : b ∈ F.blocks l) (hx : x ∈ b.members) : x ∈ l := by
  rw [← F.flatMap_members_blocks (l := l)]
  exact List.mem_flatMap.mpr ⟨b, hb, hx⟩

/-! ### The ends of a block -/

@[simp] theorem lo_fused (b : Block α) : F.lo (F.fused b) = F.lo b.first := by
  rcases b with ⟨first, rest⟩
  induction rest using List.reverseRecOn with
  | nil => rfl
  | append_singleton rest s ih => simpa [fused] using ih

/-- A block reaches as far as one of its members. -/
theorem le_hi_fused_iff (b : Block α) {p : P} :
    p ≤ F.hi (F.fused b) ↔ ∃ m ∈ b.members, p ≤ F.hi m := by
  rcases b with ⟨first, rest⟩
  induction rest using List.reverseRecOn with
  | nil => simp [Block.members]
  | append_singleton rest s ih =>
    rw [show F.fused ⟨first, rest ++ [s]⟩ = F.fuse (F.fused ⟨first, rest⟩) s from
      F.fused_concat ⟨first, rest⟩, hi_fuse, le_max_iff, ih]
    simp only [Block.members, List.mem_cons, List.mem_append]
    grind

theorem hi_le_hi_fused {b : Block α} {m : α} (hm : m ∈ b.members) : F.hi m ≤ F.hi (F.fused b) :=
  (F.le_hi_fused_iff b).mpr ⟨m, hm, le_rfl⟩

theorem hi_fused_lt {b : Block α} {p : P} (h : ∀ m ∈ b.members, F.hi m < p) :
    F.hi (F.fused b) < p := by
  by_contra reached
  obtain ⟨m, hm, far⟩ := (F.le_hi_fused_iff b).mp (not_lt.mp reached)
  exact absurd (h m hm) (not_lt.mpr far)

/-! ### Blocks of a sorted list -/

/-- Two segments overlap or touch. -/
def Touch (a b : α) : Prop := F.lo a ≤ F.hi b ∧ F.lo b ≤ F.hi a

theorem Touch.symm (h : F.Touch a b) : F.Touch b a := ⟨h.2, h.1⟩

/-- Connected by a chain of touching segments of a list. -/
def Linked (l : List α) : α → α → Prop :=
  Relation.ReflTransGen fun x y => x ∈ l ∧ y ∈ l ∧ F.Touch x y

theorem Linked.symm (h : F.Linked l x y) : F.Linked l y x := by
  induction h with
  | refl => exact .refl
  | tail _ step ih => exact ih.head ⟨step.2.1, step.1, step.2.2.symm⟩

/-- Segments in the order of their lower ends, each with its ends in order. -/
structure Scannable (l : List α) : Prop where
  sorted : l.Pairwise fun a b => F.lo a ≤ F.lo b
  proper : ∀ a ∈ l, F.lo a ≤ F.hi a

/-- What is true of the open block of a scan: its members are linked. -/
theorem linked_of_mem_blocksFrom (whole : List α) (b : Block α) (l : List α)
    (scannable : F.Scannable (b.members ++ l)) (sub : ∀ a ∈ b.members ++ l, a ∈ whole)
    (linked : ∀ m ∈ b.members, F.Linked whole b.first m) :
    ∀ c ∈ F.blocksFrom b l, ∀ m ∈ c.members, F.Linked whole c.first m := by
  induction l generalizing b with
  | nil =>
    intro c hc
    obtain rfl := List.mem_singleton.mp hc
    exact linked
  | cons s l ih =>
    by_cases touching : F.lo s ≤ F.hi (F.fused b)
    · simp only [blocksFrom, touching, if_true]
      refine ih ⟨b.first, b.rest ++ [s]⟩ (by simpa using scannable) (by simpa using sub) ?_
      intro m hm
      rw [members_concat, List.mem_append, List.mem_singleton] at hm
      rcases hm with old | rfl
      · exact linked m old
      · -- The new segment starts before the block ends, so it touches a member.
        obtain ⟨top, member, reach⟩ := (F.le_hi_fused_iff b).mp touching
        have ordered : F.lo top ≤ F.lo m :=
          (List.pairwise_append.mp scannable.sorted).2.2 top member m (.head _)
        exact (linked top member).tail ⟨sub top (by simp [member]), sub m (by simp),
          ordered.trans (scannable.proper m (by simp)), reach⟩
    · simp only [blocksFrom, touching, if_false, List.mem_cons, forall_eq_or_imp]
      refine ⟨linked, ih ⟨s, []⟩ ?_ ?_ ?_⟩
      · exact ⟨(List.pairwise_append.mp scannable.sorted).2.1, fun a ha =>
          scannable.proper a (List.mem_append_right _ ha)⟩
      · exact fun a ha => sub a (List.mem_append_right _ ha)
      · simp [Block.members, Linked, Relation.ReflTransGen.refl]

/-- What is true of the open block of a scan: later blocks start after it ends. -/
theorem pairwise_apart_blocksFrom (b : Block α) (l : List α)
    (sorted : (b.members ++ l).Pairwise fun a b => F.lo a ≤ F.lo b) :
    (F.blocksFrom b l).Pairwise fun c d => F.hi (F.fused c) < F.lo (F.fused d) := by
  induction l generalizing b with
  | nil => simp [blocksFrom]
  | cons s l ih =>
    by_cases touching : F.lo s ≤ F.hi (F.fused b)
    · simp only [blocksFrom, touching, if_true]
      exact ih _ (by simpa using sorted)
    · simp only [blocksFrom, touching, if_false, List.pairwise_cons]
      have later := (List.pairwise_append.mp sorted).2.1
      refine ⟨fun d hd => (not_le.mp touching).trans_le ?_, ih ⟨s, []⟩ later⟩
      have member : d.first ∈ s :: l := by
        rw [show s :: l = (F.blocksFrom ⟨s, []⟩ l).flatMap Block.members by
          simp [flatMap_members_blocksFrom, Block.members]]
        exact List.mem_flatMap.mpr ⟨d, hd, .head _⟩
      rw [lo_fused]
      rcases List.mem_cons.mp member with same | rest
      · exact (congrArg F.lo same).ge
      · exact (List.pairwise_cons.mp later).1 _ rest

/-- The blocks of a sorted list are apart: each ends before the next one starts. -/
theorem pairwise_apart_blocks (scannable : F.Scannable l) :
    (F.blocks l).Pairwise fun c d => F.hi (F.fused c) < F.lo (F.fused d) := by
  cases l with
  | nil => exact .nil
  | cons s l => exact F.pairwise_apart_blocksFrom ⟨s, []⟩ l scannable.sorted

/-- What is true of the open block of a scan: between its ends, every point is in one of its
members. -/
theorem exists_member_of_mem_blocksFrom {p : P} (b : Block α) (l : List α)
    (full : F.lo (F.fused b) ≤ p → p < F.hi (F.fused b) → ∃ m ∈ b.members, F.lo m ≤ p ∧
      p < F.hi m) :
    ∀ c ∈ F.blocksFrom b l, F.lo (F.fused c) ≤ p → p < F.hi (F.fused c) →
      ∃ m ∈ c.members, F.lo m ≤ p ∧ p < F.hi m := by
  induction l generalizing b with
  | nil =>
    intro c hc
    obtain rfl := List.mem_singleton.mp hc
    exact full
  | cons s l ih =>
    by_cases touching : F.lo s ≤ F.hi (F.fused b)
    · simp only [blocksFrom, touching, if_true]
      apply ih
      rw [fused_concat, F.lo_fuse, F.hi_fuse, members_concat, lt_max_iff]
      intro above below
      -- A point past the block so far is in the segment that was just joined.
      by_cases inside : p < F.hi (F.fused b)
      · obtain ⟨m, member, bounds⟩ := full above inside
        exact ⟨m, List.mem_append_left _ member, bounds⟩
      · have reach := below.resolve_left inside
        exact ⟨s, by simp, touching.trans (not_lt.mp inside), reach⟩
    · simp only [blocksFrom, touching, if_false, List.mem_cons, forall_eq_or_imp]
      refine ⟨full, ih ⟨s, []⟩ fun above below => ?_⟩
      exact ⟨s, by simp [Block.members], above, below⟩

/-- **A block has no gap.** -/
theorem exists_member_of_mem_block {b : Block α} (hb : b ∈ F.blocks l) {p : P}
    (above : F.lo (F.fused b) ≤ p)
    (below : p < F.hi (F.fused b)) : ∃ m ∈ b.members, F.lo m ≤ p ∧ p < F.hi m := by
  cases l with
  | nil => cases hb
  | cons s l =>
    refine F.exists_member_of_mem_blocksFrom ⟨s, []⟩ l (fun above below => ?_) b hb above below
    exact ⟨s, by simp [Block.members], above, below⟩

/-- Segments with the same ends are joined alike. -/
theorem map_merge {β : Type*} {G : Fusion β P} {f : α → β} (lo : ∀ a, G.lo (f a) = F.lo a)
    (hi : ∀ a, G.hi (f a) = F.hi a) (fuse : ∀ a b, f (F.fuse a b) = G.fuse (f a) (f b))
    (l : List α) :
    (F.merge l).map f = G.merge (l.map f) := by
  have step : ∀ out s, G.push (out.map f) (f s) = (F.push out s).map f := by
    intro out s
    rw [push, push, List.getLast?_map]
    cases out.getLast? with
    | none => rfl
    | some last =>
      simp only [Option.map_some, lo, hi]
      split_ifs
      · rw [List.map_append, List.map_dropLast, List.map_singleton, fuse]
      · rw [List.map_append, List.map_singleton]
  rw [merge, merge, List.foldl_map]
  exact (List.foldl_hom (List.map f) fun out s => step out s).symm

/-- Segments that are apart are not joined. -/
theorem merge_of_apart (apart : l.Pairwise fun a b => F.hi a < F.lo b) : F.merge l = l := by
  induction l using List.reverseRecOn with
  | nil => rfl
  | append_singleton l s ih =>
    obtain ⟨earlier, -, before⟩ := List.pairwise_append.mp apart
    have last : F.merge (l ++ [s]) = F.push (F.merge l) s := List.foldl_append
    rw [last, ih earlier, push]
    cases h : l.getLast? with
    | none => rw [List.getLast?_eq_none_iff.mp h, List.nil_append]
    | some a => exact if_neg (not_le.mpr (before a (List.mem_of_getLast? h) s (.head _)))

theorem linked_of_mem_block (scannable : F.Scannable l) {b : Block α} (hb : b ∈ F.blocks l)
    (hx : x ∈ b.members) (hy : y ∈ b.members) : F.Linked l x y := by
  have fromFirst : ∀ m ∈ b.members, F.Linked l b.first m := by
    cases l with
    | nil => simp [blocks] at hb
    | cons s l =>
      refine F.linked_of_mem_blocksFrom (s :: l) ⟨s, []⟩ l scannable (fun _ => id) ?_ b hb
      simp [Block.members, Linked, Relation.ReflTransGen.refl]
  exact ((fromFirst x hx).symm).trans (fromFirst y hy)

/-- No member of a block starts before its first one. -/
theorem lo_fused_le (scannable : F.Scannable l) {b : Block α} (hb : b ∈ F.blocks l)
    (hx : x ∈ b.members) : F.lo (F.fused b) ≤ F.lo x := by
  have within : b.members.Sublist l := by
    conv_rhs => rw [← F.flatMap_members_blocks (l := l)]
    exact List.sublist_flatten_of_mem (List.mem_map.mpr ⟨b, hb, rfl⟩)
  have sorted := scannable.sorted.sublist within
  rw [lo_fused]
  rcases List.mem_cons.mp hx with rfl | later
  · exact le_rfl
  · exact (List.pairwise_cons.mp sorted).1 x later

/-- Of two different blocks, one ends before the other one starts. -/
theorem apart_of_ne (scannable : F.Scannable l) {b c : Block α} (hb : b ∈ F.blocks l)
    (hc : c ∈ F.blocks l) (different : b ≠ c) :
    F.hi (F.fused b) < F.lo (F.fused c) ∨ F.hi (F.fused c) < F.lo (F.fused b) := by
  have : Std.Symm fun c d : Block α =>
      F.hi (F.fused c) < F.lo (F.fused d) ∨ F.hi (F.fused d) < F.lo (F.fused c) :=
    ⟨fun _ _ => Or.symm⟩
  have eitherWay := (F.pairwise_apart_blocks scannable).imp (S := fun c d =>
      F.hi (F.fused c) < F.lo (F.fused d) ∨ F.hi (F.fused d) < F.lo (F.fused c)) Or.inl
  exact eitherWay.forall hb hc different

/-- Segments that touch are in one block. -/
theorem block_eq_of_touch (scannable : F.Scannable l) {b c : Block α} (hb : b ∈ F.blocks l)
    (hc : c ∈ F.blocks l) (hx : x ∈ b.members) (hy : y ∈ c.members) (touch : F.Touch x y) :
    b = c := by
  by_contra different
  rcases F.apart_of_ne scannable hb hc different with gap | gap
  · exact absurd touch.2 (not_le.mpr
      ((F.hi_le_hi_fused hx).trans_lt (gap.trans_le (F.lo_fused_le scannable hc hy))))
  · exact absurd touch.1 (not_le.mpr
      ((F.hi_le_hi_fused hy).trans_lt (gap.trans_le (F.lo_fused_le scannable hb hx))))

/-- The blocks of a sorted list are the connected components of touching. -/
theorem mem_block_iff_linked (scannable : F.Scannable l) {b : Block α} (hb : b ∈ F.blocks l)
    (hx : x ∈ b.members) : y ∈ b.members ↔ F.Linked l x y := by
  refine ⟨F.linked_of_mem_block scannable hb hx, fun linked => ?_⟩
  induction linked with
  | refl => exact hx
  | tail _ step ih =>
    obtain ⟨c, hc, member⟩ := F.exists_block_of_mem step.2.1
    rwa [F.block_eq_of_touch scannable hb hc ih member step.2.2]

/-! ### What a joined segment is tagged with -/

/-- The first segment of highest rank among those linked to `x`. -/
structure Prevails {S : Type*} [LinearOrder S] (rank : α → S) (l : List α) (x w : α) : Prop where
  linked : F.Linked l x w
  first : ∃ before after, l = before ++ w :: after ∧
    (∀ u ∈ before, F.Linked l x u → rank u < rank w) ∧
    ∀ u ∈ after, F.Linked l x u → rank u ≤ rank w

section Tag

variable {S L : Type*} [LinearOrder S] {rank : α → S} {tag : α → L} {w w' : α}

/-- There is no second prevailing segment. -/
theorem Prevails.unique (h : F.Prevails rank l x w) (h' : F.Prevails rank l x w') : w = w' := by
  obtain ⟨before, after, split, higher, notLower⟩ := h.first
  obtain ⟨before', after', split', higher', notLower'⟩ := h'.first
  rcases List.append_eq_append_iff.mp (split.symm.trans split') with
    ⟨between, eq, eq'⟩ | ⟨between, eq, eq'⟩
  · cases between with
    | nil => exact (List.cons.inj eq').1
    | cons head tail =>
      obtain ⟨rfl, rest⟩ := List.cons.inj eq'
      have below := higher' w (by simp [eq]) h.linked
      have above := notLower w' (by simp [rest]) h'.linked
      exact absurd above (not_le.mpr below)
  · cases between with
    | nil => exact (List.cons.inj eq').1.symm
    | cons head tail =>
      obtain ⟨rfl, rest⟩ := List.cons.inj eq'
      have below := higher w' (by simp [eq]) h'.linked
      have above := notLower' w (by simp [rest]) h.linked
      exact absurd above (not_le.mpr below)

/-- A fusion that keeps the tag of the higher rank, and of the earlier segment in
a tie. -/
structure KeepsHigher (rank : α → S) (tag : α → L) : Prop where
  rank_fuse : ∀ a b, rank (F.fuse a b) = max (rank a) (rank b)
  tag_fuse : ∀ a b, tag (F.fuse a b) = if rank b ≤ rank a then tag a else tag b

/-- A block is joined into a segment with the tag of its first member of highest
rank. -/
theorem exists_first_highest (keeps : F.KeepsHigher rank tag) (b : Block α) :
    ∃ before w after, b.members = before ++ w :: after ∧ (∀ u ∈ before, rank u < rank w) ∧
      (∀ u ∈ after, rank u ≤ rank w) ∧ rank (F.fused b) = rank w ∧ tag (F.fused b) = tag w := by
  rcases b with ⟨first, rest⟩
  induction rest using List.reverseRecOn with
  | nil => exact ⟨[], first, [], rfl, by simp, by simp, rfl, rfl⟩
  | append_singleton rest s ih =>
    obtain ⟨before, w, after, split, higher, notLower, sameRank, sameTag⟩ := ih
    have joined : F.fused ⟨first, rest ++ [s]⟩ = F.fuse (F.fused ⟨first, rest⟩) s :=
      F.fused_concat ⟨first, rest⟩
    have members : (⟨first, rest ++ [s]⟩ : Block α).members = before ++ w :: after ++ [s] := by
      rw [← split]
      exact members_concat ⟨first, rest⟩
    rw [members, joined, keeps.rank_fuse, keeps.tag_fuse, sameRank, sameTag]
    -- The winner changes only for a strictly higher rank, so the first of the highest stays.
    by_cases stays : rank s ≤ rank w
    · refine ⟨before, w, after ++ [s], by simp, higher, ?_, max_eq_left stays, if_pos stays⟩
      simp only [List.mem_append, List.mem_singleton]
      rintro u (old | rfl)
      exacts [notLower u old, stays]
    · refine ⟨before ++ w :: after, s, [], rfl, ?_, by simp,
        max_eq_right (not_le.mp stays).le, if_neg stays⟩
      simp only [List.mem_append, List.mem_cons]
      rintro u (old | rfl | old)
      exacts [(higher u old).trans (not_le.mp stays), not_le.mp stays,
        (notLower u old).trans_lt (not_le.mp stays)]

/-- **What a joined segment is tagged with.** In the scan of a sorted list, the
segment that a member ends up in carries the tag of the segment that prevails for
it. -/
theorem exists_prevails_tag (keeps : F.KeepsHigher rank tag) (scannable : F.Scannable l)
    {b : Block α} (hb : b ∈ F.blocks l) (hx : x ∈ b.members) :
    ∃ w, F.Prevails rank l x w ∧ tag (F.fused b) = tag w := by
  obtain ⟨before, w, after, split, higher, notLower, -, sameTag⟩ := F.exists_first_highest keeps b
  obtain ⟨pre, post, cut⟩ := List.append_of_mem hb
  have whole : l = (pre.flatMap Block.members ++ before) ++
      w :: (after ++ post.flatMap Block.members) := by
    conv_lhs => rw [← F.flatMap_members_blocks (l := l), cut]
    simp [split]
  have inBlock : w ∈ b.members := by simp [split]
  have apart := F.pairwise_apart_blocks scannable
  rw [cut, List.pairwise_append, List.pairwise_cons] at apart
  -- No member of another block is linked to `x`: it would be a member of this one too.
  have outside : ∀ {c : Block α} {u : α}, c ∈ pre ∨ c ∈ post → u ∈ c.members →
      ¬ F.Linked l x u := by
    intro c u hc hu linked
    have hcl : c ∈ F.blocks l := by
      rw [cut]
      rcases hc with hc | hc <;> simp [hc]
    have inside := (F.mem_block_iff_linked scannable hb hx).mpr linked
    have proper := scannable.proper u (F.mem_of_mem_block hcl hu)
    rcases hc with hc | hc
    · exact absurd ((F.hi_le_hi_fused hu).trans_lt
        ((apart.2.2 c hc b (.head _)).trans_le (F.lo_fused_le scannable hb inside)))
        (not_lt.mpr proper)
    · exact absurd ((F.hi_le_hi_fused inside).trans_lt
        ((apart.2.1.1 c hc).trans_le (F.lo_fused_le scannable hcl hu))) (not_lt.mpr proper)
  refine ⟨w, ⟨F.linked_of_mem_block scannable hb hx inBlock, _, _, whole, ?_, ?_⟩, sameTag⟩
  · intro u hu linked
    rcases List.mem_append.mp hu with other | own
    · obtain ⟨c, hc, member⟩ := List.mem_flatMap.mp other
      exact absurd linked (outside (.inl hc) member)
    · exact higher u own
  · intro u hu linked
    rcases List.mem_append.mp hu with own | other
    · exact notLower u own
    · obtain ⟨c, hc, member⟩ := List.mem_flatMap.mp other
      exact absurd linked (outside (.inr hc) member)

end Tag

end Fusion

/-! ### Replacing segments -/

/-- New content for the items from `start` up to `stop`. -/
structure Patch (α : Type*) where
  start : ℕ
  stop : ℕ
  content : List α

variable {α : Type*}

/-- Replace one segment. -/
def Patch.apply (p : Patch α) (l : List α) : List α :=
  l.take p.start ++ p.content ++ l.drop p.stop

/-- The list from `position` on, with the segments of the patches replaced. -/
def spliceFrom (l : List α) (position : ℕ) : List (Patch α) → List α
  | [] => l.drop position
  | p :: rest =>
    (l.drop position).take (p.start - position) ++ p.content ++ spliceFrom l p.stop rest

/-- The list with the segments of the patches replaced. -/
def splice (l : List α) (patches : List (Patch α)) : List α := spliceFrom l 0 patches

/-- Patches in order, none reaching into the next or over the end of the list. -/
def Separated (l : List α) (position : ℕ) : List (Patch α) → Prop
  | [] => True
  | p :: rest =>
    position ≤ p.start ∧ p.start ≤ p.stop ∧ p.stop ≤ l.length ∧ Separated l p.stop rest

theorem foldr_patch_eq_spliceFrom (l : List α) (position : ℕ) (patches : List (Patch α))
    (separated : Separated l position patches) :
    patches.foldr Patch.apply l = l.take position ++ spliceFrom l position patches := by
  induction patches generalizing position with
  | nil => simp [spliceFrom]
  | cons p rest ih =>
    obtain ⟨after, ordered, inside, later⟩ := separated
    have upTo : l.take position ++ (l.drop position).take (p.start - position) =
        l.take p.start := by
      rw [← List.take_add, Nat.add_sub_cancel' after]
    rw [List.foldr_cons, ih p.stop later, Patch.apply, spliceFrom, ← List.append_assoc,
      ← List.append_assoc, upTo, List.take_append, List.drop_append]
    simp [List.take_take, ordered, inside]

/-- Replacing separated segments from right to left replaces each in place. -/
theorem foldr_patch_eq_splice (l : List α) (patches : List (Patch α))
    (separated : Separated l 0 patches) : patches.foldr Patch.apply l = splice l patches :=
  foldr_patch_eq_spliceFrom l 0 patches separated

end AgentLabs.Math
