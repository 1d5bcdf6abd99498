import AgentLabs.GuardLab.Disclosure

/-!
# Joined spans

The spans that reach the threshold are joined where they overlap or touch. What comes out covers the
positions that went in and no other, and the ends of it do not depend on the order of the input. In
the masked text the joined spans that the audience may not see are written over, and all other
characters are kept.

## Main definitions

* `Span.Covers`: a position is in a span
* `SpanLaw`: what is wanted of joined spans and of the masked text

## Main results

* `covers_mergeSpans_iff`: the positions that are covered
* `bounds_mergeSpans_perm`: the order of the input does not tell
* `mergeSpans_mergeSpans`: joining again changes nothing
* `spanLaw_of_inText`: joined spans are as wanted
-/

namespace AgentLabs.GuardLab

open Math

variable {S : Type}

/-- The position is in the span. -/
def Span.Covers (s : Span S) (i : ℕ) : Prop := s.start ≤ i ∧ i < s.stop

/-- The ends of a span. -/
def Span.bounds (s : Span S) : ℕ × ℕ := (s.start, s.stop)

variable [LinearOrder S]

/-- What is wanted of the joined spans of a text. They lie in the text, in their order and at least
a character apart; they cover exactly what the spans that reach the threshold cover; their ends are
the same for the spans in another order; and joining them again changes nothing. The masked text is
the text in which the joined spans with a label that is not allowed are replaced by their labels. -/
structure SpanLaw (text : String) (spans : List (Span S)) (minScore : S) : Prop where
  inText : InText text (mergeSpans spans minScore)
  apart : (mergeSpans spans minScore).Pairwise fun a b => a.start < b.start ∧ a.stop < b.start
  covered : ∀ i, (∃ s ∈ mergeSpans spans minScore, s.Covers i) ↔
    ∃ s ∈ spans, minScore ≤ s.score ∧ s.Covers i
  unordered : ∀ spans', spans'.Perm spans →
    (mergeSpans spans' minScore).map Span.bounds = (mergeSpans spans minScore).map Span.bounds
  again : mergeSpans (mergeSpans spans minScore) minScore = mergeSpans spans minScore
  masked : ∀ (policy : DisclosurePolicy S) audience result removed, policy.minScore = minScore →
    (maskForAudience text spans audience policy = .ok (result, removed) ↔
      ∃ patches,
        List.Forall₂ (Renders policy)
          ((mergeSpans spans minScore).filter fun s => s.label ∉ policy.allowed audience) patches ∧
        result = String.ofList (splice text.toList patches) ∧
        removed = ((((mergeSpans spans minScore).filter fun s =>
          s.label ∉ policy.allowed audience).map
          Span.label).foldr List.insert []).insertionSort (· ≤ ·))

variable {text : String} {spans spans' : List (Span S)} {minScore : S} {s : Span S}

/-! ### What is covered -/

/-- A joined span is that of a block of kept spans. -/
theorem exists_block_of_mem_mergeSpans (member : s ∈ mergeSpans spans minScore) :
    ∃ b ∈ spanFusion.blocks (keptInOrder spans minScore), spanFusion.fused b = s := by
  rw [mergeSpans_eq] at member
  exact List.mem_map.mp member

/-- **The positions that are covered** are those of the spans that reach the threshold. -/
theorem covers_mergeSpans_iff (inText : InText text spans) {i : ℕ} :
    (∃ s ∈ mergeSpans spans minScore, s.Covers i) ↔ ∃ s ∈ spans, minScore ≤ s.score ∧
      s.Covers i := by
  constructor
  · rintro ⟨s, member, above, below⟩
    obtain ⟨b, hb, rfl⟩ := exists_block_of_mem_mergeSpans member
    obtain ⟨m, inside, bounds⟩ := spanFusion.exists_member_of_mem_block hb above below
    obtain ⟨listed, confident⟩ := mem_keptInOrder.mp (spanFusion.mem_of_mem_block hb inside)
    exact ⟨m, listed, confident, bounds⟩
  · rintro ⟨s, listed, confident, above, below⟩
    obtain ⟨joined, member, before, after, -⟩ :=
      exists_joined inText (mem_keptInOrder.mpr ⟨listed, confident⟩)
    exact ⟨joined, member, before.trans above, below.trans_le after⟩

/-! ### Order -/

/-- The ends alone, and their joining. -/
def boundsFusion : Fusion (ℕ × ℕ) ℕ where
  lo := Prod.fst
  hi := Prod.snd
  fuse a b := (a.1, max a.2 b.2)
  lo_fuse _ _ := rfl
  hi_fuse _ _ := rfl

/-- The ends of joined spans are those that are joined. -/
theorem bounds_mergeSpans (spans : List (Span S)) (minScore : S) :
    (mergeSpans spans minScore).map Span.bounds =
      boundsFusion.merge ((keptInOrder spans minScore).map Span.bounds) := by
  rw [mergeSpans_eq, ← Fusion.merge_eq_map_blocks]
  exact spanFusion.map_merge (G := boundsFusion) (f := Span.bounds) (fun _ => rfl) (fun _ => rfl)
    (fun _ _ => rfl) _

/-- Spans in the order of the scan are in the order of their ends. -/
theorem bounds_keptInOrder_perm (perm : spans'.Perm spans) :
    (keptInOrder spans' minScore).map Span.bounds =
      (keptInOrder spans minScore).map Span.bounds := by
  let le (a b : ℕ × ℕ) : Prop := a.1 < b.1 ∨ a.1 = b.1 ∧ b.2 ≤ a.2
  have total : Std.Total (Span.KeyLe (S := S)) := ⟨fun a b => by unfold Span.KeyLe; omega⟩
  have trans : IsTrans (Span S) Span.KeyLe := ⟨fun a b c => by unfold Span.KeyLe; omega⟩
  have sorted : ∀ spans : List (Span S),
      ((keptInOrder spans minScore).map Span.bounds).Pairwise le := fun spans =>
    List.pairwise_map.mpr (List.pairwise_insertionSort Span.KeyLe _)
  have kept : (keptInOrder spans' minScore).Perm (keptInOrder spans minScore) :=
    (List.perm_insertionSort _ _).trans ((perm.filter _).trans (List.perm_insertionSort _ _).symm)
  apply (kept.map Span.bounds).eq_of_pairwise _ (sorted spans') (sorted spans)
  rintro ⟨a, b⟩ ⟨c, d⟩ - - first second
  simp only [le] at first second
  ext <;> simp only <;> omega

/-- **The order of the spans does not tell.** -/
theorem bounds_mergeSpans_perm (perm : spans'.Perm spans) :
    (mergeSpans spans' minScore).map Span.bounds = (mergeSpans spans minScore).map Span.bounds := by
  rw [bounds_mergeSpans, bounds_mergeSpans, bounds_keptInOrder_perm perm]

/-! ### Joining again -/

/-- A joined span reaches the threshold. -/
theorem le_score_of_mem_mergeSpans (member : s ∈ mergeSpans spans minScore) :
    minScore ≤ s.score := by
  obtain ⟨b, hb, rfl⟩ := exists_block_of_mem_mergeSpans member
  obtain ⟨before, w, after, cut, -, -, score, -⟩ :=
    spanFusion.exists_first_highest keepsHigher_spanFusion b
  rw [score]
  have inside : w ∈ b.members := by simp [cut]
  exact (mem_keptInOrder.mp (spanFusion.mem_of_mem_block hb inside)).2

/-- Each joined span starts after the ones before it, which end before it starts. -/
theorem pairwise_mergeSpans (inText : InText text spans) :
    (mergeSpans spans minScore).Pairwise fun a b => a.start < b.start ∧ a.stop < b.start := by
  refine (pairwise_apart_mergeSpans inText).imp_of_mem fun {a b} ha _ apart => ?_
  exact ⟨(inText_mergeSpans inText a ha).1.trans_lt apart, apart⟩

/-- **Joining again changes nothing.** -/
theorem mergeSpans_mergeSpans (inText : InText text spans) :
    mergeSpans (mergeSpans spans minScore) minScore = mergeSpans spans minScore := by
  have all : ((mergeSpans spans minScore).filter fun s => minScore ≤ s.score) =
      mergeSpans spans minScore :=
    List.filter_eq_self.mpr fun s member => decide_eq_true (le_score_of_mem_mergeSpans member)
  have inOrder : (mergeSpans spans minScore).Pairwise Span.KeyLe :=
    (pairwise_mergeSpans inText).imp fun both => .inl both.1
  have kept : keptInOrder (mergeSpans spans minScore) minScore = mergeSpans spans minScore := by
    rw [keptInOrder, all]
    exact inOrder.insertionSort_eq
  rw [mergeSpans_eq, ← Fusion.merge_eq_map_blocks, kept]
  exact spanFusion.merge_of_apart ((pairwise_mergeSpans inText).imp And.right)

/-- **Joined spans are as wanted**, and so is the masked text. -/
theorem spanLaw_of_inText (text : String) (spans : List (Span S)) (minScore : S)
    (inText : InText text spans) :
    SpanLaw text spans minScore where
  inText := inText_mergeSpans inText
  apart := pairwise_mergeSpans inText
  covered _ := covers_mergeSpans_iff inText
  unordered _ := bounds_mergeSpans_perm
  again := mergeSpans_mergeSpans inText
  masked policy audience result removed same := by
    subst same
    exact maskForAudience_eq_ok_iff inText

theorem spanLaw_of_inText_name :
    SpanLaw "박서준 010-4412-7788" [⟨0, 2, "identity.person_name", 99, "박서"⟩,
      ⟨2, 3, "identity.person_name", 98, "준"⟩, ⟨4, 17, "contact.phone", 97, "010-4412-7788"⟩,
        ⟨4, 4, "contact.phone", 60, ""⟩] (50 : ℕ) :=
  spanLaw_of_inText _ _ _ (by decide)

end AgentLabs.GuardLab
