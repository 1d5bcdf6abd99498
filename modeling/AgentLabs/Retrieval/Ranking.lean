import AgentLabs.Math.Fallible
import AgentLabs.Math.Rankings
import Mathlib.Algebra.Order.BigOperators.Group.List
import Mathlib.Algebra.Order.Field.Rat
import Mathlib.Tactic.Positivity

/-!
# Reciprocal rank fusion

Several retrievers rank the keys of documents. The fused ranking adds up what each retriever gives a
key: its weight over the rank of the key and a constant. Numbers are exact, where the program has
floats.

## Main definitions

* `rrf`: the fused ranking
* `fusedScore`: what the retrievers give a key
* `FusionLaw`: what is wanted of the fused ranking

## Main results

* `getD_scores`: the scores that are gathered
* `rrf_law`: the fused ranking is as wanted
-/

namespace AgentLabs.Retrieval

open Math

/-! ### The fusion -/

/-- `[1.0] * len(rankings)` if there are no weights. -/
def weightsOf (rankings : List (List String)) (weights : Option (List ℚ)) : List ℚ :=
  weights.getD (List.replicate rankings.length 1)

/-- What a retriever gives the keys of its ranking: `enumerate(dict.fromkeys(ranking), 1)`. -/
def shares (constant : ℚ) (source : List String × ℚ) : List (String × ℚ) :=
  (source.1.eraseDups.zipIdx 1).map fun entry => (entry.1, source.2 / (constant + entry.2))

/-- The scores of the keys. -/
def scores (rankings : List (List String)) (weights : List ℚ) (constant : ℚ) : Dict String ℚ :=
  (rankings.zip weights).foldl (fun scores source => scores.accumulate (shares constant source)) []

/-- `rrf`. -/
def rrf (rankings : List (List String)) (weights : Option (List ℚ)) (constant : ℚ) :
    Except String (List String) := do
  let weights := weightsOf rankings weights
  if weights.length ≠ rankings.length ∨ constant ≤ 0 ∨ weights.any (· < 0) then
    throw "검색기별 가중치와 RRF 상수를 확인하세요."
  let scores := scores rankings weights constant
  return byScore (fun key => (scores.get? key).getD 0) scores.keys

example : rrf [["a", "b", "a"], ["b", "c"]] none 60 = .ok ["b", "a", "c"] := by decide +kernel

/-! ### What is wanted -/

/-- What a retriever gives a key, which is nothing if it does not rank it. -/
def share (constant : ℚ) (source : List String × ℚ) (key : String) : ℚ :=
  if key ∈ source.1 then source.2 / (constant + (source.1.eraseDups.idxOf key + 1 : ℕ)) else 0

/-- What the retrievers give a key. -/
def fusedScore (rankings : List (List String)) (weights : List ℚ) (constant : ℚ) (key : String) :
    ℚ :=
  ((rankings.zip weights).map fun source => share constant source key).sum

/-- What is wanted of the fused ranking: it has every ranked key once; it is the same for the
retrievers in another order; a key that is nowhere after another, and somewhere before it, is before
it; and the order is that of the scores and, for one score, that of the keys. -/
structure FusionLaw (rankings : List (List String)) (weights : Option (List ℚ)) (constant : ℚ)
    (fused : List String) : Prop where
  nodup : fused.Nodup
  mem_iff : ∀ key, key ∈ fused ↔ ∃ ranking ∈ rankings, key ∈ ranking
  permuted : ∀ rankings' weights', (weightsOf rankings' weights').length = rankings'.length →
    (rankings'.zip (weightsOf rankings' weights')).Perm
    (rankings.zip (weightsOf rankings weights)) →
      rrf rankings' weights' constant = .ok fused
  dominant : ∀ a b, (∀ ranking ∈ rankings, ranking.idxOf a ≤ ranking.idxOf b) →
    (∃ ranking ∈ rankings, ranking.idxOf a < ranking.idxOf b) → fused.idxOf a < fused.idxOf b
  ordered : fused.Pairwise fun a b =>
    fusedScore rankings (weightsOf rankings weights) constant b <
      fusedScore rankings (weightsOf rankings weights) constant a ∨
      fusedScore rankings (weightsOf rankings weights) constant a =
        fusedScore rankings (weightsOf rankings weights) constant b ∧ a < b

/-! ### The scores -/

section Scores

variable {constant : ℚ} {source : List String × ℚ} {rankings rankings' : List (List String)}
  {weights weights' : List ℚ} {key a b : String}

/-- Numbers under the keys of a list without repetitions. -/
theorem sum_filter_zipIdx (f : ℕ → ℚ) {l : List String} (nodup : l.Nodup) (start : ℕ)
    (key : String) :
    ((((l.zipIdx start).map fun entry => (entry.1, f entry.2)).filter fun entry => entry.1 =
      key).map Prod.snd).sum =
      if key ∈ l then f (l.idxOf key + start) else 0 := by
  induction l generalizing start with
  | nil => rfl
  | cons x rest ih =>
    obtain ⟨fresh, distinct⟩ := List.nodup_cons.mp nodup
    rw [List.zipIdx_cons, List.map_cons]
    by_cases same : x = key
    · subst same
      rw [List.filter_cons_of_pos (by simp), List.map_cons, List.sum_cons, ih distinct,
        if_neg fresh, if_pos (.head _), List.idxOf_cons_self, Nat.zero_add, add_zero]
    · rw [List.filter_cons_of_neg (by simpa using same), ih distinct, List.idxOf_cons_ne _ same]
      have member : key ∈ x :: rest ↔ key ∈ rest := by simp [Ne.symm same]
      have position : rest.idxOf key + (start + 1) = (rest.idxOf key).succ + start := by omega
      simp only [member, position]

theorem sum_shares (constant : ℚ) (source : List String × ℚ) (key : String) :
    (((shares constant source).filter fun entry => entry.1 = key).map Prod.snd).sum =
      share constant source key := by
  rw [shares, sum_filter_zipIdx (fun rank => source.2 / (constant + rank))
    (nodup_eraseDups source.1), share]
  simp only [List.mem_eraseDups]

theorem map_fst_shares (constant : ℚ) (source : List String × ℚ) :
    (shares constant source).map Prod.fst = source.1.eraseDups := by
  rw [shares, List.map_map]
  exact List.zipIdx_map_fst 1 source.1.eraseDups

/-- **The scores that are gathered** are those of the retrievers. -/
theorem getD_scores (rankings : List (List String)) (weights : List ℚ) (constant : ℚ)
    (key : String) :
    ((scores rankings weights constant).get? key).getD 0 =
      fusedScore rankings weights constant key := by
  suffices general : ∀ d : Dict String ℚ,
      (((rankings.zip weights).foldl
      (fun scores source => scores.accumulate (shares constant source)) d).get? key).getD 0 =
        (d.get? key).getD 0 + fusedScore rankings weights constant key from
    (general []).trans (zero_add _)
  unfold fusedScore
  induction rankings.zip weights with
  | nil => exact fun d => (add_zero _).symm
  | cons source rest ih =>
    intro d
    rw [List.foldl_cons, ih, Dict.getD_accumulate, sum_shares, List.map_cons, List.sum_cons,
      add_assoc]

theorem mem_keys_scores :
    key ∈ (scores rankings weights constant).keys ↔
      ∃ source ∈ rankings.zip weights, key ∈ source.1 := by
  suffices general : ∀ d : Dict String ℚ,
      key ∈ ((rankings.zip weights).foldl
      (fun scores source => scores.accumulate (shares constant source)) d).keys ↔
        key ∈ d.keys ∨ ∃ source ∈ rankings.zip weights, key ∈ source.1 from
    (general []).trans (or_iff_right List.not_mem_nil)
  induction rankings.zip weights with
  | nil => simp
  | cons source rest ih =>
    intro d
    rw [List.foldl_cons, ih, Dict.mem_keys_accumulate, map_fst_shares, List.mem_eraseDups,
      List.exists_mem_cons_iff, or_assoc]

theorem keysNodup_scores : (scores rankings weights constant).KeysNodup := by
  suffices general : ∀ d : Dict String ℚ, d.KeysNodup →
      ((rankings.zip weights).foldl
      (fun scores source => scores.accumulate (shares constant source)) d).KeysNodup from
    general [] List.nodup_nil
  induction rankings.zip weights with
  | nil => exact fun d nodup => nodup
  | cons source rest ih => exact fun d nodup => ih _ (nodup.accumulate _)

/-- Each ranking has its weight. -/
theorem exists_zip_iff (lengths : weights.length = rankings.length) {P : List String → Prop} :
    (∃ source ∈ rankings.zip weights, P source.1) ↔ ∃ ranking ∈ rankings, P ranking := by
  conv_rhs => rw [← List.map_fst_zip lengths.ge]
  simp only [List.mem_map, exists_exists_and_eq_and]

/-! ### Dominance -/

/-- A retriever with a weight gives more to a key that it ranks before another. -/
theorem share_lt (positive : 0 < source.2) (constantPos : 0 < constant)
    (before : source.1.idxOf a < source.1.idxOf b) :
    share constant source b < share constant source a := by
  have ranked : a ∈ source.1 := List.idxOf_lt_length_iff.mp (before.trans_le List.idxOf_le_length)
  rw [share, share, if_pos ranked]
  split_ifs with both
  · have earlier := idxOf_eraseDups_lt source.1 before
    apply div_lt_div_of_pos_left positive (by positivity)
    exact add_lt_add_right (Nat.cast_lt.mpr (Nat.succ_lt_succ earlier)) constant
  · positivity

theorem share_le (positive : 0 < source.2) (constantPos : 0 < constant)
    (notAfter : source.1.idxOf a ≤ source.1.idxOf b) :
    share constant source b ≤ share constant source a := by
  rcases notAfter.lt_or_eq with before | same
  · exact (share_lt positive constantPos before).le
  by_cases ranked : a ∈ source.1
  · obtain rfl := (List.idxOf_inj ranked).mp same
    exact le_rfl
  · have absent : b ∉ source.1 := by
      rw [← List.idxOf_lt_length_iff, ← same, List.idxOf_lt_length_iff]
      exact ranked
    rw [share, share, if_neg ranked, if_neg absent]

/-- **A key that is nowhere after another, and somewhere before it,** has the higher score. -/
theorem fusedScore_lt (lengths : weights.length = rankings.length) (positive : ∀ w ∈ weights, 0 < w)
    (constantPos : 0 < constant)
    (notAfter : ∀ ranking ∈ rankings, ranking.idxOf a ≤ ranking.idxOf b)
    (before : ∃ ranking ∈ rankings, ranking.idxOf a < ranking.idxOf b) :
    fusedScore rankings weights constant b < fusedScore rankings weights constant a := by
  obtain ⟨source, listed, first⟩ := (exists_zip_iff lengths).mpr before
  apply List.sum_lt_sum
  · intro source listed
    obtain ⟨ranking, weight⟩ := List.of_mem_zip listed
    exact share_le (positive _ weight) constantPos (notAfter _ ranking)
  · exact ⟨source, listed, share_lt (positive _ (List.of_mem_zip listed).2) constantPos first⟩

/-! ### The fused ranking -/

/-- What is returned for positive weights, one for each ranking. -/
theorem rrf_eq_ok {weights : Option (List ℚ)}
    (lengths : (weightsOf rankings weights).length = rankings.length)
    (positive : ∀ w ∈ weightsOf rankings weights, 0 < w) (constantPos : 0 < constant) :
    rrf rankings weights constant = .ok
      (byScore (fusedScore rankings (weightsOf rankings weights) constant)
        (scores rankings (weightsOf rankings weights) constant).keys) := by
  have accepted : ¬ ((weightsOf rankings weights).length ≠ rankings.length ∨ constant ≤ 0 ∨
      (weightsOf rankings weights).any (· < 0)) := by
    simp only [List.any_eq_true, decide_eq_true_eq, not_or, not_not, not_le, not_exists, not_and,
      not_lt]
    exact ⟨lengths, constantPos, fun w member => (positive w member).le⟩
  have gathered : (fun key =>
    ((scores rankings (weightsOf rankings weights) constant).get? key).getD 0) =
      fusedScore rankings (weightsOf rankings weights) constant := by
    funext key
    exact getD_scores _ _ _ key
  rw [rrf, ite_throw_eq_ok_iff, and_iff_right accepted, ← gathered]
  rfl

/-- Retrievers in another order give the same. -/
theorem byScore_perm (perm : (rankings'.zip weights').Perm (rankings.zip weights)) (constant : ℚ) :
    byScore (fusedScore rankings' weights' constant) (scores rankings' weights' constant).keys =
      byScore (fusedScore rankings weights constant) (scores rankings weights constant).keys := by
  apply byScore_eq
  · funext key
    exact (perm.map fun source => share constant source key).sum_eq
  · apply (List.perm_ext_iff_of_nodup keysNodup_scores keysNodup_scores).mpr
    intro key
    simp only [mem_keys_scores, perm.mem_iff]

theorem exists_mem_zip_of_mem_right {w : ℚ} (lengths : weights.length = rankings.length)
    (member : w ∈ weights) :
    ∃ ranking, (ranking, w) ∈ rankings.zip weights := by
  rw [← List.map_snd_zip lengths.le] at member
  obtain ⟨source, listed, rfl⟩ := List.mem_map.mp member
  exact ⟨source.1, listed⟩

/-- **The fused ranking is as wanted.** -/
theorem rrf_law (rankings : List (List String)) (weights : Option (List ℚ)) (constant : ℚ)
    (lengths : (weightsOf rankings weights).length = rankings.length)
    (positive : ∀ w ∈ weightsOf rankings weights, 0 < w) (constantPos : 0 < constant) :
    ∃ fused, rrf rankings weights constant = .ok fused ∧
      FusionLaw rankings weights constant fused := by
  refine ⟨_, rrf_eq_ok lengths positive constantPos, ?_⟩
  have perm := perm_byScore (fusedScore rankings (weightsOf rankings weights) constant)
    (scores rankings (weightsOf rankings weights) constant).keys
  have distinct := perm.nodup_iff.mpr keysNodup_scores
  -- Union without repetition, any order of the rankings, dominance, and the order of equal scores.
  refine ⟨distinct, fun key => ?_, ?_, ?_, ?_⟩
  · rw [perm.mem_iff, mem_keys_scores]
    exact exists_zip_iff lengths
  · intro rankings' weights' lengths' same
    have positive' : ∀ w ∈ weightsOf rankings' weights', 0 < w := by
      intro w member
      obtain ⟨ranking, listed⟩ := exists_mem_zip_of_mem_right lengths' member
      exact positive w (List.of_mem_zip (same.mem_iff.mp listed)).2
    rw [rrf_eq_ok lengths' positive' constantPos, byScore_perm same]
  · intro a b notAfter before
    apply idxOf_byScore_lt
    · obtain ⟨ranking, listed, first⟩ := before
      have ranked : a ∈ ranking := List.idxOf_lt_length_iff.mp (first.trans_le List.idxOf_le_length)
      exact mem_keys_scores.mpr ((exists_zip_iff lengths).mpr ⟨ranking, listed, ranked⟩)
    · exact fusedScore_lt lengths positive constantPos notAfter before
  · refine ((pairwise_byScore _ _).and distinct).imp ?_
    rintro a b ⟨higher | ⟨same, le⟩, differ⟩
    · exact .inl higher
    · exact .inr ⟨same, lt_of_le_of_ne le differ⟩

theorem rrf_law_two : ∃ fused, rrf [["a", "b", "a"], ["b", "c"]] (some [2, 1]) 60 = .ok fused ∧
    FusionLaw [["a", "b", "a"], ["b", "c"]] (some [2, 1]) 60 fused :=
  rrf_law [["a", "b", "a"], ["b", "c"]] (some [2, 1]) 60 rfl (by simp [weightsOf]) (by norm_num)

end Scores

end AgentLabs.Retrieval
