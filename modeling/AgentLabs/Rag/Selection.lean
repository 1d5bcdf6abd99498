import AgentLabs.Math.Greedy
import AgentLabs.Rag.Evidence

/-!
# The choice within a budget

What a model is shown grows with each quotation, so that a quotation that does not fit in never fits
again. The choice of quotations within a budget is greedy, then: it is within the budget, no other
quotation fits in, and each was at its time the best of those that fitted: the one with the most
facets that were wanted and not yet there, and among these with the highest score for each byte.
Scores are compared as rational numbers, so that rounding makes no ties.

## Main definitions

* `Evidence.place`: the place and the quote of a quotation
* `lastAt`: the last candidate with a place
* `SelectionLaw`: what is wanted of a choice

## Main results

* `contextSize_append`: the size of what a model is shown
* `selectionLaw_of_chosen`: what is chosen is as wanted
* `selection_law`: every choice is as wanted
-/

namespace AgentLabs.Rag

open Math Text

/-- The place of a quotation, and the quote. Quotations that have both in common are one. -/
def Evidence.place (e : Evidence) : String × ℕ × ℕ × String :=
  (e.uri, e.startLine, e.endLine, e.quote)

/-- The last of the candidates with a place, which stands for all of them. -/
def lastAt (candidates : List Evidence) (place : String × ℕ × ℕ × String) : Option Evidence :=
  (candidates.filter fun e => e.place = place).getLast?

/-- What is wanted of a choice: it is of the last candidates of their places, has no place twice,
and is within the budget; of a candidate whose place is not taken, the last with its place does not
fit in; and each that was taken was the best of those that fitted with what was taken before it. -/
structure SelectionLaw (candidates : List Evidence) (maxBytes : ℤ) (required : List String)
    (selected : List Evidence) : Prop where
  last : ∀ s ∈ selected, lastAt candidates s.place = some s
  distinct : (selected.map Evidence.place).Nodup
  fits : contextSize selected ≤ maxBytes
  maximal : ∀ e ∈ candidates, (∃ s ∈ selected, s.place = e.place) ∨
    ∃ last, lastAt candidates e.place = some last ∧ maxBytes < contextSize (selected ++ [last])
  best : ∀ before e after, selected = before ++ e :: after →
    ∀ d, lastAt candidates d.place = some d → d ∉ before → contextSize (before ++ [d]) ≤ maxBytes →
      utility required (before.flatMap Evidence.facets) before d ≤
        utility required (before.flatMap Evidence.facets) before e

/-! ### Sizes -/

/-- The size of the card of a quotation, with a comma. -/
def Evidence.cost (e : Evidence) : ℕ := e.card.dumpCompact.utf8ByteSize + 1

theorem contextSize_nil : contextSize [] = 2 := by decide

variable {candidates chosen more selected remaining : List Evidence} {maxBytes : ℤ}
  {required : List String} {e : Evidence}

theorem contextSize_of_ne_nil (some : chosen ≠ []) :
    contextSize chosen = (chosen.map Evidence.cost).sum + 1 := by
  rw [contextSize, renderContext, Json.bytes_dumpCompact_arr (by simpa using some), List.map_map]
  rfl

/-- **What a model is shown** grows with what it is shown. -/
theorem contextSize_append (chosen more : List Evidence) (e : Evidence) :
    contextSize (chosen ++ [e]) ≤ contextSize (chosen ++ more ++ [e]) := by
  rw [contextSize_of_ne_nil (List.concat_ne_nil _ _),
    contextSize_of_ne_nil (List.concat_ne_nil _ _)]
  simp only [List.map_append, List.sum_append]
  omega

/-! ### The loop -/

/-- A quotation fits in with those that were chosen. -/
def fitsIn (maxBytes : ℤ) (chosen : List Evidence) (e : Evidence) : Bool :=
  decide ((contextSize (chosen ++ [e]) : ℤ) ≤ maxBytes)

/-- The loop makes a greedy choice, and what is covered are the facets of what was chosen. -/
theorem selectLoop_eq_greedy (n : ℕ) :
    selectLoop maxBytes required n remaining selected (selected.flatMap Evidence.facets) =
      greedy (fun chosen => utility required (chosen.flatMap Evidence.facets) chosen)
        (fitsIn maxBytes) n remaining selected := by
  induction n generalizing remaining selected with
  | zero => rfl
  | succ n ih =>
    rw [selectLoop, greedy]
    cases remaining.argmax (utility required (selected.flatMap Evidence.facets) selected) with
    | none => rfl
    | some best =>
      have covered : selected.flatMap Evidence.facets ++ best.facets =
          (selected ++ [best]).flatMap Evidence.facets := by simp
      simp only [fitsIn, decide_eq_true_eq, ← ih, covered]
      by_cases large : maxBytes < contextSize (selected ++ [best])
      · rw [if_pos large, if_neg (not_le.mpr large)]
      · rw [if_neg large, if_pos (not_lt.mp large)]

/-! ### Places -/

theorem nodup_place_distinctCandidates (candidates : List Evidence) :
    ((distinctCandidates candidates).map Evidence.place).Nodup := by
  have keys := Dict.KeysNodup.setAll (d := []) List.nodup_nil
    (candidates.map fun e => (e.place, e))
  have own : (distinctCandidates candidates).map Evidence.place =
      Dict.keys (Dict.setAll [] (candidates.map fun e => (e.place, e))) := by
    rw [distinctCandidates, List.map_map, Dict.keys]
    refine List.map_congr_left fun entry listed => ?_
    obtain ⟨e, -, same⟩ := List.mem_map.mp (Dict.mem_of_mem_setAll_nil listed)
    rw [← show _ = entry from same]
    rfl
  rw [own]
  exact keys

theorem mem_of_lastAt {place : String × ℕ × ℕ × String} (last : lastAt candidates place = some e) :
    e ∈ candidates ∧ e.place = place := by
  obtain ⟨listed, same⟩ := List.mem_filter.mp (List.mem_of_getLast? last)
  exact ⟨listed, of_decide_eq_true same⟩

theorem SelectionLaw.subset (law : SelectionLaw candidates maxBytes required selected) :
    selected ⊆ candidates := fun s taken => (mem_of_lastAt (law.last s taken)).1

/-- What is read under a place is the last candidate there. -/
theorem get?_setAll_place (candidates : List Evidence) (place : String × ℕ × ℕ × String) :
    Dict.get? (Dict.setAll [] (candidates.map fun e => (e.place, e))) place =
      lastAt candidates place := by
  have own : (candidates.map fun e => (e.place, e)).filter (fun entry => entry.1 = place) =
      (candidates.filter fun e => e.place = place).map fun e => (e.place, e) := by
    rw [List.filter_map]
    rfl
  rw [Dict.get?_setAll, Dict.get?_nil, Option.or_none, own, List.getLast?_map, Option.map_map]
  exact Option.map_id'

/-- **Of the candidates with a place, the last is left.** -/
theorem mem_distinctCandidates_iff :
    e ∈ distinctCandidates candidates ↔ lastAt candidates e.place = some e := by
  have nodup : Dict.KeysNodup (Dict.setAll [] (candidates.map fun e => (e.place, e))) :=
    Dict.KeysNodup.setAll (d := []) List.nodup_nil _
  rw [← get?_setAll_place, Dict.get?_eq_some_iff nodup]
  constructor
  · intro left
    obtain ⟨⟨place, d⟩, held, rfl⟩ := List.mem_map.mp left
    obtain ⟨d, -, own⟩ := List.mem_map.mp (Dict.mem_of_mem_setAll_nil held)
    obtain ⟨rfl, rfl⟩ := Prod.mk.inj own
    exact held
  · exact fun held => List.mem_map.mpr ⟨_, held, rfl⟩

theorem exists_lastAt (listed : e ∈ candidates) :
    ∃ last, lastAt candidates e.place = some last := by
  cases found : lastAt candidates e.place with
  | some last => exact ⟨last, rfl⟩
  | none =>
    have none := List.getLast?_eq_none_iff.mp found
    exact absurd (List.mem_filter.mpr ⟨listed, decide_eq_true rfl⟩)
      (none ▸ List.not_mem_nil)

/-! ### Every choice -/

theorem selectionLaw_of_chosen (chosen : selectEvidence candidates maxBytes required =
    some selected) : SelectionLaw candidates maxBytes required selected := by
  unfold selectEvidence at chosen
  rw [contextSize_nil] at chosen
  split_ifs at chosen with small
  obtain rfl := Option.some.inj chosen
  have antitone (chosen more : List Evidence) (e : Evidence)
      (room : fitsIn maxBytes (chosen ++ more) e) : fitsIn maxBytes chosen e := by
    rw [fitsIn, decide_eq_true_eq] at room ⊢
    have grows := contextSize_append chosen more e
    omega
  have law := isGreedy_greedy
    (fun chosen => utility required (chosen.flatMap Evidence.facets) chosen) antitone
    (distinctCandidates candidates)
  -- The loop of the source is the greedy loop; more quotations only take more room.
  rw [← selectLoop_eq_greedy] at law
  set chosen := selectLoop maxBytes required (distinctCandidates candidates).length
    (distinctCandidates candidates) [] ([].flatMap Evidence.facets)
  change SelectionLaw candidates maxBytes required chosen
  constructor
  · exact fun e taken => mem_distinctCandidates_iff.mp (law.subperm.subset taken)
  · obtain ⟨kept, same, part⟩ := law.subperm
    exact (same.map Evidence.place).nodup_iff.mp
      ((part.map Evidence.place).nodup (nodup_place_distinctCandidates candidates))
  · rcases List.eq_nil_or_concat chosen with none | ⟨before, last, whole⟩
    · rw [none, contextSize_nil]
      omega
    · have room := law.fitted before last [] (by rw [whole, List.concat_eq_append])
      rw [fitsIn, decide_eq_true_eq] at room
      rwa [whole, List.concat_eq_append]
  · intro e listed
    obtain ⟨last, found⟩ := exists_lastAt listed
    have same := (mem_of_lastAt found).2
    have left := mem_distinctCandidates_iff.mpr (same.symm ▸ found)
    rcases law.maximal last left with taken | large
    · exact .inl ⟨last, taken, same⟩
    · rw [fitsIn, decide_eq_false_iff_not, not_le] at large
      exact .inr ⟨last, found, large⟩
  · intro before e after split d last fresh room
    exact law.best before e after split d (mem_distinctCandidates_iff.mpr last) fresh
      (decide_eq_true room)

/-- **Every choice is as wanted**, and there is one unless not even an empty list fits in. -/
theorem selection_law (candidates : List Evidence) (maxBytes : ℤ) (required : List String) :
    (maxBytes < 2 ∧ selectEvidence candidates maxBytes required = none) ∨
      ∃ selected, selectEvidence candidates maxBytes required = some selected ∧
        SelectionLaw candidates maxBytes required selected := by
  cases chosen : selectEvidence candidates maxBytes required with
  | none =>
    unfold selectEvidence at chosen
    rw [contextSize_nil] at chosen
    split_ifs at chosen with small
    exact .inl ⟨small, rfl⟩
  | some selected => exact .inr ⟨selected, rfl, selectionLaw_of_chosen chosen⟩

end AgentLabs.Rag
