import AgentLabs.Rag.Contracts

/-!
# Merging partial results

Workers run side by side, and each of them writes the results that it has come to. The reducer
merges what was written, two maps at a time, in the order in which the branches happen to end and in
the groups in which the graph happens to collect them.

No order and no grouping tells: either all of them raise, or all of them come to the same results.

## Main definitions

* `Agree`, `Conflicting`: maps that hold no two results for a key, and maps some of which do
* `Merging`: an order and a grouping of merges
* `MergeLaw`: what is wanted of the merges of some maps

## Main results

* `mergeResults_eq_some_iff`: what one merge does
* `Merging.outcome`: what all merges come to
* `mergeLaw`: the order and the grouping do not tell
-/

namespace AgentLabs.Rag

open Math

section

variable {κ ρ : Type*} [DecidableEq κ]

/-- The maps hold no two results for a key. -/
def Agree (left right : Dict κ ρ) : Prop :=
  ∀ k v w, left.get? k = some v → right.get? k = some w → v = w

/-- Two of the maps hold different results for a key. -/
def Conflicting (parts : List (Dict κ ρ)) : Prop :=
  ∃ p ∈ parts, ∃ q ∈ parts, ¬ Agree p q

variable {left right : Dict κ ρ} {k : κ} {v : ρ}

theorem agree_cons {rest : Dict κ ρ} (fresh : k ∉ rest.keys) :
    Agree left ((k, v) :: rest) ↔ (∀ u, left.get? k = some u → u = v) ∧
      Agree (left.set k v) rest := by
  constructor
  · intro agree
    refine ⟨fun u found => agree k u v found (by rw [Dict.get?_cons, if_pos rfl]), ?_⟩
    intro k' v' w' found found'
    have other : k ≠ k' := by
      rintro rfl
      exact fresh (Dict.mem_keys_iff.mpr ⟨w', found'⟩)
    rw [Dict.get?_set_of_ne other] at found
    exact agree k' v' w' found (by rwa [Dict.get?_cons, if_neg other])
  · rintro ⟨head, tail⟩ k' v' w' found found'
    rw [Dict.get?_cons] at found'
    split_ifs at found' with same
    · subst same
      cases found'
      exact head v' found
    · exact tail k' v' w' (by rwa [Dict.get?_set_of_ne same]) found'

/-- What is held by the maps together. -/
theorem get?_merged (nodup : right.KeysNodup) (agree : Agree left right) :
    (left.setAll right).get? k = some v ↔ left.get? k = some v ∨ right.get? k = some v := by
  by_cases member : k ∈ right.keys
  · obtain ⟨w, found⟩ := Dict.mem_keys_iff.mp member
    have held : (left.setAll right).get? k = some w :=
      Dict.get?_setAll_of_mem nodup ((Dict.get?_eq_some_iff nodup).mp found)
    rw [held, found, or_iff_right_of_imp]
    intro found'
    rw [agree k v w found' found]
  · rw [Dict.get?_setAll_of_notMem member, Dict.get?_eq_none_iff.mpr member]
    simp

theorem Agree.symm (agree : Agree left right) : Agree right left :=
  fun k v w found found' => (agree k w v found' found).symm

theorem conflicting_append {ps qs : List (Dict κ ρ)} : Conflicting (ps ++ qs) ↔
    Conflicting ps ∨ Conflicting qs ∨ ∃ p ∈ ps, ∃ q ∈ qs, ¬ Agree p q := by
  simp only [Conflicting, List.mem_append]
  constructor
  · rintro ⟨p, hp | hp, q, hq | hq, conflict⟩
    · exact .inl ⟨p, hp, q, hq, conflict⟩
    · exact .inr (.inr ⟨p, hp, q, hq, conflict⟩)
    · exact .inr (.inr ⟨q, hq, p, hp, mt Agree.symm conflict⟩)
    · exact .inr (.inl ⟨p, hp, q, hq, conflict⟩)
  · rintro (⟨p, hp, q, hq, conflict⟩ | ⟨p, hp, q, hq, conflict⟩ | ⟨p, hp, q, hq, conflict⟩)
    · exact ⟨p, .inl hp, q, .inl hq, conflict⟩
    · exact ⟨p, .inr hp, q, .inr hq, conflict⟩
    · exact ⟨p, .inl hp, q, .inr hq, conflict⟩

variable [DecidableEq ρ]

/-- **One merge** raises unless the maps agree, and keeps the results of both. -/
theorem mergeResults_eq_some_iff (nodup : right.KeysNodup) {merged : Dict κ ρ} :
    mergeResults left right = some merged ↔ Agree left right ∧ left.setAll right = merged := by
  induction right generalizing left with
  | nil =>
    have agree : Agree left [] := by
      intro k v w _ none
      cases none
    rw [and_iff_right agree]
    exact Option.some_inj
  | cons entry rest ih =>
    obtain ⟨k, v⟩ := entry
    obtain ⟨fresh, distinct⟩ := List.nodup_cons.mp nodup
    rw [mergeResults_cons, agree_cons fresh, and_assoc]
    cases found : left.get? k with
    | none =>
      rw [and_iff_right (by rintro u ⟨⟩)]
      exact ih distinct
    | some result =>
      dsimp only
      -- A key held before may come again with its own value only.
      by_cases same : result = v
      · rw [if_neg (not_not.mpr same), and_iff_right (by rintro u ⟨⟩; exact same)]
        exact ih distinct
      · rw [if_pos same]
        refine iff_of_false nofun ?_
        rintro ⟨known, -⟩
        exact same (known result rfl)

/-! ### Orders and groupings -/

/-- An order and a grouping of merges: nothing yet, one of the maps, or two that are merged. -/
inductive Merging (κ ρ : Type*) where
  | start
  | part (results : Dict κ ρ) (nodup : results.KeysNodup)
  | merge (left right : Merging κ ρ)

namespace Merging

/-- The maps that are merged. -/
def parts : Merging κ ρ → List (Dict κ ρ)
  | start => []
  | part results _ => [results]
  | merge left right => left.parts ++ right.parts

/-- What the merges come to; `none` stands for the exception. -/
def merged : Merging κ ρ → Option (Dict κ ρ)
  | start => some []
  | part results _ => some results
  | merge left right => do mergeResults (← left.merged) (← right.merged)

/-- The merges of maps one after the other, from nothing. -/
def inOrder : List {results : Dict κ ρ // results.KeysNodup} → Merging κ ρ :=
  List.foldl (fun t results => merge t (part results.1 results.2)) start

variable {t : Merging κ ρ} {m : Dict κ ρ}

/-- A merge of two raises if one of them raises, or if what they come to does not agree. -/
theorem merged_merge_eq_none_iff {l r : Merging κ ρ} : (merge l r).merged = none ↔
    l.merged = none ∨ r.merged = none ∨
      ∃ a b, l.merged = some a ∧ r.merged = some b ∧ mergeResults a b = none := by
  rw [merged]
  cases l.merged with
  | none => simp
  | some a => cases r.merged <;> simp

/-- The results that the merges come to are those of the maps. -/
theorem held_of_merged (ended : t.merged = some m) :
    m.KeysNodup ∧ ∀ k v, m.get? k = some v ↔ ∃ p ∈ t.parts, p.get? k = some v := by
  induction t generalizing m with
  | start =>
    cases ended
    exact ⟨List.nodup_nil, by simp [parts]⟩
  | part results nodup =>
    cases ended
    exact ⟨nodup, by simp [parts]⟩
  | merge l r ihl ihr =>
    simp only [merged, Option.bind_eq_bind, Option.bind_eq_some_iff] at ended
    obtain ⟨a, ha, b, hb, ended⟩ := ended
    obtain ⟨nodup, held⟩ := ihl ha
    obtain ⟨nodup', held'⟩ := ihr hb
    obtain ⟨agree, rfl⟩ := (mergeResults_eq_some_iff nodup').mp ended
    refine ⟨nodup.setAll b, fun k v => ?_⟩
    rw [get?_merged nodup' agree, held, held']
    simp only [parts, List.mem_append, or_and_right, exists_or]

/-- What two groups of maps come to agrees if their maps do. -/
theorem agree_of_merged {l r : Merging κ ρ} {a b : Dict κ ρ} (ha : l.merged = some a)
    (hb : r.merged = some b) :
    Agree a b ↔ ¬ ∃ p ∈ l.parts, ∃ q ∈ r.parts, ¬ Agree p q := by
  have held := (held_of_merged ha).2
  have held' := (held_of_merged hb).2
  push Not
  constructor
  · intro agree p hp q hq k v w found found'
    exact agree k v w ((held k v).mpr ⟨p, hp, found⟩) ((held' k w).mpr ⟨q, hq, found'⟩)
  · intro all k v w found found'
    obtain ⟨p, hp, first⟩ := (held k v).mp found
    obtain ⟨q, hq, second⟩ := (held' k w).mp found'
    exact all p hp q hq k v w first second

/-- **Merges raise exactly if two of the maps are in conflict.** -/
theorem merged_eq_none_iff : t.merged = none ↔ Conflicting t.parts := by
  induction t with
  | start => simp [merged, parts, Conflicting]
  | part results nodup =>
    refine iff_of_false nofun ?_
    rintro ⟨p, hp, q, hq, conflict⟩
    cases List.mem_singleton.mp hp
    cases List.mem_singleton.mp hq
    apply conflict
    intro k v w found found'
    exact Option.some.inj (found.symm.trans found')
  | merge l r ihl ihr =>
    rw [merged_merge_eq_none_iff, parts, conflicting_append, ihl, ihr]
    by_cases left : Conflicting l.parts
    · exact iff_of_true (.inl left) (.inl left)
    by_cases right : Conflicting r.parts
    · exact iff_of_true (.inr (.inl right)) (.inr (.inl right))
    rw [or_iff_right left, or_iff_right right, or_iff_right left, or_iff_right right]
    obtain ⟨a, ha⟩ := Option.ne_none_iff_exists'.mp (mt ihl.mp left)
    obtain ⟨b, hb⟩ := Option.ne_none_iff_exists'.mp (mt ihr.mp right)
    -- Neither side raises, so all hangs on the last merge.
    have conflict : mergeResults a b = none ↔ ¬ Agree a b := by
      rw [Option.eq_none_iff_forall_ne_some]
      simp [mergeResults_eq_some_iff (held_of_merged hb).1]
    rw [← not_iff_not, ← agree_of_merged ha hb, ha, hb]
    simp [conflict]

omit [DecidableEq κ] [DecidableEq ρ] in
theorem parts_inOrder (maps : List {results : Dict κ ρ // results.KeysNodup}) :
    (inOrder maps).parts = maps.map Subtype.val := by
  induction maps using List.reverseRecOn with
  | nil => rfl
  | append_singleton maps results ih =>
    rw [inOrder, List.foldl_append, List.map_append, ← ih]
    rfl

theorem merged_inOrder (maps : List {results : Dict κ ρ // results.KeysNodup}) :
    (inOrder maps).merged = (maps.map Subtype.val).foldlM mergeResults [] := by
  induction maps using List.reverseRecOn with
  | nil => rfl
  | append_singleton maps results ih =>
    have last : inOrder (maps ++ [results]) = merge (inOrder maps) (part results.1 results.2) := by
      rw [inOrder, List.foldl_append]
      rfl
    rw [last, List.map_append, List.foldlM_append, ← ih, merged]
    cases (inOrder maps).merged with
    | none => rfl
    | some m => simp [merged]

end Merging

/-- What is wanted of the merges of some maps. All of them raise if two of the maps hold different
results for a key, and else all come to the same results. The merges of the maps one after the other
are among them, and a merge of a map with itself is the map. -/
structure MergeLaw (maps : List {results : Dict κ ρ // results.KeysNodup}) : Prop where
  raises : ∀ t : Merging κ ρ, t.parts.Perm (maps.map Subtype.val) →
    (t.merged = none ↔ ∃ p ∈ maps, ∃ q ∈ maps, ∃ k v w, p.1.get? k = some v ∧ q.1.get? k = some w ∧
    v ≠ w)
  same : ∀ t t' : Merging κ ρ, t.parts.Perm (maps.map Subtype.val) →
    t'.parts.Perm (maps.map Subtype.val) →
    ∀ m m', t.merged = some m → t'.merged = some m' → ∀ k, m.get? k = m'.get? k
  inOrder : ∀ order : List {results : Dict κ ρ // results.KeysNodup}, order.Perm maps →
    (Merging.inOrder order).parts.Perm (maps.map Subtype.val) ∧
      (Merging.inOrder order).merged = (order.map Subtype.val).foldlM mergeResults []
  itself : ∀ p ∈ maps, mergeResults p.1 p.1 = some p.1

/-- **The order and the grouping of the merges do not tell.** -/
theorem mergeLaw (maps : List {results : Dict κ ρ // results.KeysNodup}) : MergeLaw maps where
  raises t perm := by
    rw [Merging.merged_eq_none_iff]
    -- Two maps are in conflict exactly where they do not agree.
    have conflict : ∀ p q : Dict κ ρ, ¬ Agree p q ↔
        ∃ k v w, p.get? k = some v ∧ q.get? k = some w ∧ v ≠ w := by
      intro p q
      simp only [Agree]
      push Not
      rfl
    simp only [Conflicting, perm.mem_iff, List.mem_map, conflict]
    simp only [exists_exists_and_eq_and]
  same t t' perm perm' m m' ended ended' k := by
    ext v
    have held := (Merging.held_of_merged ended).2 k v
    have held' := (Merging.held_of_merged ended').2 k v
    simp only [perm.mem_iff] at held
    simp only [perm'.mem_iff] at held'
    exact held.trans held'.symm
  inOrder order perm := by
    rw [Merging.parts_inOrder]
    exact ⟨perm.map Subtype.val, Merging.merged_inOrder order⟩
  itself p _ := by
    rw [mergeResults_eq_some_iff p.2]
    have agree : Agree p.1 p.1 :=
      fun k v w found found' => Option.some.inj (found.symm.trans found')
    exact ⟨agree, Dict.setAll_of_subset p.2 (List.Subset.refl p.1)⟩

end

end AgentLabs.Rag
