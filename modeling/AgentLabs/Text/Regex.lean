import Mathlib.Data.List.Basic
import Mathlib.Logic.Function.Iterate

/-!
# Regular expressions that are searched greedily

The expressions here have no alternatives and no anchors: characters of a class, as many as
there are between two bounds, one expression after another, and one a number of times. A
search tries the longest run first and gives characters back one by one, so all the ends of a
match are listed in the order in which they are tried, and a match takes the first. What is
found is found from left to right, each match where the one before has ended.

So a search may pass over what matches as well, but it finds nothing only if nothing matches.

## Main definitions

* `Regex`, `Regex.Matches`: expressions, and the texts they stand for
* `Regex.ends`, `Regex.finditer`: where matches end, and what a search finds
* `Regex.Occurs`: some part of a text matches

## Main results

* `Regex.mem_ends_iff`: the ends are the ends of matches
* `Regex.exists_of_mem_finditer`: what is found matches
* `Regex.finditer_eq_nil_iff`: nothing is found only if nothing matches
-/

namespace AgentLabs.Text

/-- A run of characters of a class, one expression after another, or one repeated. -/
inductive Regex where
  | run (cls : Char → Bool) (lo : ℕ) (hi : Option ℕ)
  | seq (first second : Regex)
  | times (n : ℕ) (r : Regex)

namespace Regex

/-- One character of a class. -/
def one (cls : Char → Bool) : Regex := run cls 1 (some 1)

/-- The character itself. -/
def lit (c : Char) : Regex := one (· == c)

instance : Append Regex := ⟨seq⟩

/-- The texts an expression stands for. -/
def Matches : Regex → List Char → Prop
  | run cls lo hi, m => (∀ c ∈ m, cls c) ∧ lo ≤ m.length ∧ ∀ most ∈ hi, m.length ≤ most
  | seq first second, m => ∃ a b, m = a ++ b ∧ first.Matches a ∧ second.Matches b
  | times n r, m => ∃ parts : List (List Char),
      parts.length = n ∧ m = parts.flatten ∧ ∀ part ∈ parts, r.Matches part

/-- How far a run can go. -/
def reach (cls : Char → Bool) (hi : Option ℕ) (s : List Char) : ℕ :=
  hi.elim (s.takeWhile cls).length (min (s.takeWhile cls).length)

/-- What is left after each match at the start, in the order in which matches are tried. -/
def ends : Regex → List Char → List (List Char)
  | run cls lo hi, s => ((List.range (reach cls hi s + 1)).filter (lo ≤ ·)).reverse.map s.drop
  | seq first second, s => (first.ends s).flatMap second.ends
  | times n r, s => (fun left => left.flatMap r.ends)^[n] [s]

/-- The length of the match at the start. -/
def matchLength? (r : Regex) (s : List Char) : Option ℕ :=
  (r.ends s).head?.map fun rest => s.length - rest.length

/-- What is found from a position on, after some characters of the match before. -/
def finditerFrom (r : Regex) : ℕ → ℕ → List Char → List (ℕ × ℕ)
  | _, _, [] => []
  | pos, skip + 1, _ :: s => r.finditerFrom (pos + 1) skip s
  | pos, 0, c :: s =>
    match r.matchLength? (c :: s) with
    | none => r.finditerFrom (pos + 1) 0 s
    | some n => (pos, pos + n) :: r.finditerFrom (pos + 1) (n - 1) s

/-- `re.finditer`, by where matches start and end, for an expression that no empty text
matches. -/
def finditer (r : Regex) (s : List Char) : List (ℕ × ℕ) := r.finditerFrom 0 0 s

/-- `re.findall`, for an expression that no empty text matches: the texts that match. -/
def findall (r : Regex) (s : List Char) : List (List Char) :=
  (r.finditer s).map fun found => (s.take found.2).drop found.1

/-- The characters that mean something in a pattern. -/
def specialChars : List Char :=
  ['(', ')', '[', ']', '\x7b', '\x7d', '?', '*', '+', '-', '|', '^', '$', '\\', '.', '&', '~', '#',
    ' ', '\t', '\n', '\r', '\x0b', '\x0c']

/-- `re.escape`. -/
def escape (s : List Char) : List Char :=
  s.flatMap fun c => if c ∈ specialChars then ['\\', c] else [c]

/-- Some part of the text matches. -/
def Occurs (r : Regex) (s : List Char) : Prop :=
  ∃ before m after, s = before ++ m ++ after ∧ r.Matches m

variable {r : Regex} {s rest : List Char}

/-! ### Ends -/

theorem le_reach_iff {cls : Char → Bool} {hi : Option ℕ} {n : ℕ} (short : n ≤ s.length) :
    n ≤ reach cls hi s ↔ (∀ c ∈ s.take n, cls c) ∧ ∀ most ∈ hi, n ≤ most := by
  have all : n ≤ (s.takeWhile cls).length ↔ ∀ c ∈ s.take n, cls c := by
    induction s generalizing n with
    | nil => simp_all
    | cons c s ih =>
      cases n with
      | zero => simp
      | succ n =>
        rw [List.length_cons, Nat.succ_le_succ_iff] at short
        rw [List.take_succ_cons, List.forall_mem_cons, ← ih short]
        by_cases inside : cls c
        · simp [inside]
        · simp [inside]
  cases hi with
  | none => simpa [reach] using all
  | some most =>
    simp only [reach, Option.elim_some, Nat.le_min, all, Option.mem_some_iff, forall_eq']

/-- **The ends are the ends of matches.** -/
theorem mem_ends_iff : rest ∈ r.ends s ↔ ∃ m, s = m ++ rest ∧ r.Matches m := by
  induction r generalizing s rest with
  | run cls lo hi =>
    have le_length : reach cls hi s ≤ s.length := by
      have short : (s.takeWhile cls).length ≤ s.length := (List.takeWhile_prefix cls).length_le
      cases hi with
      | none => exact short
      | some most => exact Nat.le_trans (Nat.min_le_left _ _) short
    simp only [ends, List.mem_map, List.mem_reverse, List.mem_filter, List.mem_range,
      decide_eq_true_eq, Nat.lt_succ_iff]
    constructor
    · intro ended
      obtain ⟨n, ⟨far, long⟩, rfl⟩ := ended
      have short := Nat.le_trans far le_length
      obtain ⟨inside, bounded⟩ := (le_reach_iff short).mp far
      refine ⟨s.take n, (List.take_append_drop n s).symm, inside, ?_, ?_⟩
      · rwa [List.length_take_of_le short]
      · rwa [List.length_take_of_le short]
    · intro matched
      obtain ⟨m, rfl, inside, long, bounded⟩ := matched
      refine ⟨m.length, ⟨(le_reach_iff (by simp)).mpr ⟨?_, bounded⟩, long⟩, List.drop_left⟩
      rwa [List.take_left]
  | seq first second ihFirst ihSecond =>
    simp only [ends, List.mem_flatMap, ihFirst, ihSecond]
    constructor
    · intro ended
      obtain ⟨middle, ⟨a, rfl, left⟩, b, rfl, right⟩ := ended
      exact ⟨a ++ b, (List.append_assoc a b rest).symm, a, b, rfl, left, right⟩
    · intro matched
      obtain ⟨-, rfl, a, b, rfl, left, right⟩ := matched
      exact ⟨b ++ rest, ⟨a, List.append_assoc a b rest, left⟩, b, rfl, right⟩
  | times n r ih =>
    -- One round more takes one part more off the front of what is left.
    have rounds (n : ℕ) (left : List (List Char)) :
        rest ∈ (fun left => left.flatMap r.ends)^[n] left ↔
          ∃ s ∈ left, ∃ parts : List (List Char), parts.length = n ∧ s = parts.flatten ++ rest ∧
            ∀ part ∈ parts, r.Matches part := by
      induction n generalizing left with
      | zero =>
        rw [Function.iterate_zero, id]
        constructor
        · intro here
          exact ⟨rest, here, [], rfl, rfl, by simp⟩
        · intro matched
          obtain ⟨s, here, parts, none, rfl, -⟩ := matched
          rwa [List.length_eq_zero_iff.mp none] at here
      | succ n ihRounds =>
        rw [Function.iterate_succ_apply, ihRounds]
        constructor
        · intro ended
          obtain ⟨middle, ended, parts, counted, rfl, all⟩ := ended
          obtain ⟨s, here, ended⟩ := List.mem_flatMap.mp ended
          obtain ⟨m, rfl, matched⟩ := ih.mp ended
          refine ⟨_, here, m :: parts, by rw [List.length_cons, counted], ?_,
            List.forall_mem_cons.mpr ⟨matched, all⟩⟩
          rw [List.flatten_cons, List.append_assoc]
        · intro matched
          obtain ⟨s, here, parts, counted, rfl, all⟩ := matched
          cases parts with
          | nil => cases counted
          | cons m parts =>
            obtain ⟨matched, all⟩ := List.forall_mem_cons.mp all
            refine ⟨parts.flatten ++ rest, List.mem_flatMap.mpr ⟨_, here, ih.mpr ⟨m, ?_, matched⟩⟩,
              parts, Nat.succ.inj counted, rfl, all⟩
            rw [List.flatten_cons, List.append_assoc]
    rw [ends, rounds]
    constructor
    · intro ended
      obtain ⟨-, here, parts, counted, rfl, all⟩ := ended
      exact ⟨_, (List.mem_singleton.mp here).symm, parts, counted, rfl, all⟩
    · intro matched
      obtain ⟨-, rfl, parts, counted, rfl, all⟩ := matched
      exact ⟨_, List.mem_singleton_self _, parts, counted, rfl, all⟩

/-! ### What a search finds -/

theorem matchLength?_eq_some {n : ℕ} (h : r.matchLength? s = some n) :
    ∃ m rest, s = m ++ rest ∧ r.Matches m ∧ n = m.length := by
  obtain ⟨rest, first, rfl⟩ := Option.map_eq_some_iff.mp h
  obtain ⟨m, rfl, matched⟩ := mem_ends_iff.mp (List.mem_of_head? first)
  exact ⟨m, rest, rfl, matched, by simp⟩

theorem matchLength?_eq_none_iff :
    r.matchLength? s = none ↔ ¬ ∃ m rest, s = m ++ rest ∧ r.Matches m := by
  rw [matchLength?, Option.map_eq_none_iff, List.head?_eq_none_iff, List.eq_nil_iff_forall_not_mem]
  simp only [mem_ends_iff]
  push Not
  exact forall_comm

/-- What is found matches, where it is found. -/
theorem exists_of_mem_finditerFrom {pos skip i j : ℕ} (h : (i, j) ∈ r.finditerFrom pos skip s) :
    ∃ before m after, s = before ++ m ++ after ∧ r.Matches m ∧
      i = pos + before.length ∧ j = i + m.length := by
  -- What is found in the rest is found in the whole, one place further.
  have shift {c : Char} {s : List Char} {pos : ℕ} (inRest : ∃ before m after,
      s = before ++ m ++ after ∧ r.Matches m ∧ i = pos + 1 + before.length ∧ j = i + m.length) :
      ∃ before m after, c :: s = before ++ m ++ after ∧ r.Matches m ∧
        i = pos + before.length ∧ j = i + m.length := by
    obtain ⟨before, m, after, rfl, matched, start, stop⟩ := inRest
    refine ⟨c :: before, m, after, rfl, matched, ?_, stop⟩
    rw [start, List.length_cons]
    omega
  induction s generalizing pos skip with
  | nil =>
    rw [finditerFrom] at h
    exact absurd h List.not_mem_nil
  | cons c s ih =>
    cases skip with
    | succ skip =>
      rw [finditerFrom] at h
      exact shift (ih h)
    | zero =>
      rw [finditerFrom] at h
      cases found : r.matchLength? (c :: s) with
      | none =>
        rw [found] at h
        exact shift (ih h)
      | some n =>
        rw [found] at h
        rcases List.mem_cons.mp h with here | later
        · obtain ⟨rfl, rfl⟩ := Prod.mk.inj here
          obtain ⟨m, rest, whole, matched, rfl⟩ := matchLength?_eq_some found
          exact ⟨[], m, rest, whole, matched, rfl, rfl⟩
        · exact shift (ih later)

theorem exists_of_mem_finditer {i j : ℕ} (h : (i, j) ∈ r.finditer s) :
    ∃ before m after, s = before ++ m ++ after ∧ r.Matches m ∧
      i = before.length ∧ j = i + m.length := by
  simpa using exists_of_mem_finditerFrom h

/-- Where a match starts, something is found: the search has either come to that place or has
passed over it with a match that started before. -/
theorem exists_covering_of_matches (proper : ¬ r.Matches []) {pos skip : ℕ}
    {before m after : List Char} (matched : r.Matches m) (far : skip ≤ before.length) :
    ∃ i j, (i, j) ∈ r.finditerFrom pos skip (before ++ m ++ after) ∧
      i ≤ pos + before.length ∧ pos + before.length < j := by
  have further {i j pos k : ℕ} {c : Char} {before : List Char}
      (inRest : i ≤ pos + 1 + before.length ∧ pos + 1 + before.length < j) (same : k = pos) :
      i ≤ k + (c :: before).length ∧ k + (c :: before).length < j := by
    rw [List.length_cons]
    omega
  -- By induction on what is in front of the match; the search skips what a match has taken.
  induction before generalizing pos skip with
  | nil =>
    obtain rfl : skip = 0 := Nat.le_zero.mp far
    obtain ⟨c, rest, whole⟩ := List.exists_cons_of_ne_nil (show m ≠ [] from fun empty =>
      proper (empty ▸ matched))
    have found : r.matchLength? (m ++ after) ≠ none := fun none =>
      matchLength?_eq_none_iff.mp none ⟨m, after, rfl, matched⟩
    obtain ⟨n, found⟩ := Option.ne_none_iff_exists'.mp found
    obtain ⟨m', rest', -, matched', rfl⟩ := matchLength?_eq_some found
    have long : 0 < m'.length := List.length_pos_iff.mpr fun empty => proper (empty ▸ matched')
    refine ⟨pos, pos + m'.length, ?_, Nat.le_refl _, Nat.lt_add_of_pos_right long⟩
    rw [List.nil_append, whole, List.cons_append, finditerFrom]
    rw [whole, List.cons_append] at found
    rw [found]
    exact List.mem_cons_self
  | cons c before ih =>
    rw [List.cons_append, List.cons_append]
    cases skip with
    | succ skip =>
      obtain ⟨i, j, found, place⟩ := @ih (pos + 1) skip (Nat.le_of_succ_le_succ far)
      exact ⟨i, j, by rwa [finditerFrom], further place rfl⟩
    | zero =>
      rw [finditerFrom]
      cases here : r.matchLength? (c :: (before ++ m ++ after)) with
      | none =>
        obtain ⟨i, j, found, place⟩ := @ih (pos + 1) 0 (Nat.zero_le _)
        exact ⟨i, j, found, further place rfl⟩
      | some n =>
        rcases Nat.lt_or_ge (before.length + 1) n with inside | past
        · refine ⟨pos, pos + n, List.mem_cons_self, Nat.le_add_right _ _, ?_⟩
          rw [List.length_cons]
          omega
        · obtain ⟨i, j, found, place⟩ := @ih (pos + 1) (n - 1) (by omega)
          exact ⟨i, j, List.mem_cons_of_mem _ found, further place rfl⟩

/-- Where a match starts, something is found. -/
theorem exists_finditer_of_matches (proper : ¬ r.Matches []) {before m after : List Char}
    (matched : r.Matches m) : ∃ i j, (i, j) ∈ r.finditer (before ++ m ++ after) ∧
      i ≤ before.length ∧ before.length < j := by
  obtain ⟨i, j, found, start, stop⟩ :=
    @exists_covering_of_matches r proper 0 0 before m after matched (Nat.zero_le _)
  rw [Nat.zero_add] at start stop
  exact ⟨i, j, found, start, stop⟩

theorem finditerFrom_eq_nil_iff (proper : ¬ r.Matches []) {pos : ℕ} :
    r.finditerFrom pos 0 s = [] ↔ ¬ r.Occurs s := by
  induction s generalizing pos with
  | nil =>
    rw [finditerFrom]
    refine iff_of_true rfl fun occurs => ?_
    obtain ⟨before, m, after, empty, matched⟩ := occurs
    have none : m = [] := by
      have parts := List.append_eq_nil_iff.mp empty.symm
      exact (List.append_eq_nil_iff.mp parts.1).2
    exact proper (none ▸ matched)
  | cons c s ih =>
    rw [finditerFrom]
    cases found : r.matchLength? (c :: s) with
    | none =>
      -- Nothing starts at this character, so an occurrence lies behind it.
      refine ih.trans (not_congr ⟨fun occurs => ?_, fun occurs => ?_⟩)
      · obtain ⟨before, m, after, rfl, matched⟩ := occurs
        exact ⟨c :: before, m, after, rfl, matched⟩
      · obtain ⟨before, m, after, whole, matched⟩ := occurs
        cases before with
        | nil => exact absurd ⟨m, after, whole, matched⟩ (matchLength?_eq_none_iff.mp found)
        | cons _ before => exact ⟨before, m, after, (List.cons.inj whole).2, matched⟩
    | some n =>
      refine iff_of_false (List.cons_ne_nil _ _) (not_not.mpr ?_)
      obtain ⟨m, rest, whole, matched, -⟩ := matchLength?_eq_some found
      exact ⟨[], m, rest, whole, matched⟩

/-- **Nothing is found only if nothing matches.** -/
theorem finditer_eq_nil_iff (proper : ¬ r.Matches []) : r.finditer s = [] ↔ ¬ r.Occurs s :=
  finditerFrom_eq_nil_iff proper

/-! ### Parts of a text -/

/-- What occurs in a part occurs in the whole. -/
theorem Occurs.of_infix (occurs : r.Occurs s) {whole : List Char} (h : s <:+: whole) :
    r.Occurs whole := by
  obtain ⟨before, m, after, rfl, matched⟩ := occurs
  obtain ⟨front, back, rfl⟩ := h
  exact ⟨front ++ before, m, after ++ back, by simp only [List.append_assoc], matched⟩

/-- A character that no class of the expression has. -/
def Avoids (c : Char) : Regex → Prop
  | run cls _ _ => cls c = false
  | seq first second => Avoids c first ∧ Avoids c second
  | times _ r => Avoids c r

theorem avoids_run {c : Char} {cls : Char → Bool} {lo : ℕ} {hi : Option ℕ} :
    (run cls lo hi).Avoids c ↔ cls c = false := Iff.rfl

theorem avoids_append {c : Char} {first second : Regex} :
    (first ++ second).Avoids c ↔ first.Avoids c ∧ second.Avoids c := Iff.rfl

theorem avoids_times {c : Char} {n : ℕ} : (times n r).Avoids c ↔ r.Avoids c := Iff.rfl

theorem Avoids.notMem {c : Char} {m : List Char} (avoids : r.Avoids c) (matched : r.Matches m) :
    c ∉ m := by
  induction r generalizing m with
  | run cls lo hi =>
    intro member
    have inside := matched.1 c member
    rw [show cls c = false from avoids] at inside
    cases inside
  | seq first second ihFirst ihSecond =>
    obtain ⟨a, b, rfl, left, right⟩ := matched
    rw [List.mem_append, not_or]
    exact ⟨ihFirst avoids.1 left, ihSecond avoids.2 right⟩
  | times n r ih =>
    obtain ⟨parts, -, rfl, all⟩ := matched
    intro member
    obtain ⟨part, listed, inside⟩ := List.mem_flatten.mp member
    exact ih avoids (all part listed) inside

/-- What occurs around a character that no class has occurs on one side of it. -/
theorem occurs_append_cons {c : Char} {x y : List Char} (avoids : r.Avoids c)
    (occurs : r.Occurs (x ++ c :: y)) : r.Occurs x ∨ r.Occurs y := by
  obtain ⟨before, m, after, whole, matched⟩ := occurs
  have notIn : ∀ front back, m = front ++ c :: back → False := fun front back equal =>
    avoids.notMem matched (by rw [equal]; exact List.mem_append_right _ List.mem_cons_self)
  rcases List.append_eq_append_iff.mp whole with ⟨more, outer, inner⟩ | ⟨more, outer, -⟩
  · rcases List.append_eq_append_iff.mp outer with ⟨rest, left, inside⟩ | ⟨rest, -, inside⟩
    · -- The match starts in front of the character, so it ends there as well.
      cases more with
      | nil => exact .inl ⟨before, m, [], by rw [left, inside]; simp, matched⟩
      | cons d more => exact absurd ((List.cons.inj inner).1 ▸ inside) (notIn rest more)
    · rw [inside] at inner
      cases rest with
      | nil =>
        cases hm : m with
        | nil => exact .inl ⟨x, [], [], by simp, hm ▸ matched⟩
        | cons d rest =>
          rw [hm] at inner
          exact absurd (hm.trans (by rw [← (List.cons.inj inner).1]; rfl)) (notIn [] rest)
      | cons d rest =>
        rw [List.cons_append, List.cons_append] at inner
        exact .inr ⟨rest, m, after, (List.cons.inj inner).2, matched⟩
  · exact .inl ⟨before, m, more, outer, matched⟩

/-- Every match has a character of some kind. -/
def Needs (p : Char → Prop) (r : Regex) : Prop := ∀ m, r.Matches m → ∃ c ∈ m, p c

theorem needs_run {p : Char → Prop} {cls : Char → Bool} {lo : ℕ} {hi : Option ℕ} (some_ : 0 < lo)
    (all : ∀ c, cls c → p c) : (run cls lo hi).Needs p := by
  intro m matched
  obtain ⟨c, member⟩ := List.exists_mem_of_length_pos (Nat.lt_of_lt_of_le some_ matched.2.1)
  exact ⟨c, member, all c (matched.1 c member)⟩

theorem needs_append_left {p : Char → Prop} {first second : Regex} (needs : first.Needs p) :
    (first ++ second).Needs p := by
  intro m matched
  obtain ⟨a, b, rfl, left, -⟩ := matched
  obtain ⟨c, member, holds⟩ := needs a left
  exact ⟨c, List.mem_append_left b member, holds⟩

theorem needs_append_right {p : Char → Prop} {first second : Regex} (needs : second.Needs p) :
    (first ++ second).Needs p := by
  intro m matched
  obtain ⟨a, b, rfl, -, right⟩ := matched
  obtain ⟨c, member, holds⟩ := needs b right
  exact ⟨c, List.mem_append_right a member, holds⟩

/-- It does not occur in a text without such a character. -/
theorem Needs.not_occurs {p : Char → Prop} (needs : r.Needs p) (none : ∀ c ∈ s, ¬ p c) :
    ¬ r.Occurs s := by
  rintro ⟨before, m, after, rfl, matched⟩
  obtain ⟨c, member, holds⟩ := needs m matched
  exact none c (by simp [member]) holds

/-- A run that needs a character does not match the empty text. -/
theorem not_matches_nil_run {cls : Char → Bool} {lo : ℕ} {hi : Option ℕ} (h : 0 < lo) :
    ¬ (run cls lo hi).Matches [] := fun matched => absurd matched.2.1 (Nat.not_le.mpr h)

theorem not_matches_nil_append {first second : Regex}
    (h : ¬ first.Matches [] ∨ ¬ second.Matches []) : ¬ (first ++ second).Matches [] := by
  intro matched
  obtain ⟨a, b, empty, left, right⟩ := matched
  obtain ⟨rfl, rfl⟩ := List.append_eq_nil_iff.mp empty.symm
  exact h.elim (absurd left) (absurd right)

end Regex

end AgentLabs.Text
