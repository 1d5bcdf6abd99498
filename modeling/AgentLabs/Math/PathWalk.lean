import Mathlib.Data.List.Infix

/-!
# Walking a path with steps back

A path is a list of steps read from left to right: a name enters the folder of
that name, the distinguished step `up` goes back one folder and stays put at the
top. Where a path ends depends on the spelling as a whole, so a path that starts
inside a folder may end outside of it. The one theorem of this file reads
confinement off the spelling: a path ends strictly below a folder exactly when
some initial part of it ends in that folder and what follows never steps back
out.

## Main definitions

* `walk`: the folder a path leads to
* `NeverClimbsOut`: every nonempty initial part has more names than steps back

## Main results

* `strictlyBelow_walk_iff`: confinement as a property of the spelling
-/

namespace AgentLabs.Math.PathWalk

variable {ν : Type*} [DecidableEq ν] {up s : ν} {here folder path pre post : List ν}

/-- One step: back one folder for `up`, into the named folder otherwise. -/
def enter (up : ν) (here : List ν) (s : ν) : List ν :=
  if s = up then here.dropLast else here ++ [s]

/-- The folder a path leads to from `here`. -/
def walk (up : ν) (here path : List ν) : List ν := path.foldl (enter up) here

@[simp] theorem enter_up : enter up here up = here.dropLast := by simp [enter]

@[simp] theorem enter_of_ne (h : s ≠ up) : enter up here s = here ++ [s] := by simp [enter, h]

@[simp] theorem walk_nil : walk up here [] = here := rfl

@[simp] theorem walk_cons : walk up here (s :: path) = walk up (enter up here s) path := rfl

@[simp] theorem walk_append : walk up here (pre ++ post) = walk up (walk up here pre) post := by
  simp [walk]

theorem walk_concat : walk up here (path ++ [s]) = enter up (walk up here path) s := by simp

/-- A path without steps back ends where its names say. -/
theorem walk_of_notMem (h : up ∉ path) : walk up here path = here ++ path := by
  induction path generalizing here with
  | nil => simp
  | cons s rest ih =>
    simp only [List.mem_cons, not_or] at h
    rw [walk_cons, enter_of_ne (Ne.symm h.1), ih h.2]
    simp

/-- A list lies strictly below a folder when it continues the folder's list. -/
def StrictlyBelow (folder here : List ν) : Prop := folder <+: here ∧ folder.length < here.length

instance : Decidable (StrictlyBelow folder here) :=
  inferInstanceAs (Decidable (_ ∧ _))

/-- Steps back in a path. -/
def climbs (up : ν) (path : List ν) : ℕ := path.countP (· = up)

/-- Names entered along a path. -/
def descents (up : ν) (path : List ν) : ℕ := path.countP (· ≠ up)

/-- Read from the left, the path has entered more folders than it has left, at
every point after its first step. -/
def NeverClimbsOut (up : ν) (path : List ν) : Prop :=
  ∀ initial, initial <+: path → initial ≠ [] → climbs up initial < descents up initial

instance : Decidable (NeverClimbsOut up path) :=
  decidable_of_iff (∀ initial ∈ path.inits, initial ≠ [] →
    climbs up initial < descents up initial) (by simp [NeverClimbsOut])

theorem climbs_concat : climbs up (path ++ [s]) = climbs up path + if s = up then 1 else 0 := by
  simp [climbs, List.countP_append]

theorem descents_concat :
    descents up (path ++ [s]) = descents up path + if s = up then 0 else 1 := by
  by_cases h : s = up <;> simp [descents, List.countP_append, h]

theorem NeverClimbsOut.of_append (h : NeverClimbsOut up (pre ++ post)) : NeverClimbsOut up pre :=
  fun initial pref => h initial (pref.trans (List.prefix_append _ _))

/-- A path that never climbs out extends by one step as long as the whole still
has more names than steps back. -/
theorem NeverClimbsOut.concat (h : NeverClimbsOut up path)
    (whole : climbs up (path ++ [s]) < descents up (path ++ [s])) :
    NeverClimbsOut up (path ++ [s]) := by
  intro initial pref nonempty
  rcases List.prefix_concat_iff.mp pref with rfl | earlier
  · exact whole
  · exact h initial earlier nonempty

/-- Along a path that never climbs out the folder it started from stays a prefix,
and the depth below it is the number of names minus the number of steps back. -/
theorem NeverClimbsOut.walk (h : NeverClimbsOut up path) (folder : List ν) :
    folder <+: walk up folder path ∧
      (PathWalk.walk up folder path).length + climbs up path =
        folder.length + descents up path := by
  induction path using List.reverseRecOn with
  | nil => simp [climbs, descents]
  | append_singleton path s ih =>
    obtain ⟨below, depth⟩ := ih h.of_append
    have whole := h (path ++ [s]) List.prefix_rfl (by simp)
    rw [climbs_concat, descents_concat] at whole ⊢
    rw [walk_concat]
    by_cases back : s = up
    · subst back
      simp only [if_true] at whole ⊢
      rw [enter_up, List.length_dropLast]
      obtain ⟨rest, split⟩ := below
      have restLength : folder.length + rest.length = (PathWalk.walk s folder path).length := by
        rw [← split, List.length_append]
      refine ⟨⟨rest.dropLast, ?_⟩, by omega⟩
      -- The depth before this step back is above that of the folder, so there is a name to leave.
      have nonempty : rest ≠ [] := by
        rintro rfl
        simp only [List.length_nil] at restLength
        omega
      rw [← split, List.dropLast_append_of_ne_nil nonempty]
    · simp only [back, if_false] at whole ⊢
      rw [enter_of_ne back]
      refine ⟨below.trans (List.prefix_append _ _), ?_⟩
      rw [List.length_append, List.length_singleton]
      omega

/-- **Confinement is a property of the spelling.** A path from the top ends
strictly below a folder exactly when an initial part of it ends in the folder and
the nonempty rest never climbs out. -/
theorem strictlyBelow_walk_iff :
    StrictlyBelow folder (walk up [] path) ↔
      ∃ pre post, path = pre ++ post ∧ walk up [] pre = folder ∧ post ≠ [] ∧
        NeverClimbsOut up post := by
  constructor
  · intro h
    induction path using List.reverseRecOn with
    | nil => simp [StrictlyBelow] at h
    | append_singleton path s ih =>
      -- Either the last step is the one that enters the folder, or the path was
      -- below it before and the split found there extends by that step.
      have extend : StrictlyBelow folder (walk up [] path) → ∃ pre post,
          path ++ [s] = pre ++ post ∧ walk up [] pre = folder ∧ post ≠ [] ∧
            NeverClimbsOut up post := by
        intro before
        obtain ⟨pre, post, rfl, rfl, nonempty, stays⟩ := ih before
        refine ⟨pre, post ++ [s], by simp, rfl, by simp, stays.concat ?_⟩
        have depth := (stays.walk (walk up [] pre)).2
        have deeper := h.2
        rw [List.append_assoc, walk_append, walk_append, walk_cons, walk_nil] at deeper
        rw [climbs_concat, descents_concat]
        by_cases back : s = up
        · simp only [back, enter_up, List.length_dropLast, if_true] at deeper ⊢
          omega
        · simp only [back, enter_of_ne back, List.length_append, List.length_singleton,
            if_false] at deeper ⊢
          omega
      obtain ⟨⟨rest, split⟩, deeper⟩ := h
      rw [walk_concat] at split deeper
      by_cases back : s = up
      · subst back
        rw [enter_up] at split deeper
        refine extend ⟨List.IsPrefix.trans ⟨rest, split⟩ (List.dropLast_prefix _), ?_⟩
        rw [List.length_dropLast] at deeper
        omega
      · rw [enter_of_ne back] at split deeper
        rcases List.prefix_concat_iff.mp ⟨rest, split⟩ with whole | earlier
        · rw [whole] at deeper
          exact absurd deeper (lt_irrefl _)
        · by_cases same : folder = walk up [] path
          · refine ⟨path, [s], rfl, same.symm, by simp, ?_⟩
            intro initial pref nonempty
            have atMost : initial.length ≤ 1 := pref.length_le
            have atLeast := List.length_pos_iff.mpr nonempty
            rw [pref.eq_of_length (by rw [List.length_singleton]; omega)]
            simp [climbs, descents, back]
          · exact extend ⟨earlier, lt_of_le_of_ne earlier.length_le fun equal =>
              same (earlier.eq_of_length equal)⟩
  · rintro ⟨pre, post, rfl, rfl, nonempty, stays⟩
    rw [walk_append]
    obtain ⟨below, depth⟩ := stays.walk (walk up [] pre)
    have whole := stays post List.prefix_rfl nonempty
    exact ⟨below, by omega⟩

end AgentLabs.Math.PathWalk
