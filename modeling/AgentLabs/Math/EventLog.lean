import Mathlib.Data.List.Nodup
import Mathlib.Data.List.Infix

/-!
# Copies of an append-only log

A log only grows at its end, so every copy that was taken at some time is a
prefix of the log as it stands. Two things follow. Any two copies are comparable,
and reconciling them means keeping the longer one. And whatever is emitted entry
by entry into a sink that ignores what it already holds leaves the sink with a
prefix of all emissions, however many publishers start over, overtake each other
or give up on the way.

## Main definitions

* `longer`: the longer of two copies
* `emitted`: the items a numbered log emits, entry after entry
* `putAbsent`: add an item to a sink unless it is there

## Main results

* `prefix_longer`: the longer copy is a copy, and extends both
* `emitted_prefix`: a copy emits a prefix of what the log emits
* `putAbsent_step`: a publisher keeps the sink a prefix of the emissions
* `foldl_putAbsent`: publishing a copy leaves the longer of the two
-/

namespace AgentLabs.Math

variable {ε ξ : Type*}

/-! ### The longer copy -/

/-- The longer of two lists, the first one when they are equally long. -/
def longer (ours theirs : List ε) : List ε :=
  if ours.length < theirs.length then theirs else ours

variable {ours theirs log : List ε}

/-- Two copies of a log agree wherever both have an entry. -/
theorem prefix_of_copies (h : ours <+: log) (k : theirs <+: log)
    (shorter : ours.length ≤ theirs.length) : ours <+: theirs :=
  List.prefix_of_prefix_length_le h k shorter

/-- A copy that is not complete is continued by the next entry of the log. -/
theorem concat_getElem_prefix {copy : List ε} (h : copy <+: log)
    (bound : copy.length < log.length) :
    copy ++ [log[copy.length]] <+: log := by
  obtain ⟨more, rfl⟩ := h
  obtain _ | ⟨next, rest⟩ := more
  · simp at bound
  · exact ⟨rest, by simp⟩

/-- The longer of two copies is a copy itself and extends both. -/
theorem prefix_longer (h : ours <+: log) (k : theirs <+: log) :
    longer ours theirs <+: log ∧ ours <+: longer ours theirs ∧ theirs <+: longer ours theirs := by
  unfold longer
  split_ifs with less
  · exact ⟨k, prefix_of_copies h k less.le, List.prefix_rfl⟩
  · exact ⟨h, List.prefix_rfl, prefix_of_copies k h (not_lt.mp less)⟩

/-- Importing the entries that the other copy has in addition gives the longer copy. -/
theorem append_drop_eq_longer (h : ours <+: log) (k : theirs <+: log) :
    ours ++ theirs.drop ours.length = longer ours theirs := by
  unfold longer
  split_ifs with less
  · exact List.prefix_iff_eq_append.mp (prefix_of_copies h k less.le)
  · rw [List.drop_eq_nil_of_le (not_lt.mp less), List.append_nil]

/-- A part of the second list does not matter to which list is the longer one. -/
theorem longer_longer {part whole : List ε} (h : part <+: whole) (s : List ε) :
    longer (longer s part) whole = longer s whole := by
  have size := h.length_le
  by_cases less : s.length < part.length
  · rw [longer.eq_def s part, if_pos less, longer.eq_def s whole, if_pos (less.trans_le size),
      longer]
    split_ifs with strict
    · rfl
    · exact h.eq_of_length (le_antisymm size (not_lt.mp strict))
  · rw [longer.eq_def s part, if_neg less]

/-! ### Emission -/

/-- The items that the entries of a log emit, each entry with its number. -/
def emitted (emit : ℕ → ε → List ξ) : ℕ → List ε → List ξ
  | _, [] => []
  | number, entry :: rest => emit number entry ++ emitted emit (number + 1) rest

variable (emit : ℕ → ε → List ξ)

theorem emitted_append (number : ℕ) (a b : List ε) :
    emitted emit number (a ++ b) = emitted emit number a ++ emitted emit (number + a.length) b := by
  induction a generalizing number with
  | nil => simp [emitted]
  | cons entry rest ih =>
    have shift : number + 1 + rest.length = number + (rest.length + 1) := by omega
    simp [emitted, ih, shift]

/-- What a copy emits is a prefix of what the log emits. -/
theorem emitted_prefix (number : ℕ) {copy : List ε} (h : copy <+: log) :
    emitted emit number copy <+: emitted emit number log := by
  obtain ⟨more, rfl⟩ := h
  rw [emitted_append]
  exact List.prefix_append _ _

/-- An item is emitted by one of the entries. -/
theorem mem_emitted_iff {x : ξ} {number : ℕ} :
    x ∈ emitted emit number log ↔ ∃ i, ∃ h : i < log.length, x ∈ emit (number + i) log[i] := by
  induction log generalizing number with
  | nil => simp [emitted]
  | cons entry rest ih =>
    rw [emitted, List.mem_append, ih]
    constructor
    · rintro (here | ⟨i, inside, found⟩)
      · exact ⟨0, by simp, here⟩
      · refine ⟨i + 1, by simpa using inside, ?_⟩
        rwa [List.getElem_cons_succ, show number + (i + 1) = number + 1 + i by omega]
    · rintro ⟨_ | i, inside, found⟩
      · exact .inl found
      · rw [List.getElem_cons_succ, show number + (i + 1) = number + 1 + i by omega] at found
        exact .inr ⟨i, by simpa using inside, found⟩

/-! ### Sinks that ignore what they hold -/

section Sink

variable [DecidableEq ξ] {sink done all : List ξ} {x : ξ}

/-- Add an item at the end unless the sink holds it. -/
def putAbsent (sink : List ξ) (x : ξ) : List ξ := if x ∈ sink then sink else sink ++ [x]

theorem prefix_putAbsent (sink : List ξ) (x : ξ) : sink <+: putAbsent sink x := by
  unfold putAbsent
  split_ifs
  · exact List.prefix_rfl
  · exact List.prefix_append _ _

/-- A publisher that has put `done`, in order, into a sink that holds a prefix of
`all` leaves it with such a prefix when it puts the next item. -/
theorem putAbsent_step (nodup : all.Nodup) (held : sink <+: all) (next : done ++ [x] <+: all)
    (behind : done.length ≤ sink.length) :
    putAbsent sink x <+: all ∧ (done ++ [x]).length ≤ (putAbsent sink x).length ∧
      putAbsent sink x = longer sink (done ++ [x]) := by
  by_cases equal : done.length = sink.length
  · -- The publisher is level with the sink, so the item is the next one missing.
    have level : done = sink :=
      (List.prefix_of_prefix_length_le ((List.prefix_append _ _).trans next)
        held equal.le).eq_of_length equal
    subst level
    have fresh : x ∉ done := fun member =>
      (List.nodup_append.mp (next.sublist.nodup nodup)).2.2 x member x (by simp) rfl
    simp [putAbsent, fresh, next, longer]
  · have ahead : (done ++ [x]).length ≤ sink.length := by
      simp only [List.length_append, List.length_singleton]
      omega
    have present : x ∈ sink :=
      (List.prefix_of_prefix_length_le next held ahead).subset (by simp)
    have not_less : ¬ sink.length < (done ++ [x]).length := by omega
    rw [putAbsent, if_pos present, longer, if_neg not_less]
    exact ⟨held, ahead, rfl⟩

/-- Publishing a prefix of `all` leaves the longer of what was there and what is
published. -/
theorem foldl_putAbsent (nodup : all.Nodup) (held : sink <+: all) {items : List ξ}
    (copy : items <+: all) : items.foldl putAbsent sink = longer sink items := by
  -- Induction on the items still to be put, the ones already put in front.
  suffices general : ∀ rest done sink, done ++ rest <+: all → sink <+: all →
      done.length ≤ sink.length → rest.foldl putAbsent sink = longer sink (done ++ rest) by
    simpa using general items [] sink (by simpa using copy) held (by simp)
  intro rest
  induction rest with
  | nil =>
    intro done sink _ _ behind
    rw [List.foldl_nil, List.append_nil, longer, if_neg (not_lt.mpr behind)]
  | cons x rest ih =>
    intro done sink next held behind
    have split : done ++ x :: rest = done ++ [x] ++ rest := by simp
    rw [split] at next ⊢
    obtain ⟨kept, ahead, isLonger⟩ :=
      putAbsent_step nodup held ((List.prefix_append _ _).trans next) behind
    rw [List.foldl_cons, ih (done ++ [x]) (putAbsent sink x) next kept ahead, isLonger]
    exact longer_longer (List.prefix_append _ _) sink

end Sink

end AgentLabs.Math
