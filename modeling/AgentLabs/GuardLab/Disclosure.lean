import AgentLabs.GuardLab.Contracts
import AgentLabs.Math.Segments
import Mathlib.Data.List.Sort

/-!
# Masking for an audience

A detector reports spans of a text, each with a label and a score. Before a text
is shown or sent, spans below the threshold are dropped, overlapping and touching
ones are joined, and the joined spans whose label the audience may not see are
replaced by their label. The audience's list is asked about the label of the
joined span, which is the label of its highest-scoring part: a span the audience
may not see is hidden exactly as far as the part that prevails over it is one the
audience may not see either.

## Main definitions

* `Span`, `DisclosurePolicy`, `GuardSignal`: what a detector reports and what may
  be disclosed
* `mergeSpans`, `maskForAudience`, `checkBeforeSend`: the source's functions
* `replacedSegments`: the joined spans that the masking loop writes over
* `MaskingComplete`: every span the audience may not see is hidden and reported

## Main results

* `mergeSpans_eq`: joined spans are the blocks of the kept ones
* `maskForAudience_eq_ok_iff`: the masked text is the text with the replaced
  segments in place
* `maskingComplete_iff`: when masking is complete
* `not_maskingComplete_touching`: a phone number right after a name stays readable
-/

namespace AgentLabs.GuardLab

open Math

/-- A detected span, from `start` up to `stop`. Scores are compared only, so they
come from any linear order. -/
structure Span (S : Type) where
  start : ℕ
  stop : ℕ
  label : String
  score : S
  text : String
  deriving DecidableEq, Repr

/-- What may be disclosed to whom. `maskFormat label` is the rendering of the
policy's format string for a label; a malformed format string raises. -/
structure DisclosurePolicy (S : Type) where
  minScore : S
  allowedByAudience : Dict String (List String) :=
    [("internal_reviewer", ["identity.person_name"]),
     ("user", ["identity.person_name"]),
     ("draft", ["identity.person_name"])]
  maskFormat : String → Except PyError String := fun label => .ok ("[" ++ label ++ "]")

/-- Whether a guard came to an answer. -/
inductive SignalStatus where
  | ok
  | unknown
  deriving DecidableEq, Repr

/-- A guard's opinion about a text. The evidence spans travel as dictionaries and
are read back as the spans they were. -/
structure GuardSignal (S : Type) where
  status : SignalStatus
  evidenceSpans : List (Span S) := []
  detail : String := ""

variable {S : Type}

/-- The sort key `(start, -end)`: by start, longer spans first. -/
def Span.KeyLe (a b : Span S) : Prop := a.start < b.start ∨ a.start = b.start ∧ b.stop ≤ a.stop

instance : DecidableRel (Span.KeyLe (S := S)) := fun a b =>
  inferInstanceAs (Decidable (a.start < b.start ∨ a.start = b.start ∧ b.stop ≤ a.stop))

/-- The spans a detector may report on a text. -/
def InText (text : String) (spans : List (Span S)) : Prop :=
  ∀ s ∈ spans, s.start ≤ s.stop ∧ s.stop ≤ text.length

instance (text : String) (spans : List (Span S)) : Decidable (InText text spans) :=
  inferInstanceAs (Decidable (∀ s ∈ spans, s.start ≤ s.stop ∧ s.stop ≤ text.length))

/-- The labels an audience may see. -/
def DisclosurePolicy.allowed (policy : DisclosurePolicy S) (audience : String) : List String :=
  (policy.allowedByAudience.get? audience).getD []

/-- One round of the masking loop, on the text so far and the labels removed so far. -/
def maskStep (policy : DisclosurePolicy S) (audience : String)
    (state : List Char × List String) (s : Span S) : Except PyError (List Char × List String) :=
  if s.label ∈ policy.allowed audience then .ok state
  else do
    let mask ← policy.maskFormat s.label
    .ok (state.1.take s.start ++ mask.toList ++ state.1.drop s.stop, state.2.insert s.label)

section Loop

variable {policy : DisclosurePolicy S} {audience : String} {s : Span S}

/-- The patch that replaces a joined span by the rendering of its label. -/
def Renders (policy : DisclosurePolicy S) (s : Span S) (p : Patch Char) : Prop :=
  p.start = s.start ∧ p.stop = s.stop ∧ policy.maskFormat s.label = .ok (String.ofList p.content)

theorem maskStep_of_allowed (h : s.label ∈ policy.allowed audience)
    (state : List Char × List String) : maskStep policy audience state s = .ok state :=
  if_pos h

theorem maskStep_eq_ok_iff (h : s.label ∉ policy.allowed audience)
    (state state' : List Char × List String) :
    maskStep policy audience state s = .ok state' ↔
      ∃ p, Renders policy s p ∧ state' = (p.apply state.1, state.2.insert s.label) := by
  rw [maskStep, if_neg h]
  constructor
  · intro ran
    cases rendered : policy.maskFormat s.label with
    | error e => simp [rendered, bind, Except.bind] at ran
    | ok mask =>
      refine ⟨⟨s.start, s.stop, mask.toList⟩, ⟨rfl, rfl, by simp [rendered]⟩, ?_⟩
      simpa [rendered, bind, Except.bind, Patch.apply, eq_comm] using ran
  · rintro ⟨p, ⟨start, stop, rendered⟩, rfl⟩
    simp [rendered, bind, Except.bind, Patch.apply, start, stop]

/-- The masking loop, from right to left, on joined spans. -/
theorem foldrM_maskStep_eq_ok_iff (policy : DisclosurePolicy S) (audience : String)
    (joined : List (Span S)) (letters : List Char) (state : List Char × List String) :
    joined.foldrM (fun s state => maskStep policy audience state s) (letters, []) = .ok state ↔
      ∃ patches, List.Forall₂ (Renders policy)
          (joined.filter fun s => s.label ∉ policy.allowed audience) patches ∧
        state = (patches.foldr Patch.apply letters,
          ((joined.filter fun s => s.label ∉ policy.allowed audience).map
            Span.label).foldr List.insert []) := by
  induction joined generalizing state with
  | nil => simp [pure, Except.pure, eq_comm]
  | cons s rest ih =>
    -- The right fold masks the spans after this one first.
    have bound : (s :: rest).foldrM (fun s state => maskStep policy audience state s)
        (letters, []) = .ok state ↔ ∃ before,
          rest.foldrM (fun s state => maskStep policy audience state s) (letters, []) = .ok before ∧
            maskStep policy audience before s = .ok state := by
      rw [List.foldrM_cons]
      cases rest.foldrM (fun s state => maskStep policy audience state s) (letters, []) <;>
        simp [bind, Except.bind]
    rw [bound]
    simp only [ih]
    by_cases seen : s.label ∈ policy.allowed audience
    · simp [maskStep_of_allowed seen, seen, eq_comm]
    · simp only [maskStep_eq_ok_iff seen, seen, List.filter_cons, not_false_eq_true, decide_true,
        if_true, List.forall₂_cons_left_iff, List.map_cons, List.foldr_cons]
      constructor
      · rintro ⟨before, ⟨patches, rendered, rfl⟩, p, renders, rfl⟩
        exact ⟨p :: patches, ⟨p, patches, renders, rendered, rfl⟩, rfl⟩
      · rintro ⟨-, ⟨p, patches, renders, rendered, rfl⟩, rfl⟩
        exact ⟨_, ⟨patches, rendered, rfl⟩, p, renders, rfl⟩

/-- A label that the policy's format string cannot render. -/
def FormatFails (policy : DisclosurePolicy S) (label : String) : Prop :=
  ∀ mask, policy.maskFormat label ≠ .ok mask

theorem exists_renders_iff {joined : List (Span S)} :
    (∃ patches, List.Forall₂ (Renders policy) joined patches) ↔
      ∀ s ∈ joined, ¬ FormatFails policy s.label := by
  -- A segment is rendered by a patch exactly if the format of its label gives a mask.
  have one : ∀ s, (∃ p, Renders policy s p) ↔ ¬ FormatFails policy s.label := by
    intro s
    simp only [FormatFails, not_forall, not_not]
    constructor
    · rintro ⟨p, -, -, rendered⟩
      exact ⟨_, rendered⟩
    · rintro ⟨mask, rendered⟩
      exact ⟨⟨s.start, s.stop, mask.toList⟩, rfl, rfl, by simp [rendered]⟩
  induction joined with
  | nil => simp
  | cons s rest ih =>
    constructor
    · rintro ⟨patches, renders⟩ s' hs'
      cases renders with
      | cons first later =>
        rcases List.mem_cons.mp hs' with rfl | hs'
        · exact (one _).mp ⟨_, first⟩
        · exact ih.mp ⟨_, later⟩ _ hs'
    · intro renderable
      obtain ⟨p, first⟩ := (one s).mpr (renderable s (.head _))
      obtain ⟨patches, later⟩ := ih.mpr fun s' hs' => renderable s' (.tail _ hs')
      exact ⟨p :: patches, .cons first later⟩

/-- Patches for spans that are apart and lie in a text are apart and lie in it. -/
theorem separated_of_renders {letters : List Char} {joined : List (Span S)}
    {patches : List (Patch Char)} {position : ℕ}
    (renders : List.Forall₂ (Renders policy) joined patches)
    (apart : joined.Pairwise fun a b => a.stop < b.start)
    (inside : ∀ s ∈ joined, s.start ≤ s.stop ∧ s.stop ≤ letters.length)
    (after : ∀ s ∈ joined, position ≤ s.start) : Separated letters position patches := by
  induction renders generalizing position with
  | nil => trivial
  | @cons s p rest patches hp _ ih =>
    obtain ⟨start, stop, -⟩ := hp
    rw [List.pairwise_cons] at apart
    simp only [List.mem_cons, forall_eq_or_imp] at inside after
    refine ⟨start ▸ after.1, start ▸ stop ▸ inside.1.1, stop ▸ inside.1.2, ?_⟩
    exact ih apart.2 inside.2 fun s' hs' => stop ▸ (apart.1 s' hs').le

end Loop

variable [LinearOrder S]

/-- The spans that reach the threshold, sorted. -/
def keptInOrder (spans : List (Span S)) (minScore : S) : List (Span S) :=
  (spans.filter fun s => minScore ≤ s.score).insertionSort Span.KeyLe

/-- One round of the merging loop: extend the last span written or write the span. -/
def mergeStep (out : List (Span S)) (s : Span S) : List (Span S) :=
  match out.getLast? with
  | some last =>
    if s.start ≤ last.stop then
      let label := if s.score ≤ last.score then last.label else s.label
      out.dropLast ++ [⟨last.start, max last.stop s.stop, label, max last.score s.score, ""⟩]
    else out ++ [⟨s.start, s.stop, s.label, s.score, s.text⟩]
  | none => [⟨s.start, s.stop, s.label, s.score, s.text⟩]

/-- `merge_spans`. -/
def mergeSpans (spans : List (Span S)) (minScore : S) : List (Span S) :=
  (keptInOrder spans minScore).foldl mergeStep []

/-- `mask_for_audience`: the masked text and the sorted set of labels removed. -/
def maskForAudience (text : String) (spans : List (Span S)) (audience : String)
    (policy : DisclosurePolicy S) : Except PyError (String × List String) := do
  let merged := mergeSpans spans policy.minScore
  let (result, removed) ← merged.reverse.foldlM (maskStep policy audience) (text.toList, [])
  .ok (String.ofList result, removed.insertionSort (· ≤ ·))

/-- `check_before_send`. The guard's `signal` answers for a text; the recipient
plays no part. -/
def checkBeforeSend (_recipient subject body : String) (ctx : Option UserContext)
    (signal : String → Except PyError (GuardSignal S)) (policy : DisclosurePolicy S)
    (audience : String := "internal_reviewer") : Except PyError PolicyDecision := do
  if ctx.isNone then
    .ok { action := .block, reasonCode := "NO_CONTEXT" }
  else
    let text := subject ++ "\n" ++ body
    let answer ← signal text
    if answer.status = .unknown then
      .ok { action := .review, reasonCode := "PII_GUARD_UNKNOWN", detail := answer.detail }
    else
      let (_, removed) ← maskForAudience text answer.evidenceSpans audience policy
      if removed ≠ [] then
        .ok { action := .block, reasonCode := "PII_IN_BODY", riskLabels := removed }
      else
        .ok { action := .allow, reasonCode := "BODY_CLEAN" }

/-! ### Joined spans -/

/-- Spans and their joining, as segments. -/
def spanFusion : Fusion (Span S) ℕ where
  lo := Span.start
  hi := Span.stop
  fuse last s := ⟨last.start, max last.stop s.stop,
    if s.score ≤ last.score then last.label else s.label, max last.score s.score, ""⟩
  lo_fuse _ _ := rfl
  hi_fuse _ _ := rfl

theorem keepsHigher_spanFusion :
    (spanFusion (S := S)).KeepsHigher Span.score Span.label :=
  ⟨fun _ _ => rfl, fun _ _ => rfl⟩

/-- Joined spans are the blocks of the kept ones. -/
theorem mergeSpans_eq (spans : List (Span S)) (minScore : S) :
    mergeSpans spans minScore =
      (spanFusion.blocks (keptInOrder spans minScore)).map spanFusion.fused := by
  rw [← Fusion.merge_eq_map_blocks]
  have step : mergeStep (S := S) = spanFusion.push := by
    funext out s
    rw [mergeStep, Fusion.push]
    cases out.getLast? <;> rfl
  rw [mergeSpans, step]
  rfl

variable {text audience : String} {spans : List (Span S)} {policy : DisclosurePolicy S}
  {minScore : S} {s w : Span S}

theorem mem_keptInOrder : s ∈ keptInOrder spans minScore ↔ s ∈ spans ∧ minScore ≤ s.score := by
  simp [keptInOrder]

theorem scannable_keptInOrder (inText : InText text spans) :
    spanFusion.Scannable (keptInOrder spans minScore) := by
  have total : Std.Total (Span.KeyLe (S := S)) := ⟨fun a b => by unfold Span.KeyLe; omega⟩
  have trans : IsTrans (Span S) Span.KeyLe := ⟨fun a b c => by unfold Span.KeyLe; omega⟩
  constructor
  · have sorted : (keptInOrder spans minScore).Pairwise Span.KeyLe :=
      List.pairwise_insertionSort Span.KeyLe _
    refine sorted.imp fun key => ?_
    rcases key with earlier | ⟨same, -⟩
    exacts [earlier.le, same.le]
  · exact fun a ha => (inText a (mem_keptInOrder.mp ha).1).1

/-- What becomes of a kept span: it lies in one joined span, and in no other, and
the label of that one is the label of the span that prevails. -/
theorem exists_joined (inText : InText text spans) (kept : s ∈ keptInOrder spans minScore) :
    ∃ joined ∈ mergeSpans spans minScore, joined.start ≤ s.start ∧ s.stop ≤ joined.stop ∧
      (∀ other ∈ mergeSpans spans minScore, ∀ i, s.start ≤ i → i < s.stop →
        other.start ≤ i → i < other.stop → other = joined) ∧
      ∃ w, spanFusion.Prevails Span.score (keptInOrder spans minScore) s w ∧
        joined.label = w.label := by
  have scannable : spanFusion.Scannable (keptInOrder spans minScore) :=
    scannable_keptInOrder inText
  obtain ⟨b, hb, member⟩ := spanFusion.exists_block_of_mem kept
  rw [mergeSpans_eq]
  refine ⟨_, List.mem_map.mpr ⟨b, hb, rfl⟩, spanFusion.lo_fused_le scannable hb member,
    spanFusion.hi_le_hi_fused member, ?_,
    spanFusion.exists_prevails_tag keepsHigher_spanFusion scannable hb member⟩
  intro other hother i start stop start' stop'
  obtain ⟨c, hc, rfl⟩ := List.mem_map.mp hother
  have start'' : (spanFusion.fused b).start ≤ s.start := spanFusion.lo_fused_le scannable hb member
  have stop'' : s.stop ≤ (spanFusion.fused b).stop := spanFusion.hi_le_hi_fused member
  by_contra different
  -- Two joined spans are apart, so no position lies in both.
  rcases spanFusion.apart_of_ne scannable hb hc (fun same => different (same ▸ rfl)) with gap | gap
  · change (spanFusion.fused b).stop < (spanFusion.fused c).start at gap
    omega
  · change (spanFusion.fused c).stop < (spanFusion.fused b).start at gap
    omega

/-- The label of a joined span is that of a kept span that prevails in it. -/
theorem exists_prevails_of_mem_mergeSpans (inText : InText text spans) {joined : Span S}
    (hjoined : joined ∈ mergeSpans spans minScore) :
    ∃ s ∈ keptInOrder spans minScore, ∃ w,
      spanFusion.Prevails Span.score (keptInOrder spans minScore) s w ∧ joined.label = w.label := by
  rw [mergeSpans_eq] at hjoined
  obtain ⟨b, hb, rfl⟩ := List.mem_map.mp hjoined
  exact ⟨b.first, spanFusion.mem_of_mem_block hb (.head _),
    spanFusion.exists_prevails_tag keepsHigher_spanFusion (scannable_keptInOrder inText) hb
      (.head _)⟩

/-- Joined spans are apart by at least one character. -/
theorem pairwise_apart_mergeSpans (inText : InText text spans) :
    (mergeSpans spans minScore).Pairwise fun a b => a.stop < b.start := by
  rw [mergeSpans_eq, List.pairwise_map]
  exact spanFusion.pairwise_apart_blocks (scannable_keptInOrder inText)

/-- Joined spans lie in the text. -/
theorem inText_mergeSpans (inText : InText text spans) :
    InText text (mergeSpans spans minScore) := by
  intro joined hjoined
  rw [mergeSpans_eq] at hjoined
  obtain ⟨b, hb, rfl⟩ := List.mem_map.mp hjoined
  have member : ∀ m ∈ b.members, m.start ≤ m.stop ∧ m.stop ≤ text.length := fun m hm =>
    inText m (mem_keptInOrder.mp (spanFusion.mem_of_mem_block hb hm)).1
  constructor
  · calc (spanFusion.fused b).start = b.first.start := spanFusion.lo_fused b
      _ ≤ b.first.stop := (member _ (.head _)).1
      _ ≤ (spanFusion.fused b).stop := spanFusion.hi_le_hi_fused (.head _)
  · exact Nat.lt_succ_iff.mp
      (spanFusion.hi_fused_lt fun m hm => Nat.lt_succ_of_le (member m hm).2)

/-! ### The masked text -/

/-- The joined spans that the masking loop writes over. -/
def replacedSegments (spans : List (Span S)) (audience : String) (policy : DisclosurePolicy S) :
    List (Span S) :=
  (mergeSpans spans policy.minScore).filter fun s => s.label ∉ policy.allowed audience

/-- **What masking returns.** The text with the replaced segments, and nothing
else, written over in place by the renderings of their labels, and the set of
those labels; it raises when one of them cannot be rendered. -/
theorem maskForAudience_eq_ok_iff (inText : InText text spans) {result : String}
    {removed : List String} :
    maskForAudience text spans audience policy = .ok (result, removed) ↔
      ∃ patches, List.Forall₂ (Renders policy) (replacedSegments spans audience policy) patches ∧
        result = String.ofList (splice text.toList patches) ∧
        removed = (((replacedSegments spans audience policy).map Span.label).foldr
          List.insert []).insertionSort (· ≤ ·) := by
  have loop := foldrM_maskStep_eq_ok_iff policy audience
    (mergeSpans spans policy.minScore) text.toList
  have unfolded : maskForAudience text spans audience policy = .ok (result, removed) ↔
      ∃ state, (mergeSpans spans policy.minScore).foldrM
          (fun s state => maskStep policy audience state s) (text.toList, []) = .ok state ∧
        result = String.ofList state.1 ∧ removed = state.2.insertionSort (· ≤ ·) := by
    rw [maskForAudience, List.foldlM_reverse]
    cases (mergeSpans spans policy.minScore).foldrM
      (fun s state => maskStep policy audience state s) (text.toList, []) <;>
      simp [bind, Except.bind, eq_comm]
  -- The segments do not touch, so writing them over from the right is splicing them in.
  have splices : ∀ {patches : List (Patch Char)},
      List.Forall₂ (Renders policy) (replacedSegments spans audience policy) patches →
        patches.foldr Patch.apply text.toList = splice text.toList patches := by
    intro patches renders
    refine foldr_patch_eq_splice _ _ (separated_of_renders renders
      ((pairwise_apart_mergeSpans inText).filter _) ?_ fun _ _ => Nat.zero_le _)
    intro s hs
    rw [String.length_toList]
    exact inText_mergeSpans inText s (List.mem_filter.mp hs).1
  rw [unfolded]
  simp only [loop]
  constructor
  · rintro ⟨-, ⟨patches, renders, rfl⟩, rfl, rfl⟩
    exact ⟨patches, renders, congrArg String.ofList (splices renders), rfl⟩
  · rintro ⟨patches, renders, rfl, rfl⟩
    exact ⟨_, ⟨patches, renders, rfl⟩, congrArg String.ofList (splices renders).symm, rfl⟩

theorem mem_replacedSegments : s ∈ replacedSegments spans audience policy ↔
    s ∈ mergeSpans spans policy.minScore ∧ s.label ∉ policy.allowed audience := by
  simp [replacedSegments]

/-- Masking succeeds when the label of every replaced segment can be rendered. -/
theorem exists_maskForAudience_eq_ok_iff (inText : InText text spans) (audience : String)
    (policy : DisclosurePolicy S) :
    (∃ result removed, maskForAudience text spans audience policy = .ok (result, removed)) ↔
      ∀ s ∈ replacedSegments spans audience policy, ¬ FormatFails policy s.label := by
  rw [← exists_renders_iff]
  constructor
  · rintro ⟨result, removed, masked⟩
    obtain ⟨patches, renders, -⟩ := (maskForAudience_eq_ok_iff inText).mp masked
    exact ⟨patches, renders⟩
  · rintro ⟨patches, renders⟩
    exact ⟨_, _, (maskForAudience_eq_ok_iff inText).mpr ⟨patches, renders, rfl, rfl⟩⟩

/-- The labels returned are those of the replaced segments. -/
theorem mem_removed_iff (inText : InText text spans) {result label : String}
    {removed : List String}
    (masked : maskForAudience text spans audience policy = .ok (result, removed)) :
    label ∈ removed ↔ ∃ s ∈ replacedSegments spans audience policy, s.label = label := by
  obtain ⟨-, -, -, rfl⟩ := (maskForAudience_eq_ok_iff inText).mp masked
  rw [List.mem_insertionSort]
  induction replacedSegments spans audience policy with
  | nil => simp
  | cons s rest ih => simp [ih, eq_comm]

/-! ### Completeness -/

/-- A span that reaches the threshold and that the audience may not see. -/
structure Sensitive (spans : List (Span S)) (audience : String) (policy : DisclosurePolicy S)
    (s : Span S) : Prop where
  reported : s ∈ spans
  confident : policy.minScore ≤ s.score
  hidden : s.label ∉ policy.allowed audience

/-- Masking is complete: the output is the text with the replaced segments written over by the
renderings of their labels, and every position of a sensitive span lies in one of them; a nonempty
sensitive span leaves the removed labels nonempty, and a message with such a span is not allowed to
be sent. -/
structure MaskingComplete (text : String) (spans : List (Span S)) (audience : String)
    (policy : DisclosurePolicy S) : Prop where
  covered : ∀ result removed, maskForAudience text spans audience policy = .ok (result, removed) →
    ∃ patches, List.Forall₂ (Renders policy) (replacedSegments spans audience policy) patches ∧
      result = String.ofList (splice text.toList patches) ∧
      ∀ s, Sensitive spans audience policy s → ∀ i, s.start ≤ i → i < s.stop →
        ∃ seg ∈ replacedSegments spans audience policy, seg.start ≤ i ∧ i < seg.stop
  reported : ∀ result removed, maskForAudience text spans audience policy = .ok (result, removed) →
    (∃ s, Sensitive spans audience policy s ∧ s.start < s.stop) → removed ≠ []
  stopped : ∀ recipient subject body ctx signal answer, text = subject ++ "\n" ++ body →
    signal text = .ok answer → answer.status = .ok → answer.evidenceSpans = spans →
    (∃ s, Sensitive spans audience policy s ∧ s.start < s.stop) → ∀ decision,
      checkBeforeSend recipient subject body ctx signal policy audience = .ok decision →
        decision.action ≠ .allow

/-- The span that prevails over `s`: the first, in the order of the scan, of the
highest-scoring kept spans that a chain of touching kept spans connects with `s`. -/
def Prevails (spans : List (Span S)) (minScore : S) (s w : Span S) : Prop :=
  spanFusion.Prevails Span.score (keptInOrder spans minScore) s w

/-- A message is allowed only with an answer of the guard whose masking removes
nothing. -/
theorem exists_masked_of_checkBeforeSend {recipient subject body : String}
    {ctx : Option UserContext} {signal : String → Except PyError (GuardSignal S)}
    {answer : GuardSignal S} {decision : PolicyDecision}
    (answered : signal (subject ++ "\n" ++ body) = .ok answer)
    (checked : checkBeforeSend recipient subject body ctx signal policy audience = .ok decision)
    (allowed : decision.action = .allow) :
    ∃ result, maskForAudience (subject ++ "\n" ++ body) answer.evidenceSpans audience policy =
      .ok (result, []) := by
  simp only [checkBeforeSend, answered, bind, Except.bind] at checked
  -- Each of the earlier answers is a refusal.
  split_ifs at checked with anonymous unknown
  · cases checked
    cases allowed
  · cases checked
    cases allowed
  · cases masked : maskForAudience (subject ++ "\n" ++ body) answer.evidenceSpans
      audience policy with
    | error e => simp [masked] at checked
    | ok out =>
      rcases out with ⟨result, removed⟩
      simp only [masked] at checked
      split_ifs at checked with found
      · cases checked
        cases allowed
      · exact ⟨result, by rw [not_not.mp found]⟩

/-- Masking is complete when every nonempty sensitive span lies in a replaced
segment. -/
theorem maskingComplete_of_covered (inText : InText text spans)
    (covered : ∀ result removed,
      maskForAudience text spans audience policy = .ok (result, removed) →
        ∀ s, Sensitive spans audience policy s → s.start < s.stop →
          ∃ seg ∈ replacedSegments spans audience policy,
            seg.start ≤ s.start ∧ s.stop ≤ seg.stop) :
    MaskingComplete text spans audience policy := by
  have reported : ∀ result removed,
      maskForAudience text spans audience policy = .ok (result, removed) →
        (∃ s, Sensitive spans audience policy s ∧ s.start < s.stop) → removed ≠ [] := by
    rintro result removed masked ⟨s, sensitive, nonempty⟩
    obtain ⟨seg, replaced, -⟩ := covered result removed masked s sensitive nonempty
    exact List.ne_nil_of_mem ((mem_removed_iff inText masked).mpr ⟨seg, replaced, rfl⟩)
  refine ⟨fun result removed masked => ?_, reported, ?_⟩
  · obtain ⟨patches, renders, written, -⟩ := (maskForAudience_eq_ok_iff inText).mp masked
    refine ⟨patches, renders, written, fun s sensitive i start stop => ?_⟩
    obtain ⟨seg, replaced, start', stop'⟩ :=
      covered result removed masked s sensitive (start.trans_lt stop)
    exact ⟨seg, replaced, start'.trans start, stop.trans_le stop'⟩
  -- The check before a send masks the same text, and refuses if anything was removed.
  · rintro recipient subject body ctx signal answer rfl answered - rfl found decision checked
      allowed
    obtain ⟨result, masked⟩ := exists_masked_of_checkBeforeSend answered checked allowed
    exact reported result [] masked found rfl

/-- **When masking is complete.** Either the policy cannot render a label that
prevails and must be hidden, so that nothing is returned, or whatever prevails
over a nonempty sensitive span is itself hidden from the audience. -/
theorem maskingComplete_iff (inText : InText text spans) :
    MaskingComplete text spans audience policy ↔
      (∃ s ∈ spans, policy.minScore ≤ s.score ∧ ∃ w, Prevails spans policy.minScore s w ∧
        w.label ∉ policy.allowed audience ∧ FormatFails policy w.label) ∨
      ∀ s, Sensitive spans audience policy s → s.start < s.stop →
        ∀ w, Prevails spans policy.minScore s w → w.label ∉ policy.allowed audience := by
  constructor
  · intro complete
    -- If everything to be replaced renders, masking returns a text, and that text covers the
    -- span.
    refine or_iff_not_imp_left.mpr fun renderable s sensitive nonempty w prevails => ?_
    have kept : s ∈ keptInOrder spans policy.minScore :=
      mem_keptInOrder.mpr ⟨sensitive.reported, sensitive.confident⟩
    obtain ⟨result, removed, masked⟩ := (exists_maskForAudience_eq_ok_iff inText audience
      policy).mpr (by
        intro joined replaced fails
        obtain ⟨hjoined, hidden⟩ := mem_replacedSegments.mp replaced
        obtain ⟨s, kept, w, prevails, same⟩ := exists_prevails_of_mem_mergeSpans inText hjoined
        obtain ⟨member, confident⟩ := mem_keptInOrder.mp kept
        exact renderable ⟨s, member, confident, w, prevails, same ▸ hidden, same ▸ fails⟩)
    obtain ⟨-, -, -, hidden⟩ := complete.covered result removed masked
    obtain ⟨seg, replaced, start, stop⟩ := hidden s sensitive s.start le_rfl nonempty
    obtain ⟨hseg, hidden⟩ := mem_replacedSegments.mp replaced
    -- The segment that covers the start of the span is the one the span was merged into.
    obtain ⟨joined, hjoined, -, -, only, w', prevails', same⟩ := exists_joined inText kept
    obtain rfl := only seg hseg s.start le_rfl nonempty start stop
    rwa [prevails.unique spanFusion prevails', ← same]
  · intro condition
    refine maskingComplete_of_covered inText fun result removed masked s sensitive nonempty => ?_
    have renderable := (exists_maskForAudience_eq_ok_iff inText audience policy).mp
      ⟨result, removed, masked⟩
    rcases condition with ⟨s', member, confident, w, prevails, hidden, fails⟩ | hides
    · -- The label that fails to render is one to be replaced, so nothing would have been
      -- returned.
      obtain ⟨joined, hjoined, -, -, -, w', prevails', same⟩ :=
        exists_joined inText (mem_keptInOrder.mpr ⟨member, confident⟩)
      rw [prevails.unique spanFusion prevails', ← same] at hidden fails
      exact absurd fails (renderable joined (mem_replacedSegments.mpr ⟨hjoined, hidden⟩))
    · obtain ⟨joined, hjoined, start, stop, -, w, prevails, same⟩ := exists_joined inText
        (mem_keptInOrder.mpr ⟨sensitive.reported, sensitive.confident⟩)
      refine ⟨joined, mem_replacedSegments.mpr ⟨hjoined, ?_⟩, start, stop⟩
      rw [same]
      exact hides s sensitive nonempty w prevails

/-- A phone number and nothing else is masked: nothing prevails over it. -/
theorem maskingComplete_iff_phone :
    MaskingComplete "010-4412-7788" [⟨0, 13, "contact.phone", 98, "010-4412-7788"⟩] "user"
        { minScore := 50 } ∧
      maskForAudience "010-4412-7788" [⟨0, 13, "contact.phone", 98, "010-4412-7788"⟩] "user"
        { minScore := 50 } = .ok ("[contact.phone]", ["contact.phone"]) := by
  refine ⟨(maskingComplete_iff (by decide)).mpr (.inr fun s _ _ w prevails => ?_), by decide⟩
  obtain ⟨before, after, split, -⟩ := prevails.first
  have kept : w ∈ keptInOrder [⟨0, 13, "contact.phone", 98, "010-4412-7788"⟩] 50 :=
    split ▸ List.mem_append_right before (.head after)
  rw [List.mem_singleton.mp (mem_keptInOrder.mp kept).1]
  decide

/-- A phone number written right after a name, both detected. -/
def nameThenPhone : List (Span ℕ) :=
  [⟨0, 3, "identity.person_name", 99, "박서준"⟩, ⟨3, 16, "contact.phone", 98, "010-4412-7788"⟩]

/-- The two touch, the name has the higher score, and a reviewer may see names: the
phone number stays readable and the message may be sent. -/
theorem not_maskingComplete_touching :
    ¬ MaskingComplete "박서준010-4412-7788" nameThenPhone "internal_reviewer"
      { minScore := 50 } := by
  intro complete
  exact complete.reported "박서준010-4412-7788" [] (by decide)
    ⟨⟨3, 16, "contact.phone", 98, "010-4412-7788"⟩,
    ⟨by decide, by decide, by decide⟩, by decide⟩ rfl

end AgentLabs.GuardLab
