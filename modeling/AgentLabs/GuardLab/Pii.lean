import AgentLabs.GuardLab.Disclosure
import AgentLabs.Text.Regex
import Mathlib.Data.Rat.Cast.Order
import Mathlib.Tactic.NormNum

/-!
# Finding personal data

Four expressions are searched for in a text, each on its own: addresses of electronic mail,
phone numbers, national identity numbers and card numbers. What an expression finds is a span
under its label, and none of the labels is one that an audience may see. So masking removes
something exactly if some part of the text matches, whatever the spans that are found hide
of each other.

What counts as a digit outside the classes that are spelled out is a parameter.

## Main definitions

* `regexRules`: the expressions and their labels
* `scanRegex`, `PIIGuard`: the spans that are found, and the signal of a guard
* `Clean`: no part of a text matches

## Main results

* `scanRegex_eq_nil_iff`: nothing is found exactly in a clean text
* `clean_of_maskForAudience`: a text that masking leaves alone is clean
-/

namespace AgentLabs.GuardLab

open Math Text

/-! ### Rules -/

/-- The letters `A-Za-z`. -/
def isAsciiLetter (c : Char) : Bool := ('A' ≤ c && c ≤ 'Z') || ('a' ≤ c && c ≤ 'z')

/-- The digits `0-9`. -/
def isAsciiDigit (c : Char) : Bool := '0' ≤ c && c ≤ '9'

/-- `[A-Za-z0-9._%+-]+@[A-Za-z0-9.-]+\.[A-Za-z]{2,}`. -/
def emailPattern : Regex :=
  .run (fun c => isAsciiLetter c || isAsciiDigit c || c ∈ ['.', '_', '%', '+', '-']) 1 none ++
    .lit '@' ++ .run (fun c => isAsciiLetter c || isAsciiDigit c || c ∈ ['.', '-']) 1 none ++
    .lit '.' ++ .run isAsciiLetter 2 none

section

variable (digit : Char → Bool)

/-- `\d{n}`. -/
def digits (n : ℕ) : Regex := .run digit n (some n)

/-- `01[016789]-?\d{3,4}-?\d{4}`. -/
def phonePattern : Regex :=
  .lit '0' ++ .lit '1' ++ .one (fun c => c ∈ ['0', '1', '6', '7', '8', '9']) ++
    .run (· == '-') 0 (some 1) ++ .run digit 3 (some 4) ++
    .run (· == '-') 0 (some 1) ++ digits digit 4

/-- `\d{6}-[1-4]\d{6}`. -/
def nationalIdPattern : Regex :=
  digits digit 6 ++ .lit '-' ++ .one (fun c => '1' ≤ c && c ≤ '4') ++ digits digit 6

/-- `(?:\d{4}-){3}\d{4}`. -/
def cardPattern : Regex := .times 3 (digits digit 4 ++ .lit '-') ++ digits digit 4

/-- `REGEX_RULES`. -/
def regexRules : List (String × Regex) :=
  [("contact.email", emailPattern), ("contact.phone", phonePattern digit),
    ("identity.national_id", nationalIdPattern digit), ("financial.card", cardPattern digit)]

/-- The spans that one rule finds. -/
def ruleSpans (text : String) (rule : String × Regex) : List (Span ℚ) :=
  (rule.2.finditer text.toList).map fun found =>
    ⟨found.1, found.2, rule.1, 1, String.ofList ((text.toList.take found.2).drop found.1)⟩

/-- `_scan_regex`. -/
def scanRegex (text : String) : List (Span ℚ) :=
  ((regexRules digit).flatMap (ruleSpans text)).insertionSort Span.KeyLe

/-- No part of the text matches a rule. -/
def Clean (text : String) : Prop := ∀ rule ∈ regexRules digit, ¬ rule.2.Occurs text.toList

end

/-! ### Guards -/

/-- A guard for personal data: a scan gives spans or raises a runtime error. -/
structure PIIGuard where
  scan : String → Except String (List (Span ℚ))

/-- `PIIGuard.signal`. A scan that raised has found out nothing. -/
def PIIGuard.signal (pii : PIIGuard) (text : String) : GuardSignal ℚ :=
  match pii.scan text with
  | .error message => { status := .unknown, detail := message }
  | .ok spans => { status := .ok, evidenceSpans := spans }

/-- A guard in mode `regex`, with the texts on which its scan raises. -/
def regexGuard (digit : Char → Bool) (fault : String → Option String) : PIIGuard where
  scan text :=
    match fault text with
    | some message => .error message
    | none => .ok (scanRegex digit text)

/-- `DisclosurePolicy()`. -/
def defaultPolicy : DisclosurePolicy ℚ := { minScore := 1 / 2 }

/-! ### What is found -/

section

variable {digit : Char → Bool} {text audience result : String} {removed : List String}

theorem not_matches_nil_of_mem_regexRules {rule : String × Regex} (h : rule ∈ regexRules digit) :
    ¬ rule.2.Matches [] := by
  simp only [regexRules, List.mem_cons, List.not_mem_nil, or_false] at h
  rcases h with rfl | rfl | rfl | rfl
  · exact Regex.not_matches_nil_append (.inr (Regex.not_matches_nil_run Nat.two_pos))
  all_goals exact Regex.not_matches_nil_append (.inr (Regex.not_matches_nil_run (by decide)))

theorem mem_scanRegex {s : Span ℚ} : s ∈ scanRegex digit text ↔
    ∃ rule ∈ regexRules digit, s ∈ ruleSpans text rule := by
  rw [scanRegex, List.mem_insertionSort, List.mem_flatMap]

/-- **Nothing is found exactly in a clean text.** -/
theorem scanRegex_eq_nil_iff : scanRegex digit text = [] ↔ Clean digit text := by
  rw [List.eq_nil_iff_forall_not_mem]
  simp only [mem_scanRegex, not_exists, not_and]
  constructor
  · intro none rule listed
    rw [← Regex.finditer_eq_nil_iff (not_matches_nil_of_mem_regexRules listed)]
    exact List.map_eq_nil_iff.mp (List.eq_nil_iff_forall_not_mem.mpr fun s => none s rule listed)
  · intro clean s rule listed found
    rw [ruleSpans, (Regex.finditer_eq_nil_iff (not_matches_nil_of_mem_regexRules listed)).mpr
      (clean rule listed)] at found
    exact absurd found List.not_mem_nil

instance : Decidable (Clean digit text) := decidable_of_iff _ scanRegex_eq_nil_iff

example : ¬ Clean Char.isDigit "call 010-4412-7788" := by decide +kernel

/-- A span that is found lies in the text, is not empty, and has the label of a rule. -/
theorem span_of_mem_scanRegex {s : Span ℚ} (h : s ∈ scanRegex digit text) :
    s.start < s.stop ∧ s.stop ≤ text.length ∧ s.score = 1 ∧
      s.label ∈ (regexRules digit).map Prod.fst := by
  obtain ⟨rule, listed, found⟩ := mem_scanRegex.mp h
  obtain ⟨⟨i, j⟩, occurs, rfl⟩ := List.mem_map.mp found
  obtain ⟨before, m, after, whole, matched, rfl, rfl⟩ := Regex.exists_of_mem_finditer occurs
  refine ⟨?_, ?_, rfl, List.mem_map_of_mem listed⟩
  · have nonempty : m ≠ [] := by
      rintro rfl
      exact not_matches_nil_of_mem_regexRules listed matched
    have long := List.length_pos_iff.mpr nonempty
    dsimp only
    omega
  · rw [← String.length_toList, whole, List.length_append, List.length_append]
    dsimp only
    omega

theorem inText_scanRegex : InText text (scanRegex digit text) := by
  intro s found
  obtain ⟨nonempty, inside, -⟩ := span_of_mem_scanRegex found
  exact ⟨nonempty.le, inside⟩

/-- No audience may see what the rules find. -/
theorem label_not_mem_allowed {s : Span ℚ} (h : s ∈ scanRegex digit text) :
    s.label ∉ defaultPolicy.allowed audience := by
  obtain ⟨-, -, -, labelled⟩ := span_of_mem_scanRegex h
  have names : ∀ label ∈ defaultPolicy.allowed audience, label = "identity.person_name" := by
    intro label allowed
    unfold DisclosurePolicy.allowed at allowed
    cases listed : defaultPolicy.allowedByAudience.get? audience with
    | none =>
      rw [listed] at allowed
      exact absurd allowed List.not_mem_nil
    | some labels =>
      rw [listed] at allowed
      have entry := Dict.mem_of_get?_eq_some listed
      simp only [defaultPolicy, List.mem_cons, Prod.mk.injEq, List.not_mem_nil, or_false] at entry
      rcases entry with ⟨-, rfl⟩ | ⟨-, rfl⟩ | ⟨-, rfl⟩
      all_goals exact List.mem_singleton.mp allowed
  intro allowed
  rw [names _ allowed] at labelled
  simp [regexRules] at labelled

/-- Masking what the rules find is complete, since whatever prevails is hidden. -/
theorem maskingComplete_scanRegex :
    MaskingComplete text (scanRegex digit text) audience defaultPolicy := by
  refine (maskingComplete_iff inText_scanRegex).mpr (.inr ?_)
  intro s sensitive nonempty w prevails
  obtain ⟨before, after, split, -⟩ := prevails.first
  have kept : w ∈ keptInOrder (scanRegex digit text) defaultPolicy.minScore := by
    rw [split]
    exact List.mem_append_right _ List.mem_cons_self
  exact label_not_mem_allowed (mem_keptInOrder.mp kept).1

/-- In a text that is not clean, something is found that the audience may not see. -/
theorem exists_sensitive (h : ¬ Clean digit text) :
    ∃ s, Sensitive (scanRegex digit text) audience defaultPolicy s ∧ s.start < s.stop := by
  rw [← scanRegex_eq_nil_iff] at h
  obtain ⟨s, found⟩ := List.exists_mem_of_ne_nil _ h
  obtain ⟨nonempty, -, score, -⟩ := span_of_mem_scanRegex found
  refine ⟨s, ⟨found, ?_, label_not_mem_allowed found⟩, nonempty⟩
  rw [score, defaultPolicy]
  norm_num

/-- **A text that masking leaves alone is clean.** -/
theorem clean_of_maskForAudience
    (masked : maskForAudience text (scanRegex digit text) audience defaultPolicy =
      .ok (result, [])) :
    Clean digit text := by
  by_contra dirty
  exact maskingComplete_scanRegex.reported result [] masked (exists_sensitive dirty) rfl

/-- What is clean is clean in every part. -/
theorem Clean.of_infix {part : String} (clean : Clean digit text)
    (h : part.toList <:+: text.toList) : Clean digit part := by
  intro rule listed occurs
  exact clean rule listed (occurs.of_infix h)

end

end AgentLabs.GuardLab
