import AgentLabs.GuardLab.Input
import AgentLabs.GuardLab.Pii

/-!
# The final answer

Before the answer of a run goes back to the user, the last message of the model is scanned for
personal data, and what is found is written over by its label in brackets. No rule has a
bracket in any of its classes, so nothing that matches reaches over a label, and no label has
the digits or the `@` that every rule needs. What is left between the labels is text in which
nothing was found: a search comes to every place where a match starts, or has passed over it
with a match that has been written over. So nothing matches in the masked answer, and a second
scan leaves it alone.

## Main definitions

* `OutputGuard.afterAgent`: `OutputGuardMiddleware.after_agent`
* `AsciiDigits`: of ASCII, only `0` to `9` are digits

## Main results

* `clean_masked`: the masked text is clean
* `afterAgent_clean`: the answer is clean, and the guard leaves it alone from then on
-/

namespace AgentLabs.GuardLab

open Math Text

/-! ### The middleware -/

/-- The message is one of the model. A system prompt is no part of the messages of a state. -/
def Message.isAnswer (m : Message) : Bool :=
  match m.kind with
  | .other => true
  | _ => false

/-- The last message of the model. -/
def lastAnswer (messages : List Message) : Option Message := messages.reverse.find? Message.isAnswer

/-- The log that the middleware writes to, and how often it has asked its guard. -/
structure OutputState where
  log : RunLog
  guardCalls : ℕ := 0

/-- `OutputGuardMiddleware`. -/
structure OutputGuard where
  pii : PIIGuard
  policy : DisclosurePolicy ℚ := defaultPolicy
  agentName : String := "main"

namespace OutputGuard

variable (g : OutputGuard)

/-- An entry of the log under the name of the agent that the middleware was made for. -/
def record (s : OutputState) (decision : PolicyDecision) : OutputState :=
  { log :=
      { RunLog.recordDecision { s.log with currentAgent := g.agentName } "output" decision "" with
        currentAgent := s.log.currentAgent }
    guardCalls := s.guardCalls + 1 }

/-- The answer of an id, with another text. -/
def answer (id : Option String) (text : String) : Message := ⟨id, .other, .text text⟩

/-- `after_agent`: a message that takes the place of the last answer, or none. -/
def afterAgent (messages : List Message) (s : OutputState) :
    Except PyError (Option Message) × OutputState :=
  match lastAnswer messages with
  | none => (.ok none, s)
  | some last =>
    match last.content with
    | .blocks _ => (.ok none, s)
    | .text text =>
      if text = "" then (.ok none, s)
      else
        let signal := g.pii.signal text
        if signal.status = .unknown then
          (.ok (some (answer last.id "[검토 필요] 출력 검사기가 응답하지 않아 답변을 보류합니다.")),
            g.record s
              { action := .review, reasonCode := "PII_GUARD_UNKNOWN", detail := signal.detail })
        else
          match maskForAudience text signal.evidenceSpans "user" g.policy with
          | .error e => (.error e, { s with guardCalls := s.guardCalls + 1 })
          | .ok (masked, removed) =>
            if removed ≠ [] then
              (.ok (some (answer last.id masked)),
                g.record s
                  { action := .transform, reasonCode := "PII_IN_ANSWER", riskLabels := removed })
            else (.ok none, g.record s { action := .allow, reasonCode := "ANSWER_CLEAN" })

end OutputGuard

/-! ### Characters that labels and rules do not share -/

section

variable {digit : Char → Bool} {rule : String × Regex} {c : Char}

/-- Of the characters of ASCII, only `0` to `9` are digits. -/
def AsciiDigits (digit : Char → Bool) : Prop := ∀ c : Char, c.toNat < 128 → digit c → isAsciiDigit c

theorem AsciiDigits.eq_false (digits : AsciiDigits digit) (ascii : c.toNat < 128)
    (other : isAsciiDigit c = false) : digit c = false := by
  by_contra inside
  rw [Bool.not_eq_false] at inside
  rw [digits c ascii inside] at other
  cases other

/-- No rule has a bracket in one of its classes. -/
theorem avoids_of_mem_regexRules (digits : AsciiDigits digit) (bracket : c = '[' ∨ c = ']')
    (listed : rule ∈ regexRules digit) : rule.2.Avoids c := by
  have none : digit c = false := by
    rcases bracket with rfl | rfl <;> exact digits.eq_false (by decide) (by decide)
  simp only [regexRules, List.mem_cons, List.not_mem_nil, or_false] at listed
  rcases listed with rfl | rfl | rfl | rfl <;>
    simp only [emailPattern, phonePattern, nationalIdPattern, cardPattern, GuardLab.digits,
      Regex.lit, Regex.one, Regex.avoids_append, Regex.avoids_times, Regex.avoids_run, none] <;>
    rcases bracket with rfl | rfl <;> decide

/-- Every rule needs an `@` or a digit. -/
theorem needs_of_mem_regexRules (listed : rule ∈ regexRules digit) :
    rule.2.Needs fun c => c = '@' ∨ digit c ∨ isAsciiDigit c := by
  simp only [regexRules, List.mem_cons, List.not_mem_nil, or_false] at listed
  have run : ∀ {n : ℕ}, 0 < n → (GuardLab.digits digit n).Needs fun c =>
      c = '@' ∨ digit c ∨ isAsciiDigit c := fun some =>
    Regex.needs_run some fun c inside => .inr (.inl inside)
  rcases listed with rfl | rfl | rfl | rfl
  · refine Regex.needs_append_left (Regex.needs_append_left (Regex.needs_append_left
      (Regex.needs_append_right (Regex.needs_run Nat.one_pos fun c inside => .inl ?_))))
    simpa using inside
  all_goals exact Regex.needs_append_right (run (by decide))

end

/-! ### Text between labels -/

section

variable {r : Regex} {text : List Char} {position : ℕ} {patches : List (Patch Char)}

theorem le_start_of_separated (separated : Separated text position patches) :
    ∀ p ∈ patches, position ≤ p.start := by
  induction patches generalizing position with
  | nil => simp
  | cons p rest ih =>
    obtain ⟨after, ordered, -, later⟩ := separated
    rw [List.forall_mem_cons]
    exact ⟨after, fun q listed => after.trans (ordered.trans (ih later q listed))⟩

/-- A match in what is left from a position on starts in one of the segments that follow, if all
that start there do. -/
theorem exists_patch_of_matches (proper : ¬ r.Matches [])
    (covered : ∀ before m after, text = before ++ m ++ after → r.Matches m →
      position ≤ before.length → ∃ p ∈ patches, p.start ≤ before.length ∧ before.length < p.stop)
    {k : ℕ} {before m after : List Char}
    (whole : (text.drop position).take k = before ++ m ++ after) (matched : r.Matches m) :
    ∃ p ∈ patches, p.start ≤ position + before.length ∧ position + before.length < p.stop ∧
      position + before.length < position + k := by
  have nonempty : m ≠ [] := fun empty => proper (empty ▸ matched)
  have long := congrArg List.length whole
  have inside := List.length_pos_iff.mpr nonempty
  simp only [List.length_take, List.length_drop, List.length_append] at long
  have front : (text.take position ++ before).length = position + before.length := by
    rw [List.length_append, List.length_take]
    omega
  have split : text = text.take position ++ before ++ m ++
      (after ++ (text.drop position).drop k) := by
    conv_lhs => rw [← List.take_append_drop position text,
      ← List.take_append_drop k (text.drop position), whole]
    simp only [List.append_assoc]
  obtain ⟨p, listed, start, stop⟩ := covered _ m _ split matched (by omega)
  rw [front] at start stop
  exact ⟨p, listed, start, stop, by omega⟩

/-- Where every match starts inside a replaced segment, and what it is replaced by has brackets
around a text that nothing matches in, nothing matches in the whole. -/
theorem not_occurs_spliceFrom (proper : ¬ r.Matches []) (opening : r.Avoids '[')
    (closing : r.Avoids ']') (separated : Separated text position patches)
    (labelled : ∀ p ∈ patches, ∃ label, p.content = '[' :: (label ++ [']']) ∧ ¬ r.Occurs label)
    (covered : ∀ before m after, text = before ++ m ++ after → r.Matches m →
      position ≤ before.length → ∃ p ∈ patches, p.start ≤ before.length ∧ before.length < p.stop) :
    ¬ r.Occurs (spliceFrom text position patches) := by
  induction patches generalizing position with
  | nil =>
    intro occurs
    obtain ⟨before, m, after, whole, matched⟩ := occurs
    rw [spliceFrom] at whole
    obtain ⟨p, listed, -⟩ := exists_patch_of_matches proper covered
      ((List.take_of_length_le le_rfl).trans whole) matched
    cases listed
  | cons p rest ih =>
    obtain ⟨after, ordered, inside, later⟩ := separated
    rw [List.forall_mem_cons] at labelled
    obtain ⟨⟨label, content, free⟩, others⟩ := labelled
    rw [spliceFrom, content, List.append_assoc, List.cons_append, List.append_assoc]
    intro occurs
    rcases Regex.occurs_append_cons opening occurs with residue | behind
    · -- The segment that covers the start of the match begins before the next label does.
      obtain ⟨before, m, after', whole, matched⟩ := residue
      obtain ⟨q, listed, start, -, near⟩ := exists_patch_of_matches proper covered whole matched
      rcases List.mem_cons.mp listed with rfl | listed
      · omega
      · have := le_start_of_separated later q listed
        omega
    · rcases Regex.occurs_append_cons closing behind with within | tail
      · exact free within
      · refine ih later others (fun before m after' whole matched far => ?_) tail
        obtain ⟨q, listed, start, stop⟩ := covered before m after' whole matched
          (after.trans (ordered.trans far))
        rcases List.mem_cons.mp listed with rfl | listed
        · omega
        · exact ⟨q, listed, start, stop⟩

end

/-! ### Masked texts -/

section

variable {digit : Char → Bool} {text audience result : String} {removed : List String}

/-- No label has what the rules need. -/
theorem not_occurs_label (digits : AsciiDigits digit) {rule : String × Regex}
    (listed : rule ∈ regexRules digit) {label : String}
    (named : label ∈ (regexRules digit).map Prod.fst) : ¬ rule.2.Occurs label.toList := by
  refine (needs_of_mem_regexRules listed).not_occurs fun c member => ?_
  have plain : (label.toList.all fun c => decide (c.toNat < 128) && !(isAsciiDigit c) && c != '@') =
      true := by
    simp only [regexRules, List.map_cons, List.map_nil, List.mem_cons, List.not_mem_nil, or_false]
      at named
    rcases named with rfl | rfl | rfl | rfl <;> decide
  have := List.all_eq_true.mp plain c member
  simp only [Bool.and_eq_true, decide_eq_true_eq, Bool.not_eq_true', bne_iff_ne] at this
  rw [not_or, not_or, this.1.2, digits.eq_false this.1.1 this.1.2]
  exact ⟨this.2, Bool.false_ne_true, Bool.false_ne_true⟩

/-- A match starts in a segment that is replaced. -/
theorem exists_replaced_of_matches
    (masked : maskForAudience text (scanRegex digit text) audience defaultPolicy =
      .ok (result, removed)) {rule : String × Regex} (listed : rule ∈ regexRules digit)
    {before m after : List Char} (whole : text.toList = before ++ m ++ after)
    (matched : rule.2.Matches m) :
    ∃ s ∈ replacedSegments (scanRegex digit text) audience defaultPolicy,
      s.start ≤ before.length ∧ before.length < s.stop := by
  obtain ⟨i, j, found, start, stop⟩ := Regex.exists_finditer_of_matches
    (not_matches_nil_of_mem_regexRules listed) matched
  rw [← whole] at found
  have scanned : (⟨i, j, rule.1, 1, String.ofList ((text.toList.take j).drop i)⟩ : Span ℚ) ∈
      scanRegex digit text := mem_scanRegex.mpr
      ⟨rule, listed, List.mem_map.mpr ⟨(i, j), found, rfl⟩⟩
  obtain ⟨-, -, -, covered⟩ := maskingComplete_scanRegex.covered result removed masked
  refine covered _ ⟨scanned, ?_, label_not_mem_allowed scanned⟩ before.length start stop
  rw [defaultPolicy]
  norm_num

/-- A segment that is replaced has the label of a rule. -/
theorem label_of_mem_replacedSegments {s : Span ℚ}
    (replaced : s ∈ replacedSegments (scanRegex digit text) audience defaultPolicy) :
    s.label ∈ (regexRules digit).map Prod.fst := by
  obtain ⟨joined, -⟩ := mem_replacedSegments.mp replaced
  obtain ⟨_, _, w, prevails, same⟩ := exists_prevails_of_mem_mergeSpans inText_scanRegex joined
  obtain ⟨before, after, split, -⟩ := prevails.first
  have kept : w ∈ keptInOrder (scanRegex digit text) defaultPolicy.minScore := by
    rw [split]
    exact List.mem_append_right _ List.mem_cons_self
  rw [same]
  exact (span_of_mem_scanRegex (mem_keptInOrder.mp kept).1).2.2.2

theorem exists_of_forall₂ {α β : Type} {R : α → β → Prop} {as : List α} {bs : List β}
    (related : List.Forall₂ R as bs) :
    (∀ b ∈ bs, ∃ a ∈ as, R a b) ∧ ∀ a ∈ as, ∃ b ∈ bs, R a b := by
  induction related with
  | nil => simp
  | cons first _ ih =>
    refine ⟨List.forall_mem_cons.mpr ⟨⟨_, .head _, first⟩, fun b member => ?_⟩,
      List.forall_mem_cons.mpr ⟨⟨_, .head _, first⟩, fun a member => ?_⟩⟩
    · obtain ⟨a, listed, holds⟩ := ih.1 b member
      exact ⟨a, .tail _ listed, holds⟩
    · obtain ⟨b, listed, holds⟩ := ih.2 a member
      exact ⟨b, .tail _ listed, holds⟩

/-- **The masked text is clean.** -/
theorem clean_masked (digits : AsciiDigits digit)
    (masked : maskForAudience text (scanRegex digit text) audience defaultPolicy =
      .ok (result, removed)) : Clean digit result := by
  obtain ⟨patches, renders, rfl, -⟩ := (maskForAudience_eq_ok_iff inText_scanRegex).mp masked
  obtain ⟨back, forth⟩ := exists_of_forall₂ renders
  intro rule listed
  rw [String.toList_ofList, splice]
  refine not_occurs_spliceFrom (not_matches_nil_of_mem_regexRules listed)
    (avoids_of_mem_regexRules digits (.inl rfl) listed)
    (avoids_of_mem_regexRules digits (.inr rfl) listed) ?_ ?_ ?_
  · refine separated_of_renders renders ((pairwise_apart_mergeSpans inText_scanRegex).filter _) ?_
      fun _ _ => Nat.zero_le _
    intro s replaced
    rw [String.length_toList]
    exact inText_mergeSpans inText_scanRegex s (mem_replacedSegments.mp replaced).1
  · intro p member
    obtain ⟨s, replaced, -, -, rendered⟩ := back p member
    refine ⟨s.label.toList, ?_, not_occurs_label digits listed
      (label_of_mem_replacedSegments replaced)⟩
    have content := congrArg String.toList (Except.ok.inj rendered)
    rw [String.toList_ofList] at content
    rw [← content]
    simp
  -- A match of the old text lies in a span that was replaced.
  · intro before m after whole matched _
    obtain ⟨s, replaced, start, stop⟩ := exists_replaced_of_matches masked listed whole matched
    obtain ⟨p, member, start', stop', -⟩ := forth s replaced
    exact ⟨p, member, start' ▸ start, stop' ▸ stop⟩

/-- The labels of the default policy can always be rendered. -/
theorem exists_masked (digit : Char → Bool) (text audience : String) : ∃ result removed,
    maskForAudience text (scanRegex digit text) audience defaultPolicy = .ok (result, removed) :=
  (exists_maskForAudience_eq_ok_iff inText_scanRegex audience defaultPolicy).mpr
    fun _ _ fails => fails _ rfl

/-- A clean text is left alone. -/
theorem masked_of_clean (clean : Clean digit text) :
    maskForAudience text (scanRegex digit text) audience defaultPolicy = .ok (text, []) := by
  rw [scanRegex_eq_nil_iff.mpr clean]
  refine (maskForAudience_eq_ok_iff fun s listed => absurd listed List.not_mem_nil).mpr
    ⟨[], .nil, ?_, rfl⟩
  simp [splice, spliceFrom]

/-! ### The last answer -/

variable {messages : List Message} {m last : Message}

theorem lastAnswer_cons (first : Message) (rest : List Message) :
    lastAnswer (first :: rest) =
      (lastAnswer rest).or (if first.isAnswer then some first else none) := by
  rw [lastAnswer, List.reverse_cons, List.find?_append, lastAnswer, List.find?_cons, List.find?_nil]
  cases first.isAnswer <;> rfl

/-- A message with the id of the last answer is the last answer then. -/
theorem lastAnswer_addMessage (answer : m.isAnswer)
    (same : ∀ last, lastAnswer messages = some last → last.id = m.id) :
    lastAnswer (addMessage messages m) = some m := by
  induction messages with
  | nil => simp [addMessage, lastAnswer, answer]
  | cons first rest ih =>
    have inRest : ∀ last, lastAnswer rest = some last → last.id = m.id := fun last found =>
      same last (by rw [lastAnswer_cons, found]; rfl)
    rw [addMessage]
    split_ifs with here
    · have none : lastAnswer rest = none := by
        rw [Option.eq_none_iff_forall_ne_some]
        intro last found
        have member : last ∈ rest := List.mem_reverse.mp (List.mem_of_find?_eq_some found)
        exact here.2.2 last member (inRest last found)
      rw [lastAnswer_cons, none, answer]
      rfl
    · rw [lastAnswer_cons, ih inRest]
      rfl

/-- The middleware with a guard in mode `regex`, which never raises. -/
def regexOutput (digit : Char → Bool) : OutputGuard :=
  { pii := regexGuard digit fun _ => none }

/-- What the middleware does to an answer that is a text. -/
theorem afterAgent_eq (found : lastAnswer messages = some last)
    (content : last.content = .text text)
    (masked : maskForAudience text (scanRegex digit text) "user" defaultPolicy =
      .ok (result, removed)) (s : OutputState) :
    ∃ s', (regexOutput digit).afterAgent messages s =
      (.ok (if text = "" ∨ removed = [] then none else some (OutputGuard.answer last.id result)),
        s') := by
  simp only [OutputGuard.afterAgent, found, content]
  by_cases empty : text = ""
  · rw [if_pos empty, if_pos (.inl empty)]
    exact ⟨s, rfl⟩
  · rw [if_neg empty]
    have signal : (regexOutput digit).pii.signal text =
        { status := .ok, evidenceSpans := scanRegex digit text } := rfl
    have policy : (regexOutput digit).policy = defaultPolicy := rfl
    simp only [signal, policy, masked, reduceCtorEq, if_false, empty, false_or]
    by_cases none : removed = []
    · rw [if_neg (not_not.mpr none), if_pos none]
      exact ⟨_, rfl⟩
    · rw [if_pos none, if_neg none]
      exact ⟨_, rfl⟩

theorem clean_empty : Clean digit "" := fun _ listed occurs => by
  obtain ⟨before, m, after, whole, matched⟩ := occurs
  have none := (List.append_eq_nil_iff.mp (List.append_eq_nil_iff.mp whole.symm).1).2
  exact not_matches_nil_of_mem_regexRules listed (none ▸ matched)

/-- A clean answer is left alone. -/
theorem afterAgent_of_clean (found : lastAnswer messages = some last)
    (content : last.content = .text text) (clean : Clean digit text) (s : OutputState) :
    ∃ s', (regexOutput digit).afterAgent messages s = (.ok none, s') := by
  obtain ⟨s', ran⟩ := afterAgent_eq found content (masked_of_clean clean) s
  exact ⟨s', by rwa [if_pos (.inr rfl)] at ran⟩

/-- **The final answer is clean**, and the guard leaves it alone from then on. -/
theorem afterAgent_clean (digits : AsciiDigits digit) (found : lastAnswer messages = some last)
    (content : last.content = .text text) (s : OutputState) :
    ∃ update s' final answer, (regexOutput digit).afterAgent messages s = (.ok update, s') ∧
      lastAnswer (addMessages messages update.toList) = some final ∧
      final.content = .text answer ∧ Clean digit answer ∧
      ∀ s, ∃ s', (regexOutput digit).afterAgent (addMessages messages update.toList) s =
        (.ok none, s') := by
  obtain ⟨result, removed, masked⟩ := exists_masked digit text "user"
  obtain ⟨s', ran⟩ := afterAgent_eq found content masked s
  by_cases left : text = "" ∨ removed = []
  · rw [if_pos left] at ran
    have clean : Clean digit text := by
      rcases left with rfl | rfl
      · exact clean_empty
      · exact clean_of_maskForAudience masked
    exact ⟨none, s', last, text, ran, found, content, clean,
      afterAgent_of_clean found content clean⟩
  · rw [if_neg left] at ran
    have last' : lastAnswer (addMessages messages [OutputGuard.answer last.id result]) =
        some (OutputGuard.answer last.id result) := by
      refine lastAnswer_addMessage rfl fun other again => ?_
      rw [← Option.some.inj (found.symm.trans again)]
      rfl
    have clean := clean_masked digits masked
    exact ⟨_, s', _, result, ran, last', rfl, clean, afterAgent_of_clean last' rfl clean⟩

theorem asciiDigits_isDecimal : AsciiDigits isDecimal := by
  intro c ascii decimal
  obtain ⟨z, listed, inside⟩ := List.any_eq_true.mp decimal
  simp only [Bool.and_eq_true, decide_eq_true_eq] at inside
  have zeros : ∀ z ∈ decimalZeros, z = 0x30 ∨ 128 ≤ z := by decide
  rcases zeros z listed with rfl | large
  · have low : '0' ≤ c := inside.1
    have high : c ≤ '9' := Nat.le_of_lt_succ inside.2
    simp [isAsciiDigit, low, high]
  · omega

/-- An answer with a phone number and an address that touch. -/
def reachMe : Message := ⟨some "a1", .other, .text "Call 010-4412-7788a@b.co now"⟩

theorem afterAgent_clean_reachMe : ∃ update s' final answer,
    (regexOutput isDecimal).afterAgent [reachMe] { log := {} } = (.ok update, s') ∧
      lastAnswer (addMessages [reachMe] update.toList) = some final ∧
      final.content = .text answer ∧ Clean isDecimal answer ∧
      ∀ s, ∃ s', (regexOutput isDecimal).afterAgent (addMessages [reachMe] update.toList) s =
        (.ok none, s') :=
  afterAgent_clean asciiDigits_isDecimal rfl rfl _

end

end AgentLabs.GuardLab
