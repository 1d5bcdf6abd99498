import AgentLabs.Math.Slices
import AgentLabs.Math.Fallible
import AgentLabs.Rag.Evidence
import AgentLabs.Text.Lines
import Mathlib.Data.Set.Function

/-!
# Coordinates of evidence

Documents are read in windows of lines. A quotation carries the range of its lines in the document
and the digest of a window, and before it is remembered it is looked for in these lines of that
window.

A window is recorded under its document and its digest, so that of the windows with one text only
the last one is known, with its offset. The lines of the others are looked for in the wrong place.

## Main definitions

* `ReadCall`, `windowsOf`: reads, and the windows that they record
* `remember`: the check of some quotations
* `CoordinateLaw`: what is wanted of the reads and the check
* `LastInPlace`: the last window with a text is where every window with it is

## Main results

* `get?_windowsOf_iff`: the window that is recorded
* `occursIn_of_checkItem`: what is accepted is in the document
* `coordinateLaw_iff`: what is wanted holds if the last windows are in place
-/

namespace AgentLabs.Rag

open Math Text

/-! ### Windows -/

/-- A call of `RecordingClient.read`, which the meter may not let through. -/
structure ReadCall where
  uri : String
  offset : ℤ := 0
  limit : ℤ := 80
  metered : Bool := true

/-- What can end a read or a check. -/
inductive CoordinateError where
  | budget
  | key
  | coordinates
  deriving DecidableEq

/-- The texts of the documents, as they are read: whatever ends a line in the file is a line feed
in the text. -/
abbrev Documents := Dict String String

/-- `LocalClient.read`. -/
def readDocument (documents : Documents) (uri : String) (offset limit : ℤ) :
    Except CoordinateError String :=
  (documents.get? uri).elim (.error .key) fun text =>
    .ok (.ofList (pySlice (splitLinesKeepEnds text.toList) offset (offset + limit)).flatten)

/-- The windows that were read, with their offsets, under their documents and digests. -/
abbrev Windows := Dict (String × String) (String × ℤ)

/-- `RecordingClient.read`. -/
def ReadCall.read (digest : String → String) (documents : Documents) (windows : Windows)
    (call : ReadCall) :
    Except CoordinateError String × Windows :=
  if call.metered then
    match readDocument documents call.uri call.offset call.limit with
    | .ok raw => (.ok raw, windows.set (call.uri, digest raw) (raw, call.offset))
    | .error e => (.error e, windows)
  else (.error .budget, windows)

/-- The windows after some calls. -/
def windowsOf (digest : String → String) (documents : Documents) (calls : List ReadCall) :
    Windows :=
  calls.foldl (fun windows call => (call.read digest documents windows).2) []

/-! ### Quotations -/

/-- The check of `remember` of one quotation. -/
def checkItem (digest : String → String) (windows : Windows) (e : Evidence) :
    Except CoordinateError Unit :=
  match windows.get? (e.uri, e.contentSha256) with
  | none => .error .key
  | some (raw, offset) =>
    let lines := splitLinesKeepEnds raw.toList
    let start := e.startLine - offset - 1
    let stop := e.endLine - offset
    if ¬ (0 ≤ start ∧ start < stop ∧ stop ≤ lines.length) ∨
      ¬ e.quote.toList <:+: (pySlice lines start stop).flatten ∨
        digest raw ≠ e.contentSha256 then .error .coordinates
    else .ok ()

/-- `Backend.remember`, with what is remembered afterwards. -/
def remember (digest : String → String) (windows : Windows) (items : List Evidence)
    (evidence : Dict String Evidence) : Except CoordinateError Unit × Dict String Evidence :=
  match items.forM (checkItem digest windows) with
  | .ok () => (.ok (), evidence.setAll (items.map fun e => (e.evidenceId, e)))
  | .error error => (.error error, evidence)

/-! ### What is wanted -/

/-- The text that a call reads, if it does read one. -/
def ReadCall.text? (documents : Documents) (call : ReadCall) : Option String :=
  if call.metered then (readDocument documents call.uri call.offset call.limit).toOption else none

/-- How many lines of the document are before the window. -/
def ReadCall.linesBefore (documents : Documents) (call : ReadCall) : ℕ :=
  sliceIndex (splitLines ((documents.get? call.uri).getD "").toList).length call.offset

/-- The quotation is text of its lines of the document. -/
def OccursIn (documents : Documents) (e : Evidence) : Prop :=
  ∃ text, documents.get? e.uri = some text ∧ e.endLine ≤ (splitLines text.toList).length ∧
    e.quote.toList <:+: lineRange text.toList (e.startLine - 1) (e.endLine - (e.startLine - 1))

/-- The quotation is text of its lines, which are lines of the window that is read, and it has the
digest of the window. -/
structure QuotesWindow (digest : String → String) (documents : Documents) (call : ReadCall)
    (e : Evidence) (raw : String) :
    Prop where
  read : call.text? documents = some raw
  uri : e.uri = call.uri
  hash : e.contentSha256 = digest raw
  start_le : call.linesBefore documents + 1 ≤ e.startLine
  end_le : e.endLine ≤ call.linesBefore documents + (splitLines raw.toList).length
  occurs : OccursIn documents e

/-- What is wanted of the reads and the check: quotations of windows that were read are accepted,
what is accepted is in the document, and after a refusal nothing else is remembered. -/
structure CoordinateLaw (digest : String → String) (documents : Documents) (calls : List ReadCall) :
    Prop where
  complete : ∀ items, (∀ e ∈ items, ∃ call ∈ calls, ∃ raw,
    QuotesWindow digest documents call e raw) →
    ∀ evidence, (remember digest (windowsOf digest documents calls) items evidence).1 = .ok ()
  sound : ∀ items evidence, (remember digest (windowsOf digest documents calls) items evidence).1 =
    .ok () →
    ∀ e ∈ items, OccursIn documents e
  unchanged : ∀ items evidence,
    (remember digest (windowsOf digest documents calls) items evidence).1 ≠ .ok () →
    (remember digest (windowsOf digest documents calls) items evidence).2 = evidence

/-- The call reads this text of the document. -/
def ReadCall.reads (documents : Documents) (uri raw : String) (call : ReadCall) : Bool :=
  call.uri = uri ∧ call.text? documents = some raw

/-- For every window that is not blank, the last call that reads its text from its document is made
with the offset at which the window is. -/
def LastInPlace (documents : Documents) (calls : List ReadCall) : Prop :=
  ∀ call ∈ calls, ∀ raw, call.text? documents = some raw → isBlank raw = false →
    ∀ last ∈ (calls.filter (ReadCall.reads documents call.uri raw)).getLast?,
      last.offset = call.linesBefore documents

/-! ### Lines of a window -/

section Lines

variable {documents : Documents} {call : ReadCall} {raw text : String} {digest : String → String}

theorem text?_eq_some_iff : call.text? documents = some raw ↔
    call.metered ∧ readDocument documents call.uri call.offset call.limit = .ok raw := by
  unfold ReadCall.text?
  cases call.metered <;> cases readDocument documents call.uri call.offset call.limit <;>
    simp [Except.toOption]

/-- A window of a document. -/
structure WindowAt (text : String) (before count : ℕ) (raw : String) : Prop where
  isRange : raw.toList = lineRange text.toList before count
  inside : before + (splitLinesKeepEnds raw.toList).length ≤ (splitLinesKeepEnds text.toList).length

theorem WindowAt.lines {before count : ℕ} (window : WindowAt text before count raw) {s k : ℕ}
    (enough : s + k ≤ (splitLinesKeepEnds raw.toList).length) :
    (((splitLinesKeepEnds raw.toList).drop s).take k).flatten =
      lineRange text.toList (before + s) k := by
  rw [window.isRange, splitLinesKeepEnds_lineRange] at enough ⊢
  rw [List.length_take] at enough
  rw [lineRange, List.drop_take, List.drop_drop, List.take_take, Nat.min_eq_left (by omega)]

/-- What a call reads is a window, after the lines that are before it. -/
theorem exists_window (read : call.text? documents = some raw) :
    ∃ text, documents.get? call.uri = some text ∧
    ∃ count, WindowAt text (call.linesBefore documents) count raw ∧
      (call.offset < 0 → ((splitLinesKeepEnds raw.toList).length : ℤ) ≤ -call.offset) := by
  obtain ⟨-, read⟩ := text?_eq_some_iff.mp read
  unfold readDocument at read
  cases found : documents.get? call.uri with
  | none => simp [found] at read
  | some text =>
    simp only [found, Option.elim_some, Except.ok.injEq] at read
    let lines := splitLinesKeepEnds text.toList
    have before : call.linesBefore documents = sliceIndex lines.length call.offset := by
      rw [ReadCall.linesBefore, found, Option.getD_some, length_splitLines]
    have isRange : raw.toList = lineRange text.toList (call.linesBefore documents)
        (sliceIndex lines.length (call.offset + call.limit) - sliceIndex lines.length
        call.offset) := by
      rw [← read, String.toList_ofList, pySlice_eq, before, lineRange]
    -- The text that was read splits into the very lines of the slice.
    have split : splitLinesKeepEnds raw.toList =
        pySlice lines call.offset (call.offset + call.limit) := by
      rw [isRange, splitLinesKeepEnds_lineRange, pySlice_eq, before]
    refine ⟨text, rfl, _, ⟨isRange, ?_⟩, fun negative => split ▸ length_pySlice_le negative⟩
    have bound := sliceIndex_le lines.length (call.offset + call.limit)
    have first := sliceIndex_le lines.length call.offset
    rw [split, length_pySlice, before]
    change _ ≤ lines.length
    omega

end Lines

/-! ### The windows that are recorded -/

section Recorded

variable {documents : Documents} {calls : List ReadCall} {digest : String → String}
  {uri hash raw : String} {offset : ℤ}

/-- The call reads a text with this digest. -/
def ReadCall.hashes (digest : String → String) (documents : Documents) (uri hash : String)
    (call : ReadCall) : Bool :=
  call.uri = uri ∧ (call.text? documents).map digest = some hash

theorem snd_read (windows : Windows) (call : ReadCall) : (call.read digest documents windows).2 =
    (call.text? documents).elim windows fun raw =>
    windows.set (call.uri, digest raw) (raw, call.offset) := by
  unfold ReadCall.read ReadCall.text?
  cases call.metered <;> cases readDocument documents call.uri call.offset call.limit <;> rfl

/-- **The window that is recorded** is that of the last call that reads a text with the digest. -/
theorem get?_windowsOf : (windowsOf digest documents calls).get? (uri, hash) =
    (calls.filter (ReadCall.hashes digest documents uri hash)).getLast?.bind fun call =>
      (call.text? documents).map fun raw => (raw, call.offset) := by
  induction calls using List.reverseRecOn with
  | nil => rfl
  | append_singleton calls call ih =>
    rw [windowsOf, List.foldl_append, List.foldl_cons, List.foldl_nil, snd_read, List.filter_append]
    cases read : call.text? documents with
    | none =>
      have other : call.hashes digest documents uri hash = false := by simp [ReadCall.hashes, read]
      rw [List.filter_singleton, other, Bool.cond_false, List.append_nil]
      exact ih
    | some raw =>
      rw [Option.elim_some, Dict.get?_set]
      by_cases same : (call.uri, digest raw) = (uri, hash)
      · have here : call.hashes digest documents uri hash := by
          simpa [ReadCall.hashes, read] using same
        rw [if_pos same, List.filter_singleton, here, Bool.cond_true, List.getLast?_append,
          List.getLast?_singleton, Option.some_or, Option.bind_some, read, Option.map_some]
      · have other : call.hashes digest documents uri hash = false := by
          simpa [ReadCall.hashes, read] using same
        rw [if_neg same, List.filter_singleton, other, Bool.cond_false, List.append_nil]
        exact ih

/-- A window that is recorded is read by a call. -/
theorem exists_call_of_get? (found : (windowsOf digest documents calls).get? (uri, hash) =
    some (raw, offset)) :
    ∃ call ∈ calls, call.uri = uri ∧ call.text? documents = some raw ∧ call.offset = offset := by
  rw [get?_windowsOf] at found
  obtain ⟨call, last, found⟩ := Option.bind_eq_some_iff.mp found
  obtain ⟨raw, read, same⟩ := Option.map_eq_some_iff.mp found
  cases same
  obtain ⟨member, hashed⟩ := List.mem_filter.mp (List.mem_of_getLast? last)
  simp only [ReadCall.hashes, decide_eq_true_eq] at hashed
  exact ⟨call, member, hashed.1, read, rfl⟩

/-- Where no two windows have one digest, the last window with the text is recorded. -/
theorem get?_windowsOf_of_read
    (apart : Set.InjOn digest {raw | ∃ call ∈ calls, call.text? documents = some raw})
    {call : ReadCall} (member : call ∈ calls) (read : call.text? documents = some raw) :
    ∃ last ∈ (calls.filter (ReadCall.reads documents call.uri raw)).getLast?,
      (windowsOf digest documents calls).get? (call.uri, digest raw) = some (raw, last.offset) := by
  have same : calls.filter (ReadCall.hashes digest documents call.uri (digest raw)) =
      calls.filter (ReadCall.reads documents call.uri raw) := by
    refine List.filter_congr fun other listed => ?_
    simp only [ReadCall.hashes, ReadCall.reads, decide_eq_decide]
    refine and_congr_right fun _ => ?_
    constructor
    · intro hashed
      obtain ⟨raw', read', equal⟩ := Option.map_eq_some_iff.mp hashed
      rw [read', apart ⟨other, listed, read'⟩ ⟨call, member, read⟩ equal]
    · intro read'
      rw [read', Option.map_some]
  have here : call ∈ calls.filter (ReadCall.reads documents call.uri raw) := by
    simpa [ReadCall.reads, read] using member
  obtain ⟨last, isLast⟩ := Option.isSome_iff_exists.mp
    (List.getLast?_isSome.mpr (List.ne_nil_of_mem here))
  have reads := (List.mem_filter.mp (List.mem_of_getLast? isLast)).2
  simp only [ReadCall.reads, decide_eq_true_eq] at reads
  refine ⟨last, isLast, ?_⟩
  rw [get?_windowsOf, same, isLast, Option.bind_some, reads.2, Option.map_some]

end Recorded

/-! ### The check -/

section Check

variable {documents : Documents} {calls : List ReadCall} {digest : String → String}
  {windows : Windows}
  {raw text : String} {offset : ℤ} {e : Evidence} {call : ReadCall} {items : List Evidence}
  {evidence : Dict String Evidence}

theorem checkItem_eq_ok_iff (found : windows.get? (e.uri, e.contentSha256) = some (raw, offset)) :
    checkItem digest windows e = .ok () ↔
      ((0 ≤ e.startLine - offset - 1 ∧ e.startLine - offset - 1 < e.endLine - offset ∧
          e.endLine - offset ≤ (splitLinesKeepEnds raw.toList).length) ∧
        e.quote.toList <:+:
          (pySlice (splitLinesKeepEnds raw.toList) (e.startLine - offset - 1)
            (e.endLine - offset)).flatten) ∧
      digest raw = e.contentSha256 := by
  simp only [checkItem, found]
  rw [ite_eq_right_iff]
  constructor
  · intro passes
    refine ⟨⟨?_, ?_⟩, ?_⟩ <;> by_contra fails
    · cases passes (.inl fails)
    · cases passes (.inr (.inl fails))
    · cases passes (.inr (.inr fails))
  · rintro ⟨⟨lines, quote⟩, hash⟩ (fails | fails | fails)
    · exact absurd lines fails
    · exact absurd quote fails
    · exact absurd hash fails

/-- The lines of a quotation in the window and in the document. -/
theorem lines_of_window {before count : ℕ} (window : WindowAt text before count raw)
    (start_le : before + 1 ≤ e.startLine)
    (end_le : e.endLine ≤ before + (splitLinesKeepEnds raw.toList).length) :
    (pySlice (splitLinesKeepEnds raw.toList) (e.startLine - before - 1)
      (e.endLine - before)).flatten =
      lineRange text.toList (e.startLine - 1) (e.endLine - (e.startLine - 1)) := by
  have ordered := e.ordered
  have enough : (e.startLine - 1 - before) + (e.endLine - (e.startLine - 1)) ≤
      (splitLinesKeepEnds raw.toList).length := by
    omega
  rw [pySlice_of_le (by omega) (by omega) (by omega)]
  have first : (e.startLine - before - 1 : ℤ).toNat = e.startLine - 1 - before := by omega
  have many : (e.endLine - before - (e.startLine - before - 1) : ℤ).toNat =
      e.endLine - (e.startLine - 1) := by omega
  have there : before + (e.startLine - 1 - before) = e.startLine - 1 := by omega
  rw [first, many, window.lines enough, there]

/-- **What is accepted** is in the document. -/
theorem occursIn_of_checkItem (ok : checkItem digest (windowsOf digest documents calls) e =
    .ok ()) :
    OccursIn documents e := by
  cases found : (windowsOf digest documents calls).get? (e.uri, e.contentSha256) with
  | none => simp [checkItem, found] at ok
  | some window =>
    obtain ⟨raw, offset⟩ := window
    obtain ⟨call, -, sameUri, read, rfl⟩ := exists_call_of_get? found
    obtain ⟨⟨⟨positive, -, inside⟩, occurs⟩, -⟩ := (checkItem_eq_ok_iff found).mp ok
    obtain ⟨text, stored, count, window, negative⟩ := exists_window read
    have start_pos := e.startLine_pos
    have ordered := e.ordered
    -- The offset of a window with these lines is not negative, and the window begins there.
    have atOffset : (call.linesBefore documents : ℤ) = call.offset := by
      have least : 0 ≤ call.offset := by
        by_contra below
        have := negative (by omega)
        omega
      have bound := window.inside
      rw [ReadCall.linesBefore, stored, Option.getD_some, length_splitLines] at bound ⊢
      rw [sliceIndex, if_neg (by omega)] at bound ⊢
      omega
    rw [← atOffset] at positive inside occurs
    have bound := window.inside
    rw [lines_of_window window (by omega) (by omega)] at occurs
    exact ⟨text, sameUri ▸ stored, by rw [length_splitLines]; omega, occurs⟩

/-- A quotation of a window that is recorded in its place is accepted. -/
theorem checkItem_of_quotes (quotes : QuotesWindow digest documents call e raw)
    (found : windows.get? (call.uri, digest raw) = some (raw, (call.linesBefore documents : ℤ))) :
    checkItem digest windows e = .ok () := by
  obtain ⟨text, stored, count, window, -⟩ := exists_window quotes.read
  obtain ⟨text', stored', -, occurs⟩ := quotes.occurs
  rw [quotes.uri, stored, Option.some.injEq] at stored'
  subst stored'
  rw [← quotes.uri, ← quotes.hash] at found
  have start_le := quotes.start_le
  have end_le := quotes.end_le
  have ordered := e.ordered
  rw [length_splitLines] at end_le
  refine (checkItem_eq_ok_iff found).mpr ⟨⟨⟨by omega, by omega, by omega⟩, ?_⟩, quotes.hash.symm⟩
  rw [lines_of_window window start_le end_le]
  exact occurs

/-- A window that is quoted is not blank. -/
theorem isBlank_of_quotes (quotes : QuotesWindow digest documents call e raw) :
    isBlank raw = false := by
  obtain ⟨text, stored, count, window, -⟩ := exists_window quotes.read
  obtain ⟨text', stored', -, occurs⟩ := quotes.occurs
  rw [quotes.uri, stored, Option.some.injEq] at stored'
  subst stored'
  have end_le := quotes.end_le
  rw [length_splitLines] at end_le
  rw [← lines_of_window window quotes.start_le end_le] at occurs
  by_contra blank
  rw [Bool.not_eq_false, isBlank_iff] at blank
  have quoteBlank : isBlank e.quote := isBlank_iff.mpr fun c member => by
    apply blank
    obtain ⟨line, listed, held⟩ := List.mem_flatten.mp (occurs.subset member)
    rw [← flatten_splitLinesKeepEnds raw.toList]
    exact List.mem_flatten.mpr ⟨line, List.mem_of_mem_take (List.mem_of_mem_drop listed), held⟩
  exact e.quote_solid (of_decide_eq_true quoteBlank)

theorem fst_remember : (remember digest windows items evidence).1 = .ok () ↔
    ∀ e ∈ items, checkItem digest windows e = .ok () := by
  rw [← forM_eq_ok_iff]
  unfold remember
  cases items.forM (checkItem digest windows) <;> simp

/-- A text that is not blank has a line. -/
theorem length_splitLines_pos (solid : isBlank raw = false) :
    1 ≤ (splitLines raw.toList).length := by
  by_contra none
  rw [length_splitLines, Nat.not_le, Nat.lt_one_iff, List.length_eq_zero_iff] at none
  have empty := flatten_splitLinesKeepEnds raw.toList
  rw [none] at empty
  have blank : isBlank raw := isBlank_iff.mpr fun c member => by
    rw [← empty] at member
    cases member
  rw [blank] at solid
  cases solid

/-- The quotation of a whole window. -/
def wholeWindow (digest : String → String) (uri raw : String) (before : ℕ)
    (solid : isBlank raw = false) :
    Evidence where
  evidenceId := ""
  uri
  docId := ""
  title := ""
  source := ""
  page := none
  startLine := before + 1
  endLine := before + (splitLines raw.toList).length
  quote := raw
  contentSha256 := digest raw
  version := ""
  startLine_pos := Nat.succ_pos before
  ordered := Nat.add_le_add_left (length_splitLines_pos solid) before
  quote_solid := of_decide_eq_false solid

/-- **What is wanted of the reads and the check** holds if every window that is not blank is where
the last window with its text is. -/
theorem coordinateLaw_iff
    (apart : Set.InjOn digest {raw | ∃ call ∈ calls, call.text? documents = some raw}) :
    CoordinateLaw digest documents calls ↔ LastInPlace documents calls := by
  constructor
  · intro law call member raw read solid last isLast
    obtain ⟨text, stored, count, window, -⟩ := exists_window read
    let e := wholeWindow digest call.uri raw (call.linesBefore documents) solid
    have quotes : QuotesWindow digest documents call e raw := by
      refine ⟨read, rfl, rfl, Nat.le_refl _, Nat.le_refl _, text, stored, ?_, ?_⟩
      · change call.linesBefore documents + (splitLines raw.toList).length ≤ _
        rw [length_splitLines, length_splitLines]
        exact window.inside
      · change raw.toList <:+: lineRange text.toList (call.linesBefore documents + 1 - 1)
          (call.linesBefore documents +
          (splitLines raw.toList).length - (call.linesBefore documents + 1 - 1))
        rw [Nat.add_sub_cancel, Nat.add_sub_cancel_left, window.isRange, lineRange_length]
    have accepted := law.complete [e] (List.forall_mem_singleton.mpr ⟨call, member, raw, quotes⟩) []
    have checked := fst_remember.mp accepted e (.head _)
    obtain ⟨last', isLast', found⟩ := get?_windowsOf_of_read apart member read
    cases isLast.symm.trans isLast'
    -- All its lines have to be in the window, so that they begin where the window does.
    obtain ⟨⟨⟨positive, -, inside⟩, -⟩, -⟩ := (checkItem_eq_ok_iff (e := e) found).mp checked
    change 0 ≤ ((call.linesBefore documents + 1 : ℕ) : ℤ) - last.offset - 1 at positive
    change ((call.linesBefore documents + (splitLines raw.toList).length : ℕ) : ℤ) - last.offset ≤
      _ at inside
    rw [length_splitLines] at inside
    omega
  · intro inPlace
    constructor
    · intro items quoted evidence
      refine fst_remember.mpr fun e member => ?_
      obtain ⟨call, called, raw, quotes⟩ := quoted e member
      obtain ⟨last, isLast, found⟩ := get?_windowsOf_of_read apart called quotes.read
      rw [inPlace call called raw quotes.read (isBlank_of_quotes quotes) last isLast] at found
      exact checkItem_of_quotes quotes found
    · exact fun items evidence ok e member => occursIn_of_checkItem (fst_remember.mp ok e member)
    · intro items evidence refused
      unfold remember at refused ⊢
      cases checked : items.forM (checkItem digest (windowsOf digest documents calls)) with
      | ok => simp [checked] at refused
      | error error => rfl

end Check

/-- Two documents that have a line in common. -/
def letters : Documents := [("u", "a\nb\nc\n"), ("v", "b\n")]

/-- Reads of their lines, one of which is read twice. -/
def letterReads : List ReadCall :=
  [{ uri := "u" }, { uri := "u", offset := 1, limit := 1 }, { uri := "v" },
    { uri := "u", offset := 1, limit := 1 }, { uri := "u", offset := 2, limit := 5 }]

/-- The law of reads of lines that differ in their document. -/
theorem coordinateLaw_letters : CoordinateLaw id letters letterReads := by
  refine (coordinateLaw_iff Function.injective_id.injOn).mpr
    fun call member raw read solid last isLast => ?_
  obtain ⟨listed, reads⟩ := List.mem_filter.mp (List.mem_of_getLast? isLast)
  obtain ⟨uri, read'⟩ := of_decide_eq_true reads
  have inPlace : ∀ a ∈ letterReads, ∀ b ∈ letterReads, b.uri = a.uri →
      b.text? letters = a.text? letters → b.offset = a.linesBefore letters := by decide +kernel
  exact inPlace call member last listed uri (read'.trans read.symm)

theorem solid_line : isBlank "a\n" = false := by decide

/-- The quotation of the first of two lines that are the same. -/
def repeatedLine : Evidence := wholeWindow id "u" "a\n" 0 solid_line

/-- Two lines of a document are the same, and each of them is read: the quotation of the first one
is refused. -/
theorem not_coordinateLaw_twoReads :
    ¬ CoordinateLaw id [("u", "a\na\n")]
      [{ uri := "u", limit := 1 }, { uri := "u", offset := 1, limit := 1 }] := by
  intro law
  have quotes : QuotesWindow id [("u", "a\na\n")] { uri := "u", limit := 1 } repeatedLine "a\n" :=
    ⟨by decide, rfl, rfl, by decide, by decide, "a\na\n", rfl, by decide, by decide⟩
  have accepted := law.complete [repeatedLine]
    (List.forall_mem_singleton.mpr ⟨_, .head _, "a\n", quotes⟩) []
  exact absurd accepted (by decide)

end AgentLabs.Rag
