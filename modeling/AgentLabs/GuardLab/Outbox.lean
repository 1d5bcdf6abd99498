import AgentLabs.GuardLab.Tools
import AgentLabs.Text.JsonLines

/-!
# The file of the outbox

The outbox is a file of JSON records. Sending appends one line; reading splits the
file into lines again, and a view taken between two sends skips as many entries
as the file held when the view was taken. The writer ends a record with a line
feed, while the reader knows more line boundaries, of which the next-line
character and the two Unicode separators are written as they are. The entries
read are the entries sent exactly as long as no field holds one of them.

## Main definitions

* `OutboxEntry.toJson`: an entry as it is written
* `Outbox.send`, `Outbox.allEntries`, `Outbox.sinceNow`, `Outbox.entries`
* `RoundTrip`: what is sent is read, from the start and from every view
* `OutboxEntry.Unbroken`: the entries for which that is so

## Main results

* `allEntries_sends_iff`: the entries of the file are the entries sent
* `roundTrip_iff`: every view reads what was sent since it was taken
* `not_roundTrip_lineSeparator`: a line separator in a body loses the outbox
-/

namespace AgentLabs.GuardLab

open Math Text

/-- An entry as it is written. -/
def OutboxEntry.toJson (e : OutboxEntry) : Json :=
  .obj [("at", .str e.sentAt), ("project", .str e.project), ("recipient", .str e.recipient),
    ("subject", .str e.subject), ("body", .str e.body), ("report_version", .int e.reportVersion),
    ("sender", .str e.sender)]

/-- A view on the outbox: the entries before the offset belong to earlier sessions. -/
structure Outbox where
  offset : ℕ := 0
  deriving DecidableEq, Repr

namespace Outbox

/-- `send`: append the line of an entry. There is no file before the first one. -/
def send (file : Option String) (e : OutboxEntry) : Option String :=
  some (file.getD "" ++ recordLine e.toJson)

/-- `all_entries`; `none` where a line of the file is no JSON. -/
def allEntries : Option String → Option (List Json)
  | none => some []
  | some text => readRecords text

/-- `since_now`. -/
def sinceNow (file : Option String) : Option Outbox :=
  (allEntries file).map fun entries => ⟨entries.length⟩

/-- `entries`. -/
def entries (outbox : Outbox) (file : Option String) : Option (List Json) :=
  (allEntries file).map (List.drop outbox.offset)

/-- The file after some sends. -/
def sends (file : Option String) (sent : List OutboxEntry) : Option String := sent.foldl send file

end Outbox

/-- The strings of an entry. -/
def OutboxEntry.texts (e : OutboxEntry) : List String :=
  [e.sentAt, e.project, e.recipient, e.subject, e.body, e.sender]

/-- No field of the entry holds a next-line character or a Unicode separator. -/
def OutboxEntry.Unbroken (e : OutboxEntry) : Prop :=
  ∀ s ∈ e.texts, ∀ c ∈ s.toList, Json.isRawBreak c = false

instance (e : OutboxEntry) : Decidable e.Unbroken :=
  decidable_of_iff ((e.texts.all fun s => s.toList.all fun c => !Json.isRawBreak c) = true)
    (by simp only [OutboxEntry.Unbroken, List.all_eq_true, Bool.not_eq_true'])

/-- What is sent is read back, in order and field by field, and a view taken at any
point reads what was sent afterwards. -/
structure RoundTrip (sent : List OutboxEntry) : Prop where
  all : Outbox.allEntries (Outbox.sends none sent) = some (sent.map OutboxEntry.toJson)
  views : ∀ before after, sent = before ++ after →
    ∃ view, Outbox.sinceNow (Outbox.sends none before) = some view ∧
      view.entries (Outbox.sends none sent) = some (after.map OutboxEntry.toJson)

variable {e : OutboxEntry} {sent : List OutboxEntry}

theorem isPlain_toJson (e : OutboxEntry) : Json.isPlain e.toJson := by
  simp [OutboxEntry.toJson, Json.isPlain, Json.fieldsArePlain]

/-- The keys of an entry are plain text. -/
theorem unbroken_toJson_iff : Json.Unbroken e.toJson ↔ e.Unbroken := by
  have keys : ∀ s ∈ ["at", "project", "recipient", "subject", "body", "report_version", "sender"],
      ∀ c ∈ s.toList, Json.isRawBreak c = false := by
    have none : (["at", "project", "recipient", "subject", "body", "report_version",
        "sender"].all fun s => s.toList.all fun c => !Json.isRawBreak c) = true := by decide
    simpa only [List.all_eq_true, Bool.not_eq_true'] using none
  constructor
  · intro unbroken s listed
    refine unbroken s ?_
    simp only [OutboxEntry.texts, List.mem_cons, List.not_mem_nil, or_false] at listed
    simp only [OutboxEntry.toJson, Json.strings, Json.fieldStrings, List.mem_cons, List.mem_append,
      List.not_mem_nil, or_false, false_or]
    rcases listed with h | h | h | h | h | h <;> simp only [h, true_or, or_true]
  · intro unbroken s listed
    simp only [OutboxEntry.toJson, Json.strings, Json.fieldStrings, List.mem_cons, List.mem_append,
      List.not_mem_nil, or_false, false_or] at listed
    have either : s ∈ e.texts ∨
        s ∈ ["at", "project", "recipient", "subject", "body", "report_version", "sender"] := by
      simp only [OutboxEntry.texts, List.mem_cons, List.not_mem_nil, or_false]
      grind
    exact either.elim (unbroken s) (keys s)

/-- The file holds the lines of the entries sent. -/
theorem sends_eq (text : String) (sent : List OutboxEntry) :
    Outbox.sends (some text) sent =
      some (text ++ recordsText (sent.map OutboxEntry.toJson)) := by
  induction sent generalizing text with
  | nil => simp [Outbox.sends, recordsText]
  | cons e rest ih =>
    have step : Outbox.sends (some text) (e :: rest) =
        Outbox.sends (some (text ++ recordLine e.toJson)) rest := rfl
    rw [step, ih, List.map_cons, recordsText_cons, String.append_assoc]

/-- Reading the file after some sends reads their lines. -/
theorem allEntries_sends (sent : List OutboxEntry) :
    Outbox.allEntries (Outbox.sends none sent) =
      readRecords (recordsText (sent.map OutboxEntry.toJson)) := by
  cases sent with
  | nil => rfl
  | cons e rest =>
    have step : Outbox.sends none (e :: rest) =
        Outbox.sends (some ("" ++ recordLine e.toJson)) rest := rfl
    rw [step, sends_eq, String.empty_append, List.map_cons, recordsText_cons]
    rfl

/-- What the file holds is what was sent, exactly if all entries are unbroken. -/
theorem allEntries_sends_iff :
    Outbox.allEntries (Outbox.sends none sent) = some (sent.map OutboxEntry.toJson) ↔
      ∀ e ∈ sent, e.Unbroken := by
  rw [allEntries_sends, readRecords_recordsText_iff]
  · simp only [List.forall_mem_map, unbroken_toJson_iff]
  · simp only [List.forall_mem_map]
    exact fun e _ => isPlain_toJson e

/-- **The outbox is read back exactly if all entries are unbroken**, as a whole and
from every view. -/
theorem roundTrip_iff (sent : List OutboxEntry) : RoundTrip sent ↔ ∀ e ∈ sent, e.Unbroken := by
  refine ⟨fun trip => allEntries_sends_iff.mp trip.all, fun unbroken => ?_⟩
  have all := allEntries_sends_iff.mpr unbroken
  refine ⟨all, ?_⟩
  rintro before after rfl
  have first := allEntries_sends_iff.mpr fun e member =>
    unbroken e (List.mem_append_left after member)
  refine ⟨⟨before.length⟩, ?_, ?_⟩
  · rw [Outbox.sinceNow, first, Option.map_some, List.length_map]
  · rw [Outbox.entries, all, Option.map_some, List.map_append, List.drop_left' (List.length_map _)]

/-- A report whose body holds a Unicode line separator. -/
def separatedReport : OutboxEntry :=
  ⟨"2026-09-10T00:00:00+00:00", "alpha", "a@nurisoft.example", "s", "b\u2028b", 1, "u"⟩

theorem not_roundTrip_lineSeparator : ¬ RoundTrip [separatedReport] := by
  intro trip
  have unbroken := allEntries_sends_iff.mp trip.all separatedReport (.head _)
  have inside := unbroken "b\u2028b" (by simp [OutboxEntry.texts, separatedReport])
    (Char.ofNat 0x2028) (by decide)
  exact absurd inside (by decide)

end AgentLabs.GuardLab
