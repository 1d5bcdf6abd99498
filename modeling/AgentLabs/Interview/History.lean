import AgentLabs.Interview.Workflow

/-!
# Histories of a session

What a session is, apart from how it is stored: a goal, the answers in the order
they were given, and possibly a seed that was frozen after both questions had an
answer. Its events in the database are the texts of these, in this order; every
nonempty copy of them is the text of an earlier history of the same session.

## Main definitions

* `Event`: the three kinds of events, decoded
* `History`: a session's past, which carries its own well-formedness
* `History.rows`, `History.exports`: its events in the database and its files

## Main results

* `History.replay_rows`: replay rebuilds the state of the history
* `History.exists_of_prefix`: a copy of a history's rows is an earlier history
* `History.nodup_exports`: no two files of a history share a name
-/

namespace AgentLabs.Interview

open Math Text

/-! ### Events -/

/-- An event, decoded. -/
inductive Event where
  | started (goal : String)
  | answered (field answer : String)
  | frozen (seedId goal constraints acceptanceCriteria : String)
  deriving DecidableEq, Repr

namespace Event

/-- The kind of an event, as the source spells it. -/
def kind : Event → String
  | started _ => "interview_started"
  | answered _ _ => "answer_recorded"
  | frozen _ _ _ _ => "seed_frozen"

/-- The payload of an event. -/
def payload : Event → Json
  | started goal => startPayload goal
  | answered field answer => answerPayload field answer
  | frozen seedId goal constraints acceptanceCriteria =>
    seedPayload seedId goal constraints acceptanceCriteria

/-- The event as the database has it. -/
def raw (e : Event) : RawEvent := (e.kind, Json.dumps e.payload)

/-- The content of the event's file. -/
def content (e : Event) (number : ℕ) : Json :=
  let base : Fields := [("sequence", .int number), ("event", .str e.kind), ("payload", e.payload)]
  match e with
  | started _ => .obj (base ++ [("questions", .obj (QUESTIONS.map fun q => (q.1, .str q.2)))])
  | answered field _ => .obj (base ++ [("question", .str ((QUESTIONS.get? field).getD ""))])
  | frozen _ _ _ _ => .obj base

/-- The file of an event. -/
def file (e : Event) (number : ℕ) : Export where
  evidenceId := eventId number
  kind := "event"
  title := e.kind
  content := e.content number

/-- The files of an event: its own, and that of the seed it freezes. -/
def files (number : ℕ) (e : Event) : List Export :=
  e.file number ::
    match e with
    | frozen seedId _ _ _ =>
      [{ evidenceId := seedEvidenceId seedId, kind := "seed", title := "확정 명세",
         content := e.payload, sourceEvidenceId := eventId number }]
    | _ => []

/-- An answer is to one of the questions. -/
def Known : Event → Prop
  | answered field _ => field ∈ QUESTIONS.keys
  | _ => True

@[simp] theorem raw_fst (e : Event) : e.raw.1 = e.kind := rfl

theorem isPlain_payload (e : Event) : Json.isPlain e.payload := by
  cases e <;> rfl

theorem kind_mem (e : Event) : e.kind ∈ EvidenceStore.eventKinds := by
  cases e <;> simp [kind, EvidenceStore.eventKinds]

theorem isPlain_content (e : Event) (number : ℕ) : Json.isPlain (e.content number) := by
  have plain := e.isPlain_payload
  cases e <;> simp [content, Json.isPlain, Json.fieldsArePlain, plain, QUESTIONS]

/-- The payload of a stored event is read back. -/
@[simp] theorem parse_raw (e : Event) : parse e.raw.2 = .ok e.payload := by
  rw [parse, raw, Json.loads_dumps e.isPlain_payload]

/-- An event exports its files and raises nothing. -/
theorem exportsOf_raw {e : Event} (known : e.Known) (number : ℕ) :
    exportsOf QUESTIONS number e.raw = (e.files number).map .ok := by
  rw [exportsOf, parse_raw]
  cases e with
  | started goal => rfl
  | answered field answer =>
    obtain ⟨question, asked⟩ := Dict.mem_keys_iff.mp known
    have found : questionOf QUESTIONS (answerPayload field answer) = .ok question := by
      simp [questionOf, answerPayload, Dict.get?, asked]
    simp [raw, kind, payload, eventContent, found, files, file, content, asked, bind, Except.bind,
      pure, Except.pure]
  | frozen seedId goal constraints acceptanceCriteria => rfl

end Event

/-- What a list of events exports. -/
theorem emitted_raw {events : List Event} (known : ∀ e ∈ events, e.Known) (number : ℕ) :
    emitted (exportsOf QUESTIONS) number (events.map Event.raw) =
      (emitted Event.files number events).map .ok := by
  induction events generalizing number with
  | nil => rfl
  | cons e rest ih =>
    rw [List.map_cons, emitted, emitted, Event.exportsOf_raw (known e (.head _)),
      ih fun e member => known e (.tail _ member), List.map_append]

/-! ### Histories -/

/-- The past of a session: its goal, the answers in the order they were given, and
the id of the seed once it is frozen, which takes an answer to every question. -/
structure History where
  goal : String
  answers : List (String × String)
  seedId : Option String
  goal_nonblank : isBlank goal = false
  answers_known : ∀ a ∈ answers, a.1 ∈ QUESTIONS.keys ∧ isBlank a.2 = false
  seed_complete : ∀ id ∈ seedId, isHex32 id ∧ ∀ field ∈ QUESTIONS.keys, field ∈ answers.map Prod.fst

namespace History

variable (h : History)

/-- The answer that counts for each field is the last one. -/
def current : Dict String String := Dict.setAll [] h.answers

/-- The current answer to a field, empty if there is none. -/
def answerTo (field : String) : String := (h.current.get? field).getD ""

/-- The event that freezes a seed in this history. -/
def freezing (seedId : String) : Event :=
  .frozen seedId h.goal (h.answerTo "constraints") (h.answerTo "acceptance_criteria")

/-- The events of a history. -/
def events : List Event :=
  .started h.goal ::
    (h.answers.map (fun a => .answered a.1 a.2) ++ h.seedId.toList.map h.freezing)

/-- The events as the database has them. -/
def rows : List RawEvent := h.events.map Event.raw

/-- The files of a history, in the order they are published. -/
def exports : List Export := emitted Event.files 1 h.events

theorem events_known : ∀ e ∈ h.events, e.Known := by
  intro e member
  simp only [events, List.mem_cons, List.mem_append, List.mem_map] at member
  rcases member with rfl | ⟨a, answered, rfl⟩ | ⟨id, -, rfl⟩
  · trivial
  · exact (h.answers_known a answered).1
  · trivial

theorem rows_ne_nil : h.rows ≠ [] := by simp [rows, events]

@[simp] theorem length_rows : h.rows.length = h.events.length := by simp [rows]

theorem emitted_rows : emitted (exportsOf QUESTIONS) 1 h.rows = h.exports.map .ok :=
  emitted_raw h.events_known 1

/-! ### Replay -/

/-- The payload of the seed that would be frozen now. -/
def seedFields (seedId : String) : Fields :=
  [("seed_id", .str seedId), ("goal", .str h.goal),
    ("constraints", .str (h.answerTo "constraints")),
    ("acceptance_criteria", .str (h.answerTo "acceptance_criteria"))]

/-- What replay collects. -/
def progress : Progress where
  goal := h.goal
  answers := h.current
  seed := h.seedId.map h.seedFields

theorem goal_ne_empty : h.goal ≠ "" := by
  intro empty
  have := h.goal_nonblank
  rw [empty] at this
  exact absurd this (by decide)

theorem mem_keys_current {field : String} :
    field ∈ h.current.keys ↔ field ∈ h.answers.map Prod.fst := by
  rw [current, Dict.mem_keys_setAll]
  simp [Dict.keys]

theorem keysNodup_current : h.current.KeysNodup :=
  Dict.KeysNodup.setAll (by simp [Dict.KeysNodup, Dict.keys]) _

/-- The answers that are collected answer questions. -/
theorem current_keys_subset : h.current.keys ⊆ QUESTIONS.keys := by
  intro field member
  obtain ⟨a, answered, rfl⟩ := List.mem_map.mp (h.mem_keys_current.mp member)
  exact (h.answers_known a answered).1

/-- A field that is a key of the current answers reads its answer. -/
theorem get?_current {field : String} (member : field ∈ h.current.keys) :
    h.current.get? field = some (h.answerTo field) := by
  obtain ⟨answer, found⟩ := Dict.mem_keys_iff.mp member
  simp [answerTo, found]

/-- Answers to questions are collected one by one. -/
theorem foldlM_answers {answers : List (String × String)}
    (known : ∀ a ∈ answers, a.1 ∈ QUESTIONS.keys ∧ isBlank a.2 = false) {p : Progress}
    (started : p.goal ≠ "") (live : p.seed = none) :
    (answers.map fun a => (Event.answered a.1 a.2).raw).foldlM replayStep p =
      .ok { p with answers := p.answers.setAll answers } := by
  induction answers generalizing p with
  | nil => rfl
  | cons a rest ih =>
    have here := known a (.head _)
    have step : replayStep p (Event.answered a.1 a.2).raw =
        .ok { p with answers := p.answers.set a.1 a.2 } := by
      simp [replayStep, replayAnswer, Event.kind, Event.payload, answerPayload, started, live,
        Dict.get?, str?, Json.asStr?, here.1, here.2, bind, Except.bind]
    rw [List.map_cons, List.foldlM_cons, step]
    exact ih (fun a member => known a (.tail _ member)) started live

/-- A seed repeats every current answer: an answered field is one of the two questions. -/
theorem str?_seedFields (seedId : String) :
    ∀ entry ∈ ("goal", h.goal) :: h.current, str? (h.seedFields seedId) entry.1 = some entry.2 := by
  rintro ⟨field, answer⟩ member
  rcases List.mem_cons.mp member with same | answered
  · cases same
    rfl
  · have current := (Dict.get?_eq_some_iff h.keysNodup_current).mpr answered
    have known := h.current_keys_subset (Dict.mem_keys_iff.mpr ⟨answer, current⟩)
    have value : h.answerTo field = answer := by rw [answerTo, current, Option.getD_some]
    have two : field = "constraints" ∨ field = "acceptance_criteria" := by
      simpa [QUESTIONS, Dict.keys] using known
    rcases two with rfl | rfl
    · rw [← value]
      rfl
    · rw [← value]
      rfl

/-- Freezing is accepted once every question is answered. -/
theorem replayStep_freezing {seedId : String} (hex : isHex32 seedId)
    (complete : QUESTIONS.keys ⊆ h.current.keys) :
    replayStep { goal := h.goal, answers := h.current } (h.freezing seedId).raw =
      .ok { goal := h.goal, answers := h.current, seed := some (h.seedFields seedId) } := by
  rw [replayStep, Event.parse_raw]
  change replaySeed _ (.obj (h.seedFields seedId)) = _
  have named : str? (h.seedFields seedId) "seed_id" = some seedId := rfl
  have passes : ¬ (h.goal = "" ∨ (none : Option Fields).isSome ∨
      ¬ (h.current.keys ⊆ QUESTIONS.keys ∧ QUESTIONS.keys ⊆ h.current.keys)) := by
    simp [h.goal_ne_empty, h.current_keys_subset, complete]
  rw [replaySeed, if_neg passes]
  simp only [named]
  rw [if_pos ⟨hex, h.str?_seedFields seedId⟩]

/-- Replay collects the goal, the current answers and the seed. -/
theorem foldlM_rows : h.rows.foldlM replayStep {} = .ok h.progress := by
  have start : replayStep {} (Event.started h.goal).raw = .ok { goal := h.goal } := by
    simp [replayStep, replayStart, Event.kind, Event.payload, startPayload, Dict.get?, str?,
      Json.asStr?, h.goal_nonblank, bind, Except.bind]
  rw [rows, events, List.map_cons, List.map_append, List.map_map, List.foldlM_cons, start]
  change List.foldlM replayStep _ _ = _
  rw [List.foldlM_append]
  have answers := foldlM_answers h.answers_known (p := { goal := h.goal }) h.goal_ne_empty rfl
  simp only [Function.comp_def]
  rw [answers]
  change List.foldlM replayStep { goal := h.goal, answers := h.current } _ = _
  cases frozen : h.seedId with
  | none => simp [progress, frozen, pure, Except.pure]
  | some id =>
    obtain ⟨hex, complete⟩ := h.seed_complete id frozen
    have answered : QUESTIONS.keys ⊆ h.current.keys := fun field member =>
      h.mem_keys_current.mpr (complete field member)
    simp only [Option.toList_some, List.map_cons, List.map_nil, List.foldlM_cons, List.foldlM_nil]
    rw [h.replayStep_freezing hex answered, progress, frozen]
    rfl

/-- **Replay succeeds** on the rows of a history. -/
theorem replay_rows (session : String) :
    replay session h.rows = .ok (h.progress.state session h.rows.length) := by
  rw [replay, if_neg h.rows_ne_nil, h.foldlM_rows]
  rfl

/-! ### Growth -/

/-- The history of a session that has just started. -/
def opening (goal : String) (nonblank : isBlank goal = false) : History where
  goal
  answers := []
  seedId := none
  goal_nonblank := nonblank
  answers_known := by simp
  seed_complete := by simp

theorem rows_opening {goal : String} (nonblank : isBlank goal = false) :
    (opening goal nonblank).rows = [(Event.started goal).raw] := rfl

variable {h}

/-- One more answer extends the rows by one, and is the current one. -/
theorem exists_answer (live : h.seedId = none) {field answer : String}
    (known : field ∈ QUESTIONS.keys) (nonblank : isBlank answer = false) :
    ∃ h' : History, h'.rows = h.rows ++ [(Event.answered field answer).raw] ∧ h'.seedId = none ∧
      h'.current.get? field = some answer := by
  refine ⟨{ h with
    answers := h.answers ++ [(field, answer)]
    answers_known := ?_
    seed_complete := by simp [live] }, ?_, live, ?_⟩
  · intro a member
    rcases List.mem_append.mp member with before | new
    · exact h.answers_known a before
    · rw [List.mem_singleton.mp new]
      exact ⟨known, nonblank⟩
  · simp [rows, events, live]
  · rw [current, Dict.setAll_append]
    exact Dict.get?_set_self

/-- Freezing extends the rows by one. -/
theorem exists_freeze (live : h.seedId = none) {seedId : String} (hex : isHex32 seedId)
    (complete : QUESTIONS.keys ⊆ h.current.keys) :
    ∃ h' : History, h'.rows = h.rows ++ [(h.freezing seedId).raw] ∧ h'.seedId = some seedId := by
  refine ⟨{ h with
    seedId := some seedId
    seed_complete := ?_ }, ?_, rfl⟩
  · intro id same
    cases same
    exact ⟨hex, fun field member => h.mem_keys_current.mp (complete member)⟩
  · simp [rows, events, live, freezing, answerTo, current]

/-- **A copy of a history is an earlier history**: every nonempty prefix of the rows
is the rows of a history. -/
theorem exists_of_prefix {copy : List RawEvent} (isCopy : copy <+: h.rows) (nonempty : copy ≠ []) :
    ∃ h' : History, copy = h'.rows := by
  by_cases whole : h.rows.length ≤ copy.length
  · exact ⟨h, isCopy.eq_of_length (le_antisymm isCopy.length_le whole)⟩
  -- A proper prefix ends before the seed, so it keeps some of the answers.
  obtain ⟨n, size⟩ : ∃ n, copy.length = n + 1 :=
    Nat.exists_eq_succ_of_ne_zero (mt List.eq_nil_of_length_eq_zero nonempty)
  have within : n ≤ h.answers.length := by
    have seeds : h.seedId.toList.length ≤ 1 := by cases h.seedId <;> simp
    simp only [rows, events, List.map_cons, List.length_cons, List.length_map,
      List.length_append] at whole
    omega
  refine ⟨{ h with
    answers := h.answers.take n
    seedId := none
    answers_known := fun a member => h.answers_known a (List.mem_of_mem_take member)
    seed_complete := by simp }, ?_⟩
  rw [List.prefix_iff_eq_take.mp isCopy, size]
  simp only [rows, events, List.map_cons, List.take_succ_cons, List.map_append, List.map_map,
    Option.toList_none, List.map_nil, List.append_nil]
  rw [List.take_append_of_le_length (by simpa using within), List.map_take]

/-! ### The frozen seed -/

variable (h)

/-- A frozen seed is the last event, and repeats the goal and the current answers. -/
theorem frozen_last {i : ℕ} (bound : i < h.events.length)
    (frozen : h.events[i].kind = "seed_frozen") :
    ∃ id, h.seedId = some id ∧ i + 1 = h.events.length ∧ h.events[i] = h.freezing id := by
  -- No event but the last of a frozen history is of this kind.
  have others : ∀ e ∈ Event.started h.goal :: h.answers.map fun a => .answered a.1 a.2,
      e.kind ≠ "seed_frozen" := by
    intro e member
    rcases List.mem_cons.mp member with rfl | answered
    · simp [Event.kind]
    · obtain ⟨a, -, rfl⟩ := List.mem_map.mp answered
      simp [Event.kind]
  cases seed : h.seedId with
  | none =>
    have member : h.events[i] ∈ Event.started h.goal :: h.answers.map fun a =>
        .answered a.1 a.2 := by
      simp [events, seed]
    exact absurd frozen (others _ member)
  | some id =>
    have split : h.events = (Event.started h.goal :: h.answers.map fun a => .answered a.1 a.2) ++
        [h.freezing id] := by simp [events, seed]
    rcases Nat.lt_or_ge i (h.answers.length + 1) with before | last
    · have member : h.events[i] ∈
          Event.started h.goal :: h.answers.map fun a => .answered a.1 a.2 := by
        simp only [split]
        rw [List.getElem_append_left (by simpa using before)]
        exact List.getElem_mem _
      exact absurd frozen (others _ member)
    · have size : h.events.length = h.answers.length + 2 := by simp [split]
      have isLast : i = h.answers.length + 1 := by omega
      refine ⟨id, rfl, by omega, ?_⟩
      simp [split, isLast]

end History

/-! ### What the stored events say -/

/-- A string in the payload of an event. -/
def fieldOf (key : String) (e : RawEvent) : Option String :=
  ((Json.loads e.2).bind Json.asObj?).bind (str? · key)

/-- The goal of the first event. -/
def startedGoal (events : List RawEvent) : Option String := events.head?.bind (fieldOf "goal")

/-- The event records an answer to the field. -/
def isAnswerTo (field : String) (e : RawEvent) : Bool :=
  e.1 = "answer_recorded" && fieldOf "field" e = some field

/-- The last answer recorded for a field. -/
def lastAnswer (events : List RawEvent) (field : String) : Option String :=
  (events.filter (isAnswerTo field)).getLast?.bind (fieldOf "answer")

theorem fieldOf_raw (key : String) (e : Event) :
    fieldOf key e.raw = e.payload.asObj?.bind (str? · key) := by
  rw [fieldOf, Event.raw, Json.loads_dumps e.isPlain_payload, Option.bind_some]

namespace History

variable (h : History)

theorem startedGoal_rows : startedGoal h.rows = some h.goal := by
  rw [startedGoal, rows, events, List.map_cons, List.head?_cons, Option.bind_some, fieldOf_raw]
  rfl

theorem isAnswerTo_answered (field : String) (a : String × String) :
    isAnswerTo field (Event.answered a.1 a.2).raw = decide (a.1 = field) := by
  rw [isAnswerTo, fieldOf_raw]
  simp [Event.kind, Event.payload, answerPayload, Json.asObj?, str?, Dict.get?, Json.asStr?]

/-- The answers to a field among the stored events. -/
theorem filter_isAnswerTo (field : String) :
    h.rows.filter (isAnswerTo field) =
      (h.answers.filter fun a => a.1 = field).map fun a => (Event.answered a.1 a.2).raw := by
  have started : isAnswerTo field (Event.started h.goal).raw = false := by
    simp [isAnswerTo, Event.kind]
  have seeds : (h.seedId.toList.map fun id => (h.freezing id).raw).filter (isAnswerTo field) =
      [] := by
    refine List.filter_eq_nil_iff.mpr fun e member => ?_
    obtain ⟨id, -, rfl⟩ := List.mem_map.mp member
    simp [isAnswerTo, freezing, Event.kind]
  have answers : isAnswerTo field ∘ (fun a => (Event.answered a.1 a.2).raw) =
      fun a : String × String => decide (a.1 = field) := by
    funext a
    rw [Function.comp_apply, isAnswerTo_answered]
  rw [rows, events, List.map_cons, List.filter_cons, started, if_neg Bool.false_ne_true,
    List.map_append, List.filter_append, List.map_map, List.map_map]
  simp only [Function.comp_def]
  rw [seeds, List.append_nil, List.filter_map, answers]

/-- The last recorded answer is the current one. -/
theorem lastAnswer_rows (field : String) : lastAnswer h.rows field = h.current.get? field := by
  rw [lastAnswer, filter_isAnswerTo, current, Dict.get?_setAll, List.getLast?_map]
  cases (h.answers.filter fun a => a.1 = field).getLast? with
  | none => rfl
  | some a =>
    rw [Option.map_some, Option.bind_some, fieldOf_raw]
    rfl

/-! ### Files -/

/-- The files of a list of answers are the event files. -/
theorem emitted_answered (answers : List (String × String)) (number : ℕ) :
    (emitted Event.files number (answers.map fun a => .answered a.1 a.2)).map Export.evidenceId =
      (List.range' number answers.length).map eventId := by
  induction answers generalizing number with
  | nil => rfl
  | cons a rest ih =>
    simp only [List.map_cons, emitted, List.map_append, ih, List.length_cons, List.range'_succ]
    rfl

/-- The names of the files: the numbered events, and the seed at the end. -/
theorem exports_evidenceId :
    h.exports.map Export.evidenceId =
      (List.range' 1 h.events.length).map eventId ++ h.seedId.toList.map seedEvidenceId := by
  have start : ∀ rest, emitted Event.files 1 (.started h.goal :: rest) =
      (Event.started h.goal).file 1 :: emitted Event.files 2 rest := fun rest => rfl
  rw [exports, events, start, emitted_append, List.map_cons, List.map_append, emitted_answered]
  cases frozen : h.seedId with
  | none => simp [emitted, List.range'_succ, Event.file]
  | some id =>
    have last : (emitted Event.files (h.answers.length + 2) [h.freezing id]).map
        Export.evidenceId = [eventId (h.answers.length + 2), seedEvidenceId id] := rfl
    simp only [Option.toList_some, List.map_cons, List.map_nil, List.length_cons,
      List.length_append, List.length_map, List.length_nil, Nat.zero_add, Nat.add_comm 2, last]
    rw [List.range'_succ, List.range'_concat, Event.file]
    simp [Nat.add_comm]

end History

/-- Different events have different files. -/
theorem eventId_injective : Function.Injective eventId := by
  intro m n same
  have digits : zeroPad 8 m = zeroPad 8 n := by
    have := congrArg String.toList same
    simpa [eventId, String.toList_append] using this
  exact zeroPad_injective 8 digits

theorem eventId_ne_seedEvidenceId (number : ℕ) (seedId : String) :
    eventId number ≠ seedEvidenceId seedId := by
  intro same
  have := congrArg String.toList same
  rw [eventId, seedEvidenceId, String.toList_append, String.toList_append] at this
  -- The two prefixes differ in their first letter.
  simp [show "event-".toList = 'e' :: "vent-".toList from by decide,
    show "seed-".toList = 's' :: "eed-".toList from by decide] at this

/-- **No two files of a history share a name.** -/
theorem History.nodup_exports (h : History) : (h.exports.map Export.evidenceId).Nodup := by
  rw [h.exports_evidenceId, List.nodup_append]
  refine ⟨(List.nodup_range').map eventId_injective, ?_, ?_⟩
  · cases h.seedId <;> simp
  · intro a event b seed same
    obtain ⟨number, -, rfl⟩ := List.mem_map.mp event
    obtain ⟨id, -, rfl⟩ := List.mem_map.mp seed
    exact eventId_ne_seedEvidenceId number id same

/-- Each event has its file among those of the history. -/
theorem History.file_mem_exports (h : History) {i : ℕ} (inside : i < h.events.length) :
    h.events[i].file (i + 1) ∈ h.exports := by
  refine (mem_emitted_iff _).mpr ⟨i, inside, ?_⟩
  rw [Nat.add_comm]
  exact List.mem_cons_self

/-- The seed of a history has its file among those of the history. -/
theorem History.seed_mem_exports (h : History) {id : String} (seed : h.seedId = some id) :
    ({ evidenceId := seedEvidenceId id, kind := "seed", title := "확정 명세",
       content := .obj (h.seedFields id), sourceEvidenceId := eventId h.events.length } : Export) ∈
      h.exports := by
  obtain ⟨first, split⟩ : ∃ first, h.events = first ++ [h.freezing id] :=
    ⟨_ :: h.answers.map _, by rw [events, seed]; rfl⟩
  rw [exports, split, emitted_append, List.length_append, List.length_singleton, Nat.add_comm 1]
  exact List.mem_append_right _ (.tail _ (.head _))

/-- The files of a history can be read back. -/
theorem History.isPlain_exports (h : History) : ∀ e ∈ h.exports, Json.isPlain e.content := by
  intro e member
  obtain ⟨i, inside, found⟩ := (mem_emitted_iff _).mp member
  rcases List.mem_cons.mp found with rfl | seed
  · exact Event.isPlain_content _ _
  · cases event : h.events[i] with
    | frozen seedId goal constraints acceptanceCriteria =>
      simp only [event, List.mem_singleton] at seed
      exact seed ▸ Event.isPlain_payload (.frozen seedId goal constraints acceptanceCriteria)
    | _ => simp [event] at seed

end AgentLabs.Interview
