import AgentLabs.Interview.Recovery
import AgentLabs.Math.Monitor
import AgentLabs.Text.JsonAccess
import AgentLabs.Text.JsonReread

/-!
# Events that nobody of the program wrote

The files of a session may come from anywhere. What passes `load_events` is an event of one of the
three kinds with an object for its payload, and what passes `replay` besides goes to the database
as it is. So the rows of the database are no histories any more: their payloads may have fields
that nobody asks for, and two rows that compare equal may differ in their texts. Replay reads
strings only, and equal payloads have the same strings.

## Main definitions

* `Entry`: an event that was loaded, which carries its own well-formedness
* `Accepts`: what `replay` takes, and what it makes of it
* `Alike`, `Agrees`: events with the same strings, and what replay makes of them

## Main results

* `replayStep_cases`, `replayStep_eq_ok_iff`: what one event does to a replay
* `exists_foldlM_of_alike`: like events are replayed alike
* `exists_export`: an event that was accepted is exported
-/

namespace AgentLabs.Interview

open Math Text EvidenceStore

/-! ### Events as they are loaded -/

/-- An event of one of the kinds, with an object for its payload that was read from a text. -/
structure Entry where
  kind : String
  fields : Fields
  kind_mem : kind ∈ eventKinds
  spelled : Json.Spelled (.obj fields)

namespace Entry

/-- The event as the database has it. -/
def raw (e : Entry) : RawEvent := (e.kind, Json.dumps (.obj e.fields))

@[simp] theorem raw_fst (e : Entry) : e.raw.1 = e.kind := rfl

/-- The payload is read back. -/
@[simp] theorem parse_raw (e : Entry) : parse e.raw.2 = .ok (.obj e.fields) := by
  rw [parse, raw, Json.loads_dumps_of_spelled e.spelled]

/-- The three kinds. -/
theorem kind_cases (e : Entry) :
    e.kind = "interview_started" ∨ e.kind = "answer_recorded" ∨ e.kind = "seed_frozen" := by
  simpa [eventKinds] using e.kind_mem

end Entry

/-! ### What replay accepts -/

/-- What `replay` makes of an event that it accepts. -/
inductive Accepts (p : Progress) (e : Entry) : Progress → Prop
  | start {goal : String} (kind : e.kind = "interview_started") (first : p.goal = "")
      (named : str? e.fields "goal" = some goal) (nonblank : isBlank goal = false) :
      Accepts p e { p with goal }
  | answer {field answer : String} (kind : e.kind = "answer_recorded") (started : p.goal ≠ "")
      (live : p.seed = none) (asked : str? e.fields "field" = some field)
      (known : field ∈ QUESTIONS.keys) (answered : str? e.fields "answer" = some answer)
      (nonblank : isBlank answer = false) :
        Accepts p e { p with answers := p.answers.set field answer }
  | seed {seedId : String} (kind : e.kind = "seed_frozen") (started : p.goal ≠ "")
      (live : p.seed = none) (complete : p.answers.keys ⊆ QUESTIONS.keys ∧
      QUESTIONS.keys ⊆ p.answers.keys)
      (named : str? e.fields "seed_id" = some seedId) (hex : isHex32 seedId)
      (repeats : ∀ entry ∈ ("goal", p.goal) :: p.answers, str? e.fields entry.1 = some entry.2) :
      Accepts p e { p with seed := some e.fields }

/-- The event records an answer to a field that cannot be looked up. -/
def Entry.Odd (e : Entry) : Prop :=
  e.kind = "answer_recorded" ∧ ∃ field, Dict.get? e.fields "field" = some field ∧
    field.isHashable = false

/-- The failure of malformed evidence. -/
def Failure.IsCorrupt (failure : Failure) : Prop :=
  ∃ message, failure = .evidence "evidence_corrupt" message

section Step

variable {p q : Progress} {e : Entry} {fields : Fields} {failure : Failure}

theorem replayStart_cases (p : Progress) (fields : Fields) :
    (∃ goal, p.goal = "" ∧ str? fields "goal" = some goal ∧ isBlank goal = false ∧
      replayStart p (.obj fields) = .ok { p with goal }) ∨
    ∃ failure, replayStart p (.obj fields) = .error failure ∧ failure.IsCorrupt := by
  unfold replayStart
  dsimp only
  by_cases first : p.goal = ""
  · rw [if_neg (not_not.mpr first)]
    cases named : str? fields "goal" with
    | none => exact .inr ⟨_, rfl, _, rfl⟩
    | some goal =>
      dsimp only
      cases blank : isBlank goal
      · exact .inl ⟨goal, first, rfl, blank, rfl⟩
      · exact .inr ⟨_, rfl, _, rfl⟩
  · rw [if_pos first]
    exact .inr ⟨_, rfl, _, rfl⟩

theorem str?_of_get? {key : String} {value : Json} (found : Dict.get? fields key = some value) :
    str? fields key = value.asStr? := by
  rw [str?, found]
  rfl

theorem replayAnswer_cases (p : Progress) (fields : Fields) :
    (∃ field answer, p.goal ≠ "" ∧ p.seed = none ∧ str? fields "field" = some field ∧
      field ∈ QUESTIONS.keys ∧ str? fields "answer" = some answer ∧ isBlank answer = false ∧
      replayAnswer p (.obj fields) = .ok { p with answers := p.answers.set field answer }) ∨
    (∃ failure, replayAnswer p (.obj fields) = .error failure ∧ failure.IsCorrupt) ∨
    p.goal ≠ "" ∧ p.seed = none ∧
      (∃ field, Dict.get? fields "field" = some field ∧ field.isHashable = false) ∧
      replayAnswer p (.obj fields) = .error (.raised "TypeError") := by
  unfold replayAnswer
  dsimp only
  by_cases early : p.goal = "" ∨ p.seed.isSome
  · rw [if_pos early]
    exact .inr (.inl ⟨_, rfl, _, rfl⟩)
  rw [if_neg early]
  rw [not_or, Option.not_isSome_iff_eq_none] at early
  cases found : Dict.get? fields "field" with
  | none => exact .inr (.inl ⟨_, rfl, _, rfl⟩)
  | some value =>
    have asked := str?_of_get? found
    -- Looking up a field that is an array or an object raises; other values are unknown fields.
    cases value with
    | str field =>
      dsimp only
      by_cases known : field ∈ QUESTIONS.keys
      · rw [if_pos known]
        cases answered : str? fields "answer" with
        | none => exact .inr (.inl ⟨_, rfl, _, rfl⟩)
        | some answer =>
          dsimp only
          cases blank : isBlank answer
          · exact .inl ⟨field, answer, early.1, early.2, asked, known, rfl, blank, rfl⟩
          · exact .inr (.inl ⟨_, rfl, _, rfl⟩)
      · rw [if_neg known]
        exact .inr (.inl ⟨_, rfl, _, rfl⟩)
    | arr items => exact .inr (.inr ⟨early.1, early.2, ⟨_, rfl, rfl⟩, rfl⟩)
    | obj fields' => exact .inr (.inr ⟨early.1, early.2, ⟨_, rfl, rfl⟩, rfl⟩)
    | _ => exact .inr (.inl ⟨_, rfl, _, rfl⟩)

theorem replaySeed_cases (p : Progress) (fields : Fields) :
    (∃ seedId, p.goal ≠ "" ∧ p.seed = none ∧
      (p.answers.keys ⊆ QUESTIONS.keys ∧ QUESTIONS.keys ⊆ p.answers.keys) ∧
      str? fields "seed_id" = some seedId ∧ isHex32 seedId ∧
      (∀ entry ∈ ("goal", p.goal) :: p.answers, str? fields entry.1 = some entry.2) ∧
      replaySeed p (.obj fields) = .ok { p with seed := some fields }) ∨
    ∃ failure, replaySeed p (.obj fields) = .error failure ∧ failure.IsCorrupt := by
  unfold replaySeed
  dsimp only
  by_cases early : p.goal = "" ∨ p.seed.isSome ∨
      ¬ (p.answers.keys ⊆ QUESTIONS.keys ∧ QUESTIONS.keys ⊆ p.answers.keys)
  · rw [if_pos early]
    exact .inr ⟨_, rfl, _, rfl⟩
  rw [if_neg early]
  simp only [not_or, not_not, Option.not_isSome_iff_eq_none] at early
  cases named : str? fields "seed_id" with
  | none => exact .inr ⟨_, rfl, _, rfl⟩
  | some seedId =>
    dsimp only
    -- The seed repeats the goal and every answer, or the history is corrupt.
    by_cases fits : isHex32 seedId ∧ ∀ entry ∈ ("goal", p.goal) :: p.answers,
      str? fields entry.1 = some entry.2
    · rw [if_pos fits]
      exact .inl ⟨seedId, early.1, early.2.1, early.2.2, rfl, fits.1, fits.2, rfl⟩
    · rw [if_neg fits]
      exact .inr ⟨_, rfl, _, rfl⟩

theorem replayStep_raw : replayStep p e.raw =
    if e.kind = "interview_started" then replayStart p (.obj e.fields)
    else if e.kind = "answer_recorded" then replayAnswer p (.obj e.fields)
    else replaySeed p (.obj e.fields) := by
  rw [replayStep, Entry.parse_raw, ok_bind, Entry.raw_fst]
  split_ifs with start answer seed
  · rfl
  · rfl
  · rfl
  · rcases e.kind_cases with h | h | h
    · exact absurd h start
    · exact absurd h answer
    · exact absurd h seed

/-- **What one event does to a replay**: it is accepted, it is refused as corrupt, or it is an
answer to a field that cannot be looked up and comes while answers are taken. -/
theorem replayStep_cases (p : Progress) (e : Entry) :
    (∃ q, replayStep p e.raw = .ok q ∧ Accepts p e q) ∨
    (∃ failure, replayStep p e.raw = .error failure ∧ failure.IsCorrupt) ∨
    p.goal ≠ "" ∧ p.seed = none ∧ e.Odd ∧ replayStep p e.raw = .error (.raised "TypeError") := by
  rw [replayStep_raw]
  rcases e.kind_cases with kind | kind | kind
  · rw [if_pos kind]
    rcases replayStart_cases p e.fields with ⟨goal, first, named, nonblank, done⟩ | failed
    · exact .inl ⟨_, done, .start kind first named nonblank⟩
    · exact .inr (.inl failed)
  · rw [if_neg (by simp [kind]), if_pos kind]
    rcases replayAnswer_cases p e.fields with
      ⟨field, answer, started, live, asked, known, answered, nonblank, done⟩ | failed |
        ⟨started, live, odd, raised⟩
    · exact .inl ⟨_, done, .answer kind started live asked known answered nonblank⟩
    · exact .inr (.inl failed)
    · exact .inr (.inr ⟨started, live, ⟨kind, odd⟩, raised⟩)
  · rw [if_neg (by simp [kind]), if_neg (by simp [kind])]
    rcases replaySeed_cases p e.fields with
      ⟨seedId, started, live, complete, named, hex, repeats, done⟩ | failed
    · exact .inl ⟨_, done, .seed kind started live complete named hex repeats⟩
    · exact .inr (.inl failed)

theorem replayStep_eq_ok_iff : replayStep p e.raw = .ok q ↔ Accepts p e q := by
  constructor
  · intro done
    rcases replayStep_cases p e with ⟨q', done', accepted⟩ | ⟨failure, failed, -⟩
      | ⟨-, -, -, raised⟩
    · exact Except.ok.inj (done'.symm.trans done) ▸ accepted
    · cases failed.symm.trans done
    · cases raised.symm.trans done
  · intro accepted
    rw [replayStep_raw]
    -- Backwards, each kind of event passes the checks of its own branch.
    cases accepted with
    | start kind first named nonblank =>
      rw [if_pos kind]
      simp [replayStart, first, named, nonblank]
    | @answer field answer kind started live asked known answered nonblank =>
      rw [if_neg (by simp [kind]), if_pos kind]
      have found : Dict.get? e.fields "field" = some (.str field) := by
        obtain ⟨value, found, text⟩ := Option.bind_eq_some_iff.mp asked
        cases value <;> simp_all [Json.asStr?]
      simp [replayAnswer, started, live, found, known, answered, nonblank]
    | seed kind started live complete named hex repeats =>
      rw [if_neg (by simp [kind]), if_neg (by simp [kind])]
      have passes : ¬ (p.goal = "" ∨ p.seed.isSome ∨
          ¬ (p.answers.keys ⊆ QUESTIONS.keys ∧ QUESTIONS.keys ⊆ p.answers.keys)) := by
        simp [started, live, complete]
      rw [replaySeed, if_neg passes]
      simp only [named]
      rw [if_pos ⟨hex, repeats⟩]

end Step

/-! ### Events with the same strings -/

/-- The same kind, and the same strings in the payload. -/
def Alike (e e' : Entry) : Prop := e.kind = e'.kind ∧ ∀ key, str? e.fields key = str? e'.fields key

/-- The same goal and answers, and a seed in both or in none. -/
def Agrees (p q : Progress) : Prop :=
  p.goal = q.goal ∧ p.answers = q.answers ∧ p.seed.isSome = q.seed.isSome

theorem Alike.refl (e : Entry) : Alike e e := ⟨rfl, fun _ => rfl⟩

theorem Alike.symm {e e' : Entry} (alike : Alike e e') : Alike e' e :=
  ⟨alike.1.symm, fun key => (alike.2 key).symm⟩

theorem Agrees.refl (p : Progress) : Agrees p p := ⟨rfl, rfl, rfl⟩

/-- Like events are accepted alike. -/
theorem Accepts.of_alike {p p' q : Progress} {e e' : Entry} (accepted : Accepts p e p')
    (alike : Alike e e') (agrees : Agrees p q) : ∃ q', Accepts q e' q' ∧ Agrees p' q' := by
  obtain ⟨sameKind, sameText⟩ := alike
  obtain ⟨sameGoal, sameAnswers, sameSeed⟩ := agrees
  have live : p.seed = none → q.seed = none := fun none => by
    rw [none, Option.isSome_none] at sameSeed
    exact Option.not_isSome_iff_eq_none.mp (by rw [← sameSeed]; exact Bool.false_ne_true)
  cases accepted with
  | start kind first named nonblank =>
    exact ⟨_, .start (sameKind ▸ kind) (sameGoal ▸ first) (sameText _ ▸ named) nonblank, rfl,
      sameAnswers, sameSeed⟩
  | @answer field answer kind started none asked known answered nonblank =>
    refine ⟨_, .answer (sameKind ▸ kind) (sameGoal ▸ started) (live none) (sameText _ ▸ asked) known
      (sameText _ ▸ answered) nonblank, sameGoal, ?_, sameSeed⟩
    rw [sameAnswers]
  | seed kind started none complete named hex repeats =>
    refine ⟨_, .seed (sameKind ▸ kind) (sameGoal ▸ started) (live none) (sameAnswers ▸ complete)
      (sameText _ ▸ named) hex ?_, sameGoal, sameAnswers, rfl⟩
    rw [← sameGoal, ← sameAnswers]
    exact fun entry member => (sameText _).symm.trans (repeats entry member)

/-- The rows of a list of events. -/
def rawsOf (entries : List Entry) : List RawEvent := entries.map Entry.raw

theorem exists_foldlM_of_alike {es es' : List Entry} (alike : List.Forall₂ Alike es es')
    {p q p' : Progress} (agrees : Agrees p q) (done : (rawsOf es).foldlM replayStep p = .ok p') :
    ∃ q', (rawsOf es').foldlM replayStep q = .ok q' ∧ Agrees p' q' := by
  induction alike generalizing p q with
  | nil =>
    cases done
    exact ⟨q, rfl, agrees⟩
  | cons same rest ih =>
    obtain ⟨p₁, first, later⟩ := foldlM_cons_eq_ok_iff.mp done
    obtain ⟨q₁, first', agrees₁⟩ := (replayStep_eq_ok_iff.mp first).of_alike same agrees
    obtain ⟨q', later', agrees'⟩ := ih agrees₁ later
    exact ⟨q', foldlM_cons_eq_ok_iff.mpr ⟨q₁, replayStep_eq_ok_iff.mpr first', later'⟩, agrees'⟩

/-- Equal objects have the same strings. -/
theorem str?_of_pyEq {xs ys : Fields} (equal : Json.pyEq (.obj xs) (.obj ys)) (nodup : xs.KeysNodup)
    (key : String) : str? xs key = str? ys key := by
  have texts : ∀ fields : Fields, ∀ text, str? fields key = some text ↔
      Dict.get? fields key = some (.str text) := by
    intro fields text
    rw [str?]
    cases Dict.get? fields key with
    | none => simp
    | some value => cases value <;> simp [Json.asStr?]
  refine Option.ext fun text => ?_
  rw [texts, texts]
  exact Json.get?_eq_str_iff_of_pyEq equal nodup key text

/-- Equal payloads make like events. -/
theorem alike_of_sameEvent {e e' : Entry} (same : SameEvent e.raw e'.raw) : Alike e e' := by
  obtain ⟨kind, payload, payload', read, read', equal⟩ := same
  rw [Entry.parse_raw] at read read'
  cases read
  cases read'
  exact ⟨kind, str?_of_pyEq equal (Json.spelled_obj_iff.mp e.spelled).1⟩

/-- Rows that have been compared are alike, as far as both lists go. -/
theorem alike_of_compareAll {es es' : List Entry}
    (compared : compareAll (rawsOf es) (rawsOf es') = .ok ())
    (fewer : es.length ≤ es'.length) : List.Forall₂ Alike es (es'.take es.length) := by
  induction es generalizing es' with
  | nil => exact .nil
  | cons e es ih =>
    obtain _ | ⟨e', es'⟩ := es'
    · simp at fewer
    obtain ⟨_, first, rest⟩ := bind_eq_ok_iff.mp compared
    rcases compareEvents_cases e.parse_raw e'.parse_raw with ⟨same, -⟩ | ⟨-, failed⟩
    · exact .cons (alike_of_sameEvent same) (ih rest (by simpa using fewer))
    · cases failed.symm.trans first

/-- Rows are compared without a failure but a conflict. -/
theorem compareAll_cases (es es' : List Entry) : compareAll (rawsOf es) (rawsOf es') = .ok () ∨
    compareAll (rawsOf es) (rawsOf es') = .error conflict := by
  induction es generalizing es' with
  | nil => exact .inl rfl
  | cons e es ih =>
    obtain _ | ⟨e', es'⟩ := es'
    · exact .inl rfl
    rw [rawsOf, rawsOf, List.map_cons, List.map_cons, compareAll]
    rcases compareEvents_cases e.parse_raw e'.parse_raw with ⟨-, compared⟩ | ⟨-, failed⟩
    · rw [compared]
      exact ih es'
    · rw [failed]
      exact .inr rfl

/-! ### What a replay has collected -/

/-- The answers are to the questions, each once. -/
def Progress.Kept (p : Progress) : Prop := p.answers.keys ⊆ QUESTIONS.keys ∧ p.answers.KeysNodup

section Replayed

variable {p q : Progress} {e : Entry} {es : List Entry}

theorem Accepts.kept (accepted : Accepts p e q) (kept : p.Kept) : q.Kept := by
  cases accepted with
  | start => exact kept
  | answer _ _ _ _ known =>
    refine ⟨fun key member => ?_, kept.2.set⟩
    rcases Dict.mem_keys_set.mp member with rfl | old
    · exact known
    · exact kept.1 old
  | seed => exact kept

theorem Accepts.started (accepted : Accepts p e q) : q.goal ≠ "" := by
  cases accepted with
  | start _ _ _ nonblank =>
    rintro rfl
    exact absurd nonblank (by decide)
  | answer _ started => exact started
  | seed _ started => exact started

/-- Every event of a replay that succeeds was accepted. -/
theorem accepted_of_replayed (done : (rawsOf es).foldlM replayStep p = .ok q) :
    ∀ e ∈ es, ∃ before after, Accepts before e after := by
  induction es generalizing p with
  | nil => simp
  | cons e es ih =>
    obtain ⟨p₁, first, later⟩ := foldlM_cons_eq_ok_iff.mp done
    exact List.forall_mem_cons.mpr ⟨⟨p, p₁, replayStep_eq_ok_iff.mp first⟩, ih later⟩

theorem kept_of_replayed (done : (rawsOf es).foldlM replayStep p = .ok q) (kept : p.Kept) :
    q.Kept := by
  induction es generalizing p with
  | nil =>
    cases done
    exact kept
  | cons e es ih =>
    obtain ⟨p₁, first, later⟩ := foldlM_cons_eq_ok_iff.mp done
    exact ih later ((replayStep_eq_ok_iff.mp first).kept kept)

/-- A replay of some events has a goal. -/
theorem started_of_replayed (done : (rawsOf es).foldlM replayStep p = .ok q) (some : es ≠ []) :
    q.goal ≠ "" := by
  induction es generalizing p with
  | nil => exact absurd rfl some
  | cons e es ih =>
    obtain ⟨p₁, first, later⟩ := foldlM_cons_eq_ok_iff.mp done
    by_cases last : es = []
    · subst last
      cases later
      exact (replayStep_eq_ok_iff.mp first).started
    · exact ih later last

/-! ### Exports -/

/-- **An event that was accepted is exported.** -/
theorem exists_export (accepted : Accepts p e q) (number : ℕ) :
    ∀ x ∈ exportsOf QUESTIONS number e.raw, ∃ file, x = .ok file := by
  rw [exportsOf, Entry.parse_raw]
  simp only [Entry.raw_fst]
  cases accepted with
  | start kind =>
    simp [kind, eventContent, pure, Except.pure]
  | @answer field answer kind _ _ asked known =>
    obtain ⟨value, found, text⟩ := Option.bind_eq_some_iff.mp asked
    obtain ⟨question, there⟩ := Dict.mem_keys_iff.mp known
    have named : value = .str field := by cases value <;> simp_all [Json.asStr?]
    have question : questionOf QUESTIONS (.obj e.fields) = .ok question := by
      rw [questionOf, found, named]
      simp [there]
    simp [kind, eventContent, question, bind, Except.bind, pure, Except.pure]
  | @seed seedId kind _ _ _ named =>
    obtain ⟨value, found, text⟩ := Option.bind_eq_some_iff.mp named
    have named : value = .str seedId := by cases value <;> simp_all [Json.asStr?]
    simp [kind, eventContent, seedExport, found, named, pure, Except.pure]

end Replayed

section Files

variable {store store' : EvidenceStore} {session id : String} {failure : Failure}

/-- The failure of a read: the name is no name, or the file is missing or corrupt. -/
def Failure.IsEvidence (failure : Failure) : Prop :=
  ∃ code message, failure = .evidence code message

theorem isEvidence_of_checkPath (failed : checkPath session id = .error failure) :
    failure.IsEvidence := by
  unfold checkPath checkFolder at failed
  split_ifs at failed <;> cases failed <;> exact ⟨_, _, rfl⟩

theorem isEvidence_of_decode {text : String} (failed : decode session id text = .error failure) :
    failure.IsEvidence := by
  unfold decode at failed
  split at failed
  · cases failed
    exact ⟨_, _, rfl⟩
  · split_ifs at failed
    cases failed
    exact ⟨_, _, rfl⟩
  · cases failed
    exact ⟨_, _, rfl⟩

theorem isEvidence_of_read (failed : store.read session id = .error failure) :
    failure.IsEvidence := by
  unfold EvidenceStore.read at failed
  cases path : checkPath session id with
  | error f =>
    rw [path] at failed
    cases failed
    exact isEvidence_of_checkPath path
  | ok u =>
    rw [path] at failed
    simp only [ok_bind] at failed
    split at failed
    · cases failed
      exact ⟨_, _, rfl⟩
    · exact isEvidence_of_decode failed

theorem isEvidence_of_verify {now : String} {file : Export} {existed : Bool}
    (failed : store.verify session file now existed = .error failure) : failure.IsEvidence := by
  cases existed with
  | false => exact isEvidence_of_read failed
  | true =>
    cases there : store.read session file.evidenceId with
    | error f =>
      rw [verify, if_pos rfl, there] at failed
      cases failed
      exact isEvidence_of_read there
    | ok existing =>
      rw [verify, if_pos rfl, there] at failed
      by_cases differs : sameEvidence existing (file.record session now) = false
      · simp only [ok_bind, if_pos differs] at failed
        cases failed
        exact ⟨_, _, rfl⟩
      · simp only [ok_bind, if_neg differs] at failed
        cases failed

theorem ofExport_of_put {now : String} {file : Export} {disk : Disk}
    (failed : store.put session file now disk = (store', .error failure)) : failure.OfExport := by
  unfold put at failed
  split at failed
  · rename_i path
    cases failed
    exact .inr (isEvidence_of_checkPath path)
  · split_ifs at failed
    · cases failed
      exact .inl ⟨_, rfl⟩
    · cases failed
      exact .inl ⟨_, rfl⟩
    · exact .inr (isEvidence_of_verify (congrArg Prod.snd failed))

end Files

end AgentLabs.Interview
