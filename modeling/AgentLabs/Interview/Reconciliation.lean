import AgentLabs.Interview.Publication

/-!
# Transactions on copies of a history

The transaction of a call sees two copies of a session's history, the events in
the database and those read from the files. It goes on from the longer one, so
that what it leaves in the database is a history again: the longer copy, and at
most one event more.

## Main definitions

* `rowsOf`, `filesOf`: the events and the files of a session, begun or not
* `Request.effect`: what a call adds to the events of a session
* `Request.Settled`: there is nothing more to do for a call

## Main results

* `load_of_copies`: reconciling two copies imports what the database lacks
* `transact_effect`: what a transaction does on a session that is loaded
* `transact_cases`: what a transaction on consistent copies commits
-/

namespace AgentLabs.Interview

open Math Text

/-! ### Rows -/

/-- The row of an event. -/
def toRow (session : String) (e : RawEvent) : Row := ⟨session, e.1, e.2⟩

namespace Database

@[simp] theorem events_nil (session : String) : events [] session = [] := rfl

theorem events_append_rows (db : Database) (session : String) (rows : List RawEvent) :
    events (db ++ rows.map (toRow session)) session = db.events session ++ rows := by
  have own : (rows.map (toRow session)).filter (fun row => row.sessionId = session) =
      rows.map (toRow session) := List.filter_eq_self.mpr fun row member => by
    obtain ⟨e, -, rfl⟩ := List.mem_map.mp member
    simp [toRow]
  simp [events, List.filter_append, own, toRow, Function.comp_def]

theorem events_append_rows_of_ne (db : Database) {session s : String} (other : s ≠ session)
    (rows : List RawEvent) : events (db ++ rows.map (toRow session)) s = db.events s := by
  have none : (rows.map (toRow session)).filter (fun row => row.sessionId = s) = [] :=
    List.filter_eq_nil_iff.mpr fun row member => by
      obtain ⟨e, -, rfl⟩ := List.mem_map.mp member
      simp [toRow, Ne.symm other]
  simp [events, List.filter_append, none]

/-- Appending an event appends its row. -/
theorem append_eq (db : Database) (session : String) (e : Event) :
    db.append session e.kind e.payload = db ++ [e.raw].map (toRow session) := rfl

end Database

/-! ### Reconciling two copies -/

/-- The texts of events of the program. -/
def Stored (rows : List RawEvent) : Prop := ∀ row ∈ rows, ∃ e : Event, row = e.raw

theorem History.stored (h : History) : Stored h.rows := by
  intro row member
  obtain ⟨e, -, rfl⟩ := List.mem_map.mp member
  exact ⟨e, rfl⟩

theorem Stored.of_subset {rows more : List RawEvent} (h : Stored more) (subset : rows ⊆ more) :
    Stored rows := fun row member => h row (subset member)

/-- Copies of one history have no conflict. -/
theorem compareAll_of_copies {log ours theirs : List RawEvent} (stored : Stored log)
    (copy : ours <+: log) (copy' : theirs <+: log) : compareAll ours theirs = .ok () := by
  induction ours generalizing log theirs with
  | nil => rfl
  | cons row rest ih =>
    obtain _ | ⟨row', rest'⟩ := theirs
    · rfl
    obtain ⟨more, rfl⟩ := copy
    rw [List.cons_append, List.cons_prefix_cons] at copy'
    obtain ⟨rfl, copy'⟩ := copy'
    obtain ⟨e, rfl⟩ := stored _ (.head _)
    have equal : compareEvents e.raw e.raw = .ok () := by
      simp [compareEvents, Json.pyEq_refl _ e.isPlain_payload, bind, Except.bind, pure, Except.pure]
    rw [compareAll, equal]
    exact ih (stored.of_subset fun _ member => .tail _ member) (List.prefix_append _ _) copy'

/-- Importing writes the events as they were stored. -/
theorem importAll_of_stored {rows : List RawEvent} (stored : Stored rows) (session : String)
    (db : Database) : importAll session rows db = .ok (db ++ rows.map (toRow session)) := by
  induction rows generalizing db with
  | nil => simp [importAll]
  | cons row rest ih =>
    obtain ⟨e, rfl⟩ := stored row (.head _)
    have next := ih (stored.of_subset fun _ member => .tail _ member)
      (db.append session e.kind e.payload)
    rw [Database.append_eq, List.append_assoc, ← List.map_append] at next
    rw [show e.raw :: rest = [e.raw] ++ rest from rfl, ← next]
    simp only [List.singleton_append]
    rw [importAll.eq_2, Event.parse_raw]
    rfl

/-- **Reconciliation.** Of two copies of a history, one of them nonempty, loading
imports what the database lacks, and returns the state of the longer copy. -/
theorem load_of_copies {h : History} {db : Database} {session : String} {files : List RawEvent}
    (ours : db.events session <+: h.rows) (theirs : files <+: h.rows)
    (nonempty : longer (db.events session) files ≠ []) :
    ∃ h' : History, h'.rows = longer (db.events session) files ∧
      load db session files =
        .ok (db ++ (files.drop (db.events session).length).map (toRow session),
          h'.progress.state session h'.rows.length) := by
  obtain ⟨copy, -, -⟩ := prefix_longer ours theirs
  obtain ⟨h', rows⟩ := History.exists_of_prefix copy nonempty
  refine ⟨h', rows.symm, ?_⟩
  have replayed := h'.replay_rows session
  have missing : files.drop (db.events session).length ⊆ h.rows := fun _ member =>
    theirs.subset (List.mem_of_mem_drop member)
  have imported := importAll_of_stored (h.stored.of_subset missing) session db
  rw [← rows] at replayed ⊢
  unfold load
  simp only [compareAll_of_copies h.stored ours theirs, bind, Except.bind]
  -- Only with more files than rows is there something to import.
  by_cases less : (db.events session).length < files.length
  · have isFiles : longer (db.events session) files = files := if_pos less
    rw [isFiles] at replayed ⊢
    simp only [if_pos less, replayed, imported, pure, Except.pure]
  · have isOurs : longer (db.events session) files = db.events session := if_neg less
    rw [isOurs] at replayed ⊢
    simp only [if_neg less, replayed, pure, Except.pure,
      List.drop_eq_nil_of_le (not_lt.mp less), List.map_nil, List.append_nil]

/-- Loading a history that is complete in the database changes nothing. -/
theorem load_of_stored {h : History} {db : Database} {session : String} {files : List RawEvent}
    (stored : db.events session = h.rows) (theirs : files <+: h.rows) :
    load db session files = .ok (db, h.progress.state session h.rows.length) := by
  have fewer : ¬ h.rows.length < files.length := not_lt.mpr theirs.length_le
  have same := compareAll_of_copies h.stored List.prefix_rfl theirs
  rw [load, stored]
  simp only [same, bind, Except.bind, if_neg fewer, h.replay_rows, pure, Except.pure]

/-! ### Transactions -/

/-- The events of a session, if it has begun. -/
def rowsOf : Option History → List RawEvent
  | none => []
  | some h => h.rows

/-- The files of a session, if it has begun. -/
def filesOf : Option History → List Export
  | none => []
  | some h => h.exports

theorem emitted_rowsOf (past : Option History) :
    emitted (exportsOf QUESTIONS) 1 (rowsOf past) = (filesOf past).map .ok := by
  cases past with
  | none => rfl
  | some h => exact h.emitted_rows

theorem nodup_filesOf (past : Option History) : ((filesOf past).map Export.evidenceId).Nodup := by
  cases past with
  | none => exact List.nodup_nil
  | some h => exact h.nodup_exports

/-- Exports that are queued in the same order are exported in the same order. -/
theorem prefix_of_map_ok {xs ys : List Export}
    (h : xs.map (Except.ok : Export → Except Failure Export) <+: ys.map .ok) : xs <+: ys := by
  have back : ∀ zs : List Export,
      (zs.map (Except.ok : Export → Except Failure Export)).filterMap Except.toOption = zs :=
    fun zs => by
      rw [List.filterMap_map]
      exact List.filterMap_some
  have := h.filterMap Except.toOption
  rwa [back, back] at this

/-- More events have more files. -/
theorem prefix_filesOf {past more : Option History} (grown : rowsOf past <+: rowsOf more) :
    filesOf past <+: filesOf more := by
  have files := emitted_prefix (exportsOf QUESTIONS) 1 grown
  rw [emitted_rowsOf, emitted_rowsOf] at files
  exact prefix_of_map_ok files

variable {h : History} {session : String}

theorem status_eq_frozen_iff {count : ℕ} :
    (h.progress.state session count).status = .frozen ↔ h.seedId.isSome := by
  cases frozen : h.seedId with
  | some id => simp [Progress.state, History.progress, frozen]
  | none =>
    simp only [Progress.state, History.progress, frozen, Option.map_none, Option.isSome_none,
      Bool.false_eq_true, if_false]
    split_ifs <;> simp

/-- No field is missing once every question has an answer. -/
theorem missingFields_eq_nil_iff {count : ℕ} :
    (h.progress.state session count).missingFields = [] ↔ QUESTIONS.keys ⊆ h.current.keys := by
  change QUESTIONS.keys.filter (fun field => field ∉ h.current.keys) = [] ↔ _
  rw [List.filter_eq_nil_iff]
  simp [List.subset_def]

/-! ### What a call adds -/

/-- What a call adds to the events of a session in a state. -/
def Request.effect (uuid : String) (state : State) : Request → List RawEvent
  | .startInterview goal => [(Event.started (strip goal)).raw]
  | .recordAnswer _ field answer =>
    if state.answers.get? field = some (strip answer) then []
    else [(Event.answered field (strip answer)).raw]
  | .getSession _ => []
  | .freezeSeed _ =>
    if state.status = .frozen then []
    else [(Event.frozen uuid state.goal ((state.answers.get? "constraints").getD "")
      ((state.answers.get? "acceptance_criteria").getD "")).raw]

/-- A call adds at most one event. -/
theorem Request.length_effect_le (r : Request) (uuid : String) (state : State) :
    (r.effect uuid state).length ≤ 1 := by
  unfold effect
  split
  · exact le_rfl
  · split_ifs
    · exact Nat.zero_le 1
    · exact le_rfl
  · exact Nat.zero_le 1
  · split_ifs
    · exact Nat.zero_le 1
    · exact le_rfl

/-- There is nothing more to do for a call. -/
def Request.Settled (h : History) : Request → Prop
  | .startInterview _ => False
  | .recordAnswer _ field answer => h.seedId = none ∧ h.current.get? field = some (strip answer)
  | .getSession _ => True
  | .freezeSeed _ => h.seedId.isSome

section

variable {h : History} {r : Request} {session uuid : String} {db db₁ : Database}
  {files : List RawEvent}

/-- The checks before the transaction do not fail as publishing does. -/
theorem not_isPublishFailed_check {failure : Failure} (failed : r.check = .error failure) :
    ¬ failure.IsPublishFailed := by
  rintro ⟨message, details, rfl⟩
  cases r with
  | startInterview goal =>
    rw [Request.check] at failed
    split_ifs at failed
    simp at failed
  | recordAnswer session field answer =>
    rw [Request.check] at failed
    split_ifs at failed
    all_goals simp at failed
  | getSession session => cases failed
  | freezeSeed session => cases failed

/-- The frozen state of a history has all answers. -/
theorem missingFields_of_frozen (frozen : h.seedId.isSome) {count : ℕ} :
    (h.progress.state session count).missingFields = [] := by
  obtain ⟨id, seeded⟩ := Option.isSome_iff_exists.mp frozen
  rw [missingFields_eq_nil_iff]
  intro field asked
  exact h.mem_keys_current.mpr ((h.seed_complete id seeded).2 field asked)

/-- The transaction of an answer fails on a frozen session, and otherwise adds its effect. -/
theorem recordIn_cases {field answer : String} (known : field ∈ QUESTIONS.keys)
    (nonblank : isBlank answer = false) {count : ℕ}
    (loaded : load db session files = .ok (db₁, h.progress.state session count)) :
    (∃ failure, recordIn db session field answer files = .error failure ∧
      ¬ failure.IsPublishFailed) ∨
    ∃ h' : History, recordIn db session field answer files =
        .ok (db₁ ++ (Request.effect uuid (h.progress.state session count)
          (.recordAnswer session field answer)).map (toRow session)) ∧
      h'.rows = h.rows ++ Request.effect uuid (h.progress.state session count)
        (.recordAnswer session field answer) ∧
      Request.Settled h' (.recordAnswer session field answer) := by
  simp only [recordIn, loaded, bind, Except.bind]
  by_cases frozen : (h.progress.state session count).status = .frozen
  · rw [if_pos frozen]
    refine .inl ⟨_, rfl, ?_⟩
    rintro ⟨message, details, same⟩
    simp at same
  · rw [if_neg frozen]
    have live : h.seedId = none := by
      rw [status_eq_frozen_iff, Option.not_isSome_iff_eq_none] at frozen
      exact frozen
    right
    unfold Request.effect
    dsimp only
    -- An answer that is the current one already adds nothing.
    by_cases same : (h.progress.state session count).answers.get? field = some (strip answer)
    · rw [if_pos same, if_neg (not_not.mpr same)]
      exact ⟨h, by simp [pure, Except.pure], by simp, live, same⟩
    · rw [if_neg same, if_pos same]
      obtain ⟨h', rows, live', current⟩ := History.exists_answer live known
        ((isBlank_strip answer).trans nonblank)
      exact ⟨h', congrArg Except.ok (Database.append_eq _ _ (.answered field (strip answer))), rows,
        live', current⟩

/-- The transaction of a freeze fails while answers are missing, and otherwise adds its effect. -/
theorem freezeIn_cases (hex : isHex32 uuid) {count : ℕ}
    (loaded : load db session files = .ok (db₁, h.progress.state session count)) :
    (∃ failure, freezeIn db session uuid files = .error failure ∧ ¬ failure.IsPublishFailed) ∨
    ∃ h' : History, freezeIn db session uuid files =
        .ok (db₁ ++ (Request.effect uuid (h.progress.state session count)
          (.freezeSeed session)).map (toRow session)) ∧
      h'.rows = h.rows ++ Request.effect uuid (h.progress.state session count)
        (.freezeSeed session) ∧
      Request.Settled h' (.freezeSeed session) := by
  simp only [freezeIn, loaded, bind, Except.bind]
  by_cases missing : (h.progress.state session count).missingFields = []
  · rw [if_neg (not_not.mpr missing)]
    have complete := missingFields_eq_nil_iff.mp missing
    right
    unfold Request.effect
    dsimp only
    by_cases frozen : (h.progress.state session count).status = .frozen
    · rw [if_pos frozen]
      simp only [pure, Except.pure]
      rw [if_neg (not_not.mpr frozen)]
      exact ⟨h, by simp, by simp, status_eq_frozen_iff.mp frozen⟩
    · rw [if_neg frozen]
      simp only [pure, Except.pure]
      -- The one path that adds an event: complete, and not frozen yet.
      have live : h.seedId = none := by
        rw [status_eq_frozen_iff, Option.not_isSome_iff_eq_none] at frozen
        exact frozen
      have answers : (h.progress.state session count).answers = h.current := rfl
      obtain ⟨h', rows, seeded⟩ := History.exists_freeze live hex complete
      rw [if_pos frozen, answers, h.get?_current (complete (by decide)),
        h.get?_current (complete (by decide))]
      refine ⟨h', congrArg Except.ok (Database.append_eq _ _ (h.freezing uuid)), rows, ?_⟩
      rw [Request.Settled, seeded]
      rfl
  · rw [if_pos missing]
    refine .inl ⟨_, rfl, ?_⟩
    rintro ⟨message, details, same⟩
    simp at same

/-- **What a transaction does** on a session that is loaded. -/
theorem transact_effect (loads : r.loads = true) (check : r.check = .ok ()) (hex : isHex32 uuid)
    {count : ℕ} (loaded : load db (r.session uuid) files =
      .ok (db₁, h.progress.state (r.session uuid) count)) :
    (∃ failure, r.transact uuid db files = .error failure ∧ ¬ failure.IsPublishFailed) ∨
    ∃ h' : History, r.transact uuid db files =
        .ok (db₁ ++ (r.effect uuid (h.progress.state (r.session uuid) count)).map
          (toRow (r.session uuid))) ∧
      h'.rows = h.rows ++ r.effect uuid (h.progress.state (r.session uuid) count) ∧
      r.Settled h' := by
  cases r with
  | startInterview goal => cases loads
  | recordAnswer session field answer =>
    simp only [Request.check] at check
    split_ifs at check with unknown blank
    exact recordIn_cases unknown (by simpa using blank) loaded
  | getSession session =>
    right
    refine ⟨h, ?_, by simp [Request.effect], trivial⟩
    simp only [Request.session] at loaded
    simp [Request.transact, loaded, Request.effect, bind, Except.bind, pure, Except.pure]
  | freezeSeed session => exact freezeIn_cases hex loaded

end

/-- Loading without any event fails. -/
theorem load_nil {db : Database} (empty : db.events session = []) :
    load db session [] = .error (.workflow "session_not_found" "세션 ID를 확인하세요." []) := by
  simp [load, empty, compareAll, replay, bind, Except.bind]

/-- **What a transaction commits.** On two copies of a history it imports what the
database lacks and appends at most one event; what is then stored is a history. -/
theorem transact_cases {r : Request} {uuid : String} {db db' : Database} {files : List RawEvent}
    {past : Option History} (check : r.check = .ok ()) (hex : isHex32 uuid)
    (ours : db.events (r.session uuid) <+: rowsOf past) (theirs : files <+: rowsOf past)
    (fresh : r.loads = false → past = none) (done : r.transact uuid db files = .ok db') :
    (r.loads = true → past ≠ none) ∧ ∃ new : List RawEvent, ∃ h' : History, new.length ≤ 1 ∧
      db' = db ++ (files.drop (db.events (r.session uuid)).length ++ new).map
        (toRow (r.session uuid)) ∧
      h'.rows = longer (db.events (r.session uuid)) files ++ new := by
  by_cases loads : r.loads = false
  · -- A new session: there are no events yet.
    obtain rfl := fresh loads
    cases r with
    | startInterview goal =>
      have nonblank : isBlank (strip goal) = false := by
        rw [isBlank_strip]
        by_contra blank
        simp [Request.check, blank] at check
      have noRows : db.events uuid = [] := List.prefix_nil.mp ours
      have noFiles : files = [] := List.prefix_nil.mp theirs
      cases done
      exact ⟨fun other => absurd loads (by simp [other]), [(Event.started (strip goal)).raw],
        .opening _ nonblank, le_rfl, by
        simp [noFiles, Database.append, toRow, Request.session, Event.raw, Event.kind,
          Event.payload], by
        simp [noFiles, noRows, longer, Request.session, History.rows_opening]⟩
    | _ => simp [Request.loads] at loads
  · -- The other calls go on from what they load, and there is something to load.
    have nonempty : longer (db.events (r.session uuid)) files ≠ [] := fun empty => by
      obtain ⟨-, oursFirst, theirsFirst⟩ := prefix_longer ours theirs
      rw [empty, List.prefix_nil] at oursFirst theirsFirst
      subst theirsFirst
      have failed := load_nil oursFirst
      cases r with
      | startInterview goal => exact loads rfl
      | recordAnswer session field answer =>
        simp only [Request.session] at failed
        simp [Request.transact, recordIn, failed, bind, Except.bind] at done
      | getSession session =>
        simp only [Request.session] at failed
        simp [Request.transact, failed, bind, Except.bind] at done
      | freezeSeed session =>
        simp only [Request.session] at failed
        simp [Request.transact, freezeIn, failed, bind, Except.bind] at done
    -- The longer copy is a history, and the call appends to it.
    obtain _ | h := past
    · exact absurd (List.prefix_nil.mp (prefix_longer ours theirs).1) nonempty
    obtain ⟨h₁, rows, loaded⟩ := load_of_copies ours theirs nonempty
    refine ⟨fun _ => Option.some_ne_none h, ?_⟩
    simp only [← rows, List.map_append, ← List.append_assoc]
    rcases transact_effect (by simpa using loads) check hex loaded with ⟨failure, failed, -⟩
      | ⟨h', ok, grown, -⟩
    · cases failed.symm.trans done
    · exact ⟨_, h', r.length_effect_le uuid _, Except.ok.inj (done.symm.trans ok), grown⟩

end AgentLabs.Interview
