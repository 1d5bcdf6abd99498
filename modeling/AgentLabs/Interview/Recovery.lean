import AgentLabs.Interview.Calls

/-!
# Recovery from the evidence files

The database of a reached state is replaced by an older copy, possibly an empty
one. `get_session` then reconciles what is left: it continues from the longer of
the two copies of the session, imports what the database lacks and exports what
the files lack. A second call finds nothing to do. The names of event files have
room for eight digits, and a session with more events than that cannot be exported.

## Main definitions

* `Recovers`: what `get_session` is to achieve on given stores
* `Conflicts`: two lists of events differ at a common position

## Main results

* `recovers_of_reachable`: recovery from any older copy of the database, for
  sessions whose events have eight digits
* `not_recovers_manyEvents`: a reached state whose session cannot be recovered
-/

namespace AgentLabs.Interview

open Math Text EvidenceStore

/-- The conclusions of a recovery: the database has the longer list of events, the
call returns the state they stand for, the files are those of these events and of
their seed, and a second call changes nothing. -/
def Recovers (before : Workflow) (env : Surroundings) (session : String) : Prop :=
  ∃ files state, before.evidence.loadEvents session = .ok files ∧
    replay session (longer (before.db.events session) files) = .ok state ∧
    (before.getSession env session).2 = .ok (reply before.evidence.root state) ∧
    let after := (before.getSession env session).1
    after.db.events session = longer (before.db.events session) files ∧
    (∀ s ≠ session, after.db.events s = before.db.events s) ∧
    after.evidence.loadEvents session = .ok (longer (before.db.events session) files) ∧
    (after.evidence.folder session).keys =
      (List.range' 1 (longer (before.db.events session) files).length).map eventId ++
        (state.seed.bind (str? · "seed_id")).toList.map seedEvidenceId ∧
    (∀ seed, state.seed = some seed → ∃ seedId record, str? seed "seed_id" = some seedId ∧
      after.evidence.read session (seedEvidenceId seedId) = .ok record ∧
      str? record "kind" = some "seed" ∧ record.get? "content" = some (.obj seed)) ∧
    (∀ s ≠ session, after.evidence.folder s = before.evidence.folder s) ∧
    ∀ env' : Surroundings, env'.disk = (fun _ => .works) →
      after.getSession env' session = (after, .ok (reply before.evidence.root state))

/-! ### What is left of a history -/

variable {h : History} {session : String}

/-- The files that are there are among those of every history that has their events. -/
theorem History.keys_prefix {more : History} {folder : Folder}
    (published : Published folder session more.exports) (grown : h.rows <+: more.rows)
    (covered : more.present folder ≤ h.events.length) :
    folder.keys <+: h.exports.map Export.evidenceId := by
  have begun : rowsOf (some h) <+: rowsOf (some more) := grown
  refine List.prefix_of_prefix_length_le published.order ((prefix_filesOf begun).map _) ?_
  rcases Nat.lt_or_ge more.events.length folder.keys.length with all | some
  · -- All events are in files, so the two histories have the same events and files.
    have full : more.present folder = more.events.length := min_eq_right all.le
    have same : h.rows = more.rows := grown.eq_of_length_le (by simp; omega)
    have back : rowsOf (some more) <+: rowsOf (some h) := by
      rw [rowsOf, rowsOf, same]
    exact published.order.length_le.trans ((prefix_filesOf back).map _).length_le
  · have events : more.present folder = folder.keys.length := min_eq_left some
    rw [h.exports_evidenceId, List.length_append, List.length_map, List.length_range']
    omega

/-- The folder holds the first files of such a history. -/
theorem History.published_of_covered {more : History} {folder : Folder}
    (published : Published folder session more.exports) (grown : h.rows <+: more.rows)
    (covered : more.present folder ≤ h.events.length) : Published folder session h.exports := by
  have begun : rowsOf (some h) <+: rowsOf (some more) := grown
  exact published.restrict more.nodup_exports (prefix_filesOf begun)
    (History.keys_prefix published grown covered)

/-- Of a folder that holds all files of a history, all events are read. -/
theorem History.loadEvents_of_complete {store : EvidenceStore}
    (published : Published (store.folder session) session h.exports) (valid : isSessionId session)
    (complete : (store.folder session).keys = h.exports.map Export.evidenceId) :
    store.loadEvents session = .ok h.rows := by
  have all : h.present (store.folder session) = h.events.length := by
    rw [present, complete, h.exports_evidenceId, List.length_append, List.length_map,
      List.length_range']
    omega
  rw [History.loadEvents_of_published published valid, all, ← h.length_rows, List.take_length]

/-- Event numbers of eight digits make valid names. -/
theorem History.isEvidenceId_exports (fits : h.events.length < 10 ^ 8) :
    ∀ e ∈ h.exports, isEvidenceId e.evidenceId := by
  intro e member
  have listed := List.mem_map_of_mem (f := Export.evidenceId) member
  rw [h.exports_evidenceId, List.mem_append] at listed
  rcases listed with event | seed
  · obtain ⟨number, range, same⟩ := List.mem_map.mp event
    have := List.mem_range'_1.mp range
    exact same ▸ isEvidenceId_eventId.mpr (by omega)
  · obtain ⟨id, frozen, same⟩ := List.mem_map.mp seed
    exact same ▸ isEvidenceId_seedEvidenceId (h.seed_complete id (Option.mem_toList.mp frozen)).1

/-! ### One call -/

variable {before : Workflow} {env : Surroundings} {files : List RawEvent}
  {db : Database} {state : State}

/-- The transaction of `get_session` is the reconciliation. -/
theorem commit_getSession {uuid : String} (read : before.evidence.loadEvents session = .ok files)
    (loaded : load before.db session files = .ok (db, state)) :
    before.commit uuid (.getSession session) = .ok db := by
  have session_eq : (Request.getSession session).session uuid = session := rfl
  simp [Workflow.commit, Request.check, Request.loads, session_eq, read, Request.transact, loaded,
    bind, Except.bind, pure, Except.pure]

/-- After its transaction `get_session` publishes. -/
theorem getSession_eq_publish (read : before.evidence.loadEvents session = .ok files)
    (loaded : load before.db session files = .ok (db, state)) :
    before.getSession env session = Workflow.publish ⟨db, before.evidence⟩ env session := by
  rw [Workflow.getSession, Workflow.run, commit_getSession read loaded]
  rfl

variable {evidence evidence' : EvidenceStore}

/-- What is returned once the events of a history are published. -/
theorem publish_of_putAll (stored : db.events session = h.rows)
    (put : putAll env.clock env.disk session (h.exports.map .ok) evidence = (evidence', .ok ())) :
    Workflow.publish ⟨db, evidence⟩ env session = (⟨db, evidence'⟩,
      .ok (reply evidence'.root (h.progress.state session h.rows.length))) := by
  simp only [Workflow.publish, stored, h.replay_rows, publishEvents, h.emitted_rows, put]

/-- What is raised when publishing them fails. -/
theorem publish_of_putAll_error (stored : db.events session = h.rows) {failure : Failure}
    (put : putAll env.clock env.disk session (h.exports.map .ok) evidence =
      (evidence', .error failure)) :
    Workflow.publish ⟨db, evidence⟩ env session = (⟨db, evidence'⟩,
      .error (failure.ofPublishing session)) := by
  simp only [Workflow.publish, stored, h.replay_rows, publishEvents, h.emitted_rows, put]

/-! ### Recovery -/

/-- **Recovery of what is left of a history**: two copies of the events, one of them
read from the files of the history, and at most eight digits for their numbers. -/
theorem recovers_of_copies {more : History} (valid : isSessionId session)
    (published : Published (before.evidence.folder session) session more.exports)
    (ours : before.db.events session <+: more.rows)
    (left : before.db.events session ≠ [] ∨ eventStems (before.evidence.folder session) ≠ [])
    (fits : (before.db.events session).length < 10 ^ 8) (works : env.disk = fun _ => .works) :
    Recovers before env session := by
  have read := History.loadEvents_of_published published valid
  set files := more.rows.take (more.present (before.evidence.folder session)) with isFiles
  have theirs : files <+: more.rows := List.take_prefix _ _
  have present : files.length = more.present (before.evidence.folder session) := by
    rw [isFiles, List.length_take, min_eq_left]
    exact more.length_rows ▸ min_le_right _ _
  have few := History.present_lt published
  have nonempty : longer (before.db.events session) files ≠ [] := by
    obtain ⟨-, oursFirst, theirsFirst⟩ := prefix_longer ours theirs
    intro empty
    rw [empty, List.prefix_nil] at oursFirst theirsFirst
    rcases left with inDb | inFiles
    · exact inDb oursFirst
    · rw [History.eventStems_of_published published, ← present, theirsFirst] at inFiles
      exact inFiles rfl
  obtain ⟨h, rows, loaded⟩ := load_of_copies ours theirs nonempty
  -- The longer copy is the history `h`; its numbers have at most eight digits.
  have size : h.rows.length = max (before.db.events session).length files.length := by
    rw [rows, longer]
    split_ifs <;> omega
  have events : h.events.length < 10 ^ 8 := by
    rw [← h.length_rows, size]
    omega
  have grown : h.rows <+: more.rows := rows ▸ (prefix_longer ours theirs).1
  have covered : more.present (before.evidence.folder session) ≤ h.events.length := by
    rw [← h.length_rows, size, ← present]
    exact le_max_right _ _
  have order := History.keys_prefix published grown covered
  have own := History.published_of_covered published grown covered
  set db := before.db ++ (files.drop (before.db.events session).length).map
    (toRow session) with isDb
  have stored : db.events session = h.rows := by
    rw [isDb, Database.events_append_rows, append_drop_eq_longer ours theirs, rows]
  obtain ⟨evidence, put, kept, keys, root, frame⟩ := own.putAll_works h.isPlain_exports
    h.nodup_exports valid List.prefix_rfl (History.isEvidenceId_exports events) env.clock
  have complete : (evidence.folder session).keys = h.exports.map Export.evidenceId := by
    rw [keys, longer]
    split_ifs with less
    · rfl
    · exact order.eq_of_length_le (not_lt.mp less)
  rw [← works] at put
  have first := (getSession_eq_publish read loaded).trans (publish_of_putAll stored put)
  have reread := History.loadEvents_of_complete kept valid complete
  refine ⟨files, h.progress.state session h.rows.length, read, rows ▸ h.replay_rows session, ?_⟩
  rw [first, root, ← rows]
  refine ⟨rfl, stored, fun s other => Database.events_append_rows_of_ne _ other _, reread, ?_,
    fun seed frozen => ?_, frame, fun env' works' => ?_⟩
  · -- The names: the numbers of the events, and the seed if there is one.
    have seeds : ((h.progress.state session h.rows.length).seed.bind (str? · "seed_id")) =
        h.seedId := by
      cases frozen : h.seedId with
      | none => simp [Progress.state, History.progress, frozen]
      | some id =>
        simp only [Progress.state, History.progress, frozen, Option.map_some, Option.bind_some]
        rfl
    rw [complete, h.exports_evidenceId, seeds, h.length_rows]
  · obtain ⟨id, seeded, rfl⟩ : ∃ id, h.seedId = some id ∧ h.seedFields id = seed :=
      Option.map_eq_some_iff.mp frozen
    have member := h.seed_mem_exports seeded
    obtain ⟨now, found⟩ := kept.exists_read h.isPlain_exports h.nodup_exports valid member
      (complete ▸ List.mem_map_of_mem member)
    exact ⟨id, _, rfl, found, rfl, rfl⟩
  · -- Nothing is imported and every file is there.
    have again := load_of_stored stored List.prefix_rfl
    have same := kept.putAll_of_present h.isPlain_exports h.nodup_exports valid
      (List.Subset.refl _) (fun e member => complete ▸ List.mem_map_of_mem member) env'.clock
    rw [← works'] at same
    have second : Workflow.getSession ⟨db, evidence⟩ env' session = _ :=
      (getSession_eq_publish reread again).trans (publish_of_putAll stored same)
    rw [second, root]

/-! ### Conflicts -/

/-- Two events agree: in kind, and in what their payloads say. -/
def SameEvent (ours theirs : RawEvent) : Prop :=
  ours.1 = theirs.1 ∧ ∃ p q, parse ours.2 = .ok p ∧ parse theirs.2 = .ok q ∧ Json.pyEq p q

/-- Two lists of events differ at a position that both have. -/
def Conflicts (ours theirs : List RawEvent) : Prop :=
  ∃ i, ∃ h : i < ours.length, ∃ h' : i < theirs.length, ¬ SameEvent ours[i] theirs[i]

/-- The failure that a conflict is reported as. -/
def conflict : Failure := .evidence "evidence_conflict" "DB와 근거 파일의 기록이 다릅니다."

/-- Events whose payloads are JSON texts agree, or their comparison reports a conflict. -/
theorem compareEvents_cases {ours theirs : RawEvent} {p q : Json} (hp : parse ours.2 = .ok p)
    (hq : parse theirs.2 = .ok q) :
    (SameEvent ours theirs ∧ compareEvents ours theirs = .ok ()) ∨
      (¬ SameEvent ours theirs ∧ compareEvents ours theirs = .error conflict) := by
  by_cases kind : ours.1 = theirs.1
  · by_cases equal : Json.pyEq p q
    · refine .inl ⟨⟨kind, p, q, hp, hq, equal⟩, ?_⟩
      simp [compareEvents, kind, hp, hq, equal, bind, Except.bind, pure, Except.pure]
    · refine .inr ⟨fun same => ?_, ?_⟩
      · obtain ⟨-, p', q', hp', hq', equal'⟩ := same
        cases hp.symm.trans hp'
        cases hq.symm.trans hq'
        exact equal equal'
      · simp [compareEvents, kind, hp, hq, equal, conflict, bind, Except.bind, throw, throwThe,
          MonadExceptOf.throw]
  · refine .inr ⟨fun same => kind same.1, ?_⟩
    simp [compareEvents, kind, conflict, bind, Except.bind, throw, throwThe, MonadExceptOf.throw]

/-- The first difference is reported. -/
theorem compareAll_of_conflicts {ours theirs : List RawEvent}
    (texts : ∀ e ∈ ours ++ theirs, ∃ payload, parse e.2 = .ok payload)
    (differ : Conflicts ours theirs) : compareAll ours theirs = .error conflict := by
  induction ours generalizing theirs with
  | nil =>
    obtain ⟨i, inside, -⟩ := differ
    cases inside
  | cons e rest ih =>
    obtain _ | ⟨f, rest'⟩ := theirs
    · obtain ⟨i, -, inside, -⟩ := differ
      cases inside
    obtain ⟨p, hp⟩ := texts e (by simp)
    obtain ⟨q, hq⟩ := texts f (by simp)
    rcases compareEvents_cases hp hq with ⟨same, compared⟩ | ⟨-, compared⟩
    · -- The first events agree, so the difference is further on.
      rw [compareAll, compared]
      refine ih (fun e' member => texts e' (by
        rcases List.mem_append.mp member with h | h <;> simp [h])) ?_
      obtain ⟨i, inside, inside', other⟩ := differ
      cases i with
      | zero => exact absurd same other
      | succ i => exact ⟨i, by simpa using inside, by simpa using inside', other⟩
    · rw [compareAll, compared]
      rfl

/-- **A conflict is reported and nothing is changed.** -/
theorem getSession_of_conflicts {before : Workflow} {session : String} {files : List RawEvent}
    (read : before.evidence.loadEvents session = .ok files)
    (texts : ∀ e ∈ before.db.events session ++ files, ∃ payload, parse e.2 = .ok payload)
    (differ : Conflicts (before.db.events session) files) (env : Surroundings) :
    before.getSession env session = (before, .error conflict) := by
  have compared := compareAll_of_conflicts texts differ
  have session_eq : (Request.getSession session).session env.uuid = session := rfl
  have failed : before.commit env.uuid (.getSession session) = .error conflict := by
    simp [Workflow.commit, Request.check, Request.loads, session_eq, read, Request.transact, load,
      compared, bind, Except.bind]
  rw [Workflow.getSession, Workflow.run, failed]

/-! ### Reached states -/

/-- **Recovery from the evidence files.** In a reached state, with any older copy of the
database in place of it, `get_session` recovers a session of which something is left,
as long as the copy has at most 99999999 events of it; and on any stores that differ
it reports a conflict and leaves them as they are. -/
theorem recovers_of_reachable {w : World} (reached : Reached w) {db : Database}
    (older : ∀ session, db.events session <+: w.db.events session) (session : String) :
    ((db.events session ≠ [] ∨ eventStems (w.evidence.folder session) ≠ []) →
      (db.events session).length < 10 ^ 8 → ∀ env : Surroundings, env.disk = (fun _ => .works) →
        Recovers ⟨db, w.evidence⟩ env session) ∧
    ∀ (before : Workflow) (files : List RawEvent),
      before.evidence.loadEvents session = .ok files →
      (∀ e ∈ before.db.events session ++ files, ∃ payload, parse e.2 = .ok payload) →
      Conflicts (before.db.events session) files →
      ∀ env, before.getSession env session = (before, .error conflict) := by
  refine ⟨fun left fits env works => ?_, fun before files read texts differ env =>
    getSession_of_conflicts read texts differ env⟩
  obtain ⟨past, h⟩ := exists_agreement reached
  have ours := older session
  have published := h.files session
  rw [h.rows session] at ours
  cases begun : past session with
  | none =>
    -- Nothing was ever stored for the session.
    rw [begun] at ours published
    have empty : w.evidence.folder session = [] :=
      List.map_eq_nil_iff.mp (List.prefix_nil.mp published.order)
    rcases left with inDb | inFiles
    · exact absurd (List.prefix_nil.mp ours) inDb
    · rw [empty] at inFiles
      exact absurd rfl inFiles
  | some more =>
    rw [begun] at ours published
    have valid : isSessionId session := by
      simp [isSessionId, h.hex session (h.known session (by simp [begun]))]
    exact recovers_of_copies valid published ours left fits works

/-- The surroundings of a call that the disk serves. -/
def goodDay : Surroundings := ⟨zeroId, fun _ => "2026-01-01T00:00:00+00:00", fun _ => .works⟩

theorem recovers_fromFilesAlone : ∃ w : World, Reached w ∧ (w.db.events zeroId).length = 3 ∧
    Recovers ⟨[], w.evidence⟩ goodDay zeroId := by
  -- Three events are stored; a first call exports them, then the database is lost.
  obtain ⟨w, h, reached, quiet, none, stored, -, length⟩ := exists_reached_events 2
  have some : w.db.events zeroId ≠ [] := by
    rw [stored]
    exact h.rows_ne_nil
  obtain ⟨files, state, read, -, -, events, -, reread, -⟩ :=
    (recovers_of_reachable reached (fun _ => List.prefix_rfl) zeroId).1 (.inl some)
      (by rw [stored, length]; decide) goodDay rfl
  have noFiles := loadEvents_of_empty (by decide : isSessionId zeroId) (none zeroId)
  obtain rfl : files = [] := Except.ok.inj (read.symm.trans noFiles)
  have hex : isHex32 goodDay.uuid := by decide
  obtain ⟨used, run⟩ := quiet.run_steps (r := .getSession zeroId) hex fun absurd => by cases absurd
  refine ⟨_, reached.trans run, ?_, ?_⟩
  · exact (congrArg List.length events).trans (by simp [longer, stored, length])
  · refine (recovers_of_reachable (reached.trans run)
      (fun s => (Database.events_nil s).symm ▸ List.nil_prefix) zeroId).1
      (.inr fun empty => ?_) (by decide) goodDay rfl
    have lost : loadEvents ((w.workflow.run goodDay (.getSession zeroId)).1.evidence) zeroId =
        .ok [] := by
      rw [loadEvents, empty]
      rfl
    have nothing := Except.ok.inj (reread.symm.trans lost)
    exact some (by simpa [longer] using nothing)

/-- A publisher that gets through its queue has met valid names only. -/
theorem isEvidenceId_of_putAll {clock : String → String} {disk : String → Disk} {session : String}
    {queue : List (Except Failure Export)} {store store' : EvidenceStore}
    (put : putAll clock disk session queue store = (store', .ok ())) :
    ∀ e, .ok e ∈ queue → isEvidenceId e.evidenceId := by
  induction queue generalizing store with
  | nil => simp
  | cons entry rest ih =>
    obtain failure | e := entry
    · simp [putAll] at put
    by_cases named : isEvidenceId e.evidenceId
    · intro e' member
      rcases List.mem_cons.mp member with same | later
      · cases same
        exact named
      · rw [putAll] at put
        split at put
        · exact ih put e' later
        · simp at put
    · simp [putAll, EvidenceStore.put, checkPath, named] at put

/-- **Not every session is recovered**: the state with a hundred million events of a
session is reached, and the number of the last one has nine digits. -/
theorem not_recovers_manyEvents :
    ¬ ∀ w : World, Reached w → ∀ db : Database,
      (∀ session, db.events session <+: w.db.events session) → ∀ session,
      (db.events session ≠ [] ∨ eventStems (w.evidence.folder session) ≠ []) →
      ∀ env : Surroundings, env.disk = (fun _ => .works) →
        Recovers ⟨db, w.evidence⟩ env session := by
  intro recovers
  obtain ⟨w, h, reached, -, none, stored, -, length⟩ := exists_reached_events (10 ^ 8 - 1)
  have many : h.rows.length = 10 ^ 8 := by omega
  obtain ⟨files, state, -, -, returned, -⟩ := recovers w reached w.db (fun _ => List.prefix_rfl)
    zeroId (.inl (by rw [stored]; exact h.rows_ne_nil)) goodDay rfl
  have read := loadEvents_of_empty (by decide : isSessionId zeroId) (none zeroId)
  have loaded := load_of_stored stored (List.nil_prefix : [] <+: h.rows)
  -- The call would have to put the file of event 100000000.
  have last : h.events.length - 1 < h.events.length := by
    rw [← h.length_rows]
    omega
  have queued := h.file_mem_exports last
  cases put : putAll goodDay.clock goodDay.disk zeroId (h.exports.map .ok) w.evidence with
  | mk evidence result =>
    cases result with
    | ok _ =>
      have named := isEvidenceId_of_putAll put _ (List.mem_map_of_mem queued)
      have number := isEvidenceId_eventId.mp named
      rw [← h.length_rows] at number
      omega
    | error failure =>
      have failed : (Workflow.getSession ⟨w.db, w.evidence⟩ goodDay zeroId).2 =
          .error (failure.ofPublishing zeroId) := congrArg Prod.snd
        ((getSession_eq_publish read loaded).trans (publish_of_putAll_error stored put))
      rw [failed] at returned
      cases returned

end AgentLabs.Interview
