import AgentLabs.Interview.Recovery

/-!
# What a failed call leaves behind

A call fails before its commit or after it. Before, nothing of it remains, and what was
imported from the files is rolled back as well. After, only the export can fail, and the
database has what the call adds to the events and what the files had in addition. Whether the
export succeeds depends on the files it makes and on the disk, not on the files that are there,
so a second call finds its event done and says what the first would have said.

The states are those that the processes reach, and those that further calls and older copies
of the database make of them, in any order.

## Main definitions

* `Attained`: the states that are reached
* `Commits`: what a commit does
* `ErrorAtomic`: what holds of a call that fails

## Main results

* `publish_cases`: publishing with any disk
* `copied_of_attained`: files and database are two copies of the history of each session
* `errorAtomic_of_attained`: failed calls leave all of their effect or nothing
-/

namespace AgentLabs.Interview

open Math Text EvidenceStore

/-! ### Exports with any disk -/

/-- **What publishing does** once the events of a history are stored. -/
theorem publish_cases {h : History} {session : String} {db : Database} {evidence : EvidenceStore}
    (stored : db.events session = h.rows)
    (published : Published (evidence.folder session) session h.exports)
    (valid : isSessionId session) (env : Surroundings) :
    ∃ evidence' result, Workflow.publish ⟨db, evidence⟩ env session = (⟨db, evidence'⟩, result) ∧
      Published (evidence'.folder session) session h.exports ∧ evidence'.root = evidence.root ∧
      (∀ s ≠ session, evidence'.folder s = evidence.folder s) ∧
      ((∀ e ∈ h.exports, Exportable env.disk e) ∧
          result = .ok (reply evidence.root (h.progress.state session h.rows.length)) ∨
        (¬ ∀ e ∈ h.exports, Exportable env.disk e) ∧
          ∃ failure, result = .error failure ∧ failure.IsPublishFailed) := by
  obtain ⟨evidence', put, ran, kept, root, frame, outcome⟩ :=
    published.putAll_cases h.isPlain_exports h.nodup_exports valid List.prefix_rfl
      env.clock env.disk
  rcases outcome with ⟨all, rfl, -⟩ | ⟨some, failure, rfl, ofExport⟩
  · refine ⟨evidence', _, publish_of_putAll stored ran, kept, root, frame, .inl ⟨all, ?_⟩⟩
    rw [root]
  · exact ⟨evidence', _, publish_of_putAll_error stored ran, kept, root, frame,
      .inr ⟨some, _, rfl, ofExport.isPublishFailed session⟩⟩

/-! ### What a call adds -/

section

variable {h : History} {r : Request} {session uuid : String} {db db₁ : Database}
  {files : List RawEvent}

/-- A call for which there is nothing more to do adds nothing. -/
theorem transact_of_settled (settled : r.Settled h) {count : ℕ}
    (loaded : load db (r.session uuid) files =
      .ok (db, h.progress.state (r.session uuid) count)) : r.transact uuid db files = .ok db := by
  cases r with
  | startInterview goal => exact settled.elim
  | recordAnswer session field answer =>
    obtain ⟨live, current⟩ := settled
    simp only [Request.session] at loaded
    -- An answer that is the current one is not written again.
    have open' : ¬ (h.progress.state session count).status = .frozen := by
      rw [status_eq_frozen_iff, live]
      exact Bool.false_ne_true
    have answers : (h.progress.state session count).answers = h.current := rfl
    simp only [Request.transact, recordIn, loaded, bind, Except.bind, if_neg open', answers,
      current, ne_eq, not_true_eq_false, if_false, pure, Except.pure]
  | getSession session =>
    simp only [Request.session] at loaded
    simp [Request.transact, loaded, bind, Except.bind, pure, Except.pure]
  | freezeSeed session =>
    simp only [Request.session] at loaded
    have frozen : (h.progress.state session count).status = .frozen :=
      status_eq_frozen_iff.mpr settled
    have complete : (h.progress.state session count).missingFields = [] :=
      missingFields_of_frozen settled
    simp only [Request.transact, freezeIn, loaded, bind, Except.bind, complete, frozen, ne_eq,
      not_true_eq_false, if_false, pure, Except.pure]

end

/-! ### States that are reached -/

/-- The states that the processes reach, and what whole calls and older copies of the database
make of them. A start draws an id that nothing has been stored under. -/
inductive Attained : Workflow → Prop
  | reached {w : World} (reached : Reached w) : Attained w.workflow
  | call {w : Workflow} (before : Attained w) (env : Surroundings) (r : Request)
      (hex : isHex32 env.uuid)
      (fresh : r.loads = false → w.db.events env.uuid = [] ∧ w.evidence.folder env.uuid = []) :
      Attained (w.run env r).1
  | older {w : Workflow} (before : Attained w) (db : Database)
      (copy : ∀ session, db.events session <+: w.db.events session) : Attained ⟨db, w.evidence⟩

/-- The database and the files of a session are two copies of its history. -/
structure Copies (w : Workflow) (session : String) (past : Option History) : Prop where
  ours : w.db.events session <+: rowsOf past
  published : Published (w.evidence.folder session) session (filesOf past)
  hex : past ≠ none → isHex32 session

/-- The database after a call that goes on from the events of the files and a state. -/
def Request.committed (r : Request) (w : Workflow) (uuid : String) (files : List RawEvent)
    (state : State) : Database :=
  w.db ++ (files.drop (w.db.events (r.session uuid)).length ++ r.effect uuid state).map
    (toRow (r.session uuid))

/-- What a commit does: it goes on from the longer copy, imports what the database lacks and adds
the effect of the call, and what is stored then is a history with nothing more to do. -/
structure Commits (w : Workflow) (uuid : String) (r : Request) (files : List RawEvent)
    (state : State) (h : History) : Prop where
  read : w.evidence.loadEvents (r.session uuid) = .ok files
  replayed : replay (r.session uuid) (longer (w.db.events (r.session uuid)) files) = .ok state
  check : r.check = .ok ()
  commit : w.commit uuid r = .ok (r.committed w uuid files state)
  stored : (r.committed w uuid files state).events (r.session uuid) = h.rows
  settled : r.Settled h
  hex : isHex32 (r.session uuid)
  published : Published (w.evidence.folder (r.session uuid)) (r.session uuid) h.exports

section

variable {w : Workflow} {session uuid : String} {past : Option History} {r : Request}
  {files : List RawEvent}

theorem isSessionId_of_isHex32 (hex : isHex32 session) : isSessionId session := by
  simp [isSessionId, hex]

/-- The files give the first events of the history, and are files of every history that begins
with the longer copy. -/
theorem Copies.exists_files (copies : Copies w session past) (valid : isSessionId session) :
    ∃ files, w.evidence.loadEvents session = .ok files ∧ files <+: rowsOf past ∧
      ∀ h : History, longer (w.db.events session) files <+: h.rows →
        Published (w.evidence.folder session) session h.exports := by
  have ofEmpty (empty : w.evidence.folder session = []) (h : History) :
      Published (w.evidence.folder session) session h.exports := by
    rw [empty]
    exact .empty session h.exports
  cases past with
  | none =>
    have empty : w.evidence.folder session = [] :=
      List.map_eq_nil_iff.mp (List.prefix_nil.mp copies.published.order)
    exact ⟨[], loadEvents_of_empty valid empty, List.nil_prefix, fun h _ => ofEmpty empty h⟩
  | some more =>
    have published : Published (w.evidence.folder session) session more.exports := copies.published
    have theirs : more.rows.take (more.present (w.evidence.folder session)) <+: more.rows :=
      List.take_prefix _ _
    refine ⟨_, History.loadEvents_of_published published valid, theirs, fun h begins => ?_⟩
    -- The longer copy is at least as long as what the files give.
    obtain ⟨copy, -, shorter⟩ := prefix_longer copies.ours theirs
    have present : more.present (w.evidence.folder session) ≤
        (longer (w.db.events session)
          (more.rows.take (more.present (w.evidence.folder session)))).length := by
      refine le_trans (le_of_eq ?_) shorter.length_le
      rw [List.length_take, min_eq_left]
      exact more.length_rows ▸ min_le_right _ _
    by_cases nothing : longer (w.db.events session)
        (more.rows.take (more.present (w.evidence.folder session))) = []
    · -- Nothing is left of the session, so no file is there.
      rw [nothing, List.length_nil, Nat.le_zero, History.present] at present
      have some : more.events.length ≠ 0 := by simp [History.events]
      have none : (w.evidence.folder session).keys.length = 0 := by omega
      exact ofEmpty (List.map_eq_nil_iff.mp (List.eq_nil_of_length_eq_zero none)) h
    · obtain ⟨h', rows⟩ := History.exists_of_prefix copy nothing
      rw [rows] at begins copy present
      have covered : more.present (w.evidence.folder session) ≤ h'.events.length :=
        h'.length_rows ▸ present
      have own := History.published_of_covered published copy covered
      exact own.mono (prefix_filesOf (show rowsOf (some h') <+: rowsOf (some h) from begins))

theorem session_of_loads (loads : r.loads = true) (uuid uuid' : String) :
    r.session uuid = r.session uuid' := by
  cases r with
  | startInterview goal => cases loads
  | _ => rfl

/-- The commit of a call that loads is its transaction. -/
theorem commit_of_loads (loads : r.loads = true) (check : r.check = .ok ())
    (read : w.evidence.loadEvents (r.session uuid) = .ok files) :
    w.commit uuid r = r.transact uuid w.db files := by
  simp only [Workflow.commit, check, loads, read, bind, Except.bind, if_true]

/-- A transaction that cannot load fails as loading does. -/
theorem transact_of_load_error (loads : r.loads = true) {db : Database} {failure : Failure}
    (failed : load db (r.session uuid) files = .error failure) :
    r.transact uuid db files = .error failure := by
  cases r with
  | startInterview goal => cases loads
  | _ =>
    simp only [Request.session] at failed
    simp [Request.transact, recordIn, freezeIn, failed, bind, Except.bind]

/-- **What a commit does** on two copies of a history: it fails, or it commits the effect. -/
theorem Copies.commit_cases (copies : Copies w (r.session uuid) past) (loads : r.loads = true)
    (hex : isHex32 uuid) :
    (∃ failure, w.commit uuid r = .error failure ∧ ¬ failure.IsPublishFailed) ∨
      ∃ files state h, Commits w uuid r files state h := by
  -- The checks of the request come before the folder and the database are read.
  cases check : r.check with
  | error failure =>
    refine .inl ⟨failure, ?_, not_isPublishFailed_check check⟩
    simp only [Workflow.commit, check, bind, Except.bind]
  | ok =>
    by_cases valid : isSessionId (r.session uuid)
    · obtain ⟨files, read, theirs, published⟩ := copies.exists_files valid
      rw [commit_of_loads loads check read]
      by_cases nothing : longer (w.db.events (r.session uuid)) files = []
      · -- The session is unknown to both.
        obtain ⟨-, oursFirst, theirsFirst⟩ := prefix_longer copies.ours theirs
        rw [nothing, List.prefix_nil] at oursFirst theirsFirst
        rw [theirsFirst]
        refine .inl ⟨_, transact_of_load_error loads (load_nil oursFirst), ?_⟩
        rintro ⟨message, details, same⟩
        simp at same
      · obtain ⟨more, rfl⟩ : ∃ more, past = some more := by
          refine Option.ne_none_iff_exists'.mp fun none => nothing ?_
          have copy := (prefix_longer copies.ours theirs).1
          rw [none] at copy
          exact List.prefix_nil.mp copy
        obtain ⟨h, rows, loaded⟩ := load_of_copies copies.ours theirs nothing
        rcases transact_effect loads check hex loaded with failed | ⟨h', done, grown, settled⟩
        · exact .inl failed
        · -- The effect is appended to what the longer copy holds, so both copies are completed.
          refine .inr ⟨files, h.progress.state (r.session uuid) h.rows.length, h', read,
            rows ▸ h.replay_rows _, check, ?_, ?_, settled,
            copies.hex (Option.some_ne_none more), ?_⟩
          · rw [commit_of_loads loads check read, done, Request.committed, List.map_append,
              List.append_assoc]
          · rw [Request.committed, Database.events_append_rows, ← List.append_assoc,
              append_drop_eq_longer copies.ours theirs, grown, rows]
          · refine published h' ?_
            rw [grown, rows]
            exact List.prefix_append _ _
    · -- No folder has such a name.
      refine .inl ⟨.evidence "session_not_found" "세션 ID를 확인하세요.", ?_, ?_⟩
      · simp [Workflow.commit, check, loads, loadEvents, checkFolder, valid, bind, Except.bind]
      · rintro ⟨message, details, same⟩
        cases same

/-- A call that has nothing more to do publishes. -/
theorem run_of_settled {h : History} {db : Database} {evidence : EvidenceStore}
    (loads : r.loads = true) (check : r.check = .ok ()) (settled : r.Settled h)
    (stored : db.events (r.session uuid) = h.rows)
    (published : Published (evidence.folder (r.session uuid)) (r.session uuid) h.exports)
    (valid : isSessionId (r.session uuid)) {env : Surroundings} (drawn : env.uuid = uuid) :
    Workflow.run ⟨db, evidence⟩ env r = Workflow.publish ⟨db, evidence⟩ env (r.session uuid) := by
  subst drawn
  have read := History.loadEvents_of_published published valid
  have loaded := load_of_stored stored
    (List.take_prefix (h.present (evidence.folder (r.session env.uuid))) h.rows)
  have done : Workflow.commit ⟨db, evidence⟩ env.uuid r = .ok db :=
    (commit_of_loads loads check read).trans (transact_of_settled settled loaded)
  rw [Workflow.run, done]

/-- A start on an id that nothing is stored under commits the first event of a history. -/
theorem commit_start {goal : String} (check : (Request.startInterview goal).check = .ok ())
    (rows : w.db.events uuid = []) (empty : w.evidence.folder uuid = []) :
    ∃ db, ∃ h : History, w.commit uuid (.startInterview goal) = .ok db ∧ db.events uuid = h.rows ∧
      (∀ s ≠ uuid, db.events s = w.db.events s) ∧
      Published (w.evidence.folder uuid) uuid h.exports := by
  have nonblank : isBlank (strip goal) = false := by
    rw [isBlank_strip]
    rw [Request.check] at check
    split_ifs at check with blank
    simpa using blank
  refine ⟨w.db ++ [(Event.started (strip goal)).raw].map (toRow uuid), .opening _ nonblank, ?_, ?_,
    ?_, ?_⟩
  · simp only [Workflow.commit, check, Request.loads, bind, Except.bind]
    exact congrArg Except.ok (Database.append_eq w.db uuid (.started (strip goal)))
  · rw [Database.events_append_rows, rows, List.nil_append, History.rows_opening]
  · exact fun s other => Database.events_append_rows_of_ne _ other _
  · rw [empty]
    exact .empty _ _

/-- A call keeps the two copies of every session. -/
theorem copied_run (copied : ∀ session, ∃ past, Copies w session past) {env : Surroundings}
    (hex : isHex32 env.uuid)
    (fresh : r.loads = false → w.db.events env.uuid = [] ∧ w.evidence.folder env.uuid = []) :
    ∀ session, ∃ past, Copies (w.run env r).1 session past := by
  -- A commit that stores a history leaves two copies of it, whatever the disk does.
  have published {db : Database} {h : History} (done : w.commit env.uuid r = .ok db)
      (stored : db.events (r.session env.uuid) = h.rows)
      (others : ∀ s ≠ r.session env.uuid, db.events s = w.db.events s)
      (files : Published (w.evidence.folder (r.session env.uuid)) (r.session env.uuid) h.exports)
      (hex : isHex32 (r.session env.uuid)) :
      ∀ session, ∃ past, Copies (w.run env r).1 session past := by
    intro session
    obtain ⟨evidence, result, ran, kept, -, frame, -⟩ :=
      publish_cases stored files (isSessionId_of_isHex32 hex) env
    have after : w.run env r = (⟨db, evidence⟩, result) := by
      rw [Workflow.run, done]
      exact ran
    rw [after]
    by_cases own : session = r.session env.uuid
    · subst own
      exact ⟨some h, by rw [stored]; exact List.prefix_rfl, kept, fun _ => hex⟩
    · obtain ⟨past, copies⟩ := copied session
      refine ⟨past, ?_, ?_, copies.hex⟩
      · rw [others session own]
        exact copies.ours
      · rw [frame session own]
        exact copies.published
  cases loads : r.loads with
  | true =>
    obtain ⟨past, copies⟩ := copied (r.session env.uuid)
    rcases copies.commit_cases loads hex with ⟨failure, failed, -⟩ | ⟨files, state, h, commits⟩
    · rw [Workflow.run, failed]
      exact copied
    · exact published commits.commit commits.stored
        (fun s other => Database.events_append_rows_of_ne _ other _) commits.published commits.hex
  | false =>
    obtain ⟨rows, empty⟩ := fresh loads
    cases r with
    | startInterview goal =>
      cases check : (Request.startInterview goal).check with
      | error failure =>
        have failed : w.commit env.uuid (.startInterview goal) = .error failure := by
          simp only [Workflow.commit, check, bind, Except.bind]
        rw [Workflow.run, failed]
        exact copied
      | ok =>
        obtain ⟨db, h, done, stored, others, files⟩ := commit_start check rows empty
        exact published done stored others files hex
    | _ => cases loads

/-- **Files and database are two copies** of the history of each session. -/
theorem copied_of_attained (attained : Attained w) : ∀ session, ∃ past, Copies w session past := by
  induction attained with
  | reached reached =>
    intro session
    obtain ⟨past, agreement⟩ := exists_agreement reached
    have rows : rowsOf (past session) = (World.workflow _).db.events session :=
      (agreement.rows session).symm
    exact ⟨past session, rows ▸ List.prefix_rfl, agreement.files session,
      fun begun => agreement.hex session (agreement.known session begun)⟩
  | call _ env r hex fresh ih => exact copied_run ih hex fresh
  | older _ db copy ih =>
    intro session
    obtain ⟨past, copies⟩ := ih session
    exact ⟨past, (copy session).trans copies.ours, copies.published, copies.hex⟩

end

/-! ### Failed calls -/

/-- What holds of a call that fails. Before its commit it changes nothing. After it, the database
has what the files had in addition and the effect of the call, a second call adds nothing and
answers what a first call would have answered that succeeds with the same disk, and a first
call succeeds with a disk that works, as long as event numbers have eight digits. -/
structure ErrorAtomic (w : Workflow) (env : Surroundings) (r : Request) : Prop where
  rolledBack : ∀ failure, (w.run env r).2 = .error failure → ¬ failure.IsPublishFailed →
    (w.run env r).1.db = w.db
  committed : ∀ failure, (w.run env r).2 = .error failure → failure.IsPublishFailed →
    ∃ files state, w.evidence.loadEvents (r.session env.uuid) = .ok files ∧
      replay (r.session env.uuid) (longer (w.db.events (r.session env.uuid)) files) = .ok state ∧
      (w.run env r).1.db = w.db ++
        (files.drop (w.db.events (r.session env.uuid)).length ++ r.effect env.uuid state).map
          (toRow (r.session env.uuid))
  retried : ∀ failure, (w.run env r).2 = .error failure → failure.IsPublishFailed →
    ∀ r' ∈ [r, .getSession (r.session env.uuid)], ∀ env' : Surroundings,
      ((w.run env r).1.run env' r').1.db = (w.run env r).1.db ∧
        ∀ answer, (w.run { env' with uuid := env.uuid } r).2 = .ok answer →
          ((w.run env r).1.run env' r').2 = .ok answer
  works : ∀ failure, (w.run env r).2 = .error failure → failure.IsPublishFailed →
    ((w.run env r).1.db.events (r.session env.uuid)).length < 10 ^ 8 →
    ∀ env' : Surroundings, env'.uuid = env.uuid → env'.disk = (fun _ => .works) →
      ∃ answer, (w.run env' r).2 = .ok answer

section

variable {w : Workflow} {r : Request} {env : Surroundings} {files : List RawEvent} {state : State}
  {h : History}

/-- After the commit a call publishes. -/
theorem Commits.run_eq (commits : Commits w env.uuid r files state h) :
    w.run env r = Workflow.publish ⟨r.committed w env.uuid files state, w.evidence⟩ env
      (r.session env.uuid) := by
  rw [Workflow.run, commits.commit]

/-- What a call leaves and answers after its commit. -/
theorem Commits.run_cases (commits : Commits w env.uuid r files state h) :
    ∃ evidence result, w.run env r = (⟨r.committed w env.uuid files state, evidence⟩, result) ∧
      Published (evidence.folder (r.session env.uuid)) (r.session env.uuid) h.exports ∧
      evidence.root = w.evidence.root ∧
      ((∀ e ∈ h.exports, Exportable env.disk e) ∧ result =
          .ok (reply w.evidence.root (h.progress.state (r.session env.uuid) h.rows.length)) ∨
        (¬ ∀ e ∈ h.exports, Exportable env.disk e) ∧
          ∃ failure, result = .error failure ∧ failure.IsPublishFailed) := by
  obtain ⟨evidence, result, ran, kept, root, -, outcome⟩ :=
    publish_cases commits.stored commits.published (isSessionId_of_isHex32 commits.hex) env
  exact ⟨evidence, result, commits.run_eq.trans ran, kept, root, outcome⟩

/-- The second call, of the same kind or of `get_session`. -/
theorem Commits.retry (commits : Commits w env.uuid r files state h) (loads : r.loads = true)
    {evidence : EvidenceStore}
    (kept : Published (evidence.folder (r.session env.uuid)) (r.session env.uuid) h.exports)
    {r' : Request} (again : r' ∈ [r, .getSession (r.session env.uuid)]) (env' : Surroundings) :
    Workflow.run ⟨r.committed w env.uuid files state, evidence⟩ env' r' =
      Workflow.publish ⟨r.committed w env.uuid files state, evidence⟩ env'
        (r.session env.uuid) := by
  have valid := isSessionId_of_isHex32 commits.hex
  rcases List.mem_cons.mp again with rfl | get
  · have same : r'.session env.uuid = r'.session env'.uuid := session_of_loads loads _ _
    have stored := commits.stored
    rw [same] at stored kept valid ⊢
    exact run_of_settled loads commits.check commits.settled stored kept valid rfl
  · rw [List.mem_singleton.mp get]
    have query : Request.Settled h (.getSession (r.session env.uuid)) := trivial
    exact run_of_settled rfl rfl query commits.stored kept valid rfl

/-- **Failed calls are atomic.** In every state that is reached, an answer, a query or a freeze
that fails leaves all of its effect or nothing, and can be repeated. -/
theorem errorAtomic_of_attained (attained : Attained w) (loads : r.loads = true)
    (hex : isHex32 env.uuid) : ErrorAtomic w env r := by
  obtain ⟨past, copies⟩ := copied_of_attained attained (r.session env.uuid)
  rcases copies.commit_cases loads hex with ⟨failure, failed, before⟩ | ⟨files, state, h, commits⟩
  · have run : w.run env r = (w, .error failure) := by rw [Workflow.run, failed]
    have only (other : Failure) (answer : (w.run env r).2 = .error other) :
        ¬ other.IsPublishFailed := by
      rw [run] at answer
      exact Except.error.inj answer ▸ before
    refine ⟨fun other _ _ => by rw [run], fun other answer published => ?_,
      fun other answer published => ?_, fun other answer published => ?_⟩
    all_goals exact absurd published (only other answer)
  · obtain ⟨evidence, result, run, kept, root, outcome⟩ := commits.run_cases
    refine ⟨fun failure answer notPublished => ?_, fun _ _ _ => ?_, fun _ _ _ r' again env' => ?_,
      fun _ _ _ fits env' drawn works => ?_⟩
    · -- After the commit, only the export fails.
      rw [run] at answer
      rcases outcome with ⟨-, ok⟩ | ⟨-, failure', failed, published⟩
      · cases ok.symm.trans answer
      · cases failed.symm.trans answer
        exact absurd published notPublished
    · exact ⟨files, state, commits.read, commits.replayed, by rw [run]; rfl⟩
    · have second := commits.retry loads kept again env'
      obtain ⟨evidence', result', ran, -, -, -, outcome'⟩ :=
        publish_cases commits.stored kept (isSessionId_of_isHex32 commits.hex) env'
      rw [run]
      dsimp only
      rw [second, ran]
      refine ⟨rfl, fun answer first => ?_⟩
      have commits' : Commits w { env' with uuid := env.uuid }.uuid r files state h := commits
      obtain ⟨evidence₁, result₁, run₁, -, -, outcome₁⟩ := commits'.run_cases
      rw [run₁] at first
      -- The first call would have succeeded with this disk, so every file can be exported.
      rcases outcome₁ with ⟨all, ok⟩ | ⟨-, failure, failed, -⟩
      · rcases outcome' with ⟨-, ok'⟩ | ⟨some, -⟩
        · dsimp only at first ⊢
          rw [ok', root, ← first, ok]
        · exact absurd all some
      · cases failed.symm.trans first
    · rw [run] at fits
      dsimp only at fits
      rw [commits.stored, h.length_rows] at fits
      rw [← drawn] at commits
      obtain ⟨evidence₁, result₁, run₁, -, -, outcome₁⟩ := commits.run_cases
      rw [run₁]
      rcases outcome₁ with ⟨-, ok⟩ | ⟨some, -⟩
      · exact ⟨_, ok⟩
      · refine absurd (fun e listed => ?_) some
        exact ⟨History.isEvidenceId_exports fits e listed, by rw [works]⟩

/-- The surroundings of a call whose files the disk does not take. -/
def fullDisk : Surroundings := ⟨zeroId, fun _ => "2026-01-01T00:00:00+00:00", fun _ => .full⟩

theorem errorAtomic_fullDisk : ∃ w : Workflow, Attained w ∧ (w.db.events zeroId).length = 3 ∧
    ErrorAtomic w fullDisk (.recordAnswer zeroId "constraints" "none") := by
  obtain ⟨w, h, reached, -, -, stored, -, length⟩ := exists_reached_events 2
  have attained : Attained w.workflow := .reached reached
  refine ⟨w.workflow, attained, ?_, errorAtomic_of_attained attained rfl (by decide)⟩
  rw [World.workflow, stored, length]

end

end AgentLabs.Interview
