import AgentLabs.Interview.Interleaving

/-!
# Whole calls as runs

A call that no other process interrupts is one of the interleavings: the steps of
its process, taken one after another, lead from the stores it finds to the stores
it leaves, however the disk serves it. What holds of every reached state therefore
holds between the calls of a sequential program too.

## Main definitions

* `World.Quiet`: no process is in the middle of a call
* `World.workflow`: the shared stores as the workflow of one process

## Main results

* `World.Quiet.run_steps`: a call is a run
* `exists_reached_events`: a session may have any number of events before any of
  them is in a file
-/

namespace AgentLabs.Interview

open Math Text EvidenceStore

/-- What a transaction that commits has gone through. -/
theorem Workflow.commit_cases {w : Workflow} {uuid : String} {r : Request} {db : Database}
    (done : w.commit uuid r = .ok db) : r.check = .ok () ∧ ∃ files,
      (r.loads = true → checkFolder (r.session uuid) = .ok ()) ∧
      w.evidence.loadFrom (r.session uuid) 1
        (if r.loads then eventStems (w.evidence.folder (r.session uuid)) else []) = .ok files ∧
      r.transact uuid w.db files = .ok db := by
  rw [commit] at done
  cases check : r.check with
  | error failure => simp [check, bind, Except.bind] at done
  | ok _ =>
    refine ⟨rfl, ?_⟩
    by_cases loads : r.loads = true
    · simp only [check, loads, bind, Except.bind, if_true, loadEvents] at done ⊢
      cases folder : checkFolder (r.session uuid) with
      | error failure => simp [folder] at done
      | ok _ =>
        cases read : w.evidence.loadFrom (r.session uuid) 1
            (eventStems (w.evidence.folder (r.session uuid))) with
        | error failure => simp [folder, read] at done
        | ok files => exact ⟨files, fun _ => rfl, rfl, by simpa [folder, read] using done⟩
    · simp only [check, loads, bind, Except.bind, Bool.false_eq_true, if_false] at done ⊢
      exact ⟨[], fun absurd => absurd.elim, rfl, done⟩

namespace World

/-- No process is in the middle of a call. -/
structure Quiet (w : World) : Prop where
  lock : w.lock = none
  phase : ∀ p, w.phase p = .idle

/-- The shared stores. -/
def workflow (w : World) : Workflow := ⟨w.db, w.evidence⟩

@[simp] theorem enter_phase (w : World) (p : ℕ) (ph : Phase) : (w.enter p ph).phase p = ph :=
  Function.update_self ..

@[simp] theorem enter_enter (w : World) (p : ℕ) (a b : Phase) :
    (w.enter p a).enter p b = w.enter p b := by
  simp [enter, Function.update_idem]

/-- Going back to the phase it has is no step at all. -/
theorem enter_eq_self {w : World} {p : ℕ} {ph : Phase} (same : w.phase p = ph) :
    w.enter p ph = w := by
  rw [enter, ← same, Function.update_eq_self]

open Relation

/-- The files of a listing are read one by one. -/
theorem load_steps {w : World} {p : ℕ} {r : Request} {uuid : String} {pending : List String}
    {loaded rest : List RawEvent}
    (read : w.evidence.loadFrom (r.session uuid) (loaded.length + 1) pending = .ok rest) :
    ReflTransGen Step (w.enter p (.loading r uuid pending loaded))
      (w.enter p (.loading r uuid [] (loaded ++ rest))) := by
  induction pending generalizing loaded rest with
  | nil =>
    cases read
    rw [List.append_nil]
  | cons stem pending ih =>
    obtain ⟨event, first, events, later, rfl⟩ : ∃ event,
        w.evidence.loadEvent (r.session uuid) (loaded.length + 1) stem = .ok event ∧ ∃ events,
        w.evidence.loadFrom (r.session uuid) (loaded.length + 1 + 1) pending = .ok events ∧
        rest = event :: events := by
      rw [loadFrom] at read
      cases first : w.evidence.loadEvent (r.session uuid) (loaded.length + 1) stem with
      | error failure => simp [first, bind, Except.bind] at read
      | ok event =>
        cases later : w.evidence.loadFrom (r.session uuid) (loaded.length + 1 + 1) pending with
        | error failure => simp [first, later, bind, Except.bind] at read
        | ok events =>
          simp only [first, later, bind, Except.bind, pure, Except.pure, Except.ok.injEq] at read
          exact ⟨event, rfl, events, rfl, read.symm⟩
    -- One step reads the first file; the induction reads the others after it.
    have one := Step.load (enter_phase w p (.loading r uuid (stem :: pending) loaded)) first
    rw [enter_enter] at one
    have rest : w.evidence.loadFrom (r.session uuid) ((loaded ++ [event]).length + 1) pending =
        .ok events := by simpa using later
    have more := ih rest
    rw [List.append_assoc, List.singleton_append] at more
    exact more.head one

variable {w : World} {p : ℕ}

/-- **A transaction is a run**: from a quiet state to the commit. -/
theorem Quiet.commit_steps (quiet : w.Quiet) {r : Request} {uuid : String} {db : Database}
    (hex : isHex32 uuid) (fresh : r.loads = false → uuid ∉ w.used)
    (done : w.workflow.commit uuid r = .ok db) :
    ReflTransGen Step w
      { w.enter p (.committed (r.session uuid)) with db := db, used := r.draw uuid w.used } := by
  obtain ⟨check, files, valid, read, done⟩ := Workflow.commit_cases done
  set held : World := { w with lock := some p, used := r.draw uuid w.used }
  -- The lock is free, so the call takes it, lists, reads and commits without a pause.
  have began : Step w (held.enter p (.begun r uuid)) :=
    .begin (quiet.phase p) quiet.lock check hex fresh
  have listed := Step.list (enter_phase held p (.begun r uuid)) valid
  rw [enter_enter] at listed
  have loaded : ReflTransGen Step (held.enter p (.loading r uuid _ []))
      (held.enter p (.loading r uuid [] ([] ++ files))) := load_steps read
  rw [List.nil_append] at loaded
  have committed := Step.commit (w := held.enter p (.loading r uuid [] files))
    (enter_phase _ _ _) done
  have last : { (held.enter p (.loading r uuid [] files)).enter p
        (.committed (r.session uuid)) with db := db, lock := none } =
      { w.enter p (.committed (r.session uuid)) with db := db, used := r.draw uuid w.used } := by
    rw [enter_enter]
    simp [held, enter, quiet.lock]
  rw [last] at committed
  exact (((ReflTransGen.single began).tail listed).trans loaded).tail committed

/-- A call may be cut off right after its commit. -/
theorem Quiet.reached_commit (quiet : w.Quiet) (reached : Reached w) {r : Request} {uuid : String}
    {db : Database} (hex : isHex32 uuid) (fresh : r.loads = false → uuid ∉ w.used)
    (done : w.workflow.commit uuid r = .ok db) :
    Reached { w with db := db, used := r.draw uuid w.used } := by
  have committed := reached.trans (quiet.commit_steps (p := 0) hex fresh done)
  have one := Step.stop (w := { w.enter 0 (.committed (r.session uuid)) with
    db := db, used := r.draw uuid w.used }) (p := 0) (by simp [enter, Phase.holds])
  have idle : World.enter { w.enter 0 (.committed (r.session uuid)) with
      db := db, used := r.draw uuid w.used } 0 .idle =
      { w with db := db, used := r.draw uuid w.used } := by
    have same := quiet.phase 0
    simp [enter, ← same]
  rw [idle] at one
  exact committed.next one

/-- Publishing a queue is a run, wherever it ends. -/
theorem putAll_steps (clock : String → String) (disk : String → Disk) (session : String)
    (queue : List (Except Failure Export)) (w : World) :
    ReflTransGen Step (w.enter p (.publishing session queue))
      { w.enter p .idle with evidence := (putAll clock disk session queue w.evidence).1 } := by
  have stop : ∀ {w : World} {ph : Phase}, ph.holds = false →
      Step (w.enter p ph) (w.enter p .idle) :=
    fun {w ph} free => by
      have one := Step.stop (w := w.enter p ph) (p := p) (by rw [enter_phase]; exact free)
      rwa [enter_enter] at one
  induction queue generalizing w with
  | nil => exact .single (stop rfl)
  | cons entry rest ih =>
    obtain failure | e := entry
    · exact .single (stop rfl)
    -- A file that is not linked ends the call; one that is linked may still do so.
    cases named : checkPath session e.evidenceId with
    | error failure =>
      simp only [putAll, put, named]
      exact .single (stop rfl)
    | ok _ =>
      by_cases full : disk e.evidenceId = .full
      · simp only [putAll, put, named, if_pos full]
        exact .single (stop rfl)
      set text := e.text session (clock e.evidenceId)
      set w₁ : World := { w with evidence := (w.evidence.link session e.evidenceId text).1 }
      have linked : Step (w.enter p (.publishing session (.ok e :: rest)))
          (w₁.enter p (.linked session e (clock e.evidenceId)
            (w.evidence.link session e.evidenceId text).2 rest)) := by
        have one : Step _ { (w.enter p (.publishing session (.ok e :: rest))).enter p
            (.linked session e (clock e.evidenceId) _ rest) with evidence := _ } :=
          .link (enter_phase _ _ _) named
        rwa [enter_enter] at one
      by_cases lost : disk e.evidenceId = .lost
      · simp only [putAll, put, named, if_neg full, if_pos lost]
        exact (ReflTransGen.single linked).tail (stop rfl)
      cases verified : w₁.evidence.verify session e (clock e.evidenceId)
          (w.evidence.link session e.evidenceId text).2 with
      | error failure =>
        simp only [putAll, put, named, if_neg full, if_neg lost]
        rw [verified]
        exact (ReflTransGen.single linked).tail (stop rfl)
      | ok record =>
        simp only [putAll, put, named, if_neg full, if_neg lost]
        rw [verified]
        have next := Step.verify (w := w₁.enter p (.linked session e (clock e.evidenceId)
          (w.evidence.link session e.evidenceId text).2 rest)) (enter_phase _ _ _) verified
        rw [enter_enter] at next
        exact ((ReflTransGen.single linked).tail next).trans (ih w₁)

/-- **A call is a run**: a call that draws a new id leads from a quiet state to a
quiet state with the stores that the call leaves. -/
theorem Quiet.run_steps (quiet : w.Quiet) {env : Surroundings} (hex : isHex32 env.uuid)
    {r : Request} (fresh : r.loads = false → env.uuid ∉ w.used) :
    ∃ used, ReflTransGen Step w { w with
      db := (w.workflow.run env r).1.db
      evidence := (w.workflow.run env r).1.evidence
      used := used } := by
  -- A call that commits nothing leaves the stores as they were.
  cases done : w.workflow.commit env.uuid r with
  | error failure =>
    refine ⟨w.used, ?_⟩
    rw [Workflow.run, done]
    exact .refl
  | ok db =>
    refine ⟨r.draw env.uuid w.used, ?_⟩
    set w₁ : World := { w with db := db, used := r.draw env.uuid w.used }
    have committed : ReflTransGen Step w (w₁.enter 0 (.committed (r.session env.uuid))) :=
      quiet.commit_steps hex fresh done
    have idle : w₁.enter 0 .idle = w₁ := enter_eq_self (quiet.phase 0)
    rw [Workflow.run, done]
    -- A log that does not replay stops the call before the first file.
    cases replayed : replay (r.session env.uuid) (db.events (r.session env.uuid)) with
    | error failure =>
      simp only [Workflow.publish, replayed]
      have one := Step.stop (w := w₁.enter 0 (.committed (r.session env.uuid))) (p := 0)
        (by rw [enter_phase]; rfl)
      rw [enter_enter, idle] at one
      exact committed.tail one
    | ok state =>
      have one := Step.read (w := w₁.enter 0 (.committed (r.session env.uuid))) (enter_phase _ _ _)
        replayed
      rw [enter_enter] at one
      have published := putAll_steps (p := 0) env.clock env.disk (r.session env.uuid)
        (emitted (exportsOf QUESTIONS) 1 (db.events (r.session env.uuid))) w₁
      rw [idle] at published
      have whole := (committed.tail one).trans published
      simp only [Workflow.publish, replayed, publishEvents]
      cases outcome : putAll env.clock env.disk (r.session env.uuid)
          (emitted (exportsOf QUESTIONS) 1 (db.events (r.session env.uuid))) w₁.evidence with
      | mk evidence result =>
        rw [outcome] at whole
        have same : w.workflow.evidence = w₁.evidence := rfl
        rw [same, outcome]
        cases result with
        | error failure => exact whole
        | ok _ => exact whole

end World

/-! ### Sessions without files -/

/-- There is nothing to load from an empty folder. -/
theorem loadEvents_of_empty {store : EvidenceStore} {session : String} (valid : isSessionId session)
    (empty : store.folder session = []) : store.loadEvents session = .ok [] := by
  rw [loadEvents, checkFolder, if_pos valid, empty]
  rfl

/-- A transaction of an answer on a session without files. -/
theorem commit_recordAnswer {w : Workflow} {h : History} {session uuid field answer : String}
    (stored : w.db.events session = h.rows) (live : h.seedId = none)
    (none : w.evidence.folder session = []) (valid : isSessionId session)
    (known : field ∈ QUESTIONS.keys) (nonblank : isBlank answer = false)
    (changed : h.current.get? field ≠ some (strip answer)) :
    w.commit uuid (.recordAnswer session field answer) =
      .ok (w.db.append session "answer_recorded" (answerPayload field (strip answer))) := by
  have check : (Request.recordAnswer session field answer).check = .ok () := by
    simp [Request.check, known, nonblank]
  have read := loadEvents_of_empty valid none
  have loaded := load_of_stored stored List.nil_prefix
  have session_eq : (Request.recordAnswer session field answer).session uuid = session := rfl
  have open' : (h.progress.state session h.rows.length).status ≠ .frozen := by
    rw [Ne, status_eq_frozen_iff, live]
    exact Bool.false_ne_true
  have answers : (h.progress.state session h.rows.length).answers = h.current := rfl
  simp only [Workflow.commit, check, Request.loads, session_eq, read, Request.transact, recordIn,
    loaded, bind, Except.bind, if_true, if_neg open', answers, if_pos changed, pure, Except.pure]

/-- **A session may have any number of events and no file**: each export is cut off
before it begins. -/
theorem exists_reached_events (n : ℕ) : ∃ w h, Reached w ∧ w.Quiet ∧
    (∀ s, w.evidence.folder s = []) ∧ w.db.events zeroId = History.rows h ∧ h.seedId = none ∧
      h.rows.length = n + 1 := by
  induction n with
  | zero =>
    have started : Reached (World.empty "evidence") := .start (World.initial_empty "evidence")
    have quiet : (World.empty "evidence").Quiet := ⟨rfl, fun _ => rfl⟩
    have check : (Request.startInterview "a").check = .ok () := by
      rw [Request.check, if_neg (by decide)]
    have done : (World.empty "evidence").workflow.commit zeroId (.startInterview "a") =
        .ok (Database.append [] zeroId "interview_started" (startPayload (strip "a"))) := by
      simp [Workflow.commit, check, Request.loads, Request.transact, World.workflow, World.empty,
        bind, Except.bind]
    exact ⟨_, .opening (strip "a") (by decide),
      quiet.reached_commit started (by decide) (fun _ => List.not_mem_nil) done,
      ⟨rfl, fun _ => rfl⟩, fun _ => rfl, rfl, rfl, rfl⟩
  | succ n ih =>
    obtain ⟨w, h, reached, quiet, none, stored, live, length⟩ := ih
    -- One of two answers is not the current one.
    obtain ⟨answer, nonblank, changed⟩ : ∃ answer, isBlank answer = false ∧
        h.current.get? "constraints" ≠ some (strip answer) := by
      by_cases current : h.current.get? "constraints" = some (strip "a")
      · refine ⟨"b", by decide, ?_⟩
        rw [current]
        decide
      · exact ⟨"a", by decide, current⟩
    have known : "constraints" ∈ QUESTIONS.keys := by decide
    have done : w.workflow.commit zeroId (.recordAnswer zeroId "constraints" answer) = _ :=
      commit_recordAnswer stored live (none zeroId) (by decide) known nonblank changed
    obtain ⟨h', rows, live', -⟩ :=
      History.exists_answer live known ((isBlank_strip answer).trans nonblank)
    refine ⟨_, h', quiet.reached_commit reached (by decide) (fun absurd => by cases absurd) done,
      ⟨quiet.lock, quiet.phase⟩, none, ?_, live', ?_⟩
    · have append := Database.append_eq w.db zeroId (.answered "constraints" (strip answer))
      have events := Database.events_append_rows w.db zeroId
        [(Event.answered "constraints" (strip answer)).raw]
      rw [← append, stored, ← rows] at events
      exact events
    · rw [rows, List.length_append, length, List.length_singleton]

end AgentLabs.Interview
