import AgentLabs.Interview.Reconciliation
import AgentLabs.Math.Fallible
import AgentLabs.Math.Run

/-!
# Interleavings of interview processes

Any number of processes call the four operations on one database and one evidence
folder. A transaction holds the lock of the database from `BEGIN IMMEDIATE` to its
end; listing the event files, reading each of them, linking a file to its name and
comparing with one that exists are steps of their own, so the exports of other
processes may come between any two of them. A transaction may be rolled back and
an export may be cut off at any point.

## Main definitions

* `World`, `Phase`: the shared stores, and what each process is doing
* `Step`: the steps of the processes
* `Agreement`: the invariant, with the history of each session as its witness
* `EventLogAgrees`: what holds of the two stores in every reached state

## Main results

* `Agreement.step`: every step keeps the invariant
* `eventLogAgrees_of_reachable`: database and files agree in every reached state
-/

namespace AgentLabs.Interview

open Math Text EvidenceStore

/-! ### Processes -/

/-- What a process is doing: nothing; holding the lock, before or while it reads
the event files; past its commit; or publishing, before or after the next file got
its name. -/
inductive Phase where
  | idle
  | begun (r : Request) (uuid : String)
  | loading (r : Request) (uuid : String) (pending : List String) (loaded : List RawEvent)
  | committed (session : String)
  | publishing (session : String) (queue : List (Except Failure Export))
  | linked (session : String) (e : Export) (now : String) (existed : Bool)
      (queue : List (Except Failure Export))

/-- The process is inside its transaction. -/
def Phase.holds : Phase → Bool
  | .begun _ _ => true
  | .loading _ _ _ _ => true
  | _ => false

/-- The session ids drawn so far, after a call that starts with an id at hand. -/
def Request.draw (uuid : String) (used : List String) : Request → List String
  | .startInterview _ => uuid :: used
  | _ => used

theorem Request.draw_of_loads {r : Request} (loads : r.loads = true) (uuid : String)
    (used : List String) : r.draw uuid used = used := by
  cases r with
  | startInterview goal => cases loads
  | _ => rfl

theorem Request.draw_of_not_loads {r : Request} (loads : r.loads = false) (uuid : String)
    (used : List String) : r.draw uuid used = uuid :: used := by
  cases r with
  | startInterview goal => rfl
  | _ => cases loads

theorem Request.subset_draw (r : Request) (uuid : String) (used : List String) :
    used ⊆ r.draw uuid used := by
  cases r with
  | startInterview goal => exact List.subset_cons_self _ _
  | _ => exact List.Subset.refl _

/-- The stores that the processes share, the session ids drawn so far, who holds the lock of
the database, and the processes themselves. -/
structure World where
  db : Database
  evidence : EvidenceStore
  used : List String
  lock : Option ℕ
  phase : ℕ → Phase

namespace World

/-- The process goes on to another phase. -/
def enter (w : World) (p : ℕ) (ph : Phase) : World :=
  { w with phase := Function.update w.phase p ph }

/-- No session has been started and nothing is running. -/
structure Initial (w : World) : Prop where
  db : w.db = []
  folder : ∀ session, w.evidence.folder session = []
  used : w.used = []
  lock : w.lock = none
  phase : ∀ p, w.phase p = .idle

end World

/-- A step of one of the processes. -/
inductive Step : World → World → Prop
  /-- A call passes its checks and takes the lock. A start has drawn a new id. -/
  | begin {w : World} {p : ℕ} {r : Request} {uuid : String} :
      w.phase p = .idle → w.lock = none → r.check = .ok () → isHex32 uuid →
      (r.loads = false → uuid ∉ w.used) →
      Step w { w.enter p (.begun r uuid) with lock := some p, used := r.draw uuid w.used }
  /-- The transaction lists the event files; a start has nothing to list. -/
  | list {w : World} {p : ℕ} {r : Request} {uuid : String} :
      w.phase p = .begun r uuid →
      (r.loads = true → checkFolder (r.session uuid) = .ok ()) →
      Step w (w.enter p (.loading r uuid
        (if r.loads then eventStems (w.evidence.folder (r.session uuid)) else []) []))
  /-- It reads the next file of the listing. -/
  | load {w : World} {p : ℕ} {r : Request} {uuid stem : String} {pending : List String}
      {loaded : List RawEvent} {event : RawEvent} :
      w.phase p = .loading r uuid (stem :: pending) loaded →
      w.evidence.loadEvent (r.session uuid) (loaded.length + 1) stem = .ok event →
      Step w (w.enter p (.loading r uuid pending (loaded ++ [event])))
  /-- It commits and releases the lock. -/
  | commit {w : World} {p : ℕ} {r : Request} {uuid : String} {loaded : List RawEvent}
      {db : Database} :
      w.phase p = .loading r uuid [] loaded → r.transact uuid w.db loaded = .ok db →
      Step w { w.enter p (.committed (r.session uuid)) with db := db, lock := none }
  /-- A transaction fails and leaves the database as it was. -/
  | rollback {w : World} {p : ℕ} :
      (w.phase p).holds → Step w { w.enter p .idle with lock := none }
  /-- The stored events are read for the export. -/
  | read {w : World} {p : ℕ} {session : String} {state : State} :
      w.phase p = .committed session → replay session (w.db.events session) = .ok state →
      Step w (w.enter p (.publishing session
        (emitted (exportsOf QUESTIONS) 1 (w.db.events session))))
  /-- `put` links its file to the name, or finds the name taken. -/
  | link {w : World} {p : ℕ} {session now : String} {e : Export}
      {queue : List (Except Failure Export)} :
      w.phase p = .publishing session (.ok e :: queue) →
      checkPath session e.evidenceId = .ok () →
      Step w { w.enter p (.linked session e now
          (w.evidence.link session e.evidenceId (e.text session now)).2 queue) with
        evidence := (w.evidence.link session e.evidenceId (e.text session now)).1 }
  /-- `put` compares and reads the file that has the name now. -/
  | verify {w : World} {p : ℕ} {session now : String} {e : Export} {existed : Bool}
      {queue : List (Except Failure Export)} {record : Fields} :
      w.phase p = .linked session e now existed queue →
      w.evidence.verify session e now existed = .ok record →
      Step w (w.enter p (.publishing session queue))
  /-- A call outside its transaction returns or is cut off. -/
  | stop {w : World} {p : ℕ} : (w.phase p).holds = false → Step w (w.enter p .idle)

/-- The states that the processes can reach. -/
abbrev Reached : World → Prop := Reachable World.Initial Step

/-! ### The invariant -/

/-- What a transaction relies on: it has passed its checks, and the session that it
starts has no events yet. -/
def RequestOk (past : String → Option History) (used : List String) (r : Request) (uuid : String) :
    Prop :=
  r.check = .ok () ∧ isHex32 uuid ∧ (r.loads = false → uuid ∈ used ∧ past uuid = none)

/-- What a phase relies on, given the history of each session and the folders: a
transaction has read a copy of the events; a publisher has put the first files of
its session in their order. -/
def PhaseOk (past : String → Option History) (used : List String) (folder : String → Folder) :
    Phase → Prop
  | .idle => True
  | .begun r uuid => RequestOk past used r uuid
  | .loading r uuid _ loaded =>
    RequestOk past used r uuid ∧ loaded <+: rowsOf (past (r.session uuid))
  | .committed _ => True
  | .publishing session queue => ∃ done : List Export,
    done.map .ok ++ queue <+: (filesOf (past session)).map .ok ∧
      done.length ≤ (folder session).keys.length
  | .linked session _ _ _ queue => ∃ done : List Export,
    done.map .ok ++ queue <+: (filesOf (past session)).map .ok ∧
      done.length ≤ (folder session).keys.length

/-- The invariant: every session has a history, whose events are in the database and
the first of whose files are in its folder. -/
structure Agreement (past : String → Option History) (w : World) : Prop where
  rows : ∀ session, w.db.events session = rowsOf (past session)
  files : ∀ session, Published (w.evidence.folder session) session (filesOf (past session))
  known : ∀ session, past session ≠ none → session ∈ w.used
  hex : ∀ session ∈ w.used, isHex32 session
  held : ∀ p, (w.phase p).holds → w.lock = some p
  phases : ∀ p, PhaseOk past w.used w.evidence.folder (w.phase p)

theorem RequestOk.mono {past : String → Option History} {used used' : List String} {r : Request}
    {uuid : String} (h : RequestOk past used r uuid) (drawn : used ⊆ used') :
    RequestOk past used' r uuid :=
  ⟨h.1, h.2.1, fun loads => ⟨drawn (h.2.2 loads).1, (h.2.2 loads).2⟩⟩

/-- What a process relies on survives the growth of the sessions and of the folders,
as long as nobody else commits while it is inside a transaction. -/
theorem PhaseOk.mono {past past' : String → Option History} {used used' : List String}
    {folder folder' : String → Folder} {ph : Phase} (h : PhaseOk past used folder ph)
    (grown : ∀ session, rowsOf (past session) <+: rowsOf (past' session)) (drawn : used ⊆ used')
    (more : ∀ session, (folder session).keys.length ≤ (folder' session).keys.length)
    (kept : ph.holds → past' = past) : PhaseOk past' used' folder' ph := by
  cases ph with
  | idle => trivial
  | committed session => trivial
  | begun r uuid =>
    rw [kept rfl]
    exact RequestOk.mono h drawn
  | loading r uuid pending loaded =>
    rw [kept rfl]
    exact ⟨h.1.mono drawn, h.2⟩
  | publishing session queue =>
    obtain ⟨done, copy, behind⟩ := h
    exact ⟨done, copy.trans ((prefix_filesOf (grown session)).map _), behind.trans (more session)⟩
  | linked session e now existed queue =>
    obtain ⟨done, copy, behind⟩ := h
    exact ⟨done, copy.trans ((prefix_filesOf (grown session)).map _), behind.trans (more session)⟩

/-- The files of a folder are linked one by one, so it never gets smaller. -/
theorem length_keys_link_le (store : EvidenceStore) (session id text s : String) :
    (store.folder s).keys.length ≤
      ((store.link session id text).1.folder s).keys.length := by
  by_cases same : s = session
  · subst same
    rw [keys_link]
    exact (prefix_putAbsent _ _).length_le
  · rw [link_folder_of_ne same]

/-- **Reading the next event file** of a listing extends the copy that has been read. -/
theorem loadEvent_next {store : EvidenceStore} {session stem : String} {past : Option History}
    {loaded : List RawEvent} {event : RawEvent}
    (published : Published (store.folder session) session (filesOf past))
    (copy : loaded <+: rowsOf past)
    (read : store.loadEvent session (loaded.length + 1) stem = .ok event) :
    loaded ++ [event] <+: rowsOf past := by
  obtain ⟨record, found, decoded⟩ : ∃ record, store.read session stem = .ok record ∧
      eventOf (loaded.length + 1) stem record = .ok event := by
    rw [loadEvent] at read
    cases found : store.read session stem with
    | error failure => simp [found, bind, Except.bind] at read
    | ok record => exact ⟨record, rfl, by simpa [found, bind, Except.bind] using read⟩
  obtain ⟨valid, listed⟩ := mem_keys_of_read found
  -- An accepted file is named by the number it is expected to have.
  obtain rfl := stem_of_eventOf decoded
  cases past with
  | none =>
    rw [List.prefix_nil.mp published.order] at listed
    cases listed
  | some h =>
    have numbered := (History.eventId_mem_keys_iff published).mp listed
    obtain ⟨bound, same⟩ := History.loadEvent_of_published published valid
      (i := loaded.length) (by omega)
    have isNext : h.rows[loaded.length] = event := Except.ok.inj (same.symm.trans read)
    rw [← isNext]
    exact concat_getElem_prefix copy bound

namespace Agreement

variable {past : String → Option History} {w : World} {p : ℕ}

/-- Nothing has happened yet. -/
theorem start (h : w.Initial) : Agreement (fun _ => none) w where
  rows session := by rw [h.db]; rfl
  files session := h.folder session ▸ Published.empty session _
  known session begun := absurd rfl begun
  hex session member := by rw [h.used] at member; cases member
  held q holds := by rw [h.phase q] at holds; cases holds
  phases q := h.phase q ▸ trivial

/-- A process moves to a phase that it may be in; nothing else changes. -/
theorem enter (h : Agreement past w) {ph : Phase}
    (allowed : PhaseOk past w.used w.evidence.folder ph)
    (held : ph.holds → w.lock = some p) : Agreement past (w.enter p ph) := by
  refine ⟨h.rows, h.files, h.known, h.hex, fun q holds => ?_, fun q => ?_⟩
  · by_cases same : q = p
    · subst same
      simp only [World.enter, Function.update_self] at holds
      exact held holds
    · simp only [World.enter, Function.update_of_ne same] at holds
      exact h.held q holds
  · by_cases same : q = p
    · subst same
      simpa only [World.enter, Function.update_self] using allowed
    · simpa only [World.enter, Function.update_of_ne same] using h.phases q

/-- A call that starts a session draws an id that no session has. -/
theorem begin (h : Agreement past w) {r : Request} {uuid : String} (unlocked : w.lock = none)
    (check : r.check = .ok ()) (hex : isHex32 uuid) (fresh : r.loads = false → uuid ∉ w.used) :
    Agreement past { w.enter p (.begun r uuid) with
      lock := some p, used := r.draw uuid w.used } where
  rows := h.rows
  files := h.files
  known session begun := r.subset_draw uuid w.used (h.known session begun)
  hex session member := by
    cases loads : r.loads with
    | true => exact h.hex session (r.draw_of_loads loads uuid w.used ▸ member)
    | false =>
      simp only [r.draw_of_not_loads loads uuid w.used] at member
      rcases List.mem_cons.mp member with rfl | old
      · exact hex
      · exact h.hex session old
  held q holds := by
    by_cases same : q = p
    · rw [same]
    -- Nobody else holds the lock.
    · have := h.held q (by simpa only [World.enter, Function.update_of_ne same] using holds)
      rw [unlocked] at this
      cases this
  phases q := by
    by_cases same : q = p
    · subst same
      simp only [World.enter, Function.update_self]
      refine ⟨check, hex, fun loads => ⟨?_, by_contra fun begun =>
        fresh loads (h.known uuid begun)⟩⟩
      simp [r.draw_of_not_loads loads]
    · simp only [World.enter, Function.update_of_ne same]
      exact (h.phases q).mono (fun _ => List.prefix_rfl) (r.subset_draw uuid w.used)
        (fun _ => le_rfl) fun _ => rfl

/-- Only one process is inside a transaction. -/
theorem not_holds_of_ne (h : Agreement past w) (holds : (w.phase p).holds) {q : ℕ} (other : q ≠ p) :
    (w.phase q).holds = false := by
  by_contra also
  have := (h.held q (by simpa using also)).symm.trans (h.held p holds)
  exact other (Option.some.inj this)

/-- A rollback releases the lock. -/
theorem rollback (h : Agreement past w) (holds : (w.phase p).holds) :
    Agreement past { w.enter p .idle with lock := none } := by
  have entered : Agreement past (w.enter p .idle) := h.enter trivial fun absurd => by cases absurd
  refine { entered with held := fun q also => ?_ }
  by_cases same : q = p
  · subst same
    simp [World.enter, Phase.holds] at also
  · have free := h.not_holds_of_ne holds same
    simp [World.enter, Function.update_of_ne same, free] at also

/-- **A commit** extends the history of its session. -/
theorem commit (h : Agreement past w) {r : Request} {uuid : String} {loaded : List RawEvent}
    {db : Database} (at_ : w.phase p = .loading r uuid [] loaded)
    (done : r.transact uuid w.db loaded = .ok db) :
    ∃ past', Agreement past' { w.enter p (.committed (r.session uuid)) with
      db := db, lock := none } := by
  have holds : (w.phase p).holds := by rw [at_]; rfl
  have allowed := h.phases p
  rw [at_] at allowed
  obtain ⟨⟨check, hex, fresh⟩, copy⟩ := allowed
  have rows := h.rows (r.session uuid)
  obtain ⟨begun, new, h', -, stored, events⟩ :=
    transact_cases check hex (rows ▸ List.prefix_rfl) copy (fun loads => by cases r with
      | startInterview goal => exact (fresh loads).2
      | _ => cases loads) done
  -- The database is never behind the files, so there is nothing to import.
  have fewer : loaded.length ≤ (w.db.events (r.session uuid)).length := rows ▸ copy.length_le
  rw [List.drop_eq_nil_of_le fewer, List.nil_append] at stored
  rw [longer, if_neg (not_lt.mpr fewer), rows] at events
  subst stored
  have grown : ∀ session, rowsOf (past session) <+:
      rowsOf (Function.update past (r.session uuid) (some h') session) := by
    intro session
    by_cases same : session = r.session uuid
    · subst same
      rw [Function.update_self]
      exact ⟨new, events.symm⟩
    · rw [Function.update_of_ne same]
  refine ⟨Function.update past (r.session uuid) (some h'), fun session => ?_, fun session =>
    (h.files session).mono (prefix_filesOf (grown session)), fun session started => ?_, h.hex,
    fun q also => ?_, fun q => ?_⟩
  · by_cases same : session = r.session uuid
    · subst same
      rw [Function.update_self, Database.events_append_rows, rows]
      exact events.symm
    · rw [Function.update_of_ne same, Database.events_append_rows_of_ne _ same]
      exact h.rows session
  · by_cases same : session = r.session uuid
    · subst same
      cases r with
      | startInterview goal => exact (fresh rfl).1
      | _ => exact h.known _ (begun rfl)
    · rw [Function.update_of_ne same] at started
      exact h.known session started
  · by_cases same : q = p
    · subst same
      simp [World.enter, Phase.holds] at also
    · have free := h.not_holds_of_ne holds same
      simp [World.enter, Function.update_of_ne same, free] at also
  · by_cases same : q = p
    · subst same
      simp only [World.enter, Function.update_self]
      trivial
    · have free := h.not_holds_of_ne holds same
      simp only [World.enter, Function.update_of_ne same]
      exact (h.phases q).mono grown (List.Subset.refl _) (fun _ => le_rfl) fun also => by
        rw [free] at also
        cases also

/-- **Linking the next file** of a publisher keeps every folder the first files of
its session's history. -/
theorem link (h : Agreement past w) {session now : String} {e : Export}
    {queue : List (Except Failure Export)}
    (at_ : w.phase p = .publishing session (.ok e :: queue))
    (named : checkPath session e.evidenceId = .ok ()) :
    Agreement past { w.enter p (.linked session e now
        (w.evidence.link session e.evidenceId (e.text session now)).2 queue) with
      evidence := (w.evidence.link session e.evidenceId (e.text session now)).1 } := by
  have allowed := h.phases p
  rw [at_] at allowed
  obtain ⟨done, copy, behind⟩ := allowed
  have split : done.map .ok ++ .ok e :: queue = (done ++ [e]).map .ok ++ queue := by simp
  rw [split] at copy
  have next := prefix_of_map_ok ((List.prefix_append _ _).trans copy)
  have valid : isEvidenceId e.evidenceId := by
    by_contra bad
    simp [checkPath, bad] at named
  obtain ⟨files, ahead⟩ := (h.files session).link (nodup_filesOf _) next behind valid now
  have more := length_keys_link_le w.evidence session e.evidenceId (e.text session now)
  -- Only the folder of this session and the phase of this process change.
  refine ⟨h.rows, fun s => ?_, h.known, h.hex, fun q holds => ?_, fun q => ?_⟩
  · by_cases same : s = session
    · subst same
      exact files
    · have other : (w.evidence.link session e.evidenceId (e.text session now)).1.folder s =
          w.evidence.folder s := link_folder_of_ne same
      exact other ▸ h.files s
  · by_cases same : q = p
    · subst same
      simp [World.enter, Phase.holds] at holds
    · simp only [World.enter, Function.update_of_ne same] at holds
      exact h.held q holds
  · by_cases same : q = p
    · subst same
      simp only [World.enter, Function.update_self]
      exact ⟨done ++ [e], copy, ahead⟩
    · simp only [World.enter, Function.update_of_ne same]
      exact (h.phases q).mono (fun _ => List.prefix_rfl) (List.Subset.refl _) more fun _ => rfl

/-- **Every step keeps the invariant.** -/
theorem step (h : Agreement past w) {w' : World} (one : Step w w') :
    ∃ past', Agreement past' w' := by
  cases one with
  | begin _ unlocked check hex fresh => exact ⟨past, h.begin unlocked check hex fresh⟩
  | @list p r uuid at_ _ =>
    have allowed := h.phases p
    rw [at_] at allowed
    exact ⟨past, h.enter ⟨allowed, List.nil_prefix⟩ fun _ => h.held p (by rw [at_]; rfl)⟩
  -- The copy that is being read stays a prefix of the history.
  | @load p r uuid stem pending loaded event at_ read =>
    have allowed := h.phases p
    rw [at_] at allowed
    exact ⟨past, h.enter ⟨allowed.1, loadEvent_next (h.files _) allowed.2 read⟩ fun _ =>
      h.held p (by rw [at_]; rfl)⟩
  | commit at_ done => exact h.commit at_ done
  | rollback holds => exact ⟨past, h.rollback holds⟩
  | @read p session state at_ _ =>
    refine ⟨past, h.enter ⟨[], ?_, Nat.zero_le _⟩ fun absurd => by cases absurd⟩
    rw [h.rows session, emitted_rowsOf]
    exact List.prefix_rfl
  | link at_ named => exact ⟨past, h.link at_ named⟩
  | @verify p session now e existed queue record at_ _ =>
    have allowed := h.phases p
    rw [at_] at allowed
    exact ⟨past, h.enter allowed fun absurd => by cases absurd⟩
  | stop _ => exact ⟨past, h.enter trivial fun absurd => by cases absurd⟩

end Agreement

/-- Every reached state has a history for each session. -/
theorem exists_agreement {w : World} (reached : Reached w) : ∃ past, Agreement past w := by
  induction reached with
  | start initial => exact ⟨_, .start initial⟩
  | next _ one ih =>
    obtain ⟨past, h⟩ := ih
    exact h.step one

/-- **A published file never changes.** -/
theorem get?_of_steps {w w' : World} (run : Relation.ReflTransGen Step w w')
    {session id text : String} (found : (w.evidence.folder session).get? id = some text) :
    (w'.evidence.folder session).get? id = some text := by
  induction run with
  | refl => exact found
  | tail _ one ih =>
    cases one with
    | link _ _ => exact get?_link ih
    | _ => exact ih

/-! ### Agreement of the stores -/

/-- The file of a number holds the kind and the payload of an event. -/
def FileHolds (store : EvidenceStore) (session : String) (number : ℕ) (event : RawEvent) : Prop :=
  ∃ record content payload, store.read session (eventId number) = .ok record ∧
    record.get? "content" = some (.obj content) ∧
    Dict.get? content "sequence" = some (.int number) ∧
    Dict.get? content "event" = some (.str event.1) ∧
    Dict.get? content "payload" = some payload ∧ parse event.2 = .ok payload

/-- What holds of the stores of a session: the event files are those of the first
events of the database; replay does not raise; and a frozen seed is the last event
and repeats the goal and the last answers. -/
structure EventLogAgrees (w : World) (session : String) : Prop where
  files : ∃ k ≤ (w.db.events session).length,
    eventStems (w.evidence.folder session) = (List.range' 1 k).map eventId ∧
      ∀ i (bound : i < (w.db.events session).length), i < k →
        FileHolds w.evidence session (i + 1) (w.db.events session)[i]
  replayed : w.db.events session ≠ [] → ∃ state, replay session (w.db.events session) = .ok state
  frozen : ∀ i (bound : i < (w.db.events session).length),
    (w.db.events session)[i].1 = "seed_frozen" → i + 1 = (w.db.events session).length ∧
      (∃ goal, fieldOf "goal" (w.db.events session)[i] = some goal ∧
        startedGoal (w.db.events session) = some goal) ∧
      ∀ field ∈ ["constraints", "acceptance_criteria"], ∃ answer,
        fieldOf field (w.db.events session)[i] = some answer ∧
          lastAnswer (w.db.events session) field = some answer

/-- The event files of a history hold its first events. -/
theorem History.fileHolds {h : History} {store : EvidenceStore} {session : String}
    (published : Published (store.folder session) session h.exports) (valid : isSessionId session)
    {i : ℕ} (inside : i < h.present (store.folder session)) (bound : i < h.rows.length) :
    FileHolds store session (i + 1) h.rows[i] := by
  obtain ⟨bound', now, read⟩ := read_of_published published valid inside
  obtain ⟨fields, content, sequence, payload, kind⟩ := h.events[i].exists_content (i + 1)
  refine ⟨_, fields, h.events[i].payload, read, ?_, sequence, ?_, payload, ?_⟩
  · rw [← content]
    rfl
  · simpa [rows] using kind
  · simp [rows]

/-- A frozen seed says what the history says. -/
theorem History.frozen_rows (h : History) {i : ℕ} (bound : i < h.rows.length)
    (frozen : h.rows[i].1 = "seed_frozen") :
    i + 1 = h.rows.length ∧
      (∃ goal, fieldOf "goal" h.rows[i] = some goal ∧ startedGoal h.rows = some goal) ∧
      ∀ field ∈ ["constraints", "acceptance_criteria"], ∃ answer,
        fieldOf field h.rows[i] = some answer ∧ lastAnswer h.rows field = some answer := by
  have inside : i < h.events.length := by simpa using bound
  have kind : h.events[i].kind = "seed_frozen" := by simpa [rows] using frozen
  -- A seed is only written over a complete set of answers, and ends the history.
  obtain ⟨id, seed, last, event⟩ := h.frozen_last inside kind
  have row : h.rows[i] = (h.freezing id).raw := by simp [rows, event]
  have fields : ∀ key, fieldOf key (h.freezing id).raw = str? (h.seedFields id) key := fun key => by
    rw [fieldOf_raw]
    rfl
  have answered := (h.seed_complete id seed).2
  refine ⟨by simpa using last, ⟨h.goal, ?_, h.startedGoal_rows⟩, fun field member => ?_⟩
  · rw [row, fields]
    rfl
  · refine ⟨h.answerTo field, ?_, ?_⟩
    · rw [row, fields]
      simp only [List.mem_cons, List.not_mem_nil, or_false] at member
      rcases member with rfl | rfl <;> rfl
    · rw [h.lastAnswer_rows]
      exact h.get?_current (h.mem_keys_current.mpr (answered field member))

/-- **The event log and the files agree**, in every state that any interleaving of the
processes reaches, and a published file stays as it is. -/
theorem eventLogAgrees_of_reachable {w : World} (reached : Reached w) (session : String) :
    EventLogAgrees w session ∧
      ∀ w', Relation.ReflTransGen Step w w' → ∀ id text,
        (w.evidence.folder session).get? id = some text →
          (w'.evidence.folder session).get? id = some text := by
  refine ⟨?_, fun w' run id text found => get?_of_steps run found⟩
  obtain ⟨past, h⟩ := exists_agreement reached
  have rows := h.rows session
  have published := h.files session
  -- The agreement of a reachable state gives one history for both the log and the folder.
  cases begun : past session with
  | none =>
    rw [begun] at rows published
    have empty : w.evidence.folder session = [] :=
      List.map_eq_nil_iff.mp (List.prefix_nil.mp published.order)
    refine ⟨⟨0, Nat.zero_le _, by rw [empty]; rfl, fun i _ absurd => by omega⟩,
      fun some => absurd rows some, fun i bound => ?_⟩
    rw [rows] at bound
    cases bound
  | some past =>
    rw [begun] at rows published
    have valid : isSessionId session := by
      simp [isSessionId, h.hex session (h.known session (by simp [begun]))]
    refine ⟨⟨past.present (w.evidence.folder session), ?_,
      History.eventStems_of_published published, fun i bound inside => ?_⟩, fun _ => ?_,
      fun i bound frozen => ?_⟩
    · rw [rows, rowsOf, past.length_rows]
      exact min_le_right _ _
    · simp only [rows] at bound ⊢
      exact History.fileHolds published valid inside bound
    · rw [rows]
      exact ⟨_, past.replay_rows session⟩
    · simp only [rows] at bound frozen ⊢
      exact past.frozen_rows bound frozen

/-- A session id. -/
def zeroId : String := "00000000000000000000000000000000"

/-- The stores before any call, under a root directory. -/
def World.empty (root : String) : World := ⟨[], ⟨root, fun _ => []⟩, [], none, fun _ => .idle⟩

theorem World.initial_empty (root : String) : (World.empty root).Initial :=
  ⟨rfl, fun _ => rfl, rfl, rfl, fun _ => rfl⟩

/-- The past of a session that has been started. -/
def startedHistory : History := .opening (strip "a") (by decide)

/-- The file of its event. -/
def startedFile : Export := (Event.started (strip "a")).file 1

theorem checkPath_startedFile : checkPath zeroId startedFile.evidenceId = .ok () := by
  rw [startedFile, Event.file, checkPath, if_pos (isEvidenceId_eventId.mpr (by decide)),
    checkFolder, if_pos (by decide)]

/-- The folders with this file alone. -/
def startedStore : EvidenceStore :=
  ((World.empty "evidence").evidence.link zeroId startedFile.evidenceId
    (startedFile.text zeroId "")).1

theorem folder_startedStore :
    startedStore.folder zeroId = [(startedFile.evidenceId, startedFile.text zeroId "")] := by
  have absent : startedFile.evidenceId ∉ ((World.empty "evidence").evidence.folder zeroId).keys :=
    List.not_mem_nil
  exact link_of_notMem absent

theorem eventStems_startedStore :
    eventStems (startedStore.folder zeroId) = [startedFile.evidenceId] := by
  have prefixed : (afterPrefix? "event-" startedFile.evidenceId).isSome :=
    isSome_afterPrefix?_eventId 1
  rw [eventStems, folder_startedStore]
  simp [Dict.keys, prefixed]

theorem read_startedStore :
    startedStore.read zeroId startedFile.evidenceId = .ok (startedFile.record zeroId "") := by
  refine read_of_text (Event.isPlain_content (.started (strip "a")) 1) checkPath_startedFile ?_
  rw [folder_startedStore, Dict.get?_cons, if_pos rfl]

theorem loadEvent_startedStore :
    startedStore.loadEvent zeroId 1 startedFile.evidenceId =
      .ok (Event.started (strip "a")).raw := by
  rw [← Event.eventOf_record (.started (strip "a")) 1 zeroId "", loadEvent, read_startedStore]
  rfl

theorem transact_started :
    ∃ db, (Request.recordAnswer zeroId "constraints" "b").transact zeroId
      [toRow zeroId (Event.started (strip "a")).raw] [(Event.started (strip "a")).raw] = .ok db ∧
      (db.events zeroId).length = 2 :=
  exists_ok_of_any_toOption (by decide +kernel)

/-- One process has given the file of the first event its name and has not returned, and another
one has read this file and committed an answer. -/
theorem eventLogAgrees_answered : ∃ w : World, (w.db.events zeroId).length = 2 ∧
    (w.evidence.folder zeroId).keys = [eventId 1] ∧ EventLogAgrees w zeroId ∧
    ∀ w', Relation.ReflTransGen Step w w' → ∀ id text,
      (w.evidence.folder zeroId).get? id = some text →
        (w'.evidence.folder zeroId).get? id = some text := by
  have check : (Request.startInterview "a").check = .ok () := by
    rw [Request.check, if_neg (by decide)]
  have answers : (Request.recordAnswer zeroId "constraints" "b").check = .ok () := by
    rw [Request.check, if_neg (by decide), if_neg (by decide)]
  have hex : isHex32 zeroId := by decide
  have started : Reached (World.empty "evidence") := .start (World.initial_empty "evidence")
  have begun := started.next (.begin (p := 0) rfl rfl check hex fun _ => List.not_mem_nil)
  have listed := begun.next (.list (p := 0) (r := .startInterview "a") rfl fun absurd => by
    cases absurd)
  have committed := listed.next (.commit (p := 0) (r := .startInterview "a") rfl rfl)
  have read := committed.next (.read (p := 0) rfl (startedHistory.replay_rows zeroId))
  have queued : emitted (exportsOf QUESTIONS) 1 startedHistory.rows = [.ok startedFile] :=
    startedHistory.emitted_rows
  have linked := read.next (@Step.link _ 0 zeroId "" startedFile []
    (congrArg (Phase.publishing zeroId) queued) checkPath_startedFile)
  have begun' := linked.next (.begin (p := 1) rfl rfl answers hex fun absurd => by cases absurd)
  have listed' := begun'.next (.list (p := 1) (r := .recordAnswer zeroId "constraints" "b") rfl
    fun _ => rfl)
  have loaded := listed'.next (.load (p := 1)
    (congrArg (fun stems => Phase.loading _ _ stems []) eventStems_startedStore)
    loadEvent_startedStore)
  obtain ⟨db, done, two⟩ := transact_started
  have answered := loaded.next (.commit (p := 1) rfl done)
  refine ⟨_, two, ?_, eventLogAgrees_of_reachable answered zeroId⟩
  exact congrArg Dict.keys folder_startedStore

end AgentLabs.Interview
