import AgentLabs.Interview.Atomicity
import AgentLabs.Interview.Imports
import AgentLabs.Text.Halves

/-!
# Calls within the limits of the interpreter

The files of a session may hold what no string of the program can: halves of surrogate pairs, which
`json.loads` reads and the database cannot take. And a file may be nested deeper than `json.loads`
follows, or a record deeper than `json.dump` follows when it writes with an indent: then a
`RecursionError` ends the call. Here the calls are taken up with all of this.

How deep the interpreter follows is not known, and so it is a parameter. What `json.loads` has read
of a file is nested less deep than the file, and `json.dumps` without an indent and a comparison
follow as deep as `json.loads`, so that these are not asked again.

## Main definitions

* `Limits`: how deep the interpreter follows
* `TooDeep`, `TripsPut`: what is nested too deep
* `EvidenceStore.asRead`: a folder as `json.loads` reads it
* `Workflow.runWithin`: a call within the limits

## Main results

* `Workflow.runWithin_eq_run`: without halves, and where nothing is too deep, it is the call
-/

namespace AgentLabs.Interview

open Math Text

/-- The texts that are nested deeper than `json.loads` follows, and those that are nested deeper
than `json.dump` follows when it writes them with an indent. -/
structure Limits where
  deep : String → Bool
  steep : String → Bool

namespace EvidenceStore

/-! ### Files -/

/-- The folder of the session as `json.loads` reads it. -/
def asRead (width : ℕ) (session : String) (store : EvidenceStore) : EvidenceStore :=
  { store with
    folder := Function.update store.folder session
      ((store.folder session).map fun file => (file.1, Json.asRead width file.2)) }

/-- The folder of the session as it was, with the files that have been added since. -/
def restore (session : String) (store added : EvidenceStore) : EvidenceStore :=
  { store with
    folder := Function.update store.folder session
      (store.folder session ++ (added.folder session).drop (store.folder session).length) }

/-- `json.loads` follows the file, if there is one. -/
def follow (limits : Limits) (store : EvidenceStore) (session id : String) : Except Failure Unit :=
  match (store.folder session).get? id with
  | some text => if limits.deep text = true then .error (.raised "RecursionError") else .ok ()
  | none => .ok ()

/-- `read`. -/
def readWithin (limits : Limits) (store : EvidenceStore) (session id : String) :
    Except Failure Fields := do
  checkPath session id
  store.follow limits session id
  store.read session id

/-- One turn of the loop of `load_events`. -/
def loadEventWithin (limits : Limits) (store : EvidenceStore) (session : String) (number : ℕ)
    (stem : String) : Except Failure RawEvent := do
  let record ← store.readWithin limits session stem
  eventOf number stem record

/-- The loop of `load_events`, from a number on. -/
def loadFromWithin (limits : Limits) (store : EvidenceStore) (session : String) :
    ℕ → List String → Except Failure (List RawEvent)
  | _, [] => .ok []
  | number, stem :: rest => do
    let event ← store.loadEventWithin limits session number stem
    let events ← store.loadFromWithin limits session (number + 1) rest
    return event :: events

/-- `load_events`. -/
def loadEventsWithin (limits : Limits) (store : EvidenceStore) (session : String) :
    Except Failure (List RawEvent) := do
  checkFolder session
  store.loadFromWithin limits session 1 (eventStems (store.folder session))

/-- What `put` does once the name is taken. -/
def verifyWithin (limits : Limits) (store : EvidenceStore) (session : String) (e : Export)
    (now : String) (existed : Bool) : Except Failure Fields := do
  if existed then
    let existing ← store.readWithin limits session e.evidenceId
    if sameEvidence existing (e.record session now) = false then
      throw (.evidence "evidence_conflict" ("기존 근거와 내용이 다릅니다: " ++ e.evidenceId))
  store.readWithin limits session e.evidenceId

/-- `put`. -/
def putWithin (limits : Limits) (store : EvidenceStore) (session : String) (e : Export)
    (now : String) (disk : Disk) : EvidenceStore × Except Failure Fields :=
  match checkPath session e.evidenceId with
  | .error failure => (store, .error failure)
  | .ok () =>
    if disk = .full then (store, .error (.os "OSError"))
    -- The record is written to a temporary file, which is removed where that fails.
    else if limits.steep (e.text session now) = true then
      (store, .error (.raised "RecursionError"))
    else
      let linked := store.link session e.evidenceId (e.text session now)
      if disk = .lost then (linked.1, .error (.os "OSError"))
      else (linked.1, linked.1.verifyWithin limits session e now linked.2)

/-- Publish what is queued, up to the first exception. -/
def putAllWithin (limits : Limits) (clock : String → String) (disk : String → Disk)
    (session : String) :
    List (Except Failure Export) → EvidenceStore → EvidenceStore × Except Failure Unit
  | [], store => (store, .ok ())
  | .error failure :: _, store => (store, .error failure)
  | .ok e :: rest, store =>
    match store.putWithin limits session e (clock e.evidenceId) (disk e.evidenceId) with
    | (store, .ok _) => putAllWithin limits clock disk session rest store
    | (store, .error failure) => (store, .error failure)

end EvidenceStore

/-! ### Transactions -/

/-- `_append`, as far as it fails: the database takes no half of a pair. -/
def appendable (width : ℕ) : List RawEvent → Except Failure Unit
  | [] => .ok ()
  | event :: rest =>
    if Json.hasHalf width event.2 = true then .error (.raised "UnicodeEncodeError")
    else appendable width rest

/-- The part of `_load` up to the last event that it imports. -/
def importWithin (width : ℕ) (db : Database) (session : String) (files : List RawEvent) :
    Except Failure Unit := do
  let events := db.events session
  compareAll events files
  if events.length < files.length then
    -- All files are replayed before one of them is imported.
    let _ ← replay session files
    appendable width (files.drop events.length)
  else return ()

namespace Workflow

/-- One more than the characters that a call on the session may read. -/
def width (w : Workflow) (session : String) : ℕ :=
  ((w.evidence.folder session).map fun file => file.2.length).sum +
    ((w.db.events session).map fun event => event.2.length).sum + 1

/-- The transaction of a call on the stored state, with files that are as they are read. -/
def commitWithin (limits : Limits) (width : ℕ) (w : Workflow) (uuid : String) (r : Request) :
    Except Failure Database := do
  r.check
  if r.loads then
    let files ← w.evidence.loadEventsWithin limits (r.session uuid)
    -- What fails here is rolled back with the rest of the transaction.
    importWithin width w.db (r.session uuid) files
    r.transact uuid w.db files
  else r.transact uuid w.db []

/-- `_publish`. -/
def publishWithin (limits : Limits) (w : Workflow) (env : Surroundings) (session : String) :
    Workflow × Except Failure Reply :=
  match replay session (w.db.events session) with
  | .error failure => (w, .error failure)
  | .ok state =>
    match EvidenceStore.putAllWithin limits env.clock env.disk session
      (emitted (exportsOf QUESTIONS) 1 (w.db.events session)) w.evidence with
    | (evidence, .ok ()) => ({ w with evidence }, .ok (reply evidence.root state))
    | (evidence, .error failure) => ({ w with evidence }, .error (failure.ofPublishing session))

/-- The workflow with the files of the session as they are read. -/
def asRead (w : Workflow) (session : String) : Workflow :=
  { w with evidence := w.evidence.asRead (w.width session) session }

/-- A call within the limits: its transaction, and then the files. -/
def runWithin (limits : Limits) (w : Workflow) (env : Surroundings) (r : Request) :
    Workflow × Except Failure Reply :=
  let session := r.session env.uuid
  -- The files are taken as they are read, and put back as they were.
  let spelled := w.asRead session
  match spelled.commitWithin limits (w.width session) env.uuid r with
  | .error failure => (w, .error failure)
  | .ok db =>
    let done := { spelled with db }.publishWithin limits env session
    ({ db, evidence := w.evidence.restore session done.1.evidence }, done.2)

end Workflow

/-! ### What is too deep -/

/-- The file of a name is nested too deep to be read. -/
def TooDeep (limits : Limits) (store : EvidenceStore) (session id : String) : Prop :=
  EvidenceStore.checkPath session id = .ok () ∧
    ∃ text, (store.folder session).get? id = some text ∧ limits.deep text = true

/-- The record is nested too deep to be written, or the file of its name to be read. -/
def TripsPut (limits : Limits) (store : EvidenceStore) (session : String) (e : Export)
    (now : String) (disk : Disk) : Prop :=
  EvidenceStore.checkPath session e.evidenceId = .ok () ∧ disk ≠ .full ∧
    (limits.steep (e.text session now) = true ∨ disk ≠ .lost ∧
      TooDeep limits (store.link session e.evidenceId (e.text session now)).1 session e.evidenceId)

namespace EvidenceStore

section Deep

variable {limits : Limits} {store : EvidenceStore} {session now : String}

/-- A file that is not nested too deep is read as it is without the limits. -/
theorem readWithin_of_not_tooDeep {id : String} (shallow : ¬ TooDeep limits store session id) :
    store.readWithin limits session id = store.read session id := by
  unfold readWithin EvidenceStore.read
  cases path : checkPath session id with
  | error failure => rfl
  | ok u =>
    have followed : store.follow limits session id = .ok () := by
      unfold follow
      cases there : (store.folder session).get? id with
      | none => rfl
      | some text => exact if_neg fun deep => shallow ⟨path, text, there, deep⟩
    rw [ok_bind, ok_bind, followed, ok_bind]

theorem readWithin_of_tooDeep {id : String} (deep : TooDeep limits store session id) :
    store.readWithin limits session id = .error (.raised "RecursionError") := by
  obtain ⟨path, text, there, deep⟩ := deep
  simp only [readWithin, path, ok_bind, follow, there, deep, if_true]
  rfl

/-- A record that is not nested too deep is put as it is without the limits. -/
theorem putWithin_of_not_tripsPut {e : Export} {disk : Disk}
    (shallow : ¬ TripsPut limits store session e now disk) :
    store.putWithin limits session e now disk = store.put session e now disk := by
  unfold putWithin put
  cases path : checkPath session e.evidenceId with
  | error failure => rfl
  | ok u =>
    dsimp only
    by_cases full : disk = .full
    · rw [if_pos full, if_pos full]
    -- From here on the two differ only where something is too deep.
    rw [if_neg full, if_neg full, if_neg fun steep => shallow ⟨path, full, .inl steep⟩]
    by_cases lost : disk = .lost
    · rw [if_pos lost, if_pos lost]
    rw [if_neg lost, if_neg lost]
    have read : (store.link session e.evidenceId (e.text session now)).1.readWithin limits session
        e.evidenceId =
          (store.link session e.evidenceId (e.text session now)).1.read session e.evidenceId :=
      readWithin_of_not_tooDeep fun deep => shallow ⟨path, full, .inr ⟨lost, deep⟩⟩
    simp only [verifyWithin, verify, read]

theorem putWithin_of_tripsPut {e : Export} {disk : Disk}
    (trips : TripsPut limits store session e now disk) :
    (store.putWithin limits session e now disk).2 = .error (.raised "RecursionError") := by
  obtain ⟨path, full, trips⟩ := trips
  unfold putWithin
  simp only [path, if_neg full]
  by_cases steep : limits.steep (e.text session now) = true
  · rw [if_pos steep]
  · obtain ⟨lost, deep⟩ := trips.resolve_left steep
    rw [if_neg steep, if_neg lost]
    dsimp only
    rw [verifyWithin, readWithin_of_tooDeep deep]
    split_ifs <;> rfl

end Deep

end EvidenceStore

/-! ### Where the limits are not reached -/

/-- Nothing is too deep. -/
def Limits.Shallow (limits : Limits) : Prop :=
  ∀ text, limits.deep text = false ∧ limits.steep text = false

section Shallow

variable {limits : Limits} (shallow : limits.Shallow)

include shallow

theorem not_tooDeep_of_shallow {store : EvidenceStore} {session id : String} :
    ¬ TooDeep limits store session id := by
  rintro ⟨-, text, -, deep⟩
  rw [(shallow text).1] at deep
  cases deep

theorem not_tripsPut_of_shallow {store : EvidenceStore} {session now : String} {e : Export}
    {disk : Disk} : ¬ TripsPut limits store session e now disk := by
  rintro ⟨-, -, steep | ⟨-, deep⟩⟩
  · rw [(shallow _).2] at steep
    cases steep
  · exact not_tooDeep_of_shallow shallow deep

namespace EvidenceStore

theorem loadFromWithin_eq_loadFrom (store : EvidenceStore) (session : String) (number : ℕ)
    (stems : List String) :
    store.loadFromWithin limits session number stems = store.loadFrom session number stems := by
  induction stems generalizing number with
  | nil => rfl
  | cons stem rest ih =>
    rw [loadFromWithin, loadFrom, loadEventWithin,
      readWithin_of_not_tooDeep (not_tooDeep_of_shallow shallow), ih (number + 1)]
    rfl

theorem putAllWithin_eq_putAll (clock : String → String) (disk : String → Disk) (session : String)
    (items : List (Except Failure Export)) (store : EvidenceStore) :
    putAllWithin limits clock disk session items store =
      putAll clock disk session items store := by
  induction items generalizing store with
  | nil => rfl
  | cons item rest ih =>
    cases item with
    | error failure => rfl
    | ok e =>
      rw [putAllWithin, putAll, putWithin_of_not_tripsPut (not_tripsPut_of_shallow shallow)]
      rcases store.put session e (clock e.evidenceId) (disk e.evidenceId) with ⟨store', _ | _⟩
      · rfl
      · exact ih store'

end EvidenceStore

end Shallow

/-! ### Files that are added -/

namespace EvidenceStore

/-- The store with some more files in the folder of a session. -/
def adding (session : String) (store : EvidenceStore) (more : Folder) : EvidenceStore :=
  { store with folder := Function.update store.folder session (store.folder session ++ more) }

variable (session : String)

theorem adding_nil (store : EvidenceStore) : store.adding session [] = store := by
  rw [adding, List.append_nil, Function.update_eq_self]

theorem adding_adding (store : EvidenceStore) (more others : Folder) :
    (store.adding session more).adding session others = store.adding session (more ++ others) := by
  simp only [adding, Function.update_self, Function.update_idem, List.append_assoc]

/-- What has been added is put back to what was there. -/
theorem restore_adding (store : EvidenceStore) (more : Folder) :
    store.restore session (store.adding session more) = store.adding session more := by
  simp only [restore, adding, Function.update_self, List.drop_left]

theorem exists_link_eq_adding (store : EvidenceStore) (id text : String) :
    ∃ more, (store.link session id text).1 = store.adding session more := by
  unfold link
  split_ifs with there
  · exact ⟨[], (adding_nil _ _).symm⟩
  · exact ⟨[(id, text)], by rw [adding, Dict.set_of_notMem there]⟩

theorem exists_put_eq_adding (store : EvidenceStore) (e : Export) (now : String) (disk : Disk) :
    ∃ more, (store.put session e now disk).1 = store.adding session more := by
  unfold put
  split
  · exact ⟨[], (adding_nil _ _).symm⟩
  · split_ifs
    · exact ⟨[], (adding_nil _ _).symm⟩
    · exact exists_link_eq_adding _ _ _ _
    · exact exists_link_eq_adding _ _ _ _

theorem exists_putAll_eq_adding (clock : String → String) (disk : String → Disk)
    (items : List (Except Failure Export)) (store : EvidenceStore) :
    ∃ more, (putAll clock disk session items store).1 = store.adding session more := by
  induction items generalizing store with
  | nil => exact ⟨[], (adding_nil _ _).symm⟩
  | cons item rest ih =>
    cases item with
    | error failure => exact ⟨[], (adding_nil _ _).symm⟩
    | ok e =>
      obtain ⟨more, first⟩ := exists_put_eq_adding session store e (clock e.evidenceId)
        (disk e.evidenceId)
      rw [putAll]
      rcases put : store.put session e (clock e.evidenceId) (disk e.evidenceId) with
        ⟨store', _ | _⟩
      · rw [put] at first
        exact ⟨more, first⟩
      · rw [put] at first
        obtain ⟨others, later⟩ := ih store'
        refine ⟨more ++ others, ?_⟩
        rw [← adding_adding, ← first]
        exact later

end EvidenceStore

/-! ### Halves that are imported -/

theorem appendable_cases (width : ℕ) (events : List RawEvent) :
    appendable width events = .ok () ∨
      appendable width events = .error (.raised "UnicodeEncodeError") ∧
        ∃ event ∈ events, Json.hasHalf width event.2 = true := by
  induction events with
  | nil => exact .inl rfl
  | cons event rest ih =>
    rw [appendable]
    split_ifs with half
    · exact .inr ⟨rfl, event, .head _, half⟩
    · refine ih.imp_right fun ⟨failed, found, later, half⟩ => ⟨failed, found, .tail _ later, half⟩

theorem appendable_of_half {width : ℕ} {events : List RawEvent} {event : RawEvent}
    (member : event ∈ events) (half : Json.hasHalf width event.2 = true) :
    appendable width events = .error (.raised "UnicodeEncodeError") := by
  induction events with
  | nil => cases member
  | cons first rest ih =>
    rw [appendable]
    split_ifs with here
    · rfl
    · rcases List.mem_cons.mp member with rfl | later
      · exact absurd half here
      · exact ih later

/-- The files go on from the database, and what they have in addition has a half of a pair. -/
structure HalfImported (width : ℕ) (db : Database) (session : String) (files : List RawEvent) :
    Prop where
  compared : compareAll (db.events session) files = .ok ()
  more : (db.events session).length < files.length
  replayed : ∃ state, replay session files = .ok state
  half : ∃ event ∈ files.drop (db.events session).length, Json.hasHalf width event.2 = true

/-- What fails while it is imported fails when it is loaded, but for a half of a pair. -/
theorem importWithin_cases (width : ℕ) (db : Database) (session : String) (files : List RawEvent) :
    importWithin width db session files = .ok () ∨
    (∃ failure, importWithin width db session files = .error failure ∧
      load db session files = .error failure) ∨
    HalfImported width db session files := by
  unfold importWithin load
  dsimp only
  cases compared : compareAll (db.events session) files with
  | error failure => exact .inr (.inl ⟨failure, rfl, rfl⟩)
  | ok u =>
    rw [ok_bind, ok_bind]
    split_ifs with more
    · cases replayed : replay session files with
      | error failure => exact .inr (.inl ⟨failure, rfl, rfl⟩)
      | ok state =>
        rcases appendable_cases width (files.drop (db.events session).length) with ok | ⟨-, half⟩
        · exact .inl ok
        · exact .inr (.inr ⟨compared, more, ⟨state, replayed⟩, half⟩)
    · exact .inl rfl

theorem importWithin_of_half {width : ℕ} {db : Database} {session : String} {files : List RawEvent}
    (half : HalfImported width db session files) :
    importWithin width db session files = .error (.raised "UnicodeEncodeError") := by
  obtain ⟨state, replayed⟩ := half.replayed
  obtain ⟨event, member, spelled⟩ := half.half
  simp only [importWithin, half.compared, ok_bind, if_pos half.more, replayed]
  exact appendable_of_half member spelled

namespace Workflow

variable {limits : Limits} {w : Workflow} {env : Surroundings} {r : Request}

section Shallow

variable (shallow : limits.Shallow)

include shallow

theorem commitWithin_eq_commit {width : ℕ} {uuid : String}
    (whole : ∀ files, w.evidence.loadEvents (r.session uuid) = .ok files →
      ∀ e ∈ files, Json.hasHalf width e.2 = false) :
    w.commitWithin limits width uuid r = w.commit uuid r := by
  unfold commitWithin commit
  cases r.check with
  | error failure => rfl
  | ok u =>
    rw [ok_bind, ok_bind]
    cases loads : r.loads with
    | false => rfl
    | true =>
      have loaded : w.evidence.loadEventsWithin limits (r.session uuid) =
          w.evidence.loadEvents (r.session uuid) := by
        unfold EvidenceStore.loadEventsWithin EvidenceStore.loadEvents
        simp only [EvidenceStore.loadFromWithin_eq_loadFrom shallow]
      simp only [if_true, loaded]
      cases files : w.evidence.loadEvents (r.session uuid) with
      | error failure => rfl
      | ok events =>
        rw [ok_bind, ok_bind]
        -- The only way to differ is a half in one of the rows to import.
        rcases importWithin_cases width w.db (r.session uuid) events with
          imported | ⟨failure, failed, load⟩ | half
        · rw [imported, ok_bind]
        · rw [failed, transact_of_load_error loads load]
          rfl
        · obtain ⟨event, member, spelled⟩ := half.half
          rw [whole events files event (List.mem_of_mem_drop member)] at spelled
          cases spelled

theorem publishWithin_eq_publish (session : String) :
    w.publishWithin limits env session = w.publish env session := by
  unfold publishWithin
  simp only [EvidenceStore.putAllWithin_eq_putAll shallow]
  rfl

omit shallow in
/-- Publishing adds files to the folder of the session. -/
theorem exists_publish_eq_adding (w : Workflow) (env : Surroundings) (session : String) :
    ∃ more, (w.publish env session).1 = ⟨w.db, w.evidence.adding session more⟩ := by
  unfold publish
  cases replay session (w.db.events session) with
  | error failure => exact ⟨[], by rw [EvidenceStore.adding_nil]⟩
  | ok state =>
    obtain ⟨more, added⟩ := EvidenceStore.exists_putAll_eq_adding session env.clock env.disk
      (emitted (exportsOf QUESTIONS) 1 (w.db.events session)) w.evidence
    refine ⟨more, ?_⟩
    simp only [EvidenceStore.publishEvents]
    rw [← added]
    split <;> simp_all

/-- **Where the files have no halves and nothing is too deep**, a call is as it is without the
limits. -/
theorem runWithin_eq_run (plain : w.asRead (r.session env.uuid) = w)
    (whole : ∀ files, w.evidence.loadEvents (r.session env.uuid) = .ok files →
      ∀ e ∈ files, Json.hasHalf (w.width (r.session env.uuid)) e.2 = false) :
    w.runWithin limits env r = w.run env r := by
  unfold runWithin run
  dsimp only
  rw [plain, commitWithin_eq_commit shallow whole]
  cases w.commit env.uuid r with
  | error failure => rfl
  | ok db =>
    dsimp only
    obtain ⟨more, added⟩ := exists_publish_eq_adding ⟨db, w.evidence⟩ env (r.session env.uuid)
    rw [publishWithin_eq_publish shallow]
    refine Prod.ext ?_ rfl
    rw [added]
    exact congrArg (Workflow.mk db) (EvidenceStore.restore_adding _ _ _)

end Shallow

end Workflow

end AgentLabs.Interview
