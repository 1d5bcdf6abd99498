import AgentLabs.Interview.Limits

/-!
# Malformed evidence

Files of any content are read by `load_events` and by `replay`. Both check what they read in a
fixed order and refuse what does not fit. Two of the checks are tests of membership, of the kind
of an event and of the field of an answer, and a list or an object cannot be looked up in a set or
a dictionary: where one of these stands in the place, the call ends in a `TypeError`. The halves of
surrogate pairs that a payload has cannot be written to the database, which is a
`UnicodeEncodeError`. And a file that is nested too deep to be read, or a record that is nested too
deep to be written, is a `RecursionError`. Everything else is refused with an error of the program,
and the database is as it was.

The database holds what the operations have put there, whatever the folders held at each of them.

## Main definitions

* `Written`: the databases that the operations reach
* `OddEvent`, `OddAnswer`: what cannot be looked up
* `TripsLoading`, `TripsExport`: a call comes to what cannot be looked up, or is nested too deep
* `Trips`: it comes to one of these, or to half of a pair
* `Refuses`: a call succeeds or is refused

## Main results

* `commitWithin_cases`: how a transaction ends
* `putAllWithin_cases`: how an export ends
* `replays_of_written`: the rows of every session can be replayed
* `refuses_iff`: when a call is refused
-/

namespace AgentLabs.Interview

open Math Text EvidenceStore

/-- An error of the program: an `EvidenceError` or a `WorkflowError`. -/
def Failure.IsDeclared : Failure → Prop
  | .evidence _ _ => True
  | .workflow _ _ _ => True
  | _ => False

/-! ### Loading -/

/-- The content of a file says that it is the event of this number. -/
structure Numbered (number : ℕ) (stem : String) (record content : Fields) : Prop where
  content_eq : record.get? "content" = some (.obj content)
  stem_eq : stem = eventId number
  kind_eq : str? record "kind" = some "event"
  sequence : (Dict.get? content "sequence").any (Json.pyEq · (.int number))
  payload : ((Dict.get? content "payload").bind Json.asObj?).isSome

/-- The file is an event in everything but its kind, which cannot be looked up. -/
def OddEvent (number : ℕ) (stem : String) (record : Fields) : Prop :=
  ∃ (content : Fields) (event : Json), Numbered number stem record content ∧
    Dict.get? content "event" = some event ∧ event.isHashable = false

/-- The payload of a record that was read. -/
theorem spelled_payload {record content fields : Fields} (spelled : Json.Spelled (.obj record))
    (found : record.get? "content" = some (.obj content))
    (payload : Dict.get? content "payload" = some (.obj fields)) : Json.Spelled (.obj fields) := by
  have inner := (Json.spelled_obj_iff.mp spelled).2 _ (Dict.mem_of_get?_eq_some found)
  exact (Json.spelled_obj_iff.mp inner).2 _ (Dict.mem_of_get?_eq_some payload)

theorem eventOf_of_numbered {number : ℕ} {stem : String} {record content : Fields}
    (numbered : Numbered number stem record content) :
    ∃ fields, Dict.get? content "payload" = some (.obj fields) ∧
      eventOf number stem record =
        match Dict.get? content "event" with
        | some (.str kind) => if kind ∈ eventKinds then .ok (kind, Json.dumps (.obj fields))
          else .error (.evidence "evidence_corrupt" "이벤트 순서 또는 형식을 확인하세요.")
        | some event => .error (if event.isHashable then
            .evidence "evidence_corrupt" "이벤트 순서 또는 형식을 확인하세요." else .raised "TypeError")
        | none => .error (.evidence "evidence_corrupt" "이벤트 순서 또는 형식을 확인하세요.") := by
  obtain ⟨fields, found⟩ : ∃ fields, Dict.get? content "payload" = some (.obj fields) := by
    obtain ⟨fields, object⟩ := Option.isSome_iff_exists.mp numbered.payload
    obtain ⟨payload, found, same⟩ := Option.bind_eq_some_iff.mp object
    cases payload <;> simp_all [Json.asObj?]
  have asObject : (record.get? "content").bind Json.asObj? = some content := by
    rw [numbered.content_eq]
    rfl
  refine ⟨fields, found, ?_⟩
  simp only [eventOf, asObject]
  rw [if_pos ⟨numbered.stem_eq, numbered.kind_eq, numbered.sequence, numbered.payload⟩, found]
  cases Dict.get? content "event" with
  | none => rfl
  | some event => cases event <;> rfl

/-- A file that says nothing of the kind is corrupt. -/
theorem isCorrupt_of_not_numbered {number : ℕ} {stem : String} {record : Fields}
    (other : ∀ content, ¬ Numbered number stem record content) :
    ∃ failure, eventOf number stem record = .error failure ∧ failure.IsCorrupt := by
  refine ⟨_, ?_, "이벤트 순서 또는 형식을 확인하세요.", rfl⟩
  unfold eventOf
  dsimp only
  split
  · rfl
  · rename_i content object
    rw [if_neg]
    rintro ⟨stem_eq, kind_eq, sequence, payload⟩
    refine other content ⟨?_, stem_eq, kind_eq, sequence, payload⟩
    obtain ⟨value, found, same⟩ := Option.bind_eq_some_iff.mp object
    rw [found]
    cases value <;> simp_all [Json.asObj?]

/-- How one file is taken for an event. -/
theorem eventOf_cases (number : ℕ) (stem : String) {record : Fields}
    (spelled : Json.Spelled (.obj record)) :
    (∃ e : Entry, eventOf number stem record = .ok e.raw) ∨
    (∃ failure, eventOf number stem record = .error failure ∧ failure.IsCorrupt) ∨
    OddEvent number stem record := by
  by_cases numbered : ∃ content, Numbered number stem record content
  · obtain ⟨content, numbered⟩ := numbered
    obtain ⟨fields, found, taken⟩ := eventOf_of_numbered numbered
    rw [taken]
    cases there : Dict.get? content "event" with
    | none => exact .inr (.inl ⟨_, rfl, _, rfl⟩)
    | some event =>
      cases event with
      | str kind =>
        dsimp only
        split_ifs with known
        · exact .inl ⟨⟨kind, fields, known, spelled_payload spelled numbered.content_eq found⟩, rfl⟩
        · exact .inr (.inl ⟨_, rfl, _, rfl⟩)
      | arr items => exact .inr (.inr ⟨content, _, numbered, there, rfl⟩)
      | obj fields => exact .inr (.inr ⟨content, _, numbered, there, rfl⟩)
      | _ => exact .inr (.inl ⟨_, rfl, _, rfl⟩)
  · exact .inr (.inl (isCorrupt_of_not_numbered (not_exists.mp numbered)))

theorem eventOf_of_oddEvent {number : ℕ} {stem : String} {record : Fields}
    (odd : OddEvent number stem record) :
    eventOf number stem record = .error (.raised "TypeError") := by
  obtain ⟨content, event, numbered, there, unhashable⟩ := odd
  obtain ⟨_, _, taken⟩ := eventOf_of_numbered numbered
  rw [taken, there]
  cases event <;> simp_all [Json.isHashable]

/-- The file of an event is nested too deep, or its kind cannot be looked up. -/
def TripsFile (limits : Limits) (store : EvidenceStore) (session : String) (number : ℕ)
    (stem : String) : Prop :=
  TooDeep limits store session stem ∨
    ∃ record, store.read session stem = .ok record ∧ OddEvent number stem record

/-- A call of `load_events` comes to such a file. -/
def TripsLoading (limits : Limits) (store : EvidenceStore) (session : String) (number : ℕ)
    (stems : List String) : Prop :=
  ∃ before stem after events, stems = before ++ stem :: after ∧
    store.loadFromWithin limits session number before = .ok events ∧
    TripsFile limits store session (number + before.length) stem

section Loading

variable {limits : Limits} {store : EvidenceStore} {session : String} {number : ℕ}

/-- A record that was read is spelled. -/
theorem spelled_of_read {id : String} {record : Fields}
    (read : store.read session id = .ok record) :
    Json.Spelled (.obj record) := by
  unfold EvidenceStore.read at read
  obtain ⟨-, -, read⟩ := bind_eq_ok_iff.mp read
  split at read
  · cases read
  · unfold decode at read
    split at read
    · cases read
    · rename_i loaded
      split_ifs at read
      cases read
      exact Json.spelled_of_loads loaded
    · cases read

theorem loadEventWithin_cases (limits : Limits) (store : EvidenceStore) (session : String)
    (number : ℕ) (stem : String) :
    (∃ e : Entry, store.loadEventWithin limits session number stem = .ok e.raw) ∨
    (∃ failure, store.loadEventWithin limits session number stem = .error failure ∧
      failure.IsEvidence) ∨
    TripsFile limits store session number stem := by
  by_cases deep : TooDeep limits store session stem
  · exact .inr (.inr (.inl deep))
  -- A file that can be read is corrupt, an event, or one whose kind cannot be looked up.
  unfold loadEventWithin
  rw [readWithin_of_not_tooDeep deep]
  cases read : store.read session stem with
  | error failure => exact .inr (.inl ⟨failure, rfl, isEvidence_of_read read⟩)
  | ok record =>
    rw [ok_bind]
    rcases eventOf_cases number stem (spelled_of_read read) with
      ok | ⟨failure, failed, message, rfl⟩ | odd
    · exact .inl ok
    · exact .inr (.inl ⟨_, failed, _, _, rfl⟩)
    · exact .inr (.inr (.inr ⟨record, read, odd⟩))

theorem loadEventWithin_of_tripsFile {stem : String}
    (trips : TripsFile limits store session number stem) :
    ∃ exception, store.loadEventWithin limits session number stem = .error (.raised exception) := by
  unfold loadEventWithin
  by_cases deep : TooDeep limits store session stem
  · rw [readWithin_of_tooDeep deep]
    exact ⟨_, rfl⟩
  · obtain ⟨record, read, odd⟩ := trips.resolve_left deep
    rw [readWithin_of_not_tooDeep deep, read, ok_bind, eventOf_of_oddEvent odd]
    exact ⟨_, rfl⟩

/-- How the files of a session are loaded. -/
theorem loadFromWithin_cases (number : ℕ) (stems : List String) :
    (∃ es : List Entry, store.loadFromWithin limits session number stems = .ok (rawsOf es)) ∨
    (∃ failure, store.loadFromWithin limits session number stems = .error failure ∧
      failure.IsEvidence) ∨
    TripsLoading limits store session number stems := by
  -- Induction on the files, which end at the first that is no event.
  induction stems generalizing number with
  | nil => exact .inl ⟨[], rfl⟩
  | cons stem stems ih =>
    rw [loadFromWithin]
    rcases loadEventWithin_cases limits store session number stem with
      ⟨e, ok⟩ | ⟨failure, failed, evidence⟩ | trips
    · rw [ok, ok_bind]
      rcases ih (number + 1) with ⟨es, rest⟩ | ⟨failure, failed, evidence⟩ |
        ⟨before, stem', after, events, rfl, loaded, trips⟩
      · rw [rest]
        exact .inl ⟨e :: es, rfl⟩
      · rw [failed]
        exact .inr (.inl ⟨failure, rfl, evidence⟩)
      · refine .inr (.inr ⟨stem :: before, stem', after, e.raw :: events, rfl, ?_, ?_⟩)
        · rw [loadFromWithin, ok, ok_bind, loaded]
          rfl
        · rwa [List.length_cons, ← Nat.add_assoc, Nat.add_right_comm]
    · rw [failed]
      exact .inr (.inl ⟨failure, rfl, evidence⟩)
    · exact .inr (.inr ⟨[], stem, stems, [], rfl, rfl, trips⟩)

/-- Such a file is not refused. -/
theorem loadFromWithin_of_tripsLoading {stems : List String}
    (trips : TripsLoading limits store session number stems) :
    ∃ exception,
      store.loadFromWithin limits session number stems = .error (.raised exception) := by
  obtain ⟨before, stem, after, events, rfl, loaded, trips⟩ := trips
  induction before generalizing number events with
  | nil =>
    obtain ⟨exception, failed⟩ := loadEventWithin_of_tripsFile trips
    refine ⟨exception, ?_⟩
    rw [List.nil_append, loadFromWithin,
      show store.loadEventWithin limits session number stem = _ from failed]
    rfl
  | cons first before ih =>
    rw [loadFromWithin] at loaded
    obtain ⟨e, ok, rest⟩ := bind_eq_ok_iff.mp loaded
    obtain ⟨es, loaded, -⟩ := bind_eq_ok_iff.mp rest
    rw [List.length_cons, ← Nat.add_assoc, Nat.add_right_comm] at trips
    obtain ⟨exception, failed⟩ := ih es loaded trips
    refine ⟨exception, ?_⟩
    rw [List.cons_append, loadFromWithin, ok, ok_bind, failed]
    rfl

/-- How `load_events` ends. -/
theorem loadEventsWithin_cases (limits : Limits) (store : EvidenceStore) (session : String) :
    (∃ es : List Entry, store.loadEventsWithin limits session = .ok (rawsOf es)) ∨
    (∃ failure, store.loadEventsWithin limits session = .error failure ∧ failure.IsEvidence) ∨
    TripsLoading limits store session 1 (eventStems (store.folder session)) := by
  unfold loadEventsWithin
  cases folder : checkFolder session with
  | error failure =>
    refine .inr (.inl ⟨failure, rfl, ?_⟩)
    unfold checkFolder at folder
    split_ifs at folder
    cases folder
    exact ⟨_, _, rfl⟩
  | ok u => exact loadFromWithin_cases 1 _

theorem checkFolder_of_tripsFile {stem : String}
    (trips : TripsFile limits store session number stem) : checkFolder session = .ok () := by
  have path : checkPath session stem = .ok () := by
    rcases trips with ⟨path, -⟩ | ⟨record, read, -⟩
    · exact path
    · obtain ⟨u, path, -⟩ := bind_eq_ok_iff.mp read
      exact path
  unfold checkPath at path
  split_ifs at path
  exact path

theorem loadEventsWithin_of_tripsLoading
    (trips : TripsLoading limits store session 1 (eventStems (store.folder session))) :
    ∃ exception, store.loadEventsWithin limits session = .error (.raised exception) := by
  have valid : checkFolder session = .ok () := by
    obtain ⟨before, stem, after, events, -, -, trips⟩ := trips
    exact checkFolder_of_tripsFile trips
  rw [loadEventsWithin, valid, ok_bind]
  exact loadFromWithin_of_tripsLoading trips

end Loading

/-! ### Replay -/

/-- The event records an answer to a field that cannot be looked up. -/
def OddAnswer (event : RawEvent) : Prop :=
  event.1 = "answer_recorded" ∧ ∃ fields field, parse event.2 = .ok (.obj fields) ∧
    Dict.get? fields "field" = some field ∧ field.isHashable = false

/-- A call of `replay` comes to an answer to a field that cannot be looked up, while it takes
answers. -/
def TripsReplay (events : List RawEvent) : Prop :=
  ∃ before event after p, events = before ++ event :: after ∧
    before.foldlM replayStep {} = .ok p ∧ p.goal ≠ "" ∧ p.seed = none ∧ OddAnswer event

theorem oddAnswer_raw_iff {e : Entry} : OddAnswer e.raw ↔ e.Odd := by
  refine and_congr_right fun _ => ⟨?_, ?_⟩
  · rintro ⟨fields, field, read, found, unhashable⟩
    rw [Entry.parse_raw] at read
    cases read
    exact ⟨field, found, unhashable⟩
  · rintro ⟨field, found, unhashable⟩
    exact ⟨e.fields, field, e.parse_raw, found, unhashable⟩

/-- How a replay of events of any shape ends. -/
theorem foldlM_cases (done es : List Entry) {p : Progress}
    (ran : (rawsOf done).foldlM replayStep {} = .ok p) :
    (∃ q, (rawsOf (done ++ es)).foldlM replayStep {} = .ok q) ∨
    (∃ failure, (rawsOf (done ++ es)).foldlM replayStep {} = .error failure ∧ failure.IsCorrupt) ∨
    TripsReplay (rawsOf (done ++ es)) := by
  -- Induction on the events still to be replayed, with those already replayed in front of them.
  induction es generalizing done p with
  | nil => exact .inl ⟨p, by rwa [List.append_nil]⟩
  | cons e es ih =>
    rcases replayStep_cases p e with ⟨q, ok, -⟩ | ⟨failure, failed, corrupt⟩
      | ⟨started, live, odd, -⟩
    · have further : (rawsOf (done ++ [e])).foldlM replayStep {} = .ok q := by
        rw [rawsOf, List.map_append, foldlM_append_eq_ok_iff]
        exact ⟨p, ran, foldlM_cons_eq_ok_iff.mpr ⟨q, ok, rfl⟩⟩
      have := ih (done ++ [e]) further
      rwa [List.append_assoc] at this
    · refine .inr (.inl ⟨failure, ?_, corrupt⟩)
      rw [rawsOf, List.map_append, List.foldlM_append]
      change List.foldlM replayStep {} (rawsOf done) >>= _ = _
      rw [ran, ok_bind, List.map_cons, List.foldlM_cons, failed]
      rfl
    · refine .inr (.inr ⟨rawsOf done, e.raw, rawsOf es, p, ?_, ran, started, live,
        oddAnswer_raw_iff.mpr odd⟩)
      simp [rawsOf]

/-- An answer to a field that cannot be looked up is not refused. -/
theorem foldlM_of_tripsReplay {events : List RawEvent} (trips : TripsReplay events) :
    events.foldlM replayStep {} = .error (.raised "TypeError") := by
  obtain ⟨before, event, after, p, rfl, ran, started, live, kind, fields, field, read, found,
    unhashable⟩ :=
    trips
  have step : replayStep p event = .error (.raised "TypeError") := by
    rw [replayStep, read, ok_bind, if_neg (by simp [kind]), if_pos kind, replayAnswer,
      if_neg (by simp [started, live])]
    simp only [found]
    cases field <;> simp_all [Json.isHashable]
  rw [List.foldlM_append, ran, ok_bind, List.foldlM_cons, step]
  rfl

/-! ### Reconciling with files of any content -/

/-- The rows can be replayed. -/
def Replays (rows : List RawEvent) : Prop :=
  ∃ (es : List Entry) (p : Progress), rows = rawsOf es ∧ (rawsOf es).foldlM replayStep {} = .ok p

/-- An event of the program as it is loaded. -/
def Event.entry (e : Event) : Entry where
  kind := e.kind
  fields := (Json.asObj? e.payload).getD []
  kind_mem := e.kind_mem
  spelled := by cases e <;> exact Json.spelled_of_isPlain _ rfl

@[simp] theorem Event.entry_raw (e : Event) : e.entry.raw = e.raw := by
  cases e <;> rfl

/-- One more event that is accepted. -/
theorem Replays.concat {es : List Entry} {p q : Progress} {e : Entry}
    (done : (rawsOf es).foldlM replayStep {} = .ok p) (accepted : Accepts p e q) :
    Replays (rawsOf es ++ [e.raw]) := by
  have rows : rawsOf es ++ [e.raw] = rawsOf (es ++ [e]) := by simp [rawsOf]
  refine ⟨es ++ [e], q, rows, ?_⟩
  rw [← rows, foldlM_append_eq_ok_iff]
  exact ⟨p, done, foldlM_cons_eq_ok_iff.mpr ⟨q, replayStep_eq_ok_iff.mpr accepted, rfl⟩⟩

/-- Importing writes the events as they were loaded. -/
theorem importAll_rawsOf (es : List Entry) (session : String) (db : Database) :
    importAll session (rawsOf es) db = .ok (db ++ (rawsOf es).map (toRow session)) := by
  induction es generalizing db with
  | nil => simp [rawsOf, importAll]
  | cons e es ih =>
    have next := ih (db.append session e.kind (.obj e.fields))
    rw [show db.append session e.kind (.obj e.fields) = db ++ [e.raw].map (toRow session) from rfl,
      List.append_assoc, ← List.map_append] at next
    rw [show rawsOf (e :: es) = [e.raw] ++ rawsOf es from rfl, ← next]
    simp only [List.singleton_append]
    rw [importAll.eq_2, Entry.parse_raw]
    rfl

/-- What is imported goes on with the stored events as it goes on with the files. -/
theorem exists_agrees_of_imported {own es : List Entry} {p : Progress}
    (compared : compareAll (rawsOf own) (rawsOf es) = .ok ()) (fewer : own.length ≤ es.length)
    (done : (rawsOf es).foldlM replayStep {} = .ok p) :
    ∃ q, (rawsOf (own ++ es.drop own.length)).foldlM replayStep {} = .ok q ∧ Agrees p q := by
  refine exists_foldlM_of_alike ?_ (Agrees.refl {}) done
  have shared : List.Forall₂ Alike (es.take own.length) own :=
    (alike_of_compareAll compared fewer).flip.imp fun _ _ alike => Alike.symm alike
  have rest : List.Forall₂ Alike (es.drop own.length) (es.drop own.length) :=
    List.forall₂_same.mpr fun e _ => Alike.refl e
  have both : List.Forall₂ Alike (es.take own.length ++ es.drop own.length)
      (own ++ es.drop own.length) :=
    List.rel_append shared rest
  rwa [List.take_append_drop] at both

/-- A load that succeeded: rows have been imported, and what is stored then is replayed to what
was returned. -/
structure Loaded (db : Database) (session : String) (rows : List RawEvent) (p : Progress) :
    Prop where
  kept : p.Kept
  started : p.goal ≠ ""
  stored : ∃ (es : List Entry) (q : Progress), db.events session ++ rows = rawsOf es ∧
    (rawsOf es).foldlM replayStep {} = .ok q ∧ Agrees p q

section Load

variable {db : Database} {session : String} {es : List Entry}

/-- **How a load ends.** -/
theorem load_cases (replays : Replays (db.events session)) (es : List Entry) :
    (∃ rows p count, load db session (rawsOf es) =
      .ok (db ++ rows.map (toRow session), p.state session count) ∧ Loaded db session rows p) ∨
    (∃ failure, load db session (rawsOf es) = .error failure ∧ failure.IsDeclared ∧
      ¬ failure.IsPublishFailed) ∨
    compareAll (db.events session) (rawsOf es) = .ok () ∧
      (db.events session).length < (rawsOf es).length ∧ TripsReplay (rawsOf es) := by
  obtain ⟨own, p, stored, done⟩ := replays
  unfold load
  simp only [stored]
  rcases compareAll_cases own es with compared | conflicting
  · simp only [compared, ok_bind]
    by_cases less : (rawsOf own).length < (rawsOf es).length
    · -- The files have more, so they are replayed before anything is imported.
      have lengths : own.length < es.length := by simpa [rawsOf] using less
      have some : rawsOf es ≠ [] := List.ne_nil_of_length_pos (Nat.zero_lt_of_lt less)
      simp only [if_pos less, replay, if_neg some]
      rcases foldlM_cases [] es rfl with ⟨q, replayed⟩ | ⟨failure, failed, message, rfl⟩ | trips
      · left
        rw [List.nil_append] at replayed
        have missing : (rawsOf es).drop (rawsOf own).length = rawsOf (es.drop own.length) := by
          simp [rawsOf, List.map_drop]
        obtain ⟨q', further, agrees⟩ := exists_agrees_of_imported compared lengths.le replayed
        refine ⟨rawsOf (es.drop own.length), q, (rawsOf es).length, ?_, ?_, ?_, _, q', ?_, further,
          agrees⟩
        · rw [replayed, missing, importAll_rawsOf]
          rfl
        · exact kept_of_replayed replayed ⟨List.nil_subset _, List.nodup_nil⟩
        · exact started_of_replayed replayed fun none => some (congrArg rawsOf none)
        · rw [stored, rawsOf, rawsOf, rawsOf, List.map_append]
      · rw [List.nil_append] at failed
        rw [failed]
        exact .inr (.inl ⟨_, rfl, trivial, by rintro ⟨_, _, same⟩; cases same⟩)
      · exact .inr (.inr ⟨trivial, less, trips⟩)
    · -- Nothing is imported, and the stored events are replayed as they have been before.
      simp only [if_neg less, replay]
      by_cases none : rawsOf own = []
      · rw [if_pos none]
        refine .inr (.inl ⟨_, rfl, trivial, ?_⟩)
        rintro ⟨_, _, same⟩
        simp at same
      · rw [if_neg none, done]
        refine .inl ⟨[], p, (rawsOf own).length, ?_,
          kept_of_replayed done ⟨List.nil_subset _, List.nodup_nil⟩, started_of_replayed done
          fun empty => none (congrArg rawsOf empty), own, p, ?_, done, Agrees.refl p⟩
        · rw [List.map_nil, List.append_nil]
          rfl
        · rw [stored, List.append_nil]
  · rw [conflicting]
    exact .inr (.inl ⟨conflict, rfl, trivial, by rintro ⟨_, _, same⟩; cases same⟩)

/-- What is stored after a load can be replayed, and so it can after one more event that the state
accepts. -/
theorem Loaded.replays {rows : List RawEvent} {p : Progress} (loaded : Loaded db session rows p) :
    Replays (db.events session ++ rows) := by
  obtain ⟨es, q, stored, done, -⟩ := loaded.stored
  exact ⟨es, q, stored, done⟩

theorem Loaded.replays_concat {rows : List RawEvent} {p p' : Progress}
    (loaded : Loaded db session rows p)
    {e : Event} (accepted : Accepts p e.entry p') :
    Replays (db.events session ++ (rows ++ [e.raw])) := by
  obtain ⟨es, q, stored, done, agrees⟩ := loaded.stored
  obtain ⟨q', further, -⟩ := accepted.of_alike (Alike.refl _) agrees
  rw [← List.append_assoc, stored, ← Event.entry_raw]
  exact Replays.concat done further

/-! ### Transactions -/

variable {p : Progress} {rows : List RawEvent} {files : List RawEvent} {count : ℕ} {uuid : String}

theorem Progress.status_eq_frozen_iff :
    (p.state session count).status = .frozen ↔ p.seed.isSome := by
  unfold Progress.state
  dsimp only
  split_ifs with frozen <;> simp [frozen]

theorem Progress.missingFields_eq_nil_iff :
    (p.state session count).missingFields = [] ↔ QUESTIONS.keys ⊆ p.answers.keys := by
  change QUESTIONS.keys.filter (fun field => field ∉ p.answers.keys) = [] ↔ _
  rw [List.filter_eq_nil_iff]
  simp [List.subset_def]

/-- The seed that a freeze writes is accepted. -/
theorem accepts_frozen {constraints criteria : String} (kept : p.Kept) (started : p.goal ≠ "")
    (live : p.seed = none) (complete : QUESTIONS.keys ⊆ p.answers.keys)
    (first : p.answers.get? "constraints" = some constraints)
    (second : p.answers.get? "acceptance_criteria" = some criteria) (hex : isHex32 uuid) :
    ∃ q, Accepts p (Event.frozen uuid p.goal constraints criteria).entry q := by
  refine ⟨_, .seed rfl started live ⟨kept.1, complete⟩ rfl hex fun entry member => ?_⟩
  rcases List.mem_cons.mp member with rfl | answer
  · rfl
  · obtain ⟨field, text⟩ := entry
    have found := (Dict.get?_eq_some_iff kept.2).mpr answer
    have asked : field ∈ QUESTIONS.keys := kept.1 (Dict.mem_keys_iff.mpr ⟨text, found⟩)
    -- There are two questions, and each has one answer.
    rcases (by simpa [QUESTIONS,
      Dict.keys] using asked : field = "constraints" ∨ field = "acceptance_criteria")
      with rfl | rfl
    · rw [Option.some.inj (found.symm.trans first)]
      rfl
    · rw [Option.some.inj (found.symm.trans second)]
      rfl

/-- What a transaction commits: rows that can be replayed, and at least one of them. -/
def CommitsRows (db : Database) (session : String) (result : Except Failure Database) : Prop :=
  ∃ rows, result = .ok (db ++ rows.map (toRow session)) ∧ Replays (db.events session ++ rows) ∧
    db.events session ++ rows ≠ []

theorem Loaded.ne_nil (loaded : Loaded db session rows p) : db.events session ++ rows ≠ [] := by
  obtain ⟨es, q, stored, done, agrees⟩ := loaded.stored
  intro empty
  rw [stored] at empty
  rw [empty] at done
  cases done
  exact loaded.started agrees.1

theorem recordIn_cases_of_loaded {field answer : String} (known : field ∈ QUESTIONS.keys)
    (nonblank : isBlank answer = false)
    (load : load db session files = .ok (db ++ rows.map (toRow session), p.state session count))
    (loaded : Loaded db session rows p) :
    CommitsRows db session (recordIn db session field answer files) ∨
    ∃ failure, recordIn db session field answer files = .error failure ∧ failure.IsDeclared ∧
      ¬ failure.IsPublishFailed := by
  unfold recordIn
  simp only [load, ok_bind]
  by_cases frozen : (p.state session count).status = .frozen
  · rw [if_pos frozen]
    refine .inr ⟨_, rfl, trivial, ?_⟩
    rintro ⟨_, _, same⟩
    simp at same
  rw [if_neg frozen]
  left
  by_cases same : (p.state session count).answers.get? field ≠ some (strip answer)
  -- A new answer is a row that the replay accepts.
  · have live : p.seed = none := by
      rwa [Progress.status_eq_frozen_iff, Option.not_isSome_iff_eq_none] at frozen
    have accepted : Accepts p (Event.answered field (strip answer)).entry _ :=
      .answer rfl loaded.started live rfl known rfl ((isBlank_strip answer).trans nonblank)
    simp only [if_pos same]
    refine ⟨rows ++ [(Event.answered field (strip answer)).raw], ?_,
      loaded.replays_concat accepted, by simp⟩
    rw [List.map_append, ← List.append_assoc]
    rfl
  · simp only [if_neg same]
    exact ⟨rows, rfl, loaded.replays, loaded.ne_nil⟩

theorem freezeIn_cases_of_loaded (hex : isHex32 uuid)
    (load : load db session files = .ok (db ++ rows.map (toRow session), p.state session count))
    (loaded : Loaded db session rows p) :
    CommitsRows db session (freezeIn db session uuid files) ∨
    ∃ failure, freezeIn db session uuid files = .error failure ∧ failure.IsDeclared ∧
      ¬ failure.IsPublishFailed := by
  unfold freezeIn
  simp only [load, ok_bind]
  by_cases missing : (p.state session count).missingFields ≠ []
  · rw [if_pos missing]
    refine .inr ⟨_, rfl, trivial, ?_⟩
    rintro ⟨_, _, same⟩
    simp at same
  rw [if_neg missing]
  left
  by_cases frozen : (p.state session count).status ≠ .frozen
  -- The rows may be any that can be replayed, so the seed is checked against what they left.
  · have live : p.seed = none := by
      rwa [Ne, Progress.status_eq_frozen_iff, Option.not_isSome_iff_eq_none] at frozen
    have complete := Progress.missingFields_eq_nil_iff.mp (not_not.mp missing)
    obtain ⟨constraints, first⟩ :=
      Dict.mem_keys_iff.mp (complete (by decide : "constraints" ∈ QUESTIONS.keys))
    obtain ⟨criteria, second⟩ :=
      Dict.mem_keys_iff.mp (complete (by decide : "acceptance_criteria" ∈ QUESTIONS.keys))
    obtain ⟨q, accepted⟩ := accepts_frozen loaded.kept loaded.started live complete first second hex
    rw [if_pos frozen]
    simp only [Progress.state, first, second]
    refine ⟨rows ++ [(Event.frozen uuid p.goal constraints criteria).raw], ?_,
      loaded.replays_concat accepted, by simp⟩
    rw [List.map_append, ← List.append_assoc]
    rfl
  · simp only [if_neg frozen]
    exact ⟨rows, rfl, loaded.replays, loaded.ne_nil⟩

/-- The transaction of a call on a session that is loaded. -/
theorem transact_cases_of_loaded {r : Request} (loads : r.loads = true) (check : r.check = .ok ())
    (hex : isHex32 uuid) (load : load db (r.session uuid) files =
      .ok (db ++ rows.map (toRow (r.session uuid)), p.state (r.session uuid) count))
    (loaded : Loaded db (r.session uuid) rows p) :
    CommitsRows db (r.session uuid) (r.transact uuid db files) ∨
    ∃ failure, r.transact uuid db files = .error failure ∧ failure.IsDeclared ∧
      ¬ failure.IsPublishFailed := by
  cases r with
  | startInterview goal => cases loads
  | recordAnswer session field answer =>
    simp only [Request.check] at check
    split_ifs at check with unknown blank
    exact recordIn_cases_of_loaded unknown (by simpa using blank) load loaded
  | getSession session =>
    simp only [Request.session] at load
    refine .inl ⟨rows, ?_, loaded.replays, loaded.ne_nil⟩
    simp only [Request.transact, load, ok_bind]
    rfl
  | freezeSeed session => exact freezeIn_cases_of_loaded hex load loaded

end Load

/-! ### Calls -/

/-- The files go on from the database, and a replay of them comes to an answer to a field that
cannot be looked up. -/
def AnswerImported (db : Database) (session : String) (files : List RawEvent) : Prop :=
  compareAll (db.events session) files = .ok () ∧ (db.events session).length < files.length ∧
    TripsReplay files

/-- A call passes its checks and its transaction comes to something that it does not refuse: a file,
when the files are loaded, or what they have in addition to the database. -/
def TripsCommit (limits : Limits) (width : ℕ) (w : Workflow) (uuid : String) (r : Request) : Prop :=
  r.check = .ok () ∧
    (TripsLoading limits w.evidence (r.session uuid) 1
        (eventStems (w.evidence.folder (r.session uuid))) ∨
      ∃ files, w.evidence.loadEventsWithin limits (r.session uuid) = .ok files ∧
        (AnswerImported w.db (r.session uuid) files ∨
          HalfImported width w.db (r.session uuid) files))

section Call

variable {limits : Limits} {width : ℕ} {w : Workflow} {r : Request} {uuid : String}

theorem isDeclared_of_check {failure : Failure} (failed : r.check = .error failure) :
    failure.IsDeclared := by
  cases r with
  | startInterview goal =>
    rw [Request.check] at failed
    split_ifs at failed
    cases failed
    trivial
  | recordAnswer session field answer =>
    rw [Request.check] at failed
    split_ifs at failed <;> cases failed <;> trivial
  | getSession session => cases failed
  | freezeSeed session => cases failed

theorem commitWithin_of_check_error {failure : Failure} (failed : r.check = .error failure) :
    w.commitWithin limits width uuid r = .error failure := by
  rw [Workflow.commitWithin, failed]
  rfl

theorem commitWithin_of_load_error (loads : r.loads = true) (check : r.check = .ok ())
    {failure : Failure}
    (failed : w.evidence.loadEventsWithin limits (r.session uuid) = .error failure) :
    w.commitWithin limits width uuid r = .error failure := by
  simp only [Workflow.commitWithin, check, loads, failed, ok_bind, if_true]
  rfl

theorem commitWithin_of_loads (loads : r.loads = true) (check : r.check = .ok ())
    {files : List RawEvent}
    (read : w.evidence.loadEventsWithin limits (r.session uuid) = .ok files) :
    w.commitWithin limits width uuid r =
      importWithin width w.db (r.session uuid) files >>= fun _ => r.transact uuid w.db files := by
  simp only [Workflow.commitWithin, check, loads, read, ok_bind, if_true]

/-- **How a transaction ends** on rows that can be replayed: it commits such rows, it fails with an
error of the program, or it comes to something that it does not refuse. -/
theorem commitWithin_cases (limits : Limits) (width : ℕ) (w : Workflow) (loads : r.loads = true)
    (hex : isHex32 uuid) (replays : Replays (w.db.events (r.session uuid))) :
    CommitsRows w.db (r.session uuid) (w.commitWithin limits width uuid r) ∨
    (∃ failure, w.commitWithin limits width uuid r = .error failure ∧ failure.IsDeclared ∧
      ¬ failure.IsPublishFailed) ∨
    TripsCommit limits width w uuid r := by
  cases check : r.check with
  | error failure =>
    exact .inr (.inl ⟨failure, commitWithin_of_check_error check, isDeclared_of_check check,
      not_isPublishFailed_check check⟩)
  | ok u =>
    rcases loadEventsWithin_cases limits w.evidence (r.session uuid) with
      ⟨es, read⟩ | ⟨failure, failed, code, message, rfl⟩ | trips
    · rw [commitWithin_of_loads loads check read]
      -- The import fails where loading does, and where there is half of a pair.
      rcases importWithin_cases width w.db (r.session uuid) (rawsOf es) with
        imported | ⟨failure, early, late⟩ | half
      · rw [imported, ok_bind]
        rcases load_cases replays es with ⟨rows, p, count, load, loaded⟩
          | ⟨failure, failed, declared, early⟩ | trips
        · rcases transact_cases_of_loaded loads check hex load loaded with commits | failed
          · exact .inl commits
          · exact .inr (.inl failed)
        · exact .inr (.inl ⟨failure, transact_of_load_error loads failed, declared, early⟩)
        · exact .inr (.inr ⟨check, .inr ⟨_, read, .inl trips⟩⟩)
      · rcases load_cases replays es with ⟨rows, p, count, load, -⟩
          | ⟨failure', failed, declared⟩ | trips
        · cases late.symm.trans load
        · cases late.symm.trans failed
          rw [early]
          exact .inr (.inl ⟨failure, rfl, declared⟩)
        · exact .inr (.inr ⟨check, .inr ⟨_, read, .inl trips⟩⟩)
      · exact .inr (.inr ⟨check, .inr ⟨_, read, .inr half⟩⟩)
    · refine .inr (.inl ⟨_, commitWithin_of_load_error loads check failed, trivial, ?_⟩)
      rintro ⟨_, _, same⟩
      cases same
    · exact .inr (.inr ⟨check, .inl trips⟩)

theorem importWithin_of_answer {db : Database} {session : String} {files : List RawEvent}
    (odd : AnswerImported db session files) :
    importWithin width db session files = .error (.raised "TypeError") := by
  obtain ⟨compared, more, trips⟩ := odd
  have some : files ≠ [] := List.ne_nil_of_length_pos (Nat.zero_lt_of_lt more)
  simp only [importWithin, compared, ok_bind, if_pos more, replay, if_neg some,
    foldlM_of_tripsReplay trips]
  rfl

/-- What a transaction does not refuse ends the call in another exception. -/
theorem commitWithin_of_trips (loads : r.loads = true)
    (trips : TripsCommit limits width w uuid r) :
    ∃ exception, w.commitWithin limits width uuid r = .error (.raised exception) := by
  obtain ⟨check, early | ⟨files, read, late⟩⟩ := trips
  · obtain ⟨exception, failed⟩ := loadEventsWithin_of_tripsLoading early
    exact ⟨exception, commitWithin_of_load_error loads check failed⟩
  · rw [commitWithin_of_loads loads check read]
    rcases late with odd | half
    · rw [importWithin_of_answer odd]
      exact ⟨_, rfl⟩
    · rw [importWithin_of_half half]
      exact ⟨_, rfl⟩

/-! ### Exports -/

/-- An export comes to a record that is nested too deep. -/
def TripsExport (limits : Limits) (clock : String → String) (disk : String → Disk)
    (session : String) (items : List (Except Failure Export)) (store : EvidenceStore) : Prop :=
  ∃ before e after store', items = before ++ .ok e :: after ∧
    putAllWithin limits clock disk session before store = (store', .ok ()) ∧
    TripsPut limits store' session e (clock e.evidenceId) (disk e.evidenceId)

variable {store : EvidenceStore} {session : String}

/-- How an export ends. -/
theorem putAllWithin_cases (limits : Limits) (clock : String → String) (disk : String → Disk)
    (session : String) {items : List (Except Failure Export)}
    (formed : ∀ x ∈ items, ∃ file, x = .ok file) (store : EvidenceStore) :
    (putAllWithin limits clock disk session items store).2 = .ok () ∨
    (∃ failure, (putAllWithin limits clock disk session items store).2 = .error failure ∧
      failure.OfExport) ∨
    TripsExport limits clock disk session items store := by
  induction items generalizing store with
  | nil => exact .inl rfl
  | cons x items ih =>
    obtain ⟨e, rfl⟩ := formed x (.head _)
    -- The first record that trips is the one that the export comes to.
    by_cases trips : TripsPut limits store session e (clock e.evidenceId) (disk e.evidenceId)
    · exact .inr (.inr ⟨[], e, items, store, rfl, rfl, trips⟩)
    rw [putAllWithin, putWithin_of_not_tripsPut trips]
    rcases put : store.put session e (clock e.evidenceId) (disk e.evidenceId) with
      ⟨store', failure | fields⟩
    · exact .inr (.inl ⟨failure, rfl, ofExport_of_put put⟩)
    · rcases ih (fun y later => formed y (.tail _ later)) store' with ok | failed |
        ⟨before, e', after, last, rfl, done, late⟩
      · exact .inl ok
      · exact .inr (.inl failed)
      · refine .inr (.inr ⟨.ok e :: before, e', after, last, rfl, ?_, late⟩)
        rw [putAllWithin, putWithin_of_not_tripsPut trips, put]
        exact done

theorem putAllWithin_of_tripsExport {clock : String → String} {disk : String → Disk}
    {items : List (Except Failure Export)}
    (trips : TripsExport limits clock disk session items store) :
    (putAllWithin limits clock disk session items store).2 =
      .error (.raised "RecursionError") := by
  obtain ⟨before, e, after, last, rfl, done, trips⟩ := trips
  induction before generalizing store with
  | nil =>
    -- The record that is too deep comes first: those before it were put.
    cases done
    rw [List.nil_append, putAllWithin]
    have failed := putWithin_of_tripsPut trips
    rcases put : putWithin limits _ session e (clock e.evidenceId) (disk e.evidenceId) with
      ⟨store', result⟩
    rw [put] at failed
    cases failed
    rfl
  | cons x before ih =>
    cases x with
    | error failure => cases done
    | ok first =>
      rw [List.cons_append, putAllWithin]
      rw [putAllWithin] at done
      rcases put : store.putWithin limits session first (clock first.evidenceId)
        (disk first.evidenceId) with ⟨store', failure | fields⟩
      · rw [put] at done
        cases done
      · rw [put] at done
        exact ih done

/-- What is to be exported of rows that can be replayed is well-formed. -/
theorem exists_export_of_replays {rows : List RawEvent} (replays : Replays rows) :
    ∀ x ∈ emitted (exportsOf QUESTIONS) 1 rows, ∃ file, x = .ok file := by
  obtain ⟨es, p, rfl, done⟩ := replays
  intro x member
  obtain ⟨i, inside, queued⟩ := (mem_emitted_iff _).mp member
  have place : i < es.length := by simpa [rawsOf] using inside
  obtain ⟨before, after, accepted⟩ := accepted_of_replayed done _ (List.getElem_mem place)
  rw [show (rawsOf es)[i] = es[i].raw by simp [rawsOf]] at queued
  exact exists_export accepted _ x queued

/-- Rows that can be replayed are. -/
theorem exists_replay_of_replays {rows : List RawEvent} (replays : Replays rows) (some : rows ≠ [])
    (session : String) : ∃ state, replay session rows = .ok state := by
  obtain ⟨es, p, rfl, done⟩ := replays
  refine ⟨p.state session (rawsOf es).length, ?_⟩
  rw [replay, if_neg some, done]
  rfl

/-- On rows that can be replayed, publishing succeeds, it fails as such, or it comes to a record
that is nested too deep. -/
theorem publishWithin_cases (limits : Limits) (env : Surroundings) {session : String}
    (replays : Replays (w.db.events session)) (some : w.db.events session ≠ []) :
    (∀ failure, (w.publishWithin limits env session).2 = .error failure →
      failure.IsPublishFailed) ∨
    TripsExport limits env.clock env.disk session
      (emitted (exportsOf QUESTIONS) 1 (w.db.events session)) w.evidence := by
  obtain ⟨state, replayed⟩ := exists_replay_of_replays replays some session
  unfold Workflow.publishWithin
  rw [replayed]
  dsimp only
  -- The exports are those of the replayed rows, so none of them raises on its own.
  rcases putAllWithin_cases limits env.clock env.disk session (exists_export_of_replays replays)
    w.evidence with
    ok | ⟨failure, failed, exported⟩ | trips
  · left
    intro failure failed'
    split at failed'
    · cases failed'
    · rename_i put
      rw [put] at ok
      cases ok
  · left
    intro failure' failed'
    split at failed'
    · cases failed'
    · rename_i put
      rw [put] at failed
      cases failed
      cases failed'
      exact exported.isPublishFailed session
  · exact .inr trips

theorem publishWithin_of_tripsExport {env : Surroundings} {session : String}
    (replays : Replays (w.db.events session)) (some : w.db.events session ≠ [])
    (trips : TripsExport limits env.clock env.disk session
      (emitted (exportsOf QUESTIONS) 1 (w.db.events session)) w.evidence) :
    (w.publishWithin limits env session).2 = .error (.raised "RecursionError") := by
  obtain ⟨state, replayed⟩ := exists_replay_of_replays replays some session
  have failed := putAllWithin_of_tripsExport trips
  unfold Workflow.publishWithin
  rw [replayed]
  dsimp only
  split
  · rename_i put
    rw [put] at failed
    cases failed
  · rename_i put
    rw [put] at failed
    cases failed
    rfl

/-! ### Refusals -/

/-- The databases that the operations reach, whatever the folders of the files hold at each of
them. An id that is drawn is new. -/
inductive Written (limits : Limits) : Database → Prop
  | empty : Written limits []
  | call {db : Database} (before : Written limits db) (evidence : EvidenceStore)
      (env : Surroundings) (r : Request) (hex : isHex32 env.uuid)
      (fresh : r.loads = false → db.events env.uuid = []) :
      Written limits (Workflow.runWithin limits ⟨db, evidence⟩ env r).1.db

/-- What a start commits. -/
theorem commitWithin_start_cases (loads : r.loads = false) (fresh : w.db.events uuid = []) :
    CommitsRows w.db uuid (w.commitWithin limits width uuid r) ∨
      ∃ failure, w.commitWithin limits width uuid r = .error failure := by
  cases r with
  | startInterview goal =>
    cases check : (Request.startInterview goal).check with
    | error failure => exact .inr ⟨failure, commitWithin_of_check_error check⟩
    | ok u =>
      have nonblank : isBlank (strip goal) = false := by
        rw [isBlank_strip]
        rw [Request.check] at check
        split_ifs at check with blank
        simpa using blank
      have accepted : Accepts {} (Event.started (strip goal)).entry _ := .start rfl rfl rfl nonblank
      have first := Replays.concat (show (rawsOf []).foldlM replayStep {} = .ok {} from rfl)
        accepted
      refine .inl ⟨[(Event.started (strip goal)).raw], ?_, ?_, by simp⟩
      · rw [Workflow.commitWithin, check]
        rfl
      · rwa [fresh, ← Event.entry_raw]
  | _ => cases loads

/-- The transaction of a call leaves the rows of every session such that they can be replayed. -/
theorem replays_of_commitWithin {db : Database} (hex : isHex32 uuid)
    (fresh : r.loads = false → w.db.events uuid = [])
    (replays : ∀ session, Replays (w.db.events session))
    (done : w.commitWithin limits width uuid r = .ok db) (session : String) :
    Replays (db.events session) := by
  have commits : CommitsRows w.db (r.session uuid) (w.commitWithin limits width uuid r) := by
    cases loads : r.loads with
    | true =>
      rcases commitWithin_cases limits width w loads hex (replays _) with
        commits | ⟨failure, failed, -⟩ | trips
      · exact commits
      · cases failed.symm.trans done
      · obtain ⟨exception, failed⟩ := commitWithin_of_trips loads trips
        cases failed.symm.trans done
    | false =>
      have own : r.session uuid = uuid := by cases r <;> first | rfl | cases loads
      rw [own]
      rcases commitWithin_start_cases loads (fresh loads) with commits | ⟨failure, failed⟩
      · exact commits
      · cases failed.symm.trans done
  obtain ⟨rows, committed, further, -⟩ := commits
  cases committed.symm.trans done
  -- A call writes to its own session only.
  by_cases same : session = r.session uuid
  · subst same
    rwa [Database.events_append_rows]
  · rw [Database.events_append_rows_of_ne _ same]
    exact replays session

/-- **The rows of every session can be replayed**, in every database that the operations reach. -/
theorem replays_of_written {db : Database} (written : Written limits db) (session : String) :
    Replays (db.events session) := by
  induction written generalizing session with
  | empty => exact ⟨[], {}, rfl, rfl⟩
  | @call db before evidence env r hex fresh ih =>
    unfold Workflow.runWithin
    dsimp only
    cases done : Workflow.commitWithin limits (Workflow.width ⟨db, evidence⟩ (r.session env.uuid))
      (Workflow.asRead ⟨db, evidence⟩ (r.session env.uuid)) env.uuid r with
    | error failure => exact ih session
    | ok db' =>
      exact replays_of_commitWithin (w := Workflow.asRead ⟨db, evidence⟩ (r.session env.uuid)) hex
        fresh ih done session

/-- A call comes to something that it does not refuse, in its transaction or, when this has been
committed, in the export. -/
def Trips (limits : Limits) (w : Workflow) (env : Surroundings) (r : Request) : Prop :=
  let session := r.session env.uuid
  TripsCommit limits (w.width session) (w.asRead session) env.uuid r ∨
    ∃ db, (w.asRead session).commitWithin limits (w.width session) env.uuid r = .ok db ∧
      TripsExport limits env.clock env.disk session
        (emitted (exportsOf QUESTIONS) 1 (db.events session)) (w.asRead session).evidence

/-- A call succeeds, or it fails with an error of the program; and unless that says that publishing
failed, the database is as it was. -/
def Refuses (limits : Limits) (w : Workflow) (env : Surroundings) (r : Request) : Prop :=
  ∀ failure, (w.runWithin limits env r).2 = .error failure →
    failure.IsDeclared ∧ (¬ failure.IsPublishFailed → (w.runWithin limits env r).1.db = w.db)

theorem runWithin_of_commit_error {env : Surroundings} {failure : Failure}
    (failed : (w.asRead (r.session env.uuid)).commitWithin limits (w.width (r.session env.uuid))
      env.uuid r = .error failure) : w.runWithin limits env r = (w, .error failure) := by
  rw [Workflow.runWithin, failed]

/-- After a commit a call ends as the export does. -/
theorem runWithin_of_commit {env : Surroundings} {db : Database}
    (done : (w.asRead (r.session env.uuid)).commitWithin limits (w.width (r.session env.uuid))
      env.uuid r = .ok db) :
    (w.runWithin limits env r).2 = (Workflow.publishWithin limits
      { w.asRead (r.session env.uuid) with db } env (r.session env.uuid)).2 := by
  rw [Workflow.runWithin, done]

/-- What a call comes to that it does not refuse ends it in another exception. -/
theorem runWithin_of_trips (written : Written limits w.db) {env : Surroundings}
    (hex : isHex32 env.uuid) (loads : r.loads = true) (trips : Trips limits w env r) :
    ∃ exception, (w.runWithin limits env r).2 = .error (.raised exception) := by
  rcases trips with early | ⟨db, done, late⟩
  · obtain ⟨exception, failed⟩ := commitWithin_of_trips loads early
    exact ⟨exception, congrArg Prod.snd (runWithin_of_commit_error failed)⟩
  · have replays := replays_of_written written (r.session env.uuid)
    rcases commitWithin_cases limits (w.width (r.session env.uuid)) (w.asRead (r.session env.uuid))
      loads hex replays with
      ⟨rows, committed, further, some⟩ | ⟨failure, failed, -⟩ | early
    · cases committed.symm.trans done
      have stored := Database.events_append_rows w.db (r.session env.uuid) rows
      rw [runWithin_of_commit done]
      exact ⟨_, publishWithin_of_tripsExport (stored.symm ▸ further) (stored.symm ▸ some) late⟩
    · cases failed.symm.trans done
    · obtain ⟨exception, failed⟩ := commitWithin_of_trips loads early
      cases failed.symm.trans done

end Call

/-- The file of a first event whose kind is any value. -/
def fileOfKind (event : Json) : Export where
  evidenceId := eventId 1
  kind := "event"
  title := ""
  content := .obj [("sequence", .int 1), ("event", event), ("payload", .obj [])]

/-- An empty database next to a folder with this file. -/
def workflowOfKind (event : Json) : Workflow where
  db := []
  evidence := { root := "evidence", folder := fun session =>
    if session = zeroId then [(eventId 1, (fileOfKind event).text zeroId "")] else [] }

theorem read_fileOfKind {event : Json} (plain : Json.isPlain event) :
    (workflowOfKind event).evidence.read zeroId (eventId 1) =
      .ok ((fileOfKind event).record zeroId "") := by
  have content : Json.isPlain (fileOfKind event).content := by
    simp [fileOfKind, Json.isPlain, Json.fieldsArePlain, plain]
  have path : checkPath zeroId (fileOfKind event).evidenceId = .ok () := by
    rw [fileOfKind, checkPath, if_pos (isEvidenceId_eventId.mpr (by decide)), checkFolder,
      if_pos (by decide)]
  have found : ((workflowOfKind event).evidence.folder zeroId).get? (fileOfKind event).evidenceId =
      some ((fileOfKind event).text zeroId "") := by
    simp [workflowOfKind, Dict.get?, fileOfKind]
  have read := read_of_text content path found
  rwa [show (fileOfKind event).evidenceId = eventId 1 from rfl] at read

theorem eventStems_fileOfKind (event : Json) :
    eventStems ((workflowOfKind event).evidence.folder zeroId) = [eventId 1] := by
  have own : (workflowOfKind event).evidence.folder zeroId =
      [(eventId 1, (fileOfKind event).text zeroId "")] := by simp [workflowOfKind]
  rw [eventStems, own]
  simp [Dict.keys, isSome_afterPrefix?_eventId]

/-- An interpreter that nothing is too deep for. -/
def noLimits : Limits := ⟨fun _ => false, fun _ => false⟩

theorem shallow_noLimits : noLimits.Shallow := fun _ => ⟨rfl, rfl⟩

/-- The characters of the file. -/
def charsOfKind (event : Json) : List Char :=
  Json.write (some 2) 0 (.obj ((fileOfKind event).record zeroId "")) ++ ['\n']

theorem asRead_workflowOfKind (event : Json) (plain : '\\' ∉ charsOfKind event)
    (short : (charsOfKind event).length ≤ Json.maxDigits) :
    (workflowOfKind event).asRead zeroId = workflowOfKind event := by
  have chars : ((fileOfKind event).text zeroId "").toList = charsOfKind event := by
    rw [Export.text, String.toList_append, Json.dumpIndented, String.toList_ofList, charsOfKind]
    rfl
  have own : (workflowOfKind event).evidence.folder zeroId =
      [(eventId 1, (fileOfKind event).text zeroId "")] := by simp [workflowOfKind]
  have same : Function.update (workflowOfKind event).evidence.folder zeroId
      (((workflowOfKind event).evidence.folder zeroId).map fun file =>
        (file.1, Json.asRead ((workflowOfKind event).width zeroId) file.2)) =
      (workflowOfKind event).evidence.folder := by
    rw [own, List.map_singleton, Json.asRead_of_notMem (chars ▸ plain) (chars ▸ short), ← own,
      Function.update_eq_self]
  rw [Workflow.asRead, EvidenceStore.asRead, same]

end AgentLabs.Interview
