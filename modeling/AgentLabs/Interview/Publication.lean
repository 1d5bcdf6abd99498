import AgentLabs.Interview.History

/-!
# What the files of a session say

While nothing but `put` writes to the folder of a session, the folder holds the
first few of the files of the session's history, in the order of publication and
each with the content it was exported with. Reading such a folder gives the first
events back, and publishing to it never meets a conflict.

## Main definitions

* `Published`: a folder holds the first files of a list

## Main results

* `Published.link`: one more file keeps it so
* `Published.eventStems`: the event files present are numbered from one on
* `Published.loadEvents`: the events read from the files are those of the history
* `Published.putAll_cases`: publishing with any disk
* `Published.putAll_works`: publishing succeeds and leaves the longer list of files
-/

namespace AgentLabs.Interview

open Math Text

/-! ### Names -/

theorem afterPrefix?_append (start rest : String) :
    afterPrefix? start (start ++ rest) = some rest := by
  simp [afterPrefix?, String.toList_append]

/-- A string does not start with a prefix that has another first letter. -/
theorem afterPrefix?_eq_none {start s : String} {c d : Char} {cs ds : List Char}
    (h : start.toList = c :: cs) (k : s.toList = d :: ds) (other : c ≠ d) :
    afterPrefix? start s = none := by
  simp [afterPrefix?, h, k, other]

theorem toList_eventId (number : ℕ) :
    (eventId number).toList = 'e' :: ("vent-".toList ++ zeroPad 8 number) := by
  rw [eventId, String.toList_append, show "event-".toList = 'e' :: "vent-".toList from by decide]
  simp

theorem toList_seedEvidenceId (seedId : String) :
    (seedEvidenceId seedId).toList = 's' :: ("eed-".toList ++ seedId.toList) := by
  rw [seedEvidenceId, String.toList_append,
    show "seed-".toList = 's' :: "eed-".toList from by decide]
  simp

/-- Event files have valid names up to number 99999999. -/
theorem isEvidenceId_eventId {number : ℕ} : isEvidenceId (eventId number) ↔ number < 10 ^ 8 := by
  have digits : (afterPrefix? "event-" (eventId number)) = some (.ofList (zeroPad 8 number)) :=
    afterPrefix?_append _ _
  have decimal : (zeroPad 8 number).all isDecimal := List.all_eq_true.mpr fun _ member =>
    isDecimal_of_isDigit (isDigit_zeroPad member)
  -- The other kinds of names start differently.
  have others : ∀ start ∈ ["seed-", "call-", "artifact-"], afterPrefix? start (eventId number) =
      none := by
    intro start member
    simp only [List.mem_cons, List.not_mem_nil, or_false] at member
    rcases member with rfl | rfl | rfl
    · exact afterPrefix?_eq_none (by decide : _ = 's' :: "eed-".toList) (toList_eventId number)
        (by decide)
    · exact afterPrefix?_eq_none (by decide : _ = 'c' :: "all-".toList) (toList_eventId number)
        (by decide)
    · exact afterPrefix?_eq_none (by decide : _ = 'a' :: "rtifact-".toList) (toList_eventId number)
        (by decide)
  rw [← length_zeroPad_eq_iff (by decide), isEvidenceId, digits]
  simp only [Option.any_some, String.toList_ofList, decimal, Bool.and_true, Bool.or_eq_true,
    decide_eq_true_eq, List.any_eq_true]
  constructor
  · rintro (length | ⟨start, member, found⟩)
    · exact length
    · simp [others start member] at found
  · exact .inl

/-- The file of a seed has a valid name. -/
theorem isEvidenceId_seedEvidenceId {seedId : String} (hex : isHex32 seedId) :
    isEvidenceId (seedEvidenceId seedId) := by
  have after : afterPrefix? "seed-" (seedEvidenceId seedId) = some seedId := afterPrefix?_append _ _
  simp [isEvidenceId, after, hex]

/-- Of the files of a history, the event files are those with a number. -/
theorem isSome_afterPrefix?_eventId (number : ℕ) :
    (afterPrefix? "event-" (eventId number)).isSome := by
  rw [eventId, afterPrefix?_append]
  rfl

theorem afterPrefix?_seedEvidenceId (seedId : String) :
    afterPrefix? "event-" (seedEvidenceId seedId) = none :=
  afterPrefix?_eq_none (by decide : _ = 'e' :: "vent-".toList) (toList_seedEvidenceId seedId)
    (by decide)

/-- The file names of events are ordered as the events are. -/
theorem eventId_le {m n : ℕ} (less : m < n) (fits : n < 10 ^ 8) :
    eventId m ++ ".json" ≤ eventId n ++ ".json" := by
  have digits := zeroPad_lt (by decide : 0 < 8) less fits
  have same : (zeroPad 8 m).length = (zeroPad 8 n).length := by
    rw [(length_zeroPad_eq_iff (by decide)).mpr (less.trans fits),
      (length_zeroPad_eq_iff (by decide)).mpr fits]
  rw [String.le_iff_toList_le, String.toList_append, String.toList_append, toList_eventId,
    toList_eventId]
  apply le_of_lt
  rw [List.cons_append, List.cons_append, List.append_assoc, List.append_assoc]
  exact List.cons_lt_cons_iff.mpr
    (.inr ⟨rfl, List.append_left_lt (append_lt_append same digits _ _)⟩)

/-! ### Records -/

theorem isPlain_record {e : Export} (plain : Json.isPlain e.content) (session now : String) :
    Json.isPlain (.obj (e.record session now)) := by
  simp [Export.record, Json.isPlain, Json.fieldsArePlain, plain]

namespace EvidenceStore

/-- A file is read as the record that was written. -/
theorem decode_text {e : Export} (plain : Json.isPlain e.content) (session now : String) :
    decode session e.evidenceId (e.text session now) = .ok (e.record session now) := by
  have named : str? (e.record session now) "evidence_id" = some e.evidenceId := rfl
  have owned : str? (e.record session now) "session_id" = some session := rfl
  have whole : ∀ key ∈ recordKeys, key ∈ (e.record session now).keys := by
    change ∀ key ∈ recordKeys, key ∈ ["evidence_id", "session_id", "kind", "title",
      "source_evidence_id", "exported_at", "content"]
    decide
  rw [decode, Export.text, Json.loads_dumpIndented (isPlain_record plain session now)]
  exact if_pos ⟨named, owned, whole⟩

/-- A file of an export is read as its record. -/
theorem read_of_text {store : EvidenceStore} {session now : String} {e : Export}
    (plain : Json.isPlain e.content) (path : checkPath session e.evidenceId = .ok ())
    (found : (store.folder session).get? e.evidenceId = some (e.text session now)) :
    store.read session e.evidenceId = .ok (e.record session now) := by
  simp only [EvidenceStore.read, path, found, bind, Except.bind, decode_text plain]

/-- Two exports of the same evidence differ in their times only. -/
theorem sameEvidence_record {e : Export} (plain : Json.isPlain e.content)
    (session now now' : String) :
    sameEvidence (e.record session now) (e.record session now') := by
  rw [sameEvidence, List.all_eq_true]
  intro entry member
  by_cases time : entry.1 = "exported_at"
  · simp [time]
  obtain ⟨distinct, fields⟩ := Json.isPlain_obj.mp (isPlain_record plain session now)
  -- All fields but the time are the same in both records.
  have same : entry ∈ e.record session now := by
    simp only [Export.record, List.mem_cons, List.not_mem_nil, or_false] at member ⊢
    rcases member with rfl | rfl | rfl | rfl | rfl | rfl | rfl <;> simp_all
  have equal := Json.pyEq_refl _ (Json.isPlain_of_mem_fields fields same)
  rw [(Dict.get?_eq_some_iff distinct).mpr same]
  simp [equal]

variable {store : EvidenceStore} {session id text : String}

@[simp] theorem link_root : (store.link session id text).1.root = store.root := by
  rw [link]
  split_ifs <;> rfl

/-- Linking touches the folder of the session only. -/
theorem link_folder_of_ne {s : String} (other : s ≠ session) :
    (store.link session id text).1.folder s = store.folder s := by
  rw [link]
  split_ifs
  · rfl
  · exact Function.update_of_ne other _ _

theorem link_of_mem (present : id ∈ (store.folder session).keys) :
    store.link session id text = (store, true) := if_pos present

theorem link_of_notMem (absent : id ∉ (store.folder session).keys) :
    (store.link session id text).1.folder session = store.folder session ++ [(id, text)] := by
  rw [link, if_neg absent]
  change Function.update _ _ _ _ = _
  rw [Function.update_self, Dict.set_of_notMem absent]

theorem keys_link : ((store.link session id text).1.folder session).keys =
    putAbsent (store.folder session).keys id := by
  by_cases present : id ∈ (store.folder session).keys
  · rw [link_of_mem present, putAbsent, if_pos present]
  · rw [link_of_notMem present, putAbsent, if_neg present]
    simp [Dict.keys]

/-- **A published file never changes**: linking leaves every file that exists as it is. -/
theorem get?_link {s id' text' : String} (found : (store.folder s).get? id' = some text') :
    ((store.link session id text).1.folder s).get? id' = some text' := by
  by_cases present : id ∈ (store.folder session).keys
  · rwa [link_of_mem present]
  · by_cases same : s = session
    · subst same
      have other : id ≠ id' := fun h => present (h ▸ Dict.mem_keys_iff.mpr ⟨_, found⟩)
      rw [link_of_notMem present, ← Dict.set_of_notMem present, Dict.get?_set_of_ne other]
      exact found
    · rwa [link_folder_of_ne same]

end EvidenceStore

/-! ### Published files -/

/-- A folder holds the first of a list of files, in this order and each with the
content it is exported with. -/
structure Published (folder : Folder) (session : String) (all : List Export) : Prop where
  order : folder.keys <+: all.map Export.evidenceId
  spelled : ∀ {id text}, folder.get? id = some text →
    ∃ e ∈ all, e.evidenceId = id ∧ ∃ now, text = e.text session now
  named : ∀ id ∈ folder.keys, isEvidenceId id

open EvidenceStore

/-! ### Failures of an export -/

/-- The failure of a call after its commit. -/
def Failure.IsPublishFailed (failure : Failure) : Prop :=
  ∃ message details, failure = .workflow "evidence_publish_failed" message details

/-- The failure of an export: an `OSError` or an `EvidenceError`. -/
def Failure.OfExport (failure : Failure) : Prop :=
  (∃ message, failure = .os message) ∨ ∃ code message, failure = .evidence code message

theorem Failure.OfExport.isPublishFailed {failure : Failure} (h : failure.OfExport)
    (session : String) : (failure.ofPublishing session).IsPublishFailed := by
  rcases h with ⟨message, rfl⟩ | ⟨code, message, rfl⟩
  · exact ⟨_, _, rfl⟩
  · exact ⟨_, _, rfl⟩

/-- The disk serves the file, and its name is a valid one. -/
def Exportable (disk : String → Disk) (e : Export) : Prop :=
  isEvidenceId e.evidenceId ∧ disk e.evidenceId = .works

namespace Published

theorem empty (session : String) (all : List Export) : Published [] session all where
  order := List.nil_prefix
  spelled found := by simp at found
  named id member := by simp [Dict.keys] at member

variable {store : EvidenceStore} {session : String} {all more : List Export}

/-- A longer list of files begins with the same ones. -/
theorem mono (h : Published (store.folder session) session all) (grown : all <+: more) :
    Published (store.folder session) session more where
  order := h.order.trans (grown.map _)
  spelled found := by
    obtain ⟨e, member, rest⟩ := h.spelled found
    exact ⟨e, grown.subset member, rest⟩
  named := h.named

variable {folder : Folder} {e : Export}

/-- A folder with no more files than a shorter list has holds the first files of it. -/
theorem restrict (h : Published folder session more) (nodup : (more.map Export.evidenceId).Nodup)
    (grown : all <+: more) (order : folder.keys <+: all.map Export.evidenceId) :
    Published folder session all where
  order := order
  spelled {id text} found := by
    obtain ⟨e, member, rfl, rest⟩ := h.spelled found
    obtain ⟨e', member', same⟩ :=
      List.mem_map.mp (order.subset (Dict.mem_keys_iff.mpr ⟨text, found⟩))
    have equal := List.inj_on_of_nodup_map nodup (grown.subset member') member same
    exact ⟨e, equal ▸ member', rfl, rest⟩
  named := h.named

/-- The text of a published file is that of its export. -/
theorem exists_text (h : Published folder session all) (nodup : (all.map Export.evidenceId).Nodup)
    (member : e ∈ all) (present : e.evidenceId ∈ folder.keys) :
    ∃ now, folder.get? e.evidenceId = some (e.text session now) := by
  obtain ⟨text, found⟩ := Dict.mem_keys_iff.mp present
  obtain ⟨e', member', same, now, rfl⟩ := h.spelled found
  rw [List.inj_on_of_nodup_map nodup member' member same] at found
  exact ⟨now, found⟩

/-- One file more: a publisher that has put the first files of the list, and no more
than there are, puts the next one. -/
theorem link (h : Published (store.folder session) session all)
    (nodup : (all.map Export.evidenceId).Nodup) {done : List Export} (next : done ++ [e] <+: all)
    (behind : done.length ≤ (store.folder session).keys.length) (named : isEvidenceId e.evidenceId)
    (now : String) :
    let linked := (store.link session e.evidenceId (e.text session now)).1
    Published (linked.folder session) session all ∧
      (done ++ [e]).length ≤ (linked.folder session).keys.length := by
  have ids : done.map Export.evidenceId ++ [e.evidenceId] <+: all.map Export.evidenceId := by
    simpa using next.map Export.evidenceId
  have keys : ((store.link session e.evidenceId (e.text session now)).1.folder session).keys =
      putAbsent (store.folder session).keys e.evidenceId := keys_link
  -- A file that is there already is left; a new one comes next in the list.
  obtain ⟨order, ahead, -⟩ := putAbsent_step nodup h.order ids (by simpa using behind)
  rw [← keys] at order ahead
  refine ⟨⟨order, fun {id text} found => ?_, fun id member => ?_⟩, by simpa using ahead⟩
  · by_cases present : e.evidenceId ∈ (store.folder session).keys
    · rw [link_of_mem present] at found
      exact h.spelled found
    · rw [link_of_notMem present, ← Dict.set_of_notMem present, Dict.get?_set] at found
      split_ifs at found with same
      · cases found
        exact ⟨e, next.subset (by simp), same, now, rfl⟩
      · exact h.spelled found
  · rw [keys_link, putAbsent] at member
    split_ifs at member
    · exact h.named id member
    · rcases List.mem_append.mp member with before | new
      · exact h.named id before
      · exact List.mem_singleton.mp new ▸ named

variable (plain : ∀ e ∈ all, Json.isPlain e.content) (nodup : (all.map Export.evidenceId).Nodup)
  (valid : isSessionId session)

include plain nodup valid

/-- A published file is read as its record. -/
theorem exists_read (h : Published (store.folder session) session all) (member : e ∈ all)
    (present : e.evidenceId ∈ (store.folder session).keys) :
    ∃ now, store.read session e.evidenceId = .ok (e.record session now) := by
  obtain ⟨now, found⟩ := h.exists_text nodup member present
  have path : checkPath session e.evidenceId = .ok () := by
    rw [checkPath, if_pos (h.named _ present), checkFolder, if_pos valid]
  exact ⟨now, read_of_text (plain e member) path found⟩

/-- `put` finds what it would have written. -/
theorem exists_verify (h : Published (store.folder session) session all) (member : e ∈ all)
    (present : e.evidenceId ∈ (store.folder session).keys) (now : String) (existed : Bool) :
    ∃ record, store.verify session e now existed = .ok record := by
  obtain ⟨before, found⟩ := h.exists_read plain nodup valid member present
  refine ⟨e.record session before, ?_⟩
  cases existed
  · simp [verify, found]
  · simp [verify, found, sameEvidence_record (plain e member), bind, Except.bind]

/-- A file of the list that comes next is put. -/
theorem put_works (h : Published (store.folder session) session all) {done : List Export}
    (next : done ++ [e] <+: all) (behind : done.length ≤ (store.folder session).keys.length)
    (named : isEvidenceId e.evidenceId) (now : String) :
    ∃ record, store.put session e now .works =
      ((store.link session e.evidenceId (e.text session now)).1, .ok record) := by
  obtain ⟨kept, -⟩ := h.link nodup next behind named now
  have present : e.evidenceId ∈
      ((store.link session e.evidenceId (e.text session now)).1.folder session).keys := by
    rw [keys_link, putAbsent]
    split_ifs with there
    · exact there
    · simp
  obtain ⟨record, verified⟩ := kept.exists_verify plain nodup valid (next.subset (by simp)) present
    now (store.link session e.evidenceId (e.text session now)).2
  refine ⟨record, ?_⟩
  simp [put, checkPath, named, checkFolder, valid, verified]

/-- One `put`: the file comes to the folder and can be read, or there is a failure and the file
came to the folder or did not. -/
theorem put_cases (h : Published (store.folder session) session all) {done : List Export}
    (next : done ++ [e] <+: all) (behind : done.length ≤ (store.folder session).keys.length)
    (now : String) (disk : String → Disk) :
    (Exportable disk e ∧ ∃ record, store.put session e now (disk e.evidenceId) =
      ((store.link session e.evidenceId (e.text session now)).1, .ok record)) ∨
    ¬ Exportable disk e ∧ ∃ store' failure, store.put session e now (disk e.evidenceId) =
        (store', .error failure) ∧ failure.OfExport ∧
      (store' = store ∨ isEvidenceId e.evidenceId ∧
        store' = (store.link session e.evidenceId (e.text session now)).1) := by
  by_cases named : isEvidenceId e.evidenceId
  · have path : checkPath session e.evidenceId = .ok () := by
      rw [checkPath, if_pos named, checkFolder, if_pos valid]
    cases served : disk e.evidenceId with
    | works => exact .inl ⟨⟨named, served⟩, h.put_works plain nodup valid next behind named now⟩
    | full =>
      refine .inr ⟨fun both => ?_, store, .os "OSError", ?_, .inl ⟨_, rfl⟩, .inl rfl⟩
      · cases served.symm.trans both.2
      · simp [put, path]
    -- The file is linked, and the exception comes after it.
    | lost =>
      refine .inr ⟨fun both => ?_, _, .os "OSError", ?_, .inl ⟨_, rfl⟩, .inr ⟨named, rfl⟩⟩
      · cases served.symm.trans both.2
      · simp [put, path]
  · obtain ⟨code, message, path⟩ : ∃ code message,
        checkPath session e.evidenceId = .error (.evidence code message) :=
      ⟨_, _, if_neg named⟩
    exact .inr ⟨fun both => named both.1, store, .evidence code message, by rw [put, path],
      .inr ⟨code, message, rfl⟩, .inl rfl⟩

/-- **An export with any disk** leaves the first files of the list, and succeeds exactly if
every file has a valid name and is served. Then it leaves the longer list of files: what was
there, or what is published. -/
theorem putAll_cases (h : Published (store.folder session) session all) {items : List Export}
    (copy : items <+: all) (clock : String → String) (disk : String → Disk) :
    ∃ store' result, putAll clock disk session (items.map .ok) store = (store', result) ∧
      Published (store'.folder session) session all ∧ store'.root = store.root ∧
      (∀ s ≠ session, store'.folder s = store.folder s) ∧
      ((∀ e ∈ items, Exportable disk e) ∧ result = .ok () ∧ (store'.folder session).keys =
          longer (store.folder session).keys (items.map Export.evidenceId) ∨
        (¬ ∀ e ∈ items, Exportable disk e) ∧ ∃ failure, result = .error failure ∧
          failure.OfExport) := by
  -- Induction on the files still to be put, with those already put in front of them.
  suffices general : ∀ rest done store, done ++ rest <+: all →
      Published (store.folder session) session all →
      done.length ≤ (store.folder session).keys.length →
      ∃ store' result, putAll clock disk session (rest.map .ok) store = (store', result) ∧
        Published (store'.folder session) session all ∧ store'.root = store.root ∧
        (∀ s ≠ session, store'.folder s = store.folder s) ∧
        ((∀ e ∈ rest, Exportable disk e) ∧ result = .ok () ∧ (store'.folder session).keys =
            (rest.map Export.evidenceId).foldl putAbsent (store.folder session).keys ∨
          (¬ ∀ e ∈ rest, Exportable disk e) ∧
            ∃ failure, result = .error failure ∧ failure.OfExport) by
    obtain ⟨store', result, ran, kept, root, frame, outcome⟩ :=
      general items [] store (by simpa using copy) h (Nat.zero_le _)
    rw [foldl_putAbsent nodup h.order (copy.map _)] at outcome
    exact ⟨store', result, ran, kept, root, frame, outcome⟩
  intro rest
  induction rest with
  | nil =>
    intro done store _ published _
    exact ⟨store, .ok (), rfl, published, rfl, fun _ _ => rfl, .inl ⟨by simp, rfl, rfl⟩⟩
  | cons e rest ih =>
    intro done store next published behind
    have split : done ++ e :: rest = done ++ [e] ++ rest := by simp
    rw [split] at next
    have first := (List.prefix_append (done ++ [e]) rest).trans next
    rcases published.put_cases plain nodup valid first behind (clock e.evidenceId) disk with
      ⟨served, record, here⟩ | ⟨not_served, store', failure, here, ofExport, left⟩
    · obtain ⟨kept, ahead⟩ := published.link nodup first behind served.1 (clock e.evidenceId)
      obtain ⟨store', result, ran, published', root, frame, outcome⟩ :=
        ih (done ++ [e]) _ next kept ahead
      refine ⟨store', result, ?_, published', root.trans link_root,
        fun s other => (frame s other).trans (link_folder_of_ne other), ?_⟩
      · rw [List.map_cons, putAll, here]
        exact ran
      · rcases outcome with ⟨all, ok, keys⟩ | ⟨some, failed⟩
        · refine .inl ⟨List.forall_mem_cons.mpr ⟨served, all⟩, ok, ?_⟩
          rw [keys, keys_link]
          rfl
        · exact .inr ⟨fun all => some (List.forall_mem_cons.mp all).2, failed⟩
    · -- The export stops here, and the file came to the folder or did not.
      have stopped : ¬ ∀ e' ∈ e :: rest, Exportable disk e' := fun all =>
        not_served (List.forall_mem_cons.mp all).1
      refine ⟨store', .error failure, ?_, ?_⟩
      · rw [List.map_cons, putAll, here]
      · rcases left with rfl | ⟨named, rfl⟩
        · exact ⟨published, rfl, fun _ _ => rfl, .inr ⟨stopped, failure, rfl, ofExport⟩⟩
        · obtain ⟨kept, -⟩ := published.link nodup first behind named (clock e.evidenceId)
          exact ⟨kept, link_root, fun s other => link_folder_of_ne other,
            .inr ⟨stopped, failure, rfl, ofExport⟩⟩

/-- **Publishing succeeds** while writing works. -/
theorem putAll_works (h : Published (store.folder session) session all) {items : List Export}
    (copy : items <+: all) (named : ∀ e ∈ items, isEvidenceId e.evidenceId)
    (clock : String → String) :
    ∃ store', putAll clock (fun _ => .works) session (items.map .ok) store = (store', .ok ()) ∧
      Published (store'.folder session) session all ∧
      (store'.folder session).keys =
        longer (store.folder session).keys (items.map Export.evidenceId) ∧
      store'.root = store.root ∧ ∀ s ≠ session, store'.folder s = store.folder s := by
  obtain ⟨store', result, ran, kept, root, frame, outcome⟩ :=
    h.putAll_cases plain nodup valid copy clock fun _ => .works
  rcases outcome with ⟨-, rfl, keys⟩ | ⟨some, -⟩
  · exact ⟨store', ran, kept, keys, root, frame⟩
  · exact absurd (fun e listed => ⟨named e listed, rfl⟩) some

/-- Publishing what is already there changes nothing. -/
theorem putAll_of_present (h : Published (store.folder session) session all) {items : List Export}
    (subset : items ⊆ all) (present : ∀ e ∈ items, e.evidenceId ∈ (store.folder session).keys)
    (clock : String → String) :
    putAll clock (fun _ => .works) session (items.map .ok) store = (store, .ok ()) := by
  induction items with
  | nil => rfl
  | cons e rest ih =>
    have here := present e (.head _)
    obtain ⟨record, verified⟩ := h.exists_verify plain nodup valid (subset (.head _)) here
      (clock e.evidenceId) true
    have same : store.put session e (clock e.evidenceId) .works = (store, .ok record) := by
      simp [put, checkPath, h.named _ here, checkFolder, valid, link_of_mem here, verified]
    rw [List.map_cons, putAll, same]
    exact ih (fun e member => subset (.tail _ member)) fun e member => present e (.tail _ member)

end Published

/-! ### Loading -/

/-- A record that is read is a file of a valid session. -/
theorem mem_keys_of_read {store : EvidenceStore} {session id : String} {record : Fields}
    (found : store.read session id = .ok record) :
    isSessionId session ∧ id ∈ (store.folder session).keys := by
  rw [EvidenceStore.read] at found
  by_cases named : isEvidenceId id
  · by_cases valid : isSessionId session
    · refine ⟨valid, ?_⟩
      by_contra absent
      rw [← Dict.get?_eq_none_iff] at absent
      simp [checkPath, named, checkFolder, valid, absent, bind, Except.bind] at found
    · simp [checkPath, named, checkFolder, valid, bind, Except.bind] at found
  · simp [checkPath, named, bind, Except.bind] at found

/-- An event that is read has the name of its number. -/
theorem stem_of_eventOf {number : ℕ} {stem : String} {record : Fields} {event : RawEvent}
    (found : eventOf number stem record = .ok event) : stem = eventId number := by
  by_contra other
  unfold eventOf at found
  cases content : (record.get? "content").bind Json.asObj? <;> simp [content, other] at found

/-- What the file of an event says. -/
theorem Event.exists_content (event : Event) (number : ℕ) :
    ∃ fields, event.content number = .obj fields ∧
      Dict.get? fields "sequence" = some (.int number) ∧
      Dict.get? fields "payload" = some event.payload ∧
      Dict.get? fields "event" = some (.str event.kind) := by
  cases event <;> exact ⟨_, rfl, rfl, rfl, rfl⟩

/-- The event is read back from its file. -/
theorem Event.eventOf_record (event : Event) (number : ℕ) (session now : String) :
    eventOf number (eventId number) ((event.file number).record session now) = .ok event.raw := by
  obtain ⟨fields, content, sequence, payload, kind⟩ := event.exists_content number
  have isObject : (event.payload.asObj?).isSome := by cases event <;> rfl
  have equal : Json.pyEq (.int number) (.int number) := Json.pyEq_refl _ rfl
  have found : Dict.get? ((event.file number).record session now) "content" =
      some (.obj fields) := by
    rw [← content]
    rfl
  have titled : str? ((event.file number).record session now) "kind" = some "event" := rfl
  have asObject : (Json.obj fields).asObj? = some fields := rfl
  simp only [eventOf, found, Option.bind_some, asObject, titled, sequence, payload, kind,
    Option.any_some, equal, isObject, and_self, if_true, if_pos event.kind_mem]
  rfl

namespace History

variable {h : History} {folder : Folder} {store : EvidenceStore} {session : String}

/-- How many event files are present. -/
def present (h : History) (folder : Folder) : ℕ := min folder.keys.length h.events.length

theorem keys_of_published (published : Published folder session h.exports) :
    folder.keys = (List.range' 1 (h.present folder)).map eventId ++
      (h.seedId.toList.map seedEvidenceId).take (folder.keys.length - h.events.length) := by
  have order := List.prefix_iff_eq_take.mp published.order
  rw [h.exports_evidenceId, List.take_append, ← List.map_take, List.length_map,
    List.length_range'] at order
  have numbers : (List.range' 1 h.events.length).take folder.keys.length =
      List.range' 1 (h.present folder) := by
    rcases le_total folder.keys.length h.events.length with fewer | all
    · rw [List.take_range'_of_length_ge fewer, present, min_eq_left fewer]
    · rw [List.take_range'_of_length_le all, present, min_eq_right all]
  rwa [numbers] at order

/-- The event files that are present have valid numbers. -/
theorem present_lt (published : Published folder session h.exports) :
    h.present folder < 10 ^ 8 := by
  by_contra large
  have large := not_lt.mp large
  have listed : eventId (10 ^ 8) ∈ folder.keys := by
    rw [keys_of_published published]
    exact List.mem_append_left _ (List.mem_map_of_mem (List.mem_range'_1.mpr ⟨by decide, by omega⟩))
  exact absurd (isEvidenceId_eventId.mp (published.named _ listed)) (lt_irrefl _)

/-- **The event files present are numbered from one on**, in the order of their names. -/
theorem eventStems_of_published (published : Published folder session h.exports) :
    eventStems folder = (List.range' 1 (h.present folder)).map eventId := by
  have fits := present_lt published
  have events : ∀ stem ∈ (List.range' 1 (h.present folder)).map eventId,
      (afterPrefix? "event-" stem).isSome := by
    intro stem member
    obtain ⟨number, -, rfl⟩ := List.mem_map.mp member
    exact isSome_afterPrefix?_eventId number
  have seeds : ∀ stem ∈ (h.seedId.toList.map seedEvidenceId).take
      (folder.keys.length - h.events.length), ¬ (afterPrefix? "event-" stem).isSome := by
    intro stem member
    obtain ⟨id, -, rfl⟩ := List.mem_map.mp (List.mem_of_mem_take member)
    rw [afterPrefix?_seedEvidenceId]
    exact Bool.false_ne_true
  rw [eventStems, keys_of_published published, List.filter_append, List.filter_eq_self.mpr events,
    List.filter_eq_nil_iff.mpr seeds, List.append_nil]
  apply List.Pairwise.insertionSort_eq
  rw [List.pairwise_map]
  refine List.Pairwise.imp_of_mem ?_ List.pairwise_lt_range'
  intro a b _ memberB less
  have := List.mem_range'_1.mp memberB
  exact eventId_le less (by omega)

/-- The file of an event is there exactly if its number is not too large. -/
theorem eventId_mem_keys_iff (published : Published folder session h.exports) {number : ℕ} :
    eventId number ∈ folder.keys ↔ 1 ≤ number ∧ number ≤ h.present folder := by
  rw [keys_of_published published, List.mem_append]
  constructor
  · rintro (event | seed)
    · obtain ⟨n, listed, same⟩ := List.mem_map.mp event
      rw [← eventId_injective same]
      have := List.mem_range'_1.mp listed
      omega
    · obtain ⟨id, -, same⟩ := List.mem_map.mp (List.mem_of_mem_take seed)
      exact absurd same.symm (eventId_ne_seedEvidenceId number id)
  · rintro ⟨low, high⟩
    exact .inl (List.mem_map_of_mem (List.mem_range'_1.mpr ⟨low, by omega⟩))

variable (published : Published (store.folder session) session h.exports)
  (valid : isSessionId session)

include published valid

/-- The file of an event that is present is read as its record. -/
theorem read_of_published {i : ℕ} (inside : i < h.present (store.folder session)) :
    ∃ bound : i < h.events.length, ∃ now, store.read session (eventId (i + 1)) =
      .ok ((h.events[i].file (i + 1)).record session now) := by
  have bound : i < h.events.length := lt_of_lt_of_le inside (min_le_right _ _)
  have listed : (h.events[i].file (i + 1)).evidenceId ∈ (store.folder session).keys :=
    (eventId_mem_keys_iff published).mpr ⟨by omega, by omega⟩
  obtain ⟨now, read⟩ := published.exists_read h.isPlain_exports h.nodup_exports valid
    (h.file_mem_exports bound) listed
  exact ⟨bound, now, read⟩

/-- The file of an event that is present gives the event back. -/
theorem loadEvent_of_published {i : ℕ} (inside : i < h.present (store.folder session)) :
    ∃ bound : i < h.rows.length,
      store.loadEvent session (i + 1) (eventId (i + 1)) = .ok h.rows[i] := by
  obtain ⟨bound, now, read⟩ := read_of_published published valid inside
  refine ⟨by simpa using bound, ?_⟩
  simp only [loadEvent, read, bind, Except.bind, Event.eventOf_record, rows, List.getElem_map]

/-- **The events read from the files are the first events of the history.** -/
theorem loadEvents_of_published :
    store.loadEvents session = .ok (h.rows.take (h.present (store.folder session))) := by
  -- Induction on the files still to be read.
  have general : ∀ m i, i + m = h.present (store.folder session) →
      store.loadFrom session (i + 1) ((List.range' (i + 1) m).map eventId) =
        .ok ((h.rows.take (h.present (store.folder session))).drop i) := by
    intro m
    induction m with
    | zero =>
      intro i total
      rw [List.drop_eq_nil_of_le (by rw [List.length_take]; omega)]
      rfl
    | succ m ih =>
      intro i total
      obtain ⟨bound, event⟩ := loadEvent_of_published published valid (i := i) (by omega)
      have size : i < (h.rows.take (h.present (store.folder session))).length := by
        rw [List.length_take]
        omega
      rw [List.range'_succ, List.map_cons, loadFrom, event, ih (i + 1) (by omega),
        List.drop_eq_getElem_cons size, List.getElem_take]
      rfl
  rw [loadEvents, checkFolder, if_pos valid, eventStems_of_published published]
  exact general _ 0 (Nat.zero_add _)

end History

end AgentLabs.Interview
