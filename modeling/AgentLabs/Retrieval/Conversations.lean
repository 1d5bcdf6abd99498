import AgentLabs.Retrieval.Growth
import AgentLabs.Retrieval.Turns

/-!
# What a conversation may say

Whatever the models, the server and the agent do, an answer is returned only if it passed the check
and a reviewer has said, of this answer and of the evidence that is held, that it is supported. Each
of its citations is then some lines of a snapshot of a document that applies to what was asked for,
or it is what a vision model has said of a page of such a document, whose file was unchanged. Only
such answers are told to later turns, and only to those of the same session, customer, date and
documents.

## Main definitions

* `Assistant.Sourced`: where the evidence of a turn is from
* `Assistant.Answered`: what is true of an answer that is returned
* `Assistant.completed`: the turns that were completed

## Main results

* `Assistant.triple_attempts`: an answer that the loop returns has passed
* `Assistant.triple_ask`: what a question leaves
* `Assistant.conversation_run`: what a conversation says and what it is told
-/

namespace AgentLabs.Retrieval

open Math Text Program

namespace Assistant

variable {σ α : Type} (a : Assistant σ) (c : Retriever σ)

/-- Evidence is grounded in a snapshot, or it is an observation of a page of a document of which
there is evidence that is. -/
inductive Sourced (t : Turn σ) (e : Evidence) : Prop
  | text (grounded : c.Grounded t.context.snapshots e)
  | image (original : Evidence) (seen : Observation)
      (grounded : c.Grounded t.context.snapshots original) (noted : seen ∈ t.observations)
      (unchanged : seen.hash = original.metadata.sourceSha256)
      (page : e.metadata.page = some seen.page) (kind : e.kind = "visual_observation")
      (uri : e.uri = original.uri)
      (metadata : e.metadata = { original.metadata with extractionMethod := "vision-observation" })
      (quote : e.quote = seen.text)

/-- What every step of a turn keeps. -/
structure Sound (begun : List Message) (t : Turn σ) : Prop where
  begun : t.begun = begun
  sourced : ∀ e ∈ t.context.held, Sourced c t e ∧ e.Labelled c.digest
  bytes : t.context.held ≠ [] → evidenceBytes t.context.held ≤ c.budget.maxContextBytes
  counts : ∀ kind limit, c.budget.limit? kind = some limit → t.context.count kind ≤ limit

/-- A reviewer has said that the answer is supported by what is held. -/
def Reviewed (question : String) (answer : AnswerPayload) (t : Turn σ) : Prop :=
  ∃ report, (⟨question, answer, c.entity, c.asOf, t.context.held, t.calculations⟩, report) ∈
    t.reviews ∧ report.supported

/-- The answer has passed the check and the review. -/
structure Passed (asked : Asked σ) (answer : AnswerPayload) (t : Turn σ) : Prop where
  valid : validateAnswer a.digest a.shown a.files answer (t.answerContext c) asked.answerFormat =
    .ok []
  reviewed : Reviewed c asked.question answer t

/-- What is true of an answer that is returned. -/
structure Answered (asked : Asked σ) (output : Output) (t : Turn σ) : Prop where
  passed : Passed a c asked output.answer t
  cited : ∀ ref ∈ output.answer.citedIds, ∃ e ∈ output.evidence,
    t.context.evidence.get? ref = some e ∧ c.digest e.quote = e.contentHash ∧
      e.metadata.Applies c.entity c.asOf c.domain ∧ Sourced c t e ∧ e.Labelled c.digest
  rendered : renderAnswer a.files output.answer (t.answerContext c) = .ok output.markdown
  bytes : output.evidence ≠ [] → evidenceBytes output.evidence ≤ c.budget.maxContextBytes
  counts : ∀ kind limit, c.budget.limit? kind = some limit →
    (output.counts.get? kind).getD 0 ≤ limit

variable {a c} {begun : List Message} {P : Turn σ → Prop}

/-! ### What grows -/

/-- The property is kept by what only adds to the context. -/
def Growing (c : Retriever σ) (P : Turn σ → Prop) : Prop :=
  ∀ t context, c.Grows t.context context → P t → P { t with context }

theorem Growing.and {Q : Turn σ → Prop} (one : Growing c P) (other : Growing c Q) :
    Growing c fun t => P t ∧ Q t :=
  fun t context grows both => ⟨one t context grows both.1, other t context grows both.2⟩

theorem growing_const (p : Prop) : Growing c fun _ : Turn σ => p := fun _ _ _ => id

theorem Sourced.subset {s t : Turn σ} {e : Evidence} (h : Sourced c s e)
    (snapshots : s.context.snapshots ⊆ t.context.snapshots)
    (observations : s.observations ⊆ t.observations) : Sourced c t e := by
  cases h with
  | text grounded => exact .text (grounded.subset snapshots)
  | image original seen grounded noted unchanged page kind uri metadata quote =>
    exact .image original seen (grounded.subset snapshots) (observations noted) unchanged page kind
      uri metadata quote

theorem growing_sourced (e : Evidence) : Growing c fun t => Sourced c t e :=
  fun _ _ grows h => h.subset grows.snapshots (List.Subset.refl _)

theorem growing_sound : Growing c (Sound c begun) := by
  intro t context grows h
  refine ⟨h.begun, fun e listed => ?_, fun some => ?_, fun kind limit limited => ?_⟩
  · rcases grows.held e listed with old | ⟨grounded, labelled⟩
    · exact ⟨growing_sourced e t context grows (h.sourced e old).1, (h.sourced e old).2⟩
    · exact ⟨.text grounded, labelled⟩
  · rcases grows.bytes with same | fits
    · exact same ▸ h.bytes (same ▸ some)
    · exact fits
  · exact grows.counts kind limit limited (h.counts kind limit limited)

/-- A step of retrieval that only adds. -/
theorem Growing.retrieving (growing : Growing c P) {m : Step σ α}
    (grows : ∀ s, Triple (c.Grows s) m (fun _ => c.Grows s) (c.Grows s)) :
    Triple P (retrieving m) (fun _ => P) P := by
  intro t holds
  have kept : P (Assistant.retrieving m t).2 :=
    growing t _ ((grows t.context).keeps t.context (.refl _)) holds
  exact ⟨fun _ _ => kept, fun _ _ => kept⟩

theorem Growing.consume (growing : Growing c P) (kind : Kind) :
    Triple P (Assistant.retrieving (c.consume kind)) (fun _ => P) P :=
  growing.retrieving fun _ => Retriever.grows_consume kind

theorem Growing.outer (growing : Growing c P) (m : Program σ Failure α) :
    Triple P (outer m) (fun _ => P) P :=
  growing.retrieving fun _ => Retriever.framed_grows.ask m

theorem Growing.note (growing : Growing c P) : Triple P (note c) (fun _ => P) P :=
  (growing.retrieving fun _ => Retriever.framed_grows.remaining).bind fun _ => .pure fun _ => id

theorem keeps_ofExcept (x : Except Failure α) :
    Triple P (Program.ofExcept x : TurnStep σ α) (fun a t => x = .ok a ∧ P t) P :=
  .ofExcept (fun _ ok _ holds => ⟨ok, holds⟩) fun _ => id

/-- Notes beside the context leave a turn sound. -/
theorem Sound.beside {s t : Turn σ} (h : Sound c begun s) (context : t.context = s.context)
    (same : t.begun = s.begun) (observations : s.observations ⊆ t.observations) :
    Sound c begun t := by
  refine ⟨same.trans h.begun, fun e held => ?_, context ▸ h.bytes, context ▸ h.counts⟩
  have old := h.sourced e (context ▸ held)
  exact ⟨old.1.subset (context ▸ List.Subset.refl _) observations, old.2⟩

/-! ### The tools -/

theorem triple_readFileTool (path : String) (offset limit : ℤ) :
    Triple (Sound c begun) (a.readFileTool c path offset limit) (fun _ => Sound c begun)
      (Sound c begun) := by
  have reads : Triple (Sound c begun) (outer (a.readFile path offset limit))
      (fun _ => Sound c begun) (Sound c begun) := growing_sound.outer _
  refine (reads.tryCatch fun e => ?_).bind fun result =>
    .ite (fun _ => ?_) fun _ => .pure fun _ => id
  · split
    · exact .pure fun _ => id
    · exact .throw _ fun _ => id
  have loaded : Triple (Sound c begun)
      (change fun t => { t with
        loadedSkills := (posixParts path).dropLast.getLastD "" :: t.loadedSkills } :
        TurnStep σ Unit)
      (fun _ => Sound c begun) (Sound c begun) :=
    .change fun t h => h.beside rfl rfl (List.Subset.refl _)
  exact loaded.bind fun _ => growing_sound.note.bind fun _ => .pure fun _ => id

theorem triple_tableQuery (evidenceId column operation : String) (tableIndex : ℤ) :
    Triple (Sound c begun) (a.tableQuery c evidenceId column operation tableIndex)
      (fun _ => Sound c begun) (Sound c begun) := by
  refine Triple.state.bind fun now => ?_
  split
  · exact .throw _ fun _ => And.right
  · refine ((keeps_ofExcept _).mono (fun _ => And.right) (fun _ _ => id) fun _ => id).bind
      fun tables => ?_
    split
    · exact .throw _ fun _ => And.right
    · refine ((keeps_ofExcept _).mono (fun _ => And.right) (fun _ _ => And.right) fun _ => id).bind
        fun result => growing_sound.note.bind fun _ => ?_
      have noted : Triple (Sound c begun)
          (change fun t => { t with calculations := t.calculations ++ [result] } : TurnStep σ Unit)
          (fun _ => Sound c begun) (Sound c begun) :=
        .change fun t h => h.beside rfl rfl (List.Subset.refl _)
      exact noted.bind fun _ => .pure fun _ => id

theorem triple_inspectPdf (growing : Growing c P) (path : String) (page : ℤ) (question : String) :
    Triple P (a.inspectPdf path page question) (fun _ => P) P := by
  refine (growing.outer _).bind fun image => (growing.outer _).bind fun response => ?_
  split
  · exact .ite (fun _ => .throw _ fun _ => id) fun _ =>
      .ite (fun _ => .throw _ fun _ => id) fun _ => .pure fun _ => id
  · exact .throw _ fun _ => id

/-- What is made of an observation. -/
theorem visualOf_eq_ok {original visual : Evidence} {observation : String}
    (made : a.visualOf original observation = .ok visual) :
    visual.Labelled a.digest ∧ visual.kind = "visual_observation" ∧ visual.uri = original.uri ∧
      visual.metadata = { original.metadata with extractionMethod := "vision-observation" } ∧
      visual.quote = observation := by
  obtain ⟨plain, read, same⟩ := bind_eq_ok_iff.mp made
  obtain ⟨labelled, uri, metadata, quote⟩ := labelled_of_evidenceFromText read
  obtain rfl := Except.ok.inj same
  exact ⟨⟨labelled.documentId, labelled.title, labelled.source, labelled.page, labelled.slide,
    labelled.version, labelled.contentHash⟩, rfl, uri, metadata, quote⟩

/-- An observation of a page of a piece of evidence has the source that the evidence has. -/
theorem sourced_visual {t : Turn σ} {original visual : Evidence} (seen : Observation)
    (same : a.digest = c.digest) (source : Sourced c t original)
    (labelled : original.Labelled c.digest)
    (noted : seen ∈ t.observations) (unchanged : seen.hash = original.metadata.sourceSha256)
    (page : original.page = some seen.page)
    (made : a.visualOf original seen.text = .ok visual) :
    Sourced c t visual ∧ visual.Labelled c.digest := by
  obtain ⟨labels, kind, uri, metadata, quote⟩ := visualOf_eq_ok made
  have pages : visual.metadata.page = some seen.page := by
    rw [metadata, ← page, labelled.page]
  refine ⟨?_, same ▸ labels⟩
  cases source with
  | text grounded =>
    exact .image original seen grounded noted unchanged pages kind uri metadata quote
  | image root earlier grounded _ _ _ _ uri' metadata' _ =>
    -- The evidence is an observation itself, and what it is of is what the new one is of.
    refine .image root seen grounded noted ?_ pages kind (uri.trans uri') ?_ quote
    · rw [unchanged, metadata']
    · rw [metadata, metadata']

/-- Storing an item makes the evidence no larger than adding it behind the others does. -/
theorem evidenceBytes_set (evidence : Dict String Evidence) (id : String) (item : Evidence) :
    evidenceBytes ((evidence.set id item).map Prod.snd) ≤
      evidenceBytes (evidence.map Prod.snd ++ [item]) := by
  by_cases there : id ∈ evidence.keys
  · obtain ⟨front, old, back, split, stored⟩ := Dict.exists_set_of_mem (v := item) there
    rw [stored, split, evidenceBytes, evidenceBytes, Json.bytes_arr (by simp),
      Json.bytes_arr (by simp)]
    simp only [List.map_append, List.map_cons, List.map_nil, List.sum_append, List.sum_cons,
      List.sum_nil, List.length_append, List.length_cons, List.length_nil]
    omega
  · rw [Dict.set_of_notMem there, List.map_append]
    rfl

theorem triple_holdVisual (visual : Evidence) :
    Triple (fun t => Sound c begun t ∧ Sourced c t visual ∧ visual.Labelled c.digest)
      (holdVisual c visual) (fun _ => Sound c begun) (Sound c begun) := by
  refine Triple.state.bind fun now => ?_
  refine .ite (fun _ => .throw _ fun _ before => before.2.1) fun fits => ?_
  rintro t ⟨rfl, h, source, labelled⟩
  refine ⟨fun _ _ => ⟨h.begun, fun e listed => ?_, fun _ => ?_, h.counts⟩, nofun⟩
  -- An observation with an id that is held takes its place.
  · obtain ⟨entry, stored, rfl⟩ := List.mem_map.mp listed
    have both : Sourced c now entry.2 ∧ entry.2.Labelled c.digest := by
      rcases Dict.mem_set stored with rfl | old
      · exact ⟨source, labelled⟩
      · exact h.sourced entry.2 (List.mem_map_of_mem old)
    exact ⟨both.1.subset (List.Subset.refl _) (List.Subset.refl _), both.2⟩
  · exact (evidenceBytes_set _ _ _).trans (Nat.le_of_not_lt fits)

theorem page_of_pageOf {path : Option String} {page : Option ℤ} {found : String × ℤ}
    (ok : pageOf path page = .ok found) : page = some found.2 := by
  unfold pageOf at ok
  split at ok
  · split_ifs at ok
    obtain rfl := Except.ok.inj ok
    rfl
  · cases ok

/-- **An observation** is of a page of a document that the turn holds evidence of. -/
theorem triple_inspectSourceImage (same : a.digest = c.digest) (evidenceId question : String) :
    Triple (Sound c begun) (a.inspectSourceImage c evidenceId question) (fun _ => Sound c begun)
      (Sound c begun) := by
  refine Triple.state.bind fun now => ?_
  split
  · exact .throw _ fun _ => And.right
  next original found =>
    -- The evidence that was asked about is held, and it keeps its source.
    have start (t : Turn σ) (before : now = t ∧ Sound c begun t) :
        Sound c begun t ∧ Sourced c t original ∧ original.Labelled c.digest := by
      obtain ⟨rfl, h⟩ := before
      exact ⟨h, h.sourced original (List.mem_map_of_mem (Dict.mem_of_get?_eq_some found))⟩
    have growing : Growing c fun t =>
        Sound c begun t ∧ Sourced c t original ∧ original.Labelled c.digest :=
      growing_sound.and ((growing_sourced original).and (growing_const _))
    refine ((growing.outer _).mono start (fun _ _ => id) fun _ => And.left).bind fun path => ?_
    refine ((keeps_ofExcept _).raised fun _ => And.left).bind fun page => ?_
    have growing := (growing_const (c := c) (pageOf path original.page = .ok page)).and growing
    have sound (t : Turn σ) (holds : pageOf path original.page = .ok page ∧ Sound c begun t ∧
      Sourced c t original ∧ original.Labelled c.digest) : Sound c begun t := holds.2.1
    refine ((growing.outer _).raised sound).bind fun hash => ?_
    refine .ite (fun _ => .throw _ sound) fun unchanged => ?_
    refine ((growing.consume _).raised sound).bind fun _ => ?_
    refine (growing.note.raised sound).bind fun _ => ?_
    refine ((triple_inspectPdf growing _ _ _).raised sound).bind fun observation => ?_
    refine (growing.note.raised sound).bind fun _ => ?_
    refine ((keeps_ofExcept _).raised sound).bind fun visual => ?_
    refine Triple.bind (Q := fun _ t =>
      Sound c begun t ∧ Sourced c t visual ∧ visual.Labelled c.digest) (.change ?_) fun _ => ?_
    · rintro t ⟨made, paged, h, source, labelled⟩
      refine ⟨h.beside rfl rfl (List.subset_append_left _ _), ?_⟩
      refine sourced_visual ⟨page.1, page.2, hash, observation⟩ same
        (source.subset (List.Subset.refl _) (List.subset_append_left _ _)) labelled
        (List.mem_append_right _ (.head _)) (not_not.mp unchanged) (page_of_pageOf paged) made
    · exact (triple_holdVisual visual).bind fun _ =>
        growing_sound.note.bind fun _ => .pure fun _ => id

/-! ### What an agent can do -/

theorem keeps_answerCall (same : a.digest = c.digest) (call : AgentCall) :
    Keeps (Sound c begun) (a.answerCall c call) := by
  have tool (use : ToolUse) :
      Triple (Sound c begun) (a.useTool c use) (fun _ => Sound c begun) (Sound c begun) := by
    cases use with
    | searchKnowledge query limit =>
      exact growing_sound.retrieving fun _ => Retriever.grows_search _ _
    | readEvidence evidenceId startLine lineCount =>
      exact growing_sound.retrieving fun _ => Retriever.grows_readMore _ _ _
    | tableQuery evidenceId column operation tableIndex => exact triple_tableQuery _ _ _ _
    | inspectSourceImage evidenceId question => exact triple_inspectSourceImage same _ _
    | readFile path offset limit => exact triple_readFileTool _ _ _
    | other name arguments => exact growing_sound.outer _
  cases call with
  | tool use =>
    -- A tool that is allowed is counted before it runs and noted after it.
    have bounded : Triple (Sound c begun) (a.boundedTool c use) (fun _ => Sound c begun)
        (Sound c begun) :=
      .ite (fun _ => .throw _ fun _ => id) fun _ => (growing_sound.consume _).bind fun _ =>
        (tool use).bind fun _ => growing_sound.note.bind fun _ => .pure fun _ => id
    exact bounded.keeps
  | model request =>
    have usages (all : List Json) :
        Triple (Sound c begun) (all.forM fun _ => note c) (fun _ => Sound c begun)
          (Sound c begun) := by
      induction all with
      | nil => exact .pure fun _ => id
      | cons usage all ih => exact growing_sound.note.bind fun _ => ih
    have bounded : Triple (Sound c begun) (a.boundedModel c request) (fun _ => Sound c begun)
        (Sound c begun) :=
      (growing_sound.consume _).bind fun _ => growing_sound.note.bind fun _ =>
        (growing_sound.outer _).bind fun response => growing_sound.note.bind fun _ =>
          (usages _).bind fun _ => .pure fun _ => id
    exact bounded.keeps

/-! ### Reviews -/

/-- The property does not look at the counts and at the outside. -/
def Still (P : Turn σ → Prop) : Prop :=
  ∀ t counts outside, P t → P { t with context := { t.context with counts, outside } }

theorem Still.and {Q : Turn σ → Prop} (one : Still P) (other : Still Q) :
    Still fun t => P t ∧ Q t :=
  fun t counts outside both => ⟨one t counts outside both.1, other t counts outside both.2⟩

/-- The context is the same but for the counts and the outside. -/
def Recounted (s t : Context σ) : Prop :=
  ∃ counts outside, t = { s with counts := counts, outside := outside }

theorem framed_recounted (s : Context σ) : Retriever.Framed (Recounted s) := by
  rintro t outside ⟨counts, outside', rfl⟩
  exact ⟨counts, outside, rfl⟩

/-- A step of retrieval that changes the counts and the outside alone. -/
theorem Still.retrieving (still : Still P) {m : Step σ α}
    (recounted : ∀ s, Triple (Recounted s) m (fun _ => Recounted s) (Recounted s)) :
    Triple P (retrieving m) (fun _ => P) P := by
  intro t holds
  -- Wherever the step ends, its context is the old one with other counts and another outside.
  obtain ⟨counts, outside, same⟩ := (recounted t.context).keeps t.context ⟨_, _, rfl⟩
  have kept : P (Assistant.retrieving m t).2 := by
    have changed : (Assistant.retrieving m t).2 =
        { t with context := { t.context with counts, outside } } :=
      congrArg (fun context => { t with context }) same
    exact changed ▸ still t counts outside holds
  exact ⟨fun _ _ => kept, fun _ _ => kept⟩

theorem Still.outer (still : Still P) (m : Program σ Failure α) :
    Triple P (outer m) (fun _ => P) P :=
  still.retrieving fun s => (framed_recounted s).ask m

theorem Still.note (still : Still P) : Triple P (note c) (fun _ => P) P :=
  (still.retrieving fun s => (framed_recounted s).remaining).bind fun _ => .pure fun _ => id

theorem Still.consume (still : Still P) (kind : Kind) :
    Triple P (Assistant.retrieving (c.consume kind)) (fun _ => P) P := by
  refine still.retrieving fun s => ?_
  unfold Retriever.consume
  refine (framed_recounted s).remaining.bind fun _ => Triple.state.bind fun now => ?_
  split
  · exact .pure fun _ => And.right
  · refine .ite (fun _ => .throw _ fun _ => And.right) fun _ => .change ?_
    rintro t ⟨-, counts, outside, rfl⟩
    exact ⟨_, outside, rfl⟩

/-- The answer passes the check. -/
def Valid (a : Assistant σ) (c : Retriever σ) (asked : Asked σ) (answer : AnswerPayload)
    (t : Turn σ) : Prop :=
  validateAnswer a.digest a.shown a.files answer (t.answerContext c) asked.answerFormat = .ok []

theorem still_valid (asked : Asked σ) (answer : AnswerPayload) : Still (Valid a c asked answer) :=
  fun _ _ _ => id

/-- **A review** is of the answer and of what is held when it ends. -/
theorem triple_reviewSupport (asked : Asked σ) (answer : AnswerPayload) :
    Triple (fun t => Sound c begun t ∧ Valid a c asked answer t)
      (a.reviewSupport c asked.question answer)
      (fun report t => (Sound c begun t ∧ Valid a c asked answer t) ∧
        (report.supported → Reviewed c asked.question answer t))
      (Sound c begun) := by
  have still := still_valid (a := a) (c := c) asked answer
  have sound : ∀ t, Sound c begun t ∧ Valid a c asked answer t → Sound c begun t :=
    fun _ => And.left
  refine (((growing_sound.consume _).and (still.consume _)).raised sound).bind fun _ => ?_
  refine ((growing_sound.note.and still.note).raised sound).bind fun _ => ?_
  refine Triple.state.bind fun now => ?_
  -- The evidence and the results are those that the reviewer was shown.
  have stays : Still fun t => Valid a c asked answer t ∧
      t.context.evidence = now.context.evidence ∧ t.calculations = now.calculations :=
    still.and fun _ _ _ => id
  have sound (t : Turn σ) (holds : Sound c begun t ∧ Valid a c asked answer t ∧
    t.context.evidence = now.context.evidence ∧ t.calculations = now.calculations) :
    Sound c begun t := holds.1
  have start (t : Turn σ) (before : now = t ∧ Sound c begun t ∧ Valid a c asked answer t) :
      Sound c begun t ∧ Valid a c asked answer t ∧
        t.context.evidence = now.context.evidence ∧ t.calculations = now.calculations := by
    obtain ⟨rfl, h, valid⟩ := before
    exact ⟨h, valid, rfl, rfl⟩
  refine (((growing_sound.outer _).and (stays.outer _)).mono start (fun _ _ => id) sound).bind
    fun parsed => ?_
  refine ((growing_sound.note.and stays.note).raised sound).bind fun _ => ?_
  split
  · exact .throw _ sound
  next report =>
    refine ((growing_sound.note.and stays.note).raised sound).bind fun _ => ?_
    refine ((growing_sound.note.and stays.note).raised sound).bind fun _ => ?_
    refine Triple.bind (Q := fun _ t => (Sound c begun t ∧ Valid a c asked answer t) ∧
      (report.supported → Reviewed c asked.question answer t)) (.change ?_) fun _ =>
        .pure fun _ => id
    rintro t ⟨h, valid, evidence, calculations⟩
    have held : t.context.held = now.context.held := congrArg (List.map Prod.snd) evidence
    refine ⟨⟨h.beside rfl rfl (List.Subset.refl _), valid⟩, fun supported =>
      ⟨report, ?_, supported⟩⟩
    exact List.mem_append_right _ (by simpa using ⟨held, calculations⟩)

/-- Nothing is wrong with an answer that has passed. -/
theorem triple_errorsOf (asked : Asked σ) (answer : AnswerPayload) :
    Triple (Sound c begun) (a.errorsOf c asked answer)
      (fun errors t => Sound c begun t ∧ (errors = [] → Passed a c asked answer t))
      (Sound c begun) := by
  refine Triple.state.bind fun now => ?_
  refine ((keeps_ofExcept _).raised fun _ => And.right).bind fun errors => ?_
  refine .ite (fun wrong => .pure fun t holds => ⟨holds.2.2, fun none => absurd none wrong⟩)
    fun right => ?_
  obtain rfl := not_not.mp right
  -- The check was made in this state, so its outcome is a fact about the state.
  have start (t : Turn σ) (before : validateAnswer a.digest a.shown a.files answer
      (now.answerContext c) asked.answerFormat = .ok [] ∧ now = t ∧ Sound c begun t) :
      Sound c begun t ∧ Valid a c asked answer t := by
    obtain ⟨valid, rfl, h⟩ := before
    exact ⟨h, valid⟩
  have extra : Triple (fun t => Sound c begun t ∧ Valid a c asked answer t)
      (extraErrors asked answer (now.answerContext c))
      (fun _ t => Sound c begun t ∧ Valid a c asked answer t) (Sound c begun) := by
    unfold extraErrors
    split
    · exact .pure fun _ => id
    · exact ((growing_sound.outer _).and ((still_valid asked answer).outer _)).raised
        fun _ => And.left
  refine (extra.pre start).bind fun errors => ?_
  refine .ite (fun wrong => .pure fun t holds => ⟨holds.1, fun none => absurd none wrong⟩)
    fun _ => ?_
  refine (triple_reviewSupport asked answer).bind fun review => ?_
  refine .ite (fun supported => .pure fun t holds => ?_) fun _ => .ite (fun _ => .pure ?_) ?_
  · exact ⟨holds.1.1, fun _ => ⟨holds.1.2, holds.2 supported⟩⟩
  · exact fun t holds => ⟨holds.1.1, nofun⟩
  · exact fun some => .pure fun t holds => ⟨holds.1.1, fun none => absurd none some⟩

/-- **An answer that is returned** has passed. -/
theorem triple_attempts (same : a.digest = c.digest) (asked : Asked σ) (left : ℕ)
    (messages : List Message) :
    Triple (Sound c begun) (a.attempts c asked left messages)
      (fun answer t => Sound c begun t ∧ Passed a c asked answer t) (Sound c begun) := by
  -- Every attempt starts from what the one before has left, and the law of an answer does not look
  -- back.
  induction left generalizing messages with
  | zero =>
    refine (Strategy.triple_run (keeps_answerCall same) _).bind fun said => ?_
    refine ((keeps_ofExcept _).mono (fun _ => id) (fun _ _ => And.right) fun _ => id).bind
      fun answer => (triple_errorsOf asked answer).bind fun errors => ?_
    refine .ite (fun none => .pure fun t holds => ⟨holds.1, holds.2 none⟩) fun _ => ?_
    exact (growing_sound.note.pre fun _ => And.left).bind fun _ => .throw _ fun _ => id
  | succ left ih =>
    refine (Strategy.triple_run (keeps_answerCall same) _).bind fun said => ?_
    refine ((keeps_ofExcept _).mono (fun _ => id) (fun _ _ => And.right) fun _ => id).bind
      fun answer => (triple_errorsOf asked answer).bind fun errors => ?_
    refine .ite (fun none => .pure fun t holds => ⟨holds.1, holds.2 none⟩) fun _ => ?_
    exact (growing_sound.note.pre fun _ => And.left).bind fun _ => ih _

/-! ### What is written down -/

/-- An answer that has passed cites evidence of the turn. -/
theorem cited_of_passed {asked : Asked σ} {answer : AnswerPayload} {t : Turn σ}
    (same : a.digest = c.digest) (h : Sound c begun t) (passed : Passed a c asked answer t) :
    ∀ ref ∈ answer.citedIds, ∃ e ∈ t.context.held, t.context.evidence.get? ref = some e ∧
      c.digest e.quote = e.contentHash ∧ e.metadata.Applies c.entity c.asOf c.domain ∧
      Sourced c t e ∧ e.Labelled c.digest := by
  obtain ⟨spec, accepted, -⟩ := bind_eq_ok_iff.mp passed.valid
  obtain ⟨fields, sections, wellFormed⟩ := wellFormed_of_skillSpec accepted
  obtain ⟨-, resolves⟩ := valid_of_validateAnswer accepted wellFormed passed.valid
  intro ref cited
  obtain ⟨e, found, hash, applies⟩ := resolves ref cited
  have held : e ∈ t.context.held := List.mem_map_of_mem (Dict.mem_of_get?_eq_some found)
  exact ⟨e, held, found, same ▸ hash, applies, h.sourced e held⟩

/-- A step of the turn leaves the tables as they are. -/
theorem triple_turning {m : TurnStep σ α} {E : Turn σ → Prop} {Q : α → Turn σ → Prop}
    (h : Triple P m Q E) (R : List StoredTurn → Dict String RunRecord → Prop) :
    Triple (fun o => R o.turns o.runs ∧ P o.turn) (turning m)
      (fun x o => R o.turns o.runs ∧ Q x o.turn) (fun o => R o.turns o.runs ∧ E o.turn) := by
  rintro o ⟨tables, before⟩
  obtain ⟨ends, fails⟩ := h o.turn before
  exact ⟨fun x ok => ⟨tables, ends x ok⟩, fun e error => ⟨tables, fails e error⟩⟩

/-- Even where it raises, a step of the turn leaves the turns that are stored as they are. -/
theorem triple_stored {m : TurnStep σ α} {E : Turn σ → Prop} {Q : α → Turn σ → Prop}
    {before : List StoredTurn} (h : Triple P m Q E) :
    Triple (fun o => o.turns = before ∧ P o.turn) (turning m)
      (fun x o => o.turns = before ∧ Q x o.turn) fun o => o.turns = before :=
  (triple_turning h fun turns _ => turns = before).raised fun _ => And.left

/-- The rows that a completed turn adds. -/
def rowsOf (asked : Asked σ) (scope : SessionScope) (markdown : String) : List StoredTurn :=
  (sessionOf asked).toList.map fun session => ⟨session, scope.key, asked.question, markdown⟩

/-- What a turn is told of the turns before it. -/
def earlier (turns : List StoredTurn) (asked : Asked σ) (scope : SessionScope) : List Message :=
  (sessionOf asked).elim [] fun session => messagesOf (recent turns session scope.key)

/-- What is true of a question that is answered, with the rows that were there before it. -/
structure Completes (a : Assistant σ) (asked : Asked σ) (opened : Opening)
    (before : List StoredTurn) (output : Output) (o : Office σ) : Prop where
  given : ∀ day ∈ asked.asOf, opened.asOf = day
  scope : output.scope = scopeOf asked opened.asOf
  answered : Answered a (a.retrieverOf asked opened.asOf opened.manifest) asked output o.turn
  told : o.turn.begun = earlier before asked output.scope ++ [⟨"user", asked.question⟩]
  turns : o.turns = before ++ rowsOf asked output.scope output.markdown
  runId : output.runId = opened.runId
  run : o.runs.get? output.runId = some (.passed output)

theorem Sourced.still {e : Evidence} : Still fun t => Sourced c t e := by
  intro t counts outside h
  exact h.subset (List.Subset.refl _) (List.Subset.refl _)

theorem still_answered (asked : Asked σ) (output : Output) : Still (Answered a c asked output) := by
  intro t counts outside h
  refine ⟨⟨h.passed.valid, h.passed.reviewed⟩, fun ref cited => ?_, h.rendered, h.bytes, h.counts⟩
  obtain ⟨e, held, found, hash, applies, source, labelled⟩ := h.cited ref cited
  exact ⟨e, held, found, hash, applies, Sourced.still t counts outside source, labelled⟩

theorem still_begun (begun : List Message) : Still fun t : Turn σ => t.begun = begun :=
  fun _ _ _ => id

/-- The rows of a turn are added at its end, or nothing is. -/
theorem triple_append (still : Still P) (R : Dict String RunRecord → Prop) (asked : Asked σ)
    (scope : SessionScope) (markdown : String) (before : List StoredTurn) :
    Triple (fun o => (o.turns = before ∧ R o.runs) ∧ P o.turn)
      (a.append (sessionOf asked) scope asked.question markdown)
      (fun _ o => (o.turns = before ++ rowsOf asked scope markdown ∧ R o.runs) ∧ P o.turn)
      fun o => o.turns = before := by
  unfold append rowsOf
  split
  next none => exact .pure fun o holds => by simpa [none] using holds
  next session named =>
    refine .ite (fun _ => .throw _ fun _ holds => holds.1.1) fun _ => ?_
    refine ((triple_turning (still.outer a.insert) fun turns runs => turns = before ∧ R runs).raised
      fun _ holds => holds.1.1).bind fun _ => .change ?_
    intro o holds
    exact ⟨⟨by simp [named, holds.1.1], holds.1.2⟩, holds.2⟩

/-- **An answer is written down** when it has passed, and its turn is told to later ones. -/
theorem triple_complete (same : a.digest = c.digest) (begun : List Message) (asked : Asked σ)
    (runId : String)
    (scope : SessionScope) (messages : List Message) (before : List StoredTurn) :
    Triple (fun o => o.turns = before ∧ Sound c begun o.turn)
      (a.complete c asked runId scope messages)
      (fun output o => (o.turns = before ++ rowsOf asked scope output.markdown ∧
          o.runs.get? runId = some (.passed output)) ∧
        (output.scope = scope ∧ output.runId = runId) ∧ Answered a c asked output o.turn ∧
        o.turn.begun = begun)
      fun o => o.turns = before := by
  refine (triple_stored (triple_attempts same asked _ messages)).bind fun answer => ?_
  refine Triple.state.bind fun now => ?_
  -- The answer is rendered from the turn that it was checked in.
  have render : Triple
      (fun o : Office σ => now = o ∧ o.turns = before ∧ Sound c begun o.turn ∧
        Passed a c asked answer o.turn)
      (Program.ofExcept (renderAnswer a.files answer (now.turn.answerContext c)))
      (fun markdown o => o.turns = before ∧
        Answered a c asked (a.outputOf asked runId scope answer markdown now.turn) o.turn ∧
        o.turn.begun = begun) fun o => o.turns = before := by
    refine .ofExcept (fun markdown rendered o holds => ?_) fun _ holds => holds.2.1
    obtain ⟨rfl, turns, h, passed⟩ := holds
    exact ⟨turns, ⟨passed, cited_of_passed same h passed, rendered, h.bytes, h.counts⟩, h.begun⟩
  refine render.bind fun markdown => ?_
  have fields : (a.outputOf asked runId scope answer markdown now.turn).scope = scope ∧
      (a.outputOf asked runId scope answer markdown now.turn).runId = runId ∧
      (a.outputOf asked runId scope answer markdown now.turn).markdown = markdown := ⟨rfl, rfl, rfl⟩
  generalize a.outputOf asked runId scope answer markdown now.turn = output at fields ⊢
  obtain ⟨rfl, rfl, rfl⟩ := fields
  -- From here on only the records outside the turn change.
  have still := (still_answered (a := a) (c := c) asked output).and (still_begun begun)
  refine (triple_stored (still.outer a.writeRun)).bind fun _ => ?_
  refine Triple.bind (Q := fun _ (o : Office σ) => (o.turns = before ∧
    o.runs.get? output.runId = some (.passed output)) ∧ Answered a c asked output o.turn ∧
      o.turn.begun = begun) (.change fun o holds => ?_) fun _ => ?_
  · exact ⟨⟨holds.1, Dict.get?_set_self⟩, holds.2⟩
  · refine (triple_append still (fun runs => runs.get? output.runId = some (.passed output)) asked
      output.scope output.markdown before).bind fun _ => .pure fun o holds => ?_
    exact ⟨holds.1, ⟨rfl, rfl⟩, holds.2⟩

/-! ### Questions -/

theorem keeps_outdoors {before : List StoredTurn} (m : Program σ Failure α) :
    Triple (fun o : Office σ => o.turns = before) (outdoors m) (fun _ o => o.turns = before)
      fun o => o.turns = before := by
  have still : Still fun _ : Turn σ => True := fun _ _ _ => id
  exact (triple_stored (still.outer m)).mono (fun _ h => ⟨h, trivial⟩) (fun _ _ => And.left)
    fun _ => id

theorem triple_history {before : List StoredTurn} (asked : Asked σ) (scope : SessionScope) :
    Triple (fun o : Office σ => o.turns = before) (a.history (sessionOf asked) scope)
      (fun messages o => messages = earlier before asked scope ∧ o.turns = before)
      fun o => o.turns = before := by
  unfold history earlier
  split
  next none => exact .pure fun o turns => ⟨by simp [none], turns⟩
  next session named =>
    refine .ite (fun _ => .throw _ fun _ => id) fun _ => (keeps_outdoors _).bind fun _ => ?_
    refine Triple.state.bind fun now => .pure ?_
    rintro o ⟨rfl, rfl⟩
    exact ⟨by simp [named], rfl⟩

theorem triple_dayOf {before : List StoredTurn} (asked : Asked σ) :
    Triple (fun o : Office σ => o.turns = before) (a.dayOf asked)
      (fun asOf o => (∀ day ∈ asked.asOf, asOf = day) ∧ o.turns = before)
      fun o => o.turns = before := by
  unfold dayOf
  split
  next day given => exact .pure fun o turns => ⟨fun other same => by simp_all, turns⟩
  next none =>
    exact (keeps_outdoors _).mono (fun _ => id) (fun _ _ turns => ⟨by simp [none], turns⟩)
      fun _ => id

theorem sound_fresh {σ : Type} (c : Retriever σ) (begun : List Message) (outside : σ) :
    Sound c begun { Turn.fresh outside with begun } where
  begun := rfl
  sourced _ held := by cases held
  bytes some := absurd rfl some
  counts _ _ _ := Nat.zero_le _

/-- What is at hand when a turn begins: the day that was asked for, and what the turns before
leave. -/
theorem triple_opening (asked : Asked σ) (before : List StoredTurn) :
    Triple (fun o => o.turns = before) (a.opening asked)
      (fun opened o => ((∀ day ∈ asked.asOf, opened.asOf = day) ∧
        opened.earlier = earlier before asked (scopeOf asked opened.asOf)) ∧ o.turns = before)
      fun o => o.turns = before := by
  refine .ite (fun _ => .throw _ fun _ => id) fun _ => (triple_dayOf asked).bind fun asOf => ?_
  refine .of_forall fun given => (keeps_outdoors _).bind fun _ => ?_
  refine (triple_history asked (scopeOf asked asOf)).bind fun told => .of_forall fun same => ?_
  refine (keeps_outdoors _).bind fun runId => (keeps_outdoors _).bind fun _ => ?_
  exact (keeps_outdoors _).bind fun manifest => .pure fun o turns => ⟨⟨given, same⟩, turns⟩

/-- **A question** is answered as its turn and the turns before it allow, or it leaves the turns as
they were. -/
theorem triple_turnOf (asked : Asked σ) (before : List StoredTurn) {opened : Opening}
    (given : ∀ day ∈ asked.asOf, opened.asOf = day)
    (same : opened.earlier = earlier before asked (scopeOf asked opened.asOf)) :
    Triple (fun o => o.turns = before) (a.turnOf asked opened)
      (fun output o => Completes a asked opened before output o)
      fun o => o.turns = before := by
  let c := a.retrieverOf asked opened.asOf opened.manifest
  let messages := opened.earlier ++ [⟨"user", asked.question⟩]
  refine Triple.bind (Q := fun _ (o : Office σ) => o.turns = before ∧ Sound c messages o.turn)
    (.change fun o turns => ⟨turns, sound_fresh c messages _⟩) fun _ => ?_
  refine (triple_stored (growing_sound.outer _)).bind fun _ => ?_
  refine ((triple_complete (a := a) (c := c) rfl messages asked opened.runId _ _ before).mono
    (fun _ => id) (fun output o holds => ?_) fun _ => id).tryCatch fun e => ?_
  · obtain ⟨⟨turns, run⟩, ⟨scope, id⟩, answered, begun⟩ := holds
    refine ⟨given, scope, answered, ?_, scope ▸ turns, id, id ▸ run⟩
    rw [begun, scope, ← same]
  · refine (keeps_outdoors _).bind fun _ => ?_
    refine Triple.bind (Q := fun _ (o : Office σ) => o.turns = before) (.change fun o => id)
      fun _ => .throw _ fun _ => id

/-- The same from the start of the question, with what its turn has begun with. -/
theorem ask_cases (asked : Asked σ) (o : Office σ) :
    (∀ output, (a.ask asked o).1 = .ok output → ∃ opened, (a.opening asked o).1 = .ok opened ∧
      Completes a asked opened o.turns output (a.ask asked o).2) ∧
      ∀ e, (a.ask asked o).1 = .error e → (a.ask asked o).2.turns = o.turns := by
  obtain ⟨opens, fails⟩ := triple_opening (a := a) asked o.turns o rfl
  unfold ask
  rcases ran : a.opening asked o with ⟨e | opened, o'⟩
  · rw [run_bind_error ran]
    rw [ran] at fails
    exact ⟨nofun, fun _ _ => fails e rfl⟩
  · rw [run_bind ran]
    rw [ran] at opens
    obtain ⟨⟨given, same⟩, turns⟩ := opens opened rfl
    obtain ⟨ends, fails⟩ := triple_turnOf (a := a) asked o.turns given same o' turns
    exact ⟨fun output ok => ⟨opened, rfl, ends output ok⟩, fails⟩

/-! ### Conversations -/

/-- A scope is known by its key. -/
theorem key_injective {s t : SessionScope} (same : s.key = t.key) : s = t := by
  have read (s : SessionScope) : Json.loads s.key = some (.obj
      [("as_of", .str s.asOf), ("entity", .str s.entity), ("namespace", .str s.namespace_)]) :=
    Json.loads_dumps (by simp [Json.isPlain, Json.fieldsArePlain])
  have equal := (read s).symm.trans ((congrArg _ same).trans (read t))
  simp only [Option.some_inj, Json.obj.injEq, List.cons.injEq, Prod.mk.injEq, Json.str.injEq,
    true_and, and_true] at equal
  cases s
  cases t
  simp_all

variable (a) in
/-- The questions that were answered, with their answers. -/
def completed (o : Office σ) : List (Asked σ) → List (Asked σ × Output)
  | [] => []
  | asked :: rest =>
    ((a.ask asked o).1.toOption.map fun output => (asked, output)).toList ++
      completed (a.ask asked o).2 rest

variable (a) in
/-- The office after the first questions. -/
def after (o : Office σ) (questions : List (Asked σ)) (n : ℕ) : Office σ :=
  stateAt (fun o asked => (a.ask asked o).2) o questions n

/-- The rows of the turns that were completed. -/
def storedOf (done : List (Asked σ × Output)) : List StoredTurn :=
  done.flatMap fun turn => rowsOf turn.1 turn.2.scope turn.2.markdown

/-- What is told of turns that were completed: the last four of the same session and scope. -/
def told (done : List (Asked σ × Output)) (asked : Asked σ) (scope : SessionScope) : List Message :=
  (sessionOf asked).elim [] fun session =>
    ((done.filter fun turn => sessionOf turn.1 = some session ∧ turn.2.scope = scope).reverse.take
      4).reverse.flatMap fun turn =>
        [⟨"user", turn.1.question⟩, ⟨"assistant", turn.2.markdown⟩]

theorem filter_storedOf (done : List (Asked σ × Output)) (session : String) (scope : SessionScope) :
    ((storedOf done).filter fun row => row.session = session ∧ row.scope = scope.key) =
      (done.filter fun turn => sessionOf turn.1 = some session ∧ turn.2.scope = scope).map
        fun turn => ⟨session, scope.key, turn.1.question, turn.2.markdown⟩ := by
  induction done with
  | nil => rfl
  | cons turn done ih =>
    have keys : turn.2.scope.key = scope.key ↔ turn.2.scope = scope :=
      ⟨key_injective, congrArg _⟩
    rw [storedOf, List.flatMap_cons, List.filter_append, ← storedOf, ih, List.filter_cons]
    cases named : sessionOf turn.1 with
    | none => simp [rowsOf, named]
    | some other =>
      by_cases same : other = session ∧ turn.2.scope = scope
      · obtain ⟨rfl, rfl⟩ := same
        simp [rowsOf, named]
      · simp [rowsOf, named, keys, same]

theorem earlier_storedOf (done : List (Asked σ × Output)) (asked : Asked σ) (scope : SessionScope) :
    earlier (storedOf done) asked scope = told done asked scope := by
  unfold earlier told
  cases sessionOf asked with
  | none => rfl
  | some session =>
    simp only [Option.elim_some, messagesOf, recent]
    rw [filter_storedOf, ← List.map_reverse, ← List.map_take, ← List.map_reverse, List.flatMap_map]

theorem completed_concat (o : Office σ) (questions : List (Asked σ)) (asked : Asked σ) :
    a.completed o (questions ++ [asked]) = a.completed o questions ++
      ((a.ask asked (a.run o questions)).1.toOption.map fun output => (asked, output)).toList := by
  induction questions generalizing o with
  | nil => simp [completed, run]
  | cons first questions ih =>
    rw [List.cons_append, completed, completed, ih, List.append_assoc]
    rfl

/-- What is true of every conversation. -/
structure ConversationLaw (a : Assistant σ) (o : Office σ) (questions : List (Asked σ)) :
    Prop where
  turns : ∀ n ≤ questions.length,
    (a.after o questions n).turns = storedOf (a.completed o (questions.take n))
  answers : ∀ n asked output, questions[n]? = some asked →
    (a.ask asked (a.after o questions n)).1 = .ok output → ∃ opened,
      (a.opening asked (a.after o questions n)).1 = .ok opened ∧
      (∀ day ∈ asked.asOf, opened.asOf = day) ∧ output.scope = scopeOf asked opened.asOf ∧
      Answered a (a.retrieverOf asked opened.asOf opened.manifest) asked output
        (a.after o questions (n + 1)).turn ∧
      (a.after o questions (n + 1)).turn.begun =
        told (a.completed o (questions.take n)) asked output.scope ++ [⟨"user", asked.question⟩] ∧
      (a.after o questions (n + 1)).runs.get? output.runId = some (.passed output)

theorem turns_after {o : Office σ} (empty : o.turns = []) (questions : List (Asked σ)) {n : ℕ}
    (inside : n ≤ questions.length) :
    (a.after o questions n).turns = storedOf (a.completed o (questions.take n)) := by
  induction n with
  | zero => exact empty
  | succ n ih =>
    have here : questions[n]? = some questions[n] := List.getElem?_eq_getElem inside
    have next : a.after o questions (n + 1) = (a.ask questions[n] (a.after o questions n)).2 :=
      stateAt_succ here
    have state : a.run o (questions.take n) = a.after o questions n := rfl
    obtain ⟨ends, fails⟩ := ask_cases (a := a) questions[n] (a.after o questions n)
    have before := ih (Nat.le_of_succ_le inside)
    rw [next, List.take_add_one, here, Option.toList_some, completed_concat, state]
    cases result : (a.ask questions[n] (a.after o questions n)).1 with
    | error e =>
      rw [fails e result, before, storedOf, storedOf, List.flatMap_append]
      simp [Except.toOption]
    | ok output =>
      obtain ⟨opened, -, completes⟩ := ends output result
      rw [completes.turns, before, storedOf, storedOf, List.flatMap_append]
      simp [Except.toOption]

/-- **A conversation.** After any questions, each of which may have failed anywhere, the turns that
are kept are those that were answered. An answer has passed the check and the review, its citations
are grounded, and its turn was told the last four turns of its own session, customer, date and
documents, and nothing of any other. -/
theorem conversation_run (a : Assistant σ) (outside : σ) (questions : List (Asked σ)) :
    ConversationLaw a (.fresh outside) questions where
  turns n inside := turns_after rfl questions inside
  answers n asked output here result := by
    have inside : n ≤ questions.length := (List.getElem?_eq_some_iff.mp here).1.le
    have next : a.after (.fresh outside) questions (n + 1) =
        (a.ask asked (a.after (.fresh outside) questions n)).2 := stateAt_succ here
    obtain ⟨opened, opens, completes⟩ :=
      (ask_cases (a := a) asked (a.after (.fresh outside) questions n)).1 output result
    refine ⟨opened, opens, completes.given, completes.scope, next ▸ completes.answered, ?_,
      next ▸ completes.run⟩
    rw [next, completes.told, turns_after rfl questions inside, earlier_storedOf]

end Assistant

end AgentLabs.Retrieval
