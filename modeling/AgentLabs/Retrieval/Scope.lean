import AgentLabs.Math.Run
import AgentLabs.Retrieval.Context

/-!
# What a turn may hold and spend

Whatever the server answers and whatever the model asks for, the evidence of a turn is from
documents of the manifest that apply to the customer, the date and the domain of the caller, and
each quote is some lines of the snapshot whose hash the manifest has. The evidence never grows
beyond the bytes of the budget, and no more searches and reads are made than it allows.

All of this holds in between as well, so a call that raises leaves it as it is.

## Main definitions

* `Retriever.Grounded`: where a piece of evidence is from
* `Retriever.Lawful`: what holds of a turn
* `Retriever.Inv`: the invariant of the steps

## Main results

* `Retriever.triple_read`: reading keeps the invariant
* `Retriever.lawful_run`: the law of a turn
-/

namespace AgentLabs.Retrieval

open Math Text Program

/-- A request to search. -/
def Request.isFind : Request → Bool
  | .find .. => true
  | _ => false

/-- A request to read. -/
def Request.isRead : Request → Bool
  | .read .. => true
  | _ => false

namespace Context

variable {σ : Type} (s : Context σ)

/-- The searches that were sent. -/
def finds : ℕ := s.sent.countP Request.isFind

/-- The reads that were sent. -/
def reads : ℕ := s.sent.countP Request.isRead

end Context

namespace Retriever

variable {σ α β : Type} (c : Retriever σ)

/-- The evidence is from a document of the manifest that applies, and its quote is the lines
`startLine` to `endLine` of a text with the hash of the manifest that was read from the snapshot
of the document. -/
def Grounded (snapshots : List (String × String)) (e : Evidence) : Prop :=
  ∃ document text, c.manifest.documents.get? e.uri = some document ∧
    document.metadata.Applies c.entity c.asOf c.domain ∧ e.metadata = document.metadata ∧
    (document.snapshot, text) ∈ snapshots ∧ c.digest text = document.remoteHash ∧
    e.endLine ≤ (splitLines text.toList).length ∧
    e.quote = String.ofList
      (lineRange text.toList (e.startLine - 1) (e.endLine - (e.startLine - 1)))

/-- What holds of a turn. Even no evidence at all is written with two brackets, so the bytes are
those of the items, and with the brackets when there are items. -/
structure Lawful (s : Context σ) : Prop where
  grounded : ∀ e ∈ s.held, c.Grounded s.snapshots e
  bytes : itemBytes s.held ≤ c.budget.maxContextBytes ∧
    (s.held ≠ [] → evidenceBytes s.held ≤ c.budget.maxContextBytes)
  searches : s.count .search ≤ c.budget.maxSearches ∧ s.searchCount ≤ c.budget.maxSearches ∧
    s.finds ≤ c.budget.maxSearches
  reads : s.count .read ≤ c.budget.maxReads ∧ s.reads ≤ c.budget.maxReads

/-- What every step keeps. A request is counted before it is sent. -/
structure Inv (s : Context σ) : Prop where
  grounded : ∀ e ∈ s.held, c.Grounded s.snapshots e
  bytes : s.held ≠ [] → evidenceBytes s.held ≤ c.budget.maxContextBytes
  counts : ∀ kind limit, c.budget.limit? kind = some limit → s.count kind ≤ limit
  finds : s.finds ≤ s.count .search
  searches : s.searchCount ≤ s.finds
  reads : s.reads ≤ s.count .read

theorem Inv.lawful {s : Context σ} (h : c.Inv s) : c.Lawful s where
  grounded := h.grounded
  bytes := by
    refine ⟨?_, h.bytes⟩
    by_cases none : s.held = []
    · rw [none]
      exact Nat.zero_le _
    · exact (itemBytes_le _).trans (h.bytes none)
  searches :=
    have most := h.counts .search _ rfl
    ⟨most, (h.searches.trans h.finds).trans most, h.finds.trans most⟩
  reads :=
    have most := h.counts .read _ rfl
    ⟨most, h.reads.trans most⟩

/-! ### Steps that leave the turn as it is -/

/-- The property does not depend on the outside. -/
def Framed (P : Context σ → Prop) : Prop := ∀ s outside, P s → P { s with outside }

variable {c} {P : Context σ → Prop}

theorem framed_inv : Framed c.Inv := fun _ _ h =>
  ⟨h.grounded, h.bytes, h.counts, h.finds, h.searches, h.reads⟩

theorem Framed.ask (framed : Framed P) (m : Program σ Failure α) :
    Triple P (ask m) (fun _ => P) P := Triple.within framed

theorem Framed.remaining (framed : Framed P) : Triple P c.remaining (fun _ => P) P :=
  (framed.ask _).bind fun _ =>
    .ite (fun _ => .throw _ fun _ => id) fun _ => .pure fun _ => id

theorem Framed.beforeHttp (framed : Framed P) : Triple P c.beforeHttp (fun _ => P) P :=
  framed.remaining.bind fun _ => framed.ask _

theorem keeps_accessed (x : Except AccessError α) : Triple P (accessed x) (fun _ => P) P :=
  .ofExcept (fun _ _ _ => id) fun _ => id

/-! ### Counting -/

/-- After counting, one request of the kind may be sent. -/
def Room (kind : Kind) (s : Context σ) : Prop :=
  (kind = .search → s.finds < s.count .search) ∧ (kind = .read → s.reads < s.count .read)

theorem count_set (s : Context σ) (kind other : Kind) (n : ℕ) :
    ({ s with counts := s.counts.set kind n } : Context σ).count other =
      if kind = other then n else s.count other := by
  rw [Context.count, Dict.get?_set]
  split_ifs
  · rfl
  · rfl

theorem triple_consume (kind : Kind) :
    Triple c.Inv (c.consume kind) (fun _ s => c.Inv s ∧ Room kind s) c.Inv := by
  unfold consume
  refine framed_inv.remaining.bind fun _ => Triple.state.bind fun now => ?_
  cases limited : c.budget.limit? kind with
  | none =>
    refine .pure fun s before => ⟨before.2, ?_, ?_⟩
    · rintro rfl
      cases limited
    · rintro rfl
      cases limited
  | some limit =>
    refine .ite (fun _ => .throw _ fun _ before => before.2) fun left => .change fun s before => ?_
    obtain ⟨rfl, h⟩ := before
    -- The call is counted before it is made, so no count falls and this one stays within its
    -- limit.
    have more (other : Kind) := count_set now kind other (now.count kind + 1)
    have grows (other : Kind) : now.count other ≤
        ({ now with counts := now.counts.set kind (now.count kind + 1) } : Context σ).count
        other := by
      rw [more]
      split_ifs with same
      · exact same ▸ Nat.le_succ _
      · exact le_rfl
    refine ⟨⟨h.grounded, h.bytes, fun other limit' limited' => ?_, h.finds.trans (grows _),
      h.searches, h.reads.trans (grows _)⟩, ?_, ?_⟩
    · rw [more]
      split_ifs with same
      · subst same
        rw [limited, Option.some_inj] at limited'
        omega
      · exact h.counts other limit' limited'
    · rintro rfl
      rw [more, if_pos rfl]
      exact Nat.lt_succ_of_le h.finds
    · rintro rfl
      rw [more, if_pos rfl]
      exact Nat.lt_succ_of_le h.reads

theorem triple_beforeHttp (kind : Kind) :
    Triple (fun s => c.Inv s ∧ Room kind s) c.beforeHttp (fun _ s => c.Inv s ∧ Room kind s)
      c.Inv := by
  have framed : Framed fun s : Context σ => c.Inv s ∧ Room kind s := fun s outside before =>
    ⟨framed_inv s outside before.1, before.2⟩
  exact framed.beforeHttp.raised fun _ => And.left

/-! ### Requests -/

/-- A search has been sent that is not yet counted as made. -/
def Searched (s : Context σ) : Prop := s.searchCount < s.finds

theorem framed_searched : Framed fun s : Context σ => c.Inv s ∧ Searched s :=
  fun s outside before => ⟨framed_inv s outside before.1, before.2⟩

theorem triple_find (query : String) (limit : ℤ) :
    Triple (fun s => c.Inv s ∧ Room .search s) (c.find query limit)
      (fun _ s => c.Inv s ∧ Searched s) c.Inv := by
  have sent : Triple (fun s => c.Inv s ∧ Room .search s)
      (c.send (.find query c.manifest.targetUri limit)) (fun _ s => c.Inv s ∧ Searched s)
      fun s => c.Inv s ∧ Searched s := by
    refine (Triple.change fun s before => ?_).bind fun _ => framed_searched.ask _
    obtain ⟨h, room, -⟩ := before
    -- The request is counted when it is sent, also if no answer comes.
    have more : (s.sent ++ [Request.find query c.manifest.targetUri limit]).countP Request.isFind =
        s.finds + 1 := by
      simp [Context.finds, Request.isFind]
    have same : (s.sent ++ [Request.find query c.manifest.targetUri limit]).countP Request.isRead =
        s.reads := by
      simp [Context.reads, Request.isRead]
    refine ⟨⟨h.grounded, h.bytes, h.counts, ?_, ?_, ?_⟩, ?_⟩
    · rw [Context.finds, more]
      exact room rfl
    · rw [Context.finds, more]
      exact Nat.le_succ_of_le h.searches
    · rw [Context.reads, same]
      exact h.reads
    · rw [Searched, Context.finds, more]
      exact Nat.lt_succ_of_le h.searches
  exact (sent.bind fun _ => keeps_accessed _).raised fun _ => And.left

theorem triple_grep (pattern uri : String) (limit : ℕ) :
    Triple c.Inv (c.grep pattern uri limit) (fun _ => c.Inv) c.Inv := by
  have sent : Triple c.Inv (c.send (.grep pattern uri limit)) (fun _ => c.Inv) c.Inv := by
    refine (Triple.change fun s h => ?_).bind fun _ => framed_inv.ask _
    have finds : (s.sent ++ [Request.grep pattern uri limit]).countP Request.isFind = s.finds := by
      simp [Context.finds, Request.isFind]
    have reads : (s.sent ++ [Request.grep pattern uri limit]).countP Request.isRead = s.reads := by
      simp [Context.reads, Request.isRead]
    exact ⟨h.grounded, h.bytes, h.counts, finds.trans_le h.finds, h.searches.trans finds.ge,
      reads.trans_le h.reads⟩
  refine sent.bind fun result => ?_
  split
  · exact .pure fun _ => id
  · exact .pure fun _ => id

theorem triple_readContent (uri : String) (offset limit : ℕ) :
    Triple (fun s => c.Inv s ∧ Room .read s) (c.readContent uri offset limit) (fun _ => c.Inv)
      c.Inv := by
  have sent : Triple (fun s => c.Inv s ∧ Room .read s) (c.send (.read uri offset limit))
      (fun _ => c.Inv) c.Inv := by
    refine (Triple.change fun s before => ?_).bind fun _ => framed_inv.ask _
    obtain ⟨h, -, room⟩ := before
    have finds : (s.sent ++ [Request.read uri offset limit]).countP Request.isFind = s.finds := by
      simp [Context.finds, Request.isFind]
    have reads : (s.sent ++ [Request.read uri offset limit]).countP Request.isRead =
        s.reads + 1 := by
      simp [Context.reads, Request.isRead]
    refine ⟨h.grounded, h.bytes, h.counts, finds.trans_le h.finds, h.searches.trans finds.ge, ?_⟩
    rw [Context.reads, reads]
    exact room rfl
  refine sent.bind fun result => ?_
  split
  · exact .pure fun _ => id
  · exact keeps_accessed _

/-! ### Reading -/

theorem metadata_eq_some {uri : String} {metadata : Metadata} (h : c.metadata uri = some metadata) :
    ∃ document, c.manifest.documents.get? uri = some document ∧ document.metadata = metadata ∧
      document.metadata.Applies c.entity c.asOf c.domain := by
  obtain ⟨document, found, applies⟩ := Option.bind_eq_some_iff.mp h
  rw [Option.ite_none_right_eq_some, Option.some_inj] at applies
  exact ⟨document, found, applies.2, applies.1⟩

theorem Grounded.more {snapshots more : List (String × String)} {e : Evidence}
    (h : c.Grounded snapshots e) : c.Grounded (snapshots ++ more) e := by
  obtain ⟨document, text, found, applies, same, read, rest⟩ := h
  exact ⟨document, text, found, applies, same, List.mem_append_left more read, rest⟩

theorem triple_readSnapshot (path : String) :
    Triple c.Inv (c.readSnapshot path)
      (fun text s => c.Inv s ∧ (path, text) ∈ s.snapshots) c.Inv := by
  refine (framed_inv.ask _).bind fun text => ?_
  have noted : Triple c.Inv
      (change fun s => { s with snapshots := s.snapshots ++ [(path, text)] } : Step σ Unit)
      (fun _ s => c.Inv s ∧ (path, text) ∈ s.snapshots) c.Inv := by
    refine .change fun s h => ⟨⟨fun e held => (h.grounded e held).more, h.bytes, h.counts, h.finds,
      h.searches, h.reads⟩, ?_⟩
    exact List.mem_append_right _ (.head _)
  exact noted.bind fun _ => .pure fun _ => id

/-- The text is some lines of what was read from the snapshot of the document. -/
def Verified (c : Retriever σ) (document : Document) (raw : String) (offset limit : ℕ)
    (s : Context σ) : Prop :=
  ∃ text, (document.snapshot, text) ∈ s.snapshots ∧ c.digest text = document.remoteHash ∧
    raw = String.ofList (lineRange text.toList offset limit)

theorem triple_checkSnapshot (document : Document) (raw : String) (offset limit : ℕ) :
    Triple c.Inv (c.checkSnapshot document raw offset limit)
      (fun _ s => c.Inv s ∧ Verified c document raw offset limit s) c.Inv := by
  refine .ite (fun missing => absurd missing document.kept) fun _ => ?_
  refine (triple_readSnapshot _).bind fun text => ?_
  refine .ite (fun _ => .throw _ fun _ => And.left) fun sameHash => ?_
  refine .ite (fun _ => .throw _ fun _ => And.left) fun sameText => ?_
  exact .pure fun s before =>
    ⟨before.1, text, before.2, not_not.mp sameHash, not_not.mp sameText⟩

/-- What is verified is evidence that is grounded. -/
theorem grounded_of_verified {document : Document} {uri raw : String} {offset limit : ℕ}
    {s : Context σ} {item : Evidence} (found : c.manifest.documents.get? uri = some document)
    (applies : document.metadata.Applies c.entity c.asOf c.domain)
    (verified : Verified c document raw offset limit s)
    (made : evidenceFromText c.digest uri raw document.metadata offset = .ok item) :
    c.Grounded s.snapshots item := by
  obtain ⟨text, read, hash, rfl⟩ := verified
  unfold evidenceFromText at made
  dsimp only at made
  split_ifs at made with valid
  obtain rfl := Except.ok.inj made
  refine ⟨document, text, found, applies, rfl, read, hash, ?_, ?_⟩
  · have within : (splitLines (lineRange text.toList offset limit)).length ≤
        (splitLines text.toList).length - offset := by
      rw [splitLines_lineRange, List.length_take, List.length_drop]
      exact Nat.min_le_right _ _
    simp only [String.toList_ofList] at valid ⊢
    omega
  · simp only [Nat.add_sub_cancel, Nat.add_sub_cancel_left, String.toList_ofList, lineRange_length]

theorem triple_hold (item : Evidence) :
    Triple (fun s => c.Inv s ∧ c.Grounded s.snapshots item) (c.hold item)
      (fun _ => c.Inv) c.Inv := by
  refine Triple.state.bind fun now => ?_
  refine .ite (fun _ => .pure fun _ before => before.2.1) fun fresh => ?_
  refine .ite (fun _ => ?_) fun fits => ?_
  · exact ((triple_consume _).pre fun _ before => before.2.1).bind fun _ => .pure fun _ => And.left
  · have held : Triple (fun s => now = s ∧ c.Inv s ∧ c.Grounded s.snapshots item)
        (change fun s => { s with evidence := s.evidence.set item.evidenceId item } : Step σ Unit)
        (fun _ => c.Inv) c.Inv := by
      refine .change fun s before => ?_
      obtain ⟨rfl, h, grounded⟩ := before
      -- The item is new, so it comes behind those that are held.
      have more : (now.evidence.set item.evidenceId item).map Prod.snd = now.held ++ [item] := by
        rw [Dict.set_of_notMem fresh, List.map_append, Context.held]
        rfl
      refine ⟨fun e listed => ?_, fun _ => ?_, h.counts, h.finds, h.searches, h.reads⟩
      · rw [Context.held, more] at listed
        rcases List.mem_append.mp listed with old | new
        · exact h.grounded e old
        · rwa [List.mem_singleton.mp new]
      · rw [Context.held, more]
        exact Nat.le_of_not_lt fits
    exact held.bind fun _ => .pure fun _ => id

/-- **Reading** keeps the invariant. -/
theorem triple_read (uri : String) (offset limit : ℕ) :
    Triple c.Inv (c.read uri offset limit) (fun _ => c.Inv) c.Inv := by
  unfold read
  cases applicable : c.metadata uri with
  | none => exact .throw _ fun _ => id
  | some metadata =>
    obtain ⟨document, found, rfl, applies⟩ := metadata_eq_some applicable
    refine (triple_consume .read).bind fun _ => (triple_beforeHttp .read).bind fun _ => ?_
    refine (triple_readContent uri offset limit).bind fun raw =>
      framed_inv.remaining.bind fun _ => ?_
    rw [found]
    cases raw with
    | str raw =>
      refine .ite (fun _ => .pure fun _ => id) fun _ => ?_
      refine (triple_checkSnapshot document raw offset limit).bind fun _ => ?_
      -- From here on the state is known to hold the snapshot that the text was verified against.
      have whole : Triple (fun s => c.Inv s ∧ Verified c document raw offset limit s)
          (c.checkWhole document raw offset limit)
          (fun _ s => c.Inv s ∧ Verified c document raw offset limit s) c.Inv :=
        .ite (fun _ => .throw _ fun _ => And.left) fun _ => .pure fun _ => id
      refine whole.bind fun _ => ?_
      have item : Triple (fun s => c.Inv s ∧ Verified c document raw offset limit s)
          (Program.ofExcept (evidenceFromText c.digest uri raw document.metadata offset))
          (fun item s => c.Inv s ∧ c.Grounded s.snapshots item) c.Inv :=
        .ofExcept (fun item made s before =>
          ⟨before.1, grounded_of_verified found applies before.2 made⟩) fun _ => And.left
      exact item.bind fun item => triple_hold item
    -- Any answer but a text raises.
    | _ => exact .throw _ fun _ => id

/-! ### Calls -/

theorem triple_reorder (candidates : List String) :
    Triple c.Inv (c.reorder candidates) (fun _ => c.Inv) c.Inv := by
  unfold reorder
  cases c.candidatePolicy with
  | none => exact .pure fun _ => id
  | some policy =>
    exact (framed_inv.ask _).bind fun _ =>
      .ite (fun _ => .pure fun _ => id) fun _ => .throw _ fun _ => id

theorem triple_anchor (query uri : String) (lineCount : ℕ) :
    Triple c.Inv (c.anchor query uri lineCount) (fun _ => c.Inv) c.Inv := by
  refine .ite (fun _ => .pure fun _ => id) fun _ => framed_inv.beforeHttp.bind fun _ => ?_
  refine .ite (fun _ => .pure fun _ => id) fun _ => (triple_grep _ _ _).bind fun anchors => ?_
  refine .ite (fun _ => ?_) fun _ => .pure fun _ => id
  refine (keeps_accessed _).bind fun first => (keeps_accessed _).bind fun line => ?_
  cases line.toInt? with
  | none => exact .throw _ fun _ => id
  | some line => exact .pure fun _ => id

theorem triple_readCandidates (query : String) (candidates : List String) :
    Triple c.Inv (c.readCandidates query candidates) (fun _ => c.Inv) c.Inv := by
  induction candidates with
  | nil => exact .pure fun _ => id
  | cons uri rest ih =>
    refine (keeps_accessed _).bind fun document => (triple_anchor _ _ _).bind fun offset => ?_
    exact (triple_read _ _ _).bind fun item => ih.bind fun selected => .pure fun _ => id

theorem triple_search (query : String) (limit : ℤ) :
    Triple c.Inv (c.search query limit) (fun _ => c.Inv) c.Inv := by
  refine .ite (fun _ => .throw _ fun _ => id) fun _ => (triple_consume .search).bind fun _ => ?_
  refine (triple_beforeHttp .search).bind fun _ => (triple_find _ _).bind fun hits => ?_
  -- The search that was sent is now counted as made.
  have made : Triple (fun s => c.Inv s ∧ Searched s)
      (change fun s => { s with searchCount := s.searchCount + 1 } : Step σ Unit) (fun _ => c.Inv)
      c.Inv :=
    .change fun s before => ⟨before.1.grounded, before.1.bytes, before.1.counts, before.1.finds,
      before.2, before.1.reads⟩
  refine made.bind fun _ => framed_inv.remaining.bind fun _ =>
    (keeps_accessed _).bind fun found => ?_
  refine (triple_reorder found).bind fun candidates =>
    (triple_readCandidates _ _).bind fun selected => ?_
  exact Triple.state.bind fun now => .pure fun _ => And.right

theorem triple_readMore (evidenceId : String) (startLine lineCount : ℤ) :
    Triple c.Inv (c.readMore evidenceId startLine lineCount) (fun _ => c.Inv) c.Inv := by
  have asked : Triple c.Inv (Program.state : Step σ (Context σ)) (fun _ => c.Inv) c.Inv :=
    Triple.state.mono (fun _ => id) (fun _ _ => And.right) fun _ => id
  refine asked.bind fun now => ?_
  cases now.evidence.get? evidenceId with
  | none => exact .throw _ fun _ => id
  | some evidence =>
    exact .ite (fun _ => .throw _ fun _ => id) fun _ =>
      (triple_read _ _ _).bind fun item => .pure fun _ => id

/-- Every call keeps the invariant, whatever it ends in. -/
theorem keeps_call (asked : ToolCall) : Keeps c.Inv (c.call asked) := by
  cases asked with
  | search query limit => exact (triple_search query limit).keeps
  | readMore evidenceId startLine lineCount =>
    exact (triple_readMore evidenceId startLine lineCount).keeps

theorem inv_start (outside : σ) : c.Inv { outside } where
  grounded _ held := by cases held
  bytes some := absurd rfl some
  counts _ _ _ := Nat.zero_le _
  finds := Nat.zero_le _
  searches := Nat.zero_le _
  reads := Nat.zero_le _

/-- **The law of a turn.** After any calls of the tools, whatever the server answered, what is
held is within the scope and what was spent is within the budget. -/
theorem lawful_run (c : Retriever σ) (outside : σ) (calls : List ToolCall) :
    c.Lawful (c.run outside calls) :=
  (foldl_invariant (fun s asked h => keeps_call asked s h) calls (inv_start outside)).lawful

end Retriever

end AgentLabs.Retrieval
