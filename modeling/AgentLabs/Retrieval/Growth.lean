import AgentLabs.Retrieval.Scope

/-!
# What a call adds to a turn

A call of the tools adds evidence to a turn and counts what it spends, and this is all that it does:
what was held is held afterwards under the same id, and what is new is grounded in a snapshot that
was read, has its labels from the metadata of its document, and left the evidence within the bytes
of the budget. So a call can be made between other things that add evidence of another kind.

## Main definitions

* `Evidence.Labelled`: the labels of a piece of evidence are those of its metadata
* `Retriever.Grows`: what a call adds

## Main results

* `Retriever.grows_call`: every call only adds
-/

namespace AgentLabs.Retrieval

open Math Text Program

/-- The labels are those of the metadata, and the hash is that of the quote. -/
structure Evidence.Labelled (digest : String → String) (e : Evidence) : Prop where
  documentId : e.documentId = e.metadata.docId
  title : e.title = e.metadata.title
  source : e.source = e.metadata.source
  page : e.page = e.metadata.page
  slide : e.slide = e.metadata.slide
  version : e.version = e.metadata.version
  contentHash : e.contentHash = digest e.quote

theorem labelled_of_evidenceFromText {digest : String → String} {uri text : String}
    {metadata : Metadata} {offset : ℕ} {e : Evidence}
    (made : evidenceFromText digest uri text metadata offset = .ok e) :
    e.Labelled digest ∧ e.uri = uri ∧ e.metadata = metadata ∧ e.quote = text := by
  unfold evidenceFromText at made
  dsimp only at made
  split_ifs at made
  obtain rfl := Except.ok.inj made
  exact ⟨⟨rfl, rfl, rfl, rfl, rfl, rfl, rfl⟩, rfl, rfl, rfl⟩

namespace Retriever

variable {σ α : Type} (c : Retriever σ)

/-- What is in `t` beyond what was in `s`. -/
structure Grows (s t : Context σ) : Prop where
  snapshots : s.snapshots ⊆ t.snapshots
  held : ∀ e ∈ t.held, e ∈ s.held ∨ c.Grounded t.snapshots e ∧ e.Labelled c.digest
  kept : ∀ id e, s.evidence.get? id = some e → t.evidence.get? id = some e
  bytes : t.held = s.held ∨ evidenceBytes t.held ≤ c.budget.maxContextBytes
  counts : ∀ kind limit, c.budget.limit? kind = some limit → s.count kind ≤ limit →
    t.count kind ≤ limit

variable {c} {s t : Context σ}

theorem Grounded.subset {snapshots more : List (String × String)} {e : Evidence}
    (h : c.Grounded snapshots e) (grown : snapshots ⊆ more) : c.Grounded more e := by
  obtain ⟨document, text, found, applies, same, read, rest⟩ := h
  exact ⟨document, text, found, applies, same, grown read, rest⟩

theorem Grows.refl (s : Context σ) : c.Grows s s :=
  ⟨List.Subset.refl _, fun _ => .inl, fun _ _ => id, .inl rfl, fun _ _ _ => id⟩

theorem framed_grows : Framed (c.Grows s) := fun _ _ h =>
  ⟨h.snapshots, h.held, h.kept, h.bytes, h.counts⟩

/-- Requests are no evidence. -/
theorem grows_sent (request : Request) (h : c.Grows s t) :
    c.Grows s { t with sent := t.sent ++ [request] } :=
  ⟨h.snapshots, h.held, h.kept, h.bytes, h.counts⟩

theorem keeps_send (request : Request) :
    Triple (c.Grows s) (c.send request) (fun _ => c.Grows s) (c.Grows s) :=
  (Triple.change fun _ => grows_sent request).bind fun _ => framed_grows.ask _

/-! ### Counting -/

theorem grows_consume (kind : Kind) :
    Triple (c.Grows s) (c.consume kind) (fun _ => c.Grows s) (c.Grows s) := by
  unfold consume
  refine framed_grows.remaining.bind fun _ => Triple.state.bind fun now => ?_
  cases limited : c.budget.limit? kind with
  | none => exact .pure fun _ => And.right
  | some limit =>
    refine .ite (fun _ => .throw _ fun _ => And.right) fun left => .change fun t before => ?_
    obtain ⟨rfl, h⟩ := before
    refine ⟨h.snapshots, h.held, h.kept, h.bytes, fun other limit' limited' within => ?_⟩
    have most := h.counts other limit' limited' within
    rw [count_set]
    split_ifs with same
    · subst same
      rw [limited, Option.some_inj] at limited'
      omega
    · exact most

/-! ### Reading -/

theorem grows_readSnapshot (path : String) :
    Triple (c.Grows s) (c.readSnapshot path)
      (fun text t => c.Grows s t ∧ (path, text) ∈ t.snapshots) (c.Grows s) := by
  refine (framed_grows.ask _).bind fun text => ?_
  have noted : Triple (c.Grows s)
      (change fun t => { t with snapshots := t.snapshots ++ [(path, text)] } : Step σ Unit)
      (fun _ t => c.Grows s t ∧ (path, text) ∈ t.snapshots) (c.Grows s) := by
    refine .change fun t h => ⟨⟨List.Subset.trans h.snapshots (List.subset_append_left _ _), ?_,
      h.kept, h.bytes, h.counts⟩, List.mem_append_right _ (.head _)⟩
    intro e held
    exact (h.held e held).imp_right fun new => ⟨new.1.more, new.2⟩
  exact noted.bind fun _ => .pure fun _ => id

theorem grows_checkSnapshot (document : Document) (raw : String) (offset limit : ℕ) :
    Triple (c.Grows s) (c.checkSnapshot document raw offset limit)
      (fun _ t => c.Grows s t ∧ Verified c document raw offset limit t) (c.Grows s) := by
  refine .ite (fun missing => absurd missing document.kept) fun _ => ?_
  refine (grows_readSnapshot _).bind fun text => ?_
  refine .ite (fun _ => .throw _ fun _ => And.left) fun sameHash => ?_
  refine .ite (fun _ => .throw _ fun _ => And.left) fun sameText => ?_
  exact .pure fun t before =>
    ⟨before.1, text, before.2, not_not.mp sameHash, not_not.mp sameText⟩

theorem grows_hold (item : Evidence) :
    Triple (fun t => c.Grows s t ∧ c.Grounded t.snapshots item ∧ item.Labelled c.digest)
      (c.hold item) (fun _ => c.Grows s) (c.Grows s) := by
  refine Triple.state.bind fun now => ?_
  refine .ite (fun _ => .pure fun _ before => before.2.1) fun fresh => ?_
  refine .ite (fun _ => ?_) fun fits => ?_
  · exact ((grows_consume _).pre fun _ before => before.2.1).bind fun _ => .pure fun _ => id
  · have held : Triple
        (fun t => now = t ∧ c.Grows s t ∧ c.Grounded t.snapshots item ∧ item.Labelled c.digest)
        (change fun t => { t with evidence := t.evidence.set item.evidenceId item } : Step σ Unit)
        (fun _ => c.Grows s) (c.Grows s) := by
      refine .change fun t before => ?_
      obtain ⟨rfl, h, new⟩ := before
      have more : (now.evidence.set item.evidenceId item).map Prod.snd = now.held ++ [item] := by
        rw [Dict.set_of_notMem fresh, List.map_append, Context.held]
        rfl
      refine ⟨h.snapshots, fun e listed => ?_, fun id e found => ?_, .inr ?_, h.counts⟩
      · rw [Context.held, more] at listed
        rcases List.mem_append.mp listed with old | same
        · exact h.held e old
        · obtain rfl := List.mem_singleton.mp same
          exact .inr new
      · -- A new id hides none of those that were there.
        have there := h.kept id e found
        have other : item.evidenceId ≠ id := by
          rintro rfl
          exact Dict.get?_eq_none_iff.not.mp (by simp [there]) fresh
        rw [Dict.get?_set_of_ne other, there]
      · rw [Context.held, more]
        exact Nat.le_of_not_lt fits
    exact held.bind fun _ => .pure fun _ => id

/-- **Reading** only adds. -/
theorem grows_read (uri : String) (offset limit : ℕ) :
    Triple (c.Grows s) (c.read uri offset limit) (fun _ => c.Grows s) (c.Grows s) := by
  unfold read
  cases applicable : c.metadata uri with
  | none => exact .throw _ fun _ => id
  | some metadata =>
    obtain ⟨document, found, rfl, applies⟩ := metadata_eq_some applicable
    refine (grows_consume .read).bind fun _ => framed_grows.beforeHttp.bind fun _ => ?_
    have content : Triple (c.Grows s) (c.readContent uri offset limit) (fun _ => c.Grows s)
        (c.Grows s) := by
      refine (keeps_send _).bind fun result => ?_
      split
      · exact .pure fun _ => id
      · exact keeps_accessed _
    refine content.bind fun raw => framed_grows.remaining.bind fun _ => ?_
    rw [found]
    cases raw with
    | str raw =>
      refine .ite (fun _ => .pure fun _ => id) fun _ => ?_
      refine (grows_checkSnapshot document raw offset limit).bind fun _ => ?_
      have whole : Triple (fun t => c.Grows s t ∧ Verified c document raw offset limit t)
          (c.checkWhole document raw offset limit)
          (fun _ t => c.Grows s t ∧ Verified c document raw offset limit t) (c.Grows s) :=
        .ite (fun _ => .throw _ fun _ => And.left) fun _ => .pure fun _ => id
      refine whole.bind fun _ => ?_
      -- Only text that agrees with the snapshot becomes a piece of evidence.
      have item : Triple (fun t => c.Grows s t ∧ Verified c document raw offset limit t)
          (Program.ofExcept (evidenceFromText c.digest uri raw document.metadata offset))
          (fun item t => c.Grows s t ∧ c.Grounded t.snapshots item ∧ item.Labelled c.digest)
          (c.Grows s) :=
        .ofExcept (fun item made t before => ⟨before.1,
          grounded_of_verified found applies before.2 made, (labelled_of_evidenceFromText made).1⟩)
          fun _ => And.left
      exact item.bind fun item => grows_hold item
    | _ => exact .throw _ fun _ => id

/-! ### Calls -/

theorem grows_reorder (candidates : List String) :
    Triple (c.Grows s) (c.reorder candidates) (fun _ => c.Grows s) (c.Grows s) := by
  unfold reorder
  cases c.candidatePolicy with
  | none => exact .pure fun _ => id
  | some policy =>
    exact (framed_grows.ask _).bind fun _ =>
      .ite (fun _ => .pure fun _ => id) fun _ => .throw _ fun _ => id

theorem grows_anchor (query uri : String) (lineCount : ℕ) :
    Triple (c.Grows s) (c.anchor query uri lineCount) (fun _ => c.Grows s) (c.Grows s) := by
  refine .ite (fun _ => .pure fun _ => id) fun _ => framed_grows.beforeHttp.bind fun _ => ?_
  have grep (pattern : String) : Triple (c.Grows s) (c.grep pattern uri 3) (fun _ => c.Grows s)
      (c.Grows s) := by
    refine (keeps_send _).bind fun result => ?_
    split
    · exact .pure fun _ => id
    · exact .pure fun _ => id
  refine .ite (fun _ => .pure fun _ => id) fun _ => (grep _).bind fun anchors => ?_
  refine .ite (fun _ => ?_) fun _ => .pure fun _ => id
  refine (keeps_accessed _).bind fun first => (keeps_accessed _).bind fun line => ?_
  cases line.toInt? with
  | none => exact .throw _ fun _ => id
  | some line => exact .pure fun _ => id

theorem grows_readCandidates (query : String) (candidates : List String) :
    Triple (c.Grows s) (c.readCandidates query candidates) (fun _ => c.Grows s) (c.Grows s) := by
  induction candidates with
  | nil => exact .pure fun _ => id
  | cons uri rest ih =>
    refine (keeps_accessed _).bind fun document => (grows_anchor _ _ _).bind fun offset => ?_
    exact (grows_read _ _ _).bind fun item => ih.bind fun selected => .pure fun _ => id

theorem grows_search (query : String) (limit : ℤ) :
    Triple (c.Grows s) (c.search query limit) (fun _ => c.Grows s) (c.Grows s) := by
  refine .ite (fun _ => .throw _ fun _ => id) fun _ => (grows_consume .search).bind fun _ => ?_
  have find : Triple (c.Grows s) (c.find query (max limit 12)) (fun _ => c.Grows s) (c.Grows s) :=
    (keeps_send _).bind fun _ => keeps_accessed _
  refine framed_grows.beforeHttp.bind fun _ => find.bind fun hits => ?_
  have made : Triple (c.Grows s)
      (change fun t => { t with searchCount := t.searchCount + 1 } : Step σ Unit)
      (fun _ => c.Grows s) (c.Grows s) :=
    .change fun _ h => ⟨h.snapshots, h.held, h.kept, h.bytes, h.counts⟩
  refine made.bind fun _ => framed_grows.remaining.bind fun _ =>
    (keeps_accessed _).bind fun found => ?_
  refine (grows_reorder found).bind fun candidates =>
    (grows_readCandidates _ _).bind fun selected => ?_
  exact Triple.state.bind fun now => .pure fun _ => And.right

theorem grows_readMore (evidenceId : String) (startLine lineCount : ℤ) :
    Triple (c.Grows s) (c.readMore evidenceId startLine lineCount) (fun _ => c.Grows s)
      (c.Grows s) := by
  have asked : Triple (c.Grows s) (Program.state : Step σ (Context σ)) (fun _ => c.Grows s)
      (c.Grows s) :=
    Triple.state.mono (fun _ => id) (fun _ _ => And.right) fun _ => id
  refine asked.bind fun now => ?_
  cases now.evidence.get? evidenceId with
  | none => exact .throw _ fun _ => id
  | some evidence =>
    exact .ite (fun _ => .throw _ fun _ => id) fun _ =>
      (grows_read _ _ _).bind fun item => .pure fun _ => id

/-- **Every call only adds.** -/
theorem grows_call (asked : ToolCall) (s : Context σ) : c.Grows s (c.call asked s).2 := by
  cases asked with
  | search query limit => exact (grows_search query limit).keeps s (.refl s)
  | readMore evidenceId startLine lineCount =>
    exact (grows_readMore evidenceId startLine lineCount).keeps s (.refl s)

end Retriever

end AgentLabs.Retrieval
