import AgentLabs.Retrieval.Scope
import AgentLabs.Retrieval.Served

/-!
# From the catalog to the quotes

A turn reads the manifest of an ingestion and checks what the server sends against the snapshots
that the ingestion has kept. Together the two make every quote a part of the catalog: whatever the
server answers, to the ingestion and to the turn, a quote that the turn holds is some lines of a
text that was shown for a record of the catalog, which is the text of the record but for the space
around it, and the metadata of the quote are those of the record.

The digest stands for the text. That two texts with one digest are the same is assumed of the
snapshots that the turn reads and of what was shown to the ingestions, and of nothing else.

## Main definitions

* `Manifest.ofJson`: the manifest that a turn makes of a file
* `QuotesRecord`: a quote that is from a record of the catalog

## Main results

* `Ingestion.Ingested.document`: of which records the documents of a manifest are
* `Retriever.quotes_served`: every quote of a turn is from a catalog
-/

namespace AgentLabs.Retrieval

open Math Text Program

variable {τ σ : Type}

/-! ### Reading a manifest -/

/-- A text. -/
def textOf (value : Json) : Except AccessError String := value.asStr?.elim (.error .typeError) .ok

/-- An entry of a manifest, as a turn reads it. -/
def Document.ofJson (validate : Json → Option Metadata) (entry : Json) :
    Except AccessError Document := do
  let metadata ← entry.item "metadata"
  let family ← metadata.get "family" .null
  let remoteHash ← entry.item "remote_hash" >>= textOf
  let lineCount ← entry.item "line_count"
  let snapshot ← entry.item "snapshot" >>= textOf
  match validate metadata, lineCount.asInt? with
  | some metadata, some lineCount =>
    if kept : snapshot ≠ "" then
      return { metadata, family, remoteHash, lineCount := lineCount.toNat, snapshot, kept }
    else throw .keyError
  | _, _ => throw .typeError

/-- A manifest, as a turn reads it. -/
def Manifest.ofJson (validate : Json → Option Metadata) (manifest : Json) :
    Except AccessError Manifest := do
  let targetUri ← manifest.item "target_uri" >>= textOf
  let documents ← manifest.item "documents"
  let documents ← documents.getter
  let documents ← documents.mapM fun entry => do
    let document ← Document.ofJson validate entry.2
    return (entry.1, document)
  return { targetUri, documents }

/-- What is known of an entry that was read. -/
theorem ofJson_entry {c : Ingestion τ} {stored : Stored} {document : Document}
    (read : Document.ofJson c.validate (c.entry stored) = .ok document) :
    c.validate stored.record.metadata = some document.metadata ∧
      document.remoteHash = c.digest stored.remote ∧
      document.snapshot = c.snapshotPath stored.remote := by
  have metadata : (c.entry stored).item "metadata" = .ok stored.record.metadata := rfl
  have hash : (c.entry stored).item "remote_hash" >>= textOf = .ok (c.digest stored.remote) := rfl
  have count : (c.entry stored).item "line_count" =
    .ok (.int (splitLines stored.remote.toList).length) := rfl
  have path : (c.entry stored).item "snapshot" >>= textOf =
      .ok (c.snapshotPath stored.remote) := rfl
  -- All fields but the family and the metadata are there in what an ingestion writes.
  unfold Document.ofJson at read
  rw [metadata, hash, count, path] at read
  cases family : stored.record.metadata.get "family" .null with
  | error e => simp [family, bind, Except.bind] at read
  | ok value =>
    cases valid : c.validate stored.record.metadata with
    | none => simp [family, valid, bind, Except.bind, Json.asInt?, throw, throwThe,
        MonadExceptOf.throw] at read
    | some known =>
      simp only [family, valid, bind, Except.bind, Json.asInt?] at read
      split_ifs at read with kept
      obtain rfl := Except.ok.inj read
      exact ⟨rfl, rfl, rfl⟩

namespace Ingestion

variable {c : Ingestion τ} {name catalog : String} {manifest : Json}
  {records : List CatalogRecord} {entries : List Stored} {s : Station τ}

/-- **The documents of a manifest** are those of its entries. -/
theorem Ingested.document (ingested : c.Ingested name catalog manifest records entries s)
    {m : Manifest} (read : Manifest.ofJson c.validate manifest = .ok m) {uri : String}
    {document : Document} (found : m.documents.get? uri = some document) :
    ∃ stored ∈ entries, stored.leaf = uri ∧
      c.validate stored.record.metadata = some document.metadata ∧
      document.remoteHash = c.digest stored.remote ∧
      document.snapshot = c.snapshotPath stored.remote := by
  obtain ⟨target, reused, -, rfl⟩ := ingested.manifest
  have documents : (c.completeManifest name target (c.documentsOf entries) reused).item
      "documents" =
    .ok (.obj (c.documentsOf entries)) := rfl
  unfold Manifest.ofJson at read
  -- The reading has gone through every entry, so the document comes from one of them.
  obtain ⟨uri', -, read⟩ := bind_eq_ok_iff.mp read
  rw [documents] at read
  obtain ⟨all, same, read⟩ := bind_eq_ok_iff.mp read
  obtain rfl := Except.ok.inj same
  obtain ⟨fields, same, read⟩ := bind_eq_ok_iff.mp read
  obtain rfl := Except.ok.inj same
  obtain ⟨decoded, each, read⟩ := bind_eq_ok_iff.mp read
  obtain rfl := Except.ok.inj read
  obtain ⟨⟨leaf, entry⟩, among, made⟩ := exists_of_mem_of_mapM_eq_ok each
    (Dict.mem_of_get?_eq_some found)
  obtain ⟨document', decoded, same⟩ := bind_eq_ok_iff.mp made
  obtain ⟨rfl, rfl⟩ := Prod.mk.inj (Except.ok.inj same)
  obtain ⟨stored, listed, pair⟩ := List.mem_map.mp (Dict.mem_of_mem_setAll_nil among)
  obtain ⟨rfl, rfl⟩ := Prod.mk.inj pair
  exact ⟨stored, listed, rfl, ofJson_entry decoded⟩

end Ingestion

/-! ### Quotes -/

/-- The quote is some lines of what was shown for a record of the catalog, as it was read, which is
the text of the record but for the space around it, and its metadata are those of the record. -/
def QuotesRecord (c : Ingestion τ) (catalog : String) (s : Station τ) (e : Evidence) : Prop :=
  ∃ text records record raw remote, (catalog, text) ∈ s.texts ∧ ListedIn text records ∧
    record ∈ records ∧ c.validate record.metadata = some e.metadata ∧
    (record.path, raw) ∈ s.texts ∧ (e.uri, remote) ∈ s.shown ∧ strip remote = strip raw ∧
    e.endLine ≤ (splitLines remote.toList).length ∧
    e.quote = String.ofList
      (lineRange remote.toList (e.startLine - 1) (e.endLine - (e.startLine - 1)))

namespace Retriever

variable (c : Ingestion τ) (r : Retriever σ)

/-- What is grounded in a snapshot is a quote of the record that the snapshot was kept of. -/
theorem Grounded.quotesRecord {name catalog : String} {manifest : Json}
    {records : List CatalogRecord} {entries : List Stored} {s : Station τ}
    (ingested : c.Ingested name catalog manifest records entries s)
    (read : Manifest.ofJson c.validate manifest = .ok r.manifest) (digest : r.digest = c.digest)
    {snapshots : List (String × String)}
    (distinct : ∀ path text uri shown, (path, text) ∈ snapshots → (uri, shown) ∈ s.shown →
      c.digest text = c.digest shown → text = shown)
    {e : Evidence} (grounded : r.Grounded snapshots e) :
    QuotesRecord c catalog s e ∧ e.metadata.Applies r.entity r.asOf r.domain := by
  obtain ⟨document, text, found, applies, metadata, snapshot, hash, most, quote⟩ := grounded
  obtain ⟨stored, among, leaf, valid, remoteHash, -⟩ := ingested.document read found
  obtain ⟨verified, -⟩ := ingested.verified stored among
  obtain ⟨catalogText, listed, records'⟩ := ingested.listed
  -- The turn has read the text that the server had shown to the ingestion.
  have same : text = stored.remote := by
    refine distinct _ _ _ _ snapshot verified.shown ?_
    rw [← digest, hash, remoteHash, digest]
  subst same
  refine ⟨⟨catalogText, records, stored.record, stored.raw, stored.remote, listed,
    records', ?_, ?_, verified.read, ?_, verified.same, most, quote⟩, metadata ▸ applies⟩
  · exact ingested.inOrder ▸ List.mem_map_of_mem among
  · rw [valid, metadata]
  · exact leaf ▸ verified.shown

/-- **Quotes are from the catalog.** After any ingestions from an empty station, each of which may
have failed anywhere, let a turn read the manifest that is accepted. Whatever it then asks for and
whatever the server answers, each of its quotes is some lines of the text of a record, as it was
shown when one of the ingestions read it back, and the record applies to what the turn is for. That
texts with one digest are the same is assumed of the snapshots that the turn has read and of what
was shown to the ingestion. -/
theorem quotes_served (name : String) (s : Station τ) (empty : s.manifest = none)
    (catalogs : List String) {manifest : Json}
    (accepted : c.loadManifest name (c.runIngests name s catalogs).manifest = .ok manifest)
    (read : Manifest.ofJson c.validate manifest = .ok r.manifest) (digest : r.digest = c.digest)
    (outside : σ) (calls : List ToolCall)
    (distinct : ∀ path text uri shown, (path, text) ∈ (r.run outside calls).snapshots →
      (∃ n ≤ catalogs.length, (uri, shown) ∈ (c.after name s catalogs n).shown) →
      c.digest text = c.digest shown → text = shown) :
    ∃ n catalog, catalogs[n]? = some catalog ∧ ∀ e ∈ (r.run outside calls).held,
      QuotesRecord c catalog (c.after name s catalogs (n + 1)) e ∧
        e.metadata.Applies r.entity r.asOf r.domain := by
  have whole : c.after name s catalogs catalogs.length = c.runIngests name s catalogs := by
    rw [Ingestion.after, stateAt, List.take_length]
    rfl
  have grounded : ∀ e ∈ (r.run outside calls).held,
      r.Grounded (r.run outside calls).snapshots e :=
    (foldl_invariant (fun s asked h => keeps_call asked s h) calls (inv_start outside)).grounded
  rcases Ingestion.served_after le_rfl (whole ▸ accepted) with untouched | ⟨n, less, rest⟩
  · -- The manifest that was there before all of them is none.
    have same := untouched _ le_rfl
    rw [whole, empty] at same
    rw [same] at accepted
    by_cases named : isNamespace name
    · simp [Ingestion.loadManifest, named] at accepted
    · simp [Ingestion.loadManifest, named] at accepted
  · obtain ⟨catalog, here, -, ⟨records, entries, ingested⟩, -⟩ := rest
    refine ⟨n, catalog, here, fun e held => ?_⟩
    exact Grounded.quotesRecord c r ingested read digest
      (fun path text uri shown kept noted => distinct path text uri shown kept ⟨n + 1, less, noted⟩)
      (grounded e held)

/-! ### A turn over the guide -/

open Ingestion

/-- The manifest, as a turn reads it. -/
def guideDocuments : Manifest :=
  (Manifest.ofJson guideIngestion.validate guideManifest).toOption.getD ⟨"", []⟩

/-- A turn over the guide. -/
def guideRetriever : Retriever Unit where
  digest := id
  outside :=
    { request
        | .find .. => pure (.obj
            [("resources", .arr [.obj
              [("uri", .str "viking://resources/day02-business-text\x7b'doc_id': '/g/g.md")]])])
        | .grep .. => pure (.arr [])
        | .read .. => pure (.str "text")
      readText _ := pure "text"
      elapsed := pure 0
      setTimeout _ := pure () }
  manifest := guideDocuments
  entity := "공통"
  asOf := ⟨2026, 1, 1⟩

theorem read_guide :
    Manifest.ofJson guideIngestion.validate guideManifest = .ok guideRetriever.manifest := by
  simp only [guideRetriever, guideDocuments]
  exact eq_ok_of_isSome _ (by decide +kernel)

/-- What the turn does. -/
def guideCalls : List ToolCall := [.search "guide" 5]

theorem held_guide : (guideRetriever.run () guideCalls).held.length = 1 := by decide +kernel

theorem quotes_served_guide :
    (guideRetriever.run () guideCalls).held.length = 1 ∧
      ∃ n catalog, guideCatalogs[n]? = some catalog ∧
        ∀ e ∈ (guideRetriever.run () guideCalls).held,
        QuotesRecord guideIngestion catalog
          (guideIngestion.after "business" { outside := () } guideCatalogs (n + 1)) e ∧
        e.metadata.Applies guideRetriever.entity guideRetriever.asOf guideRetriever.domain := by
  refine ⟨held_guide, ?_⟩
  exact quotes_served guideIngestion guideRetriever "business" { outside := () } rfl
    guideCatalogs accepted_guide read_guide rfl () guideCalls
    fun _ _ _ _ _ _ same => same

end Retriever

end AgentLabs.Retrieval
