import AgentLabs.Retrieval.Manifests
import AgentLabs.Text.JsonSpelled

/-!
# Which manifests are served

A turn accepts a manifest only if it is complete. So whatever fails in an ingestion, and however
often ingestions are tried, the manifest that is accepted is that of an ingestion that came to its
end: it has an entry for each record of the catalog, in this order, and the server has shown a text
that is the text of the record but for the space around it. An ingestion that fails leaves the
manifest as it was, as long as it has not stored a document, and one that is refused from then on.

## Main definitions

* `Stored.Verified`: what was read and what was shown of a document agree
* `Ingestion.Ingested`: what is true of a manifest at the end of its ingestion
* `Ingestion.LeftBehind`: what an ingestion leaves that fails

## Main results

* `Ingestion.triple_ingest`: how an ingestion can end
* `Ingestion.served_run`: what is accepted after any ingestions
-/

namespace AgentLabs.Retrieval

open Math Text Program

variable {τ α β : Type}

/-- The text of the record was read, its leaf was shown with this text, and the two agree but for
the space around them. -/
structure Stored.Verified (stored : Stored) (s : Station τ) : Prop where
  read : (stored.record.path, stored.raw) ∈ s.texts
  shown : (stored.leaf, stored.remote) ∈ s.shown
  same : strip stored.remote = strip stored.raw

/-- More notes do not hurt. -/
theorem Stored.Verified.mono {stored : Stored} {s t : Station τ} (verified : stored.Verified s)
    (texts : s.texts ⊆ t.texts) (shown : s.shown ⊆ t.shown) : stored.Verified t :=
  ⟨texts verified.read, shown verified.shown, verified.same⟩

/-- The text is a list of these records. -/
def ListedIn (text : String) (records : List CatalogRecord) : Prop :=
  ∃ value items, Json.loads text = some value ∧ value.elements = .ok items ∧
    List.Forall₂ (fun (item : Json) (record : CatalogRecord) =>
      item.item "path" = .ok (.str record.path) ∧ item.item "metadata" = .ok record.metadata)
      items records

namespace Ingestion

variable (c : Ingestion τ)

/-- The snapshot of a document has the digest of what was shown. -/
def Kept (stored : Stored) (s : Station τ) : Prop :=
  ∃ text, s.snapshots.get? (c.snapshotPath stored.remote) = some text ∧
    c.digest text = c.digest stored.remote

/-- The documents of a manifest with these entries. Of entries that the server has put under one
leaf the last is left, at the place of the first. -/
def documentsOf (entries : List Stored) : Dict String Json :=
  Dict.setAll [] (entries.map fun stored => (stored.leaf, c.entry stored))

/-- What is true of a manifest at the end of its ingestion. -/
structure Ingested (name catalog : String) (manifest : Json) (records : List CatalogRecord)
    (entries : List Stored) (s : Station τ) : Prop where
  listed : ∃ text, (catalog, text) ∈ s.texts ∧ ListedIn text records
  valid : ∀ record ∈ records, c.validate record.metadata ≠ none
  nonempty : records ≠ []
  inOrder : entries.map Stored.record = records
  verified : ∀ stored ∈ entries, stored.Verified s ∧ c.Kept stored s
  manifest : ∃ target reused, reused ≤ records.length ∧
    manifest = c.completeManifest name target (c.documentsOf entries) reused

/-- An ingestion that fails leaves the manifest as it was, or one that is not complete. -/
def LeftBehind (name : String) (before after : Option String) : Prop :=
  after = before ∨ ∃ target documents, Json.Spelled (.obj documents) ∧
    after = some (writeJson (c.unfinishedManifest name target documents))

/-! ### Steps aside -/

/-- The property looks at what was noted, at the snapshots and at the manifest, and more notes do
not hurt. -/
def Aside (P : Station τ → Prop) : Prop :=
  ∀ s t, s.texts ⊆ t.texts → s.shown ⊆ t.shown → t.snapshots = s.snapshots →
    t.manifest = s.manifest → P s → P t

variable {c} {P Q : Station τ → Prop}

theorem Aside.and (first : Aside P) (second : Aside Q) : Aside fun s => P s ∧ Q s :=
  fun s t texts shown snapshots manifest both =>
    ⟨first s t texts shown snapshots manifest both.1,
      second s t texts shown snapshots manifest both.2⟩

theorem aside_read (path text : String) : Aside fun s : Station τ => (path, text) ∈ s.texts :=
  fun _ _ texts _ _ _ read => texts read

/-- Entries that were verified and kept stay so. -/
theorem aside_entries (entries : List Stored) :
    Aside fun s : Station τ => ∀ e ∈ entries, e.Verified s ∧ c.Kept e s := by
  intro s t texts shown snapshots _ holds e listed
  obtain ⟨verified, text, found, same⟩ := holds e listed
  exact ⟨verified.mono texts shown, text, snapshots ▸ found, same⟩

theorem Aside.ask (aside : Aside P) (m : Program τ IngestError α) :
    Triple P (ask m) (fun _ => P) P :=
  .within fun s _ => aside s _ (List.Subset.refl _) (List.Subset.refl _) rfl rfl

theorem keeps_accessed (x : Except AccessError α) : Triple P (accessed x) (fun _ => P) P :=
  .ofExcept (fun _ _ _ => id) fun _ => id

theorem mapError_eq_ok {ε ε' : Type} {x : Except ε α} {f : ε → ε'} {a : α}
    (ok : x.mapError f = .ok a) : x = .ok a := by
  cases x with
  | error e => cases ok
  | ok b => exact congrArg Except.ok (Except.ok.inj ok)

/-- An access that succeeds has found its value. -/
theorem triple_accessed (x : Except AccessError α) :
    Triple P (accessed x) (fun a s => x = .ok a ∧ P s) P :=
  .ofExcept (fun _ ok _ before => ⟨mapError_eq_ok ok, before⟩) fun _ => id

theorem triple_readText (aside : Aside P) (path : String) :
    Triple P (c.readText path) (fun text s => P s ∧ (path, text) ∈ s.texts) P := by
  refine (aside.ask _).bind fun text => ?_
  have noted : Triple P
      (change fun s => { s with texts := s.texts ++ [(path, text)] } :
        Program (Station τ) IngestError Unit)
      (fun _ s => P s ∧ (path, text) ∈ s.texts) P := by
    refine .change fun s before => ⟨?_, List.mem_append_right _ (.head _)⟩
    exact aside s _ (List.subset_append_left _ _) (List.Subset.refl _) rfl rfl before
  exact noted.bind fun _ => .pure fun _ => id

/-! ### Documents -/

/-- What the server showed, if it is a text, is noted. -/
theorem triple_readRemote (aside : Aside P) (uri : String) (limit : ℕ) :
    Triple P (c.readRemote uri limit)
      (fun content s => P s ∧ ∀ text, content = .str text → (uri, text) ∈ s.shown) P := by
  refine (aside.ask _).bind fun result => ?_
  refine (keeps_accessed _).bind fun content => ?_
  have noted : Triple P
      (change fun s =>
        { s with shown := s.shown ++ (content.asStr?.map fun text => (uri, text)).toList } :
        Program (Station τ) IngestError Unit)
      (fun _ s => P s ∧ ∀ text, content = .str text → (uri, text) ∈ s.shown) P := by
    refine .change fun s before => ⟨?_, ?_⟩
    · exact aside s _ (List.Subset.refl _) (List.subset_append_left _ _) rfl rfl before
    · rintro text rfl
      exact List.mem_append_right _ (.head _)
  exact noted.bind fun _ => .pure fun _ => id

theorem triple_readExisting (aside : Aside P) (uri : String) (limit : ℕ) :
    Triple P (c.readExisting uri limit)
      (fun content s => P s ∧ ∀ text, content = .str text → (uri, text) ∈ s.shown) P := by
  refine (triple_readRemote aside uri limit).tryCatch fun e => ?_
  split
  · exact .pure fun s before => ⟨before, nofun⟩
  · exact .throw _ fun _ => id

theorem triple_addFile (aside : Aside P) (path target : String) :
    Triple P (c.addFile path target) (fun _ => P) P := by
  have counted : Triple P
      (change fun s => { s with uploads := s.uploads + 1 } : Program (Station τ) IngestError Unit)
      (fun _ => P) P :=
    .change fun s before => aside s _ (List.Subset.refl _) (List.Subset.refl _) rfl rfl before
  refine counted.bind fun _ => (aside.ask _).bind fun uploaded => ?_
  exact (keeps_accessed _).bind fun file => aside.ask _

theorem triple_ls (aside : Aside P) (uri : Json) : Triple P (c.ls uri) (fun _ => P) P := by
  refine (aside.ask _).bind fun result => ?_
  split
  · exact .pure fun _ => id
  · exact .pure fun _ => id

theorem triple_uploadRecord (aside : Aside P) (record : CatalogRecord) (requested raw : String) :
    Triple (fun s => P s ∧ (record.path, raw) ∈ s.texts) (c.uploadRecord record requested raw)
      (fun stored s => P s ∧ stored.Verified s ∧ stored.record = record) P := by
  have more : Aside fun s => P s ∧ (record.path, raw) ∈ s.texts := aside.and (aside_read _ _)
  have less : ∀ s : Station τ, P s ∧ (record.path, raw) ∈ s.texts → P s := fun _ => And.left
  refine ((triple_addFile more _ _).raised less).bind fun result => ?_
  refine ((keeps_accessed _).raised less).bind fun uri => ?_
  refine ((triple_ls more uri).raised less).bind fun entries => ?_
  refine ((keeps_accessed _).raised less).bind fun leaves => ?_
  split
  · refine ((triple_readRemote more _ _).raised less).bind fun remote => ?_
    split
    · refine .ite (fun _ => .throw _ fun _ before => before.1.1) fun same => .pure ?_
      rintro s ⟨⟨before, read⟩, shown⟩
      exact ⟨before, ⟨read, shown _ rfl, not_not.mp same⟩, rfl⟩
    · exact .throw _ fun _ before => before.1.1
  · exact .throw _ less

/-- **A document is stored** only when what the server shows of it agrees with it. -/
theorem triple_storeRecord (aside : Aside P) (target : String) (record : CatalogRecord) :
    Triple P (c.storeRecord target record)
      (fun stored s => P s ∧ stored.1.Verified s ∧ stored.1.record = record) P := by
  refine (triple_readText aside _).bind fun raw => ?_
  have more : Aside fun s => P s ∧ (record.path, raw) ∈ s.texts := aside.and (aside_read _ _)
  have less : ∀ s : Station τ, P s ∧ (record.path, raw) ∈ s.texts → P s := fun _ => And.left
  refine ((triple_readExisting more _ _).raised less).bind fun remote => ?_
  have upload (requested : String) :=
    ((triple_uploadRecord (c := c) aside record requested raw).bind
    fun stored => Triple.pure (a := (stored, false))
      (Q := fun (stored : Stored × Bool) s =>
        P s ∧ stored.1.Verified s ∧ stored.1.record = record) fun _ => id)
  split
  · exact (upload _).pre fun _ => And.left
  · refine .ite (fun same => .pure ?_) fun _ => (upload _).pre fun _ => And.left
    rintro s ⟨⟨before, read⟩, shown⟩
    exact ⟨before, ⟨read, shown _ rfl, same⟩, rfl⟩
  · exact .throw _ fun _ before => before.1.1

/-! ### Snapshots -/

/-- Two texts with one snapshot have one digest. -/
theorem digest_eq_of_snapshotPath {a b : String} (same : c.snapshotPath a = c.snapshotPath b) :
    c.digest a = c.digest b := by
  have lists := congrArg String.toList same
  simp only [snapshotPath, String.toList_append, List.append_assoc, List.append_cancel_left_eq,
    List.append_cancel_right_eq] at lists
  exact String.toList_inj.mp lists

/-- What holds of the manifest and of the texts survives the writing of a snapshot, and so do the
snapshots that were kept before. -/
theorem triple_keepSnapshot {entries : List Stored} {R : Option String → List (String × String) →
    Prop} (stored : Stored) :
    Triple
      (fun s => R s.manifest s.texts ∧ (∀ e ∈ entries, e.Verified s ∧ c.Kept e s) ∧
        stored.Verified s)
      (c.keepSnapshot stored.remote)
      (fun _ s => R s.manifest s.texts ∧ ∀ e ∈ entries ++ [stored], e.Verified s ∧ c.Kept e s)
      fun s => R s.manifest s.texts := by
  have written : Triple
      (fun s => R s.manifest s.texts ∧ (∀ e ∈ entries, e.Verified s ∧ c.Kept e s) ∧
      stored.Verified s)
      (tryCatch (ask c.host.write) fun e => do
        change fun s =>
          { s with snapshots := s.snapshots.set (c.snapshotPath stored.remote)
                    (c.host.torn s.outside) }
        throw e)
      (fun _ s => R s.manifest s.texts ∧ (∀ e ∈ entries, e.Verified s ∧ c.Kept e s) ∧
        stored.Verified s)
      fun s => R s.manifest s.texts := by
    have writes : Triple
        (fun s => R s.manifest s.texts ∧ (∀ e ∈ entries, e.Verified s ∧ c.Kept e s) ∧
          stored.Verified s)
        (ask c.host.write)
        (fun _ s => R s.manifest s.texts ∧ (∀ e ∈ entries, e.Verified s ∧ c.Kept e s) ∧
          stored.Verified s)
        fun s => R s.manifest s.texts := by
      refine (Triple.within ?_).raised fun _ => And.left
      rintro s outside ⟨manifest, before, now⟩
      exact ⟨manifest, fun e listed => ⟨⟨(before e listed).1.read, (before e listed).1.shown,
        (before e listed).1.same⟩, (before e listed).2⟩, ⟨now.read, now.shown, now.same⟩⟩
    -- A file that was torn is a snapshot; the manifest and the notes are as they were.
    have torn : Triple (fun s : Station τ => R s.manifest s.texts)
        (change fun s =>
          { s with snapshots := s.snapshots.set (c.snapshotPath stored.remote)
                    (c.host.torn s.outside) } : Program (Station τ) IngestError Unit)
        (fun _ s => R s.manifest s.texts) fun s => R s.manifest s.texts := .change fun _ => id
    exact writes.tryCatch fun e => torn.bind fun _ => .throw _ fun _ => id
  refine written.bind fun _ => .change ?_
  rintro s ⟨manifest, before, now⟩
  refine ⟨manifest, fun e listed => ⟨?_, ?_⟩⟩
  · rcases List.mem_append.mp listed with old | new
    · exact ⟨(before e old).1.read, (before e old).1.shown, (before e old).1.same⟩
    · obtain rfl := List.mem_singleton.mp new
      exact ⟨now.read, now.shown, now.same⟩
  · simp only [Kept, Dict.get?_set]
    split_ifs with same
    -- The file was one of an earlier entry as well: then its text had the same digest.
    · exact ⟨stored.remote, rfl, digest_eq_of_snapshotPath same⟩
    · rcases List.mem_append.mp listed with old | new
      · exact (before e old).2
      · obtain rfl := List.mem_singleton.mp new
        exact absurd rfl same

/-! ### The manifest of an ingestion -/

/-- The manifest after these entries: it is as it was before, or it is that of the documents so
far. -/
def manifestAfter (c : Ingestion τ) (name target : String) (before : Option String)
    (entries : List Stored) : Option String :=
  if entries = [] then before
  else some (writeJson (c.unfinishedManifest name target (c.documentsOf entries)))

/-- What holds in the loop, with the text of the catalog. -/
structure Progress (c : Ingestion τ) (name target : String) (before : Option String)
    (note : String × String) (entries : List Stored) (s : Station τ) : Prop where
  manifest : s.manifest = c.manifestAfter name target before entries
  read : note ∈ s.texts
  verified : ∀ stored ∈ entries, stored.Verified s ∧ c.Kept stored s

theorem aside_progress {name target : String} {before : Option String} {note : String × String}
    {entries : List Stored} : Aside (Progress c name target before note entries) := by
  intro s t texts shown snapshots manifest holds
  refine ⟨manifest.trans holds.manifest, texts holds.read, ?_⟩
  exact aside_entries entries s t texts shown snapshots manifest holds.verified

/-- The documents of entries whose metadata are spelled are spelled. -/
theorem spelled_documentsOf {entries : List Stored}
    (spelled : ∀ stored ∈ entries, Json.Spelled stored.record.metadata) :
    Json.Spelled (.obj (c.documentsOf entries)) := by
  rw [Json.spelled_obj_iff]
  refine ⟨Dict.KeysNodup.setAll (d := []) List.nodup_nil _, fun field listed => ?_⟩
  obtain ⟨stored, among, same⟩ := List.mem_map.mp (Dict.mem_of_mem_setAll_nil listed)
  rw [← (Prod.mk.inj same).2, entry, Json.spelled_obj_iff]
  refine ⟨by simp [Dict.KeysNodup, Dict.keys], ?_⟩
  simp [Json.Spelled, spelled stored among]

theorem documentsOf_concat (entries : List Stored) (stored : Stored) :
    c.documentsOf (entries ++ [stored]) =
      (c.documentsOf entries).set stored.leaf (c.entry stored) := by
  simp [documentsOf, Dict.setAll]

theorem leftBehind_manifestAfter {name target : String} {before : Option String}
    {entries : List Stored} (spelled : ∀ stored ∈ entries, Json.Spelled stored.record.metadata) :
    c.LeftBehind name before (c.manifestAfter name target before entries) := by
  unfold manifestAfter
  split_ifs
  · exact .inl rfl
  · exact .inr ⟨target, _, spelled_documentsOf spelled, rfl⟩

/-- The writing of the manifest succeeds, or the manifest is as it was. -/
theorem triple_writeManifest {P : Station τ → Prop} {R : Option String → Prop}
    (aside : Aside P) (value : Json) (left : ∀ s, P s → R s.manifest) :
    Triple P (c.writeManifest value)
      (fun _ s => s.manifest = some (writeJson value) ∧ ∃ before, P before ∧
        s = { before with manifest := some (writeJson value) })
      fun s => R s.manifest := by
  refine ((aside.ask c.host.write).raised left).bind fun _ => .change ?_
  exact fun s before => ⟨rfl, s, before, rfl⟩

theorem spelled_unfinishedManifest {name target : String} {documents : Dict String Json}
    (spelled : Json.Spelled (.obj documents)) :
    Json.Spelled (c.unfinishedManifest name target documents) := by
  rw [unfinishedManifest, Json.spelled_obj_iff]
  refine ⟨by simp [Dict.KeysNodup, Dict.keys], ?_⟩
  simpa [Json.Spelled] using spelled

theorem spelled_completeManifest {name target : String} {documents : Dict String Json} {reused : ℕ}
    (spelled : Json.Spelled (.obj documents)) :
    Json.Spelled (c.completeManifest name target documents reused) := by
  rw [completeManifest, Json.spelled_obj_iff]
  refine ⟨by simp [Dict.KeysNodup, Dict.keys], ?_⟩
  simpa [Json.Spelled] using spelled

/-- **The loop.** After each document the manifest has an entry for it. -/
theorem triple_storeRecords (name target : String) (before : Option String)
    (note : String × String) (records : List CatalogRecord)
    (spelled : ∀ record ∈ records, Json.Spelled record.metadata) (entries : List Stored)
    (known : ∀ stored ∈ entries, Json.Spelled stored.record.metadata) (reused : ℕ) :
    Triple (Progress c name target before note entries)
      (c.storeRecords name target (c.documentsOf entries) reused records)
      (fun result s => ∃ more, more.map Stored.record = records ∧
        result.1 = c.documentsOf (entries ++ more) ∧ result.2 ≤ reused + records.length ∧
        Progress c name target before note (entries ++ more) s)
      fun s => c.LeftBehind name before s.manifest := by
  -- By induction on the records that are left, behind the entries that the manifest has so far.
  induction records generalizing entries reused with
  | nil =>
    refine .pure fun s holds => ⟨[], rfl, ?_, le_rfl, ?_⟩
    · rw [List.append_nil]
    · rwa [List.append_nil]
  | cons record records ih =>
    have left : ∀ s : Station τ, s.manifest = c.manifestAfter name target before entries →
        c.LeftBehind name before s.manifest := fun s manifest =>
      manifest ▸ leftBehind_manifestAfter known
    refine ((triple_storeRecord aside_progress target record).raised
      fun s holds => left s holds.manifest).bind fun result => ?_
    obtain ⟨stored, again⟩ := result
    -- The record that was stored is the one whose entry is written.
    by_cases same : stored.record = record
    case neg => exact fun s holds => absurd holds.2.2 same
    subst same
    have now : ∀ e ∈ entries ++ [stored], Json.Spelled e.record.metadata := by
      intro e listed
      rcases List.mem_append.mp listed with old | new
      · exact known e old
      · exact List.mem_singleton.mp new ▸ spelled stored.record (.head _)
    have kept : Triple
        (fun s => Progress c name target before note entries s ∧ stored.Verified s ∧
          stored.record = stored.record)
        (c.keepSnapshot stored.remote)
        (fun _ s => (s.manifest = c.manifestAfter name target before entries ∧ note ∈ s.texts) ∧
          ∀ e ∈ entries ++ [stored], e.Verified s ∧ c.Kept e s)
        fun s => c.LeftBehind name before s.manifest :=
      (triple_keepSnapshot (R := fun manifest texts =>
        manifest = c.manifestAfter name target before entries ∧ note ∈ texts) stored).mono
        (fun s holds => ⟨⟨holds.1.manifest, holds.1.read⟩, holds.1.verified, holds.2.1⟩)
        (fun _ _ => id) fun s holds => left s holds.1
    refine kept.bind fun _ => ?_
    rw [← documentsOf_concat]
    have aside : Aside fun s : Station τ =>
        (s.manifest = c.manifestAfter name target before entries ∧ note ∈ s.texts) ∧
          ∀ e ∈ entries ++ [stored], e.Verified s ∧ c.Kept e s := by
      intro s t texts shown snapshots manifest holds
      refine ⟨⟨manifest.trans holds.1.1, texts holds.1.2⟩, ?_⟩
      exact aside_entries _ s t texts shown snapshots manifest holds.2
    refine (triple_writeManifest aside _ fun s holds => left s holds.1.1).bind fun _ => ?_
    refine (ih (fun r listed => spelled r (.tail _ listed)) (entries ++ [stored]) now _).mono ?_ ?_
      fun _ => id
    · rintro s ⟨manifest, earlier, holds, rfl⟩
      refine ⟨?_, holds.1.2, fun e listed => ?_⟩
      · rw [manifest, manifestAfter, if_neg (by simp)]
      · obtain ⟨verified, kept⟩ := holds.2 e listed
        exact ⟨⟨verified.read, verified.shown, verified.same⟩, kept⟩
    · rintro result s ⟨more, inOrder, documents, count, holds⟩
      refine ⟨stored :: more, ?_, ?_, ?_, ?_⟩
      · rw [List.map_cons, inOrder]
      · rw [documents, List.append_assoc]
        rfl
      · rw [List.length_cons]
        split_ifs at count <;> omega
      · rwa [List.append_assoc] at holds

/-! ### Catalogs -/

theorem triple_loadRecord (aside : Aside P) (item : Json) :
    Triple P (c.loadRecord item)
      (fun loaded s => P s ∧ item.item "path" = .ok (.str loaded.1.path) ∧
        item.item "metadata" = .ok loaded.1.metadata ∧ c.validate loaded.1.metadata ≠ none) P := by
  refine (triple_accessed _).bind fun path => ?_
  split
  next path =>
    have more : Aside fun s : Station τ => item.item "path" = .ok (.str path) ∧ P s :=
      fun s t texts shown snapshots manifest holds =>
        ⟨holds.1, aside s t texts shown snapshots manifest holds.2⟩
    refine ((more.ask _).raised fun _ => And.right).bind fun resolved => ?_
    split
    · exact .throw _ fun _ => And.right
    · refine ((triple_accessed _).raised fun _ => And.right).bind fun metadata => ?_
      refine .ite (fun _ => .throw _ fun _ holds => holds.2.2) fun valid => .pure ?_
      exact fun s holds => ⟨holds.2.2, holds.2.1, holds.1, valid⟩
  next => exact .throw _ fun _ => And.right

theorem triple_loadRecords (aside : Aside P) (stems : List String) (items : List Json) :
    Triple P (c.loadRecords stems items)
      (fun records s => P s ∧ List.Forall₂ (fun (item : Json) (record : CatalogRecord) =>
        item.item "path" = .ok (.str record.path) ∧ item.item "metadata" = .ok record.metadata)
        items records ∧ ∀ record ∈ records, c.validate record.metadata ≠ none) P := by
  induction items generalizing stems with
  | nil => exact .pure fun s holds => ⟨holds, .nil, fun _ none => by cases none⟩
  | cons item items ih =>
    refine (triple_loadRecord aside item).bind fun loaded => ?_
    refine .ite (fun _ => .throw _ fun _ => And.left) fun _ => ?_
    -- What is known of the first record does not depend on the state.
    by_cases known : item.item "path" = .ok (.str loaded.1.path) ∧
        item.item "metadata" = .ok loaded.1.metadata ∧ c.validate loaded.1.metadata ≠ none
    case neg => exact fun s holds => absurd holds.2 known
    refine ((ih _).pre fun _ => And.left).bind fun later => .pure ?_
    rintro s ⟨holds, pairs, valid⟩
    refine ⟨holds, .cons ⟨known.1, known.2.1⟩ pairs, fun record listed => ?_⟩
    rcases List.mem_cons.mp listed with rfl | old
    · exact known.2.2
    · exact valid record old

/-- **A catalog is loaded** if it lists records, each with metadata that are valid. -/
theorem triple_loadCatalog (aside : Aside P) (catalog : String) :
    Triple P (c.loadCatalog catalog)
      (fun records s => P s ∧ (∃ text, (catalog, text) ∈ s.texts ∧ ListedIn text records) ∧
        (∀ record ∈ records, c.validate record.metadata ≠ none) ∧ records ≠ []) P := by
  refine (triple_readText aside _).bind fun text => ?_
  have read : Triple (fun s => P s ∧ (catalog, text) ∈ s.texts)
      (Program.ofExcept (readJson text) : Program (Station τ) IngestError Json)
      (fun value s => Json.loads text = some value ∧ P s ∧ (catalog, text) ∈ s.texts) P := by
    refine .ofExcept (fun value ok s before => ⟨?_, before⟩) fun _ => And.left
    unfold readJson at ok
    cases loaded : Json.loads text with
    | none => simp [loaded] at ok
    | some other =>
      rw [loaded] at ok
      exact congrArg some (Except.ok.inj ok)
  refine read.bind fun value => ?_
  refine ((triple_accessed _).raised fun _ holds => holds.2.1).bind fun items => ?_
  -- Reading the records leaves what is known of the catalog as it is.
  have more : Aside fun s : Station τ => value.elements = .ok items ∧
      Json.loads text = some value ∧ P s ∧ (catalog, text) ∈ s.texts :=
    fun s t texts shown snapshots manifest holds => ⟨holds.1, holds.2.1,
      aside s t texts shown snapshots manifest holds.2.2.1, texts holds.2.2.2⟩
  refine ((triple_loadRecords more [] items).raised fun _ holds => holds.2.2.1).bind
    fun records => ?_
  refine .ite (fun _ => .throw _ fun _ holds => holds.1.2.2.1) fun some => .pure ?_
  rintro s ⟨⟨elements, loaded, holds, read⟩, pairs, valid⟩
  exact ⟨holds, ⟨text, read, value, items, loaded, elements, pairs⟩, valid, some⟩

theorem triple_readTexts (aside : Aside P) (records : List CatalogRecord) :
    Triple P (c.readTexts records) (fun _ => P) P := by
  induction records with
  | nil => exact .pure fun _ => id
  | cons record records ih =>
    refine ((triple_readText aside _).mono (fun _ => id) (fun _ _ => And.left) fun _ => id).bind
      fun text => ih.bind fun later => .pure fun _ => id

/-- The metadata of records that were read are spelled. -/
theorem spelled_of_listedIn {text : String} {records : List CatalogRecord}
    (listed : ListedIn text records) : ∀ record ∈ records, Json.Spelled record.metadata := by
  obtain ⟨value, items, loaded, elements, pairs⟩ := listed
  intro record member
  obtain ⟨item, among, path, metadata⟩ := exists_left_of_forall₂ pairs member
  have spelled := Json.spelled_of_elements (Json.spelled_of_loads loaded) elements
  exact Json.spelled_of_item (spelled item among) metadata

/-! ### Ingestions -/

/-- **An ingestion** ends with the manifest that it returns, or leaves one behind that is not
complete if it has changed it at all. -/
theorem triple_ingest (name catalog : String) (before : Option String) :
    Triple (fun s => s.manifest = before) (c.ingest name catalog)
      (fun manifest s => isNamespace name ∧ s.manifest = some (writeJson manifest) ∧
        Json.Spelled manifest ∧ ∃ records entries,
          c.Ingested name catalog manifest records entries s)
      fun s => c.LeftBehind name before s.manifest := by
  have same : ∀ s : Station τ, s.manifest = before → c.LeftBehind name before s.manifest :=
    fun s manifest => .inl manifest
  have aside : Aside fun s : Station τ => s.manifest = before :=
    fun s t _ _ _ manifest holds => manifest.trans holds
  refine .ite (fun _ => .throw _ same) fun named => ?_
  refine ((triple_loadCatalog aside catalog).raised same).bind fun records => ?_
  -- What is known of the records does not depend on the state, so it is taken out of it here.
  by_cases some : records = []
  case pos => exact fun s holds => absurd some holds.2.2.2
  by_cases valid : ∀ record ∈ records, c.validate record.metadata ≠ none
  case neg => exact fun s holds => absurd holds.2.2.1 valid
  by_cases listed : ∃ text, ListedIn text records
  case neg =>
    rintro s ⟨-, ⟨text, -, found⟩, -⟩
    exact absurd ⟨text, found⟩ listed
  have spelled := spelled_of_listedIn listed.choose_spec
  have more : Aside fun s : Station τ => s.manifest = before ∧
      ∃ text, (catalog, text) ∈ s.texts ∧ ListedIn text records := by
    intro s t texts _ _ manifest holds
    obtain ⟨text, read, found⟩ := holds.2
    exact ⟨manifest.trans holds.1, text, texts read, found⟩
  refine ((triple_readTexts more records).mono (fun s holds => ⟨holds.1, holds.2.1⟩)
    (fun _ _ => id) fun s holds => same s holds.1).bind fun texts => ?_
  refine ((more.ask _).raised fun s holds => same s holds.1).bind fun _ => ?_
  have stored : Triple
      (fun s : Station τ => s.manifest = before ∧
        ∃ text, (catalog, text) ∈ s.texts ∧ ListedIn text records)
      (c.storeRecords name (c.target name records texts) [] 0 records)
      (fun result s => ∃ text entries, ListedIn text records ∧
        entries.map Stored.record = records ∧ result.1 = c.documentsOf entries ∧
        result.2 ≤ records.length ∧
        Progress c name (c.target name records texts) before (catalog, text) entries s)
      fun s => c.LeftBehind name before s.manifest := by
    rintro s ⟨manifest, text, read, found⟩
    have loop := triple_storeRecords (c := c) name (c.target name records texts) before
      (catalog, text) records spelled [] (fun _ none => by cases none) 0
    obtain ⟨ends, fails⟩ := loop s ⟨manifest, read, fun _ none => by cases none⟩
    refine ⟨fun result ok => ?_, fails⟩
    obtain ⟨more, inOrder, documents, count, holds⟩ := ends result ok
    exact ⟨text, more, found, inOrder, documents, by omega, holds⟩
  refine stored.bind fun result => ?_
  have aside : Aside fun s : Station τ => ∃ text entries, ListedIn text records ∧
      entries.map Stored.record = records ∧ result.1 = c.documentsOf entries ∧
      result.2 ≤ records.length ∧
      Progress c name (c.target name records texts) before (catalog, text) entries s := by
    rintro s t noted shown snapshots manifest ⟨text, entries, found, inOrder, documents, count,
      holds⟩
    exact ⟨text, entries, found, inOrder, documents, count,
      aside_progress s t noted shown snapshots manifest holds⟩
  have spelledBy (entries : List Stored) (inOrder : entries.map Stored.record = records) :
      ∀ stored ∈ entries, Json.Spelled stored.record.metadata := fun stored among =>
    spelled stored.record (inOrder ▸ List.mem_map_of_mem among)
  -- If the last write fails, the manifest of the loop is left, which is not complete.
  refine (triple_writeManifest aside _ (R := c.LeftBehind name before) ?_).bind fun _ => .pure ?_
  · rintro s ⟨text, entries, -, inOrder, -, -, holds⟩
    rw [holds.manifest]
    exact leftBehind_manifestAfter (spelledBy entries inOrder)
  · rintro s ⟨manifest, earlier, ⟨text, entries, found, inOrder, documents, count, holds⟩, rfl⟩
    have whole : Json.Spelled (.obj result.1) :=
      documents ▸ spelled_documentsOf (spelledBy entries inOrder)
    refine ⟨eq_true_of_ne_false named, manifest, spelled_completeManifest whole, records, entries,
      ?_⟩
    refine ⟨⟨text, holds.read, found⟩, valid, some, inOrder, fun stored among => ?_, ?_⟩
    · obtain ⟨verified, kept⟩ := holds.verified stored among
      exact ⟨⟨verified.read, verified.shown, verified.same⟩, kept⟩
    · exact ⟨_, result.2, count, by rw [documents]⟩

/-! ### Runs -/

/-- What was written is checked as it is. -/
theorem loadManifest_writeJson {name : String} {value : Json} (named : isNamespace name)
    (spelled : Json.Spelled value) :
    c.loadManifest name (some (writeJson value)) = c.checkManifest value := by
  rw [loadManifest, if_neg (by simp [named])]
  rw [readJson_writeJson spelled]
  rfl

theorem eq_of_checkManifest {value manifest : Json}
    (accepted : c.checkManifest value = .ok manifest) :
    manifest = value := by
  unfold checkManifest at accepted
  cases complete : (value.get "complete" .null).mapError IngestError.access with
  | error e => simp [complete, bind, Except.bind] at accepted
  | ok flag =>
    simp only [complete, bind, Except.bind] at accepted
    split_ifs at accepted
    cases found : (value.item "server_url").mapError IngestError.access with
    | error e => simp [found] at accepted
    | ok url =>
      simp only [found] at accepted
      split_ifs at accepted
      exact (Except.ok.inj accepted).symm

/-- A manifest that is not complete is refused. -/
theorem refused_of_unfinished {name target : String} {documents : Dict String Json}
    {manifest : Json} : c.checkManifest (c.unfinishedManifest name target documents) ≠
      .ok manifest := nofun

/-- **What an ingestion returns** is accepted by the next turn. -/
theorem loadManifest_ingest {name catalog : String} {s : Station τ} {manifest : Json}
    (returned : (c.ingest name catalog s).1 = .ok manifest) :
    c.loadManifest name (c.ingest name catalog s).2.manifest = .ok manifest := by
  obtain ⟨named, written, spelled, records, entries, ingested⟩ :=
    (triple_ingest name catalog s.manifest s rfl).1 manifest returned
  obtain ⟨target, reused, -, rfl⟩ := ingested.manifest
  rw [written, loadManifest_writeJson named spelled]
  have complete : (c.completeManifest name target (c.documentsOf entries) reused).get "complete"
    .null = .ok (.bool true) := rfl
  have url : (c.completeManifest name target (c.documentsOf entries) reused).item "server_url" =
    .ok (.str c.url) := rfl
  simp [checkManifest, complete, url, Except.mapError, bind, Except.bind, Json.isTruthy, Json.pyEq,
    Json.scalarEq, pure, Except.pure]

/-- The state after the first ingestions. -/
def after (c : Ingestion τ) (name : String) (s : Station τ) (catalogs : List String) (n : ℕ) :
    Station τ :=
  stateAt (fun s catalog => (c.ingest name catalog s).2) s catalogs n

/-- What is accepted at some point was there from the start, or an ingestion has returned it and no
later one has changed the manifest. -/
theorem served_after {name : String} {s : Station τ} {catalogs : List String} {manifest : Json}
    {m : ℕ} (within : m ≤ catalogs.length)
    (accepted : c.loadManifest name (c.after name s catalogs m).manifest = .ok manifest) :
    (∀ k ≤ m, (c.after name s catalogs k).manifest = s.manifest) ∨
      ∃ n < m, ∃ catalog, catalogs[n]? = some catalog ∧
        (c.ingest name catalog (c.after name s catalogs n)).1 = .ok manifest ∧
        (∃ records entries,
          c.Ingested name catalog manifest records entries (c.after name s catalogs (n + 1))) ∧
        ∀ k, n < k → k ≤ m → (c.after name s catalogs k).manifest = some (writeJson manifest) := by
  induction m with
  | zero =>
    refine .inl fun k small => ?_
    obtain rfl := Nat.le_zero.mp small
    rfl
  | succ m ih =>
    obtain ⟨catalog, here⟩ : ∃ catalog, catalogs[m]? = some catalog :=
      ⟨_, List.getElem?_eq_getElem within⟩
    have next : c.after name s catalogs (m + 1) =
        (c.ingest name catalog (c.after name s catalogs m)).2 := stateAt_succ here
    obtain ⟨ends, fails⟩ := triple_ingest (c := c) name catalog
      (c.after name s catalogs m).manifest (c.after name s catalogs m) rfl
    cases result : (c.ingest name catalog (c.after name s catalogs m)).1 with
    | ok value =>
      obtain ⟨named, written, spelled, ingested⟩ := ends value result
      -- This ingestion has written what is accepted.
      rw [← next] at written ingested
      rw [written, loadManifest_writeJson named spelled] at accepted
      obtain rfl := eq_of_checkManifest accepted
      refine .inr ⟨m, m.lt_succ_self, catalog, here, result, ingested, fun k above below => ?_⟩
      obtain rfl : k = m + 1 := by omega
      exact written
    | error e =>
      have left := fails e result
      rw [← next] at left
      -- The manifest is as it was, because one that was left behind would be refused.
      have same : (c.after name s catalogs (m + 1)).manifest =
          (c.after name s catalogs m).manifest := by
        rcases left with same | ⟨target, documents, spelled, written⟩
        · exact same
        · rw [written] at accepted
          by_cases named : isNamespace name
          · rw [loadManifest_writeJson named (spelled_unfinishedManifest spelled)] at accepted
            exact absurd accepted refused_of_unfinished
          · simp [loadManifest, named] at accepted
      rw [same] at accepted
      rcases ih (Nat.le_of_succ_le within) accepted with untouched | ⟨n, less, rest⟩
      · refine .inl fun k small => ?_
        rcases Nat.le_succ_iff.mp small with below | rfl
        · exact untouched k below
        · rw [same, untouched m le_rfl]
      · obtain ⟨catalog', at', returned, ingested, kept⟩ := rest
        refine .inr ⟨n, less.trans m.lt_succ_self, catalog', at', returned, ingested, ?_⟩
        intro k above below
        rcases Nat.le_succ_iff.mp below with small | rfl
        · exact kept k above small
        · rw [same, kept m less le_rfl]

/-- **What is served.** After any ingestions, each of which may have failed anywhere, a turn accepts
the manifest that was there before all of them, or one that an ingestion has returned at its end,
with an entry for each record of its catalog, and then none of the later ones has changed the
manifest. -/
theorem served_run (c : Ingestion τ) (name : String) (s : Station τ) (catalogs : List String)
    {manifest : Json}
    (accepted : c.loadManifest name (c.runIngests name s catalogs).manifest = .ok manifest) :
    (∀ n ≤ catalogs.length, (c.after name s catalogs n).manifest = s.manifest) ∨
      ∃ n < catalogs.length, ∃ catalog, catalogs[n]? = some catalog ∧
        (c.ingest name catalog (c.after name s catalogs n)).1 = .ok manifest ∧
        (∃ records entries,
          c.Ingested name catalog manifest records entries (c.after name s catalogs (n + 1))) ∧
        ∀ k, n < k → k ≤ catalogs.length →
          (c.after name s catalogs k).manifest = some (writeJson manifest) := by
  have whole : c.after name s catalogs catalogs.length = c.runIngests name s catalogs := by
    rw [after, stateAt, List.take_length]
    rfl
  exact served_after le_rfl (whole ▸ accepted)

/-! ### The ingestion of a guide -/

theorem period_guide : ∀ last ∈ (none : Option Date), (⟨1900, 1, 1⟩ : Date) < last := nofun

theorem numbered_guide : (1 : ℤ) ≤ 1 := le_rfl

/-- The metadata of a guide. -/
def guideMetadata : Metadata where
  docId := "g"
  title := "g"
  source := "g.md"
  period := period_guide
  numbered := numbered_guide

/-- A catalog of the guide alone. -/
def guideCatalog : Json :=
  .arr
    [.obj
      [("path", .str "g.md"),
        ("metadata", .obj
          [("doc_id", .str "g"), ("title", .str "g"), ("source", .str "g.md")])]]

/-- A server that shows the guide, and a second catalog that is not there. -/
def guideHost : Host Unit where
  readText path :=
    if path = "catalog.json" then pure (writeJson guideCatalog)
    else if path = "g.md" then pure "text"
    else throw (.file path)
  resolve path := pure (some path)
  write := pure ()
  torn _ := ""
  lock := pure ()
  read _ _ := pure (.str "text")
  upload path := throw (.file path)
  addResource _ path := throw (.file path)
  ls _ := pure (.arr [])

/-- The ingestion of the guide. -/
def guideIngestion : Ingestion Unit where
  digest := id
  str _ := "\x7b'doc_id': 'g', 'title': 'g', 'source': 'g.md'\x7d"
  validate _ := some guideMetadata
  root := "/day02"
  url := "http://127.0.0.1:19350"
  host := guideHost

/-- The catalogs of two ingestions, the second of which fails. -/
def guideCatalogs : List String := ["catalog.json", "absent.json"]

/-- The manifest of the first of them. -/
def guideManifest : Json :=
  (guideIngestion.ingest "business" "catalog.json" { outside := () }).1.toOption.getD .null

theorem eq_ok_of_isSome {ε α : Type} {x : Except ε α} (d : α) (some : x.toOption.isSome) :
    x = .ok (x.toOption.getD d) := by
  cases x with
  | error e => cases some
  | ok a => rfl

theorem accepted_guide :
    guideIngestion.loadManifest "business"
      (guideIngestion.runIngests "business" { outside := () } guideCatalogs).manifest =
        .ok guideManifest := by
  have later (s : Station Unit) :
    (guideIngestion.ingest "business" "absent.json" s).2.manifest = s.manifest := rfl
  refine (congrArg _ (later _)).trans (loadManifest_ingest ?_)
  unfold guideManifest
  exact eq_ok_of_isSome _ (by decide +kernel)

theorem served_run_guide :
    (∀ n ≤ guideCatalogs.length,
      (guideIngestion.after "business" { outside := () } guideCatalogs n).manifest = none) ∨
      ∃ n < guideCatalogs.length, ∃ catalog, guideCatalogs[n]? = some catalog ∧
        (guideIngestion.ingest "business" catalog
          (guideIngestion.after "business" { outside := () } guideCatalogs n)).1 =
            .ok guideManifest ∧
        (∃ records entries, guideIngestion.Ingested "business" catalog guideManifest records entries
          (guideIngestion.after "business" { outside := () } guideCatalogs (n + 1))) ∧
        ∀ k, n < k → k ≤ guideCatalogs.length →
          (guideIngestion.after "business" { outside := () } guideCatalogs k).manifest =
            some (writeJson guideManifest) :=
  guideIngestion.served_run "business" { outside := () } guideCatalogs accepted_guide

end Ingestion

end AgentLabs.Retrieval
