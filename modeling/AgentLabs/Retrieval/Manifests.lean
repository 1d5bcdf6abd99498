import AgentLabs.Math.Fallible
import AgentLabs.Math.Run
import AgentLabs.Math.Triple
import AgentLabs.Retrieval.Evidence
import AgentLabs.Text.JsonReread

/-!
# Manifests

A catalog is ingested: each of its documents is uploaded, unless the server shows it already, and
what the server shows is read back and compared. After every document the manifest is written with
what has been done so far, and it is marked as complete only at the end. A turn loads the manifest
before it searches, and refuses one that is not complete or was made for another server.

The files and the server are the outside. They may answer anything and may fail at any call, and
then the ingestion ends where it is. The texts that were read and the contents that the server
showed are noted beside the state.

## Main definitions

* `Host`, `Station`: the files and the server, and what was written and noted
* `Ingestion.ingest`: the ingestion of a catalog
* `Ingestion.loadManifest`: what a turn accepts

## Main results

* `readJson_writeJson`: a file that was written is read back
-/

namespace AgentLabs.Retrieval

open Math Text Program

/-! ### Catalogs and paths -/

/-- `path.stem`. -/
def pathStem (path : String) : String :=
  let name := (pathName path).toList
  let suffix := name.rtakeWhile (· ≠ '.')
  let stem := (name.take (name.length - suffix.length)).dropLast
  if suffix.length < name.length ∧ suffix ≠ [] ∧ stem ≠ [] then .ofList stem else .ofList name

/-- A record of a catalog that was read. -/
structure CatalogRecord where
  path : String
  metadata : Json

/-- What an ingestion fails with. -/
inductive IngestError where
  | configuration (message : String)
  | service (message : String) (statusCode : Option ℕ := none)
  | access (error : AccessError)
  | validation
  | value
  | file (message : String)
  deriving DecidableEq, Repr

/-- `read_json`, of a text. -/
def readJson (text : String) : Except IngestError Json := (Json.loads text).elim (.error .value) .ok

/-- What `write_json` writes. -/
def writeJson (value : Json) : String := Json.dumpIndented value ++ "\n"

theorem readJson_writeJson {value : Json} (spelled : Json.Spelled value) :
    readJson (writeJson value) = .ok value := by
  have newline : writeJson value = .ofList (Json.write (some 2) 0 value ++ ['\n']) := by
    simp [writeJson, Json.dumpIndented, String.ofList_append]
  have closes : Json.Closes ['\n'] := by
    intro c first
    obtain rfl : '\n' = c := by simpa using first
    exact .inr (.inr (.inr rfl))
  rw [readJson, newline, Json.loads_write (some 2) spelled closes (by decide)]
  rfl

/-- `namespace`, of which a name is made. -/
def isNamespace (name : String) : Bool :=
  name ≠ "" && name.toList.all fun c => "abcdefghijklmnopqrstuvwxyz0123456789-_".toList.contains c

/-! ### The outside -/

/-- The files and the server: a text, the file that a path leads to if it is one of the project, the
writing of a file, what a file has in it when the writing fails, the lock of the manifest, and the
requests of the client. -/
structure Host (τ : Type) where
  readText : String → Program τ IngestError String
  resolve : String → Program τ IngestError (Option String)
  write : Program τ IngestError Unit
  torn : τ → String
  lock : Program τ IngestError Unit
  read : String → ℕ → Program τ IngestError Json
  upload : String → Program τ IngestError Json
  addResource : Json → String → Program τ IngestError Json
  ls : Json → Program τ IngestError Json

/-- The manifest and the snapshots that were written, the texts that were read, what the server
showed, and how many documents were uploaded. -/
structure Station (τ : Type) where
  manifest : Option String := none
  snapshots : Dict String String := []
  texts : List (String × String) := []
  shown : List (String × String) := []
  uploads : ℕ := 0
  outside : τ

/-- An ingestion: the digest, `str` of a value, the check of metadata, the root of the project, the
address of the server, and the outside. -/
structure Ingestion (τ : Type) where
  digest : String → String
  str : Json → String
  validate : Json → Option Metadata
  root : String
  url : String
  host : Host τ

/-- A document that has been ingested: its record, where the server has it, its text, and what the
server showed. -/
structure Stored where
  record : CatalogRecord
  leaf : String
  raw : String
  remote : String

/-- `uri.endswith(".md")`, and its name does not start with a dot. -/
def isLeafUri (uri : String) : Bool :=
  ".md".toList.isSuffixOf uri.toList && (uri.toList.rtakeWhile (· ≠ '/')).head? ≠ some '.'

/-- The uri of an entry of a listing, if it is a leaf. -/
def leafOf? : Json → Except AccessError (Option String)
  | .obj fields =>
    match (Dict.get? fields "uri").getD (.str "") with
    | .str uri => .ok (if isLeafUri uri then some uri else none)
    | _ => .error .attributeError
  | _ => .ok none

/-- The leaves of a listing. -/
def leavesOf (entries : Json) : Except AccessError (List String) := do
  let entries ← entries.elements
  return (← entries.mapM leafOf?).reduceOption

/-- `result if isinstance(result, str) else result["content"]`. -/
def contentOf : Json → Except AccessError Json
  | .str text => .ok (.str text)
  | other => other.item "content"

namespace Ingestion

variable {τ α : Type} (c : Ingestion τ)

/-- A call of the outside. -/
def ask (m : Program τ IngestError α) : Program (Station τ) IngestError α :=
  Program.within Station.outside (fun s outside => { s with outside }) m

/-- A value that may be missing or of another shape. -/
def accessed (x : Except AccessError α) : Program (Station τ) IngestError α :=
  Program.ofExcept (x.mapError .access)

/-- The text of a file, noted when it is read. -/
def readText (path : String) : Program (Station τ) IngestError String := do
  let text ← ask (c.host.readText path)
  change fun s => { s with texts := s.texts ++ [(path, text)] }
  return text

/-! ### Catalogs -/

/-- A record is checked: it is that of a file of the project, with metadata that are valid. -/
def loadRecord (record : Json) : Program (Station τ) IngestError (CatalogRecord × String) := do
  let path ← accessed (record.item "path")
  match path with
  | .str path => do
    let resolved ← ask (c.host.resolve path)
    match resolved with
    -- The path leads out of the project, or to no file.
    | none => throw (.configuration "catalog 문서 경로는 Day02 내부의 실제 파일이어야 합니다.")
    | some resolved => do
      let metadata ← accessed (record.item "metadata")
      if c.validate metadata = none then throw .validation
      else return (⟨path, metadata⟩, pathStem resolved)
  | _ => throw (.access .typeError)

/-- The loop of `load_catalog`. -/
def loadRecords (stems : List String) :
    List Json → Program (Station τ) IngestError (List CatalogRecord)
  | [] => return []
  | record :: rest => do
    let loaded ← c.loadRecord record
    -- The stem names the folder on the server.
    if loaded.2 ∈ stems then
      throw (.configuration "한 catalog의 문서 파일명(stem)은 서로 달라야 합니다.")
    else do
      let later ← loadRecords (loaded.2 :: stems) rest
      return loaded.1 :: later

/-- `load_catalog`. -/
def loadCatalog (catalog : String) : Program (Station τ) IngestError (List CatalogRecord) := do
  let text ← c.readText catalog
  let value ← Program.ofExcept (readJson text)
  let records ← accessed value.elements
  let records ← c.loadRecords [] records
  if records = [] then throw (.configuration "빈 catalog는 적재할 수 없습니다.")
  else return records

/-! ### Documents -/

/-- `client.read`. What it shows is noted if it is a text. -/
def readRemote (uri : String) (limit : ℕ) : Program (Station τ) IngestError Json := do
  let result ← ask (c.host.read uri limit)
  let content ← accessed (contentOf result)
  change fun s => { s with shown := s.shown ++ (content.asStr?.map fun text => (uri, text)).toList }
  return content

/-- `client.read`, where a document that the server does not know is `None`. -/
def readExisting (uri : String) (limit : ℕ) : Program (Station τ) IngestError Json :=
  tryCatch (c.readRemote uri limit) fun
    | .service _ (some 404) => return .null
    | e => throw e

/-- `client.add_file`. -/
def addFile (path target : String) : Program (Station τ) IngestError Json := do
  change fun s => { s with uploads := s.uploads + 1 }
  let uploaded ← ask (c.host.upload path)
  let file ← accessed (uploaded.item "temp_file_id")
  ask (c.host.addResource file target)

/-- `client.ls`. -/
def ls (uri : Json) : Program (Station τ) IngestError Json := do
  let result ← ask (c.host.ls uri)
  match result with
  | .obj fields =>
    return (Dict.get? fields "entries").getD ((Dict.get? fields "files").getD (.arr []))
  | other => return other

/-- `max(1000, len(raw.splitlines()) + 10)`. -/
def readLimit (raw : String) : ℕ := max 1000 ((splitLines raw.toList).length + 10)

/-- A document is uploaded, and what the server shows of it is compared. -/
def uploadRecord (record : CatalogRecord) (requested raw : String) :
    Program (Station τ) IngestError Stored := do
  let result ← c.addFile record.path requested
  let uri ← accessed (result.get "root_uri" (.str requested))
  let entries ← c.ls uri
  let leaves ← accessed (leavesOf entries)
  match leaves with
  | [leaf] => do
    let remote ← c.readRemote leaf (readLimit raw)
    match remote with
    | .str remote =>
      if strip remote ≠ strip raw then
        throw (.service ("적재 원문과 서버 원문이 다릅니다: " ++ leaf))
      else return ⟨record, leaf, raw, remote⟩
    | _ => throw (.access .attributeError)
  -- The server has stored nothing, or it has split the text into several documents.
  | _ => throw (.service ("적재 후 원문 leaf가 하나가 아닙니다: " ++ requested))

/-- A document is reused if the server shows it, and uploaded if not. -/
def storeRecord (target : String) (record : CatalogRecord) :
    Program (Station τ) IngestError (Stored × Bool) := do
  let requested := target ++ "/" ++ pathStem record.path
  let leaf := requested ++ "/" ++ pathName record.path
  let raw ← c.readText record.path
  let remote ← c.readExisting leaf (readLimit raw)
  match remote with
  | .null => do
    let stored ← c.uploadRecord record requested raw
    return (stored, false)
  | .str remote =>
    -- What the server has under this name may be another text.
    if strip remote = strip raw then return (⟨record, leaf, raw, remote⟩, true)
    else do
      let stored ← c.uploadRecord record requested raw
      return (stored, false)
  | _ => throw (.access .attributeError)

/-- The path of the snapshot of a text. -/
def snapshotPath (remote : String) : String :=
  c.root ++ "/outputs/source-cache/" ++ c.digest remote ++ ".md"

/-- The snapshot is written in place, so a writing that fails leaves something else. -/
def keepSnapshot (remote : String) : Program (Station τ) IngestError Unit := do
  tryCatch (ask c.host.write) fun e => do
    change fun s =>
      { s with snapshots := s.snapshots.set (c.snapshotPath remote) (c.host.torn s.outside) }
    throw e
  change fun s => { s with snapshots := s.snapshots.set (c.snapshotPath remote) remote }

/-- The entry of a document in the manifest. -/
def entry (stored : Stored) : Json :=
  .obj
    [("metadata", stored.record.metadata), ("source_hash", .str (c.digest stored.raw)),
      ("remote_hash", .str (c.digest stored.remote)),
      ("line_count", .int (splitLines stored.remote.toList).length),
      ("snapshot", .str (c.snapshotPath stored.remote))]

/-! ### Manifests -/

/-- The manifest of what has been done so far. -/
def unfinishedManifest (name target : String) (documents : Dict String Json) : Json :=
  .obj
    [("namespace", .str name), ("server_url", .str c.url), ("target_uri", .str target),
      ("complete", .bool false), ("documents", .obj documents)]

/-- The manifest at the end. -/
def completeManifest (name target : String) (documents : Dict String Json) (reused : ℕ) : Json :=
  .obj
    [("namespace", .str name), ("server_url", .str c.url), ("target_uri", .str target),
      ("complete", .bool true), ("documents", .obj documents), ("reused", .int reused)]

/-- `write_json`, which replaces the manifest at once or not at all. -/
def writeManifest (value : Json) : Program (Station τ) IngestError Unit := do
  ask c.host.write
  change fun s => { s with manifest := some (writeJson value) }

/-- The loop of `ingest`. -/
def storeRecords (name target : String) (documents : Dict String Json) (reused : ℕ) :
    List CatalogRecord → Program (Station τ) IngestError (Dict String Json × ℕ)
  | [] => return (documents, reused)
  | record :: rest => do
    let stored ← c.storeRecord target record
    c.keepSnapshot stored.1.remote
    let documents := documents.set stored.1.leaf (c.entry stored.1)
    -- A run that stops here leaves a manifest of what it has done, which is not complete.
    c.writeManifest (c.unfinishedManifest name target documents)
    storeRecords name target documents (if stored.2 then reused + 1 else reused) rest

/-- `viking://resources/day02-{namespace}-{fingerprint}`. -/
def target (name : String) (records : List CatalogRecord) (texts : List String) : String :=
  let parts := (texts.zip records).map fun part => part.1 ++ c.str part.2.metadata
  let fingerprint := (c.digest ("\n".intercalate parts)).toList.take 16
  "viking://resources/day02-" ++ name ++ "-" ++ .ofList fingerprint

/-- The texts of the records. -/
def readTexts : List CatalogRecord → Program (Station τ) IngestError (List String)
  | [] => return []
  | record :: rest => do
    let text ← c.readText record.path
    let later ← readTexts rest
    return text :: later

/-- `ingest`. -/
def ingest (name catalog : String) : Program (Station τ) IngestError Json :=
  if isNamespace name = false then
    throw (.configuration "namespace에는 영문 소문자, 숫자, -와 _만 사용하세요.")
  else do
    let records ← c.loadCatalog catalog
    let texts ← c.readTexts records
    let target := c.target name records texts
    -- Raises where another ingestion holds the lock for too long.
    ask c.host.lock
    let stored ← c.storeRecords name target [] 0 records
    let manifest := c.completeManifest name target stored.1 stored.2
    c.writeManifest manifest
    return manifest

/-- A manifest is refused if it is not complete or was made for another server. -/
def checkManifest (manifest : Json) : Except IngestError Json := do
  let refusal : IngestError :=
    .configuration "manifest의 적재 상태/서버 주소가 현재 연결과 다릅니다. 재적재하세요."
  let complete ← (manifest.get "complete" .null).mapError .access
  if complete.isTruthy = false then throw refusal
  else
    let url ← (manifest.item "server_url").mapError .access
    if Json.pyEq url (.str c.url) = false then throw refusal else return manifest

/-- `load_manifest`. -/
def loadManifest (name : String) (file : Option String) : Except IngestError Json :=
  if isNamespace name = false then .error (.configuration "잘못된 namespace입니다.")
  else
    match file with
    | none =>
      .error (.configuration (name ++ " manifest가 없습니다. 먼저 day02 ingest를 실행하세요."))
    | some text => readJson text >>= c.checkManifest

/-- The state after some ingestions under one name, each of which may have failed. -/
def runIngests (name : String) (s : Station τ) (catalogs : List String) : Station τ :=
  catalogs.foldl (fun s catalog => (c.ingest name catalog s).2) s

end Ingestion

end AgentLabs.Retrieval
