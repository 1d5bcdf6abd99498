import AgentLabs.Rag.Registry

/-!
# Ingesting one web source

`Ingestion.store` reserves a document under the canonical form of a url. Unless the
document is reused or waits for another worker, it writes the text to the document's
file, records the stages, and publishes the file; the document ends ready, or failed
if anything raised.

What the url's canonical form is, and whether the budget, the file system and the
backend raise, are inputs.

## Main definitions

* `StoreCall`, `StoreEnd`: a call with all it depends on, and how it ends
* `Library`: the registry and the files it refers to
* `Library.ingest`, `Library.store`: the part inside the `try`, and the whole call

## Main results

* `Library.ingest_cases`: a document that is ingested ends ready or failed
-/

namespace AgentLabs.Rag

open Math Text

/-- A call of `store`: the item, the instants that are read, and what the budget, the
file system and the backend answer. A write that raises may have left other text. -/
structure StoreCall where
  url : String
  text : String
  extra : Dict String Json := []
  now : ℕ → ℕ
  consume : Except String Unit
  write : Except (String × Option String) Unit
  publish : Except String String

/-- How a call ends. -/
inductive StoreEnd where
  | rejected
  | reused
  | pending
  | ready
  | failed
  deriving DecidableEq, Repr

/-- The url got an answer for its text. -/
def StoreEnd.Answers (ending : StoreEnd) : Prop := ending = .ready ∨ ending = .reused

instance : DecidablePred StoreEnd.Answers := fun _ => inferInstanceAs (Decidable (_ ∨ _))

namespace StoreCall

/-- The metadata of the row. -/
def metadata (digest : String → String) (c : StoreCall) : Json :=
  .obj (Dict.setAll (("url", .str c.url) :: c.extra)
    [("source_type", .str "web"), ("policy_status", .str "validated"),
      ("content_hash", .str (digest c.text)), ("representation", .str "exa_text"),
      ("text_limit_characters", .int 18000)])

/-- Nothing raises: the document is published. -/
def Publishes (c : StoreCall) : Prop :=
  c.consume = .ok () ∧ c.write = .ok () ∧ ∃ uri, c.publish = .ok uri

end StoreCall

/-- `root / (id + ".md")`. -/
def sourcePath (root id : String) : String := root ++ "/" ++ id ++ ".md"

/-- The registry and the files, by path. -/
structure Library (digest : String → String) where
  registry : Registry digest
  files : Dict String String := []

namespace Library

variable {digest : String → String}

/-- `registry.update`. An exception leaves the registry as it is. -/
def update (lib : Library digest) (id : String) (state : DocState) (uri error : Option String)
    (now later : ℕ) : Library digest :=
  { lib with registry := (lib.registry.update id state uri error now later).getD lib.registry }

/-- The text of the file at the path. -/
def write (lib : Library digest) (path text : String) : Library digest :=
  { lib with files := lib.files.set path text }

/-- The handler of the `try`: the document failed. -/
def fail (lib : Library digest) (id error : String) (c : StoreCall) : StoreEnd × Library digest :=
  (.failed, lib.update id .failed none (some error) (c.now 6) (c.now 7))

/-- The body of the `try`, on the row of a document that was just reserved. -/
def ingest (lib : Library digest) (row : Document) (c : StoreCall) : StoreEnd × Library digest :=
  match c.consume, c.write with
  | .error e, _ => lib.fail row.id e c
  | .ok _, .error (e, none) => lib.fail row.id e c
  | .ok _, .error (e, some left) => (lib.write row.path left).fail row.id e c
  | .ok _, .ok _ =>
    let lib := lib.write row.path c.text
    let lib := lib.update row.id .stored none none (c.now 2) (c.now 3)
    let lib := lib.update row.id .indexing none none (c.now 4) (c.now 5)
    match c.publish with
    | .error e => lib.fail row.id e c
    | .ok uri => (.ready, lib.update row.id .ready (some uri) none (c.now 6) (c.now 7))

/-- `Ingestion.store`. -/
def store (canonical : String → Option String) (root : String) (lib : Library digest)
    (c : StoreCall) : StoreEnd × Library digest :=
  match canonical c.url with
  | none => (.rejected, lib)
  | some url =>
    let path := sourcePath root (docId digest url (digest c.text))
    let ((id, action), registry) :=
      lib.registry.reserve url c.text (c.metadata digest) path .web (c.now 0) (c.now 1)
    let lib := { lib with registry }
    match action with
    | .reused => (.reused, lib)
    | .pending => (.pending, lib)
    | .new | .resumed =>
      match registry.get id with
      | none => (.failed, lib)
      | some row => lib.ingest row c

end Library

/-! ### One ingestion -/

/-- The same document, as far as its name, its kind and its file go. -/
structure Document.Continues (old new : Document) : Prop where
  id_eq : new.id = old.id
  url_eq : new.url = old.url
  hash_eq : new.hash = old.hash
  kind_eq : new.kind = old.kind
  path_eq : new.path = old.path

theorem Document.Continues.refl (row : Document) : row.Continues row := ⟨rfl, rfl, rfl, rfl, rfl⟩

theorem Document.Continues.trans {a b c : Document} (h : a.Continues b) (h' : b.Continues c) :
    a.Continues c :=
  ⟨h'.id_eq.trans h.id_eq, h'.url_eq.trans h.url_eq, h'.hash_eq.trans h.hash_eq,
    h'.kind_eq.trans h.kind_eq, h'.path_eq.trans h.path_eq⟩

namespace Library

variable {digest : String → String} {lib : Library digest} {row mid new : Document}
  {id : String}

/-- The row of one document changes; what names it and all other rows stay. -/
structure Moves (r r' : Registry digest) (id : String) (row new : Document) : Prop where
  moved : r'.get id = some new
  continues : row.Continues new
  others : ∀ {id'}, id' ≠ id → r'.get id' = r.get id'

theorem Moves.trans {r r' r'' : Registry digest} (h : Moves r r' id row mid)
    (h' : Moves r' r'' id mid new) : Moves r r'' id row new where
  moved := h'.moved
  continues := h.continues.trans h'.continues
  others other := (h'.others other).trans (h.others other)

section

variable (state : DocState) (uri error : Option String) (now later : ℕ)

/-- An update moves its document. -/
theorem moves_update (found : lib.registry.get id = some row) :
    Moves lib.registry (lib.update id state uri error now later).registry id row
      (Registry.advance state uri error now later row) := by
  obtain ⟨r, done⟩ := Registry.exists_update found state uri error now later
  have get := (Registry.update_eq_some done).1
  simp only [update, done, Option.getD_some]
  constructor
  · rw [get, if_pos rfl, found, Option.map_some]
  · exact ⟨rfl, rfl, rfl, rfl, rfl⟩
  · exact fun {id'} other => by rw [get, if_neg other]

theorem heads_update (found : lib.registry.get id = some row) (web : row.kind = .web) :
    (lib.update id state uri error now later).registry.heads =
      if state = .ready then lib.registry.heads.set row.url (id, later)
      else lib.registry.heads := by
  obtain ⟨r, done⟩ := Registry.exists_update found state uri error now later
  simp only [update, done, Option.getD_some]
  rcases (Registry.update_eq_some done).2 with ⟨other, same⟩ | ⟨ready, stored, found', set⟩
  · rw [same, if_neg other]
  · obtain rfl := Option.some.inj (found.symm.trans found')
    rw [set, if_pos web, if_pos ready]

end

/-- **An ingestion** that nothing interrupts leaves the document ready, its text in its
file, and the document the head of its own url. Any other leaves it failed, and at most
its file changed. -/
theorem ingest_cases {c : StoreCall} (found : lib.registry.get row.id = some row)
    (web : row.kind = .web) :
    (c.Publishes ∧ (lib.ingest row c).1 = .ready ∧
      (∃ new, Moves lib.registry (lib.ingest row c).2.registry row.id row new ∧
        new.state = .ready ∧ new.lease = 0) ∧
      (lib.ingest row c).2.registry.heads = lib.registry.heads.set row.url (row.id, c.now 7) ∧
      (lib.ingest row c).2.files = lib.files.set row.path c.text) ∨
    (¬ c.Publishes ∧ (lib.ingest row c).1 = .failed ∧
      (∃ new, Moves lib.registry (lib.ingest row c).2.registry row.id row new ∧
        new.state = .failed ∧ new.lease = 0) ∧
      (lib.ingest row c).2.registry.heads = lib.registry.heads ∧
      ∀ {path}, path ≠ row.path → (lib.ingest row c).2.files.get? path = lib.files.get? path) := by
  unfold ingest StoreCall.Publishes
  rcases c.consume with e | ⟨⟨⟩⟩
  · refine .inr ⟨by simp, rfl, ⟨_, moves_update _ _ _ _ _ found, rfl, rfl⟩, ?_, fun _ => rfl⟩
    exact (heads_update _ _ _ _ _ found web).trans (if_neg (by decide))
  rcases c.write with ⟨e, _ | left⟩ | ⟨⟨⟩⟩
  · refine .inr ⟨by simp, rfl, ⟨_, moves_update _ _ _ _ _ found, rfl, rfl⟩, ?_, fun _ => rfl⟩
    exact (heads_update _ _ _ _ _ found web).trans (if_neg (by decide))
  · have kept : (lib.write row.path left).registry.get row.id = some row := found
    refine .inr ⟨by simp, rfl, ⟨_, moves_update _ _ _ _ _ kept, rfl, rfl⟩,
      ?_, fun other => Dict.get?_set_of_ne other.symm⟩
    exact (heads_update _ _ _ _ _ kept web).trans (if_neg (by decide))
  -- The stages move the document twice before the backend answers.
  have written : (lib.write row.path c.text).registry.get row.id = some row := found
  have stored := moves_update .stored none none (c.now 2) (c.now 3) written
  have indexing := moves_update .indexing none none (c.now 4) (c.now 5) stored.moved
  have staged := stored.trans indexing
  have webStored := stored.continues.kind_eq.trans web
  have webStaged := staged.continues.kind_eq.trans web
  have headsStored := (heads_update .stored none none (c.now 2) (c.now 3) written web).trans
    (if_neg (by decide))
  have headsStaged := ((heads_update .indexing none none (c.now 4) (c.now 5) stored.moved
    webStored).trans (if_neg (by decide))).trans headsStored
  rcases c.publish with e | uri
  · refine .inr ⟨by simp, rfl, ⟨_, staged.trans (moves_update _ _ _ _ _ staged.moved), rfl, rfl⟩,
      ?_, fun other => Dict.get?_set_of_ne other.symm⟩
    exact ((heads_update _ _ _ _ _ staged.moved webStaged).trans (if_neg (by decide))).trans
      headsStaged
  · refine .inl ⟨by simp, rfl, ⟨_, staged.trans (moves_update _ _ _ _ _ staged.moved), rfl, rfl⟩,
      ?_, rfl⟩
    refine ((heads_update _ _ _ _ _ staged.moved webStaged).trans (if_pos rfl)).trans ?_
    rw [headsStaged, staged.continues.url_eq]
    rfl

end Library

end AgentLabs.Rag
