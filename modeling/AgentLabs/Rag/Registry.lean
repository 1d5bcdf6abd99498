import AgentLabs.Math.Dict
import AgentLabs.Math.EventLog
import AgentLabs.Math.Table
import AgentLabs.Text.Json
import Mathlib.Data.List.MinMax

/-!
# The source registry

The registry is a database of documents. A document is known by an id made of its
url and the digest of its text; its row says how far its ingestion got and until
when it is let to a worker. Urls under which the same text was offered are aliases
of one web document, and each url has a head, the document that answers for it.

The digest of a text is a parameter, and instants are natural numbers in
microseconds. Conversations, which share the database file, are left out.

## Main definitions

* `Document`, `Registry`: the rows, and the tables with what their ids are made of
* `Registry.reserve`, `Registry.update`: the two transactions

## Main results

* `Registry.reserve_cases`: the four answers of a reservation and what each writes
* `Registry.update_eq_some`: what an update writes
-/

namespace AgentLabs.Rag

open Math Text

/-- How far the ingestion of a document got. -/
inductive DocState where
  | validated
  | stored
  | indexing
  | ready
  | failed
  deriving DecidableEq, Repr

/-- Where a document comes from. -/
inductive Kind where
  | web
  | internal
  deriving DecidableEq, Repr

/-- The answers of a reservation. -/
inductive Disposition where
  | new
  | reused
  | pending
  | resumed
  deriving DecidableEq, Repr

/-- A row of `documents`. -/
structure Document where
  id : String
  url : String
  hash : String
  kind : Kind
  state : DocState
  uri : Option String
  path : String
  metadata : Json
  error : Option String
  lease : ℕ
  updated : ℕ

/-- The length of a lease: 300 seconds. -/
def leaseTime : ℕ := 300000000

/-- `digest(url + "\n" + h)[:24]`. -/
def docId (digest : String → String) (url hash : String) : String :=
  String.ofList ((digest (url ++ "\n" ++ hash)).toList.take 24)

/-- The tables. Every document has the id its url and digest make, so no two rows
have one url and one digest. -/
structure Registry (digest : String → String) where
  documents : Table Document.id
  aliases : List (String × String) := []
  heads : Dict String (String × ℕ) := []
  named : ∀ row ∈ documents.rows, row.id = docId digest row.url row.hash

namespace Registry

variable {digest : String → String}

/-- A new database. -/
def empty : Registry digest := { documents := Table.empty, named := nofun }

/-! ### The transactions -/

/-- Rewrite the row of an id. What names the document stays. -/
def rewrite (r : Registry digest) (id : String) (f : Document → Document)
    (keeps : ∀ row, (f row).id = row.id ∧ (f row).url = row.url ∧ (f row).hash = row.hash) :
    Registry digest :=
  { r with
    documents := r.documents.update id f fun row => (keeps row).1
    named := by
      intro row member
      obtain ⟨old, stored, rfl⟩ := List.mem_map.mp member
      split_ifs
      · rw [(keeps old).1, (keeps old).2.1, (keeps old).2.2, r.named old stored]
      · exact r.named old stored }

/-- Insert a row; nothing happens where its id is in use. -/
def add (r : Registry digest) (row : Document) (named : row.id = docId digest row.url row.hash) :
    Registry digest :=
  match inserted : r.documents.insert? row with
  | none => r
  | some documents =>
    { r with
      documents
      named := by
        rw [(Table.insert?_eq_some_iff.mp inserted).2]
        intro other member
        rcases List.mem_append.mp member with old | new
        · exact r.named other old
        · exact List.mem_singleton.mp new ▸ named }

/-- `INSERT OR IGNORE INTO aliases`. -/
def addAlias (r : Registry digest) (url id : String) : Registry digest :=
  { r with aliases := putAbsent r.aliases (url, id) }

/-- `INSERT OR REPLACE INTO heads`. -/
def setHead (r : Registry digest) (url id : String) (checkedAt : ℕ) : Registry digest :=
  { r with heads := r.heads.set url (id, checkedAt) }

/-- The row of an id. -/
def get (r : Registry digest) (id : String) : Option Document := r.documents.find? id

/-- The web document with the digest that was updated last. -/
def duplicate (r : Registry digest) (hash : String) : Option Document :=
  (r.documents.rows.filter fun row => row.hash = hash ∧ row.kind = .web).argmax Document.updated

/-- Let a document that is not ready, unless its lease still runs. -/
def letAgain (r : Registry digest) (row : Document) (now later : ℕ) :
    (String × Disposition) × Registry digest :=
  if row.lease > now then ((row.id, .pending), r)
  else
    ((row.id, .resumed),
      r.rewrite row.id (fun row => { row with lease := later + leaseTime, error := none })
        fun _ => ⟨rfl, rfl, rfl⟩)

/-- The row of a new document, let to whoever reserved it. -/
def newRow (digest : String → String) (url text : String) (metadata : Json) (path : String)
    (kind : Kind) (now later : ℕ) : Document where
  id := docId digest url (digest text)
  url := url
  hash := digest text
  kind := kind
  state := .validated
  uri := none
  path := path
  metadata := metadata
  error := none
  lease := now + leaseTime
  updated := later

theorem named_newRow {url text : String} {metadata : Json} {path : String} {kind : Kind}
    {now later : ℕ} :
    (newRow digest url text metadata path kind now later).id =
      docId digest (newRow digest url text metadata path kind now later).url
        (newRow digest url text metadata path kind now later).hash := rfl

/-- `Registry.reserve`. The clock is read at most twice. -/
def reserve (r : Registry digest) (url text : String) (metadata : Json) (path : String)
    (kind : Kind) (now later : ℕ) : (String × Disposition) × Registry digest :=
  let h := digest text
  let identity := docId digest url h
  match if kind = .web then r.duplicate h else none with
  | some row =>
    let r := r.addAlias url row.id
    if row.state = .ready then ((row.id, .reused), r.setHead url row.id now)
    else r.letAgain row now later
  | none =>
    match r.get identity with
    | some row =>
      if row.state = .ready then ((identity, .reused), r)
      else r.letAgain row now later
    | none =>
      ((identity, .new),
        (r.add (newRow digest url text metadata path kind now later) named_newRow).addAlias url
        identity)

/-- The lease an update sets: none once the document is ready or failed. -/
def leaseAfter (state : DocState) (later : ℕ) : ℕ :=
  if state = .ready ∨ state = .failed then 0 else later + leaseTime

/-- The row that an update writes over a row. -/
def advance (state : DocState) (uri error : Option String) (now later : ℕ) (row : Document) :
    Document :=
  { row with state, uri := uri.or row.uri, error, updated := now, lease := leaseAfter state later }

/-- `Registry.update`; `none` stands for the exception on a missing row. The clock is
read twice. -/
def update (r : Registry digest) (id : String) (state : DocState) (uri error : Option String)
    (now later : ℕ) : Option (Registry digest) :=
  let r := r.rewrite id (advance state uri error now later) fun _ => ⟨rfl, rfl, rfl⟩
  if state = .ready then
    match r.get id with
    | none => none
    | some row => some (if row.kind = .web then r.setHead row.url id later else r)
  else some r

/-! ### What the parts of a transaction write -/

section

variable {r : Registry digest} {row : Document} {id id' url hash : String} {now later : ℕ}
  {f : Document → Document}
  {keeps : ∀ row, (f row).id = row.id ∧ (f row).url = row.url ∧ (f row).hash = row.hash}

@[simp] theorem documents_addAlias : (r.addAlias url id).documents = r.documents := rfl

@[simp] theorem heads_addAlias : (r.addAlias url id).heads = r.heads := rfl

@[simp] theorem documents_setHead : (r.setHead url id now).documents = r.documents := rfl

@[simp] theorem heads_setHead : (r.setHead url id now).heads = r.heads.set url (id, now) := rfl

@[simp] theorem heads_rewrite : (r.rewrite id f keeps).heads = r.heads := rfl

@[simp] theorem get_addAlias : (r.addAlias url id).get id' = r.get id' := rfl

@[simp] theorem get_setHead : (r.setHead url id now).get id' = r.get id' := rfl

theorem get_rewrite :
    (r.rewrite id f keeps).get id' = if id' = id then (r.get id').map f else r.get id' := by
  simp only [get, rewrite, Table.find?_update]

@[simp] theorem heads_add {named : row.id = docId digest row.url row.hash} :
    (r.add row named).heads = r.heads := by
  unfold add
  split <;> rfl

theorem documents_add {named : row.id = docId digest row.url row.hash}
    (free : r.get row.id = none) :
    (r.add row named).documents.rows = r.documents.rows ++ [row] := by
  unfold add
  split
  case h_1 used =>
    exact absurd (Table.insert?_eq_none_iff.mp used) (Table.find?_eq_none_iff.mp free)
  case h_2 documents inserted =>
    exact (Table.insert?_eq_some_iff.mp inserted).2

theorem get_add {named : row.id = docId digest row.url row.hash} (free : r.get row.id = none) :
    (r.add row named).get id = if row.id = id then some row else r.get id := by
  unfold add
  split
  case h_1 used =>
    exact absurd (Table.insert?_eq_none_iff.mp used) (Table.find?_eq_none_iff.mp free)
  case h_2 documents inserted =>
    exact Table.find?_insert inserted

theorem mem_of_get (h : r.get id = some row) : row ∈ r.documents.rows :=
  Table.mem_of_find?_eq_some h

theorem id_of_get (h : r.get id = some row) : row.id = id := Table.key_of_find?_eq_some h

theorem get_id (h : row ∈ r.documents.rows) : r.get row.id = some row := Table.find?_self h

/-- The web document that answers for a digest is one of that digest. -/
theorem of_duplicate (h : r.duplicate hash = some row) :
    row ∈ r.documents.rows ∧ row.hash = hash ∧ row.kind = .web := by
  have member := List.argmax_mem h
  simpa using List.mem_filter.mp member

theorem duplicate_eq_none_iff :
    r.duplicate hash = none ↔ ∀ row ∈ r.documents.rows, row.hash = hash → row.kind ≠ .web := by
  simp [duplicate, List.filter_eq_nil_iff]

end

/-! ### The answers of a reservation -/

section

variable (r : Registry digest) (url text : String) (metadata : Json) (path : String)
  (kind : Kind) (now later : ℕ)

/-- The row a reservation looks at: the web document with the text, or the row of
the id that the url and the text make. -/
def deciding : Option Document :=
  (if kind = .web then r.duplicate (digest text) else none).or
    (r.get (docId digest url (digest text)))

/-- **What a reservation does**, by the row it looks at. The four answers are those of
a row that is ready, of one that is let, of one that may be let again, and of none. -/
theorem reserve_cases :
    (∃ row, r.deciding url text kind = some row ∧ row.state = .ready ∧
      (r.reserve url text metadata path kind now later).1 = (row.id, .reused) ∧
      (r.reserve url text metadata path kind now later).2.documents = r.documents) ∨
    (∃ row, r.deciding url text kind = some row ∧ row.state ≠ .ready ∧ now < row.lease ∧
      (r.reserve url text metadata path kind now later).1 = (row.id, .pending) ∧
      (r.reserve url text metadata path kind now later).2.documents = r.documents) ∨
    (∃ row, r.deciding url text kind = some row ∧ row.state ≠ .ready ∧ row.lease ≤ now ∧
      (r.reserve url text metadata path kind now later).1 = (row.id, .resumed) ∧
      (r.reserve url text metadata path kind now later).2.documents =
        r.documents.update row.id
          (fun row => { row with lease := later + leaseTime, error := none }) fun _ => rfl) ∨
    (r.deciding url text kind = none ∧
      (r.reserve url text metadata path kind now later).1 =
        (docId digest url (digest text), .new) ∧
      (r.reserve url text metadata path kind now later).2.documents =
        (r.add (newRow digest url text metadata path kind now later) named_newRow).documents) := by
  simp only [deciding, reserve]
  -- A web text is looked up by its digest first; the row under the id is asked only if none has
  -- it.
  cases dup : if kind = .web then r.duplicate (digest text) else none with
  | some row =>
    simp only [Option.some_or, Option.some.injEq, exists_eq_left', reduceCtorEq, false_and,
      or_false]
    by_cases ready : row.state = .ready
    · exact .inl ⟨ready, by simp [ready], by simp [ready]⟩
    by_cases running : now < row.lease
    · exact .inr (.inl ⟨ready, running, by simp [ready, letAgain, running],
        by simp [ready, letAgain, running]⟩)
    · exact .inr (.inr ⟨ready, Nat.not_lt.mp running, by simp [ready, letAgain, running],
        by simp [ready, letAgain, running, rewrite]⟩)
  | none =>
    cases found : r.get (docId digest url (digest text)) with
    | some row =>
      have same := id_of_get found
      simp only [Option.none_or, Option.some.injEq, exists_eq_left', reduceCtorEq, false_and,
        or_false]
      by_cases ready : row.state = .ready
      · exact .inl ⟨ready, by simp [ready, same], by simp [ready]⟩
      by_cases running : now < row.lease
      · exact .inr (.inl ⟨ready, running, by simp [ready, letAgain, running],
          by simp [ready, letAgain, running]⟩)
      · exact .inr (.inr ⟨ready, Nat.not_lt.mp running, by simp [ready, letAgain, running],
          by simp [ready, letAgain, running, rewrite]⟩)
    | none => exact .inr (.inr (.inr ⟨rfl, rfl, rfl⟩))

end

section

variable {r : Registry digest} {row : Document} {url text : String} {metadata : Json}
  {path : String} {now later : ℕ}

/-- A web reservation of a text that a document holds. -/
theorem reserve_of_duplicate (dup : r.duplicate (digest text) = some row) :
    r.reserve url text metadata path .web now later =
      if row.state = .ready then
        ((row.id, .reused), (r.addAlias url row.id).setHead url row.id now)
      else (r.addAlias url row.id).letAgain row now later := by
  simp only [reserve, if_true, dup]

/-- A web reservation of a text that is new under an id that is free. -/
theorem reserve_of_new (dup : r.duplicate (digest text) = none)
    (free : r.get (docId digest url (digest text)) = none) :
    r.reserve url text metadata path .web now later =
      ((docId digest url (digest text), .new),
        (r.add (newRow digest url text metadata path .web now later) named_newRow).addAlias url
          (docId digest url (digest text))) := by
  simp only [reserve, if_true, dup, free]

end

section

variable {r r' : Registry digest} {row : Document} {url text id : String} {kind : Kind}
  {state : DocState} {uri error : Option String} {now later : ℕ}

/-- A reservation looks at a stored row. -/
theorem get_deciding (h : r.deciding url text kind = some row) : r.get row.id = some row := by
  rw [deciding, Option.or_eq_some_iff] at h
  rcases h with dup | ⟨-, found⟩
  · split_ifs at dup
    exact get_id (of_duplicate dup).1
  · exact get_id (mem_of_get found)

theorem get_of_deciding_none (h : r.deciding url text kind = none) :
    r.get (docId digest url (digest text)) = none := by
  rw [deciding, Option.or_eq_none_iff] at h
  exact h.2

/-! ### Updates -/

/-- **What an update does**: it rewrites the row of the id, and making a web document
ready makes it the head of its own url. -/
theorem update_eq_some (done : r.update id state uri error now later = some r') :
    (∀ id', r'.get id' =
        if id' = id then (r.get id').map (advance state uri error now later) else r.get id') ∧
      ((state ≠ .ready ∧ r'.heads = r.heads) ∨
        state = .ready ∧ ∃ row, r.get id = some row ∧
          r'.heads = if row.kind = .web then r.heads.set row.url (id, later) else r.heads) := by
  simp only [update] at done
  -- Only the change to ready reads the row again, for its url.
  by_cases ready : state = .ready
  · simp only [ready, if_true, get_rewrite] at done
    cases found : r.get id with
    | none => simp [found] at done
    | some row =>
      simp only [found, Option.map_some, Option.some.injEq] at done
      subst done ready
      refine ⟨fun id' => ?_, .inr ⟨rfl, row, rfl, ?_⟩⟩
      · rw [← get_rewrite]
        split_ifs <;> rfl
      · by_cases web : row.kind = .web
        · rw [if_pos web]
          exact congrArg heads (if_pos web)
        · rw [if_neg web]
          exact (congrArg heads (if_neg web)).trans heads_rewrite
  · rw [if_neg ready, Option.some.injEq] at done
    subst done
    exact ⟨fun id' => get_rewrite, .inl ⟨ready, rfl⟩⟩

/-- An update of a stored row does not raise. -/
theorem exists_update (found : r.get id = some row) (state : DocState)
    (uri error : Option String) (now later : ℕ) :
    ∃ r', r.update id state uri error now later = some r' := by
  simp only [update, get_rewrite, if_true, found, Option.map_some]
  by_cases ready : state = .ready
  · exact ⟨_, if_pos ready⟩
  · exact ⟨_, if_neg ready⟩

end

end Registry

end AgentLabs.Rag
