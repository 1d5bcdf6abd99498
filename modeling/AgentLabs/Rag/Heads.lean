import AgentLabs.Math.Run
import AgentLabs.Rag.Ingestion

/-!
# Which document answers for a url

Stores run one after another. The head of a url should be the ready document with
the text of the last store under that url that ended ready or reused. A store that
finds the text in a document which failed under another url resumes that document;
when it ends ready, the head of the document's own url is set and that of the url it
was called under is not. Everywhere else the heads are as they should be.

## Main definitions

* `StoreRun`: a run of stores, with digests and ids that tell its texts apart
* `StoreRun.HeadLaw`: the heads are right after every store
* `StoreRun.Misdirected`: a store that publishes a document of another url

## Main results

* `StoreRun.settled`: what holds of the library between the stores of any run
* `StoreRun.headLaw_iff`: the heads are right exactly where no store is misdirected
* `not_headLaw_mirror`: a mirror that resumes a failed ingestion has no head
-/

namespace AgentLabs.Rag

open Math Text

/-- A run of stores on a library without web documents, as the internal corpus leaves
it. On the texts and urls of the run, digests and ids are injective, and no internal
document has an id of theirs. -/
structure StoreRun (digest : String → String) where
  canonical : String → Option String
  root : String
  start : Library digest
  calls : List StoreCall
  internal : ∀ row ∈ start.registry.documents.rows, row.kind = .internal
  noHeads : start.registry.heads = []
  texts : ∀ c ∈ calls, ∀ d ∈ calls, digest c.text = digest d.text → c.text = d.text
  ids : ∀ c ∈ calls, ∀ d ∈ calls, ∀ {url url'}, canonical c.url = some url →
    canonical d.url = some url' →
    docId digest url (digest c.text) = docId digest url' (digest d.text) →
    url = url' ∧ digest c.text = digest d.text
  free : ∀ row ∈ start.registry.documents.rows, ∀ c ∈ calls, ∀ {url},
    canonical c.url = some url → row.id ≠ docId digest url (digest c.text)

/-- The head of the url is the ready document that holds the text. -/
def Library.HeadHolds {digest : String → String} (lib : Library digest) (url text : String) :
    Prop :=
  ∃ row checkedAt, lib.registry.heads.get? url = some (row.id, checkedAt) ∧
    lib.registry.get row.id = some row ∧ row.kind = .web ∧ row.state = .ready ∧
    row.hash = digest text ∧ lib.files.get? row.path = some text

/-- The id at the head of the url. -/
def Library.headId {digest : String → String} (lib : Library digest) (url : String) :
    Option String :=
  (lib.registry.heads.get? url).map Prod.fst

namespace StoreRun

variable {digest : String → String}

/-- One store. With the library goes, for each url, the text that it was last answered
for. -/
def step (run : StoreRun digest) (s : Library digest × (String → Option String)) (c : StoreCall) :
    Library digest × (String → Option String) :=
  let (ending, lib) := s.1.store run.canonical run.root c
  (lib, match run.canonical c.url with
    | none => s.2
    | some url => if ending.Answers then Function.update s.2 url (some c.text) else s.2)

/-- The library after the first `n` stores. -/
def libraryAt (run : StoreRun digest) (n : ℕ) : Library digest :=
  (stateAt run.step (run.start, fun _ => none) run.calls n).1

/-- The text that the url was last answered for within the first `n` stores. -/
def lastAt (run : StoreRun digest) (n : ℕ) : String → Option String :=
  (stateAt run.step (run.start, fun _ => none) run.calls n).2

/-- After every store the head of each answered url is the ready document with the text
of its last answer, and a store under another url does not change it. -/
def HeadLaw (run : StoreRun digest) : Prop :=
  (∀ n url text, run.lastAt n url = some text → (run.libraryAt n).HeadHolds url text) ∧
    ∀ n c url, run.calls[n]? = some c → run.canonical c.url ≠ some url →
      run.lastAt n url ≠ none → (run.libraryAt (n + 1)).headId url = (run.libraryAt n).headId url

/-- The store publishes, and its text is held by a web document of another url that is
not ready. -/
def Misdirected (run : StoreRun digest) (lib : Library digest) (c : StoreCall) : Prop :=
  c.Publishes ∧ ∃ url id row, run.canonical c.url = some url ∧
    lib.registry.get id = some row ∧ row.kind = .web ∧ row.state ≠ .ready ∧
    row.hash = digest c.text ∧ row.url ≠ url

/-- A store of the run offers a text of the digest under the url. -/
def Offers (run : StoreRun digest) (url hash : String) : Prop :=
  ∃ c ∈ run.calls, run.canonical c.url = some url ∧ digest c.text = hash

/-- What holds of the library between two stores. -/
structure Settled (run : StoreRun digest) (lib : Library digest) : Prop where
  offered : ∀ {id row}, lib.registry.get id = some row → row.kind = .web →
    run.Offers row.url row.hash
  path : ∀ {id row}, lib.registry.get id = some row → row.kind = .web →
    row.path = sourcePath run.root id
  unlet : ∀ {id row}, lib.registry.get id = some row → row.kind = .web → row.lease = 0
  file : ∀ {id row}, lib.registry.get id = some row → row.kind = .web → row.state = .ready →
    ∃ c ∈ run.calls, digest c.text = row.hash ∧ lib.files.get? row.path = some c.text
  unique : ∀ {id id' row row'}, lib.registry.get id = some row → lib.registry.get id' = some row' →
    row.kind = .web → row'.kind = .web → row.hash = row'.hash → id = id'
  internal : ∀ {id row}, lib.registry.get id = some row → row.kind ≠ .web →
    ∀ {url hash}, run.Offers url hash → id ≠ docId digest url hash
  heads : ∀ {url id checkedAt}, lib.registry.heads.get? url = some (id, checkedAt) →
    ∃ row, lib.registry.get id = some row ∧ row.kind = .web ∧ row.state = .ready

variable {run : StoreRun digest} {lib lib' : Library digest} {c : StoreCall} {url : String}
  {row new : Document}

theorem sourcePath_injective {root id id' : String} (h : sourcePath root id = sourcePath root id') :
    id = id' := by
  have same := congrArg String.toList h
  simp only [sourcePath, String.toList_append, List.append_assoc, List.append_cancel_left_eq,
    List.append_cancel_right_eq] at same
  exact String.toList_inj.mp same

/-! ### The document that a store ingests -/

/-- The row that a store of the run ingests, seen from the library before: no web
document but its own has its text, and its own is not ready. -/
structure Target (run : StoreRun digest) (lib : Library digest) (url : String) (c : StoreCall)
    (row : Document) : Prop where
  kind_eq : row.kind = .web
  hash_eq : row.hash = digest c.text
  path_eq : row.path = sourcePath run.root row.id
  offered : run.Offers row.url row.hash
  waiting : ∀ {old}, lib.registry.get row.id = some old → old.kind = .web ∧ old.state ≠ .ready ∧
    old.hash = digest c.text ∧ old.url = row.url
  own : lib.registry.get row.id = none → row.url = url
  only : ∀ {id other}, lib.registry.get id = some other → other.kind = .web →
    other.hash = row.hash → id = row.id

/-- **What a store does** between settled libraries: it is rejected, it reuses a ready
document and makes it the head of the url, or it ingests a target. -/
theorem store_cases (settled : run.Settled lib) (issued : c ∈ run.calls) :
    (run.canonical c.url = none ∧ lib.store run.canonical run.root c = (.rejected, lib)) ∨
    (∃ url row, run.canonical c.url = some url ∧ lib.registry.get row.id = some row ∧
      row.kind = .web ∧ row.state = .ready ∧ row.hash = digest c.text ∧
      (lib.store run.canonical run.root c).1 = .reused ∧
      (∀ id, (lib.store run.canonical run.root c).2.registry.get id = lib.registry.get id) ∧
      (lib.store run.canonical run.root c).2.registry.heads =
        lib.registry.heads.set url (row.id, c.now 0) ∧
      (lib.store run.canonical run.root c).2.files = lib.files) ∨
    (∃ url row r, run.canonical c.url = some url ∧ run.Target lib url c row ∧
      r.get row.id = some row ∧ (∀ id, id ≠ row.id → r.get id = lib.registry.get id) ∧
      r.heads = lib.registry.heads ∧
      lib.store run.canonical run.root c = Library.ingest { lib with registry := r } row c) := by
  cases canonical : run.canonical c.url with
  | none => exact .inl ⟨rfl, by simp only [Library.store, canonical]⟩
  | some url =>
    have offers : run.Offers url (digest c.text) := ⟨c, issued, canonical, rfl⟩
    cases dup : lib.registry.duplicate (digest c.text) with
    | some row =>
      obtain ⟨stored, hash, web⟩ := Registry.of_duplicate dup
      have found := Registry.get_id stored
      by_cases ready : row.state = .ready
      · -- The text is known and served: only the head of the url moves.
        refine .inr (.inl ⟨url, row, rfl, found, web, ready, hash, ?_, fun id => ?_, ?_, ?_⟩) <;>
          simp only [Library.store, canonical, Registry.reserve_of_duplicate dup, if_pos ready] <;>
          rfl
      · -- Between stores nothing is let, so the document is let again.
        have free : ¬ row.lease > c.now 0 := by
          rw [settled.unlet found web]
          exact Nat.not_lt_zero _
        have path := settled.path found web
        have offered := settled.offered found web
        refine .inr (.inr ⟨url, { row with lease := c.now 1 + leaseTime, error := none },
          (lib.registry.addAlias url row.id).rewrite row.id
            (fun row => { row with lease := c.now 1 + leaseTime, error := none })
            fun _ => ⟨rfl, rfl, rfl⟩, rfl, ?_, ?_, ?_, rfl, ?_⟩)
        · exact {
            kind_eq := web
            hash_eq := hash
            path_eq := path
            offered := offered
            waiting := fun {old} stored' => by
              obtain rfl := Option.some.inj (found.symm.trans stored')
              exact ⟨web, ready, hash, rfl⟩
            own := fun none => absurd (found.symm.trans none) (Option.some_ne_none _)
            only := fun found' web' same => settled.unique found' found web' web same }
        · rw [Registry.get_rewrite, if_pos rfl, Registry.get_addAlias, found]
          rfl
        · intro id other
          rw [Registry.get_rewrite, if_neg other, Registry.get_addAlias]
        · simp only [Library.store, canonical, Registry.reserve_of_duplicate dup, if_neg ready,
            Registry.letAgain, if_neg free, Registry.get_rewrite, if_true, Registry.get_addAlias,
            found, Option.map_some]
    | none =>
      have free : lib.registry.get (docId digest url (digest c.text)) = none := by
        by_contra used
        obtain ⟨other, found⟩ := Option.ne_none_iff_exists'.mp used
        by_cases web : other.kind = .web
        · -- A web document of that id has the text, so it would have been found.
          obtain ⟨d, issued', canonical', hash'⟩ := settled.offered found web
          have named := lib.registry.named other (Registry.mem_of_get found)
          rw [Registry.id_of_get found, ← hash'] at named
          have same := (run.ids c issued d issued' canonical canonical' named).2
          exact Registry.duplicate_eq_none_iff.mp dup other (Registry.mem_of_get found)
            (hash'.symm.trans same.symm) web
        · exact settled.internal found web offers rfl
      -- The text is new, so a row is added under an id that is free.
      let fresh := Registry.newRow digest url c.text (c.metadata digest)
        (sourcePath run.root (docId digest url (digest c.text))) .web (c.now 0) (c.now 1)
      refine .inr (.inr ⟨url, fresh, (lib.registry.add fresh Registry.named_newRow).addAlias url
        (docId digest url (digest c.text)), rfl, ?_, ?_, ?_, ?_, ?_⟩)
      · exact {
          kind_eq := rfl
          hash_eq := rfl
          path_eq := rfl
          offered := offers
          waiting := fun found => absurd (free.symm.trans found) (Option.some_ne_none _).symm
          own := fun _ => rfl
          only := fun found web same =>
            absurd web (Registry.duplicate_eq_none_iff.mp dup _ (Registry.mem_of_get found) same) }
      · rw [Registry.get_addAlias, Registry.get_add free, if_pos rfl]
      · intro id other
        rw [Registry.get_addAlias, Registry.get_add free, if_neg other.symm]
      · rw [Registry.heads_addAlias, Registry.heads_add]
      · have added : ∀ named, (lib.registry.add (Registry.newRow digest url c.text
            (c.metadata digest) (sourcePath run.root (docId digest url (digest c.text))) .web
            (c.now 0) (c.now 1)) named).get (docId digest url (digest c.text)) = some fresh :=
          fun _ => (Registry.get_add free).trans (if_pos rfl)
        simp only [Library.store, canonical, Registry.reserve_of_new dup free,
          Registry.get_addAlias, added]
        rfl

/-! ### The invariant of a run -/

/-- After the ingestion of a target the library is settled again. -/
theorem Settled.ingested (settled : run.Settled lib) (target : run.Target lib url c row)
    (moved : lib'.registry.get row.id = some new) (continues : row.Continues new)
    (unlet : new.lease = 0)
    (others : ∀ {id}, id ≠ row.id → lib'.registry.get id = lib.registry.get id)
    (files : ∀ {path}, path ≠ row.path → lib'.files.get? path = lib.files.get? path)
    (file : new.state = .ready → ∃ c ∈ run.calls, digest c.text = row.hash ∧
      lib'.files.get? row.path = some c.text)
    (heads : ∀ {url id checkedAt}, lib'.registry.heads.get? url = some (id, checkedAt) →
      (id = row.id ∧ new.state = .ready) ∨ lib.registry.heads.get? url = some (id, checkedAt)) :
    run.Settled lib' := by
  -- Each document is the target, or as it was before.
  have cases : ∀ {id found}, lib'.registry.get id = some found →
      (id = row.id ∧ found = new) ∨ (id ≠ row.id ∧ lib.registry.get id = some found) := by
    intro id found stored
    by_cases same : id = row.id
    · rw [same, moved] at stored
      exact .inl ⟨same, (Option.some.inj stored).symm⟩
    · exact .inr ⟨same, others same ▸ stored⟩
  have web : new.kind = .web := continues.kind_eq.trans target.kind_eq
  constructor
  · intro id found stored isWeb
    rcases cases stored with ⟨rfl, rfl⟩ | ⟨-, before⟩
    · rw [continues.url_eq, continues.hash_eq]
      exact target.offered
    · exact settled.offered before isWeb
  · intro id found stored isWeb
    rcases cases stored with ⟨rfl, rfl⟩ | ⟨-, before⟩
    · exact continues.path_eq.trans target.path_eq
    · exact settled.path before isWeb
  · intro id found stored isWeb
    rcases cases stored with ⟨rfl, rfl⟩ | ⟨-, before⟩
    · exact unlet
    · exact settled.unlet before isWeb
  · intro id found stored isWeb ready
    rcases cases stored with ⟨rfl, rfl⟩ | ⟨other, before⟩
    · rw [continues.hash_eq, continues.path_eq]
      exact file ready
    · obtain ⟨d, issued, hash, held⟩ := settled.file before isWeb ready
      refine ⟨d, issued, hash, ?_⟩
      rw [files, held]
      intro samePath
      rw [settled.path before isWeb, target.path_eq] at samePath
      exact other (sourcePath_injective samePath)
  · intro id id' found found' stored stored' isWeb isWeb' hash
    rcases cases stored with ⟨rfl, rfl⟩ | ⟨-, before⟩ <;>
      rcases cases stored' with ⟨rfl, rfl⟩ | ⟨-, before'⟩
    · rfl
    · exact (target.only before' isWeb' (hash.symm.trans continues.hash_eq)).symm
    · exact target.only before isWeb (hash.trans continues.hash_eq)
    · exact settled.unique before before' isWeb isWeb' hash
  · intro id found stored notWeb url hash offers
    rcases cases stored with ⟨rfl, rfl⟩ | ⟨-, before⟩
    · exact absurd web notWeb
    · exact settled.internal before notWeb offers
  · intro url id checkedAt head
    rcases heads head with ⟨rfl, ready⟩ | head
    · exact ⟨new, moved, web, ready⟩
    · obtain ⟨found, stored, isWeb, ready⟩ := settled.heads head
      refine ⟨found, ?_, isWeb, ready⟩
      rw [others, stored]
      rintro rfl
      exact (target.waiting stored).2.1 ready

/-- What a store that ingests a target leaves: the target ready and at the head of its
own url, or the target failed and all heads as before. -/
theorem ingest_target {r : Registry digest} (target : run.Target lib url c row)
    (found : r.get row.id = some row) (others : ∀ id, id ≠ row.id → r.get id = lib.registry.get id)
    (heads : r.heads = lib.registry.heads) :
    ∃ ending new, (Library.ingest { lib with registry := r } row c).1 = ending ∧
      (Library.ingest { lib with registry := r } row c).2.registry.get row.id = some new ∧
      row.Continues new ∧ new.lease = 0 ∧
      (∀ {id}, id ≠ row.id → (Library.ingest { lib with registry := r } row c).2.registry.get id =
        lib.registry.get id) ∧
      (∀ {path}, path ≠ row.path →
        (Library.ingest { lib with registry := r } row c).2.files.get? path =
          lib.files.get? path) ∧
      ((c.Publishes ∧ ending = .ready ∧ new.state = .ready ∧
        (Library.ingest { lib with registry := r } row c).2.registry.heads =
          lib.registry.heads.set row.url (row.id, c.now 7) ∧
        (Library.ingest { lib with registry := r } row c).2.files.get? row.path = some c.text) ∨
      (¬ c.Publishes ∧ ending = .failed ∧ new.state = .failed ∧
        (Library.ingest { lib with registry := r } row c).2.registry.heads =
          lib.registry.heads)) := by
  have ingested := Library.ingest_cases (c := c)
    (show ({ lib with registry := r } : Library digest).registry.get row.id = some row from found)
    target.kind_eq
  -- A target that publishes replaces the head of its own url; one that fails leaves the heads.
  rcases ingested with
    ⟨publishes, ending, ⟨new, moves, ready, unlet⟩, set, files⟩ |
    ⟨interrupted, ending, ⟨new, moves, failed, unlet⟩, same, files⟩
  · refine ⟨_, new, rfl, moves.moved, moves.continues, unlet,
      fun other => (moves.others other).trans (others _ other), fun other => ?_,
      .inl ⟨publishes, ending, ready, by rw [set, heads], by rw [files, Dict.get?_set_self]⟩⟩
    rw [files, Dict.get?_set_of_ne other.symm]
  · exact ⟨_, new, rfl, moves.moved, moves.continues, unlet,
      fun other => (moves.others other).trans (others _ other), files,
      .inr ⟨interrupted, ending, failed, by rw [same, heads]⟩⟩

theorem settled_start (run : StoreRun digest) : run.Settled run.start := by
  have none : ∀ {id row}, run.start.registry.get id = some row → row.kind ≠ .web := by
    intro id row found
    rw [run.internal row (Registry.mem_of_get found)]
    decide
  constructor
  · exact fun found web => absurd web (none found)
  · exact fun found web => absurd web (none found)
  · exact fun found web => absurd web (none found)
  · exact fun found web => absurd web (none found)
  · exact fun found _ web => absurd web (none found)
  · rintro id row found - url hash ⟨c, issued, canonical, rfl⟩
    rw [← Registry.id_of_get found]
    exact run.free row (Registry.mem_of_get found) c issued canonical
  · intro url id checkedAt head
    rw [run.noHeads, Dict.get?_nil] at head
    cases head

/-- **Every store** leaves the library settled. -/
theorem Settled.store (settled : run.Settled lib) (issued : c ∈ run.calls) :
    run.Settled (lib.store run.canonical run.root c).2 := by
  rcases run.store_cases settled issued with
    ⟨-, stored⟩ | ⟨url, row, -, found, web, ready, -, -, same, heads, files⟩ |
    ⟨url, row, r, -, target, found, others, heads, stored⟩
  · rw [stored]
    exact settled
  · -- The documents are as before, and the new head is ready.
    constructor
    · exact fun {id _} found' => settled.offered (same id ▸ found')
    · exact fun {id _} found' => settled.path (same id ▸ found')
    · exact fun {id _} found' => settled.unlet (same id ▸ found')
    · intro id row' found' web' ready'
      rw [files]
      exact settled.file (same id ▸ found') web' ready'
    · exact fun {id id' _ _} found' found'' =>
        settled.unique (same id ▸ found') (same id' ▸ found'')
    · exact fun {id _} found' => settled.internal (same id ▸ found')
    · intro url' id checkedAt head
      rw [heads, Dict.get?_set] at head
      split_ifs at head with here
      · obtain ⟨rfl, -⟩ := Prod.mk.inj (Option.some.inj head)
        exact ⟨row, (same row.id).trans found, web, ready⟩
      · obtain ⟨row', found', rest⟩ := settled.heads head
        exact ⟨row', (same id).trans found', rest⟩
  · rw [stored]
    obtain ⟨ending, new, -, moved, continues, unlet, kept, files, done⟩ :=
      ingest_target target found others heads
    -- An ingestion that succeeds sets the head of the url, one that fails leaves all heads.
    rcases done with ⟨-, -, ready, set, file⟩ | ⟨-, -, failed, headsKept⟩
    · refine settled.ingested target moved continues unlet kept files
        (fun _ => ⟨c, issued, target.hash_eq.symm, file⟩) fun {url' id checkedAt} head => ?_
      rw [set, Dict.get?_set] at head
      split_ifs at head
      · exact .inl ⟨(Prod.mk.inj (Option.some.inj head)).1.symm, ready⟩
      · exact .inr head
    · refine settled.ingested target moved continues unlet kept files (fun ready => ?_)
        fun head => .inr (headsKept ▸ head)
      rw [failed] at ready
      cases ready

/-- **The libraries of a run are settled.** -/
theorem settled (run : StoreRun digest) (n : ℕ) : run.Settled (run.libraryAt n) := by
  induction n with
  | zero => exact run.settled_start
  | succ n ih =>
    cases issued : run.calls[n]? with
    | none =>
      rw [libraryAt, stateAt_succ_of_none issued]
      exact ih
    | some c =>
      rw [libraryAt, stateAt_succ issued]
      exact ih.store (List.mem_of_getElem? issued)

/-! ### The heads -/

/-- Where a store is not misdirected, the document it publishes is one of its own url. -/
theorem Target.url_eq (target : run.Target lib url c row)
    (canonical : run.canonical c.url = some url)
    (directed : ¬ run.Misdirected lib c) (publishes : c.Publishes) : row.url = url := by
  cases before : lib.registry.get row.id with
  | none => exact target.own before
  | some old =>
    obtain ⟨web, waiting, hash, sameUrl⟩ := target.waiting before
    by_contra other
    exact directed ⟨publishes, url, row.id, old, canonical, before, web, waiting, hash,
      sameUrl ▸ other⟩

/-- A store that is not misdirected changes the head of a url only by answering it. -/
theorem heads_store (settled : run.Settled lib) (issued : c ∈ run.calls)
    (directed : ¬ run.Misdirected lib c)
    (other : ¬ (run.canonical c.url = some url ∧
      (lib.store run.canonical run.root c).1.Answers)) :
    (lib.store run.canonical run.root c).2.registry.heads.get? url =
      lib.registry.heads.get? url := by
  rcases run.store_cases settled issued with
    ⟨-, stored⟩ | ⟨url', row, canonical, -, -, -, -, reused, -, heads, -⟩ |
    ⟨url', row, r, canonical, target, found, others, heads, stored⟩
  · rw [stored]
  · rw [heads, Dict.get?_set_of_ne]
    rintro rfl
    exact other ⟨canonical, .inr reused⟩
  · obtain ⟨ending, new, ended, -, -, -, -, -, done⟩ := ingest_target target found others heads
    rw [stored] at other ⊢
    rcases done with ⟨publishes, ready, -, set, -⟩ | ⟨-, -, -, kept⟩
    · rw [set, Dict.get?_set_of_ne]
      rw [target.url_eq canonical directed publishes]
      rintro rfl
      exact other ⟨canonical, .inl (ended.trans ready)⟩
    · rw [kept]

/-- A head that holds keeps holding while other documents and heads change. -/
theorem headHolds_of_kept (settled : run.Settled lib) {text : String}
    (holds : lib.HeadHolds url text)
    (heads : lib'.registry.heads.get? url = lib.registry.heads.get? url)
    (documents : ∀ {id found}, lib.registry.get id = some found → found.kind = .web →
      found.state = .ready →
      lib'.registry.get id = some found ∧
        lib'.files.get? (sourcePath run.root id) = lib.files.get? (sourcePath run.root id)) :
    lib'.HeadHolds url text := by
  obtain ⟨found, checkedAt, head, stored, web, ready, hash, held⟩ := holds
  obtain ⟨kept, file⟩ := documents stored web ready
  refine ⟨found, checkedAt, heads.trans head, kept, web, ready, hash, ?_⟩
  rw [settled.path stored web] at held ⊢
  rw [file, held]

/-- A ready document and its file are as before, whatever a store does. -/
theorem ready_store (settled : run.Settled lib) (issued : c ∈ run.calls) {id : String}
    {found : Document} (stored : lib.registry.get id = some found)
    (ready : found.state = .ready) :
    (lib.store run.canonical run.root c).2.registry.get id = some found ∧
      (lib.store run.canonical run.root c).2.files.get? (sourcePath run.root id) =
        lib.files.get? (sourcePath run.root id) := by
  rcases run.store_cases settled issued with
    ⟨-, same⟩ | ⟨url, row, -, -, -, -, -, -, same, -, files⟩ |
    ⟨url, row, r, -, target, reserved, others, heads, same⟩
  · rw [same]
    exact ⟨stored, rfl⟩
  · exact ⟨(same id).trans stored, by rw [files]⟩
  · obtain ⟨ending, new, -, -, -, -, kept, files, -⟩ := ingest_target target reserved others heads
    have other : id ≠ row.id := by
      rintro rfl
      exact (target.waiting stored).2.1 ready
    rw [same]
    refine ⟨(kept other).trans stored, files fun samePath => other ?_⟩
    rw [target.path_eq] at samePath
    exact sourcePath_injective samePath

/-- A store that answers its url makes the document with the text the head of the url,
unless it is misdirected. -/
theorem headHolds_store (settled : run.Settled lib) (issued : c ∈ run.calls)
    (directed : ¬ run.Misdirected lib c) (canonical : run.canonical c.url = some url)
    (answers : (lib.store run.canonical run.root c).1.Answers) :
    (lib.store run.canonical run.root c).2.HeadHolds url c.text := by
  rcases run.store_cases settled issued with
    ⟨none, -⟩ | ⟨url', row, canonical', found, web, ready, hash, -, same, heads, files⟩ |
    ⟨url', row, r, canonical', target, found, others, heads, stored⟩
  · rw [none] at canonical
    cases canonical
  · obtain rfl := Option.some.inj (canonical'.symm.trans canonical)
    -- The file holds a text of the digest, and the digest tells the texts apart.
    obtain ⟨d, issued', hash', held⟩ := settled.file found web ready
    have text : d.text = c.text := run.texts d issued' c issued (hash'.trans hash)
    refine ⟨row, c.now 0, ?_, (same row.id).trans found, web, ready, hash, ?_⟩
    · rw [heads, Dict.get?_set_self]
    · rw [files, held, text]
  · obtain rfl := Option.some.inj (canonical'.symm.trans canonical)
    obtain ⟨ending, new, ended, moved, continues, -, -, -, done⟩ :=
      ingest_target target found others heads
    rw [stored] at answers ⊢
    rcases done with ⟨publishes, -, ready, set, file⟩ | ⟨-, failed, -⟩
    · refine ⟨new, c.now 7, ?_, ?_, continues.kind_eq.trans target.kind_eq, ready,
        continues.hash_eq.trans target.hash_eq, ?_⟩
      · rw [set, target.url_eq canonical directed publishes, Dict.get?_set_self, continues.id_eq]
      · rw [continues.id_eq, moved]
      · rw [continues.path_eq, file]
    · rw [ended, failed] at answers
      rcases answers with h | h <;> cases h

/-- **A misdirected store** ends ready, and its url has no head with its text. -/
theorem not_headHolds_of_misdirected (settled : run.Settled lib) (issued : c ∈ run.calls)
    (misdirected : run.Misdirected lib c) :
    ∃ url, run.canonical c.url = some url ∧ (lib.store run.canonical run.root c).1 = .ready ∧
      ¬ (lib.store run.canonical run.root c).2.HeadHolds url c.text := by
  obtain ⟨publishes, url, id, old, canonical, before, web, waiting, hash, other⟩ := misdirected
  refine ⟨url, canonical, ?_⟩
  rcases run.store_cases settled issued with
    ⟨none, -⟩ | ⟨url', row, canonical', found, web', ready, hash', -, -, -, -⟩ |
    ⟨url', row, r, canonical', target, found, others, heads, stored⟩
  · rw [none] at canonical
    cases canonical
  · have same := settled.unique before found web web' (hash.trans hash'.symm)
    rw [same, found] at before
    obtain rfl := Option.some.inj before
    exact absurd ready waiting
  · have same : id = row.id := target.only before web (hash.trans target.hash_eq.symm)
    subst same
    have sameUrl : old.url = row.url := (target.waiting before).2.2.2
    obtain ⟨ending, new, ended, moved, continues, -, kept, -, done⟩ :=
      ingest_target target found others heads
    rw [stored]
    rcases done with ⟨-, ready, -, set, -⟩ | ⟨interrupted, -⟩
    · refine ⟨ended.trans ready, ?_⟩
      rintro ⟨row', checkedAt, head, stored', web', -, hash', -⟩
      -- The head of the url is what it was, and it was a ready document.
      rw [set, Dict.get?_set_of_ne (sameUrl ▸ other)] at head
      obtain ⟨answering, answered, -, isReady⟩ := settled.heads head
      by_cases same : row'.id = row.id
      · rw [same, before] at answered
        exact waiting (Option.some.inj answered ▸ isReady)
      · rw [kept same] at stored'
        exact same (target.only stored' web' (hash'.trans target.hash_eq.symm))
    · exact absurd publishes interrupted

/-! ### Runs -/

theorem libraryAt_succ {n : ℕ} (issued : run.calls[n]? = some c) :
    run.libraryAt (n + 1) = ((run.libraryAt n).store run.canonical run.root c).2 := by
  rw [libraryAt, stateAt_succ issued]
  rfl

/-- What a url was last answered for changes with the stores that answer it. -/
theorem lastAt_succ {n : ℕ} (issued : run.calls[n]? = some c) (url : String) :
    run.lastAt (n + 1) url =
      if run.canonical c.url = some url ∧
          ((run.libraryAt n).store run.canonical run.root c).1.Answers then some c.text
      else run.lastAt n url := by
  have stepped : run.lastAt (n + 1) = (match run.canonical c.url with
      | none => run.lastAt n
      | some url => if ((run.libraryAt n).store run.canonical run.root c).1.Answers then
          Function.update (run.lastAt n) url (some c.text) else run.lastAt n) := by
    rw [lastAt, stateAt_succ issued]
    rfl
  rw [stepped]
  cases canonical : run.canonical c.url with
  | none => simp
  | some url' =>
    by_cases answers : ((run.libraryAt n).store run.canonical run.root c).1.Answers
    · by_cases same : url' = url
      · simp [answers, same]
      · simp [answers, same, Function.update_of_ne (Ne.symm same)]
    · simp [answers]

/-- **The head law.** The heads are right after every store of a run exactly where no
store publishes a document that failed under another url. -/
theorem headLaw_iff (run : StoreRun digest) :
    run.HeadLaw ↔ ∀ n c, run.calls[n]? = some c → ¬ run.Misdirected (run.libraryAt n) c := by
  constructor
  · -- A misdirected store sets the head of the other url, and not the one of its own.
    rintro ⟨holds, -⟩ n c issued misdirected
    obtain ⟨url, canonical, ready, fails⟩ :=
      not_headHolds_of_misdirected (run.settled n) (List.mem_of_getElem? issued) misdirected
    have last : run.lastAt (n + 1) url = some c.text := by
      rw [lastAt_succ issued, if_pos ⟨canonical, .inl ready⟩]
    exact fails (libraryAt_succ issued ▸ holds (n + 1) url c.text last)
  · -- Induction on the stores: one that answers sets the head of its url, the others keep it.
    intro directed
    refine ⟨fun n => ?_, fun n c url issued other _ => ?_⟩
    · induction n with
      | zero => exact fun _ _ last => absurd last (Option.some_ne_none _).symm
      | succ n ih =>
        intro url text last
        cases issued : run.calls[n]? with
        | none =>
          rw [lastAt, stateAt_succ_of_none issued] at last
          rw [libraryAt, stateAt_succ_of_none issued]
          exact ih url text last
        | some c =>
          have member := List.mem_of_getElem? issued
          have settled := run.settled n
          rw [lastAt_succ issued] at last
          rw [libraryAt_succ issued]
          split_ifs at last with answered
          · obtain rfl := Option.some.inj last
            exact headHolds_store settled member (directed n c issued) answered.1 answered.2
          · exact headHolds_of_kept settled (ih url text last)
              (heads_store settled member (directed n c issued) answered)
              fun stored _ ready => ready_store settled member stored ready
    · rw [Library.headId, libraryAt_succ issued, heads_store (run.settled n)
        (List.mem_of_getElem? issued) (directed n c issued) fun answered => other answered.1]
      rfl

end StoreRun

/-! ### A mirror of a failed page -/

/-- The digests of one text and of its names under two urls. -/
def mirrorDigest (text : String) : String :=
  if text = "one" then "7692c3ad3540bb803c020b3aee66cd8887123234ea0c6e7143c0add73ff431ed"
  else if text = "https://example.org/a" ++ "\n" ++
      "7692c3ad3540bb803c020b3aee66cd8887123234ea0c6e7143c0add73ff431ed" then
    "244a914be15150ef117c739a5e63b288c3b9774ca3f5a26f1c3158ce8e79927b"
  else "88ee402e7e16b1befe86033f5b4886676dd35ffbcc3072def22b6de3a059bca1"

/-- One text stored under a url. -/
def storeOne (url : String) (publish : Except String String) : StoreCall where
  url := url
  text := "one"
  now := fun n => n
  consume := .ok ()
  write := .ok ()
  publish := publish

/-- A page fails to be published, and its mirror is then stored with success. -/
def mirrorRun : StoreRun mirrorDigest where
  canonical := some
  root := "sources"
  start := { registry := Registry.empty }
  calls := [storeOne "https://example.org/a" (.error "TimeoutError"),
    storeOne "https://example.org/mirror" (.ok "local://web/244a914be15150ef117c739a")]
  internal := nofun
  noHeads := rfl
  texts := by simp [storeOne]
  ids := by
    intro c issued d issued' url url' canonical canonical' same
    obtain rfl := Option.some.inj canonical
    obtain rfl := Option.some.inj canonical'
    rcases List.mem_pair.mp issued with rfl | rfl <;> rcases List.mem_pair.mp issued' with rfl | rfl
    · exact ⟨rfl, rfl⟩
    · exact absurd same (by decide)
    · exact absurd same (by decide)
    · exact ⟨rfl, rfl⟩
  free := nofun

/-- The mirror was answered, and has no head. -/
theorem not_headLaw_mirror : ¬ mirrorRun.HeadLaw := by
  rintro ⟨holds, -⟩
  obtain ⟨row, checkedAt, head, -⟩ := holds 2 "https://example.org/mirror" "one" (by decide)
  have none : (mirrorRun.libraryAt 2).registry.heads.get? "https://example.org/mirror" = none := by
    decide
  rw [none] at head
  cases head

end AgentLabs.Rag
