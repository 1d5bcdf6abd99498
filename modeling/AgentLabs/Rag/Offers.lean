import AgentLabs.Rag.Heads
import AgentLabs.Rag.Ownership

/-!
# Under which urls a content was offered

A web content is held by one document, whatever urls it comes from. No constraint of the
database says so: a reservation looks for a document with the digest before it makes one,
and records the url as an alias of the document it found or made. Databases are seeded
from each other, which copies the documents that are ready.

Workers call the transactions of several databases in any order, each of them atomic.
What was offered to a database is remembered beside it, and a seeding hands on what was
offered for the contents it copies.

## Main definitions

* `Registry.seedFrom`: the seeding of an empty database
* `Fleet`, `FleetOp`, `Fleet.step`: databases, and what workers do with them
* `Registry.UniqueContent`, `Registry.Aliased`: one document for a content, with its urls

## Main results

* `Registry.aliased_reserve`: a reservation records its url
* `Fleet.accounted_step`: what every transaction keeps
* `Fleet.content_unique`: one document for each content, known under all its urls
-/

namespace AgentLabs.Rag

open Math Text

variable {digest : String → String}

/-! ### Seeding -/

namespace Registry

/-- `Registry.seed_from`; `none` stands for an exception, which rolls back. The database
must be empty, and no alias and no url of a head may be there already. -/
def seedFrom (r other : Registry digest) : Option (Registry digest) :=
  if r.documents.rows ≠ [] then none
  else if (∃ a ∈ other.aliases, a ∈ r.aliases) ∨ ∃ h ∈ other.heads, h.1 ∈ r.heads.keys then none
  else
    some
      { documents :=
          { rows := other.documents.rows.filter fun row => row.state = .ready
            nodup := other.documents.nodup.sublist (List.filter_sublist.map _) }
        aliases := r.aliases ++ other.aliases
        heads := r.heads ++ other.heads
        named := fun row member => other.named row (List.mem_of_mem_filter member) }

/-- No two web documents hold one content. -/
def UniqueContent (r : Registry digest) : Prop :=
  ∀ row ∈ r.documents.rows, ∀ row' ∈ r.documents.rows, row.kind = .web → row'.kind = .web →
    row.hash = row'.hash → row = row'

/-- The web document of the content is known under the url. -/
def Aliased (r : Registry digest) (url text : String) : Prop :=
  ∃ row ∈ r.documents.rows, row.kind = .web ∧ row.hash = digest text ∧ (url, row.id) ∈ r.aliases

end Registry

/-! ### Databases and workers -/

/-- Databases, and the urls and texts of the web offers made to each. -/
structure Fleet (digest : String → String) (ι : Type*) where
  registry : ι → Registry digest
  offered : ι → List (String × String)

/-- A transaction on one of the databases. -/
inductive FleetOp (ι : Type*) where
  | reserve (i : ι) (c : ReserveCall)
  | update (i : ι) (c : UpdateCall)
  | seed (target source : ι)

namespace Fleet

variable {ι : Type*} [DecidableEq ι]

/-- New databases, to which nothing was offered. -/
def start : Fleet digest ι := ⟨fun _ => .empty, fun _ => []⟩

/-- The offers for contents that a seeding copies. -/
def carried (r : Registry digest) (offers : List (String × String)) : List (String × String) :=
  offers.filter fun offer => r.documents.rows.any fun row =>
    row.state = .ready ∧ row.kind = .web ∧ row.hash = digest offer.2

/-- One database changes, and what was offered to it. -/
def put (s : Fleet digest ι) (i : ι) (r : Registry digest) (more : List (String × String)) :
    Fleet digest ι where
  registry := Function.update s.registry i r
  offered := Function.update s.offered i (s.offered i ++ more)

/-- One transaction. One that raises changes nothing. -/
def step (s : Fleet digest ι) : FleetOp ι → Fleet digest ι
  | .reserve i c =>
    s.put i (c.after (s.registry i)) (if c.kind = .web then [(c.url, c.text)] else [])
  | .update i c =>
    match c.run (s.registry i) with
    | none => s
    | some r => s.put i r []
  | .seed target source =>
    match (s.registry target).seedFrom (s.registry source) with
    | none => s
    | some r => s.put target r (carried (s.registry source) (s.offered source))

/-- The databases after the transactions, in the order they took effect. -/
def after (ops : List (FleetOp ι)) : Fleet digest ι := ops.foldl step start

/-- The reservation is among the transactions. -/
def Reserves (ops : List (FleetOp ι)) (c : ReserveCall) : Prop := ∃ i, .reserve i c ∈ ops

/-- Documents that are reserved under one id have one url and one digest. -/
def DistinctNames (digest : String → String) (ops : List (FleetOp ι)) : Prop :=
  ∀ c c', Reserves ops c → Reserves ops c' →
    docId digest c.url (digest c.text) = docId digest c'.url (digest c'.text) →
      c.url = c'.url ∧ digest c.text = digest c'.text

/-- Nothing is reserved as a web document and as an internal one. -/
def DisjointKinds (ops : List (FleetOp ι)) : Prop :=
  ∀ c c', Reserves ops c → Reserves ops c' → c.url = c'.url → c.kind = c'.kind

end Fleet

/-! ### What a transaction keeps -/

namespace Registry

/-- Every document goes on, and every alias is kept. -/
structure Carries (r r' : Registry digest) : Prop where
  rows : ∀ row ∈ r.documents.rows, ∃ row' ∈ r'.documents.rows, row.Continues row'
  aliases : ∀ a ∈ r.aliases, a ∈ r'.aliases

variable {r r' : Registry digest} {row : Document} {url text id : String}

theorem Carries.aliased (carries : r.Carries r') (known : r.Aliased url text) :
    r'.Aliased url text := by
  obtain ⟨row, stored, web, hash, listed⟩ := known
  obtain ⟨row', stored', continues⟩ := carries.rows row stored
  refine ⟨row', stored', continues.kind_eq.trans web, continues.hash_eq.trans hash, ?_⟩
  rw [continues.id_eq]
  exact carries.aliases _ listed

theorem Sound.uniqueContent (sound : r.Sound) : r.UniqueContent := by
  intro row stored row' stored' web web' hash
  have same := sound.unique (get_id stored) (get_id stored') web web' hash
  exact r.documents.eq_of_key_eq stored stored' same

@[simp] theorem aliases_setHead {now : ℕ} : (r.setHead url id now).aliases = r.aliases := rfl

theorem aliases_letAgain {now later : ℕ} : (r.letAgain row now later).2.aliases = r.aliases := by
  unfold letAgain
  split_ifs <;> rfl

theorem aliases_add {named : row.id = docId digest row.url row.hash} :
    (r.add row named).aliases = r.aliases := by
  unfold add
  split <;> rfl

theorem mem_aliases_addAlias : (url, id) ∈ (r.addAlias url id).aliases := by
  simp only [addAlias, putAbsent]
  split_ifs with listed
  · exact listed
  · exact List.mem_append_right _ (List.mem_singleton.mpr rfl)

theorem aliases_subset_addAlias {a : String × String} (listed : a ∈ r.aliases) :
    a ∈ (r.addAlias url id).aliases := (prefix_putAbsent r.aliases (url, id)).subset listed

/-- Where one document moves, the documents after are those of before, gone on. -/
theorem continued_of_moves {new : Document} (moves : Library.Moves r r' id row new)
    (found : r.get id = some row) :
    (∀ old ∈ r.documents.rows, ∃ row' ∈ r'.documents.rows, old.Continues row') ∧
      ∀ row' ∈ r'.documents.rows, ∃ old ∈ r.documents.rows, old.Continues row' := by
  constructor
  · intro old stored
    by_cases here : old.id = id
    · obtain rfl : old = row := Option.some.inj ((get_id stored).symm.trans (here ▸ found))
      exact ⟨new, mem_of_get moves.moved, moves.continues⟩
    · exact ⟨old, mem_of_get ((moves.others here).trans (get_id stored)), .refl old⟩
  · intro row' stored
    by_cases here : row'.id = id
    · obtain rfl : row' = new := Option.some.inj ((get_id stored).symm.trans (here ▸ moves.moved))
      exact ⟨row, mem_of_get found, moves.continues⟩
    · exact ⟨row', mem_of_get ((moves.others here).symm.trans (get_id stored)), .refl row'⟩

/-! ### Reservations -/

/-- The documents after a reservation are those of before, gone on, and perhaps a new one. -/
theorem rows_reserve (r : Registry digest) (c : ReserveCall) :
    (∀ old ∈ r.documents.rows, ∃ row' ∈ (c.after r).documents.rows, old.Continues row') ∧
      ∀ row' ∈ (c.after r).documents.rows, (∃ old ∈ r.documents.rows, old.Continues row') ∨
        row' = newRow digest c.url c.text c.metadata c.path c.kind c.now c.later := by
  rcases r.reserve_get_cases c with ⟨-, same⟩ | ⟨row, found, -, -, -, after⟩ | ⟨-, free, -, after⟩
  · constructor
    · exact fun old stored => ⟨old, mem_of_get ((same old.id).trans (get_id stored)), .refl old⟩
    · exact fun row' stored =>
        .inl ⟨row', mem_of_get ((same row'.id).symm.trans (get_id stored)), .refl row'⟩
  -- A resumed document keeps what it holds and gets a new lease.
  · have moves : Library.Moves r (c.after r) (c.answer r).1 row
        { row with lease := c.later + leaseTime, error := none } :=
      { moved := by rw [after, if_pos rfl]
        continues := ⟨rfl, rfl, rfl, rfl, rfl⟩
        others := fun other => by rw [after, if_neg other] }
    obtain ⟨forward, back⟩ := continued_of_moves moves found
    exact ⟨forward, fun row' stored => .inl (back row' stored)⟩
  · constructor
    · intro old stored
      have other : old.id ≠ (c.answer r).1 := by
        intro same
        rw [← same, get_id stored] at free
        cases free
      exact ⟨old, mem_of_get (by rw [after, if_neg other, get_id stored]), .refl old⟩
    · intro row' stored
      have read := get_id stored
      rw [after] at read
      split_ifs at read
      · exact .inr (Option.some.inj read).symm
      · exact .inl ⟨row', mem_of_get read, .refl row'⟩

theorem carries_reserve (r : Registry digest) (c : ReserveCall) : r.Carries (c.after r) where
  rows := (r.rows_reserve c).1
  aliases := by
    intro a listed
    unfold ReserveCall.after reserve
    dsimp only
    -- The branches of `reserve`: a duplicate content, a known id, or a new document.
    cases if c.kind = .web then r.duplicate (digest c.text) else none with
    | some row =>
      dsimp only
      split_ifs
      · exact aliases_subset_addAlias listed
      · rw [aliases_letAgain]
        exact aliases_subset_addAlias listed
    | none =>
      dsimp only
      cases r.get (docId digest c.url (digest c.text)) with
      | some row =>
        dsimp only
        split_ifs
        · exact listed
        · rwa [aliases_letAgain]
      | none =>
        apply aliases_subset_addAlias
        rwa [aliases_add]

/-- **A web reservation records its url** with the document of the content, unless the id
it would make is in use for something else. -/
theorem aliased_reserve {c : ReserveCall} (web : c.kind = .web)
    (unmixed : ∀ row, r.get (docId digest c.url (digest c.text)) = some row →
      row.hash = digest c.text ∧ row.kind = .web) :
    (c.after r).Aliased c.url c.text := by
  have carries := r.carries_reserve c
  cases dup : r.duplicate (digest c.text) with
  | some row =>
    obtain ⟨stored, hash, isWeb⟩ := of_duplicate dup
    obtain ⟨row', stored', continues⟩ := carries.rows row stored
    refine ⟨row', stored', continues.kind_eq.trans isWeb, continues.hash_eq.trans hash, ?_⟩
    rw [continues.id_eq, ReserveCall.after, web, reserve_of_duplicate dup]
    split_ifs
    · exact mem_aliases_addAlias
    · rw [aliases_letAgain]
      exact mem_aliases_addAlias
  | none =>
    have free : r.get (docId digest c.url (digest c.text)) = none := by
      cases found : r.get (docId digest c.url (digest c.text)) with
      | none => rfl
      | some row =>
        -- The row under the id would be the document that holds the text.
        obtain ⟨hash, isWeb⟩ := unmixed row found
        exact absurd isWeb (duplicate_eq_none_iff.mp dup row (mem_of_get found) hash)
    rw [ReserveCall.after, web, reserve_of_new dup free]
    refine ⟨newRow digest c.url c.text c.metadata c.path .web c.now c.later, ?_, rfl, rfl,
      mem_aliases_addAlias⟩
    rw [documents_addAlias, documents_add free]
    exact List.mem_append_right _ (List.mem_singleton.mpr rfl)

/-! ### Updates -/

/-- An update moves the documents of one id. -/
theorem rows_update {c : UpdateCall} (done : c.run r = some r') :
    (∀ old ∈ r.documents.rows, ∃ row' ∈ r'.documents.rows, old.Continues row') ∧
      ∀ row' ∈ r'.documents.rows, ∃ old ∈ r.documents.rows, old.Continues row' := by
  have read := get_update done
  cases found : r.get c.id with
  | some row =>
    have moves : Library.Moves r r' c.id row (advance c.state c.uri c.error c.now c.later row) :=
      { moved := by rw [read, if_pos rfl, found, Option.map_some]
        continues := ⟨rfl, rfl, rfl, rfl, rfl⟩
        others := fun other => by rw [read, if_neg other] }
    exact continued_of_moves moves found
  | none =>
    have same : ∀ id, r'.get id = r.get id := by
      intro id
      rw [read]
      split_ifs with here
      · rw [here, found, Option.map_none]
      · rfl
    exact ⟨fun old stored => ⟨old, mem_of_get ((same old.id).trans (get_id stored)), .refl old⟩,
      fun row' stored => ⟨row', mem_of_get ((same row'.id).symm.trans (get_id stored)), .refl row'⟩⟩

theorem carries_update {c : UpdateCall} (done : c.run r = some r') : r.Carries r' where
  rows := (rows_update done).1
  aliases := by
    intro a listed
    unfold UpdateCall.run update at done
    dsimp only at done
    split_ifs at done
    · cases found : (r.rewrite c.id (advance c.state c.uri c.error c.now c.later)
          fun _ => ⟨rfl, rfl, rfl⟩).get c.id with
      | none => simp [found] at done
      | some row =>
        simp only [found, Option.some.injEq] at done
        rw [← done]
        split_ifs <;> exact listed
    · rw [← Option.some.inj done]
      exact listed

/-! ### Seedings -/

/-- What a seeding writes: the documents of the other database that are ready, and all of
its aliases. -/
theorem seedFrom_eq_some {other : Registry digest} (done : r.seedFrom other = some r') :
    r.documents.rows = [] ∧
      r'.documents.rows = other.documents.rows.filter (fun row => row.state = .ready) ∧
        r'.aliases = r.aliases ++ other.aliases := by
  unfold seedFrom at done
  split_ifs at done with full taken
  rw [← Option.some.inj done]
  exact ⟨not_not.mp full, rfl, rfl⟩

end Registry

/-! ### Every order of transactions -/

namespace Fleet

variable {ι : Type*} {ops : List (FleetOp ι)} {r r' other : Registry digest}
  {offers more : List (String × String)}

/-- What holds of every database: web documents differ in their contents, each document
was reserved, and each offer is known under its url. -/
structure Accounted (ops : List (FleetOp ι)) (r : Registry digest)
    (offers : List (String × String)) :
    Prop where
  sound : r.Sound
  reserved : ∀ row ∈ r.documents.rows, ∃ c, Reserves ops c ∧ row.url = c.url ∧
    row.hash = digest c.text ∧ row.kind = c.kind
  aliased : ∀ offer ∈ offers, r.Aliased offer.1 offer.2

theorem Accounted.empty : Accounted ops (Registry.empty : Registry digest) [] where
  sound := .empty
  reserved _ stored := absurd stored List.not_mem_nil
  aliased _ listed := absurd listed List.not_mem_nil

/-- A row under the id that a reservation would make is of its content and its kind. -/
theorem Accounted.unmixed (h : Accounted ops r offers) (distinct : DistinctNames digest ops)
    (disjoint : DisjointKinds ops) {c : ReserveCall} (issued : Reserves ops c) {row : Document}
    (found : r.get (docId digest c.url (digest c.text)) = some row) :
    row.hash = digest c.text ∧ row.kind = c.kind := by
  have stored := Registry.mem_of_get found
  obtain ⟨c', issued', url, hash, kind⟩ := h.reserved row stored
  have named := (Registry.id_of_get found).symm.trans (r.named row stored)
  rw [url, hash] at named
  obtain ⟨sameUrl, sameHash⟩ := distinct c c' issued issued' named
  exact ⟨hash.trans sameHash.symm, kind.trans (disjoint c' c issued' issued sameUrl.symm)⟩

theorem Accounted.reserve (h : Accounted ops r offers) (distinct : DistinctNames digest ops)
    (disjoint : DisjointKinds ops) {c : ReserveCall} (issued : Reserves ops c) :
    Accounted ops (c.after r) (offers ++ if c.kind = .web then [(c.url, c.text)] else []) where
  sound := h.sound.reserve c
  reserved := by
    intro row' stored
    rcases (r.rows_reserve c).2 row' stored with ⟨old, before, continues⟩ | rfl
    · obtain ⟨c', issued', url, hash, kind⟩ := h.reserved old before
      exact ⟨c', issued', continues.url_eq.trans url, continues.hash_eq.trans hash,
        continues.kind_eq.trans kind⟩
    · exact ⟨c, issued, rfl, rfl, rfl⟩
  aliased := by
    intro offer listed
    rcases List.mem_append.mp listed with earlier | now
    · exact (r.carries_reserve c).aliased (h.aliased offer earlier)
    · split_ifs at now with web
      · obtain rfl := List.mem_singleton.mp now
        refine Registry.aliased_reserve web fun row found => ?_
        obtain ⟨hash, kind⟩ := h.unmixed distinct disjoint issued found
        exact ⟨hash, kind.trans web⟩
      · exact absurd now List.not_mem_nil

theorem Accounted.update (h : Accounted ops r offers) {c : UpdateCall} (done : c.run r = some r') :
    Accounted ops r' (offers ++ []) where
  sound := h.sound.update done
  reserved := by
    intro row' stored
    obtain ⟨old, before, continues⟩ := (Registry.rows_update done).2 row' stored
    obtain ⟨c', issued, url, hash, kind⟩ := h.reserved old before
    exact ⟨c', issued, continues.url_eq.trans url, continues.hash_eq.trans hash,
      continues.kind_eq.trans kind⟩
  aliased := by
    intro offer listed
    rw [List.append_nil] at listed
    exact (Registry.carries_update done).aliased (h.aliased offer listed)

/-- A seeding fills an empty database, to which nothing can have been offered. -/
theorem Accounted.seed (h : Accounted ops r offers) (source : Accounted ops other more)
    (done : r.seedFrom other = some r') : Accounted ops r' (offers ++ carried other more) := by
  obtain ⟨emptied, rows, aliases⟩ := Registry.seedFrom_eq_some done
  have copied : ∀ row ∈ r'.documents.rows, row ∈ other.documents.rows ∧ row.state = .ready := by
    intro row stored
    rw [rows] at stored
    simpa using List.mem_filter.mp stored
  refine ⟨?_, fun row stored => source.reserved row (copied row stored).1, ?_⟩
  · refine source.sound.of_rows fun {id row} found => ?_
    obtain ⟨stored, ready⟩ := copied row (Registry.mem_of_get found)
    have before : other.get id = some row := by
      rw [← Registry.id_of_get found]
      exact Registry.get_id stored
    exact ⟨row, before, rfl, rfl, source.sound.ready before⟩
  · intro offer listed
    rcases List.mem_append.mp listed with earlier | handed
    · obtain ⟨row, stored, -⟩ := h.aliased offer earlier
      rw [emptied] at stored
      exact absurd stored List.not_mem_nil
    · obtain ⟨offered, found⟩ := List.mem_filter.mp handed
      obtain ⟨row, stored, held⟩ := List.any_eq_true.mp found
      obtain ⟨ready, web, hash⟩ :
          row.state = .ready ∧ row.kind = .web ∧ row.hash = digest offer.2 := by
        simpa using held
      -- The document that the offer is known with is the one that is copied.
      obtain ⟨known, storedKnown, webKnown, hashKnown, named⟩ := source.aliased offer offered
      obtain rfl : row = known :=
        source.sound.uniqueContent row stored known storedKnown web webKnown
        (hash.trans hashKnown.symm)
      refine ⟨row, ?_, web, hash, ?_⟩
      · rw [rows]
        exact List.mem_filter.mpr ⟨stored, by simpa using ready⟩
      · rw [aliases]
        exact List.mem_append_right _ named

variable [DecidableEq ι]

theorem accounted_put {s : Fleet digest ι} (h : ∀ i, Accounted ops (s.registry i) (s.offered i))
    {i : ι} (changed : Accounted ops r (s.offered i ++ more)) (j : ι) :
    Accounted ops ((s.put i r more).registry j) ((s.put i r more).offered j) := by
  unfold put
  dsimp only
  by_cases here : j = i
  · subst here
    rwa [Function.update_self, Function.update_self]
  · rw [Function.update_of_ne here, Function.update_of_ne here]
    exact h j

/-- **What every transaction keeps.** -/
theorem accounted_step (distinct : DistinctNames digest ops) (disjoint : DisjointKinds ops)
    {op : FleetOp ι} (issued : op ∈ ops) {s : Fleet digest ι}
    (h : ∀ i, Accounted ops (s.registry i) (s.offered i)) (j : ι) :
    Accounted ops ((s.step op).registry j) ((s.step op).offered j) := by
  cases op with
  | reserve i c => exact accounted_put h ((h i).reserve distinct disjoint ⟨i, issued⟩) j
  | update i c =>
    cases done : c.run (s.registry i) with
    | none =>
      simp only [step, done]
      exact h j
    | some r =>
      simp only [step, done]
      exact accounted_put h ((h i).update done) j
  | seed target source =>
    cases done : (s.registry target).seedFrom (s.registry source) with
    | none =>
      simp only [step, done]
      exact h j
    | some r =>
      simp only [step, done]
      exact accounted_put h ((h target).seed (h source) done) j

/-- What was offered stays offered. -/
theorem offered_step (s : Fleet digest ι) (op : FleetOp ι) (i : ι) :
    s.offered i ⊆ (s.step op).offered i := by
  -- A step writes to one database and only adds to what was offered there.
  have put : ∀ j (r : Registry digest) more, s.offered i ⊆ (s.put j r more).offered i := by
    intro j r more offer listed
    unfold Fleet.put
    dsimp only
    by_cases here : i = j
    · subst here
      rw [Function.update_self]
      exact List.mem_append_left _ listed
    · rwa [Function.update_of_ne here]
  cases op with
  | reserve j c => exact put j _ _
  | update j c =>
    simp only [step]
    cases c.run (s.registry j) with
    | none => exact List.Subset.refl _
    | some r => exact put j _ _
  | seed target source =>
    simp only [step]
    cases (s.registry target).seedFrom (s.registry source) with
    | none => exact List.Subset.refl _
    | some r => exact put target _ _

/-- **One document for each content.** After transactions in any order, in each database
no two web documents hold one content, and whatever was offered, by a reservation there
or before a seeding that copied it, is known under its url. -/
theorem content_unique (distinct : DistinctNames digest ops) (disjoint : DisjointKinds ops)
    (i : ι) :
    ((after ops : Fleet digest ι).registry i).UniqueContent ∧
      (∀ c, .reserve i c ∈ ops → c.kind = .web →
        (c.url, c.text) ∈ (after ops : Fleet digest ι).offered i) ∧
      ∀ offer ∈ (after ops : Fleet digest ι).offered i,
        ((after ops : Fleet digest ι).registry i).Aliased offer.1 offer.2 := by
  have keeps (op : FleetOp ι) (issued : op ∈ ops) (s : Fleet digest ι)
      (h : ∀ i, Accounted ops (s.registry i) (s.offered i)) :
      ∀ i, Accounted ops ((s.step op).registry i) ((s.step op).offered i) := fun j =>
    accounted_step distinct disjoint issued h j
  have accounted : ∀ i, Accounted ops ((after ops : Fleet digest ι).registry i)
      ((after ops : Fleet digest ι).offered i) :=
    foldl_invariant_of_mem (fun _ => .empty) keeps
  refine ⟨(accounted i).sound.uniqueContent, ?_, (accounted i).aliased⟩
  intro c issued web
  -- What a reservation offers is noted at its own step, and no later step drops it.
  obtain ⟨before, later, rfl⟩ := List.append_of_mem issued
  have here : (c.url, c.text) ∈ ((after before : Fleet digest ι).step (.reserve i c)).offered
      i := by
    simp [step, put, web]
  have onward := foldl_relates (R := fun s t : Fleet digest ι => s.offered i ⊆ t.offered i)
    (fun _ => List.Subset.refl _) (fun _ _ _ => List.Subset.trans)
    (fun s op => offered_step s op i) later ((after before : Fleet digest ι).step (.reserve i c))
  have split : (after (before ++ .reserve i c :: later) : Fleet digest ι) =
      later.foldl step ((after before : Fleet digest ι).step (.reserve i c)) := by
    rw [after, List.foldl_append, List.foldl_cons, after]
  rw [split]
  exact onward here

/-- A page becomes ready in one database, another is seeded from it, and the mirror of the
page is offered there. -/
def seededMirror : List (FleetOp Bool) :=
  [.reserve false (Shared.offerOne "https://example.org/a" 5),
    .update false ⟨"244a914be15150ef117c739a", .ready, some "local://web/244a914be15150ef117c739a",
      none, 7, 8, Nat.le_succ 7⟩,
    .seed true false, .reserve true (Shared.offerOne "https://example.org/mirror" 9)]

theorem reserves_seededMirror {c : ReserveCall} (issued : Reserves seededMirror c) :
    c = Shared.offerOne "https://example.org/a" 5 ∨
      c = Shared.offerOne "https://example.org/mirror" 9 := by
  obtain ⟨i, listed⟩ := issued
  simp only [seededMirror, List.mem_cons, FleetOp.reserve.injEq, reduceCtorEq, List.not_mem_nil,
    or_false, false_or] at listed
  exact listed.imp And.right And.right

theorem content_unique_seededMirror :
    ((after seededMirror : Fleet mirrorDigest Bool).registry true).UniqueContent ∧
      (∀ c, .reserve true c ∈ seededMirror → c.kind = .web →
        (c.url, c.text) ∈ (after seededMirror : Fleet mirrorDigest Bool).offered true) ∧
      ∀ offer ∈ (after seededMirror : Fleet mirrorDigest Bool).offered true,
        ((after seededMirror : Fleet mirrorDigest Bool).registry true).Aliased offer.1 offer.2 := by
  apply content_unique
  · intro c c' issued issued' same
    rcases reserves_seededMirror issued with rfl | rfl <;>
      rcases reserves_seededMirror issued' with rfl | rfl
    · exact ⟨rfl, rfl⟩
    · exact absurd same (by decide)
    · exact absurd same (by decide)
    · exact ⟨rfl, rfl⟩
  · intro c c' issued issued' same
    rcases reserves_seededMirror issued with rfl | rfl <;>
      rcases reserves_seededMirror issued' with rfl | rfl <;> rfl

/-- Both urls are known in the seeded database. -/
example : (after seededMirror : Fleet mirrorDigest Bool).offered true =
    [("https://example.org/a", "one"), ("https://example.org/mirror", "one")] := by decide

end Fleet

end AgentLabs.Rag
