import AgentLabs.Math.Lease
import AgentLabs.Rag.Registry

/-!
# Who may ingest a document

Workers share a registry and call its transactions in any order. A worker that a
reservation answered with `new` or `resumed` holds the document until the lease it
was given runs out, or until the lease it sets itself by an update does. Workers
that update only what they hold never hold one document together: their
transactions are the steps of a lease.

## Main definitions

* `Shared`: the registry, the clock, and the leases the workers remember
* `Shared.Step`: the transactions of disciplined workers
* `Registry.Sound`: ready rows are not let, and web rows differ in their digests

## Main results

* `Shared.Step.toLease`, `Shared.reachable_toLease`: a transaction is a step of the leases, and a
  run a run
* `Registry.Sound.reserve`, `Registry.Sound.update`: soundness is kept
* `Shared.lease_mutual_exclusion`: one holder for each document, ready documents
  stay ready, and one worker resumes what failed or expired
-/

namespace AgentLabs.Rag

open Math Text

variable {digest : String → String}

/-! ### Calls -/

/-- A reservation, with the two instants it reads. -/
structure ReserveCall where
  url : String
  text : String
  metadata : Json
  path : String
  kind : Kind
  now : ℕ
  later : ℕ
  ordered : now ≤ later

/-- An update, with the two instants it reads. -/
structure UpdateCall where
  id : String
  state : DocState
  uri : Option String := none
  error : Option String := none
  now : ℕ
  later : ℕ
  ordered : now ≤ later

namespace ReserveCall

/-- The id and the disposition that the reservation answers. -/
def answer (c : ReserveCall) (r : Registry digest) : String × Disposition :=
  (r.reserve c.url c.text c.metadata c.path c.kind c.now c.later).1

/-- The registry after the reservation. -/
def after (c : ReserveCall) (r : Registry digest) : Registry digest :=
  (r.reserve c.url c.text c.metadata c.path c.kind c.now c.later).2

end ReserveCall

/-- The registry after the update. -/
def UpdateCall.run (c : UpdateCall) (r : Registry digest) : Option (Registry digest) :=
  r.update c.id c.state c.uri c.error c.now c.later

namespace Registry

variable {r r' : Registry digest} {id id' : String} {row : Document}

/-- The lease of a document; none runs where there is no document. -/
def leaseOf (r : Registry digest) (id : String) : ℕ := ((r.get id).map Document.lease).getD 0

theorem leaseOf_of_get (h : r.get id = some row) : r.leaseOf id = row.lease := by
  simp [leaseOf, h]

/-- What a reservation changes: nothing, one row that may be let again, or one new row. -/
theorem reserve_get_cases (r : Registry digest) (c : ReserveCall) :
    ((c.answer r).2 ∈ [.reused, .pending] ∧ ∀ id, (c.after r).get id = r.get id) ∨
    (∃ row, r.get (c.answer r).1 = some row ∧ row.state ≠ .ready ∧ row.lease ≤ c.now ∧
      (c.answer r).2 = .resumed ∧ ∀ id, (c.after r).get id =
        if id = (c.answer r).1 then some { row with lease := c.later + leaseTime, error := none }
        else r.get id) ∨
    (r.deciding c.url c.text c.kind = none ∧ r.get (c.answer r).1 = none ∧
      (c.answer r).2 = .new ∧ ∀ id, (c.after r).get id =
        if id = (c.answer r).1 then
          some (newRow digest c.url c.text c.metadata c.path c.kind c.now c.later)
        else r.get id) := by
  rcases r.reserve_cases c.url c.text c.metadata c.path c.kind c.now c.later with
    ⟨row, -, -, answer, same⟩ | ⟨row, -, -, -, answer, same⟩ |
    ⟨row, found, waiting, expired, answer, rewritten⟩ | ⟨none, answer, added⟩
  · exact .inl ⟨by simp [ReserveCall.answer, answer], fun id => by
      rw [get, ReserveCall.after, same, get]⟩
  · exact .inl ⟨by simp [ReserveCall.answer, answer], fun id => by
      rw [get, ReserveCall.after, same, get]⟩
  · -- A row that may be let again is the one under the answered id.
    have stored := get_deciding found
    refine .inr (.inl ⟨row, ?_, waiting, expired, ?_, fun id => ?_⟩)
    · rw [ReserveCall.answer, answer, stored]
    · rw [ReserveCall.answer, answer]
    · rw [get, ReserveCall.after, rewritten, Table.find?_update, ReserveCall.answer, answer]
      split_ifs with here
      · rw [here, show r.documents.find? row.id = some row from stored, Option.map_some]
      · rfl
  · have free := get_of_deciding_none none
    refine .inr (.inr ⟨none, ?_, ?_, fun id => ?_⟩)
    · rw [ReserveCall.answer, answer, free]
    · rw [ReserveCall.answer, answer]
    · rw [get, ReserveCall.after, added, ← get, get_add free, ReserveCall.answer, answer]
      simp only [newRow, eq_comm]

/-- What an update changes: the row of its id. -/
theorem get_update {c : UpdateCall} (done : c.run r = some r') (id : String) :
    r'.get id =
      if id = c.id then (r.get id).map (advance c.state c.uri c.error c.now c.later)
        else r.get id :=
  (update_eq_some done).1 id

/-- **What a reservation of a stored document answers.** -/
theorem answer_of_get {c : ReserveCall} (found : r.get id = some row)
    (about : (c.answer r).1 = id) :
    (c.answer r).2 =
      if row.state = .ready then .reused else if c.now < row.lease then .pending else .resumed := by
  have decided : ∀ {other disposition}, r.deciding c.url c.text c.kind = some other →
      c.answer r = (other.id, disposition) → other = row := by
    intro other disposition looked answer
    have stored := get_deciding looked
    rw [← about, answer] at found
    exact Option.some.inj (stored.symm.trans found)
  rcases r.reserve_cases c.url c.text c.metadata c.path c.kind c.now c.later with
    ⟨other, looked, ready, answer, -⟩ | ⟨other, looked, waiting, running, answer, -⟩ |
    ⟨other, looked, waiting, expired, answer, -⟩ | ⟨none, answer, -⟩
  · rw [← decided looked answer, if_pos ready, ReserveCall.answer, answer]
  · rw [← decided looked answer, if_neg waiting, if_pos running, ReserveCall.answer, answer]
  · rw [← decided looked answer, if_neg waiting, if_neg (Nat.not_lt.mpr expired),
      ReserveCall.answer, answer]
  · rw [← about, ReserveCall.answer, answer, get_of_deciding_none none] at found
    cases found

/-- A ready document is not let, and no two web documents have one digest. -/
structure Sound (r : Registry digest) : Prop where
  ready : ∀ {id row}, r.get id = some row → row.state = .ready → row.lease = 0
  unique : ∀ {id id' row row'}, r.get id = some row → r.get id' = some row' → row.kind = .web →
    row'.kind = .web → row.hash = row'.hash → id = id'

namespace Sound

theorem empty : Sound (Registry.empty : Registry digest) where
  ready found := by cases found
  unique found := by cases found

theorem duplicate_eq_some (h : r.Sound) (found : r.get id = some row) (web : row.kind = .web) :
    r.duplicate row.hash = some row := by
  cases dup : r.duplicate row.hash with
  | none => exact absurd web (duplicate_eq_none_iff.mp dup row (mem_of_get found) rfl)
  | some other =>
    obtain ⟨stored, hash, web'⟩ := of_duplicate dup
    have same := h.unique (get_id stored) found web' web hash
    rw [← found, ← same, get_id stored]

/-- A registry is sound when each of its rows is an old one, in digest, kind and, where
it is ready, in lease. -/
theorem of_rows (h : r.Sound)
    (old : ∀ {id row}, r'.get id = some row → ∃ row', r.get id = some row' ∧
      row.hash = row'.hash ∧ row.kind = row'.kind ∧ (row.state = .ready → row.lease = 0)) :
    r'.Sound where
  ready found isReady := by
    obtain ⟨-, -, -, -, lease⟩ := old found
    exact lease isReady
  unique found found' web web' hash := by
    obtain ⟨row, stored, sameHash, sameKind, -⟩ := old found
    obtain ⟨row', stored', sameHash', sameKind', -⟩ := old found'
    exact h.unique stored stored' (sameKind ▸ web) (sameKind' ▸ web')
      (sameHash.symm.trans (hash.trans sameHash'))

/-- A web reservation of a text is about the web document that has it. -/
theorem answer_web (h : r.Sound) {c : ReserveCall} (found : r.get id = some row)
    (web : row.kind = .web) (webCall : c.kind = .web) (text : digest c.text = row.hash) :
    (c.answer r).1 = id := by
  have looked : r.deciding c.url c.text c.kind = some row := by
    rw [deciding, if_pos webCall, text, h.duplicate_eq_some found web, Option.some_or]
  have named := id_of_get found
  rcases r.reserve_cases c.url c.text c.metadata c.path c.kind c.now c.later with
    ⟨other, looked', -, answer, -⟩ | ⟨other, looked', -, -, answer, -⟩ |
    ⟨other, looked', -, -, answer, -⟩ | ⟨none, -⟩
  · obtain rfl := Option.some.inj (looked.symm.trans looked')
    rw [ReserveCall.answer, answer, named]
  · obtain rfl := Option.some.inj (looked.symm.trans looked')
    rw [ReserveCall.answer, answer, named]
  · obtain rfl := Option.some.inj (looked.symm.trans looked')
    rw [ReserveCall.answer, answer, named]
  · rw [looked] at none
    cases none

theorem reserve (h : r.Sound) (c : ReserveCall) : (c.after r).Sound := by
  rcases r.reserve_get_cases c with
    ⟨-, same⟩ | ⟨old, found, waiting, -, -, after⟩ | ⟨none, free, -, after⟩
  · refine h.of_rows fun {id row} stored => ⟨row, same id ▸ stored, rfl, rfl, ?_⟩
    exact h.ready (same id ▸ stored)
  · refine h.of_rows fun {id row} stored => ?_
    rw [after] at stored
    split_ifs at stored with here
    · obtain rfl := Option.some.inj stored
      exact ⟨old, here ▸ found, rfl, rfl, fun ready => absurd ready waiting⟩
    · exact ⟨row, stored, rfl, rfl, h.ready stored⟩
  · -- A new web row is made only when no web row has its digest.
    have fresh : ∀ {id row}, r.get id = some row → row.kind = .web → c.kind = .web →
        row.hash ≠ digest c.text := by
      intro id row stored web webCall hash
      rw [deciding, Option.or_eq_none_iff, if_pos webCall, duplicate_eq_none_iff] at none
      exact none.1 row (mem_of_get stored) hash web
    constructor
    · intro id row stored ready
      rw [after] at stored
      split_ifs at stored with here
      · obtain rfl := Option.some.inj stored
        cases ready
      · exact h.ready stored ready
    · intro id id' row row' stored stored' web web' hash
      rw [after] at stored stored'
      split_ifs at stored stored' with here here' here'
      · exact here.trans here'.symm
      · obtain rfl := Option.some.inj stored
        exact absurd hash.symm (fresh stored' web' web)
      · obtain rfl := Option.some.inj stored'
        exact absurd hash (fresh stored web web')
      · exact h.unique stored stored' web web' hash

theorem update (h : r.Sound) {c : UpdateCall} (done : c.run r = some r') : r'.Sound := by
  refine h.of_rows fun {id row} stored => ?_
  rw [get_update done] at stored
  split_ifs at stored with here
  · obtain ⟨old, found, rfl⟩ := Option.map_eq_some_iff.mp stored
    refine ⟨old, found, rfl, rfl, fun ready => ?_⟩
    simp only [advance] at ready
    simp [advance, leaseAfter, ready]
  · exact ⟨row, stored, rfl, rfl, h.ready stored⟩

end Sound

end Registry

/-! ### Workers -/

/-- The registry, the clock, and the lease of each document that each worker set last. -/
structure Shared (digest : String → String) (ω : Type*) where
  registry : Registry digest
  clock : ℕ
  held : String → ω → ℕ

namespace Shared

variable {ω : Type*}

/-- The worker holds the document: the lease it set last still runs. -/
def Holds (s : Shared digest ω) (w : ω) (id : String) : Prop := s.clock < s.held id w

instance (s : Shared digest ω) (w : ω) (id : String) : Decidable (s.Holds w id) :=
  inferInstanceAs (Decidable (_ < _))

/-- The leases of a shared registry. -/
def toLease (s : Shared digest ω) : LeaseState String ω ℕ := ⟨s.clock, s.registry.leaseOf, s.held⟩

variable [DecidableEq ω]

/-- The worker remembers the lease that the registry has now. -/
def remember (s : Shared digest ω) (w : ω) (id : String) (r : Registry digest) (later : ℕ) :
    Shared digest ω where
  registry := r
  clock := later
  held := Function.update s.held id (Function.update (s.held id) w (r.leaseOf id))

/-- After a reservation by the worker. -/
def reserved (s : Shared digest ω) (w : ω) (c : ReserveCall) : Shared digest ω :=
  if (c.answer s.registry).2 ∈ [.new, .resumed] then
    s.remember w (c.answer s.registry).1 (c.after s.registry) c.later
  else { s with registry := c.after s.registry, clock := c.later }

/-- A transaction of a worker. A worker updates a document only while it holds it. -/
inductive Step : Shared digest ω → Shared digest ω → Prop
  | reserve {s : Shared digest ω} (w : ω) (c : ReserveCall) (begins : s.clock ≤ c.now) :
      Step s (s.reserved w c)
  | update {s : Shared digest ω} (w : ω) (c : UpdateCall) {r : Registry digest}
      (begins : s.clock ≤ c.now) (holds : c.now < s.held c.id w)
      (done : c.run s.registry = some r) : Step s (s.remember w c.id r c.later)

variable {s t : Shared digest ω} {w : ω} {id : String} {r : Registry digest} {later : ℕ}

/-- Where only one document changes, remembering its lease is letting it. -/
theorem toLease_remember (others : ∀ id', id' ≠ id → r.get id' = s.registry.get id') :
    (s.remember w id r later).toLease = s.toLease.put w id later (r.leaseOf id) := by
  have leases : r.leaseOf = Function.update s.registry.leaseOf id (r.leaseOf id) := by
    ext id'
    by_cases same : id' = id
    · rw [same, Function.update_self]
    · rw [Function.update_of_ne same, Registry.leaseOf, others id' same, Registry.leaseOf]
  rw [remember, toLease, leases, LeaseState.put]
  simp [toLease]

/-- **A transaction is a step of the leases.** -/
theorem Step.toLease (one : Step s t) : LeaseState.Step s.toLease t.toLease := by
  cases one with
  | reserve w c begins =>
    rcases Registry.reserve_get_cases s.registry c with
      ⟨kept, same⟩ | ⟨row, found, -, expired, resumed, after⟩ | ⟨-, free, new, after⟩
    · have waits : (c.answer s.registry).2 ∉ [Disposition.new, .resumed] := by
        rcases List.mem_pair.mp kept with h | h <;> simp [h]
      -- A reservation that is told to wait changes no lease; only the clock has gone on.
      have leases : (c.after s.registry).leaseOf = s.registry.leaseOf := by
        ext id
        rw [Registry.leaseOf, same, Registry.leaseOf]
      have waited : ({ s with registry := c.after s.registry, clock := c.later } :
          Shared digest ω).toLease = { s.toLease with clock := c.later } := by
        simp only [Shared.toLease, leases]
      rw [reserved, if_neg waits, waited]
      exact .wait (begins.trans c.ordered)
    · rw [reserved, if_pos (by simp [resumed]), toLease_remember fun id' other => by
        rw [after, if_neg other]]
      have free : s.toLease.lease (c.answer s.registry).1 ≤ c.now :=
        (Registry.leaseOf_of_get found).trans_le expired
      exact .grant w _ begins c.ordered free
    · rw [reserved, if_pos (by simp [new]), toLease_remember fun id' other => by
        rw [after, if_neg other]]
      -- A document that was not there has never been let.
      have unlet : s.toLease.lease (c.answer s.registry).1 = 0 := by
        simp [Shared.toLease, Registry.leaseOf, free]
      exact .grant w _ begins c.ordered (unlet.trans_le (Nat.zero_le _))
  | update w c begins holds done =>
    rw [toLease_remember fun id' other => by rw [Registry.get_update done, if_neg other]]
    exact .renew w _ begins c.ordered holds

/-- The start of a run: the registry is sound and no worker holds anything. -/
def Initial (s : Shared digest ω) : Prop := s.registry.Sound ∧ s.toLease.Unheld

theorem sound_of_reachable (reached : Reachable Initial Step s) : s.registry.Sound := by
  apply reached.invariant
  · exact fun _ start => start.1
  · intro s t _ sound one
    cases one with
    | reserve w c _ =>
      rw [reserved]
      split_ifs
      · exact sound.reserve c
      · exact sound.reserve c
    | update w c _ _ done => exact sound.update done

/-- **The registry refines the leases**: its runs are runs of the leases. -/
theorem reachable_toLease (reached : Reachable Initial Step s) :
    Reachable LeaseState.Unheld LeaseState.Step s.toLease := by
  apply reached.map
  · exact fun _ start => start.2
  · exact fun _ _ one => one.toLease

theorem exclusive_of_reachable (reached : Reachable Initial Step s) : s.toLease.Exclusive :=
  LeaseState.exclusive_of_reachable (reachable_toLease reached)

/-- A lease that a worker still has is running at the registry. -/
theorem lease_of_holds (reached : Reachable Initial Step s) {now : ℕ} (begins : s.clock ≤ now)
    (holds : now < s.held id w) : ∃ row, s.registry.get id = some row ∧ now < row.lease := by
  have running : now < s.registry.leaseOf id :=
    (exclusive_of_reachable reached).running begins holds
  cases found : s.registry.get id with
  | none => simp [Registry.leaseOf, found] at running
  | some row => exact ⟨row, rfl, Registry.leaseOf_of_get found ▸ running⟩

/-- A ready document stays ready through a transaction: no worker holds it. -/
theorem ready_step (reached : Reachable Initial Step s) (one : Step s t) {row : Document}
    (found : s.registry.get id = some row) (ready : row.state = .ready) :
    t.registry.get id = some row := by
  cases one with
  | reserve w c _ =>
    -- A reservation only writes a document that is not ready, or a new one.
    have kept : (c.after s.registry).get id = some row := by
      rcases s.registry.reserve_get_cases c with
        ⟨-, same⟩ | ⟨old, stored, waiting, -, -, after⟩ | ⟨-, free, -, after⟩
      · rw [same, found]
      · rw [after, if_neg, found]
        rintro rfl
        exact waiting (Option.some.inj (stored.symm.trans found) ▸ ready)
      · rw [after, if_neg, found]
        rintro rfl
        rw [free] at found
        cases found
    rw [reserved]
    split_ifs <;> exact kept
  | update w c begins holds done =>
    obtain ⟨row', stored, running⟩ := lease_of_holds reached begins holds
    -- A ready document has no lease, so the worker that updates holds another one.
    have other : id ≠ c.id := by
      rintro rfl
      obtain rfl := Option.some.inj (stored.symm.trans found)
      exact absurd running (by
        rw [(sound_of_reachable reached).ready found ready]
        exact Nat.not_lt_zero _)
    exact (Registry.get_update done id).trans (by rw [if_neg other, found])

theorem ready_steps (reached : Reachable Initial Step s) (more : Relation.ReflTransGen Step s t)
    {row : Document} (found : s.registry.get id = some row) (ready : row.state = .ready) :
    t.registry.get id = some row := by
  induction more with
  | refl => exact found
  | tail before one ih => exact ready_step (reached.trans before) one ih ready

/-- While a worker holds a document, its other reservations wait. -/
theorem pending_of_holds (reached : Reachable Initial Step s) {c : ReserveCall}
    (begins : s.clock ≤ c.now) (holds : c.now < s.held id w)
    (about : (c.answer s.registry).1 = id) : (c.answer s.registry).2 = .pending := by
  obtain ⟨row, found, running⟩ := lease_of_holds reached begins holds
  have waiting : row.state ≠ .ready := by
    intro ready
    rw [(sound_of_reachable reached).ready found ready] at running
    exact Nat.not_lt_zero _ running
  rw [Registry.answer_of_get found about, if_neg waiting, if_pos running]

/-- A document that failed or expired is resumed by whoever reserves it next, who
holds it then. -/
theorem resumed_of_expired {row : Document} (found : s.registry.get id = some row)
    (waiting : row.state ≠ .ready) {c : ReserveCall} (expired : row.lease ≤ c.now)
    (about : (c.answer s.registry).1 = id) :
    (c.answer s.registry).2 = .resumed ∧ (s.reserved w c).Holds w id := by
  have answer : (c.answer s.registry).2 = .resumed := by
    rw [Registry.answer_of_get found about, if_neg waiting, if_neg (Nat.not_lt.mpr expired)]
  refine ⟨answer, ?_⟩
  have lease : (c.after s.registry).leaseOf id = c.later + leaseTime := by
    rcases s.registry.reserve_get_cases c with
      ⟨kept, -⟩ | ⟨old, -, -, -, -, after⟩ | ⟨-, -, new, -⟩
    · rw [answer] at kept
      simp at kept
    · rw [Registry.leaseOf, after, if_pos about.symm]
      rfl
    · rw [answer] at new
      cases new
  rw [reserved, if_pos (by simp [answer]), about, remember, Holds]
  simp only [Function.update_self, lease]
  exact Nat.lt_add_of_pos_right (by decide)

/-- **One holder for each document.** In every state that disciplined workers reach,
at most one worker holds a document; a ready web document is handed out as reused
only, and stays ready; and a document that failed or expired is resumed by the worker
that reserves it next, while the others wait for as long as that worker keeps its
lease running. Reservations of a web document are those of its text, under any url. -/
theorem lease_mutual_exclusion (reached : Reachable Initial Step s) :
    (∀ {v w id}, s.Holds v id → s.Holds w id → v = w) ∧
    (∀ {id row}, s.registry.get id = some row → row.kind = .web →
      ∀ c : ReserveCall, c.kind = .web → digest c.text = row.hash →
        (c.answer s.registry).1 = id) ∧
    (∀ {id row}, s.registry.get id = some row → row.kind = .web → row.state = .ready →
      (∀ c : ReserveCall, (c.answer s.registry).1 = id → (c.answer s.registry).2 = .reused) ∧
      ∀ t, Relation.ReflTransGen Step s t →
        ∃ row', t.registry.get id = some row' ∧ row'.state = .ready) ∧
    ∀ {id row}, s.registry.get id = some row → row.state ≠ .ready →
      ∀ (w : ω) (c : ReserveCall), s.clock ≤ c.now → row.lease ≤ c.now →
        (c.answer s.registry).1 = id →
        (c.answer s.registry).2 = .resumed ∧ (s.reserved w c).Holds w id ∧
        ∀ t, Relation.ReflTransGen Step (s.reserved w c) t →
          ∀ c' : ReserveCall, t.clock ≤ c'.now → c'.now < t.held id w →
            (c'.answer t.registry).1 = id → (c'.answer t.registry).2 = .pending := by
  have sound := sound_of_reachable reached
  refine ⟨(exclusive_of_reachable reached).unique, ?_, ?_, ?_⟩
  · intro id row found web c webCall text
    exact sound.answer_web found web webCall text
  · intro id row found _ ready
    refine ⟨fun c about => ?_, fun t more => ⟨row, ready_steps reached more found ready, ready⟩⟩
    rw [Registry.answer_of_get found about, if_pos ready]
  · intro id row found waiting w c begins expired about
    -- The state after the resumption is reachable again, and the new lease still runs there.
    obtain ⟨answer, holds⟩ := resumed_of_expired (w := w) found waiting expired about
    refine ⟨answer, holds, fun t more c' begins' holds' about' => ?_⟩
    exact pending_of_holds ((reached.next (.reserve w c begins)).trans more) begins' holds' about'

/-! ### A failure and its resumption -/

/-- The digests of one text and of its document's name. -/
def oneDigest (text : String) : String :=
  if text = "one" then "7692c3ad3540bb803c020b3aee66cd8887123234ea0c6e7143c0add73ff431ed"
  else "244a914be15150ef117c739a5e63b288c3b9774ca3f5a26f1c3158ce8e79927b"

/-- The text offered under a url at the instant. -/
def offerOne (url : String) (now : ℕ) : ReserveCall where
  url := url
  text := "one"
  metadata := .obj []
  path := "sources/244a914be15150ef117c739a.md"
  kind := .web
  now := now
  later := now
  ordered := le_rfl

/-- Two workers and a new database. -/
def newDatabase : Shared oneDigest Bool := ⟨Registry.empty, 0, fun _ _ => 0⟩

/-- One worker reserves the document. -/
def firstReserved : Shared oneDigest Bool :=
  newDatabase.reserved false (offerOne "https://example.org/a" 5)

/-- Its update when the ingestion fails. -/
def failure : UpdateCall where
  id := "244a914be15150ef117c739a"
  state := .failed
  error := some "TimeoutError"
  now := 7
  later := 8
  ordered := by decide

/-- The registry after the failure. -/
def failedRegistry : Registry oneDigest :=
  firstReserved.registry.rewrite failure.id
    (Registry.advance .failed none (some "TimeoutError") 7 8) fun _ => ⟨rfl, rfl, rfl⟩

/-- After the failure. -/
def afterFailure : Shared oneDigest Bool :=
  firstReserved.remember false failure.id failedRegistry failure.later

/-- The other worker resumes the document under another url. -/
def secondReserved : Shared oneDigest Bool :=
  afterFailure.reserved true (offerOne "https://example.org/mirror" 9)

theorem reachable_secondReserved : Reachable Initial Step secondReserved := by
  have started : Initial newDatabase :=
    ⟨Registry.Sound.empty, fun w id holds => Nat.lt_irrefl 0 holds⟩
  have first := Reachable.next (.start started)
    (Step.reserve false (offerOne "https://example.org/a" 5) (by decide))
  have second := first.next (Step.update false failure (by decide) (by decide) rfl)
  exact second.next (.reserve true (offerOne "https://example.org/mirror" 9) (by decide))

theorem lease_mutual_exclusion_secondReserved :
    secondReserved.Holds true failure.id ∧
    (∀ {v w id}, secondReserved.Holds v id → secondReserved.Holds w id → v = w) :=
  ⟨by decide, (lease_mutual_exclusion reachable_secondReserved).1⟩

end Shared

end AgentLabs.Rag
