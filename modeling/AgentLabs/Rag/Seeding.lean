import AgentLabs.Rag.Offers
import AgentLabs.Text.JsonText
import Mathlib.Data.List.Sort
import Mathlib.Data.Prod.Lex
import Mathlib.Data.String.Basic

/-!
# Seeding a registry

The runs of an experiment start from copies of one registry. Only the documents that are ready are
copied, but all aliases and heads. A copy answers as its source: it has the same snapshot and the
same active web documents, and a text that a ready document holds is reused under the same id.

What a reservation looks at for a text depends on the kind. A web text is looked up under every url,
and an internal one, whose url is the id it is managed under, under its own url only.

## Main definitions

* `Registry.snapshot`, `Registry.activeWeb`: the source's functions
* `Registry.Reached`: the registries that reservations, updates and copies come to
* `Registry.SeedLaw`: what is wanted of a copy

## Main results

* `Registry.seedFrom_empty`: a copy into a new database
* `Registry.seedLaw_holdsContent`: a copy is as wanted for the texts that are looked up
* `Registry.not_seedLaw_internal`: an internal text under another url is new
-/

namespace AgentLabs.Rag

open Math Text

/-- How a kind is spelled. -/
def Kind.name : Kind → String
  | .web => "web"
  | .internal => "internal"

/-- What a snapshot says of a document. -/
def Document.triple (row : Document) : Lex (String × Lex (String × String)) :=
  toLex (row.url, toLex (row.hash, row.kind.name))

namespace Registry

variable {digest : String → String}

/-! ### The functions -/

/-- `SELECT * FROM documents WHERE state='ready'`. -/
def readyRows (r : Registry digest) : List Document :=
  r.documents.rows.filter fun row => row.state = .ready

/-- When the heads of a document were last checked: `MAX(h.checked_at)`. -/
def checkedAt (r : Registry digest) (id : String) : Option ℕ :=
  ((r.heads.filter fun head => head.2.1 = id).map fun head => head.2.2).max?

/-- `Registry.active_web`: the ready documents that are a head, in the order of the groups. -/
def activeWeb (r : Registry digest) : List (Document × ℕ) :=
  ((r.readyRows.insertionSort fun a b => a.id ≤ b.id).filterMap fun row =>
    (r.checkedAt row.id).map fun checked => (row, checked))

/-- `Registry.snapshot`. -/
def snapshot (r : Registry digest) : String :=
  let documents := (r.readyRows.map Document.triple).insertionSort (· ≤ ·)
  let heads := (r.heads.map fun head => (head.1, head.2.1)).insertionSort fun a b => a.1 ≤ b.1
  digest (Json.dumps (.obj
    [("documents", .arr (documents.map fun triple =>
        .arr [.str (ofLex triple).1, .str (ofLex (ofLex triple).2).1,
          .str (ofLex (ofLex triple).2).2])),
      ("active_web", .arr (heads.map fun head => .arr [.str head.1, .str head.2]))]))

/-! ### What is wanted -/

/-- The registries that can be reached. -/
inductive Reached : Registry digest → Prop
  | empty : Reached Registry.empty
  | reserve {r : Registry digest} (before : Reached r) (c : ReserveCall) : Reached (c.after r)
  | update {r r' : Registry digest} (before : Reached r) (c : UpdateCall)
      (done : c.run r = some r') : Reached r'
  | seed {r r' : Registry digest} (before : Reached r)
      (done : seedFrom Registry.empty r = some r') : Reached r'

/-- The two registries answer a reservation of the content with the same document, which is
reused. -/
def ReusedAlike (source target : Registry digest) (url text : String) (kind : Kind) : Prop :=
  ∃ id, ∀ metadata path now later,
    (source.reserve url text metadata path kind now later).1 = (id, .reused) ∧
      (target.reserve url text metadata path kind now later).1 = (id, .reused)

/-- What is wanted of a copy into a new database: it has the snapshot and the active web documents
of its source, and answers alike where a ready document of the source holds the content. -/
def SeedLaw (holds : Registry digest → Document → String → String → Kind → Prop)
    (source : Registry digest) : Prop :=
  ∃ target, seedFrom Registry.empty source = some target ∧ target.snapshot = source.snapshot ∧
    target.activeWeb = source.activeWeb ∧
      ∀ url text kind,
        (∃ row ∈ source.documents.rows, row.state = .ready ∧ holds source row url text kind) →
          ReusedAlike source target url text kind

/-- The document has the text and the kind. -/
def HoldsText (_r : Registry digest) (row : Document) (_url text : String) (kind : Kind) : Prop :=
  row.hash = digest text ∧ row.kind = kind

/-- The document has the text where a reservation looks for it: it is a web document, for a web
text, or it has the url, and then no web document has the text if it is a web text. -/
def HoldsContent (r : Registry digest) (row : Document) (url text : String) (kind : Kind) : Prop :=
  row.hash = digest text ∧
    (kind = .web ∧ row.kind = .web ∨
      row.url = url ∧ (kind = .web → ∀ other ∈ r.documents.rows, other.hash = digest text →
      other.kind ≠ .web))

/-! ### Copies -/

section Copies

variable {r r' source : Registry digest} {row : Document} {id : String}

/-- The copy of a registry. -/
def seeded (r : Registry digest) : Registry digest where
  documents := ⟨r.readyRows, r.documents.nodup.sublist (List.filter_sublist.map Document.id)⟩
  aliases := r.aliases
  heads := r.heads
  named := fun row member => r.named row (List.mem_of_mem_filter member)

/-- **A copy into a new database** is made. -/
theorem seedFrom_empty (r : Registry digest) : seedFrom Registry.empty r = some r.seeded := by
  have new : ¬ (Registry.empty : Registry digest).documents.rows ≠ [] := not_not.mpr rfl
  have free : ¬ ((∃ a ∈ r.aliases, a ∈ (Registry.empty : Registry digest).aliases) ∨
      ∃ h ∈ r.heads, h.1 ∈ (Registry.empty : Registry digest).heads.keys) := by
    rintro (⟨a, -, listed⟩ | ⟨h, -, listed⟩)
    · cases listed
    · cases listed
  rw [seedFrom, if_neg new, if_neg free]
  rfl

@[simp] theorem readyRows_seeded (r : Registry digest) : r.seeded.readyRows = r.readyRows := by
  change r.readyRows.filter (fun row => row.state = .ready) = r.readyRows
  exact List.filter_eq_self.mpr fun row member => (List.mem_filter.mp member).2

theorem snapshot_seeded (r : Registry digest) : r.seeded.snapshot = r.snapshot := by
  simp only [snapshot, readyRows_seeded]
  rfl

theorem activeWeb_seeded (r : Registry digest) : r.seeded.activeWeb = r.activeWeb := by
  simp only [activeWeb, readyRows_seeded]
  rfl

theorem get_seeded (found : r.seeded.get id = some row) :
    r.get id = some row ∧ row.state = .ready := by
  obtain ⟨stored, rfl⟩ := Table.find?_eq_some_iff.mp found
  obtain ⟨held, ready⟩ := List.mem_filter.mp stored
  exact ⟨get_id held, of_decide_eq_true ready⟩

theorem Sound.seeded (sound : r.Sound) : r.seeded.Sound :=
  sound.of_rows fun {_ row} found =>
    ⟨row, (get_seeded found).1, rfl, rfl, sound.ready (get_seeded found).1⟩

/-- Every registry that is reached is sound. -/
theorem sound_of_reached (reached : Reached r) : r.Sound := by
  induction reached with
  | empty => exact Sound.empty
  | reserve _ c ih => exact ih.reserve c
  | update _ c done ih => exact ih.update done
  | seed _ done ih =>
    rw [seedFrom_empty] at done
    cases done
    exact ih.seeded

/-! ### Answers -/

/-- What a reservation answers for a document that is ready. -/
theorem reserve_of_deciding {url text : String} {kind : Kind}
    (looked : r.deciding url text kind = some row)
    (ready : row.state = .ready) (metadata : Json) (path : String) (now later : ℕ) :
    (r.reserve url text metadata path kind now later).1 = (row.id, .reused) := by
  rcases r.reserve_cases url text metadata path kind now later with
    ⟨other, looked', -, answer, -⟩ | ⟨other, looked', waiting, -⟩ | ⟨other, looked', waiting, -⟩
    | ⟨none, -⟩
  · cases looked.symm.trans looked'
    exact answer
  · cases looked.symm.trans looked'
    exact absurd ready waiting
  · cases looked.symm.trans looked'
    exact absurd ready waiting
  · cases looked.symm.trans none

/-- A reservation finds the document that holds the content. -/
theorem deciding_of_holdsContent (sound : r.Sound) (stored : row ∈ r.documents.rows)
    {url text : String} {kind : Kind}
    (holds : r.HoldsContent row url text kind) : r.deciding url text kind = some row := by
  obtain ⟨hash, ⟨webCall, web⟩ | ⟨rfl, noWeb⟩⟩ := holds
  · rw [deciding, if_pos webCall, ← hash, sound.duplicate_eq_some (get_id stored) web,
      Option.some_or]
  · have found : r.get (docId digest row.url (digest text)) = some row := by
      rw [← hash, ← r.named row stored]
      exact get_id stored
    rw [deciding, found]
    split_ifs with webCall
    · rw [duplicate_eq_none_iff.mpr (noWeb webCall), Option.none_or]
    · rfl

/-- **A copy is as wanted** for the texts that are looked up. -/
theorem seedLaw_holdsContent (reached : Reached source) : source.SeedLaw HoldsContent := by
  have sound := sound_of_reached reached
  refine ⟨source.seeded, seedFrom_empty source, snapshot_seeded source, activeWeb_seeded source, ?_⟩
  rintro url text kind ⟨row, stored, ready, holds⟩
  have copied : row ∈ source.seeded.documents.rows :=
    List.mem_filter.mpr ⟨stored, decide_eq_true ready⟩
  -- The copy has no web document that the source has not.
  have holds' : source.seeded.HoldsContent row url text kind :=
    ⟨holds.1, holds.2.imp id fun ⟨same, noWeb⟩ =>
      ⟨same, fun webCall other member => noWeb webCall other (List.mem_filter.mp member).1⟩⟩
  have looked := deciding_of_holdsContent sound stored holds
  have looked' := deciding_of_holdsContent sound.seeded copied holds'
  exact ⟨row.id, fun metadata path now later =>
    ⟨reserve_of_deciding looked ready metadata path now later,
      reserve_of_deciding looked' ready metadata path now later⟩⟩

end Copies

/-! ### An internal text under another id -/

/-- The digests of one text and of its names under two ids. -/
def managedDigest (text : String) : String :=
  if text = "one" then "7692c3ad3540bb803c020b3aee66cd8887123234ea0c6e7143c0add73ff431ed"
  else if text = "contract-alpha" ++ "\n" ++
      "7692c3ad3540bb803c020b3aee66cd8887123234ea0c6e7143c0add73ff431ed" then
    "c79d96a5c982cb2297881c1a67737280bfdd5e1c02eb9555678bcc23db62fb95"
  else "68d9effaff927c6c970e44e3021d54c0a3c6517722f1e82d7f5ba7a32171b31b"

/-- The reservation of an internal document. -/
def manage (now : ℕ) : ReserveCall where
  url := "contract-alpha"
  text := "one"
  metadata := .obj []
  path := "data/contract-alpha.md"
  kind := .internal
  now := now
  later := now
  ordered := le_rfl

theorem seven_le_eight : 7 ≤ 8 := Nat.le_succ 7

/-- The update when it is ready. -/
def managed : UpdateCall where
  id := "c79d96a5c982cb2297881c1a"
  state := .ready
  uri := some "local://internal/contract-alpha"
  now := 7
  later := 8
  ordered := seven_le_eight

/-- The registry with the document. -/
def managedRegistry : Registry managedDigest :=
  ((manage 5).after Registry.empty).rewrite managed.id
    (advance .ready (some "local://internal/contract-alpha") none 7 8) fun _ => ⟨rfl, rfl, rfl⟩

theorem reached_managedRegistry : Reached managedRegistry :=
  .update (.reserve .empty (manage 5)) managed rfl

/-- The reservation of a page at an address. -/
def page (url : String) (now : ℕ) : ReserveCall where
  url := url
  text := "two"
  metadata := .obj []
  path := "pages/two.md"
  kind := .web
  now := now
  later := now
  ordered := le_rfl

/-- The update when it is ready. -/
def published : UpdateCall where
  id := "68d9effaff927c6c970e44e3"
  state := .ready
  uri := some "local://web/two"
  now := 10
  later := 11
  ordered := Nat.le_succ 10

/-- The registry with a page as well, which has been found at two addresses. -/
def mirroredRegistry : Registry managedDigest :=
  (page "https://mirror" 12).after
    ((((page "https://origin" 9).after managedRegistry).rewrite published.id
      (advance .ready (some "local://web/two") none 10 11) fun _ => ⟨rfl, rfl, rfl⟩).setHead
        "https://origin" published.id 11)

theorem reached_mirroredRegistry : Reached mirroredRegistry :=
  .reserve (.update (.reserve reached_managedRegistry (page "https://origin" 9)) published rfl)
    (page "https://mirror" 12)

/-- A ready document of each kind, and a page that is the head of two addresses. -/
theorem seedLaw_holdsContent_mirrored : mirroredRegistry.readyRows.length = 2 ∧
    mirroredRegistry.heads.length = 2 ∧ mirroredRegistry.SeedLaw HoldsContent :=
  ⟨by decide, by decide, seedLaw_holdsContent reached_mirroredRegistry⟩

/-- **An internal text under another id** is new, although a ready document holds it. -/
theorem not_seedLaw_internal :
    ¬ ∀ source : Registry managedDigest, Reached source → source.SeedLaw HoldsText := by
  intro law
  obtain ⟨target, -, -, -, alike⟩ := law managedRegistry reached_managedRegistry
  have held : ∃ row ∈ managedRegistry.documents.rows, row.state = .ready ∧
      HoldsText managedRegistry row "contract-beta" "one" .internal :=
    ⟨_, .head _, rfl, rfl, rfl⟩
  obtain ⟨id, answers⟩ := alike "contract-beta" "one" .internal held
  have new : (managedRegistry.reserve "contract-beta" "one" .null "" .internal 9 9).1.2 =
      .new := by decide
  rw [(answers .null "" 9 9).1] at new
  cases new

end Registry

end AgentLabs.Rag
