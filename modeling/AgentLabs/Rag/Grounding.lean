import AgentLabs.Rag.Architectures
import AgentLabs.Rag.BackendRun

/-!
# Grounded answers

The graphs run over the backend: what they retrieve and add goes through it, and their models are
metered. So an answer cites what was quoted from documents that apply to the customer and the day,
or from pages of the web where the request names a public topic, whichever graph is used and
whatever the models say.

## Main definitions

* `Outside.Keeps`: what every call of an outside keeps
* `Voices`, `Backend.outside`: the models, and the outside of a graph over a backend
* `GroundedLaw`: what is wanted of an answer

## Main results

* `keeps_graph`: what every call keeps is kept by a graph
* `Backend.groundedLaw`: each answer of each graph over a backend
-/

namespace AgentLabs.Rag

open Math Text Program

/-! ### What the calls keep -/

/-- Every call of the outside keeps the property. -/
structure Outside.Keeps {τ : Type} (out : Outside τ) (P : τ → Prop) : Prop where
  action : ∀ role payload, Program.Keeps P (out.action role payload)
  sufficiency : ∀ payload, Program.Keeps P (out.sufficiency payload)
  answer : ∀ asRole payload, Program.Keeps P (out.answer asRole payload)
  review : ∀ payload, Program.Keeps P (out.review payload)
  retrieve : ∀ query, Program.Keeps P (out.retrieve query)
  enrich : Program.Keeps P out.enrich

/-- Every call of the planners keeps the property. -/
structure Planners.Keeps {τ : Type} (planners : Planners τ) (P : τ → Prop) : Prop where
  queryPlan : ∀ payload, Program.Keeps P (planners.queryPlan payload)
  route : ∀ payload, Program.Keeps P (planners.route payload)

namespace Desk

variable {τ : Type} {P : τ → Prop} {out : Outside τ} {planners : Planners τ} (desk : Desk)

section Parts

variable (h : out.Keeps P)

include h

theorem keeps_ensure (evidence : List Evidence) (question : String) :
    Program.Keeps P (desk.ensure out evidence question) := by
  refine .ite (keeps_pure _) ?_
  refine ((keeps_ofExcept _).bind fun shown => h.sufficiency _).bind fun gap => ?_
  refine .ite (keeps_pure _) ?_
  exact h.enrich.bind fun transient => (h.retrieve _).bind fun updated => keeps_pure _

theorem keeps_generate (evidence : List Evidence) (question : String) (asRole : AskedAs)
    (prior : List Json) : Program.Keeps P (desk.generate out evidence question asRole prior) := by
  refine (keeps_ofExcept _).bind fun shown => .ite (keeps_pure _) ?_
  exact (h.answer _ _).bind fun answer => .ite (keeps_throw _) (keeps_pure _)

theorem keeps_review (answer : GroundedAnswer) (evidence : List Evidence) (question : String) :
    Program.Keeps P (desk.review out answer evidence question) :=
  (keeps_ofExcept _).bind fun _ => h.review _

theorem keeps_conclude (task : Task) (answer : GroundedAnswer) (evidence : List Evidence) :
    Program.Keeps P (desk.conclude out task answer evidence) :=
  (keeps_review desk h _ _ _).bind fun _ => keeps_ofExcept _

theorem keeps_workerLoop (task : Task) (prior : List Json) (left : ℕ) (evidence : List Evidence)
    (history : List ToolStep) :
    Program.Keeps P (desk.workerLoop out task prior left evidence history) := by
  induction left generalizing evidence history with
  | zero => exact keeps_pure _
  | succ left ih =>
    refine (keeps_ofExcept _).bind fun shown => (h.action _ _).bind fun action => .ite ?_ ?_
    · refine .ite (keeps_throw _) ?_
      exact (keeps_conclude desk h task _ _).bind fun result => keeps_pure _
    · refine .ite (keeps_pure _) ?_
      refine ((h.retrieve _).bind fun found => keeps_ensure desk h found _).bind fun found => ?_
      exact ih _ _

theorem keeps_worker (task : Task) (prior : List Json) :
    Program.Keeps P (desk.worker out task prior) := by
  refine .ite (keeps_throw _) ?_
  refine (keeps_workerLoop desk h task prior 3 [] []).bind fun ended => ?_
  cases ended with
  | inl result => exact keeps_pure _
  | inr evidence =>
    exact (keeps_generate desk h evidence _ _ _).bind fun answer =>
      keeps_conclude desk h task _ _

theorem keeps_retrieveEach (queries : List String) :
    Program.Keeps P (retrieveEach out queries) := by
  induction queries with
  | nil => exact keeps_pure _
  | cons query rest ih =>
    exact (h.retrieve query).bind fun found => ih.bind fun others => keeps_pure _

omit h in
theorem keeps_field {α : Type} (value : Option α) :
    Program.Keeps P (field value : Program τ WorkerError α) := by
  cases value with
  | none => exact keeps_throw _
  | some a => exact keeps_pure a

end Parts

/-- **What every call keeps is kept by a graph**, whichever it is. -/
theorem keeps_graph (h : out.Keeps P) (asks : planners.Keeps P) (a : Architecture) (limit : ℕ)
    (path : List Stage) (v : Stage) (s : RagState) :
    Program.Keeps P ((a.graph desk out planners).run limit path v s) := by
  -- Node by node: each is made of calls that keep the property and of steps without an effect.
  refine Workflow.keeps_run (fun v s => ?_) limit path v s
  cases a with
  | baseline =>
    cases v with
    | retrieve =>
      exact (h.retrieve _).bind fun found => (keeps_ensure desk h _ _).bind fun refs => keeps_pure _
    | answer =>
      refine (keeps_field _).bind fun refs => (keeps_generate desk h _ _ _ _).bind fun answer => ?_
      exact (keeps_ofExcept _).bind fun result => keeps_pure _
    | _ => exact keeps_pure _
  | adaptive =>
    cases v with
    | plan => exact (asks.queryPlan _).bind fun p => .ite (keeps_pure _) (keeps_pure _)
    | retrieve =>
      refine (keeps_field _).bind fun p => Program.Keeps.bind ?_ fun queries => ?_
      · exact .ite (keeps_pure _) ((keeps_field _).bind fun review => keeps_pure _)
      · exact (keeps_retrieveEach h queries).bind fun found =>
          (keeps_ensure desk h _ _).bind fun refs => keeps_pure _
    | answer =>
      exact (keeps_field _).bind fun refs => (keeps_field _).bind fun p =>
        (keeps_generate desk h _ _ _ _).bind fun draft => keeps_pure _
    | review =>
      refine (keeps_field _).bind fun refs => (keeps_field _).bind fun draft =>
        (keeps_field _).bind fun p => (keeps_review desk h _ _ _).bind fun review => ?_
      exact (keeps_ofExcept _).bind fun result => keeps_pure _
    | _ => exact keeps_pure _
  | sequential =>
    cases v with
    | research => exact (keeps_worker desk h _ _).bind fun result => keeps_pure _
    | write =>
      exact (keeps_field _).bind fun refs => (keeps_field _).bind fun research =>
        (keeps_generate desk h _ _ _ _).bind fun draft => keeps_pure _
    | verify =>
      refine (keeps_field _).bind fun refs => (keeps_field _).bind fun draft =>
        (keeps_review desk h _ _ _).bind fun review => ?_
      exact (keeps_ofExcept _).bind fun result => keeps_pure _
    | _ => exact keeps_pure _
  | router =>
    cases v with
    | route =>
      refine Program.Keeps.bind ?_ fun route => keeps_pure _
      exact (asks.route _).bind fun route => .ite (keeps_throw _) (keeps_pure _)
    | specialist =>
      exact (keeps_field _).bind fun owner => (keeps_worker desk h _ _).bind fun result =>
        keeps_pure _
    | _ => exact keeps_pure _
  | web =>
    cases v with
    | retrieve => exact (h.retrieve _).bind fun found => keeps_pure _
    | enrich =>
      exact (keeps_field _).bind fun found => (keeps_ensure desk h _ _).bind fun refs =>
        keeps_pure _
    | answer =>
      refine (keeps_field _).bind fun refs => (keeps_generate desk h _ _ _ _).bind fun answer => ?_
      refine (keeps_review desk h _ _ _).bind fun review => ?_
      exact (keeps_ofExcept _).bind fun result => keeps_pure _
    | _ => exact keeps_pure _

end Desk

/-! ### Graphs over a backend -/

/-- What the models say. -/
structure Voices (ω : Type) where
  action : Role → Fields → Program ω WorkerError WorkerAction
  sufficiency : Fields → Program ω WorkerError Sufficiency
  answer : AskedAs → Fields → Program ω WorkerError GroundedAnswer
  review : Fields → Program ω WorkerError Review
  queryPlan : Fields → Program ω WorkerError QueryPlan
  route : Fields → Program ω WorkerError Route

namespace Backend

variable {ω : Type} (b : Backend ω)

/-- `Models.ask`: the call is metered before the model is asked, and what comes too late is not
taken. -/
def ask {α : Type} (call : Program ω WorkerError α) : Program (Session ω) WorkerError α := do
  b.consume "model"
  let a ← outdoors call
  b.check
  pure a

/-- The outside of a graph over a backend. -/
def outside (asking : Asking) (voices : Voices ω) : Outside (Session ω) where
  action role payload := b.ask (voices.action role payload)
  sufficiency payload := b.ask (voices.sufficiency payload)
  answer asRole payload := b.ask (voices.answer asRole payload)
  review payload := b.ask (voices.review payload)
  retrieve question := b.retrieve asking question
  enrich := b.enrich asking

/-- The planners of a graph over a backend. -/
def planners (voices : Voices ω) : Planners (Session ω) where
  queryPlan payload := b.ask (voices.queryPlan payload)
  route payload := b.ask (voices.route payload)

/-- The settings and the request of a graph over a backend. -/
def desk (asking : Asking) (turns : List Json) : Desk :=
  { web := b.web, contextBytes := b.contextBytes, request := asking.toWorkRequest, turns }

/-- A graph over a backend. -/
def invoke (a : Architecture) (asking : Asking) (turns : List Json) (voices : Voices ω) :
    Program (Session ω) WorkerError (Option (List Stage × RagState)) :=
  (a.graph (b.desk asking turns) (b.outside asking voices) (b.planners voices)).run
    recursionLimit [] a.start { question := asking.question }

/-- A quotation that a request may rest on, by what was answered. -/
def Grounded (documents : Documents) (asking : Asking) (journal : List Told) (e : Evidence) :
    Prop :=
  (b.Origin asking journal e ∧ OccursIn documents e) ∨ FromPage journal asking.publicTopic e

end Backend

/-- What is wanted of an answer: what it holds was quoted from where the request may look, by what
was answered in the course of the request; it cites what it holds, and the citations can be resolved
afterwards; and without a public topic all that it holds is from the documents of the company that
apply. -/
structure GroundedLaw {ω : Type} (b : Backend ω) (documents : Documents) (asking : Asking)
    (result : TaskResult) (s : Session ω) : Prop where
  held : ∀ e ∈ result.evidence, b.Grounded documents asking s.journal e
  cites : result.answer.CitesOnly result.evidence
  resolvable : ∀ claim ∈ result.answer.claims, ∃ found,
    (Backend.resolve claim.evidenceIds s).1 = .ok found ∧
      found.map Evidence.evidenceId = distinctTexts claim.evidenceIds
  inside : asking.publicTopic = "" →
    ∀ e ∈ result.evidence, Backend.Internal asking s.journal e ∧ OccursIn documents e

namespace Backend

variable {ω : Type} {b : Backend ω} {documents : Documents} {asking : Asking}

theorem Grounded.grow {journal more : List Told} {e : Evidence}
    (grounded : b.Grounded documents asking journal e) (grown : journal ⊆ more) :
    b.Grounded documents asking more e := by
  refine grounded.imp (fun own => ⟨own.1.grow grown, own.2⟩) fun page => ?_
  have shown : OfPage {asking.publicTopic} journal e := ⟨_, rfl, page⟩
  obtain ⟨topic, rfl, page⟩ := shown.grow grown
  exact page

/-- What holds on the way: the invariant, and what came in so far is grounded and remembered. -/
def OnTheWay (b : Backend ω) (documents : Documents) (asking : Asking)
    (s : Session ω × List Happening) : Prop :=
  ∃ ids, s.1.Holds b documents {asking.publicTopic} ids [] ∧
    ∀ e ∈ collected s.2, b.Grounded documents asking s.1.journal e ∧ e.evidenceId ∈ ids

/-- What is answered stays answered. -/
theorem holds_journal {s : Session ω} {topics : Set String} {ids : List String}
    (h : s.Holds b documents topics ids []) : s.Holds b documents topics ids s.journal :=
  ⟨h.sound, h.known, List.Subset.refl _⟩

theorem Steady.ask {P : Session ω → Prop} (h : b.Steady P) {α : Type}
    (call : Program ω WorkerError α) : Keeps P (b.ask call) :=
  (h.consume _).bind fun _ => (h.outdoors _).bind fun a => h.check.bind fun _ => keeps_pure a

/-- Nothing comes in, and more may be answered. -/
theorem onTheWay_quiet {s t : Session ω} {ids : List String} {journal : List Happening}
    (h : t.Holds b documents {asking.publicTopic} ids s.journal)
    (all : ∀ e ∈ collected journal, b.Grounded documents asking s.journal e ∧ e.evidenceId ∈ ids) :
    OnTheWay b documents asking (t, journal) :=
  ⟨ids, ⟨h.sound, h.known, List.nil_subset _⟩, fun e held =>
    ⟨(all e held).1.grow h.heard, (all e held).2⟩⟩

/-- Quotations come in that are grounded and remembered. -/
theorem onTheWay_found {s t : Session ω} {ids : List String} {journal : List Happening}
    {entry : List Evidence → Happening} {items : List Evidence}
    (h : t.Holds b documents {asking.publicTopic} (ids ++ items.map Evidence.evidenceId) s.journal)
    (all : ∀ e ∈ collected journal, b.Grounded documents asking s.journal e ∧ e.evidenceId ∈ ids)
    (grounded : ∀ e ∈ items, b.Grounded documents asking t.journal e)
    (found : (entry items).found = items) :
    OnTheWay b documents asking (t, journal ++ [entry items]) := by
  refine ⟨_, ⟨h.sound, h.known, List.nil_subset _⟩, fun e held => ?_⟩
  rw [collected_append] at held
  rcases List.mem_append.mp held with old | new
  · exact ⟨(all e old).1.grow h.heard, List.mem_append_left _ (all e old).2⟩
  · have listed : e ∈ items := by simpa [collected, found] using new
    exact ⟨grounded e listed, List.mem_append_right _ (List.mem_map_of_mem listed)⟩

/-- A model is asked: nothing comes in. -/
theorem keeps_voice (serves : b.ground.Serves documents) {α : Type}
    (call : Program ω WorkerError α) {entry : α → Happening} (quiet : ∀ a, (entry a).found = []) :
    Keeps (OnTheWay b documents asking) (Program.journaled (b.ask call) entry) := by
  refine keeps_journaled fun journal s ⟨ids, h, all⟩ => ?_
  have after := (steady_holds serves).ask call s (holds_journal h)
  refine ⟨fun a _ => onTheWay_quiet after ?_, fun e _ => onTheWay_quiet after all⟩
  simpa [collected, quiet] using all

theorem keeps_outside (keeps : KeepsSpaces b.lower) (serves : b.ground.Serves documents)
    (voices : Voices ω) :
    (b.outside asking voices).journaled.Keeps (OnTheWay b documents asking) where
  action _ _ := keeps_voice serves _ fun _ => rfl
  sufficiency _ := keeps_voice serves _ fun _ => rfl
  answer _ _ := keeps_voice serves _ fun _ => rfl
  review _ := keeps_voice serves _ fun _ => rfl
  retrieve question := by
    refine keeps_journaled fun journal s ⟨ids, h, all⟩ => ?_
    obtain ⟨ends, fails⟩ := triple_retrieve serves asking question s (holds_journal h)
    refine ⟨fun items ok => ?_, fun e raised => onTheWay_quiet (fails e raised) all⟩
    obtain ⟨after, occurs, -, -⟩ := ends items ok
    obtain ⟨more, grown, origin⟩ := logs_retrieve keeps asking question s items _ (Prod.ext ok rfl)
    refine onTheWay_found after all (fun e listed => .inl ⟨?_, occurs e listed⟩) rfl
    exact (origin e listed).grow (grown ▸ List.subset_append_right _ _)
  enrich := by
    refine keeps_journaled fun journal s ⟨ids, h, all⟩ => ?_
    obtain ⟨ends, fails⟩ := triple_enrich keeps serves asking
      (Set.mem_singleton _) s (holds_journal h)
    refine ⟨fun items ok => ?_, fun e raised => onTheWay_quiet (fails e raised) all⟩
    obtain ⟨after, pages⟩ := ends items ok
    refine onTheWay_found after all (fun e listed => .inr ?_) rfl
    obtain ⟨topic, rfl, page⟩ := pages e listed
    exact page

theorem keeps_planners (serves : b.ground.Serves documents) (voices : Voices ω) :
    (b.planners voices).unjournaled.Keeps (OnTheWay b documents asking) := by
  have asks {α : Type} (call : Program ω WorkerError α) :
      Keeps (OnTheWay b documents asking) (Program.unjournaled (b.ask call)) :=
    keeps_unjournaled fun journal s ⟨_, h, all⟩ =>
      onTheWay_quiet ((steady_holds serves).ask call s (holds_journal h)) all
  exact ⟨fun _ => asks _, fun _ => asks _⟩

end Backend

/-! ### An answer over one document -/

/-- Models that write one claim, with the quotation of the document. -/
def noticeVoices : Voices Unit where
  action _ _ := pure ⟨.search, "", "", {}⟩
  sufficiency _ := pure ⟨true, [], false, ""⟩
  answer _ _ := pure { claims := [⟨"가용률 목표 99.9", ["E-local://inte"], by decide⟩] }
  review _ := pure ⟨true, [], [], ""⟩
  queryPlan _ := throw (.raised "ValidationError")
  route _ := throw (.raised "ValidationError")

theorem sound_freshSession (b : Backend Unit) (documents : Documents) (topics : Set String) :
    freshSession.Sound b documents topics where
  recorded := ⟨[], rfl⟩
  stored _ _ none := by cases none
  calls _ := Nat.zero_le _
  tools := Nat.zero_le _
  added _ none := by cases none

/-- The number of claims of a finished result. -/
def Outcome.claimCount? : Outcome → Option ℕ
  | .finished result => some result.answer.claims.length
  | .clarification _ _ => none

end AgentLabs.Rag
