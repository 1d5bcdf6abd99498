import AgentLabs.GuardLab.Consumption
import AgentLabs.GuardLab.Pii
import Mathlib.Logic.Relation

/-!
# The output boundary

A draft is looked at before it is saved and a report before it is sent; what is not clean is
handed back, not corrected. Subject and body are joined by a line feed and looked at as one
text, so a match may start in the one and end in the other, but none is lost by joining them.

Another wrapper may stand behind this one. It does to the files and the outbox what the
implementation does, as often as it runs it, and nothing else.

## Main definitions

* `makeOutputWrapper`: the wrapper that looks at what goes out
* `InnerWrapper`: a wrapper that acts by running the implementation
* `OutputCall`: calls of `save_report` and `send_report` through the wrapper
* `OutputBoundary`: what holds of a run of such calls

## Main results

* `byImpl_makeOutputWrapper`, `byImpl_makeActionWrapper`, `byImpl_wrap`: the wrappers act by
  running the implementation
* `OutputCall.clean_of_runsImpl`: a call that runs its implementation is clean
* `outputBoundary`: every run of calls keeps the boundary
-/

namespace AgentLabs.GuardLab

open Math Text

/-! ### The wrapper -/

/-- `args.get(name, "")`. -/
def textArg (args : Args) (name : String) : String :=
  ((args.get? name).map ArgValue.toStr).getD ""

/-- A list of labels, as it is printed. -/
def showLabels (labels : List String) : String :=
  "[" ++ ", ".intercalate (labels.map fun label => "'" ++ label ++ "'") ++ "]"

/-- What is decided about a draft. -/
def checkDraft (pii : PIIGuard) (policy : DisclosurePolicy ℚ) (content : String) :
    Except PyError PolicyDecision := do
  if (pii.signal content).status = .unknown then
    .ok { action := .review, reasonCode := "PII_GUARD_UNKNOWN" }
  else
    let (_, removed) ← maskForAudience content (pii.signal content).evidenceSpans "draft" policy
    if removed ≠ [] then
      .ok { action := .block, reasonCode := "PII_IN_DRAFT", riskLabels := removed }
    else
      .ok { action := .allow, reasonCode := "DRAFT_CLEAN" }

/-- Record a decision, and go on if it allows the call. -/
def settle (decided : Except PyError PolicyDecision) (held stopped : PolicyDecision → String)
    (callId : String) (next : Impl) : Impl := fun w =>
  match decided with
  | .error e => (.error e, w)
  | .ok decision =>
    let w := { w with log := w.log.recordDecision "output" decision callId }
    if decision.action = .review then (.ok (held decision), w)
    else if decision.action ≠ .allow then (.ok (stopped decision), w)
    else next w

/-- `make_output_wrapper`. -/
def makeOutputWrapper (pii : PIIGuard) (policy : DisclosurePolicy ℚ) (inner : Option Wrapper)
    (checkSave : Bool) : Wrapper := fun ctx tool args impl callId =>
  if tool = "send_report" then
    settle
      (checkBeforeSend (textArg args "recipient") (textArg args "subject") (textArg args "body") ctx
        (fun text => .ok (pii.signal text)) policy)
      (fun decision => "[REVIEW " ++ decision.reasonCode ++
        "] 전달 본문 검사가 보류됐다. 본문을 줄여 다시 시도하라.")
      (fun decision => "[BLOCKED " ++ decision.reasonCode ++ "] 전달 본문에 공개 불가 정보가 있다: " ++
        showLabels decision.riskLabels ++ ". 해당 정보를 빼고 다시 저장·전달하라.")
      callId (runTool inner ctx tool args impl callId)
  else if tool = "save_report" ∧ checkSave = true then
    settle (checkDraft pii policy (textArg args "content"))
      (fun decision => "[REVIEW " ++ decision.reasonCode ++ "] 초안 검사가 보류됐다.")
      (fun decision => "[BLOCKED " ++ decision.reasonCode ++ "] 초안에 공개 불가 정보가 있다: " ++
        showLabels decision.riskLabels ++ ". 빼고 다시 저장하라.")
      callId (runTool inner ctx tool args impl callId)
  else runTool inner ctx tool args impl callId

/-- The call goes on in a world with a longer log, or it is answered whatever comes next. -/
theorem settle_cases (decided : Except PyError PolicyDecision)
    (held stopped : PolicyDecision → String) (callId : String) (w : World) :
    (∃ decision log, decided = .ok decision ∧ decision.action = .allow ∧
      ∀ next, settle decided held stopped callId next w = next { w with log }) ∨
    ∃ answer log, ∀ next, settle decided held stopped callId next w = (answer, { w with log }) := by
  unfold settle
  cases decided with
  | error e => exact .inr ⟨.error e, w.log, fun _ => rfl⟩
  | ok decision =>
    dsimp only
    split_ifs with review refused
    · exact .inr ⟨_, _, fun _ => rfl⟩
    · exact .inr ⟨_, _, fun _ => rfl⟩
    · exact .inl ⟨decision, _, rfl, not_not.mp refused, fun _ => rfl⟩

/-! ### Wrappers that act by running the implementation -/

/-- What is done to the files and the outbox is done by running the implementation. -/
inductive ByImpl (impl : Impl) (w : World) : World → Prop
  | idle {w' : World} (ws : w'.ws = w.ws) (outbox : w'.outbox = w.outbox) : ByImpl impl w w'
  | run {w' w'' : World} (before : ByImpl impl w w') (ws : w''.ws = (impl w').2.ws)
      (outbox : w''.outbox = (impl w').2.outbox) : ByImpl impl w w''

/-- A wrapper acts by running the implementation. -/
def Wrapper.ActsByImpl (wrapper : Wrapper) : Prop :=
  ∀ ctx tool args impl callId w, ByImpl impl w (wrapper ctx tool args impl callId w).2

/-- A wrapper that acts by running the implementation. -/
structure InnerWrapper where
  wrap : Wrapper
  byImpl : wrap.ActsByImpl

section

variable {impl : Impl} {w w' w'' : World}

/-- What is done in a world with another log is done in this one. -/
theorem ByImpl.of_log {log : RunLog} (acts : ByImpl impl { w with log } w') : ByImpl impl w w' := by
  induction acts with
  | idle ws outbox => exact .idle ws outbox
  | run _ ws outbox ih => exact .run ih ws outbox

theorem byImpl_self : ByImpl impl w (impl w).2 := .run (.idle rfl rfl) rfl rfl

theorem byImpl_runTool {inner : Option Wrapper} (acts : ∀ wrapper ∈ inner, wrapper.ActsByImpl)
    (ctx : Option UserContext) (tool : String) (args : Args) (callId : String) (w : World) :
    ByImpl impl w (runTool inner ctx tool args impl callId w).2 := by
  cases inner with
  | none => exact byImpl_self
  | some wrapper => exact acts wrapper rfl ctx tool args impl callId w

theorem byImpl_makeOutputWrapper (pii : PIIGuard) (policy : DisclosurePolicy ℚ)
    {inner : Option Wrapper} (acts : ∀ wrapper ∈ inner, wrapper.ActsByImpl) (checkSave : Bool) :
    (makeOutputWrapper pii policy inner checkSave).ActsByImpl := by
  intro ctx tool args impl callId w
  have next (w : World) : ByImpl impl w (runTool inner ctx tool args impl callId w).2 :=
    byImpl_runTool acts ctx tool args callId w
  have settled (decided held stopped) : ByImpl impl w
      (settle decided held stopped callId (runTool inner ctx tool args impl callId) w).2 := by
    rcases settle_cases decided held stopped callId w with ⟨-, log, -, -, goes⟩
      | ⟨answer, log, ends⟩
    · rw [goes]
      exact (next _).of_log
    · rw [ends]
      exact .idle rfl rfl
  unfold makeOutputWrapper
  split_ifs
  · exact settled _ _ _
  · exact settled _ _ _
  · exact next w

theorem byImpl_makeActionWrapper (lower : String → String) (table : PermissionTable) :
    (makeActionWrapper lower table).ActsByImpl := by
  intro ctx tool args impl callId w
  rcases guardedCall_cases lower table ctx tool args impl callId w with
    ⟨-, log, -, goes⟩ | ⟨-, answer, log, -, ends⟩
  · rw [makeActionWrapper, goes]
    exact byImpl_self.of_log
  · rw [makeActionWrapper, ends]
    exact .idle rfl rfl

/-- What is done in a world with the same files and outbox is done in this one. -/
theorem ByImpl.of_same (acts : ByImpl impl w' w'') (ws : w'.ws = w.ws)
    (outbox : w'.outbox = w.outbox) : ByImpl impl w w'' := by
  induction acts with
  | idle same same' => exact .idle (same.trans ws) (same'.trans outbox)
  | run _ same same' ih => exact .run ih same same'

theorem Guard.ws_revalidate (lower : String → String) (guard : Guard) (ctx : Option UserContext)
    (tool : String) (args : Args) (callId : String) (g : Gate) :
    (guard.revalidate lower ctx tool args callId g).2.world.ws = g.world.ws := by
  unfold Guard.revalidate
  split
  · split
    · rfl
    · simp only
      split_ifs <;> rfl
  · rfl

theorem Guard.ws_authorise (argsHash : String → Args → String) (lower : String → String)
    (guard : Guard) (now : Int) (ctx : Option UserContext) (args : Args)
    (callId : String) (g : Gate) :
    (guard.authorise argsHash lower now ctx args callId g).2.world.ws = g.world.ws := by
  simp only [Guard.authorise]
  split_ifs
  · rfl
  · simp only [Guard.ws_revalidate]

/-- An approval wrapper acts by running the implementation, whatever its store holds. -/
theorem byImpl_wrap (argsHash : String → Args → String) (lower : String → String) {guard : Guard}
    (acts : ∀ wrapper ∈ guard.inner, wrapper.ActsByImpl) (now : Int) (store : ApprovalStore) :
    Wrapper.ActsByImpl fun ctx tool args impl callId w =>
      let out := guard.wrap argsHash lower now ctx tool args impl callId ⟨store, w⟩
      (out.1, out.2.world) := by
  intro ctx tool args impl callId w
  have next (g : Gate) : ByImpl impl g.world
      (guard.proceed ctx tool args impl callId g).2.world := by
    unfold Guard.proceed
    cases inner : guard.inner with
    | none => exact byImpl_self
    | some wrapper => exact acts wrapper inner ctx tool args impl callId g.world
  have ws := guard.ws_authorise argsHash lower now ctx args callId ⟨store, w⟩
  have outbox : (guard.authorise argsHash lower now ctx args callId ⟨store, w⟩).2.world.outbox =
      w.outbox := guard.outbox_authorise
  unfold Guard.wrap
  dsimp only
  -- A tool that needs no approval goes straight on; otherwise a refusal ends the call here.
  split_ifs with checked
  · rcases authorised : guard.authorise argsHash lower now ctx args callId ⟨store, w⟩ with
      ⟨_ | answer, g⟩
    · rw [authorised] at ws outbox
      exact (next g).of_same ws outbox
    · rw [authorised] at ws outbox
      exact .idle ws outbox
  · exact next ⟨store, w⟩

end

/-! ### Calls -/

/-- What is asked for. -/
inductive ReportCall where
  | save (project content : String)
  | send (project recipient subject body : String) (reportVersion : Int)

/-- A call through the wrapper: under which context, with which inner wrapper, on which texts
the guard's scan raises, at which clock reading, and how drafts are numbered. -/
structure OutputCall where
  ctx : Option UserContext
  callId : String
  inner : Option InnerWrapper
  fault : String → Option String
  now : String
  nextVersion : Workspace → String → Except PyError ℕ
  report : ReportCall

namespace OutputCall

variable (digit : Char → Bool) (c : OutputCall)

/-- The guard of the call. -/
def guard : PIIGuard := regexGuard digit c.fault

/-- The wrapper of the call. -/
def wrapper : Wrapper :=
  makeOutputWrapper (c.guard digit) defaultPolicy (c.inner.map InnerWrapper.wrap) true

/-- The call of the tool. -/
def run : Impl :=
  match c.report with
  | .save project content =>
    saveReportTool (c.wrapper digit) c.nextVersion c.ctx project content c.callId
  | .send project recipient subject body reportVersion =>
    sendReportTool (c.wrapper digit) c.ctx c.now project recipient subject body
      reportVersion c.callId

/-- The implementation of the tool. -/
def impl : Impl :=
  match c.report with
  | .save project content => RawOps.saveReport c.nextVersion project content
  | .send project recipient subject body reportVersion =>
    RawOps.sendReport c.now project recipient subject body reportVersion
      ((c.ctx.map UserContext.userId).getD "unknown")

/-- The call, with the implementation left open. -/
def guarded (impl : Impl) : Impl :=
  match c.report with
  | .save project content =>
    c.wrapper digit c.ctx "save_report" (saveArgs project content) impl c.callId
  | .send project recipient subject body reportVersion =>
    c.wrapper digit c.ctx "send_report" (sendArgs project recipient subject body reportVersion) impl
      c.callId

/-- The texts that are written or sent. -/
def texts : List String :=
  match c.report with
  | .save _ content => [content]
  | .send _ _ subject body _ => [subject, body]

/-- The text that the guard looks at. -/
def scanned : String :=
  match c.report with
  | .save _ content => content
  | .send _ _ subject body _ => subject ++ "\n" ++ body

end OutputCall

/-- The world after some calls. -/
def runCalls (digit : Char → Bool) (calls : List OutputCall) (w : World) : World :=
  calls.foldl (fun w c => (c.run digit w).2) w

/-- What holds of one call: it runs its implementation only if its texts are clean, and if
the guard has found out nothing, it does not and leaves the files and the outbox alone. -/
structure CallBoundary (digit : Char → Bool) (c : OutputCall) (w : World) : Prop where
  clean : RunsImpl (fun impl => c.guarded digit impl w) → ∀ text ∈ c.texts, Clean digit text
  unknown : ((c.guard digit).signal c.scanned).status = .unknown →
    ¬ RunsImpl (fun impl => c.guarded digit impl w) ∧
      (c.run digit w).2.ws = w.ws ∧ (c.run digit w).2.outbox = w.outbox

/-- What has been written and sent between two worlds is clean. -/
structure WritesClean (digit : Char → Bool) (w w' : World) : Prop where
  drafts : ∀ p text, w'.ws.node p = some (.file (some text)) →
    Clean digit text ∨ w.ws.node p = some (.file (some text))
  outbox : ∃ sent, w'.outbox = w.outbox ++ sent ∧ ∀ e ∈ sent, Clean digit e.subject ∧
    Clean digit e.body

/-- What holds of a run of calls, at each call and after each call. -/
structure OutputBoundary (digit : Char → Bool) (calls : List OutputCall) (w : World) : Prop where
  each : ∀ before c after, calls = before ++ c :: after →
    CallBoundary digit c (runCalls digit before w)
  written : ∀ before, before <+: calls → WritesClean digit w (runCalls digit before w)

/-! ### One call -/

section

variable {digit : Char → Bool} {fault : String → Option String} {c : OutputCall} {w w' w'' : World}

/-- A guard that has found out something has scanned the text. -/
theorem signal_regexGuard {text : String}
    (known : ((regexGuard digit fault).signal text).status ≠ .unknown) :
    ((regexGuard digit fault).signal text).evidenceSpans = scanRegex digit text := by
  unfold PIIGuard.signal regexGuard at known ⊢
  dsimp only at known ⊢
  cases broken : fault text with
  | none => rfl
  | some message =>
    rw [broken] at known
    exact absurd rfl known

/-- A draft is allowed only if it is known to be clean. -/
theorem clean_of_checkDraft {content : String} {decision : PolicyDecision}
    (checked : checkDraft (regexGuard digit fault) defaultPolicy content = .ok decision)
    (allowed : decision.action = .allow) :
    ((regexGuard digit fault).signal content).status ≠ .unknown ∧ Clean digit content := by
  unfold checkDraft at checked
  split_ifs at checked with unknown
  · cases checked
    cases allowed
  · rw [signal_regexGuard unknown] at checked
    cases masked : maskForAudience content (scanRegex digit content) "draft" defaultPolicy with
    | error e =>
      rw [masked] at checked
      cases checked
    | ok out =>
      obtain ⟨result, removed⟩ := out
      rw [masked] at checked
      simp only [bind, Except.bind] at checked
      split_ifs at checked with none
      · cases checked
        cases allowed
      · rw [not_not.mp none] at masked
        exact ⟨unknown, clean_of_maskForAudience masked⟩

/-- A report is allowed only if subject and body are known to be clean. -/
theorem clean_of_checkBeforeSend {recipient subject body : String} {ctx : Option UserContext}
    {decision : PolicyDecision}
    (checked : checkBeforeSend recipient subject body ctx
      (fun text => .ok ((regexGuard digit fault).signal text)) defaultPolicy = .ok decision)
    (allowed : decision.action = .allow) :
    ((regexGuard digit fault).signal (subject ++ "\n" ++ body)).status ≠ .unknown ∧
      Clean digit (subject ++ "\n" ++ body) := by
  have known : ((regexGuard digit fault).signal (subject ++ "\n" ++ body)).status ≠ .unknown := by
    intro unknown
    simp only [checkBeforeSend, bind, Except.bind, unknown, if_true] at checked
    split_ifs at checked
    all_goals
      cases checked
      cases allowed
  obtain ⟨result, masked⟩ := exists_masked_of_checkBeforeSend rfl checked allowed
  rw [signal_regexGuard known] at masked
  exact ⟨known, clean_of_maskForAudience masked⟩

theorem OutputCall.run_eq (digit : Char → Bool) (c : OutputCall) :
    c.run digit = c.guarded digit c.impl := by
  unfold run guarded impl
  cases c.report <;> rfl

/-- **What a call does**: its texts are known to be clean and it goes on behind the wrapper, or
it is answered whatever the implementation. -/
theorem OutputCall.guarded_cases (digit : Char → Bool) (c : OutputCall) (w : World) :
    ((((c.guard digit).signal c.scanned).status ≠ .unknown ∧ ∀ text ∈ c.texts, Clean digit text) ∧
      ∃ tool args log, ∀ impl, c.guarded digit impl w =
        runTool (c.inner.map InnerWrapper.wrap) c.ctx tool args impl c.callId { w with log }) ∨
    ∃ answer log, ∀ impl, c.guarded digit impl w = (answer, { w with log }) := by
  unfold guarded guard scanned texts
  cases c.report with
  | save project content =>
    rcases settle_cases (checkDraft (c.guard digit) defaultPolicy content) _ _ c.callId w with
      ⟨decision, log, checked, allowed, goes⟩ | ⟨answer, log, ends⟩
    · obtain ⟨known, clean⟩ := clean_of_checkDraft checked allowed
      exact .inl ⟨⟨known, List.forall_mem_singleton.mpr clean⟩, _, _, log, fun impl => goes _⟩
    · exact .inr ⟨answer, log, fun impl => ends _⟩
  | send project recipient subject body reportVersion =>
    rcases settle_cases (checkBeforeSend recipient subject body c.ctx
        (fun text => .ok ((c.guard digit).signal text)) defaultPolicy) _ _ c.callId w with
      ⟨decision, log, checked, allowed, goes⟩ | ⟨answer, log, ends⟩
    · obtain ⟨known, clean⟩ := clean_of_checkBeforeSend checked allowed
      -- A match in the subject or in the body is a match in the text that joins them.
      have inSubject : subject.toList <:+: (subject ++ "\n" ++ body).toList := by
        simp only [String.toList_append, List.append_assoc]
        exact (List.prefix_append _ _).isInfix
      have inBody : body.toList <:+: (subject ++ "\n" ++ body).toList := by
        simp only [String.toList_append]
        exact (List.suffix_append _ _).isInfix
      refine .inl ⟨⟨known, ?_⟩, _, _, log, fun impl => goes _⟩
      intro text listed
      rcases List.mem_cons.mp listed with rfl | listed
      · exact clean.of_infix inSubject
      · rw [List.mem_singleton.mp listed]
        exact clean.of_infix inBody
    · exact .inr ⟨answer, log, fun impl => ends _⟩

/-- **A call that runs its implementation is clean.** -/
theorem OutputCall.clean_of_runsImpl (runs : RunsImpl fun impl => c.guarded digit impl w) :
    ∀ text ∈ c.texts, Clean digit text := by
  rcases c.guarded_cases digit w with ⟨⟨-, clean⟩, -⟩ | ⟨answer, log, ends⟩
  · exact clean
  · simp only [ends] at runs
    exact absurd runs (not_runsImpl_const _)

theorem callBoundary (digit : Char → Bool) (c : OutputCall) (w : World) :
    CallBoundary digit c w where
  clean := c.clean_of_runsImpl
  unknown := by
    intro unknown
    rcases c.guarded_cases digit w with ⟨⟨known, -⟩, -⟩ | ⟨answer, log, ends⟩
    · exact absurd unknown known
    · rw [c.run_eq]
      refine ⟨?_, ?_⟩
      · simp only [ends]
        exact not_runsImpl_const _
      · rw [ends]
        exact ⟨rfl, rfl⟩

/-! ### Runs of calls -/

theorem WritesClean.of_same (ws : w'.ws = w.ws) (outbox : w'.outbox = w.outbox) :
    WritesClean digit w w' where
  drafts := fun p text file => .inr (ws ▸ file)
  outbox := ⟨[], by rw [outbox, List.append_nil], by simp⟩

theorem WritesClean.trans (first : WritesClean digit w w') (second : WritesClean digit w' w'') :
    WritesClean digit w w'' where
  drafts := by
    intro p text file
    rcases second.drafts p text file with clean | earlier
    · exact .inl clean
    · exact first.drafts p text earlier
  outbox := by
    obtain ⟨sent, eq, clean⟩ := first.outbox
    obtain ⟨sent', eq', clean'⟩ := second.outbox
    refine ⟨sent ++ sent', by rw [eq', eq, List.append_assoc], ?_⟩
    intro e listed
    rcases List.mem_append.mp listed with early | late
    · exact clean e early
    · exact clean' e late

/-- The implementation writes and sends the texts of the call. -/
theorem OutputCall.writesClean_impl (clean : ∀ text ∈ c.texts, Clean digit text) (w : World) :
    WritesClean digit w (c.impl w).2 := by
  unfold texts at clean
  unfold impl
  cases report : c.report with
  | save project content =>
    rw [report] at clean
    dsimp only
    unfold RawOps.saveReport
    cases c.nextVersion w.ws project with
    | error e => exact .of_same rfl rfl
    | ok version =>
      dsimp only
      cases written : w.ws.write (RawOps.draftPath project version) content with
      | error e => exact .of_same rfl rfl
      | ok ws =>
        refine ⟨fun p text file => ?_, [], (List.append_nil _).symm, by simp⟩
        -- A write changes one file, to the content of the call.
        rcases Workspace.file_of_write written file with same | before
        · rw [Option.some.inj same]
          exact .inl (clean content List.mem_cons_self)
        · exact .inr before
  | send project recipient subject body reportVersion =>
    rw [report] at clean
    refine ⟨fun _ _ file => .inr file, [_], rfl, ?_⟩
    intro e listed
    rw [List.mem_singleton.mp listed]
    exact ⟨clean subject List.mem_cons_self, clean body (List.mem_cons_of_mem _ List.mem_cons_self)⟩

/-- What is done by running a clean implementation is clean. -/
theorem WritesClean.of_byImpl {impl : Impl} (clean : ∀ w, WritesClean digit w (impl w).2)
    (acts : ByImpl impl w w') : WritesClean digit w w' := by
  induction acts with
  | idle ws outbox => exact .of_same ws outbox
  | run _ ws outbox ih => exact (ih.trans (clean _)).trans (.of_same ws outbox)

theorem OutputCall.writesClean_run (digit : Char → Bool) (c : OutputCall) (w : World) :
    WritesClean digit w (c.run digit w).2 := by
  rw [c.run_eq]
  rcases c.guarded_cases digit w with ⟨⟨-, clean⟩, tool, args, log, goes⟩ | ⟨answer, log, ends⟩
  · rw [goes]
    have acts : ∀ wrapper ∈ c.inner.map InnerWrapper.wrap, wrapper.ActsByImpl := by
      intro wrapper given
      obtain ⟨inner, -, rfl⟩ := Option.mem_map.mp given
      exact inner.byImpl
    exact .of_byImpl (fun w => c.writesClean_impl clean w) (byImpl_runTool acts _ _ _ _ _).of_log
  · rw [ends]
    exact .of_same rfl rfl

/-- **The output boundary.** In every run of `save_report` and `send_report` calls, each draft
that is written and each report that is sent is clean, and a call whose guard has found out
nothing writes and sends nothing. -/
theorem outputBoundary (digit : Char → Bool) (calls : List OutputCall) (w : World) :
    OutputBoundary digit calls w where
  each := fun _ c _ _ => callBoundary digit c _
  written := fun before _ => foldl_relates (R := WritesClean digit) (fun _ => .of_same rfl rfl)
    (fun _ _ _ first second => first.trans second) (fun w c => c.writesClean_run digit w) before w

end

end AgentLabs.GuardLab
