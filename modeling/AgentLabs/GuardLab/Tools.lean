import AgentLabs.GuardLab.Workspace

/-!
# The business tools and their wrappers

`RawOps` holds the functions that change state; they know no policy. `build_tools`
turns each into a tool that passes through a wrapper, which receives the trusted
context, the raw arguments and the implementation as a closure over those same
raw arguments. A wrapper decides whether the closure runs.

## Main definitions

* `World`: what the tools of a run share
* `Impl`, `Wrapper`: a tool's implementation, and what may stand in front of it
* `RawOps.readDoc`, `RawOps.saveReport`, `RawOps.sendReport`: the implementations
* `readDocTool`, `saveReportTool`, `sendReportTool`: the tools as `build_tools` assembles them

## Main results

* `RawOps.executed_readDoc_iff`: when a body was returned, and which file it came from
-/

namespace AgentLabs.GuardLab

open Math

/-- An entry of the outbox, the local stand-in for sent mail. -/
structure OutboxEntry where
  sentAt : String
  project : String
  recipient : String
  subject : String
  body : String
  reportVersion : Int
  sender : String
  deriving DecidableEq, Repr

/-- What the tools of one run share: the workspace, the entries written to the
outbox in order, and the run log. -/
structure World where
  ws : Workspace
  outbox : List OutboxEntry
  log : RunLog

/-- A tool's implementation: text or an exception, and the world it leaves. -/
abbrev Impl := World → Except PyError String × World

/-- What may stand in front of an implementation: it gets the context, the tool's
name, the arguments, the implementation and the id of the call. -/
abbrev Wrapper := Option UserContext → String → Args → Impl → String → Impl

namespace RawOps

/-- The virtual path of a project document. -/
def docPath (project doc : String) : String := "/projects/" ++ project ++ "/" ++ doc

/-- The arguments of `read_doc`. -/
def readArgs (project doc : String) : Args := [("project", .str project), ("doc", .str doc)]

/-- `RawOps.read_doc`. -/
def readDoc (project doc : String) : Impl := fun w =>
  let vpath := docPath project doc
  match w.ws.exists? vpath with
  | .error e => (.error e, w)
  | .ok false =>
    (.ok ("Error: 문서가 없습니다: " ++ vpath),
      { w with log := w.log.recordTool "read_doc" (readArgs project doc) "error" "없는 문서" })
  | .ok true =>
    (w.ws.read vpath,
      { w with log := w.log.recordTool "read_doc" (readArgs project doc) "executed" "" })

/-- The virtual path of a draft. -/
def draftPath (project : String) (version : ℕ) : String :=
  "/drafts/" ++ project ++ "_weekly_v" ++ toString version ++ ".md"

/-- `RawOps.save_report`. `nextVersion` reads the number of the draft off the folder, by a
pattern that holds the project as it is spelled. -/
def saveReport (nextVersion : Workspace → String → Except PyError ℕ) (project content : String) :
    Impl := fun w =>
  match nextVersion w.ws project with
  | .error e => (.error e, w)
  | .ok version =>
    let vpath := draftPath project version
    match w.ws.write vpath content with
    | .error e => (.error e, w)
    | .ok ws =>
      (.ok ("저장됨: " ++ vpath ++ " (report_version=" ++ toString version ++ ")"),
        { w with
          ws
          log := w.log.recordTool "save_report"
            [("project", .str project), ("chars", .int content.length)] "executed"
            (vpath ++ " (version " ++ toString version ++ ")") })

/-- `Outbox.send`, at the clock reading `now`. -/
def outboxSend (now project recipient subject body : String) (reportVersion : Int)
    (sender : String) : OutboxEntry :=
  ⟨now, project, recipient, subject, body, reportVersion, sender⟩

/-- `RawOps.send_report`. -/
def sendReport (now project recipient subject body : String) (reportVersion : Int)
    (sender : String) : Impl := fun w =>
  let entry := outboxSend now project recipient subject body reportVersion sender
  (.ok ("전달됨: " ++ entry.recipient ++ " (report_version=" ++ toString entry.reportVersion ++ ")"),
    { w with
      outbox := w.outbox ++ [entry]
      log := w.log.recordTool "send_report"
        [("project", .str project), ("recipient", .str recipient),
          ("report_version", .int reportVersion), ("subject", .str subject),
          ("body_chars", .int body.length)]
        "executed" ("outbox → " ++ recipient) })

end RawOps

/-- `build_tools`' `_run`: the implementation alone without a wrapper. -/
def runTool (wrapper : Option Wrapper) (ctx : Option UserContext) (name : String) (args : Args)
    (impl : Impl) (callId : String) : Impl :=
  match wrapper with
  | none => impl
  | some wrapper => wrapper ctx name args impl callId

/-- The tool `read_doc`. -/
def readDocTool (wrapper : Option Wrapper) (ctx : Option UserContext) (project doc : String)
    (callId : String) : Impl :=
  runTool wrapper ctx "read_doc" (RawOps.readArgs project doc) (RawOps.readDoc project doc) callId

/-- The arguments of `save_report`. -/
def saveArgs (project content : String) : Args :=
  [("project", .str project), ("content", .str content)]

/-- The tool `save_report`. -/
def saveReportTool (wrapper : Option Wrapper) (nextVersion : Workspace → String → Except PyError ℕ)
    (ctx : Option UserContext) (project content : String) (callId : String) : Impl :=
  runTool wrapper ctx "save_report" (saveArgs project content)
    (RawOps.saveReport nextVersion project content) callId

/-- The arguments of `send_report`. -/
def sendArgs (project recipient subject body : String) (reportVersion : Int) : Args :=
  [("project", .str project), ("recipient", .str recipient), ("subject", .str subject),
    ("body", .str body), ("report_version", .int reportVersion)]

/-- The tool `send_report`. The sender is the user of the trusted context. -/
def sendReportTool (wrapper : Option Wrapper) (ctx : Option UserContext)
    (now project recipient subject body : String) (reportVersion : Int) (callId : String) : Impl :=
  let sender := (ctx.map UserContext.userId).getD "unknown"
  runTool wrapper ctx "send_report" (sendArgs project recipient subject body reportVersion)
    (RawOps.sendReport now project recipient subject body reportVersion sender) callId

/-! ### What an executed read read -/

/-- The run log gained an entry saying that the tool's implementation ran. -/
def Executed (name : String) (before after : World) : Prop :=
  ∃ event, after.log.tools = before.log.tools ++ [event] ∧ event.name = name ∧
    event.outcome = "executed"

/-- The implementation runs to a document body exactly when the resolved path is
a text file of the workspace, and that text is the body. -/
theorem RawOps.executed_readDoc_iff {project doc body : String} {w w' : World} :
    (RawOps.readDoc project doc w = (.ok body, w') ∧ Executed "read_doc" w w') ↔
      w.ws.read (docPath project doc) = .ok body ∧
        w' = { w with
          log := w.log.recordTool "read_doc" (readArgs project doc) "executed" "" } := by
  constructor
  · rintro ⟨ran, event, logged, -, executed⟩
    simp only [RawOps.readDoc] at ran
    split at ran
    case h_1 e h => simp at ran
    case h_2 h =>
      -- The branch of a missing document logs an error, not an execution.
      obtain ⟨-, rfl⟩ := Prod.mk.inj ran
      simp only [RunLog.tools_recordTool, List.append_cancel_left_eq, List.cons.injEq,
        and_true] at logged
      rw [← logged] at executed
      exact absurd executed (by simp)
    case h_3 h =>
      obtain ⟨found, rfl⟩ := Prod.mk.inj ran
      exact ⟨found, rfl⟩
  · rintro ⟨found, rfl⟩
    refine ⟨?_, _, rfl, rfl, rfl⟩
    simp only [RawOps.readDoc, Workspace.exists?_of_read found, found]

end AgentLabs.GuardLab
