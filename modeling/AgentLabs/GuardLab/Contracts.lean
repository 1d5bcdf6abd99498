import AgentLabs.Math.Dict
import AgentLabs.Text.PythonStr

/-!
# Contracts of the guard laboratory

The records that cross the boundaries between a tool call, the policy code and
the run log: the trusted user context, the arguments a model supplies, the
decision a policy takes, and the two kinds of log entries. A decision other than
`allow` must keep the tool's implementation from running; the log entry with
outcome `executed`, written by the implementation itself, is the evidence that it
ran.

## Main definitions

* `UserContext`: who is asking, from the trusted context and not from arguments
* `ArgValue`, `Args`: the arguments of a call
* `PolicyDecision`, `RunLog`: decisions and their record
-/

namespace AgentLabs.GuardLab

open Math

/-- The exceptions the modelled code can raise. -/
inductive PyError where
  | permissionError (message : String)
  | fileNotFound
  | isADirectory
  | notADirectory
  | fileExists
  | unicodeDecodeError
  | typeError
  | valueError
  deriving DecidableEq, Repr

/-- The trusted execution context. The rights of a call come from here only. -/
structure UserContext where
  userId : String
  tenant : String
  projects : List String
  canSend : Bool
  display : String := ""
  deriving DecidableEq, Repr

/-- `UserContext.can_read`. -/
def UserContext.canRead (ctx : UserContext) (project : String) : Bool := project ∈ ctx.projects

/-- An argument value. An object that is neither text nor a number is known by
what `str` and `int` make of it; `int` fails where `asInt` is `none`. -/
inductive ArgValue where
  | str (text : String)
  | int (value : Int)
  | other (text : String) (asInt : Option Int)
  deriving DecidableEq, Repr

/-- `str(value)`. -/
def ArgValue.toStr : ArgValue → String
  | .str text => text
  | .int value => toString value
  | .other text _ => text

/-- The arguments of a call, by name. -/
abbrev Args := Dict String ArgValue

/-- The four answers of a policy. -/
inductive Action where
  | allow
  | block
  | review
  | transform
  deriving DecidableEq, Repr

/-- A decision taken by policy code. -/
structure PolicyDecision where
  action : Action
  reasonCode : String
  policyVersion : String := "rules-v3"
  riskLabels : List String := []
  detail : String := ""
  deriving DecidableEq, Repr

/-- A tool call in the run log. -/
structure ToolEvent where
  agent : String
  name : String
  args : Args
  toolCallId : String
  outcome : String
  detail : String := ""
  deriving DecidableEq, Repr

/-- A policy decision in the run log. -/
structure DecisionEvent where
  stage : String
  action : Action
  reasonCode : String
  agent : String
  toolCallId : String := ""
  riskLabels : List String := []
  detail : String := ""
  deriving DecidableEq, Repr

/-- The run log, with the agent and the tool call that the surrounding
middleware has announced. -/
structure RunLog where
  tools : List ToolEvent := []
  decisions : List DecisionEvent := []
  currentAgent : String := "main"
  currentToolCall : String := ""
  deriving DecidableEq, Repr

namespace RunLog

/-- `RunLog.record_tool`. -/
def recordTool (log : RunLog) (name : String) (args : Args) (outcome detail : String) : RunLog :=
  { log with tools := log.tools ++
      [⟨log.currentAgent, name, args, log.currentToolCall, outcome, detail⟩] }

/-- `RunLog.record_decision`. An empty call id falls back to the announced one. -/
def recordDecision (log : RunLog) (stage : String) (decision : PolicyDecision)
    (toolCallId : String) : RunLog :=
  { log with decisions := log.decisions ++
      [{ stage
         action := decision.action
         reasonCode := decision.reasonCode
         agent := log.currentAgent
         toolCallId := if toolCallId = "" then log.currentToolCall else toolCallId
         riskLabels := decision.riskLabels
         detail := decision.detail }] }

@[simp] theorem tools_recordTool (log : RunLog) (name : String) (args : Args)
    (outcome detail : String) : (log.recordTool name args outcome detail).tools = log.tools ++
      [⟨log.currentAgent, name, args, log.currentToolCall, outcome, detail⟩] := rfl

end RunLog

end AgentLabs.GuardLab
