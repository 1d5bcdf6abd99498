import AgentLabs.GuardLab.Tools

/-!
# The permission table and the guarded call

`guarded_call` normalises the arguments of a call, asks the permission table
about the normalised copy, and runs the implementation when the answer is
`allow`. The implementation is a closure over the arguments as the model spelled
them. Whether what was checked is what happens is therefore a question about the
distance between an argument and its normal form.

`lower` stands for `str.lower`; nothing below depends on what it does.

## Main definitions

* `PermissionTable.decide`: user × resource × action
* `normalizeArgs`: the copy of the arguments that is checked
* `guardedCall`, `makeActionWrapper`: the wrapper built from them

## Main results

* `allows_read_iff`, `allows_send_iff`: when the table allows
* `guardedCall_cases`: what the wrapper then does
-/

namespace AgentLabs.GuardLab

open Math Text

/-- The table of permissions: who may receive reports of which project, and to
which mail domains anything may go. -/
structure PermissionTable where
  reviewers : Dict String (List String) := []
  allowedDomains : List String := ["nurisoft.example"]
  policyVersion : String := "rules-v3"
  deriving Repr

/-- `args.get(name, "")`. -/
def Args.getD (args : Args) (name : String) : ArgValue := (args.get? name).getD (.str "")

/-- The mail domain of an address, empty without an `@`. -/
def domainOf (recipient : String) : String :=
  if '@' ∈ recipient.toList then afterLastAt recipient else ""

section

variable (lower : String → String)

/-- `PermissionTable.decide`. The rights come from the context alone. A recipient
that is not text raises on the test for an `@`. -/
def PermissionTable.decide (table : PermissionTable) (ctx : Option UserContext) (tool : String)
    (args : Args) : Except PyError PolicyDecision :=
  let pv := table.policyVersion
  match ctx with
  | none => .ok ⟨.block, "NO_CONTEXT", pv, [], ""⟩
  | some ctx =>
    if tool = "list_projects" then .ok ⟨.allow, "LIST", pv, [], ""⟩
    else if tool = "read_doc" ∨ tool = "save_report" ∨ tool = "send_report" then
      match args.getD "project" with
      | .str project =>
        if project ∉ ctx.projects then .ok ⟨.block, "PROJECT_SCOPE", pv, [], project⟩
        else if tool ≠ "send_report" then .ok ⟨.allow, "SCOPE_OK", pv, [], ""⟩
        else if ¬ ctx.canSend then .ok ⟨.block, "NO_SEND_RIGHT", pv, [], ""⟩
        else match args.getD "recipient" with
          | .str recipient =>
            let domain := domainOf recipient
            if domain ∉ table.allowedDomains then
              .ok ⟨.block, "EXTERNAL_DOMAIN", pv, [], domain⟩
            else if recipient ∉ ((table.reviewers.get? project).getD []).map lower then
              .ok ⟨.block, "NOT_APPROVED_REVIEWER", pv, [], recipient⟩
            else .ok ⟨.allow, "SEND_OK", pv, [], ""⟩
          | _ => .error .typeError
      | project => .ok ⟨.block, "PROJECT_SCOPE", pv, [], project.toStr⟩
    else .ok ⟨.block, "UNKNOWN_TOOL", pv, [], tool⟩

/-- The normal form of a recipient: the first bracketed group, or the whole
string, stripped and in lower case. -/
def normalizeRecipient (recipient : String) : String :=
  let r := strip recipient
  lower (strip (((angleGroup r.toList).map String.ofList).getD r))

/-- The normal form of a project name. -/
def normalizeProject (project : String) : String := lower (strip project)

/-- The normal form of a document name: the last path segment, without `..`. -/
def normalizeDoc (doc : String) : String := removeDotDot (pathName (backslashToSlash (strip doc)))

/-- `int(value)`, `none` where it raises. -/
def ArgValue.toInt : ArgValue → Option Int
  | .str text => integerOf? text
  | .int value => some value
  | .other _ asInt => asInt

/-- Rewrite the value of a name that is present. -/
def Args.modify (args : Args) (name : String) (f : ArgValue → ArgValue) : Args :=
  match args.get? name with
  | none => args
  | some value => args.set name (f value)

/-- `normalize_args`. -/
def normalizeArgs (args : Args) : Args :=
  let out := args.modify "project" fun v => .str (normalizeProject lower v.toStr)
  let out := Args.modify out "doc" fun v => .str (normalizeDoc v.toStr)
  let out := Args.modify out "recipient" fun v => .str (normalizeRecipient lower v.toStr)
  Args.modify out "report_version" fun v => .int (v.toInt.getD 0)

/-- `guarded_call` treats a request to transform as a refusal. -/
def PermissionTable.supported (table : PermissionTable) (decision : PolicyDecision) :
    PolicyDecision :=
  if decision.action = .transform then
    ⟨.block, "TRANSFORM_UNSUPPORTED", table.policyVersion, [], ""⟩
  else decision

/-- Run the implementation on `allow`, answer with a text otherwise. -/
def carryOut (decision : PolicyDecision) (impl : Impl) : Impl := fun w =>
  match decision.action with
  | .allow => impl w
  | .review => (.ok ("[REVIEW " ++ decision.reasonCode ++ "] 이 호출은 사람 검토가 필요하다."), w)
  | _ => (.ok ("[BLOCKED " ++ decision.reasonCode ++
      "] 이 사용자에게 허용되지 않은 호출이다 (" ++ decision.detail ++ ")."), w)

/-- `guarded_call`. -/
def guardedCall (table : PermissionTable) (ctx : Option UserContext) (tool : String) (args : Args)
    (impl : Impl) (callId : String) : Impl := fun w =>
  match table.decide lower ctx tool (normalizeArgs lower args) with
  | .error e => (.error e, w)
  | .ok decided =>
    let decision := table.supported decided
    carryOut decision impl { w with log := w.log.recordDecision "action" decision callId }

/-- `make_action_wrapper`. -/
def makeActionWrapper (table : PermissionTable) : Wrapper := guardedCall lower table

end

/-! ### Reading the normalised arguments -/

section

variable {lower : String → String}

theorem Args.get?_modify_self {args : Args} {name : String} {f : ArgValue → ArgValue} :
    (args.modify name f).get? name = (args.get? name).map f := by
  unfold Args.modify
  split <;> simp [*]

theorem Args.get?_modify_of_ne {args : Args} {name other : String} {f : ArgValue → ArgValue}
    (h : other ≠ name) : (args.modify name f).get? other = args.get? other := by
  unfold Args.modify
  split
  · rfl
  · exact Dict.get?_set_of_ne (Ne.symm h)

/-- The project that is checked. -/
theorem getD_normalizeArgs_project {args : Args} {project : String}
    (h : args.get? "project" = some (.str project)) :
    (normalizeArgs lower args).getD "project" = .str (normalizeProject lower project) := by
  unfold Args.getD normalizeArgs
  rw [Args.get?_modify_of_ne (by decide), Args.get?_modify_of_ne (by decide),
    Args.get?_modify_of_ne (by decide), Args.get?_modify_self, h]
  rfl

/-- The recipient that is checked. -/
theorem getD_normalizeArgs_recipient {args : Args} {recipient : String}
    (h : args.get? "recipient" = some (.str recipient)) :
    (normalizeArgs lower args).getD "recipient" = .str (normalizeRecipient lower recipient) := by
  unfold Args.getD normalizeArgs
  rw [Args.get?_modify_of_ne (by decide), Args.get?_modify_self,
    Args.get?_modify_of_ne (by decide), Args.get?_modify_of_ne (by decide), h]
  rfl

/-! ### When the table allows -/

/-- The table answers `allow`. -/
def PermissionTable.Allows (lower : String → String) (table : PermissionTable)
    (ctx : Option UserContext) (tool : String) (args : Args) : Prop :=
  ∃ decision, table.decide lower ctx tool args = .ok decision ∧ decision.action = .allow

variable {table : PermissionTable} {ctx : UserContext} {args : Args} {project recipient : String}

theorem not_allows_of_no_context {tool : String} : ¬ table.Allows lower none tool args := by
  rintro ⟨decision, h, allowed⟩
  simp only [PermissionTable.decide, Except.ok.injEq] at h
  subst h
  cases allowed

/-- A read is allowed exactly for the projects of the context. -/
theorem allows_read_iff (h : args.getD "project" = .str project) :
    table.Allows lower (some ctx) "read_doc" args ↔ project ∈ ctx.projects := by
  unfold PermissionTable.Allows PermissionTable.decide
  simp only [h]
  by_cases scope : project ∈ ctx.projects <;> simp [scope]

/-- A report may be sent exactly for a project of the context, by a user with
the right to send, to a reviewer of that project at an allowed domain. -/
theorem allows_send_iff (hp : args.getD "project" = .str project)
    (hr : args.getD "recipient" = .str recipient) :
    table.Allows lower (some ctx) "send_report" args ↔
      project ∈ ctx.projects ∧ ctx.canSend = true ∧ domainOf recipient ∈ table.allowedDomains ∧
        recipient ∈ ((table.reviewers.get? project).getD []).map lower := by
  unfold PermissionTable.Allows PermissionTable.decide
  simp only [hp, hr]
  by_cases scope : project ∈ ctx.projects
  · by_cases right : ctx.canSend = true
    · by_cases domain : domainOf recipient ∈ table.allowedDomains
      · by_cases reviewer : recipient ∈ ((table.reviewers.get? project).getD []).map lower <;>
          simp [scope, right, domain, reviewer]
      · simp [scope, right, domain]
    · simp [scope, right]
  · simp [scope]

theorem carryOut_of_allow {decision : PolicyDecision} {impl : Impl} {w : World}
    (h : decision.action = .allow) : carryOut decision impl w = impl w := by
  simp only [carryOut, h]

theorem carryOut_of_not_allow {decision : PolicyDecision} (impl : Impl) (w : World)
    (h : decision.action ≠ .allow) : ∃ answer, carryOut decision impl w = (answer, w) := by
  unfold carryOut
  split
  · contradiction
  · exact ⟨_, rfl⟩
  · exact ⟨_, rfl⟩

theorem supported_action_eq_allow_iff {decision : PolicyDecision} :
    (table.supported decision).action = .allow ↔ decision.action = .allow := by
  unfold PermissionTable.supported
  split_ifs with h <;> simp [h]

/-- What a guarded call does: it runs the implementation on a world that differs
in the decision log only, or it leaves such a world without running it. -/
theorem guardedCall_cases (lower : String → String) (table : PermissionTable)
    (ctx : Option UserContext) (tool : String) (args : Args) (impl : Impl) (callId : String)
    (w : World) :
    (table.Allows lower ctx tool (normalizeArgs lower args) ∧
      ∃ log, log.tools = w.log.tools ∧
        guardedCall lower table ctx tool args impl callId w = impl { w with log }) ∨
    (¬ table.Allows lower ctx tool (normalizeArgs lower args) ∧
      ∃ answer log, log.tools = w.log.tools ∧
        guardedCall lower table ctx tool args impl callId w = (answer, { w with log })) := by
  unfold guardedCall PermissionTable.Allows
  cases h : table.decide lower ctx tool (normalizeArgs lower args) with
  | error e => exact .inr ⟨by simp, .error e, w.log, rfl, rfl⟩
  | ok decided =>
    let log := w.log.recordDecision "action" (table.supported decided) callId
    by_cases allowed : decided.action = .allow
    · exact .inl ⟨⟨decided, rfl, allowed⟩, log, rfl,
        carryOut_of_allow (supported_action_eq_allow_iff.mpr allowed)⟩
    · obtain ⟨answer, refused⟩ := carryOut_of_not_allow impl { w with log }
        (mt supported_action_eq_allow_iff.mp allowed)
      exact .inr ⟨by simpa using allowed, answer, log, rfl, refused⟩

end

end AgentLabs.GuardLab
