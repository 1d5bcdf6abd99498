import AgentLabs.GuardLab.Delivery

/-!
# Approvals

An approval is a record bound to a tool, to the arguments, to the requester and to
an expiry. The approval wrapper looks the record of a `send_report` call up and
uses it before anything else may run; in one of its modes it then asks the
permission table again.

That a call runs the implementation it is given is said through what the call does: it is
not the same for every implementation.

The hash of the arguments is a parameter. Instants and durations are integers, in
any unit.

## Main definitions

* `ApprovalStore.approve`, `ApprovalStore.check`: issuing and using a record
* `Guard`, `Guard.wrap`: an approval wrapper and the call through it
* `RunsImpl`: a call runs the implementation it is given

## Main results

* `ApprovalStore.check_cases`: a check uses the last candidate, or changes nothing
* `Guard.authorise_cases`: a call is handed over only after it used a record
* `Guard.wrap_of_not_handsOver`: a call that is not handed over delivers nothing
* `Guard.runsImpl_send_iff`: which calls run their implementation
-/

namespace AgentLabs.GuardLab

open Math Text

/-- A record of an approval. -/
structure ApprovalRecord where
  id : String
  tool : String
  argsHash : String
  recipient : String
  reportVersion : Int
  requester : String
  approver : String
  expiresAt : Int
  used : Bool := false
  policyVersion : String := "rules-v3"
  deriving DecidableEq, Repr

/-- The records in the order they were issued, and how long a new one is good for:
ten minutes, in microseconds, unless it is set otherwise. -/
structure ApprovalStore where
  ttl : Int := 600000000
  records : Dict String ApprovalRecord := []
  deriving DecidableEq, Repr

/-- The value counts as false: an empty text, zero, `None` or an empty container. -/
def ArgValue.isFalsy : ArgValue → Bool
  | .str text => text = ""
  | .int value => value = 0
  | .other text asInt => asInt = some 0 || text ∈ ["None", "[]", "\x7b\x7d", "()"]

/-- `int(args.get("report_version", 0) or 0)`. -/
def versionOf (args : Args) : Except PyError Int :=
  match args.get? "report_version" with
  | none => .ok 0
  | some value =>
    if value.isFalsy then .ok 0
    else
      match value.toInt, value with
      | some version, _ => .ok version
      | none, .str _ => .error .valueError
      | none, _ => .error .typeError

namespace ApprovalStore

section

variable (argsHash : String → Args → String)

/-- The record that `approve` makes. -/
def newRecord (store : ApprovalStore) (tool : String) (args : Args)
    (requester approver id : String) (now reportVersion : Int) : ApprovalRecord :=
  { id, tool, argsHash := argsHash tool args
    recipient := ((args.get? "recipient").getD (.str "")).toStr
    reportVersion, requester, approver, expiresAt := now + store.ttl }

/-- `approve`, with the id it draws and the instant it takes for now. -/
def approve (store : ApprovalStore) (tool : String) (args : Args) (requester approver id : String)
    (now : Int) : Except PyError ApprovalRecord × ApprovalStore :=
  match versionOf args with
  | .error e => (.error e, store)
  | .ok reportVersion =>
    let record := store.newRecord argsHash tool args requester approver id now reportVersion
    (.ok record, { store with records := store.records.set id record })

/-- The records for a tool, a hash and a requester, in the order of issue. -/
def candidates (store : ApprovalStore) (tool hash requester : String) : List ApprovalRecord :=
  (store.records.map Prod.snd).filter fun r =>
    r.tool = tool ∧ r.argsHash = hash ∧ r.requester = requester

/-- A refusal of `check`. -/
def refusal (code detail : String) : PolicyDecision :=
  { action := .block, reasonCode := code, detail }

/-- Mark a record as used. -/
def use (store : ApprovalStore) (r : ApprovalRecord) : ApprovalStore :=
  { store with records := store.records.set r.id { r with used := true } }

/-- `check`: the last candidate decides; an approval that is good is used. -/
def check (store : ApprovalStore) (tool : String) (args : Args) (requester : String) (now : Int)
    (consume : Bool := true) : PolicyDecision × ApprovalStore :=
  let hash := argsHash tool args
  match (store.candidates tool hash requester).getLast? with
  | none =>
    let sameTool := (store.records.map Prod.snd).filter fun r =>
      r.tool = tool ∧ r.requester = requester ∧ r.used = false
    (refusal (if sameTool ≠ [] then "APPROVAL_ARGS_MISMATCH" else "NO_APPROVAL") ("hash=" ++ hash),
      store)
  | some r =>
    if r.used then (refusal "APPROVAL_ALREADY_USED" r.id, store)
    else if now > r.expiresAt then (refusal "APPROVAL_EXPIRED" r.id, store)
    else
      ({ action := .allow, reasonCode := "APPROVED", detail := r.id },
        if consume then store.use r else store)

end

variable {argsHash : String → Args → String} {store : ApprovalStore} {tool : String} {args : Args}
  {requester : String} {now : Int}

/-- What a record is that a check uses. -/
structure Usable (argsHash : String → Args → String) (store : ApprovalStore) (tool : String)
    (args : Args) (requester : String) (now : Int) (r : ApprovalRecord) : Prop where
  mem : r ∈ store.records.map Prod.snd
  tool_eq : r.tool = tool
  hash_eq : r.argsHash = argsHash tool args
  requester_eq : r.requester = requester
  unused : r.used = false
  unexpired : now ≤ r.expiresAt

/-- **A check** that allows the call uses a record that is bound to it, unused and
unexpired; any other check leaves the store as it is. -/
theorem check_cases (argsHash : String → Args → String) (store : ApprovalStore) (tool : String)
    (args : Args) (requester : String) (now : Int) :
    (∃ r, Usable argsHash store tool args requester now r ∧
      store.check argsHash tool args requester now =
        ({ action := .allow, reasonCode := "APPROVED", detail := r.id }, store.use r)) ∨
    (∃ decision, decision.action = .block ∧
      store.check argsHash tool args requester now = (decision, store)) := by
  cases found : (store.candidates tool (argsHash tool args) requester).getLast? with
  | none => exact .inr ⟨refusal _ _, rfl, by simp only [check, found]; rfl⟩
  | some r =>
    have member := List.mem_of_getLast? found
    simp only [candidates, List.mem_filter, decide_eq_true_eq] at member
    obtain ⟨listed, sameTool, sameHash, sameRequester⟩ := member
    by_cases used : r.used = true
    · exact .inr ⟨refusal _ _, rfl, by simp only [check, found, used, if_true]; rfl⟩
    by_cases expired : now > r.expiresAt
    · exact .inr ⟨refusal _ _, rfl, by simp only [check, found, if_neg used, if_pos expired]; rfl⟩
    · refine .inl ⟨r, ⟨listed, sameTool, sameHash, sameRequester, by simpa using used,
        Int.not_lt.mp expired⟩, ?_⟩
      simp only [check, found, if_neg used, if_neg expired, if_true]

end ApprovalStore

/-! ### The wrapper -/

/-- The modes of the approval wrapper. -/
inductive Mode where
  | approveOnly
  | bound
  | boundRevalidate
  deriving DecidableEq, Repr

/-- What an approval wrapper is made of besides the store and the log. -/
structure Guard where
  mode : Mode
  table : Option PermissionTable := none
  inner : Option Wrapper := none

/-- The store of approvals and what the tools share. -/
structure Gate where
  store : ApprovalStore
  world : World

/-- The requester of a call: the user of its context. -/
def requesterOf (ctx : Option UserContext) : String := (ctx.map UserContext.userId).getD "unknown"

/-- The inner wrapper, or the implementation itself. -/
def Guard.proceed (guard : Guard) (ctx : Option UserContext) (tool : String) (args : Args)
    (impl : Impl) (callId : String) (g : Gate) : Except PyError String × Gate :=
  let out := match guard.inner with
    | some inner => inner ctx tool args impl callId g.world
    | none => impl g.world
  (out.1, { g with world := out.2 })

/-- In mode `bound_revalidate` the table decides on the rights of now: the answer if
the call ends here. -/
def Guard.revalidate (lower : String → String) (guard : Guard) (ctx : Option UserContext)
    (tool : String) (args : Args) (callId : String) (g : Gate) :
    Option (Except PyError String) × Gate :=
  match guard.mode, guard.table with
  | .boundRevalidate, some table =>
    match table.decide lower ctx tool (normalizeArgs lower args) with
    | .error e => (some (.error e), g)
    | .ok current =>
      let g : Gate :=
        { g with
          world := { g.world with log := g.world.log.recordDecision "action" current callId } }
      if current.action ≠ .allow then
        (some (.ok ("[BLOCKED " ++ current.reasonCode ++ "] 승인은 있으나 현재 권한이 없다.")), g)
      else (none, g)
  | _, _ => (none, g)

/-- What an approval wrapper asks of a `send_report` call before it hands the call
over: the answer if the call ends there, and none if it is handed over. -/
def Guard.authorise (argsHash : String → Args → String) (lower : String → String) (guard : Guard)
    (now : Int) (ctx : Option UserContext) (args : Args) (callId : String) (g : Gate) :
    Option (Except PyError String) × Gate :=
  let (decision, store) := g.store.check argsHash "send_report" args (requesterOf ctx) now
  let log := g.world.log.recordDecision "approval" decision callId
  let g : Gate := ⟨store, { g.world with log }⟩
  if decision.action ≠ .allow then
    (some (.ok ("[BLOCKED " ++ decision.reasonCode ++ "] 승인 기록과 실행 내용이 맞지 않는다 (" ++
      decision.detail ++ "). 새 승인이 필요하다.")), g)
  else guard.revalidate lower ctx "send_report" args callId g

/-- `make_approval_wrapper`, at the instant its check reads. -/
def Guard.wrap (argsHash : String → Args → String) (lower : String → String) (guard : Guard)
    (now : Int) (ctx : Option UserContext) (tool : String) (args : Args) (impl : Impl)
    (callId : String) (g : Gate) : Except PyError String × Gate :=
  if tool = "send_report" ∧ guard.mode ≠ .approveOnly then
    match guard.authorise argsHash lower now ctx args callId g with
    | (some answer, g) => (answer, g)
    | (none, g) => guard.proceed ctx tool args impl callId g
  else guard.proceed ctx tool args impl callId g

/-- The call is handed over. The implementation runs in no other call. -/
def Guard.HandsOver (argsHash : String → Args → String) (lower : String → String) (guard : Guard)
    (now : Int) (ctx : Option UserContext) (args : Args) (callId : String) (g : Gate) : Prop :=
  (guard.authorise argsHash lower now ctx args callId g).1 = none

section

variable {argsHash : String → Args → String} {lower : String → String} {guard : Guard} {now : Int}
  {ctx : Option UserContext} {args : Args} {impl impl' : Impl} {callId : String} {g : Gate}

@[simp] theorem Guard.store_revalidate {tool : String} :
    (guard.revalidate lower ctx tool args callId g).2.store = g.store := by
  unfold Guard.revalidate
  split
  · split
    · rfl
    · simp only
      split_ifs <;> rfl
  · rfl

@[simp] theorem Guard.outbox_revalidate {tool : String} :
    (guard.revalidate lower ctx tool args callId g).2.world.outbox = g.world.outbox := by
  unfold Guard.revalidate
  split
  · split
    · rfl
    · simp only
      split_ifs <;> rfl
  · rfl

/-- **What authorises a call**: a record that is good for it, which is thereby used.
A call that uses none is not handed over. -/
theorem Guard.authorise_cases (argsHash : String → Args → String) (lower : String → String)
    (guard : Guard) (now : Int) (ctx : Option UserContext) (args : Args) (callId : String)
    (g : Gate) :
    (∃ r, ApprovalStore.Usable argsHash g.store "send_report" args (requesterOf ctx) now r ∧
      (guard.authorise argsHash lower now ctx args callId g).2.store = g.store.use r) ∨
    (¬ guard.HandsOver argsHash lower now ctx args callId g ∧
      (guard.authorise argsHash lower now ctx args callId g).2.store = g.store) := by
  rcases ApprovalStore.check_cases argsHash g.store "send_report" args (requesterOf ctx) now with
    ⟨r, usable, checked⟩ | ⟨decision, blocked, checked⟩
  · -- The table may still end the call, but the record is used by then.
    refine .inl ⟨r, usable, ?_⟩
    have allowed : ¬ ((.allow : Action) ≠ .allow) := not_not.mpr rfl
    simp only [Guard.authorise, checked, if_neg allowed, Guard.store_revalidate]
  · have refused : decision.action ≠ .allow := by simp [blocked]
    refine .inr ⟨?_, ?_⟩
    · simp [Guard.HandsOver, Guard.authorise, checked, refused]
    · simp only [Guard.authorise, checked, if_pos refused]

theorem Guard.outbox_authorise :
    (guard.authorise argsHash lower now ctx args callId g).2.world.outbox = g.world.outbox := by
  simp only [Guard.authorise]
  split_ifs
  · rfl
  · simp only [Guard.outbox_revalidate]

theorem Guard.wrap_bound (bound : guard.mode ≠ .approveOnly) :
    guard.wrap argsHash lower now ctx "send_report" args impl callId g =
      match guard.authorise argsHash lower now ctx args callId g with
      | (some answer, g) => (answer, g)
      | (none, g) => guard.proceed ctx "send_report" args impl callId g :=
  if_pos ⟨rfl, bound⟩

/-- The records of a checked call are those its authorisation leaves. -/
theorem Guard.store_wrap (bound : guard.mode ≠ .approveOnly) :
    (guard.wrap argsHash lower now ctx "send_report" args impl callId g).2.store =
      (guard.authorise argsHash lower now ctx args callId g).2.store := by
  rw [Guard.wrap_bound bound]
  rcases guard.authorise argsHash lower now ctx args callId g with ⟨_ | answer, g'⟩ <;> rfl

/-- **A call that is not handed over** does the same with any implementation, and
delivers nothing. -/
theorem Guard.wrap_of_not_handsOver (bound : guard.mode ≠ .approveOnly)
    (kept : ¬ guard.HandsOver argsHash lower now ctx args callId g) :
    guard.wrap argsHash lower now ctx "send_report" args impl callId g =
        guard.wrap argsHash lower now ctx "send_report" args impl' callId g ∧
      (guard.wrap argsHash lower now ctx "send_report" args impl callId g).2.world.outbox =
        g.world.outbox := by
  have outbox : (guard.authorise argsHash lower now ctx args callId g).2.world.outbox =
    g.world.outbox := guard.outbox_authorise
  rw [Guard.wrap_bound bound, Guard.wrap_bound bound]
  rw [Guard.HandsOver] at kept
  rcases ended : guard.authorise argsHash lower now ctx args callId g with ⟨_ | answer, g'⟩
  · simp [ended] at kept
  · rw [ended] at outbox
    exact ⟨rfl, outbox⟩

/-- Without an inner wrapper a call that is handed over runs its implementation. -/
theorem Guard.wrap_of_handsOver (bound : guard.mode ≠ .approveOnly) (bare : guard.inner = none)
    (handed : guard.HandsOver argsHash lower now ctx args callId g) :
    ∃ w, (guard.wrap argsHash lower now ctx "send_report" args impl callId g).1 = (impl w).1 ∧
      (guard.wrap argsHash lower now ctx "send_report" args impl callId g).2.world = (impl w).2 ∧
      w.outbox = g.world.outbox := by
  have outbox : (guard.authorise argsHash lower now ctx args callId g).2.world.outbox =
    g.world.outbox := guard.outbox_authorise
  rw [Guard.wrap_bound bound]
  rw [Guard.HandsOver] at handed
  rcases passed : guard.authorise argsHash lower now ctx args callId g with ⟨_ | answer, g'⟩
  · rw [passed] at outbox
    exact ⟨g'.world, by simp only [Guard.proceed, bare], by simp only [Guard.proceed, bare], outbox⟩
  · simp [passed] at handed

end

/-! ### Running the implementation -/

/-- The call runs the implementation it is given: what it does depends on it. -/
def RunsImpl {α : Type} (call : Impl → α) : Prop := ∃ impl impl', call impl ≠ call impl'

theorem not_runsImpl_const {α : Type} (result : α) : ¬ RunsImpl fun _ : Impl => result := by
  intro runs
  obtain ⟨_, _, differ⟩ := runs
  exact differ rfl

theorem runsImpl_apply (w : World) : RunsImpl fun impl : Impl => impl w := by
  refine ⟨fun w => (.ok "sent", w), fun w => (.ok "refused", w), ?_⟩
  intro same
  have text : "sent" = "refused" := Except.ok.inj (congrArg Prod.fst same)
  exact absurd text (by decide)

/-- What is done with a result does not matter, if no part of it is lost. -/
theorem runsImpl_comp_iff {α β : Type} {call : Impl → α} {f : α → β} (injective : f.Injective) :
    RunsImpl (fun impl => f (call impl)) ↔ RunsImpl call := by
  simp only [RunsImpl, ne_eq, injective.eq_iff]

section

variable (argsHash : String → Args → String) (lower : String → String) (guard : Guard) (now : Int)
  (ctx : Option UserContext) (args : Args) (callId : String) (g : Gate)

/-- A `send_report` call through the wrapper, with the implementation left open. -/
def Guard.send (impl : Impl) : Except PyError String × Gate :=
  guard.wrap argsHash lower now ctx "send_report" args impl callId g

/-- The inner wrapper, if there is one, runs the implementation of a call that is handed
over to it. -/
def Guard.InnerRuns : Prop :=
  ∀ inner ∈ guard.inner, RunsImpl fun impl => inner ctx "send_report" args impl callId
    (guard.authorise argsHash lower now ctx args callId g).2.world

end

section

variable {argsHash : String → Args → String} {lower : String → String} {guard : Guard} {now : Int}
  {ctx : Option UserContext} {args : Args} {callId : String} {g : Gate}

/-- **Which calls run their implementation.** -/
theorem Guard.runsImpl_send_iff (bound : guard.mode ≠ .approveOnly) :
    RunsImpl (guard.send argsHash lower now ctx args callId g) ↔
      guard.HandsOver argsHash lower now ctx args callId g ∧
        guard.InnerRuns argsHash lower now ctx args callId g := by
  have sent : guard.send argsHash lower now ctx args callId g = fun impl =>
      guard.wrap argsHash lower now ctx "send_report" args impl callId g := rfl
  simp only [sent, Guard.wrap_bound bound]
  unfold Guard.HandsOver Guard.InnerRuns
  rcases guard.authorise argsHash lower now ctx args callId g with ⟨_ | answer, g'⟩
  · -- Handed over: the rest is the inner wrapper's or the implementation itself.
    have injective : Function.Injective fun out : Except PyError String × World =>
        (out.1, { g' with world := out.2 }) := by
      intro out out' same
      obtain ⟨first, second⟩ := Prod.ext_iff.mp same
      exact Prod.ext first (congrArg Gate.world second)
    cases inner : guard.inner with
    | none =>
      simp only [Guard.proceed, inner]
      rw [runsImpl_comp_iff injective]
      exact iff_of_true (runsImpl_apply _) ⟨trivial, by simp⟩
    | some inner' =>
      simp only [Guard.proceed, inner]
      rw [runsImpl_comp_iff injective]
      simp
  · exact iff_of_false (not_runsImpl_const _) fun both => absurd both.1 (by simp)

end

end AgentLabs.GuardLab
