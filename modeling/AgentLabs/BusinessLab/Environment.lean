import AgentLabs.BusinessLab.Store
import AgentLabs.Text.Json
import AgentLabs.Text.PythonStr

/-!
# The order service

Eight tools over the store. Each commits on its own, so a cancellation is a
sequence of calls that can stop anywhere: after the status change, after the
refund, after the release of the stock. A fault of the fixture can ship the order
in the middle, refuse the payment service, or lose the answer of a refund before
or after its commit. Every call up to the budget is recorded.

## Main definitions

* `Environment`, `Event`: the state of an attempt and its record
* `Environment.dispatch`, `Environment.call`: the tools
* `Effect`: what a tool can do to the store

## Main results

* `effect_dispatch`: every tool has one of the effects
-/

namespace AgentLabs.BusinessLab

open Math Text

/-- The tools. -/
inductive Tool where
  | getOrder
  | checkCancelPolicy
  | getPayment
  | createTicket
  | beginCancellation
  | refundPayment
  | releaseStock
  | completeCancellation
  deriving DecidableEq, Repr

/-- `TOOL_NAMES`. -/
def Tool.ofName? : String → Option Tool
  | "get_order" => some .getOrder
  | "check_cancel_policy" => some .checkCancelPolicy
  | "get_payment" => some .getPayment
  | "create_ticket" => some .createTicket
  | "begin_cancellation" => some .beginCancellation
  | "refund_payment" => some .refundPayment
  | "release_stock" => some .releaseStock
  | "complete_cancellation" => some .completeCancellation
  | _ => none

/-- `MAX_TOOL_CALLS`. -/
def maxToolCalls : ℕ := 18

/-- `POLICY_VERSION`. -/
def policyVersion : String := "order-policy-v1"

/-- What a call is stamped with from outside: a fresh id, the clock and the tracer. -/
structure Stamp where
  eventId : String
  startNs : Int
  endNs : Int
  observationId : Option String := none
  parentObservationId : Option String := none
  deriving DecidableEq, Repr

/-- The record of a call. -/
structure Event where
  stamp : Stamp
  step : ℕ
  tool : String
  args : Fields
  result : Json
  callId : Option String
  turnIndex : ℕ
  deriving Repr

/-- The exceptions a tool can raise. -/
inductive ServiceError where
  | integrityError
  | typeError
  | overflowError
  deriving DecidableEq, Repr

/-- `type(exc).__name__`. -/
def ServiceError.typeName : ServiceError → String
  | .integrityError => "IntegrityError"
  | .typeError => "TypeError"
  | .overflowError => "OverflowError"

/-- The exceptions of a call: the budget is used up, or the tool has raised. -/
inductive CallError where
  | toolBudgetExceeded
  | service (error : ServiceError)
  deriving DecidableEq, Repr

/-- An attempt at a scenario. -/
structure Environment where
  actorId : String
  subjectId : String
  fault : Fault
  faultUsed : Bool := false
  events : List Event := []
  turnIndex : ℕ := 1
  db : Database

/-- A call as the caller issues it. -/
structure Call where
  stamp : Stamp
  tool : String
  args : Fields
  callId : Option String := none

/-- `OrderEnvironment(fixture)`; `none` when the insertion of a row fails. -/
def Environment.ofFixture (fixture : Fixture) : Option Environment :=
  (Database.load fixture).map fun db =>
    { actorId := fixture.actorId, subjectId := fixture.subjectId, fault := fixture.fault, db }

theorem Environment.events_ofFixture {fixture : Fixture} {env : Environment}
    (loaded : Environment.ofFixture fixture = some env) :
    env.events = [] ∧ env.subjectId = fixture.subjectId := by
  obtain ⟨db, -, rfl⟩ := Option.map_eq_some_iff.mp loaded
  exact ⟨rfl, rfl⟩

/-! ### Answers -/

/-- `{"status": "ok", …}`. -/
def okAnswer (fields : Fields) : Json := .obj (("status", .str "ok") :: fields)

/-- `{"status": status, "code": code}`. -/
def refusal (status code : String) : Json := .obj [("status", .str status), ("code", .str code)]

/-- The answer that leaves the outcome of a refund open. -/
def timeout : Json :=
  .obj [("status", .str "error"), ("code", .str "TIMEOUT"), ("outcome", .str "unknown")]

/-- A version as it is read. -/
def versionJson (version : Int) : Json :=
  if version < 2 ^ 63 then .int version else .ofDouble version

theorem OrderRow.Fits.versionJson_eq {o : OrderRow} (fits : o.Fits) :
    versionJson o.version = .int o.version := if_pos fits.2.2.2

/-- An order as `get_order` returns it. -/
def OrderRow.toJson (o : OrderRow) : Json :=
  .obj [("id", .str o.id), ("customer_id", .str o.customerId), ("status", .str o.status.name),
    ("amount_cents", .int o.amountCents), ("currency", .str o.currency), ("sku", .str o.sku),
    ("quantity", .int o.quantity), ("version", versionJson o.version)]

/-- A payment as `get_payment` returns it. -/
def PaymentRow.toJson (p : PaymentRow) : Json :=
  .obj [("order_id", .str p.orderId), ("captured_cents", .int p.capturedCents),
    ("refunded_cents", .int p.refundedCents)]

namespace Environment

/-- The answer of a tool, or its exception, and the environment it leaves. -/
abbrev Reply := Except ServiceError Json × Environment

/-- An argument that is text and not blank. -/
def textArg? (args : Fields) (name : String) : Option String :=
  ((args.get? name).bind Json.asStr?).filter fun text => !isBlank text

/-- An argument that is an integer. -/
def intArg? (args : Fields) (name : String) : Option Int := (args.get? name).bind Json.asInt?

/-- The tool `create_ticket`. -/
def createTicket (env : Environment) (order : OrderRow) (args : Fields) : Reply :=
  match textArg? args "reason" with
  | none => (.ok (refusal "error" "INVALID_REASON"), env)
  | some reason =>
    (.ok (okAnswer [("ticket_id", .str ("ticket-" ++ order.id))]),
      { env with db := env.db.insertTicket ⟨order.id, reason⟩ })

/-- The injected shipment. -/
def shipBeforeCancel (env : Environment) (order : OrderRow) : Environment :=
  if env.fault = .shipBeforeCancel ∧ env.faultUsed = false then
    { env with db := env.db.setStatus order.id .shipped, faultUsed := true }
  else env

/-- `_begin`: the tool `begin_cancellation`. -/
def begin (env : Environment) (order : OrderRow) (args : Fields) : Reply :=
  match intArg? args "expected_version" with
  | none => (.ok (refusal "error" "INVALID_VERSION"), env)
  | some expected =>
    let env := env.shipBeforeCancel order
    match env.db.orders.find? order.id with
    | none => (.error .typeError, env)
    | some current =>
      if current.version ≠ expected then (.ok (refusal "error" "VERSION_CONFLICT"), env)
      else if current.status = .cancelling then
        (.ok (okAnswer [("already_started", .bool true)]), env)
      else if current.status ≠ .paid then (.ok (refusal "denied" "NOT_CANCELLABLE"), env)
      else if ¬ Fits64 expected then (.error .overflowError, env)
      else
        -- The row was read with this version just now, so the guarded update changes it.
        (.ok (okAnswer []), { env with db := env.db.setStatus order.id .cancelling })

/-- `_refund`: the tool `refund_payment`. -/
def refund (env : Environment) (order : OrderRow) (args : Fields) : Reply :=
  match intArg? args "amount_cents", textArg? args "idempotency_key" with
  | some amount, some key =>
    if amount ≤ 0 then (.ok (refusal "error" "INVALID_REFUND_ARGUMENT"), env)
    else
      match env.db.refunds.find? key with
      | some prior =>
        if prior.orderId ≠ order.id ∨ prior.amountCents ≠ amount then
          (.ok (refusal "error" "IDEMPOTENCY_CONFLICT"), env)
        else (.ok (okAnswer [("refund_cents", .int amount), ("replayed", .bool true)]), env)
      | none =>
        if order.status ≠ .cancelling then
          (.ok (refusal "denied" "CANCELLATION_NOT_STARTED"), env)
        else
          match env.db.payments.find? order.id with
          | none => (.ok (refusal "denied" "REFUND_BALANCE_MISMATCH"), env)
          | some payment =>
            if amount ≠ payment.capturedCents - payment.refundedCents then
              (.ok (refusal "denied" "REFUND_BALANCE_MISMATCH"), env)
            else if env.fault = .paymentUnavailable then (.ok timeout, env)
            else if env.fault = .refundTimeoutBeforeCommit ∧ env.faultUsed = false then
              (.ok timeout, { env with faultUsed := true })
            else if ¬ Fits64 amount then (.error .overflowError, env)
            else
              match env.db.insertRefund? ⟨key, order.id, amount⟩ with
              | none => (.error .integrityError, env)
              | some db =>
                let env := { env with db := db.addRefunded order.id amount }
                if env.fault = .refundTimeoutAfterCommit ∧ env.faultUsed = false then
                  (.ok timeout, { env with faultUsed := true })
                else (.ok (okAnswer [("refund_cents", .int amount), ("replayed", .bool false)]),
                  env)
  | _, _ => (.ok (refusal "error" "INVALID_REFUND_ARGUMENT"), env)

/-- The row of a release with this key. -/
def releaseOfKey? (env : Environment) (key : String) : Option ReleaseRow :=
  env.db.releases.rows.find? fun row => row.operationKey = key

/-- Whether the payment of an order is refunded as far as it was captured. -/
def refundComplete (env : Environment) (oid : String) : Bool :=
  match env.db.payments.find? oid with
  | none => false
  | some payment => payment.refundedCents = payment.capturedCents

/-- `_release`: the tool `release_stock`. -/
def release (env : Environment) (order : OrderRow) (args : Fields) : Reply :=
  match textArg? args "idempotency_key" with
  | none => (.ok (refusal "error" "INVALID_IDEMPOTENCY_KEY"), env)
  | some key =>
    if ∃ prior ∈ env.releaseOfKey? key, prior.orderId ≠ order.id then
      (.ok (refusal "error" "IDEMPOTENCY_CONFLICT"), env)
    else if order.id ∈ env.db.releases then (.ok (okAnswer [("replayed", .bool true)]), env)
    else if order.status ≠ .cancelling ∨ env.refundComplete order.id = false then
      (.ok (refusal "denied" "REFUND_NOT_CONFIRMED"), env)
    else
      match env.db.insertRelease? ⟨order.id, key, order.quantity⟩ with
      | none => (.error .integrityError, env)
      | some db =>
        (.ok (okAnswer [("released_quantity", .int order.quantity), ("replayed", .bool false)]),
          { env with db := db.addAvailable order.sku order.quantity })

/-- The tool `complete_cancellation`. -/
def complete (env : Environment) (order : OrderRow) : Reply :=
  if order.status = .cancelled then (.ok (okAnswer [("already_completed", .bool true)]), env)
  else if order.status ≠ .cancelling ∨ env.refundComplete order.id = false ∨
      order.id ∉ env.db.releases then
    (.ok (refusal "denied" "INCOMPLETE_SAGA"), env)
  else
    (.ok (okAnswer [("order_status", .str "cancelled")]),
      { env with db := env.db.setStatus order.id .cancelled })

/-- The answer of `check_cancel_policy`. -/
def policyAnswer (order : OrderRow) : Json :=
  okAnswer [("allowed", .bool (order.status = .paid ∨ order.status = .cancelling)),
    ("order_id", .str order.id), ("order_version", versionJson order.version),
    ("policy_version", .str policyVersion),
    ("reason", .str "출고 전 본인 주문만 취소 가능. 취소 중인 요청은 이어서 처리한다.")]

/-- A tool on an order of the actor. -/
def runTool (env : Environment) (order : OrderRow) (args : Fields) : Tool → Reply
  | .getOrder => (.ok (okAnswer [("order", order.toJson)]), env)
  | .getPayment =>
    let payment := (env.db.payments.find? order.id).elim Json.null PaymentRow.toJson
    (.ok (okAnswer [("payment", payment)]), env)
  | .checkCancelPolicy => (.ok (policyAnswer order), env)
  | .createTicket => env.createTicket order args
  | .beginCancellation => env.begin order args
  | .refundPayment => env.refund order args
  | .releaseStock => env.release order args
  | .completeCancellation => env.complete order

/-- `_dispatch`. -/
def dispatch (env : Environment) (tool : String) (args : Fields) : Reply :=
  match Tool.ofName? tool with
  | none => (.ok (refusal "error" "UNKNOWN_TOOL"), env)
  | some tool =>
    match textArg? args "order_id" with
    | none => (.ok (refusal "error" "INVALID_ORDER_ID"), env)
    | some oid =>
      match env.db.orders.find? oid with
      | none => (.ok (refusal "error" "NOT_FOUND"), env)
      | some order =>
        if order.customerId ≠ env.actorId then (.ok (refusal "denied" "FORBIDDEN"), env)
        else env.runTool order args tool

/-- The result recorded for an exception. -/
def serviceError (error : ServiceError) : Json :=
  .obj [("status", .str "error"), ("code", .str "SERVICE_ERROR"),
    ("error_type", .str error.typeName)]

/-- The result recorded for a reply. -/
def recorded : Except ServiceError Json → Json
  | .ok result => result
  | .error error => serviceError error

/-- `call`. Every call within the budget is recorded, an exception as well. -/
def call (env : Environment) (c : Call) : Except CallError Json × Environment :=
  if maxToolCalls ≤ env.events.length then (.error .toolBudgetExceeded, env)
  else
    let reply := env.dispatch c.tool c.args
    let event : Event :=
      { stamp := c.stamp
        step := reply.2.events.length + 1
        tool := c.tool
        args := c.args
        result := recorded reply.1
        callId := c.callId
        turnIndex := reply.2.turnIndex }
    (reply.1.mapError .service, { reply.2 with events := reply.2.events ++ [event] })

/-- A sequence of calls. An exception leaves the environment usable. -/
def runCalls (env : Environment) (calls : List Call) : Environment :=
  calls.foldl (fun env c => (env.call c).2) env

end Environment

/-! ### Effects -/

/-- What a tool on an order can do to the store, with the guards it has passed. -/
inductive Effect (db : Database) (order : OrderRow) : Database → Prop
  | unchanged : Effect db order db
  | ticketed (reason : String) : Effect db order (db.insertTicket ⟨order.id, reason⟩)
  | shipped : Effect db order (db.setStatus order.id .shipped)
  | begun (paid : order.status = .paid) : Effect db order (db.setStatus order.id .cancelling)
  | refunded {key : String} {amount : Int} {payment : PaymentRow} {db' : Database}
      (started : order.status = .cancelling)
      (found : db.payments.find? order.id = some payment)
      (rest : amount = payment.capturedCents - payment.refundedCents) (positive : 0 < amount)
      (inserted : db.insertRefund? ⟨key, order.id, amount⟩ = some db') :
      Effect db order (db'.addRefunded order.id amount)
  | released {key : String} {payment : PaymentRow} {db' : Database}
      (started : order.status = .cancelling)
      (found : db.payments.find? order.id = some payment)
      (full : payment.refundedCents = payment.capturedCents)
      (inserted : db.insertRelease? ⟨order.id, key, order.quantity⟩ = some db') :
      Effect db order (db'.addAvailable order.sku order.quantity)
  | completed {payment : PaymentRow} (started : order.status = .cancelling)
      (found : db.payments.find? order.id = some payment)
      (full : payment.refundedCents = payment.capturedCents) (stocked : order.id ∈ db.releases) :
      Effect db order (db.setStatus order.id .cancelled)

namespace Environment

variable {env : Environment} {order : OrderRow} {args : Fields}

theorem exists_payment_of_refundComplete {oid : String} (h : env.refundComplete oid = true) :
    ∃ payment, env.db.payments.find? oid = some payment ∧
      payment.refundedCents = payment.capturedCents := by
  unfold refundComplete at h
  cases found : env.db.payments.find? oid with
  | none => simp [found] at h
  | some payment => exact ⟨payment, rfl, by simpa [found] using h⟩

theorem effect_begin (found : env.db.orders.find? order.id = some order) (args : Fields) :
    Effect env.db order (env.begin order args).2.db := by
  unfold begin
  cases intArg? args "expected_version" with
  | none => exact .unchanged
  | some expected =>
    by_cases fault : env.fault = .shipBeforeCancel ∧ env.faultUsed = false
    · -- The order is now shipped, so neither of the two good answers is left.
      simp only [shipBeforeCancel, fault, and_self, if_true, Database.find?_setStatus, found,
        Option.map_some]
      split_ifs with conflict started refused
      · exact .shipped
      · exact absurd started (by decide)
      · exact .shipped
      · exact absurd refused (by decide)
      · exact absurd refused (by decide)
    · simp only [shipBeforeCancel, fault, if_false, found]
      split_ifs with conflict started refused large
      · exact .unchanged
      · exact .unchanged
      · exact .unchanged
      · exact .begun (not_not.mp refused)
      · exact .unchanged

theorem effect_refund (env : Environment) (order : OrderRow) (args : Fields) :
    Effect env.db order (env.refund order args).2.db := by
  unfold refund
  split
  · case h_1 amount key _ _ =>
    by_cases empty : amount ≤ 0
    · rw [if_pos empty]
      exact .unchanged
    rw [if_neg empty]
    cases env.db.refunds.find? key with
    | some prior =>
      dsimp only
      split_ifs <;> exact .unchanged
    | none =>
      dsimp only
      by_cases started : order.status = .cancelling
      swap
      · rw [if_pos started]
        exact .unchanged
      rw [if_neg (not_not.mpr started)]
      cases found : env.db.payments.find? order.id with
      | none => exact .unchanged
      | some payment =>
        dsimp only
        by_cases rest : amount = payment.capturedCents - payment.refundedCents
        swap
        · rw [if_pos rest]
          exact .unchanged
        rw [if_neg (not_not.mpr rest)]
        cases inserted : env.db.insertRefund? ⟨key, order.id, amount⟩ with
        | none =>
          dsimp only
          split_ifs <;> exact .unchanged
        | some db =>
          have paidBack : Effect env.db order (db.addRefunded order.id amount) :=
            .refunded started found rest (by omega) inserted
          dsimp only
          -- An answer lost before the commit leaves the store, one lost after it does not.
          split_ifs
          exacts [.unchanged, .unchanged, paidBack, paidBack, .unchanged]
  · exact .unchanged

theorem effect_release (env : Environment) (order : OrderRow) (args : Fields) :
    Effect env.db order (env.release order args).2.db := by
  unfold release
  cases textArg? args "idempotency_key" with
  | none => exact .unchanged
  | some key =>
    dsimp only
    split_ifs with conflict replayed unconfirmed
    · exact .unchanged
    · exact .unchanged
    · exact .unchanged
    cases inserted : env.db.insertRelease? ⟨order.id, key, order.quantity⟩ with
    | none => exact .unchanged
    | some db =>
      rw [not_or, not_not, Bool.not_eq_false] at unconfirmed
      obtain ⟨payment, found, full⟩ := exists_payment_of_refundComplete unconfirmed.2
      exact .released unconfirmed.1 found full inserted

theorem effect_complete (env : Environment) (order : OrderRow) :
    Effect env.db order (env.complete order).2.db := by
  unfold complete
  split_ifs with already incomplete
  · exact .unchanged
  · exact .unchanged
  · simp only [not_or, not_not, Bool.not_eq_false] at incomplete
    obtain ⟨payment, found, full⟩ := exists_payment_of_refundComplete incomplete.2.1
    exact .completed incomplete.1 found full incomplete.2.2

theorem effect_runTool (found : env.db.orders.find? order.id = some order) (args : Fields)
    (tool : Tool) : Effect env.db order (env.runTool order args tool).2.db := by
  cases tool with
  | getOrder => exact .unchanged
  | getPayment => exact .unchanged
  | checkCancelPolicy => exact .unchanged
  | createTicket =>
    unfold runTool createTicket
    cases textArg? args "reason" with
    | none => exact .unchanged
    | some reason => exact .ticketed reason
  | beginCancellation => exact effect_begin found args
  | refundPayment => exact effect_refund env order args
  | releaseStock => exact effect_release env order args
  | completeCancellation => exact effect_complete env order

/-- **What a tool can do.** A dispatch leaves the store as it is, or has one of the
effects on an order of the actor. -/
theorem effect_dispatch (env : Environment) (tool : String) (args : Fields) :
    (env.dispatch tool args).2.db = env.db ∨
      ∃ order, env.db.orders.find? order.id = some order ∧ order.customerId = env.actorId ∧
        Effect env.db order (env.dispatch tool args).2.db := by
  unfold dispatch
  cases Tool.ofName? tool with
  | none => exact .inl rfl
  | some tool =>
    cases textArg? args "order_id" with
    | none => exact .inl rfl
    | some oid =>
      cases found : env.db.orders.find? oid with
      | none => exact .inl (by simp only [found])
      | some order =>
        obtain rfl := Table.key_of_find?_eq_some found
        simp only [found]
        split_ifs with foreign
        · exact .inl rfl
        · exact .inr ⟨order, found, not_not.mp foreign, effect_runTool found args tool⟩

/-- What a call can do to the store. -/
theorem effect_call (env : Environment) (c : Call) :
    (env.call c).2.db = env.db ∨
      ∃ order, env.db.orders.find? order.id = some order ∧ order.customerId = env.actorId ∧
        Effect env.db order (env.call c).2.db := by
  unfold call
  split_ifs with spent
  · exact .inl rfl
  · exact effect_dispatch env c.tool c.args

end Environment

end AgentLabs.BusinessLab
