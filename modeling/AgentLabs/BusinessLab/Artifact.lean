import AgentLabs.BusinessLab.Environment
import AgentLabs.Math.KeyOrder
import AgentLabs.Text.JsonAccess
import Mathlib.Data.String.Basic

/-!
# What is recorded of an episode

An artifact holds what the harness has collected: the state of the service before
and after as JSON values, every call with its answer, and the response of the agent
as it claims it. The evaluators read nothing else, so a state is a value here and not
a store; the store's own snapshot is one such value.

## Main definitions

* `Request`, `Response`, `Expected`, `Artifact`, `Verdict`: the contracts
* `Environment.snapshot`: the state of the store as the harness reads it
-/

namespace AgentLabs.BusinessLab

open Math Text

/-- A request of the user. Neither text is empty. -/
structure Request where
  message : String
  orderId : Option String
  requestId : String
  message_ne : message ≠ ""
  requestId_ne : requestId ≠ ""
  deriving DecidableEq, Repr

/-- The kinds of a response. -/
inductive ResponseKind where
  | completed
  | refused
  | clarification
  | escalated
  deriving DecidableEq, Repr

/-- The report of an agent. It says something, and refunds no negative amount. -/
structure Response where
  kind : ResponseKind
  message : String
  orderId : Option String
  refundCents : Option Int
  message_ne : message ≠ ""
  refundCents_nonneg : ∀ cents ∈ refundCents, 0 ≤ cents
  deriving DecidableEq, Repr

/-- The milestones a scenario can require. -/
inductive Milestone where
  | authorized
  | refundVerified
  | stockRestored
  | cancelVerified
  deriving DecidableEq, Repr

/-- What the evaluator expects. -/
structure Expected where
  finalState : Fields
  forbiddenTools : List String
  responseKind : ResponseKind
  maxRefundAttempts : ℕ
  requiredMilestones : List Milestone := []
  finalState_ne : finalState ≠ []
  maxRefundAttempts_le : maxRefundAttempts ≤ 2

/-- How an execution has ended. -/
inductive ExecutionStatus where
  | completed
  | executionError
  | infraError
  deriving DecidableEq, Repr

/-- The record of one turn of an episode. -/
structure TurnRecord where
  turnIndex : ℕ
  request : Request
  response : Option Response
  eventIds : List String
  initialState : Fields
  finalState : Fields

/-- What the harness has collected of an episode. -/
structure Artifact where
  scenarioId : String
  release : String
  trial : ℕ
  request : Request
  executionStatus : ExecutionStatus
  initialState : Fields
  finalState : Option Fields
  events : List Event
  response : Option Response
  errorType : Option String := none
  initialRequest : Option Request := none
  turns : List TurnRecord := []

/-- The outcomes of a check. -/
inductive VerdictStatus where
  | pass
  | fail
  | insufficientEvidence
  | evaluatorError
  deriving DecidableEq, Repr

/-- `passed`, which the status determines. -/
def VerdictStatus.passed : VerdictStatus → Option Bool
  | .pass => some true
  | .fail => some false
  | .insufficientEvidence => none
  | .evaluatorError => none

/-- The verdict of a check. A reason that ends in a printed list has it in `listed`. -/
structure Verdict where
  name : String
  status : VerdictStatus
  reason : String
  listed : List String := []
  evidenceIds : List String := []
  deriving DecidableEq, Repr

/-- `verdict`: the verdict of a check that has come to an end. -/
def verdict (name : String) (passed : Bool) (reason : String) (listed : List String)
    (events : List Event) : Verdict where
  name
  status := if passed then .pass else .fail
  reason
  listed
  evidenceIds := events.map fun event => event.stamp.eventId

@[simp] theorem status_verdict (name : String) (passed : Bool) (reason : String)
    (listed : List String) (events : List Event) :
    (verdict name passed reason listed events).status = if passed then .pass else .fail := rfl

/-! ### Snapshots -/

/-- A refund as the snapshot lists it. -/
def RefundRow.toJson (r : RefundRow) : Json :=
  .obj [("operation_key", .str r.operationKey), ("order_id", .str r.orderId),
    ("amount_cents", .int r.amountCents)]

/-- A release as the snapshot lists it. -/
def ReleaseRow.toJson (r : ReleaseRow) : Json :=
  .obj [("order_id", .str r.orderId), ("operation_key", .str r.operationKey),
    ("quantity", .int r.quantity)]

/-- A ticket as the snapshot lists it. -/
def TicketRow.toJson (t : TicketRow) : Json :=
  .obj [("order_id", .str t.orderId), ("reason", .str t.reason)]

/-- The orders of a snapshot. -/
def Database.ordersJson (db : Database) : Fields :=
  db.orders.sorted.map fun o => (o.id, o.toJson)

/-- The payments of a snapshot. -/
def Database.paymentsJson (db : Database) : Fields :=
  db.payments.sorted.map fun p => (p.orderId, p.toJson)

/-- A stock as it is read. -/
def InventoryRow.stock (i : InventoryRow) : Json :=
  if i.real then .ofDouble i.available else .int i.available

/-- The inventory of a snapshot. -/
def Database.inventoryJson (db : Database) : Fields :=
  db.inventory.sorted.map fun i => (i.sku, i.stock)

/-- `snapshot`. -/
def Environment.snapshot (env : Environment) : Fields :=
  [("orders", .obj env.db.ordersJson), ("payments", .obj env.db.paymentsJson),
    ("inventory", .obj env.db.inventoryJson),
    ("releases", .arr (env.db.releases.sorted.map ReleaseRow.toJson)),
    ("refunds", .arr (env.db.refunds.sorted.map RefundRow.toJson)),
    ("tickets", .arr (env.db.tickets.sorted.map TicketRow.toJson)),
    ("subject_id", .str env.subjectId), ("actor_id", .str env.actorId)]

namespace Database

variable (db : Database)

theorem get?_ordersJson (oid : String) :
    Dict.get? db.ordersJson oid = (db.orders.find? oid).map OrderRow.toJson :=
  Table.get?_sorted OrderRow.toJson db.orders oid

theorem get?_paymentsJson (oid : String) :
    Dict.get? db.paymentsJson oid = (db.payments.find? oid).map PaymentRow.toJson :=
  Table.get?_sorted PaymentRow.toJson db.payments oid

theorem get?_inventoryJson (sku : String) : Dict.get? db.inventoryJson sku =
    (db.inventory.find? sku).map InventoryRow.stock :=
  Table.get?_sorted InventoryRow.stock db.inventory sku

end Database

/-! ### Rows as values

A row and its value determine each other. -/

theorem exactEqual_versionJson {v w : Int} :
    Json.exactEqual (versionJson v) (versionJson w) ↔ v = w := by
  unfold versionJson
  split_ifs with small small' small'
  · simp [Json.exactEqual]
  · simp only [Json.ofDouble, Json.exactEqual, Bool.false_eq_true, false_iff]
    omega
  · simp only [Json.ofDouble, Json.exactEqual, Bool.false_eq_true, false_iff]
    omega
  · exact Json.exactEqual_ofDouble

theorem OrderRow.exactEqual_iff (o o' : OrderRow) :
    Json.exactEqual o.toJson o'.toJson ↔ o = o' := by
  cases o
  cases o'
  simp [OrderRow.toJson, Json.exactEqual, Json.exactFields, Dict.keys, Dict.get?,
    OrderStatus.name_injective.eq_iff, exactEqual_versionJson]

theorem PaymentRow.exactEqual_iff (p p' : PaymentRow) :
    Json.exactEqual p.toJson p'.toJson ↔ p = p' := by
  cases p
  cases p'
  simp [PaymentRow.toJson, Json.exactEqual, Json.exactFields, Dict.keys, Dict.get?]

theorem RefundRow.exactEqual_iff (r r' : RefundRow) :
    Json.exactEqual r.toJson r'.toJson ↔ r = r' := by
  cases r
  cases r'
  simp [RefundRow.toJson, Json.exactEqual, Json.exactFields, Dict.keys, Dict.get?]

theorem ReleaseRow.exactEqual_iff (r r' : ReleaseRow) :
    Json.exactEqual r.toJson r'.toJson ↔ r = r' := by
  cases r
  cases r'
  simp [ReleaseRow.toJson, Json.exactEqual, Json.exactFields, Dict.keys, Dict.get?]

theorem TicketRow.exactEqual_iff (t t' : TicketRow) :
    Json.exactEqual t.toJson t'.toJson ↔ t = t' := by
  cases t
  cases t'
  simp [TicketRow.toJson, Json.exactEqual, Json.exactFields, Dict.keys, Dict.get?]

end AgentLabs.BusinessLab
