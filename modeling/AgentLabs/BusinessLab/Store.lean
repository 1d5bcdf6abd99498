import AgentLabs.Math.Dict
import AgentLabs.Math.Rounding
import AgentLabs.Math.Table
import Mathlib.Algebra.BigOperators.Group.List.Basic

/-!
# The store of the order service

Six tables hold the state of the order service. Money, stock and orders are kept
apart and committed apart; what ties them together is not a constraint of the
store but a law of the service. A fixture is loaded row by row, and a repeated
key makes the loading fail.

The integers of the store have 64 bits. A larger one cannot be bound, so that a fixture that
has one is not loaded; but a sum that the store forms itself becomes a double. There are two
such sums, the version of an order and the stock of a unit. A version grows by one, so it is a
double from `2^63` on, and stays there. A stock is marked.

## Main definitions

* `Fits64`: the integers that can be bound
* `OrderRow`, `PaymentRow`, `InventoryRow`, `RefundRow`, `ReleaseRow`, `TicketRow`
* `Database`: the six tables
* `Fixture`, `Database.load`: the initial data and its insertion
-/

namespace AgentLabs.BusinessLab

open Math

/-- The integer has 64 bits. -/
def Fits64 (n : Int) : Prop := -2 ^ 63 ≤ n ∧ n < 2 ^ 63

instance (n : Int) : Decidable (Fits64 n) := inferInstanceAs (Decidable (_ ∧ _))

/-- The statuses the service knows. -/
def knownStatuses : List String := ["paid", "cancelling", "cancelled", "shipped"]

/-- The status of an order. Only four are known to the service. -/
inductive OrderStatus where
  | paid
  | cancelling
  | cancelled
  | shipped
  | other (name : String) (unknown : name ∉ knownStatuses)
  deriving DecidableEq, Repr

/-- The text stored for a status. -/
def OrderStatus.name : OrderStatus → String
  | .paid => "paid"
  | .cancelling => "cancelling"
  | .cancelled => "cancelled"
  | .shipped => "shipped"
  | .other name _ => name

/-- The status a stored text stands for. -/
def OrderStatus.ofName (text : String) : OrderStatus :=
  if paid : text = "paid" then .paid
  else if cancelling : text = "cancelling" then .cancelling
  else if cancelled : text = "cancelled" then .cancelled
  else if shipped : text = "shipped" then .shipped
  else .other text (by simp [knownStatuses, paid, cancelling, cancelled, shipped])

theorem OrderStatus.ofName_name (status : OrderStatus) : ofName status.name = status := by
  cases status with
  | other name unknown =>
    simp only [knownStatuses, List.mem_cons, List.not_mem_nil, or_false, not_or] at unknown
    simp [ofName, OrderStatus.name, unknown]
  | _ => rfl

theorem OrderStatus.name_injective : Function.Injective OrderStatus.name :=
  Function.LeftInverse.injective ofName_name

/-- A row of `orders`, by `id`. -/
structure OrderRow where
  id : String
  customerId : String
  status : OrderStatus
  amountCents : Int
  currency : String
  sku : String
  quantity : Int
  version : Int
  deriving DecidableEq, Repr

/-- What no tool changes about an order. -/
def OrderRow.identity (o : OrderRow) : String × String × Int × String × String × Int :=
  (o.id, o.customerId, o.amountCents, o.currency, o.sku, o.quantity)

/-- `version+1`. From `2^63` on the version is a double, and too large for the sum to be another
one. -/
def nextVersion (version : Int) : Int := if version < 2 ^ 63 then version + 1 else version

/-- The integers of an order have 64 bits. -/
def OrderRow.Fits (o : OrderRow) : Prop :=
  Fits64 o.amountCents ∧ Fits64 o.quantity ∧ Fits64 o.version

instance (o : OrderRow) : Decidable o.Fits := inferInstanceAs (Decidable (_ ∧ _))

/-- A row of `payments`, by order. -/
structure PaymentRow where
  orderId : String
  capturedCents : Int
  refundedCents : Int
  deriving DecidableEq, Repr

/-- The integers of a payment have 64 bits. -/
def PaymentRow.Fits (p : PaymentRow) : Prop := Fits64 p.capturedCents ∧ Fits64 p.refundedCents

instance (p : PaymentRow) : Decidable p.Fits := inferInstanceAs (Decidable (_ ∧ _))

/-- A row of `inventory`, by stock-keeping unit. -/
structure InventoryRow where
  sku : String
  available : Int
  /-- The stock is stored as a double. -/
  real : Bool := false
  deriving DecidableEq, Repr

/-- `available+?`. Beyond 64 bits the sum is one of doubles; a double is stored as an integer
again where it is one of less than 64 bits. -/
def InventoryRow.add (i : InventoryRow) (quantity : Int) : InventoryRow :=
  if i.real = false ∧ Fits64 (i.available + quantity) then
    { i with available := i.available + quantity }
  else
    let sum := nearestDouble (nearestDouble i.available + nearestDouble quantity)
    { i with available := sum, real := !(-2 ^ 63 < sum && sum < 2 ^ 63) }

@[simp] theorem InventoryRow.sku_add (i : InventoryRow) (quantity : Int) :
    (i.add quantity).sku = i.sku := by
  unfold add
  split_ifs <;> rfl

theorem InventoryRow.add_of_fits {i : InventoryRow} {quantity : Int} (integer : i.real = false)
    (fits : Fits64 (i.available + quantity)) :
    i.add quantity = { i with available := i.available + quantity } := if_pos ⟨integer, fits⟩

/-- A row of `refunds`, by the key of the operation. -/
structure RefundRow where
  operationKey : String
  orderId : String
  amountCents : Int
  deriving DecidableEq, Repr

/-- A row of `releases`, by order; the key of the operation is unique as well. -/
structure ReleaseRow where
  orderId : String
  operationKey : String
  quantity : Int
  deriving DecidableEq, Repr

/-- A row of `tickets`, by order. -/
structure TicketRow where
  orderId : String
  reason : String
  deriving DecidableEq, Repr

/-- The tables. -/
structure Database where
  orders : Table OrderRow.id
  payments : Table PaymentRow.orderId
  inventory : Table InventoryRow.sku
  refunds : Table RefundRow.operationKey
  releases : Table ReleaseRow.orderId
  tickets : Table TicketRow.orderId

namespace Database

/-- `UPDATE orders SET status=?, version=version+1 WHERE id=?`. -/
def setStatus (db : Database) (oid : String) (status : OrderStatus) : Database :=
  { db with
    orders := db.orders.update oid (fun o => { o with status, version := nextVersion o.version })
      fun _ => rfl }

/-- `UPDATE payments SET refunded_cents=refunded_cents+? WHERE order_id=?`. The sum is what was
captured, so it has 64 bits. -/
def addRefunded (db : Database) (oid : String) (amount : Int) : Database :=
  { db with
    payments := db.payments.update oid
      (fun p => { p with refundedCents := p.refundedCents + amount })
      fun _ => rfl }

/-- `UPDATE inventory SET available=available+? WHERE sku=?`. -/
def addAvailable (db : Database) (sku : String) (quantity : Int) : Database :=
  { db with
    inventory := db.inventory.update sku (fun i => i.add quantity) fun i => i.sku_add quantity }

/-- `INSERT INTO refunds`; `none` when the key is in use. -/
def insertRefund? (db : Database) (row : RefundRow) : Option Database :=
  (db.refunds.insert? row).map fun refunds => { db with refunds }

/-- `INSERT INTO releases`; `none` when the order or the key is in use. -/
def insertRelease? (db : Database) (row : ReleaseRow) : Option Database :=
  if row.operationKey ∈ db.releases.rows.map ReleaseRow.operationKey then none
  else (db.releases.insert? row).map fun releases => { db with releases }

/-- `INSERT OR IGNORE INTO tickets`. -/
def insertTicket (db : Database) (row : TicketRow) : Database :=
  { db with tickets := (db.tickets.insert? row).getD db.tickets }

variable {db db' : Database} {oid : String}

/-! ### What the writes change -/

theorem find?_setStatus (status : OrderStatus) (oid' : String) :
    (db.setStatus oid status).orders.find? oid' =
      if oid' = oid then (db.orders.find? oid').map fun o =>
        { o with status, version := nextVersion o.version } else db.orders.find? oid' := by
  rw [setStatus, Table.find?_update]

theorem identity_setStatus (status : OrderStatus) :
    (db.setStatus oid status).orders.rows.map OrderRow.identity =
      db.orders.rows.map OrderRow.identity := by
  simp only [setStatus, Table.rows_update, List.map_map]
  refine List.map_congr_left fun o _ => ?_
  by_cases h : o.id = oid <;> simp [h, OrderRow.identity]

theorem find?_addRefunded (amount : Int) (oid' : String) :
    (db.addRefunded oid amount).payments.find? oid' =
      if oid' = oid then (db.payments.find? oid').map fun p =>
        { p with refundedCents := p.refundedCents + amount } else db.payments.find? oid' := by
  rw [addRefunded, Table.find?_update]

theorem find?_addAvailable {sku : String} (quantity : Int) (sku' : String) :
    (db.addAvailable sku quantity).inventory.find? sku' =
      if sku' = sku then (db.inventory.find? sku').map fun i => i.add quantity
      else db.inventory.find? sku' := by
  rw [addAvailable, Table.find?_update]

theorem exists_of_insertRefund? {row : RefundRow} (h : db.insertRefund? row = some db') :
    ∃ refunds, db.refunds.insert? row = some refunds ∧ db' = { db with refunds } := by
  obtain ⟨refunds, inserted, rfl⟩ := Option.map_eq_some_iff.mp h
  exact ⟨refunds, inserted, rfl⟩

theorem exists_of_insertRelease? {row : ReleaseRow} (h : db.insertRelease? row = some db') :
    ∃ releases, db.releases.insert? row = some releases ∧ db' = { db with releases } := by
  unfold insertRelease? at h
  split_ifs at h
  obtain ⟨releases, inserted, rfl⟩ := Option.map_eq_some_iff.mp h
  exact ⟨releases, inserted, rfl⟩

/-- An order is released with a row of its own, and no other order is. -/
theorem mem_releases_of_insertRelease? {row : ReleaseRow}
    (h : db.insertRelease? row = some db') : row.orderId ∉ db.releases ∧
      ∀ oid, oid ∈ db'.releases ↔ oid = row.orderId ∨ oid ∈ db.releases := by
  obtain ⟨releases, inserted, rfl⟩ := exists_of_insertRelease? h
  exact ⟨(Table.insert?_eq_some_iff.mp inserted).1, fun _ => Table.mem_of_insert? inserted⟩

end Database

/-- The faults a fixture can inject; every other text injects nothing. -/
inductive Fault where
  | none
  | shipBeforeCancel
  | paymentUnavailable
  | refundTimeoutBeforeCommit
  | refundTimeoutAfterCommit
  deriving DecidableEq, Repr

/-- The initial data of an environment. -/
structure Fixture where
  actorId : String
  subjectId : String
  fault : Fault := .none
  orders : List OrderRow
  payments : List PaymentRow
  inventory : Dict String Int
  releases : List ReleaseRow := []

/-- All integers of the fixture have 64 bits. -/
def Fixture.Fits (fixture : Fixture) : Prop :=
  (∀ o ∈ fixture.orders, o.Fits) ∧ (∀ p ∈ fixture.payments, p.Fits) ∧
    (∀ entry ∈ fixture.inventory, Fits64 entry.2) ∧ ∀ r ∈ fixture.releases, Fits64 r.quantity

instance (fixture : Fixture) : Decidable fixture.Fits := inferInstanceAs (Decidable (_ ∧ _))

/-- The rows of a fixture, inserted one after the other; `none` on a repeated key, or on an
integer that cannot be bound. -/
def Database.load (fixture : Fixture) : Option Database := do
  guard fixture.Fits
  let orders ← Table.empty.insertAll? fixture.orders
  let payments ← Table.empty.insertAll? fixture.payments
  let inventory ← Table.empty.insertAll? (fixture.inventory.map fun entry =>
    { sku := entry.1, available := entry.2 })
  let db : Database := ⟨orders, payments, inventory, .empty, .empty, .empty⟩
  fixture.releases.foldlM Database.insertRelease? db

end AgentLabs.BusinessLab
