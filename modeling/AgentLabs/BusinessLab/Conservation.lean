import AgentLabs.BusinessLab.Environment
import AgentLabs.Math.Run
import Mathlib.Algebra.Ring.Int.Defs

/-!
# Money and stock are conserved

The ledger laws of the service, over any sequence of calls under any fault. What
was refunded on an order is what its payment row has gained, and an order is
refunded at most once because a refund always pays the whole rest. Stock grows by
the quantities of the orders released, as long as it has 64 bits. A cancelled order
is settled: refunded in full and released, and no later call unsettles it.

## Main definitions

* `Fixture.WellFormed`: the fixtures the laws are about
* `Ledger`: the invariant, relative to the initial store
* `Settled`: refunded in full and released
* `StockFits`: the runs that leave a stock within 64 bits
* `Conserved`: the laws, over a run

## Main results

* `Ledger.effect`, `Settled.effect`: one step
* `ledger_runCalls`: a whole run
* `conserved_runCalls`: the laws hold in every reached store
* `not_stockConserved_fullStock`: a stock at the end of the 64 bits is not balanced
-/

namespace AgentLabs.BusinessLab

open Math

/-- The refunds of an order. -/
def refundsOf (db : Database) (oid : String) : List RefundRow :=
  db.refunds.rows.filter fun r => r.orderId = oid

/-- The money refunded on an order. -/
def refundTotal (db : Database) (oid : String) : Int :=
  ((refundsOf db oid).map RefundRow.amountCents).sum

/-- The quantity of a stock-keeping unit in the orders released since `initial`. -/
def releasedDuring (initial db : Database) (sku : String) : Int :=
  ((initial.orders.rows.filter fun o =>
    o.sku = sku ∧ o.id ∈ db.releases ∧ o.id ∉ initial.releases).map OrderRow.quantity).sum

/-- An order is refunded in full and its stock is released. -/
def Settled (db : Database) (oid : String) : Prop :=
  oid ∈ db.releases ∧ ∃ payment, db.payments.find? oid = some payment ∧
    payment.refundedCents = payment.capturedCents

/-- The order exists and has this status. -/
def HasStatus (db : Database) (oid : String) (status : OrderStatus) : Prop :=
  ∃ order, db.orders.find? oid = some order ∧ order.status = status

/-- The ledger laws, relative to the initial store. -/
structure Ledger (initial db : Database) : Prop where
  orders : db.orders.rows.map OrderRow.identity = initial.orders.rows.map OrderRow.identity
  payments : ∀ oid before, initial.payments.find? oid = some before →
    ∃ after, db.payments.find? oid = some after ∧ after.capturedCents = before.capturedCents ∧
      after.refundedCents = before.refundedCents + refundTotal db oid ∧
      (before.refundedCents ≤ before.capturedCents → after.refundedCents ≤ after.capturedCents)
  refundedOnce : ∀ oid, (refundsOf db oid).length ≤ 1
  refundedFully : ∀ r ∈ db.refunds.rows, ∀ payment,
    db.payments.find? r.orderId = some payment → payment.refundedCents = payment.capturedCents
  released : ∀ oid ∈ initial.releases, oid ∈ db.releases
  units : ∀ sku ∈ initial.inventory, sku ∈ db.inventory

/-- The stock of a unit is an integer, and what it was with the quantities released. -/
def Balanced (initial db : Database) (sku : String) (before : InventoryRow) : Prop :=
  ∃ after, db.inventory.find? sku = some after ∧ after.real = false ∧
    after.available = before.available + releasedDuring initial db sku

/-! ### One step -/

section Step

variable {initial db db' : Database} {order : OrderRow} {oid : String}

theorem refundsOf_of_insertRefund? {row : RefundRow} (h : db.insertRefund? row = some db')
    (oid : String) :
    refundsOf db' oid = refundsOf db oid ++ if row.orderId = oid then [row] else [] := by
  obtain ⟨refunds, inserted, rfl⟩ := Database.exists_of_insertRefund? h
  simp only [refundsOf, (Table.insert?_eq_some_iff.mp inserted).2, List.filter_append,
    List.filter_cons, List.filter_nil, decide_eq_true_eq]

/-- An order that is not yet refunded in full has no refund. -/
theorem Ledger.refundsOf_eq_nil (ledger : Ledger initial db) {payment : PaymentRow}
    (found : db.payments.find? oid = some payment)
    (rest : payment.refundedCents ≠ payment.capturedCents) : refundsOf db oid = [] := by
  rw [refundsOf, List.filter_eq_nil_iff]
  intro r hr same
  have same : r.orderId = oid := of_decide_eq_true same
  exact rest (ledger.refundedFully r hr payment (same ▸ found))

/-- A refund keeps the laws: it pays the whole rest of an order without refunds. -/
theorem Ledger.refunded (ledger : Ledger initial db) {key : String} {amount : Int}
    {payment : PaymentRow} (found : db.payments.find? order.id = some payment)
    (rest : amount = payment.capturedCents - payment.refundedCents) (positive : 0 < amount)
    (inserted : db.insertRefund? ⟨key, order.id, amount⟩ = some db') :
    Ledger initial (db'.addRefunded order.id amount) := by
  -- A rest that is positive excludes an earlier refund, which would have been of the whole.
  have none : refundsOf db order.id = [] := ledger.refundsOf_eq_nil found (by omega)
  have refunds := refundsOf_of_insertRefund? inserted
  have total : ∀ oid, refundTotal (db'.addRefunded order.id amount) oid =
      refundTotal db oid + if order.id = oid then amount else 0 := by
    intro oid
    change ((refundsOf db' oid).map RefundRow.amountCents).sum = _
    rw [refunds, refundTotal]
    split_ifs <;> simp
  obtain ⟨table, insertion, rfl⟩ := Database.exists_of_insertRefund? inserted
  refine ⟨ledger.orders, fun oid before hbefore => ?_, fun oid => ?_, fun r hr p hp => ?_,
    ledger.released, ledger.units⟩
  · obtain ⟨after, hafter, captured, refunded, bound⟩ := ledger.payments oid before hbefore
    rw [Database.find?_addRefunded, total]
    by_cases same : oid = order.id
    · subst same
      obtain rfl := Option.some.inj (found.symm.trans hafter)
      refine ⟨{ payment with refundedCents := payment.refundedCents + amount }, ?_, captured,
        ?_, ?_⟩
      · rw [if_pos rfl, found, Option.map_some]
      · rw [if_pos rfl]
        change payment.refundedCents + amount = _
        omega
      · intro _
        change payment.refundedCents + amount ≤ payment.capturedCents
        omega
    · rw [if_neg same, if_neg (Ne.symm same), add_zero]
      exact ⟨after, hafter, captured, refunded, bound⟩
  · change (refundsOf { db with refunds := table } oid).length ≤ 1
    rw [refunds]
    by_cases same : order.id = oid
    · subst same
      simp [none]
    · simpa [same] using ledger.refundedOnce oid
  · rw [Database.find?_addRefunded] at hp
    have member : r ∈ db.refunds.rows ++ [⟨key, order.id, amount⟩] :=
      (Table.insert?_eq_some_iff.mp insertion).2 ▸ hr
    by_cases same : r.orderId = order.id
    · rw [if_pos same, same, found] at hp
      cases hp
      simp only
      omega
    · rw [if_neg same] at hp
      rcases List.mem_append.mp member with old | new
      · exact ledger.refundedFully r old p hp
      · exact absurd (congrArg RefundRow.orderId (List.mem_singleton.mp new)) same

/-- Every order has a row in the initial store, with its unit and quantity. -/
theorem Ledger.exists_first (ledger : Ledger initial db) (known : order ∈ db.orders.rows) :
    ∃ first ∈ initial.orders.rows, first.id = order.id ∧ first.sku = order.sku ∧
      first.quantity = order.quantity := by
  have member : order.identity ∈ db.orders.rows.map OrderRow.identity :=
    List.mem_map.mpr ⟨order, known, rfl⟩
  rw [ledger.orders] at member
  obtain ⟨first, hfirst, same⟩ := List.mem_map.mp member
  simp only [OrderRow.identity, Prod.mk.injEq] at same
  exact ⟨first, hfirst, same.1, same.2.2.2.2.1, same.2.2.2.2.2⟩

/-- A release counts for its own unit, and for no other. -/
theorem Ledger.releasedDuring_insert (ledger : Ledger initial db) {key : String}
    (known : order ∈ db.orders.rows)
    (inserted : db.insertRelease? ⟨order.id, key, order.quantity⟩ = some db') (sku : String) :
    releasedDuring initial db' sku =
      releasedDuring initial db sku + if sku = order.sku then order.quantity else 0 := by
  obtain ⟨fresh, releases⟩ := Database.mem_releases_of_insertRelease? inserted
  -- The order was there at the start, with the same unit and quantity, and not released.
  obtain ⟨first, hfirst, sameId, sameSku, sameQuantity⟩ := ledger.exists_first known
  have unreleased : order.id ∉ initial.releases := fun h => fresh (ledger.released _ h)
  by_cases unit : sku = order.sku
  · rw [if_pos unit, ← sameQuantity]
    refine initial.orders.sum_filter_add OrderRow.quantity hfirst ?_ fun other hother => ?_
    · rintro ⟨-, already, -⟩
      exact fresh (sameId ▸ already)
    · have isFirst : other = first ↔ other.id = order.id :=
        ⟨fun e => e ▸ sameId, fun e => initial.orders.eq_of_key_eq hother hfirst
          (e.trans sameId.symm)⟩
      rw [releases, isFirst]
      constructor
      · rintro ⟨hsku, here | before, after⟩
        exacts [.inr here, .inl ⟨hsku, before, after⟩]
      · rintro (⟨hsku, before, after⟩ | here)
        · exact ⟨hsku, .inr before, after⟩
        · rw [isFirst.mpr here]
          exact ⟨sameSku.trans unit.symm, .inl sameId, sameId ▸ unreleased⟩
  · rw [if_neg unit, add_zero, releasedDuring]
    congr 2
    refine List.filter_congr fun other hother => ?_
    have isOther : other.sku = sku → other.id ≠ order.id := by
      rintro rfl same
      have : other = first :=
        initial.orders.eq_of_key_eq hother hfirst (same.trans sameId.symm)
      exact unit (this ▸ sameSku)
    simp only [releases, decide_eq_decide]
    grind

/-- A release grows the stock by what the released order held, if the sum has 64 bits. -/
theorem Ledger.balanced_stocked (ledger : Ledger initial db) {key sku : String}
    {before : InventoryRow} (known : order ∈ db.orders.rows)
    (inserted : db.insertRelease? ⟨order.id, key, order.quantity⟩ = some db')
    (balanced : Balanced initial db sku before)
    (fits : Fits64 (before.available + releasedDuring initial db' sku)) :
    Balanced initial (db'.addAvailable order.sku order.quantity) sku before := by
  have grown : releasedDuring initial (db'.addAvailable order.sku order.quantity) sku = _ :=
    ledger.releasedDuring_insert known inserted sku
  rw [ledger.releasedDuring_insert known inserted] at fits
  obtain ⟨table, -, rfl⟩ := Database.exists_of_insertRelease? inserted
  obtain ⟨after, hafter, integer, available⟩ := balanced
  rw [Balanced, Database.find?_addAvailable, grown]
  by_cases unit : sku = order.sku
  · rw [if_pos unit, ← add_assoc, ← available] at fits
    refine ⟨after.add order.quantity, ?_, ?_⟩
    · rw [if_pos unit]
      exact congrArg (Option.map _) hafter
    · rw [InventoryRow.add_of_fits integer fits, if_pos unit, ← add_assoc, ← available]
      exact ⟨integer, rfl⟩
  · rw [if_neg unit, if_neg unit, add_zero]
    exact ⟨after, hafter, integer, available⟩

/-- The balance of the stock survives every effect that leaves it within 64 bits. -/
theorem Ledger.balanced_effect (ledger : Ledger initial db)
    (found : db.orders.find? order.id = some order) (effect : Effect db order db') {sku : String}
    {before : InventoryRow} (balanced : Balanced initial db sku before)
    (fits : Fits64 (before.available + releasedDuring initial db' sku)) :
    Balanced initial db' sku before := by
  cases effect with
  | refunded started hp rest positive inserted =>
    obtain ⟨table, -, rfl⟩ := Database.exists_of_insertRefund? inserted
    exact balanced
  | released started hp full inserted =>
    exact ledger.balanced_stocked (Table.mem_of_find?_eq_some found) inserted balanced fits
  | _ => exact balanced

/-- A release keeps the laws. -/
theorem Ledger.stocked (ledger : Ledger initial db) {key : String}
    (inserted : db.insertRelease? ⟨order.id, key, order.quantity⟩ = some db') :
    Ledger initial (db'.addAvailable order.sku order.quantity) := by
  have releases := (Database.mem_releases_of_insertRelease? inserted).2
  obtain ⟨table, insertion, rfl⟩ := Database.exists_of_insertRelease? inserted
  refine ⟨ledger.orders, ledger.payments, ledger.refundedOnce, ledger.refundedFully,
    fun oid h => (releases oid).mpr (.inr (ledger.released oid h)), fun sku h => ?_⟩
  rw [Database.addAvailable, Table.mem_update]
  exact ledger.units sku h

/-- The laws survive every effect. -/
theorem Ledger.effect (ledger : Ledger initial db) (effect : Effect db order db') :
    Ledger initial db' := by
  have restatus : ∀ status, Ledger initial (db.setStatus order.id status) := fun status =>
    { ledger with orders := (Database.identity_setStatus status).trans ledger.orders }
  cases effect with
  | unchanged => exact ledger
  | ticketed reason => exact { ledger with }
  | shipped => exact restatus _
  | begun paid => exact restatus _
  | refunded started hp rest positive inserted => exact ledger.refunded hp rest positive inserted
  | released started hp full inserted => exact ledger.stocked inserted
  | completed started hp full stocked => exact restatus _

/-- A settled order stays settled: there is no rest to refund, and no release is
taken back. -/
theorem Settled.effect (settled : Settled db oid) (effect : Effect db order db') :
    Settled db' oid := by
  obtain ⟨released, payment, found, full⟩ := settled
  cases effect with
  | unchanged => exact ⟨released, payment, found, full⟩
  | ticketed reason => exact ⟨released, payment, found, full⟩
  | shipped => exact ⟨released, payment, found, full⟩
  | begun paid => exact ⟨released, payment, found, full⟩
  | @refunded key amount payment' _ started found' rest positive inserted =>
    obtain ⟨table, -, rfl⟩ := Database.exists_of_insertRefund? inserted
    refine ⟨released, payment, ?_, full⟩
    have other : oid ≠ order.id := by
      rintro rfl
      obtain rfl := Option.some.inj (found.symm.trans found')
      omega
    rw [Database.find?_addRefunded, if_neg other]
    exact found
  | released started found' full' inserted =>
    have releases := (Database.mem_releases_of_insertRelease? inserted).2 oid
    obtain ⟨table, -, rfl⟩ := Database.exists_of_insertRelease? inserted
    exact ⟨releases.mpr (.inr released), payment, found, full⟩
  | completed started found' full' stocked => exact ⟨released, payment, found, full⟩

/-- An order becomes cancelled only when it is settled. -/
theorem settled_of_cancelled (effect : Effect db order db')
    (before : ¬ HasStatus db oid .cancelled) (after : HasStatus db' oid .cancelled) :
    Settled db' oid := by
  -- Only a change of its own status makes an order cancelled.
  have restatus : ∀ {status}, HasStatus (db.setStatus order.id status) oid .cancelled →
      oid = order.id ∧ status = .cancelled := by
    rintro status ⟨o, found, cancelled⟩
    rw [Database.find?_setStatus] at found
    split_ifs at found with same
    · obtain ⟨old, -, rfl⟩ := Option.map_eq_some_iff.mp found
      exact ⟨same, cancelled⟩
    · exact absurd ⟨o, found, cancelled⟩ before
  cases effect with
  | unchanged => exact absurd after before
  | ticketed reason => exact absurd after before
  | shipped => exact absurd (restatus after).2 (by decide)
  | begun paid => exact absurd (restatus after).2 (by decide)
  | refunded started found rest positive inserted =>
    obtain ⟨table, -, rfl⟩ := Database.exists_of_insertRefund? inserted
    exact absurd after before
  | released started found full inserted =>
    obtain ⟨table, -, rfl⟩ := Database.exists_of_insertRelease? inserted
    exact absurd after before
  | completed started found full stocked =>
    obtain ⟨rfl, -⟩ := restatus after
    exact ⟨stocked, _, found, full⟩

end Step

/-! ### Whole runs -/

section Run

variable {initial : Database} {env : Environment}

theorem Ledger.call (ledger : Ledger initial env.db) (c : Call) :
    Ledger initial (env.call c).2.db := by
  rcases env.effect_call c with same | ⟨order, -, -, effect⟩
  · rwa [same]
  · exact ledger.effect effect

theorem Settled.call {oid : String} (settled : Settled env.db oid) (c : Call) :
    Settled (env.call c).2.db oid := by
  rcases env.effect_call c with same | ⟨order, -, -, effect⟩
  · rwa [same]
  · exact settled.effect effect

/-- The laws hold after every sequence of calls. -/
theorem ledger_runCalls (start : Ledger initial env.db) (calls : List Call) :
    Ledger initial (env.runCalls calls).db := by
  have keeps : ∀ (env : Environment) (c : Call), Ledger initial env.db →
      Ledger initial (env.call c).2.db := fun _ c ledger => ledger.call c
  exact foldl_invariant keeps calls start

/-- The stock of a unit and what the run has released of it have stayed within 64 bits. -/
def StockFits (env : Environment) (calls : List Call) (sku : String) (before : InventoryRow) :
    Prop :=
  ∀ earlier, earlier <+: calls →
    Fits64 (before.available + releasedDuring env.db (env.runCalls earlier).db sku)

/-- The stock is balanced after every run that leaves it within 64 bits all the time. -/
theorem balanced_runCalls (start : Ledger env.db env.db) {sku : String} {before : InventoryRow}
    (initially : Balanced env.db env.db sku before) (calls : List Call)
    (fits : StockFits env calls sku before) :
    Balanced env.db (env.runCalls calls).db sku before := by
  induction calls using List.reverseRecOn with
  | nil => exact initially
  | append_singleton calls c ih =>
    have balanced := ih fun earlier inside => fits earlier (inside.trans (List.prefix_append _ _))
    have ledger := ledger_runCalls start calls
    have last := fits _ (List.prefix_refl _)
    have next : env.runCalls (calls ++ [c]) = ((env.runCalls calls).call c).2 := by
      simp [Environment.runCalls]
    rw [next] at last ⊢
    rcases (env.runCalls calls).effect_call c with same | ⟨order, found, -, effect⟩
    · rwa [same]
    · exact ledger.balanced_effect found effect balanced last

/-- An order that a call of the run has cancelled is settled at the end. -/
theorem settled_runCalls {before after : List Call} {c : Call} {oid : String}
    (open' : ¬ HasStatus (env.runCalls before).db oid .cancelled)
    (cancelled : HasStatus (env.runCalls (before ++ [c])).db oid .cancelled) :
    Settled (env.runCalls (before ++ c :: after)).db oid := by
  have one : env.runCalls (before ++ [c]) = ((env.runCalls before).call c).2 := by
    simp [Environment.runCalls]
  have whole : env.runCalls (before ++ c :: after) =
      (((env.runCalls before).call c).2).runCalls after := by
    simp [Environment.runCalls]
  rw [one] at cancelled
  rw [whole]
  have keeps : ∀ (env : Environment) (c : Call), Settled env.db oid →
      Settled (env.call c).2.db oid := fun _ c settled => settled.call c
  refine foldl_invariant keeps after ?_
  rcases (env.runCalls before).effect_call c with same | ⟨order, -, -, effect⟩
  · exact absurd (same ▸ cancelled) open'
  · exact settled_of_cancelled effect open' cancelled

end Run

/-! ### Fixtures -/

/-- A fixture with unique keys, a payment row for every order with a balance in
range, and every order's unit in the inventory. -/
structure Fixture.WellFormed (fixture : Fixture) : Prop where
  orders : (fixture.orders.map OrderRow.id).Nodup
  payments : (fixture.payments.map PaymentRow.orderId).Nodup
  paid : ∀ o ∈ fixture.orders, o.id ∈ fixture.payments.map PaymentRow.orderId
  balanced : ∀ p ∈ fixture.payments, p.orderId ∈ fixture.orders.map OrderRow.id →
    0 ≤ p.refundedCents ∧ p.refundedCents ≤ p.capturedCents
  units : fixture.inventory.keys.Nodup
  stocked : ∀ o ∈ fixture.orders, o.sku ∈ fixture.inventory.keys
  releases : (fixture.releases.map ReleaseRow.orderId).Nodup
  releaseKeys : (fixture.releases.map ReleaseRow.operationKey).Nodup

/-- Releases with fresh orders and fresh keys are inserted, and nothing else
changes. -/
theorem exists_foldlM_insertRelease? (rows : List ReleaseRow) (db : Database)
    (orders : ((db.releases.rows ++ rows).map ReleaseRow.orderId).Nodup)
    (keys : ((db.releases.rows ++ rows).map ReleaseRow.operationKey).Nodup) :
    ∃ releases, rows.foldlM Database.insertRelease? db = some { db with releases } := by
  induction rows generalizing db with
  | nil => exact ⟨db.releases, rfl⟩
  | cons row rest ih =>
    have freshOrder : row.orderId ∉ db.releases := by
      rw [List.map_append, List.nodup_append] at orders
      exact fun member => orders.2.2 _ member _ (by simp) rfl
    have freshKey : row.operationKey ∉ db.releases.rows.map ReleaseRow.operationKey := by
      rw [List.map_append, List.nodup_append] at keys
      exact fun member => keys.2.2 _ member _ (by simp) rfl
    obtain ⟨next, inserted⟩ : ∃ next, db.releases.insert? row = some next := by
      rw [← Option.ne_none_iff_exists']
      exact fun absent => freshOrder (Table.insert?_eq_none_iff.mp absent)
    have rows := (Table.insert?_eq_some_iff.mp inserted).2
    obtain ⟨releases, more⟩ := ih { db with releases := next }
      (by simpa [rows] using orders) (by simpa [rows] using keys)
    refine ⟨releases, ?_⟩
    rw [List.foldlM_cons, Database.insertRelease?, if_neg freshKey, inserted]
    exact more

/-- The rows of the units of a fixture. -/
def Fixture.units (fixture : Fixture) : List InventoryRow :=
  fixture.inventory.map fun entry => { sku := entry.1, available := entry.2 }

/-- A well-formed fixture is loaded if its integers have 64 bits, with the rows it lists. -/
theorem Fixture.WellFormed.exists_load {fixture : Fixture} (wf : fixture.WellFormed)
    (fits : fixture.Fits) :
    ∃ db, Database.load fixture = some db ∧ db.orders.rows = fixture.orders ∧
      db.payments.rows = fixture.payments ∧ db.inventory.rows = fixture.units ∧
      db.refunds.rows = [] := by
  have unitRows : fixture.units.map InventoryRow.sku = fixture.inventory.keys := by
    simp [Fixture.units, Dict.keys]
  obtain ⟨orders, loadOrders, orderRows⟩ := Table.exists_insertAll?_empty wf.orders
  obtain ⟨payments, loadPayments, paymentRows⟩ := Table.exists_insertAll?_empty wf.payments
  obtain ⟨inventory, loadInventory, inventoryRows⟩ :=
    Table.exists_insertAll?_empty (unitRows ▸ wf.units)
  obtain ⟨releases, loadReleases⟩ := exists_foldlM_insertRelease? fixture.releases
    ⟨orders, payments, inventory, .empty, .empty, .empty⟩
    (by simpa using wf.releases) (by simpa using wf.releaseKeys)
  refine ⟨⟨orders, payments, inventory, .empty, releases, .empty⟩, ?_, orderRows, paymentRows,
    inventoryRows, rfl⟩
  have units : Table.empty.insertAll? (fixture.inventory.map fun entry =>
      { sku := entry.1, available := entry.2 }) = some inventory := loadInventory
  simp only [Database.load, guard, if_pos fits, loadOrders, loadPayments, units,
    Option.bind_eq_bind, Option.bind_some, Option.pure_def]
  exact loadReleases

/-- Only integers of 64 bits are loaded. -/
theorem Fixture.fits_of_load {fixture : Fixture} {db : Database}
    (loaded : Database.load fixture = some db) : fixture.Fits := by
  by_contra large
  simp [Database.load, guard, large] at loaded

/-- The laws hold at the start. -/
theorem Ledger.start {db : Database} (noRefunds : db.refunds.rows = []) : Ledger db db := by
  have none : ∀ oid, refundsOf db oid = [] := fun oid => by simp [refundsOf, noRefunds]
  refine ⟨rfl, fun oid before found => ⟨before, found, rfl, ?_, id⟩, fun oid => ?_, fun r hr => ?_,
    fun _ h => h, fun _ h => h⟩
  · simp [refundTotal, none]
  · simp [none]
  · simp [noRefunds] at hr

/-- The conservation laws, after a sequence of calls. -/
structure Conserved (env : Environment) (calls : List Call) : Prop where
  orders : (env.runCalls calls).db.orders.rows.map OrderRow.identity =
    env.db.orders.rows.map OrderRow.identity
  money : ∀ order ∈ (env.runCalls calls).db.orders.rows, ∃ before after,
    env.db.payments.find? order.id = some before ∧
      (env.runCalls calls).db.payments.find? order.id = some after ∧
      after.refundedCents = before.refundedCents + refundTotal (env.runCalls calls).db order.id ∧
      after.refundedCents ≤ after.capturedCents
  refundedOnce : ∀ oid, (refundsOf (env.runCalls calls).db oid).length ≤ 1
  releasedOnce : ∀ oid, ((env.runCalls calls).db.releases.rows.filter fun r =>
    r.orderId = oid).length ≤ 1
  units : ∀ order ∈ (env.runCalls calls).db.orders.rows, order.sku ∈ env.db.inventory
  stock : ∀ sku ∈ env.db.inventory, ∃ before after,
    env.db.inventory.find? sku = some before ∧
      (env.runCalls calls).db.inventory.find? sku = some after ∧
      (StockFits env calls sku before → after.available =
        before.available + releasedDuring env.db (env.runCalls calls).db sku)
  settled : ∀ before c after oid, calls = before ++ c :: after →
    ¬ HasStatus (env.runCalls before).db oid .cancelled →
    HasStatus (env.runCalls (before ++ [c])).db oid .cancelled →
    Settled (env.runCalls calls).db oid

/-- **Conservation.** An environment with a well-formed fixture keeps the laws over
every sequence of calls, whatever the fault. -/
theorem conserved_runCalls {fixture : Fixture} (wf : fixture.WellFormed) (fits : fixture.Fits) :
    ∃ env, Environment.ofFixture fixture = some env ∧ ∀ calls, Conserved env calls := by
  obtain ⟨db, loaded, orderRows, paymentRows, unitRows, noRefunds⟩ := wf.exists_load fits
  refine ⟨_, by rw [Environment.ofFixture, loaded, Option.map_some], fun calls => ?_⟩
  have start : Ledger db db := .start noRefunds
  set env : Environment :=
    { actorId := fixture.actorId, subjectId := fixture.subjectId, fault := fixture.fault, db }
  have ledger : Ledger db (env.runCalls calls).db := ledger_runCalls start calls
  have unitKeys : db.inventory.keys = fixture.inventory.keys := by
    rw [Table.keys, unitRows]
    simp [Fixture.units, Dict.keys]
  -- The orders of the reached store are those of the fixture.
  have known : ∀ order ∈ (env.runCalls calls).db.orders.rows, ∃ first ∈ fixture.orders,
      first.id = order.id ∧ first.sku = order.sku := by
    intro order member
    obtain ⟨first, hfirst, sameId, sameSku, -⟩ := ledger.exists_first member
    exact ⟨first, orderRows ▸ hfirst, sameId, sameSku⟩
  refine ⟨ledger.orders, fun order member => ?_, ledger.refundedOnce,
    fun oid => Table.length_filter_key_le_one _ oid, fun order member =>
    ?_, fun sku member => ?_, ?_⟩
  · obtain ⟨first, hfirst, sameId, -⟩ := known order member
    have hasPayment : order.id ∈ db.payments := by
      have listed := wf.paid first hfirst
      rwa [sameId, ← paymentRows] at listed
    obtain ⟨before, hbefore⟩ := Table.exists_find?_of_mem hasPayment
    obtain ⟨after, hafter, -, refunded, bound⟩ := ledger.payments order.id before hbefore
    obtain ⟨hrow, hkey⟩ := Table.find?_eq_some_iff.mp hbefore
    have balanced := wf.balanced before (paymentRows ▸ hrow)
      (List.mem_map.mpr ⟨first, hfirst, sameId.trans hkey.symm⟩)
    exact ⟨before, after, hbefore, hafter, refunded, bound balanced.2⟩
  · obtain ⟨first, hfirst, -, sameSku⟩ := known order member
    have listed := wf.stocked first hfirst
    rwa [sameSku, ← unitKeys] at listed
  · obtain ⟨before, hbefore⟩ := Table.exists_find?_of_mem member
    obtain ⟨after, hafter⟩ := Table.exists_find?_of_mem (ledger.units sku member)
    refine ⟨before, after, hbefore, hafter, fun bounded => ?_⟩
    have integer : before.real = false := by
      have row := Table.mem_of_find?_eq_some hbefore
      rw [unitRows] at row
      obtain ⟨entry, -, rfl⟩ := List.mem_map.mp row
      rfl
    have initially : Balanced db db sku before :=
      ⟨before, hbefore, integer, by simp [releasedDuring]⟩
    have balanced : Balanced env.db (env.runCalls calls).db sku before :=
      balanced_runCalls start initially calls bounded
    obtain ⟨last, found, -, available⟩ := balanced
    obtain rfl := Option.some.inj (hafter.symm.trans found)
    exact available
  · rintro before c after oid rfl open' cancelled
    exact settled_runCalls open' cancelled

/-- Two customers with one paid order each. -/
def twoOrders : Fixture where
  actorId := "customer-a"
  subjectId := "order-a"
  orders := [⟨"order-a", "customer-a", .paid, 12500, "USD", "sku-a", 2, 1⟩,
    ⟨"order-b", "customer-b", .paid, 7800, "USD", "sku-b", 1, 3⟩]
  payments := [⟨"order-a", 12500, 0⟩, ⟨"order-b", 7800, 0⟩]
  inventory := [("sku-a", 10), ("sku-b", 5)]

theorem conserved_runCalls_twoOrders :
    ∃ env, Environment.ofFixture twoOrders = some env ∧ ∀ calls, Conserved env calls :=
  conserved_runCalls ⟨by decide, by decide, by decide, by decide, by decide, by decide, by decide,
    by decide⟩ (by decide)

/-- Every stock is what it was with the quantities released, whatever they come to. -/
def StockConserved (env : Environment) (calls : List Call) : Prop :=
  ∀ sku ∈ env.db.inventory, ∃ before after,
    env.db.inventory.find? sku = some before ∧
      (env.runCalls calls).db.inventory.find? sku = some after ∧
      after.available = before.available + releasedDuring env.db (env.runCalls calls).db sku

/-- One order of two pieces, of a unit whose stock is the largest integer of the store. -/
def fullStock : Fixture where
  actorId := "customer-a"
  subjectId := "order-a"
  orders := [⟨"order-a", "customer-a", .cancelling, 12500, "USD", "sku-a", 2, 1⟩]
  payments := [⟨"order-a", 12500, 12500⟩]
  inventory := [("sku-a", 2 ^ 63 - 1)]

/-- Release the stock of `order-a`. -/
def releaseAll : Call where
  stamp := ⟨"e1", 0, 1, none, none⟩
  tool := "release_stock"
  args := [("order_id", .str "order-a"), ("idempotency_key", .str "stock:order-a")]

/-- The stock has become the double `2^63` after the release of two pieces, not `2^63 + 1`. -/
theorem not_stockConserved_fullStock : fullStock.WellFormed ∧ fullStock.Fits ∧
    ∃ env, Environment.ofFixture fullStock = some env ∧ ¬ StockConserved env [releaseAll] := by
  refine ⟨⟨by decide, by decide, by decide, by decide, by decide, by decide, by decide,
    by decide⟩, by decide, _, rfl, fun conserved => ?_⟩
  obtain ⟨before, after, first, last, sum⟩ := conserved "sku-a" (by decide)
  cases first
  cases last
  revert sum
  decide +kernel

end AgentLabs.BusinessLab
