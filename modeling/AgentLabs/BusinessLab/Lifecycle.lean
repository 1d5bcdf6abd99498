import AgentLabs.BusinessLab.Answers
import AgentLabs.BusinessLab.Conservation

/-!
# The lifecycle of an order

An order is paid, then cancelling, then cancelled, or it is shipped from outside;
its version counts the changes. Two of the three places that change a status are
guarded by it. The third is the injected shipment: it comes before the comparison
of versions and whatever the status is. And a version that has become the double `2^63`
counts no more changes. The lifecycle is kept by a run exactly if the shipment, should it
happen, finds the order paid, and no cancellation is completed at such a version.

## Main definitions

* `StatusEdge`, `LawfulCall`: what one call may do to the orders
* `LifecycleLaw`: the law over a run
* `Environment.Ships`, `Environment.Completes`: the injected shipment, and the completion
* `MovesWell`: the condition on the orders that they find

## Main results

* `orders_call_cases`: what a call does to the orders
* `lifecycleLaw_iff`: the law holds exactly if both find the order as they should
* `not_lifecycleLaw_cancelled`: a cancelled order is shipped
-/

namespace AgentLabs.BusinessLab

open Math Text

/-- The status changes of the policy. -/
inductive StatusEdge : OrderStatus → OrderStatus → Prop
  | begin : StatusEdge .paid .cancelling
  | complete : StatusEdge .cancelling .cancelled
  | ship : StatusEdge .paid .shipped

/-- An order keeps status and version, or moves along an edge to the next version. -/
def OrderRow.Advances (o o' : OrderRow) : Prop :=
  (o'.status = o.status ∧ o'.version = o.version) ∨
    (StatusEdge o.status o'.status ∧ o'.version = o.version + 1)

/-- The stored status of an order. -/
def statusOf (db : Database) (oid : String) : Option OrderStatus :=
  (db.orders.find? oid).map OrderRow.status

/-- What a call may do to the orders. -/
structure LawfulCall (db db' : Database) : Prop where
  known : ∀ oid, oid ∈ db'.orders ↔ oid ∈ db.orders
  advances : ∀ oid o o', db.orders.find? oid = some o → db'.orders.find? oid = some o' →
    o.Advances o'
  one : ∀ oid oid', statusOf db' oid ≠ statusOf db oid → statusOf db' oid' ≠ statusOf db oid' →
    oid = oid'

/-- The order was refunded and its stock released after `first`. -/
def SettledSince (first db : Database) (oid : String) : Prop :=
  (∃ r ∈ db.refunds.rows, r.orderId = oid ∧ r ∉ first.refunds.rows) ∧
    oid ∈ db.releases ∧ oid ∉ first.releases

/-- The environment after the first `n` calls of a run. -/
def Environment.runAt (env : Environment) (calls : List Call) (n : ℕ) : Environment :=
  stateAt (fun env c => (env.call c).2) env calls n

/-- The lifecycle law over a run: every call is lawful, no order leaves a terminal
status, and an order settled in this run is never shipped. -/
structure LifecycleLaw (env : Environment) (calls : List Call) : Prop where
  lawful : ∀ n c, calls[n]? = some c →
    LawfulCall (env.runAt calls n).db ((env.runAt calls n).call c).2.db
  terminal : ∀ m n, m ≤ n → ∀ oid, ∀ status ∈ [OrderStatus.cancelled, .shipped],
    HasStatus (env.runAt calls m).db oid status → HasStatus (env.runAt calls n).db oid status
  settled : ∀ m n, m ≤ n → ∀ oid, SettledSince env.db (env.runAt calls m).db oid →
    ¬ HasStatus (env.runAt calls n).db oid .shipped

/-- The call makes the injected shipment of an order. -/
structure Environment.Ships (env : Environment) (c : Call) (order : OrderRow) : Prop where
  budget : env.events.length < maxToolCalls
  reaches : env.Reaches c.tool c.args .beginCancellation order
  version : (Environment.intArg? c.args "expected_version").isSome
  armed : env.Armed

/-- The call completes the cancellation of an order. -/
structure Environment.Completes (env : Environment) (c : Call) (order : OrderRow) : Prop where
  budget : env.events.length < maxToolCalls
  reaches : env.Reaches c.tool c.args .completeCancellation order
  started : order.status = .cancelling
  refunded : env.refundComplete order.id
  released : order.id ∈ env.db.releases

/-- Every shipment of the run finds a paid order with a version of 64 bits, or one that it leaves
as it is, and every completion finds such a version. -/
structure MovesWell (env : Environment) (calls : List Call) : Prop where
  ships : ∀ n c order, calls[n]? = some c → (env.runAt calls n).Ships c order →
    order.status = .paid ∧ order.version < 2 ^ 63 ∨
      order.status = .shipped ∧ 2 ^ 63 ≤ order.version
  completes : ∀ n c order, calls[n]? = some c → (env.runAt calls n).Completes c order →
    order.version < 2 ^ 63

/-! ### What a call does to the orders -/

section Call

variable {env env' : Environment} {order : OrderRow} {args : Fields} {tool : Tool} {result : Json}

/-- What a call does to the orders: nothing, the shipment, or one of the guarded changes. -/
inductive OrderChange (env : Environment) (c : Call) : Table OrderRow.id → Prop
  | kept : OrderChange env c env.db.orders
  | shipped (order : OrderRow) (ships : env.Ships c order) :
      OrderChange env c (env.db.setStatus order.id .shipped).orders
  | begun (order : OrderRow) (found : env.db.orders.find? order.id = some order)
      (paid : order.status = .paid) (fits : Fits64 order.version) :
      OrderChange env c (env.db.setStatus order.id .cancelling).orders
  | completed (order : OrderRow) (completes : env.Completes c order) :
      OrderChange env c (env.db.setStatus order.id .cancelled).orders

/-- What a path through a tool does to the orders. -/
theorem Answer.orders (answer : Answer env order args tool result env') :
    env'.db.orders = env.db.orders ∨
      tool = .beginCancellation ∧ (Environment.intArg? args "expected_version").isSome ∧ env.Armed ∧
        env'.db.orders = (env.db.setStatus order.id .shipped).orders ∨
      (order.status = .paid ∧ Fits64 order.version) ∧
        env'.db.orders = (env.db.setStatus order.id .cancelling).orders ∨
      (tool = .completeCancellation ∧ order.status = .cancelling ∧
        env.refundComplete order.id ∧ order.id ∈ env.db.releases) ∧
        env'.db.orders = (env.db.setStatus order.id .cancelled).orders := by
  -- Four paths write to the orders, two of them by the fault.
  cases answer
  case shippedConflict version armed _ => exact .inr (.inl ⟨rfl, by simp [version], armed, rfl⟩)
  case shippedDenied version armed _ => exact .inr (.inl ⟨rfl, by simp [version], armed, rfl⟩)
  case begun paid fits => exact .inr (.inr (.inl ⟨⟨paid, fits⟩, rfl⟩))
  case completed payment started found full stocked =>
    have refunded : env.refundComplete order.id := by
      rw [Environment.refundComplete, found]
      exact decide_eq_true full
    exact .inr (.inr (.inr ⟨⟨rfl, started, refunded, stocked⟩, rfl⟩))
  case refundedUnseen inserted =>
    obtain ⟨refunds, -, rfl⟩ := Database.exists_of_insertRefund? inserted
    exact .inl rfl
  case refunded inserted =>
    obtain ⟨refunds, -, rfl⟩ := Database.exists_of_insertRefund? inserted
    exact .inl rfl
  case released inserted =>
    obtain ⟨releases, -, rfl⟩ := Database.exists_of_insertRelease? inserted
    exact .inl rfl
  all_goals exact .inl rfl

/-- **What a call does to the orders.** -/
theorem orders_call_cases (env : Environment) (c : Call) :
    OrderChange env c (env.call c).2.db.orders := by
  rcases env.call_cases c with ⟨-, spent⟩ | ⟨budget, reply, env', -, path, called⟩
  · rw [spent]
    exact .kept
  rw [called]
  change OrderChange env c env'.db.orders
  cases path with
  | unreached => exact .kept
  | raised => exact .kept
  | answered reaches answer =>
    rcases answer.orders with same | ⟨rfl, version, armed, same⟩ | ⟨⟨paid, fits⟩, same⟩ |
      ⟨⟨rfl, started, refunded, stocked⟩, same⟩
    · rw [same]
      exact .kept
    · rw [same]
      exact .shipped _ ⟨budget, reaches, version, armed⟩
    · rw [same]
      exact .begun _ reaches.found paid fits
    · rw [same]
      exact .completed _ ⟨budget, reaches, started, refunded, stocked⟩

/-- The injected shipment happens whatever the status. -/
theorem orders_of_ships {c : Call} (ships : env.Ships c order) :
    (env.call c).2.db.orders = (env.db.setStatus order.id .shipped).orders := by
  rcases env.call_cases c with ⟨spent, -⟩ | ⟨budget, reply, env', -, path, called⟩
  · exact absurd ships.budget (Nat.not_lt.mpr spent)
  rw [called]
  change env'.db.orders = _
  obtain ⟨expected, version⟩ := Option.isSome_iff_exists.mp ships.version
  cases path with
  | unreached unreached => exact absurd unreached ships.reaches.not_unreached
  | raised reaches raises =>
    obtain ⟨rfl, rfl⟩ := reaches.unique ships.reaches
    cases raises with
    | begin _ quiet => exact absurd ships.armed quiet
  | answered reaches answer =>
    obtain ⟨rfl, rfl⟩ := reaches.unique ships.reaches
    -- With the fault armed only the two answers after a shipment are left.
    cases answer with
    | versionInvalid noVersion => simp [version] at noVersion
    | shippedConflict => rfl
    | shippedDenied => rfl
    | beginConflict _ quiet => exact absurd ships.armed quiet
    | begunBefore _ quiet => exact absurd ships.armed quiet
    | beginDenied _ quiet => exact absurd ships.armed quiet
    | begun _ quiet => exact absurd ships.armed quiet

/-- What a completion does to the orders. -/
theorem orders_of_completes {c : Call} (completes : env.Completes c order) :
    (env.call c).2.db.orders = (env.db.setStatus order.id .cancelled).orders := by
  rcases env.call_cases c with ⟨spent, -⟩ | ⟨budget, reply, env', -, path, called⟩
  · exact absurd completes.budget (Nat.not_lt.mpr spent)
  rw [called]
  change env'.db.orders = _
  have started := completes.started
  cases path with
  | unreached unreached => exact absurd unreached completes.reaches.not_unreached
  | raised reaches raises =>
    obtain ⟨rfl, rfl⟩ := reaches.unique completes.reaches
    cases raises
  | answered reaches answer =>
    obtain ⟨rfl, rfl⟩ := reaches.unique completes.reaches
    cases answer with
    | completedBefore already => simp [started] at already
    | completeDenied _ incomplete =>
      simp [started, completes.refunded, completes.released] at incomplete
    | completed => rfl

end Call

/-! ### Lawful changes -/

section Lawful

variable {db db' : Database} {order : OrderRow} {oid : String} {status : OrderStatus}

theorem lawful_kept (same : db'.orders = db.orders) : LawfulCall db db' := by
  refine ⟨fun oid => by rw [same], fun oid o o' found found' => ?_, fun oid oid' changed => ?_⟩
  · rw [same, found] at found'
    obtain rfl := Option.some.inj found'
    exact .inl ⟨rfl, rfl⟩
  · exact absurd (by rw [statusOf, statusOf, same]) changed

/-- A change of status along an edge is lawful. -/
theorem lawful_setStatus (found : db.orders.find? order.id = some order)
    (edge : StatusEdge order.status status) (fits : order.version < 2 ^ 63)
    (changed : db'.orders = (db.setStatus order.id status).orders) : LawfulCall db db' := by
  have read : ∀ oid, db'.orders.find? oid = if oid = order.id then
      (db.orders.find? oid).map fun o => { o with status, version := nextVersion o.version }
      else db.orders.find? oid := fun oid => by rw [changed, Database.find?_setStatus]
  -- One row is written, so no two orders change at once.
  have only : ∀ oid, statusOf db' oid ≠ statusOf db oid → oid = order.id := by
    intro oid differs
    by_contra other
    exact differs (by rw [statusOf, statusOf, read, if_neg other])
  refine ⟨fun oid => ?_, fun oid o o' before after => ?_, fun oid oid' one other => ?_⟩
  · rw [changed, Database.setStatus]
    simp only [Table.mem_update]
  · rw [read] at after
    by_cases here : oid = order.id
    · subst here
      rw [if_pos rfl, found, Option.map_some] at after
      obtain rfl := Option.some.inj (found.symm.trans before)
      obtain rfl := Option.some.inj after
      exact .inr ⟨edge, if_pos fits⟩
    · rw [if_neg here, before] at after
      obtain rfl := Option.some.inj after
      exact .inl ⟨rfl, rfl⟩
  · rw [only oid one, only oid' other]

/-- A lawful change of a status follows an edge and finds a version of 64 bits, or it changes
nothing. -/
theorem edge_of_lawful_setStatus (found : db.orders.find? order.id = some order)
    (changed : db'.orders = (db.setStatus order.id status).orders) (lawful : LawfulCall db db') :
    StatusEdge order.status status ∧ order.version < 2 ^ 63 ∨
      order.status = status ∧ 2 ^ 63 ≤ order.version := by
  have after : db'.orders.find? order.id =
      some { order with status, version := nextVersion order.version } := by
    rw [changed, Database.find?_setStatus, if_pos rfl, found, Option.map_some]
  rcases lawful.advances _ _ _ found after with ⟨same, version⟩ | ⟨edge, version⟩
  · refine .inr ⟨same.symm, ?_⟩
    simp only [nextVersion] at version
    split_ifs at version <;> omega
  · refine .inl ⟨edge, ?_⟩
    simp only [nextVersion] at version
    split_ifs at version <;> omega

/-- A change of status to the one there is, at a version that is none of 64 bits, changes
nothing. -/
theorem orders_setStatus_of_same (found : db.orders.find? order.id = some order)
    (same : order.status = status) (large : 2 ^ 63 ≤ order.version) :
    (db.setStatus order.id status).orders = db.orders := by
  let moved (row : OrderRow) : OrderRow := { row with status, version := nextVersion row.version }
  have kept : ∀ row ∈ db.orders.rows, row.id = order.id → moved row = row := by
    intro row member own
    change { row with status, version := nextVersion row.version } = row
    rw [db.orders.eq_of_key_eq member (Table.mem_of_find?_eq_some found) own, nextVersion,
      if_neg (not_lt.mpr large), ← same]
  have keeps : ∀ row, (moved row).id = row.id := fun _ => rfl
  exact Table.update_eq_self keeps kept

/-- A status after a lawful call is the one before, or one edge further. -/
theorem LawfulCall.hasStatus (lawful : LawfulCall db db') (before : HasStatus db oid status) :
    ∃ status', HasStatus db' oid status' ∧ (status' = status ∨ StatusEdge status status') := by
  obtain ⟨o, found, rfl⟩ := before
  have known : oid ∈ db'.orders := (lawful.known oid).mpr
    (Table.mem_iff.mpr ⟨o, Table.mem_of_find?_eq_some found, Table.key_of_find?_eq_some found⟩)
  obtain ⟨o', found'⟩ := Table.exists_find?_of_mem known
  refine ⟨o'.status, ⟨o', found', rfl⟩, ?_⟩
  exact (lawful.advances _ _ _ found found').imp And.left And.left

theorem HasStatus.unique {status' : OrderStatus} (one : HasStatus db oid status)
    (other : HasStatus db oid status') : status = status' := by
  obtain ⟨o, found, rfl⟩ := one
  obtain ⟨o', found', rfl⟩ := other
  rw [Option.some.inj (found.symm.trans found')]

/-- Cancelled and shipped orders stay what they are. -/
theorem LawfulCall.terminal (lawful : LawfulCall db db')
    (final : status ∈ [OrderStatus.cancelled, .shipped]) (before : HasStatus db oid status) :
    HasStatus db' oid status := by
  obtain ⟨status', after, rfl | edge⟩ := lawful.hasStatus before
  · exact after
  · cases edge <;> simp at final

/-- The cancellation of an order is under way or done. -/
def Underway (db : Database) (oid : String) : Prop :=
  HasStatus db oid .cancelling ∨ HasStatus db oid .cancelled

theorem LawfulCall.underway (lawful : LawfulCall db db') (before : Underway db oid) :
    Underway db' oid := by
  rcases before with cancelling | cancelled
  · obtain ⟨status', after, rfl | edge⟩ := lawful.hasStatus cancelling
    · exact .inl after
    · cases edge
      exact .inr after
  · exact .inr (lawful.terminal (.head _) cancelled)

end Lawful

/-! ### Runs -/

section Run

variable {env : Environment} {calls : List Call}

/-- A call is lawful if it finds the order as it should. -/
theorem lawful_call {c : Call}
    (ships : ∀ order, env.Ships c order → order.status = .paid ∧ order.version < 2 ^ 63 ∨
      order.status = .shipped ∧ 2 ^ 63 ≤ order.version)
    (completes : ∀ order, env.Completes c order → order.version < 2 ^ 63) :
    LawfulCall env.db (env.call c).2.db := by
  have change := orders_call_cases env c
  generalize shape : (env.call c).2.db.orders = orders at change
  cases change with
  | kept => exact lawful_kept shape
  | shipped order shipping =>
    rcases ships order shipping with ⟨paid, fits⟩ | ⟨same, large⟩
    · exact lawful_setStatus shipping.reaches.found (paid ▸ .ship) fits shape
    · exact lawful_kept (shape.trans (orders_setStatus_of_same shipping.reaches.found same large))
  | begun order found paid fits =>
    exact lawful_setStatus found (paid ▸ .begin) fits.2 shape
  | completed order completing =>
    exact lawful_setStatus completing.reaches.found (completing.started ▸ .complete)
      (completes order completing) shape

/-- A call refunds only an order whose cancellation is under way. -/
theorem refunds_call (env : Environment) (c : Call) {r : RefundRow}
    (refunded : r ∈ (env.call c).2.db.refunds.rows) :
    r ∈ env.db.refunds.rows ∨ HasStatus env.db r.orderId .cancelling := by
  rcases env.effect_call c with same | ⟨order, found, -, effect⟩
  · exact .inl (same ▸ refunded)
  generalize (env.call c).2.db = db' at effect refunded
  cases effect with
  | refunded started _ _ _ inserted =>
    obtain ⟨refunds, insertion, rfl⟩ := Database.exists_of_insertRefund? inserted
    have member : r ∈ env.db.refunds.rows ++ [_] :=
      (Table.insert?_eq_some_iff.mp insertion).2 ▸ refunded
    rcases List.mem_append.mp member with old | new
    · exact .inl old
    · rw [List.mem_singleton.mp new]
      exact .inr ⟨order, found, started⟩
  | released _ _ _ inserted =>
    obtain ⟨releases, -, rfl⟩ := Database.exists_of_insertRelease? inserted
    exact .inl refunded
  | _ => exact .inl refunded

/-- What was refunded in a lawful run is under way or cancelled. -/
theorem underway_of_refunded
    (lawful : ∀ n c, calls[n]? = some c →
      LawfulCall (env.runAt calls n).db ((env.runAt calls n).call c).2.db)
    (n : ℕ) {r : RefundRow} (refunded : r ∈ (env.runAt calls n).db.refunds.rows)
    (new : r ∉ env.db.refunds.rows) : Underway (env.runAt calls n).db r.orderId := by
  let Kept (now : Environment) : Prop :=
    ∀ r ∈ now.db.refunds.rows, r ∉ env.db.refunds.rows → Underway now.db r.orderId
  have keeps : ∀ n c, calls[n]? = some c → Kept (env.runAt calls n) →
      Kept ((env.runAt calls n).call c).2 := by
    intro n c here kept r refunded new
    have step := lawful n c here
    rcases refunds_call _ c refunded with old | started
    · exact step.underway (kept r old new)
    · exact step.underway (.inl started)
  have start : Kept (env.runAt calls 0) := fun r old new => absurd old new
  exact stateAt_kept keeps (Nat.zero_le n) start r refunded new

/-- **The lifecycle is kept exactly by the runs whose shipment and completions find the order as
they should.** -/
theorem lifecycleLaw_iff (env : Environment) (calls : List Call) :
    LifecycleLaw env calls ↔ MovesWell env calls := by
  constructor
  · refine fun law => ⟨fun n c order here ships => ?_, fun n c order here completes => ?_⟩
    · have found := ships.reaches.found
      have moved := edge_of_lawful_setStatus found (orders_of_ships ships) (law.lawful n c here)
      rcases moved with ⟨edge, fits⟩ | same
      · refine .inl ⟨?_, fits⟩
        generalize order.status = status at edge
        cases edge
        rfl
      · exact .inr same
    · have found := completes.reaches.found
      have moved := edge_of_lawful_setStatus found (orders_of_completes completes)
        (law.lawful n c here)
      rcases moved with ⟨-, fits⟩ | ⟨same, -⟩
      · exact fits
      · exact absurd (completes.started.symm.trans same) (by decide)
  · intro well
    have lawful : ∀ n c, calls[n]? = some c →
        LawfulCall (env.runAt calls n).db ((env.runAt calls n).call c).2.db := fun n c here =>
      lawful_call (fun order => well.ships n c order here) fun order =>
        well.completes n c order here
    refine ⟨lawful, fun m n later oid status final => ?_, fun m n later oid settled shipped => ?_⟩
    · exact stateAt_kept (P := fun now : Environment => HasStatus now.db oid status)
        (fun n c here => (lawful n c here).terminal final) later
    -- After a refund the order is cancelling or cancelled for good, so it is not shipped.
    · obtain ⟨⟨r, refunded, rfl, new⟩, -, -⟩ := settled
      have underway := stateAt_kept (P := fun now : Environment => Underway now.db r.orderId)
        (fun n c here => (lawful n c here).underway) later
        (underway_of_refunded lawful m refunded new)
      rcases underway with cancelling | cancelled
      · exact absurd (shipped.unique cancelling) (by decide)
      · exact absurd (shipped.unique cancelled) (by decide)

/-- One cancelled order, and a shipment that is still to come. -/
def cancelledOrder : Fixture where
  actorId := "customer-a"
  subjectId := "order-a"
  fault := .shipBeforeCancel
  orders := [⟨"order-a", "customer-a", .cancelled, 12500, "USD", "sku-a", 2, 3⟩]
  payments := [⟨"order-a", 12500, 12500⟩]
  inventory := [("sku-a", 12)]
  releases := [⟨"order-a", "stock:order-a", 2⟩]

/-- Begin the cancellation of `order-a` with version 3. -/
def beginAgain : Call where
  stamp := ⟨"e1", 0, 1, none, none⟩
  tool := "begin_cancellation"
  args := [("order_id", .str "order-a"), ("expected_version", .int 3)]

/-- A cancelled order is shipped. -/
theorem not_lifecycleLaw_cancelled :
    ∃ env, Environment.ofFixture cancelledOrder = some env ∧ ¬ LifecycleLaw env [beginAgain] := by
  refine ⟨_, rfl, fun law => ?_⟩
  have kept := law.terminal 0 1 (by decide) "order-a" .cancelled (.head _) ⟨_, rfl, rfl⟩
  exact absurd (kept.unique ⟨_, rfl, rfl⟩ : _ = OrderStatus.shipped) (by decide)

end Run

end AgentLabs.BusinessLab
