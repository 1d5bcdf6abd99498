import AgentLabs.BusinessLab.StateShape
import AgentLabs.Text.JsonReads

/-!
# When the evaluators come to a verdict

The evaluators read JSON values of any shape. Three checks take a missing key or a wrong type for
insufficient evidence, but a method that a value does not have is not caught, and the checks of
the policy, the recovery and the milestones catch nothing at all. So the six verdicts are there
if and only if every value whose `get` is called is a dictionary and every value that is put into
a set, or looked up in one, can be hashed.

What is read without an exception need not be well formed: an empty list passes for an order that
is missing, and `null` for the owner of one. A check then judges what is not evidence. So the
verdicts are those of the evidence if and only if what is read in full is well formed.

What has no method is found by going through the reads in their order: a read is made only if the
ones before it have got through.

## Main definitions

* `SummaryReadable`, `EffectsReadable`: the values of the states that are asked for something
  have it
* `PolicyReadable`, `MilestoneReadable`, `Readable`: the values of the events as well
* `SummaryWhole`, `EffectsWhole`: no read of the states meets a missing key or a wrong type
* `Malformed`, `StatesFormed`: the data of a state that a check reads are malformed, or not if they
  are read in full
* `EvaluationLaw`: what an evaluation is to keep

## Main results

* `methodsFound_stateSummary_iff`, `methodsFound_sideEffects_iff`, `returns_stateSummary_iff`,
  `returns_sideEffects_iff`: the reads of the states
* `returns_policyStep_iff`: the reads of an event
* `evaluationLaw_iff`: when an evaluation keeps the law
-/

namespace AgentLabs.BusinessLab

open Math Text Json

/-! ### The summary of a state -/

/-- `table.get(oid)`. -/
def rowOf (table oid : Json) : Except AccessError Json := do lookup (← table.getter) oid .null

/-- The orders, the payments and the inventory are dictionaries, as far as the summary gets to
read them. -/
def SummaryReadable (snapshot : Fields) : Prop :=
  After ((Json.obj snapshot).item "subject_id") fun oid =>
  After ((Json.obj snapshot).item "orders") fun orders => isDict orders ∧
  After (rowOf orders oid) fun order =>
  After ((Json.obj snapshot).item "payments") fun payments => isDict payments ∧
  After (rowOf payments oid) fun payment =>
    (order.isTruthy → Returns (order.item "status")) →
    (payment.isTruthy → Returns (payment.item "refunded_cents")) →
    order.isTruthy → After ((Json.obj snapshot).item "inventory") fun inventory => isDict inventory

/-- The rows of this list have the column that is read of them. -/
def ListWhole (state : Json) (list : String) : Prop :=
  Gives (state.item list) fun rows => Gives rows.elements fun rows =>
    ∀ row ∈ rows, Returns (row.item "order_id")

/-- No read of the summary meets a missing key or a wrong type. -/
def SummaryWhole (snapshot : Fields) : Prop :=
  Gives ((Json.obj snapshot).item "subject_id") fun oid =>
  Gives ((Json.obj snapshot).item "orders") fun orders => Gives (rowOf orders oid) fun order =>
  Gives ((Json.obj snapshot).item "payments") fun payments =>
  Gives (rowOf payments oid) fun payment =>
    (order.isTruthy → Returns (order.item "status")) ∧
    (payment.isTruthy → Returns (payment.item "refunded_cents")) ∧
    (order.isTruthy → Gives ((Json.obj snapshot).item "inventory") fun inventory =>
      isDict inventory ∧ Gives (order.item "sku") fun sku => sku.isHashable) ∧
    ListWhole (.obj snapshot) "tickets"

theorem returns_stateSummary_iff {snapshot : Fields} :
    Returns (stateSummary snapshot) ↔ SummaryWhole snapshot := by
  simp [stateSummary, SummaryWhole, ListWhole, rowOf, Gives.returns_bind_iff, Returns.select_iff]

theorem methodsFound_stateSummary_iff {snapshot : Fields} :
    MethodsFound (stateSummary snapshot) ↔ SummaryReadable snapshot := by
  simp [stateSummary, SummaryReadable, rowOf, MethodsFound.bind_iff, MethodsFound.select]

/-! ### The comparison of two states -/

/-- The state has a dictionary under this name. -/
def HasTable (state : Json) (table : String) : Prop :=
  ∃ fields, state.item table = .ok (.obj fields)

/-- Both tables are dictionaries, if one of them has a row of another order. -/
def RowsReadable (before after oid : Json) (table : String) (keys : List Json) : Prop :=
  ∀ key ∈ keys, pyEq key oid = false → HasTable before table ∧ HasTable after table

/-- The orders of a state and the row of this order are dictionaries. -/
def OrderReadable (after oid : Json) : Prop :=
  After (after.item "orders") fun orders => isDict orders ∧
  After (do lookup (← orders.getter) oid (.obj [])) fun order => isDict order

/-- The unit is not the one of the subject's order. -/
def isForeign (target sku : Json) : Except AccessError Bool :=
  ifTruthy target ((target.item "sku").map fun own => !pyEq sku own) true

/-- Both inventories are dictionaries, if one of them has a unit that is not the one of the
subject's order. -/
def StockReadable (target before after : Json) (keys : List Json) : Prop :=
  ∀ sku ∈ keys, After (isForeign target sku) fun foreign =>
    foreign → HasTable before "inventory" ∧ HasTable after "inventory"

/-- The tables of the two states and the row of the subject's order are dictionaries, as far as
the comparison gets to read them. -/
def EffectsReadable (before after : Json) : Prop :=
  After (before.item "subject_id") fun oid =>
  After (before.item "orders") fun orders => isDict orders ∧
  After (rowOf orders oid) fun target =>
  After (tableKeys before after "orders") fun keys => RowsReadable before after oid "orders" keys ∧
  After (tableKeys before after "payments") fun keys =>
    RowsReadable before after oid "payments" keys ∧
    (target.isTruthy → Returns (target.item "customer_id") → OrderReadable after oid) ∧
    ((target.isTruthy → ∀ column ∈ identityColumns, Returns (target.item column)) →
      After (tableKeys before after "inventory") fun keys => StockReadable target before after keys)

/-- No read of the comparison meets a missing key or a wrong type. -/
def EffectsWhole (before after : Json) : Prop :=
  Gives (before.item "subject_id") fun oid =>
  Gives (before.item "orders") fun orders => Gives (rowOf orders oid) fun target =>
    Gives (tableKeys before after "orders") (RowsReadable before after oid "orders") ∧
    Gives (tableKeys before after "payments") (RowsReadable before after oid "payments") ∧
    (target.isTruthy → (∀ column ∈ identityColumns, Returns (target.item column)) ∧
      OrderReadable after oid) ∧
    Gives (tableKeys before after "inventory") (StockReadable target before after) ∧
    ∀ list ∈ ["refunds", "releases", "tickets"], ListWhole before list ∧ ListWhole after list

section Comparison

variable {before after oid : Json} {table : String} {keys : List Json}

theorem isHashable_of_mem_union {as bs : List Json} (first : ∀ a ∈ as, a.isHashable)
    (second : ∀ b ∈ bs, b.isHashable) : ∀ key ∈ union as bs, key.isHashable := by
  induction bs generalizing as with
  | nil => exact first
  | cons b bs ih =>
    refine ih (fun a member => ?_) fun c later => second c (.tail _ later)
    unfold adjoin at member
    split_ifs at member
    · exact first a member
    · rcases List.mem_append.mp member with old | new
      · exact first a old
      · exact List.mem_singleton.mp new ▸ second b (.head _)

theorem isHashable_of_mem_members {value : Json} (read : value.members = .ok keys) :
    ∀ key ∈ keys, key.isHashable := by
  obtain ⟨items, -, joined⟩ := bind_eq_ok_iff.mp read
  split_ifs at joined with hashable
  cases joined
  exact isHashable_of_mem_union (by simp) (List.all_eq_true.mp hashable)

/-- The keys of a table come from reading it in both states. -/
theorem reads_of_tableKeys (read : tableKeys before after table = .ok keys) :
    Returns (before.item table) ∧ Returns (after.item table) ∧ ∀ key ∈ keys, key.isHashable := by
  simp only [tableKeys, bind_eq_ok_iff] at read
  obtain ⟨oldTable, readOld, old, oldKeys, newTable, readNew, new, newKeys, joined⟩ := read
  cases joined
  exact ⟨⟨_, readOld⟩, ⟨_, readNew⟩, isHashable_of_mem_union (isHashable_of_mem_members oldKeys)
    (isHashable_of_mem_members newKeys)⟩

@[simp] theorem MethodsFound.tableKeys : MethodsFound (tableKeys before after table) := by
  simp [BusinessLab.tableKeys, MethodsFound.bind_iff]

theorem hasTable_iff {state : Json} (read : Returns (state.item table)) :
    HasTable state table ↔ After (state.item table) fun value => isDict value := by
  obtain ⟨value, read⟩ := read
  rw [HasTable, read, After.ok_iff, isDict_iff]
  simp

/-- A row that is compared is read from both tables. -/
theorem rowChanged_iff (oid : Json) {key : Json} (read : tableKeys before after table = .ok keys)
    (member : key ∈ keys) :
    (MethodsFound (rowChanged before after oid table key) ↔
      (pyEq key oid = false → HasTable before table ∧ HasTable after table)) ∧
    (Returns (rowChanged before after oid table key) ↔
      (pyEq key oid = false → HasTable before table ∧ HasTable after table)) := by
  obtain ⟨old, new, hashable⟩ := reads_of_tableKeys read
  rw [hasTable_iff old, hasTable_iff new]
  obtain ⟨old, readOld⟩ := old
  obtain ⟨new, readNew⟩ := new
  cases own : pyEq key oid <;>
    simp [rowChanged, own, readOld, readNew, MethodsFound.bind_iff, Returns.bind_iff, ok_bind,
      hashable key member]
  tauto

theorem changedRows_iff (read : tableKeys before after table = .ok keys) :
    (MethodsFound (changedRows before after oid table) ↔ RowsReadable before after oid table keys) ∧
    (Returns (changedRows before after oid table) ↔ RowsReadable before after oid table keys) := by
  have found := fun key (member : key ∈ keys) => (rowChanged_iff oid read member).1
  have returned := fun key (member : key ∈ keys) => (rowChanged_iff oid read member).2
  constructor
  · rw [changedRows, read, ok_bind]
    simp only [bind_pure_comp, MethodsFound.map_iff]
    rw [MethodsFound.select_iff fun key member h =>
      (returned key member).mpr ((found key member).mp h)]
    exact forall₂_congr found
  · rw [changedRows, read, ok_bind]
    simp only [bind_pure_comp, Returns.map_iff, Returns.select_iff]
    exact forall₂_congr returned

/-! ### The columns and the stock -/

variable {target : Json} {columns : List String}

/-- A column of the subject's order in the state after the run. -/
def columnAfter (after oid : Json) (column : String) : Except AccessError Json := do
  let order ← lookup (← (← after.item "orders").getter) oid (.obj [])
  order.get column .null

theorem changedColumns_cons (column : String) :
    changedColumns target after oid (column :: columns) = do
      let old ← target.item column
      let new ← columnAfter after oid column
      let changed ← changedColumns target after oid columns
      return if exactEqual old new then changed else
        (rowName "orders" oid ++ "." ++ column) :: changed := by
  simp [changedColumns, columnAfter, bind_assoc]

theorem methodsFound_columnAfter_iff {column : String} :
    MethodsFound (columnAfter after oid column) ↔ OrderReadable after oid := by
  simp [columnAfter, OrderReadable, MethodsFound.bind_iff]

theorem returns_columnAfter_iff (column : String) (orders : Returns (after.item "orders"))
    (hashable : oid.isHashable) :
    Returns (columnAfter after oid column) ↔ OrderReadable after oid := by
  obtain ⟨value, read⟩ := orders
  simp only [columnAfter, OrderReadable, read, ok_bind, After.ok_iff]
  simp [Returns.bind_iff, hashable]

/-- One column is enough to read the subject's order in the state after the run. -/
theorem methodsFound_changedColumns_iff {column : String} :
    MethodsFound (changedColumns target after oid (column :: columns)) ↔
      (Returns (target.item column) → OrderReadable after oid) := by
  induction columns generalizing column with
  | nil =>
    rw [changedColumns_cons]
    simp [changedColumns, MethodsFound.bind_iff, methodsFound_columnAfter_iff]
  | cons next columns ih =>
    rw [changedColumns_cons]
    simp only [MethodsFound.bind_iff, methodsFound_columnAfter_iff, ih]
    simp
    tauto

theorem returns_changedColumns_iff (orders : Returns (after.item "orders"))
    (hashable : oid.isHashable) {column : String} :
    Returns (changedColumns target after oid (column :: columns)) ↔
      (∀ name ∈ column :: columns, Returns (target.item name)) ∧ OrderReadable after oid := by
  have readable := fun column => returns_columnAfter_iff column orders hashable
  induction columns generalizing column with
  | nil =>
    rw [changedColumns_cons]
    simp [changedColumns, Returns.bind_iff, readable]
    tauto
  | cons next columns ih =>
    rw [changedColumns_cons]
    simp only [Returns.bind_iff, readable, ih, List.forall_mem_cons]
    simp only [readable, After.const_iff, Returns.of_pure, implies_true, and_true]
    constructor
    · rintro ⟨first, rest⟩
      obtain ⟨order, later⟩ := rest first
      exact ⟨⟨first, (later order).1⟩, order⟩
    · rintro ⟨⟨first, rest⟩, order⟩
      exact ⟨first, fun _ => ⟨order, fun _ => ⟨rest, order⟩⟩⟩

theorem methodsFound_isForeign (sku : Json) : MethodsFound (isForeign target sku) := by
  exact MethodsFound.ifTruthy_iff.mpr fun _ => MethodsFound.map_iff.mpr (MethodsFound.item _ _)

theorem returns_isForeign_iff {sku : Json} : Returns (isForeign target sku) ↔
    (target.isTruthy → Returns (target.item "sku")) := by
  exact Returns.ifTruthy_iff.trans (imp_congr_right fun _ => Returns.map_iff)

theorem unitChanged_iff (target : Json) {sku : Json}
    (read : tableKeys before after "inventory" = .ok keys) (member : sku ∈ keys) :
    (MethodsFound (unitChanged target before after sku) ↔
      After (isForeign target sku) fun foreign =>
      foreign → HasTable before "inventory" ∧ HasTable after "inventory") ∧
    (Returns (unitChanged target before after sku) ↔
      (target.isTruthy → Returns (target.item "sku")) ∧
      After (isForeign target sku) fun foreign =>
        foreign → HasTable before "inventory" ∧ HasTable after "inventory") := by
  obtain ⟨old, new, hashable⟩ := reads_of_tableKeys read
  rw [hasTable_iff old, hasTable_iff new]
  obtain ⟨old, readOld⟩ := old
  obtain ⟨new, readNew⟩ := new
  have hash := hashable sku member
  constructor
  · refine MethodsFound.bind_iff.trans ((and_iff_right (methodsFound_isForeign sku)).trans ?_)
    -- The stock is looked up only for a unit of others.
    refine After.congr fun foreign _ => ?_
    cases foreign <;> simp [readOld, readNew, ok_bind, MethodsFound.bind_iff, hash]
    tauto
  · refine Returns.bind_iff.trans (and_congr returns_isForeign_iff ?_)
    refine After.congr fun foreign _ => ?_
    cases foreign <;> simp [readOld, readNew, ok_bind, Returns.bind_iff, hash]
    tauto

/-- What comes after the rows of a table comes after its keys. -/
theorem changedRows_then_iff {Q : Prop} :
    (MethodsFound (changedRows before after oid table) ∧
      (Returns (changedRows before after oid table) → Q)) ↔
      After (tableKeys before after table) fun keys => RowsReadable before after oid table keys ∧
        Q := by
  cases read : tableKeys before after table with
  | ok keys =>
    rw [After.ok_iff, (changedRows_iff read).1, (changedRows_iff read).2]
    exact and_congr_right imp_iff_right
  | error e =>
    have found : MethodsFound (tableKeys before after table) := MethodsFound.tableKeys
    rw [read] at found
    refine iff_of_true ⟨?_, ?_⟩ fun _ same => by cases same
    · rw [changedRows, read]
      exact MethodsFound.bind_iff.mpr ⟨found, fun _ same => by cases same⟩
    · rw [changedRows, read]
      rintro ⟨_, same⟩
      cases same

theorem methodsFound_changedStock_iff (sku : target.isTruthy → Returns (target.item "sku")) :
    MethodsFound (changedStock target before after) ↔
      After (tableKeys before after "inventory") fun keys =>
        StockReadable target before after keys := by
  refine MethodsFound.bind_iff.trans ((and_iff_right MethodsFound.tableKeys).trans ?_)
  refine After.congr fun keys read => ?_
  have units := fun key (member : key ∈ keys) => unitChanged_iff target read member
  simp only [bind_pure_comp, MethodsFound.map_iff]
  rw [MethodsFound.select_iff fun key member h =>
    (units key member).2.mpr ⟨sku, (units key member).1.mp h⟩]
  exact forall₂_congr fun key member => (units key member).1

theorem methodsFound_changedLists (tables : List String) :
    MethodsFound (changedLists before after oid tables) := by
  have rows : ∀ state table, MethodsFound (foreignRows state oid table) := fun state table => by
    simp [foreignRows, MethodsFound.bind_iff, MethodsFound.select]
  induction tables with
  | nil => simp [changedLists]
  | cons table tables ih => simp [changedLists, MethodsFound.bind_iff, rows, ih]

/-- The columns are read up to the last one if the order is there and has all of them. -/
theorem ifTruthy_columns_iff (orders : Returns (after.item "orders")) (hashable : oid.isHashable)
    (readable : target.isTruthy → Returns (target.item "customer_id") → OrderReadable after oid) :
    Returns (ifTruthy target (changedColumns target after oid identityColumns) []) ↔
      (target.isTruthy → ∀ column ∈ identityColumns, Returns (target.item column)) := by
  rw [Returns.ifTruthy_iff]
  refine forall_congr' fun truthy => (returns_changedColumns_iff orders hashable).trans ?_
  exact and_iff_left_of_imp fun columns => readable truthy (columns _ (.head _))

theorem methodsFound_sideEffects_iff :
    MethodsFound (sideEffects before after) ↔ EffectsReadable before after := by
  simp only [sideEffects, MethodsFound.bind_iff, MethodsFound.item, true_and]
  refine After.congr fun oid _ => After.congr fun orders _ => ?_
  simp only [MethodsFound.getter_iff, MethodsFound.lookup, true_and, rowOf, After.bind_iff]
  refine and_congr_right fun _ => After.congr fun fields _ => After.congr fun target looked => ?_
  have hashable : oid.isHashable := Returns.lookup_iff.mp ⟨_, looked⟩
  simp only [methodsFound_changedLists, MethodsFound.of_pure, After.const_iff, implies_true,
    and_true]
  rw [changedRows_then_iff]
  refine After.congr fun keys read => and_congr_right fun _ => ?_
  rw [changedRows_then_iff]
  refine After.congr fun _ _ => and_congr_right fun _ => ?_
  rw [MethodsFound.ifTruthy_iff, identityColumns, methodsFound_changedColumns_iff]
  refine and_congr_right fun readable => ?_
  have columns := ifTruthy_columns_iff (reads_of_tableKeys read).2.1 hashable readable
  rw [identityColumns] at columns
  rw [columns]
  refine imp_congr_right fun all => ?_
  exact methodsFound_changedStock_iff fun truthy => all truthy "sku" (by simp)

theorem returns_changedRows_iff : Returns (changedRows before after oid table) ↔
    Gives (tableKeys before after table) (RowsReadable before after oid table) := by
  cases read : tableKeys before after table with
  | ok keys => exact (changedRows_iff read).2.trans Gives.ok_iff.symm
  | error e =>
    rw [changedRows, read]
    exact iff_of_false (fun ⟨_, same⟩ => by cases same) Gives.of_error

theorem returns_changedStock_iff (sku : target.isTruthy → Returns (target.item "sku")) :
    Returns (changedStock target before after) ↔
      Gives (tableKeys before after "inventory") (StockReadable target before after) := by
  refine Gives.returns_bind_iff.trans (Gives.congr fun keys read => ?_)
  simp only [bind_pure_comp, Returns.map_iff, Returns.select_iff]
  exact forall₂_congr fun key member =>
    (unitChanged_iff target read member).2.trans (and_iff_right sku)

theorem returns_changedLists_iff (lists : List String) :
    Returns (changedLists before after oid lists) ↔
      ∀ list ∈ lists, ListWhole before list ∧ ListWhole after list := by
  have rows : ∀ state list, Returns (foreignRows state oid list) ↔ ListWhole state list :=
    fun state list => by
      simp [foreignRows, ListWhole, Gives.returns_bind_iff, Returns.select_iff]
  induction lists with
  | nil => simp [changedLists]
  | cons list lists ih =>
    rw [List.forall_mem_cons, changedLists]
    simp only [Gives.returns_bind_iff, Returns.of_pure, Gives.const_iff, and_true, rows, ih,
      and_assoc]

theorem returns_sideEffects_iff :
    Returns (sideEffects before after) ↔ EffectsWhole before after := by
  simp only [sideEffects, Gives.returns_bind_iff, EffectsWhole, rowOf, Gives.bind_iff]
  refine Gives.congr fun oid _ => Gives.congr fun orders _ => Gives.congr fun fields _ =>
    Gives.congr fun target looked => ?_
  have hashable : oid.isHashable := Returns.lookup_iff.mp ⟨_, looked⟩
  simp only [Gives.const_iff, Returns.of_pure, and_true, returns_changedRows_iff,
    returns_changedLists_iff, Returns.ifTruthy_iff]
  refine and_congr_right fun keyed => and_congr_right fun _ => ?_
  obtain ⟨keys, read, -⟩ := keyed
  have columns : Returns (changedColumns target after oid identityColumns) ↔
      (∀ name ∈ identityColumns, Returns (target.item name)) ∧ OrderReadable after oid :=
    returns_changedColumns_iff (reads_of_tableKeys read).2.1 hashable
  rw [columns]
  refine and_congr_right fun all => ?_
  rw [returns_changedStock_iff fun truthy => (all truthy).1 "sku" (by simp [identityColumns])]

end Comparison

/-! ### The events -/

/-- `result.get(name)`, of a result that is a dictionary. -/
def Event.shown (event : Event) (name : String) : Json :=
  ((event.result.asObj?).bind fun fields => Dict.get? fields name).getD .null

/-- The payment of the answer is a dictionary, if it is there. -/
def Event.PaymentReadable (event : Event) : Prop :=
  (event.shown "payment").isTruthy → isDict (event.shown "payment")

/-- The order of the answer is a dictionary, if it is there. -/
def Event.OrderReadable (event : Event) : Prop :=
  (event.shown "order").isTruthy → isDict (event.shown "order")

/-- The orders before the run, and nothing if the state has none. -/
def Artifact.ordersBefore (artifact : Artifact) : Json :=
  (Dict.get? artifact.initialState "orders").getD (.obj [])

/-- A write is judged by the orders of the state and by the row of the requested one. -/
structure WriteReadable (artifact : Artifact) (event : Event) : Prop where
  orders : isDict artifact.ordersBefore
  orderId : event.orderId.isHashable
  order : pyEq event.orderId artifact.request.orderIdJson →
    After (do lookup (← artifact.ordersBefore.getter) event.orderId (.obj [])) fun order =>
    isDict order

/-- What the policy check asks of an event has the method or the hash that it is asked for. -/
structure PolicyReadable (artifact : Artifact) (event : Event) : Prop where
  write : event.tool ∈ writeTools → WriteReadable artifact event
  check : event.tool = "check_cancel_policy" → event.orderId.isHashable
  conflict : pyEq (event.shown "code") (.str "VERSION_CONFLICT") → event.orderId.isHashable
  payment : pyEq (event.shown "status") (.str "ok") → event.tool = "get_payment" →
    event.PaymentReadable
  step : pyEq (event.shown "status") (.str "ok") →
    event.tool = "begin_cancellation" ∨ event.tool = "release_stock" ∨
      PolicyState.refundSeen event = .ok true → event.orderId.isHashable

section Events

variable {artifact : Artifact} {expected : Expected} {event : Event} {s : PolicyState}

theorem Event.field_eq (accepted : isDict event.result) (name : String) :
    event.field name = .ok (event.shown name) := by
  obtain ⟨fields, result⟩ := isDict_iff.mp accepted
  rw [Event.field, Event.shown, result]
  rfl

theorem returns_owns_iff {order oid : Json} : Returns (PolicyState.owns artifact order oid) ↔
    (pyEq oid artifact.request.orderIdJson → isDict order) := by
  unfold PolicyState.owns
  split_ifs with own
  · exact Returns.map_iff.trans (Returns.get_iff.trans (by simp [own]))
  · simp [own]

theorem returns_checkWrite_iff :
    Returns (s.checkWrite artifact event) ↔
      (event.tool ∈ writeTools → WriteReadable artifact event) := by
  unfold PolicyState.checkWrite
  split_ifs with write
  · rw [imp_iff_right write]
    simp only [Returns.bind_iff, Returns.getter_iff, Returns.lookup_iff, returns_owns_iff,
      Returns.of_pure, After.const_iff, implies_true, and_true]
    constructor
    · rintro ⟨table, row⟩
      obtain ⟨fields, orders⟩ := isDict_iff.mp table
      rw [orders, Json.getter, After.ok_iff] at row
      refine ⟨table, row.1, fun own => ?_⟩
      rw [Artifact.ordersBefore, orders, Json.getter, ok_bind]
      exact fun order found => row.2 order found own
    · rintro ⟨table, hashable, row⟩
      obtain ⟨fields, orders⟩ := isDict_iff.mp table
      rw [Artifact.ordersBefore] at orders row
      rw [orders, Json.getter, ok_bind] at row
      rw [orders, Json.getter, After.ok_iff]
      exact ⟨rfl, hashable, fun order found own => row own order found⟩
  · simp [write]

theorem Event.isOk_eq (accepted : isDict event.result) :
    event.isOk = .ok (pyEq (event.shown "status") (.str "ok")) := by
  rw [isOk, field_eq accepted]
  rfl

theorem Event.permits_eq (accepted : isDict event.result) : event.permits =
    .ok (pyEq (event.shown "status") (.str "ok") && (event.shown "allowed").isTrue) := by
  rw [permits, isOk_eq accepted, field_eq accepted]
  rfl

theorem returns_observeCheck_iff (accepted : isDict event.result) :
    Returns (s.observeCheck event) ↔
      (event.tool = "check_cancel_policy" → event.orderId.isHashable) := by
  unfold PolicyState.observeCheck
  split_ifs with other
  · exact iff_of_true (Returns.of_pure _) fun check => absurd check other
  · rw [Event.permits_eq accepted, Event.field_eq accepted, imp_iff_right (not_not.mp other)]
    simp [ok_bind, Returns.bind_iff]

theorem returns_observeConflict_iff (accepted : isDict event.result) :
    Returns (s.observeConflict event) ↔
      (pyEq (event.shown "code") (.str "VERSION_CONFLICT") → event.orderId.isHashable) := by
  rw [PolicyState.observeConflict, Event.field_eq accepted, ok_bind]
  cases conflict : pyEq (event.shown "code") (.str "VERSION_CONFLICT") <;> simp

theorem returns_refundSeen_iff (accepted : isDict event.result) :
    Returns (PolicyState.refundSeen event) ↔
      (event.tool = "get_payment" → event.PaymentReadable) := by
  unfold PolicyState.refundSeen
  split_ifs with payment
  · rw [PolicyState.paymentSettled, Event.field_eq accepted, ok_bind, Event.PaymentReadable,
      imp_iff_right payment]
    by_cases truthy : (event.shown "payment").isTruthy
    · simp [truthy, Returns.bind_iff]
    · simp [truthy, Returns.bind_iff, isDict, asObj?]
  · simp [payment]

theorem returns_observeSteps_iff (accepted : isDict event.result) :
    Returns (s.observeSteps event) ↔ (pyEq (event.shown "status") (.str "ok") →
      (event.tool = "get_payment" → event.PaymentReadable) ∧
      (event.tool = "begin_cancellation" ∨ event.tool = "release_stock" ∨
        PolicyState.refundSeen event = .ok true → event.orderId.isHashable)) := by
  rw [PolicyState.observeSteps, Event.isOk_eq accepted, ok_bind]
  cases good : pyEq (event.shown "status") (.str "ok") with
  | false => simp
  | true =>
    simp only [Bool.not_true, Bool.false_eq_true, if_false, true_imp_iff]
    rw [Returns.bind_iff, returns_refundSeen_iff accepted]
    refine and_congr_right fun readable => ?_
    obtain ⟨seen, read⟩ := (returns_refundSeen_iff accepted).mpr readable
    rw [read, After.ok_iff]
    -- The id is hashed only when a step is noted.
    by_cases nothing : ¬ event.tool = "begin_cancellation" ∧ ¬ event.tool =
      "release_stock" ∧ seen = false
    · rw [if_pos nothing]
      simp [nothing]
    · have shown : event.tool = "begin_cancellation" ∨ event.tool = "release_stock" ∨
          (Except.ok seen : Except AccessError Bool) = .ok true := by
        cases seen <;> simp_all [or_iff_not_imp_left]
      rw [if_neg nothing, imp_iff_right shown]
      simp

/-- **An event is judged if and only if what it is asked for is there.** What the check remembers
does not matter. -/
theorem returns_policyStep_iff (accepted : isDict event.result) :
    Returns (policyStep artifact expected s event) ↔ PolicyReadable artifact event := by
  rw [policyStep]
  simp only [Returns.bind_iff, returns_checkWrite_iff, returns_observeCheck_iff accepted,
    returns_observeConflict_iff accepted, returns_observeSteps_iff accepted,
    Event.field_eq accepted,
    Returns.of_ok, Returns.of_pure, After.const_iff, implies_true, and_true]
  constructor
  · rintro ⟨write, rest⟩
    obtain ⟨check, rest⟩ := rest write
    obtain ⟨conflict, step⟩ := rest check
    exact ⟨write, check, conflict, fun good => (step conflict good).1, fun good =>
      (step conflict good).2⟩
  · intro h
    exact ⟨h.write, fun _ => ⟨h.check, fun _ =>
      ⟨h.conflict, fun _ good => ⟨h.payment good, h.step good⟩⟩⟩⟩

theorem returns_checkPolicy_iff (accepted : ∀ event ∈ artifact.events, isDict event.result) :
    Returns (checkPolicy artifact expected) ↔
      ∀ event ∈ artifact.events, PolicyReadable artifact event := by
  rw [checkPolicy, Returns.bind_iff]
  simp only [Returns.of_pure, After.const_iff, implies_true, and_true]
  refine Returns.foldlM_iff (fun s event member => ?_) _
  exact returns_policyStep_iff (accepted event member)

/-! ### Recovery, milestones and response -/

/-- The key of an attempt to refund, which the check puts into a set. -/
def Event.idempotencyKey (event : Event) : Json :=
  (Dict.get? event.args "idempotency_key").getD .null

theorem returns_refundKeys_iff {events : List Event} :
    Returns (refundKeys events) ↔ ∀ event ∈ events, event.idempotencyKey.isHashable := by
  induction events with
  | nil => simp [refundKeys]
  | cons event events ih =>
    rw [refundKeys, List.forall_mem_cons, ← ih]
    simp [Returns.bind_iff, Event.idempotencyKey]
    tauto

theorem returns_unobservedWrites {events : List Event}
    (accepted : ∀ event ∈ events, isDict event.result) : Returns (unobservedWrites events) := by
  induction events with
  | nil => simp [unobservedWrites]
  | cons event events ih =>
    obtain ⟨later, ran⟩ := ih fun e later => accepted e (.tail _ later)
    rw [unobservedWrites, ran, ok_bind, Event.field_eq (accepted event (.head _)), ok_bind]
    split_ifs
    · exact Returns.of_pure later
    · exact Returns.of_pure later
    · cases events.findIdx? fun e => e.tool ∈ writeTools with
      | none => exact Returns.of_pure later
      | some next =>
        refine Returns.bind_iff.mpr ⟨Returns.anyM fun e before => ?_, fun _ _ => Returns.of_pure _⟩
        split_ifs
        · exact ⟨_, Event.isOk_eq (accepted e (.tail _ (List.mem_of_mem_take before)))⟩
        · exact Returns.of_ok false

theorem returns_checkRecovery_iff (accepted : ∀ event ∈ artifact.events, isDict event.result) :
    Returns (checkRecovery artifact expected) ↔ ∀ event ∈ artifact.events,
      event.tool = "refund_payment" → event.idempotencyKey.isHashable := by
  rw [checkRecovery, Returns.bind_iff, returns_refundKeys_iff]
  simp [returns_unobservedWrites accepted]

theorem returns_showsCancelled_iff (accepted : isDict event.result) :
    Returns (showsCancelled event) ↔ event.OrderReadable := by
  rw [showsCancelled, Event.field_eq accepted, ok_bind, Event.OrderReadable]
  by_cases truthy : (event.shown "order").isTruthy
  · simp [truthy]
  · simp [truthy, isDict, asObj?]

theorem methodsFound_showsCancelled_iff (accepted : isDict event.result) :
    MethodsFound (showsCancelled event) ↔ event.OrderReadable := by
  rw [showsCancelled, Event.field_eq accepted, ok_bind, Event.OrderReadable]
  by_cases truthy : (event.shown "order").isTruthy
  · simp [truthy]
  · simp [truthy, isDict, asObj?]

/-- What the milestones are read from is a dictionary, in the answers about the requested order. -/
def MilestoneReadable (artifact : Artifact) (event : Event) : Prop :=
  pyEq event.orderId artifact.request.orderIdJson → pyEq (event.shown "status") (.str "ok") →
    (event.tool = "get_payment" → event.PaymentReadable) ∧
    (event.tool = "get_order" → event.OrderReadable)

theorem returns_reachedBy_iff (accepted : isDict event.result) :
    Returns (reachedBy artifact event) ↔ MilestoneReadable artifact event := by
  rw [reachedBy, Event.isOk_eq accepted, Event.field_eq accepted, MilestoneReadable]
  cases own : pyEq event.orderId artifact.request.orderIdJson with
  | false => simp
  | true =>
  cases good : pyEq (event.shown "status") (.str "ok") with
  | false => simp [ok_bind]
  | true =>
    simp only [Bool.not_true, Bool.false_eq_true, if_false, true_imp_iff, ok_bind]
    rw [Returns.bind_iff, returns_refundSeen_iff accepted]
    refine and_congr_right fun readable => ?_
    obtain ⟨refunded, seen⟩ := (returns_refundSeen_iff accepted).mpr readable
    rw [seen, After.ok_iff]
    by_cases order : event.tool = "get_order"
    · simp only [if_pos order, imp_iff_right order, bind_pure_comp, Returns.map_iff]
      exact returns_showsCancelled_iff accepted
    · simp only [if_neg order]
      exact iff_of_true (Returns.of_pure _) fun h => absurd h order

theorem returns_checkMilestones_iff (accepted : ∀ event ∈ artifact.events, isDict event.result) :
    Returns (checkMilestones artifact expected) ↔
      ∀ event ∈ artifact.events, MilestoneReadable artifact event := by
  rw [checkMilestones, Returns.bind_iff]
  simp only [Returns.of_pure, After.const_iff, implies_true, and_true, Returns.mapM_iff]
  exact forall₂_congr fun event member => returns_reachedBy_iff (accepted event member)

/-- The order that shows a completed response is a dictionary, if the state can be summarised. -/
def ResponseReadable (artifact : Artifact) : Prop :=
  ∀ response ∈ artifact.response, ∀ final ∈ artifact.finalState, Returns (stateSummary final) →
    response.kind = .completed → ∀ event ∈ artifact.events, event.tool = "get_order" →
      pyEq event.orderId (response.orderId.elim .null .str) → event.OrderReadable

theorem methodsFound_completionShown_iff (accepted : ∀ event ∈ artifact.events, isDict event.result)
    {response : Response} {actual : StateSummary} :
    MethodsFound (completionShown artifact response actual) ↔ (response.kind = .completed →
      ∀ event ∈ artifact.events, event.tool = "get_order" →
        pyEq event.orderId (response.orderId.elim .null .str) → event.OrderReadable) := by
  unfold completionShown
  split_ifs with other
  · exact iff_of_true (MethodsFound.of_pure _) fun kind => absurd kind other
  · rw [imp_iff_right (not_not.mp other)]
    simp only [bind_pure_comp, MethodsFound.map_iff]
    rw [MethodsFound.select_iff]
    · refine forall₂_congr fun event member => ?_
      split_ifs with asked
      · rw [methodsFound_showsCancelled_iff (accepted event member), imp_iff_right asked.1,
          imp_iff_right asked.2]
      · exact iff_of_true (MethodsFound.of_ok _) fun order same => absurd ⟨order, same⟩ asked
    · intro event member found
      split_ifs at found ⊢ with asked
      · rw [methodsFound_showsCancelled_iff (accepted event member)] at found
        exact (returns_showsCancelled_iff (accepted event member)).mpr found
      · exact Returns.of_ok _

theorem methodsFound_checkResponse_iff (accepted : ∀ event ∈ artifact.events, isDict event.result)
    (summary : ∀ final ∈ artifact.finalState, SummaryReadable final) :
    MethodsFound (checkResponse artifact expected) ↔ ResponseReadable artifact := by
  unfold checkResponse
  split
  · rename_i response final said ended
    simp only [ResponseReadable, said, ended, Option.mem_def, Option.some.injEq, forall_eq']
    rw [MethodsFound.bind_iff, methodsFound_stateSummary_iff, and_iff_right (summary final ended)]
    simp only [bind_pure_comp, MethodsFound.map_iff, methodsFound_completionShown_iff accepted,
      After.const_iff]
  · rename_i none
    refine iff_of_true (MethodsFound.of_ok _) fun response said final ended =>
      absurd ended (none response final said)

/-! ### All checks -/

/-- What the checks of an artifact ask for is there. -/
structure Readable (artifact : Artifact) : Prop where
  summary : ∀ final ∈ artifact.finalState, SummaryReadable final
  effects : ∀ after ∈ artifact.finalState, EffectsReadable (.obj artifact.initialState) (.obj after)
  policy : ∀ event ∈ artifact.events, PolicyReadable artifact event
  recovery : ∀ event ∈ artifact.events, event.tool = "refund_payment" →
    event.idempotencyKey.isHashable
  milestones : ∀ event ∈ artifact.events, MilestoneReadable artifact event
  response : ResponseReadable artifact

theorem returns_checkOutcome_iff : Returns (checkOutcome artifact expected) ↔
    ∀ final ∈ artifact.finalState, SummaryReadable final := by
  unfold checkOutcome
  cases ended : artifact.finalState with
  | none => simp
  | some final =>
    simp only [Option.mem_def, Option.some.injEq, forall_eq', ← methodsFound_stateSummary_iff]
    cases stateSummary final with
    | ok actual => simp
    | error e => cases e <;> simp [MethodsFound, Returns]

theorem returns_checkSideEffects_iff : Returns (checkSideEffects artifact) ↔
    ∀ after ∈ artifact.finalState, EffectsReadable (.obj artifact.initialState) (.obj after) := by
  unfold checkSideEffects
  cases ended : artifact.finalState with
  | none => simp
  | some after =>
    simp only [Option.mem_def, Option.some.injEq, forall_eq', ← methodsFound_sideEffects_iff]
    cases sideEffects (.obj artifact.initialState) (.obj after) with
    | ok failures => cases failures <;> simp
    | error e => cases e <;> simp [MethodsFound, Returns]

theorem returns_guardedResponse_iff : Returns (guardedResponse artifact expected) ↔
    MethodsFound (checkResponse artifact expected) := by
  unfold guardedResponse
  cases checkResponse artifact expected with
  | ok v => simp
  | error e => cases e <;> simp [MethodsFound, Returns]

/-- The names of the verdicts, in their order. -/
def checkNames : List String :=
  ["outcome", "side_effects", "policy", "recovery", "milestones", "response_contract"]

/-- An artifact comes to its verdicts if and only if what its checks ask for is there. -/
theorem returns_evaluate_iff (accepted : ∀ event ∈ artifact.events, isDict event.result)
    {expectedOutput : Fields} (valid : Expected.modelValidate expectedOutput = some expected) :
    Returns (evaluate artifact expectedOutput) ↔ Readable artifact := by
  rw [evaluate, valid]
  simp only [Returns.bind_iff, returns_checkOutcome_iff, returns_checkSideEffects_iff,
    returns_checkPolicy_iff accepted, returns_checkRecovery_iff accepted,
    returns_checkMilestones_iff accepted, returns_guardedResponse_iff, Returns.of_pure,
    After.const_iff, implies_true, and_true]
  constructor
  · rintro ⟨summary, rest⟩
    obtain ⟨effects, rest⟩ := rest summary
    obtain ⟨policy, rest⟩ := rest effects
    obtain ⟨recovery, rest⟩ := rest policy
    obtain ⟨milestones, response⟩ := rest recovery
    exact ⟨summary, effects, policy, recovery, milestones,
      (methodsFound_checkResponse_iff accepted summary).mp (response milestones)⟩
  · intro h
    exact ⟨h.summary, fun _ => ⟨h.effects, fun _ => ⟨h.policy, fun _ => ⟨h.recovery, fun _ =>
      ⟨h.milestones, fun _ => (methodsFound_checkResponse_iff accepted h.summary).mpr
        h.response⟩⟩⟩⟩⟩

/-- The data of a state that a check reads are malformed: they are not as a snapshot has them. -/
def Malformed (artifact : Artifact) : String → Prop
  | "outcome" | "response_contract" =>
    ∀ final ∈ artifact.finalState, ∀ oid, ¬ SummaryFormed final oid
  | "side_effects" => ∀ after ∈ artifact.finalState, ∀ oid,
    ¬ EffectsFormed artifact.initialState after oid
  | "policy" => ∃ event ∈ artifact.events, event.tool ∈ writeTools ∧ ¬ OwnerFormed artifact event
  | _ => False

/-- What a check reads of a state without an exception is well formed. The policy check takes any
value. -/
structure StatesFormed (artifact : Artifact) : Prop where
  summary : ∀ final ∈ artifact.finalState, SummaryWhole final → ∃ oid, SummaryFormed final oid
  effects : ∀ after ∈ artifact.finalState,
    EffectsWhole (.obj artifact.initialState) (.obj after) →
      ∃ oid, EffectsFormed artifact.initialState after oid
  owner : ∀ event ∈ artifact.events, event.tool ∈ writeTools → OwnerFormed artifact event

/-- An evaluation comes to the one error of the specification, or to one verdict of each check. A
check whose data are malformed has not enough evidence. -/
def EvaluationLaw (artifact : Artifact) (expectedOutput : Fields) : Prop :=
  ∃ verdicts, evaluate artifact expectedOutput = .ok verdicts ∧
    if (Expected.modelValidate expectedOutput).isSome then
      verdicts.map Verdict.name = checkNames ∧
        ∀ v ∈ verdicts, Malformed artifact v.name → v.status = .insufficientEvidence
    else verdicts.map (fun v => (v.name, v.status)) = [("specification", .evaluatorError)]

/-- The verdict of a check carries its name, and says that there is not enough evidence if the data
are malformed. -/
def Judges (artifact : Artifact) (name : String) (check : Except AccessError Verdict) : Prop :=
  After check fun v => v.name = name ∧ (Malformed artifact name → v.status = .insufficientEvidence)

/-- The verdicts of an evaluation are those of its checks. -/
theorem evaluate_eq_ok_iff {expectedOutput : Fields}
    (valid : Expected.modelValidate expectedOutput = some expected) {verdicts : List Verdict} :
    evaluate artifact expectedOutput = .ok verdicts ↔
      ∃ outcome, checkOutcome artifact expected = .ok outcome ∧
      ∃ sideEffects, checkSideEffects artifact = .ok sideEffects ∧
      ∃ policy, checkPolicy artifact expected = .ok policy ∧
      ∃ recovery, checkRecovery artifact expected = .ok recovery ∧
      ∃ milestones, checkMilestones artifact expected = .ok milestones ∧
      ∃ response, guardedResponse artifact expected = .ok response ∧
        [outcome, sideEffects, policy, recovery, milestones, response] = verdicts := by
  rw [evaluate, valid]
  simp only [bind_eq_ok_iff]
  simp [pure, Except.pure]

theorem status_judgeOutcome (actual : StateSummary) :
    (judgeOutcome actual expected).name = "outcome" ∧
      (judgeOutcome actual expected).status ≠ .insufficientEvidence := by
  unfold judgeOutcome
  split_ifs
  · simp
  · refine ⟨rfl, ?_⟩
    rw [status_verdict]
    split_ifs <;> simp

theorem named_checkOutcome :
    After (checkOutcome artifact expected) fun v => v.name = "outcome" := by
  unfold checkOutcome
  cases artifact.finalState with
  | none => exact After.ok_iff.mpr rfl
  | some final =>
    dsimp only
    cases stateSummary final with
    | ok actual => exact After.ok_iff.mpr (status_judgeOutcome actual).1
    | error e => cases e <;> simp [After]

theorem named_checkSideEffects :
    After (checkSideEffects artifact) fun v => v.name = "side_effects" := by
  unfold checkSideEffects
  cases artifact.finalState with
  | none => exact After.ok_iff.mpr rfl
  | some after =>
    dsimp only
    cases sideEffects (.obj artifact.initialState) (.obj after) with
    | ok failures => cases failures <;> exact After.ok_iff.mpr rfl
    | error e => cases e <;> simp [After]

theorem named_guardedResponse :
    After (guardedResponse artifact expected) fun v => v.name = "response_contract" := by
  unfold guardedResponse
  cases checked : checkResponse artifact expected with
  | error e => cases e <;> simp [After]
  | ok v =>
    rw [After.ok_iff]
    unfold checkResponse at checked
    split at checked
    · obtain ⟨actual, -, ran⟩ := bind_eq_ok_iff.mp checked
      obtain ⟨completed, -, ran⟩ := bind_eq_ok_iff.mp ran
      cases ran
      rfl
    · cases checked
      rfl

theorem judges_checkOutcome_iff : Judges artifact "outcome" (checkOutcome artifact expected) ↔
    ∀ final ∈ artifact.finalState, SummaryWhole final → ∃ oid, SummaryFormed final oid := by
  simp only [← returns_stateSummary_iff]
  unfold Judges checkOutcome Malformed
  cases ended : artifact.finalState with
  | none => simp
  | some final =>
    simp only [Option.mem_def, Option.some.injEq, forall_eq']
    cases read : stateSummary final with
    | ok actual => simp [status_judgeOutcome]
    | error e => cases e <;> simp [After, Returns]

theorem judges_checkSideEffects_iff :
    Judges artifact "side_effects" (checkSideEffects artifact) ↔ ∀ after ∈ artifact.finalState,
      EffectsWhole (.obj artifact.initialState) (.obj after) →
        ∃ oid, EffectsFormed artifact.initialState after oid := by
  simp only [← returns_sideEffects_iff]
  unfold Judges checkSideEffects Malformed
  cases ended : artifact.finalState with
  | none => simp
  | some after =>
    simp only [Option.mem_def, Option.some.injEq, forall_eq']
    cases read : sideEffects (.obj artifact.initialState) (.obj after) with
    | ok failures => cases failures <;> simp [verdict]
    | error e => cases e <;> simp [After, Returns]

theorem judges_guardedResponse
    (formed : ∀ final ∈ artifact.finalState, SummaryWhole final → ∃ oid, SummaryFormed final oid) :
    Judges artifact "response_contract" (guardedResponse artifact expected) := by
  -- Only a response that is compared with the state has a status of its own.
  have compared : ∀ response final, artifact.response = some response →
      artifact.finalState = some final → Returns (checkResponse artifact expected) →
        ∃ oid, SummaryFormed final oid := by
    intro response final said ended returned
    rw [checkResponse, said, ended] at returned
    exact formed final ended (returns_stateSummary_iff.mp (Returns.bind_iff.mp returned).1)
  unfold Judges guardedResponse
  cases checked : checkResponse artifact expected with
  | error e => cases e <;> simp [After]
  | ok v =>
    rw [After.ok_iff]
    have returned : Returns (checkResponse artifact expected) := ⟨v, checked⟩
    unfold checkResponse at checked
    split at checked
    · rename_i response final said ended
      refine ⟨?_, fun bad => ?_⟩
      · obtain ⟨actual, -, ran⟩ := bind_eq_ok_iff.mp checked
        obtain ⟨completed, -, ran⟩ := bind_eq_ok_iff.mp ran
        cases ran
        rfl
      · obtain ⟨oid, summary⟩ := compared response final said ended returned
        exact absurd summary (bad final ended oid)
    · cases checked
      exact ⟨rfl, fun _ => rfl⟩

/-- The verdict on the policy passes or fails. -/
theorem after_checkPolicy : After (checkPolicy artifact expected) fun v =>
    v.name = "policy" ∧ v.status ≠ .insufficientEvidence := by
  rw [checkPolicy, After.bind_iff]
  refine fun s _ => After.ok_iff.mpr ⟨rfl, ?_⟩
  rw [status_verdict]
  split_ifs <;> simp

theorem judges_checkPolicy_iff (returned : Returns (checkPolicy artifact expected)) :
    Judges artifact "policy" (checkPolicy artifact expected) ↔
      ∀ event ∈ artifact.events, event.tool ∈ writeTools → OwnerFormed artifact event := by
  obtain ⟨v, ran⟩ := returned
  obtain ⟨name, decided⟩ := after_checkPolicy v ran
  rw [Judges, ran, After.ok_iff]
  simp [name, decided, Malformed]

theorem judges_checkRecovery : Judges artifact "recovery" (checkRecovery artifact expected) := by
  rw [Judges, checkRecovery]
  simp only [After.bind_iff]
  exact fun _ _ _ _ => After.ok_iff.mpr ⟨rfl, False.elim⟩

theorem judges_checkMilestones :
    Judges artifact "milestones" (checkMilestones artifact expected) := by
  rw [Judges, checkMilestones]
  simp only [After.bind_iff]
  exact fun _ _ => After.ok_iff.mpr ⟨rfl, False.elim⟩

end Events

theorem cancel_ne : "cancel" ≠ "" := by decide

theorem request_ne : "request-1" ≠ "" := by decide

/-- The user asks for a cancellation. -/
def cancelRequest : Request where
  message := "cancel"
  orderId := some "order-1"
  requestId := "request-1"
  message_ne := cancel_ne
  requestId_ne := request_ne

/-- The expected output of a refused cancellation. -/
def refusedOutput : Fields :=
  [("final_state", .obj [("order_status", .str "paid")]), ("forbidden_tools", .arr []),
    ("response_kind", .str "refused"), ("max_refund_attempts", .int 1)]

/-- The agent has looked at the order. -/
def lookedUp : Event where
  stamp := ⟨"e1", 0, 1, none, none⟩
  step := 1
  tool := "get_order"
  args := [("order_id", .str "order-1")]
  result := .obj [("status", .str "ok"), ("order", .null)]
  callId := none
  turnIndex := 0

/-- A run that ends in a state whose orders are this value. -/
def endedWith (orders : Json) : Artifact where
  scenarioId := "cancel"
  release := "baseline"
  trial := 1
  request := cancelRequest
  executionStatus := .completed
  initialState := [("subject_id", .str "order-1")]
  finalState := some [("subject_id", .str "order-1"), ("orders", orders)]
  events := [lookedUp]
  response := none

end AgentLabs.BusinessLab
