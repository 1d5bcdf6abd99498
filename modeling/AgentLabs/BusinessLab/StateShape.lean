import AgentLabs.BusinessLab.Evaluators

/-!
# The shape of a state

A snapshot has a table of orders, one of payments and one of stock, and three lists of rows. The
evaluators are given states as JSON values of any shape and read some of these rows each. What
they read is well formed if it is as a snapshot has it: a table is a dictionary, a list is a list,
and a row that is there has its columns, with values of their types. A row that is missing is
well formed: a snapshot leaves out what the store does not have.

## Main definitions

* `hasColumns`: a row has these columns
* `SummaryFormed`, `EffectsFormed`, `OwnerFormed`: what the summary of a state, the comparison of
  two states and the policy check read is well formed

## Main results

* `summaryFormed_snapshot`, `effectsFormed_snapshot`, `ownerFormed_snapshot`: snapshots are well
  formed
-/

namespace AgentLabs.BusinessLab

open Math Text Json

/-! ### Rows -/

/-- The value is a text. -/
def textual : Json → Bool
  | .str _ => true
  | _ => false

/-- The value is an integer. -/
def integral : Json → Bool
  | .int _ => true
  | _ => false

/-- The value is an integer or a float. -/
def numeric : Json → Bool
  | .int _ => true
  | .float _ => true
  | _ => false

/-- The columns of a row, with the types of their values. -/
abbrev Columns := List (String × (Json → Bool))

/-- The columns of these names. -/
def Columns.only (columns : Columns) (names : List String) : Columns :=
  columns.filter fun column => column.1 ∈ names

def orderColumns : Columns :=
  [("id", textual), ("customer_id", textual), ("status", textual), ("amount_cents", integral),
    ("currency", textual), ("sku", textual), ("quantity", integral), ("version", numeric)]

def paymentColumns : Columns :=
  [("order_id", textual), ("captured_cents", integral), ("refunded_cents", integral)]

/-- The lists of a state and the columns of their rows. -/
def listColumns : List (String × Columns) :=
  [("refunds", [("operation_key", textual), ("order_id", textual), ("amount_cents", integral)]),
    ("releases", [("order_id", textual), ("operation_key", textual), ("quantity", integral)]),
    ("tickets", [("order_id", textual), ("reason", textual)])]

/-- The row is a dictionary with these columns. -/
def hasColumns (columns : Columns) (row : Json) : Bool :=
  columns.all fun column => (row.asObj?.bind fun fields => Dict.get? fields column.1).any column.2

theorem hasColumns_only {columns : Columns} {row : Json} (has : hasColumns columns row)
    (names : List String) : hasColumns (columns.only names) row :=
  List.all_eq_true.mpr fun column member =>
    List.all_eq_true.mp has column (List.mem_filter.mp member).1

/-- The text in a column of a row. -/
def textAt (row : Json) (column : String) : Option String :=
  (row.asObj?.bind fun fields => Dict.get? fields column).bind asStr?

/-! ### States -/

/-- The state has a table of this name, and its rows have this shape. -/
def HasRows (state : Fields) (table : String) (shape : String → Json → Prop) : Prop :=
  ∃ rows, Dict.get? state table = some (.obj rows) ∧
    ∀ key row, Dict.get? rows key = some row → shape key row

/-- The state has a list of this name, and its rows have this shape. -/
def HasList (state : Fields) (list : String) (shape : Json → Prop) : Prop :=
  ∃ rows, Dict.get? state list = some (.arr rows) ∧ ∀ row ∈ rows, shape row

/-- A row of a table. -/
def rowAt (state : Fields) (table key : String) : Option Json :=
  ((Dict.get? state table).bind asObj?).bind fun rows => Dict.get? rows key

/-- What the summary of a state reads is well formed. -/
structure SummaryFormed (state : Fields) (oid : String) : Prop where
  subject : Dict.get? state "subject_id" = some (.str oid)
  orders : HasRows state "orders" fun key row =>
    key = oid → hasColumns (orderColumns.only ["status", "sku"]) row
  payments : HasRows state "payments" fun key row =>
    key = oid → hasColumns (paymentColumns.only ["refunded_cents"]) row
  inventory : ∀ order ∈ rowAt state "orders" oid, HasRows state "inventory" fun key stock =>
    textAt order "sku" = some key → numeric stock
  tickets : HasList state "tickets" fun row => hasColumns [("order_id", textual)] row

/-- What is compared of a state beside the subject is well formed. -/
structure SparedFormed (state : Fields) (oid : String) (own : Option String) : Prop where
  orders : HasRows state "orders" fun key row => key ≠ oid → hasColumns orderColumns row
  payments : HasRows state "payments" fun key row => key ≠ oid → hasColumns paymentColumns row
  inventory : HasRows state "inventory" fun key stock => own ≠ some key → numeric stock
  lists : ∀ list ∈ listColumns, HasList state list.1 fun row =>
    hasColumns [("order_id", textual)] row ∧ (textAt row "order_id" ≠ some oid →
      hasColumns list.2 row)

/-- What the comparison of two states reads is well formed. -/
structure EffectsFormed (before after : Fields) (oid : String) : Prop where
  subject : Dict.get? before "subject_id" = some (.str oid)
  spared : SparedFormed before oid
    ((rowAt before "orders" oid).bind fun order => textAt order "sku")
  spared' : SparedFormed after oid
    ((rowAt before "orders" oid).bind fun order => textAt order "sku")
  target : ∀ order ∈ rowAt before "orders" oid,
    hasColumns (orderColumns.only identityColumns) order ∧
      ∀ order' ∈ rowAt after "orders" oid, hasColumns (orderColumns.only identityColumns) order'

/-- What the policy check reads of the state for a write is well formed. -/
structure OwnerFormed (artifact : Artifact) (event : Event) : Prop where
  orders : HasRows artifact.initialState "orders" fun key row =>
    event.orderId = .str key → pyEq event.orderId artifact.request.orderIdJson →
      hasColumns (orderColumns.only ["customer_id"]) row
  actor : pyEq event.orderId artifact.request.orderIdJson →
    (Dict.get? artifact.initialState "actor_id").any textual

/-! ### Snapshots -/

theorem numeric_versionJson (version : Int) : numeric (versionJson version) := by
  unfold versionJson
  split_ifs <;> rfl

theorem InventoryRow.numeric_stock (i : InventoryRow) : numeric i.stock := by
  unfold InventoryRow.stock
  split_ifs <;> rfl

theorem OrderRow.hasColumns_toJson (o : OrderRow) : hasColumns orderColumns o.toJson := by
  simp [hasColumns, orderColumns, OrderRow.toJson, asObj?, Dict.get?, textual, integral,
    numeric_versionJson]

theorem PaymentRow.hasColumns_toJson (p : PaymentRow) : hasColumns paymentColumns p.toJson := rfl

section Snapshot

variable {env env' : Environment}

theorem hasRows_orders {shape : String → Json → Prop} (rows : ∀ o : OrderRow, shape o.id o.toJson) :
    HasRows env.snapshot "orders" shape := by
  refine ⟨_, rfl, fun key row found => ?_⟩
  rw [Database.get?_ordersJson] at found
  obtain ⟨order, stored, rfl⟩ := Option.map_eq_some_iff.mp found
  exact Table.key_of_find?_eq_some stored ▸ rows order

theorem hasRows_payments {shape : String → Json → Prop}
    (rows : ∀ p : PaymentRow, shape p.orderId p.toJson) :
    HasRows env.snapshot "payments" shape := by
  refine ⟨_, rfl, fun key row found => ?_⟩
  rw [Database.get?_paymentsJson] at found
  obtain ⟨payment, stored, rfl⟩ := Option.map_eq_some_iff.mp found
  exact Table.key_of_find?_eq_some stored ▸ rows payment

theorem hasRows_inventory {shape : String → Json → Prop}
    (rows : ∀ i : InventoryRow, shape i.sku i.stock) : HasRows env.snapshot "inventory" shape := by
  refine ⟨_, rfl, fun key row found => ?_⟩
  rw [Database.get?_inventoryJson] at found
  obtain ⟨unit, stored, rfl⟩ := Option.map_eq_some_iff.mp found
  exact Table.key_of_find?_eq_some stored ▸ rows unit

/-- The rows of the lists of a snapshot have their columns. -/
theorem hasList_snapshot {list : String × Columns} (listed : list ∈ listColumns) :
    HasList env.snapshot list.1 fun row =>
      hasColumns list.2 row ∧ hasColumns [("order_id", textual)] row := by
  have mapped : ∀ {α : Type} {rows : List α} {toJson : α → Json} {shape : Json → Prop},
      (∀ r, shape (toJson r)) → ∀ row ∈ rows.map toJson, shape row := by
    intro α rows toJson shape each row member
    obtain ⟨r, -, rfl⟩ := List.mem_map.mp member
    exact each r
  simp only [listColumns, List.mem_cons, List.not_mem_nil, or_false] at listed
  rcases listed with rfl | rfl | rfl
  · exact ⟨_, rfl, mapped fun r => ⟨rfl, rfl⟩⟩
  · exact ⟨_, rfl, mapped fun r => ⟨rfl, rfl⟩⟩
  · exact ⟨_, rfl, mapped fun r => ⟨rfl, rfl⟩⟩

theorem exists_of_mem_rowAt {oid : String} {row : Json}
    (there : row ∈ rowAt env.snapshot "orders" oid) : ∃ order : OrderRow, row = order.toJson := by
  have found : Dict.get? env.db.ordersJson oid = some row := there
  rw [Database.get?_ordersJson] at found
  obtain ⟨order, -, rfl⟩ := Option.map_eq_some_iff.mp found
  exact ⟨order, rfl⟩

/-- **What a summary reads of a snapshot is well formed.** -/
theorem summaryFormed_snapshot (env : Environment) :
    SummaryFormed env.snapshot env.subjectId where
  subject := rfl
  orders := hasRows_orders fun o _ => hasColumns_only o.hasColumns_toJson _
  payments := hasRows_payments fun p _ => hasColumns_only p.hasColumns_toJson _
  inventory _ _ := hasRows_inventory fun i _ => i.numeric_stock
  tickets :=
    have ⟨rows, list, formed⟩ := hasList_snapshot (.tail _ (.tail _ (.head _)))
    ⟨rows, list, fun row member => (formed row member).2⟩

theorem sparedFormed_snapshot (env : Environment) (oid : String) (own : Option String) :
    SparedFormed env.snapshot oid own where
  orders := hasRows_orders fun o _ => o.hasColumns_toJson
  payments := hasRows_payments fun p _ => p.hasColumns_toJson
  inventory := hasRows_inventory fun i _ => i.numeric_stock
  lists _ listed :=
    have ⟨rows, list, formed⟩ := hasList_snapshot listed
    ⟨rows, list, fun row member => ⟨(formed row member).2, fun _ => (formed row member).1⟩⟩

/-- **What is compared of two snapshots is well formed.** -/
theorem effectsFormed_snapshot (env env' : Environment) :
    EffectsFormed env.snapshot env'.snapshot env.subjectId where
  subject := rfl
  spared := sparedFormed_snapshot _ _ _
  spared' := sparedFormed_snapshot _ _ _
  target order there := by
    obtain ⟨o, rfl⟩ := exists_of_mem_rowAt there
    refine ⟨hasColumns_only o.hasColumns_toJson _, fun order' there' => ?_⟩
    obtain ⟨o', rfl⟩ := exists_of_mem_rowAt there'
    exact hasColumns_only o'.hasColumns_toJson _

/-- **What the policy check reads of a snapshot is well formed.** -/
theorem ownerFormed_snapshot {artifact : Artifact} (initial : artifact.initialState = env.snapshot)
    (event : Event) : OwnerFormed artifact event where
  orders := initial ▸ hasRows_orders fun o _ _ => hasColumns_only o.hasColumns_toJson _
  actor _ := by
    rw [initial]
    rfl

end Snapshot

end AgentLabs.BusinessLab
