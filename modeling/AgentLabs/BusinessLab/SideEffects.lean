import AgentLabs.Math.Monitor
import AgentLabs.BusinessLab.Lifecycle
import AgentLabs.BusinessLab.Evaluators

/-!
# The side-effect check is exact

The check sees two snapshots and no call. What it decides is whether the data beside
one order is the same in both. That this says something about the calls in between
needs the service: a call changes data of the order it names only, and what it changes
can be seen for ever, because no version and no status goes back and no refund, release or
ticket is removed.

## Main definitions

* `Spared`: everything beside an order is the same in two stores
* `Grows`: what calls do to a store, whatever order they name
* `ForeignChange`: some call of a run names another order and changes the store

## Main results

* `sideEffects_snapshot`: the check decides `Spared`
* `checkSideEffects_runCalls`: on a run it fails exactly if there is a foreign change
-/

namespace AgentLabs.BusinessLab

open Math Text Json

/-- Everything beside an order is the same: the other rows of every table, the columns
of the order that identify it, and the stock of other units. -/
structure Spared (oid : String) (db db' : Database) : Prop where
  orders : ∀ k, k ≠ oid → db.orders.find? k = db'.orders.find? k
  payments : ∀ k, k ≠ oid → db.payments.find? k = db'.payments.find? k
  columns : ∀ target, db.orders.find? oid = some target →
    ∃ target', db'.orders.find? oid = some target' ∧ target'.identity = target.identity
  stock : ∀ sku, (∀ target, db.orders.find? oid = some target → sku ≠ target.sku) →
    (db.inventory.find? sku).map InventoryRow.available =
      (db'.inventory.find? sku).map InventoryRow.available
  refunds : ∀ r, r.orderId ≠ oid → (r ∈ db.refunds.rows ↔ r ∈ db'.refunds.rows)
  releases : ∀ r, r.orderId ≠ oid → (r ∈ db.releases.rows ↔ r ∈ db'.releases.rows)
  tickets : ∀ t, t.orderId ≠ oid → (t ∈ db.tickets.rows ↔ t ∈ db'.tickets.rows)

/-! ### What the check decides -/

section Check

variable {before after : Json} {fields fields' : Fields} {table oid : String}

/-- The union of the keys of two dictionaries. -/
theorem exists_union_texts (as bs : List String) :
    ∃ ks : List String, Json.union (as.map .str) (bs.map .str) = ks.map .str ∧
      ∀ k, k ∈ ks ↔ k ∈ as ∨ k ∈ bs := by
  induction bs generalizing as with
  | nil => exact ⟨as, rfl, by simp⟩
  | cons b bs ih =>
    have first : adjoin (as.map .str) (.str b) =
        (if b ∈ as then as else as ++ [b]).map .str := by
      have known : memberOf (as.map .str) (.str b) ↔ b ∈ as := by simp
      unfold adjoin
      by_cases member : b ∈ as
      · rw [if_pos (known.mpr member), if_pos member]
      · rw [if_neg (mt known.mp member), if_neg member]
        simp
    obtain ⟨ks, joined, members⟩ := ih (if b ∈ as then as else as ++ [b])
    refine ⟨ks, ?_, fun k => ?_⟩
    · rw [List.map_cons, Json.union, List.foldl_cons, first]
      exact joined
    · rw [members]
      split_ifs with member
      · grind
      · grind

theorem members_obj (fields : Fields) :
    ∃ ks : List String, (Json.obj fields).members = .ok (ks.map .str) ∧
      ∀ k, k ∈ ks ↔ k ∈ Dict.keys fields := by
  obtain ⟨ks, joined, members⟩ := exists_union_texts [] (Dict.keys fields)
  refine ⟨ks, ?_, by simpa using members⟩
  have texts : (fields.map fun entry => Json.str entry.1) = (Dict.keys fields).map .str := by
    simp [Dict.keys]
  have hashable : ((Dict.keys fields).map Json.str).all isHashable := by
    simp [isHashable]
  rw [Json.members, Json.elements]
  simp only [texts]
  rw [← joined]
  exact if_pos hashable

/-- The keys of a table that is a dictionary in both states. -/
theorem exists_tableKeys (old : before.item table = .ok (.obj fields))
    (new : after.item table = .ok (.obj fields')) :
    ∃ ks : List String, tableKeys before after table = .ok (ks.map .str) ∧
      ∀ k, k ∈ ks ↔ k ∈ Dict.keys fields ∨ k ∈ Dict.keys fields' := by
  obtain ⟨as, oldKeys, oldMembers⟩ := members_obj fields
  obtain ⟨bs, newKeys, newMembers⟩ := members_obj fields'
  obtain ⟨ks, joined, members⟩ := exists_union_texts as bs
  refine ⟨ks, ?_, fun k => by rw [members, oldMembers, newMembers]⟩
  simp only [tableKeys, old, new, ok_bind, oldKeys, newKeys, ← joined]
  rfl

@[simp] theorem lookup_str (fields : Fields) (key : String) (default : Json) :
    lookup fields (.str key) default = .ok ((Dict.get? fields key).getD default) := rfl

/-- A selection of the keys of a table, by a test on the two values of a key. -/
theorem exists_select_keys (ks : List String) {test : Json → Except AccessError Bool}
    {differs : String → Bool} (passes : ∀ k, test (.str k) = .ok (differs k))
    (name : Json → String) :
    ∃ failures, (do return (← select test (ks.map .str)).map name) = Except.ok failures ∧
      (failures = [] ↔ ∀ k ∈ ks, differs k = false) := by
  refine ⟨_, by rw [select_map fun k _ => passes k]; rfl, ?_⟩
  simp [List.filter_eq_nil_iff]

theorem rowChanged_str (old : before.item table = .ok (.obj fields))
    (new : after.item table = .ok (.obj fields')) (oid k : String) :
    rowChanged before after (.str oid) table (.str k) = .ok (decide (k ≠ oid) &&
      !exactEqual ((Dict.get? fields k).getD .null) ((Dict.get? fields' k).getD .null)) := by
  unfold rowChanged
  rw [old, new]
  by_cases own : k = oid
  · have same : pyEq (.str k) (.str oid) := by simp [own]
    rw [if_pos same, decide_eq_false (not_not.mpr own)]
    rfl
  · have other : ¬ pyEq (.str k) (.str oid) := by simpa using own
    rw [if_neg other, decide_eq_true own]
    rfl

/-- The rows of other orders are compared key by key. -/
theorem exists_changedRows (old : before.item table = .ok (.obj fields))
    (new : after.item table = .ok (.obj fields')) (oid : String) :
    ∃ failures, changedRows before after (.str oid) table = .ok failures ∧
      (failures = [] ↔ ∀ k, k ≠ oid → exactEqual ((Dict.get? fields k).getD .null)
        ((Dict.get? fields' k).getD .null)) := by
  obtain ⟨ks, keys, members⟩ := exists_tableKeys old new
  obtain ⟨failures, selected, none⟩ :=
    exists_select_keys ks (rowChanged_str old new oid) (rowName table)
  refine ⟨failures, by rw [changedRows, keys]; exact selected, ?_⟩
  rw [none]
  constructor
  · intro same k other
    by_cases known : k ∈ ks
    · simpa [other] using same k known
    · -- A key of neither table reads as absent from both.
      rw [members, not_or] at known
      rw [Dict.get?_eq_none_iff.mpr known.1, Dict.get?_eq_none_iff.mpr known.2]
      simp [exactEqual]
  · intro same k _
    by_cases own : k = oid
    · simp [own]
    · simp [own, same k own]

/-- The stored order as the check looks it up. -/
def targetJson (target : Option OrderRow) : Json := (target.map OrderRow.toJson).getD .null

theorem unitChanged_str (old : before.item "inventory" = .ok (.obj fields))
    (new : after.item "inventory" = .ok (.obj fields')) (target : Option OrderRow) (sku : String) :
    unitChanged (targetJson target) before after (.str sku) =
      .ok (decide (∀ o ∈ target, sku ≠ o.sku) &&
        !pyEq ((Dict.get? fields sku).getD .null) ((Dict.get? fields' sku).getD .null)) := by
  -- Without a target every unit belongs to others.
  have foreign : ifTruthy (targetJson target)
      (((targetJson target).item "sku").map fun own => !pyEq (.str sku) own) true =
      .ok (decide (∀ o ∈ target, sku ≠ o.sku)) := by
    unfold ifTruthy
    cases target with
    | none => simp [targetJson, isTruthy]
    | some o =>
      have read : o.toJson.item "sku" = .ok (.str o.sku) := by
        simp [OrderRow.toJson, item, Dict.get?]
      have truthy : o.toJson.isTruthy := by simp [OrderRow.toJson, isTruthy]
      simp only [targetJson, Option.map_some, Option.getD_some, truthy, if_true, read, Except.map,
        Option.mem_def, Option.some.injEq, forall_eq']
      by_cases own : sku = o.sku <;> simp [own, pyEq, scalarEq]
  unfold unitChanged
  rw [foreign, old, new]
  by_cases other : ∀ o ∈ target, sku ≠ o.sku
  · rw [decide_eq_true other]
    rfl
  · rw [decide_eq_false other]
    rfl

/-- The stock of other units is compared unit by unit. -/
theorem exists_changedStock (old : before.item "inventory" = .ok (.obj fields))
    (new : after.item "inventory" = .ok (.obj fields')) (target : Option OrderRow) :
    ∃ failures, changedStock (targetJson target) before after = .ok failures ∧
      (failures = [] ↔ ∀ sku, (∀ o ∈ target, sku ≠ o.sku) →
        pyEq ((Dict.get? fields sku).getD .null) ((Dict.get? fields' sku).getD .null)) := by
  obtain ⟨ks, keys, members⟩ := exists_tableKeys old new
  obtain ⟨failures, selected, none⟩ :=
    exists_select_keys ks (unitChanged_str old new target) (rowName "inventory")
  refine ⟨failures, by rw [changedStock, keys]; exact selected, ?_⟩
  rw [none]
  constructor
  · intro same sku other
    by_cases known : sku ∈ ks
    · have := same sku known
      rw [decide_eq_true other, Bool.true_and] at this
      simpa using this
    -- A unit that neither side lists is not compared, and has no stock on either.
    · rw [members, not_or] at known
      rw [Dict.get?_eq_none_iff.mpr known.1, Dict.get?_eq_none_iff.mpr known.2]
      simp [pyEq, scalarEq]
  · intro same sku _
    by_cases other : ∀ o ∈ target, sku ≠ o.sku
    · simp [same sku other]
    · rw [decide_eq_false other]
      rfl

/-- The columns of the subject's order are compared one by one. -/
theorem exists_changedColumns {columns : List String} {row : Fields} (row' : Fields)
    (old : ∀ column ∈ columns, ∃ value, Dict.get? row column = some value)
    (new : after.item "orders" = .ok (.obj fields'))
    (found : (Dict.get? fields' oid).getD (.obj []) = .obj row') :
    ∃ failures, changedColumns (.obj row) after (.str oid) columns = .ok failures ∧
      (failures = [] ↔ ∀ column ∈ columns, exactEqual ((Dict.get? row column).getD .null)
        ((Dict.get? row' column).getD .null)) := by
  induction columns with
  | nil => exact ⟨[], rfl, by simp⟩
  | cons column rest ih =>
    obtain ⟨value, here⟩ := old column (.head _)
    obtain ⟨failures, changed, none⟩ := ih fun c member => old c (.tail _ member)
    refine ⟨if exactEqual value ((Dict.get? row' column).getD .null) then failures
      else (rowName "orders" (.str oid) ++ "." ++ column) :: failures, ?_, ?_⟩
    · have order : lookup fields' (.str oid) (.obj []) = .ok (.obj row') := by
        rw [lookup_str, found]
      have first : (Json.obj row).item column = .ok value := by rw [item, here]; rfl
      rw [changedColumns, first, new]
      simp only [ok_bind, Json.getter, order, changed]
      rfl
    · simp only [List.forall_mem_cons, here, Option.getD_some, ← none]
      split_ifs with same <;> simp [same]

/-- The rows of other orders in a list of rows. -/
theorem foreignRows_map {ρ : Type} {rows : List ρ} {f : ρ → Json} {g : ρ → String}
    (listed : before.item table = .ok (.arr (rows.map f)))
    (named : ∀ r, (f r).item "order_id" = .ok (.str (g r))) (oid : String) :
    foreignRows before (.str oid) table = .ok ((rows.filter fun r => g r ≠ oid).map f) := by
  rw [foreignRows, listed]
  refine select_map fun r _ => ?_
  rw [named]
  by_cases own : g r = oid
  · simp [own, pyEq, scalarEq, pure, Except.pure, bind, Except.bind]
  · simp [own, pyEq, scalarEq, pure, Except.pure, bind, Except.bind]

/-- The lists are compared one by one. -/
theorem exists_changedLists {tables : List String} {old new : String → List Json}
    (first : ∀ table ∈ tables, foreignRows before (.str oid) table = .ok (old table))
    (last : ∀ table ∈ tables, foreignRows after (.str oid) table = .ok (new table)) :
    ∃ failures, changedLists before after (.str oid) tables = .ok failures ∧
      (failures = [] ↔ ∀ table ∈ tables, exactEqual (.arr (old table)) (.arr (new table))) := by
  induction tables with
  | nil => exact ⟨[], rfl, by simp⟩
  | cons table rest ih =>
    obtain ⟨failures, changed, none⟩ := ih (fun t member => first t (.tail _ member))
      fun t member => last t (.tail _ member)
    refine ⟨if exactEqual (.arr (old table)) (.arr (new table)) then failures
      else table :: failures, ?_, ?_⟩
    · rw [changedLists, first table (.head _), last table (.head _), changed]
      rfl
    · rw [List.forall_mem_cons, ← none]
      split_ifs with same <;> simp [same]

end Check

/-! ### The check on two snapshots -/

section Snapshots

/-- Stored or not, two rows of one key are exactly equal as values only if they are. -/
theorem exactEqual_getD_iff {ρ : Type} {f : ρ → Json}
    (exactly : ∀ a b, exactEqual (f a) (f b) ↔ a = b) (some' : ∀ a, f a ≠ .null) (o o' : Option ρ) :
    exactEqual ((o.map f).getD .null) ((o'.map f).getD .null) ↔ o = o' := by
  cases o with
  | none =>
    cases o' with
    | none => simp [exactEqual]
    | some b =>
      have := some' b
      cases h : f b <;> simp_all [exactEqual]
  | some a =>
    cases o' with
    | none =>
      have := some' a
      cases h : f a <;> simp_all [exactEqual]
    | some b => simpa using exactly a b

theorem number?_stock (i : InventoryRow) : number? i.stock = some (i.available : Rat) := by
  unfold InventoryRow.stock
  split_ifs
  · exact number?_ofDouble i.available
  · rfl

/-- The stocks of two snapshots are compared by their amounts. -/
theorem pyEq_stock_iff {t t' : Table InventoryRow.sku} {sku : String} :
    pyEq (((t.find? sku).map InventoryRow.stock).getD .null)
      (((t'.find? sku).map InventoryRow.stock).getD .null) ↔
      (t.find? sku).map InventoryRow.available = (t'.find? sku).map InventoryRow.available := by
  have none' : ∀ i : InventoryRow, pyEq .null i.stock = false ∧ pyEq i.stock .null = false := by
    intro i
    have number := number?_stock i
    cases stock : i.stock <;> simp_all [pyEq, scalarEq, number?]
  cases one : t.find? sku with
  | none =>
    cases other : t'.find? sku with
    | none => simp [pyEq, scalarEq]
    | some j => simp [(none' j).1]
  | some i =>
    cases other : t'.find? sku with
    | none => simp [(none' i).2]
    | some j =>
      simp only [Option.map_some, Option.getD_some, Option.some.injEq]
      rw [pyEq_iff_of_number? (number?_stock i) (number?_stock j), Int.cast_inj]

/-- The columns of an order, by name. -/
def OrderRow.columns (o : OrderRow) : Fields :=
  [("id", .str o.id), ("customer_id", .str o.customerId), ("status", .str o.status.name),
    ("amount_cents", .int o.amountCents), ("currency", .str o.currency), ("sku", .str o.sku),
    ("quantity", .int o.quantity), ("version", versionJson o.version)]

/-- The identity of an order is its id and the compared columns. -/
theorem identity_eq_iff {o o' : OrderRow} (same : o'.id = o.id) :
    (∀ column ∈ identityColumns, exactEqual ((Dict.get? o.columns column).getD .null)
      ((Dict.get? o'.columns column).getD .null)) ↔ o'.identity = o.identity := by
  simp only [identityColumns, OrderRow.columns, Dict.get?, OrderRow.identity, same,
    List.forall_mem_cons, List.not_mem_nil, false_implies, implies_true, and_true, String.reduceEq,
    if_true, if_false, Option.getD_some, exactEqual_str, exactEqual_int, decide_eq_true_eq,
    Prod.mk.injEq, true_and]
  grind

/-- An order that is gone differs in its columns. -/
theorem not_identity_of_none (o : OrderRow) :
    ¬ ∀ column ∈ identityColumns, exactEqual ((Dict.get? o.columns column).getD .null)
      ((Dict.get? ([] : Fields) column).getD .null) := by
  intro same
  have := same "customer_id" (by simp [identityColumns])
  simp [OrderRow.columns, Dict.get?, exactEqual] at this

variable (env env' : Environment)

/-- The comparison of the subject's columns. -/
theorem exists_columns (oid : String) :
    ∃ failures, ifTruthy (targetJson (env.db.orders.find? oid))
        (changedColumns (targetJson (env.db.orders.find? oid)) (.obj env'.snapshot) (.str oid)
          identityColumns) [] = .ok failures ∧
      (failures = [] ↔ ∀ target, env.db.orders.find? oid = some target →
        ∃ target', env'.db.orders.find? oid = some target' ∧
          target'.identity = target.identity) := by
  have orders : (Json.obj env'.snapshot).item "orders" = .ok (.obj env'.db.ordersJson) := rfl
  -- An order that was not there has no columns to compare.
  cases found : env.db.orders.find? oid with
  | none => exact ⟨[], rfl, by simp⟩
  | some o =>
    have known : ∀ column ∈ identityColumns, ∃ value, Dict.get? o.columns column = some value := by
      simp [identityColumns, OrderRow.columns, Dict.get?]
    have read := env'.db.get?_ordersJson oid
    cases found' : env'.db.orders.find? oid with
    | none =>
      rw [found'] at read
      obtain ⟨failures, changed, none⟩ := exists_changedColumns [] known orders
        (by rw [read]; rfl)
      refine ⟨failures, changed, ?_⟩
      rw [none]
      exact ⟨fun same => absurd same (not_identity_of_none o), by simp⟩
    | some o' =>
      rw [found'] at read
      obtain ⟨failures, changed, none⟩ :=
        exists_changedColumns o'.columns known orders (by rw [read]; rfl)
      refine ⟨failures, changed, ?_⟩
      have same : o'.id = o.id :=
        (Table.key_of_find?_eq_some found').trans (Table.key_of_find?_eq_some found).symm
      rw [none, identity_eq_iff same]
      simp

/-- The comparison of the lists. -/
theorem exists_lists (oid : String) :
    ∃ failures, changedLists (.obj env.snapshot) (.obj env'.snapshot) (.str oid)
        ["refunds", "releases", "tickets"] = .ok failures ∧
      (failures = [] ↔
        (∀ r, r.orderId ≠ oid → (r ∈ env.db.refunds.rows ↔ r ∈ env'.db.refunds.rows)) ∧
        (∀ r, r.orderId ≠ oid → (r ∈ env.db.releases.rows ↔ r ∈ env'.db.releases.rows)) ∧
        ∀ t, t.orderId ≠ oid → (t ∈ env.db.tickets.rows ↔ t ∈ env'.db.tickets.rows)) := by
  -- The rows of the others in the order of the snapshot.
  let rows (env : Environment) (table : String) : List Json :=
    if table = "refunds" then
      (env.db.refunds.sorted.filter fun r => r.orderId ≠ oid).map RefundRow.toJson
    else if table = "releases" then
      (env.db.releases.sorted.filter fun r => r.orderId ≠ oid).map ReleaseRow.toJson
    else (env.db.tickets.sorted.filter fun t => t.orderId ≠ oid).map TicketRow.toJson
  have listed : ∀ env : Environment, ∀ table ∈ ["refunds", "releases", "tickets"],
      foreignRows (.obj env.snapshot) (.str oid) table = .ok (rows env table) := by
    intro env table member
    simp only [List.mem_cons, List.not_mem_nil, or_false] at member
    rcases member with rfl | rfl | rfl
    · exact foreignRows_map (g := RefundRow.orderId) rfl (fun _ => rfl) oid
    · exact foreignRows_map (g := ReleaseRow.orderId) rfl (fun _ => rfl) oid
    · exact foreignRows_map (g := TicketRow.orderId) rfl (fun _ => rfl) oid
  obtain ⟨failures, changed, none⟩ := exists_changedLists (listed env) (listed env')
  refine ⟨failures, changed, ?_⟩
  rw [none]
  simp only [List.forall_mem_cons, List.not_mem_nil, false_implies, implies_true, and_true, rows,
    if_true, reduceIte, String.reduceEq, exactEqual, exactItems_map_iff RefundRow.exactEqual_iff,
    exactItems_map_iff ReleaseRow.exactEqual_iff, exactItems_map_iff TicketRow.exactEqual_iff,
    Table.filter_sorted_eq_iff]

/-- **What the check decides.** On two snapshots it comes to an end, and it lists no
failure exactly if everything beside the subject is the same. -/
theorem sideEffects_snapshot :
    ∃ failures, sideEffects (.obj env.snapshot) (.obj env'.snapshot) = .ok failures ∧
      (failures = [] ↔ Spared env.subjectId env.db env'.db) := by
  -- The three tables that the check reads from a snapshot.
  have orders : ∀ env : Environment,
      (Json.obj env.snapshot).item "orders" = .ok (.obj env.db.ordersJson) := fun _ => rfl
  have payments : ∀ env : Environment,
      (Json.obj env.snapshot).item "payments" = .ok (.obj env.db.paymentsJson) := fun _ => rfl
  have inventory : ∀ env : Environment,
      (Json.obj env.snapshot).item "inventory" = .ok (.obj env.db.inventoryJson) := fun _ => rfl
  set oid := env.subjectId with subject
  have target : lookup env.db.ordersJson (.str oid) .null =
      .ok (targetJson (env.db.orders.find? oid)) := by
    rw [lookup_str, Database.get?_ordersJson, targetJson]
  -- Each of the five parts comes to an end, and lists nothing exactly if its data is spared.
  obtain ⟨f₁, first, none₁⟩ := exists_changedRows (orders env) (orders env') oid
  obtain ⟨f₂, second, none₂⟩ := exists_changedRows (payments env) (payments env') oid
  obtain ⟨f₃, third, none₃⟩ := exists_columns env env' oid
  obtain ⟨f₄, fourth, none₄⟩ := exists_changedStock (inventory env) (inventory env')
    (env.db.orders.find? oid)
  obtain ⟨f₅, fifth, none₅⟩ := exists_lists env env' oid
  refine ⟨f₁ ++ f₂ ++ f₃ ++ f₄ ++ f₅, ?_, ?_⟩
  · have subject' : (Json.obj env.snapshot).item "subject_id" = .ok (.str oid) := rfl
    rw [sideEffects, subject', orders env]
    simp only [ok_bind, Json.getter, target, first, second, third, fourth, fifth]
    rfl
  · simp only [List.append_eq_nil_iff, none₁, none₂, none₃, none₄, none₅,
      Database.get?_ordersJson, Database.get?_paymentsJson, Database.get?_inventoryJson,
      exactEqual_getD_iff OrderRow.exactEqual_iff (by simp [OrderRow.toJson]),
      exactEqual_getD_iff PaymentRow.exactEqual_iff (by simp [PaymentRow.toJson]),
      pyEq_stock_iff, Option.mem_def]
    constructor
    · rintro ⟨⟨⟨⟨h₁, h₂⟩, h₃⟩, h₄⟩, h₅, h₆, h₇⟩
      exact ⟨h₁, h₂, h₃, h₄, h₅, h₆, h₇⟩
    · rintro ⟨h₁, h₂, h₃, h₄, h₅, h₆, h₇⟩
      exact ⟨⟨⟨⟨h₁, h₂⟩, h₃⟩, h₄⟩, h₅, h₆, h₇⟩

end Snapshots

/-! ### What calls do, whatever order they name -/

/-- How far an order has come. -/
def OrderStatus.rank : OrderStatus → ℕ
  | .paid | .other _ _ => 0
  | .cancelling => 1
  | .cancelled => 2
  | .shipped => 3

/-- Neither the version of an order goes back nor its status, and no refund, release or ticket is
removed. -/
structure Grows (db db' : Database) : Prop where
  known : ∀ k, k ∈ db'.orders ↔ k ∈ db.orders
  versions : ∀ k o, db.orders.find? k = some o →
    ∃ o', db'.orders.find? k = some o' ∧ o.version ≤ o'.version ∧ o.status.rank ≤ o'.status.rank
  refunds : ∀ r ∈ db.refunds.rows, r ∈ db'.refunds.rows
  releases : ∀ r ∈ db.releases.rows, r ∈ db'.releases.rows
  tickets : ∀ t ∈ db.tickets.rows, t ∈ db'.tickets.rows

/-- A change of the data of an order that can be seen for ever. -/
def Marked (k : String) (db db' : Database) : Prop :=
  (∃ o o', db.orders.find? k = some o ∧ db'.orders.find? k = some o' ∧
    (o.version < o'.version ∨ o.status.rank < o'.status.rank)) ∨
    (∃ r ∈ db'.refunds.rows, r.orderId = k ∧ r ∉ db.refunds.rows) ∨
    (∃ r ∈ db'.releases.rows, r.orderId = k ∧ r ∉ db.releases.rows) ∨
    ∃ t ∈ db'.tickets.rows, t.orderId = k ∧ t ∉ db.tickets.rows

section Stores

variable {db db' db'' : Database} {k oid : String}

@[simp] theorem Grows.refl (db : Database) : Grows db db :=
  ⟨fun _ => .rfl, fun _ o found => ⟨o, found, le_rfl, le_rfl⟩, fun _ => id, fun _ => id,
    fun _ => id⟩

theorem Grows.trans (one : Grows db db') (more : Grows db' db'') : Grows db db'' := by
  refine ⟨fun k => (more.known k).trans (one.known k), fun k o found => ?_,
    fun r h => more.refunds r (one.refunds r h), fun r h => more.releases r (one.releases r h),
    fun t h => more.tickets t (one.tickets t h)⟩
  obtain ⟨o', found', le, rank⟩ := one.versions k o found
  obtain ⟨o'', found'', le', rank'⟩ := more.versions k o' found'
  exact ⟨o'', found'', le.trans le', rank.trans rank'⟩

/-- A mark stays, however long the run before and after it. -/
theorem Marked.widen {first last : Database} (before : Grows first db) (marked : Marked k db db')
    (after : Grows db' last) : Marked k first last := by
  rcases marked with ⟨o, o', found, found', less⟩ | ⟨r, new, own, fresh⟩ | ⟨r, new, own, fresh⟩ |
    ⟨t, new, own, fresh⟩
  · have stored : k ∈ first.orders := (before.known k).mp
      (Table.mem_iff.mpr ⟨o, Table.mem_of_find?_eq_some found, Table.key_of_find?_eq_some found⟩)
    obtain ⟨o₀, found₀⟩ := Table.exists_find?_of_mem stored
    obtain ⟨o₁, found₁, le, rank⟩ := before.versions k o₀ found₀
    obtain rfl := Option.some.inj (found.symm.trans found₁)
    obtain ⟨o₂, found₂, le', rank'⟩ := after.versions k o' found'
    exact .inl ⟨o₀, o₂, found₀, found₂, by omega⟩
  · exact .inr (.inl ⟨r, after.refunds r new, own, fun old => fresh (before.refunds r old)⟩)
  · exact .inr (.inr (.inl ⟨r, after.releases r new, own, fun old =>
      fresh (before.releases r old)⟩))
  · exact .inr (.inr (.inr ⟨t, after.tickets t new, own, fun old => fresh (before.tickets t old)⟩))

/-- The data of a marked order is not spared. -/
theorem Marked.not_spared (marked : Marked k db db') (foreign : k ≠ oid) : ¬ Spared oid db db' := by
  intro spared
  rcases marked with ⟨o, o', found, found', less⟩ | ⟨r, new, rfl, fresh⟩ | ⟨r, new, rfl, fresh⟩ |
    ⟨t, new, rfl, fresh⟩
  · have same := spared.orders k foreign
    rw [found, found'] at same
    obtain rfl := Option.some.inj same
    exact less.elim (lt_irrefl _) (lt_irrefl _)
  · exact fresh ((spared.refunds r foreign).mpr new)
  · exact fresh ((spared.releases r foreign).mpr new)
  · exact fresh ((spared.tickets t foreign).mpr new)

theorem Spared.refl (oid : String) (db : Database) : Spared oid db db :=
  ⟨fun _ _ => rfl, fun _ _ => rfl, fun o found => ⟨o, found, rfl⟩, fun _ _ => rfl,
    fun _ _ => .rfl, fun _ _ => .rfl, fun _ _ => .rfl⟩

theorem Spared.trans (one : Spared oid db db') (more : Spared oid db' db'')
    (known : oid ∈ db'.orders → oid ∈ db.orders) : Spared oid db db'' := by
  refine ⟨fun k other => (one.orders k other).trans (more.orders k other),
    fun k other => (one.payments k other).trans (more.payments k other), fun target found => ?_,
    fun sku other => (one.stock sku other).trans (more.stock sku fun target' found' => ?_),
    fun r other => (one.refunds r other).trans (more.refunds r other),
    fun r other => (one.releases r other).trans (more.releases r other),
    fun t other => (one.tickets t other).trans (more.tickets t other)⟩
  · obtain ⟨target', found', same⟩ := one.columns target found
    obtain ⟨target'', found'', same'⟩ := more.columns target' found'
    exact ⟨target'', found'', same'.trans same⟩
  · -- The order was stored before, with the same unit.
    obtain ⟨target, found⟩ := Table.exists_find?_of_mem (known (Table.mem_iff.mpr
      ⟨target', Table.mem_of_find?_eq_some found', Table.key_of_find?_eq_some found'⟩))
    obtain ⟨target₁, found₁, same⟩ := one.columns target found
    obtain rfl := Option.some.inj (found'.symm.trans found₁)
    simp only [OrderRow.identity, Prod.mk.injEq] at same
    exact same.2.2.2.2.1 ▸ other target found

end Stores

/-! ### One effect -/

section Step

variable {db db' : Database} {order : OrderRow}

theorem le_nextVersion (version : Int) : version ≤ nextVersion version := by
  unfold nextVersion
  split_ifs <;> omega

theorem grows_setStatus (found : db.orders.find? order.id = some order) {status : OrderStatus}
    (further : order.status.rank ≤ status.rank) : Grows db (db.setStatus order.id status) := by
  refine ⟨fun k => by simp [Database.setStatus], fun k o known => ?_, fun _ => id, fun _ => id,
    fun _ => id⟩
  rw [Database.find?_setStatus, known]
  split_ifs with own
  · subst own
    obtain rfl := Option.some.inj (found.symm.trans known)
    exact ⟨_, rfl, le_nextVersion _, further⟩
  · exact ⟨o, rfl, le_rfl, le_rfl⟩

theorem spared_setStatus (found : db.orders.find? order.id = some order) (status : OrderStatus) :
    Spared order.id db (db.setStatus order.id status) := by
  refine { Spared.refl order.id db with orders := fun k other => ?_, columns := fun o h => ?_ }
  · rw [Database.find?_setStatus, if_neg other]
  · obtain rfl := Option.some.inj (found.symm.trans h)
    rw [Database.find?_setStatus, if_pos rfl, found]
    exact ⟨_, rfl, rfl⟩

/-- A change of status is marked by the version, or where that is at its end by the status. -/
theorem marked_setStatus (found : db.orders.find? order.id = some order) {status : OrderStatus}
    (further : order.status.rank < status.rank ∨ order.version < 2 ^ 63) :
    Marked order.id db (db.setStatus order.id status) := by
  refine .inl ⟨order, { order with status, version := nextVersion order.version }, found, ?_, ?_⟩
  · rw [Database.find?_setStatus, if_pos rfl, found, Option.map_some]
  · refine further.symm.imp (fun small => ?_) id
    rw [nextVersion, if_pos small]
    exact Int.lt_succ order.version

/-- The shipment of an order is marked, unless it changes nothing. -/
theorem footprint_shipped (found : db.orders.find? order.id = some order) :
    Grows db (db.setStatus order.id .shipped) ∧
      Spared order.id db (db.setStatus order.id .shipped) ∧
      (db.setStatus order.id .shipped = db ∨
        Marked order.id db (db.setStatus order.id .shipped)) := by
  have top : order.status.rank ≤ OrderStatus.shipped.rank := by
    cases order.status <;> simp [OrderStatus.rank]
  refine ⟨grows_setStatus found top, spared_setStatus found _, ?_⟩
  by_cases small : order.version < 2 ^ 63
  · exact .inr (marked_setStatus found (.inr small))
  by_cases already : order.status = .shipped
  · have same := orders_setStatus_of_same found already (not_lt.mp small)
    exact .inl (congrArg (fun orders => { db with orders }) same)
  · refine .inr (marked_setStatus found (.inl (top.lt_of_ne fun equal => already ?_)))
    cases status : order.status <;> rw [status] at equal <;> first | rfl | cases equal

/-- Rows appended for one order are rows of that order. -/
theorem mem_append_iff_of_foreign {ρ : Type} {rows : List ρ} {f : ρ → String} {row r : ρ}
    (foreign : f r ≠ f row) : r ∈ rows ↔ r ∈ rows ++ [row] := by
  have other : r ≠ row := fun same => foreign (congrArg f same)
  simp [other]

/-- The row of an insertion is new. -/
theorem notMem_rows_of_insert? {ρ κ : Type} [DecidableEq κ] {key : ρ → κ} {t t' : Table key}
    {row : ρ} (inserted : t.insert? row = some t') : row ∉ t.rows := fun old =>
  (Table.insert?_eq_some_iff.mp inserted).1 (Table.mem_iff.mpr ⟨row, old, rfl⟩)

/-- **What an effect does to a store**: it only adds, it spares what is not of its
order, and it marks its order if it does anything. -/
theorem Effect.footprint (found : db.orders.find? order.id = some order)
    (effect : Effect db order db') :
    Grows db db' ∧ Spared order.id db db' ∧ (db' = db ∨ Marked order.id db db') := by
  cases effect with
  | unchanged => exact ⟨.refl db, .refl _ db, .inl rfl⟩
  -- A second ticket for the same reason is not stored.
  | ticketed reason =>
    cases inserted : db.tickets.insert? ⟨order.id, reason⟩ with
    | none =>
      have same : db.insertTicket ⟨order.id, reason⟩ = db := by
        rw [Database.insertTicket, inserted]
        rfl
      rw [same]
      exact ⟨.refl db, .refl _ db, .inl rfl⟩
    | some tickets =>
      have after : db.insertTicket ⟨order.id, reason⟩ = { db with tickets } := by
        rw [Database.insertTicket, inserted]
        rfl
      have rows := (Table.insert?_eq_some_iff.mp inserted).2
      rw [after]
      refine ⟨{ Grows.refl db with tickets := fun t old => ?_ },
        { Spared.refl order.id db with tickets := fun t foreign => ?_ },
        .inr (.inr (.inr (.inr ⟨⟨order.id, reason⟩, ?_, rfl, notMem_rows_of_insert? inserted⟩)))⟩
      · simp [rows, old]
      · rw [rows]
        exact mem_append_iff_of_foreign (f := TicketRow.orderId) foreign
      · simp [rows]
  | shipped => exact footprint_shipped found
  | begun paid =>
    have further : order.status.rank < OrderStatus.cancelling.rank := by rw [paid]; decide
    exact ⟨grows_setStatus found further.le, spared_setStatus found _,
      .inr (marked_setStatus found (.inl further))⟩
  | completed started =>
    have further : order.status.rank < OrderStatus.cancelled.rank := by rw [started]; decide
    exact ⟨grows_setStatus found further.le, spared_setStatus found _,
      .inr (marked_setStatus found (.inl further))⟩
  -- A refund adds its row, and changes the payment of its own order only.
  | @refunded key amount payment _ started paid rest positive insertion =>
    obtain ⟨refunds, inserted, rfl⟩ := Database.exists_of_insertRefund? insertion
    have rows := (Table.insert?_eq_some_iff.mp inserted).2
    refine ⟨{ Grows.refl db with refunds := fun r old => ?_ },
      { Spared.refl order.id db with
      refunds := fun r foreign => ?_, payments := fun k other => ?_ },
      .inr (.inr (.inl ⟨⟨key, order.id, amount⟩, ?_, rfl, notMem_rows_of_insert? inserted⟩))⟩
    · simp [Database.addRefunded, rows, old]
    · rw [Database.find?_addRefunded, if_neg other]
    · rw [Database.addRefunded, rows]
      exact mem_append_iff_of_foreign (f := RefundRow.orderId) foreign
    · simp [Database.addRefunded, rows]
  -- A release adds its row, and changes the stock of its own unit only.
  | @released key payment _ started paid full insertion =>
    obtain ⟨releases, inserted, rfl⟩ := Database.exists_of_insertRelease? insertion
    have rows := (Table.insert?_eq_some_iff.mp inserted).2
    refine ⟨{ Grows.refl db with releases := fun r old => ?_ },
      { Spared.refl order.id db with
      releases := fun r foreign => ?_, stock := fun sku other => ?_ },
      .inr (.inr (.inr (.inl
        ⟨⟨order.id, key, order.quantity⟩, ?_, rfl, notMem_rows_of_insert? inserted⟩)))⟩
    · simp [Database.addAvailable, rows, old]
    · rw [Database.find?_addAvailable, if_neg (other order found)]
    · rw [Database.addAvailable, rows]
      exact mem_append_iff_of_foreign (f := ReleaseRow.orderId) foreign
    · simp [Database.addAvailable, rows]

end Step

/-! ### Runs -/

section Run

variable {env : Environment} {calls : List Call}

theorem get?_of_textArg? {args : Fields} {name text : String}
    (given : Environment.textArg? args name = some text) :
    Dict.get? args name = some (.str text) := by
  obtain ⟨given, -⟩ := Option.filter_eq_some_iff.mp given
  obtain ⟨value, read, isText⟩ := Option.bind_eq_some_iff.mp given
  cases value <;> simp_all [asStr?]

/-- **The footprint of a call**: of the order it names, if it has one at all. -/
theorem call_footprint (env : Environment) (c : Call) :
    (env.call c).2.db = env.db ∨ ∃ order : OrderRow, Dict.get? c.args "order_id" =
      some (.str order.id) ∧
      Grows env.db (env.call c).2.db ∧ Spared order.id env.db (env.call c).2.db ∧
      ((env.call c).2.db = env.db ∨ Marked order.id env.db (env.call c).2.db) := by
  rcases env.call_cases c with ⟨-, spent⟩ | ⟨-, reply, env', ran, path, called⟩
  · exact .inl (by rw [spent])
  rw [called]
  cases path with
  | unreached => exact .inl rfl
  | raised => exact .inl rfl
  | @answered tool order _ _ reaches =>
    have effect := Environment.effect_runTool reaches.found c.args tool
    rw [← reaches.dispatch_eq, ran] at effect
    exact .inr ⟨order, get?_of_textArg? reaches.target, effect.footprint reaches.found⟩

theorem grows_call (env : Environment) (c : Call) : Grows env.db (env.call c).2.db := by
  rcases call_footprint env c with same | ⟨-, -, grows, -⟩
  · rw [same]
    exact .refl _
  · exact grows

theorem grows_runAt {m n : ℕ} (later : m ≤ n) :
    Grows (env.runAt calls m).db (env.runAt calls n).db := by
  have keeps : ∀ k c, calls[k]? = some c → Grows (env.runAt calls m).db (env.runAt calls k).db →
      Grows (env.runAt calls m).db ((env.runAt calls k).call c).2.db :=
    fun _ c _ grows => grows.trans (grows_call _ c)
  exact stateAt_kept (P := fun now : Environment => Grows (env.runAt calls m).db now.db)
    keeps later (.refl _)

/-- The call names an order other than the subject. -/
def Environment.NamesOther (env : Environment) (c : Call) : Prop :=
  Dict.get? c.args "order_id" ≠ some (.str env.subjectId)

/-- Some call of the run that names an order other than the subject changes the store. -/
def ForeignChange (env : Environment) (calls : List Call) : Prop :=
  ∃ n c, calls[n]? = some c ∧ env.NamesOther c ∧
    ((env.runAt calls n).call c).2.db ≠ (env.runAt calls n).db

theorem runCalls_eq_runAt (env : Environment) (calls : List Call) :
    env.runCalls calls = env.runAt calls calls.length := by
  rw [Environment.runAt, stateAt, List.take_length]
  rfl

/-- A foreign change can be seen at the end of the run. -/
theorem not_spared_of_foreignChange (change : ForeignChange env calls) :
    ¬ Spared env.subjectId env.db (env.runCalls calls).db := by
  obtain ⟨n, c, here, other, changed⟩ := change
  rcases call_footprint (env.runAt calls n) c with same | ⟨order, named, -, -, same | marked⟩
  · exact absurd same changed
  · exact absurd same changed
  · have next : (env.runAt calls (n + 1)) = ((env.runAt calls n).call c).2 := stateAt_succ here
    have inside : n + 1 ≤ calls.length := (List.getElem?_eq_some_iff.mp here).1
    have foreign : order.id ≠ env.subjectId := fun same => other (named.trans (by rw [same]))
    rw [runCalls_eq_runAt]
    exact (marked.widen (grows_runAt (Nat.zero_le n)) (next ▸ grows_runAt inside)).not_spared
      foreign

/-- A run without a foreign change spares everything beside the subject. -/
theorem spared_of_not_foreignChange (none : ¬ ForeignChange env calls) :
    Spared env.subjectId env.db (env.runCalls calls).db := by
  have keeps : ∀ n c, calls[n]? = some c →
      Spared env.subjectId env.db (env.runAt calls n).db →
      Spared env.subjectId env.db ((env.runAt calls n).call c).2.db := by
    intro n c here spared
    rcases call_footprint (env.runAt calls n) c with same | ⟨order, named, -, step, -⟩
    · rwa [same]
    by_cases other : env.NamesOther c
    · have same : ((env.runAt calls n).call c).2.db = (env.runAt calls n).db :=
        not_not.mp fun changed => none ⟨n, c, here, other, changed⟩
      rwa [same]
    · have own : order.id = env.subjectId := by
        have := named.symm.trans (not_not.mp other)
        simpa using this
      rw [own] at step
      exact spared.trans step ((grows_runAt (Nat.zero_le n)).known _).mp
  rw [runCalls_eq_runAt]
  exact stateAt_kept (P := fun now : Environment => Spared env.subjectId env.db now.db) keeps
    (Nat.zero_le calls.length) (.refl _ _)

/-- The artifact of a run, as far as the check reads it. -/
def Artifact.ofRun (artifact : Artifact) (env : Environment) (calls : List Call) : Artifact :=
  { artifact with
    initialState := env.snapshot
    finalState := some (env.runCalls calls).snapshot
    events := (env.runCalls calls).events }

/-- The check of a run comes to a verdict, and decides whether there was a foreign change. -/
theorem exists_checkSideEffects (env : Environment) (calls : List Call) (artifact : Artifact) :
    ∃ v, checkSideEffects (artifact.ofRun env calls) = .ok v ∧
      (¬ ForeignChange env calls → v.status = .pass) ∧
      (ForeignChange env calls → v.status = .fail) := by
  obtain ⟨failures, ran, none⟩ := sideEffects_snapshot env (env.runCalls calls)
  have exact' : failures = [] ↔ ¬ ForeignChange env calls :=
    none.trans ⟨fun spared change => not_spared_of_foreignChange change spared,
      spared_of_not_foreignChange⟩
  cases failures with
  | nil =>
    have unfolded : checkSideEffects (artifact.ofRun env calls) =
        .ok (verdict "side_effects" true "보호 상태 유지" [] []) := by
      rw [checkSideEffects]
      simp only [Artifact.ofRun, ran]
    exact ⟨_, unfolded, fun _ => rfl, fun change => absurd change (exact'.mp rfl)⟩
  | cons first rest =>
    have unfolded : checkSideEffects (artifact.ofRun env calls) =
        .ok (verdict "side_effects" false "보호 상태 변경: " (first :: rest) []) := by
      rw [checkSideEffects]
      simp only [Artifact.ofRun, ran]
    exact ⟨_, unfolded, fun kept => absurd (exact'.mpr kept) (by simp), fun _ => rfl⟩

/-- A well-formed fixture has an environment if its integers have 64 bits. -/
theorem Fixture.WellFormed.exists_ofFixture {fixture : Fixture} (wf : fixture.WellFormed)
    (fits : fixture.Fits) : (Environment.ofFixture fixture).isSome := by
  obtain ⟨db, loaded, -⟩ := wf.exists_load fits
  rw [Environment.ofFixture, loaded]
  rfl

/-- **The side-effect check is exact.** Whatever the fault and the calls on the environment of a
fixture, it passes if no call that names another order has changed the store, and fails if one
has. -/
theorem checkSideEffects_runCalls {fixture : Fixture} (wf : fixture.WellFormed) :
    (fixture.Fits → (Environment.ofFixture fixture).isSome) ∧
      ∀ env, Environment.ofFixture fixture = some env → ∀ calls artifact, ∃ v,
        checkSideEffects (Artifact.ofRun artifact env calls) = .ok v ∧
          (¬ ForeignChange env calls → v.status = .pass) ∧
          (ForeignChange env calls → v.status = .fail) :=
  ⟨wf.exists_ofFixture, fun _ _ calls artifact => exists_checkSideEffects _ calls artifact⟩

theorem checkSideEffects_runCalls_twoOrders :
    (twoOrders.Fits → (Environment.ofFixture twoOrders).isSome) ∧
      ∀ env, Environment.ofFixture twoOrders = some env → ∀ calls artifact, ∃ v,
        checkSideEffects (Artifact.ofRun artifact env calls) = .ok v ∧
          (¬ ForeignChange env calls → v.status = .pass) ∧
          (ForeignChange env calls → v.status = .fail) :=
  checkSideEffects_runCalls ⟨by decide, by decide, by decide, by decide, by decide, by decide,
    by decide, by decide⟩

end Run

end AgentLabs.BusinessLab
