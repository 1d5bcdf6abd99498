import AgentLabs.BusinessLab.Environment

/-!
# What the tools answer

Every path through a tool once: the guards it has passed, the answer it gives and
the environment it leaves. On an order that is stored a tool raises an exception only
where an integer does not have the 64 bits of the store, and it changes nothing then.
Otherwise a call within the budget has one of these answers.

## Main definitions

* `RefundDue`, `ReleaseDue`: the guards of the two writes to the ledgers
* `Answer`, `Raises`: the paths through the tools, and those that end in an exception

## Main results

* `Environment.runTool_cases`: every tool takes one of the paths
* `Answer.frame`: what no tool touches
* `Environment.path_dispatch`, `Environment.call_cases`: what a call can do
-/

namespace AgentLabs.BusinessLab

open Math Text Environment

/-- A refund that passes the guards: under way, of the whole rest, under a new key. -/
structure RefundDue (env : Environment) (order : OrderRow) (args : Fields) (amount : Int)
    (key : String) (payment : PaymentRow) : Prop where
  amounted : intArg? args "amount_cents" = some amount
  keyed : textArg? args "idempotency_key" = some key
  positive : 0 < amount
  fresh : env.db.refunds.find? key = none
  started : order.status = .cancelling
  found : env.db.payments.find? order.id = some payment
  rest : amount = payment.capturedCents - payment.refundedCents

/-- No other order was released under this key. -/
def Environment.KeyFree (env : Environment) (order : OrderRow) (key : String) : Prop :=
  ∀ prior ∈ env.releaseOfKey? key, prior.orderId = order.id

/-- A release that passes the guards: under way, refunded, not yet made, under a free key. -/
structure ReleaseDue (env : Environment) (order : OrderRow) (args : Fields) (key : String)
    (payment : PaymentRow) : Prop where
  keyed : textArg? args "idempotency_key" = some key
  free : env.KeyFree order key
  unreleased : order.id ∉ env.db.releases
  started : order.status = .cancelling
  found : env.db.payments.find? order.id = some payment
  full : payment.refundedCents = payment.capturedCents

/-- The injected shipment is still to come. -/
def Environment.Armed (env : Environment) : Prop :=
  env.fault = .shipBeforeCancel ∧ env.faultUsed = false

instance (env : Environment) : Decidable env.Armed := inferInstanceAs (Decidable (_ ∧ _))

/-- The paths through the tools on a stored order: the answer and the environment left. -/
inductive Answer (env : Environment) (order : OrderRow) (args : Fields) :
    Tool → Json → Environment → Prop
  | orderRead : Answer env order args .getOrder (okAnswer [("order", order.toJson)]) env
  | paymentRead : Answer env order args .getPayment
      (okAnswer [("payment", (env.db.payments.find? order.id).elim Json.null
      PaymentRow.toJson)]) env
  | policyRead : Answer env order args .checkCancelPolicy (policyAnswer order) env
  | ticketInvalid (noReason : textArg? args "reason" = none) :
      Answer env order args .createTicket (refusal "error" "INVALID_REASON") env
  | ticketed {reason : String} (given : textArg? args "reason" = some reason) :
      Answer env order args .createTicket (okAnswer [("ticket_id", .str ("ticket-" ++ order.id))])
        { env with db := env.db.insertTicket ⟨order.id, reason⟩ }
  | versionInvalid (noVersion : intArg? args "expected_version" = none) :
      Answer env order args .beginCancellation (refusal "error" "INVALID_VERSION") env
  | shippedConflict {expected : Int} (version : intArg? args "expected_version" = some expected)
      (armed : env.Armed) (stale : nextVersion order.version ≠ expected) :
      Answer env order args .beginCancellation (refusal "error" "VERSION_CONFLICT")
        { env with db := env.db.setStatus order.id .shipped, faultUsed := true }
  | shippedDenied {expected : Int} (version : intArg? args "expected_version" = some expected)
      (armed : env.Armed) (guessed : nextVersion order.version = expected) :
      Answer env order args .beginCancellation (refusal "denied" "NOT_CANCELLABLE")
        { env with db := env.db.setStatus order.id .shipped, faultUsed := true }
  | beginConflict {expected : Int} (version : intArg? args "expected_version" = some expected)
      (quiet : ¬ env.Armed) (stale : order.version ≠ expected) :
      Answer env order args .beginCancellation (refusal "error" "VERSION_CONFLICT") env
  | begunBefore (version : intArg? args "expected_version" = some order.version)
      (quiet : ¬ env.Armed) (started : order.status = .cancelling) :
      Answer env order args .beginCancellation (okAnswer [("already_started", .bool true)]) env
  | beginDenied (version : intArg? args "expected_version" = some order.version)
      (quiet : ¬ env.Armed) (notStarted : order.status ≠ .cancelling)
      (notPaid : order.status ≠ .paid) :
      Answer env order args .beginCancellation (refusal "denied" "NOT_CANCELLABLE") env
  | begun (version : intArg? args "expected_version" = some order.version)
      (quiet : ¬ env.Armed) (paid : order.status = .paid) (fits : Fits64 order.version) :
      Answer env order args .beginCancellation (okAnswer [])
        { env with db := env.db.setStatus order.id .cancelling }
  | refundInvalid (invalid : ∀ amount key, intArg? args "amount_cents" = some amount →
        textArg? args "idempotency_key" = some key → amount ≤ 0) :
      Answer env order args .refundPayment (refusal "error" "INVALID_REFUND_ARGUMENT") env
  | refundConflict {key : String} {prior : RefundRow}
      (keyed : textArg? args "idempotency_key" = some key)
      (used : env.db.refunds.find? key = some prior) :
      Answer env order args .refundPayment (refusal "error" "IDEMPOTENCY_CONFLICT") env
  | refundReplayed {amount : Int} {key : String}
      (amounted : intArg? args "amount_cents" = some amount)
      (keyed : textArg? args "idempotency_key" = some key)
      (used : env.db.refunds.find? key = some ⟨key, order.id, amount⟩) :
      Answer env order args .refundPayment
        (okAnswer [("refund_cents", .int amount), ("replayed", .bool true)]) env
  | refundDenied {code : String}
      (named : code = "CANCELLATION_NOT_STARTED" ∨ code = "REFUND_BALANCE_MISMATCH")
      (undue : ∀ amount key payment, ¬ RefundDue env order args amount key payment) :
      Answer env order args .refundPayment (refusal "denied" code) env
  | refundUnavailable {amount : Int} {key : String} {payment : PaymentRow}
      (due : RefundDue env order args amount key payment) (down : env.fault = .paymentUnavailable) :
      Answer env order args .refundPayment timeout env
  | refundLost {amount : Int} {key : String} {payment : PaymentRow}
      (due : RefundDue env order args amount key payment)
      (fault : env.fault = .refundTimeoutBeforeCommit) (unused : env.faultUsed = false) :
      Answer env order args .refundPayment timeout { env with faultUsed := true }
  | refundedUnseen {amount : Int} {key : String} {payment : PaymentRow} {db : Database}
      (due : RefundDue env order args amount key payment)
      (fault : env.fault = .refundTimeoutAfterCommit) (unused : env.faultUsed = false)
      (inserted : env.db.insertRefund? ⟨key, order.id, amount⟩ = some db) :
      Answer env order args .refundPayment timeout
        { env with db := db.addRefunded order.id amount, faultUsed := true }
  | refunded {amount : Int} {key : String} {payment : PaymentRow} {db : Database}
      (due : RefundDue env order args amount key payment)
      (up : env.fault ≠ .paymentUnavailable)
      (seen : ¬ (env.fault = .refundTimeoutBeforeCommit ∧ env.faultUsed = false))
      (kept : ¬ (env.fault = .refundTimeoutAfterCommit ∧ env.faultUsed = false))
      (inserted : env.db.insertRefund? ⟨key, order.id, amount⟩ = some db) :
      Answer env order args .refundPayment
        (okAnswer [("refund_cents", .int amount), ("replayed", .bool false)])
        { env with db := db.addRefunded order.id amount }
  | releaseInvalid (noKey : textArg? args "idempotency_key" = none) :
      Answer env order args .releaseStock (refusal "error" "INVALID_IDEMPOTENCY_KEY") env
  | releaseConflict {key : String} {prior : ReleaseRow}
      (keyed : textArg? args "idempotency_key" = some key)
      (used : env.releaseOfKey? key = some prior) (other : prior.orderId ≠ order.id) :
      Answer env order args .releaseStock (refusal "error" "IDEMPOTENCY_CONFLICT") env
  | releaseReplayed {key : String} (keyed : textArg? args "idempotency_key" = some key)
      (free : env.KeyFree order key) (released : order.id ∈ env.db.releases) :
      Answer env order args .releaseStock (okAnswer [("replayed", .bool true)]) env
  | releaseDenied {key : String} (keyed : textArg? args "idempotency_key" = some key)
      (free : env.KeyFree order key) (unreleased : order.id ∉ env.db.releases)
      (undue : order.status ≠ .cancelling ∨ env.refundComplete order.id = false) :
      Answer env order args .releaseStock (refusal "denied" "REFUND_NOT_CONFIRMED") env
  | released {key : String} {payment : PaymentRow} {db : Database}
      (due : ReleaseDue env order args key payment)
      (inserted : env.db.insertRelease? ⟨order.id, key, order.quantity⟩ = some db) :
      Answer env order args .releaseStock
        (okAnswer [("released_quantity", .int order.quantity), ("replayed", .bool false)])
        { env with db := db.addAvailable order.sku order.quantity }
  | completedBefore (already : order.status = .cancelled) :
      Answer env order args .completeCancellation (okAnswer [("already_completed", .bool true)]) env
  | completeDenied (open' : order.status ≠ .cancelled)
      (incomplete : order.status ≠ .cancelling ∨ env.refundComplete order.id = false ∨
        order.id ∉ env.db.releases) :
      Answer env order args .completeCancellation (refusal "denied" "INCOMPLETE_SAGA") env
  | completed {payment : PaymentRow} (started : order.status = .cancelling)
      (found : env.db.payments.find? order.id = some payment)
      (full : payment.refundedCents = payment.capturedCents)
        (stocked : order.id ∈ env.db.releases) :
      Answer env order args .completeCancellation (okAnswer [("order_status", .str "cancelled")])
        { env with db := env.db.setStatus order.id .cancelled }

/-- What no tool touches. -/
structure Environment.Frame (env env' : Environment) : Prop where
  actorId : env'.actorId = env.actorId
  subjectId : env'.subjectId = env.subjectId
  fault : env'.fault = env.fault
  events : env'.events = env.events
  turnIndex : env'.turnIndex = env.turnIndex

theorem Answer.frame {env env' : Environment} {order : OrderRow} {args : Fields} {tool : Tool}
    {result : Json} (answer : Answer env order args tool result env') : Frame env env' := by
  cases answer <;> exact ⟨rfl, rfl, rfl, rfl, rfl⟩

/-- The paths that bind an integer of more than 64 bits. -/
inductive Raises (env : Environment) (order : OrderRow) (args : Fields) : Tool → Prop
  | begin (version : intArg? args "expected_version" = some order.version)
      (quiet : ¬ env.Armed) (paid : order.status = .paid) (large : ¬ Fits64 order.version) :
      Raises env order args .beginCancellation
  | refund {amount : Int} {key : String} {payment : PaymentRow}
      (due : RefundDue env order args amount key payment)
      (up : env.fault ≠ .paymentUnavailable)
      (seen : ¬ (env.fault = .refundTimeoutBeforeCommit ∧ env.faultUsed = false))
      (large : ¬ Fits64 amount) :
      Raises env order args .refundPayment

/-- A tool answers, by one of the paths, or raises and leaves everything. -/
def Answers (env : Environment) (order : OrderRow) (args : Fields) (tool : Tool)
    (reply : Reply) : Prop :=
  (∃ result, reply.1 = .ok result ∧ Answer env order args tool result reply.2) ∨
    reply = (.error .overflowError, env) ∧ Raises env order args tool

namespace Environment

variable {env : Environment} {order : OrderRow} {args : Fields}

theorem answers_createTicket (env : Environment) (order : OrderRow) (args : Fields) :
    Answers env order args .createTicket (env.createTicket order args) := by
  unfold createTicket
  cases given : textArg? args "reason" with
  | none => exact .inl ⟨_, rfl, .ticketInvalid given⟩
  | some reason => exact .inl ⟨_, rfl, .ticketed given⟩

theorem answers_begin (found : env.db.orders.find? order.id = some order) (args : Fields) :
    Answers env order args .beginCancellation (env.begin order args) := by
  unfold begin
  cases version : intArg? args "expected_version" with
  | none => exact .inl ⟨_, rfl, .versionInvalid version⟩
  | some expected =>
    by_cases armed : env.fault = .shipBeforeCancel ∧ env.faultUsed = false
    · -- The order is now shipped, so neither of the two good answers is left.
      simp only [shipBeforeCancel, if_pos armed, Database.find?_setStatus, found, if_true,
        Option.map_some]
      by_cases stale : nextVersion order.version = expected
      · simp only [stale, ne_eq, not_true_eq_false, if_false, reduceCtorEq, not_false_eq_true,
          if_true]
        exact .inl ⟨_, rfl, .shippedDenied version armed stale⟩
      · simp only [ne_eq, stale, not_false_eq_true, if_true]
        exact .inl ⟨_, rfl, .shippedConflict version armed stale⟩
    · simp only [shipBeforeCancel, armed, if_false, found]
      split_ifs with stale started notPaid fits
      · exact .inl ⟨_, rfl, .beginConflict version armed stale⟩
      · exact .inl ⟨_, rfl, .begunBefore (not_not.mp stale ▸ version) armed started⟩
      · exact .inl ⟨_, rfl, .beginDenied (not_not.mp stale ▸ version) armed started notPaid⟩
      · obtain rfl := not_not.mp stale
        exact .inl ⟨_, rfl, .begun version armed (not_not.mp notPaid) fits⟩
      · obtain rfl := not_not.mp stale
        exact .inr ⟨rfl, .begin version armed (not_not.mp notPaid) fits⟩

theorem answers_refund (env : Environment) (order : OrderRow) (args : Fields) :
    Answers env order args .refundPayment (env.refund order args) := by
  unfold refund
  split
  · case h_1 amount key amounted keyed =>
    by_cases empty : amount ≤ 0
    · rw [if_pos empty]
      refine .inl ⟨_, rfl, .refundInvalid fun amount' _ amounted' _ => ?_⟩
      rwa [Option.some.inj (amounted.symm.trans amounted')] at empty
    rw [if_neg empty]
    cases used : env.db.refunds.find? key with
    | some prior =>
      dsimp only
      by_cases other : prior.orderId ≠ order.id ∨ prior.amountCents ≠ amount
      · rw [if_pos other]
        exact .inl ⟨_, rfl, .refundConflict keyed used⟩
      · rw [if_neg other]
        simp only [not_or, not_not] at other
        have same : prior = ⟨key, order.id, amount⟩ := by
          obtain ⟨stored, orderId, amountCents⟩ := prior
          obtain rfl : stored = key := Table.key_of_find?_eq_some used
          rw [RefundRow.mk.injEq]
          exact ⟨rfl, other.1, other.2⟩
        exact .inl ⟨_, rfl, .refundReplayed amounted keyed (same ▸ used)⟩
    | none =>
      dsimp only
      -- A due refund has these arguments and finds this payment.
      have exactly : ∀ {amount' key' payment}, RefundDue env order args amount' key' payment →
          order.status = .cancelling ∧ env.db.payments.find? order.id = some payment ∧
            amount = payment.capturedCents - payment.refundedCents := fun due =>
        ⟨due.started, due.found,
          (Option.some.inj (amounted.symm.trans due.amounted)).trans due.rest⟩
      by_cases started : order.status = .cancelling
      swap
      · rw [if_pos started]
        exact .inl ⟨_, rfl, .refundDenied (.inl rfl) fun _ _ _ due => started (exactly due).1⟩
      rw [if_neg (not_not.mpr started)]
      cases found : env.db.payments.find? order.id with
      | none =>
        refine .inl ⟨_, rfl, .refundDenied (.inr rfl) fun _ _ _ due => ?_⟩
        have := (exactly due).2.1
        rw [found] at this
        exact absurd this (by simp)
      | some payment =>
        dsimp only
        by_cases rest : amount = payment.capturedCents - payment.refundedCents
        swap
        · rw [if_pos rest]
          refine .inl ⟨_, rfl, .refundDenied (.inr rfl) fun _ _ _ due => rest ?_⟩
          obtain ⟨-, same, rest'⟩ := exactly due
          rwa [Option.some.inj (found.symm.trans same)]
        rw [if_neg (not_not.mpr rest)]
        have due : RefundDue env order args amount key payment :=
          ⟨amounted, keyed, by omega, used, started, found, rest⟩
        by_cases down : env.fault = .paymentUnavailable
        · rw [if_pos down]
          exact .inl ⟨_, rfl, .refundUnavailable due down⟩
        rw [if_neg down]
        by_cases lost : env.fault = .refundTimeoutBeforeCommit ∧ env.faultUsed = false
        · rw [if_pos lost]
          exact .inl ⟨_, rfl, .refundLost due lost.1 lost.2⟩
        rw [if_neg lost]
        by_cases large : Fits64 amount
        swap
        · rw [if_pos large]
          exact .inr ⟨rfl, .refund due down lost large⟩
        rw [if_neg (not_not.mpr large)]
        obtain ⟨db, inserted⟩ : ∃ db, env.db.insertRefund? ⟨key, order.id, amount⟩ = some db := by
          cases insertion : env.db.refunds.insert? ⟨key, order.id, amount⟩ with
          | none =>
            exact absurd (Table.insert?_eq_none_iff.mp insertion) (Table.find?_eq_none_iff.mp used)
          | some refunds => exact ⟨_, by rw [Database.insertRefund?, insertion]; rfl⟩
        rw [inserted]
        dsimp only
        by_cases unseen : env.fault = .refundTimeoutAfterCommit ∧ env.faultUsed = false
        · rw [if_pos unseen]
          exact .inl ⟨_, rfl, .refundedUnseen due unseen.1 unseen.2 inserted⟩
        · rw [if_neg unseen]
          exact .inl ⟨_, rfl, .refunded due down lost unseen inserted⟩
  · case h_2 invalid =>
    exact .inl ⟨_, rfl, .refundInvalid fun amount key amounted keyed =>
      absurd keyed (invalid amount key amounted)⟩

/-- A stored release is found under its key. -/
theorem exists_releaseOfKey? {key : String}
    (used : key ∈ env.db.releases.rows.map ReleaseRow.operationKey) :
    ∃ prior, env.releaseOfKey? key = some prior ∧ prior ∈ env.db.releases.rows := by
  obtain ⟨row, stored, rfl⟩ := List.mem_map.mp used
  obtain ⟨prior, found⟩ : ∃ prior, env.releaseOfKey? row.operationKey = some prior := by
    rw [← Option.isSome_iff_exists, releaseOfKey?, List.find?_isSome]
    exact ⟨row, stored, by simp⟩
  exact ⟨prior, found, List.mem_of_find?_eq_some found⟩

theorem answers_release (env : Environment) (order : OrderRow) (args : Fields) :
    Answers env order args .releaseStock (env.release order args) := by
  unfold release
  cases keyed : textArg? args "idempotency_key" with
  | none => exact .inl ⟨_, rfl, .releaseInvalid keyed⟩
  | some key =>
    dsimp only
    have free : ¬ (∃ prior ∈ env.releaseOfKey? key, prior.orderId ≠ order.id) →
        env.KeyFree order key := fun none prior used =>
      not_not.mp fun other => none ⟨prior, used, other⟩
    split_ifs with conflict replayed undue
    · obtain ⟨prior, used, other⟩ := conflict
      exact .inl ⟨_, rfl, .releaseConflict keyed used other⟩
    · exact .inl ⟨_, rfl, .releaseReplayed keyed (free conflict) replayed⟩
    · exact .inl ⟨_, rfl, .releaseDenied keyed (free conflict) replayed undue⟩
    rw [not_or, not_not, Bool.not_eq_false] at undue
    obtain ⟨payment, found, full⟩ := exists_payment_of_refundComplete undue.2
    have due : ReleaseDue env order args key payment :=
      ⟨keyed, free conflict, replayed, undue.1, found, full⟩
    -- Neither the order nor the key is in use, so the insertion goes through.
    obtain ⟨db, inserted⟩ : ∃ db,
        env.db.insertRelease? ⟨order.id, key, order.quantity⟩ = some db := by
      have fresh : key ∉ env.db.releases.rows.map ReleaseRow.operationKey := by
        intro used
        obtain ⟨prior, found, stored⟩ := exists_releaseOfKey? used
        by_cases own : prior.orderId = order.id
        · exact replayed (own ▸ Table.mem_iff.mpr ⟨prior, stored, rfl⟩)
        · exact conflict ⟨prior, found, own⟩
      unfold Database.insertRelease?
      rw [if_neg fresh]
      cases insertion : env.db.releases.insert? ⟨order.id, key, order.quantity⟩ with
      | none => exact absurd (Table.insert?_eq_none_iff.mp insertion) replayed
      | some releases => exact ⟨_, rfl⟩
    rw [inserted]
    exact .inl ⟨_, rfl, .released due inserted⟩

theorem answers_complete (env : Environment) (order : OrderRow) (args : Fields) :
    Answers env order args .completeCancellation (env.complete order) := by
  unfold complete
  split_ifs with already incomplete
  · exact .inl ⟨_, rfl, .completedBefore already⟩
  · exact .inl ⟨_, rfl, .completeDenied already incomplete⟩
  · simp only [not_or, not_not, Bool.not_eq_false] at incomplete
    obtain ⟨payment, found, full⟩ := exists_payment_of_refundComplete incomplete.2.1
    exact .inl ⟨_, rfl, .completed incomplete.1 found full incomplete.2.2⟩

/-- **Every tool takes one of the paths.** -/
theorem runTool_cases (found : env.db.orders.find? order.id = some order) (args : Fields)
    (tool : Tool) : Answers env order args tool (env.runTool order args tool) := by
  cases tool with
  | getOrder => exact .inl ⟨_, rfl, .orderRead⟩
  | getPayment => exact .inl ⟨_, rfl, .paymentRead⟩
  | checkCancelPolicy => exact .inl ⟨_, rfl, .policyRead⟩
  | createTicket => exact answers_createTicket env order args
  | beginCancellation => exact answers_begin found args
  | refundPayment => exact answers_refund env order args
  | releaseStock => exact answers_release env order args
  | completeCancellation => exact answers_complete env order args

/-- The call reaches a tool on an order of the actor. -/
structure Reaches (env : Environment) (name : String) (args : Fields) (tool : Tool)
    (order : OrderRow) : Prop where
  tool : Tool.ofName? name = some tool
  target : textArg? args "order_id" = some order.id
  found : env.db.orders.find? order.id = some order
  own : order.customerId = env.actorId

/-- The answers to a call that reaches no tool. -/
inductive Unreached (env : Environment) (name : String) (args : Fields) : Json → Prop
  | unknownTool (unknown : Tool.ofName? name = none) :
      Unreached env name args (refusal "error" "UNKNOWN_TOOL")
  | invalidOrderId (invalid : textArg? args "order_id" = none) :
      Unreached env name args (refusal "error" "INVALID_ORDER_ID")
  | notFound {oid : String} (target : textArg? args "order_id" = some oid)
      (missing : env.db.orders.find? oid = none) :
      Unreached env name args (refusal "error" "NOT_FOUND")
  | forbidden {order : OrderRow} (target : textArg? args "order_id" = some order.id)
      (found : env.db.orders.find? order.id = some order)
      (foreign : order.customerId ≠ env.actorId) :
      Unreached env name args (refusal "denied" "FORBIDDEN")

/-- **What a dispatch can do.** -/
inductive Path (env : Environment) (name : String) (args : Fields) :
    Except ServiceError Json → Environment → Prop
  | unreached {result : Json} (unreached : Unreached env name args result) :
      Path env name args (.ok result) env
  | answered {tool : Tool} {order : OrderRow} {result : Json} {env' : Environment}
      (reaches : env.Reaches name args tool order)
      (answer : Answer env order args tool result env') :
      Path env name args (.ok result) env'
  | raised {tool : Tool} {order : OrderRow} (reaches : env.Reaches name args tool order)
      (raises : Raises env order args tool) :
      Path env name args (.error .overflowError) env

theorem path_dispatch (env : Environment) (name : String) (args : Fields) :
    Path env name args (env.dispatch name args).1 (env.dispatch name args).2 := by
  unfold dispatch
  cases known : Tool.ofName? name with
  | none => exact .unreached (.unknownTool known)
  | some tool =>
    cases target : textArg? args "order_id" with
    | none => exact .unreached (.invalidOrderId target)
    | some oid =>
      cases found : env.db.orders.find? oid with
      | none =>
        simp only [found]
        exact .unreached (.notFound target found)
      | some order =>
        obtain rfl := Table.key_of_find?_eq_some found
        simp only [found]
        -- An order of another customer is refused before the tool runs.
        split_ifs with foreign
        · exact .unreached (.forbidden target found foreign)
        · have reaches : env.Reaches name args tool order :=
            ⟨known, target, found, not_not.mp foreign⟩
          rcases runTool_cases found args tool with ⟨result, ok, answer⟩ | ⟨raised, raises⟩
          · rw [ok]
            exact .answered reaches answer
          · rw [raised]
            exact .raised reaches raises

/-- No dispatch touches the frame. -/
theorem Path.frame {env env' : Environment} {name : String} {args : Fields}
    {reply : Except ServiceError Json} (path : Path env name args reply env') :
    Frame env env' := by
  cases path with
  | answered _ answer => exact answer.frame
  | _ => exact ⟨rfl, rfl, rfl, rfl, rfl⟩

/-- The record of a call. -/
def eventOf (env : Environment) (c : Call) (result : Json) : Event where
  stamp := c.stamp
  step := env.events.length + 1
  tool := c.tool
  args := c.args
  result
  callId := c.callId
  turnIndex := env.turnIndex

/-- **What a call can do**: nothing once the budget is used up, and otherwise a
dispatch, recorded with its reply. -/
theorem call_cases (env : Environment) (c : Call) :
    (maxToolCalls ≤ env.events.length ∧ env.call c = (.error .toolBudgetExceeded, env)) ∨
      (env.events.length < maxToolCalls ∧ ∃ reply env',
        env.dispatch c.tool c.args = (reply, env') ∧ Path env c.tool c.args reply env' ∧
          env.call c = (reply.mapError .service,
            { env' with events := env.events ++ [env.eventOf c (recorded reply)] })) := by
  unfold call
  split_ifs with spent
  · exact .inl ⟨spent, rfl⟩
  · have path := env.path_dispatch c.tool c.args
    refine .inr ⟨Nat.lt_of_not_le spent, (env.dispatch c.tool c.args).1,
      (env.dispatch c.tool c.args).2, rfl, path, ?_⟩
    simp only [eventOf, path.frame.events, path.frame.turnIndex]

/-- What a call within the budget does. -/
theorem call_path (env : Environment) (c : Call) (room : env.events.length < maxToolCalls) :
    ∃ reply env', Path env c.tool c.args reply env' ∧ env.call c = (reply.mapError .service,
      { env' with events := env.events ++ [env.eventOf c (recorded reply)] }) := by
  rcases env.call_cases c with ⟨spent, -⟩ | ⟨-, reply, left, -, path, called⟩
  · exact absurd room (Nat.not_lt.mpr spent)
  · exact ⟨reply, left, path, called⟩

/-- What a call that reaches a tool dispatches to. -/
theorem Reaches.dispatch_eq {env : Environment} {name : String} {args : Fields} {tool : Tool}
    {order : OrderRow} (reaches : env.Reaches name args tool order) :
    env.dispatch name args = env.runTool order args tool := by
  unfold dispatch
  simp only [reaches.tool, reaches.target, reaches.found, reaches.own, ne_eq,
    not_true_eq_false, if_false]

/-- A call reaches one tool, on one order. -/
theorem Reaches.unique {env : Environment} {name : String} {args : Fields} {tool tool' : Tool}
    {order order' : OrderRow} (one : env.Reaches name args tool order)
    (other : env.Reaches name args tool' order') : tool = tool' ∧ order = order' := by
  have target : order.id = order'.id := Option.some.inj (one.target.symm.trans other.target)
  have found := one.found
  rw [target] at found
  exact ⟨Option.some.inj (one.tool.symm.trans other.tool),
    Option.some.inj (found.symm.trans other.found)⟩

/-- A call that reaches a tool is not turned away before it. -/
theorem Reaches.not_unreached {env : Environment} {name : String} {args : Fields} {tool : Tool}
    {order : OrderRow} {result : Json} (reaches : env.Reaches name args tool order) :
    ¬ Unreached env name args result := by
  rintro (unknown | invalid | ⟨target, missing⟩ | ⟨target, found, foreign⟩)
  · simp [reaches.tool] at unknown
  · simp [reaches.target] at invalid
  · obtain rfl := Option.some.inj (reaches.target.symm.trans target)
    simp [reaches.found] at missing
  · have same : order.id = _ := Option.some.inj (reaches.target.symm.trans target)
    rw [← same, reaches.found] at found
    exact foreign (Option.some.inj found ▸ reaches.own)

/-- The name that reached a tool is the name of that tool only. -/
theorem Reaches.tool_eq {env : Environment} {name : String} {args : Fields} {tool tool' : Tool}
    {order : OrderRow} (reaches : env.Reaches name args tool order)
    (known : Tool.ofName? name = some tool') : tool = tool' :=
  Option.some.inj (reaches.tool.symm.trans known)

end Environment

end AgentLabs.BusinessLab
