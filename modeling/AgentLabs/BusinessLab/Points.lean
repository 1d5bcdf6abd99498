import AgentLabs.BusinessLab.Answers
import AgentLabs.BusinessLab.Scripted

/-!
# The calls of the scripted driver

What is known of the service at a point of the driver's work is gathered in one record,
so that a call is one lemma: what it answers, and what is known after it.

## Main definitions

* `Exchange`: a call and its answer
* `At`: what is known of the service at a point of a course

## Main results

* `At.getOrder`, `At.begin`, `At.refund`, …: one call each
-/

namespace AgentLabs.BusinessLab

open Math Text Json

/-- A call and its answer. -/
structure Exchange where
  tool : String
  args : Fields
  result : Json

/-- What an event records of the call. -/
def Event.exchange (event : Event) : Exchange := ⟨event.tool, event.args, event.result⟩

/-! ### The calls of the driver -/

section Exchanges

variable (oid : String)

/-- `get_order`. -/
def orderShown (order : OrderRow) : Exchange :=
  ⟨"get_order", [("order_id", .str oid)], okAnswer [("order", order.toJson)]⟩

/-- `get_payment`. -/
def paymentShown (payment : PaymentRow) : Exchange :=
  ⟨"get_payment", [("order_id", .str oid)], okAnswer [("payment", payment.toJson)]⟩

/-- `check_cancel_policy`. -/
def policyShown (order : OrderRow) : Exchange :=
  ⟨"check_cancel_policy", [("order_id", .str oid)], Environment.policyAnswer order⟩

/-- `begin_cancellation`, with the version of the order. -/
def beginTried (version : Int) (result : Json) : Exchange :=
  ⟨"begin_cancellation", [("order_id", .str oid), ("expected_version", .int version)], result⟩

/-- `refund_payment`. -/
def refundTried (key : String) (amount : Int) (result : Json) : Exchange :=
  ⟨"refund_payment", [("order_id", .str oid), ("amount_cents", .int amount),
    ("idempotency_key", .str key)], result⟩

/-- `release_stock`. -/
def releaseTried (result : Json) : Exchange :=
  ⟨"release_stock", [("order_id", .str oid), ("idempotency_key", .str (stockKey oid))], result⟩

/-- `complete_cancellation`. -/
def completionTried (result : Json) : Exchange :=
  ⟨"complete_cancellation", [("order_id", .str oid)], result⟩

/-- `create_ticket`. -/
def ticketOpened (reason : String) : Exchange :=
  ⟨"create_ticket", [("order_id", .str oid), ("reason", .str reason)],
    okAnswer [("ticket_id", .str ("ticket-" ++ oid))]⟩

end Exchanges

/-! ### A point of a course -/

/-- What is known of the service at a point of a course: the order and its payment, the
ledgers, whether the fault is used, and the exchanges since the start. -/
structure At (start : Environment) (oid : String) (order : OrderRow) (payment : PaymentRow)
    (used : Bool) (refunds : Table RefundRow.operationKey) (released : Table ReleaseRow.orderId)
    (xs : List Exchange) (env : Environment) : Prop where
  text : isBlank oid = false
  actorId : env.actorId = start.actorId
  subjectId : env.subjectId = start.subjectId
  fault : env.fault = start.fault
  faultUsed : env.faultUsed = used
  found : env.db.orders.find? oid = some order
  own : order.customerId = start.actorId
  paid : env.db.payments.find? oid = some payment
  refunds : env.db.refunds = refunds
  released : env.db.releases = released
  events : env.events.map Event.exchange = start.events.map Event.exchange ++ xs

section Calls

variable {stamps : ℕ → Stamp} {start env env' : Environment} {oid : String}
  {order order' : OrderRow}
  {payment payment' : PaymentRow} {used used' : Bool}
    {refunds refunds' : Table RefundRow.operationKey}
  {released released' : Table ReleaseRow.orderId} {xs : List Exchange} {name : String} {tool : Tool}
  {args : Fields} {result : Json}

theorem At.length_events (now : At start oid order payment used refunds released xs env) :
    env.events.length = start.events.length + xs.length := by
  have := congrArg List.length now.events
  simpa using this

theorem At.id (now : At start oid order payment used refunds released xs env) : order.id = oid :=
  Table.key_of_find?_eq_some now.found

theorem textArg?_of_get? {text : String} (given : Dict.get? args name = some (.str text))
    (visible : isBlank text = false) : Environment.textArg? args name = some text := by
  simp [Environment.textArg?, given, asStr?, visible]

/-- A call that reaches a tool on the order and does not raise is answered by it, and is
recorded. -/
theorem At.call (now : At start oid order payment used refunds released xs env)
    (room : start.events.length + xs.length < maxToolCalls) (stamps : ℕ → Stamp) (name : String)
    (args : Fields) (known : Tool.ofName? name = some tool)
    (named : Dict.get? args "order_id" = some (.str oid)) (total : ¬ Raises env order args tool) :
    ∃ result env' event, Answer env order args tool result env' ∧
      event.exchange = ⟨name, args, result⟩ ∧
      Program.Ends (callTool stamps name args) env result
        { env' with events := env.events ++ [event] } := by
  have target : Environment.textArg? args "order_id" = some order.id := by
    rw [now.id]
    exact textArg?_of_get? named now.text
  have reaches : env.Reaches name args tool order :=
    ⟨known, target, now.id ▸ now.found, now.own.trans now.actorId.symm⟩
  let c : Call := { stamp := stamps env.events.length, tool := name, args }
  obtain ⟨reply, left, path, called⟩ := env.call_path c (by rw [now.length_events]; omega)
  cases path with
  -- The call reaches the tool and does not raise, so only an answer is left.
  | unreached unreached => exact absurd unreached reaches.not_unreached
  | raised reached raises =>
    obtain ⟨rfl, rfl⟩ := reached.unique reaches
    exact absurd raises total
  | @answered _ _ result _ reached answer =>
    obtain ⟨rfl, rfl⟩ := reached.unique reaches
    refine ⟨result, left, env.eventOf c result, answer, rfl, ?_⟩
    change ((env.call c).1.mapError ScriptError.call, (env.call c).2) = _
    rw [called]
    rfl

/-- What is known after a call: what no tool touches stays. -/
theorem At.next {event : Event} (now : At start oid order payment used refunds released xs env)
    (frame : Environment.Frame env env') (shape : event.exchange = ⟨name, args, result⟩)
    (faultUsed : env'.faultUsed = used') (found : env'.db.orders.find? oid = some order')
    (own : order'.customerId = order.customerId) (paid : env'.db.payments.find? oid = some payment')
    (refunded : env'.db.refunds = refunds') (stocked : env'.db.releases = released') :
    At start oid order' payment' used' refunds' released' (xs ++ [⟨name, args, result⟩])
      { env' with events := env.events ++ [event] } := by
  refine ⟨now.text, frame.actorId.trans now.actorId, frame.subjectId.trans now.subjectId,
    frame.fault.trans now.fault, faultUsed, found, own.trans now.own, paid, refunded, stocked, ?_⟩
  rw [List.map_append, now.events, List.map_singleton, shape, List.append_assoc]

/-- What is known after a call that leaves the environment as it is. -/
theorem At.same {event : Event} (now : At start oid order payment used refunds released xs env)
    (shape : event.exchange = ⟨name, args, result⟩) :
    At start oid order payment used refunds released (xs ++ [⟨name, args, result⟩])
      { env with events := env.events ++ [event] } :=
  now.next ⟨rfl, rfl, rfl, rfl, rfl⟩ shape now.faultUsed now.found rfl now.paid now.refunds
    now.released

/-! ### One call each -/

variable (stamps)

theorem At.getOrder (now : At start oid order payment used refunds released xs env)
    (room : start.events.length + xs.length < maxToolCalls) :
    ∃ env', Program.Ends (callOrder stamps oid "get_order") env
        (okAnswer [("order", order.toJson)]) env' ∧
      At start oid order payment used refunds released (xs ++ [orderShown oid order]) env' := by
  obtain ⟨result, env', event, answer, shape, ends⟩ :=
    now.call room stamps "get_order" [("order_id", .str oid)] rfl rfl nofun
  cases answer with
  | orderRead => exact ⟨_, ends, now.same shape⟩

theorem At.getPayment (now : At start oid order payment used refunds released xs env)
    (room : start.events.length + xs.length < maxToolCalls) :
    ∃ env', Program.Ends (callOrder stamps oid "get_payment") env
        (okAnswer [("payment", payment.toJson)]) env' ∧
      At start oid order payment used refunds released (xs ++ [paymentShown oid payment]) env' := by
  obtain ⟨result, env', event, answer, shape, ends⟩ :=
    now.call room stamps "get_payment" [("order_id", .str oid)] rfl rfl nofun
  have paid : (env.db.payments.find? order.id).elim Json.null PaymentRow.toJson =
      payment.toJson := by
    rw [now.id, now.paid]
    rfl
  cases answer with
  | paymentRead =>
    rw [paid] at ends shape
    exact ⟨_, ends, now.same shape⟩

theorem At.checkPolicy (now : At start oid order payment used refunds released xs env)
    (room : start.events.length + xs.length < maxToolCalls) :
    ∃ env', Program.Ends (callOrder stamps oid "check_cancel_policy") env
        (Environment.policyAnswer order) env' ∧
      At start oid order payment used refunds released (xs ++ [policyShown oid order]) env' := by
  obtain ⟨result, env', event, answer, shape, ends⟩ :=
    now.call room stamps "check_cancel_policy" [("order_id", .str oid)] rfl rfl nofun
  cases answer with
  | policyRead => exact ⟨_, ends, now.same shape⟩

/-- A ticket changes nothing of what is known. -/
theorem At.openTicket (now : At start oid order payment used refunds released xs env)
    (room : start.events.length + xs.length < maxToolCalls) {reason : String}
    (said : isBlank reason = false) :
    ∃ env', Program.Ends (callTool stamps "create_ticket"
        [("order_id", .str oid), ("reason", .str reason)]) env
        (okAnswer [("ticket_id", .str ("ticket-" ++ oid))]) env' ∧
      At start oid order payment used refunds released (xs ++ [ticketOpened oid reason]) env' := by
  obtain rfl := now.id
  obtain ⟨result, env', event, answer, shape, ends⟩ := now.call room stamps "create_ticket"
    [("order_id", .str order.id), ("reason", .str reason)] rfl rfl nofun
  have frame := answer.frame
  have given : Environment.textArg? [("order_id", .str order.id), ("reason", .str reason)]
      "reason" =
      some reason := textArg?_of_get? rfl said
  cases answer with
  | ticketInvalid noReason => simp [given] at noReason
  | @ticketed reason' given' =>
    obtain rfl := Option.some.inj (given.symm.trans given')
    exact ⟨_, ends, now.next frame shape now.faultUsed now.found rfl now.paid
      now.refunds now.released⟩

/-- The order after its begin. -/
def OrderRow.begun (order : OrderRow) : OrderRow :=
  if order.status = .paid then
    { order with status := .cancelling, version := nextVersion order.version }
  else order

/-- The answer to a begin. -/
def beginAnswer (order : OrderRow) : Json :=
  if order.status = .paid then okAnswer [] else okAnswer [("already_started", .bool true)]

theorem OrderRow.get_beginAnswer (order : OrderRow) :
    (beginAnswer order).get "code" .null = .ok .null := by
  unfold beginAnswer
  split_ifs <;> rfl

theorem OrderRow.item_beginAnswer (order : OrderRow) :
    (beginAnswer order).item "status" = .ok (.str "ok") := by
  unfold beginAnswer
  split_ifs <;> rfl

/-- The order can be cancelled. -/
def OrderRow.Cancellable (order : OrderRow) : Prop :=
  order.status = .paid ∨ order.status = .cancelling

/-- The shipment that the fault makes of an order. -/
def OrderRow.shipped (order : OrderRow) : OrderRow :=
  { order with status := .shipped, version := nextVersion order.version }

theorem OrderRow.Cancellable.status_begun (cancellable : order.Cancellable) :
    order.begun.status = .cancelling := by
  unfold OrderRow.begun
  split_ifs with paid
  · rfl
  · exact cancellable.resolve_left paid

/-- A begin with the version of the order goes through, without the shipment. -/
theorem At.begin (now : At start oid order payment used refunds released xs env)
    (room : start.events.length + xs.length < maxToolCalls) (cancellable : order.Cancellable)
    (fits : Fits64 order.version)
    (quiet : ¬ (start.fault = .shipBeforeCancel ∧ used = false)) :
    ∃ env', Program.Ends (callTool stamps "begin_cancellation"
        [("order_id", .str oid), ("expected_version", .int order.version)]) env
        (beginAnswer order) env' ∧
      At start oid order.begun payment used refunds released
        (xs ++ [beginTried oid order.version (beginAnswer order)]) env' := by
  obtain rfl := now.id
  obtain ⟨result, env', event, answer, shape, ends⟩ := now.call room stamps "begin_cancellation"
    [("order_id", .str order.id), ("expected_version", .int order.version)] rfl rfl
    fun | .begin _ _ _ large => large fits
  have frame := answer.frame
  have version : Environment.intArg? [("order_id", .str order.id),
      ("expected_version", .int order.version)] "expected_version" = some order.version := rfl
  have quiet' : ¬ env.Armed := by
    rwa [Environment.Armed, now.fault, now.faultUsed]
  cases answer with
  | versionInvalid noVersion => simp [version] at noVersion
  | shippedConflict _ armed => exact absurd armed quiet'
  | shippedDenied _ armed => exact absurd armed quiet'
  | beginConflict given _ stale => exact absurd (Option.some.inj (version.symm.trans given)) stale
  -- An order that is being cancelled keeps its status and its version.
  | begunBefore _ _ started =>
    have notPaid : order.status ≠ .paid := by simp [started]
    have same : order.begun = order := if_neg notPaid
    have answer : beginAnswer order = okAnswer [("already_started", .bool true)] := if_neg notPaid
    rw [same, answer]
    exact ⟨_, ends, now.same shape⟩
  | beginDenied _ _ notStarted notPaid =>
    exact absurd cancellable (by simp [OrderRow.Cancellable, notStarted, notPaid])
  | begun _ _ paid =>
    have same : order.begun =
      { order with status := .cancelling, version := nextVersion order.version } := if_pos paid
    have answer : beginAnswer order = okAnswer [] := if_pos paid
    rw [same, answer]
    refine ⟨_, ends, now.next frame shape now.faultUsed ?_ rfl now.paid
      now.refunds now.released⟩
    rw [Database.find?_setStatus, if_pos rfl, now.found]
    rfl

/-- A begin that meets the shipment reports a conflict. -/
theorem At.beginShipped (now : At start oid order payment used refunds released xs env)
    (room : start.events.length + xs.length < maxToolCalls) (fits : Fits64 order.version)
    (armed : start.fault = .shipBeforeCancel ∧ used = false) :
    ∃ env', Program.Ends (callTool stamps "begin_cancellation"
        [("order_id", .str oid), ("expected_version", .int order.version)]) env
        (refusal "error" "VERSION_CONFLICT") env' ∧
      At start oid order.shipped payment true refunds released
        (xs ++ [beginTried oid order.version (refusal "error" "VERSION_CONFLICT")]) env' := by
  obtain rfl := now.id
  obtain ⟨result, env', event, answer, shape, ends⟩ := now.call room stamps "begin_cancellation"
    [("order_id", .str order.id), ("expected_version", .int order.version)] rfl rfl
    fun | .begin _ _ _ large => large fits
  have frame := answer.frame
  have version : Environment.intArg? [("order_id", .str order.id),
      ("expected_version", .int order.version)] "expected_version" = some order.version := rfl
  have armed' : env.Armed := by
    rwa [Environment.Armed, now.fault, now.faultUsed]
  cases answer with
  | versionInvalid noVersion => simp [version] at noVersion
  | shippedConflict given _ stale =>
    refine ⟨_, ends, now.next frame shape rfl ?_ rfl now.paid
      now.refunds now.released⟩
    rw [Database.find?_setStatus, if_pos rfl, now.found]
    rfl
  -- The version that the shipment leaves is not the one that was given.
  | shippedDenied given _ guessed =>
    have next : nextVersion order.version = order.version + 1 := if_pos fits.2
    have := Option.some.inj (version.symm.trans given)
    omega
  -- The other paths are those of a call that meets no shipment.
  | beginConflict _ quiet => exact absurd armed' quiet
  | begunBefore _ quiet => exact absurd armed' quiet
  | beginDenied _ quiet => exact absurd armed' quiet
  | begun _ quiet => exact absurd armed' quiet

/-- A payment that is refunded as far as it was captured. -/
def PaymentRow.settled (payment : PaymentRow) : PaymentRow :=
  { payment with refundedCents := payment.capturedCents }

/-- What is left of a payment to refund. -/
def PaymentRow.rest (payment : PaymentRow) : Int := payment.capturedCents - payment.refundedCents

/-- A refund of the rest of a payment, with the first key. -/
structure Refundable (order : OrderRow) (payment : PaymentRow)
    (refunds : Table RefundRow.operationKey) (key : String) : Prop where
  started : order.status = .cancelling
  positive : 0 < payment.rest
  fits : Fits64 payment.rest
  visible : isBlank key = false
  fresh : refunds.find? key = none

/-- The four answers to a refund of the rest: the service is down, the answer is lost
before or after the refund, or the refund is made. -/
theorem At.refund (now : At start oid order payment used refunds released xs env)
    (room : start.events.length + xs.length < maxToolCalls) {key : String}
    (due : Refundable order payment refunds key) :
    ∃ env' result payment' used' refunds',
      Program.Ends (callTool stamps "refund_payment" [("order_id", .str oid),
        ("amount_cents", .int payment.rest), ("idempotency_key", .str key)]) env result env' ∧
      At start oid order payment' used' refunds' released
        (xs ++ [refundTried oid key payment.rest result]) env' ∧
      (start.fault = .paymentUnavailable ∧ result = timeout ∧ payment' = payment ∧ used' = used ∧
          refunds' = refunds ∨
        start.fault = .refundTimeoutBeforeCommit ∧ used = false ∧ result = timeout ∧
          payment' = payment ∧ used' = true ∧ refunds' = refunds ∨
        start.fault = .refundTimeoutAfterCommit ∧ used = false ∧ result = timeout ∧
          payment' = payment.settled ∧ used' = true ∨
        start.fault ≠ .paymentUnavailable ∧
          ¬ (start.fault = .refundTimeoutBeforeCommit ∧ used = false) ∧
          ¬ (start.fault = .refundTimeoutAfterCommit ∧ used = false) ∧
          result = okAnswer [("refund_cents", .int payment.rest), ("replayed", .bool false)] ∧
          payment' = payment.settled ∧ used' = used) := by
  obtain rfl := now.id
  obtain ⟨result, env', event, answer, shape, ends⟩ := now.call room stamps "refund_payment"
    [("order_id", .str order.id), ("amount_cents", .int payment.rest),
    ("idempotency_key", .str key)]
    rfl rfl fun | .refund due' _ _ large => large (Option.some.inj due'.amounted ▸ due.fits)
  set args : Fields := [("order_id", .str order.id), ("amount_cents", .int payment.rest),
    ("idempotency_key", .str key)]
  have frame := answer.frame
  have amounted : Environment.intArg? args "amount_cents" = some payment.rest := rfl
  have keyed : Environment.textArg? args "idempotency_key" = some key :=
    textArg?_of_get? rfl due.visible
  have fresh : env.db.refunds.find? key = none := now.refunds ▸ due.fresh
  have isDue : RefundDue env order args payment.rest key payment :=
    ⟨amounted, keyed, due.positive, fresh, due.started, now.paid, rfl⟩
  -- Another due refund is this one.
  have only : ∀ {amount key' payment'}, RefundDue env order args amount key' payment' →
      amount = payment.rest ∧ key' = key := fun other =>
    ⟨Option.some.inj (other.amounted.symm.trans amounted),
      Option.some.inj (other.keyed.symm.trans keyed)⟩
  have settles : ∀ {db : Database} {row : RefundRow}, env.db.insertRefund? row = some db →
      (db.addRefunded order.id payment.rest).payments.find? order.id = some payment.settled ∧
        (db.addRefunded order.id payment.rest).orders = env.db.orders ∧
        (db.addRefunded order.id payment.rest).releases = env.db.releases := by
    intro db row inserted
    obtain ⟨table, -, rfl⟩ := Database.exists_of_insertRefund? inserted
    refine ⟨?_, rfl, rfl⟩
    rw [Database.find?_addRefunded, if_pos rfl]
    change (env.db.payments.find? order.id).map _ = _
    rw [now.paid, Option.map_some, PaymentRow.settled, PaymentRow.rest]
    congr 2
    omega
  cases answer with
  | refundInvalid invalid => exact absurd (invalid _ _ amounted keyed) (not_le.mpr due.positive)
  | refundConflict keyed' used =>
    obtain rfl := Option.some.inj (keyed.symm.trans keyed')
    simp [fresh] at used
  | refundReplayed _ keyed' used =>
    obtain rfl := Option.some.inj (keyed.symm.trans keyed')
    simp [fresh] at used
  | refundDenied _ undue => exact absurd isDue (undue _ _ _)
  | refundUnavailable _ down =>
    exact ⟨_, timeout, payment, used, refunds, ends, now.same shape,
      .inl ⟨now.fault ▸ down, rfl, rfl, rfl, rfl⟩⟩
  | refundLost _ fault unused =>
    exact ⟨_, timeout, payment, true, refunds, ends,
      now.next frame shape rfl now.found rfl now.paid now.refunds now.released,
      .inr (.inl ⟨now.fault ▸ fault, now.faultUsed ▸ unused, rfl, rfl, rfl, rfl⟩)⟩
  | refundedUnseen due' fault unused inserted =>
    obtain ⟨rfl, rfl⟩ := only due'
    obtain ⟨paid, orders, stocked⟩ := settles inserted
    exact ⟨_, timeout, payment.settled, true, _, ends,
      now.next frame shape rfl (orders ▸ now.found) rfl paid rfl (stocked.trans now.released),
      .inr (.inr (.inl ⟨now.fault ▸ fault, now.faultUsed ▸ unused, rfl, rfl, rfl⟩))⟩
  | refunded due' up seen kept inserted =>
    obtain ⟨rfl, rfl⟩ := only due'
    obtain ⟨paid, orders, stocked⟩ := settles inserted
    rw [now.fault, now.faultUsed] at seen kept
    exact ⟨_, _, payment.settled, used, _, ends,
      now.next frame shape now.faultUsed (orders ▸ now.found) rfl paid rfl
        (stocked.trans now.released),
      .inr (.inr (.inr ⟨now.fault ▸ up, seen, kept, rfl, rfl, rfl⟩))⟩

/-- Another order's release has the key that the driver uses. -/
def KeyTaken (released : Table ReleaseRow.orderId) (oid : String) : Prop :=
  ∃ prior, (released.rows.find? fun row => row.operationKey = stockKey oid) = some prior ∧
    prior.orderId ≠ oid

theorem isBlank_stockKey (oid : String) : isBlank (stockKey oid) = false :=
  isBlank_of_mem (c := 's') (by simp [stockKey, String.toList_append]) (by decide)

/-- The arguments of the release. -/
theorem textArg?_stockKey (oid : String) : Environment.textArg?
    [("order_id", .str oid), ("idempotency_key", .str (stockKey oid))] "idempotency_key" =
      some (stockKey oid) :=
  textArg?_of_get? rfl (isBlank_stockKey oid)

/-- A release under a key that another order has used is refused. -/
theorem At.releaseTaken (now : At start oid order payment used refunds released xs env)
    (room : start.events.length + xs.length < maxToolCalls) (taken : KeyTaken released oid) :
    ∃ env', Program.Ends (callTool stamps "release_stock"
        [("order_id", .str oid), ("idempotency_key", .str (stockKey oid))]) env
        (refusal "error" "IDEMPOTENCY_CONFLICT") env' ∧
      At start oid order payment used refunds released
        (xs ++ [releaseTried oid (refusal "error" "IDEMPOTENCY_CONFLICT")]) env' := by
  obtain rfl := now.id
  obtain ⟨result, env', event, answer, shape, ends⟩ := now.call room stamps "release_stock"
    [("order_id", .str order.id), ("idempotency_key", .str (stockKey order.id))] rfl rfl nofun
  have keyed := textArg?_stockKey order.id
  have notFree : ¬ env.KeyFree order (stockKey order.id) := by
    obtain ⟨prior, found, other⟩ := taken
    rw [← now.released] at found
    exact fun free => other (free prior found)
  have same : ∀ {key}, Environment.textArg? [("order_id", .str order.id),
      ("idempotency_key", .str (stockKey order.id))] "idempotency_key" = some key →
      key = stockKey order.id := fun given => Option.some.inj (given.symm.trans keyed)
  cases answer with
  | releaseInvalid noKey => simp [keyed] at noKey
  | releaseConflict => exact ⟨_, ends, now.same shape⟩
  | releaseReplayed given free => exact absurd (same given ▸ free) notFree
  | releaseDenied given free => exact absurd (same given ▸ free) notFree
  | released due => exact absurd (same due.keyed ▸ due.free) notFree

/-- The fields of the answer to a release that goes through, or was made before. -/
inductive ReleaseFields : Fields → Prop
  | made (quantity : Int) :
      ReleaseFields [("released_quantity", .int quantity), ("replayed", .bool false)]
  | replayed : ReleaseFields [("replayed", .bool true)]

/-- A release of a refunded order goes through, or was made before. -/
theorem At.release (now : At start oid order payment used refunds released xs env)
    (room : start.events.length + xs.length < maxToolCalls) (free : ¬ KeyTaken released oid)
    (started : order.status = .cancelling) (full : payment.refundedCents = payment.capturedCents) :
    ∃ env' fields released', Program.Ends (callTool stamps "release_stock"
        [("order_id", .str oid), ("idempotency_key", .str (stockKey oid))]) env
        (okAnswer fields) env' ∧ ReleaseFields fields ∧ oid ∈ released' ∧
      At start oid order payment used refunds released'
        (xs ++ [releaseTried oid (okAnswer fields)]) env' := by
  obtain rfl := now.id
  obtain ⟨result, env', event, answer, shape, ends⟩ := now.call room stamps "release_stock"
    [("order_id", .str order.id), ("idempotency_key", .str (stockKey order.id))] rfl rfl nofun
  have frame := answer.frame
  have keyed := textArg?_stockKey order.id
  cases answer with
  | releaseInvalid noKey => simp [keyed] at noKey
  | @releaseConflict key prior given found other =>
    obtain rfl := Option.some.inj (given.symm.trans keyed)
    rw [Environment.releaseOfKey?, now.released] at found
    exact absurd ⟨prior, found, other⟩ free
  -- The key was used for this order before.
  | releaseReplayed _ _ member =>
    exact ⟨_, _, released, ends, .replayed, now.released ▸ member, now.same shape⟩
  | releaseDenied _ _ _ undue =>
    exfalso
    rcases undue with other | incomplete
    · exact other started
    · simp [Environment.refundComplete, now.paid, full] at incomplete
  | released due inserted =>
    have member := (Database.mem_releases_of_insertRelease? inserted).2 order.id
    obtain ⟨table, -, rfl⟩ := Database.exists_of_insertRelease? inserted
    exact ⟨_, _, table, ends, .made _, member.mpr (.inl rfl),
      now.next frame shape now.faultUsed now.found rfl now.paid now.refunds rfl⟩

/-- The order after its completion. -/
def OrderRow.completed (order : OrderRow) : OrderRow :=
  { order with status := .cancelled, version := nextVersion order.version }

/-- A completion of a refunded and released order goes through. -/
theorem At.complete (now : At start oid order payment used refunds released xs env)
    (room : start.events.length + xs.length < maxToolCalls)
    (started : order.status = .cancelling) (full : payment.refundedCents = payment.capturedCents)
    (stocked : oid ∈ released) :
    ∃ env', Program.Ends (callOrder stamps oid "complete_cancellation") env
        (okAnswer [("order_status", .str "cancelled")]) env' ∧
      At start oid order.completed payment used refunds released
        (xs ++ [completionTried oid (okAnswer [("order_status", .str "cancelled")])]) env' := by
  obtain rfl := now.id
  obtain ⟨result, env', event, answer, shape, ends⟩ :=
    now.call room stamps "complete_cancellation" [("order_id", .str order.id)] rfl rfl nofun
  have frame := answer.frame
  cases answer with
  | completedBefore already => simp [started] at already
  | completeDenied _ incomplete =>
    exfalso
    rcases incomplete with other | unpaid | unreleased
    · exact other started
    · simp [Environment.refundComplete, now.paid, full] at unpaid
    · exact unreleased (now.released ▸ stocked)
  | completed =>
    refine ⟨_, ends, now.next frame shape now.faultUsed ?_ rfl now.paid now.refunds now.released⟩
    rw [Database.find?_setStatus, if_pos rfl, now.found]
    rfl

end Calls

end AgentLabs.BusinessLab
