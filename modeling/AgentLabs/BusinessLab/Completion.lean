import AgentLabs.BusinessLab.Courses
import AgentLabs.BusinessLab.Policy

/-!
# What a completed response says

A response that reports a completed cancellation states the amount refunded. The driver
takes the amount from the payment when it finds the order cancelled, and from the order
when it has gone through the steps itself; the ledger moves by what is left of the
payment. So the report of a cancellation that it has taken through is true exactly if
the price of the order is what was captured.

## Main definitions

* `Fixture.Sound`: a well-formed fixture without negative prices
* `TakenThrough`: the driver takes the cancellation through to its end
* `Truthful`: a completed response agrees with the store and passes its check

## Main results

* `Course.outcome`: when a course is completed, and what it reports
* `truthful_runScripted_iff`: when the driver is truthful
-/

namespace AgentLabs.BusinessLab

open Math Text Json

/-! ### Fresh environments -/

/-- A well-formed fixture without negative prices. -/
structure Fixture.Sound (fixture : Fixture) : Prop extends fixture.WellFormed where
  priced : ∀ o ∈ fixture.orders, 0 ≤ o.amountCents

section Fresh

variable {fixture : Fixture} {env : Environment}

/-- Only the integers of 64 bits are loaded. -/
theorem Fixture.fits_of_ofFixture (loaded : Environment.ofFixture fixture = some env) :
    fixture.Fits := by
  obtain ⟨db, load, -⟩ := Option.map_eq_some_iff.mp loaded
  exact Fixture.fits_of_load load

/-- The environment of a well-formed fixture has the rows of the fixture. -/
theorem Fixture.WellFormed.rows_ofFixture (wf : fixture.WellFormed)
    (loaded : Environment.ofFixture fixture = some env) :
    env.db.orders.rows = fixture.orders ∧ env.db.payments.rows = fixture.payments ∧
      env.db.refunds.rows = [] := by
  obtain ⟨db, load, orders, payments, -, refunds⟩ :=
    wf.exists_load (Fixture.fits_of_ofFixture loaded)
  rw [Environment.ofFixture, load] at loaded
  obtain rfl := Option.some.inj loaded
  exact ⟨orders, payments, refunds⟩

/-- The driver can start on the environment of a sound fixture. -/
theorem Fixture.Sound.ready (sound : fixture.Sound)
    (loaded : Environment.ofFixture fixture = some env) : Ready env := by
  obtain ⟨orders, payments, refunds⟩ := sound.rows_ofFixture loaded
  have fits := Fixture.fits_of_ofFixture loaded
  -- The rows of the database are those of the fixture.
  have listed : ∀ {oid order}, env.db.orders.find? oid = some order →
      order ∈ fixture.orders ∧ order.id = oid := by
    intro oid order found
    obtain ⟨member, named⟩ := Table.find?_eq_some_iff.mp found
    exact ⟨orders ▸ member, named⟩
  refine ⟨?_, fun key => ?_, fun oid order found => ?_, fun oid order found => ?_,
    fun oid order found => ?_⟩
  · obtain ⟨db, -, rfl⟩ := Option.map_eq_some_iff.mp loaded
    rfl
  · rw [Table.find?_eq_none_iff, Table.mem_iff, refunds]
    simp
  · obtain ⟨member, rfl⟩ := listed found
    have paid : order.id ∈ env.db.payments := by
      have listed := sound.paid order member
      rwa [← payments] at listed
    obtain ⟨payment, hpayment⟩ := Table.exists_find?_of_mem paid
    obtain ⟨row, named⟩ := Table.find?_eq_some_iff.mp hpayment
    have balanced := sound.balanced payment (payments ▸ row)
      (List.mem_map.mpr ⟨order, member, named.symm⟩)
    exact ⟨payment, hpayment, balanced.1, balanced.2, fits.2.1 payment (payments ▸ row)⟩
  · exact fits.1 order (listed found).1
  · exact sound.priced order (listed found).1

end Fresh

/-! ### The outcome of a course -/

/-- The driver takes the cancellation of an order through to its end: the order can be
cancelled and is not shipped before, the refund is confirmed, and the key of the release
is free. -/
structure TakenThrough (fault : Fault) (release oid : String) (released : Table ReleaseRow.orderId)
    (order : OrderRow) (payment : PaymentRow) : Prop where
  cancellable : order.Cancellable
  unshipped : fault ≠ .shipBeforeCancel
  confirmed : payment.rest = 0 ∨ fault ≠ .paymentUnavailable ∧
    (release = "baseline" →
      fault ≠ .refundTimeoutBeforeCommit ∧ fault ≠ .refundTimeoutAfterCommit)
  free : ¬ KeyTaken released oid

section Outcome

variable {fault : Fault} {release oid key : String} {released : Table ReleaseRow.orderId}
  {order order' : OrderRow} {payment payment' : PaymentRow} {ys : List Exchange} {confirmed : Bool}
  {kind : ResponseKind} {cents : Option Int}

/-- A refund is confirmed unless the payment service is down or, for the baseline, an
answer is lost. -/
theorem RefundCourse.confirmed_iff
    (course : RefundCourse fault release oid key payment ys confirmed payment') :
    confirmed = true ↔ payment.rest = 0 ∨ fault ≠ .paymentUnavailable ∧
      (release = "baseline" →
        fault ≠ .refundTimeoutBeforeCommit ∧ fault ≠ .refundTimeoutAfterCommit) := by
  cases course with
  | nothing rest => simp [rest]
  | made rest up => simp_all
  | unavailable rest baseline down => simp [rest.ne', down]
  | lost rest baseline before => simp [rest.ne', baseline, before]
  | unseen rest baseline after => simp [rest.ne', baseline, after]
  | givenUp rest candidate down => simp [rest.ne', down]
  | retried rest candidate before => simp [candidate, before]
  | discovered rest candidate after => simp [candidate, after]

theorem RefundCourse.captured
    (course : RefundCourse fault release oid key payment ys confirmed payment') :
    payment'.capturedCents = payment.capturedCents := by
  cases course <;> rfl

/-- From the begin on the course is completed exactly if the refund is confirmed and the
key of the release is free, and then it reports the price of the order. -/
theorem Settlement.outcome
    (course : Settlement fault release oid key released order payment ys kind cents order'
      payment') :
    (kind = .completed ↔ (payment.rest = 0 ∨ fault ≠ .paymentUnavailable ∧
        (release = "baseline" →
          fault ≠ .refundTimeoutBeforeCommit ∧ fault ≠ .refundTimeoutAfterCommit)) ∧
        ¬ KeyTaken released oid) ∧
      (kind = .completed → cents = some order.amountCents ∧ order'.status = .cancelled ∧
        payment'.refundedCents = payment.capturedCents) := by
  cases course with
  | handedOver reason refund =>
    rw [← refund.confirmed_iff]
    simp
  | keyTaken reason refund taken => simp [taken]
  | completed answered refund free =>
    rw [← refund.confirmed_iff]
    exact ⟨by simp [free], fun _ => ⟨rfl, rfl, refund.full.trans refund.captured⟩⟩

/-- **The outcome of a course.** It is completed if the order was cancelled already, and
then reports what was refunded, or if the driver takes the cancellation through, and then
reports the price of the order. -/
theorem Course.outcome
    (course : Course fault release oid key released order payment ys kind cents order' payment') :
    (kind = .completed ↔
        order.status = .cancelled ∨ TakenThrough fault release oid released order payment) ∧
      (kind = .completed → order'.status = .cancelled) ∧
      (order.status = .cancelled → cents = some payment'.refundedCents) ∧
      (TakenThrough fault release oid released order payment → cents = some order.amountCents ∧
        payment'.refundedCents = payment.capturedCents) := by
  have apart : order.status = .cancelled → ¬ order.Cancellable := by
    intro already
    simp [OrderRow.Cancellable, already]
  cases course with
  | cancelled already =>
    exact ⟨by simp [already], fun _ => already, fun _ => rfl,
      fun through => absurd through.cancellable (apart already)⟩
  | refused notOpen notCancellable =>
    exact ⟨by simpa [notOpen] using fun through => notCancellable through.cancellable, by simp,
      fun already => absurd already notOpen, fun through =>
      absurd through.cancellable notCancellable⟩
  | shipped cancellable ships =>
    exact ⟨by simpa using ⟨fun already => apart already cancellable,
        fun through => through.unshipped ships⟩,
      by simp, fun already => absurd cancellable (apart already),
      fun through => absurd ships through.unshipped⟩
  | begun cancellable quiet rest =>
    obtain ⟨completes, reports⟩ := rest.outcome
    rw [order.amountCents_begun] at reports
    -- What is begun is completed exactly if the driver takes it through.
    have through : TakenThrough fault release oid released order payment ↔ kind = .completed := by
      rw [completes]
      exact ⟨fun t => ⟨t.confirmed, t.free⟩, fun h => ⟨cancellable, quiet, h.1, h.2⟩⟩
    have notOpen : order.status ≠ .cancelled := fun already => apart already cancellable
    exact ⟨by simp [through, notOpen], fun done => (reports done).2.1,
      fun already => absurd already notOpen,
      fun t => ⟨(reports (through.mp t)).1, (reports (through.mp t)).2.2⟩⟩

theorem RefundCourse.no_looks
    (course : RefundCourse fault release oid key payment ys confirmed payment') :
    ∀ x ∈ ys, x.tool ≠ "get_order" := by
  cases course <;> simp [refundTried, paymentShown]

theorem Settlement.looks
    (course : Settlement fault release oid key released order payment ys kind cents order'
      payment') :
    (∀ x ∈ ys, x.tool = "get_order" → ∃ shown : OrderRow, x = orderShown oid shown) ∧
      (kind = .completed → orderShown oid order' ∈ ys) := by
  have others : ∀ zs : List Exchange, (∀ x ∈ zs, x.tool ≠ "get_order") →
      ∀ x ∈ zs, x.tool = "get_order" → ∃ shown : OrderRow, x = orderShown oid shown :=
    fun _ none _ member look => absurd look (none _ member)
  cases course with
  | handedOver reason refund =>
    refine ⟨others _ ?_, by simp⟩
    simpa [or_imp, forall_and, paymentShown, ticketOpened] using refund.no_looks
  | keyTaken reason refund taken =>
    refine ⟨others _ ?_, by simp⟩
    simpa [or_imp, forall_and, paymentShown, releaseTried, ticketOpened] using refund.no_looks
  | completed answered refund free =>
    refine ⟨?_, by simp⟩
    simp only [List.cons_append, List.mem_cons, List.mem_append, List.not_mem_nil, or_false]
    rintro x (rfl | member | rfl | rfl | rfl) look
    · simp [paymentShown] at look
    · exact absurd look (refund.no_looks x member)
    · simp [releaseTried] at look
    · simp [completionTried] at look
    · exact ⟨_, rfl⟩

/-- Every look at an order in a course shows it, and a completed course looks at the end. -/
theorem Course.looks
    (course : Course fault release oid key released order payment ys kind cents order' payment') :
    (∀ x ∈ ys, x.tool = "get_order" → ∃ shown : OrderRow, x = orderShown oid shown) ∧
      (kind = .completed → orderShown oid order' ∈ ys) := by
  have shown : ∀ o : OrderRow, ∃ shown : OrderRow, orderShown oid o = orderShown oid shown :=
    fun o => ⟨o, rfl⟩
  cases course with
  | cancelled | refused | shipped => simp [shown, paymentShown, policyShown, beginTried]
  | begun cancellable quiet rest =>
    obtain ⟨looks, last⟩ := rest.looks
    refine ⟨?_, fun done => by simp [last done]⟩
    simp only [List.mem_cons]
    rintro x (rfl | rfl | rfl | member) look
    · exact ⟨_, rfl⟩
    · simp [policyShown] at look
    · simp [beginTried] at look
    · exact looks x member look

end Outcome

/-! ### The check of a completed response -/

section Check

variable {env : Environment} {oid : String} {order : OrderRow} {payment : PaymentRow}

theorem snapshot_tickets (env : Environment) (oid : String) :
    select (fun ticket : Json => do return pyEq (← ticket.item "order_id") (.str oid))
        (env.db.tickets.sorted.map TicketRow.toJson) =
      .ok ((env.db.tickets.sorted.filter fun t => t.orderId = oid).map TicketRow.toJson) := by
  refine select_map fun t _ => ?_
  change Except.ok (pyEq (.str t.orderId) (.str oid)) = _
  rw [Except.ok.injEq, Bool.eq_iff_iff, pyEq_iff_str, Json.str.injEq, decide_eq_true_iff]

/-- The summary of a snapshot shows the order and the payment of the subject. -/
theorem exists_stateSummary (found : env.db.orders.find? env.subjectId = some order)
    (paid : env.db.payments.find? env.subjectId = some payment) :
    ∃ summary, stateSummary env.snapshot = .ok summary ∧
      summary.orderStatus = .str order.status.name ∧
      summary.refundedCents = .int payment.refundedCents := by
  have subject : (Json.obj env.snapshot).item "subject_id" = .ok (.str env.subjectId) := rfl
  have orders : (Json.obj env.snapshot).item "orders" = .ok (.obj env.db.ordersJson) := rfl
  have payments : (Json.obj env.snapshot).item "payments" = .ok (.obj env.db.paymentsJson) := rfl
  have hasOrder : lookup env.db.ordersJson (.str env.subjectId) .null = .ok order.toJson := by
    rw [lookup_str, Database.get?_ordersJson, found]
    rfl
  have hasPayment : lookup env.db.paymentsJson (.str env.subjectId) .null = .ok payment.toJson := by
    rw [lookup_str, Database.get?_paymentsJson, paid]
    rfl
  rw [stateSummary]
  simp only [subject, orders, payments]
  -- The look-ups of the subject are known; what the source reads of them is left.
  change ∃ summary, (do
    let order ← lookup env.db.ordersJson (.str env.subjectId) .null
    let payment ← lookup env.db.paymentsJson (.str env.subjectId) .null
    let orderStatus ← ifTruthy order (order.item "status") (.str "missing")
    let refundedCents ← ifTruthy payment (payment.item "refunded_cents") (.int 0)
    let availableStock ← ifTruthy order (do
      lookup env.db.inventoryJson (← order.item "sku") .null) .null
    let own ← select
      (fun ticket : Json => do return pyEq (← ticket.item "order_id") (.str env.subjectId))
      (env.db.tickets.sorted.map TicketRow.toJson)
    return ({ orderStatus, refundedCents, availableStock, ticketCount := own.length } :
      StateSummary)) = _ ∧ _
  rw [hasOrder, hasPayment, snapshot_tickets]
  exact ⟨_, rfl, rfl, rfl⟩

/-- A look at an order, as a course records it, can be checked. -/
theorem showsCancelled_orderShown {event : Event} (shape : event.exchange = orderShown oid order) :
    showsCancelled event = .ok (decide (order.status = .cancelled)) := by
  have result : event.result = okAnswer [("order", order.toJson)] := congrArg Exchange.result shape
  have shown : event.field "order" = .ok order.toJson := by
    rw [Event.field, result]
    rfl
  rw [showsCancelled, shown]
  change Except.ok (pyEq (.str order.status.name) (.str "cancelled")) = _
  rw [Except.ok.injEq, Bool.eq_iff_iff, pyEq_iff_str, Json.str.injEq, decide_eq_true_iff]
  exact OrderStatus.name_injective.eq_iff (b := .cancelled)

/-- The artifact of an answered request, as far as the checks read it. -/
def Artifact.answered (artifact : Artifact) (request : Request) (start env : Environment)
    (response : Response) : Artifact :=
  { artifact with
    request
    initialState := start.snapshot
    finalState := some env.snapshot
    events := env.events
    response := some response }

/-- The check of a completed response passes exactly if the order is cancelled and the
amount is the one refunded, where the looks at the order are all good and one of them has
shown it cancelled. -/
theorem exists_checkResponse (artifact : Artifact) {request : Request} (start : Environment)
    {response : Response} {expected : Expected} (expects : expected.responseKind = .completed)
    (kind : response.kind = .completed) (named : response.orderId = request.orderId)
    (target : request.orderId = some env.subjectId)
    (found : env.db.orders.find? env.subjectId = some order) (done : order.status = .cancelled)
    (paid : env.db.payments.find? env.subjectId = some payment)
    (looks : ∀ event ∈ env.events, event.tool = "get_order" →
      ∃ shown : OrderRow, event.exchange = orderShown env.subjectId shown)
    (seen : ∃ event ∈ env.events, event.exchange = orderShown env.subjectId order) :
    ∃ v, checkResponse (artifact.answered request start env response) expected = .ok v ∧
      (v.status = .pass ↔ response.refundCents = some payment.refundedCents) := by
  obtain ⟨summary, summarized, status, refunded⟩ := exists_stateSummary found paid
  let test (e : Event) : Except AccessError Bool :=
    if e.tool = "get_order" ∧
      pyEq e.orderId (response.orderId.elim .null .str) then showsCancelled e
    else .ok false
  have total : ∀ e ∈ env.events, ∃ b, test e = .ok b := by
    intro e member
    by_cases look : e.tool = "get_order" ∧ pyEq e.orderId (response.orderId.elim .null .str)
    · obtain ⟨shown, shape⟩ := looks e member look.1
      exact ⟨_, (if_pos look).trans (showsCancelled_orderShown shape)⟩
    · exact ⟨false, if_neg look⟩
  obtain ⟨observed, selected, mem_observed⟩ := exists_select total
  -- The look that showed the order cancelled passes the test.
  have nonempty : observed.isEmpty = false := by
    obtain ⟨event, member, shape⟩ := seen
    have isLook : event.tool = "get_order" ∧
        pyEq event.orderId (response.orderId.elim .null .str) := by
      refine ⟨congrArg Exchange.tool shape, ?_⟩
      have args : event.args = [("order_id", .str env.subjectId)] := congrArg Exchange.args shape
      rw [named, target, Event.orderId, args]
      exact pyEq_iff_str.mpr rfl
    have passes : test event = .ok true := by
      rw [← decide_eq_true done, ← showsCancelled_orderShown shape]
      exact if_pos isLook
    exact List.isEmpty_eq_false_iff.mpr (List.ne_nil_of_mem (mem_observed event member passes))
  have completed : completionShown (artifact.answered request start env response) response summary =
      .ok (decide (response.refundCents = some payment.refundedCents)) := by
    rw [completionShown]
    simp only [kind, ne_eq, not_true_eq_false, if_false]
    have ofTest : select test (artifact.answered request start env response).events =
        .ok observed :=
      selected
    have cancelled : pyEq (.str OrderStatus.cancelled.name) (.str "cancelled") :=
      pyEq_iff_str.mpr rfl
    simp only [ofTest, test, ok_bind, status, refunded, done, cancelled, nonempty]
    cases response.refundCents <;> simp [pyEq, scalarEq, number?, pure, Except.pure]
  -- The ticket count is asked of escalated responses only.
  have ran : checkResponse (artifact.answered request start env response) expected =
      .ok (verdict "response_contract"
        (decide (response.kind = expected.responseKind ∧ response.orderId = request.orderId) &&
          decide (response.refundCents = some payment.refundedCents) &&
            decide (response.kind ≠ ResponseKind.escalated ∨ 0 < summary.ticketCount))
        "응답 유형·구조화한 완료 주장을 실제 상태와 대조. 자유 문장의 의미는 Judge/사람이 별도 검토" [] []) := by
    rw [checkResponse]
    have final : (artifact.answered request start env response).finalState =
        some env.snapshot := rfl
    have given : (artifact.answered request start env response).response = some response := rfl
    simp only [final, given, summarized, ok_bind, completed]
    rfl
  exact ⟨_, ran, by simp [kind, expects, named]⟩

end Check

/-! ### Truthful completion -/

/-- A completed response agrees with the store that the driver leaves, and passes its
check. -/
def Truthful (stamps : ℕ → Stamp) (env : Environment) (release : String) (request : Request)
    (artifact : Artifact) (expected : Expected) : Prop :=
  ∀ response env', Program.Ends (runScripted stamps request release) env response env' →
    response.kind = .completed →
    (∃ order payment, env'.db.orders.find? env.subjectId = some order ∧ order.status = .cancelled ∧
      env'.db.payments.find? env.subjectId = some payment ∧
        response.refundCents = some payment.refundedCents) ∧
    ∃ v, checkResponse (artifact.answered request env env' response) expected = .ok v ∧
      v.status = .pass

/-- If the driver takes the cancellation of the subject through, its price is what was
captured. -/
def PricedAsCaptured (env : Environment) (release : String) (request : Request) : Prop :=
  ∀ order payment, request.orderId = some env.subjectId → isBlank env.subjectId = false →
    env.db.orders.find? env.subjectId = some order → order.customerId = env.actorId →
    env.db.payments.find? env.subjectId = some payment →
    TakenThrough env.fault release env.subjectId env.db.releases order payment →
    payment.capturedCents = order.amountCents

section Truth

variable {fixture : Fixture} {env : Environment} {release : String} {request : Request}

/-- **When the driver is truthful.** A completed response states what was refunded, and
passes its check, exactly if a cancellation that the driver takes through has the price
that was captured. -/
theorem truthful_runScripted_iff (sound : fixture.Sound)
    (loaded : Environment.ofFixture fixture = some env) (stamps : ℕ → Stamp)
    (known : release ∈ releases)
    (names : request.orderId = none ∨ request.orderId = some fixture.subjectId)
    (artifact : Artifact) {expected : Expected} (expects : expected.responseKind = .completed) :
    Truthful stamps env release request artifact expected ↔
      PricedAsCaptured env release request := by
  obtain ⟨noEvents, subject⟩ := Environment.events_ofFixture loaded
  rw [← subject] at names
  obtain ⟨response, ys, kind, cents, env', ends, answered, isKind, amount, turn⟩ :=
    takesTurn_runScripted stamps (sound.ready loaded) (by rw [noEvents]; decide) known request
  constructor
  · -- A case that is taken through ends completed, and its response states the price.
    intro truthful order payment named text found own paid through
    cases turn with
    | unnamed noOrder =>
      have isEmpty : env.subjectId = "" := by simpa [named] using noOrder
      rw [isEmpty] at text
      exact absurd text (by decide)
    | unknown named' missing =>
      obtain rfl := Option.some.inj (named.symm.trans named')
      simp [found] at missing
    | turnedAway named' barred =>
      obtain rfl := Option.some.inj (named.symm.trans named')
      rcases barred with blank | foreign
      · simp [text] at blank
      · exact absurd own (foreign order found)
    | followed named' found' own' paid' course left =>
      obtain rfl := Option.some.inj (named.symm.trans named')
      obtain rfl := Option.some.inj (found.symm.trans found')
      obtain rfl := Option.some.inj (paid.symm.trans paid')
      obtain ⟨completes, -, -, reports⟩ := course.outcome
      obtain ⟨⟨_, payment', -, -, paid', stated⟩, -⟩ :=
        truthful response env' ends (isKind.trans (completes.mpr (.inr through)))
      obtain rfl := Option.some.inj (left.paid.symm.trans paid')
      rw [amount, (reports through).1, (reports through).2, Option.some.injEq] at stated
      exact stated.symm
  · -- Only a case that was followed ends completed.
    intro priced response' env'' ends' completed
    obtain ⟨rfl, rfl⟩ := ends.unique ends'
    obtain rfl := isKind.symm.trans completed
    cases turn with
    | @followed oid order order' payment payment' used refunds released ys _ _ env' named found own
        paid course left =>
      obtain rfl : oid = env.subjectId := by simpa [named] using names
      obtain ⟨completes, closed, already, reports⟩ := course.outcome
      have stated : response.refundCents = some payment'.refundedCents := by
        rw [amount]
        -- Either the order was cancelled before, or this case cancelled it.
        rcases completes.mp rfl with cancelled | through
        · exact already cancelled
        · have price := priced order payment named left.text found own paid through
          rw [(reports through).1, (reports through).2, price]
      have events : env'.events.map Event.exchange = ys := by
        rw [left.events, noEvents]
        rfl
      obtain ⟨looks, last⟩ := course.looks
      have good : ∀ event ∈ env'.events, event.tool = "get_order" →
          ∃ shown : OrderRow, event.exchange = orderShown env.subjectId shown :=
        fun event member => looks _ (events ▸ List.mem_map_of_mem member)
      have seen : ∃ event ∈ env'.events, event.exchange = orderShown env.subjectId order' :=
        List.mem_map.mp (events ▸ last rfl)
      rw [← left.subjectId] at good seen
      obtain ⟨v, checked, passes⟩ := exists_checkResponse artifact env expects
        completed answered (left.subjectId ▸ named) (left.subjectId ▸ left.found) (closed rfl)
        (left.subjectId ▸ left.paid) good seen
      exact ⟨⟨order', payment', left.found, closed rfl, left.paid, stated⟩, v, checked,
        passes.mpr stated⟩

/-- The stamps of a run in which nothing is measured. -/
def blankStamps (n : ℕ) : Stamp := ⟨toString n, 0, 0, none, none⟩

/-- A paid order of which only a part was captured. -/
def partlyCaptured : Fixture := { oneOrder with payments := [⟨"order-a", 10000, 0⟩] }

/-- The environment of `partlyCaptured`. -/
def partlyCapturedEnv : Environment :=
  { oneEnv with db := { oneEnv.db with payments := ⟨partlyCaptured.payments, by decide⟩ } }

theorem not_truthful_partlyCaptured :
    partlyCaptured.Sound ∧ Environment.ofFixture partlyCaptured = some partlyCapturedEnv ∧
      cancelOrder.orderId = some partlyCaptured.subjectId ∧
      ¬ Truthful blankStamps partlyCapturedEnv "candidate" cancelOrder unrunArtifact
        completedExpected := by
  refine ⟨⟨⟨by decide, by decide, by decide, by decide, by decide, by decide, by decide, by decide⟩,
    by decide⟩, rfl, rfl, fun truthful => ?_⟩
  obtain ⟨response, env', ends, kind, amount, paid⟩ : ∃ response env',
      Program.Ends (runScripted blankStamps cancelOrder "candidate")
      partlyCapturedEnv response env' ∧
        response.kind = .completed ∧ response.refundCents = some 12500 ∧
          env'.db.payments.find? "order-a" = some ⟨"order-a", 10000, 10000⟩ :=
    ⟨_, _, rfl, rfl, rfl, rfl⟩
  obtain ⟨⟨order, payment, -, -, paid', stated⟩, -⟩ := truthful response env' ends kind
  obtain rfl := Option.some.inj (paid.symm.trans paid')
  rw [amount] at stated
  exact absurd stated (by decide)

theorem truthful_runScripted_iff_oneOrder :
    Truthful blankStamps oneEnv "candidate" cancelOrder unrunArtifact completedExpected ↔
      PricedAsCaptured oneEnv "candidate" cancelOrder :=
  @truthful_runScripted_iff oneOrder oneEnv "candidate" cancelOrder
    ⟨⟨by decide, by decide, by decide, by decide, by decide, by decide, by decide, by decide⟩,
      by decide⟩ rfl blankStamps (by decide) (.inr rfl) unrunArtifact completedExpected rfl

end Truth

end AgentLabs.BusinessLab
