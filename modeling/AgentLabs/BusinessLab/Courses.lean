import AgentLabs.BusinessLab.Points

/-!
# The courses of the scripted driver

On an order of the actor the driver takes one of a few courses, and the fixture decides
which: the status of the order, the rest of its payment, the fault, and whether the key
of its release is in use. Each course is followed call by call.

## Main definitions

* `RefundCourse`, `Settlement`, `Course`: the courses, from the inner steps out
* `Turn`: what the driver does on a request

## Main results

* `takesTurn_runScripted`: the driver takes one of the turns
-/

namespace AgentLabs.BusinessLab

open Math Text Json

/-! ### The courses -/

/-- The answer to a refund that was made. -/
def refundMade (amount : Int) : Json :=
  okAnswer [("refund_cents", .int amount), ("replayed", .bool false)]

/-- The courses of the refund: the exchanges, whether it is confirmed, and the payment
it leaves. -/
inductive RefundCourse (fault : Fault) (release oid key : String) (payment : PaymentRow) :
    List Exchange → Bool → PaymentRow → Prop
  | nothing (rest : payment.rest = 0) : RefundCourse fault release oid key payment [] true payment
  | made (rest : 0 < payment.rest)
      (fault' : fault ∉ [Fault.paymentUnavailable, .refundTimeoutBeforeCommit,
      .refundTimeoutAfterCommit]) :
      RefundCourse fault release oid key payment
        [refundTried oid key payment.rest (refundMade payment.rest)] true payment.settled
  | unavailable (rest : 0 < payment.rest) (baseline : release = "baseline")
      (down : fault = .paymentUnavailable) :
      RefundCourse fault release oid key payment [refundTried oid key payment.rest timeout]
        false payment
  | lost (rest : 0 < payment.rest) (baseline : release = "baseline")
      (before : fault = .refundTimeoutBeforeCommit) :
      RefundCourse fault release oid key payment [refundTried oid key payment.rest timeout]
        false payment
  | unseen (rest : 0 < payment.rest) (baseline : release = "baseline")
      (after : fault = .refundTimeoutAfterCommit) :
      RefundCourse fault release oid key payment [refundTried oid key payment.rest timeout]
        false payment.settled
  | givenUp (rest : 0 < payment.rest) (candidate : release ≠ "baseline")
      (down : fault = .paymentUnavailable) :
      RefundCourse fault release oid key payment
        [refundTried oid key payment.rest timeout, paymentShown oid payment,
          refundTried oid key payment.rest timeout, paymentShown oid payment] false payment
  | retried (rest : 0 < payment.rest) (candidate : release ≠ "baseline")
      (before : fault = .refundTimeoutBeforeCommit) :
      RefundCourse fault release oid key payment
        [refundTried oid key payment.rest timeout, paymentShown oid payment,
          refundTried oid key payment.rest (refundMade payment.rest)] true payment.settled
  | discovered (rest : 0 < payment.rest) (candidate : release ≠ "baseline")
      (after : fault = .refundTimeoutAfterCommit) :
      RefundCourse fault release oid key payment
        [refundTried oid key payment.rest timeout, paymentShown oid payment.settled]
        true payment.settled

/-- The courses from the begin on: the exchanges, the kind of the response and the amount
it reports, and the order and the payment left. -/
inductive Settlement (fault : Fault) (release oid key : String)
    (released : Table ReleaseRow.orderId) (order : OrderRow) (payment : PaymentRow) :
    List Exchange → ResponseKind → Option Int → OrderRow → PaymentRow → Prop
  | handedOver {ys : List Exchange} {payment' : PaymentRow} (reason : String)
      (refund : RefundCourse fault release oid key payment ys false payment') :
      Settlement fault release oid key released order payment
        (paymentShown oid payment :: ys ++ [ticketOpened oid reason]) .escalated none order payment'
  | keyTaken {ys : List Exchange} {payment' : PaymentRow} (reason : String)
      (refund : RefundCourse fault release oid key payment ys true payment')
      (taken : KeyTaken released oid) :
      Settlement fault release oid key released order payment
        (paymentShown oid payment :: ys ++
        [releaseTried oid (refusal "error" "IDEMPOTENCY_CONFLICT"),
          ticketOpened oid reason]) .escalated none order payment'
  | completed {ys : List Exchange} {payment' : PaymentRow} {fields : Fields}
      (answered : ReleaseFields fields)
      (refund : RefundCourse fault release oid key payment ys true payment')
      (free : ¬ KeyTaken released oid) :
      Settlement fault release oid key released order payment
        (paymentShown oid payment :: ys ++ [releaseTried oid (okAnswer fields),
          completionTried oid (okAnswer [("order_status", .str "cancelled")]),
          orderShown oid order.completed]) .completed (some order.amountCents) order.completed
            payment'

/-- The courses on an order of the actor. -/
inductive Course (fault : Fault) (release oid key : String) (released : Table ReleaseRow.orderId)
    (order : OrderRow) (payment : PaymentRow) :
    List Exchange → ResponseKind → Option Int → OrderRow → PaymentRow → Prop
  | cancelled (already : order.status = .cancelled) :
      Course fault release oid key released order payment
        [orderShown oid order, paymentShown oid payment] .completed (some payment.refundedCents)
        order payment
  | refused (notOpen : order.status ≠ .cancelled) (refused : ¬ order.Cancellable) :
      Course fault release oid key released order payment
        [orderShown oid order, policyShown oid order] .refused none order payment
  | shipped (cancellable : order.Cancellable) (ships : fault = .shipBeforeCancel) :
      Course fault release oid key released order payment
        [orderShown oid order, policyShown oid order,
          beginTried oid order.version (refusal "error" "VERSION_CONFLICT"),
          orderShown oid order.shipped, policyShown oid order.shipped] .refused none
        order.shipped payment
  | begun {ys : List Exchange} {kind : ResponseKind} {cents : Option Int} {order' : OrderRow}
      {payment' : PaymentRow} (cancellable : order.Cancellable) (quiet : fault ≠ .shipBeforeCancel)
      (rest : Settlement fault release oid key released order.begun payment ys kind cents order'
        payment') :
      Course fault release oid key released order payment
        (orderShown oid order :: policyShown oid order ::
          beginTried oid order.version (beginAnswer order) :: ys) kind cents order' payment'

/-! ### Reading the answers -/

section Reading

variable {env : Environment} {oid : String}

theorem ends_isText {value : Json} {name text : String} (found : Json)
    (read' : value.item name = .ok found) :
    Program.Ends (isText value name text) env (pyEq found (.str text)) env := by
  refine Program.Ends.bind (Program.ends_ofExcept (a := found) ?_ env) (Program.ends_pure _ _)
  rw [read']
  rfl

theorem ends_isText_true {value : Json} {name text : String}
    (read' : value.item name = .ok (.str text)) :
    Program.Ends (isText value name text) env true env :=
  pyEq_iff_str.mpr rfl ▸ ends_isText (.str text) read'

theorem ends_isText_false {value found : Json} {name text : String}
    (read' : value.item name = .ok found) (other : found ≠ .str text) :
    Program.Ends (isText value name text) env false env :=
  Bool.eq_false_iff.mpr (mt pyEq_iff_str.mp other) ▸ ends_isText found read'

theorem notOk : Json.str "error" ≠ .str "ok" := by simp

theorem ends_hasCode {value : Json} {code : String} (found : Json)
    (read' : value.get "code" .null = .ok found) :
    Program.Ends (hasCode value code) env (pyEq found (.str code)) env := by
  refine Program.Ends.bind (Program.ends_ofExcept (a := found) ?_ env) (Program.ends_pure _ _)
  rw [read']
  rfl

theorem ends_hasCode_true {value : Json} {code : String}
    (read' : value.get "code" .null = .ok (.str code)) :
    Program.Ends (hasCode value code) env true env :=
  pyEq_iff_str.mpr rfl ▸ ends_hasCode (.str code) read'

theorem ends_hasCode_false {value found : Json} {code : String}
    (read' : value.get "code" .null = .ok found) (other : found ≠ .str code) :
    Program.Ends (hasCode value code) env false env :=
  Bool.eq_false_iff.mpr (mt pyEq_iff_str.mp other) ▸ ends_hasCode found read'

theorem ends_read {α : Type} {x : Except AccessError α} (a : α) (ok : x = .ok a) :
    Program.Ends (read x) env a env :=
  Program.ends_ofExcept (by rw [ok]; rfl) env

theorem ends_intItem {value : Json} {name : String} {n : Int}
    (read' : value.item name = .ok (.int n)) :
    Program.Ends (intItem value name) env n env :=
  (ends_read _ read').bind (ends_read _ rfl)

/-- A response that comes about. -/
theorem exists_respond (env : Environment) (orderId : Option String) (kind : ResponseKind)
    (message : String) (said : message ≠ "") (cents : Option Int) (nonneg : ∀ c ∈ cents, 0 ≤ c) :
    ∃ response : Response, Program.Ends
        (respond orderId kind message (cents.elim .null .int)) env response env ∧
      response.kind = kind ∧ response.orderId = orderId ∧ response.refundCents = cents := by
  unfold respond
  rw [dif_pos said]
  cases cents with
  | none => exact ⟨_, Program.ends_pure _ _, rfl, rfl, rfl⟩
  | some c =>
    have : 0 ≤ c := nonneg c rfl
    simp only [Option.elim_some]
    rw [dif_pos this]
    exact ⟨_, Program.ends_pure _ _, rfl, rfl, rfl⟩

end Reading

/-! ### Following the driver -/

section Follow

variable (stamps : ℕ → Stamp) {request : Request} {release : String} {start env : Environment}
  {oid : String} {order : OrderRow} {payment : PaymentRow} {used : Bool}
  {refunds : Table RefundRow.operationKey} {released : Table ReleaseRow.orderId}
    {xs : List Exchange}

/-- The script ends with this kind of response to the order, after these exchanges. -/
def Responds (script : Script Response) (start env : Environment) (oid : String)
    (xs : List Exchange) (kind : ResponseKind) (cents : Option Int) (order' : OrderRow)
    (payment' : PaymentRow) : Prop :=
  ∃ response env' used' refunds' released', Program.Ends script env response env' ∧
    response.kind = kind ∧ response.orderId = some oid ∧ response.refundCents = cents ∧
    At start oid order' payment' used' refunds' released' xs env'

theorem responds_escalate (now : At start oid order payment used refunds released xs env)
    (room : start.events.length + xs.length < maxToolCalls) (reason : String)
    (said : isBlank reason = false) :
    Responds (escalate stamps oid reason) start env oid (xs ++ [ticketOpened oid reason])
      .escalated none order payment := by
  obtain ⟨env', called, now'⟩ := now.openTicket stamps room said
  obtain ⟨response, responded, kind, named, amount⟩ := exists_respond env' (some oid) .escalated
    "취소 처리가 끝나지 않았습니다. 담당자가 결제와 주문 상태를 확인하도록 접수했습니다." (by decide) none (by simp)
  exact ⟨response, env', used, refunds, released, called.bind responded, kind, named, amount, now'⟩

theorem ends_orderStatus (order : OrderRow) (status : OrderStatus) :
    Program.Ends (isText order.toJson "status" status.name) env (decide (order.status = status))
      env := by
  have read' : order.toJson.item "status" = .ok (.str order.status.name) := rfl
  have same : pyEq (.str order.status.name) (.str status.name) =
      decide (order.status = status) := by
    rw [Bool.eq_iff_iff, pyEq_str_iff, Json.str.injEq, decide_eq_true_iff,
      OrderStatus.name_injective.eq_iff]
    exact eq_comm
  exact same ▸ ends_isText _ read'

/-- The last steps of a refunded order. -/
theorem responds_finish (now : At start oid order payment used refunds released xs env)
    (room : start.events.length + xs.length + 3 ≤ maxToolCalls)
    (started : order.status = .cancelling)
    (full : payment.refundedCents = payment.capturedCents) {shown : OrderRow}
    (amount : shown.amountCents = order.amountCents) (priced : 0 ≤ order.amountCents) :
    (KeyTaken released oid ∧ ∃ reason, Responds (finish stamps oid shown.toJson) start env oid
      (xs ++ [releaseTried oid (refusal "error" "IDEMPOTENCY_CONFLICT"), ticketOpened oid reason])
      .escalated none order payment) ∨
    (¬ KeyTaken released oid ∧ ∃ fields, ReleaseFields fields ∧
      Responds (finish stamps oid shown.toJson) start env oid
      (xs ++ [releaseTried oid (okAnswer fields),
        completionTried oid (okAnswer [("order_status", .str "cancelled")]),
        orderShown oid order.completed]) .completed (some order.amountCents) order.completed
      payment) := by
  by_cases taken : KeyTaken released oid
  · -- The key of the release is bound already, so the case goes to a person.
    refine .inl ⟨taken, "재고 복원 실패", ?_⟩
    obtain ⟨env₁, called, now₁⟩ := now.releaseTaken stamps (by omega) taken
    obtain ⟨response, env', used', refunds', released', ends, facts⟩ :=
      responds_escalate stamps now₁
        (by simp only [List.length_append, List.length_singleton]; omega)
        "재고 복원 실패" (by decide)
    rw [List.append_assoc] at facts
    refine ⟨response, env', used', refunds', released', ?_, facts⟩
    exact called.bind ((ends_isText_false rfl notOk).bind (.of_pos rfl ends))
  · -- Release, completion and a last look, which shows the order cancelled.
    refine .inr ⟨taken, ?_⟩
    obtain ⟨env₁, fields, released₁, called₁, answered, stocked, now₁⟩ :=
      now.release stamps (by omega) taken started full
    obtain ⟨env₂, called₂, now₂⟩ := now₁.complete stamps
      (by simp only [List.length_append, List.length_singleton]; omega) started full stocked
    obtain ⟨env₃, called₃, now₃⟩ := now₂.getOrder stamps
      (by simp only [List.length_append, List.length_singleton]; omega)
    obtain ⟨response, responded, kind, named, cents⟩ := exists_respond env₃ (some oid) .completed
      "주문 취소와 결제 환불, 재고 복원을 확인했습니다." (by decide)
      (some order.amountCents) (by simpa using priced)
    refine ⟨fields, answered, response, env₃, used, refunds, released₁, ?_, kind, named, cents, ?_⟩
    · refine called₁.bind ((ends_isText_true rfl).bind (.of_neg (by decide) ?_))
      refine called₂.bind (called₃.bind ((ends_isText_true rfl).bind ?_))
      have isCancelled : Program.Ends (shownCancelled true
          (okAnswer [("order", order.completed.toJson)])) env₃ true env₃ :=
        (ends_read order.completed.toJson rfl).bind
          (ends_orderStatus order.completed .cancelled)
      refine isCancelled.bind (.of_neg (by decide) ?_)
      have price : shown.toJson.item "amount_cents" = .ok (.int order.amountCents) := by
        rw [← amount]
        rfl
      exact (ends_read _ price).bind responded
    · simpa only [List.append_assoc, List.singleton_append, List.cons_append, List.nil_append]
        using now₃

theorem isBlank_refundKey (request : Request) (oid : String) :
    isBlank (refundKey request oid) = false :=
  isBlank_of_mem (c := 'r') (by simp [refundKey, String.toList_append]) (by decide)

/-- What the attempts at the refund come to. -/
def Attempts (script : Script RefundOutcome) (start env : Environment) (oid : String)
    (order : OrderRow) (released : Table ReleaseRow.orderId) (xs : List Exchange)
    (course : List Exchange → Bool → PaymentRow → Prop) : Prop :=
  ∃ ys payment', ((∃ confirmed env' used' refunds',
      Program.Ends script env (.attempted confirmed) env' ∧ course ys confirmed payment' ∧
        At start oid order payment' used' refunds' released (xs ++ ys) env') ∨
    ∃ response env' used' refunds' released' reason,
      Program.Ends script env (.handedOver response) env' ∧ course ys false payment' ∧
        response.kind = .escalated ∧ response.orderId = some oid ∧ response.refundCents = none ∧
          At start oid order payment' used' refunds' released'
          (xs ++ ys ++ [ticketOpened oid reason]) env')

section Attempt

variable {n : ℕ} {amount : Int} {env₁ env₂ env₃ : Environment} {response : Response}
  {outcome : RefundOutcome}

/-- A call of the refund, as the driver makes it. -/
def refundCall (request : Request) (oid : String) (amount : Int) : Script Json :=
  callTool stamps "refund_payment" [("order_id", .str oid), ("amount_cents", .int amount),
    ("idempotency_key", .str (refundKey request oid))]

/-- A refund that was made ends the attempts. -/
theorem ends_attempt_made
    (called : Program.Ends (refundCall stamps request oid amount) env (refundMade amount) env₁) :
    Program.Ends (attemptRefund stamps request release oid amount (n + 1) false) env
      (.attempted true) env₁ := by
  exact Program.Ends.bind called ((ends_isText_true rfl).bind (.of_pos rfl (Program.ends_pure _ _)))

/-- The baseline hands over a refund whose answer was lost. -/
theorem ends_attempt_baseline (baseline : release = "baseline")
    (called : Program.Ends (refundCall stamps request oid amount) env timeout env₁)
    (escalated : Program.Ends (escalate stamps oid "환불 결과 미확정") env₁ response env₂) :
    Program.Ends (attemptRefund stamps request release oid amount (n + 1) false) env
      (.handedOver response) env₂ := by
  refine Program.Ends.bind called ((ends_isText_false rfl notOk).bind (.of_neg (by decide)
    ((ends_hasCode_true rfl).bind (.of_pos ?_ (escalated.bind (Program.ends_pure _ _))))))
  rw [decide_eq_true baseline]
  rfl

/-- The candidate looks at the payment and goes on. -/
theorem ends_attempt_again (candidate : release ≠ "baseline")
    (called : Program.Ends (refundCall stamps request oid amount) env timeout env₁)
    (shown : Program.Ends (callOrder stamps oid "get_payment") env₁
      (okAnswer [("payment", payment.toJson)]) env₂)
    (again : Program.Ends (attemptRefund stamps request release oid amount n
      (decide (payment.refundedCents = payment.capturedCents))) env₂ outcome env₃) :
    Program.Ends (attemptRefund stamps request release oid amount (n + 1) false) env outcome
      env₃ := by
  refine Program.Ends.bind called ((ends_isText_false rfl notOk).bind (.of_neg (by decide)
    ((ends_hasCode_true rfl).bind (.of_neg ?_ ?_))))
  · rw [decide_eq_false candidate]
    decide
  · refine shown.bind ((ends_read payment.toJson rfl).bind ?_)
    exact (ends_intItem rfl).bind ((ends_intItem rfl).bind again)

end Attempt

/-- The attempts at the refund take one of the courses. -/
theorem attempts_attemptRefund (request : Request) (release : String)
    (now : At start oid order payment false refunds released xs env)
    (room : start.events.length + xs.length + 4 ≤ maxToolCalls)
    (started : order.status = .cancelling)
    (fresh : ∀ key, refunds.find? key = none)
    (balanced : 0 ≤ payment.rest ∧ payment.rest < 2 ^ 63) :
    Attempts (attemptRefund stamps request release oid payment.rest 2 (decide (payment.rest = 0)))
      start env oid order released xs
      (RefundCourse start.fault release oid (refundKey request oid) payment) := by
  by_cases nothing : payment.rest = 0
  · refine ⟨[], payment, .inl ⟨true, env, false, refunds, ?_, .nothing nothing, ?_⟩⟩
    · rw [decide_eq_true nothing]
      exact Program.ends_pure _ _
    · rwa [List.append_nil]
  have rest : 0 < payment.rest := by omega
  have due : Refundable order payment refunds (refundKey request oid) :=
    ⟨started, rest, ⟨by omega, balanced.2⟩, isBlank_refundKey request oid, fresh _⟩
  -- The first attempt is made, and every course but the empty one begins with it.
  obtain ⟨env₁, result, payment₁, used₁, refunds₁, called₁, now₁, outcome⟩ :=
    now.refund stamps (by omega) due
  rw [decide_eq_false nothing]
  have room₁ : start.events.length +
      (xs ++ [refundTried oid (refundKey request oid) payment.rest result]).length + 3 ≤
        maxToolCalls := by
    simp only [List.length_append, List.length_singleton]
    omega
  have open' : ¬ payment.refundedCents = payment.capturedCents := by
    unfold PaymentRow.rest at nothing
    omega
  by_cases baseline : release = "baseline"
  · -- Whatever was lost is handed over.
    have handOver : result = timeout → RefundCourse start.fault release oid (refundKey request oid)
        payment [refundTried oid (refundKey request oid) payment.rest timeout] false payment₁ →
        Attempts (attemptRefund stamps request release oid payment.rest 2 false) start env oid order
          released xs (RefundCourse start.fault release oid (refundKey request oid) payment) := by
      rintro rfl course
      obtain ⟨response, env₂, used₂, refunds₂, released₂, escalated, kind, named, cents, now₂⟩ :=
        responds_escalate stamps now₁ (by omega) "환불 결과 미확정" (by decide)
      exact ⟨_, payment₁, .inr ⟨response, env₂, used₂, refunds₂, released₂, _,
        ends_attempt_baseline stamps baseline called₁ escalated, course, kind, named, cents, now₂⟩⟩
    rcases outcome with ⟨down, lost, rfl, -⟩ | ⟨before, -, lost, rfl, -⟩
      | ⟨after, -, lost, rfl, -⟩ | ⟨up, notBefore, notAfter, rfl, rfl, rfl⟩
    · exact handOver lost (.unavailable rest baseline down)
    · exact handOver lost (.lost rest baseline before)
    · exact handOver lost (.unseen rest baseline after)
    · exact ⟨_, _, .inl ⟨true, env₁, _, refunds₁, ends_attempt_made stamps called₁,
        .made rest (by simp_all), now₁⟩⟩
  · -- Whatever was lost is looked at, and tried again if it was not made.
    rcases outcome with ⟨down, rfl, same, rfl, kept⟩ | ⟨before, -, rfl, same, rfl, kept⟩ |
      ⟨after, -, rfl, rfl, rfl⟩ | ⟨up, notBefore, notAfter, rfl, rfl, rfl⟩
    · -- The refunds are down: both attempts are lost, and both looks show the payment open.
      obtain ⟨rfl, rfl⟩ := And.intro same.symm kept.symm
      obtain ⟨env₂, shown₂, now₂⟩ := now₁.getPayment stamps (by omega)
      obtain ⟨env₃, result₃, payment₃, used₃, refunds₃, called₃, now₃, outcome₃⟩ :=
        now₂.refund stamps (by simp only [List.length_append, List.length_singleton]; omega) due
      obtain ⟨rfl, rfl⟩ : result₃ = timeout ∧ payment₃ = payment := by simp_all
      obtain ⟨env₄, shown₄, now₄⟩ := now₃.getPayment stamps
        (by simp only [List.length_append, List.length_singleton]; omega)
      refine ⟨_, _, .inl ⟨false, env₄, used₃, refunds₃, ?_, .givenUp rest baseline down, ?_⟩⟩
      · refine ends_attempt_again stamps baseline called₁ shown₂ ?_
        rw [decide_eq_false open']
        refine ends_attempt_again stamps baseline called₃ shown₄ ?_
        rw [decide_eq_false open']
        exact Program.ends_pure _ _
      · simpa only [List.append_assoc, List.singleton_append, List.cons_append, List.nil_append]
          using now₄
    · -- The answer was lost before the commit, and the fault is spent: the second attempt is
      -- made.
      obtain ⟨rfl, rfl⟩ := And.intro same.symm kept.symm
      obtain ⟨env₂, shown₂, now₂⟩ := now₁.getPayment stamps (by omega)
      obtain ⟨env₃, result₃, payment₃, used₃, refunds₃, called₃, now₃, outcome₃⟩ :=
        now₂.refund stamps (by simp only [List.length_append, List.length_singleton]; omega) due
      obtain ⟨rfl, rfl⟩ : result₃ = refundMade payment.rest ∧ payment₃ = payment.settled := by
        simp_all [refundMade]
      refine ⟨_, _, .inl ⟨true, env₃, used₃, refunds₃, ?_, .retried rest baseline before, ?_⟩⟩
      · refine ends_attempt_again stamps baseline called₁ shown₂ ?_
        rw [decide_eq_false open']
        exact ends_attempt_made stamps called₃
      · simpa only [List.append_assoc, List.singleton_append, List.cons_append, List.nil_append]
          using now₃
    · -- The answer was lost after the commit, and the look shows it.
      obtain ⟨env₂, shown₂, now₂⟩ := now₁.getPayment stamps (by omega)
      refine ⟨_, _, .inl ⟨true, env₂, true, refunds₁, ?_, .discovered rest baseline after, ?_⟩⟩
      · refine ends_attempt_again stamps baseline called₁ shown₂ ?_
        have full : payment.settled.refundedCents = payment.settled.capturedCents := rfl
        rw [decide_eq_true full]
        exact Program.ends_pure _ _
      · simpa only [List.append_assoc, List.singleton_append, List.cons_append, List.nil_append]
          using now₂
    · exact ⟨_, _, .inl ⟨true, env₁, _, refunds₁, ends_attempt_made stamps called₁,
        .made rest (by simp_all), now₁⟩⟩

/-- A confirmed course of the refund leaves nothing to refund. -/
theorem RefundCourse.full {fault : Fault} {key : String} {ys : List Exchange}
    {payment' : PaymentRow} (course : RefundCourse fault release oid key payment ys true payment') :
    payment'.refundedCents = payment'.capturedCents := by
  cases course with
  | nothing rest =>
    unfold PaymentRow.rest at rest
    omega
  | made | retried | discovered => rfl

theorem RefundCourse.length_le {fault : Fault} {key : String} {ys : List Exchange}
    {confirmed : Bool}
    {payment' : PaymentRow} (course : RefundCourse fault release oid key payment ys confirmed
      payment') :
    ys.length ≤ 4 := by
  cases course <;> simp

/-- The driver, from the begin on, takes one of the courses. -/
theorem settlement_settle (request : Request) (release : String)
    (now : At start oid order payment false refunds released xs env)
    (room : start.events.length + xs.length + 8 ≤ maxToolCalls)
    (started : order.status = .cancelling)
    (fresh : ∀ key, refunds.find? key = none)
    (balanced : 0 ≤ payment.rest ∧ payment.rest < 2 ^ 63) {shown : OrderRow}
    (amount : shown.amountCents = order.amountCents) (priced : 0 ≤ order.amountCents) :
    ∃ ys kind cents order' payment',
      Settlement start.fault release oid (refundKey request oid) released order
        payment ys kind cents order' payment' ∧
      Responds (settle stamps request release oid shown.toJson) start env oid (xs ++ ys) kind cents
        order' payment' := by
  obtain ⟨env₁, called₁, now₁⟩ := now.getPayment stamps (by omega)
  have room₁ : start.events.length + (xs ++ [paymentShown oid payment]).length + 7 ≤
      maxToolCalls := by
    simp only [List.length_append, List.length_singleton]
    omega
  have reaches : ∀ {outcome : RefundOutcome} {env₂ : Environment},
      Program.Ends (attemptRefund stamps request release oid payment.rest 2
        (decide (payment.rest = 0))) env₁ outcome env₂ →
      ∀ {env₃ : Environment} {response : Response},
        (∀ answered, outcome = .handedOver answered → answered = response ∧ env₃ = env₂) →
        (outcome = .attempted false → Program.Ends
          (escalate stamps oid "결제 서비스 재시도 한도 도달") env₂ response env₃) →
        (outcome = .attempted true → Program.Ends
          (finish stamps oid shown.toJson) env₂ response env₃) →
        Program.Ends (settle stamps request release oid shown.toJson) env response env₃ := by
    intro outcome env₂ attempted env₃ response handed escalated finished
    refine called₁.bind ((ends_read payment.toJson rfl).bind ?_)
    refine (ends_intItem rfl).bind ((ends_intItem rfl).bind (attempted.bind ?_))
    -- What follows an attempt depends on how it came out.
    cases outcome with
    | handedOver answered =>
      obtain ⟨rfl, rfl⟩ := handed answered rfl
      exact Program.ends_pure _ _
    | attempted confirmed =>
      cases confirmed with
      | false => exact escalated rfl
      | true => exact finished rfl
  obtain ⟨ys, payment', attempted | handedOver⟩ := attempts_attemptRefund stamps
    request release now₁ (by omega) started fresh balanced
  · obtain ⟨confirmed, env₂, used₂, refunds₂, attempted, course, now₂⟩ := attempted
    have short := course.length_le
    have room₂ : start.events.length + (xs ++ [paymentShown oid payment] ++ ys).length + 3 ≤
        maxToolCalls := by
      rw [List.length_append]
      omega
    cases confirmed with
    | false =>
      obtain ⟨response, env₃, used₃, refunds₃, released₃, escalated, facts⟩ :=
        responds_escalate stamps now₂ (by omega) "결제 서비스 재시도 한도 도달" (by decide)
      refine ⟨_, _, _, _, _, .handedOver "결제 서비스 재시도 한도 도달" course, response, env₃, used₃, refunds₃,
        released₃, reaches attempted (by simp) (fun _ => escalated) (by simp), ?_⟩
      simpa only [List.append_assoc, List.cons_append, List.nil_append] using facts
    | true =>
      rcases responds_finish stamps now₂ room₂ started course.full amount priced with
        ⟨taken, reason, response, env₃, used₃, refunds₃, released₃, finished, facts⟩ |
        ⟨free, fields, answered, response, env₃, used₃, refunds₃, released₃, finished, facts⟩
      · refine ⟨_, _, _, _, _, .keyTaken reason course taken, response, env₃, used₃, refunds₃,
          released₃, reaches attempted (by simp) (by simp) (fun _ => finished), ?_⟩
        simpa only [List.append_assoc, List.cons_append, List.nil_append] using facts
      · refine ⟨_, _, _, _, _, .completed answered course free, response, env₃, used₃, refunds₃,
          released₃, reaches attempted (by simp) (by simp) (fun _ => finished), ?_⟩
        simpa only [List.append_assoc, List.cons_append, List.nil_append] using facts
  · obtain ⟨response, env₂, used₂, refunds₂, released₂, reason, attempted, course, facts⟩ :=
      handedOver
    refine ⟨_, _, _, _, _, .handedOver reason course, response, env₂, used₂, refunds₂, released₂,
      reaches attempted (by simp) (by simp) (by simp), ?_⟩
    simpa only [List.append_assoc, List.cons_append, List.nil_append] using facts

@[simp] theorem OrderRow.amountCents_begun (order : OrderRow) :
    order.begun.amountCents = order.amountCents := by
  unfold OrderRow.begun
  split_ifs <;> rfl

/-- The answer about the policy, read by the driver. -/
theorem ends_allowed (order : OrderRow) : Program.Ends
    (read ((Environment.policyAnswer order).item "allowed")) env
      (.bool (order.status = .paid ∨ order.status = .cancelling)) env :=
  ends_read _ rfl

/-- The driver, on an order that it may cancel, takes one of the courses. -/
theorem course_beginCase (request : Request) (release : String)
    (now : At start oid order payment false refunds released xs env)
    (room : start.events.length + xs.length + 9 ≤ maxToolCalls) (cancellable : order.Cancellable)
    (fresh : ∀ key, refunds.find? key = none) (balanced : 0 ≤ payment.rest ∧ payment.rest < 2 ^ 63)
    (priced : 0 ≤ order.amountCents) (fits : order.Fits) :
    ∃ ys kind cents order' payment',
      Course start.fault release oid (refundKey request oid) released order payment
        (orderShown oid order :: policyShown oid order :: ys) kind cents order' payment' ∧
      Responds (beginCase stamps request release oid order.toJson) start env oid
        (xs ++ ys) kind cents order' payment' := by
  by_cases ships : start.fault = .shipBeforeCancel
  · -- The order is shipped under the driver, which finds out by looking again.
    obtain ⟨env₁, called₁, now₁⟩ := now.beginShipped stamps (by omega) fits.2.2 ⟨ships, rfl⟩
    obtain ⟨env₂, called₂, now₂⟩ := now₁.getOrder stamps
      (by simp only [List.length_append, List.length_singleton]; omega)
    obtain ⟨env₃, called₃, now₃⟩ := now₂.checkPolicy stamps
      (by simp only [List.length_append, List.length_singleton]; omega)
    obtain ⟨response, responded, kind, named, amount⟩ := exists_respond env₃ (some oid) .refused
      "처리 중 출고가 시작되어 취소할 수 없습니다." (by decide) none (by simp)
    refine ⟨_, _, _, _, _, .shipped cancellable ships, response, env₃, _, _, _, ?_, kind, named,
      amount, by simpa only [List.append_assoc, List.cons_append, List.nil_append] using now₃⟩
    have version : Program.Ends (read (order.toJson.item "version")) env (.int order.version) env :=
      ends_read _ (congrArg Except.ok fits.versionJson_eq)
    refine version.bind ?_
    refine Program.Ends.bind called₁ ?_
    refine (ends_hasCode_true rfl).bind ?_
    refine Program.Ends.of_pos rfl ?_
    exact called₂.bind (called₃.bind ((ends_allowed order.shipped).bind (.of_pos rfl responded)))
  · -- The cancellation begins, and the settlement decides the rest.
    obtain ⟨env₁, called₁, now₁⟩ := now.begin stamps (by omega) cancellable fits.2.2
      (by simp [ships])
    obtain ⟨ys, kind, cents, order', payment', course, responds⟩ := settlement_settle
      stamps request release now₁
      (by simp only [List.length_append, List.length_singleton]; omega)
        cancellable.status_begun fresh
      balanced order.amountCents_begun.symm (by simpa using priced)
    obtain ⟨response, env₂, used₂, refunds₂, released₂, ends, facts⟩ := responds
    refine ⟨_, _, _, _, _, .begun cancellable ships course, response, env₂, used₂, refunds₂,
      released₂, ?_, by simpa only [List.append_assoc, List.cons_append,
      List.nil_append] using facts⟩
    have version : Program.Ends (read (order.toJson.item "version")) env (.int order.version) env :=
      ends_read _ (congrArg Except.ok fits.versionJson_eq)
    refine version.bind ?_
    refine Program.Ends.bind called₁ ?_
    refine (ends_hasCode_false order.get_beginAnswer (by simp)).bind ?_
    refine Program.Ends.of_neg (by decide) ?_
    refine (ends_isText_true order.item_beginAnswer).bind ?_
    exact .of_neg (by decide) ends

/-- The driver, on an order that was looked up, takes one of the courses. -/
theorem course_openCase (request : Request) (release : String)
    (now : At start oid order payment false refunds released xs env)
    (room : start.events.length + xs.length + 10 ≤ maxToolCalls)
    (fresh : ∀ key, refunds.find? key = none) (balanced : 0 ≤ payment.rest ∧ payment.rest < 2 ^ 63)
    (refunded : 0 ≤ payment.refundedCents) (priced : 0 ≤ order.amountCents) (fits : order.Fits) :
    ∃ ys kind cents order' payment',
      Course start.fault release oid (refundKey request oid) released order payment
        (orderShown oid order :: ys) kind cents order' payment' ∧
      Responds (openCase stamps request release oid order.toJson) start env oid
        (xs ++ ys) kind cents order' payment' := by
  by_cases already : order.status = .cancelled
  · -- Nothing is left to do, and what was refunded is reported.
    obtain ⟨env₁, called₁, now₁⟩ := now.getPayment stamps (by omega)
    obtain ⟨response, responded, kind, named, amount⟩ := exists_respond env₁ (some oid) .completed
      "이미 취소된 주문입니다. 추가 환불이나 재고 변경은 하지 않았습니다." (by decide)
      (some payment.refundedCents) (by simpa using refunded)
    refine ⟨_, _, _, _, _, .cancelled already, response, env₁, _, _, _, ?_, kind, named, amount,
      now₁⟩
    refine (ends_orderStatus order .cancelled).bind (.of_pos (decide_eq_true already) ?_)
    refine called₁.bind ((ends_read payment.toJson rfl).bind ?_)
    have shown : Program.Ends (read (payment.toJson.item "refunded_cents")) env₁
        (.int payment.refundedCents) env₁ := ends_read _ rfl
    exact shown.bind responded
  obtain ⟨env₁, called₁, now₁⟩ := now.checkPolicy stamps (by omega)
  -- Every other course goes on from the answer of the policy check.
  have checks : ∀ {env' response}, Program.Ends (if !(Json.bool
      (order.status = .paid ∨ order.status = .cancelling)).isTruthy then
        respond oid .refused "출고가 진행된 주문은 이 절차로 취소할 수 없습니다." .null
      else beginCase stamps request release oid order.toJson) env₁ response env' →
      Program.Ends (openCase stamps request release oid order.toJson) env response env' := by
    intro env' response rest
    refine (ends_orderStatus order .cancelled).bind (.of_neg (by simpa using already) ?_)
    exact called₁.bind ((ends_allowed order).bind rest)
  by_cases cancellable : order.Cancellable
  · obtain ⟨ys, kind, cents, order', payment', course, responds⟩ := course_beginCase
      stamps request release now₁
      (by simp only [List.length_append, List.length_singleton]; omega) cancellable
        fresh balanced priced fits
    obtain ⟨response, env₂, used₂, refunds₂, released₂, ends, facts⟩ := responds
    refine ⟨_, _, _, _, _, course, response, env₂, used₂, refunds₂, released₂,
      checks (.of_neg ?_ ends),
      by simpa only [List.append_assoc, List.cons_append, List.nil_append] using facts⟩
    simpa [Json.isTruthy] using or_iff_not_imp_left.mp cancellable
  · obtain ⟨response, responded, kind, named, amount⟩ := exists_respond env₁ (some oid) .refused
      "출고가 진행된 주문은 이 절차로 취소할 수 없습니다." (by decide) none (by simp)
    refine ⟨_, _, _, _, _, .refused already cancellable, response, env₁, _, _, _,
      checks (.of_pos ?_ responded), kind, named, amount, now₁⟩
    simpa [Json.isTruthy, OrderRow.Cancellable] using cancellable

end Follow

/-! ### The driver on a request -/

/-- What the driver relies on: no fault is used up and no refund is made, and every order
has a payment whose balance is in range, and a price, and integers of 64 bits. -/
structure Ready (start : Environment) : Prop where
  faultUsed : start.faultUsed = false
  fresh : ∀ key, start.db.refunds.find? key = none
  paid : ∀ oid order, start.db.orders.find? oid = some order → ∃ payment : PaymentRow,
    start.db.payments.find? oid = some payment ∧ 0 ≤ payment.refundedCents ∧
      payment.refundedCents ≤ payment.capturedCents ∧ payment.Fits
  fits : ∀ oid order, start.db.orders.find? oid = some order → order.Fits
  priced : ∀ oid order, start.db.orders.find? oid = some order → 0 ≤ order.amountCents

/-- A look at an order that is refused. -/
def lookRefused (oid status code : String) : Exchange :=
  ⟨"get_order", [("order_id", .str oid)], refusal status code⟩

/-- The turns of the driver: the exchanges, the kind of the response and the amount it
reports, and the environment left. -/
inductive Turn (start : Environment) (release : String) (request : Request) :
    List Exchange → ResponseKind → Option Int → Environment → Prop
  | unnamed (noOrder : request.orderId = none ∨ request.orderId = some "") :
      Turn start release request [] .clarification none start
  | unknown {oid : String} {event : Event} (named : request.orderId = some oid)
      (missing : start.db.orders.find? oid = none)
      (shape : event.exchange = lookRefused oid "error" "NOT_FOUND") :
      Turn start release request [lookRefused oid "error" "NOT_FOUND"] .clarification none
        { start with events := start.events ++ [event] }
  | turnedAway {oid status code : String} {event : Event} (named : request.orderId = some oid)
      (barred : isBlank oid ∨ ∀ order ∈ start.db.orders.find? oid, order.customerId ≠ start.actorId)
      (isCode : code = "INVALID_ORDER_ID" ∨ code = "FORBIDDEN")
      (shape : event.exchange = lookRefused oid status code) :
      Turn start release request [lookRefused oid status code] .refused none
        { start with events := start.events ++ [event] }
  | followed {oid : String} {order order' : OrderRow} {payment payment' : PaymentRow} {used : Bool}
      {refunds : Table RefundRow.operationKey} {released : Table ReleaseRow.orderId}
      {ys : List Exchange} {kind : ResponseKind} {cents : Option Int} {env : Environment}
      (named : request.orderId = some oid) (found : start.db.orders.find? oid = some order)
      (own : order.customerId = start.actorId) (paid : start.db.payments.find? oid = some payment)
      (course : Course start.fault release oid (refundKey request oid) start.db.releases order
        payment ys kind cents order' payment')
      (left : At start oid order' payment' used refunds released ys env) :
      Turn start release request ys kind cents env

section Requests

variable (stamps : ℕ → Stamp) {request : Request} {release : String}
  {start : Environment} {oid : String}

/-- The look at an order, as a call. -/
def lookCall (start : Environment) (oid : String) : Call :=
  { stamp := stamps start.events.length, tool := "get_order", args := [("order_id", .str oid)] }

/-- A look at an order that reaches no tool. -/
theorem exists_lookRefused {result : Json} (called : start.call (lookCall stamps start oid) =
      (.ok result, { start with
        events := start.events ++ [start.eventOf (lookCall stamps start oid) result] })) :
    ∃ event : Event, event.exchange = ⟨"get_order", [("order_id", .str oid)], result⟩ ∧
      Program.Ends (callOrder stamps oid "get_order") start result
        { start with events := start.events ++ [event] } := by
  refine ⟨start.eventOf (lookCall stamps start oid) result, rfl, ?_⟩
  change ((start.call (lookCall stamps start oid)).1.mapError ScriptError.call,
    (start.call (lookCall stamps start oid)).2) = _
  rw [called]
  rfl

/-- The script answers the request and takes one of the turns. -/
def TakesTurn (script : Script Response) (start : Environment) (release : String)
    (request : Request) : Prop :=
  ∃ response ys kind cents env', Program.Ends script start response env' ∧
    response.orderId = request.orderId ∧ response.kind = kind ∧ response.refundCents = cents ∧
    Turn start release request ys kind cents env'

/-- The driver, on a request that names an order, takes one of the turns. -/
theorem takesTurn_lookUp (ready : Ready start) (room : start.events.length + 11 ≤ maxToolCalls)
    (named : request.orderId = some oid) :
    TakesTurn (lookUp stamps request release oid) start release request := by
  have target : ∀ {text}, Environment.textArg? [("order_id", .str oid)] "order_id" = some text →
      text = oid ∧ isBlank oid = false := by
    intro text given
    obtain ⟨read', visible⟩ := Option.filter_eq_some_iff.mp given
    obtain rfl : oid = text := by simpa [Dict.get?, asStr?] using read'
    exact ⟨rfl, by simpa using visible⟩
  obtain ⟨reply, left, path, called⟩ :=
    start.call_path (lookCall stamps start oid) (by omega)
  have reads : ∀ {tool : Tool} {order : OrderRow},
      start.Reaches "get_order" [("order_id", .str oid)] tool order →
      TakesTurn (lookUp stamps request release oid) start release request := by
    intro tool order reaches
    obtain ⟨rfl, text⟩ := target reaches.target
    obtain ⟨payment, paid, nonneg, bounded, fits⟩ := ready.paid _ _ reaches.found
    have now : At start order.id order payment false start.db.refunds start.db.releases [] start :=
      ⟨text, rfl, rfl, rfl, ready.faultUsed, reaches.found, reaches.own, paid, rfl, rfl, by simp⟩
    obtain ⟨env₁, called₁, now₁⟩ := now.getOrder stamps (by simp only [List.length_nil]; omega)
    obtain ⟨ys, kind, cents, order', payment', course, response, env', used, refunds, released,
      ends, isKind, answered, amount, left⟩ := course_openCase stamps request release
        now₁ (by simp only [List.nil_append, List.length_singleton]; omega) ready.fresh
        (by have := fits.1.2; unfold PaymentRow.rest; omega) nonneg
        (ready.priced _ _ reaches.found) (ready.fits _ _ reaches.found)
    refine ⟨response, _, _, _, env', ?_, answered.trans named.symm, isKind, amount,
      .followed named reaches.found reaches.own paid course left⟩
    refine Program.Ends.bind called₁ ?_
    refine (ends_hasCode_false rfl (by simp [Dict.get?])).bind (.of_neg (by decide) ?_)
    refine (ends_isText_true rfl).bind (.of_neg (by decide) ?_)
    exact (ends_read order.toJson rfl).bind ends
  cases path with
  | answered reaches => exact reads reaches
  | raised reaches => exact reads reaches
  | @unreached result unreached =>
    obtain ⟨event, shape, called⟩ := exists_lookRefused stamps called
    -- The driver turns away from every refusal but an unknown order.
    have away : ∀ {status code : String}, result = refusal status code →
        (code = "INVALID_ORDER_ID" ∨ code = "FORBIDDEN") →
        status ≠ "ok" →
        (isBlank oid ∨ ∀ order ∈ start.db.orders.find? oid, order.customerId ≠ start.actorId) →
        TakesTurn (lookUp stamps request release oid) start release request := by
      rintro status code rfl isCode bad barred
      have other : code ≠ "NOT_FOUND" := by rcases isCode with rfl | rfl <;> decide
      obtain ⟨response, responded, kind, answered, amount⟩ := exists_respond
        { start with events := start.events ++ [event] } (some oid) .refused
        "접근 권한을 확인할 수 없어 이 주문을 처리할 수 없습니다." (by decide) none (by simp)
      refine ⟨response, _, _, _, _, ?_, answered.trans named.symm, kind, amount,
        .turnedAway named barred isCode shape⟩
      refine Program.Ends.bind called ?_
      refine (ends_hasCode_false rfl (by simpa [Dict.get?] using other)).bind
        (.of_neg (by decide) ?_)
      exact (ends_isText_false rfl (by simpa using bad)).bind (.of_pos rfl responded)
    cases unreached with
    | unknownTool unknown => simp [lookCall, Tool.ofName?] at unknown
    | invalidOrderId invalid =>
      refine away rfl (.inl rfl) (by decide) (.inl ?_)
      simpa [lookCall, Environment.textArg?, Dict.get?, asStr?] using invalid
    | notFound given missing =>
      obtain ⟨same, -⟩ := target given
      rw [same] at missing
      obtain ⟨response, responded, kind, answered, amount⟩ := exists_respond
        { start with events := start.events ++ [event] } (some oid) .clarification
        "주문을 찾지 못했습니다. 주문 번호를 다시 확인해 주세요." (by decide) none (by simp)
      refine ⟨response, _, _, _, _, ?_, answered.trans named.symm, kind, amount,
        .unknown named missing shape⟩
      refine Program.Ends.bind called ?_
      exact (ends_hasCode_true rfl).bind (.of_pos rfl responded)
    | forbidden given found foreign =>
      obtain ⟨same, -⟩ := target given
      refine away rfl (.inr rfl) (by decide) (.inr ?_)
      intro other found'
      rw [← same, found] at found'
      obtain rfl := Option.some.inj found'
      exact foreign

/-- **The driver takes one of the turns**, on every request, and answers to it. -/
theorem takesTurn_runScripted (ready : Ready start) (room : start.events.length + 11 ≤ maxToolCalls)
    (known : release ∈ releases) (request : Request) :
    TakesTurn (runScripted stamps request release) start release request := by
  unfold runScripted
  rw [if_neg (not_not.mpr known)]
  cases named : request.orderId with
  | none =>
    obtain ⟨response, responded, kind, answered, amount⟩ := exists_respond start none .clarification
      "취소할 주문 번호를 알려주세요." (by decide) none (by simp)
    exact ⟨response, _, _, _, _, responded, answered.trans named.symm, kind, amount,
      .unnamed (.inl named)⟩
  | some oid =>
    dsimp only
    split_ifs with empty
    · obtain ⟨response, responded, kind, answered, amount⟩ := exists_respond start (some oid)
        .clarification "취소할 주문 번호를 알려주세요." (by decide) none (by simp)
      exact ⟨response, _, _, _, _, responded, answered.trans named.symm, kind, amount,
        .unnamed (.inr (empty ▸ named))⟩
    · exact takesTurn_lookUp stamps ready room named

end Requests

end AgentLabs.BusinessLab
