import AgentLabs.BusinessLab.Artifact
import AgentLabs.Math.Program

/-!
# The scripted driver

A driver without a model that follows the answers it observes. It looks at the order,
asks whether it can be cancelled, and goes through the steps of the cancellation; what
it cannot finish it hands over with a ticket. The two releases differ in one place: after
a refund whose answer was lost the baseline hands over at once, while the candidate looks
at the payment and tries once more.

## Main definitions

* `Script`, `ScriptError`: programs on the service, and how they fail
* `callTool`: a call of the service
* `runScripted`: the driver
-/

namespace AgentLabs.BusinessLab

open Math Text Json

/-- How a script fails. -/
inductive ScriptError where
  | call (error : CallError)
  | access (error : AccessError)
  | valueError
  | validationError
  | other (typeName : String)
  deriving DecidableEq, Repr

/-- `type(exc).__name__`. -/
def ScriptError.typeName : ScriptError → String
  | .call .toolBudgetExceeded => "RuntimeError"
  | .call (.service error) => error.typeName
  | .access .keyError => "KeyError"
  | .access .typeError => "TypeError"
  | .access .attributeError => "AttributeError"
  | .valueError => "ValueError"
  | .validationError => "ValidationError"
  | .other typeName => typeName

/-- A program on the service. -/
abbrev Script (α : Type) := Program Environment ScriptError α

/-- An access to a value, in a script. -/
def read {α : Type} (x : Except AccessError α) : Script α := Program.ofExcept (x.mapError .access)

/-- A call of the service. The stamp of a call is what the clock and the generator of
ids give at that position of the record. -/
def callTool (stamps : ℕ → Stamp) (tool : String) (args : Fields) : Script Json := fun env =>
  let reply := env.call { stamp := stamps env.events.length, tool, args }
  (reply.1.mapError .call, reply.2)

/-- The keys of `PROMPTS`. -/
def releases : List String := ["baseline", "candidate"]

section Driver

variable (stamps : ℕ → Stamp) (request : Request) (release : String) (oid : String)

/-- `respond`. The response is checked: it says something, and refunds no negative amount. -/
def respond (orderId : Option String) (kind : ResponseKind) (message : String) (amount : Json) :
    Script Response :=
  if said : message ≠ "" then
    match amount with
    | .null => pure ⟨kind, message, orderId, none, said, by simp⟩
    | .int cents =>
      if nonneg : 0 ≤ cents then pure ⟨kind, message, orderId, some cents,
        said, by simpa using nonneg⟩
      else throw .validationError
    | _ => throw .validationError
  else throw .validationError

/-- A call on the order, with no other argument. -/
def callOrder (tool : String) : Script Json := callTool stamps tool [("order_id", .str oid)]

/-- `escalate`. -/
def escalate (reason : String) : Script Response := do
  let _ ← callTool stamps "create_ticket" [("order_id", .str oid), ("reason", .str reason)]
  respond oid .escalated "취소 처리가 끝나지 않았습니다. 담당자가 결제와 주문 상태를 확인하도록 접수했습니다." .null

/-- `value[name] == text`. -/
def isText (value : Json) (name text : String) : Script Bool := do
  return pyEq (← read (value.item name)) (.str text)

/-- `value.get("code") == code`. -/
def hasCode (value : Json) (code : String) : Script Bool := do
  return pyEq (← read (value.get "code" .null)) (.str code)

/-- `value[name]`, for the amounts of a payment, whose columns are integers. -/
def intItem (value : Json) (name : String) : Script Int := do
  let found ← read (value.item name)
  read (found.asInt?.elim (.error .typeError) .ok)

/-- The key of the refunds of a request. -/
def refundKey : String := "refund:" ++ request.requestId ++ ":" ++ oid

/-- The key of the release of an order. -/
def stockKey : String := "stock:" ++ oid

/-- The order is shown as cancelled, after a completion that went well. -/
def shownCancelled (done : Bool) (final : Json) : Script Bool :=
  if done then do
    let order ← read (final.item "order")
    isText order "status" "cancelled"
  else pure false

/-- The last steps: the stock, the completion, and a look at the order. -/
def finish (order : Json) : Script Response := do
  let released ← callTool stamps "release_stock"
    [("order_id", .str oid), ("idempotency_key", .str (stockKey oid))]
  if !(← isText released "status" "ok") then
    escalate stamps oid "재고 복원 실패"
  else
    let completed ← callOrder stamps oid "complete_cancellation"
    let final ← callOrder stamps oid "get_order"
    let done ← isText completed "status" "ok"
    let cancelled ← shownCancelled done final
    if !cancelled then
      escalate stamps oid "취소 완료 확인 실패"
    else
      let amount ← read (order.item "amount_cents")
      respond oid .completed "주문 취소와 결제 환불, 재고 복원을 확인했습니다." amount

/-- What the attempts at a refund come to: the case is handed over, or the refund is
confirmed or not. -/
inductive RefundOutcome where
  | handedOver (response : Response)
  | attempted (confirmed : Bool)

/-- The loop of the refund attempts. -/
def attemptRefund (remaining : Int) : ℕ → Bool → Script RefundOutcome
  | 0, confirmed => pure (.attempted confirmed)
  | n + 1, confirmed =>
    if confirmed then pure (.attempted true)
    else do
      let refund ← callTool stamps "refund_payment"
        [("order_id", .str oid), ("amount_cents", .int remaining),
          ("idempotency_key", .str (refundKey request oid))]
      if ← isText refund "status" "ok" then pure (.attempted true)
      else
        let lost ← hasCode refund "TIMEOUT"
        if !lost || release = "baseline" then
          let response ← escalate stamps oid "환불 결과 미확정"
          pure (.handedOver response)
        else
          let answer ← callOrder stamps oid "get_payment"
          let payment ← read (answer.item "payment")
          let refunded ← intItem payment "refunded_cents"
          let captured ← intItem payment "captured_cents"
          attemptRefund remaining n (refunded = captured)

/-- The steps after the begin: the refund, unless there is nothing left to refund. -/
def settle (order : Json) : Script Response := do
  let answer ← callOrder stamps oid "get_payment"
  let payment ← read (answer.item "payment")
  let captured ← intItem payment "captured_cents"
  let refunded ← intItem payment "refunded_cents"
  let remaining := captured - refunded
  let outcome ← attemptRefund stamps request release oid remaining 2 (remaining = 0)
  match outcome with
  | .handedOver response => pure response
  | .attempted false => escalate stamps oid "결제 서비스 재시도 한도 도달"
  | .attempted true => finish stamps oid order

/-- The begin of the cancellation, with the version of the order that was looked up. -/
def beginCase (order : Json) : Script Response := do
  let version ← read (order.item "version")
  let begun ← callTool stamps "begin_cancellation"
    [("order_id", .str oid), ("expected_version", version)]
  if ← hasCode begun "VERSION_CONFLICT" then
    let _ ← callOrder stamps oid "get_order"
    let again ← callOrder stamps oid "check_cancel_policy"
    let allowed ← read (again.item "allowed")
    if !allowed.isTruthy then
      respond oid .refused "처리 중 출고가 시작되어 취소할 수 없습니다." .null
    else
      escalate stamps oid "주문 버전 충돌. 재검토 필요"
  else if !(← isText begun "status" "ok") then
    escalate stamps oid "취소 시작 실패"
  else
    settle stamps request release oid order

/-- The order that was looked up: already cancelled, not to be cancelled, or to be. -/
def openCase (order : Json) : Script Response := do
  if ← isText order "status" "cancelled" then
    let answer ← callOrder stamps oid "get_payment"
    let payment ← read (answer.item "payment")
    let refunded ← read (payment.item "refunded_cents")
    respond oid .completed "이미 취소된 주문입니다. 추가 환불이나 재고 변경은 하지 않았습니다." refunded
  else
    let policy ← callOrder stamps oid "check_cancel_policy"
    let allowed ← read (policy.item "allowed")
    if !allowed.isTruthy then
      respond oid .refused "출고가 진행된 주문은 이 절차로 취소할 수 없습니다." .null
    else
      beginCase stamps request release oid order

/-- The look at the order. -/
def lookUp : Script Response := do
  let found ← callOrder stamps oid "get_order"
  if ← hasCode found "NOT_FOUND" then
    respond oid .clarification "주문을 찾지 못했습니다. 주문 번호를 다시 확인해 주세요." .null
  else if !(← isText found "status" "ok") then
    respond oid .refused "접근 권한을 확인할 수 없어 이 주문을 처리할 수 없습니다." .null
  else
    let order ← read (found.item "order")
    openCase stamps request release oid order

/-- `run_scripted`. -/
def runScripted : Script Response :=
  if release ∉ releases then throw .valueError
  else
    match request.orderId with
    | none => respond none .clarification "취소할 주문 번호를 알려주세요." .null
    | some oid =>
      if oid = "" then respond oid .clarification "취소할 주문 번호를 알려주세요." .null
      else lookUp stamps request release oid

end Driver

end AgentLabs.BusinessLab
