import AgentLabs.BusinessLab.SideEffects

/-!
# What a refused call leaves

The tools refuse in about twenty places, some of them after they have looked at the store
and two of them after a fault has written to it. A call that is not answered with `ok`
leaves the store as it was, unless it is one of those two: the refund whose answer was
lost after its commit, and the cancellation that found the order shipped. A call that ends
in an exception leaves the store in any case.

## Main definitions

* `IsOk`: the answers that report success
* `RefundedUnseen`, `ShippedInstead`: the two faults that write
* `ErrorFrame`: what a call leaves

## Main results

* `errorFrame`: what every call leaves, in every state
-/

namespace AgentLabs.BusinessLab

open Math Text Json Environment

/-- The answer reports success. -/
def IsOk (answer : Json) : Prop := answer.item "status" = .ok (.str "ok")

theorem isOk_okAnswer (fields : Fields) : IsOk (okAnswer fields) := rfl

theorem Tool.name_of_ofName? {name : String} {tool : Tool} (known : Tool.ofName? name = some tool) :
    (tool = .refundPayment → name = "refund_payment") ∧
      (tool = .beginCancellation → name = "begin_cancellation") := by
  unfold Tool.ofName? at known
  split at known <;> cases known <;> simp

/-- The call refunded the order in full, with its row and on its payment, and the answer
was lost. -/
structure RefundedUnseen (env : Environment) (c : Call) (answer : Json) (db' : Database) :
    Prop where
  tool : c.tool = "refund_payment"
  fault : env.fault = .refundTimeoutAfterCommit
  lost : answer = timeout
  effect : ∃ order amount key payment refunds,
    env.Reaches c.tool c.args .refundPayment order ∧
      RefundDue env order c.args amount key payment ∧
      env.db.refunds.insert? ⟨key, order.id, amount⟩ = some refunds ∧
      db' = { env.db with refunds }.addRefunded order.id amount

/-- The call found the order shipped under its hands. -/
structure ShippedInstead (env : Environment) (c : Call) (db' : Database) : Prop where
  tool : c.tool = "begin_cancellation"
  fault : env.fault = .shipBeforeCancel
  effect : ∃ order, env.Reaches c.tool c.args .beginCancellation order ∧
    db' = env.db.setStatus order.id .shipped

/-- The call changes nothing but the record. -/
def ChangesNothing (env env' : Environment) : Prop := ∃ events, env' = { env with events }

/-- What a call leaves behind. -/
structure ErrorFrame (env : Environment) (c : Call) : Prop where
  budget : maxToolCalls ≤ env.events.length → env.call c = (.error .toolBudgetExceeded, env)
  recorded : env.events.length < maxToolCalls → ∃ reply env' event, env.call c =
    (reply.mapError .service, env') ∧ env'.events = env.events ++ [event] ∧
    event.step = env'.events.length ∧ event.result = Environment.recorded reply
  raised : ∀ error env', env.call c = (.error error, env') → ChangesNothing env env'
  refused : ∀ answer env', env.call c = (.ok answer, env') → ¬ IsOk answer →
    env'.db = env.db ∨ RefundedUnseen env c answer env'.db ∨ ShippedInstead env c env'.db
  unseen : env.fault = .refundTimeoutAfterCommit → ∀ env', env.call c = (.ok timeout, env') →
    RefundedUnseen env c timeout env'.db
  foreign : (∀ order, env.db.orders.find? order.id = some order →
      Dict.get? c.args "order_id" = some (.str order.id) → order.customerId ≠ env.actorId) →
    ChangesNothing env (env.call c).2

section

variable {env env' : Environment} {c : Call} {order : OrderRow} {tool : Tool} {answer : Json}

/-- An answer other than `ok` comes with the store as it was, or with one of the faults. -/
theorem Answer.refused (reaches : env.Reaches c.tool c.args tool order)
    (answered : Answer env order c.args tool answer env') (notOk : ¬ IsOk answer) :
    env'.db = env.db ∨ RefundedUnseen env c answer env'.db ∨ ShippedInstead env c env'.db := by
  have named := Tool.name_of_ofName? reaches.tool
  cases answered with
  | refundedUnseen due fault _ inserted =>
    obtain ⟨refunds, stored, rfl⟩ := Database.exists_of_insertRefund? inserted
    exact .inr (.inl ⟨named.1 rfl, fault, rfl, _, _, _, _, _, reaches, due, stored, rfl⟩)
  | shippedConflict _ armed _ => exact .inr (.inr ⟨named.2 rfl, armed.1, order, reaches, rfl⟩)
  | shippedDenied _ armed _ => exact .inr (.inr ⟨named.2 rfl, armed.1, order, reaches, rfl⟩)
  | _ => first | exact .inl rfl | exact absurd rfl notOk

/-- Under the fault after the commit, a refund with an open outcome was made. -/
theorem Answer.unseen (reaches : env.Reaches c.tool c.args tool order)
    (answered : Answer env order c.args tool answer env')
    (fault : env.fault = .refundTimeoutAfterCommit) (lost : answer = timeout) :
    RefundedUnseen env c answer env'.db := by
  have named := Tool.name_of_ofName? reaches.tool
  cases answered with
  | refundedUnseen due fault _ inserted =>
    obtain ⟨refunds, stored, rfl⟩ := Database.exists_of_insertRefund? inserted
    exact ⟨named.1 rfl, fault, rfl, _, _, _, _, _, reaches, due, stored, rfl⟩
  | refundUnavailable _ down => exact absurd (fault.symm.trans down) (by decide)
  | refundLost _ other => exact absurd (fault.symm.trans other) (by decide)
  | _ => simp [okAnswer, refusal, timeout, policyAnswer] at lost

/-- A call that reaches no tool has no open outcome. -/
theorem result_ne_timeout {result : Json} (unreached : Unreached env c.tool c.args result) :
    result ≠ timeout := by
  cases unreached <;> simp [refusal, timeout]

end

/-- **What every call leaves**, in every state and under every fault. -/
theorem errorFrame (env : Environment) (c : Call) : ErrorFrame env c := by
  by_cases spent : maxToolCalls ≤ env.events.length
  · -- The budget is used up: the call raises, and there is no answer to speak of.
    have called : env.call c = (.error .toolBudgetExceeded, env) := if_pos spent
    have none : ∀ answer env', env.call c ≠ (.ok answer, env') := by simp [called]
    refine ⟨fun _ => called, fun room => absurd spent (Nat.not_le.mpr room), ?_,
      fun answer env' answered => absurd answered (none answer env'),
      fun _ env' answered => absurd answered (none timeout env'),
      fun _ => ⟨env.events, by rw [called]⟩⟩
    intro error env' failed
    obtain ⟨-, rfl⟩ := Prod.mk.inj (called.symm.trans failed)
    exact ⟨env.events, rfl⟩
  have room : env.events.length < maxToolCalls := Nat.lt_of_not_le spent
  obtain ⟨reply, left, path, called⟩ := env.call_path c room
  -- The call answers in one way, so each law is about the path that it took.
  have exactly : ∀ {answer env'}, env.call c = (.ok answer, env') →
      reply = .ok answer ∧ env'.db = left.db := by
    intro answer env' answered
    obtain ⟨same, rfl⟩ := Prod.mk.inj (called.symm.trans answered)
    cases reply with
    | ok result => exact ⟨by rw [Except.ok.inj same], rfl⟩
    | error => cases same
  refine ⟨fun full => absurd full spent, fun _ => ?_, fun error env' failed => ?_,
    fun answer env' answered notOk => ?_, fun fault env' answered => ?_, fun foreign => ?_⟩
  · exact ⟨reply, _, env.eventOf c (recorded reply), called, rfl, by simp [eventOf], rfl⟩
  · obtain ⟨same, rfl⟩ := Prod.mk.inj (called.symm.trans failed)
    cases path with
    | raised => exact ⟨_, rfl⟩
    | _ => cases same
  · obtain ⟨rfl, same⟩ := exactly answered
    rw [same]
    cases path with
    | unreached => exact .inl rfl
    | answered reaches answer => exact answer.refused reaches notOk
  · obtain ⟨rfl, same⟩ := exactly answered
    rw [same]
    cases path with
    | unreached unreached => exact absurd rfl (result_ne_timeout unreached)
    | answered reaches answer => exact answer.unseen reaches fault rfl
  · rw [called]
    cases path with
    | answered reaches _ =>
      exact absurd reaches.own (foreign _ reaches.found (get?_of_textArg? reaches.target))
    | _ => exact ⟨_, rfl⟩

end AgentLabs.BusinessLab
