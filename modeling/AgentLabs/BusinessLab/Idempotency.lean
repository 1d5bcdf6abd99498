import AgentLabs.BusinessLab.ErrorFrame

/-!
# Refunds are idempotent

A refund names an order, an amount and a key. The first refund that goes through records
its key with them, and the key stays bound to them for ever: the same refund is answered
as before and moves no money, any other use of the key is turned away. So a caller whose
answer was lost may ask again without knowing whether the first try was made, as long as
it gives the key to no other refund in between.

## Main definitions

* `RefundOf`, `UsesKey`: the calls that ask for a refund, and those that use a key
* `Recorded`: a key that is bound to an order and an amount
* `RetryMade`: one of two tries is made, after calls in between that are `quiet`
* `RefundLaw`: what holds of the refunds of a run

## Main results

* `recorded_of_movesMoney`: money moves only under a key that was free and is bound then
* `isOk_retry`: a refund that was due is made by the first try or the second
* `refundLaw`: the law, over every run
* `not_retryMade_sharedKey`: a key that was given to another order is of no use to the next try
-/

namespace AgentLabs.BusinessLab

open Math Text Json Environment

/-- The call uses the key for a refund. -/
structure UsesKey (c : Call) (key : String) : Prop where
  tool : c.tool = "refund_payment"
  keyed : textArg? c.args "idempotency_key" = some key

/-- The call asks for this refund. -/
structure RefundOf (c : Call) (oid : String) (amount : Int) (key : String) : Prop
    extends UsesKey c key where
  target : textArg? c.args "order_id" = some oid
  amounted : intArg? c.args "amount_cents" = some amount

/-- The key is bound to the order and the amount. -/
def Recorded (env : Environment) (key oid : String) (amount : Int) : Prop :=
  env.db.refunds.find? key = some ⟨key, oid, amount⟩

/-- The call changes some payment. -/
def MovesMoney (env : Environment) (c : Call) : Prop :=
  (env.call c).2.db.payments ≠ env.db.payments

/-- The call binds a key that was free. -/
def Binds (env : Environment) (c : Call) (key : String) : Prop :=
  env.db.refunds.find? key = none ∧ ∃ oid amount, Recorded (env.call c).2 key oid amount

/-- The call is within the budget, and its refund passes the guards and fits the store. -/
structure Admissible (env : Environment) (c : Call) (oid : String) (amount : Int) (key : String) :
    Prop where
  room : env.events.length < maxToolCalls
  fits : Fits64 amount
  due : ∃ order payment, env.Reaches c.tool c.args .refundPayment order ∧ order.id = oid ∧
    RefundDue env order c.args amount key payment

/-- The call leaves the status and the payment of the order. -/
def LeavesOrder (env : Environment) (c : Call) (oid : String) : Prop :=
  statusOf (env.call c).2.db oid = statusOf env.db oid ∧
    (env.call c).2.db.payments.find? oid = env.db.payments.find? oid

/-- The codes that turn a call away: a conflict, or an error of argument or right. -/
def turnedAway : List Json :=
  [refusal "error" "IDEMPOTENCY_CONFLICT", refusal "error" "INVALID_REFUND_ARGUMENT",
    refusal "error" "INVALID_ORDER_ID", refusal "error" "NOT_FOUND", refusal "denied" "FORBIDDEN"]

/-- A refund that was due is made by the first try or by the next, if the calls in between
are `quiet` about its order and its key. -/
def RetryMade (quiet : Environment → Call → String → String → Prop) (env : Environment)
    (calls : List Call) : Prop :=
  env.fault ≠ .paymentUnavailable → ∀ i j c c' key oid amount, i < j →
    calls[i]? = some c → calls[j]? = some c' →
    RefundOf c oid amount key → RefundOf c' oid amount key →
    Admissible (env.runAt calls i) c oid amount key →
    (env.runAt calls j).events.length < maxToolCalls →
    (∀ m other, i < m → m < j → calls[m]? = some other →
      quiet (env.runAt calls m) other oid key) →
    ∃ answer, IsOk answer ∧ (((env.runAt calls i).call c).1 = .ok answer ∨
      ((env.runAt calls j).call c').1 = .ok answer)

/-- What holds of the refunds of a run. -/
structure RefundLaw (env : Environment) (calls : List Call) : Prop where
  once : ∀ key i j c c', calls[i]? = some c → calls[j]? = some c' →
    UsesKey c key → UsesKey c' key →
    MovesMoney (env.runAt calls i) c → MovesMoney (env.runAt calls j) c' → i = j
  bound : ∀ key oid amount m n, m ≤ n → Recorded (env.runAt calls m) key oid amount →
    Recorded (env.runAt calls n) key oid amount
  otherUse : ∀ n c key oid amount, calls[n]? = some c →
    Recorded (env.runAt calls n) key oid amount → UsesKey c key → ¬ RefundOf c oid amount key →
    (env.runAt calls n).events.length < maxToolCalls →
    ∃ answer ∈ turnedAway, ((env.runAt calls n).call c).1 = .ok answer ∧
      ChangesNothing (env.runAt calls n) ((env.runAt calls n).call c).2
  retry : RetryMade (fun now other oid key => ¬ Binds now other key ∧ LeavesOrder now other oid)
    env calls

/-! ### Keys -/

section Keys

variable {env env' : Environment} {c : Call} {order : OrderRow} {tool : Tool} {answer : Json}
  {args : Fields} {key oid : String} {amount : Int} {payment : PaymentRow}

/-- A bound key stays bound. -/
theorem Recorded.call (recorded : Recorded env key oid amount) (c : Call) :
    Recorded (env.call c).2 key oid amount := by
  have stored := (grows_call env c).refunds _ (Table.mem_of_find?_eq_some recorded)
  exact Table.find?_eq_some_iff.mpr ⟨stored, rfl⟩

/-- What a path through a tool does to the refunds and the payments: nothing, or it makes a
refund that is due. -/
theorem Answer.refunds_cases (path : Answer env order args tool answer env') :
    (env'.db.payments = env.db.payments ∧ env'.db.refunds = env.db.refunds) ∨
      tool = .refundPayment ∧ ∃ amount key payment refunds,
        RefundDue env order args amount key payment ∧
          env.db.refunds.insert? ⟨key, order.id, amount⟩ = some refunds ∧
          env'.db = { env.db with refunds }.addRefunded order.id amount := by
  cases path with
  | refundedUnseen due _ _ inserted =>
    obtain ⟨refunds, stored, rfl⟩ := Database.exists_of_insertRefund? inserted
    exact .inr ⟨rfl, _, _, _, refunds, due, stored, rfl⟩
  | refunded due _ _ _ inserted =>
    obtain ⟨refunds, stored, rfl⟩ := Database.exists_of_insertRefund? inserted
    exact .inr ⟨rfl, _, _, _, refunds, due, stored, rfl⟩
  | released _ inserted =>
    obtain ⟨releases, -, rfl⟩ := Database.exists_of_insertRelease? inserted
    exact .inl ⟨rfl, rfl⟩
  | _ => exact .inl ⟨rfl, rfl⟩

/-- What a call does to the refunds and the payments. -/
theorem refunds_call_cases (env : Environment) (c : Call) :
    ((env.call c).2.db.payments = env.db.payments ∧ (env.call c).2.db.refunds = env.db.refunds) ∨
      ∃ key oid amount, RefundOf c oid amount key ∧ env.db.refunds.find? key = none ∧
        Recorded (env.call c).2 key oid amount ∧
        ∀ key', key' ≠ key →
          (env.call c).2.db.refunds.find? key' = env.db.refunds.find? key' := by
  rcases env.call_cases c with ⟨-, called⟩ | ⟨-, reply, left, -, path, called⟩
  · rw [called]
    exact .inl ⟨rfl, rfl⟩
  rw [called]
  cases path with
  | unreached | raised => exact .inl ⟨rfl, rfl⟩
  | answered reaches answer =>
  rcases answer.refunds_cases with same | ⟨rfl, amount, key, payment, refunds, due, stored, made⟩
  · exact .inl same
  · refine .inr ⟨key, _, amount, ⟨⟨?_, due.keyed⟩, reaches.target, due.amounted⟩,
      due.fresh, ?_, fun key' other => ?_⟩
    · exact (Tool.name_of_ofName? reaches.tool).1 rfl
    · rw [Recorded, made]
      exact (Table.find?_insert stored).trans (if_pos rfl)
    · rw [made]
      exact (Table.find?_insert stored).trans (if_neg other.symm)

/-- **Money moves only under a key that was free and is bound then.** -/
theorem recorded_of_movesMoney (moved : MovesMoney env c) : ∃ key oid amount,
    RefundOf c oid amount key ∧ env.db.refunds.find? key = none ∧
      Recorded (env.call c).2 key oid amount := by
  rcases refunds_call_cases env c with ⟨same, -⟩ | ⟨key, oid, amount, asked, free, bound, -⟩
  · exact absurd same moved
  · exact ⟨key, oid, amount, asked, free, bound⟩

/-- A key stays free until a refund is made under it. -/
theorem free_call (free : env.db.refunds.find? key = none) (unbound : ¬ Binds env c key) :
    (env.call c).2.db.refunds.find? key = none := by
  rcases refunds_call_cases env c with ⟨-, same⟩ | ⟨key', oid, amount, -, -, bound, others⟩
  · rwa [same]
  · have other : key ≠ key' := fun same => unbound ⟨free, oid, amount, same ▸ bound⟩
    rwa [others key other]

/-- What `refund_payment` answers under a bound key. -/
theorem refund_recorded {stored : RefundRow} (keyed : textArg? args "idempotency_key" = some key)
    (used : env.db.refunds.find? key = some stored) (order : OrderRow) :
    (env.refund order args = (.ok (refusal "error" "INVALID_REFUND_ARGUMENT"), env)) ∨
    (env.refund order args = (.ok (refusal "error" "IDEMPOTENCY_CONFLICT"), env)) ∨
    (intArg? args "amount_cents" = some stored.amountCents ∧ stored.orderId = order.id ∧
      env.refund order args =
        (.ok (okAnswer [("refund_cents", .int stored.amountCents), ("replayed", .bool true)]),
          env)) := by
  unfold refund
  rw [keyed]
  cases amounted : intArg? args "amount_cents" with
  | none => exact .inl rfl
  | some amount =>
    simp only [used]
    split_ifs with empty other
    · exact .inl rfl
    · exact .inr (.inl rfl)
    · rw [not_or, not_not, not_not] at other
      exact .inr (.inr ⟨by rw [other.2], other.1, by rw [other.2]⟩)

theorem RefundOf.ofName? (asked : RefundOf c oid amount key) :
    Tool.ofName? c.tool = some .refundPayment := by
  rw [asked.tool]
  rfl

/-- **Any other use of a bound key** is turned away and changes nothing. -/
theorem turnedAway_of_recorded (recorded : Recorded env key oid amount) (uses : UsesKey c key)
    (other : ¬ RefundOf c oid amount key) (room : env.events.length < maxToolCalls) :
    ∃ answer ∈ turnedAway, (env.call c).1 = .ok answer ∧ ChangesNothing env (env.call c).2 := by
  rcases env.call_cases c with ⟨spent, -⟩ | ⟨-, reply, left, ran, path, called⟩
  · exact absurd room (Nat.not_lt.mpr spent)
  have done : ∀ {answer}, env.dispatch c.tool c.args = (.ok answer, env) → answer ∈ turnedAway →
      ∃ answer ∈ turnedAway, (env.call c).1 = .ok answer ∧ ChangesNothing env (env.call c).2 := by
    intro answer stopped listed
    obtain ⟨rfl, rfl⟩ := Prod.mk.inj (ran.symm.trans stopped)
    rw [called]
    exact ⟨answer, listed, rfl, _, rfl⟩
  have reached : ∀ {tool order}, env.Reaches c.tool c.args tool order →
      ∃ answer ∈ turnedAway, (env.call c).1 = .ok answer ∧ ChangesNothing env (env.call c).2 := by
    intro tool order reaches
    obtain rfl : tool = .refundPayment := reaches.tool_eq (by rw [uses.tool]; rfl)
    have dispatched : env.dispatch c.tool c.args = env.refund order c.args := reaches.dispatch_eq
    rcases refund_recorded uses.keyed recorded order with invalid | conflict | ⟨amounted, own, -⟩
    · exact done (dispatched.trans invalid) (by simp [turnedAway])
    · exact done (dispatched.trans conflict) (by simp [turnedAway])
    · -- The same order and amount: this is the refund the key is bound to.
      have same : oid = order.id := own
      exact absurd ⟨uses, same ▸ reaches.target, amounted⟩ other
  cases path with
  | answered reaches _ => exact reached reaches
  | raised reaches _ => exact reached reaches
  | unreached unreached =>
    refine done ran ?_
    cases unreached with
    | unknownTool unknown =>
      rw [uses.tool] at unknown
      exact absurd unknown (by decide)
    | _ => simp [turnedAway]

/-! ### Trying again -/

/-- The order is one of the actor. -/
def Owned (env : Environment) (oid : String) : Prop :=
  ∃ order, env.db.orders.find? oid = some order ∧ order.customerId = env.actorId

/-- The parts of an environment that no call changes. -/
theorem frame_call (env : Environment) (c : Call) :
    (env.call c).2.actorId = env.actorId ∧ (env.call c).2.fault = env.fault := by
  rcases env.call_cases c with ⟨-, called⟩ | ⟨-, reply, left, -, path, called⟩
  · simp [called]
  · rw [called]
    exact ⟨path.frame.actorId, path.frame.fault⟩

theorem Owned.call (owned : Owned env oid) (c : Call) : Owned (env.call c).2 oid := by
  obtain ⟨order, found, own⟩ := owned
  rw [Owned, (frame_call env c).1]
  have change := orders_call_cases env c
  generalize (env.call c).2.db.orders = orders at change
  have kept : ∀ (target : String) (status : OrderStatus), ∃ order',
      (env.db.setStatus target status).orders.find? oid = some order' ∧
        order'.customerId = env.actorId := by
    intro target status
    rw [Database.find?_setStatus, found]
    split_ifs
    · exact ⟨_, rfl, own⟩
    · exact ⟨_, rfl, own⟩
  cases change with
  | kept => exact ⟨order, found, own⟩
  | shipped => exact kept _ _
  | begun => exact kept _ _
  | completed => exact kept _ _

/-- A used fault stays used. -/
theorem faultUsed_call (used : env.faultUsed = true) (c : Call) :
    (env.call c).2.faultUsed = true := by
  rcases env.call_cases c with ⟨-, called⟩ | ⟨-, reply, left, -, path, called⟩
  · rwa [called]
  rw [called]
  cases path with
  | unreached | raised => exact used
  | answered _ answer => cases answer <;> first | exact used | rfl

theorem RefundOf.exists_reaches (asked : RefundOf c oid amount key) (owned : Owned env oid) :
    ∃ order, env.Reaches c.tool c.args .refundPayment order ∧ order.id = oid ∧
      env.db.orders.find? oid = some order := by
  obtain ⟨order, found, own⟩ := owned
  obtain rfl := Table.key_of_find?_eq_some found
  exact ⟨order, ⟨asked.ofName?, asked.target, found, own⟩, rfl, found⟩

/-- The same refund under a bound key is answered as before. -/
theorem isOk_of_recorded (recorded : Recorded env key oid amount) (owned : Owned env oid)
    (asked : RefundOf c oid amount key) (positive : 0 < amount)
    (room : env.events.length < maxToolCalls) :
    ∃ answer, IsOk answer ∧ (env.call c).1 = .ok answer := by
  obtain ⟨order, reaches, rfl, -⟩ := asked.exists_reaches owned
  rcases env.call_cases c with ⟨spent, -⟩ | ⟨-, reply, left, ran, -, called⟩
  · exact absurd room (Nat.not_lt.mpr spent)
  have replayed : env.dispatch c.tool c.args =
      (.ok (okAnswer [("refund_cents", .int amount), ("replayed", .bool true)]), env) := by
    rw [reaches.dispatch_eq, runTool, refund, asked.amounted, asked.keyed]
    simp only [Recorded] at recorded
    simp only [if_neg (Int.not_le.mpr positive), recorded, ne_eq, not_true_eq_false, or_self,
      if_false]
  obtain ⟨rfl, -⟩ := Prod.mk.inj (ran.symm.trans replayed)
  exact ⟨_, isOk_okAnswer _, by rw [called]; rfl⟩

/-- **What a refund that is due comes to**, if the payment service is up: it is made, or
it is made and its answer lost, or it is lost before it is made. -/
theorem refund_due_cases (due : RefundDue env order c.args amount key payment)
    (reaches : env.Reaches c.tool c.args .refundPayment order)
    (fits : Fits64 amount) (room : env.events.length < maxToolCalls)
    (up : env.fault ≠ .paymentUnavailable) :
    (∃ answer, IsOk answer ∧ (env.call c).1 = .ok answer) ∨
      env.faultUsed = false ∧ (Recorded (env.call c).2 key order.id amount ∨
        ((env.call c).2.faultUsed = true ∧ (env.call c).2.db = env.db)) := by
  obtain ⟨reply, left, path, called⟩ := env.call_path c room
  rw [called]
  have sameKey : ∀ {key'}, textArg? c.args "idempotency_key" = some key' → key' = key :=
    fun keyed => Option.some.inj (keyed.symm.trans due.keyed)
  have sameAmount : ∀ {amount'}, intArg? c.args "amount_cents" = some amount' → amount' = amount :=
    fun amounted => Option.some.inj (amounted.symm.trans due.amounted)
  cases path with
  | unreached unreached => exact absurd unreached reaches.not_unreached
  | raised reaches' raises =>
    obtain ⟨rfl, rfl⟩ := reaches'.unique reaches
    cases raises with
    | refund due' _ _ large => exact absurd (sameAmount due'.amounted ▸ fits) large
  | answered reaches' answer =>
  obtain ⟨rfl, rfl⟩ := reaches'.unique reaches
  -- What the guards of a due refund exclude is out; four paths are left.
  cases answer with
  | refundInvalid invalid =>
    exact absurd (invalid amount key due.amounted due.keyed) (Int.not_le.mpr due.positive)
  | refundConflict keyed used =>
    rw [sameKey keyed, due.fresh] at used
    exact absurd used (by simp)
  | refundReplayed _ keyed used =>
    rw [sameKey keyed, due.fresh] at used
    exact absurd used (by simp)
  | refundDenied _ undue => exact absurd due (undue amount key payment)
  | refundUnavailable _ down => exact absurd down up
  | refundLost _ _ unused => exact .inr ⟨unused, .inr ⟨rfl, rfl⟩⟩
  | refundedUnseen due' _ unused inserted =>
    obtain ⟨refunds, stored, rfl⟩ := Database.exists_of_insertRefund? inserted
    rw [sameKey due'.keyed, sameAmount due'.amounted] at stored
    exact .inr ⟨unused, .inl ((Table.find?_insert stored).trans (if_pos rfl))⟩
  | refunded => exact .inl ⟨_, isOk_okAnswer _, rfl⟩

end Keys

/-! ### Runs -/

section Runs

variable {env : Environment} {calls : List Call} {c c' : Call} {key oid : String} {amount : Int}
  {i j : ℕ}

/-- **Trying again.** A refund that was due is made by the first try or by the next, if
nothing in between binds its key or changes the status or the payment of its order. -/
theorem isOk_retry (up : env.fault ≠ .paymentUnavailable) (later : i < j)
    (first : calls[i]? = some c) (asked : RefundOf c' oid amount key)
    (admissible : Admissible (env.runAt calls i) c oid amount key)
    (room : (env.runAt calls j).events.length < maxToolCalls)
    (between : ∀ m other, i < m → m < j → calls[m]? = some other →
      ¬ Binds (env.runAt calls m) other key ∧ LeavesOrder (env.runAt calls m) other oid) :
    ∃ answer, IsOk answer ∧ (((env.runAt calls i).call c).1 = .ok answer ∨
      ((env.runAt calls j).call c').1 = .ok answer) := by
  obtain ⟨order, payment, reaches, rfl, due⟩ := admissible.due
  have fault : ∀ n, (env.runAt calls n).fault = env.fault := fun n =>
    stateAt_kept (P := fun now : Environment => now.fault = env.fault)
      (fun _ c _ same => (frame_call _ c).2.trans same) (Nat.zero_le n) rfl
  have next : env.runAt calls (i + 1) = ((env.runAt calls i).call c).2 := stateAt_succ first
  have owned : Owned (env.runAt calls (i + 1)) order.id :=
    next ▸ Owned.call ⟨order, reaches.found, reaches.own⟩ c
  rcases refund_due_cases due reaches admissible.fits admissible.room (fault i ▸ up) with
    ⟨answer, ok, answered⟩ | ⟨-, recorded | ⟨used, same⟩⟩
  · exact ⟨answer, ok, .inl answered⟩
  · -- The answer was lost after the commit: the retry is a replay.
    have recorded : Recorded (env.runAt calls (i + 1)) key order.id amount := next ▸ recorded
    have kept := stateAt_kept (P := fun now : Environment =>
      Recorded now key order.id amount ∧ Owned now order.id)
      (fun _ c _ both => ⟨both.1.call c, both.2.call c⟩) (Nat.succ_le_of_lt later)
      ⟨recorded, owned⟩
    obtain ⟨answer, ok, answered⟩ := isOk_of_recorded kept.1 kept.2 asked due.positive room
    exact ⟨answer, ok, .inr answered⟩
  · -- The refund was lost before the commit: it is still due, and the fault is used up.
    have start : (env.runAt calls (i + 1)).db = (env.runAt calls i).db := next ▸ same
    have spent : (env.runAt calls (i + 1)).faultUsed = true := next ▸ used
    have free : (env.runAt calls (i + 1)).db.refunds.find? key = none := start ▸ due.fresh
    have status : statusOf (env.runAt calls (i + 1)).db order.id = some .cancelling := by
      rw [start, statusOf, reaches.found, Option.map_some, due.started]
    have found : (env.runAt calls (i + 1)).db.payments.find? order.id = some payment :=
      start ▸ due.found
    have kept := stateAt_kept_until (P := fun now : Environment =>
      (now.db.refunds.find? key = none ∧ now.faultUsed = true) ∧ Owned now order.id ∧
        statusOf now.db order.id = some .cancelling ∧
        now.db.payments.find? order.id = some payment)
      (fun n other from' until' here before => by
        obtain ⟨⟨free, spent⟩, own, status, found⟩ := before
        obtain ⟨unbound, sameStatus, samePayment⟩ := between n other from' until' here
        exact ⟨⟨free_call free unbound, faultUsed_call spent other⟩, own.call other,
          sameStatus.trans status, samePayment.trans found⟩)
      (Nat.succ_le_of_lt later)
      ⟨⟨free, spent⟩, owned, status, found⟩
    obtain ⟨⟨free, spent⟩, own, status, found⟩ := kept
    obtain ⟨order', reaches', sameId, found'⟩ := asked.exists_reaches own
    have started : order'.status = .cancelling := by
      rw [statusOf, found', Option.map_some, Option.some.injEq] at status
      exact status
    have due' : RefundDue (env.runAt calls j) order' c'.args amount key payment :=
      ⟨asked.amounted, asked.keyed, due.positive, free, started, sameId ▸ found, due.rest⟩
    rcases refund_due_cases due' reaches' admissible.fits room (fault j ▸ up) with
      ⟨answer, ok, answered⟩ | ⟨unused, -⟩
    · exact ⟨answer, ok, .inr answered⟩
    · exact absurd (spent.symm.trans unused) (by decide)

/-- The call at a position of the run uses the key and moves money. -/
def SpendsKey (env : Environment) (calls : List Call) (n : ℕ) (key : String) : Prop :=
  ∃ c, calls[n]? = some c ∧ UsesKey c key ∧ MovesMoney (env.runAt calls n) c

/-- The key is bound at a position of the run. -/
def KeySpent (env : Environment) (calls : List Call) (n : ℕ) (key : String) : Prop :=
  ∃ oid amount, Recorded (env.runAt calls n) key oid amount

theorem KeySpent.succ (spent : KeySpent env calls i key) : KeySpent env calls (i + 1) key := by
  obtain ⟨oid, amount, recorded⟩ := spent
  exact ⟨oid, amount, stateAt_kept (P := fun now : Environment => Recorded now key oid amount)
    (fun _ c _ kept => kept.call c) (Nat.le_succ i) recorded⟩

/-- Money moves under a key only when the key is spent by it. -/
theorem SpendsKey.spends (spends : SpendsKey env calls i key) :
    ¬ KeySpent env calls i key ∧ KeySpent env calls (i + 1) key := by
  obtain ⟨c, here, uses, moves⟩ := spends
  have next : env.runAt calls (i + 1) = ((env.runAt calls i).call c).2 := stateAt_succ here
  obtain ⟨key', oid, amount, asked, free, bound⟩ := recorded_of_movesMoney moves
  obtain rfl : key' = key := Option.some.inj (asked.keyed.symm.trans uses.keyed)
  refine ⟨fun ⟨oid', amount', recorded⟩ => ?_, oid, amount, next ▸ bound⟩
  rw [Recorded, free] at recorded
  exact absurd recorded (by simp)

/-- **Refunds are idempotent**, over every run from every state. -/
theorem refundLaw (env : Environment) (calls : List Call) : RefundLaw env calls where
  once _ _ _ c c' hi hj uses uses' moves moves' :=
    spend_injective (SpendsKey env calls) (KeySpent env calls) (fun _ _ => KeySpent.succ)
      (fun _ _ => SpendsKey.spends) ⟨c, hi, uses, moves⟩ ⟨c', hj, uses', moves'⟩
  bound key oid amount _ _ later recorded :=
    stateAt_kept (P := fun now : Environment => Recorded now key oid amount)
      (fun _ c _ kept => kept.call c) later recorded
  otherUse _ _ _ _ _ _ recorded uses other room := turnedAway_of_recorded recorded uses other room
  retry up _ _ _ _ _ _ _ later first _ _ asked admissible room between :=
    isOk_retry up later first asked admissible room between

/-- Two orders of the actor under cancellation, and a refund whose first try is lost before
it is made. -/
def twoRefunds : Fixture where
  actorId := "customer-a"
  subjectId := "order-a"
  fault := .refundTimeoutBeforeCommit
  orders := [⟨"order-a", "customer-a", .cancelling, 12500, "USD", "sku-a", 2, 2⟩,
    ⟨"order-b", "customer-a", .cancelling, 12500, "USD", "sku-a", 1, 2⟩]
  payments := [⟨"order-a", 12500, 0⟩, ⟨"order-b", 12500, 0⟩]
  inventory := [("sku-a", 10)]

/-- Refund an order under the one key. -/
def refundUnder (oid : String) : Call where
  stamp := ⟨"e1", 0, 1, none, none⟩
  tool := "refund_payment"
  args := [("order_id", .str oid), ("amount_cents", .int 12500), ("idempotency_key", .str "refund")]

/-- The environment of `twoRefunds`. -/
def refundsEnv : Environment where
  actorId := "customer-a"
  subjectId := "order-a"
  fault := .refundTimeoutBeforeCommit
  db := ⟨⟨twoRefunds.orders, by decide⟩, ⟨twoRefunds.payments, by decide⟩,
    .single ⟨"sku-a", 10, false⟩, .empty, .empty, .empty⟩

/-- A call in between that leaves the order may still spend the key: the first try was lost,
the key went to another order, and the next try is answered with `IDEMPOTENCY_CONFLICT`. -/
theorem not_retryMade_sharedKey : twoRefunds.WellFormed ∧ twoRefunds.Fits ∧
    Environment.ofFixture twoRefunds = some refundsEnv ∧
    ¬ RetryMade (fun now other oid _ => LeavesOrder now other oid) refundsEnv
      [refundUnder "order-a", refundUnder "order-b", refundUnder "order-a"] := by
  refine ⟨⟨by decide, by decide, by decide, by decide, by decide, by decide, by decide,
    by decide⟩, by decide, rfl, fun made => ?_⟩
  have asked : RefundOf (refundUnder "order-a") "order-a" 12500 "refund" :=
    ⟨⟨rfl, rfl⟩, rfl, rfl⟩
  have due : RefundDue refundsEnv
      ⟨"order-a", "customer-a", .cancelling, 12500, "USD", "sku-a", 2, 2⟩
      (refundUnder "order-a").args 12500 "refund" ⟨"order-a", 12500, 0⟩ :=
    ⟨rfl, rfl, by decide, rfl, rfl, rfl, rfl⟩
  -- The one call in between refunds the other order, with the same key.
  have between : ∀ m other, 0 < m → m < 2 →
      [refundUnder "order-a", refundUnder "order-b", refundUnder "order-a"][m]? = some other →
      LeavesOrder (refundsEnv.runAt [refundUnder "order-a", refundUnder "order-b",
        refundUnder "order-a"] m) other "order-a" := by
    intro m other after before here
    obtain rfl : m = 1 := by omega
    obtain rfl : refundUnder "order-b" = other := Option.some.inj here
    exact ⟨rfl, rfl⟩
  obtain ⟨answer, ok, lost | conflict⟩ := made (by decide) 0 2 _ _ "refund" "order-a" 12500
    (by decide) rfl rfl asked asked
    ⟨by decide, by decide, _, _, ⟨rfl, rfl, rfl, rfl⟩, rfl, due⟩ (by decide) between
  · obtain rfl : timeout = answer := Except.ok.inj lost
    exact absurd (Json.str.inj (Except.ok.inj ok)) (by decide)
  · obtain rfl : refusal "error" "IDEMPOTENCY_CONFLICT" = answer := Except.ok.inj conflict
    exact absurd (Json.str.inj (Except.ok.inj ok)) (by decide)

end Runs

end AgentLabs.BusinessLab
