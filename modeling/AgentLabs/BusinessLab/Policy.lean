import AgentLabs.BusinessLab.SideEffects
import AgentLabs.Math.Monitor

/-!
# The policy check is sound

The policy check is a monitor. Its four sets and its versions follow events that add an
order and events that take it away, so a member of a set is a fact that stands: granted
by some event and not revoked since. Read this way, a check that has noted no violation
says of every write what must have come before it.

## Main definitions

* `Event.Allows`, `Event.Conflicts`, `Event.Begins`, `Event.ShowsRefund`,
  `Event.Releases`: what an event does to an order
* `Cleared`, `Orderly`: what must have come before a write, and what a write must be

## Main results

* `policyStep_spec`: what one event does to the state of the check
* `orderly_of_checkPolicy`: a passed check means that every write is in order
* `orderly_runCalls`: the same for the events of the service
-/

namespace AgentLabs.BusinessLab

open Math Text Json

/-! ### What an event does to an order -/

namespace Event

variable (event : Event) (oid : String)

/-- The result of the event has this value under this name. -/
def Says (name : String) (value : Json) : Prop := event.field name = .ok value

/-- The event asks whether the order can be cancelled. -/
def Checks : Prop := event.tool = "check_cancel_policy" ∧ event.orderId = .str oid

/-- The event answers that the order can be cancelled. -/
def Allows : Prop :=
  event.Checks oid ∧ event.Says "status" (.str "ok") ∧ event.Says "allowed" (.bool true)

/-- The event reports that the version of the order has changed. -/
def Conflicts : Prop := event.orderId = .str oid ∧ event.Says "code" (.str "VERSION_CONFLICT")

/-- The event begins the cancellation of the order. -/
def Begins : Prop :=
  event.tool = "begin_cancellation" ∧ event.orderId = .str oid ∧ event.Says "status" (.str "ok")

/-- The payment in the answer is refunded as far as it was captured. -/
def FullyRefunded : Prop :=
  ∃ payment cents refunded, event.Says "payment" payment ∧
    payment.item "captured_cents" = .ok (.int cents) ∧
    payment.item "refunded_cents" = .ok refunded ∧ pyEq (.int cents) refunded

/-- The event shows that the order is refunded. -/
def ShowsRefund : Prop :=
  event.orderId = .str oid ∧ event.Says "status" (.str "ok") ∧
    (event.tool = "refund_payment" ∨ event.tool = "get_payment" ∧ event.FullyRefunded)

/-- The event releases the stock of the order. -/
def Releases : Prop :=
  event.tool = "release_stock" ∧ event.orderId = .str oid ∧ event.Says "status" (.str "ok")

end Event

/-! ### The parts of a step -/

namespace PolicyState

/-- The order is approved, with this version. -/
def Approves (s : PolicyState) (oid : String) (version : Json) : Prop :=
  .str oid ∈ s.approved ∧ s.approvedVersion (.str oid) = version

section Note

variable (s : PolicyState) (event : Event) (wrong : Bool)

@[simp] theorem approved_note : (s.note event wrong).approved = s.approved := rfl
@[simp] theorem begun_note : (s.note event wrong).begun = s.begun := rfl
@[simp] theorem refunded_note : (s.note event wrong).refunded = s.refunded := rfl
@[simp] theorem released_note : (s.note event wrong).released = s.released := rfl
@[simp] theorem approvedVersion_note (oid : Json) :
    (s.note event wrong).approvedVersion oid = s.approvedVersion oid := rfl
@[simp] theorem requirement_note (tool : String) :
    (s.note event wrong).requirement tool = s.requirement tool := rfl

@[simp] theorem violations_note_eq_nil_iff :
    (s.note event wrong).violations = [] ↔ s.violations = [] ∧ wrong = false := by
  cases wrong <;> simp [note]

end Note

variable {s s' : PolicyState} {event : Event}

theorem approvedVersion_setVersion (text : String) (version : Json) :
    (s.setVersion (.str text) version).approvedVersion (.str text) = version := by
  have found : pyEq (.str text) (.str text) := pyEq_iff_str.mpr rfl
  simp [approvedVersion, setVersion, found]

theorem approvedVersion_setVersion_of_ne {oid : Json} {text : String} (other : oid ≠ .str text)
    (version : Json) :
    (s.setVersion oid version).approvedVersion (.str text) = s.approvedVersion (.str text) := by
  have skipped : pyEq oid (.str text) = false := by
    rw [← Bool.not_eq_true]
    exact mt pyEq_iff_str.mp other
  have kept : pyEq (.str text) oid = false := by
    rw [← Bool.not_eq_true]
    exact mt pyEq_str_iff.mp other
  -- An entry for the text is not one of those that were dropped.
  have entries : ∀ entry : Json × Json,
      decide ((!pyEq entry.1 oid) = true ∧ pyEq entry.1 (.str text) = true) =
        pyEq entry.1 (.str text) := by
    intro entry
    by_cases same : entry.1 = .str text
    · simp [same, kept]
    · have : pyEq entry.1 (.str text) = false := by
        rw [← Bool.not_eq_true]
        exact mt pyEq_iff_str.mp same
      simp [this]
  simp only [approvedVersion, setVersion, List.find?_cons, skipped, List.find?_filter, entries]

theorem approves_disapprove {oid : Json} {text : String} {version : Json} :
    (s.disapprove oid).Approves text version ↔ s.Approves text version ∧ oid ≠ .str text := by
  have same : (s.disapprove oid).approvedVersion (.str text) = s.approvedVersion (.str text) := rfl
  rw [Approves, Approves, same, disapprove, str_mem_discard, and_right_comm]

theorem approves_approve {oid : Json} {text : String} {version stated : Json} :
    (s.approve oid stated).Approves text version ↔
      oid = .str text ∧ stated = version ∨ s.Approves text version ∧ oid ≠ .str text := by
  have member : .str text ∈ (s.approve oid stated).approved ↔
      oid = .str text ∨ .str text ∈ s.approved := str_mem_adjoin
  have entered : { s with approved := adjoin s.approved oid }.approvedVersion (.str text) =
      s.approvedVersion (.str text) := rfl
  rw [Approves, member]
  by_cases here : oid = .str text
  · rw [approve, here, approvedVersion_setVersion]
    simp
  · rw [approve, approvedVersion_setVersion_of_ne here, entered]
    simp [here, Approves]

theorem isOk_eq_ok_iff {good : Bool} : event.isOk = .ok good ↔
    ∃ status, event.Says "status" status ∧ good = pyEq status (.str "ok") := by
  simp only [Event.isOk, Event.Says, bind_eq_ok_iff]
  constructor
  · rintro ⟨status, said, h⟩
    cases h
    exact ⟨status, said, rfl⟩
  · rintro ⟨status, said, rfl⟩
    exact ⟨status, said, rfl⟩

theorem permits_eq_ok_iff {permitted : Bool} : event.permits = .ok permitted ↔
    ∃ status allowed, event.Says "status" status ∧ event.Says "allowed" allowed ∧
      (permitted = true ↔ status = .str "ok" ∧ allowed = .bool true) := by
  simp only [Event.permits, bind_eq_ok_iff, isOk_eq_ok_iff]
  constructor
  · rintro ⟨_, ⟨status, said, rfl⟩, allowed, saidAllowed, h⟩
    cases h
    exact ⟨status, allowed, said, saidAllowed, by rw [Bool.and_eq_true, pyEq_iff_str, isTrue_iff]⟩
  · rintro ⟨status, allowed, said, saidAllowed, same⟩
    refine ⟨_, ⟨status, said, rfl⟩, allowed, saidAllowed, congrArg Except.ok ?_⟩
    rw [Bool.eq_iff_iff, same, Bool.and_eq_true, pyEq_iff_str, isTrue_iff]

/-- What the observation of a policy answer does. -/
theorem observeCheck_spec (ran : s.observeCheck event = .ok s') :
    s'.begun = s.begun ∧ s'.refunded = s.refunded ∧ s'.released = s.released ∧
      s'.violations = s.violations ∧ ∀ oid version, s'.Approves oid version ↔
        event.Allows oid ∧ event.Says "order_version" version ∨
          s.Approves oid version ∧ ¬ event.Checks oid := by
  unfold observeCheck at ran
  by_cases check : event.tool = "check_cancel_policy"
  swap
  · rw [if_pos check] at ran
    cases ran
    refine ⟨rfl, rfl, rfl, rfl, fun oid version => ?_⟩
    simp [Event.Allows, Event.Checks, check]
  rw [if_neg (not_not.mpr check)] at ran
  obtain ⟨target, hashable, ran⟩ := bind_eq_ok_iff.mp ran
  obtain ⟨permitted, permits, ran⟩ := bind_eq_ok_iff.mp ran
  obtain ⟨stated, saidVersion, ran⟩ := bind_eq_ok_iff.mp ran
  obtain ⟨-, rfl⟩ := hashed_eq_ok_iff.mp hashable
  obtain ⟨status, allowed, said, saidAllowed, exact'⟩ := permits_eq_ok_iff.mp permits
  -- The answer is read once; every part of the specification is a statement about that reading.
  have checks : ∀ oid, event.Checks oid ↔ event.orderId = .str oid := fun oid => by
    simp [Event.Checks, check]
  have allows : ∀ oid, event.Allows oid ↔ event.orderId = .str oid ∧ permitted = true := by
    intro oid
    rw [Event.Allows, checks, exact']
    unfold Event.Says at said saidAllowed ⊢
    rw [said, saidAllowed, Except.ok.injEq, Except.ok.injEq]
  have version : ∀ version, event.Says "order_version" version ↔ stated = version := by
    intro version
    unfold Event.Says
    rw [saidVersion, Except.ok.injEq]
  cases ran
  refine ⟨by cases permitted <;> rfl, by cases permitted <;> rfl, by cases permitted <;> rfl,
    by cases permitted <;> rfl, fun oid v => ?_⟩
  rw [allows, checks, version]
  cases permitted with
  | false => simp [approves_disapprove]
  | true =>
    rw [if_pos rfl, approves_approve, approves_disapprove]
    tauto

/-- What the observation of a conflict does. -/
theorem observeConflict_spec (ran : s.observeConflict event = .ok s') :
    s'.refunded = s.refunded ∧ s'.released = s.released ∧ s'.violations = s.violations ∧
      (∀ oid version, s'.Approves oid version ↔
        s.Approves oid version ∧ ¬ event.Conflicts oid) ∧
      ∀ oid, .str oid ∈ s'.begun ↔ .str oid ∈ s.begun ∧ ¬ event.Conflicts oid := by
  unfold observeConflict at ran
  obtain ⟨code, said, ran⟩ := bind_eq_ok_iff.mp ran
  have conflicts : ∀ oid, event.Conflicts oid ↔
      event.orderId = .str oid ∧ code = .str "VERSION_CONFLICT" := by
    intro oid
    rw [Event.Conflicts, Event.Says, said, Except.ok.injEq]
  -- A conflict takes back the approval and the begin of its order.
  by_cases conflict : code = .str "VERSION_CONFLICT"
  · rw [if_neg (by simp [conflict])] at ran
    obtain ⟨target, hashable, ran⟩ := bind_eq_ok_iff.mp ran
    obtain ⟨-, rfl⟩ := hashed_eq_ok_iff.mp hashable
    cases ran
    refine ⟨rfl, rfl, rfl, fun oid version => ?_, fun oid => ?_⟩
    · have revoked := @approves_disapprove s event.orderId oid version
      exact revoked.trans (by simp [conflicts, conflict])
    · rw [conflicts, str_mem_discard]
      simp [conflict]
  · rw [if_pos (by simpa [← Bool.not_eq_true] using conflict)] at ran
    cases ran
    simp [conflicts, conflict]

/-- A payment that counts as refunded is shown with its two amounts. -/
theorem fullyRefunded_of_paymentSettled (settled : paymentSettled event = .ok true) :
    event.FullyRefunded := by
  unfold paymentSettled at settled
  obtain ⟨payment, said, settled⟩ := bind_eq_ok_iff.mp settled
  obtain ⟨captured, readCaptured, settled⟩ := bind_eq_ok_iff.mp settled
  obtain ⟨refunded, readRefunded, settled⟩ := bind_eq_ok_iff.mp settled
  have both := Except.ok.inj settled
  rw [Bool.and_eq_true, Option.isSome_iff_exists] at both
  obtain ⟨⟨cents, isInt⟩, equal⟩ := both
  obtain rfl : captured = .int cents := by
    cases captured <;> simp_all [asInt?]
  -- Without a payment there would be no integer.
  by_cases truthy : payment.isTruthy
  swap
  · rw [if_neg truthy] at readCaptured
    cases readCaptured
  rw [if_pos truthy] at readCaptured readRefunded
  cases payment with
  | obj fields =>
    have captured := Except.ok.inj readCaptured
    have refunded' := Except.ok.inj readRefunded
    cases paid : Dict.get? fields "captured_cents" with
    | none => simp [paid] at captured
    | some value =>
      cases back : Dict.get? fields "refunded_cents" with
      | none =>
        rw [back] at refunded'
        obtain rfl := refunded'
        simp [pyEq, scalarEq, number?] at equal
      | some other =>
        rw [paid] at captured
        rw [back] at refunded'
        obtain rfl := captured
        obtain rfl := refunded'
        exact ⟨_, cents, other, said, by rw [item, paid]; rfl, by rw [item, back]; rfl, equal⟩
  | _ => cases readCaptured

/-- What the observation of a step does. -/
theorem observeSteps_spec (ran : s.observeSteps event = .ok s') :
    s'.violations = s.violations ∧
      (∀ oid version, s'.Approves oid version ↔ s.Approves oid version) ∧
      (∀ oid, .str oid ∈ s'.begun ↔ event.Begins oid ∨ .str oid ∈ s.begun) ∧
      (∀ oid, .str oid ∈ s'.refunded ↔ (event.orderId = .str oid ∧
        event.Says "status" (.str "ok") ∧ refundSeen event = .ok true) ∨ .str oid ∈ s.refunded) ∧
      ∀ oid, .str oid ∈ s'.released ↔ event.Releases oid ∨ .str oid ∈ s.released := by
  unfold observeSteps at ran
  obtain ⟨good, answered, ran⟩ := bind_eq_ok_iff.mp ran
  obtain ⟨status, said, rfl⟩ := isOk_eq_ok_iff.mp answered
  have ok : event.Says "status" (.str "ok") ↔ status = .str "ok" := by
    unfold Event.Says at said ⊢
    rw [said, Except.ok.injEq]
  by_cases isGood : status = .str "ok"
  swap
  · rw [if_pos (by simpa [← Bool.not_eq_true] using isGood)] at ran
    cases ran
    simp [Event.Begins, Event.Releases, ok, isGood]
  rw [if_neg (by simp [isGood])] at ran
  obtain ⟨refunds, seen, ran⟩ := bind_eq_ok_iff.mp ran
  have refunds' : refundSeen event = .ok true ↔ refunds = true := by rw [seen, Except.ok.injEq]
  -- The order id is read only if there is something to record under it.
  by_cases idle : ¬ event.tool = "begin_cancellation" ∧ ¬ event.tool =
    "release_stock" ∧ refunds = false
  · rw [if_pos idle] at ran
    cases ran
    simp [Event.Begins, Event.Releases, refunds', idle]
  · rw [if_neg idle] at ran
    obtain ⟨target, hashable, ran⟩ := bind_eq_ok_iff.mp ran
    obtain ⟨-, rfl⟩ := hashed_eq_ok_iff.mp hashable
    cases ran
    refine ⟨rfl, fun _ _ => .rfl, fun oid => ?_, fun oid => ?_, fun oid => ?_⟩
    · by_cases begins : event.tool = "begin_cancellation" <;>
        simp [Event.Begins, begins, ok, isGood, str_mem_adjoin]
    · cases refunds <;> simp [refunds', ok, isGood, str_mem_adjoin]
    · by_cases releases : event.tool = "release_stock" <;>
        simp [Event.Releases, releases, ok, isGood, str_mem_adjoin]

/-- The guards of a write that go unviolated. -/
structure Guarded (artifact : Artifact) (s : PolicyState) (event : Event) : Prop where
  owned : ∃ orders order, (Dict.get? artifact.initialState "orders").getD (.obj []) = .obj orders ∧
    lookup orders event.orderId (.obj []) = .ok order ∧
      owns artifact order event.orderId = .ok true
  approved : memberOf s.approved event.orderId
  required : memberOf (s.requirement event.tool) event.orderId
  version : event.tool = "begin_cancellation" →
    pyEq ((Dict.get? event.args "expected_version").getD .null) (s.approvedVersion event.orderId)

/-- What the guards of a write do. -/
theorem checkWrite_spec {artifact : Artifact} (ran : s.checkWrite artifact event = .ok s') :
    s'.approved = s.approved ∧ s'.approvedVersions = s.approvedVersions ∧ s'.begun = s.begun ∧
      s'.refunded = s.refunded ∧ s'.released = s.released ∧ (s'.violations = [] →
        s.violations = [] ∧ (event.tool ∈ writeTools → Guarded artifact s event)) := by
  unfold checkWrite at ran
  by_cases write : event.tool ∈ writeTools
  -- A tool that does not write is not checked.
  swap
  · rw [if_pos write] at ran
    cases ran
    exact ⟨rfl, rfl, rfl, rfl, rfl, fun clean => ⟨clean, fun h => absurd h write⟩⟩
  rw [if_neg (not_not.mpr write)] at ran
  obtain ⟨orders, gotten, ran⟩ := bind_eq_ok_iff.mp ran
  obtain ⟨order, found, ran⟩ := bind_eq_ok_iff.mp ran
  obtain ⟨owned, owner, ran⟩ := bind_eq_ok_iff.mp ran
  have isDict : (Dict.get? artifact.initialState "orders").getD (.obj []) = .obj orders := by
    cases h : (Dict.get? artifact.initialState "orders").getD (.obj []) <;>
      simp_all [getter]
  cases ran
  refine ⟨rfl, rfl, rfl, rfl, rfl, fun clean => ?_⟩
  simp only [violations_note_eq_nil_iff, Bool.not_eq_false', Bool.and_eq_false_iff,
    decide_eq_false_iff_not] at clean
  obtain ⟨⟨⟨⟨clean, rfl⟩, approved⟩, required⟩, version⟩ := clean
  exact ⟨clean, fun _ => ⟨⟨orders, order, isDict, found, owner⟩, approved, required,
    fun begins => version.resolve_left (not_not.mpr begins)⟩⟩

end PolicyState

/-! ### The step -/

section Step

variable {artifact : Artifact} {expected : Expected} {s s' : PolicyState} {event : Event}

/-- **What one event does to the state of the check.** -/
theorem policyStep_spec (ran : policyStep artifact expected s event = .ok s') :
    (∀ oid version, s'.Approves oid version ↔
      (event.Allows oid ∧ event.Says "order_version" version ∧ ¬ event.Conflicts oid) ∨
        s.Approves oid version ∧ ¬ (event.Checks oid ∨ event.Conflicts oid)) ∧
      (∀ oid, .str oid ∈ s'.begun ↔
        event.Begins oid ∨ .str oid ∈ s.begun ∧ ¬ event.Conflicts oid) ∧
      (∀ oid, .str oid ∈ s'.refunded ↔ (event.orderId = .str oid ∧
        event.Says "status" (.str "ok") ∧ PolicyState.refundSeen event = .ok true) ∨
          .str oid ∈ s.refunded ∧ ¬ False) ∧
      (∀ oid, .str oid ∈ s'.released ↔ event.Releases oid ∨ .str oid ∈ s.released ∧ ¬ False) ∧
      (s'.violations = [] → s.violations = [] ∧ event.tool ∉ expected.forbiddenTools ∧
        (event.tool ∈ writeTools → PolicyState.Guarded artifact s event ∧
          ¬ event.Says "status" (.str "denied"))) := by
  unfold policyStep at ran
  -- The five parts of a step, in the order in which the source takes them.
  obtain ⟨s₁, wrote, ran⟩ := bind_eq_ok_iff.mp ran
  obtain ⟨s₂, checked, ran⟩ := bind_eq_ok_iff.mp ran
  obtain ⟨s₃, conflicted, ran⟩ := bind_eq_ok_iff.mp ran
  obtain ⟨s₄, stepped, ran⟩ := bind_eq_ok_iff.mp ran
  obtain ⟨status, said, ran⟩ := bind_eq_ok_iff.mp ran
  cases ran
  obtain ⟨approved₁, versions₁, begun₁, refunded₁, released₁, clean₁⟩ :=
    PolicyState.checkWrite_spec wrote
  obtain ⟨begun₂, refunded₂, released₂, clean₂, approves₂⟩ := PolicyState.observeCheck_spec checked
  obtain ⟨refunded₃, released₃, clean₃, approves₃, begun₃⟩ :=
    PolicyState.observeConflict_spec conflicted
  obtain ⟨clean₄, approves₄, begun₄, refunded₄, released₄⟩ := PolicyState.observeSteps_spec stepped
  -- The check of a write notes violations and changes no other part of the state.
  have approves₁ : ∀ oid version, s₁.Approves oid version ↔ s.Approves oid version := by
    intro oid version
    have same : s₁.approvedVersion (.str oid) = s.approvedVersion (.str oid) := by
      rw [PolicyState.approvedVersion, versions₁]
      rfl
    rw [PolicyState.Approves, PolicyState.Approves, same, approved₁]
    rfl
  refine ⟨fun oid version => ?_, fun oid => ?_, fun oid => ?_, fun oid => ?_, fun clean => ?_⟩
  · refine (approves₄ oid version).trans ?_
    rw [approves₃, approves₂, approves₁]
    tauto
  · refine (begun₄ oid).trans ?_
    rw [begun₃, begun₂, begun₁]
    rfl
  · refine (refunded₄ oid).trans ?_
    rw [refunded₃, refunded₂, refunded₁, not_false_eq_true, and_true]
    rfl
  · refine (released₄ oid).trans ?_
    rw [released₃, released₂, released₁, not_false_eq_true, and_true]
    rfl
  · simp only [PolicyState.violations_note_eq_nil_iff, Bool.and_eq_false_iff,
      decide_eq_false_iff_not] at clean
    obtain ⟨clean, undenied⟩ := clean
    rw [clean₄, clean₃, clean₂] at clean
    obtain ⟨clean, guarded⟩ := clean₁ clean
    simp only [PolicyState.violations_note_eq_nil_iff, decide_eq_false_iff_not] at clean
    refine ⟨clean.1, clean.2, fun write => ⟨?_, fun denied => ?_⟩⟩
    · obtain ⟨owned, approved, required, version⟩ := guarded write
      exact ⟨owned, approved, required, version⟩
    · have isDenied : status = .str "denied" := Except.ok.inj (said.symm.trans denied)
      rcases undenied with other | other
      · exact other write
      · exact Bool.false_ne_true (other.symm.trans (pyEq_iff_str.mpr isDenied))

end Step

/-! ### Soundness -/

/-- The latest answer about the order allowed its cancellation, at this version, and no
conflict was reported since. -/
def Cleared (before : List Event) (oid : String) (version : Json) : Prop :=
  Standing (fun e => e.Allows oid ∧ e.Says "order_version" version ∧ ¬ e.Conflicts oid)
    (fun e => e.Checks oid ∨ e.Conflicts oid) before

/-- `args.get("expected_version")`, and `None` without one. -/
def Event.expectedVersion (event : Event) : Json :=
  (Dict.get? event.args "expected_version").getD .null

/-- What a write on an order must be, after the events before it. -/
structure OrderlyWrite (env : Environment) (before : List Event) (event : Event) (oid : String) :
    Prop where
  target : event.orderId = .str oid
  owned : ∃ order, env.db.orders.find? oid = some order ∧ order.customerId = env.actorId
  undenied : ¬ event.Says "status" (.str "denied")
  cleared : event.tool = "begin_cancellation" →
    ∃ version, Cleared before oid version ∧ pyEq event.expectedVersion version
  begun : event.tool = "refund_payment" →
    Standing (fun e => e.Begins oid) (fun e => e.Conflicts oid) before
  refunded : event.tool = "release_stock" → ∃ e ∈ before, e.ShowsRefund oid
  released : event.tool = "complete_cancellation" → ∃ e ∈ before, e.Releases oid

/-- What an event must be: no forbidden tool, and if a write then one in order, on the
requested order. -/
structure Orderly (env : Environment) (request : Request) (expected : Expected)
    (before : List Event) (event : Event) : Prop where
  permitted : event.tool ∉ expected.forbiddenTools
  write : event.tool ∈ writeTools →
    ∃ oid, request.orderId = some oid ∧ OrderlyWrite env before event oid

section Sound

variable {artifact : Artifact} {expected : Expected} {s t : PolicyState}

theorem uniqueEvents_eq_nil_iff {events : List Event} : uniqueEvents events = [] ↔ events = [] := by
  constructor
  · intro none
    cases events with
    | nil => rfl
    | cons event rest =>
      have known : event.stamp.eventId ∈
          Dict.keys (Dict.setAll [] ((event :: rest).map fun e => (e.stamp.eventId, e))) :=
        Dict.mem_keys_setAll.mpr (.inr (by simp))
      rw [uniqueEvents, List.map_eq_nil_iff] at none
      rw [none] at known
      simp [Dict.keys] at known
  · rintro rfl
    rfl

/-- The owner of an order is read off the snapshot. -/
theorem owns_snapshot {env : Environment} (initial : artifact.initialState = env.snapshot)
    {orders : Fields} {order oid : Json}
    (stored : (Dict.get? artifact.initialState "orders").getD (.obj []) = .obj orders)
    (found : lookup orders oid (.obj []) = .ok order)
    (owned : PolicyState.owns artifact order oid = .ok true) :
    ∃ text, oid = .str text ∧ artifact.request.orderId = some text ∧
      ∃ row, env.db.orders.find? text = some row ∧ row.customerId = env.actorId := by
  have isOrders : Json.obj env.db.ordersJson = .obj orders := by
    rw [← stored, initial]
    rfl
  obtain rfl := Json.obj.inj isOrders
  have actor : (Dict.get? artifact.initialState "actor_id").getD .null = .str env.actorId := by
    rw [initial]
    rfl
  unfold PolicyState.owns at owned
  split_ifs at owned with requested
  swap
  · cases owned
  rw [actor] at owned
  cases customer : order.get "customer_id" .null with
  | error e =>
    rw [customer] at owned
    cases owned
  | ok value =>
    rw [customer] at owned
    have same : value = .str env.actorId := pyEq_iff_str.mp (Except.ok.inj owned)
    -- Only a text can be the key of an order that has a customer.
    cases oid with
    | str text =>
      refine ⟨text, rfl, ?_, ?_⟩
      · rw [pyEq_str_iff, Request.orderIdJson] at requested
        cases h : artifact.request.orderId with
        | none => simp [h] at requested
        | some other => simpa [h] using requested
      · rw [lookup_str, Database.get?_ordersJson] at found
        cases row : env.db.orders.find? text with
        | none =>
          rw [row] at found
          obtain rfl := Except.ok.inj found
          rw [same] at customer
          cases customer
        | some row' =>
          rw [row] at found
          obtain rfl := Except.ok.inj found
          rw [same] at customer
          refine ⟨row', rfl, ?_⟩
          have := Except.ok.inj customer
          simpa [OrderRow.columns, Dict.get?] using this
    | _ =>
      exfalso
      cases found <;>
        (rw [same] at customer
         cases customer)

/-- A check that has noted nothing at the end has noted nothing on the way. -/
theorem violations_eq_nil_of_foldlM {events : List Event}
    (ran : events.foldlM (policyStep artifact expected) s = .ok t) (clean : t.violations = []) :
    s.violations = [] := by
  by_contra noted
  exact foldlM_kept (P := fun s : PolicyState => s.violations ≠ [])
    (fun _ _ _ here noted clean => noted ((policyStep_spec here).2.2.2.2 clean).1) ran noted clean

/-- **A passed check means that every event is in order.** -/
theorem orderly_of_checkPolicy {env : Environment} {v : Verdict}
    (initial : artifact.initialState = env.snapshot)
    (checked : checkPolicy artifact expected = .ok v) (passed : v.status = .pass)
    {before after : List Event} {event : Event}
    (split : artifact.events = before ++ event :: after) :
    Orderly env artifact.request expected before event := by
  obtain ⟨last, ran, checked⟩ := bind_eq_ok_iff.mp checked
  have clean : last.violations = [] := by
    obtain rfl := Except.ok.inj checked
    rw [status_verdict] at passed
    split_ifs at passed with none
    exact uniqueEvents_eq_nil_iff.mp (List.isEmpty_iff.mp none)
  rw [split] at ran
  -- The state before the event: what it records is what the events before have shown.
  obtain ⟨u, w, first, here, later⟩ := foldlM_around_eq_ok_iff.mp ran
  obtain ⟨-, permitted, writes⟩ :=
    (policyStep_spec here).2.2.2.2 (violations_eq_nil_of_foldlM later clean)
  refine ⟨permitted, fun write => ?_⟩
  obtain ⟨⟨⟨orders, order, stored, found, owned⟩, approved, required, version⟩, undenied⟩ :=
    writes write
  obtain ⟨oid, target, requested, owner⟩ := owns_snapshot initial stored found owned
  rw [target, memberOf_str] at approved required
  rw [target] at version
  refine ⟨oid, requested, target, owner, undenied, fun tool => ?_, fun tool => ?_, fun tool => ?_,
    fun tool => ?_⟩
  · -- A begin: the version it expects is the one approved last.
    refine ⟨u.approvedVersion (.str oid), ?_, version tool⟩
    have tracks : ∀ s e t, policyStep artifact expected s e = .ok t →
        (t.Approves oid (u.approvedVersion (.str oid)) ↔ _) :=
      fun _ _ _ step => (policyStep_spec step).1 oid (u.approvedVersion (.str oid))
    exact (standing_of_tracked tracks (by simp [PolicyState.Approves]) first).mp ⟨approved, rfl⟩
  · -- A refund: the cancellation has begun, and there was no conflict since.
    rw [tool] at required
    have tracks : ∀ s e t, policyStep artifact expected s e = .ok t → (.str oid ∈ t.begun ↔ _) :=
      fun _ _ _ step => (policyStep_spec step).2.1 oid
    exact (standing_of_tracked tracks (by simp) first).mp required
  · -- A release: an earlier event has shown the refund, by its payment or by its answer.
    rw [tool] at required
    have tracks : ∀ s e t, policyStep artifact expected s e = .ok t →
        (.str oid ∈ t.refunded ↔ _) := fun _ _ _ step => (policyStep_spec step).2.2.1 oid
    have stands := (standing_of_tracked tracks (by simp) first).mp required
    obtain ⟨e, member, named, good, seen⟩ := standing_false_iff.mp stands
    refine ⟨e, member, named, good, ?_⟩
    unfold PolicyState.refundSeen at seen
    split_ifs at seen with payment
    · exact .inr ⟨payment, PolicyState.fullyRefunded_of_paymentSettled seen⟩
    · exact .inl (of_decide_eq_true (Except.ok.inj seen))
  · -- A completion: an earlier event has made the release.
    rw [tool] at required
    have tracks : ∀ s e t, policyStep artifact expected s e = .ok t →
        (.str oid ∈ t.released ↔ _) := fun _ _ _ step => (policyStep_spec step).2.2.2.1 oid
    have stands := (standing_of_tracked tracks (by simp) first).mp required
    obtain ⟨e, member, releases⟩ := standing_false_iff.mp stands
    exact ⟨e, member, releases⟩

end Sound


/-! ### Runs of the service -/

section Run

variable {env : Environment} {calls : List Call}

/-- The event records a reply of the service in a state that has grown from the first. -/
def Answered (first : Environment) (event : Event) : Prop :=
  ∃ (now next : Environment) (reply : Except ServiceError Json),
    now.Path event.tool event.args reply next ∧ event.result = Environment.recorded reply ∧
      Grows first.db now.db

/-- Every event of a run records a reply of the service in some state of the run. -/
theorem answered_of_mem {event : Event} (member : event ∈ (env.runCalls calls).events) :
    event ∈ env.events ∨ Answered env event := by
  let Kept (now : Environment) : Prop :=
    Grows env.db now.db ∧ ∀ event ∈ now.events, event ∈ env.events ∨ Answered env event
  have keeps : ∀ (now : Environment) (c : Call), Kept now → Kept (now.call c).2 := by
    rintro now c ⟨grows, answered⟩
    refine ⟨grows.trans (grows_call now c), fun event member => ?_⟩
    rcases now.call_cases c with ⟨-, spent⟩ | ⟨-, reply, next, -, path, called⟩
    · rw [spent] at member
      exact answered event member
    · rw [called] at member
      rcases List.mem_append.mp member with old | new
      · exact answered event old
      · rw [List.mem_singleton.mp new]
        exact .inr ⟨now, next, reply, path, rfl, grows⟩
  have start : Kept env := ⟨.refl _, fun event member => .inl member⟩
  exact (foldl_invariant keeps calls start).2 event member

@[simp] theorem field_of_obj {event : Event} {fields : Fields} (result : event.result = .obj fields)
    (name : String) : event.field name = .ok ((Dict.get? fields name).getD .null) := by
  rw [Event.field, result]
  rfl

/-- An answer that reaches no tool is not ok. -/
theorem Environment.Unreached.not_ok {event : Event} {now : Environment} {tool : String}
    {args : Fields} {result : Json} (unreached : now.Unreached tool args result)
    (shape : event.result = result) : ¬ event.Says "status" (.str "ok") := by
  cases unreached <;> simp [Event.Says, field_of_obj shape, Dict.get?]

/-- An approval of the service is for a text that is not blank, and its version is the one
of an order. -/
theorem exists_version_of_allows {event : Event} {now next : Environment} {oid : String}
    {reply : Except ServiceError Json} (path : now.Path event.tool event.args reply next)
    (shown : event.result = Environment.recorded reply)
    (allows : event.Allows oid) {version : Json} (said : event.Says "order_version" version) :
    isBlank oid = false ∧ ∃ k, version = versionJson k := by
  obtain ⟨⟨tool, named⟩, good, -⟩ := allows
  cases path with
  | unreached unreached => exact absurd good (unreached.not_ok shown)
  | raised => exact absurd good (by simp [Event.Says, field_of_obj shown, Dict.get?])
  -- Only an answer of the tool itself has the status `ok`.
  | @answered _ order _ _ reaches answer =>
  obtain rfl := reaches.tool_eq
    (by rw [tool]; rfl : Tool.ofName? event.tool = some .checkCancelPolicy)
  cases answer with
  | policyRead =>
    have target := get?_of_textArg? reaches.target
    have isId : order.id = oid := by
      rw [Event.orderId, target] at named
      simpa using named
    refine ⟨?_, order.version, ?_⟩
    · have := (Option.filter_eq_some_iff.mp reaches.target).2
      simpa [isId] using this
    · have := said.symm.trans (field_of_obj shown "order_version")
      exact Except.ok.inj this

/-- A version is the number that it stands for, in both of its types. -/
theorem number?_versionJson (k : Int) : number? (versionJson k) = some (k : Rat) := by
  unfold versionJson
  split_ifs
  · rfl
  · exact number?_ofDouble k

/-- A begin that the service has answered carries an integer, or is refused for it. -/
theorem exists_expected_of_begin {event : Event} {now next : Environment} {oid : String}
    {reply : Except ServiceError Json} (path : now.Path event.tool event.args reply next)
    (shown : event.result = Environment.recorded reply)
    (tool : event.tool = "begin_cancellation") (target : event.orderId = .str oid)
    (text : isBlank oid = false) (stored : oid ∈ now.db.orders)
    (undenied : ¬ event.Says "status" (.str "denied")) :
    event.Says "code" (.str "INVALID_VERSION") ∨ ∃ k, event.expectedVersion = .int k := by
  have named : Environment.textArg? event.args "order_id" = some oid := by
    have : Dict.get? event.args "order_id" = some (.str oid) := by
      unfold Event.orderId at target
      cases h : Dict.get? event.args "order_id" with
      | none => simp [h] at target
      | some value => simpa [h] using target
    simp [Environment.textArg?, this, asStr?, text]
  have integer : ∀ {k}, Environment.intArg? event.args "expected_version" = some k →
      ∃ k, event.expectedVersion = .int k := by
    intro k given
    obtain ⟨value, read, isInt⟩ := Option.bind_eq_some_iff.mp given
    refine ⟨k, ?_⟩
    rw [Event.expectedVersion, read, Option.getD_some]
    cases value <;> simp_all [asInt?]
  have begins : ∀ {t order}, now.Reaches event.tool event.args t order → t = .beginCancellation :=
    fun reaches => reaches.tool_eq (by rw [tool]; rfl)
  cases path with
  | unreached unreached =>
    -- Every answer that reaches no tool contradicts what is known of the event.
    exfalso
    cases unreached with
    | unknownTool unknown => simp [tool, Tool.ofName?] at unknown
    | invalidOrderId invalid => simp [named] at invalid
    | notFound target missing =>
      obtain rfl := Option.some.inj (named.symm.trans target)
      exact Table.find?_eq_none_iff.mp missing stored
    | forbidden => exact undenied (by simp [Event.Says, field_of_obj shown, Dict.get?])
  | raised reaches raises =>
    obtain rfl := begins reaches
    cases raises with
    | begin version => exact .inr (integer version)
  | answered reaches answer =>
    obtain rfl := begins reaches
    cases answer with
    | versionInvalid => exact .inl (by simp [Event.Says, field_of_obj shown, Dict.get?])
    | shippedConflict version => exact .inr (integer version)
    | shippedDenied version => exact .inr (integer version)
    | beginConflict version => exact .inr (integer version)
    | begunBefore version => exact .inr (integer version)
    | beginDenied version => exact .inr (integer version)
    | begun version => exact .inr (integer version)

/-- **The policy check is sound.** If it passes on the events of a run of the service, all
of them are in order, and each begin carried the version the policy answered as an
integer, or was refused because it is none. -/
theorem orderly_runCalls {fixture : Fixture} (loaded : Environment.ofFixture fixture = some env)
    {artifact : Artifact} {expected : Expected} {v : Verdict}
    (checked : checkPolicy (artifact.ofRun env calls) expected = .ok v) (passed : v.status = .pass)
    {before after : List Event} {event : Event}
    (split : (env.runCalls calls).events = before ++ event :: after) :
    Orderly env artifact.request expected before event ∧
      (event.tool = "begin_cancellation" → ∀ oid, event.orderId = .str oid →
        ∃ version : Int, Cleared before oid (versionJson version) ∧
          (event.expectedVersion = .int version ∨
            event.Says "code" (.str "INVALID_VERSION"))) := by
  have orderly : Orderly env artifact.request expected before event :=
    orderly_of_checkPolicy rfl checked passed split
  refine ⟨orderly, fun tool oid target => ?_⟩
  have noEvents : env.events = [] := by
    obtain ⟨db, -, rfl⟩ := Option.map_eq_some_iff.mp loaded
    rfl
  have answered : ∀ e ∈ (env.runCalls calls).events, Answered env e := by
    intro e member
    rcases answered_of_mem member with old | new
    · simp [noEvents] at old
    · exact new
  obtain ⟨oid', -, write⟩ := orderly.write (by simp [tool, writeTools])
  obtain rfl : oid' = oid := by
    have := write.target.symm.trans target
    simpa using this
  obtain ⟨version, cleared, carried⟩ := write.cleared tool
  -- The approval is an event of the run too, so its version is one of the service.
  obtain ⟨early, check, late, split', ⟨allows, said, -⟩, -⟩ := id cleared
  obtain ⟨now, next, reply, path, shown, -⟩ := answered check (by simp [split, split'])
  obtain ⟨text, k, rfl⟩ := exists_version_of_allows path shown allows said
  refine ⟨k, cleared, ?_⟩
  obtain ⟨now', next', reply', path', shown', grows⟩ := answered event (by simp [split])
  obtain ⟨row, found, -⟩ := write.owned
  -- No run removes an order, so the begin found the order in the store.
  have stored : oid' ∈ now'.db.orders := (grows.known _).mpr
    (Table.mem_iff.mpr ⟨row, Table.mem_of_find?_eq_some found, Table.key_of_find?_eq_some found⟩)
  rcases exists_expected_of_begin path' shown' tool target text stored write.undenied with
    invalid | ⟨n, exact'⟩
  · exact .inr invalid
  · rw [exact'] at carried
    have same : (n : Rat) = k := (pyEq_iff_of_number? rfl (number?_versionJson k)).mp carried
    exact .inl (Int.cast_injective same ▸ exact')

/-- A paid order. -/
def paidOrder : OrderRow := ⟨"order-a", "customer-a", .paid, 12500, "USD", "sku-a", 2, 1⟩

/-- A customer with one paid order. -/
def oneOrder : Fixture where
  actorId := "customer-a"
  subjectId := "order-a"
  orders := [paidOrder]
  payments := [⟨"order-a", 12500, 0⟩]
  inventory := [("sku-a", 10)]

/-- The environment of `oneOrder`. -/
def oneEnv : Environment where
  actorId := "customer-a"
  subjectId := "order-a"
  fault := .none
  db := ⟨.single paidOrder, .single ⟨"order-a", 12500, 0⟩, .single ⟨"sku-a", 10, false⟩, .empty,
    .empty, .empty⟩

/-- The question whether the order can be cancelled. -/
def askPolicy : Call :=
  ⟨⟨"e1", 0, 0, none, none⟩, "check_cancel_policy", [("order_id", .str "order-a")], none⟩

/-- The begin of the cancellation, with the version answered. -/
def beginOrder : Call :=
  ⟨⟨"e2", 0, 0, none, none⟩, "begin_cancellation",
    [("order_id", .str "order-a"), ("expected_version", .int 1)], none⟩

/-- The request to cancel the order. -/
def cancelOrder : Request := ⟨"주문을 취소해 주세요.", some "order-a", "r1", by decide, by decide⟩

/-- An artifact of the request, before any run. -/
def unrunArtifact : Artifact where
  scenarioId := "cancel"
  release := "baseline"
  trial := 1
  request := cancelOrder
  executionStatus := .completed
  initialState := []
  finalState := none
  events := []
  response := none

/-- A completed cancellation is expected, and no tool is forbidden. -/
def completedExpected : Expected where
  finalState := [("order_status", .str "cancelled")]
  forbiddenTools := []
  responseKind := .completed
  maxRefundAttempts := 2
  finalState_ne := by decide
  maxRefundAttempts_le := le_rfl

theorem orderly_runCalls_askedAndBegun :
    let asked := oneEnv.eventOf askPolicy (Environment.policyAnswer paidOrder)
    let begun := (oneEnv.call askPolicy).2.eventOf beginOrder (okAnswer [])
    Orderly oneEnv cancelOrder completedExpected [asked] begun ∧
      (begun.tool = "begin_cancellation" → ∀ oid, begun.orderId = .str oid →
        ∃ version : Int, Cleared [asked] oid (versionJson version) ∧
          (begun.expectedVersion = .int version ∨
            begun.Says "code" (.str "INVALID_VERSION"))) :=
  @orderly_runCalls oneEnv [askPolicy, beginOrder] oneOrder rfl unrunArtifact _ _ rfl rfl _ [] _ rfl

end Run

end AgentLabs.BusinessLab
