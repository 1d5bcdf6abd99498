import AgentLabs.BusinessLab.Courses
import AgentLabs.BusinessLab.Policy

/-!
# The courses of the driver are in order

The policy check and the recovery check go through the events of a course. What the
policy check has to remember at a point of a course is little: the version of the last
approval, and which of the three steps it has seen. So a course is followed exchange by
exchange, as it was made.

## Main definitions

* `PolicyState.Knows`: what the check remembers of an order, and that it noted nothing
* `Passes`: the check goes through some exchanges and notes nothing

## Main results

* `Course.passes`: the policy check notes nothing in a course
* `Course.recovers`: nor does the recovery check
-/

namespace AgentLabs.BusinessLab

open Math Text Json

/-! ### A step that notes nothing -/

namespace PolicyState

variable {artifact : Artifact} {expected : Expected} {s : PolicyState} {event : Event}
  {fields : Fields} {oid : String}

@[simp] theorem note_false : s.note event false = s := by
  simp [note]

/-- The guards of a write that is in order note nothing. -/
theorem checkWrite_of_guarded (guarded : event.tool ∈ writeTools → Guarded artifact s event) :
    s.checkWrite artifact event = .ok s := by
  unfold checkWrite
  by_cases write : event.tool ∈ writeTools
  swap
  · rw [if_pos write]
    rfl
  rw [if_neg (not_not.mpr write)]
  obtain ⟨⟨orders, order, stored, found, owned⟩, approved, required, version⟩ := guarded write
  -- Only a begin is asked for the version that was approved.
  have noVersion : (decide (event.tool = "begin_cancellation") &&
      !pyEq ((Dict.get? event.args "expected_version").getD .null)
      (s.approvedVersion event.orderId)) =
        false := by
    by_cases begins : event.tool = "begin_cancellation"
    · simp [begins, version begins]
    · simp [begins]
  simp only [stored, ok_bind, getter, found, owned, approved, required, Bool.not_true, note_false,
    noVersion]
  rfl

theorem exists_observeCheck (result : event.result = .obj fields)
    (named : event.orderId = .str oid) :
    ∃ s', s.observeCheck event = .ok s' := by
  unfold observeCheck Event.permits Event.isOk
  simp only [field_of_obj result, named]
  split_ifs
  · exact ⟨_, rfl⟩
  · exact ⟨_, rfl⟩

theorem exists_observeConflict (result : event.result = .obj fields)
    (named : event.orderId = .str oid) : ∃ s', s.observeConflict event = .ok s' := by
  unfold observeConflict
  rw [field_of_obj result, named]
  by_cases conflict : pyEq ((Dict.get? fields "code").getD .null) (.str "VERSION_CONFLICT")
  · exact ⟨{ s.disapprove (.str oid) with begun := discard s.begun (.str oid) }, by
      simp only [bind, Except.bind, conflict]
      rfl⟩
  · exact ⟨s, by
      simp only [bind, Except.bind, conflict]
      rfl⟩

theorem exists_refundSeen (result : event.result = .obj fields)
    (payment : ∃ columns, (Dict.get? fields "payment").getD (.obj []) = .obj columns) :
    ∃ seen, refundSeen event = .ok seen := by
  unfold refundSeen
  split_ifs
  · unfold paymentSettled
    rw [field_of_obj result]
    obtain ⟨columns, isDict⟩ := payment
    cases paid : Dict.get? fields "payment" with
    | none => exact ⟨_, rfl⟩
    | some value =>
      obtain rfl : value = .obj columns := by simpa [paid] using isDict
      cases columns with
      | nil => exact ⟨_, rfl⟩
      | cons => exact ⟨_, rfl⟩
  · exact ⟨_, rfl⟩

theorem exists_observeSteps (result : event.result = .obj fields) (named : event.orderId = .str oid)
    (payment : ∃ columns, (Dict.get? fields "payment").getD (.obj []) = .obj columns) :
    ∃ s', s.observeSteps event = .ok s' := by
  obtain ⟨seen, isSeen⟩ := exists_refundSeen result payment
  unfold observeSteps Event.isOk
  rw [field_of_obj result, isSeen, named]
  simp only [bind, Except.bind, pure, Except.pure, hashed, isHashable]
  split_ifs <;> exact ⟨_, rfl⟩

end PolicyState

section Step

variable {artifact : Artifact} {expected : Expected} {s : PolicyState} {event : Event}
  {fields : Fields} {oid : String}

/-- An event that is in order is passed, and nothing is noted. -/
theorem exists_policyStep (artifact : Artifact) (allowed : expected.forbiddenTools = [])
    (result : event.result = .obj fields) (named : event.orderId = .str oid)
    (payment : ∃ columns, (Dict.get? fields "payment").getD (.obj []) = .obj columns)
    (guarded : event.tool ∈ writeTools → PolicyState.Guarded artifact s event ∧
      ¬ event.Says "status" (.str "denied"))
    (clean : s.violations = []) :
    ∃ s', policyStep artifact expected s event = .ok s' ∧ s'.violations = [] := by
  have unforbidden : decide (event.tool ∈ expected.forbiddenTools) = false := by simp [allowed]
  obtain ⟨s₂, checked⟩ := PolicyState.exists_observeCheck (s := s) result named
  obtain ⟨s₃, conflicted⟩ := PolicyState.exists_observeConflict (s := s₂) result named
  obtain ⟨s₄, stepped⟩ := PolicyState.exists_observeSteps (s := s₃) result named payment
  have kept : s₄.violations = [] := by
    rw [(PolicyState.observeSteps_spec stepped).1,
      (PolicyState.observeConflict_spec conflicted).2.2.1,
      (PolicyState.observeCheck_spec checked).2.2.2.1, clean]
  have undenied : (decide (event.tool ∈ writeTools) &&
      pyEq ((Dict.get? fields "status").getD .null) (.str "denied")) = false := by
    by_cases write : event.tool ∈ writeTools
    · have other := (guarded write).2
      rw [Event.Says, field_of_obj result, Except.ok.injEq] at other
      rw [Bool.eq_false_iff.mpr (mt pyEq_iff_str.mp other), Bool.and_false]
    · simp [write]
  -- The step is the four observations one after the other, none of which raises or notes.
  refine ⟨s₄, ?_, kept⟩
  unfold policyStep
  simp only [unforbidden, PolicyState.note_false]
  refine bind_eq_ok_iff.mpr ⟨s, PolicyState.checkWrite_of_guarded fun write =>
    (guarded write).1, ?_⟩
  refine bind_eq_ok_iff.mpr ⟨s₂, checked, bind_eq_ok_iff.mpr ⟨s₃, conflicted, ?_⟩⟩
  refine bind_eq_ok_iff.mpr ⟨s₄, stepped, bind_eq_ok_iff.mpr ⟨_, field_of_obj result _, ?_⟩⟩
  rw [undenied, PolicyState.note_false]
  rfl

end Step

/-! ### What the check remembers -/

/-- What the check remembers of an order: the version of a standing approval, and the
steps it has seen. -/
structure Knowledge where
  version : Option Int
  begun : Bool
  refunded : Bool
  released : Bool

/-- The check remembers at least this of the order, and has noted nothing. -/
structure PolicyState.Knows (s : PolicyState) (oid : String) (k : Knowledge) : Prop where
  approved : ∀ v ∈ k.version, s.Approves oid (.int v)
  begun : k.begun → .str oid ∈ s.begun
  refunded : k.refunded → .str oid ∈ s.refunded
  released : k.released → .str oid ∈ s.released
  clean : s.violations = []

/-- The check goes through the exchanges and notes nothing. -/
def Passes (artifact : Artifact) (expected : Expected) (oid : String) (k : Knowledge)
    (xs : List Exchange) (k' : Knowledge) : Prop :=
  ∀ (events : List Event) s, events.map Event.exchange = xs → PolicyState.Knows s oid k →
    ∃ s', events.foldlM (policyStep artifact expected) s = .ok s' ∧ s'.Knows oid k'

section Remember

variable {artifact : Artifact} {expected : Expected} {oid other : String} {k k' k'' : Knowledge}
  {xs ys : List Exchange}

theorem passes_nil : Passes artifact expected oid k [] k := by
  rintro events s none knows
  obtain rfl := List.map_eq_nil_iff.mp none
  exact ⟨s, rfl, knows⟩

theorem Passes.append (first : Passes artifact expected oid k xs k')
    (second : Passes artifact expected oid k' ys k'') :
    Passes artifact expected oid k (xs ++ ys) k'' := by
  intro events s shape knows
  obtain ⟨before, after, rfl, isFirst, isSecond⟩ := List.map_eq_append_iff.mp shape
  obtain ⟨s₁, ran₁, knows₁⟩ := first before s isFirst knows
  obtain ⟨s₂, ran₂, knows₂⟩ := second after s₁ isSecond knows₁
  exact ⟨s₂, foldlM_append_eq_ok_iff.mpr ⟨s₁, ran₁, ran₂⟩, knows₂⟩

theorem Passes.cons {x : Exchange} (first : Passes artifact expected oid k [x] k')
    (second : Passes artifact expected oid k' ys k'') :
    Passes artifact expected oid k (x :: ys) k'' :=
  first.append second

/-- The request is for the order, which belonged to the actor at the start. -/
def Artifact.Owns (artifact : Artifact) (oid : String) : Prop :=
  ∃ orders order, (Dict.get? artifact.initialState "orders").getD (.obj []) = .obj orders ∧
    lookup orders (.str oid) (.obj []) = .ok order ∧
      PolicyState.owns artifact order (.str oid) = .ok true

/-- What an exchange shows of an order: the counterpart of the specification of a step. -/
structure Shows (x : Exchange) (fields : Fields) (oid other : String) (k k' : Knowledge) :
    Prop where
  answered : x.result = .obj fields
  named : Dict.get? x.args "order_id" = some (.str other)
  payment : ∃ columns, (Dict.get? fields "payment").getD (.obj []) = .obj columns
  version : ∀ event : Event, event.exchange = x → ∀ v ∈ k'.version,
    (event.Allows oid ∧ event.Says "order_version" (.int v) ∧ ¬ event.Conflicts oid) ∨
      v ∈ k.version ∧ ¬ (event.Checks oid ∨ event.Conflicts oid)
  begun : ∀ event : Event, event.exchange = x → k'.begun →
    event.Begins oid ∨ k.begun ∧ ¬ event.Conflicts oid
  refunded : ∀ event : Event, event.exchange = x → k'.refunded →
    (event.orderId = .str oid ∧ event.Says "status" (.str "ok") ∧
      PolicyState.refundSeen event = .ok true) ∨ k.refunded
  released : ∀ event : Event, event.exchange = x → k'.released → event.Releases oid ∨ k.released

/-- An exchange that is in order is passed. -/
theorem passes_of_shows {x : Exchange} {fields : Fields} (allowed : expected.forbiddenTools = [])
    (shows' : Shows x fields oid other k k')
    (guarded : x.tool ∈ writeTools → ∀ event s, event.exchange = x → PolicyState.Knows s oid k →
      PolicyState.Guarded artifact s event ∧ ¬ event.Says "status" (.str "denied")) :
    Passes artifact expected oid k [x] k' := by
  intro events s shape knows
  obtain ⟨event, rfl, isEvent⟩ := List.map_eq_singleton_iff.mp shape
  have tool : event.tool = x.tool := congrArg Exchange.tool isEvent
  have named : event.orderId = .str other := by
    have args : event.args = x.args := congrArg Exchange.args isEvent
    rw [Event.orderId, args, shows'.named]
    rfl
  obtain ⟨s', ran, clean⟩ := exists_policyStep artifact allowed
    ((congrArg Exchange.result isEvent).trans shows'.answered) named shows'.payment
    (fun write => guarded (tool ▸ write) event s isEvent knows) knows.clean
  obtain ⟨approves, begun, refunded, released, -⟩ := policyStep_spec ran
  -- What the state knows of the order is what the exchange shows, or what it knew before.
  refine ⟨s', foldlM_cons_eq_ok_iff.mpr ⟨s', ran, rfl⟩, fun v member => ?_, fun h =>
    ?_, fun h => ?_, fun h => ?_, clean⟩
  · refine (approves oid (.int v)).mpr ((shows'.version event isEvent v member).imp_right ?_)
    exact fun old => ⟨knows.approved v old.1, old.2⟩
  · exact (begun oid).mpr ((shows'.begun event isEvent h).imp_right fun old =>
      ⟨knows.begun old.1, old.2⟩)
  · exact (refunded oid).mpr ((shows'.refunded event isEvent h).imp_right fun old =>
      ⟨knows.refunded old, id⟩)
  · exact (released oid).mpr ((shows'.released event isEvent h).imp_right fun old =>
      ⟨knows.released old, id⟩)

/-! ### One exchange each -/

/-- An event with this exchange asks no question about the policy, and reports no
conflict. -/
theorem quiet_of_exchange (oid : String) {x : Exchange} {fields : Fields} {event : Event}
    (shape : event.exchange = x)
    (answered : x.result = .obj fields) (tool : x.tool ≠ "check_cancel_policy")
    (code : (Dict.get? fields "code").getD .null ≠ .str "VERSION_CONFLICT") :
    ¬ event.Checks oid ∧ ¬ event.Conflicts oid := by
  constructor
  · rintro ⟨asks, -⟩
    exact tool ((congrArg Exchange.tool shape).symm.trans asks)
  · rintro ⟨-, conflict⟩
    rw [Event.Says, field_of_obj ((congrArg Exchange.result shape).trans answered)] at conflict
    exact code (Except.ok.inj conflict)

/-- An exchange that asks no question about the policy and reports no conflict shows what
it shows of the three steps, and takes nothing back. -/
theorem Shows.ofSteps {x : Exchange} {fields : Fields} (answered : x.result = .obj fields)
    (named : Dict.get? x.args "order_id" = some (.str other))
    (payment : ∃ columns, (Dict.get? fields "payment").getD (.obj []) = .obj columns)
    (tool : x.tool ≠ "check_cancel_policy")
    (code : (Dict.get? fields "code").getD .null ≠ .str "VERSION_CONFLICT")
    (version : k'.version = k.version)
    (begun : ∀ event : Event, event.exchange = x → k'.begun → event.Begins oid ∨ k.begun)
    (refunded : ∀ event : Event, event.exchange = x → k'.refunded →
      (event.orderId = .str oid ∧ event.Says "status" (.str "ok") ∧
        PolicyState.refundSeen event = .ok true) ∨ k.refunded)
    (released : ∀ event : Event, event.exchange = x → k'.released → event.Releases oid ∨
      k.released) :
    Shows x fields oid other k k' where
  answered
  named
  payment
  version event shape v member := by
    obtain ⟨noCheck, noConflict⟩ := quiet_of_exchange oid shape answered tool code
    exact .inr ⟨version ▸ member, not_or.mpr ⟨noCheck, noConflict⟩⟩
  begun event shape h :=
    (begun event shape h).imp_right fun old =>
      ⟨old, (quiet_of_exchange oid shape answered tool code).2⟩
  refunded
  released

/-- An exchange that shows nothing new. -/
theorem Shows.quiet {x : Exchange} {fields : Fields} (answered : x.result = .obj fields)
    (named : Dict.get? x.args "order_id" = some (.str other))
    (payment : ∃ columns, (Dict.get? fields "payment").getD (.obj []) = .obj columns)
    (tool : x.tool ≠ "check_cancel_policy")
    (code : (Dict.get? fields "code").getD .null ≠ .str "VERSION_CONFLICT") :
    Shows x fields oid other k k :=
  .ofSteps answered named payment tool code rfl (fun _ _ h => .inr h) (fun _ _ h => .inr h)
    (fun _ _ h => .inr h)

variable (allowed : expected.forbiddenTools = [])

include allowed

theorem passes_orderShown (order : OrderRow) :
    Passes artifact expected oid k [orderShown other order] k :=
  passes_of_shows allowed
    (.quiet rfl rfl ⟨[], rfl⟩ (by simp [orderShown]) (by simp [Dict.get?]))
    (fun write => absurd write (by simp [writeTools, orderShown]))

theorem passes_ticketOpened (reason : String) :
    Passes artifact expected oid k [ticketOpened other reason] k :=
  passes_of_shows allowed
    (.quiet rfl rfl ⟨[], rfl⟩ (by simp [ticketOpened]) (by simp [Dict.get?]))
    (fun write => absurd write (by simp [writeTools, ticketOpened]))

theorem passes_lookRefused {status code : String} (other' : code ≠ "VERSION_CONFLICT") :
    Passes artifact expected oid k [lookRefused other status code] k :=
  passes_of_shows allowed
    (.quiet rfl rfl ⟨[], rfl⟩ (by simp [lookRefused]) (by simpa [Dict.get?] using other'))
    (fun write => absurd write (by simp [writeTools, lookRefused]))

/-- A look at a payment shows whether the order is refunded. -/
theorem passes_paymentShown (payment : PaymentRow) :
    Passes artifact expected oid k [paymentShown oid payment]
      { k with
        refunded := k.refunded || decide (payment.refundedCents = payment.capturedCents) } := by
  refine passes_of_shows allowed (.ofSteps rfl rfl ⟨_, rfl⟩ (by simp [paymentShown])
    (by simp [Dict.get?]) rfl (fun _ _ h => .inr h) (fun event shape h => ?_) (fun _ _ h => .inr h))
    (fun write => absurd write (by simp [writeTools, paymentShown]))
  rcases (Bool.or_eq_true _ _).mp h with old | full
  · exact .inr old
  have result : event.result = okAnswer [("payment", payment.toJson)] :=
    congrArg Exchange.result shape
  have args : event.args = [("order_id", .str oid)] := congrArg Exchange.args shape
  have tool : event.tool = "get_payment" := congrArg Exchange.tool shape
  refine .inl ⟨by rw [Event.orderId, args]; rfl, field_of_obj result _, ?_⟩
  rw [PolicyState.refundSeen, if_pos tool, PolicyState.paymentSettled, field_of_obj result]
  change Except.ok (true && pyEq (.int payment.capturedCents) (.int payment.refundedCents)) = _
  simp [pyEq, scalarEq, number?, (of_decide_eq_true full).symm]

/-- The answer about the policy gives the approval, or withdraws it. -/
theorem passes_policyShown (order : OrderRow) (fits : order.Cancellable → order.Fits) :
    Passes artifact expected oid k [policyShown oid order]
      { k with
        version :=
          if order.status = .paid ∨ order.status = .cancelling then some order.version
          else none } := by
  refine passes_of_shows allowed ⟨rfl, rfl, ⟨[], rfl⟩, fun event shape v member => ?_,
    fun event shape h => .inr ⟨h, ?_⟩, fun _ _ h => .inr h, fun _ _ h => .inr h⟩
    (fun write => absurd write (by simp [writeTools, policyShown]))
  all_goals
    have result : event.result = Environment.policyAnswer order := congrArg Exchange.result shape
    have args : event.args = [("order_id", .str oid)] := congrArg Exchange.args shape
    have tool : event.tool = "check_cancel_policy" := congrArg Exchange.tool shape
    have quiet : ¬ event.Conflicts oid := by
      rintro ⟨-, conflict⟩
      rw [Event.Says, field_of_obj result] at conflict
      simp [Dict.get?] at conflict
  -- Only a permission shows a version; a refusal withdraws the approval.
  · by_cases permitted : order.status = .paid ∨ order.status = .cancelling
    swap
    · simp [permitted] at member
    obtain rfl : order.version = v := by simpa [permitted] using member
    refine .inl ⟨⟨⟨tool, by rw [Event.orderId, args]; rfl⟩, field_of_obj result _, ?_⟩,
      (field_of_obj result _).trans (congrArg Except.ok (fits permitted).versionJson_eq), quiet⟩
    rw [Event.Says, field_of_obj result, ← decide_eq_true permitted]
    rfl
  · exact quiet

omit allowed

/-- A write on an approved order, after the step before it, is guarded. -/
theorem guarded_of_knows {s : PolicyState} {event : Event} (owns : artifact.Owns oid)
    (knows : s.Knows oid k) {version : Int} (approved : k.version = some version)
    (named : event.orderId = .str oid) (required : .str oid ∈ s.requirement event.tool)
    (expects : event.tool = "begin_cancellation" →
      (Dict.get? event.args "expected_version").getD .null = .int version) :
    PolicyState.Guarded artifact s event := by
  obtain ⟨member, stated⟩ := knows.approved version approved
  refine ⟨named ▸ owns, ?_, ?_, fun begins => ?_⟩
  · rw [named, memberOf_str]
    exact member
  · rw [named, memberOf_str]
    exact required
  · rw [expects begins, named, stated]
    simp [pyEq, scalarEq, number?]

/-- An answer that is not a denial. -/
theorem not_denied {event : Event} {fields : Fields} {status : String}
    (result : event.result = .obj (("status", .str status) :: fields))
    (undenied : status ≠ "denied") :
    ¬ event.Says "status" (.str "denied") := by
  rw [Event.Says, field_of_obj result]
  simpa [Dict.get?] using undenied

include allowed

/-- A write that is in order and reports no conflict shows the step it makes. -/
theorem passes_write {x : Exchange} {fields : Fields} {status : String} {version : Int}
    (owns : artifact.Owns oid) (approved : k.version = some version)
    (answered : x.result = .obj (("status", .str status) :: fields)) (undenied : status ≠ "denied")
    (named : Dict.get? x.args "order_id" = some (.str oid))
    (payment : Dict.get? fields "payment" = none) (tool : x.tool ≠ "check_cancel_policy")
    (code : (Dict.get? fields "code").getD .null ≠ .str "VERSION_CONFLICT")
    (expects : x.tool = "begin_cancellation" →
      (Dict.get? x.args "expected_version").getD .null = .int version)
    (required : ∀ s, PolicyState.Knows s oid k → .str oid ∈ s.requirement x.tool)
    (version' : k'.version = k.version)
    (begun : k'.begun → x.tool = "begin_cancellation" ∧ status = "ok" ∨ k.begun)
    (refunded : k'.refunded → x.tool = "refund_payment" ∧ status = "ok" ∨ k.refunded)
    (released : k'.released → x.tool = "release_stock" ∧ status = "ok" ∨ k.released) :
    Passes artifact expected oid k [x] k' := by
  -- All that the check reads beside the status stands in the other fields.
  have later : ∀ {name}, name ≠ "status" →
      Dict.get? (("status", Json.str status) :: fields) name = Dict.get? fields name := by
    intro name other
    simp [Dict.get?, other.symm]
  have orderId : ∀ {event : Event}, event.exchange = x → event.orderId = .str oid := by
    intro event shape
    have args : event.args = x.args := congrArg Exchange.args shape
    rw [Event.orderId, args, named]
    rfl
  have good : ∀ {event : Event}, event.exchange = x → status = "ok" →
      event.Says "status" (.str "ok") := by
    rintro event shape rfl
    exact field_of_obj ((congrArg Exchange.result shape).trans answered) _
  refine passes_of_shows allowed (.ofSteps answered named ⟨[], ?_⟩ tool ?_ version'
    (fun event shape h => (begun h).imp_left fun step => ?_)
    (fun event shape h => (refunded h).imp_left fun step => ?_)
    (fun event shape h => (released h).imp_left fun step => ?_))
    (fun write event s shape knows => ⟨?_, not_denied
      ((congrArg Exchange.result shape).trans answered) undenied⟩)
  · rw [later (by decide), payment]
    rfl
  · rwa [later (by decide)]
  · exact ⟨(congrArg Exchange.tool shape).trans step.1, orderId shape, good shape step.2⟩
  · have isRefund : event.tool = "refund_payment" := (congrArg Exchange.tool shape).trans step.1
    refine ⟨orderId shape, good shape step.2, ?_⟩
    rw [PolicyState.refundSeen, if_neg (by simp [isRefund]), decide_eq_true isRefund]
  · exact ⟨(congrArg Exchange.tool shape).trans step.1, orderId shape, good shape step.2⟩
  · have isTool : event.tool = x.tool := congrArg Exchange.tool shape
    have args : event.args = x.args := congrArg Exchange.args shape
    exact guarded_of_knows owns knows approved (orderId shape) (isTool ▸ required s knows)
      (fun begins => args ▸ expects (isTool ▸ begins))

theorem passes_beginTried (owns : artifact.Owns oid) {order : OrderRow}
    (approved : k.version = some order.version) :
    Passes artifact expected oid k [beginTried oid order.version (beginAnswer order)]
      { k with begun := true } := by
  obtain ⟨fields, answered, payment, code⟩ : ∃ fields, beginAnswer order = okAnswer fields ∧
      Dict.get? fields "payment" = none ∧ Dict.get? fields "code" = none := by
    unfold beginAnswer
    split_ifs
    · exact ⟨_, rfl, rfl, rfl⟩
    · exact ⟨_, rfl, rfl, rfl⟩
  rw [answered]
  exact passes_write allowed owns approved rfl (by decide) rfl payment (by simp [beginTried])
    (by simp [code]) (fun _ => rfl) (fun s knows => (knows.approved _ approved).1) rfl
    (fun _ => .inl ⟨rfl, rfl⟩) .inr .inr

theorem passes_refundMade (owns : artifact.Owns oid) {version : Int} {key : String} {amount : Int}
    (approved : k.version = some version) (begun : k.begun) :
    Passes artifact expected oid k [refundTried oid key amount (refundMade amount)]
      { k with refunded := true } :=
  passes_write allowed owns approved rfl (by decide) rfl rfl (by simp [refundTried])
    (by simp [Dict.get?]) (by simp [refundTried]) (fun s knows => knows.begun begun) rfl .inr
    (fun _ => .inl ⟨rfl, rfl⟩) .inr

theorem passes_refundLost (owns : artifact.Owns oid) {version : Int} {key : String} {amount : Int}
    (approved : k.version = some version) (begun : k.begun) :
    Passes artifact expected oid k [refundTried oid key amount timeout] k :=
  passes_write allowed owns approved rfl (by decide) rfl rfl (by simp [refundTried])
    (by simp [Dict.get?]) (by simp [refundTried]) (fun s knows => knows.begun begun)
    rfl .inr .inr .inr

theorem passes_releaseMade (owns : artifact.Owns oid) {version : Int} {fields : Fields}
    (approved : k.version = some version) (refunded : k.refunded)
    (answered : ReleaseFields fields) :
    Passes artifact expected oid k [releaseTried oid (okAnswer fields)]
      { k with released := true } := by
  obtain ⟨payment, code⟩ : Dict.get? fields "payment" = none ∧ Dict.get? fields "code" = none := by
    cases answered <;> exact ⟨rfl, rfl⟩
  exact passes_write allowed owns approved rfl (by decide) rfl payment (by simp [releaseTried])
    (by simp [code]) (by simp [releaseTried]) (fun s knows => knows.refunded refunded) rfl .inr .inr
    (fun _ => .inl ⟨rfl, rfl⟩)

theorem passes_releaseTaken (owns : artifact.Owns oid) {version : Int}
    (approved : k.version = some version) (refunded : k.refunded) :
    Passes artifact expected oid k [releaseTried oid (refusal "error" "IDEMPOTENCY_CONFLICT")] k :=
  passes_write allowed owns approved rfl (by decide) rfl rfl (by simp [releaseTried])
    (by simp [Dict.get?]) (by simp [releaseTried]) (fun s knows => knows.refunded refunded) rfl .inr
    .inr .inr

theorem passes_completionMade (owns : artifact.Owns oid) {version : Int}
    (approved : k.version = some version) (released : k.released) :
    Passes artifact expected oid k
      [completionTried oid (okAnswer [("order_status", .str "cancelled")])] k :=
  passes_write allowed owns approved rfl (by decide) rfl rfl (by simp [completionTried])
    (by simp [Dict.get?]) (by simp [completionTried]) (fun s knows => knows.released released) rfl
    .inr .inr .inr

/-- A conflict takes the approval and the begin back. -/
theorem passes_beginConflict (owns : artifact.Owns oid) {version : Int}
    (approved : k.version = some version) :
    Passes artifact expected oid k [beginTried oid version (refusal "error" "VERSION_CONFLICT")]
      { k with version := none, begun := false } := by
  refine passes_of_shows allowed ⟨rfl, rfl, ⟨[], rfl⟩, fun _ _ _ member => by simp at member,
    fun _ _ h => by simp at h, fun _ _ h => .inr h, fun _ _ h => .inr h⟩
    (fun write event s shape knows => ⟨?_, not_denied (congrArg Exchange.result shape) (by decide)⟩)
  have args : event.args = [("order_id", .str oid), ("expected_version", .int version)] :=
    congrArg Exchange.args shape
  have tool : event.tool = "begin_cancellation" := congrArg Exchange.tool shape
  refine guarded_of_knows owns knows approved ?_ ?_ (fun _ => ?_)
  · rw [Event.orderId, args]
    rfl
  · rw [tool]
    exact (knows.approved _ approved).1
  · rw [args]
    rfl

omit allowed

/-! ### The courses -/

section Courses

variable {fault : Fault} {release key : String} {released : Table ReleaseRow.orderId}
  {order order' : OrderRow} {payment payment' : PaymentRow} {ys : List Exchange} {confirmed : Bool}
  {kind : ResponseKind} {cents : Option Int} {version : Int}

include allowed

/-- The exchanges of a refund are in order once the cancellation is begun, and a refund
that is confirmed has been seen. -/
theorem RefundCourse.passes (owns : artifact.Owns oid) (approved : k.version = some version)
    (begun : k.begun) (settled : payment.rest = 0 → k.refunded)
    (course : RefundCourse fault release oid key payment ys confirmed payment') :
    ∃ k', Passes artifact expected oid k ys k' ∧ k'.version = some version ∧
      (confirmed → k'.refunded) := by
  have lost : Passes artifact expected oid k [refundTried oid key payment.rest timeout] k :=
    passes_refundLost allowed owns approved begun
  have made : Passes artifact expected oid k
      [refundTried oid key payment.rest (refundMade payment.rest)] { k with refunded := true } :=
    passes_refundMade allowed owns approved begun
  obtain ⟨k₁, shown, approved₁, begun₁⟩ : ∃ k₁,
      Passes artifact expected oid k [paymentShown oid payment] k₁ ∧ k₁.version = some version ∧
        k₁.begun :=
    ⟨_, passes_paymentShown allowed payment, approved, begun⟩
  cases course with
  | nothing rest => exact ⟨k, passes_nil, approved, fun _ => settled rest⟩
  | made => exact ⟨_, made, approved, fun _ => rfl⟩
  | unavailable | lost | unseen => exact ⟨k, lost, approved, by simp⟩
  | givenUp =>
    exact ⟨_, lost.cons (shown.cons ((passes_refundLost allowed owns approved₁ begun₁).cons
      (passes_paymentShown allowed payment))), approved₁, by simp⟩
  | retried =>
    exact ⟨_, lost.cons (shown.cons (passes_refundMade allowed owns approved₁ begun₁)), approved₁,
      fun _ => rfl⟩
  | discovered =>
    exact ⟨_, lost.cons (passes_paymentShown allowed _), approved,
      fun _ => by simp [PaymentRow.settled]⟩

/-- The exchanges from the begin on are in order. -/
theorem Settlement.passes (owns : artifact.Owns oid) (approved : k.version = some version)
    (begun : k.begun)
    (course : Settlement fault release oid key released order payment ys kind cents order'
      payment') :
    ∃ k', Passes artifact expected oid k ys k' := by
  obtain ⟨k₁, shown, approved₁, begun₁, settled⟩ : ∃ k₁,
      Passes artifact expected oid k [paymentShown oid payment] k₁ ∧ k₁.version = some version ∧
        k₁.begun ∧ (payment.rest = 0 → k₁.refunded) := by
    refine ⟨_, passes_paymentShown allowed payment, approved, begun, fun rest => ?_⟩
    unfold PaymentRow.rest at rest
    simp [show payment.refundedCents = payment.capturedCents by omega]
  cases course with
  | handedOver reason refund =>
    obtain ⟨k', passes, -, -⟩ := refund.passes allowed owns approved₁ begun₁ settled
    exact ⟨k', shown.cons (passes.append (passes_ticketOpened allowed reason))⟩
  | keyTaken reason refund taken =>
    obtain ⟨k', passes, approved', seen⟩ := refund.passes allowed owns approved₁ begun₁ settled
    exact ⟨k', shown.cons (passes.append
      ((passes_releaseTaken allowed owns approved' (seen rfl)).cons
      (passes_ticketOpened allowed reason)))⟩
  | completed answered refund free =>
    obtain ⟨k', passes, approved', seen⟩ := refund.passes allowed owns approved₁ begun₁ settled
    -- The completion needs the refund and the release, and both have been seen.
    have completed : Passes artifact expected oid { k' with released := true } _
      { k' with released := true } :=
      passes_completionMade allowed owns approved' rfl
    exact ⟨_, shown.cons (passes.append ((passes_releaseMade allowed owns approved' (seen rfl)
      answered).cons (completed.cons (passes_orderShown allowed _))))⟩

/-- **The policy check notes nothing in a course.** -/
theorem Course.passes (owns : artifact.Owns oid) (fits : order.Fits)
    (course : Course fault release oid key released order payment ys kind cents order' payment') :
    ∃ k', Passes artifact expected oid k ys k' := by
  have looked : Passes artifact expected oid k [orderShown oid order] k :=
    passes_orderShown allowed order
  have asked : Passes artifact expected oid k [policyShown oid order] _ :=
    passes_policyShown allowed order fun _ => fits
  cases course with
  | cancelled => exact ⟨_, looked.cons (passes_paymentShown allowed payment)⟩
  | refused => exact ⟨_, looked.cons asked⟩
  | shipped cancellable =>
    have approved : (if order.status = .paid ∨ order.status = .cancelling then some order.version
        else none) = some order.version := if_pos cancellable
    exact ⟨_, looked.cons (asked.cons ((passes_beginConflict allowed owns approved).cons
      ((passes_orderShown allowed _).cons
      (passes_policyShown allowed _ (by simp [OrderRow.Cancellable, OrderRow.shipped])))))⟩
  | begun cancellable quiet rest =>
    have approved : (if order.status = .paid ∨ order.status = .cancelling then some order.version
        else none) = some order.version := if_pos cancellable
    obtain ⟨k', passes⟩ := rest.passes allowed (k := { k with version := _, begun := true })
      owns approved
      rfl
    exact ⟨k', looked.cons (asked.cons ((passes_beginTried allowed owns approved).cons passes))⟩

end Courses

end Remember

/-! ### Recovery -/

/-- Every lost refund is followed by a look at the payment, or by no other write. -/
inductive Observed : List Exchange → Prop
  | nil : Observed []
  | other {x : Exchange} {ys : List Exchange} (tool : x.tool ≠ "refund_payment")
      (rest : Observed ys) :
      Observed (x :: ys)
  | made {oid key : String} {amount : Int} {ys : List Exchange} (rest : Observed ys) :
      Observed (refundTried oid key amount (refundMade amount) :: ys)
  | last {oid key : String} {amount : Int} {ys : List Exchange}
      (quiet : ∀ y ∈ ys, y.tool ∉ writeTools) (rest : Observed ys) :
      Observed (refundTried oid key amount timeout :: ys)
  | looked {oid key : String} {amount : Int} {payment : PaymentRow} {ys : List Exchange}
      (rest : Observed ys) :
      Observed (refundTried oid key amount timeout :: paymentShown oid payment :: ys)

/-- The key of a refund. -/
def Exchange.key (x : Exchange) : Json := (Dict.get? x.args "idempotency_key").getD .null

section Recover

variable {oid key : String} {xs ys zs : List Exchange} {events : List Event}

/-- An event that is no refund, or whose refund was made, is followed by whatever it likes. -/
theorem unobservedWrites_cons {event : Event} {following : List Event} {later : List Event}
    (rest : unobservedWrites following = .ok later)
    (fine : event.tool ≠ "refund_payment" ∨ ∃ fields, event.result = .obj fields ∧
      (Dict.get? fields "code").getD .null ≠ .str "TIMEOUT") :
    unobservedWrites (event :: following) = .ok later := by
  rw [unobservedWrites, rest]
  change (if event.tool ≠ "refund_payment" then Except.ok later else _) = _
  rcases fine with other | ⟨fields, result, code⟩
  · rw [if_pos other]
  · split_ifs
    · rfl
    · rw [field_of_obj result]
      have differs : pyEq ((Dict.get? fields "code").getD .null) (.str "TIMEOUT") = false :=
        Bool.eq_false_iff.mpr (mt pyEq_iff_str.mp code)
      simp only [bind, Except.bind, differs]
      rfl

/-- The writes after a lost refund. -/
theorem unobservedWrites_lost {event : Event} {following later : List Event}
    (rest : unobservedWrites following = .ok later) (tool : event.tool = "refund_payment")
    (lost : event.result = timeout) :
    unobservedWrites (event :: following) =
      match following.findIdx? (fun e => e.tool ∈ writeTools) with
      | none => .ok later
      | some next => do
        let looked ← (following.take next).anyM fun e =>
          if e.tool = "get_payment" ∧ pyEq e.orderId event.orderId then e.isOk else .ok false
        return if looked then later else following[next]?.toList ++ later := by
  rw [unobservedWrites, rest]
  change (if event.tool ≠ "refund_payment" then Except.ok later else _) = _
  rw [if_neg (not_not.mpr tool), field_of_obj lost]
  rfl

/-- **What is observed is in order.** -/
theorem Observed.unobservedWrites (observed : Observed xs)
    (shape : events.map Event.exchange = xs) :
    BusinessLab.unobservedWrites events = .ok [] := by
  induction observed generalizing events with
  | nil =>
    obtain rfl := List.map_eq_nil_iff.mp shape
    rfl
  | other tool rest ih =>
    obtain ⟨event, following, rfl, isEvent, later⟩ := List.map_eq_cons_iff.mp shape
    exact unobservedWrites_cons (ih later)
      (.inl fun same => tool ((congrArg Exchange.tool isEvent).symm.trans same))
  | made rest ih =>
    obtain ⟨event, following, rfl, isEvent, later⟩ := List.map_eq_cons_iff.mp shape
    exact unobservedWrites_cons (ih later)
      (.inr ⟨_, congrArg Exchange.result isEvent, by simp [Dict.get?]⟩)
  | last quiet rest ih =>
    obtain ⟨event, following, rfl, isEvent, later⟩ := List.map_eq_cons_iff.mp shape
    rw [unobservedWrites_lost (ih later) (congrArg Exchange.tool isEvent)
      (congrArg Exchange.result isEvent)]
    have none : following.findIdx? (fun e => e.tool ∈ writeTools) = none := by
      rw [List.findIdx?_eq_none_iff]
      intro e member
      have unwritten : e.tool ∉ writeTools := quiet _ (later ▸ List.mem_map_of_mem member)
      simpa using unwritten
    rw [none]
  | looked rest ih =>
    obtain ⟨event, following, rfl, isEvent, shape'⟩ := List.map_eq_cons_iff.mp shape
    obtain ⟨look, following, rfl, isLook, later⟩ := List.map_eq_cons_iff.mp shape'
    have noWrite : look.tool = "get_payment" := congrArg Exchange.tool isLook
    have quiet : BusinessLab.unobservedWrites (look :: following) = .ok [] :=
      unobservedWrites_cons (ih later) (.inl (by simp [noWrite]))
    rw [unobservedWrites_lost quiet (congrArg Exchange.tool isEvent)
      (congrArg Exchange.result isEvent)]
    -- The next write comes after the look.
    have next : (look :: following).findIdx? (fun e => e.tool ∈ writeTools) =
        (following.findIdx? fun e => e.tool ∈ writeTools).map (· + 1) := by
      rw [List.findIdx?_cons, decide_eq_false (by simp [noWrite, writeTools])]
      rfl
    rw [next]
    cases following.findIdx? fun e => e.tool ∈ writeTools with
    | none => rfl
    | some n =>
      have same : look.tool = "get_payment" ∧ pyEq look.orderId event.orderId := by
        have args : look.args = _ := congrArg Exchange.args isLook
        have args' : event.args = _ := congrArg Exchange.args isEvent
        refine ⟨noWrite, ?_⟩
        rw [Event.orderId, Event.orderId, args, args']
        exact pyEq_iff_str.mpr rfl
      have good : look.isOk = .ok true := by
        rw [Event.isOk, field_of_obj (congrArg Exchange.result isLook)]
        exact congrArg Except.ok (pyEq_iff_str.mpr rfl)
      simp only [Option.map_some, List.take_succ_cons, List.anyM, if_pos same, good]
      rfl

/-- Refunds with one key have at most one key. -/
theorem exists_refundKeys (keyed : ∀ event ∈ events, event.exchange.key = .str key) :
    ∃ keys, refundKeys events = .ok keys ∧ (keys = [] ∨ keys = [.str key]) := by
  induction events with
  | nil => exact ⟨[], rfl, .inl rfl⟩
  | cons event rest ih =>
    obtain ⟨keys, ran, same⟩ := ih fun e member => keyed e (.tail _ member)
    have isKey : (Dict.get? event.args "idempotency_key").getD .null = .str key :=
      keyed event (.head _)
    refine ⟨adjoin keys (.str key), ?_, .inr ?_⟩
    · rw [refundKeys, isKey, ran]
      rfl
    · rcases same with rfl | rfl <;> simp [adjoin, memberOf, pyEq, scalarEq]

/-- What the recovery check asks of some exchanges: few refunds, all under one key, and
no lost one without a look at the payment. -/
structure Recovers (key : String) (xs : List Exchange) : Prop where
  few : (xs.filter fun x => x.tool = "refund_payment").length ≤ 2
  keyed : ∀ x ∈ xs, x.tool = "refund_payment" → x.key = .str key
  observed : Observed xs

/-- The recovery check passes exchanges that are in order. -/
theorem Recovers.checkRecovery {artifact : Artifact} {expected : Expected}
    (recovers : Recovers key xs)
    (shape : artifact.events.map Event.exchange = xs) (limit : expected.maxRefundAttempts = 2) :
    ∃ v, BusinessLab.checkRecovery artifact expected = .ok v ∧ v.status = .pass := by
  subst shape
  set attempts := artifact.events.filter fun e => e.tool = "refund_payment" with attempted
  have few : attempts.drop 2 = [] := by
    have := recovers.few
    rw [List.filter_map, List.length_map] at this
    exact List.drop_eq_nil_iff.mpr this
  have keyed : ∀ event ∈ attempts, event.exchange.key = .str key := by
    intro event member
    have isRefund : event.tool = "refund_payment" := by simpa using List.of_mem_filter member
    exact recovers.keyed _ (List.mem_map_of_mem (List.mem_of_mem_filter member)) isRefund
  obtain ⟨keys, ran, same⟩ := exists_refundKeys keyed
  have single : ¬ 1 < keys.length := by rcases same with rfl | rfl <;> simp
  refine ⟨verdict "recovery" true "재시도 한도·멱등 키·결과 확인 준수" [] [], ?_, rfl⟩
  rw [BusinessLab.checkRecovery]
  simp only [← attempted, ran, ok_bind, recovers.observed.unobservedWrites rfl, limit, few,
    if_neg single]
  rfl

/-- What is no refund needs no look at the payment. -/
theorem observed_of_none (none : ∀ x ∈ xs, x.tool ≠ "refund_payment") : Observed xs := by
  induction xs with
  | nil => exact .nil
  | cons x rest ih => exact .other (none x (.head _)) (ih fun y member => none y (.tail _ member))

theorem Recovers.cons {x : Exchange} (tool : x.tool ≠ "refund_payment") (rest : Recovers key xs) :
    Recovers key (x :: xs) where
  few := by simpa [tool] using rest.few
  keyed := by simpa [tool] using rest.keyed
  observed := .other tool rest.observed

theorem recovers_of_none (none : ∀ x ∈ xs, x.tool ≠ "refund_payment") : Recovers key xs where
  few := by
    have : xs.filter (fun x => x.tool = "refund_payment") = [] := by simpa using none
    simp [this]
  keyed x member tool := absurd tool (none x member)
  observed := observed_of_none none

section Courses

variable {fault : Fault} {release : String} {released : Table ReleaseRow.orderId}
  {order order' : OrderRow} {payment payment' : PaymentRow} {confirmed : Bool}
  {kind : ResponseKind} {cents : Option Int}

/-- The attempts of a refund are in order, if what follows them is no other refund, and
no write at all unless the refund is confirmed. -/
theorem RefundCourse.recovers
    (course : RefundCourse fault release oid key payment ys confirmed payment')
    (noRefund : ∀ z ∈ zs, z.tool ≠ "refund_payment")
    (quiet : confirmed = false → ∀ z ∈ zs, z.tool ∉ writeTools) : Recovers key (ys ++ zs) := by
  have rest : Observed zs := observed_of_none noRefund
  have none : zs.filter (fun x => x.tool = "refund_payment") = [] := by simpa using noRefund
  have others : ∀ z ∈ zs, z.tool = "refund_payment" → z.key = .str key :=
    fun z member tool => absurd tool (noRefund z member)
  have looks : ∀ p : PaymentRow, (paymentShown oid p).tool ≠ "refund_payment" := by
    simp [paymentShown]
  have keyed : ∀ (amount : Int) (result : Json), (refundTried oid key amount result).key =
      .str key :=
    fun _ _ => rfl
  cases course with
  | nothing => exact recovers_of_none noRefund
  | made => exact ⟨by simp [none, refundTried], by simpa [keyed] using others, .made rest⟩
  | unavailable | lost | unseen =>
    exact ⟨by simp [none, refundTried], by simpa [keyed] using others, .last (quiet rfl) rest⟩
  -- Two attempts with a look at the payment between them.
  | givenUp =>
    exact ⟨by simp [none, refundTried, paymentShown], by simpa [keyed, looks] using others,
      .looked (.looked rest)⟩
  | retried =>
    exact ⟨by simp [none, refundTried, paymentShown], by simpa [keyed, looks] using others,
      .looked (.made rest)⟩
  | discovered =>
    exact ⟨by simp [none, refundTried, paymentShown], by simpa [keyed, looks] using others,
      .looked rest⟩

theorem Settlement.recovers
    (course : Settlement fault release oid key released order payment ys kind cents order'
      payment') :
    Recovers key ys := by
  have looked : (paymentShown oid payment).tool ≠ "refund_payment" := by simp [paymentShown]
  cases course with
  | handedOver reason refund =>
    exact .cons looked (refund.recovers (by simp [ticketOpened])
      (by simp [ticketOpened, writeTools]))
  | keyTaken reason refund taken =>
    exact .cons looked (refund.recovers (by simp [releaseTried, ticketOpened]) (by simp))
  | completed answered refund free =>
    exact .cons looked (refund.recovers (by simp [releaseTried, completionTried, orderShown])
      (by simp))

/-- **The recovery check notes nothing in a course.** -/
theorem Course.recovers
    (course : Course fault release oid key released order payment ys kind cents order' payment') :
    Recovers key ys := by
  cases course with
  | cancelled => exact recovers_of_none (by simp [orderShown, paymentShown])
  | refused => exact recovers_of_none (by simp [orderShown, policyShown])
  | shipped => exact recovers_of_none (by simp [orderShown, policyShown, beginTried])
  | begun cancellable quiet rest =>
    exact .cons (by simp [orderShown]) (.cons (by simp [policyShown])
      (.cons (by simp [beginTried]) rest.recovers))

end Courses

end Recover

end AgentLabs.BusinessLab
