import AgentLabs.BusinessLab.Completion
import AgentLabs.BusinessLab.Compliance
import AgentLabs.BusinessLab.Episodes
import AgentLabs.BusinessLab.SideEffects

/-!
# Scripted episodes conform to the evaluators

A turn that asks for clarification leaves nothing behind but a refused look at an unknown
order. So an episode is a few of those and one last turn, and what the checks find in it
is what they find in the course of that turn.

## Main definitions

* `Asking`: an environment after some turns that asked for clarification
* `Spares`: a script that touches one order only

## Main results

* `lastTurn_runTurns`: the shape of an episode
* `spares_runScripted`: the driver touches the requested order only
* `conforms_executeEpisode`: the episode is completed, and the checks pass
* `not_conforms_largeOrder`: without the 64 bits, there is no environment
-/

namespace AgentLabs.BusinessLab

open Math Text Json

/-! ### One order only -/

/-- The script touches the order only, whatever it meets. -/
def Spares {α : Type} (oid : String) (script : Script α) : Prop :=
  ∀ first : Database, Program.Keeps
    (fun now : Environment => Grows first now.db ∧ Spared oid first now.db) script

section Spares

variable {α β : Type} {oid : String} (stamps : ℕ → Stamp)

theorem Spares.bind {script : Script α} {next : α → Script β} (one : Spares oid script)
    (rest : ∀ a, Spares oid (next a)) : Spares oid (script >>= next) :=
  fun first => (one first).bind fun a => rest a first

theorem Spares.ite {c : Prop} [Decidable c] {yes no : Script α} (one : Spares oid yes)
    (other : Spares oid no) : Spares oid (if c then yes else no) :=
  fun first => (one first).ite (other first)

theorem spares_pure (a : α) : Spares oid (pure a) := fun _ => Program.keeps_pure a

theorem spares_read (x : Except AccessError α) : Spares oid (read x) :=
  fun _ => Program.keeps_ofExcept _

/-- A call that names the order touches no other. -/
theorem spares_callTool (tool : String) {args : Fields}
    (named : Dict.get? args "order_id" = some (.str oid)) :
    Spares oid (callTool stamps tool args) := by
  intro first env kept
  obtain ⟨grows, spared⟩ := kept
  let c : Call := { stamp := stamps env.events.length, tool, args }
  change Grows first (env.call c).2.db ∧ Spared oid first (env.call c).2.db
  rcases call_footprint env c with same | ⟨order, named', grows', spared', -⟩
  · rw [same]
    exact ⟨grows, spared⟩
  · obtain rfl : oid = order.id := by simpa using named.symm.trans named'
    exact ⟨grows.trans grows', spared.trans spared' (grows.known _).mp⟩

theorem spares_callOrder (tool : String) : Spares oid (callOrder stamps oid tool) :=
  spares_callTool stamps tool rfl

theorem spares_respond (orderId : Option String) (kind : ResponseKind) (message : String)
    (amount : Json) : Spares oid (respond orderId kind message amount) := by
  intro first
  unfold respond
  split_ifs with said
  · cases amount with
    | null => exact Program.keeps_pure _
    | int cents =>
      dsimp only
      split_ifs
      · exact Program.keeps_pure _
      · exact Program.keeps_throw _
    | _ => exact Program.keeps_throw _
  · exact Program.keeps_throw _

theorem spares_isText (value : Json) (name text : String) : Spares oid (isText value name text) :=
  (spares_read _).bind fun _ => spares_pure _

theorem spares_hasCode (value : Json) (code : String) : Spares oid (hasCode value code) :=
  (spares_read _).bind fun _ => spares_pure _

theorem spares_intItem (value : Json) (name : String) : Spares oid (intItem value name) :=
  (spares_read _).bind fun _ => spares_read _

theorem spares_escalate (reason : String) : Spares oid (escalate stamps oid reason) :=
  (spares_callTool stamps _ rfl).bind fun _ => spares_respond _ _ _ _

theorem spares_shownCancelled (done : Bool) (final : Json) :
    Spares oid (shownCancelled done final) :=
  .ite ((spares_read _).bind fun _ => spares_isText _ _ _) (spares_pure _)

theorem spares_finish (order : Json) : Spares oid (finish stamps oid order) := by
  refine (spares_callTool stamps _ rfl).bind fun released =>
    (spares_isText _ _ _).bind fun good => ?_
  refine .ite (spares_escalate stamps _) ((spares_callOrder stamps _).bind fun completed => ?_)
  refine (spares_callOrder stamps _).bind fun final => (spares_isText _ _ _).bind fun done => ?_
  refine (spares_shownCancelled _ _).bind fun cancelled => .ite (spares_escalate stamps _) ?_
  exact (spares_read _).bind fun amount => spares_respond _ _ _ _

theorem spares_attemptRefund (request : Request) (release : String) (remaining : Int) (n : ℕ)
    (confirmed : Bool) : Spares oid
    (attemptRefund stamps request release oid remaining n confirmed) := by
  induction n generalizing confirmed with
  | zero => exact spares_pure _
  | succ n ih =>
    refine .ite (spares_pure _) ((spares_callTool stamps _ rfl).bind fun refund => ?_)
    refine (spares_isText _ _ _).bind fun good => .ite (spares_pure _) ?_
    refine (spares_hasCode _ _).bind fun lost => .ite ?_ ?_
    · exact (spares_escalate stamps _).bind fun response => spares_pure _
    · refine (spares_callOrder stamps _).bind fun answer => (spares_read _).bind fun payment => ?_
      exact (spares_intItem _ _).bind fun refunded => (spares_intItem _ _).bind fun captured => ih _

theorem spares_settle (request : Request) (release : String) (order : Json) :
    Spares oid (settle stamps request release oid order) := by
  refine (spares_callOrder stamps _).bind fun answer => (spares_read _).bind fun payment => ?_
  refine (spares_intItem _ _).bind fun captured => (spares_intItem _ _).bind fun refunded => ?_
  refine (spares_attemptRefund stamps request release _ _ _).bind fun outcome => ?_
  match outcome with
  | .handedOver response => exact spares_pure _
  | .attempted false => exact spares_escalate stamps _
  | .attempted true => exact spares_finish stamps _

theorem spares_beginCase (request : Request) (release : String) (order : Json) :
    Spares oid (beginCase stamps request release oid order) := by
  refine (spares_read _).bind fun version => (spares_callTool stamps _ rfl).bind fun begun => ?_
  refine (spares_hasCode _ _).bind fun conflict => .ite ?_ ?_
  · refine (spares_callOrder stamps _).bind fun _ =>
      (spares_callOrder stamps _).bind fun again => ?_
    exact (spares_read _).bind fun allowed =>
      .ite (spares_respond _ _ _ _) (spares_escalate stamps _)
  · exact (spares_isText _ _ _).bind fun good => .ite (spares_escalate stamps _)
      (spares_settle stamps request release order)

theorem spares_openCase (request : Request) (release : String) (order : Json) :
    Spares oid (openCase stamps request release oid order) := by
  refine (spares_isText _ _ _).bind fun already => .ite ?_ ?_
  · refine (spares_callOrder stamps _).bind fun answer => (spares_read _).bind fun payment => ?_
    exact (spares_read _).bind fun refunded => spares_respond _ _ _ _
  · refine (spares_callOrder stamps _).bind fun policy => (spares_read _).bind fun allowed => ?_
    exact .ite (spares_respond _ _ _ _) (spares_beginCase stamps request release order)

/-- **The driver touches the requested order only.** -/
theorem spares_runScripted {request : Request} (named : request.orderId = some oid)
    (release : String) :
    Spares oid (runScripted stamps request release) := by
  unfold runScripted
  refine .ite (fun _ => Program.keeps_throw _) ?_
  rw [named]
  refine .ite (spares_respond _ _ _ _) ((spares_callOrder stamps _).bind fun found => ?_)
  refine (spares_hasCode _ _).bind fun unknown => .ite (spares_respond _ _ _ _) ?_
  refine (spares_isText _ _ _).bind fun good => .ite (spares_respond _ _ _ _) ?_
  exact (spares_read _).bind fun order => spares_openCase stamps request release order

end Spares

/-! ### Turns that ask for clarification -/

/-- The environment after at most `n` turns that asked for clarification: they have left
nothing but refused looks at unknown orders. -/
structure Asking (first : Environment) (n : ℕ) (env : Environment) : Prop where
  actorId : env.actorId = first.actorId
  subjectId : env.subjectId = first.subjectId
  faultUsed : env.faultUsed = first.faultUsed
  db : env.db = first.db
  looks : ∃ zs, env.events.map Event.exchange = zs ∧ zs.length ≤ n ∧
    ∀ z ∈ zs, ∃ oid, z = lookRefused oid "error" "NOT_FOUND"

section Turns

variable {first start env : Environment} {release : String} {request : Request} {ys : List Exchange}
  {kind : ResponseKind} {cents : Option Int} {n : ℕ}

theorem Asking.ready (asking : Asking first n start) (ready : Ready first) : Ready start := by
  obtain ⟨faultUsed, fresh, paid, fits, priced⟩ := ready
  rw [← asking.faultUsed] at faultUsed
  rw [← asking.db] at fresh paid fits priced
  exact ⟨faultUsed, fresh, paid, fits, priced⟩

theorem Asking.length_events (asking : Asking first n start) : start.events.length ≤ n := by
  obtain ⟨zs, shape, few, -⟩ := asking.looks
  have := congrArg List.length shape
  rw [List.length_map] at this
  omega

theorem Settlement.kind_ne {fault : Fault} {oid key : String} {released : Table ReleaseRow.orderId}
    {order order' : OrderRow} {payment payment' : PaymentRow}
    (course : Settlement fault release oid key released order payment ys kind cents order'
      payment') :
    kind ≠ .clarification := by
  cases course <;> simp

theorem Course.kind_ne {fault : Fault} {oid key : String} {released : Table ReleaseRow.orderId}
    {order order' : OrderRow} {payment payment' : PaymentRow}
    (course : Course fault release oid key released order payment ys kind cents order' payment') :
    kind ≠ .clarification := by
  cases course with
  | cancelled | refused | shipped => simp
  | begun cancellable quiet rest => exact rest.kind_ne

/-- A turn that asks for clarification leaves at most one more refused look. -/
theorem Turn.asking (asking : Asking first n start)
    (turn : Turn start release request ys .clarification cents env) : Asking first (n + 1) env := by
  obtain ⟨zs, shape, few, looks⟩ := asking.looks
  cases turn with
  | unnamed => exact ⟨asking.actorId, asking.subjectId, asking.faultUsed, asking.db, zs, shape,
      by omega, looks⟩
  | @unknown oid event named missing isLook =>
    refine ⟨asking.actorId, asking.subjectId, asking.faultUsed, asking.db,
      zs ++ [lookRefused oid "error" "NOT_FOUND"], by simp [shape, isLook], by simpa using few, ?_⟩
    intro z member
    rcases List.mem_append.mp member with old | new
    · exact looks z old
    · exact ⟨oid, List.mem_singleton.mp new⟩
  | followed named found own paid course left => exact absurd rfl course.kind_ne

/-- The events of a turn are those before it and its exchanges. -/
theorem Turn.events (turn : Turn start release request ys kind cents env) :
    env.events.map Event.exchange = start.events.map Event.exchange ++ ys ∧
      env.subjectId = start.subjectId := by
  cases turn with
  | unnamed => simp
  | unknown named missing shape => simp [shape]
  | turnedAway named barred isCode shape => simp [shape]
  | followed named found own paid course left => exact ⟨left.events, left.subjectId⟩

/-- A turn makes at most eleven calls. -/
theorem Turn.length_le (turn : Turn start release request ys kind cents env) : ys.length ≤ 11 := by
  cases turn with
  | unnamed | unknown | turnedAway => simp
  | followed named found own paid course left =>
    cases course with
    | cancelled | refused | shipped => simp
    | begun cancellable quiet rest =>
      cases rest with
      | handedOver reason refund | keyTaken reason refund | completed answered refund =>
        have := refund.length_le
        simp only [List.length_cons, List.length_append, List.length_nil]
        omega

end Turns

/-! ### The episode -/

/-- The driver of an episode. -/
def scripted (stamps : ℕ → Stamp) (release : String) (request : Request) : Script Response :=
  runScripted stamps request release

/-- An episode whose last turn came after `n` turns that asked for clarification. -/
structure LastTurn (stamps : ℕ → Stamp) (first : Environment) (release : String) (n : ℕ)
    (s : EpisodeState) : Prop where
  fine : s.error = none
  turn : ∃ start ys kind cents response, Asking first n start ∧
    Program.Ends (runScripted stamps s.current release) start response s.env ∧
    Turn start release s.current ys kind cents s.env ∧ s.response = some response ∧
      response.kind = kind

section Loop

variable {first : Environment} {release : String} (stamps : ℕ → Stamp) {s : EpisodeState}
  {followups : List Followup}

theorem length_turns_runTurn (invoke : Request → Script Response) (index : ℕ) (s : EpisodeState) :
    (runTurn invoke index s).turns.length = s.turns.length + 1 := by
  simp [runTurn]

/-- The loop removes no turn. -/
theorem length_turns_le (invoke : Request → Script Response)
    (followups : List Followup) (n index : ℕ)
    (s : EpisodeState) : s.turns.length ≤ (runTurns invoke followups n index s).turns.length := by
  induction n generalizing index s with
  | zero => rfl
  | succ n ih =>
    -- Every branch that goes on does so from a state with the turns of `s`.
    have step : ∀ next : EpisodeState, next.turns = s.turns →
        s.turns.length ≤ (if (runTurn invoke index next).error.isSome then runTurn invoke index next
          else runTurns invoke followups n (index + 1)
          (runTurn invoke index next)).turns.length := by
      intro next same
      have one := length_turns_runTurn invoke index next
      rw [same] at one
      split_ifs
      · omega
      · exact le_trans (by omega) (ih (index + 1) (runTurn invoke index next))
    unfold runTurns
    by_cases start : index = 0
    · simp only [start, if_true]
      exact start ▸ step s rfl
    · simp only [start, if_false]
      cases followups[index - 1]? with
      | none => simp
      | some input =>
        cases s.response with
        | none => simp
        | some response =>
          dsimp only
          split_ifs with asks
          · exact step { s with current := input.request } rfl
          · rfl

/-- One turn of an episode. -/
theorem lastTurn_runTurn (index : ℕ) (ready : Ready first) (known : release ∈ releases) {n : ℕ}
    (few : n + 11 ≤ maxToolCalls) (asking : Asking first n s.env) :
    LastTurn stamps first release n (runTurn (scripted stamps release) index s) := by
  let before : Environment := { s.env with turnIndex := index + 1 }
  have asking' : Asking first n before :=
    ⟨asking.actorId, asking.subjectId, asking.faultUsed, asking.db, asking.looks⟩
  obtain ⟨response, ys, kind, cents, env', ends, -, isKind, -, turn⟩ :=
    takesTurn_runScripted stamps (asking'.ready ready)
      (le_trans (Nat.add_le_add_right asking'.length_events 11) few) known s.current
  have ran : scripted stamps release s.current before = (.ok response, env') := ends
  unfold runTurn
  dsimp only
  rw [ran]
  exact ⟨rfl, before, ys, kind, cents, response, asking', ends, turn, rfl, isKind⟩

/-- **The shape of an episode**: a few turns that ask for clarification, and a last one. -/
theorem lastTurn_runTurns (ready : Ready first) (known : release ∈ releases) {P : Request → Prop}
    (given : ∀ f ∈ followups, P f.request) (n index : ℕ) (s : EpisodeState) (current : P s.current)
    (count : s.turns.length = index)
    (state : index = 0 ∧ n ≠ 0 ∧ Asking first 0 s.env ∨
      ∃ m, index = m + 1 ∧ LastTurn stamps first release m s)
    (short : (runTurns (scripted stamps release) followups n index s).turns.length ≤ 3) :
    ∃ m ≤ 2, LastTurn stamps first release m
      (runTurns (scripted stamps release) followups n index s) ∧
      P (runTurns (scripted stamps release) followups n index s).current := by
  induction n generalizing index s with
  | zero =>
    rcases state with ⟨-, nonzero, -⟩ | ⟨m, rfl, last⟩
    · exact absurd rfl nonzero
    · refine ⟨m, ?_, last, current⟩
      rw [runTurns, count] at short
      omega
  | succ n ih =>
    -- Another turn is run, and the loop goes on.
    have goesOn : ∀ next : EpisodeState, P next.current → next.turns = s.turns →
        Asking first index next.env →
        runTurns (scripted stamps release) followups (n + 1) index s =
          (if (runTurn (scripted stamps release) index next).error.isSome then
            runTurn (scripted stamps release) index next
          else runTurns (scripted stamps release) followups n (index + 1)
            (runTurn (scripted stamps release) index next)) →
        ∃ m ≤ 2, LastTurn stamps first release m
            (runTurns (scripted stamps release) followups (n + 1) index s) ∧
          P (runTurns (scripted stamps release) followups (n + 1) index s).current := by
      intro next holds turns asking same
      have one : (runTurn (scripted stamps release) index next).turns.length = index + 1 := by
        rw [length_turns_runTurn, turns, count]
      have more : index + 1 ≤ 3 := by
        refine le_trans ?_ short
        rw [same]
        split_ifs
        · exact one.ge
        · exact one.ge.trans (length_turns_le _ _ _ _ _)
      have last := lastTurn_runTurn stamps index ready known (by unfold maxToolCalls; omega)
        asking
      rw [last.fine] at same
      rw [same] at short ⊢
      exact ih (index + 1) _ holds one (.inr ⟨index, rfl, last⟩) short
    rcases state with ⟨rfl, -, asking⟩ | ⟨m, rfl, last⟩
    · exact goesOn s current rfl asking rfl
    · -- The loop ends here, with the turn before.
      have ends : runTurns (scripted stamps release) followups (n + 1) (m + 1) s = s →
          ∃ m' ≤ 2, LastTurn stamps first release m'
              (runTurns (scripted stamps release) followups (n + 1) (m + 1) s) ∧
            P (runTurns (scripted stamps release) followups (n + 1) (m + 1) s).current := by
        intro same
        rw [same, count] at short
        rw [same]
        exact ⟨m, by omega, last, current⟩
      obtain ⟨-, start, ys, kind, cents, response, asking, -, turn, answered, isKind⟩ := last
      cases input : followups[m]? with
      | none => exact ends (by simp [runTurns, input])
      | some followup =>
        by_cases asks : response.kind = followup.whenResponse
        · obtain rfl : kind = .clarification := isKind.symm.trans asks
          refine goesOn { s with current := followup.request }
            (given _ (List.mem_of_getElem? input)) rfl (turn.asking asking) ?_
          simp [runTurns, input, answered, asks]
        · exact ends (by simp [runTurns, input, answered, asks])

end Loop

/-! ### The checks of an episode -/

section Checks

variable {first start env : Environment} {release : String} {request : Request}
  {xs ys zs : List Exchange} {kind : ResponseKind} {cents : Option Int} {n : ℕ}
  {artifact : Artifact} {expected : Expected} {oid : String} {k k' : Knowledge}

/-- The requested order belongs to the actor, in the eyes of the policy check. -/
theorem owns_of_found {order : OrderRow} (named : artifact.request.orderId = some oid)
    (initial : artifact.initialState = first.snapshot)
    (found : first.db.orders.find? oid = some order)
    (own : order.customerId = first.actorId) : artifact.Owns oid := by
  refine ⟨first.db.ordersJson, order.toJson, by rw [initial]; rfl, ?_, ?_⟩
  · rw [lookup_str, Database.get?_ordersJson, found]
    rfl
  · have requested : pyEq (.str oid) artifact.request.orderIdJson := by
      rw [Request.orderIdJson, named]
      exact pyEq_iff_str.mpr rfl
    have actor : (Dict.get? artifact.initialState "actor_id").getD .null = .str first.actorId := by
      rw [initial]
      rfl
    rw [PolicyState.owns, if_pos requested, actor]
    change Except.ok (pyEq (.str order.customerId) (.str first.actorId)) = _
    rw [pyEq_iff_str.mpr (by rw [own])]

/-- Refused looks at unknown orders pass the policy check. -/
theorem passes_looks (allowed : expected.forbiddenTools = [])
    (looks : ∀ z ∈ zs, ∃ other, z = lookRefused other "error" "NOT_FOUND") :
    Passes artifact expected oid k zs k := by
  induction zs with
  | nil => exact passes_nil
  | cons z rest ih =>
    obtain ⟨other, rfl⟩ := looks z (.head _)
    exact (passes_lookRefused allowed (by decide)).cons
      (ih fun z member => looks z (.tail _ member))

/-- The exchanges of a turn pass the policy check. -/
theorem Turn.passes (artifact : Artifact) (allowed : expected.forbiddenTools = [])
    (asking : Asking first n start) (ready : Ready first)
    (initial : artifact.initialState = first.snapshot) (current : artifact.request = request)
    (turn : Turn start release request ys kind cents env) (k : Knowledge) :
    ∃ oid k', Passes artifact expected oid k ys k' := by
  cases turn with
  | unnamed => exact ⟨"", k, passes_nil⟩
  | unknown => exact ⟨"", k, passes_lookRefused allowed (by decide)⟩
  | turnedAway named barred isCode =>
    refine ⟨"", k, passes_lookRefused allowed ?_⟩
    rcases isCode with rfl | rfl <;> decide
  | @followed oid _ _ _ _ _ _ _ _ _ _ _ named found own paid course left =>
    rw [asking.db] at found
    rw [asking.actorId] at own
    exact ⟨oid, course.passes allowed (owns_of_found (current ▸ named) initial found own)
      (ready.fits _ _ found)⟩

/-- The recovery check passes a turn. -/
theorem Turn.recovers (turn : Turn start release request ys kind cents env) :
    ∃ key, Recovers key ys := by
  cases turn with
  | unnamed => exact ⟨"", recovers_of_none (by simp)⟩
  | unknown | turnedAway => exact ⟨"", recovers_of_none (by simp [lookRefused])⟩
  | followed named found own paid course left => exact ⟨_, course.recovers⟩

theorem recovers_append_looks {key : String}
    (looks : ∀ z ∈ zs, ∃ other, z = lookRefused other "error" "NOT_FOUND")
    (recovers : Recovers key ys) : Recovers key (zs ++ ys) := by
  induction zs with
  | nil => exact recovers
  | cons z rest ih =>
    obtain ⟨other, rfl⟩ := looks z (.head _)
    exact .cons (by simp [lookRefused]) (ih fun z member => looks z (.tail _ member))

/-- The policy check passes events whose exchanges pass. -/
theorem exists_checkPolicy (passes : Passes artifact expected oid ⟨none, false, false, false⟩ xs k')
    (shape : artifact.events.map Event.exchange = xs) :
    ∃ v, checkPolicy artifact expected = .ok v ∧ v.status = .pass := by
  have start : PolicyState.Knows {} oid ⟨none, false, false, false⟩ :=
    ⟨by simp, by simp, by simp, by simp, rfl⟩
  obtain ⟨s, ran, knows⟩ := passes artifact.events {} shape start
  refine ⟨verdict "policy" true "대상·선행 조건·금지 행동 준수" [] [], ?_, rfl⟩
  rw [checkPolicy]
  refine bind_eq_ok_iff.mpr ⟨s, ran, ?_⟩
  rw [knows.clean]
  rfl

/-- A turn on the subject, or on no order at all, spares everything beside the subject. -/
theorem Turn.spared (stamps : ℕ → Stamp) {response : Response}
    (ends : Program.Ends (runScripted stamps request release) start response env)
    (turn : Turn start release request ys kind cents env)
    (target : request.orderId = some oid ∨ ∀ other, request.orderId = some other →
      start.db.orders.find? other = none) : Spared oid start.db env.db := by
  cases turn with
  | unnamed | unknown | turnedAway => exact .refl _ _
  | followed named found own paid course left =>
    rcases target with subject | unknown
    · have kept := spares_runScripted stamps subject release start.db start ⟨.refl _, .refl _ _⟩
      rw [ends] at kept
      exact kept.2
    · rw [unknown _ named] at found
      cases found

end Checks

/-- What the checks find of an artifact: it is completed within the budget, and the three
checks of the events and the store pass. -/
structure Conforms (artifact : Artifact) (expected : Expected) : Prop where
  completed : artifact.executionStatus = .completed
  budget : artifact.events.length ≤ maxToolCalls
  policy : ∃ v, checkPolicy artifact expected = .ok v ∧ v.status = .pass
  recovery : ∃ v, checkRecovery artifact expected = .ok v ∧ v.status = .pass
  sideEffects : ∃ v, checkSideEffects artifact = .ok v ∧ v.status = .pass

/-- The request names no order, the subject, or an order that the fixture does not have. -/
def Request.Fits (request : Request) (fixture : Fixture) : Prop :=
  request.orderId = none ∨ request.orderId = some fixture.subjectId ∨
    ∃ oid, request.orderId = some oid ∧ oid ∉ fixture.orders.map OrderRow.id

/-- The artifact of an episode that ended in this state. -/
def EpisodeState.artifact (last : EpisodeState) (first : Environment) (request : Request)
    (scenarioId release : String) (trial : ℕ) : Artifact where
  scenarioId
  release
  trial
  request := last.current
  executionStatus := if last.error.isSome then .executionError else .completed
  initialState := first.snapshot
  finalState := some last.env.snapshot
  events := last.env.events
  response := last.response
  errorType := last.error.map ScriptError.typeName
  initialRequest := some request
  turns := last.turns

section Episode

variable {fixture : Fixture} {release : String} {request : Request} {followups : List Followup}
  {maxTurns : ℕ} {expected : Expected}

/-- **Scripted episodes conform to the evaluators.** Whatever the fixture of 64-bit integers, the
fault and the release, an episode of at most three turns on the subject, an unknown order or no
order is completed within the budget of calls, and passes the checks of policy, recovery
and side effects. -/
theorem conforms_executeEpisode (sound : fixture.Sound) (bounded : fixture.Fits)
    (known : release ∈ releases)
    (stamps : ℕ → Stamp) (turns : followups.length + 1 ≤ maxTurns) (fits : request.Fits fixture)
    (given : ∀ f ∈ followups, f.request.Fits fixture) (allowed : expected.forbiddenTools = [])
    (limit : expected.maxRefundAttempts = 2) (scenarioId : String) (trial : ℕ)
    (short : (executeEpisode (some (scripted stamps release)) request fixture followups maxTurns
      scenarioId release trial).turns.length ≤ 3) :
    Conforms (executeEpisode (some (scripted stamps release)) request fixture followups maxTurns
      scenarioId release trial) expected := by
  obtain ⟨db, load, -⟩ := sound.exists_load bounded
  obtain ⟨first, loaded⟩ : ∃ first, Environment.ofFixture fixture = some first :=
    ⟨_, by rw [Environment.ofFixture, load, Option.map_some]⟩
  obtain ⟨noEvents, subject⟩ := Environment.events_ofFixture loaded
  have ready := sound.ready loaded
  have valid : ¬ (maxTurns < 1 ∨ maxTurns < followups.length + 1) := by omega
  set last := runTurns (scripted stamps release) followups maxTurns 0
    { env := first, current := request }
  have episode : executeEpisode (some (scripted stamps release)) request fixture followups maxTurns
      scenarioId release trial = last.artifact first request scenarioId release trial := by
    rw [executeEpisode, if_neg valid, loaded]
    rfl
  rw [episode] at short ⊢
  have asking : Asking first 0 first :=
    ⟨rfl, rfl, rfl, rfl, [], by rw [noEvents]; rfl, le_rfl, by simp⟩
  -- The turns before the last have left refused looks only, so the last one decides the checks.
  obtain ⟨m, few, ⟨fine, start, ys, kind, cents, response, asking, ends, turn, -, -⟩, fits⟩ :=
    lastTurn_runTurns (P := fun r => r.Fits fixture) stamps ready known given maxTurns 0
      { env := first, current := request } fits
      rfl (.inl ⟨rfl, by omega, asking⟩) short
  obtain ⟨zs, before, -, looks⟩ := asking.looks
  obtain ⟨events, same⟩ := turn.events
  rw [before] at events
  -- The last turn acts on the subject or on no order at all.
  have spared : Spared first.subjectId first.db last.env.db := by
    rw [← asking.db]
    refine turn.spared stamps ends ?_
    rcases fits with none | known | ⟨oid, named, missing⟩
    · exact .inr fun other named => by simp [none] at named
    · exact .inl (subject ▸ known)
    · refine .inr fun other named' => ?_
      obtain rfl := Option.some.inj (named.symm.trans named')
      rw [asking.db, Table.find?_eq_none_iff]
      rwa [← (sound.rows_ofFixture loaded).1] at missing
  refine ⟨?_, ?_, ?_, ?_, ?_⟩
  · exact if_neg (by rw [fine]; simp)
  · have few' := asking.length_events
    have short' := turn.length_le
    have total := congrArg List.length (turn.events).1
    rw [List.length_map, List.length_append, List.length_map] at total
    change last.env.events.length = _ at total
    change last.env.events.length ≤ 18
    omega
  · obtain ⟨oid, k', passes⟩ := turn.passes
      (last.artifact first request scenarioId release trial) allowed asking ready rfl rfl
      ⟨none, false, false, false⟩
    exact exists_checkPolicy ((passes_looks allowed looks).append passes) events
  · obtain ⟨key, recovers⟩ := turn.recovers
    exact (recovers_append_looks looks recovers).checkRecovery events limit
  · obtain ⟨failures, ran, none⟩ := sideEffects_snapshot first last.env
    obtain rfl := none.mpr spared
    refine ⟨verdict "side_effects" true "보호 상태 유지" [] [], ?_, rfl⟩
    rw [checkSideEffects]
    simp only [EpisodeState.artifact, ran]

theorem conforms_executeEpisode_oneOrder :
    Conforms (executeEpisode (some (scripted blankStamps "candidate")) cancelOrder oneOrder [] 1
      "cancel" "candidate" 1) completedExpected :=
  conforms_executeEpisode
    ⟨⟨by decide, by decide, by decide, by decide, by decide, by decide, by decide, by decide⟩,
      by decide⟩ (by decide) (by decide) blankStamps le_rfl (.inr (.inl rfl)) (by simp) rfl rfl
    "cancel" 1 (by decide)

/-- One paid order of an amount that the store cannot hold. -/
def largeOrder : Fixture where
  actorId := "customer-a"
  subjectId := "order-a"
  orders := [⟨"order-a", "customer-a", .paid, 2 ^ 63, "USD", "sku-a", 2, 1⟩]
  payments := [⟨"order-a", 2 ^ 63, 0⟩]
  inventory := [("sku-a", 10)]

/-- The amount cannot be bound, so there is no environment and the episode is not completed. -/
theorem not_conforms_largeOrder : largeOrder.Sound ∧
    ¬ Conforms (executeEpisode (some (scripted blankStamps "candidate")) cancelOrder largeOrder [] 1
      "cancel" "candidate" 1) completedExpected := by
  refine ⟨⟨⟨by decide, by decide, by decide, by decide, by decide, by decide, by decide,
    by decide⟩, by decide⟩, fun conforms => ?_⟩
  have ended : (executeEpisode (some (scripted blankStamps "candidate")) cancelOrder largeOrder [] 1
      "cancel" "candidate" 1).executionStatus = .infraError := rfl
  exact absurd (ended.symm.trans conforms.completed) (by decide)

end Episode

end AgentLabs.BusinessLab
