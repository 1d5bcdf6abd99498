import AgentLabs.GuardLab.Approval
import AgentLabs.Math.Run
import Mathlib.Data.Set.Card

/-!
# What binds a send to an approval

Approvals and guarded sends come in any order, under any contexts and clock
readings. A send that is handed over has used a record, a used record stays used,
and a record is never issued twice; so the sends that are handed over have
approvals of their own, each for the same tool, arguments and requester and not
expired when it was checked.

The hash of the arguments is a parameter, taken to tell the calls of a run apart.
Arguments are compared as dictionaries, whatever the order of their entries.

## Main definitions

* `ApprovalOp`, `Gate.step`: approvals and guarded sends, and what they do
* `Run.Issues`, `Run.Passes`, `Run.Executes`: what happened at a position of a run
* `Authorises`: the record of an approval is good for a send

## Main results

* `Run.traced`: every stored record was issued before
* `Run.uses_injective`: a record is used once
* `Run.sends_matched`: the sends of a run have approvals of their own
-/

namespace AgentLabs.GuardLab

open Math Text

/-! ### Runs of approvals and sends -/

/-- A wrapper in one of the modes that check approvals. -/
abbrev BoundGuard := {guard : Guard // guard.mode ≠ .approveOnly}

/-- An `approve` call, with the id it draws and the instant it reads. -/
structure ApproveOp where
  tool : String
  args : Args
  requester : String
  approver : String
  id : String
  now : Int

/-- A `send_report` call through a wrapper, with the instant its check reads. -/
structure SendOp where
  guard : BoundGuard
  now : Int
  ctx : Option UserContext
  args : Args
  impl : Impl
  callId : String

/-- What may happen to a store of approvals. -/
inductive ApprovalOp where
  | approve (a : ApproveOp)
  | send (c : SendOp)

/-- The id an approval draws. -/
def ApprovalOp.drawnId : ApprovalOp → Option String
  | .approve a => some a.id
  | .send _ => none

/-- The tool and the arguments that are hashed. -/
def ApprovalOp.call : ApprovalOp → String × Args
  | .approve a => (a.tool, a.args)
  | .send c => ("send_report", c.args)

/-- The same arguments: every name has the same value. -/
def SameArgs (a b : Args) : Prop := ∀ name, a.get? name = b.get? name

section

variable (argsHash : String → Args → String) (lower : String → String)

/-- The answer of an `approve` call: the record, or the exception. -/
def ApproveOp.answer (g : Gate) (a : ApproveOp) : Except PyError ApprovalRecord :=
  (g.store.approve argsHash a.tool a.args a.requester a.approver a.id a.now).1

/-- The send is handed over. -/
def SendOp.HandedOver (g : Gate) (c : SendOp) : Prop :=
  c.guard.1.HandsOver argsHash lower c.now c.ctx c.args c.callId g

/-- One approval or one send. -/
def Gate.step (g : Gate) : ApprovalOp → Gate
  | .approve a =>
    { g with
      store := (g.store.approve argsHash a.tool a.args a.requester a.approver a.id a.now).2 }
  | .send c =>
    (c.guard.1.wrap argsHash lower c.now c.ctx "send_report" c.args c.impl c.callId g).2

/-- The hash tells the calls of a run apart. -/
def HashInjective (ops : List ApprovalOp) : Prop :=
  ∀ a ∈ ops.map ApprovalOp.call, ∀ b ∈ ops.map ApprovalOp.call,
    argsHash a.1 a.2 = argsHash b.1 b.2 → a.1 = b.1 ∧ SameArgs a.2 b.2

end

/-- The approval `a`, with its record `r`, is good for the send. -/
structure Authorises (a : ApproveOp) (r : ApprovalRecord) (c : SendOp) : Prop where
  tool_eq : a.tool = "send_report"
  sameArgs : SameArgs a.args c.args
  requester_eq : a.requester = requesterOf c.ctx
  unexpired : c.now ≤ r.expiresAt

/-! ### Positions of a run -/

/-- A run of a new store: the parameters, how long its approvals are good for, the
world at the start, and what happens. -/
structure Run where
  argsHash : String → Args → String
  lower : String → String
  ttl : Int
  world : World
  ops : List ApprovalOp

namespace Run

/-- The gate at the start: no record is stored. -/
def start (run : Run) : Gate := ⟨{ ttl := run.ttl }, run.world⟩

/-- The gate after the first `n` operations. -/
def gateAt (run : Run) (n : ℕ) : Gate :=
  stateAt (Gate.step run.argsHash run.lower) run.start run.ops n

/-- The records after the first `n` operations. -/
def recordsAt (run : Run) (n : ℕ) : Dict String ApprovalRecord := (run.gateAt n).store.records

/-- Operation `n` is an approval that issues the record. -/
def Issues (run : Run) (n : ℕ) (a : ApproveOp) (r : ApprovalRecord) : Prop :=
  run.ops[n]? = some (.approve a) ∧ a.answer run.argsHash (run.gateAt n) = .ok r

/-- Operation `n` is a send that is handed over. -/
def Passes (run : Run) (n : ℕ) (c : SendOp) : Prop :=
  run.ops[n]? = some (.send c) ∧ c.HandedOver run.argsHash run.lower (run.gateAt n)

/-- Operation `n` is a send that runs its implementation. -/
def Executes (run : Run) (n : ℕ) (c : SendOp) : Prop :=
  run.ops[n]? = some (.send c) ∧
    RunsImpl (c.guard.1.send run.argsHash run.lower c.now c.ctx c.args c.callId (run.gateAt n))

/-- No two records of the run have one id. -/
def DistinctIds (run : Run) : Prop :=
  ∀ {i j a b r s}, run.Issues i a r → run.Issues j b s → r.id = s.id → i = j

/-- Operation `n` uses the record stored under the id. -/
def Uses (run : Run) (n : ℕ) (id : String) : Prop :=
  ∃ r, r ∈ (run.recordsAt n).map Prod.snd ∧ r.id = id ∧ r.used = false ∧
    run.recordsAt (n + 1) = (run.recordsAt n).set r.id { r with used := true }

/-- The record under the id is a used one. -/
def Used (run : Run) (n : ℕ) (id : String) : Prop :=
  ∃ r, (run.recordsAt n).get? id = some r ∧ r.used = true

end Run

/-! ### One step -/

section

variable (argsHash : String → Args → String) (lower : String → String) (g : Gate)

/-- An approval stores the record it issues, or changes nothing. -/
theorem Gate.step_approve_cases (a : ApproveOp) :
    (∃ r, a.answer argsHash g = .ok r ∧ r.id = a.id ∧ r.tool = a.tool ∧
      r.argsHash = argsHash a.tool a.args ∧ r.requester = a.requester ∧ r.used = false ∧
      (g.step argsHash lower (.approve a)).store.records = g.store.records.set r.id r) ∨
    ((∃ e, a.answer argsHash g = .error e) ∧ g.step argsHash lower (.approve a) = g) := by
  cases version : versionOf a.args with
  | error e =>
    refine .inr ⟨⟨e, ?_⟩, ?_⟩
    · simp only [ApproveOp.answer, ApprovalStore.approve, version]
    · simp only [Gate.step, ApprovalStore.approve, version]
  | ok reportVersion =>
    refine .inl ⟨g.store.newRecord argsHash a.tool a.args a.requester a.approver a.id a.now
      reportVersion, ?_, rfl, rfl, rfl, rfl, rfl, ?_⟩
    · simp only [ApproveOp.answer, ApprovalStore.approve, version]
    · simp only [Gate.step, ApprovalStore.approve, version]
      rfl

/-- A send uses a record that is good for it, or is not handed over and uses none. -/
theorem Gate.step_send_cases (c : SendOp) :
    (∃ r, ApprovalStore.Usable argsHash g.store "send_report" c.args (requesterOf c.ctx) c.now r ∧
      (g.step argsHash lower (.send c)).store = g.store.use r) ∨
    (¬ c.HandedOver argsHash lower g ∧ (g.step argsHash lower (.send c)).store = g.store) := by
  rw [Gate.step, Guard.store_wrap c.guard.2]
  exact c.guard.1.authorise_cases argsHash lower c.now c.ctx c.args c.callId g

end

/-! ### What holds along a run -/

namespace Run

variable {run : Run}

/-- The gate one operation later. -/
theorem gateAt_succ {n : ℕ} {op : ApprovalOp} (h : run.ops[n]? = some op) :
    run.gateAt (n + 1) = (run.gateAt n).step run.argsHash run.lower op := stateAt_succ h

theorem gateAt_succ_of_none {n : ℕ} (h : run.ops[n]? = none) :
    run.gateAt (n + 1) = run.gateAt n := stateAt_succ_of_none h

/-- What one operation does to the records of a run: an approval adds the record it
issues, a send uses a record, anything else leaves them as they are. -/
theorem step_cases (run : Run) (n : ℕ) :
    (∃ a r, run.Issues n a r ∧ run.recordsAt (n + 1) = (run.recordsAt n).set r.id r) ∨
    (∃ c r, run.ops[n]? = some (.send c) ∧
      ApprovalStore.Usable run.argsHash (run.gateAt n).store "send_report" c.args
        (requesterOf c.ctx) c.now r ∧
      run.recordsAt (n + 1) = (run.recordsAt n).set r.id { r with used := true }) ∨
    ((∀ c, ¬ run.Passes n c) ∧ run.recordsAt (n + 1) = run.recordsAt n) := by
  cases op : run.ops[n]? with
  | none =>
    refine .inr (.inr ⟨fun c passed => ?_, ?_⟩)
    · exact absurd (op.symm.trans passed.1) (Option.some_ne_none _).symm
    · rw [recordsAt, gateAt_succ_of_none op, recordsAt]
  | some op' =>
    cases op' with
    | approve a =>
      rcases Gate.step_approve_cases run.argsHash run.lower (run.gateAt n) a with
        ⟨r, issued, -, -, -, -, -, stored⟩ | ⟨-, same⟩
      · exact .inl ⟨a, r, ⟨op, issued⟩, by rw [recordsAt, gateAt_succ op, stored, recordsAt]⟩
      -- An approval that is refused stores nothing, and no send passes at this step.
      · refine .inr (.inr ⟨fun c passed =>
          ?_, by rw [recordsAt, gateAt_succ op, same, recordsAt]⟩)
        simpa using op.symm.trans passed.1
    | send c =>
      rcases Gate.step_send_cases run.argsHash run.lower (run.gateAt n) c with
        ⟨r, usable, used⟩ | ⟨kept, same⟩
      · exact .inr (.inl ⟨c, r, rfl, usable, by
          rw [recordsAt, gateAt_succ op, used, recordsAt, ApprovalStore.use]⟩)
      · refine .inr (.inr ⟨fun c' passed => ?_, by
          rw [recordsAt, gateAt_succ op, same, recordsAt]⟩)
        obtain rfl : c = c' := by simpa using op.symm.trans passed.1
        exact kept passed.2

/-- What is known of the records after `n` operations. -/
structure Traced (run : Run) (n : ℕ) : Prop where
  keys : (run.recordsAt n).KeysNodup
  issued : ∀ k r, (run.recordsAt n).get? k = some r →
    r.id = k ∧ ∃ i < n, ∃ a s, run.Issues i a s ∧ r = { s with used := r.used }

/-- A record is stored under its id. -/
theorem Traced.get?_id {n : ℕ} (traced : run.Traced n) {r : ApprovalRecord}
    (listed : r ∈ (run.recordsAt n).map Prod.snd) : (run.recordsAt n).get? r.id = some r := by
  obtain ⟨⟨k, r⟩, member, rfl⟩ := List.mem_map.mp listed
  have stored := (Dict.get?_eq_some_iff traced.keys).mpr member
  rwa [(traced.issued k r stored).1]

/-- **Every stored record was issued**, and nothing but its mark has changed since. -/
theorem traced (run : Run) (n : ℕ) : run.Traced n := by
  induction n with
  | zero =>
    have empty : run.recordsAt 0 = [] := rfl
    constructor
    · rw [empty]
      exact List.nodup_nil
    · intro k r stored
      rw [empty, Dict.get?_nil] at stored
      cases stored
  | succ n ih =>
    -- What was stored before was issued before.
    have before : ∀ k r, (run.recordsAt n).get? k = some r →
        r.id = k ∧ ∃ i < n + 1, ∃ a s, run.Issues i a s ∧ r = { s with used := r.used } := by
      intro k r stored
      obtain ⟨key, i, earlier, issued⟩ := ih.issued k r stored
      exact ⟨key, i, Nat.lt_succ_of_lt earlier, issued⟩
    rcases run.step_cases n with ⟨a, r, issued, after⟩ | ⟨c, r, -, usable, after⟩ | ⟨-, after⟩
    · refine ⟨after ▸ ih.keys.set, fun k s stored => ?_⟩
      rw [after, Dict.get?_set] at stored
      split_ifs at stored with here
      · obtain rfl := Option.some.inj stored
        exact ⟨here, n, n.lt_succ_self, a, r, issued, rfl⟩
      · exact before k s stored
    · refine ⟨after ▸ ih.keys.set, fun k s stored => ?_⟩
      rw [after, Dict.get?_set] at stored
      split_ifs at stored with here
      · -- The record that is used is one of before, marked.
        obtain rfl := Option.some.inj stored
        obtain ⟨-, i, earlier, a, s, issued, same⟩ := before r.id r (ih.get?_id usable.mem)
        exact ⟨here, i, earlier, a, s, issued, by rw [same]⟩
      · exact before k s stored
    · refine ⟨after ▸ ih.keys, fun k s stored => ?_⟩
      exact before k s (after ▸ stored)

/-- What an issued record says of its approval. -/
theorem Issues.record {n : ℕ} {a : ApproveOp} {r : ApprovalRecord} (issued : run.Issues n a r) :
    r.id = a.id ∧ r.tool = a.tool ∧ r.argsHash = run.argsHash a.tool a.args ∧
      r.requester = a.requester := by
  rcases Gate.step_approve_cases run.argsHash run.lower (run.gateAt n) a with
    ⟨s, answer, id, tool, hash, requester, -⟩ | ⟨⟨e, failed⟩, -⟩
  · obtain rfl : s = r := Except.ok.inj (answer.symm.trans issued.2)
    exact ⟨id, tool, hash, requester⟩
  · exact absurd (failed.symm.trans issued.2) (by simp)

/-- Records differ in their ids where the ids that approvals draw do. -/
theorem distinctIds_of_nodup (drawn : (run.ops.filterMap ApprovalOp.drawnId).Nodup) :
    run.DistinctIds := by
  intro i j a b r s hi hj same
  rw [hi.record.1, hj.record.1] at same
  rw [List.Nodup, List.pairwise_filterMap, List.pairwise_iff_getElem] at drawn
  obtain ⟨insideI, opI⟩ := List.getElem?_eq_some_iff.mp hi.1
  obtain ⟨insideJ, opJ⟩ := List.getElem?_eq_some_iff.mp hj.1
  rcases Nat.lt_trichotomy i j with less | equal | less
  · exact absurd same (drawn i j insideI insideJ less _ (by rw [opI]; rfl) _ (by rw [opJ]; rfl))
  · exact equal
  · exact absurd same.symm
      (drawn j i insideJ insideI less _ (by rw [opJ]; rfl) _ (by rw [opI]; rfl))

/-- A used record stays used: no later approval is issued under its id. -/
theorem used_succ (distinct : run.DistinctIds) {n : ℕ}
    {id : String} (used : run.Used n id) : run.Used (n + 1) id := by
  obtain ⟨s, stored, marked⟩ := used
  rcases run.step_cases n with ⟨a, r, issued, after⟩ | ⟨c, r, -, usable, after⟩ | ⟨-, after⟩
  · have other : r.id ≠ id := by
      intro same
      obtain ⟨key, i, earlier, b, t, before, unchanged⟩ := (traced run n).issued id s stored
      have sameId : t.id = r.id :=
        (congrArg ApprovalRecord.id unchanged).symm.trans (key.trans same.symm)
      exact absurd (distinct before issued sameId) (Nat.ne_of_lt earlier)
    exact ⟨s, by rw [after, Dict.get?_set_of_ne other, stored], marked⟩
  · by_cases same : r.id = id
    · exact ⟨{ r with used := true }, by rw [after, same, Dict.get?_set_self], rfl⟩
    · exact ⟨s, by rw [after, Dict.get?_set_of_ne same, stored], marked⟩
  · exact ⟨s, by rw [after, stored], marked⟩

/-- **A record is used once.** -/
theorem uses_injective (distinct : run.DistinctIds)
    {i j : ℕ} {id : String} (hi : run.Uses i id) (hj : run.Uses j id) : i = j := by
  apply spend_injective run.Uses run.Used (fun n t => used_succ distinct) _ hi hj
  intro n t uses
  obtain ⟨r, listed, rfl, unused, after⟩ := uses
  have stored := (traced run n).get?_id listed
  refine ⟨fun used => ?_, { r with used := true }, by rw [after, Dict.get?_set_self], rfl⟩
  obtain ⟨s, found, marked⟩ := used
  obtain rfl := Option.some.inj (stored.symm.trans found)
  exact absurd (unused.symm.trans marked) (by decide)

/-- A send that runs its implementation is handed over. -/
theorem Executes.passes {n : ℕ} {c : SendOp} (executed : run.Executes n c) : run.Passes n c :=
  ⟨executed.1, ((Guard.runsImpl_send_iff c.guard.2).mp executed.2).1⟩

/-- A send that is handed over was approved before, and uses the record of that
approval. -/
theorem Passes.exists_approval (injective : HashInjective run.argsHash run.ops)
    {n : ℕ} {c : SendOp} (passed : run.Passes n c) :
    ∃ i < n, ∃ a r, run.Issues i a r ∧ Authorises a r c ∧ run.Uses n r.id := by
  rcases run.step_cases n with ⟨a, r, issued, -⟩ | ⟨c', r, op, usable, after⟩ | ⟨none, -⟩
  · simpa using issued.1.symm.trans passed.1
  · obtain rfl : c' = c := by simpa using op.symm.trans passed.1
    obtain ⟨-, i, earlier, a, s, issued, same⟩ :=
      (traced run n).issued r.id r ((traced run n).get?_id usable.mem)
    obtain ⟨-, tool, hash, requester⟩ := issued.record
    have unmarked : s.id = r.id ∧ s.tool = r.tool ∧ s.argsHash = r.argsHash ∧
        s.requester = r.requester ∧ s.expiresAt = r.expiresAt := by
      rw [same]
      exact ⟨rfl, rfl, rfl, rfl, rfl⟩
    obtain ⟨sameId, sameTool, sameHash, sameRequester, sameExpiry⟩ := unmarked
    have approved : (a.tool, a.args) ∈ run.ops.map ApprovalOp.call :=
      List.mem_map.mpr ⟨_, List.mem_of_getElem? issued.1, rfl⟩
    have sent : ("send_report", c'.args) ∈ run.ops.map ApprovalOp.call :=
      List.mem_map.mpr ⟨_, List.mem_of_getElem? op, rfl⟩
    -- The record holds a digest only: that it is of the same call rests on the digests being apart.
    have calls := injective _ approved _ sent (by
      rw [← hash, sameHash, usable.hash_eq])
    exact ⟨i, earlier, a, s, issued,
      ⟨calls.1, calls.2, by rw [← requester, sameRequester, usable.requester_eq],
        sameExpiry ▸ usable.unexpired⟩,
      r, usable.mem, sameId.symm, usable.unused, after⟩
  · exact absurd passed (none c)

/-- The sends that are handed over with the arguments and under the requester. -/
def passedSends (run : Run) (args : Args) (requester : String) : Set ℕ :=
  {n | ∃ c, run.Passes n c ∧ SameArgs c.args args ∧ requesterOf c.ctx = requester}

/-- The approvals of sends with the arguments for the requester. -/
def issuedApprovals (run : Run) (args : Args) (requester : String) : Set ℕ :=
  {n | ∃ a r, run.Issues n a r ∧ a.tool = "send_report" ∧ SameArgs a.args args ∧
    a.requester = requester}

theorem finite_issuedApprovals (run : Run) (args : Args) (requester : String) :
    (run.issuedApprovals args requester).Finite := by
  apply (Set.finite_lt_nat run.ops.length).subset
  rintro n ⟨a, r, issued, -⟩
  exact (List.getElem?_eq_some_iff.mp issued.1).1

/-- **Sends are bound to approvals.** A send that runs its implementation is handed over,
and the sends that are handed over can be matched to approvals of their own, issued
before, for the same tool, arguments and requester and not expired at the check. So no
arguments and requester see more such sends than approvals. -/
theorem sends_matched (distinct : run.DistinctIds)
    (injective : HashInjective run.argsHash run.ops) :
    (∀ n c, run.Executes n c → run.Passes n c) ∧
    (∃ approvalOf : ℕ → ℕ,
      (∀ n c, run.Passes n c → approvalOf n < n ∧
        ∃ a r, run.Issues (approvalOf n) a r ∧ Authorises a r c) ∧
      ∀ m n c d, run.Passes m c → run.Passes n d → approvalOf m = approvalOf n → m = n) ∧
    ∀ args requester,
      (run.passedSends args requester).ncard ≤ (run.issuedApprovals args requester).ncard := by
  have approved : ∀ n, ∃ i, ∀ c, run.Passes n c →
      i < n ∧ ∃ a r, run.Issues i a r ∧ Authorises a r c ∧ run.Uses n r.id := by
    intro n
    by_cases passes : ∃ c, run.Passes n c
    · obtain ⟨c, passed⟩ := passes
      obtain ⟨i, earlier, a, r, issued, authorises, uses⟩ :=
        passed.exists_approval injective
      refine ⟨i, fun d again => ?_⟩
      obtain rfl : c = d := by simpa using passed.1.symm.trans again.1
      exact ⟨earlier, a, r, issued, authorises, uses⟩
    · exact ⟨0, fun c passed => absurd ⟨c, passed⟩ passes⟩
  choose approvalOf matched using approved
  have unique : ∀ m n c d, run.Passes m c → run.Passes n d →
      approvalOf m = approvalOf n → m = n := by
    intro m n c d hm hn same
    obtain ⟨-, a, r, issued, -, uses⟩ := matched m c hm
    obtain ⟨-, b, s, issued', -, uses'⟩ := matched n d hn
    rw [same] at issued
    -- One approval issues one record, and that record is used once.
    obtain rfl : a = b := by simpa using issued.1.symm.trans issued'.1
    obtain rfl : r = s := by simpa using issued.2.symm.trans issued'.2
    exact uses_injective distinct uses uses'
  refine ⟨fun _ _ => Executes.passes, ⟨approvalOf, fun n c passed => ?_, unique⟩,
    fun args requester => ?_⟩
  · obtain ⟨earlier, a, r, issued, authorises, -⟩ := matched n c passed
    exact ⟨earlier, a, r, issued, authorises⟩
  · apply Set.ncard_le_ncard_of_injOn approvalOf _ _ (run.finite_issuedApprovals args requester)
    · rintro n ⟨c, passed, sameArgs, same⟩
      obtain ⟨-, a, r, issued, authorises, -⟩ := matched n c passed
      exact ⟨a, r, issued, authorises.tool_eq,
        fun name => (authorises.sameArgs name).trans (sameArgs name),
        authorises.requester_eq.trans same⟩
    · rintro m ⟨c, hm, -⟩ n ⟨d, hn, -⟩ same
      exact unique m n c d hm hn same

end Run

/-- A wrapper in mode `bound` around the implementation itself. -/
def boundOnly : BoundGuard := ⟨{ mode := .bound }, by decide⟩

/-- An approval of the weekly report at the instant. -/
def approveReport (id : String) (now : Int) : ApprovalOp :=
  .approve ⟨"send_report", (reportTo "seojun.park@nurisoft.example").args, "kim.dev", "lead", id,
    now⟩

/-- The weekly report sent at the instant. -/
def sendReportAt (now : Int) : SendOp where
  guard := boundOnly
  now := now
  ctx := (reportTo "").ctx
  args := (reportTo "seojun.park@nurisoft.example").args
  impl := RawOps.sendReport "2026-09-10T00:00:00+00:00" "alpha" "seojun.park@nurisoft.example"
    "weekly" "two failures" 1 "kim.dev"
  callId := "c1"

/-- Two approvals of one report and three attempts to send it. -/
def twoApprovals : Run where
  argsHash := fun _ _ => "b9b40e2b5f1b6728"
  lower := asciiLower
  ttl := 600000000
  world := emptyRun
  ops := [approveReport "0c1f" 0, .send (sendReportAt 5), .send (sendReportAt 6),
    approveReport "77ab" 7, .send (sendReportAt 8)]

theorem Run.sends_matched_twoApprovals :
    (twoApprovals.Executes 1 (sendReportAt 5) ∧ ¬ twoApprovals.Executes 2 (sendReportAt 6) ∧
      twoApprovals.Executes 4 (sendReportAt 8)) ∧
    (∀ n c, twoApprovals.Executes n c → twoApprovals.Passes n c) ∧
    (∃ approvalOf : ℕ → ℕ,
      (∀ n c, twoApprovals.Passes n c → approvalOf n < n ∧
        ∃ a r, twoApprovals.Issues (approvalOf n) a r ∧ Authorises a r c) ∧
      ∀ m n c d, twoApprovals.Passes m c → twoApprovals.Passes n d →
        approvalOf m = approvalOf n → m = n) ∧
    ∀ args requester,
      (twoApprovals.passedSends args requester).ncard ≤
        (twoApprovals.issuedApprovals args requester).ncard := by
  have runs (n : ℕ) (now : Int) (sent : twoApprovals.Passes n (sendReportAt now)) :
      twoApprovals.Executes n (sendReportAt now) :=
    ⟨sent.1, (Guard.runsImpl_send_iff boundOnly.2).mpr ⟨sent.2, nofun⟩⟩
  refine ⟨⟨runs 1 5 ⟨rfl, rfl⟩, fun executed => ?_, runs 4 8 ⟨rfl, rfl⟩⟩,
    Run.sends_matched (Run.distinctIds_of_nodup (by decide)) ?_⟩
  · exact absurd executed.passes.2 (Option.some_ne_none _)
  · intro a ha b hb _
    have only : ∀ call ∈ twoApprovals.ops.map ApprovalOp.call,
        call = ("send_report", (reportTo "seojun.park@nurisoft.example").args) := by decide
    rw [only a ha, only b hb]
    exact ⟨rfl, fun _ => rfl⟩

end AgentLabs.GuardLab
