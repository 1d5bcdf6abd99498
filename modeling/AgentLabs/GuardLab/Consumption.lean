import AgentLabs.GuardLab.Binding

/-!
# When an approval is used up

A check looks at one record only, the last of those that are bound to the call, and marks
it before the rest of the wrapper has had its say. So a good record can be hidden by a
later one that is used or expired, and a record can be spent on a send that is then
refused. Both happen in exactly the cases that are named here.

## Main definitions

* `StoreOp`, `storeAfter`: what may happen to a store, and the store after a history
* `ApprovalStore.Complete`: a check allows a call if any record is good for it
* `SpendsOnExecution`: a record becomes used exactly when its send is executed

## Main results

* `ApprovalStore.check_allow_iff`: a check allows a call if the last candidate is good
* `complete_iff`: when a check is complete
* `runsImpl_guardedCall_iff`: which calls the action guard runs
* `spendsOnExecution_iff`: when the records and the executions agree
-/

namespace AgentLabs.GuardLab

open Math Text

/-! ### Histories of a store -/

/-- A call of `check`, with the instant it reads. -/
structure CheckOp where
  tool : String
  args : Args
  requester : String
  now : Int
  consume : Bool

/-- What may happen to a store of approvals. -/
inductive StoreOp where
  | setTtl (ttl : Int)
  | approve (a : ApproveOp)
  | check (c : CheckOp)

section

variable (argsHash : String → Args → String)

/-- The store after one operation. -/
def ApprovalStore.step (store : ApprovalStore) : StoreOp → ApprovalStore
  | .setTtl ttl => { store with ttl }
  | .approve a => (store.approve argsHash a.tool a.args a.requester a.approver a.id a.now).2
  | .check c => (store.check argsHash c.tool c.args c.requester c.now c.consume).2

/-- The store after a history of a new one. -/
def storeAfter (history : List StoreOp) : ApprovalStore :=
  history.foldl (ApprovalStore.step argsHash) {}

/-- The check allows the call. -/
def ApprovalStore.Allows (store : ApprovalStore) (c : CheckOp) : Prop :=
  (store.check argsHash c.tool c.args c.requester c.now c.consume).1.action = .allow

/-- The check allows the call if and only if some record is bound to it, unused and
unexpired. -/
def ApprovalStore.Complete (store : ApprovalStore) (c : CheckOp) : Prop :=
  store.Allows argsHash c ↔ ∃ r, Usable argsHash store c.tool c.args c.requester c.now r

/-- The last of the records that are bound to the call is unused and unexpired. -/
def ApprovalStore.LastGood (store : ApprovalStore) (tool : String) (args : Args)
    (requester : String) (now : Int) : Prop :=
  ∃ r ∈ (store.candidates tool (argsHash tool args) requester).getLast?,
    r.used = false ∧ now ≤ r.expiresAt

end

/-! ### Which record is looked at -/

section

variable {argsHash : String → Args → String} {store : ApprovalStore} {tool : String} {args : Args}
  {requester : String} {now : Int}

theorem ApprovalStore.usable_iff {r : ApprovalRecord} :
    Usable argsHash store tool args requester now r ↔
      r ∈ store.candidates tool (argsHash tool args) requester ∧ r.used = false ∧
        now ≤ r.expiresAt := by
  simp only [candidates, List.mem_filter, decide_eq_true_eq]
  constructor
  · intro usable
    exact ⟨⟨usable.mem, usable.tool_eq, usable.hash_eq, usable.requester_eq⟩, usable.unused,
      usable.unexpired⟩
  · intro good
    obtain ⟨⟨listed, sameTool, sameHash, sameRequester⟩, unused, unexpired⟩ := good
    exact ⟨listed, sameTool, sameHash, sameRequester, unused, unexpired⟩

/-- **What decides a check**: the last record that is bound to the call. -/
theorem ApprovalStore.check_allow_iff (consume : Bool) :
    (store.check argsHash tool args requester now consume).1.action = .allow ↔
      store.LastGood argsHash tool args requester now := by
  unfold LastGood
  cases found : (store.candidates tool (argsHash tool args) requester).getLast? with
  | none => simp [check, found, refusal]
  | some r =>
    simp only [check, found, Option.mem_some_iff, exists_eq_left']
    by_cases used : r.used = true
    · simp [refusal, used]
    by_cases expired : now > r.expiresAt
    · simp [refusal, used, expired, Int.not_le.mpr expired]
    · rw [if_neg used, if_neg expired]
      exact iff_of_true rfl ⟨by simpa using used, Int.not_lt.mp expired⟩

theorem ApprovalStore.LastGood.exists_usable
    (good : store.LastGood argsHash tool args requester now) :
    ∃ r, Usable argsHash store tool args requester now r := by
  obtain ⟨r, last, unused, unexpired⟩ := good
  exact ⟨r, usable_iff.mpr ⟨List.mem_of_getLast? last, unused, unexpired⟩⟩

/-- **When a check is complete**: after any history, for any call, exactly if no record
that is good for the call is hidden by a last one that is not. -/
theorem complete_iff (argsHash : String → Args → String) (history : List StoreOp) (c : CheckOp) :
    (storeAfter argsHash history).Complete argsHash c ↔
      ((∃ r, ApprovalStore.Usable argsHash (storeAfter argsHash history) c.tool c.args c.requester
          c.now r) →
        (storeAfter argsHash history).LastGood argsHash c.tool c.args c.requester c.now) := by
  unfold ApprovalStore.Complete ApprovalStore.Allows
  rw [ApprovalStore.check_allow_iff]
  constructor
  · intro complete
    exact complete.mpr
  · intro last
    exact ⟨fun good => good.exists_usable, last⟩

end

/-- The hash of the weekly report, the only call of the runs below. -/
def weeklyHash (_ : String) (_ : Args) : String := "b9b40e2b5f1b6728"

/-- A check of the weekly report at the instant. -/
def checkReport (now : Int) : CheckOp :=
  ⟨"send_report", (reportTo "seojun.park@nurisoft.example").args, "kim.dev", now, true⟩

/-- Two approvals of the weekly report and one check that uses the second. -/
def secondUsed : List StoreOp :=
  [.approve ⟨"send_report", (reportTo "seojun.park@nurisoft.example").args, "kim.dev", "lead",
    "0c1f", 0⟩, .approve ⟨"send_report", (reportTo "seojun.park@nurisoft.example").args, "kim.dev",
    "lead", "77ab", 1⟩, .check (checkReport 2)]

/-- The first approval is good, but the used second one hides it. -/
theorem not_complete_secondUsed :
    ¬ (storeAfter weeklyHash secondUsed).Complete weeklyHash (checkReport 3) := by
  intro complete
  have refused : ¬ (storeAfter weeklyHash secondUsed).Allows weeklyHash (checkReport 3) := by
    unfold ApprovalStore.Allows
    decide
  refine refused (complete.mpr ⟨⟨"0c1f", "send_report", "b9b40e2b5f1b6728",
    "seojun.park@nurisoft.example", 1, "kim.dev", "lead", 600000000, false, "rules-v3"⟩, ?_⟩)
  rw [ApprovalStore.usable_iff]
  decide

/-! ### Which calls run the implementation -/

theorem runsImpl_carryOut_iff (decision : PolicyDecision) (w : World) :
    RunsImpl (fun impl => carryOut decision impl w) ↔ decision.action = .allow := by
  cases given : decision.action <;> simp only [carryOut, given]
  case allow => exact iff_of_true (runsImpl_apply w) trivial
  all_goals exact iff_of_false (not_runsImpl_const _) (by simp)

/-- The action guard runs the implementation exactly of the calls its table allows. -/
theorem runsImpl_guardedCall_iff (lower : String → String) (table : PermissionTable)
    (ctx : Option UserContext) (tool : String) (args : Args) (callId : String) (w : World) :
    RunsImpl (fun impl => guardedCall lower table ctx tool args impl callId w) ↔
      table.Allows lower ctx tool (normalizeArgs lower args) := by
  unfold guardedCall PermissionTable.Allows
  cases table.decide lower ctx tool (normalizeArgs lower args) with
  | error e => simp [not_runsImpl_const]
  | ok decided =>
    dsimp only
    rw [runsImpl_carryOut_iff, supported_action_eq_allow_iff]
    simp

/-! ### What a call does to the records -/

/-- Every record is stored under its id, and under no other. -/
structure ApprovalStore.Keyed (store : ApprovalStore) : Prop where
  keys : store.records.KeysNodup
  ids : ∀ k r, store.records.get? k = some r → r.id = k

/-- Some record that was unused is used now. -/
def SpendsRecord (before after : ApprovalStore) : Prop :=
  ∃ id r r', before.records.get? id = some r ∧ r.used = false ∧
    after.records.get? id = some r' ∧ r'.used = true

section

variable {store : ApprovalStore} {r : ApprovalRecord}

theorem ApprovalStore.Keyed.get?_id (keyed : store.Keyed)
    (listed : r ∈ store.records.map Prod.snd) :
    store.records.get? r.id = some r := by
  obtain ⟨⟨k, r⟩, member, rfl⟩ := List.mem_map.mp listed
  have stored := (Dict.get?_eq_some_iff keyed.keys).mpr member
  rwa [(keyed.ids k r stored)]

theorem not_spendsRecord_self (store : ApprovalStore) : ¬ SpendsRecord store store := by
  intro spends
  obtain ⟨id, r, r', before, unused, after, used⟩ := spends
  obtain rfl := Option.some.inj (before.symm.trans after)
  exact absurd (unused.symm.trans used) (by decide)

theorem ApprovalStore.Keyed.spendsRecord_use (keyed : store.Keyed)
    (listed : r ∈ store.records.map Prod.snd) (unused : r.used = false) :
    SpendsRecord store (store.use r) :=
  ⟨r.id, r, { r with used := true }, keyed.get?_id listed, unused, Dict.get?_set_self, rfl⟩

/-- Storing a record under its id keeps the store keyed, whatever was there. -/
theorem ApprovalStore.Keyed.set (keyed : store.Keyed) (r : ApprovalRecord) :
    Keyed { store with records := store.records.set r.id r } where
  keys := keyed.keys.set
  ids := by
    intro k s stored
    rw [Dict.get?_set] at stored
    split_ifs at stored with same
    · rw [← Option.some.inj stored, same]
    · exact keyed.ids k s stored

/-- A check marks a record or leaves the store as it is. -/
theorem ApprovalStore.store_check_cases (argsHash : String → Args → String) (store : ApprovalStore)
    (c : CheckOp) :
    (store.check argsHash c.tool c.args c.requester c.now c.consume).2 = store ∨
      ∃ r, (store.check argsHash c.tool c.args c.requester c.now c.consume).2 = store.use r := by
  cases found : (store.candidates c.tool (argsHash c.tool c.args) c.requester).getLast? with
  | none =>
    left
    simp only [check, found]
  | some r =>
    simp only [check, found]
    split_ifs
    exacts [.inl rfl, .inl rfl, .inr ⟨r, rfl⟩, .inl rfl]

theorem ApprovalStore.Keyed.step (argsHash : String → Args → String) (keyed : store.Keyed)
    (op : StoreOp) : (store.step argsHash op).Keyed := by
  cases op with
  | setTtl ttl => exact ⟨keyed.keys, keyed.ids⟩
  | approve a =>
    change (store.approve argsHash a.tool a.args a.requester a.approver a.id a.now).2.Keyed
    unfold approve
    cases versionOf a.args with
    | error e => exact keyed
    | ok version =>
      exact keyed.set (store.newRecord argsHash a.tool a.args a.requester a.approver a.id a.now
        version)
  | check c =>
    change (store.check argsHash c.tool c.args c.requester c.now c.consume).2.Keyed
    rcases store.store_check_cases argsHash c with same | ⟨r, used⟩
    · rwa [same]
    · rw [used]
      exact keyed.set { r with used := true }

/-- **The store of any history is keyed.** -/
theorem keyed_storeAfter (argsHash : String → Args → String) (history : List StoreOp) :
    (storeAfter argsHash history).Keyed :=
  foldl_invariant (fun _ op keyed => keyed.step argsHash op) history ⟨List.nodup_nil, by simp⟩

end

/-! ### The wrapper -/

section

variable (argsHash : String → Args → String) (lower : String → String) (guard : Guard) (now : Int)
  (ctx : Option UserContext) (args : Args) (callId : String) (g : Gate)

/-- A record becomes used exactly when its send is executed, and a call that does not
execute its implementation leaves the records as they were. -/
structure SpendsOnExecution : Prop where
  intact : ¬ RunsImpl (guard.send argsHash lower now ctx args callId g) →
    ∀ impl, (guard.send argsHash lower now ctx args callId g impl).2.store = g.store
  spent : ∀ impl, SpendsRecord g.store
    (guard.send argsHash lower now ctx args callId g impl).2.store ↔
    RunsImpl (guard.send argsHash lower now ctx args callId g)

/-- In mode `bound_revalidate` the table allows the call now. -/
def Guard.TableAllows : Prop :=
  ∀ table ∈ guard.table, guard.mode = .boundRevalidate →
    table.Allows lower ctx "send_report" (normalizeArgs lower args)

end

section

variable {argsHash : String → Args → String} {lower : String → String} {guard : Guard} {now : Int}
  {ctx : Option UserContext} {args : Args} {callId : String} {g : Gate}

theorem Guard.revalidate_eq_none_iff :
    (guard.revalidate lower ctx "send_report" args callId g).1 = none ↔
      guard.TableAllows lower ctx args := by
  unfold Guard.revalidate Guard.TableAllows
  cases mode : guard.mode with
  | boundRevalidate =>
    cases guard.table with
    | none => simp
    | some table =>
      simp only [Option.mem_some_iff, forall_eq', forall_true_left, PermissionTable.Allows]
      cases table.decide lower ctx "send_report" (normalizeArgs lower args) with
      | error e => simp
      | ok current =>
        dsimp only
        split_ifs with denied <;> simp_all
  | _ => simp

/-- What hands a call over: a last candidate that is good, and the table. -/
theorem Guard.handsOver_iff :
    guard.HandsOver argsHash lower now ctx args callId g ↔
      g.store.LastGood argsHash "send_report" args (requesterOf ctx) now ∧
        guard.TableAllows lower ctx args := by
  unfold Guard.HandsOver Guard.authorise
  rw [← ApprovalStore.check_allow_iff true]
  dsimp only
  split_ifs with refused
  · exact iff_of_false (by simp) fun both => refused both.1
  · rw [Guard.revalidate_eq_none_iff]
    exact (and_iff_right (not_not.mp refused)).symm

/-- With the action guard inside, its table is asked. -/
theorem Guard.innerRuns_actionWrapper_iff {table : PermissionTable}
    (inner : guard.inner = some (makeActionWrapper lower table)) :
    guard.InnerRuns argsHash lower now ctx args callId g ↔
      table.Allows lower ctx "send_report" (normalizeArgs lower args) := by
  unfold Guard.InnerRuns
  rw [inner]
  simp only [Option.mem_some_iff, forall_eq', makeActionWrapper]
  exact runsImpl_guardedCall_iff lower table ctx "send_report" args callId _

/-- What a call does to the records: it uses one if the last candidate is good. -/
theorem Guard.store_send_cases (bound : guard.mode ≠ .approveOnly) (impl : Impl) :
    (g.store.LastGood argsHash "send_report" args (requesterOf ctx) now ∧
      ∃ r ∈ g.store.records.map Prod.snd, r.used = false ∧
        (guard.send argsHash lower now ctx args callId g impl).2.store = g.store.use r) ∨
    (¬ g.store.LastGood argsHash "send_report" args (requesterOf ctx) now ∧
      (guard.send argsHash lower now ctx args callId g impl).2.store = g.store) := by
  unfold Guard.send
  rw [Guard.store_wrap bound, ← ApprovalStore.check_allow_iff true]
  rcases ApprovalStore.check_cases argsHash g.store "send_report" args (requesterOf ctx) now with
    ⟨r, usable, checked⟩ | ⟨decision, blocked, checked⟩
  · refine .inl ⟨by rw [checked], r, usable.mem, usable.unused, ?_⟩
    have allowed : ¬ ((.allow : Action) ≠ .allow) := not_not.mpr rfl
    simp only [Guard.authorise, checked, if_neg allowed, Guard.store_revalidate]
  · have refused : decision.action ≠ .allow := by simp [blocked]
    refine .inr ⟨by rwa [checked], ?_⟩
    simp only [Guard.authorise, checked, if_pos refused]

/-- **When records and executions agree**: exactly if a call whose last candidate is good
is allowed by the table and run by the inner wrapper. -/
theorem spendsOnExecution_iff (bound : guard.mode ≠ .approveOnly) (keyed : g.store.Keyed) :
    SpendsOnExecution argsHash lower guard now ctx args callId g ↔
      (g.store.LastGood argsHash "send_report" args (requesterOf ctx) now →
        guard.TableAllows lower ctx args ∧
          guard.InnerRuns argsHash lower now ctx args callId g) := by
  have runs : RunsImpl (guard.send argsHash lower now ctx args callId g) ↔ _ :=
    guard.runsImpl_send_iff bound
  rw [Guard.handsOver_iff] at runs
  constructor
  · intro law good
    -- Any implementation will do here: the record is used before it runs.
    rcases guard.store_send_cases bound (fun w => (.ok "", w)) with
      ⟨-, r, listed, unused, spent⟩ | ⟨not_good, -⟩
    · have executed := (law.spent _).mp (spent ▸ keyed.spendsRecord_use listed unused)
      obtain ⟨⟨-, allowed⟩, inner⟩ := runs.mp executed
      exact ⟨allowed, inner⟩
    · exact absurd good not_good
  · intro clear
    constructor
    · intro idle impl
      rcases guard.store_send_cases bound impl with ⟨good, -⟩ | ⟨-, same⟩
      · obtain ⟨allowed, inner⟩ := clear good
        exact absurd (runs.mpr ⟨⟨good, allowed⟩, inner⟩) idle
      · exact same
    · intro impl
      rcases guard.store_send_cases bound impl with ⟨good, r, listed, unused, spent⟩
        | ⟨not_good, same⟩
      · obtain ⟨allowed, inner⟩ := clear good
        rw [spent]
        exact iff_of_true (keyed.spendsRecord_use listed unused) (runs.mpr ⟨⟨good, allowed⟩, inner⟩)
      · rw [same]
        exact iff_of_false (not_spendsRecord_self _) fun executed => not_good (runs.mp executed).1.1

end

/-- A wrapper that asks a table in which the reviewer is no longer listed. -/
def reviewerRemoved : Guard := { mode := .boundRevalidate, table := some {} }

/-- The weekly report was approved once. -/
def approvedOnce : Gate :=
  ⟨storeAfter weeklyHash [.approve ⟨"send_report", (reportTo "seojun.park@nurisoft.example").args,
    "kim.dev", "lead", "0c1f", 0⟩], emptyRun⟩

theorem spendsOnExecution_iff_reviewerRemoved :
    SpendsOnExecution weeklyHash asciiLower reviewerRemoved 5 (reportTo "").ctx
        (reportTo "seojun.park@nurisoft.example").args "c1" approvedOnce ↔
      (approvedOnce.store.LastGood weeklyHash "send_report"
          (reportTo "seojun.park@nurisoft.example").args (requesterOf (reportTo "").ctx) 5 →
        reviewerRemoved.TableAllows asciiLower (reportTo "").ctx
            (reportTo "seojun.park@nurisoft.example").args ∧
          reviewerRemoved.InnerRuns weeklyHash asciiLower 5 (reportTo "").ctx
            (reportTo "seojun.park@nurisoft.example").args "c1" approvedOnce) :=
  spendsOnExecution_iff (by decide) (keyed_storeAfter _ _)

/-- The table refuses the send, and the approval is spent all the same. -/
theorem not_spendsOnExecution_reviewerRemoved :
    ¬ SpendsOnExecution weeklyHash asciiLower reviewerRemoved 5 (reportTo "").ctx
      (reportTo "seojun.park@nurisoft.example").args "c1" approvedOnce := by
  intro law
  have idle : ¬ RunsImpl (reviewerRemoved.send weeklyHash asciiLower 5 (reportTo "").ctx
      (reportTo "seojun.park@nurisoft.example").args "c1" approvedOnce) := by
    rw [Guard.runsImpl_send_iff (by decide)]
    intro executed
    exact absurd executed.1 (Option.some_ne_none _)
  have same := law.intact idle fun w => (.ok "sent", w)
  exact absurd same (by decide)

end AgentLabs.GuardLab
