import AgentLabs.BusinessLab.Reporting
import Mathlib.Tactic.FieldSimp
import Mathlib.Tactic.Linarith

/-!
# The gate of a comparison

The decision is put together from the statuses of the planned runs, the integrity of the
rows, the failures of the candidate and the pairs. All of it comes down to a condition on
the rows: there is one row for each planned run, every row of the baseline was judged, and
every row of the candidate passed.

## Main definitions

* `Report.Fair`: a plan that runs the same scenarios on both releases
* `Row.Judged`, `Row.Passed`: what is asked of a row of the baseline, and of the candidate
* `Report.Ready`: the reports that may be shown to a human

## Main results

* `compare_ready_iff`: the comparison is ready exactly for these reports
-/

namespace AgentLabs.BusinessLab

open Math Text

variable {rows : List Row} {row : Row} {planned : List RunKey} {p : Planned} {report : Report}

/-! ### The reports that are ready -/

/-- The checks that every judged run of a live report has. -/
def liveVerdicts : List String := requiredVerdicts ++ ["response_semantics"]

/-- The run was completed and has all verdicts, and each of them has one of the statuses. -/
structure Row.Settled (statuses : List VerdictStatus) (row : Row) : Prop where
  completed : row.artifact.executionStatus = .completed
  complete : liveVerdicts ⊆ row.verdicts.map Verdict.name
  settled : ∀ v ∈ row.verdicts, v.status ∈ statuses

/-- The run was judged. -/
abbrev Row.Judged : Row → Prop := Row.Settled [.pass, .fail]

/-- The run passed. -/
abbrev Row.Passed : Row → Prop := Row.Settled [.pass]

/-- The plan names each run once, as a manifest does: it runs the two releases, and both
run the same scenarios. -/
structure Report.Fair (report : Report) : Prop where
  distinct : (report.plan.map Planned.key).Nodup
  release_mem : ∀ p ∈ report.plan, p.release ∈ releases
  same : ∀ sid, (∃ p ∈ report.plan, p.release = "baseline" ∧ p.scenarioId = sid) ↔
    ∃ p ∈ report.plan, p.release = "candidate" ∧ p.scenarioId = sid

/-- The report is live and has one row for each planned run; the baseline was judged, and
the candidate passed. -/
structure Report.Ready (report : Report) : Prop where
  live : report.mode = .live
  distinct : (report.rows.map fun row => row.artifact.key).Nodup
  exact : ∀ k, k ∈ report.rows.map (fun row => row.artifact.key) ↔ k ∈ report.plan.map Planned.key
  baseline : ∀ row ∈ report.rows, row.artifact.release = "baseline" → row.Judged
  candidate : ∀ row ∈ report.rows, row.artifact.release = "candidate" → row.Passed

/-! ### Statuses -/

section Statuses

variable {verdicts : List Verdict}

/-- Verdicts that report no trouble. -/
theorem forall_pass_or_fail_iff : (∀ v ∈ verdicts, v.status ∈ [VerdictStatus.pass, .fail]) ↔
    .evaluatorError ∉ verdicts.map Verdict.status ∧
      .insufficientEvidence ∉ verdicts.map Verdict.status := by
  simp only [List.mem_map, not_exists, not_and, ← forall_and]
  refine forall₂_congr fun v _ => ?_
  cases v.status <;> simp

/-- Verdicts that pass. -/
theorem forall_pass_iff : (∀ v ∈ verdicts, v.status ∈ [VerdictStatus.pass]) ↔
    (.evaluatorError ∉ verdicts.map Verdict.status ∧
      .insufficientEvidence ∉ verdicts.map Verdict.status) ∧
      .fail ∉ verdicts.map Verdict.status := by
  rw [← forall_pass_or_fail_iff]
  simp only [List.mem_map, not_exists, not_and, ← forall_and]
  refine forall₂_congr fun v _ => ?_
  cases v.status <;> simp

end Statuses

/-- The rows with a status that counts as judged. -/
theorem valid_statusOf_iff : (Row.statusOf (some row)).Valid ↔
    row.artifact.executionStatus = .completed ∧
      requiredVerdicts ⊆ row.verdicts.map Verdict.name ∧
      ∀ v ∈ row.verdicts, v.status ∈ [VerdictStatus.pass, .fail] := by
  rw [forall_pass_or_fail_iff]
  cases status : row.artifact.executionStatus with
  | completed =>
    simp only [Row.statusOf, status]
    split_ifs <;> simp_all [RunStatus.Valid]
  | executionError => simp [Row.statusOf, status, RunStatus.Valid]
  | infraError => simp [Row.statusOf, status, RunStatus.Valid]

/-- The rows with a status that passes. -/
theorem statusOf_eq_pass_iff : Row.statusOf (some row) = .pass ↔
    row.artifact.executionStatus = .completed ∧
      requiredVerdicts ⊆ row.verdicts.map Verdict.name ∧
      ∀ v ∈ row.verdicts, v.status ∈ [VerdictStatus.pass] := by
  rw [forall_pass_iff]
  cases status : row.artifact.executionStatus with
  | completed =>
    simp only [Row.statusOf, status]
    split_ifs <;> simp_all
  | executionError => simp [Row.statusOf, status]
  | infraError => simp [Row.statusOf, status]

theorem liveVerdicts_subset_iff {names : List String} : liveVerdicts ⊆ names ↔
    requiredVerdicts ⊆ names ∧ "response_semantics" ∈ names := by
  rw [liveVerdicts, List.append_subset, List.cons_subset]
  simp

theorem settled_iff {statuses : List VerdictStatus} : row.Settled statuses ↔
    (row.artifact.executionStatus = .completed ∧
      requiredVerdicts ⊆ row.verdicts.map Verdict.name ∧
      ∀ v ∈ row.verdicts, v.status ∈ statuses) ∧
      "response_semantics" ∈ row.verdicts.map Verdict.name := by
  constructor
  · intro ⟨completed, complete, settled⟩
    obtain ⟨required, semantics⟩ := liveVerdicts_subset_iff.mp complete
    exact ⟨⟨completed, required, settled⟩, semantics⟩
  · intro ⟨⟨completed, required, settled⟩, semantics⟩
    exact ⟨completed, liveVerdicts_subset_iff.mpr ⟨required, semantics⟩, settled⟩

section Planned

variable {found : Dict RunKey Row}

theorem plannedStatus_live (here : found.get? p.key = some row) : plannedStatus .live found p =
    if (Row.statusOf (some row)).Valid ∧
        "response_semantics" ∉ row.verdicts.map Verdict.name then .insufficientEvidence
    else Row.statusOf (some row) := by
  simp only [plannedStatus, here, true_and]

/-- A planned run of a live report counts as judged if it has a judged row. -/
theorem valid_plannedStatus_iff : (plannedStatus .live found p).Valid ↔
    ∃ row, found.get? p.key = some row ∧ row.Judged := by
  cases here : found.get? p.key with
  | none => simp [plannedStatus, here, Row.statusOf, RunStatus.Valid]
  | some row =>
    simp only [Option.some.injEq, exists_eq_left']
    rw [Row.Judged, settled_iff, ← valid_statusOf_iff, plannedStatus_live here]
    split_ifs with unjudged
    · exact iff_of_false (by simp [RunStatus.Valid]) fun both => unjudged.2 both.2
    · exact ⟨fun valid => ⟨valid, not_not.mp fun missing => unjudged ⟨valid, missing⟩⟩, And.left⟩

/-- A planned run of a live report passes if it has a row that passed. -/
theorem plannedStatus_eq_pass_iff : plannedStatus .live found p = .pass ↔
    ∃ row, found.get? p.key = some row ∧ row.Passed := by
  cases here : found.get? p.key with
  | none => simp [plannedStatus, here, Row.statusOf]
  | some row =>
    simp only [Option.some.injEq, exists_eq_left']
    rw [Row.Passed, settled_iff, ← statusOf_eq_pass_iff, plannedStatus_live here]
    split_ifs with unjudged
    · exact iff_of_false (by simp) fun both => unjudged.2 both.2
    · refine ⟨fun passed => ⟨passed, not_not.mp fun missing => unjudged ⟨?_, missing⟩⟩, And.left⟩
      exact .inl passed

end Planned

/-! ### The rows -/

/-- The rows by their keys are what is left of storing one after the other. -/
theorem collectRows_fst (planned : List RunKey) (rows : List Row) :
    (collectRows planned rows).1 =
      Dict.setAll [] (rows.map fun row => (row.artifact.key, row)) := by
  induction rows using List.reverseRecOn with
  | nil => rfl
  | append_singleton rows row ih =>
    rw [List.map_append, Dict.setAll_append, ← ih, collectRows, List.foldl_append]
    rfl

theorem mem_keys_collectRows {k : RunKey} : k ∈ (collectRows planned rows).1.keys ↔
    k ∈ rows.map fun row => row.artifact.key := by
  rw [collectRows_fst, Dict.mem_keys_setAll, List.map_map]
  simp [Dict.keys]

/-- No row is out of place if each is planned and none is repeated. -/
theorem collectRows_snd_eq_nil_iff : (collectRows planned rows).2 = [] ↔
    (rows.map fun row => row.artifact.key).Nodup ∧
      ∀ row ∈ rows, row.artifact.key ∈ planned := by
  induction rows using List.reverseRecOn with
  | nil => simp [collectRows]
  | append_singleton rows row ih =>
    -- A key is out of place if it was collected before or is not planned.
    have step : (collectRows planned (rows ++ [row])).2 =
        if row.artifact.key ∈ (collectRows planned rows).1.keys ∨ row.artifact.key ∉ planned then
          (collectRows planned rows).2 ++ [row.artifact.key]
        else (collectRows planned rows).2 := by
      rw [collectRows, List.foldl_append]
      rfl
    have nodup : ((rows ++ [row]).map fun row => row.artifact.key).Nodup ↔
        row.artifact.key ∉ (rows.map fun row => row.artifact.key) ∧
          (rows.map fun row => row.artifact.key).Nodup := by
      rw [List.map_append, List.nodup_append_comm]
      exact List.nodup_cons
    rw [step, nodup, List.forall_mem_append, List.forall_mem_singleton]
    by_cases bad : row.artifact.key ∈ (collectRows planned rows).1.keys ∨ row.artifact.key ∉ planned
    · rw [if_pos bad]
      refine iff_of_false (by simp) fun ⟨⟨fresh, _⟩, _, listed⟩ => ?_
      exact bad.elim (fun taken => fresh (mem_keys_collectRows.mp taken)) fun out => out listed
    · rw [if_neg bad, ih]
      obtain ⟨fresh, listed⟩ := not_or.mp bad
      rw [mem_keys_collectRows] at fresh
      exact ⟨fun ⟨distinct, all⟩ => ⟨⟨fresh, distinct⟩, all, not_not.mp listed⟩,
        fun ⟨⟨_, distinct⟩, all, _⟩ => ⟨distinct, all⟩⟩

/-- Among rows with distinct keys each is found under its key. -/
theorem get?_collectRows (distinct : (rows.map fun row => row.artifact.key).Nodup) {k : RunKey} :
    (collectRows planned rows).1.get? k = some row ↔ row ∈ rows ∧ row.artifact.key = k := by
  rw [collectRows_fst]
  have keys : (rows.map fun row => (row.artifact.key, row)).map Prod.fst =
      rows.map fun row => row.artifact.key := by
    rw [List.map_map]
    rfl
  have stored : ∀ other ∈ rows, Dict.get? (Dict.setAll [] (rows.map fun row =>
      (row.artifact.key, row))) other.artifact.key = some other := by
    intro other listed
    exact Dict.get?_setAll_of_mem (keys ▸ distinct) (List.mem_map.mpr ⟨other, listed, rfl⟩)
  constructor
  · intro found
    have listed : k ∈ (collectRows planned rows).1.keys :=
      Dict.mem_keys_iff.mpr ⟨row, collectRows_fst planned rows ▸ found⟩
    obtain ⟨other, member, rfl⟩ := List.mem_map.mp (mem_keys_collectRows.mp listed)
    obtain rfl : other = row := Option.some.inj ((stored other member).symm.trans found)
    exact ⟨member, rfl⟩
  · rintro ⟨listed, rfl⟩
    exact stored row listed

/-- The rows of a report by their keys. -/
abbrev Report.found (report : Report) : Dict RunKey Row :=
  (collectRows (report.plan.map Planned.key) report.rows).1

/-- The keys of the rows that are repeated or unplanned. -/
abbrev Report.misplaced (report : Report) : List RunKey :=
  (collectRows (report.plan.map Planned.key) report.rows).2

/-- The summary of a release of a report. -/
abbrev Report.summary (report : Report) (release : String) : Summary :=
  summarize report.mode report.found report.plan release

/-! ### Summaries -/

section Summaries

variable {mode : Mode} {found : Dict RunKey Row} {plan : List Planned} {release : String}

theorem count_pass_add_count_fail (statuses : List RunStatus) :
    statuses.count .pass + statuses.count .fail =
      statuses.countP fun status => decide status.Valid := by
  induction statuses with
  | nil => rfl
  | cons status rest ih =>
    rw [List.count_cons, List.count_cons, List.countP_cons, ← ih]
    cases status <;> simp [RunStatus.Valid] <;> omega

theorem forall_mem_filter_release {q : Planned → Prop} :
    (∀ p ∈ plan.filter fun p => p.release = release, q p) ↔
      ∀ p ∈ plan, p.release = release → q p := by
  simp only [List.mem_filter, decide_eq_true_eq, and_imp]

/-- All planned runs of the release are judged. -/
theorem valid_summarize_iff :
    (summarize mode found plan release).valid = (summarize mode found plan release).planned ↔
      ∀ p ∈ plan, p.release = release → (plannedStatus mode found p).Valid := by
  rw [← forall_mem_filter_release]
  simp only [summarize, Dict.getD_tally]
  rw [count_pass_add_count_fail, List.countP_map, List.countP_eq_length]
  simp

/-- All planned runs of the release have passed. -/
theorem passed_summarize_iff :
    (summarize mode found plan release).passed = (summarize mode found plan release).planned ↔
      ∀ p ∈ plan, p.release = release → plannedStatus mode found p = .pass := by
  rw [← forall_mem_filter_release]
  simp only [summarize, Dict.getD_tally]
  rw [List.count, List.countP_map, List.countP_eq_length]
  simp

/-- The cases of a release are those it plans. -/
theorem mem_keys_cases_iff {sid : String} : sid ∈ (summarize mode found plan release).cases.keys ↔
    ∃ p ∈ plan, p.release = release ∧ p.scenarioId = sid := by
  have keys : (summarize mode found plan release).cases.keys =
      (casesOf (plannedStatus mode found) (plan.filter fun p => p.release = release)).keys := by
    simp only [summarize, Dict.keys, List.map_map]
    rfl
  rw [keys, casesOf, Dict.mem_keys_group]
  simp only [List.map_map, List.mem_map, List.mem_filter, Function.comp_apply, decide_eq_true_eq,
    and_assoc]

/-- A case counts some runs that its release plans. -/
theorem exists_runs_of_mem_cases {sid : String} {c : CaseSummary}
    (listed : (sid, c) ∈ (summarize mode found plan release).cases) :
    ∃ runs : List (Bool × Bool), runs ≠ [] ∧ c = .of runs ∧
      ∀ run ∈ runs, ∃ p ∈ plan, p.release = release ∧
        run.1 = decide (plannedStatus mode found p = .pass) := by
  simp only [summarize, List.mem_map, Prod.mk.injEq] at listed
  obtain ⟨⟨sid, runs⟩, grouped, rfl, rfl⟩ := listed
  obtain ⟨planned, rfl⟩ := Dict.mem_group_iff.mp grouped
  refine ⟨_, Dict.valuesOf_ne_nil_iff.mpr planned, rfl, fun run counted => ?_⟩
  obtain ⟨p, kept, same⟩ := List.mem_map.mp (Dict.mem_valuesOf_iff.mp counted)
  obtain ⟨member, own⟩ := List.mem_filter.mp kept
  obtain ⟨-, rfl⟩ := Prod.mk.inj same
  exact ⟨p, member, of_decide_eq_true own, rfl⟩

end Summaries

/-! ### Pairs -/

section Pairs

variable {baseline candidate : Dict String CaseSummary} {sid : String} {b c : CaseSummary}

/-- The pairs are those of the cases of the baseline, if the candidate has them all. -/
theorem comparePairs_ok (covered : ∀ sid ∈ baseline.keys, sid ∈ candidate.keys) :
    ∃ pairs, comparePairs baseline candidate = .ok pairs ∧
      ∀ pair ∈ pairs, ∃ sid b c,
        (sid, b) ∈ baseline ∧ (sid, c) ∈ candidate ∧ pair = comparePair sid b c := by
  induction baseline with
  | nil => exact ⟨[], rfl, by simp⟩
  | cons entry rest ih =>
    obtain ⟨pairs, compared, known⟩ := ih fun sid listed => covered sid (.tail _ listed)
    obtain ⟨c, found⟩ := Dict.mem_keys_iff.mp (covered entry.1 (.head _))
    refine ⟨comparePair entry.1 entry.2 c :: pairs, ?_, fun pair member => ?_⟩
    · rw [comparePairs] at compared ⊢
      rw [List.mapM_cons, found, compared]
      rfl
    · rcases List.mem_cons.mp member with rfl | later
      · exact ⟨_, _, _, .head _, Dict.mem_of_get?_eq_some found, rfl⟩
      · obtain ⟨sid, b, c, inBase, inCandidate, rfl⟩ := known pair later
        exact ⟨sid, b, c, .tail _ inBase, inCandidate, rfl⟩

/-- A case whose runs all pass is no regression. -/
theorem change_comparePair_ne_regression (sid : String) (any : 0 < c.planned)
    (all : c.passed = c.planned) (le : b.passed ≤ b.planned) :
    (comparePair sid b c).change ≠ .regression := by
  have one : (c.passed : ℚ) / c.planned = 1 := by
    rw [all, div_self (Nat.cast_ne_zero.mpr any.ne')]
  have most : (b.passed : ℚ) / b.planned ≤ 1 :=
    div_le_one_of_le₀ (Nat.cast_le.mpr le) (Nat.cast_nonneg _)
  have delta : ¬ (c.passed : ℚ) / c.planned - b.passed / b.planned < 0 := by
    rw [one, sub_neg, not_lt]
    exact most
  simp only [comparePair, if_neg delta]
  split_ifs <;> simp

end Pairs

/-! ### The decision -/

section Decision

theorem reasonIf_eq_nil_iff {applies : Prop} [Decidable applies] {reason : String} :
    reasonIf applies reason = [] ↔ ¬ applies := by
  by_cases h : applies <;> simp [reasonIf, h]

/-- There is no reason to hold. -/
theorem decisionReasons_eq_nil_iff {duplicates : List RunKey} {baseline candidate : Summary}
    {pairs : List Pair} : decisionReasons report duplicates baseline candidate pairs = [] ↔
      duplicates = [] ∧ (baseline.valid = baseline.planned ∧ candidate.valid = candidate.planned) ∧
        gateFailures report.rows = [] ∧ (∀ pair ∈ pairs, pair.change ≠ .regression) ∧
        candidate.passed = candidate.planned ∧ report.mode = .live := by
  have live : ¬ report.mode = .scripted ↔ report.mode = .live := by
    cases report.mode <;> simp
  simp only [decisionReasons, List.append_eq_nil_iff, reasonIf_eq_nil_iff, not_not, not_or,
    ne_eq, not_exists, not_and, live, and_assoc]

/-- A candidate that passed violates nothing. -/
theorem gateFailures_eq_nil
    (passed : ∀ row ∈ rows, row.artifact.release = "candidate" → row.Passed) :
    gateFailures rows = [] := by
  rw [gateFailures, List.flatMap_eq_nil_iff]
  intro row listed
  obtain ⟨listed, release⟩ := List.mem_filter.mp listed
  rw [List.filter_eq_nil_iff]
  intro v reported
  have pass := (passed row listed (of_decide_eq_true release)).settled v reported
  rw [List.mem_singleton.mp pass]
  simp

/-- What holds of the rows found for the planned runs of a release holds of all rows of
the release, if the rows are those planned. -/
theorem forall_planned_iff {release : String} {q : Row → Prop}
    (distinct : (rows.map fun row => row.artifact.key).Nodup)
    (exact : ∀ k, k ∈ rows.map (fun row => row.artifact.key) ↔ k ∈ report.plan.map Planned.key) :
    (∀ p ∈ report.plan, p.release = release →
      ∃ row, (collectRows planned rows).1.get? p.key = some row ∧ q row) ↔
      ∀ row ∈ rows, row.artifact.release = release → q row := by
  constructor
  · intro found row listed own
    obtain ⟨p, member, same⟩ :=
      List.mem_map.mp ((exact row.artifact.key).mp (List.mem_map.mpr ⟨row, listed, rfl⟩))
    obtain ⟨other, there, holds⟩ := found p member (Eq.trans (congrArg Prod.fst same) own)
    have here : (collectRows planned rows).1.get? p.key = some row :=
      (get?_collectRows distinct).mpr ⟨listed, same.symm⟩
    rwa [Option.some.inj (here.symm.trans there)]
  · intro holds p member own
    obtain ⟨row, listed, same⟩ :=
      List.mem_map.mp ((exact p.key).mpr (List.mem_map.mpr ⟨p, member, rfl⟩))
    refine ⟨row, (get?_collectRows distinct).mpr ⟨listed, same⟩, holds row listed ?_⟩
    exact Eq.trans (congrArg Prod.fst same) own

/-- A comparison has no reason to hold exactly if the report is ready. -/
theorem reasons_eq_nil_iff {pairs : List Pair} (fair : report.Fair)
    (known : ∀ pair ∈ pairs, ∃ sid b c, (sid, b) ∈ (report.summary "baseline").cases ∧
      (sid, c) ∈ (report.summary "candidate").cases ∧ pair = comparePair sid b c) :
    decisionReasons report report.misplaced (report.summary "baseline")
      (report.summary "candidate") pairs = [] ↔ report.Ready := by
  rw [decisionReasons_eq_nil_iff, collectRows_snd_eq_nil_iff, valid_summarize_iff,
    valid_summarize_iff, passed_summarize_iff]
  constructor
  · intro ⟨⟨distinct, listed⟩, ⟨judged, judged'⟩, _, _, passed, live⟩
    rw [live] at judged judged' passed
    simp only [valid_plannedStatus_iff, plannedStatus_eq_pass_iff] at judged judged' passed
    have exact' : ∀ k, k ∈ report.rows.map (fun row => row.artifact.key) ↔
        k ∈ report.plan.map Planned.key := by
      intro k
      constructor
      · intro reported
        obtain ⟨row, member, rfl⟩ := List.mem_map.mp reported
        exact listed row member
      · intro scheduled
        obtain ⟨p, member, rfl⟩ := List.mem_map.mp scheduled
        have found : ∃ row, report.found.get? p.key = some row ∧ row.Judged := by
          -- The plan runs no other release, and what it runs was judged.
          rcases List.mem_cons.mp (fair.release_mem p member) with own | own
          · exact judged p member own
          · exact judged' p member (List.mem_singleton.mp own)
        obtain ⟨row, found, -⟩ := found
        obtain ⟨here, same⟩ := (get?_collectRows distinct).mp found
        exact List.mem_map.mpr ⟨row, here, same⟩
    exact ⟨live, distinct, exact', (forall_planned_iff distinct exact').mp judged,
      (forall_planned_iff distinct exact').mp passed⟩
  · intro ⟨live, distinct, exact', judged, passed⟩
    have passes : ∀ p ∈ report.plan, p.release = "candidate" →
        plannedStatus report.mode report.found p = .pass := by
      simp only [live, plannedStatus_eq_pass_iff]
      exact (forall_planned_iff distinct exact').mpr passed
    refine ⟨⟨distinct, fun row listed => ?_⟩, ⟨?_, ?_⟩, gateFailures_eq_nil passed, ?_, passes,
      live⟩
    · exact (exact' _).mp (List.mem_map.mpr ⟨row, listed, rfl⟩)
    · simp only [live, valid_plannedStatus_iff]
      exact (forall_planned_iff distinct exact').mpr judged
    · exact fun p member own => .inl (passes p member own)
    · intro pair member
      obtain ⟨sid, b, c, inBase, inCandidate, rfl⟩ := known pair member
      obtain ⟨runs, -, rfl, -⟩ := exists_runs_of_mem_cases inBase
      obtain ⟨runs', any, rfl, own⟩ := exists_runs_of_mem_cases inCandidate
      refine change_comparePair_ne_regression sid (List.length_pos_iff.mpr any) ?_
        List.countP_le_length
      refine List.countP_eq_length.mpr fun run counted => ?_
      obtain ⟨p, planned, release, same⟩ := own run counted
      rw [same, decide_eq_true (passes p planned release)]

/-- **The gate of a comparison.** A comparison of a fair plan comes to an end, and is
ready for a human exactly if the report is. -/
theorem compare_ready_iff (samples : List ℚ → List (List ℚ)) (report : Report)
    (fair : report.Fair) :
    ∃ c, compare samples report = .ok c ∧
      (c.decision = .readyForHumanReview ↔ report.Ready) ∧
      (c.decision = .hold ↔ ¬ report.Ready) := by
  have covered : ∀ sid ∈ (report.summary "baseline").cases.keys,
      sid ∈ (report.summary "candidate").cases.keys := by
    intro sid listed
    rw [mem_keys_cases_iff] at listed ⊢
    exact (fair.same sid).mp listed
  obtain ⟨pairs, compared, known⟩ := comparePairs_ok covered
  have decided := reasons_eq_nil_iff fair known
  rw [compare, compared]
  refine ⟨_, rfl, ?_⟩
  dsimp only
  split_ifs with none
  · simp [decided.mp none]
  · simp [mt decided.mpr none]

/-- A row whose verdict on the outcome is given, and all others pass. -/
def judgedRow (release : String) (outcome : VerdictStatus) : Row where
  artifact :=
    { scenarioId := "paid", release, trial := 1
      request :=
        { message := "cancel", orderId := none, requestId := "r",
          message_ne := by decide, requestId_ne := by decide }
      executionStatus := .completed, initialState := [], finalState := none, events := []
      response := none }
  modelCalls := 1
  costUsd := none
  elapsedSeconds := 1
  verdicts := liveVerdicts.map fun name =>
    { name, status := if name = "outcome" then outcome else .pass, reason := "" }

/-- A live report of one case, which the baseline fails and the candidate passes. -/
def improvedReport : Report where
  mode := .live
  plan := [⟨"paid", "baseline", 1, "core"⟩, ⟨"paid", "candidate", 1, "core"⟩]
  rows := [judgedRow "candidate" .pass, judgedRow "baseline" .fail]

theorem compare_ready_iff_improvedReport :
    ∃ c, compare (fun _ => []) improvedReport = .ok c ∧ c.decision = .readyForHumanReview := by
  have fair : improvedReport.Fair :=
    ⟨by decide, by decide, fun sid => by simp [improvedReport]⟩
  have settled : ∀ row ∈ improvedReport.rows,
      row.artifact.executionStatus = .completed ∧ liveVerdicts ⊆ row.verdicts.map Verdict.name ∧
        (∀ v ∈ row.verdicts, v.status ∈ [VerdictStatus.pass, .fail]) ∧
        (row.artifact.release = "candidate" →
          ∀ v ∈ row.verdicts, v.status ∈ [VerdictStatus.pass]) := by
    decide
  have ready : improvedReport.Ready := by
    refine ⟨rfl, by decide, fun k => ?_, fun row listed _ => ?_, fun row listed own => ?_⟩
    · simp [improvedReport, judgedRow, Artifact.key, Planned.key, or_comm]
    · obtain ⟨completed, complete, judged, -⟩ := settled row listed
      exact ⟨completed, complete, judged⟩
    · obtain ⟨completed, complete, -, passed⟩ := settled row listed
      exact ⟨completed, complete, passed own⟩
  obtain ⟨c, compared, decided, -⟩ := compare_ready_iff (fun _ => []) improvedReport fair
  exact ⟨c, compared, decided.mpr ready⟩

end Decision

end AgentLabs.BusinessLab
