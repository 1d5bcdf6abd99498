import AgentLabs.BusinessLab.Artifact
import AgentLabs.Math.Dict
import AgentLabs.Math.Monitor
import Mathlib.Data.List.Dedup
import Mathlib.Data.List.Perm.Basic
import Mathlib.Data.List.Sort
import Mathlib.Data.Rat.Defs

/-!
# Calibrating the judge against people

A person labels rows of a scored report as passed or failed, and each labelled row is put
beside the verdict of the judge. What is not labelled and what the judge did not score is
counted apart. Families of scenarios are split into two halves, and the count is made
for each half as well.

## Main definitions

* `calibrate`: the count of a list of labels
* `calibratePartitions`: the count, and the counts of the two halves
* `bucketOf`: where a row belongs, by its label and its verdict
* `CalibrationLaw`: what the counts say

## Main results

* `calibrate_eq_ok_iff`: which labels are accepted, and what is counted
* `calibrationLaw_of_accepted`: the counts of accepted labels say what they should
-/

namespace AgentLabs.BusinessLab

open Math Text

/-! ### Rows and labels -/

/-- A row of a scored report. -/
structure ReviewRow where
  artifactId : String
  scenarioId : String
  verdicts : List Verdict

/-- A label, as it stands in the table that a person filled in. -/
structure HumanLabel where
  artifactId : String
  rubricVersion : String
  humanVerdict : String
  reviewer : String
  reason : String

/-- What is counted. -/
inductive Bucket where
  | truePass
  | falsePass
  | falseReject
  | trueFail
  | pending
  | judgeUnscored
  deriving DecidableEq, Repr

/-- The exceptions. -/
inductive CalibrationError where
  | valueError (message : String)
  | keyError (key : String)
  deriving DecidableEq, Repr

/-- `RESPONSE_RUBRIC_VERSION`. -/
def responseRubricVersion : String := "order-response-v3"

/-- The verdict of the judge beside that of a person. -/
def judgedBucket (row : ReviewRow) (human : String) : Bucket :=
  match row.verdicts.filter fun v => v.name = "response_semantics" with
  | [v] =>
    match v.status with
    | .pass => if human = "PASS" then .truePass else .falsePass
    | .fail => if human = "PASS" then .falseReject else .trueFail
    | _ => .judgeUnscored
  | _ => .judgeUnscored

/-- Where a labelled row is counted. -/
def labelBucket (row : ReviewRow) (label : HumanLabel) : Bucket :=
  if strip label.humanVerdict = "" then .pending else judgedBucket row (strip label.humanVerdict)

/-- A label that says something says it in full. -/
def HumanLabel.Complete (label : HumanLabel) : Prop :=
  strip label.humanVerdict ∈ ["PASS", "FAIL"] ∧ strip label.reviewer ≠ "" ∧ strip label.reason ≠ ""

instance : DecidablePred HumanLabel.Complete := fun _ =>
  inferInstanceAs (Decidable (_ ∧ _ ∧ _))

/-! ### The count -/

/-- One more in a bucket. -/
def bump (counts : Bucket → ℕ) (b : Bucket) (n : ℕ) : Bucket → ℕ :=
  Function.update counts b (counts b + n)

/-- The counts, what is matched, and the rates of the judge's errors. -/
structure Calibration where
  counts : Bucket → ℕ
  matched : ℕ
  falsePassRate : Option ℚ
  falseRejectRate : Option ℚ

/-- A rate, if there is anything to divide by. -/
def rate (part whole : ℕ) : Option ℚ := if whole = 0 then none else some (part / whole)

/-- The rows that a person passed and the judge scored. -/
def positives (counts : Bucket → ℕ) : ℕ := counts .truePass + counts .falseReject

/-- The rows that a person failed and the judge scored. -/
def negatives (counts : Bucket → ℕ) : ℕ := counts .trueFail + counts .falsePass

/-- What is reported of the counts. -/
def summarise (counts : Bucket → ℕ) : Calibration where
  counts
  matched := positives counts + negatives counts
  falsePassRate := rate (counts .falsePass) (negatives counts)
  falseRejectRate := rate (counts .falseReject) (positives counts)

/-- One label, with the counts and the ids seen so far. -/
def calibrateStep (byId : Dict String ReviewRow) (rubric : String)
    (state : (Bucket → ℕ) × List String)
    (label : HumanLabel) : Except CalibrationError ((Bucket → ℕ) × List String) :=
  match byId.get? label.artifactId with
  | none => .error (.valueError "중복·다른 실행의 artifact 또는 다른 rubric입니다.")
  | some row =>
    if label.artifactId ∈ state.2 ∨ label.rubricVersion ≠ responseRubricVersion ∨
        rubric ≠ responseRubricVersion then
      .error (.valueError "중복·다른 실행의 artifact 또는 다른 rubric입니다.")
    else if strip label.humanVerdict ≠ "" ∧ ¬ label.Complete then
      .error (.valueError "사람 판정에는 PASS/FAIL, 담당자, 판단 근거가 필요합니다.")
    else .ok (bump state.1 (labelBucket row label) 1, state.2 ++ [label.artifactId])

/-- `calibrate`. Rows without a label are pending. -/
def calibrate (rubric : String) (rows : List ReviewRow) (labels : List HumanLabel) :
    Except CalibrationError Calibration :=
  let byId := Dict.setAll [] (rows.map fun row => (row.artifactId, row))
  match labels.foldlM (calibrateStep byId rubric) (fun _ => 0, []) with
  | .error e => .error e
  | .ok (counts, seen) =>
    .ok (summarise (bump counts .pending (byId.keys.filter fun id => id ∉ seen).length))

/-! ### The two halves -/

/-- The halves. -/
inductive Split where
  | calibration
  | validation
  deriving DecidableEq, Repr

/-- How a half is spelled. -/
def Split.name : Split → String
  | .calibration => "calibration"
  | .validation => "validation"

/-- A scored report: its rubric, its rows, and the family of each scenario card. -/
structure ScoredReport where
  rubric : String
  rows : List ReviewRow
  cards : List (String × String)

namespace ScoredReport

variable (scored : ScoredReport)

/-- The family of each scenario; the last card decides. -/
def cardFamilies : Dict String String := Dict.setAll [] scored.cards

/-- The half of each family: families in order, one to each half in turn. -/
def familyPartitions : Dict String Split :=
  ((scored.cardFamilies.map Prod.snd).dedup.insertionSort (· ≤ ·)).zipIdx.map fun family =>
    (family.1, if family.2 % 2 = 0 then .calibration else .validation)

/-- The family of a row. -/
def familyOf? (row : ReviewRow) : Option String := scored.cardFamilies.get? row.scenarioId

/-- The half of a row. -/
def splitOf? (row : ReviewRow) : Option Split :=
  (scored.familyOf? row).bind scored.familyPartitions.get?

/-- The rows of a half. A row whose scenario has no card raises. -/
def rowsOf (split : Split) : Except CalibrationError (List ReviewRow) :=
  match scored.rows.find? fun row => (scored.splitOf? row).isNone with
  | some row => .error (.keyError row.scenarioId)
  | none => .ok (scored.rows.filter fun row => scored.splitOf? row = some split)

end ScoredReport

/-- The status of a calibration. -/
inductive CalibrationStatus where
  | pending
  | insufficientCoverage
  | reviewed
  deriving DecidableEq, Repr

/-- The report on a calibration. The ids of the runs it is about are left out. -/
structure PartitionReport where
  rubricVersion : String
  familyPartitions : Dict String Split
  total : Calibration
  parts : Split → Calibration
  coverageGaps : List String
  status : CalibrationStatus

/-- What is missing of a half. -/
def gapsOf (split : Split) (part : Calibration) : List String :=
  (if part.falsePassRate = none then [split.name ++ ": false_pass_rate 분모 없음"] else []) ++
    if part.falseRejectRate = none then [split.name ++ ": false_reject_rate 분모 없음"] else []

/-- The status of a calibration with such gaps. -/
def calibrationStatus (total : Calibration) (gaps : List String) : CalibrationStatus :=
  if total.counts .pending ≠ 0 ∨ total.counts .judgeUnscored ≠ 0 then .pending
  else if gaps ≠ [] then .insufficientCoverage
  else .reviewed

/-- The count of one half, over its rows and their labels. -/
def calibrateSplit (scored : ScoredReport) (labels : List HumanLabel) (split : Split) :
    Except CalibrationError Calibration := do
  let rows ← scored.rowsOf split
  calibrate scored.rubric rows
    (labels.filter fun label => label.artifactId ∈ rows.map ReviewRow.artifactId)

/-- `calibrate_partitions`. -/
def calibratePartitions (scored : ScoredReport) (labels : List HumanLabel) :
    Except CalibrationError PartitionReport := do
  let total ← calibrate scored.rubric scored.rows labels
  let calibration ← calibrateSplit scored labels .calibration
  let validation ← calibrateSplit scored labels .validation
  let gaps := gapsOf .calibration calibration ++ gapsOf .validation validation
  pure
    { rubricVersion := scored.rubric
      familyPartitions := scored.familyPartitions
      total
      parts := fun
        | .calibration => calibration
        | .validation => validation
      coverageGaps := gaps
      status := calibrationStatus total gaps }

/-! ### What the counts say -/

/-- Where a row belongs, by the label that names it and the verdict of the judge. -/
def bucketOf (labels : List HumanLabel) (row : ReviewRow) : Bucket :=
  match labels.find? fun label => label.artifactId = row.artifactId with
  | none => .pending
  | some label => labelBucket row label

/-- The labels name different rows, and are of the rubric and complete where they say
something. -/
structure Accepted (rubric : String) (rows : List ReviewRow) (labels : List HumanLabel) : Prop where
  distinct : (labels.map HumanLabel.artifactId).Nodup
  known : ∀ label ∈ labels, label.artifactId ∈ rows.map ReviewRow.artifactId
  current : ∀ label ∈ labels, label.rubricVersion = responseRubricVersion ∧ rubric =
    responseRubricVersion
  complete : ∀ label ∈ labels, strip label.humanVerdict = "" ∨ label.Complete

/-- What the counts of a calibration say. -/
structure CalibrationLaw (scored : ScoredReport) (labels : List HumanLabel)
    (report : PartitionReport) :
    Prop where
  cells : ∀ b, report.total.counts b = scored.rows.countP fun row => bucketOf labels row = b
  sums : ∀ b, report.total.counts b =
    (report.parts .calibration).counts b + (report.parts .validation).counts b
  matched : report.total.matched =
    (report.parts .calibration).matched + (report.parts .validation).matched
  halves : ∀ row ∈ scored.rows, ∃ split, scored.splitOf? row = some split
  parts : ∀ split b, (report.parts split).counts b =
    scored.rows.countP fun row => scored.splitOf? row = some split ∧ bucketOf labels row = b
  families : ∀ row row', scored.familyOf? row = scored.familyOf? row' →
    scored.splitOf? row = scored.splitOf? row'
  reviewed : report.status = .reviewed ↔
    (∀ row ∈ scored.rows, bucketOf labels row ∉ [.pending, .judgeUnscored]) ∧
      ∀ split,
        (∃ row ∈ scored.rows, scored.splitOf? row = some split ∧
          bucketOf labels row ∈ [.truePass, .falseReject]) ∧
        ∃ row ∈ scored.rows, scored.splitOf? row = some split ∧
          bucketOf labels row ∈ [.trueFail, .falsePass]

/-! ### One list of labels -/

section

variable {byId : Dict String ReviewRow} {rubric : String} {rows : List ReviewRow}
  {labels : List HumanLabel} {counts counts' : Bucket → ℕ} {seen seen' : List String}

/-- The bucket of a label, by the row it names. -/
def bucketAt (byId : Dict String ReviewRow) (label : HumanLabel) : Bucket :=
  match byId.get? label.artifactId with
  | none => .pending
  | some row => labelBucket row label

/-- The label passes on its own. -/
structure LabelPasses (byId : Dict String ReviewRow) (rubric : String) (label : HumanLabel) :
    Prop where
  known : label.artifactId ∈ byId.keys
  current : label.rubricVersion = responseRubricVersion ∧ rubric = responseRubricVersion
  complete : strip label.humanVerdict = "" ∨ label.Complete

theorem calibrateStep_eq_ok_iff {label : HumanLabel} :
    calibrateStep byId rubric (counts, seen) label = .ok (counts', seen') ↔
      (LabelPasses byId rubric label ∧ label.artifactId ∉ seen) ∧
        counts' = bump counts (bucketAt byId label) 1 ∧ seen' = seen ++ [label.artifactId] := by
  unfold calibrateStep bucketAt
  cases found : byId.get? label.artifactId with
  | none =>
    have missing := Dict.get?_eq_none_iff.mp found
    constructor
    · intro ok
      cases ok
    · intro passed
      exact absurd passed.1.1.known missing
  | some row =>
    have known := Dict.mem_keys_iff.mpr ⟨row, found⟩
    dsimp only
    -- The two raises of the step, in the order of the source.
    split_ifs with refused vague
    · refine iff_of_false (by simp) fun passed => ?_
      obtain ⟨⟨⟨-, ⟨version, current⟩, -⟩, fresh⟩, -⟩ := passed
      rcases refused with again | other | other
      exacts [fresh again, other version, other current]
    · refine iff_of_false (by simp) fun passed => ?_
      rcases passed.1.1.complete with blank | complete
      exacts [vague.1 blank, vague.2 complete]
    · simp only [not_or, not_not] at refused
      obtain ⟨fresh, version, current⟩ := refused
      have complete : strip label.humanVerdict = "" ∨ label.Complete := by
        by_contra neither
        exact vague (not_or.mp neither)
      rw [Except.ok.injEq, Prod.mk.injEq]
      constructor
      · intro same
        exact ⟨⟨⟨known, ⟨version, current⟩, complete⟩, fresh⟩, same.1.symm, same.2.symm⟩
      · intro passed
        exact ⟨passed.2.1.symm, passed.2.2.symm⟩

theorem bump_apply (b c : Bucket) (n : ℕ) :
    bump counts b n c = counts c + if b = c then n else 0 := by
  unfold bump
  by_cases same : c = b
  · rw [same, Function.update_self, if_pos rfl]
  · rw [Function.update_of_ne same, if_neg (Ne.symm same), Nat.add_zero]

/-- What a list of labels does: it passes if each label does and none names a row again,
and each label is counted once. -/
theorem foldlM_calibrateStep :
    labels.foldlM (calibrateStep byId rubric) (counts, seen) = .ok (counts', seen') ↔
      ((∀ label ∈ labels, LabelPasses byId rubric label) ∧
        (labels.map HumanLabel.artifactId).Nodup ∧
        ∀ label ∈ labels, label.artifactId ∉ seen) ∧
      counts' = (fun b => counts b + labels.countP fun label => bucketAt byId label = b) ∧
        seen' = seen ++ labels.map HumanLabel.artifactId := by
  induction labels generalizing counts seen with
  | nil =>
    simp only [List.foldlM_nil, List.map_nil, List.append_nil, List.countP_nil, Nat.add_zero]
    constructor
    · intro ok
      obtain ⟨rfl, rfl⟩ := Prod.mk.inj (Except.ok.inj ok)
      exact ⟨⟨by simp, List.nodup_nil, by simp⟩, rfl, rfl⟩
    · intro passed
      rw [passed.2.1, passed.2.2]
      rfl
  | cons label rest ih =>
    -- Counting the first label before the rest is counting them all.
    have counted : (fun b => bump counts (bucketAt byId label) 1 b +
          rest.countP fun label => bucketAt byId label = b) =
        fun b => counts b + (label :: rest).countP fun label => bucketAt byId label = b := by
      funext b
      rw [bump_apply, List.countP_cons]
      simp only [decide_eq_true_eq]
      omega
    rw [foldlM_cons_eq_ok_iff]
    constructor
    · intro ok
      obtain ⟨⟨middle, mid⟩, first, later⟩ := ok
      obtain ⟨⟨passes, fresh⟩, rfl, rfl⟩ := calibrateStep_eq_ok_iff.mp first
      obtain ⟨⟨all, nodup, unseen⟩, rfl, rfl⟩ := ih.mp later
      refine ⟨⟨?_, ?_, ?_⟩, counted, by simp⟩
      · exact List.forall_mem_cons.mpr ⟨passes, all⟩
      · refine List.nodup_cons.mpr ⟨fun again => ?_, nodup⟩
        obtain ⟨other, listed, same⟩ := List.mem_map.mp again
        exact unseen other listed (by simp [same])
      · refine List.forall_mem_cons.mpr ⟨fresh, fun other listed before => ?_⟩
        exact unseen other listed (List.mem_append_left _ before)
    · intro passed
      obtain ⟨⟨all, nodup, unseen⟩, rfl, rfl⟩ := passed
      obtain ⟨passes, others⟩ := List.forall_mem_cons.mp all
      obtain ⟨fresh, unseenRest⟩ := List.forall_mem_cons.mp unseen
      obtain ⟨head, tail⟩ := List.nodup_cons.mp nodup
      refine ⟨_, calibrateStep_eq_ok_iff.mpr ⟨⟨passes, fresh⟩, rfl, rfl⟩, ih.mpr ?_⟩
      refine ⟨⟨others, tail, fun other listed before => ?_⟩, counted.symm, by simp⟩
      rcases List.mem_append.mp before with earlier | now
      · exact unseenRest other listed earlier
      · exact head (List.mem_map.mpr ⟨other, listed, List.mem_singleton.mp now⟩)

end

/-! ### Labels and rows -/

section

variable {rubric : String} {rows : List ReviewRow} {labels : List HumanLabel} {total : Calibration}

/-- The row is named by a label. -/
def Labelled (labels : List HumanLabel) (row : ReviewRow) : Prop :=
  row.artifactId ∈ labels.map HumanLabel.artifactId

instance (labels : List HumanLabel) : DecidablePred (Labelled labels) := fun _ =>
  inferInstanceAs (Decidable (_ ∈ _))

theorem bucketOf_of_not_labelled {row : ReviewRow} (h : ¬ Labelled labels row) :
    bucketOf labels row = .pending := by
  have none : labels.find? (fun label => label.artifactId = row.artifactId) = none := by
    rw [List.find?_eq_none]
    intro label listed same
    exact h (List.mem_map.mpr ⟨label, listed, by simpa using same⟩)
  simp only [bucketOf, none]

/-- The rows by their ids, where no two have one. -/
theorem byId_eq (distinct : (rows.map ReviewRow.artifactId).Nodup) :
    Dict.setAll [] (rows.map fun row => (row.artifactId, row)) =
      rows.map fun row => (row.artifactId, row) := by
  apply Dict.setAll_eq_append (d := [])
  · rwa [List.map_map]
  · exact fun _ _ stored => absurd stored List.not_mem_nil

theorem get?_byId (distinct : (rows.map ReviewRow.artifactId).Nodup) {row : ReviewRow}
    (h : row ∈ rows) :
    (Dict.setAll [] (rows.map fun row => (row.artifactId, row))).get? row.artifactId =
      some row := by
  apply Dict.get?_setAll_of_mem
  · rwa [List.map_map]
  · exact List.mem_map.mpr ⟨row, h, rfl⟩

/-- A label counts where its row belongs. -/
theorem bucketAt_eq (distinct : (rows.map ReviewRow.artifactId).Nodup)
    (once : (labels.map HumanLabel.artifactId).Nodup) {row : ReviewRow} (h : row ∈ rows)
    {label : HumanLabel} (listed : label ∈ labels) (same : label.artifactId = row.artifactId) :
    bucketAt (Dict.setAll [] (rows.map fun row => (row.artifactId, row))) label =
      bucketOf labels row := by
  have found : labels.find? (fun label => label.artifactId = row.artifactId) = some label := by
    obtain ⟨other, first⟩ : ∃ other,
        labels.find? (fun label => label.artifactId = row.artifactId) = some other := by
      rw [← Option.isSome_iff_exists, List.find?_isSome]
      exact ⟨label, listed, by simpa using same⟩
    have named : other.artifactId = row.artifactId := by simpa using List.find?_some first
    rw [first, List.inj_on_of_nodup_map once (List.mem_of_find?_eq_some first) listed
      (named.trans same.symm)]
  unfold bucketAt bucketOf
  rw [same, get?_byId distinct h, found]

/-- The bucket of the row under an id. -/
def bucketBy (rows : List ReviewRow) (labels : List HumanLabel) (id : String) : Bucket :=
  ((rows.find? fun row => row.artifactId = id).map (bucketOf labels)).getD .pending

theorem bucketBy_artifactId (distinct : (rows.map ReviewRow.artifactId).Nodup) {row : ReviewRow}
    (h : row ∈ rows) : bucketBy rows labels row.artifactId = bucketOf labels row := by
  obtain ⟨other, first⟩ : ∃ other,
      rows.find? (fun other => other.artifactId = row.artifactId) = some other := by
    rw [← Option.isSome_iff_exists, List.find?_isSome]
    exact ⟨row, h, by simp⟩
  have named : other.artifactId = row.artifactId := by simpa using List.find?_some first
  have same := List.inj_on_of_nodup_map distinct (List.mem_of_find?_eq_some first) h named
  rw [bucketBy, first, same]
  rfl

/-- The ids that are named are the ids of the labels. -/
theorem perm_labelled (distinct : (rows.map ReviewRow.artifactId).Nodup)
    (once : (labels.map HumanLabel.artifactId).Nodup)
    (known : ∀ label ∈ labels, label.artifactId ∈ rows.map ReviewRow.artifactId) :
    (labels.map HumanLabel.artifactId).Perm
      ((rows.filter fun row => Labelled labels row).map ReviewRow.artifactId) := by
  rw [List.perm_ext_iff_of_nodup once (distinct.sublist (List.filter_sublist.map _))]
  intro id
  constructor
  · intro listed
    obtain ⟨label, isLabel, rfl⟩ := List.mem_map.mp listed
    obtain ⟨row, isRow, same⟩ := List.mem_map.mp (known label isLabel)
    refine List.mem_map.mpr ⟨row, List.mem_filter.mpr ⟨isRow, ?_⟩, same⟩
    rw [decide_eq_true_eq, Labelled, same]
    exact listed
  · intro listed
    obtain ⟨row, kept, rfl⟩ := List.mem_map.mp listed
    exact of_decide_eq_true (List.mem_filter.mp kept).2

/-- **Labels are counted as their rows are.** -/
theorem countP_labels (distinct : (rows.map ReviewRow.artifactId).Nodup)
    (once : (labels.map HumanLabel.artifactId).Nodup)
    (known : ∀ label ∈ labels, label.artifactId ∈ rows.map ReviewRow.artifactId) (b : Bucket) :
    (labels.countP fun label =>
        bucketAt (Dict.setAll [] (rows.map fun row => (row.artifactId, row))) label = b) =
      (rows.filter fun row => Labelled labels row).countP fun row => bucketOf labels row = b := by
  -- Both sides count the ids that are named, by the bucket of the row under the id.
  have left : (labels.map HumanLabel.artifactId).countP (fun id => bucketBy rows labels id = b) =
      labels.countP fun label =>
        bucketAt (Dict.setAll [] (rows.map fun row => (row.artifactId, row))) label = b := by
    rw [List.countP_map]
    apply List.countP_congr
    intro label listed
    obtain ⟨row, isRow, same⟩ := List.mem_map.mp (known label listed)
    rw [bucketAt_eq distinct once isRow listed same.symm, Function.comp_apply, ← same,
      bucketBy_artifactId distinct isRow]
  have right : ((rows.filter fun row => Labelled labels row).map ReviewRow.artifactId).countP
      (fun id => bucketBy rows labels id = b) =
      (rows.filter fun row => Labelled labels row).countP fun row => bucketOf labels row = b := by
    rw [List.countP_map]
    apply List.countP_congr
    intro row kept
    rw [Function.comp_apply, bucketBy_artifactId distinct (List.mem_filter.mp kept).1]
  rw [← left, ← right]
  exact (perm_labelled distinct once known).countP_eq _

/-- The rows that no label names. -/
theorem length_filter_notMem (distinct : (rows.map ReviewRow.artifactId).Nodup) :
    ((Dict.setAll [] (rows.map fun row => (row.artifactId, row))).keys.filter
        fun id => id ∉ labels.map HumanLabel.artifactId).length =
      (rows.filter fun row => ¬ Labelled labels row).length := by
  rw [byId_eq distinct, Dict.keys, List.map_map, List.filter_map, List.length_map]
  rfl

/-- A property of rows is counted over the rows that are named and the rest. -/
theorem countP_labelled_add (b : Bucket) :
    rows.countP (fun row => bucketOf labels row = b) =
      (rows.filter fun row => Labelled labels row).countP (fun row => bucketOf labels row = b) +
        if Bucket.pending = b then (rows.filter fun row => ¬ Labelled labels row).length else
          0 := by
  induction rows with
  | nil => simp
  | cons row rest ih =>
    by_cases named : Labelled labels row
    · rw [List.filter_cons_of_pos (by simpa using named),
        List.filter_cons_of_neg (by simpa using named), List.countP_cons, List.countP_cons, ih]
      omega
    · rw [List.filter_cons_of_neg (by simpa using named),
        List.filter_cons_of_pos (by simpa using named), List.countP_cons, ih,
        bucketOf_of_not_labelled named, List.length_cons]
      simp only [decide_eq_true_eq]
      split_ifs
      · omega
      · rfl

/-- **Which labels are accepted, and what is counted**: each row where it belongs. -/
theorem calibrate_eq_ok_iff (distinct : (rows.map ReviewRow.artifactId).Nodup) :
    calibrate rubric rows labels = .ok total ↔
      Accepted rubric rows labels ∧
        total = summarise fun b => rows.countP fun row => bucketOf labels row = b := by
  have keys : (Dict.setAll [] (rows.map fun row => (row.artifactId, row))).keys =
      rows.map ReviewRow.artifactId := by
    rw [byId_eq distinct, Dict.keys, List.map_map]
    rfl
  have accepted : ((∀ label ∈ labels,
        LabelPasses (Dict.setAll [] (rows.map fun row => (row.artifactId, row))) rubric label) ∧
      (labels.map HumanLabel.artifactId).Nodup) ↔ Accepted rubric rows labels := by
    constructor
    · intro passed
      exact ⟨passed.2, fun label listed => keys ▸ (passed.1 label listed).known,
        fun label listed => (passed.1 label listed).current,
        fun label listed => (passed.1 label listed).complete⟩
    · intro passed
      exact ⟨fun label listed => ⟨keys ▸ passed.known label listed, passed.current label listed,
        passed.complete label listed⟩, passed.distinct⟩
  -- What the loop counts and the rows without a label add up to all rows.
  have counted (passed : Accepted rubric rows labels) :
      bump (fun b => 0 + labels.countP fun label =>
          bucketAt (Dict.setAll [] (rows.map fun row => (row.artifactId, row))) label = b) .pending
        ((Dict.setAll [] (rows.map fun row => (row.artifactId, row))).keys.filter
          fun id => id ∉ [] ++ labels.map HumanLabel.artifactId).length =
      fun b => rows.countP fun row => bucketOf labels row = b := by
    funext b
    rw [bump_apply, countP_labels distinct passed.distinct passed.known, List.nil_append,
      length_filter_notMem distinct, Nat.zero_add]
    exact (countP_labelled_add b).symm
  unfold calibrate
  dsimp only
  cases walk : labels.foldlM
      (calibrateStep (Dict.setAll [] (rows.map fun row => (row.artifactId, row))) rubric)
      (fun _ => 0, []) with
  | error e =>
    -- An accepted list would have gone through the loop.
    refine iff_of_false (by simp) fun passed => ?_
    have ok : labels.foldlM
        (calibrateStep (Dict.setAll [] (rows.map fun row => (row.artifactId, row))) rubric)
        (fun _ => 0, []) = .ok (_, _) :=
      foldlM_calibrateStep.mpr
        ⟨⟨(accepted.mpr passed.1).1, passed.1.distinct, fun _ _ => List.not_mem_nil⟩, rfl, rfl⟩
    rw [walk] at ok
    cases ok
  | ok state =>
    obtain ⟨counts, seen⟩ := state
    obtain ⟨⟨all, once, -⟩, rfl, rfl⟩ := foldlM_calibrateStep.mp walk
    have passed := accepted.mp ⟨all, once⟩
    dsimp only
    rw [counted passed, Except.ok.injEq]
    exact ⟨fun same => ⟨passed, same.symm⟩, fun same => same.2.symm⟩

/-! ### The halves -/

/-- Labels of other rows do not matter to a row. -/
theorem bucketOf_filter {row : ReviewRow} {kept : HumanLabel → Bool}
    (h : ∀ label ∈ labels, label.artifactId = row.artifactId → kept label) :
    bucketOf (labels.filter kept) row = bucketOf labels row := by
  have same : (labels.filter kept).find? (fun label => label.artifactId = row.artifactId) =
      labels.find? fun label => label.artifactId = row.artifactId := by
    induction labels with
    | nil => rfl
    | cons label rest ih =>
      have others := ih fun other listed => h other (List.mem_cons_of_mem _ listed)
      by_cases named : label.artifactId = row.artifactId
      · rw [List.filter_cons_of_pos (h label List.mem_cons_self named),
          List.find?_cons_of_pos (by simpa using named),
          List.find?_cons_of_pos (by simpa using named)]
      · rw [List.filter_cons, List.find?_cons_of_neg (by simpa using named)]
        split_ifs
        · rw [List.find?_cons_of_neg (by simpa using named), others]
        · exact others
  simp only [bucketOf, same]

/-- What is accepted of a whole is accepted of a part. -/
theorem Accepted.filter (accepted : Accepted rubric rows labels) (kept : ReviewRow → Bool) :
    Accepted rubric (rows.filter kept) (labels.filter fun label =>
      label.artifactId ∈ (rows.filter kept).map ReviewRow.artifactId) where
  distinct := accepted.distinct.sublist (List.filter_sublist.map _)
  known := fun _ listed => of_decide_eq_true (List.mem_filter.mp listed).2
  current := fun label listed => accepted.current label (List.mem_filter.mp listed).1
  complete := fun label listed => accepted.complete label (List.mem_filter.mp listed).1

/-- The count of a part, over its own labels. -/
theorem calibrate_filter (distinct : (rows.map ReviewRow.artifactId).Nodup)
    (accepted : Accepted rubric rows labels) (kept : ReviewRow → Bool) :
    calibrate rubric (rows.filter kept) (labels.filter fun label =>
        label.artifactId ∈ (rows.filter kept).map ReviewRow.artifactId) =
      .ok (summarise fun b => rows.countP fun row => kept row ∧ bucketOf labels row = b) := by
  rw [calibrate_eq_ok_iff (distinct.sublist (List.filter_sublist.map _))]
  refine ⟨accepted.filter kept, congrArg summarise (funext fun b => ?_)⟩
  rw [List.countP_filter]
  apply List.countP_congr
  intro row listed
  by_cases inPart : kept row
  · have own : ∀ label ∈ labels, label.artifactId = row.artifactId →
        label.artifactId ∈ (rows.filter kept).map ReviewRow.artifactId := by
      intro label _ named
      rw [named]
      exact List.mem_map_of_mem (List.mem_filter.mpr ⟨listed, inPart⟩)
    rw [bucketOf_filter fun label isLabel named => decide_eq_true (own label isLabel named)]
    simp [inPart]
  · simp [inPart]

end

/-! ### The two halves together -/

section

variable {scored : ScoredReport} {labels : List HumanLabel} {total : Calibration}

/-- The scenario of each row has a card. -/
def ScoredReport.Carded (scored : ScoredReport) : Prop :=
  ∀ row ∈ scored.rows, row.scenarioId ∈ scored.cards.map Prod.fst

instance : Decidable scored.Carded := inferInstanceAs (Decidable (∀ _ ∈ _, _))

theorem keys_familyPartitions : scored.familyPartitions.keys =
    ((scored.cardFamilies.map Prod.snd).dedup.insertionSort (· ≤ ·)) := by
  rw [Dict.keys, ScoredReport.familyPartitions, List.map_map]
  exact List.zipIdx_map_fst 0 _

/-- A row whose scenario has a card is in a half. -/
theorem exists_splitOf? {row : ReviewRow} (h : row.scenarioId ∈ scored.cards.map Prod.fst) :
    ∃ split, scored.splitOf? row = some split := by
  have known : row.scenarioId ∈ scored.cardFamilies.keys := Dict.mem_keys_setAll.mpr (Or.inr h)
  obtain ⟨family, found⟩ := Dict.mem_keys_iff.mp known
  have listed : family ∈ scored.familyPartitions.keys := by
    rw [keys_familyPartitions, List.mem_insertionSort, List.mem_dedup]
    exact List.mem_map.mpr ⟨_, Dict.mem_of_get?_eq_some found, rfl⟩
  obtain ⟨split, half⟩ := Dict.mem_keys_iff.mp listed
  refine ⟨split, ?_⟩
  rw [ScoredReport.splitOf?, ScoredReport.familyOf?, found, Option.bind_some, half]

theorem rowsOf_eq (carded : scored.Carded) (split : Split) :
    scored.rowsOf split = .ok (scored.rows.filter fun row => scored.splitOf? row = some split) := by
  have none : scored.rows.find? (fun row => (scored.splitOf? row).isNone) = none := by
    rw [List.find?_eq_none]
    intro row listed missing
    obtain ⟨split, half⟩ := exists_splitOf? (carded row listed)
    rw [half] at missing
    cases missing
  simp only [ScoredReport.rowsOf, none]

/-- The counts of a half. -/
def partOf (scored : ScoredReport) (labels : List HumanLabel) (split : Split) (b : Bucket) : ℕ :=
  scored.rows.countP fun row => scored.splitOf? row = some split ∧ bucketOf labels row = b

theorem calibrateSplit_eq (distinct : (scored.rows.map ReviewRow.artifactId).Nodup)
    (carded : scored.Carded) (accepted : Accepted scored.rubric scored.rows labels)
    (split : Split) :
    calibrateSplit scored labels split = .ok (summarise (partOf scored labels split)) := by
  unfold calibrateSplit
  rw [rowsOf_eq carded]
  have counted := calibrate_filter distinct accepted fun row => scored.splitOf? row = some split
  simp only [decide_eq_true_eq] at counted
  exact counted

/-- **The halves add up.** -/
theorem countP_bucketOf_eq_add (carded : scored.Carded) (b : Bucket) :
    (scored.rows.countP fun row => bucketOf labels row = b) =
      partOf scored labels .calibration b + partOf scored labels .validation b := by
  rw [List.countP_eq_countP_filter_add _ _ fun row => scored.splitOf? row = some .calibration]
  unfold partOf
  rw [List.countP_filter, List.countP_filter]
  congr 1
  · apply List.countP_congr
    intro row _
    simp [and_comm]
  · apply List.countP_congr
    intro row listed
    obtain ⟨split, half⟩ := exists_splitOf? (carded row listed)
    cases split <;> simp [half]

/-- There is a rate if there is something to divide by. -/
theorem rate_eq_none_iff {part whole : ℕ} : rate part whole = none ↔ whole = 0 := by
  unfold rate
  split_ifs with empty
  · exact iff_of_true rfl empty
  · exact iff_of_false (by simp) empty

theorem gapsOf_eq_nil_iff {split : Split} {counts : Bucket → ℕ} :
    gapsOf split (summarise counts) = [] ↔ positives counts ≠ 0 ∧ negatives counts ≠ 0 := by
  unfold gapsOf
  rw [List.append_eq_nil_iff]
  simp only [summarise, rate_eq_none_iff]
  by_cases noNegative : negatives counts = 0 <;> by_cases noPositive : positives counts = 0 <;>
    simp [noNegative, noPositive]

/-- A half has rows in one of two buckets. -/
theorem partOf_add_ne_zero_iff {split : Split} {b c : Bucket} :
    partOf scored labels split b + partOf scored labels split c ≠ 0 ↔
      ∃ row ∈ scored.rows, scored.splitOf? row = some split ∧ bucketOf labels row ∈ [b, c] := by
  rw [← Nat.pos_iff_ne_zero, Nat.add_pos_iff_pos_or_pos, partOf, partOf, List.countP_pos_iff,
    List.countP_pos_iff]
  simp only [decide_eq_true_eq, List.mem_cons, List.not_mem_nil, or_false]
  constructor
  · intro some
    rcases some with ⟨row, listed, half, bucket⟩ | ⟨row, listed, half, bucket⟩
    · exact ⟨row, listed, half, Or.inl bucket⟩
    · exact ⟨row, listed, half, Or.inr bucket⟩
  · intro some
    obtain ⟨row, listed, half, bucket | bucket⟩ := some
    · exact Or.inl ⟨row, listed, half, bucket⟩
    · exact Or.inr ⟨row, listed, half, bucket⟩

theorem calibrationStatus_eq_reviewed_iff {gaps : List String} :
    calibrationStatus total gaps = .reviewed ↔
      (total.counts .pending = 0 ∧ total.counts .judgeUnscored = 0) ∧ gaps = [] := by
  unfold calibrationStatus
  split_ifs with unsettled missing
  · exact iff_of_false (by simp) fun settled =>
      unsettled.elim (absurd settled.1.1) (absurd settled.1.2)
  · exact iff_of_false (by simp) fun settled => missing settled.2
  · simp only [not_or, not_not] at unsettled missing
    exact iff_of_true rfl ⟨unsettled, missing⟩

/-- **The counts of accepted labels say what they should.** Each row is where its label and the
judge put it, the halves add up, families stay together, and a calibration is reviewed if no
row is left over and each half has both verdicts of a person. -/
theorem calibrationLaw_of_accepted (distinct : (scored.rows.map ReviewRow.artifactId).Nodup)
    (carded : scored.Carded) (accepted : calibrate scored.rubric scored.rows labels = .ok total) :
    ∃ report, calibratePartitions scored labels = .ok report ∧ report.total = total ∧
      CalibrationLaw scored labels report := by
  obtain ⟨valid, counted⟩ := (calibrate_eq_ok_iff distinct).mp accepted
  obtain ⟨report, run, whole, parts, status⟩ : ∃ report,
      calibratePartitions scored labels = .ok report ∧ report.total = total ∧
        (∀ split, report.parts split = summarise (partOf scored labels split)) ∧
        report.status = calibrationStatus report.total
          (gapsOf .calibration (report.parts .calibration) ++
            gapsOf .validation (report.parts .validation)) := by
    unfold calibratePartitions
    rw [accepted, calibrateSplit_eq distinct carded valid .calibration,
      calibrateSplit_eq distinct carded valid .validation]
    refine ⟨_, rfl, rfl, fun split => ?_, rfl⟩
    cases split <;> rfl
  have cells (b : Bucket) : report.total.counts b =
      scored.rows.countP fun row => bucketOf labels row = b := by
    rw [whole, counted]
    rfl
  have sums (b : Bucket) : report.total.counts b =
      partOf scored labels .calibration b + partOf scored labels .validation b :=
    (cells b).trans (countP_bucketOf_eq_add carded b)
  refine ⟨report, run, whole, ?_⟩
  constructor
  case cells => exact cells
  case sums =>
    intro b
    rw [sums, parts, parts]
    rfl
  case matched =>
    have added : report.total.matched =
        positives report.total.counts + negatives report.total.counts := by
      rw [whole, counted]
      rfl
    rw [added, parts, parts]
    simp only [positives, negatives, sums, summarise]
    omega
  case halves =>
    intro row listed
    exact exists_splitOf? (carded row listed)
  case parts =>
    intro split b
    rw [parts]
    rfl
  case families =>
    -- The split of a row is the split of its family.
    intro row row' same
    rw [ScoredReport.splitOf?, ScoredReport.splitOf?, same]
  case reviewed =>
    rw [status, calibrationStatus_eq_reviewed_iff, cells, cells, List.append_eq_nil_iff, parts,
      parts, gapsOf_eq_nil_iff, gapsOf_eq_nil_iff]
    refine and_congr ?_ ?_
    · rw [List.countP_eq_zero, List.countP_eq_zero]
      simp only [decide_eq_true_eq, List.mem_cons, List.not_mem_nil, or_false, not_or]
      constructor
      · intro none row listed
        exact ⟨none.1 row listed, none.2 row listed⟩
      · intro settled
        exact ⟨fun row listed => (settled row listed).1, fun row listed => (settled row listed).2⟩
    · have covered (split : Split) : positives (partOf scored labels split) ≠ 0 ∧
          negatives (partOf scored labels split) ≠ 0 ↔ _ :=
        and_congr partOf_add_ne_zero_iff partOf_add_ne_zero_iff
      rw [covered, covered]
      constructor
      · intro both split
        cases split
        · exact both.1
        · exact both.2
      · intro both
        exact ⟨both .calibration, both .validation⟩

/-- A row that the judge passed. -/
def passedRow (artifactId scenarioId : String) : ReviewRow where
  artifactId
  scenarioId
  verdicts := [{ name := "response_semantics", status := .pass, reason := "" }]

/-- Two families of scenarios, with two rows in the first and one in the second. -/
def twoFamilies : ScoredReport where
  rubric := "order-response-v3"
  rows := [passedRow "a1" "cancel-1", passedRow "a2" "cancel-1", passedRow "b1" "refund-1"]
  cards := [("cancel-1", "cancel"), ("refund-1", "refund")]

/-- A label of the first row, and an empty one of the last. -/
def twoLabels : List HumanLabel :=
  [{ artifactId := "a1", rubricVersion := "order-response-v3", humanVerdict := "FAIL",
     reviewer := "kim", reason := "refund not mentioned" },
   { artifactId := "b1", rubricVersion := "order-response-v3", humanVerdict := " ",
     reviewer := "", reason := "" }]

theorem calibrationLaw_twoFamilies : ∃ report,
    calibratePartitions twoFamilies twoLabels = .ok report ∧
      report.total =
        summarise (fun b => twoFamilies.rows.countP fun row => bucketOf twoLabels row = b) ∧
      CalibrationLaw twoFamilies twoLabels report := by
  have distinct : (twoFamilies.rows.map ReviewRow.artifactId).Nodup := by decide
  have accepted : Accepted twoFamilies.rubric twoFamilies.rows twoLabels :=
    ⟨by decide, by decide, by decide, by decide⟩
  exact calibrationLaw_of_accepted distinct (by decide)
    ((calibrate_eq_ok_iff distinct).mpr ⟨accepted, rfl⟩)

end

end AgentLabs.BusinessLab
