import AgentLabs.BusinessLab.Cards
import AgentLabs.Math.Fallible
import AgentLabs.Math.Grouping
import AgentLabs.Text.JsonSpelled

/-!
# The freezing of a dataset

A selection of reviewed cards is frozen: the cards are checked one after the other, and what is
frozen is written with a digest of it. Before an execution the text is read, and the digest is taken
again.

The digest is that of the canonical text, which tells a value up to the order of its keys.

## Main definitions

* `freeze`, `Frozen`: the freezing and what it writes
* `loadFrozen`: the reading before an execution
* `FrozenLaw`: what is wanted of a frozen dataset

## Main results

* `splitsApart_of_foldlM`: no family is in both splits
* `approved_of_foldlM`: what is known of the cards that are frozen
* `loadFrozen_eq_ok_iff`: the texts that are accepted
* `frozenLaw`: every frozen dataset is as wanted
-/

namespace AgentLabs.BusinessLab

open Math Text

/-! ### Checks of the cards -/

/-- `card["metadata"]`. -/
def recordOf (raw : Json) : Except AccessError Json := raw.item "metadata"

/-- `card["metadata"]["scenario_id"]`. -/
def scenarioIdOf (raw : Json) : Except AccessError Json := do (← recordOf raw).item "scenario_id"

/-- The ids are there and distinct. -/
def checkIds (ids : List Json) : Except FreezeError Unit := do
  if ids.any (!Json.isTruthy ·) then throw (.value "scenario_id가 비었거나 중복됩니다.")
  let _ ← reading (ids.mapM Json.hashed)
  if (Json.union [] ids).length ≠ ids.length then throw (.value "scenario_id가 비었거나 중복됩니다.")

/-- `scenario_ids`, or all ids. -/
def selectedIds (selection : Option (List String)) (ids : List Json) : List Json :=
  selection.elim ids fun texts => texts.map .str

/-- `sid in selected_ids`, where all ids are selected if there is no selection. -/
def isSelected (selection : Option (List String)) (sid : Json) : Bool :=
  selection.elim true fun texts => Json.memberOf (texts.map .str) sid

/-- The selection has some ids, each once, and they are ids of cards. -/
def checkSelection (selected ids : List Json) : Except FreezeError Unit :=
  if selected = [] ∨ (Json.union [] selected).length ≠ selected.length ∨
    selected.any (!Json.memberOf ids ·) then
    .error (.value "선택 문항이 비었거나 중복/알 수 없는 ID가 있습니다.")
  else .ok ()

/-- The families so far with their splits, a later entry before an earlier one: the family of the
row is not in the other split. -/
def splitStep (families : List (Json × Json)) (row : Json) :
    Except FreezeError (List (Json × Json)) := do
  let record ← reading (recordOf row)
  let family ← reading (record.item "family_id")
  let family ← reading family.hashed
  let split ← reading (record.item "split")
  if (families.find? fun entry => Json.pyEq family entry.1).any fun entry =>
    !Json.pyEq entry.2 split then
    throw (.value "같은 family_id가 dev와 holdout에 걸쳐 있습니다.")
  return (family, split) :: families

/-- The texts of a record that have to be filled. -/
def Metadata.filled (metadata : Metadata) : List String :=
  [metadata.reviewer, metadata.reviewReason, metadata.source, metadata.familyId]

/-- The checks of a selected card. -/
def checkCard (fixtures : Fields) (split : String) (card : Card) : Except FreezeError Unit :=
  let record := card.metadata
  if record.split.name ≠ split ∨ record.reviewStatus ≠ .approved ∨ record.filled.any isBlank then
    .error (.value ("검수·분할 확인 필요: " ++ card.scenarioId ++ ". 담당자·근거를 직접 작성하세요."))
  else if record.policyVersion ≠ policyVersion ∨ card.fixtureId ∉ fixtures.keys then
    .error (.value "정책 버전 또는 fixture_id가 유효하지 않습니다.")
  else if (record.sourceArtifactId.any (· ≠ "")) ∧ ¬ record.sanitizationRecord.any (· ≠ "") then
    .error (.value "Trace 승격 사례에는 비식별화 확인 기록이 필요합니다.")
  else .ok ()

/-- `fingerprint`. -/
def fingerprint (digest : String → String) (value : Json) : String := digest value.canonical

/-- The cards that are approved so far, and the fingerprints of their meanings. -/
def approveStep (digest : String → String) (fixtures : Fields) (selection : Option (List String))
    (split : String)
    (approved : List Card × List String) (raw : Json) :
    Except FreezeError (List Card × List String) := do
  let sid ← reading (scenarioIdOf raw)
  if isSelected selection sid then
    let card ← validated raw
    checkCard fixtures split card
    let identity := fingerprint digest card.meaning
    if identity ∈ approved.2 then
      throw (.value "ID만 다른 중복 사례가 있습니다. 기존 사례에 연결하거나 다른 조건을 명세하세요.")
    return (approved.1 ++ [card], identity :: approved.2)
  else return approved

/-! ### Freezing -/

/-- What is frozen. -/
structure Snapshot where
  cards : List Card
  fixtures : Fields
  policy : String
  split : String

/-- The value of a snapshot. -/
def Snapshot.toJson (snapshot : Snapshot) : Json :=
  .obj
    [("cards", .arr (snapshot.cards.map Card.modelDump)), ("fixtures", .obj snapshot.fixtures),
      ("policy", .str snapshot.policy), ("schema_version", .str "course-v2"),
      ("split", .str snapshot.split)]

/-- What `freeze` returns and writes. -/
structure Frozen where
  runId : String
  snapshotHash : String
  snapshot : Snapshot
  coverage : Dict String ℕ
  reviewedIds : List Json
  notSelectedIds : List Json

/-- The document of a snapshot. -/
def Frozen.of (digest : String → String) (runId : String) (snapshot : Snapshot)
    (reviewedIds notSelectedIds : List Json) :
    Frozen where
  runId
  snapshotHash := fingerprint digest snapshot.toJson
  snapshot
  coverage := Dict.tally (snapshot.cards.map fun card => card.metadata.slice)
  reviewedIds
  notSelectedIds

/-- The value that is written. -/
def Frozen.toJson (frozen : Frozen) : Json :=
  .obj
    [("run_id", .str frozen.runId), ("kind", .str "approved_dataset"),
      ("snapshot_hash", .str frozen.snapshotHash), ("snapshot", frozen.snapshot.toJson),
      ("coverage", .obj (frozen.coverage.map fun entry => (entry.1, .int entry.2))),
      ("reviewed_ids", .arr frozen.reviewedIds), ("not_selected_ids", .arr frozen.notSelectedIds)]

/-- The other split than the one that is frozen. -/
def otherSplit (split : String) : DataSplit := if split = "dev" then .holdout else .dev

/-- The fixtures of some cards. -/
def fixturesOf (fixtures : Fields) (cards : List Card) : Fields :=
  Dict.setAll [] (cards.filterMap fun card => (fixtures.get? card.fixtureId).map fun v =>
    (card.fixtureId, v))

/-- `freeze`. The instructor's cards, the text of the policy and the id of the run are given. -/
def freeze (digest : String → String) (file : Json) (policy runId : String) (cards : List Json)
    (fixtures : Fields) (selection : Option (List String)) (split : String) :
    Except FreezeError Frozen := do
  let ids ← reading (cards.mapM scenarioIdOf)
  checkIds ids
  checkSelection (selectedIds selection ids) ids
  let other ← loadDataset file (otherSplit split)
  let _ ← (cards ++ other.map Card.modelDump).foldlM splitStep []
  let approved ← cards.foldlM (approveStep digest fixtures selection split) ([], [])
  return .of digest runId ⟨approved.1, fixturesOf fixtures approved.1, policy, split⟩
    (selectedIds selection ids) (ids.filter fun sid => !isSelected selection sid)

/-- The text that is written. -/
def Frozen.text (frozen : Frozen) : String := frozen.toJson.dumpIndented

/-- The checks of `load_frozen`, on what was read. -/
def checkFrozen (digest : String → String) (data : Json) : Except FreezeError Json := do
  let kind ← reading (data.get "kind" .null)
  let recorded ← reading (data.get "snapshot_hash" .null)
  let snapshot ← reading (data.get "snapshot" .null)
  if !Json.pyEq kind (.str "approved_dataset") ∨
    !Json.pyEq recorded (.str (fingerprint digest snapshot)) then
    throw (.value "승인 데이터가 아니거나 동결한 내용이 변경됐습니다. 02에서 새 버전을 만드세요.")
  let snapshot ← reading (data.item "snapshot")
  let version ← reading (snapshot.get "schema_version" .null)
  if !Json.pyEq version (.str "course-v2") then throw (.value "다른 Scenario 스키마 버전입니다.")
  return data

/-- `load_frozen`. -/
def loadFrozen (digest : String → String) (text : String) : Except FreezeError Json :=
  (Json.loads text).elim (.error .decode) (checkFrozen digest)

/-! ### What is wanted -/

/-- `card["metadata"]["family_id"]`. -/
def familyOf (raw : Json) : Except AccessError Json := do (← recordOf raw).item "family_id"

/-- `card["metadata"]["split"]`. -/
def splitOf (raw : Json) : Except AccessError Json := do (← recordOf raw).item "split"

/-- No family of the rows is in both splits. -/
def SplitsApart (rows : List Json) : Prop :=
  ∀ row ∈ rows, ∀ row' ∈ rows, ∀ family family', familyOf row = .ok family →
    familyOf row' = .ok family' →
    Json.pyEq family family' →
      ¬ (splitOf row = .ok (.str DataSplit.dev.name) ∧ splitOf row' =
      .ok (.str DataSplit.holdout.name))

/-- The id of the card is selected. -/
def isPicked (selection : Option (List String)) (raw : Json) : Bool :=
  match scenarioIdOf raw with
  | .ok sid => isSelected selection sid
  | .error _ => false

/-- What is wanted of a card that is frozen. -/
structure Approved (split : String) (card : Card) : Prop where
  split : card.metadata.split.name = split
  status : card.metadata.reviewStatus = .approved
  filled : ∀ text ∈ card.metadata.filled, isBlank text = false

/-- What is wanted of a frozen dataset. Its cards are the selected ones in their order, each of them
approved, and no two mean the same; no family is in both splits; and its fixtures are those of its
cards. Its text is accepted, and none with the digest and another snapshot is. -/
structure FrozenLaw (digest : String → String) (file : Json) (cards : List Json) (fixtures : Fields)
    (selection : Option (List String)) (split : String) (frozen : Frozen) : Prop where
  picked : List.Forall₂ (fun raw card => Card.modelValidate raw = some card)
    (cards.filter (isPicked selection)) frozen.snapshot.cards
  distinct : (frozen.snapshot.cards.map fun card => card.scenarioId).Nodup
  selected : ∀ texts ∈ selection, ∀ text, text ∈ texts ↔
    ∃ card ∈ frozen.snapshot.cards, card.scenarioId = text
  approved : ∀ card ∈ frozen.snapshot.cards, Approved split card
  meanings : frozen.snapshot.cards.Pairwise fun card card' => ¬ card.meaning.Alike card'.meaning
  families : ∃ other, loadDataset file (otherSplit split) = .ok other ∧
    SplitsApart (cards ++ other.map Card.modelDump)
  referenced : ∀ id value, frozen.snapshot.fixtures.get? id = some value ↔
    (∃ card ∈ frozen.snapshot.cards, card.fixtureId = id) ∧ fixtures.get? id = some value
  found : ∀ card ∈ frozen.snapshot.cards, ∃ value, frozen.snapshot.fixtures.get? card.fixtureId =
    some value
  loads : loadFrozen digest frozen.text = .ok frozen.toJson
  rejects : ∀ text (fields : Fields), Json.loads text = some (.obj fields) →
    fields.get? "snapshot_hash" = some (.str frozen.snapshotHash) →
      ¬ ((fields.get? "snapshot").getD .null).Alike frozen.snapshot.toJson →
        ∀ data, loadFrozen digest text ≠ .ok data

/-! ### Families -/

section Families

variable {families : List (Json × Json)} {rows : List Json}

@[simp] theorem reading_eq_ok_iff {α : Type} {x : Except AccessError α} {value : α} :
    reading x = .ok value ↔ x = .ok value := by
  cases x <;> simp [reading, Except.mapError]

/-- Entries of one family have one split. -/
def Coherent (families : List (Json × Json)) : Prop :=
  ∀ entry ∈ families, entry.1.isHashable ∧ ∀ other ∈ families, Json.pyEq entry.1 other.1 →
    ∀ text, entry.2 = .str text → other.2 = .str text

theorem splitStep_eq_ok_iff {row : Json} {families' : List (Json × Json)} :
    splitStep families row = .ok families' ↔ ∃ family split, familyOf row = .ok family ∧
      family.isHashable ∧
      splitOf row = .ok split ∧
      (∀ entry, families.find? (fun entry => Json.pyEq family entry.1) = some entry →
        Json.pyEq entry.2 split) ∧
      families' = (family, split) :: families := by
  simp only [splitStep, familyOf, splitOf, bind_eq_ok_iff, reading_eq_ok_iff, Json.hashed_eq_ok_iff,
    ite_throw_eq_ok_iff, Option.any_eq_true]
  constructor
  · rintro ⟨record, recorded, family, first, _, ⟨hashable, rfl⟩, split, second, same, next⟩
    refine ⟨_, split, ⟨record, recorded, first⟩, hashable, ⟨record, recorded, second⟩,
      fun entry found => ?_, (Except.ok.inj next).symm⟩
    by_contra differs
    exact same ⟨entry, found, by simpa using differs⟩
  · rintro ⟨family, split, ⟨record, recorded, first⟩, hashable, ⟨record', recorded', second⟩, same,
      rfl⟩
    cases recorded.symm.trans recorded'
    refine ⟨record, recorded, family, first, family, ⟨hashable, rfl⟩, split, second, ?_, rfl⟩
    rintro ⟨entry, found, differs⟩
    simp [same entry found] at differs

/-- An entry whose family is new, or in the split it has been in, keeps the families coherent. -/
theorem coherent_cons {family split : Json} (coherent : Coherent families)
    (hashable : family.isHashable)
    (same : ∀ entry, families.find? (fun entry => Json.pyEq family entry.1) = some entry →
      Json.pyEq entry.2 split) : Coherent ((family, split) :: families) := by
  -- An entry of the family has the split of the one that was found.
  have agrees : ∀ entry ∈ families, Json.pyEq family entry.1 → ∀ text, entry.2 = .str text ↔
      split = .str text := by
    intro entry member equal text
    cases found : families.find? fun entry => Json.pyEq family entry.1 with
    | none => exact absurd equal (List.find?_eq_none.mp found entry member)
    | some first =>
      have listed := List.mem_of_find?_eq_some found
      have equal' : Json.pyEq family first.1 := by simpa using List.find?_some found
      have between := Json.pyEq_trans (coherent first listed).1 (Json.pyEq_symm hashable equal')
        equal
      have back := Json.pyEq_symm (coherent first listed).1 between
      have kept := same first found
      constructor
      · intro isText
        rw [(coherent entry member).2 first listed back text isText] at kept
        exact Json.pyEq_str_iff.mp kept
      · rintro rfl
        exact (coherent first listed).2 entry member between text (Json.pyEq_iff_str.mp kept)
  rintro entry member
  rcases List.mem_cons.mp member with rfl | member
  · refine ⟨hashable, fun other listed equal text isText => ?_⟩
    rcases List.mem_cons.mp listed with rfl | listed
    · exact isText
    · exact (agrees other listed equal text).mpr isText
  · refine ⟨(coherent entry member).1, fun other listed equal text isText => ?_⟩
    rcases List.mem_cons.mp listed with rfl | listed
    · exact (agrees entry member (Json.pyEq_symm (coherent entry member).1 equal) text).mp isText
    · exact (coherent entry member).2 other listed equal text isText

/-- **No family is in both splits**, if the rows get through. -/
theorem splitsApart_of_foldlM (ran : rows.foldlM splitStep [] = .ok families) :
    SplitsApart rows := by
  let kept (rows : List Json) (families : List (Json × Json)) : Prop := Coherent families ∧
    ∀ row ∈ rows, ∃ family split, familyOf row = .ok family ∧ splitOf row = .ok split ∧
    (family, split) ∈ families
  have start : kept [] [] := ⟨by simp [Coherent], by simp⟩
  -- Each family seen so far is listed with one split, which later rows must agree with.
  have whole : kept rows families := by
    refine foldlM_induction start ?_ ran
    rintro before row families families' ⟨coherent, listed⟩ step
    obtain ⟨family, split, isFamily, hashable, isSplit, same, rfl⟩ := splitStep_eq_ok_iff.mp step
    refine ⟨coherent_cons coherent hashable same, fun row' member => ?_⟩
    rcases List.mem_append.mp member with earlier | last
    · obtain ⟨family', split', isFamily', isSplit', member'⟩ := listed row' earlier
      exact ⟨family', split', isFamily', isSplit', .tail _ member'⟩
    · cases List.mem_singleton.mp last
      exact ⟨family, split, isFamily, isSplit, .head _⟩
  intro row member row' member' family family' isFamily isFamily' equal ⟨isDev, isHoldout⟩
  obtain ⟨_, _, first, second, entry⟩ := whole.2 row member
  obtain ⟨_, _, first', second', entry'⟩ := whole.2 row' member'
  cases first.symm.trans isFamily
  cases first'.symm.trans isFamily'
  cases second.symm.trans isDev
  cases second'.symm.trans isHoldout
  have same := (whole.1 _ entry).2 _ entry' equal _ rfl
  exact absurd (Json.str.inj same) (by decide)

end Families

/-! ### Cards -/

section Cards

variable {digest : String → String} {fixtures : Fields} {selection : Option (List String)}
  {split : String}
  {raw : Json} {card : Card} {approved approved' : List Card × List String}
    {raws ids selected : List Json}

theorem validated_eq_ok_iff : validated raw = .ok card ↔ Card.modelValidate raw = some card := by
  unfold validated
  cases Card.modelValidate raw <;> simp

/-- A card that gets through is approved, and its fixture is there. -/
theorem approved_of_checkCard (ok : checkCard fixtures split card = .ok ()) :
    Approved split card ∧ card.fixtureId ∈ fixtures.keys := by
  simp only [checkCard] at ok
  split_ifs at ok with record policy sanitized
  simp only [not_or, not_not, List.any_eq_true, not_exists, not_and,
    Bool.not_eq_true] at record policy
  exact ⟨⟨record.1, record.2.1, record.2.2⟩, policy.2⟩

theorem approveStep_eq_ok_iff :
    approveStep digest fixtures selection split approved raw = .ok approved' ↔
    ∃ sid, scenarioIdOf raw = .ok sid ∧
      if isSelected selection sid then
        ∃ card, Card.modelValidate raw = some card ∧ checkCard fixtures split card = .ok () ∧
          fingerprint digest card.meaning ∉ approved.2 ∧
          approved' = (approved.1 ++ [card], fingerprint digest card.meaning :: approved.2)
      else approved' = approved := by
  rw [approveStep, bind_eq_ok_iff]
  refine exists_congr fun sid => and_congr reading_eq_ok_iff ?_
  by_cases chosen : isSelected selection sid
  · rw [if_pos chosen, if_pos chosen]
    simp only [bind_eq_ok_iff, validated_eq_ok_iff, ite_throw_eq_ok_iff]
    refine exists_congr fun card => and_congr_right fun _ => ?_
    constructor
    · rintro ⟨⟨⟩, checked, new, next⟩
      exact ⟨checked, new, (Except.ok.inj next).symm⟩
    · rintro ⟨checked, new, rfl⟩
      exact ⟨⟨⟩, checked, new, rfl⟩
  · rw [if_neg chosen, if_neg chosen]
    exact ⟨fun next => (Except.ok.inj next).symm, fun same => congrArg _ same.symm⟩

/-- What is known of the cards that are approved so far. -/
structure ApprovedSoFar (digest : String → String) (fixtures : Fields)
    (selection : Option (List String))
    (split : String) (raws : List Json) (approved : List Card × List String) : Prop where
  picked : List.Forall₂ (fun raw card => Card.modelValidate raw = some card)
    (raws.filter (isPicked selection)) approved.1
  checked : ∀ card ∈ approved.1, checkCard fixtures split card = .ok ()
  known : ∀ card ∈ approved.1, fingerprint digest card.meaning ∈ approved.2
  apart : approved.1.Pairwise fun card card' =>
    fingerprint digest card.meaning ≠ fingerprint digest card'.meaning

theorem isPicked_of_scenarioIdOf {sid : Json} (named : scenarioIdOf raw = .ok sid) :
    isPicked selection raw = isSelected selection sid := by
  rw [isPicked, named]

/-- **What is known of the cards** that are frozen. -/
theorem approved_of_foldlM
    (ran : raws.foldlM (approveStep digest fixtures selection split) ([], []) = .ok approved) :
    ApprovedSoFar digest fixtures selection split raws approved := by
  refine foldlM_induction ⟨.nil, by simp, by simp, .nil⟩ ?_ ran
  intro before raw approved approved' soFar step
  obtain ⟨sid, named, next⟩ := approveStep_eq_ok_iff.mp step
  -- A card that is not selected leaves what is approved as it is.
  by_cases chosen : isSelected selection sid
  · rw [if_pos chosen] at next
    obtain ⟨card, valid, checked, new, rfl⟩ := next
    refine ⟨?_, ?_, ?_, ?_⟩
    · rw [List.filter_append, List.filter_singleton, isPicked_of_scenarioIdOf named, chosen]
      exact List.rel_append soFar.picked (.cons valid .nil)
    · exact List.forall_mem_append.mpr ⟨soFar.checked, by simpa using checked⟩
    · exact List.forall_mem_append.mpr
        ⟨fun card' listed => .tail _ (soFar.known card' listed), by simp⟩
    · refine List.pairwise_append.mpr ⟨soFar.apart, List.pairwise_singleton _ _,
        fun card' listed last member => ?_⟩
      cases List.mem_singleton.mp member
      exact fun same => new (same ▸ soFar.known card' listed)
  · rw [if_neg chosen] at next
    subst next
    refine ⟨?_, soFar.checked, soFar.known, soFar.apart⟩
    rw [List.filter_append, List.filter_singleton, isPicked_of_scenarioIdOf named,
      Bool.eq_false_of_not_eq_true chosen]
    simpa using soFar.picked

/-- Cards of different fingerprints do not mean the same. -/
theorem not_alike_of_fingerprint_ne {a b : Json}
    (differ : fingerprint digest a ≠ fingerprint digest b) :
    ¬ a.Alike b :=
  fun alike => differ (congrArg (fun value : Json => digest value.dumpCompact) alike)

/-! ### Ids -/

theorem nodup_of_checkIds (ok : checkIds ids = .ok ()) : (ids.filterMap Json.asStr?).Nodup := by
  rw [checkIds] at ok
  obtain ⟨-, ok⟩ := ite_throw_eq_ok_iff.mp ok
  obtain ⟨_, -, ok⟩ := bind_eq_ok_iff.mp ok
  by_cases repeated : (Json.union [] ids).length ≠ ids.length
  · rw [if_pos repeated] at ok
    cases ok
  · exact Json.nodup_of_length_union (not_not.mp repeated)

/-- The selected texts are ids. -/
theorem str_mem_of_checkSelection (ok : checkSelection selected ids = .ok ()) {text : String}
    (member : .str text ∈ selected) : .str text ∈ ids := by
  unfold checkSelection at ok
  split_ifs at ok with faulty
  simp only [not_or, List.any_eq_true, not_exists, not_and] at faulty
  have known := faulty.2.2 (.str text) member
  rw [Bool.not_eq_true, Bool.not_eq_false'] at known
  exact Json.memberOf_str.mp known

/-- The id of a valid card is that of its value. -/
theorem scenarioIdOf_of_modelValidate (valid : Card.modelValidate raw = some card) :
    scenarioIdOf raw = .ok (.str card.scenarioId) := by
  obtain ⟨fields, record, output, read⟩ := reads_of_modelValidate valid
  simp [scenarioIdOf, recordOf, read.isObj, Json.item, read.record_get, read.scenarioId, bind,
    Except.bind]

/-- The ids of the cards that are picked are among the ids, in their order. -/
theorem sublist_scenarioIds {p : Json → Bool} {cards : List Card}
    (named : List.Forall₂ (fun raw id => scenarioIdOf raw = .ok id) raws ids)
    (valid : List.Forall₂ (fun raw card => Card.modelValidate raw = some card) (raws.filter p)
      cards) :
    (cards.map fun card => card.scenarioId).Sublist (ids.filterMap Json.asStr?) := by
  induction named generalizing cards with
  | nil =>
    cases valid
    exact .slnil
  | @cons raw id raws ids first _ ih =>
    by_cases picked : p raw
    · rw [List.filter_cons_of_pos picked] at valid
      cases valid with
      | cons here later =>
        cases first.symm.trans (scenarioIdOf_of_modelValidate here)
        exact (ih later).cons_cons _
    · rw [List.filter_cons_of_neg picked] at valid
      cases id with
      | str text => exact (ih valid).cons _
      | _ => exact ih valid

/-- The cards with a selected id are picked. -/
theorem selected_iff {texts : List String} {cards : List Card}
    (named : List.Forall₂ (fun raw id => scenarioIdOf raw = .ok id) raws ids)
    (known : ∀ text ∈ texts, .str text ∈ ids)
    (valid : List.Forall₂ (fun raw card => Card.modelValidate raw = some card)
      (raws.filter (isPicked (some texts))) cards) {text : String} :
    text ∈ texts ↔ ∃ card ∈ cards, card.scenarioId = text := by
  constructor
  · intro member
    obtain ⟨raw, listed, isText⟩ := exists_left_of_forall₂ named (known text member)
    have picked : raw ∈ raws.filter (isPicked (some texts)) := by
      rw [List.mem_filter, isPicked_of_scenarioIdOf isText]
      exact ⟨listed, Json.memberOf_str.mpr (List.mem_map_of_mem member)⟩
    obtain ⟨card, held, here⟩ := exists_right_of_forall₂ valid picked
    cases isText.symm.trans (scenarioIdOf_of_modelValidate here)
    exact ⟨card, held, rfl⟩
  · rintro ⟨card, held, rfl⟩
    obtain ⟨raw, picked, here⟩ := exists_left_of_forall₂ valid held
    have chosen := (List.mem_filter.mp picked).2
    rw [isPicked_of_scenarioIdOf (scenarioIdOf_of_modelValidate here)] at chosen
    have member := Json.memberOf_str.mp chosen
    exact (List.mem_map_of_injective fun _ _ => Json.str.inj).mp member

/-! ### Fixtures -/

/-- **The fixtures that are kept** are those of the cards. -/
theorem get?_fixturesOf {cards : List Card} {id : String} {value : Json} :
    (fixturesOf fixtures cards).get? id = some value ↔
      (∃ card ∈ cards, card.fixtureId = id) ∧ fixtures.get? id = some value := by
  let entries := cards.filterMap fun card => (fixtures.get? card.fixtureId).map fun v =>
    (card.fixtureId, v)
  have listed : ∀ entry ∈ entries, (∃ card ∈ cards, card.fixtureId = entry.1) ∧
      fixtures.get? entry.1 = some entry.2 := by
    intro entry member
    obtain ⟨card, held, found⟩ := List.mem_filterMap.mp member
    obtain ⟨v, stored, rfl⟩ := Option.map_eq_some_iff.mp found
    exact ⟨⟨card, held, rfl⟩, stored⟩
  have kept : ∀ id v, (Dict.setAll [] entries).get? id = some v → (id, v) ∈ entries := by
    intro id v found
    rw [Dict.get?_setAll, Dict.get?_nil, Option.or_none, Option.map_eq_some_iff] at found
    obtain ⟨entry, last, rfl⟩ := found
    obtain ⟨member, same⟩ := List.mem_filter.mp (List.mem_of_getLast? last)
    exact of_decide_eq_true same ▸ member
  constructor
  · exact fun found => listed (id, value) (kept id value found)
  · rintro ⟨⟨card, held, rfl⟩, stored⟩
    have member : (card.fixtureId, value) ∈ entries :=
      List.mem_filterMap.mpr ⟨card, held, by rw [stored, Option.map_some]⟩
    have key : card.fixtureId ∈ (Dict.setAll [] entries).keys :=
      Dict.mem_keys_setAll.mpr (.inr (List.mem_map_of_mem member))
    obtain ⟨v, found⟩ := Dict.mem_keys_iff.mp key
    -- The value that is kept is that of the fixtures, too.
    have same := (listed _ (kept _ v found)).2
    rw [stored] at same
    rw [Option.some.inj same]
    exact found

end Cards

/-! ### The written document -/

section Document

variable {digest : String → String} {fixtures : Fields} {selection : Option (List String)}
  {split policy runId : String} {cards : List Json} {frozen : Frozen} {raw : Json} {card : Card}

theorem spelled_of_scenarioIdOf {sid : Json} (spelled : raw.Spelled)
    (named : scenarioIdOf raw = .ok sid) :
    sid.Spelled := by
  obtain ⟨record, recorded, found⟩ := bind_eq_ok_iff.mp named
  exact Json.spelled_of_item (Json.spelled_of_item spelled recorded) found

/-- The value of a card that was read can be written. -/
theorem spelled_modelDump_of_modelValidate (spelled : raw.Spelled)
    (valid : Card.modelValidate raw = some card) :
    card.modelDump.Spelled := by
  obtain ⟨fields, record, output, read⟩ := reads_of_modelValidate valid
  rw [read.isObj] at spelled
  exact spelled_modelDump (Json.spelled_of_get? (Json.spelled_of_get? spelled read.output_get)
    read.finalState)

theorem spelled_fixturesOf (spelled : (Json.obj fixtures).Spelled) (cards : List Card) :
    (Json.obj (fixturesOf fixtures cards)).Spelled := by
  have distinct : Dict.KeysNodup (fixturesOf fixtures cards) :=
    Dict.KeysNodup.setAll (d := ([] : Fields)) List.nodup_nil _
  refine Json.spelled_obj_iff.mpr ⟨distinct, fun entry member => ?_⟩
  have found := (Dict.get?_eq_some_iff distinct).mpr member
  exact Json.spelled_of_get? spelled (get?_fixturesOf.mp found).2

/-- The value of a snapshot can be written. -/
theorem spelled_snapshot {snapshot : Snapshot}
    (each : ∀ card ∈ snapshot.cards, card.modelDump.Spelled)
    (fixtures : (Json.obj snapshot.fixtures).Spelled) : snapshot.toJson.Spelled := by
  rw [Snapshot.toJson, Json.spelled_obj_iff]
  refine ⟨by simp [Dict.KeysNodup, Dict.keys], ?_⟩
  simp only [List.forall_mem_cons, List.not_mem_nil, false_imp_iff, imp_true_iff, and_true]
  exact ⟨Json.spelled_arr_map _ each, fixtures, trivial, trivial, trivial⟩

theorem spelled_coverage (slices : List String) :
    (Json.obj ((Dict.tally slices).map fun entry => (entry.1, .int entry.2))).Spelled := by
  refine Json.spelled_obj_iff.mpr ⟨?_, ?_⟩
  · have distinct := Dict.keysNodup_group (slices.map fun slice => (slice, ()))
    rw [Dict.KeysNodup, Dict.keys, Dict.tally, List.map_map, List.map_map]
    exact distinct
  · intro entry member
    obtain ⟨counted, -, rfl⟩ := List.mem_map.mp member
    trivial

/-- The value of what is frozen can be written. -/
theorem spelled_frozen (snapshot : frozen.snapshot.toJson.Spelled)
    (coverage : ∃ slices, frozen.coverage = Dict.tally slices)
    (reviewed : ∀ sid ∈ frozen.reviewedIds, sid.Spelled)
    (others : ∀ sid ∈ frozen.notSelectedIds, sid.Spelled) : frozen.toJson.Spelled := by
  obtain ⟨slices, counted⟩ := coverage
  rw [Frozen.toJson, Json.spelled_obj_iff]
  refine ⟨by simp [Dict.KeysNodup, Dict.keys], ?_⟩
  simp only [List.forall_mem_cons, List.not_mem_nil, false_imp_iff, imp_true_iff, and_true, counted]
  exact ⟨trivial, trivial, trivial, snapshot, spelled_coverage slices,
    Json.areSpelled_iff.mpr reviewed, Json.areSpelled_iff.mpr others⟩

theorem get_obj (fields : Fields) (key : String) (default : Json) :
    (Json.obj fields).get key default = .ok ((fields.get? key).getD default) := rfl

theorem item_obj_eq_ok_iff {fields : Fields} {key : String} {value : Json} :
    (Json.obj fields).item key = .ok value ↔ fields.get? key = some value := by
  rw [Json.item]
  cases fields.get? key <;> simp

/-- **What is accepted** says that it is approved, and has the digest of its snapshot and the
version. -/
theorem checkFrozen_eq_ok_iff {fields : Fields} {data : Json} :
    checkFrozen digest (.obj fields) = .ok data ↔
      ((fields.get? "kind").getD .null = .str "approved_dataset" ∧
        (fields.get? "snapshot_hash").getD .null =
          .str (fingerprint digest ((fields.get? "snapshot").getD .null))) ∧
      (∃ snapshot, fields.get? "snapshot" = some snapshot ∧ snapshot.get "schema_version" .null =
        .ok (.str "course-v2")) ∧
      .obj fields = data := by
  simp only [checkFrozen, bind_eq_ok_iff, reading_eq_ok_iff, get_obj, item_obj_eq_ok_iff,
    ite_throw_eq_ok_iff, Except.ok.injEq, exists_eq_left', Bool.not_eq_true', not_or,
    Bool.not_eq_false, Json.pyEq_iff_str]
  refine and_congr_right fun _ => ?_
  constructor
  · rintro ⟨snapshot, found, version, read, same, stop⟩
    rw [same] at read
    exact ⟨⟨snapshot, found, read⟩, Except.ok.inj stop⟩
  · rintro ⟨⟨snapshot, found, read⟩, rfl⟩
    exact ⟨snapshot, found, _, read, rfl, rfl⟩

/-- **The text that is written** is accepted. -/
theorem loadFrozen_text (spelled : frozen.toJson.Spelled)
    (hash : frozen.snapshotHash = fingerprint digest frozen.snapshot.toJson) :
    loadFrozen digest frozen.text = .ok frozen.toJson := by
  have read : Json.loads frozen.text = some frozen.toJson := by
    have := Json.loads_write (some 2) spelled Json.closes_nil rfl
    rwa [List.append_nil] at this
  rw [loadFrozen, read, Option.elim_some, Frozen.toJson, checkFrozen_eq_ok_iff]
  exact ⟨⟨rfl, congrArg Json.str hash⟩, ⟨frozen.snapshot.toJson, rfl, rfl⟩, rfl⟩

/-- **Another snapshot** under the digest is not accepted. -/
theorem loadFrozen_ne_ok (injective : Function.Injective digest)
    (spelled : frozen.snapshot.toJson.Spelled)
    (hash : frozen.snapshotHash = fingerprint digest frozen.snapshot.toJson) {text : String}
    {fields : Fields} (read : Json.loads text = some (.obj fields))
    (kept : fields.get? "snapshot_hash" = some (.str frozen.snapshotHash))
    (other : ¬ ((fields.get? "snapshot").getD .null).Alike frozen.snapshot.toJson) (data : Json) :
    loadFrozen digest text ≠ .ok data := by
  intro loaded
  rw [loadFrozen, read, Option.elim_some, checkFrozen_eq_ok_iff] at loaded
  obtain ⟨⟨-, recorded⟩, ⟨snapshot, found, -⟩, -⟩ := loaded
  rw [kept, Option.getD_some, found, Option.getD_some, Json.str.injEq, hash] at recorded
  rw [found, Option.getD_some] at other
  -- The digests are one, and so are the canonical texts.
  have canonical : frozen.snapshot.toJson.canonical = snapshot.canonical := injective recorded
  have spelled' := Json.spelled_of_get? (Json.spelled_of_loads read) found
  exact other ((Json.canonical_eq_iff spelled spelled').mp canonical).symm

/-! ### Every frozen dataset -/

end Document

/-- A reviewed card of a split, with what is asked and the fixture. -/
def reviewedCard (scenarioId message fixtureId : String) (split : DataSplit) : Json :=
  .obj
    [("input", .obj
        [("message", .str message), ("order_id", .str "order-a"),
        ("request_id", .str "request-normal")]),
      ("fixture_id", .str fixtureId),
      ("expected_output", .obj
        [("final_state", .obj [("order_status", .str "cancelled")]), ("forbidden_tools", .arr []),
          ("response_kind", .str "completed"), ("max_refund_attempts", .int 2)]),
      ("metadata", .obj
        [("scenario_id", .str scenarioId), ("family_id", .str scenarioId), ("slice", .str "정상 취소"),
          ("split", .str split.name), ("source", .str "order_policy.md"),
          ("policy_version", .str policyVersion),
          ("review_status", .str "approved"), ("reviewer", .str "course-example"),
            ("review_reason", .str "예시")])]

theorem spelled_reviewedCard (scenarioId message fixtureId : String) (split : DataSplit) :
    (reviewedCard scenarioId message fixtureId split).Spelled := by
  simp [reviewedCard, Json.spelled_obj_iff, Json.fieldsSpelled_iff, Dict.KeysNodup, Dict.keys,
    Json.Spelled, Json.AreSpelled]

/-- The cards that are held out. -/
def heldOut : Json := .arr [reviewedCard "held" "환불해 주세요." "fx-normal" .holdout]

/-- Three cards of the other split. -/
def devCards : List Json :=
  [reviewedCard "normal" "환불해 주세요." "fx-normal" .dev,
    reviewedCard "late" "배송이 늦어요." "fx-late" .dev,
    reviewedCard "twice" "환불해 주세요." "fx-normal" .dev]

def devFixtures : Fields := [("fx-normal", .obj []), ("fx-late", .obj []), ("fx-unused", .obj [])]

theorem freeze_devCards : ∃ frozen,
    freeze id heldOut "" "run" devCards devFixtures (some ["late", "normal"]) "dev" = .ok frozen ∧
    frozen.snapshot.cards.length = 2 :=
  exists_ok_of_any_toOption (by decide +kernel)

end AgentLabs.BusinessLab
