import AgentLabs.GuardLab.Evaluate
import AgentLabs.Text.Glob
import AgentLabs.Text.Numerals
import Mathlib.Data.Finset.Sort
import Mathlib.Order.Interval.Finset.Nat

/-!
# The drafts folder

`save_report` numbers a draft by one more than the count of the files that a pattern of the
project matches, and the evaluation judges the draft whose name is the last as a text. A
count is not a maximum: where versions below the largest one are missing, the next number
may be taken already, and the draft that has it is overwritten. What the pattern matches
besides the drafts of the project makes up for missing ones. And the last name is not the
one with the largest number, since `v10` comes before `v9`; and what is judged is the text as
it is read, where every line ends in a line feed.

## Main definitions

* `draftName`, `draftPattern`, `nextVersion`: the names of drafts and how the next is numbered
* `DraftsFolder`: the names that stand in the drafts folder
* `SavesFresh`: a save writes a new file under a number larger than all before
* `Workspace.drafts`, `saveAll`, `JudgesLast`: runs of saves, and what is judged after them

## Main results

* `savesFresh_iff`: when a save takes a new number
* `judgesLast_iff`: when the text saved last is the one that is judged
-/

namespace AgentLabs.GuardLab

open Math Math.PathWalk Text

/-- The name of a project is that of a folder. -/
structure ProjectName where
  text : String
  segment : '/' ∉ text.toList

/-- The name of a draft. -/
def draftName (project : String) (version : ℕ) : String :=
  project ++ "_weekly_v" ++ toString version ++ ".md"

/-- The pattern for the drafts of a project. -/
def draftPattern (project : String) : String := project ++ "_weekly_v*.md"

/-- `Workspace.next_version`, on the names in the drafts folder. -/
def nextVersion (names : Finset String) (project : String) : ℕ :=
  (names.filter fun name => glob (draftPattern project) name).card + 1

/-- The path of a name in the drafts folder. -/
def draftAt (ws : Workspace) (name : String) : List String := ws.root ++ ["drafts", name]

/-- These are the names that stand in the drafts folder, and no file stands in its place. -/
structure DraftsFolder (ws : Workspace) (names : Finset String) : Prop where
  listed : ∀ name, name ∈ names ↔ (ws.node (draftAt ws name)).isSome
  free : ∀ q, q <+: ws.root ++ ["drafts"] → ws.isFile q = false

/-- `RawOps.save_report`, with the names in the drafts folder. -/
def save (names : Finset String) (project content : String) : Impl :=
  RawOps.saveReport (fun _ p => .ok (nextVersion names p)) project content

/-- What a save answers. -/
def savedText (project : String) (version : ℕ) : String :=
  "저장됨: " ++ RawOps.draftPath project version ++ " (report_version=" ++ toString version ++ ")"

variable {names : Finset String} {project : ProjectName} {version : ℕ} {name content : String}

/-! ### Names of drafts -/

theorem toList_draftName (project : String) (version : ℕ) :
    (draftName project version).toList =
      (project.toList ++ "_weekly_v".toList) ++ (numeral version ++ ".md".toList) := by
  simp only [draftName, String.toList_append, toList_toString, List.append_assoc]

theorem draftName_injective (project : String) : Function.Injective (draftName project) :=
  fun m n same => by
    have lists := congrArg String.toList same
    rw [toList_draftName, toList_draftName] at lists
    have digits := List.append_cancel_right (List.append_cancel_left lists)
    rw [← ofDigitChars_numeral m, digits, ofDigitChars_numeral]

theorem notMem_draftName : '/' ∉ (draftName project.text version).toList := by
  rw [toList_draftName]
  simp only [List.mem_append, not_or]
  refine ⟨⟨project.segment, by decide⟩, fun member => ?_, by decide⟩
  exact absurd (isDigit_numeral member) (by decide)

/-- What the pattern of a project matches. -/
theorem glob_draftPattern {project name : String} : glob (draftPattern project) name ↔
    ∃ front back, globMatches (globItems 0 project.toList) front ∧
      name.toList = front ++ "_weekly_v".toList ++ back ++ ".md".toList := by
  have read : globItems 0 (draftPattern project).toList = globItems 0 project.toList ++
      ("_weekly_v".toList.map .lit ++ ([.any] ++ ".md".toList.map .lit)) := by
    rw [draftPattern, String.toList_append,
      globItems_append (by decide) (by decide) (Nat.zero_le _)]
    rfl
  simp only [glob, read, globMatches_append, globMatches_lits, globMatches_singleton_any]
  constructor
  · rintro ⟨front, _, whole, matched, _, _, rfl, rfl, back, _, rfl, -, rfl⟩
    exact ⟨front, back, matched, by simp [whole]⟩
  · rintro ⟨front, back, matched, whole⟩
    exact ⟨front, _, by simp [whole], matched, _, _, rfl, rfl, back, _, rfl, trivial, rfl⟩

theorem globMatches_of_plain {project : String} (plain : ∀ c ∈ project.toList, ¬ IsGlobMeta c)
    {front : List Char} : globMatches (globItems 0 project.toList) front ↔
      front = project.toList := by
  rw [globItems_of_plain plain, globMatches_lits]

theorem glob_draftName_of_plain {project : String} (plain : ∀ c ∈ project.toList, ¬ IsGlobMeta c)
    (version : ℕ) : glob (draftPattern project) (draftName project version) := by
  refine glob_draftPattern.mpr ⟨_, numeral version, (globMatches_of_plain plain).mpr rfl, ?_⟩
  rw [toList_draftName]
  simp only [List.append_assoc]

/-- Whether the pattern of a project matches its own drafts does not depend on the number: no
character of the number or of the ending is the last one before the number. -/
theorem glob_draftName_congr {project : String} {m n : ℕ}
    (matched : glob (draftPattern project) (draftName project m)) :
    glob (draftPattern project) (draftName project n) := by
  obtain ⟨front, back, accepted, whole⟩ := glob_draftPattern.mp matched
  rw [toList_draftName, ← List.append_assoc, List.append_left_inj] at whole
  -- Both start the same name, so one is a prefix of the other; if the first is longer, its last
  -- character `v` would be a digit.
  have comparable : front ++ "_weekly_v".toList <+: project.toList ++ "_weekly_v".toList := by
    have first : front ++ "_weekly_v".toList <+: project.toList ++
        "_weekly_v".toList ++ numeral m :=
      ⟨back, whole.symm⟩
    rcases List.prefix_or_prefix_of_prefix first (List.prefix_append _ _) with inside | longer
    · exact inside
    · obtain ⟨digits, longer⟩ := longer
      obtain rfl | ⟨init, d, rfl⟩ := List.eq_nil_or_concat' digits
      · exact ⟨[], by rw [← longer, List.append_nil, List.append_nil]⟩
      · have number : init ++ [d] ++ back = numeral m := by
          rw [← longer] at whole
          simp only [List.append_assoc] at whole ⊢
          exact (List.append_cancel_left (List.append_cancel_left whole)).symm
        have last : d = 'v' := by
          have := congrArg List.getLast? longer
          rw [← List.append_assoc, List.getLast?_concat,
            show "_weekly_v".toList = "_weekly_".toList ++ ['v'] from by decide,
            ← List.append_assoc front, List.getLast?_concat] at this
          exact Option.some.inj this
        have digit : d.isDigit := isDigit_numeral (n := m) (by rw [← number]; simp)
        exact absurd (last ▸ digit) (by decide)
  obtain ⟨more, split⟩ := comparable
  refine glob_draftPattern.mpr ⟨front, more ++ numeral n, accepted, ?_⟩
  rw [toList_draftName, ← split]
  simp only [List.append_assoc]

theorem underscore_mem_draftName (project : String) (version : ℕ) :
    '_' ∈ (draftName project version).toList := by
  rw [toList_draftName]
  exact List.mem_append_left _ (List.mem_append_right _ (by decide))

/-- The path of a draft stays in the drafts folder. -/
theorem resolve_draftPath (ws : Workspace) (version : ℕ) :
    ws.resolve (RawOps.draftPath project.text version) =
      draftAt ws (draftName project.text version) := by
  have spelled : RawOps.draftPath project.text version =
      "/drafts" ++ "/" ++ draftName project.text version := by
    simp only [RawOps.draftPath, draftName, String.append_assoc]
    rfl
  have other : ∀ text : String, '_' ∉ text.toList → draftName project.text version ≠ text :=
    fun text without equal => without (equal ▸ underscore_mem_draftName project.text version)
  have single : posixParts (draftName project.text version) = [draftName project.text version] := by
    have one : (draftName project.text version).toList.splitOn '/' =
        [(draftName project.text version).toList] :=
      List.splitOnP_eq_singleton fun c member => by
        simpa using fun equal => notMem_draftName (equal ▸ member)
    simp [posixParts, one, other "" (by decide), other "." (by decide)]
  rw [Workspace.resolve, spelled, posixParts_slash, single, walk_of_notMem]
  · rfl
  · simp [show posixParts "/drafts" = ["drafts"] from by decide, Ne.symm (other ".." (by decide))]

/-! ### What a save does -/

variable {w : World}

theorem mem_parents_draftAt {ws : Workspace} {q : List String} :
    q ∈ Workspace.parents (draftAt ws name) ↔ q <+: ws.root ++ ["drafts"] := by
  have split : draftAt ws name = (ws.root ++ ["drafts"]) ++ [name] := by simp [draftAt]
  rw [Workspace.parents, split, List.inits_append]
  simp [List.mem_inits, List.prefix_concat_iff, or_comm]

theorem draftAt_injective (ws : Workspace) : Function.Injective (draftAt ws) := fun m n same => by
  simpa [draftAt] using same

theorem draftAt_not_prefix (ws : Workspace) : ¬ draftAt ws name <+: ws.root ++ ["drafts"] := by
  intro pref
  have := pref.length_le
  simp [draftAt] at this

/-- A draft can be written where no folder stands in its place. -/
theorem write_draftPath {ws : Workspace} (folder : DraftsFolder ws names)
    (free : ws.node (draftAt ws (draftName project.text version)) ≠ some .folder) :
    ws.write (RawOps.draftPath project.text version) content =
      .ok (ws.put (draftAt ws (draftName project.text version)) content) := by
  have inside : ws.root <+: draftAt ws (draftName project.text version) := List.prefix_append _ _
  have above : ws.isFile (draftAt ws (draftName project.text version)).dropLast = false := by
    refine folder.free _ ?_
    rw [draftAt, List.dropLast_append_cons]
    rfl
  have parents : ¬ ∃ q ∈ Workspace.parents (draftAt ws (draftName project.text version)),
      ws.isFile q = true := by
    rintro ⟨q, above, file⟩
    rw [folder.free q (mem_parents_draftAt.mp above)] at file
    cases file
  simp only [Workspace.write, Workspace.path, resolve_draftPath, inside, if_true, bind,
    Except.bind, above, Bool.false_eq_true, if_false, if_neg parents, if_neg free]
  rfl

/-- A save writes the draft of the next number, unless a folder stands in its place. -/
theorem save_eq (folder : DraftsFolder w.ws names)
    (free : w.ws.node (draftAt w.ws (draftName project.text (nextVersion names project.text))) ≠
      some .folder) (content : String) :
    ∃ log, save names project.text content w =
      (.ok (savedText project.text (nextVersion names project.text)),
        ⟨w.ws.put (draftAt w.ws (draftName project.text (nextVersion names project.text))) content,
          w.outbox, log⟩) := by
  simp only [save, RawOps.saveReport, write_draftPath folder free]
  exact ⟨_, rfl⟩

/-- The names after a draft is written. -/
theorem draftsFolder_put (folder : DraftsFolder w.ws names) (name content : String) :
    DraftsFolder (w.ws.put (draftAt w.ws name) content) (insert name names) where
  listed other := by
    have same : draftAt (w.ws.put (draftAt w.ws name) content) other = draftAt w.ws other := rfl
    rw [same, Finset.mem_insert, folder.listed other]
    simp only [Workspace.put, (draftAt_injective w.ws).eq_iff, mem_parents_draftAt,
      draftAt_not_prefix, false_and, if_false]
    split_ifs with equal
    · simp [equal]
    · simp [equal]
  free q above := by
    have other : q ≠ draftAt w.ws name := fun equal =>
      draftAt_not_prefix w.ws (equal ▸ above)
    have kept := folder.free q above
    simp only [Workspace.isFile, Workspace.put, other, if_false] at kept ⊢
    split_ifs with made
    · rfl
    · exact kept

/-- Writing a draft leaves the others. -/
theorem node_put_draftAt {ws : Workspace} {other : String} :
    (ws.put (draftAt ws name) content).node (draftAt ws other) =
      if other = name then some (.file (some content)) else ws.node (draftAt ws other) := by
  simp only [Workspace.put, (draftAt_injective ws).eq_iff, mem_parents_draftAt,
    draftAt_not_prefix, false_and, if_false]

/-! ### The number of a draft -/

/-- The number that stands where the name of a draft has it. -/
def spelledVersion (project name : String) : ℕ :=
  Nat.ofDigitChars 10
    ((name.toList.drop (project.toList ++ "_weekly_v".toList).length).rdrop ".md".toList.length) 0

/-- The file is a draft of the project with a number from one on. -/
def isNumbered (project name : String) : Bool :=
  0 < spelledVersion project name && name = draftName project (spelledVersion project name)

/-- The numbers up to a version that no draft of the project has. -/
def gaps (names : Finset String) (project : String) (version : ℕ) : ℕ :=
  ((Finset.Icc 1 version).filter fun m => draftName project m ∉ names).card

/-- The files that the pattern of the project matches without being drafts of it. -/
def foreign (names : Finset String) (project : String) : ℕ :=
  (names.filter fun name => glob (draftPattern project) name ∧ ¬ isNumbered project name).card

/-- The save writes a new file under a number larger than all before, and leaves the others. -/
def SavesFresh (names : Finset String) (project content : String) (w : World) : Prop :=
  let version := nextVersion names project
  let path := draftAt w.ws (draftName project version)
  ∃ w', save names project content w = (.ok (savedText project version), w') ∧
    w.ws.node path = none ∧ w'.ws.node path = some (.file (some content)) ∧
    (∀ name ∈ names, w'.ws.node (draftAt w.ws name) = w.ws.node (draftAt w.ws name)) ∧
    ∀ v, draftName project v ∈ names → v < version

section Numbers

variable {project : String}

theorem spelledVersion_draftName (project : String) (version : ℕ) :
    spelledVersion project (draftName project version) = version := by
  rw [spelledVersion, toList_draftName, List.drop_left, List.rdrop_append_length,
    ofDigitChars_numeral]

theorem isNumbered_iff : isNumbered project name ↔ ∃ v, 0 < v ∧ name = draftName project v := by
  simp only [isNumbered, Bool.and_eq_true, decide_eq_true_eq]
  constructor
  · exact fun numbered => ⟨_, numbered⟩
  · rintro ⟨v, positive, rfl⟩
    rw [spelledVersion_draftName]
    exact ⟨positive, rfl⟩

/-- The drafts with a number up to some version. -/
theorem card_present_add_gaps (names : Finset String) (project : String) (version : ℕ) :
    ((Finset.Icc 1 version).filter fun m => draftName project m ∈ names).card +
      gaps names project version = version := by
  rw [gaps, Finset.card_filter_add_card_filter_not, Nat.card_Icc, Nat.add_sub_cancel]

theorem image_present_subset (names : Finset String) (project : String) (version : ℕ) :
    ((Finset.Icc 1 version).filter fun m => draftName project m ∈ names).image
      (draftName project) ⊆ names.filter fun name => isNumbered project name := by
  intro name member
  obtain ⟨m, inside, rfl⟩ := Finset.mem_image.mp member
  obtain ⟨bounds, present⟩ := Finset.mem_filter.mp inside
  exact Finset.mem_filter.mpr ⟨present, isNumbered_iff.mpr ⟨m, (Finset.mem_Icc.mp bounds).1, rfl⟩⟩

/-- The next number counts the drafts and what else the pattern matches. -/
theorem nextVersion_eq (plain : ∀ c ∈ project.toList, ¬ IsGlobMeta c) :
    nextVersion names project =
      (names.filter fun name => isNumbered project name).card + foreign names project + 1 := by
  have own : (names.filter fun name => glob (draftPattern project) name).filter
      (fun name => isNumbered project name) = names.filter fun name => isNumbered project name := by
    ext name
    simp only [Finset.mem_filter, and_assoc, and_congr_right_iff, and_iff_right_iff_imp]
    intro member numbered
    obtain ⟨v, -, rfl⟩ := isNumbered_iff.mp numbered
    exact glob_draftName_of_plain plain v
  rw [nextVersion, ← own, foreign, ← Finset.filter_filter,
    Finset.card_filter_add_card_filter_not]

/-- Every number in use is at most the count, exactly if foreign files make up for the gaps. -/
theorem forall_le_iff_gaps (names : Finset String) (project : String) :
    (∀ v, draftName project v ∈ names →
        v ≤ (names.filter fun name => isNumbered project name).card + foreign names project) ↔
      ∀ v, draftName project v ∈ names → gaps names project v ≤ foreign names project := by
  constructor
  · intro below v present
    rcases Nat.eq_zero_or_pos v with rfl | positive
    · simp [gaps]
    -- The largest number in use: all drafts are numbered up to it.
    have nonempty : (names.filter fun name => isNumbered project name).Nonempty :=
      ⟨_, Finset.mem_filter.mpr ⟨present, isNumbered_iff.mpr ⟨v, positive, rfl⟩⟩⟩
    obtain ⟨name, member, largest⟩ := Finset.exists_max_image _ (spelledVersion project) nonempty
    obtain ⟨listed, numbered⟩ := Finset.mem_filter.mp member
    obtain ⟨top, -, rfl⟩ := isNumbered_iff.mp numbered
    rw [spelledVersion_draftName] at largest
    have all : ((Finset.Icc 1 top).filter fun m => draftName project m ∈ names).image
        (draftName project) = names.filter fun name => isNumbered project name := by
      refine Finset.Subset.antisymm (image_present_subset names project top) fun name inside => ?_
      obtain ⟨found, numbered⟩ := Finset.mem_filter.mp inside
      obtain ⟨m, above, rfl⟩ := isNumbered_iff.mp numbered
      have bound := largest _ inside
      rw [spelledVersion_draftName] at bound
      exact Finset.mem_image_of_mem _
        (Finset.mem_filter.mpr ⟨Finset.mem_Icc.mpr ⟨above, bound⟩, found⟩)
    have count := congrArg Finset.card all
    rw [Finset.card_image_of_injective _ (draftName_injective project)] at count
    have total := card_present_add_gaps names project top
    have topBelow := below top listed
    have monotone : gaps names project v ≤ gaps names project top := by
      have bound := largest _ (Finset.mem_filter.mpr
        ⟨present, isNumbered_iff.mpr ⟨v, positive, rfl⟩⟩)
      rw [spelledVersion_draftName] at bound
      exact Finset.card_le_card
        (Finset.filter_subset_filter _ (Finset.Icc_subset_Icc_right bound))
    omega
  · intro few v present
    have subset := Finset.card_le_card (image_present_subset names project v)
    rw [Finset.card_image_of_injective _ (draftName_injective project)] at subset
    have total := card_present_add_gaps names project v
    have := few v present
    omega

end Numbers

/-- A save takes a new number larger than all before exactly if, for every number in use, the
files that the pattern matches besides the drafts are at least as many as the numbers up to it
that no draft has. -/
theorem savesFresh_iff (folder : DraftsFolder w.ws names)
    (plain : ∀ c ∈ project.text.toList, ¬ IsGlobMeta c) :
    SavesFresh names project.text content w ↔
      ∀ v, draftName project.text v ∈ names →
        gaps names project.text v ≤ foreign names project.text := by
  rw [← forall_le_iff_gaps]
  simp only [SavesFresh]
  constructor
  · rintro ⟨w', -, -, -, -, larger⟩ v present
    have := larger v present
    rw [nextVersion_eq plain] at this
    omega
  · intro below
    have larger : ∀ v, draftName project.text v ∈ names → v < nextVersion names project.text := by
      intro v present
      rw [nextVersion_eq plain]
      exact Nat.lt_succ_of_le (below v present)
    -- A number above all in use names no draft, so nothing is overwritten.
    have absent : draftName project.text (nextVersion names project.text) ∉ names := fun present =>
      lt_irrefl _ (larger _ present)
    have none : w.ws.node (draftAt w.ws (draftName project.text (nextVersion names project.text))) =
        none := by
      rw [folder.listed, Option.not_isSome_iff_eq_none] at absent
      exact absent
    obtain ⟨log, saved⟩ := save_eq folder (by rw [none]; simp) content
    refine ⟨_, saved, none, by rw [node_put_draftAt, if_pos rfl], fun name member => ?_, larger⟩
    have other : name ≠ draftName project.text (nextVersion names project.text) := fun equal =>
      absent (equal ▸ member)
    rw [node_put_draftAt, if_neg other]

theorem resolved_run : ".." ∉ ["run"] := by decide

/-- A run whose drafts folder holds one file. -/
def onlyDraft (name : String) : World :=
  .start
    { root := ["run"]
      rootResolved := resolved_run
      node := fun q =>
        if q = ["run", "drafts", name] then some (.file (some "saved before"))
        else if q = [] ∨ q = ["run"] ∨ q = ["run", "drafts"] then some .folder else none }

theorem draftsFolder_onlyDraft (name : String) : DraftsFolder (onlyDraft name).ws {name} where
  listed other := by
    simp [onlyDraft, World.start, draftAt, apply_ite Option.isSome]
  free q above := by
    rw [← List.mem_inits] at above
    simp only [onlyDraft, World.start, List.cons_append, List.nil_append, List.inits,
      List.map_cons, List.map_nil, List.mem_cons, List.not_mem_nil, or_false] at above
    rcases above with rfl | rfl | rfl <;> simp [Workspace.isFile, onlyDraft, World.start]

def alpha : ProjectName := ⟨"alpha", by decide⟩

theorem plain_alpha : ∀ c ∈ alpha.text.toList, c ≠ '/' ∧ ¬ IsGlobMeta c := by
  have all : (alpha.text.toList.all fun c => decide (c ≠ '/' ∧ ¬ IsGlobMeta c)) = true := by decide
  exact fun c member => of_decide_eq_true (List.all_eq_true.mp all c member)

/-- With the second version alone, the next save is the second version again. -/
theorem not_savesFresh_gap :
    DraftsFolder (onlyDraft "alpha_weekly_v2.md").ws {"alpha_weekly_v2.md"} ∧
      (∀ c ∈ alpha.text.toList, c ≠ '/' ∧ ¬ IsGlobMeta c) ∧
      ¬ SavesFresh {"alpha_weekly_v2.md"} alpha.text "new" (onlyDraft "alpha_weekly_v2.md") := by
  refine ⟨draftsFolder_onlyDraft _, plain_alpha, ?_⟩
  rintro ⟨w', -, -, -, -, larger⟩
  exact absurd (larger 2 (by decide)) (by decide)

theorem savesFresh_second :
    SavesFresh {"alpha_weekly_v1.md"} alpha.text "new" (onlyDraft "alpha_weekly_v1.md") := by
  refine (savesFresh_iff (draftsFolder_onlyDraft _)
    fun c member => (plain_alpha c member).2).mpr fun v present => ?_
  have first : draftName alpha.text v = draftName alpha.text 1 := Finset.mem_singleton.mp present
  rw [draftName_injective alpha.text first]
  decide

/-! ### The draft that is judged -/

/-- `p.read_text(encoding="utf-8")`, at the path of a name in the drafts folder. -/
def readDraft (ws : Workspace) (name : String) : Except PyError String :=
  match ws.node (draftAt ws name) with
  | some (.file (some text)) => .ok (readText text)
  | some (.file none) => .error .unicodeDecodeError
  | some .folder => .error .isADirectory
  | none => .error .fileNotFound

/-- `Workspace.drafts`, on the names in the drafts folder. -/
def Workspace.drafts (ws : Workspace) (names : Finset String) :
    Except PyError (List (String × String)) :=
  ((names.filter fun name => glob "*.md" name).sort (· ≤ ·)).mapM fun name => do
    return ("/drafts/" ++ name, ← readDraft ws name)

/-- A save, and the names in the drafts folder after it. -/
def saveStep (project : String) (s : World × Finset String) (content : String) :
    World × Finset String :=
  match save s.2 project content s.1 with
  | (.ok _, w) => (w, insert (draftName project (nextVersion s.2 project)) s.2)
  | (.error _, w) => (w, s.2)

/-- Saves for one project, starting from an empty drafts folder. -/
def saveAll (project : String) (w : World) (contents : List String) : World × Finset String :=
  contents.foldl (saveStep project) (w, ∅)

/-- The draft that an evaluation judges after some saves is the one saved last. -/
def JudgesLast (project : String) (w : World) (contents : List String) : Prop :=
  ∃ drafts, (saveAll project w contents).1.ws.drafts (saveAll project w contents).2 = .ok drafts ∧
    ∀ seen : Observed, seen.drafts = drafts → ∀ last ∈ contents.getLast?, latestDraft seen = last

theorem glob_md_draftName {project : String} : glob "*.md" (draftName project version) := by
  have read : globItems 0 "*.md".toList = [.any] ++ ".md".toList.map .lit := rfl
  rw [glob, read, globMatches_append]
  refine ⟨(project.toList ++ "_weekly_v".toList) ++ numeral version, ".md".toList, ?_,
    globMatches_singleton_any, globMatches_lits.mpr rfl⟩
  rw [toList_draftName, ← List.append_assoc]

theorem saveStep_eq {s : World × Finset String} (folder : DraftsFolder s.1.ws s.2)
    (free : s.1.ws.node (draftAt s.1.ws (draftName project.text (nextVersion s.2 project.text))) ≠
      some .folder) (content : String) :
    ∃ log, saveStep project.text s content =
      (⟨s.1.ws.put (draftAt s.1.ws (draftName project.text (nextVersion s.2 project.text))) content,
          s.1.outbox, log⟩,
        insert (draftName project.text (nextVersion s.2 project.text)) s.2) := by
  obtain ⟨log, saved⟩ := save_eq folder free content
  exact ⟨log, by rw [saveStep, saved]⟩

/-- What stands in the drafts folder: the names, and the text of each number. -/
structure Holds (project : String) (s : World × Finset String) (numbers : Finset ℕ)
    (text : ℕ → String) : Prop where
  folder : DraftsFolder s.1.ws s.2
  names : s.2 = numbers.image (draftName project)
  texts : ∀ n ∈ numbers, s.1.ws.node (draftAt s.1.ws (draftName project n)) =
    some (.file (some (text n)))

theorem Holds.step {s : World × Finset String} {numbers : Finset ℕ} {text : ℕ → String}
    (holds : Holds project.text s numbers text) (content : String) :
    Holds project.text (saveStep project.text s content)
      (insert (nextVersion s.2 project.text) numbers)
      (Function.update text (nextVersion s.2 project.text) content) := by
  -- No draft is at the place of a folder.
  have free : s.1.ws.node (draftAt s.1.ws (draftName project.text (nextVersion s.2 project.text))) ≠
      some .folder := by
    intro taken
    have listed := (holds.folder.listed _).mpr (by rw [taken]; rfl)
    generalize nextVersion s.2 project.text = version at taken listed
    rw [holds.names, Finset.mem_image] at listed
    obtain ⟨n, member, same⟩ := listed
    rw [← same, holds.texts n member] at taken
    cases taken
  obtain ⟨log, stepped⟩ := saveStep_eq holds.folder free content
  rw [stepped]
  refine ⟨draftsFolder_put holds.folder _ _, ?_, fun n member => ?_⟩
  · rw [Finset.image_insert, ← holds.names]
  · have kept : draftAt (s.1.ws.put (draftAt s.1.ws
        (draftName project.text (nextVersion s.2 project.text))) content) =
        draftAt s.1.ws := rfl
    rw [kept, node_put_draftAt]
    by_cases same : n = nextVersion s.2 project.text
    · rw [if_pos (congrArg _ same), same, Function.update_self]
    · rw [if_neg ((draftName_injective project.text).ne same), Function.update_of_ne same]
      exact holds.texts n ((Finset.mem_insert.mp member).resolve_left same)

theorem mapM_ok {α β : Type} {f : α → Except PyError β} {g : α → β} {items : List α}
    (all : ∀ a ∈ items, f a = .ok (g a)) : items.mapM f = .ok (items.map g) := by
  induction items with
  | nil => rfl
  | cons a items ih =>
    rw [List.mapM_cons, all a List.mem_cons_self, ih fun b member => all b (.tail _ member)]
    rfl

theorem getLast?_of_pairwise {items : List String} (sorted : items.Pairwise (· ≤ ·)) {x : String}
    (member : x ∈ items) (last : ∀ y ∈ items, y ≤ x) : items.getLast? = some x := by
  obtain rfl | ⟨init, y, rfl⟩ := List.eq_nil_or_concat' items
  · cases member
  · rw [List.getLast?_concat]
    rcases List.mem_append.mp member with before | final
    · have above := (List.pairwise_append.mp sorted).2.2 x before y List.mem_cons_self
      rw [le_antisymm above (last y (by simp))]
    · rw [List.mem_singleton.mp final]

/-- The draft with the last name is the one that is judged. -/
theorem Holds.latest {s : World × Finset String} {numbers : Finset ℕ} {text : ℕ → String}
    (holds : Holds project.text s numbers text) {top : ℕ} (member : top ∈ numbers)
    (last : ∀ n ∈ numbers, draftName project.text n ≤ draftName project.text top) :
    ∃ drafts, s.1.ws.drafts s.2 = .ok drafts ∧
      ∀ seen : Observed, seen.drafts = drafts → latestDraft seen = readText (text top) := by
  have all : (s.2.filter fun name => glob "*.md" name) = s.2 := by
    refine Finset.filter_true_of_mem fun name listed => ?_
    rw [holds.names, Finset.mem_image] at listed
    obtain ⟨n, -, rfl⟩ := listed
    exact glob_md_draftName
  let entry (name : String) : String × String :=
    ("/drafts/" ++ name, readText (text (spelledVersion project.text name)))
  have read : s.1.ws.drafts s.2 = .ok ((s.2.sort (· ≤ ·)).map entry) := by
    rw [Workspace.drafts, all]
    refine mapM_ok fun name listed => ?_
    rw [Finset.mem_sort, holds.names, Finset.mem_image] at listed
    obtain ⟨n, inside, rfl⟩ := listed
    simp only [readDraft, holds.texts n inside, entry, spelledVersion_draftName]
    rfl
  -- The drafts are read in the order of their names as texts.
  have final : (s.2.sort (· ≤ ·)).getLast? = some (draftName project.text top) := by
    refine getLast?_of_pairwise (Finset.pairwise_sort _ _) ?_ fun name listed => ?_
    · rw [Finset.mem_sort, holds.names]
      exact Finset.mem_image_of_mem _ member
    · rw [Finset.mem_sort, holds.names, Finset.mem_image] at listed
      obtain ⟨n, inside, rfl⟩ := listed
      exact last n inside
  refine ⟨_, read, fun seen same => ?_⟩
  rw [latestDraft, same, List.getLast?_map, final]
  simp only [Option.map_some, Option.getD_some, entry, spelledVersion_draftName]

/-- The names of drafts are ordered as their numbers are as texts. -/
theorem draftName_le {project : String} {m n : ℕ}
    (before : numeral m ++ ".md".toList ≤ numeral n ++ ".md".toList) :
    draftName project m ≤ draftName project n := by
  rw [String.le_iff_toList_le, toList_draftName, toList_draftName]
  rcases before.lt_or_eq with less | equal
  · exact le_of_lt (List.append_left_lt less)
  · rw [equal]

theorem saveAll_concat {project : String} (contents : List String) (content : String) :
    saveAll project w (contents ++ [content]) =
      saveStep project (saveAll project w contents) content := by
  simp [saveAll]

theorem holds_nil {project : String} (empty : DraftsFolder w.ws ∅) (text : ℕ → String) :
    Holds project (saveAll project w []) ∅ text :=
  ⟨empty, rfl, fun _ member => absurd member (Finset.notMem_empty _)⟩

/-- Where the pattern of the project matches its drafts, they are numbered in the order they
are saved. -/
theorem holds_saveAll (empty : DraftsFolder w.ws ∅)
    (own : glob (draftPattern project.text) (draftName project.text 1)) (contents : List String) :
    ∃ text, Holds project.text (saveAll project.text w contents) (Finset.Icc 1 contents.length)
      text ∧ ∀ k < contents.length, contents[k]? = some (text (k + 1)) := by
  induction contents using List.reverseRecOn with
  | nil => exact ⟨fun _ => "", holds_nil empty _, fun k below => absurd below (Nat.not_lt_zero k)⟩
  | append_singleton contents content ih =>
    obtain ⟨text, holds, texts⟩ := ih
    -- All the drafts are matched, so the next number is one more than how many there are.
    have next : nextVersion (saveAll project.text w contents).2 project.text =
        contents.length + 1 := by
      rw [nextVersion, holds.names, Finset.filter_true_of_mem,
        Finset.card_image_of_injective _ (draftName_injective _), Nat.card_Icc, Nat.add_sub_cancel]
      intro name listed
      obtain ⟨n, -, rfl⟩ := Finset.mem_image.mp listed
      exact glob_draftName_congr own
    have step := holds.step content
    rw [next, ← saveAll_concat] at step
    have more : insert (contents.length + 1) (Finset.Icc 1 contents.length) =
        Finset.Icc 1 (contents ++ [content]).length := by
      ext n
      simp only [Finset.mem_insert, Finset.mem_Icc, List.length_append, List.length_singleton]
      omega
    rw [more] at step
    refine ⟨_, step, fun k below => ?_⟩
    rw [List.length_append, List.length_singleton] at below
    rcases Nat.lt_or_eq_of_le (Nat.le_of_lt_succ below) with earlier | rfl
    · rw [List.getElem?_append_left earlier, Function.update_of_ne (by omega), texts k earlier]
    · rw [List.getElem?_concat_length, Function.update_self]

/-- Where it does not match them, every save is numbered one. -/
theorem nextVersion_of_not {numbers : Finset ℕ} (inside : numbers ⊆ {1})
    (other : glob (draftPattern project.text) (draftName project.text 1) = false) :
    nextVersion (numbers.image (draftName project.text)) project.text = 1 := by
  rw [nextVersion, Finset.filter_false_of_mem, Finset.card_empty]
  intro name listed
  obtain ⟨n, member, rfl⟩ := Finset.mem_image.mp listed
  rw [Finset.mem_singleton.mp (inside member), other]
  exact Bool.false_ne_true

theorem Holds.step_of_not {s : World × Finset String} {numbers : Finset ℕ} {text : ℕ → String}
    (holds : Holds project.text s numbers text) (inside : numbers ⊆ {1})
    (other : glob (draftPattern project.text) (draftName project.text 1) = false)
    (content : String) :
    Holds project.text (saveStep project.text s content) {1} (Function.update text 1 content) := by
  have next : nextVersion s.2 project.text = 1 := holds.names ▸ nextVersion_of_not inside other
  have only : insert 1 numbers = ({1} : Finset ℕ) :=
    Finset.Subset.antisymm (Finset.insert_subset (Finset.mem_singleton_self 1) inside)
      (Finset.singleton_subset_iff.mpr (Finset.mem_insert_self _ _))
  have step := holds.step content
  rwa [next, only] at step

/-- There is at most the first draft then, and it has the text saved last. -/
theorem holds_saveAll_of_not (empty : DraftsFolder w.ws ∅)
    (other : glob (draftPattern project.text) (draftName project.text 1) = false)
    (contents : List String) :
    ∃ numbers ⊆ {1}, ∃ text, Holds project.text (saveAll project.text w contents) numbers text := by
  induction contents using List.reverseRecOn with
  | nil => exact ⟨∅, Finset.empty_subset _, fun _ => "", holds_nil empty _⟩
  | append_singleton contents content ih =>
    obtain ⟨numbers, inside, text, holds⟩ := ih
    rw [saveAll_concat]
    exact ⟨{1}, subset_rfl, _, holds.step_of_not inside other content⟩

theorem drafts_empty (ws : Workspace) : ws.drafts ∅ = .ok [] := by
  simp [Workspace.drafts, pure, Except.pure]

/-- Where the drafts are numbered in order, the one that is judged has the number that is the
last as a text. -/
theorem judgesLast_iff_lastNumber (empty : DraftsFolder w.ws ∅)
    (own : glob (draftPattern project.text) (draftName project.text 1)) {contents : List String}
    (nonempty : contents ≠ []) :
    JudgesLast project.text w contents ↔
      contents[lastNumber contents.length - 1]?.map readText = contents.getLast? := by
  have long : 0 < contents.length := List.length_pos_iff.mpr nonempty
  obtain ⟨text, holds, texts⟩ := holds_saveAll empty own contents
  have positive := lastNumber_pos long
  have below := lastNumber_le contents.length
  obtain ⟨drafts, read, judged⟩ := holds.latest (Finset.mem_Icc.mpr ⟨positive, below⟩)
    fun n member => draftName_le (numeral_le_lastNumber _ (by decide) (Finset.mem_Icc.mp member).1
      (Finset.mem_Icc.mp member).2)
  have found := texts (lastNumber contents.length - 1) (by omega)
  rw [Nat.sub_add_cancel positive] at found
  rw [found, Option.map_some]
  constructor
  · rintro ⟨others, read', last⟩
    obtain rfl : drafts = others := Except.ok.inj (read.symm.trans read')
    rw [← judged { drafts } rfl, last { drafts } rfl _ (List.getLast?_eq_some_getLast nonempty),
      List.getLast?_eq_some_getLast nonempty]
  · intro same
    refine ⟨drafts, read, fun seen reads last member => ?_⟩
    rw [← same, Option.mem_some_iff] at member
    rw [judged seen reads, member]

/-- After saves into an empty folder, the draft that is judged is the one saved last exactly if
that one has no carriage return, and the pattern of the project does not match its own drafts,
all digits of the number of saves but the last are nines, or what is read under the number of
nines with one digit less is the same text. -/
theorem judgesLast_iff (empty : DraftsFolder w.ws ∅) (contents : List String) :
    JudgesLast project.text w contents ↔
      (∀ last ∈ contents.getLast?, '\r' ∉ last.toList) ∧
        (glob (draftPattern project.text) (draftName project.text 1) = false ∨
          10 ^ (numeral contents.length).length ≤ contents.length + 10 ∨
            contents[10 ^ ((numeral contents.length).length - 1) - 2]?.map readText =
              contents.getLast?) := by
  obtain rfl | ⟨earlier, content, split⟩ := List.eq_nil_or_concat' contents
  · refine iff_of_true ⟨[], drafts_empty _, fun _ _ last member => ?_⟩
      ⟨fun last member => ?_, .inr (.inl (by decide))⟩ <;>
    cases member
  have final : contents.getLast? = some content := split ▸ List.getLast?_concat
  -- A text that is read back as it is has no carriage return.
  have plain : (∀ last ∈ contents.getLast?, '\r' ∉ last.toList) ↔ readText content = content := by
    rw [final, readText_eq_self_iff]
    simp
  rw [plain]
  cases own : glob (draftPattern project.text) (draftName project.text 1) with
  | false =>
    subst split
    -- No draft is counted, so every save writes the first one again.
    obtain ⟨numbers, inside, text, holds⟩ := holds_saveAll_of_not empty own earlier
    have holds := holds.step_of_not inside own content
    rw [← saveAll_concat] at holds
    obtain ⟨drafts, read, judged⟩ := holds.latest (Finset.mem_singleton_self 1)
      fun n member => (Finset.mem_singleton.mp member ▸ le_rfl)
    rw [Function.update_self] at judged
    simp only [true_or, and_true]
    constructor
    · rintro ⟨others, read', last⟩
      obtain rfl : drafts = others := Except.ok.inj (read.symm.trans read')
      rw [← judged { drafts } rfl, last { drafts } rfl content final]
    · refine fun same => ⟨drafts, read, fun seen reads last member => ?_⟩
      rw [final, Option.mem_some_iff] at member
      rw [judged seen reads, same, member]
  | true =>
    rw [judgesLast_iff_lastNumber empty own (by simp [split])]
    simp only [Bool.true_eq_false, false_or]
    by_cases nines : 10 ^ (numeral contents.length).length ≤ contents.length + 10
    · rw [lastNumber_eq_iff.mpr nines, ← List.getLast?_eq_getElem?, final]
      simp [nines]
    · rw [lastNumber, if_neg nines, Nat.sub_sub]
      simp only [nines, false_or, iff_and_self]
      intro same
      -- What has been read holds no carriage return, so the first condition follows.
      obtain ⟨text, -, read⟩ := Option.map_eq_some_iff.mp (same.trans final)
      exact readText_eq_self_iff.mpr (read ▸ notMem_readText text)

/-- A run whose drafts folder is empty. -/
def noDrafts : World :=
  .start { root := ["run"], rootResolved := resolved_run, node := fun _ => none }

theorem draftsFolder_noDrafts : DraftsFolder noDrafts.ws ∅ where
  listed name := by simp [noDrafts, World.start]
  free q _ := rfl

/-- After the tenth save it is the ninth draft that is judged. -/
theorem not_judgesLast_ten : DraftsFolder noDrafts.ws ∅ ∧
    ¬ JudgesLast alpha.text noDrafts ((List.range 10).map toString) := by
  refine ⟨draftsFolder_noDrafts, ?_⟩
  rw [judgesLast_iff_lastNumber draftsFolder_noDrafts (by decide)
    (by decide)]
  decide

theorem judgesLast_nine : JudgesLast alpha.text noDrafts ((List.range 9).map toString) :=
  (judgesLast_iff draftsFolder_noDrafts _).mpr
    ⟨by decide, .inr (.inl (by decide))⟩

end AgentLabs.GuardLab
