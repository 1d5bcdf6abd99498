import AgentLabs.Math.Dict
import AgentLabs.Math.Statistics
import AgentLabs.Text.Lines
import AgentLabs.Text.Utf8
import Mathlib.Data.String.Basic

/-!
# The diff of a run

After a run the files of the project are compared with those before it. Files whose bytes differ are
decoded and split into lines, and the lines are compared; a file that is on one side only is
compared with no lines.

Bytes that are no text are replaced in the decoding, so that files that differ can come to the same
lines, as an empty file and none do. Such files are not in the diff.

## Main definitions

* `UnifiedDiff`: the comparison of lines
* `diffFiles`: the diff of all files
* `DiffLaw`: what is wanted of the diff
* `ShownInText`: files that differ are decoded to different texts

## Main results

* `diffLaw_iff`: what is wanted holds if differing files have different texts
* `shownInText_of_isText`: so it is if all files are texts, and not empty
-/

namespace AgentLabs.CodingSkills

open Math Text

/-! ### Comparison -/

/-- The files of a project: their bytes under their names. -/
abbrev Files := Dict String (List UInt8)

/-- The two lines in front of the differences of a file. -/
def header (fromfile tofile : String) : List String :=
  ["--- " ++ fromfile ++ "\n", "+++ " ++ tofile ++ "\n"]

/-- `difflib.unified_diff` of the lines of two files. It yields nothing for the same lines, and the
header in front of the differences of other ones. -/
structure UnifiedDiff where
  run : List String → List String → String → String → List String
  run_self : ∀ lines fromfile tofile, run lines lines fromfile tofile = []
  run_of_ne : ∀ old new fromfile tofile, old ≠ new →
    ∃ rest, run old new fromfile tofile = header fromfile tofile ++ rest

/-- The lines of a file that may not be there, as they are compared. -/
def linesOf (content : Option (List UInt8)) : List String :=
  (splitLinesKeepEnds (decodeUtf8 (content.getD []))).map String.ofList

/-- How the header names a file, if it is there. -/
def nameIn (files : Files) (side name : String) : String :=
  if name ∈ files.keys then side ++ name else "/dev/null"

/-- A line of the diff, as it is written: the next one begins on a line of its own. -/
def written (line : String) : String :=
  if line.toList.getLast? = some '\n' then line else line ++ "\n\\ No newline at end of file\n"

/-- The differences of a file. -/
def fileDiff (unified : UnifiedDiff) (before after : Files) (name : String) : List String :=
  unified.run (linesOf (before.get? name)) (linesOf (after.get? name)) (nameIn before "a/" name)
    (nameIn after "b/" name)

/-- The names of the files whose bytes differ. -/
def differing (before after : Files) : List String :=
  (sortedSet (before.keys ++ after.keys)).filter fun name => before.get? name ≠ after.get? name

/-- The diff of some of the files, one after the other. -/
def diffOf (unified : UnifiedDiff) (before after : Files) (names : List String) : String :=
  String.join ((names.flatMap (fileDiff unified before after)).map written)

/-- `diff_files`. -/
def diffFiles (unified : UnifiedDiff) (before after : Files) : String :=
  diffOf unified before after (differing before after)

/-! ### What is wanted -/

/-- The lines are a header with the name, on one side at least. -/
def IsHeaderOf (name lines : String) : Prop :=
  ∃ fromfile tofile, lines = String.join (header fromfile tofile) ∧
    (fromfile = "a/" ++ name ∨ fromfile = "/dev/null") ∧
    (tofile = "b/" ++ name ∨ tofile = "/dev/null" ∧ fromfile = "a/" ++ name)

/-- What is wanted of the diff: it is empty only if the files are the same, and the part of each
file that differs, which is the text behind the diff of the files in front of it, begins with a
header that has its name. -/
structure DiffLaw (unified : UnifiedDiff) (before after : Files) : Prop where
  empty_iff : diffFiles unified before after = "" ↔ ∀ name, before.get? name = after.get? name
  named : ∀ name, before.get? name ≠ after.get? name → ∃ front back lines rest,
    differing before after = front ++ name :: back ∧ IsHeaderOf name lines ∧
      diffFiles unified before after = diffOf unified before after front ++ lines ++ rest

/-- Files that differ are decoded to different texts, where a file that is not there counts as
empty. -/
def ShownInText (before after : Files) : Prop :=
  ∀ name, before.get? name ≠ after.get? name →
    decodeUtf8 ((before.get? name).getD []) ≠ decodeUtf8 ((after.get? name).getD [])

section

variable {unified : UnifiedDiff} {before after files : Files} {name other : String}
  {x y : Option (List UInt8)}

/-- The lines tell the text. -/
theorem linesOf_eq_iff : linesOf x = linesOf y ↔
    decodeUtf8 (x.getD []) = decodeUtf8 (y.getD []) := by
  rw [linesOf, linesOf, (List.map_injective_iff.mpr fun _ _ => String.ofList_inj.mp).eq_iff]
  constructor
  · intro same
    rw [← flatten_splitLinesKeepEnds (decodeUtf8 (x.getD [])), same, flatten_splitLinesKeepEnds]
  · exact congrArg splitLinesKeepEnds

theorem mem_differing : name ∈ differing before after ↔ before.get? name ≠ after.get? name := by
  rw [differing, List.mem_filter, mem_sortedSet, List.mem_append, decide_eq_true_eq]
  refine and_iff_right_of_imp fun differ => ?_
  by_contra absent
  rw [not_or, ← Dict.get?_eq_none_iff, ← Dict.get?_eq_none_iff] at absent
  exact differ (absent.1.trans absent.2.symm)

theorem nodup_differing : (differing before after).Nodup :=
  List.filter_sublist.nodup nodup_sortedSet

theorem mem_keys_of_mem_differing (member : name ∈ differing before after) :
    name ∈ before.keys ++ after.keys := mem_sortedSet.mp (List.mem_filter.mp member).1

theorem diffOf_cons (names : List String) : diffOf unified before after (name :: names) =
    diffOf unified before after [name] ++ diffOf unified before after names := by
  simp [diffOf]

theorem diffOf_append (front back : List String) : diffOf unified before after (front ++ back) =
    diffOf unified before after front ++ diffOf unified before after back := by
  simp [diffOf]

/-- A file whose lines are the same on both sides has no part. -/
theorem diffOf_same (same : linesOf (before.get? name) = linesOf (after.get? name)) :
    diffOf unified before after [name] = "" := by
  simp [diffOf, fileDiff, same, unified.run_self]

/-- The lines of a header are written as they are. -/
theorem written_header (fromfile tofile : String) :
    (header fromfile tofile).map written = header fromfile tofile := by
  simp [header, written, List.getLast?_cons]

/-- The part of another file begins with its header. -/
theorem diffOf_differ (unified : UnifiedDiff)
    (differ : linesOf (before.get? name) ≠ linesOf (after.get? name)) :
    ∃ rest, diffOf unified before after [name] =
      String.join (header (nameIn before "a/" name) (nameIn after "b/" name)) ++ rest := by
  obtain ⟨rest, split⟩ := unified.run_of_ne _ _ (nameIn before "a/" name)
    (nameIn after "b/" name) differ
  refine ⟨String.join (rest.map written), ?_⟩
  rw [diffOf, List.flatMap_singleton, fileDiff, split, List.map_append, written_header,
    String.join_append]

/-- The header of a file that differs has its name. -/
theorem isHeaderOf_nameIn (differ : before.get? name ≠ after.get? name) :
    IsHeaderOf name (String.join (header (nameIn before "a/" name) (nameIn after "b/" name))) := by
  have member := List.mem_append.mp (mem_keys_of_mem_differing (mem_differing.mpr differ))
  refine ⟨_, _, rfl, ?_⟩
  unfold nameIn
  split_ifs with old new
  · exact ⟨.inl rfl, .inl rfl⟩
  · exact ⟨.inl rfl, .inr ⟨rfl, rfl⟩⟩
  · exact ⟨.inr rfl, .inl rfl⟩
  · exact absurd member (not_or.mpr ⟨old, by assumption⟩)

/-! #### Reading a header -/

/-- A text is cut at its first end of a line in one way. -/
theorem cut_unique {a b x y : List Char} (plain : '\n' ∉ a) (plain' : '\n' ∉ b)
    (same : a ++ '\n' :: x = b ++ '\n' :: y) : a = b ∧ x = y := by
  induction a generalizing b with
  | nil =>
    cases b with
    | nil => exact ⟨rfl, (List.cons.inj same).2⟩
    | cons c b => exact absurd (List.cons.inj same).1 fun here => plain' (here ▸ .head _)
  | cons c a ih =>
    cases b with
    | nil => exact absurd (List.cons.inj same).1 fun here => plain (here ▸ .head _)
    | cons c' b =>
      obtain ⟨rfl, rest⟩ := List.cons.inj same
      obtain ⟨rfl, rfl⟩ := ih (List.not_mem_of_not_mem_cons plain)
        (List.not_mem_of_not_mem_cons plain') rest
      exact ⟨rfl, rfl⟩

/-- The characters of a header. -/
theorem toList_join_header (fromfile tofile rest : String) :
    (String.join (header fromfile tofile) ++ rest).toList =
      "--- ".toList ++ (fromfile.toList ++ '\n' ::
        ("+++ ".toList ++ (tofile.toList ++ '\n' :: rest.toList))) := by
  simp [header, String.toList_append]

/-- **A header is read in one way**, if there is no end of a line in the names. -/
theorem header_unique {f f' t t' rest rest' : String}
    (plain : ∀ text ∈ [f, f', t, t'], '\n' ∉ text.toList)
    (same : String.join (header f t) ++ rest = String.join (header f' t') ++ rest') :
    f = f' ∧ t = t' := by
  have chars := congrArg String.toList same
  rw [toList_join_header, toList_join_header] at chars
  simp only [List.forall_mem_cons] at plain
  obtain ⟨hf, hf', ht, ht', -⟩ := plain
  obtain ⟨first, more⟩ := cut_unique hf hf' (List.append_cancel_left chars)
  obtain ⟨second, -⟩ := cut_unique ht ht' (List.append_cancel_left more)
  exact ⟨String.toList_inj.mp first, String.toList_inj.mp second⟩

theorem side_inj {side : String} (same : side ++ name = side ++ other) : name = other := by
  simpa [← String.toList_inj] using same

/-- The name in a header is that of a file. -/
theorem eq_of_nameIn {side : String} {c : Char} (first : side.toList.head? = some c)
    (slash : c ≠ '/') (named : nameIn files side name = side ++ other) : name = other := by
  unfold nameIn at named
  split_ifs at named with there
  · exact side_inj named
  · have heads := congrArg (fun text => text.toList.head?) named
    rw [String.toList_append, List.head?_append, first, Option.some_or] at heads
    exact absurd (Option.some.inj heads).symm slash

theorem plain_append {side : String} (aside : '\n' ∉ side.toList) (plain : '\n' ∉ name.toList) :
    '\n' ∉ (side ++ name).toList := by
  rw [String.toList_append, List.mem_append]
  exact not_or.mpr ⟨aside, plain⟩

theorem plain_nameIn {side : String} (aside : '\n' ∉ side.toList) (plain : '\n' ∉ name.toList) :
    '\n' ∉ (nameIn files side name).toList := by
  unfold nameIn
  split_ifs
  · exact plain_append aside plain
  · decide

/-- **A header at the start of a diff** is that of one of its files. -/
theorem mem_of_isHeaderOf {names : List String} {lines rest : String}
    (plain : ∀ name ∈ names, '\n' ∉ name.toList) (plain' : '\n' ∉ other.toList)
    (named : IsHeaderOf other lines)
    (starts : diffOf unified before after names = lines ++ rest) : other ∈ names := by
  obtain ⟨fromfile, tofile, rfl, old, new⟩ := named
  induction names with
  | nil =>
    have chars := congrArg String.toList starts
    rw [toList_join_header] at chars
    cases chars
  | cons name names ih =>
    rw [diffOf_cons] at starts
    by_cases same : linesOf (before.get? name) = linesOf (after.get? name)
    · rw [diffOf_same same, String.empty_append] at starts
      exact .tail _ (ih (fun name later => plain name (.tail _ later)) starts)
    · obtain ⟨more, part⟩ := diffOf_differ unified same
      rw [part, String.append_assoc] at starts
      have own : '\n' ∉ name.toList := plain name (.head _)
      have first : '\n' ∉ fromfile.toList := by
        rcases old with rfl | rfl
        · exact plain_append (by decide) plain'
        · decide
      have second : '\n' ∉ tofile.toList := by
        rcases new with rfl | ⟨rfl, -⟩
        · exact plain_append (by decide) plain'
        · decide
      obtain ⟨fromfiles, tofiles⟩ := header_unique (List.forall_mem_cons.mpr
        ⟨plain_nameIn (by decide) own, List.forall_mem_cons.mpr ⟨first, List.forall_mem_cons.mpr
          ⟨plain_nameIn (by decide) own, List.forall_mem_singleton.mpr second⟩⟩⟩) starts
      -- One of the two sides has the name.
      rcases new with rfl | ⟨rfl, rfl⟩
      · exact eq_of_nameIn rfl (by decide) tofiles ▸ .head _
      · exact eq_of_nameIn rfl (by decide) fromfiles ▸ .head _

/-- **What is wanted of the diff** holds if differing files have different texts. -/
theorem diffLaw_iff (unified : UnifiedDiff) (before after : Files)
    (plain : ∀ name ∈ before.keys ++ after.keys, '\n' ∉ name.toList) :
    DiffLaw unified before after ↔ ShownInText before after := by
  have ends : ∀ name ∈ differing before after, '\n' ∉ name.toList := fun name member =>
    plain name (mem_keys_of_mem_differing member)
  constructor
  · intro law name differ same
    obtain ⟨front, back, lines, rest, split, named, text⟩ := law.named name differ
    have distinct : (differing before after).Nodup := nodup_differing
    rw [split, List.nodup_append] at distinct
    -- The file has no part, so the header would be that of a later file.
    rw [diffFiles, split, diffOf_append, diffOf_cons, diffOf_same (linesOf_eq_iff.mpr same),
      String.empty_append, String.append_assoc] at text
    have starts : diffOf unified before after back = lines ++ rest :=
      String.toList_inj.mp (List.append_cancel_left (by
        simpa only [String.toList_append] using congrArg String.toList text))
    refine (List.nodup_cons.mp distinct.2.1).1 (mem_of_isHeaderOf (fun other later => ?_) ?_ named
      starts)
    · exact ends other (split ▸ List.mem_append_right _ (.tail _ later))
    · exact ends name (mem_differing.mpr differ)
  · intro shown
    have named : ∀ name, before.get? name ≠ after.get? name → ∃ front back rest,
        differing before after = front ++ name :: back ∧ diffFiles unified before after =
          diffOf unified before after front ++
            String.join (header (nameIn before "a/" name) (nameIn after "b/" name)) ++ rest := by
      intro name differ
      obtain ⟨front, back, split⟩ := List.append_of_mem (mem_differing.mpr differ)
      have lines : linesOf (before.get? name) ≠ linesOf (after.get? name) :=
        fun same => shown name differ (linesOf_eq_iff.mp same)
      obtain ⟨more, part⟩ := diffOf_differ unified lines
      refine ⟨front, back, more ++ diffOf unified before after back, split, ?_⟩
      rw [diffFiles, split, diffOf_append, diffOf_cons, part]
      simp only [String.append_assoc]
    constructor
    · constructor
      · -- The part of a file is not empty: it begins with a header.
        intro empty name
        by_contra differ
        obtain ⟨front, back, rest, -, text⟩ := named name differ
        have chars := congrArg String.toList (empty.symm.trans text)
        rw [String.append_assoc, String.toList_append, toList_join_header] at chars
        simp at chars
      · intro same
        have none : differing before after = [] :=
          List.eq_nil_iff_forall_not_mem.mpr fun name member => mem_differing.mp member (same name)
        rw [diffFiles, none]
        rfl
    · intro name differ
      obtain ⟨front, back, rest, split, text⟩ := named name differ
      exact ⟨front, back, _, rest, split, isHeaderOf_nameIn differ, text⟩

end

/-! ### Texts -/

/-- The bytes are those of a text. -/
def IsText (bytes : List UInt8) : Prop := ∃ cs : List Char, bytes = cs.flatMap String.utf8EncodeChar

/-- **Texts that differ are shown**, if no file is empty on one side and not there on the other. -/
theorem shownInText_of_isText {before after : Files}
    (texts : ∀ name, ∀ bytes ∈ before.get? name, IsText bytes ∧ bytes ≠ [])
    (texts' : ∀ name, ∀ bytes ∈ after.get? name, IsText bytes ∧ bytes ≠ []) :
    ShownInText before after := by
  -- What is there is told by its text, and no text of a file is that of none.
  have told : ∀ content : Option (List UInt8), (∀ bytes ∈ content, IsText bytes ∧ bytes ≠ []) →
      ∃ cs : List Char, content.getD [] = cs.flatMap String.utf8EncodeChar ∧
        content = if cs = [] then none else some (cs.flatMap String.utf8EncodeChar) := by
    rintro (_ | bytes) isText
    · exact ⟨[], rfl, rfl⟩
    · obtain ⟨⟨cs, rfl⟩, some⟩ := isText bytes rfl
      have filled : cs ≠ [] := by
        rintro rfl
        exact some rfl
      exact ⟨cs, rfl, by rw [if_neg filled]⟩
  intro name differ same
  obtain ⟨cs, isText, content⟩ := told _ (texts name)
  obtain ⟨cs', isText', content'⟩ := told _ (texts' name)
  rw [isText, isText', decodeUtf8_encode, decodeUtf8_encode] at same
  exact differ (by rw [content, content', same])

/-! ### What is shown and what is not -/

/-- The range of all lines, as the head of a hunk has it. -/
def wholeRange : ℕ → String
  | 0 => "0,0"
  | 1 => "1"
  | n => "1," ++ toString n

/-- The comparison of files without a line in common: all lines are removed or added. -/
def wholeDiff : UnifiedDiff where
  run old new fromfile tofile :=
    if old = new then []
    else header fromfile tofile ++
      (("@@ -" ++ wholeRange old.length ++ " +" ++ wholeRange new.length ++ " @@\n") ::
        (old.map ("-" ++ ·) ++ new.map ("+" ++ ·)))
  run_self _ _ _ := if_pos rfl
  run_of_ne _ _ _ _ differ := ⟨_, if_neg differ⟩

/-- A file that is changed and one that is new are both in the diff. -/
theorem diffLaw_iff_changed :
    DiffLaw wholeDiff [("a.txt", [0x78, 0x0a])] [("a.txt", [0x79, 0x0a]), ("b.txt", [0x7a])] := by
  refine (diffLaw_iff wholeDiff _ _ (by decide)).mpr fun name differ => ?_
  by_cases first : name = "a.txt"
  · subst first
    decide
  by_cases second : name = "b.txt"
  · subst second
    decide
  exact absurd (by simp [Dict.get?, Ne.symm first, Ne.symm second]) differ

/-- An empty file that is new is not shown. -/
theorem not_diffLaw_emptyFile : ¬ DiffLaw wholeDiff [] [("new.txt", [])] := by
  intro law
  have same := law.empty_iff.mp (by decide) "new.txt"
  exact absurd same (by decide)

/-- A byte that is no text is not told from another one. -/
example : diffFiles wholeDiff [("data.bin", [0x80])] [("data.bin", [0x81])] = "" := by decide

end AgentLabs.CodingSkills
