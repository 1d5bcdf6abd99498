import AgentLabs.GuardLab.Contracts
import AgentLabs.Math.Run
import AgentLabs.Text.JsonAccess
import AgentLabs.Text.Lines
import AgentLabs.Text.Regex

/-!
# Writing to the memory

What an agent writes to its memory goes into the prompts of later runs, so a middleware looks at
the calls that write to it: a call whose text has a line with a foreign address or with a word of
an instruction is not let through.

What is looked at is the text of the call, line by line. A file that is written has the lines of
the text. A text that is spliced into a file begins in the middle of a line and ends in one, and
the lines there are made of the text and of what stands around it. So the file stays clean if and
only if the lines that each edit makes are clean, from the line that the edit begins in to the
one that it ends in.

## Main definitions

* `isSuspicious`, `suspiciousLines`: `MemoryGuardMiddleware.suspicious_lines`
* `MemoryGuard.wrapToolCall`: the middleware before a call
* `MemoryCall.perform`: what a call does to the files
* `MemoryGuard.Clean`: no line of a guarded file is suspicious
* `MemoryGuard.SeamClean`: the lines that an edit makes are not suspicious

## Main results

* `MemoryGuard.clean_step_iff`: when a call keeps the files clean
* `MemoryGuard.clean_run_iff`: when the files stay clean
-/

namespace AgentLabs.GuardLab

open Math Text

/-! ### Suspicious lines -/

/-- The letter that a character stands for when case is ignored. Besides the letters of ASCII,
four characters are taken for one of them. -/
def foldCase (c : Char) : Char :=
  if c = 'İ' ∨ c = 'ı' then 'i'
  else if c = 'ſ' then 's'
  else if c = '\u212A' then 'k'
  else c.toLower

/-- `[a-z0-9.-]`. -/
def isHostChar (c : Char) : Bool := c.isLower || c.isDigit || c = '.' || c = '-'

/-- `[a-z0-9.-]+\.[a-z]{2,}`. -/
def hostPattern : Regex := .run isHostChar 1 none ++ .lit '.' ++ .run Char.isLower 2 none

/-- `https?://`. -/
def webPattern : Regex :=
  .lit 'h' ++ .lit 't' ++ .lit 't' ++ .lit 'p' ++ .run (· = 's') 0 (some 1) ++ .lit ':' ++
    .lit '/' ++ .lit '/'

/-- A match of `EXTERNAL_HINT` begins here, in a text in which case is ignored. -/
def externalHere (rest : List Char) : Bool :=
  (match rest with
    | '@' :: host => !"nurisoft.example".toList.isPrefixOf host && !(hostPattern.ends host).isEmpty
    | _ => false) || !(webPattern.ends rest).isEmpty

/-- `EXTERNAL_HINT.search`. -/
def externalHint (line : List Char) : Bool := (line.map foldCase).tails.any externalHere

/-- The words of `INSTRUCTION_HINT`. -/
def instructionWords : List String := ["반드시", "무시", "우선", "전달한다", "삭제", "추가한 뒤", "바꾼다"]

/-- `INSTRUCTION_HINT.search`. -/
def instructionHint (line : List Char) : Bool :=
  line.tails.any fun rest => instructionWords.any fun word => word.toList.isPrefixOf rest

/-- One of the hints is found in the line. -/
def isSuspicious (line : List Char) : Bool := externalHint line || instructionHint line

/-- `MemoryGuardMiddleware.suspicious_lines`. -/
def suspiciousLines (text : List Char) : List (List Char) := (splitLines text).filter isSuspicious

theorem isSuspicious_nil : isSuspicious [] = false := by decide

theorem suspiciousLines_eq_nil_iff {text : List Char} :
    suspiciousLines text = [] ↔ NoLine isSuspicious text := by
  simp [suspiciousLines, NoLine, List.filter_eq_nil_iff]

/-! ### The middleware -/

/-- A call of a tool. -/
structure MemoryCall where
  name : String
  args : Fields
  id : String

/-- `args.get(key, "")`. -/
def MemoryCall.arg (call : MemoryCall) (key : String) : Json :=
  (Dict.get? call.args key).getD (.str "")

/-- `MemoryGuardMiddleware`. What `str` makes of a value that is no text is left open. -/
structure MemoryGuard where
  memoryPaths : List String := ["/memory/AGENTS.md"]
  agentName : String := "main"
  str : Json → String

/-- The answer to a call that is not let through. -/
structure ToolMessage where
  content : String
  toolCallId : String
  name : String
  deriving DecidableEq, Repr

namespace MemoryGuard

variable (g : MemoryGuard)

/-- `str(value)`. -/
def text : Json → String
  | .str text => text
  | value => g.str value

/-- The text of a call that is looked at. -/
def newText (call : MemoryCall) : String :=
  g.text (if (call.arg "content").isTruthy then call.arg "content" else call.arg "new_string")

/-- The calls that the middleware looks at. -/
def guards (call : MemoryCall) : Bool :=
  call.name ∈ ["write_file", "edit_file"] ∧ g.text (call.arg "file_path") ∈ g.memoryPaths

/-- An entry of the log under the name of the agent that the middleware was made for. -/
def record (log : RunLog) (decision : PolicyDecision) (call : MemoryCall) : RunLog :=
  { RunLog.recordDecision
      { log with currentAgent := if g.agentName = "" then log.currentAgent else g.agentName }
      "memory" decision call.id with
    currentAgent := log.currentAgent }

/-- `wrap_tool_call`: the answer to a call that is blocked, or none if the call is made. -/
def wrapToolCall (call : MemoryCall) (log : RunLog) : Option ToolMessage × RunLog :=
  if g.guards call then
    match suspiciousLines (g.newText call).toList with
    | bad :: _ =>
      (some
        { content := "[BLOCKED MEMORY_WRITE_REJECTED] 메모리에 외부 주소나 지시문을 저장할 수 없다."
          toolCallId := call.id
          name := call.name },
        g.record log
          { action := .block, reasonCode := "MEMORY_WRITE_REJECTED"
            detail := .ofList (bad.take 80) } call)
    | [] => (none, g.record log { action := .allow, reasonCode := "MEMORY_WRITE_OK" } call)
  else (none, log)

end MemoryGuard

/-! ### The files -/

/-- What is before and after the first place where a text has a part. -/
def partition (part : List Char) : List Char → Option (List Char × List Char)
  | [] => if part.isEmpty then some ([], []) else none
  | c :: text =>
    if part.isPrefixOf (c :: text) then some ([], (c :: text).drop part.length)
    else (partition part text).map fun around => (c :: around.1, around.2)

/-- What is before and after the one place where a text has a part. The search for a second one
starts after the first, and no text has one place for an empty part. -/
def onlyPlace (part text : List Char) : Option (List Char × List Char) :=
  if part.isEmpty then none
  else (partition part text).filter fun around => (partition part around.2).isNone

/-- The texts of the files, by path. -/
abbrev Files := Dict String String

/-- The place where the text of a file has the part that an edit replaces. -/
def MemoryCall.place (call : MemoryCall) (files : Files) : Option (List Char × List Char) := do
  let path ← (call.arg "file_path").asStr?
  let old ← (call.arg "old_string").asStr?
  onlyPlace old.toList (← Dict.get? files path).toList

/-- What a call makes of the files: one sets the text of a file, the other replaces the one place
where it has a part. Nothing comes of a call that does not fit the files. -/
def MemoryCall.performed? (call : MemoryCall) (files : Files) : Option Files := do
  let path ← (call.arg "file_path").asStr?
  if call.name = "write_file" then
    let content ← (Dict.get? call.args "content").bind Json.asStr?
    return Dict.set files path content
  else if call.name = "edit_file" then
    let new ← (Dict.get? call.args "new_string").bind Json.asStr?
    let around ← call.place files
    return Dict.set files path (.ofList (around.1 ++ new.toList ++ around.2))
  else none

/-- What a call does to the files. -/
def MemoryCall.perform (call : MemoryCall) (files : Files) : Files :=
  (call.performed? files).getD files

/-- The files, and the log of the decisions. -/
structure MemoryState where
  files : Files
  log : RunLog := {}

namespace MemoryGuard

variable (g : MemoryGuard)

/-- A call that goes through the middleware. -/
def step (s : MemoryState) (call : MemoryCall) : MemoryState :=
  match g.wrapToolCall call s.log with
  | (some _, log) => { s with log }
  | (none, log) => { files := call.perform s.files, log }

/-- No line of a guarded file is suspicious. -/
def Clean (files : Files) : Prop :=
  ∀ path ∈ g.memoryPaths, ∀ text, Dict.get? files path = some text →
    suspiciousLines text.toList = []

/-- The lines that an edit makes of the text of a guarded file are not suspicious: those of the
new text, joined to what is before it in its first line and after it in its last one. -/
def SeamClean (s : MemoryState) (call : MemoryCall) : Prop :=
  call.name = "edit_file" → g.guards call → (g.wrapToolCall call s.log).1 = none →
    ∀ new around, (Dict.get? call.args "new_string").bind Json.asStr? = some new →
      call.place s.files = some around →
      suspiciousLines (lastLine around.1 ++ new.toList ++ firstLine around.2) = []

end MemoryGuard

/-! ### One call -/

theorem eq_of_partition {part text : List Char} {around : List Char × List Char}
    (h : partition part text = some around) : text = around.1 ++ part ++ around.2 := by
  induction text generalizing around with
  | nil =>
    rw [partition] at h
    split_ifs at h with empty
    obtain rfl := Option.some_inj.mp h
    simpa using empty
  | cons c text ih =>
    rw [partition] at h
    split_ifs at h with here
    · obtain rfl := Option.some_inj.mp h
      obtain ⟨rest, same⟩ := List.isPrefixOf_iff_prefix.mp here
      rw [← same, List.drop_left, List.nil_append]
    · obtain ⟨later, found, rfl⟩ := Option.map_eq_some_iff.mp h
      rw [ih found, List.cons_append, List.cons_append]

/-- An edit replaces a part of the text of a file. -/
theorem MemoryCall.of_place {call : MemoryCall} {files : Files} {around : List Char × List Char}
    (h : call.place files = some around) : ∃ path old text, call.arg "file_path" = .str path ∧
      Dict.get? files path = some text ∧ text.toList = around.1 ++ old ++ around.2 := by
  simp only [place, Option.bind_eq_bind, Option.bind_eq_some_iff] at h
  obtain ⟨path, isPath, old, -, text, here, only⟩ := h
  rw [onlyPlace] at only
  split_ifs at only
  have found := (Option.filter_eq_some_iff.mp only).1
  refine ⟨path, old.toList, text, ?_, here, eq_of_partition found⟩
  cases value : call.arg "file_path" <;> simp_all [Json.asStr?]

/-- What a call makes of the files is a new text of one file. -/
theorem MemoryCall.of_performed {call : MemoryCall} {files files' : Files}
    (h : call.performed? files = some files') : ∃ path, call.arg "file_path" = .str path ∧
      (call.name = "write_file" ∧ (∃ content, Dict.get? call.args "content" = some (.str content) ∧
          files' = Dict.set files path content) ∨
        call.name = "edit_file" ∧ ∃ new around,
          (Dict.get? call.args "new_string").bind Json.asStr? = some new ∧
          call.place files = some around ∧
          files' = Dict.set files path (.ofList (around.1 ++ new.toList ++ around.2))) := by
  have text {value : Json} {text : String} (h : value.asStr? = some text) : value = .str text := by
    cases value <;> simp_all [Json.asStr?]
  simp only [performed?, Option.bind_eq_bind, Option.bind_eq_some_iff] at h
  obtain ⟨path, isPath, made⟩ := h
  refine ⟨path, text isPath, ?_⟩
  split_ifs at made with writes edits
  · obtain ⟨content, isContent, made⟩ := Option.bind_eq_some_iff.mp made
    obtain ⟨value, here, isText⟩ := Option.bind_eq_some_iff.mp isContent
    obtain rfl := Option.some_inj.mp made
    exact .inl ⟨writes, content, text isText ▸ here, rfl⟩
  · obtain ⟨new, isNew, made⟩ := Option.bind_eq_some_iff.mp made
    obtain ⟨around, placed, made⟩ := Option.bind_eq_some_iff.mp made
    obtain rfl := Option.some_inj.mp made
    exact .inr ⟨edits, new, around, isNew, placed, rfl⟩

namespace MemoryGuard

variable {g : MemoryGuard} {s : MemoryState} {call : MemoryCall} {files : Files} {path : String}

theorem clean_set_iff (clean : g.Clean files) {text : String} : g.Clean (Dict.set files path text) ↔
    (path ∈ g.memoryPaths → suspiciousLines text.toList = []) := by
  constructor
  · exact fun after guarded => after path guarded text Dict.get?_set_self
  · intro fine other guarded text' here
    rw [Dict.get?_set] at here
    split_ifs at here with same
    · subst same
      exact Option.some_inj.mp here ▸ fine guarded
    · exact clean other guarded text' here

theorem guards_iff (isPath : call.arg "file_path" = .str path) :
    g.guards call ↔ call.name ∈ ["write_file", "edit_file"] ∧ path ∈ g.memoryPaths := by
  rw [guards, isPath, text, decide_eq_true_iff]

/-- The text of a call that is let through has no suspicious line. -/
theorem newText_clean (guarded : g.guards call) {log : RunLog}
    (through : (g.wrapToolCall call log).1 = none) :
    suspiciousLines (g.newText call).toList = [] := by
  rw [wrapToolCall, if_pos guarded] at through
  split at through
  · cases through
  · assumption

/-- **One call** keeps the files clean if and only if the lines that an edit makes are clean. -/
theorem clean_step_iff (clean : g.Clean s.files) :
    g.Clean (g.step s call).files ↔ g.SeamClean s call := by
  unfold step
  rcases pass : g.wrapToolCall call s.log with ⟨answer, log⟩
  cases answer with
  | some message =>
    refine iff_of_true clean fun _ _ through => ?_
    rw [pass] at through
    cases through
  | none =>
    have through : (g.wrapToolCall call s.log).1 = none := by rw [pass]
    dsimp only
    rw [MemoryCall.perform]
    cases made : call.performed? s.files with
    | none =>
      refine iff_of_true clean fun edits _ _ new around isNew placed => ?_
      -- An edit that finds its place is made.
      obtain ⟨path, old, text, isPath, -, -⟩ := MemoryCall.of_place placed
      simp [MemoryCall.performed?, isPath, Json.asStr?, edits, isNew, placed] at made
    | some files =>
      rw [Option.getD_some]
      rcases MemoryCall.of_performed made with
        ⟨path, isPath, ⟨writes, content, isContent, rfl⟩ | ⟨edits, new, around, isNew, placed, rfl⟩⟩
      · rw [clean_set_iff clean]
        refine iff_of_true (fun guarded => ?_) fun edits => ?_
        · have fine := newText_clean ((guards_iff isPath).mpr ⟨by simp [writes], guarded⟩) through
          have isText : call.arg "content" = .str content := by
            rw [MemoryCall.arg, isContent, Option.getD_some]
          rw [newText, isText] at fine
          split_ifs at fine with truthy
          · exact fine
          · -- An empty content is passed over for another argument, but it is what is written.
            have empty : content = "" := by simpa [Json.isTruthy] using truthy
            rw [empty]
            rfl
        · rw [writes] at edits
          exact absurd edits (by decide)
      · obtain ⟨path', old, text, isPath', here, whole⟩ := MemoryCall.of_place placed
        obtain rfl : path = path' := Json.str.inj (isPath.symm.trans isPath')
        have splice (guarded : path ∈ g.memoryPaths) :
            suspiciousLines (String.ofList (around.1 ++ new.toList ++ around.2)).toList = [] ↔
              suspiciousLines (lastLine around.1 ++ new.toList ++ firstLine around.2) = [] := by
          have before := clean path guarded text here
          rw [whole] at before
          rw [String.toList_ofList, suspiciousLines_eq_nil_iff, suspiciousLines_eq_nil_iff]
          exact NoLine.splice_iff isSuspicious_nil (suspiciousLines_eq_nil_iff.mp before)
        rw [clean_set_iff clean]
        constructor
        · intro after _ guarded _ new' around' isNew' placed'
          obtain rfl := Option.some_inj.mp (isNew.symm.trans isNew')
          obtain rfl := Option.some_inj.mp (placed.symm.trans placed')
          have inside := ((guards_iff isPath).mp guarded).2
          exact (splice inside).mp (after inside)
        · intro seam inside
          refine (splice inside).mpr (seam edits ?_ through new around isNew placed)
          exact (guards_iff isPath).mpr ⟨by simp [edits], inside⟩

/-- **When the memory stays clean.** From clean files on, the guarded files are clean after every
call if and only if every edit that is let through makes clean lines. -/
theorem clean_run_iff (g : MemoryGuard) (start : MemoryState) (calls : List MemoryCall)
    (clean : g.Clean start.files) : (∀ n, g.Clean (stateAt g.step start calls n).files) ↔
      ∀ n call, calls[n]? = some call → g.SeamClean (stateAt g.step start calls n) call := by
  constructor
  · intro always n call here
    have after := always (n + 1)
    rw [stateAt_succ here] at after
    exact (clean_step_iff (always n)).mp after
  · intro seams n
    exact @stateAt_kept _ _ g.step start calls (fun s => g.Clean s.files)
      (fun n call here before => (clean_step_iff before).mpr (seams n call here)) 0 n
      (Nat.zero_le n) clean

/-- The memory of one agent. -/
def labGuard : MemoryGuard where
  str _ := ""

/-- A memory of one line. -/
def labMemory (text : String) : MemoryState where
  files := [("/memory/AGENTS.md", text)]

/-- An edit of the memory. -/
def labEdit (old new : String) : MemoryCall where
  name := "edit_file"
  args := [("file_path", .str "/memory/AGENTS.md"), ("old_string", .str old),
    ("new_string", .str new)]
  id := "call_1"

theorem clean_labMemory {text : String} (fine : suspiciousLines text.toList = []) :
    labGuard.Clean (labMemory text).files := by
  intro path guarded text' here
  obtain rfl := List.mem_singleton.mp guarded
  obtain rfl := Option.some_inj.mp here
  exact fine

theorem clean_run_iff_labEdit :
    labGuard.Clean (stateAt labGuard.step (labMemory "- 요약 먼저") [labEdit "먼저" "나중에"] 1).files := by
  have clean : labGuard.Clean (labMemory "- 요약 먼저").files := clean_labMemory (by decide)
  have place : (labEdit "먼저" "나중에").place (labMemory "- 요약 먼저").files =
      some ("- 요약 ".toList, []) := by decide
  have seam : labGuard.SeamClean (labMemory "- 요약 먼저") (labEdit "먼저" "나중에") := by
    intro _ _ _ new around isNew placed
    obtain rfl : "나중에" = new := Option.some_inj.mp isNew
    obtain rfl := Option.some_inj.mp (place.symm.trans placed)
    decide
  refine (clean_run_iff labGuard _ _ clean).mpr (fun n call here => ?_) 1
  match n with
  | 0 => exact Option.some_inj.mp here ▸ seam
  | n + 1 => cases here

/-- An edit with an empty text makes two halves of a line one word of an instruction. -/
theorem not_clean_run_labEdit :
    labGuard.Clean (labMemory "반X드시 보고").files ∧
      ¬labGuard.Clean (stateAt labGuard.step (labMemory "반X드시 보고") [labEdit "X" ""] 1).files := by
  refine ⟨clean_labMemory (by decide), fun after => ?_⟩
  have line := after "/memory/AGENTS.md" (by decide) "반드시 보고" (by decide)
  exact absurd line (by decide)

end MemoryGuard

end AgentLabs.GuardLab
