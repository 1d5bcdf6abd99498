import AgentLabs.GuardLab.Permission
import Mathlib.Tactic.Tauto

/-!
# Which files a guarded read can reach

A `read_doc` call is allowed or refused by its normalised project, and carried
out with the project and the document as spelled. The workspace keeps the read
inside its root and no further. The file that is read therefore lies in a folder
of the caller's projects exactly for the spellings described here: the raw path,
read segment by segment, has to enter such a folder and never step back out.

## Main definitions

* `ConfinedRead`: a call that returns a document body read it from a project of
  the caller
* `Workspace.SpelledInside`: the spelling that guarantees it

## Main results

* `confinedRead_iff`: which calls are confined
* `confinedRead_of_plain`: project names in normal form and documents without
  `..` are
* `not_confinedRead_dotDot`: a document name that leaves the project's folder
-/

namespace AgentLabs.GuardLab

open Math Math.PathWalk Text

namespace Workspace

/-- The folder `/projects/p/` of a project. -/
def projectFolder (ws : Workspace) (p : String) : List String := ws.resolve ("/projects/" ++ p)

/-- A text file of the workspace stands at the path. -/
def Readable (ws : Workspace) (vpath : String) : Prop := ∃ text, ws.read vpath = .ok text

/-- Read from the top of the file system, the spelled path of a document enters
the folder of one of the projects and from there on never steps back out. -/
def SpelledInside (ws : Workspace) (projects : List String) (project doc : String) : Prop :=
  ∃ p ∈ projects, ∃ pre post,
    ws.root ++ posixParts (RawOps.docPath project doc) = pre ++ post ∧
      walk ".." [] pre = ws.projectFolder p ∧ post ≠ [] ∧ NeverClimbsOut ".." post

theorem spelledInside_iff {ws : Workspace} {projects : List String} {project doc : String} :
    ws.SpelledInside projects project doc ↔ ∃ p ∈ projects,
      StrictlyBelow (ws.projectFolder p) (ws.resolve (RawOps.docPath project doc)) := by
  simp only [SpelledInside, resolve_eq_walk, strictlyBelow_walk_iff]

end Workspace

/-- If the guarded `read_doc` call runs its implementation and returns a document
body, the file it read lies under `/projects/p/` for a project `p` of the context. -/
def ConfinedRead (lower : String → String) (table : PermissionTable) (ctx : UserContext)
    (w : World) (project doc callId : String) : Prop :=
  ∀ body w',
    readDocTool (some (makeActionWrapper lower table)) (some ctx) project doc callId w =
      (.ok body, w') →
    Executed "read_doc" w w' →
    ∃ file, w.ws.path (RawOps.docPath project doc) = .ok file ∧
      (∃ text, w.ws.node file = some (.file (some text)) ∧ readText text = body) ∧
      ∃ p ∈ ctx.projects, StrictlyBelow (w.ws.projectFolder p) file

variable {lower : String → String} {table : PermissionTable} {ctx : UserContext} {w : World}
  {project doc callId : String}

/-- When the guarded call returns a body from a run of its implementation. -/
theorem executed_readDocTool_iff (lower : String → String) (table : PermissionTable)
    (ctx : UserContext) (w : World) (project doc callId body : String) :
    (∃ w', readDocTool (some (makeActionWrapper lower table)) (some ctx) project doc callId w =
        (.ok body, w') ∧ Executed "read_doc" w w') ↔
      normalizeProject lower project ∈ ctx.projects ∧
        w.ws.read (RawOps.docPath project doc) = .ok body := by
  have scope : table.Allows lower (some ctx) "read_doc"
      (normalizeArgs lower (RawOps.readArgs project doc)) ↔
        normalizeProject lower project ∈ ctx.projects :=
    allows_read_iff (getD_normalizeArgs_project rfl)
  rw [← scope]
  change (∃ w', guardedCall lower table (some ctx) "read_doc" (RawOps.readArgs project doc)
    (RawOps.readDoc project doc) callId w = (.ok body, w') ∧ _) ↔ _
  rcases guardedCall_cases lower table (some ctx) "read_doc" (RawOps.readArgs project doc)
    (RawOps.readDoc project doc) callId w with
    ⟨allowed, log, tools, ran⟩ | ⟨refused, answer, log, tools, ran⟩
  · simp only [ran, allowed, true_and]
    -- The guard writes to its own log before, which does not count as an execution.
    have same : ∀ w', Executed "read_doc" w w' ↔ Executed "read_doc" { w with log } w' := by
      simp [Executed, tools]
    simp only [same, RawOps.executed_readDoc_iff, exists_and_left, exists_eq, and_true]
  · simp only [ran, refused, false_and, iff_false]
    rintro ⟨w', returned, event, logged, -⟩
    obtain ⟨-, rfl⟩ := Prod.mk.inj returned
    simp [tools] at logged

/-- Confinement of a call, without the call: an allowed project and a readable
path have to resolve below a project folder of the caller. -/
theorem confinedRead_iff_resolve : ConfinedRead lower table ctx w project doc callId ↔
    (normalizeProject lower project ∈ ctx.projects →
      w.ws.Readable (RawOps.docPath project doc) → ∃ p ∈ ctx.projects,
        StrictlyBelow (w.ws.projectFolder p) (w.ws.resolve (RawOps.docPath project doc))) := by
  constructor
  · rintro confined allowed ⟨body, found⟩
    obtain ⟨w', returned, executed⟩ :=
      (executed_readDocTool_iff lower table ctx w project doc callId body).mpr ⟨allowed, found⟩
    obtain ⟨file, resolved, -, below⟩ := confined body w' returned executed
    rwa [← (Workspace.path_eq_ok_iff.mp resolved).2] at below
  · intro below body w' returned executed
    obtain ⟨allowed, found⟩ :=
      (executed_readDocTool_iff lower table ctx w project doc callId body).mp
        ⟨w', returned, executed⟩
    obtain ⟨inside, file⟩ := Workspace.read_eq_ok_iff.mp found
    exact ⟨_, Workspace.path_eq_ok_iff.mpr ⟨inside, rfl⟩, file, below allowed ⟨body, found⟩⟩

/-- **Which guarded reads are confined.** A call is confined exactly when it is
refused, or there is no text file to read, or its raw path is spelled inside a
project folder of the caller. -/
theorem confinedRead_iff : ConfinedRead lower table ctx w project doc callId ↔
    normalizeProject lower project ∉ ctx.projects ∨
      ¬ w.ws.Readable (RawOps.docPath project doc) ∨
      w.ws.SpelledInside ctx.projects project doc := by
  rw [confinedRead_iff_resolve, Workspace.spelledInside_iff]
  tauto

/-- A project folder entered by name, and what a spelling without `..` reads in it. -/
theorem Workspace.resolve_docPath_of_plain {ws : Workspace} (h : ".." ∉ posixParts doc) :
    ws.resolve (RawOps.docPath project doc) = ws.projectFolder project ++ posixParts doc := by
  have parts : posixParts (RawOps.docPath project doc) =
      posixParts ("/projects/" ++ project) ++ posixParts doc := posixParts_slash _ _
  rw [resolve, parts, walk_append, walk_of_notMem h, projectFolder, resolve]

/-- A project name in normal form and a document spelled without `..` confine the
read. -/
theorem confinedRead_of_plain (normal : normalizeProject lower project = project)
    (named : posixParts doc ≠ []) (plain : ".." ∉ posixParts doc) :
    ConfinedRead lower table ctx w project doc callId := by
  rw [confinedRead_iff_resolve, normal]
  intro allowed _
  refine ⟨project, allowed, ?_⟩
  rw [Workspace.resolve_docPath_of_plain plain]
  exact ⟨List.prefix_append _ _, by simpa using List.length_pos_iff.mpr named⟩

/-- The laboratory's two projects, with one document in `beta`. -/
def twoProjects : World where
  ws :=
    { root := ["run"]
      rootResolved := by decide
      node := fun p =>
        if p = ["run", "projects", "beta", "hr_data.md"] then some (.file (some "salaries"))
        else none }
  outbox := []
  log := {}

/-- A developer of `alpha` reads a document of `beta` through a document name
that steps out of the folder of `alpha`. -/
theorem not_confinedRead_dotDot : ¬ ConfinedRead asciiLower {}
    ⟨"kim.dev", "nurisoft", ["alpha"], true, ""⟩ twoProjects "alpha" "../beta/hr_data.md" "c1" := by
  intro confined
  obtain ⟨w', returned, executed⟩ := (executed_readDocTool_iff asciiLower {}
    ⟨"kim.dev", "nurisoft", ["alpha"], true, ""⟩ twoProjects "alpha" "../beta/hr_data.md" "c1"
    "salaries").mpr (by decide)
  obtain ⟨file, resolved, -, p, member, below⟩ := confined _ w' returned executed
  obtain rfl := List.mem_singleton.mp member
  rw [← (Workspace.path_eq_ok_iff.mp resolved).2] at below
  exact absurd below (by decide)

end AgentLabs.GuardLab
