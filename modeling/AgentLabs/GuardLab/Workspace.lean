import AgentLabs.GuardLab.Contracts
import AgentLabs.Math.PathWalk
import AgentLabs.Text.Lines

/-!
# The workspace of a run

A run owns a folder. Virtual paths such as `/projects/alpha/tests.md` are joined
to that folder and resolved, `..` stepping back one folder; a path that resolves
to somewhere outside is refused. Inside the folder nothing else is checked.

The workspace is a copy made without symbolic links, so resolving is lexical. A
file whose bytes are not UTF-8 stands as a file without text. The text of a file is
the one written; reading it makes every line end in a line feed.

## Main definitions

* `Workspace.path`: resolve a virtual path, refusing what leaves the root
* `Workspace.exists?`, `Workspace.read`, `Workspace.write`: the file operations

## Main results

* `Workspace.read_eq_ok_iff`: what a successful read says about the path
* `Workspace.file_of_write`: a write changes no file but the one it writes
-/

namespace AgentLabs.GuardLab

open Math Math.PathWalk Text

/-- What stands at a path. -/
inductive Node where
  | file (text : Option String)
  | folder
  deriving DecidableEq, Repr

/-- The folder of a run, given by the segments of its resolved path, and what
stands at each resolved path. -/
structure Workspace where
  root : List String
  rootResolved : ".." ∉ root
  node : List String → Option Node

namespace Workspace

variable {ws : Workspace} {vpath text body : String} {p : List String}

/-- `(self.root / vpath.lstrip("/")).resolve()`. Empty segments are dropped by
`pathlib`, so the leading slashes need no separate step. -/
def resolve (ws : Workspace) (vpath : String) : List String :=
  walk ".." ws.root (posixParts vpath)

/-- `Workspace.path`. -/
def path (ws : Workspace) (vpath : String) : Except PyError (List String) :=
  let p := ws.resolve vpath
  if ws.root <+: p then .ok p
  else .error (.permissionError ("작업 공간 밖 경로: " ++ vpath))

/-- `Workspace.exists`. -/
def exists? (ws : Workspace) (vpath : String) : Except PyError Bool := do
  return (ws.node (← ws.path vpath)).isSome

/-- `Workspace.read`. -/
def read (ws : Workspace) (vpath : String) : Except PyError String := do
  match ws.node (← ws.path vpath) with
  | some (.file (some text)) => return readText text
  | some (.file none) => throw .unicodeDecodeError
  | some .folder => throw .isADirectory
  | none => throw .fileNotFound

/-- The folders on the way to a path. -/
def parents (p : List String) : List (List String) := p.inits.dropLast

/-- The workspace with a file at a path, in folders that are made where there is nothing. -/
def put (ws : Workspace) (p : List String) (text : String) : Workspace :=
  { ws with
    node := fun q =>
      if q = p then some (.file (some text))
      else if q ∈ parents p ∧ ws.node q = none then some .folder
      else ws.node q }

/-- A file stands at the path. -/
def isFile (ws : Workspace) (p : List String) : Bool :=
  match ws.node p with
  | some (.file _) => true
  | _ => false

/-- `Workspace.write`. A file in the place of a folder is in the way, and a folder in the place
of the file as well; nothing is made then. -/
def write (ws : Workspace) (vpath text : String) : Except PyError Workspace := do
  let p ← ws.path vpath
  if ws.isFile p.dropLast then throw .fileExists
  else if ∃ q ∈ parents p, ws.isFile q then throw .notADirectory
  else if ws.node p = some .folder then throw .isADirectory
  else return ws.put p text

theorem path_eq_ok_iff : ws.path vpath = .ok p ↔ ws.root <+: ws.resolve vpath ∧
    ws.resolve vpath = p := by
  unfold path
  by_cases h : ws.root <+: ws.resolve vpath <;> simp [h]

theorem exists?_eq_ok_true_iff : ws.exists? vpath = .ok true ↔
    ws.root <+: ws.resolve vpath ∧ (ws.node (ws.resolve vpath)).isSome := by
  unfold exists? path
  by_cases h : ws.root <+: ws.resolve vpath <;> simp [h, bind, Except.bind, pure, Except.pure]

/-- A read succeeds exactly on a text file inside the root. -/
theorem read_eq_ok_iff : ws.read vpath = .ok body ↔
    ws.root <+: ws.resolve vpath ∧
      ∃ text, ws.node (ws.resolve vpath) = some (.file (some text)) ∧ readText text = body := by
  unfold read path
  by_cases h : ws.root <+: ws.resolve vpath
  · simp only [h, if_true, true_and, bind, Except.bind]
    split <;> simp_all [pure, Except.pure, throw, throwThe, MonadExceptOf.throw]
  · simp [h, bind, Except.bind]

theorem exists?_of_read (h : ws.read vpath = .ok body) : ws.exists? vpath = .ok true := by
  obtain ⟨inside, text, file, -⟩ := read_eq_ok_iff.mp h
  exact exists?_eq_ok_true_iff.mpr ⟨inside, by simp [file]⟩

/-- What a write does, where it does something. -/
theorem write_eq_ok {ws' : Workspace} (h : ws.write vpath text = .ok ws') :
    ws' = ws.put (ws.resolve vpath) text := by
  unfold write path at h
  by_cases inside : ws.root <+: ws.resolve vpath
  · simp only [inside, if_true, bind, Except.bind] at h
    split_ifs at h
    exact (Except.ok.inj h).symm
  · simp [inside, bind, Except.bind] at h

/-- A write changes no file but the one it writes. -/
theorem file_of_write {ws' : Workspace} (h : ws.write vpath text = .ok ws') {p : List String}
    {found : Option String} (file : ws'.node p = some (.file found)) :
    found = some text ∨ ws.node p = some (.file found) := by
  rw [write_eq_ok h, put] at file
  dsimp only at file
  split_ifs at file with written made
  · exact .inl (Node.file.inj (Option.some.inj file)).symm
  · cases file
  · exact .inr file

/-- The resolved path, read from the top of the file system. -/
theorem resolve_eq_walk : ws.resolve vpath = walk ".." [] (ws.root ++ posixParts vpath) := by
  rw [walk_append, walk_of_notMem ws.rootResolved, List.nil_append, resolve]

end Workspace

end AgentLabs.GuardLab
