import CadPlot.Lib.Dict
import CadPlot.Lib.Runs
import CadPlot.Lib.SingleWriter
import CadPlot.Protocol.Wire

/-!
# Project references of a workstation

`LocalReferenceStore.register_project` and `ensure_project`, one statement of
SQLite at a time, from any number of processes. A call may fail or be cut off at
any statement, and the directories of the workstation may change meanwhile.
-/

namespace CadPlot.Worker.ProjectRefs

open Protocol Runs
open Protocol.Wire (isSafeAlias)

/-- A row of `local_projects`, and what a call returns of one. -/
structure LocalProject where
  projectId : String
  tenantId : String
  deviceId : String
  projectAlias : String
  canonicalRoot : String
  deriving DecidableEq

/-- How the interpreter and the system compare texts and paths. -/
structure Platform where
  casefold : Char → List Char
  normcase : String → String

/-- What the directories are at a moment; nothing where Python raises. -/
structure Directories where
  absolute : String → Option String
  /-- `require_plain_directory_path` -/
  plain : String → Option String
  resolve : String → Option String
  isDir : String → Bool

structure Request where
  tenantId : String
  deviceId : String
  projectId : String
  projectAlias : String
  root : String

section Calls

variable (platform : Platform)

def foldAlias (text : String) : List Char := text.toList.flatMap platform.casefold

/-- `_same_path_text` -/
def samePathText (left right : String) : Bool := platform.normcase left = platform.normcase right

/-- `_canonical_project_root` -/
def canonicalProjectRoot (directories : Directories) (value : String) : Option String := do
  let supplied ← directories.absolute value
  let plain ← directories.plain supplied
  let resolved ← directories.resolve plain
  if directories.isDir resolved && samePathText platform resolved plain then some resolved else none

def validIds (tenantId deviceId projectId projectAlias : String) : Bool :=
  isGatewayId "tnt" tenantId && isWireId "ws" deviceId && isWireId "prj" projectId &&
    isSafeAlias projectAlias

/-- What both calls check of their arguments. -/
def validated (directories : Directories) (request : Request) : Option LocalProject :=
  if validIds request.tenantId request.deviceId request.projectId request.projectAlias then
    (canonicalProjectRoot platform directories request.root).map fun root =>
      ⟨request.projectId, request.tenantId, request.deviceId, request.projectAlias, root⟩
  else none

def LocalProject.inScope (row project : LocalProject) : Bool :=
  row.tenantId = project.tenantId && row.deviceId = project.deviceId

/-- The constraints of the table -/
def insertProject (rows : List LocalProject) (project : LocalProject) :
    Option (List LocalProject) :=
  if rows.any fun row => row.projectId = project.projectId ||
      row.inScope project && (row.projectAlias = project.projectAlias ||
        row.canonicalRoot = project.canonicalRoot) then none
  else some (rows ++ [project])

/-- One alias or one root, as far as case goes. -/
def collides (row project : LocalProject) : Bool :=
  foldAlias platform row.projectAlias = foldAlias platform project.projectAlias ||
    samePathText platform row.canonicalRoot project.canonicalRoot

/-- What `ensure_project` makes of the rows that it reads; nothing where they conflict. -/
def ensureRows (rows : List LocalProject) (project : LocalProject) : Option (List LocalProject) :=
  let selected := rows.filter fun row =>
    row.projectId = project.projectId || row.inScope project
  if selected.any fun row => row.projectId ≠ project.projectId && collides platform row project then
    none
  else
    match (selected.filter fun row => row.projectId = project.projectId).getLast? with
    | some exact =>
      if exact.inScope project && exact.projectAlias = project.projectAlias &&
          samePathText platform exact.canonicalRoot project.canonicalRoot then some rows
      else none
    | none => insertProject rows project

/-- `resolve_project` -/
def resolveProject (directories : Directories) (rows : List LocalProject)
    (project : LocalProject) : Option LocalProject := do
  let row ← rows.find? fun row => row.inScope project && row.projectId = project.projectId
  if validIds row.tenantId row.deviceId row.projectId row.projectAlias then
    let root ← canonicalProjectRoot platform directories row.canonicalRoot
    if samePathText platform root row.canonicalRoot then
      some { row with canonicalRoot := root }
    else none
  else none

end Calls

section Steps

inductive Entry where
  | register
  | ensure
  deriving DecidableEq

/-- How far a call has come. What `ensure_project` returns is read with some directories. -/
inductive Phase where
  | ready
  | began
  | written
  | committed
  | returned (directories : Directories) (reference : LocalProject)
  | raised

structure Call where
  entry : Entry
  project : LocalProject
  phase : Phase

structure World where
  db : Database (List LocalProject)
  calls : Dict Nat Call

inductive Event where
  | call (n : Nat) (entry : Entry) (request : Request) (directories : Directories)
  | beginImmediate (n : Nat)
  | write (n : Nat)
  | commit (n : Nat)
  | resolve (n : Nat) (directories : Directories)
  | fail (n : Nat)

def World.raise (w : World) (n : Nat) (call : Call) : World :=
  ⟨w.db.rollback n, w.calls.set n { call with phase := .raised }⟩

/-- The transaction with the statement that writes. `register_project` begins with it. -/
def writeStatement (platform : Platform) (w : World) (n : Nat) (call : Call) : Option World :=
  let written (rows : Option (List LocalProject)) : World :=
    match rows with
    | none => w.raise n call
    | some rows => ⟨w.db.stage n rows, w.calls.set n { call with phase := .written }⟩
  match call.entry, call.phase with
  | .ensure, .began =>
    (w.db.staged n).map fun rows => written (ensureRows platform rows call.project)
  | .register, .ready =>
    (w.db.acquire n).map fun _ => written (insertProject w.db.committed call.project)
  | _, _ => none

def step (platform : Platform) (w : World) : Event → Option World
  | .call n entry request directories =>
    match w.calls.get n with
    | some _ => none
    | none =>
      some ((validated platform directories request).elim w fun project =>
        { w with calls := w.calls.set n ⟨entry, project, .ready⟩ })
  | .beginImmediate n =>
    match w.calls.get n with
    | some ⟨.ensure, project, .ready⟩ =>
      (w.db.acquire n).map fun db => ⟨db, w.calls.set n ⟨.ensure, project, .began⟩⟩
    | _ => none
  | .write n => (w.calls.get n).bind (writeStatement platform w n)
  | .commit n =>
    match w.calls.get n with
    | some ⟨entry, project, .written⟩ =>
      (w.db.commit n).map fun db => ⟨db, w.calls.set n ⟨entry, project, .committed⟩⟩
    | _ => none
  | .resolve n directories =>
    match w.calls.get n with
    | some ⟨.ensure, project, .committed⟩ =>
      let phase := (resolveProject platform directories w.db.committed project).elim .raised
        fun reference => .returned directories reference
      some { w with calls := w.calls.set n ⟨.ensure, project, phase⟩ }
    | _ => none
  | .fail n =>
    match w.calls.get n with
    | some ⟨_, _, .returned _ _⟩ => none
    | some call => some (w.raise n call)
    | none => none

/-- A new database, and nobody has called. -/
def World.start : World := ⟨⟨[], none⟩, .empty⟩

end Steps

end CadPlot.Worker.ProjectRefs
