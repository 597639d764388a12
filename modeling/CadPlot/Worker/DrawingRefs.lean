import CadPlot.Worker.ProjectRefs

/-!
# Drawing references of a workstation

`register_drawing`, `get_or_register_drawing` and `resolve_drawing` of
`LocalReferenceStore`, one statement of SQLite at a time, from any number of
processes. The files of the workstation may be moved and renamed meanwhile.
-/

namespace CadPlot.Worker.DrawingRefs

open Protocol Runs
open ProjectRefs (LocalProject Platform Directories insertProject resolveProject)

/-- A row of `local_drawings` -/
structure LocalDrawing where
  drawingId : String
  tenantId : String
  deviceId : String
  projectId : String
  relativeDrawing : String
  relativeKey : List Char
  deriving DecidableEq

/-- `LocalDrawingReference` -/
structure Reference where
  tenantId : String
  deviceId : String
  projectId : String
  projectAlias : String
  drawingId : String
  relativeDrawing : String
  localFile : String
  deriving DecidableEq

/-- What the files are at a moment. -/
structure Files where
  directories : Directories
  /-- `_resolve_local_drawing` between its two checks of the relative path: the file, and its path
  relative to the root. -/
  locate : String → List (List Char) → Option (String × String)

/-- The components of a relative path; empty ones and dots are dropped. -/
def components (value : List Char) : List (List Char) :=
  (value.splitOn '/').filter fun part => part ≠ [] && part ≠ ['.']

/-- The extension of a file name, with its dot. A dot at the start makes none. -/
def suffix (name : List Char) : List Char :=
  let extension := (name.reverse.takeWhile (· ≠ '.')).reverse
  if extension.length + 1 < name.length then '.' :: extension else []

section Calls

variable (platform : Platform) (isSpace : Char → Bool)

def fold (text : List Char) : List Char := text.flatMap platform.casefold

/-- `_safe_relative_drawing`. A drive is a colon in a component. -/
def safeRelativeDrawing (value : String) : Option String :=
  let text := value.toList
  let parts := components text
  if text.isEmpty || text.head?.any isSpace || text.getLast?.any isSpace || 4096 < text.length ||
      text.any (fun c => c = '\\' || c.toNat < 32 || c.toNat = 127) ||
      text.head? = some '/' then none
  else if parts.isEmpty || 128 < parts.length ||
      parts.any fun part => part = ['.', '.'] || part.getLast? = some ' ' ||
        part.getLast? = some '.' || part.contains ':' then none
  else if [".dwg".toList, ".dwt".toList].contains (fold platform (suffix (parts.getLastD []))) then
    some (String.ofList (['/'].intercalate parts))
  else none

/-- `_resolve_local_drawing` -/
def resolveLocalDrawing (files : Files) (root relativeDrawing : String) :
    Option (String × String) := do
  let relative ← safeRelativeDrawing platform isSpace relativeDrawing
  let (file, found) ← files.locate root (components relative.toList)
  let canonical ← safeRelativeDrawing platform isSpace found
  some (file, canonical)

/-- The tables of the store that a drawing reference is read from. -/
structure Tables where
  projects : List LocalProject
  drawings : List LocalDrawing

/-- The constraints of the table -/
def insertDrawing (tables : Tables) (drawing : LocalDrawing) : Option Tables :=
  if tables.drawings.any fun row => row.drawingId = drawing.drawingId ||
      row.tenantId = drawing.tenantId && row.deviceId = drawing.deviceId &&
        row.projectId = drawing.projectId && row.relativeKey = drawing.relativeKey then none
  else if tables.projects.any fun row => row.projectId = drawing.projectId &&
      row.tenantId = drawing.tenantId && row.deviceId = drawing.deviceId then
    some { tables with drawings := tables.drawings ++ [drawing] }
  else none

/-- The query of `get_or_register_drawing` -/
def findKey (tables : Tables) (drawing : LocalDrawing) : Option String :=
  (tables.drawings.find? fun row => row.tenantId = drawing.tenantId &&
    row.deviceId = drawing.deviceId && row.projectId = drawing.projectId &&
      row.relativeKey = drawing.relativeKey).map LocalDrawing.drawingId

def validScope (tenantId deviceId : String) : Bool :=
  isGatewayId "tnt" tenantId && isWireId "ws" deviceId

/-- `resolve_project`, for the ids of a project -/
def projectOf (files : Files) (tables : Tables) (tenantId deviceId projectId : String) :
    Option LocalProject :=
  if validScope tenantId deviceId && isWireId "prj" projectId then
    resolveProject platform files.directories tables.projects
      ⟨projectId, tenantId, deviceId, "", ""⟩
  else none

/-- What the calls that register a drawing find out before: the alias of its project, its file and
the row for it, without its id. -/
def prepare (files : Files) (tables : Tables)
    (tenantId deviceId projectId relativeDrawing : String) :
    Option (String × String × (String → LocalDrawing)) := do
  let relative ← safeRelativeDrawing platform isSpace relativeDrawing
  let project ← projectOf platform files tables tenantId deviceId projectId
  let (file, canonical) ← resolveLocalDrawing platform isSpace files project.canonicalRoot relative
  some (project.projectAlias, file, fun drawingId =>
    ⟨drawingId, tenantId, deviceId, projectId, canonical, fold platform canonical.toList⟩)

/-- `resolve_drawing` -/
def resolveDrawing (files : Files) (tables : Tables) (tenantId deviceId drawingId : String) :
    Option Reference := do
  if validScope tenantId deviceId && isWireId "drw" drawingId then
    let row ← tables.drawings.find? fun row => row.tenantId = tenantId && row.deviceId = deviceId &&
      row.drawingId = drawingId
    let relative ← safeRelativeDrawing platform isSpace row.relativeDrawing
    let project ← projectOf platform files tables tenantId deviceId row.projectId
    let (file, current) ← resolveLocalDrawing platform isSpace files project.canonicalRoot relative
    if fold platform current.toList = fold platform relative.toList then
      some ⟨tenantId, deviceId, row.projectId, project.projectAlias, drawingId, current, file⟩
    else none
  else none

end Calls

section Steps

inductive Entry where
  | register
  | getOrRegister
  | resolve
  deriving DecidableEq

/-- How far a call has come. -/
inductive Phase where
  | ready
  | missing
  | refused
  | written
  | committed
  | returned (reference : Reference)
  | raised
  deriving DecidableEq

/-- A call. The id of its row is the one that it goes on with. -/
structure Call where
  entry : Entry
  row : LocalDrawing
  projectAlias : String
  localFile : String
  phase : Phase

structure World where
  db : Database Tables
  calls : Dict Nat Call

inductive Event where
  | addProject (project : LocalProject)
  | registerDrawing (n : Nat) (tenantId deviceId projectId drawingId relativeDrawing : String)
      (files : Files)
  | getOrRegisterDrawing (n : Nat) (tenantId deviceId projectId relativeDrawing : String)
      (files : Files)
  | resolveDrawing (n : Nat) (tenantId deviceId drawingId : String) (files : Files)
  | select (n : Nat) (drawingId : String)
  | insert (n : Nat)
  | reselect (n : Nat)
  | commit (n : Nat)
  | resolve (n : Nat) (files : Files)
  | fail (n : Nat)

def Call.named (call : Call) (drawingId : String) (phase : Phase) : Call :=
  { call with row := { call.row with drawingId }, phase }

/-- What `register_drawing` returns. -/
def Call.reference (call : Call) : Reference :=
  ⟨call.row.tenantId, call.row.deviceId, call.row.projectId, call.projectAlias, call.row.drawingId,
    call.row.relativeDrawing, call.localFile⟩

def World.goOn (w : World) (n : Nat) (call : Call) : World := { w with calls := w.calls.set n call }

def World.raise (w : World) (n : Nat) (call : Call) : World :=
  ⟨w.db.rollback n, w.calls.set n { call with phase := .raised }⟩

variable (platform : Platform) (isSpace : Char → Bool)

/-- A call begins, if its arguments are sound. -/
def World.begin (w : World) (n : Nat) (call : Option Call) : Option World :=
  match w.calls.get n with
  | some _ => none
  | none => some (call.elim w (w.goOn n))

/-- What the statement that writes makes of the database that it has locked. -/
def World.inserted (w : World) (n : Nat) (call : Call) (db : Database Tables) : World :=
  match insertDrawing db.committed call.row with
  | some tables => ⟨db.stage n tables, w.calls.set n { call with phase := .written }⟩
  | none =>
    match call.entry with
    | .getOrRegister => ⟨db, w.calls.set n { call with phase := .refused }⟩
    | _ => World.raise ⟨db, w.calls⟩ n call

/-- The transaction begins with the statement that writes. -/
def insertStatement (w : World) (n : Nat) (call : Call) : Option World :=
  match call.entry, call.phase with
  | .register, .ready => (w.db.acquire n).map (w.inserted n call)
  | .getOrRegister, .missing => (w.db.acquire n).map (w.inserted n call)
  | _, _ => none

def step (w : World) : Event → Option World
  | .addProject project =>
    match w.db.writer with
    | some _ => none
    | none => (insertProject w.db.committed.projects project).map fun projects =>
        { w with db := ⟨{ w.db.committed with projects }, none⟩ }
  | .registerDrawing n tenantId deviceId projectId drawingId relativeDrawing files =>
    w.begin n <|
      if isWireId "drw" drawingId then
        (prepare platform isSpace files w.db.committed tenantId deviceId projectId
          relativeDrawing).map fun (projectAlias, file, row) =>
            ⟨.register, row drawingId, projectAlias, file, .ready⟩
      else none
  | .getOrRegisterDrawing n tenantId deviceId projectId relativeDrawing files =>
    w.begin n <|
      (prepare platform isSpace files w.db.committed tenantId deviceId projectId
        relativeDrawing).map fun (projectAlias, file, row) =>
          ⟨.getOrRegister, row "", projectAlias, file, .ready⟩
  | .resolveDrawing n tenantId deviceId drawingId files =>
    w.begin n <|
      (resolveDrawing platform isSpace files w.db.committed tenantId deviceId drawingId).map
        fun reference => ⟨.resolve, ⟨drawingId, tenantId, deviceId, "", "", []⟩, "", "",
          .returned reference⟩
  | .select n drawingId =>
    match w.calls.get n with
    | some ⟨.getOrRegister, row, projectAlias, file, .ready⟩ =>
      let call : Call := ⟨.getOrRegister, row, projectAlias, file, .ready⟩
      some <|
        match findKey w.db.committed row with
        | some found => w.goOn n (call.named found .committed)
        | none =>
          if isWireId "drw" drawingId then w.goOn n (call.named drawingId .missing)
          else w.raise n call
    | _ => none
  | .insert n => (w.calls.get n).bind (insertStatement w n)
  | .reselect n =>
    match w.calls.get n with
    | some ⟨.getOrRegister, row, projectAlias, file, .refused⟩ =>
      let call : Call := ⟨.getOrRegister, row, projectAlias, file, .refused⟩
      (w.db.staged n).map fun tables =>
        match findKey tables row with
        | some found => w.goOn n (call.named found .written)
        | none => w.raise n call
    | _ => none
  | .commit n =>
    match w.calls.get n with
    | some call =>
      if call.phase = .written then
        (w.db.commit n).map fun db => ⟨db, w.calls.set n { call with
          phase := if call.entry = .register then .returned call.reference else .committed }⟩
      else none
    | none => none
  | .resolve n files =>
    match w.calls.get n with
    | some call =>
      if call.phase = .committed then
        some (w.goOn n { call with
          phase := (resolveDrawing platform isSpace files w.db.committed call.row.tenantId
            call.row.deviceId call.row.drawingId).elim .raised .returned })
      else none
    | none => none
  | .fail n =>
    match w.calls.get n with
    | some ⟨_, _, _, _, .returned _⟩ => none
    | some call => some (w.raise n call)
    | none => none

/-- A new database, and nobody has called. -/
def World.start : World := ⟨⟨⟨[], []⟩, none⟩, .empty⟩

end Steps

end CadPlot.Worker.DrawingRefs
