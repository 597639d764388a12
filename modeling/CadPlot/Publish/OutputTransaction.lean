import CadPlot.Publish.Jobs
import CadPlot.Lib.Runs
import Mathlib.Logic.Function.Basic

/-!
# Publish output transactions

`PublishOutputTransaction`: plot output is written to temporary files and moved
to its final names once every sheet is complete. Each access to a file may fail;
a move that fails moves nothing.
-/

namespace CadPlot.Publish.OutputTransaction

/-- The exceptions that the transaction catches. -/
inductive FileFault where
  | unauthorizedAccess | security | io
  deriving DecidableEq, Repr

inductive Node where
  | file (content : Bytes)
  | directory (reparsePoint : Bool)
  deriving DecidableEq

/-- Paths, digests and new GUIDs as the platform has them. Comparisons that ignore case go by
`upper`; the file system finds a path under its key, and finds different files under paths that
differ by more than case. -/
structure Host (κ : Type) where
  upper : Char → List Char
  upper_digit : ∀ c, c.isDigit = true → upper c = [c]
  key : String → κ
  key_upper : ∀ a b, key a = key b → fold upper a = fold upper b
  getFullPath : String → Except String String
  getPathRoot : String → String
  sha256 : Bytes → String
  /-- by the number of the entry and of the attempt -/
  newGuid : Nat → Nat → String

abbrev Disk (κ : Type) := κ → Option Node

structure OutputEntry where
  finalPath : String
  temporaryPath : String
  expectedLength : Nat
  expectedSha256 : Option String
  deriving DecidableEq

structure Transaction where
  entries : List OutputEntry
  committed : Bool
  disposed : Bool
  deriving DecidableEq

inductive Refusal where
  | argument (message : String)
  | invalidOperation (message : String)
  | io (message : String)
  deriving DecidableEq, Repr

variable {κ : Type} [DecidableEq κ] (host : Host κ)

def isSeparator (c : Char) : Bool := c == '\\' || c == '/'

def normalizeDirectory (value : String) : Except String String := do
  let full ← host.getFullPath value
  if (host.getPathRoot full).toList.length < full.toList.length then
    pure (String.ofList (full.toList.rdropWhile isSeparator))
  else pure full

/-- `Path.GetDirectoryName`: what stands before the last separators, or the root. -/
def getDirectoryName (path : String) : String :=
  let head := path.toList.rdropWhile (!isSeparator ·)
  if head.length ≤ (host.getPathRoot path).toList.length then String.ofList head
  else String.ofList (head.rdropWhile isSeparator)

def getFileName (path : String) : List Char := path.toList.rtakeWhile (!isSeparator ·)

/-- `Path.Combine` with a name that has no root -/
def combine (directory name : String) : String :=
  if directory = "" ∨ directory.toList.getLast?.any (fun c => isSeparator c || c == ':') = true then
    directory ++ name
  else directory ++ "\\" ++ name

/-- `ToString("0000")` -/
def paddedIndex (index : Nat) : List Char :=
  if index < 10000 then
    [index / 1000, index / 100 % 10, index / 10 % 10, index % 10].map Nat.digitChar
  else Nat.toDigits 10 index

def temporaryName (index : Nat) (guid : String) : String :=
  ".cadplot-" ++ String.ofList (paddedIndex index) ++ "-" ++ guid ++ ".partial.pdf"

/-- The attempts from one number on, of the given count. -/
def newTemporaryPath (disk : Disk κ) (root : String) (index : Nat) : Nat → Nat → Option String
  | _, 0 => none
  | attempt, left + 1 =>
    let candidate := combine root (temporaryName index (host.newGuid index attempt))
    if disk (host.key candidate) = none then some candidate
    else newTemporaryPath disk root index (attempt + 1) left

/-- The loop over the final paths, with the entries so far. -/
def addEntry (disk : Disk κ) (root : String) (entries : List OutputEntry)
    (finalPath : Option String) : Except Refusal (List OutputEntry) := do
  let finalPath ← (host.getFullPath (finalPath.getD "")).mapError .argument
  ensure (decide (fold host.upper (getDirectoryName host finalPath) = fold host.upper root) &&
      decide ((getExtension (getFileName finalPath)).flatMap host.upper = fold host.upper ".pdf"))
    (.argument "Final PDF must be a direct child of the output directory.")
  ensure (entries.all fun e => decide (fold host.upper e.finalPath ≠ fold host.upper finalPath))
    (.argument "Final PDF paths must be unique.")
  ensure (disk (host.key finalPath)).isNone (.invalidOperation "output_already_exists")
  match newTemporaryPath host disk root (entries.length + 1) 0 10 with
  | none => .error (.io "Could not reserve a unique temporary output name.")
  | some temporaryPath => pure (entries ++ [⟨finalPath, temporaryPath, 0, none⟩])

def create (disk : Disk κ) (outputDirectory : String) (finalPaths : List (Option String)) :
    Except Refusal Transaction := do
  ensure (!isNullOrWhiteSpace outputDirectory) (.argument "Output directory is required.")
  ensure (decide (1 ≤ finalPaths.length) && decide (finalPaths.length ≤ 5000))
    (.argument "Output paths must contain between 1 and 5000 items.")
  let root ← (normalizeDirectory host outputDirectory).mapError .argument
  match disk (host.key root) with
  | some (.directory reparsePoint) => do
    ensure (!reparsePoint) (.argument "Output directory must not be redirected.")
    let entries ← finalPaths.foldlM (addEntry host disk root) []
    pure ⟨entries, false, false⟩
  | _ => .error (.argument "Output directory does not exist.")

/-- Which accesses fail in one call, by the index of the entry. -/
structure Faults where
  length : Nat → Option FileFault
  hash : Nat → Option FileFault
  move : Nat → Option FileFault
  /-- reading a promoted file again before it is moved back -/
  check : Nat → Option FileFault
  moveBack : Nat → Option FileFault
  delete : Nat → Option FileFault

def isFile (disk : Disk κ) (path : String) : Bool :=
  match disk (host.key path) with
  | some (.file _) => true
  | _ => false

/-- `File.Move`, which overwrites nothing -/
def move (disk : Disk κ) (source target : String) : Except FileFault (Disk κ) :=
  match disk (host.key source), disk (host.key target) with
  | some (.file content), none =>
    .ok (Function.update (Function.update disk (host.key source) none) (host.key target)
      (some (.file content)))
  | _, _ => .error .io

def temporaryFault : FileFault → String
  | .unauthorizedAccess | .security => "temporary_output_access_denied"
  | .io => "temporary_output_io_error"

def commitFault : FileFault → String
  | .unauthorizedAccess | .security => "output_commit_access_denied"
  | .io => "output_commit_io_error"

/-- The checks of one entry, which note the length and the digest of its temporary. -/
def measure (faults : Faults) (disk : Disk κ) (index : Nat) (e : OutputEntry) :
    Option String × OutputEntry :=
  if (disk (host.key e.finalPath)).isSome then (some "output_already_exists", e)
  else
    match disk (host.key e.temporaryPath) with
    | some (.file content) =>
      match faults.length index with
      | some fault => (some (temporaryFault fault), e)
      | none =>
        let e := { e with expectedLength := content.length }
        if content.length < 1 then (some "temporary_output_empty", e)
        else
          match faults.hash index with
          | some fault => (some (temporaryFault fault), e)
          | none => (none, { e with expectedSha256 := some (host.sha256 content) })
    | _ => (some "temporary_output_missing", e)

/-- The first loop of `Commit`: the checks up to the first error. -/
def measureAll (faults : Faults) (disk : Disk κ) : Nat → List OutputEntry →
    Option String × List OutputEntry
  | _, [] => (none, [])
  | index, e :: rest =>
    match measure host faults disk index e with
    | (some error, e) => (some error, e :: rest)
    | (none, e) =>
      let (error, rest) := measureAll faults disk (index + 1) rest
      (error, e :: rest)

/-- The moves up to the first that fails, with how many succeeded. -/
def promote (faults : Faults) : Nat → List OutputEntry → Disk κ → Nat × Option FileFault × Disk κ
  | promoted, [], disk => (promoted, none, disk)
  | promoted, e :: rest, disk =>
    match faults.move promoted with
    | some fault => (promoted, some fault, disk)
    | none =>
      match move host disk e.temporaryPath e.finalPath with
      | .error fault => (promoted, some fault, disk)
      | .ok disk => promote faults (promoted + 1) rest disk

/-- Move one promoted file back, if it is still what was promoted. -/
def moveBack (faults : Faults) (disk : Disk κ) (index : Nat) (e : OutputEntry) :
    Option (Disk κ) :=
  match disk (host.key e.finalPath), disk (host.key e.temporaryPath) with
  | some (.file content), none =>
    if (faults.check index).isSome || decide (content.length ≠ e.expectedLength) ||
        decide (some (host.sha256 content) ≠ e.expectedSha256) ||
        (faults.moveBack index).isSome then none
    else (move host disk e.finalPath e.temporaryPath).toOption
  | _, _ => none

/-- `TryRollbackPromotedOutputs`, from the last promoted entry back to the first. -/
def tryRollback (faults : Faults) (entries : List OutputEntry) : Nat → Disk κ → Bool × Disk κ
  | 0, disk => (true, disk)
  | promoted + 1, disk =>
    match entries[promoted]? with
    | none => (false, disk)
    | some e =>
      match moveBack host faults disk promoted e with
      | none => (false, disk)
      | some disk => tryRollback faults entries promoted disk

/-- `HandlePromotionFailure` -/
def handlePromotionFailure (faults : Faults) (entries : List OutputEntry) (error : String)
    (promoted : Nat) (disk : Disk κ) : String × Disk κ :=
  if promoted = 0 then (error, disk)
  else
    match tryRollback host faults entries promoted disk with
    | (true, disk) => (error, disk)
    | (false, disk) => ("output_commit_partial", disk)

/-- The error of a call, the transaction after it and the disk. -/
def commit (faults : Faults) (t : Transaction) (disk : Disk κ) :
    Option String × Transaction × Disk κ :=
  if t.disposed then (some "output_transaction_disposed", t, disk)
  else if t.committed then (some "output_transaction_completed", t, disk)
  else
    match measureAll host faults disk 0 t.entries with
    | (some error, entries) => (some error, { t with entries := entries }, disk)
    | (none, entries) =>
      match promote host faults 0 entries disk with
      | (_, none, disk) => (none, { t with entries := entries, committed := true }, disk)
      | (promoted, some fault, disk) =>
        let (error, disk) :=
          handlePromotionFailure host faults entries (commitFault fault) promoted disk
        (some error, { t with entries := entries }, disk)

def deleteTemporaries (faults : Faults) : Nat → List OutputEntry → Disk κ → Disk κ
  | _, [], disk => disk
  | index, e :: rest, disk =>
    if isFile host disk e.temporaryPath && (faults.delete index).isNone then
      deleteTemporaries faults (index + 1) rest
        (Function.update disk (host.key e.temporaryPath) none)
    else deleteTemporaries faults (index + 1) rest disk

def dispose (faults : Faults) (t : Transaction) (disk : Disk κ) : Transaction × Disk κ :=
  if t.disposed then (t, disk)
  else if t.committed then ({ t with disposed := true }, disk)
  else ({ t with disposed := true }, deleteTemporaries host faults 0 t.entries disk)

/-- A transaction is used, and between its calls anything may happen to the disk. -/
inductive Event (κ : Type) where
  | commit (faults : Faults)
  | dispose (faults : Faults)
  | change (disk : Disk κ)

def step (s : Transaction × Disk κ) : Event κ → Option (Transaction × Disk κ)
  | .commit faults => some (commit host faults s.1 s.2).2
  | .dispose faults => some (dispose host faults s.1 s.2)
  | .change disk => some (s.1, disk)

end CadPlot.Publish.OutputTransaction
