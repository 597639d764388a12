import CadPlot.Lib.Outcome
import CadPlot.Lib.Text
import Mathlib.Data.List.Sort

/-!
# Schema migrations

`migrate.py`: the packaged sequence of migrations, and `apply_migrations` in the
steps between which it may be interrupted. What a body does to the objects of
the database is left to the engine that runs it; no packaged body names the
ledger.
-/

namespace CadPlot.Gateway.Migrate

open Text (isSpace strip)

structure Migration where
  version : Nat
  filename : String
  sha256 : String
  body : String
  deriving DecidableEq, Repr

inductive MigrationError where
  | assetInvalid | assetUnavailable | transactionEnvelopeInvalid | sequenceInvalid
  | connectionUnsafe | identityUnsafe | lockConnectionUnsafe
  | databaseUnmanaged | databaseInconsistent | historyInvalid
  deriving DecidableEq, Repr

/-- The code that the command reports. -/
def MigrationError.code : MigrationError → String
  | .assetInvalid => "migration_asset_invalid"
  | .assetUnavailable => "migration_asset_unavailable"
  | .transactionEnvelopeInvalid => "migration_transaction_envelope_invalid"
  | .sequenceInvalid => "migration_sequence_invalid"
  | .connectionUnsafe => "migration_connection_unsafe"
  | .identityUnsafe => "migration_identity_unsafe"
  | .lockConnectionUnsafe => "migration_lock_connection_unsafe"
  | .databaseUnmanaged => "migration_database_unmanaged"
  | .databaseInconsistent => "migration_database_inconsistent"
  | .historyInvalid => "migration_history_invalid"

/-- An entry of the directory of migrations. -/
structure Asset where
  name : String
  isSymlink : Bool
  isFile : Bool
  /-- `none` when it cannot be read -/
  raw : Option ByteArray

structure Runtime where
  sha256 : ByteArray → String
  casefold : Char → List Char

def maxMigrationBytes : Nat := 2 * 1024 * 1024

def maxTotalMigrationBytes : Nat := 8 * 1024 * 1024

def isStemChar (c : Char) : Bool := c.isLower || c.isDigit || c == '_'

/-- `[a-z0-9_]+\.sql` -/
def isStem (name : List Char) : Bool :=
  let stem := name.take (name.length - 4)
  decide (stem ≠ []) && stem.all isStemChar && decide (name.drop (name.length - 4) = ".sql".toList)

/-- The version in a name that fits `[0-9]{4}_[a-z0-9_]+\.sql`. -/
def versionOf (name : String) : Option Nat :=
  match name.toList with
  | a :: b :: c :: d :: '_' :: rest =>
    if [a, b, c, d].all Char.isDigit && isStem rest then
      some ([a, b, c, d].foldl (fun n digit => 10 * n + (digit.toNat - '0'.toNat)) 0)
    else none
  | _ => none

/-- From the last dot on, unless that is the first or the last character. -/
def suffix (name : String) : List Char :=
  let tail := name.toList.rtakeWhile (· ≠ '.')
  if tail = [] ∨ name.toList.length ≤ tail.length + 1 then [] else '.' :: tail

/-- What stands between `BEGIN;` and the last `COMMIT;`. -/
def envelopeBody (sql : List Char) : Option (List Char) := do
  let inner ← "BEGIN;".toList.isPrefixOf? (strip isSpace sql)
  let body ← "COMMIT;".toList.isSuffixOf? inner
  pure body

def loadMigration (rt : Runtime) (version : Nat) (a : Asset) (raw : ByteArray) :
    Except MigrationError Migration :=
  match String.fromUTF8? raw with
  | none => .error .assetInvalid
  | some sql =>
    match (envelopeBody sql.toList).map (strip isSpace) with
    | none | some [] => .error .transactionEnvelopeInvalid
    | some body => .ok ⟨version, a.name, rt.sha256 raw, String.ofList body⟩

/-- The loop over the directory, with what is loaded and how many bytes that took. -/
def loadAsset (rt : Runtime) (loaded : List Migration × Nat) (a : Asset) :
    Except MigrationError (List Migration × Nat) :=
  match versionOf a.name with
  | none =>
    if (suffix a.name).flatMap rt.casefold = ".sql".toList then .error .assetInvalid
    else .ok loaded
  | some version => do
    ensure (!a.isSymlink && a.isFile) .assetInvalid
    match a.raw with
    | none => .error .assetUnavailable
    | some raw => do
      ensure (decide (0 < raw.size) && decide (raw.size ≤ maxMigrationBytes)) .assetInvalid
      ensure (decide (loaded.2 + raw.size ≤ maxTotalMigrationBytes)) .assetInvalid
      let migration ← loadMigration rt version a raw
      pure (loaded.1 ++ [migration], loaded.2 + raw.size)

/-- Load the closed, packaged sequence. -/
def loadMigrations (rt : Runtime) (directory : List Asset) :
    Except MigrationError (List Migration) := do
  let loaded ← (directory.insertionSort fun a b => a.name ≤ b.name).foldlM (loadAsset rt) ([], 0)
  ensure (decide (loaded.1 ≠ []) &&
    decide (loaded.1.map Migration.version = List.range' 1 loaded.1.length)) .sequenceInvalid
  pure loaded.1

/-- What one connection says of itself. -/
structure Connection where
  autocommit : Option Bool
  currentUser : String
  sessionUser : String
  database : String
  readOnly : String

def runtimeRole : String := "cadplot_gateway_runtime"

def readDeployerIdentity (c : Connection) : Option (String × String) :=
  if c.currentUser ≠ c.sessionUser ∨ c.currentUser = runtimeRole ∨ c.readOnly ≠ "off" then none
  else some (c.currentUser, c.database)

def validateDeployer (c : Connection) : Except MigrationError (String × String) := do
  ensure (c.autocommit == some true) .connectionUnsafe
  match readDeployerIdentity c with
  | none => .error .identityUnsafe
  | some identity => pure identity

def validateLockConnection (c : Connection) (expected : String × String) :
    Except MigrationError Unit :=
  ensure (readDeployerIdentity c == some expected) .lockConnectionUnsafe

/-- A row of `schema_migrations`. -/
structure LedgerRow where
  version : Nat
  filename : String
  sha256 : String
  deriving DecidableEq, Repr

def Migration.row (m : Migration) : LedgerRow := ⟨m.version, m.filename, m.sha256⟩

/-- How the database runs a body, and what it finds in its catalog. -/
structure Engine (σ : Type) where
  exec : String → σ → Option σ
  schemaExists : σ → Bool
  operationsExists : σ → Bool

/-- The objects of the database, and the ledger among them once there is one. -/
structure Database (σ : Type) where
  objects : σ
  ledger : Option (List LedgerRow)
  deriving DecidableEq

inductive Statement where
  | body (sql : String)
  | ledgerDdl
  | record (m : Migration)

variable {σ : Type}

def createLedger (engine : Engine σ) (db : Database σ) : Option (Database σ) :=
  if engine.schemaExists db.objects && db.ledger.isNone then some { db with ledger := some [] }
  else none

/-- The row meets the checks of the table. -/
def LedgerRow.valid (r : LedgerRow) : Bool :=
  decide (0 < r.version) && (versionOf r.filename).isSome &&
    decide (r.sha256.toList.length = 64) && r.sha256.toList.all Text.isLowerHex

def recordMigration (db : Database σ) (m : Migration) : Option (Database σ) := do
  let rows ← db.ledger
  if m.row.valid && rows.all fun r => decide (r.version ≠ m.version ∧ r.filename ≠ m.filename) then
    some { db with ledger := some (rows ++ [m.row]) }
  else none

/-- A statement fails or takes effect. -/
def execute (engine : Engine σ) (db : Database σ) : Statement → Option (Database σ)
  | .body sql => (engine.exec sql db.objects).map fun objects => { db with objects := objects }
  | .ledgerDdl => createLedger engine db
  | .record m => recordMigration db m

def execAll (engine : Engine σ) (db : Database σ) (statements : List Statement) :
    Option (Database σ) :=
  statements.foldlM (execute engine) db

/-- The transaction of a migration. That of the first creates the ledger. -/
def statements (creates : Bool) (m : Migration) : List Statement :=
  if creates then [.body m.body, .ledgerDdl, .record m] else [.body m.body, .record m]

/-- The rows `ORDER BY version`. -/
def ordered (rows : List LedgerRow) : List LedgerRow :=
  rows.insertionSort fun a b => a.version ≤ b.version

def readAppliedMigrations (rows : List LedgerRow) (expected : List Migration) :
    Except MigrationError (List Migration) := do
  let rows := ordered rows
  ensure (decide (rows ≠ []) && decide (rows.length ≤ expected.length)) .historyInvalid
  ensure ((rows.zip expected).all fun e => decide (e.1.version = e.2.version) &&
    decide (e.1.filename = e.2.filename) && decide (e.1.sha256 = e.2.sha256)) .historyInvalid
  pure (expected.take rows.length)

/-- What `apply_migrations` makes of the database once it owns the lock: whether the ledger is to
be created, and what is left to apply. -/
def planned (engine : Engine σ) (migrations : List Migration) (db : Database σ) :
    Except MigrationError (Bool × List Migration) := do
  let schemaExists := engine.schemaExists db.objects
  let operationsExists := engine.operationsExists db.objects
  ensure (schemaExists == db.ledger.isSome) .databaseUnmanaged
  ensure (schemaExists || !operationsExists) .databaseUnmanaged
  match db.ledger with
  | none => pure (true, migrations)
  | some rows => do
    ensure operationsExists .databaseInconsistent
    let applied ← readAppliedMigrations rows migrations
    pure (false, migrations.drop applied.length)

structure MigrationResult where
  applied : List String
  current : Option String
  deriving DecidableEq, Repr

/-- Where the owner of the lock is. -/
inductive Point (σ : Type) where
  /-- about to look at the shape of the database -/
  | locked
  /-- between transactions -/
  | between (creates : Bool) (applied : List String) (todo : List Migration)
  /-- in the transaction of a migration, with what its statements have made of the database -/
  | inside (applied : List String) (m : Migration) (todo : List Migration)
    (left : List Statement) (working : Database σ)

structure Session (σ : Type) where
  migrations : List Migration
  point : Point σ

/-- The database as committed, who owns the advisory lock, and the results of the runs that
returned. -/
structure World (σ : Type) where
  db : Database σ
  owner : Option (Session σ)
  results : List MigrationResult

def World.init (db : Database σ) : World σ := ⟨db, none, []⟩

inductive Event where
  /-- a runner gets the lock on its second connection -/
  | acquire (connection lockConnection : Connection) (same : Bool)
  /-- the owner of the lock goes on to its next statement, commit or return -/
  | advance
  /-- the owner fails or is cut off: its transactions roll back, the lock with them -/
  | interrupt

/-- What comes before the lock is taken. -/
def start (rt : Runtime) (directory : List Asset) (connection lockConnection : Connection)
    (same : Bool) : Except MigrationError (List Migration) := do
  let migrations ← loadMigrations rt directory
  let identity ← validateDeployer connection
  ensure (!same && lockConnection.autocommit == some false) .lockConnectionUnsafe
  validateLockConnection lockConnection identity
  pure migrations

def World.release (w : World σ) : World σ := { w with owner := none }

def World.move (w : World σ) (migrations : List Migration) (point : Point σ) : World σ :=
  { w with owner := some ⟨migrations, point⟩ }

def advance (engine : Engine σ) (w : World σ) (s : Session σ) : World σ :=
  match s.point with
  | .locked =>
    match planned engine s.migrations w.db with
    | .error _ => w.release
    | .ok (creates, todo) => w.move s.migrations (.between creates [] todo)
  | .between creates applied [] =>
    -- a sequence is never empty, so there is a first migration to create the ledger with
    if creates then w.release
    else { w.release with
      results := w.results ++ [⟨applied, s.migrations.getLast?.map Migration.filename⟩] }
  | .between creates applied (m :: todo) =>
    w.move s.migrations (.inside applied m todo (statements creates m) w.db)
  | .inside applied m todo (statement :: left) working =>
    match execute engine working statement with
    | none => w.release
    | some working => w.move s.migrations (.inside applied m todo left working)
  | .inside applied m todo [] working =>
    { w with
      db := working
      owner := some ⟨s.migrations, .between false (applied ++ [m.filename]) todo⟩ }

def step (rt : Runtime) (directory : List Asset) (engine : Engine σ) (w : World σ) :
    Event → Option (World σ)
  | .acquire connection lockConnection same =>
    match w.owner with
    | some _ => none
    | none =>
      match start rt directory connection lockConnection same with
      | .error _ => none
      | .ok migrations => some (w.move migrations .locked)
  | .advance => w.owner.map (advance engine w)
  | .interrupt => w.owner.map fun _ => w.release

end CadPlot.Gateway.Migrate
