import CadPlot.Gateway.Lifecycle
import CadPlot.Gateway.Postgres
import CadPlot.Lib.ReadCommitted
import CadPlot.Lib.Runs

/-!
# Concurrent repository transactions

The transactions of the Postgres repository, one statement at a time, over the
operations table. Each statement sees the committed rows and its own versions;
every clock reading and every state of the catalog tables is given with the
statement that sees it. A statement whose lock is taken is not enabled. A call
that raises is rolled back, and any transaction may be.
-/

namespace CadPlot.Gateway.Transactions

open ReadCommitted Postgres

abbrev Key := TenantId × OperationId

/-- What is locked besides operation rows: a workstation row, and the advisory lock of one
client's quota. -/
inductive Resource where
  | workstation (tenantId : TenantId) (workstationId : WorkstationId)
  | quota (tenantId : TenantId) (ownerSubjectId : SubjectId) (clientId : ClientId)
      (workstationId : WorkstationId)
  deriving DecidableEq

structure LeaseArgs where
  tenantId : TenantId
  workstationId : WorkstationId
  ownerSubjectId : SubjectId
  leaseDuration : Int

structure Target where
  tenantId : TenantId
  operationId : OperationId
  workstationId : WorkstationId

/-- What a call makes of the operation row it has locked. -/
inductive Work where
  | start
  | finish (state : OperationState) (result : Option TaskResult) (errorCode : Option SafeCode)
  | applySuccess (result : TaskResult) (projects : List ProjectRecord)
      (drawings : List DrawingRecord)
  | refresh

def Work.run (record : OperationRecord) (databaseNow completionNow : Int)
    (tables : CatalogTables) (upsertCatalog : Except String Unit) :
    Work → Except String (TransitionStatus × OperationRecord)
  | .start => startLocked record databaseNow
  | .finish state result errorCode =>
    finishLocked record databaseNow completionNow state result errorCode
      (validateResultBindingLocked tables databaseNow)
  | .applySuccess result projects drawings =>
    applyLocked record databaseNow completionNow result projects drawings upsertCatalog
      (validateResultBindingLocked tables databaseNow)
  | .refresh => (fun x => (.updated, x.1)) <$> refreshLocked record databaseNow

inductive Call where
  | leaseNext (args : LeaseArgs)
  | worker (target : Target) (work : Work)
  | refresh (tenantId : TenantId) (operationId : OperationId)
  | createOrGet (operation : OperationRecord)

/-- The argument checks that precede the transaction. -/
def Call.accepted : Call → Bool
  | .leaseNext args => 5000000 ≤ args.leaseDuration ∧ args.leaseDuration ≤ 300000000
  | .worker _ (.finish state result errorCode) =>
    (state = .succeeded ∧ result ≠ none ∧ errorCode = none) ∨
      ((state = .failed ∨ state = .attentionRequired) ∧ result = none ∧ errorCode ≠ none)
  | .worker _ _ => true
  | .refresh .. => true
  | .createOrGet operation =>
    operation.Valid ∧ operation.state = .created ∧
      30000000 ≤ operation.expiresAt - operation.createdAt ∧
      operation.expiresAt - operation.createdAt ≤ 86400000000

/-- Where a transaction stands: what it has locked, read and decided so far. -/
inductive Pc where
  | closed
  | begun (call : Call)
  | leaseLocked (args : LeaseArgs)
  | leaseRefreshing (args : LeaseArgs) (now : Int) (due : List (Key × OperationState))
  | leaseChecked (args : LeaseArgs) (leaseNow : Int)
  | leaseSelected (args : LeaseArgs) (leaseNow : Int) (record : OperationRecord)
  | leaseWritten (args : LeaseArgs) (record : OperationRecord)
  | workerLocked (target : Target) (work : Work)
  | rowLocked (record : OperationRecord) (work : Work)
  | createStarted (operation : OperationRecord)
  | createAbsent (operation : OperationRecord)
  | createLocked (operation : OperationRecord)
  | createCounted (operation : OperationRecord) (databaseNow : Int)
  | createRefused (operation : OperationRecord)
  | done

inductive Action where
  | begin (call : Call)
  | lockWorkstation (tables : CatalogTables) (clock : Int)
  | readDue (now : Int)
  | refreshRow (key : Key)
  | checkActive (leaseNow : Int)
  | selectNext
  | writeLease
  | lockOperation
  | transition (databaseNow completionNow : Int) (tables : CatalogTables)
      (upsertCatalog : Except String Unit)
  | lockQuota
  | findExisting
  | checkQuota (databaseNow : Int) (tables : CatalogTables) (maxActive : Nat)
  | insert
  | commit
  | abort

abbrev OpTx := Tx Key Resource OperationRecord Pc
abbrev OpDb := Db Key Resource OperationRecord Pc

def rowKey (record : OperationRecord) : Key := (record.tenantId, record.operationId)

def ofWorkstation (tenantId : TenantId) (workstationId : WorkstationId)
    (record : OperationRecord) : Bool :=
  decide (record.tenantId = tenantId ∧ record.workstationId = workstationId)

/-- The rows of a table that a condition selects. -/
def rowsWhere (table : Dict Key OperationRecord) (p : OperationRecord → Bool) :
    List OperationRecord :=
  (table.entries.map Prod.snd).filter p

section Statements

variable (db : OpDb) (t : Nat) (tx : OpTx)

def goto (pc : Pc) : OpDb := db.setTx t { tx with pc := pc }

/-- Wait for a lock, then go on. -/
def lockThen (target : Key ⊕ Resource) (mode : LockMode) (pc : Pc) : Option OpDb :=
  if db.free t target mode then
    some (db.setTx t { tx with locks := (target, mode) :: tx.locks, pc := pc })
  else none

/-- Write a row version that the transaction has locked. -/
def writeRow (record : OperationRecord) (pc : Pc) : OpDb :=
  db.setTx t { tx with writes := tx.writes.set (rowKey record) record, pc := pc }

def raise : OpDb := db.rollback t .closed

/-- `_lock_worker_workstation` and `_lock_enqueue_workstation`: the row is counted and locked FOR
SHARE, or the call raises. -/
def lockWorkstation (tables : CatalogTables) (clock : Int) : Option OpDb :=
  match tx.pc with
  | .begun (.leaseNext args) =>
    if lockCatalogRows tables clock .ownedWorkstation args.tenantId (some args.ownerSubjectId)
        args.workstationId [args.workstationId] none true = 1 then
      lockThen db t tx (.inr (.workstation args.tenantId args.workstationId)) .share
        (.leaseLocked args)
    else some (raise db t)
  | .begun (.worker target work) =>
    if lockCatalogRows tables clock .workerWorkstation target.tenantId none target.workstationId
        [target.workstationId] none false = 1 then
      lockThen db t tx (.inr (.workstation target.tenantId target.workstationId)) .share
        (.workerLocked target work)
    else some (raise db t)
  | .createAbsent operation =>
    if lockCatalogRows tables clock .ownedWorkstation operation.tenantId
        (some operation.ownerSubjectId) operation.workstationId [operation.workstationId] none
        true = 1 then
      lockThen db t tx (.inr (.workstation operation.tenantId operation.workstationId)) .share
        (.createLocked operation)
    else some (raise db t)
  | _ => none

/-- The snapshot of the due rows that the refresh statement takes. -/
def readDue (now : Int) : Option OpDb :=
  match tx.pc with
  | .leaseLocked args =>
    let due := rowsWhere (db.visible tx) fun row =>
      ofWorkstation args.tenantId args.workstationId row && isDue row now
    some (goto db t tx (.leaseRefreshing args now (due.map fun row => (rowKey row, row.state))))
  | _ => none

/-- One due row: wait for its lock, look at its newest version again, and update it if it is due
in the state of the snapshot. -/
def refreshRow (key : Key) : Option OpDb :=
  match tx.pc with
  | .leaseRefreshing args now due =>
    match due.find? (fun d => d.1 = key) with
    | none => none
    | some (_, state) =>
      if db.free t (.inl key) .update then
        let held := { tx with locks := (.inl key, .update) :: tx.locks }
        let rest := Pc.leaseRefreshing args now (due.filter fun d => d.1 ≠ key)
        match (db.visible tx).get key with
        | none => some (goto db t held rest)
        | some row =>
          if isDue row now ∧ row.state = state then
            match refreshStatement row now with
            | .error _ => some (raise db t)
            | .ok next => some (writeRow db t held next rest)
          else some (goto db t held rest)
      else none
  | _ => none

/-- `active_sql`, once the refresh statement is through. -/
def checkActive (leaseNow : Int) : Option OpDb :=
  match tx.pc with
  | .leaseRefreshing args _ [] =>
    if (rowsWhere (db.visible tx) fun row =>
        ofWorkstation args.tenantId args.workstationId row && row.state.isActive) = [] then
      some (goto db t tx (.leaseChecked args leaseNow))
    else some (goto db t tx .done)
  | _ => none

/-- `select_sql`: the first queued row in order that no other transaction has locked. -/
def selectNext : Option OpDb :=
  match tx.pc with
  | .leaseChecked args leaseNow =>
    let queued := rowsWhere (db.visible tx) fun row =>
      ofWorkstation args.tenantId args.workstationId row &&
        decide (row.ownerSubjectId = args.ownerSubjectId ∧ row.state = .created ∧
          leaseNow < row.expiresAt) &&
        db.free t (.inl (rowKey row)) .update
    match InMemory.earliest queued with
    | none => some (goto db t tx .done)
    | some row =>
      lockThen db t tx (.inl (rowKey row)) .update (.leaseSelected args leaseNow row)
  | _ => none

def writeLease : Option OpDb :=
  match tx.pc with
  | .leaseSelected args leaseNow record =>
    match writeTransition record .leased
        (some (min (leaseNow + args.leaseDuration) record.expiresAt)) none none none none with
    | .error _ => some (raise db t)
    | .ok leased => some (writeRow db t tx leased (.leaseWritten args leased))
  | _ => none

/-- `_lock_operation`: the row as it is when the lock is granted. -/
def lockOperation : Option OpDb :=
  match tx.pc with
  | .workerLocked target work =>
    match (db.visible tx).get (target.tenantId, target.operationId) with
    | none => some (goto db t tx .done)
    | some row =>
      if row.workstationId ≠ target.workstationId then some (goto db t tx .done)
      else
        lockThen db t tx (.inl (target.tenantId, target.operationId)) .update
          (.rowLocked row work)
  | .begun (.refresh tenantId operationId) =>
    match (db.visible tx).get (tenantId, operationId) with
    | none => some (goto db t tx .done)
    | some row => lockThen db t tx (.inl (tenantId, operationId)) .update (.rowLocked row .refresh)
  | _ => none

def transition (databaseNow completionNow : Int) (tables : CatalogTables)
    (upsertCatalog : Except String Unit) : Option OpDb :=
  match tx.pc with
  | .rowLocked record work =>
    match work.run record databaseNow completionNow tables upsertCatalog with
    | .error _ => some (raise db t)
    | .ok (_, next) => some (writeRow db t tx next .done)
  | _ => none

def lockQuota : Option OpDb :=
  match tx.pc with
  | .begun (.createOrGet operation) =>
    lockThen db t tx (.inr (.quota operation.tenantId operation.ownerSubjectId operation.clientId
      operation.workstationId)) .update (.createStarted operation)
  | _ => none

/-- `existing_sql`, before the insert and again after one that was refused. -/
def findExisting : Option OpDb :=
  let existing := fun operation => rowsWhere (db.visible tx) fun row =>
    row.idempotencyIndex = operation.idempotencyIndex
  match tx.pc with
  | .createStarted operation =>
    match existing operation with
    | [] => some (goto db t tx (.createAbsent operation))
    | row :: _ => lockThen db t tx (.inl (rowKey row)) .update .done
  | .createRefused operation =>
    match existing operation with
    | [] => some (raise db t)
    | row :: _ => lockThen db t tx (.inl (rowKey row)) .update .done
  | _ => none

/-- `_validate_enqueue_task_locked` -/
def enqueueTaskAccepted (tables : CatalogTables) (clock : Int) (operation : OperationRecord) :
    Bool :=
  match operation.task with
  | .validateEnvironment workstationId | .listProjects workstationId =>
    workstationId = operation.workstationId
  | .scanDrawings projectId .. =>
    lockCatalogRows tables clock .projects operation.tenantId operation.ownerSubjectId
      operation.workstationId [projectId] none false = 1
  | .inspectDrawing drawingId | .createPublishPlan drawingId | .translation drawingId _ =>
    lockCatalogRows tables clock .drawingChains operation.tenantId operation.ownerSubjectId
      operation.workstationId [drawingId] none false = 1

/-- The rows that `quota_sql` counts. -/
def countsForQuota (operation row : OperationRecord) (now : Int) : Bool :=
  ofWorkstation operation.tenantId operation.workstationId row &&
    decide (row.ownerSubjectId = operation.ownerSubjectId ∧ row.clientId = operation.clientId) &&
    match row.state with
    | .created | .running => decide (now < row.expiresAt)
    | .leased => Schema.before (some now) row.leaseExpiresAt
    | _ => false

/-- Another transaction has a version of a row with this primary or idempotency key, so the
insert waits for it. -/
def insertWaits (operation : OperationRecord) : Bool :=
  db.txs.entries.any fun e => decide (e.1 ≠ t) &&
    (e.2.writes.entries.map Prod.snd).any fun row =>
      decide (rowKey row = rowKey operation ∨ row.idempotencyIndex = operation.idempotencyIndex)

/-- The row that a call inserts at an instant. -/
def createdAt (operation : OperationRecord) (databaseNow : Int) : OperationRecord :=
  { operation with
    createdAt := databaseNow
    expiresAt := databaseNow + (operation.expiresAt - operation.createdAt) }

/-- The checks of the task and of the quota, with the instant that the insert will use too. -/
def checkQuota (databaseNow : Int) (tables : CatalogTables) (maxActive : Nat) : Option OpDb :=
  match tx.pc with
  | .createLocked operation =>
    if ¬ enqueueTaskAccepted tables databaseNow operation then some (raise db t)
    else if maxActive ≤
        (rowsWhere (db.visible tx) (countsForQuota operation · databaseNow)).length then
      some (raise db t)
    else some (goto db t tx (.createCounted operation databaseNow))
  | _ => none

def insert : Option OpDb :=
  match tx.pc with
  | .createCounted operation databaseNow =>
    let rows := db.visible tx
    if insertWaits db t operation then none
    else if rows.get (rowKey operation) ≠ none ∨
        rowsWhere rows (fun row => row.idempotencyIndex = operation.idempotencyIndex) ≠ [] then
      some (goto db t tx (.createRefused operation))
    else if db.free t (.inl (rowKey operation)) .update then
      some (writeRow db t { tx with locks := (.inl (rowKey operation), .update) :: tx.locks }
        (createdAt operation databaseNow) .done)
    else none
  | _ => none

def commit : Option OpDb :=
  match tx.pc with
  | .done | .leaseWritten .. => some (db.commit t tx .closed)
  | _ => none

end Statements

/-- One statement of one transaction. A new transaction takes a number that was never used. -/
def step (db : OpDb) (e : Nat × Action) : Option OpDb :=
  match e.2, db.txs.get e.1 with
  | .begin call, none =>
    if call.accepted then some (db.setTx e.1 ⟨[], .empty, .begun call⟩) else none
  | .begin _, some _ => none
  | _, none => none
  | .lockWorkstation tables clock, some tx => lockWorkstation db e.1 tx tables clock
  | .readDue now, some tx => readDue db e.1 tx now
  | .refreshRow key, some tx => refreshRow db e.1 tx key
  | .checkActive leaseNow, some tx => checkActive db e.1 tx leaseNow
  | .selectNext, some tx => selectNext db e.1 tx
  | .writeLease, some tx => writeLease db e.1 tx
  | .lockOperation, some tx => lockOperation db e.1 tx
  | .transition databaseNow completionNow tables upsertCatalog, some tx =>
    transition db e.1 tx databaseNow completionNow tables upsertCatalog
  | .lockQuota, some tx => lockQuota db e.1 tx
  | .findExisting, some tx => findExisting db e.1 tx
  | .checkQuota databaseNow tables maxActive, some tx =>
    checkQuota db e.1 tx databaseNow tables maxActive
  | .insert, some tx => insert db e.1 tx
  | .commit, some tx => commit db e.1 tx
  | .abort, some _ => some (raise db e.1)

def emptyDb : OpDb := ⟨.empty, .empty⟩

/-- No two rows of one workstation are leased or running. -/
def AtMostOneActive (db : OpDb) : Prop :=
  ∀ k k' r r', db.committed.get k = some r → db.committed.get k' = some r' →
    r.tenantId = r'.tenantId → r.workstationId = r'.workstationId →
      r.state.isActive = true → r'.state.isActive = true → k = k'

end CadPlot.Gateway.Transactions
