import CadPlot.Gateway.TransactionRuns

/-!
# The creation of operations under a quota

The concurrent transactions again, with the clock of the database: a reading is
never ahead of it, and it does not run backwards. `create_or_get_operation`
counts the operations of a client on a workstation that are not due yet, and
answers a key that is already there with the operation that has it.
-/

namespace CadPlot.Gateway.Quota

open ReadCommitted Transactions

/-- Whom the active operations are counted for. -/
structure Namespace where
  tenantId : TenantId
  ownerSubjectId : SubjectId
  clientId : ClientId
  workstationId : WorkstationId
  deriving DecidableEq

def namespaceOf (r : OperationRecord) : Namespace :=
  ⟨r.tenantId, r.ownerSubjectId, r.clientId, r.workstationId⟩

def Namespace.resource (ns : Namespace) : Resource :=
  .quota ns.tenantId ns.ownerSubjectId ns.clientId ns.workstationId

/-- Created, leased or running, and not past its deadline. -/
def nonDue (row : OperationRecord) (now : Int) : Bool :=
  match row.state with
  | .created | .running => decide (now < row.expiresAt)
  | .leased => Schema.before (some now) row.leaseExpiresAt
  | _ => false

def counts (ns : Namespace) (now : Int) (row : OperationRecord) : Bool :=
  decide (namespaceOf row = ns) && nonDue row now

def activeRows (table : Dict Key OperationRecord) (ns : Namespace) (now : Int) :
    List OperationRecord :=
  rowsWhere table (counts ns now)

theorem countsForQuota_eq (operation row : OperationRecord) (now : Int) :
    countsForQuota operation row now = counts (namespaceOf operation) now row := by
  have hns : (ofWorkstation operation.tenantId operation.workstationId row &&
      decide (row.ownerSubjectId = operation.ownerSubjectId ∧
        row.clientId = operation.clientId)) =
      decide (namespaceOf row = namespaceOf operation) := by
    rw [Bool.eq_iff_iff]
    simp only [ofWorkstation, namespaceOf, Bool.and_eq_true, decide_eq_true_eq, Namespace.mk.injEq]
    tauto
  rw [countsForQuota, hns]
  rfl

/-- The rows that have the idempotency key of an operation, as a transaction sees them. -/
def existing (db : OpDb) (tx : OpTx) (operation : OperationRecord) : List OperationRecord :=
  rowsWhere (db.visible tx) fun row => row.idempotencyIndex = operation.idempotencyIndex

/-- What a call is answered for a row that has its key. -/
def found (operation row : OperationRecord) : CreateOutcome :=
  ⟨if row.requestFingerprint = operation.requestFingerprint then .existing else .conflict, row⟩

/-- What a statement makes `create_or_get_operation` return, once its transaction commits. -/
def answer (db : OpDb) (t : Nat) (action : Action) : Option CreateOutcome :=
  match action, db.txs.get t with
  | .findExisting, some tx =>
    match tx.pc with
    | .createStarted operation | .createRefused operation =>
      (existing db tx operation).head?.map (found operation)
    | _ => none
  | .insert, some tx =>
    match tx.pc with
    | .createCounted operation now =>
      if (db.visible tx).get (rowKey operation) ≠ none ∨ existing db tx operation ≠ [] then none
      else some ⟨.created, createdAt operation now⟩
    | _ => none
  | _, _ => none

/-- The operation that a transaction is asked to create. -/
def callOf : Pc → Option OperationRecord
  | .begun (.createOrGet operation) => some operation
  | .createStarted operation | .createAbsent operation | .createLocked operation
  | .createCounted operation _ | .createRefused operation => some operation
  | _ => none

structure World where
  db : OpDb
  now : Int

inductive Event where
  | tick (now : Int)
  | act (t : Nat) (action : Action)

/-- What an action reads of the clock. -/
def readings : Action → List Int
  | .lockWorkstation _ clock => [clock]
  | .readDue now => [now]
  | .checkActive leaseNow => [leaseNow]
  | .transition databaseNow completionNow _ _ => [databaseNow, completionNow]
  | .checkQuota databaseNow _ _ => [databaseNow]
  | _ => []

/-- Every repository is configured with the same limit. -/
def configured (limit : Nat) : Action → Bool
  | .checkQuota _ _ maxActive => decide (maxActive = limit)
  | _ => true

def step (limit : Nat) (w : World) : Event → Option World
  | .tick now => if w.now ≤ now then some { w with now := now } else none
  | .act t action =>
    if (readings action).all (· ≤ w.now) && configured limit action then
      (Transactions.step w.db (t, action)).map fun db => { w with db := db }
    else none

def start (now : Int) : World := ⟨emptyDb, now⟩

/-- The transaction has counted for a namespace and may still add to it. -/
def isPending (committed : Dict Key OperationRecord) (ns : Namespace) (tx : OpTx) : Bool :=
  (match tx.pc with
  | .createCounted operation _ => decide (namespaceOf operation = ns)
  | _ => false) ||
    tx.writes.entries.any fun e => decide (committed.get e.1 = none ∧ namespaceOf e.2 = ns)

/-- One more operation fits the namespace, whatever is being created in it. -/
def hasRoom (limit : Nat) (w : World) (ns : Namespace) : Bool :=
  decide ((activeRows w.db.committed ns w.now).length +
    (if w.db.txs.entries.any fun e => isPending w.db.committed ns e.2 then 1 else 0) < limit)

/-- A start that is about to commit is that of a lease that has not lapsed, or there is room. -/
def startInTime (limit : Nat) (w : World) : Event → Bool
  | .act t .commit =>
    match w.db.txs.get t with
    | none => true
    | some tx => tx.writes.entries.all fun e =>
      match w.db.committed.get e.1 with
      | none => true
      | some old => !decide (old.state = .leased ∧ e.2.state = .running) || nonDue old w.now ||
          hasRoom limit w (namespaceOf e.2)
  | _ => true

end CadPlot.Gateway.Quota
