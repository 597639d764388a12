import CadPlot.Gateway.Quota

/-!
# The events of operations

Every change of an operation's state inserts a row into `operation_events`, in
the transaction that makes the change. The functions of the locked record are
given here again with the events they record; without the events they are the
functions of the repository. The identity column numbers the rows in the order
of their inserts, whether or not their transactions commit.
-/

namespace CadPlot.Gateway.Events

open ReadCommitted Transactions
open Postgres hiding Call lockOperation

/-- What an insert into `operation_events` gives. -/
structure StateChange where
  key : Key
  fromState : Option OperationState
  toState : OperationState
  occurredAt : Int

structure EventRow extends StateChange where
  eventId : Nat

/-- `_write_transition` with its call of `_record_event`. -/
def recordTransition (record : OperationRecord) (state : OperationState)
    (leaseExpiresAt startedAt completedAt : Option Int) (result : Option TaskResult)
    (errorCode : Option SafeCode) (eventAt : Int) :
    Except String (OperationRecord × List StateChange) :=
  (fun updated => (updated, [⟨rowKey updated, some record.state, state, eventAt⟩])) <$>
    writeTransition record state leaseExpiresAt startedAt completedAt result errorCode

def refreshRecorded (record : OperationRecord) (now : Int) :
    Except String ((OperationRecord × Bool) × List StateChange) :=
  let changed := fun x : OperationRecord × List StateChange => ((x.1, true), x.2)
  if record.state = .created ∧ record.expiresAt ≤ now then
    changed <$> recordTransition record .expired none record.startedAt (some now) none
      (some .operationExpired) now
  else if record.state = .leased ∧ record.leaseEnded now then
    changed <$> recordTransition record .attentionRequired none record.startedAt (some now) none
      (some .leaseExpired) now
  else if record.state = .running ∧ record.expiresAt ≤ now then
    let unknownWrite := record.task.isUnknownWrite
    changed <$> recordTransition record
      (if unknownWrite then .attentionRequired else .expired) none record.startedAt (some now) none
      (some (if unknownWrite then .translationAttentionRequired else .operationExpired)) now
  else .ok ((record, false), [])

/-- A status beside a row. -/
def answering (status : TransitionStatus) (x : OperationRecord × List StateChange) :
    (TransitionStatus × OperationRecord) × List StateChange :=
  ((status, x.1), x.2)

def startRecorded (record : OperationRecord) (databaseNow : Int) :
    Except String ((TransitionStatus × OperationRecord) × List StateChange) :=
  if record.state = .leased ∧ record.leaseEnded databaseNow then
    answering .leaseExpired <$> recordTransition record .attentionRequired none record.startedAt
      (some databaseNow) none (some .leaseExpired) databaseNow
  else if record.state ≠ .leased then .ok ((.invalidState, record), [])
  else
    answering .updated <$> recordTransition record .running none (some databaseNow) none none none
      databaseNow

def finishRecorded (record : OperationRecord) (databaseNow completionNow : Int)
    (state : OperationState) (result : Option TaskResult) (errorCode : Option SafeCode)
    (validateResultBindingLocked : OperationRecord → Option TaskResult → Except String Unit) :
    Except String ((TransitionStatus × OperationRecord) × List StateChange) := do
  let ((refreshed, changed), events) ← refreshRecorded record databaseNow
  if changed ∧ refreshed.state = .expired then pure ((.operationExpired, refreshed), events)
  else if refreshed.state ≠ .running then pure ((.invalidState, refreshed), events)
  else do
    require (result ≠ none ∨ state = .failed) "repository_failure"
    validateResultBindingLocked refreshed result
    let ((again, changed), more) ← refreshRecorded refreshed completionNow
    if changed then pure ((.operationExpired, again), events ++ more)
    else
      (fun x => answering .updated (x.1, events ++ more ++ x.2)) <$> recordTransition refreshed
        state none refreshed.startedAt (some completionNow) result errorCode completionNow

def applyRecorded (record : OperationRecord) (databaseNow completionNow : Int)
    (result : TaskResult) (projects : List ProjectRecord) (drawings : List DrawingRecord)
    (upsertCatalog : Except String Unit)
    (validateResultBindingLocked : OperationRecord → Option TaskResult → Except String Unit) :
    Except String ((TransitionStatus × OperationRecord) × List StateChange) := do
  let ((refreshed, changed), events) ← refreshRecorded record databaseNow
  if changed ∧ refreshed.state = .expired then pure ((.operationExpired, refreshed), events)
  else if refreshed.state = .succeeded then
    pure ((if refreshed.result = some result then .updated else .invalidState, refreshed), events)
  else if refreshed.state ≠ .running then pure ((.invalidState, refreshed), events)
  else do
    validateApplicationRecords refreshed projects drawings
    upsertCatalog
    validateResultBindingLocked refreshed (some result)
    require (completionNow < refreshed.expiresAt) "invalid_terminal_state"
    (fun x => answering .updated (x.1, events ++ x.2)) <$> recordTransition refreshed .succeeded
      none refreshed.startedAt (some completionNow) (some result) none completionNow

def record (row : OperationRecord) (databaseNow completionNow : Int) (tables : CatalogTables)
    (upsertCatalog : Except String Unit) :
    Work → Except String ((TransitionStatus × OperationRecord) × List StateChange)
  | .start => startRecorded row databaseNow
  | .finish state result errorCode =>
    finishRecorded row databaseNow completionNow state result errorCode
      (validateResultBindingLocked tables databaseNow)
  | .applySuccess result projects drawings =>
    applyRecorded row databaseNow completionNow result projects drawings upsertCatalog
      (validateResultBindingLocked tables databaseNow)
  | .refresh => (fun x => ((.updated, x.1.1), x.2)) <$> refreshRecorded row databaseNow

/-- The events that a statement inserts. The refresh statement takes the state before from its
snapshot. -/
def recorded (db : OpDb) (tx : OpTx) : Action → List StateChange
  | .refreshRow key =>
    match tx.pc with
    | .leaseRefreshing _ now due =>
      match due.find? (fun d => d.1 = key), (db.visible tx).get key with
      | some (_, state), some row =>
        if isDue row now ∧ row.state = state then
          match refreshStatement row now with
          | .error _ => []
          | .ok next => [⟨key, some state, next.state, now⟩]
        else []
      | _, _ => []
    | _ => []
  | .writeLease =>
    match tx.pc with
    | .leaseSelected args leaseNow row =>
      match recordTransition row .leased
          (some (min (leaseNow + args.leaseDuration) row.expiresAt)) none none none none leaseNow with
      | .error _ => []
      | .ok (_, events) => events
    | _ => []
  | .transition databaseNow completionNow tables upsertCatalog =>
    match tx.pc with
    | .rowLocked row work =>
      match record row databaseNow completionNow tables upsertCatalog work with
      | .error _ => []
      | .ok (_, events) => events
    | _ => []
  | .insert =>
    match tx.pc with
    | .createCounted operation databaseNow =>
      if (db.visible tx).get (rowKey operation) ≠ none ∨ Quota.existing db tx operation ≠ [] then []
      else [⟨rowKey operation, none, .created, databaseNow⟩]
    | _ => []
  | _ => []

/-- The operations with the committed events, and those of each open transaction. -/
structure EventDb where
  db : OpDb
  nextId : Nat
  pending : Dict Nat (List EventRow)
  events : List EventRow

def number (nextId : Nat) (changes : List StateChange) : List EventRow :=
  changes.zipIdx.map fun c => { c.1 with eventId := nextId + c.2 }

def isClosed (db : OpDb) (t : Nat) : Bool :=
  (db.txs.get t).any fun tx => match tx.pc with
    | .closed => true
    | _ => false

def EventDb.pendingOf (s : EventDb) (t : Nat) : List EventRow := (s.pending.get t).getD []

/-- One statement with the events that it inserts. They are kept by a commit, and dropped with the
row versions otherwise. -/
def step (s : EventDb) (e : Nat × Action) : Option EventDb :=
  (Transactions.step s.db e).map fun db =>
    let changes := match s.db.txs.get e.1 with
      | none => []
      | some tx => recorded s.db tx e.2
    let mine := s.pendingOf e.1 ++ number s.nextId changes
    let committed := match e.2 with
      | .commit => mine
      | _ => []
    { db
      nextId := s.nextId + changes.length
      pending := s.pending.set e.1 (if isClosed db e.1 then [] else mine)
      events := s.events ++ committed }

def start : EventDb := ⟨emptyDb, 0, .empty, []⟩

/-- The committed events of one operation, in the order of their commits. -/
def EventDb.history (s : EventDb) (k : Key) : List EventRow := s.events.filter fun e => e.key = k

end CadPlot.Gateway.Events
