import CadPlot.Gateway.ReplayGuard
import CadPlot.Gateway.Schema
import CadPlot.Lib.ReadCommitted
import CadPlot.Lib.Runs

/-!
# The durable result replay functions

The functions of the worker-control migration over the replay table, one query
of a function at a time. Each query has a snapshot of its own. What a query
reads from the clock and from the dispatch table is given with it. Arguments are
present and finite. A transaction that raises is rolled back, and any may be.
-/

namespace CadPlot.Gateway.ReplaySql

open ReadCommitted Replay

/-- A row under its key. The application columns are set together, and before the marker. -/
structure ReplayRow where
  binding : Binding Int
  application : Option (Uuid × Int)
  appliedAt : Option Int
  shape : appliedAt ≠ none → application ≠ none
  deriving DecidableEq

/-- A row as the claim inserts it. -/
def ReplayRow.inserted (binding : Binding Int) : ReplayRow := ⟨binding, none, none, absurd rfl⟩

/-- The `selected_` arguments that name a signed result. -/
structure Args where
  key : Key
  binding : Binding Int
  deriving DecidableEq

inductive Call where
  | classify (args : Args)
  | claim (args : Args) (claimExpiresAt : Int)
  | acquire (args : Args) (applicationId : Uuid) (leaseSeconds : Int)
  | mark (args : Args) (applicationId : Uuid)

inductive Answer where
  | classification (c : ResultReplayClassification)
  | application (status : ResultApplicationStatus)
  | marked (applied : Bool)
  deriving DecidableEq

/-- How far a transaction has come through its function, with what it has read. -/
inductive Pc where
  | closed
  | refused (answer : Answer)
  | entered (call : Call) (since : Int)
  | claimDispatched (args : Args) (claimExpiresAt operationExpiresAt : Int)
  | claimLocked (args : Args) (claimExpiresAt operationExpiresAt : Int)
  | claimAbsent (args : Args) (claimExpiresAt operationExpiresAt : Int)
  | claimTimely (args : Args) (claimExpiresAt operationExpiresAt : Int)
  | claimNotInserted (args : Args)
  | claimInserted (args : Args)
  | acquireLocked (args : Args) (applicationId : Uuid) (leaseSeconds : Int) (existing : ReplayRow)
  | acquireFree (args : Args) (applicationId : Uuid) (leaseSeconds databaseNow : Int)
  | acquireWritten (args : Args) (applicationId : Uuid) (databaseNow expiry : Int)
  | markFound (args : Args) (applicationId : Uuid) (since : Int) (found : ReplayRow)
      (checkedAt : Int)
  | markWritten (args : Args) (applicationId : Uuid) (since checkedAt : Int)
  | done (args : Args) (answer : Answer)

inductive Action where
  | begin (session : TenantId) (call : Call)
  | classifySelect
  | selectDispatch (dispatch : Option (Int × Int))
  | lockAdvisory
  | selectExisting
  | checkDeadlines (databaseNow : Int)
  | insertRow (first second : Int)
  | selectAgain
  | selectForUpdate
  | checkLease (databaseNow : Int)
  | updateLease
  | findMark (clock : Int)
  | updateMark (recheck : Bool) (clock appliedAt : Int)
  | commit
  | abort

abbrev ReplayTx := Tx Key Int ReplayRow Pc
abbrev ReplayDb := Db Key Int ReplayRow Pc

/-- The first check of each function. -/
def Call.refusal (session : TenantId) : Call → Option Answer
  | .classify args =>
    if args.key.tenantId ≠ session then some (.classification .conflict) else none
  | .claim args claimExpiresAt =>
    if claimExpiresAt < args.binding.completedAt ∨
        args.binding.completedAt + seconds maxResultAgeSeconds < claimExpiresAt ∨
        args.key.tenantId ≠ session then some (.classification .conflict) else none
  | .acquire args _ leaseSeconds =>
    if leaseSeconds < 1 ∨ maxResultApplicationLeaseSeconds < leaseSeconds ∨
        args.key.tenantId ≠ session then some (.application .conflict) else none
  | .mark args _ => if args.key.tenantId ≠ session then some (.marked false) else none

/-- `reject_worker_replay_identity_mutation` -/
def rejectWorkerReplayIdentityMutation (old new : ReplayRow) : Except String Unit := do
  require (new.binding = old.binding) "worker signed-result identity and hash are immutable"
  require (old.appliedAt = none ∨
    (new.application = old.application ∧ new.appliedAt = old.appliedAt))
    "worker result application marker is immutable once set"

/-- `applied_at = COALESCE(applied_at, clock_timestamp())`, of a row that is leased. -/
def ReplayRow.marked (row : ReplayRow) (appliedAt : Int) : ReplayRow :=
  match row.appliedAt, row.application with
  | none, some application =>
    ⟨row.binding, some application, some appliedAt, fun _ => Option.some_ne_none _⟩
  | _, _ => row

def ReplayRow.leased (row : ReplayRow) (applicationId : Uuid) (expiry : Int) : ReplayRow :=
  ⟨row.binding, some (applicationId, expiry), row.appliedAt, fun _ => Option.some_ne_none _⟩

/-- The condition of the update in `mark_worker_result_applied`. -/
def markable (row : ReplayRow) (args : Args) (applicationId : Uuid) (clock : Int) : Bool :=
  decide (row.binding = args.binding) &&
    (decide (row.appliedAt ≠ none) ||
      match row.application with
      | none => false
      | some (holder, expiry) => decide (holder = applicationId ∧ clock < expiry))

/-- The lease of another application that has not expired. -/
def busyFor (row : ReplayRow) (applicationId : Uuid) (databaseNow : Int) : Bool :=
  match row.application with
  | none => false
  | some (holder, expiry) => decide (databaseNow < expiry ∧ holder ≠ applicationId)

section Statements

variable (db : ReplayDb) (t : Nat) (tx : ReplayTx)

def goto (pc : Pc) : ReplayDb := db.setTx t { tx with pc := pc }

def raise : ReplayDb := db.rollback t .closed

def writeRow (key : Key) (row : ReplayRow) (pc : Pc) : ReplayDb :=
  db.setTx t ⟨(.inl key, .update) :: tx.locks, tx.writes.set key row, pc⟩

/-- An update of a locked row, through the trigger. -/
def updateRow (key : Key) (old new : ReplayRow) (pc : Pc) : ReplayDb :=
  match rejectWorkerReplayIdentityMutation old new with
  | .error _ => raise db t
  | .ok () => writeRow db t tx key new pc

/-- How a row found under the key compares with the arguments. -/
def compared (args : Args) (row : ReplayRow) : Answer :=
  .classification (if row.binding = args.binding then .exactMatch else .conflict)

def classifySelect : Option ReplayDb :=
  match tx.pc with
  | .entered (.classify args) _ =>
    match (db.visible tx).get args.key with
    | none => some (goto db t tx (.done args (.classification .unseen)))
    | some row => some (goto db t tx (.done args (compared args row)))
  | _ => none

def selectDispatch (dispatch : Option (Int × Int)) : Option ReplayDb :=
  match tx.pc with
  | .entered (.claim args claimExpiresAt) _ =>
    match dispatch with
    | none => some (goto db t tx (.done args (.classification .conflict)))
    | some (issuedAt, operationExpiresAt) =>
      if args.binding.completedAt < issuedAt - seconds 30 ∨
          operationExpiresAt < args.binding.completedAt ∨
          operationExpiresAt < claimExpiresAt then
        some (goto db t tx (.done args (.classification .conflict)))
      else some (goto db t tx (.claimDispatched args claimExpiresAt operationExpiresAt))
  | _ => none

/-- The advisory lock on a hash of the key. -/
def lockAdvisory (hashtextextended : Key → Int) : Option ReplayDb :=
  match tx.pc with
  | .claimDispatched args claimExpiresAt operationExpiresAt =>
    if db.free t (.inr (hashtextextended args.key)) .update then
      some (db.setTx t { tx with
        locks := (.inr (hashtextextended args.key), .update) :: tx.locks
        pc := .claimLocked args claimExpiresAt operationExpiresAt })
    else none
  | _ => none

def selectExisting : Option ReplayDb :=
  match tx.pc with
  | .claimLocked args claimExpiresAt operationExpiresAt =>
    match (db.visible tx).get args.key with
    | some row => some (goto db t tx (.done args (compared args row)))
    | none => some (goto db t tx (.claimAbsent args claimExpiresAt operationExpiresAt))
  | _ => none

def checkDeadlines (databaseNow : Int) : Option ReplayDb :=
  match tx.pc with
  | .claimAbsent args claimExpiresAt operationExpiresAt =>
    if claimExpiresAt ≤ databaseNow ∨ operationExpiresAt ≤ databaseNow ∨
        databaseNow + seconds 30 < args.binding.completedAt then
      some (goto db t tx (.done args (.classification .unseen)))
    else some (goto db t tx (.claimTimely args claimExpiresAt operationExpiresAt))
  | _ => none

/-- The guarded insert. It waits for another transaction's row of this key to be decided. -/
def insertRow (first second : Int) : Option ReplayDb :=
  match tx.pc with
  | .claimTimely args claimExpiresAt operationExpiresAt =>
    if ¬(first < claimExpiresAt ∧ second < operationExpiresAt) then
      some (goto db t tx (.claimNotInserted args))
    else
      match (db.visible tx).get args.key with
      | some _ => some (goto db t tx (.claimNotInserted args))
      | none =>
        if db.free t (.inl args.key) .update then
          some (writeRow db t tx args.key (.inserted args.binding)
            (.claimInserted args))
        else none
  | _ => none

def selectAgain : Option ReplayDb :=
  match tx.pc with
  | .claimNotInserted args =>
    match (db.visible tx).get args.key with
    | none => some (goto db t tx (.done args (.classification .unseen)))
    | some row => some (goto db t tx (.done args (compared args row)))
  | _ => none

def selectForUpdate : Option ReplayDb :=
  match tx.pc with
  | .entered (.acquire args applicationId leaseSeconds) _ =>
    match (db.visible tx).get args.key with
    | none => some (goto db t tx (.done args (.application .conflict)))
    | some row =>
      if db.free t (.inl args.key) .update then
        some (db.setTx t { tx with
          locks := (.inl args.key, .update) :: tx.locks
          pc :=
            if row.binding ≠ args.binding then .done args (.application .conflict)
            else if row.appliedAt ≠ none then .done args (.application .applied)
            else .acquireLocked args applicationId leaseSeconds row })
      else none
  | _ => none

def checkLease (databaseNow : Int) : Option ReplayDb :=
  match tx.pc with
  | .acquireLocked args applicationId leaseSeconds existing =>
    if busyFor existing applicationId databaseNow then
      some (goto db t tx (.done args (.application .busy)))
    else some (goto db t tx (.acquireFree args applicationId leaseSeconds databaseNow))
  | _ => none

def updateLease : Option ReplayDb :=
  match tx.pc with
  | .acquireFree args applicationId leaseSeconds databaseNow =>
    match (db.visible tx).get args.key with
    | none => some (goto db t tx (.done args (.application .conflict)))
    | some row =>
      if row.binding = args.binding ∧ row.appliedAt = none then
        let expiry := databaseNow + seconds leaseSeconds
        some (updateRow db t tx args.key row (row.leased applicationId expiry)
          (.acquireWritten args applicationId databaseNow expiry))
      else some (goto db t tx (.done args (.application .conflict)))
  | _ => none

/-- The update finds its row in a snapshot first. -/
def findMark (clock : Int) : Option ReplayDb :=
  match tx.pc with
  | .entered (.mark args applicationId) since =>
    match (db.visible tx).get args.key with
    | none => some (goto db t tx (.done args (.marked false)))
    | some row =>
      if markable row args applicationId clock then
        some (goto db t tx (.markFound args applicationId since row clock))
      else some (goto db t tx (.done args (.marked false)))
  | _ => none

/-- Once the row can be locked, its condition is checked again, unless the row is the very version
that was found. -/
def updateMark (recheck : Bool) (clock appliedAt : Int) : Option ReplayDb :=
  match tx.pc with
  | .markFound args applicationId since found checkedAt =>
    if db.free t (.inl args.key) .update then
      match (db.visible tx).get args.key with
      | none => some (goto db t tx (.done args (.marked false)))
      | some row =>
        if row = found ∧ recheck = false then
          some (updateRow db t tx args.key row (row.marked appliedAt)
            (.markWritten args applicationId since checkedAt))
        else if markable row args applicationId clock then
          some (updateRow db t tx args.key row (row.marked appliedAt)
            (.markWritten args applicationId since clock))
        else some (goto db t tx (.done args (.marked false)))
    else none
  | _ => none

def commit : Option ReplayDb :=
  match tx.pc with
  | .refused _ | .done _ _ | .claimInserted _ | .acquireWritten .. | .markWritten .. =>
    some (db.commit t tx .closed)
  | _ => none

end Statements

/-- The table in use: the time, the lease each applier was last told it has, and the answers to
well-formed requests for one. -/
structure World where
  db : ReplayDb
  clock : Int
  granted : Key → Uuid → Option Int
  answers : List (Nat × Key × Binding Int × ResultApplicationStatus)

/-- The readings of one query, in order. -/
def Action.readings : Action → List Int
  | .checkDeadlines databaseNow | .checkLease databaseNow => [databaseNow]
  | .insertRow first second => [first, second]
  | .findMark clock => [clock]
  | .updateMark _ clock appliedAt => [clock, appliedAt]
  | _ => []

/-- The clock after some readings, none of which goes back. -/
def tick (clock : Int) : List Int → Option Int
  | [] => some clock
  | now :: rest => if clock ≤ now then tick now rest else none

def statement (hashtextextended : Key → Int) (db : ReplayDb) (t : Nat) (tx : ReplayTx) :
    Action → Option ReplayDb
  | .begin .. => none
  | .classifySelect => classifySelect db t tx
  | .selectDispatch dispatch => selectDispatch db t tx dispatch
  | .lockAdvisory => lockAdvisory db t tx hashtextextended
  | .selectExisting => selectExisting db t tx
  | .checkDeadlines databaseNow => checkDeadlines db t tx databaseNow
  | .insertRow first second => insertRow db t tx first second
  | .selectAgain => selectAgain db t tx
  | .selectForUpdate => selectForUpdate db t tx
  | .checkLease databaseNow => checkLease db t tx databaseNow
  | .updateLease => updateLease db t tx
  | .findMark clock => findMark db t tx clock
  | .updateMark recheck clock appliedAt => updateMark db t tx recheck clock appliedAt
  | .commit => commit db t tx
  | .abort => some (raise db t)

/-- The lease that a commit reports. -/
def Pc.grant (granted : Key → Uuid → Option Int) : Pc → Key → Uuid → Option Int
  | .acquireWritten args applicationId _ expiry =>
    Function.update granted args.key
      (Function.update (granted args.key) applicationId (some expiry))
  | _ => granted

/-- The answer to a well-formed request for a lease that a commit reports. -/
def Pc.report (t : Nat) : Pc → List (Nat × Key × Binding Int × ResultApplicationStatus)
  | .acquireWritten args .. => [(t, args.key, args.binding, .acquired)]
  | .done args (.application status) => [(t, args.key, args.binding, status)]
  | _ => []

/-- One query of one transaction. A new transaction takes a number that was never used. -/
def step (hashtextextended : Key → Int) (w : World) (e : Nat × Action) : Option World :=
  match tick w.clock e.2.readings with
  | none => none
  | some clock =>
    match w.db.txs.get e.1, e.2 with
    | none, .begin session call =>
      let pc := match call.refusal session with
        | some answer => .refused answer
        | none => .entered call w.clock
      some { w with db := w.db.setTx e.1 ⟨[], .empty, pc⟩ }
    | none, _ => none
    | some tx, action =>
      match statement hashtextextended w.db e.1 tx action with
      | none => none
      | some db =>
        match action with
        | .commit =>
          some ⟨db, clock, tx.pc.grant w.granted, tx.pc.report e.1 ++ w.answers⟩
        | _ => some { w with db := db, clock := clock }

end CadPlot.Gateway.ReplaySql
