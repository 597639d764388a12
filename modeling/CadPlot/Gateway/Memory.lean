import CadPlot.Gateway.Models
import CadPlot.Lib.Dict

/-!
# The in-memory repository

The operations of `InMemoryGatewayRepository`. Each one runs under the
repository lock, so a call is one step. A call that raises keeps what it had
stored before, so it returns the outcome and the repository separately.
-/

namespace CadPlot.Gateway

inductive RaisedError where
  | validation (code : String)
  | value (code : String)
  | missingKey
  | repository (code : String)
  deriving DecidableEq, Repr

inductive CreateStatus where
  | created | existing | conflict
  deriving DecidableEq, Repr

inductive TransitionStatus where
  | updated | notFound | invalidState | leaseExpired | operationExpired
  deriving DecidableEq, Repr

structure CreateOutcome where
  status : CreateStatus
  operation : OperationRecord
  deriving DecidableEq

structure TransitionOutcome where
  status : TransitionStatus
  operation : Option OperationRecord
  deriving DecidableEq

namespace SafeCode

def operationExpired : SafeCode := ⟨"operation_expired", by decide⟩
def leaseExpired : SafeCode := ⟨"lease_expired", by decide⟩
def translationAttentionRequired : SafeCode := ⟨"translation_attention_required", by decide⟩
def workerFailure : SafeCode := ⟨"worker_failure", by decide⟩

end SafeCode

def ReadTask.isTranslation : ReadTask → Bool
  | .translation .. => true
  | _ => false

/-- A translation whose write may have happened when its deadline passes. -/
def ReadTask.isUnknownWrite : ReadTask → Bool
  | .translation _ request => request.operation = .apply
  | _ => false

/-- A scan task of this project. -/
def ReadTask.scansProject (projectId : ProjectId) : ReadTask → Bool
  | .scanDrawings taskProject _ _ => taskProject = projectId
  | _ => false

/-- `record.lease_expires_at is not None and now >= record.lease_expires_at` -/
def OperationRecord.leaseEnded (r : OperationRecord) (now : Int) : Bool :=
  match r.leaseExpiresAt with
  | some l => decide (l ≤ now)
  | none => false

/-- The queue order: `(created_at, operation_id)`. -/
def OperationRecord.before (a b : OperationRecord) : Bool :=
  decide (a.createdAt < b.createdAt) ||
    (decide (a.createdAt = b.createdAt) && decide (a.operationId < b.operationId))

namespace InMemory

/-- `_updated`, on the record with its updates already made. -/
def updated (r : OperationRecord) : Except String OperationRecord := do
  r.validateStateShape
  pure r

def expire (record : OperationRecord) (now : Int) : Except String OperationRecord :=
  updated { record with
    state := .expired
    leaseExpiresAt := none
    completedAt := some now
    errorCode := some .operationExpired }

def attentionRequired (record : OperationRecord) (now : Int) :
    Except String OperationRecord :=
  updated { record with
    state := .attentionRequired
    leaseExpiresAt := none
    completedAt := some now
    errorCode := some .leaseExpired }

/-- `_refresh_due`, with whether a new record was built (`refreshed is not record`). -/
def refreshDue (record : OperationRecord) (now : Int) :
    Except String (OperationRecord × Bool) :=
  if record.state = .created ∧ record.expiresAt ≤ now then
    (·, true) <$> expire record now
  else if record.state = .leased ∧ record.leaseEnded now then
    (·, true) <$> attentionRequired record now
  else if record.state = .running ∧ record.expiresAt ≤ now then
    if record.task.isUnknownWrite then
      (·, true) <$> updated { record with
        state := .attentionRequired
        completedAt := some now
        errorCode := some .translationAttentionRequired }
    else (·, true) <$> expire record now
  else .ok (record, false)

/-- The body of `start_operation` for a record that the worker owns. -/
def startOwned (record : OperationRecord) (now : Int) :
    Except String (TransitionStatus × OperationRecord) :=
  if record.state = .leased ∧ record.leaseEnded now then
    (TransitionStatus.leaseExpired, ·) <$> attentionRequired record now
  else if record.state ≠ .leased then .ok (.invalidState, record)
  else
    (TransitionStatus.updated, ·) <$> updated { record with
      state := .running
      leaseExpiresAt := none
      startedAt := some now }

/-- The body of `finish_operation` for a record that the worker owns. A record that the
refresh has just built is terminal, so nothing is stored before the last update can raise. -/
def finishOwned (record : OperationRecord) (now : Int) (state : OperationState)
    (result : Option TaskResult) (errorCode : Option SafeCode) :
    Except String (TransitionStatus × OperationRecord) := do
  let (refreshed, fresh) ← refreshDue record now
  if fresh ∧ refreshed.state = .expired then pure (.operationExpired, refreshed)
  else if refreshed.state ≠ .running then pure (.invalidState, refreshed)
  else
    (TransitionStatus.updated, ·) <$> updated { refreshed with
      state := state
      completedAt := some now
      result := result
      errorCode := errorCode }

/-- `min(eligible, key=lambda record: (record.created_at, record.operation_id))` -/
def earliest : List OperationRecord → Option OperationRecord
  | [] => none
  | r :: rs => some (rs.foldl (fun best x => if x.before best then x else best) r)

theorem earliest_mem {rs : List OperationRecord} {r : OperationRecord}
    (h : earliest rs = some r) : r ∈ rs := by
  cases rs with
  | nil => simp [earliest] at h
  | cons x xs =>
    have hfold : ∀ (ys : List OperationRecord) (best : OperationRecord),
        ys.foldl (fun best x => if x.before best then x else best) best ∈ best :: ys := by
      intro ys
      induction ys with
      | nil => simp
      | cons y ys ih =>
        intro best
        have hmem := ih (if y.before best then y else best)
        rw [List.foldl_cons]
        split at hmem <;> grind
    have heq : xs.foldl (fun best x => if x.before best then x else best) x = r := by
      simpa [earliest] using h
    exact heq ▸ hfold xs x

/-- What `lease_next_operation` has gathered while it walks a snapshot of the dictionary. -/
structure LeaseScan where
  operations : Dict OperationId OperationRecord
  eligible : List OperationRecord
  active : Bool

def leaseScan (tenantId : TenantId) (workstationId : WorkstationId)
    (ownerSubjectId : SubjectId) (now : Int) :
    List (OperationId × OperationRecord) → LeaseScan → Except String Unit × LeaseScan
  | [], scan => (.ok (), scan)
  | (operationId, record) :: rest, scan =>
    if record.tenantId ≠ tenantId ∨ record.workstationId ≠ workstationId then
      leaseScan tenantId workstationId ownerSubjectId now rest scan
    else
      match refreshDue record now with
      | .error code => (.error code, scan)
      | .ok (refreshed, _) =>
        leaseScan tenantId workstationId ownerSubjectId now rest
          { operations := scan.operations.set operationId refreshed
            eligible :=
              if refreshed.ownerSubjectId = ownerSubjectId ∧ refreshed.state = .created then
                scan.eligible ++ [refreshed]
              else scan.eligible
            active := scan.active || refreshed.state.isActive }

/-- Every project row must stay with its owner and workstation. -/
def projectOwnerMatches (operation : OperationRecord)
    (workstations : Dict WorkstationId WorkstationRecord)
    (projects : Dict ProjectId ProjectRecord) (project : ProjectRecord) : Bool :=
  (match workstations.get project.workstationId with
    | none => false
    | some workstation =>
      workstation.tenantId = project.tenantId ∧
        workstation.ownerSubjectId = project.ownerSubjectId) &&
  decide (project.tenantId = operation.tenantId ∧
    project.ownerSubjectId = operation.ownerSubjectId ∧
    project.workstationId = operation.workstationId) &&
  (match projects.get project.projectId with
    | none => true
    | some existing =>
      existing.tenantId = project.tenantId ∧ existing.ownerSubjectId = project.ownerSubjectId ∧
        existing.workstationId = project.workstationId)

def drawingOwnerMatches (operation : OperationRecord)
    (projectView : Dict ProjectId ProjectRecord)
    (drawings : Dict DrawingId DrawingRecord) (drawing : DrawingRecord) : Bool :=
  (match projectView.get drawing.projectId with
    | none => false
    | some project =>
      project.enabled ∧ project.tenantId = drawing.tenantId ∧
        project.ownerSubjectId = drawing.ownerSubjectId ∧
        project.workstationId = drawing.workstationId) &&
  decide (drawing.tenantId = operation.tenantId ∧
    drawing.ownerSubjectId = operation.ownerSubjectId ∧
    drawing.workstationId = operation.workstationId) &&
  (match drawings.get drawing.drawingId with
    | none => true
    | some existing =>
      existing.tenantId = drawing.tenantId ∧ existing.ownerSubjectId = drawing.ownerSubjectId ∧
        existing.workstationId = drawing.workstationId ∧
        existing.projectId = drawing.projectId)

/-- `self._projects[project.project_id] = project` for every project, in order. -/
def storeProjects (projects : Dict ProjectId ProjectRecord) (items : List ProjectRecord) :
    Dict ProjectId ProjectRecord :=
  items.foldl (fun d project => d.set project.projectId project) projects

def storeDrawings (drawings : Dict DrawingId DrawingRecord) (items : List DrawingRecord) :
    Dict DrawingId DrawingRecord :=
  items.foldl (fun d drawing => d.set drawing.drawingId drawing) drawings

end InMemory

structure InMemoryGatewayRepository where
  workstations : Dict WorkstationId WorkstationRecord
  projects : Dict ProjectId ProjectRecord
  drawings : Dict DrawingId DrawingRecord
  operations : Dict OperationId OperationRecord
  idempotency : Dict (TenantId × SubjectId × ClientId × IdempotencyKey) OperationId

def OperationRecord.idempotencyIndex (r : OperationRecord) :
    TenantId × SubjectId × ClientId × IdempotencyKey :=
  (r.tenantId, r.ownerSubjectId, r.clientId, r.idempotencyKey)

def workerOwns (record : OperationRecord) (tenantId : TenantId)
    (workstationId : WorkstationId) : Bool :=
  decide (record.tenantId = tenantId ∧ record.workstationId = workstationId)

namespace InMemoryGatewayRepository

open InMemory

/-- A call returns or raises, and leaves a repository in both cases. -/
abbrev Call (α : Type) := Except RaisedError α × InMemoryGatewayRepository

def store (repo : InMemoryGatewayRepository) (operationId : OperationId)
    (record : OperationRecord) : InMemoryGatewayRepository :=
  { repo with operations := repo.operations.set operationId record }

def createOrGetOperation (operation : OperationRecord) (repo : InMemoryGatewayRepository) :
    Call CreateOutcome :=
  match repo.idempotency.get operation.idempotencyIndex with
  | some existingId =>
    match repo.operations.get existingId with
    | none => (.error .missingKey, repo)
    | some existing =>
      if existing.requestFingerprint = operation.requestFingerprint then
        (.ok ⟨.existing, existing⟩, repo)
      else (.ok ⟨.conflict, existing⟩, repo)
  | none =>
    (.ok ⟨.created, operation⟩,
      { repo.store operation.operationId operation with
        idempotency := repo.idempotency.set operation.idempotencyIndex operation.operationId })

def refreshOperation (operationId : OperationId) (now : Int)
    (repo : InMemoryGatewayRepository) : Call (Option OperationRecord) :=
  match repo.operations.get operationId with
  | none => (.ok none, repo)
  | some record =>
    match refreshDue record now with
    | .error code => (.error (.validation code), repo)
    | .ok (refreshed, _) => (.ok (some refreshed), repo.store operationId refreshed)

def leaseNextOperation (tenantId : TenantId) (workstationId : WorkstationId)
    (ownerSubjectId : SubjectId) (now leaseExpiresAt : Int)
    (repo : InMemoryGatewayRepository) : Call (Option OperationRecord) :=
  match leaseScan tenantId workstationId ownerSubjectId now repo.operations.entries
      ⟨repo.operations, [], false⟩ with
  | (.error code, scan) => (.error (.validation code), { repo with operations := scan.operations })
  | (.ok (), scan) =>
    let repo := { repo with operations := scan.operations }
    if scan.active then (.ok none, repo)
    else
      match earliest scan.eligible with
      | none => (.ok none, repo)
      | some selected =>
        let effectiveLeaseExpiry := min leaseExpiresAt selected.expiresAt
        if effectiveLeaseExpiry ≤ now then
          match expire selected now with
          | .error code => (.error (.validation code), repo)
          | .ok expired => (.ok none, repo.store selected.operationId expired)
        else
          match updated { selected with
              state := .leased
              leaseExpiresAt := some effectiveLeaseExpiry } with
          | .error code => (.error (.validation code), repo)
          | .ok leased => (.ok (some leased), repo.store selected.operationId leased)

/-- The shape that `start_operation` and `finish_operation` share: find the record, check that
the worker owns it, and store what the transition made of it. -/
def transitionOwned (operationId : OperationId) (tenantId : TenantId)
    (workstationId : WorkstationId)
    (transition : OperationRecord → Except String (TransitionStatus × OperationRecord))
    (repo : InMemoryGatewayRepository) : Call TransitionOutcome :=
  match repo.operations.get operationId with
  | none => (.ok ⟨.notFound, none⟩, repo)
  | some record =>
    if ¬ workerOwns record tenantId workstationId then (.ok ⟨.notFound, none⟩, repo)
    else
      match transition record with
      | .error code => (.error (.validation code), repo)
      | .ok (status, next) => (.ok ⟨status, some next⟩, repo.store operationId next)

def startOperation (operationId : OperationId) (tenantId : TenantId)
    (workstationId : WorkstationId) (now : Int) (repo : InMemoryGatewayRepository) :
    Call TransitionOutcome :=
  repo.transitionOwned operationId tenantId workstationId (startOwned · now)

def finishOperation (operationId : OperationId) (tenantId : TenantId)
    (workstationId : WorkstationId) (now : Int) (state : OperationState)
    (result : Option TaskResult) (errorCode : Option SafeCode)
    (repo : InMemoryGatewayRepository) : Call TransitionOutcome :=
  if state = .succeeded ∨ state = .failed ∨ state = .attentionRequired then
    repo.transitionOwned operationId tenantId workstationId
      (finishOwned · now state result errorCode)
  else (.error (.value "invalid_terminal_state"), repo)

/-- `_validate_worker_catalog_application` -/
def validateWorkerCatalogApplication (operation : OperationRecord) (result : TaskResult)
    (projects : List ProjectRecord) (drawings : List DrawingRecord)
    (repo : InMemoryGatewayRepository) : Except String Unit := do
  require (result.command = operation.task.command) "result_task_mismatch"
  match result with
  | .listProjects projectIds =>
    let enabledIds := (projects.filter (·.enabled)).map (·.projectId)
    require (operation.task = .listProjects operation.workstationId ∧ drawings = [] ∧
      (projects.map (·.projectId)).Nodup ∧ enabledIds = projectIds.items)
      "invalid_catalog_payload"
  | .scanDrawings projectId drawingIds _ =>
    require (operation.task.scansProject projectId ∧ projects = [] ∧
      (drawings.map (·.drawingId)).Nodup ∧ drawings.map (·.drawingId) = drawingIds.items ∧
      ∀ drawing ∈ drawings, drawing.projectId = projectId) "invalid_catalog_payload"
  | _ => require (projects = [] ∧ drawings = []) "invalid_catalog_payload"
  require (∀ project ∈ projects,
    projectOwnerMatches operation repo.workstations repo.projects project)
    "project_owner_mismatch"
  require (∀ drawing ∈ drawings, drawingOwnerMatches operation
    (storeProjects repo.projects projects) repo.drawings drawing) "drawing_owner_mismatch"

def applyWorkerSuccess (operationId : OperationId) (tenantId : TenantId)
    (workstationId : WorkstationId) (now : Int) (result : TaskResult)
    (projects : List ProjectRecord) (drawings : List DrawingRecord)
    (repo : InMemoryGatewayRepository) : Call TransitionOutcome :=
  match repo.operations.get operationId with
  | none => (.ok ⟨.notFound, none⟩, repo)
  | some record =>
    if ¬ workerOwns record tenantId workstationId then (.ok ⟨.notFound, none⟩, repo)
    else
      match refreshDue record now with
      | .error code => (.error (.validation code), repo)
      | .ok (record, fresh) =>
        let repo := if fresh then repo.store operationId record else repo
        if fresh ∧ record.state = .expired then (.ok ⟨.operationExpired, some record⟩, repo)
        else if record.state = .succeeded then
          if record.result = some result then (.ok ⟨.updated, some record⟩, repo)
          else (.ok ⟨.invalidState, some record⟩, repo)
        else if record.state ≠ .running then (.ok ⟨.invalidState, some record⟩, repo)
        else
          match repo.validateWorkerCatalogApplication record result projects drawings with
          | .error code => (.error (.value code), repo)
          | .ok () =>
            let repo := { repo with
              projects := storeProjects repo.projects projects
              drawings := storeDrawings repo.drawings drawings }
            match updated { record with
                state := .succeeded
                completedAt := some now
                result := some result
                errorCode := none } with
            | .error code => (.error (.validation code), repo)
            | .ok completed =>
              (.ok ⟨.updated, some completed⟩, repo.store operationId completed)

end InMemoryGatewayRepository

end CadPlot.Gateway
