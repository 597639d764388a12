import CadPlot.Gateway.Memory
import CadPlot.Gateway.WorkerResult

/-!
# The gateway service checks

What `GatewayService` requires of a worker's result or failure before it
reaches a repository. The catalog is read through lookups, so the checks are
the same over either repository.
-/

namespace CadPlot.Gateway.Service

structure Catalog where
  workstation : WorkstationId → Option WorkstationRecord
  project : ProjectId → Option ProjectRecord
  drawing : DrawingId → Option DrawingRecord

def safeWorkerErrorCodes : List String :=
  ["autocad_unavailable", "drawing_changed", "drawing_not_found", "inspection_failed",
    "operation_timeout", "plan_blocked", "unsupported_runtime", "worker_disconnected",
    "worker_failure", "translation_disabled", "translation_attention_required"]

/-- `_sanitize_worker_error`, for a code that already has the shape of one. -/
def sanitizeWorkerError (code : SafeCode) : SafeCode :=
  if code.value ∈ safeWorkerErrorCodes then code else .workerFailure

/-- The terminal state and error code that `worker_fail` asks for. -/
def failureTarget (operation : OperationRecord) (errorCode : SafeCode)
    (attentionRequired : Bool) : OperationState × SafeCode :=
  if attentionRequired then
    (.attentionRequired,
      if operation.task.isTranslation then .translationAttentionRequired
      else .workerFailure)
  else (.failed, sanitizeWorkerError errorCode)

def projectBound (operation : OperationRecord) (catalog : Catalog) (projectId : ProjectId) :
    Bool :=
  match catalog.project projectId with
  | none => false
  | some project =>
    project.enabled ∧ project.tenantId = operation.tenantId ∧
      project.ownerSubjectId = operation.ownerSubjectId ∧
      project.workstationId = operation.workstationId

def drawingBound (operation : OperationRecord) (catalog : Catalog) (projectId : ProjectId)
    (drawingId : DrawingId) : Bool :=
  match catalog.drawing drawingId with
  | none => false
  | some drawing =>
    drawing.enabled ∧ drawing.tenantId = operation.tenantId ∧
      drawing.ownerSubjectId = operation.ownerSubjectId ∧
      drawing.workstationId = operation.workstationId ∧ drawing.projectId = projectId

/-- `_validate_result_binding` -/
def validateResultBinding (catalog : Catalog) (operation : OperationRecord)
    (result : TaskResult) : Except String Unit := do
  require (result.command = operation.task.command) "invalid_result"
  match result, operation.task with
  | .listProjects projectIds, _ =>
    require (∀ projectId ∈ projectIds.items, projectBound operation catalog projectId)
      "invalid_result"
  | .scanDrawings projectId drawingIds _, .scanDrawings taskProject .. => do
    require (projectId = taskProject) "invalid_result"
    require (∀ drawingId ∈ drawingIds.items,
      drawingBound operation catalog taskProject drawingId) "invalid_result"
  | .inspectDrawing drawingId .., .inspectDrawing taskDrawing =>
    require (drawingId = taskDrawing) "invalid_result"
  | .createPublishPlan drawingId .., .createPublishPlan taskDrawing =>
    require (drawingId = taskDrawing) "invalid_result"
  | .translation drawingId response, .translation taskDrawing request => do
    require (drawingId = taskDrawing) "invalid_result"
    match requireMatchingResult request response with
    | .ok () => .ok ()
    | .error _ => .error "invalid_result"
  | .validateEnvironment .., _ => .ok ()
  | _, _ => .error "invalid_result"

/-- `_validate_preapplication_result_binding`: the rows of a listing or a scan are not yet in the
catalog, so only the task is compared. -/
def validatePreapplicationResultBinding (catalog : Catalog) (operation : OperationRecord)
    (result : TaskResult) : Except String Unit := do
  require (result.command = operation.task.command) "invalid_result"
  match result with
  | .listProjects _ =>
    require (operation.task = .listProjects operation.workstationId) "invalid_result"
  | .scanDrawings projectId .. =>
    require (operation.task.scansProject projectId) "invalid_result"
  | _ => validateResultBinding catalog operation result

/-- `_require_worker_workstation` without the demand that it is online. -/
def requireWorkerWorkstation (worker : WorkerContext) (catalog : Catalog) :
    Except String WorkstationRecord :=
  match catalog.workstation worker.workstationId with
  | none => .error "not_found"
  | some record =>
    if record.enabled ∧ record.tenantId = worker.tenantId then .ok record else .error "not_found"

def requireWorkerOperation (worker : WorkerContext) (operation : Option OperationRecord) :
    Except String OperationRecord :=
  match operation with
  | none => .error "not_found"
  | some record =>
    if record.tenantId = worker.tenantId ∧ record.workstationId = worker.workstationId then
      .ok record
    else .error "not_found"

def workerResultNeedsApplication (worker : WorkerContext) (catalog : Catalog)
    (operation : Option OperationRecord) (result : TaskResult) : Except String Bool := do
  let _ ← requireWorkerWorkstation worker catalog
  let operation ← requireWorkerOperation worker operation
  if operation.state = .succeeded then
    if operation.result = some result then pure false else .error "invalid_state"
  else if operation.state ≠ .running then .error "invalid_state"
  else do
    validatePreapplicationResultBinding catalog operation result
    pure true

def workerFailureNeedsApplication (worker : WorkerContext) (catalog : Catalog)
    (operation : Option OperationRecord) (errorCode : SafeCode) (attentionRequired : Bool) :
    Except String Bool := do
  let _ ← requireWorkerWorkstation worker catalog
  let operation ← requireWorkerOperation worker operation
  let (target, safeError) := failureTarget operation errorCode attentionRequired
  if operation.state = target then
    if operation.errorCode = some safeError then pure false else .error "invalid_state"
  else if operation.state ≠ .running then .error "invalid_state"
  else pure true

/-- `_validate_worker_application` -/
def validateWorkerApplication (catalog : Catalog) (operation : OperationRecord)
    (result : TaskResult) (projects : List ProjectRecord) (drawings : List DrawingRecord) :
    Except String Unit := do
  require ((∀ p ∈ projects, p.tenantId = operation.tenantId ∧
    p.ownerSubjectId = operation.ownerSubjectId ∧ p.workstationId = operation.workstationId) ∧
    ∀ d ∈ drawings, d.tenantId = operation.tenantId ∧
      d.ownerSubjectId = operation.ownerSubjectId ∧ d.workstationId = operation.workstationId)
    "invalid_result"
  match result with
  | .listProjects projectIds =>
    let enabledIds := (projects.filter (·.enabled)).map (·.projectId)
    require (operation.task = .listProjects operation.workstationId ∧ drawings = [] ∧
      (projects.map (·.projectId)).Nodup ∧ enabledIds = projectIds.items) "invalid_result"
  | .scanDrawings projectId drawingIds _ =>
    require (operation.task.scansProject projectId ∧ projects = [] ∧
      (drawings.map (·.drawingId)).Nodup ∧ drawings.map (·.drawingId) = drawingIds.items ∧
      ∀ d ∈ drawings, d.projectId = projectId) "invalid_result"
  | _ => do
    require (projects = [] ∧ drawings = []) "invalid_result"
    validateResultBinding catalog operation result

/-- What a worker's success or failure asks of the repository. -/
inductive RepositoryCall where
  | applyWorkerSuccess (result : TaskResult) (projects : List ProjectRecord)
      (drawings : List DrawingRecord)
  | finishOperation (state : OperationState) (errorCode : SafeCode)
  deriving DecidableEq

/-- `worker_apply_success`, up to its call of the repository. -/
def workerApplySuccess (worker : WorkerContext) (catalog : Catalog)
    (operation : Option OperationRecord) (result : TaskResult) (projects : List ProjectRecord)
    (drawings : List DrawingRecord) : Except String RepositoryCall := do
  let workstation ← requireWorkerWorkstation worker catalog
  let operation ← requireWorkerOperation worker operation
  if workstation.ownerSubjectId ≠ operation.ownerSubjectId then .error "not_found"
  else do
    validateWorkerApplication catalog operation result projects drawings
    pure (.applyWorkerSuccess result projects drawings)

/-- `worker_fail`, up to its call of the repository, which an exact repetition does without. -/
def workerFail (worker : WorkerContext) (catalog : Catalog) (operation : Option OperationRecord)
    (errorCode : SafeCode) (attentionRequired : Bool) : Except String (Option RepositoryCall) := do
  let _ ← requireWorkerWorkstation worker catalog
  let operation ← requireWorkerOperation worker operation
  let (target, safeError) := failureTarget operation errorCode attentionRequired
  if operation.state = target then
    if operation.errorCode = some safeError then pure none else .error "invalid_state"
  else pure (some (.finishOperation target safeError))

/-- `_transition_view`, of which only success is looked at. -/
def transitionView (outcome : TransitionOutcome) : Except String Unit :=
  match outcome.status with
  | .notFound => .error "not_found"
  | .leaseExpired => .error "lease_expired"
  | .operationExpired => .error "operation_expired"
  | .invalidState => .error "invalid_state"
  | .updated => if outcome.operation = none then .error "invalid_state" else .ok ()

/-- What a call of the service raises: an error of its own, or one that it lets through. -/
inductive ServiceError where
  | gateway (code : String)
  | raised (error : RaisedError)
  deriving DecidableEq

/-- `worker_apply_success`, from the answer of the repository on. -/
def appliedSuccess : Except RaisedError TransitionOutcome → Except ServiceError Unit
  | .ok outcome =>
    match transitionView outcome with
    | .ok () => .ok ()
    | .error code => .error (.gateway code)
  | .error (.repository code) =>
    if code = "catalog_conflict" ∨ code = "invalid_record" ∨ code = "invalid_terminal_payload" then
      .error (.gateway "invalid_result")
    else if code = "invalid_terminal_state" then .error (.gateway "invalid_state")
    else .error (.gateway "catalog_sync_failed")
  | .error (.validation _) | .error (.value _) => .error (.gateway "invalid_result")
  | .error .missingKey => .error (.raised .missingKey)

/-- `worker_fail`, from the answer of the repository on. -/
def finishedFailure : Except RaisedError TransitionOutcome → Except ServiceError Unit
  | .ok outcome =>
    match transitionView outcome with
    | .ok () => .ok ()
    | .error code => .error (.gateway code)
  | .error error => .error (.raised error)

end CadPlot.Gateway.Service
