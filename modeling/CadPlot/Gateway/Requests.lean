import CadPlot.Gateway.Service
import CadPlot.Lib.Json
import CadPlot.Lib.Text

/-!
# The requests of a principal

The half of `GatewayService` that serves a user: listings, one operation, and
the requests that queue an operation, over the in-memory repository. A call
reads the clock twice at most. The operation identifier it would give to a new
operation is an argument.
-/

namespace CadPlot.Gateway

inductive Scope where
  | translate | read | stage | publish | cancel
  deriving DecidableEq, Repr

structure PrincipalContext where
  tenantId : TenantId
  subjectId : SubjectId
  clientId : ClientId
  scopes : List Scope
  deriving DecidableEq

def TaskCommand.value : TaskCommand → String
  | .translation => "translation"
  | .validateEnvironment => "validate_environment"
  | .listProjects => "list_projects"
  | .scanDrawings => "scan_drawings"
  | .inspectDrawing => "inspect_drawing"
  | .createPublishPlan => "create_publish_plan"

def SourceLanguage.value : SourceLanguage → String
  | .tr => "tr"
  | .en => "en"
  | .other => "other"
  | .uncertain => "uncertain"

def RemoteDecision.toJson (decision : RemoteDecision) : Json :=
  .obj [("span_id", .str decision.spanId), ("source", .str decision.source),
    ("source_language", .str decision.sourceLanguage.value), ("target", .str decision.target)]

def TranslationRequest.toJson : TranslationRequest → Json
  | .scan inventoryId offset limit =>
    .obj [("operation", .str "scan"), ("inventory_id", .optional inventoryId),
      ("offset", .int offset), ("limit", .int limit)]
  | .review inventoryId expectedReviewId decisions =>
    .obj [("operation", .str "review"), ("inventory_id", .str inventoryId),
      ("expected_review_id", .optional expectedReviewId),
      ("decisions", .arr (decisions.map RemoteDecision.toJson))]
  | .plan inventoryId reviewId offset limit =>
    .obj [("operation", .str "plan"), ("inventory_id", .str inventoryId),
      ("review_id", .str reviewId), ("offset", .int offset), ("limit", .int limit)]
  | .apply inventoryId reviewId approvedPlanId planOperationId =>
    .obj [("operation", .str "apply"), ("inventory_id", .str inventoryId),
      ("review_id", .str reviewId), ("approved_plan_id", .str approvedPlanId),
      ("plan_operation_id", .str planOperationId)]

def ReadTask.toJson (task : ReadTask) : Json :=
  .obj (("command", .str task.command.value) :: match task with
    | .validateEnvironment workstationId => [("workstation_id", .str workstationId)]
    | .listProjects workstationId => [("workstation_id", .str workstationId)]
    | .scanDrawings projectId recursive limit =>
      [("project_id", .str projectId), ("recursive", .bool recursive), ("limit", .int limit)]
    | .inspectDrawing drawingId => [("drawing_id", .str drawingId)]
    | .createPublishPlan drawingId => [("drawing_id", .str drawingId)]
    | .translation drawingId request =>
      [("drawing_id", .str drawingId), ("request", request.toJson)])

structure WorkstationView where
  workstationId : WorkstationId
  displayName : String
  online : Bool
  deriving DecidableEq

structure ProjectView where
  projectId : ProjectId
  workstationId : WorkstationId
  displayName : String
  deriving DecidableEq

structure OperationView where
  operationId : OperationId
  workstationId : WorkstationId
  task : ReadTask
  state : OperationState
  createdAt : Int
  expiresAt : Int
  leaseExpiresAt : Option Int
  startedAt : Option Int
  completedAt : Option Int
  result : Option TaskResult
  errorCode : Option SafeCode
  deriving DecidableEq

/-- `from_record` -/
def OperationRecord.view (r : OperationRecord) : OperationView :=
  ⟨r.operationId, r.workstationId, r.task, r.state, r.createdAt, r.expiresAt, r.leaseExpiresAt,
    r.startedAt, r.completedAt, r.result, r.errorCode⟩

inductive Response where
  | workstations (items : List WorkstationView)
  | projects (items : List ProjectView)
  | operation (view : OperationView)
  deriving DecidableEq

inductive Request where
  | listWorkstations
  | listProjects (workstationId : Option WorkstationId)
  | enqueueValidateEnvironment (idempotencyKey : IdempotencyKey) (workstationId : WorkstationId)
  | enqueueListProjects (idempotencyKey : IdempotencyKey) (workstationId : WorkstationId)
  | enqueueScanDrawings (idempotencyKey : IdempotencyKey) (projectId : ProjectId)
      (recursive : Bool) (limit : Nat)
  | enqueueInspectDrawing (idempotencyKey : IdempotencyKey) (drawingId : DrawingId)
  | enqueueCreatePublishPlan (idempotencyKey : IdempotencyKey) (drawingId : DrawingId)
  | enqueueTranslation (idempotencyKey : IdempotencyKey) (drawingId : DrawingId)
      (request : TranslationRequest)
  | getOperation (operationId : OperationId)
  deriving DecidableEq

/-- The service's settings, its two readings of the clock, and the identifier it would give. -/
structure ServiceContext where
  operationTtl : Int
  sha256 : List UInt8 → List UInt8
  approvalNow : Int
  now : Int
  newOperationId : OperationId

namespace Requests

open Service InMemoryGatewayRepository

def catalog (repo : InMemoryGatewayRepository) : Catalog :=
  ⟨repo.workstations.get, repo.projects.get, repo.drawings.get⟩

def refuse {α : Type} (code : String) : Except ServiceError α := .error (.gateway code)

def requireScope (principal : PrincipalContext) (scope : Scope) : Except ServiceError Unit :=
  if scope ∈ principal.scopes then .ok () else refuse "forbidden"

/-- A catalog row that the principal may use. -/
def usable (principal : PrincipalContext) (enabled : Bool) (tenantId : TenantId)
    (ownerSubjectId : SubjectId) : Bool :=
  enabled && decide (tenantId = principal.tenantId ∧ ownerSubjectId = principal.subjectId)

def requireWorkstation (principal : PrincipalContext) (c : Catalog)
    (workstationId : WorkstationId) (onlineRequired : Bool) :
    Except ServiceError WorkstationRecord :=
  match c.workstation workstationId with
  | none => refuse "not_found"
  | some record =>
    if ¬usable principal record.enabled record.tenantId record.ownerSubjectId then
      refuse "not_found"
    else if onlineRequired ∧ ¬record.online then refuse "workstation_offline"
    else .ok record

def requireProject (principal : PrincipalContext) (c : Catalog) (projectId : ProjectId)
    (onlineRequired : Bool) : Except ServiceError (ProjectRecord × WorkstationRecord) :=
  match c.project projectId with
  | none => refuse "not_found"
  | some record =>
    if ¬usable principal record.enabled record.tenantId record.ownerSubjectId then
      refuse "not_found"
    else do
      let workstation ← requireWorkstation principal c record.workstationId onlineRequired
      pure (record, workstation)

def requireDrawing (principal : PrincipalContext) (c : Catalog) (drawingId : DrawingId)
    (onlineRequired : Bool) : Except ServiceError (DrawingRecord × WorkstationRecord) :=
  match c.drawing drawingId with
  | none => refuse "not_found"
  | some drawing =>
    if ¬usable principal drawing.enabled drawing.tenantId drawing.ownerSubjectId then
      refuse "not_found"
    else do
      let (project, workstation) ←
        requireProject principal c drawing.projectId onlineRequired
      if drawing.workstationId ≠ project.workstationId then refuse "not_found"
      else pure (drawing, workstation)

def ownsOperation (principal : PrincipalContext) (record : OperationRecord) : Bool :=
  decide (record.tenantId = principal.tenantId ∧ record.ownerSubjectId = principal.subjectId ∧
    record.clientId = principal.clientId)

def requireOperationOwner (principal : PrincipalContext) (record : Option OperationRecord) :
    Except ServiceError OperationRecord :=
  match record with
  | none => refuse "not_found"
  | some record => if ownsOperation principal record then .ok record else refuse "not_found"

/-- The text whose digest is the request fingerprint. -/
def canonicalRequest (workstation : WorkstationRecord) (task : ReadTask) : List Char :=
  (Json.obj [("workstation_id", .str workstation.workstationId),
    ("task", task.toJson)]).sortKeys.render Json.compactAsciiStyle

/-- The operation that `_enqueue` asks the repository for. -/
def requestedOperation (ctx : ServiceContext) (principal : PrincipalContext)
    (workstation : WorkstationRecord) (idempotencyKey : IdempotencyKey) (task : ReadTask) :
    OperationRecord where
  operationId := ctx.newOperationId
  tenantId := principal.tenantId
  ownerSubjectId := principal.subjectId
  clientId := principal.clientId
  workstationId := workstation.workstationId
  idempotencyKey := idempotencyKey
  requestFingerprint :=
    String.ofList (Text.hex (ctx.sha256 (Text.utf8 (canonicalRequest workstation task))))
  task := task
  state := .created
  createdAt := ctx.now
  expiresAt := ctx.now + ctx.operationTtl
  leaseExpiresAt := none
  startedAt := none
  completedAt := none
  result := none
  errorCode := none

/-- `_enqueue`, after the answer of the repository. -/
def enqueued : Except RaisedError CreateOutcome → Except ServiceError Response
  | .ok outcome =>
    if outcome.status = .conflict then refuse "idempotency_conflict"
    else .ok (.operation outcome.operation.view)
  | .error (.repository code) =>
    refuse (if code = "active_operation_limit" then code else "repository_unavailable")
  | .error error => .error (.raised error)

/-- `_enqueue` -/
def enqueue (ctx : ServiceContext) (principal : PrincipalContext)
    (workstation : WorkstationRecord) (idempotencyKey : IdempotencyKey) (task : ReadTask)
    (repo : InMemoryGatewayRepository) :
    Except ServiceError Response × InMemoryGatewayRepository :=
  match InMemory.updated (requestedOperation ctx principal workstation idempotencyKey task) with
  | .error code => (.error (.raised (.validation code)), repo)
  | .ok operation =>
    let (answer, repo) := repo.createOrGetOperation operation
    (enqueued answer, repo)

/-- The identifier of a version 4 UUID made of sixteen bytes. -/
def uuid4Text (bytes : List UInt8) : List Char :=
  let digits := Text.hex (bytes.mapIdx fun i b =>
    if i = 6 then (b &&& 0x0F) ||| 0x40 else if i = 8 then (b &&& 0x3F) ||| 0x80 else b)
  digits.take 8 ++ '-' :: (digits.drop 8).take 4 ++ '-' :: (digits.drop 12).take 4 ++
    '-' :: (digits.drop 16).take 4 ++ '-' :: digits.drop 20

/-- The idempotency key that an approved plan gives to its application. -/
def approvalKey (ctx : ServiceContext) (drawingId : DrawingId) (approvedPlanId : HashId) :
    IdempotencyKey :=
  let material := Text.utf8 (drawingId.toList ++ ':' :: approvedPlanId.toList)
  String.ofList ("idem_".toList ++ uuid4Text ((ctx.sha256 material).take 16))

/-- The plan operation that an application relies on. -/
def approves (ctx : ServiceContext) (drawing : DrawingRecord) (workstation : WorkstationRecord)
    (inventoryId reviewId approvedPlanId : HashId) (record : OperationRecord) : Bool :=
  decide (record.state = .succeeded ∧ ctx.approvalNow < record.expiresAt ∧
    record.workstationId = workstation.workstationId) &&
  match record.result with
  | some (.translation drawingId (.plan planInventory planReview planId ready changed ..)) =>
    decide (drawingId = drawing.drawingId ∧ ready = true ∧ changed ≠ 0 ∧
      planId = approvedPlanId ∧ planInventory = inventoryId ∧ planReview = reviewId)
  | _ => false

def maxTranslationBatchBytes : Nat := 200 * 1024

/-- `request.model_dump_json()` of a translation request. -/
def translationBatch (idempotencyKey : IdempotencyKey) (drawingId : DrawingId)
    (request : TranslationRequest) : List Char :=
  (Json.obj [("idempotency_key", .str idempotencyKey), ("drawing_id", .str drawingId),
    ("request", request.toJson)]).render Json.modelStyle

/-- The key under which a translation is queued, once an application has its approval. -/
def translationKey (ctx : ServiceContext) (principal : PrincipalContext)
    (idempotencyKey : IdempotencyKey) (drawing : DrawingRecord) (workstation : WorkstationRecord)
    (request : TranslationRequest) (repo : InMemoryGatewayRepository) :
    Except ServiceError IdempotencyKey :=
  match request with
  | .apply inventoryId reviewId approvedPlanId planOperationId => do
    let record ← requireOperationOwner principal (repo.operations.get planOperationId)
    if approves ctx drawing workstation inventoryId reviewId approvedPlanId record then
      pure (approvalKey ctx drawing.drawingId approvedPlanId)
    else refuse "translation_approval_invalid"
  | _ => pure idempotencyKey

/-- Where a request that queues something puts it, under which key, and what. -/
structure Placement where
  workstation : WorkstationRecord
  idempotencyKey : IdempotencyKey
  task : ReadTask

/-- The checks of the `enqueue_*` functions, up to `_enqueue`. -/
def place (ctx : ServiceContext) (principal : PrincipalContext)
    (repo : InMemoryGatewayRepository) : Request → Option (Except ServiceError Placement)
  | .enqueueValidateEnvironment key workstationId => some do
    requireScope principal .read
    let workstation ← requireWorkstation principal (catalog repo) workstationId true
    pure ⟨workstation, key, .validateEnvironment workstation.workstationId⟩
  | .enqueueListProjects key workstationId => some do
    requireScope principal .read
    let workstation ← requireWorkstation principal (catalog repo) workstationId true
    pure ⟨workstation, key, .listProjects workstation.workstationId⟩
  | .enqueueScanDrawings key projectId recursive limit => some do
    requireScope principal .read
    let (project, workstation) ← requireProject principal (catalog repo) projectId true
    pure ⟨workstation, key, .scanDrawings project.projectId recursive limit⟩
  | .enqueueInspectDrawing key drawingId => some do
    requireScope principal .read
    let (drawing, workstation) ← requireDrawing principal (catalog repo) drawingId true
    pure ⟨workstation, key, .inspectDrawing drawing.drawingId⟩
  | .enqueueCreatePublishPlan key drawingId => some do
    requireScope principal .read
    let (drawing, workstation) ← requireDrawing principal (catalog repo) drawingId true
    pure ⟨workstation, key, .createPublishPlan drawing.drawingId⟩
  | .enqueueTranslation key drawingId request => some do
    requireScope principal .translate
    requireScope principal .read
    if maxTranslationBatchBytes < (Text.utf8 (translationBatch key drawingId request)).length then
      refuse "translation_batch_too_large"
    else do
      let (drawing, workstation) ← requireDrawing principal (catalog repo) drawingId true
      let key ← translationKey ctx principal key drawing workstation request repo
      pure ⟨workstation, key, .translation drawing.drawingId request⟩
  | _ => none

/-- The rows of a listing, in the order of their identifiers. -/
def listed {ν : Type} (keep : ν → Bool) (id : ν → String) (rows : Dict String ν) : List ν :=
  ((rows.entries.map Prod.snd).filter keep).insertionSort fun a b => id a ≤ id b

def listWorkstations (principal : PrincipalContext) (repo : InMemoryGatewayRepository) :
    List WorkstationRecord :=
  listed (fun r => usable principal r.enabled r.tenantId r.ownerSubjectId)
    WorkstationRecord.workstationId repo.workstations

def listProjects (principal : PrincipalContext) (workstationId : Option WorkstationId)
    (repo : InMemoryGatewayRepository) : List ProjectRecord :=
  listed (fun r => usable principal r.enabled r.tenantId r.ownerSubjectId &&
      workstationId.all fun id => decide (r.workstationId = id))
    ProjectRecord.projectId repo.projects

/-- The workstation that a listing of projects is limited to. -/
def selectWorkstation (principal : PrincipalContext) (c : Catalog) :
    Option WorkstationId → Except ServiceError (Option WorkstationId)
  | none => pure none
  | some id => do
    let workstation ← requireWorkstation principal c id false
    pure (some workstation.workstationId)

/-- `get_operation` -/
def getOperation (ctx : ServiceContext) (principal : PrincipalContext)
    (operationId : OperationId) (repo : InMemoryGatewayRepository) :
    Except ServiceError Response × InMemoryGatewayRepository :=
  let checked : Except ServiceError Unit := do
    requireScope principal .read
    let record ← requireOperationOwner principal (repo.operations.get operationId)
    if record.task.isTranslation then requireScope principal .translate
    else pure ()
  match checked with
  | .error error => (.error error, repo)
  | .ok () =>
    match repo.refreshOperation operationId ctx.now with
    | (.error error, repo) => (.error (.raised error), repo)
    | (.ok refreshed, repo) =>
      ((requireOperationOwner principal refreshed).map fun record => .operation record.view, repo)

/-- One call of the service by a principal. -/
def serve (ctx : ServiceContext) (principal : PrincipalContext) (request : Request)
    (repo : InMemoryGatewayRepository) :
    Except ServiceError Response × InMemoryGatewayRepository :=
  match place ctx principal repo request with
  | some (.error error) => (.error error, repo)
  | some (.ok p) => enqueue ctx principal p.workstation p.idempotencyKey p.task repo
  | none =>
    match request with
    | .getOperation operationId => getOperation ctx principal operationId repo
    | .listProjects workstationId =>
      (do
        requireScope principal .read
        let selected ← selectWorkstation principal (catalog repo) workstationId
        pure (.projects ((listProjects principal selected repo).map fun r =>
          ⟨r.projectId, r.workstationId, r.displayName⟩)), repo)
    | _ =>
      (do
        requireScope principal .read
        pure (.workstations ((listWorkstations principal repo).map fun r =>
          ⟨r.workstationId, r.displayName, r.online⟩)), repo)

end Requests

end CadPlot.Gateway
