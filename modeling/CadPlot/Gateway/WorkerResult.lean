import CadPlot.Gateway.ReplayGuard

/-!
# Signed worker results

The result envelope of a worker, the correlation of the dispatch it answers, and
what the ingress requires of the two together before anything is looked up.
Identifiers are opaque. Of a result only what the gateway reads is kept: a
listing of layouts, frames or sheets is its length.
-/

namespace CadPlot.Gateway

abbrev TaskId := String
abbrev CommandId := String

/-- `^[A-Za-z0-9_-]{86}$`, as the characters it is made of. -/
structure Signature where
  chars : List Char
  length : chars.length = 86
  safe : (chars.all fun c => c.isAlphanum || c == '_' || c == '-') = true
  deriving DecidableEq

/-- `signature.encode("ascii")` -/
def Signature.encode (signature : Signature) : List UInt8 :=
  signature.chars.map fun c => c.val.toUInt8

inductive RemoteCommand where
  | validateEnvironment
  | listProjects
  | scanDrawings (projectId : ProjectId) (recursive : Bool) (cursor : Option String) (limit : Nat)
  | inspectDrawing (drawingId : DrawingId)
  | createPublishPlan (drawingId : DrawingId)
  | translation (drawingId : DrawingId) (request : TranslationRequest)
  deriving DecidableEq

def RemoteCommand.action : RemoteCommand → TaskCommand
  | .validateEnvironment => .validateEnvironment
  | .listProjects => .listProjects
  | .scanDrawings .. => .scanDrawings
  | .inspectDrawing _ => .inspectDrawing
  | .createPublishPlan _ => .createPublishPlan
  | .translation .. => .translation

structure ProjectSummary where
  projectId : ProjectId
  displayName : String
  enabled : Bool
  deriving DecidableEq

structure DrawingSummary where
  drawingId : DrawingId
  displayName : String
  deriving DecidableEq

inductive RemoteResult where
  | environment (ready : Bool) (errorCodes : Bounded 5000 SafeCode)
  | projects (projects : Bounded 100 ProjectSummary)
  | drawings (projectId : ProjectId) (drawings : Bounded 100 DrawingSummary)
      (nextCursor : Option String)
  | inspection (drawingId : DrawingId) (layouts frames : Nat) (noticeCodes : Bounded 5000 SafeCode)
  | publishPlan (drawingId : DrawingId) (planId : PlanId) (ready : Bool) (sheets : Nat)
      (noticeCodes : Bounded 5000 SafeCode)
  | translation (drawingId : DrawingId) (response : TranslationResponse)
  | error (action : TaskCommand) (code : SafeCode) (attentionRequired : Bool)
  deriving DecidableEq

/-- `_result_action` -/
def RemoteResult.action : RemoteResult → TaskCommand
  | .environment .. => .validateEnvironment
  | .projects _ => .listProjects
  | .drawings .. => .scanDrawings
  | .inspection .. => .inspectDrawing
  | .publishPlan .. => .createPublishPlan
  | .translation .. => .translation
  | .error action _ _ => action

def RemoteResult.isError : RemoteResult → Bool
  | .error .. => true
  | _ => false

structure WorkerResultEnvelope where
  tenantId : TenantId
  userId : SubjectId
  deviceId : WorkstationId
  taskId : TaskId
  operationId : OperationId
  commandId : CommandId
  completedAt : Int
  result : RemoteResult
  signature : Signature
  deriving DecidableEq

def maxTaskLifetime : Int := 300000000
def maxClockSkew : Int := 30000000

/-- The validators of the correlation are fields. -/
structure DispatchCorrelation where
  tenantId : TenantId
  userId : SubjectId
  deviceId : WorkstationId
  taskId : TaskId
  operationId : OperationId
  commandId : CommandId
  nonce : String
  command : RemoteCommand
  issuedAt : Int
  dispatchExpiresAt : Int
  operationExpiresAt : Int
  deadlines : issuedAt < dispatchExpiresAt ∧ dispatchExpiresAt ≤ operationExpiresAt
  lifetime : dispatchExpiresAt - issuedAt ≤ maxTaskLifetime
  deriving DecidableEq

structure WorkerContext where
  tenantId : TenantId
  workstationId : WorkstationId
  deriving DecidableEq

namespace Ingress

def requireWorkerContext (worker : WorkerContext) (correlation : DispatchCorrelation) :
    Except String Unit :=
  require (worker.tenantId = correlation.tenantId ∧ worker.workstationId = correlation.deviceId)
    "worker_binding_invalid"

/-- What the result names of its command, where it names anything. -/
def resultMatchesCommand : RemoteCommand → RemoteResult → Bool
  | .translation drawingId request, .translation resultDrawing response =>
    resultDrawing = drawingId ∧ requireMatchingResult request response = .ok ()
  | .scanDrawings projectId .., .drawings resultProject .. => resultProject = projectId
  | .inspectDrawing drawingId, .inspection resultDrawing .. => resultDrawing = drawingId
  | .createPublishPlan drawingId, .publishPlan resultDrawing .. => resultDrawing = drawingId
  | _, _ => true

def requireResultBinding (envelope : WorkerResultEnvelope) (correlation : DispatchCorrelation) :
    Except String Unit := do
  require (envelope.tenantId = correlation.tenantId ∧ envelope.userId = correlation.userId ∧
    envelope.deviceId = correlation.deviceId ∧ envelope.taskId = correlation.taskId ∧
    envelope.operationId = correlation.operationId ∧
    envelope.commandId = correlation.commandId ∧
    envelope.result.action = correlation.command.action) "result_binding_invalid"
  require (resultMatchesCommand correlation.command envelope.result) "result_binding_invalid"

/-- `_require_fresh_completion` -/
def requireFreshCompletion (maxResultAge : Int) (envelope : WorkerResultEnvelope)
    (correlation : DispatchCorrelation) (now : Int) : Except String Unit :=
  require (correlation.issuedAt - maxClockSkew ≤ envelope.completedAt ∧
    envelope.completedAt ≤ correlation.operationExpiresAt ∧
    now < correlation.operationExpiresAt ∧ envelope.completedAt ≤ now + maxClockSkew ∧
    now - envelope.completedAt ≤ maxResultAge) "result_stale"

/-- A list that fits a shorter bound. -/
def rebound {max α} (limit : Nat) (xs : Bounded max α) : Option (Bounded limit α) :=
  if h : xs.items.length ≤ limit then some ⟨xs.items, h⟩ else none

/-- `_gateway_result`, where a bound of the gateway's own message may refuse the result. -/
def gatewayResult : RemoteResult → Except String TaskResult
  | .translation drawingId response => .ok (.translation drawingId response)
  | .environment ready errorCodes =>
    match rebound 50 errorCodes with
    | some codes => .ok (.validateEnvironment ready codes)
    | none => .error "result_invalid"
  | .projects projects =>
    .ok (.listProjects ⟨(projects.items.filter (·.enabled)).map (·.projectId), by
      have hlength := List.length_filter_le (·.enabled) projects.items
      rw [List.length_map]
      exact hlength.trans projects.bound⟩)
  | .drawings projectId drawings nextCursor =>
    .ok (.scanDrawings projectId ⟨drawings.items.map (·.drawingId), by
      rw [List.length_map]
      exact drawings.bound⟩ nextCursor.isSome)
  | .inspection drawingId layouts frames noticeCodes =>
    match rebound 100 noticeCodes with
    | some codes =>
      if layouts ≤ 10000 ∧ frames ≤ 10000 then .ok (.inspectDrawing drawingId layouts frames codes)
      else .error "result_invalid"
    | none => .error "result_invalid"
  | .publishPlan drawingId planId ready sheets noticeCodes =>
    match rebound 100 noticeCodes with
    | some codes =>
      if sheets ≤ 10000 then .ok (.createPublishPlan drawingId planId ready sheets codes)
      else .error "result_invalid"
    | none => .error "result_invalid"
  | .error .. => .error "result_invalid"

/-- `SafeDisplayName` -/
def safeDisplayName (value : String) : Bool :=
  let chars := value.toList
  decide (1 ≤ chars.length ∧ chars.length ≤ 128) && chars.all fun c =>
    !(c = '\\' || c = '/' || c = ':' || c.toNat < 32 || c.toNat = 127)

/-- The catalog rows that a listing brings, each with a name the catalog accepts. -/
def projectRecords (correlation : DispatchCorrelation) (result : RemoteResult) :
    Except String (List ProjectRecord) :=
  match result with
  | .projects projects =>
    if projects.items.all fun p => safeDisplayName p.displayName then
      .ok (projects.items.map fun p =>
        ⟨p.projectId, correlation.tenantId, correlation.userId, correlation.deviceId,
          p.displayName, p.enabled⟩)
    else .error "result_invalid"
  | _ => .ok []

def drawingRecords (correlation : DispatchCorrelation) (result : RemoteResult) :
    Except String (List DrawingRecord) :=
  match result with
  | .drawings projectId drawings _ =>
    if drawings.items.all fun d => safeDisplayName d.displayName then
      .ok (drawings.items.map fun d =>
        ⟨d.drawingId, correlation.tenantId, correlation.userId, correlation.deviceId, projectId,
          d.displayName, true⟩)
    else .error "result_invalid"
  | _ => .ok []

end Ingress

end CadPlot.Gateway
