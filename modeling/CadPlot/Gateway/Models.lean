import Mathlib.Data.List.Basic

/-!
# Gateway records

The closed gateway messages and the operation record with its validator.
Opaque identifiers and digests are strings; their patterns decide nothing that
is modelled here. A timestamp is an integer: microseconds from a fixed UTC
origin. Lengths and character classes that a later check relies on are fields.
-/

namespace CadPlot.Gateway

abbrev TenantId := String
abbrev SubjectId := String
abbrev ClientId := String
abbrev WorkstationId := String
abbrev ProjectId := String
abbrev DrawingId := String
abbrev OperationId := String
abbrev IdempotencyKey := String
abbrev Sha256Hex := String
abbrev PlanId := String
abbrev HashId := String

/-- `^[a-z][a-z0-9_]{0,63}$` -/
def isSafeCode (value : String) : Bool :=
  match value.toList with
  | [] => false
  | c :: cs =>
    decide ('a' ≤ c ∧ c ≤ 'z') && decide (cs.length ≤ 63) &&
      cs.all fun d => decide (('a' ≤ d ∧ d ≤ 'z') ∨ ('0' ≤ d ∧ d ≤ '9') ∨ d = '_')

structure SafeCode where
  value : String
  safe : isSafeCode value = true
  deriving DecidableEq

/-- A tuple field with a maximum length. -/
structure Bounded (max : Nat) (α : Type) where
  items : List α
  bound : items.length ≤ max
  deriving DecidableEq

inductive TaskCommand where
  | translation | validateEnvironment | listProjects | scanDrawings | inspectDrawing
  | createPublishPlan
  deriving DecidableEq, Repr

inductive OperationState where
  | created | leased | running | succeeded | failed | expired | attentionRequired
  deriving DecidableEq, Repr

inductive SourceLanguage where
  | tr | en | other | uncertain
  deriving DecidableEq, Repr

structure RemoteDecision where
  spanId : String
  source : String
  sourceLanguage : SourceLanguage
  target : String
  deriving DecidableEq, Repr

inductive TranslationOperation where
  | scan | review | plan | apply
  deriving DecidableEq, Repr

inductive TranslationRequest where
  | scan (inventoryId : Option HashId) (offset limit : Nat)
  | review (inventoryId : HashId) (expectedReviewId : Option HashId)
      (decisions : List RemoteDecision)
  | plan (inventoryId reviewId : HashId) (offset limit : Nat)
  | apply (inventoryId reviewId approvedPlanId : HashId) (planOperationId : OperationId)
  deriving DecidableEq, Repr

def TranslationRequest.operation : TranslationRequest → TranslationOperation
  | .scan .. => .scan
  | .review .. => .review
  | .plan .. => .plan
  | .apply .. => .apply

structure TranslationSpan where
  id : String
  text : String
  normalizedForSearch : String
  deriving DecidableEq, Repr

structure TranslationRecord where
  id : String
  kind : String
  block : String
  layer : String
  raw : String
  spans : List TranslationSpan
  writable : Bool
  deriving DecidableEq, Repr

structure TranslationChange where
  recordId : String
  before : String
  after : String
  deriving DecidableEq, Repr

inductive TranslationResponse where
  | scan (inventoryId : HashId) (totalRecords totalReviewSpans offset : Nat)
      (nextOffset : Option Nat) (records : List TranslationRecord) (blockerCount : Nat)
      (blockerCodes : List SafeCode)
  | review (inventoryId reviewId : HashId) (reviewedSpans : Nat)
  | plan (inventoryId reviewId planId : HashId) (ready : Bool)
      (changedRecords reviewedSpans offset : Nat) (nextOffset : Option Nat)
      (changes : List TranslationChange) (blockerCount : Nat) (blockerCodes : List SafeCode)
  | apply (inventoryId reviewId planId : HashId) (outputId : String) (outputSha256 : Sha256Hex)
      (changedRecords : Nat)
  deriving DecidableEq

def TranslationResponse.operation : TranslationResponse → TranslationOperation
  | .scan .. => .scan
  | .review .. => .review
  | .plan .. => .plan
  | .apply .. => .apply

def TranslationResponse.inventoryId : TranslationResponse → HashId
  | .scan inventoryId .. => inventoryId
  | .review inventoryId .. => inventoryId
  | .plan inventoryId .. => inventoryId
  | .apply inventoryId .. => inventoryId

def TranslationRequest.inventoryId : TranslationRequest → Option HashId
  | .scan inventoryId .. => inventoryId
  | .review inventoryId .. => some inventoryId
  | .plan inventoryId .. => some inventoryId
  | .apply inventoryId .. => some inventoryId

/-- A check that raises its code when it does not hold. -/
def require (p : Prop) [Decidable p] (code : String) : Except String Unit :=
  if p then .ok () else .error code

@[simp] theorem require_eq_ok (p : Prop) [Decidable p] (code : String) :
    require p code = .ok () ↔ p := by
  unfold require
  split <;> simp_all

/-- A sequence of checks passes when its first check does and the rest do. -/
@[simp] theorem require_bind_eq_ok {α : Type} (p : Prop) [Decidable p] (code : String)
    (rest : Unit → Except String α) (a : α) :
    (require p code >>= rest) = .ok a ↔ p ∧ rest () = .ok a := by
  unfold require
  split
  · next h => simp [h, bind, Except.bind]
  · next h => simp [h, bind, Except.bind]

/-- The request fields that only some requests have are compared with the response of the
same operation, which the first check establishes. -/
def requireMatchingResult (request : TranslationRequest) (response : TranslationResponse) :
    Except String Unit := do
  require (request.operation = response.operation) "translation_operation_mismatch"
  require (∀ i, request.inventoryId = some i → i = response.inventoryId)
    "translation_inventory_mismatch"
  match request, response with
  | .scan _ offset _, .scan _ _ _ offset' .. =>
    require (offset = offset') "translation_page_mismatch"
  | .plan _ reviewId offset _, .plan _ reviewId' _ _ _ _ offset' .. => do
    require (offset = offset') "translation_page_mismatch"
    require (reviewId = reviewId') "translation_review_mismatch"
  | .apply _ reviewId approvedPlanId _, .apply _ reviewId' planId .. => do
    require (reviewId = reviewId') "translation_review_mismatch"
    require (approvedPlanId = planId) "translation_plan_mismatch"
  | _, _ => .ok ()

inductive ReadTask where
  | validateEnvironment (workstationId : WorkstationId)
  | listProjects (workstationId : WorkstationId)
  | scanDrawings (projectId : ProjectId) (recursive : Bool) (limit : Nat)
  | inspectDrawing (drawingId : DrawingId)
  | createPublishPlan (drawingId : DrawingId)
  | translation (drawingId : DrawingId) (request : TranslationRequest)
  deriving DecidableEq, Repr

def ReadTask.command : ReadTask → TaskCommand
  | .validateEnvironment .. => .validateEnvironment
  | .listProjects .. => .listProjects
  | .scanDrawings .. => .scanDrawings
  | .inspectDrawing .. => .inspectDrawing
  | .createPublishPlan .. => .createPublishPlan
  | .translation .. => .translation

inductive TaskResult where
  | validateEnvironment (ready : Bool) (warningCodes : Bounded 50 SafeCode)
  | listProjects (projectIds : Bounded 100 ProjectId)
  | scanDrawings (projectId : ProjectId) (drawingIds : Bounded 100 DrawingId) (truncated : Bool)
  | inspectDrawing (drawingId : DrawingId) (layoutCount sheetCount : Nat)
      (warningCodes : Bounded 100 SafeCode)
  | createPublishPlan (drawingId : DrawingId) (planId : PlanId) (ready : Bool)
      (sheetCount : Nat) (warningCodes : Bounded 100 SafeCode)
  | translation (drawingId : DrawingId) (response : TranslationResponse)
  deriving DecidableEq

def TaskResult.command : TaskResult → TaskCommand
  | .validateEnvironment .. => .validateEnvironment
  | .listProjects .. => .listProjects
  | .scanDrawings .. => .scanDrawings
  | .inspectDrawing .. => .inspectDrawing
  | .createPublishPlan .. => .createPublishPlan
  | .translation .. => .translation

structure WorkstationRecord where
  workstationId : WorkstationId
  tenantId : TenantId
  ownerSubjectId : SubjectId
  displayName : String
  enabled : Bool
  online : Bool
  deriving DecidableEq, Repr

structure ProjectRecord where
  projectId : ProjectId
  tenantId : TenantId
  ownerSubjectId : SubjectId
  workstationId : WorkstationId
  displayName : String
  enabled : Bool
  deriving DecidableEq, Repr

structure DrawingRecord where
  drawingId : DrawingId
  tenantId : TenantId
  ownerSubjectId : SubjectId
  workstationId : WorkstationId
  projectId : ProjectId
  displayName : String
  enabled : Bool
  deriving DecidableEq, Repr

structure OperationRecord where
  operationId : OperationId
  tenantId : TenantId
  ownerSubjectId : SubjectId
  clientId : ClientId
  workstationId : WorkstationId
  idempotencyKey : IdempotencyKey
  requestFingerprint : Sha256Hex
  task : ReadTask
  state : OperationState
  createdAt : Int
  expiresAt : Int
  leaseExpiresAt : Option Int
  startedAt : Option Int
  completedAt : Option Int
  result : Option TaskResult
  errorCode : Option SafeCode
  deriving DecidableEq

/-- Who asked for what, and until when. -/
structure OperationIdentity where
  tenantId : TenantId
  operationId : OperationId
  ownerSubjectId : SubjectId
  clientId : ClientId
  workstationId : WorkstationId
  idempotencyKey : IdempotencyKey
  requestFingerprint : Sha256Hex
  task : ReadTask
  createdAt : Int
  expiresAt : Int
  deriving DecidableEq

namespace OperationRecord

/-- The state-dependent half of `validate_state_shape`. -/
def validateShapeOfState (r : OperationRecord) : Except String Unit :=
  match r.state with
  | .created =>
    require (r.leaseExpiresAt = none ∧ r.startedAt = none ∧ r.completedAt = none ∧
      r.result = none ∧ r.errorCode = none) "created_operation_has_transition_data"
  | .leased =>
    require (r.leaseExpiresAt ≠ none ∧ r.startedAt = none ∧ r.completedAt = none ∧
      r.result = none ∧ r.errorCode = none) "leased_operation_shape_invalid"
  | .running =>
    require (r.startedAt ≠ none ∧ r.leaseExpiresAt = none ∧ r.completedAt = none ∧
      r.result = none ∧ r.errorCode = none) "running_operation_shape_invalid"
  | .succeeded => do
    require (r.startedAt ≠ none ∧ r.completedAt ≠ none ∧ r.result ≠ none ∧
      r.errorCode = none ∧ r.leaseExpiresAt = none) "succeeded_operation_shape_invalid"
    require (r.result.map TaskResult.command = some r.task.command)
      "operation_result_command_mismatch"
  | .failed => do
    terminalShape
    require (r.startedAt ≠ none) "failed_operation_was_never_started"
  | .expired => do
    terminalShape
    require (∀ c, r.completedAt = some c → r.expiresAt ≤ c) "operation_expired_before_deadline"
  | .attentionRequired => terminalShape
where
  terminalShape : Except String Unit :=
    require (r.completedAt ≠ none ∧ r.errorCode ≠ none ∧ r.result = none ∧
      r.leaseExpiresAt = none) "terminal_operation_shape_invalid"

def validateStateShape (r : OperationRecord) : Except String Unit := do
  require (r.createdAt < r.expiresAt) "operation_expiry_must_follow_creation"
  require (∀ l, r.leaseExpiresAt = some l → r.createdAt < l ∧ l ≤ r.expiresAt)
    "operation_lease_outside_deadline"
  require (∀ s, r.startedAt = some s → r.createdAt ≤ s ∧ s < r.expiresAt)
    "operation_start_outside_deadline"
  require (∀ c, r.completedAt = some c → r.createdAt ≤ c) "operation_completion_before_creation"
  require (∀ c, r.completedAt = some c → ∀ s, r.startedAt = some s → s ≤ c)
    "operation_completion_before_start"
  r.validateShapeOfState

/-- A record the validator accepts. -/
def Valid (r : OperationRecord) : Prop := r.validateStateShape = .ok ()

instance (r : OperationRecord) : Decidable r.Valid := decEq _ _

/-- The deadline checks that every state shares. -/
structure Deadlines (r : OperationRecord) : Prop where
  expiry : r.createdAt < r.expiresAt
  lease : ∀ l, r.leaseExpiresAt = some l → r.createdAt < l ∧ l ≤ r.expiresAt
  start : ∀ s, r.startedAt = some s → r.createdAt ≤ s ∧ s < r.expiresAt
  completion : ∀ c, r.completedAt = some c → r.createdAt ≤ c
  order : ∀ c, r.completedAt = some c → ∀ s, r.startedAt = some s → s ≤ c

theorem valid_iff (r : OperationRecord) :
    r.Valid ↔ r.Deadlines ∧ r.validateShapeOfState = .ok () := by
  simp only [Valid, validateStateShape, require_bind_eq_ok]
  constructor
  · rintro ⟨h1, h2, h3, h4, h5, h6⟩
    exact ⟨⟨h1, h2, h3, h4, h5⟩, h6⟩
  · rintro ⟨⟨h1, h2, h3, h4, h5⟩, h6⟩
    exact ⟨h1, h2, h3, h4, h5, h6⟩

/-- The fields that the state does not determine once its shape is known. -/
theorem Valid.created {r : OperationRecord} (h : r.Valid) (hs : r.state = .created) :
    r.leaseExpiresAt = none ∧ r.startedAt = none ∧ r.completedAt = none ∧ r.result = none ∧
      r.errorCode = none := by
  have hshape := ((valid_iff r).1 h).2
  simpa [validateShapeOfState, hs] using hshape

theorem Valid.leased {r : OperationRecord} (h : r.Valid) (hs : r.state = .leased) :
    ∃ l, r.leaseExpiresAt = some l ∧ r.createdAt < l ∧ l ≤ r.expiresAt ∧ r.startedAt = none ∧
      r.completedAt = none ∧ r.result = none ∧ r.errorCode = none := by
  obtain ⟨hd, hshape⟩ := (valid_iff r).1 h
  simp only [validateShapeOfState, hs, require_eq_ok] at hshape
  obtain ⟨hl, hrest⟩ := hshape
  obtain ⟨l, hl⟩ := Option.ne_none_iff_exists'.1 hl
  exact ⟨l, hl, (hd.lease l hl).1, (hd.lease l hl).2, hrest⟩

theorem Valid.running {r : OperationRecord} (h : r.Valid) (hs : r.state = .running) :
    ∃ s, r.startedAt = some s ∧ r.createdAt ≤ s ∧ s < r.expiresAt ∧ r.leaseExpiresAt = none ∧
      r.completedAt = none ∧ r.result = none ∧ r.errorCode = none := by
  obtain ⟨hd, hshape⟩ := (valid_iff r).1 h
  simp only [validateShapeOfState, hs, require_eq_ok] at hshape
  obtain ⟨hst, hrest⟩ := hshape
  obtain ⟨s, hst⟩ := Option.ne_none_iff_exists'.1 hst
  exact ⟨s, hst, (hd.start s hst).1, (hd.start s hst).2, hrest⟩

/-- The columns that no transition may change. -/
def identity (r : OperationRecord) : OperationIdentity :=
  ⟨r.tenantId, r.operationId, r.ownerSubjectId, r.clientId, r.workstationId, r.idempotencyKey,
    r.requestFingerprint, r.task, r.createdAt, r.expiresAt⟩

end OperationRecord

/-- Leased and running operations hold the workstation. -/
def OperationState.isActive : OperationState → Bool
  | .leased | .running => true
  | _ => false

def OperationState.isTerminal : OperationState → Bool
  | .succeeded | .failed | .expired | .attentionRequired => true
  | _ => false

end CadPlot.Gateway
