import CadPlot.Gateway.Requests
import CadPlot.Lib.JsonSize
import CadPlot.Protocol.Formats

/-!
# Signed dispatches

`GatewayDispatchAdapter.build` turns a leased operation into the envelope that
its worker gets, checked against the wire models, and `serialize_task_payload`
bounds the text of it. The texts of timestamps are left to the model library.
-/

namespace CadPlot.Gateway

structure WorkerTaskEnvelope where
  policyVersion : Nat
  tenantId : TenantId
  userId : SubjectId
  deviceId : WorkstationId
  taskId : TaskId
  operationId : OperationId
  commandId : CommandId
  idempotencyKey : IdempotencyKey
  nonce : String
  issuedAt : Int
  expiresAt : Int
  command : RemoteCommand
  signature : Signature
  deriving DecidableEq

structure SignedDispatch where
  envelope : WorkerTaskEnvelope
  correlation : DispatchCorrelation
  dispatchSha256 : List Char

/-- What the adapter is built with, and what it draws for one dispatch. -/
structure DispatchContext where
  policyVersion : Nat
  policyRange : 1 ≤ policyVersion ∧ policyVersion ≤ 2147483647
  signDispatch : List UInt8 → Signature
  sha256 : List UInt8 → List UInt8
  timestamp : Int → String
  now : Int
  taskUuid : List Char
  taskUuidFour : Protocol.isUuid Protocol.versionFour taskUuid = true
  commandUuid : List Char
  commandUuidFour : Protocol.isUuid Protocol.versionFour commandUuid = true
  nonce : String
  nonceSafe : Protocol.isNonce nonce = true

namespace Dispatch

open Protocol

inductive DispatchError where
  | ingress (code : String)
  | validation
  deriving DecidableEq, Repr

def signaturePlaceholder : Signature := ⟨List.replicate 86 'A', by decide, by decide⟩

def maxTaskPayloadBytes : Nat := 256 * 1024

def commandJson : RemoteCommand → Json
  | .validateEnvironment => .obj [("action", .str "validate_environment")]
  | .listProjects => .obj [("action", .str "list_projects")]
  | .scanDrawings projectId recursive cursor limit =>
    .obj [("action", .str "scan_drawings"), ("project_id", .str projectId),
      ("recursive", .bool recursive), ("cursor", .optional cursor), ("limit", .int limit)]
  | .inspectDrawing drawingId =>
    .obj [("action", .str "inspect_drawing"), ("drawing_id", .str drawingId)]
  | .createPublishPlan drawingId =>
    .obj [("action", .str "create_publish_plan"), ("drawing_id", .str drawingId)]
  | .translation drawingId request =>
    .obj [("action", .str "translation"), ("drawing_id", .str drawingId),
      ("request", request.toJson)]

/-- The fields of an envelope, with the signature where there is one. -/
def envelopeFields (policyVersion : Json) (tenantId userId deviceId taskId operationId commandId
    idempotencyKey nonce issuedAt expiresAt : String) (command : Json)
    (signature : List (String × Json)) : List (String × Json) :=
  [("protocol_version", .int 1), ("audience", .str "cadplot-worker"),
    ("policy_version", policyVersion), ("tenant_id", .str tenantId), ("user_id", .str userId),
    ("device_id", .str deviceId), ("task_id", .str taskId), ("operation_id", .str operationId),
    ("command_id", .str commandId), ("idempotency_key", .str idempotencyKey),
    ("nonce", .str nonce), ("issued_at", .str issuedAt), ("expires_at", .str expiresAt),
    ("command", command), ("signature_algorithm", .str "ed25519")] ++ signature

def envelopeJson (timestamp : Int → String) (e : WorkerTaskEnvelope)
    (signature : List (String × Json)) : Json :=
  .obj (envelopeFields (.int e.policyVersion) e.tenantId e.userId e.deviceId e.taskId e.operationId
    e.commandId e.idempotencyKey e.nonce (timestamp e.issuedAt) (timestamp e.expiresAt)
    (commandJson e.command) signature)

/-- `canonical_signing_bytes` -/
def canonicalSigningBytes (timestamp : Int → String) (e : WorkerTaskEnvelope) : List UInt8 :=
  Text.utf8 ((envelopeJson timestamp e []).sortKeys.render Json.modelStyle)

/-- The wire model's field checks and its lifetime check. -/
def validateEnvelope (e : WorkerTaskEnvelope) : Bool :=
  decide (1 ≤ e.policyVersion ∧ e.policyVersion ≤ 2147483647) && isGatewayId "tnt" e.tenantId &&
    isGatewayId "usr" e.userId && isWireId "ws" e.deviceId && isWireId "tsk" e.taskId &&
    isWireId "op" e.operationId && isWireId "cmd" e.commandId &&
    isWireId "idem" e.idempotencyKey && isNonce e.nonce && isCommand e.command &&
    decide (0 < e.expiresAt - e.issuedAt ∧ e.expiresAt - e.issuedAt ≤ maxTaskLifetime)

/-- A command model that refuses its own fields. -/
def checkedCommand (error : DispatchError) (command : RemoteCommand) :
    Except DispatchError RemoteCommand :=
  if isCommand command then .ok command else .error error

/-- `_remote_command` -/
def remoteCommand (operation : OperationRecord) : Except DispatchError RemoteCommand :=
  match operation.task with
  | .translation drawingId request =>
    checkedCommand .validation (.translation drawingId request)
  | .validateEnvironment workstationId =>
    if workstationId ≠ operation.workstationId then .error (.ingress "task_binding_invalid")
    else .ok .validateEnvironment
  | .listProjects workstationId =>
    if workstationId ≠ operation.workstationId then .error (.ingress "task_binding_invalid")
    else .ok .listProjects
  | .scanDrawings projectId recursive limit =>
    checkedCommand (.ingress "task_unsupported") (.scanDrawings projectId recursive none limit)
  | .inspectDrawing drawingId => checkedCommand .validation (.inspectDrawing drawingId)
  | .createPublishPlan drawingId => checkedCommand .validation (.createPublishPlan drawingId)

/-- `GatewayDispatchAdapter.build` -/
def build (ctx : DispatchContext) (operation : OperationRecord) :
    Except DispatchError SignedDispatch :=
  match operation.state, operation.leaseExpiresAt with
  | .leased, some leaseExpiresAt =>
    if leaseExpiresAt ≤ ctx.now ∨ operation.expiresAt ≤ ctx.now then
      .error (.ingress "dispatch_expired")
    else do
      let command ← remoteCommand operation
      let unsigned : WorkerTaskEnvelope :=
        { policyVersion := ctx.policyVersion
          tenantId := operation.tenantId
          userId := operation.ownerSubjectId
          deviceId := operation.workstationId
          taskId := String.ofList ("tsk_".toList ++ ctx.taskUuid)
          operationId := operation.operationId
          commandId := String.ofList ("cmd_".toList ++ ctx.commandUuid)
          idempotencyKey := operation.idempotencyKey
          nonce := ctx.nonce
          issuedAt := ctx.now
          expiresAt := min leaseExpiresAt (ctx.now + maxTaskLifetime)
          command := command
          signature := signaturePlaceholder }
      if ¬validateEnvelope unsigned then .error (.ingress "dispatch_invalid")
      else
        let envelope := { unsigned with
          signature := ctx.signDispatch (canonicalSigningBytes ctx.timestamp unsigned) }
        if h : (envelope.issuedAt < envelope.expiresAt ∧
            envelope.expiresAt ≤ operation.expiresAt) ∧
            envelope.expiresAt - envelope.issuedAt ≤ maxTaskLifetime then
          pure
            { envelope := envelope
              correlation :=
                { tenantId := envelope.tenantId
                  userId := envelope.userId
                  deviceId := envelope.deviceId
                  taskId := envelope.taskId
                  operationId := envelope.operationId
                  commandId := envelope.commandId
                  nonce := envelope.nonce
                  command := envelope.command
                  issuedAt := envelope.issuedAt
                  dispatchExpiresAt := envelope.expiresAt
                  operationExpiresAt := operation.expiresAt
                  deadlines := h.1
                  lifetime := h.2 }
              dispatchSha256 :=
                Text.hex (ctx.sha256 (canonicalSigningBytes ctx.timestamp envelope)) }
        else .error (.ingress "dispatch_invalid")
  | _, _ => .error (.ingress "operation_not_leased")

/-- `serialize_task_payload` -/
def serializeTaskPayload (timestamp : Int → String) (e : WorkerTaskEnvelope) :
    Except String (List UInt8) :=
  let encoded := Text.utf8 ((envelopeJson timestamp e
    [("signature", .str (String.ofList e.signature.chars))]).render Json.modelStyle)
  if maxTaskPayloadBytes < encoded.length then
    .error "Task payload exceeds its safety limit."
  else .ok encoded

end Dispatch

end CadPlot.Gateway
