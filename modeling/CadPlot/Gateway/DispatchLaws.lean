import CadPlot.Gateway.Dispatch
import CadPlot.Gateway.Lifecycle
import CadPlot.Lib.Outcome

/-!
# When a leased operation can be dispatched

An operation that the service queued and a worker leased is turned into an
envelope within the size limit exactly when the identifiers that the wire wants
to be UUIDs of version 4 are: the gateway's own models also take the versions 1,
2, 3 and 5. The size never stands in the way, since a translation batch is
bounded before it is queued and the rest of an envelope is small.
-/

namespace CadPlot.Gateway.Dispatch

open Protocol Json Requests

/-! ### The size of an envelope -/

section Sizes

variable {version : Char → Bool} {tag value : String} {text : List Char}

/-- Letters, digits, underscores and hyphens are written as they are. -/
theorem isPlain_of_range {c : Char} (hrange : (65 ≤ c.toNat ∧ c.toNat ≤ 90) ∨
    (97 ≤ c.toNat ∧ c.toNat ≤ 122) ∨ (48 ≤ c.toNat ∧ c.toNat ≤ 57) ∨ c = '_' ∨ c = '-') :
    isPlain c = true := by
  have hquote : c ≠ '"' := by
    rintro rfl
    revert hrange
    decide
  have hslash : c ≠ '\\' := by
    rintro rfl
    revert hrange
    decide
  have hbounds : 32 ≤ c.toNat ∧ c.toNat < 128 := by
    rcases hrange with h | h | h | rfl | rfl
    · omega
    · omega
    · omega
    · decide
    · decide
  simp only [isPlain, Bool.and_eq_true, decide_eq_true_eq]
  exact ⟨⟨hbounds, hquote⟩, hslash⟩

theorem isPlain_of_lowerHex {c : Char} (h : Text.isLowerHex c = true) : isPlain c = true := by
  have hrange : (48 ≤ c.toNat ∧ c.toNat ≤ 57) ∨ (97 ≤ c.toNat ∧ c.toNat ≤ 102) :=
    of_decide_eq_true h
  refine isPlain_of_range ?_
  rcases hrange with h | h
  · exact .inr (.inr (.inl h))
  · exact .inr (.inl ⟨h.1, by omega⟩)

/-- The character of a token: a letter, a digit, an underscore or a hyphen. -/
theorem isPlain_of_token {c : Char} (h : (c.isAlphanum || c == '_' || c == '-') = true) :
    isPlain c = true := by
  refine isPlain_of_range ?_
  simp only [Bool.or_eq_true, beq_iff_eq] at h
  rcases h with (h | h) | h
  · rcases Text.isAlphanum_cases h with h | h | h
    · exact .inl h
    · exact .inr (.inl h)
    · exact .inr (.inr (.inl h))
  · exact .inr (.inr (.inr (.inl h)))
  · exact .inr (.inr (.inr (.inr h)))

theorem isUuid_plain (hv : ∀ c, version c = true → Text.isLowerHex c = true)
    (h : isUuid version text = true) : text.length = 36 ∧ text.all isPlain = true := by
  rw [isUuid, Bool.and_eq_true, decide_eq_true_eq, List.all_eq_true] at h
  refine ⟨h.1, List.all_eq_true.2 fun c hc => ?_⟩
  rw [← List.zipIdx_map_fst 0 text] at hc
  obtain ⟨x, hx, rfl⟩ := List.mem_map.1 hc
  have hchar := h.2 x hx
  unfold uuidChar at hchar
  split_ifs at hchar with h1 h2 h3
  · rw [of_decide_eq_true hchar]
    decide
  · exact isPlain_of_lowerHex (hv _ hchar)
  · simp only [Bool.or_eq_true, decide_eq_true_eq] at hchar
    rcases hchar with ((heq | heq) | heq) | heq <;> rw [heq] <;> decide
  · exact isPlain_of_lowerHex hchar

theorem opaqueId_size (hv : ∀ c, version c = true → Text.isLowerHex c = true)
    (htag : tag.toList.all isPlain = true) (h : isOpaqueId version tag value = true) :
    stringSize value = tag.toList.length + 39 := by
  rw [isOpaqueId, Bool.and_eq_true, decide_eq_true_eq] at h
  obtain ⟨hhead, huuid⟩ := h
  obtain ⟨hlen, hplain⟩ := isUuid_plain hv huuid
  have hvalue : value.toList = (tag.toList ++ ['_']) ++
      value.toList.drop (tag.toList.length + 1) := by
    rw [← hhead, List.take_append_drop]
  have hall : value.toList.all isPlain = true := by
    rw [hvalue, List.all_append, List.all_append, htag, hplain]
    decide
  rw [stringSize_plain hall, hvalue, List.length_append, List.length_append, hlen]
  rfl

theorem gatewayId_size (htag : tag.toList.all isPlain = true) (h : isGatewayId tag value = true) :
    stringSize value = tag.toList.length + 39 := by
  refine opaqueId_size (fun c hc => ?_) htag h
  have hrange : '1' ≤ c ∧ c ≤ '5' := of_decide_eq_true hc
  exact decide_eq_true (.inl ⟨Char.le_trans (by decide) hrange.1, Char.le_trans hrange.2 (by decide)⟩)

theorem wireId_size (htag : tag.toList.all isPlain = true) (h : isWireId tag value = true) :
    stringSize value = tag.toList.length + 39 :=
  gatewayId_size htag (isGatewayId_of_isWireId h)

theorem nonce_size (h : isNonce value = true) : stringSize value ≤ 88 := by
  rw [isNonce, Bool.and_eq_true, decide_eq_true_eq] at h
  have hplain : value.toList.all isPlain = true := by
    refine List.all_eq_true.2 fun c hc => isPlain_of_token ?_
    simpa using List.all_eq_true.1 h.2 c hc
  rw [stringSize_plain hplain]
  omega

theorem signature_size (signature : Signature) :
    stringSize (String.ofList signature.chars) = 88 := by
  have hplain : (String.ofList signature.chars).toList.all isPlain = true := by
    rw [String.toList_ofList]
    exact List.all_eq_true.2 fun c hc =>
      isPlain_of_token (List.all_eq_true.1 signature.safe c hc)
  rw [stringSize_plain hplain, String.toList_ofList, signature.length]

end Sizes

/-- What an envelope weighs besides its command, once its values are known. -/
theorem envelope_size (policyVersion : Json) (tenantId userId deviceId taskId operationId commandId
    idempotencyKey nonce issuedAt expiresAt signature : String) (command : Json) :
    fieldsSize (envelopeFields policyVersion tenantId userId deviceId taskId operationId commandId
      idempotencyKey nonce issuedAt expiresAt command [("signature", .str signature)]) + 30 =
    fieldsSize (envelopeFields .null "" "" "" "" "" "" "" "" "" "" .null
      [("signature", .str "")]) + size policyVersion + stringSize tenantId + stringSize userId +
      stringSize deviceId + stringSize taskId + stringSize operationId + stringSize commandId +
      stringSize idempotencyKey + stringSize nonce + stringSize issuedAt + stringSize expiresAt +
      size command + stringSize signature := by
  have hempty : stringSize "" = 2 := by decide
  simp only [envelopeFields, List.cons_append, List.nil_append, fieldsSize_cons, fieldsSize_single,
    size_str, size_null, hempty]
  omega

theorem envelope_frame_size :
    fieldsSize (envelopeFields .null "" "" "" "" "" "" "" "" "" "" .null
      [("signature", .str "")]) = 285 := by
  decide +kernel

/-- The request of a translation, if the command is one. -/
def requestSize : RemoteCommand → Nat
  | .translation _ request => size request.toJson
  | _ => 0

theorem command_size {command : RemoteCommand} (h : isCommand command = true) :
    size (commandJson command) ≤ requestSize command + 250 := by
  cases command with
  | validateEnvironment =>
    have hframe : stringSize "action" + stringSize "validate_environment" = 30 := by decide
    simp only [commandJson, size_obj, fieldsSize_single, size_str, requestSize]
    omega
  | listProjects =>
    have hframe : stringSize "action" + stringSize "list_projects" = 23 := by decide
    simp only [commandJson, size_obj, fieldsSize_single, size_str, requestSize]
    omega
  | scanDrawings projectId recursive cursor limit =>
    simp only [isCommand, Bool.and_eq_true, decide_eq_true_eq] at h
    obtain ⟨⟨hproject, hcursor⟩, _, hlimit⟩ := h
    have hid := wireId_size (by decide) hproject
    have hprj : "prj".toList.length = 3 := by decide
    have hrecursive := size_bool_le recursive
    have hnumber : size (.int limit) ≤ 3 := size_nat_le (by decide) (by omega)
    have hnext : size (.optional cursor) ≤ 42 := by
      cases cursor with
      | none => exact Nat.le_trans (Nat.le_of_eq size_null) (by decide)
      | some id => exact Nat.le_of_eq (@wireId_size "cur" id (by decide) hcursor)
    have hframe : stringSize "action" + stringSize "scan_drawings" + stringSize "project_id" +
        stringSize "recursive" + stringSize "cursor" + stringSize "limit" = 61 := by decide
    simp only [commandJson, size_obj, fieldsSize_cons, fieldsSize_single, size_str, requestSize]
    omega
  | inspectDrawing drawingId =>
    have hid := wireId_size (by decide) h
    have hdrw : "drw".toList.length = 3 := by decide
    have hframe : stringSize "action" + stringSize "inspect_drawing" + stringSize "drawing_id" =
        37 := by decide
    simp only [commandJson, size_obj, fieldsSize_cons, fieldsSize_single, size_str, requestSize]
    omega
  | createPublishPlan drawingId =>
    have hid := wireId_size (by decide) h
    have hdrw : "drw".toList.length = 3 := by decide
    have hframe : stringSize "action" + stringSize "create_publish_plan" +
        stringSize "drawing_id" = 41 := by decide
    simp only [commandJson, size_obj, fieldsSize_cons, fieldsSize_single, size_str, requestSize]
    omega
  | translation drawingId request =>
    simp only [isCommand, Bool.and_eq_true] at h
    have hid := wireId_size (by decide) h.1
    have hdrw : "drw".toList.length = 3 := by decide
    have hframe : stringSize "action" + stringSize "translation" + stringSize "drawing_id" +
        stringSize "request" = 42 := by decide
    simp only [commandJson, size_obj, fieldsSize_cons, fieldsSize_single, size_str, requestSize]
    omega

/-- The text of a timestamp: at most 32 plain characters. -/
def ShortTimestamps (timestamp : Int → String) : Prop :=
  ∀ t, (timestamp t).toList.all isPlain = true ∧ (timestamp t).toList.length ≤ 32

/-- A valid envelope whose translation request is within the batch limit fits the payload limit. -/
theorem serializeTaskPayload_ok {timestamp : Int → String} {e : WorkerTaskEnvelope}
    (htime : ShortTimestamps timestamp) (he : validateEnvelope e = true)
    (hrequest : requestSize e.command ≤ maxTranslationBatchBytes) :
    ∃ payload, serializeTaskPayload timestamp e = .ok payload := by
  have htimestamp : ∀ t, stringSize (timestamp t) ≤ 34 := by
    intro t
    rw [stringSize_plain (htime t).1]
    exact Nat.add_le_add_right (htime t).2 2
  simp only [validateEnvelope, Bool.and_eq_true, decide_eq_true_eq] at he
  obtain ⟨⟨⟨⟨⟨⟨⟨⟨⟨⟨⟨_, hpolicy⟩, htenant⟩, huser⟩, hdevice⟩, htask⟩, hoperation⟩, hcommandId⟩,
    hkey⟩, hnonce⟩, hcommand⟩, _⟩ := he
  have hsize := envelope_size (.int e.policyVersion) e.tenantId e.userId e.deviceId e.taskId
    e.operationId e.commandId e.idempotencyKey e.nonce (timestamp e.issuedAt)
    (timestamp e.expiresAt) (String.ofList e.signature.chars) (commandJson e.command)
  rw [envelope_frame_size, gatewayId_size (by decide) htenant, gatewayId_size (by decide) huser,
    wireId_size (by decide) hdevice, wireId_size (by decide) htask,
    wireId_size (by decide) hoperation, wireId_size (by decide) hcommandId,
    wireId_size (by decide) hkey, signature_size] at hsize
  have hnumber : size (.int e.policyVersion) ≤ 10 := size_nat_le (by decide) (by omega)
  have hissued := htimestamp e.issuedAt
  have hexpires := htimestamp e.expiresAt
  have hnonceSize := nonce_size hnonce
  have hcommandSize := command_size hcommand
  have htags : "tnt".toList.length + "usr".toList.length + "ws".toList.length +
      "tsk".toList.length + "op".toList.length + "cmd".toList.length + "idem".toList.length =
      20 := by decide
  have hfits : ¬maxTaskPayloadBytes < (Text.utf8 ((envelopeJson timestamp e
      [("signature", .str (String.ofList e.signature.chars))]).render modelStyle)).length := by
    change ¬maxTaskPayloadBytes < size (envelopeJson timestamp e
      [("signature", .str (String.ofList e.signature.chars))])
    rw [envelopeJson, size_obj]
    simp only [maxTranslationBatchBytes] at hrequest
    simp only [maxTaskPayloadBytes]
    omega
  rw [serializeTaskPayload, if_neg hfits]
  exact ⟨_, rfl⟩

/-! ### What can be queued -/

/-- The field checks of a principal. -/
def isPrincipal (principal : PrincipalContext) : Bool :=
  isGatewayId "tnt" principal.tenantId && isGatewayId "usr" principal.subjectId &&
    isGatewayId "cli" principal.clientId

/-- The field checks of a request. -/
def isRequest : Request → Bool
  | .listWorkstations => true
  | .listProjects workstationId => workstationId.all (isGatewayId "ws")
  | .enqueueValidateEnvironment key workstationId =>
    isGatewayId "idem" key && isGatewayId "ws" workstationId
  | .enqueueListProjects key workstationId =>
    isGatewayId "idem" key && isGatewayId "ws" workstationId
  | .enqueueScanDrawings key projectId _ limit =>
    isGatewayId "idem" key && isGatewayId "prj" projectId && decide (1 ≤ limit ∧ limit ≤ 100)
  | .enqueueInspectDrawing key drawingId => isGatewayId "idem" key && isGatewayId "drw" drawingId
  | .enqueueCreatePublishPlan key drawingId =>
    isGatewayId "idem" key && isGatewayId "drw" drawingId
  | .enqueueTranslation key drawingId request =>
    isGatewayId "idem" key && isGatewayId "drw" drawingId && isTranslationRequest request
  | .getOperation operationId => isGatewayId "op" operationId

/-- An operation that some request of some principal queues. The service draws the identifier of
an operation as a UUID of version 4. -/
inductive Enqueued : OperationRecord → Prop where
  | intro {ctx : ServiceContext} {principal : PrincipalContext} {request : Request}
      {repo : InMemoryGatewayRepository} {p : Placement} :
      isPrincipal principal = true → isRequest request = true →
      isWireId "op" ctx.newOperationId = true →
      place ctx principal repo request = some (.ok p) →
      Enqueued (requestedOperation ctx principal p.workstation p.idempotencyKey p.task)

/-- The checks that a task leaves to rely on, besides its identifiers. -/
def TaskSound (workstationId : WorkstationId) : ReadTask → Prop
  | .validateEnvironment id => id = workstationId
  | .listProjects id => id = workstationId
  | .scanDrawings _ _ limit => 1 ≤ limit ∧ limit ≤ 100
  | .inspectDrawing _ => True
  | .createPublishPlan _ => True
  | .translation _ request =>
    isTranslationRequest request = true ∧ size request.toJson ≤ maxTranslationBatchBytes

/-- The request weighs no more than the batch that carries it. -/
theorem request_size_le (key : IdempotencyKey) (drawingId : DrawingId)
    (request : TranslationRequest) :
    size request.toJson ≤ (Text.utf8 (translationBatch key drawingId request)).length := by
  change size request.toJson ≤ size (.obj [("idempotency_key", .str key),
    ("drawing_id", .str drawingId), ("request", request.toJson)])
  rw [size_obj, fieldsSize_cons, fieldsSize_cons, fieldsSize_single]
  omega

theorem place_sound {ctx : ServiceContext} {principal : PrincipalContext} {request : Request}
    {repo : InMemoryGatewayRepository} {p : Placement} (hreq : isRequest request = true)
    (h : place ctx principal repo request = some (.ok p)) :
    TaskSound p.workstation.workstationId p.task := by
  cases request with
  | listWorkstations => cases h
  | listProjects => cases h
  | getOperation => cases h
  | enqueueValidateEnvironment key workstationId =>
    obtain ⟨_, _, h⟩ := bind_eq_ok.1 (Option.some.inj h)
    obtain ⟨workstation, _, h⟩ := bind_eq_ok.1 h
    rw [← pure_eq_ok.1 h]
    rfl
  | enqueueListProjects key workstationId =>
    obtain ⟨_, _, h⟩ := bind_eq_ok.1 (Option.some.inj h)
    obtain ⟨workstation, _, h⟩ := bind_eq_ok.1 h
    rw [← pure_eq_ok.1 h]
    rfl
  | enqueueScanDrawings key projectId recursive limit =>
    obtain ⟨_, _, h⟩ := bind_eq_ok.1 (Option.some.inj h)
    obtain ⟨⟨project, workstation⟩, _, h⟩ := bind_eq_ok.1 h
    rw [← pure_eq_ok.1 h]
    simp only [isRequest, Bool.and_eq_true, decide_eq_true_eq] at hreq
    exact hreq.2
  | enqueueInspectDrawing key drawingId =>
    obtain ⟨_, _, h⟩ := bind_eq_ok.1 (Option.some.inj h)
    obtain ⟨⟨drawing, workstation⟩, _, h⟩ := bind_eq_ok.1 h
    rw [← pure_eq_ok.1 h]
    trivial
  | enqueueCreatePublishPlan key drawingId =>
    obtain ⟨_, _, h⟩ := bind_eq_ok.1 (Option.some.inj h)
    obtain ⟨⟨drawing, workstation⟩, _, h⟩ := bind_eq_ok.1 h
    rw [← pure_eq_ok.1 h]
    trivial
  | enqueueTranslation key drawingId request =>
    obtain ⟨_, _, h⟩ := bind_eq_ok.1 (Option.some.inj h)
    obtain ⟨_, _, h⟩ := bind_eq_ok.1 h
    by_cases hbatch : maxTranslationBatchBytes <
      (Text.utf8 (translationBatch key drawingId request)).length
    · rw [if_pos hbatch] at h
      cases h
    rw [if_neg hbatch] at h
    obtain ⟨⟨drawing, workstation⟩, _, h⟩ := bind_eq_ok.1 h
    obtain ⟨_, _, h⟩ := bind_eq_ok.1 h
    rw [← pure_eq_ok.1 h]
    rw [isRequest, Bool.and_eq_true] at hreq
    exact ⟨hreq.2, Nat.le_trans (request_size_le key drawingId request) (Nat.le_of_not_lt hbatch)⟩

/-! ### What the wire makes of a task -/

/-- The command of the wire that carries a task. -/
def carried : ReadTask → RemoteCommand
  | .validateEnvironment _ => .validateEnvironment
  | .listProjects _ => .listProjects
  | .scanDrawings projectId recursive limit => .scanDrawings projectId recursive none limit
  | .inspectDrawing drawingId => .inspectDrawing drawingId
  | .createPublishPlan drawingId => .createPublishPlan drawingId
  | .translation drawingId request => .translation drawingId request

/-- The project or drawing that a task names is a UUID of version 4. -/
def taskVersionFour : ReadTask → Bool
  | .validateEnvironment _ => true
  | .listProjects _ => true
  | .scanDrawings projectId _ _ => isWireId "prj" projectId
  | .inspectDrawing drawingId => isWireId "drw" drawingId
  | .createPublishPlan drawingId => isWireId "drw" drawingId
  | .translation drawingId _ => isWireId "drw" drawingId

theorem isCommand_carried {w : WorkstationId} {task : ReadTask} (h : TaskSound w task) :
    isCommand (carried task) = taskVersionFour task := by
  cases task with
  | validateEnvironment => rfl
  | listProjects => rfl
  | scanDrawings projectId recursive limit =>
    have hlimit : decide (1 ≤ limit ∧ limit ≤ 100) = true := decide_eq_true h
    simp [carried, isCommand, taskVersionFour, hlimit]
  | inspectDrawing => rfl
  | createPublishPlan => rfl
  | translation drawingId request =>
    have hrequest : isTranslationRequest request = true := h.1
    simp [carried, isCommand, taskVersionFour, hrequest]

theorem checkedCommand_ok {error : DispatchError} {command command' : RemoteCommand} :
    checkedCommand error command = .ok command' ↔ isCommand command = true ∧ command = command' := by
  unfold checkedCommand
  split_ifs with h
  · simp [h]
  · simp [h]

theorem remoteCommand_ok {op : OperationRecord} {command : RemoteCommand}
    (h : TaskSound op.workstationId op.task) :
    remoteCommand op = .ok command ↔ taskVersionFour op.task = true ∧ carried op.task = command := by
  rw [← isCommand_carried h]
  unfold remoteCommand
  cases htask : op.task with
  | validateEnvironment id =>
    rw [htask] at h
    simp [carried, isCommand, show id = op.workstationId from h]
  | listProjects id =>
    rw [htask] at h
    simp [carried, isCommand, show id = op.workstationId from h]
  | scanDrawings => exact checkedCommand_ok
  | inspectDrawing => exact checkedCommand_ok
  | createPublishPlan => exact checkedCommand_ok
  | translation => exact checkedCommand_ok

/-! ### The dispatch of a leased operation -/

/-- The envelope that is signed for an operation and a lease. -/
def unsigned (ctx : DispatchContext) (op : OperationRecord) (l : Int) (command : RemoteCommand) :
    WorkerTaskEnvelope where
  policyVersion := ctx.policyVersion
  tenantId := op.tenantId
  userId := op.ownerSubjectId
  deviceId := op.workstationId
  taskId := String.ofList ("tsk_".toList ++ ctx.taskUuid)
  operationId := op.operationId
  commandId := String.ofList ("cmd_".toList ++ ctx.commandUuid)
  idempotencyKey := op.idempotencyKey
  nonce := ctx.nonce
  issuedAt := ctx.now
  expiresAt := min l (ctx.now + maxTaskLifetime)
  command := command
  signature := signaturePlaceholder

def signed (ctx : DispatchContext) (e : WorkerTaskEnvelope) : WorkerTaskEnvelope :=
  { e with signature := ctx.signDispatch (canonicalSigningBytes ctx.timestamp e) }

/-- An envelope with its correlation. -/
def dispatchOf (ctx : DispatchContext) (e : WorkerTaskEnvelope) (operationExpiresAt : Int)
    (h : (e.issuedAt < e.expiresAt ∧ e.expiresAt ≤ operationExpiresAt) ∧
      e.expiresAt - e.issuedAt ≤ maxTaskLifetime) : SignedDispatch where
  envelope := e
  correlation :=
    { tenantId := e.tenantId
      userId := e.userId
      deviceId := e.deviceId
      taskId := e.taskId
      operationId := e.operationId
      commandId := e.commandId
      nonce := e.nonce
      command := e.command
      issuedAt := e.issuedAt
      dispatchExpiresAt := e.expiresAt
      operationExpiresAt := operationExpiresAt
      deadlines := h.1
      lifetime := h.2 }
  dispatchSha256 := Text.hex (ctx.sha256 (canonicalSigningBytes ctx.timestamp e))

/-- An envelope carries every identifier of the operation, and its task. -/
structure Binds (e : WorkerTaskEnvelope) (op : OperationRecord) : Prop where
  tenant : e.tenantId = op.tenantId
  user : e.userId = op.ownerSubjectId
  device : e.deviceId = op.workstationId
  operation : e.operationId = op.operationId
  key : e.idempotencyKey = op.idempotencyKey
  task : e.command = carried op.task

section Build

variable {ctx : DispatchContext} {op : OperationRecord} {l : Int}

theorem isWireId_ofList {tag : String} {uuid : List Char} {text : String}
    (htext : text.toList = tag.toList ++ ['_'] ++ uuid) (h : isUuid versionFour uuid = true) :
    isWireId tag text = true := by
  have hlen : (tag.toList ++ ['_']).length = tag.toList.length + 1 := by simp
  rw [isWireId, isOpaqueId, htext, ← hlen, List.take_left, List.drop_left, h]
  simp

/-- What the wire model asks of an envelope that the adapter makes. -/
theorem validateEnvelope_unsigned {command : RemoteCommand} (hnow : ctx.now < l)
    (hcommand : isCommand command = true) :
    validateEnvelope (unsigned ctx op l command) =
      (isGatewayId "tnt" op.tenantId && isGatewayId "usr" op.ownerSubjectId &&
        isWireId "ws" op.workstationId && isWireId "op" op.operationId &&
        isWireId "idem" op.idempotencyKey) := by
  have htask : isWireId "tsk" (String.ofList ("tsk_".toList ++ ctx.taskUuid)) = true :=
    isWireId_ofList (by rw [String.toList_ofList]; rfl) ctx.taskUuidFour
  have hcommandId : isWireId "cmd" (String.ofList ("cmd_".toList ++ ctx.commandUuid)) = true :=
    isWireId_ofList (by rw [String.toList_ofList]; rfl) ctx.commandUuidFour
  have hlife : 0 < min l (ctx.now + maxTaskLifetime) - ctx.now ∧
      min l (ctx.now + maxTaskLifetime) - ctx.now ≤ maxTaskLifetime := by
    have hpos : (0 : Int) < maxTaskLifetime := by decide
    omega
  simp only [validateEnvelope, unsigned, ctx.policyRange, htask, hcommandId, ctx.nonceSafe,
    hcommand, hlife, and_self, decide_true, Bool.true_and, Bool.and_true]

theorem deadlines_unsigned {command : RemoteCommand} (hl : l ≤ op.expiresAt) (hnow : ctx.now < l) :
    ((signed ctx (unsigned ctx op l command)).issuedAt <
        (signed ctx (unsigned ctx op l command)).expiresAt ∧
      (signed ctx (unsigned ctx op l command)).expiresAt ≤ op.expiresAt) ∧
    (signed ctx (unsigned ctx op l command)).expiresAt -
      (signed ctx (unsigned ctx op l command)).issuedAt ≤ maxTaskLifetime := by
  have hpos : (0 : Int) < maxTaskLifetime := by decide
  simp only [signed, unsigned]
  omega

/-- A leased operation is built into an envelope exactly when the wire takes its command and the
envelope around it. -/
theorem build_ok {d : SignedDispatch} (hsound : TaskSound op.workstationId op.task)
    (hl : l ≤ op.expiresAt) (hnow : ctx.now < l) :
    build ctx (op.leased l) = .ok d ↔
      (taskVersionFour op.task = true ∧
        validateEnvelope (unsigned ctx op l (carried op.task)) = true) ∧
      dispatchOf ctx (signed ctx (unsigned ctx op l (carried op.task))) op.expiresAt
        (deadlines_unsigned hl hnow) = d := by
  have hlate : ¬(l ≤ ctx.now ∨ op.expiresAt ≤ ctx.now) := by omega
  have hbuild : build ctx (op.leased l) = remoteCommand (op.leased l) >>= fun command =>
      if ¬validateEnvelope (unsigned ctx op l command) = true then
        .error (.ingress "dispatch_invalid")
      else .ok (dispatchOf ctx (signed ctx (unsigned ctx op l command)) op.expiresAt
        (deadlines_unsigned hl hnow)) := by
    change (if l ≤ ctx.now ∨ op.expiresAt ≤ ctx.now then _ else _) = _
    rw [if_neg hlate]
    refine bind_congr fun command => ?_
    change (if ¬validateEnvelope (unsigned ctx op l command) = true then _ else _) = _
    refine if_congr Iff.rfl rfl ?_
    exact dif_pos (deadlines_unsigned hl hnow)
  rw [hbuild]
  constructor
  · intro h
    obtain ⟨command, hcommand, h⟩ := bind_eq_ok.1 h
    obtain ⟨hfour, rfl⟩ := (@remoteCommand_ok (op.leased l) _ hsound).1 hcommand
    split_ifs at h with hvalid
    exact ⟨⟨hfour, hvalid⟩, Except.ok.inj h⟩
  · rintro ⟨⟨hfour, hvalid⟩, rfl⟩
    have hcommand := (@remoteCommand_ok (op.leased l) _ hsound).2 ⟨hfour, rfl⟩
    exact bind_eq_ok.2 ⟨_, hcommand, if_neg (not_not_intro hvalid)⟩

/-- The workstation, the idempotency key and what the task names are UUIDs of version 4. -/
def VersionFour (op : OperationRecord) : Prop :=
  isWireId "ws" op.workstationId = true ∧ isWireId "idem" op.idempotencyKey = true ∧
    taskVersionFour op.task = true

theorem enqueued_sound (h : Enqueued op) :
    (isGatewayId "tnt" op.tenantId = true ∧ isGatewayId "usr" op.ownerSubjectId = true ∧
      isWireId "op" op.operationId = true) ∧ TaskSound op.workstationId op.task := by
  obtain ⟨hprincipal, hrequest, hid, hplace⟩ := h
  simp only [isPrincipal, Bool.and_eq_true] at hprincipal
  exact ⟨⟨hprincipal.1.1, hprincipal.1.2, hid⟩, place_sound hrequest hplace⟩

theorem requestSize_carried {w : WorkstationId} {task : ReadTask} (h : TaskSound w task) :
    requestSize (carried task) ≤ maxTranslationBatchBytes := by
  cases task with
  | translation => exact h.2
  | validateEnvironment | listProjects | scanDrawings | inspectDrawing | createPublishPlan =>
    exact Nat.zero_le _

theorem validateEnvelope_iff (hq : Enqueued op) (hnow : ctx.now < l) :
    (taskVersionFour op.task = true ∧
      validateEnvelope (unsigned ctx op l (carried op.task)) = true) ↔ VersionFour op := by
  obtain ⟨⟨htenant, huser, hid⟩, hsound⟩ := enqueued_sound hq
  have hvalid (hfour : taskVersionFour op.task = true) :
      validateEnvelope (unsigned ctx op l (carried op.task)) =
        (isWireId "ws" op.workstationId && isWireId "idem" op.idempotencyKey) := by
    rw [validateEnvelope_unsigned hnow ((isCommand_carried hsound).trans hfour), htenant, huser, hid]
    simp
  constructor
  · rintro ⟨hfour, h⟩
    rw [hvalid hfour, Bool.and_eq_true] at h
    exact ⟨h.1, h.2, hfour⟩
  · rintro ⟨hws, hkey, hfour⟩
    exact ⟨hfour, by rw [hvalid hfour, hws, hkey]; rfl⟩

/-- A queued operation under a lease is built into an envelope that carries all its identifiers and
fits a task payload exactly when those identifiers are UUIDs of version 4. -/
theorem dispatched_iff (hq : Enqueued op) (hl : l ≤ op.expiresAt) (hnow : ctx.now < l)
    (htime : ShortTimestamps ctx.timestamp) :
    (∃ d payload, build ctx (op.leased l) = .ok d ∧ Binds d.envelope op ∧
      serializeTaskPayload ctx.timestamp d.envelope = .ok payload) ↔ VersionFour op := by
  have hsound := (enqueued_sound hq).2
  rw [← validateEnvelope_iff hq hnow]
  constructor
  · rintro ⟨d, payload, h, -, -⟩
    exact ((build_ok hsound hl hnow).1 h).1
  · intro h
    obtain ⟨payload, hpayload⟩ := serializeTaskPayload_ok htime
      (e := signed ctx (unsigned ctx op l (carried op.task))) h.2 (requestSize_carried hsound)
    exact ⟨_, payload, (build_ok hsound hl hnow).2 ⟨h, rfl⟩, ⟨rfl, rfl, rfl, rfl, rfl, rfl⟩,
      hpayload⟩

end Build

/-! ### An operation under two idempotency keys -/

def requester : PrincipalContext where
  tenantId := "tnt_00000000-0000-4000-8000-000000000001"
  subjectId := "usr_00000000-0000-4000-8000-000000000001"
  clientId := "cli_00000000-0000-4000-8000-000000000001"
  scopes := [.read]

def onlineWorkstation : WorkstationRecord :=
  ⟨"ws_00000000-0000-4000-8000-000000000001", requester.tenantId, requester.subjectId,
    "Workstation A", true, true⟩

/-- The service at the first second of 2026, with the digest of the one request it gets. -/
def queueContext : ServiceContext where
  operationTtl := 900000000
  sha256 _ :=
    [99, 221, 153, 70, 188, 57, 52, 229, 100, 129, 48, 76, 141, 133, 128, 198, 63, 147, 202, 245,
      65, 244, 67, 95, 168, 168, 237, 24, 149, 56, 116, 154]
  approvalNow := 1767225600000000
  now := 1767225600000000
  newOperationId := "op_00000000-0000-4000-8000-000000000001"

def environmentCheck (key : IdempotencyKey) : OperationRecord :=
  requestedOperation queueContext requester onlineWorkstation key
    (.validateEnvironment onlineWorkstation.workstationId)

theorem environmentCheck_enqueued {key : IdempotencyKey} (h : isGatewayId "idem" key = true) :
    Enqueued (environmentCheck key) := by
  have hrequest : isRequest (.enqueueValidateEnvironment key onlineWorkstation.workstationId) =
      true := by
    rw [isRequest, h]
    decide +kernel
  have hplace : place queueContext requester
      ⟨Dict.empty.set onlineWorkstation.workstationId onlineWorkstation, Dict.empty, Dict.empty,
        Dict.empty, Dict.empty⟩
      (.enqueueValidateEnvironment key onlineWorkstation.workstationId) =
      some (.ok ⟨onlineWorkstation, key,
        .validateEnvironment onlineWorkstation.workstationId⟩) := rfl
  have hprincipal : isPrincipal requester = true := by decide +kernel
  have hid : isWireId "op" queueContext.newOperationId = true := by decide +kernel
  exact .intro hprincipal hrequest hid hplace

/-- The gateway ten seconds later, with the digest and signature of the one envelope it signs. -/
def dispatchContext : DispatchContext where
  policyVersion := 1
  policyRange := by decide
  signDispatch _ :=
    ⟨"_xDaFGV_35hX1IueHlgrAwBVNKRKN0XWtMyMmzIWZdORJEDcLtgFdM374Eq-qh-E7J4FD5LN3ar6gIeBERiNBQ".toList,
      by decide, by decide⟩
  sha256 _ :=
    [169, 95, 14, 170, 27, 119, 114, 61, 166, 226, 210, 2, 100, 22, 95, 240, 167, 81, 195, 214,
      120, 199, 45, 68, 0, 253, 23, 65, 120, 189, 132, 157]
  timestamp t :=
    if t = 1767225610000000 then "2026-01-01T00:00:10Z" else "2026-01-01T00:00:40Z"
  now := 1767225610000000
  taskUuid := "00000000-0000-4000-8000-000000000001".toList
  taskUuidFour := by decide +kernel
  commandUuid := "00000000-0000-4000-8000-000000000001".toList
  commandUuidFour := by decide +kernel
  nonce := "nnnnnnnnnnnnnnnnnnnnnnnnnnnnnnnnnnnnnnnnnnn"
  nonceSafe := by decide +kernel

theorem dispatchContext_short : ShortTimestamps dispatchContext.timestamp := by
  intro t
  change (if t = 1767225610000000 then "2026-01-01T00:00:10Z" else "2026-01-01T00:00:40Z").toList.all
    isPlain = true ∧ (if t = 1767225610000000 then "2026-01-01T00:00:10Z"
      else "2026-01-01T00:00:40Z").toList.length ≤ 32
  split_ifs <;> decide

theorem dispatched_iff_environmentCheck :
    ∃ d payload, build dispatchContext
        ((environmentCheck "idem_00000000-0000-4000-8000-000000000001").leased
          1767225640000000) = .ok d ∧
      Binds d.envelope (environmentCheck "idem_00000000-0000-4000-8000-000000000001") ∧
      serializeTaskPayload dispatchContext.timestamp d.envelope = .ok payload :=
  (dispatched_iff (environmentCheck_enqueued (by decide +kernel)) (by decide) (by decide)
    dispatchContext_short).2 ⟨by decide +kernel, by decide +kernel, rfl⟩

/-- The gateway queues an operation under a version 1 idempotency key and cannot dispatch it. -/
theorem version_one_key_stranded :
    Enqueued (environmentCheck "idem_00000000-0000-1000-8000-000000000001") ∧
    (1767225640000000 : Int) ≤
      (environmentCheck "idem_00000000-0000-1000-8000-000000000001").expiresAt ∧
    dispatchContext.now < 1767225640000000 ∧
    ShortTimestamps dispatchContext.timestamp ∧
    (build dispatchContext
      ((environmentCheck "idem_00000000-0000-1000-8000-000000000001").leased
        1767225640000000)).isOk = false :=
  ⟨environmentCheck_enqueued (by decide +kernel), by decide, by decide, dispatchContext_short,
    by decide +kernel⟩

end CadPlot.Gateway.Dispatch
