import CadPlot.Gateway.ResultAdaptation
import CadPlot.Lib.Calendar
import CadPlot.Lib.JsonCodec

/-!
# The wire models

Every model that the gateway and a workstation exchange, with its fields, their
checks and defaults in the order of the declarations. The model library is a
parameter with what it documents: it reads a moment that it wrote, and a JSON
text that it wrote. Its numbers with a fraction are finite. The conversions it
makes of other JSON than its own are left out.
-/

namespace CadPlot.Protocol.Wire

open Gateway JsonCodec Calendar

/-- What the models rely on of the library: the numbers with a fraction and their bounds, moments
with their offsets, JSON, and `json.dumps` with sorted keys. -/
structure ModelLibrary (φ : Type) where
  unitInterval : φ → Bool
  positive : φ → Bool
  parseDatetime : String → Option (DateTime × Option Int)
  toJson : JsonValue φ → List Char
  ofJson : List Char → Option (JsonValue φ)
  dumps : JsonValue φ → List Char
  parseDatetime_zulu : ∀ d, parseDatetime (String.ofList d.zulu) = some (d, some 0)
  ofJson_toJson : ∀ v, ofJson (toJson v) = some v
  braces : ∀ fields, 2 ≤ (toJson (.obj fields)).length

/-! ### Texts -/

/-- `^[A-Za-z0-9][A-Za-z0-9_-]{0,63}$` -/
def isSafeAlias (value : String) : Bool :=
  match value.toList with
  | [] => false
  | c :: cs => c.isAlphanum && decide (cs.length ≤ 63) &&
      cs.all fun d => d.isAlphanum || d = '_' || d = '-'

/-- `^R[0-9]{2}\.[0-9]$` -/
def isRuntimeSeries (value : String) : Bool :=
  match value.toList with
  | ['R', a, b, '.', c] => a.isDigit && b.isDigit && c.isDigit
  | _ => false

/-- `^[0-9A-Fa-f]{1,32}$` -/
def isFrameHandle (value : String) : Bool :=
  decide (1 ≤ value.toList.length ∧ value.toList.length ≤ 32) &&
    value.toList.all fun c => c.isDigit || decide ('A' ≤ c ∧ c ≤ 'F') || decide ('a' ≤ c ∧ c ≤ 'f')

/-- `^[A-Za-z0-9_-]{86}$` -/
def isSignature (value : String) : Bool :=
  decide (value.toList.length = 86) &&
    value.toList.all fun c => c.isAlphanum || c = '_' || c = '-'

def isSha256 (value : String) : Bool := isLowerHexText 64 value.toList

/-- `^translation-[0-9a-f]{32}$` -/
def isOutputId (value : String) : Bool :=
  value.toList.take 12 = "translation-".toList && isLowerHexText 32 (value.toList.drop 12)

section Texts

variable {φ : Type}

/-- A field of one text, its default. -/
def fixedText {α : Type} (name value : String) (rest : Fields φ α) : Fields φ α :=
  .literal name (.str fun s => decide (s = value)) value false (decide_self value) rest

/-- A field of one number, its default. -/
def fixedNumber {α : Type} (name : String) (n : Nat) (rest : Fields φ α) : Fields φ α :=
  .literal name (.nat n n) n false (decide_eq_true ⟨le_refl n, le_refl n⟩) rest

/-- A field of one truth value, which may have to be there. -/
def fixedFlag {α : Type} (name : String) (value required : Bool) (rest : Fields φ α) :
    Fields φ α :=
  .literal name .bool value required (by rw [Codec.bool]) rest

@[simp] theorem fixedText_names {α : Type} (name value : String) (rest : Fields φ α) :
    (fixedText name value rest).names = name :: rest.names := rfl

@[simp] theorem fixedNumber_names {α : Type} (name : String) (n : Nat) (rest : Fields φ α) :
    (fixedNumber name n rest).names = name :: rest.names := rfl

@[simp] theorem fixedFlag_names {α : Type} (name : String) (value required : Bool)
    (rest : Fields φ α) : (fixedFlag name value required rest).names = name :: rest.names := rfl

def opaqueId (tag : String) : Codec φ String := .str (isWireId tag)

def hashId : Codec φ String := .str isHashId

def display : Codec φ String := .str Ingress.isSafeDisplay

def count : Codec φ Nat := .nat 0 countLimit

def optionalText (check : String → Bool) : Codec φ (Option String) :=
  (Codec.str check).optional fun _ h => by cases h

def safeCode : Codec φ SafeCode :=
  (Codec.str isSafeCode).refine
    (fun s => if h : isSafeCode s = true then some ⟨s, h⟩ else none) SafeCode.value
    fun code => dif_pos code.safe

def noticeCodes : Codec φ (List SafeCode) := .list 0 5000 safeCode

/-- A moment, which has to come with the offset of UTC. -/
def moment (lib : ModelLibrary φ) : Codec φ DateTime where
  encode d := .str (String.ofList d.zulu)
  decode
    | .str s =>
      match lib.parseDatetime s with
      | some (d, offset) => if offset = some 0 then some d else none
      | none => none
    | _ => none
  valid _ := true
  decode_encode d _ := by simp [lib.parseDatetime_zulu]

end Texts

/-! ### Commands -/

section Commands

variable {φ : Type}

def languageText : SourceLanguage → String
  | .tr => "tr"
  | .en => "en"
  | .other => "other"
  | .uncertain => "uncertain"

def sourceLanguage : Codec φ SourceLanguage :=
  .enumeration languageText [.tr, .en, .other, .uncertain] fun a => by cases a <;> rfl

def remoteDecision : Codec φ RemoteDecision :=
  (Codec.record (.field "span_id" (.str isIdentifier) none <|
    .field "source" (.str isDecisionText) none <|
    .field "source_language" sourceLanguage none <|
    .field "target" (.str isDecisionText) none .nil) (by simp)).view
    (fun x => ⟨x.1, x.2.1, x.2.2.1, x.2.2.2.1⟩)
    (fun d => (d.spanId, d.source, d.sourceLanguage, d.target, ())) fun _ => rfl

def scanTexts : Variant φ "operation" "scan" (Option String × Nat × Nat × Unit) :=
  .record "scan" (.field "inventory_id" (optionalText isHashId) (some none) <|
    .field "offset" count (some 0) <| .field "limit" (.nat 1 100) (some 25) .nil)
    (by simp) (by simp)

def submitReview :
    Variant φ "operation" "review" (String × Option String × List RemoteDecision × Unit) :=
  .record "review" (.field "inventory_id" hashId none <|
    .field "expected_review_id" (optionalText isHashId) (some none) <|
    .field "decisions" (.list 1 100 remoteDecision) none .nil) (by simp) (by simp)

def planTranslation : Variant φ "operation" "plan" (String × String × Nat × Nat × Unit) :=
  .record "plan" (.field "inventory_id" hashId none <| .field "review_id" hashId none <|
    .field "offset" count (some 0) <| .field "limit" (.nat 1 100) (some 25) .nil)
    (by simp) (by simp)

def applyTranslation : Variant φ "operation" "apply" (String × String × String × String × Unit) :=
  .record "apply" (.field "inventory_id" hashId none <| .field "review_id" hashId none <|
    .field "approved_plan_id" hashId none <|
    .field "plan_operation_id" (opaqueId "op") none .nil) (by simp) (by simp)

def translationRequest : Codec φ TranslationRequest where
  encode
    | .scan inventoryId offset limit => scanTexts.encode (inventoryId, offset, limit, ())
    | .review inventoryId expectedReviewId decisions =>
      submitReview.encode (inventoryId, expectedReviewId, decisions, ())
    | .plan inventoryId reviewId offset limit =>
      planTranslation.encode (inventoryId, reviewId, offset, limit, ())
    | .apply inventoryId reviewId approvedPlanId planOperationId =>
      applyTranslation.encode (inventoryId, reviewId, approvedPlanId, planOperationId, ())
  decode v :=
    let tag := discriminator "operation" v
    if tag = some "scan" then (scanTexts.decode v).map fun x => .scan x.1 x.2.1 x.2.2.1
    else if tag = some "review" then
      (submitReview.decode v).map fun x => .review x.1 x.2.1 x.2.2.1
    else if tag = some "plan" then
      (planTranslation.decode v).map fun x => .plan x.1 x.2.1 x.2.2.1 x.2.2.2.1
    else if tag = some "apply" then
      (applyTranslation.decode v).map fun x => .apply x.1 x.2.1 x.2.2.1 x.2.2.2.1
    else none
  valid
    | .scan inventoryId offset limit =>
      (scanTexts (φ := φ)).valid (inventoryId, offset, limit, ())
    | .review inventoryId expectedReviewId decisions =>
      (submitReview (φ := φ)).valid (inventoryId, expectedReviewId, decisions, ())
    | .plan inventoryId reviewId offset limit =>
      (planTranslation (φ := φ)).valid (inventoryId, reviewId, offset, limit, ())
    | .apply inventoryId reviewId approvedPlanId planOperationId =>
      (applyTranslation (φ := φ)).valid
        (inventoryId, reviewId, approvedPlanId, planOperationId, ())
  decode_encode r h := by
    cases r with
    | scan inventoryId offset limit =>
      simp [scanTexts.tagged, scanTexts.decode_encode _ h]
    | review inventoryId expectedReviewId decisions =>
      simp [submitReview.tagged, submitReview.decode_encode _ h]
    | plan inventoryId reviewId offset limit =>
      simp [planTranslation.tagged, planTranslation.decode_encode _ h]
    | apply inventoryId reviewId approvedPlanId planOperationId =>
      simp [applyTranslation.tagged, applyTranslation.decode_encode _ h]

def validateEnvironmentCommand : Variant φ "action" "validate_environment" Unit :=
  .record "validate_environment" .nil (by simp) (by simp)

def listProjectsCommand : Variant φ "action" "list_projects" Unit :=
  .record "list_projects" .nil (by simp) (by simp)

def scanDrawingsCommand :
    Variant φ "action" "scan_drawings" (String × Bool × Option String × Nat × Unit) :=
  .record "scan_drawings" (.field "project_id" (opaqueId "prj") none <|
    .field "recursive" .bool (some true) <|
    .field "cursor" (optionalText (isWireId "cur")) (some none) <|
    .field "limit" (.nat 1 100) (some 50) .nil) (by simp) (by simp)

def inspectDrawingCommand : Variant φ "action" "inspect_drawing" (String × Unit) :=
  .record "inspect_drawing" (.field "drawing_id" (opaqueId "drw") none .nil) (by simp) (by simp)

def createPublishPlanCommand : Variant φ "action" "create_publish_plan" (String × Unit) :=
  .record "create_publish_plan" (.field "drawing_id" (opaqueId "drw") none .nil) (by simp) (by simp)

def translationCommand : Variant φ "action" "translation" (String × TranslationRequest × Unit) :=
  .record "translation" (.field "drawing_id" (opaqueId "drw") none <|
    .field "request" translationRequest none .nil) (by simp) (by simp)

/-- `ReadOnlyCommand` -/
def readOnlyCommand : Codec φ RemoteCommand where
  encode
    | .validateEnvironment => validateEnvironmentCommand.encode ()
    | .listProjects => listProjectsCommand.encode ()
    | .scanDrawings projectId recursive cursor limit =>
      scanDrawingsCommand.encode (projectId, recursive, cursor, limit, ())
    | .inspectDrawing drawingId => inspectDrawingCommand.encode (drawingId, ())
    | .createPublishPlan drawingId => createPublishPlanCommand.encode (drawingId, ())
    | .translation drawingId request => translationCommand.encode (drawingId, request, ())
  decode v :=
    let tag := discriminator "action" v
    if tag = some "validate_environment" then
      (validateEnvironmentCommand.decode v).map fun _ => .validateEnvironment
    else if tag = some "list_projects" then
      (listProjectsCommand.decode v).map fun _ => .listProjects
    else if tag = some "scan_drawings" then
      (scanDrawingsCommand.decode v).map fun x => .scanDrawings x.1 x.2.1 x.2.2.1 x.2.2.2.1
    else if tag = some "inspect_drawing" then
      (inspectDrawingCommand.decode v).map fun x => .inspectDrawing x.1
    else if tag = some "create_publish_plan" then
      (createPublishPlanCommand.decode v).map fun x => .createPublishPlan x.1
    else if tag = some "translation" then
      (translationCommand.decode v).map fun x => .translation x.1 x.2.1
    else none
  valid
    | .validateEnvironment | .listProjects => true
    | .scanDrawings projectId recursive cursor limit =>
      (scanDrawingsCommand (φ := φ)).valid (projectId, recursive, cursor, limit, ())
    | .inspectDrawing drawingId => (inspectDrawingCommand (φ := φ)).valid (drawingId, ())
    | .createPublishPlan drawingId => (createPublishPlanCommand (φ := φ)).valid (drawingId, ())
    | .translation drawingId request =>
      (translationCommand (φ := φ)).valid (drawingId, request, ())
  decode_encode r h := by
    cases r with
    | validateEnvironment =>
      simp [validateEnvironmentCommand.tagged, validateEnvironmentCommand.decode_encode () rfl]
    | listProjects => simp [listProjectsCommand.tagged, listProjectsCommand.decode_encode () rfl]
    | scanDrawings projectId recursive cursor limit =>
      simp [scanDrawingsCommand.tagged, scanDrawingsCommand.decode_encode _ h]
    | inspectDrawing drawingId =>
      simp [inspectDrawingCommand.tagged, inspectDrawingCommand.decode_encode _ h]
    | createPublishPlan drawingId =>
      simp [createPublishPlanCommand.tagged, createPublishPlanCommand.decode_encode _ h]
    | translation drawingId request =>
      simp [translationCommand.tagged, translationCommand.decode_encode _ h]

end Commands

/-! ### Results -/

structure EnvironmentResult where
  ready : Bool
  autocadConnected : Bool
  pluginConnected : Bool
  publishEnabled : Bool
  runtimeSeries : Option String
  inspectionIdentityMatched : Bool
  errorCodes : List SafeCode

structure ProjectSummary where
  projectId : ProjectId
  aliasName : String
  displayName : String
  enabled : Bool

structure DrawingSummary where
  drawingId : DrawingId
  displayName : String
  sizeBytes : Nat
  modifiedUtc : DateTime

structure DrawingsResult where
  projectId : ProjectId
  catalogRevision : String
  drawings : List DrawingSummary
  nextCursor : Option String

/-- A layout, or a page setup. -/
structure LayoutSummary where
  name : String
  modelType : Bool
  plotter : Option String
  mediaName : Option String
  plotStyle : Option String

structure FrameSummary (φ : Type) where
  handle : String
  layer : String
  label : String
  minPoint : φ × φ × φ
  maxPoint : φ × φ × φ
  confidence : φ

structure InspectionResult (φ : Type) where
  drawingId : DrawingId
  layouts : List LayoutSummary
  pageSetups : List LayoutSummary
  frames : List (FrameSummary φ)
  noticeCodes : List SafeCode

inductive PlanSheetStatus where
  | matched | unmatched | disallowedFrameLayer | lowConfidence | pageSetupMismatch
  | templateLayoutMismatch | templateAssetMismatch | unsupportedScale | layoutConflict
  deriving DecidableEq

structure PlanSheetSummary (φ : Type) where
  sheetIndex : Nat
  frameHandle : String
  label : String
  status : PlanSheetStatus
  profileId : Option String
  targetLayout : String
  scaleDenominator : Option φ

structure PublishPlanResult (φ : Type) where
  drawingId : DrawingId
  planId : PlanId
  ready : Bool
  drawingSha256 : String
  sheets : List (PlanSheetSummary φ)
  noticeCodes : List SafeCode

structure ErrorResult where
  action : TaskCommand
  code : SafeCode
  retryable : Bool
  attentionRequired : Bool

inductive WorkerResult (φ : Type) where
  | environment (result : EnvironmentResult)
  | projects (projects : List ProjectSummary)
  | drawings (result : DrawingsResult)
  | inspection (result : InspectionResult φ)
  | publishPlan (result : PublishPlanResult φ)
  | translation (drawingId : DrawingId) (response : TranslationResponse)
  | error (result : ErrorResult)

section Results

variable {φ : Type} (lib : ModelLibrary φ)

def environmentResult : Variant φ "kind" "validate_environment" EnvironmentResult :=
  (Variant.record "validate_environment" (.field "ready" .bool none <|
    .field "autocad_connected" .bool none <| .field "plugin_connected" .bool none <|
    .field "publish_enabled" .bool none <|
    .field "runtime_series" (optionalText isRuntimeSeries) (some none) <|
    .field "inspection_identity_matched" .bool none <|
    .field "error_codes" noticeCodes (some []) .nil) (by simp) (by simp)).view
    (fun x => ⟨x.1, x.2.1, x.2.2.1, x.2.2.2.1, x.2.2.2.2.1, x.2.2.2.2.2.1, x.2.2.2.2.2.2.1⟩)
    (fun r => (r.ready, r.autocadConnected, r.pluginConnected, r.publishEnabled, r.runtimeSeries,
      r.inspectionIdentityMatched, r.errorCodes, ())) fun _ => rfl

def projectSummary : Codec φ ProjectSummary :=
  (Codec.record (.field "project_id" (opaqueId "prj") none <|
    .field "alias" (.str isSafeAlias) none <| .field "display_name" display none <|
    .field "enabled" .bool (some true) .nil) (by simp)).view
    (fun x => ⟨x.1, x.2.1, x.2.2.1, x.2.2.2.1⟩)
    (fun p => (p.projectId, p.aliasName, p.displayName, p.enabled, ())) fun _ => rfl

def projectsResult : Variant φ "kind" "list_projects" (List ProjectSummary × Unit) :=
  .record "list_projects" (.field "projects" (.list 0 100 projectSummary) none .nil)
    (by simp) (by simp)

def drawingSummary : Codec φ DrawingSummary :=
  (Codec.record (.field "drawing_id" (opaqueId "drw") none <|
    .field "display_name" (.str Ingress.isDrawingDisplay) none <|
    .field "size_bytes" (.nat 0 9223372036854775807) none <|
    .field "modified_utc" (moment lib) none .nil) (by simp)).view
    (fun x => ⟨x.1, x.2.1, x.2.2.1, x.2.2.2.1⟩)
    (fun d => (d.drawingId, d.displayName, d.sizeBytes, d.modifiedUtc, ())) fun _ => rfl

def drawingsResult : Variant φ "kind" "scan_drawings" DrawingsResult :=
  (Variant.record "scan_drawings" (.field "project_id" (opaqueId "prj") none <|
    .field "catalog_revision" (.str isSha256) none <|
    .field "drawings" (.list 0 100 (drawingSummary lib)) none <|
    .field "next_cursor" (optionalText (isWireId "cur")) (some none) .nil) (by simp) (by simp)).view
    (fun x => ⟨x.1, x.2.1, x.2.2.1, x.2.2.2.1⟩)
    (fun r => (r.projectId, r.catalogRevision, r.drawings, r.nextCursor, ())) fun _ => rfl

def optionalDisplay : Codec φ (Option String) := optionalText Ingress.isSafeDisplay

def layoutSummary : Codec φ LayoutSummary :=
  (Codec.record (.field "name" display none <| .field "model_type" .bool none <|
    .field "plotter" optionalDisplay (some none) <|
    .field "media_name" optionalDisplay (some none) <|
    .field "plot_style" optionalDisplay (some none) .nil) (by simp)).view
    (fun x => ⟨x.1, x.2.1, x.2.2.1, x.2.2.2.1, x.2.2.2.2.1⟩)
    (fun l => (l.name, l.modelType, l.plotter, l.mediaName, l.plotStyle, ())) fun _ => rfl

def frameSummary : Codec φ (FrameSummary φ) :=
  (Codec.record (.field "handle" (.str isFrameHandle) none <| .field "layer" display none <|
    .field "label" display none <| .field "min_point" (.triple (.float fun _ => true)) none <|
    .field "max_point" (.triple (.float fun _ => true)) none <|
    .field "confidence" (.float lib.unitInterval) none .nil) (by simp)).view
    (fun x => ⟨x.1, x.2.1, x.2.2.1, x.2.2.2.1, x.2.2.2.2.1, x.2.2.2.2.2.1⟩)
    (fun f => (f.handle, f.layer, f.label, f.minPoint, f.maxPoint, f.confidence, ())) fun _ => rfl

def inspectionResult : Variant φ "kind" "inspect_drawing" (InspectionResult φ) :=
  (Variant.record "inspect_drawing" (.field "drawing_id" (opaqueId "drw") none <|
    .field "layouts" (.list 0 5000 layoutSummary) none <|
    .field "page_setups" (.list 0 1000 layoutSummary) none <|
    .field "frames" (.list 0 5000 (frameSummary lib)) none <|
    .field "notice_codes" noticeCodes (some []) .nil) (by simp) (by simp)).view
    (fun x => ⟨x.1, x.2.1, x.2.2.1, x.2.2.2.1, x.2.2.2.2.1⟩)
    (fun r => (r.drawingId, r.layouts, r.pageSetups, r.frames, r.noticeCodes, ())) fun _ => rfl

def statusText : PlanSheetStatus → String
  | .matched => "matched"
  | .unmatched => "unmatched"
  | .disallowedFrameLayer => "disallowed_frame_layer"
  | .lowConfidence => "low_confidence"
  | .pageSetupMismatch => "page_setup_mismatch"
  | .templateLayoutMismatch => "template_layout_mismatch"
  | .templateAssetMismatch => "template_asset_mismatch"
  | .unsupportedScale => "unsupported_scale"
  | .layoutConflict => "layout_conflict"

def planSheetStatus : Codec φ PlanSheetStatus :=
  .enumeration statusText
    [.matched, .unmatched, .disallowedFrameLayer, .lowConfidence, .pageSetupMismatch,
      .templateLayoutMismatch, .templateAssetMismatch, .unsupportedScale, .layoutConflict]
    fun a => by cases a <;> rfl

def planSheetSummary : Codec φ (PlanSheetSummary φ) :=
  (Codec.record (.field "sheet_index" (.nat 1 5000) none <|
    .field "frame_handle" (.str isFrameHandle) none <| .field "label" display none <|
    .field "status" planSheetStatus none <|
    .field "profile_id" (optionalText isSafeAlias) (some none) <|
    .field "target_layout" display none <|
    .field "scale_denominator" ((Codec.float lib.positive).optional fun _ h => by cases h)
      (some none) .nil) (by simp)).view
    (fun x => ⟨x.1, x.2.1, x.2.2.1, x.2.2.2.1, x.2.2.2.2.1, x.2.2.2.2.2.1, x.2.2.2.2.2.2.1⟩)
    (fun s => (s.sheetIndex, s.frameHandle, s.label, s.status, s.profileId, s.targetLayout,
      s.scaleDenominator, ())) fun _ => rfl

def publishPlanResult : Variant φ "kind" "create_publish_plan" (PublishPlanResult φ) :=
  (Variant.record "create_publish_plan"
    (fixedNumber "plan_schema_version" 1 <|
      .field "drawing_id" (opaqueId "drw") none <| .field "plan_id" (.str isHashId) none <|
      .field "ready" .bool none <| .field "drawing_sha256" (.str isSha256) none <|
      .field "sheets" (.list 0 5000 (planSheetSummary lib)) none <|
      .field "notice_codes" noticeCodes (some []) .nil) (by simp) (by simp)).view
    (fun x => ⟨x.1, x.2.1, x.2.2.1, x.2.2.2.1, x.2.2.2.2.1, x.2.2.2.2.2.1⟩)
    (fun r => (r.drawingId, r.planId, r.ready, r.drawingSha256, r.sheets, r.noticeCodes, ()))
    fun _ => rfl

def actionText : TaskCommand → String
  | .validateEnvironment => "validate_environment"
  | .listProjects => "list_projects"
  | .scanDrawings => "scan_drawings"
  | .inspectDrawing => "inspect_drawing"
  | .createPublishPlan => "create_publish_plan"
  | .translation => "translation"

def readOnlyAction : Codec φ TaskCommand :=
  .enumeration actionText
    [.validateEnvironment, .listProjects, .scanDrawings, .inspectDrawing, .createPublishPlan,
      .translation] fun a => by cases a <;> rfl

def errorResult : Variant φ "kind" "error" ErrorResult :=
  (Variant.record "error" (.field "action" readOnlyAction none <| .field "code" safeCode none <|
    .field "retryable" .bool none <|
    .field "attention_required" .bool (some false) .nil) (by simp) (by simp)).view
    (fun x => ⟨x.1, x.2.1, x.2.2.1, x.2.2.2.1⟩)
    (fun r => (r.action, r.code, r.retryable, r.attentionRequired, ())) fun _ => rfl

def text : Codec φ String := .str (isText textLimit)

def optionalCount : Codec φ (Option Nat) := count.optional fun _ h => by cases h

def blockerCodes : Codec φ (List SafeCode) := .list 0 100 safeCode

def span : Codec φ TranslationSpan :=
  (Codec.record (.field "id" (.str isIdentifier) none <| .field "text" text none <|
    .field "normalized_for_search" text none .nil) (by simp)).view
    (fun x => ⟨x.1, x.2.1, x.2.2.1⟩)
    (fun s => (s.id, s.text, s.normalizedForSearch, ())) fun _ => rfl

def translationRecord : Codec φ TranslationRecord :=
  (Codec.record (.field "id" (.str isIdentifier) none <| .field "kind" (.str isIdentifier) none <|
    .field "block" (.str (isText nameLimit)) none <|
    .field "layer" (.str (isText nameLimit)) none <| .field "raw" text none <|
    .field "spans" (.list 0 textLimit span) none <| .field "writable" .bool none .nil)
    (by simp)).view
    (fun x => ⟨x.1, x.2.1, x.2.2.1, x.2.2.2.1, x.2.2.2.2.1, x.2.2.2.2.2.1, x.2.2.2.2.2.2.1⟩)
    (fun r => (r.id, r.kind, r.block, r.layer, r.raw, r.spans, r.writable, ())) fun _ => rfl

def change : Codec φ TranslationChange :=
  (Codec.record (.field "record_id" (.str isIdentifier) none <| .field "before" text none <|
    .field "after" text none .nil) (by simp)).view
    (fun x => ⟨x.1, x.2.1, x.2.2.1⟩) (fun c => (c.recordId, c.before, c.after, ())) fun _ => rfl

def scanResult : Variant φ "operation" "scan" (String × Nat × Nat × Nat × Option Nat ×
    List TranslationRecord × Nat × List SafeCode × Unit) :=
  .record "scan" (.field "inventory_id" hashId none <| .field "total_records" count none <|
    .field "total_review_spans" (.nat 0 reviewLimit) none <| .field "offset" count none <|
    .field "next_offset" optionalCount none <|
    .field "records" (.list 0 100 translationRecord) none <|
    .field "blocker_count" count none <|
    .field "blocker_codes" blockerCodes none .nil) (by simp) (by simp)

def reviewResult : Variant φ "operation" "review" (String × String × Nat × Unit) :=
  .record "review" (.field "inventory_id" hashId none <| .field "review_id" hashId none <|
    .field "reviewed_spans" count none .nil) (by simp) (by simp)

def planResult : Variant φ "operation" "plan" (String × String × String × Bool × Nat × Nat × Nat ×
    Option Nat × List TranslationChange × Nat × List SafeCode × Unit) :=
  .record "plan" (.field "inventory_id" hashId none <| .field "review_id" hashId none <|
    .field "plan_id" hashId none <| .field "ready" .bool none <|
    .field "changed_records" count none <| .field "reviewed_spans" count none <|
    .field "offset" count none <| .field "next_offset" optionalCount none <|
    .field "changes" (.list 0 100 change) none <| .field "blocker_count" count none <|
    .field "blocker_codes" blockerCodes none .nil) (by simp) (by simp)

def applyResult : Variant φ "operation" "apply" (String × String × String × String × String × Nat ×
    Unit) :=
  .record "apply" (.field "inventory_id" hashId none <| .field "review_id" hashId none <|
    .field "plan_id" hashId none <| .field "output_id" (.str isOutputId) none <|
    .field "output_sha256" (.str isSha256) none <| .field "changed_records" count none <|
    fixedFlag "source_unchanged" true true <|
    fixedFlag "text_roundtrip_verified" true true <|
    fixedFlag "inspected_structure_unchanged" true true <|
    fixedFlag "visual_review_required" true false <|
    fixedFlag "full_geometry_proven" false false .nil) (by simp) (by simp)

def translationResponse : Codec φ TranslationResponse where
  encode
    | .scan inventoryId totalRecords totalReviewSpans offset nextOffset records blockerCount
        codes =>
      scanResult.encode (inventoryId, totalRecords, totalReviewSpans, offset, nextOffset, records,
        blockerCount, codes, ())
    | .review inventoryId reviewId reviewedSpans =>
      reviewResult.encode (inventoryId, reviewId, reviewedSpans, ())
    | .plan inventoryId reviewId planId ready changedRecords reviewedSpans offset nextOffset changes
        blockerCount codes =>
      planResult.encode (inventoryId, reviewId, planId, ready, changedRecords, reviewedSpans,
        offset, nextOffset, changes, blockerCount, codes, ())
    | .apply inventoryId reviewId planId outputId outputSha256 changedRecords =>
      applyResult.encode (inventoryId, reviewId, planId, outputId, outputSha256, changedRecords, ())
  decode v :=
    let tag := discriminator "operation" v
    if tag = some "scan" then
      (scanResult.decode v).map fun x => .scan x.1 x.2.1 x.2.2.1 x.2.2.2.1 x.2.2.2.2.1
        x.2.2.2.2.2.1 x.2.2.2.2.2.2.1 x.2.2.2.2.2.2.2.1
    else if tag = some "review" then
      (reviewResult.decode v).map fun x => .review x.1 x.2.1 x.2.2.1
    else if tag = some "plan" then
      (planResult.decode v).map fun x => .plan x.1 x.2.1 x.2.2.1 x.2.2.2.1 x.2.2.2.2.1
        x.2.2.2.2.2.1 x.2.2.2.2.2.2.1 x.2.2.2.2.2.2.2.1 x.2.2.2.2.2.2.2.2.1 x.2.2.2.2.2.2.2.2.2.1
        x.2.2.2.2.2.2.2.2.2.2.1
    else if tag = some "apply" then
      (applyResult.decode v).map fun x => .apply x.1 x.2.1 x.2.2.1 x.2.2.2.1 x.2.2.2.2.1
        x.2.2.2.2.2.1
    else none
  valid
    | .scan inventoryId totalRecords totalReviewSpans offset nextOffset records blockerCount
        codes =>
      (scanResult (φ := φ)).valid (inventoryId, totalRecords, totalReviewSpans, offset, nextOffset,
        records, blockerCount, codes, ())
    | .review inventoryId reviewId reviewedSpans =>
      (reviewResult (φ := φ)).valid (inventoryId, reviewId, reviewedSpans, ())
    | .plan inventoryId reviewId planId ready changedRecords reviewedSpans offset nextOffset changes
        blockerCount codes =>
      (planResult (φ := φ)).valid (inventoryId, reviewId, planId, ready, changedRecords,
        reviewedSpans, offset, nextOffset, changes, blockerCount, codes, ())
    | .apply inventoryId reviewId planId outputId outputSha256 changedRecords =>
      (applyResult (φ := φ)).valid
        (inventoryId, reviewId, planId, outputId, outputSha256, changedRecords, ())
  decode_encode r h := by
    cases r with
    | scan => simp [scanResult.tagged, scanResult.decode_encode _ h]
    | review => simp [reviewResult.tagged, reviewResult.decode_encode _ h]
    | plan => simp [planResult.tagged, planResult.decode_encode _ h]
    | apply => simp [applyResult.tagged, applyResult.decode_encode _ h]

def translationResult : Variant φ "kind" "translation" (String × TranslationResponse × Unit) :=
  .record "translation" (.field "drawing_id" (opaqueId "drw") none <|
    .field "response" translationResponse none .nil) (by simp) (by simp)

/-- `WorkerResult` -/
def workerResult : Codec φ (WorkerResult φ) where
  encode
    | .environment result => environmentResult.encode result
    | .projects projects => projectsResult.encode (projects, ())
    | .drawings result => (drawingsResult lib).encode result
    | .inspection result => (inspectionResult lib).encode result
    | .publishPlan result => (publishPlanResult lib).encode result
    | .translation drawingId response => translationResult.encode (drawingId, response, ())
    | .error result => errorResult.encode result
  decode v :=
    let tag := discriminator "kind" v
    if tag = some "validate_environment" then (environmentResult.decode v).map .environment
    else if tag = some "list_projects" then
      (projectsResult.decode v).map fun x => .projects x.1
    else if tag = some "scan_drawings" then ((drawingsResult lib).decode v).map .drawings
    else if tag = some "inspect_drawing" then ((inspectionResult lib).decode v).map .inspection
    else if tag = some "create_publish_plan" then
      ((publishPlanResult lib).decode v).map .publishPlan
    else if tag = some "translation" then
      (translationResult.decode v).map fun x => .translation x.1 x.2.1
    else if tag = some "error" then (errorResult.decode v).map .error
    else none
  valid
    | .environment result => (environmentResult (φ := φ)).valid result
    | .projects projects => (projectsResult (φ := φ)).valid (projects, ())
    | .drawings result => (drawingsResult lib).valid result
    | .inspection result => (inspectionResult lib).valid result
    | .publishPlan result => (publishPlanResult lib).valid result
    | .translation drawingId response =>
      (translationResult (φ := φ)).valid (drawingId, response, ())
    | .error result => (errorResult (φ := φ)).valid result
  decode_encode r h := by
    cases r with
    | environment => simp [environmentResult.tagged, environmentResult.decode_encode _ h]
    | projects => simp [projectsResult.tagged, projectsResult.decode_encode _ h]
    | drawings => simp [(drawingsResult lib).tagged, (drawingsResult lib).decode_encode _ h]
    | inspection => simp [(inspectionResult lib).tagged, (inspectionResult lib).decode_encode _ h]
    | publishPlan =>
      simp [(publishPlanResult lib).tagged, (publishPlanResult lib).decode_encode _ h]
    | translation => simp [translationResult.tagged, translationResult.decode_encode _ h]
    | error => simp [errorResult.tagged, errorResult.decode_encode _ h]

end Results

/-! ### Envelopes -/

structure WorkerTaskEnvelope where
  policyVersion : Nat
  tenantId : TenantId
  userId : SubjectId
  deviceId : WorkstationId
  taskId : TaskId
  operationId : OperationId
  commandId : CommandId
  idempotencyKey : IdempotencyKey
  nonce : String
  issuedAt : DateTime
  expiresAt : DateTime
  command : RemoteCommand
  signature : String

structure WorkerResultEnvelope (φ : Type) where
  tenantId : TenantId
  userId : SubjectId
  deviceId : WorkstationId
  taskId : TaskId
  operationId : OperationId
  commandId : CommandId
  completedAt : DateTime
  result : WorkerResult φ
  signature : String

def maxTaskPayloadBytes : Nat := 256 * 1024

def maxResultPayloadBytes : Nat := 8 * 1024 * 1024

section Envelopes

variable {φ : Type} (lib : ModelLibrary φ)

/-- `_validate_lifetime` -/
def WorkerTaskEnvelope.lifetimeOk (e : WorkerTaskEnvelope) : Bool :=
  decide (0 < e.expiresAt.instant - e.issuedAt.instant ∧
    e.expiresAt.instant - e.issuedAt.instant ≤ maxTaskLifetime)

def workerTaskEnvelope : Codec φ WorkerTaskEnvelope :=
  ((Codec.record (fixedNumber "protocol_version" 1 <|
    fixedText "audience" "cadplot-worker" <|
    .field "policy_version" (.nat 1 2147483647) none <|
    .field "tenant_id" (.str (isGatewayId "tnt")) none <|
    .field "user_id" (.str (isGatewayId "usr")) none <|
    .field "device_id" (opaqueId "ws") none <| .field "task_id" (opaqueId "tsk") none <|
    .field "operation_id" (opaqueId "op") none <| .field "command_id" (opaqueId "cmd") none <|
    .field "idempotency_key" (opaqueId "idem") none <| .field "nonce" (.str isNonce) none <|
    .field "issued_at" (moment lib) none <| .field "expires_at" (moment lib) none <|
    .field "command" readOnlyCommand none <|
    fixedText "signature_algorithm" "ed25519" <|
    .field "signature" (.str isSignature) none .nil) (by simp)).view
    (fun x => ⟨x.1, x.2.1, x.2.2.1, x.2.2.2.1, x.2.2.2.2.1, x.2.2.2.2.2.1, x.2.2.2.2.2.2.1,
      x.2.2.2.2.2.2.2.1, x.2.2.2.2.2.2.2.2.1, x.2.2.2.2.2.2.2.2.2.1, x.2.2.2.2.2.2.2.2.2.2.1,
      x.2.2.2.2.2.2.2.2.2.2.2.1, x.2.2.2.2.2.2.2.2.2.2.2.2.1⟩)
    (fun e => (e.policyVersion, e.tenantId, e.userId, e.deviceId, e.taskId, e.operationId,
      e.commandId, e.idempotencyKey, e.nonce, e.issuedAt, e.expiresAt, e.command, e.signature, ()))
    fun _ => rfl).check WorkerTaskEnvelope.lifetimeOk

def workerResultEnvelope : Codec φ (WorkerResultEnvelope φ) :=
  (Codec.record (fixedNumber "protocol_version" 1 <|
    .field "tenant_id" (.str (isGatewayId "tnt")) none <|
    .field "user_id" (.str (isGatewayId "usr")) none <|
    .field "device_id" (opaqueId "ws") none <| .field "task_id" (opaqueId "tsk") none <|
    .field "operation_id" (opaqueId "op") none <| .field "command_id" (opaqueId "cmd") none <|
    .field "completed_at" (moment lib) none <| .field "result" (workerResult lib) none <|
    fixedText "signature_algorithm" "ed25519" <|
    .field "signature" (.str isSignature) none .nil) (by simp)).view
    (fun x => ⟨x.1, x.2.1, x.2.2.1, x.2.2.2.1, x.2.2.2.2.1, x.2.2.2.2.2.1, x.2.2.2.2.2.2.1,
      x.2.2.2.2.2.2.2.1, x.2.2.2.2.2.2.2.2.1⟩)
    (fun e => (e.tenantId, e.userId, e.deviceId, e.taskId, e.operationId, e.commandId,
      e.completedAt, e.result, e.signature, ())) fun _ => rfl

/-- `model_dump(mode="json", exclude={"signature"})` -/
def withoutSignature : JsonValue φ → JsonValue φ
  | .obj fields => .obj (fields.filter fun x => x.1 ≠ "signature")
  | v => v

/-- `canonical_signing_bytes` -/
def canonicalSigningBytes {α : Type} (c : Codec φ α) (e : α) : List UInt8 :=
  Text.utf8 (lib.dumps (withoutSignature (c.encode e)))

inductive ParseError where
  | payload (message : String)
  | validation
  deriving DecidableEq

/-- `decode("utf-8")` -/
def decodeUtf8 (bytes : List UInt8) : Option (List Char) :=
  bytes.toByteArray.utf8Decode?.map Array.toList

/-- `_parse_bounded_json` -/
def parseBoundedJson {α : Type} (payload : List UInt8) (maxBytes : Nat) (c : Codec φ α)
    (label : String) : Except ParseError α :=
  if ¬(2 ≤ payload.length ∧ payload.length ≤ maxBytes) then
    .error (.payload (label ++ " payload size is invalid."))
  else match decodeUtf8 payload with
    | none => .error (.payload (label ++ " payload must be UTF-8 JSON."))
    | some characters =>
      match (lib.ofJson characters).bind c.decode with
      | none => .error .validation
      | some e => .ok e

/-- `_serialize_bounded` -/
def serializeBounded {α : Type} (e : α) (maxBytes : Nat) (c : Codec φ α) (label : String) :
    Except String (List UInt8) :=
  let encoded := Text.utf8 (lib.toJson (c.encode e))
  if maxBytes < encoded.length then .error (label ++ " payload exceeds its safety limit.")
  else .ok encoded

def parseResultPayload (payload : List UInt8) : Except ParseError (WorkerResultEnvelope φ) :=
  parseBoundedJson lib payload maxResultPayloadBytes (workerResultEnvelope lib) "Result"

def serializeTaskPayload (e : WorkerTaskEnvelope) : Except String (List UInt8) :=
  serializeBounded lib e maxTaskPayloadBytes (workerTaskEnvelope lib) "Task"

def serializeResultPayload (e : WorkerResultEnvelope φ) : Except String (List UInt8) :=
  serializeBounded lib e maxResultPayloadBytes (workerResultEnvelope lib) "Result"

end Envelopes

end CadPlot.Protocol.Wire
