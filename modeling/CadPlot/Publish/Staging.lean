import CadPlot.Lib.Calendar
import CadPlot.Lib.Dict
import CadPlot.Lib.IndentedJson
import CadPlot.Publish.Profiles

/-!
# Publish plans and staged jobs

`create_publish_plan`, `validate_publish_plan` and `stage_publish_job`. What the
planner computes in floating point is given with each frame; the files of a job
are what was copied to their paths, which the file system compares by its own
table.
-/

namespace CadPlot.Publish

open Gateway (require require_eq_ok require_bind_eq_ok)

/-! ### The plan -/

structure Fingerprint where
  sha256 : String
  sizeBytes : Nat
  modifiedNs : Nat
  deriving DecidableEq

structure LayoutSummary where
  name : String
  modelType : Bool
  floatingViewportCount : Option Int

structure PageSetupSummary where
  name : String
  modelType : Bool
  plotter : Option String
  mediaName : Option String
  plotStyle : Option String
  plotType : Option Int
  useStandardScale : Option Bool
  /-- `has_verified_one_to_one_scale()` -/
  verifiedOneToOne : Bool

/-- A frame. Its numbers are reduced to what is computed from them. -/
structure FrameCandidate where
  handle : String
  layer : String
  label : String
  /-- Its confidence is not below the one that is required. -/
  confident : Bool
  /-- `_derive_plot_geometry` -/
  geometry : Option Doc

structure DrawingInspection where
  path : Path
  layouts : List LayoutSummary
  pageSetups : List PageSetupSummary
  frames : List FrameCandidate

structure TemplateAsset where
  id : String
  source : Path
  sha256 : String
  sizeBytes : Nat
  modifiedNs : Nat
  layout : Option String
  pageSetup : String
  deriving DecidableEq

structure ProfilePayload where
  id : String
  pageSetup : String
  plotter : String
  plotStyle : String
  canonicalMedia : Option String
  templateLayout : Option String
  templateAsset : Option TemplateAsset
  deriving DecidableEq

inductive SheetStatus where
  | unmatched | templateAssetMismatch | disallowedFrameLayer | lowConfidence | pageSetupMismatch
  | templateLayoutMismatch | unsupportedScale | layoutConflict | matched
  deriving DecidableEq

structure Sheet where
  frameHandle : String
  label : String
  status : SheetStatus
  profile : Option ProfilePayload
  targetLayout : String
  plotGeometry : Option Doc

structure PublishPlan where
  planId : String
  ready : Bool
  drawing : Path
  drawingFingerprint : Option Fingerprint
  sheets : List Sheet

abbrev Evidence := Dict String (DrawingInspection × Fingerprint)

/-- `f"{index:04d}"` -/
def paddedIndex (index : Nat) : List Char :=
  if index < 10000 then Calendar.digits 4 index else (toString index).toList

def isLayoutChar (c : Char) : Bool := c.isAlphanum || c == '_' || c == '-'

/-- `re.sub(r"[^A-Za-z0-9_-]+", "_", ..)`: a run of other characters becomes one underscore. -/
def substituteRuns : Bool → List Char → List Char
  | _, [] => []
  | inRun, c :: cs =>
    if isLayoutChar c then c :: substituteRuns false cs
    else if inRun then substituteRuns true cs
    else '_' :: substituteRuns true cs

/-- `_target_layout_name` -/
def targetLayoutName (index : Nat) (handle layoutPrefix : String) : String :=
  let handle := if handle = "" then "NOHANDLE" else handle
  let safeHandle := Text.strip (· == '_') (substituteRuns false handle.toList)
  let safeHandle := if safeHandle = [] then "NOHANDLE".toList else safeHandle
  String.ofList ((layoutPrefix.toList ++ '_' :: (paddedIndex index ++ '_' :: safeHandle)).take 255)

/-- `_profile_payload` -/
def profilePayload (p : PaperProfile) (external : Option (DrawingInspection × Fingerprint)) :
    ProfilePayload where
  id := p.id
  pageSetup := p.pageSetup
  plotter := p.plotter
  plotStyle := p.plotStyle
  canonicalMedia := p.canonicalMedia
  templateLayout := p.templateLayout
  templateAsset :=
    match p.templateDrawing, external with
    | some source, some (_, fingerprint) =>
      some
        { id := p.id, source, sha256 := fingerprint.sha256, sizeBytes := fingerprint.sizeBytes
          modifiedNs := fingerprint.modifiedNs, layout := p.templateLayout
          pageSetup := p.pageSetup }
    | _, _ => none

section Plan

variable (tables : Tables) (platform : ConfigPlatform) (config : CadPlotConfig)

/-- `match_paper_profile` -/
def matchPaperProfile (label : String) : Except String (Option PaperProfile) :=
  let normalized := normalizeLabel tables label
  match config.paperProfiles.filter fun p => (p.labels.map (normalizeLabel tables)).contains normalized
    with
  | _ :: _ :: _ => .error "Ambiguous paper profile for label"
  | [p] => .ok (some p)
  | [] =>
    match config.paperProfiles.filter (platform.sizeMatches label) with
    | _ :: _ :: _ => .error "Ambiguous paper profile for dimensions in label"
    | [p] => .ok (some p)
    | [] => .ok none

/-- `_page_setup_error` is `None`. -/
def pageSetupMatches (p : PaperProfile) (pageSetups : List PageSetupSummary) : Bool :=
  let same (a b : String) := decide (fold tables.casefold a = fold tables.casefold b)
  !config.requirePageSetupMatch ||
    match pageSetups.find? fun setup => same setup.name p.pageSetup with
    | none => false
    | some setup =>
      !setup.modelType && decide (setup.plotType = some 5) &&
        same (setup.plotter.getD "") p.plotter && same (setup.plotStyle.getD "") p.plotStyle &&
        decide (p.canonicalMedia = none ∨ setup.mediaName = p.canonicalMedia) &&
        setup.useStandardScale.isSome && setup.verifiedOneToOne

/-- `_template_layout_error` is `None`. -/
def templateLayoutMatches (p : PaperProfile) (layouts : List LayoutSummary) : Bool :=
  match p.templateLayout with
  | none => true
  | some name =>
    match layouts.find? fun layout => fold tables.casefold layout.name = fold tables.casefold name with
    | none => false
    | some layout => !layout.modelType && decide (layout.floatingViewportCount = some 1)

/-- One turn of the loop of `create_publish_plan`. -/
def planSheet (inspection : DrawingInspection) (evidence : Evidence) (index : Nat)
    (frame : FrameCandidate) : Except String Sheet := do
  let targetLayout := targetLayoutName index frame.handle config.layoutPrefix
  let sheet (status : SheetStatus) (profile : Option ProfilePayload) (geometry : Option Doc) : Sheet :=
    { frameHandle := frame.handle, label := frame.label, status, profile, targetLayout
      plotGeometry := geometry }
  let matched ← matchPaperProfile tables platform config frame.label
  match matched with
  | none => pure (sheet .unmatched none none)
  | some p =>
    let external := if p.templateDrawing = none then none else evidence.get p.id
    let payload := some (profilePayload p external)
    let allowed := config.frameLayers.map (fold tables.casefold)
    let resource := external.elim inspection Prod.fst
    if p.templateDrawing ≠ none ∧ (external.all fun e => some e.2.sha256 ≠ p.templateSha256) then
      pure (sheet .templateAssetMismatch payload none)
    else if allowed ≠ [] ∧ fold tables.casefold frame.layer ∉ allowed then
      pure (sheet .disallowedFrameLayer payload none)
    else if ¬frame.confident then pure (sheet .lowConfidence payload none)
    else if ¬pageSetupMatches tables config p resource.pageSetups then
      pure (sheet .pageSetupMismatch payload none)
    else if ¬templateLayoutMatches tables p resource.layouts then
      pure (sheet .templateLayoutMismatch payload none)
    else
      match frame.geometry with
      | none => pure (sheet .unsupportedScale payload none)
      | some geometry =>
        if fold tables.casefold targetLayout ∈
            inspection.layouts.map fun layout => fold tables.casefold layout.name then
          pure (sheet .layoutConflict payload geometry)
        else pure (sheet .matched payload geometry)

/-- `create_publish_plan`, with the digest of a payload as its identifier. -/
def createPublishPlan (digest : Path → Option Fingerprint → List Sheet → String)
    (inspection : DrawingInspection) (drawingFingerprint : Option Fingerprint)
    (evidence : Evidence) : Except String PublishPlan := do
  let sheets ← (inspection.frames.zipIdx 1).mapM fun (frame, index) =>
    planSheet tables platform config inspection evidence index frame
  pure
    { planId := digest inspection.path drawingFingerprint sheets
      ready := !sheets.isEmpty && sheets.all fun sheet => sheet.status = .matched
      drawing := inspection.path
      drawingFingerprint, sheets }

end Plan

/-- `sha256:[0-9a-f]{64}` -/
def isPlanId (value : String) : Bool :=
  "sha256:".toList.isPrefixOf value.toList && Protocol.isLowerHexText 64 (value.toList.drop 7)

/-- `validate_publish_plan` -/
def validatePublishPlan (digest : Path → Option Fingerprint → List Sheet → String)
    (plan : PublishPlan) : Except String Unit := do
  require (plan.ready = true) "Publish plan is not ready; resolve every blocker first."
  match plan.drawingFingerprint with
  | none => .error "Publish plan is not bound to a drawing fingerprint."
  | some fingerprint =>
    require (Protocol.isLowerHexText 64 fingerprint.sha256.toList = true)
      "Publish plan contains an invalid drawing fingerprint."
  require (plan.sheets ≠ []) "Publish plan must contain at least one sheet."
  require (plan.sheets.length ≤ 5000) "Publish plan exceeds the 5000-sheet safety limit."
  require (∀ sheet ∈ plan.sheets, sheet.status = .matched)
    "Every sheet must have an approved paper-profile match."
  require (isPlanId plan.planId = true) "Publish plan has an invalid plan_id."
  require (plan.planId = digest plan.drawing plan.drawingFingerprint plan.sheets)
    "Publish plan hash mismatch; recreate the plan before continuing."

end CadPlot.Publish
