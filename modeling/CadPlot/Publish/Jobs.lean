import CadPlot.Publish.Staging

/-!
# Staged jobs and their readers

`stage_publish_job`, and the checks that the audit and the plug-in make of a
staged manifest: `_load_staged_manifest_snapshot` and the template, metadata and
layout checks of `PublishManifestReader`. The replay of the plot geometry is
floating point and left out, as are redirected directories.
-/

namespace CadPlot.Publish

open Gateway (require require_eq_ok require_bind_eq_ok)
open Text (utf16 utf8)

/-! ### The job -/

/-- What is read of a file. -/
structure Content where
  sha256 : String
  sizeBytes : Nat
  deriving DecidableEq

abbrev Files := Dict (List (List Char)) Content

structure TemplateEntry where
  id : String
  sourceTemplate : Path
  stagedTemplate : Path
  sha256 : String
  sizeBytes : Nat
  layout : Option String
  pageSetup : String

structure OutputEntry where
  sheetIndex : Nat
  frameHandle : String
  pdf : Path
  targetLayout : String
  pageSetup : String
  plotter : String
  plotStyle : String
  canonicalMedia : Option String
  templateLayout : Option String
  templateAssetId : Option String
  plotGeometry : Option Doc
  status : String

structure Manifest where
  schemaVersion : Nat
  jobId : String
  state : String
  createdUtc : String
  planId : String
  sourceDrawing : Path
  sourceFingerprint : Fingerprint
  stagedDrawing : Path
  outputDirectory : Path
  templateAssets : List TemplateEntry
  outputs : List OutputEntry

/-- The directory, the name and the time of a new job. -/
structure Job where
  workspaceRoot : Path
  id : String
  createdUtc : String

def Job.root (job : Job) : Path := job.workspaceRoot ++ [job.id]

/-- The files that a job is staged from: what a path of a policy resolves to, and its
fingerprint. -/
structure Sources where
  requireDrawing : Path → Except String Path
  requireTemplate : Path → Except String Path
  fingerprintFile : Path → Except String Fingerprint

section Stage

variable (tables : Tables)

def fileKey (path : Path) : List (List Char) := path.map (fold tables.fileName)

/-- The loop that collects the template assets of the sheets, one an identifier. -/
def collectAssets : List TemplateAsset → List Sheet → Except String (List TemplateAsset)
  | found, [] => pure found
  | found, sheet :: sheets =>
    match sheet.profile with
    | none => .error "'NoneType' object has no attribute 'get'"
    | some profile =>
      match profile.templateAsset with
      | none => collectAssets found sheets
      | some asset =>
        match found.find? fun previous => previous.id = asset.id with
        | none => collectAssets (found ++ [asset]) sheets
        | some previous => do
          require (previous = asset)
            "Publish plan contains conflicting template asset identities."
          collectAssets found sheets

/-- One turn of the loop that copies the templates. -/
def stageTemplate (sources : Sources) (templateDir : Path) (files : Files)
    (asset : TemplateAsset) : Except String (Files × TemplateEntry) := do
  let source ← sources.requireTemplate asset.source
  require (isTemplatePath source = true) "Template asset must be an allowed DWG or DWT file."
  let current ← sources.fingerprintFile source
  require (current = ⟨asset.sha256, asset.sizeBytes, asset.modifiedNs⟩)
    "External template changed after planning; inspect and approve again."
  let staged := templateDir ++ [String.ofList (asset.id.toList ++ lowerSuffix source)]
  let files := files.set (fileKey tables staged) ⟨current.sha256, current.sizeBytes⟩
  require ((files.get (fileKey tables staged)).map Content.sha256 = some current.sha256)
    "Staged template copy failed content verification."
  pure (files,
    { id := asset.id, sourceTemplate := source, stagedTemplate := staged, sha256 := current.sha256
      sizeBytes := current.sizeBytes, layout := asset.layout, pageSetup := asset.pageSetup })

def stageTemplates (sources : Sources) (templateDir : Path) :
    Files → List TemplateAsset → Except String (Files × List TemplateEntry)
  | files, [] => pure (files, [])
  | files, asset :: assets => do
    let (files, entry) ← stageTemplate tables sources templateDir files asset
    let (files, entries) ← stageTemplates sources templateDir files assets
    pure (files, entry :: entries)

/-- `Path.stem` -/
def stem (name : String) : List Char :=
  name.toList.take (name.toList.length - (suffix name.toList).length)

def safeName (name : List Char) : List Char :=
  name.map fun c => if tables.isalnum c || c == '-' || c == '_' then c else '_'

/-- `_pdf_name` -/
def pdfName (stem : List Char) (index : Nat) (profileId : String) : String :=
  String.ofList (paddedIndex index ++ '-' :: (safeName tables stem ++ '-' ::
    (safeName tables profileId.toList ++ ".pdf".toList)))

def outputEntry (outputDir : Path) (source : Path) (index : Nat) (sheet : Sheet) :
    Except String OutputEntry :=
  match sheet.profile with
  | none => .error "'NoneType' object is not subscriptable"
  | some profile => pure
    { sheetIndex := index
      frameHandle := sheet.frameHandle
      pdf := outputDir ++ [pdfName tables (stem (source.getLastD "")) index profile.id]
      targetLayout := sheet.targetLayout
      pageSetup := profile.pageSetup
      plotter := profile.plotter
      plotStyle := profile.plotStyle
      canonicalMedia := profile.canonicalMedia
      templateLayout := profile.templateLayout
      templateAssetId := profile.templateAsset.map TemplateAsset.id
      plotGeometry := sheet.plotGeometry
      status := "pending" }

/-- `stage_publish_job`: the manifest and the copied files. -/
def stagePublishJob (digest : Path → Option Fingerprint → List Sheet → String) (sources : Sources)
    (job : Job) (config : CadPlotConfig) (plan : PublishPlan) (approvedPlanId : String) :
    Except String (Manifest × Files) := do
  validatePublishPlan digest plan
  require (approvedPlanId = plan.planId)
    "approved_plan_id does not match the current publish plan."
  require (config.workspaceRoot ≠ none)
    "workspace_root must be configured before staging a publish job."
  let source ← sources.requireDrawing plan.drawing
  require (lowerSuffix source = ".dwg".toList) "Expected a .dwg file"
  let current ← sources.fingerprintFile source
  require (some current = plan.drawingFingerprint)
    "Drawing changed after planning; inspect it again before staging."
  let staged := job.root ++ ["source", source.getLastD ""]
  let files := Dict.empty.set (fileKey tables staged) ⟨current.sha256, current.sizeBytes⟩
  let assets ← collectAssets [] plan.sheets
  require (assets ≠ [] → config.templateRoots = true)
    "template_roots must be configured before staging templates."
  let (files, entries) ← stageTemplates tables sources (job.root ++ ["source", "templates"]) files
    (assets.insertionSort fun a b => a.id ≤ b.id)
  let outputs ← (plan.sheets.zipIdx 1).mapM fun (sheet, index) =>
    outputEntry tables (job.root ++ ["output"]) source index sheet
  pure
    ({ schemaVersion := 1
       jobId := job.id
       state := "staged"
       createdUtc := job.createdUtc
       planId := plan.planId
       sourceDrawing := source
       sourceFingerprint := current
       stagedDrawing := staged
       outputDirectory := job.root ++ ["output"]
       templateAssets := entries
       outputs }, files)

end Stage

/-! ### The manifest file -/

/-- `str(path)` -/
def pathText (path : Path) : String := "\\".intercalate path

def TemplateEntry.doc (entry : TemplateEntry) : Doc := .obj
  [("id", .string entry.id), ("source_template", .string (pathText entry.sourceTemplate)),
    ("staged_template", .string (pathText entry.stagedTemplate)), ("sha256", .string entry.sha256),
    ("size_bytes", .nat entry.sizeBytes), ("layout", .optional entry.layout),
    ("page_setup", .string entry.pageSetup)]

def OutputEntry.doc (output : OutputEntry) : Doc := .obj
  [("sheet_index", .nat output.sheetIndex), ("frame_handle", .string output.frameHandle),
    ("pdf", .string (pathText output.pdf)), ("target_layout", .string output.targetLayout),
    ("page_setup", .string output.pageSetup), ("plotter", .string output.plotter),
    ("plot_style", .string output.plotStyle),
    ("canonical_media", .optional output.canonicalMedia),
    ("template_layout", .optional output.templateLayout),
    ("template_asset_id", .optional output.templateAssetId),
    ("plot_geometry", output.plotGeometry.getD .null), ("status", .string output.status)]

def Fingerprint.doc (fingerprint : Fingerprint) : Doc := .obj
  [("sha256", .string fingerprint.sha256), ("size_bytes", .nat fingerprint.sizeBytes),
    ("modified_ns", .nat fingerprint.modifiedNs)]

def Manifest.doc (m : Manifest) : Doc := .obj
  [("schema_version", .nat m.schemaVersion), ("job_id", .string m.jobId),
    ("state", .string m.state), ("created_utc", .string m.createdUtc),
    ("plan_id", .string m.planId), ("source_drawing", .string (pathText m.sourceDrawing)),
    ("source_fingerprint", m.sourceFingerprint.doc),
    ("staged_drawing", .string (pathText m.stagedDrawing)),
    ("output_directory", .string (pathText m.outputDirectory)),
    ("template_assets", .arr (m.templateAssets.map TemplateEntry.doc)),
    ("outputs", .arr (m.outputs.map OutputEntry.doc))]

def crlf : List Char := ['\r', '\n']

/-- What `write_text` leaves of the indented text on Windows. -/
def manifestFile (m : Manifest) : List UInt8 := utf8 (Doc.render crlf 0 m.doc ++ crlf)

def maxManifestBytes : Nat := 1024 * 1024

/-! ### The audit -/

section Readers

variable (tables : Tables) (files : Files)

/-- Two paths that compare equal ignoring case. -/
def samePath (table : Char → List Char) (a b : Path) : Bool :=
  decide (a.map (fold table) = b.map (fold table))

/-- `_valid_resource_name` -/
def validResourceName : Option String → Bool
  | none => false
  | some value =>
    decide (1 ≤ value.toList.length ∧ value.toList.length ≤ 255) &&
      !value.toList.all Text.isSpace && !hasControlCharacter value

/-- One turn of the loop over the template assets. -/
def loadTemplateAsset (templateRoot : Path) (before : List TemplateEntry) (asset : TemplateEntry) :
    Except String Unit := do
  require (isSafeId 64 asset.id = true) "Job manifest contains an invalid template asset id."
  require (∀ other ∈ before, other.id ≠ asset.id)
    "Job manifest contains duplicate template asset ids."
  require (validResourceName asset.layout = true ∧ validResourceName (some asset.pageSetup) = true)
    "Job manifest template asset has invalid metadata."
  require (∀ other ∈ before,
      other.layout.map (fold tables.casefold) ≠ asset.layout.map (fold tables.casefold))
    "Job manifest contains duplicate template asset layouts."
  require (samePath tables.lower asset.stagedTemplate.dropLast templateRoot = true ∧
      isTemplatePath asset.stagedTemplate = true ∧
      files.get (fileKey tables asset.stagedTemplate) ≠ none)
    "Manifest template asset is outside its job boundary."
  require (1 ≤ asset.sizeBytes ∧ Protocol.isLowerHexText 64 asset.sha256.toList = true)
    "Job manifest template asset has an invalid fingerprint."
  require (files.get (fileKey tables asset.stagedTemplate) = some ⟨asset.sha256, asset.sizeBytes⟩)
    "Staged template no longer matches its approved fingerprint."

/-- One turn of the loop over the outputs. -/
def loadOutput (outputRoot : Path) (assets : List TemplateEntry) (before : List OutputEntry)
    (output : OutputEntry) : Except String Unit := do
  require (samePath tables.lower output.pdf.dropLast outputRoot = true ∧
      lowerSuffix output.pdf = ".pdf".toList)
    "Expected PDF path is outside its job output directory."
  require (∀ other ∈ before, samePath tables.lower other.pdf output.pdf = false)
    "Job manifest contains duplicate PDF paths."
  match output.templateAssetId with
  | some id =>
    match assets.find? fun asset => asset.id = id with
    | none => .error "Job manifest output references an unknown template asset."
    | some asset =>
      require (output.templateLayout = asset.layout ∧ output.pageSetup = asset.pageSetup)
        "Job manifest template asset metadata does not match output."
  | none =>
    require (output.templateLayout = none ∨ ∀ asset ∈ assets,
        asset.layout.map (fold tables.casefold) ≠
          output.templateLayout.map (fold tables.casefold))
      "Job manifest output is missing its template asset reference."

/-- `_load_staged_manifest_snapshot` on the manifest in a directory of the workspace. -/
def loadStagedManifest (workspaceRoot jobRoot : Path) (raw : Manifest) : Except String Unit := do
  require ((manifestFile raw).length ≤ maxManifestBytes)
    "Job manifest exceeds the 1 MiB safety limit."
  require (raw.schemaVersion = 1) "Unsupported job manifest schema."
  require (raw.state = "staged") "Only staged job manifests can be audited."
  require (samePath tables.lower jobRoot.dropLast workspaceRoot = true ∧
      some raw.jobId = jobRoot.getLast?)
    "Job manifest identity does not match its workspace directory."
  require (samePath tables.lower raw.outputDirectory (jobRoot ++ ["output"]) = true)
    "Manifest output_directory is outside its job boundary."
  require (raw.stagedDrawing.inits.dropLast.any (samePath tables.lower (jobRoot ++ ["source"])) =
      true ∧ lowerSuffix raw.stagedDrawing = ".dwg".toList)
    "Manifest staged_drawing is outside its job boundary."
  require (Protocol.isLowerHexText 64 raw.sourceFingerprint.sha256.toList = true ∧
      1 ≤ raw.sourceFingerprint.sizeBytes)
    "Job manifest contains an invalid source fingerprint."
  require (files.get (fileKey tables raw.stagedDrawing) =
      some ⟨raw.sourceFingerprint.sha256, raw.sourceFingerprint.sizeBytes⟩)
    "Staged drawing no longer matches the approved source fingerprint."
  require (raw.templateAssets.length ≤ 100)
    "Job manifest contains an invalid template asset collection."
  checkEach (loadTemplateAsset tables files (jobRoot ++ ["source", "templates"])) []
    raw.templateAssets
  require (1 ≤ raw.outputs.length ∧ raw.outputs.length ≤ 5000)
    "Job manifest must contain between 1 and 5000 outputs."
  checkEach (loadOutput tables (jobRoot ++ ["output"]) raw.templateAssets) [] raw.outputs
  require (∀ asset ∈ raw.templateAssets, some asset.id ∈ raw.outputs.map OutputEntry.templateAssetId)
    "Job manifest contains an unused template asset."

/-! ### The plug-in -/

/-- `String.IsNullOrWhiteSpace` -/
def isNullOrWhiteSpace (value : String) : Bool := (utf16 value.toList).all isWhiteSpace

/-- `SafeResourceName` -/
def safeResourceName (value : String) : Bool :=
  let units := utf16 value.toList
  !isNullOrWhiteSpace value && decide (units.length ≤ 255) && !units.any isControl

/-- `Path.GetExtension` -/
def getExtension (name : List Char) : List Char :=
  match name.reverse.span (· ≠ '.') with
  | (_, []) => []
  | (extension, _ :: _) => if extension = [] then [] else '.' :: extension.reverse

/-- `String.Equals` of the extension, ignoring case -/
def hasExtension (path : Path) (extension : String) : Bool :=
  decide ((getExtension (path.getLastD "").toList).flatMap tables.upper =
    fold tables.upper extension)

/-- `ValidateTemplateAsset`, and the two checks after it -/
def validateTemplateAsset (templateRoot : Path) (before : List TemplateEntry)
    (asset : TemplateEntry) : Except String Unit := do
  require (isSafeId 64 asset.id = true) "invalid_template_asset"
  require (asset.layout.any safeResourceName = true ∧ safeResourceName asset.pageSetup = true)
    "invalid_template_asset_metadata"
  require (Protocol.isLowerHexText 64 asset.sha256.toList = true ∧ 1 ≤ asset.sizeBytes)
    "invalid_template_asset_fingerprint"
  require (tables.fullPath asset.stagedTemplate = true) "invalid_template_asset_path"
  require (samePath tables.upper asset.stagedTemplate.dropLast templateRoot = true ∧
      (hasExtension tables asset.stagedTemplate ".dwg" = true ∨
        hasExtension tables asset.stagedTemplate ".dwt" = true))
    "template_asset_outside_job"
  require ((files.get (fileKey tables asset.stagedTemplate)).map Content.sizeBytes =
      some asset.sizeBytes)
    "template_asset_changed"
  require ((files.get (fileKey tables asset.stagedTemplate)).map Content.sha256 =
      some asset.sha256)
    "template_asset_changed"
  require (∀ other ∈ before, other.id ≠ asset.id) "duplicate_template_asset"
  require (∀ other ∈ before,
      other.layout.map (fold tables.upper) ≠ asset.layout.map (fold tables.upper))
    "duplicate_template_layout"

/-- `ValidateOutput`, up to the plot geometry. The layouts of the outputs before it were added
when they passed. -/
def validateOutput (outputDirectory : Path) (assets : List TemplateEntry)
    (before : List OutputEntry) (output : OutputEntry) : Except String Unit := do
  require (output.sheetIndex = before.length + 1) "invalid_manifest_output"
  require (output.status = "pending") "invalid_output_state"
  require (tables.fullPath output.pdf = true) "invalid_pdf_path"
  require (samePath tables.upper output.pdf.dropLast outputDirectory = true ∧
      hasExtension tables output.pdf ".pdf" = true)
    "pdf_outside_job"
  require (∀ other ∈ before, samePath tables.upper other.pdf output.pdf = false)
    "duplicate_pdf_path"
  require (isNullOrWhiteSpace output.frameHandle = false ∧
      isNullOrWhiteSpace output.pageSetup = false ∧ isNullOrWhiteSpace output.plotter = false ∧
      isNullOrWhiteSpace output.plotStyle = false ∧
      isNullOrWhiteSpace output.targetLayout = false ∧ isSafeId 255 output.targetLayout = true)
    "invalid_sheet_metadata"
  require (∀ media, output.canonicalMedia = some media → isNullOrWhiteSpace media = false)
    "invalid_canonical_media"
  require (∀ layout, output.templateLayout = some layout → safeResourceName layout = true ∧
      fold tables.upper layout ≠ fold tables.upper output.targetLayout)
    "invalid_template_layout"
  match output.templateAssetId with
  | some id =>
    match assets.find? fun asset => asset.id = id with
    | none => .error "unknown_template_asset"
    | some asset =>
      require (output.templateLayout ≠ none ∧ output.templateLayout = asset.layout ∧
          output.pageSetup = asset.pageSetup)
        "template_asset_metadata_mismatch"
  | none =>
    require (output.templateLayout = none ∨ ∀ asset ∈ assets,
        asset.layout.map (fold tables.upper) ≠ output.templateLayout.map (fold tables.upper))
      "template_asset_reference_missing"
  require (∀ other ∈ before,
      fold tables.upper other.targetLayout ≠ fold tables.upper output.targetLayout)
    "duplicate_layout_target"

/-- `TryReadValidated` from the template assets on. -/
def tryReadValidated (jobRoot outputDirectory : Path) (manifest : Manifest) :
    Except String Unit := do
  require (manifest.templateAssets.length ≤ 100) "too_many_template_assets"
  checkEach (validateTemplateAsset tables files (jobRoot ++ ["source", "templates"])) []
    manifest.templateAssets
  checkEach (validateOutput tables outputDirectory manifest.templateAssets) [] manifest.outputs
  require ((manifest.outputs.filterMap OutputEntry.templateAssetId).dedup.length =
      manifest.templateAssets.length)
    "unused_template_asset"

end Readers

end CadPlot.Publish
