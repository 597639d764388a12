import CadPlot.Audit.Marking
import CadPlot.Publish.PlotGeometry

/-!
# The audit of a staged job

`audit_publish_outputs_snapshot`: every expected PDF, the receipt and the source
drawing of a job whose manifest was validated. Files are what the reads of them
find; page sizes are exact. An audit may end in an exception that nobody expects.
-/

namespace CadPlot.Publish

open Audit (PdfError pdfPageMarkingEvidence)

def maxReceiptBytes : Nat := 64 * 1024

def maxOutputPdfBytes : Nat := 128 * 1024 * 1024

/-- How an inspection fails: with an `OSError` or a `ValueError`, which the report states, or with
an exception that nothing catches. -/
inductive InspectionError where
  | reported (text : String)
  | raised (exception : String)
  deriving DecidableEq

/-! ### Outputs -/

inductive OutputStatus where
  | missing | invalidPath | pdfTooLarge | invalidPdfStructure | pdfChangedDuringAudit
  | invalidPdfHeader | encryptedPdf | unexpectedPageCount | pdfContentLimitExceeded
  | invalidPageSize | invalidPageRotation | invalidExpectedPageSize | pageSizeMismatch
  | blankPdfPage | valid
  deriving DecidableEq

structure PdfPage where
  widthPoints : Rat
  heightPoints : Rat
  rotation : Int
  content : Option Bytes

/-- What the PDF library raises: an error that the audit expects of it, or another one. -/
inductive LibraryError where
  | pdf (error : PdfError)
  | other (exception : String)

/-- What the PDF library reads. Reading a page may fail after the pages are counted. -/
structure PdfDocument where
  encrypted : Bool
  pageCount : Nat
  page : Except LibraryError PdfPage

/-- A file at the path of an expected PDF. -/
structure PdfFile where
  redirected : Bool
  inOutput : Bool
  size : Nat
  content : Option Bytes
  stableRead : Bool
  document : Except LibraryError PdfDocument
  stableParse : Bool

/-- `plot_geometry`. Its numbers may be of other types, and a rotation without a hash or a size that
no float holds raises where it is looked at. -/
inductive ExpectedGeometry where
  | millimetres (paperWidth paperHeight : Rat) (rotation : Int)
  | mistyped
  | raising (exception : String)

/-- An output of the manifest. -/
structure ExpectedOutput where
  sheetIndex : Int
  file : String
  geometry : ExpectedGeometry

structure OutputResult where
  status : OutputStatus
  /-- `size_bytes` and `sha256` -/
  evidence : Option OutputEvidence

def OutputResult.of (status : OutputStatus) : OutputResult := ⟨status, none⟩

def statusOfError : PdfError → OutputStatus
  | .limitReached _ => .pdfContentLimitExceeded
  | .pdfRead _ => .invalidPdfStructure

/-- The audit catches what it expects of the library. -/
def caught : LibraryError → Except InspectionError OutputResult
  | .pdf error => .ok (.of (statusOfError error))
  | .other exception => .error (.raised exception)

/-- The checks of the one page of a PDF. -/
def auditPage (output : ExpectedOutput) (tolerance : Rat) (page : PdfPage)
    (markingOperatorCount : Nat) : Except InspectionError OutputStatus :=
  if min page.widthPoints page.heightPoints ≤ 0 then .ok .invalidPageSize
  else if page.rotation % 90 ≠ 0 then .ok .invalidPageRotation
  else
    let turned := decide (page.rotation % 180 ≠ 0)
    let width := if turned then page.heightPoints else page.widthPoints
    let height := if turned then page.widthPoints else page.heightPoints
    match output.geometry with
    | .mistyped => .ok .invalidExpectedPageSize
    | .raising exception => .error (.raised exception)
    | .millimetres paperWidth paperHeight rotation =>
      if (rotation ≠ 0 ∧ rotation ≠ 90) ∨ paperWidth ≤ 0 ∨ paperHeight ≤ 0 then
        .ok .invalidExpectedPageSize
      else
        let expectedWidth := if rotation = 0 then paperWidth else paperHeight
        let expectedHeight := if rotation = 0 then paperHeight else paperWidth
        if tolerance < |width * (254 / 10) / 72 - expectedWidth| ∨
            tolerance < |height * (254 / 10) / 72 - expectedHeight| then .ok .pageSizeMismatch
        else if markingOperatorCount < 1 then .ok .blankPdfPage
        else .ok .valid

/-- `_audit_pdf` -/
def auditPdf (sha256 : Bytes → Bytes) (tolerance : Rat) (output : ExpectedOutput) :
    Option PdfFile → Except InspectionError OutputResult
  | none => .ok (.of .missing)
  | some f =>
    if f.redirected ∨ ¬f.inOutput then .ok (.of .invalidPath)
    else if maxOutputPdfBytes < f.size then .ok (.of .pdfTooLarge)
    else
      match f.content with
      | none => .ok (.of .invalidPdfStructure)
      | some bytes =>
        if bytes.length ≠ f.size ∨ ¬f.stableRead then .ok (.of .pdfChangedDuringAudit)
        else if bytes.take 5 ≠ Audit.ascii "%PDF-" then .ok (.of .invalidPdfHeader)
        else
          match f.document with
          | .error error => caught error
          | .ok document =>
            if document.encrypted then .ok (.of .encryptedPdf)
            else if document.pageCount ≠ 1 then .ok (.of .unexpectedPageCount)
            else
              match document.page with
              | .error error => caught error
              | .ok page =>
                match pdfPageMarkingEvidence page.content with
                | .error error => caught (.pdf error)
                | .ok marking =>
                  match auditPage output tolerance page marking.markingOperatorCount with
                  | .error error => .error error
                  | .ok .valid =>
                    if f.stableParse then
                      .ok ⟨.valid, some ⟨output.sheetIndex, output.file, f.size,
                        String.ofList (Text.hex (sha256 bytes))⟩⟩
                    else .ok (.of .pdfChangedDuringAudit)
                  | .ok status => .ok (.of status)

/-! ### The receipt -/

/-- A timestamp as a JSON value has it, and whether it has a timezone. -/
inductive TimestampText where
  | missing | malformed
  | parsed (zoned : Bool)
  deriving DecidableEq

/-- The JSON value of a field that should be a text: one, another value, or a list or an object,
which have no hash. -/
inductive TextField where
  | text (value : String)
  | hashable
  | unhashable
  deriving DecidableEq

/-- The fields of a receipt that are of their types. -/
structure RawReceipt where
  keys : List String
  schemaVersion : Option Int
  planId : Option String
  manifestSha256 : Option String
  state : TextField
  error : Option String
  outputCount : Option Int
  outputsSha256 : Option String
  completedUtc : TimestampText
  deriving DecidableEq

/-- What `json.loads` makes of a file: a value, a decoding error, or a `RecursionError`. -/
inductive Decoded (α : Type) where
  | value (raw : α)
  | invalid
  | tooDeep
  deriving DecidableEq

/-- A file that is read twice, with what the first read found. -/
structure StableFile (α : Type) where
  plain : Bool
  size : Nat
  stable : Bool
  raw : Decoded α
  unchanged : Bool

structure StagedManifest where
  planId : String
  sha256 : String
  sourceFingerprint : Fingerprint
  outputs : List ExpectedOutput
  some_output : 1 ≤ outputs.length ∧ outputs.length ≤ 5000

def sameKeys (keys expected : List String) : Bool :=
  keys.all expected.contains && expected.all keys.contains

def commonFields : List String :=
  ["schema_version", "plan_id", "manifest_sha256", "state", "output_count", "outputs_sha256",
    "completed_utc"]

/-- `[A-Za-z0-9_:-]{1,128}` -/
def isErrorCode (value : String) : Bool :=
  decide (1 ≤ value.toList.length ∧ value.toList.length ≤ 128) &&
    value.toList.all fun c => c.isAlphanum || c = '_' || c = ':' || c = '-'

/-- `_read_publish_receipt` -/
def readPublishReceipt (manifest : StagedManifest) :
    Option (StableFile RawReceipt) → Except InspectionError (Option RawReceipt)
  | none => pure none
  | some f => do
    ensure f.plain (.reported "Publish receipt is outside its job boundary.")
    ensure (decide (f.size ≤ maxReceiptBytes))
      (.reported "Publish receipt exceeds the 64 KiB safety limit.")
    ensure f.stable (.reported "Publish receipt changed while being read.")
    match f.raw with
    | .invalid => .error (.reported "Publish receipt is not valid UTF-8 JSON.")
    | .tooDeep => .error (.raised "RecursionError")
    | .value raw => do
      ensure (decide (raw.schemaVersion = some 2))
        (.reported "Unsupported publish receipt schema.")
      ensure (decide (raw.planId = some manifest.planId))
        (.reported "Publish receipt plan identity mismatch.")
      ensure (decide (raw.manifestSha256 = some manifest.sha256))
        (.reported "Publish receipt manifest digest mismatch.")
      -- the test for membership in a set hashes the state
      ensure (decide (raw.state ≠ .unhashable)) (.raised "TypeError")
      ensure (decide (raw.state = .text "succeeded" ∨ raw.state = .text "failed"))
        (.reported "Publish receipt has an invalid terminal state.")
      if raw.state = .text "succeeded" then do
        ensure (sameKeys raw.keys commonFields && raw.error.isNone)
          (.reported "Successful publish receipt fields are not exact.")
        ensure (decide (raw.outputCount = some (manifest.outputs.length : Int)) &&
          raw.outputsSha256.any fun sha => Protocol.isLowerHexText 64 sha.toList)
          (.reported "Successful publish receipt output binding is invalid.")
      else do
        ensure (sameKeys raw.keys ("error" :: commonFields))
          (.reported "Failed publish receipt fields are not exact.")
        ensure (raw.error.any isErrorCode)
          (.reported "Failed publish receipt has an invalid error code.")
        ensure (decide (raw.outputCount = some 0 ∧ raw.outputsSha256 = none))
          (.reported "Failed publish receipt cannot bind successful outputs.")
      ensure (decide (raw.completedUtc ≠ .missing ∧ raw.completedUtc ≠ .malformed))
        (.reported "Publish receipt has an invalid completion timestamp.")
      ensure (decide (raw.completedUtc = .parsed true))
        (.reported "Publish receipt completion timestamp must include a timezone.")
      ensure f.unchanged (.reported "Publish receipt changed during receipt audit.")
      pure (some raw)

/-! ### The report of an audit -/

/-- What is found in the directory of a job whose manifest was validated, and at its source. -/
structure JobContents where
  manifest : StagedManifest
  pdf : ExpectedOutput → Option PdfFile
  receipt : Option (StableFile RawReceipt)
  source : Except InspectionError Fingerprint
  /-- The manifest is what it was, after the audit. -/
  manifestKept : Bool

structure AuditReport where
  sourceUnchanged : Bool
  outputsComplete : Bool
  executionVerified : Bool
  publishVerified : Bool
  valid : Nat
  missing : Nat
  invalid : Nat
  outputs : List OutputResult
  receipt : Option RawReceipt

section Report

variable (sha256 : Bytes → Bytes) (tolerance : Rat)

def auditedOutputs (job : JobContents) : Except InspectionError (List OutputResult) :=
  job.manifest.outputs.mapM fun output => auditPdf sha256 tolerance output (job.pdf output)

/-- A number that `struct.pack` refuses is no `ValueError`. -/
def digestError (text : String) : InspectionError :=
  if text = "int too large to convert" then .raised "struct.error" else .reported text

/-- The receipt binds exactly the outputs that were found. -/
def receiptBinds (results : List OutputResult) (receipt : RawReceipt) :
    Except InspectionError Bool := do
  let evidence := results.filterMap OutputResult.evidence
  let digest ← (buildReceiptOutputDigest sha256 evidence).mapError digestError
  pure (decide (receipt.outputCount = some (evidence.length : Int) ∧
    receipt.outputsSha256 = some (String.ofList digest)))

/-- A receipt is compared with the outputs only where every one of them is valid. -/
def executionVerified (results : List OutputResult) (outputsComplete : Bool) :
    Option RawReceipt → Except InspectionError Bool
  | none => pure false
  | some receipt =>
    if outputsComplete ∧ receipt.state = .text "succeeded" then receiptBinds sha256 results receipt
    else pure false

/-- `audit_publish_outputs_snapshot` -/
def auditPublishOutputs (job : JobContents) : Except InspectionError AuditReport := do
  let results ← auditedOutputs sha256 tolerance job
  let valid := results.countP fun r => r.status = .valid
  let missing := results.countP fun r => r.status = .missing
  let receipt ← readPublishReceipt job.manifest job.receipt
  let outputsComplete := decide (valid = results.length)
  let executionVerified ← executionVerified sha256 results outputsComplete receipt
  let source ← job.source
  let sourceUnchanged := decide (source = job.manifest.sourceFingerprint)
  ensure job.manifestKept (.reported "Job manifest changed during output audit.")
  pure
    { sourceUnchanged, outputsComplete, executionVerified
      publishVerified := outputsComplete && executionVerified && sourceUnchanged
      valid, missing
      invalid := results.length - valid - missing
      outputs := results, receipt }

end Report

end CadPlot.Publish
