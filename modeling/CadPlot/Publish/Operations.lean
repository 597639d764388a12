import CadPlot.Lib.Outcome
import CadPlot.Publish.OutputAudit

/-!
# The operations report: one job

`reporting.py` classifies every staged job from its audit and the marker of a
cancelled queue entry. A job that awaits its execution carries the approval to
queue it.
-/

namespace CadPlot.Publish

def maxReportedIssuesPerJob : Nat := 20

def maxQueueMarkerBytes : Nat := 65536

/-- The fields of a cancelled marker that are of their types. -/
structure RawMarker where
  keys : List String
  schemaVersion : Option Int
  planId : Option String
  manifestSha256 : Option String
  cancelledUtc : TimestampText
  authenticationVersion : Option Int
  /-- What the tag encodes in base 64. -/
  authenticationTag : Option Bytes

def markerFields : List String :=
  ["schema_version", "plan_id", "manifest_sha256", "cancelled_utc", "authentication_version",
    "authentication_tag"]

/-- A staged job as the report finds it. Reading its manifest or its cancelled marker may fail. -/
structure JobDirectory where
  contents : Except InspectionError JobContents
  marker : Except InspectionError (Option (StableFile RawMarker))
  /-- The manifest is what it was, after the marker was read. -/
  manifestKept : Bool
  /-- The plug-in left the marker of a started job, at which the report does not look. -/
  started : Bool
  /-- The texts that its item repeats, of the manifest or of an error, have no lone surrogate. -/
  encodable : Bool

/-- `_has_structural_cancelled_marker` -/
def hasStructuralCancelledMarker (manifest : StagedManifest)
    (marker : Except InspectionError (Option (StableFile RawMarker))) :
    Except InspectionError Bool := do
  match ← marker with
  | none => pure false
  | some f => do
    ensure f.plain (.reported "Cancelled queue marker must be a plain file.")
    ensure (decide (2 ≤ f.size ∧ f.size ≤ maxQueueMarkerBytes))
      (.reported "Cancelled queue marker size is invalid.")
    ensure f.stable (.reported "Cancelled queue marker changed while being read.")
    match f.raw with
    | .invalid => .error (.reported "Cancelled queue marker must be valid UTF-8 JSON.")
    | .tooDeep => .error (.raised "RecursionError")
    | .value raw => do
      ensure (sameKeys raw.keys markerFields)
        (.reported "Cancelled queue marker schema is invalid.")
      ensure (decide (raw.schemaVersion = some 1 ∧ raw.authenticationVersion = some 1 ∧
        raw.planId = some manifest.planId ∧ raw.manifestSha256 = some manifest.sha256 ∧
        raw.cancelledUtc ≠ .missing)) (.reported "Cancelled queue marker identity is invalid.")
      ensure (decide (raw.cancelledUtc ≠ .malformed))
        (.reported "Cancelled queue marker timestamp is invalid.")
      ensure (decide (raw.cancelledUtc = .parsed true))
        (.reported "Cancelled queue marker timestamp must include a timezone.")
      ensure (raw.authenticationTag.any fun tag => tag.length = 32)
        (.reported "Cancelled queue marker authentication tag is invalid.")
      ensure f.unchanged (.reported "Cancelled queue marker changed during validation.")
      pure true

inductive JobStatus where
  | complete | sourceChanged | awaitingExecution | cancelledHold | failed | manualReview
  | invalidJob
  deriving DecidableEq

/-- The statuses that a page counts. -/
def reportedStatuses : List JobStatus :=
  [.complete, .sourceChanged, .awaitingExecution, .cancelledHold, .failed, .manualReview,
    .invalidJob]

def JobStatus.nextAction : JobStatus → String
  | .complete => "none"
  | .sourceChanged => "review_changed_source_then_plan_and_stage_new_job"
  | .awaitingExecution => "check_live_status_then_queue"
  | .cancelledHold => "confirm_live_cancelled_or_stage_new_job"
  | .failed => "diagnose_then_stage_new_job"
  | .manualReview => "review_partial_outputs_then_stage_new_job"
  | .invalidJob => "repair_or_remove_from_workspace_after_review"

structure QueueApproval where
  planId : String
  manifestSha256 : String

structure JobDetails where
  planId : String
  manifestSha256 : String
  report : AuditReport
  outputIssues : List OutputResult
  outputIssueCount : Nat
  outputIssuesTruncated : Bool
  cancellationRequiresLivePluginVerification : Bool
  queueApproval : Option QueueApproval

/-- A job on a page, with its details or the text of an error. -/
structure Item where
  jobId : String
  status : JobStatus
  nextAction : String
  encodable : Bool
  details : Except String JobDetails

def Item.queueApproval (item : Item) : Option QueueApproval :=
  item.details.toOption.bind JobDetails.queueApproval

/-- An expected PDF is there, valid or not. -/
def AuditReport.someOutput (report : AuditReport) : Bool :=
  report.valid ≠ 0 || report.invalid ≠ 0

/-- The chain of `_inspect_job` for a job without conflicting evidence. -/
def jobStatus (report : AuditReport) (cancelledHold : Bool) : JobStatus :=
  if cancelledHold then .cancelledHold
  else if ¬report.sourceUnchanged then .sourceChanged
  else if report.publishVerified then .complete
  else if report.receipt.any fun r => r.state = .text "failed" then .failed
  else if report.someOutput then .manualReview
  else .awaitingExecution

section Inspect

variable (sha256 : Bytes → Bytes) (tolerance : Rat)

/-- What a job is classified by: its manifest, its audit and whether it was cancelled. -/
def jobEvidence (d : JobDirectory) :
    Except InspectionError (StagedManifest × AuditReport × Bool) := do
  let job ← d.contents
  let report ← auditPublishOutputs sha256 tolerance job
  let cancelledHold ← hasStructuralCancelledMarker job.manifest d.marker
  ensure d.manifestKept (.reported "Job manifest changed during operations report.")
  pure (job.manifest, report, cancelledHold)

/-- `_inspect_job`. An exception that it does not catch is its error. -/
def inspectJob (jobId : String) (d : JobDirectory) : Except String Item :=
  match jobEvidence sha256 tolerance d with
  | .error (.raised exception) => .error exception
  | .error (.reported error) =>
    .ok ⟨jobId, .invalidJob, JobStatus.invalidJob.nextAction, d.encodable, .error error⟩
  | .ok (manifest, report, cancelledHold) =>
    if cancelledHold && (report.receipt.isSome || report.someOutput) then
      .ok ⟨jobId, .invalidJob, "inspect_conflicting_cancel_and_execution_evidence", d.encodable,
        .error "cancelled_queue_marker_conflicts_with_execution_evidence"⟩
    else
      let status := jobStatus report cancelledHold
      let issues := report.outputs.filter fun r => r.status ≠ .valid
      .ok ⟨jobId, status, status.nextAction, d.encodable,
        .ok
          { planId := manifest.planId
            manifestSha256 := manifest.sha256
            report
            outputIssues := issues.take maxReportedIssuesPerJob
            outputIssueCount := issues.length
            outputIssuesTruncated := decide (maxReportedIssuesPerJob < issues.length)
            cancellationRequiresLivePluginVerification := cancelledHold
            queueApproval :=
              if status = .awaitingExecution then some ⟨manifest.planId, manifest.sha256⟩
              else none }⟩

/-! ### The approval of a job -/

theorem statusOfError_ne_missing (error : Audit.PdfError) : statusOfError error ≠ .missing := by
  cases error <;> simp [statusOfError]

theorem auditPage_ne_missing (output : ExpectedOutput) (page : PdfPage) (count : Nat) :
    auditPage output tolerance page count ≠ .ok .missing := by
  unfold auditPage
  grind

@[simp] theorem OutputResult.status_of (status : OutputStatus) :
    (OutputResult.of status).status = status :=
  rfl

theorem caught_ne_missing {error : LibraryError} {result : OutputResult}
    (h : caught error = .ok result) : result.status ≠ .missing := by
  cases error with
  | pdf error =>
    cases h
    exact statusOfError_ne_missing error
  | other => cases h

theorem auditPdf_missing_iff {output : ExpectedOutput} {file : Option PdfFile}
    {result : OutputResult} (h : auditPdf sha256 tolerance output file = .ok result) :
    result.status = .missing ↔ file = none := by
  cases file with
  | none =>
    cases h
    simp
  | some f =>
    simp only [reduceCtorEq, iff_false]
    simp only [auditPdf] at h
    repeat' split at h
    all_goals first
      | exact caught_ne_missing h
      | cases h
    all_goals simp only [OutputResult.status_of, reduceCtorEq, not_false_eq_true]
    next status _ hpage =>
      rintro rfl
      exact auditPage_ne_missing tolerance output _ _ hpage

/-- What an audit says about a job, as far as the report of it looks. -/
structure Audited (job : JobContents) (report : AuditReport) : Prop where
  receipt : readPublishReceipt job.manifest job.receipt = .ok report.receipt
  source : report.sourceUnchanged = true ↔ job.source = .ok job.manifest.sourceFingerprint
  kept : job.manifestKept = true
  someOutput : report.someOutput = false ↔ ∀ output ∈ job.manifest.outputs, job.pdf output = none
  verified : report.publishVerified = true → report.someOutput = true

theorem auditedOutputs_pos {job : JobContents} {results : List OutputResult}
    (h : auditedOutputs sha256 tolerance job = .ok results) : 0 < results.length := by
  rw [← (mapM_eq_ok.1 h).length_eq]
  exact job.manifest.some_output.1

/-- A file that is not there is missing, and nothing is raised. -/
theorem auditedOutputs_of_missing {job : JobContents}
    (hfiles : ∀ output ∈ job.manifest.outputs, job.pdf output = none) :
    ∃ results, auditedOutputs sha256 tolerance job = .ok results := by
  refine ⟨job.manifest.outputs.map fun _ => .of .missing, mapM_eq_ok.2 ?_⟩
  rw [List.forall₂_map_right_iff, List.forall₂_same]
  intro output houtput
  rw [hfiles output houtput]
  rfl

/-- The counts of an audit show that no expected file is there. -/
theorem counts_iff {job : JobContents} {results : List OutputResult}
    (h : auditedOutputs sha256 tolerance job = .ok results) :
    results.countP (fun r => r.status = .valid) = 0 ∧
        results.length - results.countP (fun r => r.status = .valid) -
            results.countP (fun r => r.status = .missing) = 0 ↔
      ∀ output ∈ job.manifest.outputs, job.pdf output = none := by
  have hle := List.countP_le_length (l := results) (p := fun r => r.status = .missing)
  have hmissing : results.countP (fun r => r.status = .missing) = results.length ↔
      ∀ output ∈ job.manifest.outputs, job.pdf output = none := by
    rw [List.countP_eq_length]
    simp only [decide_eq_true_eq]
    exact forall₂_mem_iff (mapM_eq_ok.1 h) fun hresult =>
      auditPdf_missing_iff sha256 tolerance hresult
  rw [← hmissing]
  constructor
  · rintro ⟨hvalid, hinvalid⟩
    omega
  · intro h
    refine ⟨List.countP_eq_zero.2 fun r hr => ?_, by omega⟩
    have := List.countP_eq_length.1 h r hr
    simp_all

theorem auditPublishOutputs_eq_ok {job : JobContents} {report : AuditReport}
    (h : auditPublishOutputs sha256 tolerance job = .ok report) : Audited job report := by
  obtain ⟨results, hresults, h⟩ := bind_eq_ok.1 h
  obtain ⟨receipt, hreceipt, h⟩ := bind_eq_ok.1 h
  obtain ⟨verified, hverified, h⟩ := bind_eq_ok.1 h
  obtain ⟨source, hsource, h⟩ := bind_eq_ok.1 h
  obtain ⟨hkept, h⟩ := ensure_bind_eq_ok.1 h
  cases h
  refine ⟨hreceipt, ?_, hkept, ?_, ?_⟩
  · simp [hsource]
  · rw [← counts_iff sha256 tolerance hresults]
    simp [AuditReport.someOutput]
  · simp only [Bool.and_eq_true, decide_eq_true_eq, AuditReport.someOutput]
    rintro ⟨⟨hcomplete, -⟩, -⟩
    have hpos := auditedOutputs_pos sha256 tolerance hresults
    rw [hcomplete]
    simp only [Bool.or_eq_true, decide_eq_true_eq]
    exact .inl hpos.ne'

/-- The audit of a job without any expected PDF needs only its receipt and its source. -/
theorem auditPublishOutputs_of_missing {job : JobContents} {receipt : Option RawReceipt}
    (hfiles : ∀ output ∈ job.manifest.outputs, job.pdf output = none)
    (hreceipt : readPublishReceipt job.manifest job.receipt = .ok receipt)
    (hsource : job.source = .ok job.manifest.sourceFingerprint) (hkept : job.manifestKept = true) :
    ∃ report, auditPublishOutputs sha256 tolerance job = .ok report ∧
      report.receipt = receipt := by
  obtain ⟨results, hresults⟩ := auditedOutputs_of_missing sha256 tolerance hfiles
  have hvalid := ((counts_iff sha256 tolerance hresults).2 hfiles).1
  have hincomplete := (auditedOutputs_pos sha256 tolerance hresults).ne
  rw [auditPublishOutputs, hresults]
  simp only [bind, Except.bind, hreceipt, hsource, hvalid, hincomplete, hkept, decide_false]
  cases receipt with
  | none => exact ⟨_, rfl, rfl⟩
  | some r => exact ⟨_, rfl, rfl⟩

theorem hold_eq_false_iff {manifest : StagedManifest}
    {marker : Except InspectionError (Option (StableFile RawMarker))} :
    hasStructuralCancelledMarker manifest marker = .ok false ↔ marker = .ok none := by
  constructor
  · intro h
    obtain ⟨found, hfound, h⟩ := bind_eq_ok.1 h
    cases found with
    | none => exact hfound
    | some f =>
      iterate 3 obtain ⟨-, h⟩ := ensure_bind_eq_ok.1 h
      cases hraw : f.raw with
      | invalid | tooDeep => simp [hraw] at h
      | value raw =>
        simp only [hraw] at h
        iterate 6 obtain ⟨-, h⟩ := ensure_bind_eq_ok.1 h
        cases h
  · rintro rfl
    rfl

/-- A receipt that is read is one of a success or of a failure. -/
theorem readPublishReceipt_eq_ok {manifest : StagedManifest}
    {file : Option (StableFile RawReceipt)} {receipt : Option RawReceipt}
    (h : readPublishReceipt manifest file = .ok receipt) :
    (receipt = none ↔ file = none) ∧
      ∀ r, receipt = some r → r.state = .text "succeeded" ∨ r.state = .text "failed" := by
  cases file with
  | none =>
    cases h
    simp
  | some f =>
    iterate 3 obtain ⟨-, h⟩ := ensure_bind_eq_ok.1 h
    cases hraw : f.raw with
    | invalid | tooDeep => simp [hraw] at h
    | value raw =>
      simp only [hraw] at h
      iterate 4 obtain ⟨-, h⟩ := ensure_bind_eq_ok.1 h
      obtain ⟨hstate, h⟩ := ensure_bind_eq_ok.1 h
      have hsome : receipt = some raw := by
        split at h
        · iterate 5 obtain ⟨-, h⟩ := ensure_bind_eq_ok.1 h
          exact (pure_eq_ok.1 h).symm
        · iterate 6 obtain ⟨-, h⟩ := ensure_bind_eq_ok.1 h
          exact (pure_eq_ok.1 h).symm
      subst hsome
      simpa using hstate

theorem jobStatus_awaiting_iff {report : AuditReport} {cancelledHold : Bool} :
    jobStatus report cancelledHold = .awaitingExecution ↔
      cancelledHold = false ∧ report.sourceUnchanged = true ∧ report.publishVerified = false ∧
        (∀ r, report.receipt = some r → r.state ≠ .text "failed") ∧ report.someOutput = false := by
  have hfailed : (report.receipt.any fun r => r.state = .text "failed") = false ↔
      ∀ r, report.receipt = some r → r.state ≠ .text "failed" := by
    cases report.receipt <;> simp
  rw [← hfailed]
  unfold jobStatus
  split_ifs <;> simp_all

/-- An exception that nothing catches ends the inspection: reading the manifest raises it, or the
audit, or what reads the cancelled marker. -/
inductive Raises (d : JobDirectory) : Prop
  | contents {exception} (h : d.contents = .error (.raised exception))
  | audit {job exception} (hjob : d.contents = .ok job)
      (h : auditPublishOutputs sha256 tolerance job = .error (.raised exception))
  | marker {job report exception} (hjob : d.contents = .ok job)
      (haudit : auditPublishOutputs sha256 tolerance job = .ok report)
      (h : hasStructuralCancelledMarker job.manifest d.marker = .error (.raised exception))

/-- A check that is reported does not raise. -/
theorem raised_of_ensure {α : Type} {check : Bool} {text exception : String}
    {f : Unit → Except InspectionError α}
    (h : (ensure check (.reported text) >>= f) = .error (.raised exception)) :
    check = true ∧ f () = .error (.raised exception) := by
  cases check with
  | true => exact ⟨rfl, h⟩
  | false => cases h

theorem jobEvidence_raised_iff {d : JobDirectory} :
    (∃ exception, jobEvidence sha256 tolerance d = .error (.raised exception)) ↔
      Raises sha256 tolerance d := by
  constructor
  · rintro ⟨exception, h⟩
    rcases bind_eq_error.1 h with h | ⟨job, hjob, h⟩
    · exact .contents h
    rcases bind_eq_error.1 h with h | ⟨report, haudit, h⟩
    · exact .audit hjob h
    rcases bind_eq_error.1 h with h | ⟨hold, hhold, h⟩
    · exact .marker hjob haudit h
    · cases (raised_of_ensure h).2
  · rintro (h | ⟨hjob, h⟩ | ⟨hjob, haudit, h⟩)
    · exact ⟨_, bind_eq_error.2 (.inl h)⟩
    · exact ⟨_, bind_eq_error.2 (.inr ⟨_, hjob, bind_eq_error.2 (.inl h)⟩)⟩
    · exact ⟨_, bind_eq_error.2 (.inr ⟨_, hjob, bind_eq_error.2 (.inr ⟨_, haudit,
        bind_eq_error.2 (.inl h)⟩)⟩)⟩

/-- An inspection that raises nothing else gives an item. -/
theorem inspectJob_ok_iff {jobId : String} {d : JobDirectory} :
    (∃ item, inspectJob sha256 tolerance jobId d = .ok item) ↔ ¬Raises sha256 tolerance d := by
  rw [← jobEvidence_raised_iff, inspectJob]
  cases jobEvidence sha256 tolerance d with
  | error error => cases error <;> simp
  | ok found =>
    dsimp only
    split <;> simp

/-- Where reading a receipt raises: its JSON is nested too deep, or its state has no hash. -/
theorem readPublishReceipt_raised_iff {manifest : StagedManifest}
    {file : Option (StableFile RawReceipt)} :
    (∃ exception, readPublishReceipt manifest file = .error (.raised exception)) ↔
      ∃ f, file = some f ∧ f.plain = true ∧ f.size ≤ maxReceiptBytes ∧ f.stable = true ∧
        (f.raw = .tooDeep ∨ ∃ raw, f.raw = .value raw ∧ raw.schemaVersion = some 2 ∧
          raw.planId = some manifest.planId ∧ raw.manifestSha256 = some manifest.sha256 ∧
          raw.state = .unhashable) := by
  cases file with
  | none => simp [readPublishReceipt, pure, Except.pure]
  | some f =>
    constructor
    · rintro ⟨exception, h⟩
      obtain ⟨hplain, h⟩ := raised_of_ensure h
      obtain ⟨hsize, h⟩ := raised_of_ensure h
      obtain ⟨hstable, h⟩ := raised_of_ensure h
      refine ⟨f, rfl, hplain, of_decide_eq_true hsize, hstable, ?_⟩
      cases hraw : f.raw with
      | invalid => simp [hraw] at h
      | tooDeep => exact .inl rfl
      | value raw =>
        simp only [hraw] at h
        obtain ⟨hschema, h⟩ := raised_of_ensure h
        obtain ⟨hplan, h⟩ := raised_of_ensure h
        obtain ⟨hmanifest, h⟩ := raised_of_ensure h
        refine .inr ⟨raw, rfl, of_decide_eq_true hschema, of_decide_eq_true hplan,
          of_decide_eq_true hmanifest, ?_⟩
        -- with a hash, what is left are checks that are reported
        by_contra hstate
        rw [ensure, if_pos (decide_eq_true hstate)] at h
        obtain ⟨-, h⟩ := raised_of_ensure h
        split at h
        · iterate 5 obtain ⟨-, h⟩ := raised_of_ensure h
          cases h
        · iterate 6 obtain ⟨-, h⟩ := raised_of_ensure h
          cases h
    · rintro ⟨_, ⟨⟩, hplain, hsize, hstable, hraw | ⟨raw, hraw, hschema, hplan, hmanifest, hstate⟩⟩
      · exact ⟨"RecursionError", by
          simp [readPublishReceipt, ensure, hplain, hsize, hstable, hraw, bind, Except.bind]⟩
      · exact ⟨"TypeError", by
          simp [readPublishReceipt, ensure, hplain, hsize, hstable, hraw, hschema, hplan, hmanifest,
            hstate, bind, Except.bind]⟩

theorem queueApproval_evidence (jobId : String) (d : JobDirectory) :
    (∃ item, inspectJob sha256 tolerance jobId d = .ok item ∧
        item.queueApproval.isSome = true) ↔
      ∃ manifest report, jobEvidence sha256 tolerance d = .ok (manifest, report, false) ∧
        jobStatus report false = .awaitingExecution := by
  unfold inspectJob
  cases jobEvidence sha256 tolerance d with
  | error e => cases e <;> simp [Item.queueApproval, Except.toOption]
  | ok found =>
    obtain ⟨manifest, report, hold⟩ := found
    cases hold with
    | true =>
      dsimp only
      split <;> simp [Item.queueApproval, Except.toOption, jobStatus]
    | false =>
      by_cases hstatus : jobStatus report false = .awaitingExecution <;>
        simp [Item.queueApproval, Except.toOption, hstatus]

/-- When a job is offered for queueing. -/
theorem queueApproval_iff (jobId : String) {d : JobDirectory} {job : JobContents}
    (hcontents : d.contents = .ok job) :
    (∃ item, inspectJob sha256 tolerance jobId d = .ok item ∧
        item.queueApproval.isSome = true) ↔
      d.marker = .ok none ∧ job.source = .ok job.manifest.sourceFingerprint ∧
        job.manifestKept = true ∧ d.manifestKept = true ∧
        (∀ output ∈ job.manifest.outputs, job.pdf output = none) ∧
        ∃ receipt, readPublishReceipt job.manifest job.receipt = .ok receipt ∧
          ∀ r, receipt = some r → r.state ≠ .text "failed" := by
  rw [queueApproval_evidence]
  constructor
  · rintro ⟨manifest, report, hevidence, hstatus⟩
    obtain ⟨job', hjob, hevidence⟩ := bind_eq_ok.1 hevidence
    cases hcontents.symm.trans hjob
    obtain ⟨report', haudit, hevidence⟩ := bind_eq_ok.1 hevidence
    obtain ⟨hold, hhold, hevidence⟩ := bind_eq_ok.1 hevidence
    obtain ⟨hkept, hevidence⟩ := ensure_bind_eq_ok.1 hevidence
    cases hevidence
    have audited := auditPublishOutputs_eq_ok sha256 tolerance haudit
    obtain ⟨-, hsource, -, hfailed, houtput⟩ := jobStatus_awaiting_iff.1 hstatus
    exact ⟨hold_eq_false_iff.1 hhold, audited.source.1 hsource, audited.kept, hkept,
      audited.someOutput.1 houtput, report.receipt, audited.receipt, hfailed⟩
  · rintro ⟨hmarker, hsource, hkept, hkept', hfiles, receipt, hreceipt, hfailed⟩
    obtain ⟨report, haudit, hsame⟩ :=
      auditPublishOutputs_of_missing sha256 tolerance hfiles hreceipt hsource hkept
    have audited := auditPublishOutputs_eq_ok sha256 tolerance haudit
    have houtput := audited.someOutput.2 hfiles
    have hverified : report.publishVerified = false :=
      Bool.eq_false_iff.2 fun h => by simp [audited.verified h] at houtput
    refine ⟨job.manifest, report, ?_, jobStatus_awaiting_iff.2
      ⟨rfl, audited.source.2 hsource, hverified, hsame ▸ hfailed, houtput⟩⟩
    exact bind_eq_ok.2 ⟨job, hcontents, bind_eq_ok.2 ⟨report, haudit,
      bind_eq_ok.2 ⟨false, hold_eq_false_iff.2 hmarker, ensure_bind_eq_ok.2 ⟨hkept', rfl⟩⟩⟩⟩

/-- All outputs of a job that ran are gone, and nothing else changed. -/
structure LostOutputs (d : JobDirectory) (job : JobContents) : Prop where
  marker : d.marker = .ok none
  source : job.source = .ok job.manifest.sourceFingerprint
  kept : job.manifestKept = true ∧ d.manifestKept = true
  files : ∀ output ∈ job.manifest.outputs, job.pdf output = none
  receipt : ∃ r, readPublishReceipt job.manifest job.receipt = .ok (some r) ∧
    r.state = .text "succeeded"

/-- A job has one of the statuses that the report counts, and it is offered for queueing only if
nothing of it was executed or cancelled, unless the outputs of a successful execution are lost or
its inspection raises. -/
theorem approval_without_evidence_iff (jobId : String) {d : JobDirectory} {job : JobContents}
    (hcontents : d.contents = .ok job) :
    (∃ item, inspectJob sha256 tolerance jobId d = .ok item ∧
      reportedStatuses.count item.status = 1 ∧
      (item.queueApproval.isSome = true →
        job.source = .ok job.manifest.sourceFingerprint ∧ d.marker = .ok none ∧
          job.receipt = none ∧ ∀ output ∈ job.manifest.outputs, job.pdf output = none)) ↔
      ¬LostOutputs d job ∧ ¬Raises sha256 tolerance d := by
  have hstatus : ∀ item : Item, reportedStatuses.count item.status = 1 := by
    intro item
    cases item.status <;> decide
  have happroval := queueApproval_iff sha256 tolerance jobId hcontents
  constructor
  · rintro ⟨item, hitem, -, h⟩
    refine ⟨?_, (inspectJob_ok_iff sha256 tolerance).1 ⟨item, hitem⟩⟩
    rintro ⟨hmarker, hsource, ⟨hkept, hkept'⟩, hfiles, r, hread, hstate⟩
    obtain ⟨item', hitem', hsome⟩ := happroval.2 ⟨hmarker, hsource, hkept, hkept', hfiles, some r,
      hread, by
        rintro _ ⟨⟩
        simp [hstate]⟩
    cases hitem.symm.trans hitem'
    simp [(h hsome).2.2.1, readPublishReceipt, pure, Except.pure] at hread
  · rintro ⟨hlost, hraises⟩
    obtain ⟨item, hitem⟩ := (inspectJob_ok_iff sha256 tolerance).2 hraises
    refine ⟨item, hitem, hstatus item, fun hsome => ?_⟩
    obtain ⟨hmarker, hsource, hkept, hkept', hfiles, receipt, hread, hfailed⟩ :=
      happroval.1 ⟨item, hitem, hsome⟩
    refine ⟨hsource, hmarker, ?_, hfiles⟩
    cases receipt with
    | none => exact (readPublishReceipt_eq_ok hread).1.1 rfl
    | some r =>
      have hstate := ((readPublishReceipt_eq_ok hread).2 r rfl).resolve_right (hfailed r rfl)
      exact absurd ⟨hmarker, hsource, ⟨hkept, hkept'⟩, hfiles, r, hread, hstate⟩ hlost

end Inspect

section Example

/-- The receipt of a run with one output. -/
def receiptOf (state : TextField) : RawReceipt where
  keys := commonFields
  schemaVersion := some 2
  planId := some "plan"
  manifestSha256 := some "manifest"
  state
  error := none
  outputCount := some 1
  outputsSha256 := some "0000000000000000000000000000000000000000000000000000000000000000"
  completedUtc := .parsed true

/-- A job without its output, with or without a receipt. -/
def jobWith (receipt : Option RawReceipt) : JobContents where
  manifest :=
    { planId := "plan"
      sha256 := "manifest"
      sourceFingerprint := ⟨"source", 1, 1⟩
      outputs := [⟨0, "sheet.pdf", .mistyped⟩]
      some_output := ⟨Nat.le_refl 1, Nat.le_add_left 1 4999⟩ }
  pdf _ := none
  receipt := receipt.map fun raw => ⟨true, 512, true, .value raw, true⟩
  source := .ok ⟨"source", 1, 1⟩
  manifestKept := true

def directoryOf (job : JobContents) : JobDirectory := ⟨.ok job, .ok none, true, true, true⟩

def executedJob : JobContents := jobWith (some (receiptOf (.text "succeeded")))

def executedDirectory : JobDirectory := directoryOf executedJob

/-- What the report says of a job: its status, and whether it is offered for queueing. -/
def inspected (d : JobDirectory) : Except String (JobStatus × Bool) :=
  (fun item => (item.status, item.queueApproval.isSome)) <$>
    inspectJob id 1 "job-20260101T000000Z-0123456789ab" d

/-- A job that was executed is offered for queueing once its output is gone. -/
theorem executed_offered :
    inspected executedDirectory = .ok (.awaitingExecution, true) ∧
      (readPublishReceipt executedJob.manifest executedJob.receipt).toOption.isSome = true ∧
      executedJob.receipt ≠ none :=
  ⟨by decide +kernel, by decide +kernel, Option.some_ne_none _⟩

/-- So is one that was started, and of which nothing else is known. -/
example : inspected (directoryOf (jobWith none)) = .ok (.awaitingExecution, true) := by
  decide +kernel

/-- A receipt whose state is a list leaves its job without a status. -/
example :
    inspected (directoryOf (jobWith (some (receiptOf .unhashable)))) = .error "TypeError" := by
  decide +kernel

theorem approval_without_evidence_iff_executed :
    (∃ item, inspectJob id 1 "job" executedDirectory = .ok item ∧
      reportedStatuses.count item.status = 1 ∧
      (item.queueApproval.isSome = true →
        executedJob.source = .ok executedJob.manifest.sourceFingerprint ∧
          executedDirectory.marker = .ok none ∧ executedJob.receipt = none ∧
          ∀ output ∈ executedJob.manifest.outputs, executedJob.pdf output = none)) ↔
      ¬LostOutputs executedDirectory executedJob ∧ ¬Raises id 1 executedDirectory :=
  approval_without_evidence_iff id 1 "job" rfl

end Example

end CadPlot.Publish
