import CadPlot.TextPlan.Applying

/-!
# Translated drawings

`apply_translation` scans a source drawing, builds the plan again, carries it
out on a private copy and releases a verified output. The source is looked at
again and again, and at each look other programs may have changed it.
-/

namespace CadPlot.TextPlan

deriving instance DecidableEq for DrawingFingerprint

/-- When the source is looked at, in order. -/
inductive Look where
  | started | workerStarted | scanned | workerFinished | planned
  | copied | drafted | translated | released
  deriving DecidableEq

/-- What is made in the workspace, in order. -/
inductive Write where
  | job | audit | draft | output | receipt
  deriving DecidableEq

structure SourceFile (φ : Type) where
  content : φ
  sizeBytes : Nat
  modifiedNs : Nat

structure TranslationReceipt where
  planId : String
  sourceDrawing : String
  outputDrawing : String
  auditFile : String
  sourceUnchanged : Bool
  changedRecords : Nat
  outputSha256 : String
  textRoundtripVerified : Bool
  inspectedStructureUnchanged : Bool
  deriving DecidableEq

/-- `translation-audit.json` -/
structure TranslationAudit where
  plan : TranslationPlan
  sourceFingerprint : DrawingFingerprint
  decisions : List TranslationDecision

/-- The files of a job. One that could not be written to its end is not counted. -/
structure JobFiles (φ : Type) where
  audit : Option TranslationAudit
  draft : Option φ
  output : Option φ
  receipt : Option TranslationReceipt

/-- The service with the programs around it: what each look at the source shows, whether the answer
of a worker arrives, whether a file or folder of the job can be made, and what becomes of a draft
that is copied. -/
structure TextService (φ γ : Type) where
  cad : TextCad φ γ
  structures : StructureDigests γ
  alphabet : Alphabet
  digests : Digests
  enabled : Bool
  workspace : Bool
  source : Look → Except String (SourceFile φ)
  delivered : Look → Except String Unit
  writes : Write → Except String Unit
  copied : φ → φ

variable {φ γ : Type}

/-- The error that a worker reports, as it is raised again. -/
def workerError (message : String) : String :=
  let safe := String.ofList (message.toList.take 500) ++ " No verified output was released."
  String.ofList (safe.toList.take 500)

/-- `desired[change.record_id].raw = change.after` -/
def desire (records : Dict String TextRecord) (change : TextChange) :
    Except String (Dict String TextRecord) :=
  match records.get change.recordId with
  | none => .error change.recordId
  | some record => .ok (records.set change.recordId { record with raw := change.after })

namespace TextService

variable (service : TextService φ γ)

/-- `fingerprint_drawing` of the source -/
def look (moment : Look) : Except String DrawingFingerprint := do
  let file ← service.source moment
  pure ⟨service.cad.sha256 file.content, file.sizeBytes, file.modifiedNs⟩

/-- `run_text_worker`, by the outcome of the work -/
def runTextWorker (moment : Look) (outcome : Except String TextSnapshot) :
    Except String TextSnapshot := do
  let snapshot ← outcome.mapError workerError
  service.delivered moment
  pure snapshot

/-- The work in the mode `scan` -/
def scanWork : Except String TextSnapshot := do
  let before ← service.look .workerStarted
  let file ← service.source .scanned
  let snapshot ← inspectTexts service.cad service.structures file.content
  let after ← service.look .workerFinished
  ensure (decide (after = before)) "Source changed while scanning text."
  pure snapshot

def scanSource : Except String (DrawingFingerprint × TextSnapshot) := do
  let before ← service.look .started
  let snapshot ← service.runTextWorker .workerFinished service.scanWork
  let after ← service.look .planned
  ensure (decide (after = before)) "Source changed during inventory; restart the complete scan."
  pure (before, snapshot)

section Apply

variable (path expectedId : String) (decisions : List TranslationDecision)
  (approvedPlanId auditFile outputDrawing : String)

/-- The part of `apply_translation` before it writes anything. -/
def approve : Except String (DrawingFingerprint × TextSnapshot × TranslationPlan) := do
  ensure service.enabled
    "Restart local MCP with CADPLOT_ENABLE_TRANSLATION=1 after authorization."
  ensure service.workspace "A private workspace_root is required for English copies."
  let (before, snapshot) ← service.scanSource
  let plan ← buildTranslationPlan service.alphabet service.digests path before snapshot expectedId
    decisions
  ensure (decide (plan.planId = approvedPlanId) && plan.ready)
    "Exact current translation plan approval with zero blockers is required."
  ensure (!plan.changes.isEmpty) "The reviewed drawing has no requested Turkish text changes."
  pure (before, snapshot, plan)

/-- The job with its recovery data -/
def openJob : Except String Unit := do
  service.writes .job
  service.writes .audit

def makeDraft : Except String φ := do
  let file ← service.source .copied
  service.writes .draft
  pure file.content

def makeOutput (draft : φ) : Except String φ := do
  service.writes .output
  pure (service.copied draft)

def checkDraft (before : DrawingFingerprint) (draft : φ) : Except String Unit := do
  let changed := "Source changed while creating the translation copy."
  ensure (decide (service.cad.sha256 draft = before.sha256)) changed
  let now ← service.look .drafted
  ensure (decide (now = before)) changed

/-- The checks of what the worker has made of the draft. -/
def checkOutcome (before : DrawingFingerprint) (snapshot : TextSnapshot)
    (changes : List TextChange) (outcome : Except String TextSnapshot) : Except String Unit := do
  let failed := "Translation verification failed; inspect the unverified job, not an output."
  let after ← service.runTextWorker .translated outcome
  let desired ← changes.foldlM desire (expectedRecords snapshot)
  ensure (decide (after = expectedAfter snapshot desired)) failed
  let now ← service.look .translated
  ensure (decide (now = before)) failed

def checkOutput (before : DrawingFingerprint) (plan : TranslationPlan) (draft output : φ) :
    Except String TranslationReceipt := do
  let failed := "Final copy verification failed; no completion receipt was written."
  ensure (decide (service.cad.sha256 output = service.cad.sha256 draft)) failed
  let now ← service.look .released
  ensure (decide (now = before)) failed
  pure
    { planId := plan.planId
      sourceDrawing := path
      outputDrawing
      auditFile
      sourceUnchanged := true
      changedRecords := plan.changes.length
      outputSha256 := service.cad.sha256 output
      textRoundtripVerified := true
      inspectedStructureUnchanged := true }

/-- `apply_translation`, with the files that it leaves in its job -/
def applyTranslation : Except String TranslationReceipt × JobFiles φ :=
  match service.approve path expectedId decisions approvedPlanId with
  | .error e => (.error e, ⟨none, none, none, none⟩)
  | .ok (before, snapshot, plan) =>
    match service.openJob with
    | .error e => (.error e, ⟨none, none, none, none⟩)
    | .ok _ =>
      let audit := some ⟨plan, before, decisions⟩
      match service.makeDraft with
      | .error e => (.error e, ⟨audit, none, none, none⟩)
      | .ok draft =>
        match service.checkDraft before draft with
        | .error e => (.error e, ⟨audit, some draft, none, none⟩)
        | .ok _ =>
          let worked := applyToCopy service.cad service.structures service.enabled before.sha256
            snapshot plan.changes draft
          match service.checkOutcome before snapshot plan.changes worked.1 with
          | .error e => (.error e, ⟨audit, some worked.2, none, none⟩)
          | .ok _ =>
            match service.makeOutput worked.2 with
            | .error e => (.error e, ⟨audit, some worked.2, none, none⟩)
            | .ok output =>
              match service.checkOutput path auditFile outputDrawing before plan worked.2
                  output with
              | .error e => (.error e, ⟨audit, some worked.2, some output, none⟩)
              | .ok receipt =>
                match service.writes .receipt with
                | .error e => (.error e, ⟨audit, some worked.2, some output, none⟩)
                | .ok _ => (.ok receipt, ⟨audit, some worked.2, some output, some receipt⟩)

end Apply

end TextService

end CadPlot.TextPlan
