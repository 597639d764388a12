import CadPlot.Lib.Dict
import CadPlot.Publish.Jobs

/-!
# The journal of the publish queue

`PublishQueueJournal` keeps beside each staged job which steps the queue took for
it: that it was queued, started or cancelled. The receipt of its end is there as
well. A file access may fail at any point.
-/

namespace CadPlot.Publish.Queue

inductive PublishJobState where
  | pending | running | succeeded | failed | cancelled
  deriving DecidableEq, Repr

structure PublishJobRequest where
  planId : String
  manifestPath : String
  manifestSha256 : String
  stagedDrawing : String
  outputDirectory : String
  sheetCount : Int
  deriving DecidableEq, Repr

structure PublishJobSnapshot where
  planId : String
  state : PublishJobState
  error : Option String
  deriving DecidableEq, Repr

/-- A started or a cancelled record. -/
structure PublishQueueMarker where
  planId : String
  manifestSha256 : String
  deriving DecidableEq, Repr

structure PublishReceipt where
  planId : String
  manifestSha256 : String
  state : String
  error : Option String
  outputCount : Int
  outputsSha256 : Option String
  deriving DecidableEq, Repr

/-- The records in the directory of a job. -/
structure JobFiles where
  request : Option PublishJobRequest
  started : Option PublishQueueMarker
  cancelled : Option PublishQueueMarker
  receipt : Option PublishReceipt
  deriving DecidableEq, Repr

def JobFiles.empty : JobFiles := ⟨none, none, none, none⟩

/-- The job directories of the workspace, and paths as the platform compares them. -/
structure Host (κ : Type) where
  jobRoot : String → κ
  samePath : String → String → Bool
  samePath_refl : ∀ path, samePath path path = true

/-- What comes of reading a record and of checking it beyond what it says of its job. -/
inductive Reading where
  | intact
  | invalidData (message : String)
  | unauthenticated
  | fileException
  | exception
  deriving DecidableEq, Repr

/-- What comes of creating a record, and whether it is there after an exception. -/
inductive Writing where
  | done
  | fileException (moved : Bool)
  | exception (moved : Bool)
  deriving DecidableEq, Repr

inductive Stop where
  | refused (error : String)
  | raised
  deriving DecidableEq, Repr

section Recording

variable {κ : Type} [DecidableEq κ] (host : Host κ)

/-- `WriteAtomicCreate` between two states of a directory, with the errors for a record that is
there after an exception and for one that is not. -/
def writeAtomicCreate (writing : Writing) (before after : JobFiles) (there missing : String) :
    Except Stop Unit × JobFiles :=
  match writing with
  | .done => (.ok (), after)
  | .fileException true => (.error (.refused there), after)
  | .fileException false => (.error (.refused missing), before)
  | .exception true => (.error .raised, after)
  | .exception false => (.error .raised, before)

def recordPending (writing : Writing) (files : JobFiles) (request : PublishJobRequest) :
    Except Stop Unit × JobFiles :=
  if files.receipt.isSome then (.error (.refused "job_already_completed"), files)
  else if files.request.isSome || files.started.isSome || files.cancelled.isSome then
    (.error (.refused "duplicate_plan"), files)
  else
    writeAtomicCreate writing files { files with request := some request } "duplicate_plan"
      "queue_state_write_failed"

def sameRequest (left right : PublishJobRequest) : Bool :=
  left.planId = right.planId && left.manifestSha256 = right.manifestSha256 &&
    host.samePath left.manifestPath right.manifestPath &&
    host.samePath left.stagedDrawing right.stagedDrawing &&
    host.samePath left.outputDirectory right.outputDirectory &&
    left.sheetCount = right.sheetCount

/-- The checks of the request record that the two other records are written under. -/
def checkRequest (reading : Reading) (onFileException : String) (files : JobFiles)
    (request : PublishJobRequest) : Except Stop Unit :=
  match files.request, reading with
  | none, _ => .error (.refused "queue_state_missing")
  | some _, .invalidData _ => .error (.refused "queue_state_invalid")
  | some _, .unauthenticated => .error (.refused "queue_state_authentication_failed")
  | some _, .fileException => .error (.refused onFileException)
  | some _, .exception => .error .raised
  | some persisted, .intact =>
    if host.jobRoot persisted.manifestPath ≠ host.jobRoot request.manifestPath then
      .error (.refused "queue_state_invalid")
    else if sameRequest host persisted request then .ok ()
    else .error (.refused "queue_state_changed")

def marker (request : PublishJobRequest) : PublishQueueMarker :=
  ⟨request.planId, request.manifestSha256⟩

def recordStarted (reading : Reading) (writing : Writing) (files : JobFiles)
    (request : PublishJobRequest) : Except Stop Unit × JobFiles :=
  match checkRequest host reading
      (if files.started.isSome then "job_already_started" else "queue_state_write_failed")
      files request with
  | .error stop => (.error stop, files)
  | .ok () =>
    if files.cancelled.isSome then (.error (.refused "job_cancelled"), files)
    else if files.receipt.isSome then (.error (.refused "job_already_completed"), files)
    else if files.started.isSome then (.error (.refused "job_already_started"), files)
    else
      writeAtomicCreate writing files { files with started := some (marker request) }
        "job_already_started" "queue_state_write_failed"

/-- Reading the cancelled record that is there already. -/
def checkCancelled (reading : Reading) (existing : PublishQueueMarker)
    (request : PublishJobRequest) : Except Stop Unit :=
  match reading with
  | .invalidData _ => .error (.refused "queue_state_invalid")
  | .unauthenticated => .error (.refused "queue_state_authentication_failed")
  | .fileException => .error (.refused "job_already_cancelled")
  | .exception => .error .raised
  | .intact => if existing = marker request then .ok () else .error (.refused "queue_state_invalid")

def recordCancelled (reading existingReading : Reading) (writing : Writing) (files : JobFiles)
    (request : PublishJobRequest) : Except Stop Unit × JobFiles :=
  match checkRequest host reading
      (if files.cancelled.isSome then "job_already_cancelled" else "queue_state_write_failed")
      files request with
  | .error stop => (.error stop, files)
  | .ok () =>
    if files.started.isSome || files.receipt.isSome then (.error (.refused "job_not_pending"), files)
    else
      match files.cancelled with
      | some existing => (checkCancelled existingReading existing request, files)
      | none =>
        writeAtomicCreate writing files { files with cancelled := some (marker request) }
          "job_already_cancelled" "queue_state_write_failed"

end Recording

section Recovering

inductive Thrown where
  | invalidData (message : String)
  | other
  deriving DecidableEq, Repr

structure PublishQueueRecovery where
  pending : List PublishJobRequest
  states : Dict String PublishJobSnapshot
  manifestHashes : Dict String String
  recoveredOnStartup : Nat
  interruptedOnStartup : Nat
  cancelledOnStartup : Nat

def PublishQueueRecovery.empty : PublishQueueRecovery := ⟨[], .empty, .empty, 0, 0, 0⟩

/-- What the readings of one job directory come to, and what the outputs of its manifest are. -/
structure JobReadings where
  request : Reading
  marker : Reading
  receipt : Reading
  outputs : Option (Int × String)

/-- `ReadRecord` and `Verify`, where the record is what was written. -/
def Reading.check (unauthenticated : String) : Reading → Except Thrown Unit
  | .intact => .ok ()
  | .invalidData message => .error (.invalidData message)
  | .unauthenticated => .error (.invalidData unauthenticated)
  | .fileException | .exception => .error .other

/-- The characters that an optional last line feed leaves: `$` matches before it. -/
def dropLineFeed (value : List Char) : List Char :=
  if value.getLast? = some '\n' then value.dropLast else value

def isSafeErrorChar (c : Char) : Bool := c.isAlphanum || c = '_' || c = ':' || c = '-'

/-- `SafeErrorPattern` -/
def isSafeError (value : String) : Bool :=
  let text := dropLineFeed value.toList
  decide (1 ≤ text.length ∧ text.length ≤ 128) && text.all isSafeErrorChar

/-- `SafeSha256Pattern` -/
def isSafeSha256 (value : String) : Bool :=
  let text := dropLineFeed value.toList
  text.length = 64 && text.all fun c => c.isDigit || decide ('a' ≤ c ∧ c ≤ 'f')

def receiptValid (receipt : PublishReceipt) (request : PublishJobRequest) : Bool :=
  receipt.planId = request.planId && receipt.manifestSha256 = request.manifestSha256 &&
    (receipt.state = "succeeded" || receipt.state = "failed") &&
    !(receipt.state = "succeeded" && (receipt.error.isSome ||
      decide (receipt.outputCount ≠ request.sheetCount) ||
      !isSafeSha256 (receipt.outputsSha256.getD ""))) &&
    !(receipt.state = "failed" && (receipt.error.elim true isNullOrWhiteSpace ||
      !receipt.error.elim false isSafeError || decide (receipt.outputCount ≠ 0) ||
      receipt.outputsSha256.isSome))

def readReceiptSnapshot (readings : JobReadings) (receipt : PublishReceipt)
    (request : PublishJobRequest) : Except Thrown PublishJobSnapshot := do
  readings.receipt.check "publish_queue_receipt_invalid"
  ensure (receiptValid receipt request) (.invalidData "publish_queue_receipt_invalid")
  ensure (decide (receipt.state ≠ "succeeded") || readings.outputs.elim false fun computed =>
      computed.1 = receipt.outputCount && some computed.2 = receipt.outputsSha256)
    (.invalidData "publish_queue_receipt_output_mismatch")
  pure ⟨request.planId, if receipt.state = "succeeded" then .succeeded else .failed, receipt.error⟩

/-- The started record, read and validated. -/
def readStarted (readings : JobReadings) (started : PublishQueueMarker)
    (request : PublishJobRequest) : Except Thrown Unit := do
  readings.marker.check "publish_queue_started_authentication_failed"
  ensure (decide (started = marker request)) (.invalidData "publish_queue_started_invalid")

/-- The state of a job by the records in its directory. -/
def recoverSnapshot (readings : JobReadings) (files : JobFiles) (request : PublishJobRequest) :
    Except Thrown PublishJobSnapshot :=
  match files.cancelled, files.receipt, files.started with
  | some cancelled, receipt, started => do
    ensure (!(started.isSome || receipt.isSome))
      (.invalidData "publish_queue_cancelled_state_conflict")
    readings.marker.check "publish_queue_cancelled_authentication_failed"
    ensure (decide (cancelled = marker request)) (.invalidData "publish_queue_cancelled_invalid")
    pure ⟨request.planId, .cancelled, none⟩
  | none, some _, none => .error (.invalidData "publish_queue_started_marker_missing")
  | none, some receipt, some started => do
    readStarted readings started request
    readReceiptSnapshot readings receipt request
  | none, none, some started => do
    readStarted readings started request
    pure ⟨request.planId, .failed, some "job_interrupted"⟩
  | none, none, none => pure ⟨request.planId, .pending, none⟩

def JobFiles.interrupted (files : JobFiles) : Bool :=
  files.cancelled.isNone && files.receipt.isNone && files.started.isSome

/-- Note a job whose state was found. -/
def PublishQueueRecovery.add (recovery : PublishQueueRecovery) (request : PublishJobRequest)
    (files : JobFiles) (snapshot : PublishJobSnapshot) : PublishQueueRecovery where
  pending := recovery.pending ++ if snapshot.state = .pending then [request] else []
  states := recovery.states.set request.planId snapshot
  manifestHashes := recovery.manifestHashes.set request.planId request.manifestSha256
  recoveredOnStartup :=
    recovery.recoveredOnStartup + if snapshot.state = .pending then 1 else 0
  interruptedOnStartup :=
    recovery.interruptedOnStartup + if files.interrupted then 1 else 0
  cancelledOnStartup :=
    recovery.cancelledOnStartup + if snapshot.state = .cancelled then 1 else 0

variable {κ : Type} [DecidableEq κ] (host : Host κ)

def recoverJob (recovery : PublishQueueRecovery) (jobRoot : κ) (readings : JobReadings)
    (files : JobFiles) : Except Thrown PublishQueueRecovery :=
  match files.request with
  | none =>
    if files.started.isSome || files.cancelled.isSome then
      .error (.invalidData "publish_queue_request_missing")
    else .ok recovery
  | some request => do
    readings.request.check "publish_queue_request_authentication_failed"
    ensure (decide (host.jobRoot request.manifestPath = jobRoot))
      (.invalidData "publish_queue_job_mismatch")
    ensure (recovery.states.get request.planId).isNone
      (.invalidData "publish_queue_duplicate_plan")
    let snapshot ← recoverSnapshot readings files request
    pure (recovery.add request files snapshot)

def maxJobDirectories : Nat := 50000

/-- The loop over the job directories, in the order in which they are found. -/
def recoverJobs (disk : Dict κ JobFiles) :
    Nat → PublishQueueRecovery → List (κ × JobReadings) → Except Thrown PublishQueueRecovery
  | _, recovery, [] => .ok recovery
  | matching, recovery, (jobRoot, readings) :: found => do
    ensure (decide (matching + 1 ≤ maxJobDirectories))
      (.invalidData "publish_queue_job_limit_exceeded")
    let recovery ← recoverJob host recovery jobRoot readings ((disk.get jobRoot).getD .empty)
    recoverJobs disk (matching + 1) recovery found

def recover (capacity : Nat) (disk : Dict κ JobFiles) (found : List (κ × JobReadings)) :
    Except Thrown PublishQueueRecovery := do
  let recovery ← recoverJobs host disk 0 .empty found
  ensure (decide (recovery.pending.length ≤ capacity))
    (.invalidData "publish_queue_recovery_exceeds_capacity")
  pure recovery

end Recovering

end CadPlot.Publish.Queue
