import CadPlot.Lib.Runs
import CadPlot.Publish.QueueJournal

/-!
# The publish queue and its worker

`PublishJobQueue` keeps the jobs of one process in memory, under one lock, and
`PublishJobWorker` takes one of them at a time to the executor. A crash leaves
the journal; a new queue recovers from it.
-/

namespace CadPlot.Publish.Queue

structure PublishJobQueue where
  capacity : Nat
  pending : List PublishJobRequest
  states : Dict String PublishJobSnapshot
  manifestHashes : Dict String String
  recoveredOnStartup : Nat
  interruptedOnStartup : Nat
  cancelledOnStartup : Nat

abbrev Disk (κ : Type) := Dict κ JobFiles

section Operations

variable {κ : Type} [DecidableEq κ] (host : Host κ)

def Disk.files (disk : Disk κ) (jobRoot : κ) : JobFiles := (disk.get jobRoot).getD .empty

/-- Do a recording in the directory of a request. -/
def record (disk : Disk κ) (request : PublishJobRequest)
    (recording : JobFiles → Except Stop Unit × JobFiles) : Except Stop Unit × Disk κ :=
  let root := host.jobRoot request.manifestPath
  let recorded := recording (disk.files root)
  (recorded.1, disk.set root recorded.2)

/-- The constructor, once the workspace and its key are found. -/
def newQueue (capacity : Int) (disk : Disk κ) (found : List (κ × JobReadings)) :
    Except Thrown PublishJobQueue := do
  ensure (decide (1 ≤ capacity ∧ capacity ≤ 1000)) .other
  let recovery ← recover host capacity.toNat disk found
  pure ⟨capacity.toNat, recovery.pending, recovery.states, recovery.manifestHashes,
    recovery.recoveredOnStartup, recovery.interruptedOnStartup, recovery.cancelledOnStartup⟩

/-- `TryEnqueue` under the lock, for a request that passes the validator and whose manifest
does. -/
def tryEnqueue (writing : Writing) (queue : PublishJobQueue) (disk : Disk κ)
    (request : PublishJobRequest) : Except Stop Unit × PublishJobQueue × Disk κ :=
  if queue.capacity ≤ queue.pending.length then (.error (.refused "queue_full"), queue, disk)
  else if (queue.states.get request.planId).isSome then
    (.error (.refused "duplicate_plan"), queue, disk)
  else
    match record host disk request fun files => recordPending writing files request with
    | (.error stop, disk) => (.error stop, queue, disk)
    | (.ok (), disk) =>
      (.ok (), { queue with
        pending := queue.pending ++ [request]
        states := queue.states.set request.planId ⟨request.planId, .pending, none⟩
        manifestHashes := queue.manifestHashes.set request.planId request.manifestSha256 }, disk)

/-- Without the first request of the plan. -/
def withoutPlan (planId : Option String) : List PublishJobRequest → List PublishJobRequest
  | [] => []
  | candidate :: pending =>
    if some candidate.planId = planId then pending else candidate :: withoutPlan planId pending

def tryCancelPending (reading existingReading : Reading) (writing : Writing)
    (queue : PublishJobQueue) (disk : Disk κ) (planId manifestSha256 : Option String) :
    Except Stop Unit × PublishJobQueue × Disk κ :=
  match queue.states.get (planId.getD ""), queue.manifestHashes.get (planId.getD "") with
  | some snapshot, some expectedManifestSha256 =>
    if manifestSha256 ≠ some expectedManifestSha256 then
      (.error (.refused "manifest_mismatch"), queue, disk)
    else if snapshot.state = .cancelled then (.ok (), queue, disk)
    else if snapshot.state ≠ .pending then (.error (.refused "job_not_pending"), queue, disk)
    else
      match queue.pending.find? fun candidate => some candidate.planId = planId with
      | none => (.error (.refused "queue_state_missing"), queue, disk)
      | some request =>
        match record host disk request fun files =>
          recordCancelled host reading existingReading writing files request with
        | (.error stop, disk) => (.error stop, queue, disk)
        | (.ok (), disk) =>
          (.ok (), { queue with
            pending := withoutPlan planId queue.pending
            states := queue.states.set (planId.getD "")
              { snapshot with state := .cancelled, error := none } }, disk)
  | _, _ => (.error (.refused "job_not_found"), queue, disk)

/-- Set the state of a snapshot that is there. -/
def PublishJobQueue.setState (queue : PublishJobQueue) (planId : String)
    (state : PublishJobState) (error : Option String → Option String) : PublishJobQueue :=
  match queue.states.get planId with
  | some snapshot =>
    { queue with
      states := queue.states.set planId
        { snapshot with state := state, error := error snapshot.error } }
  | none => queue

def tryStartNext (reading : Reading) (writing : Writing) (queue : PublishJobQueue)
    (disk : Disk κ) : Except Stop PublishJobRequest × PublishJobQueue × Disk κ :=
  match queue.pending with
  | [] => (.error (.refused "no_pending_job"), queue, disk)
  | request :: pending =>
    match record host disk request fun files =>
      recordStarted host reading writing files request with
    | (.error .raised, disk) => (.error .raised, queue, disk)
    | (.error (.refused error), disk) =>
      (.error (.refused error),
        { queue with pending }.setState request.planId .failed fun _ => some error, disk)
    | (.ok (), disk) =>
      (.ok request, { queue with pending }.setState request.planId .running id, disk)

def complete (queue : PublishJobQueue) (planId : String) (succeeded : Bool)
    (error : Option String) : Except Stop Unit × PublishJobQueue :=
  match queue.states.get planId with
  | some snapshot =>
    if snapshot.state = .running then
      (.ok (), { queue with
        states := queue.states.set planId
          { snapshot with
            state := if succeeded then .succeeded else .failed
            error := if succeeded then none else some (error.getD "publish_failed") } })
    else (.error .raised, queue)
  | none => (.error .raised, queue)

end Operations

section Working

structure PublishExecutionResult where
  succeeded : Bool
  error : Option String
  deriving DecidableEq, Repr

def PublishExecutionResult.success : PublishExecutionResult := ⟨true, none⟩

def PublishExecutionResult.failure (error : Option String) : PublishExecutionResult :=
  ⟨false, some (if error.elim true isNullOrWhiteSpace then "publish_failed" else error.getD "")⟩

/-- How a call of the executor ends. -/
inductive Execution where
  | success
  | failure (error : Option String)
  | noResult
  | exception (typeName : String)
  deriving DecidableEq, Repr

def Execution.result : Execution → PublishExecutionResult
  | .success => .success
  | .failure error => .failure error
  | .noResult => .failure (some "publisher_returned_no_result")
  | .exception typeName => .failure (some ("publisher_exception:" ++ typeName))

/-- What the writer of a receipt comes upon: the validation of the request, the outputs of the
manifest, and the write, with the type of an exception that is not of the file system. -/
structure ReceiptTurn where
  validation : Option String
  outputs : Except String (Int × String)
  writing : Writing
  typeName : String

/-- `PublishReceiptWriter.Write`, with what the worker makes of an exception -/
def writeReceipt (turn : ReceiptTurn) (files : JobFiles) (request : PublishJobRequest)
    (execution : PublishExecutionResult) : Option String × JobFiles :=
  let outputs := if execution.succeeded then turn.outputs.map some else .ok none
  match turn.validation, outputs with
  | some error, _ => (some error, files)
  | none, .error error => (some error, files)
  | none, .ok outputs =>
    if outputs.any fun computed => computed.1 ≠ request.sheetCount then
      (some "receipt_output_count_mismatch", files)
    else if files.receipt.isSome then (some "receipt_exists", files)
    else
      let receipt : PublishReceipt :=
        { planId := request.planId
          manifestSha256 := request.manifestSha256
          state := if execution.succeeded then "succeeded" else "failed"
          error := if execution.succeeded then none else execution.error
          outputCount := (outputs.map Prod.fst).getD 0
          outputsSha256 := outputs.map Prod.snd }
      let written := { files with receipt := some receipt }
      match turn.writing with
      | .done => (none, written)
      | .fileException moved => (some "receipt_write_failed", if moved then written else files)
      | .exception moved =>
        (some ("receipt_exception:" ++ turn.typeName), if moved then written else files)

/-- Where `ProcessNext` is: it runs once at a time. -/
inductive Worker where
  | idle
  | started (request : PublishJobRequest)
  | executing (request : PublishJobRequest)
  | executed (request : PublishJobRequest) (execution : PublishExecutionResult)
  | recorded (request : PublishJobRequest) (execution : PublishExecutionResult)

def Worker.request? : Worker → Option PublishJobRequest
  | .idle => none
  | .started request | .executing request | .executed request _ | .recorded request _ =>
    some request

def Worker.ofStart : Except Stop PublishJobRequest → Worker
  | .ok request => .started request
  | .error _ => .idle

/-- A queue and its worker, in one process. -/
structure Session where
  queue : PublishJobQueue
  worker : Worker
  hasReceiptWriter : Bool

/-- The journals, the process if there is one, the jobs handed to the executor and the plans whose
cancellation was reported successful. -/
structure World (κ : Type) where
  disk : Disk κ
  session : Option Session
  executions : List PublishJobRequest
  cancellations : List String

def World.start {κ : Type} (disk : Disk κ) : World κ := ⟨disk, none, [], []⟩

inductive Event (κ : Type) where
  | restart (capacity : Int) (hasReceiptWriter : Bool) (found : List (κ × JobReadings))
  | crash
  | enqueue (request : PublishJobRequest) (writing : Writing)
  | cancel (planId manifestSha256 : Option String) (reading existingReading : Reading)
      (writing : Writing)
  | startNext (reading : Reading) (writing : Writing)
  | execute
  | executorReturn (execution : Execution)
  | receipt (turn : ReceiptTurn)
  | complete

variable {κ : Type} [DecidableEq κ] (host : Host κ)

def World.withSession (w : World κ) (f : Session → World κ) : Option (World κ) := w.session.map f

/-- One step. A crash within a step is a crash after it: what is in memory is lost, and what is on
the disk is that of a write which raised. -/
def step (w : World κ) : Event κ → Option (World κ)
  | .restart capacity hasReceiptWriter found =>
    match w.session with
    | some _ => none
    | none =>
      match newQueue host capacity w.disk found with
      | .ok queue => some { w with session := some ⟨queue, .idle, hasReceiptWriter⟩ }
      | .error _ => some w
  | .crash => w.withSession fun _ => { w with session := none }
  | .enqueue request writing => w.withSession fun s =>
    let (_, queue, disk) := tryEnqueue host writing s.queue w.disk request
    { w with disk, session := some { s with queue } }
  | .cancel planId manifestSha256 reading existingReading writing => w.withSession fun s =>
    let (result, queue, disk) :=
      tryCancelPending host reading existingReading writing s.queue w.disk planId manifestSha256
    { w with
      disk
      session := some { s with queue }
      cancellations :=
        if result = .ok () then w.cancellations ++ [planId.getD ""] else w.cancellations }
  | .startNext reading writing =>
    match w.session with
    | some ⟨queue, .idle, hasReceiptWriter⟩ =>
      let (result, queue, disk) := tryStartNext host reading writing queue w.disk
      some { w with disk, session := some ⟨queue, .ofStart result, hasReceiptWriter⟩ }
    | _ => none
  | .execute =>
    match w.session with
    | some ⟨queue, .started request, hasReceiptWriter⟩ =>
      some { w with
        session := some ⟨queue, .executing request, hasReceiptWriter⟩
        executions := w.executions ++ [request] }
    | _ => none
  | .executorReturn execution =>
    match w.session with
    | some ⟨queue, .executing request, hasReceiptWriter⟩ =>
      some { w with
        session := some ⟨queue, .executed request execution.result, hasReceiptWriter⟩ }
    | _ => none
  | .receipt turn =>
    match w.session with
    | some ⟨queue, .executed request execution, true⟩ =>
      let root := host.jobRoot request.manifestPath
      let (error, files) := writeReceipt turn (w.disk.files root) request execution
      let execution := error.elim execution fun error => .failure (some error)
      some { w with
        disk := w.disk.set root files
        session := some ⟨queue, .recorded request execution, true⟩ }
    | some ⟨queue, .executed request execution, false⟩ =>
      some { w with session := some ⟨queue, .recorded request execution, false⟩ }
    | _ => none
  | .complete =>
    match w.session with
    | some ⟨queue, .recorded request execution, hasReceiptWriter⟩ =>
      let (_, queue) := complete queue request.planId execution.succeeded execution.error
      some { w with session := some ⟨queue, .idle, hasReceiptWriter⟩ }
    | _ => none

end Working

end CadPlot.Publish.Queue
