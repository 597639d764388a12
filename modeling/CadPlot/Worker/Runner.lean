import CadPlot.Gateway.IngressStores

/-!
# The worker and its gateway

`WorkerRunner.run_once` with its durable outbox, against the completion of tasks
at a gateway with the in-memory guard and repository. A request may be lost,
repeated or late, a call may be cut off at any of its questions, and both sides
may wait as long as they like. Only what is stored outlives an iteration of the
runner or a call.
-/

namespace CadPlot.Worker

open Gateway Gateway.Replay Gateway.Ingress Gateway.Service

/-- A result as it is stored and sent: the envelope, and the canonical bytes of it. -/
structure SignedResult where
  envelope : WorkerResultEnvelope
  canonical : List UInt8
  deriving DecidableEq

/-- The rows of `pending_worker_results`, in no order. -/
abbrev Outbox := List SignedResult

/-- The order of the outbox: `completed_at, task_id`. -/
def SignedResult.before (a b : SignedResult) : Bool :=
  decide (a.envelope.completedAt < b.envelope.completedAt) ||
    (decide (a.envelope.completedAt = b.envelope.completedAt) &&
      decide (a.envelope.taskId < b.envelope.taskId))

def SignedResult.sameTask (a b : SignedResult) : Bool :=
  a.envelope.tenantId = b.envelope.tenantId ∧ a.envelope.deviceId = b.envelope.deviceId ∧
    a.envelope.taskId = b.envelope.taskId

def SignedResult.sameCommand (a b : SignedResult) : Bool :=
  a.envelope.tenantId = b.envelope.tenantId ∧ a.envelope.deviceId = b.envelope.deviceId ∧
    a.envelope.operationId = b.envelope.operationId ∧ a.envelope.commandId = b.envelope.commandId

/-- `save_pending_result` -/
def savePendingResult (outbox : Outbox) (result : SignedResult) : Except String Outbox :=
  match outbox.find? result.sameTask with
  | some existing =>
    if existing = result then .ok outbox
    else .error "Pending worker result conflicts with an outbox row."
  | none =>
    if outbox.any result.sameCommand then .error "Pending worker result outbox is unavailable."
    else .ok (result :: outbox)

/-- `next_pending_result` -/
def nextPendingResult (worker : WorkerContext) (outbox : Outbox) : Option SignedResult :=
  match outbox.filter fun r =>
    r.envelope.tenantId = worker.tenantId ∧ r.envelope.deviceId = worker.workstationId with
  | [] => none
  | r :: rs => some (rs.foldl (fun best x => if x.before best then x else best) r)

/-- `acknowledge_pending_result` -/
def acknowledgePendingResult (outbox : Outbox) (result : SignedResult) : Except String Outbox :=
  if result ∈ outbox then .ok (outbox.filter fun r => r ≠ result)
  else .error "Pending worker result acknowledgement is invalid."

/-- Where an iteration of `run_once` stands between its calls of the client. -/
inductive Iteration where
  | idle
  | polling
  | posting (result : SignedResult)
  deriving DecidableEq

/-- A call of `complete` in progress, or one that was cut off. -/
structure Delivery extends CompleteCall where
  applicationId : Uuid
  stage : Option Stage

structure World where
  now : Int
  guard : InMemoryResultReplayGuard
  repo : InMemoryGatewayRepository
  calls : Dict Nat Delivery
  outbox : Outbox
  /-- Every result that was ever posted. -/
  sent : List SignedResult
  iteration : Iteration

/-- What else happens to the repository is `elsewhere`. An iteration ends early, by an exception or a
crash, when it gives up. -/
inductive Event where
  | tick (now : Int)
  | elsewhere (repo : InMemoryGatewayRepository)
  | runOnce
  | nothing
  | save (result : SignedResult)
  | giveUp
  | receive (n : Nat) (result : SignedResult) (applicationId : Uuid)
  | proceed (n : Nat)
  | abandon (n : Nat)
  | acknowledge (n : Nat)

/-- What a worker retrying its oldest result brings about, and the gateway answering it. -/
def Event.retries : Event → Bool
  | .tick _ | .runOnce | .giveUp | .receive .. | .proceed _ | .acknowledge _ => true
  | _ => false

/-- The worker and what its gateway is configured with: the dispatch stored for a task, the digest,
and the check of signatures. -/
structure Settings where
  worker : WorkerContext
  getDispatch : TaskId → OperationId → Option DispatchCorrelation
  sha256 : List UInt8 → Sha256Hex
  verifyWorkerSignature : WorkstationId → List UInt8 → Signature → Bool
  maxResultAge : Int
  resultAge : seconds 1 ≤ maxResultAge ∧ maxResultAge ≤ seconds 300

def resultApplicationLeaseSeconds : Int := 30

def catalogOf (repo : InMemoryGatewayRepository) : Catalog :=
  ⟨repo.workstations.get, repo.projects.get, repo.drawings.get⟩

section Machine

variable (settings : Settings)

/-- `claim_expires_at` -/
def Settings.claimExpiresAt (call : CompleteCall) : Int :=
  min (call.envelope.completedAt + settings.maxResultAge) call.correlation.operationExpiresAt

/-- What a dependency answers a call at a stage, and what it does. -/
def ask (w : World) (call : Delivery) : Stage → Option (Reply × World)
  | .classifying => some (.classification (some (w.guard.classify call.key call.binding)), w)
  | .readingClock | .rechecking => some (.clock (.aware w.now), w)
  | .verifying =>
    some (.signature (some (settings.verifyWorkerSignature call.correlation.deviceId
      call.canonicalResult call.envelope.signature)), w)
  | .claiming =>
    let (answer, guard) := w.guard.claim call.key call.binding
      (.aware (settings.claimExpiresAt call.toCompleteCall)) (.aware w.now)
    some (.classification (some answer), { w with guard := guard })
  | .acquiring =>
    let (status, guard) := w.guard.acquireApplication call.key call.binding call.applicationId
      resultApplicationLeaseSeconds (.aware w.now)
    some (.application (some status), { w with guard := guard })
  | .needing | .preparing _ =>
    some (.reads (catalogOf w.repo) (w.repo.operations.get call.correlation.operationId), w)
  | .calling _ repositoryCall =>
    let (outcome, repo) :=
      runInMemory repositoryCall call.correlation.operationId call.worker w.now w.repo
    some (.repository outcome, { w with repo := repo })
  | .marking =>
    let (applied, guard) :=
      w.guard.markApplied call.key call.binding call.applicationId (.aware w.now)
    some (.marked (some applied), { w with guard := guard })
  | .returned _ => none

/-- The call goes on to another stage. -/
def World.moved (w : World) (n : Nat) (call : Delivery) (next : Stage) : World :=
  { w with calls := w.calls.set n { call with stage := some next } }

def proceed (w : World) (n : Nat) (call : Delivery) : Option World :=
  match call.stage with
  | none => none
  | some stage =>
    match ask settings w call stage with
    | none => none
    | some (reply, w) =>
      match advance settings.maxResultAge call.toCompleteCall stage reply with
      | none => none
      | some next => some (w.moved n call next)

/-- A request that reaches the gateway. One that is refused before the first question of `complete`
starts no call. -/
def receive (w : World) (n : Nat) (result : SignedResult) (applicationId : Uuid) : Option World :=
  if ¬(result ∈ w.sent ∧ applicationId.version = some 4 ∧ w.calls.get n = none) then none
  else
    match settings.getDispatch result.envelope.taskId result.envelope.operationId with
    | none => some w
    | some correlation =>
      match openCall (fun r : SignedResult => some (r.envelope, r.canonical)) settings.sha256
        settings.worker correlation result with
      | .error _ => some w
      | .ok call => some { w with calls := w.calls.set n ⟨call, applicationId, some .classifying⟩ }

def acknowledge (w : World) (result : SignedResult) (call : Delivery) : Option World :=
  match call.stage with
  | some (.returned (.ok ())) =>
    if call.envelope = result.envelope ∧ call.canonicalResult = result.canonical then
      match acknowledgePendingResult w.outbox result with
      | .ok outbox => some { w with outbox := outbox, iteration := .idle }
      | .error _ => some { w with iteration := .idle }
    else none
  | _ => none

def post (w : World) (result : SignedResult) : World :=
  { w with iteration := .posting result, sent := result :: w.sent }

def step (w : World) : Event → Option World
  | .tick now => if w.now ≤ now then some { w with now := now } else none
  | .elsewhere repo => some { w with repo := repo }
  | .runOnce =>
    match w.iteration, nextPendingResult settings.worker w.outbox with
    | .idle, some pending => some (post w pending)
    | .idle, none => some { w with iteration := .polling }
    | _, _ => none
  | .nothing =>
    if w.iteration = .polling then some { w with iteration := .idle } else none
  | .save result =>
    if w.iteration = .polling then
      match savePendingResult w.outbox result with
      | .ok outbox => some (post { w with outbox := outbox } result)
      | .error _ => some { w with iteration := .idle }
    else none
  | .giveUp => if w.iteration = .idle then none else some { w with iteration := .idle }
  | .receive n result applicationId => receive settings w n result applicationId
  | .proceed n =>
    match w.calls.get n with
    | none => none
    | some call => proceed settings w n call
  | .abandon n =>
    match w.calls.get n with
    | none => none
    | some call => some { w with calls := w.calls.set n { call with stage := none } }
  | .acknowledge n =>
    match w.iteration, w.calls.get n with
    | .posting result, some call => acknowledge w result call
    | _, _ => none

def start (now : Int) (repo : InMemoryGatewayRepository) : World :=
  ⟨now, emptyGuard true, repo, .empty, [], [], .idle⟩

end Machine

end CadPlot.Worker
