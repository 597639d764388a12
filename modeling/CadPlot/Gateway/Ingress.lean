import CadPlot.Gateway.Service
import CadPlot.Lib.Runs

/-!
# The completion of a task

`GatewayWorkerIngress.complete`, from one answer of a dependency to the next.
The replay guard, the signature check, the service and the clock each answer
when they are asked, or raise, and what they answer decides how the call goes
on. The parser of payloads is a parameter. It returns what the ingress reads of
an envelope, and the canonical bytes of the whole of it.
-/

namespace CadPlot.Gateway.Ingress

open Replay Service

/-- How a call of `complete` fails. -/
inductive Failure where
  | ingress (code : String)
  | service (error : ServiceError)
  deriving DecidableEq

/-- What one call works on throughout. -/
structure CompleteCall where
  worker : WorkerContext
  correlation : DispatchCorrelation
  envelope : WorkerResultEnvelope
  canonicalResult : List UInt8
  resultSha256 : Sha256Hex
  deriving DecidableEq

/-- What the call asks for next. -/
inductive Stage where
  | classifying
  | readingClock
  | verifying
  | claiming
  | acquiring
  | needing
  | rechecking
  | preparing (retried : Bool)
  | calling (retried : Bool) (call : RepositoryCall)
  | marking
  | returned (result : Except Failure Unit)

/-- What a dependency answers; nothing where it raises. -/
inductive Reply where
  | classification (answer : Option ResultReplayClassification)
  | clock (now : Datetime)
  | signature (valid : Option Bool)
  | application (status : Option ResultApplicationStatus)
  | reads (catalog : Catalog) (operation : Option OperationRecord)
  | repository (outcome : Except RaisedError TransitionOutcome)
  | marked (applied : Option Bool)
  | raised (error : RaisedError)

def fail (code : String) : Stage := .returned (.error (.ingress code))

/-- `_now` and `_require_fresh_completion` -/
def whenFresh (maxResultAge : Int) (call : CompleteCall) (now : Datetime) (next : Stage) : Stage :=
  match now.utc with
  | none => fail "clock_invalid"
  | some now =>
    match requireFreshCompletion maxResultAge call.envelope call.correlation now with
    | .ok () => next
    | .error code => fail code

/-- `_result_needs_application` -/
def resultNeedsApplication (call : CompleteCall) (catalog : Catalog)
    (operation : Option OperationRecord) : Except Failure Bool :=
  match call.envelope.result with
  | .error _ code attentionRequired =>
    (workerFailureNeedsApplication call.worker catalog operation code attentionRequired).mapError
      fun e => .service (.gateway e)
  | result =>
    match gatewayResult result with
    | .error code => .error (.ingress code)
    | .ok adapted =>
      (workerResultNeedsApplication call.worker catalog operation adapted).mapError
        fun e => .service (.gateway e)

/-- `_apply_result` up to the call of the repository, if there is to be one. -/
def prepareResult (call : CompleteCall) (catalog : Catalog) (operation : Option OperationRecord) :
    Except Failure (Option RepositoryCall) :=
  match call.envelope.result with
  | .error _ code attentionRequired =>
    (workerFail call.worker catalog operation code attentionRequired).mapError
      fun e => .service (.gateway e)
  | result =>
    match (do
      let adapted ← gatewayResult result
      let projects ← projectRecords call.correlation result
      let drawings ← drawingRecords call.correlation result
      pure (adapted, projects, drawings)) with
    | .error code => .error (.ingress code)
    | .ok (adapted, projects, drawings) =>
      ((workerApplySuccess call.worker catalog operation adapted projects drawings).map
        some).mapError fun e => .service (.gateway e)

/-- A failed finish is tried once more when the service found the state invalid. -/
def afterFailure (retried : Bool) (isFailure : Bool) (error : ServiceError) : Stage :=
  if isFailure ∧ ¬retried ∧ error = .gateway "invalid_state" then .preparing true
  else .returned (.error (.service error))

/-- What the call does with an answer. -/
def advance (maxResultAge : Int) (call : CompleteCall) : Stage → Reply → Option Stage
  | .classifying, .classification (some .exactMatch) => some .acquiring
  | .classifying, .classification (some .unseen) => some .readingClock
  | .classifying, .classification _ => some (fail "result_replayed")
  | .readingClock, .clock now => some (whenFresh maxResultAge call now .verifying)
  | .verifying, .signature (some true) => some .claiming
  | .verifying, .signature _ => some (fail "worker_signature_invalid")
  | .claiming, .classification (some .exactMatch) => some .acquiring
  | .claiming, .classification (some .firstSeen) => some .acquiring
  | .claiming, .classification (some .unseen) => some (fail "result_stale")
  | .claiming, .classification _ => some (fail "result_replayed")
  | .acquiring, .application (some .applied) => some (.returned (.ok ()))
  | .acquiring, .application (some .acquired) => some .needing
  | .acquiring, .application _ => some (fail "result_replayed")
  | .needing, .reads catalog operation =>
    match resultNeedsApplication call catalog operation with
    | .error e => some (.returned (.error e))
    | .ok true => some .rechecking
    | .ok false => some .marking
  | .rechecking, .clock now => some (whenFresh maxResultAge call now (.preparing false))
  | .preparing retried, .reads catalog operation =>
    match prepareResult call catalog operation with
    | .error (.service e) => some (afterFailure retried (call.envelope.result.isError) e)
    | .error e => some (.returned (.error e))
    | .ok none => some .marking
    | .ok (some repositoryCall) => some (.calling retried repositoryCall)
  | .calling retried repositoryCall, .repository outcome =>
    let result := match repositoryCall with
      | .applyWorkerSuccess .. => appliedSuccess outcome
      | .finishOperation .. => finishedFailure outcome
    match result with
    | .ok () => some .marking
    | .error e => some (afterFailure retried (call.envelope.result.isError) e)
  | .calling _ _, .clock now =>
    if now.utc = none then some (.returned (.error (.service (.gateway "clock_invalid")))) else none
  | .marking, .marked (some true) => some (.returned (.ok ()))
  | .marking, .marked _ => some (fail "result_replayed")
  | .needing, .raised e | .preparing _, .raised e => some (.returned (.error (.service (.raised e))))
  | _, _ => none

/-- The replay arguments of a call. -/
def CompleteCall.key (call : CompleteCall) : Key :=
  ⟨call.correlation.tenantId, call.correlation.deviceId, call.correlation.nonce⟩

def CompleteCall.binding (call : CompleteCall) : Binding Datetime :=
  ⟨call.correlation.taskId, call.correlation.commandId, call.resultSha256,
    .aware call.envelope.completedAt⟩

/-- `canonical_result + b"." + envelope.signature.encode("ascii")` -/
def signedBytes (canonical : List UInt8) (signature : Signature) : List UInt8 :=
  canonical ++ 46 :: signature.encode

/-- What is hashed of a signed result. -/
def CompleteCall.bytes (call : CompleteCall) : List UInt8 :=
  signedBytes call.canonicalResult call.envelope.signature

/-- What the signature check is asked. -/
def CompleteCall.triple (call : CompleteCall) : WorkstationId × List UInt8 × Signature :=
  (call.correlation.deviceId, call.canonicalResult, call.envelope.signature)

/-- The part of `complete` before its first question. -/
def openCall {π : Type} (parseResultPayload : π → Option (WorkerResultEnvelope × List UInt8))
    (sha256 : List UInt8 → Sha256Hex) (worker : WorkerContext)
    (correlation : DispatchCorrelation) (payload : π) : Except Failure CompleteCall :=
  match requireWorkerContext worker correlation with
  | .error code => .error (.ingress code)
  | .ok () =>
    match parseResultPayload payload with
    | none => .error (.ingress "result_invalid")
    | some (envelope, canonicalResult) =>
      match requireResultBinding envelope correlation with
      | .error code => .error (.ingress code)
      | .ok () =>
        .ok ⟨worker, correlation, envelope, canonicalResult,
          sha256 (signedBytes canonicalResult envelope.signature)⟩

/-- A repository of operations, of which a call touches one operation only. -/
structure RepositoryApi (R : Type) where
  getOperation : R → OperationId → Option OperationRecord
  run : RepositoryCall → OperationId → WorkerContext → Int → R →
    Except RaisedError TransitionOutcome × R
  frame : ∀ call operationId worker now repo other, other ≠ operationId →
    getOperation (run call operationId worker now repo).2 other = getOperation repo other

/-- What a claim does to the bindings of a guard, for each answer it may give. A claim that raises
may have bound the key before. -/
def claimEffect {β : Type} [DecidableEq β] (seen : Key → Option β) (key : Key) (value : β)
    (answer : Option ResultReplayClassification) (bound : Bool) : Option (Key → Option β) :=
  match answer with
  | some .firstSeen =>
    if seen key = none then some (Function.update seen key (some value)) else none
  | some .exactMatch => if seen key = some value then some seen else none
  | some _ => some seen
  | none =>
    if bound ∧ seen key = none then some (Function.update seen key (some value)) else some seen

structure OpenedCall extends CompleteCall where
  stage : Stage

/-- The bindings of the replay guard, what the signature check has accepted for which device, what
has been hashed, and the calls in progress. -/
structure World (R : Type) where
  repo : R
  seen : Key → Option (Binding Datetime)
  verified : List (WorkstationId × List UInt8 × Signature)
  hashed : List (List UInt8)
  calls : Dict Nat OpenedCall

/-- A repository that raises may have changed before. -/
inductive Fault where
  | before (error : RaisedError)
  | after (error : RaisedError)

/-- Any caller may complete anything. What else happens to the repository is `elsewhere`. -/
inductive Event (R π : Type) where
  | elsewhere (repo : R)
  | complete (n : Nat) (worker : WorkerContext) (correlation : DispatchCorrelation) (payload : π)
  | answer (n : Nat) (reply : Reply)
  | claim (n : Nat) (answer : Option ResultReplayClassification) (bound : Bool)
  | repository (n : Nat) (now : Int) (fault : Option Fault)

def Event.isElsewhere {R π : Type} : Event R π → Bool
  | .elsewhere _ => true
  | _ => false

section Machine

variable {R π : Type} (api : RepositoryApi R) (sha256 : List UInt8 → Sha256Hex)
  (parseResultPayload : π → Option (WorkerResultEnvelope × List UInt8)) (maxResultAge : Int)

def World.goto (w : World R) (n : Nat) (call : OpenedCall) (stage : Stage) : World R :=
  { w with calls := w.calls.set n { call with stage := stage } }

/-- A new call takes a number that was never used. -/
def complete (w : World R) (n : Nat) (worker : WorkerContext) (correlation : DispatchCorrelation)
    (payload : π) : Option (World R) :=
  if w.calls.get n ≠ none then none
  else
    match openCall parseResultPayload sha256 worker correlation payload with
    | .error _ => some w
    | .ok call =>
      some { w with
        hashed := call.bytes :: w.hashed
        calls := w.calls.set n ⟨call, .classifying⟩ }

/-- An exact match is answered for what is bound, and a signature is accepted for its device. -/
def answer (w : World R) (n : Nat) (call : OpenedCall) (reply : Reply) : Option (World R) :=
  match call.stage, reply with
  | .claiming, _ => none
  | .calling _ _, .repository _ => none
  | stage, reply =>
    match advance maxResultAge call.toCompleteCall stage reply with
    | none => none
    | some next =>
      match stage, reply with
      | .classifying, .classification (some .exactMatch) =>
        if w.seen call.key = some call.binding then some (w.goto n call next) else none
      | .verifying, .signature (some true) =>
        some { w.goto n call next with verified := call.triple :: w.verified }
      | _, _ => some (w.goto n call next)

def claim (w : World R) (n : Nat) (call : OpenedCall)
    (answer : Option ResultReplayClassification) (bound : Bool) : Option (World R) :=
  match call.stage with
  | .claiming =>
    match claimEffect w.seen call.key call.binding answer bound,
      advance maxResultAge call.toCompleteCall .claiming (.classification answer) with
    | some seen, some next => some { w.goto n call next with seen := seen }
    | _, _ => none
  | _ => none

def repository (w : World R) (n : Nat) (call : OpenedCall) (now : Int) (fault : Option Fault) :
    Option (World R) :=
  match call.stage with
  | .calling retried repositoryCall =>
    let (outcome, repo) :=
      api.run repositoryCall call.correlation.operationId call.worker now w.repo
    let (outcome, repo) := match fault with
      | none => (outcome, repo)
      | some (.before error) => (.error error, w.repo)
      | some (.after error) => (.error error, repo)
    match advance maxResultAge call.toCompleteCall (.calling retried repositoryCall)
      (.repository outcome) with
    | none => none
    | some next => some { w.goto n call next with repo := repo }
  | _ => none

def step (w : World R) : Event R π → Option (World R)
  | .elsewhere repo => some { w with repo := repo }
  | .complete n worker correlation payload =>
    complete sha256 parseResultPayload w n worker correlation payload
  | .answer n reply =>
    match w.calls.get n with
    | none => none
    | some call => answer maxResultAge w n call reply
  | .claim n given bound =>
    match w.calls.get n with
    | none => none
    | some call => claim maxResultAge w n call given bound
  | .repository n now fault =>
    match w.calls.get n with
    | none => none
    | some call => repository api maxResultAge w n call now fault

def start (repo : R) : World R := ⟨repo, fun _ => none, [], [], .empty⟩

end Machine

end CadPlot.Gateway.Ingress
