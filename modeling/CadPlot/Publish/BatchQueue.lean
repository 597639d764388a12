import CadPlot.Publish.Batches
import CadPlot.Publish.QueueSafety

/-!
# Queueing a batch of staged jobs

`queue_approved_batch` over the server's `queue_publish_job` and the queue of the
plug-in. Between two calls of a batch the plug-in may work, crash and recover,
and other clients may queue jobs. What a full queue defers is sent again.
-/

namespace CadPlot.Publish.BatchQueue

open Gateway (require require_eq_ok require_bind_eq_ok)
open Queue (Host Event Listed PublishJobRequest Writing tryEnqueue)

/-! ### A batch -/

structure QueueApproval where
  manifestPath : String
  planId : String
  manifestSha256 : String
  deriving DecidableEq

abbrev Fields := List (String × Json)

/-- `fields.get(key) is True` -/
def isTrue (fields : Fields) (key : String) : Bool :=
  match Dict.lookup key fields with
  | some (.bool value) => value
  | _ => false

/-- An item of the report: the approval, and over it what came of its call. -/
structure QueueItem where
  approval : QueueApproval
  result : Fields

def QueueItem.queued (item : QueueItem) : Bool := isTrue item.result "queued"

def QueueItem.deferred (item : QueueItem) : Bool := isTrue item.result "deferred"

/-- What the builder returned or raised, as a dictionary. -/
def queueResult : Except String Json → Fields
  | .error error => [("queued", .bool false), ("error", .str error)]
  | .ok (.obj fields) => fields
  | .ok _ => [("queued", .bool false), ("error", .str "invalid_queue_response")]

/-- The error of a result, or the one of the plug-in. -/
def errorOf (result : Fields) : Json :=
  match (Dict.lookup "error" result).getD .null, Dict.lookup "plugin" result with
  | .null, some (.obj plugin) => (Dict.lookup "error" plugin).getD .null
  | error, _ => error

def isQueueFull (result : Fields) : Bool :=
  match errorOf result with
  | .str error => decide (error = "queue_full")
  | _ => false

def deferredFields : Fields :=
  [("queued", .bool false), ("deferred", .bool true), ("error", .str "queue_full")]

/-- `{**result, "queued": False, "deferred": True, "error": "queue_full"}` -/
def deferResult (result : Fields) : Fields :=
  deferredFields.foldl (fun fields field => Dict.put field.1 field.2 fields) result

structure QueueReport where
  queueBatchId : String
  complete : Bool
  requested : Nat
  queued : Nat
  deferred : Nat
  failed : Int
  items : List QueueItem

section Batch

variable {σ : Type} (queueBuilder : QueueApproval → σ → Except String Json × σ)

/-- The loop of `queue_approved_batch`. Behind a full queue no call is made. -/
def queueEach : Bool → List QueueApproval → σ → List QueueItem × σ
  | _, [], s => ([], s)
  | true, approval :: approvals, s =>
    let (items, s) := queueEach true approvals s
    (⟨approval, deferredFields⟩ :: items, s)
  | false, approval :: approvals, s =>
    let (response, s) := queueBuilder approval s
    let result := queueResult response
    if isQueueFull result = true then
      let (items, s) := queueEach true approvals s
      (⟨approval, deferResult result⟩ :: items, s)
    else
      let (items, s) := queueEach false approvals s
      (⟨approval, result⟩ :: items, s)

/-- `_validate_queue_approvals`; `pathKey` is a resolved path, folded. -/
def validateQueueApprovals (pathKey : String → List Char) (approvals : List QueueApproval) :
    Except String Unit := do
  require (1 ≤ approvals.length ∧ approvals.length ≤ 20)
    "approvals must contain between 1 and 20 items."
  approvals.forM fun approval => do
    require (approval.manifestPath.toList.any (!Text.isSpace ·) = true)
      "Queue approval manifest_path must be a non-empty string."
    require (isPlanId approval.planId = true)
      "Queue approval plan_id must be a SHA-256 identifier."
    require (Protocol.isLowerHexText 64 approval.manifestSha256.toList = true)
      "Queue approval manifest_sha256 must be a SHA-256 digest."
  require (approvals.map fun approval => pathKey approval.manifestPath).Nodup
    "Queue manifest paths must be unique within a batch."
  require (approvals.map QueueApproval.planId).Nodup
    "Queue plan_ids must be unique within a batch."
  require (approvals.map QueueApproval.manifestSha256).Nodup
    "Queue manifest digests must be unique within a batch."

def QueueApproval.json (approval : QueueApproval) : Json :=
  .obj [("manifest_path", .str approval.manifestPath),
    ("manifest_sha256", .str approval.manifestSha256), ("plan_id", .str approval.planId)]

def reportOf (sha256 : List UInt8 → List UInt8) (approvals : List QueueApproval)
    (items : List QueueItem) : QueueReport :=
  let queued := items.countP QueueItem.queued
  let deferred := items.countP QueueItem.deferred
  { queueBatchId := Batches.identifier sha256
      ((Json.arr (approvals.map QueueApproval.json)).render Json.modelStyle)
    complete := decide (queued = items.length)
    requested := items.length
    queued, deferred
    failed := (items.length : Int) - queued - deferred
    items }

def queueApprovedBatch (sha256 : List UInt8 → List UInt8) (pathKey : String → List Char)
    (approvals : List QueueApproval) (s : σ) : Except String QueueReport × σ :=
  match validateQueueApprovals pathKey approvals with
  | .error error => (.error error, s)
  | .ok () =>
    let (items, s) := queueEach queueBuilder false approvals s
    (.ok (reportOf sha256 approvals items), s)

end Batch

/-! ### The calls of the plug-in -/

/-- A plug-in, and the requests that its queue accepted. -/
structure Ledger (κ : Type) where
  world : Queue.World κ
  accepted : List PublishJobRequest

/-- How a call of `queue_publish_job` goes. The checks of the server fail before anything is sent;
else the plug-in gets the request, its validator may refuse it, and the reply may be lost. -/
inductive Turn where
  | unsent (planId : Option String) (error : String)
  | sent (request : PublishJobRequest) (invalid : Option String) (writing : Writing)
      (lost : Option String)

/-- A call, and what happens to the plug-in before it. -/
structure Slot (κ : Type) where
  before : List (Event κ)
  turn : Turn

/-- An error of the pipe is not the one of a full queue. -/
def Turn.Plain : Turn → Prop
  | .unsent _ _ => True
  | .sent _ _ _ lost => lost ≠ some "queue_full"

instance (turn : Turn) : Decidable turn.Plain :=
  match turn with
  | .unsent _ _ => .isTrue trivial
  | .sent _ _ _ _ => inferInstanceAs (Decidable (_ ≠ _))

def refusal (planId : Option String) (error : String) : Fields :=
  ("queued", .bool false) ::
    (planId.elim [] (fun id => [("plan_id", .str id)]) ++ [("error", .str error)])

/-- What the server makes of the reply. An exception in the plug-in answers without the identity
of the request. -/
def answer (request : PublishJobRequest) : Option String → Except Queue.Stop Unit → Fields
  | some error, _ => refusal none error
  | none, .error .raised =>
    refusal none "AutoCAD plug-in response identity/version mismatch."
  | none, .error (.refused error) =>
    [("queued", .bool false), ("plan_id", .str request.planId),
      ("plugin", .obj [("ok", .bool false), ("error", .str error)]), ("error", .str error)]
  | none, .ok () =>
    [("queued", .bool true), ("plan_id", .str request.planId),
      ("plugin", .obj [("ok", .bool true), ("plan_id", .str request.planId),
        ("jobState", .str "Pending")])]

section Calls

variable {κ : Type} [DecidableEq κ] (host : Host κ)

def acceptedBy (w : Queue.World κ) : Event κ → List PublishJobRequest
  | .enqueue r writing =>
    if w.session.any fun s =>
        decide ((tryEnqueue host writing s.queue w.disk r).1 = .ok ()) then [r] else []
  | _ => []

def Ledger.step (l : Ledger κ) (e : Event κ) : Option (Ledger κ) :=
  (Queue.step host l.world e).map fun w => ⟨w, l.accepted ++ acceptedBy host l.world e⟩

/-- An event that cannot happen is passed over. -/
def Ledger.next (l : Ledger κ) (e : Event κ) : Ledger κ :=
  if Listed l.world e then (l.step host e).getD l else l

def Ledger.replay (l : Ledger κ) (events : List (Event κ)) : Ledger κ :=
  events.foldl (Ledger.next host) l

/-- `queue_publish_job` of the server -/
def queuePublishJob (approval : QueueApproval) (turn : Turn) (l : Ledger κ) : Fields × Ledger κ :=
  match turn with
  | .unsent planId error => (refusal planId error, l)
  | .sent request invalid writing lost =>
    if approval.planId ≠ request.planId then
      (refusal none "approved_plan_id does not match the staged job plan_id.", l)
    else if approval.manifestSha256 ≠ request.manifestSha256 then
      (refusal none "approved_manifest_sha256 does not match the staged manifest.", l)
    else
      match l.world.session, invalid with
      | none, _ => (refusal none "AutoCAD plug-in bridge is unavailable", l)
      | some _, some error => (answer request lost (.error (.refused error)), l)
      | some s, none =>
        (answer request lost (tryEnqueue host writing s.queue l.world.disk request).1,
          l.next host (.enqueue request writing))

/-- The builder that the server gives to a batch, over a schedule of its calls. -/
def callPlugin (approval : QueueApproval) :
    Ledger κ × List (Slot κ) → Except String Json × (Ledger κ × List (Slot κ))
  | (l, []) => (.error "AutoCAD plug-in bridge is unavailable", (l, []))
  | (l, slot :: slots) =>
    let (fields, l) := queuePublishJob host approval slot.turn (l.replay host slot.before)
    (.ok (.obj fields), (l, slots))

/-- A client that queues a batch and then, some times over, what was deferred of it. The items that
were answered, and the approvals that are still deferred. -/
def settle (sha256 : List UInt8 → List UInt8) (pathKey : String → List Char) :
    Nat → List QueueApproval → Ledger κ × List (Slot κ) →
      List QueueItem × List QueueApproval × (Ledger κ × List (Slot κ))
  | 0, pending, s => ([], pending, s)
  | n + 1, pending, s =>
    match queueApprovedBatch (callPlugin host) sha256 pathKey pending s with
    | (.error _, s) => ([], pending, s)
    | (.ok report, s) =>
      let deferred := (report.items.filter QueueItem.deferred).map QueueItem.approval
      let (answered, pending, s) := settle sha256 pathKey n deferred s
      (report.items.filter (!·.deferred) ++ answered, pending, s)

end Calls

end CadPlot.Publish.BatchQueue
