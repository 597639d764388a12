import Mathlib.Data.List.Sort
import CadPlot.Gateway.Models
import CadPlot.Lib.Dict
import CadPlot.Lib.Json
import CadPlot.Lib.Runs
import CadPlot.Lib.SingleWriter

/-!
# The translation store of a workstation

`RemoteTranslationBackend.execute` over its SQLite tables, one statement at a
time: reviews, plans and the claims of writes. The planner and the writing of a
drawing answer as they like. A request may fail or be cut off at any statement,
and requests of other processes run in between. A scan asks nothing of the store.
-/

namespace CadPlot.Translation

open Gateway

abbrev ScopeId := String

/-- What a plan holds that the store and its answers read. -/
structure TranslationPlan where
  planId : HashId
  inventoryId : HashId
  ready : Bool
  reviewedSpans : Nat
  changes : List TranslationChange
  blockers : List String
  deriving DecidableEq

/-- The payload of a row of `plans`. -/
structure StoredPlan where
  plan : TranslationPlan
  decisions : List RemoteDecision
  reviewId : HashId
  deriving DecidableEq

structure Tables where
  reviews : Dict (ScopeId × HashId) (List RemoteDecision)
  plans : Dict (ScopeId × HashId) StoredPlan
  /-- A row of `writes` is a claim, with a receipt once the write has ended. -/
  writes : Dict (ScopeId × HashId) (Option TranslationResponse)

/-- What `apply_translation` returns of a write. -/
structure TranslationReceipt where
  planId : HashId
  outputFolder : String
  outputSha256 : Sha256Hex
  changedRecords : Nat
  sourceUnchanged : Bool
  textRoundtripVerified : Bool
  inspectedStructureUnchanged : Bool

inductive Failure where
  | value (code : String)
  | attentionRequired (code : String)
  /-- An exception of the database or of the system. -/
  | fault
  deriving DecidableEq

section Reviews

/-- `{d["span_id"]: d for d in ...}`, over what there is. -/
def update (byId : Dict String RemoteDecision) (decisions : List RemoteDecision) :
    Dict String RemoteDecision :=
  decisions.foldl (fun d x => d.set x.spanId x) byId

def byId (decisions : List RemoteDecision) : Dict String RemoteDecision := update .empty decisions

/-- `[by_id[key] for key in sorted(by_id)]` -/
def inOrder (byId : Dict String RemoteDecision) : List RemoteDecision :=
  ((byId.entries.map Prod.fst).insertionSort (· ≤ ·)).filterMap byId.get

def merge (current decisions : List RemoteDecision) : List RemoteDecision :=
  inOrder (update (byId current) decisions)

def isRetry (current decisions : List RemoteDecision) : Bool :=
  decisions.all fun d => (byId current).get d.spanId = some d

def languageText : SourceLanguage → String
  | .tr => "tr"
  | .en => "en"
  | .other => "other"
  | .uncertain => "uncertain"

/-- A decision with its keys in the order of `model_dump`. -/
def decisionJson (d : RemoteDecision) : Json :=
  .obj [("span_id", .str d.spanId), ("source", .str d.source),
    ("source_language", .str (languageText d.sourceLanguage)), ("target", .str d.target)]

/-- A decision with its keys sorted, as it is digested. -/
def sortedDecisionJson (d : RemoteDecision) : Json :=
  .obj [("source", .str d.source), ("source_language", .str (languageText d.sourceLanguage)),
    ("span_id", .str d.spanId), ("target", .str d.target)]

def maxReviewedSpans : Nat := 100000
def maxReviewBytes : Nat := 8 * 1024 * 1024

/-- `len(json.dumps(current))` -/
def reviewLength (current : List RemoteDecision) : Nat :=
  (Json.render Json.asciiStyle (.arr (current.map decisionJson))).length

def tooLarge (current : List RemoteDecision) : Bool :=
  decide (maxReviewedSpans < current.length) || decide (maxReviewBytes < reviewLength current)

end Reviews

/-- What the backend is run with: the digest of a text, in 64 digits, and the length of a response as
it is serialised, which is a few hundred bytes where it holds no text. -/
structure Settings where
  sha256 : List Char → Sha256Hex
  sha256_length : ∀ text, (sha256 text).length = 64
  responseBytes : TranslationResponse → Nat
  review_fits : ∀ inventoryId reviewId reviewedSpans, inventoryId.length = 71 →
    reviewId.length = 71 → reviewedSpans ≤ maxReviewedSpans →
      responseBytes (.review inventoryId reviewId reviewedSpans) ≤ 1024

section Answers

variable (settings : Settings)

def Settings.digest (value : Json) : Sha256Hex :=
  settings.sha256 (Json.render Json.compactAsciiStyle value)

/-- `_review_id` -/
def Settings.reviewId (inventory : HashId) (decisions : List RemoteDecision) : HashId :=
  "sha256:" ++ settings.digest (.arr [.str inventory, .arr (decisions.map sortedDecisionJson)])

/-- What a review that is read is known by; nothing where there is no row. -/
def Settings.storedId (inventory : HashId) (row : Option (List RemoteDecision)) : Option HashId :=
  row.map (settings.reviewId inventory)

/-- What a submission makes of the row that it reads. -/
def submitReview (inventory : HashId) (expectedReviewId : Option HashId)
    (decisions : List RemoteDecision) (row : Option (List RemoteDecision)) :
    Except Failure (List RemoteDecision) :=
  let current := row.getD []
  if expectedReviewId ≠ settings.storedId inventory row ∧ ¬isRetry current decisions then
    .error (.value "translation_review_conflict")
  else if tooLarge (merge current decisions) then .error (.value "translation_review_too_large")
  else .ok (merge current decisions)

def maxResponseBytes : Nat := 512 * 1024

/-- The check of what is returned at the end of `execute`. -/
def bounded (response : TranslationResponse) : Except Failure TranslationResponse :=
  if maxResponseBytes < settings.responseBytes response then
    .error (.value "translation_page_too_large_reduce_limit")
  else .ok response

def reviewed (inventory : HashId) (current : List RemoteDecision) :
    Except Failure TranslationResponse :=
  bounded settings (.review inventory (settings.reviewId inventory current) current.length)

/-- `_codes`: what stands before the first colon, each once, in order. -/
def codes (blockers : List String) : List String :=
  ((blockers.map fun b => String.ofList (b.toList.takeWhile (· ≠ ':'))).dedup).insertionSort
    (· ≤ ·)

def safeCodes (values : List String) : Option (List SafeCode) :=
  if values.length ≤ 100 then
    values.mapM fun value => if h : isSafeCode value = true then some ⟨value, h⟩ else none
  else none

/-- A page of a plan. -/
def planned (reviewId : HashId) (offset limit : Nat) (plan : TranslationPlan) :
    Except Failure TranslationResponse :=
  match safeCodes (codes plan.blockers) with
  | none => .error .fault
  | some blockerCodes =>
    bounded settings (.plan plan.inventoryId reviewId plan.planId plan.ready plan.changes.length
      plan.reviewedSpans offset
      (if offset + limit < plan.changes.length then some (offset + limit) else none)
      ((plan.changes.drop offset).take limit) plan.blockers.length blockerCodes)

/-- The result of a write, where its receipt attests what the result has to. -/
def applyResult (inventoryId reviewId : HashId) (receipt : TranslationReceipt) :
    Option TranslationResponse :=
  if receipt.sourceUnchanged ∧ receipt.textRoundtripVerified ∧
      receipt.inspectedStructureUnchanged then
    some (.apply inventoryId reviewId receipt.planId receipt.outputFolder receipt.outputSha256
      receipt.changedRecords)
  else none

/-- What the stored plan must be for a write. -/
def checkPlan (inventoryId reviewId : HashId) : Option StoredPlan → Except Failure StoredPlan
  | none => .error (.value "translation_plan_missing")
  | some stored =>
    if stored.reviewId ≠ reviewId ∨ stored.plan.inventoryId ≠ inventoryId then
      .error (.value "translation_plan_mismatch")
    else if stored.plan.ready = false ∨ stored.plan.changes = [] then
      .error (.value "translation_plan_blocked")
    else .ok stored

end Answers

/-- What a request does next. What it has read or made goes with it. -/
inductive Stage where
  | beginning
  | reading
  | merging (current : List RemoteDecision)
  | reviewing (current : List RemoteDecision)
  | selecting
  | preparing (decisions : List RemoteDecision)
  | inserting (stored : StoredPlan)
  | inserted (stored : StoredPlan)
  | checking (stored : StoredPlan)
  | claiming (stored : StoredPlan)
  | claimed (stored : StoredPlan)
  | writing (stored : StoredPlan)
  | translating (stored : StoredPlan)
  | storing (response : TranslationResponse)
  | updated (response : TranslationResponse)
  | leaving (response : TranslationResponse)
  | returned (result : Except Failure TranslationResponse)

/-- What a request that comes to the store has been checked for. -/
def wellFormed : TranslationRequest → Bool
  | .scan .. => false
  | .review inventoryId _ decisions =>
    inventoryId.length = 71 ∧ 1 ≤ decisions.length ∧ decisions.length ≤ 100 ∧
      (decisions.map RemoteDecision.spanId).Nodup
  | _ => true

/-- A request in progress, or one that was cut off. -/
structure Call where
  scope : ScopeId
  request : TranslationRequest
  formed : wellFormed request = true
  stage : Option Stage

structure World where
  db : Database Tables
  calls : Dict Nat Call
  /-- Every call of `apply_translation`, by the scope and the plan that was approved. -/
  invocations : List (ScopeId × HashId)

/-- A statement may raise, and so may a commit that has taken effect. -/
inductive Event where
  | execute (n : Nat) (scope : ScopeId) (request : TranslationRequest)
  | proceed (n : Nat)
  | prepared (n : Nat) (plan : Except String TranslationPlan)
  | translated (n : Nat) (receipt : Option TranslationReceipt)
  | raise (n : Nat)
  | commitRaises (n : Nat)
  | cut (n : Nat)

section Machine

variable (settings : Settings)

/-- What a connection sees. -/
def World.tables (w : World) (n : Nat) : Tables := (w.db.staged n).getD w.db.committed

def World.moved (w : World) (n : Nat) (call : Call) (stage : Stage) : World :=
  { w with calls := w.calls.set n { call with stage := some stage } }

/-- An exception rolls the transaction back, if there is one. -/
def World.raised (w : World) (n : Nat) (call : Call) (failure : Failure) : World :=
  { w with
    db := w.db.rollback n
    calls := w.calls.set n { call with stage := some (.returned (.error failure)) } }

/-- The connection stages its tables, with the lock that it has or takes. -/
def World.staging (w : World) (n : Nat) (call : Call) (tables : Tables) (stage : Stage) : World :=
  { w with
    db := w.db.stage n tables
    calls := w.calls.set n { call with stage := some stage } }

/-- Go on with what succeeded, or raise. -/
def World.enforce {α : Type} (w : World) (n : Nat) (call : Call) (result : Except Failure α)
    (next : α → Stage) : World :=
  match result with
  | .ok a => w.moved n call (next a)
  | .error failure => w.raised n call failure

/-- The next statement is a commit. -/
def Stage.commits : Stage → Bool
  | .reviewing _ | .inserted _ | .claimed _ | .updated _ | .leaving _ => true
  | _ => false

/-- Failures after the claim are for local review. -/
def failureAt : Stage → Failure
  | .writing _ | .translating _ | .storing _ | .updated _ =>
    .attentionRequired "translation_write_needs_local_review"
  | _ => .fault

def commit (w : World) (n : Nat) (call : Call) (next : Stage) : Option World :=
  (w.db.commit n).map fun db => { w with db := db }.moved n call next

def beginImmediate (w : World) (n : Nat) (call : Call) : Option World :=
  (w.db.acquire n).map fun db => { w with db := db }.moved n call .reading

/-- The statements of `SubmitReview`. -/
def proceedReview (w : World) (n : Nat) (call : Call) (inventoryId : HashId)
    (expectedReviewId : Option HashId) (decisions : List RemoteDecision) : Stage → Option World
  | .beginning => beginImmediate w n call
  | .reading =>
    some (w.enforce n call (submitReview settings inventoryId expectedReviewId decisions
      ((w.tables n).reviews.get (call.scope, inventoryId))) .merging)
  | .merging current =>
    some (w.staging n call { w.tables n with
      reviews := (w.tables n).reviews.set (call.scope, inventoryId) current } (.reviewing current))
  | .reviewing current =>
    commit w n call (.returned (reviewed settings inventoryId current))
  | _ => none

/-- The statements of `PlanTranslation`. The insertion begins its own transaction. -/
def proceedPlan (w : World) (n : Nat) (call : Call) (inventoryId reviewId : HashId)
    (offset limit : Nat) : Stage → Option World
  | .selecting =>
    let current := ((w.tables n).reviews.get (call.scope, inventoryId)).getD []
    some (w.enforce n call
      (if settings.reviewId inventoryId current ≠ reviewId then
        .error (.value "translation_review_changed")
      else .ok current) .preparing)
  | .inserting stored =>
    (w.db.acquire n).map fun db =>
      let w := { w with db := db }
      let key := (call.scope, stored.plan.planId)
      w.staging n call { w.tables n with
        plans := if (w.tables n).plans.get key = none then (w.tables n).plans.set key stored
          else (w.tables n).plans } (.inserted stored)
  | .inserted stored =>
    commit w n call (.returned (planned settings reviewId offset limit stored.plan))
  | _ => none

/-- The statements of `ApplyTranslation`. -/
def proceedApply (w : World) (n : Nat) (call : Call) (inventoryId reviewId planId : HashId) :
    Stage → Option World
  | .beginning => beginImmediate w n call
  | .reading =>
    some (w.enforce n call (checkPlan inventoryId reviewId
      ((w.tables n).plans.get (call.scope, planId))) .checking)
  | .checking stored =>
    match (w.tables n).writes.get (call.scope, planId) with
    | some none =>
      some (w.raised n call (.attentionRequired "translation_write_outcome_unknown"))
    | some (some receipt) => some (w.moved n call (.leaving receipt))
    | none => some (w.moved n call (.claiming stored))
  | .leaving response => commit w n call (.returned (.ok response))
  | .claiming stored =>
    some (w.staging n call { w.tables n with
      writes := (w.tables n).writes.set (call.scope, planId) none } (.claimed stored))
  | .claimed stored => commit w n call (.writing stored)
  | .writing stored =>
    some { w.moved n call (.translating stored) with
      invocations := (call.scope, planId) :: w.invocations }
  | .storing response =>
    (w.db.acquire n).map fun db =>
      let w := { w with db := db }
      let key := (call.scope, planId)
      w.staging n call { w.tables n with
        writes := if (w.tables n).writes.get key = none then (w.tables n).writes
          else (w.tables n).writes.set key (some response) } (.updated response)
  | .updated response => commit w n call (.returned (bounded settings response))
  | _ => none

def proceed (w : World) (n : Nat) (call : Call) (stage : Stage) : Option World :=
  match call.request with
  | .scan .. => none
  | .review inventoryId expectedReviewId decisions =>
    proceedReview settings w n call inventoryId expectedReviewId decisions stage
  | .plan inventoryId reviewId offset limit =>
    proceedPlan settings w n call inventoryId reviewId offset limit stage
  | .apply inventoryId reviewId planId _ => proceedApply settings w n call inventoryId reviewId
      planId stage

def firstStage : TranslationRequest → Stage
  | .plan .. => .selecting
  | _ => .beginning

/-- The planner has answered. -/
def prepared (w : World) (n : Nat) (call : Call) (plan : Except String TranslationPlan) :
    Stage → Option World
  | .preparing decisions =>
    match call.request with
    | .plan _ reviewId offset _ =>
      match plan with
      | .error code => some (w.raised n call (.value code))
      | .ok plan =>
        if plan.changes.length < offset then
          some (w.raised n call (.value "translation_page_invalid"))
        else some (w.moved n call (.inserting ⟨plan, decisions, reviewId⟩))
    | _ => none
  | _ => none

/-- `apply_translation` has returned, or raised. -/
def translated (w : World) (n : Nat) (call : Call) (receipt : Option TranslationReceipt) :
    Stage → Option World
  | .translating _ =>
    match call.request with
    | .apply inventoryId reviewId _ _ =>
      match receipt.bind (applyResult inventoryId reviewId) with
      | none => some (w.raised n call
          (.attentionRequired "translation_write_needs_local_review"))
      | some response => some (w.moved n call (.storing response))
    | _ => none
  | _ => none

/-- A call that is still in progress, at its stage. -/
def World.running (w : World) (n : Nat) : Option (Call × Stage) :=
  match w.calls.get n with
  | some call =>
    match call.stage with
    | some (.returned _) | none => none
    | some stage => some (call, stage)
  | none => none

def step (w : World) : Event → Option World
  | .execute n scope request =>
    if h : w.calls.get n = none ∧ wellFormed request = true then
      some { w with calls := w.calls.set n ⟨scope, request, h.2, some (firstStage request)⟩ }
    else none
  | .proceed n => (w.running n).bind fun x => proceed settings w n x.1 x.2
  | .prepared n plan => (w.running n).bind fun x => prepared w n x.1 plan x.2
  | .translated n receipt => (w.running n).bind fun x => translated w n x.1 receipt x.2
  | .raise n => (w.running n).map fun x => w.raised n x.1 (failureAt x.2)
  | .commitRaises n =>
    (w.running n).bind fun x =>
      if x.2.commits then
        (w.db.commit n).map fun db => { w with db := db }.raised n x.1 (failureAt x.2)
      else none
  | .cut n =>
    (w.running n).map fun x =>
      { w with db := w.db.rollback n, calls := w.calls.set n { x.1 with stage := none } }

def start : World := ⟨⟨⟨.empty, .empty, .empty⟩, none⟩, .empty, []⟩

end Machine

end CadPlot.Translation
