import CadPlot.Gateway.WorkerResult
import CadPlot.Lib.Text

/-!
# The formats of identifiers and messages

The patterns of the gateway's own models and of the wire models, which each
declare their identifiers: an opaque identifier is a tag and a UUID, of the
versions 1 to 5 in the gateway and, for all but a tenant and a user, of version
4 on the wire. Below them the field checks of the translation messages, which
both sides share, and of the commands.
-/

namespace CadPlot.Protocol

open Gateway

/-- One character of a UUID in its place. -/
def uuidChar (version : Char → Bool) (i : Nat) (c : Char) : Bool :=
  if i = 8 ∨ i = 13 ∨ i = 18 ∨ i = 23 then c = '-'
  else if i = 14 then version c
  else if i = 19 then c = '8' || c = '9' || c = 'a' || c = 'b'
  else Text.isLowerHex c

def isUuid (version : Char → Bool) (text : List Char) : Bool :=
  decide (text.length = 36) && text.zipIdx.all fun x => uuidChar version x.2 x.1

/-- `^<tag>_<uuid>$` -/
def isOpaqueId (version : Char → Bool) (tag value : String) : Bool :=
  value.toList.take (tag.toList.length + 1) = tag.toList ++ ['_'] &&
    isUuid version (value.toList.drop (tag.toList.length + 1))

def anyVersion (c : Char) : Bool := decide ('1' ≤ c ∧ c ≤ '5')

def versionFour (c : Char) : Bool := c = '4'

def isGatewayId (tag value : String) : Bool := isOpaqueId anyVersion tag value

def isWireId (tag value : String) : Bool := isOpaqueId versionFour tag value

/-- `^sha256:[0-9a-f]{64}$` -/
def isHashId (value : String) : Bool :=
  value.toList.take 7 = "sha256:".toList && decide ((value.toList.drop 7).length = 64) &&
    (value.toList.drop 7).all Text.isLowerHex

/-- `^[A-Za-z0-9_:.-]{1,100}$` -/
def isIdentifier (value : String) : Bool :=
  decide (1 ≤ value.toList.length ∧ value.toList.length ≤ 100) &&
    value.toList.all fun c => c.isAlphanum || c = '_' || c = ':' || c = '.' || c = '-'

/-- `^[A-Za-z0-9_-]{22,86}$` -/
def isNonce (value : String) : Bool :=
  decide (22 ≤ value.toList.length ∧ value.toList.length ≤ 86) &&
    value.toList.all fun c => c.isAlphanum || c = '_' || c = '-'

def textLimit : Nat := 32000

def countLimit : Nat := 100000

def isPage (offset limit : Nat) : Bool :=
  decide (offset ≤ countLimit ∧ 1 ≤ limit ∧ limit ≤ 100)

def isDecisionText (value : String) : Bool :=
  decide (1 ≤ value.toList.length ∧ value.toList.length ≤ textLimit)

def isDecision (decision : RemoteDecision) : Bool :=
  isIdentifier decision.spanId && isDecisionText decision.source && isDecisionText decision.target

/-- The field checks of a translation request. -/
def isTranslationRequest : TranslationRequest → Bool
  | .scan inventoryId offset limit => inventoryId.all isHashId && isPage offset limit
  | .review inventoryId expectedReviewId decisions =>
    isHashId inventoryId && expectedReviewId.all isHashId &&
      decide (1 ≤ decisions.length ∧ decisions.length ≤ 100) && decisions.all isDecision
  | .plan inventoryId reviewId offset limit =>
    isHashId inventoryId && isHashId reviewId && isPage offset limit
  | .apply inventoryId reviewId approvedPlanId planOperationId =>
    isHashId inventoryId && isHashId reviewId && isHashId approvedPlanId &&
      isWireId "op" planOperationId

/-- `^[0-9a-f]{n}$` -/
def isLowerHexText (n : Nat) (chars : List Char) : Bool :=
  decide (chars.length = n) && chars.all Text.isLowerHex

def reviewLimit : Nat := 1000000

def nameLimit : Nat := 255

def isText (limit : Nat) (value : String) : Bool := decide (value.toList.length ≤ limit)

def isSpan (span : TranslationSpan) : Bool :=
  isIdentifier span.id && isText textLimit span.text && isText textLimit span.normalizedForSearch

def isRecord (record : TranslationRecord) : Bool :=
  isIdentifier record.id && isIdentifier record.kind && isText nameLimit record.block &&
    isText nameLimit record.layer && isText textLimit record.raw &&
    decide (record.spans.length ≤ textLimit) && record.spans.all isSpan

def isChange (change : TranslationChange) : Bool :=
  isIdentifier change.recordId && isText textLimit change.before && isText textLimit change.after

def isCount (count : Nat) : Bool := decide (count ≤ countLimit)

/-- The field checks of a translation response. -/
def isTranslationResponse : TranslationResponse → Bool
  | .scan inventoryId totalRecords totalReviewSpans offset nextOffset records blockerCount
      blockerCodes =>
    isHashId inventoryId && isCount totalRecords && decide (totalReviewSpans ≤ reviewLimit) &&
      isCount offset && nextOffset.all isCount && decide (records.length ≤ 100) &&
      records.all isRecord && isCount blockerCount && decide (blockerCodes.length ≤ 100)
  | .review inventoryId reviewId reviewedSpans =>
    isHashId inventoryId && isHashId reviewId && isCount reviewedSpans
  | .plan inventoryId reviewId planId _ changedRecords reviewedSpans offset nextOffset changes
      blockerCount blockerCodes =>
    isHashId inventoryId && isHashId reviewId && isHashId planId && isCount changedRecords &&
      isCount reviewedSpans && isCount offset && nextOffset.all isCount &&
      decide (changes.length ≤ 100) && changes.all isChange && isCount blockerCount &&
      decide (blockerCodes.length ≤ 100)
  | .apply inventoryId reviewId planId outputId outputSha256 changedRecords =>
    isHashId inventoryId && isHashId reviewId && isHashId planId &&
      outputId.toList.take 12 = "translation-".toList &&
      isLowerHexText 32 (outputId.toList.drop 12) && isLowerHexText 64 outputSha256.toList &&
      isCount changedRecords

/-- A scan of the wire takes a cursor, which the gateway never sends. -/
def isCommand : RemoteCommand → Bool
  | .validateEnvironment => true
  | .listProjects => true
  | .scanDrawings projectId _ cursor limit =>
    isWireId "prj" projectId && cursor.all (isWireId "cur") && decide (1 ≤ limit ∧ limit ≤ 100)
  | .inspectDrawing drawingId => isWireId "drw" drawingId
  | .createPublishPlan drawingId => isWireId "drw" drawingId
  | .translation drawingId request => isWireId "drw" drawingId && isTranslationRequest request

section Laws

variable {version other : Char → Bool} {tag value : String} {text : List Char}

theorem isUuid_mono (h : ∀ c, version c = true → other c = true)
    (hu : isUuid version text = true) : isUuid other text = true := by
  rw [isUuid, Bool.and_eq_true, List.all_eq_true] at hu ⊢
  refine ⟨hu.1, fun x hx => ?_⟩
  have hchar := hu.2 x hx
  unfold uuidChar at hchar ⊢
  split_ifs at hchar ⊢ with h1 h2 h3
  · exact hchar
  · exact h _ hchar
  · exact hchar
  · exact hchar

/-- What the wire accepts as an identifier, the gateway does. -/
theorem isGatewayId_of_isWireId (h : isWireId tag value = true) : isGatewayId tag value = true := by
  rw [isWireId, isOpaqueId, Bool.and_eq_true] at h
  rw [isGatewayId, isOpaqueId, Bool.and_eq_true]
  refine ⟨h.1, isUuid_mono ?_ h.2⟩
  intro c hc
  obtain rfl : c = '4' := of_decide_eq_true hc
  decide

end Laws

end CadPlot.Protocol
