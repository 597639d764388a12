import Mathlib.Algebra.GroupWithZero.Nat
import Mathlib.Data.List.Dedup
import Mathlib.Data.List.DropRight
import Mathlib.Data.List.Sort
import Mathlib.Data.String.Basic
import CadPlot.TextPlan.Pieces

/-!
# The review of drawing texts

`translation.py` shows every editable span of a snapshot, page by page, and
builds a plan from the decisions for them. The digests of the inventory and of
the plan are given as functions of what they are made of.
-/

namespace CadPlot.TextPlan

def maxTextChars : Nat := 32000

def maxTotalChars : Nat := 1000000

inductive TextProperty where
  | textString | mTextAttributeContent | textOverride | table
  deriving DecidableEq

structure TextRecord where
  id : String
  handle : String
  kind : String
  block : String
  layer : String
  property : TextProperty
  row : Int
  column : Int
  raw : String
  writable : Bool
  reason : Option String
  deriving DecidableEq

structure TextSnapshot where
  records : List TextRecord
  blockers : List String
  entityCount : Nat
  structureSha256 : String

structure DrawingFingerprint where
  sha256 : String
  sizeBytes : Nat
  modifiedNs : Nat

structure TextSpan where
  id : String
  text : List Nat
  normalizedForSearch : List Nat
  deriving DecidableEq

structure ReviewedText where
  record : TextRecord
  spans : List TextSpan
  deriving DecidableEq

inductive SourceLanguage where
  | tr | en | other | uncertain
  deriving DecidableEq

structure TranslationDecision where
  spanId : String
  source : String
  sourceLanguage : SourceLanguage
  target : String
  deriving DecidableEq

structure TextChange where
  recordId : String
  before : String
  after : String
  deriving DecidableEq

structure TranslationInventory where
  drawing : String
  inventoryId : String
  sourceSha256 : String
  entityCount : Nat
  totalRecords : Nat
  totalReviewSpans : Nat
  offset : Int
  nextOffset : Option Int
  records : List ReviewedText
  blockers : List String

structure TranslationPlan where
  planId : String
  inventoryId : String
  drawing : String
  ready : Bool
  reviewedSpans : Nat
  changedRecords : Nat
  changes : List TextChange
  blockers : List String

/-- The digests of an inventory and of a plan. -/
structure Digests where
  inventory : String → DrawingFingerprint → TextSnapshot → String
  plan : String → List TranslationDecision → List TextChange → String

def codes (text : String) : List Nat := text.toList.map Char.toNat

/-- `sorted(set(..))` -/
def sortedSet (texts : List String) : List String := texts.dedup.insertionSort (· ≤ ·)

/-- The number of a piece in decimal, after the id of its record. -/
def spanId (recordId : String) (index : Nat) : String := recordId ++ ":" ++ toString index

def unsupported (recordId : String) : String := "unsupported_text_format:" ++ recordId

section Review

variable (alphabet : Alphabet) (digests : Digests)

def normalizeForSearch (text : List Nat) : List Nat :=
  text.flatMap fun code =>
    alphabet.casefold <|
      match ("İIıŞşĞğÇçÖöÜü".toList.map Char.toNat |>.zip
        ("iiiSsGgCcOoUu".toList.map Char.toNat)).lookup code with
      | some plain => plain
      | none => code

/-- A piece that is shown for review. -/
def isSpan (piece : Piece) : Bool := piece.editable && (decoded piece.raw).any alphabet.isAlpha

/-- `review_record` -/
def reviewRecord (record : TextRecord) : Except String ReviewedText := do
  let pieces ← parts alphabet record.raw
  pure ⟨record, (pieces.zipIdx.filter fun x => isSpan alphabet x.1).map fun x =>
    ⟨spanId record.id x.2, decoded x.1.raw, normalizeForSearch alphabet (decoded x.1.raw)⟩⟩

/-- A record that cannot be split is shown without spans. -/
def reviewed (record : TextRecord) : ReviewedText :=
  match reviewRecord alphabet record with
  | .ok review => review
  | .error _ => ⟨record, []⟩

def formatBlockers (record : TextRecord) : List String :=
  match parts alphabet record.raw with
  | .ok _ => []
  | .error _ => [unsupported record.id]

def inventoryPage (path : String) (fingerprint : DrawingFingerprint) (snapshot : TextSnapshot)
    (expectedId : Option String) (offset limit : Int) : Except String TranslationInventory := do
  ensure (decide ((0 ≤ offset ∧ offset ≤ snapshot.records.length) ∧ 1 ≤ limit ∧ limit ≤ 100))
    "Invalid translation page bounds."
  let inventoryId := digests.inventory path fingerprint snapshot
  ensure (decide ¬((offset ≠ 0 ∧ expectedId = none) ∨
    ∃ id ∈ expectedId, id ≠ "" ∧ id ≠ inventoryId))
    "Drawing inventory changed; restart the complete review."
  let reviewed := snapshot.records.map (reviewed alphabet)
  pure
    { drawing := path
      inventoryId
      sourceSha256 := fingerprint.sha256
      entityCount := snapshot.entityCount
      totalRecords := reviewed.length
      totalReviewSpans := (reviewed.map fun r => r.spans.length).sum
      offset
      nextOffset := if offset + limit < reviewed.length then some (offset + limit) else none
      records := (reviewed.drop offset.toNat).take limit.toNat
      blockers := sortedSet (snapshot.blockers ++ snapshot.records.flatMap (formatBlockers alphabet)) }

/-! ### The plan -/

/-- What is made of one piece or one record. -/
structure Planned where
  output : List Char
  seen : List String
  blockers : List String
  changes : List TextChange

def Planned.kept (raw : List Char) : Planned := ⟨raw, [], [], []⟩

def whitespaceEdges (text : List Nat) : List Nat × List Nat :=
  (text.takeWhile alphabet.isSpace, text.rtakeWhile alphabet.isSpace)

/-- The checks of a target that replaces a span. -/
def checkTarget (text : List Nat) (target : String) : Except String Unit := do
  let pieces ← parts alphabet target
  ensure (decide ¬((∃ p ∈ pieces, p.editable = false) ∨ '%' ∈ target.toList ∨
    '\\' ∈ target.toList ∨ ∃ c ∈ codes target, alphabet.isNumeric c = true))
    "Translation must not introduce AutoCAD controls or numeric values."
  ensure ((codes target).any alphabet.isAlpha) "An English text replacement is required."
  ensure (decide ¬∃ c ∈ codes target, c < 32 ∨ c = 127)
    "Control characters are not valid translation text."
  ensure (decide (whitespaceEdges alphabet text = whitespaceEdges alphabet (codes target)))
    "Preserve the exact surrounding whitespace of each text span."

/-- What is made of a span with the decision for it. -/
def planSpan (id : String) (raw : List Char) (decision : TranslationDecision) :
    Except String Planned := do
  let text := decoded raw
  ensure (decide (codes decision.source = text)) ("Source text mismatch for " ++ id ++ ".")
  let uncertain := if decision.sourceLanguage = .uncertain then ["uncertain:" ++ id] else []
  if codes decision.target = text then
    let untranslated := if decision.sourceLanguage = .tr then ["untranslated:" ++ id] else []
    pure ⟨raw, [id], uncertain ++ untranslated, []⟩
  else do
    ensure (decide (decision.sourceLanguage = .tr))
      "Only explicitly reviewed Turkish spans may be changed."
    checkTarget alphabet text decision.target
    pure ⟨decision.target.toList, [id], uncertain, []⟩

def planPiece (decisions : List TranslationDecision) (recordId : String) (x : Piece × Nat) :
    Except String Planned :=
  if isSpan alphabet x.1 then
    let id := spanId recordId x.2
    -- The ids of the decisions differ, so the first one is the only one.
    match decisions.find? (fun d => d.spanId = id) with
    | none => pure ⟨x.1.raw, [id], ["unreviewed:" ++ id], []⟩
    | some decision => planSpan alphabet id x.1.raw decision
  else pure (.kept x.1.raw)

def optionText : Option String → String
  | none => "None"
  | some text => text

/-- A record in the plan: its new text, if that is another one. -/
def planRecord (decisions : List TranslationDecision) (record : TextRecord) :
    Except String Planned :=
  match parts alphabet record.raw with
  | .error _ => pure ⟨record.raw.toList, [], [unsupported record.id], []⟩
  | .ok pieces => do
    let planned ← pieces.zipIdx.mapM (planPiece alphabet decisions record.id)
    let translated := String.ofList (planned.flatMap Planned.output)
    ensure (decide (translated.length ≤ maxTextChars)) "Translated text exceeds the safety limit."
    let changed := decide (translated ≠ record.raw)
    let notWritable := if changed && !record.writable then
      ["not_writable:" ++ record.id ++ ":" ++ optionText record.reason] else []
    pure
      { output := translated.toList
        seen := planned.flatMap Planned.seen
        blockers := planned.flatMap Planned.blockers ++ notWritable
        changes := if changed then [⟨record.id, record.raw, translated⟩] else [] }

/-- `build_translation_plan` -/
def buildTranslationPlan (path : String) (fingerprint : DrawingFingerprint)
    (snapshot : TextSnapshot) (expectedId : String) (decisions : List TranslationDecision) :
    Except String TranslationPlan := do
  let current := digests.inventory path fingerprint snapshot
  ensure (decide (current = expectedId)) "Drawing changed after text review; scan again."
  ensure (decide (decisions.map TranslationDecision.spanId).Nodup)
    "Duplicate translation decisions are not allowed."
  ensure (decide ((decisions.map fun d => d.source.length + d.target.length).sum ≤
    4 * maxTotalChars)) "Translation decision payload exceeds the safety limit."
  let planned ← snapshot.records.mapM (planRecord alphabet decisions)
  let seen := planned.flatMap Planned.seen
  ensure (decide (∀ d ∈ decisions, d.spanId ∈ seen)) "Decisions contain unknown text spans."
  let blockers := sortedSet (snapshot.blockers ++ planned.flatMap Planned.blockers)
  let changes := planned.flatMap Planned.changes
  pure
    { planId := digests.plan current
        (decisions.insertionSort fun a b => a.spanId ≤ b.spanId) changes
      inventoryId := current
      drawing := path
      ready := blockers.isEmpty
      reviewedSpans := decisions.length
      changedRecords := changes.length
      changes
      blockers }

end Review

end CadPlot.TextPlan
