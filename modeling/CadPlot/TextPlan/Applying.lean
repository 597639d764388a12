import CadPlot.Lib.Dict
import CadPlot.TextPlan.Collection

/-!
# Changes to a copy

`apply_to_copy` writes the changes of a plan to a private copy of a drawing, and
keeps them only if the texts and the structure of the copy are then what the
changes make of those that were approved. What AutoCAD does is left open.
-/

namespace CadPlot.TextPlan

deriving instance DecidableEq for TextSnapshot

/-- AutoCAD, as it is used on a copy with content in `φ`. -/
structure TextCad (φ γ : Type) where
  sha256 : φ → String
  opened : φ → Except String (TextDocument γ)
  write : TextDocument γ → TextRecord → String → Except String (TextDocument γ)
  save : TextDocument γ → φ → Except String Unit × φ

variable {φ γ : Type}

section Copy

variable (cad : TextCad φ γ) (digests : StructureDigests γ)

/-- `inspect_texts` -/
def inspectTexts (file : φ) : Except String TextSnapshot := do
  let document ← cad.opened file
  collectSnapshot digests document

/-- `expected_records` before the changes -/
def expectedRecords (snapshot : TextSnapshot) : Dict String TextRecord :=
  snapshot.records.foldl (fun records r => records.set r.id r) .empty

def expectChange (records : Dict String TextRecord) (change : TextChange) :
    Except String (Dict String TextRecord) :=
  let stale := "Text change is stale, unknown or not writable."
  match records.get change.recordId with
  | none => .error stale
  | some record => do
    ensure (record.writable && decide (record.raw = change.before)) stale
    pure (records.set change.recordId { record with raw := change.after })

/-- `expected_after` -/
def expectedAfter (snapshot : TextSnapshot) (records : Dict String TextRecord) : TextSnapshot :=
  { snapshot with records := records.entries.map Prod.snd }

def makeChange (records : Dict String TextRecord) (document : TextDocument γ)
    (change : TextChange) : Except String (TextDocument γ) :=
  match records.get change.recordId with
  -- A change of no record has been refused by then.
  | none => .error change.recordId
  | some record => cad.write document record change.after

/-- The part of `apply_to_copy` before the copy is saved: the document and `expected_after`. -/
def editCopy (enabled : Bool) (expectedSha256 : String) (expected : TextSnapshot)
    (changes : List TextChange) (file : φ) : Except String (TextDocument γ × TextSnapshot) := do
  ensure (decide (cad.sha256 file = expectedSha256))
    "Staged source content no longer matches the approved drawing."
  ensure enabled "Translation is not enabled for this MCP process."
  ensure (decide (changes.map TextChange.recordId).Nodup) "Duplicate text changes are forbidden."
  let records ← changes.foldlM expectChange (expectedRecords expected)
  let document ← cad.opened file
  let inventory ← collectSnapshot digests document
  ensure (decide (inventory = expected)) "Copy inventory differs from the approved snapshot."
  let edited ← changes.foldlM (makeChange cad records) document
  let outcome ← collectSnapshot digests edited
  ensure (decide (outcome = expectedAfter expected records))
    "Text/structure guard mismatch; copy not saved. Visual review required."
  pure (edited, expectedAfter expected records)

/-- What `apply_to_copy` does after the copy has been saved. -/
def verifyCopy (after : TextSnapshot) (file : φ) : Except String TextSnapshot := do
  let reopened ← inspectTexts cad digests file
  ensure (decide (reopened = after)) "Saved-copy verification failed; output must not be published."
  pure reopened

/-- `apply_to_copy`, with what it leaves of the copy -/
def applyToCopy (enabled : Bool) (expectedSha256 : String) (expected : TextSnapshot)
    (changes : List TextChange) (file : φ) : Except String TextSnapshot × φ :=
  match editCopy cad digests enabled expectedSha256 expected changes file with
  | .error e => (.error e, file)
  | .ok (edited, after) =>
    match cad.save edited file with
    | (.error e, saved) => (.error e, saved)
    | (.ok _, saved) => (verifyCopy cad digests after saved, saved)

end Copy

end CadPlot.TextPlan
