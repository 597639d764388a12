import Mathlib.Data.List.Infix
import CadPlot.Lib.Traversal
import CadPlot.TextPlan.Review

/-!
# The texts of a document

`collect_snapshot` visits every entity of every resident block definition, and
the attributes that hang on block references, once each. A document is what
AutoCAD shows of it: an entity is found under its handle, and what its other
properties are is left open.
-/

namespace CadPlot.TextPlan

open Traversal

def maxEntities : Nat := 100000

def maxTexts : Nat := 10000

/-- An entity with the properties that the scan reads one by one. `guard` is what `_guard` makes of
the others, or the error. -/
structure TextEntity (γ : Type) where
  kind : String
  layer : String
  guard : Except String γ
  mTextAttribute : Bool
  contentType : Int
  text : TextProperty → String
  rows : Nat
  columns : Nat
  cell : Nat → Nat → String
  cellFormat : Nat → Nat → γ
  hasAttributes : Bool
  attributes : List String
  constantAttributes : List String

structure TextBlock where
  name : String
  handle : String
  isXRef : Bool
  entities : List String

structure TextDocument (γ : Type) where
  blocks : List TextBlock
  layouts : List γ
  locked : String → Bool
  entity : String → TextEntity γ

/-- An item of the structure whose digest is kept. -/
inductive StructureItem (γ : Type) where
  | entity (handle kind : String) (guard : γ) (cells : List (Nat × Nat × γ))
  | block (name handle : String)
  | layout (values : γ)

/-- The digest of an item, and of all items in the order of their digests. -/
structure StructureDigests (γ : Type) where
  item : StructureItem γ → String
  all : List (StructureItem γ) → String

def textKinds : List String := ["AcDbText", "AcDbMText", "AcDbAttribute", "AcDbAttributeDefinition"]

def nonTextKinds : List String :=
  ["AcDbLine", "AcDbPolyline", "AcDb2dPolyline", "AcDb3dPolyline", "AcDbArc", "AcDbCircle",
    "AcDbEllipse", "AcDbSpline", "AcDbHatch", "AcDbPoint", "AcDbRay", "AcDbXline", "AcDb3dSolid",
    "AcDbSolid", "AcDbTrace", "AcDbFace", "AcDbViewport", "AcDbPViewport", "AcDbLeader",
    "AcDbWipeout", "AcDbMline", "AcDbRegion", "AcDbPolyFaceMesh", "AcDbPolygonMesh", "AcDbBody"]

/-- Whether the part occurs in the text. -/
def occurs (part : String) (text : String) : Bool := decide (part.toList <:+: text.toList)

/-- What an entity is to the scan, by the chain of its branches. -/
inductive EntityContent where
  | text (property : TextProperty)
  | blockMLeader
  | table
  | reference
  | plain
  | unsupported
  deriving DecidableEq

variable {γ : Type}

def TextEntity.content (e : TextEntity γ) : EntityContent :=
  if e.kind ∈ textKinds then
    if (e.kind = "AcDbAttribute" ∨ e.kind = "AcDbAttributeDefinition") ∧ e.mTextAttribute then
      .text .mTextAttributeContent
    else .text .textString
  else if e.kind = "AcDbMLeader" then
    if e.contentType = 2 then .text .textString else .blockMLeader
  else if occurs "Dimension" e.kind then .text .textOverride
  else if e.kind = "AcDbTable" then .table
  else if e.kind = "AcDbBlockReference" ∨ e.kind = "AcDbMInsertBlock" then .reference
  else if e.kind ∈ nonTextKinds then .plain
  else .unsupported

/-- A text of an entity. Those of table cells stand in a row and a column. -/
structure TextSlot where
  property : TextProperty
  row : Int
  column : Int
  raw : String
  reason : Option String

/-- The cells of a table, row by row. -/
def TextEntity.positions (e : TextEntity γ) : List (Nat × Nat) :=
  (List.range e.rows).flatMap fun row => (List.range e.columns).map fun column => (row, column)

def TextDocument.reason (d : TextDocument γ) (e : TextEntity γ) : Option String :=
  if d.locked e.layer then some "locked_layer" else none

/-- The texts that `visit` hands to `add`, in order. -/
def TextDocument.slots (d : TextDocument γ) (e : TextEntity γ) : List TextSlot :=
  match e.content with
  | .text property => [⟨property, -1, -1, e.text property, d.reason e⟩]
  | .table => e.positions.map fun x =>
      ⟨.table, x.1, x.2, e.cell x.1 x.2, some "table_write_requires_native_review"⟩
  | _ => []

/-- The attributes that `visit` goes on to. -/
def TextEntity.children (e : TextEntity γ) : List String :=
  match e.content with
  | .reference => if e.hasAttributes then e.attributes ++ e.constantAttributes else []
  | _ => []

/-- What `visit` has against an entity itself. -/
def TextEntity.blockers (handle : String) (e : TextEntity γ) : List String :=
  match e.content with
  | .blockMLeader => ["block_mleader_requires_review:" ++ handle]
  | .table => ["table_content_requires_native_review:" ++ handle]
  | .unsupported => ["unsupported_entity:" ++ handle ++ ":" ++ e.kind]
  | _ => []

def TextEntity.item (handle : String) (e : TextEntity γ) (guard : γ) : StructureItem γ :=
  .entity handle e.kind guard <|
    match e.content with
    | .table => e.positions.map fun x => (x.1, x.2, e.cellFormat x.1 x.2)
    | _ => []

/-- `_guard`, of which the bound on tables is spelled out -/
def TextEntity.guarded (e : TextEntity γ) : Except String γ := do
  let guard ← e.guard
  ensure (decide ¬(e.kind = "AcDbTable" ∧ maxTexts < e.rows * e.columns))
    "Table exceeds the translation safety limit."
  pure guard

def TextProperty.name : TextProperty → String
  | .textString => "TextString"
  | .mTextAttributeContent => "MTextAttributeContent"
  | .textOverride => "TextOverride"
  | .table => "table"

def TextSlot.key (handle : String) (slot : TextSlot) : String :=
  handle ++ ":" ++ slot.property.name ++
    if slot.property = .table then ":" ++ toString slot.row ++ ":" ++ toString slot.column else ""

/-- The marks of a field and of stacked text. -/
def fieldOrStacked (raw : String) : Bool := occurs "%<" raw || occurs "\\S" raw

def TextSlot.blockers (handle : String) (slot : TextSlot) : List String :=
  if fieldOrStacked slot.raw then
    ["field_or_stacked_text_requires_review:" ++ slot.key handle] else []

def TextSlot.record (block : TextBlock) (handle : String) (e : TextEntity γ) (slot : TextSlot) :
    TextRecord where
  id := slot.key handle
  handle := handle
  kind := e.kind
  block := block.name
  layer := e.layer
  property := slot.property
  row := slot.row
  column := slot.column
  raw := slot.raw
  writable := slot.reason.isNone
  reason := slot.reason

/-- What has been collected: `records`, `blockers`, `structure`, `visited` and `character_count`. -/
structure Collected (γ : Type) where
  records : List TextRecord
  blockers : List String
  structureItems : List (StructureItem γ)
  visited : List String
  characterCount : Nat

def Collected.empty : Collected γ := ⟨[], [], [], [], 0⟩

/-- `add` -/
def Collected.add (block : TextBlock) (handle : String) (e : TextEntity γ) (s : Collected γ)
    (slot : TextSlot) : Except String (Collected γ) :=
  if slot.raw = "" then .ok s
  else do
    ensure (decide (slot.raw.length ≤ maxTextChars))
      "Text exceeds translation length limit; nothing was truncated."
    let count := s.characterCount + slot.raw.length
    ensure (decide ¬(maxTexts ≤ s.records.length ∨ maxTotalChars < count))
      "Text inventory exceeds safety limit; nothing was truncated."
    pure
      { s with
        records := s.records ++ [slot.record block handle e]
        blockers := s.blockers ++ slot.blockers handle
        characterCount := count }

def entityLimit : String := "Drawing exceeds entity limit; scan was not silently truncated."

/-- The part of `visit` for an entity that has not been visited, up to its attributes. -/
def TextDocument.enter (d : TextDocument γ) (s : Collected γ) (x : TextBlock × String) :
    Except String (Collected γ) := do
  let e := d.entity x.2
  ensure (decide (s.visited.length + 1 ≤ maxEntities)) entityLimit
  let guard ← e.guarded
  (d.slots e).foldlM (Collected.add x.1 x.2 e)
    { s with
      blockers := s.blockers ++ e.blockers x.2
      structureItems := s.structureItems ++ [e.item x.2 guard]
      visited := s.visited ++ [x.2] }

def TextDocument.childrenOf (d : TextDocument γ) (x : TextBlock × String) :
    List (TextBlock × String) :=
  (d.entity x.2).children.map fun handle => (x.1, handle)

/-- `visit`. An entity stands below others that have been visited, so that their limit is also one
of the levels. -/
def TextDocument.visit (d : TextDocument γ) :
    Collected γ → TextBlock × String → Except String (Collected γ) :=
  walk d.childrenOf Prod.snd entityLimit Collected.visited d.enter (maxEntities + 1)

def TextDocument.visitBlock (d : TextDocument γ) (s : Collected γ) (block : TextBlock) :
    Except String (Collected γ) :=
  if block.isXRef then
    .ok { s with blockers := s.blockers ++ ["external_reference:" ++ block.name] }
  else
    (block.entities.map fun handle => (block, handle)).foldlM d.visit
      { s with structureItems := s.structureItems ++ [.block block.name block.handle] }

/-- `collect_snapshot` -/
def collectSnapshot (digests : StructureDigests γ) (d : TextDocument γ) :
    Except String TextSnapshot := do
  let s ← d.blocks.foldlM d.visitBlock .empty
  let items := s.structureItems ++ d.layouts.map .layout
  let blockers := sortedSet s.blockers
  ensure (decide (blockers.length ≤ maxEntities)) "List should have at most 100000 items"
  pure
    { records := s.records.insertionSort fun a b => a.id ≤ b.id
      blockers
      entityCount := s.visited.length
      structureSha256 :=
        digests.all (items.insertionSort fun a b => digests.item a ≤ digests.item b) }

end CadPlot.TextPlan
