import CadPlot.Lib.Json
import CadPlot.Lib.Text
import CadPlot.Publish.ReceiptOutputs
import CadPlot.Publish.Staging

/-!
# Batches of drawings

`scan_drawings` and `batch.py`: the drawings of a folder, the pages of their
plans, the staging of approved plans and the queueing of staged jobs. A page is
bound to the inventory that the folder had when its first page was read.
-/

namespace CadPlot.Publish.Batches

open Gateway (require require_eq_ok require_bind_eq_ok)
open Text (utf8 hex)

/-! ### The drawings of a folder -/

/-- `DrawingFile` -/
structure DrawingFile where
  path : String
  sizeBytes : Nat
  modifiedUtc : String
  deriving DecidableEq

/-- An entry under a root: the directories between, each with whether it is a link, and what the
path resolves to. -/
structure Entry where
  directories : List Bool
  name : String
  resolved : Except String Path

/-- A root as it is found at a moment. -/
structure Folder where
  root : Except String Path
  isDirectory : Bool
  entries : List Entry
  isFile : Path → Bool
  /-- The size of a file and the text of its time. -/
  stat : Path → Except String (Nat × String)
  /-- `str(path)` -/
  text : Path → String
  /-- A set of paths, in the order that it is gone through. -/
  order : List Path → List Path
  order_perm : ∀ paths, (order paths).Perm paths.dedup

section Scan

variable (tables : Tables) (allowedRoots : List Path) (folder : Folder)

/-- `PathPolicy.require_allowed` without a suffix, for what a path resolves to. -/
def requireAllowed (resolved : Except String Path) : Except String Path := do
  let candidate ← resolved
  let inside (root : Path) : Bool :=
    (root.map (fold tables.fileName)).isPrefixOf (candidate.map (fold tables.fileName))
  require (allowedRoots.any inside = true)
    s!"Path is outside configured allowed roots: {folder.text candidate}"
  pure candidate

def suffixKey (name : String) : List Char :=
  fold tables.casefold (String.ofList (suffix name.toList))

/-- `_validated_drawing`, with the check of the suffix that `require_allowed` makes for it. -/
def validatedDrawing (candidate : Entry) : Except String (Option Path) :=
  if suffixKey tables candidate.name ≠ ".dwg".toList ∨ candidate.name.toList.head? = some '~' then
    pure none
  else do
    let resolved ← requireAllowed tables allowedRoots folder candidate.resolved
    require (suffixKey tables (resolved.getLastD "") = ".dwg".toList)
      s!"Expected a .dwg file: {folder.text resolved}"
    pure (if folder.isFile resolved = true then some resolved else none)

/-- `_drawing_paths` -/
def drawingPaths (recursive : Bool) : Except String (List Path) := do
  let candidates := folder.entries.filter fun entry =>
    if recursive = true then entry.directories.all (!·) else entry.directories.isEmpty
  let paths ← candidates.mapM (validatedDrawing tables allowedRoots folder)
  pure (paths.filterMap id)

/-- The order that paths are sorted in. -/
def Before (a b : String) : Prop :=
  String.ofList (fold tables.casefold a) ≤ String.ofList (fold tables.casefold b)

instance : DecidableRel (Before tables) := fun a b =>
  inferInstanceAs
    (Decidable (String.ofList (fold tables.casefold a) ≤ String.ofList (fold tables.casefold b)))

def drawingFile (path : Path) : Except String DrawingFile := do
  let stat ← folder.stat path
  pure ⟨folder.text path, stat.1, stat.2⟩

def scanDrawings (recursive : Bool) (maxFiles : Int) : Except String (List DrawingFile) := do
  let projectRoot ← requireAllowed tables allowedRoots folder folder.root
  require (folder.isDirectory = true) (folder.text projectRoot)
  require (1 ≤ maxFiles) "max_files must be positive"
  let found ← drawingPaths tables allowedRoots folder recursive
  let paths := (folder.order found).insertionSort fun a b =>
    Before tables (folder.text a) (folder.text b)
  require ((paths.length : Int) ≤ maxFiles)
    s!"Found {paths.length} DWG files; max_files is {maxFiles}."
  paths.mapM (drawingFile folder)

end Scan

/-! ### A page of plans -/

/-- The item of an inventory. The fields that a caller leaves out are `null`. -/
structure InventoryItem where
  path : String
  sizeBytes : Option Nat
  modifiedUtc : Option String
  deriving DecidableEq

def DrawingFile.item (drawing : DrawingFile) : InventoryItem :=
  ⟨drawing.path, some drawing.sizeBytes, some drawing.modifiedUtc⟩

def InventoryItem.json (item : InventoryItem) : Json :=
  .obj [("modified_utc", .optional item.modifiedUtc), ("path", .str item.path),
    ("size_bytes", item.sizeBytes.elim .null fun size => .int size)]

abbrev Plan := List (String × Json)

/-- `plan.get("ready") is True` -/
def Plan.ready (plan : Plan) : Bool :=
  match plan.lookup "ready" with
  | some (.bool ready) => ready
  | _ => false

/-- An item of a page: the plan of a drawing, or why there is none. -/
structure BatchItem where
  drawing : String
  outcome : Except String Plan

def BatchItem.status (item : BatchItem) : String :=
  match item.outcome with
  | .ok plan => if plan.ready = true then "ready" else "blocked"
  | .error _ => "error"

def BatchItem.json (item : BatchItem) : Json :=
  match item.outcome with
  | .ok plan =>
    .obj [("drawing", .str item.drawing), ("plan", .obj plan), ("status", .str item.status)]
  | .error error =>
    .obj [("drawing", .str item.drawing), ("error", .str error), ("status", .str item.status)]

structure BatchPage where
  batchPageId : String
  inventoryId : String
  offset : Int
  limit : Int
  totalDrawings : Nat
  processed : Nat
  nextOffset : Option Int
  hasMore : Bool
  ready : Nat
  blocked : Nat
  errors : Nat
  items : List BatchItem

/-- The payload of a page, without its identifier. -/
def BatchPage.json (page : BatchPage) : Json :=
  .obj [("schema_version", .int 1), ("inventory_id", .str page.inventoryId),
    ("offset", .int page.offset), ("limit", .int page.limit),
    ("total_drawings", .int page.totalDrawings), ("processed", .int page.processed),
    ("next_offset", page.nextOffset.elim .null .int), ("has_more", .bool page.hasMore),
    ("summary", .obj [("ready", .int page.ready), ("blocked", .int page.blocked),
      ("errors", .int page.errors)]),
    ("items", .arr (page.items.map BatchItem.json))]

section Pages

variable (tables : Tables) (sha256 : List UInt8 → List UInt8)

/-- `"sha256:" + hashlib.sha256(canonical.encode("utf-8")).hexdigest()` -/
def identifier (canonical : List Char) : String :=
  String.ofList ("sha256:".toList ++ hex (sha256 (utf8 canonical)))

/-- The text that an inventory is known by. -/
def canonicalInventory (items : List InventoryItem) : List Char :=
  let normalized := items.insertionSort fun a b => Before tables a.path b.path
  (Json.arr (normalized.map InventoryItem.json)).render Json.modelStyle

def buildDrawingInventoryId (items : List InventoryItem) : String :=
  identifier sha256 (canonicalInventory tables items)

def checkOffsets (offset limit : Int) : Except String Unit := do
  require (0 ≤ offset) "offset must be zero or greater."
  require (1 ≤ limit ∧ limit ≤ 50) "limit must be between 1 and 50."

def checkInventory (offset : Int) (currentInventoryId : String)
    (expectedInventoryId : Option String) : Except String Unit := do
  require (isPlanId currentInventoryId = true) "inventory_id must be a SHA-256 identifier."
  require (¬(0 < offset ∧ expectedInventoryId = none))
    "expected_inventory_id is required after the first batch page."
  require (∀ expected, expectedInventoryId = some expected → expected = currentInventoryId)
    "Drawing inventory changed; restart batch planning at offset 0."

/-- The page that `build_batch_page` returns once its arguments are checked. -/
def pageOf (inventoryId : String) (drawingPaths : List String)
    (planBuilder : String → Except String Plan) (offset limit : Int) : BatchPage :=
  let selected := (drawingPaths.drop offset.toNat).take limit.toNat
  let items := selected.map fun path => (⟨path, planBuilder path⟩ : BatchItem)
  let ready := items.countP fun item => item.status = "ready"
  let blocked := items.countP fun item => item.status = "blocked"
  let nextOffset := offset + selected.length
  let page : BatchPage :=
    { batchPageId := ""
      inventoryId, offset, limit
      totalDrawings := drawingPaths.length
      processed := items.length
      nextOffset := if nextOffset < drawingPaths.length then some nextOffset else none
      hasMore := decide (nextOffset < drawingPaths.length)
      ready, blocked
      errors := items.length - ready - blocked
      items }
  { page with batchPageId := identifier sha256 (page.json.sortKeys.render Json.modelStyle) }

/-- `build_batch_page`. The builder is called once for each path of the page, in their order. -/
def buildBatchPage (drawingPaths : List String) (planBuilder : String → Except String Plan)
    (offset limit : Int) (inventoryId expectedInventoryId : Option String) :
    Except String BatchPage := do
  checkOffsets offset limit
  let currentInventoryId :=
    match inventoryId with
    | some id =>
      if id = "" then buildDrawingInventoryId tables sha256 (drawingPaths.map (⟨·, none, none⟩))
      else id
    | none => buildDrawingInventoryId tables sha256 (drawingPaths.map (⟨·, none, none⟩))
  checkInventory offset currentInventoryId expectedInventoryId
  pure (pageOf sha256 currentInventoryId drawingPaths planBuilder offset limit)

/-- `create_batch_publish_plans` of the server -/
def createBatchPublishPlans (allowedRoots : List Path) (folder : Folder)
    (planBuilder : String → Except String Plan) (recursive : Bool)
    (expectedInventoryId : Option String) (offset limit maxFiles : Int) :
    Except String BatchPage := do
  let drawings ← scanDrawings tables allowedRoots folder recursive maxFiles
  let inventoryId := buildDrawingInventoryId tables sha256 (drawings.map DrawingFile.item)
  buildBatchPage tables sha256 (drawings.map DrawingFile.path) planBuilder offset limit
    (some inventoryId) expectedInventoryId

end Pages

end CadPlot.Publish.Batches
