import Mathlib.Data.Rat.Floor
import CadPlot.Drawing.BlockTexts
import CadPlot.Publish.PaperSizes

/-!
# Frames of a drawing

`_read_labelled_frames` reads the model space of a drawing and finds the frames
to plot: rectangles around a text that names a paper size, and block references
that name one themselves. Lengths are exact here.
-/

namespace CadPlot.Drawing

open Publish (PaperSize Script fold stripped parsePaperSize)
open Text (isSpace)

structure Point where
  x : Rat
  y : Rat
  z : Rat
  deriving DecidableEq

structure Bounds where
  minimum : Point
  maximum : Point
  deriving DecidableEq

/-- What the entity is, with the properties that are read of it. -/
inductive Shape where
  | text (value : String) (insertionPoint : List Rat)
  | polyline (closed : Bool) (boundingBox : Option (List Rat × List Rat))
      (coordinates : Option (List Rat))
  | blockReference (reference : BlockReference) (boundingBox : Option (List Rat × List Rat))
      (rotation : Option Rat)
  | other
  deriving DecidableEq

structure Entity where
  handle : String
  layer : String
  shape : Shape
  deriving DecidableEq

structure FrameCandidate where
  handle : String
  layer : String
  bounds : Bounds
  label : String
  size : PaperSize
  confidence : Rat
  deriving DecidableEq

/-- The tables of characters and `repr`, as the interpreter has them. -/
structure Runtime where
  script : Script
  casefold : Char → List Char
  repr : String → String

section Geometry

/-- `_point3` -/
def point3 : List Rat → Option Point
  | [x, y] => some ⟨x, y, 0⟩
  | x :: y :: z :: _ => some ⟨x, y, z⟩
  | _ => none

/-- `_bounds` -/
def boundsOf (boundingBox : Option (List Rat × List Rat)) : Option Bounds :=
  boundingBox.bind fun (minimum, maximum) =>
    (point3 minimum).bind fun low => (point3 maximum).bind fun high =>
      if high.x ≤ low.x ∨ high.y ≤ low.y then none else some ⟨low, high⟩

/-- `_inside` -/
def inside (point : Point) (bounds : Bounds) : Bool :=
  decide (bounds.minimum.x ≤ point.x ∧ point.x ≤ bounds.maximum.x ∧
    bounds.minimum.y ≤ point.y ∧ point.y ≤ bounds.maximum.y)

def pairs : List Rat → List (Rat × Rat)
  | x :: y :: rest => (x, y) :: pairs rest
  | _ => []

/-- `_is_axis_aligned_rectangle`, with lengths compared by their squares -/
def isAxisAlignedRectangle (coordinates : Option (List Rat)) : Bool :=
  let tolerance : Rat := 1 / 1000000
  let points := pairs (coordinates.getD [])
  let edges := List.zipWith (fun point next => (next.1 - point.1, next.2 - point.2))
    points (points.rotate 1)
  decide ((coordinates.getD []).length = 8) &&
    !(edges.any fun edge => edge.1 ^ 2 + edge.2 ^ 2 ≤ tolerance ^ 2) &&
    !((edges.zip (edges.rotate 1)).any fun (left, right) =>
      tolerance < |left.1 * right.1 + left.2 * right.2|) &&
    edges.all fun edge => |edge.1| ≤ tolerance ∨ |edge.2| ≤ tolerance

/-- `_aspect_ratio_matches` -/
def aspectRatioMatches (size : PaperSize) (bounds : Bounds) : Bool :=
  let width := bounds.maximum.x - bounds.minimum.x
  let height := bounds.maximum.y - bounds.minimum.y
  if min (min size.widthMm size.heightMm) (min width height) ≤ 0 then false
  else
    let paperRatio := max size.widthMm size.heightMm / min size.widthMm size.heightMm
    let geometryRatio := max width height / min width height
    |paperRatio - geometryRatio| / paperRatio ≤ 2 / 100

/-- `_rectangle_area` -/
def rectangleArea (bounds : Bounds) : Rat :=
  (bounds.maximum.x - bounds.minimum.x) * (bounds.maximum.y - bounds.minimum.y)

/-- `_areas_nearly_equal` -/
def areasNearlyEqual (left right : Bounds) : Bool :=
  |rectangleArea left - rectangleArea right| / max (rectangleArea left) (rectangleArea right) ≤
    1 / 100

def nearlyEqual (a b : Rat) : Bool := |a - b| ≤ 1 / 1000000 * max 1 (max |a| |b|)

/-- `_frame_bounds_nearly_equal` -/
def frameBoundsNearlyEqual (left right : FrameCandidate) : Bool :=
  nearlyEqual left.bounds.minimum.x right.bounds.minimum.x &&
    nearlyEqual left.bounds.minimum.y right.bounds.minimum.y &&
    nearlyEqual left.bounds.maximum.x right.bounds.maximum.x &&
    nearlyEqual left.bounds.maximum.y right.bounds.maximum.y

/-- `_same_paper_dimensions` -/
def samePaperDimensions (left right : FrameCandidate) : Bool :=
  left.size.orientationIndependent = right.size.orientationIndependent

/-- `math.pi / 2.0` -/
def halfPi : Rat := 884279719003555 / 562949953421312

/-- `_is_orthogonal_block_rotation`; a rotation that is no finite number is none -/
def isOrthogonalBlockRotation (rotation : Option Rat) : Bool :=
  rotation.any fun value => |value / halfPi - round (value / halfPi)| ≤ 1 / 1000000

end Geometry

section Labels

variable (script : Script)

/-- What a unit leaves of a text. -/
def afterUnit (text : List Char) : List Char :=
  if (Publish.takeUnit script text).isSome then (text.dropWhile isSpace).drop 2 else text

/-- The rest of a text behind a match of the size pattern at its head. -/
def afterSize (text : List Char) : Option (List Char) :=
  (Publish.takeNumber script text).bind fun (_, rest) =>
    match rest.dropWhile isSpace with
    | x :: rest =>
      if x = 'x' ∨ x = 'X' ∨ x = '×' then
        (Publish.takeNumber script (rest.dropWhile isSpace)).map fun (_, rest) =>
          afterUnit script rest
      else none
    | [] => none

def sizeSource : Bool → List Char → Option (List Char)
  | _, [] => none
  | behindDigit, c :: text =>
    ((if behindDigit then none else afterSize script (c :: text)).map fun rest =>
      (c :: text).take ((c :: text).length - rest.length)).or
      (sizeSource (script.decimal c).isSome text)

def seriesSource : Bool → List Char → Option (List Char)
  | _, [] => none
  | behindSeriesChar, c :: text =>
    ((if behindSeriesChar then none else Publish.seriesAt (c :: text)).map fun _ =>
      (c :: text).take 2).or (seriesSource (Publish.isSeriesChar c) text)

/-- `PaperSize.source`: what the match is made of -/
def labelSource (text : String) : String :=
  String.ofList (((sizeSource script false text.toList).or
    (seriesSource false text.toList)).getD [])

/-- A paper size with its source. -/
structure PaperLabel where
  size : PaperSize
  source : String
  deriving DecidableEq

def parseLabel (text : String) : Option PaperLabel :=
  (parsePaperSize script text).map fun size => ⟨size, labelSource script text⟩

/-- The sizes in some texts: of those that differ in orientation only, the first. -/
def labelsOf (texts : List String) : List PaperLabel :=
  (texts.filterMap (parseLabel script)).foldl (fun labels label =>
    if labels.any fun known => known.size.orientationIndependent = label.size.orientationIndependent
    then labels else labels ++ [label]) []

end Labels

section Blocks

variable (runtime : Runtime)

/-- A block reference in model space, with what its labels are read from. -/
structure LabelledBlock where
  handle : String
  layer : String
  reference : BlockReference
  boundingBox : Option (List Rat × List Rat)
  rotation : Option Rat
  deriving DecidableEq

def attributeLabels (block : LabelledBlock) : List PaperLabel :=
  labelsOf runtime.script (blockAttributeTexts block.reference)

/-- The frame of a block with the labels that were found for it. -/
def frameOfLabels (block : LabelledBlock) (labels : List PaperLabel) (fromDefinition : Bool) :
    Option FrameCandidate × List String :=
  match labels with
  | [] => (none, [])
  | label :: others =>
    if block.handle = "" then
      (none, ["Label-backed block frame has no stable handle; skipped."])
    else if others ≠ [] then
      (none, ["Block " ++ block.handle ++ " contains conflicting paper-size labels; skipped."])
    else if isOrthogonalBlockRotation block.rotation = false then
      (none, ["Block " ++ block.handle ++ " has a non-orthogonal rotation; skipped."])
    else
      match boundsOf block.boundingBox with
      | none =>
        (none, ["Block " ++ block.handle ++
          " paper-size labels were found but bounds are invalid."])
      | some bounds =>
        if aspectRatioMatches label.size bounds = false then
          (none, ["Block " ++ block.handle ++ " paper label " ++ runtime.repr label.source ++
            " does not match its bounds."])
        else
          (some ⟨block.handle, block.layer, bounds, label.source, label.size,
              if fromDefinition then 85 / 100 else 9 / 10⟩,
            if fromDefinition then ["Block " ++ block.handle ++
              " paper label was read from bounded block-definition geometry."]
            else [])

/-- The frame of a block with the texts of its definition. -/
def frameOfDefinition (block : LabelledBlock) (answer : Answer) :
    Option FrameCandidate × List String :=
  let labels := labelsOf runtime.script answer.texts
  if labels ≠ [] ∧ answer.complete = false then
    (none, ["Block " ++ (if block.handle = "" then "<no handle>" else block.handle) ++
      " contains a paper-size label but bounded definition traversal was incomplete" ++
      (answer.reason.elim "" fun reason => " (" ++ reason ++ ")") ++ "; skipped."])
  else frameOfLabels runtime block labels true

/-- `_read_label_backed_block_frame` -/
def readLabelBackedBlockFrame (blocks : Option BlockTable)
    (block : LabelledBlock) (cache : Cache) : (Option FrameCandidate × List String) × Cache :=
  match attributeLabels runtime block, blocks with
  | [], some table =>
    let (answer, cache) := blockDefinitionTexts runtime.casefold table block.reference cache
    (frameOfDefinition runtime block answer, cache)
  | labels, _ => (frameOfLabels runtime block labels false, cache)

end Blocks

section Reading

variable (runtime : Runtime)

structure Rectangle where
  handle : String
  layer : String
  bounds : Bounds
  deriving DecidableEq

/-- A drawing as it is read: its blocks, and the entities of model space, whose enumeration may be
interrupted. -/
structure Document (runtime : Runtime) where
  blocks : Option BlockTable
  modelSpace : List Entity
  interrupted : Option String

def Entity.text? (entity : Entity) : Option (String × Point) :=
  match entity.shape with
  | .text value insertionPoint =>
    if value = "" then none else (point3 insertionPoint).map fun point => (value, point)
  | _ => none

def Entity.rectangle? (entity : Entity) : Option Rectangle :=
  match entity.shape with
  | .polyline true boundingBox coordinates =>
    (boundsOf boundingBox).bind fun bounds =>
      if isAxisAlignedRectangle coordinates then some ⟨entity.handle, entity.layer, bounds⟩
      else none
  | _ => none

def Entity.block? (entity : Entity) : Option LabelledBlock :=
  match entity.shape with
  | .blockReference reference boundingBox rotation =>
    some ⟨entity.handle, entity.layer, reference, boundingBox, rotation⟩
  | _ => none

/-- The frames of the blocks and what is said about them; they share a cache. -/
def readBlockFrames (blocks : Option BlockTable) :
    List LabelledBlock → Cache → List FrameCandidate × List String
  | [], _ => ([], [])
  | block :: rest, cache =>
    let ((frame, warnings), cache) := readLabelBackedBlockFrame runtime blocks block cache
    let (frames, later) := readBlockFrames blocks rest cache
    (frame.toList ++ frames, warnings ++ later)

structure Frames where
  frames : List FrameCandidate
  selected : List String
  warnings : List String

/-- The order in which matching rectangles are tried: by area and handle. -/
def Rectangle.le (a b : Rectangle) : Prop :=
  rectangleArea a.bounds < rectangleArea b.bounds ∨
    (rectangleArea a.bounds = rectangleArea b.bounds ∧ a.handle ≤ b.handle)

instance : DecidableRel Rectangle.le := fun a b => by unfold Rectangle.le; infer_instance

/-- What the loop over the texts does with one of them. -/
def readText (rectangles : List Rectangle) (state : Frames) (text : String × Point) : Frames :=
  match parseLabel runtime.script text.1 with
  | none => state
  | some label =>
    let containing := rectangles.filter fun rectangle => inside text.2 rectangle.bounds
    let matching := containing.filter fun rectangle =>
      aspectRatioMatches label.size rectangle.bounds
    match matching.insertionSort Rectangle.le with
    | [] =>
      if containing = [] then state
      else { state with warnings := state.warnings ++ ["Label " ++ runtime.repr label.source ++
        " is inside a rectangle but no frame ratio matches."] }
    | first :: others =>
      if others.head?.any fun second => areasNearlyEqual first.bounds second.bounds then
        { state with warnings := state.warnings ++ ["Label " ++ runtime.repr label.source ++
          " has multiple equal-size frame candidates; skipped."] }
      else if first.handle ∈ state.selected then state
      else
        { frames := state.frames ++ [⟨first.handle, first.layer, first.bounds, label.source,
            label.size, if others = [] then 9 / 10 else 8 / 10⟩]
          selected := first.handle :: state.selected
          warnings := state.warnings ++
            if others = [] then []
            else ["Label " ++ runtime.repr label.source ++
              " has nested frame candidates; selected smallest " ++ first.handle ++ "."] }

def sameFrame (left right : FrameCandidate) : Bool :=
  frameBoundsNearlyEqual left right && samePaperDimensions left right

/-- What the loop over the block frames does with one of them. -/
def addBlockFrame (blockFrames : List FrameCandidate)
    (state : List FrameCandidate × List String) (block : FrameCandidate) :
    List FrameCandidate × List String :=
  if state.1.any fun frame => sameFrame frame block then
    (state.1, state.2 ++ ["Attribute-backed block frame " ++ block.handle ++
      " duplicates an existing frame candidate; skipped."])
  else if blockFrames.any fun frame => frame.handle ≠ block.handle && sameFrame frame block then
    (state.1, state.2 ++ ["Attribute-backed block frame " ++ block.handle ++
      " has an equal-size competing block candidate; skipped."])
  else (state.1 ++ [block], state.2)

/-- `_read_labelled_frames` -/
def readLabelledFrames (document : Document runtime) : List FrameCandidate × List String :=
  let blocks := document.modelSpace.filterMap Entity.block?
  let (blockFrames, warnings) := readBlockFrames runtime document.blocks blocks .empty
  match document.interrupted with
  | some failure =>
    ([], warnings ++ ["Model-space entity inspection was incomplete: " ++ failure])
  | none =>
    let rectangles := document.modelSpace.filterMap Entity.rectangle?
    let texts := document.modelSpace.filterMap Entity.text?
    let read := texts.foldl (readText runtime rectangles) ⟨[], [], warnings⟩
    blockFrames.foldl (addBlockFrame blockFrames) (read.frames, read.warnings)

end Reading

end CadPlot.Drawing
