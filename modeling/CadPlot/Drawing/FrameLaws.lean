import CadPlot.Drawing.BlockTextLaws
import CadPlot.Drawing.Frames

/-!
# Frames and the order of entities

The frames of a drawing are the same in whatever order its entities come, as
long as the labels that pick one rectangle name one size, and the block
references that share a key in the cache have the same texts.
-/

namespace CadPlot.Drawing

open Publish (PaperSize)

section Areas

variable {a b c : Bounds}

theorem areasNearlyEqual_iff (hpos : 0 < rectangleArea a) (hle : rectangleArea a ≤ rectangleArea b) :
    areasNearlyEqual a b = true ↔ 99 * rectangleArea b ≤ 100 * rectangleArea a := by
  have hb : 0 < rectangleArea b := lt_of_lt_of_le hpos hle
  rw [areasNearlyEqual, decide_eq_true_iff, max_eq_right hle, abs_sub_comm,
    abs_of_nonneg (sub_nonneg.mpr hle), div_le_iff₀ hb]
  constructor <;> intro h <;> linarith

/-- What is far from an area is smaller than the areas above it, and far from them too. -/
theorem far_of_far (hpos : 0 < rectangleArea a) (hab : rectangleArea a ≤ rectangleArea b)
    (hbc : rectangleArea b ≤ rectangleArea c) (hfar : areasNearlyEqual a b = false) :
    rectangleArea a < rectangleArea c ∧ areasNearlyEqual a c = false := by
  rw [← Bool.not_eq_true, areasNearlyEqual_iff hpos hab, not_le] at hfar
  rw [← Bool.not_eq_true, areasNearlyEqual_iff hpos (hab.trans hbc), not_le]
  constructor <;> linarith

theorem area_pos {size : PaperSize} (h : aspectRatioMatches size a = true) :
    0 < rectangleArea a := by
  rw [aspectRatioMatches] at h
  dsimp only at h
  split at h
  · cases h
  case isFalse hpos =>
    simp only [min_le_iff, not_or, not_le] at hpos
    exact mul_pos hpos.2.1 hpos.2.2

end Areas

section Picking

/-- A rectangle that a label may be for. -/
def Fits (size : PaperSize) (point : Point) (rectangle : Rectangle) : Prop :=
  inside point rectangle.bounds = true ∧ aspectRatioMatches size rectangle.bounds = true

/-- Of the rectangles that a label may be for, this one is clearly the smallest. -/
structure Smallest (rectangles : List Rectangle) (size : PaperSize) (point : Point)
    (rectangle : Rectangle) : Prop where
  mem : rectangle ∈ rectangles
  fits : Fits size point rectangle
  others : ∀ other ∈ rectangles, Fits size point other → other ≠ rectangle →
    rectangleArea rectangle.bounds < rectangleArea other.bounds ∧
      areasNearlyEqual rectangle.bounds other.bounds = false

def matching (rectangles : List Rectangle) (size : PaperSize) (point : Point) : List Rectangle :=
  (rectangles.filter fun rectangle => inside point rectangle.bounds).filter fun rectangle =>
    aspectRatioMatches size rectangle.bounds

/-- The rectangle that the loop over the texts goes on with. -/
def chosen (rectangles : List Rectangle) (size : PaperSize) (point : Point) : Option Rectangle :=
  match (matching rectangles size point).insertionSort Rectangle.le with
  | [] => none
  | first :: others =>
    if others.head?.any fun second => areasNearlyEqual first.bounds second.bounds then none
    else some first

variable {rectangles : List Rectangle} {size : PaperSize} {point : Point} {rectangle : Rectangle}

theorem mem_matching : rectangle ∈ matching rectangles size point ↔
    rectangle ∈ rectangles ∧ Fits size point rectangle := by
  simp [matching, Fits, and_comm]

instance : Std.Total Rectangle.le where
  total a b := by
    rcases lt_trichotomy (rectangleArea a.bounds) (rectangleArea b.bounds) with h | h | h
    · exact .inl (.inl h)
    · rcases le_total a.handle b.handle with h' | h'
      · exact .inl (.inr ⟨h, h'⟩)
      · exact .inr (.inr ⟨h.symm, h'⟩)
    · exact .inr (.inl h)

instance : IsTrans Rectangle Rectangle.le where
  trans a b c hab hbc := by
    rcases hab with hab | ⟨hab, hab'⟩ <;> rcases hbc with hbc | ⟨hbc, hbc'⟩
    · exact .inl (hab.trans hbc)
    · exact .inl (hbc ▸ hab)
    · exact .inl (hab ▸ hbc)
    · exact .inr ⟨hab.trans hbc, hab'.trans hbc'⟩

theorem Rectangle.le_area {a b : Rectangle} (h : a.le b) :
    rectangleArea a.bounds ≤ rectangleArea b.bounds := by
  rcases h with h | ⟨h, -⟩
  · exact le_of_lt h
  · exact le_of_eq h

theorem chosen_eq_some_iff (hn : rectangles.Nodup) :
    chosen rectangles size point = some rectangle ↔
      Smallest rectangles size point rectangle := by
  have hsorted := List.pairwise_insertionSort Rectangle.le (matching rectangles size point)
  have hmem : ∀ other, other ∈ (matching rectangles size point).insertionSort Rectangle.le ↔
      other ∈ rectangles ∧ Fits size point other :=
    fun other => (List.mem_insertionSort _).trans mem_matching
  have hnodup : ((matching rectangles size point).insertionSort Rectangle.le).Nodup :=
    (List.perm_insertionSort _ _).nodup_iff.mpr ((hn.filter _).filter _)
  rw [chosen]
  generalize (matching rectangles size point).insertionSort Rectangle.le = sorted
    at hsorted hmem hnodup
  cases sorted with
  | nil =>
    constructor
    · nofun
    · intro h
      cases (hmem rectangle).mpr ⟨h.mem, h.fits⟩
  | cons first others =>
    obtain ⟨hfirst, hothers⟩ := List.pairwise_cons.mp hsorted
    obtain ⟨hnew, -⟩ := List.nodup_cons.mp hnodup
    have hpos := area_pos ((hmem first).mp List.mem_cons_self).2.2
    dsimp only
    constructor
    · intro h
      split at h
      · cases h
      case isFalse hfar =>
        cases h
        obtain ⟨hin, hfits⟩ := (hmem rectangle).mp List.mem_cons_self
        refine ⟨hin, hfits, fun other hother hother' hne => ?_⟩
        have hlater : other ∈ others :=
          (List.mem_cons.mp ((hmem other).mpr ⟨hother, hother'⟩)).resolve_left hne
        obtain ⟨second, later, rfl⟩ := List.exists_cons_of_ne_nil (List.ne_nil_of_mem hlater)
        have hsecond : areasNearlyEqual rectangle.bounds second.bounds = false := by
          simpa using hfar
        have hle := Rectangle.le_area (hfirst second List.mem_cons_self)
        rcases List.mem_cons.mp hlater with rfl | hlater
        · exact far_of_far hpos hle le_rfl hsecond
        · exact far_of_far hpos hle
            (Rectangle.le_area ((List.pairwise_cons.mp hothers).1 other hlater)) hsecond
    · intro h
      -- the first one is not larger than the smallest, so it is the smallest
      have hsame : first = rectangle := by
        by_contra hne
        obtain ⟨hin, hfits⟩ := (hmem first).mp List.mem_cons_self
        have hlt := (h.others first hin hfits hne).1
        rcases List.mem_cons.mp ((hmem rectangle).mpr ⟨h.mem, h.fits⟩) with heq | hlater
        · exact hne heq.symm
        · exact absurd (Rectangle.le_area (hfirst rectangle hlater)) (not_le_of_gt hlt)
      subst hsame
      rw [if_neg]
      cases others with
      | nil => simp
      | cons second later =>
        obtain ⟨hin, hfits⟩ := (hmem second).mp (List.mem_cons_of_mem _ List.mem_cons_self)
        have hne : second ≠ first := fun heq => hnew (heq ▸ List.mem_cons_self)
        simpa using (h.others second hin hfits hne).2

end Picking

section Texts

variable {runtime : Runtime} {rectangles : List Rectangle}

/-- What is plotted for a frame: its handle, its bounds and its paper in either orientation. -/
structure Sheet where
  handle : String
  bounds : Bounds
  paper : Rat × Rat
  deriving DecidableEq

def FrameCandidate.sheet (frame : FrameCandidate) : Sheet :=
  ⟨frame.handle, frame.bounds, frame.size.orientationIndependent⟩

def Rectangle.sheet (rectangle : Rectangle) (size : PaperSize) : Sheet :=
  ⟨rectangle.handle, rectangle.bounds, size.orientationIndependent⟩

/-- A text names a size and is in a rectangle that is clearly the smallest one for it. -/
def Picks (runtime : Runtime) (rectangles : List Rectangle) (text : String × Point)
    (rectangle : Rectangle) (size : PaperSize) : Prop :=
  Publish.parsePaperSize runtime.script text.1 = some size ∧
    Smallest rectangles size text.2 rectangle

theorem parseLabel_size {text : String} {label : PaperLabel}
    (h : parseLabel runtime.script text = some label) :
    Publish.parsePaperSize runtime.script text = some label.size := by
  obtain ⟨size, hsize, rfl⟩ := Option.map_eq_some_iff.mp h
  exact hsize

/-- A text picks one rectangle for one size. -/
theorem Picks.unique {text : String × Point} {a b : Rectangle} {size size' : PaperSize}
    (h : Picks runtime rectangles text a size) (h' : Picks runtime rectangles text b size') :
    a = b ∧ size = size' := by
  have hsize : size = size' := Option.some.inj (h.1.symm.trans h'.1)
  subst hsize
  refine ⟨?_, rfl⟩
  by_contra hne
  have hlt := (h.2.others b h'.2.mem h'.2.fits (Ne.symm hne)).1
  exact lt_asymm hlt (h'.2.others a h.2.mem h.2.fits hne).1

theorem picks_iff_chosen (hn : rectangles.Nodup) {text : String × Point} {label : PaperLabel}
    (hlabel : parseLabel runtime.script text.1 = some label) (rectangle : Rectangle)
    (size : PaperSize) :
    Picks runtime rectangles text rectangle size ↔
      size = label.size ∧ chosen rectangles label.size text.2 = some rectangle := by
  rw [Picks, parseLabel_size hlabel, chosen_eq_some_iff hn]
  constructor
  · rintro ⟨heq, h⟩
    cases heq
    exact ⟨rfl, h⟩
  · rintro ⟨rfl, h⟩
    exact ⟨rfl, h⟩

/-- A text changes nothing, or adds the sheet of the rectangle that it picks. -/
theorem readText_cases (hn : rectangles.Nodup) (state : Frames) (text : String × Point) :
    ((∀ rectangle size, Picks runtime rectangles text rectangle size →
        rectangle.handle ∈ state.selected) ∧
      (readText runtime rectangles state text).frames = state.frames ∧
      (readText runtime rectangles state text).selected = state.selected) ∨
    ∃ rectangle size frame, Picks runtime rectangles text rectangle size ∧
      rectangle.handle ∉ state.selected ∧ frame.sheet = rectangle.sheet size ∧
      (readText runtime rectangles state text).frames = state.frames ++ [frame] ∧
      (readText runtime rectangles state text).selected = rectangle.handle :: state.selected := by
  rw [readText]
  cases hlabel : parseLabel runtime.script text.1 with
  | none =>
    refine .inl ⟨fun rectangle size h => ?_, rfl, rfl⟩
    rw [parseLabel, h.1] at hlabel
    cases hlabel
  | some label =>
    have hpick := picks_iff_chosen hn hlabel
    have hnone (h : chosen rectangles label.size text.2 = none) (rectangle size) :
        Picks runtime rectangles text rectangle size → rectangle.handle ∈ state.selected := by
      intro hpicks
      cases h.symm.trans ((hpick rectangle size).mp hpicks).2
    have hchosen : chosen rectangles label.size text.2 = _ := rfl
    conv at hchosen => rhs; rw [chosen]
    rw [matching] at hchosen
    dsimp only
    split
    case h_1 hsorted =>
      rw [hsorted] at hchosen
      refine .inl ⟨hnone hchosen, ?_⟩
      split <;> exact ⟨rfl, rfl⟩
    case h_2 first others hsorted =>
      rw [hsorted] at hchosen
      dsimp only at hchosen
      split
      case isTrue hnear =>
        rw [if_pos hnear] at hchosen
        exact .inl ⟨hnone hchosen, rfl, rfl⟩
      case isFalse hfar =>
        rw [if_neg hfar] at hchosen
        split
        case isTrue hselected =>
          refine .inl ⟨fun rectangle size h => ?_, rfl, rfl⟩
          cases hchosen.symm.trans ((hpick rectangle size).mp h).2
          exact hselected
        case isFalse hnew =>
          exact .inr ⟨first, label.size, _, (hpick _ _).mpr ⟨rfl, hchosen⟩, hnew, rfl, rfl, rfl⟩

/-- The labels that pick one rectangle name one size. -/
def LabelsAgree (runtime : Runtime) (rectangles : List Rectangle)
    (texts : List (String × Point)) : Prop :=
  ∀ text ∈ texts, ∀ text' ∈ texts, ∀ rectangle size size',
    Picks runtime rectangles text rectangle size → Picks runtime rectangles text' rectangle size' →
    size.orientationIndependent = size'.orientationIndependent

/-- The sheets of what the texts pick, in whatever order they come. -/
structure Picked (runtime : Runtime) (rectangles : List Rectangle) (texts : List (String × Point))
    (state : Frames) : Prop where
  sheets : ∀ sheet, sheet ∈ state.frames.map FrameCandidate.sheet ↔
    ∃ text ∈ texts, ∃ rectangle size, Picks runtime rectangles text rectangle size ∧
      sheet = rectangle.sheet size
  selected : ∀ handle, handle ∈ state.selected ↔
    ∃ text ∈ texts, ∃ rectangle size, Picks runtime rectangles text rectangle size ∧
      handle = rectangle.handle

variable {texts : List (String × Point)} {text : String × Point} {state : Frames}

theorem Picked.step (hhandles : (rectangles.map Rectangle.handle).Nodup)
    (hagree : LabelsAgree runtime rectangles (texts ++ [text]))
    (h : Picked runtime rectangles texts state) :
    Picked runtime rectangles (texts ++ [text]) (readText runtime rectangles state text) := by
  have hcases : ∀ P : String × Point → Prop,
      (∃ t ∈ texts ++ [text], P t) ↔ (∃ t ∈ texts, P t) ∨ P text := by
    intro P
    simp [or_and_right, exists_or]
  rcases readText_cases hhandles.of_map state text with
    ⟨hold, hframes, hselected⟩ | ⟨rectangle, size, frame, hpick, hnew, hsheet, hframes, hselected⟩
  · constructor
    · intro sheet
      rw [hframes, h.sheets, hcases]
      refine ⟨.inl, ?_⟩
      rintro (hearlier | ⟨rectangle, size, hpick, rfl⟩)
      · exact hearlier
      -- an earlier text picked the rectangle, for the same paper
      obtain ⟨text', htext', rectangle', size', hpick', hsame⟩ :=
        (h.selected _).mp (hold rectangle size hpick)
      cases List.inj_on_of_nodup_map hhandles hpick.2.mem hpick'.2.mem hsame
      have hpaper := hagree text (by simp) text' (by simp [htext']) rectangle size size' hpick hpick'
      exact ⟨text', htext', rectangle, size', hpick', by rw [Rectangle.sheet, hpaper]; rfl⟩
    · intro handle
      rw [hselected, h.selected, hcases]
      refine ⟨.inl, ?_⟩
      rintro (hearlier | ⟨rectangle, size, hpick, rfl⟩)
      · exact hearlier
      · exact (h.selected _).mp (hold rectangle size hpick)
  · constructor
    · intro sheet
      rw [hframes, hcases, ← h.sheets, List.map_append, List.mem_append, List.map_singleton,
        List.mem_singleton, hsheet]
      constructor
      · rintro (hearlier | rfl)
        · exact .inl hearlier
        · exact .inr ⟨rectangle, size, hpick, rfl⟩
      · rintro (hearlier | ⟨rectangle', size', hpick', rfl⟩)
        · exact .inl hearlier
        · obtain ⟨rfl, rfl⟩ := hpick'.unique hpick
          exact .inr rfl
    · intro handle
      rw [hselected, hcases, ← h.selected, List.mem_cons, or_comm]
      refine or_congr_right ⟨fun heq => ⟨rectangle, size, hpick, heq⟩, ?_⟩
      rintro ⟨rectangle', size', hpick', rfl⟩
      rw [(hpick'.unique hpick).1]

/-- The first text that picks a rectangle decides for which paper it is. -/
def Decided (state : Frames) (sheet : Sheet) : Prop :=
  sheet.handle ∈ state.selected ∧ sheet ∈ state.frames.map FrameCandidate.sheet ∧
    ∀ frame ∈ state.frames, frame.handle = sheet.handle → frame.sheet = sheet

theorem Decided.readText {sheet : Sheet} (hn : rectangles.Nodup) (h : Decided state sheet)
    (text : String × Point) : Decided (readText runtime rectangles state text) sheet := by
  obtain ⟨hselected, hmem, honly⟩ := h
  rcases readText_cases hn state text with
    ⟨-, hframes', hselected'⟩ | ⟨rectangle, size, frame, -, hnew, hsheet, hframes', hselected'⟩
  · rw [Decided, hframes', hselected']
    exact ⟨hselected, hmem, honly⟩
  · rw [Decided, hframes', hselected']
    refine ⟨List.mem_cons_of_mem _ hselected, by simp [hmem], fun other hother hhandle => ?_⟩
    rcases List.mem_append.mp hother with hearlier | hlast
    · exact honly other hearlier hhandle
    · cases List.mem_singleton.mp hlast
      have hsame : frame.handle = rectangle.handle := congrArg Sheet.handle hsheet
      exact (hnew (hsame ▸ hhandle ▸ hselected)).elim

end Texts

section Blocks

variable {runtime : Runtime} {blocks : Option BlockTable}

/-- The references whose labels are looked for in their definitions. -/
def searched (runtime : Runtime) (references : List LabelledBlock) : List BlockReference :=
  (references.filter fun block => attributeLabels runtime block = []).map (·.reference)

/-- References that share a key in the cache have the same texts. -/
def CacheAgrees (runtime : Runtime) (blocks : Option BlockTable)
    (references : List LabelledBlock) : Prop :=
  ∀ table, blocks = some table → Agree runtime.casefold table (searched runtime references)

theorem readBlockFrame_handle {block : LabelledBlock} {cache : Cache} {frame : FrameCandidate}
    (h : (readLabelBackedBlockFrame runtime blocks block cache).1.1 = some frame) :
    frame.handle = block.handle := by
  have hframe : ∀ labels fromDefinition,
      (frameOfLabels runtime block labels fromDefinition).1 = some frame →
      frame.handle = block.handle := by
    intro labels fromDefinition h
    cases labels with
    | nil => cases h
    | cons label others =>
      rw [frameOfLabels] at h
      split at h
      · cases h
      split at h
      · cases h
      split at h
      · cases h
      split at h
      · cases h
      split at h
      · cases h
      · cases h
        rfl
  unfold readLabelBackedBlockFrame at h
  split at h
  · unfold frameOfDefinition at h
    dsimp only at h
    split at h
    · cases h
    · exact hframe _ _ h
  · exact hframe _ _ h

theorem sameFrame_sheet {a b : FrameCandidate} (h : a.sheet = b.sheet) (block : FrameCandidate) :
    sameFrame a block = sameFrame b block := by
  have hbounds : a.bounds = b.bounds := congrArg Sheet.bounds h
  have hpaper : a.size.orientationIndependent = b.size.orientationIndependent :=
    congrArg Sheet.paper h
  simp only [sameFrame, frameBoundsNearlyEqual, samePaperDimensions, hbounds, hpaper]

/-- A block frame that no frame of a rectangle and no other block frame competes with. -/
def Kept (frames blockFrames : List FrameCandidate) (block : FrameCandidate) : Prop :=
  (∀ frame ∈ frames, sameFrame frame block = false) ∧
    ∀ other ∈ blockFrames, other.handle ≠ block.handle → sameFrame other block = false

theorem readBlockFrames_handles (references : List LabelledBlock) (cache : Cache) :
    ((readBlockFrames runtime blocks references cache).1.map FrameCandidate.handle).Sublist
      (references.map LabelledBlock.handle) := by
  induction references generalizing cache with
  | nil => exact List.Sublist.refl _
  | cons block rest ih =>
    have hrest := ih (readLabelBackedBlockFrame runtime blocks block cache).2
    rw [readBlockFrames]
    dsimp only
    cases hframe : (readLabelBackedBlockFrame runtime blocks block cache).1.1 with
    | none => exact hrest.cons _
    | some frame =>
      rw [Option.toList_some, List.singleton_append, List.map_cons, List.map_cons,
        readBlockFrame_handle hframe]
      exact hrest.cons_cons _

theorem Kept.mono {frames frames' blockFrames blockFrames' : List FrameCandidate}
    {block : FrameCandidate} (h : Kept frames blockFrames block)
    (hframes : frames'.map FrameCandidate.sheet ⊆ frames.map FrameCandidate.sheet)
    (hblocks : blockFrames' ⊆ blockFrames) : Kept frames' blockFrames' block := by
  constructor
  · intro frame hframe
    obtain ⟨frame', hframe', hsheet⟩ := List.mem_map.mp (hframes (List.mem_map_of_mem hframe))
    rw [← sameFrame_sheet hsheet]
    exact h.1 frame' hframe'
  · exact fun other hother => h.2 other (hblocks hother)

end Blocks

section Documents

variable {runtime : Runtime} {document : Document runtime}

theorem handles_sublist {β : Type} {read : Entity → Option β} {handle : β → String}
    (h : ∀ entity value, read entity = some value → handle value = entity.handle)
    (entities : List Entity) :
    ((entities.filterMap read).map handle).Sublist (entities.map Entity.handle) := by
  induction entities with
  | nil => exact List.Sublist.refl _
  | cons entity rest ih =>
    cases hread : read entity with
    | none =>
      rw [List.filterMap_cons_none hread]
      exact ih.cons _
    | some value =>
      rw [List.filterMap_cons_some hread, List.map_cons, List.map_cons, h entity value hread]
      exact ih.cons_cons _

theorem Entity.rectangle?_handle {entity : Entity} {rectangle : Rectangle}
    (h : entity.rectangle? = some rectangle) : rectangle.handle = entity.handle := by
  rw [Entity.rectangle?] at h
  split at h
  · obtain ⟨bounds, -, hbounds⟩ := Option.bind_eq_some_iff.mp h
    split at hbounds
    · cases hbounds
      rfl
    · cases hbounds
  · cases h

theorem Entity.block?_handle {entity : Entity} {block : LabelledBlock}
    (h : entity.block? = some block) : block.handle = entity.handle := by
  rw [Entity.block?] at h
  split at h
  · cases h
    rfl
  · cases h

def Document.rectangles (document : Document runtime) : List Rectangle :=
  document.modelSpace.filterMap Entity.rectangle?

def Document.texts (document : Document runtime) : List (String × Point) :=
  document.modelSpace.filterMap Entity.text?

def Document.references (document : Document runtime) : List LabelledBlock :=
  document.modelSpace.filterMap Entity.block?

def Document.sheets (document : Document runtime) : List Sheet :=
  (readLabelledFrames runtime document).1.map FrameCandidate.sheet

/-- A drawing whose entities can be read and have handles of their own. -/
structure Readable (document : Document runtime) : Prop where
  interrupted : document.interrupted = none
  handles : (document.modelSpace.map Entity.handle).Nodup

/-- The frames that the texts pick, before those of blocks are added. -/
def Document.read (document : Document runtime) : Frames :=
  document.texts.foldl (readText runtime document.rectangles)
    ⟨[], [], (readBlockFrames runtime document.blocks document.references .empty).2⟩

def Document.blockFrames (document : Document runtime) : List FrameCandidate :=
  (readBlockFrames runtime document.blocks document.references .empty).1

theorem Readable.rectangles (h : Readable document) :
    (document.rectangles.map Rectangle.handle).Nodup :=
  h.handles.sublist (handles_sublist (fun _ _ => Entity.rectangle?_handle) _)

theorem Readable.blockFrames (h : Readable document) :
    (document.blockFrames.map FrameCandidate.handle).Nodup :=
  h.handles.sublist ((readBlockFrames_handles _ _).trans
    (handles_sublist (fun _ _ => Entity.block?_handle) _))

theorem Picks.perm {rectangles rectangles' : List Rectangle} {text : String × Point}
    {rectangle : Rectangle} {size : PaperSize} (hperm : rectangles'.Perm rectangles)
    (h : Picks runtime rectangles text rectangle size) :
    Picks runtime rectangles' text rectangle size :=
  ⟨h.1, hperm.mem_iff.mpr h.2.mem, h.2.fits,
    fun other hother => h.2.others other (hperm.mem_iff.mp hother)⟩

/-- The same drawing, enumerated in another order. -/
def Document.reordered (document : Document runtime) (modelSpace : List Entity) :
    Document runtime :=
  { document with modelSpace := modelSpace }

/-- What the frames of a drawing depend on beside its entities as a set: which label or block
reference comes first. -/
structure Settled (document : Document runtime) : Prop where
  labels : LabelsAgree runtime document.rectangles document.texts
  cache : CacheAgrees runtime document.blocks document.references

variable {modelSpace : List Entity}

theorem Readable.reordered (h : Readable document) (hperm : modelSpace.Perm document.modelSpace) :
    Readable (document.reordered modelSpace) :=
  ⟨h.interrupted, (hperm.map _).nodup_iff.mpr h.handles⟩

theorem Settled.reordered (h : Settled document) (hperm : modelSpace.Perm document.modelSpace) :
    Settled (document.reordered modelSpace) := by
  have hrectangles : (document.reordered modelSpace).rectangles.Perm document.rectangles :=
    hperm.filterMap _
  have htexts : (document.reordered modelSpace).texts.Perm document.texts := hperm.filterMap _
  have hsearched : (searched runtime (document.reordered modelSpace).references).Perm
      (searched runtime document.references) := ((hperm.filterMap _).filter _).map _
  constructor
  · intro text htext text' htext' rectangle size size' hpick hpick'
    exact h.labels text (htexts.mem_iff.mp htext) text' (htexts.mem_iff.mp htext') rectangle size
      size' (hpick.perm hrectangles.symm) (hpick'.perm hrectangles.symm)
  · intro table htable query hquery query' hquery'
    exact h.cache table htable query (hsearched.mem_iff.mp hquery) query'
      (hsearched.mem_iff.mp hquery')

end Documents

end CadPlot.Drawing
