import CadPlot.Lib.Readers
import CadPlot.Drawing.FrameLaws
import CadPlot.Publish.PlotGeometry

/-!
# Sources of paper sizes

A frame is labelled with the part of a text that `parse_paper_size` matched, and
the planner parses that part again. Both patterns are searches with a closed
reader, so the part alone has the size that was found in the text.
-/

namespace CadPlot.Drawing

open Publish (PaperSize Script takeDigits takeNumber takeUnit inMillimetres sizeAt searchSize
  seriesAt searchSeries isSeriesChar parsePaperSize derivePlotGeometry ScaleSettings Window)
open Readers
open Text (isSpace)

section Patterns

variable (script : Script)

def isTimes (c : Char) : Bool := c = 'x' || c = 'X' || c = '×'

/-- The unit behind a size, when there is one. -/
def readUnit (width height : Rat) (text : List Char) : Option (PaperSize × List Char) :=
  some (inMillimetres width height (takeUnit script text), afterUnit script text)

/-- `PAPER_SIZE_PATTERN` -/
def readSize : List Char → Option (PaperSize × List Char) :=
  andThen (takeNumber script) fun width => andThen (skip isSpace) fun _ =>
    andThen (item isTimes) fun _ => andThen (skip isSpace) fun _ =>
      andThen (takeNumber script) fun height => readUnit script width height

/-- `A_SERIES_PATTERN` -/
def readSeries (text : List Char) : Option (PaperSize × List Char) :=
  (seriesAt text).map fun size => (size, text.drop 2)

def isDigit (c : Char) : Bool := (script.decimal c).isSome

theorem isTimes_iff {c : Char} : isTimes c = true ↔ c = 'x' ∨ c = 'X' ∨ c = '×' := by
  simp [isTimes, or_assoc]

theorem readSize_eq (text : List Char) : (readSize script text).map Prod.fst = sizeAt script text ∧
    (readSize script text).map Prod.snd = afterSize script text := by
  rw [readSize, sizeAt, afterSize, andThen]
  cases takeNumber script text with
  | none => exact ⟨rfl, rfl⟩
  | some number =>
    dsimp only [Option.bind_some, andThen, skip]
    cases number.2.dropWhile isSpace with
    | nil => exact ⟨rfl, rfl⟩
    | cons x rest =>
      dsimp only [item]
      by_cases hx : x = 'x' ∨ x = 'X' ∨ x = '×'
      · rw [if_pos (isTimes_iff.mpr hx), if_pos hx, if_pos hx]
        dsimp only [Option.bind_some]
        cases takeNumber script (rest.dropWhile isSpace) <;> exact ⟨rfl, rfl⟩
      · rw [if_neg (mt isTimes_iff.mp hx), if_neg hx, if_neg hx]
        exact ⟨rfl, rfl⟩

theorem search_size (behindDigit : Bool) (text : List Char) :
    (search (isDigit script) (readSize script) behindDigit text).map Prod.fst =
        searchSize script behindDigit text ∧
      (search (isDigit script) (readSize script) behindDigit text).map Prod.snd =
        sizeSource script behindDigit text := by
  induction text generalizing behindDigit with
  | nil => exact ⟨rfl, rfl⟩
  | cons c text ih =>
    obtain ⟨hsize, hsource⟩ := ih (isDigit script c)
    obtain ⟨hat, hafter⟩ := readSize_eq script (c :: text)
    rw [search, searchSize, sizeSource, Option.map_or, Option.map_or, hsize, hsource, ← hat,
      ← hafter]
    cases behindDigit
    · constructor <;> simp [Function.comp_def, isDigit]
    · exact ⟨rfl, rfl⟩

theorem search_series (behindSeriesChar : Bool) (text : List Char) :
    (search isSeriesChar readSeries behindSeriesChar text).map Prod.fst =
        searchSeries behindSeriesChar text ∧
      (search isSeriesChar readSeries behindSeriesChar text).map Prod.snd =
        seriesSource behindSeriesChar text := by
  induction text generalizing behindSeriesChar with
  | nil => exact ⟨rfl, rfl⟩
  | cons c text ih =>
    obtain ⟨hsize, hsource⟩ := ih (isSeriesChar c)
    rw [search, searchSeries, seriesSource, Option.map_or, Option.map_or, hsize, hsource]
    cases behindSeriesChar
    · dsimp only [Bool.false_eq_true, if_false]
      have hread : readSeries (c :: text) =
        (seriesAt (c :: text)).map fun size => (size, (c :: text).drop 2) := rfl
      rw [hread]
      cases hseries : seriesAt (c :: text) with
      | none => exact ⟨rfl, rfl⟩
      | some size =>
        refine ⟨rfl, ?_⟩
        cases text with
        | nil => cases hseries
        | cons d text =>
          have htwo : (c :: d :: text).length - text.length = 2 := by
            rw [List.length_cons, List.length_cons]
            omega
          change some ((c :: d :: text).take ((c :: d :: text).length - text.length)) = _
          rw [htwo]
          rfl
    · exact ⟨rfl, rfl⟩

end Patterns

section Digits

variable {script : Script}

theorem takeDigits_local (script : Script) (text : List Char) : ∃ used,
    text = used ++ (takeDigits script text).2 ∧
      used.length = (takeDigits script text).1.length ∧
      ∀ rest, rest <+: (takeDigits script text).2 →
        takeDigits script (used ++ rest) = ((takeDigits script text).1, rest) := by
  induction text with
  | nil =>
    refine ⟨[], rfl, rfl, fun rest hrest => ?_⟩
    obtain rfl := List.prefix_nil.mp hrest
    rfl
  | cons c text ih =>
    rw [takeDigits]
    cases hdigit : script.decimal c with
    | some d =>
      obtain ⟨used, heq, hlength, hkeep⟩ := ih
      refine ⟨c :: used, congrArg (c :: ·) heq, congrArg (· + 1) hlength, fun rest hrest => ?_⟩
      rw [List.cons_append, takeDigits, hdigit]
      dsimp only
      rw [hkeep rest hrest]
    | none =>
      refine ⟨[], rfl, rfl, fun rest hrest => ?_⟩
      cases rest with
      | nil => rfl
      | cons c' rest =>
        obtain ⟨rfl, -⟩ := List.cons_prefix_cons.mp hrest
        rw [List.nil_append, takeDigits, hdigit]

/-- Where no digit follows, none follows in a part. -/
theorem takeDigits_front {text rest : List Char} (h : (takeDigits script text).1 = [])
    (hrest : rest <+: text) : (takeDigits script rest).1 = [] := by
  obtain ⟨used, heq, hlength, hkeep⟩ := takeDigits_local script text
  rw [h] at hlength hkeep
  obtain rfl := List.eq_nil_of_length_eq_zero hlength
  rw [List.nil_append] at heq
  rw [← heq] at hkeep
  have hsame := hkeep rest hrest
  rw [List.nil_append] at hsame
  rw [hsame]

theorem local_takeNumber : Local (takeNumber script) := by
  intro text value rest hread
  obtain ⟨used, heq, -, hkeep⟩ := takeDigits_local script text
  rw [takeNumber] at hread
  generalize takeDigits script text = taken at heq hkeep hread
  obtain ⟨digits, behind⟩ := taken
  dsimp only at heq hkeep hread
  split at hread
  case isFalse => cases hread
  case isTrue hdigits =>
    cases behind with
    | nil =>
      cases hread
      refine ⟨used, heq, fun rest' hrest => ?_⟩
      rw [takeNumber, hkeep rest' hrest]
      obtain rfl := List.prefix_nil.mp hrest
      dsimp only
      rw [if_pos hdigits]
    | cons c behind =>
      dsimp only at hread
      split at hread
      case isTrue hpoint =>
        obtain ⟨used', heq', -, hkeep'⟩ := takeDigits_local script behind
        cases hread
        refine ⟨used ++ c :: used', ?_, fun rest' hrest => ?_⟩
        · rw [heq, List.append_assoc, List.cons_append, ← heq']
        · have hbehind : c :: used' ++ rest' <+: c :: behind := by
            rw [List.cons_append, List.prefix_cons_inj]
            conv => rhs; rw [heq']
            exact (List.prefix_append_right_inj used').mpr hrest
          rw [List.append_assoc, takeNumber, hkeep _ hbehind]
          dsimp only
          rw [if_pos hdigits]
          dsimp only [List.cons_append]
          rw [hkeep' rest' hrest, if_pos hpoint]
      case isFalse hpoint =>
        cases hread
        refine ⟨used, heq, fun rest' hrest => ?_⟩
        rw [takeNumber, hkeep rest' hrest]
        dsimp only
        rw [if_pos hdigits]
        cases rest' with
        | nil => rfl
        | cons c' rest' =>
          obtain ⟨rfl, hrest'⟩ := List.cons_prefix_cons.mp hrest
          have hnot : ¬((c' = '.' ∨ c' = ',') ∧ (takeDigits script rest').1 ≠ []) := by
            rintro ⟨hc, hne⟩
            exact hpoint ⟨hc, fun hnone => hne (takeDigits_front hnone hrest')⟩
          dsimp only
          rw [if_neg hnot]

/-- A unit is read from its letters alone; whatever is not one is left. -/
theorem closed_readUnit (width height : Rat) : Closed (readUnit script width height) := by
  intro text size rest hread
  cases hread
  cases hunit : takeUnit script text with
  | none =>
    have hafter : afterUnit script text = text := by rw [afterUnit, hunit]; rfl
    rw [hafter]
    exact ⟨[], rfl, rfl⟩
  | some centimetres =>
    have hafter : afterUnit script text = (text.dropWhile isSpace).drop 2 := by
      rw [afterUnit, hunit]
      rfl
    rw [hafter]
    rw [takeUnit] at hunit
    split at hunit
    case h_2 => cases hunit
    case h_1 a b rest hskip =>
      obtain ⟨spaces, heq, hkeep⟩ := local_skip isSpace text () _ rfl
      rw [hskip] at heq hkeep ⊢
      have hused : (spaces ++ [a, b]).dropWhile isSpace = [a, b] :=
        congrArg Prod.snd (Option.some.inj (hkeep [a, b] ⟨rest, rfl⟩))
      split at hunit
      case isFalse => cases hunit
      case isTrue hletters =>
        have hread : takeUnit script (spaces ++ [a, b]) = some centimetres := by
          rw [takeUnit, hused]
          dsimp only
          rw [if_pos ⟨hletters.1, hletters.2.1, rfl⟩]
          exact hunit
        refine ⟨spaces ++ [a, b], by simpa using heq, ?_⟩
        rw [readUnit, hread, afterUnit, hread, hused]
        rfl

theorem closed_readSize : Closed (readSize script) :=
  local_takeNumber.andThen_closed fun _ => (local_skip isSpace).andThen_closed fun _ =>
    (local_item isTimes).andThen_closed fun _ => (local_skip isSpace).andThen_closed fun _ =>
      local_takeNumber.andThen_closed fun _ => closed_readUnit _ _

theorem takeNumber_length {text rest : List Char} {value : Rat}
    (h : takeNumber script text = some (value, rest)) : 2 ≤ text.length := by
  obtain ⟨used, heq, hlength, -⟩ := takeDigits_local script text
  rw [takeNumber] at h
  dsimp only at h
  split at h
  case isFalse => cases h
  case isTrue hdigits =>
    rw [heq, List.length_append]
    omega

theorem readSize_length {text rest : List Char} {size : PaperSize}
    (h : readSize script text = some (size, rest)) : 2 < text.length := by
  obtain ⟨width, behind, hnumber, hbehind⟩ := andThen_eq_some.mp h
  obtain ⟨_, _, hskip, htimes⟩ := andThen_eq_some.mp hbehind
  obtain ⟨_, _, hitem, -⟩ := andThen_eq_some.mp htimes
  have hne : behind ≠ [] := by
    rintro rfl
    cases hskip
    cases hitem
  obtain ⟨used, rfl, hused⟩ := local_takeNumber.closed text width behind hnumber
  have hdigits := takeNumber_length hused
  have hpos := List.length_pos_iff.mpr hne
  rw [List.length_append]
  omega

theorem closed_readSeries : Closed readSeries := by
  intro text size rest hread
  obtain ⟨size', hseries, heq⟩ := Option.map_eq_some_iff.mp hread
  cases heq
  unfold seriesAt at hseries
  split at hseries
  case h_2 => cases hseries
  case h_1 a d rest =>
    split at hseries
    case isFalse => cases hseries
    case isTrue hletter =>
      refine ⟨[a, d], rfl, ?_⟩
      rw [readSeries, seriesAt, if_pos ⟨hletter.1, rfl⟩, hseries]
      rfl

end Digits

section Sources

variable {script : Script}

/-- Too short for a size -/
theorem search_size_short {behindDigit : Bool} {text : List Char} (h : text.length ≤ 2) :
    search (isDigit script) (readSize script) behindDigit text = none := by
  rw [Option.eq_none_iff_forall_ne_some]
  rintro ⟨size, source⟩ hsearch
  obtain ⟨before, after, rest, rfl, hread, -⟩ := search_eq_some hsearch
  have hlong := readSize_length hread
  rw [List.length_append] at h
  omega

theorem search_series_length {behindSeriesChar : Bool} {text source : List Char} {size : PaperSize}
    (h : search isSeriesChar readSeries behindSeriesChar text = some (size, source)) :
    source.length ≤ 2 := by
  obtain ⟨before, after, rest, rfl, hread, rfl⟩ := search_eq_some h
  obtain ⟨size', -, heq⟩ := Option.map_eq_some_iff.mp hread
  cases heq
  rw [List.length_take, List.length_drop]
  omega

/-- A label by the two searches. -/
theorem parseLabel_eq (text : String) : parseLabel script text =
    ((search (isDigit script) (readSize script) false text.toList).or
      (search isSeriesChar readSeries false text.toList)).map fun (size, source) =>
        ⟨size, String.ofList source⟩ := by
  obtain ⟨hsize, hsizeSource⟩ := search_size script false text.toList
  obtain ⟨hseries, hseriesSource⟩ := search_series false text.toList
  rw [parseLabel, labelSource, parsePaperSize, ← hsize, ← hsizeSource, ← hseries, ← hseriesSource]
  cases search (isDigit script) (readSize script) false text.toList with
  | some found => rfl
  | none => cases search isSeriesChar readSeries false text.toList <;> rfl

theorem parseLabel_source {text : String} {label : PaperLabel}
    (h : parseLabel script text = some label) : parseLabel script label.source = some label := by
  rw [parseLabel_eq] at h
  obtain ⟨⟨size, source⟩, hfound, rfl⟩ := Option.map_eq_some_iff.mp h
  dsimp only
  rw [parseLabel_eq, String.toList_ofList]
  rcases Option.or_eq_some_iff.mp hfound with hsize | ⟨-, hseries⟩
  · rw [closed_readSize.search_source rfl hsize]
    rfl
  · rw [search_size_short (search_series_length hseries),
      closed_readSeries.search_source rfl hseries]
    rfl

end Sources

section Planning

variable {runtime : Runtime}

/-- The label of a frame is the source of its size. -/
def Sourced (script : Script) (frame : FrameCandidate) : Prop :=
  ∃ text, parseLabel script text = some ⟨frame.size, frame.label⟩

theorem labelsOf_source {script : Script} {texts : List String} :
    ∀ label ∈ labelsOf script texts, ∃ text, parseLabel script text = some label := by
  rw [labelsOf]
  refine List.foldlRecOn _ _ (motive := fun labels : List PaperLabel =>
    ∀ label ∈ labels, ∃ text, parseLabel script text = some label) ?_ fun labels h next hnext => ?_
  · exact fun label hlabel => absurd hlabel List.not_mem_nil
  · split
    · exact h
    · intro label hlabel
      rcases List.mem_append.mp hlabel with hbefore | hnew
      · exact h label hbefore
      · obtain ⟨text, -, hparsed⟩ := List.mem_filterMap.mp hnext
        exact ⟨text, (List.mem_singleton.mp hnew).symm ▸ hparsed⟩

theorem frameOfLabels_label {block : LabelledBlock} {labels : List PaperLabel}
    {fromDefinition : Bool} {frame : FrameCandidate}
    (h : (frameOfLabels runtime block labels fromDefinition).1 = some frame) :
    ⟨frame.size, frame.label⟩ ∈ labels := by
  cases labels with
  | nil => cases h
  | cons label others =>
    rw [frameOfLabels] at h
    split at h
    · cases h
    split at h
    · cases h
    split at h
    · cases h
    split at h
    · cases h
    split at h
    · cases h
    · cases h
      exact List.mem_cons_self

theorem readBlockFrame_sourced {blocks : Option BlockTable}
    {block : LabelledBlock} {cache : Cache} {frame : FrameCandidate}
    (h : (readLabelBackedBlockFrame runtime blocks block cache).1.1 = some frame) :
    Sourced runtime.script frame := by
  unfold readLabelBackedBlockFrame at h
  split at h
  · unfold frameOfDefinition at h
    dsimp only at h
    split at h
    · cases h
    · exact labelsOf_source _ (frameOfLabels_label h)
  · exact labelsOf_source _ (frameOfLabels_label h)

theorem readBlockFrames_sourced (blocks : Option BlockTable)
    (references : List LabelledBlock) (cache : Cache) :
    ∀ frame ∈ (readBlockFrames runtime blocks references cache).1,
      Sourced runtime.script frame := by
  induction references generalizing cache with
  | nil => exact fun frame hframe => absurd hframe List.not_mem_nil
  | cons block rest ih =>
    intro frame hframe
    rw [readBlockFrames] at hframe
    dsimp only at hframe
    rcases List.mem_append.mp hframe with hfirst | hrest
    · exact readBlockFrame_sourced (Option.mem_toList.mp hfirst)
    · exact ih _ frame hrest

theorem readText_sourced {rectangles : List Rectangle} {state : Frames}
    (h : ∀ frame ∈ state.frames, Sourced runtime.script frame) (text : String × Point) :
    ∀ frame ∈ (readText runtime rectangles state text).frames, Sourced runtime.script frame := by
  rw [readText]
  cases hlabel : parseLabel runtime.script text.1 with
  | none => exact h
  | some label =>
    dsimp only
    split
    · split <;> exact h
    split
    · exact h
    split
    · exact h
    · intro frame hframe
      rcases List.mem_append.mp hframe with hbefore | hnew
      · exact h frame hbefore
      · rw [List.mem_singleton.mp hnew]
        exact ⟨text.1, hlabel⟩

theorem addBlockFrame_sourced {blockFrames : List FrameCandidate}
    {state : List FrameCandidate × List String} {block : FrameCandidate}
    (h : ∀ frame ∈ state.1, Sourced runtime.script frame) (hblock : Sourced runtime.script block) :
    ∀ frame ∈ (addBlockFrame blockFrames state block).1, Sourced runtime.script frame := by
  rw [addBlockFrame]
  split
  · exact h
  split
  · exact h
  · intro frame hframe
    rcases List.mem_append.mp hframe with hbefore | hnew
    · exact h frame hbefore
    · rw [List.mem_singleton.mp hnew]
      exact hblock

theorem readLabelledFrames_sourced (document : Document runtime) :
    ∀ frame ∈ (readLabelledFrames runtime document).1, Sourced runtime.script frame := by
  rw [readLabelledFrames]
  have hblocks := @readBlockFrames_sourced runtime document.blocks
    (document.modelSpace.filterMap Entity.block?) .empty
  dsimp only
  generalize readBlockFrames runtime document.blocks _ _ = read at hblocks
  cases document.interrupted with
  | some failure => exact fun frame hframe => absurd hframe List.not_mem_nil
  | none =>
    dsimp only
    refine List.foldlRecOn read.1 _ (motive := fun state : List FrameCandidate × List String =>
      ∀ frame ∈ state.1, Sourced runtime.script frame) ?_ fun state hstate block hblock =>
        addBlockFrame_sourced hstate (hblocks block hblock)
    refine List.foldlRecOn _ _ (motive := fun state : Frames =>
      ∀ frame ∈ state.frames, Sourced runtime.script frame) ?_ fun state hstate text _ =>
        readText_sourced hstate text
    exact fun frame hframe => absurd hframe List.not_mem_nil

theorem derivePlotGeometry_paper {script : Script} {settings : ScaleSettings} {window : Window}
    {label : String} {size : PaperSize} {geometry : Publish.PlotGeometry}
    (hlabel : parsePaperSize script label = some size)
    (h : derivePlotGeometry script settings window label = .ok (some geometry)) :
    geometry.paperWidthMm = size.widthMm ∧ geometry.paperHeightMm = size.heightMm := by
  unfold derivePlotGeometry at h
  rw [hlabel] at h
  dsimp only at h
  split at h
  · cases h
  obtain ⟨upright, -, h⟩ := bind_eq_ok.1 h
  obtain ⟨turned, -, h⟩ := bind_eq_ok.1 h
  generalize (if turned.before upright then turned else upright) = best at h
  split at h
  · cases h
  obtain ⟨denominator, -, h⟩ := bind_eq_ok.1 h
  obtain ⟨error, -, h⟩ := bind_eq_ok.1 h
  split at h
  · cases h
  · cases h
    exact ⟨rfl, rfl⟩

/-- Whatever the text, the source of its size has that size; so the planner reads from the label of
a frame the size that the frame was found with. -/
theorem source_size (runtime : Runtime) :
    (∀ text label, parseLabel runtime.script text = some label →
      parsePaperSize runtime.script label.source = some label.size) ∧
    ∀ (document : Document runtime), ∀ frame ∈ (readLabelledFrames runtime document).1,
      parsePaperSize runtime.script frame.label = some frame.size ∧
      ∀ settings window geometry,
        derivePlotGeometry runtime.script settings window frame.label = .ok (some geometry) →
          geometry.paperWidthMm = frame.size.widthMm ∧
            geometry.paperHeightMm = frame.size.heightMm := by
  have hsource : ∀ text label, parseLabel runtime.script text = some label →
      parsePaperSize runtime.script label.source = some label.size :=
    fun text label h => parseLabel_size (parseLabel_source h)
  refine ⟨hsource, fun document frame hframe => ?_⟩
  obtain ⟨text, hlabel⟩ := readLabelledFrames_sourced document frame hframe
  have hsize := hsource text _ hlabel
  exact ⟨hsize, fun settings window geometry h => derivePlotGeometry_paper hsize h⟩

/-- The digit behind the unit makes it no unit, in the text and in the source. -/
theorem source_size_without_unit :
    parseLabel Publish.asciiScript "PAFTA 12,5 X 84 mm2" =
        some ⟨⟨125, 840⟩, "12,5 X 84"⟩ ∧
      parsePaperSize Publish.asciiScript "12,5 X 84" = some ⟨125, 840⟩ := by
  have hlabel : parseLabel Publish.asciiScript "PAFTA 12,5 X 84 mm2" =
      some ⟨⟨125, 840⟩, "12,5 X 84"⟩ := by decide +kernel
  exact ⟨hlabel, (source_size ⟨Publish.asciiScript, fun c => [c], fun s => s⟩).1 _ _ hlabel⟩

end Planning

end CadPlot.Drawing
