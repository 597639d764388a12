import CadPlot.Publish.PaperSizes
import Mathlib.Algebra.Order.Field.Rat
import Mathlib.Tactic.Linarith
import Mathlib.Tactic.Positivity
import Mathlib.Tactic.FieldSimp
import Mathlib.Tactic.Ring

/-!
# Plot geometry

`_derive_plot_geometry` fits a frame to the paper that its label states and
`PublishGeometryContract.Validate` computes the fit again before the plot. All
numbers are exact here; rounding to six digits is an operation on them.
-/

namespace CadPlot.Publish

/-- `round` to an integer: ties go to the even neighbour -/
def roundEven (q : Rat) : Int :=
  let below := q.floor
  if q - below < 1 / 2 then below
  else if 1 / 2 < q - below then below + 1
  else if below % 2 = 0 then below
  else below + 1

/-- `round(q, 6)` -/
def round6 (q : Rat) : Rat := roundEven (q * 1000000) / 1000000

theorem abs_sub_roundEven (q : Rat) : |q - roundEven q| ≤ 1 / 2 := by
  have hlow : (q.floor : Rat) ≤ q := Rat.floor_le q
  have hhigh : q < q.floor + 1 := by
    have hnext := Rat.lt_floor_add_one q
    push_cast at hnext
    exact hnext
  unfold roundEven
  dsimp only
  split
  · next hless =>
    rw [abs_of_nonneg (by linarith)]
    exact hless.le
  · next hless =>
    split
    · push_cast
      rw [abs_of_nonpos (by linarith)]
      linarith
    · split
      · rw [abs_of_nonneg (by linarith)]
        linarith
      · push_cast
        rw [abs_of_nonpos (by linarith)]
        linarith

theorem abs_sub_round6 (q : Rat) : |q - round6 q| ≤ 1 / 2000000 := by
  have hround := abs_sub_roundEven (q * 1000000)
  have heq : q - round6 q = (q * 1000000 - roundEven (q * 1000000)) / 1000000 := by
    rw [round6]
    ring
  rw [heq, abs_div, abs_of_pos (by norm_num : (0 : Rat) < 1000000)]
  linarith

section Planner

structure Window where
  minX : Rat
  minY : Rat
  maxX : Rat
  maxY : Rat
  deriving DecidableEq, Repr

/-- The settings of a configuration that a scale depends on. -/
structure ScaleSettings where
  drawingUnitMm : Rat
  scaleDenominators : List Rat
  scaleToleranceRatio : Rat

/-- The checks of these settings in `load_config` -/
def validateScale (settings : ScaleSettings) : Except String Unit := do
  ensure (decide (0 < settings.drawingUnitMm))
    "drawing_unit_mm must be a finite value greater than zero"
  ensure (decide (1 ≤ settings.scaleDenominators.length ∧ settings.scaleDenominators.length ≤ 100 ∧
    ∀ d ∈ settings.scaleDenominators, 0 < d)) "scale_denominators must contain positive values"
  ensure (decide settings.scaleDenominators.Nodup) "scale_denominators must be unique"
  ensure (decide (0 ≤ settings.scaleToleranceRatio ∧ settings.scaleToleranceRatio ≤ 1 / 10))
    "scale_tolerance_ratio must be between 0 and 0.1"

structure PlotGeometry where
  window : Window
  rotationDegrees : Nat
  scaleDenominator : Rat
  derivedScaleDenominator : Rat
  scaleToleranceRatio : Rat
  drawingUnitMm : Rat
  paperWidthMm : Rat
  paperHeightMm : Rat
  deriving DecidableEq, Repr

inductive ArithmeticError where
  | zeroDivision
  | emptyMinimum
  deriving DecidableEq, Repr

def divide (a b : Rat) : Except ArithmeticError Rat :=
  if b = 0 then .error .zeroDivision else .ok (a / b)

/-- How a window fits a paper: how far its sides are from one scale, their average and the
rotation. -/
structure Fit where
  mismatch : Rat
  average : Rat
  rotation : Nat
  deriving DecidableEq, Repr

/-- The order of tuples -/
def Fit.before (a b : Fit) : Bool :=
  a.mismatch < b.mismatch || (a.mismatch = b.mismatch &&
    (a.average < b.average || (a.average = b.average && a.rotation < b.rotation)))

def fitPaper (settings : ScaleSettings) (window : Window) (rotation : Nat)
    (paperWidth paperHeight : Rat) : Except ArithmeticError Fit := do
  let widthScale ← divide ((window.maxX - window.minX) * settings.drawingUnitMm) paperWidth
  let heightScale ← divide ((window.maxY - window.minY) * settings.drawingUnitMm) paperHeight
  let average := (widthScale + heightScale) / 2
  let mismatch ← divide |widthScale - heightScale| average
  pure ⟨mismatch, average, rotation⟩

/-- `min` by the distance, the first of equals -/
def nearest (derived : Rat) : List Rat → Except ArithmeticError Rat
  | [] => .error .emptyMinimum
  | d :: ds => .ok (ds.foldl (fun best d => if |d - derived| < |best - derived| then d else best) d)

/-- `_derive_plot_geometry` -/
def derivePlotGeometry (script : Script) (settings : ScaleSettings) (window : Window)
    (label : String) : Except ArithmeticError (Option PlotGeometry) :=
  match parsePaperSize script label with
  | none => pure none
  | some paper => do
    if min (window.maxX - window.minX) (window.maxY - window.minY) ≤ 0 then
      return none
    let upright ← fitPaper settings window 0 paper.widthMm paper.heightMm
    let turned ← fitPaper settings window 90 paper.heightMm paper.widthMm
    let best := if turned.before upright then turned else upright
    if settings.scaleToleranceRatio < best.mismatch then
      return none
    let denominator ← nearest best.average settings.scaleDenominators
    let error ← divide |denominator - best.average| denominator
    if settings.scaleToleranceRatio < error then
      return none
    pure (some
      { window
        rotationDegrees := best.rotation
        scaleDenominator := denominator
        derivedScaleDenominator := round6 best.average
        scaleToleranceRatio := settings.scaleToleranceRatio
        drawingUnitMm := settings.drawingUnitMm
        paperWidthMm := paper.widthMm
        paperHeightMm := paper.heightMm })

end Planner

section Publisher

def roundedScaleTolerance : Rat := 51 / 100000000

def slack : Rat := 1 / 1000000000000

/-- `PublishGeometryContract.Validate` -/
def PlotGeometry.validate (g : PlotGeometry) : Option String :=
  if g.rotationDegrees ≠ 0 ∧ g.rotationDegrees ≠ 90 then some "invalid_plot_rotation"
  else if ¬(0 < g.scaleDenominator ∧ 0 < g.derivedScaleDenominator ∧ 0 < g.drawingUnitMm ∧
      0 < g.paperWidthMm ∧ 0 < g.paperHeightMm ∧ 0 ≤ g.scaleToleranceRatio ∧
      g.scaleToleranceRatio ≤ 1 / 10) then
    some "invalid_plot_scale"
  else if g.window.maxX ≤ g.window.minX ∨ g.window.maxY ≤ g.window.minY then
    some "invalid_plot_window"
  else
    let expectedWidth := if g.rotationDegrees = 0 then g.paperWidthMm else g.paperHeightMm
    let expectedHeight := if g.rotationDegrees = 0 then g.paperHeightMm else g.paperWidthMm
    let width := (g.window.maxX - g.window.minX) * g.drawingUnitMm
    let height := (g.window.maxY - g.window.minY) * g.drawingUnitMm
    let widthScale := width / expectedWidth
    let heightScale := height / expectedHeight
    let average := (widthScale + heightScale) / 2
    if ¬(0 < widthScale ∧ 0 < heightScale) then some "invalid_plot_scale"
    else if g.scaleToleranceRatio + slack < |widthScale - heightScale| / average then
      let alternateWidth := width / expectedHeight
      let alternateHeight := height / expectedWidth
      if |alternateWidth - alternateHeight| / ((alternateWidth + alternateHeight) / 2) ≤
          g.scaleToleranceRatio + slack then
        some "plot_geometry_rotation_mismatch"
      else some "plot_geometry_aspect_mismatch"
    else if roundedScaleTolerance < |average - g.derivedScaleDenominator| then
      some "derived_scale_mismatch"
    else if g.scaleToleranceRatio + slack <
        |g.scaleDenominator - g.derivedScaleDenominator| / g.scaleDenominator then
      some "plot_scale_mismatch"
    else none

end Publisher

section Paper

variable {script : Script}

theorem takeNumber_nonneg {text rest : List Char} {value : Rat}
    (h : takeNumber script text = some (value, rest)) : 0 ≤ value := by
  unfold takeNumber at h
  dsimp only at h
  split at h
  · split at h
    · split at h
      · obtain ⟨rfl, _⟩ := Prod.mk.inj (Option.some.inj h)
        positivity
      · obtain ⟨rfl, _⟩ := Prod.mk.inj (Option.some.inj h)
        positivity
    · obtain ⟨rfl, _⟩ := Prod.mk.inj (Option.some.inj h)
      positivity
  · cases h

def PaperSize.Nonneg (size : PaperSize) : Prop := 0 ≤ size.widthMm ∧ 0 ≤ size.heightMm

theorem sizeAt_nonneg {text : List Char} {size : PaperSize} (h : sizeAt script text = some size) :
    size.Nonneg := by
  obtain ⟨⟨width, rest⟩, hwidth, h⟩ := Option.bind_eq_some_iff.1 h
  dsimp only at h
  split at h
  · split at h
    · obtain ⟨⟨height, after⟩, hheight, rfl⟩ := Option.map_eq_some_iff.1 h
      have hw := takeNumber_nonneg hwidth
      have hh := takeNumber_nonneg hheight
      dsimp only [inMillimetres]
      split
      · exact ⟨by positivity, by positivity⟩
      · exact ⟨hw, hh⟩
    · cases h
  · cases h

theorem searchSize_nonneg {behindDigit : Bool} {text : List Char} {size : PaperSize}
    (h : searchSize script behindDigit text = some size) : size.Nonneg := by
  induction text generalizing behindDigit with
  | nil => cases h
  | cons c text ih =>
    rcases Option.or_eq_some_iff.1 h with hhead | ⟨_, htail⟩
    · split at hhead
      · cases hhead
      · exact sizeAt_nonneg hhead
    · exact ih htail

theorem seriesMm_nonneg {c : Char} {size : PaperSize} (h : seriesMm c = some size) :
    size.Nonneg := by
  unfold seriesMm at h
  split at h
  all_goals cases h
  all_goals exact ⟨by norm_num, by norm_num⟩

theorem searchSeries_nonneg {behindSeriesChar : Bool} {text : List Char} {size : PaperSize}
    (h : searchSeries behindSeriesChar text = some size) : size.Nonneg := by
  induction text generalizing behindSeriesChar with
  | nil => cases h
  | cons c text ih =>
    rcases Option.or_eq_some_iff.1 h with hhead | ⟨_, htail⟩
    · split at hhead
      · cases hhead
      · unfold seriesAt at hhead
        split at hhead
        · split at hhead
          · exact seriesMm_nonneg hhead
          · cases hhead
        · cases hhead
    · exact ih htail

theorem parsePaperSize_nonneg {label : String} {size : PaperSize}
    (h : parsePaperSize script label = some size) : size.Nonneg := by
  rcases Option.or_eq_some_iff.1 h with hsize | ⟨_, hseries⟩
  · exact searchSize_nonneg hsize
  · exact searchSeries_nonneg hseries

end Paper

section Fitting

variable (settings : ScaleSettings) (window : Window)

/-- The fit on a paper that has both sides. -/
def fitOf (rotation : Nat) (paperWidth paperHeight : Rat) : Fit :=
  let widthScale := (window.maxX - window.minX) * settings.drawingUnitMm / paperWidth
  let heightScale := (window.maxY - window.minY) * settings.drawingUnitMm / paperHeight
  let average := (widthScale + heightScale) / 2
  ⟨|widthScale - heightScale| / average, average, rotation⟩

/-- The fit on the paper as it stands or turned, whichever is closer. -/
def closerFit (paper : PaperSize) : Fit :=
  let upright := fitOf settings window 0 paper.widthMm paper.heightMm
  let turned := fitOf settings window 90 paper.heightMm paper.widthMm
  if turned.before upright then turned else upright

/-- Rounding a scale does not move it out of the tolerance of the nearest denominator. -/
def Steady (scale : Rat) : Prop :=
  ∀ d, nearest scale settings.scaleDenominators = .ok d →
    |d - scale| ≤ settings.scaleToleranceRatio * d →
      |d - round6 scale| ≤ (settings.scaleToleranceRatio + slack) * d

/-- What a frame and its label have to be for the replay: no side of the paper is stated as zero,
and the scale of a frame that fits stays within the tolerance when it is rounded. -/
def Replayable (script : Script) (label : String) : Prop :=
  ∀ paper, parsePaperSize script label = some paper →
    window.minX < window.maxX → window.minY < window.maxY →
      paper.widthMm ≠ 0 ∧ paper.heightMm ≠ 0 ∧
        ((closerFit settings window paper).mismatch ≤ settings.scaleToleranceRatio →
          Steady settings (closerFit settings window paper).average)

/-- The planner does not divide by zero, and the publisher accepts what it emits. -/
def Replays (script : Script) (label : String) : Prop :=
  ∃ result, derivePlotGeometry script settings window label = .ok result ∧
    ∀ g, result = some g → g.validate = none

variable {settings window} {rotation : Nat} {w h : Rat}

theorem fitPaper_eq (hunit : 0 < settings.drawingUnitMm) (hx : window.minX < window.maxX)
    (hy : window.minY < window.maxY) (hw : 0 < w) (hh : 0 < h) :
    fitPaper settings window rotation w h = .ok (fitOf settings window rotation w h) := by
  have hwidth : 0 < (window.maxX - window.minX) * settings.drawingUnitMm / w :=
    div_pos (mul_pos (sub_pos.2 hx) hunit) hw
  have hheight : 0 < (window.maxY - window.minY) * settings.drawingUnitMm / h :=
    div_pos (mul_pos (sub_pos.2 hy) hunit) hh
  have haverage : ((window.maxX - window.minX) * settings.drawingUnitMm / w +
      (window.maxY - window.minY) * settings.drawingUnitMm / h) / 2 ≠ 0 := by positivity
  simp only [fitPaper, divide, if_neg hw.ne', if_neg hh.ne', bind, Except.bind, if_neg haverage]
  rfl

theorem fitPaper_zero (hzero : w = 0 ∨ h = 0) :
    fitPaper settings window rotation w h = .error .zeroDivision := by
  unfold fitPaper divide
  by_cases hw : w = 0
  · rw [if_pos hw]
    rfl
  · rw [if_neg hw, if_pos (hzero.resolve_left hw)]
    rfl

theorem foldl_mem {α : Type} (choose : α → α → Bool) (ds : List α) (d : α) :
    ds.foldl (fun best d => if choose d best then d else best) d ∈ d :: ds := by
  induction ds generalizing d with
  | nil => exact List.mem_singleton_self d
  | cons d' ds ih =>
    rw [List.foldl_cons]
    rcases List.mem_cons.1 (ih (if choose d' d then d' else d)) with heq | hmem
    · rw [heq]
      split
      · exact List.mem_cons_of_mem _ List.mem_cons_self
      · exact List.mem_cons_self
    · exact List.mem_cons_of_mem _ (List.mem_cons_of_mem _ hmem)

theorem nearest_mem {derived d : Rat} {ds : List Rat} (h : nearest derived ds = .ok d) :
    d ∈ ds := by
  cases ds with
  | nil => cases h
  | cons d' ds =>
    obtain rfl := Except.ok.inj h
    have hmem := foldl_mem (fun d best => decide (|d - derived| < |best - derived|)) ds d'
    simpa only [decide_eq_true_eq] using hmem

structure Scalable (settings : ScaleSettings) : Prop where
  unit : 0 < settings.drawingUnitMm
  nonempty : settings.scaleDenominators ≠ []
  positive : ∀ d ∈ settings.scaleDenominators, 0 < d
  tolerance : 0 ≤ settings.scaleToleranceRatio ∧ settings.scaleToleranceRatio ≤ 1 / 10

theorem validateScale_ok (h : validateScale settings = .ok ()) : Scalable settings := by
  obtain ⟨hunit, h⟩ := ensure_bind_eq_ok.1 h
  obtain ⟨hdenominators, h⟩ := ensure_bind_eq_ok.1 h
  obtain ⟨_, h⟩ := ensure_bind_eq_ok.1 h
  rw [ensure_eq_ok, decide_eq_true_eq] at h
  rw [decide_eq_true_eq] at hunit hdenominators
  refine ⟨hunit, fun hnil => ?_, hdenominators.2.2, h⟩
  have hlength := hdenominators.1
  rw [hnil] at hlength
  cases hlength

/-- The geometry that is emitted for a fit. -/
def geometryOf (settings : ScaleSettings) (window : Window) (paper : PaperSize) (fit : Fit)
    (d : Rat) : PlotGeometry where
  window := window
  rotationDegrees := fit.rotation
  scaleDenominator := d
  derivedScaleDenominator := round6 fit.average
  scaleToleranceRatio := settings.scaleToleranceRatio
  drawingUnitMm := settings.drawingUnitMm
  paperWidthMm := paper.widthMm
  paperHeightMm := paper.heightMm

theorem closerFit_cases (paper : PaperSize) :
    closerFit settings window paper = fitOf settings window 0 paper.widthMm paper.heightMm ∨
      closerFit settings window paper = fitOf settings window 90 paper.heightMm paper.widthMm := by
  unfold closerFit
  dsimp only
  split
  · exact .inr rfl
  · exact .inl rfl

/-- What the planner knows of a geometry that it emits. -/
structure PlotGeometry.Planned (g : PlotGeometry) (scale : Rat) : Prop where
  rotation : g.rotationDegrees = 0 ∨ g.rotationDegrees = 90
  unit : 0 < g.drawingUnitMm
  denominator : 0 < g.scaleDenominator
  tolerance : 0 ≤ g.scaleToleranceRatio ∧ g.scaleToleranceRatio ≤ 1 / 10
  paper : 0 < g.paperWidthMm ∧ 0 < g.paperHeightMm
  window : g.window.minX < g.window.maxX ∧ g.window.minY < g.window.maxY
  derived : g.derivedScaleDenominator = round6 scale

theorem PlotGeometry.Planned.derived_pos {g : PlotGeometry} {scale : Rat} (hg : g.Planned scale)
    (h : |g.scaleDenominator - g.derivedScaleDenominator| ≤
      (g.scaleToleranceRatio + slack) * g.scaleDenominator) : 0 < g.derivedScaleDenominator := by
  have hless : g.scaleToleranceRatio + slack < 1 := by
    have hslack : slack < 1 / 2 := by norm_num [slack]
    have htolerance := hg.tolerance.2
    linarith
  have hbound : (g.scaleToleranceRatio + slack) * g.scaleDenominator < g.scaleDenominator := by
    have hmul := mul_lt_mul_of_pos_right hless hg.denominator
    rwa [one_mul] at hmul
  have hdiff := (le_abs_self (g.scaleDenominator - g.derivedScaleDenominator)).trans h
  linarith

/-- The publisher comes to the fit of the planner, and what is left is the rounded scale. -/
theorem PlotGeometry.Planned.validate_iff {g : PlotGeometry} {scale : Rat}
    (hg : g.Planned scale) {expectedWidth expectedHeight : Rat}
    (hwidth : (if g.rotationDegrees = 0 then g.paperWidthMm else g.paperHeightMm) = expectedWidth)
    (hheight : (if g.rotationDegrees = 0 then g.paperHeightMm else g.paperWidthMm) =
      expectedHeight)
    (haverage : ((g.window.maxX - g.window.minX) * g.drawingUnitMm / expectedWidth +
      (g.window.maxY - g.window.minY) * g.drawingUnitMm / expectedHeight) / 2 = scale)
    (hmismatch : |(g.window.maxX - g.window.minX) * g.drawingUnitMm / expectedWidth -
      (g.window.maxY - g.window.minY) * g.drawingUnitMm / expectedHeight| / scale ≤
        g.scaleToleranceRatio) :
    g.validate = none ↔ |g.scaleDenominator - g.derivedScaleDenominator| ≤
      (g.scaleToleranceRatio + slack) * g.scaleDenominator := by
  have hslack : (0 : Rat) < slack := by norm_num [slack]
  have hexpected : 0 < expectedWidth ∧ 0 < expectedHeight := by
    rw [← hwidth, ← hheight]
    split
    · exact hg.paper
    · exact hg.paper.symm
  have hwidthScale : 0 < (g.window.maxX - g.window.minX) * g.drawingUnitMm / expectedWidth :=
    div_pos (mul_pos (sub_pos.2 hg.window.1) hg.unit) hexpected.1
  have hheightScale : 0 < (g.window.maxY - g.window.minY) * g.drawingUnitMm / expectedHeight :=
    div_pos (mul_pos (sub_pos.2 hg.window.2) hg.unit) hexpected.2
  have hrotation : ¬(g.rotationDegrees ≠ 0 ∧ g.rotationDegrees ≠ 90) := by
    have hcases := hg.rotation
    omega
  unfold PlotGeometry.validate
  rw [if_neg hrotation]
  by_cases hderived : 0 < g.derivedScaleDenominator
  · dsimp only
    rw [hwidth, hheight, haverage, if_neg, if_neg, if_neg, if_neg, if_neg]
    · rw [ite_eq_right_iff]
      simp only [reduceCtorEq, imp_false, not_lt]
      exact div_le_iff₀ hg.denominator
    · have hclose := abs_sub_round6 scale
      have hwithin : (1 : Rat) / 2000000 < roundedScaleTolerance := by
        norm_num [roundedScaleTolerance]
      rw [hg.derived]
      exact not_lt.2 (hclose.trans hwithin.le)
    · exact not_lt.2 (by linarith)
    · exact not_not.2 ⟨hwidthScale, hheightScale⟩
    · exact not_or.2 ⟨not_le.2 hg.window.1, not_le.2 hg.window.2⟩
    · exact not_not.2 ⟨hg.denominator, hderived, hg.unit, hg.paper.1, hg.paper.2, hg.tolerance⟩
  · rw [if_pos (fun hall => hderived hall.2.1)]
    exact iff_of_false (by simp) fun hnear => hderived (hg.derived_pos hnear)

theorem validate_geometryOf (hsettings : Scalable settings) (hx : window.minX < window.maxX)
    (hy : window.minY < window.maxY) {paper : PaperSize} (hw : 0 < paper.widthMm)
    (hh : 0 < paper.heightMm)
    (hmismatch : (closerFit settings window paper).mismatch ≤ settings.scaleToleranceRatio)
    {d : Rat} (hd : 0 < d) :
    (geometryOf settings window paper (closerFit settings window paper) d).validate = none ↔
      |d - round6 (closerFit settings window paper).average| ≤
        (settings.scaleToleranceRatio + slack) * d := by
  rcases closerFit_cases paper with hfit | hfit
  · rw [hfit] at hmismatch ⊢
    have hplanned : (geometryOf settings window paper
        (fitOf settings window 0 paper.widthMm paper.heightMm) d).Planned _ :=
      ⟨.inl rfl, hsettings.unit, hd, hsettings.tolerance, ⟨hw, hh⟩, ⟨hx, hy⟩, rfl⟩
    exact hplanned.validate_iff rfl rfl rfl hmismatch
  · rw [hfit] at hmismatch ⊢
    have hplanned : (geometryOf settings window paper
        (fitOf settings window 90 paper.heightMm paper.widthMm) d).Planned _ :=
      ⟨.inr rfl, hsettings.unit, hd, hsettings.tolerance, ⟨hw, hh⟩, ⟨hx, hy⟩, rfl⟩
    exact hplanned.validate_iff rfl rfl rfl hmismatch

/-- The planner on a paper of two sides. -/
theorem derivePlotGeometry_eq (hsettings : Scalable settings) {script : Script} {label : String}
    {paper : PaperSize} (hpaper : parsePaperSize script label = some paper)
    (hx : window.minX < window.maxX) (hy : window.minY < window.maxY) (hw : 0 < paper.widthMm)
    (hh : 0 < paper.heightMm) :
    derivePlotGeometry script settings window label =
      if settings.scaleToleranceRatio < (closerFit settings window paper).mismatch then .ok none
      else
        (nearest (closerFit settings window paper).average settings.scaleDenominators).bind fun d =>
          (divide |d - (closerFit settings window paper).average| d).bind fun error =>
            if settings.scaleToleranceRatio < error then .ok none
            else .ok (some (geometryOf settings window paper (closerFit settings window paper) d)) := by
  have hpositive : ¬min (window.maxX - window.minX) (window.maxY - window.minY) ≤ 0 :=
    not_le.2 (lt_min (sub_pos.2 hx) (sub_pos.2 hy))
  unfold derivePlotGeometry
  rw [hpaper]
  dsimp only
  rw [if_neg hpositive, fitPaper_eq hsettings.unit hx hy hw hh,
    fitPaper_eq hsettings.unit hx hy hh hw]
  rfl

theorem derivePlotGeometry_zero {script : Script} {label : String} {paper : PaperSize}
    (hpaper : parsePaperSize script label = some paper) (hx : window.minX < window.maxX)
    (hy : window.minY < window.maxY) (hzero : paper.widthMm = 0 ∨ paper.heightMm = 0) :
    derivePlotGeometry script settings window label = .error .zeroDivision := by
  have hpositive : ¬min (window.maxX - window.minX) (window.maxY - window.minY) ≤ 0 :=
    not_le.2 (lt_min (sub_pos.2 hx) (sub_pos.2 hy))
  unfold derivePlotGeometry
  rw [hpaper]
  dsimp only
  rw [if_neg hpositive, fitPaper_zero hzero]
  rfl

theorem derivePlotGeometry_none {script : Script} {label : String}
    (h : parsePaperSize script label = none ∨
      ¬(window.minX < window.maxX ∧ window.minY < window.maxY)) :
    derivePlotGeometry script settings window label = .ok none := by
  unfold derivePlotGeometry
  split
  · rfl
  · next hpaper =>
    have hwindow := h.resolve_left (by simp [hpaper])
    have hmin : min (window.maxX - window.minX) (window.maxY - window.minY) ≤ 0 := by
      rw [min_le_iff]
      rcases not_and_or.1 hwindow with hx | hy
      · exact .inl (sub_nonpos.2 (not_lt.1 hx))
      · exact .inr (sub_nonpos.2 (not_lt.1 hy))
    rw [if_pos hmin]
    rfl

theorem exists_nearest (hsettings : Scalable settings) (scale : Rat) :
    ∃ d, nearest scale settings.scaleDenominators = .ok d ∧ 0 < d := by
  cases hdenominators : settings.scaleDenominators with
  | nil => exact absurd hdenominators hsettings.nonempty
  | cons d ds =>
    have hnearest : nearest scale (d :: ds) = .ok _ := rfl
    have hmem := nearest_mem hnearest
    exact ⟨_, hnearest, hsettings.positive _ (hdenominators ▸ hmem)⟩

/-- Within the scales that the configuration allows, the planner divides by no zero and emits what
the publisher accepts if and only if the label states no empty paper and the rounding of the scale
stays within the tolerance. -/
theorem replays_iff (script : Script) (settings : ScaleSettings) (window : Window)
    (label : String) (hvalid : validateScale settings = .ok ()) :
    Replays settings window script label ↔ Replayable settings window script label := by
  have hsettings := validateScale_ok hvalid
  unfold Replays
  by_cases hnone : parsePaperSize script label = none ∨
      ¬(window.minX < window.maxX ∧ window.minY < window.maxY)
  · refine iff_of_true ⟨none, derivePlotGeometry_none hnone, by simp⟩ fun paper hpaper hx hy => ?_
    rcases hnone with hnone | hwindow
    · rw [hpaper] at hnone
      cases hnone
    · exact absurd ⟨hx, hy⟩ hwindow
  · obtain ⟨hsome, hwindow⟩ := not_or.1 hnone
    obtain ⟨hx, hy⟩ := not_not.1 hwindow
    obtain ⟨paper, hpaper⟩ := Option.ne_none_iff_exists'.1 hsome
    obtain ⟨hw, hh⟩ := parsePaperSize_nonneg hpaper
    by_cases hzero : paper.widthMm = 0 ∨ paper.heightMm = 0
    · rw [derivePlotGeometry_zero hpaper hx hy hzero]
      refine iff_of_false (by simp) fun h => ?_
      obtain ⟨hwidth, hheight, _⟩ := h paper hpaper hx hy
      exact hzero.elim hwidth hheight
    · obtain ⟨hwidth, hheight⟩ := not_or.1 hzero
      have hw := lt_of_le_of_ne hw (Ne.symm hwidth)
      have hh := lt_of_le_of_ne hh (Ne.symm hheight)
      have hreplayable : Replayable settings window script label ↔
          ((closerFit settings window paper).mismatch ≤ settings.scaleToleranceRatio →
            Steady settings (closerFit settings window paper).average) := by
        unfold Replayable
        rw [hpaper]
        simp [hx, hy, hwidth, hheight]
      rw [hreplayable, derivePlotGeometry_eq hsettings hpaper hx hy hw hh]
      by_cases hmismatch : (closerFit settings window paper).mismatch ≤ settings.scaleToleranceRatio
      · obtain ⟨d, hnearest, hd⟩ :=
          exists_nearest hsettings (closerFit settings window paper).average
        have hvalidate := validate_geometryOf hsettings hx hy hw hh hmismatch hd
        have hsteady : Steady settings (closerFit settings window paper).average ↔
            (|d - (closerFit settings window paper).average| ≤ settings.scaleToleranceRatio * d →
              |d - round6 (closerFit settings window paper).average| ≤
                (settings.scaleToleranceRatio + slack) * d) := by
          simp [Steady, hnearest]
        rw [if_neg (not_lt.2 hmismatch), hnearest, hsteady, ← hvalidate,
          ← div_le_iff₀ hd]
        simp only [hmismatch, true_implies, divide, if_neg hd.ne', Except.bind]
        by_cases herror : |d - (closerFit settings window paper).average| / d ≤
            settings.scaleToleranceRatio
        · rw [if_neg (not_lt.2 herror)]
          simp [herror]
        · rw [if_pos (not_le.1 herror)]
          simp [herror]
      · rw [if_pos (not_le.1 hmismatch)]
        exact iff_of_true ⟨none, rfl, by simp⟩ fun h => absurd h hmismatch

end Fitting

section Example

def plainScales : ScaleSettings := ⟨1, [1, 2, 5, 10, 20, 25, 50, 100, 200, 500], 1 / 50⟩

theorem replays_iff_a4 :
    Replays plainScales ⟨0, 0, 29700, 21000⟩ asciiScript "A4" ↔
      Replayable plainScales ⟨0, 0, 29700, 21000⟩ asciiScript "A4" :=
  replays_iff asciiScript plainScales ⟨0, 0, 29700, 21000⟩ "A4" (by decide +kernel)

/-- A label with an empty side, and a scale that is rounded past its tolerance. -/
theorem not_replays :
    (validateScale plainScales = .ok () ∧
      derivePlotGeometry asciiScript plainScales ⟨0, 0, 420, 297⟩ "PAFTA 00x70" =
        .error .zeroDivision) ∧
    ∃ (settings : ScaleSettings) (window : Window) (g : PlotGeometry),
      validateScale settings = .ok () ∧
      derivePlotGeometry asciiScript settings window "500x500" = .ok (some g) ∧
      g.validate = some "plot_scale_mismatch" :=
  ⟨⟨by decide +kernel, by decide +kernel⟩,
    ⟨1, [1], 200007 / 10000000⟩, ⟨0, 0, 51000035 / 100000, 51000035 / 100000⟩,
    ⟨⟨0, 0, 51000035 / 100000, 51000035 / 100000⟩, 0, 1, 1020001 / 1000000, 200007 / 10000000, 1,
      500, 500⟩,
    by decide +kernel, by decide +kernel, by decide +kernel⟩

end Example

end CadPlot.Publish
