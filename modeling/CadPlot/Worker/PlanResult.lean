import CadPlot.Publish.PlotGeometry
import CadPlot.Worker.Display
import Mathlib.Data.Rat.Encodable

/-!
# Publish plans on the wire

`_plan_result` reports every sheet of a plan through the wire models. The planner,
the configuration and the models each have their own formats of identifiers; they
differ in one place, the first character of the id of a profile.
-/

namespace CadPlot.Worker.Results

open Publish Protocol.Wire JsonCodec
open Gateway (SafeCode)
open Text (isSpace)

/-! ### Plans of frames with their numbers -/

/-- A frame as it is inspected. -/
structure SeenFrame where
  handle : String
  layer : String
  label : String
  window : Window
  confidence : Rat

/-- A drawing as the planner gets it. -/
structure Seen where
  path : Path
  layouts : List Publish.LayoutSummary
  pageSetups : List Publish.PageSetupSummary
  frames : List SeenFrame

/-- The settings that the sizes and scales of a plan depend on. -/
structure PlannerSettings where
  scale : ScaleSettings
  minimumFrameConfidence : Rat

/-- Numbers in documents. -/
structure Numerals where
  render : Rat → List Char
  read : List Char → Option Rat
  read_render : ∀ q, read (render q) = some q

section Plans

variable (numerals : Numerals) (script : Script) (settings : PlannerSettings)

/-- The payload that `_derive_plot_geometry` returns. -/
def geometryDoc (g : PlotGeometry) : Doc :=
  let number q := Doc.leaf (numerals.render q)
  .obj [("window", .obj [("min_x", number g.window.minX), ("min_y", number g.window.minY),
      ("max_x", number g.window.maxX), ("max_y", number g.window.maxY)]),
    ("rotation_degrees", .nat g.rotationDegrees),
    ("scale_denominator", number g.scaleDenominator),
    ("derived_scale_denominator", number g.derivedScaleDenominator),
    ("scale_tolerance_ratio", number g.scaleToleranceRatio),
    ("drawing_unit_mm", number g.drawingUnitMm), ("paper_width_mm", number g.paperWidthMm),
    ("paper_height_mm", number g.paperHeightMm)]

def SeenFrame.geometry (f : SeenFrame) : Except ArithmeticError (Option PlotGeometry) :=
  derivePlotGeometry script settings.scale f.window f.label

def SeenFrame.candidate (f : SeenFrame) : FrameCandidate where
  handle := f.handle
  layer := f.layer
  label := f.label
  confident := decide (settings.minimumFrameConfidence ≤ f.confidence)
  geometry :=
    match f.geometry script settings with
    | .ok geometry => geometry.map (geometryDoc numerals)
    | .error _ => none

def Seen.inspection (seen : Seen) : Publish.DrawingInspection where
  path := seen.path
  layouts := seen.layouts
  pageSetups := seen.pageSetups
  frames := seen.frames.map (SeenFrame.candidate numerals script settings)

/-- `create_publish_plan`. A size with a side of zero raises once its scale is derived. -/
def createPlan (tables : Tables) (platform : ConfigPlatform) (config : CadPlotConfig)
    (digest : Path → Option Fingerprint → List Sheet → String) (seen : Seen)
    (fingerprint : Option Fingerprint) (evidence : Evidence) : Except String PublishPlan := do
  let plan ← createPublishPlan tables platform config digest
    (seen.inspection numerals script settings) fingerprint evidence
  ensure ((seen.frames.zip plan.sheets).all fun x =>
    !decide (x.2.status = .unsupportedScale) || (x.1.geometry script settings).toBool)
    "float division by zero"
  pure plan

end Plans

/-! ### Plans as results -/

/-- The statuses as the planner writes them. -/
def statusName : SheetStatus → String
  | .unmatched => "unmatched"
  | .templateAssetMismatch => "template_asset_mismatch"
  | .disallowedFrameLayer => "disallowed_frame_layer"
  | .lowConfidence => "low_confidence"
  | .pageSetupMismatch => "page_setup_mismatch"
  | .templateLayoutMismatch => "template_layout_mismatch"
  | .unsupportedScale => "unsupported_scale"
  | .layoutConflict => "layout_conflict"
  | .matched => "matched"

section Report

variable (letters : Letters) (numerals : Numerals) (lib : ModelLibrary Rat)

/-- `geometry.get("scale_denominator")` -/
def scaleDenominatorOf : Doc → Option Rat
  | .obj fields =>
    match fields.lookup "scale_denominator" with
    | some (.leaf text) => numerals.read text
    | _ => none
  | _ => none

/-- `f"CADPLOT_{index:04d}"` -/
def defaultLayout (index : Nat) : String :=
  String.ofList ("CADPLOT_".toList ++ paddedIndex index)

/-- One turn of the loop of `_plan_result`. -/
def planSummary (index : Nat) (sheet : Sheet) : Except String (PlanSheetSummary Rat) :=
  match (planSheetStatus (φ := Rat)).decode (.str (statusName sheet.status)) with
  | none => .error "validation error"
  | some status => .ok
    { sheetIndex := index
      frameHandle := sheet.frameHandle
      label := safeDisplay letters "redacted_label" (some sheet.label)
      status
      profileId := sheet.profile.map ProfilePayload.id
      targetLayout := safeDisplay letters (defaultLayout index) (some sheet.targetLayout)
      scaleDenominator := sheet.plotGeometry.bind (scaleDenominatorOf numerals) }

theorem planNotice_safe : Gateway.isSafeCode "plan_notice" = true := by decide

/-- `_plan_result`, for a drawing that was resolved and a plan with warnings or without -/
def planResult (drawingId : String) (plan : PublishPlan) (warned : Bool) :
    Except String (PublishPlanResult Rat) :=
  match plan.drawingFingerprint with
  | none => .error "Plan fingerprint is unavailable."
  | some fingerprint => do
    let sheets ← (plan.sheets.zipIdx 1).mapM fun x => planSummary letters numerals x.2 x.1
    let result : PublishPlanResult Rat :=
      { drawingId
        planId := plan.planId
        ready := plan.ready
        drawingSha256 := fingerprint.sha256
        sheets
        noticeCodes := if warned then [⟨"plan_notice", planNotice_safe⟩] else [] }
    ensure ((publishPlanResult lib).valid result) "validation error"
    pure result

end Report

/-! ### What the planner emits -/

section Characters

theorem isLayoutChar_plain {c : Char} (h : isLayoutChar c = true) :
    isControl c = false ∧ isSpace c = false ∧ c ≠ '/' ∧ c ≠ '\\' ∧ c ≠ ':' := by
  have hrange : (65 ≤ c.toNat ∧ c.toNat ≤ 90) ∨ (97 ≤ c.toNat ∧ c.toNat ≤ 122) ∨
      (48 ≤ c.toNat ∧ c.toNat ≤ 57) ∨ c.toNat = 95 ∨ c.toNat = 45 := by
    simp only [isLayoutChar, Bool.or_eq_true, beq_iff_eq] at h
    rcases h with (h | rfl) | rfl
    · rcases Text.isAlphanum_cases h with h | h | h
      · exact .inl h
      · exact .inr (.inl h)
      · exact .inr (.inr (.inl h))
    · exact .inr (.inr (.inr (.inl rfl)))
    · exact .inr (.inr (.inr (.inr rfl)))
  have hne (d : Char) (hd : d.toNat = 47 ∨ d.toNat = 92 ∨ d.toNat = 58) : c ≠ d := by
    rintro rfl
    omega
  refine ⟨?_, ?_, hne _ (.inl rfl), hne _ (.inr (.inl rfl)), hne _ (.inr (.inr rfl))⟩
  · simp only [isControl, Bool.or_eq_false_iff, decide_eq_false_iff_not]
    omega
  · simp only [isSpace, decide_eq_false_iff_not]
    omega

/-- A name of such characters is accepted as it is. -/
theorem isSafeDisplay_of_layoutChars {text : List Char} (h : ∀ c ∈ text, isLayoutChar c = true)
    (hpos : 1 ≤ text.length) (hlen : text.length ≤ 255) :
    Gateway.Ingress.isSafeDisplay (String.ofList text) = true := by
  have hstrip : Text.strip isSpace text = text := by
    rw [Text.strip_eq_self_iff, List.dropWhile_eq_self_iff, List.rdropWhile_eq_self_iff]
    constructor
    · intro hl hspace
      rw [(isLayoutChar_plain (h _ (List.getElem_mem hl))).2.1] at hspace
      cases hspace
    · intro hne hspace
      rw [(isLayoutChar_plain (h _ (List.getLast_mem hne))).2.1] at hspace
      cases hspace
  have hdrive : Gateway.Ingress.hasDrive text = false := by
    unfold Gateway.Ingress.hasDrive
    split
    · next c rest =>
      have hcolon := h ':' (List.mem_cons_of_mem _ List.mem_cons_self)
      exact absurd rfl (isLayoutChar_plain hcolon).2.2.2.2
    · rfl
  simp only [Gateway.Ingress.isSafeDisplay, String.toList_ofList, hpos, hlen, hstrip, hdrive,
    and_self, decide_true, Bool.true_and, Bool.not_false, Bool.and_true, List.all_eq_true]
  intro c hc
  obtain ⟨hcontrol, _, hslash, hback, _⟩ := isLayoutChar_plain (h c hc)
  simp only [isControl] at hcontrol
  simp [hcontrol, hslash, hback]

theorem paddedIndex_layoutChars {index : Nat} (h : index < 10000) :
    ∀ c ∈ paddedIndex index, isLayoutChar c = true := by
  have hdigit : ∀ d < 10, isLayoutChar (Calendar.digitChar d) = true := by decide
  have hall (w n : Nat) : ∀ c ∈ Calendar.digits w n, isLayoutChar c = true := by
    induction w generalizing n with
    | zero => simp [Calendar.digits]
    | succ w ih =>
      intro c hc
      rcases List.mem_append.1 hc with hc | hc
      · exact ih _ c hc
      · exact List.mem_singleton.1 hc ▸ hdigit _ (Nat.mod_lt _ (by decide))
  rw [paddedIndex, if_pos h]
  exact hall 4 index

theorem substituteRuns_layoutChars (inRun : Bool) (text : List Char) :
    ∀ c ∈ substituteRuns inRun text, isLayoutChar c = true := by
  induction text generalizing inRun with
  | nil => simp [substituteRuns]
  | cons d text ih =>
    rw [substituteRuns]
    split
    · next hd => exact List.forall_mem_cons.2 ⟨hd, ih false⟩
    · split
      · exact ih true
      · exact List.forall_mem_cons.2 ⟨by decide, ih true⟩

theorem mem_of_mem_strip {space : Char → Bool} {text : List Char} {c : Char}
    (h : c ∈ Text.strip space text) : c ∈ text :=
  (List.dropWhile_suffix space).subset ((List.rdropWhile_prefix space _).subset h)

theorem targetLayoutName_layoutChars {index : Nat} (hindex : index < 10000) (handle : String)
    {layoutPrefix : String} (hname : isSafeId 32 layoutPrefix = true) :
    ∀ c ∈ (targetLayoutName index handle layoutPrefix).toList, isLayoutChar c = true := by
  intro c hc
  rw [targetLayoutName, String.toList_ofList] at hc
  simp only [isSafeId, Bool.and_eq_true, List.all_eq_true] at hname
  rcases List.mem_append.1 (List.mem_of_mem_take hc) with hc | hc
  · exact hname.2 c hc
  · rcases List.mem_cons.1 hc with rfl | hc
    · decide
    · rcases List.mem_append.1 hc with hc | hc
      · exact paddedIndex_layoutChars hindex c hc
      · rcases List.mem_cons.1 hc with rfl | hc
        · decide
        · have hfallback : ∀ d ∈ "NOHANDLE".toList, isLayoutChar d = true :=
            List.all_eq_true.1 (by decide)
          generalize (if handle = "" then "NOHANDLE" else handle) = used at hc
          split at hc
          · exact hfallback c hc
          · exact substituteRuns_layoutChars _ _ c (mem_of_mem_strip hc)

theorem presentable_of_controlFree {letters : Letters} {value : String}
    (h : ∀ c ∈ value.toList, isControl c = false) : Presentable letters value := by
  refine .inr fun c hc hcontrol => ?_
  rw [h c hc] at hcontrol
  cases hcontrol

theorem defaultLayout_accepted {index : Nat} (h : index < 10000) :
    Gateway.Ingress.isSafeDisplay (defaultLayout index) = true := by
  have hlen : (paddedIndex index).length = 4 := by
    rw [paddedIndex, if_pos h]
    rfl
  refine isSafeDisplay_of_layoutChars (fun c hc => ?_) (by simp) (by simp [hlen])
  have hname : ∀ d ∈ "CADPLOT_".toList, isLayoutChar d = true := List.all_eq_true.1 (by decide)
  rcases List.mem_append.1 hc with hc | hc
  · exact hname c hc
  · exact paddedIndex_layoutChars h c hc

end Characters

section Sheets

variable {tables : Tables} {platform : ConfigPlatform} {config : CadPlotConfig}
  {numerals : Numerals} {script : Script} {settings : PlannerSettings} {label : String}

theorem matchPaperProfile_mem {p : PaperProfile}
    (h : matchPaperProfile tables platform config label = .ok (some p)) :
    p ∈ config.paperProfiles := by
  simp only [matchPaperProfile] at h
  split at h
  · cases h
  · next q hq =>
    obtain rfl := Option.some.inj (Except.ok.inj h)
    exact (List.mem_filter.1 (hq ▸ List.mem_singleton_self q)).1
  · split at h
    · cases h
    · next q hq =>
      obtain rfl := Option.some.inj (Except.ok.inj h)
      exact (List.mem_filter.1 (hq ▸ List.mem_singleton_self q)).1
    · cases h

/-- What a sheet has of its frame, of the profile its label selects and of its place. -/
structure SheetOf (tables : Tables) (platform : ConfigPlatform) (config : CadPlotConfig)
    (index : Nat) (frame : FrameCandidate) (sheet : Sheet) : Prop where
  handle : sheet.frameHandle = frame.handle
  label : sheet.label = frame.label
  layout : sheet.targetLayout = targetLayoutName index frame.handle config.layoutPrefix
  profile : ∃ matched, matchPaperProfile tables platform config frame.label = .ok matched ∧
    sheet.profile.map ProfilePayload.id = matched.map PaperProfile.id
  geometry : sheet.plotGeometry = none ∨ sheet.plotGeometry = frame.geometry

theorem planSheet_of {inspection : Publish.DrawingInspection} {evidence : Evidence} {index : Nat}
    {frame : FrameCandidate} {sheet : Sheet}
    (h : planSheet tables platform config inspection evidence index frame = .ok sheet) :
    SheetOf tables platform config index frame sheet := by
  obtain ⟨matched, hmatched, h⟩ := bind_eq_ok.1 h
  cases matched with
  | none =>
    obtain rfl := pure_eq_ok.1 h
    exact ⟨rfl, rfl, rfl, ⟨none, hmatched, rfl⟩, .inl rfl⟩
  | some p =>
    dsimp only at h
    generalize (if p.templateDrawing = none then none else evidence.get p.id) = external at h
    have hsheet (status : SheetStatus) (geometry : Option Doc)
        (hgeometry : geometry = none ∨ geometry = frame.geometry) :
        SheetOf tables platform config index frame
          { frameHandle := frame.handle, label := frame.label, status
            profile := some (profilePayload p external)
            targetLayout := targetLayoutName index frame.handle config.layoutPrefix
            plotGeometry := geometry } :=
      ⟨rfl, rfl, rfl, ⟨some p, hmatched, rfl⟩, hgeometry⟩
    split at h
    · exact pure_eq_ok.1 h ▸ hsheet _ _ (.inl rfl)
    · split at h
      · exact pure_eq_ok.1 h ▸ hsheet _ _ (.inl rfl)
      · split at h
        · exact pure_eq_ok.1 h ▸ hsheet _ _ (.inl rfl)
        · split at h
          · exact pure_eq_ok.1 h ▸ hsheet _ _ (.inl rfl)
          · split at h
            · exact pure_eq_ok.1 h ▸ hsheet _ _ (.inl rfl)
            · split at h
              · exact pure_eq_ok.1 h ▸ hsheet _ _ (.inl rfl)
              · next geometry hgeometry =>
                split at h
                · exact pure_eq_ok.1 h ▸ hsheet _ _ (.inr hgeometry.symm)
                · exact pure_eq_ok.1 h ▸ hsheet _ _ (.inr hgeometry.symm)

/-- The scale of a derived geometry is one of the configuration. -/
theorem scaleDenominator_mem {window : Window} {g : PlotGeometry}
    (h : derivePlotGeometry script settings.scale window label = .ok (some g)) :
    g.scaleDenominator ∈ settings.scale.scaleDenominators := by
  unfold derivePlotGeometry at h
  split at h
  · cases h
  · split at h
    · cases h
    · obtain ⟨upright, _, h⟩ := bind_eq_ok.1 h
      obtain ⟨turned, _, h⟩ := bind_eq_ok.1 h
      generalize (if turned.before upright then turned else upright) = best at h
      dsimp only at h
      split at h
      · cases h
      · obtain ⟨denominator, hnearest, h⟩ := bind_eq_ok.1 h
        obtain ⟨error, _, h⟩ := bind_eq_ok.1 h
        split at h
        · cases h
        · obtain rfl := Option.some.inj (pure_eq_ok.1 h)
          exact nearest_mem hnearest

theorem scaleDenominatorOf_geometryDoc (g : PlotGeometry) :
    scaleDenominatorOf numerals (geometryDoc numerals g) = some g.scaleDenominator := by
  simp [scaleDenominatorOf, geometryDoc, List.lookup_cons, numerals.read_render]

theorem candidate_scale {f : SeenFrame} {doc : Doc} {scale : Rat}
    (hdoc : (f.candidate numerals script settings).geometry = some doc)
    (hscale : scaleDenominatorOf numerals doc = some scale) :
    scale ∈ settings.scale.scaleDenominators := by
  simp only [SeenFrame.candidate, SeenFrame.geometry] at hdoc
  split at hdoc
  · next geometry hgeometry =>
    obtain ⟨g, rfl, rfl⟩ := Option.map_eq_some_iff.1 hdoc
    rw [scaleDenominatorOf_geometryDoc] at hscale
    exact Option.some.inj hscale ▸ scaleDenominator_mem hgeometry
  · cases hdoc

end Sheets

/-! ### The sheets on the wire -/

section Wire

variable {letters : Letters} {numerals : Numerals} {lib : ModelLibrary Rat}

def wireStatus : SheetStatus → PlanSheetStatus
  | .unmatched => .unmatched
  | .templateAssetMismatch => .templateAssetMismatch
  | .disallowedFrameLayer => .disallowedFrameLayer
  | .lowConfidence => .lowConfidence
  | .pageSetupMismatch => .pageSetupMismatch
  | .templateLayoutMismatch => .templateLayoutMismatch
  | .unsupportedScale => .unsupportedScale
  | .layoutConflict => .layoutConflict
  | .matched => .matched

/-- The model knows every status of the planner. -/
theorem decode_statusName (status : SheetStatus) :
    (planSheetStatus (φ := Rat)).decode (.str (statusName status)) = some (wireStatus status) := by
  cases status <;> rfl

def summaryOf (letters : Letters) (numerals : Numerals) (index : Nat) (sheet : Sheet) :
    PlanSheetSummary Rat where
  sheetIndex := index
  frameHandle := sheet.frameHandle
  label := safeDisplay letters "redacted_label" (some sheet.label)
  status := wireStatus sheet.status
  profileId := sheet.profile.map ProfilePayload.id
  targetLayout := safeDisplay letters (defaultLayout index) (some sheet.targetLayout)
  scaleDenominator := sheet.plotGeometry.bind (scaleDenominatorOf numerals)

theorem planSummary_eq (index : Nat) (sheet : Sheet) :
    planSummary letters numerals index sheet = .ok (summaryOf letters numerals index sheet) := by
  simp only [planSummary, decode_statusName]
  rfl

theorem planSheetSummary_valid (s : PlanSheetSummary Rat) : (planSheetSummary lib).valid s =
    (decide (1 ≤ s.sheetIndex ∧ s.sheetIndex ≤ 5000) && (isFrameHandle s.frameHandle &&
      (Gateway.Ingress.isSafeDisplay s.label && (true && (s.profileId.all isSafeAlias &&
        (Gateway.Ingress.isSafeDisplay s.targetLayout &&
          (s.scaleDenominator.all lib.positive && true))))))) := by
  rfl

theorem publishPlanResult_valid (r : PublishPlanResult Rat) : (publishPlanResult lib).valid r =
    (Protocol.isWireId "drw" r.drawingId && (Protocol.isHashId r.planId && (true &&
      (isSha256 r.drawingSha256 &&
        ((decide (0 ≤ r.sheets.length ∧ r.sheets.length ≤ 5000) &&
            r.sheets.all (planSheetSummary lib).valid) &&
          ((noticeCodes (φ := Rat)).valid r.noticeCodes && true)))))) := by
  rfl

/-- An id of a profile is an alias of the wire when it begins with a letter or a digit. -/
theorem isSafeAlias_iff {id : String} (h : isSafeId 64 id = true) :
    isSafeAlias id = true ↔ id.toList.head?.any Char.isAlphanum = true := by
  simp only [isSafeId, Bool.and_eq_true, decide_eq_true_eq] at h
  obtain ⟨⟨_, hlen⟩, hall⟩ := h
  unfold isSafeAlias
  split
  · next hnil => simp [hnil]
  · next c cs hcons =>
    rw [hcons] at hlen hall ⊢
    have hshort : cs.length ≤ 63 := Nat.le_of_succ_le_succ hlen
    have htail : (cs.all fun d => d.isAlphanum || d = '_' || d = '-') = true := by
      rw [List.all_eq_true] at hall ⊢
      intro d hd
      simpa using hall d (List.mem_cons_of_mem _ hd)
    simp [hshort, htail]

/-- A sheet of a frame of the planner, with all but the id of its profile as the wire has it. -/
structure Reportable (lib : ModelLibrary Rat) (numerals : Numerals) (index : Nat) (sheet : Sheet) :
    Prop where
  first : 1 ≤ index
  last : index ≤ 5000
  handle : isFrameHandle sheet.frameHandle = true
  label : ∀ c ∈ sheet.label.toList, isControl c = false
  layout : ∀ c ∈ sheet.targetLayout.toList, isLayoutChar c = true
  scale : ∀ doc q, sheet.plotGeometry = some doc → scaleDenominatorOf numerals doc = some q →
    lib.positive q = true

theorem summaryOf_valid_iff {index : Nat} {sheet : Sheet}
    (h : Reportable lib numerals index sheet) :
    (planSheetSummary lib).valid (summaryOf letters numerals index sheet) = true ↔
      (sheet.profile.map ProfilePayload.id).all isSafeAlias = true := by
  have hindex : index < 10000 := by
    have hlast := h.last
    omega
  have hlabel := (@safeDisplay_accepted_iff letters _ _ redactedLabel_accepted).2
    (presentable_of_controlFree h.label)
  have hlayout := (@safeDisplay_accepted_iff letters _ _ (defaultLayout_accepted hindex)).2
    (presentable_of_controlFree fun c hc => (isLayoutChar_plain (h.layout c hc)).1)
  have hscale :
      (sheet.plotGeometry.bind (scaleDenominatorOf numerals)).all lib.positive = true := by
    rw [Option.all_eq_true]
    intro q hq
    obtain ⟨doc, hdoc, hread⟩ := Option.bind_eq_some_iff.1 hq
    exact h.scale doc q hdoc hread
  simp only [planSheetSummary_valid, summaryOf, h.first, h.last, h.handle, hlabel, hlayout, hscale,
    and_self, decide_true, Bool.true_and, Bool.and_true]

end Wire

section Reported

variable {tables : Tables} {platform : ConfigPlatform} {config : CadPlotConfig}
  {letters : Letters} {numerals : Numerals} {lib : ModelLibrary Rat}

theorem forall₂_zipIdx {α β : Type} {R : α × Nat → β → Prop} {xs : List α} {ys : List β} {n : Nat}
    (h : List.Forall₂ R (xs.zipIdx n) ys) :
    (∀ y i, (y, i) ∈ ys.zipIdx n → ∃ x, (x, i) ∈ xs.zipIdx n ∧ R (x, i) y) ∧
      ∀ x i, (x, i) ∈ xs.zipIdx n → ∃ y, (y, i) ∈ ys.zipIdx n ∧ R (x, i) y := by
  induction xs generalizing n ys with
  | nil =>
    cases h
    simp
  | cons x xs ih =>
    rw [List.zipIdx_cons] at h
    cases h with
    | cons hx hrest =>
      rename_i y ys
      obtain ⟨hback, hforth⟩ := ih hrest
      rw [List.zipIdx_cons, List.zipIdx_cons]
      constructor
      · intro z i hz
        rcases List.mem_cons.1 hz with heq | hz
        · obtain ⟨rfl, rfl⟩ := Prod.mk.inj heq
          exact ⟨x, List.mem_cons_self, hx⟩
        · obtain ⟨w, hw, hr⟩ := hback z i hz
          exact ⟨w, List.mem_cons_of_mem _ hw, hr⟩
      · intro z i hz
        rcases List.mem_cons.1 hz with heq | hz
        · obtain ⟨rfl, rfl⟩ := Prod.mk.inj heq
          exact ⟨y, List.mem_cons_self, hx⟩
        · obtain ⟨w, hw, hr⟩ := hforth z i hz
          exact ⟨w, List.mem_cons_of_mem _ hw, hr⟩

theorem planSummaries_eq (xs : List (Sheet × Nat)) :
    (xs.mapM fun x => planSummary letters numerals x.2 x.1) =
      .ok (xs.map fun x => summaryOf letters numerals x.2 x.1) := by
  rw [mapM_eq_ok, List.forall₂_map_right_iff, List.forall₂_same]
  exact fun x _ => planSummary_eq x.2 x.1

/-- The result of a plan whose sheets are reportable is made when the ids of their profiles are
aliases of the wire. -/
theorem planResult_ok_iff {drawingId : String} {plan : PublishPlan} {warned : Bool}
    {fingerprint : Fingerprint} (hdrawing : Protocol.isWireId "drw" drawingId = true)
    (hplan : Protocol.isHashId plan.planId = true)
    (hfingerprint : plan.drawingFingerprint = some fingerprint)
    (hsha : isSha256 fingerprint.sha256 = true) (hcount : plan.sheets.length ≤ 5000)
    (hsheets : ∀ sheet i, (sheet, i) ∈ plan.sheets.zipIdx 1 → Reportable lib numerals i sheet) :
    (∃ result, planResult letters numerals lib drawingId plan warned = .ok result) ↔
      ∀ sheet i, (sheet, i) ∈ plan.sheets.zipIdx 1 →
        (sheet.profile.map ProfilePayload.id).all isSafeAlias = true := by
  have hnotice : (noticeCodes (φ := Rat)).valid
      (if warned then [⟨"plan_notice", planNotice_safe⟩] else []) = true := by
    cases warned <;> rfl
  have hall : (((plan.sheets.zipIdx 1).map fun x => summaryOf letters numerals x.2 x.1).all
      (planSheetSummary lib).valid = true) ↔ ∀ sheet i, (sheet, i) ∈ plan.sheets.zipIdx 1 →
        (sheet.profile.map ProfilePayload.id).all isSafeAlias = true := by
    rw [List.all_map, List.all_eq_true, Prod.forall]
    exact forall_congr' fun sheet => forall_congr' fun i => imp_congr_right fun hmem =>
      summaryOf_valid_iff (hsheets sheet i hmem)
  simp only [planResult, hfingerprint, planSummaries_eq]
  rw [← hall]
  change (∃ result, (ensure _ _ >>= fun _ => pure _) = Except.ok result) ↔ _
  simp only [ensure_bind_eq_ok, pure_eq_ok, exists_and_left, exists_eq', and_true,
    publishPlanResult_valid, hdrawing, hplan, hsha, hnotice, List.length_map, List.length_zipIdx,
    hcount, Nat.zero_le, and_self, decide_true, Bool.true_and, Bool.and_true]

end Reported

section Planned

variable {tables : Tables} {platform : ConfigPlatform} {config : CadPlotConfig} {raw : RawConfig}
  {letters : Letters} {numerals : Numerals} {lib : ModelLibrary Rat} {script : Script}
  {settings : PlannerSettings} {seen : Seen} {fingerprint : Fingerprint} {evidence : Evidence}
  {digest : Path → Option Fingerprint → List Sheet → String} {plan : PublishPlan}

/-- An inspection with few enough frames, hexadecimal handles and labels without control
characters. -/
structure Inspected (seen : Seen) : Prop where
  count : seen.frames.length ≤ 5000
  handles : ∀ f ∈ seen.frames, isFrameHandle f.handle = true
  labels : ∀ f ∈ seen.frames, ∀ c ∈ f.label.toList, isControl c = false

theorem mem_candidates {frame : FrameCandidate} {i : Nat}
    (h : (frame, i) ∈ (seen.inspection numerals script settings).frames.zipIdx 1) :
    1 ≤ i ∧ i ≤ seen.frames.length ∧
      ∃ f ∈ seen.frames, frame = f.candidate numerals script settings := by
  obtain ⟨hfirst, hlast, heq⟩ := List.mem_zipIdx h
  have hmem : frame ∈ seen.frames.map (SeenFrame.candidate numerals script settings) :=
    heq ▸ List.getElem_mem _
  obtain ⟨f, hf, rfl⟩ := List.mem_map.1 hmem
  rw [Seen.inspection, List.length_map] at hlast
  exact ⟨hfirst, by omega, f, hf, rfl⟩

theorem createPlan_sheets
    (h : createPlan numerals script settings tables platform config digest seen (some fingerprint)
      evidence = .ok plan) :
    plan.drawingFingerprint = some fingerprint ∧
      (∃ path fp sheets, plan.planId = digest path fp sheets) ∧
      plan.sheets.length = seen.frames.length ∧
      List.Forall₂ (fun x sheet => SheetOf tables platform config x.2 x.1 sheet)
        ((seen.inspection numerals script settings).frames.zipIdx 1) plan.sheets := by
  obtain ⟨made, hmade, h⟩ := bind_eq_ok.1 h
  obtain ⟨_, h⟩ := ensure_bind_eq_ok.1 h
  obtain rfl := pure_eq_ok.1 h
  obtain ⟨sheets, hsheets, h⟩ := bind_eq_ok.1 hmade
  obtain rfl := pure_eq_ok.1 h
  have hof := (mapM_eq_ok.1 hsheets).imp fun _ _ hx => planSheet_of hx
  refine ⟨rfl, ⟨_, _, _, rfl⟩, ?_, hof⟩
  have hlen := hof.length_eq
  rw [List.length_zipIdx, Seen.inspection, List.length_map] at hlen
  exact hlen.symm

theorem SheetOf.reportable (hconfig : ConfigOk config) (hscale : Scalable settings.scale)
    (hpositive : ∀ q, 0 < q → lib.positive q = true) (hseen : Inspected seen) {i : Nat}
    {frame : FrameCandidate} {sheet : Sheet}
    (hframe : (frame, i) ∈ (seen.inspection numerals script settings).frames.zipIdx 1)
    (h : SheetOf tables platform config i frame sheet) : Reportable lib numerals i sheet := by
  obtain ⟨hfirst, hlast, f, hf, rfl⟩ := mem_candidates hframe
  have hcount := hseen.count
  refine ⟨hfirst, by omega, ?_, ?_, ?_, ?_⟩
  · rw [h.handle]
    exact hseen.handles f hf
  · rw [h.label]
    exact hseen.labels f hf
  · rw [h.layout]
    exact targetLayoutName_layoutChars (by omega) _ hconfig.layoutPrefix
  · intro doc q hdoc hread
    have hgeometry := h.geometry.resolve_left (by simp [hdoc])
    exact hpositive q (hscale.positive q (candidate_scale (hgeometry ▸ hdoc) hread))

/-- A plan of a loaded configuration is reported exactly if every profile that a label selects has
an id that begins with a letter or a digit. -/
theorem plans_reported_iff (hload : loadConfig tables platform raw = .ok config)
    (hscale : validateScale settings.scale = .ok ())
    (hpositive : ∀ q, 0 < q → lib.positive q = true)
    (hdigest : ∀ path fp sheets, Protocol.isHashId (digest path fp sheets) = true)
    {drawingId : String} (hdrawing : Protocol.isWireId "drw" drawingId = true)
    (hsha : isSha256 fingerprint.sha256 = true) (hseen : Inspected seen)
    (hplan : createPlan numerals script settings tables platform config digest seen
      (some fingerprint) evidence = .ok plan) (warned : Bool) :
    (∃ result, planResult letters numerals lib drawingId plan warned = .ok result) ↔
      ∀ f ∈ seen.frames, ∀ p, matchPaperProfile tables platform config f.label = .ok (some p) →
        p.id.toList.head?.any Char.isAlphanum = true := by
  have hconfig := loadConfig_ok hload
  obtain ⟨hfingerprint, ⟨_, _, _, hid⟩, hlen, hof⟩ := createPlan_sheets hplan
  obtain ⟨hback, hforth⟩ := forall₂_zipIdx hof
  have hcount := hseen.count
  rw [planResult_ok_iff hdrawing (hid ▸ hdigest _ _ _) hfingerprint hsha (by omega)
    fun sheet i hsheet => by
      obtain ⟨frame, hframe, hsheetOf⟩ := hback sheet i hsheet
      exact hsheetOf.reportable hconfig (validateScale_ok hscale) hpositive hseen hframe]
  have halias {p : PaperProfile} {label : String}
      (hmatch : matchPaperProfile tables platform config label = .ok (some p)) :
      isSafeAlias p.id = true ↔ p.id.toList.head?.any Char.isAlphanum = true :=
    isSafeAlias_iff (hconfig.profiles p (matchPaperProfile_mem hmatch)).id
  constructor
  · intro h f hf p hmatch
    obtain ⟨i, hi, hget⟩ := List.getElem_of_mem hf
    have hframe : (f.candidate numerals script settings, i + 1) ∈
        (seen.inspection numerals script settings).frames.zipIdx 1 := by
      rw [List.mk_mem_zipIdx_iff_le_and_getElem?_sub]
      simp [Seen.inspection, List.getElem?_eq_getElem hi, hget]
    obtain ⟨sheet, hsheet, hsheetOf⟩ := hforth _ _ hframe
    obtain ⟨matched, hmatched, hprofile⟩ := hsheetOf.profile
    obtain rfl := Except.ok.inj (hmatched.symm.trans hmatch)
    have hsafe := h sheet _ hsheet
    rw [hprofile] at hsafe
    exact (halias hmatch).1 hsafe
  · intro h sheet i hsheet
    obtain ⟨frame, hframe, hsheetOf⟩ := hback sheet i hsheet
    obtain ⟨_, _, f, hf, rfl⟩ := mem_candidates hframe
    obtain ⟨matched, hmatched, hprofile⟩ := hsheetOf.profile
    rw [hprofile]
    cases matched with
    | none => rfl
    | some p => exact (halias hmatched).2 (h f hf p hmatched)

end Planned

section Example

noncomputable def tally : Numerals where
  render q := List.replicate (Encodable.encode q) '0'
  read text := Encodable.decode text.length
  read_render q := by simp

def rawProfile (id : String) : RawProfile where
  id := id
  labels := ["A4"]
  pageSetup := "A4"
  plotter := "DWG To PDF.pc3"
  plotStyle := "monochrome.ctb"
  canonicalMedia := none
  templateLayout := none
  templateDrawing := none
  templateSha256 := none
  toleranceMm := some 3

def rawConfig (id : String) : RawConfig where
  templateRoots := false
  workspaceRoot := none
  requirePageSetupMatch := true
  layoutPrefix := "CADPLOT"
  frameLayers := []
  paperProfiles := [rawProfile id]

def oneFrame : Seen where
  path := ["C:", "a.dwg"]
  layouts := []
  pageSetups := []
  frames := [⟨"1F", "0", "A4", ⟨0, 0, 210, 297⟩, 1⟩]

def usualSettings : PlannerSettings where
  scale := ⟨1, [1, 2, 5], 1 / 50⟩
  minimumFrameConfidence := 0

/-- The id of the one plan that is made, for a profile. -/
def planIdOf (id : String) : String :=
  if id = "a4" then "sha256:aed56596b23e7610d162ad9ba0ae215a226f64fe8e37f5cf0d454e455e93489e"
  else "sha256:e9a7f3e8fff9a69c9d69f3512951d83e46bb2c627455486c120082bae58b1ff3"

def planDigest (id : String) (_ : Path) (_ : Option Fingerprint) (_ : List Sheet) : String :=
  planIdOf id

def loadedConfig (id : String) : CadPlotConfig where
  templateRoots := false
  workspaceRoot := none
  requirePageSetupMatch := true
  layoutPrefix := "CADPLOT"
  frameLayers := []
  paperProfiles := [
    { id, labels := ["A4"], pageSetup := "A4", plotter := "DWG To PDF.pc3"
      plotStyle := "monochrome.ctb", canonicalMedia := none, templateLayout := none
      templateDrawing := none, templateSha256 := none, toleranceMm := some 3 }]

/-- The fingerprint of a file with the text `0`. -/
def oneFingerprint : Fingerprint :=
  ⟨"5feceb66ffc86f38d952786c6d696c79c2dbc239dd4e91b46729d73a27fb57e9", 1, 0⟩

/-- The drawing has no page setups, so its sheet is not matched. -/
def mismatchPlan (id : String) : PublishPlan where
  planId := planIdOf id
  ready := false
  drawing := ["C:", "a.dwg"]
  drawingFingerprint := some oneFingerprint
  sheets := [
    { frameHandle := "1F", label := "A4", status := .pageSetupMismatch
      profile := some
        { id, pageSetup := "A4", plotter := "DWG To PDF.pc3", plotStyle := "monochrome.ctb"
          canonicalMedia := none, templateLayout := none, templateAsset := none }
      targetLayout := "CADPLOT_0001_1F", plotGeometry := none }]

def drawing : String := "drw_00000000-0000-4000-8000-000000000001"

theorem oneFrame_inspected : Inspected oneFrame where
  count := by decide
  handles := List.forall_mem_singleton.2 (by decide)
  labels := List.forall_mem_singleton.2 fun c hc =>
    Bool.eq_false_of_not_eq_true' (List.all_eq_true.1 (by decide :
      "A4".toList.all (fun c => !isControl c) = true) c hc)

theorem planDigest_isHashId (id : String) (path : Path) (fp : Option Fingerprint)
    (sheets : List Sheet) : Protocol.isHashId (planDigest id path fp sheets) = true := by
  rw [planDigest, planIdOf]
  split
  · decide +kernel
  · decide +kernel

theorem plans_reported_iff_a4 :
    (∃ result, planResult asciiLetters tally ResultOutbox.exactLibrary drawing (mismatchPlan "a4")
        true = .ok result) ↔
      ∀ f ∈ oneFrame.frames, ∀ p,
        matchPaperProfile asciiTables (barePlatform.withSizes asciiScript) (loadedConfig "a4")
          f.label = .ok (some p) →
        p.id.toList.head?.any Char.isAlphanum = true :=
  plans_reported_iff
    (by rfl : loadConfig asciiTables (barePlatform.withSizes asciiScript) (rawConfig "a4") =
      .ok (loadedConfig "a4"))
    (by decide +kernel) (fun _ h => decide_eq_true h)
    (planDigest_isHashId "a4") (by decide +kernel) (by decide +kernel) oneFrame_inspected
    (by rfl : createPlan tally asciiScript usualSettings asciiTables
      (barePlatform.withSizes asciiScript) (loadedConfig "a4") (planDigest "a4") oneFrame
      (some oneFingerprint) .empty = .ok (mismatchPlan "a4")) true

/-- A configuration may name a profile with an underscore first, which the wire refuses. -/
theorem plan_underscore :
    Inspected oneFrame ∧
      loadConfig asciiTables (barePlatform.withSizes asciiScript) (rawConfig "_a4") =
          .ok (loadedConfig "_a4") ∧
      createPlan tally asciiScript usualSettings asciiTables (barePlatform.withSizes asciiScript)
        (loadedConfig "_a4") (planDigest "_a4") oneFrame (some oneFingerprint) .empty =
          .ok (mismatchPlan "_a4") ∧
      planResult asciiLetters tally ResultOutbox.exactLibrary drawing (mismatchPlan "_a4") true =
        .error "validation error" :=
  ⟨oneFrame_inspected, by rfl, by rfl, by rfl⟩

end Example

end CadPlot.Worker.Results
