import CadPlot.Lib.Outcome
import CadPlot.Lib.Words
import CadPlot.Worker.ResultOutbox

/-!
# Names in an inspection result

The worker cleans each name of a drawing before it reports it, and the wire model
checks it again. A cleaned name is trimmed, short and free of separators, but the
only control character that the cleaning looks for is NUL.
-/

namespace CadPlot.Worker.Results

open Protocol.Wire
open Text (isSpace words joinWords)
open Gateway (SafeCode)

/-- `str.isalpha`, which holds of the letters of ASCII. -/
structure Letters where
  isalpha : Char → Bool
  of_ascii : ∀ c : Char, c.isAlpha = true → isalpha c = true

section Clean

variable (letters : Letters)

/-- `" ".join(value.split())` -/
def cleaned (value : String) : List Char := joinWords (words isSpace value.toList)

/-- `len(cleaned) >= 2 and cleaned[0].isalpha() and cleaned[1] == ":"` -/
def startsWithDrive : List Char → Bool
  | c :: ':' :: _ => letters.isalpha c
  | _ => false

/-- What is not reported as it is. -/
def isReplaced (text : List Char) : Bool :=
  text.isEmpty || decide (255 < text.length) || text.contains '/' || text.contains '\\' ||
    text.contains '\x00' || startsWithDrive letters text

/-- `_safe_display`, of `none` for a value that is not a string -/
def safeDisplay (fallback : String) : Option String → String
  | none => fallback
  | some value =>
    if isReplaced letters (cleaned value) then fallback else String.ofList (cleaned value)

/-- `_optional_display` -/
def optionalDisplay : Option String → Option String
  | none => none
  | some value =>
    let display := safeDisplay letters "" (some value)
    if display = "" then none else some display

end Clean

section Inspection

variable {φ : Type} (letters : Letters) (lib : ModelLibrary φ)

/-- What the backend reports of a drawing. -/
structure DrawingInspection (φ : Type) where
  layouts : List LayoutSummary
  pageSetups : List LayoutSummary
  frames : List (FrameSummary φ)
  warnings : List String

/-- A layout, or a page setup, with its names cleaned. -/
def reported (fallback : String) (l : LayoutSummary) : LayoutSummary where
  name := safeDisplay letters fallback (some l.name)
  modelType := l.modelType
  plotter := optionalDisplay letters l.plotter
  mediaName := optionalDisplay letters l.mediaName
  plotStyle := optionalDisplay letters l.plotStyle

def reportedFrame (f : FrameSummary φ) : FrameSummary φ :=
  { f with
    layer := safeDisplay letters "redacted_layer" (some f.layer)
    label := safeDisplay letters "redacted_label" (some f.label) }

theorem inspectionNotice_safe : Gateway.isSafeCode "inspection_notice" = true := by decide

/-- `_inspection_result`, for a drawing that was resolved -/
def inspectionResult (drawingId : String) (inspection : DrawingInspection φ) :
    Except String (InspectionResult φ) := do
  let result : InspectionResult φ :=
    { drawingId
      layouts := inspection.layouts.map (reported letters "redacted_layout")
      pageSetups := inspection.pageSetups.map (reported letters "redacted_setup")
      frames := inspection.frames.map (reportedFrame letters)
      noticeCodes :=
        if inspection.warnings = [] then [] else [⟨"inspection_notice", inspectionNotice_safe⟩] }
  ensure ((Protocol.Wire.inspectionResult lib).valid result) "validation error"
  pure result

/-- What the models check besides names. -/
structure Regular (drawingId : String) (inspection : DrawingInspection φ) : Prop where
  drawingId : Protocol.isWireId "drw" drawingId = true
  layouts : inspection.layouts.length ≤ 5000
  pageSetups : inspection.pageSetups.length ≤ 1000
  frames : inspection.frames.length ≤ 5000
  handles : ∀ f ∈ inspection.frames, isFrameHandle f.handle = true
  confidences : ∀ f ∈ inspection.frames, lib.unitInterval f.confidence = true

/-- The names of a layout, or of a page setup. -/
def namesOf (l : LayoutSummary) : List String :=
  l.name :: (l.plotter.toList ++ l.mediaName.toList ++ l.plotStyle.toList)

def DrawingInspection.names (inspection : DrawingInspection φ) : List String :=
  inspection.layouts.flatMap namesOf ++ inspection.pageSetups.flatMap namesOf ++
    inspection.frames.flatMap fun f => [f.layer, f.label]

end Inspection

/-! ### The two checks compared -/

section Names

variable {letters : Letters} {value fallback : String}

def isControl (c : Char) : Bool := c.toNat < 32 || c.toNat = 127

/-- The value has no control character but white space, or it is replaced anyway. -/
def Presentable (letters : Letters) (value : String) : Prop :=
  isReplaced letters (cleaned value) = true ∨
    ∀ c ∈ value.toList, isControl c = true → isSpace c = true

theorem hasDrive_startsWithDrive {text : List Char} (h : startsWithDrive letters text = false) :
    Gateway.Ingress.hasDrive text = false := by
  unfold startsWithDrive at h
  unfold Gateway.Ingress.hasDrive
  split
  · next c rest =>
    rw [Bool.eq_false_iff]
    intro halpha
    have hletter : letters.isalpha c = false := h
    rw [letters.of_ascii c halpha] at hletter
    cases hletter
  · rfl

/-- A cleaned value has the characters of the value that are no spaces, and spaces. -/
theorem mem_cleaned {c : Char} (hc : isControl c = true) :
    c ∈ cleaned value ↔ c ∈ value.toList ∧ isSpace c = false := by
  rw [← Text.mem_words]
  constructor
  · intro h
    refine (Text.mem_joinWords h).resolve_left ?_
    rintro rfl
    cases hc
  · rintro ⟨w, hw, hmem⟩
    exact Text.mem_joinWords_of_mem hw hmem

/-- A name that is not replaced passes the check of the wire but for control characters. -/
theorem isSafeDisplay_cleaned (h : isReplaced letters (cleaned value) = false) :
    Gateway.Ingress.isSafeDisplay (String.ofList (cleaned value)) = true ↔
      ∀ c ∈ value.toList, isControl c = true → isSpace c = true := by
  simp only [isReplaced, Bool.or_eq_false_iff, decide_eq_false_iff_not, Nat.not_lt,
    List.isEmpty_eq_false_iff, List.contains_eq_mem] at h
  obtain ⟨⟨⟨⟨⟨hne, hlen⟩, hslash⟩, hback⟩, _⟩, hdrive⟩ := h
  have hpos : 1 ≤ (cleaned value).length := List.length_pos_of_ne_nil hne
  have hstrip : Text.strip isSpace (cleaned value) = cleaned value := Text.strip_joinWords
  simp only [Gateway.Ingress.isSafeDisplay, String.toList_ofList, hstrip, hpos, hlen, and_self,
    decide_true, Bool.true_and, hasDrive_startsWithDrive hdrive, Bool.not_false, Bool.and_true,
    List.all_eq_true]
  constructor
  · intro hall c hc hcontrol
    by_contra hspace
    have hmem := (mem_cleaned hcontrol).2 ⟨hc, Bool.eq_false_iff.2 hspace⟩
    have hgood := hall c hmem
    simp only [isControl] at hcontrol
    simp [hcontrol] at hgood
  · intro hall c hc
    have hcontrol : isControl c = false := by
      rw [Bool.eq_false_iff]
      intro hcontrol
      obtain ⟨hmem, hspace⟩ := (mem_cleaned hcontrol).1 hc
      rw [hall c hmem hcontrol] at hspace
      cases hspace
    have hnslash : c ≠ '/' := by
      rintro rfl
      exact hslash hc
    have hnback : c ≠ '\\' := by
      rintro rfl
      exact hback hc
    simp only [isControl] at hcontrol
    simp [hcontrol, hnslash, hnback]

/-- What is reported of a value, when the fallback is accepted. -/
theorem safeDisplay_accepted_iff (hfallback : Gateway.Ingress.isSafeDisplay fallback = true) :
    Gateway.Ingress.isSafeDisplay (safeDisplay letters fallback (some value)) = true ↔
      Presentable letters value := by
  cases h : isReplaced letters (cleaned value) with
  | true => simp [safeDisplay, Presentable, h, hfallback]
  | false => simp [safeDisplay, Presentable, h, isSafeDisplay_cleaned h]

theorem ofList_cleaned_ne (h : isReplaced letters (cleaned value) = false) :
    String.ofList (cleaned value) ≠ "" := by
  intro heq
  have hnil : cleaned value = [] := by simpa using congrArg String.toList heq
  rw [hnil] at h
  cases h

theorem redactedLayout_accepted :
    Gateway.Ingress.isSafeDisplay "redacted_layout" = true := by decide

theorem redactedSetup_accepted : Gateway.Ingress.isSafeDisplay "redacted_setup" = true := by decide

theorem redactedLayer_accepted : Gateway.Ingress.isSafeDisplay "redacted_layer" = true := by decide

theorem redactedLabel_accepted : Gateway.Ingress.isSafeDisplay "redacted_label" = true := by decide

theorem optionalDisplay_accepted_iff {value : Option String} :
    (optionalDisplay letters value).all Gateway.Ingress.isSafeDisplay = true ↔
      ∀ text, value = some text → Presentable letters text := by
  cases value with
  | none => simp [optionalDisplay]
  | some value =>
    cases h : isReplaced letters (cleaned value) with
    | true => simp [optionalDisplay, safeDisplay, Presentable, h]
    | false =>
      simp [optionalDisplay, safeDisplay, Presentable, h, ofList_cleaned_ne h,
        isSafeDisplay_cleaned h]

end Names

section Accepted

variable {φ : Type} {lib : ModelLibrary φ} {letters : Letters}

theorem layoutSummary_valid (l : LayoutSummary) : (layoutSummary (φ := φ)).valid l =
    (Gateway.Ingress.isSafeDisplay l.name && (true &&
      (l.plotter.all Gateway.Ingress.isSafeDisplay &&
        (l.mediaName.all Gateway.Ingress.isSafeDisplay &&
          (l.plotStyle.all Gateway.Ingress.isSafeDisplay && true))))) := by
  rfl

theorem reported_valid_iff {fallback : String}
    (hfallback : Gateway.Ingress.isSafeDisplay fallback = true) (l : LayoutSummary) :
    (layoutSummary (φ := φ)).valid (reported letters fallback l) = true ↔
      ∀ name ∈ namesOf l, Presentable letters name := by
  simp only [layoutSummary_valid, reported, namesOf, Bool.and_eq_true, Bool.true_and,
    Bool.and_true, safeDisplay_accepted_iff hfallback, optionalDisplay_accepted_iff,
    List.forall_mem_cons, List.forall_mem_append, Option.mem_toList, and_assoc]

theorem frameSummary_valid (f : FrameSummary φ) : (frameSummary lib).valid f =
    (isFrameHandle f.handle && (Gateway.Ingress.isSafeDisplay f.layer &&
      (Gateway.Ingress.isSafeDisplay f.label && ((true && (true && true)) &&
        ((true && (true && true)) && (lib.unitInterval f.confidence && true)))))) := by
  rfl

theorem inspectionResult_valid (r : InspectionResult φ) :
    (Protocol.Wire.inspectionResult lib).valid r =
      (Protocol.isWireId "drw" r.drawingId &&
        ((decide (0 ≤ r.layouts.length ∧ r.layouts.length ≤ 5000) &&
            r.layouts.all (layoutSummary (φ := φ)).valid) &&
          ((decide (0 ≤ r.pageSetups.length ∧ r.pageSetups.length ≤ 1000) &&
              r.pageSetups.all (layoutSummary (φ := φ)).valid) &&
            ((decide (0 ≤ r.frames.length ∧ r.frames.length ≤ 5000) &&
                r.frames.all (frameSummary lib).valid) &&
              ((noticeCodes (φ := φ)).valid r.noticeCodes && true))))) := by
  rfl

theorem all_reported_iff {fallback : String}
    (hfallback : Gateway.Ingress.isSafeDisplay fallback = true) (ls : List LayoutSummary) :
    (ls.map (reported letters fallback)).all (layoutSummary (φ := φ)).valid = true ↔
      ∀ name ∈ ls.flatMap namesOf, Presentable letters name := by
  simp only [List.all_map, List.all_eq_true, Function.comp, reported_valid_iff hfallback,
    List.mem_flatMap]
  constructor
  · rintro h name ⟨l, hl, hname⟩
    exact h l hl name hname
  · intro h l hl name hname
    exact h name ⟨l, hl, hname⟩

theorem reportedFrame_valid_iff {f : FrameSummary φ} (hhandle : isFrameHandle f.handle = true)
    (hconfidence : lib.unitInterval f.confidence = true) :
    (frameSummary lib).valid (reportedFrame letters f) = true ↔
      Presentable letters f.layer ∧ Presentable letters f.label := by
  simp only [frameSummary_valid, reportedFrame, hhandle, hconfidence, Bool.and_eq_true,
    Bool.true_and, Bool.and_true, safeDisplay_accepted_iff redactedLayer_accepted,
    safeDisplay_accepted_iff redactedLabel_accepted]

/-- The result of a drawing that is regular but for its names is made when they are presentable. -/
theorem inspectionResult_ok_iff {drawingId : String} {inspection : DrawingInspection φ}
    (h : Regular lib drawingId inspection) :
    (∃ result, inspectionResult letters lib drawingId inspection = .ok result) ↔
      ∀ name ∈ inspection.names, Presentable letters name := by
  have hframes : ((inspection.frames.map (reportedFrame letters)).all
      (frameSummary lib).valid = true) ↔
        ∀ name ∈ inspection.frames.flatMap fun f => [f.layer, f.label],
          Presentable letters name := by
    simp only [List.all_map, List.all_eq_true, Function.comp, List.mem_flatMap]
    constructor
    · rintro hall name ⟨f, hf, hname⟩
      obtain ⟨hlayer, hlabel⟩ :=
        (reportedFrame_valid_iff (h.handles f hf) (h.confidences f hf)).1 (hall f hf)
      rcases List.mem_pair.1 hname with rfl | rfl
      · exact hlayer
      · exact hlabel
    · intro hall f hf
      exact (reportedFrame_valid_iff (h.handles f hf) (h.confidences f hf)).2
        ⟨hall _ ⟨f, hf, List.mem_cons_self⟩,
          hall _ ⟨f, hf, List.mem_cons_of_mem _ List.mem_cons_self⟩⟩
  have hnotice : ∀ codes : List SafeCode, codes.length ≤ 5000 →
      (noticeCodes (φ := φ)).valid codes = true := by
    intro codes hlen
    have hall : codes.all (safeCode (φ := φ)).valid = true :=
      List.all_eq_true.2 fun code _ => code.safe
    change (decide (0 ≤ codes.length ∧ codes.length ≤ 5000) && codes.all _) = true
    rw [hall]
    simp [hlen]
  simp only [inspectionResult, ensure_bind_eq_ok, pure_eq_ok, exists_and_left, exists_eq',
    and_true, inspectionResult_valid, h.drawingId, List.length_map, h.layouts, h.pageSetups,
    h.frames, Nat.zero_le, and_self, decide_true, Bool.true_and, Bool.and_eq_true, hframes,
    all_reported_iff redactedLayout_accepted, all_reported_iff redactedSetup_accepted,
    DrawingInspection.names, List.forall_mem_append, and_assoc]
  rw [hnotice _ (by split <;> simp)]
  simp only [and_true]

/-- What the worker reports of a name is its fallback or accepted, and no name of a drawing spoils
its inspection result, exactly where the names are presentable. -/
theorem names_accepted_iff (letters : Letters) (lib : ModelLibrary φ) :
    (∀ (fallback : String) (value : Option String),
        fallback = "" ∨ Gateway.Ingress.isSafeDisplay fallback = true →
        ((safeDisplay letters fallback value = fallback ∨
            Gateway.Ingress.isSafeDisplay (safeDisplay letters fallback value) = true) ↔
          ∀ text, value = some text → Presentable letters text)) ∧
      (∀ value : Option String,
        (optionalDisplay letters value).all Gateway.Ingress.isSafeDisplay = true ↔
          ∀ text, value = some text → Presentable letters text) ∧
      ∀ (drawingId : String) (inspection : DrawingInspection φ),
        Regular lib drawingId inspection →
        ((∃ result, inspectionResult letters lib drawingId inspection = .ok result) ↔
          ∀ name ∈ inspection.names, Presentable letters name) := by
  refine ⟨fun fallback value hfallback => ?_, fun value => optionalDisplay_accepted_iff,
    fun _ _ hregular => inspectionResult_ok_iff hregular⟩
  cases value with
  | none => simp [safeDisplay]
  | some value =>
    cases h : isReplaced letters (cleaned value) with
    | true => simp [safeDisplay, Presentable, h]
    | false =>
      have hiff := isSafeDisplay_cleaned h
      simp only [safeDisplay, h, Bool.false_eq_true, if_false, Option.some.injEq, Presentable,
        false_or, forall_eq']
      rw [← hiff]
      refine ⟨fun hor => ?_, .inr⟩
      rcases hor with heq | hsafe
      · rcases hfallback with rfl | hsafe
        · exact absurd heq (ofList_cleaned_ne h)
        · exact heq ▸ hsafe
      · exact hsafe

end Accepted

section Example

theorem alpha_ascii (c : Char) (h : c.isAlpha = true) : c.isAlpha = true := h

def asciiLetters : Letters where
  isalpha := Char.isAlpha
  of_ascii := alpha_ascii

def onePlotter : DrawingInspection Rat where
  layouts := [⟨"A1  landscape", false, some "DWG To PDF.pc3", none, none⟩]
  pageSetups := []
  frames := []
  warnings := []

theorem onePlotter_regular :
    Regular ResultOutbox.exactLibrary "drw_00000000-0000-4000-8000-000000000001" onePlotter where
  drawingId := by decide
  layouts := by decide
  pageSetups := by decide
  frames := by decide
  handles := by simp [onePlotter]
  confidences := by simp [onePlotter]

theorem names_accepted_iff_plotter :
    ((safeDisplay asciiLetters "redacted_layer" (some " S 1 ") = "redacted_layer" ∨
        Gateway.Ingress.isSafeDisplay
          (safeDisplay asciiLetters "redacted_layer" (some " S 1 ")) = true) ↔
      ∀ text, some " S 1 " = some text → Presentable asciiLetters text) ∧
    ((∃ result, inspectionResult asciiLetters ResultOutbox.exactLibrary
        "drw_00000000-0000-4000-8000-000000000001" onePlotter = .ok result) ↔
      ∀ name ∈ onePlotter.names, Presentable asciiLetters name) :=
  ⟨(names_accepted_iff asciiLetters ResultOutbox.exactLibrary).1 "redacted_layer" (some " S 1 ")
      (.inr redactedLayer_accepted),
    (names_accepted_iff asciiLetters ResultOutbox.exactLibrary).2.2 _ onePlotter
      onePlotter_regular⟩

/-- A layer whose name has a control character is reported with it, and refused. -/
theorem safeDisplay_control :
    ¬∀ value : String, safeDisplay asciiLetters "redacted_layer" (some value) = "redacted_layer" ∨
      Gateway.Ingress.isSafeDisplay
        (safeDisplay asciiLetters "redacted_layer" (some value)) = true :=
  fun h => absurd (h "S\x01HEET") (by decide +kernel)

end Example

end CadPlot.Worker.Results
