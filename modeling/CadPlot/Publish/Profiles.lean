import CadPlot.Lib.Outcome
import CadPlot.Protocol.Formats
import CadPlot.Publish.ReceiptOutputs
import Mathlib.Data.Rat.Defs

/-!
# Paper profiles

`load_config` as far as publishing depends on it: the profiles with their checks,
the layout prefix and the frame layers. Mappings of other types are refused
before. What the configuration takes from the file system, and what it computes
from paper sizes in floating point, is given.
-/

namespace CadPlot.Publish

open Gateway (require require_eq_ok require_bind_eq_ok)
open Text (isSpace strip)

/-- A path by its components, from the drive on. -/
abbrev Path := List String

/-- The tables of characters of the two runtimes and of the file system. -/
structure Tables where
  casefold : Char → List Char
  lower : Char → List Char
  /-- `ToUpperInvariant`, which comparisons that ignore case go by -/
  upper : Char → List Char
  fileName : Char → List Char
  /-- `Path.GetFullPath` returns, and does not raise as it does for a path that is too long. -/
  fullPath : Path → Bool
  isalnum : Char → Bool
  lower_digit : ∀ c, c.isDigit = true → lower c = [c]
  upper_digit : ∀ c, c.isDigit = true → upper c = [c]

def fold (table : Char → List Char) (value : String) : List Char := value.toList.flatMap table

/-- `[A-Za-z0-9_-]{1,n}` -/
def isSafeId (n : Nat) (value : String) : Bool :=
  decide (1 ≤ value.toList.length ∧ value.toList.length ≤ n) &&
    value.toList.all fun c => c.isAlphanum || c == '_' || c == '-'

/-- `_has_control_character` -/
def hasControlCharacter (value : String) : Bool :=
  value.toList.any fun c => c.toNat < 32 || c.toNat = 127

/-- Some text of at most so many characters, none of them a control character. -/
def isValue (maxLength : Nat) (value : String) : Bool :=
  decide (value ≠ "") && decide (value.toList.length ≤ maxLength) && !hasControlCharacter value

def stripped (value : String) : String := String.ofList (strip isSpace value.toList)

structure PaperProfile where
  id : String
  labels : List String
  pageSetup : String
  plotter : String
  plotStyle : String
  canonicalMedia : Option String
  templateLayout : Option String
  templateDrawing : Option Path
  templateSha256 : Option String
  /-- `none` when it is not finite -/
  toleranceMm : Option Rat
  deriving DecidableEq

/-- A profile as the file has it. -/
structure RawProfile where
  id : String
  labels : List String
  pageSetup : String
  plotter : String
  plotStyle : String
  canonicalMedia : Option String
  templateLayout : Option String
  templateDrawing : Option String
  templateSha256 : Option String
  toleranceMm : Option Rat

/-- `_profile_text` -/
def profileText (key : String) (maxLength : Nat) (raw : String) : Except String String := do
  require (isValue maxLength (stripped raw)) s!"Paper profile {key} must be a valid non-empty value"
  pure (stripped raw)

/-- A field that may be left out. -/
def optionalText (key : String) (maxLength : Nat) : Option String → Except String (Option String)
  | none => pure none
  | some raw => some <$> profileText key maxLength raw

/-- What a configuration depends on besides its text. -/
structure ConfigPlatform where
  resolveRelative : String → Path
  /-- `template_path_policy.require_allowed` -/
  requireTemplate : Path → Except String Path
  isFile : Path → Bool
  /-- `_profiles_overlap` -/
  overlap : PaperProfile → PaperProfile → Bool
  /-- The label names a paper size, and an alias of the profile one within its tolerance. -/
  sizeMatches : String → PaperProfile → Bool

section Load

variable (tables : Tables) (platform : ConfigPlatform)

/-- `_parse_profile` -/
def parseProfile (raw : RawProfile) : Except String PaperProfile := do
  let labels := raw.labels.map stripped
  let id := raw.id
  require (labels ≠ [] ∧ ∀ label ∈ labels, isValue 128 label = true)
    s!"Paper profile {id} must define at least one label"
  require (isSafeId 64 id) "Paper profile id must contain 1-64 safe ASCII characters"
  let pageSetup ← profileText "page_setup" 255 raw.pageSetup
  let plotter ← profileText "plotter" 255 raw.plotter
  let plotStyle ← profileText "plot_style" 255 raw.plotStyle
  let canonicalMedia ← optionalText "canonical_media" 512 raw.canonicalMedia
  let templateLayout ← optionalText "template_layout" 255 raw.templateLayout
  let templateDrawing ← optionalText "template_drawing" 4096 raw.templateDrawing
  let templateSha256 ← optionalText "template_sha256" 64 raw.templateSha256
  pure
    { id, labels, pageSetup, plotter, plotStyle, canonicalMedia, templateLayout
      templateDrawing := templateDrawing.map platform.resolveRelative
      templateSha256 := templateSha256.map fun sha => String.ofList (sha.toList.map Char.toLower)
      toleranceMm := raw.toleranceMm }

/-- `normalize_label` -/
def normalizeLabel (value : String) : List Char :=
  (fold tables.casefold value).filter fun c =>
    decide (('a' ≤ c ∧ c ≤ 'z') ∨ ('0' ≤ c ∧ c ≤ '9'))

/-- The loop over the labels of a profile: each is its own, or new. An owner with the empty id
counts as none. -/
def claimLabels (id : String) :
    List (List Char × String) → List String → Except String (List (List Char × String))
  | aliases, [] => pure aliases
  | aliases, label :: labels => do
    let normalized := normalizeLabel tables label
    require ((aliases.lookup normalized).all fun owner => owner = "" ∨ owner = id)
      "Paper label is shared by profiles"
    claimLabels id ((normalized, id) :: aliases) labels

/-- The checks of one profile in the loop of `_validate_profiles`. -/
def validateProfile (p : PaperProfile) : Except String Unit := do
  require (p.toleranceMm.any fun t => 0 ≤ t ∧ t ≤ 50)
    "Paper profile tolerance must be finite and between 0 and 50"
  require (∀ media, p.canonicalMedia = some media → stripped media ≠ "")
    "Paper profile has an empty canonical_media"
  require (p.templateDrawing ≠ none → p.templateLayout ≠ none)
    "Paper profile template_drawing requires template_layout"
  require (p.templateDrawing = none ↔ p.templateSha256 = none)
    "Paper profile template_drawing and template_sha256 must be paired"
  require (∀ sha, p.templateSha256 = some sha → Protocol.isLowerHexText 64 sha.toList = true)
    "Paper profile has an invalid template_sha256"

def validateEach : List (List Char × String) → List PaperProfile → Except String Unit
  | _, [] => pure ()
  | aliases, p :: ps => do
    validateProfile p
    let aliases ← claimLabels tables p.id aliases p.labels
    validateEach aliases ps

/-- `_validate_profiles` -/
def validateProfiles (profiles : List PaperProfile) : Except String Unit := do
  require (1 ≤ profiles.length ∧ profiles.length ≤ 100)
    "paper_profiles must contain between 1 and 100 profiles"
  require (profiles.map PaperProfile.id).Nodup "Paper profile ids must be unique"
  validateEach tables [] profiles
  require (profiles.Pairwise fun left right => platform.overlap left right = false)
    "Paper profile dimensions overlap"

/-- `path.suffix.lower()`. No character but a letter folds to a letter of the suffixes that the
code compares with, so that this is also the suffix that it compares. -/
def lowerSuffix (path : Path) : List Char := (suffix (path.getLastD "").toList).map Char.toLower

def isTemplatePath (path : Path) : Bool :=
  decide (lowerSuffix path = ".dwg".toList ∨ lowerSuffix path = ".dwt".toList)

/-- The template of a profile, resolved and checked. -/
def resolveProfile (templateRoots : Bool) (p : PaperProfile) : Except String PaperProfile :=
  match p.templateDrawing with
  | none => pure p
  | some drawing => do
    let id := p.id
    require (templateRoots = true)
      s!"Paper profile {id} requires template_roots for template_drawing"
    let template ← platform.requireTemplate drawing
    require (isTemplatePath template = true ∧ platform.isFile template = true)
      s!"Paper profile {id} template_drawing must be a DWG or DWT file"
    pure { p with templateDrawing := some template }

structure RawConfig where
  templateRoots : Bool
  workspaceRoot : Option Path
  requirePageSetupMatch : Bool
  layoutPrefix : String
  frameLayers : List String
  paperProfiles : List RawProfile

structure CadPlotConfig where
  templateRoots : Bool
  workspaceRoot : Option Path
  requirePageSetupMatch : Bool
  layoutPrefix : String
  frameLayers : List String
  paperProfiles : List PaperProfile
  deriving DecidableEq

def loadConfig (raw : RawConfig) : Except String CadPlotConfig := do
  let profiles ← raw.paperProfiles.mapM (parseProfile platform)
  let frameLayers := raw.frameLayers.map stripped
  require (isSafeId 32 raw.layoutPrefix)
    "layout_prefix must contain 1-32 letters, digits, underscores, or hyphens"
  require (frameLayers.length ≤ 256 ∧ ∀ layer ∈ frameLayers, isValue 255 layer = true)
    "frame_layers must contain at most 256 valid, non-empty names"
  require (frameLayers.map (fold tables.casefold)).Nodup
    "frame_layers must be unique ignoring case"
  validateProfiles tables platform profiles
  let resolved ← profiles.mapM (resolveProfile platform raw.templateRoots)
  pure
    { templateRoots := raw.templateRoots
      workspaceRoot := raw.workspaceRoot
      requirePageSetupMatch := raw.requirePageSetupMatch
      layoutPrefix := raw.layoutPrefix
      frameLayers, paperProfiles := resolved }

end Load

/-- A text that `_profile_text` returns. -/
def IsProfileText (maxLength : Nat) (value : String) : Prop :=
  isValue maxLength value = true ∧ strip isSpace value.toList = value.toList

/-- What every loaded profile satisfies. -/
structure ProfileOk (p : PaperProfile) : Prop where
  id : isSafeId 64 p.id = true
  pageSetup : IsProfileText 255 p.pageSetup
  plotter : IsProfileText 255 p.plotter
  plotStyle : IsProfileText 255 p.plotStyle
  canonicalMedia : ∀ media, p.canonicalMedia = some media → IsProfileText 512 media
  templateLayout : ∀ layout, p.templateLayout = some layout → IsProfileText 255 layout
  layoutOfDrawing : p.templateDrawing ≠ none → p.templateLayout ≠ none
  paired : p.templateDrawing = none ↔ p.templateSha256 = none
  templateSha256 : ∀ sha, p.templateSha256 = some sha → Protocol.isLowerHexText 64 sha.toList = true
  template : ∀ path, p.templateDrawing = some path → isTemplatePath path = true

structure ConfigOk (config : CadPlotConfig) : Prop where
  layoutPrefix : isSafeId 32 config.layoutPrefix = true
  count : config.paperProfiles.length ≤ 100
  ids : (config.paperProfiles.map PaperProfile.id).Nodup
  profiles : ∀ p ∈ config.paperProfiles, ProfileOk p

section Loaded

variable {tables : Tables} {platform : ConfigPlatform}

theorem profileText_ok {key raw value : String} {n : Nat} (h : profileText key n raw = .ok value) :
    IsProfileText n value := by
  obtain ⟨hvalue, heq⟩ := (require_bind_eq_ok _ _ _ _).1 h
  obtain rfl := Except.ok.inj heq
  refine ⟨hvalue, ?_⟩
  rw [stripped, String.toList_ofList]
  exact Text.strip_idem

theorem optionalText_ok {key : String} {n : Nat} {raw value : Option String}
    (h : optionalText key n raw = .ok value) :
    ∀ text, value = some text → IsProfileText n text := by
  cases raw with
  | none =>
    obtain rfl := Except.ok.inj h
    simp
  | some raw =>
    obtain ⟨text, htext, rfl⟩ := map_eq_ok.1 h
    intro text' heq
    exact Option.some.inj heq ▸ profileText_ok htext

theorem parseProfile_ok {raw : RawProfile} {p : PaperProfile}
    (h : parseProfile platform raw = .ok p) :
    isSafeId 64 p.id = true ∧ IsProfileText 255 p.pageSetup ∧ IsProfileText 255 p.plotter ∧
      IsProfileText 255 p.plotStyle ∧
      (∀ media, p.canonicalMedia = some media → IsProfileText 512 media) ∧
      ∀ layout, p.templateLayout = some layout → IsProfileText 255 layout := by
  simp only [parseProfile, require_bind_eq_ok] at h
  obtain ⟨_, hid, h⟩ := h
  obtain ⟨pageSetup, hsetup, h⟩ := bind_eq_ok.1 h
  obtain ⟨plotter, hplotter, h⟩ := bind_eq_ok.1 h
  obtain ⟨plotStyle, hstyle, h⟩ := bind_eq_ok.1 h
  obtain ⟨media, hmedia, h⟩ := bind_eq_ok.1 h
  obtain ⟨layout, hlayout, h⟩ := bind_eq_ok.1 h
  obtain ⟨drawing, _, h⟩ := bind_eq_ok.1 h
  obtain ⟨sha, _, h⟩ := bind_eq_ok.1 h
  obtain rfl := pure_eq_ok.1 h
  exact ⟨hid, profileText_ok hsetup, profileText_ok hplotter, profileText_ok hstyle,
    optionalText_ok hmedia, optionalText_ok hlayout⟩

theorem validateProfile_ok {p : PaperProfile} (h : validateProfile p = .ok ()) :
    (p.templateDrawing ≠ none → p.templateLayout ≠ none) ∧
      (p.templateDrawing = none ↔ p.templateSha256 = none) ∧
      ∀ sha, p.templateSha256 = some sha → Protocol.isLowerHexText 64 sha.toList = true := by
  simp only [validateProfile, require_bind_eq_ok, require_eq_ok] at h
  exact h.2.2

theorem validateEach_ok {aliases : List (List Char × String)} {profiles : List PaperProfile}
    (h : validateEach tables aliases profiles = .ok ()) :
    ∀ p ∈ profiles, validateProfile p = .ok () := by
  induction profiles generalizing aliases with
  | nil => simp
  | cons p ps ih =>
    obtain ⟨_, hp, h⟩ := bind_eq_ok.1 h
    obtain ⟨_, _, h⟩ := bind_eq_ok.1 h
    exact List.forall_mem_cons.2 ⟨hp, ih h⟩

/-- Resolving the template of a profile leaves its other fields. -/
theorem resolveProfile_ok {roots : Bool} {p resolved : PaperProfile}
    (h : resolveProfile platform roots p = .ok resolved) :
    resolved = { p with templateDrawing := resolved.templateDrawing } ∧
      (resolved.templateDrawing = none ↔ p.templateDrawing = none) ∧
      ∀ path, resolved.templateDrawing = some path → isTemplatePath path = true := by
  unfold resolveProfile at h
  split at h
  · next hnone =>
    obtain rfl := pure_eq_ok.1 h
    exact ⟨rfl, Iff.rfl, by simp [hnone]⟩
  · next drawing hdrawing =>
    simp only [require_bind_eq_ok] at h
    obtain ⟨_, h⟩ := h
    obtain ⟨template, _, h⟩ := bind_eq_ok.1 h
    simp only [require_bind_eq_ok] at h
    obtain ⟨⟨htemplate, _⟩, h⟩ := h
    obtain rfl := pure_eq_ok.1 h
    refine ⟨rfl, by simp [hdrawing], fun path heq => ?_⟩
    exact Option.some.inj heq ▸ htemplate

theorem resolved_ids {roots : Bool} {profiles resolved : List PaperProfile}
    (h : List.Forall₂ (fun p q => resolveProfile platform roots p = .ok q) profiles resolved) :
    resolved.map PaperProfile.id = profiles.map PaperProfile.id := by
  induction h with
  | nil => rfl
  | cons hp _ ih =>
    have hid := congrArg PaperProfile.id (resolveProfile_ok hp).1
    rw [List.map_cons, List.map_cons, ih, hid]

theorem loadConfig_ok {raw : RawConfig} {config : CadPlotConfig}
    (h : loadConfig tables platform raw = .ok config) : ConfigOk config := by
  obtain ⟨profiles, hparsed, h⟩ := bind_eq_ok.1 h
  simp only [require_bind_eq_ok] at h
  obtain ⟨hlayout, _, _, h⟩ := h
  obtain ⟨_, hvalid, h⟩ := bind_eq_ok.1 h
  obtain ⟨resolved, hresolved, h⟩ := bind_eq_ok.1 h
  obtain rfl := pure_eq_ok.1 h
  simp only [validateProfiles, require_bind_eq_ok] at hvalid
  obtain ⟨⟨_, hcount⟩, hids, hvalid⟩ := hvalid
  obtain ⟨_, heach, _⟩ := bind_eq_ok.1 hvalid
  have hparsed := mapM_eq_ok.1 hparsed
  have hresolved := mapM_eq_ok.1 hresolved
  refine ⟨hlayout, ?_, resolved_ids hresolved ▸ hids, fun q hq => ?_⟩
  · rw [← hresolved.length_eq]
    exact hcount
  · obtain ⟨p, hp, hqp⟩ := forall₂_mem_right hresolved hq
    obtain ⟨rawp, _, hpp⟩ := forall₂_mem_right hparsed hp
    obtain ⟨hid, hsetup, hplotter, hstyle, hmedia, hlayout⟩ := parseProfile_ok hpp
    obtain ⟨hdrawn, hpaired, hsha⟩ := validateProfile_ok (validateEach_ok heach p hp)
    obtain ⟨hfields, hnone, htemplate⟩ := resolveProfile_ok hqp
    rw [hfields]
    exact ⟨hid, hsetup, hplotter, hstyle, hmedia, hlayout, fun hd => hdrawn (mt hnone.2 hd),
      hnone.trans hpaired, hsha, htemplate⟩

end Loaded

end CadPlot.Publish
