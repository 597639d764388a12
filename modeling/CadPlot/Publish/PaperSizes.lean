import CadPlot.Publish.Staging

/-!
# Paper sizes in labels

`parse_paper_size` finds a size such as `84,1x118,9` or `A4` in a label. Lengths
are exact here.
-/

namespace CadPlot.Publish

open Text (isSpace)

/-- The digits that regular expressions and `float` know, among them those of ASCII. -/
structure Script where
  decimal : Char → Option Nat
  decimal_ascii : ∀ c : Char, c.isDigit = true → decimal c = some (c.toNat - 48)

structure PaperSize where
  widthMm : Rat
  heightMm : Rat
  deriving DecidableEq, Repr

def PaperSize.orientationIndependent (size : PaperSize) : Rat × Rat :=
  (min size.widthMm size.heightMm, max size.widthMm size.heightMm)

section Search

variable (script : Script)

/-- `\d*`, which gives nothing back: none of the patterns goes on with a digit -/
def takeDigits : List Char → List Nat × List Char
  | [] => ([], [])
  | c :: text =>
    match script.decimal c with
    | some d => (d :: (takeDigits text).1, (takeDigits text).2)
    | none => ([], c :: text)

def digitsValue (digits : List Nat) : Nat := digits.foldl (fun value d => 10 * value + d) 0

/-- `\d{2,4}(?:[.,]\d+)?`, with its value -/
def takeNumber (text : List Char) : Option (Rat × List Char) :=
  let (digits, rest) := takeDigits script text
  if 2 ≤ digits.length ∧ digits.length ≤ 4 then
    match rest with
    | c :: rest' =>
      let (decimals, after) := takeDigits script rest'
      if (c = '.' ∨ c = ',') ∧ decimals ≠ [] then
        some (digitsValue digits + digitsValue decimals / 10 ^ decimals.length, after)
      else some (digitsValue digits, rest)
    | [] => some (digitsValue digits, [])
  else none

/-- `(?:\s*(?P<unit>mm|cm))?(?!\d)`: whether the unit is centimetres -/
def takeUnit (text : List Char) : Option Bool :=
  match text.dropWhile isSpace with
  | a :: b :: rest =>
    if b.toLower = 'm' ∧ (a.toLower = 'm' ∨ a.toLower = 'c') ∧
        (rest.head?.bind script.decimal).isNone then
      some (a.toLower = 'c')
    else none
  | _ => none

/-- A size in its unit; without one, small numbers are centimetres. -/
def inMillimetres (width height : Rat) (centimetres : Option Bool) : PaperSize :=
  if centimetres.getD (decide (max width height ≤ 200)) then ⟨width * 10, height * 10⟩
  else ⟨width, height⟩

/-- A match of the size pattern at the head of a text. -/
def sizeAt (text : List Char) : Option PaperSize :=
  (takeNumber script text).bind fun (width, rest) =>
    match rest.dropWhile isSpace with
    | x :: rest =>
      if x = 'x' ∨ x = 'X' ∨ x = '×' then
        (takeNumber script (rest.dropWhile isSpace)).map fun (height, rest) =>
          inMillimetres width height (takeUnit script rest)
      else none
    | [] => none

/-- `PAPER_SIZE_PATTERN.search`, behind a digit or not -/
def searchSize : Bool → List Char → Option PaperSize
  | _, [] => none
  | behindDigit, c :: text =>
    ((if behindDigit then none else sizeAt script (c :: text))).or
      (searchSize (script.decimal c).isSome text)

/-- `[A-Z0-9]` when case is ignored: four letters beyond ASCII fold to one of it, the last of
them the Kelvin sign. -/
def isSeriesChar (c : Char) : Bool :=
  c.isAlphanum || c = 'İ' || c = 'ı' || c = 'ſ' || c = '\u212a'

def seriesMm : Char → Option PaperSize
  | '0' => some ⟨841, 1189⟩
  | '1' => some ⟨594, 841⟩
  | '2' => some ⟨420, 594⟩
  | '3' => some ⟨297, 420⟩
  | '4' => some ⟨210, 297⟩
  | '5' => some ⟨148, 210⟩
  | _ => none

def seriesAt : List Char → Option PaperSize
  | a :: size :: rest =>
    if (a = 'A' ∨ a = 'a') ∧ rest.head?.any isSeriesChar = false then seriesMm size else none
  | _ => none

/-- `A_SERIES_PATTERN.search`, behind a character of a series or not -/
def searchSeries : Bool → List Char → Option PaperSize
  | _, [] => none
  | behindSeriesChar, c :: text =>
    (if behindSeriesChar then none else seriesAt (c :: text)).or
      (searchSeries (isSeriesChar c) text)

def parsePaperSize (text : String) : Option PaperSize :=
  (searchSize script false text.toList).or (searchSeries false text.toList)

end Search

section Matching

variable (script : Script)

/-- Two sizes, whatever their orientations, differ by no more than a tolerance. -/
def PaperSize.within (tolerance : Rat) (a b : PaperSize) : Bool :=
  decide (|a.orientationIndependent.1 - b.orientationIndependent.1| ≤ tolerance ∧
    |a.orientationIndependent.2 - b.orientationIndependent.2| ≤ tolerance)

/-- An alias of a profile has the size, within the tolerance of the profile. -/
def PaperProfile.hasSize (p : PaperProfile) (size : PaperSize) : Bool :=
  p.labels.any fun declared => (parsePaperSize script declared).any fun declaredSize =>
    p.toleranceMm.any fun tolerance => declaredSize.within tolerance size

/-- `_profiles_overlap` -/
def profilesOverlap (left right : PaperProfile) : Bool :=
  (left.labels.filterMap (parsePaperSize script)).any fun leftSize =>
    (right.labels.filterMap (parsePaperSize script)).any fun rightSize =>
      leftSize.within ((left.toleranceMm.getD 0) + right.toleranceMm.getD 0) rightSize

/-- The platform of a configuration whose paper sizes are read with a script. -/
def ConfigPlatform.withSizes (platform : ConfigPlatform) : ConfigPlatform :=
  { platform with
    overlap := profilesOverlap script
    sizeMatches := fun label p => (parsePaperSize script label).any (p.hasSize script) }

end Matching

section Owners

variable {tables : Tables} {script : Script} {platform : ConfigPlatform} {config : CadPlotConfig}

/-- Every label that was claimed has one owner, which has an id. -/
structure Claimed (aliases : List (List Char × String)) : Prop where
  named : ∀ e ∈ aliases, e.2 ≠ ""
  one : ∀ e ∈ aliases, aliases.lookup e.1 = some e.2

theorem Claimed.nil : Claimed [] where
  named := by simp
  one := by simp

theorem Claimed.claim {aliases : List (List Char × String)} (h : Claimed aliases) {id : String}
    (hid : id ≠ "") {normalized : List Char}
    (howner : ∀ e ∈ aliases, e.1 = normalized → e.2 = id) :
    Claimed ((normalized, id) :: aliases) where
  named := List.forall_mem_cons.2 ⟨hid, h.named⟩
  one e he := by
    rw [List.lookup_cons]
    by_cases heq : e.1 = normalized
    · have hsame : e.2 = id := by
        rcases List.mem_cons.1 he with rfl | he
        · rfl
        · exact howner e he heq
      simp [heq, hsame]
    · rcases List.mem_cons.1 he with rfl | he
      · exact absurd rfl heq
      · have hne : (e.1 == normalized) = false := by simpa using heq
        rw [hne]
        exact h.one e he

/-- The check of a label: whoever has claimed it is the profile itself. -/
theorem Claimed.owner {aliases : List (List Char × String)} (h : Claimed aliases) {id : String}
    {normalized : List Char}
    (hcheck : ((aliases.lookup normalized).all fun owner => owner = "" ∨ owner = id) = true) :
    ∀ e ∈ aliases, e.1 = normalized → e.2 = id := by
  rintro e he rfl
  rw [h.one e he] at hcheck
  simpa [h.named e he] using hcheck

theorem claimLabels_ok {id : String} (hid : id ≠ "") {labels : List String}
    {aliases aliases' : List (List Char × String)} (hclaimed : Claimed aliases)
    (h : claimLabels tables id aliases labels = .ok aliases') :
    (∀ label ∈ labels, ∀ e ∈ aliases, e.1 = normalizeLabel tables label → e.2 = id) ∧
      aliases ⊆ aliases' ∧ (∀ label ∈ labels, (normalizeLabel tables label, id) ∈ aliases') ∧
      Claimed aliases' := by
  induction labels generalizing aliases with
  | nil =>
    obtain rfl := pure_eq_ok.1 h
    exact ⟨by simp, List.Subset.refl _, by simp, hclaimed⟩
  | cons label labels ih =>
    obtain ⟨hcheck, h⟩ := (Gateway.require_bind_eq_ok _ _ _ _).1 h
    have howner := hclaimed.owner hcheck
    obtain ⟨howners, hsubset, hlabels, hclaimed'⟩ := ih (hclaimed.claim hid howner) h
    refine ⟨List.forall_mem_cons.2 ⟨howner, fun l hl e he => ?_⟩, fun e he => ?_,
      List.forall_mem_cons.2 ⟨?_, hlabels⟩, hclaimed'⟩
    · exact howners l hl e (List.mem_cons_of_mem _ he)
    · exact hsubset (List.mem_cons_of_mem _ he)
    · exact hsubset List.mem_cons_self

/-- No two profiles have labels of one normal form, unless they have one id. -/
theorem validateEach_owners {profiles : List PaperProfile}
    {aliases : List (List Char × String)} (hids : ∀ p ∈ profiles, p.id ≠ "")
    (hclaimed : Claimed aliases)
    (h : validateEach tables aliases profiles = .ok ()) :
    (∀ p ∈ profiles, ∀ label ∈ p.labels, ∀ e ∈ aliases,
        e.1 = normalizeLabel tables label → e.2 = p.id) ∧
      profiles.Pairwise fun p q => ∀ label ∈ p.labels, ∀ label' ∈ q.labels,
        normalizeLabel tables label = normalizeLabel tables label' → p.id = q.id := by
  induction profiles generalizing aliases with
  | nil => exact ⟨by simp, .nil⟩
  | cons p ps ih =>
    obtain ⟨hid, hids⟩ := List.forall_mem_cons.1 hids
    obtain ⟨_, _, h⟩ := bind_eq_ok.1 h
    obtain ⟨aliases', hclaim, h⟩ := bind_eq_ok.1 h
    obtain ⟨howner, hsubset, hlabels, hclaimed'⟩ := claimLabels_ok hid hclaimed hclaim
    obtain ⟨howners, hpairwise⟩ := ih hids hclaimed' h
    refine ⟨List.forall_mem_cons.2 ⟨howner, fun q hq label hl e he => ?_⟩,
      List.pairwise_cons.2 ⟨fun q hq label hl label' hl' heq => ?_, hpairwise⟩⟩
    · exact howners q hq label hl e (hsubset he)
    · exact howners q hq label' hl' _ (hlabels label hl) heq

/-- The label has the normal form of an alias of the profile. -/
def PaperProfile.named (tables : Tables) (p : PaperProfile) (label : String) : Bool :=
  (p.labels.map (normalizeLabel tables)).contains (normalizeLabel tables label)

theorem named_iff {p : PaperProfile} {label : String} : p.named tables label = true ↔
    ∃ declared ∈ p.labels, normalizeLabel tables declared = normalizeLabel tables label := by
  rw [PaperProfile.named, List.contains_iff_mem, List.mem_map]

theorem filter_eq_singleton {α : Type} {P : α → Bool} {xs : List α} (hn : xs.Nodup)
    (hone : ∀ x ∈ xs, ∀ y ∈ xs, P x = true → P y = true → x = y) {a : α} (ha : a ∈ xs)
    (hp : P a = true) : xs.filter P = [a] := by
  have hperm : (xs.filter P).Perm [a] := by
    rw [List.perm_ext_iff_of_nodup (hn.filter P) (List.nodup_singleton a)]
    intro x
    rw [List.mem_filter, List.mem_singleton]
    constructor
    · rintro ⟨hx, hpx⟩
      exact hone x hx a ha hpx hp
    · rintro rfl
      exact ⟨ha, hp⟩
  exact List.perm_singleton.1 hperm

theorem named_one (hnonempty : ∀ p ∈ config.paperProfiles, p.id ≠ "")
    (hvalid : validateProfiles tables platform config.paperProfiles = .ok ()) {label : String}
    {p q : PaperProfile} (hp : p ∈ config.paperProfiles) (hq : q ∈ config.paperProfiles)
    (hnamed : p.named tables label = true) (hnamed' : q.named tables label = true) : p = q := by
  simp only [validateProfiles, Gateway.require_bind_eq_ok] at hvalid
  obtain ⟨_, hids, hvalid⟩ := hvalid
  obtain ⟨_, heach, _⟩ := bind_eq_ok.1 hvalid
  have hpairwise := (validateEach_owners hnonempty .nil heach).2
  obtain ⟨declared, hdeclared, heq⟩ := named_iff.1 hnamed
  obtain ⟨declared', hdeclared', heq'⟩ := named_iff.1 hnamed'
  have hid : p.id = q.id :=
    hpairwise.forall_of_forall_of_flip (fun _ _ _ _ _ _ _ => rfl)
      (hpairwise.imp fun h label hl label' hl' heq => (h label' hl' label hl heq.symm).symm) hp hq
      declared hdeclared declared' hdeclared' (heq.trans heq'.symm)
  exact List.inj_on_of_nodup_map hids hp hq hid

theorem nodup_of_validateProfiles
    (hvalid : validateProfiles tables platform config.paperProfiles = .ok ()) :
    config.paperProfiles.Nodup := by
  simp only [validateProfiles, Gateway.require_bind_eq_ok] at hvalid
  exact hvalid.2.1.of_map

/-- Sizes that are each within a tolerance of one size differ by no more than the two. -/
theorem PaperSize.within_add {ta tb : Rat} {a b size : PaperSize}
    (ha : a.within ta size = true) (hb : b.within tb size = true) :
    a.within (ta + tb) b = true := by
  rw [PaperSize.within, decide_eq_true_eq] at ha hb ⊢
  constructor
  · refine (abs_sub_le _ size.orientationIndependent.1 _).trans (add_le_add ha.1 ?_)
    rw [abs_sub_comm]
    exact hb.1
  · refine (abs_sub_le _ size.orientationIndependent.2 _).trans (add_le_add ha.2 ?_)
    rw [abs_sub_comm]
    exact hb.2

theorem overlap_of_hasSize {p q : PaperProfile} {size : PaperSize}
    (hp : p.hasSize script size = true) (hq : q.hasSize script size = true) :
    profilesOverlap script p q = true := by
  simp only [PaperProfile.hasSize, List.any_eq_true, Option.any_eq_true] at hp hq
  obtain ⟨declared, hdeclared, own, hown, tolerance, htolerance, hwithin⟩ := hp
  obtain ⟨declared', hdeclared', own', hown', tolerance', htolerance', hwithin'⟩ := hq
  simp only [profilesOverlap, List.any_eq_true, List.mem_filterMap, htolerance, htolerance',
    Option.getD_some]
  exact ⟨own, ⟨declared, hdeclared, hown⟩, own', ⟨declared', hdeclared', hown'⟩,
    PaperSize.within_add hwithin hwithin'⟩

theorem sized_one
    (hvalid : validateProfiles tables (platform.withSizes script) config.paperProfiles = .ok ())
    {label : String} {p q : PaperProfile} (hp : p ∈ config.paperProfiles)
    (hq : q ∈ config.paperProfiles) (hsize : (platform.withSizes script).sizeMatches label p = true)
    (hsize' : (platform.withSizes script).sizeMatches label q = true) : p = q := by
  simp only [validateProfiles, Gateway.require_bind_eq_ok] at hvalid
  obtain ⟨_, _, hvalid⟩ := hvalid
  obtain ⟨_, _, hvalid⟩ := bind_eq_ok.1 hvalid
  have hapart := (Gateway.require_eq_ok _ _).1 hvalid
  obtain ⟨size, hlabel, hhas⟩ := (Option.any_eq_true _ _).1 hsize
  obtain ⟨size', hlabel', hhas'⟩ := (Option.any_eq_true _ _).1 hsize'
  obtain rfl := Option.some.inj (hlabel.symm.trans hlabel')
  by_contra hne
  have hboth : config.paperProfiles.Pairwise fun p q => p ≠ q →
      p.hasSize script size = true → q.hasSize script size = true → False := by
    refine hapart.imp fun hno _ hp hq => ?_
    have hyes : (platform.withSizes script).overlap _ _ = true := overlap_of_hasSize hp hq
    rw [hno] at hyes
    cases hyes
  exact hboth.forall_of_forall_of_flip (fun _ _ h => absurd rfl h)
    (hboth.imp fun h hne hq hp => h hne.symm hp hq) hp hq hne hhas hhas'

theorem length_filter_le_one {α : Type} {P : α → Bool} {xs : List α} (hn : xs.Nodup)
    (hone : ∀ x ∈ xs, ∀ y ∈ xs, P x = true → P y = true → x = y) : (xs.filter P).length ≤ 1 := by
  cases h : xs.filter P with
  | nil => exact Nat.zero_le 1
  | cons a rest =>
    obtain ⟨ha, hp⟩ := List.mem_filter.1 (h ▸ List.mem_cons_self : a ∈ xs.filter P)
    rw [← h, filter_eq_singleton hn hone ha hp]
    exact Nat.le_refl 1

/-- A profile without the template that it is resolved with. -/
def PaperProfile.bare (p : PaperProfile) : PaperProfile := { p with templateDrawing := none }

theorem bare_resolved {roots : Bool} {profiles resolved : List PaperProfile}
    (h : List.Forall₂ (fun p q => resolveProfile platform roots p = .ok q) profiles resolved) :
    resolved.map PaperProfile.bare = profiles.map PaperProfile.bare := by
  induction h with
  | nil => rfl
  | cons hpq _ ih =>
    obtain ⟨hfields, _⟩ := resolveProfile_ok hpq
    rw [List.map_cons, List.map_cons, ih, hfields]
    rfl

theorem validateEach_resolved {roots : Bool} {profiles resolved : List PaperProfile}
    (h : List.Forall₂ (fun p q => resolveProfile platform roots p = .ok q) profiles resolved)
    {aliases : List (List Char × String)} (hvalid : validateEach tables aliases profiles = .ok ()) :
    validateEach tables aliases resolved = .ok () := by
  induction h generalizing aliases with
  | nil => exact hvalid
  | @cons p q _ _ hpq _ ih =>
    obtain ⟨⟨⟩, hp, hvalid⟩ := bind_eq_ok.1 hvalid
    obtain ⟨aliases', hclaim, hvalid⟩ := bind_eq_ok.1 hvalid
    obtain ⟨hfields, hnone, _⟩ := resolveProfile_ok hpq
    have hq : validateProfile q = .ok () := by
      simp only [validateProfile, Gateway.require_bind_eq_ok, Gateway.require_eq_ok] at hp ⊢
      rw [hfields]
      exact ⟨hp.1, hp.2.1, fun hd => hp.2.2.1 (mt hnone.2 hd), hnone.trans hp.2.2.2.1,
        hp.2.2.2.2⟩
    have hclaim' : claimLabels tables q.id aliases q.labels = .ok aliases' := by
      rw [hfields]
      exact hclaim
    exact bind_eq_ok.2 ⟨(), hq, bind_eq_ok.2 ⟨aliases', hclaim', ih hvalid⟩⟩

/-- The profiles of a configuration are validated before their templates are resolved, and would be
so after. -/
theorem loadConfig_validated {raw : RawConfig}
    (h : loadConfig tables (platform.withSizes script) raw = .ok config) :
    (∀ p ∈ config.paperProfiles, p.id ≠ "") ∧
      validateProfiles tables (platform.withSizes script) config.paperProfiles = .ok () := by
  constructor
  · intro p hp hempty
    have hid := ((loadConfig_ok h).profiles p hp).id
    rw [hempty] at hid
    exact absurd hid (by decide)
  · have hids := (loadConfig_ok h).ids
    obtain ⟨profiles, _, h⟩ := bind_eq_ok.1 h
    simp only [Gateway.require_bind_eq_ok] at h
    obtain ⟨_, _, _, h⟩ := h
    obtain ⟨_, hvalid, h⟩ := bind_eq_ok.1 h
    obtain ⟨resolved, hresolved, h⟩ := bind_eq_ok.1 h
    obtain rfl := pure_eq_ok.1 h
    replace hresolved := mapM_eq_ok.1 hresolved
    simp only [validateProfiles, Gateway.require_bind_eq_ok] at hvalid ⊢
    obtain ⟨hcount, _, hvalid⟩ := hvalid
    obtain ⟨⟨⟩, heach, hvalid⟩ := bind_eq_ok.1 hvalid
    have hapart := (Gateway.require_eq_ok _ _).1 hvalid
    refine ⟨hresolved.length_eq ▸ hcount, hids, bind_eq_ok.2
      ⟨(), validateEach_resolved hresolved heach, (Gateway.require_eq_ok _ _).2 ?_⟩⟩
    -- the template is no part of what two profiles overlap by
    have hmapped : (profiles.map PaperProfile.bare).Pairwise fun left right =>
        profilesOverlap script left right = false := List.pairwise_map.2 hapart
    rw [← bare_resolved hresolved] at hmapped
    exact List.pairwise_map.1 hmapped

/-- At most one profile has the label as an alias, at most one has its dimensions, and matching it
does not raise. -/
def Unambiguous (tables : Tables) (platform : ConfigPlatform) (config : CadPlotConfig)
    (label : String) : Prop :=
  (config.paperProfiles.filter (·.named tables label)).length ≤ 1 ∧
    (config.paperProfiles.filter (platform.sizeMatches label)).length ≤ 1 ∧
    ∃ selected, matchPaperProfile tables platform config label = .ok selected

theorem unambiguous_of_validated (hnonempty : ∀ p ∈ config.paperProfiles, p.id ≠ "")
    (hvalid : validateProfiles tables (platform.withSizes script) config.paperProfiles = .ok ())
    (label : String) : Unambiguous tables (platform.withSizes script) config label := by
  have hn := nodup_of_validateProfiles hvalid
  have hnamed : (config.paperProfiles.filter (·.named tables label)).length ≤ 1 :=
    length_filter_le_one hn fun _ hp _ hq h h' => named_one hnonempty hvalid hp hq h h'
  have hsized :
      (config.paperProfiles.filter ((platform.withSizes script).sizeMatches label)).length ≤ 1 :=
    length_filter_le_one hn fun _ hp _ hq h h' => sized_one hvalid hp hq h h'
  refine ⟨hnamed, hsized, ?_⟩
  simp only [PaperProfile.named] at hnamed
  simp only [matchPaperProfile]
  split
  · next h =>
    rw [h] at hnamed
    simp at hnamed
  · next p _ => exact ⟨some p, rfl⟩
  · split
    · next h =>
      rw [h] at hsized
      simp at hsized
    · next p _ => exact ⟨some p, rfl⟩
    · exact ⟨none, rfl⟩

/-- No label is ambiguous for the profiles of a configuration, nor for any others that validate:
only an empty id, which `_parse_profile` refuses, lets two profiles share an alias. -/
theorem match_unambiguous (tables : Tables) (script : Script) (platform : ConfigPlatform)
    (label : String) :
    (∀ raw config, loadConfig tables (platform.withSizes script) raw = .ok config →
      Unambiguous tables (platform.withSizes script) config label) ∧
    ∀ config : CadPlotConfig, (∀ p ∈ config.paperProfiles, p.id ≠ "") →
      validateProfiles tables (platform.withSizes script) config.paperProfiles = .ok () →
      Unambiguous tables (platform.withSizes script) config label := by
  refine ⟨fun raw config hload => ?_, fun config hnonempty hvalid =>
    unambiguous_of_validated hnonempty hvalid label⟩
  obtain ⟨hnonempty, hvalid⟩ := loadConfig_validated hload
  exact unambiguous_of_validated hnonempty hvalid label

end Owners

section Example

def asciiScript : Script where
  decimal c := if c.isDigit then some (c.toNat - 48) else none
  decimal_ascii _ h := if_pos h

theorem single_digit (c : Char) (_ : c.isDigit = true) : [c] = [c] := rfl

def asciiTables : Tables where
  casefold c := [c.toLower]
  lower c := [c]
  upper c := [c]
  fileName c := [c]
  fullPath _ := true
  isalnum := Char.isAlphanum
  lower_digit := single_digit
  upper_digit := single_digit

def barePlatform : ConfigPlatform where
  resolveRelative _ := []
  requireTemplate path := .ok path
  isFile _ := true
  overlap _ _ := false
  sizeMatches _ _ := false

def profileOf (id : String) (labels : List String) : PaperProfile where
  id := id
  labels := labels
  pageSetup := "A"
  plotter := "DWG To PDF.pc3"
  plotStyle := "monochrome.ctb"
  canonicalMedia := none
  templateLayout := none
  templateDrawing := none
  templateSha256 := none
  toleranceMm := some 3

def configOf (profiles : List PaperProfile) : CadPlotConfig where
  templateRoots := false
  workspaceRoot := none
  requirePageSetupMatch := true
  layoutPrefix := "CADPLOT"
  frameLayers := []
  paperProfiles := profiles

/-- The configuration file for some profiles. -/
def rawOf (profiles : List (String × List String)) : RawConfig where
  templateRoots := false
  workspaceRoot := none
  requirePageSetupMatch := true
  layoutPrefix := "CADPLOT"
  frameLayers := []
  paperProfiles := profiles.map fun profile =>
    ⟨profile.1, profile.2, "A", "DWG To PDF.pc3", "monochrome.ctb", none, none, none, none, some 3⟩

theorem match_unambiguous_series :
    loadConfig asciiTables (barePlatform.withSizes asciiScript)
        (rawOf [("a3", ["A3"]), ("a4", ["A4", "210x297mm"])]) =
      .ok (configOf [profileOf "a3" ["A3"], profileOf "a4" ["A4", "210x297mm"]]) ∧
    Unambiguous asciiTables (barePlatform.withSizes asciiScript)
      (configOf [profileOf "a3" ["A3"], profileOf "a4" ["A4", "210x297mm"]]) "210 x 297" := by
  have hload : loadConfig asciiTables (barePlatform.withSizes asciiScript)
      (rawOf [("a3", ["A3"]), ("a4", ["A4", "210x297mm"])]) =
        .ok (configOf [profileOf "a3" ["A3"], profileOf "a4" ["A4", "210x297mm"]]) := by
    decide +kernel
  exact ⟨hload, (match_unambiguous asciiTables asciiScript barePlatform "210 x 297").1 _ _ hload⟩

end Example

end CadPlot.Publish
