import CadPlot.Publish.Jobs
import Mathlib.Data.List.Nodup
import Mathlib.Data.List.Sort

/-!
# What is staged

The sheets of a ready plan carry profiles of the configuration. The manifest of a
staged job is a function of the plan and of what its files resolve to, and every
file of the job is the last one that was copied to its key.
-/

namespace CadPlot.Publish

open Gateway (require require_eq_ok require_bind_eq_ok)

/-- What the plan takes from a profile of the configuration. -/
structure PayloadOk (config : CadPlotConfig) (profile : ProfilePayload) : Prop where
  mem : profile.id ∈ config.paperProfiles.map PaperProfile.id
  id : isSafeId 64 profile.id = true
  pageSetup : IsProfileText 255 profile.pageSetup
  plotter : IsProfileText 255 profile.plotter
  plotStyle : IsProfileText 255 profile.plotStyle
  canonicalMedia : ∀ media, profile.canonicalMedia = some media → IsProfileText 512 media
  templateLayout : ∀ layout, profile.templateLayout = some layout → IsProfileText 255 layout
  asset : ∀ a, profile.templateAsset = some a → a.id = profile.id ∧
    a.layout = profile.templateLayout ∧ a.layout ≠ none ∧ a.pageSetup = profile.pageSetup ∧
      Protocol.isLowerHexText 64 a.sha256.toList = true

/-- What a ready plan has at an index. -/
structure SheetOk (config : CadPlotConfig) (index : Nat) (sheet : Sheet) : Prop where
  profile : ∃ profile, sheet.profile = some profile ∧ PayloadOk config profile
  targetLayout : sheet.targetLayout =
    targetLayoutName index sheet.frameHandle config.layoutPrefix

section Plan

variable {tables : Tables} {platform : ConfigPlatform} {config : CadPlotConfig}

theorem matchPaperProfile_mem {label : String} {p : PaperProfile}
    (h : matchPaperProfile tables platform config label = .ok (some p)) :
    p ∈ config.paperProfiles := by
  simp only [matchPaperProfile] at h
  split at h
  · cases h
  · next q hq =>
    obtain rfl := Option.some.inj (Except.ok.inj h)
    exact List.mem_of_mem_filter (hq ▸ List.mem_singleton_self _)
  · split at h
    · cases h
    · next q hq =>
      obtain rfl := Option.some.inj (Except.ok.inj h)
      exact List.mem_of_mem_filter (hq ▸ List.mem_singleton_self _)
    · cases h

theorem profilePayload_ok (hconfig : ConfigOk config) {p : PaperProfile}
    (hp : p ∈ config.paperProfiles) {external : Option (DrawingInspection × Fingerprint)}
    (hsha : ∀ e, external = some e → p.templateDrawing ≠ none →
      some e.2.sha256 = p.templateSha256) :
    PayloadOk config (profilePayload p external) := by
  have hok := hconfig.profiles p hp
  refine ⟨List.mem_map_of_mem hp, hok.id, hok.pageSetup, hok.plotter, hok.plotStyle,
    hok.canonicalMedia, hok.templateLayout, fun a ha => ?_⟩
  simp only [profilePayload] at ha ⊢
  split at ha
  · next source inspection fingerprint hdrawing =>
    obtain rfl := Option.some.inj ha
    have hsome : p.templateDrawing ≠ none := by simp [hdrawing]
    exact ⟨rfl, rfl, hok.layoutOfDrawing hsome, rfl,
      hok.templateSha256 _ (hsha _ rfl hsome).symm⟩
  · cases ha

/-- A sheet that is left for another reason is not a matched one. -/
theorem matched_of_ite {c : Prop} [Decidable c] {other sheet : Sheet} {rest : Except String Sheet}
    (h : (if c then pure other else rest) = .ok sheet) (hmatched : sheet.status = .matched)
    (hother : other.status ≠ .matched) : ¬c ∧ rest = .ok sheet := by
  split at h
  · obtain rfl := pure_eq_ok.1 h
    exact absurd hmatched hother
  · next hc => exact ⟨hc, h⟩

theorem planSheet_ok (hconfig : ConfigOk config) {inspection : DrawingInspection}
    {evidence : Evidence} {index : Nat} {frame : FrameCandidate} {sheet : Sheet}
    (h : planSheet tables platform config inspection evidence index frame = .ok sheet)
    (hmatched : sheet.status = .matched) : SheetOk config index sheet := by
  obtain ⟨found, hfound, h⟩ := bind_eq_ok.1 h
  cases found with
  | none =>
    obtain rfl := pure_eq_ok.1 h
    cases hmatched
  | some p =>
    have hp := matchPaperProfile_mem hfound
    dsimp only at h
    generalize (if p.templateDrawing = none then none else evidence.get p.id) = external at h
    obtain ⟨hasset, h⟩ := matched_of_ite h hmatched (by rintro ⟨⟩)
    have hpayload : PayloadOk config (profilePayload p external) := by
      refine profilePayload_ok hconfig hp fun e he hdrawing => ?_
      by_contra hne
      refine hasset ⟨hdrawing, ?_⟩
      rw [he]
      exact decide_eq_true hne
    obtain ⟨-, h⟩ := matched_of_ite h hmatched (by rintro ⟨⟩)
    obtain ⟨-, h⟩ := matched_of_ite h hmatched (by rintro ⟨⟩)
    obtain ⟨-, h⟩ := matched_of_ite h hmatched (by rintro ⟨⟩)
    obtain ⟨-, h⟩ := matched_of_ite h hmatched (by rintro ⟨⟩)
    split at h
    · obtain rfl := pure_eq_ok.1 h
      cases hmatched
    · obtain ⟨-, h⟩ := matched_of_ite h hmatched (by rintro ⟨⟩)
      obtain rfl := pure_eq_ok.1 h
      exact ⟨⟨_, rfl, hpayload⟩, rfl⟩

theorem sheets_ok (hconfig : ConfigOk config) {inspection : DrawingInspection}
    {evidence : Evidence} {frames : List FrameCandidate} {sheets : List Sheet} {n : Nat}
    (h : List.Forall₂ (fun x y => planSheet tables platform config inspection evidence x.2 x.1 =
      .ok y) (frames.zipIdx n) sheets) (hmatched : ∀ sheet ∈ sheets, sheet.status = .matched) :
    ∀ e ∈ sheets.zipIdx n, SheetOk config e.2 e.1 := by
  induction frames generalizing sheets n with
  | nil =>
    obtain rfl := List.forall₂_nil_left_iff.1 h
    exact fun e he => absurd he List.not_mem_nil
  | cons frame frames ih =>
    obtain ⟨sheet, rest, hsheet, hrest, rfl⟩ := List.forall₂_cons_left_iff.1 h
    rw [List.forall_mem_cons] at hmatched
    rw [List.zipIdx_cons, List.forall_mem_cons]
    exact ⟨planSheet_ok hconfig hsheet hmatched.1, ih hrest hmatched.2⟩

theorem createPublishPlan_ok (hconfig : ConfigOk config)
    {digest : Path → Option Fingerprint → List Sheet → String} {inspection : DrawingInspection}
    {fingerprint : Option Fingerprint} {evidence : Evidence} {plan : PublishPlan}
    (h : createPublishPlan tables platform config digest inspection fingerprint evidence = .ok plan)
    (hmatched : ∀ sheet ∈ plan.sheets, sheet.status = .matched) :
    ∀ e ∈ plan.sheets.zipIdx 1, SheetOk config e.2 e.1 := by
  obtain ⟨sheets, hsheets, h⟩ := bind_eq_ok.1 h
  obtain rfl := pure_eq_ok.1 h
  exact sheets_ok hconfig (mapM_eq_ok.1 hsheets) hmatched

end Plan

/-! ### The template assets -/

/-- The template assets of the sheets, one for each sheet that has one. -/
def planAssets (sheets : List Sheet) : List TemplateAsset :=
  sheets.filterMap fun sheet => sheet.profile.bind ProfilePayload.templateAsset

theorem collectAssets_ok {sheets : List Sheet} {found assets : List TemplateAsset}
    (h : collectAssets found sheets = .ok assets)
    (hfound : (found.map TemplateAsset.id).Nodup) :
    (assets.map TemplateAsset.id).Nodup ∧
      ∀ a, a ∈ assets ↔ a ∈ found ∨ a ∈ planAssets sheets := by
  induction sheets generalizing found with
  | nil =>
    obtain rfl := pure_eq_ok.1 h
    exact ⟨hfound, fun a => by simp [planAssets]⟩
  | cons sheet sheets ih =>
    rw [collectAssets] at h
    cases hprofile : sheet.profile with
    | none =>
      rw [hprofile] at h
      cases h
    | some profile =>
      rw [hprofile] at h
      dsimp only at h
      cases hasset : profile.templateAsset with
      | none =>
        rw [hasset] at h
        have hsame : planAssets (sheet :: sheets) = planAssets sheets := by
          simp [planAssets, hprofile, hasset]
        rw [hsame]
        exact ih h hfound
      | some asset =>
        rw [hasset] at h
        dsimp only at h
        have hcons : planAssets (sheet :: sheets) = asset :: planAssets sheets := by
          simp [planAssets, hprofile, hasset]
        rw [hcons]
        cases hfind : found.find? fun previous => previous.id = asset.id with
        | none =>
          rw [hfind] at h
          have hnew : asset.id ∉ found.map TemplateAsset.id := by
            intro hmem
            obtain ⟨previous, hprevious, hid⟩ := List.mem_map.1 hmem
            exact absurd hid (by simpa using List.find?_eq_none.1 hfind previous hprevious)
          obtain ⟨hnodup, hmem⟩ := ih h (by
            rw [List.map_append]
            exact hfound.append (List.nodup_singleton _) (by simpa using hnew))
          refine ⟨hnodup, fun a => ?_⟩
          rw [hmem, List.mem_append, List.mem_singleton, List.mem_cons, or_assoc]
        | some previous =>
          rw [hfind] at h
          obtain ⟨hsame, h⟩ := (require_bind_eq_ok _ _ _ _).1 h
          have hprevious := List.mem_of_find?_eq_some hfind
          rw [hsame] at hprevious
          obtain ⟨hnodup, hmem⟩ := ih h hfound
          refine ⟨hnodup, fun a => ?_⟩
          rw [hmem, List.mem_cons]
          constructor
          · rintro (ha | ha)
            · exact .inl ha
            · exact .inr (.inr ha)
          · rintro (ha | rfl | ha)
            · exact .inl ha
            · exact .inl hprevious
            · exact .inr ha

/-! ### The staged job -/

section Staged

variable (tables : Tables) (sources : Sources) (job : Job)

/-- What the path of a template resolves to. -/
def resolvedTemplate (asset : TemplateAsset) : Path :=
  (sources.requireTemplate asset.source).toOption.getD []

def resolvedDrawing (plan : PublishPlan) : Path :=
  (sources.requireDrawing plan.drawing).toOption.getD []

/-- The name that a template is copied to. -/
def stagedName (asset : TemplateAsset) : String :=
  String.ofList (asset.id.toList ++ lowerSuffix (resolvedTemplate sources asset))

def stagedEntry (asset : TemplateAsset) : TemplateEntry where
  id := asset.id
  sourceTemplate := resolvedTemplate sources asset
  stagedTemplate := job.root ++ ["source", "templates"] ++ [stagedName sources asset]
  sha256 := asset.sha256
  sizeBytes := asset.sizeBytes
  layout := asset.layout
  pageSetup := asset.pageSetup

def stagedAssets (plan : PublishPlan) : List TemplateAsset :=
  ((collectAssets [] plan.sheets).toOption.getD []).insertionSort fun a b => a.id ≤ b.id

def stagedOutputs (plan : PublishPlan) : List OutputEntry :=
  ((plan.sheets.zipIdx 1).mapM fun (sheet, index) =>
    outputEntry tables (job.root ++ ["output"]) (resolvedDrawing sources plan) index
      sheet).toOption.getD []

/-- The manifest, by what it is made of. -/
def stagedManifest (plan : PublishPlan) : Manifest where
  schemaVersion := 1
  jobId := job.id
  state := "staged"
  createdUtc := job.createdUtc
  planId := plan.planId
  sourceDrawing := resolvedDrawing sources plan
  sourceFingerprint := plan.drawingFingerprint.getD ⟨"", 0, 0⟩
  stagedDrawing := job.root ++ ["source", (resolvedDrawing sources plan).getLastD ""]
  outputDirectory := job.root ++ ["output"]
  templateAssets := (stagedAssets plan).map (stagedEntry sources job)
  outputs := stagedOutputs tables sources job plan

def TemplateEntry.content (entry : TemplateEntry) : Content := ⟨entry.sha256, entry.sizeBytes⟩

def TemplateEntry.key (entry : TemplateEntry) : List (List Char) :=
  fileKey tables entry.stagedTemplate

/-- Files after entries were copied to their keys, one after the other. -/
def copied (files : Files) (entries : List TemplateEntry) : Files :=
  entries.foldl (fun files entry => files.set (entry.key tables) entry.content) files

variable {tables sources job}

theorem stageTemplate_ok {files files' : Files} {asset : TemplateAsset} {entry : TemplateEntry}
    (h : stageTemplate tables sources (job.root ++ ["source", "templates"]) files asset =
      .ok (files', entry)) :
    entry = stagedEntry sources job asset ∧
      isTemplatePath (resolvedTemplate sources asset) = true ∧
      files' = files.set (entry.key tables) entry.content := by
  obtain ⟨source, hsource, h⟩ := bind_eq_ok.1 h
  obtain ⟨htemplate, h⟩ := (require_bind_eq_ok _ _ _ _).1 h
  obtain ⟨current, -, h⟩ := bind_eq_ok.1 h
  obtain ⟨hcurrent, h⟩ := (require_bind_eq_ok _ _ _ _).1 h
  obtain ⟨-, h⟩ := (require_bind_eq_ok _ _ _ _).1 h
  have hresolved : resolvedTemplate sources asset = source := by
    rw [resolvedTemplate, hsource]
    rfl
  obtain ⟨rfl, rfl⟩ := Prod.mk.inj (pure_eq_ok.1 h)
  subst hcurrent
  refine ⟨?_, hresolved ▸ htemplate, rfl⟩
  rw [stagedEntry, stagedName, hresolved]

theorem stageTemplates_ok {files files' : Files} {assets : List TemplateAsset}
    {entries : List TemplateEntry}
    (h : stageTemplates tables sources (job.root ++ ["source", "templates"]) files assets =
      .ok (files', entries)) :
    entries = assets.map (stagedEntry sources job) ∧
      (∀ asset ∈ assets, isTemplatePath (resolvedTemplate sources asset) = true) ∧
      files' = copied tables files entries := by
  induction assets generalizing files entries with
  | nil =>
    obtain ⟨rfl, rfl⟩ := Prod.mk.inj (pure_eq_ok.1 h)
    exact ⟨rfl, fun asset hasset => absurd hasset List.not_mem_nil, rfl⟩
  | cons asset assets ih =>
    obtain ⟨⟨files₁, entry⟩, hentry, h⟩ := bind_eq_ok.1 h
    obtain ⟨⟨files₂, rest⟩, hrest, h⟩ := bind_eq_ok.1 h
    obtain ⟨rfl, rfl⟩ := Prod.mk.inj (pure_eq_ok.1 h)
    obtain ⟨hasset, htemplate, rfl⟩ := stageTemplate_ok hentry
    obtain ⟨hassets, htemplates, rfl⟩ := ih hrest
    exact ⟨by rw [hasset, hassets]; rfl, List.forall_mem_cons.2 ⟨htemplate, htemplates⟩, rfl⟩

theorem copied_other {files : Files} {entries : List TemplateEntry} {key : List (List Char)}
    (h : ∀ entry ∈ entries, entry.key tables ≠ key) :
    (copied tables files entries).get key = files.get key := by
  induction entries generalizing files with
  | nil => rfl
  | cons entry entries ih =>
    obtain ⟨hentry, hentries⟩ := List.forall_mem_cons.1 h
    rw [copied, List.foldl_cons]
    exact (ih hentries).trans (Dict.get_set_other _ _ (Ne.symm hentry))

/-- At a key there is the content of the last entry that has it. -/
theorem copied_key {files : Files} {entries : List TemplateEntry} {key : List (List Char)}
    (h : ∃ entry ∈ entries, entry.key tables = key) : ∃ last ∈ entries, last.key tables = key ∧
      (copied tables files entries).get key = some last.content := by
  induction entries generalizing files with
  | nil =>
    obtain ⟨entry, hentry, -⟩ := h
    cases hentry
  | cons first entries ih =>
    rw [copied, List.foldl_cons]
    by_cases hlater : ∃ later ∈ entries, later.key tables = key
    · obtain ⟨last, hlast, hkey, hget⟩ := ih hlater
      exact ⟨last, List.mem_cons_of_mem _ hlast, hkey, hget⟩
    · obtain ⟨entry, hentry, hkey⟩ := h
      rcases List.mem_cons.1 hentry with rfl | hentry
      · refine ⟨entry, List.mem_cons_self, hkey, ?_⟩
        have hother := @copied_other tables (files.set (entry.key tables) entry.content) entries key
          fun other hmem heq => hlater ⟨other, hmem, heq⟩
        rw [copied] at hother
        rw [hother, hkey, Dict.get_set_same]
      · exact absurd ⟨entry, hentry, hkey⟩ hlater

/-- Every file is the one of its entry exactly if entries with one key have one content. -/
theorem copied_iff {files : Files} {entries : List TemplateEntry} :
    (∀ entry ∈ entries, (copied tables files entries).get (entry.key tables) =
      some entry.content) ↔
      ∀ a ∈ entries, ∀ b ∈ entries, a.key tables = b.key tables → a.content = b.content := by
  constructor
  · intro h a ha b hb hkey
    have hget := h a ha
    rw [hkey, h b hb] at hget
    exact (Option.some.inj hget).symm
  · intro h entry hentry
    obtain ⟨last, hlast, hkey, hget⟩ := @copied_key tables files entries _ ⟨entry, hentry, rfl⟩
    rw [hget, h last hlast entry hentry hkey]

/-- What a staged job is. -/
structure StagedAs (tables : Tables) (sources : Sources) (job : Job) (plan : PublishPlan)
    (manifest : Manifest) (files : Files) : Prop where
  manifest_eq : manifest = stagedManifest tables sources job plan
  drawing : lowerSuffix (resolvedDrawing sources plan) = ".dwg".toList
  fingerprint : ∃ current, plan.drawingFingerprint = some current ∧
    files = copied tables (Dict.empty.set (fileKey tables manifest.stagedDrawing)
      ⟨current.sha256, current.sizeBytes⟩) manifest.templateAssets
  assets : ∀ a, a ∈ stagedAssets plan ↔ a ∈ planAssets plan.sheets
  distinct : ((stagedAssets plan).map TemplateAsset.id).Nodup
  templates : ∀ a ∈ stagedAssets plan, isTemplatePath (resolvedTemplate sources a) = true
  outputs : List.Forall₂ (fun x output => outputEntry tables (job.root ++ ["output"])
    (resolvedDrawing sources plan) x.2 x.1 = .ok output) (plan.sheets.zipIdx 1) manifest.outputs

theorem stagePublishJob_ok {digest : Path → Option Fingerprint → List Sheet → String}
    {config : CadPlotConfig} {plan : PublishPlan} {approvedPlanId : String} {manifest : Manifest}
    {files : Files}
    (h : stagePublishJob tables digest sources job config plan approvedPlanId =
      .ok (manifest, files)) :
    validatePublishPlan digest plan = .ok () ∧ StagedAs tables sources job plan manifest files := by
  obtain ⟨_, hvalid, h⟩ := bind_eq_ok.1 h
  obtain ⟨-, h⟩ := (require_bind_eq_ok _ _ _ _).1 h
  obtain ⟨-, h⟩ := (require_bind_eq_ok _ _ _ _).1 h
  obtain ⟨source, hsource, h⟩ := bind_eq_ok.1 h
  obtain ⟨hdwg, h⟩ := (require_bind_eq_ok _ _ _ _).1 h
  obtain ⟨current, -, h⟩ := bind_eq_ok.1 h
  obtain ⟨hcurrent, h⟩ := (require_bind_eq_ok _ _ _ _).1 h
  obtain ⟨assets, hassets, h⟩ := bind_eq_ok.1 h
  obtain ⟨-, h⟩ := (require_bind_eq_ok _ _ _ _).1 h
  obtain ⟨⟨files', entries⟩, hentries, h⟩ := bind_eq_ok.1 h
  obtain ⟨outputs, houtputs, h⟩ := bind_eq_ok.1 h
  obtain ⟨rfl, rfl⟩ := Prod.mk.inj (pure_eq_ok.1 h)
  have hresolved : resolvedDrawing sources plan = source := by
    rw [resolvedDrawing, hsource]
    rfl
  have hsorted : stagedAssets plan = assets.insertionSort fun a b => a.id ≤ b.id := by
    rw [stagedAssets, hassets]
    rfl
  have hstagedOutputs : stagedOutputs tables sources job plan = outputs := by
    rw [stagedOutputs, hresolved, houtputs]
    rfl
  obtain ⟨hnodup, hmem⟩ := collectAssets_ok hassets List.nodup_nil
  have hperm := List.perm_insertionSort (fun a b : TemplateAsset => a.id ≤ b.id) assets
  obtain ⟨hmap, htemplates, hfiles⟩ := stageTemplates_ok hentries
  rw [← hsorted] at hmap htemplates
  refine ⟨hvalid, ?_, hresolved ▸ hdwg, ⟨current, hcurrent.symm, hfiles⟩, fun a => ?_, ?_,
    htemplates, ?_⟩
  · rw [stagedManifest, hresolved, ← hcurrent, hstagedOutputs, hmap]
    rfl
  · rw [hsorted, hperm.mem_iff, hmem]
    simp
  · rw [hsorted]
    exact (hperm.map TemplateAsset.id).nodup_iff.2 hnodup
  · rw [hresolved]
    exact mapM_eq_ok.1 houtputs

end Staged

end CadPlot.Publish
