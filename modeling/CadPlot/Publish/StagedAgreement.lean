import CadPlot.Publish.StagedReaders
import Mathlib.Data.List.Pairwise

/-!
# A staged job and its readers

The audit and the plug-in both accept a staged job exactly if its plan meets what
the planner and the staging leave unchecked.
-/

namespace CadPlot.Publish

open Gateway (require require_eq_ok require_bind_eq_ok)

theorem check_bind_eq_ok {β : Type} {check : Except String Unit} {f : Unit → Except String β}
    {b : β} : (check >>= f) = .ok b ↔ check = .ok () ∧ f () = .ok b := by
  rw [bind_eq_ok]
  exact ⟨fun ⟨_, hcheck, hf⟩ => ⟨hcheck, hf⟩, fun ⟨hcheck, hf⟩ => ⟨(), hcheck, hf⟩⟩

section Lists

variable {α β : Type} {R : α → β → Prop} {xs : List α} {ys : List β}

theorem forall_iff_of_forall₂ {Q : α → Prop} {P : β → Prop} (h : List.Forall₂ R xs ys)
    (hiff : ∀ x ∈ xs, ∀ y, R x y → (Q x ↔ P y)) : (∀ x ∈ xs, Q x) ↔ ∀ y ∈ ys, P y := by
  induction h with
  | nil => simp
  | cons hxy _ ih =>
    obtain ⟨hx, hxs⟩ := List.forall_mem_cons.1 hiff
    rw [List.forall_mem_cons, List.forall_mem_cons, hx _ hxy, ih hxs]

theorem pairwise_of_forall₂ {S : α → α → Prop} {T : β → β → Prop} (h : List.Forall₂ R xs ys)
    (hS : xs.Pairwise S)
    (himp : ∀ x ∈ xs, ∀ x' ∈ xs, ∀ y y', R x y → R x' y' → S x x' → T y y') : ys.Pairwise T := by
  induction h with
  | nil => exact .nil
  | @cons x y xs ys hxy hrest ih =>
    obtain ⟨hhead, htail⟩ := List.pairwise_cons.1 hS
    refine List.pairwise_cons.2 ⟨fun y' hy' => ?_, ih htail fun a ha b hb =>
      himp a (List.mem_cons_of_mem _ ha) b (List.mem_cons_of_mem _ hb)⟩
    obtain ⟨x', hx', hx'y'⟩ := forall₂_mem_right hrest hy'
    exact himp x List.mem_cons_self x' (List.mem_cons_of_mem _ hx') y y' hxy hx'y' (hhead x' hx')

/-- What is made of numbered elements has their numbers. -/
theorem forall₂_zipIdx {R : α × Nat → β → Prop} {n k : Nat} (h : List.Forall₂ R (xs.zipIdx n) ys) :
    List.Forall₂ (fun x y => R x y.1 ∧ x.2 + k = y.2 + n) (xs.zipIdx n) (ys.zipIdx k) := by
  induction xs generalizing n k ys with
  | nil =>
    obtain rfl := List.forall₂_nil_left_iff.1 h
    exact .nil
  | cons x xs ih =>
    obtain ⟨y, rest, hxy, hrest, rfl⟩ := List.forall₂_cons_left_iff.1 h
    rw [List.zipIdx_cons, List.zipIdx_cons]
    refine .cons ⟨hxy, Nat.add_comm _ _⟩ ((@ih _ (n + 1) (k + 1) hrest).imp ?_)
    rintro a b ⟨hab, hsum⟩
    exact ⟨hab, by omega⟩

theorem pairwise_zipIdx (xs : List α) (n : Nat) :
    (xs.zipIdx n).Pairwise fun a b => a.2 ≠ b.2 := by
  have hsnd : ((xs.zipIdx n).map Prod.snd).Nodup := by
    rw [List.zipIdx_map_snd]
    exact List.nodup_range'
  exact List.pairwise_map.1 hsnd

end Lists

/-- What holds of a ready plan that was validated. -/
structure PlanOk (config : CadPlotConfig) (plan : PublishPlan) : Prop where
  loaded : ConfigOk config
  sheets : ∀ e ∈ plan.sheets.zipIdx 1, SheetOk config e.2 e.1
  count : 1 ≤ plan.sheets.length ∧ plan.sheets.length ≤ 5000
  fingerprint : ∀ current, plan.drawingFingerprint = some current →
    Protocol.isLowerHexText 64 current.sha256.toList = true

/-- What a template asset of such a plan is. -/
structure AssetOk (config : CadPlotConfig) (asset : TemplateAsset) : Prop where
  mem : asset.id ∈ config.paperProfiles.map PaperProfile.id
  id : isSafeId 64 asset.id = true
  layout : ∃ layout, asset.layout = some layout ∧ IsProfileText 255 layout
  pageSetup : IsProfileText 255 asset.pageSetup
  sha256 : Protocol.isLowerHexText 64 asset.sha256.toList = true

section Agreement

variable {tables : Tables} {sources : Sources} {job : Job} {config : CadPlotConfig}
  {plan : PublishPlan} {manifest : Manifest} {files : Files}

theorem mem_planAssets {sheets : List Sheet} {a : TemplateAsset} : a ∈ planAssets sheets ↔
    ∃ sheet ∈ sheets, ∃ profile, sheet.profile = some profile ∧
      profile.templateAsset = some a := by
  simp only [planAssets, List.mem_filterMap, Option.bind_eq_some_iff]

theorem mem_zipIdx_of_mem {α : Type} {xs : List α} {x : α} (h : x ∈ xs) (n : Nat) :
    ∃ i, (x, i) ∈ xs.zipIdx n := by
  rw [← List.zipIdx_map_fst n xs] at h
  obtain ⟨e, he, rfl⟩ := List.mem_map.1 h
  exact ⟨e.2, he⟩

theorem PlanOk.asset (h : PlanOk config plan) {a : TemplateAsset}
    (ha : a ∈ planAssets plan.sheets) : AssetOk config a := by
  obtain ⟨sheet, hsheet, profile, hprofile, hasset⟩ := mem_planAssets.1 ha
  obtain ⟨index, he⟩ := mem_zipIdx_of_mem hsheet 1
  obtain ⟨profile', hprofile', hpayload⟩ := (h.sheets _ he).profile
  obtain rfl := Option.some.inj (hprofile.symm.trans hprofile')
  obtain ⟨hid, hlayout, hsome, hsetup, hsha⟩ := hpayload.asset a hasset
  obtain ⟨layout, hlayoutSome⟩ := Option.ne_none_iff_exists'.1 hsome
  refine ⟨hid ▸ hpayload.mem, hid ▸ hpayload.id, ⟨layout, hlayoutSome, ?_⟩,
    hsetup ▸ hpayload.pageSetup, hsha⟩
  exact hpayload.templateLayout layout (hlayout ▸ hlayoutSome)

theorem samePath_refl (table : Char → List Char) (path : Path) : samePath table path path = true :=
  decide_eq_true rfl

theorem stagedName_eq {a : TemplateAsset}
    (h : isTemplatePath (resolvedTemplate sources a) = true) :
    ∃ extension, (extension = "dwg".toList ∨ extension = "dwt".toList) ∧
      (stagedName sources a).toList = a.id.toList ++ '.' :: extension := by
  have hname : (stagedName sources a).toList =
      a.id.toList ++ lowerSuffix (resolvedTemplate sources a) := String.toList_ofList
  rcases of_decide_eq_true h with h | h
  · exact ⟨_, .inl rfl, by rw [hname, h]; rfl⟩
  · exact ⟨_, .inr rfl, by rw [hname, h]; rfl⟩

/-- A template is staged in its directory, with the suffix of a template. -/
theorem stagedEntry_boundary (hid : isSafeId 64 a.id = true)
    (h : isTemplatePath (resolvedTemplate sources a) = true) :
    (stagedEntry sources job a).stagedTemplate.dropLast = job.root ++ ["source", "templates"] ∧
      isTemplatePath (stagedEntry sources job a).stagedTemplate = true ∧
      (hasExtension tables (stagedEntry sources job a).stagedTemplate ".dwg" = true ∨
        hasExtension tables (stagedEntry sources job a).stagedTemplate ".dwt" = true) := by
  obtain ⟨extension, hextension, hname⟩ := stagedName_eq h
  have hne : a.id.toList ≠ [] := by
    obtain ⟨⟨hsome, -⟩, -⟩ := isSafeId_iff.1 hid
    exact List.length_pos_iff.1 hsome
  have hlast : (stagedEntry sources job a).stagedTemplate.getLastD "" = stagedName sources a := by
    rw [stagedEntry, List.getLastD_concat]
  refine ⟨by rw [stagedEntry, List.dropLast_concat], ?_, ?_⟩
  · rw [isTemplatePath, lowerSuffix, hlast, hname]
    rcases hextension with rfl | rfl
    · rw [suffix_append hne (by decide) (by decide)]
      decide
    · rw [suffix_append hne (by decide) (by decide)]
      decide
  · rw [hasExtension, hasExtension, hlast, hname]
    rcases hextension with rfl | rfl
    · rw [getExtension_append _ (by decide) (by decide)]
      exact .inl (decide_eq_true rfl)
    · rw [getExtension_append _ (by decide) (by decide)]
      exact .inr (decide_eq_true rfl)

theorem assetLoads_iff {a : TemplateAsset} (ha : AssetOk config a)
    (h : isTemplatePath (resolvedTemplate sources a) = true) :
    AssetLoads tables files (job.root ++ ["source", "templates"]) (stagedEntry sources job a) ↔
      1 ≤ a.sizeBytes ∧ files.get ((stagedEntry sources job a).key tables) =
        some (stagedEntry sources job a).content := by
  obtain ⟨hroot, htemplate, -⟩ := @stagedEntry_boundary tables sources job a ha.id h
  obtain ⟨layout, hlayout, htext⟩ := ha.layout
  constructor
  · exact fun h => ⟨h.fingerprint.1, h.file⟩
  · rintro ⟨hsize, hfile⟩
    refine ⟨ha.id, ⟨?_, ha.pageSetup.validResourceName⟩, ⟨?_, htemplate⟩, ⟨hsize, ha.sha256⟩, hfile⟩
    · change validResourceName a.layout = true
      rw [hlayout]
      exact htext.validResourceName
    · rw [hroot]
      exact samePath_refl _ _

theorem assetValid_iff {a : TemplateAsset} (ha : AssetOk config a)
    (h : isTemplatePath (resolvedTemplate sources a) = true) :
    AssetValid tables files (job.root ++ ["source", "templates"]) (stagedEntry sources job a) ↔
      ((a.layout.any safeResourceName = true ∧ safeResourceName a.pageSetup = true) ∧
        tables.fullPath (stagedEntry sources job a).stagedTemplate = true) ∧
        1 ≤ a.sizeBytes ∧ files.get ((stagedEntry sources job a).key tables) =
          some (stagedEntry sources job a).content := by
  obtain ⟨hroot, -, hextension⟩ := @stagedEntry_boundary tables sources job a ha.id h
  constructor
  · exact fun h => ⟨⟨h.names, h.path⟩, h.fingerprint.2, h.file⟩
  · rintro ⟨⟨hnames, hpath⟩, hsize, hfile⟩
    refine ⟨ha.id, hnames, ⟨ha.sha256, hsize⟩, hpath, ⟨?_, hextension⟩, hfile⟩
    rw [hroot]
    exact samePath_refl _ _

theorem StagedAs.entries (h : StagedAs tables sources job plan manifest files) :
    manifest.templateAssets = (stagedAssets plan).map (stagedEntry sources job) := by
  rw [h.manifest_eq]
  rfl

theorem StagedAs.forall_entries (h : StagedAs tables sources job plan manifest files)
    {P : TemplateEntry → Prop} : (∀ e ∈ manifest.templateAssets, P e) ↔
      ∀ a ∈ planAssets plan.sheets, P (stagedEntry sources job a) := by
  rw [h.entries, List.forall_mem_map]
  exact forall_congr' fun a => imp_congr_left (h.assets a)

theorem StagedAs.template (h : StagedAs tables sources job plan manifest files) {a : TemplateAsset}
    (ha : a ∈ planAssets plan.sheets) : isTemplatePath (resolvedTemplate sources a) = true :=
  h.templates a ((h.assets a).2 ha)

theorem StagedAs.eq_of_id (h : StagedAs tables sources job plan manifest files)
    {a b : TemplateAsset} (ha : a ∈ planAssets plan.sheets) (hb : b ∈ planAssets plan.sheets)
    (hid : a.id = b.id) : a = b :=
  List.inj_on_of_nodup_map h.distinct ((h.assets a).2 ha) ((h.assets b).2 hb) hid

/-- Two assets of different ids have different layouts, under a table. -/
def LayoutsApart (table : Char → List Char) (plan : PublishPlan) : Prop :=
  ∀ a ∈ planAssets plan.sheets, ∀ b ∈ planAssets plan.sheets, a.id ≠ b.id →
    a.layout.map (fold table) ≠ b.layout.map (fold table)

theorem StagedAs.pairwise_iff (h : StagedAs tables sources job plan manifest files)
    (table : Char → List Char) : (manifest.templateAssets.Pairwise fun x y => x.id ≠ y.id ∧
      x.layout.map (fold table) ≠ y.layout.map (fold table)) ↔ LayoutsApart table plan := by
  rw [h.entries, List.pairwise_map]
  constructor
  · intro hpairs a ha b hb hid
    have hsymm : Std.Symm fun a b : TemplateAsset =>
        (stagedEntry sources job a).id ≠ (stagedEntry sources job b).id ∧
          (stagedEntry sources job a).layout.map (fold table) ≠
            (stagedEntry sources job b).layout.map (fold table) :=
      ⟨fun _ _ hab => ⟨hab.1.symm, hab.2.symm⟩⟩
    have hne : a ≠ b := fun heq => hid (congrArg TemplateAsset.id heq)
    exact (hpairs.forall ((h.assets a).2 ha) ((h.assets b).2 hb) hne).2
  · intro hapart
    refine (List.Nodup.of_map _ h.distinct).pairwise_of_forall_ne fun a ha b hb hne => ?_
    have ha := (h.assets a).1 ha
    have hb := (h.assets b).1 hb
    have hid : a.id ≠ b.id := fun hid => hne (h.eq_of_id ha hb hid)
    exact ⟨hid, hapart a ha b hb hid⟩

theorem StagedAs.count (h : StagedAs tables sources job plan manifest files)
    (hplan : PlanOk config plan) : manifest.templateAssets.length ≤ 100 := by
  have hsubset : (stagedAssets plan).map TemplateAsset.id ⊆
      config.paperProfiles.map PaperProfile.id := by
    intro id hid
    obtain ⟨a, ha, rfl⟩ := List.mem_map.1 hid
    exact (hplan.asset ((h.assets a).1 ha)).mem
  have hlength := (h.distinct.subperm hsubset).length_le
  rw [List.length_map, List.length_map] at hlength
  rw [h.entries, List.length_map]
  exact hlength.trans hplan.loaded.count

/-- Templates that are copied to one file are the same file. -/
def FilesApart (tables : Tables) (sources : Sources) (plan : PublishPlan) : Prop :=
  ∀ a ∈ planAssets plan.sheets, ∀ b ∈ planAssets plan.sheets,
    fold tables.fileName (stagedName sources a) = fold tables.fileName (stagedName sources b) →
      a.sha256 = b.sha256 ∧ a.sizeBytes = b.sizeBytes

theorem key_eq_iff {a b : TemplateAsset} :
    (stagedEntry sources job a).key tables = (stagedEntry sources job b).key tables ↔
      fold tables.fileName (stagedName sources a) =
        fold tables.fileName (stagedName sources b) := by
  simp [TemplateEntry.key, fileKey, stagedEntry]

theorem StagedAs.files_iff (h : StagedAs tables sources job plan manifest files) :
    (∀ a ∈ planAssets plan.sheets, files.get ((stagedEntry sources job a).key tables) =
      some (stagedEntry sources job a).content) ↔ FilesApart tables sources plan := by
  obtain ⟨current, -, hfiles⟩ := h.fingerprint
  rw [← h.forall_entries (P := fun e => files.get (e.key tables) = some e.content), hfiles,
    copied_iff, h.forall_entries]
  refine forall_congr' fun a => imp_congr_right fun _ => ?_
  rw [h.forall_entries]
  refine forall_congr' fun b => imp_congr_right fun _ => ?_
  rw [key_eq_iff]
  refine imp_congr_right fun _ => ?_
  simp [TemplateEntry.content, stagedEntry]

/-- The staged drawing is never written over. -/
theorem StagedAs.drawing_file (h : StagedAs tables sources job plan manifest files) :
    files.get (fileKey tables manifest.stagedDrawing) =
      some ⟨manifest.sourceFingerprint.sha256, manifest.sourceFingerprint.sizeBytes⟩ := by
  obtain ⟨current, hcurrent, hfiles⟩ := h.fingerprint
  have hsource : manifest.sourceFingerprint = current := by
    rw [h.manifest_eq, stagedManifest, hcurrent]
    rfl
  have hother : ∀ entry ∈ manifest.templateAssets,
      entry.key tables ≠ fileKey tables manifest.stagedDrawing := by
    rw [h.entries, h.manifest_eq]
    rintro entry hentry heq
    obtain ⟨a, -, rfl⟩ := List.mem_map.1 hentry
    have hlength := congrArg List.length heq
    simp [TemplateEntry.key, fileKey, stagedEntry, stagedManifest] at hlength
  rw [hfiles, copied_other hother, Dict.get_set_same, hsource]

end Agreement

section Outputs

variable {tables : Tables} {sources : Sources} {job : Job} {config : CadPlotConfig}
  {plan : PublishPlan} {manifest : Manifest} {files : Files}

/-- What a sheet with a profile is published as. -/
def sheetOutput (tables : Tables) (sources : Sources) (job : Job) (plan : PublishPlan)
    (index : Nat) (sheet : Sheet) (profile : ProfilePayload) : OutputEntry where
  sheetIndex := index
  frameHandle := sheet.frameHandle
  pdf := job.root ++ ["output"] ++
    [pdfName tables (stem ((resolvedDrawing sources plan).getLastD "")) index profile.id]
  targetLayout := sheet.targetLayout
  pageSetup := profile.pageSetup
  plotter := profile.plotter
  plotStyle := profile.plotStyle
  canonicalMedia := profile.canonicalMedia
  templateLayout := profile.templateLayout
  templateAssetId := profile.templateAsset.map TemplateAsset.id
  plotGeometry := sheet.plotGeometry
  status := "pending"

theorem outputEntry_ok {index : Nat} {sheet : Sheet} {output : OutputEntry}
    (h : outputEntry tables (job.root ++ ["output"]) (resolvedDrawing sources plan) index sheet =
      .ok output) : ∃ profile, sheet.profile = some profile ∧
        output = sheetOutput tables sources job plan index sheet profile := by
  unfold outputEntry at h
  split at h
  · cases h
  · next profile hprofile => exact ⟨profile, hprofile, (pure_eq_ok.1 h).symm⟩

theorem pdfName_eq (tables : Tables) (stem : List Char) (index : Nat) (id : String) :
    ∃ back, (pdfName tables stem index id).toList = (paddedIndex index ++ '-' :: back) ++
      '.' :: "pdf".toList := by
  refine ⟨safeName tables stem ++ '-' :: safeName tables id.toList, ?_⟩
  rw [pdfName, String.toList_ofList]
  simp

theorem pdf_boundary (dir : Path) (stem : List Char) (index : Nat) (id : String) :
    lowerSuffix (dir ++ [pdfName tables stem index id]) = ".pdf".toList ∧
      hasExtension tables (dir ++ [pdfName tables stem index id]) ".pdf" = true := by
  obtain ⟨back, hname⟩ := pdfName_eq tables stem index id
  have hne : paddedIndex index ++ '-' :: back ≠ [] :=
    List.append_ne_nil_of_right_ne_nil _ (List.cons_ne_nil _ _)
  constructor
  · rw [lowerSuffix, List.getLastD_concat, hname, suffix_append hne (by decide) (by decide)]
    decide
  · rw [hasExtension, List.getLastD_concat, hname, getExtension_append _ (by decide) (by decide)]
    exact decide_eq_true rfl

/-- The files of different sheets have different names. -/
theorem pdfs_apart {table : Char → List Char} (h : ∀ c, c.isDigit = true → table c = [c])
    (dir : Path) (stem : List Char) {i j : Nat} (hi : i < 10000) (hj : j < 10000) (hij : i ≠ j)
    (id id' : String) : samePath table (dir ++ [pdfName tables stem i id])
      (dir ++ [pdfName tables stem j id']) = false := by
  obtain ⟨back, hname⟩ := pdfName_eq tables stem i id
  obtain ⟨back', hname'⟩ := pdfName_eq tables stem j id'
  refine decide_eq_false fun heq => hij ?_
  rw [List.map_append, List.map_append] at heq
  have hlast := List.head_eq_of_cons_eq (List.append_cancel_left heq)
  rw [fold, fold, hname, hname', List.append_assoc, List.append_assoc] at hlast
  exact @index_of_fold table h i j hi hj [] _ _ hlast

theorem layouts_apart {i j : Nat} (hi : i < 10000) (hj : j < 10000) (hij : i ≠ j)
    {layoutPrefix : String} (hsafe : isSafeId 32 layoutPrefix = true) (handle handle' : String) :
    fold tables.upper (targetLayoutName i handle layoutPrefix) ≠
      fold tables.upper (targetLayoutName j handle' layoutPrefix) := by
  obtain ⟨rest, hname, -⟩ := @targetLayoutName_eq i handle layoutPrefix hi hsafe
  obtain ⟨rest', hname', -⟩ := @targetLayoutName_eq j handle' layoutPrefix hj hsafe
  intro heq
  rw [fold, fold, hname, hname'] at heq
  exact hij (index_of_fold tables.upper_digit hi hj heq)

/-- A layout of the drawing itself is not called like one of a template, under a table. -/
def InternalApart (table : Char → List Char) (plan : PublishPlan) (sheet : Sheet) : Prop :=
  ∀ profile, sheet.profile = some profile → profile.templateAsset = none →
    ∀ layout, profile.templateLayout = some layout → ∀ a ∈ planAssets plan.sheets,
      a.layout.map (fold table) ≠ some (fold table layout)

theorem StagedAs.find (h : StagedAs tables sources job plan manifest files) {a : TemplateAsset}
    (ha : a ∈ planAssets plan.sheets) :
    manifest.templateAssets.find? (fun asset => asset.id = a.id) =
      some (stagedEntry sources job a) := by
  have hmem : stagedEntry sources job a ∈ manifest.templateAssets := by
    rw [h.entries]
    exact List.mem_map_of_mem ((h.assets a).2 ha)
  cases hfind : manifest.templateAssets.find? fun asset => asset.id = a.id with
  | none =>
    have hne := List.find?_eq_none.1 hfind _ hmem
    exact absurd (decide_eq_true rfl) hne
  | some entry =>
    have hentry := List.mem_of_find?_eq_some hfind
    have hid : entry.id = a.id := by simpa using List.find?_some hfind
    rw [h.entries] at hentry
    obtain ⟨b, hb, rfl⟩ := List.mem_map.1 hentry
    rw [h.eq_of_id ((h.assets b).1 hb) ha hid]

theorem StagedAs.internal_iff (h : StagedAs tables sources job plan manifest files)
    (table : Char → List Char) {sheet : Sheet} {profile : ProfilePayload}
    (hprofile : sheet.profile = some profile) (hnone : profile.templateAsset = none) :
    (profile.templateLayout = none ∨ ∀ asset ∈ manifest.templateAssets,
      asset.layout.map (fold table) ≠ profile.templateLayout.map (fold table)) ↔
      InternalApart table plan sheet := by
  rw [h.forall_entries]
  constructor
  · rintro hor profile' hprofile' - layout hlayout a ha
    obtain rfl := Option.some.inj (hprofile.symm.trans hprofile')
    rcases hor with hno | hall
    · rw [hno] at hlayout
      cases hlayout
    · have hne := hall a ha
      rwa [hlayout] at hne
  · intro hinternal
    cases hlayout : profile.templateLayout with
    | none => exact .inl rfl
    | some layout => exact .inr (hinternal profile hprofile hnone layout hlayout)

/-- An external layout is the one of the asset that the sheet refers to. -/
theorem internalApart_of_asset (table : Char → List Char) {sheet : Sheet}
    {profile : ProfilePayload} (hprofile : sheet.profile = some profile) {a : TemplateAsset}
    (hasset : profile.templateAsset = some a) : InternalApart table plan sheet := by
  intro profile' hprofile' hnone
  obtain rfl := Option.some.inj (hprofile.symm.trans hprofile')
  rw [hasset] at hnone
  cases hnone

theorem StagedAs.loadsReference_iff (h : StagedAs tables sources job plan manifest files)
    {index : Nat} {sheet : Sheet} (hsheet : sheet ∈ plan.sheets) {profile : ProfilePayload}
    (hprofile : sheet.profile = some profile) (hpayload : PayloadOk config profile) :
    LoadsReference tables manifest.templateAssets
      (sheetOutput tables sources job plan index sheet profile) ↔
        InternalApart tables.casefold plan sheet := by
  cases hasset : profile.templateAsset with
  | none =>
    rw [← h.internal_iff _ hprofile hasset]
    simp only [LoadsReference, sheetOutput, hasset, Option.map_none]
  | some a =>
    obtain ⟨-, hlayout, -, hsetup, -⟩ := hpayload.asset a hasset
    refine iff_of_true ?_ (internalApart_of_asset _ hprofile hasset)
    simp only [LoadsReference, sheetOutput, hasset, Option.map_some]
    exact ⟨_, h.find (mem_planAssets.2 ⟨sheet, hsheet, profile, hprofile, hasset⟩), hlayout.symm,
      hsetup.symm⟩

theorem StagedAs.validReference_iff (h : StagedAs tables sources job plan manifest files)
    {index : Nat} {sheet : Sheet} (hsheet : sheet ∈ plan.sheets) {profile : ProfilePayload}
    (hprofile : sheet.profile = some profile) (hpayload : PayloadOk config profile) :
    ValidReference tables manifest.templateAssets
      (sheetOutput tables sources job plan index sheet profile) ↔
        InternalApart tables.upper plan sheet := by
  cases hasset : profile.templateAsset with
  | none =>
    rw [← h.internal_iff _ hprofile hasset]
    simp only [ValidReference, sheetOutput, hasset, Option.map_none]
  | some a =>
    obtain ⟨-, hlayout, hsome, hsetup, -⟩ := hpayload.asset a hasset
    refine iff_of_true ?_ (internalApart_of_asset _ hprofile hasset)
    simp only [ValidReference, sheetOutput, hasset, Option.map_some]
    exact ⟨_, h.find (mem_planAssets.2 ⟨sheet, hsheet, profile, hprofile, hasset⟩),
      hlayout ▸ hsome, hlayout.symm, hsetup.symm⟩

theorem forall_zipIdx {α : Type} {xs : List α} {n : Nat} {Q : α → Prop} :
    (∀ x ∈ xs.zipIdx n, Q x.1) ↔ ∀ x ∈ xs, Q x := by
  rw [← List.forall_mem_map (f := Prod.fst), List.zipIdx_map_fst]

theorem index_lt (hplan : PlanOk config plan) {x : Sheet × Nat}
    (hx : x ∈ plan.sheets.zipIdx 1) : x.2 < 10000 := by
  have hlt := (List.mem_zipIdx hx).2.1
  have hcount := hplan.count.2
  omega

/-- What is made of two sheets. -/
theorem StagedAs.pairwise_outputs (h : StagedAs tables sources job plan manifest files)
    {R : OutputEntry → OutputEntry → Prop}
    (hR : ∀ x ∈ plan.sheets.zipIdx 1, ∀ y ∈ plan.sheets.zipIdx 1, ∀ profile profile', x.2 ≠ y.2 →
      R (sheetOutput tables sources job plan x.2 x.1 profile)
        (sheetOutput tables sources job plan y.2 y.1 profile')) :
    manifest.outputs.Pairwise R := by
  refine pairwise_of_forall₂ h.outputs (pairwise_zipIdx _ _) ?_
  intro x hx y hy output output' hout hout' hne
  obtain ⟨profile, -, rfl⟩ := outputEntry_ok hout
  obtain ⟨profile', -, rfl⟩ := outputEntry_ok hout'
  exact hR x hx y hy profile profile' hne

/-- What the outputs pass in their places is what their sheets do. -/
theorem StagedAs.forall_outputs (h : StagedAs tables sources job plan manifest files)
    {P : Nat → OutputEntry → Prop} {Q : Nat → Sheet → Prop}
    (hPQ : ∀ index sheet profile, (sheet, index + 1) ∈ plan.sheets.zipIdx 1 →
      sheet.profile = some profile → (Q (index + 1) sheet ↔
        P index (sheetOutput tables sources job plan (index + 1) sheet profile))) :
    (∀ e ∈ manifest.outputs.zipIdx 0, P e.2 e.1) ↔ ∀ x ∈ plan.sheets.zipIdx 1, Q x.2 x.1 := by
  refine (forall_iff_of_forall₂ (Q := fun x => Q x.2 x.1) (P := fun e => P e.2 e.1)
    (forall₂_zipIdx h.outputs) ?_).symm
  rintro ⟨sheet, number⟩ hx ⟨output, index⟩ ⟨hout, hnumber⟩
  obtain rfl : number = index + 1 := hnumber
  obtain ⟨profile, hprofile, rfl⟩ := outputEntry_ok hout
  exact hPQ index sheet profile hx hprofile

theorem StagedAs.loads_outputs_iff (h : StagedAs tables sources job plan manifest files)
    (hplan : PlanOk config plan) :
    checkEach (loadOutput tables (job.root ++ ["output"]) manifest.templateAssets) []
      manifest.outputs = .ok () ↔
        ∀ sheet ∈ plan.sheets, InternalApart tables.casefold plan sheet := by
  rw [checkEach_eq_ok (P := fun _ output => (samePath tables.lower output.pdf.dropLast
    (job.root ++ ["output"]) = true ∧ lowerSuffix output.pdf = ".pdf".toList) ∧
      LoadsReference tables manifest.templateAssets output)
    fun before output => loadOutput_iff]
  have hpairs : manifest.outputs.Pairwise fun x y => samePath tables.lower x.pdf y.pdf = false :=
    h.pairwise_outputs fun x hx y hy profile profile' hne =>
      pdfs_apart tables.lower_digit _ _ (index_lt hplan hx) (index_lt hplan hy) hne _ _
  have houtputs := h.forall_outputs (Q := fun _ sheet => InternalApart tables.casefold plan sheet)
    (P := fun _ output => (samePath tables.lower output.pdf.dropLast
      (job.root ++ ["output"]) = true ∧ lowerSuffix output.pdf = ".pdf".toList) ∧
        LoadsReference tables manifest.templateAssets output)
    fun index sheet profile hx hprofile => by
    obtain ⟨profile', hprofile', hpayload⟩ := (hplan.sheets _ hx).profile
    obtain rfl := Option.some.inj (hprofile.symm.trans hprofile')
    have hsheet : sheet ∈ plan.sheets := List.fst_mem_of_mem_zipIdx hx
    rw [h.loadsReference_iff hsheet hprofile hpayload]
    refine (and_iff_right ⟨?_, (pdf_boundary _ _ _ _).1⟩).symm
    rw [sheetOutput, List.dropLast_concat]
    exact samePath_refl _ _
  have hsheets : (∀ x ∈ plan.sheets.zipIdx 1, InternalApart tables.casefold plan x.1) ↔
      ∀ sheet ∈ plan.sheets, InternalApart tables.casefold plan sheet := forall_zipIdx
  rw [← hsheets, ← houtputs]
  exact ⟨fun hall => hall.1, fun hall => ⟨hall, hpairs, fun y hy => absurd hy List.not_mem_nil⟩⟩

end Outputs

section Accepted

variable {tables : Tables} {sources : Sources} {job : Job} {config : CadPlotConfig}
  {plan : PublishPlan} {manifest : Manifest} {files : Files}

/-- What the planner leaves to be checked of a sheet at its place by the plug-in. -/
structure SheetPublishable (tables : Tables) (sources : Sources) (job : Job) (plan : PublishPlan)
    (index : Nat) (sheet : Sheet) : Prop where
  path : ∀ profile, sheet.profile = some profile →
    tables.fullPath (sheetOutput tables sources job plan index sheet profile).pdf = true
  handle : isNullOrWhiteSpace sheet.frameHandle = false
  layout : ∀ profile, sheet.profile = some profile → ∀ layout,
    profile.templateLayout = some layout → safeResourceName layout = true ∧
      fold tables.upper layout ≠ fold tables.upper sheet.targetLayout
  internal : InternalApart tables.upper plan sheet

/-- What a plan must meet besides what the configuration, the planner and the staging check. -/
structure Publishable (tables : Tables) (sources : Sources) (job : Job) (plan : PublishPlan) :
    Prop where
  fits : (manifestFile (stagedManifest tables sources job plan)).length ≤ maxManifestBytes
  drawing : ∀ current, plan.drawingFingerprint = some current → 1 ≤ current.sizeBytes
  sizes : ∀ a ∈ planAssets plan.sheets, 1 ≤ a.sizeBytes
  names : ∀ a ∈ planAssets plan.sheets,
    a.layout.any safeResourceName = true ∧ safeResourceName a.pageSetup = true
  templates : ∀ a ∈ planAssets plan.sheets,
    tables.fullPath (stagedEntry sources job a).stagedTemplate = true
  files : FilesApart tables sources plan
  layouts : LayoutsApart tables.casefold plan ∧ LayoutsApart tables.upper plan
  internal : ∀ sheet ∈ plan.sheets, InternalApart tables.casefold plan sheet
  sheets : ∀ x ∈ plan.sheets.zipIdx 1, SheetPublishable tables sources job plan x.2 x.1

theorem StagedAs.validates_outputs_iff (h : StagedAs tables sources job plan manifest files)
    (hplan : PlanOk config plan) :
    checkEach (validateOutput tables (job.root ++ ["output"]) manifest.templateAssets) []
      manifest.outputs = .ok () ↔
        ∀ x ∈ plan.sheets.zipIdx 1, SheetPublishable tables sources job plan x.2 x.1 := by
  rw [checkEach_eq_ok (P := OutputValid tables (job.root ++ ["output"]) manifest.templateAssets)
    fun before output => validateOutput_iff]
  have hpairs : manifest.outputs.Pairwise fun x y =>
      samePath tables.upper x.pdf y.pdf = false ∧
        fold tables.upper x.targetLayout ≠ fold tables.upper y.targetLayout := by
    refine h.pairwise_outputs fun x hx y hy profile profile' hne => ⟨?_, ?_⟩
    · exact pdfs_apart tables.upper_digit _ _ (index_lt hplan hx) (index_lt hplan hy) hne _ _
    · change fold tables.upper x.1.targetLayout ≠ fold tables.upper y.1.targetLayout
      rw [(hplan.sheets x hx).targetLayout, (hplan.sheets y hy).targetLayout]
      exact layouts_apart (index_lt hplan hx) (index_lt hplan hy) hne hplan.loaded.layoutPrefix _ _
  have houtputs := h.forall_outputs (Q := SheetPublishable tables sources job plan)
    (P := OutputValid tables (job.root ++ ["output"]) manifest.templateAssets)
    fun index sheet profile hx hprofile => by
    obtain ⟨profile', hprofile', hpayload⟩ := (hplan.sheets _ hx).profile
    obtain rfl := Option.some.inj (hprofile.symm.trans hprofile')
    have hsheet : sheet ∈ plan.sheets := List.fst_mem_of_mem_zipIdx hx
    have hreference := @StagedAs.validReference_iff tables sources job config plan manifest files h
      (index + 1) sheet hsheet profile hprofile hpayload
    have hlayout : isSafeId 255 sheet.targetLayout = true := by
      rw [(hplan.sheets _ hx).targetLayout]
      obtain ⟨-, -, hsafe⟩ := @targetLayoutName_eq (index + 1) sheet.frameHandle
        config.layoutPrefix (index_lt hplan hx) hplan.loaded.layoutPrefix
      exact hsafe
    constructor
    · rintro ⟨hpath, hhandle, hnames, hinternal⟩
      refine ⟨rfl, rfl, hpath profile hprofile, ⟨?_, (pdf_boundary _ _ _ _).2⟩,
        ⟨hhandle, hpayload.pageSetup.not_whiteSpace, hpayload.plotter.not_whiteSpace,
          hpayload.plotStyle.not_whiteSpace, isNullOrWhiteSpace_safe hlayout, hlayout⟩,
        fun media hmedia =>
          (hpayload.canonicalMedia media hmedia).not_whiteSpace, hnames profile hprofile,
        hreference.2 hinternal⟩
      rw [sheetOutput, List.dropLast_concat]
      exact samePath_refl _ _
    · intro hvalid
      refine ⟨fun profile' hprofile' => ?_, hvalid.metadata.1, fun profile' hprofile' => ?_,
        hreference.1 hvalid.reference⟩
      · obtain rfl := Option.some.inj (hprofile.symm.trans hprofile')
        exact hvalid.path
      · obtain rfl := Option.some.inj (hprofile.symm.trans hprofile')
        exact hvalid.layout
  rw [← houtputs]
  exact ⟨fun hall => hall.1, fun hall => ⟨hall, hpairs, fun y hy => absurd hy List.not_mem_nil⟩⟩

/-- The assets that the outputs refer to are those of the sheets. -/
theorem StagedAs.used_iff (h : StagedAs tables sources job plan manifest files) {id : String} :
    some id ∈ manifest.outputs.map OutputEntry.templateAssetId ↔
      ∃ a ∈ planAssets plan.sheets, a.id = id := by
  constructor
  · intro hid
    obtain ⟨output, houtput, hid⟩ := List.mem_map.1 hid
    obtain ⟨x, hx, hout⟩ := forall₂_mem_right h.outputs houtput
    obtain ⟨profile, hprofile, rfl⟩ := outputEntry_ok hout
    obtain ⟨a, ha, rfl⟩ := Option.map_eq_some_iff.1 hid
    exact ⟨a, mem_planAssets.2 ⟨x.1, List.fst_mem_of_mem_zipIdx hx, profile, hprofile, ha⟩, rfl⟩
  · rintro ⟨a, ha, rfl⟩
    obtain ⟨sheet, hsheet, profile, hprofile, hasset⟩ := mem_planAssets.1 ha
    obtain ⟨index, hx⟩ := mem_zipIdx_of_mem hsheet 1
    obtain ⟨output, houtput, hout⟩ := forall₂_mem_right h.outputs.flip hx
    obtain ⟨profile', hprofile', rfl⟩ := outputEntry_ok hout
    obtain rfl := Option.some.inj (hprofile.symm.trans hprofile')
    refine List.mem_map.2 ⟨_, houtput, ?_⟩
    rw [sheetOutput, hasset]
    rfl

theorem StagedAs.used_count (h : StagedAs tables sources job plan manifest files) :
    (manifest.outputs.filterMap OutputEntry.templateAssetId).dedup.length =
      manifest.templateAssets.length := by
  have hperm : (manifest.outputs.filterMap OutputEntry.templateAssetId).dedup.Perm
      ((stagedAssets plan).map TemplateAsset.id) := by
    refine (List.perm_ext_iff_of_nodup (List.nodup_dedup _) h.distinct).2 fun id => ?_
    have hused := @StagedAs.used_iff tables sources job plan manifest files h id
    rw [List.mem_map] at hused
    rw [List.mem_dedup, List.mem_filterMap, hused, List.mem_map]
    exact exists_congr fun a => and_congr_left fun _ => (h.assets a).symm
  rw [hperm.length_eq, List.length_map, h.entries, List.length_map]

theorem mem_inits_dropLast (path : Path) (name : String) :
    path ∈ (path ++ [name]).inits.dropLast := by
  have hinits : (path ++ [name]).inits = path.inits ++ [path ++ [name]] := by
    induction path with
    | nil => rfl
    | cons part path ih => simp [ih]
  rw [hinits, List.dropLast_concat]
  exact (List.mem_inits path path).2 (List.prefix_refl path)

/-- When the audit accepts a staged job. -/
theorem StagedAs.loads_iff (h : StagedAs tables sources job plan manifest files)
    (hplan : PlanOk config plan) :
    loadStagedManifest tables files job.workspaceRoot job.root manifest = .ok () ↔
      (manifestFile manifest).length ≤ maxManifestBytes ∧
        (∀ current, plan.drawingFingerprint = some current → 1 ≤ current.sizeBytes) ∧
        (∀ a ∈ planAssets plan.sheets, 1 ≤ a.sizeBytes) ∧ FilesApart tables sources plan ∧
        LayoutsApart tables.casefold plan ∧
        ∀ sheet ∈ plan.sheets, InternalApart tables.casefold plan sheet := by
  obtain ⟨current, hcurrent, -⟩ := h.fingerprint
  have hsource : manifest.sourceFingerprint = current := by
    rw [h.manifest_eq, stagedManifest, hcurrent]
    rfl
  have hassets : checkEach (loadTemplateAsset tables files (job.root ++ ["source", "templates"])) []
      manifest.templateAssets = .ok () ↔
        ((∀ a ∈ planAssets plan.sheets, 1 ≤ a.sizeBytes) ∧ FilesApart tables sources plan) ∧
          LayoutsApart tables.casefold plan := by
    rw [checkEach_eq_ok (P := fun _ => AssetLoads tables files
      (job.root ++ ["source", "templates"])) fun before asset => loadTemplateAsset_iff]
    have heach : (∀ e ∈ manifest.templateAssets.zipIdx 0, AssetLoads tables files
        (job.root ++ ["source", "templates"]) e.1) ↔
          (∀ a ∈ planAssets plan.sheets, 1 ≤ a.sizeBytes) ∧ FilesApart tables sources plan := by
      rw [forall_zipIdx, h.forall_entries, ← h.files_iff, ← forall₂_and]
      exact forall₂_congr fun a ha => assetLoads_iff (hplan.asset ha) (h.template ha)
    rw [← heach, ← h.pairwise_iff]
    exact ⟨fun hall => ⟨hall.1, hall.2.1⟩,
      fun hall => ⟨hall.1, hall.2, fun y hy => absurd hy List.not_mem_nil⟩⟩
  have hjob : (samePath tables.lower job.root.dropLast job.workspaceRoot = true ∧
      some manifest.jobId = job.root.getLast?) := by
    rw [h.manifest_eq, Job.root, List.dropLast_concat, List.getLast?_concat]
    exact ⟨samePath_refl _ _, rfl⟩
  have houtput :
      samePath tables.lower manifest.outputDirectory (job.root ++ ["output"]) = true := by
    rw [h.manifest_eq]
    exact samePath_refl _ _
  have hdrawing : manifest.stagedDrawing.inits.dropLast.any
      (samePath tables.lower (job.root ++ ["source"])) = true ∧
        lowerSuffix manifest.stagedDrawing = ".dwg".toList := by
    have hstaged : manifest.stagedDrawing =
        job.root ++ ["source"] ++ [(resolvedDrawing sources plan).getLastD ""] := by
      rw [h.manifest_eq, stagedManifest, List.append_assoc]
      rfl
    rw [hstaged, List.any_eq_true]
    refine ⟨⟨_, mem_inits_dropLast _ _, samePath_refl _ _⟩, ?_⟩
    rw [lowerSuffix, List.getLastD_concat, ← h.drawing, lowerSuffix]
  have hcount : 1 ≤ manifest.outputs.length ∧ manifest.outputs.length ≤ 5000 := by
    rw [← h.outputs.length_eq, List.length_zipIdx]
    exact hplan.count
  have hused : ∀ asset ∈ manifest.templateAssets,
      some asset.id ∈ manifest.outputs.map OutputEntry.templateAssetId :=
    h.forall_entries.2 fun a ha => h.used_iff.2 ⟨a, ha, rfl⟩
  have hsize : (Protocol.isLowerHexText 64 manifest.sourceFingerprint.sha256.toList = true ∧
      1 ≤ manifest.sourceFingerprint.sizeBytes) ↔
        ∀ current, plan.drawingFingerprint = some current → 1 ≤ current.sizeBytes := by
    rw [hsource, hcurrent]
    exact ⟨fun hboth current' heq => Option.some.inj heq ▸ hboth.2,
      fun hall => ⟨hplan.fingerprint current hcurrent, hall current rfl⟩⟩
  have hfixed : manifest.schemaVersion = 1 ∧ manifest.state = "staged" := by
    rw [h.manifest_eq]
    exact ⟨rfl, rfl⟩
  simp only [loadStagedManifest, check_bind_eq_ok, require_eq_ok]
  rw [hassets, h.loads_outputs_iff hplan, hsize]
  constructor
  · rintro ⟨hfits, -, -, -, -, -, hsizes, -, -, ⟨⟨hassets, hfiles⟩, hlayouts⟩, -, hinternal, -⟩
    exact ⟨hfits, hsizes, hassets, hfiles, hlayouts, hinternal⟩
  · rintro ⟨hfits, hsizes, hassets, hfiles, hlayouts, hinternal⟩
    exact ⟨hfits, hfixed.1, hfixed.2, hjob, houtput, hdrawing, hsizes, h.drawing_file,
      h.count hplan, ⟨⟨hassets, hfiles⟩, hlayouts⟩, hcount, hinternal, hused⟩

/-- When the plug-in accepts a staged job. -/
theorem StagedAs.reads_iff (h : StagedAs tables sources job plan manifest files)
    (hplan : PlanOk config plan) :
    tryReadValidated tables files job.root manifest.outputDirectory manifest = .ok () ↔
      ((∀ a ∈ planAssets plan.sheets,
        a.layout.any safeResourceName = true ∧ safeResourceName a.pageSetup = true) ∧
        ∀ a ∈ planAssets plan.sheets,
          tables.fullPath (stagedEntry sources job a).stagedTemplate = true) ∧
        (∀ a ∈ planAssets plan.sheets, 1 ≤ a.sizeBytes) ∧ FilesApart tables sources plan ∧
        LayoutsApart tables.upper plan ∧
        ∀ x ∈ plan.sheets.zipIdx 1, SheetPublishable tables sources job plan x.2 x.1 := by
  have hassets : checkEach (validateTemplateAsset tables files
      (job.root ++ ["source", "templates"])) [] manifest.templateAssets = .ok () ↔
        (((∀ a ∈ planAssets plan.sheets,
          a.layout.any safeResourceName = true ∧ safeResourceName a.pageSetup = true) ∧
          ∀ a ∈ planAssets plan.sheets,
            tables.fullPath (stagedEntry sources job a).stagedTemplate = true) ∧
          (∀ a ∈ planAssets plan.sheets, 1 ≤ a.sizeBytes) ∧ FilesApart tables sources plan) ∧
          LayoutsApart tables.upper plan := by
    rw [checkEach_eq_ok (P := fun _ => AssetValid tables files
      (job.root ++ ["source", "templates"])) fun before asset => validateTemplateAsset_iff]
    have heach : (∀ e ∈ manifest.templateAssets.zipIdx 0, AssetValid tables files
        (job.root ++ ["source", "templates"]) e.1) ↔
          ((∀ a ∈ planAssets plan.sheets,
            a.layout.any safeResourceName = true ∧ safeResourceName a.pageSetup = true) ∧
            ∀ a ∈ planAssets plan.sheets,
              tables.fullPath (stagedEntry sources job a).stagedTemplate = true) ∧
          (∀ a ∈ planAssets plan.sheets, 1 ≤ a.sizeBytes) ∧ FilesApart tables sources plan := by
      rw [forall_zipIdx, h.forall_entries, ← h.files_iff, ← forall₂_and, ← forall₂_and,
        ← forall₂_and]
      exact forall₂_congr fun a ha => assetValid_iff (hplan.asset ha) (h.template ha)
    rw [← heach, ← h.pairwise_iff]
    exact ⟨fun hall => ⟨hall.1, hall.2.1⟩,
      fun hall => ⟨hall.1, hall.2, fun y hy => absurd hy List.not_mem_nil⟩⟩
  have hdirectory : manifest.outputDirectory = job.root ++ ["output"] := by
    rw [h.manifest_eq]
    rfl
  simp only [tryReadValidated, check_bind_eq_ok, require_eq_ok]
  rw [hdirectory, hassets, h.validates_outputs_iff hplan]
  constructor
  · rintro ⟨-, ⟨⟨hnames, hsizes, hfiles⟩, hlayouts⟩, hsheets, -⟩
    exact ⟨hnames, hsizes, hfiles, hlayouts, hsheets⟩
  · rintro ⟨hnames, hsizes, hfiles, hlayouts, hsheets⟩
    exact ⟨h.count hplan, ⟨⟨hnames, hsizes, hfiles⟩, hlayouts⟩, hsheets, h.used_count⟩

/-- Both readers accept what is staged for a ready plan over a loaded configuration exactly if the
plan is publishable. -/
theorem staged_job_accepted_iff {platform : ConfigPlatform} {raw : RawConfig}
    (hload : loadConfig tables platform raw = .ok config)
    {digest : Path → Option Fingerprint → List Sheet → String} {inspection : DrawingInspection}
    {fingerprint : Option Fingerprint} {evidence : Evidence}
    (hplan : createPublishPlan tables platform config digest inspection fingerprint evidence =
      .ok plan) {approvedPlanId : String}
    (hstage : stagePublishJob tables digest sources job config plan approvedPlanId =
      .ok (manifest, files)) :
    (loadStagedManifest tables files job.workspaceRoot job.root manifest = .ok () ∧
      tryReadValidated tables files job.root manifest.outputDirectory manifest = .ok ()) ↔
        Publishable tables sources job plan := by
  obtain ⟨hvalid, hstaged⟩ := stagePublishJob_ok hstage
  have hok : PlanOk config plan := by
    obtain ⟨-, hvalid⟩ := check_bind_eq_ok.1 hvalid
    obtain ⟨current, hcurrent, -⟩ := hstaged.fingerprint
    rw [hcurrent] at hvalid
    obtain ⟨hhex, hvalid⟩ := check_bind_eq_ok.1 hvalid
    obtain ⟨hsome, hvalid⟩ := check_bind_eq_ok.1 hvalid
    obtain ⟨hfew, hvalid⟩ := check_bind_eq_ok.1 hvalid
    obtain ⟨hmatched, -⟩ := check_bind_eq_ok.1 hvalid
    rw [require_eq_ok] at hhex hsome hfew hmatched
    refine ⟨loadConfig_ok hload, createPublishPlan_ok (loadConfig_ok hload) hplan hmatched,
      ⟨List.length_pos_iff.2 hsome, hfew⟩, fun current' heq => ?_⟩
    rw [hcurrent] at heq
    exact Option.some.inj heq ▸ hhex
  rw [hstaged.loads_iff hok, hstaged.reads_iff hok, hstaged.manifest_eq]
  constructor
  · rintro ⟨⟨hfits, hdrawing, hsizes, hfiles, hlayouts, hinternal⟩, ⟨hnames, htemplates⟩, -, -,
      hupper, hsheets⟩
    exact ⟨hfits, hdrawing, hsizes, hnames, htemplates, hfiles, ⟨hlayouts, hupper⟩, hinternal,
      hsheets⟩
  · rintro ⟨hfits, hdrawing, hsizes, hnames, htemplates, hfiles, ⟨hlayouts, hupper⟩, hinternal,
      hsheets⟩
    exact ⟨⟨hfits, hdrawing, hsizes, hfiles, hlayouts, hinternal⟩, ⟨hnames, htemplates⟩, hsizes,
      hfiles, hupper, hsheets⟩

end Accepted

section Example

/-- The tables of ASCII, where names are compared ignoring case, and paths of 260 characters or
more are refused. -/
def caselessTables : Tables where
  casefold c := [c.toLower]
  lower c := if c.isDigit then [c] else [c.toLower]
  upper c := if c.isDigit then [c] else [c.toUpper]
  fileName c := [c.toUpper]
  fullPath path := decide ((pathText path).toList.length < 260)
  isalnum := Char.isAlphanum
  lower_digit _ h := if_pos h
  upper_digit _ h := if_pos h

def officePlatform : ConfigPlatform where
  resolveRelative text := ["C:", "templates", text]
  requireTemplate path := .ok path
  isFile _ := true
  overlap _ _ := false
  sizeMatches _ _ := false

def repeated (c : Char) : String := String.ofList (List.replicate 64 c)

/-- Two profiles with templates of their own. -/
def officeProfile (id label layout : String) (digit : Char) : RawProfile where
  id := id
  labels := [label]
  pageSetup := "PDF"
  plotter := "DWG To PDF.pc3"
  plotStyle := "monochrome.ctb"
  canonicalMedia := none
  templateLayout := some layout
  templateDrawing := some (layout ++ ".dwt")
  templateSha256 := some (repeated digit)
  toleranceMm := some 2

def officeConfig (id id' : String) : RawConfig where
  templateRoots := true
  workspaceRoot := some ["C:", "jobs"]
  requirePageSetupMatch := false
  layoutPrefix := "PLOT"
  frameLayers := []
  paperProfiles := [officeProfile id "A3" "WIDE" '1', officeProfile id' "A4" "TALL" '2']

def officeFrame (handle label : String) : FrameCandidate :=
  ⟨handle, "FRAMES", label, true, some .null⟩

def officeDrawing : DrawingInspection :=
  ⟨["C:", "plans", "plan.dwg"], [], [], [officeFrame "A1" "A3", officeFrame "A2" "A4"]⟩

def officeTemplate (layout : String) (digit : Char) : DrawingInspection × Fingerprint :=
  (⟨["C:", "templates", layout ++ ".dwt"], [⟨layout, false, some 1⟩], [], []⟩,
    ⟨repeated digit, 7, 7⟩)

def officeEvidence (id id' : String) : Evidence :=
  (Dict.empty.set id (officeTemplate "WIDE" '1')).set id' (officeTemplate "TALL" '2')

def officeSources : Sources where
  requireDrawing := .ok
  requireTemplate := .ok
  fingerprintFile path := .ok
    (if path = ["C:", "templates", "WIDE.dwt"] then ⟨repeated '1', 7, 7⟩
    else if path = ["C:", "templates", "TALL.dwt"] then ⟨repeated '2', 7, 7⟩
    else ⟨repeated '3', 7, 7⟩)

def officeJob : Job := ⟨["C:", "jobs"], "job-1", "2026-01-01T00:00:00+00:00"⟩

def officePlanId : String := "sha256:" ++ repeated '0'

/-- A run from the configuration to the plug-in, with whether it accepts the job. -/
def officeRun (id id' : String) : Except String Bool := do
  let config ← loadConfig caselessTables officePlatform (officeConfig id id')
  let plan ← createPublishPlan caselessTables officePlatform config (fun _ _ _ => officePlanId)
    officeDrawing (some ⟨repeated '3', 7, 7⟩) (officeEvidence id id')
  let staged ← stagePublishJob caselessTables (fun _ _ _ => officePlanId) officeSources officeJob
    config plan officePlanId
  pure (decide (tryReadValidated caselessTables staged.2 officeJob.root staged.1.outputDirectory
    staged.1 = .ok ()))

theorem officeRun_ok {id id' : String} {accepted : Bool} (h : officeRun id id' = .ok accepted) :
    ∃ config plan manifest files,
      loadConfig caselessTables officePlatform (officeConfig id id') = .ok config ∧
      createPublishPlan caselessTables officePlatform config (fun _ _ _ => officePlanId)
        officeDrawing (some ⟨repeated '3', 7, 7⟩) (officeEvidence id id') = .ok plan ∧
      stagePublishJob caselessTables (fun _ _ _ => officePlanId) officeSources officeJob config plan
        officePlanId = .ok (manifest, files) ∧
      decide (tryReadValidated caselessTables files officeJob.root manifest.outputDirectory
        manifest = .ok ()) = accepted := by
  obtain ⟨config, hconfig, h⟩ := bind_eq_ok.1 h
  obtain ⟨plan, hplan, h⟩ := bind_eq_ok.1 h
  obtain ⟨⟨manifest, files⟩, hstaged, h⟩ := bind_eq_ok.1 h
  exact ⟨config, plan, manifest, files, hconfig, hplan, hstaged, pure_eq_ok.1 h⟩

theorem staged_job_accepted_iff_office : ∃ config plan manifest files,
    loadConfig caselessTables officePlatform (officeConfig "WIDE" "TALL") = .ok config ∧
    createPublishPlan caselessTables officePlatform config (fun _ _ _ => officePlanId)
      officeDrawing (some ⟨repeated '3', 7, 7⟩) (officeEvidence "WIDE" "TALL") = .ok plan ∧
    stagePublishJob caselessTables (fun _ _ _ => officePlanId) officeSources officeJob config plan
      officePlanId = .ok (manifest, files) ∧
    ((loadStagedManifest caselessTables files officeJob.workspaceRoot officeJob.root manifest =
        .ok () ∧
      tryReadValidated caselessTables files officeJob.root manifest.outputDirectory manifest =
        .ok ()) ↔ Publishable caselessTables officeSources officeJob plan) := by
  have hrun : officeRun "WIDE" "TALL" = .ok true := by decide +kernel
  obtain ⟨config, plan, manifest, files, hconfig, hplan, hstaged, -⟩ := officeRun_ok hrun
  exact ⟨config, plan, manifest, files, hconfig, hplan, hstaged,
    staged_job_accepted_iff hconfig hplan hstaged⟩

/-- Two profiles whose ids differ by case only: the second template is copied over the first. -/
theorem staged_templates_collide : ∃ config plan manifest files,
    loadConfig caselessTables officePlatform (officeConfig "OFFICE" "office") = .ok config ∧
    createPublishPlan caselessTables officePlatform config (fun _ _ _ => officePlanId)
      officeDrawing (some ⟨repeated '3', 7, 7⟩) (officeEvidence "OFFICE" "office") = .ok plan ∧
    stagePublishJob caselessTables (fun _ _ _ => officePlanId) officeSources officeJob config plan
      officePlanId = .ok (manifest, files) ∧
    ¬(loadStagedManifest caselessTables files officeJob.workspaceRoot officeJob.root manifest =
        .ok () ∧
      tryReadValidated caselessTables files officeJob.root manifest.outputDirectory manifest =
        .ok ()) := by
  have hrun : officeRun "OFFICE" "office" = .ok false := by decide +kernel
  obtain ⟨config, plan, manifest, files, hconfig, hplan, hstaged, haccepted⟩ := officeRun_ok hrun
  exact ⟨config, plan, manifest, files, hconfig, hplan, hstaged, fun hboth =>
    of_decide_eq_false haccepted hboth.2⟩

end Example

end CadPlot.Publish
