import CadPlot.Publish.StagedJobs

/-!
# The readers of staged jobs

What the names that are staged look like to the audit and to the plug-in, and what
each turn of their loops checks.
-/

namespace CadPlot.Publish

open Gateway (require require_eq_ok require_bind_eq_ok)
open Text (isSpace strip utf16)

section Names

theorem isNullOrWhiteSpace_cons {value : String} {c : Char} {rest : List Char}
    (hvalue : value.toList = c :: rest) (hc : isSpace c = false) :
    isNullOrWhiteSpace value = false := by
  have hspace := of_decide_eq_false hc
  rw [isNullOrWhiteSpace, hvalue, utf16, List.flatMap_cons, List.all_append, Bool.and_eq_false_iff]
  refine .inl ?_
  rw [Text.utf16Char]
  split
  · have hunit : (UInt16.ofNat c.toNat).toNat = c.toNat := by
      rw [UInt16.toNat_ofNat']
      omega
    rw [List.all_cons, Bool.and_eq_false_iff]
    refine .inl (decide_eq_false ?_)
    rw [hunit]
    omega
  · have hvalid : c.toNat < 0xD800 ∨ (0xDFFF < c.toNat ∧ c.toNat < 0x110000) := c.valid
    have hunit : (UInt16.ofNat (0xD800 + (c.toNat - 0x10000) / 0x400)).toNat =
        0xD800 + (c.toNat - 0x10000) / 0x400 := by
      rw [UInt16.toNat_ofNat']
      omega
    rw [List.all_cons, Bool.and_eq_false_iff]
    refine .inl (decide_eq_false ?_)
    rw [hunit]
    omega

theorem IsProfileText.head {n : Nat} {value : String} (h : IsProfileText n value) :
    ∃ c rest, value.toList = c :: rest ∧ isSpace c = false := by
  obtain ⟨hvalue, hstrip⟩ := h
  simp only [isValue, Bool.and_eq_true, decide_eq_true_eq] at hvalue
  have hne : value.toList ≠ [] := fun hnil =>
    hvalue.1.1 (String.toList_injective (hnil.trans String.toList_empty.symm))
  obtain ⟨c, rest, hchars⟩ := List.exists_cons_of_ne_nil hne
  refine ⟨c, rest, hchars, ?_⟩
  have hdrop := (Text.strip_eq_self_iff.1 hstrip).1
  rw [hchars, List.dropWhile_eq_self_iff] at hdrop
  exact Bool.eq_false_iff.2 (hdrop (by simp))

theorem IsProfileText.not_whiteSpace {n : Nat} {value : String} (h : IsProfileText n value) :
    isNullOrWhiteSpace value = false := by
  obtain ⟨c, rest, hvalue, hc⟩ := h.head
  exact isNullOrWhiteSpace_cons hvalue hc

theorem IsProfileText.validResourceName {value : String} (h : IsProfileText 255 value) :
    validResourceName (some value) = true := by
  obtain ⟨c, rest, hchars, hc⟩ := h.head
  obtain ⟨hvalue, -⟩ := h
  simp only [isValue, Bool.and_eq_true, decide_eq_true_eq] at hvalue
  have hsome : 1 ≤ value.toList.length := by simp [hchars]
  have hall : value.toList.all isSpace = false := by simp [hchars, hc]
  have hlength := hvalue.1.2
  simp only [Publish.validResourceName, Bool.and_eq_true, decide_eq_true_eq, hall, Bool.not_false]
  exact ⟨⟨⟨hsome, hlength⟩, trivial⟩, hvalue.2⟩

def isSafeChar (c : Char) : Bool := c.isAlphanum || c == '_' || c == '-'

theorem isSpace_safe {c : Char} (h : isSafeChar c = true) : isSpace c = false := by
  simp only [isSafeChar, Bool.or_eq_true, beq_iff_eq] at h
  refine decide_eq_false ?_
  rcases h with (h | rfl) | rfl
  · have hcases := Text.isAlphanum_cases h
    omega
  all_goals decide

theorem isSafeId_iff {n : Nat} {value : String} : isSafeId n value = true ↔
    (1 ≤ value.toList.length ∧ value.toList.length ≤ n) ∧
      ∀ c ∈ value.toList, isSafeChar c = true := by
  rw [isSafeId, Bool.and_eq_true, decide_eq_true_eq, List.all_eq_true]
  rfl

theorem isNullOrWhiteSpace_safe {n : Nat} {value : String} (h : isSafeId n value = true) :
    isNullOrWhiteSpace value = false := by
  obtain ⟨⟨hsome, -⟩, hall⟩ := isSafeId_iff.1 h
  obtain ⟨c, rest, hchars⟩ := List.exists_cons_of_length_pos hsome
  exact isNullOrWhiteSpace_cons hchars (isSpace_safe (hall c (hchars ▸ List.mem_cons_self)))

theorem span_dot (stem extension : List Char) (h : '.' ∉ extension) :
    ((stem ++ '.' :: extension).reverse.span (· ≠ '.')) =
      (extension.reverse, '.' :: stem.reverse) := by
  have hall : ∀ c ∈ extension.reverse, decide (c ≠ '.') = true := fun c hc =>
    decide_eq_true fun heq => h (List.mem_reverse.1 (heq ▸ hc))
  rw [List.reverse_append, List.reverse_cons, List.append_assoc, List.singleton_append,
    List.span_eq_takeWhile_dropWhile, List.takeWhile_append_of_pos hall,
    List.dropWhile_append_of_pos hall]
  simp

/-- A name ends in its extension. -/
theorem suffix_append {stem extension : List Char} (hstem : stem ≠ []) (hsome : extension ≠ [])
    (h : '.' ∉ extension) : suffix (stem ++ '.' :: extension) = '.' :: extension := by
  rw [suffix, span_dot _ _ h]
  simp [hstem, hsome]

theorem getExtension_append (stem : List Char) {extension : List Char} (hsome : extension ≠ [])
    (h : '.' ∉ extension) : getExtension (stem ++ '.' :: extension) = '.' :: extension := by
  rw [getExtension, span_dot _ _ h]
  simp [hsome]

end Names

section Indices

variable {tables : Tables}

theorem digits_isDigit (w n : Nat) : ∀ c ∈ Calendar.digits w n, c.isDigit = true := by
  induction w generalizing n with
  | zero => exact fun c hc => absurd hc List.not_mem_nil
  | succ w ih =>
    intro c hc
    rcases List.mem_append.1 hc with hc | hc
    · exact ih _ c hc
    · have hall : ∀ m < 10, (Calendar.digitChar m).isDigit = true := by decide
      obtain rfl := List.mem_singleton.1 hc
      exact hall _ (Nat.mod_lt n (by decide))

theorem flatMap_digits {table : Char → List Char}
    (h : ∀ c, c.isDigit = true → table c = [c]) {digits : List Char}
    (hdigits : ∀ c ∈ digits, c.isDigit = true) : digits.flatMap table = digits := by
  induction digits with
  | nil => rfl
  | cons c digits ih =>
    rw [List.forall_mem_cons] at hdigits
    rw [List.flatMap_cons, h c hdigits.1, ih hdigits.2]
    rfl

theorem length_digits (w n : Nat) : (Calendar.digits w n).length = w := by
  induction w generalizing n with
  | zero => rfl
  | succ w ih => rw [Calendar.digits, List.length_append, ih, List.length_singleton]

/-- Texts with different indices in one place differ, under any table that keeps the digits. -/
theorem index_of_fold {table : Char → List Char} (h : ∀ c, c.isDigit = true → table c = [c])
    {i j : Nat} (hi : i < 10000) (hj : j < 10000) {front back back' : List Char}
    (heq : (front ++ (paddedIndex i ++ back)).flatMap table =
      (front ++ (paddedIndex j ++ back')).flatMap table) : i = j := by
  rw [paddedIndex, paddedIndex, if_pos hi, if_pos hj] at heq
  simp only [List.flatMap_append, flatMap_digits h (digits_isDigit 4 _)] at heq
  have hdigits := List.append_inj_left (List.append_cancel_left heq)
    (by rw [length_digits, length_digits])
  exact (Calendar.digits_ordered hi hj).eq.1 hdigits

theorem substituteRuns_safe (inRun : Bool) (chars : List Char) :
    ∀ c ∈ substituteRuns inRun chars, isSafeChar c = true := by
  induction chars generalizing inRun with
  | nil => exact fun c hc => absurd hc List.not_mem_nil
  | cons d chars ih =>
    rw [substituteRuns]
    split
    · next hd => exact List.forall_mem_cons.2 ⟨hd, ih false⟩
    · split
      · exact ih true
      · exact List.forall_mem_cons.2 ⟨rfl, ih true⟩

/-- The name of a target: the part that tells targets apart is never cut off. -/
theorem targetLayoutName_eq {index : Nat} {handle layoutPrefix : String} (hindex : index < 10000)
    (hstart : isSafeId 32 layoutPrefix = true) :
    ∃ rest, (targetLayoutName index handle layoutPrefix).toList =
        (layoutPrefix.toList ++ ['_']) ++ (paddedIndex index ++ rest) ∧
      isSafeId 255 (targetLayoutName index handle layoutPrefix) = true := by
  obtain ⟨⟨hsome, hfew⟩, hall⟩ := isSafeId_iff.1 hstart
  have hpadded : paddedIndex index = Calendar.digits 4 index := if_pos hindex
  unfold targetLayoutName
  dsimp only
  generalize (if handle = "" then "NOHANDLE" else handle) = named
  generalize hhandle : (if strip (· == '_') (substituteRuns false named.toList) = [] then
    "NOHANDLE".toList else strip (· == '_') (substituteRuns false named.toList)) = safeHandle
  have hsafe : ∀ c ∈ safeHandle, isSafeChar c = true := by
    intro c hc
    rw [← hhandle] at hc
    split at hc
    · have hnone : ∀ c ∈ "NOHANDLE".toList, isSafeChar c = true :=
        Text.forall_mem_of_all (by decide)
      exact hnone c hc
    · exact substituteRuns_safe _ _ c
        ((List.dropWhile_suffix _).subset ((List.rdropWhile_prefix _ _).subset hc))
  have htext : layoutPrefix.toList ++ '_' :: (paddedIndex index ++ '_' :: safeHandle) =
      (layoutPrefix.toList ++ ['_']) ++ (paddedIndex index ++ ('_' :: safeHandle)) := by
    simp
  have hlength : (layoutPrefix.toList ++ ['_']).length ≤ 33 := by
    rw [List.length_append, List.length_singleton]
    omega
  have hfour : (paddedIndex index).length = 4 := by rw [hpadded, length_digits]
  have htake : (layoutPrefix.toList ++ '_' :: (paddedIndex index ++ '_' :: safeHandle)).take 255 =
      (layoutPrefix.toList ++ ['_']) ++ (paddedIndex index ++
        ('_' :: safeHandle).take (255 - (layoutPrefix.toList ++ ['_']).length - 4)) := by
    rw [htext, List.take_append, List.take_of_length_le (by omega), List.take_append,
      List.take_of_length_le (by omega), hfour]
  refine ⟨_, by rw [String.toList_ofList, htake], ?_⟩
  rw [isSafeId_iff, String.toList_ofList]
  refine ⟨⟨?_, List.length_take_le _ _⟩, fun c hc => ?_⟩
  · rw [htake, List.length_append, List.length_append, List.length_singleton]
    omega
  · have hmem := List.mem_of_mem_take hc
    rw [htext, List.mem_append, List.mem_append, List.mem_append, List.mem_singleton] at hmem
    rcases hmem with (hmem | rfl) | hmem | hmem
    · exact hall c hmem
    · rfl
    · rw [hpadded] at hmem
      have hdigit := digits_isDigit _ _ c hmem
      simp [isSafeChar, Char.isAlphanum, hdigit]
    · rcases List.mem_cons.1 hmem with rfl | hmem
      · rfl
      · exact hsafe c hmem

end Indices

/-! ### The checks of the readers -/

section Checks

variable {tables : Tables} {files : Files}

/-- What the audit checks of a template asset by itself. -/
structure AssetLoads (tables : Tables) (files : Files) (root : Path) (asset : TemplateEntry) :
    Prop where
  id : isSafeId 64 asset.id = true
  names : validResourceName asset.layout = true ∧ validResourceName (some asset.pageSetup) = true
  boundary : samePath tables.lower asset.stagedTemplate.dropLast root = true ∧
    isTemplatePath asset.stagedTemplate = true
  fingerprint : 1 ≤ asset.sizeBytes ∧ Protocol.isLowerHexText 64 asset.sha256.toList = true
  file : files.get (asset.key tables) = some asset.content

theorem loadTemplateAsset_iff {root : Path} {before : List TemplateEntry} {asset : TemplateEntry} :
    loadTemplateAsset tables files root before asset = .ok () ↔
      AssetLoads tables files root asset ∧ ∀ other ∈ before, other.id ≠ asset.id ∧
        other.layout.map (fold tables.casefold) ≠ asset.layout.map (fold tables.casefold) := by
  simp only [loadTemplateAsset, require_bind_eq_ok, require_eq_ok]
  constructor
  · rintro ⟨hid, hids, hnames, hlayouts, ⟨hroot, htemplate, -⟩, hfingerprint, hfile⟩
    exact ⟨⟨hid, hnames, ⟨hroot, htemplate⟩, hfingerprint, hfile⟩, fun other hother =>
      ⟨hids other hother, hlayouts other hother⟩⟩
  · rintro ⟨⟨hid, hnames, ⟨hroot, htemplate⟩, hfingerprint, hfile⟩, hother⟩
    refine ⟨hid, fun other h => (hother other h).1, hnames, fun other h => (hother other h).2,
      ⟨hroot, htemplate, ?_⟩, hfingerprint, hfile⟩
    rw [show fileKey tables asset.stagedTemplate = asset.key tables from rfl, hfile]
    exact Option.some_ne_none _

/-- What the plug-in checks of a template asset by itself. -/
structure AssetValid (tables : Tables) (files : Files) (root : Path) (asset : TemplateEntry) :
    Prop where
  id : isSafeId 64 asset.id = true
  names : asset.layout.any safeResourceName = true ∧ safeResourceName asset.pageSetup = true
  fingerprint : Protocol.isLowerHexText 64 asset.sha256.toList = true ∧ 1 ≤ asset.sizeBytes
  path : tables.fullPath asset.stagedTemplate = true
  boundary : samePath tables.upper asset.stagedTemplate.dropLast root = true ∧
    (hasExtension tables asset.stagedTemplate ".dwg" = true ∨
      hasExtension tables asset.stagedTemplate ".dwt" = true)
  file : files.get (asset.key tables) = some asset.content

theorem validateTemplateAsset_iff {root : Path} {before : List TemplateEntry}
    {asset : TemplateEntry} : validateTemplateAsset tables files root before asset = .ok () ↔
      AssetValid tables files root asset ∧ ∀ other ∈ before, other.id ≠ asset.id ∧
        other.layout.map (fold tables.upper) ≠ asset.layout.map (fold tables.upper) := by
  simp only [validateTemplateAsset, require_bind_eq_ok, require_eq_ok]
  constructor
  · rintro ⟨hid, hnames, hfingerprint, hpath, hboundary, hsize, hsha, hids, hlayouts⟩
    refine ⟨⟨hid, hnames, hfingerprint, hpath, hboundary, ?_⟩, fun other hother =>
      ⟨hids other hother, hlayouts other hother⟩⟩
    obtain ⟨content, hget, hsize⟩ := Option.map_eq_some_iff.1 hsize
    obtain ⟨content', hget', hsha⟩ := Option.map_eq_some_iff.1 hsha
    obtain rfl := Option.some.inj (hget.symm.trans hget')
    rw [TemplateEntry.key, hget, TemplateEntry.content, ← hsize, ← hsha]
  · rintro ⟨⟨hid, hnames, hfingerprint, hpath, hboundary, hfile⟩, hother⟩
    have hget : files.get (fileKey tables asset.stagedTemplate) = some asset.content := hfile
    exact ⟨hid, hnames, hfingerprint, hpath, hboundary, by rw [hget]; rfl, by rw [hget]; rfl,
      fun other h => (hother other h).1, fun other h => (hother other h).2⟩

/-- What the audit checks of the template asset that an output refers to, or does not. -/
def LoadsReference (tables : Tables) (assets : List TemplateEntry) (output : OutputEntry) : Prop :=
  match output.templateAssetId with
  | some id => ∃ asset, assets.find? (fun asset => asset.id = id) = some asset ∧
      output.templateLayout = asset.layout ∧ output.pageSetup = asset.pageSetup
  | none => output.templateLayout = none ∨ ∀ asset ∈ assets,
      asset.layout.map (fold tables.casefold) ≠ output.templateLayout.map (fold tables.casefold)

theorem loadOutput_iff {root : Path} {assets : List TemplateEntry} {before : List OutputEntry}
    {output : OutputEntry} : loadOutput tables root assets before output = .ok () ↔
      ((samePath tables.lower output.pdf.dropLast root = true ∧
        lowerSuffix output.pdf = ".pdf".toList) ∧ LoadsReference tables assets output) ∧
      ∀ other ∈ before, samePath tables.lower other.pdf output.pdf = false := by
  simp only [loadOutput, LoadsReference, require_bind_eq_ok]
  cases output.templateAssetId with
  | none =>
    dsimp only
    rw [require_eq_ok, ← and_assoc, and_right_comm]
  | some id =>
    dsimp only
    cases assets.find? fun asset => asset.id = id with
    | none => simp
    | some asset =>
      simp only [require_eq_ok, Option.some.injEq, exists_eq_left']
      rw [← and_assoc, and_right_comm]

/-- What the plug-in checks of the template asset that an output refers to, or does not. -/
def ValidReference (tables : Tables) (assets : List TemplateEntry) (output : OutputEntry) : Prop :=
  match output.templateAssetId with
  | some id => ∃ asset, assets.find? (fun asset => asset.id = id) = some asset ∧
      output.templateLayout ≠ none ∧ output.templateLayout = asset.layout ∧
        output.pageSetup = asset.pageSetup
  | none => output.templateLayout = none ∨ ∀ asset ∈ assets,
      asset.layout.map (fold tables.upper) ≠ output.templateLayout.map (fold tables.upper)

/-- What the plug-in checks of an output at its place. -/
structure OutputValid (tables : Tables) (directory : Path) (assets : List TemplateEntry)
    (index : Nat) (output : OutputEntry) : Prop where
  sheetIndex : output.sheetIndex = index + 1
  status : output.status = "pending"
  path : tables.fullPath output.pdf = true
  boundary : samePath tables.upper output.pdf.dropLast directory = true ∧
    hasExtension tables output.pdf ".pdf" = true
  metadata : isNullOrWhiteSpace output.frameHandle = false ∧
    isNullOrWhiteSpace output.pageSetup = false ∧ isNullOrWhiteSpace output.plotter = false ∧
      isNullOrWhiteSpace output.plotStyle = false ∧
        isNullOrWhiteSpace output.targetLayout = false ∧ isSafeId 255 output.targetLayout = true
  media : ∀ media, output.canonicalMedia = some media → isNullOrWhiteSpace media = false
  layout : ∀ layout, output.templateLayout = some layout → safeResourceName layout = true ∧
    fold tables.upper layout ≠ fold tables.upper output.targetLayout
  reference : ValidReference tables assets output

theorem validateOutput_iff {directory : Path} {assets : List TemplateEntry}
    {before : List OutputEntry} {output : OutputEntry} :
    validateOutput tables directory assets before output = .ok () ↔
      OutputValid tables directory assets before.length output ∧ ∀ other ∈ before,
        samePath tables.upper other.pdf output.pdf = false ∧
          fold tables.upper other.targetLayout ≠ fold tables.upper output.targetLayout := by
  have hregroup (reference : Prop) (hiff : reference ↔ ValidReference tables assets output) :
      (output.sheetIndex = before.length + 1 ∧ output.status = "pending" ∧
        tables.fullPath output.pdf = true ∧
        (samePath tables.upper output.pdf.dropLast directory = true ∧
          hasExtension tables output.pdf ".pdf" = true) ∧
        (∀ other ∈ before, samePath tables.upper other.pdf output.pdf = false) ∧
        (isNullOrWhiteSpace output.frameHandle = false ∧
          isNullOrWhiteSpace output.pageSetup = false ∧
            isNullOrWhiteSpace output.plotter = false ∧
              isNullOrWhiteSpace output.plotStyle = false ∧
                isNullOrWhiteSpace output.targetLayout = false ∧
                  isSafeId 255 output.targetLayout = true) ∧
        (∀ media, output.canonicalMedia = some media → isNullOrWhiteSpace media = false) ∧
        (∀ layout, output.templateLayout = some layout → safeResourceName layout = true ∧
          fold tables.upper layout ≠ fold tables.upper output.targetLayout) ∧
        reference ∧ ∀ other ∈ before,
          fold tables.upper other.targetLayout ≠ fold tables.upper output.targetLayout) ↔
      OutputValid tables directory assets before.length output ∧ ∀ other ∈ before,
        samePath tables.upper other.pdf output.pdf = false ∧
          fold tables.upper other.targetLayout ≠ fold tables.upper output.targetLayout := by
    constructor
    · rintro ⟨hindex, hstatus, hpath, hboundary, hpdfs, hmetadata, hmedia, hlayout, href, hlayouts⟩
      exact ⟨⟨hindex, hstatus, hpath, hboundary, hmetadata, hmedia, hlayout, hiff.1 href⟩,
        fun other hother => ⟨hpdfs other hother, hlayouts other hother⟩⟩
    · rintro ⟨h, hother⟩
      exact ⟨h.sheetIndex, h.status, h.path, h.boundary, fun other h => (hother other h).1,
        h.metadata, h.media, h.layout, hiff.2 h.reference, fun other h => (hother other h).2⟩
  simp only [validateOutput, require_bind_eq_ok]
  cases hid : output.templateAssetId with
  | none =>
    simp only [require_bind_eq_ok, require_eq_ok]
    exact hregroup _ (by rw [ValidReference, hid])
  | some id =>
    dsimp only
    cases hfind : assets.find? fun asset => asset.id = id with
    | none =>
      have hnone : ¬ValidReference tables assets output := by
        rw [ValidReference, hid]
        rintro ⟨asset, hasset, -⟩
        rw [hfind] at hasset
        cases hasset
      refine iff_of_false (fun h => ?_) fun h => hnone h.1.reference
      obtain ⟨-, -, -, -, -, -, -, -, h⟩ := h
      cases h
    | some asset =>
      simp only [require_bind_eq_ok, require_eq_ok]
      exact hregroup _ (by rw [ValidReference, hid]; simp [hfind])

end Checks

end CadPlot.Publish
