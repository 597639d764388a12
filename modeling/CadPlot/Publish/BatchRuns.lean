import CadPlot.Lib.JsonInjective
import CadPlot.Lib.Outcome
import CadPlot.Lib.Runs
import CadPlot.Publish.Batches
import Mathlib.Data.String.Basic

/-!
# Planning a folder page by page

A client reads the plans of a folder that changes between its requests. The
canonical text of an inventory determines what was scanned, so that every page
that is returned is of the drawings that the first one was of.
-/

namespace CadPlot.Publish.Batches

open Gateway (require require_eq_ok require_bind_eq_ok)
open Runs

/-! ### What is scanned -/

section Scan

variable (tables : Tables)

def sortKey (text : String) : String := String.ofList (fold tables.casefold text)

theorem before_total (a b : String) : Before tables a b ∨ Before tables b a :=
  le_total (sortKey tables a) (sortKey tables b)

theorem before_trans {a b c : String} (hab : Before tables a b) (hbc : Before tables b c) :
    Before tables a c :=
  le_trans (b := sortKey tables b) hab hbc

/-- What the paths of a scan are. -/
structure Scanned (allowedRoots : List Path) (folder : Folder) (recursive : Bool)
    (drawings : List DrawingFile) : Prop where
  sorted : (drawings.map DrawingFile.path).Pairwise (Before tables)
  paths : ∃ found, drawingPaths tables allowedRoots folder recursive = .ok found ∧
    (drawings.map DrawingFile.path).Perm (found.dedup.map folder.text)

variable {tables} {allowedRoots : List Path} {folder : Folder} {recursive : Bool}

theorem drawingFile_path {path : Path} {drawing : DrawingFile}
    (h : drawingFile folder path = .ok drawing) : drawing.path = folder.text path := by
  obtain ⟨stat, -, h⟩ := bind_eq_ok.1 h
  exact congrArg DrawingFile.path (pure_eq_ok.1 h).symm

theorem map_drawingFile {paths : List Path} {drawings : List DrawingFile}
    (h : paths.mapM (drawingFile folder) = .ok drawings) :
    drawings.map DrawingFile.path = paths.map folder.text := by
  have hall := mapM_eq_ok.1 h
  induction hall with
  | nil => rfl
  | cons hfirst hrest ih =>
    rw [List.map_cons, List.map_cons, drawingFile_path hfirst, ih (mapM_eq_ok.2 hrest)]

theorem scanDrawings_scanned {maxFiles : Int} {drawings : List DrawingFile}
    (h : scanDrawings tables allowedRoots folder recursive maxFiles = .ok drawings) :
    Scanned tables allowedRoots folder recursive drawings := by
  obtain ⟨root, -, h⟩ := bind_eq_ok.1 h
  obtain ⟨-, h⟩ := (require_bind_eq_ok ..).1 h
  obtain ⟨-, h⟩ := (require_bind_eq_ok ..).1 h
  obtain ⟨found, hfound, h⟩ := bind_eq_ok.1 h
  obtain ⟨-, h⟩ := (require_bind_eq_ok ..).1 h
  have hpaths := map_drawingFile h
  refine ⟨?_, found, hfound, ?_⟩
  · rw [hpaths, List.pairwise_map]
    let before (a b : Path) : Prop := Before tables (folder.text a) (folder.text b)
    have : Std.Total before := ⟨fun _ _ => before_total tables _ _⟩
    have : IsTrans Path before := ⟨fun _ _ _ => before_trans tables⟩
    exact List.pairwise_insertionSort before _
  · rw [hpaths]
    exact ((List.perm_insertionSort _ _).trans (folder.order_perm found)).map _

end Scan

/-! ### What an inventory determines -/

section Inventory

theorem InventoryItem.json_injective : Function.Injective InventoryItem.json := by
  rintro ⟨path, size, modified⟩ ⟨path', size', modified'⟩ h
  simp only [InventoryItem.json, Json.obj.injEq, List.cons.injEq, Prod.mk.injEq, true_and,
    and_true, Json.str.injEq] at h
  obtain ⟨hmodified, rfl, hsize⟩ := h
  have hmodified : modified = modified' := by
    cases modified <;> cases modified' <;> simp_all [Json.optional]
  have hsize : size = size' := by
    cases size <;> cases size' <;> simp_all
  rw [hmodified, hsize]

theorem DrawingFile.item_injective : Function.Injective DrawingFile.item := by
  rintro ⟨path, size, modified⟩ ⟨path', size', modified'⟩ h
  simp only [DrawingFile.item, InventoryItem.mk.injEq, Option.some.injEq] at h
  obtain ⟨rfl, rfl, rfl⟩ := h
  rfl

variable {tables : Tables} {drawings drawings' : List DrawingFile}

/-- The text of an inventory of drawings. -/
def inventoryText (tables : Tables) (drawings : List DrawingFile) : List UInt8 :=
  Text.utf8 (canonicalInventory tables (drawings.map DrawingFile.item))

/-- Drawings that are already sorted are the ones in the text. -/
theorem inventoryText_inj (hsorted : (drawings.map DrawingFile.path).Pairwise (Before tables))
    (hsorted' : (drawings'.map DrawingFile.path).Pairwise (Before tables))
    (h : inventoryText tables drawings = inventoryText tables drawings') :
    drawings = drawings' := by
  have hsort {drawings : List DrawingFile}
      (hsorted : (drawings.map DrawingFile.path).Pairwise (Before tables)) :
      (drawings.map DrawingFile.item).insertionSort (fun a b => Before tables a.path b.path) =
        drawings.map DrawingFile.item := by
    apply List.Pairwise.insertionSort_eq
    rw [List.pairwise_map] at hsorted ⊢
    exact hsorted
  have h := Json.render_injective (Text.utf8_injective h)
  simp only [hsort hsorted, hsort hsorted', Json.arr.injEq] at h
  exact DrawingFile.item_injective.list_map (InventoryItem.json_injective.list_map h)

theorem length_scheme : "sha256:".toList.length = 7 := by decide +kernel

theorem isPlanId_identifier {sha256 : List UInt8 → List UInt8}
    (hsize : ∀ bytes, (sha256 bytes).length = 32) (canonical : List Char) :
    isPlanId (identifier sha256 canonical) = true := by
  have hhex : Protocol.isLowerHexText 64 (Text.hex (sha256 (Text.utf8 canonical))) = true := by
    rw [Protocol.isLowerHexText, Bool.and_eq_true, decide_eq_true_eq, Text.length_hex, hsize,
      List.all_eq_true]
    exact ⟨rfl, fun c => Text.isLowerHex_of_mem_hex⟩
  have hlength := length_scheme
  unfold isPlanId identifier
  generalize "sha256:".toList = scheme at *
  rw [String.toList_ofList, Bool.and_eq_true, ← hlength, List.drop_left]
  exact ⟨by simp, hhex⟩

theorem identifier_inj {sha256 : List UInt8 → List UInt8} {a b : List Char}
    (h : identifier sha256 a = identifier sha256 b) :
    sha256 (Text.utf8 a) = sha256 (Text.utf8 b) := by
  unfold identifier at h
  rw [String.ofList_inj, List.append_right_inj] at h
  exact Text.hex_injective h

end Inventory

/-! ### The pages -/

section Pages

variable (tables : Tables) (sha256 : List UInt8 → List UInt8) (allowedRoots : List Path)
  (recursive : Bool) (inventories : Set (List DrawingFile))

/-- A client that follows `next_offset` and names the inventory of the page before. -/
structure Reader where
  nextOffset : Option Int
  expectedInventoryId : Option String
  items : List BatchItem
  pages : Nat

def Reader.start : Reader := ⟨some 0, none, [], 0⟩

def Reader.turned (s : Reader) (page : BatchPage) : Reader :=
  ⟨page.nextOffset, some page.inventoryId, s.items ++ page.items, s.pages + 1⟩

/-- A request, with the folder and the plans as they are then. -/
structure Call where
  folder : Folder
  planBuilder : String → Except String Plan
  limit : Int
  maxFiles : Int

def Call.scan (call : Call) : Except String (List DrawingFile) :=
  scanDrawings tables allowedRoots call.folder recursive call.maxFiles

/-- A request for the next page. One that fails leaves the client where it is. -/
def readPage (s : Reader) (call : Call) : Option Reader :=
  match s.nextOffset with
  | none => none
  | some offset =>
    match createBatchPublishPlans tables sha256 allowedRoots call.folder call.planBuilder recursive
      s.expectedInventoryId offset call.limit call.maxFiles with
    | .error _ => some s
    | .ok page => some (s.turned page)

/-- What is scanned is one of these inventories. -/
def Among (_ : Reader) (call : Call) : Prop :=
  ∀ drawings, call.scan tables allowedRoots recursive = .ok drawings → drawings ∈ inventories

/-- The digest tells the inventories apart by their texts. -/
def CollisionFree : Prop := Set.InjOn sha256 (inventoryText tables '' inventories)

def inventoryId (drawings : List DrawingFile) : String :=
  buildDrawingInventoryId tables sha256 (drawings.map DrawingFile.item)

/-- The checks that a request comes through, once the folder is scanned. -/
structure Admitted (drawings : List DrawingFile) (offset limit : Int)
    (expectedInventoryId : Option String) : Prop where
  nonneg : 0 ≤ offset
  bounds : 1 ≤ limit ∧ limit ≤ 50
  bound : 0 < offset → expectedInventoryId ≠ none
  same : ∀ expected, expectedInventoryId = some expected →
    expected = inventoryId tables sha256 drawings

/-- How far a client is that has read the first pages over these drawings. -/
structure Reading (drawings : List DrawingFile) (n : Nat) (s : Reader) : Prop where
  expected : s.expectedInventoryId = some (inventoryId tables sha256 drawings)
  nextOffset : s.nextOffset = if n < drawings.length then some (n : Int) else none
  items : s.items.map BatchItem.drawing = (drawings.map DrawingFile.path).take n
  pages : s.pages ≤ max 1 n
  positive : n < drawings.length → 1 ≤ n

/-- Where a client is: at the start, or over the drawings of one scan. -/
inductive Follows : Reader → Prop
  | start : Follows .start
  | turning {s : Reader} {call : Call} {drawings : List DrawingFile} {n : Nat}
      (mem : drawings ∈ inventories) (scan : call.scan tables allowedRoots recursive = .ok drawings)
      (bound : n ≤ drawings.length) (reading : Reading tables sha256 drawings n s) : Follows s

variable {tables sha256 allowedRoots recursive inventories}

theorem inventoryId_inj (hfree : CollisionFree tables sha256 inventories)
    {drawings drawings' : List DrawingFile} (hmem : drawings ∈ inventories)
    (hmem' : drawings' ∈ inventories)
    (hsorted : (drawings.map DrawingFile.path).Pairwise (Before tables))
    (hsorted' : (drawings'.map DrawingFile.path).Pairwise (Before tables))
    (h : inventoryId tables sha256 drawings = inventoryId tables sha256 drawings') :
    drawings = drawings' :=
  inventoryText_inj hsorted hsorted'
    (hfree (Set.mem_image_of_mem _ hmem) (Set.mem_image_of_mem _ hmem') (identifier_inj h))

theorem buildDrawingInventoryId_ne_empty (items : List InventoryItem) :
    buildDrawingInventoryId tables sha256 items ≠ "" := by
  intro h
  have hlength := length_scheme
  have htext : "sha256:".toList ++ Text.hex (sha256 (Text.utf8 (canonicalInventory tables items))) =
      [] := by
    rw [← String.toList_ofList (l := _ ++ _)]
    exact congrArg String.toList h
  rw [(List.append_eq_nil_iff.1 htext).1] at hlength
  cases hlength

theorem checkOffsets_ok {offset limit : Int} :
    checkOffsets offset limit = .ok () ↔ 0 ≤ offset ∧ 1 ≤ limit ∧ limit ≤ 50 := by
  simp [checkOffsets, require_bind_eq_ok]

theorem checkInventory_ok {offset : Int} {id : String} {expectedInventoryId : Option String}
    (hid : isPlanId id = true) :
    checkInventory offset id expectedInventoryId = .ok () ↔
      (0 < offset → expectedInventoryId ≠ none) ∧
        ∀ expected, expectedInventoryId = some expected → expected = id := by
  simp [checkInventory, require_bind_eq_ok, hid]

theorem createBatchPublishPlans_ok (hsize : ∀ bytes, (sha256 bytes).length = 32) {call : Call}
    {expectedInventoryId : Option String} {offset : Int} {page : BatchPage} :
    createBatchPublishPlans tables sha256 allowedRoots call.folder call.planBuilder recursive
        expectedInventoryId offset call.limit call.maxFiles = .ok page ↔
      ∃ drawings, call.scan tables allowedRoots recursive = .ok drawings ∧
        Admitted tables sha256 drawings offset call.limit expectedInventoryId ∧
        page = pageOf sha256 (inventoryId tables sha256 drawings)
          (drawings.map DrawingFile.path) call.planBuilder offset call.limit := by
  rw [createBatchPublishPlans, bind_eq_ok]
  refine exists_congr fun drawings => and_congr_right fun _ => ?_
  have hid : isPlanId (inventoryId tables sha256 drawings) = true := isPlanId_identifier hsize _
  have hne : inventoryId tables sha256 drawings ≠ "" := buildDrawingInventoryId_ne_empty _
  change buildBatchPage tables sha256 _ _ _ _ (some (inventoryId tables sha256 drawings)) _ = _ ↔ _
  rw [buildBatchPage, bind_eq_ok]
  simp only [if_neg hne]
  constructor
  · rintro ⟨_, hoffsets, h⟩
    obtain ⟨_, hinventory, h⟩ := bind_eq_ok.1 h
    obtain ⟨hnonneg, hbounds⟩ := checkOffsets_ok.1 hoffsets
    obtain ⟨hbound, hsame⟩ := (checkInventory_ok hid).1 hinventory
    exact ⟨⟨hnonneg, hbounds, hbound, hsame⟩, (pure_eq_ok.1 h).symm⟩
  · rintro ⟨⟨hnonneg, hbounds, hbound, hsame⟩, rfl⟩
    exact ⟨(), checkOffsets_ok.2 ⟨hnonneg, hbounds⟩,
      bind_eq_ok.2 ⟨(), (checkInventory_ok hid).2 ⟨hbound, hsame⟩, rfl⟩⟩

/-- A page from an offset on. -/
theorem pageOf_reading {drawings : List DrawingFile} {n : Nat} {limit : Int} (hlimit : 1 ≤ limit)
    (hn : n = 0 ∨ n < drawings.length) {s : Reader} {planBuilder : String → Except String Plan}
    (hitems : s.items.map BatchItem.drawing = (drawings.map DrawingFile.path).take n)
    (hpages : s.pages ≤ n) :
    Reading tables sha256 drawings (min (n + limit.toNat) drawings.length)
      (s.turned (pageOf sha256 (inventoryId tables sha256 drawings)
        (drawings.map DrawingFile.path) planBuilder n limit)) := by
  have hselected : (((drawings.map DrawingFile.path).drop n).take limit.toNat).length =
      min limit.toNat (drawings.length - n) := by simp
  refine ⟨rfl, ?_, ?_, ?_, fun h => ?_⟩
  · simp only [Reader.turned, pageOf, Int.toNat_natCast, hselected, List.length_map]
    split
    · rw [if_pos (by omega)]
      congr 1
      omega
    · rw [if_neg (by omega)]
  · simp only [Reader.turned, pageOf, Int.toNat_natCast, List.map_append, hitems, List.map_map]
    have hcomp : (BatchItem.drawing ∘ fun path => (⟨path, planBuilder path⟩ : BatchItem)) = id :=
      rfl
    rw [hcomp, List.map_id, ← List.take_add, List.take_eq_take_iff, List.length_map]
    omega
  · simp only [Reader.turned]
    omega
  · omega

theorem readPage_ok (hsize : ∀ bytes, (sha256 bytes).length = 32) {s s' : Reader} {call : Call}
    (h : readPage tables sha256 allowedRoots recursive s call = some s') :
    s' = s ∨ ∃ offset drawings, s.nextOffset = some offset ∧
      call.scan tables allowedRoots recursive = .ok drawings ∧
      Admitted tables sha256 drawings offset call.limit s.expectedInventoryId ∧
      s' = s.turned (pageOf sha256 (inventoryId tables sha256 drawings)
        (drawings.map DrawingFile.path) call.planBuilder offset call.limit) := by
  unfold readPage at h
  split at h
  · cases h
  · next offset hoffset =>
    split at h
    · exact .inl (Option.some.inj h).symm
    · next page hpage =>
      obtain ⟨drawings, hscan, hadmitted, rfl⟩ := (createBatchPublishPlans_ok hsize).1 hpage
      exact .inr ⟨offset, drawings, hoffset, hscan, hadmitted, (Option.some.inj h).symm⟩

theorem Reading.going {drawings : List DrawingFile} {n : Nat} {s : Reader}
    (reading : Reading tables sha256 drawings n s) {offset : Int}
    (h : s.nextOffset = some offset) : n < drawings.length ∧ offset = n := by
  rw [reading.nextOffset] at h
  split at h
  · next hmore => exact ⟨hmore, (Option.some.inj h).symm⟩
  · cases h

theorem readPage_follows (hsize : ∀ bytes, (sha256 bytes).length = 32)
    (hfree : CollisionFree tables sha256 inventories) {s s' : Reader} {call : Call}
    (hs : Follows tables sha256 allowedRoots recursive inventories s)
    (hamong : Among tables allowedRoots recursive inventories s call)
    (h : readPage tables sha256 allowedRoots recursive s call = some s') :
    Follows tables sha256 allowedRoots recursive inventories s' := by
  obtain rfl | ⟨offset, drawings, hoffset, hscan, hadmitted, rfl⟩ := readPage_ok hsize h
  · exact hs
  have hmem := hamong drawings hscan
  cases hs with
  | start =>
    obtain rfl := Option.some.inj hoffset
    exact .turning hmem hscan (min_le_right _ _)
      (pageOf_reading hadmitted.bounds.1 (.inl rfl) rfl (Nat.le_refl 0))
  | @turning _ call₀ drawings₀ n hmem₀ hscan₀ hbound reading =>
    obtain ⟨hmore, rfl⟩ := reading.going hoffset
    obtain rfl : drawings₀ = drawings :=
      inventoryId_inj hfree hmem₀ hmem (scanDrawings_scanned hscan₀).sorted
        (scanDrawings_scanned hscan).sorted (hadmitted.same _ reading.expected)
    have hpages := reading.pages
    have hpositive := reading.positive hmore
    exact .turning hmem hscan (min_le_right _ _)
      (pageOf_reading hadmitted.bounds.1 (.inr hmore) reading.items (by omega))

theorem follows_of_reaches (hsize : ∀ bytes, (sha256 bytes).length = 32)
    (hfree : CollisionFree tables sha256 inventories) {s : Reader}
    (h : Reaches (readPage tables sha256 allowedRoots recursive)
      (Among tables allowedRoots recursive inventories) .start s) :
    Follows tables sha256 allowedRoots recursive inventories s :=
  Runs.invariant_of_reaches .start (fun _ _ _ hs => readPage_follows hsize hfree hs) h

theorem readPage_admitted (hsize : ∀ bytes, (sha256 bytes).length = 32) {s : Reader} {call : Call}
    {offset : Int} {drawings : List DrawingFile} (hoffset : s.nextOffset = some offset)
    (hscan : call.scan tables allowedRoots recursive = .ok drawings)
    (hadmitted : Admitted tables sha256 drawings offset call.limit s.expectedInventoryId) :
    readPage tables sha256 allowedRoots recursive s call =
      some (s.turned (pageOf sha256 (inventoryId tables sha256 drawings)
        (drawings.map DrawingFile.path) call.planBuilder offset call.limit)) := by
  have hpage := (createBatchPublishPlans_ok hsize).2 ⟨drawings, hscan, hadmitted, rfl⟩
  simp only [readPage, hoffset, hpage]

theorem readPage_refused (hsize : ∀ bytes, (sha256 bytes).length = 32) {s : Reader} {call : Call}
    {offset : Int} {drawings : List DrawingFile} (hoffset : s.nextOffset = some offset)
    (hscan : call.scan tables allowedRoots recursive = .ok drawings)
    (hrefused : ¬Admitted tables sha256 drawings offset call.limit s.expectedInventoryId) :
    readPage tables sha256 allowedRoots recursive s call = some s := by
  simp only [readPage, hoffset]
  split
  · rfl
  · next page hpage =>
    obtain ⟨other, hother, hadmitted, -⟩ := (createBatchPublishPlans_ok hsize).1 hpage
    obtain rfl := Except.ok.inj (hscan.symm.trans hother)
    exact absurd hadmitted hrefused

/-- A client that follows the pages of a folder, which may change before every request, gets the
drawings of one scan, each once and in its order. A request over that scan is served; one over
another is refused and leaves the client where it is. -/
theorem planning_complete (hsize : ∀ bytes, (sha256 bytes).length = 32)
    (hfree : CollisionFree tables sha256 inventories) {s : Reader}
    (h : Reaches (readPage tables sha256 allowedRoots recursive)
      (Among tables allowedRoots recursive inventories) .start s) :
    s = .start ∨ ∃ (first : Call) (drawings : List DrawingFile),
      first.scan tables allowedRoots recursive = .ok drawings ∧
      Scanned tables allowedRoots first.folder recursive drawings ∧
      s.items.map BatchItem.drawing <+: drawings.map DrawingFile.path ∧
      (s.nextOffset = none → s.items.map BatchItem.drawing = drawings.map DrawingFile.path) ∧
      s.pages ≤ max 1 drawings.length ∧
      ∀ offset, s.nextOffset = some offset → ∀ (call : Call) (found : List DrawingFile),
        Among tables allowedRoots recursive inventories s call →
        call.scan tables allowedRoots recursive = .ok found → 1 ≤ call.limit ∧ call.limit ≤ 50 →
          (found = drawings → ∃ page, page.items ≠ [] ∧
            readPage tables sha256 allowedRoots recursive s call = some (s.turned page)) ∧
          (found ≠ drawings →
            readPage tables sha256 allowedRoots recursive s call = some s) := by
  cases follows_of_reaches hsize hfree h with
  | start => exact .inl rfl
  | @turning _ first drawings n hmem hscan hbound reading =>
    refine .inr ⟨first, drawings, hscan, scanDrawings_scanned hscan, ?_, fun hdone => ?_, ?_,
      fun offset hoffset call found hamong hfound hlimit => ?_⟩
    · rw [reading.items]
      exact List.take_prefix _ _
    · have hlast : ¬n < drawings.length := by
        intro hmore
        rw [reading.nextOffset, if_pos hmore] at hdone
        cases hdone
      rw [reading.items, List.take_of_length_le]
      rw [List.length_map]
      omega
    · have hpages := reading.pages
      omega
    · obtain ⟨hmore, rfl⟩ := reading.going hoffset
      refine ⟨?_, fun hne => readPage_refused hsize hoffset hfound fun hadmitted => hne ?_⟩
      · rintro rfl
        refine ⟨_, ?_, readPage_admitted hsize hoffset hfound
          ⟨by omega, hlimit, fun _ => by simp [reading.expected], fun expected hexpected => ?_⟩⟩
        · simp only [pageOf, ne_eq, List.map_eq_nil_iff, List.take_eq_nil_iff, List.drop_eq_nil_iff,
            List.length_map]
          omega
        · exact Option.some.inj (hexpected.symm.trans reading.expected)
      · exact (inventoryId_inj hfree hmem (hamong found hfound) (scanDrawings_scanned hscan).sorted
          (scanDrawings_scanned hfound).sorted (hadmitted.same _ reading.expected)).symm

end Pages

section Example

theorem digit_itself (c : Char) (_ : c.isDigit = true) : [c] = [c] := rfl

def lowerTables : Tables where
  casefold c := [c.toLower]
  lower c := [c]
  upper c := [c]
  fileName c := [c.toUpper]
  fullPath _ := true
  isalnum := Char.isAlphanum
  lower_digit := digit_itself
  upper_digit := digit_itself

/-- The files of a project, one of them in a folder that is a link. -/
def project (names : List String) : Folder where
  root := .ok ["p"]
  isDirectory := true
  entries :=
    ⟨[true], "z.dwg", .ok ["z", "z.dwg"]⟩ :: names.map fun name => ⟨[], name, .ok ["p", name]⟩
  isFile _ := true
  stat path := .ok (path.length, "2026-01-01T00:00:00+00:00")
  text path := "/" ++ "/".intercalate path
  order := List.dedup
  order_perm _ := .refl _

def planningCall (names : List String) (limit : Int) : Call where
  folder := project names
  planBuilder _ := .ok [("ready", .bool true)]
  limit := limit
  maxFiles := 5000

/-- The digests of the two inventories that the run comes upon, which differ in their lengths. -/
def projectDigest (bytes : List UInt8) : List UInt8 :=
  if bytes.length = 157 then
    [48, 34, 16, 2, 222, 106, 33, 15, 120, 55, 61, 50, 3, 160, 213, 17, 141, 195, 62, 124, 87, 96,
      34, 230, 139, 64, 2, 251, 164, 106, 11, 26]
  else
    [95, 154, 153, 9, 163, 246, 117, 27, 218, 29, 127, 171, 163, 79, 127, 187, 22, 172, 206, 207,
      198, 22, 100, 126, 44, 3, 208, 153, 155, 239, 19, 47]

theorem length_projectDigest (bytes : List UInt8) : (projectDigest bytes).length = 32 := by
  rw [projectDigest]
  split
  · rfl
  · rfl

def projectDrawing (name : String) : DrawingFile :=
  ⟨"/p/" ++ name, 2, "2026-01-01T00:00:00+00:00"⟩

def projectInventories : Set (List DrawingFile) :=
  {[projectDrawing "A.dwg", projectDrawing "b.dwg"],
    [projectDrawing "A.dwg", projectDrawing "b.dwg", projectDrawing "C.dwg"]}

/-- A drawing is added behind the first page and taken away again. -/
def planningRun : List Call :=
  [planningCall ["b.dwg", "A.dwg", "~A.dwg", "b.txt"] 1, planningCall ["C.dwg", "b.dwg", "A.dwg"] 1,
    planningCall ["A.dwg", "b.dwg"] 50]

theorem among_project {call : Call} (h : call ∈ planningRun) (s : Reader) :
    Among lowerTables [["p"]] true projectInventories s call := by
  have hscan : ∃ drawings ∈ projectInventories,
      call.scan lowerTables [["p"]] true = .ok drawings := by
    simp only [planningRun, List.mem_cons, List.not_mem_nil, or_false] at h
    rcases h with rfl | rfl | rfl
    · exact ⟨_, .inl rfl, by decide +kernel⟩
    · exact ⟨_, .inr rfl, by decide +kernel⟩
    · exact ⟨_, .inl rfl, by decide +kernel⟩
  obtain ⟨drawings, hmem, hscan⟩ := hscan
  intro other hother
  obtain rfl := Except.ok.inj (hscan.symm.trans hother)
  exact hmem

theorem collisionFree_project : CollisionFree lowerTables projectDigest projectInventories := by
  rintro _ ⟨a, ha, rfl⟩ _ ⟨b, hb, rfl⟩ h
  rcases ha with rfl | rfl <;> rcases hb with rfl | rfl
  · rfl
  · exact absurd h (by decide +kernel)
  · exact absurd h (by decide +kernel)
  · rfl

theorem planning_complete_project : ∃ (s : Reader) (first : Call) (drawings : List DrawingFile),
    s.nextOffset = none ∧ s.pages = 2 ∧ first.scan lowerTables [["p"]] true = .ok drawings ∧
      s.items.map BatchItem.drawing = drawings.map DrawingFile.path := by
  obtain ⟨s, hreach, hs⟩ := exists_reaches_of_run (readPage lowerTables projectDigest [["p"]] true)
    (Among lowerTables [["p"]] true projectInventories) .start planningRun
    (fun s => decide (s.nextOffset = none ∧ s.pages = 2))
    (along_of_forall (fun _ => among_project) _) (by decide +kernel)
  obtain ⟨hdone, hpages⟩ := of_decide_eq_true hs
  obtain rfl | ⟨first, drawings, hscan, -, -, hitems, -⟩ :=
    planning_complete length_projectDigest collisionFree_project hreach
  · cases hdone
  · exact ⟨s, first, drawings, hdone, hpages, hscan, hitems hdone⟩

end Example

end CadPlot.Publish.Batches
