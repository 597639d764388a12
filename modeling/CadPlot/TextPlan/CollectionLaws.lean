import CadPlot.Lib.JsonInjective
import CadPlot.TextPlan.Collection
import CadPlot.TextPlan.ReviewLaws

/-!
# Every text is listed once

A scan that ends has listed every text that is resident in the document, under
an id of its own, however often its block is inserted. What it could not list or
may not write it has named among the blockers.
-/

namespace CadPlot.TextPlan

open Traversal
open Relation (ReflTransGen)

/-! ### The ids of texts -/

section Keys

/-- The last colon of a text splits it. -/
theorem last_colon {a b x y : List Char} (hx : ':' ∉ x) (hy : ':' ∉ y)
    (h : a ++ ':' :: x = b ++ ':' :: y) : a = b ∧ x = y := by
  obtain ⟨w, rfl, hw⟩ | ⟨w, rfl, hw⟩ := List.append_eq_append_iff.1 h
  · cases w with
    | nil => exact ⟨(List.append_nil a).symm, (List.cons.inj hw).2⟩
    | cons c w =>
      obtain ⟨rfl, hrest⟩ := List.cons.inj hw
      refine absurd ?_ hx
      rw [hrest]
      exact List.mem_append_right _ List.mem_cons_self
  · cases w with
    | nil => exact ⟨List.append_nil b, (List.cons.inj hw).2.symm⟩
    | cons c w =>
      obtain ⟨rfl, hrest⟩ := List.cons.inj hw
      refine absurd ?_ hy
      rw [hrest]
      exact List.mem_append_right _ List.mem_cons_self

theorem colon_notMem_int (n : Int) : ':' ∉ (toString n).toList := fun h => by
  have hnumeral : Json.isNumeral ':' = true := Json.isNumeral_renderInt (n := n) h
  cases hnumeral

theorem colon_notMem_name (p : TextProperty) : ':' ∉ p.name.toList := by
  cases p <;> decide

theorem name_injective {p p' : TextProperty} (h : p.name.toList = p'.name.toList) : p = p' := by
  cases p <;> cases p' <;> first | rfl | exact absurd h (by decide)

/-- A name of a property is no number. -/
theorem name_ne_int {p : TextProperty} {n : Int} : p.name.toList ≠ (toString n).toList := by
  intro h
  have hletter : ∃ c ∈ p.name.toList, Json.isNumeral c = false := by
    cases p
    · exact ⟨'T', by decide, by decide⟩
    · exact ⟨'M', by decide, by decide⟩
    · exact ⟨'T', by decide, by decide⟩
    · exact ⟨'t', by decide, by decide⟩
  obtain ⟨c, hc, hfalse⟩ := hletter
  rw [h] at hc
  rw [Json.isNumeral_renderInt (n := n) hc] at hfalse
  cases hfalse

theorem toList_key_cell {handle : String} {slot : TextSlot} (h : slot.property = .table) :
    (slot.key handle).toList = ((handle.toList ++ ':' :: slot.property.name.toList) ++
      ':' :: (toString slot.row).toList) ++ ':' :: (toString slot.column).toList := by
  simp [TextSlot.key, h]

theorem toList_key {handle : String} {slot : TextSlot} (h : slot.property ≠ .table) :
    (slot.key handle).toList = handle.toList ++ ':' :: slot.property.name.toList := by
  simp [TextSlot.key, h]

/-- An id says which text it is the id of. -/
theorem key_inj {handle handle' : String} {slot slot' : TextSlot}
    (h : slot.key handle = slot'.key handle') :
    handle = handle' ∧ slot.property = slot'.property ∧
      (slot.property = .table → slot.row = slot'.row ∧ slot.column = slot'.column) := by
  have htext := congrArg String.toList h
  by_cases hcell : slot.property = .table
  · rw [toList_key_cell hcell] at htext
    by_cases hcell' : slot'.property = .table
    · rw [toList_key_cell hcell'] at htext
      obtain ⟨hfront, hcolumn⟩ := last_colon (colon_notMem_int _) (colon_notMem_int _) htext
      obtain ⟨hfront, hrow⟩ := last_colon (colon_notMem_int _) (colon_notMem_int _) hfront
      obtain ⟨hhandle, -⟩ := last_colon (colon_notMem_name _) (colon_notMem_name _) hfront
      exact ⟨String.toList_inj.1 hhandle, hcell.trans hcell'.symm,
        fun _ => ⟨Json.renderInt_inj hrow, Json.renderInt_inj hcolumn⟩⟩
    · rw [toList_key hcell'] at htext
      obtain ⟨-, hname⟩ := last_colon (colon_notMem_int _) (colon_notMem_name _) htext
      exact absurd hname.symm name_ne_int
  · rw [toList_key hcell] at htext
    by_cases hcell' : slot'.property = .table
    · rw [toList_key_cell hcell'] at htext
      obtain ⟨-, hname⟩ := last_colon (colon_notMem_name _) (colon_notMem_int _) htext
      exact absurd hname name_ne_int
    · rw [toList_key hcell'] at htext
      obtain ⟨hhandle, hname⟩ := last_colon (colon_notMem_name _) (colon_notMem_name _) htext
      exact ⟨String.toList_inj.1 hhandle, name_injective hname, fun h => absurd h hcell⟩

end Keys

variable {γ : Type} {d : TextDocument γ}

/-- The texts of an entity that are not empty. -/
def TextDocument.listed (d : TextDocument γ) (e : TextEntity γ) : List TextSlot :=
  (d.slots e).filter fun slot => slot.raw ≠ ""

def TextDocument.recordsOf (d : TextDocument γ) (x : TextBlock × String) : List TextRecord :=
  (d.listed (d.entity x.2)).map (TextSlot.record x.1 x.2 (d.entity x.2))

theorem keys_nodup (e : TextEntity γ) (handle : String) :
    ((d.slots e).map (TextSlot.key handle)).Nodup := by
  unfold TextDocument.slots
  split
  · exact List.nodup_singleton _
  · rw [List.map_map]
    refine List.Nodup.map_on ?_ ?_
    · rintro ⟨row, column⟩ - ⟨row', column'⟩ - heq
      obtain ⟨-, -, hcell⟩ := key_inj heq
      obtain ⟨hrow, hcolumn⟩ := hcell rfl
      exact Prod.ext (Int.ofNat.inj hrow) (Int.ofNat.inj hcolumn)
    · refine List.nodup_flatMap.2 ⟨fun row _ => ?_, ?_⟩
      · exact List.nodup_range.map fun _ _ h => (Prod.mk.inj h).2
      · refine List.nodup_range.imp fun {row row'} hne => ?_
        refine List.disjoint_left.2 ?_
        intro x hx hx'
        obtain ⟨column, -, rfl⟩ := List.mem_map.1 hx
        obtain ⟨column', -, heq⟩ := List.mem_map.1 hx'
        exact hne (Prod.mk.inj heq).1.symm
  · exact List.nodup_nil

/-- Entities with handles of their own have texts with ids of their own. -/
theorem ids_nodup {new : List (TextBlock × String)} (h : (new.map Prod.snd).Nodup) :
    ((new.flatMap d.recordsOf).map TextRecord.id).Nodup := by
  have hids : ∀ x, (d.recordsOf x).map TextRecord.id =
      (d.listed (d.entity x.2)).map (TextSlot.key x.2) := fun x => by
    rw [TextDocument.recordsOf, List.map_map]
    rfl
  rw [List.map_flatMap, List.nodup_flatMap]
  refine ⟨fun x _ => ?_, (List.pairwise_map.1 h).imp fun {x y} hne => ?_⟩
  · rw [hids]
    exact (keys_nodup _ _).sublist (List.filter_sublist.map _)
  · refine List.disjoint_left.2 ?_
    intro id hx hy
    dsimp only at hx hy
    rw [hids] at hx hy
    obtain ⟨slot, -, rfl⟩ := List.mem_map.1 hx
    obtain ⟨slot', -, heq⟩ := List.mem_map.1 hy
    exact hne (key_inj heq).1.symm

/-! ### What an entity adds -/

def TextDocument.blockersOf (d : TextDocument γ) (x : TextBlock × String) : List String :=
  (d.entity x.2).blockers x.2 ++ (d.listed (d.entity x.2)).flatMap (TextSlot.blockers x.2)

def TextDocument.itemsOf (d : TextDocument γ) (x : TextBlock × String) : List (StructureItem γ) :=
  match (d.entity x.2).guarded with
  | .ok guard => [(d.entity x.2).item x.2 guard]
  | .error _ => []

def characters (slots : List TextSlot) : Nat := (slots.map fun slot => slot.raw.length).sum

/-- What has been collected when more entities have been entered. -/
def Collected.joined (d : TextDocument γ) (s : Collected γ) (new : List (TextBlock × String)) :
    Collected γ where
  records := s.records ++ new.flatMap d.recordsOf
  blockers := s.blockers ++ new.flatMap d.blockersOf
  structureItems := s.structureItems ++ new.flatMap d.itemsOf
  visited := s.visited ++ new.map Prod.snd
  characterCount := s.characterCount + (new.map fun x => characters (d.slots (d.entity x.2))).sum

theorem Collected.joined_nil (s : Collected γ) : s.joined d [] = s := by
  simp [Collected.joined]

theorem Collected.joined_cons (s : Collected γ) (x : TextBlock × String)
    (new : List (TextBlock × String)) : s.joined d (x :: new) = (s.joined d [x]).joined d new := by
  simp [Collected.joined, Nat.add_assoc]

/-- What has been collected is within the limits of the inventory. -/
structure Collected.Within (s : Collected γ) : Prop where
  records : s.records.length ≤ maxTexts
  characters : s.characterCount ≤ maxTotalChars

/-- What more texts make of what has been collected. -/
def Collected.adding (block : TextBlock) (handle : String) (e : TextEntity γ) (s : Collected γ)
    (slots : List TextSlot) : Collected γ :=
  let listed := slots.filter fun slot => slot.raw ≠ ""
  { s with
    records := s.records ++ listed.map (TextSlot.record block handle e)
    blockers := s.blockers ++ listed.flatMap (TextSlot.blockers handle)
    characterCount := s.characterCount + characters slots }

theorem Collected.adding_cons {block : TextBlock} {handle : String} {e : TextEntity γ}
    (s : Collected γ) (slot : TextSlot) (slots : List TextSlot) :
    s.adding block handle e (slot :: slots) =
      (s.adding block handle e [slot]).adding block handle e slots := by
  by_cases hraw : slot.raw = ""
  · simp [Collected.adding, characters, hraw]
  · simp [Collected.adding, characters, hraw, Nat.add_assoc]

theorem add_eq_ok {block : TextBlock} {handle : String} {e : TextEntity γ} {s t : Collected γ}
    (hs : s.Within) {slot : TextSlot} : s.add block handle e slot = .ok t ↔
      (slot.raw.length ≤ maxTextChars ∧ (s.adding block handle e [slot]).Within) ∧
        t = s.adding block handle e [slot] := by
  unfold Collected.add
  by_cases hraw : slot.raw = ""
  · have hsame : s.adding block handle e [slot] = s := by
      simp [Collected.adding, characters, hraw]
    rw [if_pos hraw, hsame, Except.ok.injEq, eq_comm]
    refine (and_iff_right ⟨?_, hs⟩).symm
    simp [hraw]
  · have hnext : s.adding block handle e [slot] =
        { s with
          records := s.records ++ [slot.record block handle e]
          blockers := s.blockers ++ slot.blockers handle
          characterCount := s.characterCount + slot.raw.length } := by
      simp [Collected.adding, characters, hraw]
    rw [if_neg hraw, ensure_bind_eq_ok, ensure_bind_eq_ok, pure_eq_ok, hnext, decide_eq_true_eq,
      decide_eq_true_eq, not_or, Nat.not_le, Nat.not_lt]
    constructor
    · rintro ⟨hlength, ⟨hrecords, hcount⟩, rfl⟩
      refine ⟨⟨hlength, ?_, hcount⟩, rfl⟩
      rw [List.length_append, List.length_singleton]
      exact hrecords
    · rintro ⟨⟨hlength, hrecords, hcount⟩, rfl⟩
      rw [List.length_append, List.length_singleton] at hrecords
      exact ⟨hlength, ⟨hrecords, hcount⟩, rfl⟩

/-- The texts of an entity are added one by one, or not at all. -/
theorem addAll_eq_ok {block : TextBlock} {handle : String} {e : TextEntity γ}
    {slots : List TextSlot}
    {s t : Collected γ} (hs : s.Within) :
    slots.foldlM (Collected.add block handle e) s = .ok t ↔
      ((∀ slot ∈ slots, slot.raw.length ≤ maxTextChars) ∧
        (s.adding block handle e slots).Within) ∧ t = s.adding block handle e slots := by
  induction slots generalizing s with
  | nil =>
    have hsame : s.adding block handle e [] = s := by simp [Collected.adding, characters]
    rw [List.foldlM_nil, pure_eq_ok, hsame, eq_comm]
    exact (and_iff_right ⟨fun _ h => absurd h List.not_mem_nil, hs⟩).symm
  | cons slot slots ih =>
    rw [foldlM_cons_eq_ok, Collected.adding_cons, List.forall_mem_cons]
    constructor
    · rintro ⟨u, hadd, hrest⟩
      obtain ⟨⟨hlength, hu⟩, rfl⟩ := (add_eq_ok hs).1 hadd
      obtain ⟨⟨hlengths, ht⟩, rfl⟩ := (ih hu).1 hrest
      exact ⟨⟨⟨hlength, hlengths⟩, ht⟩, rfl⟩
    · rintro ⟨⟨⟨hlength, hlengths⟩, ht⟩, rfl⟩
      have hu : (s.adding block handle e [slot]).Within := by
        refine ⟨?_, ?_⟩
        · have hrecords := ht.records
          simp only [Collected.adding, List.length_append] at hrecords ⊢
          omega
        · have hcount := ht.characters
          simp only [Collected.adding] at hcount ⊢
          omega
      exact ⟨_, (add_eq_ok hs).2 ⟨⟨hlength, hu⟩, rfl⟩, (ih hu).2 ⟨⟨hlengths, ht⟩, rfl⟩⟩

/-- What an entity needs to be entered, apart from the limits of the inventory. -/
def TextDocument.Enterable (d : TextDocument γ) (x : TextBlock × String) : Prop :=
  (∃ guard, (d.entity x.2).guarded = .ok guard) ∧
    ∀ slot ∈ d.slots (d.entity x.2), slot.raw.length ≤ maxTextChars

/-- What has been collected when an entity is visited, before its texts. -/
def Collected.opened (d : TextDocument γ) (s : Collected γ) (x : TextBlock × String) (guard : γ) :
    Collected γ :=
  { s with
    blockers := s.blockers ++ (d.entity x.2).blockers x.2
    structureItems := s.structureItems ++ [(d.entity x.2).item x.2 guard]
    visited := s.visited ++ [x.2] }

theorem enter_eq_ok {s t : Collected γ} (hs : s.Within) {x : TextBlock × String} :
    d.enter s x = .ok t ↔
      (s.visited.length + 1 ≤ maxEntities ∧ d.Enterable x ∧ (s.joined d [x]).Within) ∧
        t = s.joined d [x] := by
  have hjoined : ∀ guard, (d.entity x.2).guarded = .ok guard →
      (s.opened d x guard).adding x.1 x.2 (d.entity x.2) (d.slots (d.entity x.2)) =
        s.joined d [x] := by
    intro guard hguard
    simp [Collected.adding, Collected.opened, Collected.joined, TextDocument.recordsOf,
      TextDocument.blockersOf,
      TextDocument.itemsOf, TextDocument.listed, hguard]
  have hopened : ∀ guard, (s.opened d x guard).Within := fun _ => ⟨hs.records, hs.characters⟩
  unfold TextDocument.enter
  rw [ensure_bind_eq_ok, decide_eq_true_eq, bind_eq_ok]
  constructor
  · rintro ⟨hlimit, guard, hguard, hadd⟩
    obtain ⟨⟨hlengths, hwithin⟩, rfl⟩ := (addAll_eq_ok (hopened guard)).1 hadd
    rw [hjoined guard hguard] at hwithin ⊢
    exact ⟨⟨hlimit, ⟨⟨guard, hguard⟩, hlengths⟩, hwithin⟩, rfl⟩
  · rintro ⟨⟨hlimit, ⟨⟨guard, hguard⟩, hlengths⟩, hwithin⟩, rfl⟩
    refine ⟨hlimit, guard, hguard, (addAll_eq_ok (hopened guard)).2 ?_⟩
    rw [hjoined guard hguard]
    exact ⟨⟨hlengths, hwithin⟩, rfl⟩

/-- Entities are entered one after the other within the limits, or the scan fails. -/
theorem enterAll_eq_ok {new : List (TextBlock × String)} {s t : Collected γ} (hs : s.Within)
    (hvisited : s.visited.length ≤ maxEntities) : new.foldlM d.enter s = .ok t ↔
      (s.visited.length + new.length ≤ maxEntities ∧ (∀ x ∈ new, d.Enterable x) ∧
        (s.joined d new).Within) ∧ t = s.joined d new := by
  induction new generalizing s with
  | nil =>
    rw [List.foldlM_nil, pure_eq_ok, Collected.joined_nil, eq_comm]
    exact (and_iff_right ⟨hvisited, fun _ h => absurd h List.not_mem_nil, hs⟩).symm
  | cons x new ih =>
    have hlength : (s.joined d [x]).visited.length = s.visited.length + 1 := by
      simp [Collected.joined]
    rw [foldlM_cons_eq_ok, Collected.joined_cons, List.forall_mem_cons, List.length_cons]
    constructor
    · rintro ⟨u, henter, hrest⟩
      obtain ⟨⟨hlimit, hx, hu⟩, rfl⟩ := (enter_eq_ok hs).1 henter
      obtain ⟨⟨hlimits, hnew, ht⟩, rfl⟩ := (ih hu (by omega)).1 hrest
      exact ⟨⟨by omega, ⟨hx, hnew⟩, ht⟩, rfl⟩
    · rintro ⟨⟨hlimits, ⟨hx, hnew⟩, ht⟩, rfl⟩
      have hu : (s.joined d [x]).Within := by
        refine ⟨?_, ?_⟩
        · have hrecords := ht.records
          rw [← Collected.joined_cons] at hrecords
          simp only [Collected.joined, List.flatMap_cons, List.flatMap_nil, List.append_nil,
            List.length_append] at hrecords ⊢
          omega
        · have hcount := ht.characters
          rw [← Collected.joined_cons] at hcount
          simp only [Collected.joined, List.map_cons, List.map_nil, List.sum_cons,
            List.sum_nil] at hcount ⊢
          omega
      exact ⟨_, (enter_eq_ok hs).2 ⟨⟨by omega, hx, hu⟩, rfl⟩,
        (ih hu (by omega)).2 ⟨⟨by omega, hnew, ht⟩, rfl⟩⟩

/-! ### The whole scan -/

/-- One entity hangs on another. -/
def TextDocument.Leads (d : TextDocument γ) (handle below : String) : Prop :=
  below ∈ (d.entity handle).children

/-- An entity of a block definition of the document, or one that hangs on it. -/
def TextDocument.Resident (d : TextDocument γ) (block : TextBlock) (handle : String) : Prop :=
  block ∈ d.blocks ∧ block.isXRef = false ∧
    ∃ root ∈ block.entities, ReflTransGen d.Leads root handle

def xrefBlocker (block : TextBlock) : String := "external_reference:" ++ block.name

/-- What a scan of blocks has entered, and what it has collected. -/
structure Scanned (d : TextDocument γ) (blocks : List TextBlock) (s t : Collected γ)
    (new : List (TextBlock × String)) : Prop where
  records : t.records = s.records ++ new.flatMap d.recordsOf
  visited : t.visited = s.visited ++ new.map Prod.snd
  nodup : (new.map Prod.snd).Nodup
  fresh : ∀ x ∈ new, x.2 ∉ s.visited
  rooted : ∀ block ∈ blocks, block.isXRef = false → ∀ handle ∈ block.entities, handle ∈ t.visited
  closed : ∀ x ∈ new, ∀ below, d.Leads x.2 below → below ∈ t.visited
  reached : ∀ x ∈ new, x.1 ∈ blocks ∧ x.1.isXRef = false ∧
    ∃ root ∈ x.1.entities, ReflTransGen d.Leads root x.2
  blockers : ∀ text, text ∈ t.blockers ↔ text ∈ s.blockers ∨
    (∃ block ∈ blocks, block.isXRef = true ∧ text = xrefBlocker block) ∨
      ∃ x ∈ new, text ∈ d.blockersOf x
  within : t.Within
  limit : t.visited.length ≤ maxEntities

theorem Scanned.none {s : Collected γ} (hs : s.Within) (hlimit : s.visited.length ≤ maxEntities) :
    Scanned d [] s s [] where
  records := (List.append_nil _).symm
  visited := (List.append_nil _).symm
  nodup := List.nodup_nil
  fresh _ h := absurd h List.not_mem_nil
  rooted _ h := absurd h List.not_mem_nil
  closed _ h := absurd h List.not_mem_nil
  reached _ h := absurd h List.not_mem_nil
  blockers text := by simp
  within := hs
  limit := hlimit

theorem Scanned.append {blocks blocks' : List TextBlock} {s t u : Collected γ}
    {new new' : List (TextBlock × String)} (h : Scanned d blocks s t new)
    (h' : Scanned d blocks' t u new') : Scanned d (blocks ++ blocks') s u (new ++ new') := by
  have hkept : ∀ handle, handle ∈ t.visited → handle ∈ u.visited := fun handle hhandle => by
    rw [h'.visited]
    exact List.mem_append_left _ hhandle
  refine ⟨?_, ?_, ?_, ?_, ?_, ?_, ?_, ?_, h'.within, h'.limit⟩
  · rw [h'.records, h.records, List.flatMap_append, List.append_assoc]
  · rw [h'.visited, h.visited, List.map_append, List.append_assoc]
  · rw [List.map_append]
    refine h.nodup.append h'.nodup fun handle hold hnew => ?_
    obtain ⟨x, hx, rfl⟩ := List.mem_map.1 hnew
    refine h'.fresh x hx ?_
    rw [h.visited]
    exact List.mem_append_right _ hold
  · refine List.forall_mem_append.2 ⟨h.fresh, fun x hx hold => h'.fresh x hx ?_⟩
    rw [h.visited]
    exact List.mem_append_left _ hold
  · exact List.forall_mem_append.2
      ⟨fun block hblock hxref handle hh => hkept _ (h.rooted block hblock hxref handle hh),
        h'.rooted⟩
  · exact List.forall_mem_append.2
      ⟨fun x hx below hleads => hkept _ (h.closed x hx below hleads), h'.closed⟩
  · refine List.forall_mem_append.2 ⟨fun x hx => ?_, fun x hx => ?_⟩
    · exact ⟨List.mem_append_left _ (h.reached x hx).1, (h.reached x hx).2⟩
    · exact ⟨List.mem_append_right _ (h'.reached x hx).1, (h'.reached x hx).2⟩
  · intro text
    rw [h'.blockers, h.blockers]
    simp only [List.mem_append, or_and_right, exists_or]
    rw [or_assoc, or_assoc, or_or_or_comm, or_assoc]

/-- The entities below an entity of a block are entered under that block. -/
theorem path_in_block {x y : TextBlock × String}
    (h : ReflTransGen (fun a b => b ∈ d.childrenOf a) x y) :
    y.1 = x.1 ∧ ReflTransGen d.Leads x.2 y.2 := by
  induction h with
  | refl => exact ⟨rfl, .refl⟩
  | tail _ hstep ih =>
    obtain ⟨handle, hhandle, rfl⟩ := List.mem_map.1 hstep
    exact ⟨ih.1, ih.2.tail hhandle⟩

theorem seen_enter : ∀ (s : Collected γ) (x : TextBlock × String) (t : Collected γ),
    d.enter s x = .ok t → t.visited = s.visited ++ [x.2] := by
  have hadd : ∀ (block : TextBlock) (handle : String) (e : TextEntity γ) (slots : List TextSlot)
      (s t : Collected γ), slots.foldlM (Collected.add block handle e) s = .ok t →
        t.visited = s.visited := by
    intro block handle e slots
    induction slots with
    | nil =>
      intro s t h
      obtain rfl := pure_eq_ok.1 h
      rfl
    | cons slot slots ih =>
      intro s t h
      obtain ⟨u, hu, h⟩ := foldlM_cons_eq_ok.1 h
      rw [ih u t h]
      unfold Collected.add at hu
      split at hu
      · rw [Except.ok.inj hu]
      · obtain ⟨-, hu⟩ := ensure_bind_eq_ok.1 hu
        obtain ⟨-, hu⟩ := ensure_bind_eq_ok.1 hu
        obtain rfl := pure_eq_ok.1 hu
        rfl
  intro s x t h
  obtain ⟨-, h⟩ := ensure_bind_eq_ok.1 h
  obtain ⟨guard, -, h⟩ := bind_eq_ok.1 h
  exact hadd _ _ _ _ _ _ h

/-- The entities that are visited are entered in an order that depends on their attributes only. -/
theorem walked_of_visits {d' : TextDocument γ} (hchildren : d'.childrenOf = d.childrenOf)
    {roots : List (TextBlock × String)} {s t : Collected γ} (h : roots.foldlM d.visit s = .ok t) :
    ∃ new, Walked d.childrenOf Prod.snd Collected.visited d.enter roots s t new ∧
      ∀ s' t', s'.visited = s.visited → new.foldlM d'.enter s' = .ok t' →
        roots.foldlM d'.visit s' = .ok t' := by
  unfold TextDocument.visit at h ⊢
  rw [hchildren]
  generalize maxEntities + 1 = levels at h
  obtain ⟨new, hwalked, hfollows⟩ := walked_of_walk seen_enter (seen_enter (d := d')) h
  exact ⟨new, hwalked, hfollows⟩

/-- The scan before the entities of a block. -/
def Collected.headed (s : Collected γ) (block : TextBlock) : Collected γ :=
  { s with structureItems := s.structureItems ++ [.block block.name block.handle] }

theorem visitBlock_scanned {s t : Collected γ} {block : TextBlock} (hs : s.Within)
    (hlimit : s.visited.length ≤ maxEntities) (h : d.visitBlock s block = .ok t) :
    ∃ new, Scanned d [block] s t new := by
  unfold TextDocument.visitBlock at h
  split at h
  · next hxref =>
    obtain rfl := Except.ok.inj h
    refine ⟨[], (List.append_nil _).symm, (List.append_nil _).symm, List.nodup_nil,
      fun _ h => absurd h List.not_mem_nil, ?_, fun _ h => absurd h List.not_mem_nil,
      fun _ h => absurd h List.not_mem_nil, fun text => ?_, ⟨hs.records, hs.characters⟩, hlimit⟩
    · rintro other hother hfalse
      rw [List.mem_singleton.1 hother, hxref] at hfalse
      cases hfalse
    · change text ∈ s.blockers ++ [xrefBlocker block] ↔ _
      rw [List.mem_append]
      refine or_congr_right ⟨fun h => ?_, ?_⟩
      · exact .inl ⟨block, List.mem_singleton_self _, hxref, List.mem_singleton.1 h⟩
      · rintro (⟨other, hother, -, rfl⟩ | ⟨x, hx, -⟩)
        · rw [List.mem_singleton.1 hother]
          exact List.mem_singleton_self _
        · exact absurd hx List.not_mem_nil
  · next hxref =>
    rw [Bool.not_eq_true] at hxref
    have hheaded : (s.headed block).Within := ⟨hs.records, hs.characters⟩
    obtain ⟨new, hwalked, -⟩ := walked_of_visits rfl h
    obtain ⟨⟨hlimits, -, hwithin⟩, rfl⟩ := (enterAll_eq_ok hheaded hlimit).1 hwalked.entered
    refine ⟨new, rfl, rfl, hwalked.nodup, hwalked.fresh, ?_, ?_, ?_, fun text => ?_, hwithin, ?_⟩
    · rintro other hother - handle hhandle
      obtain rfl := List.mem_singleton.1 hother
      exact hwalked.rooted (other, handle) (List.mem_map_of_mem hhandle)
    · intro x hx below hleads
      exact hwalked.closed x hx (x.1, below) (List.mem_map_of_mem hleads)
    · intro x hx
      obtain ⟨root, hroot, hpath⟩ := hwalked.reached x hx
      obtain ⟨handle, hhandle, rfl⟩ := List.mem_map.1 hroot
      obtain ⟨hblock, hpath⟩ := path_in_block hpath
      rw [hblock]
      exact ⟨List.mem_singleton_self _, hxref, handle, hhandle, hpath⟩
    · change text ∈ s.blockers ++ new.flatMap d.blockersOf ↔ _
      rw [List.mem_append, List.mem_flatMap]
      refine or_congr_right ⟨.inr, ?_⟩
      rintro (⟨other, hother, htrue, -⟩ | hmem)
      · rw [List.mem_singleton.1 hother, hxref] at htrue
        cases htrue
      · exact hmem
    · change (s.visited ++ new.map Prod.snd).length ≤ maxEntities
      rw [List.length_append, List.length_map]
      exact hlimits

theorem visitBlocks_scanned {blocks : List TextBlock} {s t : Collected γ} (hs : s.Within)
    (hlimit : s.visited.length ≤ maxEntities) (h : blocks.foldlM d.visitBlock s = .ok t) :
    ∃ new, Scanned d blocks s t new := by
  induction blocks generalizing s with
  | nil =>
    obtain rfl := pure_eq_ok.1 h
    exact ⟨[], .none hs hlimit⟩
  | cons block blocks ih =>
    obtain ⟨u, hu, h⟩ := foldlM_cons_eq_ok.1 h
    obtain ⟨first, hfirst⟩ := visitBlock_scanned hs hlimit hu
    obtain ⟨rest, hrest⟩ := ih hfirst.within hfirst.limit h
    exact ⟨first ++ rest, hfirst.append hrest⟩

/-- What the scan of a document has entered is what is resident in it. -/
theorem Scanned.mem_iff {t : Collected γ} {new : List (TextBlock × String)}
    (h : Scanned d d.blocks .empty t new) {handle : String} :
    handle ∈ new.map Prod.snd ↔ ∃ block, d.Resident block handle := by
  have hvisited : t.visited = new.map Prod.snd := h.visited
  constructor
  · intro hmem
    obtain ⟨x, hx, rfl⟩ := List.mem_map.1 hmem
    exact ⟨x.1, h.reached x hx⟩
  · rintro ⟨block, hblock, hxref, root, hroot, hpath⟩
    rw [← hvisited]
    induction hpath with
    | refl => exact h.rooted block hblock hxref root hroot
    | tail _ hleads ih =>
      rw [hvisited] at ih
      obtain ⟨x, hx, rfl⟩ := List.mem_map.1 ih
      exact h.closed x hx _ hleads

/-- A snapshot lists every text that is resident once, and names what it could not list. -/
structure Complete (d : TextDocument γ) (snapshot : TextSnapshot) : Prop where
  ids : (snapshot.records.map TextRecord.id).Nodup
  sorted : snapshot.records.Pairwise fun a b => a.id ≤ b.id
  listed : ∀ handle, (∃ block, d.Resident block handle) → ∃ block, d.Resident block handle ∧
    ∀ slot ∈ d.slots (d.entity handle), slot.raw ≠ "" →
      slot.record block handle (d.entity handle) ∈ snapshot.records
  nothingElse : ∀ r ∈ snapshot.records, ∃ block handle, d.Resident block handle ∧
    ∃ slot ∈ d.slots (d.entity handle), slot.raw ≠ "" ∧
      r = slot.record block handle (d.entity handle)
  counted : ∃ handles : List String, handles.Nodup ∧
    (∀ handle, handle ∈ handles ↔ ∃ block, d.Resident block handle) ∧
      snapshot.entityCount = handles.length
  blockers : ∀ text, text ∈ snapshot.blockers ↔
    (∃ block ∈ d.blocks, block.isXRef = true ∧ text = xrefBlocker block) ∨
      ∃ handle, (∃ block, d.Resident block handle) ∧
        (text ∈ (d.entity handle).blockers handle ∨
          ∃ slot ∈ d.slots (d.entity handle), slot.raw ≠ "" ∧ text ∈ slot.blockers handle)

theorem within_empty : (Collected.empty : Collected γ).Within := ⟨Nat.zero_le _, Nat.zero_le _⟩

theorem collectSnapshot_scanned {digests : StructureDigests γ} {snapshot : TextSnapshot}
    (h : collectSnapshot digests d = .ok snapshot) : ∃ t new,
      d.blocks.foldlM d.visitBlock .empty = .ok t ∧ Scanned d d.blocks .empty t new ∧
        snapshot.records = (new.flatMap d.recordsOf).insertionSort (fun a b => a.id ≤ b.id) ∧
        snapshot.blockers = sortedSet t.blockers ∧ snapshot.entityCount = new.length := by
  obtain ⟨t, ht, h⟩ := bind_eq_ok.1 h
  obtain ⟨-, h⟩ := ensure_bind_eq_ok.1 h
  obtain rfl := pure_eq_ok.1 h
  obtain ⟨new, hnew⟩ := visitBlocks_scanned within_empty (Nat.zero_le _) ht
  refine ⟨t, new, ht, hnew, ?_, rfl, ?_⟩
  · rw [hnew.records]
    rfl
  · rw [hnew.visited]
    exact (congrArg List.length (List.nil_append _)).trans (List.length_map _)

theorem collectSnapshot_complete (digests : StructureDigests γ) (d : TextDocument γ)
    {snapshot : TextSnapshot} (h : collectSnapshot digests d = .ok snapshot) :
    Complete d snapshot := by
  obtain ⟨t, new, -, hnew, hrecords, hblockers, hcount⟩ := collectSnapshot_scanned h
  have hperm : snapshot.records.Perm (new.flatMap d.recordsOf) := by
    rw [hrecords]
    exact List.perm_insertionSort _ _
  refine ⟨?_, ?_, fun handle hresident => ?_, fun r hr => ?_, ?_, fun text => ?_⟩
  · exact (hperm.map TextRecord.id).nodup_iff.2 (ids_nodup hnew.nodup)
  · rw [hrecords]
    exact List.pairwise_insertionSort _ _
  · obtain ⟨x, hx, rfl⟩ := List.mem_map.1 (hnew.mem_iff.2 hresident)
    refine ⟨x.1, hnew.reached x hx, fun slot hslot hraw => hperm.mem_iff.2 ?_⟩
    refine List.mem_flatMap.2 ⟨x, hx, List.mem_map_of_mem ?_⟩
    exact List.mem_filter.2 ⟨hslot, decide_eq_true hraw⟩
  · obtain ⟨x, hx, hr⟩ := List.mem_flatMap.1 (hperm.mem_iff.1 hr)
    obtain ⟨slot, hslot, rfl⟩ := List.mem_map.1 hr
    obtain ⟨hslot, hraw⟩ := List.mem_filter.1 hslot
    exact ⟨x.1, x.2, hnew.reached x hx, slot, hslot, of_decide_eq_true hraw, rfl⟩
  · exact ⟨new.map Prod.snd, hnew.nodup, fun handle => hnew.mem_iff,
      hcount.trans (List.length_map _).symm⟩
  · rw [hblockers, mem_sortedSet, hnew.blockers]
    simp only [Collected.empty, List.not_mem_nil, false_or]
    refine or_congr_right ?_
    simp only [← hnew.mem_iff, List.mem_map, TextDocument.blockersOf, List.mem_append,
      List.mem_flatMap, TextDocument.listed, List.mem_filter, decide_eq_true_eq, and_assoc]
    constructor
    · rintro ⟨x, hx, htext⟩
      exact ⟨x.2, ⟨x, hx, rfl⟩, htext⟩
    · rintro ⟨handle, ⟨x, hx, rfl⟩, htext⟩
      exact ⟨x, hx, htext⟩

/-- A text and a reference to a title block, with a survey drawing below them. -/
def titleDocument : TextDocument Unit where
  blocks := [⟨"*Model_Space", "1F", false, ["2B", "2A"]⟩, ⟨"survey", "30", true, ["31"]⟩,
    ⟨"TITLE", "40", false, ["41"]⟩]
  layouts := [()]
  locked layer := layer = "FROZEN"
  entity handle :=
    let line : TextEntity Unit :=
      ⟨"AcDbLine", "0", .ok (), false, 0, fun _ => "", 0, 0, fun _ _ => "", fun _ _ => (), false,
        [], []⟩
    if handle = "2A" then
      { line with kind := "AcDbMText", layer := "FROZEN", text := fun _ => "plan" }
    else if handle = "2B" then
      { line with kind := "AcDbBlockReference", hasAttributes := true, attributes := ["2C"] }
    else if handle = "2C" then { line with kind := "AcDbAttribute", text := fun _ => "hall" }
    else if handle = "41" then
      { line with kind := "AcDbTable", rows := 1, columns := 1, cell := fun _ _ => "%<date" }
    else line

def titleSnapshot : TextSnapshot where
  records :=
    [⟨"2A:TextString", "2A", "AcDbMText", "*Model_Space", "FROZEN", .textString, -1, -1, "plan",
        false, some "locked_layer"⟩,
      ⟨"2C:TextString", "2C", "AcDbAttribute", "*Model_Space", "0", .textString, -1, -1, "hall",
        true, none⟩,
      ⟨"41:table:0:0", "41", "AcDbTable", "TITLE", "0", .table, 0, 0, "%<date", false,
        some "table_write_requires_native_review"⟩]
  blockers :=
    ["external_reference:survey", "field_or_stacked_text_requires_review:41:table:0:0",
      "table_content_requires_native_review:41"]
  entityCount := 4
  structureSha256 := ""

theorem collectSnapshot_complete_title : Complete titleDocument titleSnapshot :=
  collectSnapshot_complete ⟨fun _ => "", fun _ => ""⟩ titleDocument (by rfl)

end CadPlot.TextPlan
