import CadPlot.TextPlan.Applying
import CadPlot.TextPlan.CollectionLaws

/-!
# Documents with other texts

A document in which some of the listed texts have been replaced is scanned in
the same order, so its snapshot differs in these texts only, as long as the
inventory stays within its limits.
-/

namespace CadPlot.TextPlan

open Traversal

variable {γ : Type} {d : TextDocument γ}

/-! ### Scans of the same entities -/

/-- What has been collected after a block, with the entities that are entered from it. -/
def Collected.over (d : TextDocument γ) (s : Collected γ)
    (x : TextBlock × List (TextBlock × String)) : Collected γ :=
  if x.1.isXRef then { s with blockers := s.blockers ++ [xrefBlocker x.1] }
  else (s.headed x.1).joined d x.2

theorem within_of_over {s : Collected γ} {x : TextBlock × List (TextBlock × String)}
    (h : (s.over d x).Within) : s.Within := by
  unfold Collected.over at h
  split at h
  · exact ⟨h.records, h.characters⟩
  · refine ⟨?_, ?_⟩
    · have hrecords := h.records
      simp only [Collected.joined, Collected.headed, List.length_append] at hrecords
      omega
    · have hcount := h.characters
      simp only [Collected.joined, Collected.headed] at hcount
      omega

theorem within_of_foldl {parts : List (TextBlock × List (TextBlock × String))} {s : Collected γ}
    (h : (parts.foldl (Collected.over d) s).Within) : s.Within := by
  induction parts generalizing s with
  | nil => exact h
  | cons x parts ih => exact within_of_over (ih h)

theorem visited_over {s : Collected γ} {x : TextBlock × List (TextBlock × String)}
    (hx : x.1.isXRef = true → x.2 = []) :
    (s.over d x).visited = s.visited ++ x.2.map Prod.snd := by
  unfold Collected.over
  split
  · next hxref => rw [hx hxref, List.map_nil, List.append_nil]
  · rfl

theorem visited_foldl {parts : List (TextBlock × List (TextBlock × String))} {s : Collected γ}
    (h : ∀ x ∈ parts, x.1.isXRef = true → x.2 = []) : (parts.foldl (Collected.over d) s).visited =
      s.visited ++ (parts.flatMap Prod.snd).map Prod.snd := by
  induction parts generalizing s with
  | nil => exact (List.append_nil _).symm
  | cons x parts ih =>
    rw [List.forall_mem_cons] at h
    rw [List.foldl_cons, ih h.2, visited_over h.1, List.flatMap_cons, List.map_append,
      List.append_assoc]

/-- Entities that another document lets the scan enter, within the limits. -/
structure Scannable (d' : TextDocument γ) (parts : List (TextBlock × List (TextBlock × String)))
    (s' : Collected γ) : Prop where
  enterable : ∀ x ∈ parts.flatMap Prod.snd, d'.Enterable x
  within : (parts.foldl (Collected.over d') s').Within

section Follow

variable {d' : TextDocument γ}

theorem visitBlock_over (hchildren : d'.childrenOf = d.childrenOf) {s t : Collected γ}
    {block : TextBlock} (hs : s.Within) (hlimit : s.visited.length ≤ maxEntities)
    (h : d.visitBlock s block = .ok t) : ∃ new, t = s.over d (block, new) ∧
      (block.isXRef = true → new = []) ∧ (∀ x ∈ new, d.Enterable x) ∧
        (t.Within ∧ t.visited.length ≤ maxEntities) ∧
        ∀ s', s'.visited = s.visited → Scannable d' [(block, new)] s' →
          d'.visitBlock s' block = .ok (s'.over d' (block, new)) := by
  unfold TextDocument.visitBlock at h
  split at h
  · next hxref =>
    obtain rfl := Except.ok.inj h
    refine ⟨[], ?_, fun _ => rfl, fun _ h => absurd h List.not_mem_nil,
      ⟨⟨hs.records, hs.characters⟩, hlimit⟩, fun s' _ _ => ?_⟩
    · rw [Collected.over, if_pos hxref]
      rfl
    · rw [TextDocument.visitBlock, if_pos hxref, Collected.over, if_pos hxref]
      rfl
  · next hxref =>
    obtain ⟨new, hwalked, hfollows⟩ := walked_of_visits hchildren h
    have hheaded : (s.headed block).Within := ⟨hs.records, hs.characters⟩
    obtain ⟨⟨hlimits, henterable, hwithin⟩, rfl⟩ :=
      (enterAll_eq_ok hheaded hlimit).1 hwalked.entered
    refine ⟨new, ?_, fun hx => absurd hx hxref, henterable, ⟨hwithin, ?_⟩,
      fun s' hvisited hscan => ?_⟩
    · rw [Collected.over, if_neg hxref]
    · change (s.visited ++ new.map Prod.snd).length ≤ maxEntities
      rw [List.length_append, List.length_map]
      exact hlimits
    · have hwithin' := hscan.within
      have henter := hscan.enterable
      simp only [List.foldl_cons, List.foldl_nil, List.flatMap_cons, List.flatMap_nil,
        List.append_nil] at hwithin' henter
      have hs' : s'.Within := within_of_over hwithin'
      rw [TextDocument.visitBlock, if_neg hxref]
      rw [Collected.over, if_neg hxref] at hwithin' ⊢
      refine hfollows (s'.headed block) _ hvisited
        ((enterAll_eq_ok ?_ ?_).2 ⟨⟨?_, henter, hwithin'⟩, rfl⟩)
      · exact ⟨hs'.records, hs'.characters⟩
      · change s'.visited.length ≤ maxEntities
        rw [hvisited]
        exact hlimit
      · change s'.visited.length + new.length ≤ maxEntities
        rw [hvisited]
        exact hlimits

/-- A scan that ends is a scan of the same entities in any document that has the same attributes
and keeps the limits. -/
theorem visitBlocks_over (d' : TextDocument γ) (hchildren : d'.childrenOf = d.childrenOf)
    {blocks : List TextBlock} {s t : Collected γ} (hs : s.Within)
    (hlimit : s.visited.length ≤ maxEntities)
    (h : blocks.foldlM d.visitBlock s = .ok t) : ∃ parts,
      t = parts.foldl (Collected.over d) s ∧ parts.map Prod.fst = blocks ∧
        (∀ x ∈ parts, x.1.isXRef = true → x.2 = []) ∧
        (∀ x ∈ parts.flatMap Prod.snd, d.Enterable x) ∧ t.Within ∧
        ∀ s', s'.visited = s.visited → Scannable d' parts s' →
          blocks.foldlM d'.visitBlock s' = .ok (parts.foldl (Collected.over d') s') := by
  induction blocks generalizing s with
  | nil =>
    obtain rfl := pure_eq_ok.1 h
    exact ⟨[], rfl, rfl, fun _ h => absurd h List.not_mem_nil,
      fun _ h => absurd h List.not_mem_nil, hs, fun _ _ _ => rfl⟩
  | cons block blocks ih =>
    obtain ⟨u, hu, h⟩ := foldlM_cons_eq_ok.1 h
    obtain ⟨new, rfl, hnone, hnew, ⟨hwithin, hvisited⟩, hfirst⟩ :=
      visitBlock_over hchildren hs hlimit hu
    obtain ⟨parts, rfl, hparts, hnones, hnews, hend, hrest⟩ := ih hwithin hvisited h
    refine ⟨(block, new) :: parts, rfl, ?_, List.forall_mem_cons.2 ⟨hnone, hnones⟩, ?_, hend,
      fun s' hs' hscan => ?_⟩
    · rw [List.map_cons, hparts]
    · rw [List.flatMap_cons]
      exact List.forall_mem_append.2 ⟨hnew, hnews⟩
    · have henter := hscan.enterable
      rw [List.flatMap_cons, List.forall_mem_append] at henter
      refine foldlM_cons_eq_ok.2 ⟨_, hfirst s' hs' ⟨?_, ?_⟩, hrest _ ?_ ⟨henter.2, hscan.within⟩⟩
      · rw [List.flatMap_cons, List.flatMap_nil, List.append_nil]
        exact henter.1
      · exact within_of_foldl hscan.within
      · rw [visited_over hnone, visited_over hnone, hs']

end Follow

/-! ### Other texts -/

/-- The text under an id after some changes. -/
def newText (changes : List TextChange) (id raw : String) : String :=
  match changes.find? fun c => c.recordId = id with
  | some c => c.after
  | none => raw

def TextRecord.retexted (changes : List TextChange) (r : TextRecord) : TextRecord :=
  { r with raw := newText changes r.id r.raw }

def TextSlot.retexted (changes : List TextChange) (handle : String) (slot : TextSlot) : TextSlot :=
  { slot with raw := newText changes (slot.key handle) slot.raw }

/-- The snapshot that the changes ask for. -/
def TextSnapshot.retexted (changes : List TextChange) (snapshot : TextSnapshot) : TextSnapshot :=
  { snapshot with records := snapshot.records.map (TextRecord.retexted changes) }

/-- The id of a text that does not stand in a table. -/
def textId (handle : String) (property : TextProperty) : String :=
  handle ++ ":" ++ property.name

/-- The document with the changes in it. -/
def TextDocument.retexted (changes : List TextChange) (d : TextDocument γ) : TextDocument γ :=
  { d with
    entity := fun handle =>
      { d.entity handle with
        text := fun property => newText changes (textId handle property)
          ((d.entity handle).text property) } }

variable {changes : List TextChange}

theorem newText_cons {c : TextChange} (hc : c.recordId ∉ changes.map TextChange.recordId)
    (id raw : String) :
    newText (c :: changes) id raw = newText changes id (newText [c] id raw) := by
  by_cases hid : c.recordId = id
  · have hnone : changes.find? (fun c => c.recordId = id) = none := by
      rw [List.find?_eq_none]
      intro c' hc' heq
      exact hc (List.mem_map.2 ⟨c', hc', (of_decide_eq_true heq).trans hid.symm⟩)
    simp [newText, hid, hnone]
  · simp [newText, hid]

theorem newText_of_notMem {id raw : String} (h : ∀ c ∈ changes, c.recordId ≠ id) :
    newText changes id raw = raw := by
  have hnone : changes.find? (fun c => c.recordId = id) = none := by
    rw [List.find?_eq_none]
    exact fun c hc heq => h c hc (of_decide_eq_true heq)
  rw [newText, hnone]

theorem newText_of_mem (h : (changes.map TextChange.recordId).Nodup) {c : TextChange}
    (hc : c ∈ changes) (raw : String) : newText changes c.recordId raw = c.after := by
  induction changes generalizing raw with
  | nil => cases hc
  | cons c' changes ih =>
    rw [List.map_cons, List.nodup_cons] at h
    rw [newText_cons h.1]
    rcases List.mem_cons.1 hc with rfl | hc
    · rw [newText_of_notMem fun c' hc' heq => h.1 (List.mem_map.2 ⟨c', hc', heq⟩)]
      simp [newText]
    · exact ih h.2 hc _

theorem newText_cases (changes : List TextChange) (id raw : String) :
    newText changes id raw = raw ∨
      ∃ c ∈ changes, c.recordId = id ∧ newText changes id raw = c.after := by
  unfold newText
  cases hfind : changes.find? fun c => c.recordId = id with
  | none => exact .inl rfl
  | some c =>
    exact .inr ⟨c, List.mem_of_find?_eq_some hfind, by simpa using List.find?_some hfind, rfl⟩

theorem childrenOf_retexted : (d.retexted changes).childrenOf = d.childrenOf := rfl

theorem textKinds_ne_table {e : TextEntity γ} {p : TextProperty} (h : e.content = .text p) :
    p ≠ .table := by
  rintro rfl
  unfold TextEntity.content at h
  split at h
  · split at h <;> cases h
  · split at h
    · split at h <;> cases h
    · split at h
      · cases h
      · split at h
        · cases h
        · split at h
          · cases h
          · split at h <;> cases h

/-- A text of an entity is its own or stands in a table, where it is not writable. -/
theorem mem_slots {e : TextEntity γ} {slot : TextSlot} (h : slot ∈ d.slots e) :
    (e.content = .table ∧ slot.property = .table ∧ slot.reason ≠ none) ∨
      ∃ p, e.content = .text p ∧ p ≠ .table ∧ slot = ⟨p, -1, -1, e.text p, d.reason e⟩ := by
  unfold TextDocument.slots at h
  split at h
  · next p hcontent =>
    exact .inr ⟨p, hcontent, textKinds_ne_table hcontent, List.mem_singleton.1 h⟩
  · next hcontent =>
    obtain ⟨x, -, rfl⟩ := List.mem_map.1 h
    exact .inl ⟨hcontent, rfl, fun h => by cases h⟩
  · cases h

theorem key_eq_textId {handle : String} {slot : TextSlot} (h : slot.property ≠ .table) :
    slot.key handle = textId handle slot.property := by
  simp [TextSlot.key, textId, h]

/-- No change is for a text in a table. -/
def SparesTables (changes : List TextChange) : Prop :=
  ∀ c ∈ changes, ∀ (handle : String) (slot : TextSlot), slot.property = .table →
    c.recordId ≠ slot.key handle

theorem slots_retexted (h : SparesTables changes) (handle : String) :
    (d.retexted changes).slots ((d.retexted changes).entity handle) =
      (d.slots (d.entity handle)).map (TextSlot.retexted changes handle) := by
  have hcontent : ((d.retexted changes).entity handle).content = (d.entity handle).content := rfl
  unfold TextDocument.slots
  rw [hcontent]
  split
  · next p hp =>
    have hkey : (⟨p, -1, -1, (d.entity handle).text p, d.reason (d.entity handle)⟩ :
        TextSlot).key handle = textId handle p := key_eq_textId (textKinds_ne_table hp)
    rw [List.map_singleton, TextSlot.retexted, hkey]
    rfl
  · rw [List.map_map]
    refine List.map_congr_left fun x _ => ?_
    rw [Function.comp_apply, TextSlot.retexted, newText_of_notMem fun c hc => h c hc _ _ rfl]
    rfl
  · rfl

/-! ### The snapshot of the changed document -/

/-- Changes of texts that are listed and may be written. -/
structure Changeable (snapshot : TextSnapshot) (changes : List TextChange) : Prop where
  distinct : (changes.map TextChange.recordId).Nodup
  known : ∀ c ∈ changes, ∃ r ∈ snapshot.records,
    r.id = c.recordId ∧ r.writable = true ∧ r.raw = c.before
  short : ∀ c ∈ changes, c.after.length ≤ maxTextChars
  nonempty : ∀ c ∈ changes, c.after ≠ ""

/-- What the limits and the marks of fields and stacked text leave to changes. -/
structure Fits (snapshot : TextSnapshot) (changes : List TextChange) : Prop where
  characters : ((snapshot.retexted changes).records.map fun r => r.raw.length).sum ≤ maxTotalChars
  plain : ∀ c ∈ changes, fieldOrStacked c.after = false

section Retexted

variable {snapshot : TextSnapshot}

/-- The text that a change is for. -/
theorem slot_of_change (hcomplete : Complete d snapshot) (h : Changeable snapshot changes)
    {c : TextChange} (hc : c ∈ changes) : ∃ block handle p, d.Resident block handle ∧
      (d.entity handle).content = .text p ∧ p ≠ .table ∧ c.recordId = textId handle p ∧
        (d.entity handle).text p = c.before ∧ c.before ≠ "" := by
  obtain ⟨r, hr, hid, hwritable, hraw⟩ := h.known c hc
  obtain ⟨block, handle, hresident, slot, hslot, hne, rfl⟩ := hcomplete.nothingElse r hr
  obtain ⟨-, -, hreason⟩ | ⟨p, hcontent, hp, rfl⟩ := mem_slots hslot
  · exact absurd (Option.isNone_iff_eq_none.1 hwritable) hreason
  · refine ⟨block, handle, p, hresident, hcontent, hp, ?_, hraw, ?_⟩
    · rw [← hid]
      exact key_eq_textId hp
    · rw [← hraw]
      exact hne

theorem sparesTables_of_changeable (hcomplete : Complete d snapshot)
    (h : Changeable snapshot changes) : SparesTables changes := by
  intro c hc handle slot htable heq
  obtain ⟨block, other, p, -, -, hp, hid, -⟩ := slot_of_change hcomplete h hc
  have hkey : (⟨p, -1, -1, "", none⟩ : TextSlot).key other = slot.key handle := by
    rw [← heq, hid]
    exact key_eq_textId hp
  exact hp ((key_inj hkey).2.1.trans htable)

/-- A change is for a text that is not empty. -/
theorem newText_eq_empty (hcomplete : Complete d snapshot) (h : Changeable snapshot changes)
    {handle : String} {slot : TextSlot} (hslot : slot ∈ d.slots (d.entity handle)) :
    newText changes (slot.key handle) slot.raw = "" ↔ slot.raw = "" := by
  obtain hsame | ⟨c, hc, hid, hnew⟩ := newText_cases changes (slot.key handle) slot.raw
  · rw [hsame]
  · rw [hnew]
    refine iff_of_false (h.nonempty c hc) ?_
    obtain ⟨block, other, p, -, hcontent, hp, hkey, hbefore, hne⟩ := slot_of_change hcomplete h hc
    obtain ⟨-, htable, -⟩ | ⟨p', hcontent', hp', rfl⟩ := mem_slots hslot
    · exact absurd hid (sparesTables_of_changeable hcomplete h c hc handle slot htable)
    · have hkeys : (⟨p, -1, -1, "", none⟩ : TextSlot).key other =
          (⟨p', -1, -1, (d.entity handle).text p', d.reason (d.entity handle)⟩ : TextSlot).key
            handle := by
        rw [← hid, hkey]
        exact key_eq_textId hp
      obtain ⟨rfl, hsame, -⟩ := key_inj hkeys
      obtain rfl : p = p' := hsame
      exact hbefore ▸ hne

theorem listed_retexted (hcomplete : Complete d snapshot) (h : Changeable snapshot changes)
    (handle : String) : (d.retexted changes).listed ((d.retexted changes).entity handle) =
      (d.listed (d.entity handle)).map (TextSlot.retexted changes handle) := by
  rw [TextDocument.listed, slots_retexted (sparesTables_of_changeable hcomplete h),
    List.filter_map, TextDocument.listed]
  congr 1
  refine List.filter_congr fun slot hslot => ?_
  rw [Function.comp_apply, decide_eq_decide]
  exact not_congr (newText_eq_empty hcomplete h hslot)

theorem recordsOf_retexted (hcomplete : Complete d snapshot) (h : Changeable snapshot changes)
    (x : TextBlock × String) : (d.retexted changes).recordsOf x =
      (d.recordsOf x).map (TextRecord.retexted changes) := by
  rw [TextDocument.recordsOf, listed_retexted hcomplete h, TextDocument.recordsOf, List.map_map,
    List.map_map]
  rfl

theorem enterable_retexted (hcomplete : Complete d snapshot) (h : Changeable snapshot changes)
    {x : TextBlock × String} (hx : d.Enterable x) : (d.retexted changes).Enterable x := by
  refine ⟨hx.1, fun after hafter => ?_⟩
  rw [slots_retexted (sparesTables_of_changeable hcomplete h)] at hafter
  obtain ⟨slot, hslot, rfl⟩ := List.mem_map.1 hafter
  obtain hsame | ⟨c, hc, -, hnew⟩ := newText_cases changes (slot.key x.2) slot.raw
  · rw [TextSlot.retexted, hsame]
    exact hx.2 slot hslot
  · rw [TextSlot.retexted, hnew]
    exact h.short c hc

/-- Nothing stands in the way of a text that is resident in the changed document. -/
theorem blockersOf_retexted (hcomplete : Complete d snapshot) (h : Changeable snapshot changes)
    (hnone : snapshot.blockers = []) (hplain : ∀ c ∈ changes, fieldOrStacked c.after = false)
    {x : TextBlock × String} (hx : ∃ block, d.Resident block x.2) :
    (d.retexted changes).blockersOf x = [] := by
  have hempty : ∀ text, text ∉ snapshot.blockers := fun text => by simp [hnone]
  rw [TextDocument.blockersOf, listed_retexted hcomplete h, List.append_eq_nil_iff,
    List.flatMap_eq_nil_iff]
  refine ⟨List.eq_nil_iff_forall_not_mem.2 fun text htext => ?_, fun after hafter => ?_⟩
  · exact hempty text ((hcomplete.blockers text).2 (.inr ⟨x.2, hx, .inl htext⟩))
  · obtain ⟨slot, hlisted, rfl⟩ := List.mem_map.1 hafter
    obtain ⟨hslot, hraw⟩ := List.mem_filter.1 hlisted
    have hold : slot.blockers x.2 = [] := List.eq_nil_iff_forall_not_mem.2 fun text htext =>
      hempty text ((hcomplete.blockers text).2
        (.inr ⟨x.2, hx, .inr ⟨slot, hslot, of_decide_eq_true hraw, htext⟩⟩))
    have hmark : fieldOrStacked (newText changes (slot.key x.2) slot.raw) = false := by
      obtain hsame | ⟨c, hc, -, hnew⟩ := newText_cases changes (slot.key x.2) slot.raw
      · rw [hsame]
        cases hmark : fieldOrStacked slot.raw with
        | false => rfl
        | true =>
          rw [TextSlot.blockers, if_pos hmark] at hold
          cases hold
      · rw [hnew]
        exact hplain c hc
    rw [TextSlot.blockers, TextSlot.retexted, hmark]
    rfl

/-- What has been collected from a document and from the changed one. -/
structure Mirrored (changes : List TextChange) (s s' : Collected γ) : Prop where
  records : s'.records = s.records.map (TextRecord.retexted changes)
  blockers : s'.blockers = []
  structureItems : s'.structureItems = s.structureItems
  visited : s'.visited = s.visited

theorem mirrored_foldl (hcomplete : Complete d snapshot) (h : Changeable snapshot changes)
    (hnone : snapshot.blockers = []) (hplain : ∀ c ∈ changes, fieldOrStacked c.after = false)
    {parts : List (TextBlock × List (TextBlock × String))}
    (hxref : ∀ x ∈ parts, x.1.isXRef = false)
    (hresident : ∀ x ∈ parts.flatMap Prod.snd, ∃ block, d.Resident block x.2) {s s' : Collected γ}
    (hs : Mirrored changes s s') : Mirrored changes (parts.foldl (Collected.over d) s)
      (parts.foldl (Collected.over (d.retexted changes)) s') := by
  induction parts generalizing s s' with
  | nil => exact hs
  | cons x parts ih =>
    rw [List.forall_mem_cons] at hxref
    rw [List.flatMap_cons, List.forall_mem_append] at hresident
    refine ih hxref.2 hresident.2 ?_
    have hblock : ¬x.1.isXRef = true := Bool.not_eq_true _ ▸ hxref.1
    rw [Collected.over, Collected.over, if_neg hblock, if_neg hblock]
    refine ⟨?_, ?_, ?_, ?_⟩
    · have hrecords : (d.retexted changes).recordsOf = fun y =>
          (d.recordsOf y).map (TextRecord.retexted changes) :=
        funext (recordsOf_retexted hcomplete h)
      simp only [Collected.joined, Collected.headed, hs.records, List.map_append, List.map_flatMap,
        hrecords]
    · simp only [Collected.joined, Collected.headed, hs.blockers, List.nil_append]
      exact List.flatMap_eq_nil_iff.2 fun y hy =>
        blockersOf_retexted hcomplete h hnone hplain (hresident.1 y hy)
    · simp only [Collected.joined, Collected.headed, hs.structureItems]
      rfl
    · simp only [Collected.joined, Collected.headed, hs.visited]

/-- The characters that are counted are those of the records. -/
def Counted (s : Collected γ) : Prop :=
  s.characterCount = (s.records.map fun r => r.raw.length).sum

theorem characters_eq (slots : List TextSlot) : characters slots =
    ((slots.filter fun slot => slot.raw ≠ "").map fun slot => slot.raw.length).sum := by
  induction slots with
  | nil => rfl
  | cons slot slots ih =>
    rw [characters] at ih ⊢
    by_cases hraw : slot.raw = "" <;> simp [hraw, ih]

theorem counted_foldl (parts : List (TextBlock × List (TextBlock × String))) {s : Collected γ}
    (hs : Counted s) : Counted (parts.foldl (Collected.over d) s) := by
  induction parts generalizing s with
  | nil => exact hs
  | cons x parts ih =>
    refine ih ?_
    unfold Counted at hs ⊢
    unfold Collected.over
    split
    · exact hs
    · have heach : ∀ y : TextBlock × String, characters (d.slots (d.entity y.2)) =
          ((d.recordsOf y).map fun r => r.raw.length).sum := fun y => by
        rw [characters_eq, TextDocument.recordsOf, List.map_map]
        rfl
      simp only [Collected.joined, Collected.headed, hs, heach, List.map_append, List.sum_append,
        List.flatMap_def, List.map_flatten, List.sum_flatten, List.map_map, Function.comp_def]

/-- The changed document is listed as the changes ask for, when they fit. -/
theorem collectSnapshot_retexted {digests : StructureDigests γ}
    (hsnapshot : collectSnapshot digests d = .ok snapshot) (h : Changeable snapshot changes)
    (hnone : snapshot.blockers = []) (hfits : Fits snapshot changes) :
    collectSnapshot digests (d.retexted changes) = .ok (snapshot.retexted changes) := by
  have hcomplete := collectSnapshot_complete digests d hsnapshot
  obtain ⟨t, ht, hrest⟩ := bind_eq_ok.1 hsnapshot
  obtain ⟨-, hrest⟩ := ensure_bind_eq_ok.1 hrest
  obtain rfl := pure_eq_ok.1 hrest
  obtain ⟨new, hscanned⟩ := visitBlocks_scanned within_empty (Nat.zero_le _) ht
  obtain ⟨parts, rfl, hblocks, hnones, hnews, hwithin, hfollows⟩ :=
    visitBlocks_over (d.retexted changes) childrenOf_retexted within_empty (Nat.zero_le _) ht
  have hvisited : new.map Prod.snd = (parts.flatMap Prod.snd).map Prod.snd :=
    hscanned.visited.symm.trans (visited_foldl hnones)
  have hxref : ∀ x ∈ parts, x.1.isXRef = false := fun x hx => by
    refine Bool.eq_false_iff.2 fun htrue => ?_
    have hblock : x.1 ∈ d.blocks := hblocks ▸ List.mem_map_of_mem hx
    have hmem := (hcomplete.blockers (xrefBlocker x.1)).2 (.inl ⟨x.1, hblock, htrue, rfl⟩)
    rw [hnone] at hmem
    cases hmem
  have hresident : ∀ x ∈ parts.flatMap Prod.snd, ∃ block, d.Resident block x.2 := fun x hx =>
    hscanned.mem_iff.1 (hvisited ▸ List.mem_map_of_mem hx)
  have hstart : Mirrored changes (.empty : Collected γ) .empty := ⟨rfl, rfl, rfl, rfl⟩
  have hmirrored := mirrored_foldl hcomplete h hnone hfits.plain hxref hresident hstart
  have hend : (parts.foldl (Collected.over (d.retexted changes)) .empty).Within := by
    refine ⟨?_, ?_⟩
    · rw [hmirrored.records, List.length_map]
      exact hwithin.records
    · have hcounted := counted_foldl (d := d.retexted changes) parts (s := .empty) rfl
      have hsum := hfits.characters
      rw [hcounted, hmirrored.records]
      refine Nat.le_trans (Nat.le_of_eq (List.Perm.sum_nat ?_)) hsum
      exact (((List.perm_insertionSort _ _).symm.map _).map _)
  refine bind_eq_ok.2 ⟨_, hfollows .empty rfl
    ⟨fun x hx => enterable_retexted hcomplete h (hnews x hx),
    hend⟩, ensure_bind_eq_ok.2 ⟨?_, pure_eq_ok.2 ?_⟩⟩
  · rw [hmirrored.blockers]
    rfl
  · have hsorted := List.map_insertionSort (fun a b : TextRecord => a.id ≤ b.id)
      (fun a b : TextRecord => a.id ≤ b.id) (TextRecord.retexted changes)
      (parts.foldl (Collected.over d) .empty).records fun a _ b _ => Iff.rfl
    have hblockers : sortedSet [] = sortedSet (parts.foldl (Collected.over d) .empty).blockers :=
      hnone.symm
    rw [hmirrored.records, hmirrored.blockers, hmirrored.structureItems, hmirrored.visited,
      ← hsorted, hblockers]
    rfl

end Retexted

end CadPlot.TextPlan
