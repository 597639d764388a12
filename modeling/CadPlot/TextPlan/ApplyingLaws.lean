import Mathlib.Logic.Function.Basic
import CadPlot.TextPlan.PieceLaws
import CadPlot.TextPlan.Retexting

/-!
# A plan that is ready is carried out

With an AutoCAD that sets the texts it is told to set, the copy of a drawing
ends up with the texts of the plan, unless these are too many characters or read
as fields or stacked text; then the copy is left as it was.
-/

namespace CadPlot.TextPlan

open Traversal

variable {φ γ : Type} {d : TextDocument γ} {snapshot : TextSnapshot} {changes : List TextChange}

/-! ### The records that are expected -/

theorem retexted_cons {c : TextChange} (hc : c.recordId ∉ changes.map TextChange.recordId)
    (r : TextRecord) : (r.retexted [c]).retexted changes = r.retexted (c :: changes) := by
  simp only [TextRecord.retexted, newText_cons hc]

theorem retexted_of_ne {c : TextChange} {r : TextRecord} (h : c.recordId ≠ r.id) :
    r.retexted [c] = r := by
  have hsame : newText [c] r.id r.raw = r.raw :=
    newText_of_notMem fun c' hc' => List.mem_singleton.1 hc' ▸ h
  simp only [TextRecord.retexted, hsame]

theorem expectChange_ok {records : Dict String TextRecord} {rs : List TextRecord}
    (hids : (rs.map TextRecord.id).Nodup) (hentries : records.entries = rs.map fun r => (r.id, r))
    {c : TextChange} {r : TextRecord} (hr : r ∈ rs) (hid : r.id = c.recordId)
    (hwritable : r.writable = true) (hraw : r.raw = c.before) :
    ∃ records', expectChange records c = .ok records' ∧
      records'.entries = (rs.map (TextRecord.retexted [c])).map fun r => (r.id, r) := by
  have hget : records.get c.recordId = some r := by
    rw [← Dict.mem_entries_iff, hentries, ← hid]
    exact List.mem_map_of_mem hr
  refine ⟨records.set c.recordId { r with raw := c.after }, ?_, ?_⟩
  · simp only [expectChange, hget]
    exact ensure_bind_eq_ok.2 ⟨by simp [hwritable, hraw], rfl⟩
  · change Dict.put c.recordId { r with raw := c.after } records.entries = _
    rw [hentries, ← hid, Dict.put_map TextRecord.id (fun r => r) hids hr, List.map_map]
    refine List.map_congr_left fun r' hr' => ?_
    rw [Function.comp_apply]
    by_cases heq : r'.id = r.id
    · obtain rfl := List.inj_on_of_nodup_map hids hr' hr heq
      rw [if_pos rfl]
      simp [TextRecord.retexted, newText, hid]
    · rw [if_neg heq, retexted_of_ne fun hc => heq (hc.symm.trans hid.symm)]

/-- Changes of known records make the records that are expected. -/
theorem expectChanges_ok {records : Dict String TextRecord} {rs : List TextRecord}
    (hids : (rs.map TextRecord.id).Nodup) (hentries : records.entries = rs.map fun r => (r.id, r))
    (hdistinct : (changes.map TextChange.recordId).Nodup)
    (hknown : ∀ c ∈ changes, ∃ r ∈ rs, r.id = c.recordId ∧ r.writable = true ∧ r.raw = c.before) :
    ∃ records', changes.foldlM expectChange records = .ok records' ∧
      records'.entries = (rs.map (TextRecord.retexted changes)).map fun r => (r.id, r) := by
  induction changes generalizing records rs with
  | nil =>
    refine ⟨records, rfl, ?_⟩
    rw [hentries, List.map_map]
    rfl
  | cons c changes ih =>
    rw [List.map_cons, List.nodup_cons] at hdistinct
    rw [List.forall_mem_cons] at hknown
    obtain ⟨⟨r, hr, hid, hwritable, hraw⟩, hknown⟩ := hknown
    obtain ⟨records', hfirst, hentries'⟩ := expectChange_ok hids hentries hr hid hwritable hraw
    have hids' : ((rs.map (TextRecord.retexted [c])).map TextRecord.id).Nodup := by
      rw [List.map_map]
      exact hids
    have hknown' : ∀ c' ∈ changes, ∃ r ∈ rs.map (TextRecord.retexted [c]),
        r.id = c'.recordId ∧ r.writable = true ∧ r.raw = c'.before := by
      intro c' hc'
      obtain ⟨r', hr', hid', hrest⟩ := hknown c' hc'
      refine ⟨r', List.mem_map.2 ⟨r', hr', retexted_of_ne fun heq => ?_⟩, hid', hrest⟩
      exact hdistinct.1 (List.mem_map.2 ⟨c', hc', (heq.trans hid').symm⟩)
    obtain ⟨records'', hrest, hentries''⟩ := ih hids' hentries' hdistinct.2 hknown'
    refine ⟨records'', foldlM_cons_eq_ok.2 ⟨records', hfirst, hrest⟩, ?_⟩
    rw [hentries'', List.map_map (g := TextRecord.retexted changes)]
    refine congrArg (List.map _) (List.map_congr_left fun r' _ => ?_)
    exact retexted_cons hdistinct.1 r'

/-! ### The texts that are written -/

/-- The document after a text of an entity has been set. -/
def TextDocument.written (d : TextDocument γ) (handle : String) (property : TextProperty)
    (text : String) : TextDocument γ :=
  { d with
    entity := Function.update d.entity handle
      { d.entity handle with text := Function.update (d.entity handle).text property text } }

/-- AutoCAD sets the text that it is told to set and nothing else, and opens what it has saved. -/
structure TextCad.Faithful (cad : TextCad φ γ) : Prop where
  write : ∀ (d : TextDocument γ) (block : TextBlock) (r : TextRecord) (text : String),
    d.Resident block r.handle → (d.entity r.handle).content = .text r.property →
      cad.write d r text = .ok (d.written r.handle r.property text)
  save : ∀ (d : TextDocument γ) (file : φ),
    (cad.save d file).1 = .ok () ∧ cad.opened (cad.save d file).2 = .ok d

theorem textId_inj {handle handle' : String} {p p' : TextProperty}
    (h : textId handle p = textId handle' p') : handle = handle' ∧ p = p' := by
  have htext := congrArg String.toList h
  have hsplit : ∀ (handle : String) (p : TextProperty),
      (textId handle p).toList = handle.toList ++ ':' :: p.name.toList := by
    intro handle p
    simp [textId]
  rw [hsplit, hsplit] at htext
  obtain ⟨hhandle, hname⟩ := last_colon (colon_notMem_name _) (colon_notMem_name _) htext
  exact ⟨String.toList_inj.1 hhandle, name_injective hname⟩

theorem written_eq (handle : String) (p : TextProperty) {c : TextChange}
    (h : c.recordId = textId handle p) : d.written handle p c.after = d.retexted [c] := by
  have hentity : (d.written handle p c.after).entity = (d.retexted [c]).entity := by
    funext handle'
    by_cases hhandle : handle' = handle
    · subst hhandle
      have htext : Function.update (d.entity handle').text p c.after = fun p' =>
          newText [c] (textId handle' p') ((d.entity handle').text p') := by
        funext p'
        by_cases hp : p' = p
        · subst hp
          simp [newText, h]
        · have hne : c.recordId ≠ textId handle' p' := fun heq =>
            hp (textId_inj (h.symm.trans heq)).2.symm
          rw [Function.update_of_ne hp,
            newText_of_notMem fun c' hc' => List.mem_singleton.1 hc' ▸ hne]
      simp only [TextDocument.written, Function.update_self, htext, TextDocument.retexted]
    · have hne : ∀ p', c.recordId ≠ textId handle' p' := fun p' heq =>
        hhandle (textId_inj (h.symm.trans heq)).1.symm
      have htext : ∀ p', newText [c] (textId handle' p') ((d.entity handle').text p') =
          (d.entity handle').text p' := fun p' =>
        newText_of_notMem fun c' hc' => List.mem_singleton.1 hc' ▸ hne p'
      simp only [TextDocument.written, Function.update_of_ne hhandle, TextDocument.retexted, htext]
  exact congrArg (fun entity => { d with entity := entity }) hentity

theorem document_retexted_cons {c : TextChange}
    (hc : c.recordId ∉ changes.map TextChange.recordId) :
    (d.retexted [c]).retexted changes = d.retexted (c :: changes) := by
  simp only [TextDocument.retexted, newText_cons hc]

theorem makeChanges_ok {cad : TextCad φ γ} (hcad : cad.Faithful) {records : Dict String TextRecord}
    (hdistinct : (changes.map TextChange.recordId).Nodup)
    (hslots : ∀ c ∈ changes, ∃ block r, records.get c.recordId = some r ∧
      d.Resident block r.handle ∧ (d.entity r.handle).content = .text r.property ∧
        c.recordId = textId r.handle r.property) :
    changes.foldlM (makeChange cad records) d = .ok (d.retexted changes) := by
  induction changes generalizing d with
  | nil => rfl
  | cons c changes ih =>
    rw [List.map_cons, List.nodup_cons] at hdistinct
    rw [List.forall_mem_cons] at hslots
    obtain ⟨⟨block, r, hget, hresident, hcontent, hid⟩, hslots⟩ := hslots
    refine foldlM_cons_eq_ok.2 ⟨d.retexted [c], ?_, ?_⟩
    · rw [makeChange, hget, ← written_eq _ _ hid]
      exact hcad.write d block r c.after hresident hcontent
    · rw [← document_retexted_cons hdistinct.1]
      exact ih hdistinct.2 hslots

/-! ### The changes of a plan -/

section Plan

variable {alphabet : Alphabet} {decisions : List TranslationDecision}

theorem output_ne_nil {recordId : String} {x : Piece × Nat} {planned : Planned}
    (hraw : x.1.raw ≠ []) (h : planPiece alphabet decisions recordId x = .ok planned) :
    planned.output ≠ [] := by
  unfold planPiece at h
  split at h
  · dsimp only at h
    split at h
    · cases h
      exact hraw
    · obtain ⟨-, h⟩ := ensure_bind_eq_ok.1 h
      dsimp only at h
      split at h
      · cases h
        exact hraw
      · obtain ⟨-, h⟩ := ensure_bind_eq_ok.1 h
        obtain ⟨_, hcheck, h⟩ := bind_eq_ok.1 h
        cases h
        obtain ⟨pieces, -, hcheck⟩ := bind_eq_ok.1 hcheck
        obtain ⟨-, hcheck⟩ := ensure_bind_eq_ok.1 hcheck
        obtain ⟨halpha, -⟩ := ensure_bind_eq_ok.1 hcheck
        intro hnil
        dsimp only at hnil
        rw [codes, hnil] at halpha
        cases halpha
  · cases h
    exact hraw

/-- The change that a plan makes to a record, if any. -/
structure ChangeOf (record : TextRecord) (changed : List TextChange) : Prop where
  one : changed.length ≤ 1
  each : ∀ c ∈ changed, c.recordId = record.id ∧ c.before = record.raw ∧
    c.after.length ≤ maxTextChars ∧ c.after ≠ ""

theorem changeOf_planRecord {record : TextRecord} {planned : Planned}
    (h : planRecord alphabet decisions record = .ok planned) : ChangeOf record planned.changes := by
  unfold planRecord at h
  cases hparts : parts alphabet record.raw with
  | error code =>
    rw [hparts] at h
    cases h
    exact ⟨Nat.zero_le _, fun _ h => absurd h List.not_mem_nil⟩
  | ok pieces =>
    rw [hparts] at h
    obtain ⟨each, heach, h⟩ := bind_eq_ok.1 h
    obtain ⟨hlength, h⟩ := ensure_bind_eq_ok.1 h
    cases h
    have hcut := cut_of_parts hparts
    dsimp only
    by_cases hchanged : String.ofList (each.flatMap Planned.output) = record.raw
    · rw [decide_eq_false fun hne => hne hchanged]
      exact ⟨Nat.zero_le _, fun _ h => absurd h List.not_mem_nil⟩
    · rw [decide_eq_true hchanged, if_pos rfl]
      refine ⟨Nat.le_refl _, fun c hc => ?_⟩
      obtain rfl := List.mem_singleton.1 hc
      refine ⟨rfl, rfl, of_decide_eq_true hlength, fun hempty => hchanged ?_⟩
      dsimp only at hempty
      -- An empty text has no pieces, and no text of a piece is empty.
      have houtput : each.flatMap Planned.output = [] := by
        rw [← String.toList_ofList (l := each.flatMap Planned.output), hempty]
        rfl
      have hnone : pieces = [] := by
        refine List.eq_nil_iff_forall_not_mem.2 fun piece hpiece => ?_
        obtain ⟨n, hn⟩ := List.mem_iff_getElem?.1 hpiece
        obtain ⟨p, hp, hplanned⟩ := exists_of_forall₂ (mapM_eq_ok.1 heach)
          (List.mem_zipIdx_iff_getElem?.2 hn : (piece, n) ∈ pieces.zipIdx)
        exact output_ne_nil (hcut.nonempty piece hpiece) hplanned
          (List.flatMap_eq_nil_iff.1 houtput p hp)
      have hraw := hcut.joined
      rw [hnone] at hraw
      rw [hempty]
      exact String.toList_inj.1 hraw

theorem changes_sublist {rs : List TextRecord} {each : List Planned}
    (h : List.Forall₂ (fun r p => planRecord alphabet decisions r = .ok p) rs each) :
    ((each.flatMap Planned.changes).map TextChange.recordId).Sublist (rs.map TextRecord.id) := by
  induction h with
  | nil => exact List.Sublist.slnil
  | @cons r p rs each hr _ ih =>
    have hchange := changeOf_planRecord hr
    rw [List.flatMap_cons, List.map_append, List.map_cons]
    match hp : p.changes with
    | [] => exact ih.cons _
    | [c] =>
      have hid := (hchange.each c (hp ▸ List.mem_singleton_self c)).1
      rw [List.map_singleton, List.singleton_append, hid]
      exact ih.cons_cons _
    | c :: c' :: more =>
      have hone := hchange.one
      rw [hp, List.length_cons, List.length_cons] at hone
      omega

theorem changeable_of_plan {digests : Digests} {path : String} {fingerprint : DrawingFingerprint}
    {expectedId : String} {plan : TranslationPlan}
    (hids : (snapshot.records.map TextRecord.id).Nodup)
    (h : buildTranslationPlan alphabet digests path fingerprint snapshot expectedId decisions =
      .ok plan) (hready : plan.ready = true) :
    Changeable snapshot plan.changes ∧ snapshot.blockers = [] := by
  have hopen := (ready_iff (buildTranslationPlan_ok h) hids).1 hready
  obtain ⟨-, h⟩ := ensure_bind_eq_ok.1 h
  obtain ⟨-, h⟩ := ensure_bind_eq_ok.1 h
  obtain ⟨-, h⟩ := ensure_bind_eq_ok.1 h
  obtain ⟨each, heach, h⟩ := bind_eq_ok.1 h
  obtain ⟨-, h⟩ := ensure_bind_eq_ok.1 h
  have heach := mapM_eq_ok.1 heach
  have hchanges : plan.changes = each.flatMap Planned.changes := by
    cases h
    rfl
  have hsource : ∀ c ∈ plan.changes, ∃ r ∈ snapshot.records, r.id = c.recordId ∧
      r.raw = c.before ∧ c.after.length ≤ maxTextChars ∧ c.after ≠ "" := by
    intro c hc
    rw [hchanges] at hc
    obtain ⟨p, hp, hc⟩ := List.mem_flatMap.1 hc
    obtain ⟨r, hr, hrp⟩ := exists_of_forall₂ heach.flip hp
    obtain ⟨hid, hbefore, hrest⟩ := (changeOf_planRecord hrp).each c hc
    exact ⟨r, hr, hid.symm, hbefore.symm, hrest⟩
  refine ⟨⟨?_, fun c hc => ?_, fun c hc => ?_, fun c hc => ?_⟩, hopen.blockers⟩
  · rw [hchanges]
    exact hids.sublist (changes_sublist heach)
  · obtain ⟨r, hr, hid, hbefore, -⟩ := hsource c hc
    exact ⟨r, hr, hid, hopen.writable c hc r hr hid, hbefore⟩
  · obtain ⟨r, -, -, -, hlength, -⟩ := hsource c hc
    exact hlength
  · obtain ⟨r, -, -, -, -, hne⟩ := hsource c hc
    exact hne

end Plan

/-! ### The copy -/

/-- Changes whose outcome is listed as they ask for fit. -/
theorem fits_of_collect {digests : StructureDigests γ}
    (hsnapshot : collectSnapshot digests d = .ok snapshot) (h : Changeable snapshot changes)
    (hnone : snapshot.blockers = [])
    (hafter : collectSnapshot digests (d.retexted changes) = .ok (snapshot.retexted changes)) :
    Fits snapshot changes := by
  have hcomplete := collectSnapshot_complete digests d hsnapshot
  refine ⟨?_, fun c hc => Bool.eq_false_iff.2 fun hmark => ?_⟩
  · obtain ⟨t, ht, hrest⟩ := bind_eq_ok.1 hafter
    obtain ⟨-, hrest⟩ := ensure_bind_eq_ok.1 hrest
    obtain ⟨parts, rfl, -, -, -, hwithin, -⟩ :=
      visitBlocks_over (d := d.retexted changes) d rfl within_empty (Nat.zero_le _) ht
    have hcounted := counted_foldl (d := d.retexted changes) parts (s := .empty) rfl
    have hrecords := congrArg TextSnapshot.records (pure_eq_ok.1 hrest)
    rw [← hrecords]
    refine Nat.le_trans (Nat.le_of_eq ?_) hwithin.characters
    rw [hcounted]
    exact ((List.perm_insertionSort _ _).map _).sum_nat
  · obtain ⟨block, handle, p, hresident, hcontent, hp, hid, hbefore, hne⟩ :=
      slot_of_change hcomplete h hc
    have hmem := ((collectSnapshot_complete digests _ hafter).blockers
      ("field_or_stacked_text_requires_review:" ++ textId handle p)).2 <| .inr ⟨handle,
        ⟨block, hresident⟩, .inr ⟨⟨p, -1, -1, c.after, d.reason (d.entity handle)⟩, ?_, ?_, ?_⟩⟩
    · change _ ∈ snapshot.blockers at hmem
      rw [hnone] at hmem
      cases hmem
    · rw [slots_retexted (sparesTables_of_changeable hcomplete h)]
      refine List.mem_map.2
        ⟨⟨p, -1, -1, (d.entity handle).text p, d.reason (d.entity handle)⟩, ?_, ?_⟩
      · rw [TextDocument.slots, hcontent]
        exact List.mem_singleton_self _
      · rw [TextSlot.retexted, key_eq_textId hp, ← hid, newText_of_mem h.distinct hc]
    · exact h.nonempty c hc
    · rw [TextSlot.blockers, if_pos hmark, key_eq_textId hp]
      exact List.mem_singleton_self _

theorem editCopy_faithful {cad : TextCad φ γ} (hcad : cad.Faithful) {digests : StructureDigests γ}
    {file : φ} (hopened : cad.opened file = .ok d)
    (hsnapshot : collectSnapshot digests d = .ok snapshot) (h : Changeable snapshot changes) :
    editCopy cad digests true (cad.sha256 file) snapshot changes file = (do
      let outcome ← collectSnapshot digests (d.retexted changes)
      ensure (decide (outcome = snapshot.retexted changes))
        "Text/structure guard mismatch; copy not saved. Visual review required."
      pure (d.retexted changes, snapshot.retexted changes)) := by
  have hcomplete := collectSnapshot_complete digests d hsnapshot
  have hfirst : (expectedRecords snapshot).entries = snapshot.records.map fun r => (r.id, r) :=
    Dict.entries_foldl_set TextRecord.id hcomplete.ids
  obtain ⟨records, hrecords, hentries⟩ :=
    expectChanges_ok hcomplete.ids hfirst h.distinct h.known
  have hafter : expectedAfter snapshot records = snapshot.retexted changes := by
    rw [expectedAfter, hentries, List.map_map]
    exact congrArg (TextSnapshot.mk · _ _ _) (List.map_id _)
  have hmake : changes.foldlM (makeChange cad records) d = .ok (d.retexted changes) := by
    refine makeChanges_ok hcad h.distinct fun c hc => ?_
    obtain ⟨r, hr, hid, hwritable, -⟩ := h.known c hc
    obtain ⟨block, handle, hresident, slot, hslot, -, rfl⟩ := hcomplete.nothingElse r hr
    obtain ⟨-, -, hreason⟩ | ⟨p, hcontent, hp, hsame⟩ := mem_slots hslot
    · exact absurd (Option.isNone_iff_eq_none.1 hwritable) hreason
    · have hproperty : slot.property = p := by rw [hsame]
      have hkey : slot.key handle = textId handle slot.property :=
        key_eq_textId (hproperty.symm ▸ hp)
      refine ⟨block, (slot.record block handle (d.entity handle)).retexted changes, ?_, hresident,
        hcontent.trans (congrArg _ hproperty.symm), hid.symm.trans hkey⟩
      rw [← Dict.mem_entries_iff, hentries, ← hid, List.map_map]
      exact List.mem_map_of_mem hr
  simp [editCopy, ensure, h.distinct, hrecords, hopened, hsnapshot, hmake, hafter, bind,
    Except.bind]

theorem applyToCopy_faithful {alphabet : Alphabet} {planDigests : Digests} {cad : TextCad φ γ}
    (hcad : cad.Faithful) (digests : StructureDigests γ) {file : φ}
    (hopened : cad.opened file = .ok d)
    (hsnapshot : collectSnapshot digests d = .ok snapshot) {path : String}
    {fingerprint : DrawingFingerprint} {expectedId : String} {decisions : List TranslationDecision}
    {plan : TranslationPlan}
    (hplan : buildTranslationPlan alphabet planDigests path fingerprint snapshot
      expectedId decisions = .ok plan) (hready : plan.ready = true) :
    (Fits snapshot plan.changes →
      applyToCopy cad digests true (cad.sha256 file) snapshot plan.changes file =
        (.ok (snapshot.retexted plan.changes), (cad.save (d.retexted plan.changes) file).2)) ∧
    (¬Fits snapshot plan.changes → ∃ e,
      applyToCopy cad digests true (cad.sha256 file) snapshot plan.changes file =
        (.error e, file)) := by
  have hcomplete := collectSnapshot_complete digests d hsnapshot
  obtain ⟨hchangeable, hnone⟩ := changeable_of_plan hcomplete.ids hplan hready
  have hedit := editCopy_faithful hcad hopened hsnapshot hchangeable
  obtain ⟨hsaved, hreopened⟩ := hcad.save (d.retexted plan.changes) file
  constructor
  · intro hfits
    have hafter := collectSnapshot_retexted hsnapshot hchangeable hnone hfits
    have hedited : editCopy cad digests true (cad.sha256 file) snapshot plan.changes file =
        .ok (d.retexted plan.changes, snapshot.retexted plan.changes) := by
      rw [hedit, hafter]
      exact ensure_bind_eq_ok.2 ⟨decide_eq_true rfl, rfl⟩
    have hverified : verifyCopy cad digests (snapshot.retexted plan.changes)
        (cad.save (d.retexted plan.changes) file).2 = .ok (snapshot.retexted plan.changes) :=
      bind_eq_ok.2 ⟨_, bind_eq_ok.2 ⟨_, hreopened, hafter⟩,
        ensure_bind_eq_ok.2 ⟨decide_eq_true rfl, rfl⟩⟩
    have hsave : cad.save (d.retexted plan.changes) file =
        (.ok (), (cad.save (d.retexted plan.changes) file).2) := Prod.ext hsaved rfl
    rw [applyToCopy, hedited]
    dsimp only
    rw [hsave]
    dsimp only
    rw [hverified]
  · intro hfits
    cases hedited : editCopy cad digests true (cad.sha256 file) snapshot plan.changes file with
    | error e =>
      refine ⟨e, ?_⟩
      rw [applyToCopy, hedited]
    | ok x =>
      rw [hedit] at hedited
      obtain ⟨outcome, hafter, hrest⟩ := bind_eq_ok.1 hedited
      obtain ⟨hsame, -⟩ := ensure_bind_eq_ok.1 hrest
      rw [of_decide_eq_true hsame] at hafter
      exact absurd (fits_of_collect hsnapshot hchangeable hnone hafter) hfits

section Example

/-- An AutoCAD that keeps documents as they are. -/
def memoryCad : TextCad (TextDocument Unit) Unit where
  sha256 _ := "copy"
  opened := .ok
  write d r text := .ok (d.written r.handle r.property text)
  save d _ := (.ok (), d)

def doorDocument : TextDocument Unit where
  blocks := [⟨"*Model_Space", "1F", false, ["A1"]⟩]
  layouts := [()]
  locked _ := false
  entity _ :=
    ⟨"AcDbMText", "0", .ok (), false, 0, fun _ => "KAPI", 0, 0, fun _ _ => "", fun _ _ => (), false,
      [], []⟩

def doorTexts (raw : String) : TextSnapshot :=
  ⟨[⟨"A1:TextString", "A1", "AcDbMText", "*Model_Space", "0", .textString, -1, -1, raw, true,
    none⟩],
    [], 1, ""⟩

def doorPlan : TranslationPlan :=
  ⟨"plan", "inventory", "door.dwg", true, 1, 1, [⟨"A1:TextString", "KAPI", "DOOR"⟩], []⟩

theorem applyToCopy_faithful_door :
    applyToCopy memoryCad ⟨fun _ => "", fun _ => ""⟩ true "copy" (doorTexts "KAPI") doorPlan.changes
      doorDocument = (.ok (doorTexts "DOOR"), doorDocument.retexted doorPlan.changes) := by
  have hcad : memoryCad.Faithful := ⟨fun _ _ _ _ _ _ => rfl, fun _ _ => ⟨rfl, rfl⟩⟩
  have hplan : buildTranslationPlan asciiAlphabet someDigests "door.dwg" doorFingerprint
      (doorTexts "KAPI") "inventory" [⟨"A1:TextString:0", "KAPI", .tr, "DOOR"⟩] = .ok doorPlan := by
    rfl
  exact (applyToCopy_faithful hcad ⟨fun _ => "", fun _ => ""⟩ (d := doorDocument) rfl (by rfl) hplan
    rfl).1 ⟨by decide, by decide⟩

end Example

end CadPlot.TextPlan
