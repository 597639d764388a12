import CadPlot.Lib.Runs
import CadPlot.TextPlan.Review

/-!
# Reviews are complete

The pages of an inventory show the spans that a plan asks decisions for, each of
them once, and a plan is ready exactly when nothing stands in its way.
-/

namespace CadPlot.TextPlan

open Runs (Reaches anyEvent)

section Plan

variable {alphabet : Alphabet} {decisions : List TranslationDecision}

theorem mem_sortedSet {texts : List String} {text : String} :
    text ∈ sortedSet texts ↔ text ∈ texts := by
  rw [sortedSet, (List.perm_insertionSort _ _).mem_iff, List.mem_dedup]

theorem sortedSet_isEmpty {texts : List String} :
    (sortedSet texts).isEmpty = true ↔ texts = [] := by
  rw [List.isEmpty_iff, List.eq_nil_iff_forall_not_mem, List.eq_nil_iff_forall_not_mem]
  exact forall_congr' fun text => not_congr mem_sortedSet

/-- Results that are alike elementwise are alike when they are joined. -/
theorem flatMap_eq_of_forall₂ {α β γ : Type} {R : α → β → Prop} {f : α → List γ} {g : β → List γ}
    {xs : List α} {ys : List β} (h : List.Forall₂ R xs ys)
    (heq : ∀ x y, R x y → g y = f x) : ys.flatMap g = xs.flatMap f := by
  induction h with
  | nil => rfl
  | cons hxy _ ih => rw [List.flatMap_cons, List.flatMap_cons, heq _ _ hxy, ih]

theorem exists_of_forall₂ {α β : Type} {R : α → β → Prop} {xs : List α} {ys : List β}
    (h : List.Forall₂ R xs ys) {x : α} (hx : x ∈ xs) : ∃ y ∈ ys, R x y := by
  induction h with
  | nil => cases hx
  | cons hxy _ ih =>
    rcases List.mem_cons.1 hx with rfl | hx
    · exact ⟨_, List.mem_cons_self, hxy⟩
    · obtain ⟨y, hy, hR⟩ := ih hx
      exact ⟨y, List.mem_cons_of_mem _ hy, hR⟩

/-- The span of a piece, if it is shown for review. -/
def spansOf (alphabet : Alphabet) (recordId : String) (x : Piece × Nat) : List TextSpan :=
  if isSpan alphabet x.1 then
    [⟨spanId recordId x.2, decoded x.1.raw, normalizeForSearch alphabet (decoded x.1.raw)⟩]
  else []

theorem reviewed_spans {record : TextRecord} {pieces : List Piece}
    (h : parts alphabet record.raw = .ok pieces) :
    (reviewed alphabet record).spans = pieces.zipIdx.flatMap (spansOf alphabet record.id) := by
  have hfilter : ∀ xs : List (Piece × Nat), (xs.filter fun x => isSpan alphabet x.1).map (fun x =>
      (⟨spanId record.id x.2, decoded x.1.raw,
        normalizeForSearch alphabet (decoded x.1.raw)⟩ : TextSpan)) =
          xs.flatMap (spansOf alphabet record.id) := by
    intro xs
    induction xs with
    | nil => rfl
    | cons x xs ih =>
      rw [List.flatMap_cons, ← ih, spansOf]
      by_cases hx : isSpan alphabet x.1 = true <;> simp [hx]
  rw [← hfilter]
  simp only [reviewed, reviewRecord, h]
  rfl

/-- What a span adds to the blockers of a plan. -/
def spanBlockers (decisions : List TranslationDecision) (span : TextSpan) : List String :=
  match decisions.find? fun d => d.spanId = span.id with
  | none => ["unreviewed:" ++ span.id]
  | some d =>
    (if d.sourceLanguage = .uncertain then ["uncertain:" ++ span.id] else []) ++
      if codes d.target = span.text ∧ d.sourceLanguage = .tr then ["untranslated:" ++ span.id]
      else []

/-- The source of a decision is the span that it is for. -/
def Sourced (decisions : List TranslationDecision) (span : TextSpan) : Prop :=
  ∀ d, decisions.find? (fun d => d.spanId = span.id) = some d → codes d.source = span.text

structure PlannedFor (decisions : List TranslationDecision) (spans : List TextSpan)
    (planned : Planned) : Prop where
  seen : planned.seen = spans.map TextSpan.id
  blockers : planned.blockers = spans.flatMap (spanBlockers decisions)
  sourced : ∀ span ∈ spans, Sourced decisions span

theorem planPiece_ok {recordId : String} {x : Piece × Nat} {planned : Planned}
    (h : planPiece alphabet decisions recordId x = .ok planned) :
    PlannedFor decisions (spansOf alphabet recordId x) planned := by
  unfold planPiece at h
  by_cases hx : isSpan alphabet x.1 = true
  · rw [if_pos hx] at h
    rw [spansOf, if_pos hx]
    cases hfind : decisions.find? fun d => d.spanId = spanId recordId x.2 with
    | none =>
      simp only [hfind] at h
      cases h
      exact ⟨rfl, by simp [spanBlockers, hfind], by simp [Sourced, hfind]⟩
    | some d =>
      simp only [hfind] at h
      obtain ⟨hsource, h⟩ := ensure_bind_eq_ok.1 h
      have hsource := of_decide_eq_true hsource
      have hsourced : ∀ span ∈ [(⟨spanId recordId x.2, decoded x.1.raw,
          normalizeForSearch alphabet (decoded x.1.raw)⟩ : TextSpan)], Sourced decisions span := by
        intro span hspan d' hd'
        obtain rfl := List.mem_singleton.1 hspan
        obtain rfl := Option.some.inj (hfind.symm.trans hd')
        exact hsource
      dsimp only at h
      split at h
      · next hsame =>
        cases h
        refine ⟨rfl, ?_, hsourced⟩
        simp [spanBlockers, hfind, hsame]
      · next hother =>
        obtain ⟨htr, h⟩ := ensure_bind_eq_ok.1 h
        obtain ⟨_, -, h⟩ := bind_eq_ok.1 h
        cases h
        refine ⟨rfl, ?_, hsourced⟩
        simp [spanBlockers, hfind, hother]
  · rw [if_neg hx] at h
    cases h
    rw [spansOf, if_neg hx]
    exact ⟨rfl, rfl, by simp⟩

/-- The blocker of a record that is changed and cannot be written. -/
def writeBlockers (record : TextRecord) (changes : List TextChange) : List String :=
  if !changes.isEmpty && !record.writable then
    ["not_writable:" ++ record.id ++ ":" ++ optionText record.reason]
  else []

structure RecordPlanned (alphabet : Alphabet) (decisions : List TranslationDecision)
    (record : TextRecord) (planned : Planned) : Prop where
  seen : planned.seen = (reviewed alphabet record).spans.map TextSpan.id
  blockers : planned.blockers = formatBlockers alphabet record ++
    (reviewed alphabet record).spans.flatMap (spanBlockers decisions) ++
      writeBlockers record planned.changes
  sourced : ∀ span ∈ (reviewed alphabet record).spans, Sourced decisions span
  changes : ∀ c ∈ planned.changes, c.recordId = record.id

theorem planRecord_ok {record : TextRecord} {planned : Planned}
    (h : planRecord alphabet decisions record = .ok planned) :
    RecordPlanned alphabet decisions record planned := by
  unfold planRecord at h
  cases hparts : parts alphabet record.raw with
  | error code =>
    rw [hparts] at h
    cases h
    have hnone : (reviewed alphabet record).spans = [] := by
      simp [reviewed, reviewRecord, hparts, bind, Except.bind]
    exact ⟨by simp [hnone], by simp [hnone, formatBlockers, hparts, writeBlockers], by simp [hnone],
      by simp⟩
  | ok pieces =>
    rw [hparts] at h
    obtain ⟨each, heach, h⟩ := bind_eq_ok.1 h
    obtain ⟨-, h⟩ := ensure_bind_eq_ok.1 h
    cases h
    have hpieces := (mapM_eq_ok.1 heach).imp fun _ _ => planPiece_ok
    have hspans := reviewed_spans hparts
    refine ⟨?_, ?_, ?_, ?_⟩
    · rw [hspans, List.map_flatMap]
      exact flatMap_eq_of_forall₂ hpieces fun _ _ hp => hp.seen
    · have hblockers := flatMap_eq_of_forall₂ hpieces fun _ _ hp => hp.blockers
      rw [hspans, List.flatMap_assoc, formatBlockers, hparts]
      dsimp only
      rw [hblockers, List.nil_append, writeBlockers]
      congr 1
      by_cases hchanged : String.ofList (each.flatMap Planned.output) = record.raw <;>
        simp [hchanged]
    · intro span hspan
      rw [hspans] at hspan
      obtain ⟨x, hx, hspan⟩ := List.mem_flatMap.1 hspan
      obtain ⟨_, -, hp⟩ := exists_of_forall₂ hpieces hx
      exact hp.sourced span hspan
    · intro c hc
      by_cases hchanged : String.ofList (each.flatMap Planned.output) = record.raw
      · simp [hchanged] at hc
      · simp only [ne_eq, hchanged, not_false_eq_true, decide_true, if_true,
          List.mem_singleton] at hc
        rw [hc]

/-- All spans of a snapshot. -/
def allSpans (alphabet : Alphabet) (snapshot : TextSnapshot) : List TextSpan :=
  snapshot.records.flatMap fun r => (reviewed alphabet r).spans

/-- A returned plan, by the spans of its snapshot. -/
structure Returned (alphabet : Alphabet) (snapshot : TextSnapshot)
    (decisions : List TranslationDecision) (plan : TranslationPlan) : Prop where
  distinct : (decisions.map TranslationDecision.spanId).Nodup
  known : ∀ d ∈ decisions, ∃ span ∈ allSpans alphabet snapshot, span.id = d.spanId
  sourced : ∀ span ∈ allSpans alphabet snapshot, Sourced decisions span
  ready : plan.ready = plan.blockers.isEmpty
  blockers : ∃ planned : List Planned,
    List.Forall₂ (RecordPlanned alphabet decisions) snapshot.records planned ∧
      plan.changes = planned.flatMap Planned.changes ∧
      plan.blockers = sortedSet (snapshot.blockers ++ planned.flatMap Planned.blockers)

theorem buildTranslationPlan_ok {digests : Digests} {path : String}
    {fingerprint : DrawingFingerprint} {snapshot : TextSnapshot} {expectedId : String}
    {plan : TranslationPlan}
    (h : buildTranslationPlan alphabet digests path fingerprint snapshot expectedId decisions =
      .ok plan) : Returned alphabet snapshot decisions plan := by
  obtain ⟨-, h⟩ := ensure_bind_eq_ok.1 h
  obtain ⟨hdistinct, h⟩ := ensure_bind_eq_ok.1 h
  obtain ⟨-, h⟩ := ensure_bind_eq_ok.1 h
  obtain ⟨planned, hplanned, h⟩ := bind_eq_ok.1 h
  obtain ⟨hknown, h⟩ := ensure_bind_eq_ok.1 h
  cases h
  have hrecords := (mapM_eq_ok.1 hplanned).imp fun _ _ => planRecord_ok
  have hseen : planned.flatMap Planned.seen =
      (allSpans alphabet snapshot).map TextSpan.id := by
    rw [allSpans, List.map_flatMap]
    exact flatMap_eq_of_forall₂ hrecords fun _ _ hr => hr.seen
  refine ⟨of_decide_eq_true hdistinct, fun d hd => ?_, fun span hspan => ?_, rfl,
    planned, hrecords, rfl, rfl⟩
  · have hmem := of_decide_eq_true hknown d hd
    rw [hseen] at hmem
    exact List.mem_map.1 hmem
  · obtain ⟨record, hrecord, hspan⟩ := List.mem_flatMap.1 hspan
    obtain ⟨_, -, hr⟩ := exists_of_forall₂ hrecords hrecord
    exact hr.sourced span hspan

/-- The decision that is found for a span is the only one for it. -/
theorem find_eq_some_iff (h : (decisions.map TranslationDecision.spanId).Nodup) {id : String}
    {d : TranslationDecision} :
    decisions.find? (fun d => d.spanId = id) = some d ↔
      decisions.filter (fun d => d.spanId = id) = [d] := by
  have hnodup := h.sublist
    ((List.filter_sublist (p := fun d : TranslationDecision => d.spanId = id)).map
      TranslationDecision.spanId)
  have hall : ∀ x ∈ decisions.filter (fun d => d.spanId = id), x.spanId = id := fun x hx => by
    simpa using (List.mem_filter.1 hx).2
  rw [← List.head?_filter]
  generalize decisions.filter (fun d => d.spanId = id) = found at hnodup hall
  match found with
  | [] => simp
  | [x] => simp
  | x :: y :: rest =>
    have hx := hall x (by simp)
    have hy := hall y (by simp)
    simp [hx, hy] at hnodup

theorem spanBlockers_eq_nil_iff {span : TextSpan} :
    spanBlockers decisions span = [] ↔
      ∃ d, decisions.find? (fun d => d.spanId = span.id) = some d ∧
        d.sourceLanguage ≠ .uncertain ∧
          (d.sourceLanguage = .tr → codes d.target ≠ span.text) := by
  unfold spanBlockers
  cases decisions.find? fun d => d.spanId = span.id with
  | none => simp
  | some d => simp; tauto

/-- Nothing stands in the way of a plan. -/
structure Unobstructed (alphabet : Alphabet) (snapshot : TextSnapshot)
    (decisions : List TranslationDecision) (plan : TranslationPlan) (spans : List TextSpan) :
    Prop where
  blockers : snapshot.blockers = []
  supported : ∀ r ∈ snapshot.records, ∃ pieces, parts alphabet r.raw = .ok pieces
  decided : ∀ span ∈ spans, ∃ d, decisions.filter (fun d => d.spanId = span.id) = [d] ∧
    codes d.source = span.text
  certain : ∀ d ∈ decisions, d.sourceLanguage ≠ .uncertain
  translated : ∀ span ∈ spans, ∀ d ∈ decisions, d.spanId = span.id → d.sourceLanguage = .tr →
    codes d.target ≠ span.text
  writable : ∀ c ∈ plan.changes, ∀ r ∈ snapshot.records, r.id = c.recordId → r.writable = true

theorem formatBlockers_eq_nil_iff {r : TextRecord} :
    formatBlockers alphabet r = [] ↔ ∃ pieces, parts alphabet r.raw = .ok pieces := by
  unfold formatBlockers
  cases parts alphabet r.raw <;> simp

theorem writeBlockers_eq_nil_iff {r : TextRecord} {changes : List TextChange} :
    writeBlockers r changes = [] ↔ (changes ≠ [] → r.writable = true) := by
  unfold writeBlockers
  cases changes <;> cases r.writable <;> simp

section Returned

variable {snapshot : TextSnapshot} {plan : TranslationPlan}

theorem ready_iff (h : Returned alphabet snapshot decisions plan)
    (hids : (snapshot.records.map TextRecord.id).Nodup) :
    plan.ready = true ↔
      Unobstructed alphabet snapshot decisions plan (allSpans alphabet snapshot) := by
  obtain ⟨planned, hrecords, hchanges, hblockers⟩ := h.blockers
  have hflip : ∀ p ∈ planned, ∃ r ∈ snapshot.records, RecordPlanned alphabet decisions r p :=
    fun p hp => exists_of_forall₂ hrecords.flip hp
  rw [h.ready, hblockers, sortedSet_isEmpty, List.append_eq_nil_iff, List.flatMap_eq_nil_iff]
  constructor
  · rintro ⟨hsnapshot, hplanned⟩
    have hrecord : ∀ r ∈ snapshot.records, formatBlockers alphabet r = [] ∧
        ∀ span ∈ (reviewed alphabet r).spans, spanBlockers decisions span = [] := by
      intro r hr
      obtain ⟨p, hp, hrp⟩ := exists_of_forall₂ hrecords hr
      have hnone := hplanned p hp
      rw [hrp.blockers, List.append_eq_nil_iff, List.append_eq_nil_iff,
        List.flatMap_eq_nil_iff] at hnone
      exact hnone.1
    have hspan : ∀ span ∈ allSpans alphabet snapshot, ∃ d,
        decisions.filter (fun d => d.spanId = span.id) = [d] ∧ codes d.source = span.text ∧
          d.sourceLanguage ≠ .uncertain ∧
            (d.sourceLanguage = .tr → codes d.target ≠ span.text) := by
      intro span hspan
      obtain ⟨r, hr, hmem⟩ := List.mem_flatMap.1 hspan
      obtain ⟨d, hfind, hcertain, htr⟩ := spanBlockers_eq_nil_iff.1 ((hrecord r hr).2 span hmem)
      exact ⟨d, (find_eq_some_iff h.distinct).1 hfind, h.sourced span hspan d hfind, hcertain, htr⟩
    have hdecision : ∀ span ∈ allSpans alphabet snapshot, ∀ d ∈ decisions, d.spanId = span.id →
        d.sourceLanguage ≠ .uncertain ∧
          (d.sourceLanguage = .tr → codes d.target ≠ span.text) := by
      intro span hmem d hd hid
      obtain ⟨d', hfilter, -, hcertain, htr⟩ := hspan span hmem
      have hd' : d ∈ decisions.filter (fun d => d.spanId = span.id) :=
        List.mem_filter.2 ⟨hd, decide_eq_true hid⟩
      rw [hfilter, List.mem_singleton] at hd'
      exact hd' ▸ ⟨hcertain, htr⟩
    refine ⟨hsnapshot, fun r hr => formatBlockers_eq_nil_iff.1 (hrecord r hr).1,
      fun span hmem => ?_, fun d hd => ?_, fun span hmem d hd hid => (hdecision span hmem d hd hid).2,
      fun c hc r hr hid => ?_⟩
    · obtain ⟨d, hfilter, hsource, -⟩ := hspan span hmem
      exact ⟨d, hfilter, hsource⟩
    · obtain ⟨span, hmem, hid⟩ := h.known d hd
      exact (hdecision span hmem d hd hid.symm).1
    · rw [hchanges] at hc
      obtain ⟨p, hp, hc⟩ := List.mem_flatMap.1 hc
      obtain ⟨r', hr', hrp⟩ := hflip p hp
      obtain rfl := List.inj_on_of_nodup_map hids hr hr' (hid.trans (hrp.changes c hc))
      have hnone := hplanned p hp
      rw [hrp.blockers, List.append_eq_nil_iff] at hnone
      exact writeBlockers_eq_nil_iff.1 hnone.2 (List.ne_nil_of_mem hc)
  · intro hun
    refine ⟨hun.blockers, fun p hp => ?_⟩
    obtain ⟨r, hr, hrp⟩ := hflip p hp
    rw [hrp.blockers, List.append_eq_nil_iff, List.append_eq_nil_iff, List.flatMap_eq_nil_iff]
    refine ⟨⟨formatBlockers_eq_nil_iff.2 (hun.supported r hr), fun span hspan => ?_⟩, ?_⟩
    · have hmem : span ∈ allSpans alphabet snapshot := List.mem_flatMap.2 ⟨r, hr, hspan⟩
      obtain ⟨d, hfilter, -⟩ := hun.decided span hmem
      have hfind := (find_eq_some_iff h.distinct).2 hfilter
      have hd := List.mem_of_find?_eq_some hfind
      have hid : d.spanId = span.id := by simpa using List.find?_some hfind
      exact spanBlockers_eq_nil_iff.2 ⟨d, hfind, hun.certain d hd, hun.translated span hmem d hd hid⟩
    · refine writeBlockers_eq_nil_iff.2 fun hne => ?_
      obtain ⟨c, hc⟩ := List.exists_mem_of_ne_nil _ hne
      refine hun.writable c ?_ r hr (hrp.changes c hc).symm
      rw [hchanges]
      exact List.mem_flatMap.2 ⟨p, hp, hc⟩

/-- The spans that a plan asks a decision for are these. -/
structure Asks (snapshot : TextSnapshot) (decisions : List TranslationDecision)
    (plan : TranslationPlan) (spans : List TextSpan) : Prop where
  known : ∀ d ∈ decisions, ∃ span ∈ spans, span.id = d.spanId ∧ codes d.source = span.text
  asked : ∀ span ∈ spans, (∀ d ∈ decisions, d.spanId ≠ span.id) →
    "unreviewed:" ++ span.id ∈ plan.blockers
  only : ∀ id, "unreviewed:" ++ id ∈ plan.blockers → "unreviewed:" ++ id ∈ snapshot.blockers ∨
    ∃ span ∈ spans, span.id = id ∧ ∀ d ∈ decisions, d.spanId ≠ id

theorem unreviewed_ne {tag : String} (h : tag.toList.take 4 ≠ "unreviewed:".toList.take 4)
    (hlen : 4 ≤ tag.toList.length) (id text : String) : "unreviewed:" ++ id ≠ tag ++ text := by
  intro heq
  have hchars := congrArg (fun s : String => s.toList.take 4) heq
  simp only [String.toList_append] at hchars
  rw [List.take_append_of_le_length (by decide), List.take_append_of_le_length hlen] at hchars
  exact h hchars.symm

theorem unreviewed_spanBlockers {span : TextSpan} {id : String}
    (h : "unreviewed:" ++ id ∈ spanBlockers decisions span) :
    span.id = id ∧ ∀ d ∈ decisions, d.spanId ≠ id := by
  unfold spanBlockers at h
  cases hfind : decisions.find? fun d => d.spanId = span.id with
  | none =>
    simp only [hfind, List.mem_singleton] at h
    have hid : id = span.id := by
      have hchars := congrArg String.toList h
      simp only [String.toList_append, List.append_cancel_left_eq] at hchars
      exact String.toList_inj.1 hchars
    refine ⟨hid.symm, fun d hd => ?_⟩
    rw [hid]
    simpa using List.find?_eq_none.1 hfind d hd
  | some d =>
    simp only [hfind, List.mem_append] at h
    rcases h with h | h
    · split at h
      · exact absurd (List.mem_singleton.1 h) (unreviewed_ne (by decide) (by decide) _ _)
      · cases h
    · split at h
      · exact absurd (List.mem_singleton.1 h) (unreviewed_ne (by decide) (by decide) _ _)
      · cases h

theorem asks_of_returned (h : Returned alphabet snapshot decisions plan) :
    Asks snapshot decisions plan (allSpans alphabet snapshot) := by
  obtain ⟨planned, hrecords, -, hblockers⟩ := h.blockers
  refine ⟨fun d hd => ?_, fun span hspan hnone => ?_, fun id hid => ?_⟩
  · obtain ⟨span, hspan, hid⟩ := h.known d hd
    refine ⟨span, hspan, hid, ?_⟩
    have hsome : (decisions.find? fun d => d.spanId = span.id).isSome = true :=
      List.find?_isSome.2 ⟨d, hd, decide_eq_true hid.symm⟩
    obtain ⟨d', hfind⟩ := Option.isSome_iff_exists.1 hsome
    have hmem : d ∈ decisions.filter (fun d => d.spanId = span.id) :=
      List.mem_filter.2 ⟨hd, decide_eq_true hid.symm⟩
    rw [(find_eq_some_iff h.distinct).1 hfind, List.mem_singleton] at hmem
    exact hmem ▸ h.sourced span hspan d' hfind
  · have hfind : (decisions.find? fun d => d.spanId = span.id) = none :=
      List.find?_eq_none.2 fun d hd => by simpa using hnone d hd
    obtain ⟨r, hr, hmem⟩ := List.mem_flatMap.1 hspan
    obtain ⟨p, hp, hrp⟩ := exists_of_forall₂ hrecords hr
    rw [hblockers, mem_sortedSet]
    refine List.mem_append_right _ (List.mem_flatMap.2 ⟨p, hp, ?_⟩)
    rw [hrp.blockers]
    refine List.mem_append_left _ (List.mem_append_right _ (List.mem_flatMap.2 ⟨span, hmem, ?_⟩))
    simp [spanBlockers, hfind]
  · rw [hblockers, mem_sortedSet] at hid
    rcases List.mem_append.1 hid with hid | hid
    · exact .inl hid
    · obtain ⟨p, hp, hid⟩ := List.mem_flatMap.1 hid
      obtain ⟨r, hr, hrp⟩ := exists_of_forall₂ hrecords.flip hp
      have hrp : RecordPlanned alphabet decisions r p := hrp
      rw [hrp.blockers, List.mem_append, List.mem_append] at hid
      rcases hid with (hid | hid) | hid
      · unfold formatBlockers at hid
        split at hid
        · cases hid
        · exact absurd (List.mem_singleton.1 hid) (unreviewed_ne (by decide) (by decide) _ _)
      · obtain ⟨span, hspan, hid⟩ := List.mem_flatMap.1 hid
        exact .inr ⟨span, List.mem_flatMap.2 ⟨r, hr, hspan⟩, unreviewed_spanBlockers hid⟩
      · unfold writeBlockers at hid
        split at hid
        · rw [String.append_assoc, String.append_assoc, List.mem_singleton] at hid
          exact absurd hid (unreviewed_ne (by decide) (by decide) _ _)
        · cases hid

end Returned

end Plan

/-! ### The pages -/

section Pages

variable (alphabet : Alphabet) (digests : Digests) (path : String)
  (fingerprint : DrawingFingerprint) (snapshot : TextSnapshot)

/-- A reader that follows `next_offset`. The first page is at zero. -/
structure Reader where
  nextOffset : Option Int
  expectedId : Option String
  records : List ReviewedText
  pages : Nat

def Reader.start : Reader := ⟨some 0, none, [], 0⟩

def Reader.turned (s : Reader) (page : TranslationInventory) : Reader :=
  ⟨page.nextOffset, some page.inventoryId, s.records ++ page.records, s.pages + 1⟩

/-- A request for the next page, with a limit. One that fails leaves the reader where it is. -/
def readPage (s : Reader) (limit : Int) : Option Reader :=
  match s.nextOffset with
  | none => none
  | some offset =>
    match inventoryPage alphabet digests path fingerprint snapshot s.expectedId offset limit with
    | .error _ => some s
    | .ok page => some (s.turned page)

structure Reading (s : Reader) : Prop where
  expected : s.expectedId = none ∨ s.expectedId = some (digests.inventory path fingerprint snapshot)
  going : ∀ offset, s.nextOffset = some offset → ∃ n : Nat, offset = n ∧
    n ≤ snapshot.records.length ∧ s.records = (snapshot.records.map (reviewed alphabet)).take n ∧
      (n ≠ 0 → s.expectedId ≠ none) ∧ s.pages ≤ n
  done : s.nextOffset = none → s.records = snapshot.records.map (reviewed alphabet) ∧
    s.pages ≤ snapshot.records.length + 1

theorem inventoryPage_ok {expectedId : Option String} {n : Nat} {limit : Int}
    (hexpected : expectedId = none ∨ expectedId = some (digests.inventory path fingerprint snapshot))
    (hn : n ≤ snapshot.records.length) (hfirst : n ≠ 0 → expectedId ≠ none)
    (hlimit : 1 ≤ limit ∧ limit ≤ 100) :
    ∃ page, inventoryPage alphabet digests path fingerprint snapshot expectedId n limit = .ok page ∧
      page.inventoryId = digests.inventory path fingerprint snapshot ∧
      page.records = ((snapshot.records.map (reviewed alphabet)).drop n).take limit.toNat ∧
      page.nextOffset = if n + limit.toNat < snapshot.records.length then
        some ((n + limit.toNat : Nat) : Int) else none := by
  have hbounds : ((0 ≤ (n : Int) ∧ (n : Int) ≤ snapshot.records.length) ∧
      1 ≤ limit ∧ limit ≤ 100) := ⟨⟨by omega, by omega⟩, hlimit⟩
  have hkept : ¬((((n : Int) ≠ 0 ∧ expectedId = none) ∨ ∃ id ∈ expectedId, id ≠ "" ∧
      id ≠ digests.inventory path fingerprint snapshot)) := by
    rintro (⟨hne, hnone⟩ | ⟨id, hid, -, hother⟩)
    · exact hfirst (by omega) hnone
    · rcases hexpected with hnone | hsome
      · rw [hnone] at hid
        cases hid
      · rw [hsome] at hid
        exact hother (Option.some.inj hid).symm
  refine ⟨_, ensure_bind_eq_ok.2 ⟨decide_eq_true hbounds,
    ensure_bind_eq_ok.2 ⟨decide_eq_true hkept, rfl⟩⟩, rfl, ?_, ?_⟩
  · simp
  · have htoNat : ((limit.toNat : Nat) : Int) = limit := Int.toNat_of_nonneg (by omega)
    simp only [List.length_map]
    by_cases hmore : n + limit.toNat < snapshot.records.length
    · rw [if_pos hmore, if_pos (by omega)]
      congr 1
      omega
    · rw [if_neg hmore, if_neg (by omega)]

theorem reading_start : Reading alphabet digests path fingerprint snapshot .start where
  expected := .inl rfl
  going offset h := by
    obtain rfl := Option.some.inj h
    exact ⟨0, rfl, Nat.zero_le _, rfl, by simp, Nat.le_refl 0⟩
  done h := by cases h

theorem reading_turned {s : Reader} {n : Nat} {limit : Int} {page : TranslationInventory}
    (hrecords : s.records = (snapshot.records.map (reviewed alphabet)).take n)
    (hpages : s.pages ≤ n) (hn : n ≤ snapshot.records.length) (hlimit : 1 ≤ limit)
    (hid : page.inventoryId = digests.inventory path fingerprint snapshot)
    (hpage : page.records = ((snapshot.records.map (reviewed alphabet)).drop n).take limit.toNat)
    (hnext : page.nextOffset = if n + limit.toNat < snapshot.records.length then
      some ((n + limit.toNat : Nat) : Int) else none) :
    Reading alphabet digests path fingerprint snapshot (s.turned page) := by
  have hall : s.records ++ page.records =
      (snapshot.records.map (reviewed alphabet)).take (n + limit.toNat) := by
    rw [hrecords, hpage, List.take_add]
  refine ⟨.inr (congrArg some hid), fun offset hoffset => ?_, fun hdone => ?_⟩
  · have hoffset : page.nextOffset = some offset := hoffset
    rw [hnext] at hoffset
    split at hoffset
    · next hmore =>
      refine ⟨n + limit.toNat, (Option.some.inj hoffset).symm, by omega, hall, by simp [Reader.turned],
        ?_⟩
      simp only [Reader.turned]
      omega
    · cases hoffset
  · have hdone : page.nextOffset = none := hdone
    rw [hnext] at hdone
    split at hdone
    · cases hdone
    · next hlast =>
      refine ⟨hall.trans (List.take_of_length_le ?_), ?_⟩
      · rw [List.length_map]
        omega
      · simp only [Reader.turned]
        omega

theorem reading_of_reaches {s : Reader}
    (h : Reaches (readPage alphabet digests path fingerprint snapshot) anyEvent .start s) :
    Reading alphabet digests path fingerprint snapshot s := by
  refine Runs.invariant_of_reaches (reading_start alphabet digests path fingerprint snapshot) ?_ h
  intro s limit next reading _ hstep
  unfold readPage at hstep
  cases hoffset : s.nextOffset with
  | none => simp [hoffset] at hstep
  | some offset =>
    obtain ⟨n, rfl, hn, hrecords, hfirst, hpages⟩ := reading.going offset hoffset
    cases hpage : inventoryPage alphabet digests path fingerprint snapshot s.expectedId n limit with
    | error code =>
      simp only [hoffset, hpage, Option.some.injEq] at hstep
      exact hstep ▸ reading
    | ok page =>
      simp only [hoffset, hpage, Option.some.injEq] at hstep
      obtain ⟨hbounds, -⟩ := ensure_bind_eq_ok.1 hpage
      have hlimit := (of_decide_eq_true hbounds).2
      obtain ⟨page', hpage', hid, hrecords', hnext⟩ := inventoryPage_ok alphabet digests path
        fingerprint snapshot reading.expected hn hfirst hlimit
      cases hpage.symm.trans hpage'
      exact hstep ▸ reading_turned alphabet digests path fingerprint snapshot hrecords hpages hn
        hlimit.1 hid hrecords' hnext

/-- Following the pages with any limits ends and shows every record once, and the spans that were
shown are those that a plan asks decisions for. A plan is ready exactly if nothing stands in its
way. -/
theorem review_complete (hids : (snapshot.records.map TextRecord.id).Nodup) {s : Reader}
    (h : Reaches (readPage alphabet digests path fingerprint snapshot) anyEvent .start s) :
    s.pages ≤ snapshot.records.length + 1 ∧
      (∀ offset, s.nextOffset = some offset → ∀ limit : Int, 1 ≤ limit → limit ≤ 100 →
        ∃ page, readPage alphabet digests path fingerprint snapshot s limit =
          some (s.turned page)) ∧
      (s.nextOffset = none → s.records.map ReviewedText.record = snapshot.records ∧
        ∀ decisions expectedId plan, buildTranslationPlan alphabet digests path fingerprint snapshot
          expectedId decisions = .ok plan →
            Asks snapshot decisions plan (s.records.flatMap ReviewedText.spans) ∧
              (plan.ready = true ↔ Unobstructed alphabet snapshot decisions plan
                (s.records.flatMap ReviewedText.spans))) := by
  have reading := reading_of_reaches alphabet digests path fingerprint snapshot h
  refine ⟨?_, fun offset hoffset limit hlow hhigh => ?_, fun hdone => ?_⟩
  · cases hoffset : s.nextOffset with
    | none => exact (reading.done hoffset).2
    | some offset =>
      obtain ⟨n, -, hn, -, -, hpages⟩ := reading.going offset hoffset
      omega
  · obtain ⟨n, rfl, hn, -, hfirst, -⟩ := reading.going offset hoffset
    obtain ⟨page, hpage, -⟩ := inventoryPage_ok alphabet digests path fingerprint snapshot
      reading.expected hn hfirst ⟨hlow, hhigh⟩
    exact ⟨page, by simp [readPage, hoffset, hpage]⟩
  · have hrecords := (reading.done hdone).1
    have hspans : s.records.flatMap ReviewedText.spans = allSpans alphabet snapshot := by
      rw [hrecords, List.flatMap_map]
      rfl
    refine ⟨?_, fun decisions expectedId plan hplan => ?_⟩
    · rw [hrecords, List.map_map]
      refine (List.map_congr_left fun r _ => ?_).trans (List.map_id _)
      simp only [Function.comp_apply, reviewed, reviewRecord, id_eq]
      cases parts alphabet r.raw <;> rfl
    · have hreturned := buildTranslationPlan_ok hplan
      rw [hspans]
      exact ⟨asks_of_returned hreturned, ready_iff hreturned hids⟩

end Pages

section Example

def textRecord (id raw : String) : TextRecord where
  id := id
  handle := "A1"
  kind := "AcDbMText"
  block := "*Model_Space"
  layer := "0"
  property := .textString
  row := -1
  column := -1
  raw := raw
  writable := true
  reason := none

def doorSnapshot : TextSnapshot :=
  ⟨[textRecord "a" "KAPI\\PNo 5", textRecord "b" "\x7bunknown\\"], [], 2, "structure"⟩

def someDigests : Digests := ⟨fun _ _ _ => "inventory", fun _ _ _ => "plan"⟩

def doorFingerprint : DrawingFingerprint := ⟨"source", 1, 1⟩

theorem review_complete_door : ∃ s : Reader,
    (s.nextOffset = none ∧
      (s.records.flatMap ReviewedText.spans).map TextSpan.id = ["a:0", "a:2"]) ∧
      s.pages ≤ doorSnapshot.records.length + 1 ∧
      (∀ offset, s.nextOffset = some offset → ∀ limit : Int, 1 ≤ limit → limit ≤ 100 →
        ∃ page, readPage asciiAlphabet someDigests "door.dwg" doorFingerprint doorSnapshot s limit =
          some (s.turned page)) ∧
      (s.nextOffset = none → s.records.map ReviewedText.record = doorSnapshot.records ∧
        ∀ decisions expectedId plan, buildTranslationPlan asciiAlphabet someDigests "door.dwg"
          doorFingerprint doorSnapshot expectedId decisions = .ok plan →
            Asks doorSnapshot decisions plan (s.records.flatMap ReviewedText.spans) ∧
              (plan.ready = true ↔ Unobstructed asciiAlphabet doorSnapshot decisions plan
                (s.records.flatMap ReviewedText.spans))) := by
  obtain ⟨s, hreach, hlast⟩ := Runs.exists_reaches_of_run
    (readPage asciiAlphabet someDigests "door.dwg" doorFingerprint doorSnapshot) anyEvent .start
    [1, 0, 100] (fun s => decide (s.nextOffset = none) &&
      decide ((s.records.flatMap ReviewedText.spans).map TextSpan.id = ["a:0", "a:2"]))
    (Runs.along_anyEvent _ _) (by decide +kernel)
  exact ⟨s, by simpa using hlast,
    review_complete asciiAlphabet someDigests "door.dwg" doorFingerprint doorSnapshot
      (by decide +kernel) hreach⟩

end Example

end CadPlot.TextPlan
