import CadPlot.TextPlan.ApplyingLaws
import CadPlot.TextPlan.Service

/-!
# Only verified drawings are released

Whatever AutoCAD, the workers and the programs around the service do, a receipt
is written for an output that has the texts of the approved plan, made from the
source as it was when it was scanned and as it still is.
-/

namespace CadPlot.TextPlan

open Traversal

variable {φ γ : Type} {cad : TextCad φ γ} {digests : StructureDigests γ}

/-- A copy that has been applied to was the approved one, and holds the texts that are expected. -/
theorem applyToCopy_ok {enabled : Bool} {expectedSha256 : String} {expected after : TextSnapshot}
    {changes : List TextChange} {file saved : φ}
    (h : applyToCopy cad digests enabled expectedSha256 expected changes file =
      (.ok after, saved)) :
    cad.sha256 file = expectedSha256 ∧ inspectTexts cad digests file = .ok expected ∧
      inspectTexts cad digests saved = .ok after ∧
        ∃ records, changes.foldlM expectChange (expectedRecords expected) = .ok records ∧
          after = expectedAfter expected records := by
  unfold applyToCopy at h
  cases hedit : editCopy cad digests enabled expectedSha256 expected changes file with
  | error e =>
    rw [hedit] at h
    cases h
  | ok x =>
    obtain ⟨edited, wanted⟩ := x
    rw [hedit] at h
    dsimp only at h
    obtain ⟨hsha, hedit⟩ := ensure_bind_eq_ok.1 hedit
    obtain ⟨-, hedit⟩ := ensure_bind_eq_ok.1 hedit
    obtain ⟨-, hedit⟩ := ensure_bind_eq_ok.1 hedit
    obtain ⟨records, hrecords, hedit⟩ := bind_eq_ok.1 hedit
    obtain ⟨document, hopened, hedit⟩ := bind_eq_ok.1 hedit
    obtain ⟨inventory, hinventory, hedit⟩ := bind_eq_ok.1 hedit
    obtain ⟨hsame, hedit⟩ := ensure_bind_eq_ok.1 hedit
    obtain ⟨_, -, hedit⟩ := bind_eq_ok.1 hedit
    obtain ⟨_, -, hedit⟩ := bind_eq_ok.1 hedit
    obtain ⟨-, hedit⟩ := ensure_bind_eq_ok.1 hedit
    cases hedit
    rw [of_decide_eq_true hsame] at hinventory
    cases hsave : cad.save edited file with
    | mk outcome saved' =>
      rw [hsave] at h
      cases outcome with
      | error e => cases h
      | ok _ =>
        obtain ⟨hverify, rfl⟩ := Prod.mk.inj h
        obtain ⟨reopened, hreopened, hverify⟩ := bind_eq_ok.1 hverify
        obtain ⟨hwanted, hverify⟩ := ensure_bind_eq_ok.1 hverify
        obtain rfl := pure_eq_ok.1 hverify
        exact ⟨of_decide_eq_true hsha, bind_eq_ok.2 ⟨document, hopened, hinventory⟩, hreopened,
          records, hrecords, of_decide_eq_true hwanted⟩

section Service

variable {service : TextService φ γ}

theorem runTextWorker_ok {moment : Look} {outcome : Except String TextSnapshot}
    {snapshot : TextSnapshot} (h : service.runTextWorker moment outcome = .ok snapshot) :
    outcome = .ok snapshot := by
  obtain ⟨result, hresult, h⟩ := bind_eq_ok.1 h
  obtain ⟨_, -, h⟩ := bind_eq_ok.1 h
  obtain rfl := pure_eq_ok.1 h
  exact mapError_eq_ok.1 hresult

/-- A source that has been scanned looked the same before and after the scan. -/
theorem scanSource_ok {before : DrawingFingerprint} {snapshot : TextSnapshot}
    (h : service.scanSource = .ok (before, snapshot)) :
    service.look .started = .ok before ∧ service.look .planned = .ok before ∧
      ∃ file, service.source .scanned = .ok file ∧
        inspectTexts service.cad service.structures file.content = .ok snapshot := by
  obtain ⟨first, hfirst, h⟩ := bind_eq_ok.1 h
  obtain ⟨found, hwork, h⟩ := bind_eq_ok.1 h
  obtain ⟨after, hafter, h⟩ := bind_eq_ok.1 h
  obtain ⟨hsame, h⟩ := ensure_bind_eq_ok.1 h
  cases h
  obtain ⟨_, -, hwork⟩ := bind_eq_ok.1 (runTextWorker_ok hwork)
  obtain ⟨file, hfile, hwork⟩ := bind_eq_ok.1 hwork
  obtain ⟨result, hresult, hwork⟩ := bind_eq_ok.1 hwork
  obtain ⟨_, -, hwork⟩ := bind_eq_ok.1 hwork
  obtain ⟨-, hwork⟩ := ensure_bind_eq_ok.1 hwork
  cases hwork
  rw [of_decide_eq_true hsame] at hafter
  exact ⟨hfirst, hafter, file, hfile, hresult⟩

/-- What a receipt stands for. -/
structure Released (service : TextService φ γ) (path expectedId : String)
    (decisions : List TranslationDecision) (approvedPlanId : String)
    (receipt : TranslationReceipt) (files : JobFiles φ) (before : DrawingFingerprint)
    (snapshot : TextSnapshot) (plan : TranslationPlan) : Prop where
  planned : buildTranslationPlan service.alphabet service.digests path before snapshot expectedId
    decisions = .ok plan
  approved : plan.planId = approvedPlanId ∧ plan.ready = true ∧ plan.changes ≠ []
  unchanged : ∀ moment, moment = .started ∨ moment = .planned ∨ moment = .drafted ∨
    moment = .translated ∨ moment = .released → service.look moment = .ok before
  copied : ∃ source, service.source .copied = .ok source ∧
    service.cad.sha256 source.content = before.sha256 ∧
      inspectTexts service.cad service.structures source.content = .ok snapshot
  verified : ∃ draft output, files = ⟨some ⟨plan, before, decisions⟩, some draft, some output,
      some receipt⟩ ∧
    inspectTexts service.cad service.structures draft = .ok (snapshot.retexted plan.changes) ∧
      service.cad.sha256 output = service.cad.sha256 draft ∧
        receipt.outputSha256 = service.cad.sha256 output
  receipt : receipt.planId = plan.planId ∧ receipt.changedRecords = plan.changes.length

theorem approve_ok {path expectedId : String} {decisions : List TranslationDecision}
    {approvedPlanId : String} {before : DrawingFingerprint} {snapshot : TextSnapshot}
    {plan : TranslationPlan}
    (h : service.approve path expectedId decisions approvedPlanId = .ok (before, snapshot, plan)) :
    service.scanSource = .ok (before, snapshot) ∧
      buildTranslationPlan service.alphabet service.digests path before snapshot expectedId
        decisions = .ok plan ∧
      plan.planId = approvedPlanId ∧ plan.ready = true ∧ plan.changes ≠ [] := by
  obtain ⟨-, h⟩ := ensure_bind_eq_ok.1 h
  obtain ⟨-, h⟩ := ensure_bind_eq_ok.1 h
  obtain ⟨⟨first, found⟩, hscan, h⟩ := bind_eq_ok.1 h
  obtain ⟨current, hplan, h⟩ := bind_eq_ok.1 h
  obtain ⟨happroved, h⟩ := ensure_bind_eq_ok.1 h
  obtain ⟨hchanges, h⟩ := ensure_bind_eq_ok.1 h
  cases h
  obtain ⟨hid, hready⟩ := Bool.and_eq_true_iff.1 happroved
  exact ⟨hscan, hplan, of_decide_eq_true hid, hready, by simpa using hchanges⟩

/-- What the service expects of changes of listed texts is what `apply_to_copy` expects. -/
theorem desire_of_expect {records records' : Dict String TextRecord} {changes : List TextChange}
    (h : changes.foldlM expectChange records = .ok records') :
    changes.foldlM desire records = .ok records' := by
  induction changes generalizing records with
  | nil => exact h
  | cons c changes ih =>
    obtain ⟨next, hnext, hrest⟩ := foldlM_cons_eq_ok.1 h
    refine foldlM_cons_eq_ok.2 ⟨next, ?_, ih hrest⟩
    cases hget : records.get c.recordId with
    | none =>
      rw [expectChange, hget] at hnext
      cases hnext
    | some record =>
      rw [expectChange, hget] at hnext
      rw [desire, hget]
      exact (ensure_bind_eq_ok.1 hnext).2

theorem checkOutcome_ok {before : DrawingFingerprint} {snapshot : TextSnapshot}
    {changes : List TextChange} {outcome : Except String TextSnapshot}
    (hids : (snapshot.records.map TextRecord.id).Nodup) (hchanges : Changeable snapshot changes)
    (h : service.checkOutcome before snapshot changes outcome = .ok ()) :
    outcome = .ok (snapshot.retexted changes) ∧ service.look .translated = .ok before := by
  obtain ⟨after, hafter, h⟩ := bind_eq_ok.1 h
  obtain ⟨desired, hdesired, h⟩ := bind_eq_ok.1 h
  obtain ⟨hsame, h⟩ := ensure_bind_eq_ok.1 h
  obtain ⟨now, hnow, h⟩ := bind_eq_ok.1 h
  have hunchanged := ensure_eq_ok.1 h
  obtain ⟨records, hrecords, hentries⟩ := expectChanges_ok hids
    (Dict.entries_foldl_set TextRecord.id hids) hchanges.distinct hchanges.known
  obtain rfl := Except.ok.inj ((desire_of_expect hrecords).symm.trans hdesired)
  have hexpected : expectedAfter snapshot records = snapshot.retexted changes := by
    rw [expectedAfter, hentries, List.map_map]
    exact congrArg (TextSnapshot.mk · _ _ _) (List.map_id _)
  rw [of_decide_eq_true hsame, hexpected] at hafter
  rw [of_decide_eq_true hunchanged] at hnow
  exact ⟨runTextWorker_ok hafter, hnow⟩

theorem makeDraft_ok {draft : φ} (h : service.makeDraft = .ok draft) :
    ∃ file, service.source .copied = .ok file ∧ file.content = draft := by
  obtain ⟨file, hfile, h⟩ := bind_eq_ok.1 h
  obtain ⟨-, -, h⟩ := bind_eq_ok.1 h
  exact ⟨file, hfile, Except.ok.inj h⟩

theorem checkDraft_ok {before : DrawingFingerprint} {draft : φ}
    (h : service.checkDraft before draft = .ok ()) : service.look .drafted = .ok before := by
  obtain ⟨-, h⟩ := ensure_bind_eq_ok.1 h
  obtain ⟨now, hnow, h⟩ := bind_eq_ok.1 h
  rwa [of_decide_eq_true (ensure_eq_ok.1 h)] at hnow

theorem makeOutput_ok {draft output : φ} (h : service.makeOutput draft = .ok output) :
    service.copied draft = output := by
  obtain ⟨-, -, h⟩ := bind_eq_ok.1 h
  exact Except.ok.inj h

theorem checkOutput_ok {path auditFile outputDrawing : String} {before : DrawingFingerprint}
    {plan : TranslationPlan} {draft output : φ} {receipt : TranslationReceipt}
    (h : service.checkOutput path auditFile outputDrawing before plan draft output =
      .ok receipt) :
    service.cad.sha256 output = service.cad.sha256 draft ∧ service.look .released = .ok before ∧
      { planId := plan.planId
        sourceDrawing := path
        outputDrawing
        auditFile
        sourceUnchanged := true
        changedRecords := plan.changes.length
        outputSha256 := service.cad.sha256 output
        textRoundtripVerified := true
        inspectedStructureUnchanged := true } = receipt := by
  obtain ⟨hsame, h⟩ := ensure_bind_eq_ok.1 h
  obtain ⟨now, hnow, h⟩ := bind_eq_ok.1 h
  obtain ⟨hunchanged, h⟩ := ensure_bind_eq_ok.1 h
  rw [of_decide_eq_true hunchanged] at hnow
  exact ⟨of_decide_eq_true hsame, hnow, Except.ok.inj h⟩

/-- A job that fails has no receipt. -/
theorem no_receipt {P : TranslationReceipt → JobFiles φ → Prop} {e : String} {left : JobFiles φ}
    (h : left.receipt = none) :
    (∀ receipt files, ((.error e : Except String TranslationReceipt), left) = (.ok receipt, files) →
      P receipt files) ∧
    ∀ e' files, ((.error e : Except String TranslationReceipt), left) = (.error e', files) →
      files.receipt = none := by
  refine ⟨fun receipt files heq => ?_, fun e' files heq => ?_⟩
  · cases heq
  · cases heq
    exact h

theorem applyTranslation_released (service : TextService φ γ) (path expectedId : String)
    (decisions : List TranslationDecision) (approvedPlanId auditFile outputDrawing : String) :
    (∀ receipt files, service.applyTranslation path expectedId decisions approvedPlanId auditFile
        outputDrawing = (.ok receipt, files) → ∃ before snapshot plan,
      Released service path expectedId decisions approvedPlanId receipt files before snapshot
        plan) ∧
    ∀ e files, service.applyTranslation path expectedId decisions approvedPlanId auditFile
      outputDrawing = (.error e, files) → files.receipt = none := by
  unfold TextService.applyTranslation
  cases happrove : service.approve path expectedId decisions approvedPlanId with
  | error e => exact no_receipt rfl
  | ok approved =>
    obtain ⟨before, snapshot, plan⟩ := approved
    obtain ⟨hscan, hplan, hid, hready, hne⟩ := approve_ok happrove
    obtain ⟨hstarted, hplanned, file, -, hinspect⟩ := scanSource_ok hscan
    obtain ⟨document, -, hcollect⟩ := bind_eq_ok.1 hinspect
    have hids := (collectSnapshot_complete _ _ hcollect).ids
    have hchanges := (changeable_of_plan hids hplan hready).1
    dsimp only
    cases service.openJob with
    | error e => exact no_receipt rfl
    | ok _ =>
      dsimp only
      cases hmade : service.makeDraft with
      | error e => exact no_receipt rfl
      | ok copy =>
        obtain ⟨source, hsource, rfl⟩ := makeDraft_ok hmade
        dsimp only
        cases hdraft : service.checkDraft before source.content with
        | error e => exact no_receipt rfl
        | ok _ =>
          have hdrafted := checkDraft_ok hdraft
          dsimp only
          cases hworked : applyToCopy service.cad service.structures service.enabled before.sha256
              snapshot plan.changes source.content with
          | mk outcome draft =>
            dsimp only
            cases hcheck : service.checkOutcome before snapshot plan.changes outcome with
            | error e => exact no_receipt rfl
            | ok _ =>
              obtain ⟨rfl, htranslated⟩ := checkOutcome_ok hids hchanges hcheck
              obtain ⟨hsha, hcopied, hsaved, -⟩ := applyToCopy_ok hworked
              dsimp only
              cases houtput : service.makeOutput draft with
              | error e => exact no_receipt rfl
              | ok output =>
                obtain rfl := makeOutput_ok houtput
                dsimp only
                cases hcheck : service.checkOutput path auditFile outputDrawing before plan draft
                    (service.copied draft) with
                | error e => exact no_receipt rfl
                | ok receipt =>
                  dsimp only
                  cases service.writes .receipt with
                  | error e => exact no_receipt rfl
                  | ok _ =>
                    refine ⟨fun _ _ h => ?_, fun _ _ h => absurd h (by simp)⟩
                    cases h
                    obtain ⟨hsame, hlooks, hreceipt⟩ := checkOutput_ok hcheck
                    subst hreceipt
                    refine ⟨before, snapshot, plan, hplan, ⟨hid, hready, hne⟩, ?_,
                      ⟨source, hsource, hsha, hcopied⟩,
                      ⟨draft, service.copied draft, rfl, hsaved, hsame, rfl⟩, rfl, rfl⟩
                    rintro moment (rfl | rfl | rfl | rfl | rfl)
                    exacts [hstarted, hplanned, hdrafted, htranslated, hlooks]

section Example

def doorService : TextService (TextDocument Unit) Unit where
  cad := memoryCad
  structures := ⟨fun _ => "", fun _ => ""⟩
  alphabet := asciiAlphabet
  digests := someDigests
  enabled := true
  workspace := true
  source _ := .ok ⟨doorDocument, 1, 1⟩
  delivered _ := .ok ()
  writes _ := .ok ()
  copied draft := draft

def doorReceipt : TranslationReceipt :=
  ⟨"plan", "door.dwg", "door.EN.dwg", "translation-audit.json", true, 1, "copy", true, true⟩

theorem applyTranslation_released_door : ∃ files before snapshot plan,
    Released doorService "door.dwg" "inventory" [⟨"A1:TextString:0", "KAPI", .tr, "DOOR"⟩] "plan"
      doorReceipt files before snapshot plan :=
  ⟨_, (applyTranslation_released doorService "door.dwg" "inventory"
    [⟨"A1:TextString:0", "KAPI", .tr, "DOOR"⟩] "plan" "translation-audit.json"
      "door.EN.dwg").1 doorReceipt _ (by rfl)⟩

end Example

end Service

end CadPlot.TextPlan
