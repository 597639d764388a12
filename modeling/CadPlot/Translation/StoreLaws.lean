import CadPlot.Translation.Reviews
import CadPlot.Translation.StoreRuns

/-!
# What the translation store guarantees

A review changes by a submission that names the review it changes, and no
decision is lost. A write is begun once for a scope and a plan, for a plan that
is approved as it is stored, and its receipt is the answer from then on.
-/

namespace CadPlot.Translation

open Gateway

section Submissions

variable {settings : Settings} {w w' : World} {key : ScopeId × HashId} {n : Nat} {call : Call}
  {stage : Stage}

/-- The decisions of a review as they are committed. -/
def World.stored (w : World) (key : ScopeId × HashId) : Option (List RemoteDecision) :=
  w.db.committed.reviews.get key

def World.decided (w : World) (key : ScopeId × HashId) (span : String) : Option RemoteDecision :=
  (byId ((w.stored key).getD [])).get span

/-- The step commits decisions that were submitted for a review by the id that it is known by. -/
def Submits (settings : Settings) (w : World) (e : Event) (key : ScopeId × HashId)
    (decisions : List RemoteDecision) : Prop :=
  ∃ n call, (e = .proceed n ∨ e = .commitRaises n) ∧ w.calls.get n = some call ∧
    call.scope = key.1 ∧
    call.request = .review key.2 (settings.storedId key.2 (w.stored key)) decisions

/-- Every stored review is in order, and no larger than it may be. -/
def WellStored (reviews : Dict (ScopeId × HashId) (List RemoteDecision)) : Prop :=
  ∀ key current, reviews.get key = some current → Ordered current ∧ tooLarge current = false

theorem submitReview_cases {inventory : HashId} {expected : Option HashId}
    {decisions current : List RemoteDecision} {row : Option (List RemoteDecision)}
    (h : submitReview settings inventory expected decisions row = .ok current) :
    current = merge (row.getD []) decisions ∧ tooLarge current = false ∧
      (expected = settings.storedId inventory row ∨
        isRetry (row.getD []) decisions = true) := by
  unfold submitReview at h
  simp only at h
  split at h
  · cases h
  · next hmatch =>
    split at h
    · cases h
    · next hsize =>
      obtain rfl := Except.ok.inj h
      refine ⟨rfl, by simpa using hsize, ?_⟩
      by_cases hnamed : expected = settings.storedId inventory row
      · exact .inl hnamed
      · exact .inr (not_not.1 fun hnot => hmatch ⟨hnamed, hnot⟩)

/-- What a commit does to the reviews. -/
theorem commits_reviews (hi : Inv settings w) (hget : w.calls.get n = some call)
    (hstage : call.stage = some stage) (hcommits : stage.commits = true) {tables : Tables}
    (hstaged : w.db.staged n = some tables) : tables.reviews = w.db.committed.reviews ∨
      ∃ inventoryId expected decisions current,
        call.request = .review inventoryId expected decisions ∧
        submitReview settings inventoryId expected decisions
          (w.stored (call.scope, inventoryId)) = .ok current ∧
        tables.reviews = w.db.committed.reviews.set (call.scope, inventoryId) current := by
  have hknows := hi.calls n call hget
  simp only [knows_iff hstage, hstaged] at hknows
  cases hrequest : call.request with
  | scan inventoryId offset limit =>
    rw [hrequest] at hknows
    exact Bool.noConfusion (hcommits.symm.trans hknows)
  | review inventoryId expectedReviewId decisions =>
    rw [hrequest] at hknows
    cases stage with
    | reviewing current =>
      obtain ⟨htables, hcurrent⟩ := hknows
      obtain rfl := Option.some.inj htables
      exact .inr ⟨_, _, _, current, rfl, hcurrent, rfl⟩
    | _ => first | exact Bool.noConfusion (hcommits.symm.trans hknows) | cases hcommits
  | plan inventoryId reviewId offset limit =>
    rw [hrequest] at hknows
    cases stage with
    | inserted stored =>
      obtain ⟨plans, htables, _⟩ := hknows
      obtain rfl := Option.some.inj htables
      exact .inl rfl
    | _ => exact Bool.noConfusion (hcommits.symm.trans hknows)
  | apply inventoryId reviewId planId planOperationId =>
    rw [hrequest] at hknows
    cases stage with
    | leaving response =>
      obtain rfl := Option.some.inj hknows.1
      exact .inl rfl
    | claimed stored =>
      obtain rfl := Option.some.inj hknows.1
      exact .inl rfl
    | updated response =>
      obtain rfl := Option.some.inj hknows.1
      exact .inl rfl
    | _ => first | exact Bool.noConfusion (hcommits.symm.trans hknows) | cases hcommits

theorem wellStored_step {e : Event} (hi : Inv settings w) (hs : WellStored w.db.committed.reviews)
    (h : step settings w e = some w') : WellStored w'.db.committed.reviews := by
  obtain hsame | ⟨n, call, stage, _, hget, hstage, hcommits, hstaged⟩ := step_commits h
  · rw [hsame]
    exact hs
  · obtain hreviews | ⟨_, _, _, current, _, hcurrent, hreviews⟩ :=
      commits_reviews hi hget hstage hcommits hstaged
    · rw [hreviews]
      exact hs
    · obtain ⟨rfl, hsize, _⟩ := submitReview_cases hcurrent
      rw [hreviews]
      exact Dict.forall_set hs ⟨ordered_merge _ _, hsize⟩

theorem wellStored_of_reaches (hreach : Runs.Reaches (step settings) Runs.anyEvent start w) :
    WellStored w.db.committed.reviews :=
  (@Runs.invariant_of_reaches _ _ _ _ (fun w => Inv settings w ∧ WellStored w.db.committed.reviews)
    _ _ ⟨inv_start, fun _ _ h => by cases h⟩
    (fun _ _ _ h _ hstep => ⟨step_inv h.1 hstep, wellStored_step h.1 h.2 hstep⟩) hreach).2

/-- A review changes by a submission that names it. -/
theorem review_step {e : Event} (hi : Inv settings w) (hs : WellStored w.db.committed.reviews)
    (h : step settings w e = some w') (key : ScopeId × HashId) :
    w'.stored key = w.stored key ∨ ∃ decisions, Submits settings w e key decisions ∧
      w'.stored key = some (merge ((w.stored key).getD []) decisions) := by
  obtain hsame | ⟨n, call, stage, he, hget, hstage, hcommits, hstaged⟩ := step_commits h
  · exact .inl (by simp only [World.stored, hsame])
  obtain hreviews | ⟨inventoryId, expected, decisions, current, hrequest, hcurrent, hreviews⟩ :=
    commits_reviews hi hget hstage hcommits hstaged
  · exact .inl (by simp only [World.stored, hreviews])
  by_cases hkey : key = (call.scope, inventoryId)
  · subst hkey
    obtain ⟨rfl, _, hnamed | hretry⟩ := submitReview_cases hcurrent
    · refine .inr ⟨decisions, ⟨n, call, he, hget, rfl, ?_⟩, ?_⟩
      · rw [← hnamed]
        exact hrequest
      · simp [World.stored, hreviews]
    · refine .inl ?_
      have hnonempty : decisions ≠ [] := by
        rintro rfl
        have hformed := call.formed
        simp [hrequest, wellFormed] at hformed
      cases hrow : w.stored (call.scope, inventoryId) with
      | none =>
        obtain ⟨d, ds, rfl⟩ := List.exists_cons_of_ne_nil hnonempty
        simp [hrow, isRetry, byId, update] at hretry
      | some old =>
        rw [hrow] at hretry hreviews
        have hmerge : merge old decisions = old := merge_retry (hs _ _ hrow).1 hretry
        simp [World.stored, hreviews, hmerge]
  · refine .inl ?_
    simp only [World.stored, hreviews]
    exact Dict.get_set_other _ _ hkey

theorem decided_step {e : Event} (hi : Inv settings w) (hs : WellStored w.db.committed.reviews)
    (h : step settings w e = some w') {span : String} {x : RemoteDecision}
    (hx : w.decided key span = some x) : w'.decided key span = some x ∨
      ∃ decisions y, Submits settings w e key decisions ∧ y ∈ decisions ∧
        w'.decided key span = some y := by
  obtain hsame | ⟨decisions, hsubmits, hmerged⟩ := review_step hi hs h key
  · exact .inl (by simpa only [World.decided, hsame] using hx)
  · have hget : w'.decided key span =
        (decisions.reverse.find? fun d => d.spanId = span).or (w.decided key span) := by
      simp only [World.decided, hmerged, Option.getD_some, get_merge]
    cases hfind : decisions.reverse.find? fun d => d.spanId = span with
    | none =>
      rw [hfind, hx] at hget
      exact .inl hget
    | some y =>
      rw [hfind] at hget
      exact .inr ⟨decisions, y, hsubmits, List.mem_reverse.1 (List.mem_of_find?_eq_some hfind),
        hget⟩

/-- A decision is there in every later state, or one that was submitted for the review as it was
then. -/
theorem decided_run {s t : World} (hs : Runs.Reaches (step settings) Runs.anyEvent start s)
    (hst : Runs.Reaches (step settings) Runs.anyEvent s t) {span : String} {x : RemoteDecision}
    (hx : s.decided key span = some x) : ∃ y, t.decided key span = some y ∧
      (y = x ∨ ∃ u e u' decisions, Runs.Reaches (step settings) Runs.anyEvent s u ∧
        step settings u e = some u' ∧ Runs.Reaches (step settings) Runs.anyEvent u' t ∧
        Submits settings u e key decisions ∧ y ∈ decisions) := by
  induction hst with
  | refl => exact ⟨x, hx, .inl rfl⟩
  | tail hpre hany hstep ih =>
    obtain ⟨y, hy, hfrom⟩ := ih
    have hreach := hs.trans hpre
    obtain hkept | ⟨decisions, z, hsubmits, hmem, hz⟩ :=
      decided_step (inv_of_reaches hreach) (wellStored_of_reaches hreach) hstep hy
    · refine ⟨y, hkept, hfrom.imp_right ?_⟩
      rintro ⟨u, e, u', decisions, hu, hue, hut, hsubmits, hmem⟩
      exact ⟨u, e, u', decisions, hu, hue, hut.tail hany hstep, hsubmits, hmem⟩
    · exact ⟨z, hz, .inr ⟨_, _, _, decisions, hpre, hstep, .refl, hsubmits, hmem⟩⟩

/-- What comes next of a submission whose decisions are all stored already. -/
def retryNext (settings : Settings) (inventoryId : HashId) (current : List RemoteDecision) :
    Stage → Option Stage
  | .reading => some (.merging current)
  | .merging _ => some (.reviewing current)
  | .reviewing _ => some (.returned (.ok (.review inventoryId
      (settings.reviewId inventoryId current) current.length)))
  | _ => none

theorem reviewed_ok {inventoryId : HashId} {current : List RemoteDecision}
    (hlength : inventoryId.length = 71) (hsize : tooLarge current = false) :
    reviewed settings inventoryId current = .ok (.review inventoryId
      (settings.reviewId inventoryId current) current.length) := by
  have hspans : current.length ≤ maxReviewedSpans := by
    simp only [tooLarge, Bool.or_eq_false_iff, decide_eq_false_iff_not] at hsize
    omega
  have hid : (settings.reviewId inventoryId current).length = 71 := by
    simp [Settings.reviewId, Settings.digest, String.length_append, settings.sha256_length]
    rfl
  have hfits := settings.review_fits inventoryId _ current.length hlength hid hspans
  have hnot : ¬maxResponseBytes < settings.responseBytes (.review inventoryId
      (settings.reviewId inventoryId current) current.length) := by
    simp only [maxResponseBytes]
    omega
  exact if_neg hnot

theorem running_of (hget : w.calls.get n = some call) (hstage : call.stage = some stage)
    (hnot : ∀ result, stage ≠ .returned result) : w.running n = some (call, stage) := by
  unfold World.running
  simp only [hget, hstage]

/-- Every statement of an exact retry succeeds, and leaves what is committed as it is. -/
theorem retry_succeeds (hi : Inv settings w) (hs : WellStored w.db.committed.reviews)
    (hget : w.calls.get n = some call) (hstage : call.stage = some stage) {inventoryId : HashId}
    {expected : Option HashId} {decisions current : List RemoteDecision} {next : Stage}
    (hrequest : call.request = .review inventoryId expected decisions)
    (hstored : w.stored (call.scope, inventoryId) = some current)
    (hretry : isRetry current decisions = true)
    (hnext : retryNext settings inventoryId current stage = some next) :
    ∃ w', step settings w (.proceed n) = some w' ∧ w'.db.committed = w.db.committed ∧
      w'.calls.get n = some { call with stage := some next } := by
  obtain ⟨hordered, hsize⟩ := hs _ _ hstored
  have hmerge : merge current decisions = current := merge_retry hordered hretry
  have hsubmit : submitReview settings inventoryId expected decisions
      (w.stored (call.scope, inventoryId)) = .ok current := by
    simp [submitReview, hstored, hretry, hmerge, hsize]
  have hknows := hi.calls n call hget
  simp only [knows_iff hstage, hrequest] at hknows
  have hstep : ∀ w', proceed settings w n call stage = some w' →
      (∀ result, stage ≠ .returned result) → step settings w (.proceed n) = some w' := by
    intro w' hw' hnot
    simp only [step, running_of hget hstage hnot]
    exact hw'
  cases stage with
  | reading =>
    obtain rfl := Option.some.inj hnext
    have hstaged : w.db.staged n = some w.db.committed := hknows
    refine ⟨w.moved n call (.merging current), hstep _ ?_ (by simp), rfl, Dict.get_set_same ..⟩
    simp only [proceed, hrequest, proceedReview, tables_of_staged hstaged]
    change some (w.enforce n call (submitReview settings inventoryId expected decisions
      (w.stored (call.scope, inventoryId))) .merging) = _
    rw [hsubmit]
    rfl
  | merging current' =>
    obtain rfl := Option.some.inj hnext
    obtain ⟨hstaged, hcurrent⟩ := hknows
    obtain rfl : current = current' := Except.ok.inj (hsubmit.symm.trans hcurrent)
    refine ⟨w.staging n call { w.tables n with
      reviews := (w.tables n).reviews.set (call.scope, inventoryId) current } (.reviewing current),
      hstep _ ?_ (by simp), rfl, Dict.get_set_same ..⟩
    simp only [proceed, hrequest, proceedReview]
  | reviewing current' =>
    obtain rfl := Option.some.inj hnext
    obtain ⟨hstaged, hcurrent⟩ := hknows
    obtain rfl : current = current' := Except.ok.inj (hsubmit.symm.trans hcurrent)
    have hlength : inventoryId.length = 71 := by
      have hformed := call.formed
      simp only [hrequest, wellFormed, decide_eq_true_eq] at hformed
      exact hformed.1
    have hsame : w.db.committed.reviews.set (call.scope, inventoryId) current =
        w.db.committed.reviews := Dict.set_get _ hstored
    rw [hsame] at hstaged
    have hcommit : w.db.commit n = some ⟨w.db.committed, none⟩ := by
      simp only [Database.commit, hstaged]
      rfl
    refine ⟨World.moved { w with db := ⟨w.db.committed, none⟩ } n call _, hstep _ ?_ (by simp), rfl,
      Dict.get_set_same ..⟩
    simp only [proceed, hrequest, proceedReview, commit, hcommit, reviewed_ok hlength hsize]
    rfl
  | _ => cases hnext

end Submissions

section Laws

variable {settings : Settings} {w : World}

/-- Reviews are changed one at a time, by name. -/
theorem reviews_linear (hreach : Runs.Reaches (step settings) Runs.anyEvent start w) :
    (∀ e w' key, step settings w e = some w' → w'.stored key ≠ w.stored key →
      ∃ decisions, Submits settings w e key decisions ∧
        w'.stored key = some (merge ((w.stored key).getD []) decisions)) ∧
    (∀ n call stage inventoryId expected decisions current next, w.calls.get n = some call →
      call.stage = some stage → call.request = .review inventoryId expected decisions →
      w.stored (call.scope, inventoryId) = some current → isRetry current decisions = true →
      retryNext settings inventoryId current stage = some next →
        ∃ w', step settings w (.proceed n) = some w' ∧ w'.db.committed = w.db.committed ∧
          w'.calls.get n = some { call with stage := some next }) ∧
    ∀ t key span x, Runs.Reaches (step settings) Runs.anyEvent w t →
      w.decided key span = some x → ∃ y, t.decided key span = some y ∧
        (y = x ∨ ∃ u e u' decisions, Runs.Reaches (step settings) Runs.anyEvent w u ∧
          step settings u e = some u' ∧ Runs.Reaches (step settings) Runs.anyEvent u' t ∧
          Submits settings u e key decisions ∧ y ∈ decisions) := by
  have hi := inv_of_reaches hreach
  have hs := wellStored_of_reaches hreach
  refine ⟨fun e w' key hstep hchanged => ?_, ?_, fun t key span x ht hx => decided_run hreach ht hx⟩
  · exact (review_step hi hs hstep key).resolve_left hchanged
  · intro n call stage inventoryId expected decisions current next hget hstage hrequest hstored
      hretry hnext
    exact retry_succeeds hi hs hget hstage hrequest hstored hretry hnext

end Laws

/-- The digests of the two reviews that are stored below, and the length of each kind of response. -/
def entranceSettings : Settings where
  sha256 text :=
    if text.length = 163 then
      "deebc6d4950ca62147ace4610b26655e720f93d328279daf520133a9a561d2f6"
    else "98fd68e1c563b48260be1d75af97c6e844d2e0f5ac8ae5e6f320f1077d6bdefe"
  sha256_length text := by
    split <;> decide
  responseBytes
    | .plan .. => 565
    | .apply .. => 683
    | _ => 306
  review_fits _ _ _ _ _ _ := by
    change 306 ≤ 1024
    decide

def entranceInventory : HashId :=
  "sha256:b11a85b296a90afc460430434a504e7acb04b064575b7277724688af0e59d189"

def entryReview : HashId :=
  "sha256:deebc6d4950ca62147ace4610b26655e720f93d328279daf520133a9a561d2f6"

def entranceReview : HashId :=
  "sha256:98fd68e1c563b48260be1d75af97c6e844d2e0f5ac8ae5e6f320f1077d6bdefe"

def entranceScope : ScopeId := "db6b6cbaf4ef435465c8da0685fa3c56003fbb31b0b5daefa0a47a086aeb2e54"

def entranceDecision (target : String) : RemoteDecision :=
  ⟨"A:TextString:0", "GIRIS", .tr, target⟩

/-- A review, and its replacement by name up to the commit. -/
def reviewedRun : List Event :=
  [.execute 0 entranceScope (.review entranceInventory none [entranceDecision "ENTRY"]),
    .proceed 0, .proceed 0, .proceed 0, .proceed 0,
    .execute 1 entranceScope (.review entranceInventory (some entryReview)
      [entranceDecision "ENTRANCE"]),
    .proceed 1, .proceed 1, .proceed 1]

theorem reviews_linear_named : ∃ w w', step entranceSettings w (.proceed 1) = some w' ∧
    w.stored (entranceScope, entranceInventory) = some [entranceDecision "ENTRY"] ∧
    w'.stored (entranceScope, entranceInventory) = some [entranceDecision "ENTRANCE"] ∧
    ∃ decisions, Submits entranceSettings w (.proceed 1) (entranceScope, entranceInventory)
      decisions := by
  obtain ⟨w, hreach, hw⟩ := Runs.exists_reaches_of_run (step entranceSettings) Runs.anyEvent start
    reviewedRun (fun w =>
      decide (w.stored (entranceScope, entranceInventory) = some [entranceDecision "ENTRY"]) &&
        (step entranceSettings w (.proceed 1)).any fun w' =>
          w'.stored (entranceScope, entranceInventory) = some [entranceDecision "ENTRANCE"])
    (Runs.along_anyEvent _ _) (by decide +kernel)
  simp only [Bool.and_eq_true, decide_eq_true_eq, Option.any_eq_true] at hw
  obtain ⟨hbefore, w', hstep, hafter⟩ := hw
  have hchanged : w'.stored (entranceScope, entranceInventory) ≠
      w.stored (entranceScope, entranceInventory) := by
    rw [hbefore, hafter]
    decide
  obtain ⟨decisions, hsubmits, _⟩ := (reviews_linear hreach).1 _ w' _ hstep hchanged
  exact ⟨w, w', hstep, hbefore, hafter, decisions, hsubmits⟩

section Writes

variable {settings : Settings} {w : World}

theorem receipt_kept {w w' : World} {e : Event} (hi : Inv settings w)
    (h : step settings w e = some w') {key : ScopeId × HashId} {receipt : TranslationResponse}
    (hreceipt : w.db.committed.writes.get key = some (some receipt)) :
    w'.db.committed.writes.get key = some (some receipt) := by
  obtain hsame | ⟨n, call, stage, _, hget, hstage, hcommits, hstaged⟩ := step_commits h
  · rw [hsame]
    exact hreceipt
  · obtain hkept | ⟨_, hnone | howns⟩ :=
      (commits_keep hi hget hstage hcommits hstaged).2 key
    · rw [hkept]
      exact hreceipt
    · rw [hreceipt] at hnone
      cases hnone
    · have hclaim := claim_of_owns (hi.calls n call hget) howns
      rw [hreceipt] at hclaim
      cases hclaim

theorem receipt_forever {t : World} (hw : Runs.Reaches (step settings) Runs.anyEvent start w)
    (ht : Runs.Reaches (step settings) Runs.anyEvent w t) {key : ScopeId × HashId}
    {receipt : TranslationResponse}
    (hreceipt : w.db.committed.writes.get key = some (some receipt)) :
    t.db.committed.writes.get key = some (some receipt) := by
  induction ht with
  | refl => exact hreceipt
  | tail hpre _ hstep ih => exact receipt_kept (inv_of_reaches (hw.trans hpre)) hstep ih

/-- A step that begins a write does so for a request whose plan is approved as it is stored. -/
theorem invocation_step {w' : World} {e : Event} (hi : Inv settings w)
    (h : step settings w e = some w') (hnew : w'.invocations ≠ w.invocations) :
    ∃ n call inventoryId reviewId planId planOperationId stored, e = .proceed n ∧
      w.calls.get n = some call ∧
      call.request = .apply inventoryId reviewId planId planOperationId ∧
      Approved w.db.committed call.scope inventoryId reviewId planId stored ∧
      w'.invocations = (call.scope, planId) :: w.invocations := by
  cases step_effect h with
  | none _ hsame => exact absurd hsame hnew
  | commits _ _ _ _ _ _ _ _ hsame => exact absurd hsame hnew
  | writes n call stored inventoryId reviewId planId planOperationId he hget hstage hrequest _
      hinvocations =>
    have hknows := hi.calls n call hget
    simp only [knows_iff hstage, hrequest] at hknows
    exact ⟨n, call, _, _, planId, _, stored, he, hget, hrequest, hknows.1, hinvocations⟩

/-- Where a request that finds a claim comes to. -/
def answered (w : World) (n : Nat) (call : Call) : Option TranslationResponse → World
  | none => w.raised n call (.attentionRequired "translation_write_outcome_unknown")
  | some response => w.moved n call (.leaving response)

theorem claimed_answer {n : Nat} {call : Call} {stored : StoredPlan}
    {inventoryId reviewId planId : HashId} {planOperationId : OperationId}
    {receipt : Option TranslationResponse} (hi : Inv settings w) (hget : w.calls.get n = some call)
    (hstage : call.stage = some (.checking stored))
    (hrequest : call.request = .apply inventoryId reviewId planId planOperationId)
    (hclaim : w.db.committed.writes.get (call.scope, planId) = some receipt) :
    step settings w (.proceed n) = some (answered w n call receipt) := by
  have hknows := hi.calls n call hget
  simp only [knows_iff hstage, hrequest] at hknows
  obtain ⟨hstaged, _⟩ := hknows
  simp only [step, running_of hget hstage (by simp), Option.bind_some, proceed, hrequest,
    proceedApply, tables_of_staged hstaged, hclaim]
  cases receipt <;> rfl

/-- A write is begun once, when its plan is approved, and answered by its receipt. -/
theorem writes_once (hreach : Runs.Reaches (step settings) Runs.anyEvent start w) :
    w.invocations.Nodup ∧
    (∀ e w', step settings w e = some w' → w'.invocations ≠ w.invocations →
      ∃ n call inventoryId reviewId planId planOperationId stored, e = .proceed n ∧
        w.calls.get n = some call ∧
        call.request = .apply inventoryId reviewId planId planOperationId ∧
        Approved w.db.committed call.scope inventoryId reviewId planId stored ∧
        w'.invocations = (call.scope, planId) :: w.invocations) ∧
    (∀ n call inventoryId reviewId planId planOperationId response, w.calls.get n = some call →
      call.request = .apply inventoryId reviewId planId planOperationId →
      call.stage = some (.returned (.ok response)) →
        w.db.committed.writes.get (call.scope, planId) = some (some response)) ∧
    (∀ t key receipt, Runs.Reaches (step settings) Runs.anyEvent w t →
      w.db.committed.writes.get key = some (some receipt) →
        t.db.committed.writes.get key = some (some receipt)) ∧
    ∀ n call stored inventoryId reviewId planId planOperationId, w.calls.get n = some call →
      call.stage = some (.checking stored) →
      call.request = .apply inventoryId reviewId planId planOperationId →
      (call.scope, planId) ∈ w.invocations →
        ∃ receipt, w.db.committed.writes.get (call.scope, planId) = some receipt ∧
          step settings w (.proceed n) = some (answered w n call receipt) := by
  have hi := inv_of_reaches hreach
  refine ⟨hi.once, fun e w' hstep hnew => invocation_step hi hstep hnew, ?_,
    fun t key receipt ht hreceipt => receipt_forever hreach ht hreceipt, ?_⟩
  · intro n call inventoryId reviewId planId planOperationId response hget hrequest hstage
    have hknows := hi.calls n call hget
    simp only [knows_iff hstage, hrequest] at hknows
    exact hknows
  · intro n call stored inventoryId reviewId planId planOperationId hget hstage hrequest hbegun
    obtain ⟨receipt, hclaim⟩ := Option.ne_none_iff_exists'.1 (hi.begun _ hbegun)
    exact ⟨receipt, hclaim, claimed_answer hi hget hstage hrequest hclaim⟩

end Writes

def entrancePlan : TranslationPlan where
  planId := "sha256:05c9e2d5cfe75b0dccf66e1879e1d380a59a1dbbc42ae116c166d93ccb6e6202"
  inventoryId := entranceInventory
  ready := true
  reviewedSpans := 1
  changes := [⟨"A:TextString", "GIRIS", "ENTRANCE"⟩]
  blockers := []

def entranceReceipt : TranslationReceipt where
  planId := entrancePlan.planId
  outputFolder := "translation-00000000000000000000000000000000"
  outputSha256 := "0000000000000000000000000000000000000000000000000000000000000000"
  changedRecords := 1
  sourceUnchanged := true
  textRoundtripVerified := true
  inspectedStructureUnchanged := true

def applyRequest : TranslationRequest :=
  .apply entranceInventory entranceReview entrancePlan.planId
    "op_00000000-0000-4000-8000-000000000001"

/-- The replaced review is planned and written, and the request is then repeated. -/
def appliedRun : List Event :=
  reviewedRun ++ [.proceed 1,
    .execute 2 entranceScope (.plan entranceInventory entranceReview 0 25), .proceed 2,
    .prepared 2 (.ok entrancePlan), .proceed 2, .proceed 2,
    .execute 3 entranceScope applyRequest, .proceed 3, .proceed 3, .proceed 3, .proceed 3,
    .proceed 3, .proceed 3, .translated 3 (some entranceReceipt), .proceed 3, .proceed 3,
    .execute 4 entranceScope applyRequest, .proceed 4, .proceed 4, .proceed 4, .proceed 4]

/-- The answer of a repeated request. -/
def repeatedAnswer (w : World) : Option TranslationResponse :=
  match w.calls.get 4 with
  | some ⟨_, _, _, some (.returned (.ok response))⟩ => some response
  | _ => none

theorem writes_once_repeated : ∃ w response,
    w.invocations = [(entranceScope, entrancePlan.planId)] ∧ repeatedAnswer w = some response ∧
    w.db.committed.writes.get (entranceScope, entrancePlan.planId) = some (some response) := by
  obtain ⟨w, hreach, hw⟩ := Runs.exists_reaches_of_run (step entranceSettings) Runs.anyEvent start
    appliedRun (fun w => decide (w.invocations = [(entranceScope, entrancePlan.planId)]) &&
      (repeatedAnswer w).isSome && (w.calls.get 4).any fun call =>
        decide (call.scope = entranceScope ∧ call.request = applyRequest))
    (Runs.along_anyEvent _ _) (by decide +kernel)
  simp only [Bool.and_eq_true, decide_eq_true_eq, Option.any_eq_true,
    Option.isSome_iff_exists] at hw
  obtain ⟨⟨honce, response, hresponse⟩, call, hget, hscope, hrequest⟩ := hw
  refine ⟨w, response, honce, hresponse, ?_⟩
  have hstage : call.stage = some (.returned (.ok response)) := by
    unfold repeatedAnswer at hresponse
    rw [hget] at hresponse
    split at hresponse
    · next heq =>
      obtain rfl := Option.some.inj heq
      rw [Option.some.inj hresponse]
    · cases hresponse
  have hreceipt := (writes_once hreach).2.2.1 4 call _ _ _ _ response hget hrequest hstage
  rw [hscope] at hreceipt
  exact hreceipt

end CadPlot.Translation
