import CadPlot.Publish.QueueRecords
import CadPlot.Publish.QueueSafety

/-!
# The journal and the queue agree

As long as every record is there when it is reported, and only then, a recovery
would find what is in memory. A start that fails without its record is the
exception: the job has failed in memory and is pending in its directory. And a
recovery goes through as long as what was recorded can be read back.
-/

namespace CadPlot.Publish.Queue

section Writes

variable {κ : Type} [DecidableEq κ] {host : Host κ} {queue : PublishJobQueue} {disk : Disk κ}
  {files : JobFiles} {r : PublishJobRequest}

/-- A write that raises leaves no record. -/
def Writing.clean : Writing → Bool
  | .done => true
  | .fileException moved | .exception moved => !moved

theorem writeAtomicCreate_clean {writing : Writing} (hclean : writing.clean = true)
    {before after : JobFiles} {there missing : String}
    (h : (writeAtomicCreate writing before after there missing).1 ≠ .ok ()) :
    (writeAtomicCreate writing before after there missing).2 = before := by
  cases writing with
  | done => exact absurd rfl h
  | fileException moved => cases moved with
    | false => rfl
    | true => cases hclean
  | exception moved => cases moved with
    | false => rfl
    | true => cases hclean

theorem recordPending_clean {writing : Writing} (hclean : writing.clean = true)
    (h : (recordPending writing files r).1 ≠ .ok ()) :
    (recordPending writing files r).2 = files := by
  unfold recordPending at h ⊢
  split at h
  · next hreceipt => rw [if_pos hreceipt]
  · next hreceipt =>
    split at h
    · next hsome => rw [if_neg hreceipt, if_pos hsome]
    · next hnone =>
      rw [if_neg hreceipt, if_neg hnone]
      exact writeAtomicCreate_clean hclean h

theorem recordCancelled_clean {reading existingReading : Reading} {writing : Writing}
    (hclean : writing.clean = true)
    (h : (recordCancelled host reading existingReading writing files r).1 ≠ .ok ()) :
    (recordCancelled host reading existingReading writing files r).2 = files := by
  unfold recordCancelled at h ⊢
  split
  · rfl
  · next hcheck =>
    rw [hcheck] at h
    dsimp only at h
    split at h
    · next hleft => rw [if_pos hleft]
    · next hleft =>
      rw [if_neg hleft]
      split at h
      · rfl
      · exact writeAtomicCreate_clean hclean h

theorem tryEnqueue_clean {writing : Writing} (hclean : writing.clean = true)
    (h : (tryEnqueue host writing queue disk r).1 ≠ .ok ()) :
    (tryEnqueue host writing queue disk r).2.2.files = disk.files := by
  unfold tryEnqueue at h ⊢
  split
  · rfl
  · next hroom =>
    split
    · rfl
    · next hnew =>
      rw [if_neg hroom, if_neg hnew] at h
      split
      · next stop disk' hrecord =>
        obtain ⟨hstop, rfl⟩ := Prod.mk.inj hrecord
        rw [files_set, recordPending_clean hclean (by simp [hstop]),
          Function.update_eq_self]
      · next hrecord =>
        rw [hrecord] at h
        exact absurd rfl h

theorem tryCancelPending_clean {reading existingReading : Reading} {writing : Writing}
    {planId manifestSha256 : Option String} (hclean : writing.clean = true)
    (h : (tryCancelPending host reading existingReading writing queue disk planId
      manifestSha256).1 ≠ .ok ()) :
    (tryCancelPending host reading existingReading writing queue disk planId
      manifestSha256).2.2.files = disk.files := by
  unfold tryCancelPending at h ⊢
  split
  · next hsnapshot hhash =>
    rw [hsnapshot, hhash] at h
    dsimp only at h
    split
    · rfl
    · next hmatch =>
      rw [if_neg hmatch] at h
      split
      · rfl
      · next hcancelled =>
        rw [if_neg hcancelled] at h
        split
        · rfl
        · next hpending =>
          rw [if_neg hpending] at h
          split
          · rfl
          · next hfind =>
            rw [hfind] at h
            dsimp only at h
            split
            · next stop disk' hrecord =>
              obtain ⟨hstop, rfl⟩ := Prod.mk.inj hrecord
              rw [files_set, recordCancelled_clean hclean (by simp [hstop]),
                Function.update_eq_self]
            · next hrecord =>
              rw [hrecord] at h
              exact absurd rfl h
  · rfl

/-- The started record is there exactly when the start is over, with or without success. -/
def startsTogether : Reading → Writing → Bool
  | .exception, _ => true
  | .intact, .done | .intact, .fileException true | .intact, .exception false => true
  | _, _ => false

omit [DecidableEq κ] in
theorem sameRequest_refl (r : PublishJobRequest) : sameRequest host r r = true := by
  simp [sameRequest, host.samePath_refl]

theorem recordStarted_together {reading : Reading} {writing : Writing}
    (h : startsTogether reading writing = true) (hrequest : files.request = some r)
    (hcancelled : files.cancelled = none) (hreceipt : files.receipt = none)
    (hstarted : files.started = none) :
    ((recordStarted host reading writing files r).1 = .error .raised ∧
        (recordStarted host reading writing files r).2 = files) ∨
      ((recordStarted host reading writing files r).1 ≠ .error .raised ∧
        (recordStarted host reading writing files r).2 =
          { files with started := some (marker r) }) := by
  have hintact : checkRequest host .intact "queue_state_write_failed" files r = .ok () := by
    simp [checkRequest, hrequest, sameRequest_refl]
  have hraised : checkRequest host .exception "queue_state_write_failed" files r =
      .error .raised := by
    simp [checkRequest, hrequest]
  unfold recordStarted
  rw [if_neg (by simp [hstarted])]
  cases reading with
  | exception =>
    rw [hraised]
    exact .inl ⟨rfl, rfl⟩
  | intact =>
    rw [hintact]
    dsimp only
    rw [if_neg (by simp [hcancelled]), if_neg (by simp [hreceipt]), if_neg (by simp [hstarted])]
    cases writing with
    | done => exact .inr ⟨by simp [writeAtomicCreate], rfl⟩
    | fileException moved => cases moved with
      | true => exact .inr ⟨by simp [writeAtomicCreate], rfl⟩
      | false => cases h
    | exception moved => cases moved with
      | true => cases h
      | false => exact .inl ⟨rfl, rfl⟩
  | invalidData => cases h
  | unauthenticated => cases h
  | fileException => cases h

/-- The state that a job comes to by how its execution ends. -/
def PublishExecutionResult.state (execution : PublishExecutionResult) : PublishJobState :=
  if execution.succeeded then .succeeded else .failed

theorem writeReceipt_state {turn : ReceiptTurn} {execution : PublishExecutionResult}
    (hclean : execution.succeeded = true → turn.writing.clean = true)
    (hcancelled : files.cancelled = none) (hreceipt : files.receipt = none)
    (hstarted : files.started.isSome = true) (r' : PublishJobRequest) :
    ((writeReceipt turn files r execution).2.snapshot r').state =
      ((writeReceipt turn files r execution).1.elim execution fun error =>
        .failure (some error)).state := by
  obtain ⟨request, started, cancelled, receipt⟩ := files
  dsimp only at hcancelled hreceipt hstarted
  subst hcancelled hreceipt
  obtain ⟨started, rfl⟩ := Option.isSome_iff_exists.1 hstarted
  unfold writeReceipt
  dsimp only
  split
  · rfl
  · rfl
  · split
    · rfl
    · rw [if_neg (by simp)]
      have hended : (if (if execution.succeeded then "succeeded" else "failed") = "succeeded"
          then PublishJobState.succeeded else .failed) = execution.state := by
        rw [PublishExecutionResult.state]
        cases execution.succeeded
        · rfl
        · rfl
      have hfails (hfailed : execution.succeeded = false) : execution.state = .failed := by
        rw [PublishExecutionResult.state, hfailed]
        rfl
      split
      · exact hended
      · next moved hwriting =>
        rw [hwriting] at hclean
        cases moved with
        | false => rfl
        | true =>
          have hfailed : execution.succeeded = false := by
            simpa [Writing.clean] using hclean
          exact hended.trans (hfails hfailed)
      · next moved hwriting =>
        rw [hwriting] at hclean
        cases moved with
        | false => rfl
        | true =>
          have hfailed : execution.succeeded = false := by
            simpa [Writing.clean] using hclean
          exact hended.trans (hfails hfailed)

/-- A receipt may be there behind the write. -/
def ReceiptTurn.leaves (turn : ReceiptTurn) : Bool :=
  turn.validation.isNone && match turn.writing with
    | .done => true
    | .fileException moved | .exception moved => moved

/-- The receipt of an execution has a digest for its outputs, or a code for its error. -/
def ReceiptTurn.readable (turn : ReceiptTurn) (execution : PublishExecutionResult) : Bool :=
  if execution.succeeded then turn.outputs.toOption.all fun computed => isSafeSha256 computed.2
  else execution.error.elim false isSafeError

/-- The receipt that the writer makes of the outputs it found is one that is read back. -/
theorem validReceipt_of_readable {turn : ReceiptTurn} {execution : PublishExecutionResult}
    {found : Option (Int × String)} (hreadable : turn.readable execution = true)
    (hfound : (if execution.succeeded then turn.outputs.map some else .ok none) = .ok found)
    (hcount : ¬(found.any fun computed => computed.1 ≠ r.sheetCount) = true) :
    ValidReceipt r
      { planId := r.planId
        manifestSha256 := r.manifestSha256
        state := if execution.succeeded then "succeeded" else "failed"
        error := if execution.succeeded then none else execution.error
        outputCount := (found.map Prod.fst).getD 0
        outputsSha256 := found.map Prod.snd } := by
  obtain ⟨succeeded, error⟩ := execution
  cases succeeded with
  | true =>
    obtain ⟨⟨count, digest⟩, houtputs, rfl⟩ := map_eq_ok.1 hfound
    obtain rfl : count = r.sheetCount := by simpa using hcount
    refine .succeeded ?_
    simpa [ReceiptTurn.readable, houtputs, Except.toOption] using hreadable
  | false =>
    obtain rfl := Except.ok.inj hfound
    cases error with
    | none => cases hreadable
    | some error => exact .failed hreadable

theorem writeReceipt_valid {turn : ReceiptTurn} {execution : PublishExecutionResult}
    (hreadable : turn.leaves = true → turn.readable execution = true) :
    (writeReceipt turn files r execution).2 = files ∨ ∃ receipt, ValidReceipt r receipt ∧
      (writeReceipt turn files r execution).2 = { files with receipt := some receipt } := by
  unfold writeReceipt
  dsimp only
  split
  · exact .inl rfl
  · exact .inl rfl
  · next hvalidation hfound =>
    split
    · exact .inl rfl
    · next hcount =>
      split
      · exact .inl rfl
      · have hvalid (hleaves : turn.leaves = true) :=
          validReceipt_of_readable (hreadable hleaves) hfound hcount
        split
        · next hwriting =>
          exact .inr ⟨_, hvalid (by simp [ReceiptTurn.leaves, hvalidation, hwriting]), rfl⟩
        · next moved hwriting =>
          cases moved with
          | false => exact .inl rfl
          | true =>
            exact .inr ⟨_, hvalid (by simp [ReceiptTurn.leaves, hvalidation, hwriting]), rfl⟩
        · next moved hwriting =>
          cases moved with
          | false => exact .inl rfl
          | true =>
            exact .inr ⟨_, hvalid (by simp [ReceiptTurn.leaves, hvalidation, hwriting]), rfl⟩

end Writes

section Agreement

variable {κ : Type} [DecidableEq κ] {host : Host κ} {serializer : Serializer} {seals : κ → Seals}
  {w w' : World κ} {e : Event κ}

/-- A request that passes the validator, and whose record is not too long. -/
def Fits (host : Host κ) (serializer : Serializer) (seals : κ → Seals)
    (r : PublishJobRequest) : Prop :=
  Validated r ∧ recordBytes serializer
    (requestFields (seals (host.jobRoot r.manifestPath)).request r) ≤ maxRecordBytes

instance (r : PublishJobRequest) : Decidable (Fits host serializer seals r) :=
  decidable_of_iff
    ((isPlanId r.planId = true ∧ (1 ≤ r.sheetCount ∧ r.sheetCount ≤ 5000) ∧
      isSafeSha256 r.manifestSha256 = true) ∧ recordBytes serializer
        (requestFields (seals (host.jobRoot r.manifestPath)).request r) ≤ maxRecordBytes)
    ⟨fun h => ⟨⟨h.1.1, h.1.2.1, h.1.2.2⟩, h.2⟩,
      fun h => ⟨⟨h.1.planId, h.1.sheetCount, h.1.manifestSha256⟩, h.2⟩⟩

/-- A workspace that a recovery can read, by the records in its directories. -/
structure Disk.Readable (host : Host κ) (serializer : Serializer) (seals : κ → Seals)
    (disk : Disk κ) : Prop where
  unique : Unique disk
  sound : ∀ root, Sound host root (disk.files root)
  fits : ∀ root r, (disk.files root).request = some r → Fits host serializer seals r

/-- Where the job of the worker is on the disk. -/
def Worker.Placed (host : Host κ) (disk : Disk κ) (hasReceiptWriter : Bool) : Worker → Prop
  | .idle => True
  | .started r | .executing r | .executed r _ =>
    let files := disk.files (host.jobRoot r.manifestPath)
    files.request = some r ∧ files.cancelled = none ∧ files.started.isSome ∧ files.receipt = none
  | .recorded r execution =>
    let files := disk.files (host.jobRoot r.manifestPath)
    files.request = some r ∧ files.started.isSome ∧
      (hasReceiptWriter = true ∨ execution.succeeded = false →
        (files.snapshot r).state = execution.state)

/-- The directories and the memory of a process tell the same, but for the job that runs. -/
structure Session.Synced (host : Host κ) (disk : Disk κ) (s : Session) : Prop where
  pending : ∀ r ∈ s.queue.pending,
    (disk.files (host.jobRoot r.manifestPath)).request = some r
  known : ∀ root r, (disk.files root).request = some r → ∃ state,
    stateOf s.queue.states r.planId = some state ∧
      (state ≠ .running → ((disk.files root).snapshot r).state = state)
  placed : ∀ p state, stateOf s.queue.states p = some state → ∃ root r,
    (disk.files root).request = some r ∧ r.planId = p
  worker : s.worker.Placed host disk s.hasReceiptWriter

structure World.Synced (host : Host κ) (serializer : Serializer) (seals : κ → Seals)
    (w : World κ) : Prop where
  consistent : w.Consistent
  readable : w.disk.Readable host serializer seals
  session : ∀ s, w.session = some s → s.Synced host w.disk

/-- Each step finds the records as they were left and reports a record exactly when it is there.
What is recorded can be read back, and a success is not left without its receipt. -/
def Reported (host : Host κ) (serializer : Serializer) (seals : κ → Seals) (w : World κ) :
    Event κ → Prop
  | .restart _ _ found => Enumerates w.disk found
  | .enqueue r writing => writing.clean = true ∧ Fits host serializer seals r
  | .cancel _ _ _ _ writing => writing.clean = true
  | .startNext reading writing =>
    startsTogether reading writing = true ∨ w.session.all fun s => s.queue.pending.isEmpty
  | .receipt turn =>
    (turn.writing.clean = true ∨ w.session.all fun s => match s.worker with
      | .executed _ execution => !execution.succeeded
      | _ => true) ∧
    (turn.leaves = true → w.session.all fun s => !s.hasReceiptWriter || match s.worker with
      | .executed _ execution => turn.readable execution
      | _ => true)
  | .complete => w.session.all fun s => s.hasReceiptWriter || match s.worker with
      | .recorded _ execution => !execution.succeeded
      | _ => true
  | _ => True

instance (w : World κ) (e : Event κ) : Decidable (Reported host serializer seals w e) := by
  cases e with
  | restart _ _ found => exact instDecidableEnumerates w.disk found
  | enqueue => exact @instDecidableAnd _ _ (instDecidableEqBool _ true) (instDecidableFits _)
  | cancel _ _ _ _ writing => exact instDecidableEqBool writing.clean true
  | startNext =>
    exact @instDecidableOr _ _ (instDecidableEqBool _ true) (instDecidableEqBool _ true)
  | receipt =>
    exact @instDecidableAnd _ _
      (@instDecidableOr _ _ (instDecidableEqBool _ true) (instDecidableEqBool _ true))
      (@instDecidableForall _ _ (instDecidableEqBool _ true) (instDecidableEqBool _ true))
  | complete => exact instDecidableEqBool _ true
  | _ => exact isTrue trivial

/-- The directory of the worker's job stays as it is. -/
theorem Worker.Placed.of_files {disk disk' : Disk κ} {worker : Worker} {hasReceiptWriter : Bool}
    (h : worker.Placed host disk hasReceiptWriter)
    (hfiles : ∀ r, worker.request? = some r →
      disk'.files (host.jobRoot r.manifestPath) = disk.files (host.jobRoot r.manifestPath)) :
    worker.Placed host disk' hasReceiptWriter := by
  cases worker with
  | idle => trivial
  | started r => simpa only [Worker.Placed, hfiles r rfl] using h
  | executing r => simpa only [Worker.Placed, hfiles r rfl] using h
  | executed r _ => simpa only [Worker.Placed, hfiles r rfl] using h
  | recorded r _ => simpa only [Worker.Placed, hfiles r rfl] using h

theorem Worker.Placed.request {disk : Disk κ} {worker : Worker} {hasReceiptWriter : Bool}
    (h : worker.Placed host disk hasReceiptWriter) {r : PublishJobRequest}
    (hr : worker.request? = some r) :
    (disk.files (host.jobRoot r.manifestPath)).request = some r := by
  cases worker with
  | idle => cases hr
  | started => exact Option.some.inj hr ▸ h.1
  | executing => exact Option.some.inj hr ▸ h.1
  | executed => exact Option.some.inj hr ▸ h.1
  | recorded => exact Option.some.inj hr ▸ h.1

theorem Worker.Placed.started {disk : Disk κ} {worker : Worker} {hasReceiptWriter : Bool}
    (h : worker.Placed host disk hasReceiptWriter) {r : PublishJobRequest}
    (hr : worker.request? = some r) :
    (disk.files (host.jobRoot r.manifestPath)).started.isSome := by
  cases worker with
  | idle => cases hr
  | started => exact Option.some.inj hr ▸ h.2.2.1
  | executing => exact Option.some.inj hr ▸ h.2.2.1
  | executed => exact Option.some.inj hr ▸ h.2.2.1
  | recorded => exact Option.some.inj hr ▸ h.2.1

theorem Session.Synced.of_files {disk disk' : Disk κ} {s : Session} (h : s.Synced host disk)
    (hfiles : disk'.files = disk.files) : s.Synced host disk' := by
  refine ⟨?_, ?_, ?_, ?_⟩
  · rw [hfiles]
    exact h.pending
  · rw [hfiles]
    exact h.known
  · rw [hfiles]
    exact h.placed
  · exact h.worker.of_files fun r _ => by rw [hfiles]

theorem Disk.Readable.of_files {disk disk' : Disk κ} (h : disk.Readable host serializer seals)
    (hfiles : disk'.files = disk.files) : disk'.Readable host serializer seals := by
  refine ⟨?_, ?_, ?_⟩
  · rw [Unique, hfiles]
    exact h.unique
  · rw [hfiles]
    exact h.sound
  · rw [hfiles]
    exact h.fits

/-- A directory changes and keeps its request, which is in no other directory. -/
theorem Disk.Readable.update {disk disk' : Disk κ} (h : disk.Readable host serializer seals)
    {root : κ} {files' : JobFiles}
    (hfiles : disk'.files = Function.update disk.files root files')
    (hrequest : files'.request = (disk.files root).request) (hsound : Sound host root files') :
    disk'.Readable host serializer seals := by
  have hsame (root' : κ) : (disk'.files root').request = (disk.files root').request := by
    rw [hfiles, Function.update_apply]
    split
    · next heq => rw [hrequest, heq]
    · rfl
  refine ⟨fun root₁ root₂ r₁ r₂ h₁ h₂ hplan => ?_, fun root' => ?_, fun root' r' hr' => ?_⟩
  · rw [hsame] at h₁ h₂
    exact h.unique root₁ root₂ r₁ r₂ h₁ h₂ hplan
  · rw [hfiles, Function.update_apply]
    split
    · next heq => exact heq ▸ hsound
    · exact h.sound root'
  · rw [hsame] at hr'
    exact h.fits root' r' hr'

/-- A process goes on behind a step: the directory of one plan changes, and its state. -/
theorem Session.Synced.move {disk disk' : Disk κ} {s s' : Session} (h : s.Synced host disk)
    (hunique : Unique disk) {root : κ} {r : PublishJobRequest} {files' : JobFiles}
    {state : PublishJobState} (hrequest : (disk.files root).request = some r)
    (hrequest' : files'.request = some r)
    (hfiles : disk'.files = Function.update disk.files root files')
    (hstates : stateOf s'.queue.states =
      Function.update (stateOf s.queue.states) r.planId (some state))
    (hpending : s'.queue.pending ⊆ s.queue.pending)
    (hstate : state ≠ .running → (files'.snapshot r).state = state)
    (hworker : s'.worker.Placed host disk' s'.hasReceiptWriter) : s'.Synced host disk' := by
  have hsame (root' : κ) : (disk'.files root').request = (disk.files root').request := by
    rw [hfiles, Function.update_apply]
    split
    · next heq => rw [hrequest', heq, hrequest]
    · rfl
  refine ⟨fun r' hr' => ?_, fun root' r' hr' => ?_, fun p state' hp => ?_, hworker⟩
  · rw [hsame]
    exact h.pending r' (hpending hr')
  · rw [hsame] at hr'
    by_cases hroot : root' = root
    · subst hroot
      obtain rfl := Option.some.inj (hrequest.symm.trans hr')
      refine ⟨state, ?_, ?_⟩
      · rw [hstates, Function.update_self]
      · rw [hfiles, Function.update_self]
        exact hstate
    · have hne : r'.planId ≠ r.planId := fun heq =>
        hroot (hunique root' root r' r hr' hrequest heq)
      obtain ⟨state', hstate', hsnapshot⟩ := h.known root' r' hr'
      refine ⟨state', ?_, ?_⟩
      · rw [hstates, Function.update_of_ne hne]
        exact hstate'
      · rw [hfiles, Function.update_of_ne hroot]
        exact hsnapshot
  · rw [hstates, Function.update_apply] at hp
    split at hp
    · next heq => exact ⟨root, r, by rw [hsame, hrequest], heq.symm⟩
    · obtain ⟨root', r', hr', hplan⟩ := h.placed p state' hp
      exact ⟨root', r', by rw [hsame, hr'], hplan⟩

theorem newQueue_synced {capacity : Int} {hasReceiptWriter : Bool} {disk : Disk κ}
    {found : List (κ × JobReadings)} (hfound : Enumerates disk found) {queue : PublishJobQueue}
    (hqueue : newQueue host capacity disk found = .ok queue) :
    (Session.mk queue .idle hasReceiptWriter).Synced host disk := by
  obtain ⟨recovery, hrecovers, _, _, hpending, hstates, _⟩ := newQueue_ok hqueue
  refine ⟨fun r hr => ?_, fun root r hr => ?_, fun p state hp => ?_, trivial⟩
  · rw [hpending, hrecovers.pending] at hr
    obtain ⟨root, hroot, hr⟩ := List.mem_filterMap.1 hr
    obtain ⟨hrequest, _⟩ := Option.filter_eq_some_iff.1 hr
    rw [(hrecovers.found root hroot r hrequest).1]
    exact hrequest
  · refine ⟨_, ?_, fun _ => rfl⟩
    rw [hstates]
    exact hrecovers.stateOf hfound hr
  · rw [hstates] at hp
    obtain ⟨snapshot, hget, _⟩ := Option.map_eq_some_iff.1 hp
    obtain ⟨root, _, r, hr, hplan, _⟩ := hrecovers.states p snapshot hget
    exact ⟨root, r, hr, hplan⟩

/-- A plan that is pending in memory is in its directory without a later record. -/
theorem Session.Synced.unmarked {disk : Disk κ} {s : Session} (h : s.Synced host disk)
    {r : PublishJobRequest} (hstate : stateOf s.queue.states r.planId = some .pending)
    {root : κ} (hrequest : (disk.files root).request = some r) :
    (disk.files root).cancelled = none ∧ (disk.files root).receipt = none ∧
      (disk.files root).started = none := by
  obtain ⟨state, hknown, hsnapshot⟩ := h.known root r hrequest
  obtain rfl := Option.some.inj (hstate.symm.trans hknown)
  exact snapshot_pending.1 (hsnapshot (by simp))

omit [DecidableEq κ] in
theorem queued_sound {r : PublishJobRequest} :
    Sound host (host.jobRoot r.manifestPath) { JobFiles.empty with request := some r } where
  unmarked h := by cases h
  root r' hr' := by rw [Option.some.inj hr']
  started r' m _ h := by cases h
  cancelled r' m _ h := by cases h
  receipt r' receipt _ h := by cases h

theorem enqueued_synced (h : w.Synced host serializer seals) {s : Session}
    (hs : w.session = some s) {r : PublishJobRequest} {writing : Writing}
    (hclean : writing.clean = true) (hfits : Fits host serializer seals r)
    {out : Except Stop Unit × PublishJobQueue × Disk κ}
    (hout : tryEnqueue host writing s.queue w.disk r = out) :
    out.2.2.Readable host serializer seals ∧
      (Session.mk out.2.1 s.worker s.hasReceiptWriter).Synced host out.2.2 := by
  have hsession := h.session s hs
  cases hout ▸ tryEnqueue_enqueued writing s.queue w.disk r with
  | refused stop disk' _ =>
    have hfiles := @tryEnqueue_clean _ _ host s.queue w.disk r writing hclean (by simp [hout])
    rw [hout] at hfiles
    exact ⟨h.readable.of_files hfiles, hsession.of_files hfiles⟩
  | queued _ hnew hempty =>
    have hnone : stateOf s.queue.states r.planId = none := by simp [stateOf, hnew]
    have hother {root : κ} {r' : PublishJobRequest}
        (hr' : (w.disk.files root).request = some r') :
        root ≠ host.jobRoot r.manifestPath ∧ r'.planId ≠ r.planId := by
      refine ⟨?_, fun heq => ?_⟩
      · rintro rfl
        rw [hempty] at hr'
        cases hr'
      · obtain ⟨state, hstate, _⟩ := hsession.known root r' hr'
        rw [heq, hnone] at hstate
        cases hstate
    have hfiles : Disk.files (w.disk.set (host.jobRoot r.manifestPath)
        { JobFiles.empty with request := some r }) = Function.update w.disk.files
          (host.jobRoot r.manifestPath) { JobFiles.empty with request := some r } :=
      files_set _ _ _
    have hrequest {root : κ} {r' : PublishJobRequest}
        (hr' : (Disk.files (w.disk.set (host.jobRoot r.manifestPath)
          { JobFiles.empty with request := some r }) root).request = some r') :
        (root = host.jobRoot r.manifestPath ∧ r' = r) ∨
          (w.disk.files root).request = some r' := by
      rw [hfiles, Function.update_apply] at hr'
      split at hr'
      · next heq => exact .inl ⟨heq, (Option.some.inj hr').symm⟩
      · exact .inr hr'
    constructor
    · refine ⟨fun root₁ root₂ r₁ r₂ h₁ h₂ hplan => ?_, fun root => ?_, fun root r' hr' => ?_⟩
      · rcases hrequest h₁ with ⟨rfl, rfl⟩ | hold₁
        · rcases hrequest h₂ with ⟨rfl, _⟩ | hold₂
          · rfl
          · exact absurd hplan.symm (hother hold₂).2
        · rcases hrequest h₂ with ⟨rfl, rfl⟩ | hold₂
          · exact absurd hplan (hother hold₁).2
          · exact h.readable.unique root₁ root₂ r₁ r₂ hold₁ hold₂ hplan
      · rw [hfiles, Function.update_apply]
        split
        · next heq => exact heq ▸ queued_sound
        · exact h.readable.sound root
      · rcases hrequest hr' with ⟨_, rfl⟩ | hold
        · exact hfits
        · exact h.readable.fits root r' hold
    · refine ⟨fun r' hr' => ?_, fun root r' hr' => ?_, fun p state hp => ?_, ?_⟩
      · rcases List.mem_append.1 hr' with hmem | hmem
        · have hold := hsession.pending r' hmem
          rw [hfiles, Function.update_of_ne (hother hold).1]
          exact hold
        · obtain rfl := List.mem_singleton.1 hmem
          rw [hfiles, Function.update_self]
      · rw [stateOf_set]
        rcases hrequest hr' with ⟨rfl, rfl⟩ | hold
        · refine ⟨.pending, Function.update_self _ _ _, fun _ => ?_⟩
          rw [hfiles, Function.update_self]
          rfl
        · obtain ⟨state, hstate, hsnapshot⟩ := hsession.known root r' hold
          rw [Function.update_of_ne (hother hold).2, hfiles,
            Function.update_of_ne (hother hold).1]
          exact ⟨state, hstate, hsnapshot⟩
      · rw [stateOf_set, Function.update_apply] at hp
        split at hp
        · next heq =>
          refine ⟨host.jobRoot r.manifestPath, r, ?_, heq.symm⟩
          rw [hfiles, Function.update_self]
        · obtain ⟨root, r', hr', hplan⟩ := hsession.placed p state hp
          refine ⟨root, r', ?_, hplan⟩
          rw [hfiles, Function.update_of_ne (hother hr').1]
          exact hr'
      · refine hsession.worker.of_files fun r' hr' => ?_
        rw [hfiles, Function.update_of_ne (hother (hsession.worker.request hr')).1]

theorem withoutPlan_subset (planId : Option String) (pending : List PublishJobRequest) :
    withoutPlan planId pending ⊆ pending := by
  induction pending with
  | nil => exact List.Subset.refl _
  | cons r pending ih =>
    rw [withoutPlan]
    split
    · exact List.subset_cons_self _ _
    · exact List.cons_subset_cons _ ih

theorem cancelled_synced (h : w.Synced host serializer seals) {s : Session}
    (hs : w.session = some s)
    {planId manifestSha256 : Option String} {reading existingReading : Reading}
    {writing : Writing} (hclean : writing.clean = true)
    {out : Except Stop Unit × PublishJobQueue × Disk κ}
    (hout : tryCancelPending host reading existingReading writing s.queue w.disk planId
      manifestSha256 = out) :
    out.2.2.Readable host serializer seals ∧
      (Session.mk out.2.1 s.worker s.hasReceiptWriter).Synced host out.2.2 := by
  have hsession := h.session s hs
  cases hout ▸ tryCancelPending_ended reading existingReading writing s.queue w.disk planId
    manifestSha256 with
  | refused stop r disk' _ =>
    have hfiles := @tryCancelPending_clean _ _ host s.queue w.disk reading existingReading writing
      planId manifestSha256 hclean (by simp [hout])
    rw [hout] at hfiles
    exact ⟨h.readable.of_files hfiles, hsession.of_files hfiles⟩
  | already hstate => exact ⟨h.readable, hsession⟩
  | cancelled r snapshot hmem hplan hstate hrequest hstarted hsnapshot disk' hdisk hfiles =>
    obtain ⟨persisted, hpersisted, hpersistedPlan⟩ := hrequest
    obtain rfl := Option.some.inj ((hsession.pending r hmem).symm.trans hpersisted)
    rw [← hpersistedPlan] at hstate
    obtain ⟨_, hreceipt, _⟩ := hsession.unmarked hstate hpersisted
    have hold := h.readable.sound (host.jobRoot r.manifestPath)
    have hkept : { w.disk.files (host.jobRoot r.manifestPath) with
        cancelled := some (marker r) }.request = some r := hpersisted
    have hsound : Sound host (host.jobRoot r.manifestPath)
        { w.disk.files (host.jobRoot r.manifestPath) with cancelled := some (marker r) } := by
      refine ⟨fun hnone => ?_, hold.root, hold.started, fun r' m hr' hm => ⟨?_, hstarted,
        hreceipt⟩, hold.receipt⟩
      · rw [hkept] at hnone
        cases hnone
      · rw [← Option.some.inj hm, Option.some.inj (hkept.symm.trans hr')]
    refine ⟨h.readable.update hfiles rfl hsound, hsession.move h.readable.unique hpersisted hkept
      hfiles ?_
      (withoutPlan_subset _ _) (fun _ => snapshot_cancelled.2 rfl) ?_⟩
    · rw [stateOf_set, hsnapshot, hpersistedPlan]
    · refine hsession.worker.of_files fun r' hr' => ?_
      rw [hfiles, Function.update_of_ne]
      intro heq
      have hsame := hsession.worker.request hr'
      rw [heq, hpersisted] at hsame
      obtain rfl := Option.some.inj hsame
      have hrunning : stateOf s.queue.states r.planId = some .running :=
        ((h.consistent s hs).running.mem _).1 (by simp [Session.running, hr'])
      rw [hstate] at hrunning
      cases hrunning

theorem started_synced (h : w.Synced host serializer seals) {queue : PublishJobQueue}
    {hasReceiptWriter : Bool}
    (hs : w.session = some ⟨queue, .idle, hasReceiptWriter⟩) {reading : Reading}
    {writing : Writing}
    (htogether : startsTogether reading writing = true ∨ queue.pending = [])
    {out : Except Stop PublishJobRequest × PublishJobQueue × Disk κ}
    (hout : tryStartNext host reading writing queue w.disk = out) :
    out.2.2.Readable host serializer seals ∧
      (Session.mk out.2.1 (.ofStart out.1) hasReceiptWriter).Synced host out.2.2 := by
  have hsession := h.session _ hs
  have hidle (disk' : Disk κ) : Worker.idle.Placed host disk' hasReceiptWriter := trivial
  have hqueue := h.consistent _ hs
  cases hpending : queue.pending with
  | nil =>
    rw [tryStartNext, hpending] at hout
    subst hout
    exact ⟨h.readable, hsession⟩
  | cons r pending =>
    have htogether := htogether.resolve_right (by simp [hpending])
    have hmem : r ∈ queue.pending := by
      rw [hpending]
      exact List.mem_cons_self
    have hrequest := hsession.pending r hmem
    have hstate : stateOf queue.states r.planId = some .pending :=
      (hqueue.pending.mem _).1 (List.mem_map_of_mem hmem)
    obtain ⟨hcancelled, hreceipt, hstarted⟩ := hsession.unmarked hstate hrequest
    obtain ⟨snapshot, hget, _⟩ := Option.map_eq_some_iff.1 hstate
    have hsubset : pending ⊆ queue.pending := by
      rw [hpending]
      exact List.subset_cons_self _ _
    rw [tryStartNext, hpending] at hout
    dsimp only [record] at hout
    have hrecorded := @recordStarted_together _ _ host _ r reading writing htogether hrequest
      hcancelled hreceipt hstarted
    generalize recordStarted host reading writing
      (w.disk.files (host.jobRoot r.manifestPath)) r = recorded at hout hrecorded
    obtain ⟨result, files'⟩ := recorded
    rcases hrecorded with ⟨hraised, hsame⟩ | ⟨hended, hfiles⟩
    · dsimp only at hraised hsame
      rw [hraised, hsame] at hout
      subst hout
      have hfiles : Disk.files (w.disk.set (host.jobRoot r.manifestPath)
          (w.disk.files (host.jobRoot r.manifestPath))) = w.disk.files := by
        rw [files_set, Function.update_eq_self]
      exact ⟨h.readable.of_files hfiles, hsession.of_files hfiles⟩
    · dsimp only at hended hfiles
      have hset : Disk.files (w.disk.set (host.jobRoot r.manifestPath) files') =
          Function.update w.disk.files (host.jobRoot r.manifestPath) files' := files_set _ _ _
      have hkept : files'.request = some r := by
        rw [hfiles]
        exact hrequest
      have hsnapshot : (files'.snapshot r).state = .failed := by
        rw [hfiles, JobFiles.snapshot, hcancelled, hreceipt]
      have hsound : Sound host (host.jobRoot r.manifestPath) files' := by
        have hold := h.readable.sound (host.jobRoot r.manifestPath)
        rw [hfiles]
        refine ⟨fun hnone => ?_, hold.root, fun r' m hr' hm => ?_, fun r' m hr' hm => ?_,
          fun r' receipt hr' hread => ?_⟩
        · rw [show _ = some r from hrequest] at hnone
          cases hnone
        · rw [← Option.some.inj hm, Option.some.inj (hrequest.symm.trans hr')]
        · rw [show _ = none from hcancelled] at hm
          cases hm
        · rw [show _ = none from hreceipt] at hread
          cases hread
      cases result with
      | ok _ =>
        subst hout
        refine ⟨h.readable.update hset (hkept.trans hrequest.symm) hsound,
          hsession.move h.readable.unique hrequest hkept hset ?_ ?_ (fun hne => absurd rfl hne) ?_⟩
        · exact @setState_states { queue with pending } _ _ _ rfl hget .running id
        · exact (@setState_same { queue with pending } r.planId .running id).1 ▸ hsubset
        · refine ⟨?_, ?_, ?_, ?_⟩
          all_goals rw [hset, Function.update_self, hfiles]
          · exact hrequest
          · exact hcancelled
          · rfl
          · exact hreceipt
      | error stop =>
        cases stop with
        | raised => exact absurd rfl hended
        | refused error =>
          subst hout
          refine ⟨h.readable.update hset (hkept.trans hrequest.symm) hsound,
            hsession.move h.readable.unique hrequest hkept hset ?_ ?_ (fun _ => hsnapshot)
              (hidle _)⟩
          · exact @setState_states { queue with pending } _ _ _ rfl hget .failed fun _ => some error
          · exact (@setState_same { queue with pending } r.planId .failed
              fun _ => some error).1 ▸ hsubset

omit [DecidableEq κ] in
/-- A receipt that may be left is one that a recovery accepts. -/
theorem written_sound {jobRoot : κ} {files : JobFiles} {r : PublishJobRequest}
    {execution : PublishExecutionResult} {turn : ReceiptTurn} {out : Option String × JobFiles}
    (hold : Sound host jobRoot files) (hrequest : files.request = some r)
    (hcancelled : files.cancelled = none) (hstarted : files.started.isSome)
    (hreadable : turn.leaves = true → turn.readable execution = true)
    (hout : writeReceipt turn files r execution = out) : Sound host jobRoot out.2 := by
  rcases hout ▸ writeReceipt_valid hreadable with hsame | ⟨receipt, hvalid, hwritten⟩
  · exact hsame ▸ hold
  · rw [hwritten]
    refine ⟨fun hnone => ?_, hold.root, hold.started, fun r' m hr' hm => ?_,
      fun r' receipt' hr' hread => ⟨hstarted, ?_⟩⟩
    · rw [show _ = some r from hrequest] at hnone
      cases hnone
    · rw [show _ = none from hcancelled] at hm
      cases hm
    · rw [← Option.some.inj hread, ← Option.some.inj (hrequest.symm.trans hr')]
      exact hvalid

theorem written_synced (h : w.Synced host serializer seals) {queue : PublishJobQueue}
    {r : PublishJobRequest} {execution : PublishExecutionResult}
    (hs : w.session = some ⟨queue, .executed r execution, true⟩) {turn : ReceiptTurn}
    (hclean : execution.succeeded = true → turn.writing.clean = true)
    (hreadable : turn.leaves = true → turn.readable execution = true)
    {out : Option String × JobFiles}
    (hout : writeReceipt turn (w.disk.files (host.jobRoot r.manifestPath)) r execution = out) :
    Disk.Readable host serializer seals (w.disk.set (host.jobRoot r.manifestPath) out.2) ∧
      (Session.mk queue (.recorded r (out.1.elim execution fun error => .failure (some error)))
        true).Synced host (w.disk.set (host.jobRoot r.manifestPath) out.2) := by
  have hsession := h.session _ hs
  obtain ⟨hrequest, hcancelled, hstarted, hreceipt⟩ := hsession.worker
  have hsound := written_sound (h.readable.sound (host.jobRoot r.manifestPath)) hrequest hcancelled
    hstarted hreadable hout
  have hkeeps := (hout ▸ writeReceipt_recorded turn _ r execution).keeps
  have hkept : out.2.request = some r := hkeeps.request r hrequest
  have hset : Disk.files (w.disk.set (host.jobRoot r.manifestPath) out.2) =
      Function.update w.disk.files (host.jobRoot r.manifestPath) out.2 := files_set _ _ _
  have hrunning : stateOf queue.states r.planId = some .running :=
    ((h.consistent _ hs).running.mem _).1 (by simp [Session.running, Worker.request?])
  refine ⟨h.readable.update hset (hkept.trans hrequest.symm) hsound, ?_⟩
  refine hsession.move h.readable.unique hrequest hkept hset ?_ (List.Subset.refl _)
    (fun hne => absurd rfl hne) ⟨?_, ?_, fun _ => ?_⟩
  · rw [← hrunning, Function.update_eq_self]
  · rw [hset, Function.update_self]
    exact hkept
  · rw [hset, Function.update_self]
    exact hkeeps.started hstarted
  · rw [hset, Function.update_self, ← hout]
    exact writeReceipt_state hclean hcancelled hreceipt hstarted r

theorem completed_synced (h : w.Synced host serializer seals) {queue : PublishJobQueue}
    {r : PublishJobRequest} {execution : PublishExecutionResult} {hasReceiptWriter : Bool}
    (hs : w.session = some ⟨queue, .recorded r execution, hasReceiptWriter⟩)
    (hends : hasReceiptWriter = true ∨ execution.succeeded = false) :
    (Session.mk (complete queue r.planId execution.succeeded execution.error).2 .idle
      hasReceiptWriter).Synced host w.disk := by
  have hsession := h.session _ hs
  obtain ⟨hrequest, _, hsnapshot⟩ := hsession.worker
  have hrunning : stateOf queue.states r.planId = some .running :=
    ((h.consistent _ hs).running.mem _).1 (by simp [Session.running, Worker.request?])
  obtain ⟨snapshot, hget, hstate⟩ := Option.map_eq_some_iff.1 hrunning
  rw [complete, hget]
  dsimp only
  rw [if_pos hstate]
  exact hsession.move h.readable.unique hrequest hrequest (Function.update_eq_self _ _).symm
    (stateOf_set _ _ _) (List.Subset.refl _) (fun _ => hsnapshot hends) trivial

theorem step_synced (hok : Reported host serializer seals w e) (hstep : step host w e = some w')
    (h : w.Synced host serializer seals) : w'.Synced host serializer seals := by
  have hconsistent := step_consistent hstep h.consistent
  cases step_moved hstep with
  | refused => exact h
  | restarted _ capacity hasReceiptWriter found queue hqueue =>
    exact ⟨hconsistent, h.readable, fun _ hs => Option.some.inj hs ▸ newQueue_synced hok hqueue⟩
  | crashed => exact ⟨hconsistent, h.readable, fun _ h => by cases h⟩
  | enqueued s hs r writing out hout =>
    obtain ⟨hreadable, hsynced⟩ := enqueued_synced h hs hok.1 hok.2 hout
    exact ⟨hconsistent, hreadable, fun _ hs => Option.some.inj hs ▸ hsynced⟩
  | cancelled s hs planId manifestSha256 reading existingReading writing out hout =>
    obtain ⟨hreadable, hsynced⟩ := cancelled_synced h hs hok hout
    exact ⟨hconsistent, hreadable, fun _ hs => Option.some.inj hs ▸ hsynced⟩
  | started queue hasReceiptWriter hs reading writing out hout =>
    have htogether : startsTogether reading writing = true ∨ queue.pending = [] := by
      rw [Reported, hs] at hok
      simpa using hok
    obtain ⟨hreadable, hsynced⟩ := started_synced h hs htogether hout
    exact ⟨hconsistent, hreadable, fun _ hs => Option.some.inj hs ▸ hsynced⟩
  | executing queue r hasReceiptWriter hs =>
    have hsession := h.session _ hs
    refine ⟨hconsistent, h.readable, fun s' hs' => ?_⟩
    obtain rfl := Option.some.inj hs'
    exact ⟨hsession.pending, hsession.known, hsession.placed, hsession.worker⟩
  | executed queue r hasReceiptWriter hs execution =>
    have hsession := h.session _ hs
    refine ⟨hconsistent, h.readable, fun s' hs' => ?_⟩
    obtain rfl := Option.some.inj hs'
    exact ⟨hsession.pending, hsession.known, hsession.placed, hsession.worker⟩
  | written queue r execution hs turn out hout =>
    rw [Reported, hs] at hok
    have hclean : execution.succeeded = true → turn.writing.clean = true := by
      rcases hok.1 with hclean | hfailed
      · exact fun _ => hclean
      · intro hsucceeded
        simp [hsucceeded] at hfailed
    have hreadable : turn.leaves = true → turn.readable execution = true := fun hleaves => by
      simpa using hok.2 hleaves
    obtain ⟨hreadable, hsynced⟩ := written_synced h hs hclean hreadable hout
    exact ⟨hconsistent, hreadable, fun _ hs => Option.some.inj hs ▸ hsynced⟩
  | unwritten queue r execution hs turn =>
    have hsession := h.session _ hs
    obtain ⟨hrequest, hcancelled, hstarted, hreceipt⟩ := hsession.worker
    refine ⟨hconsistent, h.readable, fun s' hs' => ?_⟩
    obtain rfl := Option.some.inj hs'
    refine ⟨hsession.pending, hsession.known, hsession.placed, hrequest, hstarted,
      fun hfailed => ?_⟩
    obtain ⟨started, hstarted⟩ := Option.isSome_iff_exists.1 hstarted
    rw [JobFiles.snapshot, hcancelled, hreceipt, hstarted, PublishExecutionResult.state,
      hfailed.resolve_left (by simp)]
    rfl
  | completed queue r execution hasReceiptWriter hs =>
    have hends : hasReceiptWriter = true ∨ execution.succeeded = false := by
      rw [Reported, hs] at hok
      simpa using hok
    have hsynced := completed_synced h hs hends
    exact ⟨hconsistent, h.readable, fun _ hs => Option.some.inj hs ▸ hsynced⟩

theorem readable_empty : Disk.Readable host serializer seals (.empty : Disk κ) where
  unique _ _ _ _ h := by cases h
  sound root :=
    { unmarked := fun _ => rfl
      root := fun _ h => by cases h
      started := fun _ _ h => by cases h
      cancelled := fun _ _ h => by cases h
      receipt := fun _ _ h => by cases h }
  fits _ _ h := by cases h

/-- Readings of a directory whose files and outputs nobody touched. -/
def Untouched (serializer : Serializer) (seals : κ → Seals) (disk : Disk κ)
    (e : κ × JobReadings) : Prop :=
  ∃ outputs, e.2 = untouched serializer (seals e.1) outputs (disk.files e.1) ∧
    ∀ receipt digest, (disk.files e.1).receipt = some receipt →
      receipt.outputsSha256 = some digest → outputs = .ok (receipt.outputCount, digest)

theorem Disk.Readable.recoverable {disk : Disk κ} (h : disk.Readable host serializer seals)
    {e : κ × JobReadings} (huntouched : Untouched serializer seals disk e) :
    Recoverable host e.1 e.2 (disk.files e.1) := by
  obtain ⟨outputs, hreadings, houtputs⟩ := huntouched
  have hsound := h.sound e.1
  rw [hreadings]
  refine hsound.recoverable (hsound.untouched_intact (fun r hr => ?_) houtputs)
  obtain ⟨hvalid, hbytes⟩ := h.fits e.1 r hr
  rw [hsound.root r hr] at hbytes
  exact ⟨hvalid, hbytes⟩

/-- In the state of its last record every job is recovered, the pending ones are those in memory,
so that the capacity is enough for them, and what had come to an end in memory comes to the same
end: in every run in which the reports and the records agree. And every recovery goes through
whose files were not touched. -/
theorem recovery_agrees {s : Session} (hreach : Runs.Reaches (step host)
      (Reported host serializer seals) (World.start (.empty : Disk κ)) w)
    (hs : w.session = some s) :
    (∀ r, r ∈ s.queue.pending ↔ ∃ root, pendingRequest w.disk root = some r) ∧
      ∀ found, Enumerates w.disk found →
        recover host s.queue.capacity w.disk found = recoverJobs host w.disk 0 .empty found ∧
        (∀ recovery, recover host s.queue.capacity w.disk found = .ok recovery →
          (∀ r, r ∈ recovery.pending ↔ r ∈ s.queue.pending) ∧
          (∀ root r, (w.disk.files root).request = some r →
            recovery.states.get r.planId = some ((w.disk.files root).snapshot r)) ∧
          ∀ p state, state ∉ [PublishJobState.pending, .running] →
            stateOf s.queue.states p = some state → stateOf recovery.states p = some state) ∧
        (found.length ≤ maxJobDirectories → (∀ e ∈ found, Untouched serializer seals w.disk e) →
          ∃ recovery, recover host s.queue.capacity w.disk found = .ok recovery) := by
  have hinit : (World.start (.empty : Disk κ)).Synced host serializer seals :=
    ⟨fun _ h => (by cases h), readable_empty, fun _ h => (by cases h)⟩
  have hsynced : w.Synced host serializer seals := Runs.invariant_of_reaches hinit
    (fun _ _ _ h hok hstep => step_synced hok hstep h) hreach
  have hsession := hsynced.session s hs
  have hqueue := hsynced.consistent s hs
  have hpending (r : PublishJobRequest) :
      r ∈ s.queue.pending ↔ ∃ root, pendingRequest w.disk root = some r := by
    constructor
    · intro hr
      have hrequest := hsession.pending r hr
      have hstate : stateOf s.queue.states r.planId = some .pending :=
        (hqueue.pending.mem _).1 (List.mem_map_of_mem hr)
      refine ⟨host.jobRoot r.manifestPath, Option.filter_eq_some_iff.2 ⟨hrequest, ?_⟩⟩
      exact decide_eq_true (snapshot_pending.2 (hsession.unmarked hstate hrequest))
    · rintro ⟨root, hroot⟩
      obtain ⟨hrequest, hsnapshot⟩ := Option.filter_eq_some_iff.1 hroot
      rw [decide_eq_true_eq] at hsnapshot
      obtain ⟨state, hstate, hends⟩ := hsession.known root r hrequest
      have hstate' : state = .pending := by
        by_cases hrunning : state = .running
        · -- the job of the worker has a started record, so that it is not the one that is pending
          subst hrunning
          have hmem := (hqueue.running.mem _).2 hstate
          obtain ⟨r', hr', hplan⟩ := Option.map_eq_some_iff.1 (Option.mem_toList.1 hmem)
          have hroot := hsynced.readable.unique _ _ _ _ (hsession.worker.request hr') hrequest hplan
          have hstarted := hsession.worker.started hr'
          rw [hroot, (snapshot_pending.1 hsnapshot).2.2] at hstarted
          cases hstarted
        · exact (hends hrunning).symm.trans hsnapshot
      subst hstate'
      obtain ⟨r', hr', hplan⟩ := List.mem_map.1 ((hqueue.pending.mem _).2 hstate)
      have hrequest' := hsession.pending r' hr'
      have hroot := hsynced.readable.unique _ _ _ _ hrequest' hrequest hplan
      rw [hroot, hrequest] at hrequest'
      exact Option.some.inj hrequest' ▸ hr'
  refine ⟨hpending, fun found hfound => ?_⟩
  have hrecovered {recovery : PublishQueueRecovery}
      (hrecovers : Recovers host w.disk (found.map Prod.fst) recovery) (r : PublishJobRequest) :
      r ∈ recovery.pending ↔ r ∈ s.queue.pending := by
    rw [hpending, hrecovers.pending, List.mem_filterMap]
    constructor
    · rintro ⟨root, _, hroot⟩
      exact ⟨root, hroot⟩
    · rintro ⟨root, hroot⟩
      exact ⟨root, hfound.mem (Option.filter_eq_some_iff.1 hroot).1, hroot⟩
  have hsame : recover host s.queue.capacity w.disk found =
      recoverJobs host w.disk 0 .empty found := by
    rw [recover]
    cases hjobs : recoverJobs host w.disk 0 .empty found with
    | error thrown => rfl
    | ok recovery =>
      have hrecovers := recoverJobs_recovers Recovers.start hjobs
      rw [List.nil_append] at hrecovers
      have hsubset : recovery.pending ⊆ s.queue.pending :=
        fun r hr => (hrecovered hrecovers r).1 hr
      have hlength := (List.subperm_of_subset hrecovers.listed.nodup.of_map hsubset).length_le
      refine ensure_bind_eq_ok.2 ⟨?_, rfl⟩
      exact decide_eq_true (hlength.trans hqueue.room)
  refine ⟨hsame, fun recovery hrecover => ?_, fun hfew huntouched => ?_⟩
  · obtain ⟨hrecovers, _⟩ := recover_recovers hrecover
    refine ⟨hrecovered hrecovers, fun root r hr => ?_, fun p state hterminal hstate => ?_⟩
    · exact (hrecovers.found root (hfound.mem hr) r hr).2
    · obtain ⟨root, r, hr, rfl⟩ := hsession.placed p state hstate
      obtain ⟨state', hstate', hends⟩ := hsession.known root r hr
      obtain rfl := Option.some.inj (hstate.symm.trans hstate')
      rw [hrecovers.stateOf hfound hr, hends (by rintro rfl; simp at hterminal)]
  · rw [hsame]
    exact recoverJobs_ok hsynced.readable.unique hfound.1 ((Nat.zero_add _).le.trans hfew)
      (fun e he => hsynced.readable.recoverable (huntouched e he)) fun _ _ _ _ => rfl

end Agreement

section Example

/-- The request of a job that the validator passes. -/
def queued (name : Char) : PublishJobRequest where
  planId := "sha256:" ++ String.ofList (List.replicate 64 name)
  manifestPath := String.ofList [name] ++ "/manifest.json"
  manifestSha256 := zeroHash
  stagedDrawing := String.ofList [name] ++ "/source/a.dwg"
  outputDirectory := String.ofList [name] ++ "/output"
  sheetCount := 1

def intactReadings : JobReadings := ⟨.intact, .intact, .intact, none⟩

/-- A process that crashes behind a cancellation, and another one that executes the other job. -/
def agreeingRun : List (Event String) :=
  [.restart 2 true [], .enqueue (queued 'a') .done, .enqueue (queued 'b') .done,
    .cancel (some (queued 'b').planId) (some zeroHash) .intact .intact .done, .crash,
    .restart 2 true [("a/manifest.json", intactReadings), ("b/manifest.json", intactReadings)],
    .enqueue (queued 'c') .done, .startNext .intact .done, .execute,
    .executorReturn (.failure (some "plot_failed")), .receipt ⟨none, .error "", .done, ""⟩,
    .complete]

/-- The directories of a workspace with their readings, where nobody touched them. -/
def listing (disk : Disk String) : List (String × JobReadings) :=
  disk.entries.map fun e => (e.1, untouched plainSerializer zeroSeals (.error "") (disk.files e.1))

theorem listing_untouched {disk : Disk String}
    (h : disk.entries.all fun e => (disk.files e.1).receipt.all fun receipt =>
      receipt.outputsSha256.isNone) :
    ∀ e ∈ listing disk, Untouched plainSerializer (fun _ => zeroSeals) disk e := by
  rintro _ he
  obtain ⟨e, hmem, rfl⟩ := List.mem_map.1 he
  refine ⟨.error "", rfl, fun receipt digest hreceipt hdigest => ?_⟩
  have hnone := List.all_eq_true.1 h e hmem
  rw [hreceipt, Option.all_some, hdigest] at hnone
  cases hnone

theorem recovery_agrees_failed : ∃ (w : World String) (s : Session), w.session = some s ∧
    s.queue.pending = [queued 'c'] ∧
    stateOf s.queue.states (queued 'a').planId = some .failed ∧
    ∃ found recovery, Enumerates w.disk found ∧
      recover plainHost s.queue.capacity w.disk found = .ok recovery ∧
        (∀ r, r ∈ recovery.pending ↔ r ∈ s.queue.pending) ∧
        stateOf recovery.states (queued 'a').planId = some .failed := by
  obtain ⟨w, hreach, hw⟩ := Runs.exists_reaches_of_run (step plainHost)
    (Reported plainHost plainSerializer fun _ => zeroSeals) (World.start .empty) agreeingRun
    (fun w => w.session.any fun s : Session => decide (s.queue.pending = [queued 'c'] ∧
      stateOf s.queue.states (queued 'a').planId = some .failed ∧
      Enumerates w.disk (listing w.disk) ∧ (listing w.disk).length ≤ maxJobDirectories ∧
      (w.disk.entries.all fun e => (w.disk.files e.1).receipt.all fun receipt =>
        receipt.outputsSha256.isNone) = true))
    (by decide +kernel) (by decide +kernel)
  obtain ⟨s, hs, hstates⟩ := (Option.any_eq_true _ _).1 hw
  obtain ⟨hpending, hfailed, hfound, hfew, hnone⟩ := of_decide_eq_true hstates
  obtain ⟨_, hrecover⟩ := recovery_agrees hreach hs
  obtain ⟨_, hagrees, hgoes⟩ := hrecover _ hfound
  obtain ⟨recovery, hrecovery⟩ := hgoes hfew (listing_untouched hnone)
  obtain ⟨hsame, _, hends⟩ := hagrees recovery hrecovery
  exact ⟨w, s, hs, hpending, hfailed, _, recovery, hfound, hrecovery, hsame,
    hends _ _ (by decide) hfailed⟩

/-- The first job fails to start, as its record cannot be written, and another one takes its place
in a queue for one job. -/
def failedStartRun : List (Event String) :=
  [.restart 1 true [], .enqueue (queued 'a') .done, .startNext .intact (.fileException false),
    .enqueue (queued 'b') .done]

/-- What failed in memory is pending in its directory, where the next process finds more jobs than
it has room for. -/
theorem failed_start_exceeds_capacity : ∃ (w : World String) (s : Session),
    Runs.Reaches (step plainHost) Listed (World.start .empty) w ∧ w.session = some s ∧
      stateOf s.queue.states (queued 'a').planId = some .failed ∧ queued 'a' ∉ s.queue.pending ∧
      pendingRequest w.disk "a/manifest.json" = some (queued 'a') ∧
      ∃ found, Enumerates w.disk found ∧ ∃ message,
        recover plainHost s.queue.capacity w.disk found = .error (.invalidData message) ∧
          message = "publish_queue_recovery_exceeds_capacity" := by
  have hexceeds : ∀ (recovered : Except Thrown PublishQueueRecovery) (message : String),
      (match recovered with
        | .error thrown => decide (thrown = .invalidData message)
        | .ok _ => false) = true → recovered = .error (.invalidData message) := by
    intro recovered message h
    cases recovered with
    | ok => cases h
    | error thrown => rw [of_decide_eq_true h]
  obtain ⟨w, hreach, hw⟩ := Runs.exists_reaches_of_run (step plainHost) Listed
    (World.start .empty) failedStartRun
    (fun w => w.session.any fun s : Session => decide (
      stateOf s.queue.states (queued 'a').planId = some .failed ∧
      queued 'a' ∉ s.queue.pending ∧
      pendingRequest w.disk "a/manifest.json" = some (queued 'a') ∧
      Enumerates w.disk [("a/manifest.json", intactReadings), ("b/manifest.json", intactReadings)] ∧
      (match recover plainHost s.queue.capacity w.disk
          [("a/manifest.json", intactReadings), ("b/manifest.json", intactReadings)] with
        | .error thrown => decide (thrown = .invalidData "publish_queue_recovery_exceeds_capacity")
        | .ok _ => false) = true))
    (by decide +kernel) (by decide +kernel)
  obtain ⟨s, hs, hstates⟩ := (Option.any_eq_true _ _).1 hw
  obtain ⟨hfailed, hgone, hpending, hfound, hrecover⟩ := of_decide_eq_true hstates
  exact ⟨w, s, hreach, hs, hfailed, hgone, hpending, _, hfound, _, hexceeds _ _ hrecover, rfl⟩

end Example

end CadPlot.Publish.Queue
