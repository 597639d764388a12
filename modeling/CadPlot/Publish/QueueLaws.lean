import CadPlot.Lib.Index
import CadPlot.Publish.Queue

/-!
# What the operations of the publish queue do

For each recording, what it changes in the directory of the job; for a recovery,
the state that it finds for every directory; and for each operation of the
queue, how a job goes from one state to another in memory.
-/

namespace CadPlot.Publish.Queue

/-- A change of a job directory on behalf of a request. -/
inductive Recorded (r : PublishJobRequest) (files : JobFiles) : JobFiles → Prop
  | same : Recorded r files files
  | request (hfiles : files = .empty) : Recorded r files { files with request := some r }
  | started (persisted : PublishJobRequest) (hrequest : files.request = some persisted)
      (hplan : persisted.planId = r.planId) (hcancelled : files.cancelled = none)
      (hreceipt : files.receipt = none) (hstarted : files.started = none) :
      Recorded r files { files with started := some (marker r) }
  | cancelled (persisted : PublishJobRequest) (hrequest : files.request = some persisted)
      (hplan : persisted.planId = r.planId) (hcancelled : files.cancelled = none)
      (hreceipt : files.receipt = none) (hstarted : files.started = none) :
      Recorded r files { files with cancelled := some (marker r) }
  | receipt (receipt : PublishReceipt) (hreceipt : files.receipt = none) :
      Recorded r files { files with receipt := some receipt }

section Recording

variable {κ : Type} {host : Host κ} {files : JobFiles} {r : PublishJobRequest}

theorem writeAtomicCreate_files (writing : Writing) (before after : JobFiles)
    (there missing : String) :
    (writeAtomicCreate writing before after there missing).2 = before ∨
      (writeAtomicCreate writing before after there missing).2 = after := by
  cases writing with
  | done => exact .inr rfl
  | fileException moved => cases moved with
    | true => exact .inr rfl
    | false => exact .inl rfl
  | exception moved => cases moved with
    | true => exact .inr rfl
    | false => exact .inl rfl

theorem writeAtomicCreate_ok {writing : Writing} {before after : JobFiles}
    {there missing : String}
    (h : (writeAtomicCreate writing before after there missing).1 = .ok ()) :
    (writeAtomicCreate writing before after there missing).2 = after := by
  cases writing with
  | done => rfl
  | fileException moved => cases moved <;> cases h
  | exception moved => cases moved <;> cases h

theorem files_eq_empty (hrequest : files.request = none) (hstarted : files.started = none)
    (hcancelled : files.cancelled = none) (hreceipt : files.receipt = none) :
    files = .empty := by
  obtain ⟨_, _, _, _⟩ := files
  simp_all [JobFiles.empty]

theorem recordPending_recorded (writing : Writing) (files : JobFiles) (r : PublishJobRequest) :
    Recorded r files (recordPending writing files r).2 := by
  unfold recordPending
  split
  · exact .same
  · next hreceipt =>
    split
    · exact .same
    · next hnone =>
      have hfiles : files = .empty := files_eq_empty (by simp_all) (by simp_all) (by simp_all)
        (by simpa using hreceipt)
      rcases writeAtomicCreate_files writing files { files with request := some r }
        "duplicate_plan" "queue_state_write_failed" with h | h
      · rw [h]
        exact .same
      · rw [h]
        exact .request hfiles

theorem recordPending_ok {writing : Writing} (h : (recordPending writing files r).1 = .ok ()) :
    files = .empty ∧ (recordPending writing files r).2 = { files with request := some r } := by
  unfold recordPending at h ⊢
  split at h
  · cases h
  · next hreceipt =>
    split at h
    · cases h
    · next hnone =>
      rw [if_neg hreceipt, if_neg hnone]
      exact ⟨files_eq_empty (by simp_all) (by simp_all) (by simp_all) (by simpa using hreceipt),
        writeAtomicCreate_ok h⟩

theorem sameRequest_plan {left right : PublishJobRequest}
    (h : sameRequest host left right = true) : left.planId = right.planId := by
  simp only [sameRequest, Bool.and_eq_true, decide_eq_true_eq] at h
  exact h.1.1.1.1.1

variable [DecidableEq κ]

theorem checkRequest_ok {reading : Reading} {onFileException : String}
    (h : checkRequest host reading onFileException files r = .ok ()) :
    ∃ persisted, files.request = some persisted ∧ persisted.planId = r.planId := by
  unfold checkRequest at h
  split at h
  all_goals try cases h
  next persisted hpersisted =>
    split at h
    · cases h
    · split at h
      · next hsame => exact ⟨persisted, hpersisted, sameRequest_plan hsame⟩
      · cases h

theorem recordStarted_recorded (reading : Reading) (writing : Writing) (files : JobFiles)
    (r : PublishJobRequest) :
    Recorded r files (recordStarted host reading writing files r).2 := by
  unfold recordStarted
  split
  · exact .same
  · next hcheck =>
    obtain ⟨persisted, hrequest, hplan⟩ := checkRequest_ok hcheck
    split
    · exact .same
    · next hcancelled =>
      split
      · exact .same
      · next hreceipt =>
        split
        · exact .same
        · next hstarted =>
          rcases writeAtomicCreate_files writing files { files with started := some (marker r) }
            "job_already_started" "queue_state_write_failed" with h | h
          · rw [h]
            exact .same
          · rw [h]
            exact .started persisted hrequest hplan (by simpa using hcancelled)
              (by simpa using hreceipt) (by simpa using hstarted)

/-- The directory of a job that was just started. -/
structure Started (r : PublishJobRequest) (files files' : JobFiles) : Prop where
  written : files' = { files with started := some (marker r) }
  request : ∃ persisted, files.request = some persisted ∧ persisted.planId = r.planId
  cancelled : files.cancelled = none
  started : files.started = none
  receipt : files.receipt = none

theorem recordStarted_ok {reading : Reading} {writing : Writing}
    (h : (recordStarted host reading writing files r).1 = .ok ()) :
    Started r files (recordStarted host reading writing files r).2 := by
  unfold recordStarted at h ⊢
  split at h
  · cases h
  · next hcheck =>
    split at h
    · cases h
    · next hcancelled =>
      split at h
      · cases h
      · next hreceipt =>
        split at h
        · cases h
        · next hstarted =>
          rw [if_neg hcancelled, if_neg hreceipt, if_neg hstarted]
          exact ⟨writeAtomicCreate_ok h, checkRequest_ok hcheck, by simpa using hcancelled,
            by simpa using hstarted, by simpa using hreceipt⟩

theorem recordCancelled_recorded (reading existingReading : Reading) (writing : Writing)
    (files : JobFiles) (r : PublishJobRequest) :
    Recorded r files (recordCancelled host reading existingReading writing files r).2 := by
  unfold recordCancelled
  split
  · exact .same
  · next hcheck =>
    obtain ⟨persisted, hrequest, hplan⟩ := checkRequest_ok hcheck
    split
    · exact .same
    · next hleft =>
      rw [Bool.or_eq_true, not_or] at hleft
      split
      · exact .same
      · next hcancelled =>
        rcases writeAtomicCreate_files writing files { files with cancelled := some (marker r) }
          "job_already_cancelled" "queue_state_write_failed" with h | h
        · rw [h]
          exact .same
        · rw [h]
          exact .cancelled persisted hrequest hplan hcancelled (by simpa using hleft.2)
            (by simpa using hleft.1)

theorem recordCancelled_ok {reading existingReading : Reading} {writing : Writing}
    (h : (recordCancelled host reading existingReading writing files r).1 = .ok ()) :
    (∃ persisted, files.request = some persisted ∧ persisted.planId = r.planId) ∧
      files.started = none ∧ files.receipt = none ∧
      (recordCancelled host reading existingReading writing files r).2 =
        { files with cancelled := some (marker r) } := by
  unfold recordCancelled at h ⊢
  split at h
  · cases h
  · next hcheck =>
    split at h
    · cases h
    · next hleft =>
      have hnone := hleft
      rw [Bool.or_eq_true, not_or] at hnone
      refine ⟨checkRequest_ok hcheck, by simpa using hnone.1, by simpa using hnone.2, ?_⟩
      rw [if_neg hleft]
      split at h
      · next existing hexisting =>
        have hmarker : existing = marker r := by
          unfold checkCancelled at h
          split at h
          all_goals try cases h
          split at h
          · assumption
          · cases h
        subst hmarker
        obtain ⟨_, _, _, _⟩ := files
        simp_all
      · next hcancelled =>
        exact writeAtomicCreate_ok h

theorem writeReceipt_recorded (turn : ReceiptTurn) (files : JobFiles) (r : PublishJobRequest)
    (execution : PublishExecutionResult) :
    Recorded r files (writeReceipt turn files r execution).2 := by
  unfold writeReceipt
  dsimp only
  split
  · exact .same
  · exact .same
  · split
    · exact .same
    · split
      · exact .same
      · next hreceipt =>
        have hnone : files.receipt = none := by simpa using hreceipt
        split
        · exact .receipt _ hnone
        · split
          · exact .receipt _ hnone
          · exact .same
        · split
          · exact .receipt _ hnone
          · exact .same

end Recording

/-- The snapshot of a job by its last durable step. -/
def JobFiles.snapshot (files : JobFiles) (r : PublishJobRequest) : PublishJobSnapshot :=
  match files.cancelled, files.receipt, files.started with
  | some _, _, _ => ⟨r.planId, .cancelled, none⟩
  | none, some receipt, _ =>
    ⟨r.planId, if receipt.state = "succeeded" then .succeeded else .failed, receipt.error⟩
  | none, none, some _ => ⟨r.planId, .failed, some "job_interrupted"⟩
  | none, none, none => ⟨r.planId, .pending, none⟩

/-- The state that a plan has in memory. -/
def stateOf (states : Dict String PublishJobSnapshot) (planId : String) :
    Option PublishJobState :=
  (states.get planId).map PublishJobSnapshot.state

theorem stateOf_set (states : Dict String PublishJobSnapshot) (planId : String)
    (snapshot : PublishJobSnapshot) :
    stateOf (states.set planId snapshot) =
      Function.update (stateOf states) planId (some snapshot.state) := by
  funext p
  simp only [stateOf, Dict.get_set, Function.update_apply, @eq_comm _ planId]
  split
  · rfl
  · rfl

section Recovering

variable {κ : Type} [DecidableEq κ] {host : Host κ} {disk : Disk κ}

theorem recoverSnapshot_ok {readings : JobReadings} {files : JobFiles} {r : PublishJobRequest}
    {snapshot : PublishJobSnapshot} (h : recoverSnapshot readings files r = .ok snapshot) :
    snapshot = files.snapshot r := by
  obtain ⟨_, started, cancelled, receipt⟩ := files
  cases cancelled with
  | some cancelled =>
    obtain ⟨_, h⟩ := ensure_bind_eq_ok.1 h
    obtain ⟨_, _, h⟩ := bind_eq_ok.1 h
    obtain ⟨_, h⟩ := ensure_bind_eq_ok.1 h
    exact (pure_eq_ok.1 h).symm
  | none =>
    cases receipt with
    | none =>
      cases started with
      | none => exact (pure_eq_ok.1 h).symm
      | some started =>
        obtain ⟨_, _, h⟩ := bind_eq_ok.1 h
        exact (pure_eq_ok.1 h).symm
    | some receipt =>
      cases started with
      | none => cases h
      | some started =>
        obtain ⟨_, _, h⟩ := bind_eq_ok.1 h
        obtain ⟨_, _, h⟩ := bind_eq_ok.1 h
        obtain ⟨_, h⟩ := ensure_bind_eq_ok.1 h
        obtain ⟨_, h⟩ := ensure_bind_eq_ok.1 h
        exact (pure_eq_ok.1 h).symm

theorem snapshot_state (files : JobFiles) (r : PublishJobRequest) :
    ((files.snapshot r).state = .pending ↔
      files.cancelled = none ∧ files.receipt = none ∧ files.started = none) ∧
    ((files.snapshot r).state = .cancelled ↔ files.cancelled.isSome) ∧
    (files.snapshot r).state ≠ .running := by
  obtain ⟨_, started, cancelled, receipt⟩ := files
  cases cancelled with
  | some cancelled => simp [JobFiles.snapshot]
  | none =>
    cases receipt with
    | none =>
      cases started with
      | none => simp [JobFiles.snapshot]
      | some started => simp [JobFiles.snapshot]
    | some receipt =>
      by_cases hstate : receipt.state = "succeeded"
      · simp [JobFiles.snapshot, hstate]
      · simp [JobFiles.snapshot, hstate]

theorem snapshot_pending {files : JobFiles} {r : PublishJobRequest} :
    (files.snapshot r).state = .pending ↔
      files.cancelled = none ∧ files.receipt = none ∧ files.started = none :=
  (snapshot_state files r).1

theorem snapshot_cancelled {files : JobFiles} {r : PublishJobRequest} :
    (files.snapshot r).state = .cancelled ↔ files.cancelled.isSome :=
  (snapshot_state files r).2.1

theorem snapshot_running {files : JobFiles} {r : PublishJobRequest} :
    (files.snapshot r).state ≠ .running :=
  (snapshot_state files r).2.2

/-- The request of a job directory without any later record. -/
def pendingRequest (disk : Disk κ) (root : κ) : Option PublishJobRequest :=
  (disk.files root).request.filter fun r => ((disk.files root).snapshot r).state = .pending

/-- What a recovery has come to once it went through some job directories. -/
structure Recovers (host : Host κ) (disk : Disk κ) (roots : List κ)
    (recovery : PublishQueueRecovery) : Prop where
  found : ∀ root ∈ roots, ∀ r, (disk.files root).request = some r →
    host.jobRoot r.manifestPath = root ∧
      recovery.states.get r.planId = some ((disk.files root).snapshot r)
  states : ∀ p snapshot, recovery.states.get p = some snapshot → ∃ root ∈ roots, ∃ r,
    (disk.files root).request = some r ∧ r.planId = p ∧ snapshot = (disk.files root).snapshot r
  pending : recovery.pending = roots.filterMap (pendingRequest disk)
  listed : Lists (recovery.pending.map PublishJobRequest.planId) (stateOf recovery.states) .pending
  recovered : recovery.recoveredOnStartup = recovery.pending.length

theorem Recovers.start : Recovers host disk [] .empty where
  found := by simp
  states := by simp [PublishQueueRecovery.empty]
  pending := rfl
  listed := .nil fun k => by simp [PublishQueueRecovery.empty, stateOf]
  recovered := rfl

theorem recoverJob_recovers {roots : List κ} {root : κ} {readings : JobReadings}
    {recovery recovery' : PublishQueueRecovery} (h : Recovers host disk roots recovery)
    (hjob : recoverJob host recovery root readings (disk.files root) = .ok recovery') :
    Recovers host disk (roots ++ [root]) recovery' := by
  unfold recoverJob at hjob
  split at hjob
  · next hnone =>
    split at hjob
    · cases hjob
    · obtain rfl := Except.ok.inj hjob
      refine ⟨?_, ?_, ?_, h.listed, h.recovered⟩
      · intro root' hroot' r hr
        rcases List.mem_append.1 hroot' with hmem | hmem
        · exact h.found root' hmem r hr
        · obtain rfl := List.mem_singleton.1 hmem
          rw [hnone] at hr
          cases hr
      · intro p snapshot hget
        obtain ⟨root', hmem, hr⟩ := h.states p snapshot hget
        exact ⟨root', List.mem_append_left _ hmem, hr⟩
      · simp [h.pending, pendingRequest, hnone]
  · next r hrequest =>
    obtain ⟨_, _, hjob⟩ := bind_eq_ok.1 hjob
    obtain ⟨hroot, hjob⟩ := ensure_bind_eq_ok.1 hjob
    obtain ⟨hnew, hjob⟩ := ensure_bind_eq_ok.1 hjob
    obtain ⟨snapshot, hsnapshot, hjob⟩ := bind_eq_ok.1 hjob
    obtain rfl := pure_eq_ok.1 hjob
    obtain rfl := recoverSnapshot_ok hsnapshot
    rw [decide_eq_true_eq] at hroot
    rw [Option.isNone_iff_eq_none] at hnew
    refine ⟨?_, ?_, ?_, ?_, ?_⟩
    · intro root' hroot' r' hr'
      rcases List.mem_append.1 hroot' with hmem | hmem
      · obtain ⟨hplace, hget⟩ := h.found root' hmem r' hr'
        refine ⟨hplace, ?_⟩
        have hne : r'.planId ≠ r.planId := fun heq => by
          rw [heq, hnew] at hget
          cases hget
        rw [PublishQueueRecovery.add, Dict.get_set_other _ _ hne, hget]
      · obtain rfl := List.mem_singleton.1 hmem
        obtain rfl := Option.some.inj (hrequest.symm.trans hr')
        exact ⟨hroot, Dict.get_set_same _ _ _⟩
    · intro p snapshot hget
      rw [PublishQueueRecovery.add, Dict.get_set] at hget
      split at hget
      · next heq =>
        exact ⟨root, by simp, r, hrequest, heq, (Option.some.inj hget).symm⟩
      · obtain ⟨root', hmem, hr⟩ := h.states p snapshot hget
        exact ⟨root', List.mem_append_left _ hmem, hr⟩
    · rw [PublishQueueRecovery.add, h.pending, List.filterMap_append]
      by_cases hpending : ((disk.files root).snapshot r).state = .pending
      · have hroots : pendingRequest disk root = some r := by
          rw [pendingRequest, hrequest, Option.filter_some, if_pos (by simpa using hpending)]
        simp [hroots, hpending]
      · have hroots : pendingRequest disk root = none := by
          rw [pendingRequest, hrequest, Option.filter_some, if_neg (by simpa using hpending)]
        simp [hroots, hpending]
    · have hstate : stateOf recovery.states r.planId = none := by simp [stateOf, hnew]
      rw [PublishQueueRecovery.add, stateOf_set, List.map_append]
      by_cases hpending : ((disk.files root).snapshot r).state = .pending
      · rw [if_pos hpending, hpending]
        exact h.listed.append (by simp [hstate])
      · rw [if_neg hpending, List.map_nil, List.append_nil]
        exact h.listed.update (by simp [hstate]) hpending
    · rw [PublishQueueRecovery.add, h.recovered, List.length_append]
      split
      · rfl
      · rfl

theorem recoverJobs_recovers {roots : List κ} {matching : Nat} {found : List (κ × JobReadings)}
    {recovery recovery' : PublishQueueRecovery} (h : Recovers host disk roots recovery)
    (hjobs : recoverJobs host disk matching recovery found = .ok recovery') :
    Recovers host disk (roots ++ found.map Prod.fst) recovery' := by
  induction found generalizing roots matching recovery with
  | nil =>
    obtain rfl := Except.ok.inj hjobs
    rwa [List.map_nil, List.append_nil]
  | cons e found ih =>
    obtain ⟨root, readings⟩ := e
    obtain ⟨_, hjobs⟩ := ensure_bind_eq_ok.1 hjobs
    obtain ⟨next, hjob, hjobs⟩ := bind_eq_ok.1 hjobs
    have hrest := ih (recoverJob_recovers h hjob) hjobs
    rwa [List.append_assoc, List.singleton_append] at hrest

theorem recover_recovers {capacity : Nat} {found : List (κ × JobReadings)}
    {recovery : PublishQueueRecovery} (h : recover host capacity disk found = .ok recovery) :
    Recovers host disk (found.map Prod.fst) recovery ∧ recovery.pending.length ≤ capacity := by
  obtain ⟨recovery', hjobs, h⟩ := bind_eq_ok.1 h
  obtain ⟨hroom, h⟩ := ensure_bind_eq_ok.1 h
  obtain rfl := pure_eq_ok.1 h
  have hrecovers := recoverJobs_recovers Recovers.start hjobs
  rw [List.nil_append] at hrecovers
  exact ⟨hrecovers, by simpa using hroom⟩

/-- No two directories hold requests of one plan. -/
def Unique (disk : Disk κ) : Prop :=
  ∀ root root' r r', (disk.files root).request = some r → (disk.files root').request = some r' →
    r.planId = r'.planId → root = root'

/-- A directory that is recovered if there is no other. -/
def Recoverable (host : Host κ) (jobRoot : κ) (readings : JobReadings) (files : JobFiles) : Prop :=
  ∃ next, recoverJob host .empty jobRoot readings files = .ok next

/-- Beside other jobs it is recovered as well, unless its plan is one of theirs. -/
theorem Recoverable.recoverJob {jobRoot : κ} {readings : JobReadings} {files : JobFiles}
    (h : Recoverable host jobRoot readings files) {recovery : PublishQueueRecovery}
    (hnew : ∀ r, files.request = some r → recovery.states.get r.planId = none) :
    recoverJob host recovery jobRoot readings files = .ok (files.request.elim recovery fun r =>
      recovery.add r files (files.snapshot r)) := by
  obtain ⟨next, h⟩ := h
  unfold Queue.recoverJob at h ⊢
  cases hrequest : files.request with
  | none =>
    rw [hrequest] at h
    dsimp only at h ⊢
    split at h
    · cases h
    · next hunmarked =>
      rw [if_neg hunmarked]
      rfl
  | some r =>
    rw [hrequest] at h
    obtain ⟨_, hcheck, h⟩ := bind_eq_ok.1 h
    obtain ⟨hroot, h⟩ := ensure_bind_eq_ok.1 h
    obtain ⟨_, h⟩ := ensure_bind_eq_ok.1 h
    obtain ⟨snapshot, hsnapshot, _⟩ := bind_eq_ok.1 h
    obtain rfl := recoverSnapshot_ok hsnapshot
    refine bind_eq_ok.2 ⟨_, hcheck, ensure_bind_eq_ok.2 ⟨hroot, ensure_bind_eq_ok.2 ⟨?_, ?_⟩⟩⟩
    · rw [hnew r hrequest]
      rfl
    · exact bind_eq_ok.2 ⟨_, hsnapshot, rfl⟩

/-- Directories that are recovered one by one, with a plan of its own each, are so together. -/
theorem recoverJobs_ok (hunique : Unique disk) {matching : Nat} {found : List (κ × JobReadings)}
    (hnodup : (found.map Prod.fst).Nodup) (hfew : matching + found.length ≤ maxJobDirectories)
    (hfound : ∀ e ∈ found, Recoverable host e.1 e.2 (disk.files e.1))
    {recovery : PublishQueueRecovery}
    (hnew : ∀ e ∈ found, ∀ r, (disk.files e.1).request = some r →
      recovery.states.get r.planId = none) :
    ∃ recovery', recoverJobs host disk matching recovery found = .ok recovery' := by
  induction found generalizing matching recovery with
  | nil => exact ⟨recovery, rfl⟩
  | cons e found ih =>
    rw [List.length_cons] at hfew
    rw [List.map_cons, List.nodup_cons] at hnodup
    obtain ⟨hrecoverable, hfound⟩ := List.forall_mem_cons.1 hfound
    obtain ⟨hnewJob, hnew⟩ := List.forall_mem_cons.1 hnew
    have hnext : ∀ e' ∈ found, ∀ r', (disk.files e'.1).request = some r' →
        ((disk.files e.1).request.elim recovery fun r =>
          recovery.add r (disk.files e.1) ((disk.files e.1).snapshot r)).states.get r'.planId =
            none := by
      intro e' he' r' hr'
      cases hrequest : (disk.files e.1).request with
      | none => exact hnew e' he' r' hr'
      | some r =>
        have hplan : r'.planId ≠ r.planId := fun heq => hnodup.1
          (hunique _ _ r' r hr' hrequest heq ▸ List.mem_map_of_mem he')
        exact (Dict.get_set_other _ _ hplan).trans (hnew e' he' r' hr')
    obtain ⟨recovery', hrest⟩ := ih hnodup.2 (by omega : matching + 1 + found.length ≤ _) hfound
      hnext
    refine ⟨recovery', ensure_bind_eq_ok.2 ⟨decide_eq_true (by omega), ?_⟩⟩
    exact bind_eq_ok.2 ⟨_, hrecoverable.recoverJob hnewJob, hrest⟩

/-- And the whole recovery goes through if there is room for the pending ones. -/
theorem recover_ok (hunique : Unique disk) {capacity : Nat} {found : List (κ × JobReadings)}
    (hnodup : (found.map Prod.fst).Nodup) (hfew : found.length ≤ maxJobDirectories)
    (hfound : ∀ e ∈ found, Recoverable host e.1 e.2 (disk.files e.1))
    (hroom : ((found.map Prod.fst).filterMap (pendingRequest disk)).length ≤ capacity) :
    ∃ recovery, recover host capacity disk found = .ok recovery := by
  have hnew : ∀ e ∈ found, ∀ r, (disk.files e.1).request = some r →
      PublishQueueRecovery.empty.states.get r.planId = none := fun _ _ _ _ => rfl
  obtain ⟨recovery, hjobs⟩ := recoverJobs_ok hunique hnodup
    ((Nat.zero_add _).le.trans hfew) hfound hnew
  have hrecovers := recoverJobs_recovers Recovers.start hjobs
  rw [List.nil_append] at hrecovers
  refine ⟨recovery, bind_eq_ok.2 ⟨recovery, hjobs, ensure_bind_eq_ok.2 ⟨?_, rfl⟩⟩⟩
  rw [hrecovers.pending]
  exact decide_eq_true hroom

end Recovering

section Operations

variable {κ : Type} [DecidableEq κ] {host : Host κ} {queue : PublishJobQueue} {disk : Disk κ}

/-- A disk on which something was recorded for a request, or nothing. -/
def Touches (host : Host κ) (r : PublishJobRequest) (disk disk' : Disk κ) : Prop :=
  ∃ files', Recorded r (disk.files (host.jobRoot r.manifestPath)) files' ∧
    disk'.files = Function.update disk.files (host.jobRoot r.manifestPath) files'

theorem files_set (disk : Disk κ) (root : κ) (files : JobFiles) :
    Disk.files (disk.set root files) = Function.update disk.files root files := by
  funext root'
  simp only [Disk.files, Dict.get_set, Function.update_apply, @eq_comm _ root]
  split
  · rfl
  · rfl

theorem touches_of_recorded {r : PublishJobRequest} {files' : JobFiles}
    (h : Recorded r (disk.files (host.jobRoot r.manifestPath)) files') :
    Touches host r disk (disk.set (host.jobRoot r.manifestPath) files') :=
  ⟨files', h, files_set disk _ files'⟩

theorem Touches.refl (r : PublishJobRequest) : Touches host r disk disk :=
  ⟨_, .same, (Function.update_eq_self _ _).symm⟩

/-- How an attempt to queue a request ends. -/
inductive Enqueued (host : Host κ) (queue : PublishJobQueue) (disk : Disk κ)
    (r : PublishJobRequest) : Except Stop Unit × PublishJobQueue × Disk κ → Prop
  | refused (stop : Stop) (disk' : Disk κ) (hdisk : Touches host r disk disk') :
      Enqueued host queue disk r (.error stop, queue, disk')
  | queued (hroom : queue.pending.length < queue.capacity)
      (hnew : queue.states.get r.planId = none)
      (hempty : disk.files (host.jobRoot r.manifestPath) = .empty) :
      Enqueued host queue disk r (.ok (), { queue with
        pending := queue.pending ++ [r]
        states := queue.states.set r.planId ⟨r.planId, .pending, none⟩
        manifestHashes := queue.manifestHashes.set r.planId r.manifestSha256 },
        disk.set (host.jobRoot r.manifestPath) { JobFiles.empty with request := some r })

theorem tryEnqueue_enqueued (writing : Writing) (queue : PublishJobQueue) (disk : Disk κ)
    (r : PublishJobRequest) :
    Enqueued host queue disk r (tryEnqueue host writing queue disk r) := by
  unfold tryEnqueue
  split
  · exact .refused _ _ (.refl r)
  · next hroom =>
    split
    · exact .refused _ _ (.refl r)
    · next hnew =>
      split
      · next stop disk' h =>
        obtain rfl := (Prod.mk.inj h).2
        exact .refused _ _ (touches_of_recorded (recordPending_recorded writing _ r))
      · next disk' h =>
        obtain ⟨hok, rfl⟩ := Prod.mk.inj h
        obtain ⟨hempty, hfiles⟩ := recordPending_ok hok
        rw [hfiles, hempty]
        exact .queued (not_le.1 hroom) (by simpa using hnew) hempty

/-- How an attempt to cancel a plan ends. -/
inductive CancelEnded (host : Host κ) (queue : PublishJobQueue) (disk : Disk κ)
    (planId : String) : Except Stop Unit × PublishJobQueue × Disk κ → Prop
  | refused (stop : Stop) (r : PublishJobRequest) (disk' : Disk κ)
      (hdisk : Touches host r disk disk') :
      CancelEnded host queue disk planId (.error stop, queue, disk')
  | already (hstate : stateOf queue.states planId = some .cancelled) :
      CancelEnded host queue disk planId (.ok (), queue, disk)
  | cancelled (r : PublishJobRequest) (snapshot : PublishJobSnapshot)
      (hmem : r ∈ queue.pending) (hplan : r.planId = planId)
      (hstate : stateOf queue.states planId = some .pending)
      (hrequest : ∃ persisted, (disk.files (host.jobRoot r.manifestPath)).request =
        some persisted ∧ persisted.planId = planId)
      (hstarted : (disk.files (host.jobRoot r.manifestPath)).started = none)
      (hsnapshot : snapshot.state = .cancelled) (disk' : Disk κ)
      (hdisk : Touches host r disk disk')
      (hfiles : disk'.files = Function.update disk.files (host.jobRoot r.manifestPath)
        { disk.files (host.jobRoot r.manifestPath) with cancelled := some (marker r) }) :
      CancelEnded host queue disk planId (.ok (), { queue with
        pending := withoutPlan (some planId) queue.pending
        states := queue.states.set planId snapshot }, disk')

theorem tryCancelPending_ended (reading existingReading : Reading) (writing : Writing)
    (queue : PublishJobQueue) (disk : Disk κ) (planId manifestSha256 : Option String) :
    CancelEnded host queue disk (planId.getD "")
      (tryCancelPending host reading existingReading writing queue disk planId
        manifestSha256) := by
  have hrefused (stop : Stop) :
      CancelEnded host queue disk (planId.getD "") (.error stop, queue, disk) :=
    .refused stop ⟨"", "", "", "", "", 0⟩ disk (.refl _)
  unfold tryCancelPending
  split
  · next snapshot _ hsnapshot _ =>
    have hstate : stateOf queue.states (planId.getD "") = some snapshot.state := by
      simp [stateOf, hsnapshot]
    split
    · exact hrefused _
    · split
      · next hcancelled => exact .already (hcancelled ▸ hstate)
      · split
        · exact hrefused _
        · next hpending =>
          split
          · exact hrefused _
          · next r hfind =>
            have hplan : some r.planId = planId := by
              simpa using List.find?_some hfind
            subst hplan
            split
            · next stop disk' h =>
              obtain rfl := (Prod.mk.inj h).2
              exact .refused _ r _ (touches_of_recorded
                (recordCancelled_recorded reading existingReading writing _ r))
            · next disk' h =>
              obtain ⟨hok, rfl⟩ := Prod.mk.inj h
              obtain ⟨hrequest, hstarted, _, hfiles⟩ := recordCancelled_ok hok
              refine .cancelled r _ (List.mem_of_find?_eq_some hfind) rfl ?_ hrequest hstarted rfl
                _ (touches_of_recorded
                  (recordCancelled_recorded reading existingReading writing _ r)) ?_
              · exact hstate.trans (congrArg some (not_not.1 hpending))
              · rw [files_set, hfiles]
  · exact hrefused _

/-- How an attempt to start the next job ends. -/
inductive StartEnded (host : Host κ) (queue : PublishJobQueue) (disk : Disk κ) :
    Except Stop PublishJobRequest × PublishJobQueue × Disk κ → Prop
  | refused (stop : Stop) (r : PublishJobRequest) (disk' : Disk κ)
      (hdisk : Touches host r disk disk') : StartEnded host queue disk (.error stop, queue, disk')
  | failed (r : PublishJobRequest) (pending : List PublishJobRequest)
      (hpending : queue.pending = r :: pending) (error : String) (disk' : Disk κ)
      (hdisk : Touches host r disk disk') :
      StartEnded host queue disk (.error (.refused error),
        { queue with pending }.setState r.planId .failed fun _ => some error, disk')
  | started (r : PublishJobRequest) (pending : List PublishJobRequest)
      (hpending : queue.pending = r :: pending) (files' : JobFiles)
      (hstarted : Started r (disk.files (host.jobRoot r.manifestPath)) files') :
      StartEnded host queue disk (.ok r,
        { queue with pending }.setState r.planId .running id,
        disk.set (host.jobRoot r.manifestPath) files')

theorem tryStartNext_ended (reading : Reading) (writing : Writing) (queue : PublishJobQueue)
    (disk : Disk κ) :
    StartEnded host queue disk (tryStartNext host reading writing queue disk) := by
  unfold tryStartNext
  split
  · exact .refused _ ⟨"", "", "", "", "", 0⟩ _ (.refl _)
  · next r pending hpending =>
    split
    · next disk' h =>
      obtain rfl := (Prod.mk.inj h).2
      exact .refused _ r _ (touches_of_recorded (recordStarted_recorded reading writing _ r))
    · next error disk' h =>
      obtain rfl := (Prod.mk.inj h).2
      exact .failed r pending hpending error _
        (touches_of_recorded (recordStarted_recorded reading writing _ r))
    · next disk' h =>
      obtain ⟨hok, rfl⟩ := Prod.mk.inj h
      exact .started r pending hpending _ (recordStarted_ok hok)

theorem setState_states {states : Dict String PublishJobSnapshot} {planId : String}
    {snapshot : PublishJobSnapshot} (hstates : queue.states = states)
    (hget : states.get planId = some snapshot) (state : PublishJobState)
    (error : Option String → Option String) :
    stateOf (queue.setState planId state error).states =
      Function.update (stateOf states) planId (some state) := by
  subst hstates
  rw [PublishJobQueue.setState, hget]
  exact stateOf_set _ _ _

theorem setState_same (planId : String) (state : PublishJobState)
    (error : Option String → Option String) :
    (queue.setState planId state error).pending = queue.pending ∧
      (queue.setState planId state error).capacity = queue.capacity ∧
      (queue.setState planId state error).recoveredOnStartup = queue.recoveredOnStartup := by
  unfold PublishJobQueue.setState
  split
  · exact ⟨rfl, rfl, rfl⟩
  · exact ⟨rfl, rfl, rfl⟩

theorem map_withoutPlan (planId : String) (pending : List PublishJobRequest) :
    (withoutPlan (some planId) pending).map PublishJobRequest.planId =
      (pending.map PublishJobRequest.planId).erase planId := by
  induction pending with
  | nil => rfl
  | cons r pending ih =>
    rw [withoutPlan, List.map_cons, List.erase_cons]
    by_cases h : r.planId = planId
    · rw [if_pos (by simp [h]), if_pos (by simp [h])]
    · rw [if_neg (by simp [h]), if_neg (by simp [h]), List.map_cons, ih]

end Operations

section Steps

variable {κ : Type} [DecidableEq κ] {host : Host κ} {w w' : World κ} {e : Event κ}

/-- What the steps can do. -/
inductive Moved (host : Host κ) (w : World κ) : Event κ → World κ → Prop
  | refused (hnone : w.session = none) (capacity : Int) (hasReceiptWriter : Bool)
      (found : List (κ × JobReadings)) : Moved host w (.restart capacity hasReceiptWriter found) w
  | restarted (hnone : w.session = none) (capacity : Int) (hasReceiptWriter : Bool)
      (found : List (κ × JobReadings)) (queue : PublishJobQueue)
      (hqueue : newQueue host capacity w.disk found = .ok queue) :
      Moved host w (.restart capacity hasReceiptWriter found)
        { w with session := some ⟨queue, .idle, hasReceiptWriter⟩ }
  | crashed : Moved host w .crash { w with session := none }
  | enqueued (s : Session) (hs : w.session = some s) (r : PublishJobRequest) (writing : Writing)
      (out : Except Stop Unit × PublishJobQueue × Disk κ)
      (hout : tryEnqueue host writing s.queue w.disk r = out) :
      Moved host w (.enqueue r writing)
        { w with disk := out.2.2, session := some { s with queue := out.2.1 } }
  | cancelled (s : Session) (hs : w.session = some s) (planId manifestSha256 : Option String)
      (reading existingReading : Reading) (writing : Writing)
      (out : Except Stop Unit × PublishJobQueue × Disk κ)
      (hout : tryCancelPending host reading existingReading writing s.queue w.disk planId
        manifestSha256 = out) :
      Moved host w (.cancel planId manifestSha256 reading existingReading writing)
        { w with
          disk := out.2.2
          session := some { s with queue := out.2.1 }
          cancellations :=
            if out.1 = .ok () then w.cancellations ++ [planId.getD ""] else w.cancellations }
  | started (queue : PublishJobQueue) (hasReceiptWriter : Bool)
      (hs : w.session = some ⟨queue, .idle, hasReceiptWriter⟩) (reading : Reading)
      (writing : Writing) (out : Except Stop PublishJobRequest × PublishJobQueue × Disk κ)
      (hout : tryStartNext host reading writing queue w.disk = out) :
      Moved host w (.startNext reading writing)
        { w with disk := out.2.2, session := some ⟨out.2.1, .ofStart out.1, hasReceiptWriter⟩ }
  | executing (queue : PublishJobQueue) (r : PublishJobRequest) (hasReceiptWriter : Bool)
      (hs : w.session = some ⟨queue, .started r, hasReceiptWriter⟩) :
      Moved host w .execute
        { w with
          session := some ⟨queue, .executing r, hasReceiptWriter⟩
          executions := w.executions ++ [r] }
  | executed (queue : PublishJobQueue) (r : PublishJobRequest) (hasReceiptWriter : Bool)
      (hs : w.session = some ⟨queue, .executing r, hasReceiptWriter⟩) (execution : Execution) :
      Moved host w (.executorReturn execution)
        { w with session := some ⟨queue, .executed r execution.result, hasReceiptWriter⟩ }
  | written (queue : PublishJobQueue) (r : PublishJobRequest) (execution : PublishExecutionResult)
      (hs : w.session = some ⟨queue, .executed r execution, true⟩) (turn : ReceiptTurn)
      (out : Option String × JobFiles)
      (hout : writeReceipt turn (w.disk.files (host.jobRoot r.manifestPath)) r execution = out) :
      Moved host w (.receipt turn)
        { w with
          disk := w.disk.set (host.jobRoot r.manifestPath) out.2
          session := some ⟨queue, .recorded r
            (out.1.elim execution fun error => .failure (some error)), true⟩ }
  | unwritten (queue : PublishJobQueue) (r : PublishJobRequest)
      (execution : PublishExecutionResult)
      (hs : w.session = some ⟨queue, .executed r execution, false⟩) (turn : ReceiptTurn) :
      Moved host w (.receipt turn)
        { w with session := some ⟨queue, .recorded r execution, false⟩ }
  | completed (queue : PublishJobQueue) (r : PublishJobRequest)
      (execution : PublishExecutionResult) (hasReceiptWriter : Bool)
      (hs : w.session = some ⟨queue, .recorded r execution, hasReceiptWriter⟩) :
      Moved host w .complete
        { w with
          session := some ⟨(complete queue r.planId execution.succeeded execution.error).2, .idle,
            hasReceiptWriter⟩ }

theorem step_moved (hstep : step host w e = some w') : Moved host w e w' := by
  cases e with
  | restart capacity hasReceiptWriter found =>
    rw [step] at hstep
    split at hstep
    · cases hstep
    · next hnone =>
      split at hstep
      · next queue hqueue =>
        obtain rfl := Option.some.inj hstep
        exact .restarted hnone capacity hasReceiptWriter found queue hqueue
      · obtain rfl := Option.some.inj hstep
        exact .refused hnone capacity hasReceiptWriter found
  | crash =>
    obtain ⟨s, _, rfl⟩ := Option.map_eq_some_iff.1 hstep
    exact .crashed
  | enqueue r writing =>
    obtain ⟨s, hs, rfl⟩ := Option.map_eq_some_iff.1 hstep
    exact .enqueued s hs r writing _ rfl
  | cancel planId manifestSha256 reading existingReading writing =>
    obtain ⟨s, hs, rfl⟩ := Option.map_eq_some_iff.1 hstep
    exact .cancelled s hs planId manifestSha256 reading existingReading writing _ rfl
  | startNext reading writing =>
    rw [step] at hstep
    split at hstep
    · next queue hasReceiptWriter hs =>
      obtain rfl := Option.some.inj hstep
      exact .started queue hasReceiptWriter hs reading writing _ rfl
    · cases hstep
  | execute =>
    rw [step] at hstep
    split at hstep
    · next queue r hasReceiptWriter hs =>
      obtain rfl := Option.some.inj hstep
      exact .executing queue r hasReceiptWriter hs
    · cases hstep
  | executorReturn execution =>
    rw [step] at hstep
    split at hstep
    · next queue r hasReceiptWriter hs =>
      obtain rfl := Option.some.inj hstep
      exact .executed queue r hasReceiptWriter hs execution
    · cases hstep
  | receipt turn =>
    rw [step] at hstep
    split at hstep
    · next queue r execution hs =>
      obtain rfl := Option.some.inj hstep
      exact .written queue r execution hs turn _ rfl
    · next queue r execution hs =>
      obtain rfl := Option.some.inj hstep
      exact .unwritten queue r execution hs turn
    · cases hstep
  | complete =>
    rw [step] at hstep
    split at hstep
    · next queue r execution hasReceiptWriter hs =>
      obtain rfl := Option.some.inj hstep
      exact .completed queue r execution hasReceiptWriter hs
    · cases hstep

end Steps

end CadPlot.Publish.Queue
