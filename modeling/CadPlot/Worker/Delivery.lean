import CadPlot.Gateway.MemorySpec
import CadPlot.Lib.Outcome
import CadPlot.Worker.Runner

/-!
# When a result gets through

What a call of the repository does with a result that applies to its operation,
and with one that has been applied already. A call that a stored result makes
then moves from one question to the next as long as its answers come in time.
-/

namespace CadPlot.Worker

open Gateway Gateway.Replay Gateway.Ingress Gateway.Service Gateway.InMemory
open InMemoryGatewayRepository

/-- The repository holds the outcome that the result asks for. -/
def Settled (repo : InMemoryGatewayRepository) (p : CompleteCall) : Prop :=
  resultNeedsApplication p (catalogOf repo) (repo.operations.get p.correlation.operationId) =
    .ok false

/-- The repository call that a result makes for an operation. -/
def Asked (p : CompleteCall) (op : OperationRecord) (rc : RepositoryCall) : Prop :=
  match p.envelope.result with
  | .error _ code attentionRequired =>
    rc = .finishOperation (failureTarget op code attentionRequired).1
      (failureTarget op code attentionRequired).2
  | result => ∃ adapted projects drawings, gatewayResult result = .ok adapted ∧
      projectRecords p.correlation result = .ok projects ∧
      drawingRecords p.correlation result = .ok drawings ∧
      rc = .applyWorkerSuccess adapted projects drawings

/-- A running operation that accepts the result while it lasts. -/
structure Applicable (repo : InMemoryGatewayRepository) (now : Int) (p : CompleteCall)
    (op : OperationRecord) (rc : RepositoryCall) : Prop where
  stored : repo.operations.get p.correlation.operationId = some op
  valid : op.Valid
  onClock : OnClock op now
  expiry : op.expiresAt = p.correlation.operationExpiresAt
  needs : resultNeedsApplication p (catalogOf repo) (some op) = .ok true
  prepared : prepareResult p (catalogOf repo) (some op) = .ok (some rc)
  accepted : ∀ result projects drawings, rc = .applyWorkerSuccess result projects drawings →
    repo.validateWorkerCatalogApplication op result projects drawings = .ok ()

/-- The operation is the worker's own. -/
structure Owned (catalog : Catalog) (p : CompleteCall) (op : OperationRecord) : Prop where
  workstation : ∃ w, requireWorkerWorkstation p.worker catalog = .ok w
  tenant : op.tenantId = p.worker.tenantId
  device : op.workstationId = p.worker.workstationId

/-- The outcome that the result asks for, on the record. -/
def Recorded (p : CompleteCall) (op : OperationRecord) : Prop :=
  match p.envelope.result with
  | .error _ code attentionRequired =>
    op.state = (failureTarget op code attentionRequired).1 ∧
      op.errorCode = some (failureTarget op code attentionRequired).2
  | result => ∃ adapted, gatewayResult result = .ok adapted ∧ op.state = .succeeded ∧
      op.result = some adapted

section Service

variable {p : CompleteCall} {catalog : Catalog} {stored : Option OperationRecord}
  {op : OperationRecord}

theorem requireWorkerOperation_eq {worker : WorkerContext} :
    requireWorkerOperation worker stored = .ok op ↔
      stored = some op ∧ op.tenantId = worker.tenantId ∧ op.workstationId = worker.workstationId := by
  unfold requireWorkerOperation
  cases stored with
  | none => simp
  | some record =>
    simp only [Option.some.injEq]
    split
    · next h =>
      constructor
      · intro heq
        obtain rfl := Except.ok.inj heq
        exact ⟨rfl, h⟩
      · rintro ⟨rfl, _⟩
        rfl
    · next h =>
      constructor
      · intro heq
        cases heq
      · rintro ⟨rfl, h'⟩
        exact absurd h' h

/-- The state that a failure asks for is never that of a running operation. -/
theorem failureTarget_ne_running (op : OperationRecord) (code : SafeCode) (attention : Bool) :
    (failureTarget op code attention).1 ≠ .running := by
  unfold failureTarget
  split <;> simp

theorem needsFailure_iff {worker : WorkerContext} {code : SafeCode} {attention needs : Bool} :
    workerFailureNeedsApplication worker catalog stored code attention = .ok needs ↔
      ∃ op, stored = some op ∧ (∃ w, requireWorkerWorkstation worker catalog = .ok w) ∧
        op.tenantId = worker.tenantId ∧ op.workstationId = worker.workstationId ∧
        ((needs = true ∧ op.state = .running) ∨
          (needs = false ∧ op.state = (failureTarget op code attention).1 ∧
            op.errorCode = some (failureTarget op code attention).2)) := by
  unfold workerFailureNeedsApplication
  simp only [bind_eq_ok, requireWorkerOperation_eq]
  constructor
  · rintro ⟨w, hw, op, ⟨hstored, htenant, hdevice⟩, h⟩
    refine ⟨op, hstored, ⟨w, hw⟩, htenant, hdevice, ?_⟩
    split at h
    · next hstate =>
      split at h
      · next hcode => exact .inr ⟨(Except.ok.inj h).symm, hstate, hcode⟩
      · cases h
    · split at h
      · cases h
      · next hrunning => exact .inl ⟨(Except.ok.inj h).symm, not_not.1 hrunning⟩
  · rintro ⟨op, hstored, ⟨w, hw⟩, htenant, hdevice, h⟩
    refine ⟨w, hw, op, ⟨hstored, htenant, hdevice⟩, ?_⟩
    obtain ⟨rfl, hrunning⟩ | ⟨rfl, hstate, hcode⟩ := h
    · have hne : op.state ≠ (failureTarget op code attention).1 := by
        rw [hrunning]
        exact (failureTarget_ne_running op code attention).symm
      rw [if_neg hne, if_neg (not_not_intro hrunning)]
      rfl
    · rw [if_pos hstate, if_pos hcode]
      rfl

theorem needsResult_iff {worker : WorkerContext} {adapted : TaskResult} {needs : Bool} :
    workerResultNeedsApplication worker catalog stored adapted = .ok needs ↔
      ∃ op, stored = some op ∧ (∃ w, requireWorkerWorkstation worker catalog = .ok w) ∧
        op.tenantId = worker.tenantId ∧ op.workstationId = worker.workstationId ∧
        ((needs = true ∧ op.state = .running ∧
            validatePreapplicationResultBinding catalog op adapted = .ok ()) ∨
          (needs = false ∧ op.state = .succeeded ∧ op.result = some adapted)) := by
  unfold workerResultNeedsApplication
  simp only [bind_eq_ok, requireWorkerOperation_eq]
  constructor
  · rintro ⟨w, hw, op, ⟨hstored, htenant, hdevice⟩, h⟩
    refine ⟨op, hstored, ⟨w, hw⟩, htenant, hdevice, ?_⟩
    split at h
    · next hstate =>
      split at h
      · next hresult => exact .inr ⟨(Except.ok.inj h).symm, hstate, hresult⟩
      · cases h
    · split at h
      · cases h
      · next hrunning =>
        obtain ⟨_, hvalid, h⟩ := bind_eq_ok.1 h
        exact .inl ⟨(Except.ok.inj h).symm, not_not.1 hrunning, hvalid⟩
  · rintro ⟨op, hstored, ⟨w, hw⟩, htenant, hdevice, h⟩
    refine ⟨w, hw, op, ⟨hstored, htenant, hdevice⟩, ?_⟩
    obtain ⟨rfl, hrunning, hvalid⟩ | ⟨rfl, hstate, hresult⟩ := h
    · rw [if_neg (by rw [hrunning]; simp), if_neg (not_not_intro hrunning)]
      exact bind_eq_ok.2 ⟨(), hvalid, rfl⟩
    · rw [if_pos hstate, if_pos hresult]
      rfl

/-- Whether a result needs its application, by what its operation records. -/
theorem needsApplication_iff {needs : Bool} :
    resultNeedsApplication p catalog stored = .ok needs ↔
      ∃ op, stored = some op ∧ Owned catalog p op ∧
        ((needs = true ∧ op.state = .running ∧ (p.envelope.result.isError = false →
            ∃ adapted, gatewayResult p.envelope.result = .ok adapted ∧
              validatePreapplicationResultBinding catalog op adapted = .ok ())) ∨
          (needs = false ∧ Recorded p op)) := by
  have hsuccess : p.envelope.result.isError = false →
      (resultNeedsApplication p catalog stored = .ok needs ↔
        ∃ adapted, gatewayResult p.envelope.result = .ok adapted ∧
          workerResultNeedsApplication p.worker catalog stored adapted = .ok needs) := by
    intro herror
    unfold resultNeedsApplication
    cases hresult : p.envelope.result with
    | error action code attention => simp [hresult, RemoteResult.isError] at herror
    | _ =>
      cases hadapted : gatewayResult p.envelope.result with
      | error code => simp [← hresult, hadapted]
      | ok adapted => simp [← hresult, hadapted, mapError_eq_ok]
  cases hresult : p.envelope.result with
  | error action code attention =>
    simp only [resultNeedsApplication, hresult, mapError_eq_ok, needsFailure_iff, Recorded,
      RemoteResult.isError]
    constructor
    · rintro ⟨op, hstored, hw, htenant, hdevice, h⟩
      exact ⟨op, hstored, ⟨hw, htenant, hdevice⟩, h.imp_left fun h => ⟨h.1, h.2, by simp⟩⟩
    · rintro ⟨op, hstored, howned, h⟩
      exact ⟨op, hstored, howned.workstation, howned.tenant, howned.device,
        h.imp_left fun h => ⟨h.1, h.2.1⟩⟩
  | _ =>
    rw [hsuccess (by rw [hresult]; rfl)]
    simp only [needsResult_iff, Recorded, hresult, RemoteResult.isError]
    constructor
    · rintro ⟨adapted, hadapted, op, hstored, hw, htenant, hdevice, h⟩
      exact ⟨op, hstored, ⟨hw, htenant, hdevice⟩, h.imp
        (fun h => ⟨h.1, h.2.1, fun _ => ⟨adapted, hadapted, h.2.2⟩⟩)
        fun h => ⟨h.1, adapted, hadapted, h.2⟩⟩
    · rintro ⟨op, hstored, howned, ⟨hneeds, hrunning, hbound⟩ | ⟨hneeds, adapted, hadapted, h⟩⟩
      · obtain ⟨adapted, hadapted, hbinding⟩ := hbound trivial
        exact ⟨adapted, hadapted, op, hstored, howned.workstation, howned.tenant, howned.device,
          .inl ⟨hneeds, hrunning, hbinding⟩⟩
      · exact ⟨adapted, hadapted, op, hstored, howned.workstation, howned.tenant, howned.device,
          .inr ⟨hneeds, h⟩⟩

theorem settled_iff {repo : InMemoryGatewayRepository} : Settled repo p ↔
    ∃ op, repo.operations.get p.correlation.operationId = some op ∧
      Owned (catalogOf repo) p op ∧ Recorded p op := by
  simp [Settled, needsApplication_iff]

theorem prepareResult_asked {rc : RepositoryCall}
    (h : prepareResult p catalog (some op) = .ok (some rc)) : Asked p op rc := by
  unfold prepareResult at h
  cases hresult : p.envelope.result with
  | error action code attention =>
    simp only [hresult, mapError_eq_ok, workerFail, bind_eq_ok, requireWorkerOperation_eq,
      Option.some.injEq] at h
    obtain ⟨_, _, _, ⟨rfl, _⟩, h⟩ := h
    simp only [Asked, hresult]
    split at h
    · split at h <;> cases h
    · exact (Option.some.inj (Except.ok.inj h)).symm
  | _ =>
    simp only [hresult] at h
    split at h
    · cases h
    · next adapted projects drawings hrecords =>
      simp only [bind_eq_ok] at hrecords
      obtain ⟨adapted', hadapted, projects', hprojects, drawings', hdrawings, heq⟩ := hrecords
      obtain ⟨rfl, rfl, rfl⟩ : adapted' = adapted ∧ projects' = projects ∧
        drawings' = drawings := by simpa [pure, Except.pure] using heq
      rw [mapError_eq_ok] at h
      simp only [Asked, hresult]
      refine ⟨adapted', projects', drawings', hadapted, hprojects, hdrawings, ?_⟩
      cases hservice : workerApplySuccess p.worker catalog (some op) adapted' projects'
        drawings' with
      | error code => simp [hservice, Except.map] at h
      | ok rc' =>
        obtain rfl : rc' = rc := by simpa [hservice, Except.map] using h
        simp only [workerApplySuccess, bind_eq_ok] at hservice
        obtain ⟨_, _, _, _, hservice⟩ := hservice
        split at hservice
        · cases hservice
        · obtain ⟨_, _, hrc⟩ := bind_eq_ok.1 hservice
          exact (Except.ok.inj hrc).symm

theorem Asked.unique {rc rc' : RepositoryCall} (h : Asked p op rc) (h' : Asked p op rc') :
    rc = rc' := by
  cases hresult : p.envelope.result with
  | error action code attention =>
    simp only [Asked, hresult] at h h'
    exact h.trans h'.symm
  | _ =>
    simp only [Asked, hresult] at h h'
    obtain ⟨adapted, projects, drawings, ha, hp, hd, rfl⟩ := h
    obtain ⟨adapted', projects', drawings', ha', hp', hd', rfl⟩ := h'
    rw [ha] at ha'
    rw [hp] at hp'
    rw [hd] at hd'
    cases ha'
    cases hp'
    cases hd'
    rfl

end Service

section Repository

variable {repo : InMemoryGatewayRepository} {p : CompleteCall} {op : OperationRecord}
  {rc : RepositoryCall} {now : Int}

theorem refreshDue_terminal (h : op.state.isTerminal = true) (now : Int) :
    refreshDue op now = .ok (op, false) := by
  unfold refreshDue
  rw [if_neg (fun hc => by simp [hc.1, OperationState.isTerminal] at h),
    if_neg (fun hc => by simp [hc.1, OperationState.isTerminal] at h),
    if_neg (fun hc => by simp [hc.1, OperationState.isTerminal] at h)]

theorem refreshDue_running (hv : op.Valid) (hs : op.state = .running) (hnow : now < op.expiresAt) :
    refreshDue op now = .ok (op, false) := by
  rw [refreshDue_eq hv]
  have hnot : op.overdue now = none := by
    simp [OperationRecord.overdue, hs, Int.not_le.2 hnow]
  rw [hnot]

theorem store_same (h : repo.operations.get p.correlation.operationId = some op) :
    repo.store p.correlation.operationId op = repo := by
  simp only [InMemoryGatewayRepository.store, Dict.set_get _ h]

theorem failureTarget_terminal (op : OperationRecord) (code : SafeCode) (attention : Bool) :
    (failureTarget op code attention).1 = .failed ∨
      (failureTarget op code attention).1 = .attentionRequired := by
  unfold failureTarget
  split
  · exact .inr rfl
  · exact .inl rfl

theorem workerOwns_of (howned : Owned (catalogOf repo) p op) :
    workerOwns op p.worker.tenantId p.worker.workstationId = true := by
  simp [workerOwns, howned.tenant, howned.device]

/-- What a repository call makes of the operation that the result is for. -/
def outcomeOf (rc : RepositoryCall) (now : Int) (op : OperationRecord) : OperationRecord :=
  match rc with
  | .finishOperation state code => op.finished now state none (some code)
  | .applyWorkerSuccess result _ _ => op.finished now .succeeded (some result) none

theorem outcomeOf_recorded (hrc : Asked p op rc) : Recorded p (outcomeOf rc now op) := by
  cases hresult : p.envelope.result with
  | error action code attention =>
    simp only [Asked, hresult] at hrc
    subst hrc
    simp only [Recorded, hresult]
    exact ⟨rfl, rfl⟩
  | _ =>
    simp only [Asked, hresult] at hrc
    obtain ⟨adapted, projects, drawings, hadapted, _, _, rfl⟩ := hrc
    simp only [Recorded, hresult]
    exact ⟨adapted, hadapted, rfl, rfl⟩

theorem outcomeOf_owned {repo' : InMemoryGatewayRepository}
    (hcatalog : repo'.workstations = repo.workstations) (howned : Owned (catalogOf repo) p op) :
    Owned (catalogOf repo') p (outcomeOf rc now op) := by
  obtain ⟨⟨w, hw⟩, htenant, hdevice⟩ := howned
  refine ⟨⟨w, ?_⟩, ?_, ?_⟩
  · simpa [requireWorkerWorkstation, catalogOf, hcatalog] using hw
  · cases rc <;> exact htenant
  · cases rc <;> exact hdevice

/-- A repository call in time settles an operation that accepts the result. -/
theorem run_settles (h : Applicable repo now p op rc)
    (hnow : now < p.correlation.operationExpiresAt) : ∃ repo',
      runInMemory rc p.correlation.operationId p.worker now repo =
        (.ok ⟨.updated, some (outcomeOf rc now op)⟩, repo') ∧ Settled repo' p ∧
      repo'.operations.get p.correlation.operationId = some (outcomeOf rc now op) := by
  have hasked := prepareResult_asked h.prepared
  obtain ⟨_, hsome, howned, hcase⟩ := needsApplication_iff.1 h.needs
  obtain rfl := Option.some.inj hsome
  have hrunning : op.state = .running := (hcase.resolve_right (by simp)).2.1
  have href := refreshDue_running h.valid hrunning (h.expiry ▸ hnow)
  have howns := workerOwns_of howned
  have hsettled : ∀ repo' : InMemoryGatewayRepository, repo'.workstations = repo.workstations →
      repo'.operations.get p.correlation.operationId = some (outcomeOf rc now op) →
        Settled repo' p := fun repo' hcatalog hget =>
    settled_iff.2 ⟨_, hget, outcomeOf_owned hcatalog howned, outcomeOf_recorded hasked⟩
  cases rc with
  | finishOperation state code =>
    have hstate : state = .failed ∨ state = .attentionRequired := by
      cases hresult : p.envelope.result with
      | error action code' attention =>
        simp only [Asked, hresult, RepositoryCall.finishOperation.injEq] at hasked
        rw [hasked.1]
        exact failureTarget_terminal op code' attention
      | _ =>
        simp only [Asked, hresult] at hasked
        obtain ⟨_, _, _, _, _, _, hrc⟩ := hasked
        cases hrc
    have hshape : wellShaped op.task.command state none (some code) = true := by
      rcases hstate with rfl | rfl <;> simp [wellShaped]
    have hupdated : updated { op with
        state := state
        completedAt := some now
        result := none
        errorCode := some code } = .ok (op.finished now state none (some code)) :=
      updated_eq (finished_valid h.valid h.onClock hrunning hshape)
    have hfinish : finishOwned op now state none (some code) =
        .ok (.updated, op.finished now state none (some code)) := by
      simp [finishOwned, href, bind, Except.bind, hrunning, hupdated, Functor.map, Except.map]
    refine ⟨repo.store p.correlation.operationId (op.finished now state none (some code)), ?_,
      hsettled _ rfl (Dict.get_set_same ..), Dict.get_set_same ..⟩
    have hterminal : state = .succeeded ∨ state = .failed ∨ state = .attentionRequired :=
      .inr hstate
    simp [runInMemory, finishOperation, hterminal, transitionOwned, h.stored, howns, hfinish,
      outcomeOf]
  | applyWorkerSuccess result projects drawings =>
    have hvalidated := h.accepted result projects drawings rfl
    have hshape : wellShaped op.task.command .succeeded (some result) none = true := by
      simp [wellShaped, command_of_validated hvalidated]
    have hupdated : updated { op with
        state := .succeeded
        completedAt := some now
        result := some result
        errorCode := none } = .ok (op.finished now .succeeded (some result) none) :=
      updated_eq (finished_valid h.valid h.onClock hrunning hshape)
    let repo' : InMemoryGatewayRepository := { repo with
      projects := storeProjects repo.projects projects
      drawings := storeDrawings repo.drawings drawings }
    refine ⟨repo'.store p.correlation.operationId (op.finished now .succeeded (some result) none),
      ?_, hsettled _ rfl (Dict.get_set_same ..), Dict.get_set_same ..⟩
    simp [repo', runInMemory, applyWorkerSuccess, h.stored, howns, href, hrunning, hvalidated, hupdated,
      outcomeOf]

theorem Asked.of_task {op' : OperationRecord} (h : Asked p op rc) (htask : op'.task = op.task) :
    Asked p op' rc := by
  have htarget : ∀ code attention, failureTarget op' code attention =
      failureTarget op code attention := by
    intro code attention
    simp only [failureTarget, htask]
  cases hresult : p.envelope.result with
  | error action code attention =>
    simp only [Asked, hresult, htarget] at h ⊢
    exact h
  | _ =>
    simp only [Asked, hresult] at h ⊢
    exact h

theorem outcomeOf_task (rc : RepositoryCall) (now : Int) (op : OperationRecord) :
    (outcomeOf rc now op).task = op.task := by
  cases rc <;> rfl

theorem recorded_terminal (h : Recorded p op) : op.state.isTerminal = true := by
  cases hresult : p.envelope.result with
  | error action code attention =>
    simp only [Recorded, hresult] at h
    rw [h.1]
    obtain heq | heq := failureTarget_terminal op code attention <;> rw [heq] <;> rfl
  | _ =>
    simp only [Recorded, hresult] at h
    obtain ⟨_, _, hstate, _⟩ := h
    rw [hstate]
    rfl

/-- A repository call for a settled operation changes nothing. -/
theorem run_settled (h : Settled repo p)
    (hasked : ∀ op, repo.operations.get p.correlation.operationId = some op → Asked p op rc) :
    (runInMemory rc p.correlation.operationId p.worker now repo).2 = repo := by
  obtain ⟨op, hget, howned, hrecorded⟩ := settled_iff.1 h
  have hterminal := recorded_terminal hrecorded
  have href := refreshDue_terminal hterminal now
  have howns := workerOwns_of howned
  have hnot : op.state ≠ .running := by
    intro heq
    rw [heq] at hterminal
    cases hterminal
  cases rc with
  | finishOperation state code =>
    have hfinish : finishOwned op now state none (some code) = .ok (.invalidState, op) := by
      simp [finishOwned, href, bind, Except.bind, hnot, pure, Except.pure]
    simp only [runInMemory, finishOperation]
    split
    · simp [transitionOwned, hget, howns, hfinish, store_same hget]
    · rfl
  | applyWorkerSuccess result projects drawings =>
    have hasked' := hasked op hget
    have hstate : op.state = .succeeded := by
      cases hresult : p.envelope.result with
      | error action code attention => simp [Asked, hresult] at hasked'
      | _ =>
        simp only [Recorded, hresult] at hrecorded
        obtain ⟨_, _, hstate, _⟩ := hrecorded
        exact hstate
    simp only [runInMemory, applyWorkerSuccess, hget, howns, href, hstate, not_true_eq_false,
      Bool.false_eq_true, false_and, ↓reduceIte]
    split <;> rfl

end Repository

end CadPlot.Worker
