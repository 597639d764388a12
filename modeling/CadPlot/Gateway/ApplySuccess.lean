import CadPlot.Gateway.MemorySpec

/-!
# All or nothing of a worker success

What `apply_worker_success` can do to the in-memory repository, listed once, and
the one way in which it keeps catalog rows of a success that it refuses: the
rows are stored before the operation record is validated again, and a clock
before the start of the operation fails that validation.
-/

namespace CadPlot.Gateway.InMemory

open OperationRecord InMemoryGatewayRepository

/-- The arguments of one worker success. -/
structure WorkerSuccess where
  operationId : OperationId
  tenantId : TenantId
  workstationId : WorkstationId
  result : TaskResult
  projects : List ProjectRecord
  drawings : List DrawingRecord

namespace WorkerSuccess

def apply (w : WorkerSuccess) (now : Int) (repo : InMemoryGatewayRepository) :
    Call TransitionOutcome :=
  repo.applyWorkerSuccess w.operationId w.tenantId w.workstationId now w.result w.projects
    w.drawings

def validated (w : WorkerSuccess) (r : OperationRecord) (repo : InMemoryGatewayRepository) :
    Except String Unit :=
  repo.validateWorkerCatalogApplication r w.result w.projects w.drawings

/-- The repository once the catalog rows are stored. -/
def catalog (w : WorkerSuccess) (repo : InMemoryGatewayRepository) : InMemoryGatewayRepository :=
  { repo with
    projects := storeProjects repo.projects w.projects
    drawings := storeDrawings repo.drawings w.drawings }

/-- The row of the operation, if the worker owns it. -/
structure Finds (w : WorkerSuccess) (repo : InMemoryGatewayRepository) (r : OperationRecord) :
    Prop where
  stored : repo.operations.get w.operationId = some r
  owned : workerOwns r w.tenantId w.workstationId = true

/-- Every way in which a worker success ends. -/
inductive Ends (w : WorkerSuccess) (now : Int) (repo : InMemoryGatewayRepository) :
    Call TransitionOutcome → Prop where
  | absent : (∀ r, ¬w.Finds repo r) → w.Ends now repo (.ok ⟨.notFound, none⟩, repo)
  | due {r r' : OperationRecord} {status : TransitionStatus} : w.Finds repo r →
      r.overdue now = some r' → status ≠ .updated →
      w.Ends now repo (.ok ⟨status, some r'⟩, repo.store w.operationId r')
  | repeated {r : OperationRecord} : w.Finds repo r → r.state = .succeeded →
      r.result = some w.result → w.Ends now repo (.ok ⟨.updated, some r⟩, repo)
  | closed {r : OperationRecord} : w.Finds repo r → r.state ≠ .running →
      w.Ends now repo (.ok ⟨.invalidState, some r⟩, repo)
  | refused {r : OperationRecord} {code : String} : w.Finds repo r → r.state = .running →
      w.validated r repo = .error code → w.Ends now repo (.error (.value code), repo)
  | early {r : OperationRecord} {code : String} {s : Int} : w.Finds repo r →
      r.state = .running → r.startedAt = some s → now < s → w.validated r repo = .ok () →
      w.Ends now repo (.error (.validation code), w.catalog repo)
  | applied {r : OperationRecord} {s : Int} : w.Finds repo r → r.state = .running →
      r.startedAt = some s → s ≤ now → w.validated r repo = .ok () →
      w.Ends now repo (.ok ⟨.updated, some (r.finished now .succeeded (some w.result) none)⟩,
        (w.catalog repo).store w.operationId (r.finished now .succeeded (some w.result) none))

end WorkerSuccess

/-- Every stored operation is a record its validator accepts. -/
def ValidRows (repo : InMemoryGatewayRepository) : Prop :=
  ∀ id r, repo.operations.get id = some r → r.Valid

variable {w : WorkerSuccess} {now : Int} {repo : InMemoryGatewayRepository} {r : OperationRecord}

theorem updated_error (h : ¬r.Valid) : ∃ code, updated r = .error code := by
  cases hv : r.validateStateShape with
  | ok u => exact absurd hv h
  | error code => exact ⟨code, by simp [updated, hv, bind, Except.bind]⟩

/-- A running operation that is no earlier than its start can succeed with an accepted result. -/
theorem succeeded_valid {s : Int} (hv : r.Valid) (hs : r.state = .running)
    (hst : r.startedAt = some s) (hle : s ≤ now) (hval : w.validated r repo = .ok ()) :
    (r.finished now .succeeded (some w.result) none).Valid := by
  obtain ⟨s', hst', hcs, _⟩ := hv.running hs
  have hss : s = s' := Option.some.inj (hst.symm.trans hst')
  have hclock : OnClock r now := by
    refine ⟨by omega, fun x hx => ?_⟩
    have hxs : s = x := Option.some.inj (hst.symm.trans hx)
    omega
  have hshape : wellShaped r.task.command .succeeded (some w.result) none = true := by
    simp [wellShaped, command_of_validated hval]
  exact finished_valid hv hclock hs hshape

/-- A running operation cannot be completed before its start. -/
theorem finished_early {s : Int} {result : Option TaskResult} (hst : r.startedAt = some s)
    (hnow : now < s) : ¬(r.finished now .succeeded result none).Valid := by
  intro hv
  have horder := (Valid.deadlines hv).order now rfl s hst
  omega

theorem running_not_overdue {s : Int} (hv : r.Valid) (hs : r.state = .running)
    (hst : r.startedAt = some s) (hnow : now < s) : r.overdue now = none := by
  obtain ⟨s', hst', _, hexp, _⟩ := hv.running hs
  have hss : s = s' := Option.some.inj (hst.symm.trans hst')
  have hlt : ¬r.expiresAt ≤ now := by omega
  simp [OperationRecord.overdue, hs, hlt]

theorem apply_ends (hv : ValidRows repo) (w : WorkerSuccess) (now : Int) :
    w.Ends now repo (w.apply now repo) := by
  unfold WorkerSuccess.apply applyWorkerSuccess
  cases hr : repo.operations.get w.operationId with
  | none =>
    refine .absent fun r hf => ?_
    rw [hf.stored] at hr
    cases hr
  | some r =>
    by_cases hown : workerOwns r w.tenantId w.workstationId
    · have hf : w.Finds repo r := ⟨hr, hown⟩
      simp only [hown, not_true_eq_false, ↓reduceIte, refreshDue_eq (hv _ _ hr) now]
      cases ho : r.overdue now with
      | some r' =>
        have ht := overdue_terminal ho
        have hrun : ¬r'.state = .running := by
          intro h
          simp [h, OperationState.isTerminal] at ht
        have hsucc : ¬r'.state = .succeeded := by
          rcases overdue_cases ho with ⟨_, _, rfl⟩ | ⟨_, _, rfl⟩ | ⟨_, _, _, rfl⟩ |
            ⟨_, _, _, rfl⟩ <;> simp [overdue.expired, overdue.unattended]
        simp only [true_and, ↓reduceIte, ne_eq, hrun, hsucc, not_false_eq_true]
        split
        · exact .due hf ho (by simp)
        · exact .due hf ho (by simp)
      | none =>
        simp only [Bool.false_eq_true, false_and, ↓reduceIte]
        by_cases hsucc : r.state = .succeeded
        · rw [if_pos hsucc]
          split
          · next hresult => exact .repeated hf hsucc hresult
          · exact .closed hf (by simp [hsucc])
        · rw [if_neg hsucc]
          by_cases hrun : r.state = .running
          · simp only [hrun, ne_eq, not_true_eq_false, ↓reduceIte]
            cases hval : repo.validateWorkerCatalogApplication r w.result w.projects w.drawings with
            | error code => exact .refused hf hrun hval
            | ok u =>
              obtain ⟨s, hst, _⟩ := (hv _ _ hr).running hrun
              by_cases hle : s ≤ now
              · have hu : updated { r with
                    state := .succeeded
                    completedAt := some now
                    result := some w.result
                    errorCode := none } =
                    .ok (r.finished now .succeeded (some w.result) none) :=
                  updated_eq (succeeded_valid (hv _ _ hr) hrun hst hle hval)
                simp only [hu]
                exact .applied hf hrun hst hle hval
              · obtain ⟨code, hu⟩ := updated_error
                  (@finished_early now r s (some w.result) hst (Int.not_le.1 hle))
                have hu' : updated { r with
                    state := .succeeded
                    completedAt := some now
                    result := some w.result
                    errorCode := none } = .error code := hu
                simp only [hu']
                exact .early hf hrun hst (Int.not_le.1 hle) hval
          · simp only [hrun, ne_eq, not_false_eq_true, ↓reduceIte]
            exact .closed hf hrun
    · simp only [hown]
      refine .absent fun r' hf => ?_
      obtain rfl := Option.some.inj (hr.symm.trans hf.stored)
      exact hown hf.owned

/-- Rows of one kind are written together: every listed row is stored, and no other changes. -/
structure RowsWritten {ν : Type} (key : ν → String) (items : List ν) (rows rows' : Dict String ν) :
    Prop where
  stored : ∀ x ∈ items, rows'.get (key x) = some x
  others : ∀ k, k ∉ items.map key → rows'.get k = rows.get k

/-- A call that refuses keeps the rows as they were, but for a passed deadline of its operation;
a call that succeeds writes the operation and all its rows; and asking again changes nothing. -/
structure AllOrNothing (w : WorkerSuccess) (now : Int) (repo : InMemoryGatewayRepository)
    (call : Call TransitionOutcome) : Prop where
  refused : (∀ outcome, call.1 = .ok outcome → outcome.status ≠ .updated) →
    call.2 = repo ∨ ∃ r r', w.Finds repo r ∧ r.overdue now = some r' ∧
      call.2 = repo.store w.operationId r'
  written : ∀ outcome r, call.1 = .ok outcome → outcome.status = .updated →
    repo.operations.get w.operationId = some r → r.state = .running →
    ∃ r', outcome.operation = some r' ∧ call.2.operations.get w.operationId = some r' ∧
      r'.state = .succeeded ∧ r'.result = some w.result ∧ r'.identity = r.identity ∧
      RowsWritten ProjectRecord.projectId w.projects repo.projects call.2.projects ∧
      RowsWritten DrawingRecord.drawingId w.drawings repo.drawings call.2.drawings
  repeated : ∀ outcome later, call.1 = .ok outcome → outcome.status = .updated →
    w.apply later call.2 = (.ok outcome, call.2)

/-- The operation has started after `now`, the catalog rows are accepted, and one of them is new. -/
structure EarlyWrite (w : WorkerSuccess) (now : Int) (repo : InMemoryGatewayRepository)
    (r : OperationRecord) : Prop where
  found : w.Finds repo r
  running : r.state = .running
  start : ∃ s, r.startedAt = some s ∧ now < s
  validated : w.validated r repo = .ok ()
  fresh : (∃ x ∈ w.projects, repo.projects.get x.projectId ≠ some x) ∨
    ∃ x ∈ w.drawings, repo.drawings.get x.drawingId ≠ some x

/-- An accepted catalog lists every row once. -/
theorem validated_nodup (h : w.validated r repo = .ok ()) :
    (w.projects.map (·.projectId)).Nodup ∧ (w.drawings.map (·.drawingId)).Nodup := by
  unfold WorkerSuccess.validated validateWorkerCatalogApplication at h
  rw [require_bind_eq_ok] at h
  obtain ⟨-, h⟩ := h
  cases hresult : w.result with
  | listProjects projectIds =>
    simp only [hresult, require_bind_eq_ok] at h
    obtain ⟨⟨_, hdrawings, hnodup, _⟩, _⟩ := h
    exact ⟨hnodup, by simp [hdrawings]⟩
  | scanDrawings projectId drawingIds truncated =>
    simp only [hresult, require_bind_eq_ok] at h
    obtain ⟨⟨_, hprojects, hnodup, _⟩, _⟩ := h
    exact ⟨by simp [hprojects], hnodup⟩
  | validateEnvironment | inspectDrawing | createPublishPlan | translation =>
    simp only [hresult, require_bind_eq_ok] at h
    obtain ⟨⟨hprojects, hdrawings⟩, _⟩ := h
    simp [hprojects, hdrawings]

theorem catalog_written (h : w.validated r repo = .ok ()) :
    RowsWritten ProjectRecord.projectId w.projects repo.projects (w.catalog repo).projects ∧
      RowsWritten DrawingRecord.drawingId w.drawings repo.drawings (w.catalog repo).drawings := by
  obtain ⟨hprojects, hdrawings⟩ := validated_nodup h
  constructor
  · exact ⟨fun x hx => Dict.get_foldl_set_mem _ hprojects hx _,
      fun k hk => Dict.get_foldl_set_other _ hk _⟩
  · exact ⟨fun x hx => Dict.get_foldl_set_mem _ hdrawings hx _,
      fun k hk => Dict.get_foldl_set_other _ hk _⟩

/-- Rows that are all stored already are written without a change. -/
theorem catalog_stored (hprojects : ∀ x ∈ w.projects, repo.projects.get x.projectId = some x)
    (hdrawings : ∀ x ∈ w.drawings, repo.drawings.get x.drawingId = some x) :
    w.catalog repo = repo := by
  unfold WorkerSuccess.catalog storeProjects storeDrawings
  rw [Dict.foldl_set_stored _ hprojects, Dict.foldl_set_stored _ hdrawings]

/-- A succeeded operation answers the same success again, whatever the clock says. -/
theorem apply_again (hf : w.Finds repo r) (hv : r.Valid) (hs : r.state = .succeeded)
    (hresult : r.result = some w.result) (later : Int) :
    w.apply later repo = (.ok ⟨.updated, some r⟩, repo) := by
  have ho := overdue_of_terminal (r := r) (by simp [hs, OperationState.isTerminal]) later
  simp [WorkerSuccess.apply, applyWorkerSuccess, hf.stored, hf.owned, refreshDue_eq hv, ho, hs,
    hresult]

theorem not_allOrNothing (hv : ValidRows repo) (h : EarlyWrite w now repo r) :
    ¬AllOrNothing w now repo (w.apply now repo) := by
  intro hall
  obtain ⟨s, hst, hnow⟩ := h.start
  have hsame : ∀ r', w.Finds repo r' → r' = r := fun r' hf =>
    Option.some.inj (hf.stored.symm.trans h.found.stored)
  have hends := apply_ends hv w now
  generalize hcall : w.apply now repo = call at hends hall
  cases hends with
  | absent hno => exact hno r h.found
  | due hf ho =>
    rw [hsame _ hf, running_not_overdue (hv _ _ h.found.stored) h.running hst hnow] at ho
    cases ho
  | repeated hf hs =>
    rw [hsame _ hf, h.running] at hs
    cases hs
  | closed hf hs => exact hs (hsame _ hf ▸ h.running)
  | refused hf _ hval =>
    rw [hsame _ hf, h.validated] at hval
    cases hval
  | applied hf _ hst' hle =>
    rw [hsame _ hf, hst] at hst'
    have hss := Option.some.inj hst'
    omega
  | early =>
    -- the catalog is stored and the call raises
    have hkept : (w.catalog repo).projects = repo.projects ∧
        (w.catalog repo).drawings = repo.drawings := by
      rcases hall.refused (by simp) with heq | ⟨_, _, _, _, heq⟩
      · exact ⟨congrArg (·.projects) heq, congrArg (·.drawings) heq⟩
      · exact ⟨congrArg (·.projects) heq, congrArg (·.drawings) heq⟩
    obtain ⟨hprojects, hdrawings⟩ := catalog_written h.validated
    rw [hkept.1] at hprojects
    rw [hkept.2] at hdrawings
    rcases h.fresh with ⟨x, hx, hne⟩ | ⟨x, hx, hne⟩
    · exact hne (hprojects.stored x hx)
    · exact hne (hdrawings.stored x hx)

/-- A call that does not answer `updated` has nothing to show but the rows it kept. -/
theorem allOrNothing_refused {call : Call TransitionOutcome}
    (hno : ∀ outcome, call.1 = .ok outcome → outcome.status ≠ .updated)
    (hkept : call.2 = repo ∨ ∃ r r', w.Finds repo r ∧ r.overdue now = some r' ∧
      call.2 = repo.store w.operationId r') : AllOrNothing w now repo call where
  refused _ := hkept
  written outcome _ hout hstatus _ _ := absurd hstatus (hno outcome hout)
  repeated outcome _ hout hstatus := absurd hstatus (hno outcome hout)

/-- A worker success is all or nothing unless it comes, with a new row, before the start. -/
theorem apply_all_or_nothing_iff (repo : InMemoryGatewayRepository) (w : WorkerSuccess)
    (now : Int) (hv : ∀ id r, repo.operations.get id = some r → r.Valid) :
    AllOrNothing w now repo (w.apply now repo) ↔ ∀ r, ¬EarlyWrite w now repo r := by
  constructor
  · intro hall r hearly
    exact not_allOrNothing hv hearly hall
  · intro hno
    have hends := apply_ends hv w now
    generalize hcall : w.apply now repo = call at hends
    cases hends with
    | absent => exact allOrNothing_refused (by simp) (.inl rfl)
    | due hf ho hne =>
      refine allOrNothing_refused (fun outcome hout => ?_) (.inr ⟨_, _, hf, ho, rfl⟩)
      obtain rfl := Except.ok.inj hout
      exact hne
    | @repeated r hf hs hresult =>
      refine ⟨fun h => absurd rfl (h _ rfl), ?_, ?_⟩
      · intro outcome r' _ _ hget hrun
        obtain rfl := Option.some.inj (hf.stored.symm.trans hget)
        rw [hs] at hrun
        cases hrun
      · intro outcome later hout _
        obtain rfl := Except.ok.inj hout
        exact apply_again hf (hv _ _ hf.stored) hs hresult later
    | closed => exact allOrNothing_refused (by simp) (.inl rfl)
    | refused => exact allOrNothing_refused (by simp) (.inl rfl)
    | early hf hrun hst hnow hval =>
      have hstored : w.catalog repo = repo := by
        refine catalog_stored ?_ ?_
        · intro x hx
          by_contra hne
          exact hno _ ⟨hf, hrun, ⟨_, hst, hnow⟩, hval, .inl ⟨x, hx, hne⟩⟩
        · intro x hx
          by_contra hne
          exact hno _ ⟨hf, hrun, ⟨_, hst, hnow⟩, hval, .inr ⟨x, hx, hne⟩⟩
      exact allOrNothing_refused (by simp) (.inl hstored)
    | @applied r s hf hrun hst hle hval =>
      have hrow : ((w.catalog repo).store w.operationId
          (r.finished now .succeeded (some w.result) none)).operations.get w.operationId =
          some (r.finished now .succeeded (some w.result) none) := Dict.get_set_same ..
      refine ⟨fun h => absurd rfl (h _ rfl), ?_, ?_⟩
      · intro outcome r' hout _ hget _
        obtain rfl := Except.ok.inj hout
        obtain rfl := Option.some.inj (hf.stored.symm.trans hget)
        exact ⟨_, rfl, hrow, rfl, rfl, rfl, catalog_written hval⟩
      · intro outcome later hout _
        obtain rfl := Except.ok.inj hout
        exact apply_again ⟨hrow, hf.owned⟩ (succeeded_valid (hv _ _ hf.stored) hrun hst hle hval)
          rfl rfl later

/-- A listing that its worker started twenty microseconds after its creation. -/
def startedListing : OperationRecord :=
  { listingOperation "op_00000000-0000-4000-8000-000000000001"
    "idem_00000000-0000-4000-8000-000000000001" 0 with
    state := .running
    startedAt := some 20 }

def listedProject : ProjectRecord where
  projectId := "prj_00000000-0000-4000-8000-000000000001"
  tenantId := startedListing.tenantId
  ownerSubjectId := startedListing.ownerSubjectId
  workstationId := startedListing.workstationId
  displayName := "Project A"
  enabled := true

def listingSuccess : WorkerSuccess where
  operationId := startedListing.operationId
  tenantId := startedListing.tenantId
  workstationId := startedListing.workstationId
  result := .listProjects ⟨[listedProject.projectId], by decide⟩
  projects := [listedProject]
  drawings := []

def startedRepository : InMemoryGatewayRepository where
  workstations := Dict.empty.set startedListing.workstationId
    ⟨startedListing.workstationId, startedListing.tenantId, startedListing.ownerSubjectId,
      "Workstation A", true, true⟩
  projects := Dict.empty
  drawings := Dict.empty
  operations := Dict.empty.set startedListing.operationId startedListing
  idempotency := Dict.empty.set startedListing.idempotencyIndex startedListing.operationId

theorem startedRepository_valid : ValidRows startedRepository := by
  refine Dict.forall_set ?_ ?_
  · simp
  · decide +kernel

theorem listing_found : listingSuccess.Finds startedRepository startedListing :=
  ⟨Dict.get_set_same .., by decide⟩

theorem listing_validated :
    listingSuccess.validated startedListing startedRepository = .ok () := by
  decide +kernel

/-- From its start on, the listing is stored with its project or not at all. -/
theorem apply_all_or_nothing_started :
    AllOrNothing listingSuccess 20 startedRepository
      (listingSuccess.apply 20 startedRepository) := by
  refine (apply_all_or_nothing_iff startedRepository listingSuccess 20
    startedRepository_valid).2 fun r h => ?_
  obtain rfl := Option.some.inj (listing_found.stored.symm.trans h.found.stored)
  obtain ⟨s, hst, hlt⟩ := h.start
  have hs : (20 : Int) = s := Option.some.inj hst
  omega

/-- One microsecond earlier the call raises and the project stays. -/
theorem early_listing_keeps_project :
    ¬∀ (repo : InMemoryGatewayRepository) (w : WorkerSuccess) (now : Int), ValidRows repo →
      AllOrNothing w now repo (w.apply now repo) := by
  intro h
  have hearly : EarlyWrite listingSuccess 19 startedRepository startedListing := by
    refine ⟨listing_found, rfl, ⟨20, rfl, by decide⟩, listing_validated, .inl ?_⟩
    exact ⟨listedProject, List.mem_singleton.2 rfl, by simp [startedRepository]⟩
  exact not_allOrNothing startedRepository_valid hearly
    (h startedRepository listingSuccess 19 startedRepository_valid)

end CadPlot.Gateway.InMemory
