import CadPlot.Gateway.ApplySuccess
import CadPlot.Gateway.Catalog
import CadPlot.Lib.References

/-!
# The catalog stays whole

Whichever entry point wrote them, projects agree with their workstations and
drawings with their projects, and no identifier ever moves to another tenant,
owner or parent.
-/

namespace CadPlot.Gateway.Catalog

open InMemory InMemoryGatewayRepository

abbrev Owner := TenantId × SubjectId

def workstationOwner (r : WorkstationRecord) : Owner := (r.tenantId, r.ownerSubjectId)

def projectOwner (r : ProjectRecord) : Owner := (r.tenantId, r.ownerSubjectId)

/-- The owner and the parent. -/
def projectPlace (r : ProjectRecord) : Owner × WorkstationId :=
  ((r.tenantId, r.ownerSubjectId), r.workstationId)

/-- What a drawing repeats of its project. -/
def drawingOwner (r : DrawingRecord) : Owner × WorkstationId :=
  ((r.tenantId, r.ownerSubjectId), r.workstationId)

def drawingPlace (r : DrawingRecord) : (Owner × WorkstationId) × ProjectId :=
  (drawingOwner r, r.projectId)

structure Whole (repo : InMemoryGatewayRepository) : Prop where
  workstationKeys : repo.workstations.Keyed WorkstationRecord.workstationId
  projectKeys : repo.projects.Keyed ProjectRecord.projectId
  drawingKeys : repo.drawings.Keyed DrawingRecord.drawingId
  projects : repo.projects.Refers repo.workstations ProjectRecord.workstationId workstationOwner
    projectOwner
  drawings : repo.drawings.Refers repo.projects DrawingRecord.projectId projectPlace drawingOwner

/-- Every stored identifier stays, with its tenant, its owner and its parent. -/
structure Kept (repo repo' : InMemoryGatewayRepository) : Prop where
  workstations : repo.workstations.Keeps workstationOwner repo'.workstations
  projects : repo.projects.Keeps projectPlace repo'.projects
  drawings : repo.drawings.Keeps drawingPlace repo'.drawings

theorem Kept.refl (repo : InMemoryGatewayRepository) : Kept repo repo :=
  ⟨.refl _ _, .refl _ _, .refl _ _⟩

theorem Kept.trans {a b c : InMemoryGatewayRepository} (h : Kept a b) (h' : Kept b c) : Kept a c :=
  ⟨h.workstations.trans h'.workstations, h.projects.trans h'.projects,
    h.drawings.trans h'.drawings⟩

variable {repo repo' : InMemoryGatewayRepository}

/-- A step that keeps the catalog whole and in place. -/
def Good (repo repo' : InMemoryGatewayRepository) : Prop := Whole repo' ∧ Kept repo repo'

theorem Good.refl (h : Whole repo) : Good repo repo := ⟨h, .refl repo⟩

/-- The catalog of one repository is that of the other. -/
structure SameCatalog (repo repo' : InMemoryGatewayRepository) : Prop where
  workstations : repo'.workstations = repo.workstations
  projects : repo'.projects = repo.projects
  drawings : repo'.drawings = repo.drawings

theorem SameCatalog.refl (repo : InMemoryGatewayRepository) : SameCatalog repo repo :=
  ⟨rfl, rfl, rfl⟩

theorem SameCatalog.good (h : SameCatalog repo repo') (hw : Whole repo) : Good repo repo' := by
  obtain ⟨ws, ps, ds, _, _⟩ := repo
  obtain ⟨ws', ps', ds', _, _⟩ := repo'
  obtain ⟨rfl, rfl, rfl⟩ := h
  exact ⟨⟨hw.workstationKeys, hw.projectKeys, hw.drawingKeys, hw.projects, hw.drawings⟩,
    ⟨.refl _ _, .refl _ _, .refl _ _⟩⟩

/-- Storing a workstation under its key, over none or over one of its owner. -/
theorem Whole.setWorkstation (h : Whole repo) {k : WorkstationId} {record : WorkstationRecord}
    (hkey : record.workstationId = k)
    (hold : ∀ old, repo.workstations.get k = some old →
      workstationOwner old = workstationOwner record) :
    Good repo { repo with workstations := repo.workstations.set k record } := by
  have hkeep : repo.workstations.Keeps workstationOwner (repo.workstations.set k record) :=
    .set hold
  exact ⟨⟨Dict.forall_set h.workstationKeys hkey, h.projectKeys, h.drawingKeys,
    h.projects.mono hkeep, h.drawings⟩, ⟨hkeep, .refl _ _, .refl _ _⟩⟩

/-- Storing projects of their workstations, each over none or over one in the same place. -/
theorem Whole.storeProjects (h : Whole repo) (items : List ProjectRecord)
    (hn : (items.map ProjectRecord.projectId).Nodup)
    (hparent : ∀ x ∈ items, ∃ p, repo.workstations.get x.workstationId = some p ∧
      workstationOwner p = projectOwner x)
    (hold : ∀ x ∈ items, ∀ old, repo.projects.get x.projectId = some old →
      projectPlace old = projectPlace x) :
    Good repo { repo with projects := InMemory.storeProjects repo.projects items } := by
  have hkeep : repo.projects.Keeps projectPlace (InMemory.storeProjects repo.projects items) :=
    .foldl hn hold
  exact ⟨⟨h.workstationKeys, Dict.forall_foldl h.projectKeys fun _ _ => rfl, h.drawingKeys,
    Dict.forall_foldl h.projects hparent, h.drawings.mono hkeep⟩, ⟨.refl _ _, hkeep, .refl _ _⟩⟩

theorem Whole.storeDrawings (h : Whole repo) (items : List DrawingRecord)
    (hn : (items.map DrawingRecord.drawingId).Nodup)
    (hparent : ∀ x ∈ items, ∃ p, repo.projects.get x.projectId = some p ∧
      projectPlace p = drawingOwner x)
    (hold : ∀ x ∈ items, ∀ old, repo.drawings.get x.drawingId = some old →
      drawingPlace old = drawingPlace x) :
    Good repo { repo with drawings := InMemory.storeDrawings repo.drawings items } :=
  ⟨⟨h.workstationKeys, h.projectKeys, Dict.forall_foldl h.drawingKeys fun _ _ => rfl, h.projects,
    Dict.forall_foldl h.drawings hparent⟩, ⟨.refl _ _, .refl _ _, .foldl hn hold⟩⟩

theorem belongsToWorkstation_eq {record : ProjectRecord}
    (h : belongsToWorkstation repo.workstations record = true) :
    ∃ p, repo.workstations.get record.workstationId = some p ∧
      workstationOwner p = projectOwner record := by
  unfold belongsToWorkstation at h
  split at h
  · cases h
  · next p hp =>
    obtain ⟨htenant, howner⟩ := of_decide_eq_true h
    exact ⟨p, hp, Prod.ext htenant howner⟩

theorem belongsToProject_eq {record : DrawingRecord}
    (h : belongsToProject repo.projects record = true) :
    ∃ p, repo.projects.get record.projectId = some p ∧ projectPlace p = drawingOwner record := by
  unfold belongsToProject at h
  split at h
  · cases h
  · next p hp =>
    obtain ⟨htenant, howner, hworkstation⟩ := of_decide_eq_true h
    exact ⟨p, hp, Prod.ext (Prod.ext htenant howner) hworkstation⟩

section Writes

theorem addWorkstation_good (h : Whole repo) (record : WorkstationRecord) :
    Good repo (repo.addWorkstation record).2 := by
  unfold addWorkstation
  split
  · exact .refl h
  · next hnone =>
    refine h.setWorkstation rfl fun old hold => ?_
    simp [hold] at hnone

theorem upsertWorkstation_good (h : Whole repo) (record : WorkstationRecord) :
    Good repo (repo.upsertWorkstation record).2 := by
  unfold upsertWorkstation
  split
  · exact .refl h
  · next hsame =>
    refine h.setWorkstation rfl fun old hold => ?_
    rw [hold] at hsame
    simpa [workstationOwner] using hsame

theorem setWorkstationOnline_good (h : Whole repo) (workstationId : WorkstationId)
    (online : Bool) : Good repo (repo.setWorkstationOnline workstationId online).2 := by
  unfold setWorkstationOnline
  split
  · exact .refl h
  · next record hget =>
    have hkey := h.workstationKeys _ _ hget
    refine h.setWorkstation hkey fun old hold => ?_
    obtain rfl := Option.some.inj (hget.symm.trans hold)
    rfl

theorem addProject_good (h : Whole repo) (record : ProjectRecord) :
    Good repo (repo.addProject record).2 := by
  unfold addProject
  split
  · exact .refl h
  · next hnone =>
    split
    · exact .refl h
    · next hparent =>
      refine h.storeProjects [record] (by simp) ?_ ?_
      · simpa using belongsToWorkstation_eq (not_not.1 hparent)
      · simpa using fun old hold => by simp [hold] at hnone

theorem upsertProject_good (h : Whole repo) (record : ProjectRecord) :
    Good repo (repo.upsertProject record).2 := by
  unfold upsertProject
  split
  · exact .refl h
  · next hcheck =>
    obtain ⟨hparent, hsame⟩ := not_or.1 hcheck
    refine h.storeProjects [record] (by simp) ?_ ?_
    · simpa using belongsToWorkstation_eq (not_not.1 hparent)
    · intro x hx old hold
      obtain rfl := List.mem_singleton.1 hx
      rw [hold] at hsame
      simpa [projectPlace, and_assoc] using hsame

theorem addDrawing_good (h : Whole repo) (record : DrawingRecord) :
    Good repo (repo.addDrawing record).2 := by
  unfold addDrawing
  split
  · exact .refl h
  · next hnone =>
    split
    · exact .refl h
    · next hparent =>
      refine h.storeDrawings [record] (by simp) ?_ ?_
      · simpa using belongsToProject_eq (not_not.1 hparent)
      · simpa using fun old hold => by simp [hold] at hnone

theorem upsertDrawing_good (h : Whole repo) (record : DrawingRecord) :
    Good repo (repo.upsertDrawing record).2 := by
  unfold upsertDrawing
  split
  · exact .refl h
  · next hcheck =>
    obtain ⟨hparent, hsame⟩ := not_or.1 hcheck
    refine h.storeDrawings [record] (by simp) ?_ ?_
    · simpa using belongsToProject_eq (not_not.1 hparent)
    · intro x hx old hold
      obtain rfl := List.mem_singleton.1 hx
      rw [hold] at hsame
      simpa [drawingPlace, drawingOwner, and_assoc] using hsame

end Writes

section Operations

theorem outcome_snd {α : Type} (call : Call α) : (outcome call).2 = call.2 := by
  unfold outcome
  split <;> rfl

theorem transitionOwned_same (operationId : OperationId) (tenantId : TenantId)
    (workstationId : WorkstationId)
    (transition : OperationRecord → Except String (TransitionStatus × OperationRecord)) :
    SameCatalog repo (repo.transitionOwned operationId tenantId workstationId transition).2 := by
  unfold transitionOwned
  repeat' split
  all_goals exact ⟨rfl, rfl, rfl⟩

theorem leaseNextOperation_same (tenantId : TenantId) (workstationId : WorkstationId)
    (ownerSubjectId : SubjectId) (now leaseExpiresAt : Int) :
    SameCatalog repo
      (repo.leaseNextOperation tenantId workstationId ownerSubjectId now leaseExpiresAt).2 := by
  unfold leaseNextOperation
  dsimp only
  repeat' split
  all_goals exact ⟨rfl, rfl, rfl⟩

/-- Calls other than the application of a worker success leave the catalog alone. -/
theorem perform_same {now : Int} {event : InMemory.Event}
    (h : ∀ operationId tenantId workstationId result projects drawings,
      event ≠ .applySuccess operationId tenantId workstationId result projects drawings) :
    SameCatalog repo (InMemory.perform now repo event).2 := by
  cases event with
  | createOrGet operation =>
    rw [InMemory.perform, outcome_snd, createOrGetOperation]
    repeat' split
    all_goals exact ⟨rfl, rfl, rfl⟩
  | refresh operationId =>
    rw [InMemory.perform, outcome_snd, refreshOperation]
    repeat' split
    all_goals exact ⟨rfl, rfl, rfl⟩
  | leaseNext tenantId workstationId ownerSubjectId leaseExpiresAt =>
    rw [InMemory.perform, outcome_snd]
    exact leaseNextOperation_same ..
  | start operationId tenantId workstationId =>
    rw [InMemory.perform, outcome_snd]
    exact transitionOwned_same ..
  | finish operationId tenantId workstationId state result errorCode =>
    rw [InMemory.perform, outcome_snd, finishOperation]
    split
    · exact transitionOwned_same ..
    · exact .refl repo
  | applySuccess => exact absurd rfl (h _ _ _ _ _ _)

/-- A worker success leaves the catalog alone, or stores rows accepted for some operation. -/
theorem applyWorkerSuccess_catalog (operationId : OperationId) (tenantId : TenantId)
    (workstationId : WorkstationId) (now : Int) (result : TaskResult)
    (projects : List ProjectRecord) (drawings : List DrawingRecord) :
    SameCatalog repo (repo.applyWorkerSuccess operationId tenantId workstationId now result
        projects drawings).2 ∨
      ∃ r, repo.validateWorkerCatalogApplication r result projects drawings = .ok () ∧
        SameCatalog
          { repo with
            projects := storeProjects repo.projects projects
            drawings := storeDrawings repo.drawings drawings }
          (repo.applyWorkerSuccess operationId tenantId workstationId now result projects
            drawings).2 := by
  -- a refreshed operation is stored first, which the check does not look at
  have hvalidate (fresh : Bool) (r : OperationRecord) :
      (if fresh then repo.store operationId r else repo).validateWorkerCatalogApplication r result
          projects drawings =
        repo.validateWorkerCatalogApplication r result projects drawings := by
    cases fresh <;> rfl
  have hsame (fresh : Bool) (r : OperationRecord) :
      SameCatalog repo (if fresh then repo.store operationId r else repo) := by
    cases fresh <;> exact ⟨rfl, rfl, rfl⟩
  unfold applyWorkerSuccess
  split
  · exact .inl (.refl repo)
  · split
    · exact .inl (.refl repo)
    · split
      · exact .inl (.refl repo)
      · next r fresh _ =>
        dsimp only
        rw [hvalidate]
        obtain ⟨hw, hp, hd⟩ := hsame fresh r
        generalize (if fresh then repo.store operationId r else repo) = repo' at hw hp hd ⊢
        split
        · exact .inl ⟨hw, hp, hd⟩
        · split
          · split <;> exact .inl ⟨hw, hp, hd⟩
          · split
            · exact .inl ⟨hw, hp, hd⟩
            · split
              · exact .inl ⟨hw, hp, hd⟩
              · next hval =>
                refine .inr ⟨r, hval, ?_⟩
                rw [← hw, ← hp, ← hd]
                split <;> exact ⟨rfl, rfl, rfl⟩

/-- What the checks of a worker success say of its rows. -/
theorem validated_rows {r : OperationRecord} {result : TaskResult} {projects : List ProjectRecord}
    {drawings : List DrawingRecord}
    (h : repo.validateWorkerCatalogApplication r result projects drawings = .ok ()) :
    (∀ x ∈ projects, projectOwnerMatches r repo.workstations repo.projects x = true) ∧
      ∀ x ∈ drawings, drawingOwnerMatches r (storeProjects repo.projects projects) repo.drawings x =
        true := by
  unfold validateWorkerCatalogApplication at h
  rw [require_bind_eq_ok] at h
  obtain ⟨-, h⟩ := h
  cases result <;> simp only [require_bind_eq_ok, require_eq_ok] at h <;> exact h.2

theorem projectOwnerMatches_eq {r : OperationRecord} {x : ProjectRecord}
    (h : projectOwnerMatches r repo.workstations repo.projects x = true) :
    (∃ p, repo.workstations.get x.workstationId = some p ∧ workstationOwner p = projectOwner x) ∧
      ∀ old, repo.projects.get x.projectId = some old → projectPlace old = projectPlace x := by
  simp only [projectOwnerMatches, Bool.and_eq_true] at h
  obtain ⟨⟨hparent, _⟩, hold⟩ := h
  constructor
  · exact belongsToWorkstation_eq hparent
  · intro old hget
    rw [hget] at hold
    simpa [projectPlace, and_assoc] using hold

theorem drawingOwnerMatches_eq {r : OperationRecord} {x : DrawingRecord}
    {projects : Dict ProjectId ProjectRecord}
    (h : drawingOwnerMatches r projects repo.drawings x = true) :
    (∃ p, projects.get x.projectId = some p ∧ projectPlace p = drawingOwner x) ∧
      ∀ old, repo.drawings.get x.drawingId = some old → drawingPlace old = drawingPlace x := by
  simp only [drawingOwnerMatches, Bool.and_eq_true] at h
  obtain ⟨⟨hparent, _⟩, hold⟩ := h
  constructor
  · split at hparent
    · cases hparent
    · next p hp =>
      obtain ⟨_, htenant, howner, hworkstation⟩ := of_decide_eq_true hparent
      exact ⟨p, hp, Prod.ext (Prod.ext htenant howner) hworkstation⟩
  · intro old hget
    rw [hget] at hold
    simpa [drawingPlace, drawingOwner, and_assoc] using hold

theorem applySuccess_good (h : Whole repo) (operationId : OperationId) (tenantId : TenantId)
    (workstationId : WorkstationId) (now : Int) (result : TaskResult)
    (projects : List ProjectRecord) (drawings : List DrawingRecord) :
    Good repo (repo.applyWorkerSuccess operationId tenantId workstationId now result projects
      drawings).2 := by
  rcases @applyWorkerSuccess_catalog repo operationId tenantId workstationId now result
    projects drawings with hsame | ⟨r, hval, hsame⟩
  · exact hsame.good h
  · obtain ⟨hprojects, hdrawings⟩ := validated_rows hval
    obtain ⟨hnp, hnd⟩ := @validated_nodup
      ⟨operationId, tenantId, workstationId, result, projects, drawings⟩ repo r hval
    obtain ⟨hwhole, hkept⟩ := h.storeProjects _ hnp
      (fun x hx => (projectOwnerMatches_eq (hprojects x hx)).1)
      (fun x hx => (projectOwnerMatches_eq (hprojects x hx)).2)
    obtain ⟨hwhole', hkept'⟩ := hwhole.storeDrawings _ hnd
      (fun x hx => (drawingOwnerMatches_eq (hdrawings x hx)).1)
      (fun x hx => (drawingOwnerMatches_eq (hdrawings x hx)).2)
    obtain ⟨hlast, hkeep⟩ := hsame.good hwhole'
    exact ⟨hlast, (hkept.trans hkept').trans hkeep⟩

end Operations

theorem step_good (h : Whole repo) {e : Event} (hstep : step repo e = some repo') :
    Good repo repo' := by
  obtain rfl := Option.some.inj hstep
  cases e with
  | addWorkstation record => exact addWorkstation_good h record
  | upsertWorkstation record => exact upsertWorkstation_good h record
  | setWorkstationOnline workstationId online =>
    exact setWorkstationOnline_good h workstationId online
  | addProject record => exact addProject_good h record
  | upsertProject record => exact upsertProject_good h record
  | addDrawing record => exact addDrawing_good h record
  | upsertDrawing record => exact upsertDrawing_good h record
  | operation e =>
    obtain ⟨now, event⟩ := e
    by_cases happly : ∀ operationId tenantId workstationId result projects drawings,
        event ≠ .applySuccess operationId tenantId workstationId result projects drawings
    · exact (perform_same happly).good h
    · simp only [not_forall, not_not] at happly
      obtain ⟨operationId, tenantId, workstationId, result, projects, drawings, rfl⟩ := happly
      simp only [perform, InMemory.perform, outcome_snd]
      exact applySuccess_good h ..

theorem whole_empty : Whole emptyRepository where
  workstationKeys _ _ h := by simp [emptyRepository] at h
  projectKeys _ _ h := by simp [emptyRepository] at h
  drawingKeys _ _ h := by simp [emptyRepository] at h
  projects _ _ h := by simp [emptyRepository] at h
  drawings _ _ h := by simp [emptyRepository] at h

/-- In every store reached by any writes the rows agree with their parents, and whatever is written
after moves none of them. -/
theorem catalog_whole (repo : InMemoryGatewayRepository)
    (hreach : Runs.Reaches step Runs.anyEvent emptyRepository repo) :
    Whole repo ∧
      ∀ repo', Runs.Reaches step Runs.anyEvent repo repo' → Kept repo repo' := by
  have hwhole : Whole repo := Runs.invariant_of_reaches whole_empty
    (fun _ _ _ h _ hstep => (step_good h hstep).1) hreach
  exact ⟨hwhole, fun repo' hlater => Runs.rel_of_reaches hwhole Kept.refl (fun _ _ _ => Kept.trans)
    (fun _ _ _ h _ hstep => (step_good h hstep).1)
    (fun _ _ _ h _ hstep => (step_good h hstep).2) hlater⟩

/-- A workstation is added, and the listing of its worker adds a project. -/
def listedWrites : List Event :=
  [.addWorkstation ⟨startedListing.workstationId, startedListing.tenantId,
      startedListing.ownerSubjectId, "Workstation A", true, true⟩,
    .operation ⟨0, .createOrGet startedListing⟩,
    .operation ⟨20, .applySuccess listingSuccess.operationId listingSuccess.tenantId
      listingSuccess.workstationId listingSuccess.result listingSuccess.projects []⟩]

theorem catalog_whole_listed : ∃ repo,
    Runs.Reaches step Runs.anyEvent emptyRepository repo ∧
      repo.projects.get listedProject.projectId = some listedProject ∧ Whole repo ∧
        ∀ repo', Runs.Reaches step Runs.anyEvent repo repo' → Kept repo repo' := by
  obtain ⟨repo, hreach, hstored⟩ := Runs.exists_reaches_of_run step Runs.anyEvent emptyRepository
    listedWrites (fun repo => repo.projects.get listedProject.projectId = some listedProject)
    (Runs.along_anyEvent _ _) (by decide +kernel)
  exact ⟨repo, hreach, of_decide_eq_true hstored, catalog_whole repo hreach⟩

end CadPlot.Gateway.Catalog
