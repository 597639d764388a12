import CadPlot.Gateway.MemoryRuns

/-!
# Catalog writes of the in-memory repository

The additions and upserts of workstations, projects and drawings. Each checks
the row it depends on and the row it replaces, and a refused call stores nothing.
-/

namespace CadPlot.Gateway

namespace InMemory

def belongsToWorkstation (workstations : Dict WorkstationId WorkstationRecord)
    (record : ProjectRecord) : Bool :=
  match workstations.get record.workstationId with
  | none => false
  | some workstation =>
    workstation.tenantId = record.tenantId ∧ workstation.ownerSubjectId = record.ownerSubjectId

def belongsToProject (projects : Dict ProjectId ProjectRecord) (record : DrawingRecord) : Bool :=
  match projects.get record.projectId with
  | none => false
  | some project =>
    project.tenantId = record.tenantId ∧ project.ownerSubjectId = record.ownerSubjectId ∧
      project.workstationId = record.workstationId

end InMemory

namespace InMemoryGatewayRepository

open InMemory

def addWorkstation (record : WorkstationRecord) (repo : InMemoryGatewayRepository) : Call Unit :=
  if (repo.workstations.get record.workstationId).isSome then
    (.error (.value "duplicate_workstation"), repo)
  else
    (.ok (), { repo with workstations := repo.workstations.set record.workstationId record })

def upsertWorkstation (record : WorkstationRecord) (repo : InMemoryGatewayRepository) :
    Call WorkstationRecord :=
  if (repo.workstations.get record.workstationId).any fun existing =>
      existing.tenantId ≠ record.tenantId || existing.ownerSubjectId ≠ record.ownerSubjectId then
    (.error (.value "workstation_owner_mismatch"), repo)
  else
    (.ok record, { repo with workstations := repo.workstations.set record.workstationId record })

def setWorkstationOnline (workstationId : WorkstationId) (online : Bool)
    (repo : InMemoryGatewayRepository) : Call Unit :=
  match repo.workstations.get workstationId with
  | none => (.error (.value "workstation_not_found"), repo)
  | some record =>
    (.ok (), { repo with
      workstations := repo.workstations.set workstationId { record with online := online } })

def addProject (record : ProjectRecord) (repo : InMemoryGatewayRepository) : Call Unit :=
  if (repo.projects.get record.projectId).isSome then
    (.error (.value "duplicate_project"), repo)
  else if ¬belongsToWorkstation repo.workstations record then
    (.error (.value "project_owner_mismatch"), repo)
  else (.ok (), { repo with projects := repo.projects.set record.projectId record })

def upsertProject (record : ProjectRecord) (repo : InMemoryGatewayRepository) :
    Call ProjectRecord :=
  if ¬belongsToWorkstation repo.workstations record ∨
      (repo.projects.get record.projectId).any (fun existing =>
        existing.tenantId ≠ record.tenantId || existing.ownerSubjectId ≠ record.ownerSubjectId ||
          existing.workstationId ≠ record.workstationId) then
    (.error (.value "project_owner_mismatch"), repo)
  else (.ok record, { repo with projects := repo.projects.set record.projectId record })

def addDrawing (record : DrawingRecord) (repo : InMemoryGatewayRepository) : Call Unit :=
  if (repo.drawings.get record.drawingId).isSome then
    (.error (.value "duplicate_drawing"), repo)
  else if ¬belongsToProject repo.projects record then
    (.error (.value "drawing_owner_mismatch"), repo)
  else (.ok (), { repo with drawings := repo.drawings.set record.drawingId record })

def upsertDrawing (record : DrawingRecord) (repo : InMemoryGatewayRepository) :
    Call DrawingRecord :=
  if ¬belongsToProject repo.projects record ∨
      (repo.drawings.get record.drawingId).any (fun existing =>
        existing.tenantId ≠ record.tenantId || existing.ownerSubjectId ≠ record.ownerSubjectId ||
          existing.workstationId ≠ record.workstationId ||
          existing.projectId ≠ record.projectId) then
    (.error (.value "drawing_owner_mismatch"), repo)
  else (.ok record, { repo with drawings := repo.drawings.set record.drawingId record })

end InMemoryGatewayRepository

namespace Catalog

open InMemory

/-- A write of the catalog, or a call about operations at a time. -/
inductive Event where
  | addWorkstation (record : WorkstationRecord)
  | upsertWorkstation (record : WorkstationRecord)
  | setWorkstationOnline (workstationId : WorkstationId) (online : Bool)
  | addProject (record : ProjectRecord)
  | upsertProject (record : ProjectRecord)
  | addDrawing (record : DrawingRecord)
  | upsertDrawing (record : DrawingRecord)
  | operation (e : TimedEvent)

/-- The repository that a call leaves, whether it returns or raises. -/
def perform (repo : InMemoryGatewayRepository) : Event → InMemoryGatewayRepository
  | .addWorkstation record => (repo.addWorkstation record).2
  | .upsertWorkstation record => (repo.upsertWorkstation record).2
  | .setWorkstationOnline workstationId online => (repo.setWorkstationOnline workstationId online).2
  | .addProject record => (repo.addProject record).2
  | .upsertProject record => (repo.upsertProject record).2
  | .addDrawing record => (repo.addDrawing record).2
  | .upsertDrawing record => (repo.upsertDrawing record).2
  | .operation e => (InMemory.perform e.now repo e.event).2

def step (repo : InMemoryGatewayRepository) (e : Event) : Option InMemoryGatewayRepository :=
  some (perform repo e)

/-- `InMemoryGatewayRepository()` -/
def emptyRepository : InMemoryGatewayRepository := ⟨.empty, .empty, .empty, .empty, .empty⟩

end Catalog

end CadPlot.Gateway
