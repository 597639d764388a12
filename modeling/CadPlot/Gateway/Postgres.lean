import CadPlot.Gateway.Memory
import CadPlot.Gateway.Schema
import CadPlot.Lib.Outcome

/-!
# The Postgres repository

The transactions of `PostgresGatewayRepository` on one operation row. The row is
held FOR UPDATE, so the row that an UPDATE finds is the record just read and its
`state = ...` condition holds. A transaction that raises is rolled back.
-/

namespace CadPlot.Gateway.Postgres

structure WorkstationRow where
  record : WorkstationRecord
  lastSeenAt : Option Int
  presenceExpiresAt : Option Int
  deriving DecidableEq

structure CatalogTables where
  workstations : Dict (TenantId × WorkstationId) WorkstationRow
  projects : Dict (TenantId × ProjectId) ProjectRecord
  drawings : Dict (TenantId × DrawingId) DrawingRecord

inductive CatalogKind where
  | ownedWorkstation | workerWorkstation | projects | drawings | drawingChains
  deriving DecidableEq, Repr

/-- The number of rows of the tenant whose identifier is listed and whose columns pass. -/
def countRows {ν : Type} (table : Dict (TenantId × String) ν) (tenant : TenantId)
    (identifiers : List String) (p : ν → Bool) : Nat :=
  table.entries.countP fun e => e.1.1 = tenant && identifiers.contains e.1.2 && p e.2

/-- `online = true AND last_seen_at IS NOT NULL AND presence_expires_at > clock_timestamp()` -/
def WorkstationRow.present (row : WorkstationRow) (clock : Int) : Bool :=
  row.record.online && row.lastSeenAt.isSome && Schema.before (some clock) row.presenceExpiresAt

/-- The join of a drawing with its enabled project. -/
def chainEnabled (tables : CatalogTables) (tenant : TenantId) (row : DrawingRecord) : Bool :=
  match tables.projects.get (tenant, row.projectId) with
  | none => false
  | some project =>
    project.ownerSubjectId = row.ownerSubjectId ∧ project.workstationId = row.workstationId ∧
      project.enabled

/-- `lock_catalog_rows` inside a session of the tenant it is called for. -/
def lockCatalogRows (tables : CatalogTables) (clock : Int) (kind : CatalogKind)
    (tenant : TenantId) (owner : Option SubjectId) (workstation : WorkstationId)
    (identifiers : List String) (project : Option ProjectId) (requireOnline : Bool) : Nat :=
  if identifiers = [] ∨ 500 < identifiers.length then 0
  else
    match kind, owner with
    | .ownedWorkstation, some owner =>
      if identifiers = [workstation] then
        countRows tables.workstations tenant identifiers fun row =>
          row.record.ownerSubjectId = owner ∧ row.record.enabled ∧
            (requireOnline → row.present clock)
      else 0
    | .workerWorkstation, _ =>
      if identifiers = [workstation] then
        countRows tables.workstations tenant identifiers fun row =>
          row.record.enabled ∧ (requireOnline → row.present clock)
      else 0
    | .projects, some owner =>
      countRows tables.projects tenant identifiers fun row =>
        row.ownerSubjectId = owner ∧ row.workstationId = workstation ∧ row.enabled
    | .drawings, some owner =>
      countRows tables.drawings tenant identifiers fun row =>
        row.ownerSubjectId = owner ∧ row.workstationId = workstation ∧ row.enabled ∧
          ∀ p, project = some p → row.projectId = p
    | .drawingChains, some owner =>
      countRows tables.drawings tenant identifiers fun row =>
        row.ownerSubjectId = owner ∧ row.workstationId = workstation ∧ row.enabled ∧
          chainEnabled tables tenant row
    | _, none => 0

/-- `_write_transition`: the UPDATE with the cast of its result, its trigger and checks, then the
validator on the row that comes back. Whatever fails is reported with the same code. -/
def writeTransition (record : OperationRecord) (state : OperationState)
    (leaseExpiresAt startedAt completedAt : Option Int) (result : Option TaskResult)
    (errorCode : Option SafeCode) : Except String OperationRecord :=
  let row := { record with
    state := state
    leaseExpiresAt := leaseExpiresAt
    startedAt := startedAt
    completedAt := completedAt
    result := result
    errorCode := errorCode }
  match do
    require (Schema.storable result) "untranslatable_character"
    let row ← Schema.enforceOperationTransition record row
    Schema.rowChecks row
    row.validateStateShape
    pure row with
  | .ok row => .ok row
  | .error _ => .error "repository_failure"

/-- An UPDATE that succeeds has written its six columns and nothing else. -/
theorem writeTransition_row {record row : OperationRecord} {state : OperationState}
    {leaseExpiresAt startedAt completedAt : Option Int} {result : Option TaskResult}
    {errorCode : Option SafeCode}
    (h : writeTransition record state leaseExpiresAt startedAt completedAt result errorCode =
      .ok row) :
    row = { record with
      state := state
      leaseExpiresAt := leaseExpiresAt
      startedAt := startedAt
      completedAt := completedAt
      result := result
      errorCode := errorCode } := by
  unfold writeTransition at h
  simp only at h
  split at h
  · next written hwritten =>
    obtain rfl := Except.ok.inj h
    obtain ⟨-, hwritten⟩ := (require_bind_eq_ok _ _ _ _).1 hwritten
    obtain ⟨new, henforce, hwritten⟩ := bind_eq_ok.1 hwritten
    obtain ⟨_, -, hwritten⟩ := bind_eq_ok.1 hwritten
    obtain ⟨_, -, hwritten⟩ := bind_eq_ok.1 hwritten
    obtain rfl := pure_eq_ok.1 hwritten
    exact Schema.enforce_eq henforce
  · cases h

/-- A row keeps its identity and is not activated. -/
structure Steady (record row : OperationRecord) : Prop where
  identity : row.identity = record.identity
  active : row.state.isActive = true → record.state.isActive = true

theorem Steady.refl (record : OperationRecord) : Steady record record := ⟨rfl, id⟩

/-- A successful UPDATE to an inactive state, or of an active row, is steady. -/
theorem writeTransition_steady {record row : OperationRecord} {state : OperationState}
    {leaseExpiresAt startedAt completedAt : Option Int} {result : Option TaskResult}
    {errorCode : Option SafeCode}
    (h : writeTransition record state leaseExpiresAt startedAt completedAt result errorCode =
      .ok row) (hs : state.isActive = true → record.state.isActive = true) :
    Steady record row := by
  obtain rfl := writeTransition_row h
  exact ⟨rfl, hs⟩

def refreshLocked (record : OperationRecord) (now : Int) :
    Except String (OperationRecord × Bool) :=
  if record.state = .created ∧ record.expiresAt ≤ now then
    (·, true) <$> writeTransition record .expired none record.startedAt (some now) none
      (some .operationExpired)
  else if record.state = .leased ∧ record.leaseEnded now then
    (·, true) <$> writeTransition record .attentionRequired none record.startedAt (some now) none
      (some .leaseExpired)
  else if record.state = .running ∧ record.expiresAt ≤ now then
    let unknownWrite := record.task.isUnknownWrite
    (·, true) <$> writeTransition record
      (if unknownWrite then .attentionRequired else .expired) none record.startedAt (some now) none
      (some (if unknownWrite then .translationAttentionRequired else .operationExpired))
  else .ok (record, false)

/-- A refresh leaves the row or makes it terminal. -/
theorem refreshLocked_cases {record row : OperationRecord} {now : Int} {changed : Bool}
    (h : refreshLocked record now = .ok (row, changed)) :
    row = record ∨ row.identity = record.identity ∧ row.state.isTerminal = true := by
  unfold refreshLocked at h
  split at h
  · obtain ⟨x, hx, heq⟩ := map_eq_ok.1 h
    obtain rfl := (Prod.mk.inj heq).1
    exact .inr ((writeTransition_row hx) ▸ ⟨rfl, rfl⟩)
  · split at h
    · obtain ⟨x, hx, heq⟩ := map_eq_ok.1 h
      obtain rfl := (Prod.mk.inj heq).1
      exact .inr ((writeTransition_row hx) ▸ ⟨rfl, rfl⟩)
    · split at h
      · obtain ⟨x, hx, heq⟩ := map_eq_ok.1 h
        obtain rfl := (Prod.mk.inj heq).1
        refine .inr ((writeTransition_row hx) ▸ ⟨rfl, ?_⟩)
        cases record.task.isUnknownWrite <;> rfl
      · exact .inl (Prod.mk.inj (Except.ok.inj h)).1.symm

theorem isActive_of_terminal {state : OperationState} (h : state.isTerminal = true) :
    state.isActive = false := by
  cases state <;> simp_all [OperationState.isTerminal, OperationState.isActive]

/-- A row that is running after its refresh is the row before it. -/
theorem refreshLocked_running {record row : OperationRecord} {now : Int} {changed : Bool}
    (h : refreshLocked record now = .ok (row, changed)) (hs : row.state = .running) :
    row = record := by
  rcases refreshLocked_cases h with rfl | ⟨_, ht⟩
  · rfl
  · simp [hs, OperationState.isTerminal] at ht

/-- `start_operation` from the locked record on. -/
def startLocked (record : OperationRecord) (databaseNow : Int) :
    Except String (TransitionStatus × OperationRecord) :=
  if record.state = .leased ∧ record.leaseEnded databaseNow then
    (TransitionStatus.leaseExpired, ·) <$> writeTransition record .attentionRequired none
      record.startedAt (some databaseNow) none (some .leaseExpired)
  else if record.state ≠ .leased then .ok (.invalidState, record)
  else
    (TransitionStatus.updated, ·) <$> writeTransition record .running none (some databaseNow) none
      none none

theorem startLocked_steady {record : OperationRecord} {now : Int}
    {x : TransitionStatus × OperationRecord} (h : startLocked record now = .ok x) :
    Steady record x.2 := by
  unfold startLocked at h
  split at h
  · obtain ⟨row, hrow, rfl⟩ := map_eq_ok.1 h
    exact writeTransition_steady hrow (by simp [OperationState.isActive])
  · split at h
    · obtain rfl := Except.ok.inj h
      exact .refl record
    · next hs =>
      obtain ⟨row, hrow, rfl⟩ := map_eq_ok.1 h
      refine writeTransition_steady hrow fun _ => ?_
      rw [not_not.1 hs]
      rfl

/-- `finish_operation` from the locked record on, with the two times it reads the clock. -/
def finishLocked (record : OperationRecord) (databaseNow completionNow : Int)
    (state : OperationState) (result : Option TaskResult) (errorCode : Option SafeCode)
    (validateResultBindingLocked : OperationRecord → Option TaskResult → Except String Unit) :
    Except String (TransitionStatus × OperationRecord) := do
  let (refreshed, changed) ← refreshLocked record databaseNow
  if changed ∧ refreshed.state = .expired then pure (.operationExpired, refreshed)
  else if refreshed.state ≠ .running then pure (.invalidState, refreshed)
  else do
    -- `assert selected_result is not None or state is OperationState.FAILED`
    require (result ≠ none ∨ state = .failed) "repository_failure"
    validateResultBindingLocked refreshed result
    let (again, changed) ← refreshLocked refreshed completionNow
    if changed then pure (.operationExpired, again)
    else
      (TransitionStatus.updated, ·) <$> writeTransition refreshed state none refreshed.startedAt
        (some completionNow) result errorCode

/-- `_validate_application_records` -/
def validateApplicationRecords (operation : OperationRecord) (projects : List ProjectRecord)
    (drawings : List DrawingRecord) : Except String Unit := do
  require (∀ p ∈ projects, p.tenantId = operation.tenantId ∧
    p.ownerSubjectId = operation.ownerSubjectId ∧ p.workstationId = operation.workstationId)
    "invalid_terminal_payload"
  require (∀ d ∈ drawings, d.tenantId = operation.tenantId ∧
    d.ownerSubjectId = operation.ownerSubjectId ∧ d.workstationId = operation.workstationId)
    "invalid_terminal_payload"

/-- `apply_worker_success` from the locked record on. `upsertCatalog` is how the inserts into the
project and drawing tables end, which other transactions on those tables decide. -/
def applyLocked (record : OperationRecord) (databaseNow completionNow : Int)
    (result : TaskResult) (projects : List ProjectRecord) (drawings : List DrawingRecord)
    (upsertCatalog : Except String Unit)
    (validateResultBindingLocked : OperationRecord → Option TaskResult → Except String Unit) :
    Except String (TransitionStatus × OperationRecord) := do
  let (refreshed, changed) ← refreshLocked record databaseNow
  if changed ∧ refreshed.state = .expired then pure (.operationExpired, refreshed)
  else if refreshed.state = .succeeded then
    pure (if refreshed.result = some result then .updated else .invalidState, refreshed)
  else if refreshed.state ≠ .running then pure (.invalidState, refreshed)
  else do
    validateApplicationRecords refreshed projects drawings
    upsertCatalog
    validateResultBindingLocked refreshed (some result)
    require (completionNow < refreshed.expiresAt) "invalid_terminal_state"
    (TransitionStatus.updated, ·) <$> writeTransition refreshed .succeeded none
      refreshed.startedAt (some completionNow) (some result) none

/-- The `due` condition of the refresh statement in `lease_next_operation`. -/
def isDue (row : OperationRecord) (now : Int) : Bool :=
  match row.state with
  | .created | .running => decide (row.expiresAt ≤ now)
  | .leased => row.leaseEnded now
  | _ => false

/-- The row that the refresh statement writes over a due row. -/
def refreshStatement (row : OperationRecord) (now : Int) : Except String OperationRecord := do
  let unknownWrite := decide (row.state = .running) && row.task.isUnknownWrite
  let attention := decide (row.state = .leased) || unknownWrite
  let next ← Schema.enforceOperationTransition row { row with
    state := if attention then .attentionRequired else .expired
    leaseExpiresAt := none
    completedAt := some now
    result := none
    errorCode := some (if row.state = .leased then .leaseExpired
      else if unknownWrite then .translationAttentionRequired else .operationExpired) }
  Schema.rowChecks next
  pure next

/-- `_require_catalog_ids` -/
def requireCatalogIds (tables : CatalogTables) (clock : Int) (kind : CatalogKind)
    (identifiers : List String) (operation : OperationRecord) (projectId : Option ProjectId) :
    Except String Unit :=
  let expected := identifiers.dedup
  require (expected = [] ∨ lockCatalogRows tables clock kind operation.tenantId
    operation.ownerSubjectId operation.workstationId expected projectId false = expected.length)
    "invalid_terminal_payload"

/-- `_validate_result_binding_locked` -/
def validateResultBindingLocked (tables : CatalogTables) (clock : Int)
    (operation : OperationRecord) : Option TaskResult → Except String Unit
  | none => .ok ()
  | some (.translation drawingId response) => do
    match operation.task with
    | .translation taskDrawing request => do
      require (drawingId = taskDrawing) "invalid_terminal_payload"
      match requireMatchingResult request response with
      | .ok () => .ok ()
      | .error _ => .error "invalid_terminal_payload"
    | _ => .error "invalid_terminal_payload"
    requireCatalogIds tables clock .drawings [drawingId] operation none
  | some result => do
    require (result.command = operation.task.command) "invalid_terminal_payload"
    match result, operation.task with
    | .listProjects projectIds, _ =>
      requireCatalogIds tables clock .projects projectIds.items operation none
    | .scanDrawings projectId drawingIds _, .scanDrawings taskProject .. => do
      require (projectId = taskProject) "invalid_terminal_payload"
      require (lockCatalogRows tables clock .projects operation.tenantId operation.ownerSubjectId
        operation.workstationId [taskProject] none false = 1) "invalid_terminal_payload"
      requireCatalogIds tables clock .drawings drawingIds.items operation (some taskProject)
    | .inspectDrawing drawingId .., .inspectDrawing taskDrawing
    | .createPublishPlan drawingId .., .createPublishPlan taskDrawing => do
      require (drawingId = taskDrawing) "invalid_terminal_payload"
      requireCatalogIds tables clock .drawings [drawingId] operation none
    | .validateEnvironment .., _ => .ok ()
    | _, _ => .error "invalid_terminal_payload"

/-- The rows a tenant-scoped repository works on. -/
structure Database where
  tables : CatalogTables
  operations : Dict (TenantId × OperationId) OperationRecord

abbrev Call (α : Type) := Except String α × Database

def Database.store (db : Database) (record : OperationRecord) : Database :=
  { db with operations := db.operations.set (record.tenantId, record.operationId) record }

/-- `_lock_worker_workstation` without an owner. -/
def lockWorkerWorkstation (db : Database) (clock : Int) (tenantId : TenantId)
    (workstationId : WorkstationId) : Except String Unit :=
  require (lockCatalogRows db.tables clock .workerWorkstation tenantId none workstationId
    [workstationId] none false = 1) "catalog_conflict"

/-- `_lock_operation`, with the workstation when the caller names it. -/
def lockOperation (db : Database) (tenantId : TenantId) (operationId : OperationId)
    (workstationId : Option WorkstationId) : Option OperationRecord :=
  match db.operations.get (tenantId, operationId) with
  | none => none
  | some record =>
    if ∀ w, workstationId = some w → record.workstationId = w then some record else none

/-- A transaction of `start_operation` or `finish_operation`: the scope check, the workstation
lock, the row lock and what is made of the row. -/
def transitionLocked (scope : TenantId) (operationId : OperationId) (tenantId : TenantId)
    (workstationId : WorkstationId) (clock : Int)
    (transition : OperationRecord → Except String (TransitionStatus × OperationRecord))
    (db : Database) : Call TransitionOutcome :=
  if tenantId ≠ scope then (.error "tenant_scope_mismatch", db)
  else
    match lockWorkerWorkstation db clock scope workstationId with
    | .error code => (.error code, db)
    | .ok () =>
      match lockOperation db scope operationId (some workstationId) with
      | none => (.ok ⟨.notFound, none⟩, db)
      | some record =>
        match transition record with
        | .error code => (.error code, db)
        | .ok (status, next) => (.ok ⟨status, some next⟩, db.store next)

def refreshOperation (scope : TenantId) (operationId : OperationId) (databaseNow : Int)
    (db : Database) : Call (Option OperationRecord) :=
  match lockOperation db scope operationId none with
  | none => (.ok none, db)
  | some record =>
    match refreshLocked record databaseNow with
    | .error code => (.error code, db)
    | .ok (refreshed, _) => (.ok (some refreshed), db.store refreshed)

def startOperation (scope : TenantId) (operationId : OperationId) (tenantId : TenantId)
    (workstationId : WorkstationId) (databaseNow : Int) (db : Database) :
    Call TransitionOutcome :=
  transitionLocked scope operationId tenantId workstationId databaseNow
    (startLocked · databaseNow) db

def finishOperation (scope : TenantId) (operationId : OperationId) (tenantId : TenantId)
    (workstationId : WorkstationId) (databaseNow completionNow : Int) (state : OperationState)
    (result : Option TaskResult) (errorCode : Option SafeCode) (db : Database) :
    Call TransitionOutcome :=
  if tenantId ≠ scope then (.error "tenant_scope_mismatch", db)
  else if ¬(state = .succeeded ∨ state = .failed ∨ state = .attentionRequired) then
    (.error "invalid_terminal_state", db)
  else if state = .succeeded ∧ (result = none ∨ errorCode ≠ none) then
    (.error "invalid_terminal_payload", db)
  else if state ≠ .succeeded ∧ (result ≠ none ∨ errorCode = none) then
    (.error "invalid_terminal_payload", db)
  else
    transitionLocked scope operationId tenantId workstationId databaseNow
      (finishLocked · databaseNow completionNow state result errorCode
        (validateResultBindingLocked db.tables databaseNow)) db

end CadPlot.Gateway.Postgres
