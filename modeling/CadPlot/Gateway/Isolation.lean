import CadPlot.Gateway.Lifecycle
import CadPlot.Gateway.Requests

/-!
# A principal sees its own rows only

Two runs of one call, over stores that agree on the rows of the principal and on
nothing else, give the same answer. Each check of the service reads a row in such
a way that a row of somebody else is as good as none, and a listing keeps the
rows of the principal in the order of their identifiers, whatever the order in
which the store holds them.
-/

namespace CadPlot.Gateway.Requests

open Service InMemoryGatewayRepository

variable {principal : PrincipalContext} {repo repo' : InMemoryGatewayRepository}

/-- Rows are stored under their own identifiers, and the idempotency index is that of the
operations. -/
structure Consistent (repo : InMemoryGatewayRepository) : Prop where
  workstations : ∀ k r, repo.workstations.get k = some r → r.workstationId = k
  projects : ∀ k r, repo.projects.get k = some r → r.projectId = k
  drawings : ∀ k r, repo.drawings.get k = some r → r.drawingId = k
  indexed : ∀ key id, repo.idempotency.get key = some id →
    ∃ r, repo.operations.get id = some r ∧ r.idempotencyIndex = key
  complete : ∀ id r, repo.operations.get id = some r →
    repo.idempotency.get r.idempotencyIndex = some id

/-- A row of the principal's tenant and subject. -/
def Own (principal : PrincipalContext) (tenantId : TenantId) (ownerSubjectId : SubjectId) : Prop :=
  tenantId = principal.tenantId ∧ ownerSubjectId = principal.subjectId

/-- The two stores hold the same rows of the principal. -/
structure Agree (principal : PrincipalContext) (repo repo' : InMemoryGatewayRepository) : Prop where
  workstations : Dict.AgreeOn (fun r : WorkstationRecord =>
    Own principal r.tenantId r.ownerSubjectId) repo.workstations repo'.workstations
  projects : Dict.AgreeOn (fun r : ProjectRecord =>
    Own principal r.tenantId r.ownerSubjectId) repo.projects repo'.projects
  drawings : Dict.AgreeOn (fun r : DrawingRecord =>
    Own principal r.tenantId r.ownerSubjectId) repo.drawings repo'.drawings
  operations : Dict.AgreeOn (fun r : OperationRecord => ownsOperation principal r = true)
    repo.operations repo'.operations

theorem not_usable {enabled : Bool} {tenantId : TenantId} {ownerSubjectId : SubjectId}
    (h : ¬Own principal tenantId ownerSubjectId) :
    usable principal enabled tenantId ownerSubjectId = false := by
  have hown : decide (tenantId = principal.tenantId ∧ ownerSubjectId = principal.subjectId) =
      false := decide_eq_false h
  rw [usable, hown, Bool.and_false]

/-- An operation indexed under the principal is the principal's. -/
theorem owns_of_index {r : OperationRecord} {key : IdempotencyKey}
    (h : r.idempotencyIndex =
      (principal.tenantId, principal.subjectId, principal.clientId, key)) :
    ownsOperation principal r = true := by
  have hparts : r.tenantId = principal.tenantId ∧ r.ownerSubjectId = principal.subjectId ∧
      r.clientId = principal.clientId ∧ r.idempotencyKey = key := by
    simpa [OperationRecord.idempotencyIndex] using h
  exact decide_eq_true ⟨hparts.1, hparts.2.1, hparts.2.2.1⟩

section Lookups

variable (ha : Agree principal repo repo')

include ha

theorem requireWorkstation_agree (id : WorkstationId) (online : Bool) :
    requireWorkstation principal (catalog repo) id online =
      requireWorkstation principal (catalog repo') id online := by
  refine ha.workstations.read (f := fun row => requireWorkstation principal
    ⟨fun _ => row, fun _ => none, fun _ => none⟩ id online) ?_ id
  intro r hr
  simp [requireWorkstation, not_usable hr]

theorem requireProject_agree (id : ProjectId) (online : Bool) :
    requireProject principal (catalog repo) id online =
      requireProject principal (catalog repo') id online := by
  have hread := ha.projects.read (f := fun row => requireProject principal
    ⟨(catalog repo).workstation, fun _ => row, fun _ => none⟩ id online) (by
      intro r hr
      simp [requireProject, not_usable hr]) id
  refine Eq.trans hread ?_
  have hworkstation : ∀ k, requireWorkstation principal
      ⟨(catalog repo).workstation, fun _ => repo'.projects.get id, fun _ => none⟩ k online =
      requireWorkstation principal (catalog repo') k online :=
    fun k => requireWorkstation_agree ha k online
  unfold requireProject
  simp only [hworkstation]
  rfl

theorem requireDrawing_agree (id : DrawingId) (online : Bool) :
    requireDrawing principal (catalog repo) id online =
      requireDrawing principal (catalog repo') id online := by
  have hread := ha.drawings.read (f := fun row => requireDrawing principal
    ⟨(catalog repo).workstation, (catalog repo).project, fun _ => row⟩ id online) (by
      intro r hr
      simp [requireDrawing, not_usable hr]) id
  refine Eq.trans hread ?_
  have hproject : ∀ k, requireProject principal
      ⟨(catalog repo).workstation, (catalog repo).project, fun _ => repo'.drawings.get id⟩ k
        online = requireProject principal (catalog repo') k online :=
    fun k => requireProject_agree ha k online
  unfold requireDrawing
  simp only [hproject]
  rfl

theorem requireOperationOwner_agree (id : OperationId) :
    requireOperationOwner principal (repo.operations.get id) =
      requireOperationOwner principal (repo'.operations.get id) := by
  refine ha.operations.read ?_ id
  intro r hr
  simp [requireOperationOwner, hr]

theorem getOperation_agree (ctx : ServiceContext) (operationId : OperationId) :
    (getOperation ctx principal operationId repo).1 =
      (getOperation ctx principal operationId repo').1 := by
  have howner := requireOperationOwner_agree ha operationId
  cases hget : requireOperationOwner principal (repo.operations.get operationId) with
  | error e =>
    rw [hget] at howner
    simp only [getOperation, hget, ← howner]
    cases requireScope principal .read <;> rfl
  | ok r =>
    have hrow : repo.operations.get operationId = some r ∧ ownsOperation principal r = true := by
      unfold requireOperationOwner at hget
      split at hget
      · cases hget
      · split at hget
        · next record hrecord hown => exact ⟨Except.ok.inj hget ▸ hrecord, Except.ok.inj hget ▸ hown⟩
        · cases hget
    have hrow' := (ha.operations operationId r hrow.2).1 hrow.1
    simp only [getOperation, hrow.1, hrow', refreshOperation]
    cases InMemory.refreshDue r ctx.now with
    | error code => split <;> rfl
    | ok refreshed => split <;> rfl

theorem place_agree (ctx : ServiceContext) (request : Request) :
    place ctx principal repo request = place ctx principal repo' request := by
  cases request with
  | enqueueTranslation key drawingId request =>
    have hkey : ∀ drawing workstation,
        translationKey ctx principal key drawing workstation request repo =
          translationKey ctx principal key drawing workstation request repo' := by
      intro drawing workstation
      cases request with
      | apply inventoryId reviewId approvedPlanId planOperationId =>
        simp only [translationKey, requireOperationOwner_agree ha]
      | _ => rfl
    simp only [place, requireDrawing_agree ha, hkey]
  | enqueueValidateEnvironment | enqueueListProjects =>
    simp only [place, requireWorkstation_agree ha]
  | enqueueScanDrawings => simp only [place, requireProject_agree ha]
  | enqueueInspectDrawing | enqueueCreatePublishPlan =>
    simp only [place, requireDrawing_agree ha]
  | listWorkstations | listProjects | getOperation => rfl

end Lookups

section Listings

variable {ν : Type} {id : ν → String} {rows rows' : Dict String ν} {keep own : ν → Prop}

/-- The rows of a keyed dictionary have their keys for identifiers. -/
theorem map_id_values (hkeyed : ∀ k r, rows.get k = some r → id r = k) :
    (rows.entries.map Prod.snd).map id = rows.entries.map Prod.fst := by
  rw [List.map_map]
  refine List.map_congr_left fun e he => ?_
  exact hkeyed e.1 e.2 ((rows.mem_entries_iff e.1 e.2).1 he)

theorem mem_values {r : ν} (hkeyed : ∀ k r, rows.get k = some r → id r = k) :
    r ∈ rows.entries.map Prod.snd ↔ rows.get (id r) = some r := by
  constructor
  · intro h
    obtain ⟨⟨k, r'⟩, he, rfl⟩ := List.mem_map.1 h
    have hget := (rows.mem_entries_iff k r').1 he
    rwa [hkeyed k r' hget]
  · intro h
    exact List.mem_map.2 ⟨(id r, r), (rows.mem_entries_iff _ _).2 h, rfl⟩

/-- Two stores list the same kept rows in the same order. -/
theorem listed_agree (keep : ν → Bool) (hkeyed : ∀ k r, rows.get k = some r → id r = k)
    (hkeyed' : ∀ k r, rows'.get k = some r → id r = k) (hagree : Dict.AgreeOn own rows rows')
    (hown : ∀ r, keep r = true → own r) : listed keep id rows = listed keep id rows' := by
  have hnodup : ∀ d : Dict String ν, (∀ k r, d.get k = some r → id r = k) →
      ((d.entries.map Prod.snd).filter keep).Nodup := by
    intro d hd
    have hvalues : (d.entries.map Prod.snd).Nodup := by
      refine List.Nodup.of_map id ?_
      rw [map_id_values hd]
      exact d.nodup
    exact hvalues.filter keep
  have hmem : ∀ r, r ∈ (rows.entries.map Prod.snd).filter keep ↔
      r ∈ (rows'.entries.map Prod.snd).filter keep := by
    intro r
    rw [List.mem_filter, List.mem_filter, mem_values hkeyed, mem_values hkeyed']
    exact and_congr_left fun hkeep => hagree (id r) r (hown r hkeep)
  have hperm := (List.perm_ext_iff_of_nodup (hnodup rows hkeyed) (hnodup rows' hkeyed')).2 hmem
  have hsorted : ∀ xs : List ν, (xs.insertionSort fun a b => id a ≤ id b).Pairwise
      fun a b => id a ≤ id b := fun xs => List.pairwise_insertionSort _ xs
  refine List.Perm.eq_of_pairwise ?_ (hsorted _) (hsorted _)
    ((List.perm_insertionSort _ _).trans (hperm.trans (List.perm_insertionSort _ _).symm))
  -- two rows of one identifier are the same row
  intro a b hamem hbmem hab hba
  have ha := (mem_values hkeyed').1 (List.mem_of_mem_filter ((hmem a).1
    ((List.mem_insertionSort _).1 hamem)))
  have hb := (mem_values hkeyed').1 (List.mem_of_mem_filter ((List.mem_insertionSort _).1 hbmem))
  have hid : id a = id b := String.le_antisymm hab hba
  rw [hid] at ha
  exact Option.some.inj (ha.symm.trans hb)

end Listings

section Serve

variable (hc : Consistent repo) (hc' : Consistent repo') (ha : Agree principal repo repo')

include hc hc' ha

theorem listWorkstations_agree :
    listWorkstations principal repo = listWorkstations principal repo' := by
  refine listed_agree _ hc.workstations hc'.workstations ha.workstations fun r hkeep => ?_
  by_contra hown
  rw [not_usable hown] at hkeep
  cases hkeep

theorem listProjects_agree (workstationId : Option WorkstationId) :
    listProjects principal workstationId repo = listProjects principal workstationId repo' := by
  refine listed_agree _ hc.projects hc'.projects ha.projects fun r hkeep => ?_
  by_contra hown
  rw [not_usable hown] at hkeep
  cases hkeep

/-- The index finds the same operation of the principal in both stores, or none. -/
theorem idempotency_agree (key : IdempotencyKey) :
    repo.idempotency.get (principal.tenantId, principal.subjectId, principal.clientId, key) =
      repo'.idempotency.get (principal.tenantId, principal.subjectId, principal.clientId, key) := by
  have hfound : ∀ {d d' : InMemoryGatewayRepository} {id : OperationId}, Consistent d →
      Consistent d' → Agree principal d d' →
      d.idempotency.get (principal.tenantId, principal.subjectId, principal.clientId, key) =
        some id →
      d'.idempotency.get (principal.tenantId, principal.subjectId, principal.clientId, key) =
        some id := by
    intro d d' id hd hd' hdd hget
    obtain ⟨r, hr, hkey⟩ := hd.indexed _ _ hget
    have hcomplete := hd'.complete id r ((hdd.operations id r (owns_of_index hkey)).1 hr)
    rwa [hkey] at hcomplete
  have hsymm : Agree principal repo' repo :=
    ⟨fun k r h => (ha.workstations k r h).symm, fun k r h => (ha.projects k r h).symm,
      fun k r h => (ha.drawings k r h).symm, fun k r h => (ha.operations k r h).symm⟩
  cases hget : repo.idempotency.get
      (principal.tenantId, principal.subjectId, principal.clientId, key) with
  | some id => exact (hfound hc hc' ha hget).symm
  | none =>
    cases hget' : repo'.idempotency.get
        (principal.tenantId, principal.subjectId, principal.clientId, key) with
    | none => rfl
    | some id =>
      rw [hfound hc' hc hsymm hget'] at hget
      cases hget

end Serve

/-- The same answer, or an operation created under the identifier of each run. -/
def SameButId (id id' : OperationId) (x y : Except ServiceError Response) : Prop :=
  x = y ∨ ∃ view : OperationView, x = .ok (.operation { view with operationId := id }) ∧
    y = .ok (.operation { view with operationId := id' })

theorem enqueue_agree (hc : Consistent repo) (hc' : Consistent repo')
    (ha : Agree principal repo repo') (ctx : ServiceContext) (id' : OperationId)
    (workstation : WorkstationRecord) (key : IdempotencyKey) (task : ReadTask) :
    SameButId ctx.newOperationId id' (enqueue ctx principal workstation key task repo).1
      (enqueue { ctx with newOperationId := id' } principal workstation key task repo').1 := by
  have hvalidate : (requestedOperation { ctx with newOperationId := id' } principal workstation key
      task).validateStateShape =
      (requestedOperation ctx principal workstation key task).validateStateShape := rfl
  unfold enqueue InMemory.updated
  rw [hvalidate]
  cases (requestedOperation ctx principal workstation key task).validateStateShape with
  | error code => exact .inl rfl
  | ok u =>
    have hindex := idempotency_agree hc hc' ha key
    simp only [bind, Except.bind, pure, Except.pure, createOrGetOperation,
      OperationRecord.idempotencyIndex, requestedOperation]
    rw [← hindex]
    cases hget : repo.idempotency.get
        (principal.tenantId, principal.subjectId, principal.clientId, key) with
    | none => exact .inr ⟨(requestedOperation ctx principal workstation key task).view, rfl, rfl⟩
    | some id =>
      obtain ⟨r, hr, hkey⟩ := hc.indexed _ _ hget
      have hr' := (ha.operations id r (owns_of_index hkey)).1 hr
      simp only [hr, hr']
      refine .inl ?_
      split <;> rfl

theorem serve_agree (hc : Consistent repo) (hc' : Consistent repo')
    (ha : Agree principal repo repo') (ctx : ServiceContext) (id' : OperationId)
    (request : Request) :
    SameButId ctx.newOperationId id' (serve ctx principal request repo).1
      (serve { ctx with newOperationId := id' } principal request repo').1 := by
  have hplace : place { ctx with newOperationId := id' } principal repo' request =
      place ctx principal repo request := by
    rw [place_agree ha]
    cases request with
    | enqueueTranslation key drawingId request => cases request <;> rfl
    | _ => rfl
  unfold serve
  rw [hplace]
  cases hp : place ctx principal repo request with
  | some placed =>
    cases placed with
    | error error => exact .inl rfl
    | ok p => exact enqueue_agree hc hc' ha ctx id' p.workstation p.idempotencyKey p.task
  | none =>
    refine .inl ?_
    cases request with
    | getOperation operationId => exact getOperation_agree ha ctx operationId
    | listProjects workstationId =>
      have hselect : selectWorkstation principal (catalog repo) workstationId =
          selectWorkstation principal (catalog repo') workstationId := by
        cases workstationId with
        | none => rfl
        | some id => simp only [selectWorkstation, requireWorkstation_agree ha]
      simp only [hselect, listProjects_agree hc hc' ha]
    | listWorkstations => simp only [listWorkstations_agree hc hc' ha]
    | _ => cases hp

/-- A request that names a row, up to the identifier it names. -/
inductive Ask where
  | listProjects
  | enqueueValidateEnvironment (idempotencyKey : IdempotencyKey)
  | enqueueListProjects (idempotencyKey : IdempotencyKey)
  | enqueueScanDrawings (idempotencyKey : IdempotencyKey) (recursive : Bool) (limit : Nat)
  | enqueueInspectDrawing (idempotencyKey : IdempotencyKey)
  | enqueueCreatePublishPlan (idempotencyKey : IdempotencyKey)
  | enqueueTranslation (idempotencyKey : IdempotencyKey) (request : TranslationRequest)
  | enqueueApproved (idempotencyKey : IdempotencyKey) (drawingId : DrawingId)
      (inventoryId reviewId approvedPlanId : HashId)
  | getOperation

namespace Ask

def about (id : String) : Ask → Request
  | listProjects => .listProjects (some id)
  | enqueueValidateEnvironment key => .enqueueValidateEnvironment key id
  | enqueueListProjects key => .enqueueListProjects key id
  | enqueueScanDrawings key recursive limit => .enqueueScanDrawings key id recursive limit
  | enqueueInspectDrawing key => .enqueueInspectDrawing key id
  | enqueueCreatePublishPlan key => .enqueueCreatePublishPlan key id
  | enqueueTranslation key request => .enqueueTranslation key id request
  | enqueueApproved key drawingId inventoryId reviewId approvedPlanId =>
    .enqueueTranslation key drawingId (.apply inventoryId reviewId approvedPlanId id)
  | getOperation => .getOperation id

/-- The store holds the named row, and it is the principal's. -/
def Visible (principal : PrincipalContext) (repo : InMemoryGatewayRepository) (id : String) :
    Ask → Prop
  | listProjects | enqueueValidateEnvironment _ | enqueueListProjects _ =>
    ∃ r, repo.workstations.get id = some r ∧ Own principal r.tenantId r.ownerSubjectId
  | enqueueScanDrawings .. =>
    ∃ r, repo.projects.get id = some r ∧ Own principal r.tenantId r.ownerSubjectId
  | enqueueInspectDrawing _ | enqueueCreatePublishPlan _ | enqueueTranslation .. =>
    ∃ r, repo.drawings.get id = some r ∧ Own principal r.tenantId r.ownerSubjectId
  | enqueueApproved .. | getOperation =>
    ∃ r, repo.operations.get id = some r ∧ ownsOperation principal r = true

end Ask

/-- The request is refused for its size, before anything is looked up. -/
def BatchTooLarge : Request → Prop
  | .enqueueTranslation key drawingId request =>
    maxTranslationBatchBytes < (Text.utf8 (translationBatch key drawingId request)).length
  | _ => False

section Hidden

variable {id : String}

theorem requireWorkstation_hidden {online : Bool}
    (h : ¬∃ r, repo.workstations.get id = some r ∧ Own principal r.tenantId r.ownerSubjectId) :
    requireWorkstation principal (catalog repo) id online = refuse "not_found" := by
  unfold requireWorkstation
  split
  · rfl
  · next r hr => rw [if_pos (by simp [not_usable fun hown => h ⟨r, hr, hown⟩])]

theorem requireProject_hidden {online : Bool}
    (h : ¬∃ r, repo.projects.get id = some r ∧ Own principal r.tenantId r.ownerSubjectId) :
    requireProject principal (catalog repo) id online = refuse "not_found" := by
  unfold requireProject
  split
  · rfl
  · next r hr => rw [if_pos (by simp [not_usable fun hown => h ⟨r, hr, hown⟩])]

theorem requireDrawing_hidden {online : Bool}
    (h : ¬∃ r, repo.drawings.get id = some r ∧ Own principal r.tenantId r.ownerSubjectId) :
    requireDrawing principal (catalog repo) id online = refuse "not_found" := by
  unfold requireDrawing
  split
  · rfl
  · next r hr => rw [if_pos (by simp [not_usable fun hown => h ⟨r, hr, hown⟩])]

theorem requireOperationOwner_hidden
    (h : ¬∃ r, repo.operations.get id = some r ∧ ownsOperation principal r = true) :
    requireOperationOwner principal (repo.operations.get id) = refuse "not_found" := by
  unfold requireOperationOwner
  split
  · rfl
  · next r hr => rw [if_neg fun hown => h ⟨r, hr, hown⟩]

end Hidden

/-- What a request answers about a row that is not the principal's does not depend on which. -/
theorem serve_hidden (ctx : ServiceContext) (ask : Ask) {id id' : String}
    (hid : ¬ask.Visible principal repo id) (hid' : ¬ask.Visible principal repo id')
    (hsize : BatchTooLarge (ask.about id) ↔ BatchTooLarge (ask.about id')) :
    (serve ctx principal (ask.about id) repo).1 = (serve ctx principal (ask.about id') repo).1 := by
  cases ask with
  | listProjects =>
    simp only [Ask.about, serve, place, selectWorkstation, requireWorkstation_hidden hid,
      requireWorkstation_hidden hid']
  | enqueueValidateEnvironment | enqueueListProjects =>
    simp only [Ask.about, serve, place, requireWorkstation_hidden hid,
      requireWorkstation_hidden hid']
  | enqueueScanDrawings =>
    simp only [Ask.about, serve, place, requireProject_hidden hid, requireProject_hidden hid']
  | enqueueInspectDrawing | enqueueCreatePublishPlan =>
    simp only [Ask.about, serve, place, requireDrawing_hidden hid, requireDrawing_hidden hid']
  | enqueueTranslation key request =>
    simp only [Ask.about, BatchTooLarge] at hsize
    simp only [Ask.about, serve, place, requireDrawing_hidden hid, requireDrawing_hidden hid', hsize]
  | enqueueApproved key drawingId inventoryId reviewId approvedPlanId =>
    have hkey : ∀ drawing workstation,
        translationKey ctx principal key drawing workstation
          (.apply inventoryId reviewId approvedPlanId id) repo = refuse "not_found" ∧
        translationKey ctx principal key drawing workstation
          (.apply inventoryId reviewId approvedPlanId id') repo = refuse "not_found" := by
      intro drawing workstation
      simp only [translationKey, requireOperationOwner_hidden hid,
        requireOperationOwner_hidden hid']
      exact ⟨rfl, rfl⟩
    simp only [Ask.about, BatchTooLarge] at hsize
    by_cases hbig : maxTranslationBatchBytes < (Text.utf8 (translationBatch key drawingId
        (.apply inventoryId reviewId approvedPlanId id'))).length
    · simp only [Ask.about, serve, place, hkey, if_pos (hsize.2 hbig), if_pos hbig]
    · simp only [Ask.about, serve, place, hkey, if_neg fun h => hbig (hsize.1 h), if_neg hbig]
      cases requireScope principal .translate with
      | error e => rfl
      | ok u =>
        cases requireScope principal .read with
        | error e => rfl
        | ok u => cases requireDrawing principal (catalog repo) drawingId true <;> rfl
  | getOperation =>
    simp only [Ask.about, serve, place, getOperation, requireOperationOwner_hidden hid,
      requireOperationOwner_hidden hid']
    cases requireScope principal .read <;> rfl

/-- What a principal can learn from the service of a store. -/
structure Isolated (principal : PrincipalContext) (repo : InMemoryGatewayRepository) : Prop where
  others : ∀ repo' ctx id' request, Consistent repo' → Agree principal repo repo' →
    SameButId ctx.newOperationId id' (serve ctx principal request repo).1
      (serve { ctx with newOperationId := id' } principal request repo').1
  hidden : ∀ ctx (ask : Ask) id id', ¬ask.Visible principal repo id →
    ¬ask.Visible principal repo id' →
    (BatchTooLarge (ask.about id) ↔ BatchTooLarge (ask.about id')) →
    (serve ctx principal (ask.about id) repo).1 = (serve ctx principal (ask.about id') repo).1

/-- Every principal is isolated from the rows of all others. -/
theorem service_isolated (principal : PrincipalContext) (repo : InMemoryGatewayRepository)
    (hc : Consistent repo) : Isolated principal repo where
  others _ ctx id' request hc' ha := serve_agree hc hc' ha ctx id' request
  hidden ctx ask _ _ hid hid' hsize := serve_hidden ctx ask hid hid' hsize

/-- A store of one workstation of this owner and one queued operation. -/
def storeOf (tenantId : TenantId) (ownerSubjectId : SubjectId) : InMemoryGatewayRepository :=
  let operation : OperationRecord :=
    { listingOperation "op_00000000-0000-4000-8000-000000000001"
        "idem_00000000-0000-4000-8000-000000000001" 0 with
      tenantId := tenantId
      ownerSubjectId := ownerSubjectId }
  { workstations := Dict.empty.set operation.workstationId
      ⟨operation.workstationId, tenantId, ownerSubjectId, "Workstation A", true, true⟩
    projects := Dict.empty
    drawings := Dict.empty
    operations := Dict.empty.set operation.operationId operation
    idempotency := Dict.empty.set operation.idempotencyIndex operation.operationId }

theorem storeOf_consistent (tenantId : TenantId) (ownerSubjectId : SubjectId) :
    Consistent (storeOf tenantId ownerSubjectId) where
  workstations := Dict.forall_set (by simp) rfl
  projects := by simp [storeOf]
  drawings := by simp [storeOf]
  indexed := Dict.forall_set (by simp) ⟨_, Dict.get_set_same .., rfl⟩
  complete := Dict.forall_set (by simp) (Dict.get_set_same ..)

def stranger : PrincipalContext where
  tenantId := "tnt_00000000-0000-4000-8000-000000000002"
  subjectId := "usr_00000000-0000-4000-8000-000000000002"
  clientId := "cli_00000000-0000-4000-8000-000000000001"
  scopes := [.read]

def servedAt (now : Int) : ServiceContext where
  operationTtl := 900000000
  sha256 _ := []
  approvalNow := now
  now := now
  newOperationId := "op_00000000-0000-4000-8000-000000000003"

/-- A stranger asks for an operation of somebody else, and for one that does not exist. -/
theorem service_isolated_stranger :
    (serve (servedAt 1) stranger (.getOperation "op_00000000-0000-4000-8000-000000000001")
      (storeOf "tnt_00000000-0000-4000-8000-000000000001"
        "usr_00000000-0000-4000-8000-000000000001")).1 = refuse "not_found" ∧
    (serve (servedAt 1) stranger (.getOperation "op_00000000-0000-4000-8000-000000000001")
      (storeOf "tnt_00000000-0000-4000-8000-000000000001"
        "usr_00000000-0000-4000-8000-000000000001")).1 =
    (serve (servedAt 1) stranger (.getOperation "op_00000000-0000-4000-8000-000000000009")
      (storeOf "tnt_00000000-0000-4000-8000-000000000001"
        "usr_00000000-0000-4000-8000-000000000001")).1 := by
  refine ⟨by decide +kernel, ?_⟩
  refine (service_isolated stranger _ (storeOf_consistent _ _)).hidden (servedAt 1) .getOperation
    _ _ ?_ ?_ Iff.rfl
  · rintro ⟨r, hr, hown⟩
    obtain rfl := Option.some.inj ((Dict.get_set_same ..).symm.trans hr)
    revert hown
    decide
  · rintro ⟨r, hr, -⟩
    have hnone : (storeOf "tnt_00000000-0000-4000-8000-000000000001"
        "usr_00000000-0000-4000-8000-000000000001").operations.get
        "op_00000000-0000-4000-8000-000000000009" = none := by decide +kernel
    rw [hnone] at hr
    cases hr

end CadPlot.Gateway.Requests
