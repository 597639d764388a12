import CadPlot.Gateway.MemorySpec
import CadPlot.Gateway.Postgres
import CadPlot.Gateway.Service
import Mathlib.Data.List.Perm.Basic
import Mathlib.Data.List.Dedup

/-!
# The two repositories on one record

Start, refresh and finish of the Postgres repository against those of the
in-memory repository, at one clock, over a catalog that holds the referenced
rows. Both are compared with the life of the record; they part in two places,
the assertion before a finish that asks for attention and the column type of a
result.
-/

namespace CadPlot.Gateway.Postgres

open OperationRecord

/-- Both calls return the same value, or both raise. -/
def Agree {α ε ε' : Type} (a : Except ε α) (b : Except ε' α) : Prop :=
  match a, b with
  | .ok x, .ok y => x = y
  | .error _, .error _ => True
  | _, _ => False

instance {α ε ε' : Type} [DecidableEq α] (a : Except ε α) (b : Except ε' α) :
    Decidable (Agree a b) :=
  match a, b with
  | .ok x, .ok y => inferInstanceAs (Decidable (x = y))
  | .error _, .error _ => .isTrue trivial
  | .ok _, .error _ => .isFalse id
  | .error _, .ok _ => .isFalse id

theorem agree_ok {α ε ε' : Type} (x : α) : Agree (.ok x : Except ε α) (.ok x : Except ε' α) := rfl

theorem agree_map {α β ε ε' : Type} {a : Except ε α} {b : Except ε' α} (f : α → β)
    (h : Agree a b) : Agree (f <$> a) (f <$> b) := by
  cases a <;> cases b <;> simp_all [Agree, Functor.map, Except.map]

/-- A call that raises agrees with an in-memory update exactly when that one raises too. -/
theorem agree_error_iff {α : Type} (row : OperationRecord) (f : OperationRecord → α)
    (code : String) :
    Agree (f <$> InMemory.updated row) (.error code : Except String α) ↔ ¬row.Valid := by
  unfold InMemory.updated OperationRecord.Valid
  cases row.validateStateShape <;>
    simp [Agree, Functor.map, Except.map, bind, Except.bind, pure, Except.pure]

/-- The checks of the table follow from the validator, but for the codes it lists. -/
theorem rowChecks_of_valid {r : OperationRecord} (hv : r.Valid)
    (hexpired : r.state = .expired → r.errorCode = some .operationExpired)
    (hattention : r.state = .attentionRequired → r.errorCode = some .leaseExpired ∨
      r.errorCode = some .translationAttentionRequired ∨ r.errorCode = some .workerFailure) :
    Schema.rowChecks r = .ok () := by
  obtain ⟨hd, hshape⟩ := (valid_iff r).1 hv
  simp only [Schema.rowChecks, require_bind_eq_ok, require_eq_ok]
  refine ⟨hd.expiry, hd.lease, hd.start, fun c hc => ⟨hd.completion c hc, hd.order c hc⟩, ?_⟩
  cases hs : r.state with
  | created | leased | running | succeeded | failed =>
    simp only [validateShapeOfState, validateShapeOfState.terminalShape, hs, require_eq_ok,
      require_bind_eq_ok] at hshape
    simp_all [Schema.stateShapeCheck]
  | expired =>
    simp only [validateShapeOfState, validateShapeOfState.terminalShape, hs, require_eq_ok,
      require_bind_eq_ok] at hshape
    obtain ⟨⟨hc, _, hres, hl⟩, hexp⟩ := hshape
    obtain ⟨c, hc⟩ := Option.ne_none_iff_exists'.1 hc
    have hle := hexp c hc
    simp [Schema.stateShapeCheck, hs, hl, hres, hc, hle, hexpired hs, Schema.notBefore,
      Schema.codeAmong, SafeCode.operationExpired]
  | attentionRequired =>
    simp only [validateShapeOfState, validateShapeOfState.terminalShape, hs, require_eq_ok]
      at hshape
    obtain ⟨hc, _, hres, hl⟩ := hshape
    rcases hattention hs with h | h | h <;>
      simp [Schema.stateShapeCheck, hs, hl, hres, hc, h, Schema.codeAmong, SafeCode.leaseExpired,
        SafeCode.translationAttentionRequired, SafeCode.workerFailure]

/-- A record is its identity and the six columns that transitions write. -/
theorem eq_of_identity {record row : OperationRecord} (h : row.identity = record.identity) :
    { record with
      state := row.state
      leaseExpiresAt := row.leaseExpiresAt
      startedAt := row.startedAt
      completedAt := row.completedAt
      result := row.result
      errorCode := row.errorCode } = row := by
  cases record
  cases row
  simp_all [OperationRecord.identity]

/-- Where the result can be stored, the trigger accepts a row and the table's checks follow from
the validator, the UPDATE succeeds exactly when the in-memory revalidation does. -/
theorem updated_agree {record row : OperationRecord}
    (hresult : Schema.storable row.result = true)
    (ht : Schema.enforceOperationTransition record row = .ok row)
    (hchecks : row.Valid → Schema.rowChecks row = .ok ()) :
    Agree (InMemory.updated row) (writeTransition record row.state row.leaseExpiresAt
      row.startedAt row.completedAt row.result row.errorCode) := by
  have hid : row.identity = record.identity := by
    unfold Schema.enforceOperationTransition at ht
    exact ((require_bind_eq_ok _ _ _ _).1 ht).1
  simp only [writeTransition, eq_of_identity hid, ht, bind, Except.bind, require, if_pos hresult]
  cases hv : row.validateStateShape with
  | ok u =>
    have hc := hchecks hv
    simp [hc, hv, InMemory.updated, Agree, bind, Except.bind, pure, Except.pure]
  | error code =>
    cases hc : Schema.rowChecks row <;>
      simp [hv, InMemory.updated, Agree, bind, Except.bind]

/-- A result that jsonb refuses is not written. -/
theorem writeTransition_unstorable {record : OperationRecord} {state : OperationState}
    {leaseExpiresAt startedAt completedAt : Option Int} {result : Option TaskResult}
    {errorCode : Option SafeCode} (hresult : Schema.storable result = false) :
    writeTransition record state leaseExpiresAt startedAt completedAt result errorCode =
      .error "repository_failure" := by
  simp [writeTransition, require, hresult, bind, Except.bind]

theorem writeTransition_eq {record row : OperationRecord} (hv : row.Valid)
    (hresult : Schema.storable row.result = true)
    (ht : Schema.enforceOperationTransition record row = .ok row)
    (hchecks : row.Valid → Schema.rowChecks row = .ok ()) :
    writeTransition record row.state row.leaseExpiresAt row.startedAt row.completedAt row.result
      row.errorCode = .ok row := by
  have ha := updated_agree hresult ht hchecks
  rw [InMemory.updated_eq hv] at ha
  revert ha
  cases writeTransition record row.state row.leaseExpiresAt row.startedAt row.completedAt
    row.result row.errorCode with
  | ok x => exact fun ha => congrArg Except.ok (show row = x from ha).symm
  | error code => exact fun ha => False.elim ha

theorem overdue_checks {r r' : OperationRecord} {now : Int} (h : r.overdue now = some r')
    (hv : r'.Valid) : Schema.rowChecks r' = .ok () := by
  rcases overdue_cases h with ⟨_, _, rfl⟩ | ⟨_, _, rfl⟩ | ⟨_, _, _, rfl⟩ | ⟨_, _, _, rfl⟩ <;>
    exact rowChecks_of_valid hv (by simp [overdue.expired, overdue.unattended])
      (by simp [overdue.expired, overdue.unattended])

theorem overdue_result {r r' : OperationRecord} {now : Int} (hv : r.Valid)
    (h : r.overdue now = some r') : r'.result = none := by
  rcases overdue_cases h with ⟨hs, _, rfl⟩ | ⟨hs, _, rfl⟩ | ⟨hs, _, _, rfl⟩ | ⟨hs, _, _, rfl⟩
  · exact (hv.created hs).2.2.2.1
  · obtain ⟨_, _, _, _, _, _, hres, _⟩ := hv.leased hs
    exact hres
  · obtain ⟨_, _, _, _, _, _, hres, _⟩ := hv.running hs
    exact hres
  · obtain ⟨_, _, _, _, _, _, hres, _⟩ := hv.running hs
    exact hres

theorem overdue_written {r r' : OperationRecord} {now : Int} (hv : r.Valid)
    (h : r.overdue now = some r') :
    writeTransition r r'.state r'.leaseExpiresAt r'.startedAt r'.completedAt r'.result
      r'.errorCode = .ok r' :=
  writeTransition_eq (overdue_valid hv h) (by rw [overdue_result hv h]; rfl)
    (Transition.overdue h).trigger (overdue_checks h)

/-- The refresh of a locked row is the refresh of the in-memory record. -/
theorem refreshLocked_eq {r : OperationRecord} (hv : r.Valid) (now : Int) :
    refreshLocked r now = .ok (match r.overdue now with
      | some r' => (r', true)
      | none => (r, false)) := by
  cases ho : r.overdue now with
  | none =>
    have hnot := overdue_eq_none ho
    unfold refreshLocked
    rw [if_neg (fun h => hnot.1 h.1 h.2), if_neg (fun h => hnot.2.1 h.1 h.2),
      if_neg (fun h => hnot.2.2 h.1 h.2)]
  | some r' =>
    have hw := overdue_written hv ho
    rcases overdue_cases ho with ⟨hs, hnow, rfl⟩ | ⟨hs, hl, rfl⟩ | ⟨hs, hnow, hu, rfl⟩ |
      ⟨hs, hnow, hu, rfl⟩
    · have hres := (hv.created hs).2.2.2.1
      simp only [overdue.expired, hres] at hw ⊢
      simp [refreshLocked, hs, hnow, hw]
    · obtain ⟨_, _, _, _, _, _, hres, _⟩ := hv.leased hs
      simp only [overdue.unattended, hres] at hw ⊢
      simp [refreshLocked, hs, (leaseEnded_iff r now).2 hl, hw]
    · obtain ⟨_, _, _, _, _, _, hres, _⟩ := hv.running hs
      simp only [overdue.unattended, hres] at hw ⊢
      simp [refreshLocked, hs, hnow, hu, hw]
    · obtain ⟨_, _, _, _, _, _, hres, _⟩ := hv.running hs
      simp only [overdue.expired, hres] at hw ⊢
      simp [refreshLocked, hs, hnow, hu, hw]

theorem start_agree {r : OperationRecord} (hv : r.Valid) (now : Int) :
    Agree (InMemory.startOwned r now) (startLocked r now) := by
  unfold InMemory.startOwned startLocked
  by_cases hs : r.state = .leased
  · obtain ⟨l, hl, _, _, _, hco, hres, herr⟩ := hv.leased hs
    cases he : r.leaseEnded now with
    | true =>
      have ho : r.overdue now = some (overdue.unattended now r .leaseExpired) := by
        simp [OperationRecord.overdue, hs, he]
      have hw := overdue_written hv ho
      simp only [overdue.unattended, hres] at hw
      simp only [hs, and_self, ↓reduceIte, hw, InMemory.attentionRequired_eq (overdue_valid hv ho)]
      simp [Agree, Functor.map, Except.map, overdue.unattended, hres]
    | false =>
      have hnow : now < l := by
        refine Int.not_le.1 fun hle => ?_
        have ht := (leaseEnded_iff r now).2 ⟨l, hl, hle⟩
        simp [he] at ht
      have hnone : Schema.storable (r.started now).result = true := by
        rw [show (r.started now).result = none from hres]
        rfl
      have ha := updated_agree hnone (Transition.start hs hl hnow).trigger fun hv' =>
        rowChecks_of_valid hv' (by simp [OperationRecord.started])
          (by simp [OperationRecord.started])
      simp only [OperationRecord.started, hco, hres, herr] at ha
      simp only [hs, Bool.false_eq_true, and_false, ↓reduceIte, ne_eq, not_true_eq_false, hco,
        hres, herr]
      exact agree_map _ ha
  · simp only [hs, false_and, ↓reduceIte, ne_eq, not_false_eq_true]
    exact agree_ok _

/-- The finish of a running record that is not due: the two updates agree, and succeed when the
clock is not behind the start. -/
theorem finish_updates_agree {r : OperationRecord} {now : Int} {state : OperationState}
    {result : Option TaskResult} {errorCode : Option SafeCode}
    (hresult : Schema.storable result = true) (hs : r.state = .running)
    (hl : r.leaseExpiresAt = none) (hnow : now < r.expiresAt)
    (hw : wellShaped r.task.command state result errorCode = true)
    (hattention : state = .attentionRequired → errorCode = some .translationAttentionRequired ∨
      errorCode = some .workerFailure) :
    Agree (InMemory.updated (r.finished now state result errorCode))
      (writeTransition r state none r.startedAt (some now) result errorCode) := by
  have ha := updated_agree hresult (Transition.finish hs hnow hw).trigger fun hv' =>
    rowChecks_of_valid hv'
      (by rintro rfl; simp [wellShaped] at hw)
      (fun hstate => .inr (hattention hstate))
  simpa only [OperationRecord.finished, hl] using ha

/-- When every listed identifier has a row that passes, the lock counts all of them. -/
theorem countRows_eq {ν : Type} {table : Dict (TenantId × String) ν} {tenant : TenantId}
    {identifiers : List String} {p : ν → Bool} (hn : identifiers.Nodup)
    (h : ∀ i ∈ identifiers, ∃ row, table.get (tenant, i) = some row ∧ p row = true) :
    countRows table tenant identifiers p = identifiers.length := by
  unfold countRows
  rw [List.countP_eq_length_filter]
  have hkeys : ((table.entries.filter fun e =>
      e.1.1 = tenant && identifiers.contains e.1.2 && p e.2).map Prod.fst).Perm
      (identifiers.map fun i => (tenant, i)) := by
    refine (List.perm_ext_iff_of_nodup ?_ ?_).2 ?_
    · exact table.nodup.sublist (List.Sublist.map _ List.filter_sublist)
    · exact hn.map fun a b hab => (Prod.mk.inj hab).2
    · rintro ⟨t, i⟩
      constructor
      · intro hmem
        obtain ⟨⟨key, row⟩, he, hkey⟩ := List.mem_map.1 hmem
        have hp := (List.mem_filter.1 he).2
        simp only [Bool.and_eq_true, decide_eq_true_eq, List.contains_eq_mem] at hp
        obtain rfl : key = (t, i) := hkey
        exact List.mem_map.2 ⟨i, hp.1.2, by rw [← hp.1.1]⟩
      · intro hmem
        obtain ⟨j, hj, heq⟩ := List.mem_map.1 hmem
        obtain ⟨rfl, rfl⟩ := Prod.mk.inj heq
        obtain ⟨row, hget, hp⟩ := h j hj
        refine List.mem_map.2 ⟨((tenant, j), row), List.mem_filter.2 ⟨?_, ?_⟩, rfl⟩
        · exact (Dict.mem_entries_iff _ _ _).2 hget
        · simp [hj, hp]
  simpa using hkeys.length_eq

/-- The catalog of a tenant, as the service reads it. -/
def Database.catalog (db : Database) (tenant : TenantId) : Service.Catalog where
  workstation id := (db.tables.workstations.get (tenant, id)).map (·.record)
  project id := db.tables.projects.get (tenant, id)
  drawing id := db.tables.drawings.get (tenant, id)

/-- The drawing that a result names. -/
def resultDrawing : TaskResult → Option DrawingId
  | .inspectDrawing drawingId .. => some drawingId
  | .createPublishPlan drawingId .. => some drawingId
  | .translation drawingId _ => some drawingId
  | _ => none

/-- The catalog rows that a call on a record refers to are present and enabled: the workstation of
the caller, the project of a scan and the drawing of a result. -/
structure RowsPresent (db : Database) (record : OperationRecord) (workstationId : WorkstationId)
    (result : Option TaskResult) : Prop where
  workstation : ∃ row, db.tables.workstations.get (record.tenantId, workstationId) = some row ∧
    row.record.enabled = true
  project : ∀ projectId drawingIds truncated,
    result = some (.scanDrawings projectId drawingIds truncated) →
      Service.projectBound record (db.catalog record.tenantId) projectId = true
  drawing : ∀ res drawingId, result = some res → resultDrawing res = some drawingId →
    ∃ projectId,
      Service.drawingBound record (db.catalog record.tenantId) projectId drawingId = true

theorem projects_counted {db : Database} {record : OperationRecord} {clock : Int}
    {identifiers : List ProjectId} (hn : identifiers.Nodup) (hne : identifiers ≠ [])
    (hlen : identifiers.length ≤ 500)
    (h : ∀ i ∈ identifiers,
      Service.projectBound record (db.catalog record.tenantId) i = true) :
    lockCatalogRows db.tables clock .projects record.tenantId record.ownerSubjectId
      record.workstationId identifiers none false = identifiers.length := by
  have hbound : ¬(identifiers = [] ∨ 500 < identifiers.length) := by
    simp [hne, hlen]
  simp only [lockCatalogRows, if_neg hbound]
  refine countRows_eq hn fun i hi => ?_
  have hb := h i hi
  simp only [Service.projectBound, Database.catalog] at hb
  cases hget : db.tables.projects.get (record.tenantId, i) with
  | none => simp [hget] at hb
  | some row =>
    refine ⟨row, rfl, ?_⟩
    simp_all

theorem drawings_counted {db : Database} {record : OperationRecord} {clock : Int}
    {identifiers : List DrawingId} {project : Option ProjectId} (hn : identifiers.Nodup)
    (hne : identifiers ≠ []) (hlen : identifiers.length ≤ 500)
    (h : ∀ i ∈ identifiers, ∃ p, (∀ q, project = some q → p = q) ∧
      Service.drawingBound record (db.catalog record.tenantId) p i = true) :
    lockCatalogRows db.tables clock .drawings record.tenantId record.ownerSubjectId
      record.workstationId identifiers project false = identifiers.length := by
  have hbound : ¬(identifiers = [] ∨ 500 < identifiers.length) := by
    simp [hne, hlen]
  simp only [lockCatalogRows, if_neg hbound]
  refine countRows_eq hn fun i hi => ?_
  obtain ⟨p, hp, hb⟩ := h i hi
  simp only [Service.drawingBound, Database.catalog] at hb
  cases hget : db.tables.drawings.get (record.tenantId, i) with
  | none => simp [hget] at hb
  | some row =>
    refine ⟨row, rfl, ?_⟩
    simp only [hget, Bool.decide_and, Bool.and_eq_true, decide_eq_true_eq, Bool.decide_eq_true]
      at hb ⊢
    exact ⟨hb.2.2.1, hb.2.2.2.1, hb.1, fun q hq => hb.2.2.2.2.trans (hp q hq)⟩

theorem catalogIds_ok {db : Database} {record : OperationRecord} {clock : Int}
    {kind : CatalogKind} {identifiers : List String} {project : Option ProjectId}
    (hlen : identifiers.length ≤ 500)
    (h : ∀ ids : List String, ids.Nodup → ids ≠ [] → ids.length ≤ 500 → ids ⊆ identifiers →
      lockCatalogRows db.tables clock kind record.tenantId record.ownerSubjectId
        record.workstationId ids project false = ids.length) :
    requireCatalogIds db.tables clock kind identifiers record project = .ok () := by
  simp only [requireCatalogIds, require_eq_ok]
  by_cases hne : identifiers.dedup = []
  · exact .inl hne
  · refine .inr (h _ (List.nodup_dedup _) hne ?_ (List.dedup_subset _))
    exact Nat.le_trans (List.dedup_sublist _).length_le hlen

/-- A result that the service binds is accepted under the row locks when the rows are there. -/
theorem bindingLocked_ok {db : Database} {record : OperationRecord} {clock : Int}
    {workstationId : WorkstationId} {result : TaskResult}
    (hb : Service.validateResultBinding (db.catalog record.tenantId) record result = .ok ())
    (hrows : RowsPresent db record workstationId (some result)) :
    validateResultBindingLocked db.tables clock record (some result) = .ok () := by
  unfold Service.validateResultBinding at hb
  rw [require_bind_eq_ok] at hb
  obtain ⟨hcommand, hb⟩ := hb
  have hdrawing : ∀ drawingId, resultDrawing result = some drawingId →
      requireCatalogIds db.tables clock .drawings [drawingId] record none = .ok () := by
    intro drawingId hd
    obtain ⟨p, hp⟩ := hrows.drawing result drawingId rfl hd
    refine catalogIds_ok (by simp) fun ids hn hne hlen hsub => drawings_counted hn hne hlen ?_
    intro i hi
    obtain rfl := List.mem_singleton.1 (hsub hi)
    exact ⟨p, by simp, hp⟩
  cases result with
  | validateEnvironment => simp [validateResultBindingLocked, hcommand]
  | listProjects projectIds =>
    simp only [require_eq_ok] at hb
    simp only [validateResultBindingLocked, require_bind_eq_ok]
    refine ⟨hcommand, catalogIds_ok (by have := projectIds.bound; omega) ?_⟩
    exact fun ids hn hne hlen hsub => projects_counted hn hne hlen fun i hi => hb i (hsub hi)
  | scanDrawings projectId drawingIds truncated =>
    have hproject := hrows.project projectId drawingIds truncated rfl
    cases htask : record.task with
    | scanDrawings taskProject recursive limit =>
      simp only [htask, require_bind_eq_ok, require_eq_ok] at hb
      obtain ⟨rfl, hb⟩ := hb
      have hcount : lockCatalogRows db.tables clock .projects record.tenantId
          record.ownerSubjectId record.workstationId [projectId] none false = 1 :=
        projects_counted (by simp) (by simp) (by simp) (by simpa using hproject)
      simp only [validateResultBindingLocked, htask, require_bind_eq_ok]
      refine ⟨htask ▸ hcommand, by simp, hcount, catalogIds_ok ?_ ?_⟩
      · have := drawingIds.bound
        omega
      · exact fun ids hn hne hlen hsub => drawings_counted hn hne hlen fun i hi =>
          ⟨projectId, by simp, hb i (hsub hi)⟩
    | validateEnvironment | listProjects | inspectDrawing | createPublishPlan | translation =>
      simp [htask, TaskResult.command, ReadTask.command] at hcommand
  | inspectDrawing drawingId =>
    cases htask : record.task with
    | inspectDrawing taskDrawing =>
      simp only [htask, require_eq_ok] at hb
      simp only [validateResultBindingLocked, htask, require_bind_eq_ok]
      exact ⟨htask ▸ hcommand, hb, hdrawing drawingId rfl⟩
    | validateEnvironment | listProjects | scanDrawings | createPublishPlan | translation =>
      simp [htask, TaskResult.command, ReadTask.command] at hcommand
  | createPublishPlan drawingId =>
    cases htask : record.task with
    | createPublishPlan taskDrawing =>
      simp only [htask, require_eq_ok] at hb
      simp only [validateResultBindingLocked, htask, require_bind_eq_ok]
      exact ⟨htask ▸ hcommand, hb, hdrawing drawingId rfl⟩
    | validateEnvironment | listProjects | scanDrawings | inspectDrawing | translation =>
      simp [htask, TaskResult.command, ReadTask.command] at hcommand
  | translation drawingId response =>
    cases htask : record.task with
    | translation taskDrawing request =>
      simp only [htask, require_bind_eq_ok] at hb
      obtain ⟨hd, hb⟩ := hb
      simp only [validateResultBindingLocked, htask, require_bind_eq_ok]
      cases hm : requireMatchingResult request response with
      | error code => simp [hm] at hb
      | ok u =>
        have hids := hdrawing drawingId rfl
        simp [hd ▸ hids, hd, bind, Except.bind]
    | validateEnvironment | listProjects | scanDrawings | inspectDrawing | createPublishPlan =>
      simp [htask, TaskResult.command, ReadTask.command] at hcommand

/-- A finish agrees unless it asks for attention on a running operation in time, or brings one a
result that jsonb refuses. -/
theorem finish_agree_iff {r : OperationRecord} {now : Int} {state : OperationState}
    {result : Option TaskResult} {errorCode : Option SafeCode}
    {validate : OperationRecord → Option TaskResult → Except String Unit} (hv : r.Valid)
    (hw : wellShaped r.task.command state result errorCode = true)
    (hattention : state = .attentionRequired → errorCode = some .translationAttentionRequired ∨
      errorCode = some .workerFailure)
    (hvalidate : validate r result = .ok ()) :
    Agree (InMemory.finishOwned r now state result errorCode)
      (finishLocked r now now state result errorCode validate) ↔
    ¬((state = .attentionRequired ∨ Schema.storable result = false) ∧ r.state = .running ∧
      now < r.expiresAt ∧ ∃ s, r.startedAt = some s ∧ s ≤ now) := by
  simp only [InMemory.finishOwned, finishLocked, InMemory.refreshDue_eq hv, refreshLocked_eq hv,
    bind, Except.bind]
  cases ho : r.overdue now with
  | some r' =>
    -- the deadline has passed: both store the overdue record and stop
    have ht := overdue_terminal ho
    have hne : ¬r'.state = .running := by
      intro h
      simp [h, OperationState.isTerminal] at ht
    have hnot : ¬((state = .attentionRequired ∨ Schema.storable result = false) ∧
        r.state = .running ∧ now < r.expiresAt ∧ ∃ s, r.startedAt = some s ∧ s ≤ now) := by
      rintro ⟨_, hs, hnow, _⟩
      rcases overdue_cases ho with ⟨h, _⟩ | ⟨h, _⟩ | ⟨_, h, _⟩ | ⟨_, h, _⟩
      · simp [hs] at h
      · simp [hs] at h
      · exact absurd hnow (Int.not_lt.2 h)
      · exact absurd hnow (Int.not_lt.2 h)
    refine ⟨fun _ => hnot, fun _ => ?_⟩
    by_cases hexp : r'.state = .expired
    · simp only [hexp, and_self, ↓reduceIte]
      exact agree_ok _
    · simp only [hexp, hne, and_false, ↓reduceIte, ne_eq, not_false_eq_true]
      exact agree_ok _
  | none =>
    by_cases hs : r.state = .running
    · obtain ⟨s, hst, hcs, hse, hl, _, _, _⟩ := hv.running hs
      have hnow := Int.not_le.1 ((overdue_eq_none ho).2.2 hs)
      have hvalid : (r.finished now state result errorCode).Valid ↔ s ≤ now := by
        constructor
        · intro hvf
          exact (Valid.deadlines hvf).order now rfl s hst
        · intro hle
          exact finished_valid hv ⟨by omega, fun x hx => by
            rw [hst] at hx
            exact (Option.some.inj hx) ▸ hle⟩ hs hw
      -- where Postgres raises, the two agree only when the revalidation raises too
      have hraise : Agree ((TransitionStatus.updated, ·) <$>
          InMemory.updated (r.finished now state result errorCode))
          (.error "repository_failure" : Except String _) ↔ ¬s ≤ now := by
        rw [← hvalid]
        exact agree_error_iff _ _ _
      have hstart : (∃ x, r.startedAt = some x ∧ x ≤ now) ↔ s ≤ now := by simp [hst]
      simp only [hs, Bool.false_eq_true, false_and, ↓reduceIte, ne_eq, not_true_eq_false,
        hvalidate]
      by_cases hstate : state = .attentionRequired
      · subst hstate
        have hres : result = none := by
          have hshape : result = none ∧ errorCode ≠ none := by simpa [wellShaped] using hw
          exact hshape.1
        have hassert : require (result ≠ none ∨ OperationState.attentionRequired = .failed)
            "repository_failure" = .error "repository_failure" := by
          simp [require, hres]
        simp only [ne_eq] at hassert
        simp only [hassert, true_and, true_or, hnow, hstart]
        exact hraise
      · have hres : result ≠ none ∨ state = .failed := by
          cases state <;> simp_all [wellShaped]
          rintro rfl
          simp at hw
        have hassert : require (result ≠ none ∨ state = .failed) "repository_failure" = .ok () :=
          (require_eq_ok _ _).2 hres
        simp only [ne_eq] at hassert
        cases hstored : Schema.storable result with
        | true =>
          have hagree := finish_updates_agree hstored hs hl hnow hw hattention
          simp only [hassert, hstate, false_or, false_and, not_false_eq_true, iff_true,
            refreshLocked_eq hv, ho, Bool.false_eq_true, Bool.true_eq_false, ↓reduceIte]
          exact agree_map _ hagree
        | false =>
          simp only [hassert, refreshLocked_eq hv, ho, Bool.false_eq_true, ↓reduceIte, or_true,
            true_and, hnow, hstart, writeTransition_unstorable hstored]
          exact hraise
    · simp only [hs, Bool.false_eq_true, false_and, ↓reduceIte, ne_eq, not_false_eq_true,
        and_false, iff_true]
      exact agree_ok _

/-- A terminal state with the result or error code that goes with it. -/
structure TerminalRequest where
  state : OperationState
  result : Option TaskResult
  errorCode : Option SafeCode

/-- A success with a result that the service binds to the record, or a state and code that the
service's `worker_fail` passes for it. -/
def TerminalRequest.WellShapedFor (request : TerminalRequest) (db : Database)
    (record : OperationRecord) : Prop :=
  (request.state = .succeeded ∧ request.errorCode = none ∧ ∃ result,
    request.result = some result ∧
      Service.validateResultBinding (db.catalog record.tenantId) record result = .ok ()) ∨
  (request.result = none ∧ ∃ code attention,
    request.state = (Service.failureTarget record code attention).1 ∧
      request.errorCode = some (Service.failureTarget record code attention).2)

theorem TerminalRequest.WellShapedFor.shape {request : TerminalRequest} {db : Database}
    {record : OperationRecord} (h : request.WellShapedFor db record) :
    wellShaped record.task.command request.state request.result request.errorCode = true := by
  rcases h with ⟨hs, he, result, hr, hb⟩ | ⟨hr, code, attention, hs, he⟩
  · unfold Service.validateResultBinding at hb
    rw [require_bind_eq_ok] at hb
    simp [wellShaped, hs, he, hr, hb.1]
  · rw [hs, he, hr]
    cases attention <;> simp [Service.failureTarget, wellShaped]

theorem TerminalRequest.WellShapedFor.attention {request : TerminalRequest} {db : Database}
    {record : OperationRecord} (h : request.WellShapedFor db record)
    (hstate : request.state = .attentionRequired) :
    request.errorCode = some .translationAttentionRequired ∨
      request.errorCode = some .workerFailure := by
  rcases h with ⟨hs, _⟩ | ⟨_, code, attention, hs, he⟩
  · simp [hs] at hstate
  · rw [he]
    cases attention with
    | true => cases ht : record.task.isTranslation <;> simp [Service.failureTarget, ht]
    | false => simp [hs, Service.failureTarget] at hstate

/-- The same record stored in both repositories. -/
structure Stored (memory : InMemoryGatewayRepository) (db : Database)
    (record : OperationRecord) : Prop where
  memory : memory.operations.get record.operationId = some record
  table : db.operations.get (record.tenantId, record.operationId) = some record

/-- Both calls return the same or both raise, and the record they leave is the same. -/
def SameCall {α : Type} (record : OperationRecord) (m : InMemoryGatewayRepository.Call α)
    (p : Call α) : Prop :=
  Agree m.1 p.1 ∧ m.2.operations.get record.operationId =
    p.2.operations.get (record.tenantId, record.operationId)

/-- The repositories after a number of refreshes of one operation. -/
def memoryRefreshed (id : OperationId) (now : Int) (memory : InMemoryGatewayRepository) :
    Nat → InMemoryGatewayRepository
  | 0 => memory
  | n + 1 => ((memoryRefreshed id now memory n).refreshOperation id now).2

def tableRefreshed (scope : TenantId) (id : OperationId) (now : Int) (db : Database) :
    Nat → Database
  | 0 => db
  | n + 1 => (refreshOperation scope id now (tableRefreshed scope id now db n)).2

variable {memory : InMemoryGatewayRepository} {db : Database} {record : OperationRecord}

/-- A transition that keeps the identity agrees on the repositories when it agrees on the record
of the calling workstation. -/
theorem transition_same {workstationId : WorkstationId} {now : Int}
    {f g : OperationRecord → Except String (TransitionStatus × OperationRecord)}
    (hstored : Stored memory db record)
    (hw : lockWorkerWorkstation db now record.tenantId workstationId = .ok ())
    (hid : ∀ x, g record = .ok x → x.2.identity = record.identity) :
    SameCall record
      (memory.transitionOwned record.operationId record.tenantId workstationId f)
      (transitionLocked record.tenantId record.operationId record.tenantId workstationId now g
        db) ↔
    (record.workstationId = workstationId → Agree (f record) (g record)) := by
  by_cases hws : record.workstationId = workstationId
  · have hown : workerOwns record record.tenantId workstationId = true := by
      simp [workerOwns, hws]
    have hlock : lockOperation db record.tenantId record.operationId (some workstationId) =
        some record := by
      simp [lockOperation, hstored.table, hws]
    simp only [InMemoryGatewayRepository.transitionOwned, transitionLocked, hstored.memory, hown,
      not_true_eq_false, ↓reduceIte, ne_eq, hw, hlock, hws, forall_const]
    cases hf : f record with
    | error code =>
      cases hg : g record with
      | error code' => simp [SameCall, Agree, hstored.memory, hstored.table]
      | ok y => simp [SameCall, Agree]
    | ok x =>
      cases hg : g record with
      | error code' => simp [SameCall, Agree]
      | ok y =>
        have hy := hid y hg
        have ht : y.2.tenantId = record.tenantId := congrArg OperationIdentity.tenantId hy
        have ho : y.2.operationId = record.operationId :=
          congrArg OperationIdentity.operationId hy
        simp only [SameCall, Agree, InMemoryGatewayRepository.store, Database.store, ht, ho,
          Dict.get_set_same, TransitionOutcome.mk.injEq, Option.some.injEq]
        constructor
        · rintro ⟨⟨h1, h2⟩, _⟩
          exact Prod.ext h1 h2
        · rintro rfl
          exact ⟨⟨rfl, rfl⟩, rfl⟩
  · have hown : workerOwns record record.tenantId workstationId = false := by
      simp [workerOwns, hws]
    have hlock : lockOperation db record.tenantId record.operationId (some workstationId) =
        none := by
      simp [lockOperation, hstored.table, hws]
    simp only [InMemoryGatewayRepository.transitionOwned, transitionLocked, hstored.memory, hown,
      Bool.false_eq_true, not_false_eq_true, ↓reduceIte, ne_eq, not_true_eq_false, hw, hlock, hws,
      false_implies, iff_true]
    exact ⟨agree_ok _, hstored.memory.trans hstored.table.symm⟩

theorem finishLocked_identity {now : Int} {r : OperationRecord} {state : OperationState}
    {result : Option TaskResult} {errorCode : Option SafeCode}
    {validate : OperationRecord → Option TaskResult → Except String Unit}
    {x : TransitionStatus × OperationRecord} (hv : r.Valid)
    (h : finishLocked r now now state result errorCode validate = .ok x) :
    x.2.identity = r.identity := by
  simp only [finishLocked, refreshLocked_eq hv, bind, Except.bind] at h
  cases ho : r.overdue now with
  | some r' =>
    have hid : r'.identity = r.identity := (Transition.overdue ho).identity
    have hne : ¬r'.state = .running := by
      have ht := overdue_terminal ho
      intro hs
      simp [hs, OperationState.isTerminal] at ht
    simp only [ho, hne, ne_eq, not_false_eq_true, ↓reduceIte] at h
    split at h <;> exact (Except.ok.inj h) ▸ hid
  | none =>
    simp only [ho, Bool.false_eq_true, false_and, ↓reduceIte] at h
    split at h
    · exact (Except.ok.inj h) ▸ rfl
    · split at h
      · exact absurd h (by simp)
      · split at h
        · exact absurd h (by simp)
        · simp only [refreshLocked_eq hv, ho, Bool.false_eq_true, ↓reduceIte] at h
          obtain ⟨row, hrow, rfl⟩ := map_eq_ok.1 h
          exact (writeTransition_row hrow) ▸ rfl

theorem refreshed_valid {r : OperationRecord} (hv : r.Valid) (now : Int) :
    (InMemory.refreshed now r).Valid := by
  unfold InMemory.refreshed
  cases ho : r.overdue now with
  | none => exact hv
  | some r' => exact overdue_valid hv ho

theorem refreshed_identity (r : OperationRecord) (now : Int) :
    (InMemory.refreshed now r).identity = r.identity := by
  rcases InMemory.refreshed_kept now r with h | h
  · rw [h]
  · exact h.identity

theorem refresh_same {r : OperationRecord} (hv : r.Valid) (now : Int)
    (hm : memory.operations.get record.operationId = some r)
    (ht : db.operations.get (record.tenantId, record.operationId) = some r)
    (hid : r.identity = record.identity) :
    SameCall record (memory.refreshOperation record.operationId now)
      (refreshOperation record.tenantId record.operationId now db) ∧
    (memory.refreshOperation record.operationId now).2.operations.get record.operationId =
      some (InMemory.refreshed now r) ∧
    (refreshOperation record.tenantId record.operationId now db).2.operations.get
      (record.tenantId, record.operationId) = some (InMemory.refreshed now r) := by
  have hlock : lockOperation db record.tenantId record.operationId none = some r := by
    simp [lockOperation, ht]
  have hid' := (refreshed_identity r now).trans hid
  have htenant : (InMemory.refreshed now r).tenantId = record.tenantId :=
    congrArg OperationIdentity.tenantId hid'
  have hop : (InMemory.refreshed now r).operationId = record.operationId :=
    congrArg OperationIdentity.operationId hid'
  obtain ⟨fresh, href, _⟩ := InMemory.refreshDue_refreshed hv now
  have href' : refreshLocked r now = .ok (InMemory.refreshed now r, fresh) :=
    (refreshLocked_eq hv now).trans ((InMemory.refreshDue_eq hv now).symm.trans href)
  simp only [InMemoryGatewayRepository.refreshOperation, refreshOperation, hm, hlock, href, href',
    SameCall, InMemoryGatewayRepository.store, Database.store, htenant, hop, Dict.get_set_same,
    and_self, and_true]
  exact agree_ok _

/-- However often both are refreshed, they hold one valid record with the old identity. -/
theorem refreshed_times (hv : record.Valid) (hstored : Stored memory db record) (now : Int)
    (n : Nat) :
    ∃ r : OperationRecord, r.Valid ∧ r.identity = record.identity ∧
      (memoryRefreshed record.operationId now memory n).operations.get record.operationId =
        some r ∧
      (tableRefreshed record.tenantId record.operationId now db n).operations.get
        (record.tenantId, record.operationId) = some r := by
  induction n with
  | zero => exact ⟨record, hv, rfl, hstored.memory, hstored.table⟩
  | succ n ih =>
    obtain ⟨r, hr, hid, hm, ht⟩ := ih
    obtain ⟨_, hm', ht'⟩ := refresh_same hr now hm ht hid
    exact ⟨_, refreshed_valid hr now, (refreshed_identity r now).trans hid, hm', ht'⟩

/-- Start, every refresh and finish agree, at one clock. -/
structure OperationsAgree (memory : InMemoryGatewayRepository) (db : Database)
    (record : OperationRecord) (workstationId : WorkstationId) (now : Int)
    (request : TerminalRequest) : Prop where
  start : SameCall record
    (memory.startOperation record.operationId record.tenantId workstationId now)
    (startOperation record.tenantId record.operationId record.tenantId workstationId now db)
  refresh : ∀ n, SameCall record
    ((memoryRefreshed record.operationId now memory n).refreshOperation record.operationId now)
    (refreshOperation record.tenantId record.operationId now
      (tableRefreshed record.tenantId record.operationId now db n))
  finish : SameCall record
    (memory.finishOperation record.operationId record.tenantId workstationId now request.state
      request.result request.errorCode)
    (finishOperation record.tenantId record.operationId record.tenantId workstationId now now
      request.state request.result request.errorCode db)

/-- The two repositories agree on a record unless its workstation asks to finish it, while it is
running in time, with ATTENTION_REQUIRED or with a result that jsonb refuses. -/
theorem operations_agree_iff (workstationId : WorkstationId) (now : Int)
    (request : TerminalRequest) (hv : record.Valid) (hstored : Stored memory db record)
    (hshape : request.WellShapedFor db record)
    (hrows : RowsPresent db record workstationId request.result) :
    OperationsAgree memory db record workstationId now request ↔
    ¬((request.state = .attentionRequired ∨ Schema.storable request.result = false) ∧
      record.workstationId = workstationId ∧ record.state = .running ∧ now < record.expiresAt ∧
      ∃ s, record.startedAt = some s ∧ s ≤ now) := by
  have hlock : lockWorkerWorkstation db now record.tenantId workstationId = .ok () := by
    obtain ⟨row, hrow, henabled⟩ := hrows.workstation
    have hlen : ¬([workstationId] = [] ∨ 500 < [workstationId].length) := by simp
    simp only [lockWorkerWorkstation, require_eq_ok, lockCatalogRows, if_neg hlen, ↓reduceIte]
    refine countRows_eq (List.nodup_singleton _) fun i hi => ?_
    obtain rfl := List.mem_singleton.1 hi
    exact ⟨row, hrow, by simp [henabled]⟩
  have hstart : SameCall record
      (memory.startOperation record.operationId record.tenantId workstationId now)
      (startOperation record.tenantId record.operationId record.tenantId workstationId now db) :=
    (transition_same hstored hlock fun _ h => (startLocked_steady h).identity).2
      fun _ => start_agree hv now
  have hrefresh : ∀ n, SameCall record
      ((memoryRefreshed record.operationId now memory n).refreshOperation record.operationId now)
      (refreshOperation record.tenantId record.operationId now
        (tableRefreshed record.tenantId record.operationId now db n)) := by
    intro n
    obtain ⟨r, hr, hid, hm, ht⟩ := refreshed_times hv hstored now n
    exact (refresh_same hr now hm ht hid).1
  have hvalidate : validateResultBindingLocked db.tables now record request.result = .ok () := by
    rcases hshape with ⟨_, _, result, hr, hb⟩ | ⟨hr, _⟩
    · rw [hr] at hrows ⊢
      exact bindingLocked_ok hb hrows
    · rw [hr]
      rfl
  have hterminal := hshape.shape
  have hfinish : SameCall record
      (memory.finishOperation record.operationId record.tenantId workstationId now request.state
        request.result request.errorCode)
      (finishOperation record.tenantId record.operationId record.tenantId workstationId now now
        request.state request.result request.errorCode db) ↔
      (record.workstationId = workstationId →
        ¬((request.state = .attentionRequired ∨ Schema.storable request.result = false) ∧
          record.state = .running ∧ now < record.expiresAt ∧
          ∃ s, record.startedAt = some s ∧ s ≤ now)) := by
    rw [← finish_agree_iff hv hterminal hshape.attention hvalidate]
    have hstates : request.state = .succeeded ∨ request.state = .failed ∨
        request.state = .attentionRequired := by
      cases hs : request.state <;> simp_all [wellShaped]
    have hpayload : ¬(request.state = .succeeded ∧
          (request.result = none ∨ request.errorCode ≠ none)) ∧
        ¬(request.state ≠ .succeeded ∧ (request.result ≠ none ∨ request.errorCode = none)) := by
      rcases hstates with hs | hs | hs <;> simp_all [wellShaped]
      rintro hnone
      simp [hnone] at hterminal
    have hm : memory.finishOperation record.operationId record.tenantId workstationId now
        request.state request.result request.errorCode =
        memory.transitionOwned record.operationId record.tenantId workstationId
          (InMemory.finishOwned · now request.state request.result request.errorCode) := by
      rw [InMemoryGatewayRepository.finishOperation, if_pos hstates]
    have hp : finishOperation record.tenantId record.operationId record.tenantId workstationId now
        now request.state request.result request.errorCode db =
        transitionLocked record.tenantId record.operationId record.tenantId workstationId now
          (finishLocked · now now request.state request.result request.errorCode
            (validateResultBindingLocked db.tables now)) db := by
      rw [finishOperation, if_neg (fun h => h rfl), if_neg (not_not_intro hstates),
        if_neg hpayload.1, if_neg hpayload.2]
    rw [hm, hp]
    exact transition_same hstored hlock fun _ => finishLocked_identity hv
  constructor
  · rintro hagree ⟨hstate, hws, hrest⟩
    exact hfinish.1 hagree.finish hws ⟨hstate, hrest⟩
  · intro hnot
    refine ⟨hstart, hrefresh, hfinish.2 fun hws h => hnot ⟨h.1, hws, h.2⟩⟩

/-- A listing that was started one second after its creation. -/
def runningListing : OperationRecord :=
  (listingOperation "op_00000000-0000-4000-8000-000000000001"
    "idem_00000000-0000-4000-8000-000000000001" 0).started 1000000

def listingMemory : InMemoryGatewayRepository where
  workstations := .empty
  projects := .empty
  drawings := .empty
  operations := Dict.empty.set runningListing.operationId runningListing
  idempotency := Dict.empty.set runningListing.idempotencyIndex runningListing.operationId

def listingWorkstation : WorkstationRow where
  record :=
    { workstationId := runningListing.workstationId
      tenantId := runningListing.tenantId
      ownerSubjectId := runningListing.ownerSubjectId
      displayName := "Plot workstation"
      enabled := true
      online := true }
  lastSeenAt := some 0
  presenceExpiresAt := some 60000000

def listingDatabase : Database where
  tables :=
    { workstations := Dict.empty.set (runningListing.tenantId, runningListing.workstationId)
        listingWorkstation
      projects := .empty
      drawings := .empty }
  operations :=
    Dict.empty.set (runningListing.tenantId, runningListing.operationId) runningListing

theorem listing_stored : Stored listingMemory listingDatabase runningListing :=
  ⟨by decide, by decide⟩

theorem listing_rows :
    RowsPresent listingDatabase runningListing runningListing.workstationId none :=
  ⟨⟨listingWorkstation, by decide, rfl⟩, by simp, by simp⟩

theorem operations_agree_iff_failed :
    OperationsAgree listingMemory listingDatabase runningListing runningListing.workstationId
      2000000 ⟨.failed, none, some .workerFailure⟩ :=
  (operations_agree_iff runningListing.workstationId 2000000
    ⟨.failed, none, some .workerFailure⟩ (by decide) listing_stored
    (.inr ⟨rfl, .workerFailure, false, rfl, by decide⟩) listing_rows).2 (by simp [Schema.storable])

/-- The worker reports that a running listing needs attention: the in-memory repository records
it, the Postgres repository raises. -/
theorem attention_finish_disagrees :
    runningListing.Valid ∧ Stored listingMemory listingDatabase runningListing ∧
    TerminalRequest.WellShapedFor ⟨.attentionRequired, none, some .workerFailure⟩ listingDatabase
      runningListing ∧
    RowsPresent listingDatabase runningListing runningListing.workstationId none ∧
    ¬OperationsAgree listingMemory listingDatabase runningListing runningListing.workstationId
      2000000 ⟨.attentionRequired, none, some .workerFailure⟩ :=
  ⟨by decide, listing_stored, .inr ⟨rfl, .workerFailure, true, rfl, by decide⟩, listing_rows,
    fun h => absurd h.finish.1 (by decide)⟩

end CadPlot.Gateway.Postgres
