import CadPlot.Gateway.Lifecycle

/-!
# What the in-memory operations do

One lemma for each record operation of the in-memory repository, and one for the
walk over its dictionary: none of them raises on valid records, and each leaves
a record alone or takes it through one transition of its life.
-/

namespace CadPlot.Gateway.InMemory

open OperationRecord

theorem updated_eq {r : OperationRecord} (h : r.Valid) : updated r = .ok r := by
  have hv : r.validateStateShape = .ok () := h
  simp [updated, hv, bind, Except.bind, pure, Except.pure]

theorem expire_eq {r : OperationRecord} {now : Int} (h : (overdue.expired now r).Valid) :
    expire r now = .ok (overdue.expired now r) := updated_eq h

theorem attentionRequired_eq {r : OperationRecord} {now : Int}
    (h : (overdue.unattended now r .leaseExpired).Valid) :
    attentionRequired r now = .ok (overdue.unattended now r .leaseExpired) := updated_eq h

/-- The refresh of a valid record is the abstract one and never raises. -/
theorem refreshDue_eq {r : OperationRecord} (hv : r.Valid) (now : Int) :
    refreshDue r now = .ok (match r.overdue now with
      | some r' => (r', true)
      | none => (r, false)) := by
  cases ho : r.overdue now with
  | none =>
    have hnot := overdue_eq_none ho
    unfold refreshDue
    rw [if_neg (fun h => hnot.1 h.1 h.2), if_neg (fun h => hnot.2.1 h.1 h.2),
      if_neg (fun h => hnot.2.2 h.1 h.2)]
  | some r' =>
    have hv' := overdue_valid hv ho
    rcases overdue_cases ho with ⟨hs, hnow, rfl⟩ | ⟨hs, hl, rfl⟩ | ⟨hs, hnow, hw, rfl⟩ |
      ⟨hs, hnow, hw, rfl⟩
    · simp [refreshDue, hs, hnow, expire_eq hv']
    · simp [refreshDue, hs, (leaseEnded_iff r now).2 hl, attentionRequired_eq hv']
    · obtain ⟨_, _, _, _, hl, _⟩ := hv.running hs
      have he : ({ r with
          state := .attentionRequired
          completedAt := some now
          errorCode := some .translationAttentionRequired } : OperationRecord) =
          overdue.unattended now r .translationAttentionRequired := by
        simp [overdue.unattended, hl]
      simp [refreshDue, hs, hnow, hw, he, updated_eq hv']
    · simp [refreshDue, hs, hnow, hw, expire_eq hv']

/-- A record is left alone or takes one transition. -/
def Kept (now : Int) (r r' : OperationRecord) : Prop := r' = r ∨ Transition now r r'

/-- The record a refresh leaves. -/
def refreshed (now : Int) (r : OperationRecord) : OperationRecord := (r.overdue now).getD r

theorem refreshed_kept (now : Int) (r : OperationRecord) : Kept now r (refreshed now r) := by
  unfold refreshed
  cases ho : r.overdue now with
  | none => exact .inl rfl
  | some r' => exact .inr (.overdue ho)

/-- A refreshed record that is not terminal was not due. -/
theorem refreshed_eq_self (now : Int) (r : OperationRecord)
    (h : (refreshed now r).state.isTerminal = false) : r.overdue now = none := by
  cases ho : r.overdue now with
  | none => rfl
  | some r' =>
    have ht := overdue_terminal ho
    simp [refreshed, ho, ht] at h

theorem refreshDue_refreshed {r : OperationRecord} (hv : r.Valid) (now : Int) :
    ∃ fresh, refreshDue r now = .ok (refreshed now r, fresh) ∧
      (fresh = false → r.overdue now = none) := by
  rw [refreshDue_eq hv]
  cases ho : r.overdue now with
  | none => exact ⟨false, by simp [refreshed, ho], fun _ => rfl⟩
  | some r' => exact ⟨true, by simp [refreshed, ho], by simp⟩

theorem startOwned_kept {r : OperationRecord} {now : Int} (hv : r.Valid) (hc : OnClock r now) :
    ∃ status r', startOwned r now = .ok (status, r') ∧ Kept now r r' := by
  unfold startOwned
  by_cases hs : r.state = .leased
  · obtain ⟨l, hl, _⟩ := hv.leased hs
    by_cases he : r.leaseEnded now
    · have ho : r.overdue now = some (overdue.unattended now r .leaseExpired) := by
        simp [OperationRecord.overdue, hs, he]
      refine ⟨.leaseExpired, _, ?_, .inr (.overdue ho)⟩
      rw [if_pos ⟨hs, he⟩, attentionRequired_eq (overdue_valid hv ho)]
      rfl
    · have hnow : now < l := by
        rw [leaseEnded_iff] at he
        exact Int.not_le.1 fun hle => he ⟨l, hl, hle⟩
      have hu := updated_eq (started_valid hv hc hs hl hnow)
      refine ⟨.updated, _, ?_, .inr (.start hs hl hnow)⟩
      rw [if_neg (by simp [he]), if_neg (by simp [hs])]
      exact congrArg _ hu
  · refine ⟨.invalidState, r, ?_, .inl rfl⟩
    rw [if_neg (by simp [hs]), if_pos hs]

theorem finishOwned_kept {r : OperationRecord} {now : Int} {state : OperationState}
    {result : Option TaskResult} {errorCode : Option SafeCode} (hv : r.Valid)
    (hc : OnClock r now) (hw : wellShaped r.task.command state result errorCode = true) :
    ∃ status r', finishOwned r now state result errorCode = .ok (status, r') ∧ Kept now r r' := by
  unfold finishOwned
  obtain ⟨fresh, href, hfresh⟩ := refreshDue_refreshed hv now
  simp only [href, bind, Except.bind]
  by_cases hrun : (refreshed now r).state = .running
  · have ho := refreshed_eq_self now r (by simp [hrun, OperationState.isTerminal])
    have hr : refreshed now r = r := by simp [refreshed, ho]
    rw [hr] at hrun ⊢
    have hexp : now < r.expiresAt := Int.not_le.1 ((overdue_eq_none ho).2.2 hrun)
    refine ⟨.updated, _, ?_, .inr (.finish hrun hexp hw)⟩
    have hu := updated_eq (finished_valid hv hc hrun hw)
    rw [if_neg (by simp [hrun]), if_neg (by simp [hrun])]
    exact congrArg _ hu
  · by_cases hexp : fresh = true ∧ (refreshed now r).state = .expired
    · exact ⟨.operationExpired, _, by rw [if_pos hexp]; rfl, refreshed_kept now r⟩
    · exact ⟨.invalidState, _, by rw [if_neg hexp, if_pos hrun]; rfl, refreshed_kept now r⟩

theorem command_of_validated {repo : InMemoryGatewayRepository} {r : OperationRecord}
    {result : TaskResult} {projects : List ProjectRecord} {drawings : List DrawingRecord}
    (h : repo.validateWorkerCatalogApplication r result projects drawings = .ok ()) :
    result.command = r.task.command := by
  unfold InMemoryGatewayRepository.validateWorkerCatalogApplication at h
  rw [require_bind_eq_ok] at h
  exact h.1

/-- Every stored record is kept, and no record appears. -/
structure Advances (now : Int) (ops ops' : Dict OperationId OperationRecord) : Prop where
  kept : ∀ id r, ops.get id = some r → ∃ r', ops'.get id = some r' ∧ Kept now r r'
  old : ∀ id r', ops'.get id = some r' → ∃ r, ops.get id = some r

theorem Advances.refl (now : Int) (ops : Dict OperationId OperationRecord) :
    Advances now ops ops :=
  ⟨fun _ r hr => ⟨r, hr, .inl rfl⟩, fun _ r hr => ⟨r, hr⟩⟩

/-- One record stored over the one it was made from. -/
theorem Advances.set {now : Int} {ops ops' : Dict OperationId OperationRecord}
    {id : OperationId} {r r' : OperationRecord} (h : Advances now ops ops')
    (hr : ops.get id = some r) (hk : Kept now r r') : Advances now ops (ops'.set id r') where
  kept k x hx := by
    by_cases hkey : k = id
    · subst hkey
      have hxr : x = r := Option.some.inj (hx.symm.trans hr)
      exact ⟨r', by simp, hxr ▸ hk⟩
    · simpa [Dict.get_set_other, hkey] using h.kept k x hx
  old k x hx := by
    by_cases hkey : k = id
    · exact ⟨r, hkey ▸ hr⟩
    · rw [Dict.get_set_other _ _ hkey] at hx
      exact h.old k x hx

/-- What the walk of `lease_next_operation` does with the entry of one key. -/
def swept (tenantId : TenantId) (workstationId : WorkstationId) (now : Int)
    (r : OperationRecord) : OperationRecord :=
  if r.tenantId ≠ tenantId ∨ r.workstationId ≠ workstationId then r else refreshed now r

theorem swept_kept (tenantId : TenantId) (workstationId : WorkstationId) (now : Int)
    (r : OperationRecord) : Kept now r (swept tenantId workstationId now r) := by
  unfold swept
  split
  · exact .inl rfl
  · exact refreshed_kept now r

section Scan

variable (tenantId : TenantId) (workstationId : WorkstationId) (ownerSubjectId : SubjectId)
  (now : Int)

/-- The walk never raises, refreshes exactly the entries of the workstation, gathers the queued
ones and sees whether one of them is active. -/
structure ScanSpec (rest : List (OperationId × OperationRecord)) (scan scan' : LeaseScan) :
    Prop where
  visited : ∀ id r, (id, r) ∈ rest →
    scan'.operations.get id = some (swept tenantId workstationId now r)
  others : ∀ id, id ∉ rest.map Prod.fst → scan'.operations.get id = scan.operations.get id
  eligible : ∀ x ∈ scan'.eligible, x ∈ scan.eligible ∨
    ∃ id r, (id, r) ∈ rest ∧ r.tenantId = tenantId ∧ r.workstationId = workstationId ∧
      x = refreshed now r ∧ x.ownerSubjectId = ownerSubjectId ∧ x.state = .created
  active : scan'.active = false → scan.active = false ∧ ∀ id r, (id, r) ∈ rest →
    r.tenantId = tenantId → r.workstationId = workstationId →
      (refreshed now r).state.isActive = false

theorem leaseScan_spec {rest : List (OperationId × OperationRecord)}
    (hnodup : (rest.map Prod.fst).Nodup) (hv : ∀ id r, (id, r) ∈ rest → r.Valid)
    (scan : LeaseScan) (hget : ∀ id r, (id, r) ∈ rest → scan.operations.get id = some r) :
    ∃ scan', leaseScan tenantId workstationId ownerSubjectId now rest scan = (.ok (), scan') ∧
      ScanSpec tenantId workstationId ownerSubjectId now rest scan scan' := by
  induction rest generalizing scan with
  | nil => exact ⟨scan, rfl, by simp, by simp, by simp, by simp⟩
  | cons e rest ih =>
    obtain ⟨id, r⟩ := e
    have hn : id ∉ rest.map Prod.fst ∧ (rest.map Prod.fst).Nodup := by simpa using hnodup
    have hv' : ∀ k x, (k, x) ∈ rest → x.Valid := fun k x h => hv k x (List.mem_cons_of_mem _ h)
    have hne : ∀ k x, (k, x) ∈ rest → k ≠ id := by
      intro k x h hk
      exact hn.1 (hk ▸ List.mem_map.2 ⟨(k, x), h, rfl⟩)
    by_cases hskip : r.tenantId ≠ tenantId ∨ r.workstationId ≠ workstationId
    · -- another workstation's entry: the scan goes on unchanged
      obtain ⟨scan', hrun, hspec⟩ := ih hn.2 hv' scan fun k x h =>
        hget k x (List.mem_cons_of_mem _ h)
      refine ⟨scan', by simpa only [leaseScan, if_pos hskip] using hrun, ?_, ?_, ?_, ?_⟩
      · intro k x hmem
        rcases List.mem_cons.1 hmem with heq | hmem
        · obtain ⟨rfl, rfl⟩ := Prod.mk.inj heq
          rw [hspec.others k hn.1, hget k x List.mem_cons_self]
          simp [swept, hskip]
        · exact hspec.visited k x hmem
      · intro k hk
        exact hspec.others k fun h => hk (List.mem_cons_of_mem _ h)
      · intro x hx
        refine (hspec.eligible x hx).imp_right ?_
        rintro ⟨k, y, hmem, hrest⟩
        exact ⟨k, y, List.mem_cons_of_mem _ hmem, hrest⟩
      · intro ha
        refine ⟨(hspec.active ha).1, fun k x hmem ht hw => ?_⟩
        rcases List.mem_cons.1 hmem with heq | hmem
        · obtain ⟨rfl, rfl⟩ := Prod.mk.inj heq
          exact absurd hskip (by simp [ht, hw])
        · exact (hspec.active ha).2 k x hmem ht hw
    · obtain ⟨fresh, href, _⟩ := refreshDue_refreshed (hv id r List.mem_cons_self) now
      have hown : r.tenantId = tenantId ∧ r.workstationId = workstationId := by simpa using hskip
      obtain ⟨scan', hrun, hspec⟩ := ih hn.2 hv'
        { operations := scan.operations.set id (refreshed now r)
          eligible :=
            if (refreshed now r).ownerSubjectId = ownerSubjectId ∧
                (refreshed now r).state = .created then scan.eligible ++ [refreshed now r]
            else scan.eligible
          active := scan.active || (refreshed now r).state.isActive } (fun k x h => by
            rw [Dict.get_set_other _ _ (hne k x h)]
            exact hget k x (List.mem_cons_of_mem _ h))
      refine ⟨scan', by simpa only [leaseScan, if_neg hskip, href] using hrun, ?_, ?_, ?_, ?_⟩
      · intro k x hmem
        rcases List.mem_cons.1 hmem with heq | hmem
        · obtain ⟨rfl, rfl⟩ := Prod.mk.inj heq
          rw [hspec.others k hn.1]
          simp [swept, hown]
        · exact hspec.visited k x hmem
      · intro k hk
        have hk' : k ≠ id ∧ k ∉ rest.map Prod.fst := by simpa using hk
        rw [hspec.others k hk'.2, Dict.get_set_other _ _ hk'.1]
      · intro x hx
        rcases hspec.eligible x hx with hx | ⟨k, y, hmem, hrest⟩
        · split at hx
          · next hc =>
            rcases List.mem_append.1 hx with hx | hx
            · exact .inl hx
            · have hxr := List.mem_singleton.1 hx
              exact .inr ⟨id, r, List.mem_cons_self, hown.1, hown.2, hxr, hxr ▸ hc.1, hxr ▸ hc.2⟩
          · exact .inl hx
        · exact .inr ⟨k, y, List.mem_cons_of_mem _ hmem, hrest⟩
      · intro ha
        obtain ⟨hscan, hrest⟩ := hspec.active ha
        have hor : scan.active = false ∧ (refreshed now r).state.isActive = false := by
          simpa using hscan
        refine ⟨hor.1, fun k x hmem ht hw => ?_⟩
        rcases List.mem_cons.1 hmem with heq | hmem
        · obtain ⟨rfl, rfl⟩ := Prod.mk.inj heq
          exact hor.2
        · exact hrest k x hmem ht hw

end Scan

end CadPlot.Gateway.InMemory
