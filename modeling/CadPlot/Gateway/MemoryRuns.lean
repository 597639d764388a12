import CadPlot.Gateway.MemorySpec
import CadPlot.Lib.Runs

/-!
# Runs of the in-memory repository

Any order of operation calls under a clock that never goes back. One invariant
joins the dictionaries with the clock, one lemma says what a call does to the
stored operations, and from these follow the state changes of a whole run, that
each lease and each start happens once, and that no revalidating update raises.
-/

namespace CadPlot.Gateway.InMemory

open InMemoryGatewayRepository

inductive Event where
  | createOrGet (operation : OperationRecord)
  | refresh (operationId : OperationId)
  | leaseNext (tenantId : TenantId) (workstationId : WorkstationId)
      (ownerSubjectId : SubjectId) (leaseExpiresAt : Int)
  | start (operationId : OperationId) (tenantId : TenantId) (workstationId : WorkstationId)
  | finish (operationId : OperationId) (tenantId : TenantId) (workstationId : WorkstationId)
      (state : OperationState) (result : Option TaskResult) (errorCode : Option SafeCode)
  | applySuccess (operationId : OperationId) (tenantId : TenantId)
      (workstationId : WorkstationId) (result : TaskResult) (projects : List ProjectRecord)
      (drawings : List DrawingRecord)

/-- A call at a time. -/
structure TimedEvent where
  now : Int
  event : Event

structure RunState where
  clock : Int
  repo : InMemoryGatewayRepository

/-- The error a call raised, if it raised one, and the repository it left. -/
def outcome {α : Type} (call : Call α) : Option RaisedError × InMemoryGatewayRepository :=
  match call.1 with
  | .ok _ => (none, call.2)
  | .error e => (some e, call.2)

def perform (now : Int) (repo : InMemoryGatewayRepository) :
    Event → Option RaisedError × InMemoryGatewayRepository
  | .createOrGet operation => outcome (repo.createOrGetOperation operation)
  | .refresh operationId => outcome (repo.refreshOperation operationId now)
  | .leaseNext tenantId workstationId ownerSubjectId leaseExpiresAt =>
    outcome (repo.leaseNextOperation tenantId workstationId ownerSubjectId now leaseExpiresAt)
  | .start operationId tenantId workstationId =>
    outcome (repo.startOperation operationId tenantId workstationId now)
  | .finish operationId tenantId workstationId state result errorCode =>
    outcome (repo.finishOperation operationId tenantId workstationId now state result errorCode)
  | .applySuccess operationId tenantId workstationId result projects drawings =>
    outcome (repo.applyWorkerSuccess operationId tenantId workstationId now result projects
      drawings)

/-- The clock of a call is never behind the last one. -/
def step (s : RunState) (e : TimedEvent) : Option RunState :=
  if s.clock ≤ e.now then some ⟨e.now, (perform e.now s.repo e.event).2⟩ else none

def initial (clock : Int) (workstations : Dict WorkstationId WorkstationRecord)
    (projects : Dict ProjectId ProjectRecord) (drawings : Dict DrawingId DrawingRecord) :
    RunState :=
  ⟨clock, ⟨workstations, projects, drawings, .empty, .empty⟩⟩

def RunState.get (s : RunState) (id : OperationId) : Option OperationRecord :=
  s.repo.operations.get id

/-- New records are CREATED at the current clock, leases end after now, and a finish brings what
its terminal state needs. -/
def Admissible (s : RunState) (e : TimedEvent) : Prop :=
  match e.event with
  | .createOrGet operation =>
    operation.Valid ∧ operation.state = .created ∧ operation.createdAt = e.now
  | .leaseNext _ _ _ leaseExpiresAt => e.now < leaseExpiresAt
  | .finish operationId _ _ state result errorCode =>
    ∀ r, s.get operationId = some r →
      (state = .succeeded ∨ state = .failed ∨ state = .attentionRequired) →
        wellShaped r.task.command state result errorCode = true
  | _ => True

/-- A call that stores a new record does not reuse the identifier of a stored one. -/
def FreshOperationId (s : RunState) (e : TimedEvent) : Prop :=
  match e.event with
  | .createOrGet operation =>
    s.repo.idempotency.get operation.idempotencyIndex = none →
      s.get operation.operationId = none
  | _ => True

instance (s : RunState) (e : TimedEvent) : Decidable (Admissible s e) :=
  match e with
  | ⟨_, .createOrGet _⟩ => inferInstanceAs (Decidable (_ ∧ _ ∧ _))
  | ⟨_, .refresh _⟩ => .isTrue trivial
  | ⟨_, .leaseNext ..⟩ => inferInstanceAs (Decidable (_ < _))
  | ⟨_, .start ..⟩ => .isTrue trivial
  | ⟨_, .finish ..⟩ => inferInstanceAs (Decidable (∀ r, _ = some r → _))
  | ⟨_, .applySuccess ..⟩ => .isTrue trivial

instance (s : RunState) (e : TimedEvent) : Decidable (FreshOperationId s e) :=
  match e with
  | ⟨_, .createOrGet _⟩ => inferInstanceAs (Decidable (_ = none → _ = none))
  | ⟨_, .refresh _⟩ => .isTrue trivial
  | ⟨_, .leaseNext ..⟩ => .isTrue trivial
  | ⟨_, .start ..⟩ => .isTrue trivial
  | ⟨_, .finish ..⟩ => .isTrue trivial
  | ⟨_, .applySuccess ..⟩ => .isTrue trivial

/-- Records sit under their own identifiers, are valid and on the clock, and every idempotency
key leads to one. -/
structure Inv (s : RunState) : Prop where
  keyed : ∀ id r, s.get id = some r → r.operationId = id
  valid : ∀ id r, s.get id = some r → r.Valid
  clock : ∀ id r, s.get id = some r → OnClock r s.clock
  index : ∀ key id, s.repo.idempotency.get key = some id → ∃ r, s.get id = some r

theorem initial_inv (clock : Int) (workstations : Dict WorkstationId WorkstationRecord)
    (projects : Dict ProjectId ProjectRecord) (drawings : Dict DrawingId DrawingRecord) :
    Inv (initial clock workstations projects drawings) := by
  constructor <;> intros <;> simp_all [initial, RunState.get]

/-- A call that lost no record, made one transition of a record at most, and did not raise from
a revalidation or a broken index. -/
structure Sound (now : Int) (repo : InMemoryGatewayRepository)
    (result : Option RaisedError × InMemoryGatewayRepository) : Prop where
  advances : Advances now repo.operations result.2.operations
  index : result.2.idempotency = repo.idempotency
  validation : ∀ code, result.1 ≠ some (.validation code)
  missingKey : result.1 ≠ some .missingKey

theorem sound_same (now : Int) (repo : InMemoryGatewayRepository) :
    Sound now repo (none, repo) :=
  ⟨.refl now _, rfl, by simp, by simp⟩

theorem sound_store {now : Int} {repo : InMemoryGatewayRepository} {id : OperationId}
    {r r' : OperationRecord} (hr : repo.operations.get id = some r) (hk : Kept now r r') :
    Sound now repo (none, repo.store id r') :=
  ⟨(Advances.refl now _).set hr hk, rfl, by simp, by simp⟩

variable {s : RunState} {now : Int}

theorem refresh_sound (hi : Inv s) (operationId : OperationId) :
    Sound now s.repo (outcome (s.repo.refreshOperation operationId now)) := by
  unfold refreshOperation
  cases hr : s.repo.operations.get operationId with
  | none => exact sound_same now s.repo
  | some r =>
    obtain ⟨fresh, href, _⟩ := refreshDue_refreshed (hi.valid _ _ hr) now
    simp only [href]
    exact sound_store hr (refreshed_kept now r)

theorem transitionOwned_sound {operationId : OperationId} {tenantId : TenantId}
    {workstationId : WorkstationId}
    {transition : OperationRecord → Except String (TransitionStatus × OperationRecord)}
    (htrans : ∀ r, s.get operationId = some r →
      ∃ status r', transition r = .ok (status, r') ∧ Kept now r r') :
    Sound now s.repo
      (outcome (s.repo.transitionOwned operationId tenantId workstationId transition)) := by
  unfold transitionOwned
  cases hr : s.repo.operations.get operationId with
  | none => exact sound_same now s.repo
  | some r =>
    obtain ⟨status, r', ht, hk⟩ := htrans r hr
    by_cases hown : workerOwns r tenantId workstationId
    · simp only [hown, not_true_eq_false, ↓reduceIte, ht]
      exact sound_store hr hk
    · simp only [hown]
      exact sound_same now s.repo

theorem lease_sound (hi : Inv s) (hle : s.clock ≤ now) (tenantId : TenantId)
    (workstationId : WorkstationId) (ownerSubjectId : SubjectId) {leaseExpiresAt : Int}
    (hlease : now < leaseExpiresAt) :
    Sound now s.repo (outcome
      (s.repo.leaseNextOperation tenantId workstationId ownerSubjectId now leaseExpiresAt)) := by
  have hstored : ∀ id r, (id, r) ∈ s.repo.operations.entries → s.get id = some r :=
    fun id r h => (Dict.mem_entries_iff _ id r).1 h
  obtain ⟨scan, hscan, hspec⟩ := leaseScan_spec tenantId workstationId ownerSubjectId now
    s.repo.operations.nodup (fun id r h => hi.valid id r (hstored id r h))
    ⟨s.repo.operations, [], false⟩ hstored
  have hadv : Advances now s.repo.operations scan.operations := by
    constructor
    · intro id r hr
      have hmem := (Dict.mem_entries_iff _ id r).2 hr
      exact ⟨_, hspec.visited id r hmem, swept_kept tenantId workstationId now r⟩
    · intro id r' hr'
      by_cases hk : id ∈ s.repo.operations.entries.map Prod.fst
      · obtain ⟨e, hmem, rfl⟩ := List.mem_map.1 hk
        exact ⟨e.2, hstored e.1 e.2 hmem⟩
      · exact ⟨r', (hspec.others id hk).symm.trans hr'⟩
  unfold leaseNextOperation
  simp only [hscan]
  cases ha : scan.active with
  | true => exact ⟨hadv, rfl, by simp [outcome], by simp [outcome]⟩
  | false =>
    cases hsel : earliest scan.eligible with
    | none => exact ⟨hadv, rfl, by simp [outcome], by simp [outcome]⟩
    | some selected =>
      obtain ⟨id, r, hmem, _, _, hxr, _, hx⟩ :=
        (hspec.eligible selected (earliest_mem hsel)).resolve_left (by simp)
      have hr := hstored id r hmem
      -- a record that is still queued after its refresh was not due
      have ho : r.overdue now = none :=
        refreshed_eq_self now r (by rw [← hxr, hx]; rfl)
      have hsr : selected = r := by simp [hxr, refreshed, ho]
      subst hsr
      have hid : selected.operationId = id := hi.keyed id selected hr
      subst hid
      have hexp : now < selected.expiresAt := Int.not_le.1 ((overdue_eq_none ho).1 hx)
      have hnow : ¬min leaseExpiresAt selected.expiresAt ≤ now := by omega
      have hu := updated_eq (leased_valid (hi.valid _ selected hr)
        ((hi.clock _ selected hr).mono hle) hx (Int.not_le.1 hnow) (Int.min_le_right _ _))
      have hu' : updated { selected with
          state := .leased
          leaseExpiresAt := some (min leaseExpiresAt selected.expiresAt) } =
          .ok (selected.leased (min leaseExpiresAt selected.expiresAt)) := hu
      simp only [Bool.false_eq_true, ↓reduceIte, hnow, hu']
      have hk := Transition.lease hx (Int.not_le.1 hnow) (Int.min_le_right leaseExpiresAt _)
      exact ⟨hadv.set hr (.inr hk), rfl, by simp [outcome], by simp [outcome]⟩

theorem start_sound (hi : Inv s) (hle : s.clock ≤ now) (operationId : OperationId)
    (tenantId : TenantId) (workstationId : WorkstationId) :
    Sound now s.repo
      (outcome (s.repo.startOperation operationId tenantId workstationId now)) :=
  transitionOwned_sound fun r hr =>
    startOwned_kept (hi.valid _ r hr) ((hi.clock _ r hr).mono hle)

theorem finish_sound (hi : Inv s) (hle : s.clock ≤ now) (operationId : OperationId)
    (tenantId : TenantId) (workstationId : WorkstationId) {state : OperationState}
    {result : Option TaskResult} {errorCode : Option SafeCode}
    (hw : ∀ r, s.get operationId = some r →
      (state = .succeeded ∨ state = .failed ∨ state = .attentionRequired) →
        wellShaped r.task.command state result errorCode = true) :
    Sound now s.repo (outcome
      (s.repo.finishOperation operationId tenantId workstationId now state result errorCode)) := by
  unfold finishOperation
  split
  · next hstate =>
    exact transitionOwned_sound fun r hr =>
      finishOwned_kept (hi.valid _ r hr) ((hi.clock _ r hr).mono hle) (hw r hr hstate)
  · exact ⟨.refl now _, rfl, by simp [outcome], by simp [outcome]⟩

theorem apply_sound (hi : Inv s) (hle : s.clock ≤ now) (operationId : OperationId)
    (tenantId : TenantId) (workstationId : WorkstationId) (result : TaskResult)
    (projects : List ProjectRecord) (drawings : List DrawingRecord) :
    Sound now s.repo (outcome (s.repo.applyWorkerSuccess operationId tenantId workstationId now
      result projects drawings)) := by
  unfold applyWorkerSuccess
  cases hr : s.repo.operations.get operationId with
  | none => exact sound_same now s.repo
  | some r =>
    by_cases hown : workerOwns r tenantId workstationId
    · simp only [hown, not_true_eq_false, ↓reduceIte, refreshDue_eq (hi.valid _ _ hr) now]
      cases ho : r.overdue now with
      | some r' =>
        -- an overdue record is terminal, so the call ends with storing it
        have ht := overdue_terminal ho
        have hne : ¬r'.state = .running := by
          intro h
          simp [h, OperationState.isTerminal] at ht
        have hs := sound_store hr (.inr (.overdue ho))
        simp only [true_and, ↓reduceIte, ne_eq, hne, not_false_eq_true]
        split
        · exact hs
        · split
          · split <;> exact hs
          · exact hs
      | none =>
        by_cases hrun : r.state = .running
        · have hnow := Int.not_le.1 ((overdue_eq_none ho).2.2 hrun)
          simp only [hrun, reduceCtorEq, and_false, ↓reduceIte, ne_eq, not_true_eq_false]
          cases hval : s.repo.validateWorkerCatalogApplication r result projects drawings with
          | error code => exact ⟨.refl now _, rfl, by simp [outcome], by simp [outcome]⟩
          | ok u =>
            have hcommand := command_of_validated hval
            have hw : wellShaped r.task.command .succeeded (some result) none = true := by
              simp [wellShaped, hcommand]
            have hu := updated_eq (finished_valid (hi.valid _ r hr)
              ((hi.clock _ r hr).mono hle) hrun hw)
            have hu' : updated { r with
                state := .succeeded
                completedAt := some now
                result := some result
                errorCode := none } =
                .ok (r.finished now .succeeded (some result) none) := hu
            simp only [hu']
            exact ⟨(Advances.refl now _).set hr (.inr (.finish hrun hnow hw)), rfl,
              by simp [outcome], by simp [outcome]⟩
        · simp only [Bool.false_eq_true, false_and, ↓reduceIte, ne_eq, hrun, not_false_eq_true]
          split
          · split <;> exact sound_same now s.repo
          · exact sound_same now s.repo
    · simp only [hown]
      exact sound_same now s.repo

/-- What a call does to the stored operations: at most one new record, under a new identifier,
and at most one transition of every old one. -/
structure StepSpec (s : RunState) (e : TimedEvent) (t : RunState) : Prop where
  clock : t.clock = e.now
  kept : ∀ id r, s.get id = some r → ∃ r', t.get id = some r' ∧ Kept e.now r r'
  born : ∀ id r', t.get id = some r' → s.get id = none →
    r'.state = .created ∧ r'.Valid ∧ r'.operationId = id ∧ r'.createdAt = e.now
  index : ∀ key id, t.repo.idempotency.get key = some id →
    s.repo.idempotency.get key = some id ∨ ∃ r, t.get id = some r
  validation : ∀ code, (perform e.now s.repo e.event).1 ≠ some (.validation code)
  missingKey : (perform e.now s.repo e.event).1 ≠ some .missingKey

theorem stepSpec_of_sound {s : RunState} {e : TimedEvent}
    (h : Sound e.now s.repo (perform e.now s.repo e.event)) :
    StepSpec s e ⟨e.now, (perform e.now s.repo e.event).2⟩ where
  clock := rfl
  kept := h.advances.kept
  born := by
    intro id r' hr' hnone
    obtain ⟨r, hr⟩ := h.advances.old id r' hr'
    exact absurd (hr.symm.trans hnone) (by simp)
  index := by
    intro key id hkey
    exact .inl (h.index ▸ hkey)
  validation := h.validation
  missingKey := h.missingKey

theorem create_spec {s : RunState} {now : Int} {operation : OperationRecord} (hi : Inv s)
    (hv : operation.Valid) (hs : operation.state = .created) (hnow : operation.createdAt = now)
    (hfresh : s.repo.idempotency.get operation.idempotencyIndex = none →
      s.get operation.operationId = none) :
    StepSpec s ⟨now, .createOrGet operation⟩
      ⟨now, (perform now s.repo (.createOrGet operation)).2⟩ := by
  cases hk : s.repo.idempotency.get operation.idempotencyIndex with
  | some existingId =>
    obtain ⟨existing, he⟩ := hi.index _ _ hk
    have he' : s.repo.operations.get existingId = some existing := he
    refine stepSpec_of_sound ?_
    simp only [perform, createOrGetOperation, hk, he']
    split <;> exact sound_same now s.repo
  | none =>
    have hnone := hfresh hk
    have hp : perform now s.repo (.createOrGet operation) =
        (none, { s.repo.store operation.operationId operation with
          idempotency :=
            s.repo.idempotency.set operation.idempotencyIndex operation.operationId }) := by
      simp [perform, createOrGetOperation, hk, outcome]
    have hget : ∀ id, (RunState.mk now (perform now s.repo (.createOrGet operation)).2).get id =
        if operation.operationId = id then some operation else s.get id := by
      intro id
      rw [hp]
      exact Dict.get_set _ _ _ _
    refine ⟨rfl, ?_, ?_, ?_, ?_, ?_⟩
    · intro id r hr
      refine ⟨r, ?_, .inl rfl⟩
      rw [hget, if_neg]
      · exact hr
      · rintro rfl
        exact absurd (hr.symm.trans hnone) (by simp)
    · intro id r' hr' hid
      rw [hget] at hr'
      split at hr'
      · next hop =>
        obtain rfl := Option.some.inj hr'
        exact ⟨hs, hv, hop, hnow⟩
      · exact absurd (hr'.symm.trans hid) (by simp)
    · intro key id hkey
      rw [hp] at hkey
      have hkey' : (s.repo.idempotency.set operation.idempotencyIndex
          operation.operationId).get key = some id := hkey
      rw [Dict.get_set] at hkey'
      split at hkey'
      · refine .inr ⟨operation, ?_⟩
        rw [hget, if_pos (Option.some.inj hkey')]
      · exact .inl hkey'
    · simp [hp]
    · simp [hp]

/-- One step of a run, whatever the call. -/
theorem step_spec {s t : RunState} {e : TimedEvent} (hi : Inv s) (ha : Admissible s e)
    (hf : FreshOperationId s e) (h : step s e = some t) : StepSpec s e t := by
  unfold step at h
  split at h
  · next hle =>
    obtain rfl := Option.some.inj h
    obtain ⟨now, event⟩ := e
    cases event with
    | createOrGet operation =>
      obtain ⟨hv, hs, hnow⟩ := ha
      exact create_spec hi hv hs hnow hf
    | refresh operationId => exact stepSpec_of_sound (refresh_sound hi operationId)
    | leaseNext tenantId workstationId ownerSubjectId leaseExpiresAt =>
      exact stepSpec_of_sound (lease_sound hi hle tenantId workstationId ownerSubjectId ha)
    | start operationId tenantId workstationId =>
      exact stepSpec_of_sound (start_sound hi hle operationId tenantId workstationId)
    | finish operationId tenantId workstationId state result errorCode =>
      exact stepSpec_of_sound (finish_sound hi hle operationId tenantId workstationId ha)
    | applySuccess operationId tenantId workstationId result projects drawings =>
      exact stepSpec_of_sound (apply_sound hi hle operationId tenantId workstationId result
        projects drawings)
  · exact absurd h (by simp)

theorem inv_step {s t : RunState} {e : TimedEvent} (hi : Inv s)
    (hok : Admissible s e ∧ FreshOperationId s e) (h : step s e = some t) : Inv t := by
  have hle : s.clock ≤ e.now := by
    unfold step at h
    split at h
    · assumption
    · exact absurd h (by simp)
  obtain ⟨hclock, hkept, hborn, hindex, _, _⟩ := step_spec hi hok.1 hok.2 h
  have hrec : ∀ id r', t.get id = some r' →
      r'.operationId = id ∧ r'.Valid ∧ OnClock r' t.clock := by
    intro id r' hr'
    rw [hclock]
    cases hr : s.get id with
    | none =>
      obtain ⟨hs, hv, hid, hnow⟩ := hborn id r' hr' hr
      obtain ⟨_, hst, _⟩ := hv.created hs
      exact ⟨hid, hv, by omega, by simp [hst]⟩
    | some r =>
      obtain ⟨x, hx, hk⟩ := hkept id r hr
      obtain rfl := Option.some.inj (hx.symm.trans hr')
      have hv := hi.valid id r hr
      have hc := (hi.clock id r hr).mono hle
      rcases hk with rfl | htr
      · exact ⟨hi.keyed id _ hr, hv, hc⟩
      · have hid := congrArg OperationIdentity.operationId htr.identity
        exact ⟨hid.trans (hi.keyed id r hr), htr.valid hv hc, htr.onClock hc⟩
  refine ⟨fun id r hr => (hrec id r hr).1, fun id r hr => (hrec id r hr).2.1,
    fun id r hr => (hrec id r hr).2.2, fun key id hkey => ?_⟩
  rcases hindex key id hkey with hold | hnew
  · obtain ⟨r, hr⟩ := hi.index key id hold
    obtain ⟨r', hr', _⟩ := hkept id r hr
    exact ⟨r', hr'⟩
  · exact hnew

/-- The states that each state may be followed by. -/
def successors : OperationState → List OperationState
  | .created => [.leased, .expired]
  | .leased => [.running, .attentionRequired]
  | .running => [.succeeded, .failed, .expired, .attentionRequired]
  | .succeeded | .failed | .expired | .attentionRequired => []

/-- What a change of a stored record has to respect. -/
structure ChangeLaw (r r' : OperationRecord) : Prop where
  successor : r'.state ∈ successors r.state
  trigger : Schema.enforceOperationTransition r r' = .ok r'
  identity : r'.identity = r.identity
  startedInTime : r'.state = .running →
    ∃ s l, r'.startedAt = some s ∧ r.leaseExpiresAt = some l ∧ s < l
  completedInTime : r'.state = .succeeded ∨ r'.state = .failed →
    ∃ c, r'.completedAt = some c ∧ c < r'.expiresAt

theorem Transition.changeLaw {now : Int} {r r' : OperationRecord} (h : Transition now r r') :
    ChangeLaw r r' := by
  refine ⟨?_, h.trigger, h.identity, ?_, ?_⟩
  · have ht := h.trigger
    cases h with
    | lease hs => simp [OperationRecord.leased, hs, successors]
    | start hs => simp [OperationRecord.started, hs, successors]
    | @finish state _ _ hs _ hw =>
      cases state <;> simp_all [OperationRecord.finished, successors, wellShaped]
    | overdue h =>
      rcases overdue_cases h with ⟨hs, _, rfl⟩ | ⟨hs, _, rfl⟩ | ⟨hs, _, _, rfl⟩ |
        ⟨hs, _, _, rfl⟩ <;> simp [OperationRecord.overdue.expired,
          OperationRecord.overdue.unattended, hs, successors]
  · cases h with
    | lease => simp [OperationRecord.leased]
    | start _ hl hnow => exact fun _ => ⟨now, _, rfl, hl, hnow⟩
    | @finish state _ _ _ _ hw => cases state <;> simp_all [OperationRecord.finished, wellShaped]
    | overdue h =>
      have ht := overdue_terminal h
      intro hs
      simp [hs, OperationState.isTerminal] at ht
  · cases h with
    | lease => simp [OperationRecord.leased]
    | start => simp [OperationRecord.started]
    | finish _ hnow => exact fun _ => ⟨now, rfl, hnow⟩
    | overdue h =>
      rcases overdue_cases h with ⟨_, _, rfl⟩ | ⟨_, _, rfl⟩ | ⟨_, _, _, rfl⟩ | ⟨_, _, _, rfl⟩ <;>
        simp [OperationRecord.overdue.expired, OperationRecord.overdue.unattended]

/-- The order of the states in a life. -/
def rank : OperationState → Nat
  | .created => 0
  | .leased => 1
  | .running => 2
  | .succeeded | .failed | .expired | .attentionRequired => 3

theorem rank_lt_of_successor {a b : OperationState} (h : b ∈ successors a) : rank a < rank b := by
  cases a <;> cases b <;> simp_all [successors, rank]

theorem rank_le_of_kept {now : Int} {r r' : OperationRecord} (h : Kept now r r') :
    rank r.state ≤ rank r'.state := by
  rcases h with rfl | h
  · exact Nat.le_refl _
  · exact Nat.le_of_lt (rank_lt_of_successor (Transition.changeLaw h).successor)

/-- The step puts the operation into the state. -/
def Enters (state : OperationState) (s t : RunState) (id : OperationId) : Prop :=
  ∃ r r', s.get id = some r ∧ t.get id = some r' ∧ r.state ≠ state ∧ r'.state = state

/-- What holds at a state of a run whose steps all meet `ok`, now and later. -/
structure Lawful (ok : RunState → TimedEvent → Prop) (s : RunState) : Prop where
  valid : ∀ id r, s.get id = some r → r.Valid
  change : ∀ e t, ok s e → step s e = some t → ∀ id r, s.get id = some r →
    ∃ r', t.get id = some r' ∧ (r' = r ∨ ChangeLaw r r')
  terminal : ∀ e t, ok s e → step s e = some t → ∀ id r, s.get id = some r →
    r.state.isTerminal = true → t.get id = some r
  once : ∀ e t u e' v, ok s e → step s e = some t → Runs.Reaches step ok t u → ok u e' →
    step u e' = some v → ∀ id state, state = .leased ∨ state = .running →
      Enters state s t id → ¬Enters state u v id
  noRaise : ∀ e t, ok s e → step s e = some t →
    ∀ code, (perform e.now s.repo e.event).1 ≠ some (.validation code)

/-- The guard of a run: a call of the domain that reuses no stored identifier. -/
def Guard (s : RunState) (e : TimedEvent) : Prop := Admissible s e ∧ FreshOperationId s e

theorem inv_of_reaches {s t : RunState} (hi : Inv s) (h : Runs.Reaches step Guard s t) : Inv t :=
  Runs.invariant_of_reaches hi (fun _ _ _ ha hok hst => inv_step ha hok hst) h

/-- Along a run no record is lost and none goes back in its life. -/
theorem rank_mono {s t : RunState} (hi : Inv s) (h : Runs.Reaches step Guard s t) :
    ∀ id r, s.get id = some r → ∃ r', t.get id = some r' ∧ rank r.state ≤ rank r'.state := by
  refine Runs.rel_of_reaches
    (R := fun a b => ∀ id r, a.get id = some r →
      ∃ r', b.get id = some r' ∧ rank r.state ≤ rank r'.state) hi
    (fun _ _ r hr => ⟨r, hr, Nat.le_refl _⟩) ?_ (fun _ _ _ ha hok hst => inv_step ha hok hst) ?_ h
  · intro a b c hab hbc id r hr
    obtain ⟨r', hr', hle⟩ := hab id r hr
    obtain ⟨r'', hr'', hle'⟩ := hbc id r' hr'
    exact ⟨r'', hr'', Nat.le_trans hle hle'⟩
  · intro a e b ha hok hst id r hr
    obtain ⟨r', hr', hk⟩ := (step_spec ha hok.1 hok.2 hst).kept id r hr
    exact ⟨r', hr', rank_le_of_kept hk⟩

/-- Entering a state of the life raises the rank to that of the state. -/
theorem rank_of_enters {s t : RunState} {e : TimedEvent} (hi : Inv s) (hok : Guard s e)
    (hst : step s e = some t) {id : OperationId} {state : OperationState}
    (h : Enters state s t id) :
    ∃ r r', s.get id = some r ∧ t.get id = some r' ∧ rank r.state < rank state ∧
      r'.state = state := by
  obtain ⟨r, r', hr, hr', hne, heq⟩ := h
  obtain ⟨x, hx, hk⟩ := (step_spec hi hok.1 hok.2 hst).kept id r hr
  obtain rfl := Option.some.inj (hx.symm.trans hr')
  rcases hk with rfl | htr
  · exact absurd heq hne
  · have hlt := rank_lt_of_successor (Transition.changeLaw htr).successor
    exact ⟨r, x, hr, hr', heq ▸ hlt, heq⟩

instance (s : RunState) (e : TimedEvent) : Decidable (Guard s e) :=
  inferInstanceAs (Decidable (_ ∧ _))

/-- Every run from the empty operation store whose creates reuse no stored identifier obeys the
law at each of its states. -/
theorem guarded_runs_lawful (clock : Int) (workstations : Dict WorkstationId WorkstationRecord)
    (projects : Dict ProjectId ProjectRecord) (drawings : Dict DrawingId DrawingRecord)
    (s : RunState)
    (h : Runs.Reaches step Guard (initial clock workstations projects drawings) s) :
    Lawful Guard s := by
  have hi := inv_of_reaches (initial_inv clock workstations projects drawings) h
  have hchange : ∀ e t, Guard s e → step s e = some t → ∀ id r, s.get id = some r →
      ∃ r', t.get id = some r' ∧ (r' = r ∨ ChangeLaw r r') := by
    intro e t hok hst id r hr
    obtain ⟨r', hr', hk⟩ := (step_spec hi hok.1 hok.2 hst).kept id r hr
    exact ⟨r', hr', hk.imp_right Transition.changeLaw⟩
  refine ⟨hi.valid, hchange, ?_, ?_, ?_⟩
  · intro e t hok hst id r hr hterm
    obtain ⟨r', hr', rfl | hlaw⟩ := hchange e t hok hst id r hr
    · exact hr'
    · have hsucc := hlaw.successor
      cases hs : r.state <;> simp_all [successors, OperationState.isTerminal]
  · intro e t u e' v hok hst hreach hok' hst' id state _ hfirst hsecond
    have hit := inv_step hi hok hst
    obtain ⟨_, r₁, _, hr₁, _, heq₁⟩ := rank_of_enters hi hok hst hfirst
    obtain ⟨r₂, hr₂, hle⟩ := rank_mono hit hreach id r₁ hr₁
    obtain ⟨x, _, hx, _, hlt, _⟩ := rank_of_enters (inv_of_reaches hit hreach) hok' hst' hsecond
    obtain rfl := Option.some.inj (hx.symm.trans hr₂)
    rw [heq₁] at hle
    omega
  · intro e t hok hst
    exact (step_spec hi hok.1 hok.2 hst).validation

def firstOperation : OperationRecord :=
  listingOperation "op_00000000-0000-4000-8000-000000000001"
    "idem_00000000-0000-4000-8000-000000000001" 0

/-- The same operation identifier under another idempotency key. -/
def collidingOperation : OperationRecord :=
  listingOperation "op_00000000-0000-4000-8000-000000000001"
    "idem_00000000-0000-4000-8000-000000000002" 2

def createThenLease : List TimedEvent :=
  [⟨0, .createOrGet firstOperation⟩,
    ⟨1, .leaseNext firstOperation.tenantId firstOperation.workstationId
      firstOperation.ownerSubjectId 60000000⟩]

theorem guarded_runs_lawful_leased :
    ∃ s, s.get firstOperation.operationId = some (firstOperation.leased 60000000) ∧
      Lawful Guard s := by
  obtain ⟨s, hs, hget⟩ := Runs.exists_reaches_of_run step Guard
    (initial 0 .empty .empty .empty) createThenLease
    (fun s => s.get firstOperation.operationId = some (firstOperation.leased 60000000))
    (by decide) (by decide)
  exact ⟨s, by simpa using hget, guarded_runs_lawful 0 .empty .empty .empty s hs⟩

/-- Without the identifier condition a create puts a leased operation back to CREATED. -/
theorem colliding_create_unlawful :
    ¬∀ s, Runs.Reaches step Admissible (initial 0 .empty .empty .empty) s →
      Lawful Admissible s := by
  intro hall
  obtain ⟨s, hs, hget⟩ := Runs.exists_reaches_of_run step Admissible
    (initial 0 .empty .empty .empty) createThenLease
    (fun s => s.get firstOperation.operationId = some (firstOperation.leased 60000000) ∧
      Admissible s ⟨2, .createOrGet collidingOperation⟩ ∧
      (step s ⟨2, .createOrGet collidingOperation⟩).any (fun t =>
        t.get firstOperation.operationId = some collidingOperation))
    (by decide) (by decide)
  obtain ⟨hleased, hok, hnext⟩ := of_decide_eq_true hget
  obtain ⟨t, ht, hcreated⟩ := (Option.any_eq_true _ _).1 hnext
  have hcreated := of_decide_eq_true hcreated
  obtain ⟨r', hr', hlaw⟩ := (hall s hs).change _ t hok ht _ _ hleased
  obtain rfl := Option.some.inj (hcreated.symm.trans hr')
  rcases hlaw with heq | hlaw
  · exact absurd heq (by decide)
  · exact absurd hlaw.successor (by decide)

end CadPlot.Gateway.InMemory
