import CadPlot.Gateway.Memory
import CadPlot.Gateway.Schema

/-!
# The life of one operation

What any step may do to a record, stated once. `overdue` is the record that a
passed deadline leaves, `Transition` lists every change with what it writes, and
each change is shown to keep the validator, the clock order, the identity and
the trigger of the operations table. The two repositories are compared with
these and not with each other.
-/

namespace CadPlot.Gateway

namespace OperationRecord

/-- The record once its deadline has passed with nobody acting on it. -/
def overdue (r : OperationRecord) (now : Int) : Option OperationRecord :=
  match r.state with
  | .created => if r.expiresAt ≤ now then some (expired r) else none
  | .leased => if r.leaseEnded now then some (unattended r .leaseExpired) else none
  | .running =>
    if r.expiresAt ≤ now then
      if r.task.isUnknownWrite then some (unattended r .translationAttentionRequired)
      else some (expired r)
    else none
  | _ => none
where
  expired (r : OperationRecord) : OperationRecord :=
    { r with
      state := .expired
      leaseExpiresAt := none
      completedAt := some now
      errorCode := some .operationExpired }
  unattended (r : OperationRecord) (code : SafeCode) : OperationRecord :=
    { r with
      state := .attentionRequired
      leaseExpiresAt := none
      completedAt := some now
      errorCode := some code }

def leased (r : OperationRecord) (leaseExpiresAt : Int) : OperationRecord :=
  { r with state := .leased, leaseExpiresAt := some leaseExpiresAt }

def started (r : OperationRecord) (now : Int) : OperationRecord :=
  { r with state := .running, leaseExpiresAt := none, startedAt := some now }

def finished (r : OperationRecord) (now : Int) (state : OperationState)
    (result : Option TaskResult) (errorCode : Option SafeCode) : OperationRecord :=
  { r with state := state, completedAt := some now, result := result, errorCode := errorCode }

end OperationRecord

/-- The result and error code that a requested terminal state needs. -/
def wellShaped (command : TaskCommand) (state : OperationState) (result : Option TaskResult)
    (errorCode : Option SafeCode) : Bool :=
  match state with
  | .succeeded => result.map TaskResult.command = some command ∧ errorCode = none
  | .failed | .attentionRequired => result = none ∧ errorCode ≠ none
  | _ => false

/-- Every change of a record: leased, started, finished in time, or overdue. -/
inductive Transition (now : Int) (r : OperationRecord) : OperationRecord → Prop where
  | lease {l : Int} : r.state = .created → now < l → l ≤ r.expiresAt →
      Transition now r (r.leased l)
  | start {l : Int} : r.state = .leased → r.leaseExpiresAt = some l → now < l →
      Transition now r (r.started now)
  | finish {state : OperationState} {result : Option TaskResult} {errorCode : Option SafeCode} :
      r.state = .running → now < r.expiresAt →
      wellShaped r.task.command state result errorCode = true →
      Transition now r (r.finished now state result errorCode)
  | overdue {r' : OperationRecord} : r.overdue now = some r' → Transition now r r'

/-- The record was created, and started if it was, no later than now. -/
structure OnClock (r : OperationRecord) (now : Int) : Prop where
  created : r.createdAt ≤ now
  started : ∀ s, r.startedAt = some s → s ≤ now

theorem OnClock.mono {r : OperationRecord} {now later : Int} (h : OnClock r now)
    (hle : now ≤ later) : OnClock r later :=
  ⟨Int.le_trans h.created hle, fun s hs => Int.le_trans (h.started s hs) hle⟩

open OperationRecord

theorem leaseEnded_iff (r : OperationRecord) (now : Int) :
    r.leaseEnded now = true ↔ ∃ l, r.leaseExpiresAt = some l ∧ l ≤ now := by
  unfold leaseEnded
  cases r.leaseExpiresAt with
  | none => simp
  | some l => simp

/-- The cases of a passed deadline, each with the record it leaves. -/
theorem overdue_cases {r r' : OperationRecord} {now : Int} (h : r.overdue now = some r') :
    (r.state = .created ∧ r.expiresAt ≤ now ∧ r' = overdue.expired now r) ∨
    (r.state = .leased ∧ (∃ l, r.leaseExpiresAt = some l ∧ l ≤ now) ∧
      r' = overdue.unattended now r .leaseExpired) ∨
    (r.state = .running ∧ r.expiresAt ≤ now ∧ r.task.isUnknownWrite = true ∧
      r' = overdue.unattended now r .translationAttentionRequired) ∨
    (r.state = .running ∧ r.expiresAt ≤ now ∧ r.task.isUnknownWrite = false ∧
      r' = overdue.expired now r) := by
  unfold OperationRecord.overdue at h
  cases hs : r.state with
  | created =>
    simp only [hs, Option.ite_none_right_eq_some, Option.some.injEq] at h
    exact .inl ⟨rfl, h.1, h.2.symm⟩
  | leased =>
    simp only [hs, leaseEnded_iff, Option.ite_none_right_eq_some, Option.some.injEq] at h
    exact .inr (.inl ⟨rfl, h.1, h.2.symm⟩)
  | running =>
    simp only [hs, Option.ite_none_right_eq_some] at h
    obtain ⟨hexp, h⟩ := h
    cases hw : r.task.isUnknownWrite with
    | true =>
      simp only [hw, ↓reduceIte, Option.some.injEq] at h
      exact .inr (.inr (.inl ⟨rfl, hexp, rfl, h.symm⟩))
    | false =>
      simp only [hw, Bool.false_eq_true, ↓reduceIte, Option.some.injEq] at h
      exact .inr (.inr (.inr ⟨rfl, hexp, rfl, h.symm⟩))
  | succeeded | failed | expired | attentionRequired => simp [hs] at h

theorem overdue_eq_none {r : OperationRecord} {now : Int} (h : r.overdue now = none) :
    (r.state = .created → ¬r.expiresAt ≤ now) ∧ (r.state = .leased → ¬r.leaseEnded now = true) ∧
      (r.state = .running → ¬r.expiresAt ≤ now) := by
  refine ⟨fun hs hle => ?_, fun hs hle => ?_, fun hs hle => ?_⟩
  · simp [OperationRecord.overdue, hs, hle] at h
  · simp [OperationRecord.overdue, hs, hle] at h
  · cases hw : r.task.isUnknownWrite <;> simp [OperationRecord.overdue, hs, hle, hw] at h

theorem overdue_terminal {r r' : OperationRecord} {now : Int}
    (h : r.overdue now = some r') : r'.state.isTerminal = true := by
  rcases overdue_cases h with ⟨_, _, rfl⟩ | ⟨_, _, rfl⟩ | ⟨_, _, _, rfl⟩ | ⟨_, _, _, rfl⟩ <;> rfl

theorem overdue_of_terminal {r : OperationRecord} (h : r.state.isTerminal = true)
    (now : Int) : r.overdue now = none := by
  unfold OperationRecord.overdue
  cases hs : r.state <;> simp_all [OperationState.isTerminal]

/-- The state, the shape and the deadlines of a record determine each other. -/
theorem valid_of_shape {r : OperationRecord} (hd : r.Deadlines)
    (hs : r.validateShapeOfState = .ok ()) : r.Valid :=
  (valid_iff r).2 ⟨hd, hs⟩

theorem Valid.deadlines {r : OperationRecord} (h : r.Valid) : r.Deadlines := ((valid_iff r).1 h).1

/-- No passed deadline can be recorded wrongly, whatever the clock says. -/
theorem overdue_valid {r r' : OperationRecord} {now : Int} (hv : r.Valid)
    (h : r.overdue now = some r') : r'.Valid := by
  have hd := Valid.deadlines hv
  have hexp := hd.expiry
  rcases overdue_cases h with ⟨hs, hnow, rfl⟩ | ⟨hs, ⟨l, hl, hnow⟩, rfl⟩ | ⟨hs, hnow, _, rfl⟩ |
    ⟨hs, hnow, _, rfl⟩
  · obtain ⟨_, hst, _, hres, _⟩ := hv.created hs
    refine valid_of_shape ⟨hexp, ?_, hd.start, ?_, ?_⟩ ?_
    · simp [overdue.expired]
    · simp [overdue.expired]; omega
    · simp [overdue.expired, hst]
    · simp [validateShapeOfState, validateShapeOfState.terminalShape, overdue.expired, hnow, hres]
  · obtain ⟨_, hl', hcl, _, hst, _, hres, _⟩ := hv.leased hs
    have hll : l = _ := Option.some.inj (hl.symm.trans hl')
    refine valid_of_shape ⟨hexp, ?_, hd.start, ?_, ?_⟩ ?_
    · simp [overdue.unattended]
    · simp [overdue.unattended]; omega
    · simp [overdue.unattended, hst]
    · simp [validateShapeOfState, validateShapeOfState.terminalShape, overdue.unattended, hres]
  · obtain ⟨s, hst, hcs, hse, _, _, hres, _⟩ := hv.running hs
    refine valid_of_shape ⟨hexp, ?_, hd.start, ?_, ?_⟩ ?_
    · simp [overdue.unattended]
    · simp [overdue.unattended]; omega
    · simp [overdue.unattended, hst]; omega
    · simp [validateShapeOfState, validateShapeOfState.terminalShape, overdue.unattended, hres]
  · obtain ⟨s, hst, hcs, hse, _, _, hres, _⟩ := hv.running hs
    refine valid_of_shape ⟨hexp, ?_, hd.start, ?_, ?_⟩ ?_
    · simp [overdue.expired]
    · simp [overdue.expired]; omega
    · simp [overdue.expired, hst]; omega
    · simp [validateShapeOfState, validateShapeOfState.terminalShape, overdue.expired, hnow, hres]

theorem leased_valid {r : OperationRecord} {now l : Int} (hv : r.Valid) (hc : OnClock r now)
    (hs : r.state = .created) (hl : now < l) (hle : l ≤ r.expiresAt) : (r.leased l).Valid := by
  obtain ⟨_, hst, hco, hres, herr⟩ := hv.created hs
  have hcreated := hc.created
  refine valid_of_shape ⟨(Valid.deadlines hv).expiry, ?_, ?_, ?_, ?_⟩ ?_
  · simp [OperationRecord.leased]; omega
  · simp [OperationRecord.leased, hst]
  · simp [OperationRecord.leased, hco]
  · simp [OperationRecord.leased, hco]
  · simp [validateShapeOfState, OperationRecord.leased, hst, hco, hres, herr]

theorem started_valid {r : OperationRecord} {now l : Int} (hv : r.Valid) (hc : OnClock r now)
    (hs : r.state = .leased) (hl : r.leaseExpiresAt = some l) (hnow : now < l) :
    (r.started now).Valid := by
  obtain ⟨l', hl', _, hle, _, hco, hres, herr⟩ := hv.leased hs
  have hll : l = l' := Option.some.inj (hl.symm.trans hl')
  have hcreated := hc.created
  refine valid_of_shape ⟨(Valid.deadlines hv).expiry, ?_, ?_, ?_, ?_⟩ ?_
  · simp [OperationRecord.started]
  · simp [OperationRecord.started]; omega
  · simp [OperationRecord.started, hco]
  · simp [OperationRecord.started, hco]
  · simp [validateShapeOfState, OperationRecord.started, hco, hres, herr]

theorem finished_valid {r : OperationRecord} {now : Int} {state : OperationState}
    {result : Option TaskResult} {errorCode : Option SafeCode} (hv : r.Valid)
    (hc : OnClock r now) (hs : r.state = .running)
    (hw : wellShaped r.task.command state result errorCode = true) :
    (r.finished now state result errorCode).Valid := by
  obtain ⟨s, hst, hcs, hse, hl, _, _, _⟩ := hv.running hs
  have hsn := hc.started s hst
  refine valid_of_shape ⟨(Valid.deadlines hv).expiry, ?_, ?_, ?_, ?_⟩ ?_
  · simp [OperationRecord.finished, hl]
  · simp [OperationRecord.finished, hst]; omega
  · simp [OperationRecord.finished]; omega
  · simp [OperationRecord.finished, hst]; omega
  · cases state with
    | succeeded =>
      have hshape : result.map TaskResult.command = some r.task.command ∧ errorCode = none := by
        simpa [wellShaped] using hw
      have hres : result ≠ none := by
        rintro rfl
        simp at hshape
      simp [validateShapeOfState, OperationRecord.finished, hst, hl, hshape, hres]
    | failed | attentionRequired =>
      have hshape : result = none ∧ errorCode ≠ none := by simpa [wellShaped] using hw
      simp [validateShapeOfState, validateShapeOfState.terminalShape, OperationRecord.finished,
        hst, hl, hshape]
    | created | leased | running | expired => simp [wellShaped] at hw

theorem Transition.valid {r r' : OperationRecord} {now : Int} (hv : r.Valid)
    (hc : OnClock r now) (h : Transition now r r') : r'.Valid := by
  cases h with
  | lease hs hl hle => exact leased_valid hv hc hs hl hle
  | start hs hl hnow => exact started_valid hv hc hs hl hnow
  | finish hs _ hw => exact finished_valid hv hc hs hw
  | overdue h => exact overdue_valid hv h

theorem Transition.identity {r r' : OperationRecord} {now : Int} (h : Transition now r r') :
    r'.identity = r.identity := by
  cases h with
  | lease | start | finish => rfl
  | overdue h =>
    rcases overdue_cases h with ⟨_, _, rfl⟩ | ⟨_, _, rfl⟩ | ⟨_, _, _, rfl⟩ | ⟨_, _, _, rfl⟩ <;> rfl

theorem Transition.onClock {r r' : OperationRecord} {now : Int} (hc : OnClock r now)
    (h : Transition now r r') : OnClock r' now := by
  cases h with
  | lease => exact ⟨hc.created, hc.started⟩
  | start => exact ⟨hc.created, fun s hs => (Option.some.inj hs) ▸ Int.le_refl now⟩
  | finish => exact ⟨hc.created, hc.started⟩
  | overdue h =>
    rcases overdue_cases h with ⟨_, _, rfl⟩ | ⟨_, _, rfl⟩ | ⟨_, _, _, rfl⟩ | ⟨_, _, _, rfl⟩ <;>
      exact ⟨hc.created, hc.started⟩

/-- The trigger of the operations table accepts every transition. -/
theorem Transition.trigger {r r' : OperationRecord} {now : Int} (h : Transition now r r') :
    Schema.enforceOperationTransition r r' = .ok r' := by
  have hid := h.identity
  unfold Schema.enforceOperationTransition
  rw [require_bind_eq_ok]
  refine ⟨hid, ?_⟩
  cases h with
  | lease hs hl hle =>
    simp [OperationRecord.leased, hs, Schema.allowedTransition, pure, Except.pure]
  | start hs hl hnow =>
    simp [OperationRecord.started, hs, hl, hnow, Schema.allowedTransition, Schema.before, pure,
      Except.pure]
  | @finish state _ _ hs hnow hw =>
    cases state <;>
      simp_all [OperationRecord.finished, wellShaped, Schema.allowedTransition, Schema.before,
        pure, Except.pure]
  | overdue h =>
    rcases overdue_cases h with ⟨hs, hnow, rfl⟩ | ⟨hs, ⟨l, hl, hnow⟩, rfl⟩ | ⟨hs, hnow, _, rfl⟩ |
      ⟨hs, hnow, _, rfl⟩ <;>
    simp_all [overdue.expired, overdue.unattended, Schema.allowedTransition, Schema.notBefore,
      pure, Except.pure]

/-- A listing request created at a time, with a lifetime of fifteen minutes. -/
def listingOperation (operationId idempotencyKey : String) (createdAt : Int) : OperationRecord where
  operationId := operationId
  tenantId := "tnt_00000000-0000-4000-8000-000000000001"
  ownerSubjectId := "usr_00000000-0000-4000-8000-000000000001"
  clientId := "cli_00000000-0000-4000-8000-000000000001"
  workstationId := "ws_00000000-0000-4000-8000-000000000001"
  idempotencyKey := idempotencyKey
  requestFingerprint := "e3b0c44298fc1c149afbf4c8996fb92427ae41e4649b934ca495991b7852b855"
  task := .listProjects "ws_00000000-0000-4000-8000-000000000001"
  state := .created
  createdAt := createdAt
  expiresAt := createdAt + 900000000
  leaseExpiresAt := none
  startedAt := none
  completedAt := none
  result := none
  errorCode := none

end CadPlot.Gateway
