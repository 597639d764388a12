import CadPlot.Gateway.Models

/-!
# The operations table

The row checks of the operations table and its transition trigger, in the form
the translation migration leaves them in. A column that is not NULL is a field,
a nullable column an optional one.
-/

namespace CadPlot.Gateway.Schema

/-- `a < b`, false when either side is NULL. -/
def before : Option Int → Option Int → Bool
  | some a, some b => decide (a < b)
  | _, _ => false

/-- `a >= b`, false when either side is NULL. -/
def notBefore : Option Int → Option Int → Bool
  | some a, some b => decide (b ≤ a)
  | _, _ => false

def allowedTransition : OperationState → OperationState → Bool
  | .created, .leased | .created, .expired => true
  | .leased, .running | .leased, .attentionRequired => true
  | .running, .succeeded | .running, .failed | .running, .expired
  | .running, .attentionRequired => true
  | _, _ => false

/-- The free texts of a result. Every other string in it has a pattern, none of which lets U+0000
through. -/
def resultTexts : TaskResult → List String
  | .translation _ (.scan _ _ _ _ _ records _ _) => records.flatMap fun record =>
      record.block :: record.layer :: record.raw ::
        record.spans.flatMap fun span => [span.text, span.normalizedForSearch]
  | .translation _ (.plan _ _ _ _ _ _ _ _ changes _ _) => changes.flatMap fun change =>
      [change.before, change.after]
  | _ => []

/-- `CAST(.. AS jsonb)` of the result column: jsonb stores no U+0000. -/
def storable : Option TaskResult → Bool
  | none => true
  | some result => (resultTexts result).all fun text => !text.toList.contains '\x00'

/-- `enforce_operation_transition`, run before every row update. -/
def enforceOperationTransition (old new : OperationRecord) : Except String OperationRecord := do
  require (new.identity = old.identity) "operation_identity_immutable"
  if new.state = old.state then do
    require (new = old) "operation_same_state_mutation_forbidden"
    pure new
  else do
    require (allowedTransition old.state new.state) "operation_state_transition_forbidden"
    require (old.state = .leased ∧ new.state = .running →
      before new.startedAt old.leaseExpiresAt) "operation_lease_deadline_violated"
    require (old.state = .leased ∧ new.state = .attentionRequired →
      notBefore new.completedAt old.leaseExpiresAt) "operation_lease_deadline_violated"
    require (old.state = .running ∧ (new.state = .succeeded ∨ new.state = .failed) →
      before new.completedAt (some old.expiresAt)) "operation_completion_deadline_violated"
    pure new

/-- The trigger passes a row on unchanged. -/
theorem enforce_eq {old new row : OperationRecord}
    (h : enforceOperationTransition old new = .ok row) : row = new := by
  unfold enforceOperationTransition at h
  rw [require_bind_eq_ok] at h
  obtain ⟨_, h⟩ := h
  split at h
  · rw [require_bind_eq_ok] at h
    exact (Except.ok.inj h.2).symm
  · simp only [require_bind_eq_ok] at h
    exact (Except.ok.inj h.2.2.2.2).symm

/-- `error_code IN (..)` in a check: a NULL code makes the check unknown, which passes. -/
def codeAmong (code : Option SafeCode) (codes : List String) : Bool :=
  match code with
  | none => true
  | some c => codes.contains c.value

/-- `operations_state_shape` -/
def stateShapeCheck (r : OperationRecord) : Bool :=
  match r.state with
  | .created =>
    r.leaseExpiresAt = none ∧ r.startedAt = none ∧ r.completedAt = none ∧ r.result = none ∧
      r.errorCode = none
  | .leased =>
    r.leaseExpiresAt ≠ none ∧ r.startedAt = none ∧ r.completedAt = none ∧ r.result = none ∧
      r.errorCode = none
  | .running =>
    r.leaseExpiresAt = none ∧ r.startedAt ≠ none ∧ r.completedAt = none ∧ r.result = none ∧
      r.errorCode = none
  | .succeeded =>
    r.leaseExpiresAt = none ∧ r.startedAt ≠ none ∧ r.completedAt ≠ none ∧
      r.result.map TaskResult.command = some r.task.command ∧ r.errorCode = none
  | .failed =>
    r.leaseExpiresAt = none ∧ r.startedAt ≠ none ∧ r.completedAt ≠ none ∧ r.result = none ∧
      r.errorCode ≠ none
  | .expired =>
    r.leaseExpiresAt = none ∧ notBefore r.completedAt (some r.expiresAt) ∧ r.result = none ∧
      codeAmong r.errorCode ["operation_expired"]
  | .attentionRequired =>
    r.leaseExpiresAt = none ∧ r.completedAt ≠ none ∧ r.result = none ∧
      codeAmong r.errorCode ["lease_expired", "translation_attention_required", "worker_failure"]

/-- Every check of the table except the known-state and task-command ones, which the types of
the columns already carry. -/
def rowChecks (r : OperationRecord) : Except String Unit := do
  require (r.createdAt < r.expiresAt) "operations_deadline_order"
  require (∀ l, r.leaseExpiresAt = some l → r.createdAt < l ∧ l ≤ r.expiresAt)
    "operations_lease_deadline"
  require (∀ s, r.startedAt = some s → r.createdAt ≤ s ∧ s < r.expiresAt)
    "operations_start_deadline"
  require (∀ c, r.completedAt = some c →
    r.createdAt ≤ c ∧ ∀ s, r.startedAt = some s → s ≤ c) "operations_completion_order"
  require (stateShapeCheck r) "operations_state_shape"

end CadPlot.Gateway.Schema
