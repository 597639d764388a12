import CadPlot.Worker.DispatchRuns

/-!
# The time window of the nonce store

`authorize_for_worker` allows a worker's clock to be behind by the clock skew,
and an envelope to live for five minutes. The nonce store allows a deadline of
five minutes from the worker's clock and knows of no skew.
-/

namespace CadPlot.Worker.Dispatches

open Gateway Calendar Protocol

/-- `authorize_for_worker`, whose nonces go to `consume_dispatch_nonce` -/
def authorizeForWorker (settings : Settings) (identity : WorkerIdentity) (task : DispatchedTask)
    (now : DateTime) (rows : List NonceRow) : Bool :=
  authorized settings identity task now &&
    (consumeDispatchNonce rows identity.tenantId identity.deviceId task.envelope.nonce now
      task.expiresAt).any Prod.fst

section Window

variable {settings : Settings} {identity : WorkerIdentity} {task : DispatchedTask} {now : DateTime}
  {rows : List NonceRow}

/-- The identifiers of an envelope that is for the worker pass the checks of the store. -/
theorem identifiers_accepted (h : contextMatches identity task.envelope = true) :
    isGatewayId "tnt" identity.tenantId = true ∧ isWireId "ws" identity.deviceId = true ∧
      isNonce task.envelope.nonce = true := by
  have hvalid := task.valid
  simp only [Dispatch.validateEnvelope, Bool.and_eq_true] at hvalid
  obtain ⟨⟨⟨⟨⟨⟨⟨⟨⟨⟨_, htenant⟩, _⟩, hdevice⟩, _⟩, _⟩, _⟩, _⟩, hnonce⟩, _⟩, _⟩ := hvalid
  obtain ⟨htenantEq, _, hdeviceEq, _⟩ := of_decide_eq_true h
  exact ⟨htenantEq ▸ htenant, hdeviceEq ▸ hdevice, hnonce⟩

/-- An unused nonce is accepted when its deadline is within the lifetime from now. -/
theorem consumeDispatchNonce_accepts_iff {tenantId : TenantId} {deviceId : WorkstationId}
    {nonce : String} {expiresAt : DateTime}
    (hids : isGatewayId "tnt" tenantId = true ∧ isWireId "ws" deviceId = true ∧
      isNonce nonce = true)
    (hlive : now.instant < expiresAt.instant)
    (hunused : ∀ row ∈ rows, row.isFor tenantId deviceId nonce = false) :
    (consumeDispatchNonce rows tenantId deviceId nonce now expiresAt).any Prod.fst = true ↔
      expiresAt.instant ≤ now.instant + maxDispatchLifetime ∧
        now.instant + maxDispatchLifetime ≤ maxInstant := by
  have hnew : ((rows.filter fun row => decide (now.isoformat < row.expiresAt)).any fun row =>
      row.isFor tenantId deviceId nonce) = false := by
    rw [List.any_eq_false]
    intro row hrow
    rw [hunused row (List.mem_filter.1 hrow).1]
    exact Bool.false_ne_true
  unfold consumeDispatchNonce
  rw [if_neg (not_not_intro hids)]
  by_cases hwindow : expiresAt.instant ≤ now.instant + maxDispatchLifetime ∧
      now.instant + maxDispatchLifetime ≤ maxInstant
  · rw [if_neg (not_not_intro ⟨hlive, hwindow.2, hwindow.1⟩)]
    simp [hnew, hwindow]
  · rw [if_pos fun h => hwindow ⟨h.2.2, h.2.1⟩]
    simpa using hwindow

/-- An envelope that the protocol accepts, with an unused nonce, is authorized exactly if it expires
within five minutes of the worker's clock. -/
theorem authorized_with_store_iff (hcontext : contextMatches identity task.envelope = true)
    (hsignature : signatureMatches settings task.envelope = true)
    (htime : timeMatches task now = true)
    (hunused : ∀ row ∈ rows,
      row.isFor identity.tenantId identity.deviceId task.envelope.nonce = false) :
    authorizeForWorker settings identity task now rows = true ↔
      task.expiresAt.instant ≤ now.instant + maxDispatchLifetime ∧
        now.instant + maxDispatchLifetime ≤ maxInstant := by
  have hlive : now.instant < task.expiresAt.instant := (of_decide_eq_true htime).2.2
  rw [← consumeDispatchNonce_accepts_iff (identifiers_accepted hcontext) hlive hunused]
  simp only [authorizeForWorker, authorized, hcontext, hsignature, htime, Bool.and_self,
    Bool.true_and]

theorem authorized_with_store_iff_short :
    authorizeForWorker someSettings someWorker shortTask (firstHour 0 10 (by decide)) [] = true ↔
      shortTask.expiresAt.instant ≤ (firstHour 0 10 (by decide)).instant + maxDispatchLifetime ∧
        (firstHour 0 10 (by decide)).instant + maxDispatchLifetime ≤ maxInstant :=
  authorized_with_store_iff (by decide +kernel) rfl (by decide +kernel) (by simp)

/-- The second before 2026. -/
def lastSecond : DateTime where
  year := 2025
  month := 12
  day := 31
  hour := 23
  minute := 59
  second := 59
  microsecond := 0
  years := by decide
  months := by decide
  days := by decide
  time := by decide

/-- An envelope of five minutes is refused by a worker whose clock is one second behind. -/
theorem store_refuses_skew :
    contextMatches someWorker longTask.envelope = true ∧
      signatureMatches someSettings longTask.envelope = true ∧
      timeMatches longTask lastSecond = true ∧
      authorizeForWorker someSettings someWorker longTask lastSecond [] = false :=
  ⟨by decide +kernel, rfl, by decide +kernel, by decide +kernel⟩

end Window

end CadPlot.Worker.Dispatches
