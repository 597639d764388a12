import CadPlot.Gateway.Ingress
import CadPlot.Gateway.Memory
import CadPlot.Gateway.ReplaySqlRuns

/-!
# The guards and the repository behind the ingress

The in-memory repository changes one operation in a call. The claims of both
replay guards have the effect that the ingress reckons with, on the bindings of
the dictionary and on those of the committed rows.
-/

namespace CadPlot.Gateway.Ingress

open Replay Service

/-- The repository calls of the service on the in-memory repository. -/
def runInMemory (call : RepositoryCall) (operationId : OperationId) (worker : WorkerContext)
    (now : Int) (repo : InMemoryGatewayRepository) : InMemoryGatewayRepository.Call TransitionOutcome :=
  match call with
  | .applyWorkerSuccess result projects drawings =>
    repo.applyWorkerSuccess operationId worker.tenantId worker.workstationId now result projects
      drawings
  | .finishOperation state errorCode =>
    repo.finishOperation operationId worker.tenantId worker.workstationId now state none
      (some errorCode)

section Frame

variable {repo : InMemoryGatewayRepository} {operationId other : OperationId} {tenantId : TenantId}
  {workstationId : WorkstationId} {now : Int}

theorem store_frame (hne : other ≠ operationId) (record : OperationRecord) :
    (repo.store operationId record).operations.get other = repo.operations.get other := by
  rw [InMemoryGatewayRepository.store, Dict.get_set, if_neg hne.symm]

theorem finishOperation_frame (hne : other ≠ operationId) (state : OperationState)
    (result : Option TaskResult) (errorCode : Option SafeCode) :
    (repo.finishOperation operationId tenantId workstationId now state result
      errorCode).2.operations.get other = repo.operations.get other := by
  unfold InMemoryGatewayRepository.finishOperation
  split
  · unfold InMemoryGatewayRepository.transitionOwned
    split
    · rfl
    · split
      · rfl
      · split
        · rfl
        · exact store_frame hne _
  · rfl

theorem applyWorkerSuccess_frame (hne : other ≠ operationId) (result : TaskResult)
    (projects : List ProjectRecord) (drawings : List DrawingRecord) :
    (repo.applyWorkerSuccess operationId tenantId workstationId now result projects
      drawings).2.operations.get other = repo.operations.get other := by
  unfold InMemoryGatewayRepository.applyWorkerSuccess
  split
  · rfl
  · split
    · rfl
    · split
      · rfl
      · next refreshed fresh _ =>
        have hrefreshed : (if fresh then repo.store operationId refreshed else
            repo).operations.get other = repo.operations.get other := by
          split
          · exact store_frame hne _
          · rfl
        simp only
        split
        · exact hrefreshed
        · split
          · split <;> exact hrefreshed
          · split
            · exact hrefreshed
            · split
              · exact hrefreshed
              · split
                · exact hrefreshed
                · exact (store_frame hne _).trans hrefreshed

end Frame

def inMemoryRepository : RepositoryApi InMemoryGatewayRepository where
  getOperation repo id := repo.operations.get id
  run := runInMemory
  frame call operationId worker now repo other hne := by
    cases call with
    | applyWorkerSuccess result projects drawings =>
      exact applyWorkerSuccess_frame hne result projects drawings
    | finishOperation state errorCode => exact finishOperation_frame hne state none (some errorCode)

section InMemoryGuard

variable (g : InMemoryResultReplayGuard) (key : Key) (value : Binding Datetime)

theorem get_set_update (d : Dict Key (Binding Datetime)) :
    (d.set key value).get = Function.update d.get key (some value) := by
  funext k
  rw [Dict.get_set, Function.update_apply]
  simp only [eq_comm]

/-- A claim of the in-memory guard has the effect that goes with its answer. -/
theorem claim_effect (claimExpiresAt now : Datetime) (bound : Bool) :
    claimEffect g.seen.get key value (some (g.claim key value claimExpiresAt now).1) bound =
      some (g.claim key value claimExpiresAt now).2.seen.get := by
  unfold InMemoryResultReplayGuard.claim
  split
  · next existing hseen =>
    by_cases heq : existing = value
    · simp [claimEffect, hseen, heq]
    · simp [claimEffect, heq]
  · next hseen =>
    split
    · rfl
    · split
      · rfl
      · simp [claimEffect, hseen, get_set_update]

theorem classify_exact (h : g.classify key value = .exactMatch) : g.seen.get key = some value := by
  unfold InMemoryResultReplayGuard.classify at h
  split at h
  · cases h
  · next existing hseen =>
    split at h
    · next heq => exact heq ▸ hseen
    · cases h

end InMemoryGuard

end CadPlot.Gateway.Ingress

namespace CadPlot.Gateway.ReplaySql

open ReadCommitted Replay Leases Ingress

/-- What the committed rows bind. -/
def World.bindings (w : World) (key : Key) : Option (Binding Int) :=
  (w.db.committed.get key).map (·.binding)

structure ToldInv (w : World) : Prop where
  base : Inv w
  told : ∀ t tx, w.db.txs.get t = some tx → Told w.db.committed tx.pc

section Worlds

variable {hashtextextended : Key → Int} {w w' : World} {t : Nat} {action : Action}

theorem bindings_eq {k : Key} {b : Binding Int} : w.bindings k = some b ↔
    ∃ r, w.ledger.records k = some r ∧ r.bound = b := by
  simp [World.bindings, World.ledger]

/-- What was told of committed bindings stays true of committed rows that keep them. -/
theorem Told.mono {pc : Pc} (h : Told w.db.committed pc)
    (hkept : ∀ k b, w.bindings k = some b → w'.bindings k = some b) :
    Told w'.db.committed pc := by
  unfold Told at h ⊢
  split at h
  · next args answer =>
    refine ⟨h.1, fun hexact => ?_⟩
    obtain ⟨row, hrow, hbinding⟩ := h.2 hexact
    have hafter := hkept args.key args.binding (by rw [World.bindings, hrow, Option.map_some, hbinding])
    exact Option.map_eq_some_iff.1 hafter
  · trivial

theorem moves_bindings (h : Moves w.ledger w'.ledger) (k : Key) (b : Binding Int)
    (hk : w.bindings k = some b) : w'.bindings k = some b := by
  obtain ⟨r, hr, hbound⟩ := bindings_eq.1 hk
  obtain ⟨r', hr', hkept⟩ := h.kept hr
  exact bindings_eq.2 ⟨r', hr', hkept.1.trans hbound⟩

theorem told_of_reported {committed : Dict Key ReplayRow} {pc : Pc} (h : Reported committed pc) :
    Told committed pc := by
  unfold Told
  split
  · exact h
  · trivial

theorem evolves_told (hi : ToldInv w) (h : Evolves w t action w') : ToldInv w' := by
  have hkept := moves_bindings (evolves_moves hi.base h)
  have hset : ∀ (db : ReplayDb) (tx' : ReplayTx), db.txs = w.db.txs → Told w'.db.committed tx'.pc →
      ∀ t' tx, (db.setTx t tx').txs.get t' = some tx → Told w'.db.committed tx.pc := by
    intro db tx' hdb hnew t' tx hget
    rw [Db.setTx_get, hdb] at hget
    split at hget
    · exact Option.some.inj hget ▸ hnew
    · exact (hi.told t' tx hget).mono hkept
  refine ⟨evolves_inv hi.base h, ?_⟩
  cases h with
  | opened hnone hpc =>
    refine hset w.db _ rfl ?_
    rcases hpc with rfl | ⟨answer, rfl⟩ <;> trivial
  | queried hcommit hopen hle hread hrep =>
    rw [hrep.eq]
    rw [hrep.eq] at hset
    exact hset w.db _ rfl (told_of_reported hrep.reported)
  | @committed tx hget hcommit => exact hset _ ⟨[], .empty, .closed⟩ rfl trivial

theorem commit_get (db : ReplayDb) (t : Nat) (tx : ReplayTx) (k : Key) :
    (db.commit t tx .closed).committed.get k = (tx.writes.get k).or (db.committed.get k) :=
  Dict.get_overlay _ _ _

/-- A version that is written over the committed one with the same binding. -/
theorem bindings_rewrite {tx : ReplayTx} {k : Key} {row new : ReplayRow}
    {granted : Key → Uuid → Option Int}
    {answers : List (Nat × Key × Binding Int × ResultApplicationStatus)}
    (hrow : w.db.committed.get k = some row) (hwrote : Wrote tx k new)
    (hbinding : new.binding = row.binding) :
    World.bindings ⟨w.db.commit t tx .closed, w.clock, granted, answers⟩ = w.bindings := by
  funext k'
  rw [World.bindings, commit_get, hwrote k', World.bindings]
  by_cases hk : k = k'
  · subst hk
    simp [hrow, hbinding]
  · simp [hk]

/-- A claim or a classification that a transaction is to answer when it commits. -/
def Pc.classification : Pc → Option (Args × ResultReplayClassification)
  | .claimInserted args => some (args, .firstSeen)
  | .done args (.classification answer) => some (args, answer)
  | _ => none

theorem toldInv_of_reachable (hreach : (sql hashtextextended).Reachable w) : ToldInv w := by
  obtain ⟨s, hstart, hlater⟩ := hreach
  have hs : ToldInv s := by
    refine ⟨(sql_simulates.start s hstart).1, fun t tx hget => ?_⟩
    obtain ⟨clock, rfl⟩ := hstart
    simp at hget
  exact Runs.invariant_of_reaches hs
    (fun _ _ _ hi _ hstep => evolves_told hi (step_evolves hi.base hstep)) hlater

/-- What a commit does to the committed bindings is what goes with its answer, and nothing when it
answers no claim. No other query does anything to them. -/
theorem sql_claim_effect (hreach : (sql hashtextextended).Reachable w)
    (hstep : step hashtextextended w (t, action) = some w') :
    (w'.bindings = w.bindings ∧ action ≠ .commit) ∨
    ∃ tx, w.db.txs.get t = some tx ∧
      match tx.pc.classification with
      | some (args, answer) =>
        claimEffect w.bindings args.key args.binding (some answer) false = some w'.bindings
      | none => w'.bindings = w.bindings := by
  have hi := toldInv_of_reachable hreach
  cases step_evolves hi.base hstep with
  | opened => exact .inl ⟨rfl, by simp⟩
  | queried hcommit hopen hle hread hrep =>
    refine .inl ⟨?_, hcommit⟩
    rw [hrep.eq]
    rfl
  | @committed tx hget hcommit =>
    refine .inr ⟨tx, hget, ?_⟩
    have hstand := hi.base.db.each t tx hget
    have hold := hi.told t tx hget
    have hquiet : Untouched tx → World.bindings ⟨w.db.commit t tx .closed, w.clock,
        tx.pc.grant w.granted, tx.pc.report t ++ w.answers⟩ = w.bindings := by
      intro hu
      funext k
      rw [World.bindings, commit_get, hu k, Option.none_or]
      rfl
    cases hpc : tx.pc with
    | claimInserted args =>
      simp only [Standing, hpc] at hstand
      have hnone : w.bindings args.key = none := by rw [World.bindings, hstand.2, Option.map_none]
      simp only [Pc.classification, claimEffect, hnone, ↓reduceIte, Option.some.injEq]
      funext k
      simp only [Function.update_apply, World.bindings, commit_get, hstand.1.1 k]
      by_cases hk : args.key = k
      · simp [hk, ReplayRow.inserted]
      · simp [hk, Ne.symm hk]
    | done args answer =>
      simp only [Standing, hpc] at hstand
      rw [hpc] at hquiet
      cases answer with
      | classification answer =>
        simp only [hpc, Told] at hold
        simp only [Pc.classification, hquiet hstand]
        cases answer with
        | firstSeen => exact (hold.1 rfl).elim
        | exactMatch =>
          obtain ⟨row, hrow, hbinding⟩ := hold.2 rfl
          simp [claimEffect, World.bindings, hrow, hbinding]
        | _ => rfl
      | _ => exact hquiet hstand
    | refused answer =>
      simp only [Standing, hpc] at hstand
      rw [hpc] at hquiet
      exact hquiet hstand
    | acquireWritten args applicationId databaseNow expiry =>
      simp only [Standing, hpc] at hstand
      obtain ⟨hle, row, hlocked, _, _, hfree, hwrote⟩ := hstand
      exact bindings_rewrite hlocked.1 hwrote rfl
    | markWritten args applicationId since checkedAt =>
      simp only [Standing, hpc] at hstand
      obtain ⟨_, row, appliedAt, hlocked, hmark, hwrote⟩ := hstand
      exact bindings_rewrite hlocked.1 hwrote (marked_binding row appliedAt)
    | _ => simp [commit, hpc] at hcommit

end Worlds

end CadPlot.Gateway.ReplaySql
