import CadPlot.Gateway.Events
import CadPlot.Gateway.QuotaRuns

/-!
# The events of an operation follow its states

Every interleaving leaves the events of an operation as a chain from no state to
`CREATED` and on to the state it is in. A commit adds one event for each row
whose state it changes, and no other event.
-/

namespace CadPlot.Gateway.Events

open ReadCommitted Transactions
open Quota (Ok TxOk Change Ready)
open Postgres hiding Call lockOperation

/-! ### The locked record -/

section Functions

variable {row next : OperationRecord} {events : List StateChange} {now later : Int}

theorem recordTransition_fst (row : OperationRecord) (state : OperationState)
    (leaseExpiresAt startedAt completedAt : Option Int) (result : Option TaskResult)
    (errorCode : Option SafeCode) (eventAt : Int) :
    Prod.fst <$> recordTransition row state leaseExpiresAt startedAt completedAt result errorCode
      eventAt = writeTransition row state leaseExpiresAt startedAt completedAt result errorCode := by
  unfold recordTransition
  cases writeTransition row state leaseExpiresAt startedAt completedAt result errorCode <;> rfl

/-- Forgetting the events of a result that is mapped beside them. -/
theorem fst_map {α β : Type} (f : α → β) (x : Except String (α × List StateChange)) :
    (Prod.fst <$> (fun y : α × List StateChange => (f y.1, y.2)) <$> x) = f <$> Prod.fst <$> x := by
  cases x <;> rfl

theorem refreshRecorded_fst (row : OperationRecord) (now : Int) :
    Prod.fst <$> refreshRecorded row now = refreshLocked row now := by
  unfold refreshRecorded refreshLocked
  simp only
  split
  · rw [fst_map (fun x => (x, true)), recordTransition_fst]
  · split
    · rw [fst_map (fun x => (x, true)), recordTransition_fst]
    · split
      · rw [fst_map (fun x => (x, true)), recordTransition_fst]
      · rfl

theorem startRecorded_fst (row : OperationRecord) (now : Int) :
    Prod.fst <$> startRecorded row now = startLocked row now := by
  unfold startRecorded startLocked answering
  split
  · rw [fst_map (fun x => (TransitionStatus.leaseExpired, x)), recordTransition_fst]
  · split
    · rfl
    · rw [fst_map (fun x => (TransitionStatus.updated, x)), recordTransition_fst]

theorem finishRecorded_fst (row : OperationRecord) (now later : Int) (state : OperationState)
    (result : Option TaskResult) (errorCode : Option SafeCode)
    (validate : OperationRecord → Option TaskResult → Except String Unit) :
    Prod.fst <$> finishRecorded row now later state result errorCode validate =
      finishLocked row now later state result errorCode validate := by
  unfold finishRecorded finishLocked
  rw [← refreshRecorded_fst row now, map_bind, bind_map_left]
  refine bind_congr fun ⟨⟨refreshed, changed⟩, events⟩ => ?_
  dsimp only
  split
  · rfl
  · split
    · rfl
    · rw [map_bind]
      refine bind_congr fun _ => ?_
      rw [map_bind]
      refine bind_congr fun _ => ?_
      rw [← refreshRecorded_fst refreshed later, map_bind, bind_map_left]
      refine bind_congr fun ⟨⟨again, changed⟩, more⟩ => ?_
      dsimp only
      split
      · rfl
      · rw [← recordTransition_fst refreshed state none refreshed.startedAt (some later) result
          errorCode later, Functor.map_map, Functor.map_map]
        rfl

theorem applyRecorded_fst (row : OperationRecord) (now later : Int) (result : TaskResult)
    (projects : List ProjectRecord) (drawings : List DrawingRecord) (upsert : Except String Unit)
    (validate : OperationRecord → Option TaskResult → Except String Unit) :
    Prod.fst <$> applyRecorded row now later result projects drawings upsert validate =
      applyLocked row now later result projects drawings upsert validate := by
  unfold applyRecorded applyLocked
  rw [← refreshRecorded_fst row now, map_bind, bind_map_left]
  refine bind_congr fun ⟨⟨refreshed, changed⟩, events⟩ => ?_
  dsimp only
  split
  · rfl
  · split
    · rfl
    · split
      · rfl
      · iterate 4
          rw [map_bind]
          refine bind_congr fun _ => ?_
        rw [← recordTransition_fst refreshed .succeeded none refreshed.startedAt (some later)
          (some result) none later, Functor.map_map, Functor.map_map]
        rfl

/-- Without the events, these are the functions of the repository. -/
theorem record_fst (row : OperationRecord) (now later : Int) (tables : CatalogTables)
    (upsert : Except String Unit) (work : Work) :
    Prod.fst <$> record row now later tables upsert work =
      work.run row now later tables upsert := by
  cases work with
  | start => exact startRecorded_fst row now
  | finish state result errorCode => exact finishRecorded_fst row now later state result errorCode _
  | applySuccess result projects drawings =>
    exact applyRecorded_fst row now later result projects drawings upsert _
  | refresh =>
    unfold record Work.run
    rw [fst_map (fun x : OperationRecord × Bool => (TransitionStatus.updated, x.1)),
      refreshRecorded_fst]

/-- The events of a call that leaves a row as the next one: none, or one for its new state. -/
inductive Records (row next : OperationRecord) : List StateChange → Prop where
  | same : next.state = row.state → Records row next []
  | changed {occurredAt : Int} : next.state ≠ row.state →
      Records row next [⟨rowKey row, some row.state, next.state, occurredAt⟩]

/-- An UPDATE of the state columns that keeps the state keeps the row. -/
theorem writeTransition_same {state : OperationState}
    {leaseExpiresAt startedAt completedAt : Option Int} {result : Option TaskResult}
    {errorCode : Option SafeCode}
    (h : writeTransition row state leaseExpiresAt startedAt completedAt result errorCode = .ok next)
    (hs : state = row.state) : next = row ∧ Schema.stateShapeCheck next = true := by
  unfold writeTransition at h
  simp only at h
  split at h
  · next written hwritten =>
    obtain rfl := Except.ok.inj h
    obtain ⟨-, hwritten⟩ := (require_bind_eq_ok _ _ _ _).1 hwritten
    obtain ⟨new, henforce, hwritten⟩ := bind_eq_ok.1 hwritten
    obtain ⟨_, hchecks, hwritten⟩ := bind_eq_ok.1 hwritten
    obtain ⟨_, -, hwritten⟩ := bind_eq_ok.1 hwritten
    obtain rfl := pure_eq_ok.1 hwritten
    have hnew := Schema.enforce_eq henforce
    refine ⟨?_, ?_⟩
    · unfold Schema.enforceOperationTransition at henforce
      obtain ⟨-, henforce⟩ := (require_bind_eq_ok _ _ _ _).1 henforce
      rw [if_pos hs] at henforce
      obtain ⟨hsame, -⟩ := (require_bind_eq_ok _ _ _ _).1 henforce
      exact hnew.trans hsame
    · unfold Schema.rowChecks at hchecks
      simp only [require_bind_eq_ok] at hchecks
      exact (require_eq_ok _ _).1 hchecks.2.2.2.2
  · cases h

theorem recordTransition_ok {state : OperationState}
    {leaseExpiresAt startedAt completedAt : Option Int} {result : Option TaskResult}
    {errorCode : Option SafeCode} {eventAt : Int}
    (h : recordTransition row state leaseExpiresAt startedAt completedAt result errorCode eventAt =
      .ok (next, events)) :
    next.state = state ∧ (state ≠ row.state → Records row next events) := by
  obtain ⟨updated, hupdated, heq⟩ := map_eq_ok.1 h
  obtain ⟨rfl, rfl⟩ := Prod.mk.inj heq
  have hrow := writeTransition_row hupdated
  have hstate : updated.state = state := by rw [hrow]
  have hkey : rowKey updated = rowKey row := by rw [hrow]; rfl
  refine ⟨hstate, fun hne => ?_⟩
  rw [hkey, ← hstate]
  exact .changed (hstate ▸ hne)

theorem terminal_recorded {state : OperationState}
    {leaseExpiresAt startedAt completedAt : Option Int} {result : Option TaskResult}
    {errorCode : Option SafeCode} {eventAt : Int} {changed : Bool}
    (hterm : state.isTerminal = true) (hne : state ≠ row.state)
    (h : (fun x : OperationRecord × List StateChange => ((x.1, true), x.2)) <$>
      recordTransition row state leaseExpiresAt startedAt completedAt result errorCode eventAt =
        .ok ((next, changed), events)) :
    changed = true ∧ next.state.isTerminal = true ∧ Records row next events := by
  obtain ⟨⟨row', events'⟩, hrec, heq⟩ := map_eq_ok.1 h
  obtain ⟨⟨rfl, rfl⟩, rfl⟩ := by simpa using heq
  obtain ⟨hstate, hrecords⟩ := recordTransition_ok hrec
  exact ⟨rfl, hstate ▸ hterm, hrecords hne⟩

theorem refreshRecorded_ok {changed : Bool}
    (h : refreshRecorded row now = .ok ((next, changed), events)) :
    (changed = false ∧ next = row ∧ events = []) ∨
      changed = true ∧ next.state.isTerminal = true ∧ Records row next events := by
  unfold refreshRecorded at h
  simp only at h
  split at h
  · next hs => exact .inr (terminal_recorded rfl (by simp [hs.1]) h)
  · split at h
    · next hs => exact .inr (terminal_recorded rfl (by simp [hs.1]) h)
    · split at h
      · next hs =>
        refine .inr (terminal_recorded ?_ ?_ h)
        · split <;> rfl
        · rw [hs.1]
          split <;> simp
      · obtain ⟨⟨rfl, rfl⟩, rfl⟩ := by simpa using h
        exact .inl ⟨rfl, rfl, rfl⟩

/-- A row that is running after its refresh is the row before it, without an event. -/
theorem refreshRecorded_running {changed : Bool}
    (h : refreshRecorded row now = .ok ((next, changed), events)) (hs : next.state = .running) :
    next = row ∧ events = [] := by
  rcases refreshRecorded_ok h with ⟨-, hrow, hevents⟩ | ⟨-, hterm, -⟩
  · exact ⟨hrow, hevents⟩
  · simp [hs, OperationState.isTerminal] at hterm

theorem records_of_refresh {changed : Bool}
    (h : refreshRecorded row now = .ok ((next, changed), events)) : Records row next events := by
  rcases refreshRecorded_ok h with ⟨-, rfl, rfl⟩ | ⟨-, -, hrecords⟩
  · exact .same rfl
  · exact hrecords

theorem startRecorded_records {status : TransitionStatus}
    (h : startRecorded row now = .ok ((status, next), events)) : Records row next events := by
  unfold startRecorded at h
  split at h
  · next hs =>
    obtain ⟨⟨row', events'⟩, hrec, heq⟩ := map_eq_ok.1 h
    obtain ⟨⟨-, rfl⟩, rfl⟩ := by simpa [answering] using heq
    exact (recordTransition_ok hrec).2 (by simp [hs.1])
  · split at h
    · obtain ⟨⟨-, rfl⟩, rfl⟩ := by simpa using h
      exact .same rfl
    · next hs =>
      obtain ⟨⟨row', events'⟩, hrec, heq⟩ := map_eq_ok.1 h
      obtain ⟨⟨-, rfl⟩, rfl⟩ := by simpa [answering] using heq
      exact (recordTransition_ok hrec).2 (by simp [not_not.1 hs])

/-- A running row that is completed does not stay in its state. -/
theorem completed_records {state : OperationState} {result : Option TaskResult}
    {errorCode : Option SafeCode} (hs : row.state = .running)
    (h : recordTransition row state none row.startedAt (some later) result errorCode later =
      .ok (next, events)) : Records row next events := by
  refine (recordTransition_ok h).2 fun hsame => ?_
  obtain ⟨updated, hupdated, -⟩ := map_eq_ok.1 h
  have hcompleted : updated.completedAt = some later := by rw [writeTransition_row hupdated]
  obtain ⟨rfl, hshape⟩ := writeTransition_same hupdated hsame
  simp [Schema.stateShapeCheck, hs, hcompleted] at hshape

theorem finishRecorded_records {state : OperationState} {result : Option TaskResult}
    {errorCode : Option SafeCode} {status : TransitionStatus}
    {validate : OperationRecord → Option TaskResult → Except String Unit}
    (h : finishRecorded row now later state result errorCode validate =
      .ok ((status, next), events)) : Records row next events := by
  obtain ⟨⟨⟨refreshed, changed⟩, first⟩, hfirst, h⟩ := bind_eq_ok.1 h
  dsimp only at h
  split at h
  · obtain ⟨⟨-, rfl⟩, rfl⟩ := by simpa using pure_eq_ok.1 h
    exact records_of_refresh hfirst
  · split at h
    · obtain ⟨⟨-, rfl⟩, rfl⟩ := by simpa using pure_eq_ok.1 h
      exact records_of_refresh hfirst
    · next hs =>
      have hrunning := not_not.1 hs
      obtain ⟨rfl, rfl⟩ := refreshRecorded_running hfirst hrunning
      obtain ⟨_, -, h⟩ := bind_eq_ok.1 h
      obtain ⟨_, -, h⟩ := bind_eq_ok.1 h
      obtain ⟨⟨⟨again, changed⟩, more⟩, hmore, h⟩ := bind_eq_ok.1 h
      dsimp only at h
      split at h
      · obtain ⟨⟨-, rfl⟩, rfl⟩ := by simpa using pure_eq_ok.1 h
        exact records_of_refresh hmore
      · next hchanged =>
        obtain ⟨⟨row', events'⟩, hrec, heq⟩ := map_eq_ok.1 h
        have hnone : more = [] := by
          rcases refreshRecorded_ok hmore with ⟨-, -, hmore⟩ | ⟨htrue, -⟩
          · exact hmore
          · exact absurd htrue hchanged
        obtain ⟨⟨-, rfl⟩, rfl⟩ := by simpa [answering, hnone] using heq
        exact completed_records hrunning hrec

theorem applyRecorded_records {result : TaskResult} {projects : List ProjectRecord}
    {drawings : List DrawingRecord} {upsert : Except String Unit} {status : TransitionStatus}
    {validate : OperationRecord → Option TaskResult → Except String Unit}
    (h : applyRecorded row now later result projects drawings upsert validate =
      .ok ((status, next), events)) : Records row next events := by
  obtain ⟨⟨⟨refreshed, changed⟩, first⟩, hfirst, h⟩ := bind_eq_ok.1 h
  dsimp only at h
  split at h
  · obtain ⟨⟨-, rfl⟩, rfl⟩ := by simpa using pure_eq_ok.1 h
    exact records_of_refresh hfirst
  · split at h
    · obtain ⟨⟨-, rfl⟩, rfl⟩ := by simpa using pure_eq_ok.1 h
      exact records_of_refresh hfirst
    · split at h
      · obtain ⟨⟨-, rfl⟩, rfl⟩ := by simpa using pure_eq_ok.1 h
        exact records_of_refresh hfirst
      · next hs =>
        have hrunning := not_not.1 hs
        obtain ⟨rfl, rfl⟩ := refreshRecorded_running hfirst hrunning
        iterate 4 obtain ⟨_, -, h⟩ := bind_eq_ok.1 h
        obtain ⟨⟨row', events'⟩, hrec, heq⟩ := map_eq_ok.1 h
        obtain ⟨⟨-, rfl⟩, rfl⟩ := by simpa [answering] using heq
        exact completed_records hrunning hrec

/-- A call records one event if it changes the state of its row, and none otherwise. -/
theorem record_records {work : Work} {tables : CatalogTables} {upsert : Except String Unit}
    {status : TransitionStatus}
    (h : record row now later tables upsert work = .ok ((status, next), events)) :
    Records row next events := by
  cases work with
  | start => exact startRecorded_records h
  | finish state result errorCode => exact finishRecorded_records h
  | applySuccess result projects drawings => exact applyRecorded_records h
  | refresh =>
    obtain ⟨⟨⟨row', changed⟩, events'⟩, href, heq⟩ := map_eq_ok.1 h
    obtain ⟨⟨-, rfl⟩, rfl⟩ := by simpa using heq
    exact records_of_refresh href

end Functions

/-! ### One statement -/

def stateOf (table : Dict Key OperationRecord) (k : Key) : Option OperationState :=
  (table.get k).map OperationRecord.state

/-- An event goes on from a state to another one, and from no state to `CREATED`. -/
structure Link (before : Option OperationState) (c : StateChange) : Prop where
  contiguous : c.fromState = before
  changed : some c.toState ≠ before
  first : before = none → c.toState = .created

/-- No event where the state stays the same, and one event where it does not. -/
inductive Tells (before after : Option OperationState) : List StateChange → Prop where
  | same : after = before → Tells before after []
  | changed {c : StateChange} : Link before c → after = some c.toState → Tells before after [c]

/-- The transaction has no version of the row that it is about to lease. -/
def Unwritten (tx : OpTx) : Prop :=
  match tx.pc with
  | .leaseSelected _ _ record => tx.writes.get (rowKey record) = none
  | _ => True

/-- A transaction raises, or goes on with the row versions it has, or makes one more. -/
inductive Effect (committed : Dict Key OperationRecord) (tx tx' : OpTx) :
    List StateChange → Prop where
  | raised : tx' = ⟨[], .empty, .closed⟩ → Effect committed tx tx' []
  | kept : tx'.pc ≠ .closed → Unwritten tx' → tx'.writes = tx.writes → Effect committed tx tx' []
  | wrote {row : OperationRecord} {changes : List StateChange} : tx'.pc ≠ .closed → Unwritten tx' →
      tx'.writes = tx.writes.set (rowKey row) row → tx.writes.get (rowKey row) = none →
      (∀ c ∈ changes, c.key = rowKey row) →
      Tells (stateOf committed (rowKey row)) (some row.state) changes →
      Effect committed tx tx' changes

def Effects (db : OpDb) (t : Nat) (tx : OpTx) (changes : List StateChange) (db' : OpDb) : Prop :=
  ∃ tx', db' = db.setTx t tx' ∧ Effect db.committed tx tx' changes

section Statements

variable {db db' : OpDb} {t : Nat} {tx : OpTx}

theorem raise_effects : Effects db t tx [] (raise db t) := ⟨_, rfl, .raised rfl⟩

theorem goto_effects {pc : Pc} (hpc : pc ≠ .closed) (hu : Unwritten { tx with pc := pc }) :
    Effects db t tx [] (goto db t tx pc) :=
  ⟨_, rfl, .kept hpc hu rfl⟩

theorem lockThen_effects {target : Key ⊕ Resource} {mode : LockMode} {pc : Pc} (hpc : pc ≠ .closed)
    (hstep : lockThen db t tx target mode pc = some db')
    (hu : Unwritten { tx with locks := (target, mode) :: tx.locks, pc := pc }) : Effects db t tx [] db' := by
  unfold lockThen at hstep
  split at hstep
  · exact ⟨_, (Option.some.inj hstep).symm, .kept hpc hu rfl⟩
  · cases hstep

theorem lockWorkstation_effects {tables : CatalogTables} {clock : Int}
    (hstep : lockWorkstation db t tx tables clock = some db') : Effects db t tx [] db' := by
  unfold lockWorkstation at hstep
  split at hstep
  · split at hstep
    · exact lockThen_effects (by simp) hstep trivial
    · exact Option.some.inj hstep ▸ raise_effects
  · split at hstep
    · exact lockThen_effects (by simp) hstep trivial
    · exact Option.some.inj hstep ▸ raise_effects
  · split at hstep
    · exact lockThen_effects (by simp) hstep trivial
    · exact Option.some.inj hstep ▸ raise_effects
  · cases hstep

theorem readDue_effects {now : Int} (hstep : readDue db t tx now = some db') :
    Effects db t tx [] db' := by
  unfold readDue at hstep
  split at hstep
  · exact Option.some.inj hstep ▸ goto_effects (by simp) trivial
  · cases hstep

theorem checkActive_effects {leaseNow : Int} (hstep : checkActive db t tx leaseNow = some db') :
    Effects db t tx [] db' := by
  unfold checkActive at hstep
  split at hstep
  · split at hstep
    · exact Option.some.inj hstep ▸ goto_effects (by simp) trivial
    · exact Option.some.inj hstep ▸ goto_effects (by simp) trivial
  · cases hstep

/-- Where every version is terminal, a row that is not is seen as it is committed. -/
theorem unwritten_of_visible (hi : Inactive tx) {k : Key} {row : OperationRecord}
    (hrow : (db.visible tx).get k = some row) (hs : row.state.isTerminal = false) :
    tx.writes.get k = none := by
  cases hown : tx.writes.get k with
  | none => rfl
  | some own =>
    have hsame : own = row := by simpa [Db.visible_get, hown] using hrow
    have hterm := hi k own hown
    rw [hsame, hs] at hterm
    cases hterm

theorem selectNext_effects (h : Ok db) (hget : db.txs.get t = some tx)
    (hstep : selectNext db t tx = some db') : Effects db t tx [] db' := by
  unfold selectNext at hstep
  split at hstep
  · next args leaseNow hpc =>
    have hi : Inactive tx := Quota.ready_at h hget hpc
    simp only at hstep
    split at hstep
    · exact Option.some.inj hstep ▸ goto_effects (by simp) trivial
    · next row hrow =>
      obtain ⟨⟨k, hk⟩, hp⟩ := mem_rowsWhere.1 (InMemory.earliest_mem hrow)
      simp only [Bool.and_eq_true, decide_eq_true_eq] at hp
      obtain ⟨⟨_, _, hcreated, _⟩, _⟩ := hp
      have hlive : row.state.isTerminal = false := by rw [hcreated]; rfl
      have hkey := h.keyed k row (committed_of_visible hi hk hlive)
      have hunwritten := unwritten_of_visible hi hk hlive
      subst hkey
      exact lockThen_effects (by simp) hstep hunwritten
  · cases hstep

theorem lockOperation_effects (hstep : Transactions.lockOperation db t tx = some db') :
    Effects db t tx [] db' := by
  unfold Transactions.lockOperation at hstep
  split at hstep
  · split at hstep
    · exact Option.some.inj hstep ▸ goto_effects (by simp) trivial
    · split at hstep
      · exact Option.some.inj hstep ▸ goto_effects (by simp) trivial
      · exact lockThen_effects (by simp) hstep trivial
  · split at hstep
    · exact Option.some.inj hstep ▸ goto_effects (by simp) trivial
    · exact lockThen_effects (by simp) hstep trivial
  · cases hstep

theorem lockQuota_effects (hstep : lockQuota db t tx = some db') : Effects db t tx [] db' := by
  unfold lockQuota at hstep
  split at hstep
  · exact lockThen_effects (by simp) hstep trivial
  · cases hstep

theorem findExisting_effects (hstep : findExisting db t tx = some db') :
    Effects db t tx [] db' := by
  unfold findExisting at hstep
  simp only at hstep
  split at hstep
  · split at hstep
    · exact Option.some.inj hstep ▸ goto_effects (by simp) trivial
    · exact lockThen_effects (by simp) hstep trivial
  · split at hstep
    · exact Option.some.inj hstep ▸ raise_effects
    · exact lockThen_effects (by simp) hstep trivial
  · cases hstep

theorem checkQuota_effects {databaseNow : Int} {tables : CatalogTables} {maxActive : Nat}
    (hstep : checkQuota db t tx databaseNow tables maxActive = some db') :
    Effects db t tx [] db' := by
  unfold checkQuota at hstep
  split at hstep
  · split at hstep
    · exact Option.some.inj hstep ▸ raise_effects
    · split at hstep
      · exact Option.some.inj hstep ▸ raise_effects
      · exact Option.some.inj hstep ▸ goto_effects (by simp) trivial
  · cases hstep

/-- The events of a call tell what it does to the state of the row that it has locked. -/
theorem tells_of_records {row next : OperationRecord} {events : List StateChange}
    (hold : db.committed.get (rowKey row) = some row) (hid : next.identity = row.identity)
    (h : Records row next events) :
    (∀ c ∈ events, c.key = rowKey next) ∧
      Tells (stateOf db.committed (rowKey next)) (some next.state) events := by
  have hkey := rowKey_of_identity hid
  have hstate : stateOf db.committed (rowKey next) = some row.state := by
    rw [hkey, stateOf, hold]
    rfl
  rw [hstate]
  cases h with
  | same hs => exact ⟨by simp, .same (congrArg some hs)⟩
  | changed hs =>
    refine ⟨by simp [hkey], .changed ⟨rfl, fun h => hs (Option.some.inj h), fun h => ?_⟩ rfl⟩
    cases h

theorem refreshRow_effects (h : Ok db) (hget : db.txs.get t = some tx) {key : Key}
    (hstep : refreshRow db t tx key = some db') :
    Effects db t tx (recorded db tx (.refreshRow key)) db' := by
  unfold refreshRow at hstep
  split at hstep
  · next args now due hpc =>
    have hi : Inactive tx := Quota.ready_at h hget hpc
    simp only [recorded, hpc]
    split at hstep
    · cases hstep
    · next _ state hfind =>
      split at hstep
      · next hfree =>
        have hkept : Effects db t tx []
            (goto db t { tx with locks := (.inl key, .update) :: tx.locks }
              (.leaseRefreshing args now (due.filter fun d => d.1 ≠ key))) :=
          ⟨_, rfl, .kept (by simp) trivial rfl⟩
        simp only [hfind] at hstep ⊢
        cases hrow : (db.visible tx).get key with
        | none =>
          simp only [hrow] at hstep
          exact Option.some.inj hstep ▸ hkept
        | some row =>
          simp only [hrow] at hstep ⊢
          split at hstep
          · next hdue =>
            rw [if_pos hdue]
            cases hnext : refreshStatement row now with
            | error code =>
              simp only [hnext] at hstep
              exact Option.some.inj hstep ▸ raise_effects
            | ok next =>
              simp only [hnext] at hstep
              obtain rfl := Option.some.inj hstep
              obtain ⟨hid, hterm⟩ := refreshStatement_terminal hnext
              have hlive := not_terminal_of_due hdue.1
              have hold := committed_of_visible hi hrow hlive
              have hkey : rowKey next = key :=
                (rowKey_of_identity hid).trans (h.keyed key row hold)
              subst hkey
              refine ⟨_, rfl, .wrote (by simp) trivial rfl ?_ (by simp) (.changed ⟨?_, ?_, ?_⟩ rfl)⟩
              · exact unwritten_of_visible hi hrow hlive
              · rw [stateOf, hold, ← hdue.2]
                rfl
              · rw [stateOf, hold]
                intro heq
                have hsame : next.state = row.state := Option.some.inj heq
                rw [hsame, hlive] at hterm
                cases hterm
              · rw [stateOf, hold]
                intro heq
                cases heq
          · next hdue =>
            rw [if_neg hdue]
            exact Option.some.inj hstep ▸ hkept
      · cases hstep
  · cases hstep

theorem writeLease_effects (h : Ok db) (hget : db.txs.get t = some tx) (hu : Unwritten tx)
    (hstep : writeLease db t tx = some db') :
    Effects db t tx (recorded db tx .writeLease) db' := by
  unfold writeLease at hstep
  split at hstep
  · next args leaseNow row hpc =>
    obtain ⟨hi, hheld, hcreated⟩ := Quota.ready_at h hget hpc
    simp only [recorded, hpc]
    rw [← recordTransition_fst row .leased _ none none none none leaseNow] at hstep
    split at hstep
    · next herror =>
      have hnone : ∀ x, recordTransition row .leased
          (some (min (leaseNow + args.leaseDuration) row.expiresAt)) none none none none leaseNow ≠
            .ok x := by
        intro x hx
        simp [hx, Functor.map, Except.map] at herror
      split
      · exact Option.some.inj hstep ▸ raise_effects
      · next _ _ hx => exact absurd hx (hnone _)
    · next leased hleased =>
      obtain rfl := Option.some.inj hstep
      obtain ⟨⟨leased', events⟩, hrec, rfl⟩ := map_eq_ok.1 hleased
      rw [hrec]
      obtain ⟨hstate, hrecords⟩ := recordTransition_ok hrec
      have hrow : writeTransition row .leased
          (some (min (leaseNow + args.leaseDuration) row.expiresAt)) none none none none =
            .ok leased' := by
        rw [← recordTransition_fst row .leased _ none none none none leaseNow, hrec]
        rfl
      have hid : leased'.identity = row.identity := by rw [writeTransition_row hrow]; rfl
      obtain ⟨hkeys, htells⟩ := tells_of_records hheld.1 hid (hrecords (by simp [hcreated]))
      have hunwritten : tx.writes.get (rowKey row) = none := by simpa only [Unwritten, hpc] using hu
      exact ⟨_, rfl, .wrote (by simp) trivial rfl (rowKey_of_identity hid ▸ hunwritten) hkeys htells⟩
  · cases hstep

theorem transition_effects (h : Ok db) (hget : db.txs.get t = some tx)
    {databaseNow completionNow : Int} {tables : CatalogTables}
    {upsertCatalog : Except String Unit}
    (hstep : transition db t tx databaseNow completionNow tables upsertCatalog = some db') :
    Effects db t tx
      (recorded db tx (.transition databaseNow completionNow tables upsertCatalog)) db' := by
  unfold transition at hstep
  split at hstep
  · next row work hpc =>
    obtain ⟨hu, hheld⟩ := Quota.ready_at h hget hpc
    simp only [recorded, hpc]
    rw [← record_fst] at hstep
    cases hrecord : record row databaseNow completionNow tables upsertCatalog work with
    | error code =>
      rw [hrecord] at hstep
      exact Option.some.inj hstep ▸ raise_effects
    | ok found =>
      obtain ⟨⟨status, next⟩, events⟩ := found
      rw [hrecord] at hstep
      obtain rfl := Option.some.inj hstep
      have hrun : work.run row databaseNow completionNow tables upsertCatalog =
          .ok (status, next) := by
        rw [← record_fst, hrecord]
        rfl
      have hid := (Work.outcome hrun).steady.identity
      obtain ⟨hkeys, htells⟩ := tells_of_records hheld.1 hid (record_records hrecord)
      exact ⟨_, rfl, .wrote (by simp) trivial rfl (hu _) hkeys htells⟩
  · cases hstep

theorem insert_effects (h : Ok db) (hget : db.txs.get t = some tx)
    (hstep : Transactions.insert db t tx = some db') :
    Effects db t tx (recorded db tx .insert) db' := by
  unfold Transactions.insert at hstep
  split at hstep
  · next operation databaseNow hpc =>
    obtain ⟨hu, hcreated, -⟩ := Quota.ready_at h hget hpc
    simp only [recorded, hpc]
    simp only at hstep
    split at hstep
    · cases hstep
    · split at hstep
      · next hrefused =>
        have hrefused : (db.visible tx).get (rowKey operation) ≠ none ∨
          Quota.existing db tx operation ≠ [] := hrefused
        rw [if_pos hrefused]
        exact Option.some.inj hstep ▸ goto_effects (by simp) trivial
      · next hnew =>
        have hnew : ¬((db.visible tx).get (rowKey operation) ≠ none ∨
          Quota.existing db tx operation ≠ []) := hnew
        rw [if_neg hnew]
        have habsent : db.committed.get (rowKey operation) = none :=
          (visible_untouched hu _).symm.trans (not_not.1 (not_or.1 hnew).1)
        split at hstep
        · obtain rfl := Option.some.inj hstep
          refine ⟨_, rfl, .wrote (by simp) trivial rfl (hu _) (by simp [createdAt, rowKey])
            (.changed ⟨?_, ?_, fun _ => rfl⟩ (congrArg some hcreated))⟩
          · exact (congrArg (Option.map OperationRecord.state) habsent).symm
          · have hnone : stateOf db.committed (rowKey (createdAt operation databaseNow)) = none :=
              congrArg (Option.map OperationRecord.state) habsent
            rw [hnone]
            simp
        · cases hstep
  · cases hstep

/-- Every statement but the first and the last of a transaction tells what it does. -/
theorem step_effects (h : Ok db) (hget : db.txs.get t = some tx) (hu : Unwritten tx)
    {action : Action} (hcommit : action ≠ .commit)
    (hstep : Transactions.step db (t, action) = some db') :
    Effects db t tx (recorded db tx action) db' := by
  cases action with
  | «begin» call => simp [Transactions.step, hget] at hstep
  | lockWorkstation tables clock =>
    exact lockWorkstation_effects (by simpa only [Transactions.step, hget] using hstep)
  | readDue now => exact readDue_effects (by simpa only [Transactions.step, hget] using hstep)
  | refreshRow key =>
    exact refreshRow_effects h hget (by simpa only [Transactions.step, hget] using hstep)
  | checkActive leaseNow =>
    exact checkActive_effects (by simpa only [Transactions.step, hget] using hstep)
  | selectNext =>
    exact selectNext_effects h hget (by simpa only [Transactions.step, hget] using hstep)
  | writeLease =>
    exact writeLease_effects h hget hu (by simpa only [Transactions.step, hget] using hstep)
  | lockOperation =>
    exact lockOperation_effects (by simpa only [Transactions.step, hget] using hstep)
  | transition databaseNow completionNow tables upsertCatalog =>
    exact transition_effects h hget (by simpa only [Transactions.step, hget] using hstep)
  | lockQuota => exact lockQuota_effects (by simpa only [Transactions.step, hget] using hstep)
  | findExisting => exact findExisting_effects (by simpa only [Transactions.step, hget] using hstep)
  | checkQuota databaseNow tables maxActive =>
    exact checkQuota_effects (by simpa only [Transactions.step, hget] using hstep)
  | insert => exact insert_effects h hget (by simpa only [Transactions.step, hget] using hstep)
  | commit => exact absurd rfl hcommit
  | abort =>
    simp only [Transactions.step, hget] at hstep
    exact Option.some.inj hstep ▸ raise_effects

end Statements

/-! ### Every run -/

def Chain : Option OperationState → List StateChange → Option OperationState → Prop
  | before, [], after => before = after
  | before, c :: cs, after => Link before c ∧ Chain (some c.toState) cs after

theorem Chain.append {a b c : Option OperationState} {changes more : List StateChange}
    (h : Chain a changes b) (hmore : Chain b more c) : Chain a (changes ++ more) c := by
  induction changes generalizing a with
  | nil =>
    have hab : a = b := h
    exact hab ▸ hmore
  | cons change changes ih => exact ⟨h.1, ih h.2⟩

theorem Tells.chain {before after : Option OperationState} {changes : List StateChange}
    (h : Tells before after changes) : Chain before changes after := by
  cases h with
  | same heq => exact heq.symm
  | changed hlink heq => exact ⟨hlink, heq.symm⟩

theorem Tells.of_same {before : Option OperationState} {changes : List StateChange}
    (h : Tells before before changes) : changes = [] := by
  cases h with
  | same => rfl
  | changed hlink heq => exact absurd heq.symm hlink.changed

theorem Tells.length_le {before after : Option OperationState} {changes : List StateChange}
    (h : Tells before after changes) : changes.length ≤ 1 := by
  cases h with
  | same => exact Nat.zero_le 1
  | changed => exact Nat.le_refl 1

/-- The events among some rows that are about one operation. -/
def about (k : Key) (events : List EventRow) : List StateChange :=
  (events.filter fun e => e.key = k).map EventRow.toStateChange

@[simp] theorem about_append (k : Key) (events more : List EventRow) :
    about k (events ++ more) = about k events ++ about k more := by
  simp [about]

theorem about_number (k : Key) (n : Nat) (changes : List StateChange) :
    about k (number n changes) = changes.filter fun c => c.key = k := by
  have hmap : (number n changes).map EventRow.toStateChange = changes := by
    simp only [number, List.map_map]
    exact List.zipIdx_map_fst 0 changes
  rw [about, ← hmap, List.filter_map, hmap]
  rfl

theorem number_ids {n : Nat} {changes : List StateChange} {e : EventRow}
    (h : e ∈ number n changes) : n ≤ e.eventId ∧ e.eventId < n + changes.length := by
  obtain ⟨⟨c, i⟩, hmem, rfl⟩ := List.mem_map.1 h
  have hi := List.snd_lt_of_mem_zipIdx hmem
  simp only at hi ⊢
  omega

/-- What the committed events and those of the open transactions say of the rows. -/
structure Inv (s : EventDb) : Prop where
  ok : Ok s.db
  unwritten : ∀ t tx, s.db.txs.get t = some tx → Unwritten tx
  idle : ∀ t, s.db.txs.get t = none → s.pendingOf t = []
  tells : ∀ t tx, s.db.txs.get t = some tx → ∀ k, Tells (stateOf s.db.committed k)
    (stateOf (s.db.visible tx) k) (about k (s.pendingOf t))
  chain : ∀ k, Chain none (about k s.events) (stateOf s.db.committed k)
  ordered : ∀ k, (s.history k).Pairwise fun a b => a.eventId < b.eventId
  later : ∀ t, ∀ e ∈ s.pendingOf t, ∀ c ∈ s.events, c.key = e.key → c.eventId < e.eventId
  fresh : (∀ e ∈ s.events, e.eventId < s.nextId) ∧
    ∀ t, ∀ e ∈ s.pendingOf t, e.eventId < s.nextId

theorem inv_start : Inv start where
  ok := Quota.ok_empty
  unwritten t tx h := by simp [start, emptyDb] at h
  idle t _ := by simp [EventDb.pendingOf, start]
  tells t tx h := by simp [start, emptyDb] at h
  chain k := by simp [start, emptyDb, about, stateOf, Chain]
  ordered k := .nil
  later t e he := by simp [EventDb.pendingOf, start] at he
  fresh := ⟨by simp [start], fun t e he => by simp [EventDb.pendingOf, start] at he⟩

section Step

variable {s s' : EventDb} {t : Nat} {tx tx' : OpTx}

theorem about_ne_nil {k : Key} {events : List EventRow} {e : EventRow} (he : e ∈ events)
    (hkey : e.key = k) : about k events ≠ [] := by
  intro hnone
  have hmem : e.toStateChange ∈ about k events :=
    List.mem_map_of_mem (List.mem_filter.2 ⟨he, decide_eq_true hkey⟩)
  rw [hnone] at hmem
  cases hmem

/-- A transaction has events only of the rows that it has versions of. -/
theorem written_of_pending (h : Inv s) (hget : s.db.txs.get t = some tx) {e : EventRow}
    (he : e ∈ s.pendingOf t) : ∃ row, tx.writes.get e.key = some row := by
  cases hw : tx.writes.get e.key with
  | some row => exact ⟨row, rfl⟩
  | none =>
    have htells := h.tells t tx hget e.key
    have hsame : stateOf (s.db.visible tx) e.key = stateOf s.db.committed e.key := by
      simp [stateOf, Db.visible_get, hw]
    rw [hsame] at htells
    exact absurd htells.of_same (about_ne_nil he rfl)

theorem pairwise_of_tells {k : Key} {events : List EventRow} {before after : Option OperationState}
    (h : Tells before after (about k events)) :
    (events.filter fun e => e.key = k).Pairwise fun a b => a.eventId < b.eventId := by
  have hlen := h.length_le
  rw [about, List.length_map] at hlen
  generalize (events.filter fun e => e.key = k) = mine at hlen
  match mine with
  | [] => exact .nil
  | [e] => exact List.pairwise_singleton _ _

/-- The events of an open transaction, after a statement of another one or of its own. -/
def Holding (s s' : EventDb) (t : Nat) (mine : List EventRow) : Prop :=
  ∀ a, s'.pendingOf a = if t = a then mine else s.pendingOf a

theorem commit_inv (h : Inv s) (hget : s.db.txs.get t = some tx)
    (hdb : s'.db = s.db.commit t tx .closed) (hid : s'.nextId = s.nextId)
    (hholding : Holding s s' t []) (hevents : s'.events = s.events ++ s.pendingOf t) : Inv s' where
  ok := hdb ▸ Quota.commit_ok h.ok hget
  unwritten a x hx := by
    rw [hdb] at hx
    rcases Quota.commit_txs hx with rfl | ⟨-, hx⟩
    · trivial
    · exact h.unwritten a x hx
  idle a ha := by
    rw [hdb] at ha
    have ha : (s.db.txs.set t ⟨[], .empty, .closed⟩).get a = none := ha
    rw [Dict.get_set] at ha
    rw [hholding a]
    split at ha
    · cases ha
    · next hne => exact (if_neg hne).trans (h.idle a ha)
  tells a x hx k := by
    rw [hdb] at hx ⊢
    rw [hholding a]
    have hx : (s.db.txs.set t ⟨[], .empty, .closed⟩).get a = some x := hx
    rw [Dict.get_set] at hx
    split at hx
    · next ha =>
      obtain rfl := Option.some.inj hx
      rw [if_pos ha]
      exact .same (by simp [stateOf, Db.visible_get])
    · next hne =>
      rw [if_neg hne]
      have htells := h.tells a x hx k
      cases hw : x.writes.get k with
      | none =>
        have hsame : ∀ db : OpDb, stateOf (db.visible x) k = stateOf db.committed k := by
          intro db
          simp [stateOf, Db.visible_get, hw]
        rw [hsame] at htells ⊢
        rw [htells.of_same]
        exact .same rfl
      | some row =>
        have hstable := h.ok.locks.committed_stable hget hx hne (h.ok.locks.owned a x k row hx hw)
          .closed
        have hvisible : stateOf ((s.db.commit t tx .closed).visible x) k =
            stateOf (s.db.visible x) k := by simp [stateOf, Db.visible_get, hw]
        rw [hvisible, stateOf, hstable]
        exact htells
  chain k := by
    rw [hevents, about_append, hdb]
    exact (h.chain k).append (h.tells t tx hget k).chain
  ordered k := by
    rw [EventDb.history, hevents, List.filter_append]
    refine List.pairwise_append.2 ⟨h.ordered k, pairwise_of_tells (h.tells t tx hget k), ?_⟩
    intro c hc e he
    obtain ⟨hc, hckey⟩ := List.mem_filter.1 hc
    obtain ⟨he, hekey⟩ := List.mem_filter.1 he
    exact h.later t e he c hc ((of_decide_eq_true hckey).trans (of_decide_eq_true hekey).symm)
  later a e he c hc hkey := by
    rw [hholding a] at he
    split at he
    · cases he
    · next hne =>
      rw [hevents] at hc
      rcases List.mem_append.1 hc with hc | hc
      · exact h.later a e he c hc hkey
      · -- Two transactions cannot both have changed the row.
        cases hx : s.db.txs.get a with
        | none =>
          rw [h.idle a hx] at he
          cases he
        | some x =>
          obtain ⟨row, hrow⟩ := written_of_pending h hx he
          obtain ⟨row', hrow'⟩ := written_of_pending h hget hc
          have hdisjoint := h.ok.locks.writes_disjoint hget hx hne
            (h.ok.locks.owned a x e.key row hx hrow)
          rw [← hkey, hrow'] at hdisjoint
          cases hdisjoint
  fresh := by
    rw [hid, hevents]
    refine ⟨fun e he => ?_, fun a e he => ?_⟩
    · exact (List.mem_append.1 he).elim (h.fresh.1 e) (h.fresh.2 t e)
    · rw [hholding a] at he
      split at he
      · cases he
      · exact h.fresh.2 a e he

/-- A transaction begins, or goes on without a commit. -/
theorem move_inv (h : Inv s) {changes : List StateChange} {mine : List EventRow}
    (hok : Ok s'.db) (hdb : s'.db = s.db.setTx t tx') (hid : s'.nextId = s.nextId + changes.length)
    (hholding : Holding s s' t mine) (hevents : s'.events = s.events) (hu : Unwritten tx')
    (hmine : ∀ e ∈ mine, e ∈ s.pendingOf t ∨ e ∈ number s.nextId changes)
    (htells : ∀ k, Tells (stateOf s.db.committed k) (stateOf (s.db.visible tx') k) (about k mine)) :
    Inv s' where
  ok := hok
  unwritten a x hx := by
    rw [hdb, Db.setTx_get] at hx
    split at hx
    · exact Option.some.inj hx ▸ hu
    · exact h.unwritten a x hx
  idle a ha := by
    rw [hdb, Db.setTx_get] at ha
    rw [hholding a]
    split at ha
    · cases ha
    · next hne => exact (if_neg hne).trans (h.idle a ha)
  tells a x hx k := by
    rw [hdb, Db.setTx_get] at hx
    rw [hdb, hholding a]
    split at hx
    · next ha =>
      obtain rfl := Option.some.inj hx
      rw [if_pos ha]
      exact htells k
    · next hne =>
      rw [if_neg hne]
      exact h.tells a x hx k
  chain k := by
    rw [hevents, hdb]
    exact h.chain k
  ordered k := by
    rw [EventDb.history, hevents]
    exact h.ordered k
  later a e he c hc hkey := by
    rw [hevents] at hc
    rw [hholding a] at he
    split at he
    · rcases hmine e he with he | he
      · exact h.later t e he c hc hkey
      · exact Nat.lt_of_lt_of_le (h.fresh.1 c hc) (number_ids he).1
    · exact h.later a e he c hc hkey
  fresh := by
    rw [hid, hevents]
    refine ⟨fun e he => Nat.lt_of_lt_of_le (h.fresh.1 e he) (Nat.le_add_right _ _),
      fun a e he => ?_⟩
    rw [hholding a] at he
    split at he
    · rcases hmine e he with he | he
      · exact Nat.lt_of_lt_of_le (h.fresh.2 t e he) (Nat.le_add_right _ _)
      · exact (number_ids he).2
    · exact Nat.lt_of_lt_of_le (h.fresh.2 a e he) (Nat.le_add_right _ _)

/-- The events of a transaction after one statement, unless it raises. -/
theorem effect_tells (h : Inv s) (hget : s.db.txs.get t = some tx) {changes : List StateChange}
    (heffect : Effect s.db.committed tx tx' changes) (hopen : tx'.pc ≠ .closed) (k : Key) :
    Tells (stateOf s.db.committed k) (stateOf (s.db.visible tx') k)
      (about k (s.pendingOf t ++ number s.nextId changes)) := by
  have hbefore := h.tells t tx hget k
  rw [about_append, about_number]
  cases heffect with
  | raised hraised => exact absurd (congrArg Tx.pc hraised) hopen
  | kept _ _ hwrites =>
    have hsame : stateOf (s.db.visible tx') k = stateOf (s.db.visible tx) k := by
      simp [stateOf, Db.visible_get, hwrites]
    rw [hsame, List.filter_nil, List.append_nil]
    exact hbefore
  | @wrote row _ _ _ hwrites hnone hkeys htells =>
    by_cases hk : rowKey row = k
    · subst hk
      have hsame : stateOf (s.db.visible tx) (rowKey row) = stateOf s.db.committed (rowKey row) := by
        simp [stateOf, Db.visible_get, hnone]
      have hnew : stateOf (s.db.visible tx') (rowKey row) = some row.state := by
        simp [stateOf, Db.visible_get, hwrites]
      rw [hsame] at hbefore
      rw [hbefore.of_same, hnew, List.nil_append,
        List.filter_eq_self.2 fun c hc => decide_eq_true (hkeys c hc)]
      exact htells
    · have hsame : stateOf (s.db.visible tx') k = stateOf (s.db.visible tx) k := by
        simp [stateOf, Db.visible_get, hwrites, Dict.get_set_other _ _ (Ne.symm hk)]
      rw [hsame, List.filter_eq_nil_iff.2 fun c hc => by simp [hkeys c hc, hk], List.append_nil]
      exact hbefore

theorem holding_set (s : EventDb) (t : Nat) (mine : List EventRow) (db : OpDb) (nextId : Nat)
    (events : List EventRow) : Holding s ⟨db, nextId, s.pending.set t mine, events⟩ t mine := by
  intro a
  simp only [EventDb.pendingOf, Dict.get_set]
  split <;> rfl

theorem isClosed_set (db : OpDb) (t : Nat) (tx : OpTx) :
    isClosed (db.setTx t tx) t = true ↔ tx.pc = .closed := by
  simp only [isClosed, Db.setTx_get, if_true, Option.any_some]
  cases tx.pc <;> simp

/-- What one statement does: it commits, or leaves the committed rows and events as they are. -/
theorem step_cases (h : Inv s) {action : Action} (hstep : step s (t, action) = some s') :
    Inv s' ∧ ((∃ tx, s.db.txs.get t = some tx ∧ s'.db = s.db.commit t tx .closed ∧
        s'.events = s.events ++ s.pendingOf t) ∨
      s'.db.committed = s.db.committed ∧ s'.events = s.events) := by
  obtain ⟨db, hdb, rfl⟩ := Option.map_eq_some_iff.1 hstep
  have hok := Quota.step_ok h.ok hdb
  cases hget : s.db.txs.get t with
  | none =>
    rcases Quota.step_cases h.ok hdb with ⟨call, -, rfl, -, rfl⟩ | ⟨tx, hsome, -⟩
    · have hopen : isClosed (s.db.setTx t ⟨[], .empty, .begun call⟩) t = false :=
        Bool.eq_false_iff.2 fun hclosed => by simpa using (isClosed_set _ _ _).1 hclosed
      have hmine : s.pendingOf t ++ number s.nextId [] = [] := by rw [h.idle t hget]; rfl
      simp only [hopen, hmine, List.append_nil, Bool.false_eq_true, if_false]
      refine ⟨?_, .inr (by simp)⟩
      refine @move_inv s _ t _ h [] [] hok rfl rfl (holding_set s t [] _ _ _) rfl trivial
        (by simp) fun k => .same (by simp [stateOf, Db.visible_get])
    · rw [hget] at hsome
      cases hsome
  | some tx =>
    by_cases hcommit : action = .commit
    · subst hcommit
      have hcommit : Transactions.commit s.db t tx = some db := by
        simpa only [Transactions.step, hget] using hdb
      obtain rfl := Quota.commit_eq hcommit
      have hclosed : isClosed (s.db.commit t tx .closed) t = true :=
        (isClosed_set s.db t ⟨[], .empty, .closed⟩).2 rfl
      have hmine : s.pendingOf t ++ number s.nextId [] = s.pendingOf t := List.append_nil _
      simp only [recorded, hclosed, hmine, if_true]
      exact ⟨commit_inv h hget rfl rfl (holding_set s t [] _ _ _) rfl, .inl ⟨tx, by simp⟩⟩
    · obtain ⟨tx', rfl, heffect⟩ := step_effects h.ok hget (h.unwritten t tx hget) hcommit hdb
      simp only [List.append_nil]
      generalize recorded s.db tx action = changes at heffect
      refine ⟨?_, .inr (by simp)⟩
      by_cases hopen : tx'.pc = .closed
      · rw [(isClosed_set s.db t tx').2 hopen, if_pos rfl]
        have hraised : tx' = ⟨[], .empty, .closed⟩ := by
          cases heffect with
          | raised hraised => exact hraised
          | kept hne => exact absurd hopen hne
          | wrote hne => exact absurd hopen hne
        subst hraised
        exact move_inv h hok rfl rfl (holding_set s t [] _ _ _) rfl trivial (by simp) fun k =>
          .same (by simp [stateOf, Db.visible_get])
      · rw [if_neg fun hclosed => hopen ((isClosed_set s.db t tx').1 hclosed)]
        have hunwritten : Unwritten tx' := by
          cases heffect with
          | raised hraised => exact absurd (congrArg Tx.pc hraised) hopen
          | kept _ hu => exact hu
          | wrote _ hu => exact hu
        exact move_inv h hok rfl rfl (holding_set s t _ _ _ _) rfl hunwritten
          (fun e he => List.mem_append.1 he) (effect_tells h hget heffect hopen)

theorem inv_of_reaches (h : Runs.Reaches step Runs.anyEvent start s) : Inv s :=
  Runs.invariant_of_reaches inv_start (fun _ _ _ hinv _ hs => (step_cases hinv hs).1) h

/-- In every run the events of an operation are numbered in the order of its states: a chain from
no state to `CREATED` and on to the state that is committed. Each statement adds to the events
of an operation what it changes of its committed state, by one event, and nothing else. -/
theorem events_follow_states (h : Runs.Reaches step Runs.anyEvent start s) :
    (∀ k, Chain none ((s.history k).map EventRow.toStateChange) (stateOf s.db.committed k) ∧
      (s.history k).Pairwise fun a b => a.eventId < b.eventId) ∧
      ∀ e s', step s e = some s' → ∀ k, ∃ added, s'.history k = s.history k ++ added ∧
        Tells (stateOf s.db.committed k) (stateOf s'.db.committed k)
          (added.map EventRow.toStateChange) := by
  have hinv := inv_of_reaches h
  refine ⟨fun k => ⟨hinv.chain k, hinv.ordered k⟩, fun e s' hstep k => ?_⟩
  rcases (step_cases hinv hstep).2 with ⟨tx, hget, hdb, hevents⟩ | ⟨hcommitted, hevents⟩
  · refine ⟨(s.pendingOf e.1).filter fun row => row.key = k, ?_, ?_⟩
    · rw [EventDb.history, hevents, List.filter_append]
      rfl
    · rw [hdb]
      exact hinv.tells e.1 tx hget k
  · refine ⟨[], ?_, ?_⟩
    · rw [EventDb.history, hevents, List.append_nil]
      rfl
    · rw [hcommitted]
      exact .same rfl

end Step

section Example

def abandonedKey : Key :=
  ("tnt_00000000-0000-4000-8000-000000000001", "op_00000000-0000-4000-8000-000000000001")

/-- An operation is created and leased, and the refresh of a later call ends the lease. -/
def abandonedLease : List (Nat × Action) :=
  (Quota.createStatements (listingOperation "op_00000000-0000-4000-8000-000000000001"
      "idem_00000000-0000-4000-8000-000000000001" 0) 0).map (0, ·) ++
    pollStatements.map (1, ·) ++
    [(2, .begin (.leaseNext pollArgs)), (2, .lockWorkstation onlineTables 70000000),
      (2, .readDue 70000000), (2, .refreshRow abandonedKey), (2, .checkActive 70000000),
      (2, .selectNext), (2, .commit)]

theorem events_follow_states_abandoned : ∃ s : EventDb,
    ((s.history abandonedKey).map fun e => (e.fromState, e.toState)) =
        [(none, .created), (some .created, .leased), (some .leased, .attentionRequired)] ∧
      (∀ k, Chain none ((s.history k).map EventRow.toStateChange) (stateOf s.db.committed k) ∧
        (s.history k).Pairwise fun a b => a.eventId < b.eventId) ∧
      ∀ e s', step s e = some s' → ∀ k, ∃ added, s'.history k = s.history k ++ added ∧
        Tells (stateOf s.db.committed k) (stateOf s'.db.committed k)
          (added.map EventRow.toStateChange) := by
  obtain ⟨s, hreach, hevents⟩ := Runs.exists_reaches_of_run step Runs.anyEvent start abandonedLease
    (fun s => ((s.history abandonedKey).map fun e => (e.fromState, e.toState)) =
      [(none, .created), (some .created, .leased), (some .leased, .attentionRequired)])
    (Runs.along_anyEvent _ _) (by decide +kernel)
  exact ⟨s, of_decide_eq_true hevents, events_follow_states hreach⟩

end Example

end CadPlot.Gateway.Events
