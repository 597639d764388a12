import CadPlot.Gateway.Transactions
import CadPlot.Lib.Outcome

/-!
# One active operation per workstation

What each transaction may publish, as an invariant of its own that only a commit
of another can touch, and the rule itself. The workstation lock is shared, so
nothing keeps two leases apart once both have passed their activity check: the
rule holds in every run in which no check falls between another lease's check
and its end, and fails in a run of two overlapping leases.
-/

namespace CadPlot.Gateway.Transactions

open ReadCommitted Postgres

/-- What a call makes of the row it has locked. -/
inductive Outcome (record : OperationRecord) : OperationRecord → Prop where
  | unchanged : Outcome record record
  | ended {row : OperationRecord} : row.identity = record.identity →
      row.state.isTerminal = true → Outcome record row
  | started {row : OperationRecord} : row.identity = record.identity →
      record.state = .leased → row.state = .running → Outcome record row
  | finished {row : OperationRecord} : row.identity = record.identity →
      record.state = .running → row.leaseExpiresAt = none → Outcome record row

theorem refreshLocked_outcome {record row : OperationRecord} {now : Int} {changed : Bool}
    (h : refreshLocked record now = .ok (row, changed)) : Outcome record row := by
  rcases refreshLocked_cases h with rfl | ⟨hid, hterm⟩
  · exact .unchanged
  · exact .ended hid hterm

theorem startLocked_outcome {record : OperationRecord} {now : Int}
    {x : TransitionStatus × OperationRecord} (h : startLocked record now = .ok x) :
    Outcome record x.2 := by
  unfold startLocked at h
  split at h
  · obtain ⟨row, hrow, rfl⟩ := map_eq_ok.1 h
    obtain rfl := writeTransition_row hrow
    exact .ended rfl rfl
  · split at h
    · obtain rfl := Except.ok.inj h
      exact .unchanged
    · next hs =>
      obtain ⟨row, hrow, rfl⟩ := map_eq_ok.1 h
      obtain rfl := writeTransition_row hrow
      exact .started rfl (not_not.1 hs) rfl

theorem finishLocked_outcome {record : OperationRecord} {now later : Int} {state : OperationState}
    {result : Option TaskResult} {errorCode : Option SafeCode}
    {validate : OperationRecord → Option TaskResult → Except String Unit}
    {x : TransitionStatus × OperationRecord}
    (h : finishLocked record now later state result errorCode validate = .ok x) :
    Outcome record x.2 := by
  obtain ⟨⟨row, changed⟩, href, h1⟩ := bind_eq_ok.1 h
  simp only at h1
  split at h1
  · obtain rfl := Except.ok.inj h1
    exact refreshLocked_outcome href
  · split at h1
    · obtain rfl := Except.ok.inj h1
      exact refreshLocked_outcome href
    · next hrun =>
      obtain rfl := refreshLocked_running href (not_not.1 hrun)
      obtain ⟨_, _, h2⟩ := bind_eq_ok.1 h1
      obtain ⟨_, _, h3⟩ := bind_eq_ok.1 h2
      obtain ⟨⟨again, changed'⟩, href', h4⟩ := bind_eq_ok.1 h3
      simp only at h4
      split at h4
      · obtain rfl := Except.ok.inj h4
        exact refreshLocked_outcome href'
      · obtain ⟨done, hdone, rfl⟩ := map_eq_ok.1 h4
        obtain rfl := writeTransition_row hdone
        exact .finished rfl (not_not.1 hrun) rfl

theorem applyLocked_outcome {record : OperationRecord} {now later : Int} {result : TaskResult}
    {projects : List ProjectRecord} {drawings : List DrawingRecord}
    {upsert : Except String Unit}
    {validate : OperationRecord → Option TaskResult → Except String Unit}
    {x : TransitionStatus × OperationRecord}
    (h : applyLocked record now later result projects drawings upsert validate = .ok x) :
    Outcome record x.2 := by
  obtain ⟨⟨row, changed⟩, href, h1⟩ := bind_eq_ok.1 h
  simp only at h1
  split at h1
  · obtain rfl := Except.ok.inj h1
    exact refreshLocked_outcome href
  · split at h1
    · obtain rfl := Except.ok.inj h1
      exact refreshLocked_outcome href
    · split at h1
      · obtain rfl := Except.ok.inj h1
        exact refreshLocked_outcome href
      · next hrun =>
        obtain rfl := refreshLocked_running href (not_not.1 hrun)
        obtain ⟨_, _, h2⟩ := bind_eq_ok.1 h1
        obtain ⟨_, _, h3⟩ := bind_eq_ok.1 h2
        obtain ⟨_, _, h4⟩ := bind_eq_ok.1 h3
        obtain ⟨_, _, h5⟩ := bind_eq_ok.1 h4
        obtain ⟨done, hdone, rfl⟩ := map_eq_ok.1 h5
        obtain rfl := writeTransition_row hdone
        exact .finished rfl (not_not.1 hrun) rfl

theorem Work.outcome {work : Work} {record : OperationRecord} {now later : Int}
    {tables : CatalogTables} {upsert : Except String Unit}
    {x : TransitionStatus × OperationRecord}
    (h : work.run record now later tables upsert = .ok x) : Outcome record x.2 := by
  cases work with
  | start => exact startLocked_outcome h
  | finish state result errorCode => exact finishLocked_outcome h
  | applySuccess result projects drawings => exact applyLocked_outcome h
  | refresh =>
    obtain ⟨⟨row, changed⟩, href, rfl⟩ := map_eq_ok.1 h
    exact refreshLocked_outcome href

/-- Whatever a call makes of its row, it does not activate it. -/
theorem Outcome.steady {record row : OperationRecord} (h : Outcome record row) :
    Steady record row := by
  cases h with
  | unchanged => exact .refl record
  | ended hid hterm => exact ⟨hid, by simp [isActive_of_terminal hterm]⟩
  | started hid hs _ => exact ⟨hid, fun _ => by rw [hs]; rfl⟩
  | finished hid hs _ => exact ⟨hid, fun _ => by rw [hs]; rfl⟩

theorem refreshStatement_terminal {row next : OperationRecord} {now : Int}
    (h : refreshStatement row now = .ok next) :
    next.identity = row.identity ∧ next.state.isTerminal = true := by
  unfold refreshStatement at h
  obtain ⟨new, hnew, h⟩ := bind_eq_ok.1 h
  obtain ⟨_, _, h⟩ := bind_eq_ok.1 h
  obtain rfl := Except.ok.inj h
  have heq := Schema.enforce_eq hnew
  refine ⟨heq ▸ rfl, ?_⟩
  rw [heq]
  simp only
  split <;> rfl

theorem rowKey_of_identity {row old : OperationRecord} (h : row.identity = old.identity) :
    rowKey row = rowKey old := by
  have htenant := congrArg OperationIdentity.tenantId h
  have hid := congrArg OperationIdentity.operationId h
  exact Prod.ext htenant hid

theorem ofWorkstation_iff {tenantId : TenantId} {workstationId : WorkstationId}
    {record : OperationRecord} :
    ofWorkstation tenantId workstationId record = true ↔
      record.tenantId = tenantId ∧ record.workstationId = workstationId := by
  simp [ofWorkstation]

theorem ofWorkstation_of_identity {row old : OperationRecord} (h : row.identity = old.identity)
    (tenantId : TenantId) (workstationId : WorkstationId) :
    ofWorkstation tenantId workstationId row = ofWorkstation tenantId workstationId old := by
  have htenant := congrArg OperationIdentity.tenantId h
  have hws := congrArg OperationIdentity.workstationId h
  simp only [OperationRecord.identity] at htenant hws
  simp only [ofWorkstation, htenant, hws]

/-- The workstation that a lease past its activity check is for. -/
def Pc.window : Pc → Option (TenantId × WorkstationId)
  | .leaseChecked args _ | .leaseSelected args _ _ | .leaseWritten args _ =>
    some (args.tenantId, args.workstationId)
  | _ => none

/-- A version that a transaction may publish: a new inactive row, or one of a committed row that
is active only if that row is, unless it is the row just leased. -/
def Publishable (committed : Dict Key OperationRecord) (pc : Pc) (k : Key)
    (row : OperationRecord) : Prop :=
  rowKey row = k ∧
    ((committed.get k = none ∧ row.state.isActive = false) ∨
      ∃ old, committed.get k = some old ∧ row.identity = old.identity ∧
        (row.state.isActive = true →
          old.state.isActive = true ∨ ∃ args, pc = .leaseWritten args row))

def Untouched (tx : OpTx) : Prop := ∀ k, tx.writes.get k = none

def Inactive (tx : OpTx) : Prop :=
  ∀ k row, tx.writes.get k = some row → row.state.isTerminal = true

/-- The transaction has ended every active row of the workstation. -/
def Swept (committed : Dict Key OperationRecord) (tx : OpTx) (args : LeaseArgs) : Prop :=
  ∀ k row, committed.get k = some row →
    ofWorkstation args.tenantId args.workstationId row = true → row.state.isActive = true →
      ∃ own, tx.writes.get k = some own ∧ own.state.isActive = false

def Holds (committed : Dict Key OperationRecord) (tx : OpTx) (record : OperationRecord) : Prop :=
  committed.get (rowKey record) = some record ∧
    (Sum.inl (rowKey record), LockMode.update) ∈ tx.locks

/-- What a transaction knows where it stands. -/
def Standing (committed : Dict Key OperationRecord) (tx : OpTx) : Prop :=
  match tx.pc with
  | .closed | .done => True
  | .begun call => Untouched tx ∧ call.accepted = true
  | .leaseLocked _ | .workerLocked _ _ => Untouched tx
  | .leaseRefreshing _ _ _ => Inactive tx
  | .leaseChecked args _ => Inactive tx ∧ Swept committed tx args
  | .leaseSelected args _ record =>
    Inactive tx ∧ Swept committed tx args ∧ Holds committed tx record ∧
      record.state = .created ∧ ofWorkstation args.tenantId args.workstationId record = true
  | .leaseWritten args record =>
    Swept committed tx args ∧ ofWorkstation args.tenantId args.workstationId record = true
  | .rowLocked record _ => Untouched tx ∧ Holds committed tx record
  | .createStarted operation | .createAbsent operation | .createLocked operation
  | .createCounted operation _ | .createRefused operation =>
    Untouched tx ∧ operation.state = .created

structure TxInv (committed : Dict Key OperationRecord) (tx : OpTx) : Prop where
  publishable : ∀ k row, tx.writes.get k = some row → Publishable committed tx.pc k row
  standing : Standing committed tx

structure Inv (db : OpDb) : Prop where
  locks : WellLocked db
  keyed : ∀ k row, db.committed.get k = some row → rowKey row = k
  each : ∀ t tx, db.txs.get t = some tx → TxInv db.committed tx
  windows : ∀ t t' tx tx' workstation, db.txs.get t = some tx → db.txs.get t' = some tx' →
    tx.pc.window = some workstation → tx'.pc.window = some workstation → t = t'
  unique : AtMostOneActive db

/-- An activity check falls between no other lease's check and end for the same workstation. -/
def soleCheck (db : OpDb) (e : Nat × Action) : Bool :=
  match e.2, db.txs.get e.1 with
  | .checkActive _, some tx =>
    match tx.pc with
    | .leaseRefreshing args _ _ =>
      db.txs.entries.all fun other => decide (other.1 = e.1) ||
        decide (other.2.pc.window ≠ some (args.tenantId, args.workstationId))
    | _ => true
  | _, _ => true

section Frame

variable {db db' : OpDb} {t : Nat} {tx tx' : OpTx}

/-- A statement changes its own transaction only. -/
theorem inv_setTx (h : Inv db) (hlocks : WellLocked (db.setTx t tx'))
    (htx : TxInv db.committed tx')
    (hwin : ∀ workstation, tx'.pc.window = some workstation →
      ∀ t' x, db.txs.get t' = some x → t' ≠ t → x.pc.window ≠ some workstation) :
    Inv (db.setTx t tx') where
  locks := hlocks
  keyed := h.keyed
  each a x hx := by
    rw [Db.setTx_get] at hx
    split at hx
    · obtain rfl := Option.some.inj hx
      exact htx
    · exact h.each a x hx
  windows a b x y ws hx hy hxw hyw := by
    rw [Db.setTx_get] at hx hy
    by_cases ha : t = a
    · by_cases hb : t = b
      · exact ha.symm.trans hb
      · rw [if_pos ha] at hx
        rw [if_neg hb] at hy
        obtain rfl := Option.some.inj hx
        exact absurd hyw (hwin ws hxw b y hy (Ne.symm hb))
    · rw [if_neg ha] at hx
      by_cases hb : t = b
      · rw [if_pos hb] at hy
        obtain rfl := Option.some.inj hy
        exact absurd hxw (hwin ws hyw a x hx (Ne.symm ha))
      · rw [if_neg hb] at hy
        exact h.windows a b x y ws hx hy hxw hyw
  unique := h.unique

/-- A transaction that enters no window meets no other in one. -/
theorem window_kept (h : Inv db) (hget : db.txs.get t = some tx)
    (hpc : tx'.pc.window = none ∨ tx'.pc.window = tx.pc.window) :
    ∀ workstation, tx'.pc.window = some workstation →
      ∀ t' x, db.txs.get t' = some x → t' ≠ t → x.pc.window ≠ some workstation := by
  intro ws hws t' x hx hne hxw
  rcases hpc with hnone | hsame
  · simp [hnone] at hws
  · exact hne (h.windows t' t x tx ws hx hget hxw (hsame ▸ hws))

theorem publishable_move {committed : Dict Key OperationRecord} {pc : Pc} {k : Key}
    {row : OperationRecord} (h : Publishable committed pc k row)
    (hpc : ∀ args record, pc ≠ .leaseWritten args record) (pc' : Pc) :
    Publishable committed pc' k row := by
  obtain ⟨hkey, hnew | ⟨old, hold, hid, hactive⟩⟩ := h
  · exact ⟨hkey, .inl hnew⟩
  · refine ⟨hkey, .inr ⟨old, hold, hid, fun ha => ?_⟩⟩
    rcases hactive ha with hold' | ⟨args, hargs⟩
    · exact .inl hold'
    · exact absurd hargs (hpc args row)

theorem raise_inv (h : Inv db) : Inv (raise db t) :=
  inv_setTx h (h.locks.rollback .closed)
    { publishable := by simp
      standing := trivial }
    (by simp [Pc.window])

theorem goto_inv (h : Inv db) (hget : db.txs.get t = some tx) {pc : Pc}
    (hpc : ∀ args record, tx.pc ≠ .leaseWritten args record)
    (hwin : pc.window = none ∨ pc.window = tx.pc.window)
    (hstand : Standing db.committed { tx with pc := pc }) : Inv (goto db t tx pc) :=
  inv_setTx h (h.locks.move hget pc)
    { publishable := fun k row hrow =>
        publishable_move ((h.each t tx hget).publishable k row hrow) hpc pc
      standing := hstand }
    (window_kept h hget hwin)

theorem lockThen_inv (h : Inv db) (hget : db.txs.get t = some tx) {pc : Pc}
    {target : Key ⊕ Resource} {mode : LockMode}
    (hpc : ∀ args record, tx.pc ≠ .leaseWritten args record)
    (hwin : pc.window = none ∨ pc.window = tx.pc.window)
    (hstand : Standing db.committed { tx with locks := (target, mode) :: tx.locks, pc := pc })
    (hstep : lockThen db t tx target mode pc = some db') : Inv db' := by
  unfold lockThen at hstep
  split at hstep
  · next hfree =>
    obtain rfl := Option.some.inj hstep
    exact inv_setTx h (h.locks.acquire hget hfree pc)
      { publishable := fun k row hrow =>
          publishable_move ((h.each t tx hget).publishable k row hrow) hpc pc
        standing := hstand }
      (window_kept h hget hwin)
  · cases hstep

theorem writeRow_inv (h : Inv db) (hget : db.txs.get t = some tx) {held : OpTx}
    {record : OperationRecord} {pc : Pc} (hwrites : held.writes = tx.writes)
    (hlocks : WellLocked (writeRow db t held record pc))
    (hpc : ∀ args record, tx.pc ≠ .leaseWritten args record)
    (hwin : pc.window = none ∨ pc.window = tx.pc.window)
    (hpub : Publishable db.committed pc (rowKey record) record)
    (hstand : Standing db.committed
      { held with writes := held.writes.set (rowKey record) record, pc := pc }) :
    Inv (writeRow db t held record pc) := by
  refine inv_setTx h hlocks ⟨fun k row hrow => ?_, hstand⟩ (window_kept h hget hwin)
  simp only [hwrites, Dict.get_set] at hrow
  split at hrow
  · next hk =>
    obtain rfl := Option.some.inj hrow
    exact hk ▸ hpub
  · exact publishable_move ((h.each t tx hget).publishable k row hrow) hpc pc

theorem publishable_of_steady {committed : Dict Key OperationRecord} {old row : OperationRecord}
    (hold : committed.get (rowKey old) = some old) (hs : Steady old row) (pc : Pc) :
    Publishable committed pc (rowKey row) row :=
  ⟨rfl, .inr ⟨old, rowKey_of_identity hs.identity ▸ hold, hs.identity, fun ha =>
    .inl (hs.active ha)⟩⟩

theorem visible_untouched (hu : Untouched tx) (k : Key) :
    (db.visible tx).get k = db.committed.get k := by
  simp [Db.visible_get, hu k]

theorem mem_rowsWhere {table : Dict Key OperationRecord} {p : OperationRecord → Bool}
    {row : OperationRecord} :
    row ∈ rowsWhere table p ↔ (∃ k, table.get k = some row) ∧ p row = true := by
  simp only [rowsWhere, List.mem_filter, List.mem_map, Prod.exists, exists_eq_right,
    Dict.mem_entries_iff]

/-- A transaction with inactive versions only sees an active row where it is committed. -/
theorem committed_of_visible (hi : Inactive tx) {k : Key} {row : OperationRecord}
    (hrow : (db.visible tx).get k = some row) (hs : row.state.isTerminal = false) :
    db.committed.get k = some row := by
  rw [Db.visible_get] at hrow
  cases hw : tx.writes.get k with
  | none => simpa [hw] using hrow
  | some own =>
    have hown : own = row := by simpa [hw] using hrow
    have ht := hi k own hw
    rw [hown, hs] at ht
    cases ht

end Frame

section Steps

variable {db db' : OpDb} {t : Nat} {tx : OpTx}

theorem standing_at (h : Inv db) (hget : db.txs.get t = some tx) {pc : Pc} (hpc : tx.pc = pc) :
    Standing db.committed { tx with pc := pc } := by
  subst hpc
  exact (h.each t tx hget).standing

theorem lockWorkstation_inv (h : Inv db) (hget : db.txs.get t = some tx) {tables : CatalogTables}
    {clock : Int} (hstep : lockWorkstation db t tx tables clock = some db') : Inv db' := by
  unfold lockWorkstation at hstep
  split at hstep
  · next args hpc =>
    split at hstep
    · refine lockThen_inv h hget (by simp [hpc]) (.inl rfl) ?_ hstep
      exact (standing_at h hget hpc).1
    · exact Option.some.inj hstep ▸ raise_inv h
  · next target work hpc =>
    split at hstep
    · refine lockThen_inv h hget (by simp [hpc]) (.inl rfl) ?_ hstep
      exact (standing_at h hget hpc).1
    · exact Option.some.inj hstep ▸ raise_inv h
  · next operation hpc =>
    split at hstep
    · refine lockThen_inv h hget (by simp [hpc]) (.inl rfl) ?_ hstep
      exact standing_at h hget hpc
    · exact Option.some.inj hstep ▸ raise_inv h
  · cases hstep

theorem readDue_inv (h : Inv db) (hget : db.txs.get t = some tx) {now : Int}
    (hstep : readDue db t tx now = some db') : Inv db' := by
  unfold readDue at hstep
  split at hstep
  · next args hpc =>
    obtain rfl := Option.some.inj hstep
    refine goto_inv h hget (by simp [hpc]) (.inl rfl) fun k row hrow => ?_
    have hnone : tx.writes.get k = none := standing_at h hget hpc k
    simp [hnone] at hrow
  · cases hstep

theorem not_terminal_of_due {row : OperationRecord} {now : Int} (h : isDue row now = true) :
    row.state.isTerminal = false := by
  cases hs : row.state <;> simp [isDue, hs, OperationState.isTerminal] at h ⊢

theorem keyed_get (h : Inv db) {k : Key} {row : OperationRecord}
    (hrow : db.committed.get k = some row) : db.committed.get (rowKey row) = some row :=
  (h.keyed k row hrow).symm ▸ hrow

theorem refreshRow_inv (h : Inv db) (hget : db.txs.get t = some tx) {key : Key}
    (hstep : refreshRow db t tx key = some db') : Inv db' := by
  unfold refreshRow at hstep
  split at hstep
  · next args now due hpc =>
    have hi : Inactive tx := standing_at h hget hpc
    split at hstep
    · cases hstep
    · next state _ =>
      split at hstep
      · next hfree =>
        have hmove : Inv (goto db t { tx with locks := (.inl key, .update) :: tx.locks }
            (.leaseRefreshing args now (due.filter fun d => d.1 ≠ key))) := by
          refine lockThen_inv h hget (by simp [hpc]) (.inl rfl) ?_ (if_pos hfree)
          exact hi
        simp only at hstep
        split at hstep
        · exact Option.some.inj hstep ▸ hmove
        · next row hrow =>
          split at hstep
          · next hdue =>
            split at hstep
            · exact Option.some.inj hstep ▸ raise_inv h
            · next next hnext =>
              obtain rfl := Option.some.inj hstep
              obtain ⟨hid, hterm⟩ := refreshStatement_terminal hnext
              have hold := committed_of_visible hi hrow (not_terminal_of_due hdue.1)
              have hkey : rowKey next = key :=
                (rowKey_of_identity hid).trans (h.keyed key row hold)
              have hsteady : Steady row next := ⟨hid, by simp [isActive_of_terminal hterm]⟩
              refine writeRow_inv h hget rfl ?_ (by simp [hpc]) (.inl rfl)
                (publishable_of_steady (keyed_get h hold) hsteady _) fun k own hown => ?_
              · subst hkey
                exact h.locks.acquire_write hget hfree next _
              · rw [Dict.get_set] at hown
                split at hown
                · exact Option.some.inj hown ▸ hterm
                · exact hi k own hown
          · exact Option.some.inj hstep ▸ hmove
      · cases hstep
  · cases hstep

theorem swept_of_check {args : LeaseArgs} (hi : Inactive tx)
    (hnone : rowsWhere (db.visible tx) (fun row =>
      ofWorkstation args.tenantId args.workstationId row && row.state.isActive) = []) :
    Swept db.committed tx args := by
  intro k row hrow hws hactive
  cases hw : tx.writes.get k with
  | some own => exact ⟨own, rfl, isActive_of_terminal (hi k own hw)⟩
  | none =>
    have hvisible : (db.visible tx).get k = some row := by simp [Db.visible_get, hw, hrow]
    rw [List.eq_nil_iff_forall_not_mem] at hnone
    exact (hnone row (mem_rowsWhere.2 ⟨⟨k, hvisible⟩, Bool.and_eq_true_iff.2 ⟨hws, hactive⟩⟩)).elim

theorem checkActive_inv (h : Inv db) (hget : db.txs.get t = some tx) {leaseNow : Int}
    (hok : soleCheck db (t, .checkActive leaseNow) = true)
    (hstep : checkActive db t tx leaseNow = some db') : Inv db' := by
  unfold checkActive at hstep
  split at hstep
  · next args now hpc =>
    have hi : Inactive tx := standing_at h hget hpc
    split at hstep
    · next hnone =>
      obtain rfl := Option.some.inj hstep
      refine inv_setTx h (h.locks.move hget _) ⟨fun k row hrow => ?_, hi, swept_of_check hi hnone⟩
        fun ws hws t' x hx hne hxw => ?_
      · exact publishable_move ((h.each t tx hget).publishable k row hrow) (by simp [hpc]) _
      · simp only [soleCheck, hget, hpc, List.all_eq_true, Bool.or_eq_true,
          decide_eq_true_eq] at hok
        have hother := hok (t', x) ((Dict.mem_entries_iff _ _ _).2 hx)
        exact hother.resolve_left hne (hxw.trans hws.symm)
    · obtain rfl := Option.some.inj hstep
      exact goto_inv h hget (by simp [hpc]) (.inl rfl) trivial
  · cases hstep

theorem selectNext_inv (h : Inv db) (hget : db.txs.get t = some tx)
    (hstep : selectNext db t tx = some db') : Inv db' := by
  unfold selectNext at hstep
  split at hstep
  · next args leaseNow hpc =>
    obtain ⟨hi, hswept⟩ := standing_at h hget hpc
    simp only at hstep
    split at hstep
    · obtain rfl := Option.some.inj hstep
      exact goto_inv h hget (by simp [hpc]) (.inl rfl) trivial
    · next row hrow =>
      obtain ⟨⟨k, hk⟩, hp⟩ := mem_rowsWhere.1 (InMemory.earliest_mem hrow)
      simp only [Bool.and_eq_true, decide_eq_true_eq] at hp
      obtain ⟨⟨hws, _, hcreated, _⟩, _⟩ := hp
      have hterm : row.state.isTerminal = false := by rw [hcreated]; rfl
      have hold := keyed_get h (committed_of_visible hi hk hterm)
      refine lockThen_inv h hget (by simp [hpc]) (.inr (by rw [hpc]; rfl)) ?_ hstep
      exact ⟨hi, hswept, ⟨hold, List.mem_cons_self⟩, hcreated, hws⟩
  · cases hstep

theorem writeLease_inv (h : Inv db) (hget : db.txs.get t = some tx)
    (hstep : writeLease db t tx = some db') : Inv db' := by
  unfold writeLease at hstep
  split at hstep
  · next args leaseNow record hpc =>
    obtain ⟨hi, hswept, hheld, hcreated, hws⟩ := standing_at h hget hpc
    split at hstep
    · exact Option.some.inj hstep ▸ raise_inv h
    · next leased hleased =>
      obtain rfl := Option.some.inj hstep
      have hid : leased.identity = record.identity := (writeTransition_row hleased) ▸ rfl
      have hkey := rowKey_of_identity hid
      refine writeRow_inv h hget rfl ?_ (by simp [hpc]) (.inr (by rw [hpc]; rfl))
        ⟨rfl, .inr ⟨record, hkey ▸ hheld.1, hid, fun _ => .inr ⟨args, rfl⟩⟩⟩
        ⟨fun k row hrow hrow_ws hactive => ?_, ofWorkstation_of_identity hid _ _ ▸ hws⟩
      · exact h.locks.write hget (hkey ▸ hheld.2) leased _
      · -- The selected row is not active, so the ended rows are other rows.
        have hne : k ≠ rowKey leased := by
          rintro rfl
          rw [hkey, hheld.1] at hrow
          obtain rfl := Option.some.inj hrow
          simp [hcreated, OperationState.isActive] at hactive
        obtain ⟨own, hown, hinactive⟩ := hswept k row hrow hrow_ws hactive
        exact ⟨own, by simpa [Dict.get_set_other _ _ hne] using hown, hinactive⟩
  · cases hstep

theorem lockOperation_inv (h : Inv db) (hget : db.txs.get t = some tx)
    (hstep : lockOperation db t tx = some db') : Inv db' := by
  unfold lockOperation at hstep
  split at hstep
  · next target work hpc =>
    have hu : Untouched tx := standing_at h hget hpc
    split at hstep
    · obtain rfl := Option.some.inj hstep
      exact goto_inv h hget (by simp [hpc]) (.inl rfl) trivial
    · next row hrow =>
      split at hstep
      · obtain rfl := Option.some.inj hstep
        exact goto_inv h hget (by simp [hpc]) (.inl rfl) trivial
      · rw [visible_untouched hu] at hrow
        refine lockThen_inv h hget (by simp [hpc]) (.inl rfl) ?_ hstep
        exact ⟨hu, keyed_get h hrow, h.keyed _ row hrow ▸ List.mem_cons_self⟩
  · next tenantId operationId hpc =>
    have hu : Untouched tx := (standing_at h hget hpc).1
    split at hstep
    · obtain rfl := Option.some.inj hstep
      exact goto_inv h hget (by simp [hpc]) (.inl rfl) trivial
    · next row hrow =>
      rw [visible_untouched hu] at hrow
      refine lockThen_inv h hget (by simp [hpc]) (.inl rfl) ?_ hstep
      exact ⟨hu, keyed_get h hrow, h.keyed _ row hrow ▸ List.mem_cons_self⟩
  · cases hstep

theorem transition_inv (h : Inv db) (hget : db.txs.get t = some tx) {databaseNow completionNow : Int}
    {tables : CatalogTables} {upsertCatalog : Except String Unit}
    (hstep : transition db t tx databaseNow completionNow tables upsertCatalog = some db') :
    Inv db' := by
  unfold transition at hstep
  split at hstep
  · next record work hpc =>
    obtain ⟨_, hheld⟩ := standing_at h hget hpc
    split at hstep
    · exact Option.some.inj hstep ▸ raise_inv h
    · next status next hrun =>
      obtain rfl := Option.some.inj hstep
      have hsteady : Steady record next := (Work.outcome hrun).steady
      have hkey := rowKey_of_identity hsteady.identity
      refine writeRow_inv h hget rfl ?_ (by simp [hpc]) (.inl rfl)
        (publishable_of_steady hheld.1 hsteady _) trivial
      exact h.locks.write hget (hkey ▸ hheld.2) next _
  · cases hstep

theorem lockQuota_inv (h : Inv db) (hget : db.txs.get t = some tx)
    (hstep : lockQuota db t tx = some db') : Inv db' := by
  unfold lockQuota at hstep
  split at hstep
  · next operation hpc =>
    obtain ⟨hu, haccepted⟩ := standing_at h hget hpc
    have hcreated : operation.state = .created := (of_decide_eq_true haccepted).2.1
    refine lockThen_inv h hget (by simp [hpc]) (.inl rfl) ?_ hstep
    exact ⟨hu, hcreated⟩
  · cases hstep

theorem findExisting_inv (h : Inv db) (hget : db.txs.get t = some tx)
    (hstep : findExisting db t tx = some db') : Inv db' := by
  unfold findExisting at hstep
  simp only at hstep
  split at hstep
  · next operation hpc =>
    split at hstep
    · obtain rfl := Option.some.inj hstep
      have hstand := standing_at h hget hpc
      exact goto_inv h hget (by simp [hpc]) (.inl rfl) hstand
    · refine lockThen_inv h hget (by simp [hpc]) (.inl rfl) ?_ hstep
      exact trivial
  · next operation hpc =>
    split at hstep
    · exact Option.some.inj hstep ▸ raise_inv h
    · refine lockThen_inv h hget (by simp [hpc]) (.inl rfl) ?_ hstep
      exact trivial
  · cases hstep

theorem checkQuota_inv (h : Inv db) (hget : db.txs.get t = some tx) {databaseNow : Int}
    {tables : CatalogTables} {maxActive : Nat}
    (hstep : checkQuota db t tx databaseNow tables maxActive = some db') : Inv db' := by
  unfold checkQuota at hstep
  split at hstep
  · next operation hpc =>
    have hstand := standing_at h hget hpc
    split at hstep
    · exact Option.some.inj hstep ▸ raise_inv h
    · split at hstep
      · exact Option.some.inj hstep ▸ raise_inv h
      · obtain rfl := Option.some.inj hstep
        exact goto_inv h hget (by simp [hpc]) (.inl rfl) hstand
  · cases hstep

theorem insert_inv (h : Inv db) (hget : db.txs.get t = some tx)
    (hstep : insert db t tx = some db') : Inv db' := by
  unfold insert at hstep
  split at hstep
  · next operation databaseNow hpc =>
    obtain ⟨hu, hcreated⟩ := standing_at h hget hpc
    simp only at hstep
    split at hstep
    · cases hstep
    · split at hstep
      · obtain rfl := Option.some.inj hstep
        exact goto_inv h hget (by simp [hpc]) (.inl rfl) ⟨hu, hcreated⟩
      · next hnew =>
        split at hstep
        · next hfree =>
          obtain rfl := Option.some.inj hstep
          have habsent : db.committed.get (rowKey operation) = none := by
            rw [← visible_untouched hu]
            exact not_not.1 fun hsome => hnew (.inl hsome)
          refine writeRow_inv h hget rfl ?_ (by simp [hpc]) (.inl rfl)
            ⟨rfl, .inl ⟨habsent, by simp [createdAt, hcreated, OperationState.isActive]⟩⟩ trivial
          exact h.locks.acquire_write hget hfree _ _
        · cases hstep
  · cases hstep

end Steps

section Commit

variable {db : OpDb} {t : Nat} {tx : OpTx}

/-- An active row after a commit was active before it, or is the row that the commit leases. -/
theorem commit_active (h : Inv db) (hget : db.txs.get t = some tx) {k : Key}
    {row : OperationRecord} (hrow : (db.commit t tx .closed).committed.get k = some row)
    (hactive : row.state.isActive = true) :
    (∃ old, db.committed.get k = some old ∧ row.identity = old.identity ∧
        old.state.isActive = true ∧ ∀ own, tx.writes.get k = some own → own = row) ∨
      rowKey row = k ∧ ∃ args, tx.pc = .leaseWritten args row := by
  have hor : (tx.writes.get k).or (db.committed.get k) = some row :=
    (Dict.get_overlay _ _ _).symm.trans hrow
  cases hw : tx.writes.get k with
  | none =>
    rw [hw] at hor
    exact .inl ⟨row, hor, rfl, hactive, by simp⟩
  | some own =>
    rw [hw] at hor
    obtain rfl := Option.some.inj hor
    obtain ⟨hkey, ⟨_, hinactive⟩ | ⟨old, hold, hid, hold_active⟩⟩ :=
      (h.each t tx hget).publishable k _ hw
    · simp [hinactive] at hactive
    · rcases hold_active hactive with ha | hlease
      · exact .inl ⟨old, hold, hid, ha, fun own' h' => (Option.some.inj h').symm⟩
      · exact .inr ⟨hkey, hlease⟩

/-- A lease that is about to commit leaves no other row of its workstation active. -/
theorem lease_alone (h : Inv db) (hget : db.txs.get t = some tx) {args : LeaseArgs}
    {leased row old : OperationRecord} (hpc : tx.pc = .leaseWritten args leased) {k : Key}
    (hold : db.committed.get k = some old) (hid : row.identity = old.identity)
    (hold_active : old.state.isActive = true)
    (hown : ∀ own, tx.writes.get k = some own → own = row)
    (hactive : row.state.isActive = true) (htenant : row.tenantId = leased.tenantId)
    (hws : row.workstationId = leased.workstationId) : False := by
  obtain ⟨hswept, hleased⟩ := standing_at h hget hpc
  obtain ⟨hl_tenant, hl_ws⟩ := ofWorkstation_iff.1 hleased
  have hof : ofWorkstation args.tenantId args.workstationId old = true := by
    rw [← ofWorkstation_of_identity hid]
    exact ofWorkstation_iff.2 ⟨htenant.trans hl_tenant, hws.trans hl_ws⟩
  obtain ⟨own, hwrites, hinactive⟩ := hswept k old hold hof hold_active
  rw [hown own hwrites, hactive] at hinactive
  cases hinactive

theorem commit_unique (h : Inv db) (hget : db.txs.get t = some tx) :
    AtMostOneActive (db.commit t tx .closed) := by
  intro k k' row row' hrow hrow' htenant hws hactive hactive'
  rcases commit_active h hget hrow hactive with ⟨old, hold, hid, hoa, hown⟩ | ⟨hkey, args, hpc⟩
  · rcases commit_active h hget hrow' hactive' with
      ⟨old', hold', hid', hoa', hown'⟩ | ⟨hkey', args', hpc'⟩
    · have hsame : old.tenantId = old'.tenantId ∧ old.workstationId = old'.workstationId := by
        refine ofWorkstation_iff.1 ?_
        rw [← ofWorkstation_of_identity hid, ofWorkstation_iff]
        have ht' := congrArg OperationIdentity.tenantId hid'
        have hw' := congrArg OperationIdentity.workstationId hid'
        exact ⟨htenant.trans ht', hws.trans hw'⟩
      exact h.unique k k' old old' hold hold' hsame.1 hsame.2 hoa hoa'
    · exact (lease_alone h hget hpc' hold hid hoa hown hactive htenant hws).elim
  · rcases commit_active h hget hrow' hactive' with
      ⟨old', hold', hid', hoa', hown'⟩ | ⟨hkey', args', hpc'⟩
    · exact (lease_alone h hget hpc hold' hid' hoa' hown' hactive' htenant.symm hws.symm).elim
    · have hsame := (Pc.leaseWritten.inj (hpc.symm.trans hpc')).2
      exact hkey.symm.trans ((congrArg rowKey hsame).trans hkey')

/-- A commit of another transaction cannot activate a row of a workstation in the window. -/
theorem commit_swept (h : Inv db) (hget : db.txs.get t = some tx) {a : Nat} {x : OpTx}
    (hx : db.txs.get a = some x) (hne : t ≠ a) {args : LeaseArgs}
    (hwin : x.pc.window = some (args.tenantId, args.workstationId))
    (hswept : Swept db.committed x args) :
    Swept (db.commit t tx .closed).committed x args := by
  intro k row hrow hws hactive
  rcases commit_active h hget hrow hactive with ⟨old, hold, hid, hoa, _⟩ | ⟨hkey, args', hpc⟩
  · exact hswept k old hold (ofWorkstation_of_identity hid _ _ ▸ hws) hoa
  · obtain ⟨_, hleased⟩ := standing_at h hget hpc
    obtain ⟨ht, hw⟩ := ofWorkstation_iff.1 hws
    obtain ⟨ht', hw'⟩ := ofWorkstation_iff.1 hleased
    have hsame : tx.pc.window = some (args.tenantId, args.workstationId) := by
      rw [hpc, Pc.window, ← ht, ← hw, ← ht', ← hw']
    exact absurd (h.windows t a tx x _ hget hx hsame hwin) hne

theorem commit_holds (h : Inv db) (hget : db.txs.get t = some tx) {a : Nat} {x : OpTx}
    (hx : db.txs.get a = some x) (hne : t ≠ a) {record : OperationRecord}
    (hheld : Holds db.committed x record) :
    Holds (db.commit t tx .closed).committed x record :=
  ⟨(h.locks.committed_stable hget hx hne hheld.2 .closed).trans hheld.1, hheld.2⟩

theorem commit_each (h : Inv db) (hget : db.txs.get t = some tx) {a : Nat} {x : OpTx}
    (hx : db.txs.get a = some x) (hne : t ≠ a) :
    TxInv (db.commit t tx .closed).committed x := by
  have hi := h.each a x hx
  constructor
  · intro k row hrow
    have hstable := h.locks.committed_stable hget hx hne (h.locks.owned a x k row hx hrow) .closed
    have hpub := hi.publishable k row hrow
    rw [Publishable, ← hstable] at hpub
    exact hpub
  · have hstand := hi.standing
    cases hpc : x.pc with
    | leaseChecked args leaseNow =>
      simp only [Standing, hpc] at hstand ⊢
      exact ⟨hstand.1, commit_swept h hget hx hne (by rw [hpc]; rfl) hstand.2⟩
    | leaseSelected args leaseNow record =>
      simp only [Standing, hpc] at hstand ⊢
      obtain ⟨hin, hswept, hheld, hrest⟩ := hstand
      exact ⟨hin, commit_swept h hget hx hne (by rw [hpc]; rfl) hswept,
        commit_holds h hget hx hne hheld, hrest⟩
    | leaseWritten args record =>
      simp only [Standing, hpc] at hstand ⊢
      exact ⟨commit_swept h hget hx hne (by rw [hpc]; rfl) hstand.1, hstand.2⟩
    | rowLocked record work =>
      simp only [Standing, hpc] at hstand ⊢
      exact ⟨hstand.1, commit_holds h hget hx hne hstand.2⟩
    | closed => simp [Standing, hpc]
    | done => simp [Standing, hpc]
    | _ => simpa only [Standing, hpc] using hstand

theorem commit_inv {db' : OpDb} (h : Inv db) (hget : db.txs.get t = some tx)
    (hstep : commit db t tx = some db') : Inv db' := by
  have hdone : db' = db.commit t tx .closed := by
    unfold commit at hstep
    split at hstep
    · exact (Option.some.inj hstep).symm
    · exact (Option.some.inj hstep).symm
    · cases hstep
  subst hdone
  have hroll := raise_inv (t := t) h
  exact {
    locks := h.locks.commit .closed
    keyed := fun k row hrow => by
      have hor : (tx.writes.get k).or (db.committed.get k) = some row :=
        (Dict.get_overlay _ _ _).symm.trans hrow
      cases hw : tx.writes.get k with
      | none => exact h.keyed k row (by simpa [hw] using hor)
      | some own =>
        rw [hw] at hor
        exact Option.some.inj hor ▸ ((h.each t tx hget).publishable k own hw).1
    each := fun a x hx => by
      by_cases ha : t = a
      · have hclosed : x = ⟨[], .empty, .closed⟩ := by
          have hset : (db.txs.set t ⟨[], .empty, .closed⟩).get a = some x := hx
          rw [Dict.get_set, if_pos ha] at hset
          exact (Option.some.inj hset).symm
        exact hclosed ▸ ⟨by simp, trivial⟩
      · have hset : (db.txs.set t ⟨[], .empty, .closed⟩).get a = some x := hx
        rw [Dict.get_set, if_neg ha] at hset
        exact commit_each h hget hset ha
    windows := hroll.windows
    unique := commit_unique h hget }

end Commit

theorem begin_inv {db db' : OpDb} {t : Nat} {call : Call} (h : Inv db)
    (hstep : step db (t, .begin call) = some db') : Inv db' := by
  cases hget : db.txs.get t with
  | some tx => simp [step, hget] at hstep
  | none =>
    simp only [step, hget] at hstep
    split at hstep
    · next haccepted =>
      obtain rfl := Option.some.inj hstep
      exact inv_setTx h (h.locks.setTx (by simp) (by simp))
        ⟨by simp, Dict.get_empty, haccepted⟩ (by simp [Pc.window])
    · cases hstep

/-- One statement of one transaction, in a state where the rule holds. -/
theorem step_inv {db db' : OpDb} {e : Nat × Action} (h : Inv db) (hok : soleCheck db e = true)
    (hstep : step db e = some db') : Inv db' := by
  obtain ⟨t, action⟩ := e
  cases hget : db.txs.get t with
  | none =>
    cases action with
    | «begin» call => exact begin_inv h hstep
    | _ => simp [step, hget] at hstep
  | some tx =>
    cases action with
    | «begin» call => exact begin_inv h hstep
    | lockWorkstation tables clock =>
      exact lockWorkstation_inv h hget (by simpa only [step, hget] using hstep)
    | readDue now => exact readDue_inv h hget (by simpa only [step, hget] using hstep)
    | refreshRow key => exact refreshRow_inv h hget (by simpa only [step, hget] using hstep)
    | checkActive leaseNow =>
      exact checkActive_inv h hget hok (by simpa only [step, hget] using hstep)
    | selectNext => exact selectNext_inv h hget (by simpa only [step, hget] using hstep)
    | writeLease => exact writeLease_inv h hget (by simpa only [step, hget] using hstep)
    | lockOperation => exact lockOperation_inv h hget (by simpa only [step, hget] using hstep)
    | transition databaseNow completionNow tables upsertCatalog =>
      exact transition_inv h hget (by simpa only [step, hget] using hstep)
    | lockQuota => exact lockQuota_inv h hget (by simpa only [step, hget] using hstep)
    | findExisting => exact findExisting_inv h hget (by simpa only [step, hget] using hstep)
    | checkQuota databaseNow tables maxActive =>
      exact checkQuota_inv h hget (by simpa only [step, hget] using hstep)
    | insert => exact insert_inv h hget (by simpa only [step, hget] using hstep)
    | commit => exact commit_inv h hget (by simpa only [step, hget] using hstep)
    | abort =>
      simp only [step, hget] at hstep
      exact Option.some.inj hstep ▸ raise_inv h

theorem inv_empty : Inv emptyDb where
  locks := ⟨by simp [emptyDb], by simp [emptyDb]⟩
  keyed := by simp [emptyDb]
  each := by simp [emptyDb]
  windows := by simp [emptyDb]
  unique := by simp [AtMostOneActive, emptyDb]

/-- When every activity check runs while no other lease for the workstation is past its own, no
interleaving leaves two rows of one workstation leased or running. -/
theorem sole_checks_one_active {db : OpDb}
    (h : Runs.Reaches step (fun db e => soleCheck db e = true) emptyDb db) : AtMostOneActive db :=
  (Runs.invariant_of_reaches inv_empty (fun _ _ _ => step_inv) h).unique

/-- One workstation, online throughout. -/
def onlineTables : CatalogTables where
  workstations := Dict.empty.set
    ("tnt_00000000-0000-4000-8000-000000000001", "ws_00000000-0000-4000-8000-000000000001")
    { record :=
        { workstationId := "ws_00000000-0000-4000-8000-000000000001"
          tenantId := "tnt_00000000-0000-4000-8000-000000000001"
          ownerSubjectId := "usr_00000000-0000-4000-8000-000000000001"
          displayName := "Workstation"
          enabled := true
          online := true }
      lastSeenAt := some 0
      presenceExpiresAt := some 120000000 }
  projects := .empty
  drawings := .empty

def pollArgs : LeaseArgs where
  tenantId := "tnt_00000000-0000-4000-8000-000000000001"
  workstationId := "ws_00000000-0000-4000-8000-000000000001"
  ownerSubjectId := "usr_00000000-0000-4000-8000-000000000001"
  leaseDuration := 60000000

/-- Two operations of the workstation, each created in a transaction of its own. -/
def twoCreated : List (Nat × Action) :=
  [(0, listingOperation "op_00000000-0000-4000-8000-000000000001"
      "idem_00000000-0000-4000-8000-000000000001" 0),
    (1, listingOperation "op_00000000-0000-4000-8000-000000000002"
      "idem_00000000-0000-4000-8000-000000000002" 0)].flatMap fun (t, operation) =>
    [.begin (.createOrGet operation), .lockQuota, .findExisting, .lockWorkstation onlineTables 0,
      .checkQuota 0 onlineTables 8, .insert, .commit].map (t, ·)

/-- The statements of a poll that leases an operation. -/
def pollStatements : List Action :=
  [.begin (.leaseNext pollArgs), .lockWorkstation onlineTables 1000000, .readDue 1000000,
    .checkActive 1000000, .selectNext, .writeLease, .commit]

def leasedRows (db : OpDb) : List OperationRecord :=
  rowsWhere db.committed fun row => row.state = .leased

theorem sole_checks_one_active_leased : ∃ db,
    Runs.Reaches step (fun db e => soleCheck db e = true) emptyDb db ∧
      (leasedRows db).length = 1 ∧ AtMostOneActive db := by
  obtain ⟨db, hreach, hleased⟩ := Runs.exists_reaches_of_run step
    (fun db e => soleCheck db e = true) emptyDb (twoCreated ++ pollStatements.map (2, ·))
    (fun db => (leasedRows db).length = 1) (by decide) (by decide)
  exact ⟨db, hreach, of_decide_eq_true hleased, sole_checks_one_active hreach⟩

def bothLeased (db : OpDb) : Bool :=
  match db.committed.get ("tnt_00000000-0000-4000-8000-000000000001",
      "op_00000000-0000-4000-8000-000000000001"),
    db.committed.get ("tnt_00000000-0000-4000-8000-000000000001",
      "op_00000000-0000-4000-8000-000000000002") with
  | some row, some row' =>
    row.tenantId = row'.tenantId ∧ row.workstationId = row'.workstationId ∧
      row.state = .leased ∧ row'.state = .leased
  | _, _ => false

/-- Two polls statement by statement in turn: both pass their checks, and the second skips the row
that the first has locked. -/
theorem overlapping_polls_lease_both :
    ¬∀ db, Runs.Reaches step Runs.anyEvent emptyDb db → AtMostOneActive db := by
  intro hall
  obtain ⟨db, hreach, hboth⟩ := Runs.exists_reaches_of_run step Runs.anyEvent emptyDb
    (twoCreated ++ pollStatements.flatMap fun a => [(2, a), (3, a)]) bothLeased
    (Runs.along_anyEvent _ _)
    (by decide)
  unfold bothLeased at hboth
  split at hboth
  · next row row' hrow hrow' =>
    obtain ⟨htenant, hws, hs, hs'⟩ := of_decide_eq_true hboth
    have hsame := hall db hreach _ _ row row' hrow hrow' htenant hws (by rw [hs]; rfl)
      (by rw [hs']; rfl)
    revert hsame
    decide
  · cases hboth

end CadPlot.Gateway.Transactions
