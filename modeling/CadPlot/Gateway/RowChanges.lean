import CadPlot.Gateway.Quota

/-!
# What a statement may do to the rows

A transaction changes committed rows to ones that are due no later, starts one
leased row, or makes one new row under the lock of its quota and with a key that
no row has. Every statement of a transaction keeps to this, and none adds to a
namespace that the quota check has not let through.
-/

namespace CadPlot.Gateway.Quota

open ReadCommitted Transactions
open Postgres (CatalogTables writeTransition writeTransition_row)

theorem namespaceOf_of_identity {row old : OperationRecord} (h : row.identity = old.identity) :
    namespaceOf row = namespaceOf old := by
  simp only [OperationRecord.identity, OperationIdentity.mk.injEq] at h
  simp [namespaceOf, h]

theorem idempotencyIndex_of_identity {row old : OperationRecord}
    (h : row.identity = old.identity) : row.idempotencyIndex = old.idempotencyIndex := by
  simp only [OperationRecord.identity, OperationIdentity.mk.injEq] at h
  simp [OperationRecord.idempotencyIndex, h]

theorem nonDue_mono {row : OperationRecord} {now later : Int} (hle : now ≤ later)
    (h : nonDue row later = true) : nonDue row now = true := by
  unfold nonDue at h ⊢
  cases hs : row.state with
  | created | running =>
    simp only [hs, decide_eq_true_eq] at h ⊢
    omega
  | leased =>
    cases hl : row.leaseExpiresAt with
    | none => simp [hs, hl, Schema.before] at h
    | some l =>
      simp only [hs, hl, Schema.before, decide_eq_true_eq] at h ⊢
      omega
  | succeeded | failed | expired | attentionRequired => simp [hs] at h

theorem nonDue_terminal {row : OperationRecord} {now : Int} (h : row.state.isTerminal = true) :
    nonDue row now = false := by
  cases hs : row.state <;> simp [hs, OperationState.isTerminal, nonDue] at h ⊢

/-- The same operation, due no later. -/
structure Lessened (old row : OperationRecord) : Prop where
  identity : row.identity = old.identity
  due : ∀ now, nonDue row now = true → nonDue old now = true

theorem Lessened.ended {old row : OperationRecord} (hid : row.identity = old.identity)
    (hterm : row.state.isTerminal = true) : Lessened old row :=
  ⟨hid, fun now h => by simp [nonDue_terminal hterm] at h⟩

/-- A call lessens the row it has locked or starts it. -/
theorem outcome_lessened {record row : OperationRecord} (h : Outcome record row) :
    Lessened record row ∨
      row.identity = record.identity ∧ record.state = .leased ∧ row.state = .running := by
  cases h with
  | unchanged => exact .inl ⟨rfl, fun _ h => h⟩
  | ended hid hterm => exact .inl (.ended hid hterm)
  | started hid hs hs' => exact .inr ⟨hid, hs, hs'⟩
  | finished hid hs hl =>
    refine .inl ⟨hid, fun now h => ?_⟩
    have hexp := congrArg OperationIdentity.expiresAt hid
    simp only [OperationRecord.identity] at hexp
    rw [nonDue, hs]
    cases hstate : row.state <;>
      simp [nonDue, hstate, hl, Schema.before] at h
    · simpa [hexp] using h
    · simpa [hexp] using h

/-- A lease ends no later than the operation it is for. -/
theorem leased_lessened {record leased : OperationRecord} {now leaseDuration : Int}
    (hs : record.state = .created)
    (h : writeTransition record .leased (some (min (now + leaseDuration) record.expiresAt)) none
      none none none = .ok leased) : Lessened record leased := by
  obtain rfl := writeTransition_row h
  refine ⟨rfl, fun at_ hdue => ?_⟩
  simp only [nonDue, hs, Schema.before, decide_eq_true_eq] at hdue ⊢
  omega

section Count

variable {table table' : Dict Key OperationRecord} {p q : OperationRecord → Bool}

def keysWhere (table : Dict Key OperationRecord) (p : OperationRecord → Bool) : List Key :=
  (table.entries.filter fun e => p e.2).map Prod.fst

theorem length_rowsWhere : (rowsWhere table p).length = (keysWhere table p).length := by
  simp only [rowsWhere, keysWhere, List.filter_map, List.length_map]
  rfl

theorem nodup_keysWhere : (keysWhere table p).Nodup :=
  table.nodup.sublist (List.filter_sublist.map Prod.fst)

theorem mem_keysWhere {k : Key} :
    k ∈ keysWhere table p ↔ ∃ row, table.get k = some row ∧ p row = true := by
  simp only [keysWhere, List.mem_map, List.mem_filter, Prod.exists, exists_and_right,
    exists_eq_right, Dict.mem_entries_iff]

/-- Selected rows whose keys were selected before, but for some, are as many and those. -/
theorem length_rowsWhere_le (extra : List Key)
    (h : ∀ k row, table'.get k = some row → q row = true →
      k ∈ extra ∨ ∃ old, table.get k = some old ∧ p old = true) :
    (rowsWhere table' q).length ≤ extra.length + (rowsWhere table p).length := by
  have hsub : keysWhere table' q ⊆ extra ++ keysWhere table p := by
    intro k hk
    obtain ⟨row, hrow, hq⟩ := mem_keysWhere.1 hk
    rcases h k row hrow hq with hextra | hold
    · exact List.mem_append_left _ hextra
    · exact List.mem_append_right _ (mem_keysWhere.2 hold)
  have hlen := (List.subperm_of_subset nodup_keysWhere hsub).length_le
  rw [length_rowsWhere, length_rowsWhere]
  simpa using hlen

end Count

theorem counts_iff {ns : Namespace} {now : Int} {row : OperationRecord} :
    counts ns now row = true ↔ namespaceOf row = ns ∧ nonDue row now = true := by
  simp [counts]

theorem Lessened.counts {old row : OperationRecord} {ns : Namespace} {now : Int}
    (h : Lessened old row) (hrow : counts ns now row = true) : counts ns now old = true := by
  rw [counts_iff] at hrow ⊢
  exact ⟨(namespaceOf_of_identity h.identity).symm.trans hrow.1, h.due now hrow.2⟩

/-- Time passing makes room. -/
theorem activeRows_later (table : Dict Key OperationRecord) (ns : Namespace) {now later : Int}
    (hle : now ≤ later) :
    (activeRows table ns later).length ≤ (activeRows table ns now).length := by
  have h := @length_rowsWhere_le table table (counts ns now) (counts ns later) []
    fun k row hrow hq => .inr ⟨row, hrow, counts_iff.2
      ⟨(counts_iff.1 hq).1, nonDue_mono hle (counts_iff.1 hq).2⟩⟩
  simpa [activeRows] using h

/-- The transaction has a version of no other row. -/
def Sole (tx : OpTx) (k : Key) : Prop := ∀ k', k' ≠ k → tx.writes.get k' = none

def NewIndex (committed : Dict Key OperationRecord) (row : OperationRecord) : Prop :=
  ∀ k r, committed.get k = some r → r.idempotencyIndex ≠ row.idempotencyIndex

/-- What a transaction may do to a row. -/
inductive Change (committed : Dict Key OperationRecord) (tx : OpTx) (k : Key)
    (row : OperationRecord) : Prop where
  | lessened (old : OperationRecord) : committed.get k = some old → Lessened old row →
      Change committed tx k row
  | started (old : OperationRecord) : committed.get k = some old →
      row.identity = old.identity → old.state = .leased → row.state = .running → Sole tx k →
      Change committed tx k row
  | fresh : committed.get k = none → row.state = .created → Sole tx k →
      (Sum.inr (namespaceOf row).resource, LockMode.update) ∈ tx.locks →
      NewIndex committed row → Change committed tx k row

/-- What a transaction knows where it stands. -/
def Ready (committed : Dict Key OperationRecord) (tx : OpTx) : Prop :=
  match tx.pc with
  | .closed | .done | .leaseWritten .. => True
  | .begun call => Untouched tx ∧ call.accepted = true
  | .leaseLocked _ | .workerLocked .. => Untouched tx
  | .leaseRefreshing .. | .leaseChecked .. => Inactive tx
  | .leaseSelected _ _ record =>
    Inactive tx ∧ Holds committed tx record ∧ record.state = .created
  | .rowLocked record _ => Untouched tx ∧ Holds committed tx record
  | .createStarted operation | .createAbsent operation | .createLocked operation
  | .createCounted operation _ | .createRefused operation =>
    Untouched tx ∧ operation.state = .created ∧
      (Sum.inr (namespaceOf operation).resource, LockMode.update) ∈ tx.locks

structure TxOk (committed : Dict Key OperationRecord) (tx : OpTx) : Prop where
  changes : ∀ k row, tx.writes.get k = some row → rowKey row = k ∧ Change committed tx k row
  ready : Ready committed tx

/-- No other transaction is making a row with the idempotency key of this one's new row. -/
def Apart (committed : Dict Key OperationRecord) (tx other : OpTx) : Prop :=
  ∀ k row k' row', tx.writes.get k = some row → other.writes.get k' = some row' →
    committed.get k = none → row.idempotencyIndex ≠ row'.idempotencyIndex

/-- A key belongs to one row. -/
def OneRow (db : OpDb) : Prop :=
  ∀ k k' row row', db.committed.get k = some row → db.committed.get k' = some row' →
    row.idempotencyIndex = row'.idempotencyIndex → k = k'

structure Ok (db : OpDb) : Prop where
  locks : WellLocked db
  keyed : ∀ k row, db.committed.get k = some row → rowKey row = k
  each : ∀ t tx, db.txs.get t = some tx → TxOk db.committed tx
  apart : ∀ t t' tx tx', db.txs.get t = some tx → db.txs.get t' = some tx' → t ≠ t' →
    Apart db.committed tx tx'
  one : OneRow db

theorem isPending_iff {committed : Dict Key OperationRecord} {ns : Namespace} {tx : OpTx} :
    isPending committed ns tx = true ↔
      (∃ operation now, tx.pc = .createCounted operation now ∧ namespaceOf operation = ns) ∨
        ∃ k row, tx.writes.get k = some row ∧ committed.get k = none ∧ namespaceOf row = ns := by
  rw [isPending, Bool.or_eq_true]
  refine or_congr ?_ ?_
  · cases tx.pc <;> simp
  · simp only [List.any_eq_true, Prod.exists, decide_eq_true_eq, Dict.mem_entries_iff]

section Changes

variable {committed : Dict Key OperationRecord} {tx tx' x : OpTx} {k : Key} {row : OperationRecord}

theorem Change.keep (h : Change committed tx k row) (hwrites : tx'.writes = tx.writes)
    (hlocks : tx.locks ⊆ tx'.locks) : Change committed tx' k row := by
  have hsole : Sole tx k → Sole tx' k := fun hs k' hk => hwrites ▸ hs k' hk
  cases h with
  | lessened old hold hless => exact .lessened old hold hless
  | started old hold hid hs hs' h1 => exact .started old hold hid hs hs' (hsole h1)
  | fresh hnone hs h1 hlock hnew => exact .fresh hnone hs (hsole h1) (hlocks hlock) hnew

/-- A row that is terminal is neither started nor new. -/
theorem Change.terminal (h : Change committed tx k row) (hterm : row.state.isTerminal = true)
    (tx' : OpTx) : Change committed tx' k row := by
  cases h with
  | lessened old hold hless => exact .lessened old hold hless
  | started old hold hid hs hs' h1 => simp [hs', OperationState.isTerminal] at hterm
  | fresh hnone hs h1 hlock hnew => simp [hs, OperationState.isTerminal] at hterm

theorem Change.old (h : Change committed tx k row) {old : OperationRecord}
    (hold : committed.get k = some old) : row.identity = old.identity := by
  cases h with
  | lessened old' hold' hless =>
    obtain rfl := Option.some.inj (hold.symm.trans hold')
    exact hless.identity
  | started old' hold' hid =>
    obtain rfl := Option.some.inj (hold.symm.trans hold')
    exact hid
  | fresh hnone => rw [hnone] at hold; cases hold

theorem Change.new (h : Change committed tx k row) (hnone : committed.get k = none) :
    Sole tx k ∧ (Sum.inr (namespaceOf row).resource, LockMode.update) ∈ tx.locks ∧
      NewIndex committed row := by
  cases h with
  | lessened old hold => rw [hnone] at hold; cases hold
  | started old hold => rw [hnone] at hold; cases hold
  | fresh _ _ hsole hlock hnew => exact ⟨hsole, hlock, hnew⟩

/-- A version of a committed row has another key than a new row. -/
theorem apart_of_old (hx : TxOk committed x) {k' : Key} {row' old : OperationRecord}
    (hrow : x.writes.get k = some row) (hnone : committed.get k = none)
    (hold : committed.get k' = some old) (hid : row'.identity = old.identity) :
    row.idempotencyIndex ≠ row'.idempotencyIndex := by
  obtain ⟨_, _, hnew⟩ := (hx.changes k row hrow).2.new hnone
  rw [idempotencyIndex_of_identity hid]
  exact (hnew k' old hold).symm

theorem inactive_of_untouched (hu : Untouched tx) : Inactive tx := by
  intro k row hrow
  rw [hu k] at hrow
  cases hrow

theorem sole_set (hu : Untouched tx) (k : Key) (row : OperationRecord)
    (locks : List ((Key ⊕ Resource) × LockMode)) (pc : Pc) :
    Sole ⟨locks, tx.writes.set k row, pc⟩ k := fun k' hk => by
  simp [Dict.get_set_other _ _ hk, hu k']

end Changes

/-- A call that has not looked for its key yet. -/
def Early (pc : Pc) (operation : OperationRecord) : Prop :=
  pc = .begun (.createOrGet operation) ∨ pc = .createStarted operation

/-- A transaction goes on with the call it has, past the search for its key only if no row has
it, and past the quota check only if that lets it. -/
structure Continues (committed : Dict Key OperationRecord) (admitted : Namespace → Prop)
    (before after : Pc) (operation : OperationRecord) : Prop where
  same : callOf before = some operation
  searched : Early before operation → Early after operation ∨ NewIndex committed operation
  counted : ∀ now, after = .createCounted operation now → admitted (namespaceOf operation)

theorem continues_of {committed : Dict Key OperationRecord} {admitted : Namespace → Prop}
    {before after : Pc} {operation : OperationRecord} (hbefore : callOf before = some operation)
    (hafter : callOf after = some operation)
    (hsearched : Early before operation → Early after operation ∨ NewIndex committed operation)
    (hcounted : ∀ now, after = .createCounted operation now → admitted (namespaceOf operation)) :
    ∀ operation', callOf after = some operation' →
      Continues committed admitted before after operation' := by
  intro operation' h
  obtain rfl := Option.some.inj (hafter.symm.trans h)
  exact ⟨hbefore, hsearched, hcounted⟩

/-- What a transaction may become by one statement. -/
structure Fits (db : OpDb) (t : Nat) (tx tx' : OpTx) (admitted : Namespace → Prop) : Prop where
  locks : WellLocked (db.setTx t tx')
  ok : TxOk db.committed tx'
  apart : ∀ a x, db.txs.get a = some x → a ≠ t →
    Apart db.committed tx' x ∧ Apart db.committed x tx'
  pending : ∀ ns, isPending db.committed ns tx' = true →
    isPending db.committed ns tx = true ∨ admitted ns
  call : ∀ operation, callOf tx'.pc = some operation →
    Continues db.committed admitted tx.pc tx'.pc operation

def Moves (db : OpDb) (t : Nat) (tx : OpTx) (admitted : Namespace → Prop) (db' : OpDb) : Prop :=
  ∃ tx', db' = db.setTx t tx' ∧ Fits db t tx tx' admitted

section Moves

variable {db db' : OpDb} {t : Nat} {tx tx' : OpTx} {admitted : Namespace → Prop}

theorem raise_moves (h : Ok db) : Moves db t tx admitted (raise db t) :=
  ⟨_, rfl, {
    locks := h.locks.rollback .closed
    ok := ⟨by simp, trivial⟩
    apart := fun a x _ _ => ⟨fun k row _ _ hrow => by simp at hrow,
      fun _ _ k' row' _ hrow' => by simp at hrow'⟩
    pending := fun ns hp => by
      rw [isPending_iff] at hp
      simp at hp
    call := by simp [callOf] }⟩

/-- A statement that only takes locks and decides. -/
theorem keep_moves (h : Ok db) (hget : db.txs.get t = some tx) (hwrites : tx'.writes = tx.writes)
    (hheld : tx.locks ⊆ tx'.locks) (hlocks : WellLocked (db.setTx t tx'))
    (hready : Ready db.committed tx')
    (hcall : ∀ operation, callOf tx'.pc = some operation →
      Continues db.committed admitted tx.pc tx'.pc operation) : Moves db t tx admitted (db.setTx t tx') := by
  have hok := h.each t tx hget
  refine ⟨tx', rfl, hlocks, ⟨fun k row hrow => ?_, hready⟩, fun a x hx hne => ⟨?_, ?_⟩,
    fun ns hp => ?_, hcall⟩
  · obtain ⟨hkey, hchange⟩ := hok.changes k row (hwrites ▸ hrow)
    exact ⟨hkey, hchange.keep hwrites hheld⟩
  · exact fun k row k' row' hrow => h.apart t a tx x hget hx hne.symm k row k' row' (hwrites ▸ hrow)
  · exact fun k row k' row' hrow hrow' =>
      h.apart a t x tx hx hget hne k row k' row' hrow (hwrites ▸ hrow')
  · rcases isPending_iff.1 hp with ⟨operation, now, hpc, rfl⟩ | hnew
    · have hc : callOf tx'.pc = some operation := by rw [hpc]; rfl
      exact .inr ((hcall operation hc).counted now hpc)
    · exact .inl (isPending_iff.2 (.inr (hwrites ▸ hnew)))

theorem goto_moves (h : Ok db) (hget : db.txs.get t = some tx) {pc : Pc}
    (hready : Ready db.committed { tx with pc := pc })
    (hcall : ∀ operation, callOf pc = some operation →
      Continues db.committed admitted tx.pc pc operation) :
    Moves db t tx admitted (goto db t tx pc) :=
  keep_moves h hget rfl (fun _ hl => hl) (h.locks.move hget pc) hready hcall

theorem lockThen_moves (h : Ok db) (hget : db.txs.get t = some tx) {pc : Pc}
    {target : Key ⊕ Resource} {mode : LockMode}
    (hready : Ready db.committed { tx with locks := (target, mode) :: tx.locks, pc := pc })
    (hcall : ∀ operation, callOf pc = some operation →
      Continues db.committed admitted tx.pc pc operation)
    (hstep : lockThen db t tx target mode pc = some db') : Moves db t tx admitted db' := by
  unfold lockThen at hstep
  split at hstep
  · next hfree =>
    obtain rfl := Option.some.inj hstep
    exact keep_moves h hget rfl (List.subset_cons_self _ _) (h.locks.acquire hget hfree pc) hready
      hcall
  · cases hstep

/-- A statement that writes a row, over versions that are terminal. -/
theorem write_moves (h : Ok db) (hget : db.txs.get t = some tx) {held : OpTx}
    {record : OperationRecord} {pc : Pc} (hwrites : held.writes = tx.writes)
    (hi : Inactive tx) (hlocks : WellLocked (writeRow db t held record pc))
    (hchange : Change db.committed
      { held with writes := held.writes.set (rowKey record) record, pc := pc }
      (rowKey record) record)
    (hready : Ready db.committed
      { held with writes := held.writes.set (rowKey record) record, pc := pc })
    (hquiet : callOf pc = none)
    (hnew : db.committed.get (rowKey record) = none →
      isPending db.committed (namespaceOf record) tx = true ∧
        ∀ a x, db.txs.get a = some x → a ≠ t → ∀ k row, x.writes.get k = some row →
          record.idempotencyIndex ≠ row.idempotencyIndex) :
    Moves db t tx admitted (writeRow db t held record pc) := by
  have hok := h.each t tx hget
  -- A version is the one written now, or one from before.
  have hcases : ∀ k row, (held.writes.set (rowKey record) record).get k = some row →
      (k = rowKey record ∧ row = record) ∨ tx.writes.get k = some row := by
    intro k row hrow
    rw [Dict.get_set, hwrites] at hrow
    split at hrow
    · next hk => exact .inl ⟨hk.symm, (Option.some.inj hrow).symm⟩
    · exact .inr hrow
  refine ⟨_, rfl, hlocks, ⟨fun k row hrow => ?_, hready⟩,
    fun a x hx hne => ⟨fun k row k' row' hrow hrow' hnone => ?_,
      fun k row k' row' hrow hrow' hnone => ?_⟩, fun ns hp => .inl ?_, by simp [hquiet]⟩
  · rcases hcases k row hrow with ⟨rfl, rfl⟩ | hold
    · exact ⟨rfl, hchange⟩
    · obtain ⟨hkey, hc⟩ := hok.changes k row hold
      exact ⟨hkey, hc.terminal (hi k row hold) _⟩
  · rcases hcases k row hrow with ⟨rfl, rfl⟩ | hold
    · exact (hnew hnone).2 a x hx hne k' row' hrow'
    · exact h.apart t a tx x hget hx hne.symm k row k' row' hold hrow' hnone
  · rcases hcases k' row' hrow' with ⟨rfl, rfl⟩ | hold
    · cases hc : db.committed.get (rowKey row') with
      | none => exact ((hnew hc).2 a x hx hne k row hrow).symm
      | some old => exact apart_of_old (h.each a x hx) hrow hnone hc (hchange.old hc)
    · exact h.apart a t x tx hx hget hne k row k' row' hrow hold hnone
  · rcases isPending_iff.1 hp with ⟨operation, now, hpc, _⟩ | ⟨k, row, hrow, hnone, rfl⟩
    · have hpc : pc = .createCounted operation now := hpc
      simp [hpc, callOf] at hquiet
    · rcases hcases k row hrow with ⟨rfl, rfl⟩ | hold
      · exact (hnew hnone).1
      · exact isPending_iff.2 (.inr ⟨k, row, hold, hnone, rfl⟩)

end Moves

section Statements

variable {db db' : OpDb} {t : Nat} {tx : OpTx} {admitted : Namespace → Prop}

theorem ready_at (h : Ok db) (hget : db.txs.get t = some tx) {pc : Pc} (hpc : tx.pc = pc) :
    Ready db.committed { tx with pc := pc } := by
  subst hpc
  exact (h.each t tx hget).ready

theorem committed_key (h : Ok db) {k : Key} {row : OperationRecord}
    (hrow : db.committed.get k = some row) : db.committed.get (rowKey row) = some row :=
  (h.keyed k row hrow).symm ▸ hrow

theorem mem_existing {operation row : OperationRecord} :
    row ∈ existing db tx operation ↔
      (∃ k, (db.visible tx).get k = some row) ∧
        row.idempotencyIndex = operation.idempotencyIndex := by
  rw [existing, mem_rowsWhere, decide_eq_true_eq]

theorem newIndex_of_existing (hu : Untouched tx) {operation : OperationRecord}
    (h : existing db tx operation = []) : NewIndex db.committed operation := by
  intro k r hr hsame
  have hmem : r ∈ existing db tx operation :=
    mem_existing.2 ⟨⟨k, (visible_untouched hu k).trans hr⟩, hsame⟩
  rw [h] at hmem
  cases hmem

theorem lockWorkstation_moves (h : Ok db) (hget : db.txs.get t = some tx)
    {tables : CatalogTables} {clock : Int}
    (hstep : lockWorkstation db t tx tables clock = some db') : Moves db t tx admitted db' := by
  unfold lockWorkstation at hstep
  split at hstep
  · next args hpc =>
    have hu : Untouched tx := (ready_at h hget hpc).1
    split at hstep
    · refine lockThen_moves h hget ?_ (by simp [callOf]) hstep
      exact hu
    · exact Option.some.inj hstep ▸ raise_moves h
  · next target work hpc =>
    have hu : Untouched tx := (ready_at h hget hpc).1
    split at hstep
    · refine lockThen_moves h hget ?_ (by simp [callOf]) hstep
      exact hu
    · exact Option.some.inj hstep ▸ raise_moves h
  · next operation hpc =>
    obtain ⟨hu, hs, hlock⟩ := ready_at h hget hpc
    split at hstep
    · refine lockThen_moves h hget ?_ ?_ hstep
      · exact ⟨hu, hs, List.mem_cons_of_mem _ hlock⟩
      · exact continues_of (by rw [hpc]; rfl) rfl (by simp [hpc, Early]) (by simp)
    · exact Option.some.inj hstep ▸ raise_moves h
  · cases hstep

theorem readDue_moves (h : Ok db) (hget : db.txs.get t = some tx) {now : Int}
    (hstep : readDue db t tx now = some db') : Moves db t tx admitted db' := by
  unfold readDue at hstep
  split at hstep
  · next args hpc =>
    have hu : Untouched tx := ready_at h hget hpc
    obtain rfl := Option.some.inj hstep
    exact goto_moves h hget (inactive_of_untouched hu) (by simp [callOf])
  · cases hstep

theorem refreshRow_moves (h : Ok db) (hget : db.txs.get t = some tx) {key : Key}
    (hstep : refreshRow db t tx key = some db') : Moves db t tx admitted db' := by
  unfold refreshRow at hstep
  split at hstep
  · next args now due hpc =>
    have hi : Inactive tx := ready_at h hget hpc
    split at hstep
    · cases hstep
    · next state _ =>
      split at hstep
      · next hfree =>
        have hmove : Moves db t tx admitted
            (goto db t { tx with locks := (.inl key, .update) :: tx.locks }
              (.leaseRefreshing args now (due.filter fun d => d.1 ≠ key))) := by
          refine lockThen_moves h hget ?_ (by simp [callOf]) (if_pos hfree)
          exact hi
        simp only at hstep
        split at hstep
        · exact Option.some.inj hstep ▸ hmove
        · next row hrow =>
          split at hstep
          · next hdue =>
            split at hstep
            · exact Option.some.inj hstep ▸ raise_moves h
            · next next hnext =>
              obtain rfl := Option.some.inj hstep
              obtain ⟨hid, hterm⟩ := refreshStatement_terminal hnext
              have hold := committed_of_visible hi hrow (not_terminal_of_due hdue.1)
              have hkey : rowKey next = key :=
                (rowKey_of_identity hid).trans (h.keyed key row hold)
              subst hkey
              refine write_moves h hget rfl hi (h.locks.acquire_write hget hfree next _)
                (.lessened row hold (.ended hid hterm)) (fun k own hown => ?_) (by simp [callOf])
                fun hnone => ?_
              · rw [Dict.get_set] at hown
                split at hown
                · exact Option.some.inj hown ▸ hterm
                · exact hi k own hown
              · rw [hnone] at hold
                cases hold
          · exact Option.some.inj hstep ▸ hmove
      · cases hstep
  · cases hstep

theorem checkActive_moves (h : Ok db) (hget : db.txs.get t = some tx) {leaseNow : Int}
    (hstep : checkActive db t tx leaseNow = some db') : Moves db t tx admitted db' := by
  unfold checkActive at hstep
  split at hstep
  · next args now hpc =>
    have hi : Inactive tx := ready_at h hget hpc
    split at hstep
    · obtain rfl := Option.some.inj hstep
      exact goto_moves h hget hi (by simp [callOf])
    · obtain rfl := Option.some.inj hstep
      exact goto_moves h hget trivial (by simp [callOf])
  · cases hstep

theorem selectNext_moves (h : Ok db) (hget : db.txs.get t = some tx)
    (hstep : selectNext db t tx = some db') : Moves db t tx admitted db' := by
  unfold selectNext at hstep
  split at hstep
  · next args leaseNow hpc =>
    have hi : Inactive tx := ready_at h hget hpc
    simp only at hstep
    split at hstep
    · obtain rfl := Option.some.inj hstep
      exact goto_moves h hget trivial (by simp [callOf])
    · next row hrow =>
      obtain ⟨⟨k, hk⟩, hp⟩ := mem_rowsWhere.1 (InMemory.earliest_mem hrow)
      simp only [Bool.and_eq_true, decide_eq_true_eq] at hp
      obtain ⟨⟨_, _, hcreated, _⟩, _⟩ := hp
      have hterm : row.state.isTerminal = false := by rw [hcreated]; rfl
      have hold := committed_key h (committed_of_visible hi hk hterm)
      refine lockThen_moves h hget ?_ (by simp [callOf]) hstep
      exact ⟨hi, ⟨hold, List.mem_cons_self⟩, hcreated⟩
  · cases hstep

theorem writeLease_moves (h : Ok db) (hget : db.txs.get t = some tx)
    (hstep : writeLease db t tx = some db') : Moves db t tx admitted db' := by
  unfold writeLease at hstep
  split at hstep
  · next args leaseNow record hpc =>
    obtain ⟨hi, hheld, hcreated⟩ := ready_at h hget hpc
    split at hstep
    · exact Option.some.inj hstep ▸ raise_moves h
    · next leased hleased =>
      obtain rfl := Option.some.inj hstep
      have hless := leased_lessened hcreated hleased
      have hkey := rowKey_of_identity hless.identity
      have hold := hkey ▸ hheld.1
      refine write_moves h hget rfl hi (h.locks.write hget (hkey ▸ hheld.2) leased _)
        (.lessened record hold hless) trivial rfl fun hnone => ?_
      rw [hnone] at hold
      cases hold
  · cases hstep

theorem lockOperation_moves (h : Ok db) (hget : db.txs.get t = some tx)
    (hstep : lockOperation db t tx = some db') : Moves db t tx admitted db' := by
  unfold lockOperation at hstep
  split at hstep
  · next target work hpc =>
    have hu : Untouched tx := ready_at h hget hpc
    split at hstep
    · obtain rfl := Option.some.inj hstep
      exact goto_moves h hget trivial (by simp [callOf])
    · next row hrow =>
      split at hstep
      · obtain rfl := Option.some.inj hstep
        exact goto_moves h hget trivial (by simp [callOf])
      · rw [visible_untouched hu] at hrow
        refine lockThen_moves h hget ?_ (by simp [callOf]) hstep
        exact ⟨hu, committed_key h hrow, h.keyed _ row hrow ▸ List.mem_cons_self⟩
  · next tenantId operationId hpc =>
    have hu : Untouched tx := (ready_at h hget hpc).1
    split at hstep
    · obtain rfl := Option.some.inj hstep
      exact goto_moves h hget trivial (by simp [callOf])
    · next row hrow =>
      rw [visible_untouched hu] at hrow
      refine lockThen_moves h hget ?_ (by simp [callOf]) hstep
      exact ⟨hu, committed_key h hrow, h.keyed _ row hrow ▸ List.mem_cons_self⟩
  · cases hstep

theorem transition_moves (h : Ok db) (hget : db.txs.get t = some tx)
    {databaseNow completionNow : Int} {tables : CatalogTables}
    {upsertCatalog : Except String Unit}
    (hstep : transition db t tx databaseNow completionNow tables upsertCatalog = some db') :
    Moves db t tx admitted db' := by
  unfold transition at hstep
  split at hstep
  · next record work hpc =>
    obtain ⟨hu, hheld⟩ := ready_at h hget hpc
    split at hstep
    · exact Option.some.inj hstep ▸ raise_moves h
    · next status next hrun =>
      obtain rfl := Option.some.inj hstep
      have houtcome := outcome_lessened (Work.outcome hrun)
      have hid : next.identity = record.identity :=
        houtcome.elim (fun hless => hless.identity) fun hstart => hstart.1
      have hkey := rowKey_of_identity hid
      have hold := hkey ▸ hheld.1
      refine write_moves h hget rfl (inactive_of_untouched hu)
        (h.locks.write hget (hkey ▸ hheld.2) next _) ?_ trivial rfl fun hnone => ?_
      · rcases houtcome with hless | ⟨_, hs, hs'⟩
        · exact .lessened record hold hless
        · exact .started record hold hid hs hs' (sole_set hu _ _ _ _)
      · rw [hnone] at hold
        cases hold
  · cases hstep

theorem lockQuota_moves (h : Ok db) (hget : db.txs.get t = some tx)
    (hstep : lockQuota db t tx = some db') : Moves db t tx admitted db' := by
  unfold lockQuota at hstep
  split at hstep
  · next operation hpc =>
    obtain ⟨hu, haccepted⟩ := ready_at h hget hpc
    have hcreated : operation.state = .created := (of_decide_eq_true haccepted).2.1
    refine lockThen_moves h hget ?_ ?_ hstep
    · exact ⟨hu, hcreated, List.mem_cons_self⟩
    · exact continues_of (by rw [hpc]; rfl) rfl (fun _ => .inl (.inr rfl)) (by simp)
  · cases hstep

theorem findExisting_moves (h : Ok db) (hget : db.txs.get t = some tx)
    (hstep : findExisting db t tx = some db') : Moves db t tx admitted db' := by
  unfold findExisting at hstep
  simp only at hstep
  split at hstep
  · next operation hpc =>
    split at hstep
    · next hnone =>
      obtain rfl := Option.some.inj hstep
      have hready := ready_at h hget hpc
      have hnew : NewIndex db.committed operation := newIndex_of_existing hready.1 hnone
      exact goto_moves h hget hready
        (continues_of (by rw [hpc]; rfl) rfl (fun _ => .inr hnew) (by simp))
    · refine lockThen_moves h hget ?_ (by simp [callOf]) hstep
      exact trivial
  · next operation hpc =>
    split at hstep
    · exact Option.some.inj hstep ▸ raise_moves h
    · refine lockThen_moves h hget ?_ (by simp [callOf]) hstep
      exact trivial
  · cases hstep

/-- The quota check lets a namespace through that has room by its count. -/
theorem checkQuota_moves (h : Ok db) (hget : db.txs.get t = some tx) {databaseNow : Int}
    {tables : CatalogTables} {maxActive : Nat}
    (hstep : checkQuota db t tx databaseNow tables maxActive = some db') :
    Moves db t tx (fun ns => (activeRows db.committed ns databaseNow).length < maxActive) db' := by
  unfold checkQuota at hstep
  split at hstep
  · next operation hpc =>
    obtain ⟨hu, hready⟩ := ready_at h hget hpc
    split at hstep
    · exact Option.some.inj hstep ▸ raise_moves h
    · split at hstep
      · exact Option.some.inj hstep ▸ raise_moves h
      · next hcount =>
        obtain rfl := Option.some.inj hstep
        refine goto_moves h hget ⟨hu, hready⟩
          (continues_of (by rw [hpc]; rfl) rfl (by simp [hpc, Early]) fun _ _ => ?_)
        have hvisible := @length_rowsWhere_le (db.visible tx) db.committed
          (countsForQuota operation · databaseNow) (counts (namespaceOf operation) databaseNow) []
          fun k row hrow hcounted =>
            .inr ⟨row, (visible_untouched hu k).trans hrow, (countsForQuota_eq _ _ _).trans hcounted⟩
        simp only [List.length_nil] at hvisible
        simp only [activeRows]
        omega
  · cases hstep

theorem insert_moves (h : Ok db) (hget : db.txs.get t = some tx)
    (hstep : Transactions.insert db t tx = some db') : Moves db t tx admitted db' := by
  unfold Transactions.insert at hstep
  split at hstep
  · next operation databaseNow hpc =>
    obtain ⟨hu, hcreated, hlock⟩ := ready_at h hget hpc
    simp only at hstep
    split at hstep
    · cases hstep
    · next hwaits =>
      split at hstep
      · obtain rfl := Option.some.inj hstep
        exact goto_moves h hget ⟨hu, hcreated, hlock⟩
          (continues_of (by rw [hpc]; rfl) rfl (by simp [hpc, Early]) (by simp))
      · next hnew =>
        obtain ⟨hkey, hindex⟩ := not_or.1 hnew
        have habsent : db.committed.get (rowKey operation) = none :=
          (visible_untouched hu _).symm.trans (not_not.1 hkey)
        have hfresh : NewIndex db.committed operation :=
          newIndex_of_existing hu (not_not.1 hindex)
        split at hstep
        · next hfree =>
          obtain rfl := Option.some.inj hstep
          refine write_moves h hget rfl (inactive_of_untouched hu)
            (h.locks.acquire_write hget hfree _ _) ?_ trivial rfl fun _ => ⟨?_, ?_⟩
          · exact .fresh habsent hcreated (sole_set hu _ _ _ _) (List.mem_cons_of_mem _ hlock)
              hfresh
          · exact isPending_iff.2 (.inl ⟨operation, databaseNow, hpc, rfl⟩)
          · intro a x hx hne k row hrow hsame
            refine hwaits (List.any_eq_true.2 ⟨(a, x), (Dict.mem_entries_iff _ _ _).2 hx, ?_⟩)
            refine Bool.and_eq_true_iff.2 ⟨decide_eq_true hne, List.any_eq_true.2 ⟨row, ?_,
              decide_eq_true (.inr hsame.symm)⟩⟩
            exact List.mem_map.2 ⟨(k, row), (Dict.mem_entries_iff _ _ _).2 hrow, rfl⟩
        · cases hstep
  · cases hstep

/-- What the quota check of an action lets through. -/
def Admitted (committed : Dict Key OperationRecord) (action : Action) (ns : Namespace) : Prop :=
  match action with
  | .checkQuota databaseNow _ maxActive => (activeRows committed ns databaseNow).length < maxActive
  | _ => False

/-- Every statement but the first and the last of a transaction. -/
theorem step_moves (h : Ok db) (hget : db.txs.get t = some tx) {action : Action}
    (hcommit : action ≠ .commit) (hstep : Transactions.step db (t, action) = some db') :
    Moves db t tx (Admitted db.committed action) db' := by
  cases action with
  | «begin» call => simp [Transactions.step, hget] at hstep
  | lockWorkstation tables clock =>
    exact lockWorkstation_moves h hget (by simpa only [Transactions.step, hget] using hstep)
  | readDue now => exact readDue_moves h hget (by simpa only [Transactions.step, hget] using hstep)
  | refreshRow key =>
    exact refreshRow_moves h hget (by simpa only [Transactions.step, hget] using hstep)
  | checkActive leaseNow =>
    exact checkActive_moves h hget (by simpa only [Transactions.step, hget] using hstep)
  | selectNext => exact selectNext_moves h hget (by simpa only [Transactions.step, hget] using hstep)
  | writeLease => exact writeLease_moves h hget (by simpa only [Transactions.step, hget] using hstep)
  | lockOperation =>
    exact lockOperation_moves h hget (by simpa only [Transactions.step, hget] using hstep)
  | transition databaseNow completionNow tables upsertCatalog =>
    exact transition_moves h hget (by simpa only [Transactions.step, hget] using hstep)
  | lockQuota => exact lockQuota_moves h hget (by simpa only [Transactions.step, hget] using hstep)
  | findExisting =>
    exact findExisting_moves h hget (by simpa only [Transactions.step, hget] using hstep)
  | checkQuota databaseNow tables maxActive =>
    exact checkQuota_moves h hget (by simpa only [Transactions.step, hget] using hstep)
  | insert => exact insert_moves h hget (by simpa only [Transactions.step, hget] using hstep)
  | commit => exact absurd rfl hcommit
  | abort =>
    simp only [Transactions.step, hget] at hstep
    exact Option.some.inj hstep ▸ raise_moves h

end Statements

end CadPlot.Gateway.Quota
