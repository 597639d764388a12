import CadPlot.Lib.Dict

/-!
# Read-committed transactions with row locks

Any number of open transactions over one table. A transaction holds locks on
rows of the table and on other resources, in share or update mode, and keeps its
row versions to itself until it commits. A statement sees the committed rows and
the transaction's own versions. Locks last until the transaction ends.
-/

namespace CadPlot.ReadCommitted

inductive LockMode where
  | share | update
  deriving DecidableEq, Repr

def compatible : LockMode → LockMode → Bool
  | .share, .share => true
  | _, _ => false

theorem compatible_comm (a b : LockMode) : compatible a b = compatible b a := by
  cases a <;> cases b <;> rfl

/-- A transaction over rows `κ → ν` and further lockable resources `ρ`, at a point `π` of its
program. -/
structure Tx (κ ρ ν π : Type) where
  locks : List ((κ ⊕ ρ) × LockMode)
  writes : Dict κ ν
  pc : π

structure Db (κ ρ ν π : Type) where
  committed : Dict κ ν
  txs : Dict Nat (Tx κ ρ ν π)

variable {κ ρ ν π : Type} [DecidableEq κ]

namespace Db

def setTx (db : Db κ ρ ν π) (t : Nat) (tx : Tx κ ρ ν π) : Db κ ρ ν π :=
  { db with txs := db.txs.set t tx }

/-- No other transaction holds a lock on the target that excludes this mode. -/
def free [DecidableEq ρ] (db : Db κ ρ ν π) (t : Nat) (target : κ ⊕ ρ) (mode : LockMode) : Bool :=
  db.txs.entries.all fun e =>
    decide (e.1 = t) || e.2.locks.all fun l => !decide (l.1 = target) || compatible mode l.2

/-- The rows that a statement of the transaction sees. -/
def visible (db : Db κ ρ ν π) (tx : Tx κ ρ ν π) : Dict κ ν := db.committed.overlay tx.writes

/-- Publish the row versions of a transaction and give up its locks. -/
def commit (db : Db κ ρ ν π) (t : Nat) (tx : Tx κ ρ ν π) (closed : π) : Db κ ρ ν π where
  committed := db.committed.overlay tx.writes
  txs := db.txs.set t ⟨[], .empty, closed⟩

/-- Drop the row versions of a transaction and give up its locks. -/
def rollback (db : Db κ ρ ν π) (t : Nat) (closed : π) : Db κ ρ ν π :=
  db.setTx t ⟨[], .empty, closed⟩

omit [DecidableEq κ] in
@[simp] theorem setTx_committed (db : Db κ ρ ν π) (t : Nat) (tx : Tx κ ρ ν π) :
    (db.setTx t tx).committed = db.committed := rfl

omit [DecidableEq κ] in
theorem setTx_get (db : Db κ ρ ν π) (t t' : Nat) (tx : Tx κ ρ ν π) :
    (db.setTx t tx).txs.get t' = if t = t' then some tx else db.txs.get t' :=
  Dict.get_set _ _ _ _

theorem visible_get (db : Db κ ρ ν π) (tx : Tx κ ρ ν π) (k : κ) :
    (db.visible tx).get k = (tx.writes.get k).or (db.committed.get k) :=
  Dict.get_overlay _ _ _

theorem free_iff [DecidableEq ρ] (db : Db κ ρ ν π) (t : Nat) (target : κ ⊕ ρ) (mode : LockMode) :
    db.free t target mode = true ↔ ∀ t' tx, db.txs.get t' = some tx → t' ≠ t →
      ∀ l ∈ tx.locks, l.1 = target → compatible mode l.2 = true := by
  simp only [free, List.all_eq_true, Bool.or_eq_true, decide_eq_true_eq, Bool.not_eq_true',
    decide_eq_false_iff_not]
  constructor
  · intro h t' tx hget hne l hl htarget
    have hmem := (Dict.mem_entries_iff _ t' tx).2 hget
    exact ((h (t', tx) hmem).resolve_left hne l hl).resolve_left (not_not_intro htarget)
  · rintro h ⟨t', tx⟩ hmem
    have hget := (Dict.mem_entries_iff _ t' tx).1 hmem
    by_cases ht : t' = t
    · exact .inl ht
    · refine .inr fun l hl => ?_
      by_cases htarget : l.1 = target
      · exact .inr (h t' tx hget ht l hl htarget)
      · exact .inl htarget

end Db

/-- Locks of different transactions on one target are compatible, and a row version is only made
under an update lock on its row. -/
structure WellLocked (db : Db κ ρ ν π) : Prop where
  exclusive : ∀ t t' tx tx', db.txs.get t = some tx → db.txs.get t' = some tx' → t ≠ t' →
    ∀ l ∈ tx.locks, ∀ l' ∈ tx'.locks, l.1 = l'.1 → compatible l.2 l'.2 = true
  owned : ∀ t tx k r, db.txs.get t = some tx → tx.writes.get k = some r →
    (Sum.inl k, LockMode.update) ∈ tx.locks

variable {db : Db κ ρ ν π} {t : Nat} {tx tx' : Tx κ ρ ν π}

/-- Replacing one transaction keeps the locks well when its new locks are compatible with the
others and its row versions are locked. -/
theorem WellLocked.setTx (h : WellLocked db)
    (hex : ∀ t' x, db.txs.get t' = some x → t' ≠ t → ∀ l ∈ tx'.locks, ∀ l' ∈ x.locks,
      l.1 = l'.1 → compatible l.2 l'.2 = true)
    (hown : ∀ k r, tx'.writes.get k = some r → (Sum.inl k, LockMode.update) ∈ tx'.locks) :
    WellLocked (db.setTx t tx') where
  exclusive a b x y hx hy hne := by
    rw [Db.setTx_get] at hx hy
    by_cases ha : t = a
    · by_cases hb : t = b
      · exact absurd (ha.symm.trans hb) hne
      · rw [if_pos ha] at hx
        rw [if_neg hb] at hy
        obtain rfl := Option.some.inj hx
        exact hex b y hy (Ne.symm hb)
    · rw [if_neg ha] at hx
      by_cases hb : t = b
      · rw [if_pos hb] at hy
        obtain rfl := Option.some.inj hy
        intro l hl l' hl' heq
        rw [compatible_comm]
        exact hex a x hx (Ne.symm ha) l' hl' l hl heq.symm
      · rw [if_neg hb] at hy
        exact h.exclusive a b x y hx hy hne
  owned a x k r hx hr := by
    rw [Db.setTx_get] at hx
    by_cases ha : t = a
    · rw [if_pos ha] at hx
      obtain rfl := Option.some.inj hx
      exact hown k r hr
    · rw [if_neg ha] at hx
      exact h.owned a x k r hx hr

theorem WellLocked.acquire [DecidableEq ρ] (h : WellLocked db) (hget : db.txs.get t = some tx) {target : κ ⊕ ρ}
    {mode : LockMode} (hfree : db.free t target mode = true) (pc : π) :
    WellLocked (db.setTx t { tx with locks := (target, mode) :: tx.locks, pc := pc }) := by
  refine h.setTx (fun t' x hx hne l hl l' hl' heq => ?_) fun k r hr => ?_
  · rcases List.mem_cons.1 hl with rfl | hl
    · exact (Db.free_iff db t target mode).1 hfree t' x hx hne l' hl' heq.symm
    · exact h.exclusive t t' tx x hget hx (Ne.symm hne) l hl l' hl' heq
  · exact List.mem_cons_of_mem _ (h.owned t tx k r hget hr)

theorem WellLocked.write (h : WellLocked db) (hget : db.txs.get t = some tx) {k : κ}
    (hlock : (Sum.inl k, LockMode.update) ∈ tx.locks) (r : ν) (pc : π) :
    WellLocked (db.setTx t { tx with writes := tx.writes.set k r, pc := pc }) := by
  refine h.setTx (fun t' x hx hne => ?_) fun k' r' hr' => ?_
  · exact h.exclusive t t' tx x hget hx (Ne.symm hne)
  · by_cases hk : k' = k
    · exact hk ▸ hlock
    · rw [Dict.get_set_other _ _ hk] at hr'
      exact h.owned t tx k' r' hget hr'

/-- Lock a row and write it in one statement. -/
theorem WellLocked.acquire_write [DecidableEq ρ] (h : WellLocked db)
    (hget : db.txs.get t = some tx) {k : κ}
    (hfree : db.free t (.inl k) .update = true) (r : ν) (pc : π) :
    WellLocked (db.setTx t ⟨(.inl k, .update) :: tx.locks, tx.writes.set k r, pc⟩) := by
  refine h.setTx (fun t' x hx hne l hl l' hl' heq => ?_) fun k' r' hr' => ?_
  · rcases List.mem_cons.1 hl with rfl | hl
    · exact (Db.free_iff db t (.inl k) .update).1 hfree t' x hx hne l' hl' heq.symm
    · exact h.exclusive t t' tx x hget hx (Ne.symm hne) l hl l' hl' heq
  · by_cases hk : k' = k
    · exact hk ▸ List.mem_cons_self
    · rw [Dict.get_set_other _ _ hk] at hr'
      exact List.mem_cons_of_mem _ (h.owned t tx k' r' hget hr')

theorem WellLocked.move (h : WellLocked db) (hget : db.txs.get t = some tx) (pc : π) :
    WellLocked (db.setTx t { tx with pc := pc }) :=
  h.setTx (fun t' x hx hne => h.exclusive t t' tx x hget hx (Ne.symm hne)) fun k r hr =>
    h.owned t tx k r hget hr

theorem WellLocked.rollback (h : WellLocked db) (closed : π) :
    WellLocked (db.rollback t closed) :=
  h.setTx (by simp) (by simp)

theorem WellLocked.commit (h : WellLocked db) (closed : π) :
    WellLocked (db.commit t tx closed) :=
  ⟨(h.rollback closed).exclusive, (h.rollback closed).owned⟩

/-- A transaction has no version of a row that another has locked in either mode. -/
theorem WellLocked.writes_disjoint (h : WellLocked db) {t' : Nat} (hget : db.txs.get t = some tx)
    (hget' : db.txs.get t' = some tx') (hne : t ≠ t') {k : κ} {mode : LockMode}
    (hlock : (Sum.inl k, mode) ∈ tx'.locks) : tx.writes.get k = none := by
  cases hr : tx.writes.get k with
  | none => rfl
  | some r =>
    have hc := h.exclusive t t' tx tx' hget hget' hne _ (h.owned t tx k r hget hr) _ hlock rfl
    cases mode <;> simp [compatible] at hc

/-- A row that another transaction has locked survives a commit. -/
theorem WellLocked.committed_stable (h : WellLocked db) {t' : Nat}
    (hget : db.txs.get t = some tx) (hget' : db.txs.get t' = some tx') (hne : t ≠ t') {k : κ}
    {mode : LockMode} (hlock : (Sum.inl k, mode) ∈ tx'.locks) (closed : π) :
    (db.commit t tx closed).committed.get k = db.committed.get k := by
  have hnone := h.writes_disjoint hget hget' hne hlock
  simp [Db.commit, Dict.get_overlay, hnone]

/-- A property of every open transaction and what it can rely on of the committed rows. -/
def Each (P : Dict κ ν → Tx κ ρ ν π → Prop) (db : Db κ ρ ν π) : Prop :=
  ∀ t tx, db.txs.get t = some tx → P db.committed tx

variable {P : Dict κ ν → Tx κ ρ ν π → Prop}

omit [DecidableEq κ] in
theorem Each.setTx (h : Each P db) (htx : P db.committed tx) : Each P (db.setTx t tx) := by
  intro a x hx
  rw [Db.setTx_get] at hx
  split at hx
  · exact Option.some.inj hx ▸ htx
  · exact h a x hx

/-- A commit keeps a property that relies on locked rows only. -/
theorem Each.commit (h : Each P db) (hl : WellLocked db) (hget : db.txs.get t = some tx) {closed : π}
    (hclosed : ∀ c, P c ⟨[], .empty, closed⟩)
    (hstable : ∀ c c' x, P c x →
      (∀ k, (Sum.inl k, LockMode.update) ∈ x.locks → c'.get k = c.get k) → P c' x) :
    Each P (db.commit t tx closed) := by
  intro a x hx
  have hset : (db.txs.set t ⟨[], .empty, closed⟩).get a = some x := hx
  rw [Dict.get_set] at hset
  split at hset
  · exact Option.some.inj hset ▸ hclosed _
  · next hne =>
    exact hstable _ _ x (h a x hset) fun k hlock =>
      hl.committed_stable hget hset hne hlock closed

end CadPlot.ReadCommitted
