import Mathlib.Data.List.Basic

/-!
# A database with one writer at a time

A transaction that begins for writing takes the write lock and works on its own
copy of the committed state until it commits or rolls back. Whoever does not hold
the lock sees the committed state only, and nobody else can commit meanwhile.
-/

namespace CadPlot

structure Database (σ : Type) where
  committed : σ
  /-- Who holds the write lock, and what it has made of the committed state. -/
  writer : Option (Nat × σ)

namespace Database

variable {σ : Type} {db db' : Database σ} {n m : Nat} {s : σ}

/-- Take the write lock, if nobody holds it. -/
def acquire (db : Database σ) (n : Nat) : Option (Database σ) :=
  match db.writer with
  | none => some { db with writer := some (n, db.committed) }
  | some _ => none

/-- What the holder of the lock sees. -/
def staged (db : Database σ) (n : Nat) : Option σ :=
  match db.writer with
  | some (m, s) => if m = n then some s else none
  | none => none

def stage (db : Database σ) (n : Nat) (s : σ) : Database σ := { db with writer := some (n, s) }

def commit (db : Database σ) (n : Nat) : Option (Database σ) :=
  (db.staged n).map fun s => ⟨s, none⟩

/-- Give up what was not committed, and the lock. -/
def rollback (db : Database σ) (n : Nat) : Database σ :=
  if (db.staged n).isSome then { db with writer := none } else db

theorem staged_eq : db.staged n = some s ↔ db.writer = some (n, s) := by
  unfold staged
  split
  · next m s' h =>
    split
    · next hm => simp [h, hm]
    · next hm => simp [h, hm]
  · next h => simp [h]

theorem acquire_eq (h : db.acquire n = some db') :
    db.writer = none ∧ db' = ⟨db.committed, some (n, db.committed)⟩ := by
  unfold acquire at h
  split at h
  · next hnone => exact ⟨hnone, (Option.some.inj h).symm⟩
  · cases h

theorem commit_eq (h : db.commit n = some db') :
    ∃ s, db.writer = some (n, s) ∧ db' = ⟨s, none⟩ := by
  obtain ⟨s, hs, rfl⟩ := Option.map_eq_some_iff.1 h
  exact ⟨s, staged_eq.1 hs, rfl⟩

@[simp] theorem stage_committed : (db.stage n s).committed = db.committed := rfl

@[simp] theorem stage_writer : (db.stage n s).writer = some (n, s) := rfl

@[simp] theorem rollback_committed : (db.rollback n).committed = db.committed := by
  unfold rollback
  split <;> rfl

/-- Only the holder of the lock sees staged tables. -/
theorem staged_other (h : db.staged n = some s) (hne : m ≠ n) : db.staged m = none := by
  simp [staged, staged_eq.1 h, Ne.symm hne]

theorem staged_rollback_other (hne : m ≠ n) : (db.rollback n).staged m = db.staged m := by
  unfold rollback
  split
  · next hsome =>
    obtain ⟨s, hs⟩ := Option.isSome_iff_exists.1 hsome
    rw [staged_other hs hne]
    rfl
  · rfl

theorem writer_of_rollback (h : (db.rollback n).writer = some (m, s)) :
    db.writer = some (m, s) := by
  unfold rollback at h
  split at h
  · cases h
  · exact h

theorem rollback_other (h : db.writer = some (m, s)) (hne : m ≠ n) : db.rollback n = db := by
  unfold rollback
  rw [staged_other (staged_eq.2 h) hne.symm]
  rfl

theorem staged_stage (n : Nat) (s : σ) : (db.stage n s).staged n = some s :=
  staged_eq.2 rfl

/-- The holder of the lock stages anew. -/
theorem staged_stage_other {old : σ} (h : db.staged n = some old) (hne : m ≠ n) :
    (db.stage n s).staged m = db.staged m := by
  rw [staged_other (staged_stage n s) hne, staged_other h hne]

theorem acquire_staged (h : db.acquire n = some db') : db'.staged n = some db.committed := by
  obtain ⟨_, rfl⟩ := acquire_eq h
  exact staged_eq.2 rfl

theorem acquire_committed (h : db.acquire n = some db') : db'.committed = db.committed := by
  obtain ⟨_, rfl⟩ := acquire_eq h
  rfl

theorem acquire_staged_other (h : db.acquire n = some db') (hne : m ≠ n) :
    db'.staged m = db.staged m := by
  rw [staged_other (acquire_staged h) hne]
  obtain ⟨hnone, _⟩ := acquire_eq h
  simp [staged, hnone]

end Database

end CadPlot
