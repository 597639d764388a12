import CadPlot.Gateway.ReplayLaws
import CadPlot.Gateway.ReplaySql

/-!
# The durable replay functions keep the same ledger

What a transaction relies on of the committed rows is under its row locks, so
that the transactions of others cannot take it away. A commit then is one move
of the ledger, and every other query none.
-/

namespace CadPlot.Gateway.ReplaySql

open ReadCommitted Replay Leases

def Untouched (tx : ReplayTx) : Prop := ∀ k, tx.writes.get k = none

/-- The one version that a transaction has written. -/
def Wrote (tx : ReplayTx) (k : Key) (row : ReplayRow) : Prop :=
  ∀ k', tx.writes.get k' = if k = k' then some row else none

def Locked (committed : Dict Key ReplayRow) (tx : ReplayTx) (k : Key) (row : ReplayRow) : Prop :=
  committed.get k = some row ∧ (Sum.inl k, LockMode.update) ∈ tx.locks

/-- No other applier has a lease that runs at a reading of the clock. -/
def FreeFor (row : ReplayRow) (applicationId : Uuid) (reading : Int) : Prop :=
  ∀ holder expiry, row.application = some (holder, expiry) →
    holder = applicationId ∨ expiry ≤ reading

/-- What a transaction knows where it stands. -/
def Standing (clock : Int) (committed : Dict Key ReplayRow) (tx : ReplayTx) : Prop :=
  match tx.pc with
  | .closed | .refused _ | .done _ _ | .claimDispatched .. | .claimLocked .. | .claimAbsent ..
  | .claimTimely .. | .claimNotInserted _ => Untouched tx
  | .entered _ since => Untouched tx ∧ since ≤ clock
  | .claimInserted args =>
    (Wrote tx args.key (.inserted args.binding) ∧
      (Sum.inl args.key, LockMode.update) ∈ tx.locks) ∧ committed.get args.key = none
  | .acquireLocked args _ _ existing =>
    Untouched tx ∧ Locked committed tx args.key existing ∧ existing.binding = args.binding ∧
      existing.appliedAt = none
  | .acquireFree args applicationId _ databaseNow =>
    Untouched tx ∧ databaseNow ≤ clock ∧ ∃ row, Locked committed tx args.key row ∧
      row.binding = args.binding ∧ row.appliedAt = none ∧ FreeFor row applicationId databaseNow
  | .acquireWritten args applicationId databaseNow expiry =>
    databaseNow ≤ clock ∧ ∃ row, Locked committed tx args.key row ∧
      row.binding = args.binding ∧ row.appliedAt = none ∧
      FreeFor row applicationId databaseNow ∧ Wrote tx args.key (row.leased applicationId expiry)
  | .markFound args applicationId since found checkedAt =>
    Untouched tx ∧ since ≤ checkedAt ∧ checkedAt ≤ clock ∧
      markable found args applicationId checkedAt = true
  | .markWritten args applicationId since checkedAt =>
    since ≤ checkedAt ∧ ∃ row appliedAt, Locked committed tx args.key row ∧
      markable row args applicationId checkedAt = true ∧ Wrote tx args.key (row.marked appliedAt)

/-- What is told to be an exact match is bound so, and only an insert is told to be the first. -/
def Told (committed : Dict Key ReplayRow) : Pc → Prop
  | .done args (.classification answer) =>
    answer ≠ .firstSeen ∧ (answer = .exactMatch → ∃ row, committed.get args.key = some row ∧
      row.binding = args.binding)
  | _ => True

/-- An acquisition that is not told of an application has seen that there is none. -/
def Reported (committed : Dict Key ReplayRow) : Pc → Prop
  | .done args (.classification answer) => Told committed (.done args (.classification answer))
  | .done args (.application status) =>
    status = .applied ∨ ∀ row, committed.get args.key = some row → row.binding = args.binding →
      row.appliedAt = none
  | _ => True

structure DbInv (clock : Int) (db : ReplayDb) : Prop where
  locks : WellLocked db
  each : Each (Standing clock) db

/-- A statement other than a commit replaces its own transaction. -/
structure Replaces (clock : Int) (db : ReplayDb) (t : Nat) (db' : ReplayDb) (tx : ReplayTx) : Prop
    where
  eq : db' = db.setTx t tx
  locks : WellLocked db'
  standing : Standing clock db.committed tx
  reported : Reported db.committed tx.pc

theorem Standing.mono {clock clock' : Int} {committed : Dict Key ReplayRow} {tx : ReplayTx}
    (h : Standing clock committed tx) (hle : clock ≤ clock') : Standing clock' committed tx := by
  cases hpc : tx.pc with
  | entered call since =>
    simp only [Standing, hpc] at h ⊢
    exact ⟨h.1, h.2.trans hle⟩
  | acquireFree args applicationId leaseSeconds databaseNow =>
    simp only [Standing, hpc] at h ⊢
    exact ⟨h.1, h.2.1.trans hle, h.2.2⟩
  | acquireWritten args applicationId databaseNow expiry =>
    simp only [Standing, hpc] at h ⊢
    exact ⟨h.1.trans hle, h.2⟩
  | markFound args applicationId since found checkedAt =>
    simp only [Standing, hpc] at h ⊢
    exact ⟨h.1, h.2.1, h.2.2.1.trans hle, h.2.2.2⟩
  | _ => simpa only [Standing, hpc] using h

/-- The commit of another transaction leaves the rows a transaction has locked. -/
theorem Standing.stable {clock : Int} {committed committed' : Dict Key ReplayRow} {tx : ReplayTx}
    (h : Standing clock committed tx)
    (hrows : ∀ k, (Sum.inl k, LockMode.update) ∈ tx.locks → committed'.get k = committed.get k) :
    Standing clock committed' tx := by
  have hlocked : ∀ k row, Locked committed tx k row → Locked committed' tx k row :=
    fun k row hl => ⟨(hrows k hl.2).trans hl.1, hl.2⟩
  cases hpc : tx.pc with
  | claimInserted args =>
    simp only [Standing, hpc] at h ⊢
    exact ⟨h.1, (hrows _ h.1.2).trans h.2⟩
  | acquireLocked args applicationId leaseSeconds existing =>
    simp only [Standing, hpc] at h ⊢
    exact ⟨h.1, hlocked _ _ h.2.1, h.2.2⟩
  | acquireFree args applicationId leaseSeconds databaseNow =>
    simp only [Standing, hpc] at h ⊢
    obtain ⟨hu, hle, row, hl, hrest⟩ := h
    exact ⟨hu, hle, row, hlocked _ _ hl, hrest⟩
  | acquireWritten args applicationId databaseNow expiry =>
    simp only [Standing, hpc] at h ⊢
    obtain ⟨hle, row, hl, hrest⟩ := h
    exact ⟨hle, row, hlocked _ _ hl, hrest⟩
  | markWritten args applicationId since checkedAt =>
    simp only [Standing, hpc] at h ⊢
    obtain ⟨hle, row, at', hl, hrest⟩ := h
    exact ⟨hle, row, at', hlocked _ _ hl, hrest⟩
  | _ => simpa only [Standing, hpc] using h

section Statements

variable {clock clock' : Int} {db db' : ReplayDb} {t : Nat} {tx : ReplayTx}

theorem DbInv.mono (h : DbInv clock db) (hle : clock ≤ clock') : DbInv clock' db :=
  ⟨h.locks, fun t tx hget => (h.each t tx hget).mono hle⟩

theorem standing_at (h : DbInv clock db) (hget : db.txs.get t = some tx) {pc : Pc}
    (hpc : tx.pc = pc) : Standing clock db.committed { tx with pc := pc } := by
  subst hpc
  exact h.each t tx hget

theorem visible_untouched (hu : Untouched tx) (k : Key) :
    (db.visible tx).get k = db.committed.get k := by
  simp [Db.visible_get, hu k]

theorem replaces_raise (h : DbInv clock db) :
    Replaces clock db t (raise db t) ⟨[], .empty, .closed⟩ :=
  ⟨rfl, h.locks.rollback .closed, Dict.get_empty, trivial⟩

theorem replaces_goto (h : DbInv clock db) (hget : db.txs.get t = some tx) {pc : Pc}
    (hstand : Standing clock' db.committed { tx with pc := pc })
    (hrep : Reported db.committed pc) :
    Replaces clock' db t (goto db t tx pc) { tx with pc := pc } :=
  ⟨rfl, h.locks.move hget pc, hstand, hrep⟩

theorem replaces_lock (h : DbInv clock db) (hget : db.txs.get t = some tx) {pc : Pc}
    {target : Key ⊕ Int} {mode : LockMode} (hfree : db.free t target mode = true)
    (hstand : Standing clock db.committed
      { tx with locks := (target, mode) :: tx.locks, pc := pc })
    (hrep : Reported db.committed pc) :
    Replaces clock db t
      (db.setTx t { tx with locks := (target, mode) :: tx.locks, pc := pc })
      { tx with locks := (target, mode) :: tx.locks, pc := pc } :=
  ⟨rfl, h.locks.acquire hget hfree pc, hstand, hrep⟩

theorem told_compared {args : Args} {row : ReplayRow} (hu : Untouched tx)
    (hrow : (db.visible tx).get args.key = some row) :
    Told db.committed (.done args (compared args row)) := by
  rw [visible_untouched hu] at hrow
  refine ⟨?_, fun hexact => ⟨row, hrow, ?_⟩⟩
  · split <;> simp
  · by_contra hne
    rw [if_neg hne] at hexact
    cases hexact

theorem told_other {committed : Dict Key ReplayRow} {args : Args}
    {answer : ResultReplayClassification} (h : answer = .unseen ∨ answer = .conflict) :
    Told committed (.done args (.classification answer)) := by
  obtain rfl | rfl := h <;> exact ⟨by simp, by simp⟩

theorem classifySelect_replaces (h : DbInv clock db) (hget : db.txs.get t = some tx)
    (hstep : classifySelect db t tx = some db') : ∃ tx', Replaces clock db t db' tx' := by
  unfold classifySelect at hstep
  split at hstep
  · next args since hpc =>
    obtain ⟨hu, _⟩ : Untouched tx ∧ since ≤ clock := standing_at h hget hpc
    split at hstep
    · obtain rfl := Option.some.inj hstep
      exact ⟨_, replaces_goto h hget hu (told_other (.inl rfl))⟩
    · next row hrow =>
      obtain rfl := Option.some.inj hstep
      exact ⟨_, replaces_goto h hget hu (told_compared hu hrow)⟩
  · cases hstep

theorem selectDispatch_replaces (h : DbInv clock db) (hget : db.txs.get t = some tx)
    {dispatch : Option (Int × Int)} (hstep : selectDispatch db t tx dispatch = some db') :
    ∃ tx', Replaces clock db t db' tx' := by
  unfold selectDispatch at hstep
  split at hstep
  · next args claimExpiresAt since hpc =>
    obtain ⟨hu, _⟩ : Untouched tx ∧ since ≤ clock := standing_at h hget hpc
    split at hstep
    · obtain rfl := Option.some.inj hstep
      exact ⟨_, replaces_goto h hget hu (told_other (.inr rfl))⟩
    · split at hstep
      · obtain rfl := Option.some.inj hstep
        exact ⟨_, replaces_goto h hget hu (told_other (.inr rfl))⟩
      · obtain rfl := Option.some.inj hstep
        exact ⟨_, replaces_goto h hget hu trivial⟩
  · cases hstep

theorem lockAdvisory_replaces (h : DbInv clock db) (hget : db.txs.get t = some tx)
    {hashtextextended : Key → Int} (hstep : lockAdvisory db t tx hashtextextended = some db') :
    ∃ tx', Replaces clock db t db' tx' := by
  unfold lockAdvisory at hstep
  split at hstep
  · next args claimExpiresAt operationExpiresAt hpc =>
    have hu : Untouched tx := standing_at h hget hpc
    split at hstep
    · next hfree =>
      obtain rfl := Option.some.inj hstep
      exact ⟨_, replaces_lock h hget hfree hu trivial⟩
    · cases hstep
  · cases hstep

theorem selectExisting_replaces (h : DbInv clock db) (hget : db.txs.get t = some tx)
    (hstep : selectExisting db t tx = some db') : ∃ tx', Replaces clock db t db' tx' := by
  unfold selectExisting at hstep
  split at hstep
  · next args claimExpiresAt operationExpiresAt hpc =>
    have hu : Untouched tx := standing_at h hget hpc
    split at hstep
    · next row hrow =>
      obtain rfl := Option.some.inj hstep
      exact ⟨_, replaces_goto h hget hu (told_compared hu hrow)⟩
    · obtain rfl := Option.some.inj hstep
      exact ⟨_, replaces_goto h hget hu trivial⟩
  · cases hstep

theorem checkDeadlines_replaces (h : DbInv clock db) (hget : db.txs.get t = some tx)
    {databaseNow : Int} (hstep : checkDeadlines db t tx databaseNow = some db') :
    ∃ tx', Replaces clock db t db' tx' := by
  unfold checkDeadlines at hstep
  split at hstep
  · next args claimExpiresAt operationExpiresAt hpc =>
    have hu : Untouched tx := standing_at h hget hpc
    split at hstep
    · obtain rfl := Option.some.inj hstep
      exact ⟨_, replaces_goto h hget hu (told_other (.inl rfl))⟩
    · obtain rfl := Option.some.inj hstep
      exact ⟨_, replaces_goto h hget hu trivial⟩
  · cases hstep

/-- Locking a row and writing its only version. -/
theorem replaces_write (h : DbInv clock db) (hget : db.txs.get t = some tx) {k : Key}
    {row : ReplayRow} {pc : Pc} (hfree : db.free t (.inl k) .update = true)
    (hstand : Standing clock' db.committed
      ⟨(.inl k, .update) :: tx.locks, tx.writes.set k row, pc⟩)
    (hrep : Reported db.committed pc) :
    Replaces clock' db t (writeRow db t tx k row pc)
      ⟨(.inl k, .update) :: tx.locks, tx.writes.set k row, pc⟩ :=
  ⟨rfl, h.locks.acquire_write hget hfree row pc, hstand, hrep⟩

/-- A lock that the transaction holds is free for it. -/
theorem free_of_held (h : DbInv clock db) (hget : db.txs.get t = some tx) {k : Key}
    (hlock : (Sum.inl k, LockMode.update) ∈ tx.locks) : db.free t (.inl k) .update = true :=
  (Db.free_iff db t _ _).2 fun t' x hx hne l hl heq =>
    h.locks.exclusive t t' tx x hget hx (Ne.symm hne) _ hlock l hl heq.symm

theorem wrote_set (hu : Untouched tx) (locks : List ((Key ⊕ Int) × LockMode)) (k : Key)
    (row : ReplayRow) (pc : Pc) : Wrote ⟨locks, tx.writes.set k row, pc⟩ k row := by
  intro k'
  rw [Dict.get_set, hu k']

theorem insertRow_replaces (h : DbInv clock db) (hget : db.txs.get t = some tx)
    {first second : Int} (hstep : insertRow db t tx first second = some db') :
    ∃ tx', Replaces clock db t db' tx' := by
  unfold insertRow at hstep
  split at hstep
  · next args claimExpiresAt operationExpiresAt hpc =>
    have hu : Untouched tx := standing_at h hget hpc
    split at hstep
    · obtain rfl := Option.some.inj hstep
      exact ⟨_, replaces_goto h hget hu trivial⟩
    · split at hstep
      · obtain rfl := Option.some.inj hstep
        exact ⟨_, replaces_goto h hget hu trivial⟩
      · next hnone =>
        split at hstep
        · next hfree =>
          obtain rfl := Option.some.inj hstep
          rw [visible_untouched hu] at hnone
          have hwrote := wrote_set hu ((.inl args.key, .update) :: tx.locks) args.key
            (.inserted args.binding) (.claimInserted args)
          exact ⟨_, replaces_write h hget hfree ⟨⟨hwrote, List.mem_cons_self⟩, hnone⟩ trivial⟩
        · cases hstep
  · cases hstep

theorem selectAgain_replaces (h : DbInv clock db) (hget : db.txs.get t = some tx)
    (hstep : selectAgain db t tx = some db') : ∃ tx', Replaces clock db t db' tx' := by
  unfold selectAgain at hstep
  split at hstep
  · next args hpc =>
    have hu : Untouched tx := standing_at h hget hpc
    split at hstep
    · obtain rfl := Option.some.inj hstep
      exact ⟨_, replaces_goto h hget hu (told_other (.inl rfl))⟩
    · next row hrow =>
      obtain rfl := Option.some.inj hstep
      exact ⟨_, replaces_goto h hget hu (told_compared hu hrow)⟩
  · cases hstep

theorem selectForUpdate_replaces (h : DbInv clock db) (hget : db.txs.get t = some tx)
    (hstep : selectForUpdate db t tx = some db') : ∃ tx', Replaces clock db t db' tx' := by
  unfold selectForUpdate at hstep
  split at hstep
  · next args applicationId leaseSeconds since hpc =>
    obtain ⟨hu, _⟩ : Untouched tx ∧ since ≤ clock := standing_at h hget hpc
    split at hstep
    · next hnone =>
      obtain rfl := Option.some.inj hstep
      rw [visible_untouched hu] at hnone
      exact ⟨_, replaces_goto h hget hu (.inr fun row hrow => by simp [hnone] at hrow)⟩
    · next row hrow =>
      rw [visible_untouched hu] at hrow
      split at hstep
      · next hfree =>
        obtain rfl := Option.some.inj hstep
        by_cases hbinding : row.binding = args.binding
        · by_cases happlied : row.appliedAt = none
          · simp only [hbinding, happlied, ne_eq, not_true_eq_false, ↓reduceIte]
            exact ⟨_, replaces_lock h hget hfree
              ⟨hu, ⟨hrow, List.mem_cons_self⟩, hbinding, happlied⟩ trivial⟩
          · simp only [hbinding, happlied, ne_eq, not_true_eq_false, not_false_eq_true, ↓reduceIte]
            exact ⟨_, replaces_lock h hget hfree hu (.inl rfl)⟩
        · simp only [hbinding, ne_eq, not_false_eq_true, ↓reduceIte]
          refine ⟨_, replaces_lock h hget hfree hu (.inr fun row' hrow' hsame => ?_)⟩
          rw [hrow] at hrow'
          exact absurd (Option.some.inj hrow' ▸ hsame) hbinding
      · cases hstep
  · cases hstep

theorem checkLease_replaces (h : DbInv clock db) (hget : db.txs.get t = some tx)
    {databaseNow : Int}
    (hstep : checkLease db t tx databaseNow = some db') :
    ∃ tx', Replaces databaseNow db t db' tx' := by
  unfold checkLease at hstep
  split at hstep
  · next args applicationId leaseSeconds existing hpc =>
    obtain ⟨hu, hlocked, hbinding, happlied⟩ := standing_at h hget hpc
    split at hstep
    · obtain rfl := Option.some.inj hstep
      refine ⟨_, replaces_goto h hget hu (.inr fun row hrow _ => ?_)⟩
      have hsame := Option.some.inj (hlocked.1.symm.trans hrow)
      exact hsame ▸ happlied
    · next hbusy =>
      obtain rfl := Option.some.inj hstep
      refine ⟨_, replaces_goto h hget ⟨hu, Int.le_refl _, existing, hlocked, hbinding, happlied,
        fun holder expiry happ => ?_⟩ trivial⟩
      simp only [busyFor, happ, decide_eq_true_eq] at hbusy
      by_cases hholder : holder = applicationId
      · exact .inl hholder
      · exact .inr (not_lt.1 fun hlt => hbusy ⟨hlt, hholder⟩)
  · cases hstep

theorem updateRow_eq {key : Key} {old new : ReplayRow} (hbinding : new.binding = old.binding)
    (hmarker : old.appliedAt = none ∨
      (new.application = old.application ∧ new.appliedAt = old.appliedAt)) (pc : Pc) :
    updateRow db t tx key old new pc = writeRow db t tx key new pc := by
  simp [updateRow, rejectWorkerReplayIdentityMutation, require, hbinding, hmarker, bind,
    Except.bind]

theorem updateLease_replaces (h : DbInv clock db) (hget : db.txs.get t = some tx)
    (hstep : updateLease db t tx = some db') : ∃ tx', Replaces clock db t db' tx' := by
  unfold updateLease at hstep
  split at hstep
  · next args applicationId leaseSeconds databaseNow hpc =>
    obtain ⟨hu, hle, existing, hlocked, hbinding, happlied, hfree⟩ := standing_at h hget hpc
    have hvisible : (db.visible tx).get args.key = some existing :=
      (visible_untouched hu args.key).trans hlocked.1
    simp only [hvisible, hbinding, happlied, and_self, ↓reduceIte, Option.some.injEq] at hstep
    subst hstep
    rw [updateRow_eq (by rfl) (.inl happlied)]
    have hwrote := wrote_set hu ((.inl args.key, .update) :: tx.locks) args.key
      (existing.leased applicationId (databaseNow + seconds leaseSeconds))
      (.acquireWritten args applicationId databaseNow (databaseNow + seconds leaseSeconds))
    exact ⟨_, replaces_write h hget (free_of_held h hget hlocked.2)
      ⟨hle, existing, ⟨hlocked.1, List.mem_cons_self⟩, hbinding, happlied, hfree, hwrote⟩ trivial⟩
  · cases hstep

theorem findMark_replaces (h : DbInv clock db) (hget : db.txs.get t = some tx) {reading : Int}
    (hle : clock ≤ reading) (hstep : findMark db t tx reading = some db') :
    ∃ tx', Replaces reading db t db' tx' := by
  unfold findMark at hstep
  split at hstep
  · next args applicationId since hpc =>
    obtain ⟨hu, hsince⟩ : Untouched tx ∧ since ≤ clock := standing_at h hget hpc
    split at hstep
    · obtain rfl := Option.some.inj hstep
      exact ⟨_, replaces_goto h hget hu trivial⟩
    · split at hstep
      · next hmark =>
        obtain rfl := Option.some.inj hstep
        exact ⟨_, replaces_goto h hget ⟨hu, hsince.trans hle, Int.le_refl _, hmark⟩ trivial⟩
      · obtain rfl := Option.some.inj hstep
        exact ⟨_, replaces_goto h hget hu trivial⟩
  · cases hstep

theorem marked_binding (row : ReplayRow) (appliedAt : Int) :
    (row.marked appliedAt).binding = row.binding := by
  unfold ReplayRow.marked
  split <;> rfl

/-- The marker of an applied row stays as it is. -/
theorem marked_of_applied {row : ReplayRow} (h : row.appliedAt ≠ none) (appliedAt : Int) :
    row.marked appliedAt = row := by
  unfold ReplayRow.marked
  split
  · next hnone _ => exact absurd hnone h
  · rfl

theorem marked_application (row : ReplayRow) (appliedAt : Int) :
    (row.marked appliedAt).application = row.application := by
  unfold ReplayRow.marked
  split
  · next happ => exact happ.symm
  · rfl

theorem updateMark_row_eq {args : Args} {row : ReplayRow} (appliedAt : Int) (pc : Pc) :
    updateRow db t tx args.key row (row.marked appliedAt) pc =
      writeRow db t tx args.key (row.marked appliedAt) pc := by
  refine updateRow_eq (marked_binding row appliedAt) ?_ pc
  by_cases happlied : row.appliedAt = none
  · exact .inl happlied
  · exact .inr ⟨marked_application row appliedAt, by rw [marked_of_applied happlied]⟩

theorem updateMark_replaces (h : DbInv clock db) (hget : db.txs.get t = some tx) {recheck : Bool}
    {reading appliedAt : Int} (hle : clock ≤ reading)
    (hstep : updateMark db t tx recheck reading appliedAt = some db') :
    ∃ tx', Replaces reading db t db' tx' := by
  unfold updateMark at hstep
  split at hstep
  · next args applicationId since found checkedAt hpc =>
    obtain ⟨hu, hsince, hchecked, hfound⟩ := standing_at h hget hpc
    have hwrite : ∀ row checked, since ≤ checked → db.free t (.inl args.key) .update = true →
        db.committed.get args.key = some row → markable row args applicationId checked = true →
        ∃ tx', Replaces reading db t (updateRow db t tx args.key row (row.marked appliedAt)
          (.markWritten args applicationId since checked)) tx' := by
      intro row checked hsince' hfree hrow hmark
      have hwrote := wrote_set hu ((.inl args.key, .update) :: tx.locks) args.key
        (row.marked appliedAt) (.markWritten args applicationId since checked)
      rw [updateMark_row_eq]
      exact ⟨_, replaces_write h hget hfree
        ⟨hsince', row, appliedAt, ⟨hrow, List.mem_cons_self⟩, hmark, hwrote⟩ trivial⟩
    split at hstep
    · next hfree =>
      split at hstep
      · obtain rfl := Option.some.inj hstep
        exact ⟨_, replaces_goto h hget hu trivial⟩
      · next row hrow =>
        have hcommitted : db.committed.get args.key = some row :=
          (visible_untouched hu args.key).symm.trans hrow
        split at hstep
        · next hsame =>
          obtain rfl := Option.some.inj hstep
          exact hwrite row checkedAt hsince hfree hcommitted (hsame.1 ▸ hfound)
        · split at hstep
          · next hmark =>
            obtain rfl := Option.some.inj hstep
            exact hwrite row reading ((hsince.trans hchecked).trans hle) hfree hcommitted hmark
          · obtain rfl := Option.some.inj hstep
            exact ⟨_, replaces_goto h hget hu trivial⟩
    · cases hstep
  · cases hstep

/-- What any query but a commit does, given the clock after its readings. -/
theorem statement_replaces {hashtextextended : Key → Int} {action : Action}
    (h : DbInv clock db) (hget : db.txs.get t = some tx)
    (htick : tick clock action.readings = some clock') (hcommit : action ≠ .commit)
    (hstep : statement hashtextextended db t tx action = some db') :
    ∃ reading tx', reading ≤ clock' ∧ Replaces reading db t db' tx' := by
  have hkeep : ∀ {now : Int}, now = clock' → (∃ tx', Replaces now db t db' tx') →
      ∃ reading tx', reading ≤ clock' ∧ Replaces reading db t db' tx' := by
    rintro now rfl ⟨tx', hrep⟩
    exact ⟨now, tx', Int.le_refl _, hrep⟩
  have hquiet : action.readings = [] → (∃ tx', Replaces clock db t db' tx') →
      ∃ reading tx', reading ≤ clock' ∧ Replaces reading db t db' tx' := by
    intro hnone
    rw [hnone] at htick
    exact hkeep (Option.some.inj htick)
  cases action with
  | «begin» session call => cases hstep
  | commit => exact absurd rfl hcommit
  | classifySelect => exact hquiet rfl (classifySelect_replaces h hget hstep)
  | selectDispatch dispatch => exact hquiet rfl (selectDispatch_replaces h hget hstep)
  | lockAdvisory => exact hquiet rfl (lockAdvisory_replaces h hget hstep)
  | selectExisting => exact hquiet rfl (selectExisting_replaces h hget hstep)
  | selectAgain => exact hquiet rfl (selectAgain_replaces h hget hstep)
  | selectForUpdate => exact hquiet rfl (selectForUpdate_replaces h hget hstep)
  | updateLease => exact hquiet rfl (updateLease_replaces h hget hstep)
  | abort => exact hquiet rfl ⟨_, Option.some.inj hstep ▸ replaces_raise h⟩
  | checkDeadlines databaseNow =>
    obtain ⟨hle, heq⟩ : clock ≤ databaseNow ∧ databaseNow = clock' := by
      simpa [tick, Action.readings] using htick
    exact hkeep heq (checkDeadlines_replaces (h.mono hle) hget hstep)
  | checkLease databaseNow =>
    obtain ⟨_, heq⟩ : clock ≤ databaseNow ∧ databaseNow = clock' := by
      simpa [tick, Action.readings] using htick
    exact hkeep heq (checkLease_replaces h hget hstep)
  | findMark reading =>
    obtain ⟨hle, heq⟩ : clock ≤ reading ∧ reading = clock' := by
      simpa [tick, Action.readings] using htick
    exact hkeep heq (findMark_replaces h hget hle hstep)
  | insertRow first second =>
    obtain ⟨hle, hle', heq⟩ : clock ≤ first ∧ first ≤ second ∧ second = clock' := by
      simpa [tick, Action.readings] using htick
    exact hkeep heq (insertRow_replaces (h.mono (hle.trans hle')) hget hstep)
  | updateMark recheck reading appliedAt =>
    obtain ⟨hle, hle', heq⟩ : clock ≤ reading ∧ reading ≤ appliedAt ∧ appliedAt = clock' := by
      simpa [tick, Action.readings] using htick
    obtain ⟨tx', hrep⟩ := updateMark_replaces h hget hle hstep
    exact ⟨reading, tx', heq ▸ hle', hrep⟩

end Statements

def World.ledger (w : World) : Ledger Key (Binding Int) Uuid where
  records k := (w.db.committed.get k).map fun row =>
    ⟨row.binding, row.application, row.appliedAt.isSome⟩
  granted := w.granted
  clock := w.clock

/-- The replay table as a system of numbered calls, one a transaction. -/
def sql (hashtextextended : Key → Int) : System World (Nat × Action) Key (Binding Int) Uuid
    ResultApplicationStatus where
  step := step hashtextextended
  start w := ∃ clock, w = ⟨⟨.empty, .empty⟩, clock, fun _ _ => none, []⟩
  ledger := World.ledger
  marking w e :=
    match e.2, w.db.txs.get e.1 with
    | .commit, some ⟨_, _, .markWritten args applicationId since checkedAt⟩ =>
      some (args.key, applicationId, since, checkedAt)
    | _, _ => none
  begun w n := w.db.txs.get n ≠ none
  answers := World.answers
  appliedAnswer := .applied

structure Inv (w : World) : Prop where
  db : DbInv w.clock w.db
  numbered : ∀ x ∈ w.answers, w.db.txs.get x.1 ≠ none

/-- One event: a new transaction, a query of an open one, or a commit. -/
inductive Evolves (w : World) (t : Nat) : Action → World → Prop where
  | opened {session : TenantId} {call : Call} {pc : Pc} (hnone : w.db.txs.get t = none)
    (hpc : pc = .entered call w.clock ∨ ∃ answer, pc = .refused answer) :
    Evolves w t (.begin session call) { w with db := w.db.setTx t ⟨[], .empty, pc⟩ }
  | queried {action : Action} {clock reading : Int} {tx' : ReplayTx} {db : ReplayDb}
    (hcommit : action ≠ .commit) (hopen : w.db.txs.get t ≠ none) (hle : w.clock ≤ clock)
    (hread : reading ≤ clock) (hrep : Replaces reading w.db t db tx') :
    Evolves w t action { w with db := db, clock := clock }
  | committed {tx : ReplayTx} (hget : w.db.txs.get t = some tx)
    (hcommit : commit w.db t tx = some (w.db.commit t tx .closed)) :
    Evolves w t .commit ⟨w.db.commit t tx .closed, w.clock, tx.pc.grant w.granted,
      tx.pc.report t ++ w.answers⟩

theorem tick_le {readings : List Int} {clock clock' : Int}
    (h : tick clock readings = some clock') : clock ≤ clock' := by
  induction readings generalizing clock with
  | nil => exact (Option.some.inj h).le
  | cons now rest ih =>
    simp only [tick] at h
    split at h
    · next hle => exact hle.trans (ih h)
    · cases h

theorem commit_eq {db db' : ReplayDb} {t : Nat} {tx : ReplayTx} (h : commit db t tx = some db') :
    db' = db.commit t tx .closed := by
  unfold commit at h
  split at h
  all_goals first
    | exact (Option.some.inj h).symm
    | cases h

section Worlds

variable {hashtextextended : Key → Int} {w w' : World} {t : Nat} {action : Action}

theorem step_evolves (hi : Inv w) (hstep : step hashtextextended w (t, action) = some w') :
    Evolves w t action w' := by
  unfold step at hstep
  split at hstep
  · cases hstep
  · next clock hclock =>
    cases hget : w.db.txs.get t with
    | none =>
      cases action with
      | «begin» session call =>
        simp only [hget, Option.some.injEq] at hstep
        subst hstep
        refine .opened hget ?_
        split
        · next answer _ => exact .inr ⟨answer, rfl⟩
        · exact .inl rfl
      | _ => simp [hget] at hstep
    | some tx =>
      simp only [hget] at hstep
      split at hstep
      · cases hstep
      · next db hstatement =>
        by_cases hcommit : action = .commit
        · subst hcommit
          obtain rfl := commit_eq hstatement
          obtain rfl := Option.some.inj hclock
          obtain rfl := Option.some.inj hstep
          exact .committed hget hstatement
        · have hstep' : w' = { w with db := db, clock := clock } := by
            cases action with
            | commit => exact absurd rfl hcommit
            | _ => exact (Option.some.inj hstep).symm
          obtain ⟨reading, tx', hread, hrep⟩ :=
            statement_replaces hi.db hget hclock hcommit hstatement
          exact hstep' ▸ .queried hcommit (by simp [hget]) (tick_le hclock) hread hrep

theorem replaces_inv {clock reading : Int} {db db' : ReplayDb} {tx' : ReplayTx}
    (h : DbInv clock db) (hread : reading ≤ clock) (hrep : Replaces reading db t db' tx') :
    DbInv clock db' :=
  ⟨hrep.locks, hrep.eq ▸ h.each.setTx (hrep.standing.mono hread)⟩

/-- A transaction number stays in use. -/
theorem setTx_used {db : ReplayDb} {n : Nat} (h : db.txs.get n ≠ none) (tx : ReplayTx) :
    (db.setTx t tx).txs.get n ≠ none := by
  rw [Db.setTx_get]
  split
  · simp
  · exact h

theorem report_number {pc : Pc} {x : Nat × Key × Binding Int × ResultApplicationStatus}
    (hx : x ∈ pc.report t) : x.1 = t := by
  unfold Pc.report at hx
  split at hx
  · exact congrArg Prod.fst (List.mem_singleton.1 hx)
  · exact congrArg Prod.fst (List.mem_singleton.1 hx)
  · cases hx

theorem evolves_inv (hi : Inv w) (h : Evolves w t action w') : Inv w' := by
  cases h with
  | @opened session call pc hnone hpc =>
    refine ⟨⟨hi.db.locks.setTx (by simp) (by simp), hi.db.each.setTx ?_⟩,
      fun x hx => setTx_used (hi.numbered x hx) _⟩
    rcases hpc with rfl | ⟨answer, rfl⟩
    · exact ⟨Dict.get_empty, Int.le_refl _⟩
    · exact Dict.get_empty
  | queried hcommit hopen hle hread hrep =>
    exact ⟨replaces_inv (hi.db.mono hle) hread hrep, fun x hx =>
      hrep.eq ▸ setTx_used (hi.numbered x hx) _⟩
  | @committed tx hget hcommit =>
    refine ⟨⟨hi.db.locks.commit .closed, hi.db.each.commit hi.db.locks hget
      (fun c => Dict.get_empty) fun _ _ _ hs hrows => hs.stable hrows⟩, fun x hx => ?_⟩
    have hused : ∀ n, w.db.txs.get n ≠ none →
        (w.db.setTx t ⟨[], .empty, .closed⟩).txs.get n ≠ none := fun n hn => setTx_used hn _
    rcases List.mem_append.1 hx with hnew | hold
    · exact hused _ (by rw [report_number hnew, hget]; simp)
    · exact hused _ (hi.numbered x hold)

def ReplayRow.record (row : ReplayRow) : Record (Binding Int) Uuid :=
  ⟨row.binding, row.application, row.appliedAt.isSome⟩

theorem ledger_record {k : Key} {row : ReplayRow} (h : w.db.committed.get k = some row) :
    w.ledger.records k = some row.record := by
  simp [World.ledger, h, ReplayRow.record]

/-- The records after a commit of one version. -/
theorem commit_records {tx : ReplayTx} {k : Key} {row : ReplayRow} (hw : Wrote tx k row)
    (granted : Key → Uuid → Option Int)
    (answers : List (Nat × Key × Binding Int × ResultApplicationStatus)) :
    (World.mk (w.db.commit t tx .closed) w.clock granted answers).ledger =
      { w.ledger.setRecord k row.record with granted := granted } := by
  simp only [World.ledger, Ledger.setRecord, Ledger.mk.injEq, and_true]
  funext k'
  have hget : (w.db.commit t tx .closed).committed.get k' =
      (tx.writes.get k').or (w.db.committed.get k') := Dict.get_overlay _ _ _
  rw [hget, hw k']
  by_cases hk : k = k'
  · subst hk
    simp [ReplayRow.record]
  · simp [hk, Ne.symm hk]

theorem commit_untouched {tx : ReplayTx} (hu : Untouched tx)
    (answers : List (Nat × Key × Binding Int × ResultApplicationStatus)) :
    (World.mk (w.db.commit t tx .closed) w.clock w.granted answers).ledger = w.ledger := by
  simp only [World.ledger, Ledger.mk.injEq, and_true]
  funext k
  have hget : (w.db.commit t tx .closed).committed.get k =
      (tx.writes.get k).or (w.db.committed.get k) := Dict.get_overlay _ _ _
  rw [hget, hu k, Option.none_or]

/-- A row that may be marked is applied already, or leased to the caller for longer. -/
theorem markable_iff {row : ReplayRow} {args : Args} {applicationId : Uuid} {reading : Int} :
    markable row args applicationId reading = true ↔ row.binding = args.binding ∧
      (row.appliedAt ≠ none ∨ ∃ expiry, row.application = some (applicationId, expiry) ∧
        reading < expiry) := by
  unfold markable
  cases row.application with
  | none => simp
  | some application =>
    obtain ⟨holder, expiry⟩ := application
    simp [Prod.ext_iff, and_assoc]

theorem setRecord_same {k : Key} {row : ReplayRow} (h : w.db.committed.get k = some row) :
    w.ledger.setRecord k row.record = w.ledger := by
  simp only [Ledger.setRecord, ← ledger_record h, Function.update_eq_self]

theorem marked_record {row : ReplayRow} {applicationId : Uuid} {expiry : Int}
    (hfresh : row.appliedAt = none) (happ : row.application = some (applicationId, expiry))
    (appliedAt : Int) : (row.marked appliedAt).record = { row.record with applied := true } := by
  simp [ReplayRow.marked, ReplayRow.record, hfresh, happ]

theorem commit_moves {tx : ReplayTx} (hi : Inv w) (hget : w.db.txs.get t = some tx)
    (hcommit : commit w.db t tx = some (w.db.commit t tx .closed)) :
    Moves w.ledger (World.mk (w.db.commit t tx .closed) w.clock (tx.pc.grant w.granted)
      (tx.pc.report t ++ w.answers)).ledger := by
  have hstand := hi.db.each t tx hget
  cases hpc : tx.pc with
  | refused answer =>
    simp only [Standing, hpc] at hstand
    simp only [Pc.grant]
    rw [commit_untouched hstand]
    exact .refl
  | done args answer =>
    simp only [Standing, hpc] at hstand
    simp only [Pc.grant]
    rw [commit_untouched hstand]
    exact .refl
  | claimInserted args =>
    simp only [Standing, hpc] at hstand
    simp only [Pc.grant]
    rw [commit_records hstand.1.1]
    exact .single (.bind (by simp [World.ledger, hstand.2]))
  | acquireWritten args applicationId databaseNow expiry =>
    simp only [Standing, hpc] at hstand
    obtain ⟨hle, row, hlocked, _, _, hfree, hwrote⟩ := hstand
    simp only [Pc.grant]
    rw [commit_records hwrote]
    exact .single (.grant (ledger_record hlocked.1) hle hfree)
  | markWritten args applicationId since checkedAt =>
    simp only [Standing, hpc] at hstand
    obtain ⟨_, row, appliedAt, hlocked, hmark, hwrote⟩ := hstand
    simp only [Pc.grant]
    rw [commit_records hwrote]
    by_cases hfresh : row.appliedAt = none
    · obtain ⟨expiry, happ, hlt⟩ := (markable_iff.1 hmark).2.resolve_left (not_not_intro hfresh)
      rw [marked_record hfresh happ]
      exact .single (.apply (ledger_record hlocked.1) happ hlt)
    · rw [marked_of_applied hfresh, setRecord_same hlocked.1]
      exact .refl
  | _ => simp [commit, hpc] at hcommit

theorem evolves_moves (hi : Inv w) (h : Evolves w t action w') : Moves w.ledger w'.ledger := by
  cases h with
  | opened => exact .refl
  | queried hcommit hopen hle hread hrep =>
    rw [hrep.eq]
    exact .single (.wait hle)
  | committed hget hcommit => exact commit_moves hi hget hcommit

theorem sql_simulates : (sql hashtextextended).Simulates Inv where
  start w hstart := by
    obtain ⟨clock, rfl⟩ := hstart
    refine ⟨⟨⟨⟨by simp, by simp⟩, fun t tx hget => by simp at hget⟩, by simp⟩, ?_⟩
    exact fun k a e hgranted => by simp [sql, World.ledger] at hgranted
  step w e w' hi hstep := by
    have hev := step_evolves hi hstep
    exact ⟨evolves_inv hi hev, evolves_moves hi hev⟩

theorem ledger_applied_iff {k : Key} :
    w.ledger.Applied k ↔ ∃ row, w.db.committed.get k = some row ∧ row.appliedAt ≠ none := by
  constructor
  · rintro ⟨r, hr, ha⟩
    obtain ⟨row, hrow, rfl⟩ := Option.map_eq_some_iff.1 hr
    exact ⟨row, hrow, Option.isSome_iff_ne_none.1 ha⟩
  · rintro ⟨row, hrow, ha⟩
    exact ⟨_, ledger_record hrow, Option.isSome_iff_ne_none.2 ha⟩

/-- Only the commit of a mark by the holder of the lease applies a record. -/
theorem sql_holder {e : Nat × Action} {k : Key} (hi : Inv w)
    (hstep : step hashtextextended w e = some w') (hbefore : ¬w.ledger.Applied k)
    (hafter : w'.ledger.Applied k) :
    ∃ a since reading r expiry, (sql hashtextextended).marking w e =
      some (k, a, since, reading) ∧ w.ledger.records k = some r ∧ r.lease = some (a, expiry) ∧
        since ≤ reading ∧ reading < expiry := by
  obtain ⟨t, action⟩ := e
  cases step_evolves hi hstep with
  | opened => exact absurd hafter hbefore
  | queried hcommit hopen hle hread hrep =>
    refine absurd hafter fun ha => hbefore ?_
    rw [hrep.eq] at ha
    exact ha
  | @committed tx hget hcommit =>
    have hstand := hi.db.each t tx hget
    obtain ⟨r', hr', ha'⟩ := hafter
    -- The commits that are no marks publish no applied version.
    have hold : ∀ {key : Key} {row : ReplayRow}, Wrote tx key row →
        k = key ∧ row.appliedAt ≠ none := by
      intro key row hwrote
      rw [commit_records hwrote] at hr'
      have hr'' : (w.ledger.setRecord key row.record).records k = some r' := hr'
      rw [Ledger.setRecord_records] at hr''
      split at hr''
      · next hk =>
        obtain rfl := Option.some.inj hr''
        exact ⟨hk, Option.isSome_iff_ne_none.1 ha'⟩
      · exact absurd ⟨r', hr'', ha'⟩ hbefore
    cases hpc : tx.pc with
    | refused answer =>
      simp only [Standing, hpc] at hstand
      simp only [hpc, Pc.grant, commit_untouched hstand] at hr'
      exact absurd ⟨r', hr', ha'⟩ hbefore
    | done args answer =>
      simp only [Standing, hpc] at hstand
      simp only [hpc, Pc.grant, commit_untouched hstand] at hr'
      exact absurd ⟨r', hr', ha'⟩ hbefore
    | claimInserted args =>
      simp only [Standing, hpc] at hstand
      exact absurd rfl (hold hstand.1.1).2
    | acquireWritten args applicationId databaseNow expiry =>
      simp only [Standing, hpc] at hstand
      obtain ⟨_, row, _, _, hfresh, _, hwrote⟩ := hstand
      exact absurd hfresh (hold hwrote).2
    | markWritten args applicationId since checkedAt =>
      simp only [Standing, hpc] at hstand
      obtain ⟨hsince, row, appliedAt, hlocked, hmark, hwrote⟩ := hstand
      obtain ⟨rfl, _⟩ := hold hwrote
      have hfresh : row.appliedAt = none := by
        by_contra happlied
        exact hbefore (ledger_applied_iff.2 ⟨row, hlocked.1, happlied⟩)
      obtain ⟨expiry, happ, hlt⟩ := (markable_iff.1 hmark).2.resolve_left (not_not_intro hfresh)
      obtain ⟨locks, writes, pc⟩ := tx
      simp only at hpc
      subst hpc
      exact ⟨applicationId, since, checkedAt, _, expiry, by simp [sql, hget],
        ledger_record hlocked.1, happ, hsince, hlt⟩
    | _ => simp [commit, hpc] at hcommit

/-- After a record is applied: what later transactions are about to answer, and have answered, to
exact requests for its lease. -/
structure Late (s : World) (k : Key) (bound : Binding Int) (w : World) : Prop where
  pending : ∀ t tx args status, w.db.txs.get t = some tx → s.db.txs.get t = none →
    tx.pc = .done args (.application status) → args = ⟨k, bound⟩ → status = .applied
  answered : ∀ n answer, (n, k, bound, answer) ∈ w.answers → s.db.txs.get n = none →
    answer = .applied

theorem evolves_late {s : World} {k : Key} {row : ReplayRow} (hi : Inv w)
    (hrow : w.db.committed.get k = some row) (happlied : row.appliedAt ≠ none)
    (hlate : Late s k row.binding w) (h : Evolves w t action w') : Late s k row.binding w' := by
  have hset : ∀ tx' : ReplayTx, (∀ args status, tx'.pc = .done args (.application status) →
      args = ⟨k, row.binding⟩ → status = .applied) →
      ∀ t' tx args status, (w.db.setTx t tx').txs.get t' = some tx → s.db.txs.get t' = none →
        tx.pc = .done args (.application status) → args = ⟨k, row.binding⟩ →
          status = .applied := by
    intro tx' hnew t' tx args status hget hs hpc hargs
    rw [Db.setTx_get] at hget
    split at hget
    · obtain rfl := Option.some.inj hget
      exact hnew args status hpc hargs
    · exact hlate.pending t' tx args status hget hs hpc hargs
  cases h with
  | opened hnone hpc =>
    refine ⟨hset _ fun args status heq _ => ?_, hlate.answered⟩
    rcases hpc with rfl | ⟨answer, rfl⟩ <;> cases heq
  | queried hcommit hopen hle hread hrep =>
    refine ⟨?_, hlate.answered⟩
    simp only [hrep.eq]
    refine hset _ fun args status heq hargs => ?_
    have hreported := hrep.reported
    simp only [heq, Reported, hargs] at hreported
    exact hreported.resolve_right fun hall => happlied (hall row hrow rfl)
  | @committed tx hget hcommit =>
    refine ⟨hset _ (fun args status heq _ => by cases heq), fun n answer hmem hs => ?_⟩
    rcases List.mem_append.1 hmem with hnew | hold
    · obtain rfl : n = t := report_number hnew
      have hstand := hi.db.each n tx hget
      cases hpc : tx.pc with
      | acquireWritten args applicationId databaseNow expiry =>
        simp only [Standing, hpc] at hstand
        simp only [hpc, Pc.report, List.mem_singleton, Prod.mk.injEq] at hnew
        obtain ⟨_, row', hlocked, _, hfresh, _, _⟩ := hstand
        have hsame : row = row' := Option.some.inj (hrow.symm.trans (hnew.2.1 ▸ hlocked.1))
        exact absurd (hsame ▸ hfresh) happlied
      | done args given =>
        cases given with
        | application status =>
          simp only [hpc, Pc.report, List.mem_singleton, Prod.mk.injEq] at hnew
          obtain ⟨_, hkey, hbound, rfl⟩ := hnew
          have hargs : args = ⟨k, row.binding⟩ := by
            cases args
            simp_all
          exact hlate.pending n tx args answer hget hs hpc hargs
        | _ => simp [hpc, Pc.report] at hnew
      | _ => simp [hpc, Pc.report] at hnew
    · exact hlate.answered n answer hold hs

theorem sql_answered {s : World} {k : Key} {r : Record (Binding Int) Uuid} (hs : Inv s)
    (hlater : (sql hashtextextended).Later s w) (hr : s.ledger.records k = some r)
    (ha : r.applied = true) :
    ∀ n answer, (n, k, r.bound, answer) ∈ w.answers → ¬s.db.txs.get n ≠ none →
      answer = .applied := by
  have hlate : Late s k r.bound w := by
    induction hlater with
    | refl =>
      refine ⟨fun t tx args status hget hnone => ?_, fun n answer hmem hnone => ?_⟩
      · rw [hnone] at hget
        cases hget
      · exact absurd hnone (hs.numbered _ hmem)
    | @tail v v' e hlater' _ hstep ih =>
      obtain ⟨hv, hmoves⟩ := sql_simulates.later hs hlater'
      obtain ⟨r', hr', hbound, happlied⟩ := hmoves.kept hr
      obtain ⟨row, hrow, rfl⟩ := Option.map_eq_some_iff.1 hr'
      have hrow_bound : row.binding = r.bound := hbound
      rw [← hrow_bound] at ih ⊢
      exact evolves_late hv hrow (Option.isSome_iff_ne_none.1 (happlied ha)) ih
        (step_evolves hv hstep)
  exact fun n answer hmem hn => hlate.answered n answer hmem (not_not.1 hn)

theorem sql_lawful (hashtextextended : Key → Int) : (sql hashtextextended).Lawful :=
  sql_simulates.lawful (fun _ _ _ _ hi => sql_holder hi)
    fun _ _ _ _ hi hlater hr ha => sql_answered hi hlater hr ha

end Worlds

/-- Both guards bind a nonce for good, lease the application of its result to one applier at a
time, and apply it for good, by the holder of a running lease only. -/
theorem replay_guards_lawful :
    inMemory.Lawful ∧ ∀ hashtextextended : Key → Int, (sql hashtextextended).Lawful :=
  ⟨inMemory_lawful, sql_lawful⟩

end CadPlot.Gateway.ReplaySql
