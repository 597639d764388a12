import CadPlot.Gateway.RowChanges

/-!
# One operation per key, within the quota

In every interleaving a key keeps the one operation it has, and a call with it is
answered with that. The number of active operations keeps its limit too, unless a
start commits after the lease it was checked against has lapsed and another
operation took the room.
-/

namespace CadPlot.Gateway.Quota

open ReadCommitted Transactions

section Kept

variable {db db' : OpDb} {t : Nat} {tx tx' : OpTx}

theorem Ok.setTx (h : Ok db) (hlocks : WellLocked (db.setTx t tx')) (hok : TxOk db.committed tx')
    (hapart : ∀ a x, db.txs.get a = some x → a ≠ t →
      Apart db.committed tx' x ∧ Apart db.committed x tx') : Ok (db.setTx t tx') where
  locks := hlocks
  keyed := h.keyed
  each a x hx := by
    rw [Db.setTx_get] at hx
    split at hx
    · exact Option.some.inj hx ▸ hok
    · exact h.each a x hx
  apart a b x y hx hy hne := by
    rw [Db.setTx_get] at hx hy
    by_cases ha : t = a
    · rw [if_pos ha] at hx
      rw [if_neg fun hb => hne (ha.symm.trans hb)] at hy
      exact Option.some.inj hx ▸ (hapart b y hy fun hb => hne (ha.symm.trans hb.symm)).1
    · rw [if_neg ha] at hx
      by_cases hb : t = b
      · rw [if_pos hb] at hy
        exact Option.some.inj hy ▸ (hapart a x hx (Ne.symm ha)).2
      · rw [if_neg hb] at hy
        exact h.apart a b x y hx hy hne
  one := h.one

/-- A committed row is still there, with its identity, after a commit. -/
theorem commit_kept (h : Ok db) (hget : db.txs.get t = some tx) {k : Key}
    {old : OperationRecord} (hold : db.committed.get k = some old) :
    ∃ row, (db.commit t tx .closed).committed.get k = some row ∧ row.identity = old.identity := by
  simp only [Db.commit, Dict.get_overlay, hold]
  cases hw : tx.writes.get k with
  | none => exact ⟨old, rfl, rfl⟩
  | some row => exact ⟨row, rfl, ((h.each t tx hget).changes k row hw).2.old hold⟩

/-- A row after a commit is a version of the same row before it, or new. -/
theorem commit_cases (h : Ok db) (hget : db.txs.get t = some tx) {k : Key} {row : OperationRecord}
    (hrow : (db.commit t tx .closed).committed.get k = some row) :
    (∃ old, db.committed.get k = some old ∧ row.identity = old.identity) ∨
      db.committed.get k = none ∧ tx.writes.get k = some row := by
  simp only [Db.commit, Dict.get_overlay] at hrow
  cases hw : tx.writes.get k with
  | none =>
    rw [hw, Option.none_or] at hrow
    exact .inl ⟨row, hrow, rfl⟩
  | some own =>
    rw [hw, Option.some_or] at hrow
    obtain rfl := Option.some.inj hrow
    cases hold : db.committed.get k with
    | none => exact .inr ⟨rfl, rfl⟩
    | some old => exact .inl ⟨old, rfl, ((h.each t tx hget).changes k _ hw).2.old hold⟩

theorem commit_holds (h : Ok db) (hget : db.txs.get t = some tx) {a : Nat} {x : OpTx}
    (hx : db.txs.get a = some x) (hne : t ≠ a) {record : OperationRecord}
    (hheld : Holds db.committed x record) :
    Holds (db.commit t tx .closed).committed x record :=
  ⟨(h.locks.committed_stable hget hx hne hheld.2 .closed).trans hheld.1, hheld.2⟩

theorem commit_newIndex (h : Ok db) (hget : db.txs.get t = some tx) {a : Nat} {x : OpTx}
    (hx : db.txs.get a = some x) (hne : t ≠ a) {k : Key} {row : OperationRecord}
    (hrow : x.writes.get k = some row) (hnone : db.committed.get k = none)
    (hnew : NewIndex db.committed row) :
    NewIndex (db.commit t tx .closed).committed row := by
  intro k' r hr
  rcases commit_cases h hget hr with ⟨old, hold, hid⟩ | ⟨_, hwrites⟩
  · rw [idempotencyIndex_of_identity hid]
    exact hnew k' old hold
  · exact (h.apart a t x tx hx hget hne.symm k row k' r hrow hwrites hnone).symm

theorem commit_each (h : Ok db) (hget : db.txs.get t = some tx) {a : Nat} {x : OpTx}
    (hx : db.txs.get a = some x) (hne : t ≠ a) : TxOk (db.commit t tx .closed).committed x := by
  have hok := h.each a x hx
  constructor
  · intro k row hrow
    have hstable := h.locks.committed_stable hget hx hne (h.locks.owned a x k row hx hrow) .closed
    obtain ⟨hkey, hchange⟩ := hok.changes k row hrow
    refine ⟨hkey, ?_⟩
    cases hchange with
    | lessened old hold hless => exact .lessened old (hstable.trans hold) hless
    | started old hold hid hs hs' hsole => exact .started old (hstable.trans hold) hid hs hs' hsole
    | fresh hnone hs hsole hlock hnew =>
      exact .fresh (hstable.trans hnone) hs hsole hlock
        (commit_newIndex h hget hx hne hrow hnone hnew)
  · have hready := hok.ready
    cases hpc : x.pc with
    | leaseSelected args leaseNow record =>
      simp only [Ready, hpc] at hready ⊢
      exact ⟨hready.1, commit_holds h hget hx hne hready.2.1, hready.2.2⟩
    | rowLocked record work =>
      simp only [Ready, hpc] at hready ⊢
      exact ⟨hready.1, commit_holds h hget hx hne hready.2⟩
    | closed | done | leaseWritten => simp [Ready, hpc]
    | _ => simpa only [Ready, hpc] using hready

theorem commit_one (h : Ok db) (hget : db.txs.get t = some tx) :
    OneRow (db.commit t tx .closed) := by
  have hnew : ∀ k row, db.committed.get k = none → tx.writes.get k = some row →
      Sole tx k ∧ NewIndex db.committed row := fun k row hnone hrow =>
    have hc := ((h.each t tx hget).changes k row hrow).2.new hnone
    ⟨hc.1, hc.2.2⟩
  intro k k' row row' hrow hrow' hsame
  rcases commit_cases h hget hrow with ⟨old, hold, hid⟩ | ⟨hnone, hwrites⟩
  · rw [idempotencyIndex_of_identity hid] at hsame
    rcases commit_cases h hget hrow' with ⟨old', hold', hid'⟩ | ⟨hnone', hwrites'⟩
    · exact h.one k k' old old' hold hold' (hsame.trans (idempotencyIndex_of_identity hid'))
    · exact absurd hsame ((hnew k' row' hnone' hwrites').2 k old hold)
  · rcases commit_cases h hget hrow' with ⟨old', hold', hid'⟩ | ⟨hnone', hwrites'⟩
    · rw [idempotencyIndex_of_identity hid'] at hsame
      exact absurd hsame.symm ((hnew k row hnone hwrites).2 k' old' hold')
    · by_contra hne
      rw [(hnew k row hnone hwrites).1 k' (Ne.symm hne)] at hwrites'
      cases hwrites'

/-- The other transactions after a commit are those before it, and its own is closed. -/
theorem commit_txs {a : Nat} {x : OpTx} (hx : (db.commit t tx .closed).txs.get a = some x) :
    x = ⟨[], .empty, .closed⟩ ∨ t ≠ a ∧ db.txs.get a = some x := by
  have hset : (db.txs.set t ⟨[], .empty, .closed⟩).get a = some x := hx
  rw [Dict.get_set] at hset
  split at hset
  · exact .inl (Option.some.inj hset).symm
  · next hne => exact .inr ⟨hne, hset⟩

theorem commit_ok (h : Ok db) (hget : db.txs.get t = some tx) : Ok (db.commit t tx .closed) where
  locks := h.locks.commit .closed
  keyed k row hrow := by
    simp only [Db.commit, Dict.get_overlay] at hrow
    cases hw : tx.writes.get k with
    | none => exact h.keyed k row (by simpa [hw] using hrow)
    | some own =>
      rw [hw] at hrow
      exact Option.some.inj hrow ▸ ((h.each t tx hget).changes k own hw).1
  each a x hx := by
    rcases commit_txs hx with rfl | ⟨hne, hx⟩
    · exact ⟨by simp, trivial⟩
    · exact commit_each h hget hx hne
  apart a b x y hx hy hne k row k' row' hrow hrow' hnone := by
    rcases commit_txs hx with rfl | ⟨_, hx⟩
    · simp at hrow
    · rcases commit_txs hy with rfl | ⟨_, hy⟩
      · simp at hrow'
      · refine h.apart a b x y hx hy hne k row k' row' hrow hrow' ?_
        cases hold : db.committed.get k with
        | none => rfl
        | some old =>
          obtain ⟨row, hrow, _⟩ := commit_kept h hget hold
          rw [hnone] at hrow
          cases hrow
  one := commit_one h hget

theorem begin_cases {call : Call} (hstep : Transactions.step db (t, .begin call) = some db') :
    db.txs.get t = none ∧ call.accepted = true ∧
      db' = db.setTx t ⟨[], .empty, .begun call⟩ := by
  cases hget : db.txs.get t with
  | some tx => simp [Transactions.step, hget] at hstep
  | none =>
    simp only [Transactions.step, hget] at hstep
    split at hstep
    · next haccepted => exact ⟨rfl, haccepted, (Option.some.inj hstep).symm⟩
    · cases hstep

theorem begin_ok (h : Ok db) {call : Call} (hcall : call.accepted = true) :
    Ok (db.setTx t ⟨[], .empty, .begun call⟩) :=
  h.setTx (h.locks.setTx (by simp) (by simp)) ⟨by simp, Dict.get_empty, hcall⟩
    fun a x _ _ => ⟨fun k row _ _ hrow => by simp at hrow,
      fun _ _ k' row' _ hrow' => by simp at hrow'⟩

theorem commit_eq (hstep : Transactions.commit db t tx = some db') :
    db' = db.commit t tx .closed := by
  unfold Transactions.commit at hstep
  split at hstep
  · exact (Option.some.inj hstep).symm
  · exact (Option.some.inj hstep).symm
  · cases hstep

/-- What one statement can do: begin, commit, or move its transaction. -/
theorem step_cases (h : Ok db) {action : Action}
    (hstep : Transactions.step db (t, action) = some db') :
    (∃ call, call.accepted = true ∧ action = .begin call ∧ db.txs.get t = none ∧
        db' = db.setTx t ⟨[], .empty, .begun call⟩) ∨
      ∃ tx, db.txs.get t = some tx ∧
        ((action = .commit ∧ db' = db.commit t tx .closed) ∨
          Moves db t tx (Admitted db.committed action) db') := by
  cases hget : db.txs.get t with
  | none =>
    cases action with
    | «begin» call =>
      obtain ⟨_, hcall, rfl⟩ := begin_cases hstep
      exact .inl ⟨call, hcall, rfl, rfl, rfl⟩
    | _ => simp [Transactions.step, hget] at hstep
  | some tx =>
    refine .inr ⟨tx, rfl, ?_⟩
    by_cases hcommit : action = .commit
    · subst hcommit
      exact .inl ⟨rfl, commit_eq (by simpa only [Transactions.step, hget] using hstep)⟩
    · exact .inr (step_moves h hget hcommit hstep)

theorem step_ok {e : Nat × Action} (h : Ok db) (hstep : Transactions.step db e = some db') :
    Ok db' := by
  obtain ⟨t, action⟩ := e
  rcases step_cases h hstep with ⟨call, hcall, rfl, _, rfl⟩ | ⟨tx, hget, ⟨rfl, rfl⟩ | hmoves⟩
  · exact begin_ok h hcall
  · exact commit_ok h hget
  · obtain ⟨tx', rfl, hfits⟩ := hmoves
    exact h.setTx hfits.locks hfits.ok hfits.apart

/-- A transaction that may still add to a namespace has its quota locked. -/
theorem pending_locked (hok : TxOk db.committed tx) {ns : Namespace}
    (hp : isPending db.committed ns tx = true) :
    (Sum.inr ns.resource, LockMode.update) ∈ tx.locks := by
  rcases isPending_iff.1 hp with ⟨operation, now, hpc, rfl⟩ | ⟨k, row, hrow, hnone, rfl⟩
  · have hready := hok.ready
    simp only [Ready, hpc] at hready
    exact hready.2.2
  · exact ((hok.changes k row hrow).2.new hnone).2.1

/-- Two transactions are never pending for one namespace. -/
theorem pending_alone (h : Ok db) {a : Nat} {x : OpTx} (hget : db.txs.get t = some tx)
    (hx : db.txs.get a = some x) {ns : Namespace} (hp : isPending db.committed ns tx = true)
    (hpx : isPending db.committed ns x = true) : t = a := by
  by_contra hne
  have hc := h.locks.exclusive t a tx x hget hx hne _ (pending_locked (h.each t tx hget) hp) _
    (pending_locked (h.each a x hx) hpx) rfl
  simp [compatible] at hc

theorem pending_before_commit (h : Ok db) (hget : db.txs.get t = some tx) {a : Nat} {x : OpTx}
    (hx : db.txs.get a = some x) (hne : t ≠ a) {ns : Namespace}
    (hp : isPending (db.commit t tx .closed).committed ns x = true) :
    isPending db.committed ns x = true := by
  rw [isPending_iff] at hp ⊢
  refine hp.imp_right fun ⟨k, row, hrow, hnone, hns⟩ => ⟨k, row, hrow, ?_, hns⟩
  exact (h.locks.committed_stable hget hx hne (h.locks.owned a x k row hx hrow) .closed).symm.trans
    hnone

theorem ok_empty : Ok emptyDb where
  locks := ⟨by simp [emptyDb], by simp [emptyDb]⟩
  keyed := by simp [emptyDb]
  each := by simp [emptyDb]
  apart := by simp [emptyDb]
  one := by simp [OneRow, emptyDb]

end Kept

/-- The quota holds, with room for what is pending. -/
structure Within (limit : Nat) (w : World) : Prop where
  ok : Ok w.db
  quota : ∀ ns, (activeRows w.db.committed ns w.now).length ≤ limit
  room : ∀ ns t tx, w.db.txs.get t = some tx → isPending w.db.committed ns tx = true →
    (activeRows w.db.committed ns w.now).length < limit

section Within

variable {limit : Nat} {w : World} {t : Nat} {tx : OpTx}

/-- Counted versions of rows that were not counted are all that a commit adds. -/
theorem commit_count {db : OpDb} {ns : Namespace} {now : Int} (extra : List Key)
    (h : ∀ k row, tx.writes.get k = some row → counts ns now row = true →
      k ∈ extra ∨ ∃ old, db.committed.get k = some old ∧ counts ns now old = true) :
    (activeRows (db.commit t tx .closed).committed ns now).length ≤
      extra.length + (activeRows db.committed ns now).length := by
  refine length_rowsWhere_le extra fun k row hrow hcounts => ?_
  simp only [Db.commit, Dict.get_overlay] at hrow
  cases hw : tx.writes.get k with
  | none =>
    rw [hw, Option.none_or] at hrow
    exact .inr ⟨row, hrow, hcounts⟩
  | some own =>
    rw [hw, Option.some_or] at hrow
    obtain rfl := Option.some.inj hrow
    exact h k _ hw hcounts

/-- A commit keeps the quota of a namespace, and the room for another transaction. -/
theorem commit_room (h : Within limit w) (hget : w.db.txs.get t = some tx)
    (hok : startInTime limit w (.act t .commit) = true) (ns : Namespace) :
    (activeRows (w.db.commit t tx .closed).committed ns w.now).length ≤ limit ∧
      ∀ a x, w.db.txs.get a = some x → t ≠ a → isPending w.db.committed ns x = true →
        (activeRows (w.db.commit t tx .closed).committed ns w.now).length < limit := by
  by_cases hall : ∀ k row, tx.writes.get k = some row → counts ns w.now row = true →
      ∃ old, w.db.committed.get k = some old ∧ counts ns w.now old = true
  · have hle := @commit_count t tx w.db ns w.now [] fun k row hrow hc => .inr (hall k row hrow hc)
    simp only [List.length_nil, Nat.zero_add] at hle
    refine ⟨Nat.le_trans hle (h.quota ns), fun a x hx _ hp => ?_⟩
    exact Nat.lt_of_le_of_lt hle (h.room ns a x hx hp)
  · -- One version is counted where its row was not: a late start or a new row, and it is alone.
    simp only [not_forall] at hall
    obtain ⟨k, row, hrow, hcounts, hno⟩ := hall
    obtain ⟨hns, _⟩ := counts_iff.1 hcounts
    have hone : Sole tx k → (activeRows (w.db.commit t tx .closed).committed ns w.now).length ≤
        1 + (activeRows w.db.committed ns w.now).length := fun hsole =>
      commit_count [k] fun k' row' hrow' _ => by
        by_cases hk : k' = k
        · exact .inl (List.mem_singleton.2 hk)
        · rw [hsole k' hk] at hrow'
          cases hrow'
    cases ((h.ok.each t tx hget).changes k row hrow).2 with
    | lessened old hold hless => exact absurd ⟨old, hold, hless.counts hcounts⟩ hno
    | started old hold hid hs hs' hsole =>
      have hle := hone hsole
      have hdue : nonDue old w.now = false := by
        by_contra hdue
        exact hno ⟨old, hold, counts_iff.2 ⟨(namespaceOf_of_identity hid).symm.trans hns,
          Bool.not_eq_false _ ▸ hdue⟩⟩
      simp only [startInTime, hget, List.all_eq_true] at hok
      have hroom := hok (k, row) ((Dict.mem_entries_iff _ _ _).2 hrow)
      simp only [hold, hs, hs', hdue, hns, hasRoom, and_self, decide_true, Bool.not_true,
        Bool.false_or, decide_eq_true_eq] at hroom
      refine ⟨by omega, fun a x hx _ hp => ?_⟩
      have hany : (w.db.txs.entries.any fun e => isPending w.db.committed ns e.2) = true :=
        List.any_eq_true.2 ⟨(a, x), (Dict.mem_entries_iff _ _ _).2 hx, hp⟩
      rw [if_pos hany] at hroom
      omega
    | fresh hnone hs hsole hlock hnew =>
      have hle := hone hsole
      have hp : isPending w.db.committed ns tx = true :=
        isPending_iff.2 (.inr ⟨k, row, hrow, hnone, hns⟩)
      have hroom := h.room ns t tx hget hp
      refine ⟨by omega, fun a x hx hne hpx => ?_⟩
      exact absurd (pending_alone h.ok hget hx hp hpx) hne

theorem act_cases {w' : World} {action : Action} (h : step limit w (.act t action) = some w') :
    (∀ now ∈ readings action, now ≤ w.now) ∧ configured limit action = true ∧
      ∃ db, Transactions.step w.db (t, action) = some db ∧ w' = { w with db := db } := by
  simp only [step] at h
  split at h
  · next hguard =>
    obtain ⟨hread, hconf⟩ := Bool.and_eq_true_iff.1 hguard
    obtain ⟨db, hdb, rfl⟩ := Option.map_eq_some_iff.1 h
    exact ⟨fun now hnow => of_decide_eq_true (List.all_eq_true.1 hread now hnow), hconf, db, hdb,
      rfl⟩
  · cases h

theorem tick_cases {w' : World} {now : Int} (h : step limit w (.tick now) = some w') :
    w.now ≤ now ∧ w' = { w with now := now } := by
  simp only [step] at h
  split at h
  · next hle => exact ⟨hle, (Option.some.inj h).symm⟩
  · cases h

theorem world_ok {w' : World} {e : Event} (h : Ok w.db) (hstep : step limit w e = some w') :
    Ok w'.db := by
  cases e with
  | tick now =>
    obtain ⟨_, rfl⟩ := tick_cases hstep
    exact h
  | act t action =>
    obtain ⟨_, _, db, hdb, rfl⟩ := act_cases hstep
    exact step_ok h hdb

/-- The count that the quota check lets through is not lower than the one now. -/
theorem room_of_admitted {action : Action} (hread : ∀ now ∈ readings action, now ≤ w.now)
    (hconf : configured limit action = true) {ns : Namespace}
    (h : Admitted w.db.committed action ns) :
    (activeRows w.db.committed ns w.now).length < limit := by
  cases action with
  | checkQuota databaseNow tables maxActive =>
    have hle := activeRows_later w.db.committed ns (hread databaseNow (by simp [readings]))
    have hmax : maxActive = limit := of_decide_eq_true hconf
    simp only [Admitted] at h
    omega
  | _ => exact h.elim

theorem tick_within {now : Int} (h : Within limit w) (hle : w.now ≤ now) :
    Within limit { w with now := now } where
  ok := h.ok
  quota ns := Nat.le_trans (activeRows_later _ ns hle) (h.quota ns)
  room ns t tx hget hp := Nat.lt_of_le_of_lt (activeRows_later _ ns hle) (h.room ns t tx hget hp)

theorem commit_within (h : Within limit w) (hget : w.db.txs.get t = some tx)
    (hok : startInTime limit w (.act t .commit) = true) :
    Within limit { w with db := w.db.commit t tx .closed } where
  ok := commit_ok h.ok hget
  quota ns := (commit_room h hget hok ns).1
  room ns a x hx hp := by
    rcases commit_txs hx with rfl | ⟨hne, hx⟩
    · rw [isPending_iff] at hp
      simp at hp
    · exact (commit_room h hget hok ns).2 a x hx hne
        (pending_before_commit h.ok hget hx hne hp)

theorem step_within {w' : World} {e : Event} (h : Within limit w)
    (hok : startInTime limit w e = true) (hstep : step limit w e = some w') : Within limit w' := by
  cases e with
  | tick now =>
    obtain ⟨hle, rfl⟩ := tick_cases hstep
    exact tick_within h hle
  | act t action =>
    obtain ⟨hread, hconf, db, hdb, rfl⟩ := act_cases hstep
    rcases step_cases h.ok hdb with ⟨call, hcall, rfl, hnone, rfl⟩ |
      ⟨tx, hget, ⟨rfl, rfl⟩ | ⟨tx', rfl, hfits⟩⟩
    · refine ⟨begin_ok h.ok hcall, h.quota, fun ns a x hx hp => ?_⟩
      rw [Db.setTx_get] at hx
      split at hx
      · obtain rfl := Option.some.inj hx
        rw [isPending_iff] at hp
        simp at hp
      · exact h.room ns a x hx hp
    · exact commit_within h hget hok
    · refine ⟨step_ok h.ok hdb, h.quota, fun ns a x hx hp => ?_⟩
      rw [Db.setTx_get] at hx
      split at hx
      · obtain rfl := Option.some.inj hx
        rcases hfits.pending ns hp with hpending | hadmitted
        · exact h.room ns t tx hget hpending
        · exact room_of_admitted hread hconf hadmitted
      · exact h.room ns a x hx hp

theorem within_start (limit : Nat) (now : Int) : Within limit (start now) where
  ok := ok_empty
  quota ns := by simp [start, emptyDb, activeRows, rowsWhere, Dict.empty]
  room ns t tx hget := by simp [start, emptyDb] at hget

end Within

section Keys

variable {limit : Nat} {w w' : World} {t : Nat} {tx : OpTx} {k : Key} {row : OperationRecord}

theorem step_kept {e : Event} (h : Ok w.db) (hstep : step limit w e = some w') {k : Key}
    {row : OperationRecord} (hrow : w.db.committed.get k = some row) :
    ∃ row', w'.db.committed.get k = some row' ∧ row'.identity = row.identity := by
  cases e with
  | tick now =>
    obtain ⟨_, rfl⟩ := tick_cases hstep
    exact ⟨row, hrow, rfl⟩
  | act t action =>
    obtain ⟨_, _, db, hdb, rfl⟩ := act_cases hstep
    rcases step_cases h hdb with ⟨call, _, rfl, _, rfl⟩ | ⟨tx, hget, ⟨rfl, rfl⟩ | ⟨tx', rfl, _⟩⟩
    · exact ⟨row, hrow, rfl⟩
    · exact commit_kept h hget hrow
    · exact ⟨row, hrow, rfl⟩

/-- An operation stays, with its identity, whatever happens after. -/
theorem kept (h : Ok w.db) (hreach : Runs.Reaches (step limit) Runs.anyEvent w w')
    (hrow : w.db.committed.get k = some row) :
    ∃ row', w'.db.committed.get k = some row' ∧ row'.identity = row.identity := by
  refine @Runs.rel_of_reaches _ _ (step limit) Runs.anyEvent (fun w => Ok w.db)
    (fun w w' => ∀ k row, w.db.committed.get k = some row →
      ∃ row', w'.db.committed.get k = some row' ∧ row'.identity = row.identity) w w'
    h (fun _ _ row hrow => ⟨row, hrow, rfl⟩) (fun a b c hab hbc k row hrow => ?_)
    (fun a e b ha _ hs => world_ok ha hs) (fun a e b ha _ hs k row hrow => step_kept ha hs hrow)
    hreach k row hrow
  obtain ⟨rowb, hb, hidb⟩ := hab k row hrow
  obtain ⟨rowc, hc, hidc⟩ := hbc k rowb hb
  exact ⟨rowc, hc, hidc.trans hidb⟩

/-- A transaction that calls with the key of a row has not got past the search for it. -/
structure Searching (index : TenantId × SubjectId × ClientId × IdempotencyKey) (t : Nat)
    (w : World) : Prop where
  ok : Ok w.db
  stored : ∃ k row, w.db.committed.get k = some row ∧ row.idempotencyIndex = index
  early : ∀ tx operation, w.db.txs.get t = some tx → callOf tx.pc = some operation →
    operation.idempotencyIndex = index → Early tx.pc operation

theorem step_searching {index : TenantId × SubjectId × ClientId × IdempotencyKey} {e : Event}
    (h : Searching index t w) (hstep : step limit w e = some w') : Searching index t w' := by
  obtain ⟨k, row, hrow, hindex⟩ := h.stored
  obtain ⟨row', hrow', hid⟩ := step_kept h.ok hstep hrow
  refine ⟨world_ok h.ok hstep, ⟨k, row', hrow', (idempotencyIndex_of_identity hid).trans hindex⟩,
    fun tx operation hget hcall hsame => ?_⟩
  cases e with
  | tick now =>
    obtain ⟨_, rfl⟩ := tick_cases hstep
    exact h.early tx operation hget hcall hsame
  | act a action =>
    obtain ⟨_, _, db, hdb, rfl⟩ := act_cases hstep
    rcases step_cases h.ok hdb with ⟨call, _, rfl, _, rfl⟩ |
      ⟨old, hold, ⟨rfl, rfl⟩ | ⟨next, rfl, hfits⟩⟩
    · simp only [Db.setTx_get] at hget
      split at hget
      · obtain rfl := Option.some.inj hget
        cases call with
        | createOrGet called =>
          obtain rfl := Option.some.inj hcall
          exact .inl rfl
        | _ => cases hcall
      · exact h.early tx operation hget hcall hsame
    · rcases commit_txs hget with rfl | ⟨_, hget⟩
      · cases hcall
      · exact h.early tx operation hget hcall hsame
    · simp only [Db.setTx_get] at hget
      split at hget
      · next ha =>
        subst ha
        obtain rfl := Option.some.inj hget
        have hcont := hfits.call operation hcall
        refine (hcont.searched (h.early old operation hold hcont.same hsame)).resolve_right
          fun hnew => ?_
        exact hnew k row hrow (hindex.trans hsame.symm)
      · exact h.early tx operation hget hcall hsame

/-- What a call is answered, by the rows that are committed then. -/
structure Answered (committed : Dict Key OperationRecord) (tx : OpTx)
    (operation : OperationRecord) (outcome : CreateOutcome) : Prop where
  created : outcome.status = .created ↔ NewIndex committed operation
  new : outcome.status = .created →
    tx.writes.get (rowKey operation) = some outcome.operation ∧
      outcome.operation.idempotencyIndex = operation.idempotencyIndex ∧
      outcome.operation.requestFingerprint = operation.requestFingerprint
  found : outcome.status ≠ .created →
    (∃ k, committed.get k = some outcome.operation) ∧
      outcome.operation.idempotencyIndex = operation.idempotencyIndex ∧ Untouched tx
  existing : outcome.status ≠ .created →
    (outcome.status = .existing ↔ outcome.operation.requestFingerprint = operation.requestFingerprint)

theorem found_answered {committed : Dict Key OperationRecord} {operation : OperationRecord}
    (hrow : committed.get k = some row) (hindex : row.idempotencyIndex = operation.idempotencyIndex)
    (hu : Untouched tx) : Answered committed tx operation (found operation row) := by
  have hstatus : (found operation row).status ≠ .created := by
    simp only [found]
    split <;> simp
  refine ⟨⟨fun hs => absurd hs hstatus, fun hnew => absurd hindex (hnew k row hrow)⟩,
    fun hs => absurd hs hstatus, fun _ => ⟨⟨k, hrow⟩, hindex, hu⟩, fun _ => ?_⟩
  simp only [found]
  split
  · next hsame => simp [hsame]
  · next hsame => simp [hsame]

theorem findExisting_answered {db db' : OpDb} {tx' : OpTx} {operation : OperationRecord}
    (h : Ok db) (hget : db.txs.get t = some tx) (hcall : callOf tx.pc = some operation)
    (hstep : findExisting db t tx = some db') (hget' : db'.txs.get t = some tx')
    (hdone : tx'.pc = .done) :
    ∃ outcome, answer db t .findExisting = some outcome ∧
      Answered db.committed tx' operation outcome := by
  -- Both searches end with the first row that has the key, which is then locked.
  have hlocked : ∀ {row rest}, Untouched tx → existing db tx operation = row :: rest →
      lockThen db t tx (.inl (rowKey row)) .update .done = some db' →
        Answered db.committed tx' operation (found operation row) := by
    intro row rest hu hrows hlock
    obtain ⟨⟨k, hk⟩, hindex⟩ := mem_existing.1 (hrows ▸ List.mem_cons_self)
    refine found_answered ((visible_untouched hu k).symm.trans hk) hindex ?_
    unfold lockThen at hlock
    split at hlock
    · obtain rfl := Option.some.inj hlock
      simp only [Db.setTx_get, if_true, Option.some.injEq] at hget'
      exact hget' ▸ hu
    · cases hlock
  unfold findExisting at hstep
  simp only at hstep
  split at hstep
  · next called hpc =>
    rw [hpc] at hcall
    obtain rfl := Option.some.inj hcall
    split at hstep
    · obtain rfl := Option.some.inj hstep
      simp only [goto, Db.setTx_get, if_true, Option.some.injEq] at hget'
      simp [← hget'] at hdone
    · next row rest hrows =>
      refine ⟨found called row, ?_, hlocked (ready_at h hget hpc).1 hrows hstep⟩
      have hrows : existing db tx called = row :: rest := hrows
      simp [answer, hget, hpc, hrows]
  · next called hpc =>
    rw [hpc] at hcall
    obtain rfl := Option.some.inj hcall
    split at hstep
    · obtain rfl := Option.some.inj hstep
      simp only [raise, Db.rollback, Db.setTx_get, if_true, Option.some.injEq] at hget'
      simp [← hget'] at hdone
    · next row rest hrows =>
      refine ⟨found called row, ?_, hlocked (ready_at h hget hpc).1 hrows hstep⟩
      have hrows : existing db tx called = row :: rest := hrows
      simp [answer, hget, hpc, hrows]
  · cases hstep

theorem insert_answered {db db' : OpDb} {tx' : OpTx} {operation : OperationRecord}
    (h : Ok db) (hget : db.txs.get t = some tx) (hcall : callOf tx.pc = some operation)
    (hstep : Transactions.insert db t tx = some db') (hget' : db'.txs.get t = some tx')
    (hdone : tx'.pc = .done) :
    ∃ outcome, answer db t .insert = some outcome ∧
      Answered db.committed tx' operation outcome := by
  unfold Transactions.insert at hstep
  split at hstep
  · next called databaseNow hpc =>
    rw [hpc] at hcall
    obtain rfl := Option.some.inj hcall
    have hu : Untouched tx := (ready_at h hget hpc).1
    simp only at hstep
    split at hstep
    · cases hstep
    · split at hstep
      · obtain rfl := Option.some.inj hstep
        simp only [goto, Db.setTx_get, if_true, Option.some.injEq] at hget'
        simp [← hget'] at hdone
      · next hnew =>
        split at hstep
        · obtain rfl := Option.some.inj hstep
          simp only [writeRow, Db.setTx_get, if_true, Option.some.injEq] at hget'
          have hfresh : NewIndex db.committed called :=
            newIndex_of_existing hu (not_not.1 (not_or.1 hnew).2)
          have hwritten : tx'.writes.get (rowKey called) = some (createdAt called databaseNow) := by
            rw [← hget']
            exact Dict.get_set_same _ _ _
          refine ⟨⟨.created, createdAt called databaseNow⟩, ?_,
            ⟨fun _ => hfresh, fun _ => rfl⟩, fun _ => ⟨hwritten, rfl, rfl⟩,
            fun hs => absurd rfl hs, fun hs => absurd rfl hs⟩
          have hnew : ¬((db.visible tx).get (rowKey called) ≠ none ∨
            existing db tx called ≠ []) := hnew
          simp only [answer, hget, hpc]
          rw [if_neg hnew]
        · cases hstep
  · cases hstep

/-- Only the search and the insert end a call that returns. -/
theorem done_of_call {db db' : OpDb} {tx' : OpTx} {operation : OperationRecord} {action : Action}
    (hget : db.txs.get t = some tx) (hcall : callOf tx.pc = some operation)
    (hstep : Transactions.step db (t, action) = some db') (hget' : db'.txs.get t = some tx')
    (hdone : tx'.pc = .done) : action = .findExisting ∨ action = .insert := by
  have hlater : ∀ {target mode pc}, lockThen db t tx target mode pc = some db' → pc ≠ .done →
      False := by
    intro target mode pc hlock hpc
    unfold lockThen at hlock
    split at hlock
    · obtain rfl := Option.some.inj hlock
      simp only [Db.setTx_get, if_true, Option.some.injEq] at hget'
      rw [← hget'] at hdone
      exact hpc hdone
    · cases hlock
  have hraised : db' = raise db t → False := by
    rintro rfl
    simp only [raise, Db.rollback, Db.setTx_get, if_true, Option.some.injEq] at hget'
    simp [← hget'] at hdone
  cases action with
  | findExisting => exact .inl rfl
  | insert => exact .inr rfl
  | «begin» call => simp [Transactions.step, hget] at hstep
  | abort =>
    simp only [Transactions.step, hget] at hstep
    exact (hraised (Option.some.inj hstep).symm).elim
  | lockWorkstation tables clock =>
    simp only [Transactions.step, hget, lockWorkstation] at hstep
    split at hstep
    · next args hpc => simp [hpc, callOf] at hcall
    · next target work hpc => simp [hpc, callOf] at hcall
    · split at hstep
      · exact (hlater hstep (by simp)).elim
      · exact (hraised (Option.some.inj hstep).symm).elim
    · cases hstep
  | lockQuota =>
    simp only [Transactions.step, hget, lockQuota] at hstep
    split at hstep
    · exact (hlater hstep (by simp)).elim
    · cases hstep
  | checkQuota databaseNow tables maxActive =>
    simp only [Transactions.step, hget, checkQuota] at hstep
    split at hstep
    · split at hstep
      · exact (hraised (Option.some.inj hstep).symm).elim
      · split at hstep
        · exact (hraised (Option.some.inj hstep).symm).elim
        · obtain rfl := Option.some.inj hstep
          simp only [goto, Db.setTx_get, if_true, Option.some.injEq] at hget'
          simp [← hget'] at hdone
    · cases hstep
  | readDue | refreshRow | checkActive | selectNext | writeLease | lockOperation | transition
  | commit =>
    -- These are for other calls.
    simp only [Transactions.step, hget, readDue, refreshRow, checkActive, selectNext, writeLease,
      Transactions.lockOperation, transition, Transactions.commit] at hstep
    split at hstep <;> next hpc => simp_all [callOf]

end Keys

/-- What clients can rely on, whatever runs beside their calls. -/
structure Lawful (limit : Nat) (w : World) : Prop where
  one : OneRow w.db
  kept : ∀ w' k row, Runs.Reaches (step limit) Runs.anyEvent w w' →
    w.db.committed.get k = some row →
      ∃ row', w'.db.committed.get k = some row' ∧ row'.identity = row.identity
  answered : ∀ w' t action tx tx' operation, step limit w (.act t action) = some w' →
    w.db.txs.get t = some tx → callOf tx.pc = some operation →
      w'.db.txs.get t = some tx' → tx'.pc = .done →
        ∃ outcome, answer w.db t action = some outcome ∧
          Answered w.db.committed tx' operation outcome
  repeated : ∀ w' k row t tx operation, Runs.Reaches (step limit) Runs.anyEvent w w' →
    w.db.committed.get k = some row → w.db.txs.get t = none → w'.db.txs.get t = some tx →
      callOf tx.pc = some operation → operation.idempotencyIndex = row.idempotencyIndex →
        Untouched tx ∧ Early tx.pc operation

theorem lawful_of_ok {limit : Nat} {w : World} (h : Ok w.db) : Lawful limit w where
  one := h.one
  kept w' k row hreach hrow := kept h hreach hrow
  answered w' t action tx tx' operation hstep hget hcall hget' hdone := by
    obtain ⟨_, _, db, hdb, rfl⟩ := act_cases hstep
    rcases done_of_call hget hcall hdb hget' hdone with rfl | rfl
    · exact findExisting_answered h hget hcall (by simpa only [Transactions.step, hget] using hdb)
        hget' hdone
    · exact insert_answered h hget hcall (by simpa only [Transactions.step, hget] using hdb) hget'
        hdone
  repeated w' k row t tx operation hreach hrow hnone hget hcall hsame := by
    have hstart : Searching row.idempotencyIndex t w :=
      ⟨h, ⟨k, row, hrow, rfl⟩, fun tx _ hget => by simp [hnone] at hget⟩
    have hsearch := Runs.invariant_of_reaches hstart (fun _ _ _ ha _ hs => step_searching ha hs)
      hreach
    have hearly := hsearch.early tx operation hget hcall hsame
    have hready := (hsearch.ok.each t tx hget).ready
    refine ⟨?_, hearly⟩
    rcases hearly with hpc | hpc
    · simp only [Ready, hpc] at hready
      exact hready.1
    · simp only [Ready, hpc] at hready
      exact hready.1

def quotaKept (limit : Nat) (w : World) : Prop :=
  ∀ ns, (activeRows w.db.committed ns w.now).length ≤ limit

/-- Every interleaving keeps one operation for a key and answers it with that, and the quota is
kept by the starts that commit in time or find room. -/
theorem keys_and_quota (limit : Nat) (now : Int) :
    (∀ w, Runs.Reaches (step limit) Runs.anyEvent (start now) w → Lawful limit w) ∧
      ∀ w, Runs.Reaches (step limit) (fun w e => startInTime limit w e = true) (start now) w →
        Lawful limit w ∧ quotaKept limit w := by
  refine ⟨fun w hreach => ?_, fun w hreach => ?_⟩
  · exact lawful_of_ok (@Runs.invariant_of_reaches _ _ (step limit) _ (fun w => Ok w.db) _ _
      ok_empty (fun _ _ _ ha _ hs => world_ok ha hs) hreach)
  · have hwithin := Runs.invariant_of_reaches (within_start limit now)
      (fun _ _ _ ha hok hs => step_within ha hok hs) hreach
    exact ⟨lawful_of_ok hwithin.ok, hwithin.quota⟩

/-- The operations of the two keys below are counted together. -/
def listingNamespace : Namespace :=
  namespaceOf (listingOperation "op_00000000-0000-4000-8000-000000000001"
    "idem_00000000-0000-4000-8000-000000000001" 0)

/-- The statements of a call to create an operation at a time, up to its commit. -/
def createStatements (operation : OperationRecord) (now : Int) : List Action :=
  [.begin (.createOrGet operation), .lockQuota, .findExisting, .lockWorkstation onlineTables now,
    .checkQuota now onlineTables 1, .insert, .commit]

/-- The statements of a start, up to its commit. -/
def startStatements (now : Int) : List Action :=
  [.begin (.worker ⟨"tnt_00000000-0000-4000-8000-000000000001",
      "op_00000000-0000-4000-8000-000000000001", "ws_00000000-0000-4000-8000-000000000001"⟩ .start),
    .lockWorkstation onlineTables now, .lockOperation, .transition now now onlineTables (.ok ())]

/-- One operation is created and leased for a minute. -/
def leasedOnce : List Event :=
  (createStatements (listingOperation "op_00000000-0000-4000-8000-000000000001"
      "idem_00000000-0000-4000-8000-000000000001" 0) 0).map (.act 0) ++
    .tick 1000000 :: pollStatements.map (.act 1)

theorem keys_and_quota_started : ∃ w,
    Runs.Reaches (step 1) (fun w e => startInTime 1 w e = true) (start 0) w ∧
      (activeRows w.db.committed listingNamespace w.now).length = 1 ∧
        Lawful 1 w ∧ quotaKept 1 w := by
  obtain ⟨w, hreach, hcount⟩ := Runs.exists_reaches_of_run (step 1)
    (fun w e => startInTime 1 w e = true) (start 0)
    (leasedOnce ++ .tick 60900000 :: (startStatements 60900000 ++ [Action.commit]).map (.act 2))
    (fun w => (activeRows w.db.committed listingNamespace w.now).length = 1) (by decide +kernel)
    (by decide +kernel)
  exact ⟨w, hreach, of_decide_eq_true hcount, (keys_and_quota 1 0).2 w hreach⟩

/-- A start is checked just before the lease ends and commits just after, and the lapsed lease is
not counted in between. -/
theorem late_start_over_quota :
    ¬∀ limit now w, Runs.Reaches (step limit) Runs.anyEvent (start now) w →
      Lawful limit w ∧ quotaKept limit w := by
  intro hall
  obtain ⟨w, hreach, hcount⟩ := Runs.exists_reaches_of_run (step 1) Runs.anyEvent (start 0)
    (leasedOnce ++ .tick 60900000 :: (startStatements 60900000).map (.act 2) ++
      .tick 61500000 :: (createStatements (listingOperation
        "op_00000000-0000-4000-8000-000000000002" "idem_00000000-0000-4000-8000-000000000002"
        61500000) 61500000).map (.act 3) ++ [.act 2 .commit])
    (fun w => (activeRows w.db.committed listingNamespace w.now).length = 2)
    (Runs.along_anyEvent _ _) (by decide +kernel)
  have hkept := (hall 1 0 w hreach).2 listingNamespace
  have htwo := of_decide_eq_true hcount
  omega

end CadPlot.Gateway.Quota
