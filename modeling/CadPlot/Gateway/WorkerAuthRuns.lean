import CadPlot.Gateway.WorkerAuth
import CadPlot.Lib.JsonInjective
import CadPlot.Lib.Runs
import Mathlib.Logic.Equiv.Basic

/-!
# A request is authenticated once, as it was signed

What a call knows at each point between the lookup of its key and the end of its
transaction is kept by every step of every other process. The signed document
says each of its fields, so that a signature cannot serve another request.
-/

namespace CadPlot.Gateway.WorkerAuth

open Protocol ReadCommitted Replay Runs

/-! ### The signed document -/

theorem mem_of_sortKeys {fields fields' : List (String × Json)}
    (h : (Json.obj fields).sortKeys = (Json.obj fields').sortKeys) {x : String × Json}
    (hx : x ∈ Json.sortFields fields) : x ∈ Json.sortFields fields' := by
  simp only [Json.sortKeys, Json.obj.injEq] at h
  have hperm := List.perm_insertionSort (fun a b : String × Json => a.1 ≤ b.1)
  exact (hperm _).mem_iff.1 (h ▸ (hperm _).mem_iff.2 hx)

/-- What two proofs and the targets of their requests have in common. -/
structure SameRequest (p p' : WorkerRequestProof) (method method' route route' : String) :
    Prop where
  tenantId : p'.tenantId = p.tenantId
  deviceId : p'.deviceId = p.deviceId
  keyId : p'.keyId = p.keyId
  issuedAt : p'.issuedAt.instant = p.issuedAt.instant
  nonce : p'.nonce = p.nonce
  bodySha256 : p'.bodySha256 = p.bodySha256
  method : method' = method
  route : route' = route

/-- One text is signed for one request only. -/
theorem canonicalSigningBytes_inj {p p' : WorkerRequestProof} {method method' route route' : String}
    {payload : List UInt8} (h : p.canonicalSigningBytes method route = .ok payload)
    (h' : p'.canonicalSigningBytes method' route' = .ok payload) :
    SameRequest p p' method method' route route' := by
  unfold WorkerRequestProof.canonicalSigningBytes at h h'
  split at h
  · cases h
  · split at h'
    · cases h'
    · have hbytes := (Except.ok.inj h').trans (Except.ok.inj h).symm
      have hsorted := Json.render_injective (Text.utf8_injective hbytes)
      have hmem := fun x => @mem_of_sortKeys _ _ hsorted x
      simp only [WorkerRequestProof.document, Json.sortFields, Json.sortKeys, List.mem_cons]
        at hmem
      refine ⟨?_, ?_, ?_, ?_, ?_, ?_, ?_, ?_⟩
      · simpa using hmem ("tenant_id", .str p'.tenantId) (by simp)
      · simpa using hmem ("device_id", .str p'.deviceId) (by simp)
      · simpa using hmem ("key_id", .str p'.keyId) (by simp)
      · have hissued := hmem ("issued_at", .str (String.ofList p'.issuedAt.zulu)) (by simp)
        simp only [Prod.mk.injEq, Json.str.injEq, String.ofList_inj, String.reduceEq, false_and,
          true_and, false_or] at hissued
        have hmicros := Calendar.micros_eq_of_zulu (by simpa using hissued)
        simp [Calendar.DateTime.instant, hmicros]
      · simpa using hmem ("nonce", .str p'.nonce) (by simp)
      · simpa using hmem ("body_sha256", .str p'.bodySha256) (by simp)
      · simpa using hmem ("method", .str method') (by simp)
      · simpa using hmem ("route", .str route') (by simp)

theorem hexdigest_inj {rt : Runtime} (hinj : Function.Injective rt.sha256) {body body' : List UInt8}
    (h : hexdigest rt body = hexdigest rt body') : body = body' :=
  hinj (Text.hex_injective (String.ofList_inj.1 h))

/-! ### What a call knows -/

/-- The key is enrolled under the identity of the proof. -/
def Enrolled (rows : Dict RowKey Row) (p : WorkerRequestProof) (publicKey : List UInt8) : Prop :=
  ∃ key, rows.get p.keyOf = some (.key key) ∧ key.publicKey = publicKey

/-- The signature verifies over the document of the request, which the key's holder signed. -/
def Verified (rt : Runtime) (signed : List (List UInt8 × List UInt8)) (a : Attempt)
    (publicKey : List UInt8) : Prop :=
  ∃ payload, a.proof.canonicalSigningBytes a.request.method a.request.route = .ok payload ∧
    verifies rt [publicKey] payload a.proof.signature = true ∧ (publicKey, payload) ∈ signed

structure Locked (rows : Dict RowKey Row) (tx : AuthTx) (a : Attempt) (publicKey : List UInt8)
    (key : KeyRow) (workstation : WorkstationRow) : Prop where
  keyLock : (.inl a.proof.keyOf, .share) ∈ tx.locks
  workstationLock : (.inl a.proof.workstationOf, .share) ∈ tx.locks
  keyRow : rows.get a.proof.keyOf = some (.key key)
  workstationRow : rows.get a.proof.workstationOf = some (.workstation workstation)
  same : key.publicKey = publicKey

/-- The nonce is written and its row is nobody else's yet. -/
structure Inserted (rows : Dict RowKey Row) (tx : AuthTx) (a : Attempt) (publicKey : List UInt8)
    (databaseTime : Int) : Prop where
  locked : ∃ key workstation, Locked rows tx a publicKey key workstation ∧
    acceptable key workstation a.proof.issuedAt.instant databaseTime = true
  timely : databaseTime - seconds 60 ≤ a.proof.issuedAt.instant ∧
    a.proof.issuedAt.instant ≤ databaseTime + seconds 30
  nonceLock : (.inl a.proof.nonceOf, .update) ∈ tx.locks
  fresh : rows.get a.proof.nonceOf = none
  written : tx.writes.get a.proof.nonceOf ≠ none

/-- What was established when the call came to this point. -/
def Pc.Known (rt : Runtime) (signed : List (List UInt8 × List UInt8)) (rows : Dict RowKey Row)
    (tx : AuthTx) : Pc → Prop
  | .failed | .administering | .closed => True
  | .admitted a => checkRequest rt a.request a.now = .ok a
  | .resolved a publicKey =>
    checkRequest rt a.request a.now = .ok a ∧ Enrolled rows a.proof publicKey
  | .verified a publicKey =>
    checkRequest rt a.request a.now = .ok a ∧ Enrolled rows a.proof publicKey ∧
      Verified rt signed a publicKey
  | .locked a publicKey key workstation =>
    checkRequest rt a.request a.now = .ok a ∧ Verified rt signed a publicKey ∧
      Locked rows tx a publicKey key workstation
  | .inserted a publicKey databaseTime =>
    checkRequest rt a.request a.now = .ok a ∧ Verified rt signed a publicKey ∧
      Inserted rows tx a publicKey databaseTime
  | .accepted s => rows.get s.attempt.proof.nonceOf ≠ none

/-- A transaction's versions of keys have the public keys of the rows they replace. -/
def KeepsKeys (rows writes : Dict RowKey Row) : Prop :=
  ∀ tenantId workstationId keyId old row,
    rows.get (.key tenantId workstationId keyId) = some (.key old) →
    writes.get (.key tenantId workstationId keyId) = some row →
    ∃ new, row = .key new ∧ new.publicKey = old.publicKey

/-- Only an administrator and a call that has its nonce written have versions of rows. -/
structure Sound (rt : Runtime) (signed : List (List UInt8 × List UInt8)) (rows : Dict RowKey Row)
    (tx : AuthTx) : Prop where
  known : tx.pc.Known rt signed rows tx
  keeps : KeepsKeys rows tx.writes
  unwritten : (∀ a publicKey databaseTime, tx.pc ≠ .inserted a publicKey databaseTime) →
    tx.pc ≠ .administering → tx.writes = .empty

structure Consistent (rt : Runtime) (w : World) : Prop where
  locks : WellLocked w.db
  sound : Each (Sound rt w.signed) w.db
  once : ∀ t t' tx tx' s s', w.db.txs.get t = some tx → w.db.txs.get t' = some tx' →
    tx.pc = .accepted s → tx'.pc = .accepted s' →
    s.attempt.proof.nonceOf = s'.attempt.proof.nonceOf → t = t'

section Steps

variable {rt : Runtime} {w : World} {signed : List (List UInt8 × List UInt8)} {t : Nat}
  {tx : AuthTx}

/-! ### The rows another transaction leaves -/

/-- What a commit of another transaction does to the rows a call has read. -/
structure Evolves (rows rows' : Dict RowKey Row) (locks : List ((RowKey ⊕ Empty) × LockMode)) :
    Prop where
  keys : ∀ tenantId workstationId keyId old,
    rows.get (.key tenantId workstationId keyId) = some (.key old) →
    ∃ new, rows'.get (.key tenantId workstationId keyId) = some (.key new) ∧
      new.publicKey = old.publicKey
  stays : ∀ k, rows.get k ≠ none → rows'.get k ≠ none
  held : ∀ k mode, (.inl k, mode) ∈ locks → rows'.get k = rows.get k

theorem KeepsKeys.overlay {rows writes : Dict RowKey Row} (h : KeepsKeys rows writes)
    (tenantId : TenantId) (workstationId : WorkstationId) (keyId : String) (old : KeyRow)
    (hold : rows.get (.key tenantId workstationId keyId) = some (.key old)) :
    ∃ new, (rows.overlay writes).get (.key tenantId workstationId keyId) = some (.key new) ∧
      new.publicKey = old.publicKey := by
  rw [Dict.get_overlay]
  cases hw : writes.get (.key tenantId workstationId keyId) with
  | none => exact ⟨old, by simp [hold], rfl⟩
  | some row =>
    obtain ⟨new, rfl, hsame⟩ := h _ _ _ old row hold hw
    exact ⟨new, rfl, hsame⟩

theorem overlay_ne_none {rows writes : Dict RowKey Row} {k : RowKey} (h : rows.get k ≠ none) :
    (rows.overlay writes).get k ≠ none := by
  rw [Dict.get_overlay]
  cases hw : writes.get k with
  | none => simpa using h
  | some row => simp

theorem Locked.evolve {rows rows' : Dict RowKey Row} {a : Attempt} {publicKey : List UInt8}
    {key : KeyRow} {workstation : WorkstationRow}
    (h : Locked rows tx a publicKey key workstation) (he : Evolves rows rows' tx.locks) :
    Locked rows' tx a publicKey key workstation :=
  { h with
    keyRow := (he.held _ _ h.keyLock).trans h.keyRow
    workstationRow := (he.held _ _ h.workstationLock).trans h.workstationRow }

theorem Enrolled.evolve {rows rows' : Dict RowKey Row} {p : WorkerRequestProof}
    {publicKey : List UInt8} {locks : List ((RowKey ⊕ Empty) × LockMode)}
    (h : Enrolled rows p publicKey) (he : Evolves rows rows' locks) :
    Enrolled rows' p publicKey := by
  obtain ⟨key, hkey, hsame⟩ := h
  obtain ⟨new, hnew, hpublic⟩ := he.keys _ _ _ key hkey
  exact ⟨new, hnew, hpublic.trans hsame⟩

/-- A commit elsewhere takes nothing from what a call knows. -/
theorem Pc.Known.evolve {rows rows' : Dict RowKey Row} {pc : Pc} (h : pc.Known rt signed rows tx)
    (he : Evolves rows rows' tx.locks) : pc.Known rt signed rows' tx := by
  cases pc with
  | failed | administering | closed => trivial
  | admitted a => exact h
  | resolved a publicKey => exact ⟨h.1, h.2.evolve he⟩
  | verified a publicKey => exact ⟨h.1, h.2.1.evolve he, h.2.2⟩
  | locked a publicKey key workstation => exact ⟨h.1, h.2.1, h.2.2.evolve he⟩
  | inserted a publicKey databaseTime =>
    obtain ⟨hcheck, hverified, hinserted⟩ := h
    obtain ⟨key, workstation, hlocked, hacceptable⟩ := hinserted.locked
    exact ⟨hcheck, hverified,
      { hinserted with
        locked := ⟨key, workstation, hlocked.evolve he, hacceptable⟩
        fresh := (he.held _ _ hinserted.nonceLock).trans hinserted.fresh }⟩
  | accepted s => exact he.stays _ h

theorem Sound.evolve {rows rows' : Dict RowKey Row} (h : Sound rt signed rows tx)
    (he : Evolves rows rows' tx.locks)
    (hown : ∀ k r, tx.writes.get k = some r → (Sum.inl k, LockMode.update) ∈ tx.locks) :
    Sound rt signed rows' tx where
  known := h.known.evolve he
  keeps tenantId workstationId keyId old row hold hrow := by
    have hheld := he.held _ .update (hown _ row hrow)
    exact h.keeps _ _ _ old row (hheld.symm.trans hold) hrow
  unwritten := h.unwritten

theorem Pc.Known.mono {rows : Dict RowKey Row} {pc : Pc} {signed' : List (List UInt8 × List UInt8)}
    (hsub : ∀ x ∈ signed, x ∈ signed') (h : pc.Known rt signed rows tx) :
    pc.Known rt signed' rows tx := by
  have hv : ∀ a publicKey, Verified rt signed a publicKey → Verified rt signed' a publicKey := by
    rintro a publicKey ⟨payload, hbytes, hverifies, hmem⟩
    exact ⟨payload, hbytes, hverifies, hsub _ hmem⟩
  cases pc with
  | failed | administering | closed => trivial
  | admitted a | resolved a publicKey | accepted s => exact h
  | verified a publicKey => exact ⟨h.1, h.2.1, hv _ _ h.2.2⟩
  | locked a publicKey key workstation => exact ⟨h.1, hv _ _ h.2.1, h.2.2⟩
  | inserted a publicKey databaseTime => exact ⟨h.1, hv _ _ h.2.1, h.2.2⟩

/-! ### One step of one process -/

/-- A process that is not done with success moves, with locks and versions in order. -/
theorem Consistent.setTx {tx' : AuthTx} (h : Consistent rt w) (hl : WellLocked (w.db.setTx t tx'))
    (hs : Sound rt w.signed w.db.committed tx') (hna : ∀ s, tx'.pc ≠ .accepted s) :
    Consistent rt { w with db := w.db.setTx t tx' } where
  locks := hl
  sound := h.sound.setTx hs
  once := by
    intro a b x y s s' hx hy hs hs' hkey
    simp only [Db.setTx_get] at hx hy
    split at hx
    · obtain rfl := Option.some.inj hx
      exact absurd hs (hna s)
    · split at hy
      · obtain rfl := Option.some.inj hy
        exact absurd hs' (hna s')
      · exact h.once a b x y s s' hx hy hs hs' hkey

theorem sound_fresh {rows : Dict RowKey Row} (pc : Pc)
    (h : pc.Known rt signed rows ⟨[], .empty, pc⟩) :
    Sound rt signed rows ⟨[], .empty, pc⟩ where
  known := h
  keeps := by simp [KeepsKeys]
  unwritten _ _ := rfl

theorem Consistent.fail (h : Consistent rt w) : Consistent rt { w with db := fail w.db t } :=
  h.setTx (h.locks.rollback .failed) (sound_fresh .failed trivial) (by simp)

theorem Consistent.goto (h : Consistent rt w) (hget : w.db.txs.get t = some tx) {pc : Pc}
    (hk : pc.Known rt w.signed w.db.committed { tx with pc := pc }) (hw : tx.writes = .empty)
    (hna : ∀ s, pc ≠ .accepted s) : Consistent rt { w with db := goto w.db t tx pc } := by
  refine h.setTx (h.locks.move hget pc) ⟨hk, ?_, fun _ _ => hw⟩ hna
  simp [hw, KeepsKeys]

theorem joined_eq_some {rows : Dict RowKey Row} {p : WorkerRequestProof} {key : KeyRow}
    {workstation : WorkstationRow} (h : joined rows p = some (key, workstation)) :
    rows.get p.keyOf = some (.key key) ∧
      rows.get p.workstationOf = some (.workstation workstation) := by
  unfold joined at h
  split at h
  · next key' workstation' hkey hworkstation =>
    obtain ⟨rfl, rfl⟩ := Prod.mk.inj (Option.some.inj h)
    exact ⟨hkey, hworkstation⟩
  · cases h

theorem resolvePublicKey_ok {rows : Dict RowKey Row} {store : TenantId} {p : WorkerRequestProof}
    {databaseTime : Int} {publicKey : List UInt8}
    (h : resolvePublicKey rows store p databaseTime = .ok (some publicKey)) :
    Enrolled rows p publicKey := by
  obtain ⟨_, _, h⟩ := bind_eq_ok.1 h
  split at h
  · cases h
  · next key workstation hjoined =>
    split at h
    · cases h
    · split at h
      · cases h
      · obtain rfl := Option.some.inj (Except.ok.inj h)
        exact ⟨key, (joined_eq_some hjoined).1, rfl⟩

theorem resolve_consistent (h : Consistent rt w) (hget : w.db.txs.get t = some tx)
    {databaseTime : Int} {db : AuthDb} (hstep : resolve w.db t tx databaseTime = some db) :
    Consistent rt { w with db := db } := by
  have hsound := h.sound t tx hget
  have hknown := hsound.known
  have hwrites := hsound.unwritten
  unfold resolve at hstep
  split at hstep
  · next a hpc =>
    rw [hpc] at hknown hwrites
    split at hstep
    · next publicKey hresolve =>
      obtain rfl := Option.some.inj hstep
      exact h.goto hget ⟨hknown, resolvePublicKey_ok hresolve⟩ (hwrites (by simp) (by simp))
        (by simp)
    · obtain rfl := Option.some.inj hstep
      exact h.fail
  · cases hstep

theorem verify_consistent (h : Consistent rt w) (hget : w.db.txs.get t = some tx)
    (hforge : forges w rt (t, .verify) = false) {db : AuthDb}
    (hstep : verify rt w.db t tx = some db) : Consistent rt { w with db := db } := by
  have hsound := h.sound t tx hget
  have hknown := hsound.known
  have hwrites := hsound.unwritten
  unfold verify at hstep
  split at hstep
  · next a publicKey hpc =>
    rw [hpc] at hknown hwrites
    simp only [forges, hget, Option.map_some, hpc] at hforge
    split at hstep
    · obtain rfl := Option.some.inj hstep
      exact h.fail
    · next payload hpayload =>
      rw [hpayload] at hforge
      split at hstep
      · next hverifies =>
        obtain rfl := Option.some.inj hstep
        simp only [hverifies, Bool.true_and, Bool.not_eq_false', List.contains_iff_mem] at hforge
        exact h.goto hget ⟨hknown.1, hknown.2, payload, hpayload, hverifies, hforge⟩
          (hwrites (by simp) (by simp)) (by simp)
      · obtain rfl := Option.some.inj hstep
        exact h.fail
  · cases hstep

theorem wellLocked_lockRows (h : WellLocked w.db) (hget : w.db.txs.get t = some tx)
    {first second : RowKey} (hfirst : w.db.free t (.inl first) .share = true)
    (hsecond : w.db.free t (.inl second) .share = true) (pc : Pc) :
    WellLocked (w.db.setTx t { tx with
      locks := (.inl second, .share) :: (.inl first, .share) :: tx.locks, pc := pc }) := by
  refine h.setTx (fun t' x hx hne l hl l' hl' heq => ?_) fun k r hr => ?_
  · rcases List.mem_cons.1 hl with rfl | hl
    · exact (Db.free_iff w.db t _ _).1 hsecond t' x hx hne l' hl' heq.symm
    · rcases List.mem_cons.1 hl with rfl | hl
      · exact (Db.free_iff w.db t _ _).1 hfirst t' x hx hne l' hl' heq.symm
      · exact h.exclusive t t' tx x hget hx (Ne.symm hne) l hl l' hl' heq
  · exact List.mem_cons_of_mem _ (List.mem_cons_of_mem _ (h.owned t tx k r hget hr))

theorem visible_of_unwritten (db : AuthDb) (hw : tx.writes = .empty) (k : RowKey) :
    (db.visible tx).get k = db.committed.get k := by
  rw [Db.visible_get, hw]
  simp

theorem lockRows_consistent (h : Consistent rt w) (hget : w.db.txs.get t = some tx) {db : AuthDb}
    (hstep : lockRows w.db t tx = some db) : Consistent rt { w with db := db } := by
  have hsound := h.sound t tx hget
  have hknown := hsound.known
  have hwrites := hsound.unwritten
  unfold lockRows at hstep
  split at hstep
  · next a publicKey hpc =>
    rw [hpc] at hknown hwrites
    have hw := hwrites (by simp) (by simp)
    split at hstep
    · obtain rfl := Option.some.inj hstep
      exact h.fail
    · split at hstep
      · next hfree =>
        rw [Bool.and_eq_true] at hfree
        split at hstep
        · obtain rfl := Option.some.inj hstep
          exact h.fail
        · next key workstation hjoined =>
          obtain rfl := Option.some.inj hstep
          obtain ⟨hkey, hworkstation⟩ := joined_eq_some hjoined
          rw [visible_of_unwritten w.db hw] at hkey hworkstation
          obtain ⟨enrolled, henrolled, hpublic⟩ := hknown.2.1
          have hsame : enrolled = key := by
            rw [hkey] at henrolled
            exact (Row.key.inj (Option.some.inj henrolled)).symm
          refine h.setTx (wellLocked_lockRows h.locks hget hfree.1 hfree.2 _)
            ⟨⟨hknown.1, hknown.2.2, ?_⟩, ?_, fun _ _ => hw⟩ (by simp)
          · exact ⟨by simp, by simp, hkey, hworkstation, hsame ▸ hpublic⟩
          · simp [hw, KeepsKeys]
      · cases hstep
  · cases hstep

theorem insertNonce_consistent (h : Consistent rt w) (hget : w.db.txs.get t = some tx)
    {databaseTime : Int} {db : AuthDb} (hstep : insertNonce w.db t tx databaseTime = some db) :
    Consistent rt { w with db := db } := by
  have hsound := h.sound t tx hget
  have hknown := hsound.known
  have hwrites := hsound.unwritten
  unfold insertNonce at hstep
  split at hstep
  · next a publicKey key workstation hpc =>
    rw [hpc] at hknown hwrites
    have hw := hwrites (by simp) (by simp)
    split at hstep
    · next htimely =>
      split at hstep
      · obtain rfl := Option.some.inj hstep
        exact h.fail
      · next hacceptable =>
        split at hstep
        · obtain rfl := Option.some.inj hstep
          exact h.fail
        · next hfresh =>
          rw [visible_of_unwritten w.db hw] at hfresh
          split at hstep
          · next hfree =>
            obtain rfl := Option.some.inj hstep
            refine h.setTx (h.locks.acquire_write hget hfree _ _)
              ⟨⟨hknown.1, hknown.2.1, ?_⟩, ?_, fun hno => absurd rfl (hno _ _ _)⟩ (by simp)
            · have hlocked := hknown.2.2
              exact ⟨⟨key, workstation, ⟨List.mem_cons_of_mem _ hlocked.keyLock,
                List.mem_cons_of_mem _ hlocked.workstationLock, hlocked.keyRow,
                hlocked.workstationRow, hlocked.same⟩, by simpa using hacceptable⟩, htimely,
                List.mem_cons_self, hfresh, by simp⟩
            · intro tenantId workstationId keyId old row hold hrow
              rw [Dict.get_set_other _ _ (by simp [WorkerRequestProof.nonceOf]), hw] at hrow
              cases hrow
          · cases hstep
    · obtain rfl := Option.some.inj hstep
      exact h.fail
  · cases hstep

theorem abort_consistent (h : Consistent rt w) {db : AuthDb}
    (hstep : abort w.db t tx = some db) : Consistent rt { w with db := db } := by
  unfold abort at hstep
  split at hstep
  iterate 3 cases hstep
  · obtain rfl := Option.some.inj hstep
    exact h.fail

theorem KeepsKeys.setKey {rows writes : Dict RowKey Row} (h : KeepsKeys rows writes)
    {tenantId : TenantId} {workstationId : WorkstationId} {keyId : String} {row : KeyRow}
    (hsame : ∀ old, (rows.overlay writes).get (.key tenantId workstationId keyId) =
      some (.key old) → row.publicKey = old.publicKey) :
    KeepsKeys rows (writes.set (.key tenantId workstationId keyId) (.key row)) := by
  intro tenantId' workstationId' keyId' old row' hold hrow
  by_cases hk : RowKey.key tenantId' workstationId' keyId' = .key tenantId workstationId keyId
  · rw [hk] at hold hrow
    rw [Dict.get_set_same] at hrow
    obtain rfl := Option.some.inj hrow
    obtain ⟨new, hnew, hpublic⟩ := h.overlay _ _ _ old hold
    exact ⟨row, rfl, (hsame new hnew).trans hpublic⟩
  · rw [Dict.get_set_other _ _ hk] at hrow
    exact h _ _ _ old row' hold hrow

theorem rejectUnsafeMutation_ok {old new : KeyRow} (h : rejectUnsafeMutation old new = .ok ()) :
    new.publicKey = old.publicKey := by
  unfold rejectUnsafeMutation at h
  split at h
  · cases h
  · next hno =>
    simp only [not_or, not_not] at hno
    exact hno.2.1

theorem writeKey_consistent (h : Consistent rt w) (hget : w.db.txs.get t = some tx)
    {tenantId : TenantId} {workstationId : WorkstationId} {keyId : String} {row : KeyRow}
    {db : AuthDb} (hstep : writeKey w.db t tx tenantId workstationId keyId row = some db) :
    Consistent rt { w with db := db } := by
  have hsound := h.sound t tx hget
  have hset : ∀ (_ : w.db.free t (.inl (.key tenantId workstationId keyId)) .update = true)
      (_ : ∀ old, (w.db.visible tx).get (.key tenantId workstationId keyId) = some (.key old) →
        row.publicKey = old.publicKey),
      Consistent rt { w with db := (w.db.setTx t
        ⟨(.inl (.key tenantId workstationId keyId), .update) :: tx.locks,
          tx.writes.set (.key tenantId workstationId keyId) (.key row), .administering⟩) } :=
    fun hfree hsame => h.setTx (h.locks.acquire_write hget hfree _ _)
      ⟨trivial, hsound.keeps.setKey hsame, fun _ hno => absurd rfl hno⟩ (by simp)
  unfold writeKey at hstep
  split at hstep
  · split at hstep
    · next hfree =>
      split at hstep
      · next old hold =>
        split at hstep
        · obtain rfl := Option.some.inj hstep
          exact h.fail
        · next hok =>
          obtain rfl := Option.some.inj hstep
          refine hset hfree fun old' hold' => ?_
          rw [hold] at hold'
          obtain rfl := Row.key.inj (Option.some.inj hold')
          exact rejectUnsafeMutation_ok hok
      · next hother =>
        obtain rfl := Option.some.inj hstep
        exact hset hfree fun old hold => absurd hold (hother old)
    · cases hstep
  · cases hstep

theorem writeWorkstation_consistent (h : Consistent rt w) (hget : w.db.txs.get t = some tx)
    {tenantId : TenantId} {workstationId : WorkstationId} {row : WorkstationRow} {db : AuthDb}
    (hstep : writeWorkstation w.db t tx tenantId workstationId row = some db) :
    Consistent rt { w with db := db } := by
  have hsound := h.sound t tx hget
  unfold writeWorkstation at hstep
  split at hstep
  · split at hstep
    · next hfree =>
      obtain rfl := Option.some.inj hstep
      refine h.setTx (h.locks.acquire_write hget hfree _ _)
        ⟨trivial, ?_, fun _ hno => absurd rfl hno⟩ (by simp)
      intro tenantId' workstationId' keyId' old row' hold hrow
      rw [Dict.get_set_other _ _ (by simp)] at hrow
      exact hsound.keeps _ _ _ old row' hold hrow
    · cases hstep
  · cases hstep

/-- What a commit leaves for another process. -/
theorem commit_evolves (h : Consistent rt w) (hget : w.db.txs.get t = some tx) (pc : Pc) {t' : Nat}
    {x : AuthTx} (hx : w.db.txs.get t' = some x) (hne : t' ≠ t) :
    Evolves w.db.committed (w.db.commit t tx pc).committed x.locks where
  keys := (h.sound t tx hget).keeps.overlay
  stays _ hk := overlay_ne_none hk
  held _ _ hlock := h.locks.committed_stable hget hx (Ne.symm hne) hlock pc

theorem Consistent.commit (h : Consistent rt w) (hget : w.db.txs.get t = some tx) (pc : Pc)
    (hk : pc.Known rt w.signed (w.db.commit t tx pc).committed ⟨[], .empty, pc⟩)
    (hfresh : ∀ s, pc = .accepted s → w.db.committed.get s.attempt.proof.nonceOf = none) :
    Consistent rt { w with db := w.db.commit t tx pc } := by
  have hother : ∀ a x s, w.db.txs.get a = some x → x.pc = .accepted s →
      w.db.committed.get s.attempt.proof.nonceOf ≠ none := by
    intro a x s hx hs
    have hknown := (h.sound a x hx).known
    rwa [hs] at hknown
  have hcase : ∀ a x, (w.db.commit t tx pc).txs.get a = some x →
      (a = t ∧ x = ⟨[], .empty, pc⟩) ∨ (a ≠ t ∧ w.db.txs.get a = some x) := by
    intro a x hx
    have hset : (w.db.txs.set t ⟨[], .empty, pc⟩).get a = some x := hx
    rw [Dict.get_set] at hset
    split at hset
    · next heq => exact .inl ⟨heq.symm, (Option.some.inj hset).symm⟩
    · next hne => exact .inr ⟨Ne.symm hne, hset⟩
  refine ⟨h.locks.commit pc, fun a x hx => ?_, fun a b x y s s' hx hy hs hs' hkey => ?_⟩
  · rcases hcase a x hx with ⟨rfl, rfl⟩ | ⟨hne, hx⟩
    · exact sound_fresh pc hk
    · exact (h.sound a x hx).evolve (commit_evolves h hget pc hx hne) (h.locks.owned a x · · hx)
  · rcases hcase a x hx with ⟨ha, rfl⟩ | ⟨_, hax⟩
    · rcases hcase b y hy with ⟨hb, rfl⟩ | ⟨_, hby⟩
      · exact ha.trans hb.symm
      · exact absurd (hkey ▸ hfresh s hs) (hother b y s' hby hs')
    · rcases hcase b y hy with ⟨_, rfl⟩ | ⟨_, hby⟩
      · exact absurd (hkey ▸ hfresh s' hs') (hother a x s hax hs)
      · exact h.once a b x y s s' hax hby hs hs' hkey

theorem commit_consistent (h : Consistent rt w) (hget : w.db.txs.get t = some tx) {reported : Bool}
    {db : AuthDb} (hstep : commit w.db t tx reported = some db) :
    Consistent rt { w with db := db } := by
  have hknown := (h.sound t tx hget).known
  unfold commit at hstep
  split at hstep
  · next a publicKey databaseTime hpc =>
    rw [hpc] at hknown
    obtain ⟨_, _, hinserted⟩ := hknown
    split at hstep
    · obtain rfl := Option.some.inj hstep
      exact h.commit hget .failed trivial (by simp)
    · next worker hworker =>
      obtain rfl := Option.some.inj hstep
      cases reported with
      | false => exact h.commit hget .failed trivial (by simp)
      | true =>
        refine h.commit hget (.accepted ⟨a, publicKey, databaseTime, worker⟩) ?_ ?_
        · show (w.db.committed.overlay tx.writes).get a.proof.nonceOf ≠ none
          rw [Dict.get_overlay]
          cases hw : tx.writes.get a.proof.nonceOf with
          | none => exact absurd hw hinserted.written
          | some row => simp
        · intro s hs
          obtain rfl := Pc.accepted.inj hs
          exact hinserted.fresh
  · obtain rfl := Option.some.inj hstep
    exact h.commit hget .closed trivial (by simp)
  · cases hstep

theorem statement_consistent (h : Consistent rt w) (hget : w.db.txs.get t = some tx)
    {action : Action} (hforge : forges w rt (t, action) = false) {db : AuthDb}
    (hstep : statement rt w.db t tx action = some db) : Consistent rt { w with db := db } := by
  cases action with
  | begin request now => cases hstep
  | administer => cases hstep
  | sign publicKey payload => cases hstep
  | resolve databaseTime => exact resolve_consistent h hget hstep
  | verify => exact verify_consistent h hget hforge hstep
  | lockRows => exact lockRows_consistent h hget hstep
  | insertNonce databaseTime => exact insertNonce_consistent h hget hstep
  | commit reported => exact commit_consistent h hget hstep
  | abort => exact abort_consistent h hstep
  | writeKey tenantId workstationId keyId row => exact writeKey_consistent h hget hstep
  | writeWorkstation tenantId workstationId row => exact writeWorkstation_consistent h hget hstep

theorem Consistent.sign (h : Consistent rt w) (publicKey payload : List UInt8) :
    Consistent rt { w with signed := (publicKey, payload) :: w.signed } where
  locks := h.locks
  sound a x hx :=
    { h.sound a x hx with
      known := (h.sound a x hx).known.mono fun _ => List.mem_cons_of_mem _ }
  once := h.once

theorem Consistent.start (h : Consistent rt w) (t : Nat) (pc : Pc)
    (hk : pc.Known rt w.signed w.db.committed ⟨[], .empty, pc⟩) (hna : ∀ s, pc ≠ .accepted s) :
    Consistent rt { w with db := w.db.setTx t ⟨[], .empty, pc⟩ } :=
  h.setTx (h.locks.rollback pc) (sound_fresh pc hk) hna

theorem checkRequest_ok {request : Request} {now : Int} {a : Attempt}
    (h : checkRequest rt request now = .ok a) :
    a.request = request ∧ a.now = now ∧ parseRequestProof rt request.headers = .ok a.proof ∧
      a.proof.issuedAt.instant ≤ now + seconds rt.futureSkewSeconds ∧
      now - a.proof.issuedAt.instant ≤ seconds rt.maxAgeSeconds ∧
      a.proof.bodySha256 = hexdigest rt request.body := by
  obtain ⟨proof, hparse, h⟩ := bind_eq_ok.1 h
  split at h
  · cases h
  · next hno =>
    simp only [not_or, not_lt, not_not] at hno
    split at h
    · cases h
    · obtain rfl := Except.ok.inj h
      exact ⟨rfl, rfl, hparse, hno.1, hno.2.1, hno.2.2⟩

theorem step_consistent {e : Nat × Action} {w' : World} (h : Consistent rt w)
    (hforge : forges w rt e = false) (hstep : step rt w e = some w') : Consistent rt w' := by
  obtain ⟨t, action⟩ := e
  have hstatement : ∀ tx, w.db.txs.get t = some tx →
      (statement rt w.db t tx action).map (fun db => { w with db := db }) = some w' →
      Consistent rt w' := by
    intro tx hget hmap
    obtain ⟨db, hdb, rfl⟩ := Option.map_eq_some_iff.1 hmap
    exact statement_consistent h hget hforge hdb
  cases action with
  | sign publicKey payload =>
    obtain rfl := Option.some.inj hstep
    exact h.sign publicKey payload
  | begin request now =>
    simp only [step] at hstep
    split at hstep
    · cases hstep
    · split at hstep
      · obtain rfl := Option.some.inj hstep
        exact h.start t .failed trivial (by simp)
      · next a hcheck =>
        obtain rfl := Option.some.inj hstep
        obtain ⟨hrequest, hnow, _⟩ := checkRequest_ok hcheck
        exact h.start t (.admitted a) (by rw [Pc.Known, hrequest, hnow]; exact hcheck)
          (by simp)
  | administer =>
    simp only [step] at hstep
    split at hstep
    · cases hstep
    · obtain rfl := Option.some.inj hstep
      exact h.start t .administering trivial (by simp)
  | _ =>
    simp only [step] at hstep
    split at hstep
    · cases hstep
    · next tx hget => exact hstatement tx hget hstep

/-! ### Success -/

/-- The call has returned the worker. -/
def World.Accepted (w : World) (t : Nat) (s : Acceptance) : Prop :=
  ∃ tx, w.db.txs.get t = some tx ∧ tx.pc = .accepted s

/-- A statement changes its own process alone, and only a commit of a nonce makes a success. -/
theorem statement_cases {action : Action} {db : AuthDb}
    (hstep : statement rt w.db t tx action = some db) :
    (∃ tx', db = w.db.setTx t tx' ∧ ∀ s, tx'.pc ≠ .accepted s) ∨
      ∃ pc, db = w.db.commit t tx pc ∧ ∀ s, pc = .accepted s →
        tx.pc = .inserted s.attempt s.publicKey s.consumedAt ∧
        fromAuthAdapter s.attempt.proof.tenantId s.attempt.proof.deviceId = some s.worker := by
  cases action with
  | begin request now => cases hstep
  | administer => cases hstep
  | sign publicKey payload => cases hstep
  | commit reported =>
    simp only [statement, commit] at hstep
    split at hstep
    · next a publicKey databaseTime hpc =>
      split at hstep
      · obtain rfl := Option.some.inj hstep
        exact .inr ⟨_, rfl, by simp⟩
      · next worker hworker =>
        obtain rfl := Option.some.inj hstep
        refine .inr ⟨_, rfl, fun s hs => ?_⟩
        split at hs
        · obtain rfl := Pc.accepted.inj hs
          exact ⟨hpc, hworker⟩
        · cases hs
    · obtain rfl := Option.some.inj hstep
      exact .inr ⟨_, rfl, by simp⟩
    · cases hstep
  | _ =>
    simp only [statement, resolve, verify, lockRows, insertNonce, abort, writeKey,
      writeWorkstation, goto, fail, Db.rollback] at hstep
    (repeat' split at hstep) <;> cases hstep <;> exact .inl ⟨_, rfl, by simp⟩

/-- A success is new only where its process commits the nonce. -/
theorem accepted_of_step {e : Nat × Action} {w' : World} {s : Acceptance} {a : Nat}
    (hstep : step rt w e = some w') (hs : w'.Accepted a s) (hnew : ¬w.Accepted a s) :
    ∃ tx, w.db.txs.get a = some tx ∧ tx.pc = .inserted s.attempt s.publicKey s.consumedAt ∧
      fromAuthAdapter s.attempt.proof.tenantId s.attempt.proof.deviceId = some s.worker ∧
      w'.db.committed = w.db.committed.overlay tx.writes := by
  obtain ⟨t, action⟩ := e
  obtain ⟨x, hx, hpc⟩ := hs
  have hset : ∀ tx', w'.db.txs = w.db.txs.set t tx' → (∀ s, tx'.pc ≠ .accepted s) → False := by
    intro tx' htxs hna
    rw [htxs, Dict.get_set] at hx
    split at hx
    · obtain rfl := Option.some.inj hx
      exact hna s hpc
    · exact hnew ⟨x, hx, hpc⟩
  have hstatement : ∀ tx, w.db.txs.get t = some tx →
      (statement rt w.db t tx action).map (fun db => { w with db := db }) = some w' →
      ∃ tx, w.db.txs.get a = some tx ∧ tx.pc = .inserted s.attempt s.publicKey s.consumedAt ∧
        fromAuthAdapter s.attempt.proof.tenantId s.attempt.proof.deviceId = some s.worker ∧
        w'.db.committed = w.db.committed.overlay tx.writes := by
    intro tx hget hmap
    obtain ⟨db, hdb, rfl⟩ := Option.map_eq_some_iff.1 hmap
    rcases statement_cases hdb with ⟨tx', rfl, hna⟩ | ⟨pc, rfl, hcommit⟩
    · exact (hset tx' rfl hna).elim
    · have hx' : (w.db.txs.set t ⟨[], .empty, pc⟩).get a = some x := hx
      rw [Dict.get_set] at hx'
      split at hx'
      · next heq =>
        obtain rfl := Option.some.inj hx'
        exact ⟨tx, heq ▸ hget, (hcommit s hpc).1, (hcommit s hpc).2, rfl⟩
      · exact absurd ⟨x, hx', hpc⟩ hnew
  cases action with
  | sign publicKey payload =>
    obtain rfl := Option.some.inj hstep
    exact absurd ⟨x, hx, hpc⟩ hnew
  | begin request now =>
    simp only [step] at hstep
    split at hstep
    · cases hstep
    · split at hstep <;>
      · obtain rfl := Option.some.inj hstep
        exact (hset _ rfl (by simp)).elim
  | administer =>
    simp only [step] at hstep
    split at hstep
    · cases hstep
    · obtain rfl := Option.some.inj hstep
      exact (hset _ rfl (by simp)).elim
  | _ =>
    simp only [step] at hstep
    split at hstep
    · cases hstep
    · next tx hget => exact hstatement tx hget hstep

end Steps

/-- What holds of a success when its nonce is consumed, from one state of the tables to the next. -/
structure Genuine (rt : Runtime) (w w' : World) (s : Acceptance) : Prop where
  parsed : parseRequestProof rt s.attempt.request.headers = .ok s.attempt.proof
  worker : s.worker = ⟨s.attempt.proof.tenantId, s.attempt.proof.deviceId⟩
  inTime : s.attempt.proof.issuedAt.instant ≤ s.attempt.now + seconds rt.futureSkewSeconds ∧
    s.attempt.now - s.attempt.proof.issuedAt.instant ≤ seconds rt.maxAgeSeconds
  consumedInTime : s.consumedAt - seconds 60 ≤ s.attempt.proof.issuedAt.instant ∧
    s.attempt.proof.issuedAt.instant ≤ s.consumedAt + seconds 30
  body : s.attempt.proof.bodySha256 = hexdigest rt s.attempt.request.body
  consumed : w.db.committed.get s.attempt.proof.nonceOf = none ∧
    w'.db.committed.get s.attempt.proof.nonceOf ≠ none
  active : ∃ key workstation, joined w.db.committed s.attempt.proof = some (key, workstation) ∧
    key.publicKey = s.publicKey ∧
    acceptable key workstation s.attempt.proof.issuedAt.instant s.consumedAt = true
  signed : ∃ payload,
    s.attempt.proof.canonicalSigningBytes s.attempt.request.method s.attempt.request.route =
      .ok payload ∧
    verifies rt [s.publicKey] payload s.attempt.proof.signature = true ∧
    (s.publicKey, payload) ∈ w.signed ∧
    ∀ proof method route body, proof.canonicalSigningBytes method route = .ok payload →
      proof.bodySha256 = hexdigest rt body →
      SameRequest s.attempt.proof proof s.attempt.request.method method s.attempt.request.route
        route ∧ body = s.attempt.request.body

/-- Whatever requests are sent, repeated and interleaved while keys are revoked, a nonce of a key
authenticates one request at most: the one that the key's holder signed, in time and under a key in
use when the nonce is consumed. -/
theorem authenticates_once (rt : Runtime) (hinj : Function.Injective rt.sha256)
    (rows : Dict RowKey Row) (signed : List (List UInt8 × List UInt8)) (w : World)
    (hreach : Reaches (step rt) (fun w e => forges w rt e = false) ⟨⟨rows, .empty⟩, signed⟩ w) :
    (∀ t t' s s', w.Accepted t s → w.Accepted t' s' →
      s.attempt.proof.tenantId = s'.attempt.proof.tenantId →
      s.attempt.proof.deviceId = s'.attempt.proof.deviceId →
      s.attempt.proof.keyId = s'.attempt.proof.keyId →
      s.attempt.proof.nonce = s'.attempt.proof.nonce → t = t') ∧
    ∀ e w' t s, step rt w e = some w' → w'.Accepted t s → ¬w.Accepted t s → Genuine rt w w' s := by
  have hstart : Consistent rt ⟨⟨rows, .empty⟩, signed⟩ :=
    ⟨⟨by simp, by simp⟩, fun t tx hget => by simp at hget, by simp⟩
  have h := invariant_of_reaches hstart (fun _ _ _ ha hok hst => step_consistent ha hok hst) hreach
  constructor
  · rintro t t' s s' ⟨tx, hget, hpc⟩ ⟨tx', hget', hpc'⟩ htenant hdevice hkey hnonce
    refine h.once t t' tx tx' s s' hget hget' hpc hpc' ?_
    rw [WorkerRequestProof.nonceOf, WorkerRequestProof.nonceOf, htenant, hdevice, hkey, hnonce]
  · intro e w' t s hstep hs hnew
    obtain ⟨tx, hget, hpc, hworker, hcommitted⟩ := accepted_of_step hstep hs hnew
    have hknown := (h.sound t tx hget).known
    rw [hpc] at hknown
    obtain ⟨hcheck, ⟨payload, hpayload, hverifies, hsigned⟩, hinserted⟩ := hknown
    obtain ⟨_, _, hparse, hfuture, hage, hbody⟩ := checkRequest_ok hcheck
    obtain ⟨key, workstation, hlocked, hacceptable⟩ := hinserted.locked
    refine ⟨hparse, ?_, ⟨hfuture, hage⟩, hinserted.timely, hbody, ⟨hinserted.fresh, ?_⟩,
      ⟨key, workstation, ?_, hlocked.same, hacceptable⟩, payload, hpayload, hverifies, hsigned, ?_⟩
    · unfold fromAuthAdapter at hworker
      split at hworker
      · exact (Option.some.inj hworker).symm
      · cases hworker
    · rw [hcommitted, Dict.get_overlay]
      cases hw : tx.writes.get s.attempt.proof.nonceOf with
      | none => exact absurd hw hinserted.written
      | some row => simp
    · simp [joined, hlocked.keyRow, hlocked.workstationRow]
    · intro proof method route body hbytes hdigest
      have hsame := canonicalSigningBytes_inj hpayload hbytes
      refine ⟨hsame, hexdigest_inj hinj ?_⟩
      rw [← hdigest, ← hbody, hsame.bodySha256]

section Example

def leapDay : Calendar.DateTime :=
  ⟨2028, 2, 29, 12, 30, 15, 0, by decide, by decide, by decide, by decide⟩

def asciiBytes (text : String) : List UInt8 := text.toList.map fun c => c.val.toUInt8

def deviceKey : List UInt8 :=
  [215, 90, 152, 1, 130, 177, 10, 183, 213, 75, 254, 211, 201, 100, 7, 58, 14, 225, 114, 243, 218,
    166, 35, 37, 175, 2, 26, 104, 247, 7, 81, 26]

def pollBody : List UInt8 := asciiBytes
  ("\x7b\"protocol_version\":1,\"tenant_id\":\"tnt_00000000-0000-4000-8000-000000000000\"," ++
    "\"user_id\":\"usr_00000000-0000-4000-8000-000000000000\"," ++
    "\"device_id\":\"ws_00000000-0000-4000-8000-000000000000\"\x7d")

def pollDigest : List UInt8 :=
  [139, 103, 209, 138, 164, 198, 245, 146, 112, 166, 20, 126, 95, 38, 137, 238, 46, 110, 18, 181,
    17, 104, 162, 38, 3, 58, 142, 76, 32, 230, 253, 48]

def pollPayload : List UInt8 := asciiBytes
  ("\x7b\"body_sha256\":\"8b67d18aa4c6f59270a6147e5f2689ee2e6e12b51168a226033a8e4c20e6fd30\"," ++
    "\"device_id\":\"ws_00000000-0000-4000-8000-000000000000\"," ++
    "\"issued_at\":\"2028-02-29T12:30:15Z\"," ++
    "\"key_id\":\"wkey_00000000-0000-4000-8000-000000000000\",\"method\":\"POST\"," ++
    "\"nonce\":\"nnnnnnnnnnnnnnnnnnnnnn\",\"protocol_version\":1," ++
    "\"route\":\"/worker/v1/tasks/poll\"," ++
    "\"tenant_id\":\"tnt_00000000-0000-4000-8000-000000000000\"\x7d")

/-- What the device signs, with its signature of the one payload of a run. -/
def signPoll (payload : List UInt8) : List UInt8 :=
  if payload = pollPayload then
    [76, 229, 186, 8, 9, 93, 217, 16, 207, 1, 94, 206, 71, 93, 110, 89, 36, 227, 80, 67, 113, 145,
      247, 160, 7, 36, 117, 1, 196, 209, 28, 8, 169, 183, 164, 44, 0, 51, 113, 87, 239, 226, 72,
      151, 251, 24, 39, 149, 190, 240, 59, 78, 88, 235, 150, 142, 40, 166, 192, 213, 40, 64, 105,
      15]
  else .replicate 64 0

/-- The libraries, on what a run asks of them: the digest of one body, the time of one text, and
the signatures of one key. -/
def pollRuntime : Runtime where
  casefold name := name
  parseDatetime text := if text = "2028-02-29T12:30:15Z" then some (leapDay, some 0) else none
  sha256 := Equiv.swap pollBody pollDigest
  ed25519 key signature payload := decide (key = deviceKey ∧ signature = signPoll payload)
  loadPem _ := none
  storeForTenant tenant := some tenant
  maxAgeSeconds := 60
  futureSkewSeconds := 30
  window := by decide

def pollProof : WorkerRequestProof where
  tenantId := "tnt_00000000-0000-4000-8000-000000000000"
  deviceId := "ws_00000000-0000-4000-8000-000000000000"
  keyId := "wkey_00000000-0000-4000-8000-000000000000"
  issuedAt := leapDay
  nonce := "nnnnnnnnnnnnnnnnnnnnnn"
  bodySha256 := "8b67d18aa4c6f59270a6147e5f2689ee2e6e12b51168a226033a8e4c20e6fd30"
  signature :=
    "TOW6CAld2RDPAV7OR11uWSTjUENxkfegByR1AcTRHAipt6QsADNxV-_iSJf7GCeVvvA7Tljrlo4opsDVKEBpDw"

def pollRequest : Request where
  headers := [("x-cadplot-tenant-id", pollProof.tenantId),
    ("x-cadplot-device-id", pollProof.deviceId), ("x-cadplot-key-id", pollProof.keyId),
    ("x-cadplot-issued-at", "2028-02-29T12:30:15Z"), ("x-cadplot-nonce", pollProof.nonce),
    ("x-cadplot-body-sha256", pollProof.bodySha256), ("x-cadplot-signature", pollProof.signature)]
  body := pollBody
  method := "POST"
  route := "/worker/v1/tasks/poll"

def enrolledKey (revokedAt : Option Int) (h : ∀ r ∈ revokedAt, 0 ≤ r) : Row :=
  .key ⟨"ed25519", deviceKey, true, 0, none, revokedAt, 0, rfl, by decide, by simp, h⟩

def enrolledRows : Dict RowKey Row :=
  (Dict.empty.set pollProof.keyOf (enrolledKey none (by simp))).set pollProof.workstationOf
    (.workstation ⟨true⟩)

/-- Two copies of one request get as far as the locks. One of them has the nonce. -/
def replayedPoll : List (Nat × Action) :=
  let now := leapDay.instant
  [(0, .begin pollRequest now), (1, .begin pollRequest now), (0, .resolve now), (1, .resolve now),
    (0, .verify), (1, .verify), (0, .lockRows), (1, .lockRows), (0, .insertNonce now),
    (0, .commit true), (1, .insertNonce now)]

def World.accepts (w : World) (t : Nat) : Bool :=
  (w.db.txs.get t).any fun tx => match tx.pc with
    | .accepted _ => true
    | _ => false

theorem authenticates_once_replayed :
    ∃ w : World, (w.accepts 0 && !w.accepts 1) = true ∧
      ∀ t t' s s', w.Accepted t s → w.Accepted t' s' →
        s.attempt.proof.tenantId = s'.attempt.proof.tenantId →
        s.attempt.proof.deviceId = s'.attempt.proof.deviceId →
        s.attempt.proof.keyId = s'.attempt.proof.keyId →
        s.attempt.proof.nonce = s'.attempt.proof.nonce → t = t' := by
  obtain ⟨w, hreach, hw⟩ := exists_reaches_of_run (step pollRuntime)
    (fun w e => forges w pollRuntime e = false)
    ⟨⟨enrolledRows, .empty⟩, [(deviceKey, pollPayload)]⟩
    replayedPoll (fun w => w.accepts 0 && !w.accepts 1) (by decide +kernel) (by decide +kernel)
  exact ⟨w, hw, (authenticates_once pollRuntime (Equiv.injective _) _ _ w hreach).1⟩

end Example

end CadPlot.Gateway.WorkerAuth
