import CadPlot.Gateway.WorkerAuthRuns
import CadPlot.Lib.Base64
import CadPlot.Lib.JsonInjective

/-!
# Proofs of worker requests

The signing side of worker requests: `Ed25519Signer`, `build_request_proof`,
`to_headers` and the request that `WorkerHttpsClient` sends. A request signed
with a key in use is authenticated, whatever goes on at the gateway meanwhile.
-/

namespace CadPlot.Worker.RequestProofs

open Gateway (TenantId WorkstationId WorkerContext)
open Gateway.WorkerAuth Protocol ReadCommitted Runs
open Gateway.Replay (seconds)

/-! ### Signatures as texts -/

/-- Six bits at a time; the last ones are filled up. -/
def sextets : List UInt8 → List Nat
  | [] => []
  | [a] => [a.toNat / 4, a.toNat % 4 * 16]
  | [a, b] => [a.toNat / 4, a.toNat % 4 * 16 + b.toNat / 16, b.toNat % 16 * 4]
  | a :: b :: c :: rest =>
    a.toNat / 4 :: (a.toNat % 4 * 16 + b.toNat / 16) :: (b.toNat % 16 * 4 + c.toNat / 64) ::
      c.toNat % 64 :: sextets rest

/-- The alphabet of `urlsafe_b64encode` -/
def urlSextet (n : Nat) : Char :=
  if n = 62 then '-' else if n = 63 then '_' else Base64.sextet n

/-- `_encode_signature` -/
def encodeSignature (bytes : List UInt8) : Option String :=
  let encoded := (sextets bytes).map urlSextet
  if encoded.length = 86 then some (String.ofList encoded) else none

theorem sextets_lt (bytes : List UInt8) : ∀ n ∈ sextets bytes, n < 64 := by
  induction bytes using sextets.induct with
  | case1 => simp [sextets]
  | case2 a =>
    have ha := a.toNat_lt
    simp only [sextets, List.mem_cons, List.not_mem_nil, or_false]
    omega
  | case3 a b =>
    have ha := a.toNat_lt
    have hb := b.toNat_lt
    simp only [sextets, List.mem_cons, List.not_mem_nil, or_false]
    omega
  | case4 a b c rest ih =>
    have ha := a.toNat_lt
    have hb := b.toNat_lt
    have hc := c.toNat_lt
    simp only [sextets, List.forall_mem_cons]
    exact ⟨by omega, by omega, by omega, by omega, ih⟩

theorem length_sextets (bytes : List UInt8) :
    (sextets bytes).length = (4 * bytes.length + 2) / 3 := by
  induction bytes using sextets.induct with
  | case1 => rfl
  | case2 a => simp [sextets]
  | case3 a b => simp [sextets]
  | case4 a b c rest ih =>
    simp only [sextets, List.length_cons, ih]
    omega

theorem octets_sextets {bytes : List UInt8} (h : bytes.length % 3 ≠ 2) :
    octets (sextets bytes) = bytes := by
  induction bytes using sextets.induct with
  | case1 => rfl
  | case2 a =>
    have ha := a.toNat_lt
    have hbits : a.toNat / 4 * 4 + a.toNat % 4 * 16 / 16 = a.toNat := by omega
    rw [sextets, octets, hbits, UInt8.ofNat_toNat]
    simp
  | case3 a b => exact absurd rfl h
  | case4 a b c rest ih =>
    have ha := a.toNat_lt
    have hb := b.toNat_lt
    have hc := c.toNat_lt
    have hfirst : a.toNat / 4 * 4 + (a.toNat % 4 * 16 + b.toNat / 16) / 16 = a.toNat := by omega
    have hsecond : (a.toNat % 4 * 16 + b.toNat / 16) % 16 * 16 +
        (b.toNat % 16 * 4 + c.toNat / 64) / 4 = b.toNat := by omega
    have hthird : (b.toNat % 16 * 4 + c.toNat / 64) % 4 * 64 + c.toNat % 64 = c.toNat := by omega
    rw [sextets, octets, hfirst, hsecond, hthird, UInt8.ofNat_toNat, UInt8.ofNat_toNat,
      UInt8.ofNat_toNat, ih (by simp only [List.length_cons] at h; omega)]

theorem urlSextet_spec : ∀ n < 64, base64Value (urlSextet n) = some n ∧ urlSextet n ≠ '=' ∧
    ((urlSextet n).isAlphanum || urlSextet n = '_' || urlSextet n = '-') = true := by decide

theorem mapM_base64Value {values : List Nat} (h : ∀ n ∈ values, n < 64) :
    (values.map urlSextet).mapM base64Value = some values := by
  induction values with
  | nil => rfl
  | cons n values ih =>
    obtain ⟨hn, hvalues⟩ := List.forall_mem_cons.1 h
    rw [List.map_cons, List.mapM_cons, (urlSextet_spec n hn).1, ih hvalues]
    rfl

/-- The gateway reads a signature back. -/
theorem encodeSignature_spec {bytes : List UInt8} (h : bytes.length = 64) :
    ∃ signature, encodeSignature bytes = some signature ∧ isSignature signature = true ∧
      decodeSignature signature = some bytes := by
  have hlength : ((sextets bytes).map urlSextet).length = 86 := by
    rw [List.length_map, length_sextets, h]
  have hlt := sextets_lt bytes
  refine ⟨String.ofList ((sextets bytes).map urlSextet), if_pos hlength, ?_, ?_⟩
  · rw [isSignature, String.toList_ofList, hlength, List.all_map]
    simp only [decide_true, Bool.true_and, List.all_eq_true]
    exact fun n hn => (urlSextet_spec n (hlt n hn)).2.2
  · have hpadding : ((sextets bytes).map urlSextet).contains '=' = false := by
      rw [List.contains_eq_mem, decide_eq_false_iff_not, List.mem_map]
      rintro ⟨n, hn, heq⟩
      exact (urlSextet_spec n (hlt n hn)).2.1 heq
    simp only [decodeSignature, String.toList_ofList, hlength, hpadding, mapM_base64Value hlt,
      octets_sextets (show bytes.length % 3 ≠ 2 by omega), h, bind, Option.bind]
    simp

/-! ### The request of a worker -/

/-- A workstation with its signing key. -/
structure Client where
  tenantId : TenantId
  deviceId : WorkstationId
  keyId : String
  sign : List UInt8 → List UInt8

/-- `Ed25519Signer.__call__` -/
def Client.signature (client : Client) (payload : List UInt8) : Option String :=
  if payload = [] then none else encodeSignature (client.sign payload)

section Request

variable (rt : Runtime) (client : Client) (issuedAt : Calendar.DateTime) (nonce : String)
  (method route : String) (body : List UInt8)

def unsignedProof : WorkerRequestProof where
  tenantId := client.tenantId
  deviceId := client.deviceId
  keyId := client.keyId
  issuedAt := issuedAt
  nonce := nonce
  bodySha256 := hexdigest rt body
  signature := String.ofList (.replicate 86 'A')

/-- `build_request_proof` -/
def buildRequestProof : Option WorkerRequestProof :=
  let unsigned := unsignedProof rt client issuedAt nonce body
  if unsigned.wellFormed = false then none
  else do
    let payload ← (unsigned.canonicalSigningBytes method route).toOption
    let signature ← client.signature payload
    let proof := { unsigned with signature }
    if proof.wellFormed = false then none else some proof

/-- `to_headers` -/
def toHeaders (proof : WorkerRequestProof) : List (String × String) :=
  [("x-cadplot-tenant-id", proof.tenantId), ("x-cadplot-device-id", proof.deviceId),
    ("x-cadplot-key-id", proof.keyId),
    ("x-cadplot-issued-at", String.ofList proof.issuedAt.zulu),
    ("x-cadplot-nonce", proof.nonce), ("x-cadplot-body-sha256", proof.bodySha256),
    ("x-cadplot-signature", proof.signature)]

/-- The request that `WorkerHttpsClient._send` makes of a proof. -/
def requestOf (proof : WorkerRequestProof) : Request where
  headers := ("accept", "application/json") ::
    ("content-type", "application/json; charset=utf-8") ::
      ("user-agent", "cadplot-worker/1") :: toHeaders proof
  body := body
  method := "POST"
  route := route

end Request

/-! ### What the gateway makes of it -/

/-- The libraries work: names fold to themselves, a timestamp is read as it was written, and a
signature verifies under the public key of its signer. -/
structure Works (rt : Runtime) (client : Client) (publicKey : List UInt8)
    (issuedAt : Calendar.DateTime) : Prop where
  casefold : ∀ header ∈ (requestOf "" [] ⟨"", "", "", issuedAt, "", "", ""⟩).headers,
    rt.casefold header.1 = header.1
  datetime : rt.parseDatetime (String.ofList issuedAt.zulu) = some (issuedAt, some 0)
  octets : ∀ payload, (client.sign payload).length = 64
  verifies : ∀ payload, rt.ed25519 publicKey (client.sign payload) payload = true
  key : publicKey.length = 32
  store : rt.storeForTenant client.tenantId = some client.tenantId

section Proof

variable {rt : Runtime} {client : Client} {publicKey : List UInt8} {issuedAt : Calendar.DateTime}
  {nonce method route : String} {body : List UInt8} {proof : WorkerRequestProof}

/-- What is known of a proof that was built. -/
structure Built (rt : Runtime) (client : Client) (publicKey : List UInt8) (method route : String)
    (body : List UInt8) (issuedAt : Calendar.DateTime) (proof : WorkerRequestProof) : Prop where
  tenantId : proof.tenantId = client.tenantId
  deviceId : proof.deviceId = client.deviceId
  issuedAt : proof.issuedAt = issuedAt
  bodySha256 : proof.bodySha256 = hexdigest rt body
  wellFormed : proof.wellFormed = true
  verified : ∃ payload, proof.canonicalSigningBytes method route = .ok payload ∧
    verifies rt [publicKey] payload proof.signature = true

theorem canonicalSigningBytes_ne_nil {payload : List UInt8}
    (h : proof.canonicalSigningBytes method route = .ok payload) : payload ≠ [] := by
  unfold WorkerRequestProof.canonicalSigningBytes at h
  split at h
  · cases h
  · obtain rfl := Except.ok.inj h
    obtain ⟨c, rest, hrender, -⟩ :=
      Json.render_head (Json.obj (proof.document method route)).sortKeys
    intro hnil
    have hempty := Text.utf8_injective (a := _) (b := []) hnil
    rw [hrender] at hempty
    cases hempty

theorem built_of_signed (hworks : Works rt client publicKey issuedAt) {payload : List UInt8}
    {signature : String}
    (hpayload : ((unsignedProof rt client issuedAt nonce body).canonicalSigningBytes method
      route).toOption = some payload)
    (hsignature : client.signature payload = some signature)
    (hformed : { unsignedProof rt client issuedAt nonce body with signature }.wellFormed = true) :
    Built rt client publicKey method route body issuedAt
      { unsignedProof rt client issuedAt nonce body with signature } := by
  have hbytes : (unsignedProof rt client issuedAt nonce body).canonicalSigningBytes method route =
      .ok payload := by
    cases hbytes : (unsignedProof rt client issuedAt nonce body).canonicalSigningBytes method
        route with
    | error _ =>
      rw [hbytes] at hpayload
      cases hpayload
    | ok payload' =>
      rw [hbytes] at hpayload
      rw [Option.some.inj hpayload]
  have hne := canonicalSigningBytes_ne_nil hbytes
  rw [Client.signature, if_neg hne] at hsignature
  obtain ⟨signature', hencode, -, hdecode⟩ := encodeSignature_spec (hworks.octets payload)
  obtain rfl := Option.some.inj (hencode.symm.trans hsignature)
  refine ⟨rfl, rfl, rfl, rfl, hformed, payload, hbytes, ?_⟩
  have hnonempty : payload.isEmpty = false := by simpa using hne
  simp [verifies, hdecode, hnonempty, hworks.key, hworks.verifies payload]

theorem buildRequestProof_built (hworks : Works rt client publicKey issuedAt)
    (h : buildRequestProof rt client issuedAt nonce method route body = some proof) :
    Built rt client publicKey method route body issuedAt proof := by
  unfold buildRequestProof at h
  dsimp only at h
  split at h
  · cases h
  · obtain ⟨payload, hpayload, h⟩ := Option.bind_eq_some_iff.1 h
    obtain ⟨signature, hsignature, h⟩ := Option.bind_eq_some_iff.1 h
    split at h
    · cases h
    · next hformed =>
      obtain rfl := Option.some.inj h
      exact built_of_signed hworks hpayload hsignature (by simpa using hformed)

/-! ### The request arrives -/

theorem Works.parse (hworks : Works rt client publicKey issuedAt)
    (hissued : proof.issuedAt = issuedAt) (hformed : proof.wellFormed = true) :
    parseRequestProof rt (requestOf route body proof).headers = .ok proof := by
  have hfold := hworks.casefold
  simp only [requestOf, toHeaders, List.forall_mem_cons] at hfold
  obtain ⟨-, -, -, htenant, hdevice, hkey, htime, hnonce, hbody, hsignature, -⟩ :=
    hfold
  have hread : readProof rt (requestOf route body proof).headers = some proof := by
    subst hissued
    simp [readProof, header, requestOf, toHeaders, htenant, hdevice, hkey,
      htime, hnonce, hbody, hsignature, hworks.datetime, hformed]
  rw [parseRequestProof, hread]

/-- The call of a request, as its handler sees it before the first query. -/
def attemptOf (client : Client) (proof : WorkerRequestProof) (route : String) (body : List UInt8)
    (now : Int) : Attempt :=
  ⟨requestOf route body proof, proof, now, client.tenantId⟩

/-- The clock of a process shows a time at which the proof is taken. -/
structure InWindow (rt : Runtime) (issuedAt : Calendar.DateTime) (now : Int) : Prop where
  notEarly : issuedAt.instant ≤ now + seconds rt.futureSkewSeconds
  notLate : now - issuedAt.instant ≤ seconds rt.maxAgeSeconds

theorem Built.check (hworks : Works rt client publicKey issuedAt)
    (h : Built rt client publicKey method route body issuedAt proof) {now : Int}
    (hwindow : InWindow rt issuedAt now) :
    checkRequest rt (requestOf route body proof) now =
      .ok (attemptOf client proof route body now) := by
  have hparse : parseRequestProof rt (requestOf route body proof).headers = .ok proof :=
    hworks.parse h.issuedAt h.wellFormed
  have hearly := hwindow.notEarly
  have hlate := hwindow.notLate
  have hin : ¬(now + seconds rt.futureSkewSeconds < proof.issuedAt.instant ∨
      seconds rt.maxAgeSeconds < now - proof.issuedAt.instant ∨
      proof.bodySha256 ≠ hexdigest rt (requestOf route body proof).body) := by
    have hdigest : proof.bodySha256 = hexdigest rt (requestOf route body proof).body :=
      h.bodySha256
    rw [h.issuedAt]
    simp only [hdigest, ne_eq, not_true_eq_false, or_false, not_or]
    omega
  refine bind_eq_ok.2 ⟨proof, hparse, ?_⟩
  rw [if_neg hin, h.tenantId, hworks.store]
  rfl

end Proof

/-! ### While the gateway is busy -/

/-- A call of the authenticator and what it is to find. -/
structure Call where
  number : Nat
  attempt : Attempt
  publicKey : List UInt8

namespace Call

variable (call : Call)

def worker : WorkerContext := ⟨call.attempt.proof.tenantId, call.attempt.proof.deviceId⟩

/-- The key is in use, and it is the one that the request was signed with. -/
def inUse (db : AuthDb) (databaseTime : Int) : Bool :=
  (joined db.committed call.attempt.proof).any fun row =>
    active row.1 row.2 databaseTime && decide (row.1.publicKey = call.publicKey)

/-- The nonce is new and the key that was locked is in use. -/
def consumable (db : AuthDb) (databaseTime : Int) : Bool :=
  decide (databaseTime - seconds 60 ≤ call.attempt.proof.issuedAt.instant ∧
    call.attempt.proof.issuedAt.instant ≤ databaseTime + seconds 30) &&
  (db.committed.get call.attempt.proof.nonceOf).isNone &&
  match (db.txs.get call.number).map Tx.pc with
  | some (.locked _ _ key workstation) =>
    acceptable key workstation call.attempt.proof.issuedAt.instant databaseTime
  | _ => true

/-- What the call's own steps may meet. The steps of other processes are free. -/
def Favourable (w : World) (e : Nat × Action) : Prop :=
  e.1 = call.number →
    match e.2 with
    | .begin request now => request = call.attempt.request ∧ now = call.attempt.now
    | .resolve databaseTime => call.inUse w.db databaseTime = true
    | .lockRows => (joined w.db.committed call.attempt.proof).isSome = true
    | .insertNonce databaseTime => call.consumable w.db databaseTime = true
    | .commit reported => reported = true
    | .verify | .writeKey .. | .writeWorkstation .. => True
    | .abort | .administer | .sign .. => False

/-- How far the call has come, in steps of its own. -/
inductive Stage : Nat → Option AuthTx → Prop where
  | unborn : Stage 0 none
  | admitted : Stage 1 (some ⟨[], .empty, .admitted call.attempt⟩)
  | resolved : Stage 2 (some ⟨[], .empty, .resolved call.attempt call.publicKey⟩)
  | verified : Stage 3 (some ⟨[], .empty, .verified call.attempt call.publicKey⟩)
  | locked (locks : List ((RowKey ⊕ Empty) × LockMode)) (key : KeyRow)
      (workstation : WorkstationRow) :
      Stage 4 (some ⟨locks, .empty, .locked call.attempt call.publicKey key workstation⟩)
  | inserted (locks : List ((RowKey ⊕ Empty) × LockMode)) (writes : Dict RowKey Row)
      (databaseTime : Int) :
      Stage 5 (some ⟨locks, writes, .inserted call.attempt call.publicKey databaseTime⟩)
  | accepted (databaseTime : Int) :
      Stage 6 (some ⟨[], .empty,
        .accepted ⟨call.attempt, call.publicKey, databaseTime, call.worker⟩⟩)

/-- The steps that a call takes itself. -/
def steps (events : List (Nat × Action)) : Nat :=
  events.countP fun e => decide (e.1 = call.number)

end Call

/-- What is known of the request of a call. -/
structure Call.Signed (rt : Runtime) (call : Call) : Prop where
  checked : checkRequest rt call.attempt.request call.attempt.now = .ok call.attempt
  identified : requireIdentity call.attempt.store call.attempt.proof = .ok ()
  permitted : requireProof call.attempt.store call.attempt.proof call.attempt.request.route = .ok ()
  verified : ∃ payload, call.attempt.proof.canonicalSigningBytes call.attempt.request.method
      call.attempt.request.route = .ok payload ∧
    verifies rt [call.publicKey] payload call.attempt.proof.signature = true
  named : fromAuthAdapter call.attempt.proof.tenantId call.attempt.proof.deviceId =
    some call.worker

section Steps

variable {rt : Runtime} {call : Call} {w w' : World} {n : Nat} {tx : AuthTx} {db : AuthDb}

/-- Another process leaves the call where it is. -/
theorem step_other {e : Nat × Action} (hne : e.1 ≠ call.number) (hstep : step rt w e = some w') :
    w'.db.txs.get call.number = w.db.txs.get call.number := by
  obtain ⟨t, action⟩ := e
  have hset : ∀ x, (w.db.txs.set t x).get call.number = w.db.txs.get call.number := by
    intro x
    rw [Dict.get_set, if_neg hne]
  have hstatement : ∀ x, (statement rt w.db t x action).map (fun db => { w with db := db }) =
      some w' → w'.db.txs.get call.number = w.db.txs.get call.number := by
    intro x hmap
    obtain ⟨db, hdb, rfl⟩ := Option.map_eq_some_iff.1 hmap
    rcases statement_cases hdb with ⟨tx', rfl, -⟩ | ⟨pc, rfl, -⟩
    · exact hset tx'
    · exact hset ⟨[], .empty, pc⟩
  cases action with
  | sign publicKey payload =>
    obtain rfl := Option.some.inj hstep
    rfl
  | begin request now =>
    simp only [step] at hstep
    split at hstep
    · cases hstep
    · split at hstep <;>
      · obtain rfl := Option.some.inj hstep
        exact hset _
  | administer =>
    simp only [step] at hstep
    split at hstep
    · cases hstep
    · obtain rfl := Option.some.inj hstep
      exact hset _
  | _ =>
    simp only [step] at hstep
    split at hstep
    · cases hstep
    · next x hget => exact hstatement x hstep

theorem begin_stage (hsigned : call.Signed rt)
    (hstage : call.Stage n (w.db.txs.get call.number))
    (hstep : step rt w (call.number, .begin call.attempt.request call.attempt.now) = some w') :
    call.Stage (n + 1) (w'.db.txs.get call.number) := by
  simp only [step, hsigned.checked] at hstep
  split at hstep
  · cases hstep
  · next hnone =>
    obtain rfl := Option.some.inj hstep
    rw [hnone] at hstage
    cases hstage
    simpa [Db.setTx_get] using Call.Stage.admitted

theorem resolve_stage (hsigned : call.Signed rt) (hstage : call.Stage n (some tx))
    {databaseTime : Int} (huse : call.inUse w.db databaseTime = true)
    (hstep : resolve w.db call.number tx databaseTime = some db) :
    call.Stage (n + 1) (db.txs.get call.number) := by
  cases hstage with
  | admitted =>
    obtain ⟨⟨key, workstation⟩, hjoined, hrow⟩ := (Option.any_eq_true _ _).1 huse
    simp only [Bool.and_eq_true, decide_eq_true_eq] at hrow
    have hoctets : call.publicKey.length = 32 := hrow.2 ▸ key.octets
    have hresolve : resolvePublicKey w.db.committed call.attempt.store call.attempt.proof
        databaseTime = .ok (some call.publicKey) := by
      refine bind_eq_ok.2 ⟨(), hsigned.identified, ?_⟩
      simp [hjoined, hrow.1, hrow.2, hoctets]
    simp only [resolve, hresolve] at hstep
    obtain rfl := Option.some.inj hstep
    simpa [goto, Db.setTx_get] using Call.Stage.resolved
  | _ => cases hstep

theorem verify_stage (hsigned : call.Signed rt) (hstage : call.Stage n (some tx))
    (hstep : verify rt w.db call.number tx = some db) :
    call.Stage (n + 1) (db.txs.get call.number) := by
  cases hstage with
  | resolved =>
    obtain ⟨payload, hpayload, hverifies⟩ := hsigned.verified
    simp only [verify, hpayload, hverifies, if_true] at hstep
    obtain rfl := Option.some.inj hstep
    simpa [goto, Db.setTx_get] using Call.Stage.verified
  | _ => cases hstep

theorem lockRows_stage (hsigned : call.Signed rt) (hstage : call.Stage n (some tx))
    (hjoined : (joined w.db.committed call.attempt.proof).isSome = true)
    (hstep : lockRows w.db call.number tx = some db) :
    call.Stage (n + 1) (db.txs.get call.number) := by
  cases hstage with
  | verified =>
    have hvisible : joined (w.db.visible ⟨[], .empty, .verified call.attempt call.publicKey⟩)
        call.attempt.proof = joined w.db.committed call.attempt.proof := by
      simp only [joined, visible_of_unwritten w.db]
    simp only [lockRows, hsigned.permitted, hvisible] at hstep
    split at hstep
    · split at hstep
      · next hnone => simp [hnone] at hjoined
      · obtain rfl := Option.some.inj hstep
        simpa [Db.setTx_get] using Call.Stage.locked _ _ _
    · cases hstep
  | _ => cases hstep

theorem insertNonce_stage (hget : w.db.txs.get call.number = some tx)
    (hstage : call.Stage n (some tx)) {databaseTime : Int}
    (hconsumable : call.consumable w.db databaseTime = true)
    (hstep : insertNonce w.db call.number tx databaseTime = some db) :
    call.Stage (n + 1) (db.txs.get call.number) := by
  cases hstage with
  | locked locks key workstation =>
    simp only [Call.consumable, hget, Option.map_some, Bool.and_eq_true, decide_eq_true_eq,
      Option.isNone_iff_eq_none] at hconsumable
    obtain ⟨⟨htimely, hfresh⟩, hacceptable⟩ := hconsumable
    simp only [insertNonce, dif_pos htimely, hacceptable, Bool.true_eq_false, if_false,
      visible_of_unwritten w.db, hfresh] at hstep
    split at hstep
    · obtain rfl := Option.some.inj hstep
      simpa [Db.setTx_get] using Call.Stage.inserted _ _ _
    · cases hstep
  | _ => cases hstep

theorem commit_stage (hsigned : call.Signed rt) (hstage : call.Stage n (some tx))
    (hstep : commit w.db call.number tx true = some db) :
    call.Stage (n + 1) (db.txs.get call.number) := by
  cases hstage with
  | inserted locks writes databaseTime =>
    simp only [commit, hsigned.named, if_true] at hstep
    obtain rfl := Option.some.inj hstep
    simpa [Db.commit, Dict.get_set] using Call.Stage.accepted databaseTime
  | _ => cases hstep

/-- Every step of its own takes the call one stage on. -/
theorem step_stage {e : Nat × Action} (hsigned : call.Signed rt)
    (hstage : call.Stage n (w.db.txs.get call.number)) (hok : call.Favourable w e)
    (hstep : step rt w e = some w') :
    call.Stage (n + call.steps [e]) (w'.db.txs.get call.number) := by
  obtain ⟨t, action⟩ := e
  by_cases ht : t = call.number
  · subst ht
    have hok := hok rfl
    have hcount : call.steps [(call.number, action)] = 1 := by simp [Call.steps]
    have hstatement : ∀ tx, w.db.txs.get call.number = some tx →
        (∀ db, statement rt w.db call.number tx action = some db →
          call.Stage n (some tx) → call.Stage (n + 1) (db.txs.get call.number)) →
        (statement rt w.db call.number tx action).map (fun db => { w with db := db }) = some w' →
        call.Stage (n + 1) (w'.db.txs.get call.number) := by
      intro tx hget hone hmap
      obtain ⟨db, hdb, rfl⟩ := Option.map_eq_some_iff.1 hmap
      exact hone db hdb (hget ▸ hstage)
    rw [hcount]
    cases action with
    | begin request now =>
      obtain ⟨rfl, rfl⟩ := hok
      exact begin_stage hsigned hstage hstep
    | administer => exact hok.elim
    | sign publicKey payload => exact hok.elim
    | _ =>
      simp only [step] at hstep
      split at hstep
      · cases hstep
      · next tx hget =>
        refine hstatement tx hget (fun db hdb hat => ?_) hstep
        first
        | exact resolve_stage hsigned hat hok hdb
        | exact verify_stage hsigned hat hdb
        | exact lockRows_stage hsigned hat hok hdb
        | exact insertNonce_stage hget hat hok hdb
        | exact commit_stage hsigned hat (hok ▸ hdb)
        | exact hok.elim
        | cases hat <;> cases hdb
  · have hcount : call.steps [(t, action)] = 0 := by simp [Call.steps, ht]
    rw [hcount, step_other ht hstep]
    exact hstage

theorem run_stage (hsigned : call.Signed rt) {events : List (Nat × Action)}
    (hstage : call.Stage n (w.db.txs.get call.number))
    (hok : Along (step rt) call.Favourable w events) (hrun : run (step rt) w events = some w') :
    call.Stage (n + call.steps events) (w'.db.txs.get call.number) := by
  induction events generalizing w n with
  | nil =>
    obtain rfl := Option.some.inj hrun
    exact hstage
  | cons e events ih =>
    cases hstep : step rt w e with
    | none => simp [run, hstep] at hrun
    | some u =>
      have hrun' : run (step rt) u events = some w' := by simpa [run, hstep] using hrun
      have hok' : Along (step rt) call.Favourable u events := by simpa [Along, hstep] using hok.2
      have hcount : call.steps (e :: events) = call.steps [e] + call.steps events := by
        simp only [Call.steps, List.countP_cons, List.countP_nil]
        omega
      rw [hcount, ← Nat.add_assoc]
      exact ih (step_stage hsigned hstage hok.1 hstep) hok' hrun'

end Steps

theorem Built.signed {rt : Runtime} {client : Client} {publicKey : List UInt8}
    {issuedAt : Calendar.DateTime} {route : String} {body : List UInt8}
    {proof : WorkerRequestProof} (hworks : Works rt client publicKey issuedAt)
    (h : Built rt client publicKey "POST" route body issuedAt proof) {now : Int}
    (hwindow : InWindow rt issuedAt now) (t : Nat) :
    Call.Signed rt ⟨t, attemptOf client proof route body now, publicKey⟩ := by
  obtain ⟨payload, hpayload, hverifies⟩ := h.verified
  have hformed := h.wellFormed
  simp only [WorkerRequestProof.wellFormed, Bool.and_eq_true] at hformed
  obtain ⟨⟨⟨⟨⟨htenant, hdevice⟩, hkey⟩, hnonce⟩, hsha⟩, -⟩ := hformed
  have hdevice' := isGatewayId_of_isWireId hdevice
  have hroute : route ∈ workerRequestRoutes := by
    unfold WorkerRequestProof.canonicalSigningBytes at hpayload
    split at hpayload
    · cases hpayload
    · next hno => simpa using hno
  have hidentity : requireIdentity client.tenantId proof = .ok () := by
    rw [requireIdentity, ← h.tenantId]
    simp [htenant, hdevice', hkey]
  refine ⟨h.check hworks hwindow, hidentity, ?_, ⟨payload, hpayload, hverifies⟩, ?_⟩
  · refine bind_eq_ok.2 ⟨(), hidentity, ?_⟩
    simp [attemptOf, requestOf, hnonce, hsha, hroute]
  · simp [attemptOf, fromAuthAdapter, htenant, hdevice', Call.worker]

theorem Call.Stage.ne_failed {call : Call} {n : Nat} {tx : AuthTx}
    (h : call.Stage n (some tx)) : tx.pc ≠ .failed := by
  cases h <;> simp

theorem Call.Stage.le {call : Call} {n : Nat} {found : Option AuthTx} (h : call.Stage n found) :
    n ≤ 6 := by
  cases h <;> omega

/-- A request that a worker signs with a key in use is never refused: six steps of the call
authenticate it, whatever other calls and administrators do in between. -/
theorem signed_request_authenticates (rt : Runtime) (client : Client) (publicKey : List UInt8)
    (issuedAt : Calendar.DateTime) (nonce route : String) (body : List UInt8)
    (proof : WorkerRequestProof) (hworks : Works rt client publicKey issuedAt)
    (hproof : buildRequestProof rt client issuedAt nonce "POST" route body = some proof)
    (now : Int) (hwindow : InWindow rt issuedAt now) (t : Nat) (w w' : World)
    (events : List (Nat × Action)) (hnew : w.db.txs.get t = none)
    (hok : Along (step rt)
      (Call.Favourable ⟨t, attemptOf client proof route body now, publicKey⟩) w events)
    (hrun : run (step rt) w events = some w') :
    (∀ tx, w'.db.txs.get t = some tx → tx.pc ≠ .failed) ∧
      (events.filter fun e => e.1 = t).length ≤ 6 ∧
      ((events.filter fun e => e.1 = t).length = 6 → ∃ s, w'.Accepted t s ∧
        s.worker = ⟨client.tenantId, client.deviceId⟩ ∧ s.attempt.proof = proof ∧
        s.attempt.request.body = body ∧ s.publicKey = publicKey) := by
  have hbuilt := buildRequestProof_built hworks hproof
  have hsigned := hbuilt.signed hworks hwindow t
  have hstage := run_stage hsigned (n := 0) (hnew ▸ .unborn) hok hrun
  rw [Nat.zero_add, Call.steps, List.countP_eq_length_filter] at hstage
  refine ⟨fun tx hget => ?_, hstage.le, fun hsix => ?_⟩
  · exact Call.Stage.ne_failed (hget ▸ hstage)
  · rw [hsix] at hstage
    cases hfound : w'.db.txs.get t with
    | none =>
      rw [hfound] at hstage
      cases hstage
    | some tx =>
      rw [hfound] at hstage
      cases hstage with
      | accepted databaseTime =>
        refine ⟨_, ⟨_, hfound, rfl⟩, ?_, rfl, rfl, rfl⟩
        rw [Call.worker, attemptOf, hbuilt.tenantId, hbuilt.deviceId]

section Example

deriving instance DecidableEq for Request

deriving instance DecidableEq for WorkerRequestProof

instance (call : Call) (w : World) (e : Nat × Action) : Decidable (call.Favourable w e) :=
  match e with
  | (t, .begin request now) => inferInstanceAs
    (Decidable (t = call.number → request = call.attempt.request ∧ now = call.attempt.now))
  | (t, .resolve databaseTime) => inferInstanceAs
    (Decidable (t = call.number → call.inUse w.db databaseTime = true))
  | (t, .lockRows) => inferInstanceAs
    (Decidable (t = call.number → (joined w.db.committed call.attempt.proof).isSome = true))
  | (t, .insertNonce databaseTime) => inferInstanceAs
    (Decidable (t = call.number → call.consumable w.db databaseTime = true))
  | (t, .commit reported) => inferInstanceAs (Decidable (t = call.number → reported = true))
  | (t, .verify) | (t, .writeKey ..) | (t, .writeWorkstation ..) => inferInstanceAs
    (Decidable (t = call.number → True))
  | (t, .abort) | (t, .administer) | (t, .sign ..) => inferInstanceAs
    (Decidable (t = call.number → False))

def pollClient : Client where
  tenantId := pollProof.tenantId
  deviceId := pollProof.deviceId
  keyId := pollProof.keyId
  sign := signPoll

def pollRoute : String := "/worker/v1/tasks/poll"

/-- Someone else sends the request again, and the workstation is disabled after all. -/
def busyGateway : List (Nat × Action) :=
  let now := leapDay.instant
  let request := requestOf pollRoute pollBody pollProof
  [(1, .begin request now), (0, .begin request now), (1, .resolve now), (0, .resolve now),
    (2, .administer), (0, .verify), (1, .verify), (0, .lockRows), (1, .lockRows),
    (0, .insertNonce now), (0, .commit true), (1, .insertNonce now),
    (2, .writeWorkstation pollProof.tenantId pollProof.deviceId ⟨false⟩), (2, .commit true)]

theorem pollClient_works : Works pollRuntime pollClient deviceKey leapDay where
  casefold _ _ := rfl
  datetime := by decide +kernel
  octets payload := by
    change (signPoll payload).length = 64
    unfold signPoll
    split
    · rfl
    · rfl
  verifies payload := by simp [pollRuntime, pollClient]
  key := by decide
  store := rfl

theorem buildRequestProof_poll :
    buildRequestProof pollRuntime pollClient leapDay pollProof.nonce "POST" pollRoute pollBody =
      some pollProof := by
  decide +kernel

theorem inWindow_leapDay : InWindow pollRuntime leapDay leapDay.instant := ⟨by decide, by decide⟩

def pollCall : Call :=
  ⟨0, attemptOf pollClient pollProof pollRoute pollBody leapDay.instant, deviceKey⟩

theorem busyGateway_favourable :
    Along (step pollRuntime) pollCall.Favourable ⟨⟨enrolledRows, .empty⟩, []⟩ busyGateway := by
  decide +kernel

theorem exists_run_busyGateway :
    ∃ w', run (step pollRuntime) ⟨⟨enrolledRows, .empty⟩, []⟩ busyGateway = some w' ∧
      w'.accepts 1 = false := by
  have hrun : (run (step pollRuntime) ⟨⟨enrolledRows, .empty⟩, []⟩ busyGateway).any
      (fun w' => !w'.accepts 1) = true := by decide +kernel
  obtain ⟨w', hw', hreplay⟩ := (Option.any_eq_true _ _).1 hrun
  exact ⟨w', hw', by simpa only [Bool.not_eq_true'] using hreplay⟩

theorem signed_request_authenticates_busy :
    ∃ w' s, run (step pollRuntime) ⟨⟨enrolledRows, .empty⟩, []⟩ busyGateway = some w' ∧
      w'.accepts 1 = false ∧ w'.Accepted 0 s ∧
      s.worker = ⟨pollClient.tenantId, pollClient.deviceId⟩ := by
  obtain ⟨w', hw', hreplay⟩ := exists_run_busyGateway
  obtain ⟨-, -, hsix⟩ := signed_request_authenticates pollRuntime pollClient deviceKey leapDay
    pollProof.nonce pollRoute pollBody pollProof pollClient_works buildRequestProof_poll
    leapDay.instant inWindow_leapDay 0 _ w' busyGateway rfl busyGateway_favourable hw'
  obtain ⟨s, haccepted, hworker, -⟩ := hsix rfl
  exact ⟨w', s, hw', hreplay, haccepted, hworker⟩

end Example

end CadPlot.Worker.RequestProofs
