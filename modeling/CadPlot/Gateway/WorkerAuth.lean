import CadPlot.Gateway.ReplayGuard
import CadPlot.Lib.Calendar
import CadPlot.Lib.Json
import CadPlot.Lib.Outcome
import CadPlot.Lib.ReadCommitted
import CadPlot.Protocol.Formats

/-!
# Authentication of worker requests

`WorkerRequestAuthenticator.authenticate`, one call of it a process that other
processes interleave with: it looks a key up, verifies, and has the nonce
consumed by the function of the credentials migration, whose statements are
steps of their own. Keys and workstations change under it by an administrator's
transactions, through the trigger on keys. No statement of the migrations
removes a key or a nonce.
-/

namespace CadPlot.Gateway.WorkerAuth

open Protocol ReadCommitted Replay

/-! ### The proof in the headers -/

structure WorkerRequestProof where
  tenantId : TenantId
  deviceId : WorkstationId
  keyId : String
  issuedAt : Calendar.DateTime
  nonce : String
  bodySha256 : String
  signature : String

structure Request where
  headers : List (String × String)
  body : List UInt8
  method : String
  route : String

/-- What the authenticator is built with, and the libraries it calls: the folding of header names,
the reading of timestamps with their offsets, the digest, Ed25519 and keys in PEM. -/
structure Runtime where
  casefold : String → String
  parseDatetime : String → Option (Calendar.DateTime × Option Int)
  sha256 : List UInt8 → List UInt8
  ed25519 : List UInt8 → List UInt8 → List UInt8 → Bool
  loadPem : List UInt8 → Option (List UInt8)
  storeForTenant : TenantId → Option TenantId
  maxAgeSeconds : Nat
  futureSkewSeconds : Nat
  window : (1 ≤ maxAgeSeconds ∧ maxAgeSeconds ≤ 300) ∧ futureSkewSeconds ≤ 60

def isKeyId (value : String) : Bool := isWireId "wkey" value

/-- `^[0-9a-f]{64}$` -/
def isSha256 (value : String) : Bool :=
  decide (value.toList.length = 64) && value.toList.all Text.isLowerHex

/-- `^[A-Za-z0-9_-]{86}$` -/
def isSignature (value : String) : Bool :=
  decide (value.toList.length = 86) &&
    value.toList.all fun c => c.isAlphanum || c = '_' || c = '-'

def WorkerRequestProof.wellFormed (p : WorkerRequestProof) : Bool :=
  isGatewayId "tnt" p.tenantId && isWireId "ws" p.deviceId && isKeyId p.keyId && isNonce p.nonce &&
    isSha256 p.bodySha256 && isSignature p.signature

/-- The header of a name, the last one where several fold to it. -/
def header (rt : Runtime) (headers : List (String × String)) (name : String) : Option String :=
  (headers.reverse.find? fun h => rt.casefold h.1 = name).map Prod.snd

def readProof (rt : Runtime) (headers : List (String × String)) : Option WorkerRequestProof := do
  let tenantId ← header rt headers "x-cadplot-tenant-id"
  let deviceId ← header rt headers "x-cadplot-device-id"
  let keyId ← header rt headers "x-cadplot-key-id"
  let issued ← header rt headers "x-cadplot-issued-at"
  let nonce ← header rt headers "x-cadplot-nonce"
  let bodySha256 ← header rt headers "x-cadplot-body-sha256"
  let signature ← header rt headers "x-cadplot-signature"
  let (issuedAt, offset) ← rt.parseDatetime issued
  let proof : WorkerRequestProof :=
    ⟨tenantId, deviceId, keyId, issuedAt, nonce, bodySha256, signature⟩
  if offset = some 0 ∧ proof.wellFormed = true then some proof else none

/-- `parse_request_proof` -/
def parseRequestProof (rt : Runtime) (headers : List (String × String)) :
    Except String WorkerRequestProof :=
  match readProof rt headers with
  | none => .error "worker_request_proof_invalid"
  | some proof => .ok proof

def workerRequestRoutes : List String :=
  ["/worker/v1/tasks/poll", "/worker/v1/tasks/start", "/worker/v1/tasks/complete"]

/-- What is signed: every field but the signature, and the target of the request. -/
def WorkerRequestProof.document (p : WorkerRequestProof) (method route : String) :
    List (String × Json) :=
  [("protocol_version", .int 1), ("tenant_id", .str p.tenantId), ("device_id", .str p.deviceId),
    ("key_id", .str p.keyId), ("issued_at", .str (String.ofList p.issuedAt.zulu)),
    ("nonce", .str p.nonce), ("body_sha256", .str p.bodySha256), ("method", .str method),
    ("route", .str route)]

/-- `canonical_signing_bytes` -/
def WorkerRequestProof.canonicalSigningBytes (p : WorkerRequestProof) (method route : String) :
    Except String (List UInt8) :=
  if method ≠ "POST" ∨ workerRequestRoutes.contains route = false then
    .error "worker_request_target_invalid"
  else .ok (Text.utf8 ((Json.obj (p.document method route)).sortKeys.render Json.modelStyle))

def hexdigest (rt : Runtime) (body : List UInt8) : String :=
  String.ofList (Text.hex (rt.sha256 body))

/-! ### Verification -/

/-- The value of a character, in the alphabet of URLs or the standard one. -/
def base64Value (c : Char) : Option Nat :=
  if c.isUpper then some (c.toNat - 65)
  else if c.isLower then some (c.toNat - 71)
  else if c.isDigit then some (c.toNat + 4)
  else if c = '-' ∨ c = '+' then some 62
  else if c = '_' ∨ c = '/' then some 63
  else none

/-- The bytes of sextets, the last two of which may make one. -/
def octets : List Nat → List UInt8
  | a :: b :: c :: d :: rest =>
    UInt8.ofNat (a * 4 + b / 16) :: UInt8.ofNat (b % 16 * 16 + c / 4) ::
      UInt8.ofNat (c % 4 * 64 + d) :: octets rest
  | a :: b :: _ => [UInt8.ofNat (a * 4 + b / 16)]
  | _ => []

/-- `_decode_signature` -/
def decodeSignature (value : String) : Option (List UInt8) :=
  if value.toList.length ≠ 86 ∨ value.toList.contains '=' = true then none
  else do
    let sextets ← value.toList.mapM base64Value
    let decoded := octets sextets
    if decoded.length ≠ 64 then none else some decoded

/-- `WorkstationSignatureVerifier` with the keys it resolves -/
def verifies (rt : Runtime) (keys : List (List UInt8)) (payload : List UInt8)
    (signature : String) : Bool :=
  match decodeSignature signature with
  | none => false
  | some decoded =>
    !payload.isEmpty && decide (1 ≤ keys.length ∧ keys.length ≤ 8) && keys.any fun material =>
      if material.length = 32 then rt.ed25519 material decoded payload
      else match rt.loadPem material with
        | none => false
        | some key => rt.ed25519 key decoded payload

/-! ### The tables -/

structure KeyRow where
  algorithm : String
  publicKey : List UInt8
  enabled : Bool
  notBefore : Int
  expiresAt : Option Int
  revokedAt : Option Int
  createdAt : Int
  known : algorithm = "ed25519"
  octets : publicKey.length = 32
  lifetime : (∀ e ∈ expiresAt, notBefore < e) ∧ ∀ r ∈ revokedAt, notBefore ≤ r

structure WorkstationRow where
  enabled : Bool

structure NonceRow where
  route : String
  bodySha256 : String
  issuedAt : Int
  consumedAt : Int
  timely : consumedAt - seconds 60 ≤ issuedAt ∧ issuedAt ≤ consumedAt + seconds 30

inductive RowKey where
  | workstation (tenantId : TenantId) (workstationId : WorkstationId)
  | key (tenantId : TenantId) (workstationId : WorkstationId) (keyId : String)
  | nonce (tenantId : TenantId) (workstationId : WorkstationId) (keyId nonce : String)
  deriving DecidableEq

inductive Row where
  | workstation (row : WorkstationRow)
  | key (row : KeyRow)
  | nonce (row : NonceRow)

namespace WorkerRequestProof

def workstationOf (p : WorkerRequestProof) : RowKey := .workstation p.tenantId p.deviceId

def keyOf (p : WorkerRequestProof) : RowKey := .key p.tenantId p.deviceId p.keyId

def nonceOf (p : WorkerRequestProof) : RowKey := .nonce p.tenantId p.deviceId p.keyId p.nonce

end WorkerRequestProof

/-- The credential of a proof and its workstation, where both are there. -/
def joined (rows : Dict RowKey Row) (p : WorkerRequestProof) : Option (KeyRow × WorkstationRow) :=
  match rows.get p.keyOf, rows.get p.workstationOf with
  | some (.key key), some (.workstation workstation) => some (key, workstation)
  | _, _ => none

/-- A key in use at a moment, on a workstation in use. -/
def active (key : KeyRow) (workstation : WorkstationRow) (now : Int) : Bool :=
  workstation.enabled && key.enabled && decide (key.algorithm = "ed25519") &&
    key.revokedAt.isNone && decide (key.notBefore ≤ now) &&
    key.expiresAt.all fun e => decide (now < e)

/-- `_require_tenant` and the checks of identifiers that both calls of the store begin with. -/
def requireIdentity (store : TenantId) (p : WorkerRequestProof) : Except String Unit :=
  if isGatewayId "tnt" p.tenantId = false then .error "invalid_identifier"
  else if p.tenantId ≠ store then .error "tenant_scope_mismatch"
  else if isGatewayId "ws" p.deviceId = false ∨ isKeyId p.keyId = false then
    .error "invalid_identifier"
  else .ok ()

/-- `resolve_public_key` -/
def resolvePublicKey (rows : Dict RowKey Row) (store : TenantId) (p : WorkerRequestProof)
    (databaseTime : Int) : Except String (Option (List UInt8)) := do
  requireIdentity store p
  match joined rows p with
  | none => .ok none
  | some (key, workstation) =>
    if active key workstation databaseTime = false then .ok none
    else if key.publicKey.length ≠ 32 then .error "invalid_key"
    else .ok (some key.publicKey)

/-- What `consume_request_nonce` checks before it asks the database. -/
def requireProof (store : TenantId) (p : WorkerRequestProof) (route : String) :
    Except String Unit := do
  requireIdentity store p
  if isNonce p.nonce = false ∨ isSha256 p.bodySha256 = false then .error "invalid_identifier"
  else if workerRequestRoutes.contains route = false then .error "invalid_request_proof"
  else .ok ()

/-- The decision of `consume_worker_request_nonce` on the rows it has locked. -/
def acceptable (key : KeyRow) (workstation : WorkstationRow) (issuedAt databaseTime : Int) : Bool :=
  active key workstation databaseTime && decide (key.publicKey.length = 32) &&
    decide (key.notBefore ≤ issuedAt) && key.expiresAt.all fun e => decide (issuedAt < e)

/-- `reject_worker_verification_key_unsafe_mutation` -/
def rejectUnsafeMutation (old new : KeyRow) : Except String Unit :=
  if new.algorithm ≠ old.algorithm ∨ new.publicKey ≠ old.publicKey ∨
      new.notBefore ≠ old.notBefore ∨ new.createdAt ≠ old.createdAt ∨
      (old.revokedAt ≠ none ∧ new.revokedAt ≠ old.revokedAt) then
    .error "worker_verification_key_unsafe_mutation"
  else .ok ()

/-! ### Calls in progress -/

/-- A request whose proof was read and is in time, and the tenant of its store. -/
structure Attempt where
  request : Request
  proof : WorkerRequestProof
  now : Int
  store : TenantId

/-- The part of `authenticate` before its first query. -/
def checkRequest (rt : Runtime) (request : Request) (now : Int) : Except String Attempt := do
  let proof ← parseRequestProof rt request.headers
  if now + seconds rt.futureSkewSeconds < proof.issuedAt.instant ∨
      seconds rt.maxAgeSeconds < now - proof.issuedAt.instant ∨
      proof.bodySha256 ≠ hexdigest rt request.body then
    .error "worker_authentication_failed"
  else match rt.storeForTenant proof.tenantId with
    | none => .error "worker_authentication_failed"
    | some store => .ok ⟨request, proof, now, store⟩

/-- `WorkerContext.from_auth_adapter` -/
def fromAuthAdapter (tenantId : TenantId) (workstationId : WorkstationId) : Option WorkerContext :=
  if isGatewayId "tnt" tenantId = true ∧ isGatewayId "ws" workstationId = true then
    some ⟨tenantId, workstationId⟩
  else none

/-- A call that succeeded: the key it verified under and when its nonce was consumed. -/
structure Acceptance where
  attempt : Attempt
  publicKey : List UInt8
  consumedAt : Int
  worker : WorkerContext

inductive Pc where
  | failed
  | admitted (a : Attempt)
  | resolved (a : Attempt) (publicKey : List UInt8)
  | verified (a : Attempt) (publicKey : List UInt8)
  | locked (a : Attempt) (publicKey : List UInt8) (key : KeyRow) (workstation : WorkstationRow)
  | inserted (a : Attempt) (publicKey : List UInt8) (databaseTime : Int)
  | accepted (s : Acceptance)
  | administering
  | closed

inductive Action where
  | begin (request : Request) (now : Int)
  | resolve (databaseTime : Int)
  | verify
  | lockRows
  | insertNonce (databaseTime : Int)
  | commit (reported : Bool)
  | abort
  | administer
  | writeKey (tenantId : TenantId) (workstationId : WorkstationId) (keyId : String) (row : KeyRow)
  | writeWorkstation (tenantId : TenantId) (workstationId : WorkstationId) (row : WorkstationRow)
  | sign (publicKey payload : List UInt8)

abbrev AuthTx := Tx RowKey Empty Row Pc
abbrev AuthDb := Db RowKey Empty Row Pc

/-- The database and the calls, and what the holders of keys have signed. -/
structure World where
  db : AuthDb
  signed : List (List UInt8 × List UInt8)

section Statements

variable (rt : Runtime) (db : AuthDb) (t : Nat) (tx : AuthTx)

def goto (pc : Pc) : AuthDb := db.setTx t { tx with pc := pc }

def fail : AuthDb := db.rollback t .failed

def resolve (databaseTime : Int) : Option AuthDb :=
  match tx.pc with
  | .admitted a =>
    match resolvePublicKey db.committed a.store a.proof databaseTime with
    | .ok (some publicKey) => some (goto db t tx (.resolved a publicKey))
    | _ => some (fail db t)
  | _ => none

def verify : Option AuthDb :=
  match tx.pc with
  | .resolved a publicKey =>
    match a.proof.canonicalSigningBytes a.request.method a.request.route with
    | .error _ => some (fail db t)
    | .ok payload =>
      if verifies rt [publicKey] payload a.proof.signature then
        some (goto db t tx (.verified a publicKey))
      else some (fail db t)
  | _ => none

/-- The locking read. It waits for transactions that are writing either row. -/
def lockRows : Option AuthDb :=
  match tx.pc with
  | .verified a publicKey =>
    match requireProof a.store a.proof a.request.route with
    | .error _ => some (fail db t)
    | .ok () =>
      if db.free t (.inl a.proof.keyOf) .share && db.free t (.inl a.proof.workstationOf) .share then
        match joined (db.visible tx) a.proof with
        | none => some (fail db t)
        | some (key, workstation) =>
          some (db.setTx t { tx with
            locks := (.inl a.proof.workstationOf, .share) ::
              (.inl a.proof.keyOf, .share) :: tx.locks
            pc := .locked a publicKey key workstation })
      else none
  | _ => none

/-- The insert. It waits for another transaction's row of this nonce to be decided. -/
def insertNonce (databaseTime : Int) : Option AuthDb :=
  match tx.pc with
  | .locked a publicKey key workstation =>
    if h : databaseTime - seconds 60 ≤ a.proof.issuedAt.instant ∧
        a.proof.issuedAt.instant ≤ databaseTime + seconds 30 then
      if acceptable key workstation a.proof.issuedAt.instant databaseTime = false then
        some (fail db t)
      else
        match (db.visible tx).get a.proof.nonceOf with
        | some _ => some (fail db t)
        | none =>
          if db.free t (.inl a.proof.nonceOf) .update then
            some (db.setTx t ⟨(.inl a.proof.nonceOf, .update) :: tx.locks,
              tx.writes.set a.proof.nonceOf (.nonce ⟨a.request.route, a.proof.bodySha256,
                a.proof.issuedAt.instant, databaseTime, h⟩),
              .inserted a publicKey databaseTime⟩)
          else none
    else some (fail db t)
  | _ => none

/-- The end of a transaction, which its caller may not get to know. -/
def commit (reported : Bool) : Option AuthDb :=
  match tx.pc with
  | .inserted a publicKey databaseTime =>
    match fromAuthAdapter a.proof.tenantId a.proof.deviceId with
    | none => some (db.commit t tx .failed)
    | some worker =>
      some (db.commit t tx
        (if reported then .accepted ⟨a, publicKey, databaseTime, worker⟩ else .failed))
  | .administering => some (db.commit t tx .closed)
  | _ => none

/-- A call that is over cannot fail any more. -/
def abort : Option AuthDb :=
  match tx.pc with
  | .accepted _ | .failed | .closed => none
  | _ => some (fail db t)

/-- An administrator enrols a key or changes one, through the trigger. -/
def writeKey (tenantId : TenantId) (workstationId : WorkstationId) (keyId : String)
    (row : KeyRow) : Option AuthDb :=
  match tx.pc with
  | .administering =>
    if db.free t (.inl (.key tenantId workstationId keyId)) .update then
      let write := db.setTx t
        ⟨(.inl (.key tenantId workstationId keyId), .update) :: tx.locks,
          tx.writes.set (.key tenantId workstationId keyId) (.key row), .administering⟩
      match (db.visible tx).get (.key tenantId workstationId keyId) with
      | some (.key old) =>
        match rejectUnsafeMutation old row with
        | .error _ => some (fail db t)
        | .ok () => some write
      | _ => some write
    else none
  | _ => none

def writeWorkstation (tenantId : TenantId) (workstationId : WorkstationId)
    (row : WorkstationRow) : Option AuthDb :=
  match tx.pc with
  | .administering =>
    if db.free t (.inl (.workstation tenantId workstationId)) .update then
      some (db.setTx t
        ⟨(.inl (.workstation tenantId workstationId), .update) :: tx.locks,
          tx.writes.set (.workstation tenantId workstationId) (.workstation row), .administering⟩)
    else none
  | _ => none

end Statements

def statement (rt : Runtime) (db : AuthDb) (t : Nat) (tx : AuthTx) : Action → Option AuthDb
  | .begin .. | .administer | .sign .. => none
  | .resolve databaseTime => resolve db t tx databaseTime
  | .verify => verify rt db t tx
  | .lockRows => lockRows db t tx
  | .insertNonce databaseTime => insertNonce db t tx databaseTime
  | .commit reported => commit db t tx reported
  | .abort => abort db t tx
  | .writeKey tenantId workstationId keyId row => writeKey db t tx tenantId workstationId keyId row
  | .writeWorkstation tenantId workstationId row =>
    writeWorkstation db t tx tenantId workstationId row

/-- One step of one process. A new process takes a number that was never used. -/
def step (rt : Runtime) (w : World) (e : Nat × Action) : Option World :=
  match e.2 with
  | .sign publicKey payload => some { w with signed := (publicKey, payload) :: w.signed }
  | .begin request now =>
    match w.db.txs.get e.1 with
    | some _ => none
    | none =>
      match checkRequest rt request now with
      | .error _ => some { w with db := w.db.setTx e.1 ⟨[], .empty, .failed⟩ }
      | .ok a => some { w with db := w.db.setTx e.1 ⟨[], .empty, .admitted a⟩ }
  | .administer =>
    match w.db.txs.get e.1 with
    | some _ => none
    | none => some { w with db := w.db.setTx e.1 ⟨[], .empty, .administering⟩ }
  | action =>
    match w.db.txs.get e.1 with
    | none => none
    | some tx => (statement rt w.db e.1 tx action).map fun db => { w with db := db }

/-- A signature verifies that the holder of the key has not made. -/
def forges (w : World) (rt : Runtime) (e : Nat × Action) : Bool :=
  match e.2, (w.db.txs.get e.1).map Tx.pc with
  | .verify, some (.resolved a publicKey) =>
    match a.proof.canonicalSigningBytes a.request.method a.request.route with
    | .error _ => false
    | .ok payload =>
      verifies rt [publicKey] payload a.proof.signature && !w.signed.contains (publicKey, payload)
  | _, _ => false

end CadPlot.Gateway.WorkerAuth
