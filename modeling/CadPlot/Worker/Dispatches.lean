import CadPlot.Gateway.Dispatch
import CadPlot.Lib.Calendar
import CadPlot.Lib.Runs

/-!
# What a worker makes of a dispatch

One iteration of `WorkerRunner.run_once` from the poll to the end of a command:
the authorization of `WorkerTaskEnvelope.authorize_for_worker`, the durable
nonces of `consume_dispatch_nonce`, the notification that a task has started and
the command itself. Anything may be polled at any time, the process may end at
any point, and the clock does not run backwards. Only the rows of the nonces
outlive a process.
-/

namespace CadPlot.Worker.Dispatches

open Gateway Calendar Protocol

/-- Whom a dispatcher and its runner work for. -/
structure WorkerIdentity where
  tenantId : TenantId
  userId : SubjectId
  deviceId : WorkstationId
  policyVersion : Nat
  deriving DecidableEq

/-- An envelope that the client has parsed, with its timestamps. -/
structure DispatchedTask where
  envelope : WorkerTaskEnvelope
  issuedAt : DateTime
  expiresAt : DateTime
  issued : envelope.issuedAt = issuedAt.instant
  expires : envelope.expiresAt = expiresAt.instant
  valid : Dispatch.validateEnvelope envelope = true
  deriving DecidableEq

/-- A row of `accepted_dispatch_nonces`. -/
structure NonceRow where
  tenantId : TenantId
  deviceId : WorkstationId
  nonce : String
  expiresAt : List Char
  deriving DecidableEq

/-- The texts of timestamps, and the check of the gateway's signature, which is false where it
raises. -/
structure Settings where
  timestamp : Int → String
  verifyGatewaySignature : List UInt8 → Signature → Bool

/-- The first and the last moment of the calendar. -/
def minInstant : Int := 86400 * 1000000 - 719163 * 86400 * 1000000

def maxInstant : Int := 3652060 * 86400 * 1000000 - 1 - 719163 * 86400 * 1000000

def maxDispatchLifetime : Int := 300000000

def contextMatches (identity : WorkerIdentity) (e : WorkerTaskEnvelope) : Bool :=
  decide (e.tenantId = identity.tenantId ∧ e.userId = identity.userId ∧
    e.deviceId = identity.deviceId ∧ e.policyVersion = identity.policyVersion)

/-- A difference that leaves the calendar raises. -/
def timeMatches (task : DispatchedTask) (now : DateTime) : Bool :=
  decide (minInstant ≤ task.issuedAt.instant - maxClockSkew ∧
    task.issuedAt.instant - maxClockSkew ≤ now.instant ∧ now.instant < task.expiresAt.instant)

def signatureMatches (settings : Settings) (e : WorkerTaskEnvelope) : Bool :=
  settings.verifyGatewaySignature (Dispatch.canonicalSigningBytes settings.timestamp e) e.signature

/-- `authorize_for_worker`, up to the nonce. -/
def authorized (settings : Settings) (identity : WorkerIdentity) (task : DispatchedTask)
    (now : DateTime) : Bool :=
  contextMatches identity task.envelope && timeMatches task now &&
    signatureMatches settings task.envelope

def NonceRow.isFor (row : NonceRow) (tenantId : TenantId) (deviceId : WorkstationId)
    (nonce : String) : Bool :=
  decide (row.tenantId = tenantId ∧ row.deviceId = deviceId ∧ row.nonce = nonce)

/-- `consume_dispatch_nonce`: nothing where it raises, or whether the nonce is new, with the rows
that the transaction leaves. -/
def consumeDispatchNonce (rows : List NonceRow) (tenantId : TenantId) (deviceId : WorkstationId)
    (nonce : String) (now expiresAt : DateTime) : Option (Bool × List NonceRow) :=
  if ¬(isGatewayId "tnt" tenantId ∧ isWireId "ws" deviceId ∧ isNonce nonce) then none
  else if ¬(now.instant < expiresAt.instant ∧ now.instant + maxDispatchLifetime ≤ maxInstant ∧
      expiresAt.instant ≤ now.instant + maxDispatchLifetime) then none
  else
    let kept := rows.filter fun row => decide (now.isoformat < row.expiresAt)
    if kept.any fun row => row.isFor tenantId deviceId nonce then some (false, kept)
    else some (true, ⟨tenantId, deviceId, nonce, expiresAt.isoformat⟩ :: kept)

/-- Where an iteration stands. -/
inductive Stage where
  | idle
  | polled (task : DispatchedTask)
  | authorizing (task : DispatchedTask) (now : DateTime)
  | checked (task : DispatchedTask) (now : DateTime)
  | accepted (task : DispatchedTask)
  | started (task : DispatchedTask)
  deriving DecidableEq

/-- What has happened: an accepted nonce, a started notification, a command. -/
inductive Entry where
  | accepted (identity : WorkerIdentity) (task : DispatchedTask) (now : DateTime)
  | started (task : DispatchedTask)
  | executed (task : DispatchedTask)
  deriving DecidableEq

structure World where
  identity : WorkerIdentity
  rows : List NonceRow
  clock : DateTime
  stage : Stage
  log : List Entry

/-- A store that fails may have committed before. -/
inductive StoreFault where
  | before | after
  deriving DecidableEq

/-- A `restart` is also the end of an iteration by an exception. -/
inductive Event where
  | restart (identity : WorkerIdentity)
  | poll (task : DispatchedTask)
  | readClock (now : DateTime)
  | authorize
  | consume (fault : Option StoreFault)
  | start (delivered : Bool)
  | execute (completedAt : DateTime)

section Machine

variable (settings : Settings)

def World.goto (w : World) (stage : Stage) : World := { w with stage := stage }

/-- The nonce of a checked envelope is consumed in one transaction. -/
def consume (w : World) (task : DispatchedTask) (now : DateTime) (fault : Option StoreFault) :
    World :=
  match consumeDispatchNonce w.rows w.identity.tenantId w.identity.deviceId task.envelope.nonce
    now task.expiresAt, fault with
  | none, _ => w.goto .idle
  | some _, some .before => w.goto .idle
  | some (_, rows), some .after => { w with rows := rows, stage := .idle }
  | some (false, rows), none => { w with rows := rows, stage := .idle }
  | some (true, rows), none =>
    { w with
      rows := rows
      stage := .accepted task
      log := .accepted w.identity task now :: w.log }

def step (w : World) : Event → Option World
  | .restart identity => some { w with identity := identity, stage := .idle }
  | .poll task =>
    match w.stage with
    | .idle => some (w.goto (.polled task))
    | _ => none
  | .readClock now =>
    match w.stage with
    | .polled task =>
      if w.clock.micros ≤ now.micros then
        some { w with clock := now, stage := .authorizing task now }
      else none
    | _ => none
  | .authorize =>
    match w.stage with
    | .authorizing task now =>
      if authorized settings w.identity task now then some (w.goto (.checked task now))
      else some (w.goto .idle)
    | _ => none
  | .consume fault =>
    match w.stage with
    | .checked task now => some (consume w task now fault)
    | _ => none
  | .start delivered =>
    match w.stage with
    | .accepted task =>
      some { w with
        stage := if delivered then .started task else .idle
        log := .started task :: w.log }
    | _ => none
  | .execute completedAt =>
    match w.stage with
    | .started task =>
      if w.clock.micros ≤ completedAt.micros then
        some { w with clock := completedAt, stage := .idle, log := .executed task :: w.log }
      else none
    | _ => none

def start (identity : WorkerIdentity) (clock : DateTime) : World := ⟨identity, [], clock, .idle, []⟩

end Machine

end CadPlot.Worker.Dispatches
