import CadPlot.Gateway.Models
import CadPlot.Lib.Dict
import CadPlot.Lib.Leases
import Mathlib.Data.Finset.Insert

/-!
# The result replay guard

The guard binds the nonce of a dispatch to the first signed result claimed under
it, leases the application of that result, and remembers that it was applied.
`InMemoryResultReplayGuard` holds a lock for the whole of each call. Its clock
may be absent, and a reading of it may be naive.
-/

namespace CadPlot.Gateway.Replay

open Leases

/-- A `datetime`: two are equal when both are aware and one instant, or both naive and alike. -/
inductive Datetime where
  | aware (utc : Int)
  | naive (wall : Int)
  deriving DecidableEq

def Datetime.utc : Datetime → Option Int
  | .aware utc => some utc
  | .naive _ => none

structure Uuid where
  int : BitVec 128
  deriving DecidableEq

/-- `UUID.version`, of a UUID whose variant bits are those of RFC 4122. -/
def Uuid.version (u : Uuid) : Option Nat :=
  if u.int.getLsbD 63 && !u.int.getLsbD 62 then some ((u.int >>> 76) &&& 0xf#128).toNat else none

inductive ResultReplayClassification where
  | unseen | firstSeen | exactMatch | conflict
  deriving DecidableEq, Repr

inductive ResultApplicationStatus where
  | acquired | busy | applied | conflict
  deriving DecidableEq, Repr

def maxResultAgeSeconds : Int := 300
def maxResultApplicationLeaseSeconds : Int := 60

/-- `timedelta(seconds=...)` -/
def seconds (n : Int) : Int := n * 1000000

structure Key where
  tenantId : TenantId
  deviceId : WorkstationId
  nonce : String
  deriving DecidableEq

/-- What a nonce is bound to, with times of a type. -/
structure Binding (τ : Type) where
  taskId : String
  commandId : String
  resultSha256 : Sha256Hex
  completedAt : τ
  deriving DecidableEq

structure InMemoryResultReplayGuard where
  seen : Dict Key (Binding Datetime)
  applied : Finset Key
  applications : Dict Key (Uuid × Int)
  /-- Whether the guard was given a clock of its own. -/
  clocked : Bool

namespace InMemoryResultReplayGuard

variable (g : InMemoryResultReplayGuard) (key : Key) (value : Binding Datetime)

def classify : ResultReplayClassification :=
  match g.seen.get key with
  | none => .unseen
  | some existing => if existing = value then .exactMatch else .conflict

/-- Whether a reading of the clock, a naive one included, refuses a claim with this deadline. -/
def refuses (now : Datetime) (deadline : Int) : Bool :=
  match now.utc with
  | none => true
  | some now => deadline ≤ now

def claim (claimExpiresAt now : Datetime) :
    ResultReplayClassification × InMemoryResultReplayGuard :=
  match g.seen.get key with
  | some existing => (if existing = value then .exactMatch else .conflict, g)
  | none =>
    match claimExpiresAt.utc with
    | none => (.unseen, g)
    | some deadline =>
      if g.clocked ∧ refuses now deadline then (.unseen, g)
      else (.firstSeen, { g with seen := g.seen.set key value })

/-- The checks of the arguments of `acquire_application`. -/
def wellFormed (applicationId : Uuid) (leaseSeconds : Int) : Bool :=
  applicationId.version = some 4 ∧ 1 ≤ leaseSeconds ∧
    leaseSeconds ≤ maxResultApplicationLeaseSeconds

def acquireApplication (applicationId : Uuid) (leaseSeconds : Int) (now : Datetime) :
    ResultApplicationStatus × InMemoryResultReplayGuard :=
  if ¬wellFormed applicationId leaseSeconds then (.conflict, g)
  else if g.seen.get key ≠ some value then (.conflict, g)
  else if key ∈ g.applied then (.applied, g)
  else
    match now.utc with
    | none => (.conflict, g)
    | some now =>
      let granted := { g with
        applications := g.applications.set key (applicationId, now + seconds leaseSeconds) }
      match g.applications.get key with
      | some (holder, expiry) =>
        if now < expiry then (if holder = applicationId then .acquired else .busy, g)
        else (.acquired, granted)
      | none => (.acquired, granted)

def markApplied (applicationId : Uuid) (now : Datetime) : Bool × InMemoryResultReplayGuard :=
  if g.seen.get key ≠ some value then (false, g)
  else if key ∈ g.applied then (true, g)
  else
    match now.utc, g.applications.get key with
    | some now, some (holder, expiry) =>
      if holder = applicationId ∧ now < expiry then
        (true, { g with applied := insert key g.applied })
      else (false, g)
    | _, _ => (false, g)

end InMemoryResultReplayGuard

inductive Call where
  | classify (key : Key) (value : Binding Datetime)
  | claim (key : Key) (value : Binding Datetime) (claimExpiresAt : Datetime)
  | acquireApplication (key : Key) (value : Binding Datetime) (applicationId : Uuid)
      (leaseSeconds : Int)
  | markApplied (key : Key) (value : Binding Datetime) (applicationId : Uuid)

/-- A guard in use: the time, how many calls it has answered, the lease each applier was last told
it has, and the answers to well-formed requests for one. -/
structure World where
  guard : InMemoryResultReplayGuard
  clock : Int
  calls : Nat
  granted : Key → Uuid → Option Int
  answers : List (Nat × Key × Binding Datetime × ResultApplicationStatus)

/-- The clock does not go back. -/
def tick (clock : Int) (now : Datetime) : Option Int :=
  match now.utc with
  | none => some clock
  | some now => if clock ≤ now then some now else none

/-- A call with what the clock shows when the guard reads it. -/
def World.answer (w : World) (now : Datetime) : Call → World
  | .classify _ _ => w
  | .claim key value claimExpiresAt => { w with guard := (w.guard.claim key value claimExpiresAt now).2 }
  | .acquireApplication key value applicationId leaseSeconds =>
    let (status, guard) := w.guard.acquireApplication key value applicationId leaseSeconds now
    { w with
      guard := guard
      granted :=
        match status, guard.applications.get key with
        | .acquired, some (_, expiry) =>
          Function.update w.granted key (Function.update (w.granted key) applicationId (some expiry))
        | _, _ => w.granted
      answers :=
        if InMemoryResultReplayGuard.wellFormed applicationId leaseSeconds then
          (w.calls, key, value, status) :: w.answers
        else w.answers }
  | .markApplied key value applicationId =>
    { w with guard := (w.guard.markApplied key value applicationId now).2 }

def step (w : World) (e : Call × Datetime) : Option World :=
  match tick w.clock e.2 with
  | none => none
  | some clock => some { ({ w with clock := clock }.answer e.2 e.1) with calls := w.calls + 1 }

def World.ledger (w : World) : Ledger Key (Binding Datetime) Uuid where
  records k := (w.guard.seen.get k).map fun value =>
    ⟨value, w.guard.applications.get k, decide (k ∈ w.guard.applied)⟩
  granted := w.granted
  clock := w.clock

def emptyGuard (clocked : Bool) : InMemoryResultReplayGuard := ⟨.empty, ∅, .empty, clocked⟩

def inMemory : System World (Call × Datetime) Key (Binding Datetime) Uuid
    ResultApplicationStatus where
  step := step
  start w := ∃ clocked clock, w = ⟨emptyGuard clocked, clock, 0, fun _ _ => none, []⟩
  ledger := World.ledger
  marking w e :=
    match e.1, e.2.utc with
    | .markApplied key _ applicationId, some now => some (key, applicationId, w.clock, now)
    | _, _ => none
  begun w n := n < w.calls
  answers := World.answers
  appliedAnswer := .applied

end CadPlot.Gateway.Replay
