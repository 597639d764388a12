import CadPlot.Gateway.IngressRuns
import CadPlot.Gateway.ReplayLaws
import CadPlot.Worker.Progress

/-!
# The pending result

The outbox holds one result at most, as the runner polls only when it is empty.
While it does, either the repository has settled the operation, or the operation
accepts the result and there is still time: for a call to begin after any lease
of the application has ended, or for a call that is under way to come to its end.
-/

namespace CadPlot.Worker

open Gateway Gateway.Replay Gateway.Ingress Gateway.Service
open InMemoryResultReplayGuard

section Conditions

variable (settings : Settings) (w : World)

/-- The call that a stored result makes under its dispatch. -/
def Settings.callOf (correlation : DispatchCorrelation) (r : SignedResult) : CompleteCall :=
  ⟨settings.worker, correlation, r.envelope, r.canonical,
    settings.sha256 (signedBytes r.canonical r.envelope.signature)⟩

def Settings.dispatchOf (r : SignedResult) : Option DispatchCorrelation :=
  settings.getDispatch r.envelope.taskId r.envelope.operationId

/-- The last instant at which a call may begin: before the claim expires, or while what is claimed
is fresh. -/
def lastStart (p : CompleteCall) : Int :=
  if w.guard.seen.get p.key = none then settings.claimExpiresAt p - 1 else settings.lastFresh p

/-- There is time for a new call, after any lease of the application. -/
structure Startable (p : CompleteCall) : Prop where
  now : w.now ≤ lastStart settings w p
  lease : ∀ holder expiry, w.guard.applications.get p.key = some (holder, expiry) →
    expiry ≤ settings.lastFresh p

/-- There is time for a call at this stage to come to its end. -/
def UnderWay (p : CompleteCall) (now : Int) : Option Stage → Prop
  | some .needing | some .rechecking => now ≤ settings.lastFresh p
  | some (.preparing _) | some (.calling _ _) => now < p.correlation.operationExpiresAt
  | _ => False

def Open (p : CompleteCall) : Prop :=
  Startable settings w p ∨ ∃ n call, w.calls.get n = some call ∧ call.toCompleteCall = p ∧
    UnderWay settings p w.now call.stage

def Accepts (repo : InMemoryGatewayRepository) (now : Int) (p : CompleteCall) : Prop :=
  ∃ op rc, Applicable repo now p op rc

/-- A change of the repository that is nothing to the operation of a result. -/
structure Undisturbed (repo : InMemoryGatewayRepository) (p : CompleteCall) : Prop where
  operation : repo.operations.get p.correlation.operationId =
    w.repo.operations.get p.correlation.operationId
  accepts : Accepts w.repo w.now p → Accepts repo w.now p
  settled : Settled w.repo p → Settled repo p

/-- A result that the gateway could take at once when it is stored. -/
structure Savable (r : SignedResult) (correlation : DispatchCorrelation) : Prop where
  dispatch : settings.dispatchOf r = some correlation
  worker : requireWorkerContext settings.worker correlation = .ok ()
  bound : requireResultBinding r.envelope correlation = .ok ()
  signed : settings.verifyWorkerSignature correlation.deviceId r.canonical
    r.envelope.signature = true
  timely : Timely (settings.callOf correlation r)
  unclaimed : w.guard.seen.get (settings.callOf correlation r).key = none
  unused : ∀ r' ∈ w.sent, ∀ c, settings.dispatchOf r' = some c → c.nonce ≠ correlation.nonce
  accepts : Accepts w.repo w.now (settings.callOf correlation r)
  inTime : w.now < settings.claimExpiresAt (settings.callOf correlation r)

/-- The call that a pending result makes. -/
def Pending (p : CompleteCall) : Prop :=
  ∃ r ∈ w.outbox, ∃ c, settings.dispatchOf r = some c ∧ p = settings.callOf c r

/-- What the steps of a run have to keep to. A result is stored when the gateway could take it. As
long as it is not settled, time does not pass, and no call is cut off, so that there is no time
left for it, and nobody else changes its operation. -/
def Allowed : Event → Prop
  | .save r => w.iteration = .polling → ∃ correlation, Savable settings w r correlation
  | .tick now => ∀ p, Pending settings w p → ¬Settled w.repo p →
      Open settings { w with now := now } p
  | .abandon n => ∀ p call, Pending settings w p → ¬Settled w.repo p → w.calls.get n = some call →
      Open settings { w with calls := w.calls.set n { call with stage := none } } p
  | .elsewhere repo => ∀ p, Pending settings w p → Undisturbed w repo p
  | .proceed n => ∀ p call retried rc, Pending settings w p → w.calls.get n = some call →
      call.toCompleteCall ≠ p → call.stage = some (.calling retried rc) →
        Undisturbed w (runInMemory rc call.correlation.operationId call.worker w.now w.repo).2 p
  | _ => True

end Conditions

section Invariant

variable (settings : Settings) (w : World)

/-- What holds of a call of the pending result. -/
structure OwnCall (p : CompleteCall) (call : Delivery) : Prop where
  same : call.toCompleteCall = p
  checked : call.stage = some .verifying ∨ call.stage = some .claiming →
    p.envelope.completedAt ≤ w.now + maxClockSkew
  accepted : ∀ stage, call.stage = some stage → stage.accepted = true →
    w.guard.seen.get p.key = some p.binding
  asked : ∀ retried rc, call.stage = some (.calling retried rc) → ∀ op,
    w.repo.operations.get p.correlation.operationId = some op → Asked p op rc

/-- The pending result is settled, or there is time for it. -/
def Viable (p : CompleteCall) : Prop :=
  (Accepts w.repo w.now p ∧ Open settings w p) ∨
    (Settled w.repo p ∧ w.guard.seen.get p.key = some p.binding)

structure PendingInv (r : SignedResult) (c : DispatchCorrelation) : Prop where
  dispatch : settings.dispatchOf r = some c
  worker : requireWorkerContext settings.worker c = .ok ()
  bound : requireResultBinding r.envelope c = .ok ()
  signed : settings.verifyWorkerSignature c.deviceId r.canonical r.envelope.signature = true
  timely : Timely (settings.callOf c r)
  seen : w.guard.seen.get (settings.callOf c r).key = none ∨
    w.guard.seen.get (settings.callOf c r).key = some (settings.callOf c r).binding
  begun : w.guard.seen.get (settings.callOf c r).key = some (settings.callOf c r).binding →
    r.envelope.completedAt ≤ w.now + maxClockSkew
  sole : ∀ r' ∈ w.sent, ∀ c', settings.dispatchOf r' = some c' → c'.nonce = c.nonce → r' = r
  viable : Viable settings w (settings.callOf c r)
  calls : ∀ n call, w.calls.get n = some call → call.key = (settings.callOf c r).key →
    OwnCall w (settings.callOf c r) call

structure Inv : Prop where
  leases : ∀ key, w.guard.seen.get key = none → w.guard.applications.get key = none
  calls : ∀ n call, w.calls.get n = some call → ∃ r ∈ w.sent, ∃ c, settings.dispatchOf r = some c ∧
    call.toCompleteCall = settings.callOf c r
  outbox : w.outbox = [] ∨ ∃ r c, w.outbox = [r] ∧ w.iteration ≠ .polling ∧
    PendingInv settings w r c

end Invariant

section Frames

variable {settings : Settings} {w w₁ : World} {p : CompleteCall} {call : Delivery} {stage : Stage}
  {reply : Reply} {n : Nat} {next : Stage}

/-- What is asked changes neither the clock nor the calls nor the worker. -/
structure SameOutside (w w₁ : World) : Prop where
  now : w₁.now = w.now
  calls : w₁.calls = w.calls
  outbox : w₁.outbox = w.outbox
  sent : w₁.sent = w.sent
  iteration : w₁.iteration = w.iteration

theorem SameOutside.refl (w : World) : SameOutside w w := ⟨rfl, rfl, rfl, rfl, rfl⟩

theorem ask_sameOutside (h : ask settings w call stage = some (reply, w₁)) : SameOutside w w₁ := by
  cases stage with
  | returned result => cases h
  | _ =>
    obtain ⟨_, rfl⟩ := Prod.mk.inj (Option.some.inj h)
    exact ⟨rfl, rfl, rfl, rfl, rfl⟩

/-- Only a repository call changes the repository. -/
theorem ask_repo (h : ask settings w call stage = some (reply, w₁)) :
    (w₁.repo = w.repo ∧ ∀ retried rc, stage ≠ .calling retried rc) ∨
      ∃ retried rc, stage = .calling retried rc ∧
        w₁.repo = (runInMemory rc call.correlation.operationId call.worker w.now w.repo).2 := by
  cases stage with
  | returned result => cases h
  | calling retried rc =>
    obtain ⟨_, rfl⟩ := Prod.mk.inj (Option.some.inj h)
    exact .inr ⟨retried, rc, rfl, rfl⟩
  | _ =>
    obtain ⟨_, rfl⟩ := Prod.mk.inj (Option.some.inj h)
    exact .inl ⟨rfl, by simp⟩

/-- What is asked binds the key of the call at most, when it claims. -/
theorem ask_seen (h : ask settings w call stage = some (reply, w₁)) :
    w₁.guard.seen = w.guard.seen ∨ stage = .claiming ∧ w.guard.seen.get call.key = none ∧
      w₁.guard.seen = w.guard.seen.set call.key call.binding := by
  cases stage with
  | returned result => cases h
  | claiming =>
    obtain ⟨_, rfl⟩ := Prod.mk.inj (Option.some.inj h)
    obtain heq | ⟨hnone, heq⟩ := claim_cases w.guard call.key call.binding
      (.aware (settings.claimExpiresAt call.toCompleteCall)) (.aware w.now)
    · exact .inl (congrArg InMemoryResultReplayGuard.seen heq)
    · exact .inr ⟨rfl, hnone, congrArg InMemoryResultReplayGuard.seen heq⟩
  | acquiring =>
    obtain ⟨_, rfl⟩ := Prod.mk.inj (Option.some.inj h)
    refine .inl ?_
    obtain ⟨heq, _⟩ | ⟨_, _, _, _, _, _, heq⟩ := acquire_cases w.guard call.key call.binding
      call.applicationId resultApplicationLeaseSeconds (.aware w.now)
    · exact congrArg InMemoryResultReplayGuard.seen heq
    · exact congrArg (fun x => x.2.seen) heq
  | marking =>
    obtain ⟨_, rfl⟩ := Prod.mk.inj (Option.some.inj h)
    refine .inl ?_
    obtain heq | ⟨_, _, _, _, _, _, heq⟩ := mark_cases w.guard call.key call.binding
      call.applicationId (.aware w.now)
    · exact congrArg InMemoryResultReplayGuard.seen heq
    · exact (congrArg InMemoryResultReplayGuard.seen heq).trans rfl
  | _ =>
    obtain ⟨_, rfl⟩ := Prod.mk.inj (Option.some.inj h)
    exact .inl rfl

/-- What is asked leases the application of what is bound at most, to a call that goes on. -/
theorem ask_applications (h : ask settings w call stage = some (reply, w₁)) :
    w₁.guard.applications = w.guard.applications ∨
      stage = .acquiring ∧ reply = .application (some .acquired) ∧
        w.guard.seen.get call.key = some call.binding ∧
        ∃ lease, w₁.guard.applications = w.guard.applications.set call.key lease := by
  cases stage with
  | returned result => cases h
  | claiming =>
    obtain ⟨_, rfl⟩ := Prod.mk.inj (Option.some.inj h)
    refine .inl ?_
    obtain heq | ⟨_, heq⟩ := claim_cases w.guard call.key call.binding
      (.aware (settings.claimExpiresAt call.toCompleteCall)) (.aware w.now)
    · exact congrArg InMemoryResultReplayGuard.applications heq
    · exact (congrArg InMemoryResultReplayGuard.applications heq).trans rfl
  | acquiring =>
    obtain ⟨rfl, rfl⟩ := Prod.mk.inj (Option.some.inj h)
    obtain ⟨heq, _⟩ | ⟨t, expiry, _, hseen, _, _, heq⟩ := acquire_cases w.guard call.key
      call.binding call.applicationId resultApplicationLeaseSeconds (.aware w.now)
    · exact .inl (congrArg InMemoryResultReplayGuard.applications heq)
    · exact .inr ⟨rfl, congrArg (fun x => Reply.application (some x.1)) heq, hseen, _,
        congrArg (fun x => x.2.applications) heq⟩
  | marking =>
    obtain ⟨_, rfl⟩ := Prod.mk.inj (Option.some.inj h)
    refine .inl ?_
    obtain heq | ⟨_, _, _, _, _, _, heq⟩ := mark_cases w.guard call.key call.binding
      call.applicationId (.aware w.now)
    · exact congrArg InMemoryResultReplayGuard.applications heq
    · exact (congrArg InMemoryResultReplayGuard.applications heq).trans rfl
  | _ =>
    obtain ⟨_, rfl⟩ := Prod.mk.inj (Option.some.inj h)
    exact .inl rfl

theorem proceed_cases {w' : World} (h : proceed settings w n call = some w') :
    ∃ stage reply w₁ next, call.stage = some stage ∧ ask settings w call stage = some (reply, w₁) ∧
      advance settings.maxResultAge call.toCompleteCall stage reply = some next ∧
      w' = w₁.moved n call next := by
  unfold proceed at h
  split at h
  · cases h
  · next stage hstage =>
    split at h
    · cases h
    · next reply w₁ hask =>
      split at h
      · cases h
      · next next hadvance =>
        exact ⟨stage, reply, w₁, next, hstage, hask, hadvance, (Option.some.inj h).symm⟩

theorem lastStart_le (settings : Settings) (w : World) (p : CompleteCall) :
    lastStart settings w p ≤ settings.lastFresh p := by
  unfold lastStart
  split
  · simp only [Settings.claimExpiresAt, Settings.lastFresh]
    omega
  · exact le_rfl

theorem lastFresh_lt (settings : Settings) (p : CompleteCall) :
    settings.lastFresh p < p.correlation.operationExpiresAt := by
  simp only [Settings.lastFresh]
  omega

/-- While there is time the operation has not expired. -/
theorem Open.unexpired (h : Open settings w p) : w.now < p.correlation.operationExpiresAt := by
  have hlast := lastFresh_lt settings p
  obtain hstart | ⟨n, call, _, _, hway⟩ := h
  · have hnow := hstart.now
    have hle := lastStart_le settings w p
    omega
  · unfold UnderWay at hway
    split at hway
    · omega
    · omega
    · exact hway
    · exact hway
    · exact hway.elim

theorem lastStart_mono
    (hseen : w₁.guard.seen.get p.key = w.guard.seen.get p.key ∨ w₁.guard.seen.get p.key ≠ none) :
    lastStart settings w p ≤ lastStart settings w₁ p := by
  obtain heq | hsome := hseen
  · simp only [lastStart, heq, le_refl]
  · have hafter : lastStart settings w₁ p = settings.lastFresh p := if_neg hsome
    rw [hafter]
    exact lastStart_le settings w p

theorem Startable.mono (h : Startable settings w p) (hnow : w₁.now = w.now)
    (hseen : w₁.guard.seen.get p.key = w.guard.seen.get p.key ∨ w₁.guard.seen.get p.key ≠ none)
    (happ : w₁.guard.applications.get p.key = w.guard.applications.get p.key) :
    Startable settings w₁ p where
  now := hnow ▸ h.now.trans (lastStart_mono hseen)
  lease holder expiry hlease := h.lease holder expiry (happ ▸ hlease)

theorem skew_of_whenFresh {now : Int}
    (h : whenFresh settings.maxResultAge p (.aware now) .verifying = .verifying) :
    p.envelope.completedAt ≤ now + maxClockSkew := by
  simp only [whenFresh, Datetime.utc] at h
  split at h
  · next hfresh =>
    simp only [requireFreshCompletion, require_eq_ok] at hfresh
    exact hfresh.2.2.2.1
  · cases h

/-- A call of the result that goes on keeps it open. -/
theorem open_moved (hopen : Open settings w p) (hget : w.calls.get n = some call)
    (hown : call.toCompleteCall = p) (hsame : SameOutside w w₁)
    (hstart : Startable settings w p → Startable settings w₁ p ∨
      UnderWay settings p w.now (some next))
    (hkeep : UnderWay settings p w.now call.stage → UnderWay settings p w.now (some next)) :
    Open settings (w₁.moved n call next) p := by
  have hmoved : UnderWay settings p w.now (some next) → Open settings (w₁.moved n call next) p :=
    fun hway => .inr ⟨n, _, Dict.get_set_same .., hown, hsame.now.symm ▸ hway⟩
  obtain hs | ⟨m, other, hm, hp, hway⟩ := hopen
  · obtain hs' | hway := hstart hs
    · exact .inl ⟨hs'.now, hs'.lease⟩
    · exact hmoved hway
  · by_cases hmn : m = n
    · subst hmn
      obtain rfl := Option.some.inj (hget.symm.trans hm)
      exact hmoved (hkeep hway)
    · refine .inr ⟨m, other, ?_, hp, hsame.now.symm ▸ hway⟩
      rw [World.moved, Dict.get_set_other _ _ hmn, hsame.calls]
      exact hm

/-- While a call of the result is not a repository call, the result stays acceptable and open. -/
theorem open_proceed (hopen : Open settings w p) (hget : w.calls.get n = some call)
    (hown : OwnCall w p call) (haccepts : Accepts w.repo w.now p) (htimely : Timely p)
    (hbegun : w.guard.seen.get p.key = some p.binding →
      p.envelope.completedAt ≤ w.now + maxClockSkew)
    (hstage : call.stage = some stage) (hask : ask settings w call stage = some (reply, w₁))
    (hadvance : advance settings.maxResultAge call.toCompleteCall stage reply = some next)
    (hcalling : ∀ retried rc, stage ≠ .calling retried rc) :
    Open settings (w₁.moved n call next) p := by
  have hsame := ask_sameOutside hask
  obtain rfl := hown.same
  obtain ⟨op, rc, happ⟩ := haccepts
  have hseen : w₁.guard.seen.get call.key = w.guard.seen.get call.key ∨
      w₁.guard.seen.get call.key ≠ none := by
    obtain heq | ⟨_, _, heq⟩ := ask_seen hask
    · exact .inl (by rw [heq])
    · exact .inr (by rw [heq]; simp)
  have hstart : Startable settings w call.toCompleteCall →
      Startable settings w₁ call.toCompleteCall ∨
        UnderWay settings call.toCompleteCall w.now (some next) := by
    intro hs
    obtain heq | ⟨rfl, rfl, _, _⟩ := ask_applications hask
    · exact .inl (hs.mono hsame.now hseen (by rw [heq]))
    · obtain rfl := Option.some.inj hadvance
      exact .inr (hs.now.trans (lastStart_le settings w call.toCompleteCall))
  refine open_moved hopen hget rfl hsame hstart fun hway => ?_
  rw [hstage] at hway
  cases stage with
  | needing =>
    have hreply : reply = .reads (catalogOf w.repo) (some op) := by
      rw [← happ.stored]
      exact (Prod.mk.inj (Option.some.inj hask)).1.symm
    rw [hreply, advance, happ.needs] at hadvance
    obtain rfl := Option.some.inj hadvance
    exact hway
  | rechecking =>
    have hreply : reply = .clock (.aware w.now) := (Prod.mk.inj (Option.some.inj hask)).1.symm
    have hfresh : FreshAt settings call.toCompleteCall w.now :=
      ⟨htimely, hbegun (hown.accepted _ hstage rfl), hway⟩
    rw [hreply, advance, whenFresh_eq hfresh] at hadvance
    obtain rfl := Option.some.inj hadvance
    exact hfresh.unexpired
  | preparing retried =>
    have hreply : reply = .reads (catalogOf w.repo) (some op) := by
      rw [← happ.stored]
      exact (Prod.mk.inj (Option.some.inj hask)).1.symm
    rw [hreply, advance, happ.prepared] at hadvance
    obtain rfl := Option.some.inj hadvance
    exact hway
  | calling retried rc => exact absurd rfl (hcalling retried rc)
  | _ => exact hway.elim

/-- The operation that is stored is for the same task. -/
def SameTask (w w₁ : World) (p : CompleteCall) : Prop :=
  ∀ op', w₁.repo.operations.get p.correlation.operationId = some op' →
    ∃ op, w.repo.operations.get p.correlation.operationId = some op ∧ op'.task = op.task

theorem sameTask_of_eq (h : w₁.repo.operations.get p.correlation.operationId =
    w.repo.operations.get p.correlation.operationId) : SameTask w w₁ p :=
  fun op' hget => ⟨op', h ▸ hget, rfl⟩

/-- A repository call of one of its calls settles the result. -/
theorem repo_proceed (hviable : Viable settings w p) (hown : OwnCall w p call)
    (hstage : call.stage = some stage) (hask : ask settings w call stage = some (reply, w₁)) :
    (w₁.repo = w.repo ∧ ∀ retried rc, stage ≠ .calling retried rc) ∨
      (Settled w₁.repo p ∧ w.guard.seen.get p.key = some p.binding ∧ SameTask w w₁ p) := by
  obtain hquiet | ⟨retried, rc, rfl, hrun⟩ := ask_repo hask
  · exact .inl hquiet
  · refine .inr ?_
    have hbound := hown.accepted _ hstage rfl
    obtain rfl := hown.same
    obtain ⟨⟨op, rc', happ⟩, hopen⟩ | ⟨hsettled, _⟩ := hviable
    · have hrc : rc = rc' := (hown.asked retried rc hstage op happ.stored).unique
        (prepareResult_asked happ.prepared)
      obtain ⟨repo', heq, hsettled, hget⟩ := run_settles happ hopen.unexpired
      rw [hrc, heq] at hrun
      refine ⟨hrun ▸ hsettled, hbound, fun op' hop' => ⟨op, happ.stored, ?_⟩⟩
      rw [hrun, hget] at hop'
      obtain rfl := Option.some.inj hop'
      exact outcomeOf_task rc' w.now op
    · rw [run_settled hsettled (hown.asked retried rc hstage)] at hrun
      exact ⟨hrun ▸ hsettled, hbound, sameTask_of_eq (by rw [hrun])⟩

/-- What is bound stays bound. -/
theorem seen_proceed (hask : ask settings w call stage = some (reply, w₁))
    (hown : call.toCompleteCall = p) (hbound : w.guard.seen.get p.key = some p.binding) :
    w₁.guard.seen.get p.key = some p.binding := by
  obtain rfl := hown
  obtain heq | ⟨_, hnone, _⟩ := ask_seen hask
  · rw [heq]
    exact hbound
  · rw [hbound] at hnone
    cases hnone

/-- A step of one of its calls leaves the result viable. -/
theorem viable_proceed (hviable : Viable settings w p) (hget : w.calls.get n = some call)
    (hown : OwnCall w p call) (htimely : Timely p)
    (hbegun : w.guard.seen.get p.key = some p.binding →
      p.envelope.completedAt ≤ w.now + maxClockSkew)
    (hstage : call.stage = some stage) (hask : ask settings w call stage = some (reply, w₁))
    (hadvance : advance settings.maxResultAge call.toCompleteCall stage reply = some next) :
    Viable settings (w₁.moved n call next) p := by
  have hsame := ask_sameOutside hask
  have hbound' : w.guard.seen.get p.key = some p.binding →
      w₁.guard.seen.get p.key = some p.binding := seen_proceed hask hown.same
  obtain ⟨hquiet, hcalling⟩ | ⟨hsettled, hbound, _⟩ := repo_proceed hviable hown hstage hask
  · obtain ⟨haccepts, hopen⟩ | ⟨hsettled, hbound⟩ := hviable
    · refine .inl ⟨?_, open_proceed hopen hget hown haccepts htimely hbegun hstage hask hadvance
        hcalling⟩
      change Accepts w₁.repo w₁.now p
      rw [hquiet, hsame.now]
      exact haccepts
    · refine .inr ⟨?_, hbound' hbound⟩
      change Settled w₁.repo p
      rw [hquiet]
      exact hsettled
  · exact .inr ⟨hsettled, hbound' hbound⟩

theorem OwnCall.mono (h : OwnCall w p call) (hnow : w.now ≤ w₁.now)
    (hseen : w.guard.seen.get p.key = some p.binding → w₁.guard.seen.get p.key = some p.binding)
    (htask : SameTask w w₁ p) : OwnCall w₁ p call where
  same := h.same
  checked hstage := (h.checked hstage).trans (Int.add_le_add_right hnow _)
  accepted stage hstage hacc := hseen (h.accepted stage hstage hacc)
  asked retried rc hstage op' hop' := by
    obtain ⟨op, hop, heq⟩ := htask op' hop'
    exact (h.asked retried rc hstage op hop).of_task heq

/-- What the answers have told a call of the result. -/
theorem ownCall_moved (hown : OwnCall w p call) (hstage : call.stage = some stage)
    (hask : ask settings w call stage = some (reply, w₁))
    (hadvance : advance settings.maxResultAge call.toCompleteCall stage reply = some next) :
    OwnCall (w₁.moved n call next) p { call with stage := some next } := by
  have hsame := ask_sameOutside hask
  obtain rfl := hown.same
  refine ⟨rfl, fun hnext => ?_, fun stage' hnext haccepted => ?_, fun retried rc hnext op hget => ?_⟩
  · change call.envelope.completedAt ≤ w₁.now + maxClockSkew
    rw [hsame.now]
    have hentered := advance_entered hadvance
    obtain hverifying | hclaiming := hnext
    · obtain rfl := Option.some.inj hverifying
      obtain ⟨now, rfl, rfl, hfresh⟩ := hentered
      obtain rfl := Reply.clock.inj (Prod.mk.inj (Option.some.inj hask)).1
      exact skew_of_whenFresh hfresh
    · obtain rfl := Option.some.inj hclaiming
      exact hown.checked (.inl (hstage.trans (congrArg some hentered.1)))
  · obtain rfl := Option.some.inj hnext
    change w₁.guard.seen.get call.key = some call.binding
    obtain hbefore | ⟨rfl, rfl⟩ | ⟨rfl, answer, rfl, hanswer⟩ := advance_accepted hadvance haccepted
    · exact seen_proceed hask rfl (hown.accepted _ hstage hbefore)
    · have hclassify := (Prod.mk.inj (Option.some.inj hask)).1
      simp only [Reply.classification.injEq, Option.some.injEq] at hclassify
      exact seen_proceed hask rfl (classify_exact w.guard call.key call.binding hclassify)
    · obtain ⟨hreply, rfl⟩ := Prod.mk.inj (Option.some.inj hask)
      have heffect := claim_effect w.guard call.key call.binding
        (.aware (settings.claimExpiresAt call.toCompleteCall)) (.aware w.now) false
      have hgiven : some (w.guard.claim call.key call.binding
          (.aware (settings.claimExpiresAt call.toCompleteCall)) (.aware w.now)).1 = some answer :=
        Reply.classification.inj hreply
      rw [hgiven] at heffect
      exact (claimEffect_spec heffect).2.2
        (hanswer.imp (congrArg some) (congrArg some))
  · obtain rfl : next = .calling retried rc := Option.some.inj hnext
    obtain ⟨catalog, operation, rfl, rfl, hprepare⟩ := advance_entered hadvance
    obtain ⟨hreply, rfl⟩ := Prod.mk.inj (Option.some.inj hask)
    have hoperation : w.repo.operations.get call.correlation.operationId = operation :=
      (Reply.reads.inj hreply).2
    have hstored : operation = some op := hoperation.symm.trans hget
    rw [hstored] at hprepare
    exact prepareResult_asked hprepare

/-- A step of a call of the result keeps what holds of it. -/
theorem pending_own {r : SignedResult} {c : DispatchCorrelation} (h : PendingInv settings w r c)
    (hget : w.calls.get n = some call) (hkey : call.key = (settings.callOf c r).key)
    (hstage : call.stage = some stage) (hask : ask settings w call stage = some (reply, w₁))
    (hadvance : advance settings.maxResultAge call.toCompleteCall stage reply = some next) :
    PendingInv settings (w₁.moved n call next) r c := by
  have hsame := ask_sameOutside hask
  have hown := h.calls n call hget hkey
  have hnow : (w₁.moved n call next).now = w.now := hsame.now
  have htask : SameTask w (w₁.moved n call next) (settings.callOf c r) := by
    obtain ⟨hquiet, _⟩ | ⟨_, _, htask⟩ := repo_proceed h.viable hown hstage hask
    · refine sameTask_of_eq ?_
      change w₁.repo.operations.get _ = _
      rw [hquiet]
    · exact htask
  have hbound' : w.guard.seen.get (settings.callOf c r).key =
      some (settings.callOf c r).binding → w₁.guard.seen.get (settings.callOf c r).key =
        some (settings.callOf c r).binding := seen_proceed hask hown.same
  refine ⟨h.dispatch, h.worker, h.bound, h.signed, h.timely, ?_, fun hbound => ?_, ?_,
    viable_proceed h.viable hget hown h.timely h.begun hstage hask hadvance, ?_⟩
  · obtain heq | ⟨_, _, heq⟩ := ask_seen hask
    · change w₁.guard.seen.get _ = none ∨ w₁.guard.seen.get _ = _
      rw [heq]
      exact h.seen
    · refine .inr ?_
      change w₁.guard.seen.get _ = _
      rw [heq, hown.same]
      exact Dict.get_set_same ..
  · rw [hnow]
    obtain heq | ⟨rfl, _, _⟩ := ask_seen hask
    · exact h.begun (heq ▸ hbound)
    · exact hown.checked (.inr hstage)
  · intro r' hr'
    exact h.sole r' (hsame.sent ▸ hr')
  · exact Dict.forall_set (fun m other hm hother =>
      (h.calls m other (hsame.calls ▸ hm) hother).mono hnow.ge hbound' htask)
      fun _ => ownCall_moved hown hstage hask hadvance

/-- A step of another call keeps what holds of the result, if it does not disturb its operation. -/
theorem pending_other {r : SignedResult} {c : DispatchCorrelation} (h : PendingInv settings w r c)
    (hget : w.calls.get n = some call) (hkey : call.key ≠ (settings.callOf c r).key)
    (hstage : call.stage = some stage) (hask : ask settings w call stage = some (reply, w₁))
    (hquiet : ∀ retried rc, call.stage = some (.calling retried rc) → Undisturbed w
      (runInMemory rc call.correlation.operationId call.worker w.now w.repo).2
      (settings.callOf c r)) : PendingInv settings (w₁.moved n call next) r c := by
  have hsame := ask_sameOutside hask
  have hnow : (w₁.moved n call next).now = w.now := hsame.now
  have hseen : w₁.guard.seen.get (settings.callOf c r).key =
      w.guard.seen.get (settings.callOf c r).key := by
    obtain heq | ⟨_, _, heq⟩ := ask_seen hask
    · rw [heq]
    · rw [heq, Dict.get_set, if_neg hkey]
  have hlease : w₁.guard.applications.get (settings.callOf c r).key =
      w.guard.applications.get (settings.callOf c r).key := by
    obtain heq | ⟨_, _, _, _, heq⟩ := ask_applications hask
    · rw [heq]
    · rw [heq, Dict.get_set, if_neg hkey]
  have hrepo : Undisturbed w w₁.repo (settings.callOf c r) := by
    obtain ⟨heq, _⟩ | ⟨retried, rc, rfl, heq⟩ := ask_repo hask
    · rw [heq]
      exact ⟨rfl, id, id⟩
    · rw [heq]
      exact hquiet retried rc hstage
  refine ⟨h.dispatch, h.worker, h.bound, h.signed, h.timely, ?_, fun hbound => ?_, ?_, ?_, ?_⟩
  · change w₁.guard.seen.get _ = none ∨ w₁.guard.seen.get _ = _
    rw [hseen]
    exact h.seen
  · rw [hnow]
    exact h.begun (hseen ▸ hbound)
  · intro r' hr'
    exact h.sole r' (hsame.sent ▸ hr')
  · obtain ⟨haccepts, hopen⟩ | ⟨hsettled, hbound⟩ := h.viable
    · refine .inl ⟨?_, ?_⟩
      · rw [hnow]
        exact hrepo.accepts haccepts
      · obtain hs | ⟨m, other, hm, hp, hway⟩ := hopen
        · have hs' : Startable settings w₁ (settings.callOf c r) :=
            hs.mono hsame.now (.inl hseen) hlease
          exact .inl ⟨hs'.now, hs'.lease⟩
        · have hmn : m ≠ n := by
            rintro rfl
            obtain rfl := Option.some.inj (hget.symm.trans hm)
            exact hkey (by rw [hp])
          refine .inr ⟨m, other, ?_, hp, hnow ▸ hway⟩
          rw [World.moved, Dict.get_set_other _ _ hmn, hsame.calls]
          exact hm
    · exact .inr ⟨hrepo.settled hsettled, hseen.trans hbound⟩
  · exact Dict.forall_set (fun m other hm hother =>
      (h.calls m other (hsame.calls ▸ hm) hother).mono hnow.ge
        (fun hbound => hseen.trans hbound) (sameTask_of_eq hrepo.operation))
      fun hother => absurd hother hkey

end Frames

end CadPlot.Worker
