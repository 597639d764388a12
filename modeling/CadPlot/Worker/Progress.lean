import CadPlot.Worker.Delivery

/-!
# A call that is answered in time is acknowledged

With nothing but its own steps, a call whose result is fresh and applies goes on
to its end: from any of its questions to the mark of the application, and from
there to the acknowledgement.
-/

namespace CadPlot.Worker

open Gateway Gateway.Replay Gateway.Ingress Gateway.Service
open InMemoryResultReplayGuard

/-- The steps that a worker's retries and the gateway's answers take. -/
def retrying (_ : World) (e : Event) : Prop := e.retries = true

section Progress

variable {settings : Settings} {w : World} {n : Nat} {call : Delivery} {stage next : Stage}

/-- The last instant at which a claimed result is fresh. -/
def Settings.lastFresh (settings : Settings) (p : CompleteCall) : Int :=
  min (p.envelope.completedAt + settings.maxResultAge) (p.correlation.operationExpiresAt - 1)

/-- The time of completion is within what the correlation allows. -/
structure Timely (p : CompleteCall) : Prop where
  notEarly : p.correlation.issuedAt - maxClockSkew ≤ p.envelope.completedAt
  notLate : p.envelope.completedAt ≤ p.correlation.operationExpiresAt

/-- A result that `_require_fresh_completion` lets through at a time. -/
structure FreshAt (settings : Settings) (p : CompleteCall) (now : Int) : Prop where
  timely : Timely p
  skew : p.envelope.completedAt ≤ now + maxClockSkew
  last : now ≤ settings.lastFresh p

theorem FreshAt.unexpired {p : CompleteCall} {now : Int} (h : FreshAt settings p now) :
    now < p.correlation.operationExpiresAt := by
  have hlast := h.last
  simp only [Settings.lastFresh] at hlast
  omega

theorem whenFresh_eq {p : CompleteCall} {now : Int} (h : FreshAt settings p now) (next : Stage) :
    whenFresh settings.maxResultAge p (.aware now) next = next := by
  have hfresh : requireFreshCompletion settings.maxResultAge p.envelope p.correlation now =
      .ok () := by
    simp only [requireFreshCompletion, require_eq_ok]
    have hlast := h.last
    simp only [Settings.lastFresh] at hlast
    exact ⟨h.timely.notEarly, h.timely.notLate, by omega, h.skew, by omega⟩
  simp [whenFresh, Datetime.utc, hfresh]

theorem step_proceed {w₁ : World} {reply : Reply} (hget : w.calls.get n = some call)
    (hstage : call.stage = some stage) (hask : ask settings w call stage = some (reply, w₁))
    (hadvance : advance settings.maxResultAge call.toCompleteCall stage reply = some next) :
    step settings w (.proceed n) = some (w₁.moved n call next) := by
  simp [step, hget, proceed, hstage, hask, hadvance]

theorem reaches_of_proceed {w' : World} (hstep : step settings w (.proceed n) = some w') :
    Runs.Reaches (step settings) retrying w w' :=
  Runs.Reaches.single (show retrying w (.proceed n) from rfl) hstep

/-- The call comes to the mark, its operation settled and nothing else changed. -/
def ReachesMarking (settings : Settings) (w : World) (n : Nat) (call : Delivery) : Prop :=
  ∃ repo calls, Runs.Reaches (step settings) retrying w { w with repo := repo, calls := calls } ∧
    calls.get n = some { call with stage := some .marking } ∧ Settled repo call.toCompleteCall

/-- A step of the call that changes nothing else leads on to the mark. -/
theorem reachesMarking_of_step
    (hstep : step settings w (.proceed n) = some (w.moved n call next))
    (hnext : ReachesMarking settings (w.moved n call next) n
      { call with stage := some next }) : ReachesMarking settings w n call := by
  obtain ⟨repo, calls, hreach, hmarking, hsettled⟩ := hnext
  exact ⟨repo, calls, (reaches_of_proceed hstep).trans hreach, hmarking,
    hsettled⟩

theorem calling_reaches_marking {retried : Bool} {op : OperationRecord} {rc : RepositoryCall}
    (hget : w.calls.get n = some call) (hstage : call.stage = some (.calling retried rc))
    (happ : Applicable w.repo w.now call.toCompleteCall op rc)
    (hnow : w.now < call.correlation.operationExpiresAt) :
    ReachesMarking settings w n call := by
  obtain ⟨repo, hrun, hsettled, _⟩ := run_settles happ hnow
  have hadvance : advance settings.maxResultAge call.toCompleteCall (.calling retried rc)
      (.repository (.ok ⟨.updated, some (outcomeOf rc w.now op)⟩)) = some .marking := by
    cases rc <;> rfl
  have hask : ask settings w call (.calling retried rc) = some (.repository
      (.ok ⟨.updated, some (outcomeOf rc w.now op)⟩), { w with repo := repo }) := by
    simp [ask, hrun]
  have hstep := step_proceed hget hstage hask hadvance
  exact ⟨repo, _, reaches_of_proceed hstep, Dict.get_set_same .., hsettled⟩

theorem preparing_reaches_marking {retried : Bool} {op : OperationRecord} {rc : RepositoryCall}
    (hget : w.calls.get n = some call) (hstage : call.stage = some (.preparing retried))
    (happ : Applicable w.repo w.now call.toCompleteCall op rc)
    (hnow : w.now < call.correlation.operationExpiresAt) :
    ReachesMarking settings w n call := by
  have hask : ask settings w call (.preparing retried) =
      some (.reads (catalogOf w.repo) (some op), w) := by simp [ask, happ.stored]
  have hadvance : advance settings.maxResultAge call.toCompleteCall (.preparing retried)
      (.reads (catalogOf w.repo) (some op)) = some (.calling retried rc) := by
    simp only [advance, happ.prepared]
  exact reachesMarking_of_step (step_proceed hget hstage hask hadvance)
    (calling_reaches_marking (Dict.get_set_same ..) rfl happ hnow)

theorem rechecking_reaches_marking {op : OperationRecord} {rc : RepositoryCall}
    (hget : w.calls.get n = some call) (hstage : call.stage = some .rechecking)
    (happ : Applicable w.repo w.now call.toCompleteCall op rc)
    (hfresh : FreshAt settings call.toCompleteCall w.now) : ReachesMarking settings w n call := by
  have hadvance : advance settings.maxResultAge call.toCompleteCall .rechecking
      (.clock (.aware w.now)) = some (.preparing false) := by
    simp only [advance, whenFresh_eq hfresh]
  exact reachesMarking_of_step (step_proceed hget hstage rfl hadvance)
    (preparing_reaches_marking (Dict.get_set_same ..) rfl happ hfresh.unexpired)

theorem needing_reaches_marking {op : OperationRecord} {rc : RepositoryCall}
    (hget : w.calls.get n = some call) (hstage : call.stage = some .needing)
    (happ : Applicable w.repo w.now call.toCompleteCall op rc)
    (hfresh : FreshAt settings call.toCompleteCall w.now) : ReachesMarking settings w n call := by
  have hask : ask settings w call .needing = some (.reads (catalogOf w.repo) (some op), w) := by
    simp [ask, happ.stored]
  have hadvance : advance settings.maxResultAge call.toCompleteCall .needing
      (.reads (catalogOf w.repo) (some op)) = some .rechecking := by
    simp only [advance, happ.needs]
  exact reachesMarking_of_step (step_proceed hget hstage hask hadvance)
    (rechecking_reaches_marking (Dict.get_set_same ..) rfl happ hfresh)

theorem settled_reaches_marking (hget : w.calls.get n = some call)
    (hstage : call.stage = some .needing) (hsettled : Settled w.repo call.toCompleteCall) :
    ReachesMarking settings w n call := by
  have hadvance : advance settings.maxResultAge call.toCompleteCall .needing
      (.reads (catalogOf w.repo) (w.repo.operations.get call.correlation.operationId)) =
        some .marking := by
    have hneeds : resultNeedsApplication call.toCompleteCall (catalogOf w.repo)
      (w.repo.operations.get call.correlation.operationId) = .ok false := hsettled
    simp only [advance, hneeds]
  exact ⟨w.repo, _, reaches_of_proceed (step_proceed hget hstage rfl hadvance),
    Dict.get_set_same .., hsettled⟩

/-- The call returns, with the worker and its outbox as they were. -/
def Returns (settings : Settings) (w : World) (n : Nat) (p : CompleteCall) : Prop :=
  ∃ w' call, Runs.Reaches (step settings) retrying w w' ∧ w'.calls.get n = some call ∧
    call.toCompleteCall = p ∧ call.stage = some (.returned (.ok ())) ∧ w'.outbox = w.outbox ∧
    w'.iteration = w.iteration

theorem returns_of_reaches {w₁ : World} {p : CompleteCall}
    (hreach : Runs.Reaches (step settings) retrying w w₁) (houtbox : w₁.outbox = w.outbox)
    (hiteration : w₁.iteration = w.iteration) (h : Returns settings w₁ n p) :
    Returns settings w n p := by
  obtain ⟨w', call, hreach', hget, hp, hstage, ho, hi⟩ := h
  exact ⟨w', call, hreach.trans hreach', hget, hp, hstage, ho.trans houtbox, hi.trans hiteration⟩

/-- The application is leased to the call, for longer than now. -/
def Leased (w : World) (call : Delivery) : Prop :=
  ∃ expiry, w.guard.applications.get call.key = some (call.applicationId, expiry) ∧ w.now < expiry

theorem marking_returns (hget : w.calls.get n = some call) (hstage : call.stage = some .marking)
    (hseen : w.guard.seen.get call.key = some call.binding) (hleased : Leased w call) :
    Returns settings w n call.toCompleteCall := by
  obtain ⟨expiry, happlication, hnow⟩ := hleased
  have hmark : (w.guard.markApplied call.key call.binding call.applicationId (.aware w.now)).1 =
      true := by
    unfold markApplied
    rw [if_neg (not_not_intro hseen)]
    split
    · rfl
    · simp [Datetime.utc, happlication, hnow]
  have hask : ask settings w call .marking = some (.marked (some true), { w with
      guard := (w.guard.markApplied call.key call.binding call.applicationId
        (.aware w.now)).2 }) := by
    simp only [ask, hmark]
  exact ⟨_, _, reaches_of_proceed (step_proceed hget hstage hask rfl),
    Dict.get_set_same .., rfl, rfl, rfl, rfl⟩

theorem returns_of_reachesMarking (h : ReachesMarking settings w n call)
    (hseen : w.guard.seen.get call.key = some call.binding) (hleased : Leased w call) :
    Returns settings w n call.toCompleteCall := by
  obtain ⟨repo, calls, hreach, hmarking, _⟩ := h
  exact returns_of_reaches hreach rfl rfl
    (@marking_returns settings { w with repo := repo, calls := calls } n
      { call with stage := some .marking } hmarking rfl hseen hleased)

/-- A result that a call can finish at once: settled, or fresh and applicable. -/
def Finishable (settings : Settings) (w : World) (p : CompleteCall) : Prop :=
  Settled w.repo p ∨ ∃ op rc, Applicable w.repo w.now p op rc ∧ FreshAt settings p w.now

theorem needing_returns (hget : w.calls.get n = some call) (hstage : call.stage = some .needing)
    (hseen : w.guard.seen.get call.key = some call.binding) (hleased : Leased w call)
    (hfinish : Finishable settings w call.toCompleteCall) :
    Returns settings w n call.toCompleteCall := by
  refine returns_of_reachesMarking ?_ hseen hleased
  obtain hsettled | ⟨op, rc, happ, hfresh⟩ := hfinish
  · exact settled_reaches_marking hget hstage hsettled
  · exact needing_reaches_marking hget hstage happ hfresh

/-- A step of the call that leaves the worker alone leads on to its return. -/
theorem returns_of_step {w₁ : World} {reply : Reply} {p : CompleteCall}
    (hget : w.calls.get n = some call) (hstage : call.stage = some stage)
    (hask : ask settings w call stage = some (reply, w₁))
    (hadvance : advance settings.maxResultAge call.toCompleteCall stage reply = some next)
    (houtbox : w₁.outbox = w.outbox) (hiteration : w₁.iteration = w.iteration)
    (h : Returns settings (w₁.moved n call next) n p) : Returns settings w n p :=
  returns_of_reaches (reaches_of_proceed (step_proceed hget hstage hask hadvance)) houtbox
    hiteration h

/-- No lease on the application of a key is running. -/
def Free (w : World) (key : Key) : Prop :=
  ∀ holder expiry, w.guard.applications.get key = some (holder, expiry) → expiry ≤ w.now

theorem acquiring_returns (hget : w.calls.get n = some call) (hstage : call.stage = some .acquiring)
    (hversion : call.applicationId.version = some 4)
    (hseen : w.guard.seen.get call.key = some call.binding) (hfree : Free w call.key)
    (hfinish : Finishable settings w call.toCompleteCall) :
    Returns settings w n call.toCompleteCall := by
  have hwell : wellFormed call.applicationId resultApplicationLeaseSeconds = true := by
    simp [wellFormed, hversion, resultApplicationLeaseSeconds, maxResultApplicationLeaseSeconds]
  by_cases happlied : call.key ∈ w.guard.applied
  · have hask : ask settings w call .acquiring = some (.application (some .applied), w) := by
      simp [ask, acquireApplication, hwell, hseen, happlied]
    exact ⟨_, _, reaches_of_proceed (step_proceed hget hstage hask rfl), Dict.get_set_same .., rfl,
      rfl, rfl, rfl⟩
  · let expiry := w.now + seconds resultApplicationLeaseSeconds
    let granted : InMemoryResultReplayGuard := { w.guard with
      applications := w.guard.applications.set call.key (call.applicationId, expiry) }
    have hacquire : w.guard.acquireApplication call.key call.binding call.applicationId
        resultApplicationLeaseSeconds (.aware w.now) = (.acquired, granted) := by
      unfold acquireApplication
      rw [if_neg (not_not_intro hwell), if_neg (not_not_intro hseen), if_neg happlied]
      simp only [Datetime.utc]
      cases hlease : w.guard.applications.get call.key with
      | none => rfl
      | some lease =>
        have hpast : ¬w.now < lease.2 := Int.not_lt.2 (hfree lease.1 lease.2 hlease)
        simp [hpast, granted, expiry]
    have hask : ask settings w call .acquiring =
        some (.application (some .acquired), { w with guard := granted }) := by
      simp only [ask, hacquire]
    have hnow : w.now < expiry := Int.lt_add_of_pos_right _ (by decide)
    refine @returns_of_step settings w n call _ .needing _ _ _ hget hstage hask rfl rfl rfl ?_
    exact @needing_returns settings (World.moved { w with guard := granted } n call .needing) n
      { call with stage := some .needing } (Dict.get_set_same ..) rfl hseen
      ⟨expiry, Dict.get_set_same .., hnow⟩ hfinish

theorem claimed_returns (hget : w.calls.get n = some call)
    (hstage : call.stage = some .classifying) (hversion : call.applicationId.version = some 4)
    (hseen : w.guard.seen.get call.key = some call.binding) (hfree : Free w call.key)
    (hfinish : Finishable settings w call.toCompleteCall) :
    Returns settings w n call.toCompleteCall := by
  have hask : ask settings w call .classifying =
      some (.classification (some .exactMatch), w) := by
    simp [ask, classify, hseen]
  refine @returns_of_step settings w n call _ .acquiring _ _ _ hget hstage hask rfl rfl rfl ?_
  exact @acquiring_returns settings (w.moved n call .acquiring) n
    { call with stage := some .acquiring } (Dict.get_set_same ..) rfl hversion hseen hfree hfinish

theorem claiming_returns (hget : w.calls.get n = some call) (hstage : call.stage = some .claiming)
    (hversion : call.applicationId.version = some 4) (hseen : w.guard.seen.get call.key = none)
    (hclaim : w.now < settings.claimExpiresAt call.toCompleteCall) (hfree : Free w call.key)
    (hfinish : Finishable settings w call.toCompleteCall) :
    Returns settings w n call.toCompleteCall := by
  let bound : InMemoryResultReplayGuard := { w.guard with
    seen := w.guard.seen.set call.key call.binding }
  have hclaimed : w.guard.claim call.key call.binding
      (.aware (settings.claimExpiresAt call.toCompleteCall)) (.aware w.now) =
        (.firstSeen, bound) := by
    simp [InMemoryResultReplayGuard.claim, hseen, Datetime.utc, refuses, hclaim, bound]
  have hask : ask settings w call .claiming =
      some (.classification (some .firstSeen), { w with guard := bound }) := by
    simp only [ask, hclaimed]
  refine @returns_of_step settings w n call _ .acquiring _ _ _ hget hstage hask rfl rfl rfl ?_
  exact @acquiring_returns settings (World.moved { w with guard := bound } n call .acquiring) n
    { call with stage := some .acquiring } (Dict.get_set_same ..) rfl hversion
    (Dict.get_set_same ..) hfree hfinish

theorem verifying_returns (hget : w.calls.get n = some call) (hstage : call.stage = some .verifying)
    (hversion : call.applicationId.version = some 4) (hseen : w.guard.seen.get call.key = none)
    (hsigned : settings.verifyWorkerSignature call.correlation.deviceId call.canonicalResult
      call.envelope.signature = true)
    (hclaim : w.now < settings.claimExpiresAt call.toCompleteCall) (hfree : Free w call.key)
    (hfinish : Finishable settings w call.toCompleteCall) :
    Returns settings w n call.toCompleteCall := by
  have hask : ask settings w call .verifying = some (.signature (some true), w) := by
    simp only [ask, hsigned]
  refine @returns_of_step settings w n call _ .claiming _ _ _ hget hstage hask rfl rfl rfl ?_
  exact @claiming_returns settings (w.moved n call .claiming) n
    { call with stage := some .claiming } (Dict.get_set_same ..) rfl hversion hseen hclaim hfree
    hfinish

theorem unclaimed_returns (hget : w.calls.get n = some call)
    (hstage : call.stage = some .classifying) (hversion : call.applicationId.version = some 4)
    (hseen : w.guard.seen.get call.key = none)
    (hsigned : settings.verifyWorkerSignature call.correlation.deviceId call.canonicalResult
      call.envelope.signature = true)
    (hclaim : w.now < settings.claimExpiresAt call.toCompleteCall) (hfree : Free w call.key)
    (hfresh : FreshAt settings call.toCompleteCall w.now)
    (hfinish : Finishable settings w call.toCompleteCall) :
    Returns settings w n call.toCompleteCall := by
  have hask : ask settings w call .classifying = some (.classification (some .unseen), w) := by
    simp [ask, classify, hseen]
  have hclock : advance settings.maxResultAge call.toCompleteCall .readingClock
      (.clock (.aware w.now)) = some .verifying := by
    simp only [advance, whenFresh_eq hfresh]
  refine @returns_of_step settings w n call _ .readingClock _ _ _ hget hstage hask rfl rfl rfl ?_
  refine @returns_of_step settings (w.moved n call .readingClock) n
    { call with stage := some .readingClock } .readingClock .verifying _ _ _
    (Dict.get_set_same ..) rfl rfl hclock rfl rfl ?_
  exact @verifying_returns settings
    ((w.moved n call .readingClock).moved n { call with stage := some .readingClock } .verifying) n
    { call with stage := some .verifying } (Dict.get_set_same ..) rfl hversion hseen hsigned
    hclaim hfree hfinish

end Progress

end CadPlot.Worker
