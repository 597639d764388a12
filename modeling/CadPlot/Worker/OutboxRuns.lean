import CadPlot.Worker.Pending

/-!
# Runs of the worker and its gateway

Steps that keep to the conditions keep the invariant of the pending result, and
from every state that they reach the retries of the worker alone can bring the
result through and clear it from the outbox.
-/

namespace CadPlot.Worker

open Gateway Gateway.Replay Gateway.Ingress Gateway.Service

section Keeps

variable {settings : Settings} {w w₁ w' : World} {p : CompleteCall} {call : Delivery}
  {r : SignedResult} {c : DispatchCorrelation} {n : Nat}

theorem Accepts.unsettled {repo : InMemoryGatewayRepository} {now : Int}
    (h : Accepts repo now p) : ¬Settled repo p := by
  obtain ⟨op, rc, happ⟩ := h
  intro hsettled
  have hneeds := happ.needs
  rw [← happ.stored, hsettled] at hneeds
  cases hneeds

theorem Accepts.mono {repo : InMemoryGatewayRepository} {now later : Int}
    (h : Accepts repo now p) (hle : now ≤ later) : Accepts repo later p := by
  obtain ⟨op, rc, happ⟩ := h
  exact ⟨op, rc, { happ with onClock := happ.onClock.mono hle }⟩

theorem Open.mono (h : Open settings w p) (hnow : w₁.now = w.now) (hguard : w₁.guard = w.guard)
    (hcalls : ∀ m call, w.calls.get m = some call → w₁.calls.get m = some call) :
    Open settings w₁ p := by
  obtain hs | ⟨m, call, hm, hp, hway⟩ := h
  · exact .inl (hs.mono hnow (.inl (by rw [hguard])) (by rw [hguard]))
  · exact .inr ⟨m, call, hcalls m call hm, hp, hnow ▸ hway⟩

/-- A step that leaves the guard alone keeps what holds of the result, if it keeps it viable. -/
theorem PendingInv.mono (h : PendingInv settings w r c) (hnow : w.now ≤ w₁.now)
    (hguard : w₁.guard = w.guard) (hsent : ∀ r' ∈ w₁.sent, r' ∈ w.sent ∨ r' = r)
    (hviable : Viable settings w₁ (settings.callOf c r))
    (hcalls : ∀ n call, w₁.calls.get n = some call → call.key = (settings.callOf c r).key →
      OwnCall w₁ (settings.callOf c r) call) : PendingInv settings w₁ r c where
  dispatch := h.dispatch
  worker := h.worker
  bound := h.bound
  signed := h.signed
  timely := h.timely
  seen := hguard ▸ h.seen
  begun hbound := (h.begun (hguard ▸ hbound)).trans (Int.add_le_add_right hnow _)
  sole r' hr' c' hc' hnonce := (hsent r' hr').elim (fun hmem => h.sole r' hmem c' hc' hnonce) id
  viable := hviable
  calls := hcalls

theorem Viable.mono (h : Viable settings w p) (hnow : w₁.now = w.now) (hguard : w₁.guard = w.guard)
    (hcalls : ∀ m call, w.calls.get m = some call → w₁.calls.get m = some call)
    (hrepo : Undisturbed w w₁.repo p) : Viable settings w₁ p := by
  obtain ⟨haccepts, hopen⟩ | ⟨hsettled, hbound⟩ := h
  · exact .inl ⟨hnow ▸ hrepo.accepts haccepts, hopen.mono hnow hguard hcalls⟩
  · exact .inr ⟨hrepo.settled hsettled, by rw [hguard]; exact hbound⟩

/-- A step that leaves the guard, the calls and the clock alone, and does not disturb the operation
of the result. -/
theorem PendingInv.quiet (h : PendingInv settings w r c) (hnow : w₁.now = w.now)
    (hguard : w₁.guard = w.guard) (hcalls : w₁.calls = w.calls)
    (hsent : ∀ r' ∈ w₁.sent, r' ∈ w.sent ∨ r' = r)
    (hrepo : Undisturbed w w₁.repo (settings.callOf c r)) : PendingInv settings w₁ r c :=
  h.mono hnow.ge hguard hsent
    (h.viable.mono hnow hguard (fun m call hm => hcalls ▸ hm) hrepo)
    fun m call hm hkey => (h.calls m call (hcalls ▸ hm) hkey).mono hnow.ge
      (fun hbound => by rw [hguard]; exact hbound) (sameTask_of_eq hrepo.operation)

theorem undisturbed_refl (w : World) (p : CompleteCall) : Undisturbed w w.repo p :=
  ⟨rfl, id, id⟩

/-- A result of the worker is the one that its next iteration posts. -/
theorem nextPendingResult_eq (h : PendingInv settings w r c) :
    nextPendingResult settings.worker [r] = some r := by
  have hworker := h.worker
  have hbound := h.bound
  simp only [requireWorkerContext, require_eq_ok] at hworker
  simp only [requireResultBinding, require_bind_eq_ok, require_eq_ok] at hbound
  obtain ⟨⟨htenant, _, hdevice, _⟩, _⟩ := hbound
  have hmine : (r.envelope.tenantId = settings.worker.tenantId ∧
      r.envelope.deviceId = settings.worker.workstationId) :=
    ⟨htenant.trans hworker.1.symm, hdevice.trans hworker.2.symm⟩
  simp [nextPendingResult, hmine]

/-- Whatever is received of the worker is a call of a result that it sent. -/
theorem receive_cases {r' : SignedResult} {applicationId : Uuid}
    (h : receive settings w n r' applicationId = some w') :
    r' ∈ w.sent ∧ applicationId.version = some 4 ∧ w.calls.get n = none ∧ (w' = w ∨
      ∃ c', settings.dispatchOf r' = some c' ∧ w' = { w with
        calls := w.calls.set n ⟨settings.callOf c' r', applicationId, some .classifying⟩ }) := by
  unfold receive at h
  split at h
  · cases h
  · next hguard =>
    obtain ⟨hsent, hversion, hnone⟩ := not_not.1 hguard
    refine ⟨hsent, hversion, hnone, ?_⟩
    split at h
    · exact .inl (Option.some.inj h).symm
    · next correlation hdispatch =>
      split at h
      · exact .inl (Option.some.inj h).symm
      · next call hopen =>
        have hcall : call = settings.callOf correlation r' := by
          unfold openCall at hopen
          split at hopen
          · cases hopen
          · simp only at hopen
            split at hopen
            · cases hopen
            · exact (Except.ok.inj hopen).symm
        exact .inr ⟨correlation, hdispatch, by rw [← Option.some.inj h, hcall]⟩

end Keeps

section Step

variable {settings : Settings} {w w₁ w' : World} {r : SignedResult} {c : DispatchCorrelation}
  {n : Nat} {call : Delivery}

theorem PendingInv.pending (h : PendingInv settings w r c) (hout : w.outbox = [r]) :
    Pending settings w (settings.callOf c r) :=
  ⟨r, hout ▸ List.mem_singleton_self r, c, h.dispatch, rfl⟩

/-- A step that leaves the guard and the calls alone. -/
theorem Inv.quiet (hi : Inv settings w) (hguard : w₁.guard = w.guard) (hcalls : w₁.calls = w.calls)
    (hsent : ∀ r ∈ w.sent, r ∈ w₁.sent) (houtbox : w₁.outbox = [] ∨ ∃ r c, w₁.outbox = [r] ∧
      w₁.iteration ≠ .polling ∧ PendingInv settings w₁ r c) : Inv settings w₁ where
  leases := hguard ▸ hi.leases
  calls m call hm := by
    obtain ⟨r, hr, hcall⟩ := hi.calls m call (hcalls ▸ hm)
    exact ⟨r, hsent r hr, hcall⟩
  outbox := houtbox

theorem tick_inv (hi : Inv settings w) {now : Int} (hle : w.now ≤ now)
    (hok : Allowed settings w (.tick now)) : Inv settings { w with now := now } := by
  refine hi.quiet rfl rfl (fun _ hr => hr) (hi.outbox.imp_right ?_)
  rintro ⟨r, c, hout, hiteration, hp⟩
  refine ⟨r, c, hout, hiteration, hp.mono hle rfl (fun _ hr => .inl hr) ?_ fun m call hm hkey =>
    (hp.calls m call hm hkey).mono hle id (sameTask_of_eq rfl)⟩
  obtain ⟨haccepts, _⟩ | hsettled := hp.viable
  · exact .inl ⟨haccepts.mono hle, hok _ (hp.pending hout) haccepts.unsettled⟩
  · exact .inr hsettled

theorem elsewhere_inv (hi : Inv settings w) {repo : InMemoryGatewayRepository}
    (hok : Allowed settings w (.elsewhere repo)) : Inv settings { w with repo := repo } := by
  refine hi.quiet rfl rfl (fun _ hr => hr) (hi.outbox.imp_right ?_)
  rintro ⟨r, c, hout, hiteration, hp⟩
  exact ⟨r, c, hout, hiteration,
    hp.quiet rfl rfl rfl (fun _ hr => .inl hr) (hok _ (hp.pending hout))⟩

/-- A step of the runner that neither polls nor stores a result. -/
theorem runner_inv (hi : Inv settings w) {outbox : Outbox} {sent : List SignedResult}
    {iteration : Iteration} (houtbox : outbox = [] ∨ outbox = w.outbox ∧ iteration ≠ .polling)
    (hsent : ∀ r ∈ sent, r ∈ w.sent ∨ w.outbox = [r]) (hold : ∀ r ∈ w.sent, r ∈ sent) :
    Inv settings { w with outbox := outbox, sent := sent, iteration := iteration } := by
  refine hi.quiet rfl rfl hold ?_
  obtain hempty | ⟨hsame, hiteration⟩ := houtbox
  · exact .inl hempty
  · refine hi.outbox.imp hsame.trans ?_
    rintro ⟨r, c, hout, _, hp⟩
    refine ⟨r, c, hsame.trans hout, hiteration, hp.quiet rfl rfl rfl (fun r' hr' => ?_)
      (undisturbed_refl w _)⟩
    refine (hsent r' hr').imp_right fun hr => ?_
    rw [hout] at hr
    exact (List.cons.inj hr).1.symm

theorem runOnce_inv (hi : Inv settings w) (h : step settings w .runOnce = some w') :
    Inv settings w' := by
  simp only [step] at h
  split at h
  · next pending hiteration hnext =>
    obtain rfl := Option.some.inj h
    obtain hempty | ⟨r, c, hout, _, hp⟩ := hi.outbox
    · simp [hempty, nextPendingResult] at hnext
    · rw [hout, nextPendingResult_eq hp] at hnext
      obtain rfl := Option.some.inj hnext
      refine runner_inv hi (.inr ⟨rfl, by simp⟩) (fun r' hr' => ?_)
        fun r' hr' => List.mem_cons_of_mem _ hr'
      obtain rfl | hmem := List.mem_cons.1 hr'
      · exact .inr hout
      · exact .inl hmem
  · next hiteration hnext =>
    obtain rfl := Option.some.inj h
    obtain hempty | ⟨r, c, hout, _, hp⟩ := hi.outbox
    · exact runner_inv hi (.inl hempty) (fun _ hr => .inl hr) fun _ hr => hr
    · rw [hout, nextPendingResult_eq hp] at hnext
      cases hnext
  · cases h

theorem acknowledge_inv (hi : Inv settings w) {result : SignedResult}
    (h : acknowledge w result call = some w') : Inv settings w' := by
  unfold acknowledge at h
  split at h
  · split at h
    · split at h
      · next outbox hack =>
        obtain rfl := Option.some.inj h
        refine runner_inv hi ?_ (fun _ hr => .inl hr) fun _ hr => hr
        unfold acknowledgePendingResult at hack
        split at hack
        · next hmem =>
          obtain rfl := Except.ok.inj hack
          obtain hempty | ⟨r, c, hout, _, _⟩ := hi.outbox
          · simp [hempty] at hmem
          · refine .inl ?_
            rw [hout] at hmem ⊢
            simp [List.mem_singleton.1 hmem]
        · cases hack
      · obtain rfl := Option.some.inj h
        exact runner_inv hi (.inr ⟨rfl, by simp⟩) (fun _ hr => .inl hr) fun _ hr => hr
    · cases h
  · cases h

/-- A result that could be taken at once is pending when it is stored. -/
theorem savable_pending (hi : Inv settings w) (hs : Savable settings w r c) :
    PendingInv settings (post { w with outbox := [r] } r) r c where
  dispatch := hs.dispatch
  worker := hs.worker
  bound := hs.bound
  signed := hs.signed
  timely := hs.timely
  seen := .inl hs.unclaimed
  begun hbound := by
    have hnone : w.guard.seen.get (settings.callOf c r).key = _ := hbound
    rw [hs.unclaimed] at hnone
    cases hnone
  sole r' hr' c' hc' hnonce := by
    obtain rfl | hmem := List.mem_cons.1 hr'
    · rfl
    · exact absurd hnonce (hs.unused r' hmem c' hc')
  viable := by
    refine .inl ⟨hs.accepts, .inl ⟨?_, fun holder expiry hlease => ?_⟩⟩
    · have hlast : lastStart settings (post { w with outbox := [r] } r) (settings.callOf c r) =
        settings.claimExpiresAt (settings.callOf c r) - 1 := if_pos hs.unclaimed
      rw [hlast]
      exact Int.le_sub_one_of_lt hs.inTime
    · have hnone : w.guard.applications.get (settings.callOf c r).key = _ := hlease
      rw [hi.leases _ hs.unclaimed] at hnone
      cases hnone
  calls m call hm hkey := by
    obtain ⟨r', hr', c', hc', hcall⟩ := hi.calls m call hm
    refine absurd ?_ (hs.unused r' hr' c' hc')
    rw [hcall] at hkey
    exact (Key.mk.inj hkey).2.2

theorem save_inv (hi : Inv settings w) (hok : Allowed settings w (.save r))
    (h : step settings w (.save r) = some w') : Inv settings w' := by
  simp only [step] at h
  split at h
  · next hpolling =>
    obtain ⟨c, hs⟩ := hok hpolling
    have hempty : w.outbox = [] := by
      obtain hempty | ⟨_, _, _, hnot, _⟩ := hi.outbox
      · exact hempty
      · exact absurd hpolling hnot
    have hsaved : savePendingResult w.outbox r = .ok [r] := by
      rw [hempty]
      rfl
    rw [hsaved] at h
    obtain rfl := Option.some.inj h
    exact hi.quiet rfl rfl (fun _ hr => List.mem_cons_of_mem _ hr)
      (.inr ⟨r, c, rfl, by simp [post], savable_pending hi hs⟩)
  · cases h

theorem receive_inv (hi : Inv settings w) {applicationId : Uuid}
    (h : receive settings w n r applicationId = some w') : Inv settings w' := by
  obtain ⟨hsent, _, hnone, rfl | ⟨c, hc, rfl⟩⟩ := receive_cases h
  · exact hi
  · have hkept : ∀ m call, w.calls.get m = some call →
        (w.calls.set n ⟨settings.callOf c r, applicationId, some .classifying⟩).get m =
          some call := by
      intro m call hm
      have hne : m ≠ n := by
        rintro rfl
        rw [hnone] at hm
        cases hm
      rw [Dict.get_set_other _ _ hne]
      exact hm
    refine ⟨hi.leases, Dict.forall_set hi.calls ⟨r, hsent, c, hc, rfl⟩, hi.outbox.imp_right ?_⟩
    rintro ⟨r', c', hout, hiteration, hp⟩
    refine ⟨r', c', hout, hiteration, hp.mono le_rfl rfl (fun _ hr => .inl hr)
      (hp.viable.mono rfl rfl hkept (undisturbed_refl w _))
      (Dict.forall_set (fun m other hm hkey => (hp.calls m other hm hkey).mono le_rfl id
        (sameTask_of_eq rfl)) fun hkey => ?_)⟩
    -- the call has the nonce of the result, so it is a call of the result
    have hkey' : (settings.callOf c r).key = (settings.callOf c' r').key := hkey
    obtain rfl := hp.sole r hsent c hc (Key.mk.inj hkey').2.2
    obtain rfl := Option.some.inj (hc.symm.trans hp.dispatch)
    refine ⟨rfl, by simp, fun stage hstage haccepted => ?_, by simp⟩
    obtain rfl := Option.some.inj hstage
    cases haccepted

theorem abandon_inv (hi : Inv settings w) (hget : w.calls.get n = some call)
    (hok : Allowed settings w (.abandon n)) :
    Inv settings { w with calls := w.calls.set n { call with stage := none } } := by
  refine ⟨hi.leases, Dict.forall_set hi.calls (hi.calls n call hget), hi.outbox.imp_right ?_⟩
  rintro ⟨r, c, hout, hiteration, hp⟩
  refine ⟨r, c, hout, hiteration, hp.mono le_rfl rfl (fun _ hr => .inl hr) ?_
    (Dict.forall_set (fun m other hm hkey => (hp.calls m other hm hkey).mono le_rfl id
      (sameTask_of_eq rfl)) fun hkey => ⟨(hp.calls n call hget hkey).same, ?_, ?_, ?_⟩)⟩
  · obtain ⟨haccepts, _⟩ | hsettled := hp.viable
    · exact .inl ⟨haccepts, hok _ call (hp.pending hout) haccepts.unsettled hget⟩
    · exact .inr hsettled
  all_goals simp

theorem proceed_inv (hi : Inv settings w) (hget : w.calls.get n = some call)
    (hok : Allowed settings w (.proceed n)) (h : proceed settings w n call = some w') :
    Inv settings w' := by
  obtain ⟨stage, reply, w₁, next, hstage, hask, hadvance, rfl⟩ := proceed_cases h
  have hsame := ask_sameOutside hask
  refine ⟨fun key hnone => ?_, ?_, ?_⟩
  · have hnone' : w₁.guard.seen.get key = none := hnone
    have hbefore : w.guard.seen.get key = none := by
      obtain heq | ⟨_, _, heq⟩ := ask_seen hask
      · rw [← heq]
        exact hnone'
      · rw [heq, Dict.get_set] at hnone'
        split at hnone'
        · cases hnone'
        · exact hnone'
    change w₁.guard.applications.get key = none
    obtain heq | ⟨_, _, hbound, _, heq⟩ := ask_applications hask
    · rw [heq]
      exact hi.leases key hbefore
    · have hne : key ≠ call.key := by
        rintro rfl
        rw [hbound] at hbefore
        cases hbefore
      rw [heq, Dict.get_set_other _ _ hne]
      exact hi.leases key hbefore
  · intro m other hm
    have hold := hi.calls
    rw [← hsame.calls, ← hsame.sent] at hold
    refine Dict.forall_set hold ?_ m other hm
    exact hold n call (hsame.calls ▸ hget)
  · have houtbox : (w₁.moved n call next).outbox = w.outbox := hsame.outbox
    have hiteration : (w₁.moved n call next).iteration = w.iteration := hsame.iteration
    rw [houtbox, hiteration]
    refine hi.outbox.imp_right ?_
    rintro ⟨r, c, hout, hiteration, hp⟩
    refine ⟨r, c, hout, hiteration, ?_⟩
    by_cases hkey : call.key = (settings.callOf c r).key
    · exact pending_own hp hget hkey hstage hask hadvance
    · exact pending_other hp hget hkey hstage hask fun retried rc hcalling =>
        hok _ call retried rc (hp.pending hout) hget (fun heq => hkey (by rw [heq])) hcalling

/-- Every step that keeps to the conditions keeps the invariant. -/
theorem step_inv {e : Event} (hi : Inv settings w) (hok : Allowed settings w e)
    (hstep : step settings w e = some w') : Inv settings w' := by
  cases e with
  | tick now =>
    simp only [step] at hstep
    split at hstep
    · next hle =>
      obtain rfl := Option.some.inj hstep
      exact tick_inv hi hle hok
    · cases hstep
  | elsewhere repo =>
    obtain rfl := Option.some.inj hstep
    exact elsewhere_inv hi hok
  | runOnce => exact runOnce_inv hi hstep
  | nothing =>
    simp only [step] at hstep
    split at hstep
    · obtain rfl := Option.some.inj hstep
      exact runner_inv hi (.inr ⟨rfl, by simp⟩) (fun _ hr => .inl hr) fun _ hr => hr
    · cases hstep
  | save r => exact save_inv hi hok hstep
  | giveUp =>
    simp only [step] at hstep
    split at hstep
    · cases hstep
    · obtain rfl := Option.some.inj hstep
      exact runner_inv hi (.inr ⟨rfl, by simp⟩) (fun _ hr => .inl hr) fun _ hr => hr
  | receive n r applicationId => exact receive_inv hi hstep
  | proceed n =>
    simp only [step] at hstep
    split at hstep
    · cases hstep
    · next call hget => exact proceed_inv hi hget hok hstep
  | abandon n =>
    simp only [step] at hstep
    split at hstep
    · cases hstep
    · next call hget =>
      obtain rfl := Option.some.inj hstep
      exact abandon_inv hi hget hok
  | acknowledge n =>
    simp only [step] at hstep
    split at hstep
    · exact acknowledge_inv hi hstep
    · cases hstep

theorem inv_start (now : Int) (repo : InMemoryGatewayRepository) :
    Inv settings (start now repo) where
  leases _ _ := rfl
  calls _ _ hget := by cases hget
  outbox := .inl rfl

theorem inv_of_reaches {now : Int} {repo : InMemoryGatewayRepository}
    (hreach : Runs.Reaches (step settings) (Allowed settings) (start now repo) w) :
    Inv settings w :=
  Runs.invariant_of_reaches (inv_start now repo)
    (fun _ _ _ hi hok hstep => step_inv hi hok hstep) hreach

end Step

section Cleared

variable {settings : Settings} {w : World} {r : SignedResult} {c : DispatchCorrelation}

/-- A call of the result has returned, so that its sender may take it off the outbox. -/
def Acknowledged (w : World) (r : SignedResult) : Prop :=
  ∃ n call, w.calls.get n = some call ∧ call.envelope = r.envelope ∧
    call.canonicalResult = r.canonical ∧ call.stage = some (.returned (.ok ()))

/-- The retries of the worker get the result acknowledged and taken off the outbox, and the worker
polls for new work. -/
def Cleared (settings : Settings) (w : World) (r : SignedResult) : Prop :=
  ∃ w', Runs.Reaches (step settings) retrying w w' ∧ Acknowledged w' r ∧ r ∉ w'.outbox ∧
    w'.iteration = .polling

/-- A new call of the pending result would come to its end. -/
structure Ready (settings : Settings) (w : World) (r : SignedResult) (c : DispatchCorrelation) :
    Prop where
  pending : nextPendingResult settings.worker w.outbox = some r
  alone : w.outbox = [r]
  dispatch : settings.dispatchOf r = some c
  worker : requireWorkerContext settings.worker c = .ok ()
  bound : requireResultBinding r.envelope c = .ok ()
  returns : ∀ w₁ n applicationId, w₁.calls.get n =
      some ⟨settings.callOf c r, applicationId, some .classifying⟩ →
    applicationId.version = some 4 → w₁.guard = w.guard → w₁.repo = w.repo → w₁.now = w.now →
      Returns settings w₁ n (settings.callOf c r)

def someUuid : Uuid := ⟨0x40008000000000000000#128⟩

theorem openCall_eq {settings : Settings} {r : SignedResult} {c : DispatchCorrelation}
    (hworker : requireWorkerContext settings.worker c = .ok ())
    (hbound : requireResultBinding r.envelope c = .ok ()) :
    openCall (fun r : SignedResult => some (r.envelope, r.canonical)) settings.sha256
      settings.worker c r = .ok (settings.callOf c r) := by
  simp [openCall, hworker, hbound, Settings.callOf]

theorem reaches_of_retry {w' : World} {e : Event} (hretries : e.retries = true)
    (hstep : step settings w e = some w') : Runs.Reaches (step settings) retrying w w' :=
  Runs.Reaches.single (show retrying w e from hretries) hstep

/-- From an idle worker: post the result, let the gateway take it, and poll. -/
theorem cleared_of_idle (h : Ready settings w r c) (hidle : w.iteration = .idle) :
    Cleared settings w r := by
  obtain ⟨n, hn⟩ := w.calls.exists_unset
  let called : World := { post w r with
    calls := w.calls.set n ⟨settings.callOf c r, someUuid, some .classifying⟩ }
  have hpost : step settings w .runOnce = some (post w r) := by
    simp only [step, hidle, h.pending]
  have hreceive : step settings (post w r) (.receive n r someUuid) = some called := by
    have hguard : r ∈ (post w r).sent ∧ someUuid.version = some 4 ∧
        (post w r).calls.get n = none := ⟨List.mem_cons_self, by decide, hn⟩
    have hdispatch : settings.getDispatch r.envelope.taskId r.envelope.operationId = some c :=
      h.dispatch
    simp only [step, receive, if_neg (not_not_intro hguard), hdispatch,
      openCall_eq h.worker h.bound]
    rfl
  obtain ⟨w', call, hreach, hget, hcall, hstage, hout, hiteration⟩ :=
    h.returns called n someUuid (Dict.get_set_same ..) (by decide) rfl rfl rfl
  have halone : w'.outbox = [r] := hout.trans h.alone
  have henvelope : call.envelope = r.envelope := by rw [hcall]; rfl
  have hcanonical : call.canonicalResult = r.canonical := by rw [hcall]; rfl
  let cleared : World := { w' with outbox := [], iteration := .idle }
  have hack : step settings w' (.acknowledge n) = some cleared := by
    have hposting : w'.iteration = .posting r := hiteration
    simp [step, hposting, hget, acknowledge, hstage, henvelope, hcanonical, halone,
      acknowledgePendingResult, cleared]
  have hpoll : step settings cleared .runOnce = some { cleared with iteration := .polling } := rfl
  have hbefore := (reaches_of_retry rfl hpost).trans (reaches_of_retry rfl hreceive)
  have hafter := (reaches_of_retry rfl hack).trans (reaches_of_retry rfl hpoll)
  exact ⟨_, hbefore.trans (hreach.trans hafter), ⟨n, call, hget, henvelope, hcanonical, hstage⟩,
    List.not_mem_nil, rfl⟩

theorem cleared_of_ready (h : Ready settings w r c) : Cleared settings w r := by
  by_cases hidle : w.iteration = .idle
  · exact cleared_of_idle h hidle
  · have hgive : step settings w .giveUp = some { w with iteration := .idle } := if_neg hidle
    have hready : Ready settings { w with iteration := .idle } r c := { h with }
    obtain ⟨w', hreach, hclear⟩ := cleared_of_idle hready rfl
    exact ⟨w', (reaches_of_retry rfl hgive).trans hreach, hclear⟩

theorem cleared_of_reaches {w₁ : World} (hreach : Runs.Reaches (step settings) retrying w w₁)
    (h : Cleared settings w₁ r) : Cleared settings w r := by
  obtain ⟨w', hreach', hclear⟩ := h
  exact ⟨w', hreach.trans hreach', hclear⟩

theorem cleared_of_tick {now : Int} (hle : w.now ≤ now)
    (h : Cleared settings { w with now := now } r) : Cleared settings w r := by
  have htick : step settings w (.tick now) = some { w with now := now } := if_pos hle
  exact cleared_of_reaches (reaches_of_retry rfl htick) h

/-- The end of whatever lease there is on the application of a key. -/
def leaseEnd (w : World) (key : Key) : Int :=
  match w.guard.applications.get key with
  | some (_, expiry) => expiry
  | none => w.now

/-- At a time after the lease the application is free. -/
theorem free_of_leaseEnd {w₁ : World} {key : Key} (hguard : w₁.guard = w.guard)
    (hnow : leaseEnd w key ≤ w₁.now) : Free w₁ key := by
  intro holder expiry hlease
  rw [hguard] at hlease
  have hend : leaseEnd w key = expiry := by simp [leaseEnd, hlease]
  exact hend ▸ hnow

/-- A settled result is cleared once the lease of its application has ended. -/
theorem cleared_of_settled {w₁ : World} (h : PendingInv settings w r c) (hout : w₁.outbox = [r])
    (hsettled : Settled w₁.repo (settings.callOf c r))
    (hseen : w₁.guard.seen.get (settings.callOf c r).key = some (settings.callOf c r).binding) :
    Cleared settings w₁ r := by
  refine cleared_of_tick (Int.le_max_left w₁.now (leaseEnd w₁ (settings.callOf c r).key))
    (@cleared_of_ready _ _ _ c ?_)
  refine ⟨hout ▸ nextPendingResult_eq h, hout, h.dispatch, h.worker, h.bound, ?_⟩
  intro w₂ n applicationId hget hversion hguard hrepo hnow
  have hfree : Free w₂ (settings.callOf c r).key :=
    free_of_leaseEnd (show w₂.guard = w₁.guard from hguard) (hnow ▸ Int.le_max_right ..)
  exact claimed_returns hget rfl hversion (by rw [hguard]; exact hseen) hfree
    (.inl (by rw [hrepo]; exact hsettled))

/-- A result for which there is time is cleared by a call that begins after any lease. -/
theorem cleared_of_startable (h : PendingInv settings w r c) (hout : w.outbox = [r])
    (hleases : w.guard.seen.get (settings.callOf c r).key = none →
      w.guard.applications.get (settings.callOf c r).key = none)
    (haccepts : Accepts w.repo w.now (settings.callOf c r))
    (hstart : Startable settings w (settings.callOf c r)) : Cleared settings w r := by
  let p := settings.callOf c r
  let t := max w.now (max (r.envelope.completedAt - maxClockSkew) (leaseEnd w p.key))
  have htimely : r.envelope.completedAt ≤ c.operationExpiresAt := h.timely.notLate
  have hage := settings.resultAge.1
  have hend : leaseEnd w p.key ≤ lastStart settings w p := by
    cases hlease : w.guard.applications.get p.key with
    | none => simpa [leaseEnd, hlease] using hstart.now
    | some lease =>
      have hclaimed : w.guard.seen.get p.key ≠ none := by
        intro hnone
        rw [hleases hnone] at hlease
        cases hlease
      have hlast : lastStart settings w p = settings.lastFresh p := if_neg hclaimed
      rw [hlast]
      simpa [leaseEnd, hlease] using hstart.lease lease.1 lease.2 hlease
  have hskew : r.envelope.completedAt - maxClockSkew ≤ lastStart settings w p := by
    unfold lastStart
    split <;>
      simp only [Settings.claimExpiresAt, Settings.lastFresh, p, Settings.callOf, maxClockSkew,
        seconds] at * <;>
      omega
  have ht : t ≤ lastStart settings w p := max_le hstart.now (max_le hskew hend)
  have hfresh : FreshAt settings p t :=
    ⟨h.timely, Int.le_add_of_sub_right_le ((Int.le_max_left ..).trans (Int.le_max_right ..)),
      ht.trans (lastStart_le settings w p)⟩
  have hlater : w.now ≤ t := Int.le_max_left ..
  have hleased : leaseEnd w p.key ≤ t := (Int.le_max_right ..).trans (Int.le_max_right ..)
  refine cleared_of_tick hlater (@cleared_of_ready _ _ _ c ?_)
  refine ⟨hout ▸ nextPendingResult_eq h, hout, h.dispatch, h.worker, h.bound, ?_⟩
  intro w₁ n applicationId hget hversion hguard hrepo hnow
  have hfree : Free w₁ p.key :=
    free_of_leaseEnd (show w₁.guard = w.guard from hguard) (hnow ▸ hleased)
  obtain ⟨op, rc, happ⟩ := haccepts.mono hlater
  have hfinish : Finishable settings w₁ p := by
    refine .inr ⟨op, rc, ?_, hnow ▸ hfresh⟩
    rw [hrepo, hnow]
    exact happ
  obtain hnone | hbound := h.seen
  · have hclaim : w₁.now < settings.claimExpiresAt p := by
      have hlast : lastStart settings w p = settings.claimExpiresAt p - 1 := if_pos hnone
      rw [hlast] at ht
      rw [hnow]
      exact Int.lt_of_le_sub_one ht
    exact unclaimed_returns hget rfl hversion (by rw [hguard]; exact hnone) h.signed hclaim hfree
      (hnow ▸ hfresh) hfinish
  · exact claimed_returns hget rfl hversion (by rw [hguard]; exact hbound) hfree hfinish

/-- A call of the result that is under way settles it. -/
theorem settles_of_underWay (h : PendingInv settings w r c) {n : Nat} {call : Delivery}
    (hget : w.calls.get n = some call) (hcall : call.toCompleteCall = settings.callOf c r)
    (haccepts : Accepts w.repo w.now (settings.callOf c r))
    (hway : UnderWay settings (settings.callOf c r) w.now call.stage) :
    ReachesMarking settings w n call ∧
      w.guard.seen.get (settings.callOf c r).key = some (settings.callOf c r).binding := by
  have hown := h.calls n call hget (by rw [hcall])
  obtain ⟨op, rc, happ⟩ := haccepts
  rw [← hcall] at happ
  unfold UnderWay at hway
  split at hway
  · next hstage =>
    have hbound := hown.accepted _ hstage rfl
    refine ⟨needing_reaches_marking hget hstage happ ?_, hbound⟩
    rw [hcall]
    exact ⟨h.timely, h.begun hbound, hway⟩
  · next hstage =>
    have hbound := hown.accepted _ hstage rfl
    refine ⟨rechecking_reaches_marking hget hstage happ ?_, hbound⟩
    rw [hcall]
    exact ⟨h.timely, h.begun hbound, hway⟩
  · next retried hstage =>
    refine ⟨preparing_reaches_marking hget hstage happ ?_, hown.accepted _ hstage rfl⟩
    rw [hcall]
    exact hway
  · next retried rc' hstage =>
    have hstored : w.repo.operations.get (settings.callOf c r).correlation.operationId = some op :=
      hcall ▸ happ.stored
    have hasked := hown.asked retried rc' hstage op hstored
    rw [← hcall] at hasked
    obtain rfl := hasked.unique (prepareResult_asked happ.prepared)
    refine ⟨calling_reaches_marking hget hstage happ ?_, hown.accepted _ hstage rfl⟩
    rw [hcall]
    exact hway
  · exact hway.elim

/-- In a run whose steps keep to the conditions, the retries of the worker clear whatever result is
pending. -/
theorem pending_cleared {now : Int} {repo : InMemoryGatewayRepository}
    (hreach : Runs.Reaches (step settings) (Allowed settings) (start now repo) w)
    (hpending : nextPendingResult settings.worker w.outbox = some r) : Cleared settings w r := by
  have hi := inv_of_reaches hreach
  obtain hempty | ⟨r', c, hout, _, hp⟩ := hi.outbox
  · simp [hempty, nextPendingResult] at hpending
  · rw [hout, nextPendingResult_eq hp] at hpending
    obtain rfl := Option.some.inj hpending
    obtain ⟨haccepts, hstart | ⟨n, call, hget, hcall, hway⟩⟩ | ⟨hsettled, hseen⟩ := hp.viable
    · exact cleared_of_startable hp hout (hi.leases _) haccepts hstart
    · obtain ⟨⟨repo', calls, hmarking, _, hsettled⟩, hseen⟩ :=
        settles_of_underWay hp hget hcall haccepts hway
      exact cleared_of_reaches hmarking
        (cleared_of_settled hp hout (show Settled repo' _ from hcall ▸ hsettled) hseen)
    · exact cleared_of_settled hp hout hsettled hseen

end Cleared

section Stale

variable {settings : Settings} {w w' : World} {r : SignedResult} {c : DispatchCorrelation}

/-- A stage that a call comes to when its result is stale and unclaimed. -/
def Unheard : Option Stage → Prop
  | none | some .classifying | some .readingClock | some (.returned (.error _)) => True
  | _ => False

/-- The pending result is the only one ever sent, and it was not claimed before it was stale. -/
structure Stale (settings : Settings) (w : World) (r : SignedResult) (c : DispatchCorrelation) :
    Prop where
  alone : w.outbox = [r]
  waiting : w.iteration ≠ .polling
  mine : nextPendingResult settings.worker [r] = some r
  dispatch : settings.dispatchOf r = some c
  sole : ∀ r' ∈ w.sent, r' = r
  unclaimed : w.guard.seen.get (settings.callOf c r).key = none
  late : r.envelope.completedAt + settings.maxResultAge < w.now
  calls : ∀ n call, w.calls.get n = some call → call.toCompleteCall = settings.callOf c r ∧
    Unheard call.stage

/-- A step of the runner leaves a stale result where it is. -/
theorem stale_runner (h : Stale settings w r c) {sent : List SignedResult} {iteration : Iteration}
    (hiteration : iteration ≠ .polling) (hsent : ∀ r' ∈ sent, r' ∈ w.sent ∨ r' = r) :
    Stale settings { w with sent := sent, iteration := iteration } r c :=
  { h with
    waiting := hiteration
    sole := fun r' hr' => (hsent r' hr').elim (h.sole r') id }

theorem whenFresh_late (h : Stale settings w r c) (next : Stage) :
    whenFresh settings.maxResultAge (settings.callOf c r) (.aware w.now) next =
      fail "result_stale" := by
  have hlate := h.late
  have hnot : ¬(c.issuedAt - maxClockSkew ≤ r.envelope.completedAt ∧
      r.envelope.completedAt ≤ c.operationExpiresAt ∧ w.now < c.operationExpiresAt ∧
      r.envelope.completedAt ≤ w.now + maxClockSkew ∧
      w.now - r.envelope.completedAt ≤ settings.maxResultAge) := by omega
  have hstale : requireFreshCompletion settings.maxResultAge r.envelope c w.now =
      .error "result_stale" := if_neg hnot
  simp only [whenFresh, Datetime.utc, Settings.callOf, hstale]

theorem stale_proceed (h : Stale settings w r c) {n : Nat} {call : Delivery}
    (hget : w.calls.get n = some call) (hproceed : proceed settings w n call = some w') :
    Stale settings w' r c := by
  obtain ⟨stage, reply, w₁, next, hstage, hask, hadvance, rfl⟩ := proceed_cases hproceed
  obtain ⟨hcall, hunheard⟩ := h.calls n call hget
  have hkey : call.key = (settings.callOf c r).key := by rw [hcall]
  -- only the classification and the clock are ever asked
  have hnext : w₁ = w ∧ Unheard (some next) := by
    rw [hstage] at hunheard
    cases stage with
    | classifying =>
      obtain ⟨hreply, rfl⟩ := Prod.mk.inj (Option.some.inj hask)
      have hunseen : w.guard.classify call.key call.binding = .unseen := by
        simp [InMemoryResultReplayGuard.classify, hkey, h.unclaimed]
      rw [← hreply, hunseen] at hadvance
      obtain rfl := Option.some.inj hadvance
      exact ⟨rfl, trivial⟩
    | readingClock =>
      obtain ⟨hreply, rfl⟩ := Prod.mk.inj (Option.some.inj hask)
      rw [← hreply, advance, hcall, whenFresh_late h] at hadvance
      obtain rfl := Option.some.inj hadvance
      exact ⟨rfl, trivial⟩
    | returned result => cases hask
    | _ => exact hunheard.elim
  obtain ⟨rfl, hnext⟩ := hnext
  exact { h with calls := Dict.forall_set h.calls ⟨hcall, hnext⟩ }

/-- Whatever happens, a stale result stays. -/
theorem stale_step {e : Event} (h : Stale settings w r c) (hstep : step settings w e = some w') :
    Stale settings w' r c := by
  cases e with
  | tick now =>
    simp only [step] at hstep
    split at hstep
    · next hle =>
      obtain rfl := Option.some.inj hstep
      exact { h with late := h.late.trans_le hle }
    · cases hstep
  | elsewhere repo =>
    obtain rfl := Option.some.inj hstep
    exact { h with }
  | runOnce =>
    simp only [step, h.alone, h.mine] at hstep
    split at hstep
    · next hnext =>
      obtain rfl := Option.some.inj hnext
      obtain rfl := Option.some.inj hstep
      exact stale_runner h (by simp) fun r' hr' => (List.mem_cons.1 hr').symm
    · next hnext => cases hnext
    · cases hstep
  | nothing => simp [step, h.waiting] at hstep
  | save result => simp [step, h.waiting] at hstep
  | giveUp =>
    simp only [step] at hstep
    split at hstep
    · cases hstep
    · obtain rfl := Option.some.inj hstep
      exact stale_runner h (by simp) fun _ hr' => .inl hr'
  | receive n result applicationId =>
    obtain ⟨hsent, _, _, rfl | ⟨c', hc', rfl⟩⟩ := receive_cases hstep
    · exact h
    · obtain rfl := h.sole result hsent
      obtain rfl := Option.some.inj (hc'.symm.trans h.dispatch)
      exact { h with calls := Dict.forall_set h.calls ⟨rfl, trivial⟩ }
  | proceed n =>
    simp only [step] at hstep
    split at hstep
    · cases hstep
    · next call hget => exact stale_proceed h hget hstep
  | abandon n =>
    simp only [step] at hstep
    split at hstep
    · cases hstep
    · next call hget =>
      obtain rfl := Option.some.inj hstep
      exact { h with calls := Dict.forall_set h.calls ⟨(h.calls n call hget).1, trivial⟩ }
  | acknowledge n =>
    simp only [step] at hstep
    split at hstep
    · next result call _ hget =>
      have hunheard := (h.calls n call hget).2
      unfold acknowledge at hstep
      split at hstep
      · next hstage =>
        rw [hstage] at hunheard
        exact hunheard.elim
      · cases hstep
    · cases hstep

/-- No run brings a stale result through, removes it or lets the worker poll. -/
theorem stale_forever (h : Stale settings w r c)
    (hreach : Runs.Reaches (step settings) Runs.anyEvent w w') :
    ¬(Acknowledged w' r ∨ r ∉ w'.outbox ∨ w'.iteration = .polling) := by
  have hstale : Stale settings w' r c :=
    @Runs.invariant_of_reaches _ _ _ _ (fun w => Stale settings w r c) _ _ h
      (fun _ _ _ hs _ hstep => stale_step hs hstep) hreach
  rintro (⟨n, call, hget, _, _, hstage⟩ | hout | hiteration)
  · have hunheard := (hstale.calls n call hget).2
    rw [hstage] at hunheard
    exact hunheard
  · exact hout (by simp [hstale.alone])
  · exact hstale.waiting hiteration

end Stale

/-- A gateway that takes results for a minute, and every signature. -/
def minuteSettings : Settings where
  worker := workerContext
  getDispatch taskId operationId :=
    if taskId = listingCorrelation.taskId ∧ operationId = listingCorrelation.operationId then
      some listingCorrelation
    else none
  sha256 := failedDigest
  verifyWorkerSignature _ _ _ := true
  maxResultAge := seconds 60
  resultAge := by decide

def failedResult : SignedResult := ⟨failedEnvelope, failedCanonical⟩

/-- A worker that has stored and posted its result. -/
def postedWorld : World :=
  ⟨60000000, emptyGuard true, runningRepository, .empty, [failedResult], [failedResult],
    .posting failedResult⟩

/-- The request was lost, and a minute has passed. -/
def lostWorld : World := { postedWorld with now := 121000000, iteration := .idle }

theorem failedResult_applicable : Applicable runningRepository 60000000
    (minuteSettings.callOf listingCorrelation failedResult) runningOperation
    (.finishOperation .failed .workerFailure) where
  stored := rfl
  valid := by decide
  onClock := ⟨by decide, by decide⟩
  expiry := rfl
  needs := rfl
  prepared := rfl
  accepted _ _ _ h := by cases h

theorem failedResult_savable : Savable minuteSettings
    { start 60000000 runningRepository with iteration := .polling } failedResult
    listingCorrelation where
  dispatch := rfl
  worker := rfl
  bound := rfl
  signed := rfl
  timely := ⟨by decide, by decide⟩
  unclaimed := rfl
  unused _ h := by cases h
  accepts := ⟨_, _, failedResult_applicable⟩
  inTime := by decide

theorem pending_cleared_posted : Cleared minuteSettings postedWorld failedResult := by
  have hpolling : Runs.Reaches (step minuteSettings) (Allowed minuteSettings)
      (start 60000000 runningRepository)
      { start 60000000 runningRepository with iteration := .polling } :=
    @Runs.Reaches.single _ _ _ _ _ _ .runOnce trivial rfl
  have hsaving : Allowed minuteSettings
      { start 60000000 runningRepository with iteration := .polling } (.save failedResult) :=
    fun _ => ⟨listingCorrelation, failedResult_savable⟩
  exact pending_cleared (hpolling.tail hsaving rfl) rfl

theorem lostWorld_stale :
    Stale minuteSettings lostWorld failedResult listingCorrelation where
  alone := rfl
  waiting := by simp [lostWorld]
  mine := rfl
  dispatch := rfl
  sole _ h := List.mem_singleton.1 h
  unclaimed := rfl
  late := by decide
  calls _ _ h := by cases h

/-- A result whose requests are lost until it is stale is tried forever, and nothing else is. -/
theorem lost_result_stuck : ¬∀ w, Runs.Reaches (step minuteSettings) Runs.anyEvent
    (start 60000000 runningRepository) w → ∀ r,
    nextPendingResult minuteSettings.worker w.outbox = some r →
      ∃ w', Runs.Reaches (step minuteSettings) Runs.anyEvent w w' ∧
        (Acknowledged w' r ∨ r ∉ w'.outbox ∨ w'.iteration = .polling) := by
  intro h
  have hrun : Runs.run (step minuteSettings) (start 60000000 runningRepository)
      [.runOnce, .save failedResult, .giveUp, .tick 121000000] = some lostWorld := rfl
  obtain ⟨w', hreach, hfreed⟩ := h lostWorld (Runs.reaches_of_run (Runs.along_anyEvent ..) hrun)
    failedResult rfl
  exact stale_forever lostWorld_stale hreach hfreed

end CadPlot.Worker
