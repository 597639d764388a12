import CadPlot.Gateway.IngressStores
import CadPlot.Gateway.Lifecycle
import CadPlot.Lib.Text

/-!
# What is applied was signed

Every binding of the guard hashes bytes whose signature was accepted for the
device of its key. A call that goes on from an exact match has the hash of such
bytes, and hence, as no two hashed strings collide, the bytes themselves.
-/

namespace CadPlot.Gateway.Ingress

open Replay Service

/-- The stages of a call whose result the guard has accepted. -/
def Stage.accepted : Stage → Bool
  | .acquiring | .needing | .rechecking | .preparing _ | .calling _ _ | .marking => true
  | .returned (.ok ()) => true
  | _ => false

section Advance

variable {maxResultAge : Int} {call : CompleteCall} {stage next : Stage} {reply : Reply}

theorem whenFresh_cases (now : Datetime) (next : Stage) :
    whenFresh maxResultAge call now next = next ∨
      ∃ code, whenFresh maxResultAge call now next = fail code := by
  unfold whenFresh
  split
  · exact .inr ⟨_, rfl⟩
  · split
    · exact .inl rfl
    · exact .inr ⟨_, rfl⟩

theorem afterFailure_cases (retried isFailure : Bool) (error : ServiceError) :
    afterFailure retried isFailure error = .preparing true ∨
      afterFailure retried isFailure error = .returned (.error (.service error)) := by
  unfold afterFailure
  split
  · exact .inl rfl
  · exact .inr rfl

/-- A call is accepted by a match of the guard, or was before. -/
theorem advance_accepted (h : advance maxResultAge call stage reply = some next)
    (hnext : next.accepted = true) : stage.accepted = true ∨
      (stage = .classifying ∧ reply = .classification (some .exactMatch)) ∨
      (stage = .claiming ∧ ∃ answer, reply = .classification (some answer) ∧
        (answer = .exactMatch ∨ answer = .firstSeen)) := by
  cases stage with
  | classifying =>
    cases reply with
    | classification answer =>
      refine .inr (.inl ⟨rfl, ?_⟩)
      rcases answer with _ | ⟨_ | _ | _ | _⟩ <;> simp [advance] at h <;> subst h <;>
        first | rfl | cases hnext
    | _ => simp [advance] at h
  | readingClock =>
    cases reply with
    | clock now =>
      obtain rfl := Option.some.inj h
      rcases whenFresh_cases now .verifying with heq | ⟨code, heq⟩ <;>
        rw [heq] at hnext <;> cases hnext
    | _ => simp [advance] at h
  | verifying =>
    cases reply with
    | signature valid =>
      rcases valid with _ | ⟨_ | _⟩ <;> simp [advance] at h <;> subst h <;> cases hnext
    | _ => simp [advance] at h
  | claiming =>
    cases reply with
    | classification answer =>
      refine .inr (.inr ⟨rfl, ?_⟩)
      rcases answer with _ | ⟨_ | _ | _ | _⟩ <;> simp [advance] at h <;> subst h <;>
        first | exact ⟨_, rfl, .inl rfl⟩ | exact ⟨_, rfl, .inr rfl⟩ | cases hnext
    | _ => simp [advance] at h
  | returned result => cases reply <;> simp [advance] at h
  | _ => exact .inl rfl

/-- What has gone before when a call has its signature verified, claims or calls the repository. -/
def Entered (maxResultAge : Int) (call : CompleteCall) (stage : Stage) (reply : Reply) :
    Stage → Prop
  | .verifying => ∃ now, reply = .clock now ∧ stage = .readingClock ∧
      whenFresh maxResultAge call now .verifying = .verifying
  | .claiming => stage = .verifying ∧ reply = .signature (some true)
  | .calling retried repositoryCall => ∃ catalog operation, stage = .preparing retried ∧
      reply = .reads catalog operation ∧
      prepareResult call catalog operation = .ok (some repositoryCall)
  | _ => True

theorem advance_entered (h : advance maxResultAge call stage reply = some next) :
    Entered maxResultAge call stage reply next := by
  have hretry : ∀ retried isFailure error,
      Entered maxResultAge call stage reply (afterFailure retried isFailure error) := by
    intro retried isFailure error
    rcases afterFailure_cases retried isFailure error with hcase | hcase <;>
      rw [hcase] <;> trivial
  cases stage with
  | verifying =>
    cases reply with
    | signature valid =>
      rcases valid with _ | ⟨_ | _⟩ <;> obtain rfl := Option.some.inj h
      · trivial
      · trivial
      · exact ⟨rfl, rfl⟩
    | _ => cases h
  | classifying =>
    cases reply with
    | classification answer =>
      rcases answer with _ | ⟨_ | _ | _ | _⟩ <;> obtain rfl := Option.some.inj h <;> trivial
    | _ => cases h
  | claiming =>
    cases reply with
    | classification answer =>
      rcases answer with _ | ⟨_ | _ | _ | _⟩ <;> obtain rfl := Option.some.inj h <;> trivial
    | _ => cases h
  | acquiring =>
    cases reply with
    | application status =>
      rcases status with _ | ⟨_ | _ | _ | _⟩ <;> obtain rfl := Option.some.inj h <;> trivial
    | _ => cases h
  | readingClock =>
    cases reply with
    | clock now =>
      obtain rfl := Option.some.inj h
      obtain hsame | ⟨code, hfail⟩ := @whenFresh_cases maxResultAge call now .verifying
      · rw [hsame]
        exact ⟨now, rfl, rfl, hsame⟩
      · rw [hfail]
        trivial
    | _ => cases h
  | rechecking =>
    cases reply with
    | clock now =>
      obtain rfl := Option.some.inj h
      obtain hsame | ⟨code, hfail⟩ := @whenFresh_cases maxResultAge call now (.preparing false)
      · rw [hsame]
        trivial
      · rw [hfail]
        trivial
    | _ => cases h
  | needing =>
    cases reply with
    | reads catalog operation =>
      simp only [advance] at h
      split at h <;> obtain rfl := Option.some.inj h <;> trivial
    | raised error => exact Option.some.inj h ▸ trivial
    | _ => cases h
  | preparing retried =>
    cases reply with
    | reads catalog operation =>
      simp only [advance] at h
      split at h
      · exact Option.some.inj h ▸ hretry _ _ _
      · exact Option.some.inj h ▸ trivial
      · exact Option.some.inj h ▸ trivial
      · next hprepare => exact Option.some.inj h ▸ ⟨catalog, operation, rfl, rfl, hprepare⟩
    | raised error => exact Option.some.inj h ▸ trivial
    | _ => cases h
  | calling retried repositoryCall =>
    cases reply with
    | repository outcome =>
      simp only [advance] at h
      split at h
      · exact Option.some.inj h ▸ trivial
      · exact Option.some.inj h ▸ hretry _ _ _
    | clock now =>
      simp only [advance] at h
      split at h
      · exact Option.some.inj h ▸ trivial
      · cases h
    | _ => cases h
  | marking =>
    cases reply with
    | marked applied =>
      rcases applied with _ | ⟨_ | _⟩ <;> obtain rfl := Option.some.inj h <;> trivial
    | _ => cases h
  | returned result => cases reply <;> cases h

end Advance

/-- No two of the strings hashed so far have one digest. -/
def CollisionFree (sha256 : List UInt8 → Sha256Hex) (hashed : List (List UInt8)) : Prop :=
  ∀ x ∈ hashed, ∀ y ∈ hashed, sha256 x = sha256 y → x = y

theorem safe_char_lt {c : Char} (h : (c.isAlphanum || c == '_' || c == '-') = true) :
    c.toNat < 256 := by
  simp only [Bool.or_eq_true, beq_iff_eq] at h
  obtain (h | rfl) | rfl := h
  · have hrange := Text.isAlphanum_cases h
    omega
  · decide
  · decide

/-- The characters of a signature are read back from its bytes. -/
theorem decode_encode (s : Signature) :
    s.encode.map (fun b => Char.ofNat b.toNat) = s.chars := by
  rw [Signature.encode, List.map_map]
  refine (List.map_congr_left fun c hc => ?_).trans (List.map_id _)
  have hlt := safe_char_lt (List.all_eq_true.1 s.safe c hc)
  have hmod : c.toNat % 256 = c.toNat := Nat.mod_eq_of_lt hlt
  simp only [Function.comp_apply, id_eq, UInt32.toNat_toUInt8]
  change Char.ofNat (c.toNat % 256) = c
  rw [hmod, Char.ofNat_toNat]

/-- The signature of a signed result is its last 86 bytes. -/
theorem signedBytes_inj {c c' : List UInt8} {s s' : Signature}
    (h : signedBytes c s = signedBytes c' s') : c = c' ∧ s = s' := by
  have hlen : s.encode.length = s'.encode.length := by
    simp [Signature.encode, s.length, s'.length]
  obtain ⟨hc, hs⟩ := List.append_inj' h (by simp [hlen])
  refine ⟨hc, ?_⟩
  have hencode : s.encode = s'.encode := (List.cons.inj hs).2
  have hchars : s.chars = s'.chars := by
    rw [← decode_encode s, ← decode_encode s', hencode]
  cases s
  cases s'
  cases hchars
  rfl

section Runs

variable {R π : Type} {api : RepositoryApi R} {sha256 : List UInt8 → Sha256Hex}
  {parseResultPayload : π → Option (WorkerResultEnvelope × List UInt8)} {maxResultAge : Int}
  {w w' : World R} {n : Nat} {call : OpenedCall}

/-- What a call is bound to: its worker, and all that its result names of the correlation. -/
structure Bound (call : CompleteCall) : Prop where
  workerTenant : call.worker.tenantId = call.correlation.tenantId
  workerDevice : call.worker.workstationId = call.correlation.deviceId
  tenant : call.envelope.tenantId = call.correlation.tenantId
  user : call.envelope.userId = call.correlation.userId
  device : call.envelope.deviceId = call.correlation.deviceId
  task : call.envelope.taskId = call.correlation.taskId
  operation : call.envelope.operationId = call.correlation.operationId
  command : call.envelope.commandId = call.correlation.commandId
  action : call.envelope.result.action = call.correlation.command.action

/-- What holds of a call in progress. -/
structure CallInv (sha256 : List UInt8 → Sha256Hex) (w : World R) (call : OpenedCall) : Prop where
  bound : Bound call.toCompleteCall
  digest : call.resultSha256 = sha256 (call.bytes)
  hashed : call.bytes ∈ w.hashed
  verified : call.stage = .claiming → call.triple ∈ w.verified
  accepted : call.stage.accepted = true →
    call.triple ∈ w.verified ∧ w.seen call.key = some call.binding
  prepared : ∀ retried repositoryCall, call.stage = .calling retried repositoryCall →
    ∃ catalog operation,
      prepareResult call.toCompleteCall catalog operation = .ok (some repositoryCall)

structure Inv (sha256 : List UInt8 → Sha256Hex) (w : World R) : Prop where
  seen : ∀ key value, w.seen key = some value → ∃ canonical signature,
    (key.deviceId, canonical, signature) ∈ w.verified ∧
      value.resultSha256 = sha256 (signedBytes canonical signature) ∧
      signedBytes canonical signature ∈ w.hashed
  calls : ∀ n call, w.calls.get n = some call → CallInv sha256 w call

/-- More is verified, hashed and bound. -/
structure Grows (w w' : World R) : Prop where
  verified : ∀ x ∈ w.verified, x ∈ w'.verified
  hashed : ∀ x ∈ w.hashed, x ∈ w'.hashed
  seen : ∀ key value, w.seen key = some value → w'.seen key = some value

theorem CallInv.mono (h : CallInv sha256 w call) (hgrows : Grows w w') :
    CallInv sha256 w' call where
  bound := h.bound
  digest := h.digest
  hashed := hgrows.hashed _ h.hashed
  verified hs := hgrows.verified _ (h.verified hs)
  accepted hs := ⟨hgrows.verified _ (h.accepted hs).1, hgrows.seen _ _ (h.accepted hs).2⟩
  prepared := h.prepared

theorem openCall_spec {worker : WorkerContext} {correlation : DispatchCorrelation} {payload : π}
    {call : CompleteCall} (h : openCall parseResultPayload sha256 worker
      correlation payload = .ok call) :
    Bound call ∧ call.resultSha256 = sha256 (call.bytes) := by
  unfold openCall at h
  split at h
  · cases h
  · next hworker =>
    split at h
    · cases h
    · next envelope _ =>
      split at h
      · cases h
      · next hbinding =>
        obtain rfl := Except.ok.inj h
        simp only [requireWorkerContext, require_eq_ok] at hworker
        simp only [requireResultBinding, require_bind_eq_ok, require_eq_ok] at hbinding
        obtain ⟨⟨h1, h2, h3, h4, h5, h6, h7⟩, _⟩ := hbinding
        exact ⟨⟨hworker.1, hworker.2, h1, h2, h3, h4, h5, h6, h7⟩, rfl⟩

/-- An exact match has the hash of bytes that were verified for the device, so it has the bytes. -/
theorem verified_of_match (hi : Inv sha256 w)
    (hcall : CallInv sha256 w call) (hfree : CollisionFree sha256 w.hashed)
    (hseen : w.seen call.key = some call.binding) :
    call.triple ∈ w.verified := by
  obtain ⟨canonical, signature, hverified, hsha, hhashed⟩ := hi.seen _ _ hseen
  have hsame : sha256 (call.bytes) = sha256 (signedBytes canonical signature) :=
    hcall.digest.symm.trans hsha
  obtain ⟨hc, hs⟩ := signedBytes_inj (hfree _ hcall.hashed _ hhashed hsame)
  rw [CompleteCall.triple, hc, hs]
  exact hverified

/-- A call moves on in a world that has grown by what its new stage needs. -/
theorem inv_of_grows (hi : Inv sha256 w) (hget : w.calls.get n = some call)
    {next : Stage} {reply : Reply}
    (hadvance : advance maxResultAge call.toCompleteCall call.stage reply = some next)
    (hgrows : Grows w w') (hcalls : w'.calls = w.calls.set n { call with stage := next })
    (hseen : ∀ key value, w'.seen key = some value → w.seen key = some value ∨
      key = call.key ∧ value = call.binding ∧ call.triple ∈ w'.verified)
    (hverified : next = .claiming → call.triple ∈ w'.verified)
    (haccepted : next.accepted = true →
      call.triple ∈ w'.verified ∧ w'.seen call.key = some call.binding) :
    Inv sha256 w' where
  seen key value hk := by
    have hcall := hi.calls n call hget
    rcases hseen key value hk with hold | ⟨rfl, rfl, hverified⟩
    · obtain ⟨c, s, hv, hsha, hh⟩ := hi.seen key value hold
      exact ⟨c, s, hgrows.verified _ hv, hsha, hgrows.hashed _ hh⟩
    · exact ⟨_, _, hverified, hcall.digest, hgrows.hashed _ hcall.hashed⟩
  calls := by
    have hcall := (hi.calls n call hget).mono hgrows
    rw [hcalls]
    refine Dict.forall_set (fun m c hc => (hi.calls m c hc).mono hgrows)
      ⟨hcall.bound, hcall.digest, hcall.hashed, hverified, haccepted, fun retried rc hnext => ?_⟩
    obtain rfl : next = .calling retried rc := hnext
    obtain ⟨catalog, operation, _, _, hprepare⟩ := advance_entered hadvance
    exact ⟨catalog, operation, hprepare⟩

/-- What an answer does: an exact match is of what is bound, and a valid signature is recorded. -/
theorem answer_cases {reply : Reply}
    (hstep : answer maxResultAge w n call reply = some w') :
    ∃ next, advance maxResultAge call.toCompleteCall call.stage reply = some next ∧
      call.stage ≠ .claiming ∧
      ((call.stage = .classifying ∧ reply = .classification (some .exactMatch) ∧
          w.seen call.key = some call.binding ∧ w' = w.goto n call next) ∨
        (call.stage = .verifying ∧ reply = .signature (some true) ∧
          w' = { w.goto n call next with
            verified := call.triple :: w.verified }) ∨
        (¬(call.stage = .classifying ∧ reply = .classification (some .exactMatch)) ∧
          ¬(call.stage = .verifying ∧ reply = .signature (some true)) ∧
          w' = w.goto n call next)) := by
  unfold answer at hstep
  split at hstep
  · cases hstep
  · cases hstep
  · next stage reply hclaiming _ =>
    split at hstep
    · cases hstep
    · next next hadvance =>
      refine ⟨next, hadvance, hclaiming, ?_⟩
      split at hstep
      · next hstage _ =>
        split at hstep
        · next hseen => exact .inl ⟨hstage, rfl, hseen, (Option.some.inj hstep).symm⟩
        · cases hstep
      · next hstage _ => exact .inr (.inl ⟨hstage, rfl, (Option.some.inj hstep).symm⟩)
      · next hmatch hsignature _ =>
        exact .inr (.inr ⟨fun h => hmatch h.1 h.2, fun h => hsignature h.1 h.2,
          (Option.some.inj hstep).symm⟩)

theorem claim_cases {given : Option ResultReplayClassification} {bound : Bool}
    (hstep : claim maxResultAge w n call given bound = some w') :
    ∃ seen next, call.stage = .claiming ∧
      claimEffect w.seen call.key call.binding given bound = some seen ∧
      advance maxResultAge call.toCompleteCall call.stage (.classification given) = some next ∧
      w' = { w.goto n call next with seen := seen } := by
  unfold claim at hstep
  split at hstep
  · next hstage =>
    split at hstep
    · next seen next heffect hadvance =>
      exact ⟨seen, next, hstage, heffect, hstage ▸ hadvance, (Option.some.inj hstep).symm⟩
    · cases hstep
  · cases hstep

/-- A call of the repository leaves it alone or changes it as the call does, and is answered. -/
theorem repository_cases {now : Int} {fault : Option Fault}
    (hstep : repository api maxResultAge w n call now fault = some w') :
    ∃ retried repositoryCall next reply repo,
      call.stage = .calling retried repositoryCall ∧
      advance maxResultAge call.toCompleteCall call.stage reply = some next ∧
      (repo = w.repo ∨ repo = (api.run repositoryCall call.correlation.operationId call.worker now
        w.repo).2) ∧
      w' = { w.goto n call next with repo := repo } := by
  unfold repository at hstep
  split at hstep
  · next retried repositoryCall hstage =>
    simp only at hstep
    split at hstep
    · cases hstep
    · next next hadvance =>
      refine ⟨retried, repositoryCall, next, _, _, hstage, hstage ▸ hadvance, ?_,
        (Option.some.inj hstep).symm⟩
      cases fault with
      | none => exact .inr rfl
      | some fault =>
        cases fault with
        | before error => exact .inl rfl
        | after error => exact .inr rfl
  · cases hstep

theorem complete_cases {worker : WorkerContext} {correlation : DispatchCorrelation} {payload : π}
    (hstep : complete sha256 parseResultPayload w n worker correlation
      payload = some w') :
    w' = w ∨ ∃ call, openCall parseResultPayload sha256 worker correlation
      payload = .ok call ∧ w' = { w with
        hashed := call.bytes :: w.hashed
        calls := w.calls.set n ⟨call, .classifying⟩ } := by
  unfold complete at hstep
  split at hstep
  · cases hstep
  · split at hstep
    · exact .inl (Option.some.inj hstep).symm
    · next call hopen => exact .inr ⟨call, hopen, (Option.some.inj hstep).symm⟩

theorem complete_inv (hi : Inv sha256 w) {worker : WorkerContext}
    {correlation : DispatchCorrelation} {payload : π}
    (hstep : complete sha256 parseResultPayload w n worker correlation
      payload = some w') : Inv sha256 w' := by
  obtain rfl | ⟨call, hopen, rfl⟩ := complete_cases hstep
  · exact hi
  · obtain ⟨hbound, hdigest⟩ := openCall_spec hopen
    refine ⟨fun key value hseen => ?_, Dict.forall_set (fun m c hc => (hi.calls m c hc).mono ?_) ?_⟩
    · obtain ⟨c, s, hv, hsha, hh⟩ := hi.seen key value hseen
      exact ⟨c, s, hv, hsha, List.mem_cons_of_mem _ hh⟩
    · exact ⟨fun _ hx => hx, fun _ hx => List.mem_cons_of_mem _ hx, fun _ _ hk => hk⟩
    · exact ⟨hbound, hdigest, List.mem_cons_self, by simp, by simp [Stage.accepted], by simp⟩

theorem answer_inv (hi : Inv sha256 w) (hget : w.calls.get n = some call)
    (hfree : CollisionFree sha256 w.hashed) {reply : Reply}
    (hstep : answer maxResultAge w n call reply = some w') :
    Inv sha256 w' := by
  have hcall := hi.calls n call hget
  obtain ⟨next, hadvance, hclaiming, hcases⟩ := answer_cases hstep
  have hsame : Grows w (w.goto n call next) :=
    ⟨fun _ hx => hx, fun _ hx => hx, fun _ _ hk => hk⟩
  obtain ⟨hstage, rfl, hseen, rfl⟩ | ⟨hstage, rfl, rfl⟩ | ⟨hmatch, hsignature, rfl⟩ := hcases
  · have hverified := verified_of_match hi hcall hfree hseen
    exact inv_of_grows hi hget hadvance hsame rfl (fun _ _ hk => .inl hk) (fun _ => hverified)
      fun _ => ⟨hverified, hseen⟩
  · have hgrows : Grows w { w.goto n call next with
        verified := call.triple :: w.verified } :=
      ⟨fun _ hx => List.mem_cons_of_mem _ hx, fun _ hx => hx, fun _ _ hk => hk⟩
    refine inv_of_grows hi hget hadvance hgrows rfl (fun _ _ hk => .inl hk)
      (fun _ => List.mem_cons_self) fun hnext => ?_
    rw [hstage] at hadvance
    obtain rfl := Option.some.inj hadvance
    cases hnext
  · refine inv_of_grows hi hget hadvance hsame rfl (fun _ _ hk => .inl hk) (fun hnext => ?_)
      fun hnext => ?_
    · obtain rfl : next = .claiming := hnext
      exact (hsignature (advance_entered hadvance)).elim
    · rcases advance_accepted hadvance hnext with hacc | hmatched | ⟨hs, _⟩
      · exact hcall.accepted hacc
      · exact (hmatch hmatched).elim
      · exact (hclaiming hs).elim

/-- A claim that is answered or raises binds its own value to its own key, or nothing. -/
theorem claimEffect_spec {β : Type} [DecidableEq β] {seen seen' : Key → Option β} {key : Key}
    {value : β} {given : Option ResultReplayClassification} {bound : Bool}
    (h : claimEffect seen key value given bound = some seen') :
    (∀ k v, seen k = some v → seen' k = some v) ∧
      (∀ k v, seen' k = some v → seen k = some v ∨ k = key ∧ v = value) ∧
      (given = some .exactMatch ∨ given = some .firstSeen → seen' key = some value) := by
  have hupdate : seen key = none →
      (∀ k v, seen k = some v → Function.update seen key (some value) k = some v) ∧
        (∀ k v, Function.update seen key (some value) k = some v →
          seen k = some v ∨ k = key ∧ v = value) := by
    intro hnone
    constructor
    · intro k v hk
      have hne : k ≠ key := by
        rintro rfl
        rw [hnone] at hk
        cases hk
      rw [Function.update_of_ne hne]
      exact hk
    · intro k v hk
      by_cases heq : k = key
      · subst heq
        rw [Function.update_self] at hk
        exact .inr ⟨rfl, (Option.some.inj hk).symm⟩
      · rw [Function.update_of_ne heq] at hk
        exact .inl hk
  unfold claimEffect at h
  split at h
  · split at h
    · next hnone =>
      obtain rfl := Option.some.inj h
      exact ⟨(hupdate hnone).1, (hupdate hnone).2, fun _ => Function.update_self ..⟩
    · cases h
  · split at h
    · next hsome =>
      obtain rfl := Option.some.inj h
      exact ⟨fun _ _ hk => hk, fun _ _ hk => .inl hk, fun _ => hsome⟩
    · cases h
  · next hfirst hexact =>
    obtain rfl := Option.some.inj h
    refine ⟨fun _ _ hk => hk, fun _ _ hk => .inl hk, ?_⟩
    rintro (heq | heq)
    · exact (hexact (Option.some.inj heq)).elim
    · exact (hfirst (Option.some.inj heq)).elim
  · split at h
    · next hnone =>
      obtain rfl := Option.some.inj h
      exact ⟨(hupdate hnone.2).1, (hupdate hnone.2).2, by simp⟩
    · obtain rfl := Option.some.inj h
      exact ⟨fun _ _ hk => hk, fun _ _ hk => .inl hk, by simp⟩

theorem claim_inv (hi : Inv sha256 w) (hget : w.calls.get n = some call)
    {given : Option ResultReplayClassification} {bound : Bool}
    (hstep : claim maxResultAge w n call given bound = some w') :
    Inv sha256 w' := by
  obtain ⟨seen, next, hstage, heffect, hadvance, rfl⟩ := claim_cases hstep
  obtain ⟨hkeep, hnew, hbound⟩ := claimEffect_spec heffect
  have hverified := (hi.calls n call hget).verified hstage
  refine inv_of_grows hi hget hadvance ⟨fun _ hx => hx, fun _ hx => hx, hkeep⟩ rfl
    (fun k v hk => ?_) (fun _ => hverified) fun hnext => ?_
  · exact (hnew k v hk).imp_right fun ⟨hkey, hvalue⟩ => ⟨hkey, hvalue, hverified⟩
  · rw [hstage] at hadvance
    rcases advance_accepted hadvance hnext with hacc | ⟨hs, _⟩ | ⟨_, answer, hr, hanswer⟩
    · cases hacc
    · cases hs
    · obtain rfl := Reply.classification.inj hr
      exact ⟨hverified, hbound (hanswer.imp (congrArg some) (congrArg some))⟩

theorem repository_inv (hi : Inv sha256 w)
    (hget : w.calls.get n = some call) {now : Int} {fault : Option Fault}
    (hstep : repository api maxResultAge w n call now fault = some w') :
    Inv sha256 w' := by
  obtain ⟨retried, rc, next, reply, repo, hstage, hadvance, _, rfl⟩ := repository_cases hstep
  have haccepted := (hi.calls n call hget).accepted (by rw [hstage]; rfl)
  refine inv_of_grows hi hget hadvance ⟨fun _ hx => hx, fun _ hx => hx, fun _ _ hk => hk⟩ rfl
    (fun _ _ hk => .inl hk) (fun hnext => ?_) fun _ => haccepted
  obtain rfl : next = .claiming := hnext
  have hverifying := (advance_entered hadvance).1
  rw [hstage] at hverifying
  cases hverifying

/-- A step is a change elsewhere, a call that begins, or a step of one call. -/
theorem step_cases {e : Event R π}
    (hstep : step api sha256 parseResultPayload maxResultAge w e = some w') :
    (∃ repo, e = .elsewhere repo ∧ w' = { w with repo := repo }) ∨
    (∃ n worker correlation payload, e = .complete n worker correlation payload ∧
      complete sha256 parseResultPayload w n worker correlation payload =
        some w') ∨
    (∃ n reply call, e = .answer n reply ∧ w.calls.get n = some call ∧
      answer maxResultAge w n call reply = some w') ∨
    (∃ n given bound call, e = .claim n given bound ∧ w.calls.get n = some call ∧
      claim maxResultAge w n call given bound = some w') ∨
    ∃ n now fault call, e = .repository n now fault ∧ w.calls.get n = some call ∧
      repository api maxResultAge w n call now fault = some w' := by
  cases e with
  | elsewhere repo => exact .inl ⟨repo, rfl, (Option.some.inj hstep).symm⟩
  | complete n worker correlation payload =>
    exact .inr (.inl ⟨n, worker, correlation, payload, rfl, hstep⟩)
  | answer n reply =>
    simp only [step] at hstep
    split at hstep
    · cases hstep
    · next call hget => exact .inr (.inr (.inl ⟨n, reply, call, rfl, hget, hstep⟩))
  | claim n given bound =>
    simp only [step] at hstep
    split at hstep
    · cases hstep
    · next call hget => exact .inr (.inr (.inr (.inl ⟨n, given, bound, call, rfl, hget, hstep⟩)))
  | repository n now fault =>
    simp only [step] at hstep
    split at hstep
    · cases hstep
    · next call hget => exact .inr (.inr (.inr (.inr ⟨n, now, fault, call, rfl, hget, hstep⟩)))

/-- What is hashed stays hashed, so that a run is free of collisions when its end is. -/
theorem step_hashed {e : Event R π}
    (hstep : step api sha256 parseResultPayload maxResultAge w e = some w') :
    ∀ x ∈ w.hashed, x ∈ w'.hashed := by
  intro x hx
  obtain ⟨repo, rfl, rfl⟩ | ⟨n, worker, correlation, payload, rfl, hcomplete⟩ |
    ⟨n, reply, call, rfl, -, hanswer⟩ | ⟨n, given, bound, call, rfl, -, hclaim⟩ |
    ⟨n, now, fault, call, rfl, -, hrepository⟩ := step_cases hstep
  · exact hx
  · obtain rfl | ⟨call, -, rfl⟩ := complete_cases hcomplete
    · exact hx
    · exact List.mem_cons_of_mem _ hx
  · obtain ⟨next, -, -, ⟨-, -, -, rfl⟩ | ⟨-, -, rfl⟩ | ⟨-, -, rfl⟩⟩ := answer_cases hanswer <;>
      exact hx
  · obtain ⟨seen, next, -, -, -, rfl⟩ := claim_cases hclaim
    exact hx
  · obtain ⟨retried, rc, next, reply, repo, -, -, -, rfl⟩ := repository_cases hrepository
    exact hx

theorem step_inv (hi : Inv sha256 w) (hfree : CollisionFree sha256 w.hashed)
    {e : Event R π}
    (hstep : step api sha256 parseResultPayload maxResultAge w e = some w') :
    Inv sha256 w' := by
  obtain ⟨repo, rfl, rfl⟩ | ⟨n, worker, correlation, payload, rfl, hcomplete⟩ |
    ⟨n, reply, call, rfl, hget, hanswer⟩ | ⟨n, given, bound, call, rfl, hget, hclaim⟩ |
    ⟨n, now, fault, call, rfl, hget, hrepository⟩ := step_cases hstep
  · exact ⟨hi.seen, fun n call hget =>
      (hi.calls n call hget).mono ⟨fun _ hx => hx, fun _ hx => hx, fun _ _ hk => hk⟩⟩
  · exact complete_inv hi hcomplete
  · exact answer_inv hi hget hfree hanswer
  · exact claim_inv hi hget hclaim
  · exact repository_inv hi hget hrepository

theorem inv_of_reaches {repo : R} (hreach : Runs.Reaches
      (step api sha256 parseResultPayload maxResultAge) Runs.anyEvent
      (start repo) w) :
    CollisionFree sha256 w.hashed → Inv sha256 w := by
  induction hreach with
  | refl => exact fun _ => ⟨by simp [start], by simp [start]⟩
  | tail _ _ hstep ih =>
    intro hfree
    have hbefore := step_hashed hstep
    have hfree' : CollisionFree sha256 _ := fun x hx y hy =>
      hfree x (hbefore x hx) y (hbefore y hy)
    exact step_inv (ih hfree') hfree' hstep

def Running (api : RepositoryApi R) (repo : R) (id : OperationId) : Prop :=
  ∃ r, api.getOperation repo id = some r ∧ r.state = .running

/-- Only a repository call takes an operation out of RUNNING, the one that it is for. -/
theorem repository_of_left {e : Event R π}
    (hstep : step api sha256 parseResultPayload maxResultAge w e = some w')
    (hthrough : e.isElsewhere = false) {id : OperationId} (hrunning : Running api w.repo id)
    (hleft : ¬Running api w'.repo id) :
    ∃ n call retried repositoryCall, w.calls.get n = some call ∧
      call.stage = .calling retried repositoryCall ∧ id = call.correlation.operationId := by
  obtain ⟨repo, rfl, rfl⟩ | ⟨n, worker, correlation, payload, rfl, hcomplete⟩ |
    ⟨n, reply, call, rfl, hget, hanswer⟩ | ⟨n, given, bound, call, rfl, hget, hclaim⟩ |
    ⟨n, now, fault, call, rfl, hget, hrepository⟩ := step_cases hstep
  · cases hthrough
  · obtain rfl | ⟨call, -, rfl⟩ := complete_cases hcomplete <;> exact (hleft hrunning).elim
  · obtain ⟨next, -, -, ⟨-, -, -, rfl⟩ | ⟨-, -, rfl⟩ | ⟨-, -, rfl⟩⟩ := answer_cases hanswer <;>
      exact (hleft hrunning).elim
  · obtain ⟨seen, next, -, -, -, rfl⟩ := claim_cases hclaim
    exact (hleft hrunning).elim
  · obtain ⟨retried, rc, next, reply, repo, hstage, -, hrepo, rfl⟩ := repository_cases hrepository
    refine ⟨n, call, retried, rc, hget, hstage, ?_⟩
    by_contra hne
    refine hleft ?_
    obtain rfl | rfl := hrepo
    · exact hrunning
    · obtain ⟨r, hr, hs⟩ := hrunning
      exact ⟨r, (api.frame rc _ call.worker now w.repo id hne).trans hr, hs⟩

/-- What a call that acts on an operation has behind it. -/
structure Authentic (w : World R) (call : CompleteCall) : Prop where
  verified : call.triple ∈ w.verified
  claimed : w.seen call.key = some call.binding
  bound : Bound call

/-- Whatever the callers and the dependencies do, a call that the guard has accepted, an exact match
included, has a result that was verified and claimed. Only the repository call of such a result
takes an operation out of RUNNING. -/
theorem complete_authentic {repo : R} (hreach : Runs.Reaches
      (step api sha256 parseResultPayload maxResultAge) Runs.anyEvent (start repo) w)
    (hfree : CollisionFree sha256 w.hashed) :
    (∀ n call, w.calls.get n = some call → call.stage.accepted = true →
      Authentic w call.toCompleteCall) ∧
    ∀ e w' id, step api sha256 parseResultPayload maxResultAge w e = some w' →
      e.isElsewhere = false → Running api w.repo id → ¬Running api w'.repo id →
      ∃ n call retried repositoryCall catalog operation, w.calls.get n = some call ∧
        call.stage = .calling retried repositoryCall ∧
        prepareResult call.toCompleteCall catalog operation = .ok (some repositoryCall) ∧
        id = call.correlation.operationId ∧ Authentic w call.toCompleteCall := by
  have hi := inv_of_reaches hreach hfree
  have hauthentic : ∀ n call, w.calls.get n = some call → call.stage.accepted = true →
      Authentic w call.toCompleteCall := by
    intro n call hget hacc
    have hcall := hi.calls n call hget
    obtain ⟨hverified, hclaimed⟩ := hcall.accepted hacc
    exact ⟨hverified, hclaimed, hcall.bound⟩
  refine ⟨hauthentic, fun e w' id hstep hthrough hrunning hleft => ?_⟩
  obtain ⟨n, call, retried, rc, hget, hstage, hid⟩ :=
    repository_of_left hstep hthrough hrunning hleft
  obtain ⟨catalog, operation, hprepare⟩ := (hi.calls n call hget).prepared retried rc hstage
  exact ⟨n, call, retried, rc, catalog, operation, hget, hstage, hprepare, hid,
    hauthentic n call hget (by rw [hstage]; rfl)⟩

end Runs

def runningOperation : OperationRecord :=
  (listingOperation "op_00000000-0000-4000-8000-000000000001"
    "idem_00000000-0000-4000-8000-000000000001" 0).started 10000000

def workerContext : WorkerContext :=
  ⟨"tnt_00000000-0000-4000-8000-000000000001", "ws_00000000-0000-4000-8000-000000000001"⟩

def listingCorrelation : DispatchCorrelation where
  tenantId := "tnt_00000000-0000-4000-8000-000000000001"
  userId := "usr_00000000-0000-4000-8000-000000000001"
  deviceId := "ws_00000000-0000-4000-8000-000000000001"
  taskId := "tsk_00000000-0000-4000-8000-000000000001"
  operationId := "op_00000000-0000-4000-8000-000000000001"
  commandId := "cmd_00000000-0000-4000-8000-000000000001"
  nonce := "AAAAAAAAAAAAAAAAAAAAAA"
  command := .listProjects
  issuedAt := 5000000
  dispatchExpiresAt := 65000000
  operationExpiresAt := 900000000
  deadlines := by decide
  lifetime := by decide

/-- A failure that the worker reports a minute after the start. -/
def failedEnvelope : WorkerResultEnvelope where
  tenantId := "tnt_00000000-0000-4000-8000-000000000001"
  userId := "usr_00000000-0000-4000-8000-000000000001"
  deviceId := "ws_00000000-0000-4000-8000-000000000001"
  taskId := "tsk_00000000-0000-4000-8000-000000000001"
  operationId := "op_00000000-0000-4000-8000-000000000001"
  commandId := "cmd_00000000-0000-4000-8000-000000000001"
  completedAt := 60000000
  result := .error .listProjects .workerFailure false
  signature :=
    ⟨"56fW_Zo3GAL0PJ2zzBkUpM8VIZlnvV3qDp-lt55siTW51nzZYEKZoX9Dao5skcrmuuevUhEYyaKjewS7_iYdCg".toList,
      by decide, by decide⟩

def failedCanonical : List UInt8 :=
  ("\x7b\"command_id\":\"cmd_00000000-0000-4000-8000-000000000001\"," ++
    "\"completed_at\":\"1970-01-01T00:01:00Z\"," ++
    "\"device_id\":\"ws_00000000-0000-4000-8000-000000000001\"," ++
    "\"operation_id\":\"op_00000000-0000-4000-8000-000000000001\"," ++
    "\"protocol_version\":1,\"result\":\x7b\"action\":\"list_projects\"," ++
    "\"attention_required\":false,\"code\":\"worker_failure\",\"kind\":\"error\"," ++
    "\"retryable\":false\x7d,\"signature_algorithm\":\"ed25519\"," ++
    "\"task_id\":\"tsk_00000000-0000-4000-8000-000000000001\"," ++
    "\"tenant_id\":\"tnt_00000000-0000-4000-8000-000000000001\"," ++
    "\"user_id\":\"usr_00000000-0000-4000-8000-000000000001\"\x7d").toList.map
      fun c => c.val.toUInt8

/-- The digest of the one string that the run hashes. -/
def failedDigest (_ : List UInt8) : Sha256Hex :=
  "e68fca874bf49012ec9eaffd8d1d820d6fae1dea5b112f2725a113e42fcdf129"

def runningRepository : InMemoryGatewayRepository where
  workstations := Dict.empty.set "ws_00000000-0000-4000-8000-000000000001"
    ⟨"ws_00000000-0000-4000-8000-000000000001", "tnt_00000000-0000-4000-8000-000000000001",
      "usr_00000000-0000-4000-8000-000000000001", "Workstation", true, true⟩
  projects := .empty
  drawings := .empty
  operations := Dict.empty.set runningOperation.operationId runningOperation
  idempotency := .empty

def runningCatalog : Catalog :=
  ⟨runningRepository.workstations.get, fun _ => none, fun _ => none⟩

/-- A call that is verified, claimed and about to fail its operation. -/
def untilCalling : List (Event InMemoryGatewayRepository Unit) :=
  [.complete 0 workerContext listingCorrelation (),
    .answer 0 (.classification (some .unseen)),
    .answer 0 (.clock (.aware 61000000)),
    .answer 0 (.signature (some true)),
    .claim 0 (some .firstSeen) false,
    .answer 0 (.application (some .acquired)),
    .answer 0 (.reads runningCatalog (some runningOperation)),
    .answer 0 (.clock (.aware 62000000)),
    .answer 0 (.reads runningCatalog (some runningOperation))]

def isRunning (repo : InMemoryGatewayRepository) : Bool :=
  (repo.operations.get runningOperation.operationId).any fun r => r.state = .running

theorem running_iff (repo : InMemoryGatewayRepository) :
    Running inMemoryRepository repo runningOperation.operationId ↔ isRunning repo = true := by
  simp [Running, inMemoryRepository, isRunning, Option.any_eq_true]

def failedStep (w : World InMemoryGatewayRepository) : Option (World InMemoryGatewayRepository) :=
  step inMemoryRepository failedDigest (fun _ : Unit => some (failedEnvelope, failedCanonical))
    60000000 w (.repository 0 62000000 none)

theorem complete_authentic_failed : ∃ w w', failedStep w = some w' ∧ isRunning w.repo = true ∧
    isRunning w'.repo = false ∧ ∃ n call, w.calls.get n = some call ∧
      Authentic w call.toCompleteCall := by
  obtain ⟨w, hreach, hw⟩ := Runs.exists_reaches_of_run
    (step inMemoryRepository failedDigest (fun _ : Unit => some (failedEnvelope, failedCanonical))
      60000000) Runs.anyEvent (start runningRepository) untilCalling
    (fun w => decide (w.hashed.length ≤ 1) && isRunning w.repo &&
      (failedStep w).any fun w' => !isRunning w'.repo)
    (Runs.along_anyEvent _ _) (by decide)
  simp only [Bool.and_eq_true, decide_eq_true_eq, Option.any_eq_true, Bool.not_eq_true'] at hw
  obtain ⟨⟨hlength, hrunning⟩, w', hstep, hleft⟩ := hw
  have hfree : CollisionFree failedDigest w.hashed := by
    intro x hx y hy _
    match hhashed : w.hashed, hlength with
    | [], _ => simp [hhashed] at hx
    | [z], _ =>
      simp only [hhashed, List.mem_singleton] at hx hy
      rw [hx, hy]
  obtain ⟨n, call, _, _, _, _, hget, _, _, _, hauthentic⟩ :=
    (complete_authentic hreach hfree).2 _ w' _ hstep rfl ((running_iff _).2 hrunning)
      (by rw [running_iff, hleft]; simp)
  exact ⟨w, w', hstep, hrunning, hleft, n, call, hget, hauthentic⟩

end CadPlot.Gateway.Ingress
