import CadPlot.Worker.Dispatches

/-!
# No dispatch runs twice

Along every run of the worker, a nonce that is accepted again was accepted with
an envelope that has expired by then, and nothing is announced or executed but
what has just passed every check. The rows of the nonces are compared as texts,
which have the order of the moments they stand for.
-/

namespace CadPlot.Worker.Dispatches

open Gateway Calendar Protocol Runs

/-! ### One transaction of the nonces -/

section Consume

variable {rows rows' : List NonceRow} {tenantId : TenantId} {deviceId : WorkstationId}
  {nonce : String} {now expiresAt : DateTime} {fresh : Bool}

/-- Unexpired rows stay, and a fresh nonce has none until the transaction adds one. -/
theorem consumeDispatchNonce_some
    (h : consumeDispatchNonce rows tenantId deviceId nonce now expiresAt = some (fresh, rows')) :
    (∀ row ∈ rows, now.isoformat < row.expiresAt → row ∈ rows') ∧
    (fresh = true →
      (∀ row ∈ rows, now.isoformat < row.expiresAt → row.isFor tenantId deviceId nonce = false) ∧
      ⟨tenantId, deviceId, nonce, expiresAt.isoformat⟩ ∈ rows') := by
  have hkept (row) (hrow : row ∈ rows) (hlt : now.isoformat < row.expiresAt) :
      row ∈ rows.filter fun row => decide (now.isoformat < row.expiresAt) :=
    List.mem_filter.2 ⟨hrow, decide_eq_true hlt⟩
  unfold consumeDispatchNonce at h
  split_ifs at h with hids htime
  dsimp only at h
  split_ifs at h with hany
  · simp only [Option.some.injEq, Prod.mk.injEq] at h
    obtain ⟨rfl, rfl⟩ := h
    exact ⟨hkept, fun hfalse => by cases hfalse⟩
  · simp only [Option.some.injEq, Prod.mk.injEq] at h
    obtain ⟨rfl, rfl⟩ := h
    refine ⟨fun row hrow hlt => List.mem_cons_of_mem _ (hkept row hrow hlt), fun _ => ⟨?_, ?_⟩⟩
    · intro row hrow hlt
      rw [← Bool.not_eq_true]
      exact fun hfor => hany (List.any_eq_true.2 ⟨row, hkept row hrow hlt, hfor⟩)
    · exact List.mem_cons_self

end Consume

/-! ### What a run keeps -/

section Run

variable (settings : Settings)

/-- The key under which a nonce is accepted. -/
def nonceKey (identity : WorkerIdentity) (task : DispatchedTask) :
    TenantId × WorkstationId × String :=
  (identity.tenantId, identity.deviceId, task.envelope.nonce)

/-- A later acceptance of a nonce finds the envelope of an earlier one expired. -/
def Spaced : Entry → Entry → Prop
  | .accepted identity task now, .accepted identity' task' _ =>
    nonceKey identity task = nonceKey identity' task' → task'.expiresAt.micros ≤ now.micros
  | _, _ => True

/-- The newest entry of a log is due: an acceptance is authorized, and the rest follows on it. -/
def Due : Entry → List Entry → Prop
  | .accepted identity task now, _ => authorized settings identity task now = true
  | .started task, before => ∃ identity now rest, before = .accepted identity task now :: rest
  | .executed task, before => ∃ rest, before = .started task :: rest

/-- Every entry of a log, newest first, is due and keeps its distance. -/
def Sound : List Entry → Prop
  | [] => True
  | entry :: before => Due settings entry before ∧ (∀ earlier ∈ before, Spaced entry earlier) ∧
      Sound before

/-- What a stage has behind it. -/
def StageSound (w : World) : Prop :=
  match w.stage with
  | .idle | .polled _ => True
  | .authorizing _ now => now = w.clock
  | .checked task now => now = w.clock ∧ authorized settings w.identity task now = true
  | .accepted task => ∃ identity now rest, w.log = .accepted identity task now :: rest
  | .started task => ∃ rest, w.log = .started task :: rest

/-- The row of an accepted nonce is there, or the envelope has expired by the clock. -/
def Remembered (rows : List NonceRow) (clock : DateTime) (identity : WorkerIdentity)
    (task : DispatchedTask) : Prop :=
  ⟨identity.tenantId, identity.deviceId, task.envelope.nonce, task.expiresAt.isoformat⟩ ∈ rows ∨
    task.expiresAt.micros ≤ clock.micros

structure Inv (w : World) : Prop where
  sound : Sound settings w.log
  remembered : ∀ identity task now, .accepted identity task now ∈ w.log →
    Remembered w.rows w.clock identity task
  stage : StageSound settings w

variable {settings} {w w' : World}

theorem Remembered.later {rows : List NonceRow} {clock later : DateTime}
    {identity : WorkerIdentity} {task : DispatchedTask}
    (h : Remembered rows clock identity task) (hle : clock.micros ≤ later.micros) :
    Remembered rows later identity task :=
  h.imp_right fun hexp => Nat.le_trans hexp hle

/-- A transaction at the clock's time forgets expired envelopes only. -/
theorem Remembered.consumed {rows rows' : List NonceRow} {clock : DateTime}
    {identity : WorkerIdentity} {task : DispatchedTask}
    (hkept : ∀ row ∈ rows, clock.isoformat < row.expiresAt → row ∈ rows')
    (h : Remembered rows clock identity task) : Remembered rows' clock identity task := by
  rcases h with hrow | hexp
  · by_cases hlt : clock.micros < task.expiresAt.micros
    · exact .inl (hkept _ hrow (isoformat_lt_iff.2 hlt))
    · exact .inr (Nat.le_of_not_lt hlt)
  · exact .inr hexp

/-- Only an idle stage is safe in every state. -/
theorem Inv.idle (hi : Inv settings w) : Inv settings { w with stage := .idle } :=
  ⟨hi.sound, hi.remembered, trivial⟩

theorem Inv.consume (hi : Inv settings w) {task : DispatchedTask} {now : DateTime}
    (hs : w.stage = .checked task now) (fault : Option StoreFault) :
    Inv settings (consume w task now fault) := by
  have hstage := hi.stage
  simp only [StageSound, hs] at hstage
  obtain ⟨rfl, hauth⟩ := hstage
  unfold Dispatches.consume
  cases hc : consumeDispatchNonce w.rows w.identity.tenantId w.identity.deviceId
    task.envelope.nonce w.clock task.expiresAt with
  | none => exact hi.idle
  | some answer =>
    obtain ⟨fresh, rows'⟩ := answer
    obtain ⟨hkept, hfresh⟩ := consumeDispatchNonce_some hc
    have hremembered (identity) (task) (now) (h : Entry.accepted identity task now ∈ w.log) :
        Remembered rows' w.clock identity task := (hi.remembered _ _ _ h).consumed hkept
    cases fault with
    | some fault =>
      cases fault with
      | before => exact hi.idle
      | after => exact ⟨hi.sound, hremembered, trivial⟩
    | none =>
      cases fresh with
      | false => exact ⟨hi.sound, hremembered, trivial⟩
      | true =>
        obtain ⟨hnone, hadded⟩ := hfresh rfl
        have hspaced (earlier) (he : earlier ∈ w.log) :
            Spaced (.accepted w.identity task w.clock) earlier := by
          cases earlier with
          | started | executed => trivial
          | accepted identity' task' now' =>
            intro hkey
            simp only [nonceKey, Prod.mk.injEq] at hkey
            rcases hi.remembered _ _ _ he with hrow | hexp
            · by_contra hlt
              have hfor := hnone _ hrow (isoformat_lt_iff.2 (Nat.lt_of_not_le hlt))
              simp [NonceRow.isFor, hkey] at hfor
            · exact hexp
        refine ⟨⟨hauth, hspaced, hi.sound⟩, ?_, ⟨_, _, _, rfl⟩⟩
        intro identity' task' now' hmem
        rcases List.mem_cons.1 hmem with heq | hmem
        · cases heq
          exact .inl hadded
        · exact hremembered _ _ _ hmem

/-- Every step keeps the invariant. -/
theorem step_inv {e : Event} (hi : Inv settings w) (h : step settings w e = some w') :
    Inv settings w' := by
  cases e with
  | restart identity =>
    obtain rfl := Option.some.inj h
    exact ⟨hi.sound, hi.remembered, trivial⟩
  | poll task =>
    simp only [step] at h
    split at h
    · obtain rfl := Option.some.inj h
      exact ⟨hi.sound, hi.remembered, trivial⟩
    · cases h
  | readClock now =>
    simp only [step] at h
    split at h
    · split_ifs at h with hle
      obtain rfl := Option.some.inj h
      exact ⟨hi.sound, fun _ _ _ hmem => (hi.remembered _ _ _ hmem).later hle, rfl⟩
    · cases h
  | authorize =>
    simp only [step] at h
    split at h
    · next task now hs =>
      have hclock := hi.stage
      simp only [StageSound, hs] at hclock
      split_ifs at h with hauth
      · obtain rfl := Option.some.inj h
        exact ⟨hi.sound, hi.remembered, hclock, hauth⟩
      · obtain rfl := Option.some.inj h
        exact hi.idle
    · cases h
  | consume fault =>
    simp only [step] at h
    split at h
    · next task now hs =>
      obtain rfl := Option.some.inj h
      exact hi.consume hs fault
    · cases h
  | start delivered =>
    simp only [step] at h
    split at h
    · next task hs =>
      have hlog := hi.stage
      simp only [StageSound, hs] at hlog
      obtain rfl := Option.some.inj h
      refine ⟨⟨hlog, fun _ _ => trivial, hi.sound⟩, ?_, ?_⟩
      · intro identity task' now hmem
        rcases List.mem_cons.1 hmem with heq | hmem
        · cases heq
        · exact hi.remembered _ _ _ hmem
      · cases delivered with
        | true => exact ⟨_, rfl⟩
        | false => trivial
    · cases h
  | execute completedAt =>
    simp only [step] at h
    split at h
    · next task hs =>
      have hlog := hi.stage
      simp only [StageSound, hs] at hlog
      split_ifs at h with hle
      obtain rfl := Option.some.inj h
      refine ⟨⟨hlog, fun _ _ => trivial, hi.sound⟩, ?_, trivial⟩
      intro identity task' now hmem
      rcases List.mem_cons.1 hmem with heq | hmem
      · cases heq
      · exact (hi.remembered _ _ _ hmem).later hle
    · cases h

theorem start_inv (identity : WorkerIdentity) (clock : DateTime) :
    Inv settings (start identity clock) :=
  ⟨trivial, fun _ _ _ h => (List.not_mem_nil h).elim, trivial⟩

theorem reaches_inv {identity : WorkerIdentity} {clock : DateTime}
    (h : Reaches (step settings) anyEvent (start identity clock) w) : Inv settings w :=
  invariant_of_reaches (start_inv identity clock) (fun _ _ _ hi _ hstep => step_inv hi hstep) h

/-! ### What the log of a run says -/

/-- Whether an entry accepts the envelope of a task. -/
def Entry.accepts (e : WorkerTaskEnvelope) : Entry → Bool
  | .accepted _ task _ => decide (task.envelope = e)
  | _ => false

/-- No replay, and nothing without a check: a nonce is accepted again only when the envelopes it was
accepted with have expired, an envelope is accepted once, and a notification follows on an
acceptance and a command on a notification. -/
structure ReplaySafe (settings : Settings) (log : List Entry) : Prop where
  spaced : log.Pairwise Spaced
  once : ∀ e, (log.filter (Entry.accepts e)).length ≤ 1
  authorized : ∀ identity task now, .accepted identity task now ∈ log →
    contextMatches identity task.envelope = true ∧ timeMatches task now = true ∧
      signatureMatches settings task.envelope = true
  started : ∀ after task before, log = after ++ .started task :: before →
    ∃ identity now rest, before = .accepted identity task now :: rest
  executed : ∀ after task before, log = after ++ .executed task :: before →
    ∃ rest, before = .started task :: rest

theorem sound_spaced {log : List Entry} (h : Sound settings log) : log.Pairwise Spaced := by
  induction log with
  | nil => exact .nil
  | cons entry before ih => exact .cons h.2.1 (ih h.2.2)

theorem sound_due {log : List Entry} (h : Sound settings log) :
    ∀ after entry before, log = after ++ entry :: before → Due settings entry before := by
  induction log with
  | nil =>
    intro after entry before heq
    cases after <;> cases heq
  | cons newest rest ih =>
    intro after entry before heq
    cases after with
    | nil =>
      obtain ⟨rfl, rfl⟩ := List.cons.inj heq
      exact h.1
    | cons _ after => exact ih h.2.2 after entry before (List.cons.inj heq).2

theorem sound_authorized {log : List Entry} (h : Sound settings log) {identity : WorkerIdentity}
    {task : DispatchedTask} {now : DateTime} (hmem : .accepted identity task now ∈ log) :
    contextMatches identity task.envelope = true ∧ timeMatches task now = true ∧
      signatureMatches settings task.envelope = true := by
  obtain ⟨after, before, heq⟩ := List.append_of_mem hmem
  have hdue : Dispatches.authorized settings identity task now = true := sound_due h _ _ _ heq
  simp only [Dispatches.authorized, Bool.and_eq_true] at hdue
  exact ⟨hdue.1.1, hdue.1.2, hdue.2⟩

/-- The same envelope has the same key and the same expiry, before which it has to be accepted. -/
theorem sound_once {log : List Entry} (h : Sound settings log) (e : WorkerTaskEnvelope) :
    (log.filter (Entry.accepts e)).length ≤ 1 := by
  induction log with
  | nil => exact Nat.zero_le 1
  | cons entry before ih =>
    by_cases haccepts : entry.accepts e = true
    · have hnone : before.filter (Entry.accepts e) = [] := by
        rw [List.filter_eq_nil_iff]
        intro earlier hearlier haccepts'
        cases entry with
        | started | executed => cases haccepts
        | accepted identity task now =>
          cases earlier with
          | started | executed => cases haccepts'
          | accepted identity' task' now' =>
            obtain ⟨hcontext, htime, _⟩ := sound_authorized h List.mem_cons_self
            obtain ⟨hcontext', _⟩ := sound_authorized h (List.mem_cons_of_mem _ hearlier)
            have henvelope : task.envelope = e := of_decide_eq_true haccepts
            have henvelope' : task'.envelope = e := of_decide_eq_true haccepts'
            have hspaced := h.2.1 _ hearlier
            simp only [contextMatches, decide_eq_true_eq] at hcontext hcontext'
            have hkey : nonceKey identity task = nonceKey identity' task' := by
              simp only [nonceKey, ← hcontext.1, ← hcontext.2.2.1, ← hcontext'.1,
                ← hcontext'.2.2.1, henvelope, henvelope']
            have hexpired := hspaced hkey
            have hexpires : task'.expiresAt.instant = task.expiresAt.instant := by
              rw [← task'.expires, ← task.expires, henvelope, henvelope']
            simp only [timeMatches, decide_eq_true_eq] at htime
            simp only [DateTime.instant] at htime hexpires
            omega
      rw [List.filter_cons_of_pos haccepts, hnone]
      exact Nat.le_refl 1
    · rw [List.filter_cons_of_neg haccepts]
      exact ih h.2.2

/-- Every run of a worker is safe from replays, and the texts that its nonces are kept by have the
order of time. -/
theorem dispatches_replay_safe (settings : Settings) {identity : WorkerIdentity}
    {clock : DateTime} {w : World}
    (h : Reaches (step settings) anyEvent (start identity clock) w) :
    ReplaySafe settings w.log ∧
      ∀ a b : DateTime, a.isoformat < b.isoformat ↔ a.instant < b.instant := by
  have hsound := (reaches_inv h).sound
  refine ⟨⟨sound_spaced hsound, sound_once hsound, fun _ _ _ => sound_authorized hsound,
    fun _ _ _ => sound_due hsound _ _ _, fun _ _ _ => sound_due hsound _ _ _⟩, fun a b => ?_⟩
  rw [isoformat_lt_iff, DateTime.instant, DateTime.instant]
  omega

end Run

/-! ### One nonce in two envelopes -/

/-- A minute and second of the first hour of 2026. -/
def firstHour (minute second : Nat) (h : minute < 60 ∧ second < 60) : DateTime where
  year := 2026
  month := 1
  day := 1
  hour := 0
  minute := minute
  second := second
  microsecond := 0
  years := by decide
  months := by decide
  days := by decide
  time := ⟨by decide, h.1, h.2, by decide⟩

def someWorker : WorkerIdentity where
  tenantId := "tnt_00000000-0000-4000-8000-000000000001"
  userId := "usr_00000000-0000-4000-8000-000000000001"
  deviceId := "ws_00000000-0000-4000-8000-000000000001"
  policyVersion := 1

/-- An envelope that is issued at the full hour and expires some minutes later. -/
def checkEnvelope (minutes : Int) : WorkerTaskEnvelope where
  policyVersion := 1
  tenantId := someWorker.tenantId
  userId := someWorker.userId
  deviceId := someWorker.deviceId
  taskId := "tsk_00000000-0000-4000-8000-000000000001"
  operationId := "op_00000000-0000-4000-8000-000000000001"
  commandId := "cmd_00000000-0000-4000-8000-000000000001"
  idempotencyKey := "idem_00000000-0000-4000-8000-000000000001"
  nonce := "nnnnnnnnnnnnnnnnnnnnnnnnnnnnnnnnnnnnnnnnnnn"
  issuedAt := 1767225600000000
  expiresAt := 1767225600000000 + minutes * 60000000
  command := .validateEnvironment
  signature := Dispatch.signaturePlaceholder

def shortTask : DispatchedTask :=
  ⟨checkEnvelope 1, firstHour 0 0 (by decide), firstHour 1 0 (by decide), by decide, by decide,
    by decide +kernel⟩

def longTask : DispatchedTask :=
  ⟨checkEnvelope 5, firstHour 0 0 (by decide), firstHour 5 0 (by decide), by decide, by decide,
    by decide +kernel⟩

/-- The texts of the three timestamps, and signatures that verify. -/
def someSettings : Settings where
  timestamp t :=
    if t = 1767225600000000 then "2026-01-01T00:00:00Z"
    else if t = 1767225660000000 then "2026-01-01T00:01:00Z"
    else "2026-01-01T00:05:00Z"
  verifyGatewaySignature _ _ := true

def runOf (task : DispatchedTask) (now done : DateTime) : List Event :=
  [.poll task, .readClock now, .authorize, .consume none, .start true, .execute done]

def shortRun : List Event :=
  runOf shortTask (firstHour 0 10 (by decide)) (firstHour 0 20 (by decide))

/-- The same nonce again, when the first envelope has just expired. -/
def longRun : List Event :=
  runOf longTask (firstHour 1 0 (by decide)) (firstHour 1 10 (by decide))

def halfMinute : DateTime := firstHour 0 30 (by decide)

/-- The same envelope is delivered again to the next process, which checks it. -/
def replayRun : List Event :=
  shortRun ++ [.restart someWorker, .poll shortTask, .readClock halfMinute, .authorize]

/-- A world in which the replay is checked, and the one after its nonce was refused. -/
def refusesReplay (w : World) : Bool :=
  decide (w.stage = .checked shortTask halfMinute ∧ w.log.length = 3) &&
    (step someSettings w (.consume none)).any fun w' =>
      decide (w'.stage = .idle ∧ w'.log.length = 3)

/-- The replay passes every check but that of its nonce, and nothing is accepted. -/
theorem dispatches_replay_safe_short :
    ∃ w w', Reaches (step someSettings) anyEvent
        (start someWorker (firstHour 0 0 (by decide))) w ∧
      w.stage = .checked shortTask halfMinute ∧ w.log.length = 3 ∧
      step someSettings w (.consume none) = some w' ∧ w'.stage = .idle ∧ w'.log.length = 3 ∧
      ReplaySafe someSettings w'.log ∧
      ∀ a b : DateTime, a.isoformat < b.isoformat ↔ a.instant < b.instant := by
  obtain ⟨w, hreach, hw⟩ := exists_reaches_of_run (step someSettings) anyEvent
    (start someWorker (firstHour 0 0 (by decide))) replayRun refusesReplay (along_anyEvent _ _)
    (by decide +kernel)
  obtain ⟨hchecked, hrefused⟩ := (Bool.and_eq_true _ _).mp hw
  obtain ⟨hstage, hlog⟩ := of_decide_eq_true hchecked
  obtain ⟨w', hstep, hafter⟩ := (Option.any_eq_true _ _).1 hrefused
  obtain ⟨hidle, hsame⟩ := of_decide_eq_true hafter
  exact ⟨w, w', hreach, hstage, hlog, hstep, hidle, hsame,
    dispatches_replay_safe someSettings (hreach.tail trivial hstep)⟩

/-- An acceptance of a task's nonce before the task expires. -/
def Entry.acceptsBefore (identity : WorkerIdentity) (task : DispatchedTask) : Entry → Bool
  | .accepted identity' task' now =>
    decide (nonceKey identity' task' = nonceKey identity task ∧
      now.instant < task.expiresAt.instant)
  | _ => false

/-- A nonce that two envelopes carry is accepted twice while the second is authorized and unexpired. -/
theorem nonce_accepted_twice :
    contextMatches someWorker longTask.envelope = true ∧
    signatureMatches someSettings longTask.envelope = true ∧
    ∃ w, Reaches (step someSettings) anyEvent
        (start someWorker (firstHour 0 0 (by decide))) w ∧
      (w.log.filter (Entry.acceptsBefore someWorker longTask)).length = 2 := by
  refine ⟨by decide +kernel, rfl, ?_⟩
  obtain ⟨w, hreach, hlog⟩ := exists_reaches_of_run (step someSettings) anyEvent
    (start someWorker (firstHour 0 0 (by decide))) (shortRun ++ longRun)
    (fun w => (w.log.filter (Entry.acceptsBefore someWorker longTask)).length = 2)
    (along_anyEvent _ _) (by decide +kernel)
  exact ⟨w, hreach, of_decide_eq_true hlog⟩

end CadPlot.Worker.Dispatches
