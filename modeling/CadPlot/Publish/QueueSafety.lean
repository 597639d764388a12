import CadPlot.Publish.QueueTelemetry

/-!
# Jobs are executed at most once

The started record of a job is created before the job goes to the executor, and
neither a recovery nor a later request makes the plan pending again.
-/

namespace CadPlot.Publish.Queue

section Directories

variable {κ : Type} [DecidableEq κ] {host : Host κ} {disk disk' : Disk κ}

/-- No directory has both a started and a cancelled record. -/
def Apart (disk : Disk κ) : Prop :=
  ∀ root, (disk.files root).started = none ∨ (disk.files root).cancelled = none

/-- A directory of the plan has a record of a kind. -/
def Marked (mark : JobFiles → Option PublishQueueMarker) (disk : Disk κ) (planId : String) :
    Prop :=
  ∃ root r, (disk.files root).request = some r ∧ r.planId = planId ∧
    (mark (disk.files root)).isSome

/-- The records of a directory stay there. -/
structure Keeps (files files' : JobFiles) : Prop where
  request : ∀ r, files.request = some r → files'.request = some r
  started : files.started.isSome → files'.started.isSome
  cancelled : files.cancelled.isSome → files'.cancelled.isSome

theorem Recorded.keeps {r : PublishJobRequest} {files files' : JobFiles}
    (h : Recorded r files files') : Keeps files files' := by
  cases h with
  | same => exact ⟨fun _ h => h, fun h => h, fun h => h⟩
  | request hfiles =>
    subst hfiles
    exact ⟨by simp [JobFiles.empty], by simp [JobFiles.empty], by simp [JobFiles.empty]⟩
  | started => exact ⟨fun _ h => h, fun _ => rfl, fun h => h⟩
  | cancelled => exact ⟨fun _ h => h, fun h => h, fun _ => rfl⟩
  | receipt => exact ⟨fun _ h => h, fun h => h, fun h => h⟩

theorem Recorded.apart {r : PublishJobRequest} {files files' : JobFiles}
    (h : Recorded r files files') (hfiles : files.started = none ∨ files.cancelled = none) :
    files'.started = none ∨ files'.cancelled = none := by
  cases h with
  | same => exact hfiles
  | request => exact hfiles
  | started _ _ _ hcancelled => exact .inr hcancelled
  | cancelled _ _ _ _ _ hstarted => exact .inl hstarted
  | receipt => exact hfiles

theorem Touches.keeps {r : PublishJobRequest} (h : Touches host r disk disk') (root : κ) :
    Keeps (disk.files root) (disk'.files root) := by
  obtain ⟨files', hrecorded, hfiles⟩ := h
  rw [hfiles, Function.update_apply]
  split
  · next heq => exact heq ▸ hrecorded.keeps
  · exact ⟨fun _ h => h, fun h => h, fun h => h⟩

theorem Touches.apart {r : PublishJobRequest} (h : Touches host r disk disk')
    (hdisk : Apart disk) : Apart disk' := by
  obtain ⟨files', hrecorded, hfiles⟩ := h
  intro root
  rw [hfiles, Function.update_apply]
  split
  · exact hrecorded.apart (hdisk _)
  · exact hdisk root

theorem Touches.started {r : PublishJobRequest} (h : Touches host r disk disk') {planId : String}
    (hmarked : Marked JobFiles.started disk planId) : Marked JobFiles.started disk' planId := by
  obtain ⟨root, r', hrequest, hplan, hmark⟩ := hmarked
  exact ⟨root, r', (h.keeps root).request r' hrequest, hplan, (h.keeps root).started hmark⟩

theorem Touches.cancelled {r : PublishJobRequest} (h : Touches host r disk disk')
    {planId : String} (hmarked : Marked JobFiles.cancelled disk planId) :
    Marked JobFiles.cancelled disk' planId := by
  obtain ⟨root, r', hrequest, hplan, hmark⟩ := hmarked
  exact ⟨root, r', (h.keeps root).request r' hrequest, hplan, (h.keeps root).cancelled hmark⟩

/-- A listing of the job directories, each once. -/
def Enumerates (disk : Disk κ) (found : List (κ × JobReadings)) : Prop :=
  (found.map Prod.fst).Nodup ∧ ∀ e ∈ disk.entries, e.1 ∈ found.map Prod.fst

instance (disk : Disk κ) (found : List (κ × JobReadings)) : Decidable (Enumerates disk found) :=
  inferInstanceAs (Decidable (_ ∧ _))

theorem Enumerates.mem {found : List (κ × JobReadings)} (h : Enumerates disk found) {root : κ}
    {r : PublishJobRequest} (hrequest : (disk.files root).request = some r) :
    root ∈ found.map Prod.fst := by
  cases hget : disk.get root with
  | none =>
    rw [Disk.files, hget] at hrequest
    cases hrequest
  | some files => exact h.2 _ ((disk.mem_entries_iff root files).2 hget)

/-- The recovered state of a plan is that of any directory of it. -/
theorem Recovers.stateOf {found : List (κ × JobReadings)} {recovery : PublishQueueRecovery}
    (h : Recovers host disk (found.map Prod.fst) recovery) (hfound : Enumerates disk found)
    {root : κ} {r : PublishJobRequest} (hrequest : (disk.files root).request = some r) :
    Queue.stateOf recovery.states r.planId = some ((disk.files root).snapshot r).state := by
  rw [Queue.stateOf, (h.found root (hfound.mem hrequest) r hrequest).2]
  rfl

end Directories

section Safety

variable {κ : Type} [DecidableEq κ] {host : Host κ} {w w' : World κ} {e : Event κ}

/-- What a process knows of the plans that were executed and of those that were cancelled. -/
structure Session.Safe (w : World κ) (s : Session) : Prop where
  executed : ∀ p ∈ w.executions.map PublishJobRequest.planId,
    stateOf s.queue.states p ≠ none ∧ stateOf s.queue.states p ≠ some .pending ∧
      stateOf s.queue.states p ≠ some .cancelled
  cancelled : ∀ p ∈ w.cancellations, stateOf s.queue.states p = some .cancelled
  marked : ∀ p, stateOf s.queue.states p = some .cancelled → Marked JobFiles.cancelled w.disk p
  started : ∀ r, s.worker = .started r → Marked JobFiles.started w.disk r.planId ∧
    r.planId ∉ w.executions.map PublishJobRequest.planId

structure World.Safe (w : World κ) : Prop where
  apart : Apart w.disk
  once : (w.executions.map PublishJobRequest.planId).Nodup
  executed : ∀ p ∈ w.executions.map PublishJobRequest.planId, Marked JobFiles.started w.disk p
  cancelled : ∀ p ∈ w.cancellations, Marked JobFiles.cancelled w.disk p ∧
    p ∉ w.executions.map PublishJobRequest.planId
  consistent : w.Consistent
  session : ∀ s, w.session = some s → s.Safe w

/-- A restart lists the job directories; nothing else is asked of a step. -/
def Listed (w : World κ) : Event κ → Prop
  | .restart _ _ found => Enumerates w.disk found
  | _ => True

instance (w : World κ) (e : Event κ) : Decidable (Listed w e) :=
  e.casesOn (fun _ _ found => instDecidableEnumerates w.disk found) (isTrue trivial)
    (fun _ _ => isTrue trivial) (fun _ _ _ _ _ => isTrue trivial) (fun _ _ => isTrue trivial)
    (isTrue trivial) (fun _ => isTrue trivial) (fun _ => isTrue trivial) (isTrue trivial)

theorem World.Safe.init : (World.start (.empty : Disk κ)).Safe where
  apart root := .inl rfl
  once := List.nodup_nil
  executed := by simp [World.start]
  cancelled := by simp [World.start]
  consistent s hs := by cases hs
  session s hs := by cases hs

theorem restarted_safe (h : w.Safe) {capacity : Int} {hasReceiptWriter : Bool}
    {found : List (κ × JobReadings)} (hfound : Enumerates w.disk found)
    {queue : PublishJobQueue} (hqueue : newQueue host capacity w.disk found = .ok queue) :
    (Session.mk queue .idle hasReceiptWriter).Safe w := by
  obtain ⟨recovery, hrecovers, _, _, _, hstates, _⟩ := newQueue_ok hqueue
  refine ⟨?_, ?_, ?_, fun _ h => by cases h⟩
  · intro p hp
    obtain ⟨root, r, hrequest, rfl, hstarted⟩ := h.executed p hp
    have hstate := hrecovers.stateOf hfound hrequest
    rw [hstates, hstate]
    refine ⟨by simp, fun hpending => ?_, fun hcancelled => ?_⟩
    · have hnone := (snapshot_pending.1 (Option.some.inj hpending)).2.2
      rw [hnone] at hstarted
      cases hstarted
    · have hsome := snapshot_cancelled.1 (Option.some.inj hcancelled)
      rcases h.apart root with hnone | hnone
      · rw [hnone] at hstarted
        cases hstarted
      · rw [hnone] at hsome
        cases hsome
  · intro p hp
    obtain ⟨⟨root, r, hrequest, rfl, hcancelled⟩, _⟩ := h.cancelled p hp
    rw [hstates, hrecovers.stateOf hfound hrequest, snapshot_cancelled.2 hcancelled]
  · intro p hp
    rw [hstates] at hp
    obtain ⟨snapshot, hget, hstate⟩ := Option.map_eq_some_iff.1 hp
    obtain ⟨root, _, r, hrequest, rfl, rfl⟩ := hrecovers.states p snapshot hget
    exact ⟨root, r, hrequest, rfl, snapshot_cancelled.1 hstate⟩

/-- Recording something changes nothing of what is known. -/
theorem Session.Safe.touch {s : Session} (h : s.Safe w) {r : PublishJobRequest} {disk' : Disk κ}
    (hdisk : Touches host r w.disk disk') : s.Safe { w with disk := disk' } where
  executed := h.executed
  cancelled := h.cancelled
  marked p hp := hdisk.cancelled (h.marked p hp)
  started r' hr' := ⟨hdisk.started (h.started r' hr').1, (h.started r' hr').2⟩

/-- A plan that was not cancelled goes to another state. -/
theorem Session.Safe.move {s s' : Session} (h : s.Safe w) {p : String}
    {state : PublishJobState}
    (hstates : stateOf s'.queue.states = Function.update (stateOf s.queue.states) p (some state))
    (hold : stateOf s.queue.states p ≠ some .cancelled) (hstate : state ≠ .cancelled)
    (hexecuted : p ∈ w.executions.map PublishJobRequest.planId → state ≠ .pending)
    (hstarted : ∀ r, s'.worker = .started r → Marked JobFiles.started w.disk r.planId ∧
      r.planId ∉ w.executions.map PublishJobRequest.planId) : s'.Safe w where
  executed p' hp' := by
    rw [hstates, Function.update_apply]
    split
    · next heq =>
      have hpending := hexecuted (heq ▸ hp')
      exact ⟨by simp, fun h => hpending (Option.some.inj h), fun h => hstate (Option.some.inj h)⟩
    · exact h.executed p' hp'
  cancelled p' hp' := by
    have hne : p' ≠ p := fun heq => hold (heq ▸ h.cancelled p' hp')
    rw [hstates, Function.update_of_ne hne]
    exact h.cancelled p' hp'
  marked p' hp' := by
    rw [hstates, Function.update_apply] at hp'
    split at hp'
    · exact absurd (Option.some.inj hp') hstate
    · exact h.marked p' hp'
  started := hstarted

theorem Enqueued.touches {queue : PublishJobQueue} {disk : Disk κ} {r : PublishJobRequest}
    {out : Except Stop Unit × PublishJobQueue × Disk κ} (h : Enqueued host queue disk r out) :
    Touches host r disk out.2.2 := by
  cases h with
  | refused _ _ hdisk => exact hdisk
  | queued _ _ hempty =>
    have hrecorded : Recorded r (disk.files (host.jobRoot r.manifestPath))
        { JobFiles.empty with request := some r } := by
      rw [hempty]
      exact .request rfl
    exact touches_of_recorded hrecorded

/-- Nothing but the disk and the process changes, and the process stays safe. -/
theorem World.Safe.change (h : w.Safe) {r : PublishJobRequest} {disk' : Disk κ}
    (hdisk : Touches host r w.disk disk') (s' : Session)
    (hsafe : s'.Safe { w with disk := disk' })
    (hqueue : Queue.Consistent s'.queue s'.running) :
    World.Safe { w with disk := disk', session := some s' } where
  apart := hdisk.apart h.apart
  once := h.once
  executed p hp := hdisk.started (h.executed p hp)
  cancelled p hp := ⟨hdisk.cancelled (h.cancelled p hp).1, (h.cancelled p hp).2⟩
  consistent s hs := by
    obtain rfl := Option.some.inj hs
    exact hqueue
  session s hs := by
    obtain rfl := Option.some.inj hs
    exact ⟨hsafe.executed, hsafe.cancelled, hsafe.marked, hsafe.started⟩

theorem forall_mem_concat {α : Type} {P : α → Prop} {xs : List α} {x : α}
    (hxs : ∀ y ∈ xs, P y) (hx : P x) : ∀ y ∈ xs ++ [x], P y := by
  intro y hy
  rcases List.mem_append.1 hy with hmem | hmem
  · exact hxs y hmem
  · exact List.mem_singleton.1 hmem ▸ hx

theorem cancelled_safe (h : w.Safe) {s : Session} (hs : w.session = some s) {planId : String}
    {out : Except Stop Unit × PublishJobQueue × Disk κ}
    (hout : CancelEnded host s.queue w.disk planId out) :
    World.Safe { w with
      disk := out.2.2
      session := some { s with queue := out.2.1 }
      cancellations :=
        if out.1 = .ok () then w.cancellations ++ [planId] else w.cancellations } := by
  have hsession := h.session s hs
  have hconsistent := hout.consistent (h.consistent s hs)
  cases hout with
  | refused stop r disk' hdisk =>
    rw [if_neg (by simp)]
    exact h.change hdisk s (hsession.touch hdisk) hconsistent
  | already hstate =>
    rw [if_pos rfl]
    have hnew : planId ∉ w.executions.map PublishJobRequest.planId :=
      fun hp => (hsession.executed _ hp).2.2 hstate
    refine ⟨h.apart, h.once, h.executed,
      forall_mem_concat h.cancelled ⟨hsession.marked _ hstate, hnew⟩, ?_, ?_⟩
    · intro s' hs'
      obtain rfl := Option.some.inj hs'
      exact hconsistent
    · intro s' hs'
      obtain rfl := Option.some.inj hs'
      exact ⟨hsession.executed, forall_mem_concat hsession.cancelled hstate, hsession.marked,
        hsession.started⟩
  | cancelled r snapshot _ hplan hstate hrequest hstarted hsnapshot disk' hdisk hfiles =>
    rw [if_pos rfl]
    have hcancelled : (disk'.files (host.jobRoot r.manifestPath)).cancelled.isSome := by
      rw [hfiles, Function.update_self]
      rfl
    have hnew : planId ∉ w.executions.map PublishJobRequest.planId :=
      fun hp => (hsession.executed _ hp).2.1 hstate
    obtain ⟨persisted, hpersisted, hpersistedPlan⟩ := hrequest
    have hmarked : Marked JobFiles.cancelled disk' planId :=
      ⟨_, persisted, (hdisk.keeps _).request _ hpersisted, hpersistedPlan, hcancelled⟩
    refine ⟨hdisk.apart h.apart, h.once, fun p hp => hdisk.started (h.executed p hp),
      forall_mem_concat (fun p hp => ⟨hdisk.cancelled (h.cancelled p hp).1, (h.cancelled p hp).2⟩)
        ⟨hmarked, hnew⟩, ?_, ?_⟩
    · intro s' hs'
      obtain rfl := Option.some.inj hs'
      exact hconsistent
    · intro s' hs'
      obtain rfl := Option.some.inj hs'
      refine ⟨fun p hp => ?_, forall_mem_concat (fun p hp => ?_) ?_, fun p hp => ?_,
        (hsession.touch hdisk).started⟩
      · have hne : p ≠ planId := fun heq => hnew (heq ▸ hp)
        rw [stateOf_set, Function.update_of_ne hne]
        exact hsession.executed p hp
      · rw [stateOf_set, Function.update_apply, hsnapshot]
        split
        · rfl
        · exact hsession.cancelled p hp
      · rw [stateOf_set, Function.update_self, hsnapshot]
      · rw [stateOf_set, Function.update_apply] at hp
        split at hp
        · next heq => exact heq ▸ hmarked
        · exact hdisk.cancelled (hsession.marked p hp)

theorem step_safe (hlisted : Listed w e) (hstep : step host w e = some w') (h : w.Safe) :
    w'.Safe := by
  have hconsistent := step_consistent hstep h.consistent
  cases step_moved hstep with
  | refused => exact h
  | restarted _ capacity hasReceiptWriter found queue hqueue =>
    refine ⟨h.apart, h.once, h.executed, h.cancelled, hconsistent, fun s hs => ?_⟩
    obtain rfl := Option.some.inj hs
    have hsafe := @restarted_safe _ _ host w h capacity hasReceiptWriter found hlisted queue hqueue
    exact ⟨hsafe.executed, hsafe.cancelled, hsafe.marked, hsafe.started⟩
  | crashed => exact ⟨h.apart, h.once, h.executed, h.cancelled, hconsistent, fun s hs => by cases hs⟩
  | enqueued s hs r writing out hout =>
    have henqueued : Enqueued host s.queue w.disk r out :=
      hout ▸ tryEnqueue_enqueued writing s.queue w.disk r
    have hdisk := henqueued.touches
    have hsession := (h.session s hs).touch hdisk
    refine h.change hdisk _ ?_ (hconsistent _ rfl)
    cases henqueued with
    | refused => exact hsession
    | queued _ hnew _ =>
      have hnone : stateOf s.queue.states r.planId = none := by simp [stateOf, hnew]
      refine hsession.move (stateOf_set _ _ _) ?_ (by simp)
        (fun hp => absurd hnone (hsession.executed _ hp).1) hsession.started
      rw [hnone]
      simp
  | cancelled s hs planId manifestSha256 reading existingReading writing out hout =>
    exact cancelled_safe h hs (hout ▸ tryCancelPending_ended reading existingReading writing
      s.queue w.disk planId manifestSha256)
  | started queue hasReceiptWriter hs reading writing out hout =>
    have hended : StartEnded host queue w.disk out :=
      hout ▸ tryStartNext_ended reading writing queue w.disk
    have hqueue := h.consistent _ hs
    have hpop {r : PublishJobRequest} {pending : List PublishJobRequest}
        (hpending : queue.pending = r :: pending) :
        stateOf queue.states r.planId = some .pending := by
      have hlisted := hqueue.pending
      rw [hpending, List.map_cons] at hlisted
      exact (hlisted.mem _).1 List.mem_cons_self
    cases hended with
    | refused stop r disk' hdisk =>
      have hsession := (h.session _ hs).touch hdisk
      exact h.change hdisk _ ⟨hsession.executed, hsession.cancelled, hsession.marked, fun _ h => by cases h⟩
        (hconsistent _ rfl)
    | failed r pending hpending error disk' hdisk =>
      have hsession := (h.session _ hs).touch hdisk
      obtain ⟨snapshot, hget, _⟩ := Option.map_eq_some_iff.1 (hpop hpending)
      have hstates := @setState_states { queue with pending } _ _ _ rfl hget .failed
        fun _ => some error
      refine h.change hdisk _ (hsession.move hstates ?_ (by simp) (fun _ => by simp)
        fun _ h => by cases h)
        (hconsistent _ rfl)
      rw [hpop hpending]
      simp
    | started r pending hpending files' hstarted =>
      obtain ⟨persisted, hpersisted, hplan⟩ := hstarted.request
      have hrecorded : Recorded r (w.disk.files (host.jobRoot r.manifestPath)) files' :=
        hstarted.written ▸ .started persisted hpersisted hplan hstarted.cancelled
          hstarted.receipt hstarted.started
      have hdisk := touches_of_recorded hrecorded
      have hsession := (h.session _ hs).touch hdisk
      obtain ⟨snapshot, hget, _⟩ := Option.map_eq_some_iff.1 (hpop hpending)
      have hstates := @setState_states { queue with pending } _ _ _ rfl hget .running id
      have hold : stateOf queue.states r.planId ≠ some .cancelled := by
        rw [hpop hpending]
        simp
      refine h.change hdisk _ (hsession.move hstates hold (by simp) (fun _ => by simp) ?_)
        (hconsistent _ rfl)
      intro r' hr'
      obtain rfl := Worker.started.inj hr'
      refine ⟨⟨host.jobRoot r.manifestPath, persisted, (hdisk.keeps _).request _ hpersisted, hplan,
        ?_⟩, fun hp => ((h.session _ hs).executed _ hp).2.1 (hpop hpending)⟩
      rw [files_set, Function.update_self, hstarted.written]
      rfl
  | executing queue r hasReceiptWriter hs =>
    have hsession := h.session _ hs
    obtain ⟨hmarked, hnew⟩ := hsession.started r rfl
    have hrunning : stateOf queue.states r.planId = some .running :=
      ((h.consistent _ hs).running.mem _).1 (by simp [Session.running, Worker.request?])
    refine ⟨h.apart, ?_, ?_, ?_, hconsistent, ?_⟩
    · rw [List.map_append]
      refine List.nodup_append.2 ⟨h.once, List.nodup_singleton _, fun p hp q hq heq => ?_⟩
      exact hnew (List.mem_singleton.1 hq ▸ heq ▸ hp)
    · rw [List.map_append]
      exact forall_mem_concat h.executed hmarked
    · intro p hp
      refine ⟨(h.cancelled p hp).1, ?_⟩
      rw [List.map_append, List.mem_append, not_or]
      refine ⟨(h.cancelled p hp).2, fun hmem => ?_⟩
      have hcancelled := hsession.cancelled p hp
      rw [List.mem_singleton.1 hmem, hrunning] at hcancelled
      cases hcancelled
    · intro s hs'
      obtain rfl := Option.some.inj hs'
      refine ⟨?_, hsession.cancelled, hsession.marked, fun _ h => by cases h⟩
      rw [List.map_append]
      refine forall_mem_concat hsession.executed ?_
      rw [hrunning]
      exact ⟨by simp, by simp, by simp⟩
  | executed queue r hasReceiptWriter hs execution =>
    have hsession := h.session _ hs
    refine ⟨h.apart, h.once, h.executed, h.cancelled, hconsistent, fun s hs' => ?_⟩
    obtain rfl := Option.some.inj hs'
    exact ⟨hsession.executed, hsession.cancelled, hsession.marked, fun _ h => by cases h⟩
  | written queue r execution hs turn out hout =>
    have hdisk : Touches host r w.disk (w.disk.set (host.jobRoot r.manifestPath) out.2) :=
      touches_of_recorded (hout ▸ writeReceipt_recorded turn _ r execution)
    have hsession := (h.session _ hs).touch hdisk
    exact h.change hdisk _ ⟨hsession.executed, hsession.cancelled, hsession.marked, fun _ h => by cases h⟩
      (hconsistent _ rfl)
  | unwritten queue r execution hs turn =>
    have hsession := h.session _ hs
    refine ⟨h.apart, h.once, h.executed, h.cancelled, hconsistent, fun s hs' => ?_⟩
    obtain rfl := Option.some.inj hs'
    exact ⟨hsession.executed, hsession.cancelled, hsession.marked, fun _ h => by cases h⟩
  | completed queue r execution hasReceiptWriter hs =>
    have hsession := h.session _ hs
    have hrunning : stateOf queue.states r.planId = some .running :=
      ((h.consistent _ hs).running.mem _).1 (by simp [Session.running, Worker.request?])
    obtain ⟨snapshot, hget, hstate⟩ := Option.map_eq_some_iff.1 hrunning
    have hold : stateOf queue.states r.planId ≠ some .cancelled := by
      rw [hrunning]
      simp
    have hends : (if execution.succeeded then PublishJobState.succeeded else .failed) ≠ .cancelled ∧
        (if execution.succeeded then PublishJobState.succeeded else .failed) ≠ .pending := by
      cases execution.succeeded
      · decide
      · decide
    have hmoved : (Session.mk (complete queue r.planId execution.succeeded execution.error).2 .idle
        hasReceiptWriter).Safe w := by
      refine hsession.move ?_ hold hends.1 (fun _ => hends.2) fun _ h => by cases h
      rw [complete, hget]
      dsimp only
      rw [if_pos hstate]
      exact stateOf_set _ _ _
    refine ⟨h.apart, h.once, h.executed, h.cancelled, hconsistent, fun s hs' => ?_⟩
    obtain rfl := Option.some.inj hs'
    exact ⟨hmoved.executed, hmoved.cancelled, hmoved.marked, fun _ h => by cases h⟩

/-- From an empty workspace on, each plan goes to the executor at most once and never after a
cancellation that was reported, no directory has both records, and what was started without an
end is recovered as failed. -/
theorem executed_at_most_once
    (hreach : Runs.Reaches (step host) Listed (World.start (.empty : Disk κ)) w) :
    (w.executions.map PublishJobRequest.planId).Nodup ∧
      (∀ root, ¬((w.disk.files root).started.isSome ∧ (w.disk.files root).cancelled.isSome)) ∧
      (∀ p ∈ w.cancellations, p ∉ w.executions.map PublishJobRequest.planId) ∧
      ∀ capacity found queue, Enumerates w.disk found →
        newQueue host capacity w.disk found = .ok queue →
        ∀ root r, (w.disk.files root).request = some r →
          (w.disk.files root).started.isSome → (w.disk.files root).receipt = none →
          r.planId ∉ queue.pending.map PublishJobRequest.planId ∧
            queue.states.get r.planId = some ⟨r.planId, .failed, some "job_interrupted"⟩ := by
  have hsafe : w.Safe := Runs.invariant_of_reaches World.Safe.init
    (fun _ _ _ h hlisted hstep => step_safe hlisted hstep h) hreach
  refine ⟨hsafe.once, ?_, fun p hp => (hsafe.cancelled p hp).2, ?_⟩
  · rintro root ⟨hstarted, hcancelled⟩
    rcases hsafe.apart root with hnone | hnone
    · rw [hnone] at hstarted
      cases hstarted
    · rw [hnone] at hcancelled
      cases hcancelled
  · intro capacity found queue hfound hqueue root r hrequest hstarted hreceipt
    obtain ⟨recovery, hrecovers, _, _, hpending, hstates, _⟩ := newQueue_ok hqueue
    have hcancelled : (w.disk.files root).cancelled = none := by
      rcases hsafe.apart root with hnone | hnone
      · rw [hnone] at hstarted
        cases hstarted
      · exact hnone
    obtain ⟨started, hsome⟩ := Option.isSome_iff_exists.1 hstarted
    have hget := (hrecovers.found root (hfound.mem hrequest) r hrequest).2
    rw [JobFiles.snapshot, hcancelled, hreceipt, hsome] at hget
    refine ⟨?_, hstates ▸ hget⟩
    rw [hpending, hrecovers.listed.mem, stateOf, hget]
    simp

end Safety

section Example

/-- A job is started, the process ends before the receipt, and the next one finds the job again;
the cancellation of another job is reported. -/
def crashedRun : List (Event String) :=
  let readings : JobReadings := ⟨.intact, .intact, .intact, none⟩
  [.restart 2 true [], .enqueue (request "a") .done, .enqueue (request "b") .done,
    .startNext .intact .done, .execute, .crash,
    .restart 2 true [("a/manifest.json", readings), ("b/manifest.json", readings)],
    .cancel (some "b") (some "00") .intact .intact .done]

theorem executed_at_most_once_crashed : ∃ w : World String,
    w.executions.length = 1 ∧ w.cancellations = ["b"] ∧
      (w.executions.map PublishJobRequest.planId).Nodup ∧
      ∀ p ∈ w.cancellations, p ∉ w.executions.map PublishJobRequest.planId := by
  obtain ⟨w, hreach, hw⟩ := Runs.exists_reaches_of_run (step plainHost) Listed
    (World.start .empty) crashedRun
    (fun w => decide (w.executions.length = 1 ∧ w.cancellations = ["b"]))
    (by decide +kernel) (by decide +kernel)
  rw [decide_eq_true_eq] at hw
  obtain ⟨honce, _, hcancelled, _⟩ := executed_at_most_once hreach
  exact ⟨w, hw.1, hw.2, honce, hcancelled⟩

end Example

end CadPlot.Publish.Queue
