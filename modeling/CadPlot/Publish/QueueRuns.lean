import CadPlot.Publish.QueueLaws

/-!
# Runs of the publish queue

In memory the pending requests are those of the plans in state `Pending`, and the
plan in state `Running` is that of the worker.
-/

namespace CadPlot.Publish.Queue

/-- The list of the pending requests, the states and what the worker runs agree. -/
structure Consistent (queue : PublishJobQueue) (running : Option String) : Prop where
  capacity : 1 ≤ queue.capacity ∧ queue.capacity ≤ 1000
  room : queue.pending.length ≤ queue.capacity
  recovered : queue.recoveredOnStartup ≤ queue.capacity
  pending : Lists (queue.pending.map PublishJobRequest.planId) (stateOf queue.states) .pending
  running : Lists running.toList (stateOf queue.states) .running

def Session.running (s : Session) : Option String :=
  s.worker.request?.map PublishJobRequest.planId

section Consistency

variable {κ : Type} [DecidableEq κ] {host : Host κ} {queue queue' : PublishJobQueue}
  {disk disk' : Disk κ} {running : Option String}

theorem newQueue_ok {capacity : Int} {found : List (κ × JobReadings)}
    (h : newQueue host capacity disk found = .ok queue) :
    ∃ recovery, Recovers host disk (found.map Prod.fst) recovery ∧
      recovery.pending.length ≤ queue.capacity ∧ (1 ≤ queue.capacity ∧ queue.capacity ≤ 1000) ∧
      queue.pending = recovery.pending ∧ queue.states = recovery.states ∧
      queue.recoveredOnStartup = recovery.recoveredOnStartup := by
  obtain ⟨hcapacity, h⟩ := ensure_bind_eq_ok.1 h
  obtain ⟨recovery, hrecover, h⟩ := bind_eq_ok.1 h
  obtain rfl := pure_eq_ok.1 h
  obtain ⟨hrecovers, hroom⟩ := recover_recovers hrecover
  rw [decide_eq_true_eq] at hcapacity
  exact ⟨recovery, hrecovers, hroom, by dsimp only; omega, rfl, rfl, rfl⟩

theorem newQueue_consistent {capacity : Int} {found : List (κ × JobReadings)}
    (h : newQueue host capacity disk found = .ok queue) : Consistent queue none := by
  obtain ⟨recovery, hrecovers, hroom, hcapacity, hpending, hstates, hrecovered⟩ := newQueue_ok h
  refine ⟨hcapacity, hpending ▸ hroom, ?_, ?_, ?_⟩
  · rw [hrecovered, hrecovers.recovered]
    exact hroom
  · rw [hpending, hstates]
    exact hrecovers.listed
  · rw [hstates]
    refine .nil fun p hp => ?_
    obtain ⟨snapshot, hget, hstate⟩ := Option.map_eq_some_iff.1 hp
    obtain ⟨root, _, r, _, _, rfl⟩ := hrecovers.states p snapshot hget
    exact snapshot_running hstate

theorem Enqueued.consistent {r : PublishJobRequest}
    {out : Except Stop Unit × PublishJobQueue × Disk κ} (h : Enqueued host queue disk r out)
    (hqueue : Consistent queue running) : Consistent out.2.1 running := by
  cases h with
  | refused => exact hqueue
  | queued hroom hnew _ =>
    have hstate : stateOf queue.states r.planId = none := by simp [stateOf, hnew]
    refine ⟨hqueue.capacity, ?_, hqueue.recovered, ?_, ?_⟩
    · rw [List.length_append]
      exact hroom
    · rw [stateOf_set, List.map_append]
      exact hqueue.pending.append (by simp [hstate])
    · rw [stateOf_set]
      exact hqueue.running.update (by simp [hstate]) (by simp)

theorem CancelEnded.consistent {planId : String}
    {out : Except Stop Unit × PublishJobQueue × Disk κ}
    (h : CancelEnded host queue disk planId out) (hqueue : Consistent queue running) :
    Consistent out.2.1 running := by
  cases h with
  | refused => exact hqueue
  | already => exact hqueue
  | cancelled r snapshot _ _ hstate _ _ hsnapshot disk' _ _ =>
    refine ⟨hqueue.capacity, ?_, hqueue.recovered, ?_, ?_⟩
    · have hlength := congrArg List.length (map_withoutPlan planId queue.pending)
      rw [List.length_map] at hlength
      calc (withoutPlan (some planId) queue.pending).length
          = ((queue.pending.map PublishJobRequest.planId).erase planId).length := hlength
        _ ≤ (queue.pending.map PublishJobRequest.planId).length := List.length_erase_le
        _ = queue.pending.length := List.length_map _
        _ ≤ queue.capacity := hqueue.room
    · rw [stateOf_set, hsnapshot, map_withoutPlan]
      exact hqueue.pending.erase (by decide)
    · rw [stateOf_set, hsnapshot]
      exact hqueue.running.update (by simp [hstate]) (by decide)

/-- The first pending request leaves the list for another state. -/
theorem Consistent.pop (hqueue : Consistent queue none) {r : PublishJobRequest}
    {pending : List PublishJobRequest} (hpending : queue.pending = r :: pending)
    {state : PublishJobState} (hstate : state ≠ .pending)
    (error : Option String → Option String) :
    Consistent ({ queue with pending }.setState r.planId state error)
      (if state = .running then some r.planId else none) := by
  have hlisted := hqueue.pending
  rw [hpending, List.map_cons] at hlisted
  have hold : stateOf queue.states r.planId = some .pending :=
    (hlisted.mem _).1 List.mem_cons_self
  obtain ⟨snapshot, hget, _⟩ := Option.map_eq_some_iff.1 hold
  obtain ⟨hpending', hcapacity', hrecovered'⟩ :=
    @setState_same { queue with pending } r.planId state error
  have hstates :=
    @setState_states { queue with pending } _ _ _ rfl hget state error
  have hroom := hqueue.room
  rw [hpending, List.length_cons] at hroom
  refine ⟨?_, ?_, ?_, ?_, ?_⟩
  · rw [hcapacity']
    exact hqueue.capacity
  · rw [hpending', hcapacity']
    exact Nat.le_of_succ_le hroom
  · rw [hrecovered', hcapacity']
    exact hqueue.recovered
  · rw [hpending', hstates]
    have hrest : Lists ((r.planId :: pending.map PublishJobRequest.planId).erase r.planId)
        (Function.update (stateOf queue.states) r.planId (some state)) .pending :=
      hlisted.erase hstate
    rwa [List.erase_cons_head] at hrest
  · rw [hstates]
    split
    · next hrunning =>
      subst hrunning
      exact hqueue.running.append (by simp [hold])
    · next hrunning => exact hqueue.running.update (by simp [hold]) hrunning

def ranPlan (result : Except Stop PublishJobRequest) : Option String :=
  match result with
  | .ok r => some r.planId
  | .error _ => none

theorem StartEnded.consistent {out : Except Stop PublishJobRequest × PublishJobQueue × Disk κ}
    (h : StartEnded host queue disk out) (hqueue : Consistent queue none) :
    Consistent out.2.1 (ranPlan out.1) := by
  cases h with
  | refused => exact hqueue
  | failed r pending hpending error disk' _ =>
    have hne : PublishJobState.failed ≠ .pending := by decide
    exact hqueue.pop hpending hne fun _ => some error
  | started r pending hpending files' _ =>
    have hne : PublishJobState.running ≠ .pending := by decide
    exact hqueue.pop hpending hne id

theorem complete_consistent {planId : String} (hqueue : Consistent queue (some planId))
    (succeeded : Bool) (error : Option String) :
    Consistent (complete queue planId succeeded error).2 none := by
  have hrunning : stateOf queue.states planId = some .running :=
    (hqueue.running.mem _).1 (by simp)
  obtain ⟨snapshot, hget, hstate⟩ := Option.map_eq_some_iff.1 hrunning
  have hne : (if succeeded then PublishJobState.succeeded else .failed) ≠ .pending ∧
      (if succeeded then PublishJobState.succeeded else .failed) ≠ .running := by
    cases succeeded
    · decide
    · decide
  have hout : Lists [] (Function.update (stateOf queue.states) planId
      (some (if succeeded then PublishJobState.succeeded else .failed))) .running := by
    have herased : Lists ([planId].erase planId) _ _ := hqueue.running.erase hne.2
    rwa [List.erase_cons_head] at herased
  rw [complete, hget]
  dsimp only
  rw [if_pos hstate]
  refine ⟨hqueue.capacity, hqueue.room, hqueue.recovered, ?_, ?_⟩
  · rw [stateOf_set]
    exact hqueue.pending.update (by simp [hrunning]) hne.1
  · rw [stateOf_set]
    exact hout

/-- The queue of a process is consistent, if there is a process. -/
def World.Consistent (w : World κ) : Prop :=
  ∀ s, w.session = some s → Queue.Consistent s.queue s.running

theorem step_consistent {w w' : World κ} {e : Event κ} (hstep : step host w e = some w')
    (h : w.Consistent) : w'.Consistent := by
  intro s' hs'
  cases step_moved hstep with
  | refused => exact h s' hs'
  | restarted _ capacity hasReceiptWriter found queue hqueue =>
    obtain rfl := Option.some.inj hs'
    exact newQueue_consistent hqueue
  | crashed => cases hs'
  | enqueued s hs r writing out hout =>
    obtain rfl := Option.some.inj hs'
    exact (hout ▸ tryEnqueue_enqueued writing s.queue w.disk r).consistent (h s hs)
  | cancelled s hs planId manifestSha256 reading existingReading writing out hout =>
    obtain rfl := Option.some.inj hs'
    exact (hout ▸ tryCancelPending_ended reading existingReading writing s.queue w.disk planId
      manifestSha256).consistent (h s hs)
  | started queue hasReceiptWriter hs reading writing out hout =>
    obtain rfl := Option.some.inj hs'
    have hqueue := (hout ▸ tryStartNext_ended reading writing queue w.disk).consistent (h _ hs)
    obtain ⟨result, queue', disk'⟩ := out
    cases result with
    | ok r => exact hqueue
    | error stop => exact hqueue
  | executing queue r hasReceiptWriter hs =>
    obtain rfl := Option.some.inj hs'
    have hqueue := h _ hs
    exact hqueue
  | executed queue r hasReceiptWriter hs execution =>
    obtain rfl := Option.some.inj hs'
    have hqueue := h _ hs
    exact hqueue
  | written queue r execution hs turn out hout =>
    obtain rfl := Option.some.inj hs'
    have hqueue := h _ hs
    exact hqueue
  | unwritten queue r execution hs turn =>
    obtain rfl := Option.some.inj hs'
    have hqueue := h _ hs
    exact hqueue
  | completed queue r execution hasReceiptWriter hs =>
    obtain rfl := Option.some.inj hs'
    exact complete_consistent (h _ hs) _ _

/-- Whatever is on the disk at first. -/
theorem reaches_consistent {ok : World κ → Event κ → Prop} {disk : Disk κ} {w : World κ}
    (hreach : Runs.Reaches (step host) ok (World.start disk) w) : w.Consistent :=
  Runs.invariant_of_reaches (fun s hs => by cases hs)
    (fun _ _ _ h _ hstep => step_consistent hstep h) hreach

end Consistency

end CadPlot.Publish.Queue
