import CadPlot.Lib.Outcome
import CadPlot.Publish.BatchQueue

/-!
# What comes of a batch

Every approval of a batch is answered once or still deferred. What was reported
queued is accepted once and its record stays, however the plug-in goes on; what
is deferred has left nothing behind.
-/

namespace CadPlot.Publish.BatchQueue

open Gateway (require require_eq_ok require_bind_eq_ok)
open Queue (Host Event Listed PublishJobRequest Writing tryEnqueue stateOf stateOf_set Touches)

/-! ### The queue keeps what it accepted -/

section Grows

variable {κ : Type}

/-- What the queue accepts beyond what it did is what it was asked for. -/
structure Grows (asked : PublishJobRequest → Prop) (l l' : Ledger κ) : Prop where
  grown : ∃ new, l'.accepted = l.accepted ++ new ∧ ∀ r ∈ new, asked r

theorem Grows.refl {asked : PublishJobRequest → Prop} (l : Ledger κ) : Grows asked l l :=
  ⟨[], (List.append_nil _).symm, by simp⟩

theorem Grows.trans {asked : PublishJobRequest → Prop} {l₁ l₂ l₃ : Ledger κ}
    (h₁ : Grows asked l₁ l₂) (h₂ : Grows asked l₂ l₃) : Grows asked l₁ l₃ := by
  obtain ⟨new₁, hnew₁, hasked₁⟩ := h₁.grown
  obtain ⟨new₂, hnew₂, hasked₂⟩ := h₂.grown
  refine ⟨new₁ ++ new₂, by rw [hnew₂, hnew₁, List.append_assoc], fun r hr => ?_⟩
  exact (List.mem_append.1 hr).elim (hasked₁ r) (hasked₂ r)

theorem Grows.mono {asked asked' : PublishJobRequest → Prop} {l l' : Ledger κ}
    (h : Grows asked l l') (hle : ∀ r, asked r → asked' r) : Grows asked' l l' := by
  obtain ⟨new, hnew, hasked⟩ := h.grown
  exact ⟨new, hnew, fun r hr => hle r (hasked r hr)⟩

theorem Grows.mem {asked : PublishJobRequest → Prop} {l l' : Ledger κ} (h : Grows asked l l')
    {r : PublishJobRequest} (hr : r ∈ l.accepted) : r ∈ l'.accepted := by
  obtain ⟨new, hnew, -⟩ := h.grown
  exact hnew ▸ List.mem_append_left _ hr

end Grows

section Kept

variable {κ : Type} [DecidableEq κ] {host : Host κ}

theorem keeps_refl (files : Queue.JobFiles) : Queue.Keeps files files :=
  ⟨fun _ h => h, fun h => h, fun h => h⟩

/-- No step takes a record away. -/
theorem step_keeps {w w' : Queue.World κ} {e : Event κ} (hstep : Queue.step host w e = some w')
    (root : κ) : Queue.Keeps (w.disk.files root) (w'.disk.files root) := by
  cases Queue.step_moved hstep with
  | refused | restarted | crashed | executing | executed | unwritten | completed =>
    exact keeps_refl _
  | enqueued s _ r writing out hout =>
    have henqueued : Queue.Enqueued host s.queue w.disk r out :=
      hout ▸ Queue.tryEnqueue_enqueued writing s.queue w.disk r
    exact henqueued.touches.keeps root
  | cancelled s _ planId manifestSha256 reading existingReading writing out hout =>
    have hended : Queue.CancelEnded host s.queue w.disk (planId.getD "") out :=
      hout ▸ Queue.tryCancelPending_ended reading existingReading writing s.queue w.disk planId
        manifestSha256
    cases hended with
    | refused _ _ _ hdisk => exact hdisk.keeps root
    | already => exact keeps_refl _
    | cancelled _ _ _ _ _ _ _ _ _ hdisk => exact hdisk.keeps root
  | started queue _ _ reading writing out hout =>
    have hended : Queue.StartEnded host queue w.disk out :=
      hout ▸ Queue.tryStartNext_ended reading writing queue w.disk
    cases hended with
    | refused _ _ _ hdisk => exact hdisk.keeps root
    | failed _ _ _ _ _ hdisk => exact hdisk.keeps root
    | started r _ _ files' hstarted =>
      obtain ⟨persisted, hpersisted, hplan⟩ := hstarted.request
      have hrecorded : Queue.Recorded r (w.disk.files (host.jobRoot r.manifestPath)) files' :=
        hstarted.written ▸ .started persisted hpersisted hplan hstarted.cancelled
          hstarted.receipt hstarted.started
      exact (Queue.touches_of_recorded hrecorded).keeps root
  | written _ r execution _ turn out hout =>
    have hdisk : Touches host r w.disk (w.disk.set (host.jobRoot r.manifestPath) out.2) :=
      Queue.touches_of_recorded (hout ▸ Queue.writeReceipt_recorded turn _ r execution)
    exact hdisk.keeps root

/-- The process, if there is one, knows a plan. -/
def Known (w : Queue.World κ) (planId : String) : Prop :=
  ∀ s, w.session = some s → stateOf s.queue.states planId ≠ none

theorem set_known {states : Dict String Queue.PublishJobSnapshot} {p q : String}
    {snapshot : Queue.PublishJobSnapshot} (h : stateOf states p ≠ none) :
    stateOf (states.set q snapshot) p ≠ none := by
  rw [stateOf_set, Function.update_apply]
  split
  · simp
  · exact h

theorem setState_known {queue : Queue.PublishJobQueue} {p q : String}
    {state : Queue.PublishJobState} {error : Option String → Option String}
    (h : stateOf queue.states p ≠ none) :
    stateOf (queue.setState q state error).states p ≠ none := by
  unfold Queue.PublishJobQueue.setState
  split
  · exact set_known h
  · exact h

theorem complete_known {queue : Queue.PublishJobQueue} {p q : String} {succeeded : Bool}
    {error : Option String} (h : stateOf queue.states p ≠ none) :
    stateOf (Queue.complete queue q succeeded error).2.states p ≠ none := by
  unfold Queue.complete
  split
  · split
    · exact set_known h
    · exact h
  · exact h

/-- A plan with a request in the journal stays known: a restart recovers it. -/
theorem step_known {w w' : Queue.World κ} {e : Event κ} (hlisted : Listed w e)
    (hstep : Queue.step host w e = some w') {root : κ} {r : PublishJobRequest}
    (hrequest : (w.disk.files root).request = some r) (h : Known w r.planId) :
    Known w' r.planId := by
  cases Queue.step_moved hstep with
  | refused => exact h
  | restarted _ capacity hasReceiptWriter found queue hqueue =>
    intro s hs
    obtain rfl := Option.some.inj hs
    obtain ⟨recovery, hrecovers, -, -, -, hstates, -⟩ := Queue.newQueue_ok hqueue
    have hfound : Queue.Enumerates w.disk found := hlisted
    have hstate := hrecovers.stateOf hfound hrequest
    rw [← hstates] at hstate
    simp [hstate]
  | crashed =>
    intro s hs
    cases hs
  | enqueued s hs r' writing out hout =>
    have henqueued : Queue.Enqueued host s.queue w.disk r' out :=
      hout ▸ Queue.tryEnqueue_enqueued writing s.queue w.disk r'
    intro s' hs'
    obtain rfl := Option.some.inj hs'
    cases henqueued with
    | refused => exact h s hs
    | queued => exact set_known (h s hs)
  | cancelled s hs planId manifestSha256 reading existingReading writing out hout =>
    have hended : Queue.CancelEnded host s.queue w.disk (planId.getD "") out :=
      hout ▸ Queue.tryCancelPending_ended reading existingReading writing s.queue w.disk planId
        manifestSha256
    intro s' hs'
    obtain rfl := Option.some.inj hs'
    cases hended with
    | refused | already => exact h s hs
    | cancelled => exact set_known (h s hs)
  | started queue hasReceiptWriter hs reading writing out hout =>
    have hended : Queue.StartEnded host queue w.disk out :=
      hout ▸ Queue.tryStartNext_ended reading writing queue w.disk
    intro s' hs'
    obtain rfl := Option.some.inj hs'
    cases hended with
    | refused => exact h _ hs
    | failed => exact setState_known (h _ hs)
    | started => exact setState_known (h _ hs)
  | executing queue r hasReceiptWriter hs | executed queue r hasReceiptWriter hs
  | written queue r execution hs | unwritten queue r execution hs =>
    intro s' hs'
    obtain rfl := Option.some.inj hs'
    have hknown := h _ hs
    exact hknown
  | completed queue r execution hasReceiptWriter hs =>
    intro s' hs'
    obtain rfl := Option.some.inj hs'
    exact complete_known (h _ hs)

/-- What the queue accepted is recorded where it belongs and known, each plan once. -/
structure Kept (host : Host κ) (l : Ledger κ) : Prop where
  safe : l.world.Safe
  recorded : ∀ r ∈ l.accepted,
    (l.world.disk.files (host.jobRoot r.manifestPath)).request = some r
  known : ∀ r ∈ l.accepted, Known l.world r.planId
  once : (l.accepted.map PublishJobRequest.planId).Nodup

def Ledger.start : Ledger κ := ⟨.start .empty, []⟩

theorem kept_start : Kept host (.start : Ledger κ) :=
  ⟨Queue.World.Safe.init, by simp [Ledger.start], by simp [Ledger.start], List.nodup_nil⟩

/-- A request that a step accepts is new to the process and is recorded in an empty directory. -/
structure Accepts (host : Host κ) (w w' : Queue.World κ) (r : PublishJobRequest) : Prop where
  fresh : ¬Known w r.planId
  recorded : (w'.disk.files (host.jobRoot r.manifestPath)).request = some r
  known : Known w' r.planId

theorem acceptedBy_step {w w' : Queue.World κ} {e : Event κ}
    (hstep : Queue.step host w e = some w') :
    acceptedBy host w e = [] ∨
      ∃ r writing, e = .enqueue r writing ∧ acceptedBy host w e = [r] ∧ Accepts host w w' r := by
  cases e with
  | enqueue r writing =>
    obtain ⟨s, hs, rfl⟩ := Option.map_eq_some_iff.1 hstep
    by_cases hok : (tryEnqueue host writing s.queue w.disk r).1 = .ok ()
    · refine .inr ⟨r, writing, rfl, by simp [acceptedBy, hs, hok], ?_⟩
      have henqueued : Queue.Enqueued host s.queue w.disk r
          (tryEnqueue host writing s.queue w.disk r) := Queue.tryEnqueue_enqueued writing _ _ r
      revert hok henqueued
      generalize tryEnqueue host writing s.queue w.disk r = out
      intro hok henqueued
      cases henqueued with
      | refused => cases hok
      | queued _ hnew _ =>
        refine ⟨fun hknown => ?_, ?_, fun s' hs' => ?_⟩
        · exact hknown s hs (by simp [stateOf, hnew])
        · rw [Queue.files_set, Function.update_self]
        · obtain rfl := Option.some.inj hs'
          rw [stateOf_set, Function.update_self]
          simp
    · exact .inl (by simp [acceptedBy, hs, hok])
  | _ => exact .inl rfl

theorem step_kept {l l' : Ledger κ} {e : Event κ} (hlisted : Listed l.world e)
    (hstep : l.step host e = some l') (h : Kept host l) : Kept host l' := by
  obtain ⟨w', hw', rfl⟩ := Option.map_eq_some_iff.1 hstep
  have hsafe := Queue.step_safe hlisted hw' h.safe
  have hrecorded (r : PublishJobRequest) (hr : r ∈ l.accepted) :=
    (step_keeps hw' (host.jobRoot r.manifestPath)).request r (h.recorded r hr)
  have hknown (r : PublishJobRequest) (hr : r ∈ l.accepted) :=
    step_known hlisted hw' (h.recorded r hr) (h.known r hr)
  rcases acceptedBy_step hw' with hnone | ⟨r, writing, -, hone, haccepts⟩
  · rw [hnone, List.append_nil]
    exact ⟨hsafe, hrecorded, hknown, h.once⟩
  · rw [hone]
    refine ⟨hsafe, Queue.forall_mem_concat hrecorded haccepts.recorded,
      Queue.forall_mem_concat hknown haccepts.known, ?_⟩
    rw [List.map_append]
    refine List.nodup_append.2 ⟨h.once, List.nodup_singleton _, fun p hp q hq heq => ?_⟩
    obtain ⟨r', hr', rfl⟩ := List.mem_map.1 hp
    have hq : r'.planId = r.planId := heq.trans (List.mem_singleton.1 hq)
    exact haccepts.fresh (hq ▸ h.known r' hr')

theorem next_kept {l : Ledger κ} (e : Event κ) (h : Kept host l) : Kept host (l.next host e) := by
  unfold Ledger.next
  split
  · next hlisted =>
    cases hstep : l.step host e with
    | none => exact h
    | some l' => exact step_kept hlisted hstep h
  · exact h

theorem replay_kept {l : Ledger κ} (events : List (Event κ)) (h : Kept host l) :
    Kept host (l.replay host events) := by
  unfold Ledger.replay
  induction events generalizing l with
  | nil => exact h
  | cons e events ih => exact ih (next_kept e h)

theorem next_grows (l : Ledger κ) (e : Event κ) :
    Grows (fun r => ∃ writing, e = .enqueue r writing) l (l.next host e) := by
  unfold Ledger.next
  split
  · cases hstep : l.step host e with
    | none => exact .refl l
    | some l' =>
      obtain ⟨w', hw', rfl⟩ := Option.map_eq_some_iff.1 hstep
      refine ⟨acceptedBy host l.world e, rfl, fun r hr => ?_⟩
      rcases acceptedBy_step hw' with hnone | ⟨r', writing, he, hone, -⟩
      · rw [hnone] at hr
        cases hr
      · rw [hone] at hr
        exact ⟨writing, List.mem_singleton.1 hr ▸ he⟩
  · exact .refl l

theorem replay_grows (l : Ledger κ) (events : List (Event κ)) :
    Grows (fun r => ∃ writing, .enqueue r writing ∈ events) l (l.replay host events) := by
  unfold Ledger.replay
  induction events generalizing l with
  | nil => exact .refl l
  | cons e events ih =>
    refine .trans ((next_grows l e).mono fun r h => ?_) ((ih _).mono fun r h => ?_)
    · obtain ⟨writing, rfl⟩ := h
      exact ⟨writing, List.mem_cons_self⟩
    · obtain ⟨writing, h⟩ := h
      exact ⟨writing, List.mem_cons_of_mem _ h⟩

end Kept

/-! ### One call -/

section Call

variable {κ : Type} [DecidableEq κ] {host : Host κ}

/-- A request is the one that was approved. -/
structure Matches (approval : QueueApproval) (r : PublishJobRequest) : Prop where
  planId : r.planId = approval.planId
  manifestSha256 : r.manifestSha256 = approval.manifestSha256

theorem recordPending_ne_full (writing : Writing) (files : Queue.JobFiles)
    (r : PublishJobRequest) :
    (Queue.recordPending writing files r).1 ≠ .error (.refused "queue_full") := by
  unfold Queue.recordPending
  split
  · simp
  · split
    · simp
    · unfold Queue.writeAtomicCreate
      split <;> simp

/-- A full queue leaves everything as it was. -/
theorem tryEnqueue_full {writing : Writing} {queue : Queue.PublishJobQueue} {disk : Queue.Disk κ}
    {r : PublishJobRequest} {out : Except Queue.Stop Unit × Queue.PublishJobQueue × Queue.Disk κ}
    (hout : tryEnqueue host writing queue disk r = out)
    (h : out.1 = .error (.refused "queue_full")) : out.2 = (queue, disk) := by
  subst hout
  unfold tryEnqueue at h ⊢
  split
  · rfl
  · next hroom =>
    rw [if_neg hroom] at h
    split
    · rfl
    · next hnew =>
      rw [if_neg hnew] at h
      split at h
      · next stop disk' hrecord =>
        have hstop : stop = .refused "queue_full" := by simpa using h
        have hfirst := congrArg Prod.fst hrecord
        rw [hstop] at hfirst
        exact absurd hfirst (recordPending_ne_full _ _ _)
      · cases h

theorem next_enqueue {l : Ledger κ} {s : Queue.Session} (hs : l.world.session = some s)
    (r : PublishJobRequest) (writing : Writing) :
    l.next host (.enqueue r writing) =
      ⟨{ l.world with
          disk := (tryEnqueue host writing s.queue l.world.disk r).2.2
          session := some { s with
            queue := (tryEnqueue host writing s.queue l.world.disk r).2.1 } },
        l.accepted ++ acceptedBy host l.world (.enqueue r writing)⟩ := by
  simp [Ledger.next, Listed, Ledger.step, Queue.step, Queue.World.withSession, hs]

/-- What a call comes to. -/
structure Called (host : Host κ) (approval : QueueApproval) (l : Ledger κ)
    (out : Fields × Ledger κ) : Prop where
  kept : Kept host l → Kept host out.2
  grows : Grows (Matches approval) l out.2
  queued : isTrue out.1 "queued" = true → ∃ r ∈ out.2.accepted, Matches approval r
  deferred : isTrue out.1 "deferred" = false
  full : isQueueFull out.1 = true → out.2 = l

theorem isTrue_refusal (planId : Option String) (error : String) :
    isTrue (refusal planId error) "queued" = false ∧
      isTrue (refusal planId error) "deferred" = false := by
  cases planId <;> simp [refusal, isTrue, Dict.lookup]

theorem called_refusal (approval : QueueApproval) (l : Ledger κ) (planId : Option String)
    (error : String) : Called host approval l (refusal planId error, l) := by
  obtain ⟨hqueued, hdeferred⟩ := isTrue_refusal planId error
  exact ⟨id, .refl l, fun h => by simp [hqueued] at h, hdeferred, fun _ => rfl⟩

theorem isQueueFull_answer {request : PublishJobRequest} {lost : Option String}
    {result : Except Queue.Stop Unit} (hlost : lost ≠ some "queue_full")
    (h : isQueueFull (answer request lost result) = true) :
    result = .error (.refused "queue_full") := by
  cases lost with
  | some error =>
    have herror : error = "queue_full" := by
      simpa [answer, refusal, isQueueFull, errorOf, Dict.lookup] using h
    exact absurd (congrArg some herror) hlost
  | none =>
    cases result with
    | ok => simp [answer, isQueueFull, errorOf, Dict.lookup] at h
    | error stop =>
      cases stop with
      | raised => simp [answer, refusal, isQueueFull, errorOf, Dict.lookup] at h
      | refused error =>
        have herror : error = "queue_full" := by
          simpa [answer, isQueueFull, errorOf, Dict.lookup] using h
        rw [herror]

theorem isTrue_answer (request : PublishJobRequest) (lost : Option String)
    (result : Except Queue.Stop Unit) :
    isTrue (answer request lost result) "deferred" = false ∧
      (isTrue (answer request lost result) "queued" = true → result = .ok ()) := by
  cases lost with
  | some error =>
    obtain ⟨hqueued, hdeferred⟩ := isTrue_refusal none error
    exact ⟨hdeferred, fun h => by simp [answer, hqueued] at h⟩
  | none =>
    cases result with
    | ok => simp [answer, isTrue, Dict.lookup]
    | error stop => cases stop <;> simp [answer, refusal, isTrue, Dict.lookup]

/-- A call that reaches the queue. -/
theorem enqueue_called {approval : QueueApproval} {request : PublishJobRequest} {l : Ledger κ}
    {s : Queue.Session} {lost : Option String} (hlost : lost ≠ some "queue_full")
    (hmatches : Matches approval request) (hs : l.world.session = some s) (writing : Writing) :
    Called host approval l
      (answer request lost (tryEnqueue host writing s.queue l.world.disk request).1,
        l.next host (.enqueue request writing)) where
  kept h := next_kept (.enqueue request writing) h
  grows := (next_grows l _).mono fun r h => by
    obtain ⟨other, hother⟩ := h
    obtain ⟨rfl, -⟩ := Event.enqueue.inj hother
    exact hmatches
  queued h := by
    have hok := (isTrue_answer _ _ _).2 h
    refine ⟨request, ?_, hmatches⟩
    rw [next_enqueue hs]
    simp [acceptedBy, hs, hok]
  deferred := (isTrue_answer _ _ _).1
  full h := by
    have hfull := isQueueFull_answer hlost h
    have hsame := tryEnqueue_full rfl hfull
    rw [next_enqueue hs]
    have hnone : acceptedBy host l.world (.enqueue request writing) = [] := by
      simp [acceptedBy, hs, hfull]
    rw [hnone, hsame, List.append_nil]
    show (⟨{ l.world with session := some s }, l.accepted⟩ : Ledger κ) = l
    rw [← hs]

theorem queuePublishJob_called {turn : Turn} (hplain : turn.Plain) (approval : QueueApproval)
    (l : Ledger κ) : Called host approval l (queuePublishJob host approval turn l) := by
  cases turn with
  | unsent planId error => exact called_refusal approval l planId error
  | sent request invalid writing lost =>
    unfold queuePublishJob
    dsimp only
    split
    · exact called_refusal approval l none _
    · next hplan =>
      split
      · exact called_refusal approval l none _
      · next hmanifest =>
        have hmatches : Matches approval request :=
          ⟨(not_not.1 hplan).symm, (not_not.1 hmanifest).symm⟩
        cases hs : l.world.session with
        | none => exact called_refusal approval l none _
        | some s =>
          cases invalid with
          | some error =>
            have hanswer := isTrue_answer request lost (.error (.refused error))
            exact ⟨id, .refl l, (fun h => nomatch hanswer.2 h), hanswer.1, fun _ => rfl⟩
          | none =>
            exact enqueue_called hplain hmatches hs writing

end Call

/-! ### Batches -/

section Asked

variable {κ : Type}

/-- A request that somebody else puts in, or one of an answered approval. -/
def Asked (slots : List (Slot κ)) (answered : List QueueItem) (r : PublishJobRequest) : Prop :=
  (∃ slot ∈ slots, ∃ writing, .enqueue r writing ∈ slot.before) ∨
    ∃ item ∈ answered, Matches item.approval r

theorem Asked.mono {slots slots' : List (Slot κ)} {answered answered' : List QueueItem}
    {r : PublishJobRequest} (h : Asked slots answered r) (hslots : slots ⊆ slots')
    (hanswered : answered ⊆ answered') : Asked slots' answered' r := by
  rcases h with ⟨slot, hslot, hevent⟩ | ⟨item, hitem, hmatches⟩
  · exact .inl ⟨slot, hslots hslot, hevent⟩
  · exact .inr ⟨item, hanswered hitem, hmatches⟩

end Asked

section Batches

variable {κ : Type} [DecidableEq κ] {host : Host κ}

/-- What comes of some calls that were answered, over a schedule. -/
structure Comes (host : Host κ) (slots : List (Slot κ)) (l : Ledger κ)
    (answered : List QueueItem) (l' : Ledger κ) : Prop where
  kept : Kept host l → Kept host l'
  grows : Grows (Asked slots answered) l l'
  queued : ∀ item ∈ answered, item.queued = true → ∃ r ∈ l'.accepted, Matches item.approval r

theorem Comes.nothing (slots : List (Slot κ)) (l : Ledger κ) : Comes host slots l [] l :=
  ⟨id, .refl l, by simp⟩

theorem Comes.append {slots slots' : List (Slot κ)} {l₁ l₂ l₃ : Ledger κ}
    {answered answered' : List QueueItem} (h : Comes host slots l₁ answered l₂)
    (h' : Comes host slots' l₂ answered' l₃) (hslots : slots' ⊆ slots) :
    Comes host slots l₁ (answered ++ answered') l₃ where
  kept hkept := h'.kept (h.kept hkept)
  grows := (h.grows.mono fun _ hasked => hasked.mono (List.Subset.refl _)
    (List.subset_append_left _ _)).trans
      (h'.grows.mono fun _ hasked => hasked.mono hslots (List.subset_append_right _ _))
  queued item hitem hqueued := by
    rcases List.mem_append.1 hitem with hitem | hitem
    · obtain ⟨r, hr, hmatches⟩ := h.queued item hitem hqueued
      exact ⟨r, h'.grows.mem hr, hmatches⟩
    · exact h'.queued item hitem hqueued

/-- A call of the builder: it is answered, or the queue is full and nothing came of it. -/
theorem callPlugin_comes (approval : QueueApproval) (l : Ledger κ) {slots : List (Slot κ)}
    (hplain : ∀ slot ∈ slots, slot.turn.Plain) {response : Except String Json} {l' : Ledger κ}
    {slots' : List (Slot κ)}
    (h : callPlugin host approval (l, slots) = (response, (l', slots'))) :
    slots' ⊆ slots ∧ (isQueueFull (queueResult response) = true → Comes host slots l [] l') ∧
      (isQueueFull (queueResult response) = false →
        isTrue (queueResult response) "deferred" = false ∧
          Comes host slots l [⟨approval, queueResult response⟩] l') := by
  cases slots with
  | nil =>
    simp only [callPlugin, Prod.mk.injEq] at h
    obtain ⟨rfl, rfl, rfl⟩ := h
    refine ⟨List.Subset.refl _, fun _ => .nothing _ _, fun _ => ⟨rfl, id, .refl l, ?_⟩⟩
    intro item hitem hqueued
    obtain rfl := List.mem_singleton.1 hitem
    cases hqueued
  | cons slot slots =>
    have hcalled : Called host approval (l.replay host slot.before)
        (queuePublishJob host approval slot.turn (l.replay host slot.before)) :=
      queuePublishJob_called (hplain slot List.mem_cons_self) approval _
    simp only [callPlugin, Prod.mk.injEq] at h
    generalize queuePublishJob host approval slot.turn (l.replay host slot.before) = out
      at h hcalled
    obtain ⟨rfl, rfl, rfl⟩ := h
    have hreplay (answered : List QueueItem) :
        Grows (Asked (slot :: slots) answered) l (l.replay host slot.before) :=
      (replay_grows l slot.before).mono fun r hasked => .inl ⟨slot, List.mem_cons_self, hasked⟩
    refine ⟨List.subset_cons_self _ _, fun hfull => ?_, fun _ => ⟨hcalled.deferred, ?_⟩⟩
    · rw [hcalled.full hfull]
      exact ⟨replay_kept _, hreplay _, by simp⟩
    · refine ⟨fun hkept => hcalled.kept (replay_kept _ hkept), (hreplay _).trans
        (hcalled.grows.mono fun r hmatches => .inr ⟨_, List.mem_singleton_self _, hmatches⟩), ?_⟩
      intro item hitem hqueued
      obtain rfl := List.mem_singleton.1 hitem
      exact hcalled.queued hqueued

/-- Behind a full queue everything is deferred. -/
theorem queueEach_full {σ : Type} (builder : QueueApproval → σ → Except String Json × σ)
    (approvals : List QueueApproval) (s : σ) :
    queueEach builder true approvals s = (approvals.map (⟨·, deferredFields⟩), s) := by
  induction approvals generalizing s with
  | nil => rfl
  | cons approval approvals ih => rw [queueEach, ih, List.map_cons]

theorem isTrue_deferResult (result : Fields) : isTrue (deferResult result) "deferred" = true := by
  simp [deferResult, deferredFields, isTrue, Dict.lookup_put]

/-- A batch: first what was answered, and behind it what is deferred. -/
theorem queueEach_comes (approvals : List QueueApproval) {l : Ledger κ} {slots : List (Slot κ)}
    (hplain : ∀ slot ∈ slots, slot.turn.Plain) {items : List QueueItem} {l' : Ledger κ}
    {slots' : List (Slot κ)}
    (h : queueEach (callPlugin host) false approvals (l, slots) = (items, (l', slots'))) :
    ∃ answered deferred, items = answered ++ deferred ∧
      (∀ item ∈ answered, item.deferred = false) ∧ (∀ item ∈ deferred, item.deferred = true) ∧
      items.map QueueItem.approval = approvals ∧ slots' ⊆ slots ∧
      Comes host slots l answered l' := by
  induction approvals generalizing l slots items with
  | nil =>
    simp only [queueEach, Prod.mk.injEq] at h
    obtain ⟨rfl, rfl, rfl⟩ := h
    exact ⟨[], [], rfl, by simp, by simp, rfl, List.Subset.refl _, .nothing _ _⟩
  | cons approval approvals ih =>
    rcases hcall : callPlugin host approval (l, slots) with ⟨response, l₁, slots₁⟩
    obtain ⟨hslots, hfull, hanswered⟩ := callPlugin_comes approval l hplain hcall
    simp only [queueEach, hcall] at h
    split at h
    · next hsaturated =>
      simp only [queueEach_full, Prod.mk.injEq] at h
      obtain ⟨rfl, rfl, rfl⟩ := h
      refine ⟨[], _, rfl, by simp, ?_, ?_, hslots, hfull hsaturated⟩
      · refine List.forall_mem_cons.2 ⟨isTrue_deferResult _, fun item hitem => ?_⟩
        obtain ⟨_, -, rfl⟩ := List.mem_map.1 hitem
        rfl
      · simp [Function.comp_def]
    · next hroom =>
      rcases hrest : queueEach (callPlugin host) false approvals (l₁, slots₁) with
        ⟨items₂, l₂, slots₂⟩
      simp only [hrest, Prod.mk.injEq] at h
      obtain ⟨rfl, rfl, rfl⟩ := h
      obtain ⟨hdeferred, hcomes⟩ := hanswered (by simpa using hroom)
      obtain ⟨answered, deferred, rfl, hall, hlate, happrovals, hslots₂, hcomes₂⟩ :=
        ih (fun slot hslot => hplain slot (hslots hslot)) hrest
      refine ⟨⟨approval, queueResult response⟩ :: answered, deferred, rfl,
        List.forall_mem_cons.2 ⟨hdeferred, hall⟩, hlate, by simp [happrovals],
        List.Subset.trans hslots₂ hslots, hcomes.append hcomes₂ hslots⟩

/-- The batches of a client: every approval is answered once, in its order, or still deferred. -/
theorem settle_comes (sha256 : List UInt8 → List UInt8) (pathKey : String → List Char) (n : Nat)
    (approvals : List QueueApproval) {l : Ledger κ} {slots : List (Slot κ)}
    (hplain : ∀ slot ∈ slots, slot.turn.Plain) {answered : List QueueItem}
    {pending : List QueueApproval} {l' : Ledger κ} {slots' : List (Slot κ)}
    (h : settle host sha256 pathKey n approvals (l, slots) = (answered, pending, (l', slots'))) :
    answered.map QueueItem.approval ++ pending = approvals ∧ slots' ⊆ slots ∧
      Comes host slots l answered l' := by
  induction n generalizing approvals l slots answered with
  | zero =>
    simp only [settle, Prod.mk.injEq] at h
    obtain ⟨rfl, rfl, rfl, rfl⟩ := h
    exact ⟨rfl, List.Subset.refl _, .nothing _ _⟩
  | succ n ih =>
    simp only [settle, queueApprovedBatch] at h
    cases hvalid : validateQueueApprovals pathKey approvals with
    | error error =>
      simp only [hvalid, Prod.mk.injEq] at h
      obtain ⟨rfl, rfl, rfl, rfl⟩ := h
      exact ⟨rfl, List.Subset.refl _, .nothing _ _⟩
    | ok =>
      rcases hbatch : queueEach (callPlugin host) false approvals (l, slots) with
        ⟨items, l₁, slots₁⟩
      obtain ⟨answered₁, deferred, rfl, hall, hlate, happrovals, hslots, hcomes⟩ :=
        queueEach_comes approvals hplain hbatch
      have hkept : (answered₁ ++ deferred).filter (!·.deferred) = answered₁ := by
        rw [List.filter_append, List.filter_eq_self.2 (by simpa using hall),
          List.filter_eq_nil_iff.2 (by simpa using hlate), List.append_nil]
      have hlast : (answered₁ ++ deferred).filter QueueItem.deferred = deferred := by
        rw [List.filter_append, List.filter_eq_nil_iff.2 (by simpa using hall),
          List.filter_eq_self.2 hlate, List.nil_append]
      simp only [hvalid, hbatch, reportOf, hkept, hlast] at h
      rcases hrest : settle host sha256 pathKey n (deferred.map QueueItem.approval)
        (l₁, slots₁) with ⟨answered₂, pending₂, l₂, slots₂⟩
      simp only [hrest, Prod.mk.injEq] at h
      obtain ⟨rfl, rfl, rfl, rfl⟩ := h
      obtain ⟨hpending, hslots₂, hcomes₂⟩ :=
        ih _ (fun slot hslot => hplain slot (hslots hslot)) hrest
      refine ⟨?_, List.Subset.trans hslots₂ hslots, hcomes.append hcomes₂ hslots⟩
      rw [List.map_append, List.append_assoc, hpending, ← happrovals, List.map_append]

/-- A client queues a batch, and what a full queue defers of it again, while the plug-in works,
crashes and recovers and others queue jobs. Every approval is answered once or still deferred; what
was reported queued is in the journal and known to the process from then on, accepted once and
executed at most once, and what is deferred was not accepted for the client. -/
theorem batches_settle (sha256 : List UInt8 → List UInt8) (pathKey : String → List Char) (n : Nat)
    (approvals : List QueueApproval) {slots : List (Slot κ)}
    (hplain : ∀ slot ∈ slots, slot.turn.Plain) {answered : List QueueItem}
    {pending : List QueueApproval} {l : Ledger κ} {rest : List (Slot κ)}
    (h : settle host sha256 pathKey n approvals (.start, slots) = (answered, pending, (l, rest)))
    (later : List (Event κ)) :
    answered.map QueueItem.approval ++ pending = approvals ∧
      (∀ item ∈ answered, item.queued = true → ∃ r ∈ l.accepted, Matches item.approval r ∧
        ((l.replay host later).world.disk.files (host.jobRoot r.manifestPath)).request = some r ∧
        Known (l.replay host later).world r.planId) ∧
      ((l.replay host later).accepted.map PublishJobRequest.planId).Nodup ∧
      ((l.replay host later).world.executions.map PublishJobRequest.planId).Nodup ∧
      ∀ r ∈ l.accepted, Asked slots answered r := by
  obtain ⟨hsettled, -, hcomes⟩ := settle_comes sha256 pathKey n approvals hplain h
  have hkept := replay_kept later (hcomes.kept kept_start)
  have hlater : Grows _ l (l.replay host later) := replay_grows l later
  refine ⟨hsettled, fun item hitem hqueued => ?_, hkept.once, hkept.safe.once, fun r hr => ?_⟩
  · obtain ⟨r, hr, hmatches⟩ := hcomes.queued item hitem hqueued
    exact ⟨r, hr, hmatches, hkept.recorded r (hlater.mem hr), hkept.known r (hlater.mem hr)⟩
  · obtain ⟨new, hnew, hasked⟩ := hcomes.grows.grown
    rw [hnew] at hr
    exact hasked r hr

end Batches

section Example

def planName (c : Char) : String := String.ofList ("sha256:".toList ++ .replicate 64 c)

def approvalOf (c : Char) : QueueApproval :=
  ⟨String.ofList [c], planName c, String.ofList (.replicate 64 c)⟩

def sentRequest (c : Char) : Turn :=
  .sent ⟨planName c, String.ofList [c], String.ofList (.replicate 64 c), "", "", 1⟩ none .done none

/-- The queue takes one job. The second of the batch is deferred, and queued once the first runs. -/
def fullQueueSlots : List (Slot String) :=
  [⟨[.restart 1 true []], sentRequest 'a'⟩, ⟨[], sentRequest 'b'⟩,
    ⟨[.startNext .intact .done, .execute], sentRequest 'b'⟩]

theorem batches_settle_full : ∃ (answered : List QueueItem) (l : Ledger String),
    answered.map QueueItem.approval = [approvalOf 'a', approvalOf 'b'] ∧
      (∀ item ∈ answered, item.queued = true → ∃ r ∈ l.accepted, Matches item.approval r) ∧
      answered.map QueueItem.queued = [true, true] := by
  rcases hsettle : settle Queue.plainHost (fun _ => []) String.toList 2
    [approvalOf 'a', approvalOf 'b'] (.start, fullQueueSlots) with ⟨answered, pending, l, rest⟩
  obtain ⟨hsettled, hqueued, -⟩ := batches_settle (fun _ => []) String.toList 2
    [approvalOf 'a', approvalOf 'b'] (by decide) hsettle []
  have hboth : ((settle Queue.plainHost (fun _ => []) String.toList 2
      [approvalOf 'a', approvalOf 'b'] (.start, fullQueueSlots)).1.map QueueItem.queued) =
        [true, true] := by decide +kernel
  have hnone : (settle Queue.plainHost (fun _ => []) String.toList 2
      [approvalOf 'a', approvalOf 'b'] (.start, fullQueueSlots)).2.1 = [] := by decide +kernel
  rw [hsettle] at hboth hnone
  obtain rfl : pending = [] := hnone
  refine ⟨answered, l, by simpa using hsettled, fun item hitem hitemQueued => ?_, hboth⟩
  obtain ⟨r, hr, hmatches, -⟩ := hqueued item hitem hitemQueued
  exact ⟨r, hr, hmatches⟩

end Example

end CadPlot.Publish.BatchQueue
