import CadPlot.Translation.Store

/-!
# Runs of the translation store

What each stage of a request knows of the tables, whoever else runs in between.
A request that holds the write lock sees the committed state as it is. One that
does not knows only what no other request can change: that a plan is stored, that
a claim is its own, and that a receipt is the stored one.
-/

namespace CadPlot.Translation

open Gateway

section Known

variable (settings : Settings)

/-- A stored plan that a write is approved for. -/
structure Approved (tables : Tables) (scope : ScopeId) (inventoryId reviewId planId : HashId)
    (stored : StoredPlan) : Prop where
  get : tables.plans.get (scope, planId) = some stored
  review : stored.reviewId = reviewId
  inventory : stored.plan.inventoryId = inventoryId
  ready : stored.plan.ready = true
  changes : stored.plan.changes ≠ []

/-- The claim of a write without a receipt, and whether the write was begun. -/
structure Claim (committed : Tables) (invocations : List (ScopeId × HashId))
    (key : ScopeId × HashId) (begun : Prop) : Prop where
  unreceipted : committed.writes.get key = some none
  begun : key ∈ invocations ↔ begun

/-- What a submission knows, by the state that is committed and the one that it has staged. -/
def ReviewKnows (committed : Tables) (staged : Option Tables) (scope : ScopeId)
    (inventoryId : HashId) (expectedReviewId : Option HashId) (decisions : List RemoteDecision) :
    Stage → Prop
  | .reading => staged = some committed
  | .merging current => staged = some committed ∧ submitReview settings inventoryId
      expectedReviewId decisions (committed.reviews.get (scope, inventoryId)) = .ok current
  | .reviewing current => staged = some { committed with
      reviews := committed.reviews.set (scope, inventoryId) current } ∧ submitReview settings
        inventoryId expectedReviewId decisions (committed.reviews.get (scope, inventoryId)) =
          .ok current
  | stage => stage.commits = false

def PlanKnows (committed : Tables) (staged : Option Tables) : Stage → Prop
  | .inserted _ => ∃ plans, staged = some { committed with plans := plans } ∧
      ∀ k x, committed.plans.get k = some x → plans.get k = some x
  | stage => stage.commits = false

def ApplyKnows (committed : Tables) (staged : Option Tables)
    (invocations : List (ScopeId × HashId)) (scope : ScopeId)
    (inventoryId reviewId planId : HashId) : Stage → Prop
  | .reading => staged = some committed
  | .checking stored => staged = some committed ∧
      Approved committed scope inventoryId reviewId planId stored
  | .claiming stored => staged = some committed ∧
      Approved committed scope inventoryId reviewId planId stored ∧
      committed.writes.get (scope, planId) = none
  | .claimed stored => staged = some { committed with
        writes := committed.writes.set (scope, planId) none } ∧
      Approved committed scope inventoryId reviewId planId stored ∧
      committed.writes.get (scope, planId) = none
  | .leaving response => staged = some committed ∧
      committed.writes.get (scope, planId) = some (some response)
  | .writing stored => Approved committed scope inventoryId reviewId planId stored ∧
      Claim committed invocations (scope, planId) False
  | .translating _ | .storing _ => Claim committed invocations (scope, planId) True
  | .updated response => staged = some { committed with
        writes := committed.writes.set (scope, planId) (some response) } ∧
      Claim committed invocations (scope, planId) True
  | .returned (.ok response) => committed.writes.get (scope, planId) = some (some response)
  | stage => stage.commits = false

def Knows (committed : Tables) (staged : Option Tables) (invocations : List (ScopeId × HashId))
    (call : Call) : Prop :=
  match call.stage with
  | none => True
  | some stage =>
    match call.request with
    | .scan .. => stage.commits = false
    | .review inventoryId expectedReviewId decisions => ReviewKnows settings committed staged
        call.scope inventoryId expectedReviewId decisions stage
    | .plan .. => PlanKnows committed staged stage
    | .apply inventoryId reviewId planId _ => ApplyKnows committed staged invocations call.scope
        inventoryId reviewId planId stage

/-- The stages of a request between its claim and its receipt. -/
def Stage.writes : Stage → Bool
  | .writing _ | .translating _ | .storing _ | .updated _ => true
  | _ => false

/-- The claim that a request has made and not given up. -/
def Call.owns (call : Call) (key : ScopeId × HashId) : Prop :=
  ∃ stage inventoryId reviewId planOperationId, call.stage = some stage ∧ stage.writes = true ∧
    call.request = .apply inventoryId reviewId key.2 planOperationId ∧ call.scope = key.1

structure Inv (w : World) : Prop where
  calls : ∀ n call, w.calls.get n = some call →
    Knows settings w.db.committed (w.db.staged n) w.invocations call
  owner : ∀ n m call call' key, w.calls.get n = some call → w.calls.get m = some call' →
    call.owns key → call'.owns key → n = m
  begun : ∀ key ∈ w.invocations, w.db.committed.writes.get key ≠ none
  once : w.invocations.Nodup

end Known

section Keeps

variable {settings : Settings} {w w' : World} {n m : Nat} {call other : Call} {stage next : Stage}
  {committed tables : Tables} {invocations : List (ScopeId × HashId)} {key : ScopeId × HashId}

/-- A request owns a claim as long as its stage says so. -/
theorem owns_iff (hstage : call.stage = some stage) : call.owns key ↔ stage.writes = true ∧
    ∃ inventoryId reviewId planOperationId,
      call.request = .apply inventoryId reviewId key.2 planOperationId ∧ call.scope = key.1 := by
  constructor
  · rintro ⟨stage', i, r, o, hstage', hwrites, hrequest, hscope⟩
    obtain rfl := Option.some.inj (hstage.symm.trans hstage')
    exact ⟨hwrites, i, r, o, hrequest, hscope⟩
  · rintro ⟨hwrites, i, r, o, hrequest, hscope⟩
    exact ⟨stage, i, r, o, hstage, hwrites, hrequest, hscope⟩

/-- What is claimed has no receipt yet. -/
theorem claim_of_owns {staged : Option Tables} (h : Knows settings committed staged invocations call)
    (howns : call.owns key) : committed.writes.get key = some none := by
  obtain ⟨stage, i, r, o, hstage, hwrites, hrequest, hscope⟩ := howns
  obtain ⟨scope, planId⟩ := key
  obtain rfl : call.scope = scope := hscope
  simp only [Knows, hstage, hrequest] at h
  cases stage with
  | writing stored => exact h.2.unreceipted
  | translating stored => exact h.unreceipted
  | storing response => exact h.unreceipted
  | updated response => exact h.2.unreceipted
  | _ => cases hwrites

/-- Of the writes, the state that is committed next changes only claims of others. -/
def KeepsWrites (committed next : Tables) (call : Call) : Prop :=
  ∀ key, next.writes.get key = committed.writes.get key ∨ committed.writes.get key = none ∨
    (committed.writes.get key = some none ∧ ¬call.owns key)

theorem Approved.mono {scope : ScopeId} {inventoryId reviewId planId : HashId}
    {stored : StoredPlan} (h : Approved committed scope inventoryId reviewId planId stored)
    (hplans : ∀ k x, committed.plans.get k = some x → tables.plans.get k = some x) :
    Approved tables scope inventoryId reviewId planId stored :=
  { h with get := hplans _ _ h.get }

/-- What a request knows that does not hold the lock stays so when another one commits. -/
theorem Knows.of_commit (h : Knows settings committed none invocations call)
    (hplans : ∀ k x, committed.plans.get k = some x → tables.plans.get k = some x)
    (hwrites : KeepsWrites committed tables call) :
    Knows settings tables none invocations call := by
  have hclaim : ∀ key begun, Claim committed invocations key begun → call.owns key →
      Claim tables invocations key begun := by
    intro key begun hclaim howns
    refine ⟨?_, hclaim.begun⟩
    obtain heq | hnone | ⟨_, hnot⟩ := hwrites key
    · rw [heq]
      exact hclaim.unreceipted
    · rw [hclaim.unreceipted] at hnone
      cases hnone
    · exact absurd howns hnot
  unfold Knows at h ⊢
  split
  · trivial
  · next stage hstage =>
    rw [hstage] at h
    simp only at h
    split
    · next hrequest =>
      rw [hrequest] at h
      exact h
    · next inventoryId expectedReviewId decisions hrequest =>
      rw [hrequest] at h
      cases stage with
      | reading => cases h
      | merging current => cases h.1
      | reviewing current => cases h.1
      | _ => exact h
    · next hrequest =>
      rw [hrequest] at h
      cases stage with
      | inserted stored =>
        obtain ⟨_, hstaged, _⟩ := h
        cases hstaged
      | _ => exact h
    · next inventoryId reviewId planId planOperationId hrequest =>
      rw [hrequest] at h
      have howns : stage.writes = true → call.owns (call.scope, planId) := fun hw =>
        (owns_iff hstage).2 ⟨hw, _, _, _, hrequest, rfl⟩
      cases stage with
      | reading => cases h
      | checking stored => cases h.1
      | claiming stored => cases h.1
      | claimed stored => cases h.1
      | leaving response => cases h.1
      | writing stored => exact ⟨h.1.mono hplans, hclaim _ _ h.2 (howns rfl)⟩
      | translating stored => exact hclaim _ _ h (howns rfl)
      | storing response => exact hclaim _ _ h (howns rfl)
      | updated response => cases h.1
      | returned result =>
        cases result with
        | error failure => trivial
        | ok response =>
          have hreceipt : committed.writes.get (call.scope, planId) = some (some response) := h
          change tables.writes.get (call.scope, planId) = some (some response)
          obtain heq | hnone | ⟨hnone, _⟩ := hwrites (call.scope, planId)
          · rw [heq]
            exact hreceipt
          · rw [hreceipt] at hnone
            cases hnone
          · rw [hreceipt] at hnone
            cases hnone
      | _ => exact h

/-- The calls of a request are not changed by the stage of another. -/
theorem owner_set (hi : Inv settings w) (hget : w.calls.get n = some call) {stage' : Option Stage}
    (howns : ∀ key, ({ call with stage := stage' } : Call).owns key → call.owns key ∨
      w.db.committed.writes.get key = none) :
    ∀ a b x y key, (w.calls.set n { call with stage := stage' }).get a = some x →
      (w.calls.set n { call with stage := stage' }).get b = some y → x.owns key → y.owns key →
        a = b := by
  have hsame : ∀ a x key, (w.calls.set n { call with stage := stage' }).get a = some x →
      x.owns key → (a = n ∧ w.db.committed.writes.get key = none) ∨
        ∃ x', w.calls.get a = some x' ∧ x'.owns key := by
    intro a x key ha hx
    rw [Dict.get_set] at ha
    split at ha
    · next heq =>
      obtain rfl := Option.some.inj ha
      subst heq
      obtain hown | hnone := howns key hx
      · exact .inr ⟨call, hget, hown⟩
      · exact .inl ⟨rfl, hnone⟩
    · exact .inr ⟨x, ha, hx⟩
  intro a b x y key ha hb hx hy
  have hclaimed : ∀ c z, w.calls.get c = some z → z.owns key →
      w.db.committed.writes.get key = some none := fun c z hc hz =>
    claim_of_owns (hi.calls c z hc) hz
  obtain ⟨rfl, hnone⟩ | ⟨x', ha', hx'⟩ := hsame a x key ha hx
  · obtain ⟨rfl, _⟩ | ⟨y', hb', hy'⟩ := hsame b y key hb hy
    · rfl
    · rw [hclaimed b y' hb' hy'] at hnone
      cases hnone
  · obtain ⟨rfl, hnone⟩ | ⟨y', hb', hy'⟩ := hsame b y key hb hy
    · rw [hclaimed a x' ha' hx'] at hnone
      cases hnone
    · exact hi.owner a b x' y' key ha' hb' hx' hy'

/-- A step of a request that commits nothing. -/
theorem Inv.moved (hi : Inv settings w) (hget : w.calls.get n = some call)
    (hstage : call.stage = some stage) {db : Database Tables} {stage' : Option Stage}
    (hcommitted : db.committed = w.db.committed)
    (hothers : ∀ m, m ≠ n → db.staged m = w.db.staged m)
    (hwrites : ∀ next, stage' = some next → next.writes = true → stage.writes = true)
    (hknows : Knows settings w.db.committed (db.staged n) w.invocations
      { call with stage := stage' }) :
    Inv settings ⟨db, w.calls.set n { call with stage := stage' }, w.invocations⟩ where
  calls m other hm := by
    change Knows settings db.committed (db.staged m) w.invocations other
    rw [hcommitted]
    rw [Dict.get_set] at hm
    split at hm
    · next heq =>
      subst heq
      obtain rfl := Option.some.inj hm
      exact hknows
    · next hne =>
      rw [hothers m (Ne.symm hne)]
      exact hi.calls m other hm
  owner := owner_set hi hget fun key howns => by
    refine .inl ?_
    obtain ⟨next, i, r, o, hnext, hw, hrequest, hscope⟩ := howns
    exact (owns_iff hstage).2 ⟨hwrites next hnext hw, i, r, o, hrequest, hscope⟩
  begun key hkey := by
    change db.committed.writes.get key ≠ none
    rw [hcommitted]
    exact hi.begun key hkey
  once := hi.once

/-- A commit. -/
theorem Inv.commit (hi : Inv settings w) (hget : w.calls.get n = some call) {s : Tables}
    (hwriter : w.db.writer = some (n, s))
    (hplans : ∀ k x, w.db.committed.plans.get k = some x → s.plans.get k = some x)
    (hwrites : ∀ key, s.writes.get key = w.db.committed.writes.get key ∨
      (s.writes.get key ≠ none ∧ (w.db.committed.writes.get key = none ∨ call.owns key)))
    (hnext : ∀ key, ({ call with stage := some next } : Call).owns key → call.owns key ∨
      w.db.committed.writes.get key = none)
    (hknows : Knows settings s none w.invocations { call with stage := some next }) :
    Inv settings (World.moved { w with db := ⟨s, none⟩ } n call next) where
  calls m other hm := by
    change Knows settings s none w.invocations other
    have hm' : (w.calls.set n { call with stage := some next }).get m = some other := hm
    rw [Dict.get_set] at hm'
    split at hm'
    · obtain rfl := Option.some.inj hm'
      exact hknows
    · next hne =>
      have hold := hi.calls m other hm'
      have hnone : w.db.staged m = none := by
        simp [Database.staged, hwriter, hne]
      rw [hnone] at hold
      refine Knows.of_commit hold hplans fun key => ?_
      obtain heq | ⟨_, hnone | howns⟩ := hwrites key
      · exact .inl heq
      · exact .inr (.inl hnone)
      · refine .inr (.inr ⟨claim_of_owns (hi.calls n call hget) howns, fun hother => ?_⟩)
        exact hne (hi.owner n m call other key hget hm' howns hother)
  owner := owner_set hi hget hnext
  begun key hkey := by
    change s.writes.get key ≠ none
    obtain heq | ⟨hsome, _⟩ := hwrites key
    · rw [heq]
      exact hi.begun key hkey
    · exact hsome
  once := hi.once

theorem tables_of_staged {s : Tables} (h : w.db.staged n = some s) : w.tables n = s := by
  simp [World.tables, h]

theorem raised_inv (hi : Inv settings w) (hget : w.calls.get n = some call)
    (hstage : call.stage = some stage) (failure : Failure) :
    Inv settings (w.raised n call failure) := by
  refine hi.moved hget hstage (Database.rollback_committed ..)
    (fun m hne => Database.staged_rollback_other hne) (fun next hnext hw => ?_) ?_
  · obtain rfl := Option.some.inj hnext
    cases hw
  · unfold Knows
    split
    · trivial
    · next hreturned =>
      obtain rfl := Option.some.inj hreturned
      split <;> trivial

/-- A step that leaves the database as it is. -/
theorem moved_inv (hi : Inv settings w) (hget : w.calls.get n = some call)
    (hstage : call.stage = some stage) (hwrites : next.writes = true → stage.writes = true)
    (hknows : Knows settings w.db.committed (w.db.staged n) w.invocations
      { call with stage := some next }) : Inv settings (w.moved n call next) :=
  hi.moved hget hstage rfl (fun _ _ => rfl) (fun _ hnext hw => hwrites (Option.some.inj hnext ▸ hw))
    hknows

theorem enforce_inv {α : Type} (hi : Inv settings w) (hget : w.calls.get n = some call)
    (hstage : call.stage = some stage) {result : Except Failure α} {after : α → Stage}
    (hmoved : ∀ a, result = .ok a → Inv settings (w.moved n call (after a))) :
    Inv settings (w.enforce n call result after) := by
  cases result with
  | ok a => exact hmoved a rfl
  | error failure => exact raised_inv hi hget hstage failure

theorem begin_inv (hi : Inv settings w) (hget : w.calls.get n = some call)
    (hstage : call.stage = some stage)
    (hknows : Knows settings w.db.committed (some w.db.committed) w.invocations
      { call with stage := some .reading }) (h : beginImmediate w n call = some w') :
    Inv settings w' := by
  obtain ⟨db, hdb, rfl⟩ := Option.map_eq_some_iff.1 h
  refine hi.moved hget hstage (Database.acquire_committed hdb)
    (fun m hne => Database.acquire_staged_other hdb hne) (fun next hnext hw => ?_) ?_
  · obtain rfl := Option.some.inj hnext
    cases hw
  · rw [Database.acquire_staged hdb]
    exact hknows

theorem staging_inv (hi : Inv settings w) (hget : w.calls.get n = some call)
    (hstage : call.stage = some stage) (hheld : w.db.staged n = some committed)
    (hwrites : next.writes = true → stage.writes = true)
    (hknows : Knows settings w.db.committed (some tables) w.invocations
      { call with stage := some next }) : Inv settings (w.staging n call tables next) := by
  refine hi.moved hget hstage rfl (fun m hne => Database.staged_stage_other hheld hne)
    (fun _ hnext hw => hwrites (Option.some.inj hnext ▸ hw)) ?_
  rw [Database.staged_stage]
  exact hknows

/-- A statement that begins its own transaction. -/
theorem acquire_staging_inv (hi : Inv settings w) (hget : w.calls.get n = some call)
    (hstage : call.stage = some stage) {db : Database Tables} (hdb : w.db.acquire n = some db)
    (hwrites : next.writes = true → stage.writes = true)
    (hknows : Knows settings w.db.committed (some tables) w.invocations
      { call with stage := some next }) :
    Inv settings (World.staging { w with db := db } n call tables next) := by
  have hcommitted : db.committed = w.db.committed := Database.acquire_committed hdb
  refine hi.moved hget hstage hcommitted (fun m hne => ?_)
    (fun _ hnext hw => hwrites (Option.some.inj hnext ▸ hw)) ?_
  · rw [← Database.acquire_staged_other hdb hne]
    exact Database.staged_stage_other (Database.acquire_staged hdb) hne
  · change Knows settings w.db.committed ((db.stage n tables).staged n) w.invocations _
    rw [Database.staged_stage]
    exact hknows

theorem knows_iff (hstage : call.stage = some stage) {staged : Option Tables} :
    Knows settings committed staged invocations call ↔
      match call.request with
      | .scan .. => stage.commits = false
      | .review inventoryId expectedReviewId decisions => ReviewKnows settings committed staged
          call.scope inventoryId expectedReviewId decisions stage
      | .plan .. => PlanKnows committed staged stage
      | .apply inventoryId reviewId planId _ => ApplyKnows committed staged invocations call.scope
          inventoryId reviewId planId stage := by
  simp only [Knows, hstage]

theorem not_owns (hstage : call.stage = some stage) (h : stage.writes = false) :
    ¬call.owns key := by
  rw [owns_iff hstage, h]
  simp

/-- What is committed of a request keeps the plans, and the writes but for its own claim. -/
theorem commits_keep (hi : Inv settings w) (hget : w.calls.get n = some call)
    (hstage : call.stage = some stage) (hcommits : stage.commits = true)
    (hstaged : w.db.staged n = some tables) :
    (∀ k x, w.db.committed.plans.get k = some x → tables.plans.get k = some x) ∧
      ∀ key, tables.writes.get key = w.db.committed.writes.get key ∨
        (tables.writes.get key ≠ none ∧
          (w.db.committed.writes.get key = none ∨ call.owns key)) := by
  have hknows := hi.calls n call hget
  simp only [knows_iff hstage, hstaged] at hknows
  cases hrequest : call.request with
  | scan inventoryId offset limit =>
    rw [hrequest] at hknows
    exact Bool.noConfusion (hcommits.symm.trans hknows)
  | review inventoryId expectedReviewId decisions =>
    rw [hrequest] at hknows
    cases stage with
    | reviewing current =>
      obtain rfl := Option.some.inj hknows.1
      exact ⟨fun _ _ hx => hx, fun _ => .inl rfl⟩
    | _ => first | exact Bool.noConfusion (hcommits.symm.trans hknows) | cases hcommits
  | plan inventoryId reviewId offset limit =>
    rw [hrequest] at hknows
    cases stage with
    | inserted stored =>
      obtain ⟨plans, htables, hplans⟩ := hknows
      obtain rfl := Option.some.inj htables
      exact ⟨hplans, fun _ => .inl rfl⟩
    | _ => exact Bool.noConfusion (hcommits.symm.trans hknows)
  | apply inventoryId reviewId planId planOperationId =>
    rw [hrequest] at hknows
    have howns : stage.writes = true → call.owns (call.scope, planId) := fun hw =>
      (owns_iff hstage).2 ⟨hw, _, _, _, hrequest, rfl⟩
    cases stage with
    | leaving response =>
      obtain rfl := Option.some.inj hknows.1
      exact ⟨fun _ _ hx => hx, fun _ => .inl rfl⟩
    | claimed stored =>
      obtain ⟨htables, _, hnone⟩ := hknows
      obtain rfl := Option.some.inj htables
      refine ⟨fun _ _ hx => hx, fun key => ?_⟩
      by_cases hkey : key = (call.scope, planId)
      · subst hkey
        exact .inr ⟨by simp, .inl hnone⟩
      · exact .inl (Dict.get_set_other _ _ hkey)
    | updated response =>
      obtain rfl := Option.some.inj hknows.1
      refine ⟨fun _ _ hx => hx, fun key => ?_⟩
      by_cases hkey : key = (call.scope, planId)
      · subst hkey
        exact .inr ⟨by simp, .inr (howns rfl)⟩
      · exact .inl (Dict.get_set_other _ _ hkey)
    | _ => first | exact Bool.noConfusion (hcommits.symm.trans hknows) | cases hcommits

/-- A commit of what a request has staged. -/
theorem commit_inv (hi : Inv settings w) (hget : w.calls.get n = some call)
    (hstage : call.stage = some stage) (hcommits : stage.commits = true)
    (hnext : ∀ key, ({ call with stage := some next } : Call).owns key → call.owns key ∨
      w.db.committed.writes.get key = none)
    (hknows : ∀ tables, w.db.staged n = some tables →
      Knows settings tables none w.invocations { call with stage := some next })
    (h : commit w n call next = some w') : Inv settings w' := by
  obtain ⟨db, hdb, rfl⟩ := Option.map_eq_some_iff.1 h
  obtain ⟨s, hwriter, rfl⟩ := Database.commit_eq hdb
  have hstaged : w.db.staged n = some s := Database.staged_eq.2 hwriter
  obtain ⟨hplans, hwrites⟩ := commits_keep hi hget hstage hcommits hstaged
  exact hi.commit hget hwriter hplans hwrites hnext (hknows s hstaged)

theorem review_inv (hi : Inv settings w) (hget : w.calls.get n = some call)
    (hstage : call.stage = some stage) {inventoryId : HashId} {expectedReviewId : Option HashId}
    {decisions : List RemoteDecision}
    (hrequest : call.request = .review inventoryId expectedReviewId decisions)
    (h : proceedReview settings w n call inventoryId expectedReviewId decisions stage = some w') :
    Inv settings w' := by
  have hknows := hi.calls n call hget
  have hnew : ∀ {committed : Tables} {staged : Option Tables} {next : Stage},
      ReviewKnows settings committed staged call.scope inventoryId expectedReviewId decisions
        next → Knows settings committed staged w.invocations { call with stage := some next } := by
    intro committed staged next hnew
    simp only [Knows, hrequest]
    exact hnew
  simp only [knows_iff hstage, hrequest] at hknows
  cases stage with
  | beginning => exact begin_inv hi hget hstage (hnew rfl) h
  | reading =>
    obtain rfl := Option.some.inj h
    have hstaged : w.db.staged n = some w.db.committed := hknows
    refine enforce_inv hi hget hstage fun current hcurrent =>
      moved_inv hi hget hstage (by simp [Stage.writes]) (hnew ⟨hstaged, ?_⟩)
    rw [← hcurrent, tables_of_staged hstaged]
  | merging current =>
    obtain rfl := Option.some.inj h
    obtain ⟨hstaged, hcurrent⟩ := hknows
    refine staging_inv hi hget hstage hstaged (by simp [Stage.writes]) (hnew ⟨?_, hcurrent⟩)
    rw [tables_of_staged hstaged]
  | reviewing current =>
    refine commit_inv hi hget hstage rfl (fun key howns => absurd howns (not_owns rfl rfl))
      (fun _ _ => hnew ?_) h
    rfl
  | _ => cases h

theorem plan_inv (hi : Inv settings w) (hget : w.calls.get n = some call)
    (hstage : call.stage = some stage) {inventoryId reviewId : HashId} {offset limit : Nat}
    (hrequest : call.request = .plan inventoryId reviewId offset limit)
    (h : proceedPlan settings w n call inventoryId reviewId offset limit stage = some w') :
    Inv settings w' := by
  have hknows := hi.calls n call hget
  have hnew : ∀ {committed : Tables} {staged : Option Tables} {next : Stage},
      PlanKnows committed staged next →
        Knows settings committed staged w.invocations { call with stage := some next } := by
    intro committed staged next hnew
    simp only [Knows, hrequest]
    exact hnew
  simp only [knows_iff hstage, hrequest] at hknows
  cases stage with
  | selecting =>
    obtain rfl := Option.some.inj h
    exact enforce_inv hi hget hstage fun current _ =>
      moved_inv hi hget hstage (by simp [Stage.writes]) (hnew rfl)
  | inserting stored =>
    obtain ⟨db, hdb, rfl⟩ := Option.map_eq_some_iff.1 h
    have htables : World.tables { w with db := db } n = w.db.committed :=
      tables_of_staged (Database.acquire_staged hdb)
    refine acquire_staging_inv hi hget hstage hdb (by simp [Stage.writes]) (hnew ?_)
    rw [htables]
    refine ⟨_, rfl, fun k x hx => ?_⟩
    split
    · next hnone =>
      have hne : k ≠ (call.scope, stored.plan.planId) := by
        rintro rfl
        rw [hx] at hnone
        cases hnone
      rw [Dict.get_set_other _ _ hne]
      exact hx
    · exact hx
  | inserted stored =>
    refine commit_inv hi hget hstage rfl (fun key howns => absurd howns (not_owns rfl rfl))
      (fun _ _ => hnew ?_) h
    rfl
  | _ => cases h

/-- A write is begun once, by the request that owns its claim. -/
theorem invoke_inv (hi : Inv settings w) (hget : w.calls.get n = some call) {stored : StoredPlan}
    (hstage : call.stage = some (.writing stored)) {inventoryId reviewId planId : HashId}
    {planOperationId : OperationId}
    (hrequest : call.request = .apply inventoryId reviewId planId planOperationId) :
    Inv settings { w.moved n call (.translating stored) with
      invocations := (call.scope, planId) :: w.invocations } := by
  have hknows := hi.calls n call hget
  simp only [knows_iff hstage, hrequest] at hknows
  obtain ⟨_, hclaim⟩ := hknows
  have howns : call.owns (call.scope, planId) :=
    (owns_iff hstage).2 ⟨rfl, _, _, _, hrequest, rfl⟩
  refine ⟨fun m other hm => ?_, owner_set hi hget fun key hown => .inl ?_, fun key hkey => ?_,
    List.nodup_cons.2 ⟨fun hmem => hclaim.begun.1 hmem, hi.once⟩⟩
  · change Knows settings w.db.committed (w.db.staged m) ((call.scope, planId) :: w.invocations)
      other
    have hm' : (w.calls.set n { call with stage := some (.translating stored) }).get m =
      some other := hm
    rw [Dict.get_set] at hm'
    split at hm'
    · obtain rfl := Option.some.inj hm'
      simp only [Knows, hrequest]
      exact ⟨hclaim.unreceipted, by simp⟩
    · next hne =>
      -- no other request has the claim, so none of them speaks of this key
      have hother : ∀ key begun, Claim w.db.committed w.invocations key begun → other.owns key →
          Claim w.db.committed ((call.scope, planId) :: w.invocations) key begun := by
        intro key begun h hown
        refine ⟨h.unreceipted, ?_⟩
        have hkey : key ≠ (call.scope, planId) := by
          rintro rfl
          exact hne (hi.owner n m call other _ hget hm' howns hown)
        simp [hkey, h.begun]
      have hold := hi.calls m other hm'
      unfold Knows at hold ⊢
      split
      · trivial
      · next stage' hstage' =>
        rw [hstage'] at hold
        simp only at hold
        split
        · next hrequest' =>
          rw [hrequest'] at hold
          exact hold
        · next hrequest' =>
          rw [hrequest'] at hold
          exact hold
        · next hrequest' =>
          rw [hrequest'] at hold
          exact hold
        · next inventoryId' reviewId' planId' planOperationId' hrequest' =>
          rw [hrequest'] at hold
          have hown : stage'.writes = true → other.owns (other.scope, planId') := fun hw =>
            (owns_iff hstage').2 ⟨hw, _, _, _, hrequest', rfl⟩
          cases stage' with
          | writing stored' => exact ⟨hold.1, hother _ _ hold.2 (hown rfl)⟩
          | translating stored' => exact hother _ _ hold (hown rfl)
          | storing response => exact hother _ _ hold (hown rfl)
          | updated response => exact ⟨hold.1, hother _ _ hold.2 (hown rfl)⟩
          | returned result => cases result <;> exact hold
          | _ => exact hold
  · obtain ⟨_, i, r, o, _, _, hrequest', hscope⟩ := hown
    exact (owns_iff hstage).2 ⟨rfl, i, r, o, hrequest', hscope⟩
  · change w.db.committed.writes.get key ≠ none
    obtain rfl | hmem := List.mem_cons.1 hkey
    · rw [hclaim.unreceipted]
      simp
    · exact hi.begun key hmem

theorem approved_of_check {scope : ScopeId} {inventoryId reviewId planId : HashId}
    {stored : StoredPlan} (h : checkPlan inventoryId reviewId
      (committed.plans.get (scope, planId)) = .ok stored) :
    Approved committed scope inventoryId reviewId planId stored := by
  unfold checkPlan at h
  split at h
  · cases h
  · next stored' hget =>
    split at h
    · cases h
    · next hmatch =>
      split at h
      · cases h
      · next hready =>
        obtain rfl := Except.ok.inj h
        simp only [not_or, ne_eq, not_not, Bool.not_eq_false] at hmatch hready
        exact ⟨hget, hmatch.1, hmatch.2, hready.1, hready.2⟩

theorem apply_inv (hi : Inv settings w) (hget : w.calls.get n = some call)
    (hstage : call.stage = some stage) {inventoryId reviewId planId : HashId}
    {planOperationId : OperationId}
    (hrequest : call.request = .apply inventoryId reviewId planId planOperationId)
    (h : proceedApply settings w n call inventoryId reviewId planId stage = some w') :
    Inv settings w' := by
  have hknows := hi.calls n call hget
  have hnew : ∀ {committed : Tables} {staged : Option Tables} {next : Stage},
      ApplyKnows committed staged w.invocations call.scope inventoryId reviewId planId next →
        Knows settings committed staged w.invocations { call with stage := some next } := by
    intro committed staged next hnew
    simp only [Knows, hrequest]
    exact hnew
  have howns : stage.writes = true → call.owns (call.scope, planId) := fun hw =>
    (owns_iff hstage).2 ⟨hw, _, _, _, hrequest, rfl⟩
  simp only [knows_iff hstage, hrequest] at hknows
  cases stage with
  | beginning => exact begin_inv hi hget hstage (hnew rfl) h
  | reading =>
    obtain rfl := Option.some.inj h
    have hstaged : w.db.staged n = some w.db.committed := hknows
    refine enforce_inv hi hget hstage fun stored hstored =>
      moved_inv hi hget hstage (by simp [Stage.writes]) (hnew ⟨hstaged, ?_⟩)
    rw [tables_of_staged hstaged] at hstored
    exact approved_of_check hstored
  | checking stored =>
    obtain ⟨hstaged, happroved⟩ := hknows
    simp only [proceedApply, tables_of_staged hstaged] at h
    split at h
    · obtain rfl := Option.some.inj h
      exact raised_inv hi hget hstage _
    · next receipt hreceipt =>
      obtain rfl := Option.some.inj h
      exact moved_inv hi hget hstage (by simp [Stage.writes]) (hnew ⟨hstaged, hreceipt⟩)
    · next hnone =>
      obtain rfl := Option.some.inj h
      exact moved_inv hi hget hstage (by simp [Stage.writes]) (hnew ⟨hstaged, happroved, hnone⟩)
  | leaving response =>
    obtain ⟨hstaged, hreceipt⟩ := hknows
    refine commit_inv hi hget hstage rfl (fun key hown => absurd hown (not_owns rfl rfl))
      (fun tables htables => hnew ?_) h
    obtain rfl := Option.some.inj (hstaged.symm.trans htables)
    exact hreceipt
  | claiming stored =>
    obtain rfl := Option.some.inj h
    obtain ⟨hstaged, happroved, hnone⟩ := hknows
    refine staging_inv hi hget hstage hstaged (by simp [Stage.writes]) (hnew ⟨?_, happroved, hnone⟩)
    rw [tables_of_staged hstaged]
  | claimed stored =>
    obtain ⟨hstaged, happroved, hnone⟩ := hknows
    refine commit_inv hi hget hstage rfl (fun key hown => ?_) (fun tables htables => hnew ?_) h
    · refine .inr ?_
      obtain ⟨_, i, r, o, _, _, hrequest', hscope⟩ := hown
      obtain ⟨scope, planId'⟩ := key
      obtain rfl : call.scope = scope := hscope
      obtain ⟨rfl, rfl, rfl, rfl⟩ := TranslationRequest.apply.inj (hrequest.symm.trans hrequest')
      exact hnone
    · obtain rfl := Option.some.inj (hstaged.symm.trans htables)
      refine ⟨happroved.mono fun _ _ hx => hx, Dict.get_set_same .., ?_⟩
      simp only [iff_false]
      intro hmem
      exact hi.begun _ hmem hnone
  | writing stored =>
    obtain rfl := Option.some.inj h
    exact invoke_inv hi hget hstage hrequest
  | storing response =>
    obtain ⟨db, hdb, rfl⟩ := Option.map_eq_some_iff.1 h
    have htables : World.tables { w with db := db } n = w.db.committed :=
      tables_of_staged (Database.acquire_staged hdb)
    refine acquire_staging_inv hi hget hstage hdb (by simp [Stage.writes]) (hnew ⟨?_, hknows⟩)
    have hclaim : w.db.committed.writes.get (call.scope, planId) = some none := hknows.unreceipted
    rw [htables, if_neg (by rw [hclaim]; simp)]
  | updated response =>
    obtain ⟨hstaged, hclaim⟩ := hknows
    refine commit_inv hi hget hstage rfl (fun key hown => absurd hown (not_owns rfl rfl))
      (fun tables htables => hnew ?_) h
    obtain rfl := Option.some.inj (hstaged.symm.trans htables)
    unfold bounded
    split
    · rfl
    · exact Dict.get_set_same ..
  | _ => cases h

theorem running_eq {x : Call × Stage} (h : w.running n = some x) :
    w.calls.get n = some x.1 ∧ x.1.stage = some x.2 := by
  unfold World.running at h
  split at h
  · next call hget =>
    split at h
    · cases h
    · cases h
    · next stage _ hstage =>
      obtain rfl := Option.some.inj h
      exact ⟨hget, hstage⟩
  · cases h

theorem proceed_inv (hi : Inv settings w) (hget : w.calls.get n = some call)
    (hstage : call.stage = some stage) (h : proceed settings w n call stage = some w') :
    Inv settings w' := by
  unfold proceed at h
  split at h
  · cases h
  · next hrequest => exact review_inv hi hget hstage hrequest h
  · next hrequest => exact plan_inv hi hget hstage hrequest h
  · next hrequest => exact apply_inv hi hget hstage hrequest h

theorem execute_inv (hi : Inv settings w) (n : Nat) (scope : ScopeId)
    {request : TranslationRequest} (hformed : wellFormed request = true) : Inv settings
      { w with calls := w.calls.set n ⟨scope, request, hformed, some (firstStage request)⟩ } := by
  have hidle : ∀ key, ¬(⟨scope, request, hformed, some (firstStage request)⟩ : Call).owns key := by
    rintro key ⟨stage, _, _, _, hstage, hwrites, hrequest, _⟩
    obtain rfl := Option.some.inj hstage
    obtain rfl : request = _ := hrequest
    cases hwrites
  have hold : ∀ m other key,
      (w.calls.set n ⟨scope, request, hformed, some (firstStage request)⟩).get m = some other →
        other.owns key → w.calls.get m = some other := by
    intro m other key hm howns
    rw [Dict.get_set] at hm
    split at hm
    · obtain rfl := Option.some.inj hm
      exact absurd howns (hidle key)
    · exact hm
  refine ⟨fun m other hm => ?_, fun a b x y key ha hb hx hy =>
    hi.owner a b x y key (hold a x key ha hx) (hold b y key hb hy) hx hy, hi.begun, hi.once⟩
  rw [Dict.get_set] at hm
  split at hm
  · obtain rfl := Option.some.inj hm
    cases request <;> rfl
  · exact hi.calls m other hm

theorem prepared_inv (hi : Inv settings w) (hget : w.calls.get n = some call)
    (hstage : call.stage = some stage) {plan : Except String TranslationPlan}
    (h : prepared w n call plan stage = some w') : Inv settings w' := by
  unfold prepared at h
  split at h
  · split at h
    · next hrequest =>
      split at h
      · obtain rfl := Option.some.inj h
        exact raised_inv hi hget hstage _
      · split at h
        · obtain rfl := Option.some.inj h
          exact raised_inv hi hget hstage _
        · obtain rfl := Option.some.inj h
          refine moved_inv hi hget hstage (by simp [Stage.writes]) ?_
          simp only [Knows, hrequest]
          rfl
    · cases h
  · cases h

theorem translated_inv (hi : Inv settings w) (hget : w.calls.get n = some call)
    (hstage : call.stage = some stage) {receipt : Option TranslationReceipt}
    (h : translated w n call receipt stage = some w') : Inv settings w' := by
  have hknows := hi.calls n call hget
  unfold translated at h
  split at h
  · split at h
    · next hrequest =>
      simp only [knows_iff hstage, hrequest] at hknows
      split at h
      · obtain rfl := Option.some.inj h
        exact raised_inv hi hget hstage _
      · obtain rfl := Option.some.inj h
        refine moved_inv hi hget hstage (by simp [Stage.writes]) ?_
        simp only [Knows, hrequest]
        exact hknows
    · cases h
  · cases h

/-- A commit that takes effect and raises. -/
theorem commitRaises_inv (hi : Inv settings w) (hget : w.calls.get n = some call)
    (hstage : call.stage = some stage) (hcommits : stage.commits = true) {db : Database Tables}
    (hdb : w.db.commit n = some db) (failure : Failure) :
    Inv settings (World.raised { w with db := db } n call failure) := by
  obtain ⟨s, hwriter, rfl⟩ := Database.commit_eq hdb
  obtain ⟨hplans, hwrites⟩ :=
    commits_keep hi hget hstage hcommits (Database.staged_eq.2 hwriter)
  refine hi.commit hget hwriter hplans hwrites (fun key hown => absurd hown (not_owns rfl rfl)) ?_
  simp only [Knows]
  split <;> rfl

theorem cut_inv (hi : Inv settings w) (hget : w.calls.get n = some call)
    (hstage : call.stage = some stage) : Inv settings
      { w with db := w.db.rollback n, calls := w.calls.set n { call with stage := none } } :=
  hi.moved hget hstage (Database.rollback_committed ..)
    (fun _ hne => Database.staged_rollback_other hne) (fun _ hnext => by cases hnext) trivial

theorem step_inv {e : Event} (hi : Inv settings w) (h : step settings w e = some w') :
    Inv settings w' := by
  cases e with
  | execute n scope request =>
    simp only [step] at h
    split at h
    · next hnew =>
      obtain rfl := Option.some.inj h
      exact execute_inv hi n scope hnew.2
    · cases h
  | proceed n =>
    obtain ⟨x, hx, h⟩ := Option.bind_eq_some_iff.1 h
    exact proceed_inv hi (running_eq hx).1 (running_eq hx).2 h
  | prepared n plan =>
    obtain ⟨x, hx, h⟩ := Option.bind_eq_some_iff.1 h
    exact prepared_inv hi (running_eq hx).1 (running_eq hx).2 h
  | translated n receipt =>
    obtain ⟨x, hx, h⟩ := Option.bind_eq_some_iff.1 h
    exact translated_inv hi (running_eq hx).1 (running_eq hx).2 h
  | raise n =>
    obtain ⟨x, hx, rfl⟩ := Option.map_eq_some_iff.1 h
    exact raised_inv hi (running_eq hx).1 (running_eq hx).2 _
  | commitRaises n =>
    obtain ⟨x, hx, h⟩ := Option.bind_eq_some_iff.1 h
    split at h
    · next hcommits =>
      obtain ⟨db, hdb, rfl⟩ := Option.map_eq_some_iff.1 h
      exact commitRaises_inv hi (running_eq hx).1 (running_eq hx).2 hcommits hdb _
    · cases h
  | cut n =>
    obtain ⟨x, hx, rfl⟩ := Option.map_eq_some_iff.1 h
    exact cut_inv hi (running_eq hx).1 (running_eq hx).2

theorem inv_start : Inv settings start where
  calls _ _ h := by cases h
  owner _ _ _ _ _ h := by cases h
  begun _ h := by cases h
  once := List.nodup_nil

theorem inv_of_reaches (hreach : Runs.Reaches (step settings) Runs.anyEvent start w) :
    Inv settings w :=
  Runs.invariant_of_reaches inv_start (fun _ _ _ hi _ h => step_inv hi h) hreach

end Keeps

section Effects

variable {w w' : World} {e : Event} {n : Nat} {call : Call} {stage : Stage}

/-- What a step does to the committed state and to the drawing. -/
inductive Effect (w : World) (e : Event) (w' : World) : Prop where
  | none : w'.db.committed = w.db.committed → w'.invocations = w.invocations → Effect w e w'
  | commits (n : Nat) (call : Call) (stage : Stage) : e = .proceed n ∨ e = .commitRaises n →
      w.calls.get n = some call → call.stage = some stage → stage.commits = true →
      w.db.staged n = some w'.db.committed → w'.invocations = w.invocations → Effect w e w'
  | writes (n : Nat) (call : Call) (stored : StoredPlan) (inventoryId reviewId planId : HashId)
      (planOperationId : OperationId) : e = .proceed n → w.calls.get n = some call →
      call.stage = some (.writing stored) →
      call.request = .apply inventoryId reviewId planId planOperationId →
      w'.db.committed = w.db.committed →
      w'.invocations = (call.scope, planId) :: w.invocations → Effect w e w'

theorem raised_effect (w : World) (n : Nat) (call : Call) (failure : Failure) :
    Effect w e (w.raised n call failure) :=
  .none (Database.rollback_committed ..) rfl

theorem enforce_effect {α : Type} (w : World) (n : Nat) (call : Call) (result : Except Failure α)
    (after : α → Stage) : Effect w e (w.enforce n call result after) := by
  cases result with
  | ok a => exact .none rfl rfl
  | error failure => exact raised_effect w n call failure

theorem begin_effect (h : beginImmediate w n call = some w') : Effect w e w' := by
  obtain ⟨db, hdb, rfl⟩ := Option.map_eq_some_iff.1 h
  exact .none (Database.acquire_committed hdb) rfl

theorem commit_effect (hget : w.calls.get n = some call) (hstage : call.stage = some stage)
    (hcommits : stage.commits = true) {next : Stage} (h : commit w n call next = some w') :
    Effect w (.proceed n) w' := by
  obtain ⟨db, hdb, rfl⟩ := Option.map_eq_some_iff.1 h
  obtain ⟨s, hwriter, rfl⟩ := Database.commit_eq hdb
  exact .commits n call stage (.inl rfl) hget hstage hcommits (Database.staged_eq.2 hwriter) rfl

theorem proceed_effect (hget : w.calls.get n = some call) (hstage : call.stage = some stage)
    {settings : Settings} (h : proceed settings w n call stage = some w') :
    Effect w (.proceed n) w' := by
  unfold proceed at h
  split at h
  · cases h
  · cases stage with
    | beginning => exact begin_effect h
    | reading =>
      obtain rfl := Option.some.inj h
      exact enforce_effect ..
    | merging current =>
      obtain rfl := Option.some.inj h
      exact .none rfl rfl
    | reviewing current => exact commit_effect hget hstage rfl h
    | _ => cases h
  · cases stage with
    | selecting =>
      obtain rfl := Option.some.inj h
      exact enforce_effect ..
    | inserting stored =>
      obtain ⟨db, hdb, rfl⟩ := Option.map_eq_some_iff.1 h
      have hcommitted : db.committed = w.db.committed := Database.acquire_committed hdb
      exact .none hcommitted rfl
    | inserted stored => exact commit_effect hget hstage rfl h
    | _ => cases h
  · next hrequest =>
    cases stage with
    | beginning => exact begin_effect h
    | reading =>
      obtain rfl := Option.some.inj h
      exact enforce_effect ..
    | checking stored =>
      simp only [proceedApply] at h
      split at h
      · obtain rfl := Option.some.inj h
        exact raised_effect ..
      · obtain rfl := Option.some.inj h
        exact .none rfl rfl
      · obtain rfl := Option.some.inj h
        exact .none rfl rfl
    | leaving response => exact commit_effect hget hstage rfl h
    | claiming stored =>
      obtain rfl := Option.some.inj h
      exact .none rfl rfl
    | claimed stored => exact commit_effect hget hstage rfl h
    | writing stored =>
      obtain rfl := Option.some.inj h
      exact .writes n call stored _ _ _ _ rfl hget hstage hrequest rfl rfl
    | storing response =>
      obtain ⟨db, hdb, rfl⟩ := Option.map_eq_some_iff.1 h
      have hcommitted : db.committed = w.db.committed := Database.acquire_committed hdb
      exact .none hcommitted rfl
    | updated response => exact commit_effect hget hstage rfl h
    | _ => cases h

theorem step_effect {settings : Settings} (h : step settings w e = some w') :
    Effect w e w' := by
  cases e with
  | execute n scope request =>
    simp only [step] at h
    split at h
    · obtain rfl := Option.some.inj h
      exact .none rfl rfl
    · cases h
  | proceed n =>
    obtain ⟨x, hx, h⟩ := Option.bind_eq_some_iff.1 h
    exact proceed_effect (running_eq hx).1 (running_eq hx).2 h
  | prepared n plan =>
    obtain ⟨⟨call, stage⟩, _, h⟩ := Option.bind_eq_some_iff.1 h
    simp only [prepared] at h
    repeat' split at h
    all_goals cases h
    · exact raised_effect ..
    · exact raised_effect ..
    · exact .none rfl rfl
  | translated n receipt =>
    obtain ⟨⟨call, stage⟩, _, h⟩ := Option.bind_eq_some_iff.1 h
    simp only [translated] at h
    repeat' split at h
    all_goals cases h
    · exact raised_effect ..
    · exact .none rfl rfl
  | raise n =>
    obtain ⟨x, hx, rfl⟩ := Option.map_eq_some_iff.1 h
    exact raised_effect ..
  | commitRaises n =>
    obtain ⟨x, hx, h⟩ := Option.bind_eq_some_iff.1 h
    split at h
    · next hcommits =>
      obtain ⟨db, hdb, rfl⟩ := Option.map_eq_some_iff.1 h
      obtain ⟨s, hwriter, rfl⟩ := Database.commit_eq hdb
      exact .commits n x.1 x.2 (.inr rfl) (running_eq hx).1 (running_eq hx).2 hcommits
        (Database.staged_eq.2 hwriter) rfl
    · cases h
  | cut n =>
    obtain ⟨x, hx, rfl⟩ := Option.map_eq_some_iff.1 h
    exact .none (Database.rollback_committed ..) rfl

/-- The committed state changes by a commit only. -/
theorem step_commits {settings : Settings} (h : step settings w e = some w') :
    w'.db.committed = w.db.committed ∨ ∃ n call stage,
      (e = .proceed n ∨ e = .commitRaises n) ∧ w.calls.get n = some call ∧
      call.stage = some stage ∧ stage.commits = true ∧
      w.db.staged n = some w'.db.committed := by
  cases step_effect h with
  | none hsame _ => exact .inl hsame
  | commits n call stage he hget hstage hcommits hstaged _ =>
    exact .inr ⟨n, call, stage, he, hget, hstage, hcommits, hstaged⟩
  | writes _ _ _ _ _ _ _ _ _ _ _ hsame _ => exact .inl hsame

end Effects

end CadPlot.Translation
