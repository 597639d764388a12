import CadPlot.Gateway.ReplayGuard

/-!
# The in-memory guard keeps a ledger

Each call moves the ledger by at most one move, once the clock has advanced.
-/

namespace CadPlot.Gateway.Replay

open Leases InMemoryResultReplayGuard

structure Inv (w : World) : Prop where
  leased : ∀ k x, w.guard.applications.get k = some x → ∃ value, w.guard.seen.get k = some value
  applied : ∀ k, k ∈ w.guard.applied → ∃ value, w.guard.seen.get k = some value
  calls : ∀ x ∈ w.answers, x.1 < w.calls

section Calls

variable {g : InMemoryResultReplayGuard} {key : Key} {value : Binding Datetime}

/-- A claim leaves the guard or binds a key that was free. -/
theorem claim_cases (g : InMemoryResultReplayGuard) (key : Key) (value : Binding Datetime)
    (claimExpiresAt now : Datetime) :
    (g.claim key value claimExpiresAt now).2 = g ∨
      g.seen.get key = none ∧
        (g.claim key value claimExpiresAt now).2 = { g with seen := g.seen.set key value } := by
  unfold claim
  split
  · exact .inl rfl
  · next hnone =>
    split
    · exact .inl rfl
    · split
      · exact .inl rfl
      · exact .inr ⟨hnone, rfl⟩

/-- An acquisition leaves the guard, or leases to the caller what no other applier has leased. -/
theorem acquire_cases (g : InMemoryResultReplayGuard) (key : Key) (value : Binding Datetime)
    (applicationId : Uuid) (leaseSeconds : Int) (now : Datetime) :
    ((g.acquireApplication key value applicationId leaseSeconds now).2 = g ∧
      ((g.acquireApplication key value applicationId leaseSeconds now).1 = .acquired →
        ∃ expiry, g.applications.get key = some (applicationId, expiry) ∧
          g.seen.get key = some value ∧ key ∉ g.applied)) ∨
    ∃ t expiry, now.utc = some t ∧ g.seen.get key = some value ∧ key ∉ g.applied ∧
      (∀ holder e, g.applications.get key = some (holder, e) → e ≤ t) ∧
      g.acquireApplication key value applicationId leaseSeconds now =
        (.acquired, { g with applications := g.applications.set key (applicationId, expiry) }) := by
  unfold acquireApplication
  split
  · exact .inl ⟨rfl, by simp⟩
  · split
    · exact .inl ⟨rfl, by simp⟩
    · next hseen =>
      split
      · exact .inl ⟨rfl, by simp⟩
      · next hfresh =>
        split
        · exact .inl ⟨rfl, by simp⟩
        · next t ht =>
          simp only
          split
          · next holder expiry happ =>
            split
            · refine .inl ⟨rfl, fun hacq => ?_⟩
              have hsame : holder = applicationId := by
                by_contra hne
                simp [hne] at hacq
              exact ⟨expiry, hsame ▸ happ, not_not.1 hseen, hfresh⟩
            · next hpast =>
              refine .inr ⟨t, _, ht, not_not.1 hseen, hfresh, fun h e he => ?_, rfl⟩
              have heq := Option.some.inj (happ.symm.trans he)
              have hexp : expiry = e := congrArg Prod.snd heq
              omega
          · next happ =>
            refine .inr ⟨t, _, ht, not_not.1 hseen, hfresh, fun h e he => ?_, rfl⟩
            rw [happ] at he
            cases he

/-- What has been applied is reported as applied to every exact well-formed request. -/
theorem acquire_applied (hseen : g.seen.get key = some value) (happlied : key ∈ g.applied)
    {applicationId : Uuid} {leaseSeconds : Int}
    (hwf : wellFormed applicationId leaseSeconds = true) (now : Datetime) :
    (g.acquireApplication key value applicationId leaseSeconds now).1 = .applied := by
  simp [acquireApplication, hwf, hseen, happlied]

/-- Marking leaves the guard or applies what the caller has leased. -/
theorem mark_cases (g : InMemoryResultReplayGuard) (key : Key) (value : Binding Datetime)
    (applicationId : Uuid) (now : Datetime) :
    (g.markApplied key value applicationId now).2 = g ∨
      ∃ t expiry, now.utc = some t ∧ g.seen.get key = some value ∧
        g.applications.get key = some (applicationId, expiry) ∧ t < expiry ∧
        (g.markApplied key value applicationId now).2 =
          { g with applied := insert key g.applied } := by
  unfold markApplied
  split
  · exact .inl rfl
  · next hseen =>
    split
    · exact .inl rfl
    · split
      · next t holder expiry ht happ =>
        split
        · next hown => exact .inr ⟨t, expiry, ht, not_not.1 hseen, hown.1 ▸ happ, hown.2, rfl⟩
        · exact .inl rfl
      · exact .inl rfl

end Calls

section Steps

variable {w w' : World} {now : Datetime}

theorem claim_ledger (hi : Inv w) {key : Key} (hnone : w.guard.seen.get key = none)
    (value : Binding Datetime) :
    { w with guard := { w.guard with seen := w.guard.seen.set key value } }.ledger =
      w.ledger.setRecord key ⟨value, none, false⟩ := by
  have hlease : w.guard.applications.get key = none := by
    by_contra hsome
    obtain ⟨x, hx⟩ := Option.ne_none_iff_exists'.1 hsome
    obtain ⟨b, hb⟩ := hi.leased key x hx
    rw [hnone] at hb
    cases hb
  have happlied : key ∉ w.guard.applied := by
    intro hmem
    obtain ⟨b, hb⟩ := hi.applied key hmem
    rw [hnone] at hb
    cases hb
  simp only [World.ledger, Ledger.setRecord, Ledger.mk.injEq, and_true]
  funext k
  by_cases hk : k = key
  · subst hk
    simp [hlease, happlied]
  · simp [hk]

theorem acquire_ledger {key : Key} {value : Binding Datetime}
    (hseen : w.guard.seen.get key = some value) (applicationId : Uuid) (expiry : Int)
    (answers : List (Nat × Key × Binding Datetime × ResultApplicationStatus)) :
    World.ledger { w with
      guard := { w.guard with
        applications := w.guard.applications.set key (applicationId, expiry) }
      granted := Function.update w.granted key
        (Function.update (w.granted key) applicationId (some expiry))
      answers := answers } =
      ((w.ledger.setRecord key ⟨value, some (applicationId, expiry),
        decide (key ∈ w.guard.applied)⟩).setGranted key applicationId expiry) := by
  simp only [World.ledger, Ledger.setRecord, Ledger.setGranted, Ledger.mk.injEq, and_true]
  funext k
  by_cases hk : k = key
  · subst hk
    simp [hseen]
  · simp [hk]

theorem mark_ledger {key : Key} {value : Binding Datetime}
    (hseen : w.guard.seen.get key = some value) :
    { w with guard := { w.guard with applied := insert key w.guard.applied } }.ledger =
      w.ledger.setRecord key ⟨value, w.guard.applications.get key, true⟩ := by
  simp only [World.ledger, Ledger.setRecord, Ledger.mk.injEq, and_true]
  funext k
  by_cases hk : k = key
  · subst hk
    simp [hseen]
  · simp [hk]

theorem ledger_record {key : Key} {value : Binding Datetime}
    (hseen : w.guard.seen.get key = some value) :
    w.ledger.records key =
      some ⟨value, w.guard.applications.get key, decide (key ∈ w.guard.applied)⟩ := by
  simp [World.ledger, hseen]

theorem answer_moves (hi : Inv w) (htime : ∀ t, now.utc = some t → w.clock = t) (call : Call) :
    Moves w.ledger (w.answer now call).ledger := by
  cases call with
  | classify key value => exact .refl
  | claim key value claimExpiresAt =>
    rcases claim_cases w.guard key value claimExpiresAt now with hsame | ⟨hnone, hset⟩
    · simp only [World.answer, hsame]
      exact .refl
    · simp only [World.answer, hset]
      rw [claim_ledger hi hnone]
      exact .single (.bind (by simp [World.ledger, hnone]))
  | acquireApplication key value applicationId leaseSeconds =>
    rcases acquire_cases w.guard key value applicationId leaseSeconds now with
      ⟨hsame, hacq⟩ | ⟨t, expiry, ht, hseen, hfresh, hfree, heq⟩
    · simp only [World.answer, hsame]
      cases hstatus : (w.guard.acquireApplication key value applicationId leaseSeconds now).1 with
      | acquired =>
        -- The caller has the lease already: it is granted once more as it stands.
        obtain ⟨expiry, happ, hseen, _⟩ := hacq hstatus
        have hgrant := acquire_ledger hseen applicationId expiry
          (w.answer now (.acquireApplication key value applicationId leaseSeconds)).answers
        simp only [Dict.set_get _ happ, World.answer, hstatus] at hgrant
        simp only [happ, hgrant]
        exact .single (.grant (ledger_record hseen) (Int.le_refl _) fun a e he => .inl (by
          have heq := Option.some.inj (happ.symm.trans he)
          exact (congrArg Prod.fst heq).symm))
      | _ => exact .refl
    · simp only [World.answer, heq, Dict.get_set_same]
      rw [acquire_ledger hseen]
      exact .single (.grant (ledger_record hseen) (htime t ht).ge fun a e he => .inr (hfree a e he))
  | markApplied key value applicationId =>
    rcases mark_cases w.guard key value applicationId now with hsame | ⟨t, e, ht, hseen, happ, hlt, hset⟩
    · simp only [World.answer, hsame]
      exact .refl
    · simp only [World.answer, hset]
      rw [mark_ledger hseen]
      exact .single (.apply (ledger_record hseen) happ hlt)

/-- What a call adds to the answers is its own. -/
theorem answer_answers (w : World) (now : Datetime) (call : Call) :
    (w.answer now call).answers = w.answers ∨ ∃ key value applicationId leaseSeconds,
      wellFormed applicationId leaseSeconds = true ∧
        (w.answer now call).answers = (w.calls, key, value,
          (w.guard.acquireApplication key value applicationId leaseSeconds now).1) :: w.answers := by
  cases call with
  | acquireApplication key value applicationId leaseSeconds =>
    by_cases hwf : wellFormed applicationId leaseSeconds = true
    · exact .inr ⟨key, value, applicationId, leaseSeconds, hwf, if_pos hwf⟩
    · exact .inl (if_neg hwf)
  | _ => exact .inl rfl

theorem answer_bound (hi : Inv w) (now : Datetime) (call : Call) :
    (∀ k x, (w.answer now call).guard.applications.get k = some x →
        ∃ value, (w.answer now call).guard.seen.get k = some value) ∧
      ∀ k, k ∈ (w.answer now call).guard.applied →
        ∃ value, (w.answer now call).guard.seen.get k = some value := by
  cases call with
  | classify key value => exact ⟨hi.leased, hi.applied⟩
  | claim key value claimExpiresAt =>
    rcases claim_cases w.guard key value claimExpiresAt now with hsame | ⟨_, hset⟩
    · simp only [World.answer, hsame]
      exact ⟨hi.leased, hi.applied⟩
    · simp only [World.answer, hset, Dict.get_set]
      refine ⟨fun k x hx => ?_, fun k hk => ?_⟩ <;> split
      · exact ⟨value, rfl⟩
      · exact hi.leased k x hx
      · exact ⟨value, rfl⟩
      · exact hi.applied k hk
  | acquireApplication key value applicationId leaseSeconds =>
    rcases acquire_cases w.guard key value applicationId leaseSeconds now with
      ⟨hsame, _⟩ | ⟨_, _, _, hseen, _, _, heq⟩
    · simp only [World.answer, hsame]
      exact ⟨hi.leased, hi.applied⟩
    · simp only [World.answer, heq, Dict.get_set]
      refine ⟨fun k x hx => ?_, hi.applied⟩
      split at hx
      · next hk => exact ⟨value, hk ▸ hseen⟩
      · exact hi.leased k x hx
  | markApplied key value applicationId =>
    rcases mark_cases w.guard key value applicationId now with
      hsame | ⟨_, _, _, hseen, _, _, hset⟩
    · simp only [World.answer, hsame]
      exact ⟨hi.leased, hi.applied⟩
    · simp only [World.answer, hset, Finset.mem_insert]
      refine ⟨hi.leased, fun k hk => ?_⟩
      rcases hk with rfl | hk
      · exact ⟨value, hseen⟩
      · exact hi.applied k hk

/-- A call is answered at a time that has not gone back. -/
theorem step_eq {e : Call × Datetime} (hstep : step w e = some w') :
    ∃ clock, w.clock ≤ clock ∧ (∀ t, e.2.utc = some t → clock = t) ∧
      w' = { ({ w with clock := clock }.answer e.2 e.1) with calls := w.calls + 1 } := by
  unfold step tick at hstep
  cases hutc : e.2.utc with
  | none =>
    simp only [hutc] at hstep
    exact ⟨w.clock, Int.le_refl _, by simp, (Option.some.inj hstep).symm⟩
  | some t =>
    simp only [hutc] at hstep
    split at hstep
    · cases hstep
    · next clock hclock =>
      split at hclock
      · next hle =>
        obtain rfl := Option.some.inj hclock
        exact ⟨t, hle, by simp, (Option.some.inj hstep).symm⟩
      · cases hclock

theorem inMemory_simulates : inMemory.Simulates Inv where
  start w hstart := by
    obtain ⟨clocked, clock, rfl⟩ := hstart
    exact ⟨⟨by simp [emptyGuard], by simp [emptyGuard], by simp⟩,
      fun k a e hgranted => by simp [inMemory, World.ledger] at hgranted⟩
  step w e w' hi hstep := by
    obtain ⟨clock, hle, htime, rfl⟩ := step_eq hstep
    have hi' : Inv { w with clock := clock } := ⟨hi.leased, hi.applied, hi.calls⟩
    obtain ⟨hleased, happlied⟩ := answer_bound hi' e.2 e.1
    refine ⟨⟨hleased, happlied, fun x hx => ?_⟩, ?_⟩
    · rcases answer_answers { w with clock := clock } e.2 e.1 with hsame | ⟨_, _, _, _, _, hnew⟩
      · exact Nat.lt_succ_of_lt (hi.calls x (hsame ▸ hx))
      · have hmem : x ∈ _ :: w.answers := hnew ▸ hx
        rcases List.mem_cons.1 hmem with rfl | hold
        · exact Nat.lt_succ_self _
        · exact Nat.lt_succ_of_lt (hi.calls x hold)
    · have hwait : Move w.ledger { w with clock := clock }.ledger := .wait hle
      exact (Relation.ReflTransGen.single hwait).trans (answer_moves hi' htime e.1)

theorem ledger_applied_iff {k : Key} :
    w.ledger.Applied k ↔ k ∈ w.guard.applied ∧ ∃ value, w.guard.seen.get k = some value := by
  constructor
  · rintro ⟨r, hr, ha⟩
    obtain ⟨value, hseen, rfl⟩ := Option.map_eq_some_iff.1 hr
    exact ⟨of_decide_eq_true ha, value, hseen⟩
  · rintro ⟨hk, value, hseen⟩
    exact ⟨_, ledger_record hseen, decide_eq_true hk⟩

/-- Only a mark of the holder of a running lease applies a record. -/
theorem inMemory_holder {e : Call × Datetime} {k : Key} (hi : Inv w)
    (hstep : step w e = some w') (hbefore : ¬w.ledger.Applied k) (hafter : w'.ledger.Applied k) :
    ∃ a since reading r expiry, inMemory.marking w e = some (k, a, since, reading) ∧
      w.ledger.records k = some r ∧ r.lease = some (a, expiry) ∧ since ≤ reading ∧
        reading < expiry := by
  obtain ⟨clock, hle, htime, rfl⟩ := step_eq hstep
  obtain ⟨call, now⟩ := e
  obtain ⟨hmem, _⟩ := ledger_applied_iff.1 hafter
  have hfresh : k ∉ w.guard.applied := fun hk =>
    hbefore (ledger_applied_iff.2 ⟨hk, hi.applied k hk⟩)
  cases call with
  | classify key value => exact absurd hmem hfresh
  | claim key value claimExpiresAt =>
    rcases claim_cases w.guard key value claimExpiresAt now with hsame | ⟨_, hset⟩
    · exact absurd (hsame ▸ hmem) hfresh
    · have hkept := congrArg InMemoryResultReplayGuard.applied hset
      exact absurd (hkept ▸ hmem) hfresh
  | acquireApplication key value applicationId leaseSeconds =>
    rcases acquire_cases w.guard key value applicationId leaseSeconds now with
      ⟨hsame, _⟩ | ⟨_, _, _, _, _, _, heq⟩
    · exact absurd (hsame ▸ hmem) hfresh
    · have hkept := congrArg (fun x => InMemoryResultReplayGuard.applied x.2) heq
      exact absurd (hkept ▸ hmem) hfresh
  | markApplied key value applicationId =>
    rcases mark_cases w.guard key value applicationId now with
      hsame | ⟨t, expiry, ht, hseen, happ, hlt, hset⟩
    · exact absurd (hsame ▸ hmem) hfresh
    · have hadded : (w.guard.markApplied key value applicationId now).2.applied =
          insert key w.guard.applied := congrArg InMemoryResultReplayGuard.applied hset
      have hins : k ∈ insert key w.guard.applied := hadded ▸ hmem
      obtain rfl := (Finset.mem_insert.1 hins).resolve_right hfresh
      have hle' : w.clock ≤ t := htime t ht ▸ hle
      exact ⟨applicationId, w.clock, t, _, expiry, by simp [inMemory, ht], ledger_record hseen,
        happ, hle', hlt⟩

/-- Every exact well-formed request that begins after the record was applied is told so. -/
theorem inMemory_answered {k : Key} {r : Record (Binding Datetime) Uuid} (hi : Inv w)
    (hlater : inMemory.Later w w') (hr : w.ledger.records k = some r) (ha : r.applied = true) :
    ∀ n answer, (n, k, r.bound, answer) ∈ w'.answers → ¬n < w.calls → answer = .applied := by
  induction hlater with
  | refl => exact fun n answer hmem hn => absurd (hi.calls _ hmem) hn
  | @tail v v' e hlater' _ hstep ih =>
    intro n answer hmem hn
    obtain ⟨hv, hmoves⟩ := inMemory_simulates.later hi hlater'
    obtain ⟨r', hr', hkept⟩ := hmoves.kept hr
    obtain ⟨value, hseen, rfl⟩ := Option.map_eq_some_iff.1 hr'
    obtain ⟨clock, _, _, rfl⟩ := step_eq hstep
    rcases answer_answers { v with clock := clock } e.2 e.1 with
      hsame | ⟨key, value', applicationId, leaseSeconds, hwf, hnew⟩
    · exact ih n answer (hsame ▸ hmem) hn
    · have hmem' : (n, k, r.bound, answer) ∈ _ :: v.answers := hnew ▸ hmem
      rcases List.mem_cons.1 hmem' with heq | hold
      · simp only [Prod.mk.injEq] at heq
        obtain ⟨_, rfl, rfl, rfl⟩ := heq
        have hbound : value = r.bound := hkept.1
        exact acquire_applied (hbound ▸ hseen) (of_decide_eq_true (hkept.2 ha)) hwf e.2
      · exact ih n answer hold hn

theorem inMemory_lawful : inMemory.Lawful :=
  inMemory_simulates.lawful (fun _ _ _ _ hi => inMemory_holder hi)
    fun _ _ _ _ hi hlater hr ha => inMemory_answered hi hlater hr ha

end Steps

end CadPlot.Gateway.Replay
