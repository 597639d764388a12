import CadPlot.Lib.Runs
import Mathlib.Logic.Function.Basic

/-!
# Bound once, leased exclusively, applied once

A ledger binds each key to one value for good, leases the bound value to one
applier at a time and marks it applied at most once. The moves are all that may
happen to it. A system whose steps move a ledger inherits the laws: a binding
never changes, an applied value stays applied, and of the leases last reported
to the appliers of a key at most one is running.
-/

namespace CadPlot.Leases

structure Record (β ι : Type) where
  bound : β
  lease : Option (ι × Int)
  applied : Bool

/-- `granted` is the end of the lease that each applier was last told it has. -/
structure Ledger (κ β ι : Type) where
  records : κ → Option (Record β ι)
  granted : κ → ι → Option Int
  clock : Int

variable {κ β ι : Type} [DecidableEq κ] [DecidableEq ι]

namespace Ledger

def setRecord (l : Ledger κ β ι) (k : κ) (r : Record β ι) : Ledger κ β ι :=
  { l with records := Function.update l.records k (some r) }

def setGranted (l : Ledger κ β ι) (k : κ) (a : ι) (expiry : Int) : Ledger κ β ι :=
  { l with granted := Function.update l.granted k (Function.update (l.granted k) a (some expiry)) }

def Applied (l : Ledger κ β ι) (k : κ) : Prop :=
  ∃ r, l.records k = some r ∧ r.applied = true

omit [DecidableEq ι] in
theorem setRecord_records (l : Ledger κ β ι) (k k' : κ) (r : Record β ι) :
    (l.setRecord k r).records k' = if k' = k then some r else l.records k' :=
  Function.update_apply _ _ _ _

theorem setGranted_granted (l : Ledger κ β ι) (k k' : κ) (a a' : ι) (expiry : Int) :
    (l.setGranted k a expiry).granted k' a' =
      if k' = k ∧ a' = a then some expiry else l.granted k' a' := by
  by_cases hk : k' = k
  · by_cases ha : a' = a <;> simp [setGranted, hk, ha]
  · simp [setGranted, hk]

end Ledger

/-- What may happen to a ledger. A lease is granted against a reading of the clock at which no
other applier's lease is running. -/
inductive Move : Ledger κ β ι → Ledger κ β ι → Prop where
  | wait {l : Ledger κ β ι} {now : Int} (h : l.clock ≤ now) : Move l { l with clock := now }
  | bind {l : Ledger κ β ι} {k : κ} {b : β} (h : l.records k = none) :
    Move l (l.setRecord k ⟨b, none, false⟩)
  | grant {l : Ledger κ β ι} {k : κ} {r : Record β ι} {a : ι} {reading expiry : Int}
    (h : l.records k = some r) (hread : reading ≤ l.clock)
    (hfree : ∀ a' e, r.lease = some (a', e) → a' = a ∨ e ≤ reading) :
    Move l ((l.setRecord k { r with lease := some (a, expiry) }).setGranted k a expiry)
  | apply {l : Ledger κ β ι} {k : κ} {r : Record β ι} {a : ι} {reading expiry : Int}
    (h : l.records k = some r) (hlease : r.lease = some (a, expiry)) (hread : reading < expiry) :
    Move l (l.setRecord k { r with applied := true })

def Moves : Ledger κ β ι → Ledger κ β ι → Prop := Relation.ReflTransGen Move

/-- A record keeps what it is bound to, and stays applied. -/
def Kept (r r' : Record β ι) : Prop := r'.bound = r.bound ∧ (r.applied = true → r'.applied = true)

/-- A lease that an applier takes to be running is the one on record. -/
def Exclusive (l : Ledger κ β ι) : Prop :=
  ∀ k a e, l.granted k a = some e → l.clock < e →
    ∃ r, l.records k = some r ∧ r.lease = some (a, e)

omit [DecidableEq ι] in
theorem Kept.refl (r : Record β ι) : Kept r r := ⟨rfl, id⟩

omit [DecidableEq ι] in
theorem Kept.trans {r s t : Record β ι} (h : Kept r s) (h' : Kept s t) : Kept r t :=
  ⟨h'.1.trans h.1, fun ha => h'.2 (h.2 ha)⟩

variable {l l' : Ledger κ β ι}

omit [DecidableEq ι] in
/-- Replacing a record by one that keeps it keeps every record. -/
theorem setRecord_kept {k k' : κ} {r r' s : Record β ι} (hr : l.records k = some r)
    (hkept : Kept r r') (hs : l.records k' = some s) :
    ∃ s', (l.setRecord k r').records k' = some s' ∧ Kept s s' := by
  rw [Ledger.setRecord_records]
  split
  · next hk =>
    subst hk
    rw [hr] at hs
    obtain rfl := Option.some.inj hs
    exact ⟨r', rfl, hkept⟩
  · exact ⟨s, hs, .refl s⟩

theorem Move.kept (h : Move l l') {k : κ} {r : Record β ι} (hr : l.records k = some r) :
    ∃ r', l'.records k = some r' ∧ Kept r r' := by
  cases h with
  | wait => exact ⟨r, hr, .refl r⟩
  | @bind k' b hnone =>
    have hne : k ≠ k' := by
      rintro rfl
      rw [hnone] at hr
      cases hr
    refine ⟨r, ?_, .refl r⟩
    rw [Ledger.setRecord_records, if_neg hne]
    exact hr
  | grant hk => exact setRecord_kept hk ⟨rfl, id⟩ hr
  | apply hk => exact setRecord_kept hk ⟨rfl, fun _ => rfl⟩ hr

theorem Moves.kept (h : Moves l l') {k : κ} {r : Record β ι} (hr : l.records k = some r) :
    ∃ r', l'.records k = some r' ∧ Kept r r' := by
  induction h with
  | refl => exact ⟨r, hr, .refl r⟩
  | tail _ hmove ih =>
    obtain ⟨r', hr', hkept⟩ := ih
    obtain ⟨r'', hr'', hkept'⟩ := hmove.kept hr'
    exact ⟨r'', hr'', hkept.trans hkept'⟩

theorem Move.exclusive (h : Move l l') (hex : Exclusive l) : Exclusive l' := by
  intro k a e hgranted hrunning
  cases h with
  | wait hle => exact hex k a e hgranted (Int.lt_of_le_of_lt hle hrunning)
  | @bind k' b hnone =>
    obtain ⟨r, hr, hlease⟩ := hex k a e hgranted hrunning
    have hne : k ≠ k' := by
      rintro rfl
      rw [hnone] at hr
      cases hr
    refine ⟨r, ?_, hlease⟩
    rw [Ledger.setRecord_records, if_neg hne]
    exact hr
  | @grant k' r' a' reading expiry hr' hread hfree =>
    rw [Ledger.setGranted_granted] at hgranted
    change ∃ r, (l.setRecord k' _).records k = some r ∧ _
    rw [Ledger.setRecord_records]
    split at hgranted
    · next heq =>
      obtain ⟨rfl, rfl⟩ := heq
      obtain rfl := Option.some.inj hgranted
      exact ⟨_, if_pos rfl, rfl⟩
    · next hne =>
      have hlt : l.clock < e := hrunning
      obtain ⟨r, hr, hlease⟩ := hex k a e hgranted hlt
      -- A running lease of another applier on this key would have refused the grant.
      have hk : k ≠ k' := by
        rintro rfl
        rw [hr'] at hr
        obtain rfl := Option.some.inj hr
        rcases hfree a e hlease with ha | hpast
        · exact hne ⟨rfl, ha⟩
        · omega
      exact ⟨r, by rw [if_neg hk]; exact hr, hlease⟩
  | @apply k' r' a' reading expiry hr' hlease' _ =>
    obtain ⟨r, hr, hlease⟩ := hex k a e hgranted hrunning
    rw [Ledger.setRecord_records]
    split
    · next hk =>
      subst hk
      rw [hr'] at hr
      obtain rfl := Option.some.inj hr
      exact ⟨_, rfl, hlease⟩
    · exact ⟨r, hr, hlease⟩

theorem Moves.exclusive (h : Moves l l') (hex : Exclusive l) : Exclusive l' := by
  induction h with
  | refl => exact hex
  | tail _ hmove ih => exact hmove.exclusive ih

omit [DecidableEq κ] [DecidableEq ι] in
theorem Exclusive.sole (hex : Exclusive l) {k : κ} {a a' : ι} {e e' : Int}
    (h : l.granted k a = some e) (h' : l.granted k a' = some e') (hrun : l.clock < e)
    (hrun' : l.clock < e') : a = a' := by
  obtain ⟨r, hr, hlease⟩ := hex k a e h hrun
  obtain ⟨r', hr', hlease'⟩ := hex k a' e' h' hrun'
  rw [hr] at hr'
  obtain rfl := Option.some.inj hr'
  rw [hlease] at hlease'
  exact (Prod.mk.inj (Option.some.inj hlease')).1

/-- A system of numbered calls that keeps a ledger. An event that completes a marking of an
application names the key, the applier, when the call began and the reading of its check; the
answered requests for a lease are listed with their numbers. -/
structure System (σ ε κ β ι α : Type) where
  step : σ → ε → Option σ
  start : σ → Prop
  ledger : σ → Ledger κ β ι
  marking : σ → ε → Option (κ × ι × Int × Int)
  begun : σ → Nat → Prop
  answers : σ → List (Nat × κ × β × α)
  appliedAnswer : α

namespace System

variable {σ ε α : Type}

def Later (S : System σ ε κ β ι α) : σ → σ → Prop := Runs.Reaches S.step Runs.anyEvent

def Reachable (S : System σ ε κ β ι α) (s : σ) : Prop := ∃ s₀, S.start s₀ ∧ S.Later s₀ s

/-- The laws of a system: bound for good, one running lease a key, applied by its holder only,
applied for good, and reported as applied to every exact request that begins later. -/
structure Lawful (S : System σ ε κ β ι α) : Prop where
  bound : ∀ s s' k r, S.Reachable s → S.Later s s' → (S.ledger s).records k = some r →
    ∃ r', (S.ledger s').records k = some r' ∧ r'.bound = r.bound
  sole : ∀ s k a a' e e', S.Reachable s → (S.ledger s).granted k a = some e →
    (S.ledger s).granted k a' = some e' → (S.ledger s).clock < e → (S.ledger s).clock < e' → a = a'
  holder : ∀ s s' ev k, S.Reachable s → S.step s ev = some s' → ¬(S.ledger s).Applied k →
    (S.ledger s').Applied k → ∃ a since reading r expiry, S.marking s ev =
      some (k, a, since, reading) ∧ (S.ledger s).records k = some r ∧
      r.lease = some (a, expiry) ∧ since ≤ reading ∧ reading < expiry
  applied : ∀ s s' k, S.Reachable s → S.Later s s' → (S.ledger s).Applied k →
    (S.ledger s').Applied k
  answered : ∀ s s' k r, S.Reachable s → S.Later s s' → (S.ledger s).records k = some r →
    r.applied = true → ∀ n answer, (n, k, r.bound, answer) ∈ S.answers s' → ¬S.begun s n →
      answer = S.appliedAnswer

/-- A system with an invariant under which every step moves the ledger obeys the first two laws
and keeps what is applied. -/
structure Simulates (S : System σ ε κ β ι α) (Inv : σ → Prop) : Prop where
  start : ∀ s, S.start s → Inv s ∧ Exclusive (S.ledger s)
  step : ∀ s ev s', Inv s → S.step s ev = some s' → Inv s' ∧ Moves (S.ledger s) (S.ledger s')

variable {S : System σ ε κ β ι α} {Inv : σ → Prop}

theorem Simulates.later (h : S.Simulates Inv) {s s' : σ} (hs : Inv s) (hreach : S.Later s s') :
    Inv s' ∧ Moves (S.ledger s) (S.ledger s') := by
  induction hreach with
  | refl => exact ⟨hs, .refl⟩
  | tail _ _ hstep ih =>
    obtain ⟨hinv, hmoves⟩ := h.step _ _ _ ih.1 hstep
    exact ⟨hinv, ih.2.trans hmoves⟩

theorem Simulates.inv (h : S.Simulates Inv) {s : σ} (hs : S.Reachable s) : Inv s := by
  obtain ⟨s₀, hstart, hlater⟩ := hs
  exact (h.later (h.start s₀ hstart).1 hlater).1

theorem Simulates.exclusive (h : S.Simulates Inv) {s : σ} (hs : S.Reachable s) :
    Exclusive (S.ledger s) := by
  obtain ⟨s₀, hstart, hlater⟩ := hs
  exact (h.later (h.start s₀ hstart).1 hlater).2.exclusive (h.start s₀ hstart).2

theorem Simulates.kept (h : S.Simulates Inv) {s s' : σ} (hs : S.Reachable s)
    (hlater : S.Later s s') {k : κ} {r : Record β ι} (hr : (S.ledger s).records k = some r) :
    ∃ r', (S.ledger s').records k = some r' ∧ Kept r r' :=
  (h.later (h.inv hs) hlater).2.kept hr

/-- What is left to show of a system that simulates a ledger: who marks and what is answered. -/
theorem Simulates.lawful (h : S.Simulates Inv)
    (hholder : ∀ s s' ev k, Inv s → S.step s ev = some s' → ¬(S.ledger s).Applied k →
      (S.ledger s').Applied k → ∃ a since reading r expiry, S.marking s ev =
        some (k, a, since, reading) ∧ (S.ledger s).records k = some r ∧
        r.lease = some (a, expiry) ∧ since ≤ reading ∧ reading < expiry)
    (hanswered : ∀ s s' k r, Inv s → S.Later s s' → (S.ledger s).records k = some r →
      r.applied = true → ∀ n answer, (n, k, r.bound, answer) ∈ S.answers s' → ¬S.begun s n →
        answer = S.appliedAnswer) : S.Lawful where
  bound s s' k r hs hlater hr := by
    obtain ⟨r', hr', hkept⟩ := h.kept hs hlater hr
    exact ⟨r', hr', hkept.1⟩
  sole s k a a' e e' hs := (h.exclusive hs).sole
  holder s s' ev k hs := hholder s s' ev k (h.inv hs)
  applied s s' k hs hlater happlied := by
    obtain ⟨r, hr, ha⟩ := happlied
    obtain ⟨r', hr', hkept⟩ := h.kept hs hlater hr
    exact ⟨r', hr', hkept.2 ha⟩
  answered s s' k r hs := hanswered s s' k r (h.inv hs)

end System

end CadPlot.Leases
