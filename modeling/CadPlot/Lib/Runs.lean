import Mathlib.Logic.Relation

/-!
# Guarded runs of a partial step function

A system is a partial function `step : σ → ε → Option σ`: an event that is not
enabled has no successor. `Reaches step ok s t` says that `t` is reached from
`s` by steps whose events all meet the guard `ok` in the state they start from.
An unguarded run takes the guard that always holds. Invariants, monotone
measures and facts that must hold at most once are proved here once, for every
system.
-/

namespace CadPlot.Runs

variable {σ ε : Type}

inductive Reaches (step : σ → ε → Option σ) (ok : σ → ε → Prop) (s : σ) : σ → Prop where
  | refl : Reaches step ok s s
  | tail {t u : σ} {e : ε} : Reaches step ok s t → ok t e → step t e = some u →
      Reaches step ok s u

/-- The guard of an unrestricted run. -/
def anyEvent : σ → ε → Prop := fun _ _ => True

/-- Replay a list of events, stopping at the first one that is not enabled. -/
def run (step : σ → ε → Option σ) : σ → List ε → Option σ
  | s, [] => some s
  | s, e :: es =>
    match step s e with
    | none => none
    | some t => run step t es

/-- The guard holds at every step of a replay. -/
def Along (step : σ → ε → Option σ) (ok : σ → ε → Prop) : σ → List ε → Prop
  | _, [] => True
  | s, e :: es =>
    ok s e ∧
      match step s e with
      | none => True
      | some t => Along step ok t es

def decideAlong (step : σ → ε → Option σ) (ok : σ → ε → Prop) [∀ s e, Decidable (ok s e)] :
    ∀ s es, Decidable (Along step ok s es)
  | _, [] => .isTrue trivial
  | s, e :: es =>
    @instDecidableAnd _ _ _ <|
      match step s e with
      | none => .isTrue trivial
      | some t => decideAlong step ok t es

instance (step : σ → ε → Option σ) (ok : σ → ε → Prop) [∀ s e, Decidable (ok s e)] (s : σ)
    (es : List ε) : Decidable (Along step ok s es) :=
  decideAlong step ok s es

variable {step : σ → ε → Option σ} {ok : σ → ε → Prop}

theorem along_anyEvent (s : σ) (es : List ε) : Along step anyEvent s es := by
  induction es generalizing s with
  | nil => trivial
  | cons e es ih =>
    refine ⟨trivial, ?_⟩
    split
    · trivial
    · exact ih _

/-- A guard that asks nothing of the state. -/
theorem along_of_forall {es : List ε} (h : ∀ e ∈ es, ∀ s, ok s e) (s : σ) :
    Along step ok s es := by
  induction es generalizing s with
  | nil => trivial
  | cons e es ih =>
    refine ⟨h e List.mem_cons_self s, ?_⟩
    split
    · trivial
    · exact ih (fun e he => h e (List.mem_cons_of_mem _ he)) _

theorem Reaches.trans {s t u : σ} (hst : Reaches step ok s t) (htu : Reaches step ok t u) :
    Reaches step ok s u := by
  induction htu with
  | refl => exact hst
  | tail _ hok hstep ih => exact ih.tail hok hstep

theorem Reaches.single {s t : σ} {e : ε} (hok : ok s e) (hstep : step s e = some t) :
    Reaches step ok s t :=
  Reaches.refl.tail hok hstep

theorem reaches_of_run {s t : σ} {es : List ε} (hok : Along step ok s es)
    (hrun : run step s es = some t) : Reaches step ok s t := by
  induction es generalizing s with
  | nil =>
    have h : s = t := by simpa [run] using hrun
    exact h ▸ .refl
  | cons e es ih =>
    cases hs : step s e with
    | none => simp [run, hs] at hrun
    | some u =>
      have hu : run step u es = some t := by simpa [run, hs] using hrun
      have hu' : Along step ok u es := by simpa [Along, hs] using hok.2
      exact (Reaches.single hok.1 hs).trans (ih hu' hu)

/-- A replay whose last state passes a test reaches a state that passes it. -/
theorem exists_reaches_of_run (step : σ → ε → Option σ) (ok : σ → ε → Prop) (s : σ) (es : List ε)
    (p : σ → Bool) (hok : Along step ok s es) (hrun : (run step s es).any p = true) :
    ∃ t, Reaches step ok s t ∧ p t = true := by
  obtain ⟨t, ht, hp⟩ := (Option.any_eq_true _ _).1 hrun
  exact ⟨t, reaches_of_run hok ht, hp⟩

/-- A property of the start that every guarded step keeps holds of every state reached. -/
theorem invariant_of_reaches {Inv : σ → Prop} {s t : σ} (hs : Inv s)
    (hstep : ∀ a e b, Inv a → ok a e → step a e = some b → Inv b)
    (hreach : Reaches step ok s t) : Inv t := by
  induction hreach with
  | refl => exact hs
  | tail _ hok hst ih => exact hstep _ _ _ ih hok hst

/-- A reflexive and transitive relation kept by every guarded step holds along every run. -/
theorem rel_of_reaches {Inv : σ → Prop} {R : σ → σ → Prop} {s t : σ} (hs : Inv s)
    (hrefl : ∀ a, R a a) (htrans : ∀ a b c, R a b → R b c → R a c)
    (hinv : ∀ a e b, Inv a → ok a e → step a e = some b → Inv b)
    (hstep : ∀ a e b, Inv a → ok a e → step a e = some b → R a b)
    (hreach : Reaches step ok s t) : R s t := by
  induction hreach with
  | refl => exact hrefl _
  | tail hpre hok hst ih =>
    have ha := invariant_of_reaches hs hinv hpre
    exact htrans _ _ _ ih (hstep _ _ _ ha hok hst)

theorem Reaches.mono {ok' : σ → ε → Prop} (h : ∀ s e, ok s e → ok' s e) {s t : σ}
    (hreach : Reaches step ok s t) : Reaches step ok' s t := by
  induction hreach with
  | refl => exact .refl
  | tail _ hok hst ih => exact ih.tail (h _ _ hok) hst

end CadPlot.Runs
