import Mathlib.Data.List.Forall2

/-!
# Computations that may fail

When a sequence of fallible computations succeeds, and with what.
-/

namespace CadPlot

variable {ε ε' α β : Type} {x : Except ε α} {a : α}

theorem bind_eq_ok {f : α → Except ε β} {b : β} :
    (x >>= f) = .ok b ↔ ∃ a, x = .ok a ∧ f a = .ok b := by
  cases x <;> simp [bind, Except.bind]

theorem bind_eq_error {f : α → Except ε β} {error : ε} :
    (x >>= f) = .error error ↔ x = .error error ∨ ∃ a, x = .ok a ∧ f a = .error error := by
  cases x <;> simp [bind, Except.bind]

theorem map_eq_ok {f : α → β} {b : β} : f <$> x = .ok b ↔ ∃ a, x = .ok a ∧ f a = b := by
  cases x <;> simp [Functor.map, Except.map]

theorem mapError_eq_ok {f : ε → ε'} : x.mapError f = .ok a ↔ x = .ok a := by
  cases x <;> simp [Except.mapError]

theorem pure_eq_ok {b : α} : (pure b : Except ε α) = .ok a ↔ b = a := by
  simp [pure, Except.pure]

/-- Go on only where the check holds. -/
def ensure (check : Bool) (error : ε) : Except ε Unit := if check then .ok () else .error error

theorem ensure_eq_ok {check : Bool} {error : ε} : ensure check error = .ok () ↔ check = true := by
  cases check <;> simp [ensure]

theorem ensure_bind_eq_ok {check : Bool} {error : ε} {f : Unit → Except ε β} {b : β} :
    (ensure check error >>= f) = .ok b ↔ check = true ∧ f () = .ok b := by
  cases check <;> simp [ensure, bind, Except.bind]

/-- A walk over a list succeeds when every element does. -/
theorem mapM_eq_ok {f : α → Except ε β} {xs : List α} {ys : List β} :
    xs.mapM f = .ok ys ↔ List.Forall₂ (fun x y => f x = .ok y) xs ys := by
  induction xs generalizing ys with
  | nil => simp [pure, Except.pure, eq_comm]
  | cons x xs ih =>
    rw [List.mapM_cons, bind_eq_ok, List.forall₂_cons_left_iff]
    constructor
    · rintro ⟨y, hy, h⟩
      obtain ⟨zs, hzs, h⟩ := bind_eq_ok.1 h
      exact ⟨y, zs, hy, ih.1 hzs, (pure_eq_ok.1 h).symm⟩
    · rintro ⟨y, zs, hy, hzs, rfl⟩
      exact ⟨y, hy, bind_eq_ok.2 ⟨zs, ih.2 hzs, rfl⟩⟩

theorem exists_mapM_eq_ok {f : α → Except ε β} {xs : List α} :
    (∃ ys, xs.mapM f = .ok ys) ↔ ∀ x ∈ xs, ∃ y, f x = .ok y := by
  simp only [mapM_eq_ok]
  induction xs with
  | nil => simp
  | cons x xs ih =>
    rw [List.forall_mem_cons, ← ih]
    simp only [List.forall₂_cons_left_iff]
    constructor
    · rintro ⟨_, y, ys, hy, hys, rfl⟩
      exact ⟨⟨y, hy⟩, ys, hys⟩
    · rintro ⟨⟨y, hy⟩, ys, hys⟩
      exact ⟨_, y, ys, hy, hys, rfl⟩

theorem forall₂_mem_right {R : α → β → Prop} {xs : List α} {ys : List β}
    (h : List.Forall₂ R xs ys) {y : β} (hy : y ∈ ys) : ∃ x ∈ xs, R x y := by
  induction h with
  | nil => cases hy
  | cons hxy _ ih =>
    rcases List.mem_cons.1 hy with rfl | hy
    · exact ⟨_, List.mem_cons_self, hxy⟩
    · obtain ⟨x, hx, hr⟩ := ih hy
      exact ⟨x, List.mem_cons_of_mem _ hx, hr⟩

/-- A property of all results is one of all that they come from. -/
theorem forall₂_mem_iff {R : α → β → Prop} {P : β → Prop} {Q : α → Prop} {xs : List α}
    {ys : List β} (h : List.Forall₂ R xs ys) (hiff : ∀ {x y}, R x y → (P y ↔ Q x)) :
    (∀ y ∈ ys, P y) ↔ ∀ x ∈ xs, Q x := by
  induction h with
  | nil => simp
  | cons hxy _ ih => simp only [List.forall_mem_cons, hiff hxy, ih]

/-- Check each element of a list, with the elements before it at hand. -/
def checkEach (check : List α → α → Except ε Unit) : List α → List α → Except ε Unit
  | _, [] => .ok ()
  | before, x :: xs => do
    check before x
    checkEach check (before ++ [x]) xs

/-- A walk whose checks are about an element at its place, and about it and each before it. -/
theorem checkEach_eq_ok {check : List α → α → Except ε Unit} {P : Nat → α → Prop}
    {R : α → α → Prop}
    (h : ∀ before x, check before x = .ok () ↔ P before.length x ∧ ∀ y ∈ before, R y x)
    {before xs : List α} :
    checkEach check before xs = .ok () ↔
      (∀ e ∈ xs.zipIdx before.length, P e.2 e.1) ∧ xs.Pairwise R ∧
        ∀ y ∈ before, ∀ x ∈ xs, R y x := by
  induction xs generalizing before with
  | nil => simp [checkEach]
  | cons x xs ih =>
    rw [checkEach, bind_eq_ok]
    simp only [exists_const, h, ih, List.zipIdx_cons, List.forall_mem_cons,
      List.forall_mem_append, List.pairwise_cons, List.length_append, List.length_singleton]
    constructor
    · rintro ⟨⟨hx, hbefore⟩, hxs, hpair, hall, hrest, _⟩
      exact ⟨⟨hx, hxs⟩, ⟨hrest, hpair⟩, fun y hy => ⟨hbefore y hy, hall y hy⟩⟩
    · rintro ⟨⟨hx, hxs⟩, ⟨hrest, hpair⟩, hall⟩
      exact ⟨⟨hx, fun y hy => (hall y hy).1⟩, hxs, hpair, fun y hy => (hall y hy).2, hrest,
        by simp⟩

end CadPlot
