import CadPlot.Lib.Outcome
import Mathlib.Data.List.Nodup
import Mathlib.Logic.Relation

/-!
# Walks that enter each node once

A depth-first walk over a graph, cycles and all. Nodes with one key are one node
to it, and what is done to enter a node may fail. A walk that ends has entered
its nodes one after the other, each once, and everything that its roots lead to.
Which order that is depends on nothing but the graph.
-/

namespace CadPlot.Traversal

open Relation (ReflTransGen)

variable {ν κ ε σ σ' : Type}

theorem foldlM_append_eq_ok {f : σ → ν → Except ε σ} {xs ys : List ν} {s t : σ} :
    (xs ++ ys).foldlM f s = .ok t ↔ ∃ u, xs.foldlM f s = .ok u ∧ ys.foldlM f u = .ok t := by
  rw [List.foldlM_append, bind_eq_ok]

theorem foldlM_cons_eq_ok {f : σ → ν → Except ε σ} {x : ν} {xs : List ν} {s t : σ} :
    (x :: xs).foldlM f s = .ok t ↔ ∃ u, f s x = .ok u ∧ xs.foldlM f u = .ok t := by
  rw [List.foldlM_cons, bind_eq_ok]

/-- The walk, by how many levels it may still go down. -/
def walk [DecidableEq κ] (children : ν → List ν) (key : ν → κ) (deep : ε) (seen : σ → List κ)
    (enter : σ → ν → Except ε σ) : Nat → σ → ν → Except ε σ
  | 0, _, _ => .error deep
  | depth + 1, s, x =>
    if key x ∈ seen s then .ok s
    else do
      let entered ← enter s x
      (children x).foldlM (walk children key deep seen enter depth) entered

variable {children : ν → List ν} {key : ν → κ} {deep : ε}
  {seen : σ → List κ} {enter : σ → ν → Except ε σ}

/-- What a walk from some roots has done: the nodes it has entered, in order. -/
structure Walked (children : ν → List ν) (key : ν → κ) (seen : σ → List κ)
    (enter : σ → ν → Except ε σ) (roots : List ν) (s t : σ) (new : List ν) : Prop where
  entered : new.foldlM enter s = .ok t
  kept : seen t = seen s ++ new.map key
  nodup : (new.map key).Nodup
  fresh : ∀ x ∈ new, key x ∉ seen s
  rooted : ∀ x ∈ roots, key x ∈ seen t
  closed : ∀ x ∈ new, ∀ y ∈ children x, key y ∈ seen t
  reached : ∀ x ∈ new, ∃ r ∈ roots, ReflTransGen (fun a b => b ∈ children a) r x

theorem Walked.none (s : σ) : Walked children key seen enter [] s s [] where
  entered := rfl
  kept := (List.append_nil _).symm
  nodup := List.nodup_nil
  fresh _ h := absurd h List.not_mem_nil
  rooted _ h := absurd h List.not_mem_nil
  closed _ h := absurd h List.not_mem_nil
  reached _ h := absurd h List.not_mem_nil

/-- A root that has been entered before. -/
theorem Walked.known {s : σ} {x : ν} (h : key x ∈ seen s) :
    Walked children key seen enter [x] s s [] where
  entered := rfl
  kept := (List.append_nil _).symm
  nodup := List.nodup_nil
  fresh _ h := absurd h List.not_mem_nil
  rooted _ hy := List.mem_singleton.1 hy ▸ h
  closed _ h := absurd h List.not_mem_nil
  reached _ h := absurd h List.not_mem_nil

/-- One walk after another. -/
theorem Walked.append {roots roots' : List ν} {s t u : σ} {new new' : List ν}
    (h : Walked children key seen enter roots s t new)
    (h' : Walked children key seen enter roots' t u new') :
    Walked children key seen enter (roots ++ roots') s u (new ++ new') := by
  have hkept : ∀ k, k ∈ seen t → k ∈ seen u := fun k hk => by
    rw [h'.kept]
    exact List.mem_append_left _ hk
  refine ⟨foldlM_append_eq_ok.2 ⟨t, h.entered, h'.entered⟩, ?_, ?_, ?_, ?_, ?_, ?_⟩
  · rw [h'.kept, h.kept, List.map_append, List.append_assoc]
  · rw [List.map_append]
    refine h.nodup.append h'.nodup fun k hk hk' => ?_
    obtain ⟨x, hx, rfl⟩ := List.mem_map.1 hk'
    refine h'.fresh x hx ?_
    rw [h.kept]
    exact List.mem_append_right _ hk
  · intro x hx
    rcases List.mem_append.1 hx with hx | hx
    · exact h.fresh x hx
    · intro hseen
      refine h'.fresh x hx ?_
      rw [h.kept]
      exact List.mem_append_left _ hseen
  · intro x hx
    rcases List.mem_append.1 hx with hx | hx
    · exact hkept _ (h.rooted x hx)
    · exact h'.rooted x hx
  · intro x hx y hy
    rcases List.mem_append.1 hx with hx | hx
    · exact hkept _ (h.closed x hx y hy)
    · exact h'.closed x hx y hy
  · intro x hx
    rcases List.mem_append.1 hx with hx | hx
    · obtain ⟨r, hr, hpath⟩ := h.reached x hx
      exact ⟨r, List.mem_append_left _ hr, hpath⟩
    · obtain ⟨r, hr, hpath⟩ := h'.reached x hx
      exact ⟨r, List.mem_append_right _ hr, hpath⟩

/-- A root that is entered, and then its children. -/
theorem Walked.root {x : ν} {s u t : σ} {new : List ν} (hnew : key x ∉ seen s)
    (henter : enter s x = .ok u) (hseen : seen u = seen s ++ [key x])
    (h : Walked children key seen enter (children x) u t new) :
    Walked children key seen enter [x] s t (x :: new) := by
  have hx : key x ∈ seen t := by
    rw [h.kept, hseen]
    exact List.mem_append_left _ (List.mem_append_right _ (List.mem_singleton_self _))
  refine ⟨foldlM_cons_eq_ok.2 ⟨u, henter, h.entered⟩, ?_, ?_, ?_, ?_, ?_, ?_⟩
  · rw [h.kept, hseen, List.append_assoc, List.map_cons]
    rfl
  · rw [List.map_cons, List.nodup_cons]
    refine ⟨fun hmem => ?_, h.nodup⟩
    obtain ⟨y, hy, heq⟩ := List.mem_map.1 hmem
    refine h.fresh y hy ?_
    rw [hseen, heq]
    exact List.mem_append_right _ (List.mem_singleton_self _)
  · intro y hy
    rcases List.mem_cons.1 hy with rfl | hy
    · exact hnew
    · intro hmem
      refine h.fresh y hy ?_
      rw [hseen]
      exact List.mem_append_left _ hmem
  · intro y hy
    exact List.mem_singleton.1 hy ▸ hx
  · intro y hy
    rcases List.mem_cons.1 hy with rfl | hy
    · exact h.rooted
    · exact h.closed y hy
  · intro y hy
    refine ⟨x, List.mem_singleton_self _, ?_⟩
    rcases List.mem_cons.1 hy with rfl | hy
    · exact .refl
    · obtain ⟨r, hr, hpath⟩ := h.reached y hy
      exact .head hr hpath

/-- Another way to enter the same nodes, over states of its own. -/
def Follows [DecidableEq κ] (children : ν → List ν) (key : ν → κ) (deep : ε) (seen' : σ' → List κ)
    (enter' : σ' → ν → Except ε σ') (depth : Nat) (roots : List ν) (start : List κ)
    (new : List ν) : Prop :=
  ∀ s' t', seen' s' = start → new.foldlM enter' s' = .ok t' →
    roots.foldlM (walk children key deep seen' enter' depth) s' = .ok t'

section Walk

variable {seen' : σ' → List κ} {enter' : σ' → ν → Except ε σ'}

theorem seen_of_entered (h : ∀ s x t, enter s x = .ok t → seen t = seen s ++ [key x])
    {new : List ν} {s t : σ} (hnew : new.foldlM enter s = .ok t) :
    seen t = seen s ++ new.map key := by
  induction new generalizing s with
  | nil =>
    obtain rfl := pure_eq_ok.1 hnew
    exact (List.append_nil _).symm
  | cons x new ih =>
    obtain ⟨u, hu, hnew⟩ := foldlM_cons_eq_ok.1 hnew
    rw [ih hnew, h _ _ _ hu, List.append_assoc, List.map_cons]
    rfl

variable [DecidableEq κ]

/-- What a walk does from each of its roots it does from all of them. -/
theorem walked_each {depth : Nat}
    (h' : ∀ s x t, enter' s x = .ok t → seen' t = seen' s ++ [key x])
    (hroot : ∀ s x t, walk children key deep seen enter depth s x = .ok t →
      ∃ new, Walked children key seen enter [x] s t new ∧
        Follows children key deep seen' enter' depth [x] (seen s) new)
    {roots : List ν} {s t : σ}
    (hroots : roots.foldlM (walk children key deep seen enter depth) s = .ok t) :
    ∃ new, Walked children key seen enter roots s t new ∧
      Follows children key deep seen' enter' depth roots (seen s) new := by
  induction roots generalizing s with
  | nil =>
    obtain rfl := pure_eq_ok.1 hroots
    exact ⟨[], .none _, fun s' t' _ hnew => hnew⟩
  | cons x roots ih =>
    obtain ⟨u, hu, hrest⟩ := foldlM_cons_eq_ok.1 hroots
    obtain ⟨first, hfirst, hfollow⟩ := hroot s x u hu
    obtain ⟨rest, hwalked, hfollows⟩ := ih hrest
    refine ⟨first ++ rest, hfirst.append hwalked, fun s' t' hs' hnew => ?_⟩
    obtain ⟨u', hfirst', hrest'⟩ := foldlM_append_eq_ok.1 hnew
    obtain ⟨v', hv', hnil⟩ := foldlM_cons_eq_ok.1 (hfollow s' u' hs' hfirst')
    obtain rfl := pure_eq_ok.1 hnil
    refine foldlM_cons_eq_ok.2 ⟨v', hv', hfollows v' t' ?_ hrest'⟩
    rw [seen_of_entered h' hfirst', hs', hfirst.kept]

/-- A walk that ends has entered its nodes in order, and any other way to enter these, where it
succeeds, walks the same. -/
theorem walked_of_walk (h : ∀ s x t, enter s x = .ok t → seen t = seen s ++ [key x])
    (h' : ∀ s x t, enter' s x = .ok t → seen' t = seen' s ++ [key x]) {depth : Nat}
    {roots : List ν} {s t : σ}
    (hroots : roots.foldlM (walk children key deep seen enter depth) s = .ok t) :
    ∃ new, Walked children key seen enter roots s t new ∧
      Follows children key deep seen' enter' depth roots (seen s) new := by
  refine walked_each h' ?_ hroots
  -- One root, by induction on the levels below it.
  clear hroots roots s t
  induction depth with
  | zero =>
    intro s x t hwalk
    cases hwalk
  | succ depth ih =>
    intro s x t hwalk
    rw [walk] at hwalk
    by_cases hx : key x ∈ seen s
    · rw [if_pos hx] at hwalk
      obtain rfl := Except.ok.inj hwalk
      refine ⟨[], .known hx, fun s' t' hs' hnew => ?_⟩
      obtain rfl := pure_eq_ok.1 hnew
      refine foldlM_cons_eq_ok.2 ⟨s', ?_, rfl⟩
      rw [walk, if_pos (hs' ▸ hx)]
    · rw [if_neg hx] at hwalk
      obtain ⟨u, hu, hchildren⟩ := bind_eq_ok.1 hwalk
      obtain ⟨new, hwalked, hfollows⟩ := walked_each h' ih hchildren
      refine ⟨x :: new, hwalked.root hx hu (h _ _ _ hu), fun s' t' hs' hnew => ?_⟩
      obtain ⟨u', hu', hnew'⟩ := foldlM_cons_eq_ok.1 hnew
      refine foldlM_cons_eq_ok.2 ⟨t', ?_, rfl⟩
      rw [walk, if_neg (hs' ▸ hx)]
      refine bind_eq_ok.2 ⟨u', hu', hfollows u' t' ?_ hnew'⟩
      rw [h' _ _ _ hu', hs', h _ _ _ hu]

end Walk

end CadPlot.Traversal
