import Mathlib.Data.Fintype.EquivFin
import Mathlib.Data.List.Nodup

/-!
# Insertion-ordered dictionaries

A dictionary keeps one entry per key, in the order the keys were first set, as
the dictionaries of the modelled language do. The uniqueness of the keys is a
field, so an entry found by iteration is the one found by lookup.
-/

namespace CadPlot

structure Dict (κ ν : Type) where
  entries : List (κ × ν)
  nodup : (entries.map Prod.fst).Nodup

namespace Dict

variable {κ ν : Type} [DecidableEq κ]

def empty : Dict κ ν := ⟨[], List.nodup_nil⟩

def lookup (k : κ) : List (κ × ν) → Option ν
  | [] => none
  | e :: es => if e.1 = k then some e.2 else lookup k es

def get (d : Dict κ ν) (k : κ) : Option ν := lookup k d.entries

/-- Replace the entry of a key in place, or append a new one. -/
def put (k : κ) (v : ν) : List (κ × ν) → List (κ × ν)
  | [] => [(k, v)]
  | e :: es => if e.1 = k then (k, v) :: es else e :: put k v es

theorem keys_put (k : κ) (v : ν) (es : List (κ × ν)) :
    (put k v es).map Prod.fst =
      if k ∈ es.map Prod.fst then es.map Prod.fst else es.map Prod.fst ++ [k] := by
  induction es with
  | nil => simp [put]
  | cons e es ih =>
    by_cases h : e.1 = k
    · simp [put, h]
    · have hk : ¬k = e.1 := fun hk => h hk.symm
      by_cases hm : k ∈ es.map Prod.fst
      · have hm' : k ∈ List.map Prod.fst (e :: es) := List.mem_cons_of_mem _ hm
        rw [if_pos hm']
        rw [if_pos hm] at ih
        simp [put, h, ih]
      · have hm' : k ∉ List.map Prod.fst (e :: es) := by
          simpa [hk] using hm
        rw [if_neg hm']
        rw [if_neg hm] at ih
        simp [put, h, ih]

theorem nodup_put (k : κ) (v : ν) {es : List (κ × ν)} (h : (es.map Prod.fst).Nodup) :
    ((put k v es).map Prod.fst).Nodup := by
  rw [keys_put]
  split
  · exact h
  · next hk =>
    refine List.Nodup.append h (List.nodup_singleton k) ?_
    simpa [List.disjoint_singleton] using hk

def set (d : Dict κ ν) (k : κ) (v : ν) : Dict κ ν := ⟨put k v d.entries, nodup_put k v d.nodup⟩

@[simp] theorem get_empty (k : κ) : (empty : Dict κ ν).get k = none := rfl

theorem lookup_put (k k' : κ) (v : ν) (es : List (κ × ν)) :
    lookup k' (put k v es) = if k = k' then some v else lookup k' es := by
  induction es with
  | nil => simp [put, lookup]
  | cons e es ih =>
    by_cases h : e.1 = k
    · by_cases hk : k = k'
      · simp [put, lookup, h, hk]
      · simp [put, lookup, h, hk]
    · by_cases hk : k = k'
      · have hk' : ¬e.1 = k' := hk ▸ h
        simpa [put, lookup, h, hk, hk'] using ih
      · simp [put, lookup, h, hk, ih]

theorem get_set (d : Dict κ ν) (k k' : κ) (v : ν) :
    (d.set k v).get k' = if k = k' then some v else d.get k' := lookup_put k k' v d.entries

@[simp] theorem get_set_same (d : Dict κ ν) (k : κ) (v : ν) : (d.set k v).get k = some v := by
  simp [get_set]

@[simp] theorem get_set_other (d : Dict κ ν) {k k' : κ} (v : ν) (h : k' ≠ k) :
    (d.set k v).get k' = d.get k' := by
  simp [get_set, Ne.symm h]

/-- What holds of every entry and of a new one holds of every entry after. -/
theorem forall_set {P : κ → ν → Prop} {d : Dict κ ν} {k : κ} {v : ν}
    (hold : ∀ k' x, d.get k' = some x → P k' x) (hnew : P k v) :
    ∀ k' x, (d.set k v).get k' = some x → P k' x := by
  intro k' x hget
  rw [get_set] at hget
  split at hget
  · next hk => exact hk ▸ Option.some.inj hget ▸ hnew
  · exact hold k' x hget

theorem put_new {k : κ} {v : ν} {es : List (κ × ν)} (h : k ∉ es.map Prod.fst) :
    put k v es = es ++ [(k, v)] := by
  induction es with
  | nil => rfl
  | cons e es ih =>
    rw [List.map_cons, List.mem_cons, not_or] at h
    rw [put, if_neg (Ne.symm h.1), ih h.2, List.cons_append]

theorem lookup_mem {k : κ} {v : ν} {es : List (κ × ν)} (h : lookup k es = some v) :
    (k, v) ∈ es := by
  induction es with
  | nil => simp [lookup] at h
  | cons e es ih =>
    by_cases hk : e.1 = k
    · have hv : e.2 = v := by simpa [lookup, hk] using h
      have he : e = (k, v) := Prod.ext hk hv
      exact he ▸ List.mem_cons_self
    · have hl : lookup k es = some v := by simpa [lookup, hk] using h
      exact List.mem_cons_of_mem _ (ih hl)

theorem lookup_of_mem {k : κ} {v : ν} {es : List (κ × ν)} (hn : (es.map Prod.fst).Nodup)
    (h : (k, v) ∈ es) : lookup k es = some v := by
  induction es with
  | nil => simp at h
  | cons e es ih =>
    have hn' : e.1 ∉ es.map Prod.fst ∧ (es.map Prod.fst).Nodup := by simpa using hn
    rcases List.mem_cons.1 h with rfl | hmem
    · simp [lookup]
    · have hk : ¬e.1 = k := by
        rintro rfl
        exact hn'.1 (List.mem_map.2 ⟨_, hmem, rfl⟩)
      simpa [lookup, hk] using ih hn'.2 hmem

/-- Iterating the entries and looking a key up agree. -/
theorem mem_entries_iff (d : Dict κ ν) (k : κ) (v : ν) :
    (k, v) ∈ d.entries ↔ d.get k = some v :=
  ⟨fun h => lookup_of_mem d.nodup h, fun h => lookup_mem h⟩

/-- Of infinitely many keys one is not set. -/
theorem exists_unset [Infinite κ] (d : Dict κ ν) : ∃ k, d.get k = none := by
  obtain ⟨k, hk⟩ := Infinite.exists_notMem_finset (d.entries.map Prod.fst).toFinset
  refine ⟨k, ?_⟩
  cases hget : d.get k with
  | none => rfl
  | some v =>
    exact absurd (List.mem_toFinset.2 (List.mem_map.2 ⟨_, lookup_mem hget, rfl⟩)) hk

/-- Two dictionaries hold the same entries with the property. -/
def AgreeOn (own : ν → Prop) (d d' : Dict κ ν) : Prop :=
  ∀ k v, own v → (d.get k = some v ↔ d'.get k = some v)

/-- A reader that cannot tell other entries from missing ones reads the same from both. -/
theorem AgreeOn.read {β : Type} {own : ν → Prop} {d d' : Dict κ ν} (h : AgreeOn own d d')
    {f : Option ν → β} (hf : ∀ v, ¬own v → f (some v) = f none) (k : κ) :
    f (d.get k) = f (d'.get k) := by
  have hother : ∀ {e e' : Dict κ ν} {v : ν}, AgreeOn own e e' → e.get k = some v →
      f (e.get k) = f (e'.get k) := by
    intro e e' v hee he
    by_cases hv : own v
    · rw [he, (hee k v hv).1 he]
    · rw [he, hf v hv]
      cases he' : e'.get k with
      | none => rfl
      | some w =>
        have hw : ¬own w := fun hw => by
          have hwv := (hee k w hw).2 he'
          exact hv (Option.some.inj (he.symm.trans hwv) ▸ hw)
        rw [hf w hw]
  cases hd : d.get k with
  | some v => rw [← hd, hother h hd]
  | none =>
    cases hd' : d'.get k with
    | none => rfl
    | some w =>
      have hsymm : AgreeOn own d' d := fun k v hv => (h k v hv).symm
      rw [← hd, ← hd', hother hsymm hd']

/-- Storing what is already there changes nothing. -/
theorem set_get (d : Dict κ ν) {k : κ} {v : ν} (h : d.get k = some v) : d.set k v = d := by
  have hput : ∀ es : List (κ × ν), lookup k es = some v → put k v es = es := by
    intro es
    induction es with
    | nil => intro h; simp [lookup] at h
    | cons e es ih =>
      intro h
      by_cases hk : e.1 = k
      · have hv : e.2 = v := by simpa [lookup, hk] using h
        have he : e = (k, v) := Prod.ext hk hv
        simp [put, he]
      · have hl : lookup k es = some v := by simpa [lookup, hk] using h
        simp [put, hk, ih hl]
  cases d with
  | mk es hn =>
    have he := hput es h
    simp only [set, he]

/-- Storing items under their own keys leaves the other keys alone. -/
theorem get_foldl_set_other (key : ν → κ) {items : List ν} {k : κ} (h : k ∉ items.map key)
    (d : Dict κ ν) : (items.foldl (fun d x => d.set (key x) x) d).get k = d.get k := by
  induction items generalizing d with
  | nil => rfl
  | cons x xs ih =>
    have hk : k ≠ key x ∧ k ∉ xs.map key := by simpa using h
    rw [List.foldl_cons, ih hk.2, get_set_other _ _ hk.1]

theorem get_foldl_set_mem (key : ν → κ) {items : List ν} (hn : (items.map key).Nodup) {x : ν}
    (hx : x ∈ items) (d : Dict κ ν) :
    (items.foldl (fun d x => d.set (key x) x) d).get (key x) = some x := by
  induction items generalizing d with
  | nil => cases hx
  | cons y ys ih =>
    have hy : key y ∉ ys.map key ∧ (ys.map key).Nodup := by simpa using hn
    rw [List.foldl_cons]
    rcases List.mem_cons.1 hx with rfl | hmem
    · rw [get_foldl_set_other key hy.1, get_set_same]
    · exact ih hy.2 hmem _

theorem foldl_set_stored (key : ν → κ) {items : List ν} {d : Dict κ ν}
    (h : ∀ x ∈ items, d.get (key x) = some x) :
    items.foldl (fun d x => d.set (key x) x) d = d := by
  induction items with
  | nil => rfl
  | cons x xs ih =>
    rw [List.foldl_cons, set_get d (h x List.mem_cons_self)]
    exact ih fun y hy => h y (List.mem_cons_of_mem x hy)

/-- Items that are stored under keys of their own are listed in their order. -/
theorem entries_foldl_set (key : ν → κ) {items : List ν} (hn : (items.map key).Nodup) :
    (items.foldl (fun d x => d.set (key x) x) empty).entries = items.map fun x => (key x, x) := by
  have happend : ∀ (xs : List ν) (d : Dict κ ν), (xs.map key).Nodup →
      (∀ x ∈ xs, key x ∉ d.entries.map Prod.fst) →
        (xs.foldl (fun d x => d.set (key x) x) d).entries =
          d.entries ++ xs.map fun x => (key x, x) := by
    intro xs
    induction xs with
    | nil => exact fun d _ _ => (List.append_nil _).symm
    | cons x xs ih =>
      intro d hxs hnew
      rw [List.map_cons, List.nodup_cons] at hxs
      rw [List.forall_mem_cons] at hnew
      have hset : (d.set (key x) x).entries = d.entries ++ [(key x, x)] := put_new hnew.1
      rw [List.foldl_cons, ih _ hxs.2, hset, List.append_assoc]
      · rfl
      · intro y hy hmem
        rw [hset, List.map_append, List.mem_append] at hmem
        rcases hmem with hold | hx
        · exact hnew.2 y hy hold
        · exact hxs.1 (List.mem_map.2 ⟨y, hy, List.mem_singleton.1 hx⟩)
  exact happend items empty hn fun _ _ => List.not_mem_nil

/-- A new value under the key of a listed item takes its place. -/
theorem put_map {ι : Type} (key : ι → κ) (f : ι → ν) {items : List ι} (hn : (items.map key).Nodup)
    {x : ι} (hx : x ∈ items) (v : ν) : put (key x) v (items.map fun y => (key y, f y)) =
      items.map fun y => (key y, if key y = key x then v else f y) := by
  induction items with
  | nil => cases hx
  | cons y ys ih =>
    rw [List.map_cons, List.nodup_cons] at hn
    rw [List.map_cons, List.map_cons, put]
    by_cases hy : key y = key x
    · rw [if_pos hy, if_pos hy, hy]
      refine congrArg _ (List.map_congr_left fun z hz => ?_)
      have hne : key z ≠ key x := fun hz' => hn.1 (List.mem_map.2 ⟨z, hz, hz'.trans hy.symm⟩)
      rw [if_neg hne]
    · rw [if_neg hy, if_neg hy]
      rcases List.mem_cons.1 hx with rfl | hx
      · exact absurd rfl hy
      · rw [ih hn.2 hx]

/-- Write every entry of one dictionary over another. -/
def overlay (base writes : Dict κ ν) : Dict κ ν :=
  writes.entries.foldl (fun d e => d.set e.1 e.2) base

theorem get_overlay (base writes : Dict κ ν) (k : κ) :
    (base.overlay writes).get k = (writes.get k).or (base.get k) := by
  have hfold : ∀ (es : List (κ × ν)) (d : Dict κ ν), (es.map Prod.fst).Nodup →
      (es.foldl (fun d e => d.set e.1 e.2) d).get k = (lookup k es).or (d.get k) := by
    intro es
    induction es with
    | nil => intro d _; simp [lookup]
    | cons e es ih =>
      intro d hn
      have hn' : e.1 ∉ es.map Prod.fst ∧ (es.map Prod.fst).Nodup := by simpa using hn
      rw [List.foldl_cons, ih _ hn'.2, get_set]
      by_cases hk : e.1 = k
      · have hnone : lookup k es = none := by
          cases hl : lookup k es with
          | none => rfl
          | some v =>
            exact absurd (List.mem_map.2 ⟨_, lookup_mem hl, rfl⟩) (hk ▸ hn'.1)
        simp [lookup, hk, hnone]
      · simp [lookup, hk]
  exact hfold writes.entries base writes.nodup

end Dict

end CadPlot
