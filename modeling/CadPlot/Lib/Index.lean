import CadPlot.Lib.Dict
import Mathlib.Data.List.Perm.Basic
import Mathlib.Logic.Function.Basic

/-!
# The keys in one state

A list that is kept beside a dictionary and holds the keys whose entries are in
a given state, once each.
-/

namespace CadPlot

variable {κ σ ν : Type}

/-- `xs` lists the keys that `f` has in state `s`. -/
structure Lists (xs : List κ) (f : κ → Option σ) (s : σ) : Prop where
  nodup : xs.Nodup
  mem : ∀ k, k ∈ xs ↔ f k = some s

namespace Lists

variable {xs : List κ} {f : κ → Option σ} {s s' : σ} {k : κ}

theorem nil (h : ∀ k, f k ≠ some s) : Lists [] f s :=
  ⟨List.nodup_nil, fun k => by simp [h k]⟩

variable [DecidableEq κ]

/-- A key comes into the state. -/
theorem append (h : Lists xs f s) (hk : f k ≠ some s) :
    Lists (xs ++ [k]) (Function.update f k (some s)) s where
  nodup := by
    have hout : k ∉ xs := fun hmem => hk ((h.mem k).1 hmem)
    exact List.nodup_append.2 ⟨h.nodup, List.nodup_singleton k, fun a ha b hb heq =>
      hout (List.mem_singleton.1 hb ▸ heq ▸ ha)⟩
  mem k' := by
    by_cases heq : k' = k
    · simp [heq]
    · simp [heq, h.mem]

/-- A key goes to another state. -/
theorem erase (h : Lists xs f s) (hne : s' ≠ s) :
    Lists (xs.erase k) (Function.update f k (some s')) s where
  nodup := h.nodup.erase k
  mem k' := by
    rw [h.nodup.mem_erase_iff]
    by_cases heq : k' = k
    · simp [heq, hne]
    · simp [heq, h.mem]

/-- A key goes from one other state to another. -/
theorem update (h : Lists xs f s) (hk : f k ≠ some s) (hne : s' ≠ s) :
    Lists xs (Function.update f k (some s')) s where
  nodup := h.nodup
  mem k' := by
    by_cases heq : k' = k
    · subst heq
      simp [hne, h.mem, hk]
    · simp [heq, h.mem]

/-- The list is as long as there are entries in the state. -/
theorem length_eq [DecidableEq σ] {d : Dict κ ν} {state : ν → σ}
    (h : Lists xs (fun k => (d.get k).map state) s) :
    xs.length = d.entries.countP fun e => state e.2 = s := by
  have hnodup : ((d.entries.filter fun e => state e.2 = s).map Prod.fst).Nodup :=
    d.nodup.sublist (List.filter_sublist.map _)
  have hperm : xs.Perm ((d.entries.filter fun e => state e.2 = s).map Prod.fst) := by
    rw [List.perm_ext_iff_of_nodup h.nodup hnodup]
    intro k
    rw [h.mem, Option.map_eq_some_iff]
    constructor
    · rintro ⟨v, hget, hv⟩
      exact List.mem_map.2 ⟨(k, v), List.mem_filter.2
        ⟨(d.mem_entries_iff k v).2 hget, by simpa using hv⟩, rfl⟩
    · intro hk
      obtain ⟨⟨k', v⟩, hmem, rfl⟩ := List.mem_map.1 hk
      obtain ⟨hmem, hv⟩ := List.mem_filter.1 hmem
      exact ⟨v, (d.mem_entries_iff k' v).1 hmem, by simpa using hv⟩
  rw [hperm.length_eq, List.length_map, List.countP_eq_length_filter]

end Lists

end CadPlot
