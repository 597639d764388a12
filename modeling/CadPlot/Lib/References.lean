import CadPlot.Lib.Dict

/-!
# References between dictionaries

Rows of one dictionary point to rows of another and repeat some of their data.
The references stay whole as long as rows keep these data, and rows that are
stored anew point to rows that are there.
-/

namespace CadPlot.Dict

variable {κ κ' ν ν' β : Type} [DecidableEq κ] [DecidableEq κ'] {f : ν → β} {d d' d'' : Dict κ ν}

/-- Every row stays, with the same data under `f`. -/
def Keeps (f : ν → β) (d d' : Dict κ ν) : Prop :=
  ∀ k v, d.get k = some v → ∃ v', d'.get k = some v' ∧ f v' = f v

/-- Every row's parent is there, and its data are those that the row repeats. -/
def Refers (d : Dict κ ν) (parents : Dict κ' ν') (link : ν → κ') (data : ν' → β) (copy : ν → β) :
    Prop :=
  ∀ k v, d.get k = some v → ∃ p, parents.get (link v) = some p ∧ data p = copy v

/-- Rows are stored under their own keys. -/
def Keyed (key : ν → κ) (d : Dict κ ν) : Prop := ∀ k v, d.get k = some v → key v = k

theorem Keeps.refl (f : ν → β) (d : Dict κ ν) : Keeps f d d := fun _ v hv => ⟨v, hv, rfl⟩

theorem Keeps.trans (h : Keeps f d d') (h' : Keeps f d' d'') : Keeps f d d'' := by
  intro k v hv
  obtain ⟨v', hv', hf⟩ := h k v hv
  obtain ⟨v'', hv'', hf'⟩ := h' k v' hv'
  exact ⟨v'', hv'', hf'.trans hf⟩

theorem Keeps.set {k : κ} {v : ν} (h : ∀ old, d.get k = some old → f old = f v) :
    Keeps f d (d.set k v) := by
  intro k' old hold
  rw [get_set]
  split
  · next hk => exact ⟨v, rfl, (h old (hk ▸ hold)).symm⟩
  · exact ⟨old, hold, rfl⟩

theorem Keeps.foldl {key : ν → κ} {items : List ν} (hn : (items.map key).Nodup)
    (h : ∀ x ∈ items, ∀ old, d.get (key x) = some old → f old = f x) :
    Keeps f d (items.foldl (fun d x => d.set (key x) x) d) := by
  intro k old hold
  by_cases hk : k ∈ items.map key
  · obtain ⟨x, hx, rfl⟩ := List.mem_map.1 hk
    exact ⟨x, get_foldl_set_mem key hn hx d, (h x hx old hold).symm⟩
  · exact ⟨old, by rw [get_foldl_set_other key hk, hold], rfl⟩

/-- After storing items, a row is one of them or was there before. -/
theorem forall_foldl {P : κ → ν → Prop} {key : ν → κ} {items : List ν}
    (hold : ∀ k v, d.get k = some v → P k v) (hnew : ∀ x ∈ items, P (key x) x) :
    ∀ k v, (items.foldl (fun d x => d.set (key x) x) d).get k = some v → P k v := by
  induction items generalizing d with
  | nil => exact hold
  | cons x xs ih =>
    rw [List.forall_mem_cons] at hnew
    exact ih (forall_set hold hnew.1) hnew.2

/-- References outlive changes of the parents that keep the repeated data. -/
theorem Refers.mono {parents parents' : Dict κ' ν'} {link : ν → κ'} {data : ν' → β} {copy : ν → β}
    (h : d.Refers parents link data copy) (hkeep : Keeps data parents parents') :
    d.Refers parents' link data copy := by
  intro k v hv
  obtain ⟨p, hp, hdata⟩ := h k v hv
  obtain ⟨p', hp', hdata'⟩ := hkeep _ _ hp
  exact ⟨p', hp', hdata'.trans hdata⟩

end CadPlot.Dict
