import Mathlib.Data.String.Basic
import CadPlot.Translation.Store

/-!
# The decisions of a review

A stored review is in the order of its spans, with one decision a span. Merging
decisions into it keeps a decision for every span that has one, and changes
nothing when the decisions are there already.
-/

namespace CadPlot.Translation

open Gateway

/-- In the order of the spans, one decision each. -/
def Ordered (current : List RemoteDecision) : Prop :=
  current.Pairwise fun a b => a.spanId < b.spanId

/-- Every decision is under its own span. -/
def UnderSpan (d : Dict String RemoteDecision) : Prop := ∀ k x, d.get k = some x → x.spanId = k

section Merging

variable {d : Dict String RemoteDecision} {current decisions : List RemoteDecision}

theorem underSpan_update (h : UnderSpan d) : UnderSpan (update d decisions) := by
  induction decisions generalizing d with
  | nil => exact h
  | cons x xs ih => exact ih (Dict.forall_set h rfl)

theorem underSpan_byId (current : List RemoteDecision) : UnderSpan (byId current) :=
  underSpan_update fun _ _ h => by cases h

/-- An update sets a span to the last decision for it, and keeps what it does not mention. -/
theorem get_update (d : Dict String RemoteDecision) (decisions : List RemoteDecision) (k : String) :
    (update d decisions).get k =
      ((decisions.reverse.find? fun x => x.spanId = k).or (d.get k)) := by
  induction decisions generalizing d with
  | nil => rfl
  | cons x xs ih =>
    have hstep : update d (x :: xs) = update (d.set x.spanId x) xs := rfl
    rw [hstep, ih, Dict.get_set, List.reverse_cons, List.find?_append, Option.or_assoc]
    congr 1
    by_cases hk : x.spanId = k
    · simp [hk]
    · simp [hk]

theorem update_retry (h : ∀ x ∈ decisions, d.get x.spanId = some x) : update d decisions = d := by
  induction decisions with
  | nil => rfl
  | cons x xs ih =>
    have hset : d.set x.spanId x = d := d.set_get (h x List.mem_cons_self)
    have hstep : update d (x :: xs) = update (d.set x.spanId x) xs := rfl
    rw [hstep, hset]
    exact ih fun y hy => h y (List.mem_cons_of_mem _ hy)

theorem entries_update_fresh (hnodup : (current.map RemoteDecision.spanId).Nodup)
    (hfresh : ∀ x ∈ current, x.spanId ∉ d.entries.map Prod.fst) :
    (update d current).entries = d.entries ++ current.map fun x => (x.spanId, x) := by
  induction current generalizing d with
  | nil => simp [update]
  | cons x xs ih =>
    have hput : ∀ es : List (String × RemoteDecision), x.spanId ∉ es.map Prod.fst →
        Dict.put x.spanId x es = es ++ [(x.spanId, x)] := by
      intro es hnot
      induction es with
      | nil => rfl
      | cons e es ihe =>
        have hne : e.1 ≠ x.spanId := fun heq => hnot (by simp [heq])
        have hrest : x.spanId ∉ es.map Prod.fst := fun hmem => hnot (List.mem_cons_of_mem _ hmem)
        simp [Dict.put, hne, ihe hrest]
    have hset : (d.set x.spanId x).entries = d.entries ++ [(x.spanId, x)] :=
      hput d.entries (hfresh x List.mem_cons_self)
    rw [List.map_cons, List.nodup_cons] at hnodup
    have hstep : update d (x :: xs) = update (d.set x.spanId x) xs := rfl
    rw [hstep, ih hnodup.2, hset]
    · simp
    · intro y hy hmem
      rw [hset, List.map_append, List.mem_append] at hmem
      obtain hold | hnew := hmem
      · exact hfresh y (List.mem_cons_of_mem _ hy) hold
      · have heq : y.spanId = x.spanId := by simpa using hnew
        exact hnodup.1 (heq ▸ List.mem_map_of_mem hy)

theorem Ordered.nodup (h : Ordered current) : (current.map RemoteDecision.spanId).Nodup :=
  List.pairwise_map.2 (List.Pairwise.imp (fun hlt => ne_of_lt hlt) h)

theorem entries_byId (h : (current.map RemoteDecision.spanId).Nodup) :
    (byId current).entries = current.map fun x => (x.spanId, x) := by
  have hentries := @entries_update_fresh .empty current h fun _ _ => by simp [Dict.empty]
  exact hentries

theorem keys_byId (h : (current.map RemoteDecision.spanId).Nodup) :
    (byId current).entries.map Prod.fst = current.map RemoteDecision.spanId := by
  rw [entries_byId h, List.map_map]
  rfl

/-- The decision of a review for a span. -/
theorem get_byId (h : Ordered current) {k : String} {x : RemoteDecision} :
    (byId current).get k = some x ↔ x ∈ current ∧ x.spanId = k := by
  rw [← Dict.mem_entries_iff, entries_byId h.nodup]
  simp only [List.mem_map, Prod.mk.injEq]
  constructor
  · rintro ⟨y, hy, rfl, rfl⟩
    exact ⟨hy, rfl⟩
  · rintro ⟨hx, rfl⟩
    exact ⟨x, hx, rfl, rfl⟩

theorem inOrder_byId (h : Ordered current) : inOrder (byId current) = current := by
  have hsorted : (current.map RemoteDecision.spanId).Pairwise (· ≤ ·) :=
    List.pairwise_map.2 (List.Pairwise.imp (fun hlt => le_of_lt hlt) h)
  have hget : ∀ x ∈ current, ((byId current).get ∘ RemoteDecision.spanId) x = some x :=
    fun x hx => (get_byId h).2 ⟨hx, rfl⟩
  rw [inOrder, keys_byId h.nodup, hsorted.insertionSort_eq, List.filterMap_map,
    List.filterMap_congr hget, List.filterMap_some]

/-- Decisions that are there already change nothing. -/
theorem merge_retry (h : Ordered current) (hretry : isRetry current decisions = true) :
    merge current decisions = current := by
  have hthere : ∀ x ∈ decisions, (byId current).get x.spanId = some x := by
    simpa [isRetry] using hretry
  rw [merge, update_retry hthere, inOrder_byId h]

/-- The sorted keys of a dictionary, each once. -/
theorem sorted_keys (d : Dict String RemoteDecision) :
    ((d.entries.map Prod.fst).insertionSort (· ≤ ·)).Pairwise (· < ·) := by
  have hle := List.pairwise_insertionSort (· ≤ ·) (d.entries.map Prod.fst)
  have hne : ((d.entries.map Prod.fst).insertionSort (· ≤ ·)).Nodup :=
    (List.perm_insertionSort (· ≤ ·) _).nodup_iff.2 d.nodup
  exact (hle.and hne).imp fun h => lt_of_le_of_ne h.1 h.2

theorem ordered_inOrder (h : UnderSpan d) : Ordered (inOrder d) := by
  refine List.pairwise_filterMap.2 ((sorted_keys d).imp fun {a b} hlt x hx y hy => ?_)
  rw [h a x hx, h b y hy]
  exact hlt

theorem ordered_merge (current decisions : List RemoteDecision) :
    Ordered (merge current decisions) :=
  ordered_inOrder (underSpan_update (underSpan_byId current))

theorem mem_inOrder (h : UnderSpan d) {x : RemoteDecision} :
    x ∈ inOrder d ↔ d.get x.spanId = some x := by
  rw [inOrder, List.mem_filterMap]
  constructor
  · rintro ⟨k, _, hget⟩
    obtain rfl := h k x hget
    exact hget
  · intro hget
    refine ⟨x.spanId, (List.mem_insertionSort (· ≤ ·)).2 ?_, hget⟩
    exact List.mem_map.2 ⟨_, (d.mem_entries_iff _ _).2 hget, rfl⟩

/-- Merging decides a span by the submission, and keeps the decision for any other span. -/
theorem get_merge (current decisions : List RemoteDecision) (k : String) :
    (byId (merge current decisions)).get k =
      (decisions.reverse.find? fun x => x.spanId = k).or ((byId current).get k) := by
  have hspan := @underSpan_update (byId current) decisions (underSpan_byId current)
  rw [← get_update]
  ext x
  rw [get_byId (ordered_merge current decisions), merge, mem_inOrder hspan]
  constructor
  · rintro ⟨hget, rfl⟩
    exact hget
  · intro hget
    obtain rfl := hspan k x hget
    exact ⟨hget, rfl⟩

end Merging

end CadPlot.Translation
