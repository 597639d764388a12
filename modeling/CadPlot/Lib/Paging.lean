import Mathlib.Order.Lattice
import Mathlib.Data.Option.Basic
import Mathlib.Data.List.Basic

/-!
# Pages of a sorted listing

A listing that is read page by page, where each request names the last entry of
the page before it. The listing may be another one at every request: what is
known of an entry is only that it stands after a cursor, or on a page.
-/

namespace CadPlot.Paging

variable {α : Type} [LinearOrder α]

/-- An entry stands after a cursor. No cursor stands before everything. -/
def After (cursor : Option α) (n : α) : Prop := ∀ c, cursor = some c → c < n

def remaining (cursor : Option α) (names : List α) : List α :=
  names.filter fun n => cursor.all fun c => decide (c < n)

theorem mem_remaining {cursor : Option α} {names : List α} {n : α} :
    n ∈ remaining cursor names ↔ n ∈ names ∧ After cursor n := by
  cases cursor <;> simp [remaining, After]

theorem remaining_sorted {names : List α} (cursor : Option α) (h : names.Pairwise (· < ·)) :
    (remaining cursor names).Pairwise (· < ·) :=
  h.filter _

/-- What does not fit on a page stands after everything on it. -/
theorem mem_take_or_above {names : List α} {n : α} (limit : Nat) (h : names.Pairwise (· < ·))
    (hn : n ∈ names) :
    n ∈ names.take limit ∨ limit < names.length ∧ ∀ m ∈ names.take limit, m < n := by
  rw [← List.take_append_drop limit names] at hn h
  rcases List.mem_append.1 hn with hn | hn
  · exact .inl hn
  · refine .inr ⟨?_, fun m hm => (List.pairwise_append.1 h).2.2 m hm n hn⟩
    have hpos := List.length_pos_of_mem hn
    rw [List.length_drop] at hpos
    omega

/-- The last entry of a sorted page stands at the end of it. -/
theorem le_last {page : List α} {last : α} (h : page.Pairwise (· < ·))
    (hlast : page.getLast? = some last) : ∀ n ∈ page, n ≤ last := by
  obtain ⟨init, rfl⟩ := List.getLast?_eq_some_iff.1 hlast
  intro n hn
  rcases List.mem_append.1 hn with hn | hn
  · exact ((List.pairwise_append.1 h).2.2 n hn last (List.mem_singleton_self _)).le
  · exact (List.mem_singleton.1 hn).le

/-- A page after everything that was reported keeps the report sorted. -/
theorem append_sorted {reported page : List α} {cursor : Option α}
    (hreported : reported.Pairwise (· < ·)) (hpage : page.Pairwise (· < ·))
    (hle : ∀ n ∈ reported, ∃ c, cursor = some c ∧ n ≤ c) (hafter : ∀ n ∈ page, After cursor n) :
    (reported ++ page).Pairwise (· < ·) := by
  refine List.pairwise_append.2 ⟨hreported, hpage, fun n hn m hm => ?_⟩
  obtain ⟨c, hc, hnc⟩ := hle n hn
  exact lt_of_le_of_lt hnc (hafter m hm c hc)

end CadPlot.Paging
