import Mathlib.Data.List.TakeWhile

/-!
# Readers

A reader takes a value from the front of a text and leaves the rest. What a match
is made of is its source. A reader is local when it does not matter how much of
the rest is kept behind what it has read, and closed when the rest can be left out
altogether; a search with a closed reader finds in the source what it found before.
-/

namespace CadPlot.Readers

variable {α β γ : Type}

def Local (read : List γ → Option (α × List γ)) : Prop :=
  ∀ text a rest, read text = some (a, rest) → ∃ used, text = used ++ rest ∧
    ∀ rest', rest' <+: rest → read (used ++ rest') = some (a, rest')

def Closed (read : List γ → Option (α × List γ)) : Prop :=
  ∀ text a rest, read text = some (a, rest) → ∃ used, text = used ++ rest ∧
    read used = some (a, [])

def andThen (read : List γ → Option (α × List γ)) (next : α → List γ → Option (β × List γ))
    (text : List γ) : Option (β × List γ) :=
  (read text).bind fun (a, rest) => next a rest

def skip (P : γ → Bool) (text : List γ) : Option (Unit × List γ) := some ((), text.dropWhile P)

def item (P : γ → Bool) : List γ → Option (γ × List γ)
  | [] => none
  | c :: rest => if P c then some (c, rest) else none

section Reading

variable {read : List γ → Option (α × List γ)} {next : α → List γ → Option (β × List γ)}

theorem andThen_eq_some {text rest : List γ} {b : β} : andThen read next text = some (b, rest) ↔
    ∃ a middle, read text = some (a, middle) ∧ next a middle = some (b, rest) := by
  rw [andThen, Option.bind_eq_some_iff, Prod.exists]

theorem Local.closed (h : Local read) : Closed read := by
  intro text a rest hread
  obtain ⟨used, heq, hkeep⟩ := h text a rest hread
  refine ⟨used, heq, ?_⟩
  have hnil := hkeep [] List.nil_prefix
  rwa [List.append_nil] at hnil

theorem Local.andThen (h : Local read) (hnext : ∀ a, Local (next a)) :
    Local (andThen read next) := by
  intro text b rest hread
  obtain ⟨a, middle, hfirst, hsecond⟩ := andThen_eq_some.mp hread
  obtain ⟨used, rfl, hkeep⟩ := h text a middle hfirst
  obtain ⟨used', rfl, hkeep'⟩ := hnext a middle b rest hsecond
  refine ⟨used ++ used', (List.append_assoc ..).symm, fun rest' hrest => ?_⟩
  rw [List.append_assoc]
  have hmiddle : used' ++ rest' <+: used' ++ rest := (List.prefix_append_right_inj used').mpr hrest
  exact andThen_eq_some.mpr ⟨a, used' ++ rest', hkeep _ hmiddle, hkeep' rest' hrest⟩

/-- What is read last may look at the rest. -/
theorem Local.andThen_closed (h : Local read) (hnext : ∀ a, Closed (next a)) :
    Closed (Readers.andThen read next) := by
  intro text b rest hread
  obtain ⟨a, middle, hfirst, hsecond⟩ := andThen_eq_some.mp hread
  obtain ⟨used, rfl, hkeep⟩ := h text a middle hfirst
  obtain ⟨used', rfl, hclosed⟩ := hnext a middle b rest hsecond
  refine ⟨used ++ used', (List.append_assoc ..).symm, ?_⟩
  exact andThen_eq_some.mpr ⟨a, used', hkeep used' (List.prefix_append used' rest), hclosed⟩

/-- A prefix of what `dropWhile` leaves stays as it is. -/
theorem dropWhile_front {P : γ → Bool} {text rest : List γ} (h : rest <+: text.dropWhile P) :
    rest.dropWhile P = rest := by
  cases rest with
  | nil => rfl
  | cons c rest =>
    obtain ⟨later, hlater⟩ := h
    have hhead : P c = false := by
      have hdropped := List.head?_dropWhile_not P text
      rw [← hlater] at hdropped
      simpa using hdropped
    rw [List.dropWhile_cons_of_neg (by simp [hhead])]

theorem local_skip (P : γ → Bool) : Local (skip P) := by
  intro text a rest hread
  cases hread
  refine ⟨text.takeWhile P, List.takeWhile_append_dropWhile.symm, fun rest' hrest => ?_⟩
  have hskip : (text.takeWhile P ++ rest').dropWhile P = rest'.dropWhile P :=
    List.dropWhile_append_of_pos fun c hc => List.mem_takeWhile_imp hc
  rw [skip, hskip, dropWhile_front hrest]

theorem local_item (P : γ → Bool) : Local (item P) := by
  intro text a rest hread
  cases text with
  | nil => cases hread
  | cons c text =>
    rw [item] at hread
    split at hread
    · next hc =>
      cases hread
      exact ⟨[a], rfl, fun rest' _ => by rw [List.singleton_append, item, if_pos hc]⟩
    · cases hread

end Reading

section Search

/-- The first match that does not lie behind a certain item, with its source. -/
def search (behind : γ → Bool) (read : List γ → Option (α × List γ)) :
    Bool → List γ → Option (α × List γ)
  | _, [] => none
  | isBehind, c :: text =>
    ((if isBehind then none else read (c :: text)).map fun (a, rest) =>
      (a, (c :: text).take ((c :: text).length - rest.length))).or
      (search behind read (behind c) text)

variable {behind : γ → Bool} {read : List γ → Option (α × List γ)}

theorem search_eq_some {isBehind : Bool} {text source : List γ} {a : α}
    (h : search behind read isBehind text = some (a, source)) :
    ∃ before after rest, text = before ++ after ∧ read after = some (a, rest) ∧
      source = after.take (after.length - rest.length) := by
  induction text generalizing isBehind with
  | nil => cases h
  | cons c text ih =>
    rw [search, Option.or_eq_some_iff] at h
    rcases h with hhere | ⟨-, hlater⟩
    · obtain ⟨⟨b, rest⟩, hread, heq⟩ := Option.map_eq_some_iff.mp hhere
      cases heq
      split at hread
      · cases hread
      · exact ⟨[], c :: text, rest, rfl, hread, rfl⟩
    · obtain ⟨before, after, rest, rfl, hread, hsource⟩ := ih hlater
      exact ⟨c :: before, after, rest, rfl, hread, hsource⟩

/-- The source is found again, all of it. -/
theorem Closed.search_source (h : Closed read) (hnil : read [] = none) {isBehind : Bool}
    {text source : List γ} {a : α} (hsearch : search behind read isBehind text = some (a, source)) :
    search behind read false source = some (a, source) := by
  obtain ⟨before, after, rest, -, hread, hsource⟩ := search_eq_some hsearch
  obtain ⟨used, rfl, hused⟩ := h after a rest hread
  have hlength : (used ++ rest).length - rest.length = used.length := by
    rw [List.length_append, Nat.add_sub_cancel]
  rw [hlength, List.take_left] at hsource
  subst hsource
  cases source with
  | nil => cases hnil.symm.trans hused
  | cons c source => simp [search, hused]

end Search

end CadPlot.Readers
