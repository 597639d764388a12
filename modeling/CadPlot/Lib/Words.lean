import CadPlot.Lib.Text

/-!
# Words

A text split at its spaces, and words joined by single spaces. Joined words are
trimmed, and have every character of the text that is no space.
-/

namespace CadPlot.Text

/-- `str.split()` -/
def words (space : Char → Bool) (text : List Char) : List (List Char) :=
  (text.splitOnP space).filter fun w => !w.isEmpty

/-- `" ".join(words)` -/
def joinWords : List (List Char) → List Char
  | [] => []
  | [w] => w
  | w :: v :: ws => w ++ ' ' :: joinWords (v :: ws)

variable {space : Char → Bool} {text : List Char} {c : Char}

theorem mem_splitOnP : (∃ w ∈ text.splitOnP space, c ∈ w) ↔ c ∈ text ∧ space c = false := by
  induction text with
  | nil => simp
  | cons d text ih =>
    rw [List.splitOnP_cons_eq_if_modifyHead]
    cases hd : space d with
    | true =>
      rw [if_pos rfl]
      simp only [List.mem_cons, exists_eq_or_imp, List.not_mem_nil, false_or, ih]
      constructor
      · rintro ⟨hc, hspace⟩
        exact ⟨.inr hc, hspace⟩
      · rintro ⟨rfl | hc, hspace⟩
        · rw [hd] at hspace
          cases hspace
        · exact ⟨hc, hspace⟩
    | false =>
      obtain ⟨w, ws, hsplit⟩ := List.exists_cons_of_ne_nil (List.splitOnP_ne_nil space text)
      rw [hsplit] at ih ⊢
      simp only [Bool.false_eq_true, if_false, List.modifyHead_cons, List.mem_cons,
        exists_eq_or_imp, or_assoc] at ih ⊢
      rw [ih]
      constructor
      · rintro (rfl | ⟨hc, hspace⟩)
        · exact ⟨.inl rfl, hd⟩
        · exact ⟨.inr hc, hspace⟩
      · rintro ⟨rfl | hc, hspace⟩
        · exact .inl rfl
        · exact .inr ⟨hc, hspace⟩

/-- The words have the characters of the text that are no spaces. -/
theorem mem_words : (∃ w ∈ words space text, c ∈ w) ↔ c ∈ text ∧ space c = false := by
  rw [← mem_splitOnP]
  constructor
  · rintro ⟨w, hw, hc⟩
    exact ⟨w, (List.mem_filter.1 hw).1, hc⟩
  · rintro ⟨w, hw, hc⟩
    refine ⟨w, List.mem_filter.2 ⟨hw, ?_⟩, hc⟩
    cases w with
    | nil => cases hc
    | cons => rfl

theorem word_ne_nil {w : List Char} (h : w ∈ words space text) : w ≠ [] := by
  rintro rfl
  have hkept := (List.mem_filter.1 h).2
  cases hkept

theorem word_solid {w : List Char} (h : w ∈ words space text) : ∀ c ∈ w, space c = false :=
  fun _ hc => (mem_words.1 ⟨w, h, hc⟩).2

theorem mem_joinWords_of_mem {ws : List (List Char)} {w : List Char} (hw : w ∈ ws) (hc : c ∈ w) :
    c ∈ joinWords ws := by
  induction ws using joinWords.induct with
  | case1 => cases hw
  | case2 v => exact List.mem_singleton.1 hw ▸ hc
  | case3 v v' ws ih =>
    rw [joinWords, List.mem_append]
    rcases List.mem_cons.1 hw with rfl | hw
    · exact .inl hc
    · exact .inr (List.mem_cons_of_mem _ (ih hw))

theorem mem_joinWords {ws : List (List Char)} (h : c ∈ joinWords ws) :
    c = ' ' ∨ ∃ w ∈ ws, c ∈ w := by
  induction ws using joinWords.induct with
  | case1 => cases h
  | case2 v => exact .inr ⟨v, List.mem_singleton_self v, h⟩
  | case3 v v' ws ih =>
    rw [joinWords, List.mem_append, List.mem_cons] at h
    rcases h with hc | rfl | hc
    · exact .inr ⟨v, List.mem_cons_self, hc⟩
    · exact .inl rfl
    · rcases ih hc with hspace | ⟨w, hw, hmem⟩
      · exact .inl hspace
      · exact .inr ⟨w, List.mem_cons_of_mem _ hw, hmem⟩

theorem joinWords_head {ws : List (List Char)} (h : ∀ w ∈ ws, w ≠ [] ∧ ∀ c ∈ w, space c = false) :
    ∀ hl : 0 < (joinWords ws).length, space (joinWords ws)[0] = false := by
  intro hl
  cases ws with
  | nil => cases hl
  | cons w ws =>
    obtain ⟨hne, hsolid⟩ := h w List.mem_cons_self
    obtain ⟨c, cs, rfl⟩ := List.exists_cons_of_ne_nil hne
    cases ws with
    | nil => exact hsolid c List.mem_cons_self
    | cons v ws => exact hsolid c List.mem_cons_self

theorem joinWords_last {ws : List (List Char)} (h : ∀ w ∈ ws, w ≠ [] ∧ ∀ c ∈ w, space c = false) :
    ∀ hne : joinWords ws ≠ [], space ((joinWords ws).getLast hne) = false := by
  induction ws using joinWords.induct with
  | case1 => exact fun hne => absurd rfl hne
  | case2 w => exact fun hne => (h w (List.mem_singleton_self w)).2 _ (List.getLast_mem hne)
  | case3 w v ws ih =>
    intro hne
    have hrest := fun u hu => h u (List.mem_cons_of_mem w hu)
    have hne' : joinWords (v :: ws) ≠ [] := by
      obtain ⟨c, hc⟩ := List.exists_mem_of_ne_nil v (hrest v List.mem_cons_self).1
      exact List.ne_nil_of_mem (mem_joinWords_of_mem List.mem_cons_self hc)
    have hlast : (joinWords (w :: v :: ws)).getLast hne = (joinWords (v :: ws)).getLast hne' := by
      have htail : ' ' :: joinWords (v :: ws) ≠ [] := List.cons_ne_nil _ _
      simp only [joinWords]
      rw [List.getLast_append_of_ne_nil _ htail, List.getLast_cons hne']
    rw [hlast]
    exact ih hrest hne'

theorem strip_joinWords : strip space (joinWords (words space text)) =
    joinWords (words space text) := by
  have hwords : ∀ w ∈ words space text, w ≠ [] ∧ ∀ c ∈ w, space c = false :=
    fun w hw => ⟨word_ne_nil hw, word_solid hw⟩
  rw [strip_eq_self_iff, List.dropWhile_eq_self_iff, List.rdropWhile_eq_self_iff]
  refine ⟨fun hl hspace => ?_, fun hne hspace => ?_⟩
  · rw [joinWords_head hwords hl] at hspace
    cases hspace
  · rw [joinWords_last hwords hne] at hspace
    cases hspace

end CadPlot.Text
