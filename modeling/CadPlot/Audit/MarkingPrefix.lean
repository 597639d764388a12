import CadPlot.Audit.MarkingAgreement
import Mathlib.Tactic.NormNum

/-!
# Evidence from the head of a content

The scan reads the first eight megabytes of a content only. What it finds there
is in the whole content, but for a token that the limit cuts.
-/

namespace CadPlot.Audit

open ContentStream

variable {content rest : Bytes} {ts : List Lexeme} {ws : List Bytes}

/-- The page is reported to have a mark. -/
def Reports (content : Bytes) : Prop :=
  ∃ e, pdfPageMarkingEvidence (some content) = .ok e ∧ 1 ≤ e.markingOperatorCount

/-- A complete marking operator stands outside of comments, strings, names and containers. -/
def MarkedAtTop (content : Bytes) : Prop := HasTopLevel (· ∈ pdfMarkingOperators) content

/-- The limit of the scan cuts a token, and what stands before it is a marking operator. -/
def CutMark (content : Bytes) : Prop :=
  ∃ ts w ws b more, Lexes (content.take maxMarkingScanBytes) (ts ++ [.word w]) [] ∧ Nested ts ws ∧
    w ∈ pdfMarkingOperators ∧ content.drop maxMarkingScanBytes = b :: more ∧ isRegular b = true

/-- Lexemes with something behind them are lexemes of any longer content. -/
theorem lexes_extend (h : Lexes content ts rest) (hrest : rest ≠ []) (more : Bytes) :
    Lexes (content ++ more) ts (rest ++ more) := by
  induction h with
  | nil => exact .nil
  | @cons content middle rest t ts hlex hts ih =>
    obtain ⟨head, rfl, hreplace⟩ := lex_replace hlex
    have hmiddle : middle ≠ [] := by
      rintro rfl
      have hle := hts.length_le
      exact hrest (List.eq_nil_of_length_eq_zero (Nat.le_zero.1 hle))
    obtain ⟨b, tail, rfl⟩ := List.exists_cons_of_ne_nil hmiddle
    rw [List.append_assoc]
    exact .cons (hreplace _ stops_head fun _ => stops_head) (ih hrest)

theorem lex_word {w : Bytes} (h : Lex content (.word w) rest) :
    content ≠ [] ∧ ∀ more, rest ≠ [] ∨ Stops isRegular more →
      Lex (content ++ more) (.word w) (rest ++ more) := by
  obtain ⟨head, rfl, hreplace⟩ := lex_replace h
  refine ⟨?_, fun more hmore => ?_⟩
  · intro hnil
    have hlt := h.length_lt
    rw [hnil] at hlt
    simp at hlt
  · rw [List.append_assoc]
    refine hreplace _ (fun hstop => ?_) fun ⟨_, ht⟩ => by cases ht
    cases rest with
    | nil => exact hmore.elim (absurd rfl) id
    | cons b tail => exact stops_head hstop

/-- A word of a prefix is a word of the whole, unless it goes on behind the prefix. -/
theorem hasTopLevel_extend {w more : Bytes} (hlexes : Lexes content (ts ++ [.word w]) rest)
    (hnested : Nested ts ws) (hmore : rest ≠ [] ∨ Stops isRegular more) {p : Bytes → Prop}
    (hw : p w) : HasTopLevel p (content ++ more) := by
  obtain ⟨middle, hts, hword⟩ := lexes_split hlexes
  cases hword with
  | cons hlex hnil =>
    cases hnil
    obtain ⟨hne, hextend⟩ := lex_word hlex
    exact ⟨ts, w, rest ++ more, ws,
      (lexes_extend hts hne more).append (.cons (hextend more hmore) .nil), hnested, hw⟩

/-- A word of closed lexemes has closed lexemes before it. -/
theorem nested_split {w : Bytes} (h : Nested ts ws) (hw : w ∈ ws) :
    ∃ before after vs, ts = before ++ .word w :: after ∧ Nested before vs := by
  induction h with
  | nil => cases hw
  | @plain t ts ws hplain _ ih =>
    obtain ⟨before, after, vs, rfl, hbefore⟩ := ih hw
    exact ⟨t :: before, after, vs, rfl, .plain hplain hbefore⟩
  | @word w' ts ws _ ih =>
    rcases List.mem_cons.1 hw with rfl | hw
    · exact ⟨[], ts, [], rfl, .nil⟩
    · obtain ⟨before, after, vs, rfl, hbefore⟩ := ih hw
      exact ⟨.word w' :: before, after, w' :: vs, rfl, .word hbefore⟩
  | @container c inner ts ws' ws hinner _ _ ih =>
    obtain ⟨before, after, vs, rfl, hbefore⟩ := ih hw
    exact ⟨.open c :: (inner ++ .close c :: before), after, vs, by simp,
      .container hinner hbefore⟩

/-- A content that is counted as marked has a marking operator. -/
theorem marked_of_count {count : Nat} (h : countMarkingOperators content = .ok count)
    (hcount : 1 ≤ count) : MarkedAtTop content := by
  by_cases hinline : HasTopLevel (· = inlineImage) content
  · obtain ⟨ts, w, rest, ws, hlexes, hnested, rfl⟩ := hinline
    exact ⟨ts, _, rest, ws, hlexes, hnested, by decide⟩
  · have hbroken : ¬Broken content := by
      intro hbroken
      obtain ⟨e, he⟩ := count_broken hinline hbroken
      rw [h] at he
      cases he
    obtain ⟨ts, ws, hlexes, hnested⟩ := exists_nested hinline hbroken
    rw [count_nested hlexes hnested] at h
    obtain rfl := Except.ok.inj h
    cases hany : ws.any (· ∈ pdfMarkingOperators) with
    | false => simp [hany] at hcount
    | true =>
      obtain ⟨w, hw, hmark⟩ := List.any_eq_true.1 hany
      obtain ⟨before, after, vs, rfl, hbefore⟩ := nested_split hnested hw
      obtain ⟨middle, hword⟩ := lexes_word hlexes
      exact ⟨before, w, middle, vs, hword, hbefore, of_decide_eq_true hmark⟩

theorem reports_iff : Reports content ↔ content.length ≤ maxDecodedPageContentBytes ∧
    ∃ count, countMarkingOperators (content.take maxMarkingScanBytes) = .ok count ∧ 1 ≤ count := by
  unfold Reports pdfPageMarkingEvidence
  simp only [ensure_bind_eq_ok, decide_eq_true_eq]
  constructor
  · rintro ⟨e, ⟨hlen, h⟩, hcount⟩
    refine ⟨hlen, ?_⟩
    split at h
    · cases h
    · next count hscan =>
      obtain ⟨_, h⟩ := ensure_bind_eq_ok.1 h
      obtain rfl := pure_eq_ok.1 h
      exact ⟨count, hscan, hcount⟩
  · rintro ⟨hlen, count, hscan, hcount⟩
    refine ⟨⟨content.length, count⟩, ⟨hlen, ?_⟩, hcount⟩
    rw [hscan]
    have hlt : decide (count < 1) = false := decide_eq_false (by omega)
    exact ensure_bind_eq_ok.2 ⟨by rw [hlt]; rfl, rfl⟩

/-- A page is reported to have a mark for a mark that it has, unless the content is not too long,
the limit cuts a token into a marking operator, and the content has none in full. -/
theorem reports_marked_iff (content : Bytes) : (Reports content → MarkedAtTop content) ↔
    ¬(content.length ≤ maxDecodedPageContentBytes ∧ CutMark content ∧ ¬MarkedAtTop content) := by
  constructor
  · rintro h ⟨hlen, ⟨ts, w, ws, b, more, hlexes, hnested, hmark, -, -⟩, hnot⟩
    refine hnot (h (reports_iff.2 ⟨hlen, 1, ?_, le_rfl⟩))
    have hall : Nested (ts ++ [.word w]) (ws ++ [w]) := hnested.append (.word .nil)
    rw [count_nested hlexes hall]
    simp [hmark]
  · intro h hreports
    obtain ⟨hlen, count, hscan, hcount⟩ := reports_iff.1 hreports
    obtain ⟨ts, w, rest, ws, hlexes, hnested, hmark⟩ := marked_of_count hscan hcount
    by_contra hnot
    have happend := List.take_append_drop maxMarkingScanBytes content
    have hextend (hmore : rest ≠ [] ∨ Stops isRegular (content.drop maxMarkingScanBytes)) :
        MarkedAtTop content := by
      rw [← happend]
      exact hasTopLevel_extend hlexes hnested hmore hmark
    have hrest : rest = [] := by
      by_contra hne
      exact hnot (hextend (.inl hne))
    subst hrest
    refine h ⟨hlen, ?_, hnot⟩
    cases hdrop : content.drop maxMarkingScanBytes with
    | nil => exact absurd (hextend (.inr (by rw [hdrop]; exact nofun))) hnot
    | cons b more =>
      refine ⟨ts, w, ws, b, more, hlexes, hnested, hmark, hdrop, ?_⟩
      by_contra hregular
      refine hnot (hextend (.inr ?_))
      rw [hdrop]
      exact stops_cons (by simpa using hregular)

section Cut

theorem lexes_spaces (n : Nat) (tail : Bytes) :
    Lexes (List.replicate n 32 ++ tail) (List.replicate n (.white 32)) tail := by
  induction n with
  | zero => exact .nil
  | succ n ih =>
    rw [List.replicate_succ, List.replicate_succ, List.cons_append]
    exact .cons (.white rfl) ih

theorem nested_spaces (n : Nat) : Nested (List.replicate n (.white 32)) [] := by
  induction n with
  | zero => exact .nil
  | succ n ih => exact .plain rfl ih

theorem feed_found {cs cs' : List Container} {found : Bool} {t : Lexeme}
    (h : feed cs true t = .next cs' found) : found = true := by
  cases t with
  | close c =>
    cases cs with
    | nil => cases h
    | cons c' cs =>
      by_cases hc : c' = c
      · simp only [feed, hc, if_true] at h
        exact (Move.next.inj h).2.symm
      · simp [feed, hc] at h
  | word w =>
    simp only [feed] at h
    split at h
    · split at h
      · cases h
      · exact (Move.next.inj h).2.symm
    · exact (Move.next.inj h).2.symm
  | _ => exact (Move.next.inj h).2.symm

theorem run_found {cs cs' : List Container} {found : Bool}
    (h : run cs true ts = .next cs' found) : found = true := by
  induction ts generalizing cs with
  | nil => exact (Move.next.inj h).2.symm
  | cons t ts ih =>
    rw [run] at h
    cases hfeed : feed cs true t with
    | next cs₁ found₁ =>
      obtain rfl := feed_found hfeed
      rw [hfeed] at h
      exact ih h
    | done =>
      rw [hfeed] at h
      cases h
    | bad =>
      rw [hfeed] at h
      cases h

/-- A scan that has found a mark does not forget it. -/
theorem scan_found (cs : List Container) (content : Bytes) : scan cs true content ≠ .ok 0 := by
  obtain ⟨ts, rest, hlexes, hend⟩ := exists_lexes content
  have hfollows := @scan_lexes cs true _ _ _ hlexes
  intro h
  cases hrun : run cs true ts with
  | next cs' found =>
    obtain rfl := run_found hrun
    rw [hrun] at hfollows
    have hrest : scan cs' true rest = .ok 0 := Eq.trans (Eq.symm hfollows) h
    rcases hend with rfl | hbad
    · rw [scan.eq_def] at hrest
      dsimp only at hrest
      split at hrest <;> cases hrest
    · obtain ⟨message, hmessage⟩ := @scan_malformed cs' true _ hbad
      rw [hmessage] at hrest
      cases hrest
  | done =>
    rw [hrun] at hfollows
    cases Eq.trans (Eq.symm hfollows) h
  | bad =>
    rw [hrun] at hfollows
    cases Eq.trans (Eq.symm hfollows) h

theorem count_ne_zero (h : MarkedAtTop content) : countMarkingOperators content ≠ .ok 0 := by
  obtain ⟨ts, w, rest, ws, hlexes, hnested, hmark⟩ := h
  have hfollows := count_follows hlexes
  rw [run_append, run_nested hnested, marked] at hfollows
  intro h
  by_cases hws : inlineImage ∈ ws
  · rw [if_pos hws] at hfollows
    cases Eq.trans (Eq.symm hfollows) h
  · rw [if_neg hws] at hfollows
    by_cases hw : w = inlineImage
    · simp only [run, feed, hw, (by decide : inlineImage ∈ pdfMarkingOperators), and_self,
        if_true] at hfollows
      cases Eq.trans (Eq.symm hfollows) h
    · simp only [run, feed, hmark, and_self, if_true, if_neg hw] at hfollows
      exact scan_found [] rest (Eq.trans (Eq.symm hfollows) h)

/-- Spaces, and a colour operator. -/
def spacedContent (n : Nat) : Bytes := List.replicate n 32 ++ ascii "SCN"

theorem spacedContent_lexes (n : Nat) :
    Lexes (spacedContent n) (List.replicate n (.white 32) ++ [.word (ascii "SCN")]) [] := by
  have hword : Lex (ascii "SCN") (.word (ascii "SCN")) [] :=
    @Lex.word _ (ascii "CN") _ (by decide) (by decide) nofun
  exact (lexes_spaces n _).append (.cons hword .nil)

theorem spacedContent_unmarked (n : Nat) : ¬MarkedAtTop (spacedContent n) := by
  intro h
  refine count_ne_zero h ?_
  rw [count_nested (spacedContent_lexes n) ((nested_spaces n).append (.word .nil))]
  decide

/-- The limit cuts the operator behind its first letter. -/
theorem spacedContent_cut {n : Nat} (hn : n + 1 = maxMarkingScanBytes) :
    CutMark (spacedContent n) := by
  have htake : (spacedContent n).take (n + 1) = List.replicate n 32 ++ ascii "S" := by
    rw [spacedContent, List.take_append, List.length_replicate, List.take_replicate,
      Nat.min_eq_right (Nat.le_succ n), Nat.add_sub_cancel_left]
    rfl
  have hdrop : (spacedContent n).drop (n + 1) = ascii "CN" := by
    rw [spacedContent, List.drop_append, List.length_replicate, List.drop_replicate,
      Nat.sub_eq_zero_of_le (Nat.le_succ n), Nat.add_sub_cancel_left]
    rfl
  have hword : Lex (ascii "S") (.word (ascii "S")) [] :=
    @Lex.word _ [] _ (by decide) (by decide) nofun
  refine ⟨List.replicate n (.white 32), ascii "S", [], _, _, ?_, nested_spaces n, by decide,
    hn ▸ hdrop, by decide⟩
  rw [← hn, htake]
  exact (lexes_spaces n _).append (.cons hword .nil)

/-- The first letter of a colour operator is taken for the operator that strokes a path. -/
theorem cut_operator_reported :
    Reports (spacedContent 8388607) ∧ ¬MarkedAtTop (spacedContent 8388607) := by
  have hn : 8388607 + 1 = maxMarkingScanBytes := by norm_num [maxMarkingScanBytes]
  refine Classical.not_imp.1 fun h => (reports_marked_iff (spacedContent 8388607)).1 h
    ⟨?_, spacedContent_cut hn, spacedContent_unmarked _⟩
  have hlen : (ascii "SCN").length = 3 := by decide
  rw [spacedContent, List.length_append, List.length_replicate, hlen]
  norm_num [maxDecodedPageContentBytes]

end Cut

end CadPlot.Audit
