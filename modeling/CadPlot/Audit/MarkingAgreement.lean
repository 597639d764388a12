import CadPlot.Audit.MarkingLaws

/-!
# The scan agrees with the grammar

What the scan of a content answers, in terms of its lexemes and their nesting,
and that whitespace and comments between lexemes are of no account.
-/

namespace CadPlot.Audit

open ContentStream

variable {content rest : Bytes} {ts : List Lexeme} {ws : List Bytes}

/-- A word outside of containers, before anything that is no lexeme. -/
def HasTopLevel (p : Bytes → Prop) (content : Bytes) : Prop :=
  ∃ ts w rest ws, Lexes content (ts ++ [.word w]) rest ∧ Nested ts ws ∧ p w

/-- What is wrong with a content: no lexeme, a bracket that closes none or another one, or a bracket
that is never closed. -/
inductive Broken (content : Bytes) : Prop where
  | lexeme {ts : List Lexeme} {rest : Bytes} : Lexes content ts rest → Malformed rest →
      Broken content
  | mismatched {ts : List Lexeme} {c : Container} {cs : List Container} {ws : List Bytes}
      {rest : Bytes} : Lexes content (ts ++ [.close c]) rest → Opens ts cs ws →
      cs.head? ≠ some c → Broken content
  | unclosed {ts : List Lexeme} {c : Container} {cs : List Container} {ws : List Bytes} :
      Lexes content ts [] → Opens ts (c :: cs) ws → Broken content

theorem lexes_split {ts ts' : List Lexeme} (h : Lexes content (ts ++ ts') rest) :
    ∃ middle, Lexes content ts middle ∧ Lexes middle ts' rest := by
  induction ts generalizing content with
  | nil => exact ⟨content, .nil, h⟩
  | cons t ts ih =>
    cases h with
    | cons hlex hrest =>
      obtain ⟨middle, hts, hts'⟩ := ih hrest
      exact ⟨middle, .cons hlex hts, hts'⟩

theorem lexes_word {t : Lexeme} {before after : List Lexeme}
    (h : Lexes content (before ++ t :: after) rest) :
    ∃ middle, Lexes content (before ++ [t]) middle := by
  have hassoc : before ++ t :: after = (before ++ [t]) ++ after := by simp
  rw [hassoc] at h
  obtain ⟨middle, hlexes, _⟩ := lexes_split h
  exact ⟨middle, hlexes⟩

section Outcomes

theorem feed_done {cs : List Container} {found : Bool} {t : Lexeme}
    (h : feed cs found t = .done) : cs = [] ∧ t = .word inlineImage := by
  cases t with
  | word w =>
    simp only [feed] at h
    by_cases hmark : cs = [] ∧ w ∈ pdfMarkingOperators
    · rw [if_pos hmark] at h
      by_cases hw : w = inlineImage
      · exact ⟨hmark.1, congrArg Lexeme.word hw⟩
      · rw [if_neg hw] at h
        cases h
    · rw [if_neg hmark] at h
      cases h
  | close c =>
    cases cs with
    | nil => cases h
    | cons c' cs => by_cases hc : c' = c <;> simp [feed, hc] at h
  | _ => cases h

theorem feed_bad {cs : List Container} {found : Bool} {t : Lexeme} {c : Container}
    (h : feed cs found t = .bad c) : t = .close c ∧ cs.head? ≠ some c := by
  cases t with
  | word w =>
    simp only [feed] at h
    by_cases hmark : cs = [] ∧ w ∈ pdfMarkingOperators
    · rw [if_pos hmark] at h
      by_cases hw : w = inlineImage
      · rw [if_pos hw] at h
        cases h
      · rw [if_neg hw] at h
        cases h
    · rw [if_neg hmark] at h
      cases h
  | close c₁ =>
    cases cs with
    | nil =>
      obtain rfl := Move.bad.inj h
      exact ⟨rfl, by simp⟩
    | cons c' cs =>
      by_cases hc : c' = c₁
      · simp [feed, hc] at h
      · obtain rfl : c₁ = c := by simpa [feed, hc] using h
        exact ⟨rfl, fun hhead => hc (Option.some.inj hhead)⟩
  | _ => cases h

theorem Opens.nested (h : Opens ts [] ws) : Nested ts ws := by
  cases h with
  | nested h => exact h

/-- The scan ends early only at an inline image. -/
theorem inline_of_done (h : Lexes content ts rest) (hrun : run [] false ts = .done) :
    HasTopLevel (· = inlineImage) content := by
  obtain ⟨before, t, after, cs, ws, found, rfl, hopens, _, hfeed⟩ :=
    run_ends (fun _ _ hnext => by rw [hrun] at hnext; cases hnext)
  obtain ⟨rfl, rfl⟩ := feed_done (hfeed.symm.trans hrun)
  obtain ⟨middle, hlexes⟩ := lexes_word h
  exact ⟨before, _, middle, ws, hlexes, Opens.nested hopens, rfl⟩

theorem broken_of_bad {c : Container} (h : Lexes content ts rest)
    (hrun : run [] false ts = .bad c) : Broken content := by
  obtain ⟨before, t, after, cs, ws, found, rfl, hopens, _, hfeed⟩ :=
    run_ends (fun _ _ hnext => by rw [hrun] at hnext; cases hnext)
  obtain ⟨rfl, hhead⟩ := feed_bad (hfeed.symm.trans hrun)
  obtain ⟨middle, hlexes⟩ := lexes_word h
  exact .mismatched hlexes hopens hhead

theorem count_follows (h : Lexes content ts rest) :
    Follows [] false content rest (run [] false ts) := scan_lexes h

/-- An inline image ends the scan. -/
theorem count_inline (h : HasTopLevel (· = inlineImage) content) :
    countMarkingOperators content = .ok 1 := by
  obtain ⟨ts, _, rest, ws, hlexes, hnested, rfl⟩ := h
  have hrun : run [] false (ts ++ [.word inlineImage]) = .done := by
    have himage : inlineImage ∈ pdfMarkingOperators := by decide
    rw [run_append, run_nested hnested, marked]
    by_cases hws : inlineImage ∈ ws
    · rw [if_pos hws]
    · rw [if_neg hws]
      simp [run, feed, himage]
  have hfollows := count_follows hlexes
  rw [hrun] at hfollows
  exact hfollows

theorem count_broken (hinline : ¬HasTopLevel (· = inlineImage) content) (h : Broken content) :
    ∃ e, countMarkingOperators content = .error e := by
  cases h with
  | @lexeme ts rest hlexes hbad =>
    have hfollows := count_follows hlexes
    cases hrun : run [] false ts with
    | next cs found =>
      rw [hrun] at hfollows
      obtain ⟨message, hmessage⟩ := @scan_malformed cs found _ hbad
      exact ⟨_, Eq.trans hfollows hmessage⟩
    | done => exact absurd (inline_of_done hlexes hrun) hinline
    | bad =>
      rw [hrun] at hfollows
      exact ⟨_, hfollows⟩
  | @mismatched ts c cs ws rest hlexes hopens hhead =>
    have hfollows := count_follows hlexes
    have hrun : run [] false (ts ++ [.close c]) = .bad c ∨
        run [] false (ts ++ [.close c]) = .done := by
      rw [run_append, run_opens hopens, marked]
      by_cases hws : inlineImage ∈ ws
      · exact .inr (by rw [if_pos hws])
      · refine .inl ?_
        rw [if_neg hws]
        cases cs with
        | nil => rfl
        | cons c' cs =>
          have hc : c' ≠ c := fun heq => hhead (congrArg some heq)
          simp [run, feed, hc]
    rcases hrun with hrun | hrun
    · rw [hrun] at hfollows
      exact ⟨_, hfollows⟩
    · exact absurd (inline_of_done hlexes hrun) hinline
  | @unclosed ts c cs ws hlexes hopens =>
    have hfollows := count_follows hlexes
    have hrun := @run_opens _ false _ _ hopens
    rw [marked] at hrun
    by_cases hws : inlineImage ∈ ws
    · rw [if_pos hws] at hrun
      exact absurd (inline_of_done hlexes hrun) hinline
    · rw [if_neg hws] at hrun
      rw [hrun] at hfollows
      refine ⟨.pdfRead "Unterminated container in PDF content stream.", Eq.trans hfollows ?_⟩
      rw [scan.eq_def]
      exact if_pos (List.cons_ne_nil c cs)

/-- The scan of a whole content with closed containers. -/
theorem count_nested (hlexes : Lexes content ts []) (hnested : Nested ts ws) :
    countMarkingOperators content =
      .ok (if ws.any (· ∈ pdfMarkingOperators) then 1 else 0) := by
  have hfollows := count_follows hlexes
  rw [run_nested hnested, marked] at hfollows
  by_cases hws : inlineImage ∈ ws
  · have hany : ws.any (· ∈ pdfMarkingOperators) = true :=
      List.any_eq_true.2 ⟨_, hws, by decide⟩
    rw [if_pos hws] at hfollows
    rw [hany]
    exact hfollows
  · rw [if_neg hws] at hfollows
    refine Eq.trans hfollows ?_
    rw [scan.eq_def]
    cases ws.any (· ∈ pdfMarkingOperators) <;> rfl

theorem exists_nested (hinline : ¬HasTopLevel (· = inlineImage) content) (h : ¬Broken content) :
    ∃ ts ws, Lexes content ts [] ∧ Nested ts ws := by
  obtain ⟨ts, rest, hlexes, rfl | hbad⟩ := exists_lexes content
  · cases hrun : run [] false ts with
    | next cs found =>
      obtain ⟨ws, hopens⟩ := opens_of_run hrun
      cases cs with
      | nil => exact ⟨ts, ws, hlexes, Opens.nested hopens⟩
      | cons c cs => exact absurd (.unclosed hlexes hopens) h
    | done => exact absurd (inline_of_done hlexes hrun) hinline
    | bad => exact absurd (broken_of_bad hlexes hrun) h
  · exact absurd (.lexeme hlexes hbad) h

end Outcomes

section Gaps

/-- What may stand between two lexemes. -/
inductive GapItem where
  | white (b : UInt8) (h : isWhitespace b = true)
  | comment (text : Bytes) (newline : UInt8) (htext : text.all (!isNewline ·) = true)
      (hnewline : isNewline newline = true)

def GapItem.bytes : GapItem → Bytes
  | .white b _ => [b]
  | .comment text newline _ _ => 0x25 :: (text ++ [newline])

def gapBytes (gap : List GapItem) : Bytes := gap.flatMap GapItem.bytes

theorem isWhitespace_of_isNewline {b : UInt8} (h : isNewline b = true) :
    isWhitespace b = true := by
  have hb : b = 10 ∨ b = 13 := by simpa [isNewline] using h
  rcases hb with rfl | rfl <;> rfl

theorem isRegular_of_isWhitespace {b : UInt8} (h : isWhitespace b = true) :
    isRegular b = false := by simp [isRegular, h]

theorem stops_cons {p : UInt8 → Bool} {b : UInt8} {tail : Bytes} (h : p b = false) :
    Stops p (b :: tail) := by
  intro c tail' heq
  rw [← (List.cons.inj heq).1]
  exact h

theorem GapItem.stops (item : GapItem) (rest : Bytes) : Stops isRegular (item.bytes ++ rest) := by
  cases item with
  | white b h => exact stops_cons (isRegular_of_isWhitespace h)
  | comment text newline htext hnewline => exact stops_cons (by decide)

/-- Behind a run that stopped, a gap stops it too. -/
theorem gap_stops (gap : List GapItem) {rest : Bytes} (h : Stops isRegular rest) :
    Stops isRegular (gapBytes gap ++ rest) := by
  cases gap with
  | nil => exact h
  | cons item gap =>
    have hassoc : gapBytes (item :: gap) ++ rest = item.bytes ++ (gapBytes gap ++ rest) := by
      simp [gapBytes]
    rw [hassoc]
    exact item.stops _

theorem gap_lexes (gap : List GapItem) (rest : Bytes) :
    ∃ ts, Lexes (gapBytes gap ++ rest) ts rest ∧ ∀ t ∈ ts, t.isPlain = true := by
  induction gap with
  | nil => exact ⟨[], .nil, by simp⟩
  | cons item gap ih =>
    obtain ⟨ts, hlexes, hplain⟩ := ih
    cases item with
    | white b h =>
      exact ⟨_, .cons (.white h) hlexes, by simpa [Lexeme.isPlain] using hplain⟩
    | comment text newline htext hnewline =>
      have hassoc : gapBytes (.comment text newline htext hnewline :: gap) ++ rest =
          0x25 :: (text ++ newline :: (gapBytes gap ++ rest)) := by
        simp [gapBytes, GapItem.bytes]
      refine ⟨.comment text :: .white newline :: ts, ?_, by simpa [Lexeme.isPlain] using hplain⟩
      rw [hassoc]
      exact .cons (.comment htext (stops_cons (by simp [hnewline])))
        (.cons (.white (isWhitespace_of_isNewline hnewline)) hlexes)

/-- A comment without its newline takes along the gap up to the first newline. -/
theorem comment_lexes (gap : List GapItem) {text rest : Bytes}
    (htext : text.all (!isNewline ·) = true) (hrest : Stops (!isNewline ·) rest) :
    ∃ ts, Lexes (0x25 :: (text ++ (gapBytes gap ++ rest))) ts rest ∧
      ∀ t ∈ ts, t.isPlain = true := by
  induction gap generalizing text with
  | nil => exact ⟨[.comment text], .cons (.comment htext hrest) .nil, by simp [Lexeme.isPlain]⟩
  | cons item gap ih =>
    have hmore : ∀ (more : Bytes) (newline : UInt8), more.all (!isNewline ·) = true →
        isNewline newline = true → ∃ ts,
          Lexes (0x25 :: (text ++ (more ++ newline :: (gapBytes gap ++ rest)))) ts rest ∧
            ∀ t ∈ ts, t.isPlain = true := by
      intro more newline hall hnewline
      obtain ⟨ts, hlexes, hplain⟩ := gap_lexes gap rest
      refine ⟨.comment (text ++ more) :: .white newline :: ts, ?_,
        by simpa [Lexeme.isPlain] using hplain⟩
      rw [← List.append_assoc]
      exact .cons (.comment (by simp [List.all_append, htext, hall])
        (stops_cons (by simp [hnewline])))
        (.cons (.white (isWhitespace_of_isNewline hnewline)) hlexes)
    cases item with
    | white b h =>
      by_cases hb : isNewline b = true
      · exact hmore [] b rfl hb
      · obtain ⟨ts, hlexes, hplain⟩ := @ih (text ++ [b]) (by simp [List.all_append, htext, hb])
        refine ⟨ts, ?_, hplain⟩
        simpa [gapBytes, GapItem.bytes] using hlexes
    | comment more newline hall hnewline =>
      obtain ⟨ts, hlexes, hplain⟩ := hmore (0x25 :: more) newline
        (by rw [List.all_cons, hall]; rfl) hnewline
      exact ⟨ts, by simpa [gapBytes, GapItem.bytes] using hlexes, hplain⟩

/-- A lexeme stays one when what stands behind it changes, as long as its run still stops there. -/
theorem lex_replace {t : Lexeme} (h : Lex content t rest) :
    ∃ head, content = head ++ rest ∧ ∀ rest', (Stops isRegular rest → Stops isRegular rest') →
      ((∃ text, t = .comment text) → Stops (!isNewline ·) rest → Stops (!isNewline ·) rest') →
        Lex (head ++ rest') t rest' := by
  cases h with
  | @white b _ hb => exact ⟨[b], rfl, fun _ _ _ => .white hb⟩
  | @comment text _ htext hstop =>
    exact ⟨0x25 :: text, rfl, fun _ _ hnewline => .comment htext (hnewline ⟨text, rfl⟩ hstop)⟩
  | @literal text _ htext =>
    refine ⟨0x28 :: (text ++ [0x29]), by simp, fun rest' _ _ => ?_⟩
    simpa using @Lex.literal _ rest' htext
  | @hexadecimal text _ htext hstop =>
    refine ⟨0x3C :: (text ++ [0x3E]), by simp, fun rest' _ _ => ?_⟩
    have hstop' : Stops (· == 0x3C) (text ++ 0x3E :: rest') := by
      cases text with
      | nil => exact stops_cons rfl
      | cons b text => exact stops_cons (hstop b _ rfl)
    simpa using Lex.hexadecimal htext hstop'
  | @name text _ htext hstop =>
    exact ⟨0x2F :: text, rfl, fun _ hregular _ => .name htext (hregular hstop)⟩
  | openArray => exact ⟨[0x5B], rfl, fun _ _ _ => .openArray⟩
  | closeArray => exact ⟨[0x5D], rfl, fun _ _ _ => .closeArray⟩
  | openDictionary => exact ⟨[0x3C, 0x3C], rfl, fun _ _ _ => .openDictionary⟩
  | closeDictionary => exact ⟨[0x3E, 0x3E], rfl, fun _ _ _ => .closeDictionary⟩
  | @word b text _ hb htext hstop =>
    exact ⟨b :: text, rfl, fun _ hregular _ => .word hb htext (hregular hstop)⟩

theorem lex_comment {text : Bytes} (h : Lex content (.comment text) rest) :
    content = 0x25 :: text ++ rest ∧ text.all (!isNewline ·) = true ∧
      Stops (!isNewline ·) rest := by
  cases h with
  | comment htext hstop => exact ⟨rfl, htext, hstop⟩

theorem lexes_suffix (h : Lexes content ts rest) : ∃ head, content = head ++ rest := by
  induction h with
  | nil => exact ⟨[], rfl⟩
  | cons hlex _ ih =>
    obtain ⟨head, rfl, _⟩ := lex_replace hlex
    obtain ⟨head', rfl⟩ := ih
    exact ⟨head ++ head', by simp⟩

theorem lexes_self (h : Lexes rest ts rest) : ts = [] := by
  cases h with
  | nil => rfl
  | cons hlex hrest =>
    have hlt := hlex.length_lt
    have hle := hrest.length_le
    omega

theorem stops_head {p : UInt8 → Bool} {b : UInt8} {tail tail' : Bytes}
    (h : Stops p (b :: tail)) : Stops p (b :: tail') := stops_cons (h b tail rfl)

/-- The lexemes that are not plain. -/
def brackets (ts : List Lexeme) : List Lexeme := ts.filter (!·.isPlain)

theorem brackets_plain (h : ∀ t ∈ ts, t.isPlain = true) : brackets ts = [] :=
  List.filter_eq_nil_iff.2 fun t ht => by simp [h t ht]

/-- A gap adds plain lexemes only. -/
theorem lexes_insert {before after : Bytes} (gap : List GapItem)
    (h : Lexes (before ++ after) ts after) :
    ∃ ts', Lexes (before ++ (gapBytes gap ++ after)) ts' after ∧ brackets ts' = brackets ts := by
  generalize hcontent : before ++ after = content at h
  induction h generalizing before with
  | @nil after =>
    obtain rfl : before = [] := by simpa using hcontent
    obtain ⟨ts, hlexes, hplain⟩ := gap_lexes gap after
    exact ⟨ts, hlexes, brackets_plain hplain⟩
  | @cons content middle after t ts hlex hrest ih =>
    obtain ⟨head, rfl, hreplace⟩ := lex_replace hlex
    obtain ⟨before', rfl⟩ := lexes_suffix hrest
    obtain rfl : before = head ++ before' := by
      rw [← List.append_assoc] at hcontent
      exact List.append_cancel_right hcontent
    obtain ⟨ts', hlexes, hsame⟩ := ih rfl
    have hcons : brackets (t :: ts') = brackets (t :: ts) := by
      simp only [brackets, List.filter_cons] at hsame ⊢
      rw [hsame]
    cases before' with
    | cons b before' =>
      refine ⟨t :: ts', ?_, hcons⟩
      rw [List.append_assoc]
      exact .cons (hreplace _ stops_head fun _ => stops_head) hlexes
    | nil =>
      obtain rfl := lexes_self hrest
      by_cases hcomment : ∃ text, t = .comment text
      · obtain ⟨text, rfl⟩ := hcomment
        obtain ⟨hhead, htext, hstop⟩ := lex_comment hlex
        obtain rfl : head = 0x25 :: text := List.append_cancel_right hhead
        obtain ⟨ts', hlexes, hplain⟩ := comment_lexes gap htext hstop
        exact ⟨ts', by simpa using hlexes, brackets_plain hplain⟩
      · refine ⟨t :: ts', ?_, hcons⟩
        rw [List.append_nil]
        exact .cons (hreplace _ (gap_stops gap) fun htext => absurd htext hcomment) hlexes

/-- Plain lexemes leave a scan as it is. -/
theorem run_brackets (containers : List Container) (found : Bool) (ts : List Lexeme) :
    run containers found (brackets ts) = run containers found ts := by
  induction ts generalizing containers found with
  | nil => rfl
  | cons t ts ih =>
    by_cases hplain : t.isPlain = true
    · rw [brackets, List.filter_cons_of_neg (by simp [hplain]), run, feed_plain hplain]
      exact ih containers found
    · rw [brackets, List.filter_cons_of_pos (by simp [hplain]), run, run]
      cases feed containers found t with
      | next containers found => exact ih containers found
      | done => rfl
      | bad => rfl

theorem count_insert {before after : Bytes} (gap : List GapItem)
    (h : Lexes (before ++ after) ts after) :
    countMarkingOperators (before ++ (gapBytes gap ++ after)) =
      countMarkingOperators (before ++ after) := by
  obtain ⟨ts', hlexes, hsame⟩ := lexes_insert gap h
  have hfollows := count_follows h
  have hfollows' := count_follows hlexes
  rw [← run_brackets, hsame, run_brackets] at hfollows'
  cases hrun : run [] false ts with
  | next cs found =>
    rw [hrun] at hfollows hfollows'
    exact Eq.trans hfollows' (Eq.symm hfollows)
  | done =>
    rw [hrun] at hfollows hfollows'
    exact Eq.trans hfollows' (Eq.symm hfollows)
  | bad =>
    rw [hrun] at hfollows hfollows'
    exact Eq.trans hfollows' (Eq.symm hfollows)

end Gaps

/-- What the scan answers, by the grammar. -/
structure Agrees (content : Bytes) : Prop where
  inline : HasTopLevel (· = inlineImage) content → countMarkingOperators content = .ok 1
  raises : ¬HasTopLevel (· = inlineImage) content →
    ((∃ e, countMarkingOperators content = .error e) ↔ Broken content)
  counts : ¬HasTopLevel (· = inlineImage) content → ¬Broken content →
    ∃ ts ws, Lexes content ts [] ∧ Nested ts ws
  marks : ∀ ts ws, Lexes content ts [] → Nested ts ws →
    countMarkingOperators content =
      .ok (if ws.any (· ∈ pdfMarkingOperators) then 1 else 0)
  gaps : ∀ before after ts gap, content = before ++ after → Lexes content ts after →
    countMarkingOperators (before ++ (gapBytes gap ++ after)) = countMarkingOperators content

theorem count_agrees (content : Bytes) : Agrees content where
  inline := count_inline
  raises hinline := by
    refine ⟨?_, count_broken hinline⟩
    rintro ⟨e, he⟩
    by_contra hbroken
    obtain ⟨ts, ws, hlexes, hnested⟩ := exists_nested hinline hbroken
    rw [count_nested hlexes hnested] at he
    cases he
  counts := exists_nested
  marks _ _ := count_nested
  gaps before after ts gap hcontent hlexes := by
    subst hcontent
    exact count_insert gap hlexes

end CadPlot.Audit
