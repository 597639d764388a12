import CadPlot.Audit.Marking
import Mathlib.Data.List.Induction

/-!
# The scan and the grammar

The scan of a page content takes its lexemes one by one, keeps the open
containers and stops at the first lexeme that the grammar does not have.
-/

namespace CadPlot.Audit

open ContentStream

section Strings

theorem skip_open (depth : Nat) (rest : Bytes) :
    skipPdfLiteralString (depth + 1) (0x28 :: rest) = skipPdfLiteralString (depth + 2) rest := by
  rw [skipPdfLiteralString.eq_def]
  rfl

theorem skip_close (depth : Nat) (rest : Bytes) :
    skipPdfLiteralString (depth + 1) (0x29 :: rest) = skipPdfLiteralString depth rest := by
  rw [skipPdfLiteralString.eq_def]
  rfl

/-- The scan of a string passes over balanced text. -/
theorem skip_balanced {text : Bytes} (h : Balanced text) (depth : Nat) (rest : Bytes) :
    skipPdfLiteralString (depth + 1) (text ++ rest) = skipPdfLiteralString (depth + 1) rest := by
  induction h generalizing depth rest with
  | nil => rfl
  | plain hopen hclose hescape _ ih =>
    rw [List.cons_append, skipPdfLiteralString.eq_def]
    simp only [hescape, hopen, hclose, if_false, ih]
  | escape _ ih =>
    rw [List.cons_append, List.cons_append, skipPdfLiteralString.eq_def]
    exact ih depth rest
  | @nested inner text _ _ ihinner ih =>
    have hassoc : (0x28 :: inner ++ 0x29 :: text) ++ rest =
        0x28 :: (inner ++ 0x29 :: (text ++ rest)) := by simp
    rw [hassoc, skip_open, ihinner, skip_close, ih]

/-- So many balanced texts, each with the parenthesis that closes it. -/
inductive Closed : Nat → Bytes → Bytes → Prop where
  | zero {rest : Bytes} : Closed 0 rest rest
  | succ {depth : Nat} {text middle rest : Bytes} : Balanced text → Closed depth middle rest →
      Closed (depth + 1) (text ++ 0x29 :: middle) rest

theorem closed_of_skip {depth : Nat} {content rest : Bytes}
    (h : skipPdfLiteralString depth content = some rest) : Closed depth content rest := by
  fun_induction skipPdfLiteralString depth content with
  | case1 => exact (Option.some.inj h) ▸ .zero
  | case2 => cases h
  | case3 => cases h
  | case4 depth b tail ih =>
    cases ih h with
    | succ htext hmiddle => exact .succ (.escape htext) hmiddle
  | case5 depth tail _ ih =>
    cases ih h with
    | succ htext hmiddle =>
      cases hmiddle with
      | succ htext' hmiddle' =>
        have hclosed := Closed.succ (.nested htext htext') hmiddle'
        simpa using hclosed
  | case6 depth tail _ _ ih => exact .succ .nil (ih h)
  | case7 depth b tail hescape hopen hclose ih =>
    cases ih h with
    | succ htext hmiddle => exact .succ (.plain hopen hclose hescape htext) hmiddle

theorem skip_eq_some {content rest : Bytes} :
    skipPdfLiteralString 1 content = some rest ↔
      ∃ text, Balanced text ∧ content = text ++ 0x29 :: rest := by
  constructor
  · intro h
    cases closed_of_skip h with
    | succ htext hmiddle =>
      cases hmiddle
      exact ⟨_, htext, rfl⟩
  · rintro ⟨text, htext, rfl⟩
    rw [skip_balanced htext, skip_close, skipPdfLiteralString]

end Strings

section Lexemes

/-- What a lexeme does to the scan. -/
inductive Move where
  | next (containers : List Container) (found : Bool)
  | done
  | bad (c : Container)
  deriving DecidableEq

def feed (containers : List Container) (found : Bool) : Lexeme → Move
  | .open c => .next (c :: containers) found
  | .close c =>
    match containers with
    | c' :: containers => if c' = c then .next containers found else .bad c
    | [] => .bad c
  | .word w =>
    if containers = [] ∧ w ∈ pdfMarkingOperators then
      if w = inlineImage then .done else .next containers true
    else .next containers found
  | _ => .next containers found

/-- The error of a bracket that closes no container of its kind. -/
def unbalanced : Container → PdfError
  | .array => .pdfRead "Unbalanced array in PDF content stream."
  | .dictionary => .pdfRead "Unbalanced dictionary in PDF content stream."

/-- The scan of a content goes on behind its first lexeme as that moves it. -/
def Follows (containers : List Container) (found : Bool) (content rest : Bytes) : Move → Prop
  | .next containers' found' => scan containers found content = scan containers' found' rest
  | .done => scan containers found content = .ok 1
  | .bad c => scan containers found content = .error (unbalanced c)

variable {containers : List Container} {found : Bool} {content rest : Bytes} {t : Lexeme}

theorem isRegular_ne {b c : UInt8} (h : isRegular b = true) (hc : isDelimiter c = true) :
    b ≠ c := by
  rintro rfl
  simp [isRegular, hc] at h

theorem head?_ne_of_stops {c : UInt8} {tail : Bytes} (h : Stops (· == c) tail) :
    tail.head? ≠ some c := by
  cases tail with
  | nil => simp
  | cons b tail => simpa using h b tail rfl

theorem scan_lex (h : Lex content t rest) :
    Follows containers found content rest (feed containers found t) := by
  cases h with
  | white hb =>
    change scan containers found _ = scan containers found rest
    rw [scan.eq_def]
    dsimp only
    rw [if_pos hb]
  | @comment text _ htext hrest =>
    change scan containers found _ = scan containers found rest
    rw [scan.eq_def]
    dsimp only
    rw [if_neg (by decide), if_pos rfl, dropWhile_append_stops htext hrest]
  | @literal text _ htext =>
    change scan containers found _ = scan containers found rest
    rw [scan.eq_def]
    dsimp only
    rw [if_neg (by decide), if_neg (by decide), if_pos rfl]
    split
    · next hskip =>
      rw [skip_eq_some.2 ⟨text, htext, rfl⟩] at hskip
      cases hskip
    · next hskip =>
      rw [skip_eq_some.2 ⟨text, htext, rfl⟩] at hskip
      rw [Option.some.inj hskip]
  | @hexadecimal text _ htext hstop =>
    change scan containers found _ = scan containers found rest
    rw [scan.eq_def]
    dsimp only
    rw [if_neg (by decide), if_neg (by decide), if_neg (by decide),
      if_neg (fun hand => head?_ne_of_stops hstop hand.2), if_pos rfl]
    have hdrop : (text ++ 0x3E :: rest).dropWhile (· != 0x3E) = 0x3E :: rest :=
        dropWhile_append_stops htext fun b tail heq => by
          rw [← (List.cons.inj heq).1]
          rfl
    split
    · next h =>
      rw [hdrop] at h
      cases h
    · next h =>
      rw [hdrop] at h
      rw [(List.cons.inj h).2]
  | @name text _ htext hrest =>
    change scan containers found _ = scan containers found rest
    rw [scan.eq_def]
    dsimp only
    rw [if_neg (by decide), if_neg (by decide), if_neg (by decide),
      if_neg (by simp), if_neg (by decide), if_pos rfl, dropWhile_append_stops htext hrest]
  | openArray =>
    change scan containers found _ = scan (.array :: containers) found rest
    rw [scan.eq_def]
    dsimp only
    rw [if_neg (by decide), if_neg (by decide), if_neg (by decide),
      if_neg (by simp), if_neg (by decide), if_neg (by decide), if_pos rfl]
  | closeArray =>
    obtain _ | ⟨_ | _, containers⟩ := containers
    all_goals
      change scan _ found _ = _
      rw [scan.eq_def]
      dsimp only
      rw [if_neg (by decide), if_neg (by decide), if_neg (by decide), if_neg (by simp),
        if_neg (by decide), if_neg (by decide), if_neg (by decide), if_pos rfl]
    all_goals rfl
  | openDictionary =>
    change scan containers found _ = scan (.dictionary :: containers) found rest
    rw [scan.eq_def]
    dsimp only
    rw [if_neg (by decide), if_neg (by decide), if_neg (by decide),
      if_pos ⟨rfl, rfl⟩, List.tail_cons]
  | closeDictionary =>
    obtain _ | ⟨_ | _, containers⟩ := containers
    all_goals
      change scan _ found _ = _
      rw [scan.eq_def]
      dsimp only
      rw [if_neg (by decide), if_neg (by decide), if_neg (by decide), if_neg (by simp),
        if_neg (by decide), if_neg (by decide), if_neg (by decide), if_neg (by decide),
        if_pos ⟨rfl, rfl⟩]
    all_goals rfl
  | @word b text _ hb htext hrest =>
    have hwhite : isWhitespace b = false := by
      cases hw : isWhitespace b <;> simp [isRegular, hw] at hb ⊢
    have hdelimiter : isDelimiter b = false := by
      cases hd : isDelimiter b <;> simp [isRegular, hd] at hb ⊢
    have hne (c : UInt8) (hc : isDelimiter c = true) : b ≠ c := isRegular_ne hb hc
    have hscan : scan containers found (b :: (text ++ rest)) =
        if containers = [] ∧ b :: text ∈ pdfMarkingOperators then
          if b :: text = inlineImage then .ok 1 else scan containers true rest
        else scan containers found rest := by
      rw [scan.eq_def]
      dsimp only
      rw [if_neg (by simp [hwhite]), if_neg (hne _ (by decide)), if_neg (hne _ (by decide)),
        if_neg (fun h => hne _ (by decide) h.1), if_neg (hne _ (by decide)),
        if_neg (hne _ (by decide)), if_neg (hne _ (by decide)), if_neg (hne _ (by decide)),
        if_neg (fun h => hne _ (by decide) h.1), if_neg (by simp [hdelimiter])]
      rw [dropWhile_append_stops htext hrest, takeWhile_append_stops htext hrest]
    simp only [feed]
    by_cases hmark : containers = [] ∧ b :: text ∈ pdfMarkingOperators
    · rw [if_pos hmark] at hscan ⊢
      by_cases himage : b :: text = inlineImage
      · rw [if_pos himage] at hscan ⊢
        exact hscan
      · rw [if_neg himage] at hscan ⊢
        exact hscan
    · rw [if_neg hmark] at hscan ⊢
      exact hscan

theorem scan_malformed (h : Malformed content) :
    ∃ message, scan containers found content = .error (.pdfRead message) := by
  cases h with
  | @literal rest hno =>
    refine ⟨"Unterminated literal string in PDF content stream.", ?_⟩
    rw [scan.eq_def]
    dsimp only
    rw [if_neg (by decide), if_neg (by decide), if_pos rfl]
    split
    · rfl
    · next after hskip =>
      obtain ⟨text, htext, heq⟩ := skip_eq_some.1 hskip
      exact absurd heq (hno text after htext)
  | @hexadecimal rest hstop hall =>
    refine ⟨"Unterminated hexadecimal string in PDF content stream.", ?_⟩
    rw [scan.eq_def]
    dsimp only
    rw [if_neg (by decide), if_neg (by decide), if_neg (by decide),
      if_neg (fun hand => head?_ne_of_stops hstop hand.2), if_pos rfl]
    have hdrop : rest.dropWhile (· != 0x3E) = [] :=
      List.dropWhile_eq_nil_iff.2 (by simpa using hall)
    split
    · rfl
    · next h =>
      rw [hdrop] at h
      cases h
  | @angle rest hstop =>
    refine ⟨"Unexpected delimiter in PDF content stream.", ?_⟩
    rw [scan.eq_def]
    dsimp only
    rw [if_neg (by decide), if_neg (by decide), if_neg (by decide), if_neg (by simp),
      if_neg (by decide), if_neg (by decide), if_neg (by decide), if_neg (by decide),
      if_neg (fun hand => head?_ne_of_stops hstop hand.2), if_pos (by decide)]
  | @stray b rest hb =>
    refine ⟨"Unexpected delimiter in PDF content stream.", ?_⟩
    rw [scan.eq_def]
    rcases hb with rfl | rfl | rfl <;> rfl

/-- The head of a content is a lexeme, or no lexeme is there. -/
theorem lex_or_malformed (b : UInt8) (tail : Bytes) :
    (∃ t rest, Lex (b :: tail) t rest) ∨ Malformed (b :: tail) := by
  by_cases hwhite : isWhitespace b = true
  · exact .inl ⟨_, _, .white hwhite⟩
  · by_cases hdelimiter : isDelimiter b = true
    · have hruns (p : UInt8 → Bool) :
          (tail.takeWhile p).all p = true ∧ Stops p (tail.dropWhile p) :=
        ⟨List.all_takeWhile, stops_dropWhile p tail⟩
      have hb : b = 0x28 ∨ b = 0x29 ∨ b = 0x3C ∨ b = 0x3E ∨ b = 0x5B ∨ b = 0x5D ∨ b = 0x7B ∨
          b = 0x7D ∨ b = 0x2F ∨ b = 0x25 := by simpa [isDelimiter] using hdelimiter
      rcases hb with rfl | rfl | rfl | rfl | rfl | rfl | rfl | rfl | rfl | rfl
      · by_cases h : ∃ text after, Balanced text ∧ tail = text ++ 0x29 :: after
        · obtain ⟨text, after, htext, rfl⟩ := h
          exact .inl ⟨_, _, .literal htext⟩
        · exact .inr (.literal fun text after htext heq => h ⟨text, after, htext, heq⟩)
      · exact .inr (.stray (.inl rfl))
      · by_cases hopen : ∃ rest, tail = 0x3C :: rest
        · obtain ⟨rest, rfl⟩ := hopen
          exact .inl ⟨_, _, .openDictionary⟩
        · have hstop : Stops (· == 0x3C) tail := by
            intro c rest heq
            by_contra hc
            refine hopen ⟨rest, ?_⟩
            rw [heq, show c = 0x3C by simpa using hc]
          obtain ⟨htake, hdrop⟩ := hruns (· != 0x3E)
          have happend := List.takeWhile_append_dropWhile (p := (· != 0x3E)) (l := tail)
          cases hrest : tail.dropWhile (· != 0x3E) with
          | nil =>
            refine .inr (.hexadecimal hstop ?_)
            rw [hrest, List.append_nil] at happend
            rw [← happend]
            exact htake
          | cons c rest =>
            obtain rfl : c = 0x3E := by simpa using hdrop c rest hrest
            rw [hrest] at happend
            rw [← happend] at hstop ⊢
            exact .inl ⟨_, _, .hexadecimal htake hstop⟩
      · by_cases hclose : ∃ rest, tail = 0x3E :: rest
        · obtain ⟨rest, rfl⟩ := hclose
          exact .inl ⟨_, _, .closeDictionary⟩
        · refine .inr (.angle fun c rest heq => ?_)
          by_contra hc
          refine hclose ⟨rest, ?_⟩
          rw [heq, show c = 0x3E by simpa using hc]
      · exact .inl ⟨_, _, .openArray⟩
      · exact .inl ⟨_, _, .closeArray⟩
      · exact .inr (.stray (.inr (.inl rfl)))
      · exact .inr (.stray (.inr (.inr rfl)))
      · obtain ⟨htake, hdrop⟩ := hruns isRegular
        have h := Lex.name htake hdrop
        rw [List.takeWhile_append_dropWhile] at h
        exact .inl ⟨_, _, h⟩
      · obtain ⟨htake, hdrop⟩ := hruns (!isNewline ·)
        have h := Lex.comment htake hdrop
        rw [List.takeWhile_append_dropWhile] at h
        exact .inl ⟨_, _, h⟩
    · have hregular : isRegular b = true := by simp [isRegular, hwhite, hdelimiter]
      have h := Lex.word hregular (List.all_takeWhile (p := isRegular) (l := tail))
        (stops_dropWhile isRegular tail)
      rw [List.takeWhile_append_dropWhile] at h
      exact .inl ⟨_, _, h⟩

/-- Every content is a run of lexemes, up to its end or to where no lexeme is. -/
theorem exists_lexes (content : Bytes) :
    ∃ ts rest, Lexes content ts rest ∧ (rest = [] ∨ Malformed rest) := by
  induction hn : content.length using Nat.strong_induction_on generalizing content with
  | _ n ih =>
    cases content with
    | nil => exact ⟨[], [], .nil, .inl rfl⟩
    | cons b tail =>
      rcases lex_or_malformed b tail with ⟨t, middle, hlex⟩ | hbad
      · obtain ⟨ts, rest, hlexes, hend⟩ := ih _ (hn ▸ hlex.length_lt) middle rfl
        exact ⟨t :: ts, rest, .cons hlex hlexes, hend⟩
      · exact ⟨[], b :: tail, .nil, .inr hbad⟩

end Lexemes

section Runs

/-- What lexemes do to the scan, up to the first that ends it. -/
def run (containers : List Container) (found : Bool) : List Lexeme → Move
  | [] => .next containers found
  | t :: ts =>
    match feed containers found t with
    | .next containers found => run containers found ts
    | move => move

variable {containers cs : List Container} {found : Bool} {content rest : Bytes}
  {ts : List Lexeme} {ws : List Bytes}

theorem scan_lexes (h : Lexes content ts rest) :
    Follows containers found content rest (run containers found ts) := by
  induction h generalizing containers found with
  | nil => exact rfl
  | @cons content middle rest t ts hlex _ ih =>
    have hstep := @scan_lex containers found _ _ _ hlex
    rw [run]
    cases hfeed : feed containers found t with
    | next containers' found' =>
      rw [hfeed] at hstep
      have hrest := @ih containers' found'
      simp only
      cases hrun : run containers' found' ts with
      | next =>
        rw [hrun] at hrest
        exact hstep.trans hrest
      | done =>
        rw [hrun] at hrest
        exact hstep.trans hrest
      | bad =>
        rw [hrun] at hrest
        exact hstep.trans hrest
    | done =>
      rw [hfeed] at hstep
      exact hstep
    | bad =>
      rw [hfeed] at hstep
      exact hstep

theorem run_append (ts ts' : List Lexeme) : run containers found (ts ++ ts') =
    match run containers found ts with
    | .next containers found => run containers found ts'
    | move => move := by
  induction ts generalizing containers found with
  | nil => rfl
  | cons t ts ih =>
    rw [List.cons_append, run, run]
    cases feed containers found t with
    | next containers found => exact ih
    | done => rfl
    | bad => rfl

theorem feed_plain {t : Lexeme} (h : t.isPlain = true) :
    feed containers found t = .next containers found := by
  cases t <;> first | rfl | cases h

/-- Within a container, closed lexemes change nothing. -/
theorem run_nested_inside (h : Nested ts ws) (c : Container) :
    run (c :: containers) found ts = .next (c :: containers) found := by
  induction h generalizing c containers with
  | nil => rfl
  | plain hplain _ ih =>
    rw [run, feed_plain hplain]
    exact ih c
  | word _ ih =>
    rw [run, feed, if_neg (by simp)]
    exact ih c
  | @container c' inner ts _ _ _ _ ihinner ih =>
    rw [run, feed]
    simp only
    rw [run_append, ihinner]
    simp only [run, feed, if_true]
    exact ih c

/-- What the words outside of containers make of a scan. -/
def marked (containers : List Container) (found : Bool) (ws : List Bytes) : Move :=
  if inlineImage ∈ ws then .done else .next containers (found || ws.any (· ∈ pdfMarkingOperators))

theorem run_nested (h : Nested ts ws) : run [] found ts = marked [] found ws := by
  induction h generalizing found with
  | nil => simp [run, marked]
  | plain hplain _ ih =>
    rw [run, feed_plain hplain]
    exact ih
  | @word w ts ws _ ih =>
    have himage : inlineImage ∈ pdfMarkingOperators := by decide
    rw [run, feed]
    by_cases hmark : w ∈ pdfMarkingOperators
    · rw [if_pos ⟨rfl, hmark⟩]
      by_cases hw : w = inlineImage
      · simp [marked, hw]
      · simp only [if_neg hw, ih, marked, List.mem_cons, Ne.symm hw, false_or, List.any_cons, hmark,
          decide_true, Bool.true_or, Bool.or_true]
    · have hw : inlineImage ≠ w := fun heq => hmark (heq ▸ himage)
      rw [if_neg (fun hand => hmark hand.2)]
      simp only [ih, marked, List.mem_cons, hw, false_or, List.any_cons, hmark, decide_false,
        Bool.false_or]
  | @container c inner ts _ _ hinner _ _ ih =>
    rw [run, feed]
    simp only
    rw [run_append, run_nested_inside hinner]
    simp only [run, feed, if_true]
    exact ih

theorem run_opens (h : Opens ts cs ws) : run [] found ts = marked cs found ws := by
  induction h with
  | nested h => exact run_nested h
  | @«open» c ts inner cs ws ws' _ hinner ih =>
    rw [run_append, ih, marked, marked]
    by_cases himage : inlineImage ∈ ws
    · rw [if_pos himage, if_pos himage]
    · rw [if_neg himage, if_neg himage]
      exact run_nested_inside hinner c

/-- A scan that goes on has the containers open that its lexemes leave open. -/
theorem opens_of_run {found' : Bool} (h : run [] found ts = .next cs found') :
    ∃ ws, Opens ts cs ws := by
  induction ts using List.reverseRecOn generalizing cs found' with
  | nil =>
    obtain ⟨rfl, _⟩ := Move.next.inj h
    exact ⟨[], .nested .nil⟩
  | append_singleton ts t ih =>
    rw [run_append] at h
    cases hrun : run [] found ts with
    | next cs₁ found₁ =>
      obtain ⟨ws, hopens⟩ := ih hrun
      rw [hrun] at h
      simp only [run] at h
      by_cases hplain : t.isPlain = true
      · rw [feed_plain hplain] at h
        obtain ⟨rfl, _⟩ := Move.next.inj h
        exact ⟨_, hopens.append (.plain hplain .nil)⟩
      · cases t with
        | «open» c =>
          obtain ⟨rfl, _⟩ := Move.next.inj h
          exact ⟨_, .open hopens .nil⟩
        | close c =>
          simp only [feed] at h
          cases cs₁ with
          | nil => cases h
          | cons c' cs₁ =>
            by_cases hc : c' = c
            · subst hc
              simp only [if_true] at h
              obtain ⟨rfl, _⟩ := Move.next.inj h
              exact ⟨_, hopens.close⟩
            · simp only [if_neg hc] at h
              cases h
        | word w =>
          have hcs : cs₁ = cs := by
            simp only [feed] at h
            by_cases hmark : cs₁ = [] ∧ w ∈ pdfMarkingOperators
            · rw [if_pos hmark] at h
              by_cases hw : w = inlineImage
              · rw [if_pos hw] at h
                cases h
              · rw [if_neg hw] at h
                exact (Move.next.inj h).1
            · rw [if_neg hmark] at h
              exact (Move.next.inj h).1
          exact ⟨_, hcs ▸ hopens.append (.word .nil)⟩
        | _ => exact absurd rfl hplain
    | done =>
      rw [hrun] at h
      cases h
    | bad =>
      rw [hrun] at h
      cases h

/-- A scan ends early at a word outside of containers, or at a bracket that closes none. -/
theorem run_ends (h : ∀ cs found', run [] found ts ≠ .next cs found') :
    ∃ before t after cs ws found', ts = before ++ t :: after ∧ Opens before cs ws ∧
      run [] found before = .next cs found' ∧ run [] found ts = feed cs found' t := by
  induction ts using List.reverseRecOn with
  | nil => exact absurd rfl (h [] found)
  | append_singleton ts t ih =>
    by_cases hnext : ∃ cs found', run [] found ts = .next cs found'
    · obtain ⟨cs, found', hrun⟩ := hnext
      obtain ⟨ws, hopens⟩ := opens_of_run hrun
      refine ⟨ts, t, [], cs, ws, found', rfl, hopens, hrun, ?_⟩
      rw [run_append, hrun]
      simp only [run]
      cases feed cs found' t <;> rfl
    · have hno : ∀ cs found', run [] found ts ≠ .next cs found' :=
        fun cs found' hrun => hnext ⟨cs, found', hrun⟩
      obtain ⟨before, t', after, cs, ws, found', rfl, hopens, hrun, hfeed⟩ := ih hno
      refine ⟨before, t', after ++ [t], cs, ws, found', by simp, hopens, hrun, ?_⟩
      rw [run_append, ← hfeed]
      cases hmove : run [] found (before ++ t' :: after) with
      | next cs found' => exact absurd hmove (hno cs found')
      | done => rfl
      | bad => rfl

end Runs

end CadPlot.Audit
