import CadPlot.TextPlan.PieceLaws

/-!
# Tokens in front of another text

A protected token is read again when the text behind it is another one, but for
two kinds of texts: one that goes on with its number, and one with the semicolon
that a bare `\p` lacks.
-/

namespace CadPlot.TextPlan

/-- What Unicode says of ASCII, and of digits. -/
structure Alphabet.Lawful (alphabet : Alphabet) : Prop where
  decimal_numeric : ∀ c, alphabet.isDecimal c = true → alphabet.isNumeric c = true
  ascii_decimal : ∀ c < 128, alphabet.isDecimal c = decide (48 ≤ c ∧ c ≤ 57)
  ascii_alpha : ∀ c < 128, alphabet.isAlpha c = decide (65 ≤ c ∧ c ≤ 90 ∨ 97 ≤ c ∧ c ≤ 122)
  symbol_decimal : ∀ c, isSymbol c = true → alphabet.isDecimal c.toNat = false

section Tokens

variable {alphabet : Alphabet}

theorem throughSemicolon_append {text value : List Char} (h : throughSemicolon text = some value)
    (rest : List Char) : throughSemicolon (value ++ rest) = some value := by
  induction text generalizing value with
  | nil => cases h
  | cons c text ih =>
    rw [throughSemicolon] at h
    split at h
    · cases h
      rfl
    · next hc =>
      obtain ⟨value, hvalue, rfl⟩ := Option.map_eq_some_iff.mp h
      rw [List.cons_append, throughSemicolon, if_neg hc, ih hvalue]
      rfl

theorem throughSemicolon_eq_none {text : List Char} :
    throughSemicolon text = none ↔ ';' ∉ text := by
  induction text with
  | nil => simp [throughSemicolon]
  | cons c text ih =>
    rw [throughSemicolon]
    split
    · next hc => simp [hc]
    · next hc =>
      rw [Option.map_eq_none_iff, ih, List.mem_cons, not_or]
      exact ⟨fun h => ⟨Ne.symm hc, h⟩, fun h => h.2⟩

theorem closeField_ne_nil {depth : Nat} {text field : List Char}
    (h : closeField (depth + 1) text = some field) : field ≠ [] := by
  rintro rfl
  unfold closeField at h
  split at h
  · next heq => cases heq
  · cases h
  all_goals
    obtain ⟨_, -, hnil⟩ := Option.map_eq_some_iff.mp h
    cases hnil

theorem closeField_append {depth : Nat} {text field : List Char}
    (h : closeField depth text = some field) (rest : List Char) :
    closeField depth (field ++ rest) = some field := by
  induction depth, text using closeField.induct generalizing field with
  | case1 text =>
    rw [closeField] at h ⊢
    exact h
  | case2 depth => cases h
  | case3 depth text ih =>
    obtain ⟨field, hfield, rfl⟩ := Option.map_eq_some_iff.mp h
    exact Option.map_eq_some_iff.mpr ⟨field, ih hfield, rfl⟩
  | case4 depth text ih =>
    obtain ⟨field, hfield, rfl⟩ := Option.map_eq_some_iff.mp h
    exact Option.map_eq_some_iff.mpr ⟨field, ih hfield, rfl⟩
  | case5 depth c text hopen hclose ih =>
    rw [closeField.eq_5 _ _ _ hopen hclose] at h
    obtain ⟨field, hfield, rfl⟩ := Option.map_eq_some_iff.mp h
    obtain ⟨d, field', rfl⟩ := List.exists_cons_of_ne_nil (closeField_ne_nil hfield)
    obtain ⟨later, rfl⟩ := closeField_front hfield
    rw [List.cons_append, List.cons_append, closeField.eq_5 _ _ _
      (fun x hx hxs => hopen _ hx (by rw [List.cons_append] at *; cases hxs; rfl))
      (fun x hx hxs => hclose _ hx (by rw [List.cons_append] at *; cases hxs; rfl))]
    exact Option.map_eq_some_iff.mpr ⟨_, ih hfield, rfl⟩

theorem takeNumber_cons (c : Char) (text : List Char) : takeNumber alphabet (c :: text) =
    if isDecimal alphabet c || isSeparator c && text.head?.any (isDecimal alphabet) then
      c :: takeNumber alphabet text
    else [] := by
  cases text with
  | nil => simp [takeNumber]
  | cons d text => rw [takeNumber]; rfl

/-- Nothing of a number begins here. -/
theorem takeNumber_eq_nil {c : Char} {text : List Char} : takeNumber alphabet (c :: text) = [] ↔
    isDecimal alphabet c = false ∧
      (isSeparator c = true → text.head?.any (isDecimal alphabet) = false) := by
  rw [takeNumber_cons]
  cases isDecimal alphabet c <;> cases isSeparator c <;>
    cases text.head?.any (isDecimal alphabet) <;> simp

theorem head_of_takeNumber_nil {text : List Char} (h : takeNumber alphabet text = []) :
    text.head?.any (isDecimal alphabet) = false := by
  cases text with
  | nil => rfl
  | cons c text => exact (takeNumber_eq_nil.mp h).1

theorem takeNumber_of_cons {c : Char} {token text : List Char}
    (h : takeNumber alphabet (c :: text) = c :: token) :
    (isDecimal alphabet c || isSeparator c && text.head?.any (isDecimal alphabet)) = true ∧
      takeNumber alphabet text = token := by
  rw [takeNumber_cons] at h
  split at h
  · next hc => exact ⟨hc, (List.cons.inj h).2⟩
  · cases h

/-- Behind a sign there is a digit, so the number is not empty. -/
theorem digits_ne_nil {token rest : List Char}
    (hhead : (token ++ rest).head?.any (isDecimal alphabet) = true)
    (htake : takeNumber alphabet (token ++ rest) = token) : token ≠ [] := by
  rintro rfl
  rw [head_of_takeNumber_nil htake] at hhead
  cases hhead

/-- Behind a number nothing of a number goes on. -/
theorem takeNumber_rest {token rest : List Char}
    (h : takeNumber alphabet (token ++ rest) = token) : takeNumber alphabet rest = [] := by
  induction token with
  | nil => exact h
  | cons c token ih => exact ih (takeNumber_of_cons h).2

/-- So the number is read again in front of whatever does not go on. -/
theorem takeNumber_append {token rest rest' : List Char}
    (h : takeNumber alphabet (token ++ rest) = token) (hrest : takeNumber alphabet rest' = []) :
    takeNumber alphabet (token ++ rest') = token := by
  induction token with
  | nil => exact hrest
  | cons c token ih =>
    rw [List.cons_append] at h
    obtain ⟨hc, htoken⟩ := takeNumber_of_cons h
    rw [List.cons_append, takeNumber_cons, if_pos, ih htoken]
    cases token with
    | cons d token => exact hc
    | nil =>
      have hhead : rest.head?.any (isDecimal alphabet) = false := head_of_takeNumber_nil htoken
      rw [List.nil_append, hhead, Bool.and_false, Bool.or_false] at hc
      rw [hc, Bool.true_or]

theorem percentCode_ne {c : Char} (hc : c ≠ '%') (text : List Char) :
    percentCode alphabet (c :: text) = none := by
  unfold percentCode
  split
  · next heq => exact absurd (List.cons.inj heq).1 hc
  · rfl

theorem percentCode_eq_some {text token : List Char} : percentCode alphabet text = some token ↔
    (∃ c rest, c.isAlpha = true ∧ token = ['%', '%', c] ∧ text = token ++ rest) ∨
      ∃ c d e rest, c.isAlpha = false ∧
        (isDecimal alphabet c && isDecimal alphabet d && isDecimal alphabet e) = true ∧
        token = ['%', '%', c, d, e] ∧ text = token ++ rest := by
  constructor
  · intro h
    unfold percentCode at h
    split at h
    · split at h
      · next hc =>
        cases h
        exact .inl ⟨_, _, hc, rfl, rfl⟩
      · next hc =>
        split at h
        · split at h
          · next hdigits =>
            cases h
            exact .inr ⟨_, _, _, _, by simpa using hc, hdigits, rfl, rfl⟩
          · cases h
        · cases h
    · cases h
  · rintro (⟨c, rest, hc, rfl, rfl⟩ | ⟨c, d, e, rest, hc, hdigits, rfl, rfl⟩)
    · simp [percentCode, hc]
    · simp only [List.cons_append, List.nil_append, percentCode, hc, hdigits, if_true,
        Bool.false_eq_true, if_false]

theorem percentCode_append {token rest : List Char}
    (h : percentCode alphabet (token ++ rest) = some token) (rest' : List Char) :
    percentCode alphabet (token ++ rest') = some token := by
  rw [percentCode_eq_some] at h ⊢
  rcases h with ⟨c, _, hc, htoken, -⟩ | ⟨c, d, e, _, hc, hdigits, htoken, -⟩
  · exact .inl ⟨c, rest', hc, htoken, rfl⟩
  · exact .inr ⟨c, d, e, rest', hc, hdigits, htoken, rfl⟩

/-- The controls that take a value and stand alone: `\p` -/
theorem takesValue_standsAlone {c : Char} (h : takesValue c = true) (h' : standsAlone c = true) :
    c = 'p' := by
  have hall : ∀ c ∈ "ACcFfHhQqTtWwpaS".toList, standsAlone c = true → c = 'p' :=
    Text.forall_mem_of_all (by decide)
  exact hall c (List.contains_iff_mem.mp h) h'

theorem protectedToken_other {c : Char} {text : List Char} (hc : c ≠ '\\')
    (hplaceholder : ¬(c = '<' ∧ text.head? = some '>')) :
    protectedToken alphabet (c :: text) =
      if isBreak c || isSymbol c then some [c]
      else (percentCode alphabet (c :: text)).or (number alphabet (c :: text)) := by
  conv => lhs; unfold protectedToken
  split
  · next heq => cases heq
  · next heq =>
    cases heq
    exact absurd rfl hc
  · next heq =>
    cases heq
    exact absurd ⟨rfl, rfl⟩ hplaceholder
  · next heq =>
    cases heq
    rfl

/-- The characters that begin tokens, and separators, are not digits. -/
theorem isDecimal_mark (hlaw : alphabet.Lawful) {c : Char}
    (hc : c ∈ "\\<>%+-.,/:\x7b\x7d\r\n\t".toList) : isDecimal alphabet c = false := by
  have hrange : ∀ c ∈ "\\<>%+-.,/:\x7b\x7d\r\n\t".toList,
      c.toNat < 128 ∧ ¬(48 ≤ c.toNat ∧ c.toNat ≤ 57) :=
    Text.forall_mem_of_all (by decide)
  obtain ⟨hascii, hnot⟩ := hrange c hc
  rw [isDecimal, hlaw.ascii_decimal _ hascii, decide_eq_false hnot]

theorem isDecimal_sign (hlaw : alphabet.Lawful) {c : Char} (hc : isSign c = true) :
    isDecimal alphabet c = false := by
  rw [isSign, Bool.or_eq_true, decide_eq_true_iff, decide_eq_true_iff] at hc
  rcases hc with rfl | rfl <;> exact isDecimal_mark hlaw (by decide)

theorem isDecimal_break (hlaw : alphabet.Lawful) {c : Char}
    (hc : (isBreak c || isSymbol c) = true) : isDecimal alphabet c = false := by
  rcases Bool.or_eq_true_iff.mp hc with hbreak | hsymbol
  · have hall : ∀ c ∈ "\x7b\x7d\r\n\t".toList, c ∈ "\\<>%+-.,/:\x7b\x7d\r\n\t".toList :=
      Text.forall_mem_of_all (by decide)
    exact isDecimal_mark hlaw (hall c (List.contains_iff_mem.mp hbreak))
  · exact hlaw.symbol_decimal c hsymbol

theorem ne_of_isDecimal (hlaw : alphabet.Lawful) {c d : Char} (hc : isDecimal alphabet c = true)
    (hd : d ∈ "\\<>%+-.,/:\x7b\x7d\r\n\t".toList) : c ≠ d := by
  rintro rfl
  rw [isDecimal_mark hlaw hd] at hc
  cases hc

theorem number_eq_some {text token : List Char} : number alphabet text = some token ↔
    ∃ c rest, text = c :: rest ∧
      (isDecimal alphabet c = true ∧ token = takeNumber alphabet text ∨
        isDecimal alphabet c = false ∧ isSign c = true ∧
          rest.head?.any (isDecimal alphabet) = true ∧ token = c :: takeNumber alphabet rest) := by
  cases text with
  | nil => simp [number]
  | cons c rest =>
    rw [number]
    constructor
    · intro h
      refine ⟨c, rest, rfl, ?_⟩
      split at h
      · next hc => exact .inl ⟨hc, (Option.some.inj h).symm⟩
      · next hc =>
        split at h
        · next hsign =>
          rw [Bool.and_eq_true] at hsign
          exact .inr ⟨by simpa using hc, hsign.1, hsign.2, (Option.some.inj h).symm⟩
        · cases h
    · rintro ⟨c', rest', heq, h⟩
      obtain ⟨rfl, rfl⟩ := List.cons.inj heq
      rcases h with ⟨hc, rfl⟩ | ⟨hc, hsign, hhead, rfl⟩
      · rw [if_pos hc]
      · rw [if_neg (by simp [hc]), if_pos (by rw [hsign, hhead]; rfl)]

/-- A number is read again in front of what does not go on with it. -/
theorem number_append {token rest rest' : List Char}
    (h : number alphabet (token ++ rest) = some token)
    (hend : takeNumber alphabet rest = [] → takeNumber alphabet rest' = []) :
    number alphabet (token ++ rest') = some token := by
  obtain ⟨-, hne⟩ := number_front h
  obtain ⟨c, token, rfl⟩ := List.exists_cons_of_ne_nil hne
  rw [List.cons_append, number_eq_some] at h
  obtain ⟨c', text, heq, h⟩ := h
  obtain ⟨rfl, rfl⟩ := List.cons.inj heq
  refine number_eq_some.mpr ⟨c, token ++ rest', rfl, ?_⟩
  rcases h with ⟨hc, htoken⟩ | ⟨hc, hsign, hhead, htoken⟩
  · have htake : takeNumber alphabet (c :: token ++ rest) = c :: token := htoken.symm
    exact .inl ⟨hc, (takeNumber_append htake (hend (takeNumber_rest htake))).symm⟩
  · have htake : takeNumber alphabet (token ++ rest) = token := (List.cons.inj htoken).2.symm
    refine .inr ⟨hc, hsign, ?_, congrArg (c :: ·)
      (takeNumber_append htake (hend (takeNumber_rest htake))).symm⟩
    obtain ⟨d, token, rfl⟩ := List.exists_cons_of_ne_nil (digits_ne_nil hhead htake)
    exact hhead

theorem protectedToken_control (c : Char) (rest : List Char) :
    protectedToken alphabet ('\\' :: c :: rest) =
      match if takesValue c then throughSemicolon rest else none with
      | some value => some ('\\' :: c :: value)
      | none => if standsAlone c then some ['\\', c] else none := rfl

def bareParagraph : List Char := ['\\', 'p']

/-- A control is read again, unless a semicolon turns a bare paragraph into one with a value. -/
theorem control_append {c : Char} {value rest rest' : List Char}
    (h : protectedToken alphabet ('\\' :: c :: (value ++ rest)) = some ('\\' :: c :: value))
    (hbare : '\\' :: c :: value = bareParagraph → ';' ∉ rest') :
    protectedToken alphabet ('\\' :: c :: (value ++ rest')) = some ('\\' :: c :: value) := by
  rw [protectedToken_control] at h ⊢
  split at h
  · next read hread =>
    cases h
    split at hread
    · next hvalue => rw [if_pos hvalue, throughSemicolon_append hread]
    · cases hread
  · split at h
    · next hstands =>
      obtain rfl : value = [] := by simpa using h.symm
      have hnone : (if takesValue c then throughSemicolon ([] ++ rest') else none) = none := by
        split
        · next hvalue =>
          rw [List.nil_append, throughSemicolon_eq_none]
          exact hbare (by rw [takesValue_standsAlone hvalue hstands]; rfl)
        · rfl
      rw [hnone]
      exact if_pos hstands
    · cases h

/-- A protected token in front of a rest, by the rule that reads it there. -/
inductive ReadAs (alphabet : Alphabet) : List Char → List Char → Prop
  | field {text rest} (h : closeField 1 (text ++ rest) = some text) :
      ReadAs alphabet ('%' :: '<' :: text) rest
  | escape {token code rest} (h : unicodeEscape (token ++ rest) = some (token, code))
      (hcode : isProtectedCode alphabet code = true) : ReadAs alphabet token rest
  | control {c value rest}
      (h : protectedToken alphabet ('\\' :: c :: (value ++ rest)) = some ('\\' :: c :: value)) :
      ReadAs alphabet ('\\' :: c :: value) rest
  | placeholder {rest} : ReadAs alphabet ['<', '>'] rest
  | mark {c rest} (h : (isBreak c || isSymbol c) = true) : ReadAs alphabet [c] rest
  | code {token rest} (h : percentCode alphabet (token ++ rest) = some token) :
      ReadAs alphabet token rest
  | number {token rest} (h : number alphabet (token ++ rest) = some token) :
      ReadAs alphabet token rest

theorem readAs_of_token {token rest : List Char}
    (h : protectedToken alphabet (token ++ rest) = some token) : ReadAs alphabet token rest := by
  obtain ⟨-, hne⟩ := protectedToken_front h
  obtain ⟨c, token, rfl⟩ := List.exists_cons_of_ne_nil hne
  by_cases hc : c = '\\'
  · subst hc
    cases token with
    | nil =>
      cases rest with
      | nil => cases h
      | cons d rest =>
        rw [List.cons_append, List.nil_append, protectedToken_control] at h
        split at h
        · cases h
        · split at h <;> cases h
    | cons d value => exact .control h
  by_cases hplaceholder : c = '<' ∧ (token ++ rest).head? = some '>'
  · obtain ⟨rfl, hhead⟩ := hplaceholder
    obtain ⟨text, htext⟩ := List.head?_eq_some_iff.mp hhead
    rw [List.cons_append, htext] at h
    cases h
    exact .placeholder
  rw [List.cons_append, protectedToken_other hc hplaceholder] at h
  split at h
  · next hmark =>
    cases h
    exact .mark hmark
  · rcases Option.or_eq_some_iff.mp h with hcode | ⟨-, hnumber⟩
    · exact .code hcode
    · exact .number hnumber

theorem readAs_of_nextPiece {token rest : List Char}
    (h : nextPiece alphabet (token ++ rest) = .ok ⟨false, token⟩) : ReadAs alphabet token rest := by
  rw [nextPiece] at h
  split at h
  · split at h
    · cases h
    · next field hclose =>
      cases h
      exact .field hclose
  · split at h
    · next escape code hescape =>
      obtain ⟨hcode, rfl⟩ := Piece.mk.inj (Except.ok.inj h)
      exact .escape hescape (by simpa using hcode)
    · split at h
      · next token' htoken =>
        cases h
        exact readAs_of_token htoken
      · split at h <;> cases h

theorem unicodeEscape_ne {c : Char} (hc : c ≠ '\\') (text : List Char) :
    unicodeEscape (c :: text) = none := by
  unfold unicodeEscape
  split
  · next heq => exact absurd (List.cons.inj heq).1 hc
  · rfl

theorem unicodeEscape_control {c : Char} (hc : c ≠ 'U') (text : List Char) :
    unicodeEscape ('\\' :: c :: text) = none := by
  unfold unicodeEscape
  split
  · next heq => exact absurd (List.cons.inj (List.cons.inj heq).2).1 hc
  · rfl

theorem nextPiece_token {text token : List Char} (hfield : text.take 2 ≠ ['%', '<'])
    (hescape : unicodeEscape text = none) (h : protectedToken alphabet text = some token) :
    nextPiece alphabet text = .ok ⟨false, token⟩ := by
  rw [nextPiece, if_neg hfield, hescape, h]

theorem nextPiece_control {c : Char} {text token : List Char}
    (h : protectedToken alphabet ('\\' :: c :: text) = some token) :
    nextPiece alphabet ('\\' :: c :: text) = .ok ⟨false, token⟩ := by
  refine nextPiece_token (by simp) (unicodeEscape_control ?_ text) h
  rintro rfl
  cases h

/-- What begins a number begins nothing else. -/
theorem nextPiece_number (hlaw : alphabet.Lawful) {text token : List Char}
    (h : number alphabet text = some token) :
    nextPiece alphabet text = .ok ⟨false, token⟩ := by
  obtain ⟨c, rest, rfl, hc⟩ := number_eq_some.mp h
  have hne : c ≠ '%' ∧ c ≠ '\\' ∧ c ≠ '<' ∧ (isBreak c || isSymbol c) = false := by
    rcases hc with ⟨hdecimal, -⟩ | ⟨-, hsign, -⟩
    · refine ⟨ne_of_isDecimal hlaw hdecimal (by decide), ne_of_isDecimal hlaw hdecimal (by decide),
        ne_of_isDecimal hlaw hdecimal (by decide), Bool.eq_false_iff.mpr fun hmark => ?_⟩
      rw [isDecimal_break hlaw hmark] at hdecimal
      cases hdecimal
    · rw [isSign, Bool.or_eq_true, decide_eq_true_iff, decide_eq_true_iff] at hsign
      rcases hsign with rfl | rfl <;> decide
  obtain ⟨hpercent, hslash, hopen, hmark⟩ := hne
  refine nextPiece_token ?_ (unicodeEscape_ne hslash rest) ?_
  · intro hfield
    cases rest <;> simp [hpercent] at hfield
  · rw [protectedToken_other hslash fun h => hopen h.1, hmark, percentCode_ne hpercent, h]
    rfl

theorem nextPiece_of_readAs (hlaw : alphabet.Lawful) {token rest : List Char}
    (h : ReadAs alphabet token rest) : nextPiece alphabet (token ++ rest) = .ok ⟨false, token⟩ := by
  cases h with
  | @field text rest h =>
    have hfield : ('%' :: '<' :: text ++ rest).take 2 = ['%', '<'] := rfl
    have hdrop : ('%' :: '<' :: text ++ rest).drop 2 = text ++ rest := rfl
    rw [nextPiece, if_pos hfield, hdrop, h]
  | escape h hcode => rw [nextPiece_escape h, hcode]; rfl
  | control h => exact nextPiece_control h
  | placeholder => rfl
  | @mark c rest h =>
    have hne : c ≠ '%' ∧ c ≠ '\\' ∧ c ≠ '<' := by
      refine ⟨?_, ?_, ?_⟩ <;> rintro rfl <;> revert h <;> decide
    refine nextPiece_token ?_ (unicodeEscape_ne hne.2.1 rest) ?_
    · intro hfield
      cases rest <;> simp [hne.1] at hfield
    · rw [List.cons_append, protectedToken_other hne.2.1 fun h => hne.2.2 h.1, if_pos h]
  | code h =>
    have hfront : ∃ text, token ++ rest = '%' :: '%' :: text := by
      rcases percentCode_eq_some.mp h with ⟨c, _, _, rfl, -⟩ | ⟨c, d, e, _, _, _, rfl, -⟩
      · exact ⟨c :: rest, rfl⟩
      · exact ⟨c :: d :: e :: rest, rfl⟩
    obtain ⟨text, htext⟩ := hfront
    rw [htext] at h ⊢
    refine nextPiece_token (by simp) (unicodeEscape_ne (by decide) _) ?_
    rw [protectedToken_other (by decide) fun h => absurd h.1 (by decide), h]
    rfl
  | number h => exact nextPiece_number hlaw h

/-- Protected tokens are read again where their text stands, but for two kinds of rests. -/
theorem ReadAs.again {token rest rest' : List Char} (h : ReadAs alphabet token rest)
    (hbare : token = bareParagraph → ';' ∉ rest')
    (hend : takeNumber alphabet rest = [] → takeNumber alphabet rest' = []) :
    ReadAs alphabet token rest' := by
  cases h with
  | field h => exact .field (closeField_append h rest')
  | escape h hcode => exact .escape (unicodeEscape_append h rest') hcode
  | control h => exact .control (control_append h hbare)
  | placeholder => exact .placeholder
  | mark h => exact .mark h
  | code h => exact .code (percentCode_append h rest')
  | number h => exact .number (number_append h hend)

/-- In front of any rest something protected is read. -/
theorem ReadAs.still (hlaw : alphabet.Lawful) {token rest : List Char}
    (h : ReadAs alphabet token rest) (rest' : List Char) :
    ∃ token', nextPiece alphabet (token ++ rest') = .ok ⟨false, token'⟩ := by
  cases h with
  | @control c value rest h =>
    have hsome : (protectedToken alphabet ('\\' :: c :: (value ++ rest'))).isSome = true := by
      rw [protectedToken_control] at h ⊢
      split at h
      · next read hread =>
        cases h
        split at hread
        · next hvalue =>
          rw [if_pos hvalue, throughSemicolon_append hread]
          rfl
        · cases hread
      · split at h
        · next hstands =>
          rw [if_pos hstands]
          split <;> rfl
        · cases h
    obtain ⟨token', htoken⟩ := Option.isSome_iff_exists.mp hsome
    exact ⟨token', nextPiece_control htoken⟩
  | @number token rest h =>
    have hsome : ∃ token', TextPlan.number alphabet (token ++ rest') = some token' := by
      obtain ⟨-, hne⟩ := number_front h
      obtain ⟨c, token, rfl⟩ := List.exists_cons_of_ne_nil hne
      obtain ⟨c', text, heq, hc⟩ := number_eq_some.mp h
      obtain ⟨rfl, rfl⟩ := List.cons.inj heq
      rcases hc with ⟨hdecimal, -⟩ | ⟨hdecimal, hsign, hhead, htoken⟩
      · exact ⟨_, number_eq_some.mpr ⟨c, token ++ rest', rfl, .inl ⟨hdecimal, rfl⟩⟩⟩
      · refine ⟨_, number_eq_some.mpr ⟨c, token ++ rest', rfl, .inr ⟨hdecimal, hsign, ?_, rfl⟩⟩⟩
        obtain ⟨d, token, rfl⟩ := List.exists_cons_of_ne_nil
          (digits_ne_nil hhead (List.cons.inj htoken).2.symm)
        exact hhead
    obtain ⟨token', htoken⟩ := hsome
    exact ⟨token', nextPiece_number hlaw htoken⟩
  | field h => exact ⟨_, nextPiece_of_readAs hlaw (.field (closeField_append h rest'))⟩
  | escape h hcode =>
    exact ⟨_, nextPiece_of_readAs hlaw (.escape (unicodeEscape_append h rest') hcode)⟩
  | placeholder => exact ⟨_, nextPiece_of_readAs hlaw .placeholder⟩
  | mark h => exact ⟨_, nextPiece_of_readAs hlaw (.mark h)⟩
  | code h => exact ⟨_, nextPiece_of_readAs hlaw (.code (percentCode_append h rest'))⟩

/-- How protected tokens begin. -/
theorem ReadAs.begins {c : Char} {token rest : List Char}
    (h : ReadAs alphabet (c :: token) rest) :
    c = '\\' ∨ (c = '%' ∧ ∃ d more, token = d :: more ∧ (d = '<' ∨ d = '%')) ∨ c = '<' ∨
      (isBreak c || isSymbol c) = true ∨
      (isDecimal alphabet c = true ∧ takeNumber alphabet (c :: token ++ rest) = c :: token) ∨
      (isSign c = true ∧ token ≠ []) := by
  cases h with
  | field h => exact .inr (.inl ⟨rfl, _, _, rfl, .inl rfl⟩)
  | escape h =>
    obtain ⟨-, -, hhead⟩ := unicodeEscape_front h
    exact .inl (Option.some.inj hhead)
  | control => exact .inl rfl
  | placeholder => exact .inr (.inr (.inl rfl))
  | mark h => exact .inr (.inr (.inr (.inl h)))
  | code h =>
    rcases percentCode_eq_some.mp h with ⟨_, _, _, htoken, -⟩ | ⟨_, _, _, _, _, _, htoken, -⟩
    all_goals
      obtain ⟨rfl, rfl⟩ := List.cons.inj htoken
      exact .inr (.inl ⟨rfl, _, _, rfl, .inr rfl⟩)
  | number h =>
    obtain ⟨c', text, heq, hc⟩ := number_eq_some.mp h
    obtain ⟨rfl, rfl⟩ := List.cons.inj heq
    rcases hc with ⟨hdecimal, htoken⟩ | ⟨-, hsign, hhead, htoken⟩
    · exact .inr (.inr (.inr (.inr (.inl ⟨hdecimal, htoken.symm⟩))))
    · exact .inr (.inr (.inr (.inr (.inr
        ⟨hsign, digits_ne_nil hhead (List.cons.inj htoken).2.symm⟩))))

/-- What begins with a digit is a number. -/
theorem ReadAs.number_of_decimal (hlaw : alphabet.Lawful) {c : Char} {token rest : List Char}
    (h : ReadAs alphabet (c :: token) rest) (hc : isDecimal alphabet c = true) :
    takeNumber alphabet (c :: token ++ rest) = c :: token := by
  rcases h.begins with rfl | ⟨rfl, -⟩ | rfl | hmark | ⟨-, hnumber⟩ | ⟨hsign, -⟩
  · exact absurd rfl (ne_of_isDecimal hlaw hc (by decide))
  · exact absurd rfl (ne_of_isDecimal hlaw hc (by decide))
  · exact absurd rfl (ne_of_isDecimal hlaw hc (by decide))
  · rw [isDecimal_break hlaw hmark] at hc
    cases hc
  · exact hnumber
  · rw [isDecimal_sign hlaw hsign] at hc
    cases hc

/-- What begins with a percent sign is a field or a code. -/
theorem ReadAs.percent (hlaw : alphabet.Lawful) {token rest : List Char}
    (h : ReadAs alphabet ('%' :: token) rest) :
    ∃ d more, token = d :: more ∧ (d = '<' ∨ d = '%') := by
  rcases h.begins with hc | ⟨-, hsecond⟩ | hc | hmark | ⟨hdecimal, -⟩ | ⟨hsign, -⟩
  · exact absurd hc (by decide)
  · exact hsecond
  · exact absurd hc (by decide)
  · exact absurd hmark (by decide)
  · exact absurd rfl (ne_of_isDecimal hlaw hdecimal (by decide))
  · exact absurd hsign (by decide)

/-- Nothing protected begins with the mark that closes a placeholder. -/
theorem ReadAs.head_ne (hlaw : alphabet.Lawful) {c : Char} {token rest : List Char}
    (h : ReadAs alphabet (c :: token) rest) : c ≠ '>' := by
  rintro rfl
  rcases h.begins with hc | ⟨hc, -⟩ | hc | hmark | ⟨hdecimal, -⟩ | ⟨hsign, -⟩
  · exact absurd hc (by decide)
  · exact absurd hc (by decide)
  · exact absurd hc (by decide)
  · exact absurd hmark (by decide)
  · exact ne_of_isDecimal hlaw hdecimal (by decide) rfl
  · exact absurd hsign (by decide)

end Tokens

end CadPlot.TextPlan
