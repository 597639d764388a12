import CadPlot.TextPlan.Tokens

/-!
# Literal texts in front of another text

What stands behind a literal text matters to it by its first character, by the
digits of a percent code, and by a percent sign.
-/

namespace CadPlot.TextPlan

section Literals

variable {alphabet : Alphabet}

/-- No token begins with a character in front of a text. -/
theorem plain_cons_iff {c : Char} {text : List Char} : Plain alphabet (c :: text) ↔
    c ≠ '\\' ∧ (isBreak c || isSymbol c) = false ∧ isDecimal alphabet c = false ∧
      (c = '%' → text.head? ≠ some '<') ∧ (c = '<' → text.head? ≠ some '>') ∧
      (isSign c = true → text.head?.any (isDecimal alphabet) = false) ∧
      percentCode alphabet (c :: text) = none := by
  constructor
  · intro h
    have hslash : c ≠ '\\' := fun hc => h.control (by rw [hc]; rfl)
    have hplaceholder : ¬(c = '<' ∧ text.head? = some '>') := by
      rintro ⟨rfl, hhead⟩
      obtain ⟨rest, rfl⟩ := List.head?_eq_some_iff.mp hhead
      cases h.token
    have htoken := h.token
    rw [protectedToken_other hslash hplaceholder] at htoken
    split at htoken
    · cases htoken
    · next hmark =>
      obtain ⟨hcode, hnumber⟩ := Option.or_eq_none_iff.mp htoken
      rw [number] at hnumber
      split at hnumber
      · cases hnumber
      · next hdecimal =>
        split at hnumber
        · cases hnumber
        · next hsign =>
          refine ⟨hslash, by simpa using hmark, by simpa using hdecimal, ?_, fun hc hhead =>
            hplaceholder ⟨hc, hhead⟩, fun hc => ?_, hcode⟩
          · rintro rfl hhead
            obtain ⟨rest, rfl⟩ := List.head?_eq_some_iff.mp hhead
            exact h.field rfl
          · rw [hc, Bool.true_and] at hsign
            exact Bool.eq_false_iff.mpr hsign
  · rintro ⟨hslash, hmark, hdecimal, hfield, hplaceholder, hsign, hcode⟩
    refine ⟨?_, fun hhead => hslash (Option.some.inj hhead), ?_⟩
    · cases text with
      | nil => simp
      | cons d text =>
        intro htake
        obtain ⟨hc, hone⟩ := List.cons.inj htake
        exact hfield hc (congrArg some (List.cons.inj hone).1)
    · rw [protectedToken_other hslash fun h => hplaceholder h.1 h.2, hmark, hcode, number, hdecimal]
      simp only [Bool.false_eq_true, if_false]
      rw [if_neg]
      · rfl
      · rw [Bool.and_eq_true]
        rintro ⟨hc, hhead⟩
        rw [hsign hc] at hhead
        cases hhead

/-- The first token of a literal text is an escape or a plain character. -/
theorem Literal.cases_cons {c : Char} {run after : List Char}
    (h : Literal alphabet (c :: run) after) :
    (c = '\\' ∧ ∃ token run' code, c :: run = token ++ run' ∧
        unicodeEscape (token ++ (run' ++ after)) = some (token, code) ∧
        nextPiece alphabet (token ++ (run' ++ after)) = .ok ⟨true, token⟩ ∧
        Literal alphabet run' after) ∨
      Plain alphabet (c :: (run ++ after)) ∧ Literal alphabet run after := by
  generalize htext : c :: run = text at h
  cases h with
  | nil => cases htext
  | @cons token run' after h hne hrun =>
    obtain ⟨-, -, hliteral⟩ := nextPiece_ok (by simp [hne]) h
    rcases hliteral rfl with ⟨code, hescape⟩ | ⟨hplain, htake⟩
    · rw [List.append_assoc] at h hescape
      obtain ⟨-, -, hhead⟩ := unicodeEscape_front hescape
      refine .inl ⟨?_, token, run', code, rfl, hescape, h, hrun⟩
      obtain ⟨d, token, rfl⟩ := List.exists_cons_of_ne_nil hne
      rw [(List.cons.inj htext).1]
      exact Option.some.inj hhead
    · obtain ⟨d, token, rfl⟩ := List.exists_cons_of_ne_nil hne
      obtain rfl : token = [] := by simpa using htake
      obtain ⟨rfl, rfl⟩ := List.cons.inj htext
      exact .inr ⟨hplain, hrun⟩

theorem Literal.cons_plain {c : Char} {run after : List Char}
    (h : Plain alphabet (c :: (run ++ after))) (hrun : Literal alphabet run after) :
    Literal alphabet (c :: run) after :=
  @Literal.cons alphabet [c] run after h.nextPiece (List.cons_ne_nil c []) hrun

theorem Literal.plain_of_ne {c : Char} {run after : List Char}
    (h : Literal alphabet (c :: run) after) (hc : c ≠ '\\') :
    Plain alphabet (c :: (run ++ after)) ∧ Literal alphabet run after := by
  rcases h.cases_cons with ⟨hslash, -⟩ | h
  · exact absurd hslash hc
  · exact h

/-- A literal text begins with a literal token. -/
theorem Literal.begins {run after : List Char} (h : Literal alphabet run after) (hne : run ≠ []) :
    ∃ token, nextPiece alphabet (run ++ after) = .ok ⟨true, token⟩ := by
  cases h with
  | nil => exact absurd rfl hne
  | cons h => exact ⟨_, h⟩

/-- A text that ends in a sign. -/
def endsInSign (text : List Char) : Bool := text.getLast?.any isSign

/-- A text that begins with a digit. -/
def beginsWithDecimal (alphabet : Alphabet) (text : List Char) : Bool :=
  text.head?.any (isDecimal alphabet)

theorem endsInSign_append {text rest : List Char} (h : rest ≠ []) :
    endsInSign (text ++ rest) = endsInSign rest := by
  rw [endsInSign, endsInSign, List.getLast?_append_of_ne_nil text h]

theorem endsInSign_escape {text escape : List Char} {code : Nat}
    (h : unicodeEscape text = some (escape, code)) : endsInSign escape = false := by
  unfold unicodeEscape at h
  split at h
  · split at h
    · next hhex =>
      cases h
      rw [Bool.and_eq_true] at hhex
      refine Bool.eq_false_iff.mpr fun hsign => ?_
      simp only [endsInSign, List.getLast?_cons_cons, List.getLast?_singleton, Option.any_some,
        isSign, Bool.or_eq_true, decide_eq_true_iff] at hsign
      rcases hsign with rfl | rfl <;> exact absurd hhex.2 (by decide)
    · cases h
  · cases h

/-- A literal text does not end in a sign in front of a digit. -/
theorem Literal.apart {run after : List Char} (h : Literal alphabet run after)
    (hsign : endsInSign run = true) : beginsWithDecimal alphabet after = false := by
  induction h with
  | nil => cases hsign
  | @cons token run after h hne hrun ih =>
    by_cases hrest : run = []
    · subst hrest
      rw [List.append_nil] at h hsign
      obtain ⟨-, -, hliteral⟩ := nextPiece_ok (by simp [hne]) h
      rcases hliteral rfl with ⟨code, hescape⟩ | ⟨hplain, htake⟩
      · rw [endsInSign_escape hescape] at hsign
        cases hsign
      · obtain ⟨c, token, rfl⟩ := List.exists_cons_of_ne_nil hne
        obtain rfl : token = [] := by simpa using htake
        exact (plain_cons_iff.mp hplain).2.2.2.2.2.1 hsign
    · rw [endsInSign_append hrest] at hsign
      exact ih hsign

/-- Rests that a literal text in front of them cannot tell apart. -/
structure Alike (alphabet : Alphabet) (rest rest' : List Char) : Prop where
  head : rest'.head? = rest.head?
  percent : ∀ c later, rest' = '%' :: c :: later → c = '<' ∨ c = '%'
  digits : ∀ c d e later, rest' = c :: d :: e :: later →
    (isDecimal alphabet c && isDecimal alphabet d && isDecimal alphabet e) = true →
      ∃ later', rest = c :: d :: e :: later'

theorem Alike.head_append {rest rest' : List Char} (h : Alike alphabet rest rest')
    (run : List Char) : (run ++ rest').head? = (run ++ rest).head? := by
  cases run with
  | nil => exact h.head
  | cons c run => rfl

/-- What stands behind `%%` in a percent code: a letter, or three digits. -/
def CodeTail (alphabet : Alphabet) (x : Char) (later : List Char) : Prop :=
  x.isAlpha = true ∨ x.isAlpha = false ∧ ∃ y z more, later = y :: z :: more ∧
    (isDecimal alphabet x && isDecimal alphabet y && isDecimal alphabet z) = true

theorem percentCode_isSome_iff {c : Char} {text : List Char} :
    (percentCode alphabet (c :: text)).isSome = true ↔
      c = '%' ∧ ∃ x later, text = '%' :: x :: later ∧ CodeTail alphabet x later := by
  rw [Option.isSome_iff_exists]
  constructor
  · rintro ⟨token, htoken⟩
    rcases percentCode_eq_some.mp htoken with
      ⟨x, later, hx, rfl, heq⟩ | ⟨x, y, z, later, hx, hdigits, rfl, heq⟩
    · obtain ⟨hc, hrest⟩ := List.cons.inj heq
      exact ⟨hc, x, later, hrest, .inl hx⟩
    · obtain ⟨hc, hrest⟩ := List.cons.inj heq
      exact ⟨hc, x, y :: z :: later, hrest, .inr ⟨hx, y, z, later, rfl, hdigits⟩⟩
  · rintro ⟨rfl, x, later, rfl, hx | ⟨hx, y, z, more, rfl, hdigits⟩⟩
    · exact ⟨_, percentCode_eq_some.mpr (.inl ⟨x, later, hx, rfl, rfl⟩)⟩
    · exact ⟨_, percentCode_eq_some.mpr (.inr ⟨x, y, z, more, hx, hdigits, rfl, rfl⟩)⟩

/-- Neither mark behind a percent sign goes on with a code. -/
theorem CodeTail.ne_mark (hlaw : alphabet.Lawful) {x : Char} {later : List Char}
    (h : CodeTail alphabet x later) : x ≠ '<' ∧ x ≠ '%' := by
  rcases h with hx | ⟨-, y, z, more, -, hdigits⟩
  · constructor <;> rintro rfl <;> cases hx
  · rw [Bool.and_eq_true, Bool.and_eq_true] at hdigits
    exact ⟨ne_of_isDecimal hlaw hdigits.1.1 (by decide),
      ne_of_isDecimal hlaw hdigits.1.1 (by decide)⟩

/-- A percent code that begins in a literal text begins there in front of both rests. -/
theorem Alike.percentCode_none (hlaw : alphabet.Lawful) {rest rest' : List Char}
    (h : Alike alphabet rest rest') {c : Char} {run : List Char}
    (hrun : Literal alphabet run rest)
    (hnone : percentCode alphabet (c :: (run ++ rest)) = none) :
    percentCode alphabet (c :: (run ++ rest')) = none := by
  rw [← Option.not_isSome_iff_eq_none, percentCode_isSome_iff] at hnone ⊢
  rintro ⟨rfl, x, later, heq, htail⟩
  apply hnone
  refine ⟨rfl, ?_⟩
  match run, hrun with
  | [], _ =>
    -- The code would begin with the character in front of the rest.
    rcases h.percent x later heq with rfl | rfl
    · exact absurd rfl (htail.ne_mark hlaw).1
    · exact absurd rfl (htail.ne_mark hlaw).2
  | [d], _ =>
    obtain ⟨rfl, hbehind⟩ := List.cons.inj heq
    have hrest : rest' = x :: later := hbehind
    have hhead := h.head
    rw [hrest] at hhead
    obtain ⟨behind, hrest'⟩ := List.head?_eq_some_iff.mp hhead.symm
    rcases htail with hx | ⟨hx, y, z, more, rfl, hdigits⟩
    · exact ⟨x, behind, congrArg (List.cons '%') hrest', .inl hx⟩
    · obtain ⟨back, hback⟩ := h.digits x y z more hrest hdigits
      exact ⟨x, y :: z :: back, congrArg (List.cons '%') hback,
        .inr ⟨hx, y, z, back, rfl, hdigits⟩⟩
  | d :: x' :: run, hrun =>
    obtain ⟨rfl, hbehind⟩ := List.cons.inj heq
    obtain ⟨rfl, -⟩ := List.cons.inj hbehind
    rcases htail with hx | ⟨hx, y, z, more, -, hdigits⟩
    · exact ⟨x', run ++ rest, rfl, .inl hx⟩
    · have hdecimal : isDecimal alphabet x' = true := by
        rw [Bool.and_eq_true, Bool.and_eq_true] at hdigits
        exact hdigits.1.1
      have hplain := (hrun.plain_of_ne (by decide)).2.plain_of_ne
        (ne_of_isDecimal hlaw hdecimal (by decide))
      rw [(plain_cons_iff.mp hplain.1).2.2.1] at hdecimal
      cases hdecimal

/-- A literal text stays one in front of a rest that is alike. -/
theorem Literal.alike (hlaw : alphabet.Lawful) {run rest rest' : List Char}
    (h : Literal alphabet run rest) (halike : Alike alphabet rest rest') :
    Literal alphabet run rest' := by
  induction h with
  | nil => exact .nil
  | @cons token run after h hne hrun ih =>
    obtain ⟨-, -, hliteral⟩ := nextPiece_ok (by simp [hne]) h
    rcases hliteral rfl with ⟨code, hescape⟩ | ⟨hplain, htake⟩
    · rw [nextPiece_escape hescape] at h
      rw [List.append_assoc] at hescape
      refine .cons ?_ hne (ih halike)
      rw [List.append_assoc, nextPiece_escape (unicodeEscape_append hescape _)]
      exact h
    · obtain ⟨c, token, rfl⟩ := List.exists_cons_of_ne_nil hne
      obtain rfl : token = [] := by simpa using htake
      have hplain : Plain alphabet (c :: (run ++ after)) := hplain
      obtain ⟨hslash, hmark, hdecimal, hfield, hplaceholder, hsign, hcode⟩ :=
        plain_cons_iff.mp hplain
      refine .cons_plain (plain_cons_iff.mpr ⟨hslash, hmark, hdecimal, ?_, ?_, ?_, ?_⟩)
        (ih halike)
      · rwa [halike.head_append]
      · rwa [halike.head_append]
      · rwa [halike.head_append]
      · exact halike.percentCode_none hlaw hrun hcode

/-- Rests that begin with the same protected token are alike. -/
theorem ReadAs.alike (hlaw : alphabet.Lawful) {token rest rest' : List Char} (hne : token ≠ [])
    (h : ReadAs alphabet token rest)
    (hend : takeNumber alphabet rest = [] → takeNumber alphabet rest' = []) :
    Alike alphabet (token ++ rest) (token ++ rest') := by
  obtain ⟨c, token, rfl⟩ := List.exists_cons_of_ne_nil hne
  refine ⟨rfl, fun d later heq => ?_, fun x y z later heq hdigits => ?_⟩
  · obtain ⟨rfl, htail⟩ := List.cons.inj heq
    obtain ⟨d', more, rfl, hd⟩ := h.percent hlaw
    obtain ⟨rfl, -⟩ := List.cons.inj htail
    exact hd
  · rw [Bool.and_eq_true, Bool.and_eq_true] at hdigits
    obtain ⟨⟨hx, hy⟩, hz⟩ := hdigits
    obtain ⟨rfl, htail⟩ := List.cons.inj heq
    have hstop := hend (takeNumber_rest (h.number_of_decimal hlaw hx))
    have hhead : ∀ d more, rest' = d :: more → isDecimal alphabet d = true → False := by
      rintro d more rfl hd
      exact takeNumber_ne_nil hd hstop
    match token with
    | [] => exact (hhead y _ htail hy).elim
    | [y'] => exact (hhead z _ (List.cons.inj htail).2 hz).elim
    | y' :: z' :: token =>
      obtain ⟨rfl, hmore⟩ := List.cons.inj htail
      obtain ⟨rfl, -⟩ := List.cons.inj hmore
      exact ⟨token ++ rest, rfl⟩

/-- Where a text that begins like another one begins no number, the other one begins none. -/
theorem takeNumber_alike {c : Char} {text text' : List Char}
    (h : takeNumber alphabet (c :: text) = [])
    (hhead : isSeparator c = true → text'.head? = text.head?) :
    takeNumber alphabet (c :: text') = [] := by
  rw [takeNumber_eq_nil] at h ⊢
  exact ⟨h.1, fun hc => by rw [hhead hc]; exact h.2 hc⟩

/-- A protected token of one character is not a separator. -/
theorem ReadAs.takeNumber_nil {token rest : List Char} (hne : token ≠ [])
    (h : ReadAs alphabet token rest) (rest' : List Char)
    (hnil : takeNumber alphabet (token ++ rest) = []) :
    takeNumber alphabet (token ++ rest') = [] := by
  obtain ⟨c, token, rfl⟩ := List.exists_cons_of_ne_nil hne
  refine takeNumber_alike hnil fun hc => ?_
  cases token with
  | cons d token => rfl
  | nil =>
    rcases h.begins with rfl | ⟨-, _, _, hcons, -⟩ | rfl | hmark | ⟨hdecimal, -⟩ | ⟨-, hcons⟩
    · cases hc
    · cases hcons
    · cases hc
    · have hall : ∀ c ∈ ".,/:-".toList, (isBreak c || isSymbol c) = false :=
        Text.forall_mem_of_all (by decide)
      rw [hall c (List.contains_iff_mem.mp hc)] at hmark
      cases hmark
    · exact absurd hnil (takeNumber_ne_nil hdecimal)
    · exact absurd rfl hcons

end Literals

end CadPlot.TextPlan
