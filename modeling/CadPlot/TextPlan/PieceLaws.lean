import Mathlib.Data.List.Chain
import CadPlot.TextPlan.Pieces

/-!
# The partition of a drawing text

`parts` consumes at least one character in each round and loses none. What it
joins to a literal piece was literal where it stood, in front of everything that
followed; so no protected token begins in a literal piece outside its escapes.
-/

namespace CadPlot.TextPlan

section Tokens

variable {alphabet : Alphabet}

theorem unicodeEscape_front {text escape : List Char} {code : Nat}
    (h : unicodeEscape text = some (escape, code)) :
    escape <+: text ∧ escape.length = 7 ∧ escape.head? = some '\\' := by
  unfold unicodeEscape at h
  split at h
  · split at h
    · cases h
      exact ⟨⟨_, rfl⟩, rfl, rfl⟩
    · cases h
  · cases h

/-- An escape is read from its seven characters. -/
theorem unicodeEscape_append {escape rest : List Char} {code : Nat}
    (h : unicodeEscape (escape ++ rest) = some (escape, code)) (rest' : List Char) :
    unicodeEscape (escape ++ rest') = some (escape, code) := by
  obtain ⟨-, hlength, -⟩ := unicodeEscape_front h
  match escape, hlength with
  | [a, b, c, d, e, f, g], _ =>
    simp only [List.cons_append, List.nil_append] at h ⊢
    unfold unicodeEscape at h ⊢
    split at h
    · next heq =>
      obtain ⟨rfl, rfl, rfl, rfl, rfl, rfl, rfl, rfl⟩ := by simpa using heq
      split at h
      · next hhex =>
        exact (if_pos hhex).trans h
      · cases h
    · cases h

theorem closeField_front {depth : Nat} {text field : List Char}
    (h : closeField depth text = some field) : field <+: text := by
  induction depth, text using closeField.induct generalizing field with
  | case1 text =>
    rw [closeField] at h
    cases h
    exact List.nil_prefix
  | case2 depth => cases h
  | case3 depth text ih =>
    obtain ⟨field, hfield, rfl⟩ := Option.map_eq_some_iff.mp h
    exact (List.prefix_append_right_inj ['%', '<']).mpr (ih hfield)
  | case4 depth text ih =>
    obtain ⟨field, hfield, rfl⟩ := Option.map_eq_some_iff.mp h
    exact (List.prefix_append_right_inj ['>', '%']).mpr (ih hfield)
  | case5 depth c text hopen hclose ih =>
    rw [closeField.eq_5 _ _ _ hopen hclose] at h
    obtain ⟨field, hfield, rfl⟩ := Option.map_eq_some_iff.mp h
    exact (List.prefix_append_right_inj [c]).mpr (ih hfield)

theorem throughSemicolon_front {text value : List Char}
    (h : throughSemicolon text = some value) : value <+: text := by
  induction text generalizing value with
  | nil => cases h
  | cons c text ih =>
    rw [throughSemicolon] at h
    split at h
    · next hc =>
      cases h
      rw [hc]
      exact ⟨text, rfl⟩
    · obtain ⟨value, hvalue, rfl⟩ := Option.map_eq_some_iff.mp h
      exact (List.prefix_append_right_inj [c]).mpr (ih hvalue)

theorem takeNumber_front (text : List Char) : takeNumber alphabet text <+: text := by
  induction text using takeNumber.induct alphabet with
  | case1 => exact List.nil_prefix
  | case2 c hc =>
    exact ⟨[], by rw [List.append_nil, takeNumber, if_pos hc]⟩
  | case3 c hc =>
    rw [takeNumber, if_neg hc]
    exact List.nil_prefix
  | case4 c d text hc ih =>
    rw [takeNumber, if_pos hc]
    exact (List.prefix_append_right_inj [c]).mpr ih
  | case5 c d text hc =>
    rw [takeNumber, if_neg hc]
    exact List.nil_prefix

theorem takeNumber_ne_nil {c : Char} {text : List Char} (hc : isDecimal alphabet c = true) :
    takeNumber alphabet (c :: text) ≠ [] := by
  cases text <;> simp [takeNumber, hc]

theorem percentCode_front {text token : List Char}
    (h : percentCode alphabet text = some token) : token <+: text ∧ token ≠ [] := by
  unfold percentCode at h
  split at h
  · split at h
    · cases h
      exact ⟨⟨_, rfl⟩, List.cons_ne_nil _ _⟩
    · split at h
      · split at h
        · cases h
          exact ⟨⟨_, rfl⟩, List.cons_ne_nil _ _⟩
        · cases h
      · cases h
  · cases h

theorem number_front {text token : List Char}
    (h : number alphabet text = some token) : token <+: text ∧ token ≠ [] := by
  cases text with
  | nil => cases h
  | cons c text =>
    rw [number] at h
    split at h
    · next hc =>
      cases h
      exact ⟨takeNumber_front _, takeNumber_ne_nil hc⟩
    · split at h
      · cases h
        exact ⟨(List.prefix_append_right_inj [c]).mpr (takeNumber_front text),
          List.cons_ne_nil _ _⟩
      · cases h

theorem protectedToken_front {text token : List Char}
    (h : protectedToken alphabet text = some token) : token <+: text ∧ token ≠ [] := by
  unfold protectedToken at h
  split at h
  · cases h
  · split at h
    · cases h
    · next c rest =>
      split at h
      · next value hvalue =>
        cases h
        split at hvalue
        · exact ⟨(List.prefix_append_right_inj ['\\', c]).mpr (throughSemicolon_front hvalue),
            List.cons_ne_nil _ _⟩
        · cases hvalue
      · split at h
        · cases h
          exact ⟨⟨rest, rfl⟩, List.cons_ne_nil _ _⟩
        · cases h
  · cases h
    exact ⟨⟨_, rfl⟩, List.cons_ne_nil _ _⟩
  · split at h
    · cases h
      exact ⟨⟨_, rfl⟩, List.cons_ne_nil _ _⟩
    · rcases Option.or_eq_some_iff.mp h with hcode | ⟨-, hnumber⟩
      · exact percentCode_front hcode
      · exact number_front hnumber

/-- No token of any kind begins here. -/
structure Plain (alphabet : Alphabet) (text : List Char) : Prop where
  field : text.take 2 ≠ ['%', '<']
  control : text.head? ≠ some '\\'
  token : protectedToken alphabet text = none

/-- A piece is the front of the text; a literal one is an escape or a plain character. -/
theorem nextPiece_ok {text : List Char} {piece : Piece} (hne : text ≠ [])
    (h : nextPiece alphabet text = .ok piece) :
    piece.raw <+: text ∧ piece.raw ≠ [] ∧ (piece.editable = true →
      (∃ code, unicodeEscape text = some (piece.raw, code)) ∨
        Plain alphabet text ∧ piece.raw = text.take 1) := by
  rw [nextPiece] at h
  split at h
  case isTrue hfield =>
    split at h
    · cases h
    · next field hclose =>
      cases h
      refine ⟨?_, List.cons_ne_nil _ _, fun heditable => absurd heditable Bool.false_ne_true⟩
      have hfront := (List.prefix_append_right_inj ['%', '<']).mpr (closeField_front hclose)
      have hsplit : ['%', '<'] ++ text.drop 2 = text := by rw [← hfield, List.take_append_drop]
      rwa [hsplit] at hfront
  case isFalse hfield =>
    split at h
    · next escape code hescape =>
      cases h
      obtain ⟨hfront, hlength, -⟩ := unicodeEscape_front hescape
      refine ⟨hfront, ?_, fun _ => .inl ⟨code, hescape⟩⟩
      exact List.ne_nil_of_length_eq_add_one hlength
    · split at h
      · next token htoken =>
        cases h
        exact ⟨(protectedToken_front htoken).1, (protectedToken_front htoken).2,
          fun heditable => absurd heditable Bool.false_ne_true⟩
      · next htoken =>
        split at h
        · cases h
        · next hcontrol =>
          cases h
          refine ⟨List.take_prefix 1 text, ?_, fun _ => .inr ⟨⟨hfield, hcontrol, htoken⟩, rfl⟩⟩
          rw [Ne, List.take_eq_nil_iff]
          exact fun hnil => hnil.elim (fun hone => absurd hone Nat.one_ne_zero) hne

theorem nextPiece_escape {text escape : List Char} {code : Nat}
    (h : unicodeEscape text = some (escape, code)) :
    nextPiece alphabet text = .ok ⟨!isProtectedCode alphabet code, escape⟩ := by
  obtain ⟨⟨rest, rfl⟩, hlength, hhead⟩ := unicodeEscape_front h
  have hfield : (escape ++ rest).take 2 ≠ ['%', '<'] := by
    intro hfield
    cases escape with
    | nil => cases hlength
    | cons c escape =>
      cases hhead
      cases (List.cons.inj hfield).1
  rw [nextPiece, if_neg hfield, h]

theorem Plain.nextPiece {c : Char} {text : List Char} (h : Plain alphabet (c :: text)) :
    nextPiece alphabet (c :: text) = .ok ⟨true, [c]⟩ := by
  have hescape : unicodeEscape (c :: text) = none := by
    rw [Option.eq_none_iff_forall_ne_some]
    rintro ⟨escape, code⟩ hescape
    obtain ⟨⟨rest, heq⟩, hlength, hhead⟩ := unicodeEscape_front hescape
    cases escape with
    | nil => cases hlength
    | cons d escape =>
      cases hhead
      exact h.control (by rw [← heq]; rfl)
  rw [TextPlan.nextPiece, if_neg h.field, hescape, h.token]
  dsimp only
  rw [if_neg h.control]
  rfl

end Tokens

section Runs

variable {alphabet : Alphabet}

/-- A text that is split into literal tokens in front of what follows it. -/
inductive Literal (alphabet : Alphabet) : List Char → List Char → Prop
  | nil {after} : Literal alphabet [] after
  | cons {token run after} (h : nextPiece alphabet (token ++ run ++ after) = .ok ⟨true, token⟩)
      (hne : token ≠ []) (hrun : Literal alphabet run after) :
      Literal alphabet (token ++ run) after

theorem Literal.append {run piece after : List Char} (h : Literal alphabet run (piece ++ after))
    (hpiece : Literal alphabet piece after) : Literal alphabet (run ++ piece) after := by
  generalize hrest : piece ++ after = rest at h
  induction h with
  | nil => exact hpiece
  | cons h hne _ ih =>
    subst hrest
    rw [List.append_assoc]
    refine .cons ?_ hne (ih rfl)
    rw [← h]
    simp only [List.append_assoc]

/-- A piece that is made of the text where it stands. -/
def Stands (alphabet : Alphabet) (piece : Piece) (rest : List Char) : Prop :=
  if piece.editable then Literal alphabet piece.raw rest
  else nextPiece alphabet (piece.raw ++ rest) = .ok piece

theorem stands_of_nextPiece {rest : List Char} {piece : Piece}
    (h : nextPiece alphabet (piece.raw ++ rest) = .ok piece) (hne : piece.raw ≠ []) :
    Stands alphabet piece rest := by
  obtain ⟨editable, raw⟩ := piece
  cases editable with
  | false => exact h
  | true =>
    have hrun := @Literal.cons alphabet raw [] rest (by simpa using h) hne .nil
    simpa [Stands] using hrun

/-- Each piece stands in front of the pieces behind it and the rest of the text. -/
def AllStand (alphabet : Alphabet) : List Piece → List Char → Prop
  | [], _ => True
  | piece :: pieces, rest =>
    Stands alphabet piece (pieces.flatMap Piece.raw ++ rest) ∧ AllStand alphabet pieces rest

theorem allStand_append {pieces : List Piece} {piece : Piece} {rest : List Char} :
    AllStand alphabet (pieces ++ [piece]) rest ↔
      AllStand alphabet pieces (piece.raw ++ rest) ∧ Stands alphabet piece rest := by
  induction pieces with
  | nil => simp [AllStand]
  | cons first pieces ih =>
    rw [List.cons_append, AllStand, AllStand, ih, and_assoc]
    simp

theorem AllStand.of_mem {pieces : List Piece} {piece : Piece} {rest : List Char}
    (h : AllStand alphabet pieces rest) (hmem : piece ∈ pieces) :
    ∃ after, Stands alphabet piece after := by
  induction pieces with
  | nil => cases hmem
  | cons first pieces ih =>
    rcases List.mem_cons.mp hmem with rfl | hmem
    · exact ⟨_, h.1⟩
    · exact ih h.2 hmem

/-- What the loop has made of the text in front of the cursor. -/
structure Cut (alphabet : Alphabet) (raw : List Char) (result : List Piece) (rest : List Char) :
    Prop where
  joined : result.flatMap Piece.raw ++ rest = raw
  nonempty : ∀ piece ∈ result, piece.raw ≠ []
  apart : result.IsChain fun left right => ¬(left.editable = true ∧ right.editable = true)
  stand : AllStand alphabet result rest

theorem addPiece_cases (result : List Piece) (piece : Piece) :
    (∃ front last, result = front ++ [last] ∧ last.editable = true ∧ piece.editable = true ∧
      addPiece result piece = front ++ [⟨true, last.raw ++ piece.raw⟩]) ∨
    ((∀ last ∈ result.getLast?, ¬(last.editable = true ∧ piece.editable = true)) ∧
      addPiece result piece = result ++ [piece]) := by
  rw [addPiece]
  cases hlast : result.getLast? with
  | none =>
    rw [List.getLast?_eq_none_iff] at hlast
    exact .inr ⟨fun last h => absurd h (Option.not_mem_none last), by rw [hlast]; rfl⟩
  | some last =>
    dsimp only
    by_cases hboth : last.editable = true ∧ piece.editable = true
    · obtain ⟨front, rfl⟩ := List.getLast?_eq_some_iff.mp hlast
      rw [if_pos (by simpa using hboth), List.dropLast_concat]
      exact .inl ⟨front, last, rfl, hboth.1, hboth.2, rfl⟩
    · rw [if_neg (by simpa using hboth)]
      refine .inr ⟨fun other hother => ?_, rfl⟩
      cases hother
      exact hboth

theorem Cut.addPiece {raw rest : List Char} {result : List Piece} {piece : Piece}
    (h : Cut alphabet raw result (piece.raw ++ rest)) (hne : piece.raw ≠ [])
    (hpiece : Stands alphabet piece rest) : Cut alphabet raw (addPiece result piece) rest := by
  rcases addPiece_cases result piece with
    ⟨front, last, rfl, hlast, heditable, hadd⟩ | ⟨hapart, hadd⟩
  · obtain ⟨hfront, hlastStands⟩ := allStand_append.mp h.stand
    rw [hadd]
    refine ⟨?_, fun other hother => ?_, ?_, ?_⟩
    · rw [← h.joined]
      simp
    · rcases List.mem_append.mp hother with hother | hother
      · exact h.nonempty other (List.mem_append_left _ hother)
      · rw [List.mem_singleton.mp hother]
        exact List.append_ne_nil_of_right_ne_nil _ hne
    · have hchain := List.isChain_append.mp h.apart
      refine List.isChain_append.mpr
        ⟨hchain.1, List.isChain_singleton _, fun left hleft right hright => ?_⟩
      cases hright
      have hno := hchain.2.2 left hleft last rfl
      rwa [hlast] at hno
    · rw [allStand_append]
      rw [Stands, if_pos hlast] at hlastStands
      rw [Stands, if_pos heditable] at hpiece
      refine ⟨by rwa [List.append_assoc], ?_⟩
      rw [Stands, if_pos rfl]
      exact hlastStands.append hpiece
  · rw [hadd]
    refine ⟨?_, fun other hother => ?_, ?_, allStand_append.mpr ⟨h.stand, hpiece⟩⟩
    · rw [← h.joined]
      simp
    · rcases List.mem_append.mp hother with hother | hother
      · exact h.nonempty other hother
      · rwa [List.mem_singleton.mp hother]
    · refine List.isChain_append.mpr
        ⟨h.apart, List.isChain_singleton _, fun left hleft right hright => ?_⟩
      cases hright
      exact hapart left hleft

end Runs

section Loop

variable (alphabet : Alphabet)

/-- The loop of `parts` in a number of rounds; with too few it does not end. -/
def partsWithin : Nat → List Char → List Piece → Option (Except String (List Piece))
  | _, [], result => some (.ok result)
  | 0, _ :: _, _ => none
  | rounds + 1, c :: text, result =>
    match nextPiece alphabet (c :: text) with
    | .error message => some (.error message)
    | .ok piece =>
      partsWithin rounds ((c :: text).drop piece.raw.length) (addPiece result piece)

variable {alphabet}

theorem partsFrom_drop (skip : Nat) (text : List Char) (result : List Piece) :
    partsFrom alphabet skip text result = partsFrom alphabet 0 (text.drop skip) result := by
  induction text generalizing skip with
  | nil => cases skip <;> rfl
  | cons c text ih =>
    cases skip with
    | zero => rfl
    | succ skip => exact ih skip

theorem partsFrom_cons (c : Char) (text : List Char) (result : List Piece) :
    partsFrom alphabet 0 (c :: text) result = (nextPiece alphabet (c :: text)).bind fun piece =>
      partsFrom alphabet 0 ((c :: text).drop piece.raw.length) (addPiece result piece) := by
  rw [partsFrom]
  cases hpiece : nextPiece alphabet (c :: text) with
  | error message => rfl
  | ok piece =>
    obtain ⟨-, hne, -⟩ := nextPiece_ok (List.cons_ne_nil c text) hpiece
    obtain ⟨n, hn⟩ := Nat.exists_eq_succ_of_ne_zero (mt List.eq_nil_of_length_eq_zero hne)
    change partsFrom alphabet (piece.raw.length - 1) text (addPiece result piece) =
      partsFrom alphabet 0 ((c :: text).drop piece.raw.length) (addPiece result piece)
    rw [partsFrom_drop, hn]
    rfl

/-- As many rounds as there are characters are enough. -/
theorem partsWithin_eq {rounds : Nat} {text : List Char} (h : text.length ≤ rounds)
    (result : List Piece) :
    partsWithin alphabet rounds text result = some (partsFrom alphabet 0 text result) := by
  induction rounds generalizing text result with
  | zero =>
    obtain rfl := List.eq_nil_of_length_eq_zero (Nat.le_zero.mp h)
    rfl
  | succ rounds ih =>
    cases text with
    | nil => rfl
    | cons c text =>
      rw [partsWithin, partsFrom_cons]
      cases hpiece : nextPiece alphabet (c :: text) with
      | error message => rfl
      | ok piece =>
        obtain ⟨-, hne, -⟩ := nextPiece_ok (List.cons_ne_nil c text) hpiece
        have hpos := List.length_pos_iff.mpr hne
        refine ih ?_ _
        rw [List.length_drop]
        omega

theorem cut_of_partsFrom {raw text : List Char} {result pieces : List Piece}
    (hcut : Cut alphabet raw result text) (h : partsFrom alphabet 0 text result = .ok pieces) :
    Cut alphabet raw pieces [] := by
  obtain ⟨n, hn⟩ : ∃ n, text.length ≤ n := ⟨_, le_rfl⟩
  induction n generalizing text result with
  | zero =>
    obtain rfl := List.eq_nil_of_length_eq_zero (Nat.le_zero.mp hn)
    cases h
    exact hcut
  | succ n ih =>
    cases text with
    | nil =>
      cases h
      exact hcut
    | cons c text =>
      rw [partsFrom_cons] at h
      obtain ⟨piece, hpiece, hrest⟩ := bind_eq_ok.1 h
      obtain ⟨hfront, hne, -⟩ := nextPiece_ok (List.cons_ne_nil c text) hpiece
      obtain ⟨rest, hrest'⟩ := hfront
      rw [← hrest', List.drop_left] at hrest
      rw [← hrest'] at hcut hpiece hn
      refine ih (hcut.addPiece hne (stands_of_nextPiece hpiece hne)) hrest ?_
      have hpos := List.length_pos_iff.mpr hne
      rw [List.length_append] at hn
      omega

theorem cut_of_parts {raw : String} {pieces : List Piece} (h : parts alphabet raw = .ok pieces) :
    Cut alphabet raw.toList pieces [] :=
  cut_of_partsFrom ⟨rfl, fun _ hpiece => absurd hpiece List.not_mem_nil, .nil, trivial⟩ h

theorem addPiece_append {result : List Piece} {piece : Piece}
    (h : ∀ last ∈ result.getLast?, ¬(last.editable = true ∧ piece.editable = true)) :
    addPiece result piece = result ++ [piece] := by
  rcases addPiece_cases result piece with ⟨front, last, rfl, hlast, heditable, -⟩ | ⟨-, hadd⟩
  · exact absurd ⟨hlast, heditable⟩ (h last (by simp))
  · exact hadd

theorem partsFrom_piece (piece : Piece) {rest : List Char} (result : List Piece)
    (h : nextPiece alphabet (piece.raw ++ rest) = .ok piece) (hne : piece.raw ≠ []) :
    partsFrom alphabet 0 (piece.raw ++ rest) result =
      partsFrom alphabet 0 rest (addPiece result piece) := by
  obtain ⟨c, raw, hraw⟩ := List.exists_cons_of_ne_nil hne
  rw [hraw, List.cons_append] at h ⊢
  rw [partsFrom_cons, h]
  change partsFrom alphabet 0 ((c :: (raw ++ rest)).drop piece.raw.length) _ = _
  rw [hraw, ← List.cons_append, List.drop_left]

/-- A literal text joins the literal piece in front of it. -/
theorem partsFrom_literal {run rest : List Char} (result : List Piece) (done : List Char)
    (h : Literal alphabet run rest) :
    partsFrom alphabet 0 (run ++ rest) (result ++ [⟨true, done⟩]) =
      partsFrom alphabet 0 rest (result ++ [⟨true, done ++ run⟩]) := by
  induction h generalizing done with
  | nil => rw [List.nil_append, List.append_nil]
  | @cons token run after h hne _ ih =>
    rw [List.append_assoc] at h ⊢
    have hadd : addPiece (result ++ [⟨true, done⟩]) ⟨true, token⟩ =
        result ++ [⟨true, done ++ token⟩] := by
      simp [addPiece]
    have hstep := partsFrom_piece ⟨true, token⟩ (result ++ [⟨true, done⟩]) h hne
    rw [hadd] at hstep
    rw [hstep, ih, List.append_assoc]

/-- Pieces that stand where they are, and are apart, are what the loop makes of their text. -/
theorem partsFrom_stand {pieces result : List Piece} (hne : ∀ piece ∈ pieces, piece.raw ≠ [])
    (hapart : (result ++ pieces).IsChain fun left right =>
      ¬(left.editable = true ∧ right.editable = true))
    (hstand : AllStand alphabet pieces []) :
    partsFrom alphabet 0 (pieces.flatMap Piece.raw) result = .ok (result ++ pieces) := by
  induction pieces generalizing result with
  | nil =>
    rw [List.append_nil]
    rfl
  | cons piece pieces ih =>
    obtain ⟨hhead, htail⟩ := hstand
    have hnext : partsFrom alphabet 0 (pieces.flatMap Piece.raw) (result ++ [piece]) =
        .ok (result ++ [piece] ++ pieces) :=
      ih (fun other hother => hne other (List.mem_cons_of_mem _ hother))
        (by rwa [List.append_assoc]) htail
    rw [List.append_assoc, List.singleton_append] at hnext
    have hlast : ∀ last ∈ result.getLast?, ¬(last.editable = true ∧ piece.editable = true) :=
      fun last hlast => (List.isChain_append.mp hapart).2.2 last hlast piece rfl
    rw [List.append_nil] at hhead
    rw [List.flatMap_cons, ← hnext]
    have hraw := hne piece List.mem_cons_self
    obtain ⟨editable, raw⟩ := piece
    cases editable with
    | false =>
      rw [Stands, if_neg Bool.false_ne_true] at hhead
      rw [partsFrom_piece _ result hhead hraw, addPiece_append hlast]
    | true =>
      rw [Stands, if_pos rfl] at hhead
      dsimp only at hhead hraw
      cases hhead with
      | nil => exact absurd rfl hraw
      | @cons token run _ h htoken hrun =>
        dsimp only
        rw [List.append_assoc] at h ⊢
        have hstep := partsFrom_piece ⟨true, token⟩ result h htoken
        have hadd : addPiece result ⟨true, token⟩ = result ++ [⟨true, token⟩] :=
          addPiece_append hlast
        rw [hadd] at hstep
        rw [hstep, partsFrom_literal result token hrun]

/-- A text is split into the pieces that stand in it. -/
theorem parts_eq_ok_iff {raw : String} {pieces : List Piece} :
    parts alphabet raw = .ok pieces ↔ Cut alphabet raw.toList pieces [] := by
  refine ⟨cut_of_parts, fun h => ?_⟩
  have hloop := @partsFrom_stand alphabet pieces [] h.nonempty h.apart h.stand
  rw [← List.append_nil (pieces.flatMap Piece.raw), h.joined] at hloop
  exact hloop

end Loop

section Rules

variable {alphabet : Alphabet}

/-- What the rules protect, as a whole. -/
inductive Recognised (alphabet : Alphabet) : List Char → Prop
  | field {text} (h : closeField 1 text = some text) : Recognised alphabet ('%' :: '<' :: text)
  | value {c text} (h : takesValue c = true) (htext : ∀ d ∈ text, d ≠ ';') :
      Recognised alphabet ('\\' :: c :: (text ++ [';']))
  | control {c} (h : standsAlone c = true) : Recognised alphabet ['\\', c]
  | mark {c} (h : isBreak c = true ∨ isSymbol c = true) : Recognised alphabet [c]
  | placeholder : Recognised alphabet ['<', '>']
  | percentLetter {c} (h : c.isAlpha = true) : Recognised alphabet ['%', '%', c]
  | percentDigits {c d e} (h : ∀ x ∈ [c, d, e], isDecimal alphabet x = true) :
      Recognised alphabet ['%', '%', c, d, e]
  | number {sign digits} {groups : List (Char × List Char)}
      (hsign : sign = [] ∨ ∃ c, isSign c = true ∧ sign = [c])
      (hdigits : digits ≠ [] ∧ ∀ d ∈ digits, isDecimal alphabet d = true)
      (hgroups : ∀ group ∈ groups, isSeparator group.1 = true ∧ group.2 ≠ [] ∧
        ∀ d ∈ group.2, isDecimal alphabet d = true) :
      Recognised alphabet
        (sign ++ digits ++ groups.flatMap fun group => group.1 :: group.2)

/-- Which characters belong to complete escapes, some characters of one of which are done. -/
def escapedFrom : Nat → List Char → List Bool
  | _, [] => []
  | skip + 1, _ :: text => true :: escapedFrom skip text
  | 0, c :: text =>
    match unicodeEscape (c :: text) with
    | some _ => true :: escapedFrom 6 text
    | none => false :: escapedFrom 0 text

/-- A part of a text, behind some characters, no character of which belongs to an escape. -/
def OutsideEscapes (text : List Char) (before length : Nat) : Prop :=
  ∀ escaped ∈ ((escapedFrom 0 text).drop before).take length, escaped = false

theorem protectedToken_none {c : Char} {text : List Char} (hc : c ≠ '\\')
    (h : protectedToken alphabet (c :: text) = none) :
    (isBreak c = false ∧ isSymbol c = false) ∧ percentCode alphabet (c :: text) = none ∧
      number alphabet (c :: text) = none := by
  unfold protectedToken at h
  split at h
  · next heq => cases heq
  · next heq =>
    cases heq
    exact absurd rfl hc
  · cases h
  · next heq =>
    cases heq
    split at h
    · cases h
    · next hmark =>
      rw [Option.or_eq_none_iff] at h
      exact ⟨by simpa using hmark, h⟩

theorem number_ne_none {c d : Char} {text : List Char} (hd : isDecimal alphabet d = true) :
    number alphabet (d :: text) ≠ none ∧
      (isSign c = true → number alphabet (c :: d :: text) ≠ none) := by
  constructor
  · rw [number, if_pos hd]
    exact Option.some_ne_none _
  · intro hc
    rw [number]
    split
    · exact Option.some_ne_none _
    · rw [if_pos (by simp [hc, hd])]
      exact Option.some_ne_none _

theorem Recognised.ne_nil {token : List Char} (h : Recognised alphabet token) : token ≠ [] := by
  cases h with
  | number _ hdigits =>
    exact List.append_ne_nil_of_left_ne_nil (List.append_ne_nil_of_right_ne_nil _ hdigits.1) _
  | _ => exact List.cons_ne_nil _ _

theorem Plain.not_recognised {token rest : List Char} (h : Plain alphabet (token ++ rest)) :
    ¬Recognised alphabet token := by
  intro htoken
  have hnone (c : Char) (text : List Char) (heq : token ++ rest = c :: text) :
      (isBreak c = false ∧ isSymbol c = false) ∧ percentCode alphabet (c :: text) = none ∧
        number alphabet (c :: text) = none :=
    protectedToken_none (fun hc => h.control (by rw [heq, hc]; rfl)) (heq ▸ h.token)
  cases htoken with
  | field => exact h.field rfl
  | value => exact h.control rfl
  | control => exact h.control rfl
  | @mark c hmark =>
    obtain ⟨⟨hbreak, hsymbol⟩, -⟩ := hnone c rest rfl
    rw [hbreak, hsymbol] at hmark
    exact hmark.elim Bool.false_ne_true Bool.false_ne_true
  | placeholder => cases h.token
  | @percentLetter c hc =>
    have hcode := (hnone '%' ('%' :: c :: rest) rfl).2.1
    simp [percentCode, hc] at hcode
  | @percentDigits c d e hdigits =>
    have hcode := (hnone '%' ('%' :: c :: d :: e :: rest) rfl).2.1
    have hall : (isDecimal alphabet c && isDecimal alphabet d && isDecimal alphabet e) = true := by
      simpa [and_assoc] using hdigits
    simp only [percentCode, hall, if_true] at hcode
    split at hcode <;> cases hcode
  | @number sign digits groups hsign hdigits =>
    obtain ⟨d, ds, hd⟩ := List.exists_cons_of_ne_nil hdigits.1
    subst hd
    have hdecimal := hdigits.2 d List.mem_cons_self
    rcases hsign with rfl | ⟨c, hc, rfl⟩
    · exact (number_ne_none (c := d) hdecimal).1 (hnone d _ rfl).2.2
    · exact (number_ne_none hdecimal).2 hc (hnone c _ rfl).2.2

theorem escapedFrom_length (skip : Nat) (text : List Char) :
    (escapedFrom skip text).length = text.length := by
  induction text generalizing skip with
  | nil => cases skip <;> rfl
  | cons c text ih =>
    cases skip with
    | succ skip => exact congrArg (· + 1) (ih skip)
    | zero =>
      rw [escapedFrom]
      split <;> exact congrArg (· + 1) (ih _)

theorem escapedFrom_append (done text : List Char) :
    escapedFrom done.length (done ++ text) = done.map (fun _ => true) ++ escapedFrom 0 text := by
  induction done with
  | nil => rfl
  | cons c done ih => exact congrArg (true :: ·) ih

theorem escapedFrom_escape {escape text rest : List Char} {code : Nat}
    (h : unicodeEscape (escape ++ rest) = some (escape, code)) :
    escapedFrom 0 (escape ++ text) = escape.map (fun _ => true) ++ escapedFrom 0 text := by
  have htext := unicodeEscape_append h text
  obtain ⟨-, hlength, -⟩ := unicodeEscape_front h
  cases escape with
  | nil => cases hlength
  | cons c escape =>
    have hsix : 6 = escape.length := (Nat.succ.inj hlength).symm
    rw [List.cons_append] at htext ⊢
    rw [escapedFrom, htext]
    dsimp only
    rw [hsix, escapedFrom_append]
    rfl

theorem escapedFrom_plain {c : Char} {text : List Char} (hc : c ≠ '\\') :
    escapedFrom 0 (c :: text) = false :: escapedFrom 0 text := by
  rw [escapedFrom]
  cases hescape : unicodeEscape (c :: text) with
  | none => rfl
  | some found =>
    obtain ⟨hfront, -, hhead⟩ := unicodeEscape_front hescape
    obtain ⟨rest, heq⟩ := hfront
    cases hraw : found.1 with
    | nil =>
      rw [hraw] at hhead
      cases hhead
    | cons d escape =>
      rw [hraw] at hhead heq
      cases hhead
      exact absurd (List.cons.inj heq).1.symm hc

/-- Outside its escapes, each character of a literal text is plain. -/
theorem Literal.plain_at {run after : List Char} (h : Literal alphabet run after) {i : Nat}
    (hi : (escapedFrom 0 run)[i]? = some false) : Plain alphabet (run.drop i ++ after) := by
  induction h generalizing i with
  | nil => cases hi
  | @cons token run after h hne _ ih =>
    have htext : token ++ run ++ after ≠ [] := by simp [hne]
    obtain ⟨-, -, hliteral⟩ := nextPiece_ok htext h
    rcases hliteral rfl with ⟨code, hescape⟩ | ⟨hplain, htake⟩
    · rw [List.append_assoc] at hescape
      rw [escapedFrom_escape hescape] at hi
      by_cases hlt : i < token.length
      · rw [List.getElem?_append_left (by rwa [List.length_map]), List.getElem?_map] at hi
        obtain ⟨_, -, hfalse⟩ := Option.map_eq_some_iff.mp hi
        cases hfalse
      · rw [not_lt] at hlt
        rw [List.getElem?_append_right (by rwa [List.length_map]), List.length_map] at hi
        rw [List.drop_append, List.drop_of_length_le hlt, List.nil_append]
        exact ih hi
    · obtain ⟨c, rest, rfl⟩ := List.exists_cons_of_ne_nil hne
      obtain rfl : rest = [] := by simpa using htake
      rw [List.singleton_append,
        escapedFrom_plain fun hc => hplain.control (by rw [hc]; rfl)] at hi
      cases i with
      | zero => exact hplain
      | succ i => exact ih hi

theorem OutsideEscapes.first {text : List Char} {before length : Nat}
    (h : OutsideEscapes text before length) (hlength : 0 < length) (hlt : before < text.length) :
    (escapedFrom 0 text)[before]? = some false := by
  have hmask : before < (escapedFrom 0 text).length := by rwa [escapedFrom_length]
  rw [List.getElem?_eq_getElem hmask, Option.some_inj]
  refine h _ ?_
  rw [List.drop_eq_getElem_cons hmask]
  obtain ⟨n, rfl⟩ := Nat.exists_eq_succ_of_ne_zero hlength.ne'
  exact List.mem_cons_self

/-- The loop ends. What it returns is a partition of the text into pieces that are not empty, no
two literal ones behind each other, and outside its escapes no literal piece contains anything
that the rules protect. -/
theorem parts_partition (alphabet : Alphabet) (raw : String) :
    (∀ rounds, raw.length ≤ rounds →
      partsWithin alphabet rounds raw.toList [] = some (parts alphabet raw)) ∧
    ∀ pieces, parts alphabet raw = .ok pieces →
      pieces.flatMap Piece.raw = raw.toList ∧
      (∀ piece ∈ pieces, piece.raw ≠ []) ∧
      (pieces.IsChain fun left right => ¬(left.editable = true ∧ right.editable = true)) ∧
      ∀ piece ∈ pieces, piece.editable = true → ∀ before token behind,
        piece.raw = before ++ token ++ behind →
        OutsideEscapes piece.raw before.length token.length → ¬Recognised alphabet token := by
  refine ⟨fun rounds h => partsWithin_eq (by rwa [String.length_toList]) [], fun pieces h => ?_⟩
  have hcut := cut_of_parts h
  refine ⟨?_, hcut.nonempty, hcut.apart, ?_⟩
  · rw [← hcut.joined, List.append_nil]
  intro piece hpiece heditable before token behind hraw houtside htoken
  obtain ⟨after, hstands⟩ := hcut.stand.of_mem hpiece
  rw [Stands, if_pos heditable] at hstands
  have hpos := List.length_pos_iff.mpr htoken.ne_nil
  have hlt : before.length < piece.raw.length := by
    rw [hraw, List.length_append, List.length_append]
    omega
  have hplain := hstands.plain_at (houtside.first hpos hlt)
  rw [hraw, List.append_assoc, List.drop_left, List.append_assoc] at hplain
  exact hplain.not_recognised htoken

/-- The digit behind the escape is a piece of its own; the digits of the escape are none. -/
theorem parts_partition_escape :
    partsWithin asciiAlphabet 14 "KAPI\\U+015E1-A".toList [] =
        some (parts asciiAlphabet "KAPI\\U+015E1-A") ∧
      ([⟨true, "KAPI\\U+015E".toList⟩, ⟨false, "1".toList⟩, ⟨true, "-A".toList⟩] :
        List Piece).flatMap Piece.raw = "KAPI\\U+015E1-A".toList ∧
      ¬Recognised asciiAlphabet "PI".toList := by
  have hparts : parts asciiAlphabet "KAPI\\U+015E1-A" = .ok
      [⟨true, "KAPI\\U+015E".toList⟩, ⟨false, "1".toList⟩, ⟨true, "-A".toList⟩] := by
    decide +kernel
  obtain ⟨hends, hpieces⟩ := parts_partition asciiAlphabet "KAPI\\U+015E1-A"
  obtain ⟨hjoined, -, -, hliteral⟩ := hpieces _ hparts
  refine ⟨hends 14 (by decide), hjoined, ?_⟩
  exact hliteral _ List.mem_cons_self rfl "KA".toList "PI".toList "\\U+015E".toList rfl
    (by unfold OutsideEscapes; decide +kernel)

end Rules

end CadPlot.TextPlan
