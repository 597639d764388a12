import CadPlot.TextPlan.Relexing
import CadPlot.TextPlan.ReviewLaws

/-!
# Splitting a translated text again

A change keeps the protected pieces of a text and replaces some of the literal
ones. Splitting the new text gives these pieces again, but for two clashes: a
target that ends in a sign takes it to the number behind it, and a target with a
semicolon closes a bare `\p` in front of it.
-/

namespace CadPlot.TextPlan

section Rebuilt

variable {alphabet : Alphabet}

/-- What is checked of the targets that replace literal texts. -/
structure Target (alphabet : Alphabet) (text : List Char) : Prop where
  literal : Literal alphabet text []
  noPercent : '%' ∉ text
  noControl : '\\' ∉ text
  noDecimal : ∀ c ∈ text, isDecimal alphabet c = false
  letter : ∃ c ∈ text, alphabet.isAlpha c.toNat = true

theorem Target.ne_nil {text : List Char} (h : Target alphabet text) : text ≠ [] := by
  obtain ⟨c, hc, -⟩ := h.letter
  exact List.ne_nil_of_mem hc

theorem isAlpha_mark (hlaw : alphabet.Lawful) {c : Char} (hc : c ∈ "+-.,/:".toList) :
    alphabet.isAlpha c.toNat = false := by
  have hrange : ∀ c ∈ "+-.,/:".toList, c.toNat < 128 ∧
      ¬(65 ≤ c.toNat ∧ c.toNat ≤ 90 ∨ 97 ≤ c.toNat ∧ c.toNat ≤ 122) :=
    Text.forall_mem_of_all (by decide)
  obtain ⟨hascii, hnot⟩ := hrange c hc
  rw [hlaw.ascii_alpha _ hascii, decide_eq_false hnot]

/-- Behind its first two characters a text may be another one. -/
theorem Plain.change {c d : Char} {text : List Char} (h : Plain alphabet (c :: d :: text))
    (hc : c ≠ '%') (text' : List Char) : Plain alphabet (c :: d :: text') := by
  obtain ⟨hslash, hmark, hdecimal, -, hplaceholder, hsign, -⟩ := plain_cons_iff.mp h
  exact plain_cons_iff.mpr ⟨hslash, hmark, hdecimal, fun hpercent => absurd hpercent hc,
    hplaceholder, hsign, percentCode_ne hc _⟩

/-- A literal text without percent signs and controls is one in front of most rests. -/
theorem literal_in_front {text rest : List Char} (h : Literal alphabet text [])
    (hpercent : '%' ∉ text) (hcontrol : '\\' ∉ text) (hclose : rest.head? ≠ some '>')
    (hsign : endsInSign text = true → beginsWithDecimal alphabet rest = false) :
    Literal alphabet text rest := by
  induction text with
  | nil => exact .nil
  | cons c text ih =>
    rw [List.mem_cons, not_or] at hpercent hcontrol
    obtain ⟨hplain, htext⟩ := h.plain_of_ne (Ne.symm hcontrol.1)
    cases text with
    | nil =>
      obtain ⟨hslash, hmark, hdecimal, -⟩ := plain_cons_iff.mp hplain
      exact .cons_plain (plain_cons_iff.mpr ⟨hslash, hmark, hdecimal,
        fun hc => absurd hc.symm hpercent.1, fun _ => hclose, hsign,
        percentCode_ne (Ne.symm hpercent.1) _⟩) .nil
    | cons d text =>
      exact .cons_plain (hplain.change (Ne.symm hpercent.1) _)
        (ih htext hpercent.2 hcontrol.2 hsign)

theorem Target.begins (hlaw : alphabet.Lawful) {text rest : List Char}
    (h : Target alphabet text) (hclose : rest.head? ≠ some '>') :
    ∃ token, nextPiece alphabet (text ++ rest) = .ok ⟨true, token⟩ := by
  obtain ⟨c, text, rfl⟩ := List.exists_cons_of_ne_nil h.ne_nil
  cases text with
  | nil =>
    obtain ⟨d, hd, hletter⟩ := h.letter
    obtain rfl := List.mem_singleton.mp hd
    refine (literal_in_front h.literal h.noPercent h.noControl hclose fun hsign => ?_).begins
      (List.cons_ne_nil d [])
    have hmark : d ∈ "+-.,/:".toList := by
      simp only [endsInSign, List.getLast?_singleton, Option.any_some, isSign, Bool.or_eq_true,
        decide_eq_true_iff] at hsign
      rcases hsign with rfl | rfl <;> decide
    rw [isAlpha_mark hlaw hmark] at hletter
    cases hletter
  | cons d text =>
    have hc : c ≠ '%' := by
      rintro rfl
      exact h.noPercent List.mem_cons_self
    have hslash : c ≠ '\\' := by
      rintro rfl
      exact h.noControl List.mem_cons_self
    exact ⟨_, ((h.literal.plain_of_ne hslash).1.change hc _).nextPiece⟩

theorem Target.takeNumber_nil (hlaw : alphabet.Lawful) {text : List Char}
    (h : Target alphabet text) (rest : List Char) : takeNumber alphabet (text ++ rest) = [] := by
  obtain ⟨c, text, rfl⟩ := List.exists_cons_of_ne_nil h.ne_nil
  refine takeNumber_eq_nil.mpr ⟨h.noDecimal c List.mem_cons_self, fun hc => ?_⟩
  cases text with
  | nil =>
    obtain ⟨d, hd, hletter⟩ := h.letter
    obtain rfl := List.mem_singleton.mp hd
    have hall : ∀ c ∈ ".,/:-".toList, c ∈ "+-.,/:".toList :=
      Text.forall_mem_of_all (by decide)
    rw [isAlpha_mark hlaw (hall d (List.contains_iff_mem.mp hc))] at hletter
    cases hletter
  | cons d text => exact h.noDecimal d (List.mem_cons_of_mem _ List.mem_cons_self)

/-- A piece that is kept, or a literal one with a target in its place. -/
inductive Rebuilt (alphabet : Alphabet) : Piece → Piece → Prop
  | kept (piece) : Rebuilt alphabet piece piece
  | replaced {old new} (h : Target alphabet new) : Rebuilt alphabet ⟨true, old⟩ ⟨true, new⟩

/-- The pieces of a text, each with what it is rebuilt to. -/
inductive Aligned (alphabet : Alphabet) : List Piece → List Piece → Prop
  | nil : Aligned alphabet [] []
  | cons {piece new pieces news} (hne : piece.raw ≠ [])
      (hstand : Stands alphabet piece (pieces.flatMap Piece.raw))
      (hapart : ∀ next ∈ pieces.head?, ¬(piece.editable = true ∧ next.editable = true))
      (hnew : Rebuilt alphabet piece new) (h : Aligned alphabet pieces news) :
      Aligned alphabet (piece :: pieces) (new :: news)

theorem Aligned.of_forall₂ {pieces news : List Piece} (hne : ∀ piece ∈ pieces, piece.raw ≠ [])
    (hapart : pieces.IsChain fun left right => ¬(left.editable = true ∧ right.editable = true))
    (hstand : AllStand alphabet pieces []) (h : List.Forall₂ (Rebuilt alphabet) pieces news) :
    Aligned alphabet pieces news := by
  induction h with
  | nil => exact .nil
  | cons hnew _ ih =>
    obtain ⟨hhead, htail⟩ := List.isChain_cons.mp hapart
    obtain ⟨hfirst, hrest⟩ := hstand
    rw [List.append_nil] at hfirst
    exact .cons (hne _ List.mem_cons_self) hfirst hhead hnew
      (ih (fun piece hpiece => hne piece (List.mem_cons_of_mem _ hpiece)) htail hrest)

theorem Rebuilt.ne_nil {piece new : Piece} (h : Rebuilt alphabet piece new)
    (hne : piece.raw ≠ []) : new.raw ≠ [] := by
  cases h with
  | kept => exact hne
  | replaced h => exact h.ne_nil

theorem Aligned.ne_nil {pieces news : List Piece} (h : Aligned alphabet pieces news) :
    ∀ new ∈ news, new.raw ≠ [] := by
  induction h with
  | nil => exact fun new hnew => absurd hnew List.not_mem_nil
  | cons hne _ _ hnew _ ih => exact List.forall_mem_cons.mpr ⟨hnew.ne_nil hne, ih⟩

/-- What the text behind a piece has in common with the one that is rebuilt. -/
structure Follows (alphabet : Alphabet) (pieces : List Piece) (text text' : List Char) : Prop where
  stops : takeNumber alphabet text = [] → takeNumber alphabet text' = []
  alike : (∀ piece ∈ pieces.head?, piece.editable = false) → Alike alphabet text text'
  closed : (∀ piece ∈ pieces.head?, piece.editable = false) → text'.head? ≠ some '>'

theorem protected_of_editable {piece : Piece} {pieces : List Piece}
    (hapart : ∀ next ∈ pieces.head?, ¬(piece.editable = true ∧ next.editable = true))
    (h : piece.editable = true) : ∀ next ∈ pieces.head?, next.editable = false :=
  fun next hnext => Bool.eq_false_iff.mpr fun hboth => hapart next hnext ⟨h, hboth⟩

theorem Aligned.follows (hlaw : alphabet.Lawful) {pieces news : List Piece}
    (h : Aligned alphabet pieces news) :
    Follows alphabet pieces (pieces.flatMap Piece.raw) (news.flatMap Piece.raw) := by
  induction h with
  | nil =>
    refine ⟨id, fun _ => ⟨rfl, fun c later heq => ?_, fun c d e later heq => ?_⟩, fun _ => ?_⟩
    · cases heq
    · cases heq
    · simp
  | @cons piece new pieces news hne hstand hapart hnew _ ih =>
    simp only [List.flatMap_cons]
    obtain ⟨editable, raw⟩ := piece
    cases editable with
    | false =>
      cases hnew with
      | kept =>
        have hread : ReadAs alphabet raw (pieces.flatMap Piece.raw) := readAs_of_nextPiece hstand
        refine ⟨hread.takeNumber_nil hne _, fun _ => hread.alike hlaw hne ih.stops,
          fun _ => ?_⟩
        obtain ⟨c, raw, rfl⟩ := List.exists_cons_of_ne_nil hne
        exact fun hhead => hread.head_ne hlaw (Option.some.inj hhead)
    | true =>
      have halike := ih.alike (protected_of_editable hapart rfl)
      refine ⟨fun hnil => ?_, fun hhead => absurd (hhead _ rfl) Bool.noConfusion,
        fun hhead => absurd (hhead _ rfl) Bool.noConfusion⟩
      cases hnew with
      | kept =>
        obtain ⟨c, raw, rfl⟩ := List.exists_cons_of_ne_nil hne
        exact takeNumber_alike hnil fun _ => halike.head_append raw
      | replaced h => exact h.takeNumber_nil hlaw _

/-- A target that ends in a sign does not stand in front of a digit, and no semicolon stands
behind a bare paragraph control. -/
structure Unclashed (alphabet : Alphabet) (pieces : List Piece) : Prop where
  signs : pieces.IsChain fun left right => ¬(left.editable = true ∧
    endsInSign left.raw = true ∧ beginsWithDecimal alphabet right.raw = true)
  paragraphs : pieces.Pairwise fun left right => left = ⟨false, bareParagraph⟩ → ';' ∉ right.raw

theorem beginsWithDecimal_flatMap {pieces : List Piece} (hne : ∀ piece ∈ pieces, piece.raw ≠ []) :
    beginsWithDecimal alphabet (pieces.flatMap Piece.raw) = true ↔
      ∃ piece ∈ pieces.head?, beginsWithDecimal alphabet piece.raw = true := by
  cases pieces with
  | nil => simp [beginsWithDecimal]
  | cons piece pieces =>
    obtain ⟨c, raw, hraw⟩ := List.exists_cons_of_ne_nil (hne piece List.mem_cons_self)
    simp [beginsWithDecimal, hraw]

/-- A bare paragraph control stands exactly where no semicolon follows. -/
theorem nextPiece_bareParagraph {rest : List Char} :
    nextPiece alphabet (bareParagraph ++ rest) = .ok ⟨false, bareParagraph⟩ ↔ ';' ∉ rest := by
  have htoken := @protectedToken_control alphabet 'p' rest
  have hp : takesValue 'p' = true := by decide
  rw [← throughSemicolon_eq_none]
  cases hvalue : throughSemicolon rest with
  | none =>
    rw [if_pos hp, hvalue] at htoken
    exact iff_of_true (nextPiece_control htoken) rfl
  | some value =>
    refine iff_of_false (fun h => ?_) (Option.some_ne_none value)
    rw [if_pos hp, hvalue] at htoken
    have hread : nextPiece alphabet (bareParagraph ++ rest) = .ok ⟨false, '\\' :: 'p' :: value⟩ :=
      nextPiece_control htoken
    cases hread.symm.trans h
    cases rest with
    | nil => cases hvalue
    | cons c rest =>
      rw [throughSemicolon] at hvalue
      split at hvalue
      · cases hvalue
      · obtain ⟨_, -, hnil⟩ := Option.map_eq_some_iff.mp hvalue
        cases hnil

/-- Where a rebuilt piece stands. -/
theorem Aligned.stands_iff (hlaw : alphabet.Lawful) {piece new : Piece} {pieces news : List Piece}
    (hstand : Stands alphabet piece (pieces.flatMap Piece.raw))
    (hapart : ∀ next ∈ pieces.head?, ¬(piece.editable = true ∧ next.editable = true))
    (hnew : Rebuilt alphabet piece new) (h : Aligned alphabet pieces news) :
    Stands alphabet new (news.flatMap Piece.raw) ↔
      (∀ next ∈ news.head?, ¬(new.editable = true ∧ endsInSign new.raw = true ∧
        beginsWithDecimal alphabet next.raw = true)) ∧
      ∀ next ∈ news, new = ⟨false, bareParagraph⟩ → ';' ∉ next.raw := by
  have hfollows := h.follows hlaw
  have hdecimal := @beginsWithDecimal_flatMap alphabet news h.ne_nil
  obtain ⟨editable, raw⟩ := piece
  cases editable with
  | false =>
    cases hnew with
    | kept =>
      have hread : ReadAs alphabet raw (pieces.flatMap Piece.raw) := readAs_of_nextPiece hstand
      change nextPiece alphabet (raw ++ news.flatMap Piece.raw) = .ok ⟨false, raw⟩ ↔ _
      constructor
      · refine fun h => ⟨fun next _ hboth => absurd hboth.1 Bool.false_ne_true,
          fun next hnext heq hmem => ?_⟩
        obtain rfl : raw = bareParagraph := congrArg Piece.raw heq
        exact nextPiece_bareParagraph.mp h (List.mem_flatMap.mpr ⟨next, hnext, hmem⟩)
      · rintro ⟨-, hbare⟩
        refine nextPiece_of_readAs hlaw (hread.again (fun heq hmem => ?_) hfollows.stops)
        obtain ⟨next, hnext, hmem⟩ := List.mem_flatMap.mp hmem
        exact hbare next hnext (congrArg (Piece.mk false) heq) hmem
  | true =>
    have hheads := protected_of_editable hapart rfl
    have hnever (text : List Char) (next : Piece) :
        (⟨true, text⟩ : Piece) = ⟨false, bareParagraph⟩ → ';' ∉ next.raw :=
      fun heq => absurd (congrArg Piece.editable heq) Bool.noConfusion
    have hsigns (text : List Char) (htext : Literal alphabet text (news.flatMap Piece.raw) ↔
        (endsInSign text = true → beginsWithDecimal alphabet (news.flatMap Piece.raw) = false)) :
        Stands alphabet ⟨true, text⟩ (news.flatMap Piece.raw) ↔
          (∀ next ∈ news.head?, ¬(true = true ∧ endsInSign text = true ∧
            beginsWithDecimal alphabet next.raw = true)) ∧
          ∀ next ∈ news, (⟨true, text⟩ : Piece) = ⟨false, bareParagraph⟩ → ';' ∉ next.raw := by
      rw [Stands, if_pos rfl, htext]
      constructor
      · refine fun h => ⟨fun next hnext hboth => ?_, fun next _ => hnever text next⟩
        exact absurd (hdecimal.mpr ⟨next, hnext, hboth.2.2⟩) (by rw [h hboth.2.1]; decide)
      · rintro ⟨h, -⟩ hsign
        refine Bool.eq_false_iff.mpr fun htrue => ?_
        obtain ⟨next, hnext, hbegins⟩ := hdecimal.mp htrue
        exact h next hnext ⟨rfl, hsign, hbegins⟩
    cases hnew with
    | kept =>
      have hliteral : Literal alphabet raw (news.flatMap Piece.raw) :=
        Literal.alike hlaw hstand (hfollows.alike hheads)
      exact hsigns raw ⟨fun h => h.apart, fun _ => hliteral⟩
    | @replaced _ text htarget =>
      exact hsigns text ⟨fun h => h.apart, literal_in_front htarget.literal htarget.noPercent
        htarget.noControl (hfollows.closed hheads)⟩

/-- The rebuilt pieces stand in their text exactly if they do not clash. -/
theorem Aligned.allStand_iff (hlaw : alphabet.Lawful) {pieces news : List Piece}
    (h : Aligned alphabet pieces news) :
    AllStand alphabet news [] ↔ Unclashed alphabet news := by
  induction h with
  | nil => exact iff_of_true trivial ⟨.nil, .nil⟩
  | @cons piece new pieces news hne hstand hapart hnew h ih =>
    rw [AllStand, ih, List.append_nil, h.stands_iff hlaw hstand hapart hnew]
    constructor
    · rintro ⟨⟨hsigns, hparagraphs⟩, hrest⟩
      exact ⟨List.isChain_cons.mpr ⟨hsigns, hrest.signs⟩,
        List.pairwise_cons.mpr ⟨hparagraphs, hrest.paragraphs⟩⟩
    · rintro ⟨hsigns, hparagraphs⟩
      obtain ⟨hsign, hsigns⟩ := List.isChain_cons.mp hsigns
      obtain ⟨hparagraph, hparagraphs⟩ := List.pairwise_cons.mp hparagraphs
      exact ⟨⟨hsign, hparagraph⟩, hsigns, hparagraphs⟩

/-- Whether they clash or not, a token of its kind begins where a rebuilt piece does. -/
theorem Aligned.begins (hlaw : alphabet.Lawful) {piece new : Piece} {pieces news : List Piece}
    (hne : piece.raw ≠ []) (hstand : Stands alphabet piece (pieces.flatMap Piece.raw))
    (hapart : ∀ next ∈ pieces.head?, ¬(piece.editable = true ∧ next.editable = true))
    (hnew : Rebuilt alphabet piece new) (h : Aligned alphabet pieces news) :
    ∃ token, nextPiece alphabet (new.raw ++ news.flatMap Piece.raw) =
      .ok ⟨new.editable, token⟩ := by
  have hfollows := h.follows hlaw
  obtain ⟨editable, raw⟩ := piece
  cases editable with
  | false =>
    cases hnew with
    | kept => exact (readAs_of_nextPiece hstand).still hlaw _
  | true =>
    have hheads := protected_of_editable hapart rfl
    cases hnew with
    | kept => exact (Literal.alike hlaw hstand (hfollows.alike hheads)).begins hne
    | replaced htarget => exact htarget.begins hlaw (hfollows.closed hheads)

/-- Pieces of the same text with the same protected and the same literal ones are the same. -/
theorem Aligned.eq_of_filter (hlaw : alphabet.Lawful) {pieces news others : List Piece}
    (h : Aligned alphabet pieces news) (hne : ∀ piece ∈ others, piece.raw ≠ [])
    (hstand : AllStand alphabet others [])
    (htext : others.flatMap Piece.raw = news.flatMap Piece.raw)
    (hprotected : others.filter (fun p => !p.editable) = news.filter fun p => !p.editable)
    (hliteral : others.filter Piece.editable = news.filter Piece.editable) : others = news := by
  induction h generalizing others with
  | nil =>
    cases others with
    | nil => rfl
    | cons other others => exact absurd (by simpa using htext) (by simp [hne other])
  | @cons piece new pieces news hraw hpiece hapart hnew h ih =>
    cases others with
    | nil =>
      have hnil : new.raw = [] := by
        rw [List.flatMap_nil, List.flatMap_cons] at htext
        exact (List.append_eq_nil_iff.mp htext.symm).1
      exact absurd hnil (hnew.ne_nil hraw)
    | cons other others =>
      obtain ⟨token, htoken⟩ := h.begins hlaw hraw hpiece hapart hnew
      obtain ⟨hother, hothers⟩ := hstand
      obtain ⟨hotherNe, hothersNe⟩ := List.forall_mem_cons.mp hne
      rw [List.append_nil] at hother
      have hbegins : ∃ token, nextPiece alphabet (other.raw ++ others.flatMap Piece.raw) =
          .ok ⟨other.editable, token⟩ := by
        rw [Stands] at hother
        split at hother
        · next heditable =>
          rw [heditable]
          exact hother.begins hotherNe
        · next heditable =>
          exact ⟨other.raw, hother⟩
      obtain ⟨token', htoken'⟩ := hbegins
      rw [List.flatMap_cons, List.flatMap_cons] at htext
      rw [htext, htoken] at htoken'
      have hkind : new.editable = other.editable := (Piece.mk.inj (Except.ok.inj htoken')).1
      have hsame : other = new ∧ others.filter (fun p => !p.editable) =
          news.filter (fun p => !p.editable) ∧
            others.filter Piece.editable = news.filter Piece.editable := by
        cases heditable : new.editable with
        | false =>
          rw [List.filter_cons_of_pos (by simp [← hkind, heditable]),
            List.filter_cons_of_pos (by simp [heditable])] at hprotected
          rw [List.filter_cons_of_neg (by simp [← hkind, heditable]),
            List.filter_cons_of_neg (by simp [heditable])] at hliteral
          obtain ⟨hhead, htail⟩ := List.cons.inj hprotected
          exact ⟨hhead, htail, hliteral⟩
        | true =>
          rw [List.filter_cons_of_neg (by simp [← hkind, heditable]),
            List.filter_cons_of_neg (by simp [heditable])] at hprotected
          rw [List.filter_cons_of_pos (by simp [← hkind, heditable]),
            List.filter_cons_of_pos (by simp [heditable])] at hliteral
          obtain ⟨hhead, htail⟩ := List.cons.inj hliteral
          exact ⟨hhead, hprotected, htail⟩
      obtain ⟨rfl, hprotected, hliteral⟩ := hsame
      rw [ih hothersNe hothers (List.append_cancel_left htext) hprotected hliteral]

end Rebuilt

section Plan

variable {alphabet : Alphabet} {decisions : List TranslationDecision}

/-- A piece of a record, with the target for it if it is a span that was decided as Turkish. A
target that is the text already leaves the text as it is written. -/
def translatedPiece (alphabet : Alphabet) (decisions : List TranslationDecision)
    (recordId : String) (x : Piece × Nat) : Piece :=
  match if isSpan alphabet x.1 then decisions.find? (fun d => d.spanId = spanId recordId x.2)
    else none with
  | some d =>
    if d.sourceLanguage = .tr ∧ codes d.target ≠ decoded x.1.raw then ⟨true, d.target.toList⟩
    else x.1
  | none => x.1

/-- The pieces of the old text of a change, with the targets. -/
def translatedPieces (alphabet : Alphabet) (decisions : List TranslationDecision)
    (change : TextChange) : List Piece :=
  match parts alphabet change.before with
  | .ok pieces => pieces.zipIdx.map (translatedPiece alphabet decisions change.recordId)
  | .error _ => []

/-- The new text is split into the old protected pieces and the translated literal ones. -/
def SplitsAgain (alphabet : Alphabet) (decisions : List TranslationDecision)
    (change : TextChange) : Prop :=
  ∃ old new, parts alphabet change.before = .ok old ∧ parts alphabet change.after = .ok new ∧
    (new.filter fun p => !p.editable) = old.filter (fun p => !p.editable) ∧
      new.filter Piece.editable =
        (translatedPieces alphabet decisions change).filter Piece.editable

theorem target_of_check (hlaw : alphabet.Lawful) {text : List Nat} {target : String}
    (h : checkTarget alphabet text target = .ok ()) : Target alphabet target.toList := by
  obtain ⟨pieces, hpieces, h⟩ := bind_eq_ok.1 h
  obtain ⟨hplain, h⟩ := ensure_bind_eq_ok.1 h
  obtain ⟨hletter, -⟩ := ensure_bind_eq_ok.1 h
  have hplain := of_decide_eq_true hplain
  rw [not_or, not_or, not_or] at hplain
  obtain ⟨hprotected, hpercent, hcontrol, hnumeric⟩ := hplain
  have hcut := cut_of_parts hpieces
  have heditable : ∀ piece ∈ pieces, piece.editable = true := fun piece hpiece =>
    Bool.of_not_eq_false fun hfalse => hprotected ⟨piece, hpiece, hfalse⟩
  refine ⟨?_, hpercent, hcontrol, fun c hc => Bool.eq_false_iff.mpr fun hdecimal => ?_, ?_⟩
  · rw [← hcut.joined, List.append_nil]
    match pieces, hcut, heditable with
    | [], _, _ => exact .nil
    | [piece], hcut, heditable =>
      have hstand := hcut.stand.1
      rw [Stands, if_pos (heditable piece List.mem_cons_self)] at hstand
      simpa using hstand
    | first :: second :: pieces, hcut, heditable =>
      have hapart := (List.isChain_cons.mp hcut.apart).1 second rfl
      exact absurd ⟨heditable first List.mem_cons_self,
        heditable second (List.mem_cons_of_mem _ List.mem_cons_self)⟩ hapart
  · exact hnumeric ⟨c.toNat, List.mem_map_of_mem hc, hlaw.decimal_numeric _ hdecimal⟩
  · obtain ⟨code, hcode, halpha⟩ := List.any_eq_true.mp hletter
    obtain ⟨c, hc, rfl⟩ := List.mem_map.mp hcode
    exact ⟨c, hc, halpha⟩

theorem planPiece_rebuilt (hlaw : alphabet.Lawful) {recordId : String} {x : Piece × Nat}
    {planned : Planned} (h : planPiece alphabet decisions recordId x = .ok planned) :
    planned.output = (translatedPiece alphabet decisions recordId x).raw ∧
      Rebuilt alphabet x.1 (translatedPiece alphabet decisions recordId x) := by
  unfold planPiece at h
  unfold translatedPiece
  by_cases hspan : isSpan alphabet x.1 = true
  · rw [if_pos hspan] at h ⊢
    cases hfind : decisions.find? fun d => d.spanId = spanId recordId x.2 with
    | none =>
      simp only [hfind] at h
      cases h
      exact ⟨rfl, .kept x.1⟩
    | some d =>
      simp only [hfind] at h
      obtain ⟨-, h⟩ := ensure_bind_eq_ok.1 h
      dsimp only at h ⊢
      split at h
      · next hsame =>
        have hkept (new : Piece) : (if d.sourceLanguage = .tr ∧ codes d.target ≠ decoded x.1.raw
            then new else x.1) = x.1 := if_neg fun hboth => hboth.2 hsame
        cases h
        rw [hkept]
        exact ⟨rfl, .kept x.1⟩
      · next hother =>
        obtain ⟨htr, h⟩ := ensure_bind_eq_ok.1 h
        obtain ⟨_, hcheck, h⟩ := bind_eq_ok.1 h
        have hreplaced (new : Piece) : (if d.sourceLanguage = .tr ∧
            codes d.target ≠ decoded x.1.raw then new else x.1) = new :=
          if_pos ⟨of_decide_eq_true htr, hother⟩
        cases h
        rw [hreplaced]
        refine ⟨rfl, ?_⟩
        have heditable : x.1.editable = true := (Bool.and_eq_true_iff.mp hspan).1
        obtain ⟨⟨editable, raw⟩, index⟩ := x
        obtain rfl : editable = true := heditable
        exact .replaced (target_of_check hlaw hcheck)
  · rw [if_neg hspan] at h ⊢
    cases h
    exact ⟨rfl, .kept x.1⟩

/-- What a change makes of the pieces of its record. -/
structure Translates (alphabet : Alphabet) (decisions : List TranslationDecision)
    (change : TextChange) (old : List Piece) : Prop where
  split : parts alphabet change.before = .ok old
  rebuilt : List.Forall₂ (Rebuilt alphabet) old (translatedPieces alphabet decisions change)
  joined : (translatedPieces alphabet decisions change).flatMap Piece.raw = change.after.toList

theorem planRecord_translates (hlaw : alphabet.Lawful) {record : TextRecord} {planned : Planned}
    (h : planRecord alphabet decisions record = .ok planned) {change : TextChange}
    (hchange : change ∈ planned.changes) : ∃ old, Translates alphabet decisions change old := by
  unfold planRecord at h
  cases hparts : parts alphabet record.raw with
  | error message =>
    rw [hparts] at h
    cases h
    cases hchange
  | ok pieces =>
    rw [hparts] at h
    obtain ⟨each, heach, h⟩ := bind_eq_ok.1 h
    obtain ⟨-, h⟩ := ensure_bind_eq_ok.1 h
    cases h
    have hpieces := (mapM_eq_ok.1 heach).imp fun _ _ => planPiece_rebuilt hlaw
    obtain rfl : change = ⟨record.id, record.raw, String.ofList (each.flatMap Planned.output)⟩ := by
      by_cases hsame : String.ofList (each.flatMap Planned.output) = record.raw
      · simp [hsame] at hchange
      · simpa [hsame] using hchange
    have htranslated : translatedPieces alphabet decisions
        ⟨record.id, record.raw, String.ofList (each.flatMap Planned.output)⟩ =
          pieces.zipIdx.map (translatedPiece alphabet decisions record.id) := by
      rw [translatedPieces, hparts]
    refine ⟨pieces, hparts, ?_, ?_⟩
    · have hall : ∀ x ∈ pieces.zipIdx,
          Rebuilt alphabet x.1 (translatedPiece alphabet decisions record.id x) := fun x hx =>
        (exists_of_forall₂ hpieces hx).elim fun _ hx => hx.2.2
      have hmap : List.Forall₂ (Rebuilt alphabet) (pieces.zipIdx.map Prod.fst)
          (pieces.zipIdx.map (translatedPiece alphabet decisions record.id)) :=
        List.forall₂_map_left_iff.mpr (List.forall₂_map_right_iff.mpr
          (List.forall₂_same.mpr hall))
      rw [List.zipIdx_map_fst] at hmap
      rw [htranslated]
      exact hmap
    · rw [htranslated, String.toList_ofList, List.flatMap_map]
      exact (flatMap_eq_of_forall₂ hpieces fun _ _ hx => hx.1).symm

theorem plan_translates (hlaw : alphabet.Lawful) {digests : Digests} {path : String}
    {fingerprint : DrawingFingerprint} {snapshot : TextSnapshot} {expectedId : String}
    {plan : TranslationPlan}
    (h : buildTranslationPlan alphabet digests path fingerprint snapshot expectedId decisions =
      .ok plan) {change : TextChange} (hchange : change ∈ plan.changes) :
    ∃ old, Translates alphabet decisions change old := by
  obtain ⟨-, h⟩ := ensure_bind_eq_ok.1 h
  obtain ⟨-, h⟩ := ensure_bind_eq_ok.1 h
  obtain ⟨-, h⟩ := ensure_bind_eq_ok.1 h
  obtain ⟨planned, hplanned, h⟩ := bind_eq_ok.1 h
  obtain ⟨-, h⟩ := ensure_bind_eq_ok.1 h
  cases h
  obtain ⟨each, heach, hchange⟩ := List.mem_flatMap.mp hchange
  obtain ⟨record, -, hrecord⟩ := exists_of_forall₂ (mapM_eq_ok.1 hplanned).flip heach
  exact planRecord_translates hlaw hrecord hchange

theorem filter_protected {pieces news : List Piece}
    (h : List.Forall₂ (Rebuilt alphabet) pieces news) :
    (news.filter fun p => !p.editable) = pieces.filter fun p => !p.editable := by
  induction h with
  | nil => rfl
  | cons hnew _ ih =>
    cases hnew with
    | kept piece => rw [List.filter_cons, List.filter_cons, ih]
    | replaced => exact ih

theorem Rebuilt.editable_eq {piece new : Piece} (h : Rebuilt alphabet piece new) :
    new.editable = piece.editable := by
  cases h <;> rfl

theorem isChain_rebuilt {pieces news : List Piece}
    (h : List.Forall₂ (Rebuilt alphabet) pieces news)
    (hapart : pieces.IsChain fun left right => ¬(left.editable = true ∧ right.editable = true)) :
    news.IsChain fun left right => ¬(left.editable = true ∧ right.editable = true) := by
  induction h with
  | nil => exact .nil
  | cons hnew hrest ih =>
    obtain ⟨hhead, htail⟩ := List.isChain_cons.mp hapart
    refine List.isChain_cons.mpr ⟨fun next hnext => ?_, ih htail⟩
    cases hrest with
    | nil => cases hnext
    | cons hsecond =>
      obtain rfl := Option.some.inj hnext
      rw [hnew.editable_eq, hsecond.editable_eq]
      exact hhead _ rfl

/-- The new text of a change is split into what the change was made of, exactly if the pieces with
the targets do not clash. -/
theorem translation_splits_again (hlaw : alphabet.Lawful) {digests : Digests} {path : String}
    {fingerprint : DrawingFingerprint} {snapshot : TextSnapshot} {expectedId : String}
    {plan : TranslationPlan}
    (h : buildTranslationPlan alphabet digests path fingerprint snapshot expectedId decisions =
      .ok plan) {change : TextChange} (hchange : change ∈ plan.changes) :
    SplitsAgain alphabet decisions change ↔
      Unclashed alphabet (translatedPieces alphabet decisions change) := by
  obtain ⟨old, hold⟩ := plan_translates hlaw h hchange
  have hcut := cut_of_parts hold.split
  have haligned := Aligned.of_forall₂ hcut.nonempty hcut.apart hcut.stand hold.rebuilt
  have hprotected := filter_protected hold.rebuilt
  rw [← haligned.allStand_iff hlaw]
  constructor
  · rintro ⟨old', new, hold', hnew, hsame, hliteral⟩
    cases hold.split.symm.trans hold'
    have hcutNew := cut_of_parts hnew
    have htext : new.flatMap Piece.raw =
        (translatedPieces alphabet decisions change).flatMap Piece.raw := by
      rw [hold.joined, ← hcutNew.joined, List.append_nil]
    rw [← haligned.eq_of_filter hlaw hcutNew.nonempty hcutNew.stand htext
      (hsame.trans hprotected.symm) hliteral]
    exact hcutNew.stand
  · intro hstand
    refine ⟨old, translatedPieces alphabet decisions change, hold.split, ?_, hprotected, rfl⟩
    have hapart := isChain_rebuilt hold.rebuilt hcut.apart
    refine parts_eq_ok_iff.mpr ⟨?_, haligned.ne_nil, hapart, hstand⟩
    rw [List.append_nil, hold.joined]

end Plan

section Example

theorem asciiAlphabet_lawful : asciiAlphabet.Lawful where
  decimal_numeric _ h := h
  ascii_decimal _ _ := rfl
  ascii_alpha _ _ := rfl
  symbol_decimal c hc := by
    have hall : ∀ c ∈ "⌀Øø°±×²³".toList, asciiAlphabet.isDecimal c.toNat = false :=
      Text.forall_mem_of_all (by decide)
    exact hall c (List.contains_iff_mem.mp hc)

/-- A door, in English. -/
theorem translation_splits_again_door :
    ∃ plan, buildTranslationPlan asciiAlphabet someDigests "door.dwg" doorFingerprint doorSnapshot
      "inventory" [⟨"a:0", "KAPI", .tr, "DOOR-"⟩] = .ok plan ∧
        ∃ change ∈ plan.changes, change.after = "DOOR-\\PNo 5" ∧
          SplitsAgain asciiAlphabet [⟨"a:0", "KAPI", .tr, "DOOR-"⟩] change := by
  have hchanges : (buildTranslationPlan asciiAlphabet someDigests "door.dwg" doorFingerprint
      doorSnapshot "inventory" [⟨"a:0", "KAPI", .tr, "DOOR-"⟩]).map TranslationPlan.changes =
        .ok [⟨"a", "KAPI\\PNo 5", "DOOR-\\PNo 5"⟩] := by
    decide +kernel
  cases hplan : buildTranslationPlan asciiAlphabet someDigests "door.dwg" doorFingerprint
    doorSnapshot "inventory" [⟨"a:0", "KAPI", .tr, "DOOR-"⟩] with
  | error message =>
    rw [hplan] at hchanges
    cases hchanges
  | ok plan =>
    rw [hplan] at hchanges
    have hplanned : plan.changes = [⟨"a", "KAPI\\PNo 5", "DOOR-\\PNo 5"⟩] :=
      Except.ok.inj hchanges
    have hchange : (⟨"a", "KAPI\\PNo 5", "DOOR-\\PNo 5"⟩ : TextChange) ∈ plan.changes := by
      rw [hplanned]
      exact List.mem_cons_self
    refine ⟨plan, rfl, _, hchange, rfl, ?_⟩
    refine (translation_splits_again asciiAlphabet_lawful hplan hchange).mpr ⟨?_, ?_⟩
    · decide +kernel
    · decide +kernel

/-- The sign at the end of the target makes the number behind it another one. -/
theorem targets_clash :
    ∃ plan, buildTranslationPlan asciiAlphabet someDigests "door.dwg" doorFingerprint
      ⟨[textRecord "a" "abc5"], [], 1, "structure"⟩ "inventory" [⟨"a:0", "abc", .tr, "def-"⟩] =
        .ok plan ∧ plan.ready = true ∧ ∃ change ∈ plan.changes,
          ¬SplitsAgain asciiAlphabet [⟨"a:0", "abc", .tr, "def-"⟩] change := by
  have hchanges : (buildTranslationPlan asciiAlphabet someDigests "door.dwg" doorFingerprint
      ⟨[textRecord "a" "abc5"], [], 1, "structure"⟩ "inventory"
        [⟨"a:0", "abc", .tr, "def-"⟩]).map (fun plan => (plan.ready, plan.changes)) =
          .ok (true, [⟨"a", "abc5", "def-5"⟩]) := by
    decide +kernel
  cases hplan : buildTranslationPlan asciiAlphabet someDigests "door.dwg" doorFingerprint
    ⟨[textRecord "a" "abc5"], [], 1, "structure"⟩ "inventory" [⟨"a:0", "abc", .tr, "def-"⟩] with
  | error message =>
    rw [hplan] at hchanges
    cases hchanges
  | ok plan =>
    rw [hplan] at hchanges
    obtain ⟨hready, hplanned⟩ := Prod.mk.inj (Except.ok.inj hchanges)
    have hbefore : parts asciiAlphabet "abc5" =
        .ok [⟨true, "abc".toList⟩, ⟨false, "5".toList⟩] := by
      decide +kernel
    have hafter : parts asciiAlphabet "def-5" =
        .ok [⟨true, "def".toList⟩, ⟨false, "-5".toList⟩] := by
      decide +kernel
    refine ⟨plan, rfl, hready, ⟨"a", "abc5", "def-5"⟩, ?_, ?_⟩
    · rw [hplanned]
      exact List.mem_cons_self
    · rintro ⟨old, new, hold, hnew, hprotected, -⟩
      cases hbefore.symm.trans hold
      cases hafter.symm.trans hnew
      exact absurd hprotected (by decide)

end Example

end CadPlot.TextPlan
