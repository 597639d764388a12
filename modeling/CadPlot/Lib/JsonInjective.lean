import CadPlot.Lib.Json
import Std.Data.String.ToInt

/-!
# JSON texts are unambiguous

Two values that `model_dump_json` writes alike are the same value. The texts are
compared with whatever comes after them, so that the items of an array and the
fields of an object can be told apart one after the other.
-/

namespace CadPlot.Json

/-! ### The characters of a string -/

def shortEscapes : List (Char × Char) :=
  [('"', '"'), ('\\', '\\'), ('\n', 'n'), ('\r', 'r'), ('\t', 't'), ('\x08', 'b'), ('\x0c', 'f')]

theorem shortEscape_mem {c letter : Char} (h : shortEscape c = some letter) :
    (c, letter) ∈ shortEscapes := by
  unfold shortEscape at h
  split at h <;> cases h <;> decide

theorem shortEscape_inj {c d letter : Char} (hc : shortEscape c = some letter)
    (hd : shortEscape d = some letter) : c = d := by
  have hall : ∀ x ∈ shortEscapes, ∀ y ∈ shortEscapes, x.2 = y.2 → x.1 = y.1 := by decide
  exact hall _ (shortEscape_mem hc) _ (shortEscape_mem hd) rfl

theorem shortEscape_ne_u {c letter : Char} (h : shortEscape c = some letter) : letter ≠ 'u' := by
  have hall : ∀ x ∈ shortEscapes, x.2 ≠ 'u' := by decide
  exact hall _ (shortEscape_mem h)

/-- A character is written by a letter, as itself, or by its number. -/
theorem escape_cases (c : Char) :
    (∃ letter, shortEscape c = some letter ∧ modelStyle.escape c = ['\\', letter]) ∨
      (c ≠ '"' ∧ c ≠ '\\' ∧ modelStyle.escape c = [c]) ∨
      (c.toNat < 32 ∧ modelStyle.escape c = '\\' :: 'u' :: hex4 c.toNat) := by
  cases hs : shortEscape c with
  | some letter => exact .inl ⟨letter, rfl, by simp [modelStyle, escapeOutside, hs]⟩
  | none =>
    by_cases hplain : 32 ≤ c.toNat
    · refine .inr (.inl ⟨?_, ?_, by simp [modelStyle, escapeOutside, hs, hplain]⟩)
      · rintro rfl
        simp [shortEscape] at hs
      · rintro rfl
        simp [shortEscape] at hs
    · have hsmall : c.toNat < 0x10000 := by omega
      refine .inr (.inr ⟨by omega, ?_⟩)
      simp [modelStyle, escapeOutside, hs, hplain, utf16Escape, hsmall, unicodeEscape]

theorem escape_ne_quote {c : Char} {r s : List Char} : modelStyle.escape c ++ r ≠ '"' :: s := by
  intro heq
  rcases escape_cases c with ⟨letter, _, h⟩ | ⟨hquote, _, h⟩ | ⟨_, h⟩
  · simp [h] at heq
  · rw [h, List.singleton_append, List.cons.injEq] at heq
    exact hquote heq.1
  · simp [h] at heq

theorem hex4_inj {m n : Nat} (hm : m < 32) (hn : n < 32) (h : hex4 m = hex4 n) : m = n := by
  have hall : ∀ m < 32, ∀ n < 32, hex4 m = hex4 n → m = n := by decide
  exact hall m hm n hn h

/-- No character's text begins another's. -/
theorem escape_append_inj {c d : Char} {r s : List Char}
    (heq : modelStyle.escape c ++ r = modelStyle.escape d ++ s) : c = d ∧ r = s := by
  have hsame : c = d := by
    rcases escape_cases c with ⟨letter, hc, h⟩ | ⟨_, hslash, h⟩ | ⟨hsmall, h⟩ <;>
      rcases escape_cases d with ⟨letter', hd, h'⟩ | ⟨_, hslash', h'⟩ | ⟨hsmall', h'⟩ <;>
      simp only [h, h', List.cons_append, List.nil_append, List.cons.injEq] at heq
    · exact shortEscape_inj hc (heq.2.1 ▸ hd)
    · exact absurd heq.1.symm hslash'
    · exact absurd heq.2.1 (shortEscape_ne_u hc)
    · exact absurd heq.1 hslash
    · exact heq.1
    · exact absurd heq.1 hslash
    · exact absurd heq.2.1.symm (shortEscape_ne_u hd)
    · exact absurd heq.1.symm hslash'
    · have hhex : hex4 c.toNat = hex4 d.toNat := by
        simp only [hex4, List.cons_append, List.nil_append, List.cons.injEq] at heq ⊢
        exact ⟨heq.2.2.1, heq.2.2.2.1, heq.2.2.2.2.1, heq.2.2.2.2.2.1, trivial⟩
      exact Char.ext (UInt32.toNat_inj.1 (hex4_inj hsmall hsmall' hhex))
  subst hsame
  exact ⟨rfl, List.append_cancel_left heq⟩

theorem chars_append_inj {a b r s : List Char}
    (heq : a.flatMap modelStyle.escape ++ '"' :: r = b.flatMap modelStyle.escape ++ '"' :: s) :
    a = b ∧ r = s := by
  induction a generalizing b with
  | nil =>
    cases b with
    | nil => exact ⟨rfl, (List.cons.inj heq).2⟩
    | cons d b =>
      rw [List.flatMap_cons, List.append_assoc] at heq
      exact absurd heq.symm escape_ne_quote
  | cons c a ih =>
    cases b with
    | nil =>
      rw [List.flatMap_cons, List.append_assoc] at heq
      exact absurd heq escape_ne_quote
    | cons d b =>
      rw [List.flatMap_cons, List.flatMap_cons, List.append_assoc, List.append_assoc] at heq
      obtain ⟨rfl, hrest⟩ := escape_append_inj heq
      obtain ⟨rfl, hrs⟩ := ih hrest
      exact ⟨rfl, hrs⟩

theorem renderString_append_inj {a b : String} {r s : List Char}
    (heq : renderString modelStyle a ++ r = renderString modelStyle b ++ s) : a = b ∧ r = s := by
  simp only [renderString, List.cons_append, List.append_assoc, List.nil_append,
    List.cons.injEq, true_and] at heq
  obtain ⟨hchars, hrs⟩ := chars_append_inj heq
  exact ⟨String.toList_inj.1 hchars, hrs⟩

/-! ### Numbers -/

def isNumeral (c : Char) : Bool := c.isDigit || decide (c = '-')

/-- What follows a value does not go on with its number. -/
def Ends (r : List Char) : Prop := ∀ c ∈ r.head?, isNumeral c = false

theorem span_append_inj {a b r s : List Char} (ha : ∀ c ∈ a, isNumeral c = true)
    (hb : ∀ c ∈ b, isNumeral c = true) (hr : Ends r) (hs : Ends s) (heq : a ++ r = b ++ s) :
    a = b ∧ r = s := by
  induction a generalizing b with
  | nil =>
    cases b with
    | nil => exact ⟨rfl, heq⟩
    | cons d b =>
      have hd : isNumeral d = false := hr d (by simp [show r = d :: (b ++ s) from heq])
      rw [hb d List.mem_cons_self] at hd
      cases hd
  | cons c a ih =>
    cases b with
    | nil =>
      have hc : isNumeral c = false := hs c (by simp [show s = c :: (a ++ r) from heq.symm])
      rw [ha c List.mem_cons_self] at hc
      cases hc
    | cons d b =>
      obtain ⟨rfl, hrest⟩ := List.cons.inj heq
      obtain ⟨rfl, hrs⟩ := ih (fun c hc => ha c (List.mem_cons_of_mem _ hc))
        (fun c hc => hb c (List.mem_cons_of_mem _ hc)) hrest
      exact ⟨rfl, hrs⟩

theorem isNumeral_repr {n : Nat} {c : Char} (h : c ∈ n.repr.toList) : isNumeral c = true := by
  rw [Nat.toList_repr] at h
  simp [isNumeral, Nat.isDigit_of_mem_toDigits (by omega) (by omega) h]

theorem isNumeral_renderInt {n : Int} {c : Char} (h : c ∈ renderInt n) : isNumeral c = true := by
  cases n with
  | ofNat n => exact isNumeral_repr h
  | negSucc n =>
    have htext : renderInt (.negSucc n) = '-' :: (n + 1).repr.toList := by
      show (Int.repr (.negSucc n)).toList = _
      simp [Int.repr]
    rw [htext] at h
    rcases List.mem_cons.1 h with rfl | h
    · rfl
    · exact isNumeral_repr h

theorem renderInt_ne_nil (n : Int) : renderInt n ≠ [] := by
  cases n with
  | ofNat n =>
    show (n.repr).toList ≠ []
    rw [Nat.toList_repr]
    exact Nat.toDigits_ne_nil
  | negSucc n =>
    show (Int.repr (.negSucc n)).toList ≠ []
    simp [Int.repr]

theorem renderInt_inj {m n : Int} (h : renderInt m = renderInt n) : m = n :=
  Int.repr_injective (String.toList_inj.1 h)

/-! ### Values -/

def tag : Json → Nat
  | .null => 0
  | .bool true => 1
  | .bool false => 2
  | .int _ => 3
  | .str _ => 4
  | .arr _ => 5
  | .obj _ => 6

/-- The kind of value that a text's first character announces, or none. -/
def tagOf (c : Char) : Nat :=
  if c = 'n' then 0 else if c = 't' then 1 else if c = 'f' then 2 else if isNumeral c then 3
  else if c = '"' then 4 else if c = '[' then 5 else if c = '\x7b' then 6 else 7

theorem tagOf_numeral {c : Char} (h : isNumeral c = true) : tagOf c = 3 := by
  have hletters : c ≠ 'n' ∧ c ≠ 't' ∧ c ≠ 'f' := by
    refine ⟨?_, ?_, ?_⟩ <;> rintro rfl <;> revert h <;> decide
  simp [tagOf, hletters, h]

theorem render_head (v : Json) : ∃ c rest, v.render modelStyle = c :: rest ∧ tagOf c = v.tag := by
  cases v with
  | null => exact ⟨_, _, rfl, rfl⟩
  | bool b => cases b <;> exact ⟨_, _, rfl, rfl⟩
  | int n =>
    obtain ⟨c, rest, htext⟩ := List.exists_cons_of_ne_nil (renderInt_ne_nil n)
    refine ⟨c, rest, by rw [render, htext], tagOf_numeral (isNumeral_renderInt (n := n) ?_)⟩
    simp [htext]
  | str s => exact ⟨_, _, by rw [render, renderString], rfl⟩
  | arr items => exact ⟨_, _, by rw [render], rfl⟩
  | obj fields => exact ⟨_, _, by rw [render], rfl⟩

theorem tag_eq_of_append {v w : Json} {r s : List Char}
    (heq : v.render modelStyle ++ r = w.render modelStyle ++ s) : v.tag = w.tag := by
  obtain ⟨c, rest, hv, hc⟩ := render_head v
  obtain ⟨d, rest', hw, hd⟩ := render_head w
  rw [hv, hw, List.cons_append, List.cons_append, List.cons.injEq] at heq
  rw [← hc, ← hd, heq.1]

theorem render_ne_of_tagOf {v : Json} {c : Char} {r s : List Char} (hc : tagOf c = 7)
    (heq : v.render modelStyle ++ r = c :: s) : False := by
  obtain ⟨d, rest, hv, hd⟩ := render_head v
  rw [hv, List.cons_append, List.cons.injEq] at heq
  rw [heq.1, hc] at hd
  revert hd
  unfold tag
  split <;> simp

/-- What an array's text has after its first item. -/
def itemsTail : List Json → List Char
  | [] => []
  | item :: items => ',' :: renderItems modelStyle (item :: items)

theorem renderItems_cons (item : Json) (items : List Json) :
    renderItems modelStyle (item :: items) = item.render modelStyle ++ itemsTail items := by
  cases items with
  | nil => simp [renderItems, itemsTail]
  | cons next items => simp [renderItems, itemsTail, modelStyle]

def fieldsTail : List (String × Json) → List Char
  | [] => []
  | field :: fields => ',' :: renderFields modelStyle (field :: fields)

theorem renderFields_cons (key : String) (value : Json) (fields : List (String × Json)) :
    renderFields modelStyle ((key, value) :: fields) =
      renderString modelStyle key ++ ':' :: (value.render modelStyle ++ fieldsTail fields) := by
  cases fields with
  | nil => simp [renderFields, fieldsTail, modelStyle]
  | cons field fields => simp [renderFields, fieldsTail, modelStyle]

theorem ends_itemsTail (items : List Json) (r : List Char) : Ends (itemsTail items ++ ']' :: r) := by
  cases items <;> simp [Ends, itemsTail, isNumeral, Char.isDigit]

theorem ends_fieldsTail (fields : List (String × Json)) (r : List Char) :
    Ends (fieldsTail fields ++ '\x7d' :: r) := by
  cases fields <;> simp [Ends, fieldsTail, isNumeral, Char.isDigit]

theorem itemsTail_of_renderItems {items items' : List Json} {r s : List Char}
    (heq : renderItems modelStyle items ++ ']' :: r = renderItems modelStyle items' ++ ']' :: s) :
    itemsTail items ++ ']' :: r = itemsTail items' ++ ']' :: s := by
  cases items with
  | nil =>
    cases items' with
    | nil => exact heq
    | cons w rest' =>
      rw [renderItems_cons, List.append_assoc] at heq
      exact (render_ne_of_tagOf (by decide) heq.symm).elim
  | cons v rest =>
    cases items' with
    | nil =>
      rw [renderItems_cons, List.append_assoc] at heq
      exact (render_ne_of_tagOf (by decide) heq).elim
    | cons w rest' => exact congrArg (List.cons ',') heq

theorem fieldsTail_of_renderFields {fields fields' : List (String × Json)} {r s : List Char}
    (heq : renderFields modelStyle fields ++ '\x7d' :: r =
      renderFields modelStyle fields' ++ '\x7d' :: s) :
    fieldsTail fields ++ '\x7d' :: r = fieldsTail fields' ++ '\x7d' :: s := by
  cases fields with
  | nil =>
    cases fields' with
    | nil => exact heq
    | cons field' rest' =>
      rw [renderFields_cons, renderString] at heq
      cases (List.cons.inj heq).1
  | cons field rest =>
    cases fields' with
    | nil =>
      rw [renderFields_cons, renderString] at heq
      cases (List.cons.inj heq).1
    | cons field' rest' => exact congrArg (List.cons ',') heq

mutual

/-- The text of a value cannot be read as another's, whatever follows them. -/
theorem render_append_inj (v w : Json) (r s : List Char) (hr : Ends r) (hs : Ends s)
    (heq : v.render modelStyle ++ r = w.render modelStyle ++ s) : v = w ∧ r = s := by
  have htag := tag_eq_of_append heq
  cases v with
  | null =>
    cases w with
    | null => exact ⟨rfl, List.append_cancel_left heq⟩
    | bool b => cases b <;> cases htag
    | _ => cases htag
  | bool b =>
    cases w with
    | bool b' =>
      have hb : b = b' := by cases b <;> cases b' <;> first | rfl | cases htag
      subst hb
      exact ⟨rfl, List.append_cancel_left heq⟩
    | _ => cases b <;> cases htag
  | int m =>
    cases w with
    | int n =>
      obtain ⟨htext, hrs⟩ := span_append_inj (fun c hc => isNumeral_renderInt (n := m) hc)
        (fun c hc => isNumeral_renderInt (n := n) hc) hr hs heq
      exact ⟨congrArg Json.int (renderInt_inj htext), hrs⟩
    | bool b => cases b <;> cases htag
    | _ => cases htag
  | str a =>
    cases w with
    | str b =>
      obtain ⟨rfl, hrs⟩ := renderString_append_inj heq
      exact ⟨rfl, hrs⟩
    | bool b => cases b <;> cases htag
    | _ => cases htag
  | arr items =>
    cases w with
    | arr items' =>
      simp only [render, List.cons_append, List.append_assoc, List.nil_append, List.cons.injEq,
        true_and] at heq
      obtain ⟨rfl, hrs⟩ := itemsTail_append_inj items items' r s (itemsTail_of_renderItems heq)
      exact ⟨rfl, hrs⟩
    | bool b => cases b <;> cases htag
    | _ => cases htag
  | obj fields =>
    cases w with
    | obj fields' =>
      simp only [render, List.cons_append, List.append_assoc, List.nil_append, List.cons.injEq,
        true_and] at heq
      obtain ⟨rfl, hrs⟩ := fieldsTail_append_inj fields fields' r s (fieldsTail_of_renderFields heq)
      exact ⟨rfl, hrs⟩
    | bool b => cases b <;> cases htag
    | _ => cases htag

theorem itemsTail_append_inj (items items' : List Json) (r s : List Char)
    (heq : itemsTail items ++ ']' :: r = itemsTail items' ++ ']' :: s) :
    items = items' ∧ r = s := by
  cases items with
  | nil =>
    cases items' with
    | nil => exact ⟨rfl, (List.cons.inj heq).2⟩
    | cons w rest' => cases (List.cons.inj heq).1
  | cons v rest =>
    cases items' with
    | nil => cases (List.cons.inj heq).1
    | cons w rest' =>
      have htext : renderItems modelStyle (v :: rest) ++ ']' :: r =
          renderItems modelStyle (w :: rest') ++ ']' :: s := (List.cons.inj heq).2
      rw [renderItems_cons, renderItems_cons, List.append_assoc, List.append_assoc] at htext
      obtain ⟨rfl, htail⟩ := render_append_inj v w _ _ (ends_itemsTail rest r)
        (ends_itemsTail rest' s) htext
      obtain ⟨rfl, hrs⟩ := itemsTail_append_inj rest rest' r s htail
      exact ⟨rfl, hrs⟩

theorem fieldsTail_append_inj (fields fields' : List (String × Json)) (r s : List Char)
    (heq : fieldsTail fields ++ '\x7d' :: r = fieldsTail fields' ++ '\x7d' :: s) :
    fields = fields' ∧ r = s := by
  cases fields with
  | nil =>
    cases fields' with
    | nil => exact ⟨rfl, (List.cons.inj heq).2⟩
    | cons field' rest' => cases (List.cons.inj heq).1
  | cons field rest =>
    cases fields' with
    | nil => cases (List.cons.inj heq).1
    | cons field' rest' =>
      have htext : renderFields modelStyle (field :: rest) ++ '\x7d' :: r =
          renderFields modelStyle (field' :: rest') ++ '\x7d' :: s := (List.cons.inj heq).2
      rw [renderFields_cons, renderFields_cons, List.append_assoc, List.append_assoc] at htext
      obtain ⟨hkey, hcolon⟩ := renderString_append_inj htext
      have hvalue : field.2.render modelStyle ++ (fieldsTail rest ++ '\x7d' :: r) =
          field'.2.render modelStyle ++ (fieldsTail rest' ++ '\x7d' :: s) := by
        simpa using hcolon
      obtain ⟨hvalues, htail⟩ := render_append_inj field.2 field'.2 _ _ (ends_fieldsTail rest r)
        (ends_fieldsTail rest' s) hvalue
      obtain ⟨rfl, hrs⟩ := fieldsTail_append_inj rest rest' r s htail
      exact ⟨by rw [Prod.ext hkey hvalues], hrs⟩

end

/-- The texts of two values differ where the values do. -/
theorem render_injective : Function.Injective (render modelStyle) := by
  intro v w h
  have hnil : Ends [] := by simp [Ends]
  exact (render_append_inj v w [] [] hnil hnil (by simpa using h)).1

end CadPlot.Json
