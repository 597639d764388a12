import CadPlot.Lib.Json
import CadPlot.Lib.Text
import Mathlib.Tactic.NormNum

/-!
# How long a JSON text is

The number of UTF-8 bytes of a compact JSON text, field by field, so that a
bound on an object follows from bounds on its values.
-/

namespace CadPlot.Json

open Text

@[simp] theorem utf8_append (a b : List Char) : utf8 (a ++ b) = utf8 a ++ utf8 b := by
  simp [utf8]

@[simp] theorem utf8_nil : utf8 [] = [] := rfl

theorem utf8_cons (c : Char) (text : List Char) :
    utf8 (c :: text) = String.utf8EncodeChar c ++ utf8 text := rfl

/-- The bytes of a value as `model_dump_json` writes it. -/
def size (value : Json) : Nat := (utf8 (value.render modelStyle)).length

def stringSize (s : String) : Nat := (utf8 (renderString modelStyle s)).length

def fieldsSize (fields : List (String × Json)) : Nat :=
  (utf8 (renderFields modelStyle fields)).length

theorem size_null : size .null = 4 := by decide

theorem size_bool_le (b : Bool) : size (.bool b) ≤ 5 := by cases b <;> decide

@[simp] theorem size_str (s : String) : size (.str s) = stringSize s := rfl

@[simp] theorem size_obj (fields : List (String × Json)) :
    size (.obj fields) = fieldsSize fields + 2 := by
  have hopen : (String.utf8EncodeChar '\x7b').length = 1 := by decide
  have hclose : (String.utf8EncodeChar '\x7d').length = 1 := by decide
  simp only [size, fieldsSize, render, utf8_cons, utf8_append, utf8_nil, List.length_append,
    List.length_nil, hopen, hclose]
  omega

@[simp] theorem fieldsSize_nil : fieldsSize [] = 0 := rfl

@[simp] theorem fieldsSize_single (key : String) (value : Json) :
    fieldsSize [(key, value)] = stringSize key + 1 + size value := by
  have hcolon : (utf8 [':']).length = 1 := by decide
  simp only [size, fieldsSize, stringSize, renderFields, modelStyle, utf8_append,
    List.length_append, hcolon]

@[simp] theorem fieldsSize_cons (key : String) (value : Json) (field : String × Json)
    (fields : List (String × Json)) :
    fieldsSize ((key, value) :: field :: fields) =
      stringSize key + 1 + size value + 1 + fieldsSize (field :: fields) := by
  have hcolon : (utf8 [':']).length = 1 := by decide
  have hcomma : (utf8 [',']).length = 1 := by decide
  simp only [size, fieldsSize, stringSize, renderFields, modelStyle, utf8_append,
    List.length_append, hcolon, hcomma]

/-- A character that JSON writes as one byte. -/
def isPlain (c : Char) : Bool :=
  decide (32 ≤ c.toNat ∧ c.toNat < 128) && decide (c ≠ '"') && decide (c ≠ '\\')

theorem escape_plain {c : Char} (h : isPlain c = true) : modelStyle.escape c = [c] := by
  simp only [isPlain, Bool.and_eq_true, decide_eq_true_eq] at h
  obtain ⟨⟨⟨hlo, _⟩, hquote⟩, hslash⟩ := h
  have hshort : shortEscape c = none := by
    unfold shortEscape
    split
    · exact absurd rfl hquote
    · exact absurd rfl hslash
    · exact absurd hlo (by decide)
    · exact absurd hlo (by decide)
    · exact absurd hlo (by decide)
    · exact absurd hlo (by decide)
    · exact absurd hlo (by decide)
    · rfl
  simp [modelStyle, escapeOutside, hshort, hlo]

theorem length_utf8_plain {c : Char} (h : isPlain c = true) :
    (String.utf8EncodeChar c).length = 1 := by
  simp only [isPlain, Bool.and_eq_true, decide_eq_true_eq] at h
  have hsmall : c.val.toNat ≤ 127 := Nat.le_of_lt_succ h.1.1.2
  have hval : c.val ≤ 127 := UInt32.le_iff_toNat_le.2 hsmall
  rw [String.length_utf8EncodeChar]
  exact Char.utf8Size_eq_one_iff.2 hval

theorem length_utf8_text {text : List Char} (h : text.all isPlain = true) :
    (utf8 text).length = text.length := by
  induction text with
  | nil => rfl
  | cons c text ih =>
    rw [List.all_cons, Bool.and_eq_true] at h
    rw [utf8_cons, List.length_append, length_utf8_plain h.1, ih h.2, List.length_cons]
    omega

/-- A text of plain characters is written as it is, between quotes. -/
theorem stringSize_plain {s : String} (h : s.toList.all isPlain = true) :
    stringSize s = s.toList.length + 2 := by
  have hescape : s.toList.flatMap modelStyle.escape = s.toList := by
    have hchars := List.all_eq_true.1 h
    generalize s.toList = text at hchars
    induction text with
    | nil => rfl
    | cons c text ih =>
      rw [List.flatMap_cons, escape_plain (hchars c List.mem_cons_self),
        ih fun d hd => hchars d (List.mem_cons_of_mem _ hd)]
      rfl
  have hquote : (String.utf8EncodeChar '"').length = 1 := by decide
  simp only [stringSize, renderString, utf8_cons, utf8_append, utf8_nil, List.length_append,
    List.length_nil, hescape, length_utf8_text h, hquote]
  omega

theorem size_nat_le {n k : Nat} (hk : 0 < k) (h : n < 10 ^ k) : size (.int n) ≤ k := by
  have hplain : (Nat.toDigits 10 n).all isPlain = true := by
    refine List.all_eq_true.2 fun c hc => ?_
    have hdigit : c.isDigit = true := Nat.isDigit_of_mem_toDigits (by omega) (by omega) hc
    simp only [Char.isDigit, Bool.and_eq_true, decide_eq_true_eq] at hdigit
    have hlo : 48 ≤ c.toNat := hdigit.1
    have hhi : c.toNat ≤ 57 := hdigit.2
    have hquote : c ≠ '"' := by
      rintro rfl
      revert hlo
      decide
    have hslash : c ≠ '\\' := by
      rintro rfl
      revert hhi
      decide
    simp only [isPlain, Bool.and_eq_true, decide_eq_true_eq]
    exact ⟨⟨by omega, hquote⟩, hslash⟩
  have hrender : (Json.int n).render modelStyle = Nat.toDigits 10 n := Nat.toList_repr
  rw [size, hrender, length_utf8_text hplain]
  exact (Nat.length_toDigits_le_iff (by omega) hk).2 h

end CadPlot.Json
