import Mathlib.Data.List.DropRight
import Mathlib.Data.List.TakeWhile

/-!
# Text as bytes

Text is a list of Unicode scalar values. Its UTF-8 bytes, its UTF-16 code units
as other runtimes keep them, and bytes written as hexadecimal digits.
-/

namespace CadPlot.Text

def utf8 (text : List Char) : List UInt8 := text.flatMap String.utf8EncodeChar

theorem utf8_injective {a b : List Char} (h : utf8 a = utf8 b) : a = b := by
  have hbytes : (String.ofList a).toByteArray = (String.ofList b).toByteArray := by
    rw [String.toByteArray_ofList, String.toByteArray_ofList]
    exact congrArg List.toByteArray h
  exact String.ofList_injective (String.toByteArray_inj.1 hbytes)

/-- The code units of one character: itself, or a surrogate pair. -/
def utf16Char (c : Char) : List UInt16 :=
  if c.toNat < 0x10000 then [UInt16.ofNat c.toNat]
  else
    [UInt16.ofNat (0xD800 + (c.toNat - 0x10000) / 0x400),
      UInt16.ofNat (0xDC00 + (c.toNat - 0x10000) % 0x400)]

def utf16 (text : List Char) : List UInt16 := text.flatMap utf16Char

def isHighSurrogate (u : UInt16) : Bool := decide (0xD800 ≤ u.toNat ∧ u.toNat < 0xDC00)

def isLowSurrogate (u : UInt16) : Bool := decide (0xDC00 ≤ u.toNat ∧ u.toNat < 0xE000)

/-- A unit that is no half of a pair. Half a pair becomes the replacement character. -/
def ofUnit (u : UInt16) : Char :=
  if isHighSurrogate u || isLowSurrogate u then Char.ofNat 0xFFFD else Char.ofNat u.toNat

def ofPair (high low : UInt16) : Char :=
  Char.ofNat (0x10000 + (high.toNat - 0xD800) * 0x400 + (low.toNat - 0xDC00))

def decodeUtf16 : List UInt16 → List Char
  | [] => []
  | [u] => [ofUnit u]
  | u :: v :: rest =>
    if isHighSurrogate u && isLowSurrogate v then ofPair u v :: decodeUtf16 rest
    else ofUnit u :: decodeUtf16 (v :: rest)

theorem decodeUtf16_plain {u : UInt16} (h : isHighSurrogate u = false) (rest : List UInt16) :
    decodeUtf16 (u :: rest) = ofUnit u :: decodeUtf16 rest := by
  cases rest with
  | nil => rfl
  | cons v rest => simp [decodeUtf16, h]

theorem decodeUtf16_utf16 (text : List Char) : decodeUtf16 (utf16 text) = text := by
  induction text with
  | nil => rfl
  | cons c text ih =>
    have hvalid : c.toNat < 0xD800 ∨ (0xDFFF < c.toNat ∧ c.toNat < 0x110000) := c.valid
    change decodeUtf16 (utf16Char c ++ utf16 text) = c :: text
    by_cases hbmp : c.toNat < 0x10000
    · have hunit : (UInt16.ofNat c.toNat).toNat = c.toNat := by
        simp only [UInt16.toNat_ofNat']
        omega
      have hhigh : isHighSurrogate (UInt16.ofNat c.toNat) = false := by
        rw [isHighSurrogate, hunit]
        exact decide_eq_false (by omega)
      have hlow : isLowSurrogate (UInt16.ofNat c.toNat) = false := by
        rw [isLowSurrogate, hunit]
        exact decide_eq_false (by omega)
      rw [utf16Char, if_pos hbmp, List.singleton_append, decodeUtf16_plain hhigh, ih, ofUnit, hhigh,
        hlow, hunit, Char.ofNat_toNat]
      rfl
    · have hhigh : (UInt16.ofNat (0xD800 + (c.toNat - 0x10000) / 0x400)).toNat =
          0xD800 + (c.toNat - 0x10000) / 0x400 := by
        simp only [UInt16.toNat_ofNat']
        omega
      have hlow : (UInt16.ofNat (0xDC00 + (c.toNat - 0x10000) % 0x400)).toNat =
          0xDC00 + (c.toNat - 0x10000) % 0x400 := by
        simp only [UInt16.toNat_ofNat']
        omega
      have hpair : (isHighSurrogate (UInt16.ofNat (0xD800 + (c.toNat - 0x10000) / 0x400)) &&
          isLowSurrogate (UInt16.ofNat (0xDC00 + (c.toNat - 0x10000) % 0x400))) = true := by
        rw [isHighSurrogate, isLowSurrogate, hhigh, hlow, Bool.and_eq_true]
        exact ⟨decide_eq_true (by omega), decide_eq_true (by omega)⟩
      have hjoined : 0x10000 + (0xD800 + (c.toNat - 0x10000) / 0x400 - 0xD800) * 0x400 +
          (0xDC00 + (c.toNat - 0x10000) % 0x400 - 0xDC00) = c.toNat := by omega
      rw [utf16Char, if_neg hbmp, List.cons_append, List.cons_append, List.nil_append, decodeUtf16,
        if_pos hpair, ih, ofPair, hhigh, hlow, hjoined, Char.ofNat_toNat]

def hexDigit (n : Nat) : Char :=
  if n < 10 then Char.ofNat ('0'.toNat + n) else Char.ofNat ('a'.toNat + (n - 10))

def digitValue (c : Char) : Option Nat :=
  if '0' ≤ c ∧ c ≤ '9' then some (c.toNat - '0'.toNat)
  else if 'a' ≤ c ∧ c ≤ 'f' then some (c.toNat - 'a'.toNat + 10)
  else if 'A' ≤ c ∧ c ≤ 'F' then some (c.toNat - 'A'.toNat + 10)
  else none

def isLowerHex (c : Char) : Bool := decide (('0' ≤ c ∧ c ≤ '9') ∨ ('a' ≤ c ∧ c ≤ 'f'))

def hexByte (b : UInt8) : List Char := [hexDigit (b.toNat / 16), hexDigit (b.toNat % 16)]

/-- Two lower-case digits a byte. -/
def hex (bytes : List UInt8) : List Char := bytes.flatMap hexByte

def unhex : List Char → Option (List UInt8)
  | [] => some []
  | [_] => none
  | a :: b :: rest => do
    let high ← digitValue a
    let low ← digitValue b
    let bytes ← unhex rest
    pure (UInt8.ofNat (16 * high + low) :: bytes)

theorem digitValue_hexDigit : ∀ n < 16, digitValue (hexDigit n) = some n := by decide

theorem isLowerHex_hexDigit : ∀ n < 16, isLowerHex (hexDigit n) = true := by decide

theorem isLowerHex_of_mem_hex {bytes : List UInt8} {c : Char} (h : c ∈ hex bytes) :
    isLowerHex c = true := by
  obtain ⟨b, -, hc⟩ := List.mem_flatMap.1 h
  have hb := b.toNat_lt
  rcases List.mem_pair.1 hc with rfl | rfl
  · exact isLowerHex_hexDigit _ (by omega)
  · exact isLowerHex_hexDigit _ (by omega)

theorem unhex_hex (bytes : List UInt8) : unhex (hex bytes) = some bytes := by
  induction bytes with
  | nil => rfl
  | cons b bytes ih =>
    have hb := b.toNat_lt
    have hbyte : UInt8.ofNat (16 * (b.toNat / 16) + b.toNat % 16) = b := by
      rw [Nat.div_add_mod, UInt8.ofNat_toNat]
    change unhex (hexDigit _ :: hexDigit _ :: hex bytes) = _
    simp only [unhex, digitValue_hexDigit _ (show b.toNat / 16 < 16 by omega),
      digitValue_hexDigit _ (show b.toNat % 16 < 16 by omega), ih, Option.bind_eq_bind,
      Option.bind_some, Option.pure_def, hbyte]

theorem hex_injective {a b : List UInt8} (h : hex a = hex b) : a = b :=
  Option.some.inj ((unhex_hex a).symm.trans ((congrArg unhex h).trans (unhex_hex b)))

theorem hexDigit_digitValue {c : Char} (h : isLowerHex c = true) :
    ∃ n, digitValue c = some n ∧ n < 16 ∧ hexDigit n = c := by
  rcases of_decide_eq_true h with ⟨hlo, hhi⟩ | ⟨hlo, hhi⟩
  · have hlo' : '0'.toNat ≤ c.toNat := hlo
    have hhi' : c.toNat ≤ '9'.toNat := hhi
    have hzero : '0'.toNat = 48 := rfl
    have hnine : '9'.toNat = 57 := rfl
    refine ⟨c.toNat - '0'.toNat, if_pos ⟨hlo, hhi⟩, by omega, ?_⟩
    rw [hexDigit, if_pos (by omega), Nat.add_sub_cancel' hlo', Char.ofNat_toNat]
  · have hlo' : 'a'.toNat ≤ c.toNat := hlo
    have hhi' : c.toNat ≤ 'f'.toNat := hhi
    have ha : 'a'.toNat = 97 := rfl
    have hf : 'f'.toNat = 102 := rfl
    have hnine : '9'.toNat = 57 := rfl
    have hnot : ¬('0' ≤ c ∧ c ≤ '9') := by
      rintro ⟨-, hle⟩
      have hle' : c.toNat ≤ '9'.toNat := hle
      omega
    refine ⟨c.toNat - 'a'.toNat + 10, by rw [digitValue, if_neg hnot, if_pos ⟨hlo, hhi⟩],
      by omega, ?_⟩
    rw [hexDigit, if_neg (by omega), Nat.add_sub_cancel, Nat.add_sub_cancel' hlo',
      Char.ofNat_toNat]

/-- Pairs of lower-case digits are the digits of the bytes they stand for. -/
theorem exists_hex {n : Nat} {digits : List Char} (hlen : digits.length = 2 * n)
    (h : ∀ c ∈ digits, isLowerHex c = true) :
    ∃ bytes, unhex digits = some bytes ∧ hex bytes = digits ∧ bytes.length = n := by
  induction n generalizing digits with
  | zero =>
    obtain rfl := List.eq_nil_of_length_eq_zero hlen
    exact ⟨[], rfl, rfl, rfl⟩
  | succ n ih =>
    match digits, hlen, h with
    | a :: b :: rest, hlen, h =>
      obtain ⟨bytes, hunhex, hhex, hcount⟩ := @ih rest
        (by simp only [List.length_cons] at hlen; omega)
        fun c hc => h c (List.mem_cons_of_mem _ (List.mem_cons_of_mem _ hc))
      obtain ⟨high, hhigh, hhigh16, ha⟩ := hexDigit_digitValue (h a List.mem_cons_self)
      obtain ⟨low, hlow, hlow16, hb⟩ :=
        hexDigit_digitValue (h b (List.mem_cons_of_mem _ List.mem_cons_self))
      have hbyte : (UInt8.ofNat (16 * high + low)).toNat = 16 * high + low := by
        simp only [UInt8.toNat_ofNat']
        omega
      refine ⟨UInt8.ofNat (16 * high + low) :: bytes, ?_, ?_, congrArg Nat.succ hcount⟩
      · simp only [unhex, hhigh, hlow, hunhex, Option.bind_eq_bind, Option.bind_some,
          Option.pure_def]
      · change hexByte _ ++ hex bytes = _
        rw [hexByte, hbyte, hhex, show (16 * high + low) / 16 = high by omega,
          show (16 * high + low) % 16 = low by omega, ha, hb]
        rfl

theorem length_hex (bytes : List UInt8) : (hex bytes).length = 2 * bytes.length := by
  induction bytes with
  | nil => rfl
  | cons b bytes ih =>
    change (hexByte b ++ hex bytes).length = _
    rw [List.length_append, ih, List.length_cons]
    change 2 + 2 * bytes.length = _
    omega

/-- The three ranges of the letters and digits of ASCII. -/
theorem isAlphanum_cases {c : Char} (h : c.isAlphanum = true) :
    (65 ≤ c.toNat ∧ c.toNat ≤ 90) ∨ (97 ≤ c.toNat ∧ c.toNat ≤ 122) ∨
      (48 ≤ c.toNat ∧ c.toNat ≤ 57) := by
  change ((decide ('A'.val ≤ c.val ∧ c.val ≤ 'Z'.val) ||
    (decide ('a'.val ≤ c.val) && decide (c.val ≤ 'z'.val))) ||
    (decide ('0'.val ≤ c.val) && decide (c.val ≤ '9'.val))) = true at h
  simp only [Bool.or_eq_true, Bool.and_eq_true, decide_eq_true_eq, UInt32.le_iff_toNat_le] at h
  obtain (h | h) | h := h
  · exact .inl h
  · exact .inr (.inl h)
  · exact .inr (.inr h)

/-- A fact about each character of a text, by a check of the text. -/
theorem forall_mem_of_all {P : Char → Prop} [DecidablePred P] {text : List Char}
    (h : text.all (fun c => decide (P c)) = true) : ∀ c ∈ text, P c :=
  fun c hc => of_decide_eq_true (List.all_eq_true.1 h c hc)

/-- `str.isspace` -/
def isSpace (c : Char) : Bool :=
  decide ((9 ≤ c.toNat ∧ c.toNat ≤ 13) ∨ (28 ≤ c.toNat ∧ c.toNat ≤ 32) ∨ c.toNat = 0x85 ∨
    c.toNat = 0xA0 ∨ c.toNat = 0x1680 ∨ (0x2000 ≤ c.toNat ∧ c.toNat ≤ 0x200A) ∨
    c.toNat = 0x2028 ∨ c.toNat = 0x2029 ∨ c.toNat = 0x202F ∨ c.toNat = 0x205F ∨ c.toNat = 0x3000)

section Strip

variable {space space' : Char → Bool} {text : List Char}

/-- The text without the spaces at its two ends. -/
def strip (space : Char → Bool) (text : List Char) : List Char :=
  (text.dropWhile space).rdropWhile space

theorem strip_eq_self_iff :
    strip space text = text ↔ text.dropWhile space = text ∧ text.rdropWhile space = text := by
  constructor
  · intro h
    have hprefix := List.rdropWhile_prefix space (l := text.dropWhile space)
    have hsuffix := List.dropWhile_suffix space (l := text)
    have hlen : text.length ≤ (text.dropWhile space).length := by
      have hle := hprefix.length_le
      rw [show (text.dropWhile space).rdropWhile space = text from h] at hle
      exact hle
    have hdrop : text.dropWhile space = text := hsuffix.eq_of_length_le hlen
    rw [strip, hdrop] at h
    exact ⟨hdrop, h⟩
  · rintro ⟨hdrop, hrdrop⟩
    rw [strip, hdrop, hrdrop]

theorem strip_idem : strip space (strip space text) = strip space text := by
  rw [strip_eq_self_iff]
  constructor
  · have hprefix : strip space text <+: text.dropWhile space := List.rdropWhile_prefix _ _
    rw [List.dropWhile_eq_self_iff]
    intro hl hspace
    have hl' : 0 < (text.dropWhile space).length := Nat.lt_of_lt_of_le hl hprefix.length_le
    have hhead := List.dropWhile_get_zero_not space text hl'
    rw [List.get_eq_getElem, ← hprefix.getElem hl] at hhead
    exact hhead hspace
  · exact List.rdropWhile_idempotent _ _

/-- What is trimmed of more characters is trimmed of fewer. -/
theorem strip_eq_self_mono (h : ∀ c, space' c = true → space c = true)
    (htext : strip space text = text) : strip space' text = text := by
  rw [strip_eq_self_iff, List.dropWhile_eq_self_iff, List.rdropWhile_eq_self_iff] at htext ⊢
  exact ⟨fun hl hc => htext.1 hl (h _ hc), fun hl hc => htext.2 hl (h _ hc)⟩

end Strip

end CadPlot.Text
