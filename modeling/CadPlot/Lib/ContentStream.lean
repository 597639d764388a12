import Mathlib.Data.List.TakeWhile

/-!
# The lexical grammar of PDF content streams

Lexemes of a content stream, what may follow each of them, and the nesting of
arrays and dictionaries. A word is a maximal run of regular bytes.
-/

namespace CadPlot.ContentStream

abbrev Bytes := List UInt8

def isWhitespace (b : UInt8) : Bool := [0, 9, 10, 12, 13, 32].contains b

/-- `()<>[]{}/%` -/
def isDelimiter (b : UInt8) : Bool :=
  [0x28, 0x29, 0x3C, 0x3E, 0x5B, 0x5D, 0x7B, 0x7D, 0x2F, 0x25].contains b

def isRegular (b : UInt8) : Bool := !isWhitespace b && !isDelimiter b

def isNewline (b : UInt8) : Bool := b == 10 || b == 13

inductive Container where
  | array | dictionary
  deriving DecidableEq, Repr

inductive Lexeme where
  | white (b : UInt8)
  | comment (text : Bytes)
  | literal (text : Bytes)
  | hexadecimal (text : Bytes)
  | name (text : Bytes)
  | «open» (c : Container)
  | close (c : Container)
  | word (text : Bytes)
  deriving DecidableEq

/-- The text of a literal string: its parentheses are balanced, and a backslash takes the next byte
along, whatever that is. -/
inductive Balanced : Bytes → Prop where
  | nil : Balanced []
  | plain {b : UInt8} {text : Bytes} : b ≠ 0x28 → b ≠ 0x29 → b ≠ 0x5C → Balanced text →
      Balanced (b :: text)
  | escape {b : UInt8} {text : Bytes} : Balanced text → Balanced (0x5C :: b :: text)
  | nested {inner text : Bytes} : Balanced inner → Balanced text →
      Balanced (0x28 :: inner ++ 0x29 :: text)

/-- The run of bytes with the property ends here. -/
def Stops (p : UInt8 → Bool) (rest : Bytes) : Prop := ∀ b tail, rest = b :: tail → p b = false

/-- A lexeme at the head of the content, and what is left behind it. -/
inductive Lex : Bytes → Lexeme → Bytes → Prop where
  | white {b : UInt8} {rest : Bytes} : isWhitespace b = true → Lex (b :: rest) (.white b) rest
  | comment {text rest : Bytes} : text.all (!isNewline ·) = true → Stops (!isNewline ·) rest →
      Lex (0x25 :: (text ++ rest)) (.comment text) rest
  | literal {text rest : Bytes} : Balanced text → Lex (0x28 :: (text ++ 0x29 :: rest)) (.literal text) rest
  | hexadecimal {text rest : Bytes} : text.all (· != 0x3E) = true →
      Stops (· == 0x3C) (text ++ 0x3E :: rest) →
      Lex (0x3C :: (text ++ 0x3E :: rest)) (.hexadecimal text) rest
  | name {text rest : Bytes} : text.all isRegular = true → Stops isRegular rest →
      Lex (0x2F :: (text ++ rest)) (.name text) rest
  | openArray {rest : Bytes} : Lex (0x5B :: rest) (.open .array) rest
  | closeArray {rest : Bytes} : Lex (0x5D :: rest) (.close .array) rest
  | openDictionary {rest : Bytes} : Lex (0x3C :: 0x3C :: rest) (.open .dictionary) rest
  | closeDictionary {rest : Bytes} : Lex (0x3E :: 0x3E :: rest) (.close .dictionary) rest
  | word {b : UInt8} {text rest : Bytes} : isRegular b = true → text.all isRegular = true →
      Stops isRegular rest → Lex (b :: (text ++ rest)) (.word (b :: text)) rest

/-- No lexeme is here: a string without its end, or a delimiter that starts nothing. -/
inductive Malformed : Bytes → Prop where
  | literal {rest : Bytes} : (∀ text after, Balanced text → rest ≠ text ++ 0x29 :: after) →
      Malformed (0x28 :: rest)
  | hexadecimal {rest : Bytes} : Stops (· == 0x3C) rest → rest.all (· != 0x3E) = true →
      Malformed (0x3C :: rest)
  | angle {rest : Bytes} : Stops (· == 0x3E) rest → Malformed (0x3E :: rest)
  | stray {b : UInt8} {rest : Bytes} : b = 0x29 ∨ b = 0x7B ∨ b = 0x7D → Malformed (b :: rest)

/-- The lexemes of a content, up to what is left. -/
inductive Lexes : Bytes → List Lexeme → Bytes → Prop where
  | nil {content : Bytes} : Lexes content [] content
  | cons {content middle rest : Bytes} {t : Lexeme} {ts : List Lexeme} : Lex content t middle →
      Lexes middle ts rest → Lexes content (t :: ts) rest

/-- Lexemes that are neither words nor brackets. -/
def Lexeme.isPlain : Lexeme → Bool
  | .open _ | .close _ | .word _ => false
  | _ => true

/-- Lexemes whose containers are all closed, with their words outside of containers. -/
inductive Nested : List Lexeme → List Bytes → Prop where
  | nil : Nested [] []
  | plain {t : Lexeme} {ts : List Lexeme} {ws : List Bytes} : t.isPlain = true → Nested ts ws →
      Nested (t :: ts) ws
  | word {w : Bytes} {ts : List Lexeme} {ws : List Bytes} : Nested ts ws →
      Nested (.word w :: ts) (w :: ws)
  | container {c : Container} {inner ts : List Lexeme} {ws' ws : List Bytes} : Nested inner ws' →
      Nested ts ws → Nested (.open c :: (inner ++ .close c :: ts)) ws

/-- Lexemes that leave containers open, the innermost first. -/
inductive Opens : List Lexeme → List Container → List Bytes → Prop where
  | nested {ts : List Lexeme} {ws : List Bytes} : Nested ts ws → Opens ts [] ws
  | «open» {c : Container} {ts inner : List Lexeme} {cs : List Container} {ws ws' : List Bytes} :
      Opens ts cs ws → Nested inner ws' → Opens (ts ++ .open c :: inner) (c :: cs) ws

theorem Nested.append {a b : List Lexeme} {ws vs : List Bytes} (h : Nested a ws)
    (h' : Nested b vs) : Nested (a ++ b) (ws ++ vs) := by
  induction h with
  | nil => exact h'
  | plain hplain _ ih => exact .plain hplain ih
  | word _ ih => exact .word ih
  | @container c inner ts ws' ws hinner _ _ ih =>
    have hassoc : (Lexeme.open c :: (inner ++ .close c :: ts)) ++ b =
        .open c :: (inner ++ .close c :: (ts ++ b)) := by simp
    rw [hassoc]
    exact .container hinner ih

variable {ts : List Lexeme} {cs : List Container} {ws : List Bytes}

/-- Lexemes with closed containers go into the innermost one that is open. -/
theorem Opens.append {inner : List Lexeme} {vs : List Bytes} (h : Opens ts cs ws)
    (hinner : Nested inner vs) : Opens (ts ++ inner) cs (if cs = [] then ws ++ vs else ws) := by
  cases h with
  | nested h => exact .nested (h.append hinner)
  | @«open» c ts inner' cs ws ws' hopens hnested =>
    rw [List.append_assoc, List.cons_append, if_neg (List.cons_ne_nil _ _)]
    exact .open hopens (hnested.append hinner)

theorem Opens.close {c : Container} (h : Opens ts (c :: cs) ws) :
    Opens (ts ++ [.close c]) cs ws := by
  cases h with
  | @«open» _ ts inner _ _ ws' hopens hnested =>
    have hunit : Nested (.open c :: (inner ++ [.close c])) [] := .container hnested .nil
    have h := hopens.append hunit
    rw [List.append_nil, ite_self] at h
    rw [List.append_assoc, List.cons_append]
    exact h

theorem Lexes.append {content middle rest : Bytes} {ts' : List Lexeme} (h : Lexes content ts middle)
    (h' : Lexes middle ts' rest) : Lexes content (ts ++ ts') rest := by
  induction h with
  | nil => exact h'
  | cons hlex _ ih => exact .cons hlex (ih h')

/-- A lexeme is not empty. -/
theorem Lex.length_lt {content rest : Bytes} {t : Lexeme} (h : Lex content t rest) :
    rest.length < content.length := by
  cases h <;> simp only [List.length_cons, List.length_append] <;> omega

theorem Lexes.length_le {content rest : Bytes} (h : Lexes content ts rest) :
    rest.length ≤ content.length := by
  induction h with
  | nil => exact le_rfl
  | cons hlex _ ih => exact ih.trans hlex.length_lt.le

theorem stops_dropWhile (p : UInt8 → Bool) (text : Bytes) : Stops p (text.dropWhile p) := by
  intro b tail h
  have hhead := List.head?_dropWhile_not p text
  rw [h] at hhead
  simpa using hhead

/-- Text followed by what stops its run is the run. -/
theorem dropWhile_append_stops {p : UInt8 → Bool} {text rest : Bytes} (htext : text.all p = true)
    (hrest : Stops p rest) : (text ++ rest).dropWhile p = rest := by
  rw [List.dropWhile_append_of_pos (by simpa using htext)]
  cases rest with
  | nil => rfl
  | cons b tail => rw [List.dropWhile_cons_of_neg (by simp [hrest b tail rfl])]

theorem takeWhile_append_stops {p : UInt8 → Bool} {text rest : Bytes} (htext : text.all p = true)
    (hrest : Stops p rest) : (text ++ rest).takeWhile p = text := by
  rw [List.takeWhile_append_of_pos (by simpa using htext)]
  cases rest with
  | nil => simp
  | cons b tail => rw [List.takeWhile_cons_of_neg (by simp [hrest b tail rfl]), List.append_nil]

end CadPlot.ContentStream
