import CadPlot.Lib.Outcome
import CadPlot.Lib.Text

/-!
# The pieces of a drawing text

`parts` splits a text into literal pieces, which may be translated, and protected
ones: MTEXT controls, fields, placeholders, percent codes and numbers. Formatting
that it does not know is an error.
-/

namespace CadPlot.TextPlan

/-- What the Unicode tables say of code points. -/
structure Alphabet where
  isAlpha : Nat → Bool
  isNumeric : Nat → Bool
  /-- `\\d` in a regular expression -/
  isDecimal : Nat → Bool
  isSpace : Nat → Bool
  casefold : Nat → List Nat

structure Piece where
  editable : Bool
  raw : List Char
  deriving DecidableEq

def isHexDigit (c : Char) : Bool :=
  c.isDigit || decide ('a' ≤ c ∧ c ≤ 'f') || decide ('A' ≤ c ∧ c ≤ 'F')

def hexValue (c : Char) : Nat :=
  if c.isDigit then c.toNat - 48 else if 'a' ≤ c then c.toNat - 87 else c.toNat - 55

/-- `\\U+` and four hexadecimal digits, with their code point. It may be a surrogate. -/
def unicodeEscape : List Char → Option (List Char × Nat)
  | '\\' :: 'U' :: '+' :: a :: b :: c :: d :: _ =>
    if isHexDigit a && isHexDigit b && isHexDigit c && isHexDigit d then
      some (['\\', 'U', '+', a, b, c, d],
        hexValue a * 4096 + hexValue b * 256 + hexValue c * 16 + hexValue d)
    else none
  | _ => none

/-- The code points of a text from a position on, some characters of which are done. -/
def decodedFrom : Nat → List Char → List Nat
  | _, [] => []
  | skip + 1, _ :: text => decodedFrom skip text
  | 0, c :: text =>
    match unicodeEscape (c :: text) with
    | some (_, code) => code :: decodedFrom 6 text
    | none => c.toNat :: decodedFrom 0 text

/-- The code points of a text in which every escape stands for its character. -/
def decoded (text : List Char) : List Nat := decodedFrom 0 text

/-- The rest of a field up to the mark that closes it. -/
def closeField : Nat → List Char → Option (List Char)
  | 0, _ => some []
  | _ + 1, [] => none
  | depth + 1, '%' :: '<' :: text => (closeField (depth + 2) text).map ('%' :: '<' :: ·)
  | depth + 1, '>' :: '%' :: text => (closeField depth text).map ('>' :: '%' :: ·)
  | depth + 1, c :: text => (closeField (depth + 1) text).map (c :: ·)

/-- `[^;]*;` -/
def throughSemicolon : List Char → Option (List Char)
  | [] => none
  | c :: text => if c = ';' then some [ ';'] else (throughSemicolon text).map (c :: ·)

/-- The characters that stand for measures. -/
def isSymbol (c : Char) : Bool := "⌀Øø°±×²³".toList.contains c

def isBreak (c : Char) : Bool := "\x7b\x7d\r\n\t".toList.contains c

/-- The controls with a value up to a semicolon. -/
def takesValue (c : Char) : Bool := "ACcFfHhQqTtWwpaS".toList.contains c

/-- The controls that stand alone. One of them takes a value where a semicolon follows. -/
def standsAlone (c : Char) : Bool := "PpLlOoKkXx~\x7b\x7d\\".toList.contains c

def isSign (c : Char) : Bool := c = '+' || c = '-'

def isSeparator (c : Char) : Bool := ".,/:-".toList.contains c

section Pieces

variable (alphabet : Alphabet)

def isDecimal (c : Char) : Bool := alphabet.isDecimal c.toNat

/-- `\d+`, and after each separator `\d+` again, of a text that begins with a digit. -/
def takeNumber : List Char → List Char
  | [] => []
  | [c] => if isDecimal alphabet c then [c] else []
  | c :: d :: text =>
    if isDecimal alphabet c || isSeparator c && isDecimal alphabet d then
      c :: takeNumber (d :: text)
    else []

/-- `%%` and a letter, or three digits -/
def percentCode : List Char → Option (List Char)
  | '%' :: '%' :: c :: text =>
    if c.isAlpha then some ['%', '%', c]
    else
      match text with
      | d :: e :: _ =>
        if isDecimal alphabet c && isDecimal alphabet d && isDecimal alphabet e then
          some ['%', '%', c, d, e]
        else none
      | _ => none
  | _ => none

/-- A number with or without a sign. -/
def number : List Char → Option (List Char)
  | [] => none
  | c :: text =>
    if isDecimal alphabet c then some (takeNumber alphabet (c :: text))
    else if isSign c && text.head?.any (isDecimal alphabet) then
      some (c :: takeNumber alphabet text)
    else none

/-- The regular expression `protected`. -/
def protectedToken : List Char → Option (List Char)
  | [] => none
  | '\\' :: text =>
    match text with
    | [] => none
    | c :: rest =>
      match if takesValue c then throughSemicolon rest else none with
      | some value => some ('\\' :: c :: value)
      | none => if standsAlone c then some ['\\', c] else none
  | '<' :: '>' :: _ => some ['<', '>']
  | c :: text =>
    if isBreak c || isSymbol c then some [c]
    else (percentCode alphabet (c :: text)).or (number alphabet (c :: text))

def isProtectedCode (code : Nat) : Bool :=
  alphabet.isNumeric code ||
    ("⌀Øø°±×²³\x7b\x7d\\%\r\n\t".toList.map Char.toNat).contains code || decide (code < 32)

/-- The next token, of a text that is not empty. -/
def nextPiece (text : List Char) : Except String Piece :=
  if text.take 2 = ['%', '<'] then
    match closeField 1 (text.drop 2) with
    | none => .error "Unclosed AutoCAD field; manual review required."
    | some field => .ok ⟨false, '%' :: '<' :: field⟩
  else
    match unicodeEscape text with
    | some (escape, code) => .ok ⟨!isProtectedCode alphabet code, escape⟩
    | none =>
      match protectedToken alphabet text with
      | some token => .ok ⟨false, token⟩
      | none =>
        if text.head? = some '\\' then
          .error "Unsupported AutoCAD text control; manual review required."
        else .ok ⟨true, text.take 1⟩

/-- Literal pieces are joined. -/
def addPiece (result : List Piece) (piece : Piece) : List Piece :=
  match result.getLast? with
  | some last =>
    if last.editable && piece.editable then result.dropLast ++ [⟨true, last.raw ++ piece.raw⟩]
    else result ++ [piece]
  | none => [piece]

/-- The loop of `parts`, with the characters that are still to be skipped. -/
def partsFrom : Nat → List Char → List Piece → Except String (List Piece)
  | _, [], result => .ok result
  | skip + 1, _ :: text, result => partsFrom skip text result
  | 0, c :: text, result => do
    let piece ← nextPiece alphabet (c :: text)
    partsFrom (piece.raw.length - 1) text (addPiece result piece)

def parts (raw : String) : Except String (List Piece) := partsFrom alphabet 0 raw.toList []

end Pieces

section Example

/-- The letters and digits of ASCII. -/
def asciiAlphabet : Alphabet where
  isAlpha c := decide (65 ≤ c ∧ c ≤ 90 ∨ 97 ≤ c ∧ c ≤ 122)
  isNumeric c := decide (48 ≤ c ∧ c ≤ 57)
  isDecimal c := decide (48 ≤ c ∧ c ≤ 57)
  isSpace c := decide (c = 32 ∨ 9 ≤ c ∧ c ≤ 13)
  casefold c := [if 65 ≤ c ∧ c ≤ 90 then c + 32 else c]

example : parts asciiAlphabet "KAPI\\PNo:-12,5 \x7b" = .ok
    [⟨true, "KAPI".toList⟩, ⟨false, "\\P".toList⟩, ⟨true, "No:".toList⟩,
      ⟨false, "-12,5".toList⟩, ⟨true, " ".toList⟩, ⟨false, "\x7b".toList⟩] := by
  decide +kernel

end Example

end CadPlot.TextPlan
