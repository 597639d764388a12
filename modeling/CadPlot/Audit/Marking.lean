import CadPlot.Lib.ContentStream
import CadPlot.Lib.Outcome

/-!
# Marking evidence of a PDF page

`pdf_page_marking_evidence` and the scan of the page content that it makes. The
position in the content is what is left of it.
-/

namespace CadPlot.Audit

open ContentStream

inductive PdfError where
  | pdfRead (message : String)
  | limitReached (message : String)
  deriving DecidableEq, Repr

def maxDecodedPageContentBytes : Nat := 64 * 1024 * 1024

def maxMarkingScanBytes : Nat := 8 * 1024 * 1024

def ascii (text : String) : Bytes := text.toList.map fun c => UInt8.ofNat c.toNat

/-- Operators are compared byte by byte. -/
instance decidableMem (w : Bytes) (ws : List Bytes) : Decidable (w ∈ ws) := inferInstance

def inlineImage : Bytes := ascii "BI"

def pdfMarkingOperators : List Bytes :=
  ["S", "s", "f", "F", "f*", "B", "B*", "b", "b*", "sh", "Tj", "TJ", "'", "\"", "Do", "BI",
    "INLINE IMAGE"].map ascii

/-- What is left behind a literal string, from within so many parentheses. -/
def skipPdfLiteralString : Nat → Bytes → Option Bytes
  | 0, rest => some rest
  | _ + 1, [] => none
  | depth + 1, current :: rest =>
    if current = 0x5C then
      match rest with
      | [] => none
      | _ :: rest => skipPdfLiteralString (depth + 1) rest
    else if current = 0x28 then skipPdfLiteralString (depth + 2) rest
    else if current = 0x29 then skipPdfLiteralString depth rest
    else skipPdfLiteralString (depth + 1) rest

theorem skipPdfLiteralString_length {depth : Nat} {content rest : Bytes}
    (h : skipPdfLiteralString depth content = some rest) : rest.length ≤ content.length := by
  fun_induction skipPdfLiteralString depth content with
  | case1 => exact (Option.some.inj h) ▸ le_rfl
  | case2 => cases h
  | case3 => cases h
  | case4 depth b rest' ih =>
    have hle := ih h
    simp only [List.length_cons]
    omega
  | case5 _ _ _ ih => exact (ih h).trans (Nat.le_succ _)
  | case6 _ _ _ _ ih => exact (ih h).trans (Nat.le_succ _)
  | case7 _ _ _ _ _ _ ih => exact (ih h).trans (Nat.le_succ _)

theorem length_dropWhile_le (p : UInt8 → Bool) (content : Bytes) :
    (content.dropWhile p).length ≤ content.length := (List.dropWhile_suffix p).length_le

/-- `_count_marking_operators`, with the open containers and whether a mark was found. -/
def scan (containers : List Container) (found : Bool) (content : Bytes) : Except PdfError Nat :=
  match content with
  | [] =>
    if containers ≠ [] then
      .error (.pdfRead "Unterminated container in PDF content stream.")
    else .ok found.toNat
  | current :: tail =>
    if isWhitespace current then scan containers found tail
    else if current = 0x25 then scan containers found (tail.dropWhile (!isNewline ·))
    else if current = 0x28 then
      match _hskip : skipPdfLiteralString 1 tail with
      | none => .error (.pdfRead "Unterminated literal string in PDF content stream.")
      | some rest => scan containers found rest
    else if current = 0x3C ∧ tail.head? = some 0x3C then
      scan (.dictionary :: containers) found tail.tail
    else if current = 0x3C then
      match _hdrop : tail.dropWhile (· != 0x3E) with
      | [] => .error (.pdfRead "Unterminated hexadecimal string in PDF content stream.")
      | _ :: rest => scan containers found rest
    else if current = 0x2F then scan containers found (tail.dropWhile isRegular)
    else if current = 0x5B then scan (.array :: containers) found tail
    else if current = 0x5D then
      match containers with
      | .array :: containers => scan containers found tail
      | _ => .error (.pdfRead "Unbalanced array in PDF content stream.")
    else if current = 0x3E ∧ tail.head? = some 0x3E then
      match containers with
      | .dictionary :: containers => scan containers found tail.tail
      | _ => .error (.pdfRead "Unbalanced dictionary in PDF content stream.")
    else if isDelimiter current then
      .error (.pdfRead "Unexpected delimiter in PDF content stream.")
    else
      let operator := current :: tail.takeWhile isRegular
      let rest := tail.dropWhile isRegular
      if containers = [] ∧ operator ∈ pdfMarkingOperators then
        if operator = inlineImage then .ok 1 else scan containers true rest
      else scan containers found rest
termination_by content.length
decreasing_by
  all_goals simp only [List.length_cons]
  all_goals first
    | exact Nat.lt_succ_of_le (length_dropWhile_le _ _)
    | exact Nat.lt_succ_of_le (skipPdfLiteralString_length ‹_›)
    | (have hle := length_dropWhile_le (· != 0x3E) tail
       rw [‹tail.dropWhile _ = _›, List.length_cons] at hle
       omega)
    | (rw [List.length_tail]; omega)
    | omega

def countMarkingOperators (content : Bytes) : Except PdfError Nat := scan [] false content

structure MarkingEvidence where
  contentStreamBytes : Nat
  markingOperatorCount : Nat
  deriving DecidableEq, Repr

/-- A page without content has no bytes and no marks. -/
def pdfPageMarkingEvidence : Option Bytes → Except PdfError MarkingEvidence
  | none => .ok ⟨0, 0⟩
  | some content => do
    ensure (decide (content.length ≤ maxDecodedPageContentBytes)) (.limitReached
      "Decoded page content exceeds the 64 MiB CadPlot audit safety limit.")
    match countMarkingOperators (content.take maxMarkingScanBytes) with
    | .error error =>
      .error (if maxMarkingScanBytes < content.length then .limitReached
        "No complete marking evidence was found within the 8 MiB scan limit." else error)
    | .ok count => do
      ensure (!(decide (count < 1) && decide (maxMarkingScanBytes < content.length))) (.limitReached
        "No marking operator was found within the 8 MiB scan limit.")
      pure ⟨content.length, count⟩

end CadPlot.Audit
