import Mathlib.Data.List.Sort

/-!
# JSON texts

Values and the texts that a serialiser writes for them: the fields of an object
in the order given, separators and the escaping of characters by style.
-/

namespace CadPlot

inductive Json where
  | null
  | bool (b : Bool)
  | int (n : Int)
  | str (s : String)
  | arr (items : List Json)
  | obj (fields : List (String × Json))

namespace Json

/-- How a serialiser writes characters, and what it writes between items and after keys. -/
structure Style where
  escape : Char → List Char
  itemSeparator : List Char
  keySeparator : List Char

def hexDigit (n : Nat) : Char :=
  if n < 10 then Char.ofNat (48 + n) else Char.ofNat (87 + n)

/-- The four hexadecimal digits of a UTF-16 code unit. -/
def hex4 (n : Nat) : List Char :=
  [hexDigit (n / 4096 % 16), hexDigit (n / 256 % 16), hexDigit (n / 16 % 16), hexDigit (n % 16)]

def unicodeEscape (n : Nat) : List Char := '\\' :: 'u' :: hex4 n

/-- A character as one escape, or as the two of its surrogate pair. -/
def utf16Escape (c : Char) : List Char :=
  if c.toNat < 0x10000 then unicodeEscape c.toNat
  else
    unicodeEscape (0xd800 + (c.toNat - 0x10000) / 0x400) ++
      unicodeEscape (0xdc00 + (c.toNat - 0x10000) % 0x400)

/-- The escapes of one letter. -/
def shortEscape (c : Char) : Option Char :=
  match c with
  | '"' => some '"'
  | '\\' => some '\\'
  | '\n' => some 'n'
  | '\r' => some 'r'
  | '\t' => some 't'
  | '\x08' => some 'b'
  | '\x0c' => some 'f'
  | _ => none

/-- Escape what has to be, and whatever is outside a range. -/
def escapeOutside (plain : Char → Bool) (c : Char) : List Char :=
  match shortEscape c with
  | some letter => ['\\', letter]
  | none => if plain c then [c] else utf16Escape c

def isPrintableAscii (c : Char) : Bool := 32 ≤ c.toNat ∧ c.toNat ≤ 126

def renderString (style : Style) (s : String) : List Char :=
  '"' :: (s.toList.flatMap style.escape ++ ['"'])

def renderInt (n : Int) : List Char := (toString n).toList

mutual

def render (style : Style) : Json → List Char
  | .null => "null".toList
  | .bool true => "true".toList
  | .bool false => "false".toList
  | .int n => renderInt n
  | .str s => renderString style s
  | .arr items => '[' :: (renderItems style items ++ [']'])
  | .obj fields => '\x7b' :: (renderFields style fields ++ ['\x7d'])

def renderItems (style : Style) : List Json → List Char
  | [] => []
  | [item] => render style item
  | item :: items => render style item ++ style.itemSeparator ++ renderItems style items

def renderFields (style : Style) : List (String × Json) → List Char
  | [] => []
  | [(key, value)] => renderString style key ++ style.keySeparator ++ render style value
  | (key, value) :: fields =>
    renderString style key ++ style.keySeparator ++ render style value ++ style.itemSeparator ++
      renderFields style fields

end

/-- `json.dumps` with its defaults -/
def asciiStyle : Style := ⟨escapeOutside isPrintableAscii, ", ".toList, ": ".toList⟩

/-- `json.dumps` with the separators of no space -/
def compactAsciiStyle : Style := ⟨escapeOutside isPrintableAscii, [','], [':']⟩

mutual

/-- `sort_keys=True`: the fields of every object in the order of their keys. -/
def sortKeys : Json → Json
  | .arr items => .arr (sortItems items)
  | .obj fields => .obj ((sortFields fields).insertionSort fun a b => a.1 ≤ b.1)
  | value => value

def sortItems : List Json → List Json
  | [] => []
  | item :: items => sortKeys item :: sortItems items

def sortFields : List (String × Json) → List (String × Json)
  | [] => []
  | (key, value) :: fields => (key, sortKeys value) :: sortFields fields

end

/-- `model_dump_json`: no spaces, and no escape but what JSON demands. -/
def modelStyle : Style := ⟨escapeOutside fun c => 32 ≤ c.toNat, [','], [':']⟩

def optional (value : Option String) : Json := value.elim .null .str

end Json

end CadPlot
