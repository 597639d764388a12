import CadPlot.Lib.Json

/-!
# Indented JSON texts

JSON laid out over lines, two spaces a level. A leaf is any text of one line.
-/

namespace CadPlot

inductive Doc where
  | leaf (text : List Char)
  | arr (items : List Doc)
  | obj (fields : List (String × Doc))

namespace Doc

def string (s : String) : Doc := .leaf (Json.renderString Json.modelStyle s)

def nat (n : Nat) : Doc := .leaf (Json.renderInt n)

def null : Doc := .leaf "null".toList

def optional (value : Option String) : Doc := value.elim null string

section Render

variable (newline : List Char)

/-- The start of a line at a level. -/
def line (level : Nat) : List Char := newline ++ List.replicate (2 * level) ' '

mutual

def render (level : Nat) : Doc → List Char
  | .leaf text => text
  | .arr [] => "[]".toList
  | .arr (item :: items) =>
    '[' :: (line newline (level + 1) ++ render (level + 1) item ++ renderItems (level + 1) items ++
      line newline level ++ [']'])
  | .obj [] => "\x7b\x7d".toList
  | .obj ((key, value) :: fields) =>
    '\x7b' :: (line newline (level + 1) ++ Json.renderString Json.modelStyle key ++ ": ".toList ++
      render (level + 1) value ++ renderFields (level + 1) fields ++ line newline level ++
      ['\x7d'])

/-- The items after the first. -/
def renderItems (level : Nat) : List Doc → List Char
  | [] => []
  | item :: items => ',' :: (line newline level ++ render level item ++ renderItems level items)

def renderFields (level : Nat) : List (String × Doc) → List Char
  | [] => []
  | (key, value) :: fields =>
    ',' :: (line newline level ++ Json.renderString Json.modelStyle key ++ ": ".toList ++
      render level value ++ renderFields level fields)

end

end Render

end Doc

end CadPlot
