/-!
# TOML values

What can stand behind a key. Dates and times, and numbers that are not whole, are kept only as
that.
-/
namespace Workbench

/-- A TOML value. -/
inductive Toml where
  | text (s : String)
  | whole (i : Int)
  | real
  | bool (b : Bool)
  | moment
  | list (items : List Toml)
  | table (entries : List (String × Toml))

namespace Toml

/-- What can be read at the front of a text, and the text that is left. -/
abbrev Reader (α : Type) := List Char → Option (α × List Char)

def nestingLimit : Nat := 80

def isSpace (c : Char) : Bool := c == ' ' || c == '\t'

def skipSpace (s : List Char) : List Char := s.dropWhile isSpace

/-- Whether a character can stand in a comment or a text as it is: all but control characters. -/
def isPlain (c : Char) : Bool := c == '\t' || (32 ≤ c.toNat && c.toNat != 127)

/-- How many characters the line break at the front of a text has, if there is one. -/
def breakLength : List Char → Nat
  | '\n' :: _ => 1
  | '\r' :: '\n' :: _ => 2
  | _ => 0

def dropBreak (s : List Char) : List Char := s.drop (breakLength s)

/-- A text without the comment at its front; the line break behind it is left. -/
def dropComment : List Char → List Char
  | '#' :: rest => rest.dropWhile isPlain
  | s => s

end Toml

end Workbench
