import Workbench.Json.Basic
import Workbench.Text.Numeral
/-!
# Writing JSON

Values are written over several lines, two blanks to a level. An empty list or object stays on
its line.
-/
namespace Workbench.Json

/-- A character inside quotation marks. Control characters without a short form are written by
their number. -/
def escapeChar (c : Char) : List Char :=
  if c = '"' then ['\\', '"']
  else if c = '\\' then ['\\', '\\']
  else if c = '\n' then ['\\', 'n']
  else if c = '\r' then ['\\', 'r']
  else if c = '\t' then ['\\', 't']
  else if c.toNat = 8 then ['\\', 'b']
  else if c.toNat = 12 then ['\\', 'f']
  else if c.toNat < 32 then
    ['\\', 'u', '0', '0', Text.digitChar (c.toNat / 16), Text.digitChar (c.toNat % 16)]
  else [c]

def quote (s : String) : List Char := '"' :: s.toList.flatMap escapeChar ++ ['"']

def newline (level : Nat) : List Char := '\n' :: List.replicate (2 * level) ' '

mutual

def chars (level : Nat) : Json → List Char
  | .null => "null".toList
  | .bool b => if b then "true".toList else "false".toList
  | .whole i => (Text.decimalInt i).toList
  | .real => "0.0".toList
  | .string s => quote (s.getD "")
  | .array [] => "[]".toList
  | .array (item :: rest) =>
    '[' :: newline (level + 1) ++ chars (level + 1) item ++ itemChars (level + 1) rest ++
      newline level ++ [']']
  | .object [] => "\x7b\x7d".toList
  | .object ((name, value) :: rest) =>
    '\x7b' :: newline (level + 1) ++ quote (name.getD "") ++ ": ".toList ++
      chars (level + 1) value ++ memberChars (level + 1) rest ++ newline level ++ ['\x7d']

def itemChars (level : Nat) : List Json → List Char
  | [] => []
  | item :: rest => ',' :: newline level ++ chars level item ++ itemChars level rest

def memberChars (level : Nat) : List (Option String × Json) → List Char
  | [] => []
  | (name, value) :: rest =>
    ',' :: newline level ++ quote (name.getD "") ++ ": ".toList ++ chars level value ++
      memberChars level rest

end

def render (v : Json) : String := String.ofList (chars 0 v)

end Workbench.Json
