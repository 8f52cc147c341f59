import Workbench.Text.Basic
import Workbench.Text.Numeral
import Workbench.Toml.Basic
/-!
# Writing TOML

A document is written section by section. A text is written in the plainest form that can hold
it: between quotation marks, between apostrophes, or over several lines. A list of more than one
item has each item on its own line.
-/
namespace Workbench.Toml

/-- The forms of a quoted text. -/
inductive QuoteForm where
  | line
  | raw
  | block
  | rawBlock
  deriving DecidableEq, Repr

namespace QuoteForm

/-- The length of the longest run of a mark; the second argument is the run so far. -/
def longestRun (mark : Char) : Nat → List Char → Nat
  | run, [] => run
  | run, c :: rest =>
    if c = mark then longestRun mark (run + 1) rest else max run (longestRun mark 0 rest)

/-- Whether a character can only be written by its number or a letter. -/
def isControl (c : Char) : Bool :=
  (c.toNat < 32 && c != '\t' && c != '\n') || c.toNat == 127

def choose (s : List Char) : QuoteForm :=
  let control := s.any isControl
  let newline := s.contains '\n'
  let backslash := s.contains '\\'
  let quotes := longestRun '"' 0 s
  let apostrophes := longestRun '\'' 0 s
  if !control && !backslash && quotes = 0 && !newline then .line
  else if !control && apostrophes = 0 && !newline then .raw
  else if !control && !backslash && quotes ≤ 2 then .block
  else if !control && apostrophes ≤ 2 then .rawBlock
  else if newline then .block
  else .line

end QuoteForm

def capitalDigit (n : Nat) : Char := (Text.digitChar n).toUpper

def escapeChar (c : Char) : List Char :=
  if c = '\\' then ['\\', '\\']
  else if c = '\n' then ['\\', 'n']
  else if c = '\r' then ['\\', 'r']
  else if c = '\t' then ['\\', 't']
  else if c.toNat = 8 then ['\\', 'b']
  else if c.toNat = 12 then ['\\', 'f']
  else if c.toNat < 32 || c.toNat = 127 then
    ['\\', 'u', '0', '0', capitalDigit (c.toNat / 16), capitalDigit (c.toNat % 16)]
  else [c]

/-- A text between quotation marks. In a block, line breaks and up to two quotation marks in a
row stand as they are; `run` counts those just written. -/
def escaped (block : Bool) : (run : Nat) → List Char → List Char
  | _, [] => []
  | run, c :: rest =>
    if c = '"' then
      if block && run < 2 then '"' :: escaped block (run + 1) rest
      else '\\' :: '"' :: escaped block 0 rest
    else if block && c = '\n' then '\n' :: escaped block 0 rest
    else escapeChar c ++ escaped block 0 rest

def quote (s : String) : List Char :=
  let cs := s.toList
  match QuoteForm.choose cs with
  | .line => '"' :: escaped false 0 cs ++ ['"']
  | .raw => '\'' :: cs ++ ['\'']
  | .block => "\"\"\"\n".toList ++ escaped true 0 cs ++ "\"\"\"".toList
  | .rawBlock => "'''\n".toList ++ cs ++ "'''".toList

mutual

def chars : Toml → List Char
  | .text s => quote s
  | .whole i => (Text.decimalInt i).toList
  | .real => "0.0".toList
  | .bool b => if b then "true".toList else "false".toList
  | .moment => "1970-01-01".toList
  | .list [] => "[]".toList
  | .list [item] => '[' :: chars item ++ [']']
  | .list (item :: next :: rest) =>
    '[' :: lineChars (item :: next :: rest) ++ "\n]".toList
  | .table entries => '\x7b' :: entryChars entries ++ ['\x7d']

def lineChars : List Toml → List Char
  | [] => []
  | item :: rest => "\n    ".toList ++ chars item ++ ',' :: lineChars rest

def entryChars : List (String × Toml) → List Char
  | [] => []
  | (key, v) :: rest =>
    ' ' :: key.toList ++ " = ".toList ++ chars v ++ (if rest = [] then [' '] else [',']) ++
      entryChars rest

end

/-- A table with a name and the keys in it. -/
structure Section where
  name : String
  entries : List (String × Toml)

namespace Section

/-- A section: its header and a line for each key. -/
def chars (s : Section) : List Char :=
  '[' :: s.name.toList ++ "]\n".toList ++
    s.entries.flatMap fun (key, v) => key.toList ++ " = ".toList ++ Toml.chars v ++ ['\n']

end Section

def render (sections : List Section) : String :=
  String.ofList (Text.joinWith ['\n'] (sections.map Section.chars))

end Workbench.Toml
